/-
Fixed-width big-endian integers and sequential readers over bytes.

A reader consumes a front of its input.  `Reads` says that it consumes exactly the
given bytes and returns the given value whatever follows them, which is the form in
which the inverse of a printer composes: one rule per way of building a reader.
-/

import Mathlib

namespace Kodansu.Lib.Wire

/-! ### Integers -/

/-- The range of a two's complement integer of `bits` bits. -/
def Fits (bits : Nat) (value : Int) : Prop :=
  -2 ^ (bits - 1) ≤ value ∧ value < 2 ^ (bits - 1)

instance (bits : Nat) (value : Int) : Decidable (Fits bits value) :=
  inferInstanceAs (Decidable (_ ∧ _))

/-- The low `width` bytes of a natural number, most significant first. -/
def natBytes : Nat → Nat → List UInt8
  | 0, _ => []
  | width + 1, value => UInt8.ofNat (value / 256 ^ width) :: natBytes width value

def bytesNat : List UInt8 → Nat
  | [] => 0
  | byte :: rest => byte.toNat * 256 ^ rest.length + bytesNat rest

/-- Two's complement in `width` bytes. -/
def intBytes (width : Nat) (value : Int) : List UInt8 :=
  natBytes width (value % 256 ^ width).toNat

def bytesInt (bytes : List UInt8) : Int :=
  Int.bmod (bytesNat bytes) (256 ^ bytes.length)

@[simp] lemma natBytes_length (width value : Nat) : (natBytes width value).length = width := by
  induction width with
  | zero => rfl
  | succ width ih => simp [natBytes,ih]

@[simp] lemma intBytes_length (width : Nat) (value : Int) :
    (intBytes width value).length = width :=
  natBytes_length width _

lemma bytesNat_lt (bytes : List UInt8) : bytesNat bytes < 256 ^ bytes.length := by
  induction bytes with
  | nil => simp [bytesNat]
  | cons byte rest ih =>
    have bound : byte.toNat ≤ 255 := Nat.le_of_lt_succ byte.toNat_lt
    have scaled : byte.toNat * 256 ^ rest.length ≤ 255 * 256 ^ rest.length :=
      Nat.mul_le_mul_right _ bound
    simp only [bytesNat,List.length_cons,pow_succ]
    omega

lemma bytesNat_natBytes (width value : Nat) :
    bytesNat (natBytes width value) = value % 256 ^ width := by
  induction width with
  | zero => simp [natBytes,bytesNat,Nat.mod_one]
  | succ width ih =>
    have digit : (UInt8.ofNat (value / 256 ^ width)).toNat = value / 256 ^ width % 256 := by
      simp [UInt8.toNat_ofNat']
    rw [natBytes,bytesNat,ih,digit,natBytes_length,pow_succ,Nat.mod_mul]
    ring

variable {ε α β : Type} {value width : Nat} {bytes : List UInt8}

lemma bytesNat_natBytes_of_lt (bound : value < 256 ^ width) :
    bytesNat (natBytes width value) = value := by
  rw [bytesNat_natBytes,Nat.mod_eq_of_lt bound]

/-- A value in the two's complement range survives its bytes. -/
lemma bytesInt_intBytes {value : Int} (fits : Fits (8 * width) value) (nonempty : 0 < width) :
    bytesInt (intBytes width value) = value := by
  obtain ⟨low,high⟩ := fits
  have modulus : (256 : Int) ^ width = 2 * 2 ^ (8 * width - 1) := by
    rw [show (256 : Int) = 2 ^ 8 by norm_num,← pow_mul,← pow_succ']
    congr 1
    omega
  have pos : (0 : Int) < 256 ^ width := by positivity
  have reduced := Int.emod_nonneg value pos.ne'
  have small := Int.emod_lt_of_pos value pos
  have toNat : (((value % 256 ^ width).toNat : Nat) : Int) = value % 256 ^ width :=
    Int.toNat_of_nonneg reduced
  have bound : (value % 256 ^ width).toNat < 256 ^ width := by
    zify
    rw [toNat]
    exact small
  rw [bytesInt,intBytes,bytesNat_natBytes_of_lt bound,toNat,natBytes_length]
  have cast : ((256 ^ width : Nat) : Int) = 256 ^ width := by push_cast; rfl
  rw [← cast,Int.emod_bmod]
  apply Int.bmod_eq_of_le <;> rw [cast,modulus] <;> omega

lemma natBytes_add_mul (width value factor : Nat) :
    natBytes width (factor * 256 ^ width + value) = natBytes width value := by
  induction width generalizing factor with
  | zero => rfl
  | succ width ih =>
    have pos : 0 < 256 ^ width := by positivity
    have split : factor * 256 ^ (width + 1) + value = (factor * 256) * 256 ^ width + value := by
      ring
    rw [natBytes,natBytes,split,ih (factor * 256)]
    congr 1
    apply UInt8.toNat.inj
    rw [UInt8.toNat_ofNat',UInt8.toNat_ofNat',Nat.add_comm,Nat.add_mul_div_right _ _ pos]
    exact Nat.add_mul_mod_self_right _ _ _

lemma natBytes_bytesNat (bytes : List UInt8) :
    natBytes bytes.length (bytesNat bytes) = bytes := by
  induction bytes with
  | nil => rfl
  | cons byte rest ih =>
    have small := bytesNat_lt rest
    have pos : 0 < 256 ^ rest.length := by positivity
    have digit : (byte.toNat * 256 ^ rest.length + bytesNat rest) / 256 ^ rest.length =
        byte.toNat := by
      rw [Nat.add_comm,Nat.add_mul_div_right _ _ pos,Nat.div_eq_of_lt small,Nat.zero_add]
    rw [List.length_cons,natBytes,bytesNat,digit,natBytes_add_mul,ih,UInt8.ofNat_toNat]

lemma intBytes_bytesInt (bytes : List UInt8) :
    intBytes bytes.length (bytesInt bytes) = bytes := by
  have small := bytesNat_lt bytes
  have cast : ((256 ^ bytes.length : Nat) : Int) = 256 ^ bytes.length := by push_cast; rfl
  have same : (bytesInt bytes % 256 ^ bytes.length).toNat = bytesNat bytes := by
    rw [bytesInt,← cast,Int.bmod_emod,Int.emod_eq_of_lt (Int.natCast_nonneg _) (by exact_mod_cast small),
      Int.toNat_natCast]
  rw [intBytes,same,natBytes_bytesNat]

lemma bytesInt_fits (length : bytes.length = width) (nonempty : 0 < width) :
    Fits (8 * width) (bytesInt bytes) := by
  have modulus : 256 ^ width = 2 * 2 ^ (8 * width - 1) := by
    rw [show 256 = 2 ^ 8 by norm_num,← pow_mul,← pow_succ']
    congr 1
    omega
  have pos : 0 < 256 ^ bytes.length := by positivity
  have low : -((256 ^ bytes.length : Nat) / 2 : Int) ≤ bytesInt bytes := Int.le_bmod pos
  have high : bytesInt bytes < ((256 ^ bytes.length : Nat) + 1 : Int) / 2 := Int.bmod_lt pos
  rw [length,modulus] at low high
  have cast : ((2 ^ (8 * width - 1) : Nat) : Int) = 2 ^ (8 * width - 1) := by push_cast; rfl
  constructor <;> rw [← cast] <;> omega

/-! ### Readers -/

/-- A reader of a front of its input, failing with an error of type `ε`. -/
abbrev Reader (ε α : Type) := StateT (List UInt8) (Except ε) α

/-- Split off `count` bytes, failing with `short` when fewer remain. -/
def take {ε : Type} (short : ε) (count : Nat) : Reader ε (List UInt8) := fun bytes =>
  if bytes.length < count then .error short
  else .ok (bytes.take count, bytes.drop count)

def readNat {ε : Type} (short : ε) (width : Nat) : Reader ε Nat :=
  bytesNat <$> take short width

def readInt {ε : Type} (short : ε) (width : Nat) : Reader ε Int :=
  bytesInt <$> take short width

/-- Fail with `short` unless `count` bytes remain; consume nothing. -/
def require {ε : Type} (short : ε) (count : Nat) : Reader ε Unit := fun bytes =>
  if bytes.length < count then .error short else .ok ((), bytes)

def lift {ε α : Type} (result : Except ε α) : Reader ε α := fun bytes =>
  result.map (fun value => (value, bytes))

def readMany {ε α : Type} (reader : Reader ε α) : Nat → Reader ε (List α)
  | 0 => pure []
  | count + 1 => do
    let first ← reader
    let rest ← readMany reader count
    pure (first :: rest)

/-- The reader consumes exactly `bytes` and returns `value`, whatever follows. -/
def Reads (reader : Reader ε α) (bytes : List UInt8) (value : α) : Prop :=
  ∀ rest, reader (bytes ++ rest) = .ok (value, rest)

lemma Reads.pure (value : α) : Reads (pure value : Reader ε α) [] value :=
  fun _ => rfl

variable {reader : Reader ε α} {res first : Except ε α} {front back rest : List UInt8}
  {next : α → Reader ε β} {f : α → β} {count : Nat} {short : ε} {values : List α}
  {bytesOf : α → List UInt8}

lemma Reads.bind {value : α} {result : β} (first : Reads reader front value)
    (second : Reads (next value) back result) : Reads (reader >>= next) (front ++ back) result := by
  intro rest
  change (reader (front ++ back ++ rest) >>= fun pair => next pair.1 pair.2) = _
  rw [List.append_assoc,first (back ++ rest)]
  exact second rest

/-- What follows the bytes of a first reader is left to the next one. -/
lemma Reads.bind_apply {value : α} (first : Reads reader front value) (next : α → Reader ε β)
    (rest : List UInt8) : (reader >>= next) (front ++ rest) = next value rest := by
  change (reader (front ++ rest) >>= fun pair => next pair.1 pair.2) = _
  rw [first rest]
  rfl

lemma ok_of_bind {next : α → Except ε β} {value : β}
    (done : first >>= next = .ok value) : ∃ middle, first = .ok middle ∧ next middle = .ok value := by
  cases first with
  | error failure => cases done
  | ok middle => exact ⟨middle,rfl,done⟩

lemma ok_of_read {res : β} {rest : List UInt8}
    (done : (reader >>= next) bytes = .ok (res, rest)) :
    ∃ value middle, reader bytes = .ok (value, middle) ∧ next value middle = .ok (res, rest) := by
  obtain ⟨⟨value,middle⟩,read,done⟩ := ok_of_bind done
  exact ⟨value,middle,read,done⟩

lemma ok_of_map {result : β} (done : (f <$> reader) bytes = .ok (result, rest)) :
    ∃ value, reader bytes = .ok (value, rest) ∧ f value = result := by
  obtain ⟨⟨value,middle⟩,read,done⟩ := ok_of_bind done
  cases done
  exact ⟨value,read,rfl⟩

lemma bind_of_error {failure : ε} (failed : reader bytes = .error failure) (next : α → Reader ε β) :
    (reader >>= next) bytes = .error failure := by
  change (reader bytes >>= fun pair => next pair.1 pair.2) = _
  rw [failed]
  rfl

lemma readInt_short (short : ε) (few : bytes.length < width) :
    readInt short width bytes = .error short := by
  change ((fun pair : List UInt8 × List UInt8 => (bytesInt pair.1, pair.2)) <$>
    take short width bytes) = _
  rw [Wire.take,if_pos few]
  rfl

lemma Reads.map {value : α} (f : α → β) (read : Reads reader bytes value) :
    Reads (f <$> reader) bytes (f value) := by
  intro rest
  change ((fun pair : α × List UInt8 => (f pair.1, pair.2)) <$> reader (bytes ++ rest)) = _
  rw [read rest]
  rfl

lemma Reads.take (length : bytes.length = count) : Reads (take short count) bytes bytes := by
  intro rest
  subst length
  simp [Wire.take]

lemma Reads.lift {value : α} (ok : res = .ok value) : Reads (Wire.lift res) [] value := by
  intro rest
  subst ok
  rfl

lemma Reads.require {next : Unit → Reader ε β} {result : β} (enough : count ≤ bytes.length)
    (read : Reads (next ()) bytes result) :
    Reads (Wire.require short count >>= next) bytes result := by
  intro rest
  have long : ¬ (bytes ++ rest).length < count := by
    rw [List.length_append]
    omega
  change (Wire.require short count (bytes ++ rest) >>= fun pair => next pair.1 pair.2) = _
  rw [Wire.require,if_neg long]
  exact read rest

lemma Reads.nat (width : Nat) {value : Nat} (bound : value < 256 ^ width) :
    Reads (readNat short width) (natBytes width value) value := by
  have bytes : Reads (Wire.take short width) (natBytes width value) (natBytes width value) :=
    Reads.take (natBytes_length width value)
  have read := bytes.map bytesNat
  rwa [bytesNat_natBytes_of_lt bound] at read

lemma Reads.int (width : Nat) {value : Int} (fits : Fits (8 * width) value) (nonempty : 0 < width) :
    Reads (readInt short width) (intBytes width value) value := by
  have bytes : Reads (Wire.take short width) (intBytes width value) (intBytes width value) :=
    Reads.take (intBytes_length width value)
  have read := bytes.map bytesInt
  rwa [bytesInt_intBytes fits nonempty] at read

lemma Reads.many (each : ∀ value ∈ values, Reads reader (bytesOf value) value) :
    Reads (readMany reader values.length) (values.flatMap bytesOf) values := by
  induction values with
  | nil => exact Reads.pure []
  | cons head tail ih =>
    have rest := ih (fun value mem => each value (List.mem_cons_of_mem head mem))
    have first := each head (.head _)
    rw [List.flatMap_cons,← List.append_nil (List.flatMap bytesOf tail)]
    exact first.bind (rest.bind (Reads.pure (head :: tail)))

/-! ### What a reader can return -/

/-- Every value the reader returns satisfies `post`. -/
def Returns (reader : Reader ε α) (post : α → Prop) : Prop :=
  ∀ bytes value rest, reader bytes = .ok (value, rest) → post value

variable {post mid : α → Prop}

lemma Returns.pure {value : α} (holds : post value) : Returns (pure value : Reader ε α) post := by
  intro bytes res rest returned
  cases returned
  exact holds

lemma Returns.bind {post : β → Prop} (first : Returns reader mid)
    (second : ∀ value, mid value → Returns (next value) post) : Returns (reader >>= next) post := by
  intro bytes res rest returned
  obtain ⟨value,middle,read,returned⟩ := ok_of_read returned
  exact second value (first bytes value middle read) middle res rest returned

lemma Returns.skip {post : β → Prop} (second : ∀ value, Returns (next value) post) :
    Returns (reader >>= next) post :=
  Returns.bind (fun _ _ _ _ => trivial) (fun value _ => second value)

lemma Returns.take (short : ε) (count : Nat) :
    Returns (take short count) (fun bytes => bytes.length = count) := by
  intro bytes value rest returned
  unfold Wire.take at returned
  split at returned
  · cases returned
  cases returned
  rw [List.length_take]
  omega

lemma Returns.map {post : β → Prop} (each : Returns reader (fun value => post (f value))) :
    Returns (f <$> reader) post := by
  intro bytes result rest returned
  obtain ⟨value,read,rfl⟩ := ok_of_map returned
  exact each bytes value rest read

lemma Returns.lift (holds : ∀ value, res = .ok value → post value) :
    Returns (Wire.lift res) post := by
  intro bytes value rest returned
  cases res with
  | error failure => cases returned
  | ok found =>
    have same : found = value := congrArg Prod.fst (Except.ok.inj returned)
    exact same ▸ holds found rfl

lemma Returns.nat (short : ε) (width : Nat) :
    Returns (readNat short width) (fun value => value < 256 ^ width) := by
  refine Returns.map (fun bytes value rest taken => ?_)
  exact Returns.take short width bytes value rest taken ▸ bytesNat_lt value

lemma Returns.many (each : Returns reader post) (count : Nat) : Returns (readMany reader count)
      (fun values => values.length = count ∧ ∀ value ∈ values, post value) := by
  induction count with
  | zero => exact Returns.pure ⟨rfl,fun _ absent => by cases absent⟩
  | succ count ih =>
    refine Returns.bind each (fun first holds => Returns.bind ih (fun rest facts => ?_))
    refine Returns.pure ⟨by simp [facts.1],?_⟩
    intro value mem
    rcases List.mem_cons.mp mem with rfl | inRest
    · exact holds
    · exact facts.2 value inRest

/-! ### What a reader consumes -/

/-- What the reader takes from the front of its input satisfies `post`, together with its value. -/
def Consumes (reader : Reader ε α) (post : α → List UInt8 → Prop) : Prop :=
  ∀ bytes value rest, reader bytes = .ok (value, rest) →
    ∃ front, bytes = front ++ rest ∧ post value front

lemma Consumes.pure {value : α} {post : α → List UInt8 → Prop} (holds : post value []) :
    Consumes (pure value : Reader ε α) post := by
  intro bytes res rest returned
  cases returned
  exact ⟨[],rfl,holds⟩

lemma Consumes.bind {mid : α → List UInt8 → Prop}
    {post : β → List UInt8 → Prop} (first : Consumes reader mid)
    (second : ∀ value front, mid value front →
      Consumes (next value) (fun res back => post res (front ++ back))) :
    Consumes (reader >>= next) post := by
  intro bytes res rest returned
  obtain ⟨value,middle,read,returned⟩ := ok_of_read returned
  obtain ⟨front,isFront,holds⟩ := first bytes value middle read
  obtain ⟨back,isBack,done⟩ := second value front holds middle res rest returned
  refine ⟨front ++ back,?_,done⟩
  rw [isFront,isBack,List.append_assoc]

lemma Consumes.mono {mid post : α → List UInt8 → Prop} (each : Consumes reader mid)
    (weaker : ∀ value front, mid value front → post value front) : Consumes reader post := by
  intro bytes value rest returned
  obtain ⟨front,isFront,holds⟩ := each bytes value rest returned
  exact ⟨front,isFront,weaker value front holds⟩

lemma Consumes.map {post : β → List UInt8 → Prop}
    (each : Consumes reader (fun value front => post (f value) front)) :
    Consumes (f <$> reader) post := by
  intro bytes result rest returned
  obtain ⟨value,read,rfl⟩ := ok_of_map returned
  exact each bytes value rest read

lemma Consumes.take (short : ε) (count : Nat) :
    Consumes (take short count) (fun value front => front = value ∧ value.length = count) := by
  intro bytes value rest returned
  have length := Returns.take short count bytes value rest returned
  unfold Wire.take at returned
  split at returned
  · cases returned
  · cases returned
    exact ⟨_,(List.take_append_drop count bytes).symm,rfl,length⟩

lemma Consumes.nat (short : ε) (width : Nat) :
    Consumes (readNat short width) (fun value front => front = natBytes width value) := by
  apply Consumes.map
  apply (Consumes.take short width).mono
  intro value front taken
  rw [← taken.2,natBytes_bytesNat]
  exact taken.1

lemma Consumes.int (short : ε) (width : Nat) (nonempty : 0 < width) :
    Consumes (readInt short width)
      (fun value front => front = intBytes width value ∧ Fits (8 * width) value) := by
  apply Consumes.map
  apply (Consumes.take short width).mono
  intro value front taken
  refine ⟨?_,bytesInt_fits taken.2 nonempty⟩
  rw [← taken.2,intBytes_bytesInt]
  exact taken.1

lemma Consumes.lift (res : Except ε α) :
    Consumes (Wire.lift res) (fun value front => front = [] ∧ res = .ok value) := by
  intro bytes value rest returned
  cases res with
  | error failure => cases returned
  | ok found =>
    cases returned
    exact ⟨[],rfl,rfl,rfl⟩

lemma Consumes.require (short : ε) (count : Nat) :
    Consumes (Wire.require short count) (fun _ front => front = []) := by
  intro bytes value rest returned
  unfold Wire.require at returned
  split at returned
  · cases returned
  · cases returned
    exact ⟨[],rfl,rfl⟩

end Kodansu.Lib.Wire

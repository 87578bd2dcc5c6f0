/-
The decoder of a records field: batches one after the other, each framed by the length that
stands after its base offset.

The length is a signed integer off the wire and is cast to an unsigned one before anything is
compared with it.  The buffer for the batch is allocated from that cast, and an allocation of
more than the largest object there can be is a panic, not an error.
-/

import Kodansu.Record.Batch

namespace Kodansu.Record

open Lib.Wire List

inductive Halt where
  | panicked
  | tryGet
  | overflow
  | custom (error : BatchError)
deriving DecidableEq

/-- A cast to an unsigned integer of 64 bits, which extends the sign. -/
def asUsize (value : Int) : Nat :=
  (value % 2 ^ 64).toNat

def isizeMax : Nat := 2 ^ 63 - 1

def withCapacity (capacity : Nat) : Except Halt Unit :=
  if capacity ≤ isizeMax then .ok () else .error .panicked

def custom {α : Type} : Except BatchError α → Except Halt α
  | .ok value => .ok value
  | .error error => .error (.custom error)

def nextBatch : Reader Halt Batch := do
  let baseOffset ← readInt .tryGet 8
  let batchLength ← readInt .tryGet 4
  lift (withCapacity (asUsize batchLength))
  let body ← take .overflow (asUsize batchLength)
  lift (custom (Batch.tryFrom (intBytes 8 baseOffset ++ intBytes 4 batchLength ++ body)))

def nextElementSeed : Reader Halt (Option Batch) := fun encoded =>
  if encoded.isEmpty then .ok (none, encoded) else (some <$> nextBatch) encoded

/-- The bytes are those of this batch, with the length that it declares; a v2 batch is written as
these bytes again. -/
structure Encodes (slice : List UInt8) (batch : Batch) : Prop where
  decoded : Batch.tryFrom slice = .ok batch
  length : (slice.length : Int) = 12 + batch.batchLength
  rewritten : batch.magic = magicRecordBatchV2 → batch.toBytes = slice

variable {slice encoded rest : List UInt8} {batch : Batch} {value : Int} {allocated : Unit}
  {halt : Halt}

lemma Encodes.declared (encodes : Encodes slice batch) :
    (slice.length : Int) = 12 + Batch.declaredLength slice ∧ 17 ≤ slice.length := by
  have declared := Batch.declared_of_tryFrom encodes.decoded
  exact ⟨declared.1 ▸ encodes.length,declared.2⟩

lemma asUsize_of_nonneg (fits : Fits 32 value) (nonneg : 0 ≤ value) :
    asUsize value = value.toNat := by
  obtain ⟨_,high⟩ := fits
  unfold asUsize
  congr 1
  apply Int.emod_eq_of_lt nonneg
  omega

lemma asUsize_of_negative (fits : Fits 32 value) (negative : value < 0) :
    isizeMax < asUsize value := by
  obtain ⟨low,_⟩ := fits
  unfold asUsize isizeMax
  omega

lemma withCapacity_eq_ok (fits : Fits 32 value)
    (done : withCapacity (asUsize value) = .ok allocated) : 0 ≤ value := by
  by_contra negative
  have large := asUsize_of_negative fits (not_le.mp negative)
  rw [withCapacity,if_neg (not_le.mpr large)] at done
  cases done

lemma nextBatch_consumes : Consumes nextBatch (fun batch front => Encodes front batch) := by
  apply (Consumes.int _ 8 (by decide)).bind
  intro baseOffset isBase baseIs
  apply (Consumes.int _ 4 (by decide)).bind
  intro batchLength isLength lengthIs
  apply (Consumes.lift _).bind
  intro _ nothing allocated
  apply (Consumes.take _ _).bind
  intro body isBody bodyIs
  apply (Consumes.lift _).mono
  intro batch front lifted
  have decoded : Batch.tryFrom (intBytes 8 baseOffset ++ intBytes 4 batchLength ++ body) =
      .ok batch := by
    cases isRead : Batch.tryFrom (intBytes 8 baseOffset ++ intBytes 4 batchLength ++ body) with
    | error failure => rw [isRead] at lifted; cases lifted.2
    | ok found => rw [isRead] at lifted; cases lifted.2; rfl
  have nonneg := withCapacity_eq_ok lengthIs.2 allocated.2
  have declared : batch.batchLength = batchLength :=
    (Batch.declared_of_tryFrom decoded).1.trans (Batch.declaredLength_framed lengthIs.2 body)
  have length : ((intBytes 8 baseOffset ++ intBytes 4 batchLength ++ body).length : Int) =
      12 + batch.batchLength := by
    have size := bodyIs.2
    rw [asUsize_of_nonneg lengthIs.2 nonneg] at size
    rw [declared,length_append,length_append,intBytes_length,intBytes_length,size]
    omega
  have same : isBase ++ (isLength ++ (nothing ++ (isBody ++ front))) =
      intBytes 8 baseOffset ++ intBytes 4 batchLength ++ body := by
    rw [baseIs.1,lengthIs.1,allocated.1,bodyIs.1,lifted.1,append_nil,nil_append,append_assoc]
  rw [same]
  exact ⟨decoded,length,Batch.toBytes_of_tryFrom decoded length⟩

lemma nextBatch_shorter (next : nextBatch encoded = .ok (batch, rest)) :
    rest.length < encoded.length := by
  obtain ⟨slice,isSlice,encodes⟩ := nextBatch_consumes encoded batch rest next
  have enough := encodes.declared.2
  rw [isSlice,length_append]
  omega

lemma nextElementSeed_of_ne_nil (nonempty : encoded ≠ []) :
    nextElementSeed encoded = (nextBatch encoded).map (fun pair => (some pair.1, pair.2)) := by
  rw [nextElementSeed,if_neg (by simpa using nonempty)]
  rfl

lemma nextElementSeed_some (next : nextElementSeed encoded = .ok (some batch, rest)) :
    nextBatch encoded = .ok (batch, rest) := by
  by_cases empty : encoded = []
  · rw [empty] at next
    cases next
  · rw [nextElementSeed_of_ne_nil empty] at next
    cases isNext : nextBatch encoded with
    | error failure => rw [isNext] at next; cases next
    | ok pair => rw [isNext] at next; cases next; rfl

/-- All batches of a field: the visitor asks for the next one until there is none. -/
def visitSeq (encoded : List UInt8) : Except Halt (List Batch) :=
  match _next : nextElementSeed encoded with
  | .error halt => .error halt
  | .ok (none, _) => .ok []
  | .ok (some batch, rest) =>
    match visitSeq rest with
    | .error halt => .error halt
    | .ok batches => .ok (batch :: batches)
termination_by encoded.length
decreasing_by exact nextBatch_shorter (nextElementSeed_some _next)

lemma visitSeq_nil : visitSeq [] = .ok [] := by
  rw [visitSeq]
  rfl

lemma visitSeq_of_error (nonempty : encoded ≠ [])
    (failed : nextBatch encoded = .error halt) : visitSeq encoded = .error halt := by
  have next : nextElementSeed encoded = .error halt := by
    rw [nextElementSeed_of_ne_nil nonempty,failed]
    rfl
  rw [visitSeq]
  split
  · next found => exact Except.error.inj (found.symm.trans next) ▸ rfl
  · next found => cases found.symm.trans next
  · next found => cases found.symm.trans next

lemma visitSeq_of_ok (next : nextBatch encoded = .ok (batch, rest)) :
    visitSeq encoded = (visitSeq rest).map (batch :: ·) := by
  have nonempty : encoded ≠ [] := by
    have shorter := nextBatch_shorter next
    intro empty
    rw [empty] at shorter
    cases shorter
  have step : nextElementSeed encoded = .ok (some batch, rest) := by
    rw [nextElementSeed_of_ne_nil nonempty,next]
    rfl
  rw [visitSeq]
  split
  · next found => cases found.symm.trans step
  · next found => cases found.symm.trans step
  rename_i found
  cases found.symm.trans step
  cases visitSeq rest <;> rfl

lemma visitSeq_cases (encoded : List UInt8) :
    encoded = [] ∨ (∃ halt, nextBatch encoded = .error halt ∧ visitSeq encoded = .error halt) ∨
      ∃ batch rest, nextBatch encoded = .ok (batch, rest) ∧
        visitSeq encoded = (visitSeq rest).map (batch :: ·) := by
  by_cases empty : encoded = []
  · exact .inl empty
  · cases next : nextBatch encoded with
    | error halt => exact .inr (.inl ⟨halt,rfl,visitSeq_of_error empty next⟩)
    | ok pair => exact .inr (.inr ⟨pair.1,pair.2,rfl,visitSeq_of_ok next⟩)

/-! ### Slices -/

/-- The encodings of the batches, one after the other, are the whole field. -/
def Consecutive (field : List UInt8) (batches : List Batch) : Prop :=
  ∃ slices : List (List UInt8), slices.flatten = field ∧ List.Forall₂ Encodes slices batches

lemma Consecutive.nil : Consecutive [] [] :=
  ⟨[],rfl,.nil⟩

variable {batches : List Batch} {field : List UInt8}

lemma Consecutive.cons (encodes : Encodes slice batch)
    (later : Consecutive rest batches) : Consecutive (slice ++ rest) (batch :: batches) := by
  obtain ⟨slices,whole,each⟩ := later
  refine ⟨slice :: slices,?_,.cons encodes each⟩
  rw [flatten_cons,whole]

lemma visitSeq_consecutive
    (visited : visitSeq field = .ok batches) : Consecutive field batches := by
  induction batches generalizing field with
  | nil =>
    rcases visitSeq_cases field with empty | ⟨halt,_,failed⟩ | ⟨batch,rest,_,onward⟩
    · rw [empty]
      exact .nil
    · cases failed.symm.trans visited
    · rw [onward] at visited
      cases isRest : visitSeq rest <;> rw [isRest] at visited <;> cases visited
  | cons batch batches ih =>
    rcases visitSeq_cases field with empty | ⟨halt,_,failed⟩ | ⟨first,rest,next,onward⟩
    · rw [empty,visitSeq_nil] at visited
      cases visited
    · cases failed.symm.trans visited
    · rw [onward] at visited
      cases isRest : visitSeq rest with
      | error halt => rw [isRest] at visited; cases visited
      | ok later =>
        rw [isRest] at visited
        cases visited
        obtain ⟨slice,isSlice,encodes⟩ := nextBatch_consumes field batch rest next
        rw [isSlice]
        exact .cons encodes (ih isRest)

/-! ### Lengths below zero -/

/-- After batches that decode, a header declares a length below zero. -/
inductive DeclaresNegative : List UInt8 → Prop
  | here {encoded : List UInt8} (headed : 12 ≤ encoded.length)
      (negative : Batch.declaredLength encoded < 0) : DeclaresNegative encoded
  | later {slice rest : List UInt8} {batch : Batch} (decoded : Batch.tryFrom slice = .ok batch)
      (length : (slice.length : Int) = 12 + Batch.declaredLength slice)
      (onward : DeclaresNegative rest) : DeclaresNegative (slice ++ rest)

variable {width : Nat} {baseOffset batchLength : Int}

lemma front_inv (nonempty : 0 < width) (enough : width ≤ encoded.length) :
    ∃ value rest, Fits (8 * width) value ∧ encoded = intBytes width value ++ rest := by
  have length : (encoded.take width).length = width := by
    rw [length_take]
    omega
  have isFront := intBytes_bytesInt (encoded.take width)
  rw [length] at isFront
  refine ⟨bytesInt (encoded.take width),encoded.drop width,bytesInt_fits length nonempty,?_⟩
  rw [isFront,take_append_drop]

lemma nextBatch_headed (isOffset : Fits 64 baseOffset)
    (isLength : Fits 32 batchLength) (body : List UInt8) :
    nextBatch (intBytes 8 baseOffset ++ (intBytes 4 batchLength ++ body)) = (do
        lift (withCapacity (asUsize batchLength)) let body ← take .overflow (asUsize batchLength)
        lift (custom (Batch.tryFrom
          (intBytes 8 baseOffset ++ intBytes 4 batchLength ++ body))) : Reader Halt Batch) body := by
  unfold nextBatch
  rw [(Reads.int 8 isOffset (by decide)).bind_apply,(Reads.int 4 isLength (by decide)).bind_apply]


lemma withCapacity_of_nonneg (fits : Fits 32 value) (nonneg : 0 ≤ value) :
    withCapacity (asUsize value) = .ok () := by
  apply if_pos
  rw [asUsize_of_nonneg fits nonneg]
  obtain ⟨_,high⟩ := fits
  unfold isizeMax
  omega

lemma nextBatch_allocated {baseOffset batchLength : Int} (isOffset : Fits 64 baseOffset)
    (isLength : Fits 32 batchLength) (nonneg : 0 ≤ batchLength) (body : List UInt8) :
    nextBatch (intBytes 8 baseOffset ++ (intBytes 4 batchLength ++ body)) = (do
        let body ← take .overflow (asUsize batchLength)
        lift (custom (Batch.tryFrom
          (intBytes 8 baseOffset ++ intBytes 4 batchLength ++ body))) : Reader Halt Batch) body := by
  rw [nextBatch_headed isOffset isLength,withCapacity_of_nonneg isLength nonneg]
  rfl

lemma nextBatch_short (short : encoded.length < 12) : nextBatch encoded = .error .tryGet := by
  unfold nextBatch
  by_cases few : encoded.length < 8
  · exact bind_of_error (readInt_short _ few) _
  · obtain ⟨baseOffset,rest,fits,rfl⟩ := front_inv (by decide : 0 < 8) (not_lt.mp few)
    rw [(Reads.int 8 fits (by decide)).bind_apply]
    rw [length_append,intBytes_length] at short
    exact bind_of_error (readInt_short _ (by omega)) _

lemma nextBatch_of_slice (decoded : Batch.tryFrom slice = .ok batch)
    (length : (slice.length : Int) = 12 + Batch.declaredLength slice) (rest : List UInt8) :
    nextBatch (slice ++ rest) = .ok (batch, rest) := by
  have headed := (Batch.declared_of_tryFrom decoded).2
  obtain ⟨baseOffset,tail,isOffset,rfl⟩ := front_inv (by decide : 0 < 8)
    (show 8 ≤ slice.length by omega)
  rw [length_append,intBytes_length] at headed
  obtain ⟨batchLength,body,isLength,rfl⟩ := front_inv (by decide : 0 < 4)
    (show 4 ≤ tail.length by omega)
  rw [← append_assoc,Batch.declaredLength_framed isLength] at length
  rw [length_append,length_append,intBytes_length,intBytes_length] at length
  have nonneg : 0 ≤ batchLength := by omega
  have size : body.length = asUsize batchLength := by
    rw [asUsize_of_nonneg isLength nonneg]
    omega
  rw [append_assoc,append_assoc,nextBatch_allocated isOffset isLength nonneg,
    (Reads.take size).bind_apply,append_assoc,decoded]
  rfl

lemma framed_ne_panicked (size : Nat) (decode : List UInt8 → Except BatchError Batch)
    (bytes : List UInt8) :
    (do
      let body ← take .overflow size
      lift (custom (decode body)) : Reader Halt Batch) bytes ≠ .error .panicked := by
  intro panicked
  by_cases few : bytes.length < size
  · rw [bind_of_error (if_pos few)] at panicked
    cases panicked
  · have taken : take Halt.overflow size bytes = .ok (bytes.take size, bytes.drop size) :=
      if_neg few
    change (take Halt.overflow size bytes >>= fun pair => lift (custom (decode pair.1)) pair.2) =
      _ at panicked
    rw [taken] at panicked
    change lift (custom (decode (bytes.take size))) (bytes.drop size) = _ at panicked
    cases decoded : decode (bytes.take size) with
    | error | ok => rw [decoded] at panicked; cases panicked

lemma nextBatch_panics_iff (encoded : List UInt8) :
    nextBatch encoded = .error .panicked ↔
      12 ≤ encoded.length ∧ Batch.declaredLength encoded < 0 := by
  by_cases short : encoded.length < 12
  · rw [nextBatch_short short]
    constructor
    · intro panicked
      cases panicked
    · intro headed
      omega
  · have headed : 12 ≤ encoded.length := not_lt.mp short
    obtain ⟨baseOffset,rest,isOffset,rfl⟩ := front_inv (by decide : 0 < 8)
      (show 8 ≤ encoded.length by omega)
    rw [length_append,intBytes_length] at headed
    obtain ⟨batchLength,body,isLength,rfl⟩ := front_inv (by decide : 0 < 4)
      (show 4 ≤ rest.length by omega)
    by_cases negative : batchLength < 0
    · have panicked : withCapacity (asUsize batchLength) = .error .panicked :=
        if_neg (not_le.mpr (asUsize_of_negative isLength negative))
      rw [nextBatch_headed isOffset isLength,panicked,← append_assoc,
        Batch.declaredLength_framed isLength]
      exact ⟨fun _ => ⟨not_lt.mp short,negative⟩,fun _ => rfl⟩
    · rw [nextBatch_allocated isOffset isLength (not_lt.mp negative),← append_assoc,
        Batch.declaredLength_framed isLength]
      exact ⟨fun panicked => absurd panicked (framed_ne_panicked _ _ body),
        fun below => absurd below.2 negative⟩

/-- The decoder panics where it meets a length below zero, and only there. -/
lemma visitSeq_panics_iff (field : List UInt8) :
    visitSeq field = .error .panicked ↔ DeclaresNegative field := by
  constructor
  · intro panicked
    induction isLength : field.length using Nat.strong_induction_on generalizing field with
    | _ length ih =>
      rcases visitSeq_cases field with empty | ⟨halt,next,failed⟩ | ⟨batch,rest,next,onward⟩
      · rw [empty,visitSeq_nil] at panicked
        cases panicked
      · cases failed.symm.trans panicked
        obtain ⟨headed,negative⟩ := (nextBatch_panics_iff field).mp next
        exact .here headed negative
      · have later : visitSeq rest = .error .panicked := by
          rw [onward] at panicked
          cases isRest : visitSeq rest with
          | error halt => rw [isRest] at panicked; cases panicked; rfl
          | ok batches => rw [isRest] at panicked; cases panicked
        have shorter := nextBatch_shorter next
        obtain ⟨slice,rfl,encodes⟩ := nextBatch_consumes field batch rest next
        exact .later encodes.decoded encodes.declared.1 (ih _ (isLength ▸ shorter) rest later rfl)
  · intro negative
    induction negative with
    | here headed negative =>
      apply visitSeq_of_error
      · intro empty
        rw [empty] at headed
        cases headed
      · exact (nextBatch_panics_iff _).mpr ⟨headed,negative⟩
    | later decoded length onward ih =>
      rw [visitSeq_of_ok (nextBatch_of_slice decoded length _),ih]
      rfl

def TotalAndExact (field : List UInt8) : Prop :=
  visitSeq field ≠ .error .panicked ∧
    ∀ batches, visitSeq field = .ok batches → Consecutive field batches

theorem records_total_exact_iff (field : List UInt8) :
    TotalAndExact field ↔ ¬ DeclaresNegative field := by
  unfold TotalAndExact
  rw [Ne,visitSeq_panics_iff]
  exact and_iff_left (fun batches visited => visitSeq_consecutive visited)

theorem negativeLength_panics :
    ¬ TotalAndExact (List.replicate 8 0 ++ List.replicate 4 255) := by
  intro total
  apply total.1
  rw [visitSeq_panics_iff]
  exact .here (by decide) (by decide)

end Kodansu.Record

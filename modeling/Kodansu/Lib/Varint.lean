/-
Integers in groups of seven bits, least significant first, and the zigzag form that keeps small
signed integers short.

Every byte but the last has its high bit set.  A reader adds up the groups at their places.  One
reader fails where a group or the sum leaves the width, the other one wraps.
-/

import Kodansu.Lib.Wire

namespace Kodansu.Lib.Wire

variable {ε : Type} {bits w index : Nat}

/-! ### Groups of seven bits -/

def groupBytes (value : Nat) : List UInt8 :=
  if 128 ≤ value then (UInt8.ofNat value ||| 128) :: groupBytes (value / 128)
  else [UInt8.ofNat value]
termination_by value

def checkedGroups (short overflow : ε) (bits : Nat) :
    List UInt8 → Nat → Nat → Except ε (Nat × List UInt8)
  | [], _, _ => .error short
  | byte :: rest, shift, total =>
    let sum := total + (byte &&& 127).toNat * 2 ^ shift % 2 ^ bits
    if bits ≤ shift ∨ 2 ^ bits ≤ sum then .error overflow
    else if byte &&& 128 = 128 then checkedGroups short overflow bits rest (shift + 7) sum
    else .ok (sum, rest)

/-- The place of a group is kept in a byte, and counts modulo the width. -/
def wrappingGroups (short : ε) (bits : Nat) :
    List UInt8 → Nat → Nat → Except ε (Nat × List UInt8)
  | [], _, _ => .error short
  | byte :: rest, shift, total =>
    let sum := (total + (byte &&& 127).toNat * 2 ^ (shift % bits)) % 2 ^ bits
    if byte &&& 128 = 128 then wrappingGroups short bits rest ((shift + 7) % 256) sum
    else .ok (sum, rest)

def readChecked (short overflow : ε) (bits : Nat) : Reader ε Nat :=
  fun bytes => checkedGroups short overflow bits bytes 0 0

def readWrapping (short : ε) (bits : Nat) : Reader ε Nat :=
  fun bytes => wrappingGroups short bits bytes 0 0

lemma and_low (byte : UInt8) : (byte &&& 127).toNat = byte.toNat % 128 := by
  rw [UInt8.toNat_and]
  exact Nat.and_two_pow_sub_one_eq_mod byte.toNat 7

lemma and_high (byte : UInt8) : byte &&& 128 = 128 ↔ 128 ≤ byte.toNat := by
  have each : ∀ bits : BitVec 8, bits &&& 128 = 128 ↔ 128 ≤ bits.toNat := by decide +kernel
  rw [← UInt8.toBitVec_inj]
  exact each byte.toBitVec

lemma or_high (value : Nat) : (UInt8.ofNat value ||| 128).toNat = value % 128 + 128 := by
  have each : ∀ bits : BitVec 8, (bits ||| 128).toNat = bits.toNat % 128 + 128 := by
    decide +kernel
  have low := each (UInt8.ofNat value).toBitVec
  have isByte : (UInt8.ofNat value).toBitVec.toNat = value % 256 := UInt8.toNat_ofNat'
  rw [isByte,Nat.mod_mod_of_dvd value (by norm_num)] at low
  exact low

/-- The groups of a value from some place on are added up, whatever follows them. -/
lemma checkedGroups_groupBytes (short overflow : ε) (rest : List UInt8) (value shift total : Nat)
    (place : shift < bits) (fits : total + value * 2 ^ shift < 2 ^ bits) :
    checkedGroups short overflow bits (groupBytes value ++ rest) shift total =
      .ok (total + value * 2 ^ shift, rest) := by
  induction value using Nat.strongRecOn generalizing shift total with
  | ind value ih =>
    rw [groupBytes]
    have lowest : value % 128 * 2 ^ shift ≤ value * 2 ^ shift :=
      Nat.mul_le_mul_right _ (Nat.mod_le _ _)
    split
    · rename_i more
      have whole : value * 2 ^ shift =
          value % 128 * 2 ^ shift + value / 128 * 2 ^ (shift + 7) := by
        rw [pow_add]
        conv_lhs => rw [← Nat.mod_add_div value 128]
        ring
      have higher : 2 ^ (shift + 7) ≤ value / 128 * 2 ^ (shift + 7) :=
        Nat.le_mul_of_pos_left _ (Nat.div_pos more (by norm_num))
      have place' : shift + 7 < bits := by
        rw [← Nat.pow_lt_pow_iff_right (a := 2) (by norm_num)]
        omega
      have high : (UInt8.ofNat value ||| 128) &&& 128 = 128 := by
        rw [and_high,or_high]
        omega
      have low : ((UInt8.ofNat value ||| 128) &&& 127).toNat * 2 ^ shift % 2 ^ bits =
          value % 128 * 2 ^ shift := by
        rw [and_low,or_high,Nat.add_mod_right,Nat.mod_mod,Nat.mod_eq_of_lt (by omega)]
      rw [List.cons_append,checkedGroups]
      simp only [low,high,if_true]
      rw [if_neg (by omega),ih (value / 128) (Nat.div_lt_self (by omega) (by norm_num)) _ _ place'
        (by omega),whole,Nat.add_assoc]
    · rename_i last
      have small : (UInt8.ofNat value).toNat = value := by
        rw [UInt8.toNat_ofNat',Nat.mod_eq_of_lt (by omega)]
      have high : ¬ UInt8.ofNat value &&& 128 = 128 := by
        rw [and_high,small]
        exact last
      have low : (UInt8.ofNat value &&& 127).toNat * 2 ^ shift % 2 ^ bits = value * 2 ^ shift := by
        rw [and_low,small,Nat.mod_eq_of_lt (by omega : value < 128),Nat.mod_eq_of_lt (by omega)]
      rw [List.singleton_append,checkedGroups]
      simp only [low]
      rw [if_neg (by omega),if_neg high]

lemma Reads.groups (short overflow : ε) {bits value : Nat} (nonempty : 0 < bits)
    (fits : value < 2 ^ bits) :
    Reads (readChecked short overflow bits) (groupBytes value) value := by
  intro rest
  have read := checkedGroups_groupBytes short overflow rest value 0 0 nonempty (by simpa using fits)
  rw [readChecked,read,pow_zero,Nat.mul_one,Nat.zero_add]

/-! ### Zigzag -/

def enZigzag (decoded : BitVec w) : BitVec w := decoded <<< 1 ^^^ decoded.sshiftRight (w - 1)

def deZigzag (encoded : BitVec w) : BitVec w := encoded >>> 1 ^^^ -(encoded &&& 1)

lemma getLsbD_enZigzag (value : BitVec w) (inside : index < w) :
    (enZigzag value).getLsbD index =
      ((decide (0 < index) && value.getLsbD (index - 1)) ^^ value.msb) := by
  have sign : (value.sshiftRight (w - 1)).getLsbD index = value.msb := by
    rw [BitVec.getLsbD_sshiftRight]
    split
    · have zero : w - 1 + index = w - 1 := by omega
      rw [zero,BitVec.msb_eq_getLsbD_last]
      simp [inside]
    · simp [inside]
  rw [enZigzag,BitVec.getLsbD_xor,sign,BitVec.getLsbD_shiftLeft]
  congr 1
  cases index <;> simp [inside]

/-- The low bit is the sign: all bits are flipped where it is set. -/
lemma getLsbD_deZigzag (encoded : BitVec w) (inside : index < w) :
    (deZigzag encoded).getLsbD index =
      (encoded.getLsbD (index + 1) ^^ encoded.getLsbD 0) := by
  have low : encoded &&& 1 = if encoded.getLsbD 0 then 1 else 0 := by
    apply BitVec.eq_of_getLsbD_eq
    intro place inPlace
    rw [BitVec.getLsbD_and]
    split <;> rename_i isSet <;> cases place <;> simp_all
  have mask : (-(encoded &&& 1)).getLsbD index = encoded.getLsbD 0 := by
    rw [low]
    split <;> rename_i isSet
    · have ones : -(1 : BitVec w) = BitVec.allOnes w := BitVec.neg_one_eq_allOnes
      rw [ones,BitVec.getLsbD_allOnes,isSet]
      exact decide_eq_true inside
    · simp [isSet]
  rw [deZigzag,BitVec.getLsbD_xor,mask,BitVec.getLsbD_ushiftRight,Nat.add_comm]

lemma deZigzag_enZigzag (value : BitVec w) : deZigzag (enZigzag value) = value := by
  apply BitVec.eq_of_getLsbD_eq
  intro index inside
  have sign : (enZigzag value).getLsbD 0 = value.msb := by
    rw [getLsbD_enZigzag value (by omega)]
    simp
  rw [getLsbD_deZigzag _ inside,sign]
  by_cases last : index + 1 < w
  · rw [getLsbD_enZigzag value last]
    simp
  · have same : value.getLsbD index = value.msb := by
      have final : w - 1 = index := by omega
      rw [BitVec.msb_eq_getLsbD_last,final]
    rw [BitVec.getLsbD_of_ge _ _ (by omega),same]
    simp

/-- The bytes of a signed integer are those of its zigzag form. -/
def signedBytes (value : BitVec w) : List UInt8 := groupBytes (enZigzag value).toNat

def signedOf (reader : Reader ε Nat) (w : Nat) : Reader ε (BitVec w) :=
  (fun total => deZigzag (BitVec.ofNat w total)) <$> reader

lemma Reads.signed (short overflow : ε) (nonempty : 0 < w) (value : BitVec w) :
    Reads (signedOf (readChecked short overflow w) w) (signedBytes value) value := by
  have total := Reads.groups short overflow nonempty (enZigzag value).isLt
  have read := total.map (fun total => deZigzag (BitVec.ofNat w total))
  rwa [BitVec.ofNat_toNat,BitVec.setWidth_eq,deZigzag_enZigzag] at read

/-! ### Bytes and sequences -/

def readByte (short : ε) : Reader ε UInt8
  | [] => .error short
  | byte :: rest => .ok (byte, rest)

lemma Reads.byte (short : ε) (byte : UInt8) : Reads (readByte short) [byte] byte :=
  fun _ => rfl

/-- Values whose writer may fail are read back one after another. -/
lemma Reads.each {α : Type} {reader : Reader ε α} {write : α → Except ε (List UInt8)}
    {values : List α} {parts : List (List UInt8)}
    (each : ∀ value bytes, write value = .ok bytes → Reads reader bytes value)
    (written : values.mapM write = .ok parts) :
    Reads (readMany reader values.length) parts.flatten values := by
  induction values generalizing parts with
  | nil =>
    cases written
    exact Reads.pure []
  | cons head tail ih =>
    rw [List.mapM_cons] at written
    obtain ⟨front,isFront,written⟩ := ok_of_bind written
    obtain ⟨back,isBack,written⟩ := ok_of_bind written
    cases written
    rw [List.flatten_cons,← List.append_nil back.flatten]
    exact (each head front isFront).bind ((ih isBack).bind (Reads.pure (head :: tail)))

end Kodansu.Lib.Wire

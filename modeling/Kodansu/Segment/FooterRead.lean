/-
Reading a stored segment's footer from the end of the object, with one read of a fixed size and
a second, exact one for a footer that does not fit.
-/

import Kodansu.Segment.Encode

namespace Kodansu.Segment

open Lib.Wire List

def segmentFooterOverRead : Nat := 64 * 1024

/-- A ranged read of the last `length` bytes, or of the object if it is shorter. -/
def suffixRead (object : List UInt8) (length : Nat) : List UInt8 :=
  object.drop (object.length - length)

/-- Nothing when the addition to the untrusted length exceeds a machine word. -/
def readSegmentFooter (object : List UInt8) : Option (Except FooterError (Option SegmentFooter)) :=
  let overRead := max segmentFooterOverRead segmentTrailerLen
  let buffer := suffixRead object overRead
  if buffer.length < segmentTrailerLen then some (.ok none)
  else
    let trailer := buffer.drop (buffer.length - segmentTrailerLen)
    if bytesNat (slice trailer 14 18) ≠ segmentMagic then some (.ok none)
    else
      let footerLen := bytesNat (slice trailer 0 8)
      if 2 ^ 64 ≤ segmentTrailerLen + footerLen then none
      else if segmentTrailerLen + footerLen ≤ buffer.length then some (decodeSegmentFooter buffer)
      else some (decodeSegmentFooter (suffixRead object (segmentTrailerLen + footerLen)))

lemma slice_drop (bytes : List UInt8) (skipped start stop : Nat) :
    slice (bytes.drop skipped) start stop = slice bytes (skipped + start) (skipped + stop) := by
  unfold slice
  rw [take_drop,drop_drop]

lemma suffixRead_length (object : List UInt8) (size : Nat) :
    (suffixRead object size).length = min size object.length := by
  unfold suffixRead
  rw [length_drop]
  omega

variable {short long size : Nat} {object : List UInt8}

lemma suffixRead_suffixRead (object : List UInt8) (shorter : short ≤ long) :
    suffixRead (suffixRead object long) short = suffixRead object short := by
  unfold suffixRead
  rw [drop_drop,length_drop]
  congr 1
  omega

/-- A suffix with the whole footer decodes as the object does. -/
lemma decodeSegmentFooter_suffixRead (trailer : segmentTrailerLen ≤ size)
    (holds : segmentTrailerLen + bytesNat (slice (suffixRead object segmentTrailerLen) 0 8) ≤ size) :
    decodeSegmentFooter (suffixRead object size) = decodeSegmentFooter object := by
  by_cases whole : object.length ≤ size
  · unfold suffixRead
    rw [Nat.sub_eq_zero_of_le whole,drop_zero]
  have sized := suffixRead_length object size
  rw [min_eq_left (by omega)] at sized
  have same : (suffixRead object size).drop ((suffixRead object size).length - segmentTrailerLen) =
      object.drop (object.length - segmentTrailerLen) :=
    suffixRead_suffixRead object trailer
  unfold decodeSegmentFooter
  dsimp only
  rw [same,sized]
  change segmentTrailerLen + bytesNat (slice (object.drop _) 0 8) ≤ size at holds
  generalize bytesNat (slice (object.drop (object.length - segmentTrailerLen)) 0 8) = footerLen at *
  have footer : slice (suffixRead object size) (size - segmentTrailerLen - footerLen)
      (size - segmentTrailerLen) = slice object (object.length - segmentTrailerLen - footerLen)
        (object.length - segmentTrailerLen) := by
    rw [suffixRead,slice_drop]
    congr 1 <;> omega
  rw [footer,if_neg (not_lt.mpr trailer),if_neg (by omega : ¬ object.length < segmentTrailerLen),
    if_neg (by omega : ¬ size - segmentTrailerLen < footerLen),
    if_neg (by omega : ¬ object.length - segmentTrailerLen < footerLen)]

/-- The reads find what decoding the whole object finds, unless the length in a trailer overflows
the word. -/
theorem readSegmentFooter_exact (object : List UInt8) :
    readSegmentFooter object = some (decodeSegmentFooter object) ↔
      ¬ (segmentTrailerLen ≤ object.length ∧
        bytesNat (slice (suffixRead object segmentTrailerLen) 14 18) = segmentMagic ∧
        2 ^ 64 ≤ segmentTrailerLen + bytesNat (slice (suffixRead object segmentTrailerLen) 0 8)) := by
  have room : segmentTrailerLen ≤ max segmentFooterOverRead segmentTrailerLen := le_max_right _ _
  have sized := suffixRead_length object (max segmentFooterOverRead segmentTrailerLen)
  have same := suffixRead_suffixRead object room
  unfold readSegmentFooter
  dsimp only
  rw [show ∀ buffer : List UInt8, buffer.drop (buffer.length - segmentTrailerLen) =
    suffixRead buffer segmentTrailerLen from fun _ => rfl,same,sized]
  split
  · apply iff_of_true _ (by omega)
    rw [decodeSegmentFooter,if_pos (by omega)]
  split
  · next differs =>
    apply iff_of_true _ (fun high => differs high.2.1)
    apply congrArg some
    rw [decodeSegmentFooter,if_neg (by omega)]
    exact (if_pos differs).symm
  · next isMagic =>
    split
    · next high =>
      exact iff_of_false nofun (fun fits => fits ⟨by omega,not_not.mp isMagic,high⟩)
    · next fits =>
      apply iff_of_true _ (fun high => fits high.2.2)
      split
      · rw [decodeSegmentFooter_suffixRead room (by omega)]
      · rw [decodeSegmentFooter_suffixRead (Nat.le_add_right _ _) (le_refl _)]

theorem readSegmentFooter_overflows :
    readSegmentFooter (trailerBytes (2 ^ 64 - 1) 0 1) = none ∧
      decodeSegmentFooter (trailerBytes (2 ^ 64 - 1) 0 1) = .error .lengthExceedsTail := by
  decide

end Kodansu.Segment

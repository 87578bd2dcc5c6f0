/-
The deflated record batch and its wire form.

Decoding stops at a `magic` other than 2 and returns a husk: the three fields at a
position both layouts share, and defaults for the rest.  A checksum mismatch is only
logged by the decoder, so the checksum is an ordinary field here.
-/

import Kodansu.Lib.Wire

namespace Kodansu.Record

open Lib.Wire List

def fixedBatchLength : Nat := 49

def magicRecordBatchV2 : Int := 2

structure Batch where
  baseOffset : Int := 0
  batchLength : Int := 0
  partitionLeaderEpoch : Int := 0
  magic : Int := 0
  crc : Nat := 0
  attributes : Int := 0
  lastOffsetDelta : Int := 0
  baseTimestamp : Int := 0
  maxTimestamp : Int := 0
  producerId : Int := 0
  producerEpoch : Int := 0
  baseSequence : Int := 0
  recordCount : Nat := 0
  recordData : List UInt8 := []
deriving DecidableEq

inductive BatchError where
  | tryGet
  | tryFromInt
  | overflow
deriving DecidableEq

namespace Batch

/-- The ranges of the machine integers the batch is made of. -/
structure Typed (batch : Batch) : Prop where
  baseOffset : Fits 64 batch.baseOffset
  batchLength : Fits 32 batch.batchLength
  partitionLeaderEpoch : Fits 32 batch.partitionLeaderEpoch
  magic : Fits 8 batch.magic
  crc : batch.crc < 2 ^ 32
  attributes : Fits 16 batch.attributes
  lastOffsetDelta : Fits 32 batch.lastOffsetDelta
  baseTimestamp : Fits 64 batch.baseTimestamp
  maxTimestamp : Fits 64 batch.maxTimestamp
  producerId : Fits 64 batch.producerId
  producerEpoch : Fits 16 batch.producerEpoch
  baseSequence : Fits 32 batch.baseSequence
  recordCount : batch.recordCount < 2 ^ 32

def isTransactional (batch : Batch) : Bool :=
  batch.attributes / 16 % 2 = 1

def isControl (batch : Batch) : Bool :=
  batch.attributes / 32 % 2 = 1

def isIdempotent (batch : Batch) : Bool :=
  batch.producerId ≠ -1 && batch.baseSequence ≠ -1

def wireSize (batch : Batch) : Nat :=
  8 + 4 + fixedBatchLength + batch.recordData.length

def offsets (batch : Batch) : Int :=
  batch.lastOffsetDelta + 1

def encodedBatchLength (batch : Batch) : Except BatchError Int :=
  if fixedBatchLength + batch.recordData.length < 2 ^ 31 then
    .ok (fixedBatchLength + batch.recordData.length)
  else .error .tryFromInt

def declaresItsOwnLength (batch : Batch) : Bool :=
  match batch.encodedBatchLength with
  | .ok encoded => encoded == batch.batchLength
  | .error _ => false

def toBytes (batch : Batch) : List UInt8 :=
  [ intBytes 8 batch.baseOffset, intBytes 4 batch.batchLength,
    intBytes 4 batch.partitionLeaderEpoch,
    intBytes 1 batch.magic,
    natBytes 4 batch.crc,
    intBytes 2 batch.attributes,
    intBytes 4 batch.lastOffsetDelta,
    intBytes 8 batch.baseTimestamp,
    intBytes 8 batch.maxTimestamp,
    intBytes 8 batch.producerId,
    intBytes 2 batch.producerEpoch,
    intBytes 4 batch.baseSequence,
    natBytes 4 batch.recordCount,
    batch.recordData ].flatten

/-! ### Decoding -/

private def usize (value : Int) : Except BatchError Nat :=
  if 0 ≤ value then .ok value.toNat else .error .tryFromInt

private def checkedSub (left right : Nat) : Except BatchError Nat :=
  if right ≤ left then .ok (left - right) else .error .overflow

def husk (baseOffset batchLength magic : Int) : Batch :=
  { baseOffset := baseOffset
    batchLength := batchLength
    magic := magic }

def readV2 (baseOffset batchLength partitionLeaderEpoch magic : Int) :
    Reader BatchError Batch := do
  let crc ← readNat .tryGet 4
  let crcDataSize ← lift (do
    let length ← usize batchLength
    let length ← checkedSub length 4
    let length ← checkedSub length 1
    checkedSub length 4)
  require .overflow crcDataSize
  let attributes ← readInt .tryGet 2
  let lastOffsetDelta ← readInt .tryGet 4
  let baseTimestamp ← readInt .tryGet 8
  let maxTimestamp ← readInt .tryGet 8
  let producerId ← readInt .tryGet 8
  let producerEpoch ← readInt .tryGet 2
  let baseSequence ← readInt .tryGet 4
  let recordCount ← readNat .tryGet 4
  let recordDataSize ← lift (do
    let length ← usize batchLength
    checkedSub length fixedBatchLength)
  let recordData ← take .overflow recordDataSize
  pure
    { baseOffset := baseOffset
      batchLength := batchLength
      partitionLeaderEpoch := partitionLeaderEpoch
      magic := magic
      crc := crc
      attributes := attributes
      lastOffsetDelta := lastOffsetDelta
      baseTimestamp := baseTimestamp
      maxTimestamp := maxTimestamp
      producerId := producerId
      producerEpoch := producerEpoch
      baseSequence := baseSequence
      recordCount := recordCount
      recordData := recordData }

def read : Reader BatchError Batch := do
  let baseOffset ← readInt .tryGet 8
  let batchLength ← readInt .tryGet 4
  let partitionLeaderEpoch ← readInt .tryGet 4
  let magic ← readInt .tryGet 1
  if magic ≠ magicRecordBatchV2 then pure (husk baseOffset batchLength magic)
  else readV2 baseOffset batchLength partitionLeaderEpoch magic

/-- Bytes past the batch are ignored. -/
def tryFrom (encoded : List UInt8) : Except BatchError Batch :=
  Prod.fst <$> read encoded

/-! ### Round trip -/

def decoded (batch : Batch) : Batch :=
  if batch.magic = magicRecordBatchV2 then batch
  else husk batch.baseOffset batch.batchLength batch.magic

lemma decoded_eq_self_iff (batch : Batch) :
    batch.decoded = batch ↔ batch.magic = magicRecordBatchV2 ∨
        batch = husk batch.baseOffset batch.batchLength batch.magic := by
  unfold decoded
  split_ifs with v2
  · simp [v2]
  · rw [or_iff_right v2,eq_comm]

lemma declaresItsOwnLength_iff (batch : Batch) : batch.declaresItsOwnLength = true ↔
      batch.batchLength = (fixedBatchLength + batch.recordData.length : Nat) ∧
        fixedBatchLength + batch.recordData.length < 2 ^ 31 := by
  unfold declaresItsOwnLength encodedBatchLength
  split_ifs with fits
  · rw [beq_iff_eq,and_iff_left fits,eq_comm]
    rfl
  · simp only [false_iff,not_and]
    exact fun _ => fits

lemma toBytes_length (batch : Batch) : batch.toBytes.length = batch.wireSize := by
  simp [toBytes,wireSize,fixedBatchLength]
  omega

/-- The length that frames a batch stands right after its base offset. -/
lemma toBytes_framed (batch : Batch) : ∃ body, batch.toBytes =
      intBytes 8 batch.baseOffset ++ intBytes 4 batch.batchLength ++ body := by
  exact ⟨_,rfl⟩

private lemma ok_bind (value : α) (next : α → Except BatchError β) :
    (Except.ok value >>= next) = next value :=
  rfl

private lemma usize_natCast (value : Nat) : usize (value : Int) = .ok value := by
  simp [usize]

private lemma checkedSub_of_le (bound : right ≤ left) :
    checkedSub left right = .ok (left - right) :=
  if_pos bound

variable {batch : Batch}

lemma readV2_reads (typed : batch.Typed) (own : batch.declaresItsOwnLength = true) :
    Reads (readV2 batch.baseOffset batch.batchLength batch.partitionLeaderEpoch batch.magic)
      [ natBytes 4 batch.crc, intBytes 2 batch.attributes, intBytes 4 batch.lastOffsetDelta,
        intBytes 8 batch.baseTimestamp,
        intBytes 8 batch.maxTimestamp,
        intBytes 8 batch.producerId,
        intBytes 2 batch.producerEpoch,
        intBytes 4 batch.baseSequence,
        natBytes 4 batch.recordCount,
        batch.recordData ].flatten batch := by
  obtain ⟨length,_⟩ := (declaresItsOwnLength_iff batch).mp own
  have crcSize : (do
      let length ← usize batch.batchLength
      let length ← checkedSub length 4
      let length ← checkedSub length 1
      checkedSub length 4) = Except.ok (40 + batch.recordData.length) := by
    rw [length,usize_natCast,ok_bind,checkedSub_of_le (by unfold fixedBatchLength; omega),
      ok_bind,checkedSub_of_le (by unfold fixedBatchLength; omega),ok_bind,
      checkedSub_of_le (by unfold fixedBatchLength; omega)]
    congr 1
    unfold fixedBatchLength
    omega
  have dataSize : (do
      let length ← usize batch.batchLength
      checkedSub length fixedBatchLength) = Except.ok batch.recordData.length := by
    rw [length,usize_natCast,ok_bind,checkedSub_of_le (Nat.le_add_right _ _),
      Nat.add_sub_cancel_left]
  refine (Reads.nat 4 typed.crc).bind ?_
  refine (Reads.lift crcSize).bind (Reads.require ?_ ?_)
  · simp
    omega
  refine (Reads.int 2 typed.attributes (by decide)).bind ?_
  refine (Reads.int 4 typed.lastOffsetDelta (by decide)).bind ?_
  refine (Reads.int 8 typed.baseTimestamp (by decide)).bind ?_
  refine (Reads.int 8 typed.maxTimestamp (by decide)).bind ?_
  refine (Reads.int 8 typed.producerId (by decide)).bind ?_
  refine (Reads.int 2 typed.producerEpoch (by decide)).bind ?_
  refine (Reads.int 4 typed.baseSequence (by decide)).bind ?_
  refine (Reads.nat 4 typed.recordCount).bind ?_
  exact (Reads.lift dataSize).bind ((Reads.take rfl).bind (Reads.pure batch))

private lemma tryFrom_of_reads (whole : Reads read bytes batch)
    (rest : List UInt8) : tryFrom (bytes ++ rest) = .ok batch := by
  rw [tryFrom,whole rest]
  rfl

/-- A batch that declares its own length decodes to itself, unless it is a pre-v2
message set, of which only the husk comes back. -/
lemma tryFrom_toBytes (typed : batch.Typed) (own : batch.declaresItsOwnLength = true) :
    tryFrom batch.toBytes = .ok batch.decoded := by
  have header {back : List UInt8} {result : Batch}
      (body : Reads (if batch.magic ≠ magicRecordBatchV2 then
          pure (husk batch.baseOffset batch.batchLength batch.magic)
        else readV2 batch.baseOffset batch.batchLength batch.partitionLeaderEpoch batch.magic)
        back result) :
      Reads read (intBytes 8 batch.baseOffset ++ (intBytes 4 batch.batchLength ++
          (intBytes 4 batch.partitionLeaderEpoch ++ (intBytes 1 batch.magic ++ back)))) result :=
    (Reads.int 8 typed.baseOffset (by decide)).bind
      ((Reads.int 4 typed.batchLength (by decide)).bind
        ((Reads.int 4 typed.partitionLeaderEpoch (by decide)).bind
          ((Reads.int 1 typed.magic (by decide)).bind body)))
  unfold decoded
  split_ifs with v2
  · rw [if_neg (not_not.mpr v2)] at header
    have whole := tryFrom_of_reads (header (readV2_reads typed own)) []
    rwa [append_nil] at whole
  · rw [if_pos v2] at header
    have front := tryFrom_of_reads (header (Reads.pure _))
    simpa only [toBytes,flatten_cons,append_assoc,nil_append] using front _

/-! ### What decoding consumes -/

private lemma dataSize_inv {batchLength : Int} {size : Nat} (done : (do
      let length ← usize batchLength
      checkedSub length fixedBatchLength) = Except.ok size) :
    batchLength = (fixedBatchLength + size : Nat) := by
  obtain ⟨length,isLength,isSize⟩ := ok_of_bind done
  unfold usize at isLength
  split at isLength
  · unfold checkedSub at isSize
    split at isSize
    · cases isLength
      cases isSize
      omega
    · cases isSize
  · cases isLength

lemma readV2_consumes (baseOffset batchLength partitionLeaderEpoch magic : Int) :
    Consumes (readV2 baseOffset batchLength partitionLeaderEpoch magic) (fun batch front =>
        intBytes 8 baseOffset ++ (intBytes 4 batchLength ++ (intBytes 4 partitionLeaderEpoch ++
          (intBytes 1 magic ++ front))) = batch.toBytes ∧
        batch.baseOffset = baseOffset ∧ batch.batchLength = batchLength ∧
        batchLength = (fixedBatchLength + batch.recordData.length : Nat)) := by
  apply (Consumes.nat _ 4).bind
  intro crc isCrc crcIs
  apply (Consumes.lift _).bind
  intro crcDataSize nothing sized
  apply (Consumes.require _ _).bind
  intro _ required enough
  apply (Consumes.int _ 2 (by decide)).bind
  intro attributes isAttributes attributesIs
  apply (Consumes.int _ 4 (by decide)).bind
  intro lastOffsetDelta isDelta deltaIs
  apply (Consumes.int _ 8 (by decide)).bind
  intro baseTimestamp isBase baseIs
  apply (Consumes.int _ 8 (by decide)).bind
  intro maxTimestamp isMax maxIs
  apply (Consumes.int _ 8 (by decide)).bind
  intro pid isProducer producerIs
  apply (Consumes.int _ 2 (by decide)).bind
  intro epoch isEpoch epochIs
  apply (Consumes.int _ 4 (by decide)).bind
  intro baseSequence isSequence sequenceIs
  apply (Consumes.nat _ 4).bind
  intro recordCount isCount countIs
  apply (Consumes.lift _).bind
  intro recordDataSize unread data
  apply (Consumes.take _ _).bind
  intro recordData isData dataIs
  apply Consumes.pure
  obtain ⟨rfl,rfl⟩ := dataIs
  rw [crcIs,sized.1,enough,attributesIs.1,deltaIs.1,baseIs.1,maxIs.1,producerIs.1,epochIs.1,
    sequenceIs.1,countIs,data.1]
  refine ⟨?_,rfl,rfl,dataSize_inv data.2⟩
  simp only [toBytes,flatten_cons,flatten_nil,nil_append]

lemma read_consumes : Consumes read (fun batch front =>
      (∃ body, front = intBytes 8 batch.baseOffset ++ intBytes 4 batch.batchLength ++ body ∧
        5 ≤ body.length) ∧ Fits 32 batch.batchLength ∧
      (batch.magic = magicRecordBatchV2 → front = batch.toBytes ∧
          batch.batchLength = (fixedBatchLength + batch.recordData.length : Nat))) := by
  apply (Consumes.int _ 8 (by decide)).bind
  intro baseOffset isBase baseIs
  apply (Consumes.int _ 4 (by decide)).bind
  intro batchLength isLength lengthIs
  apply (Consumes.int _ 4 (by decide)).bind
  intro partitionLeaderEpoch isEpoch epochIs
  apply (Consumes.int _ 1 (by decide)).bind
  intro magic isMagic magicIs
  rw [baseIs.1,lengthIs.1,epochIs.1,magicIs.1]
  split
  · rename_i other
    apply Consumes.pure
    refine ⟨⟨intBytes 4 partitionLeaderEpoch ++ intBytes 1 magic,?_,?_⟩,lengthIs.2,?_⟩
    · simp only [husk,append_assoc,append_nil]
    · simp
    · intro v2
      exact absurd v2 other
  · apply (readV2_consumes _ _ _ _).mono
    intro batch front consumed
    obtain ⟨isBytes,isOffset,isSize,length⟩ := consumed
    refine ⟨⟨intBytes 4 partitionLeaderEpoch ++ (intBytes 1 magic ++ front),?_,?_⟩,
      isSize ▸ lengthIs.2,?_⟩
    · rw [isOffset,isSize,append_assoc]
    · simp
      omega
    · intro _
      exact ⟨isBytes,isSize.trans length⟩

variable {encoded : List UInt8}

/-- A v2 batch decoded from bytes of the length it declares has exactly these bytes. -/
lemma toBytes_of_tryFrom (decoded : tryFrom encoded = .ok batch)
    (length : (encoded.length : Int) = 12 + batch.batchLength)
    (v2 : batch.magic = magicRecordBatchV2) : batch.toBytes = encoded := by
  unfold tryFrom at decoded
  cases isRead : read encoded with
  | error failure => rw [isRead] at decoded; cases decoded
  | ok pair =>
    rw [isRead] at decoded
    cases decoded
    obtain ⟨front,isFront,_,_,whole⟩ := read_consumes encoded pair.1 pair.2 isRead
    obtain ⟨isBytes,declared⟩ := whole v2
    have size := toBytes_length pair.1
    rw [← isBytes] at size
    have rest : pair.2.length = 0 := by
      rw [isFront,declared,length_append,size] at length
      unfold wireSize at length
      omega
    rw [isFront,length_eq_zero_iff.mp rest,append_nil,isBytes]

def declaredLength (encoded : List UInt8) : Int :=
  bytesInt ((encoded.drop 8).take 4)

lemma declaredLength_framed {baseOffset batchLength : Int} (fits : Fits 32 batchLength)
    (body : List UInt8) :
    declaredLength (intBytes 8 baseOffset ++ intBytes 4 batchLength ++ body) = batchLength := by
  have framed : ((intBytes 8 baseOffset ++ intBytes 4 batchLength ++ body).drop 8).take 4 =
      intBytes 4 batchLength := by
    rw [append_assoc,drop_left' (intBytes_length 8 baseOffset),
      take_left' (intBytes_length 4 batchLength)]
  rw [declaredLength,framed]
  exact bytesInt_intBytes fits (by decide)

lemma declared_of_tryFrom (decoded : tryFrom encoded = .ok batch) :
    batch.batchLength = declaredLength encoded ∧ 17 ≤ encoded.length := by
  unfold tryFrom at decoded
  cases isRead : read encoded with
  | error failure => rw [isRead] at decoded; cases decoded
  | ok pair =>
    rw [isRead] at decoded
    cases decoded
    obtain ⟨front,isFront,⟨body,isBody,enough⟩,fits,_⟩ :=
      read_consumes encoded pair.1 pair.2 isRead
    rw [isFront,isBody,append_assoc _ body]
    refine ⟨(declaredLength_framed fits _).symm,?_⟩
    simp
    omega

end Batch

end Kodansu.Record

/-
The segment footer on the wire, in each of its versions.

The printer narrows: a topic's length and a coordinate count go into sixteen bits, and
the absence of a topic id is the nil uuid.  `EntryFits` collects what survives that,
and a decoded footer never holds anything else.
-/

import Kodansu.Lib.Wire
import Kodansu.Segment.Types

namespace Kodansu.Segment

open Lib.Wire

def segmentFormatVersionV2 : Nat := 2

def segmentFormatVersionV3 : Nat := 3

def segmentFormatVersionV4 : Nat := 4

inductive FooterError where
  | truncated
  | utf8
  | unsupportedVersion (version : Nat)
  | lengthExceedsTail
deriving DecidableEq

def topicBytes (topic : String) : List UInt8 :=
  topic.toUTF8.data.toList

def nilUuid : Uuid := 0

def uuidBytes (uuid : Uuid) : List UInt8 :=
  natBytes 16 uuid.toNat

/-! ### Printing -/

def encodeCoord (version : Nat) (coord : ProducerCoord) : List UInt8 :=
  [ intBytes 8 coord.producerId, intBytes 2 coord.producerEpoch, intBytes 4 coord.baseSequence,
    intBytes 4 coord.lastSequence,
    natBytes 4 coord.offsetDelta,
    if segmentFormatVersionV3 ≤ version then [coord.flags] else [] ].flatten

def encodeEntry (version : Nat) (entry : SubstreamEntry) : List UInt8 :=
  [ natBytes 2 (topicBytes entry.topic).length, topicBytes entry.topic,
    if segmentFormatVersionV4 ≤ version then uuidBytes (entry.topicId.getD nilUuid) else [],
    intBytes 4 entry.partition,
    intBytes 8 entry.baseOffset,
    intBytes 8 entry.recordCount,
    natBytes 8 entry.byteStart,
    natBytes 8 entry.byteLen,
    intBytes 8 entry.maxTimestamp,
    if segmentFormatVersionV2 ≤ version then
      natBytes 2 entry.producers.length ++ entry.producers.flatMap (encodeCoord version)
    else [] ].flatten

def encodeFooter (footer : SegmentFooter) (version : Nat) : List UInt8 :=
  [ intBytes 8 footer.writerEpoch,
    if segmentFormatVersionV2 ≤ version then natBytes 8 footer.nonce else [],
    footer.entries.flatMap (encodeEntry version) ].flatten

/-! ### Parsing -/

def topicOfBytes (bytes : List UInt8) : Except FooterError String :=
  match String.fromUTF8? ⟨bytes.toArray⟩ with
  | some topic => .ok topic
  | none => .error .utf8

def readTopic (length : Nat) : Reader FooterError String := do
  let bytes ← take .truncated length
  lift (topicOfBytes bytes)

def topicIdOfUuid (uuid : Uuid) : Option Uuid :=
  if uuid = nilUuid then none else some uuid

def readTopicId (version : Nat) : Reader FooterError (Option Uuid) :=
  if segmentFormatVersionV4 ≤ version then
    (fun bits => topicIdOfUuid (BitVec.ofNat 128 bits)) <$> readNat .truncated 16
  else pure none

def readFlags (version : Nat) : Reader FooterError UInt8 :=
  if segmentFormatVersionV3 ≤ version then UInt8.ofNat <$> readNat .truncated 1 else pure 0

def readCoord (version : Nat) : Reader FooterError ProducerCoord := do
  let producerId ← readInt .truncated 8
  let producerEpoch ← readInt .truncated 2
  let baseSequence ← readInt .truncated 4
  let lastSequence ← readInt .truncated 4
  let offsetDelta ← readNat .truncated 4
  let flags ← readFlags version
  pure
    { producerId := producerId
      producerEpoch := producerEpoch
      baseSequence := baseSequence
      lastSequence := lastSequence
      offsetDelta := offsetDelta
      flags := flags }

def readProducers (version : Nat) : Reader FooterError (List ProducerCoord) :=
  if segmentFormatVersionV2 ≤ version then do
    let pcoordCount ← readNat .truncated 2
    readMany (readCoord version) pcoordCount
  else pure []

def readEntry (version : Nat) : Reader FooterError SubstreamEntry := do
  let topicLen ← readNat .truncated 2
  let topic ← readTopic topicLen
  let topicId ← readTopicId version
  let partition ← readInt .truncated 4
  let baseOffset ← readInt .truncated 8
  let recordCount ← readInt .truncated 8
  let byteStart ← readNat .truncated 8
  let byteLen ← readNat .truncated 8
  let maxTimestamp ← readInt .truncated 8
  let producers ← readProducers version
  pure
    { topic := topic
      topicId := topicId
      partition := partition
      baseOffset := baseOffset
      recordCount := recordCount
      byteStart := byteStart
      byteLen := byteLen
      maxTimestamp := maxTimestamp
      producers := producers }

def readNonce (version : Nat) : Reader FooterError Nat :=
  if segmentFormatVersionV2 ≤ version then readNat .truncated 8 else pure 0

def readFooter (entryCount version : Nat) : Reader FooterError SegmentFooter := do
  let writerEpoch ← readInt .truncated 8
  let nonce ← readNonce version
  let entries ← readMany (readEntry version) entryCount
  pure
    { writerEpoch := writerEpoch
      nonce := nonce
      entries := entries }

/-- Bytes past the last entry are ignored. -/
def decodeFooter (footerBytes : List UInt8) (entryCount version : Nat) :
    Except FooterError SegmentFooter :=
  Prod.fst <$> readFooter entryCount version footerBytes

/-! ### What the format can hold -/

structure CoordTyped (coord : ProducerCoord) : Prop where
  producerId : Fits 64 coord.producerId
  producerEpoch : Fits 16 coord.producerEpoch
  baseSequence : Fits 32 coord.baseSequence
  lastSequence : Fits 32 coord.lastSequence
  offsetDelta : coord.offsetDelta < 2 ^ 32

structure EntryTyped (entry : SubstreamEntry) : Prop where
  partition : Fits 32 entry.partition
  baseOffset : Fits 64 entry.baseOffset
  recordCount : Fits 64 entry.recordCount
  byteStart : entry.byteStart < 2 ^ 64
  byteLen : entry.byteLen < 2 ^ 64
  maxTimestamp : Fits 64 entry.maxTimestamp
  producers : ∀ coord ∈ entry.producers, CoordTyped coord

/-- What the narrowed fields and the sentinel leave room for. -/
structure EntryFits (entry : SubstreamEntry) : Prop where
  topic : (topicBytes entry.topic).length < 2 ^ 16
  topicId : entry.topicId ≠ some nilUuid
  producers : entry.producers.length < 2 ^ 16

/-! ### Round trip -/

lemma topicOfBytes_topicBytes (topic : String) : topicOfBytes (topicBytes topic) = .ok topic := by
  have decoded : String.fromUTF8? ⟨(topicBytes topic).toArray⟩ = some topic :=
    dif_pos topic.isValidUTF8
  rw [topicOfBytes,decoded]

lemma readTopic_reads (topic : String) :
    Reads (readTopic (topicBytes topic).length) (topicBytes topic) topic := by
  have read : Reads (readTopic (topicBytes topic).length) (topicBytes topic ++ []) topic :=
    (Reads.take rfl).bind (Reads.lift (topicOfBytes_topicBytes topic))
  rwa [List.append_nil] at read

variable {topicId : Option Uuid} {version : Nat}

lemma readTopicId_reads (notNil : topicId ≠ some nilUuid)
    (keyed : version < segmentFormatVersionV4 → topicId = none) : Reads (readTopicId version)
      (if segmentFormatVersionV4 ≤ version then uuidBytes (topicId.getD nilUuid) else [])
      topicId := by
  unfold readTopicId
  split_ifs with v4
  · have bits : Reads (readNat FooterError.truncated 16) (uuidBytes (topicId.getD nilUuid))
        (topicId.getD nilUuid).toNat := Reads.nat 16 (topicId.getD nilUuid).isLt
    have sentinel : topicIdOfUuid (BitVec.ofNat 128 (topicId.getD nilUuid).toNat) = topicId := by
      rw [BitVec.ofNat_toNat,BitVec.setWidth_eq]
      cases topicId with
      | none => rfl
      | some uuid => exact if_neg (fun same => notNil (congrArg some same))
    have read := bits.map (fun bits => topicIdOfUuid (BitVec.ofNat 128 bits))
    rwa [sentinel] at read
  · rw [keyed (by omega)]
    exact Reads.pure none

section

variable (v3 : segmentFormatVersionV3 ≤ version)

include v3

variable {coord : ProducerCoord} {producers : List ProducerCoord} {entry : SubstreamEntry}
  {footer : SegmentFooter}

lemma readCoord_reads (typed : CoordTyped coord) :
    Reads (readCoord version) (encodeCoord version coord) coord := by
  have flags : Reads (readFlags version) [coord.flags] coord.flags := by
    have byte : Reads (readNat FooterError.truncated 1) (natBytes 1 coord.flags.toNat) coord.flags.toNat :=
      Reads.nat 1 coord.flags.toNat_lt
    have mapped := byte.map UInt8.ofNat
    simpa [readFlags,v3,natBytes] using mapped
  unfold encodeCoord
  rw [if_pos v3]
  exact (Reads.int 8 typed.producerId (by decide)).bind
    ((Reads.int 2 typed.producerEpoch (by decide)).bind
      ((Reads.int 4 typed.baseSequence (by decide)).bind
        ((Reads.int 4 typed.lastSequence (by decide)).bind ((Reads.nat 4 typed.offsetDelta).bind
            (flags.bind (Reads.pure coord))))))

lemma readProducers_reads
    (typed : ∀ coord ∈ producers, CoordTyped coord) (fits : producers.length < 2 ^ 16) :
    Reads (readProducers version)
      (natBytes 2 producers.length ++ producers.flatMap (encodeCoord version)) producers := by
  have v2 : segmentFormatVersionV2 ≤ version := le_trans (by decide) v3
  unfold readProducers
  rw [if_pos v2]
  exact (Reads.nat 2 fits).bind
    (Reads.many (fun coord mem => readCoord_reads v3 (typed coord mem)))

lemma readEntry_reads (typed : EntryTyped entry) (fits : EntryFits entry)
    (keyed : version < segmentFormatVersionV4 → entry.topicId = none) :
    Reads (readEntry version) (encodeEntry version entry) entry := by
  have v2 : segmentFormatVersionV2 ≤ version := le_trans (by decide) v3
  have producers := readProducers_reads v3 typed.producers fits.producers
  unfold encodeEntry
  rw [if_pos v2]
  exact (Reads.nat 2 fits.topic).bind ((readTopic_reads entry.topic).bind
      ((readTopicId_reads fits.topicId keyed).bind ((Reads.int 4 typed.partition (by decide)).bind
          ((Reads.int 8 typed.baseOffset (by decide)).bind
            ((Reads.int 8 typed.recordCount (by decide)).bind ((Reads.nat 8 typed.byteStart).bind
                ((Reads.nat 8 typed.byteLen).bind ((Reads.int 8 typed.maxTimestamp (by decide)).bind
                    (producers.bind (Reads.pure entry))))))))))

/-- The printer's inverse, on every footer the narrowed fields can hold. -/
lemma decodeFooter_encodeFooter (epoch : Fits 64 footer.writerEpoch)
    (nonce : footer.nonce < 2 ^ 64) (typed : ∀ entry ∈ footer.entries, EntryTyped entry)
    (fits : ∀ entry ∈ footer.entries, EntryFits entry)
    (keyed : version < segmentFormatVersionV4 → ∀ entry ∈ footer.entries, entry.topicId = none) :
    decodeFooter (encodeFooter footer version) footer.entries.length version = .ok footer := by
  have v2 : segmentFormatVersionV2 ≤ version := le_trans (by decide) v3
  have readsNonce : Reads (readNonce version) (natBytes 8 footer.nonce) footer.nonce := by
    unfold readNonce
    rw [if_pos v2]
    exact Reads.nat 8 nonce
  have entries : Reads (readMany (readEntry version) footer.entries.length)
      (footer.entries.flatMap (encodeEntry version)) footer.entries :=
    Reads.many (fun entry mem => readEntry_reads v3 (typed entry mem) (fits entry mem)
      (fun old => keyed old entry mem))
  have whole : Reads (readFooter footer.entries.length version) (encodeFooter footer version)
      footer := by
    unfold encodeFooter
    rw [if_pos v2]
    exact (Reads.int 8 epoch (by decide)).bind (readsNonce.bind (entries.bind (Reads.pure footer)))
  have run := whole []
  rw [List.append_nil] at run
  rw [decodeFooter,run]
  rfl

end

/-! ### What is accepted is well formed -/

lemma readTopic_returns (length : Nat) :
    Returns (readTopic length) (fun topic => (topicBytes topic).length = length) := by
  refine Returns.bind (Returns.take FooterError.truncated length) (fun bytes size => Returns.lift ?_)
  intro topic decoded
  unfold topicOfBytes at decoded
  split at decoded
  · rename_i found decodedSome
    cases decoded
    unfold String.fromUTF8? at decodedSome
    split at decodedSome
    · cases decodedSome
      exact size
    · cases decodedSome
  · cases decoded

lemma readTopicId_returns (version : Nat) :
    Returns (readTopicId version) (fun topicId => topicId ≠ some nilUuid) := by
  unfold readTopicId
  split_ifs
  · refine Returns.map (fun bytes bits rest _ => ?_)
    change topicIdOfUuid (BitVec.ofNat 128 bits) ≠ some nilUuid
    unfold topicIdOfUuid
    split_ifs with isNil
    · exact nofun
    · exact fun same => isNil (Option.some.inj same)
  · exact Returns.pure nofun

lemma readProducers_returns (version : Nat) :
    Returns (readProducers version) (fun producers => producers.length < 2 ^ 16) := by
  unfold readProducers
  split_ifs
  · refine Returns.bind (Returns.nat FooterError.truncated 2) (fun count bound => ?_)
    intro bytes producers rest returned
    have many : Returns (readCoord version) (fun _ => True) := fun _ _ _ _ => trivial
    rw [((Returns.many many count) bytes producers rest returned).1]
    exact bound
  · exact Returns.pure (by decide)

lemma readEntry_returns (version : Nat) : Returns (readEntry version) EntryFits := by
  refine Returns.bind (Returns.nat FooterError.truncated 2) (fun topicLen bound => ?_)
  refine Returns.bind (readTopic_returns topicLen) (fun topic length => ?_)
  refine Returns.bind (readTopicId_returns version) (fun topicId notNil => ?_)
  refine Returns.skip (fun partition => Returns.skip (fun baseOffset => ?_))
  refine Returns.skip (fun recordCount => Returns.skip (fun byteStart => ?_))
  refine Returns.skip (fun byteLen => Returns.skip (fun maxTimestamp => ?_))
  refine Returns.bind (readProducers_returns version) (fun producers count => ?_)
  exact Returns.pure ⟨length ▸ bound,notNil,count⟩

variable {footerBytes : List UInt8} {entryCount : Nat} {footer : SegmentFooter}

lemma decodeFooter_fits (decoded : decodeFooter footerBytes entryCount version = .ok footer) :
    footer.entries.length = entryCount ∧ ∀ entry ∈ footer.entries, EntryFits entry := by
  have returns : Returns (readFooter entryCount version) (fun footer =>
      footer.entries.length = entryCount ∧ ∀ entry ∈ footer.entries, EntryFits entry) := by
    refine Returns.skip (fun writerEpoch => Returns.skip (fun nonce => ?_))
    exact Returns.bind (Returns.many (readEntry_returns version) entryCount)
      (fun entries facts => Returns.pure facts)
  unfold decodeFooter at decoded
  cases read : readFooter entryCount version footerBytes with
  | error failure => rw [read] at decoded; cases decoded
  | ok pair =>
    rw [read] at decoded
    cases decoded
    exact returns footerBytes pair.1 pair.2 read

end Kodansu.Segment

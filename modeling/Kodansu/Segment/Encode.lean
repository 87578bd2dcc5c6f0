/-
Building a segment object from sub-stream writes, and reading one back: its footer
from any tail that holds it, and a region's batches from the region's bytes.

The widths are those of the release build: counts wrap and lengths are narrowed
silently.  An object past the largest allocation cannot be built at all.
-/

import Kodansu.Record.Batch
import Kodansu.Segment.Footer

namespace Kodansu.Segment

open Lib.Wire
open Record

def segmentMagic : Nat := 0x54534547

def segmentTrailerLen : Nat := 18

def isizeMax : Nat := 2 ^ 63 - 1

structure SubstreamWrite where
  topition : Topition
  substream : Substream
  baseOffset : Int
  batches : List Batch
deriving DecidableEq

/-- A batch whose length field does not describe its bytes, and where it was. -/
structure DivergentBatch where
  topic : String
  partition : Int
  baseOffset : Int
  index : Nat
  declared : Int
  encoded : Int
  magic : Int
  recordDataLen : Nat
deriving DecidableEq

inductive EncodeError where
  | kafkaStorageError
  | divergentBatch (divergent : DivergentBatch)
  | capacityOverflow
deriving DecidableEq

/-! ### Regions -/

def indexed (batch : Batch) : Bool :=
  batch.isIdempotent || batch.isTransactional || batch.isControl

def coordFlags (batch : Batch) : UInt8 :=
  (if batch.isTransactional then flagTransactional else 0) |||
    (if batch.isControl then flagControl else 0)

structure Region where
  bytes : List UInt8 := []
  recordCount : Int := 0
  maxTimestamp : Int := i64Min
  producers : List ProducerCoord := []

def Region.coord (region : Region) (batch : Batch) : ProducerCoord :=
  { producerId := batch.producerId
    producerEpoch := batch.producerEpoch
    baseSequence := batch.baseSequence
    lastSequence := Int.bmod (batch.baseSequence + batch.lastOffsetDelta) (2 ^ 32)
    offsetDelta := (region.recordCount % 2 ^ 32).toNat
    flags := coordFlags batch }

def Region.push (region : Region) (batch : Batch) : Region :=
  { bytes := region.bytes ++ batch.toBytes
    recordCount := Int.bmod (region.recordCount + batch.offsets) (2 ^ 64)
    maxTimestamp := max region.maxTimestamp batch.maxTimestamp
    producers :=
      if indexed batch then region.producers ++ [region.coord batch] else region.producers }

def divergence (write : SubstreamWrite) (index : Nat) (batch : Batch) : DivergentBatch :=
  { topic := write.topition.topic
    partition := write.topition.partition
    baseOffset := write.baseOffset
    index := index
    declared := batch.batchLength
    encoded := match batch.encodedBatchLength with
      | .ok encoded => encoded
      | .error _ => -1
    magic := batch.magic
    recordDataLen := batch.recordData.length }

def encodeBatches (write : SubstreamWrite) :
    List Batch → Nat → Region → Except EncodeError Region
  | [], _, region => .ok region
  | batch :: rest, index, region =>
    if batch.declaresItsOwnLength then encodeBatches write rest (index + 1) (region.push batch)
    else .error (.divergentBatch (divergence write index batch))

def entryAt (byteStart : Nat) (write : SubstreamWrite) (region : Region) : SubstreamEntry :=
  { topic := write.topition.topic
    topicId := write.substream.id?
    partition := write.topition.partition
    baseOffset := write.baseOffset
    recordCount := region.recordCount
    byteStart := byteStart
    byteLen := region.bytes.length
    maxTimestamp := region.maxTimestamp
    producers := region.producers }

/-! ### Segments -/

def encodeWrites (version : Nat) :
    List SubstreamWrite → List UInt8 → List SubstreamEntry →
      Except EncodeError (List UInt8 × List SubstreamEntry)
  | [], body, entries => .ok (body, entries)
  | write :: rest, body, entries =>
    if write.batches = [] then encodeWrites version rest body entries
    -- An id-keyed sub-stream has no place in an older footer.
    else if version < segmentFormatVersionV4 ∧ write.substream.id? ≠ none then
      .error .kafkaStorageError
    else do
      let region ← encodeBatches write write.batches 0 {}
      encodeWrites version rest (body ++ region.bytes)
        (entries ++ [entryAt body.length write region])

def trailerBytes (footerLen entryCount version : Nat) : List UInt8 :=
  [ natBytes 8 footerLen, natBytes 4 entryCount, natBytes 2 version,
    natBytes 4 segmentMagic ].flatten

def encodeSegmentIndexed (substreams : List SubstreamWrite) (writerEpoch : Int) (nonce : Nat)
    (version : Nat) : Except EncodeError (List UInt8 × SegmentFooter) := do
  let (body, entries) ← encodeWrites version substreams [] []
  let footer : SegmentFooter :=
    { writerEpoch := writerEpoch
      nonce := nonce
      entries := entries }
  let footerBytes := encodeFooter footer version
  let object :=
    body ++ footerBytes ++ trailerBytes footerBytes.length footer.entries.length version
  if object.length ≤ isizeMax then .ok (object, footer) else .error .capacityOverflow

/-! ### Reading back -/

def slice (bytes : List UInt8) (start stop : Nat) : List UInt8 :=
  (bytes.take stop).drop start

/-- The footer of a segment, given a tail that holds footer and trailer; nothing when
the tail is not that of a segment. -/
def decodeSegmentFooter (tail : List UInt8) : Except FooterError (Option SegmentFooter) :=
  if tail.length < segmentTrailerLen then .ok none
  else
    let trailer := tail.drop (tail.length - segmentTrailerLen)
    if bytesNat (slice trailer 14 18) ≠ segmentMagic then .ok none
    else
      let footerLen := bytesNat (slice trailer 0 8)
      let entryCount := bytesNat (slice trailer 8 12)
      let version := bytesNat (slice trailer 12 14)
      if version ≠ 1 ∧ version ≠ segmentFormatVersionV2 ∧ version ≠ segmentFormatVersionV3 ∧
          version ≠ segmentFormatVersionV4 then
        .error (.unsupportedVersion version)
      else
        let footerEnd := tail.length - segmentTrailerLen
        if footerEnd < footerLen then .error .lengthExceedsTail
        else
          some <$> decodeFooter (slice tail (footerEnd - footerLen) footerEnd) entryCount version

inductive FrameTail where
  | exhausted
  | short (at' remaining : Nat)
  | malformed (at' : Nat) (declared : Int)
deriving DecidableEq

/-- The scan from byte `at'` of the region, with what remains of it. -/
def decodeFrameFrom (at' : Nat) (remaining : List UInt8) :
    Except BatchError (List Batch × FrameTail) :=
  if _short : remaining.length < 12 then
    .ok ([], if remaining = [] then .exhausted else .short at' remaining.length)
  else
    let declared := bytesInt (slice remaining 8 12)
    if declared < 0 then .ok ([], .malformed at' declared)
    else
      let total := 12 + declared.toNat
      if total > remaining.length then .ok ([], .malformed at' declared)
      else do
        let batch ← Batch.tryFrom (remaining.take total)
        let (batches, tail) ← decodeFrameFrom (at' + total) (remaining.drop total)
        pure (batch :: batches, tail)
termination_by remaining.length
decreasing_by
  rw [List.length_drop]
  omega

def decodeFrame (encoded : List UInt8) : Except BatchError (List Batch × FrameTail) :=
  decodeFrameFrom 0 encoded

end Kodansu.Segment

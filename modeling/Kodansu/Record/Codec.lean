/-
Records on the wire.

A record is a row of variable-length integers and of octets behind their length.  The records of
an uncompressed batch are decoded from its buffer, those of a compressed one are deserialized from
the stream its library gives.  Decoding checks the width of an integer and panics where octets are
missing, deserializing wraps and fails.

What is encoded is decoded again, the length a record carries included: it is written as it is,
and nothing compares it with the bytes that follow.
-/

import Kodansu.Lib.Varint
import Kodansu.Record.Batch

namespace Kodansu.Inflated

open Lib.Wire

structure Header where
  key : Option (List UInt8)
  value : Option (List UInt8)
deriving DecidableEq

structure Record where
  length : Int32 := 0
  attributes : UInt8 := 0
  timestampDelta : Int64 := 0
  offsetDelta : Int32 := 0
  key : Option (List UInt8) := none
  value : Option (List UInt8) := none
  headers : List Header := []
deriving DecidableEq

inductive CodecError
  | tryGet
  | overflow
  | tryFromInt
  | io
  | custom
  | panicked
  | unknownCompressionType
  | unexpectedType
deriving DecidableEq

/-! ### Reading -/

inductive Way
  | decode
  | deserialize

def Way.total : Way → Nat → Reader CodecError Nat
  | .decode, w => readChecked .tryGet .overflow w
  | .deserialize, w => readWrapping .io w

def Way.missing : Way → CodecError
  | .decode => .panicked
  | .deserialize => .io

/-- A negative length is a huge one for the buffer, and refused in the stream. -/
def Way.negative : Way → CodecError
  | .decode => .panicked
  | .deserialize => .custom

def VarInt.read (way : Way) : Reader CodecError Int32 :=
  Int32.ofBitVec <$> signedOf (way.total 32) 32

def LongVarInt.read (way : Way) : Reader CodecError Int64 :=
  Int64.ofBitVec <$> signedOf (way.total 64) 64

def Octets.read (way : Way) : Reader CodecError (Option (List UInt8)) := do
  let length ← VarInt.read way
  if length = -1 then pure none
  else if length < 0 then lift (.error way.negative)
  else some <$> take way.missing length.toNatClampNeg

def Header.read (way : Way) : Reader CodecError Header := do
  let key ← Octets.read way
  let value ← Octets.read way
  pure ⟨key, value⟩

def VarIntSequence.read {α : Type} (way : Way) (item : Reader CodecError α) :
    Reader CodecError (List α) := do
  let length ← VarInt.read way
  if length < 0 then lift (.error way.negative)
  else readMany item length.toNatClampNeg

def Record.read (way : Way) : Reader CodecError Record := do
  let length ← VarInt.read way
  let attributes ← readByte way.missing
  let timestampDelta ← LongVarInt.read way
  let offsetDelta ← VarInt.read way
  let key ← Octets.read way
  let value ← Octets.read way
  let headers ← VarIntSequence.read way (Header.read way)
  pure { length, attributes, timestampDelta, offsetDelta, key, value, headers }

def Record.decode : Reader CodecError Record := Record.read .decode

def Record.deserialize : Reader CodecError Record := Record.read .deserialize

/-! ### Writing -/

def VarInt.encode (value : Int32) : List UInt8 := signedBytes value.toBitVec

def VarInt.tryFrom (length : Nat) : Except CodecError Int32 :=
  if length < 2 ^ 31 then .ok (.ofNat length) else .error .tryFromInt

def LongVarInt.encode (value : Int64) : List UInt8 := signedBytes value.toBitVec

def Octets.encode : Option (List UInt8) → Except CodecError (List UInt8)
  | none => .ok (VarInt.encode (-1))
  | some data => do
    let length ← VarInt.tryFrom data.length
    pure (VarInt.encode length ++ data)

def Header.encode (header : Header) : Except CodecError (List UInt8) := do
  let key ← Octets.encode header.key
  let value ← Octets.encode header.value
  pure (key ++ value)

def VarIntSequence.encode {α : Type} (item : α → Except CodecError (List UInt8)) (items : List α) :
    Except CodecError (List UInt8) := do
  let length ← VarInt.tryFrom items.length
  let encoded ← items.mapM item
  pure (VarInt.encode length ++ encoded.flatten)

def Record.encode (record : Record) : Except CodecError (List UInt8) := do
  let key ← Octets.encode record.key
  let value ← Octets.encode record.value
  let headers ← VarIntSequence.encode Header.encode record.headers
  pure [ VarInt.encode record.length,
    [record.attributes],
    LongVarInt.encode record.timestampDelta,
    VarInt.encode record.offsetDelta,
    key,
    value,
    headers ].flatten

/-! ### The records of a batch -/

inductive Compression
  | none
  | gzip
  | snappy
  | lz4
  | zstd
deriving DecidableEq

def Compression.tryFrom (attributes : Int) : Except CodecError Compression :=
  match (attributes % 8).toNat with
  | 0 => .ok .none
  | 1 => .ok .gzip
  | 2 => .ok .snappy
  | 3 => .ok .lz4
  | 4 => .ok .zstd
  | _ => .error .unknownCompressionType

/-- What other crates compute: the bytes a stream gives until it ends or fails, the compressed
bytes, and the checksum. -/
structure Libraries where
  decompress : Compression → List UInt8 → Except CodecError (List UInt8)
  compress : Compression → List UInt8 → Except CodecError (List UInt8)
  crc32Iscsi : List UInt8 → Nat

def snappyMagic : List UInt8 := [0x82, 0x53, 0x4e, 0x41, 0x50, 0x50, 0x59, 0]

section

variable (libraries : Libraries)

def Compression.inflator (compression : Compression) (deflated : List UInt8) :
    Except CodecError (List UInt8) :=
  match compression with
  | .none => .ok deflated
  | .snappy =>
    if deflated.take 8 ≠ snappyMagic then libraries.decompress .snappy deflated
    else if deflated.length < 20 then .error .panicked
    else libraries.decompress .snappy (deflated.drop 20)
  | _ => libraries.decompress compression deflated

def intoRecords (batch : Record.Batch) : Except CodecError (List Record) := do
  let compression ← Compression.tryFrom batch.attributes
  if compression = .none then
    (readMany Record.decode batch.recordCount).run' batch.recordData
  else
    let inflated ← compression.inflator libraries batch.recordData
    (readMany Record.deserialize batch.recordCount).run' inflated

def intoRecordData (records : List Record) (compression : Compression) :
    Except CodecError (List UInt8) := do
  let uncompressed ← records.mapM Record.encode
  match compression with
  | .none => pure uncompressed.flatten
  | .snappy => throw .unexpectedType
  | _ => libraries.compress compression uncompressed.flatten

end

def crcData (batch : Record.Batch) : List UInt8 :=
  [ intBytes 2 batch.attributes,
    intBytes 4 batch.lastOffsetDelta,
    intBytes 8 batch.baseTimestamp,
    intBytes 8 batch.maxTimestamp,
    intBytes 8 batch.producerId,
    intBytes 2 batch.producerEpoch,
    intBytes 4 batch.baseSequence,
    natBytes 4 batch.recordCount,
    batch.recordData ].flatten

/-! ### What is encoded is decoded again -/

lemma VarInt.reads (value : Int32) : Reads (VarInt.read .decode) (VarInt.encode value) value :=
  (Reads.signed _ _ (by norm_num) value.toBitVec).map Int32.ofBitVec

lemma LongVarInt.reads (value : Int64) :
    Reads (LongVarInt.read .decode) (LongVarInt.encode value) value :=
  (Reads.signed _ _ (by norm_num) value.toBitVec).map Int64.ofBitVec

lemma VarInt.of_tryFrom {count : Nat} {length : Int32} (fits : VarInt.tryFrom count = .ok length) :
    ¬ length < 0 ∧ length.toNatClampNeg = count := by
  unfold VarInt.tryFrom at fits
  split at fits
  · cases fits
    have same : (Int32.ofNat count).toInt = count := Int32.toInt_ofNat_of_lt ‹_›
    rw [Int32.lt_iff_toInt_lt,Int32.toNatClampNeg,same]
    simp
  · cases fits

lemma Octets.reads {octets : Option (List UInt8)} {bytes : List UInt8}
    (encoded : Octets.encode octets = .ok bytes) : Reads (Octets.read .decode) bytes octets := by
  cases octets with
  | none =>
    cases encoded
    rw [← List.append_nil (VarInt.encode (-1))]
    exact (VarInt.reads (-1)).bind (Reads.pure none)
  | some data =>
    obtain ⟨length,isLength,encoded⟩ := ok_of_bind encoded
    cases encoded
    obtain ⟨natural,count⟩ := VarInt.of_tryFrom isLength
    apply (VarInt.reads length).bind
    have present : length ≠ -1 := by
      rintro rfl
      exact natural (by decide)
    rw [if_neg present,if_neg natural]
    exact (Reads.take count.symm).map some

lemma Header.reads {header : Header} {bytes : List UInt8}
    (encoded : Header.encode header = .ok bytes) : Reads (Header.read .decode) bytes header := by
  obtain ⟨key,isKey,encoded⟩ := ok_of_bind encoded
  obtain ⟨value,isValue,encoded⟩ := ok_of_bind encoded
  cases encoded
  rw [← List.append_nil value]
  exact (Octets.reads isKey).bind ((Octets.reads isValue).bind (Reads.pure header))

lemma VarIntSequence.reads {α : Type} {read : Reader CodecError α}
    {encode : α → Except CodecError (List UInt8)} {items : List α} {bytes : List UInt8}
    (item : ∀ value bytes, encode value = .ok bytes → Reads read bytes value)
    (encoded : VarIntSequence.encode encode items = .ok bytes) :
    Reads (VarIntSequence.read .decode read) bytes items := by
  obtain ⟨length,isLength,encoded⟩ := ok_of_bind encoded
  obtain ⟨parts,areParts,encoded⟩ := ok_of_bind encoded
  cases encoded
  obtain ⟨natural,count⟩ := VarInt.of_tryFrom isLength
  apply (VarInt.reads length).bind
  rw [if_neg natural,count]
  exact Reads.each item areParts

lemma Record.reads {record : Record} {bytes : List UInt8}
    (encoded : Record.encode record = .ok bytes) : Reads Record.decode bytes record := by
  obtain ⟨key,isKey,encoded⟩ := ok_of_bind encoded
  obtain ⟨value,isValue,encoded⟩ := ok_of_bind encoded
  obtain ⟨headers,areHeaders,encoded⟩ := ok_of_bind encoded
  cases encoded
  apply (VarInt.reads record.length).bind
  apply (Reads.byte _ record.attributes).bind
  apply (LongVarInt.reads record.timestampDelta).bind
  apply (VarInt.reads record.offsetDelta).bind
  apply (Octets.reads isKey).bind
  apply (Octets.reads isValue).bind
  apply (VarIntSequence.reads (fun _ _ => Header.reads) areHeaders).bind
  exact Reads.pure record

lemma Compression.tryFrom_plain {attributes : Int} (plain : attributes % 8 = 0) :
    Compression.tryFrom attributes = .ok .none := by
  rw [Compression.tryFrom,plain]
  rfl

/-- The record data of an uncompressed batch holds the records it was made of. -/
lemma intoRecords_intoRecordData {libraries : Libraries} {batch : Record.Batch}
    {records : List Record} (plain : batch.attributes % 8 = 0)
    (count : batch.recordCount = records.length)
    (written : intoRecordData libraries records .none = .ok batch.recordData) :
    intoRecords libraries batch = .ok records := by
  obtain ⟨parts,areParts,written⟩ := ok_of_bind written
  have read := Reads.each (fun _ _ => Record.reads) areParts []
  have isData : parts.flatten = batch.recordData := Except.ok.inj written
  rw [List.append_nil,isData,← count] at read
  unfold intoRecords
  rw [Compression.tryFrom_plain plain]
  change Prod.fst <$> readMany Record.decode batch.recordCount batch.recordData = _
  rw [read]
  rfl

end Kodansu.Inflated

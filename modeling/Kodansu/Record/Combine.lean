/-
Combining batches into one.

The produce batcher inflates the batches of one producer, appends the records of the later ones
to the first one's and deflates the result.  Offsets and timestamps are deltas against a base, so
each appended record has to be rebased.

The timestamp is rebased with the distance of the bases the wrong way round, so it is kept only
where that distance is its own negative.
-/

import Kodansu.Record.Codec

namespace Kodansu.Inflated

open Lib.Wire List

/-- The header's own record count and record data are those it was read with. -/
structure Batch where
  header : Record.Batch
  records : List Record
deriving DecidableEq

section

variable (libraries : Libraries)

/-- Reading fails for an unknown compression, so the attributes are known here. -/
def tryFrom (batch : Record.Batch) : Except CodecError Batch := do
  let records ← intoRecords libraries batch
  pure ⟨{ batch with attributes := batch.attributes / 8 % 16 * 8 }, records⟩

def deflate (batch : Batch) : Except CodecError Record.Batch := do
  if 2 ^ 32 ≤ batch.records.length then throw .tryFromInt
  let compression ← Compression.tryFrom batch.header.attributes
  let recordData ← intoRecordData libraries batch.records compression
  if 2 ^ 31 ≤ Record.fixedBatchLength + recordData.length then throw .tryFromInt
  let written : Record.Batch :=
    { batch.header with
      batchLength := Record.fixedBatchLength + recordData.length
      recordCount := batch.records.length
      recordData }
  pure { written with crc := libraries.crc32Iscsi (crcData written) }

-- Integers wrap, as they do in a release build.
def rebase (sink batch : Record.Batch) (record : Record) : Record :=
  { record with
    offsetDelta := .ofInt (record.offsetDelta.toInt + sink.lastOffsetDelta + 1)
    timestampDelta :=
      .ofInt (record.timestampDelta.toInt + (sink.baseTimestamp - batch.baseTimestamp)) }

def append (sink batch : Batch) : Batch where
  header :=
    { sink.header with
      lastOffsetDelta :=
        (sink.header.lastOffsetDelta + (batch.header.lastOffsetDelta + 1)).bmod (2 ^ 32)
      maxTimestamp := max sink.header.maxTimestamp batch.header.maxTimestamp }
  records := sink.records ++ batch.records.map (rebase sink.header batch.header)

-- Only inflating can fail in the loop of the source.
def combine : List Record.Batch → Except CodecError (Option Record.Batch)
  | [] => .ok none
  | batch :: batches => do
    let first ← tryFrom libraries batch
    let rest ← batches.mapM (tryFrom libraries)
    some <$> deflate libraries (rest.foldl append first)

end

/-! ### What combining owes -/

def contents (base : Int) (records : List Record) :
    List (Option (List UInt8) × Option (List UInt8) × List Header × Int) :=
  records.map (fun record => (record.key, record.value, record.headers,
    base + record.timestampDelta.toInt))

def Batch.contents (batch : Batch) := Inflated.contents batch.header.baseTimestamp batch.records

def offsetsFrom (first : Nat) (records : List Record) : Prop :=
  records.map (fun record => record.offsetDelta.toInt) =
    (List.range' first records.length).map Int.ofNat

structure Preserves (inputs : List Batch) (output : Batch) : Prop where
  contents : output.contents = inputs.flatMap Batch.contents
  offsets : (∀ input ∈ inputs, offsetsFrom 0 input.records) → offsetsFrom 0 output.records
  latest : (inputs.map (fun input => input.header.maxTimestamp)).max? =
    some output.header.maxTimestamp

/-! ### When it does -/

/-- The distance from one base to the other is its own negative, and the delta against the other
base is a delta. -/
def Rebases (base : Int) (input : Batch) (record : Record) : Prop :=
  2 * (base - input.header.baseTimestamp) % 2 ^ 64 = 0 ∧
    Fits 64 (record.timestampDelta.toInt - (base - input.header.baseTimestamp))

/-- Before each batch with records, the last offset deltas count the records so far. -/
def Aligned : Int → Nat → List Batch → Prop
  | _, _, [] => True
  | last, count, input :: rest =>
    (input.records ≠ [] → (last + 1 - count) % 2 ^ 32 = 0 ∧ count + input.records.length ≤ 2 ^ 31) ∧
      Aligned (last + (input.header.lastOffsetDelta + 1)) (count + input.records.length) rest

structure Combinable (first : Batch) (rest : List Batch) : Prop where
  timestamps : ∀ input ∈ rest, ∀ record ∈ input.records,
    Rebases first.header.baseTimestamp input record
  offsets : (∀ input ∈ first :: rest, offsetsFrom 0 input.records) →
    Aligned first.header.lastOffsetDelta first.records.length rest

/-! ### Rebasing -/

section

variable {count : Nat} {sink : Record.Batch} {input : Batch} {base last : Int} {record : Record}
  {records front back : List Record} {rest : List Batch}

lemma rebase_timestamp (isBase : sink.baseTimestamp = base) :
    base + (rebase sink input.header record).timestampDelta.toInt =
        input.header.baseTimestamp + record.timestampDelta.toInt ↔ Rebases base input record := by
  unfold Rebases Fits rebase
  simp only [Int64.toInt_ofInt,isBase]
  rw [Int.bmod_def]
  norm_num
  omega

lemma rebase_contents (isBase : sink.baseTimestamp = base) :
    contents base (input.records.map (rebase sink input.header)) = input.contents ↔
      ∀ record ∈ input.records, Rebases base input record := by
  unfold Batch.contents contents
  rw [map_map,map_inj_left]
  apply forall₂_congr
  intro record _
  rw [← rebase_timestamp isBase]
  simp [rebase]

lemma offsetsFrom_iff : offsetsFrom count records ↔
      ∀ index (inside : index < records.length), records[index].offsetDelta.toInt = count + index := by
  unfold offsetsFrom
  rw [ext_getElem_iff]
  simp

lemma rebase_offsets (dense : offsetsFrom 0 input.records)
    (same : (sink.lastOffsetDelta - last) % 2 ^ 32 = 0) :
    offsetsFrom count (input.records.map (rebase sink input.header)) ↔ (input.records ≠ [] →
        (last + 1 - count) % 2 ^ 32 = 0 ∧ count + input.records.length ≤ 2 ^ 31) := by
  rw [offsetsFrom_iff] at dense ⊢
  have rebased : ∀ index (inside : index < input.records.length),
      ((rebase sink input.header) input.records[index]).offsetDelta.toInt = count + index ↔
        (last + 1 - count) % 2 ^ 32 = 0 ∧ count + index < 2 ^ 31 := by
    intro index inside
    unfold rebase
    simp only [Int32.toInt_ofInt,dense index inside]
    rw [Int.bmod_def]
    norm_num
    omega
  simp only [getElem_map,length_map,rebased,← length_pos_iff]
  constructor
  · intro each nonempty
    have final := each (input.records.length - 1) (by omega)
    omega
  · intro aligned index inside
    omega

/-- The records that are appended to a batch with this header. -/
def rebased : Record.Batch → List Batch → List Record
  | _, [] => []
  | sink, input :: rest =>
    input.records.map (rebase sink input.header) ++ rebased (append ⟨sink, []⟩ input).header rest

lemma rebased_contents (isBase : sink.baseTimestamp = base) :
    contents base (rebased sink rest) = rest.flatMap Batch.contents ↔
      ∀ input ∈ rest, ∀ record ∈ input.records, Rebases base input record := by
  induction rest generalizing sink with
  | nil => simp [rebased,contents]
  | cons input rest ih =>
    have kept : (append ⟨sink,[]⟩ input).header.baseTimestamp = base := isBase
    have split : contents base (rebased sink (input :: rest)) =
        contents base (input.records.map (rebase sink input.header)) ++
          contents base (rebased (append ⟨sink,[]⟩ input).header rest) := map_append
    rw [split,flatMap_cons,forall_mem_cons,← rebase_contents isBase,← ih kept]
    constructor
    · intro same
      exact append_inj same (by simp [contents,Batch.contents])
    · rintro ⟨first,others⟩
      rw [first,others]

lemma offsetsFrom_append : offsetsFrom count (front ++ back) ↔
      offsetsFrom count front ∧ offsetsFrom (count + front.length) back := by
  unfold offsetsFrom
  rw [map_append,length_append,← range'_append_1,map_append]
  constructor
  · intro same
    exact append_inj same (by simp)
  · rintro ⟨first,others⟩
    rw [first,others]

lemma rebased_offsets (dense : ∀ input ∈ rest, offsetsFrom 0 input.records)
    (same : (sink.lastOffsetDelta - last) % 2 ^ 32 = 0) :
    offsetsFrom count (rebased sink rest) ↔ Aligned last count rest := by
  induction rest generalizing sink last count with
  | nil => simp [rebased,offsetsFrom,Aligned]
  | cons input rest ih =>
    obtain ⟨first,others⟩ := forall_mem_cons.mp dense
    have next : ((append ⟨sink,[]⟩ input).header.lastOffsetDelta -
        (last + (input.header.lastOffsetDelta + 1))) % 2 ^ 32 = 0 := by
      simp only [append,Int.bmod_def]
      omega
    rw [rebased,offsetsFrom_append,rebase_offsets first same,length_map,ih others next]
    rfl

end

/-! ### The combined batch -/

section

variable {libraries : Libraries} {sink : Batch} {written : Record.Batch}

lemma foldl_append_records (rest : List Batch) (sink : Batch) :
    (rest.foldl append sink).records = sink.records ++ rebased sink.header rest := by
  induction rest generalizing sink with
  | nil => simp [rebased]
  | cons input rest ih =>
    rw [foldl_cons,ih,rebased,← append_assoc]
    rfl

lemma foldl_append_header (rest : List Batch) (sink : Batch) :
    (rest.foldl append sink).header.attributes = sink.header.attributes ∧
      (rest.foldl append sink).header.baseTimestamp = sink.header.baseTimestamp ∧
      (rest.foldl append sink).header.maxTimestamp =
        (rest.map (fun input => input.header.maxTimestamp)).foldl max sink.header.maxTimestamp := by
  induction rest generalizing sink with
  | nil => exact ⟨rfl,rfl,rfl⟩
  | cons input rest ih => exact ih (append sink input)

lemma tryFrom_deflate (plain : sink.header.attributes % 8 = 0)
    (done : deflate libraries sink = .ok written) :
    ∃ output, tryFrom libraries written = .ok output ∧ output.records = sink.records ∧
      output.header.baseTimestamp = sink.header.baseTimestamp ∧
      output.header.maxTimestamp = sink.header.maxTimestamp := by
  have facts : intoRecordData libraries sink.records .none = .ok written.recordData ∧
      written.recordCount = sink.records.length ∧ written.attributes = sink.header.attributes ∧
      written.baseTimestamp = sink.header.baseTimestamp ∧
      written.maxTimestamp = sink.header.maxTimestamp := by
    unfold deflate at done
    split at done
    · cases done
    obtain ⟨compression,isCompression,done⟩ := ok_of_bind done
    cases (Compression.tryFrom_plain plain).symm.trans isCompression
    obtain ⟨recordData,isData,done⟩ := ok_of_bind done
    split at done
    · cases done
    cases done
    exact ⟨isData,rfl,rfl,rfl,rfl⟩
  obtain ⟨isData,count,attributes,base,latest⟩ := facts
  refine ⟨⟨{ written with attributes := written.attributes / 8 % 16 * 8 },sink.records⟩,?_,rfl,
    base,latest⟩
  unfold tryFrom
  rw [intoRecords_intoRecordData (attributes ▸ plain) count isData]
  rfl

variable {first output : Batch} {rest : List Batch}

lemma preserves_iff (records : output.records = (rest.foldl append first).records)
    (base : output.header.baseTimestamp = (rest.foldl append first).header.baseTimestamp)
    (latest : output.header.maxTimestamp = (rest.foldl append first).header.maxTimestamp) :
    Preserves (first :: rest) output ↔ Combinable first rest := by
  obtain ⟨-,sameBase,isLatest⟩ := foldl_append_header rest first
  rw [foldl_append_records] at records
  rw [sameBase] at base
  have contentsIff : output.contents = (first :: rest).flatMap Batch.contents ↔
      ∀ input ∈ rest, ∀ record ∈ input.records, Rebases first.header.baseTimestamp input record := by
    rw [← rebased_contents rfl,Batch.contents,records,base,flatMap_cons]
    unfold Batch.contents contents
    rw [map_append,append_right_inj]
  have offsetsIff (dense : ∀ input ∈ first :: rest, offsetsFrom 0 input.records) :
      offsetsFrom 0 output.records ↔
        Aligned first.header.lastOffsetDelta first.records.length rest := by
    obtain ⟨own,others⟩ := forall_mem_cons.mp dense
    have same : (first.header.lastOffsetDelta - first.header.lastOffsetDelta) % 2 ^ 32 = 0 := by simp
    rw [records,offsetsFrom_append,and_iff_right own,Nat.zero_add,rebased_offsets others same]
  constructor
  · intro preserves
    exact ⟨contentsIff.mp preserves.contents,
      fun dense => (offsetsIff dense).mp (preserves.offsets dense)⟩
  · intro combinable
    refine ⟨contentsIff.mpr combinable.timestamps,
      fun dense => (offsetsIff dense).mpr (combinable.offsets dense),?_⟩
    rw [latest,isLatest]
    rfl

/-- What combining returns inflates to the records it was given exactly when their timestamps and
offsets can be rebased. -/
theorem combine_preserves_iff {libraries : Libraries} {batch combined : Record.Batch}
    {batches : List Record.Batch}
    (returned : combine libraries (batch :: batches) = .ok (some combined)) :
    ∃ first rest output, tryFrom libraries batch = .ok first ∧
      batches.mapM (tryFrom libraries) = .ok rest ∧ tryFrom libraries combined = .ok output ∧
      (Preserves (first :: rest) output ↔ Combinable first rest) := by
  obtain ⟨first,isFirst,returned⟩ := ok_of_bind returned
  obtain ⟨rest,areRest,returned⟩ := ok_of_bind returned
  obtain ⟨written,isWritten,same⟩ := ok_of_bind returned
  cases same
  have plain : (rest.foldl append first).header.attributes % 8 = 0 := by
    obtain ⟨records,-,same⟩ := ok_of_bind isFirst
    cases same
    rw [(foldl_append_header rest _).1]
    simp
  obtain ⟨output,isOutput,records,base,latest⟩ := tryFrom_deflate plain isWritten
  exact ⟨first,rest,output,isFirst,areRest,isOutput,preserves_iff records base latest⟩

end

/-! ### Two batches of two records -/

/-- Nothing is compressed below, and no reader compares the checksum. -/
def plainLibraries : Libraries where
  decompress _ _ := .error .io
  compress _ _ := .error .io
  crc32Iscsi _ := 0

/-- Two records, the second one five milliseconds later. -/
def sent (base : Int) : Record.Batch where
  magic := 2
  lastOffsetDelta := 1
  baseTimestamp := base
  maxTimestamp := base + 5
  recordCount := 2
  recordData := [14, 0, 0, 0, 1, 2, 97, 0, 14, 0, 10, 2, 1, 2, 98, 0]

def received (base : Int) : Batch where
  header := sent base
  records := [ { length := 7, value := some [97] },
    { length := 7, timestampDelta := 5, offsetDelta := 1, value := some [98] } ]

/-- The two records of a first batch and those of a second one, stamped at these deltas. -/
def joined (early late : UInt8) : Record.Batch :=
  { sent 1000 with
    batchLength := 81
    lastOffsetDelta := 3
    recordCount := 4
    recordData := (sent 1000).recordData ++
      [14, 0, early, 4, 1, 2, 97, 0, 14, 0, late, 6, 1, 2, 98, 0] }

theorem combine_preserves_iff_equal_bases :
    ∃ output, tryFrom plainLibraries (sent 1000) = .ok (received 1000) ∧
      combine plainLibraries [sent 1000, sent 1000] = .ok (some (joined 0 10)) ∧
      tryFrom plainLibraries (joined 0 10) = .ok output ∧
      Preserves [received 1000, received 1000] output := by
  have isReceived : tryFrom plainLibraries (sent 1000) = .ok (received 1000) := by decide +kernel
  have areReceived : [sent 1000].mapM (tryFrom plainLibraries) = .ok [received 1000] := by
    decide +kernel
  have returned : combine plainLibraries [sent 1000, sent 1000] = .ok (some (joined 0 10)) := by
    decide +kernel
  obtain ⟨first,rest,output,isFirst,areRest,isOutput,preserves⟩ := combine_preserves_iff returned
  cases isReceived.symm.trans isFirst
  cases areReceived.symm.trans areRest
  refine ⟨output,isReceived,returned,isOutput,preserves.mpr ⟨?_,fun _ => ?_⟩⟩
  · simp [Rebases,Fits,received,sent]
  · simp [Aligned,received,sent]

/-- The records of the second batch were stamped at 990 and 995, and come out at 1010 and 1015. -/
theorem combine_shifts_timestamp :
    ∃ output, tryFrom plainLibraries (sent 1000) = .ok (received 1000) ∧
      tryFrom plainLibraries (sent 990) = .ok (received 990) ∧
      combine plainLibraries [sent 1000, sent 990] = .ok (some (joined 20 30)) ∧
      tryFrom plainLibraries (joined 20 30) = .ok output ∧
      ¬ Preserves [received 1000, received 990] output := by
  refine ⟨⟨joined 20 30,(received 1000).records ++
    (received 990).records.map (rebase (sent 1000) (sent 990))⟩,?_⟩
  refine ⟨by decide +kernel,by decide +kernel,by decide +kernel,by decide +kernel,?_⟩
  intro preserves
  have same := preserves.contents
  revert same
  decide

end Kodansu.Inflated

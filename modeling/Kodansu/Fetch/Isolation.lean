/-
Read-committed isolation.  A read-committed fetch is bounded by the last stable offset,
but the bound is applied to where a region starts and a response is made of batches: a
region that begins below it is returned with whatever it holds above.
-/

import Kodansu.Fetch.Serve
import Kodansu.Transaction.Coordinator

namespace Kodansu.Fetch

open Index Segment Record Transaction

inductive IsolationLevel
  | readUncommitted
  | readCommitted
deriving DecidableEq

/-- Offsets an expiry has certified to be gone: from the end of what survives up to the
high watermark of the expiry. -/
structure ServedEnd where
  endOffset : Int
  atHigh : Int
deriving DecidableEq

def ServedEnd.gapContains (served : ServedEnd) (offset : Int) : Bool :=
  offset ≥ served.endOffset && offset < served.atHigh

structure PartitionState where
  highWatermark : Int
  truncateFloor : Int := 0
  regionStart : Option Int := some 0
  certifiedDeadGap : Option ServedEnd := none

structure OffsetStage where
  lastStable : Int
  highWatermark : Int
  logStart : Int
  aborted : List (Int × Int)
deriving DecidableEq

def logStart (state : PartitionState) : Int :=
  max (state.regionStart.getD state.highWatermark) state.truncateFloor

def abortedRanges (doc : Meta) (topition : Topition) : List (Int × TxnProduceOffset) :=
  doc.transactions.entries.flatMap (fun (_, txn) =>
    txn.epochs.entries.filterMap (fun (_, detail) =>
      if detail.state ≠ some .aborted then none
      else (detail.range topition).map (fun range => (txn.producer, range))))

def offsetStage (doc : Meta) (topition : Topition) (state : PartitionState) : OffsetStage where
  lastStable := (doc.openTransactionFloors.get? topition).getD state.highWatermark
  highWatermark := state.highWatermark
  logStart := logStart state
  aborted :=
    (((abortedRanges doc topition).filter (fun (_, range) => range.offsetEnd ≥ logStart state)).map
      (fun (producerId, range) => (producerId, range.offsetStart))).insertionSort
      (fun left right => left.2 ≤ right.2)

def fetch (doc : Meta) (topition : Topition) (state : PartitionState) (logs : Nat → StoredLog)
    (conditions : Nat → Conditions) (offset : Int) (maxBytes : Nat)
    (isolationLevel : IsolationLevel) : Except FetchError (List Batch) :=
  let highWatermark :=
    if isolationLevel = .readCommitted then (offsetStage doc topition state).lastStable
    else state.highWatermark
  if offset < highWatermark then
    let offset := max offset state.truncateFloor
    match fetchPrefixCoalesced logs conditions offset maxBytes highWatermark with
    | .error error => .error error
    | .ok batches =>
      if batches.isEmpty && state.regionStart.isNone then .error .offsetOutOfRange
      else if batches.isEmpty &&
          state.certifiedDeadGap.any (fun served => served.gapContains offset) then
        .error .offsetOutOfRange
      else .ok batches
  else .ok []

/-- The last stable offset is the least first offset of an unresolved transaction on the
partition, or the high watermark where there is none. -/
lemma lastStable_spec (doc : Meta) (tp : Topition) (s : PartitionState) :
    let lastStable := (offsetStage doc tp s).lastStable
    IsLeast (doc.openStarts tp) lastStable ∨
      doc.openStarts tp = ∅ ∧ lastStable = s.highWatermark := by
  simp only [offsetStage]
  cases found : doc.openTransactionFloors.get? tp with
  | none => exact .inr ⟨Meta.openTransactionFloors_eq_none.mp found,rfl⟩
  | some floor => exact .inl (Meta.openTransactionFloors_isLeast found)

/-- No batch that the partition serves lies at or above the last stable offset in a region
that begins below it. -/
def Aligned (log : StoredLog) (lastStable truncateFloor : Int) : Prop :=
  ∀ fenced ∈ log.view, fenced.entry.baseOffset < lastStable → truncateFloor < fenced.endOffset →
    ∀ batch ∈ placed fenced.entry.baseOffset (log.batches fenced),
      truncateFloor < endOf batch → fenced.servedFrom < endOf batch → batch.baseOffset < lastStable

instance (log : StoredLog) (lastStable truncateFloor : Int) :
    Decidable (Aligned log lastStable truncateFloor) :=
  inferInstanceAs (Decidable (∀ fenced ∈ log.view, _))

/-- Every response of a read-committed fetch lies below the last stable offset. -/
def Isolated (doc : Meta) (topition : Topition) (state : PartitionState)
    (logs : Nat → StoredLog) : Prop :=
  ∀ conditions offset maxBytes batches, maxBytes < 2 ^ 32 →
    fetch doc topition state logs conditions offset maxBytes .readCommitted = .ok batches →
      ∀ batch ∈ batches, batch.baseOffset < (offsetStage doc topition state).lastStable

section

variable {doc : Meta} {tp : Topition} {s : PartitionState} {logs : Nat → StoredLog}
  {conditions : Nat → Conditions} {offset : Int} {maxBytes : Nat} {batches : List Batch}
  {batch : Batch}

lemma fetch_mem
    (res : fetch doc tp s logs conditions offset maxBytes .readCommitted = .ok batches)
    (mem : batch ∈ batches) : ∃ attempt < maxAttempts, ∃ fenced ∈ (logs attempt).view,
      fenced.entry.baseOffset < (offsetStage doc tp s).lastStable ∧
      s.truncateFloor < fenced.endOffset ∧
      batch ∈ placed fenced.entry.baseOffset ((logs attempt).batches fenced) ∧
      s.truncateFloor < endOf batch ∧ fenced.servedFrom < endOf batch := by
  unfold fetch at res
  simp only [if_true] at res
  split at res
  · cases served : fetchPrefixCoalesced logs conditions (max offset s.truncateFloor) maxBytes
      (offsetStage doc tp s).lastStable with
    | error error => simp [served] at res
    | ok found =>
      simp only [served] at res
      split_ifs at res with empty gap
      cases res
      obtain ⟨attempt,bound,fenced,inView,ends,starts,inRegion,above,serves⟩ :=
        fetchAttempts_mem served mem
      exact ⟨attempt,by omega,fenced,inView,starts,lt_of_le_of_lt (le_max_right _ _) ends,
        inRegion,lt_of_le_of_lt (le_max_right _ _) above,serves⟩
  · cases res
    cases mem

lemma isolated_of_aligned (aligned : ∀ attempt < maxAttempts,
      Aligned (logs attempt) (offsetStage doc tp s).lastStable s.truncateFloor) :
    Isolated doc tp s logs := by
  intro conditions offset maxBytes batches _ res batch mem
  obtain ⟨attempt,bound,fenced,inView,starts,ends,inRegion,above,serves⟩ :=
    fetch_mem res mem
  exact aligned attempt bound fenced inView starts ends batch inRegion above serves

lemma aligned_of_isolated (small : (logs 0).bytes < 2 ^ 32 - 1)
    (isolated : Isolated doc tp s logs) :
    Aligned (logs 0) (offsetStage doc tp s).lastStable s.truncateFloor := by
  intro fenced inView starts regionAbove batch inRegion batchAbove serves
  obtain ⟨offset,belowStable,belowRegion,belowBatch⟩ : ∃ offset : Int,
      offset < (offsetStage doc tp s).lastStable ∧ offset < fenced.endOffset ∧
        offset < endOf batch :=
    ⟨min (min (offsetStage doc tp s).lastStable fenced.endOffset) (endOf batch) - 1,
      by omega,by omega,by omega⟩
  obtain ⟨batches,served,complete⟩ := fetchPrefixCoalesced_complete
    (max offset s.truncateFloor) (offsetStage doc tp s).lastStable small
  have mem : batch ∈ batches := complete batch ⟨fenced,inView,by omega,starts,inRegion,
    by omega,serves⟩
  have notEmpty : batches.isEmpty = false := List.isEmpty_eq_false_iff.mpr (List.ne_nil_of_mem mem)
  apply isolated (fun _ => {}) offset (2 ^ 32 - 1) batches (by omega) ?_ batch mem
  unfold fetch
  simp only [if_true,if_pos belowStable]
  rw [served]
  simp [notEmpty]

end

/-- Read-committed fetches stay below the last stable offset over every log that is
aligned to it, and, of a log that fits into one response, only then. -/
theorem readCommitted_isolation (doc : Meta) (topition : Topition) (state : PartitionState)
    (logs : Nat → StoredLog) :
    ((∀ attempt < maxAttempts,
      Aligned (logs attempt) (offsetStage doc topition state).lastStable state.truncateFloor) →
        Isolated doc topition state logs) ∧
      ((logs 0).bytes < 2 ^ 32 - 1 → Isolated doc topition state logs →
        Aligned (logs 0) (offsetStage doc topition state).lastStable state.truncateFloor) :=
  ⟨isolated_of_aligned,aligned_of_isolated⟩

def openAtOne : Meta :=
  { transactions := Lib.OrderedMap.empty.insert "t1"
      { producer := 1
        epochs := Lib.OrderedMap.empty.insert 0
          { state := some .begin
            produces := Lib.OrderedMap.empty.insert ⟨"orders", 0⟩ (some ⟨1, 1⟩) } } }

def recordLog (counts : List Nat) : StoredLog where
  rows := ((List.range counts.length).zip counts).map (fun (seq, count) =>
    let row := layoutRow 0 seq (counts.take seq).sum count
    { row with entry := { row.entry with byteLen := count * 61 } })
  region _ entry := List.replicate entry.recordCount.toNat {}
  byteLen_eq := by
    intro row member
    obtain ⟨⟨seq, count⟩, -, rfl⟩ := List.mem_map.mp member
    simp [layoutRow, Batch.wireSize, fixedBatchLength]

theorem readCommitted_isolation_own_segment :
    (offsetStage openAtOne ⟨"orders", 0⟩ ⟨2, 0, some 0, none⟩).lastStable = 1 ∧
      Isolated openAtOne ⟨"orders", 0⟩ ⟨2, 0, some 0, none⟩ (fun _ => recordLog [1, 1]) :=
  ⟨by decide,(readCommitted_isolation _ _ _ _).1 (fun _ _ => by decide)⟩

/-- In one segment with the record before it, it is. -/
theorem fetch_past_lastStable :
    (offsetStage openAtOne ⟨"orders", 0⟩ ⟨2, 0, some 0, none⟩).lastStable = 1 ∧
      ∃ batches, fetch openAtOne ⟨"orders", 0⟩ ⟨2, 0, some 0, none⟩ (fun _ => recordLog [2])
          (fun _ => {}) 0 1048576 .readCommitted = .ok batches ∧
        batches.map Batch.baseOffset = [0, 1] :=
  ⟨by decide,_,rfl,by decide⟩

end Kodansu.Fetch

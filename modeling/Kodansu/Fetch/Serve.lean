/-
The read path of one partition: planning which regions of the fenced view to read, and
assembling a response from their batches.  Both stop on a budget of the same
`max_bytes`, the plan in units of regions and the response in units of batches.
-/

import Kodansu.Index.FencedView
import Kodansu.Record.Batch

namespace Kodansu.Fetch

open Index Segment Record List

/-- The rows an index holds for a sub-stream, and the batches each of their regions holds.
A row's byte length is that of its batches. -/
structure StoredLog where
  rows : List RankedEntry
  region : Nat → SubstreamEntry → List Batch
  byteLen_eq : ∀ row ∈ rows, row.entry.byteLen = ((region row.seq row.entry).map Batch.wireSize).sum

namespace StoredLog

def view (log : StoredLog) : List FencedSegment := withFencedSegments log.rows

def batches (log : StoredLog) (fenced : FencedSegment) : List Batch :=
  log.region fenced.seq fenced.entry

def bytes (log : StoredLog) : Nat := (log.view.map (fun fenced => fenced.entry.byteLen)).sum

end StoredLog

inductive Interruption
  | vanished
  | corrected
  | failed
deriving DecidableEq

/-- What happens to one attempt of a fetch: whether its index refresh fails, which reads
do not come back with their region, and before which of its reads the wait is over. -/
structure Conditions where
  refreshFails : Bool := false
  interrupted : FencedSegment → Option Interruption := fun _ => none
  expired : Nat → Bool := fun _ => false

inductive FetchError
  | storage
  | offsetOutOfRange
deriving DecidableEq

/-- The share of a region's bytes that holds offsets at or above the one fetched,
prorated by record count. -/
def bytesFrom (fenced : FencedSegment) (offset : Int) : Nat :=
  let records := fenced.entry.recordCount
  let above := fenced.endOffset - max offset fenced.entry.baseOffset
  if records ≤ 0 ∨ above ≥ records then fenced.entry.byteLen
  else fenced.entry.byteLen * (max above 0).toNat / records.toNat

/-- The regions a fetch reads.  The one that crosses the budget is still read. -/
def planFetch (offset highWatermark : Int) : List FencedSegment → Nat → List FencedSegment
  | [], _ => []
  | fenced :: rest, bytes =>
    if fenced.endOffset ≤ offset then planFetch offset highWatermark rest bytes
    else if fenced.entry.baseOffset ≥ highWatermark then []
    else if bytesFrom fenced offset > bytes then [fenced]
    else fenced :: planFetch offset highWatermark rest (bytes - bytesFrom fenced offset)

structure Response where
  batches : List Batch
  budget : Nat
  spent : Bool := false

/-- Carry a region's batches, from a running offset, over into the response.  Batches
wholly below the fetch offset or below what the region serves are skipped. -/
def serveRegion (offset servedFrom : Int) : List Batch → Int → Response → Response
  | [], _, response => response
  | batch :: rest, start, response =>
    let running := start + batch.offsets
    if running ≤ offset then serveRegion offset servedFrom rest running response
    else if running ≤ servedFrom then serveRegion offset servedFrom rest running response
    else if response.budget = 0 ∧ response.batches ≠ [] then { response with spent := true }
    else
      serveRegion offset servedFrom rest running
        { response with
          batches := response.batches ++ [{ batch with baseOffset := start }]
          budget := response.budget - batch.wireSize }

/-- Read the planned regions in order.  No result means that the attempt restarts. -/
def servePlan (log : StoredLog) (conditions : Conditions) (offset : Int) :
    List FencedSegment → Nat → Response → Except FetchError (Option (List Batch))
  | [], _, response => .ok (some response.batches)
  | fenced :: rest, index, response =>
    if conditions.expired index then .ok (some response.batches)
    else
      match conditions.interrupted fenced with
      | some .failed => .error .storage
      | some .vanished | some .corrected => .ok none
      | none =>
        let served := serveRegion offset fenced.servedFrom (log.batches fenced)
          fenced.entry.baseOffset response
        if served.spent then .ok (some served.batches)
        else servePlan log conditions offset rest (index + 1) served

def maxAttempts : Nat := 3

/-- Attempts from one on, each over the log as its own index refresh shows it. -/
def fetchAttempts (logs : Nat → StoredLog) (conditions : Nat → Conditions)
    (offset : Int) (maxBytes : Nat) (highWatermark : Int) :
    Nat → Nat → Except FetchError (List Batch)
  | 0, attempt => if (conditions attempt).refreshFails then .error .storage else .ok []
  | remaining + 1, attempt =>
    if (conditions attempt).refreshFails then .error .storage
    else
      let plan := planFetch offset highWatermark (logs attempt).view maxBytes
      match servePlan (logs attempt) (conditions attempt) offset plan 0 ⟨[], maxBytes, false⟩ with
      | .error error => .error error
      | .ok (some batches) => .ok batches
      | .ok none =>
        fetchAttempts logs conditions offset maxBytes highWatermark remaining (attempt + 1)

def fetchPrefixCoalesced (logs : Nat → StoredLog) (conditions : Nat → Conditions)
    (offset : Int) (maxBytes : Nat) (highWatermark : Int) : Except FetchError (List Batch) :=
  fetchAttempts logs conditions offset maxBytes highWatermark maxAttempts 0

/-! ### What a response holds -/

def placed : Int → List Batch → List Batch
  | _, [] => []
  | start, batch :: rest =>
    { batch with baseOffset := start } :: placed (start + batch.offsets) rest

def endOf (batch : Batch) : Int := batch.baseOffset + batch.offsets

variable {offset start highWatermark : Int} {region : List Batch} {resp : Response} {batch : Batch}
  {fenced : FencedSegment} {plan : List FencedSegment} {conditions : Conditions}
  {index maxBytes remaining attempt : Nat} {logs : Nat → StoredLog}

lemma serveRegion_mem {servedFrom : Int}
    (mem : batch ∈ (serveRegion offset servedFrom region start resp).batches) :
    batch ∈ resp.batches ∨
      batch ∈ placed start region ∧ offset < endOf batch ∧ servedFrom < endOf batch := by
  induction region generalizing start resp with
  | nil => exact .inl mem
  | cons first rest ih =>
    unfold serveRegion at mem
    simp only at mem
    split_ifs at mem with below fenced spent
    · exact (ih mem).imp_right (fun found => ⟨.tail _ found.1,found.2⟩)
    · exact (ih mem).imp_right (fun found => ⟨.tail _ found.1,found.2⟩)
    · exact .inl mem
    · rcases ih mem with carried | found
      · rcases mem_append.mp carried with earlier | isFirst
        · exact .inl earlier
        · rw [mem_singleton] at isFirst
          subst isFirst
          exact .inr ⟨.head _,not_le.mp below,not_le.mp fenced⟩
      · exact .inr ⟨.tail _ found.1,found.2⟩

lemma planFetch_mem {view : List FencedSegment} {bytes : Nat}
    (mem : fenced ∈ planFetch offset highWatermark view bytes) :
    fenced ∈ view ∧ offset < fenced.endOffset ∧ fenced.entry.baseOffset < highWatermark := by
  induction view generalizing bytes with
  | nil => cases mem
  | cons first rest ih =>
    unfold planFetch at mem
    split_ifs at mem with below above crossing
    · exact (ih mem).imp_left (mem_cons_of_mem _)
    · cases mem
    · rw [mem_singleton] at mem
      subst mem
      exact ⟨.head _,not_le.mp below,not_le.mp above⟩
    · rcases mem_cons.mp mem with isFirst | inRest
      · subst isFirst
        exact ⟨.head _,not_le.mp below,not_le.mp above⟩
      · exact (ih inRest).imp_left (mem_cons_of_mem _)

def Returnable (log : StoredLog) (offset highWatermark : Int) (batch : Batch) : Prop :=
  ∃ fenced ∈ log.view, offset < fenced.endOffset ∧ fenced.entry.baseOffset < highWatermark ∧
    batch ∈ placed fenced.entry.baseOffset (log.batches fenced) ∧
    offset < endOf batch ∧ fenced.servedFrom < endOf batch

lemma servePlan_mem {batches : List Batch} {log : StoredLog}
    (planned : ∀ fenced ∈ plan, fenced ∈ log.view ∧ offset < fenced.endOffset ∧
      fenced.entry.baseOffset < highWatermark)
    (res : servePlan log conditions offset plan index resp = .ok (some batches))
    (mem : batch ∈ batches) :
    batch ∈ resp.batches ∨ Returnable log offset highWatermark batch := by
  induction plan generalizing index resp with
  | nil =>
    cases res
    exact .inl mem
  | cons first rest ih =>
    have fromRegion : ∀ {carried : Batch}, carried ∈ (serveRegion offset first.servedFrom
        (log.batches first) first.entry.baseOffset resp).batches →
        carried ∈ resp.batches ∨ Returnable log offset highWatermark carried := by
      intro carried inServed
      obtain ⟨inView,ends,starts⟩ := planned first (.head _)
      exact (serveRegion_mem inServed).imp_right (fun found =>
        ⟨first,inView,ends,starts,found.1,found.2.1,found.2.2⟩)
    unfold servePlan at res
    split at res
    · cases res
      exact .inl mem
    · split at res
      · cases res
      · cases res
      · cases res
      · simp only at res
        split at res
        · cases res
          exact fromRegion mem
        · rcases ih (fun fenced inRest => planned fenced (.tail _ inRest)) res
            with carried | found
          · exact fromRegion carried
          · exact .inr found

lemma fetchAttempts_mem {conditions : Nat → Conditions} {batches : List Batch}
    (res : fetchAttempts logs conditions offset maxBytes highWatermark remaining attempt =
      .ok batches) (mem : batch ∈ batches) :
    ∃ reached < attempt + remaining, Returnable (logs reached) offset highWatermark batch := by
  induction remaining generalizing attempt with
  | zero =>
    unfold fetchAttempts at res
    split at res
    · cases res
    · cases res
      cases mem
  | succ remaining ih =>
    unfold fetchAttempts at res
    split at res
    · cases res
    simp only at res
    split at res
    · cases res
    · rename_i served
      cases res
      rcases servePlan_mem (fun _ => planFetch_mem) served mem with impossible | found
      · cases impossible
      · exact ⟨attempt,by omega,found⟩
    · obtain ⟨reached,bound,found⟩ := ih res
      exact ⟨reached,by omega,found⟩

/-! ### What an unhindered fetch with enough budget returns -/

lemma bytesFrom_le (fenced : FencedSegment) (offset : Int) :
    bytesFrom fenced offset ≤ fenced.entry.byteLen := by
  unfold bytesFrom
  simp only
  split
  · exact le_refl _
  rename_i partly
  apply Nat.div_le_of_le_mul
  rw [Nat.mul_comm]
  apply Nat.mul_le_mul_right
  omega

lemma planFetch_sublist (offset highWatermark : Int) (view : List FencedSegment) (bytes : Nat) :
    (planFetch offset highWatermark view bytes).Sublist view := by
  induction view generalizing bytes with
  | nil => exact List.Sublist.refl _
  | cons first rest ih =>
    unfold planFetch
    split_ifs
    · exact (ih bytes).cons first
    · exact nil_sublist _
    · exact (nil_sublist rest).cons_cons first
    · exact (ih _).cons_cons first

lemma mem_planFetch {bytes : Nat} {view : List FencedSegment} (ascending : view.Pairwise
      (fun before after => before.entry.baseOffset ≤ after.entry.baseOffset))
    (enough : (view.map (fun fenced => fenced.entry.byteLen)).sum ≤ bytes) (mem : fenced ∈ view)
    (ends : offset < fenced.endOffset) (starts : fenced.entry.baseOffset < highWatermark) :
    fenced ∈ planFetch offset highWatermark view bytes := by
  induction view generalizing bytes with
  | nil => cases mem
  | cons first rest ih =>
    obtain ⟨lowest,restAscending⟩ := pairwise_cons.mp ascending
    simp only [map_cons,sum_cons] at enough
    have charged := bytesFrom_le first offset
    unfold planFetch
    split_ifs with below above crossing
    · rcases mem_cons.mp mem with isFirst | inRest
      · subst isFirst
        omega
      · exact ih restAscending (by omega) inRest
    · -- the view ascends, so nothing from here on starts below the watermark
      rcases mem_cons.mp mem with isFirst | inRest
      · subst isFirst
        omega
      · have := lowest fenced inRest
        omega
    · omega
    · rcases mem_cons.mp mem with isFirst | inRest
      · exact mem_cons.mpr (.inl isFirst)
      · exact .tail _ (ih restAscending (by omega) inRest)

lemma serveRegion_complete (offset servedFrom : Int) (region : List Batch) (start : Int)
    (resp : Response) (enough : (region.map Batch.wireSize).sum < resp.budget)
    (unspent : resp.spent = false) :
    let served := serveRegion offset servedFrom region start resp
    served.spent = false ∧ resp.budget - (region.map Batch.wireSize).sum ≤ served.budget ∧
      (∀ batch ∈ resp.batches, batch ∈ served.batches) ∧
      ∀ batch ∈ placed start region, offset < endOf batch → servedFrom < endOf batch →
        batch ∈ served.batches := by
  induction region generalizing start resp with
  | nil =>
    refine ⟨unspent,by simp [serveRegion],fun _ carried => carried,?_⟩
    exact forall_mem_nil _
  | cons first rest ih =>
    simp only [map_cons,sum_cons] at enough
    unfold serveRegion
    simp only [placed,map_cons,sum_cons,forall_mem_cons]
    have placedEnd : endOf { first with baseOffset := start } = start + first.offsets := rfl
    split_ifs with below fenced spent
    · obtain ⟨stays,left,kept,found⟩ :=
        ih (start + first.offsets) resp (by omega) unspent
      exact ⟨stays,by omega,kept,fun above => by omega,found⟩
    · obtain ⟨stays,left,kept,found⟩ :=
        ih (start + first.offsets) resp (by omega) unspent
      exact ⟨stays,by omega,kept,fun _ above => by omega,found⟩
    · omega
    · obtain ⟨stays,left,kept,found⟩ := ih (start + first.offsets)
        { resp with
          batches := resp.batches ++ [{ first with baseOffset := start }]
          budget := resp.budget - first.wireSize } (by simp only; omega) unspent
      refine ⟨stays,by simp only at left; omega,?_,?_,found⟩
      · exact fun batch carried => kept batch (mem_append_left _ carried)
      · exact fun _ _ => kept _ (mem_append_right _ (.head _))

lemma servePlan_complete (log : StoredLog) (offset : Int) (plan : List FencedSegment)
    (index : Nat) (resp : Response)
    (enough : (plan.map (fun fenced => ((log.batches fenced).map Batch.wireSize).sum)).sum <
      resp.budget)
    (unspent : resp.spent = false) :
    ∃ batches, servePlan log {} offset plan index resp = .ok (some batches) ∧
      (∀ batch ∈ resp.batches, batch ∈ batches) ∧
      ∀ fenced ∈ plan, ∀ batch ∈ placed fenced.entry.baseOffset (log.batches fenced),
        offset < endOf batch → fenced.servedFrom < endOf batch → batch ∈ batches := by
  induction plan generalizing index resp with
  | nil =>
    refine ⟨resp.batches,rfl,fun _ carried => carried,?_⟩
    exact forall_mem_nil _
  | cons first rest ih =>
    simp only [map_cons,sum_cons] at enough
    obtain ⟨stays,left,kept,found⟩ := serveRegion_complete offset first.servedFrom
      (log.batches first) first.entry.baseOffset resp (by omega) unspent
    obtain ⟨batches,res,carriedOn,restFound⟩ := ih (index + 1)
      (serveRegion offset first.servedFrom (log.batches first) first.entry.baseOffset resp)
      (by omega) stays
    refine ⟨batches,?_,fun batch carried => carriedOn batch (kept batch carried),?_⟩
    · unfold servePlan
      simp [stays,res]
    · intro fenced mem
      rcases mem_cons.mp mem with isFirst | inRest
      · subst isFirst
        exact fun batch inRegion above serves =>
          carriedOn batch (found batch inRegion above serves)
      · exact restFound fenced inRest

lemma StoredLog.view_byteLen (log : StoredLog) (mem : fenced ∈ log.view) :
    ((log.batches fenced).map Batch.wireSize).sum = fenced.entry.byteLen := by
  obtain ⟨row,inRows,sameSeq,sameEntry,-⟩ := withFencedSegments_mem mem
  rw [StoredLog.batches,sameSeq,sameEntry]
  exact (log.byteLen_eq row inRows).symm

/-- An unhindered fetch whose budget exceeds the log returns everything it may. -/
lemma fetchPrefixCoalesced_complete (offset highWatermark : Int)
    (enough : (logs 0).bytes < maxBytes) :
    ∃ batches, fetchPrefixCoalesced logs (fun _ => {}) offset maxBytes highWatermark = .ok batches ∧
      ∀ batch, Returnable (logs 0) offset highWatermark batch → batch ∈ batches := by
  have subset := planFetch_sublist offset highWatermark (logs 0).view maxBytes
  have planBytes : ((planFetch offset highWatermark (logs 0).view maxBytes).map (fun fenced =>
      (((logs 0).batches fenced).map Batch.wireSize).sum)).sum ≤ (logs 0).bytes := by
    rw [map_congr_left (fun fenced mem =>
      (logs 0).view_byteLen (subset.subset mem))]
    exact (subset.map _).sum_le_sum (fun _ _ => Nat.zero_le _)
  obtain ⟨batches,res,-,found⟩ := servePlan_complete (logs 0) offset _ 0
    ⟨[],maxBytes,false⟩ (lt_of_le_of_lt planBytes enough) rfl
  refine ⟨batches,?_,?_⟩
  · simp [fetchPrefixCoalesced,fetchAttempts,maxAttempts,res]
  · rintro batch ⟨fenced,inView,ends,starts,inRegion,above,serves⟩
    have planned := mem_planFetch (withFencedSegments_bases_ascend _) (le_of_lt enough) inView
      ends starts
    exact found fenced planned batch inRegion above serves

end Kodansu.Fetch

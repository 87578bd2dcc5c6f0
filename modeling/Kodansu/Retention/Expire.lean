/-
Which segments of a prefix an expiry takes: those whose newest record is past a
threshold, and those in which every slice ends at or below its truncation floor.

Age alone does not take a segment out of the middle of a sub-stream.  An aged
segment that lies behind a surviving one in some sub-stream's order is demoted, and
since it then survives itself the walk is repeated until nothing is demoted.
-/

import Kodansu.Index.PrefixIndex

namespace Kodansu.Retention

open Segment Index Lib List

variable {aged order truncated : List Nat}

abbrev Floors := Topition → Option Int

def newest (cached : CachedSegment) : Int :=
  (cached.footer.entries.map SubstreamEntry.maxTimestamp).max?.getD i64Min

/-- The append time stands in where record timestamps are unset. -/
def ageMs (cached : CachedSegment) : Int :=
  if 0 < newest cached then newest cached else cached.lastModifiedMs

def entryTopition (entry : SubstreamEntry) : Topition := ⟨entry.topic, entry.partition⟩

/-- Whether a slice ends at or below its floor.  An unknown floor defers. -/
def sliceTruncated (floors : Floors) (entry : SubstreamEntry) : Bool :=
  (floors (entryTopition entry)).any (fun floor => entry.endOffset ≤ floor)

def fullyTruncated (floors : Floors) (cached : CachedSegment) : Bool :=
  !cached.footer.entries.isEmpty && cached.footer.entries.all (sliceTruncated floors)

def seqsWhere (index : PrefixIndex) (test : CachedSegment → Bool) : List Nat :=
  (index.segments.entries.filter (fun (_, cached) => test cached)).map Prod.fst

/-- One walk along a sub-stream's order, the flag telling whether a surviving
segment has been passed. -/
def demoteAlong (truncated : List Nat) : Bool → List Nat → List Nat → List Nat
  | _, [], aged => aged
  | true, seq :: order, aged => demoteAlong truncated true order (aged.filter (· ≠ seq))
  | false, seq :: order, aged =>
    demoteAlong truncated (!aged.contains seq && !truncated.contains seq) order aged

def demotePass (truncated : List Nat) (orders : List (List Nat)) (aged : List Nat) : List Nat :=
  orders.foldl (fun aged order => demoteAlong truncated false order aged) aged

lemma demoteAlong_sublist (truncated : List Nat) (blocked : Bool) (order aged : List Nat) :
    (demoteAlong truncated blocked order aged).Sublist aged := by
  induction order generalizing blocked aged with
  | nil => exact List.Sublist.refl _
  | cons seq order ih =>
    cases blocked with
    | true => exact (ih true _).trans filter_sublist
    | false => exact ih _ aged

lemma demotePass_sublist (truncated : List Nat) (orders : List (List Nat)) (aged : List Nat) :
    (demotePass truncated orders aged).Sublist aged := by
  induction orders generalizing aged with
  | nil => exact List.Sublist.refl _
  | cons order orders ih => exact (ih _).trans (demoteAlong_sublist truncated false order aged)

/-- Passes until one demotes nothing.  A pass only ever removes. -/
def demote (truncated : List Nat) (orders : List (List Nat)) (aged : List Nat) : List Nat :=
  if demotePass truncated orders aged = aged then aged
  else demote truncated orders (demotePass truncated orders aged)
termination_by aged.length
decreasing_by
  have passed := demotePass_sublist truncated orders aged
  have shorter : (demotePass truncated orders aged).length ≠ aged.length :=
    fun same => ‹¬_› (passed.eq_of_length same)
  exact lt_of_le_of_ne passed.length_le shorter

def substreamKeys (index : PrefixIndex) : List SubstreamKey :=
  let keys := index.segments.entries.flatMap fun (_, cached) =>
    cached.footer.entries.map (fun entry => toLex entry.key)
  (keys.dedup.insertionSort (· ≤ ·)).map ofLex

def substreamOrders (index : PrefixIndex) : List (List Nat) :=
  (substreamKeys index).map fun key => (index.validSubstreamSegments key).map FencedSegment.seq

/-- What an expiry takes, and why. -/
structure Expirable where
  aged : List Nat
  truncated : List Nat

def Expirable.seqs (expirable : Expirable) (index : PrefixIndex) : List Nat :=
  (index.segments.entries.map Prod.fst).filter fun seq =>
    expirable.aged.contains seq || expirable.truncated.contains seq

def expirePrefixSegments (floors : Floors) (thresholdMs : Int) (index : PrefixIndex) : Expirable :=
  let truncated := seqsWhere index (fullyTruncated floors)
  let aged := seqsWhere index fun cached =>
    !fullyTruncated floors cached && ageMs cached < thresholdMs
  { aged := if aged = [] then [] else demote truncated (substreamOrders index) aged
    truncated }

/-! ### What is taken -/

def agedSeqs (floors : Floors) (thresholdMs : Int) (index : PrefixIndex) : List Nat :=
  seqsWhere index fun cached => !fullyTruncated floors cached && ageMs cached < thresholdMs

variable {index : PrefixIndex} {test : CachedSegment → Bool} {seq : Nat} {floors : Floors}
  {thresholdMs : Int}

lemma mem_seqsWhere : seq ∈ seqsWhere index test ↔
      ∃ cached, index.segments.get? seq = some cached ∧ test cached = true := by
  simp only [seqsWhere,mem_map,mem_filter]
  constructor
  · rintro ⟨⟨_,cached⟩,⟨mem,passes⟩,rfl⟩
    exact ⟨cached,OrderedMap.mem_entries.mp mem,passes⟩
  · rintro ⟨cached,found,passes⟩
    exact ⟨(seq, cached),⟨OrderedMap.mem_entries.mpr found,passes⟩,rfl⟩

lemma demote_sublist (truncated : List Nat) (orders : List (List Nat)) (aged : List Nat) :
    (demote truncated orders aged).Sublist aged := by
  fun_induction demote truncated orders aged with
  | case1 aged settled => exact List.Sublist.refl _
  | case2 aged changed ih => exact ih.trans (demotePass_sublist truncated orders aged)

lemma aged_eq_demote (floors : Floors) (thresholdMs : Int) (index : PrefixIndex) :
    (expirePrefixSegments floors thresholdMs index).aged =
      demote (seqsWhere index (fullyTruncated floors)) (substreamOrders index)
        (agedSeqs floors thresholdMs index) := by
  unfold expirePrefixSegments agedSeqs
  dsimp only
  split
  · rename_i nothing
    rw [nothing]
    exact (sublist_nil.mp (demote_sublist _ _ [])).symm
  · rfl

lemma aged_past (taken : seq ∈ (expirePrefixSegments floors thresholdMs index).aged) :
    ∃ cached, index.segments.get? seq = some cached ∧ ageMs cached < thresholdMs := by
  rw [aged_eq_demote] at taken
  have first := (demote_sublist _ _ _).subset taken
  obtain ⟨cached,found,passes⟩ := mem_seqsWhere.mp first
  refine ⟨cached,found,?_⟩
  simp only [Bool.and_eq_true,decide_eq_true_eq] at passes
  exact passes.2

/-! ### The walk ends at a head of every sub-stream -/

variable {orders : List (List Nat)}

section

variable {taken : Set Nat} (covered : ∀ seq ∈ taken, seq ∈ aged ∨ seq ∈ truncated)

include covered

end

lemma demoteAlong_of_expired (expired : ∀ seq ∈ order, seq ∈ aged ∨ seq ∈ truncated) :
    demoteAlong truncated false order aged = aged := by
  induction order with
  | nil => rfl
  | cons seq order ih =>
    have first : (!aged.contains seq && !truncated.contains seq) = false := by
      simpa [or_iff_not_imp_left] using expired seq (.head _)
    rw [demoteAlong,first]
    exact ih fun later mem => expired later (.tail _ mem)

variable {cached : CachedSegment}

lemma demotePass_of_expired
    (expired : ∀ order ∈ orders, ∀ seq ∈ order, seq ∈ aged ∨ seq ∈ truncated) :
    demotePass truncated orders aged = aged := by
  induction orders with
  | nil => rfl
  | cons order orders ih =>
    unfold demotePass at ih ⊢
    rw [foldl_cons,demoteAlong_of_expired (expired order mem_cons_self)]
    exact ih fun later mem => expired later (.tail _ mem)

lemma mem_substreamOrders (mem : order ∈ substreamOrders index) (inOrder : seq ∈ order) :
    ∃ cached, index.segments.get? seq = some cached := by
  obtain ⟨key,-,rfl⟩ := mem_map.mp mem
  obtain ⟨segment,inView,rfl⟩ := mem_map.mp inOrder
  obtain ⟨row,inRows,same,-⟩ := withFencedSegments_mem inView
  obtain ⟨cached,found,-⟩ := PrefixIndex.mem_rows.mp inRows
  exact ⟨cached,same ▸ found⟩

/-- Where every segment is past the threshold and none is truncated, nothing is demoted. -/
lemma aged_of_all
    (past : ∀ seq cached, index.segments.get? seq = some cached → fullyTruncated floors cached =
      false ∧ ageMs cached < thresholdMs) (found : index.segments.get? seq = some cached) :
    seq ∈ (expirePrefixSegments floors thresholdMs index).aged := by
  have first : ∀ seq cached, index.segments.get? seq = some cached →
      seq ∈ agedSeqs floors thresholdMs index := by
    intro seq cached found
    apply mem_seqsWhere.mpr
    refine ⟨cached,found,?_⟩
    simp [past seq cached found]
  have settled : demotePass (seqsWhere index (fullyTruncated floors)) (substreamOrders index)
      (agedSeqs floors thresholdMs index) = agedSeqs floors thresholdMs index := by
    apply demotePass_of_expired
    intro order mem seq inOrder
    obtain ⟨cached,found⟩ := mem_substreamOrders mem inOrder
    exact .inl (first seq cached found)
  rw [aged_eq_demote,demote,if_pos settled]
  exact first seq cached found

end Kodansu.Retention

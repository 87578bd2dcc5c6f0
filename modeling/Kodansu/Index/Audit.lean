/-
The audit of one sub-stream: its slices swept as the resolver sweeps them, and what they leave
uncovered reported.

A slice is a footer's entry with the prefix and the size of the object it is in.  The set of
offsets that no slice holds is stated apart from the sweep; the gaps are its maximal runs, and the
fenced view of the same entries leaves exactly this set unserved.
-/

import Kodansu.Index.FencedView
import Kodansu.Lib.Runs

namespace Kodansu.Index

open Segment Lib List

structure Slice where
  prefixName : String
  size : Nat
  row : RankedEntry
  fits : i64Min ≤ row.base

namespace Slice

def baseOffset (slice : Slice) : Int := slice.row.base

def recordCount (slice : Slice) : Int := slice.row.entry.recordCount

def endOffset (slice : Slice) : Int := slice.row.endOffset

def Covers (slice : Slice) (offset : Int) : Prop :=
  slice.baseOffset ≤ offset ∧ offset < slice.endOffset

lemma recordCount_eq (slice : Slice) :
    slice.recordCount = slice.endOffset - slice.baseOffset := by
  unfold endOffset RankedEntry.endOffset SubstreamEntry.endOffset recordCount
  unfold baseOffset RankedEntry.base
  omega

end Slice

structure Bracket where
  prefixName : String
  seq : Nat
  size : Nat
  maxTimestamp : Int

def Slice.bracket (slice : Slice) : Bracket where
  prefixName := slice.prefixName
  seq := slice.row.seq
  size := slice.size
  maxTimestamp := slice.row.entry.maxTimestamp

structure Gap where
  lostFrom : Int
  lostTo : Int
  records : Int
  before : Bracket
  after : Bracket

structure PartitionAudit where
  partition : Int
  firstOffset : Int := 0
  nextOffset : Int := 0
  span : Int := 0
  recordsPresent : Int := 0
  recordsLost : Int := 0
  gaps : List Gap := []
  overlapsDropped : Nat := 0
  overlapsClipped : Nat := 0
  legacyBatches : Nat := 0

def gapBetween (previous slice : Slice) : List Gap :=
  if previous.endOffset < slice.baseOffset then
    [{ lostFrom := previous.endOffset
       lostTo := slice.baseOffset - 1
       records := slice.baseOffset - previous.endOffset
       before := previous.bracket
       after := slice.bracket }]
  else []

/-- One slice, with the one that reaches furthest so far. -/
def auditSlice : PartitionAudit × Option Slice → Slice → PartitionAudit × Option Slice
  | (audit, none), slice =>
    ({ audit with
      firstOffset := slice.baseOffset
      recordsPresent := audit.recordsPresent + slice.recordCount }, some slice)
  | (audit, some previous), slice =>
    if slice.endOffset ≤ previous.endOffset then
      ({ audit with overlapsDropped := audit.overlapsDropped + 1 }, some previous)
    else if slice.baseOffset < previous.endOffset then
      ({ audit with
        overlapsClipped := audit.overlapsClipped + 1
        recordsPresent := audit.recordsPresent + (slice.endOffset - previous.endOffset) }, some slice)
    else
      ({ audit with
        gaps := audit.gaps ++ gapBetween previous slice
        recordsPresent := audit.recordsPresent + slice.recordCount }, some slice)

/-- The slices that hold records, in the order of the sweep. -/
def inOrder (slices : List Slice) : List Slice :=
  (slices.filter (0 < ·.recordCount)).insertionSort (fun left right => sweepOrder left.row right.row)

def auditPartition (partition : Int) (slices : List Slice) : PartitionAudit :=
  match (inOrder slices).foldl auditSlice ({ partition }, none) with
  | (audit, none) => audit
  | (audit, some last) =>
    { audit with
      nextOffset := last.endOffset
      span := last.endOffset - audit.firstOffset
      recordsLost := last.endOffset - audit.firstOffset - audit.recordsPresent }

/-! ### What is not covered -/

/-- The slices that hold records. -/
def holding (slices : List Slice) : Set Slice := {slice | slice ∈ slices ∧ 0 < slice.recordCount}

/-- The offsets of a set that lie between the lowest base and the highest end of the slices. -/
def between (slices : List Slice) (set : Set Int) : Set Int :=
  {offset | offset ∈ set ∧ (∃ slice ∈ holding slices, slice.baseOffset ≤ offset) ∧
    ∃ slice ∈ holding slices, offset < slice.endOffset}

def uncovered (slices : List Slice) : Set Int :=
  between slices {offset | ∀ slice ∈ holding slices, ¬slice.Covers offset}

def unserved (slices : List Slice) : Set Int :=
  between slices {offset | offset ∉ servedBy (withFencedSegments (slices.map Slice.row))}

lemma unserved_eq_uncovered (slices : List Slice) : unserved slices = uncovered slices := by
  have typed : ∀ row ∈ slices.map Slice.row, i64Min ≤ row.base := by
    intro row mem
    obtain ⟨slice,_,rfl⟩ := mem_map.mp mem
    exact slice.fits
  have same : {offset | offset ∉ servedBy (withFencedSegments (slices.map Slice.row))} =
      {offset | ∀ slice ∈ holding slices, ¬slice.Covers offset} := by
    ext offset
    rw [Set.mem_ofPred_eq,served_eq_held typed,mem_held,Set.mem_ofPred_eq]
    constructor
    · intro unheld slice mem covers
      exact unheld ⟨slice.row,mem_map_of_mem mem.1,covers⟩
    · rintro free ⟨row,mem,covers⟩
      obtain ⟨slice,isSlice,rfl⟩ := mem_map.mp mem
      have count := slice.recordCount_eq
      have holds : slice.baseOffset < slice.endOffset := covers.1.trans_lt covers.2
      exact free slice ⟨isSlice,by omega⟩ covers
  rw [unserved,uncovered,same]

/-! ### The sweep -/

def Gap.run (gap : Gap) : Int × Int := (gap.lostFrom, gap.lostTo)

/-- What is known of the slices that were swept, the first of which starts at `start` and the latest
at `low`: the gaps between them, the records present, and the slice that reaches furthest. -/
structure Audited (start low : Int) (done : List Slice) (gaps : List Gap) (present : Int)
    (last : Slice) : Prop where
  begins : start ≤ low
  reaches : low < last.endOffset
  member : last ∈ done
  furthest : ∀ slice ∈ done, slice.endOffset ≤ last.endOffset
  spaced : Spaced (gaps.map Gap.run)
  below : ∀ gap ∈ gaps, gap.lostTo < low
  exact : ∀ offset, offset ∈ coveredBy (gaps.map Gap.run) ↔
    start ≤ offset ∧ offset < last.endOffset ∧ ∀ slice ∈ done, ¬slice.Covers offset
  records : ∀ gap ∈ gaps, gap.records = gap.lostTo - gap.lostFrom + 1
  total : present + (gaps.map Gap.records).sum = last.endOffset - start

namespace Audited

variable {last next : Slice} {gap : Gap} {gaps : List Gap} {offset : Int}

lemma mem_gapBetween (mem : gap ∈ gapBetween last next) :
    gap.lostFrom = last.endOffset ∧ gap.lostTo = next.baseOffset - 1 ∧
      gap.lostFrom ≤ gap.lostTo ∧ gap.records = gap.lostTo - gap.lostFrom + 1 := by
  unfold gapBetween at mem
  split at mem
  · cases mem_singleton.mp mem
    dsimp only
    omega
  · cases mem

lemma mem_coveredBy_append : offset ∈ coveredBy ((gaps ++ gapBetween last next).map Gap.run) ↔
      offset ∈ coveredBy (gaps.map Gap.run) ∨ last.endOffset ≤ offset ∧ offset < next.baseOffset := by
  have new : (∃ run ∈ (gapBetween last next).map Gap.run, run.1 ≤ offset ∧ offset ≤ run.2) ↔
      last.endOffset ≤ offset ∧ offset < next.baseOffset := by
    unfold gapBetween
    split
    · simp only [map_cons,map_nil,mem_singleton,exists_eq_left,Gap.run]
      omega
    · simp only [map_nil,not_mem_nil,false_and,exists_false,false_iff]
      omega
  unfold coveredBy
  simp only [map_append,Set.mem_ofPred_eq,mem_append,or_and_right,exists_or,new]

lemma first (head : Slice) (holds : head.baseOffset < head.endOffset) :
    Audited head.baseOffset head.baseOffset [head] [] (head.endOffset - head.baseOffset) head where
  begins := le_rfl
  reaches := holds
  member := mem_singleton_self head
  furthest slice member := (congrArg Slice.endOffset (mem_singleton.mp member)).le
  spaced := ⟨nofun,List.Pairwise.nil⟩
  below := nofun
  exact offset := by
    unfold coveredBy Slice.Covers
    simp only [map_nil,not_mem_nil,false_and,exists_false,Set.mem_ofPred_eq,
      mem_singleton,forall_eq,false_iff]
    omega
  records := nofun
  total := by simp

section

variable {start low present : Int} {done : List Slice}
  (audited : Audited start low done gaps present last)

include audited

/-- A slice that starts above every one before it covers none of the gaps between them. -/
lemma exact_with (above : low ≤ next.baseOffset) (offset : Int) :
    offset ∈ coveredBy (gaps.map Gap.run) ↔ start ≤ offset ∧ offset < last.endOffset ∧
      ∀ slice ∈ done ++ [next], ¬slice.Covers offset := by
  have apart : offset ∈ coveredBy (gaps.map Gap.run) → ¬next.Covers offset := by
    rintro ⟨_,inGaps,_,within⟩ covers
    obtain ⟨gap,isGap,rfl⟩ := mem_map.mp inGaps
    exact (covers.1.trans within).not_gt ((audited.below gap isGap).trans_le above)
  simp only [mem_append,mem_singleton,or_imp,forall_and,forall_eq]
  rw [← and_assoc,← and_assoc,and_assoc (a := start ≤ offset),← audited.exact offset]
  exact (and_iff_left_of_imp apart).symm

lemma drop (above : low ≤ next.baseOffset) (holds : next.baseOffset < next.endOffset)
    (inside : next.endOffset ≤ last.endOffset) :
    Audited start next.baseOffset (done ++ [next]) gaps present last where
  begins := audited.begins.trans above
  reaches := holds.trans_le inside
  member := mem_append_left _ audited.member
  furthest := by
    simpa [or_imp,forall_and] using ⟨audited.furthest,inside⟩
  spaced := audited.spaced
  below gap member := (audited.below gap member).trans_le above
  exact := audited.exact_with above
  records := audited.records
  total := audited.total

lemma spaced_append (next : Slice) : Spaced ((gaps ++ gapBetween last next).map Gap.run) := by
  rw [map_append]
  constructor
  · intro run mem
    cases mem_append.mp mem with
    | inl before => exact audited.spaced.nonempty run before
    | inr new =>
      obtain ⟨gap,isGap,rfl⟩ := mem_map.mp new
      exact (mem_gapBetween isGap).2.2.1
  · apply pairwise_append.mpr
    refine ⟨audited.spaced.ascending,?_,?_⟩
    · unfold gapBetween
      split
      · exact pairwise_singleton _ _
      · exact List.Pairwise.nil
    · intro run mem other isOther
      obtain ⟨gap,before,rfl⟩ := mem_map.mp mem
      obtain ⟨later,new,rfl⟩ := mem_map.mp isOther
      have ends := audited.below gap before
      have reaches := audited.reaches
      have begins := (mem_gapBetween new).1
      unfold Gap.run
      omega

lemma reach (above : low ≤ next.baseOffset) (holds : next.baseOffset < next.endOffset)
    (beyond : last.endOffset < next.endOffset) :
    Audited start next.baseOffset (done ++ [next]) (gaps ++ gapBetween last next)
      (present + (next.endOffset - max last.endOffset next.baseOffset)) next where
  begins := audited.begins.trans above
  reaches := holds
  member := mem_append_right _ (mem_singleton_self next)
  furthest := by
    have shorter := fun slice member => (audited.furthest slice member).trans beyond.le
    simpa [or_imp,forall_and] using shorter
  spaced := audited.spaced_append next
  below gap member := by
    cases mem_append.mp member with
    | inl before => exact (audited.below gap before).trans_le above
    | inr new =>
      have ends := (mem_gapBetween new).2.1
      omega
  exact offset := by
    rw [mem_coveredBy_append,audited.exact_with above]
    constructor
    · rintro (⟨begins,ends,free⟩ | ⟨after,free⟩)
      · exact ⟨begins,ends.trans beyond,free⟩
      · have begins := audited.begins.trans_lt audited.reaches
        refine ⟨begins.le.trans after,free.trans holds,fun slice member covers => ?_⟩
        cases mem_append.mp member with
        | inl before => exact (covers.2.trans_le (audited.furthest slice before)).not_ge after
        | inr isNext =>
          cases mem_singleton.mp isNext
          exact free.not_ge covers.1
    · rintro ⟨begins,ends,free⟩
      by_cases inside : offset < last.endOffset
      · exact .inl ⟨begins,inside,free⟩
      · have outside := free next (mem_append_right _ (mem_singleton_self next))
        unfold Slice.Covers at outside
        omega
  records gap member := by
    cases mem_append.mp member with
    | inl before => exact audited.records gap before
    | inr new => exact (mem_gapBetween new).2.2.2
  total := by
    have total := audited.total
    rw [map_append,sum_append]
    unfold gapBetween
    split
    · simp only [map_cons,map_nil,sum_singleton]
      omega
    · simp only [map_nil,sum_nil]
      omega

end

end Audited

def Swept (start low : Int) (done : List Slice) (state : PartitionAudit × Option Slice) : Prop :=
  state.1.firstOffset = start ∧ ∃ last, state.2 = some last ∧
    Audited start low done state.1.gaps state.1.recordsPresent last

namespace Swept

lemma first (partition : Int) (head : Slice) (holds : 0 < head.recordCount) :
    Swept head.baseOffset head.baseOffset [head] (auditSlice ({ partition }, none) head) := by
  have count := head.recordCount_eq
  have audited := Audited.first head (by omega)
  rw [← count,← Int.zero_add head.recordCount] at audited
  exact ⟨rfl,head,rfl,audited⟩

variable {start low : Int} {done : List Slice} {s : PartitionAudit × Option Slice}

lemma next {next : Slice} (swept : Swept start low done s) (above : low ≤ next.baseOffset)
    (holds : 0 < next.recordCount) :
    Swept start next.baseOffset (done ++ [next]) (auditSlice s next) := by
  obtain ⟨isFirst,last,isLast,audited⟩ := swept
  obtain ⟨audit,_⟩ := s
  cases isLast
  have count := next.recordCount_eq
  unfold auditSlice
  dsimp only at isFirst audited ⊢
  split_ifs with inside overlaps
  · exact ⟨isFirst,last,rfl,audited.drop above (by omega) inside⟩
  all_goals
    have reached := audited.reach above (by omega) (by omega)
    refine ⟨isFirst,next,rfl,?_⟩
  · rw [gapBetween,if_neg (by omega),append_nil,max_eq_left overlaps.le] at reached
    exact reached
  · rw [max_eq_right (by omega),← count] at reached
    exact reached

lemma foldl (swept : Swept start low done s) (rest : List Slice)
    (ascending : rest.Pairwise (·.baseOffset ≤ ·.baseOffset))
    (above : ∀ slice ∈ rest, low ≤ slice.baseOffset ∧ 0 < slice.recordCount) :
    ∃ low, Swept start low (done ++ rest) (rest.foldl auditSlice s) := by
  induction rest generalizing low done s with
  | nil =>
    rw [append_nil]
    exact ⟨low,swept⟩
  | cons next rest continues =>
    obtain ⟨least,ascending⟩ := pairwise_cons.mp ascending
    obtain ⟨now,later⟩ := forall_mem_cons.mp above
    rw [append_cons]
    apply continues (swept.next now.1 now.2) ascending
    exact fun slice mem => ⟨least slice mem,(later slice mem).2⟩

end Swept

/-! ### The audit -/

variable {slices : List Slice} {slice : Slice}

lemma mem_inOrder : slice ∈ inOrder slices ↔ slice ∈ holding slices := by
  rw [inOrder,mem_insertionSort,mem_filter,decide_eq_true_eq]
  rfl

lemma inOrder_ascending (slices : List Slice) :
    (inOrder slices).Pairwise (·.baseOffset ≤ ·.baseOffset) := by
  let order := fun left right : Slice => sweepOrder left.row right.row
  have total : Std.Total order := ⟨fun left right => sweepOrder_total left.row right.row⟩
  have transitive : IsTrans Slice order := ⟨fun _ _ _ => sweepOrder_trans⟩
  exact (pairwise_insertionSort order _).imp sweepOrder.base_le

/-- An audit that reports what the slices leave uncovered. -/
structure Exact (slices : List Slice) (audit : PartitionAudit) : Prop where
  ascending : audit.gaps.Pairwise (·.lostTo < ·.lostFrom)
  maximal : ∀ first last,
    (first, last) ∈ audit.gaps.map Gap.run ↔ MaximalRun (uncovered slices) first last
  unserved : ∀ first last,
    (first, last) ∈ audit.gaps.map Gap.run ↔ MaximalRun (unserved slices) first last
  lost : audit.recordsLost = (audit.gaps.map (fun gap => gap.lostTo - gap.lostFrom + 1)).sum
  total : audit.recordsPresent + audit.recordsLost = audit.span
  span : audit.span = audit.nextOffset - audit.firstOffset
  extent : ∀ slice ∈ holding slices,
    IsLeast (Set.image Slice.baseOffset (holding slices)) audit.firstOffset ∧
      IsGreatest (Set.image Slice.endOffset (holding slices)) audit.nextOffset

section

variable {audit : PartitionAudit}

section

variable {low : Int} {last : Slice}
  (audited : Audited audit.firstOffset low (inOrder slices) audit.gaps audit.recordsPresent last)
  (least : IsLeast (Set.image Slice.baseOffset (holding slices)) audit.firstOffset)

include audited least

lemma Audited.uncovered_eq : uncovered slices = coveredBy (audit.gaps.map Gap.run) := by
  ext offset
  rw [audited.exact]
  constructor
  · rintro ⟨free,⟨first,isFirst,above⟩,⟨final,isFinal,below⟩⟩
    refine ⟨(least.2 ⟨first,isFirst,rfl⟩).trans above,below.trans_le ?_,?_⟩
    · exact audited.furthest final (mem_inOrder.mpr isFinal)
    · exact fun slice mem => free slice (mem_inOrder.mp mem)
  · rintro ⟨above,below,free⟩
    obtain ⟨first,isFirst,isStart⟩ := least.1
    refine ⟨fun slice mem => free slice (mem_inOrder.mpr mem),⟨first,isFirst,?_⟩,?_⟩
    · rw [isStart]
      exact above
    · exact ⟨last,mem_inOrder.mp audited.member,below⟩

lemma Audited.exactly : Exact slices { audit with
      nextOffset := last.endOffset
      span := last.endOffset - audit.firstOffset
      recordsLost := last.endOffset - audit.firstOffset - audit.recordsPresent } where
  ascending := by
    apply (pairwise_map.mp audited.spaced.ascending).imp
    intro earlier later apart
    exact (Int.lt_succ _).trans apart
  maximal first last := by
    rw [audited.uncovered_eq least,audited.spaced.maximalRun_iff]
  unserved first last := by
    rw [unserved_eq_uncovered,audited.uncovered_eq least,audited.spaced.maximalRun_iff]
  lost := by
    have total := audited.total
    rw [map_congr_left audited.records] at total
    dsimp only
    omega
  total := by
    dsimp only
    omega
  span := rfl
  extent _ _ := by
    refine ⟨least,⟨last,mem_inOrder.mp audited.member,rfl⟩,?_⟩
    rintro _ ⟨slice,mem,rfl⟩
    exact audited.furthest slice (mem_inOrder.mpr mem)

end

end

lemma exact_of_none (none : inOrder slices = []) (partition : Int) :
    Exact slices { partition } := by
  have empty (slice) : slice ∉ holding slices := by
    rw [← mem_inOrder,none]
    exact not_mem_nil
  have free : uncovered slices = coveredBy [] := by
    ext offset
    constructor
    · rintro ⟨_,⟨slice,holds,_⟩,_⟩
      exact absurd holds (empty slice)
    · exact nofun
  have spaced : Spaced [] := ⟨nofun,List.Pairwise.nil⟩
  have runs (first last : Int) : (first, last) ∈ [] ↔ MaximalRun (uncovered slices) first last := by
    rw [free,spaced.maximalRun_iff]
  constructor
  case ascending => exact List.Pairwise.nil
  case maximal => exact runs
  case unserved =>
    rw [unserved_eq_uncovered]
    exact runs
  case extent => exact fun slice holds => absurd holds (empty slice)
  all_goals rfl

theorem auditPartition_exact (partition : Int) (slices : List Slice) :
    Exact slices (auditPartition partition slices) := by
  have ascending := inOrder_ascending slices
  have holds (slice) : slice ∈ inOrder slices ↔ slice ∈ holding slices := mem_inOrder
  unfold auditPartition
  cases order : inOrder slices with
  | nil => exact exact_of_none order partition
  | cons head rest =>
    rw [order] at ascending
    obtain ⟨lowest,later⟩ := pairwise_cons.mp ascending
    simp only [order,mem_cons] at holds
    have isHead := (holds head).mp (.inl rfl)
    have least : IsLeast (Set.image Slice.baseOffset (holding slices)) head.baseOffset := by
      refine ⟨⟨head,isHead,rfl⟩,?_⟩
      rintro _ ⟨slice,member,rfl⟩
      cases (holds slice).mpr member with
      | inl isHead => exact (congrArg Slice.baseOffset isHead).ge
      | inr isLater => exact lowest slice isLater
    obtain ⟨low,isFirst,last,isLast,audited⟩ := (Swept.first partition head isHead.2).foldl rest later
      (fun slice member => ⟨lowest slice member,((holds slice).mp (.inr member)).2⟩)
    rw [foldl_cons]
    cases ended : rest.foldl auditSlice (auditSlice ({ partition }, none) head) with
    | mk audit reached =>
      rw [ended] at isFirst isLast audited
      cases isLast
      rw [singleton_append,← order,← isFirst] at audited
      rw [← isFirst] at least
      exact audited.exactly least

end Kodansu.Index

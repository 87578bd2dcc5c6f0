/-
The epoch-fenced view of one sub-stream: its entries swept in ascending base
offset, with an entry that reaches past the covered range served from there.

The sweep is the resolver's own.  What it is for is stated separately, as the set
of offsets the entries hold; `served_eq_held` connects the two.
-/

import Kodansu.Segment.Types

namespace Kodansu.Index

open Segment List

/-! ### The resolver -/

structure RankedEntry where
  writerEpoch : Int
  seq : Nat
  entry : SubstreamEntry
deriving DecidableEq

namespace RankedEntry

def rank (row : RankedEntry) : Rank := toLex (row.writerEpoch, row.seq)

def base (row : RankedEntry) : Int := row.entry.baseOffset

def endOffset (row : RankedEntry) : Int := row.entry.endOffset

end RankedEntry

structure FencedSegment where
  seq : Nat
  servedFrom : Int
  entry : SubstreamEntry
deriving DecidableEq

namespace FencedSegment

def endOffset (segment : FencedSegment) : Int := segment.entry.endOffset

def served (segment : FencedSegment) : Set Int :=
  Set.Ico segment.servedFrom segment.endOffset

end FencedSegment

/-- Whether `[covered, upTo)` is covered by entries of `later` that outrank `rank`.
The scan stops at the first gap, since `later` ascends in base offset. -/
def tailOutranked (rank : Rank) (upTo : Int) : List RankedEntry → Int → Bool
  | [], _ => false
  | row :: later, covered =>
    if row.base > covered then false
    else if rank < row.rank then
      if max covered row.endOffset ≥ upTo then true
      else tailOutranked rank upTo later (max covered row.endOffset)
    else tailOutranked rank upTo later covered

def sweepOrder (left right : RankedEntry) : Prop :=
  left.base < right.base ∨ (left.base = right.base ∧ right.rank ≤ left.rank)

instance : DecidableRel sweepOrder := fun _ _ =>
  inferInstanceAs (Decidable (_ ∨ _))

def servedFrom (row : RankedEntry) (coveredTo : Int) : Int :=
  if row.base < coveredTo then coveredTo else row.base

/-- Both halves are held by entries that outrank this one: the head by the entry
that set the frontier, the tail by later ones. -/
def superseded (row : RankedEntry) (later : List RankedEntry) (coveredTo : Int)
    (frontierRank : Rank) : Bool :=
  row.base < coveredTo && row.rank < frontierRank &&
    tailOutranked row.rank row.endOffset later coveredTo

/-- The sweep from a frontier: the offset covered so far and the rank that set it. -/
def sweep : List RankedEntry → Int → Rank → List FencedSegment
  | [], _, _ => []
  | row :: later, coveredTo, frontierRank =>
    if row.endOffset ≤ coveredTo then sweep later coveredTo frontierRank
    else if superseded row later coveredTo frontierRank then
      sweep later coveredTo frontierRank
    else
      { seq := row.seq
        servedFrom := servedFrom row coveredTo
        entry := row.entry } :: sweep later row.endOffset row.rank

def withFencedSegments (rows : List RankedEntry) : List FencedSegment :=
  sweep (rows.insertionSort sweepOrder) i64Min (toLex (i64Min, 0))

def substreamTail (rows : List RankedEntry) : Option Int :=
  (rows.map RankedEntry.endOffset).max?

/-! ### What the entries hold -/

def held (rows : List RankedEntry) : Set Int :=
  ⋃ row ∈ rows, row.entry.range

def servedBy (view : List FencedSegment) : Set Int :=
  ⋃ segment ∈ view, segment.served

variable {segment : FencedSegment} {rows : List RankedEntry} {offset : Int}
  {view : List FencedSegment}

lemma mem_held :
    offset ∈ held rows ↔ ∃ row ∈ rows, row.base ≤ offset ∧ offset < row.endOffset := by
  simp only [held,Set.mem_iUnion,exists_prop]
  rfl

lemma mem_servedBy : offset ∈ servedBy view ↔
      ∃ segment ∈ view, segment.servedFrom ≤ offset ∧ offset < segment.endOffset := by
  simp only [servedBy,Set.mem_iUnion,exists_prop]
  rfl

lemma servedFrom_eq_max (row : RankedEntry) (coveredTo : Int) :
    servedFrom row coveredTo = max coveredTo row.base := by
  unfold servedFrom
  split <;> omega

/-! ### The order of the sweep -/

lemma sweepOrder_total (left right : RankedEntry) :
    sweepOrder left right ∨ sweepOrder right left := by
  rcases lt_trichotomy left.base right.base with below | same | above
  · exact .inl (.inl below)
  · rcases le_total left.rank right.rank with lower | higher
    · exact .inr (.inr ⟨same.symm,lower⟩)
    · exact .inl (.inr ⟨same,higher⟩)
  · exact .inr (.inl above)

variable {first second third left right : RankedEntry}

lemma sweepOrder_trans (before : sweepOrder first second) (after : sweepOrder second third) :
    sweepOrder first third := by
  rcases before with below | ⟨same,lower⟩ <;> rcases after with below' | ⟨same',lower'⟩
  · exact .inl (below.trans below')
  · exact .inl (same' ▸ below)
  · exact .inl (same ▸ below')
  · exact .inr ⟨same.trans same',lower'.trans lower⟩

lemma sweepOrder.base_le (ordered : sweepOrder left right) : left.base ≤ right.base := by
  rcases ordered with below | ⟨same,_⟩ <;> omega

lemma insertionSort_sorted (rows : List RankedEntry) :
    (rows.insertionSort sweepOrder).Pairwise sweepOrder :=
  haveI : Std.Total sweepOrder := ⟨sweepOrder_total⟩
  haveI : IsTrans RankedEntry sweepOrder := ⟨fun _ _ _ => sweepOrder_trans⟩
  pairwise_insertionSort sweepOrder rows

/-! ### Coverage -/

variable {upTo covered coveredTo : Int} {later : List RankedEntry} {frontierRank : Rank}

lemma tailOutranked_covers {rank : Rank}
    (outranked : tailOutranked rank upTo later covered = true) (reached : covered ≤ offset)
    (below : offset < upTo) :
    ∃ row ∈ later, rank < row.rank ∧ row.base ≤ offset ∧ offset < row.endOffset := by
  induction later generalizing covered with
  | nil => simp [tailOutranked] at outranked
  | cons row later ih =>
    unfold tailOutranked at outranked
    split_ifs at outranked with gap higher done
    · exact ⟨row,.head _,higher,by omega,by omega⟩
    · by_cases inRow : offset < row.endOffset
      · exact ⟨row,.head _,higher,by omega,inRow⟩
      · obtain ⟨winner,mem,holds⟩ := ih outranked (by omega)
        exact ⟨winner,mem_cons_of_mem row mem,holds⟩
    · obtain ⟨winner,mem,holds⟩ := ih outranked reached
      exact ⟨winner,mem_cons_of_mem row mem,holds⟩

/-- From a frontier the sweep serves what the remaining rows hold at or above it. -/
lemma mem_servedBy_sweep (sorted : rows.Pairwise sweepOrder) (coveredTo : Int)
    (frontierRank : Rank) (offset : Int) :
    offset ∈ servedBy (sweep rows coveredTo frontierRank) ↔
      coveredTo ≤ offset ∧ offset ∈ held rows := by
  induction rows generalizing coveredTo frontierRank with
  | nil => simp [sweep,servedBy,held]
  | cons row later ih =>
    obtain ⟨first,sortedLater⟩ := pairwise_cons.mp sorted
    have heldCons : offset ∈ held (row :: later) ↔
        (row.base ≤ offset ∧ offset < row.endOffset) ∨ offset ∈ held later := by
      simp only [mem_held,mem_cons,or_and_right,exists_or,exists_eq_left]
    unfold sweep
    split_ifs with covered dropped
    · rw [ih sortedLater,heldCons]
      constructor
      · exact fun ⟨above,holds⟩ => ⟨above,.inr holds⟩
      · rintro ⟨above,inRow | holds⟩
        · omega
        · exact ⟨above,holds⟩
    · rw [ih sortedLater,heldCons]
      constructor
      · exact fun ⟨above,holds⟩ => ⟨above,.inr holds⟩
      · rintro ⟨above,inRow | holds⟩
        -- A dropped tail is served all the same, by the rows that outrank it.
        · simp only [superseded,Bool.and_eq_true] at dropped
          obtain ⟨winner,mem,_,holds⟩ :=
            tailOutranked_covers dropped.2 above inRow.2
          exact ⟨above,mem_held.mpr ⟨winner,mem,holds⟩⟩
        · exact ⟨above,holds⟩
    · have servedCons : offset ∈ servedBy
            ({ seq := row.seq, servedFrom := servedFrom row coveredTo, entry := row.entry }
              :: sweep later row.endOffset row.rank) ↔
          (max coveredTo row.base ≤ offset ∧ offset < row.endOffset) ∨
            offset ∈ servedBy (sweep later row.endOffset row.rank) := by
        simp only [mem_servedBy,mem_cons,or_and_right,exists_or,exists_eq_left,servedFrom_eq_max]
        rfl
      rw [servedCons,ih sortedLater,heldCons]
      constructor
      · rintro (inRow | ⟨above,holds⟩)
        · exact ⟨by omega,.inl ⟨by omega,inRow.2⟩⟩
        · exact ⟨by omega,.inr holds⟩
      · rintro ⟨above,inRow | holds⟩
        · exact .inl ⟨by omega,inRow.2⟩
        · by_cases inRow : offset < row.endOffset
          · obtain ⟨holder,mem,base,_⟩ := mem_held.mp holds
            have ordered := (first holder mem).base_le
            exact .inl ⟨by omega,inRow⟩
          · exact .inr ⟨by omega,holds⟩

lemma sweep_ascends (rows : List RankedEntry) (coveredTo : Int) (frontierRank : Rank) :
    (∀ segment ∈ sweep rows coveredTo frontierRank, coveredTo ≤ segment.servedFrom) ∧
      (sweep rows coveredTo frontierRank).Pairwise
        (fun before after => before.endOffset ≤ after.servedFrom) := by
  induction rows generalizing coveredTo frontierRank with
  | nil => simp [sweep]
  | cons row later ih =>
    unfold sweep
    split_ifs with covered dropped
    · exact ih coveredTo frontierRank
    · exact ih coveredTo frontierRank
    · obtain ⟨lower,ascending⟩ := ih row.endOffset row.rank
      refine ⟨?_,pairwise_cons.mpr ⟨lower,ascending⟩⟩
      intro segment mem
      rcases mem_cons.mp mem with rfl | inLater
      · simp only [servedFrom_eq_max]
        omega
      · have above := lower segment inLater
        omega

lemma sweep_mem (mem : segment ∈ sweep rows coveredTo frontierRank) :
    ∃ row ∈ rows, segment.seq = row.seq ∧ segment.entry = row.entry ∧
      (0 < row.entry.recordCount → segment.servedFrom < segment.endOffset) := by
  induction rows generalizing coveredTo frontierRank with
  | nil => simp [sweep] at mem
  | cons row later ih =>
    unfold sweep at mem
    split_ifs at mem with covered dropped
    · obtain ⟨found,inLater,facts⟩ := ih mem
      exact ⟨found,mem_cons_of_mem row inLater,facts⟩
    · obtain ⟨found,inLater,facts⟩ := ih mem
      exact ⟨found,mem_cons_of_mem row inLater,facts⟩
    · rcases mem_cons.mp mem with rfl | inLater
      · refine ⟨row,.head _,rfl,rfl,fun pos => ?_⟩
        simp only [servedFrom_eq_max,FencedSegment.endOffset,RankedEntry.endOffset,
          RankedEntry.base,SubstreamEntry.endOffset] at covered ⊢
        omega
      · obtain ⟨found,inLater,facts⟩ := ih inLater
        exact ⟨found,mem_cons_of_mem row inLater,facts⟩

/-! ### The view -/

lemma held_insertionSort (rows : List RankedEntry) :
    held (rows.insertionSort sweepOrder) = held rows := by
  ext offset
  simp only [mem_held,mem_insertionSort]

lemma withFencedSegments_mem (mem : segment ∈ withFencedSegments rows) :
    ∃ row ∈ rows, segment.seq = row.seq ∧ segment.entry = row.entry ∧
      (0 < row.entry.recordCount → segment.servedFrom < segment.endOffset) := by
  obtain ⟨row,inRows,facts⟩ := sweep_mem mem
  exact ⟨row,(mem_insertionSort sweepOrder).mp inRows,facts⟩

lemma withFencedSegments_ascends (rows : List RankedEntry) : (withFencedSegments rows).Pairwise
      (fun before after => before.endOffset ≤ after.servedFrom) :=
  (sweep_ascends _ _ _).2

lemma sweep_bases_ascend (ordered : rows.Pairwise sweepOrder) (coveredTo : Int)
    (frontierRank : Rank) :
    (sweep rows coveredTo frontierRank).Pairwise
      (fun before after => before.entry.baseOffset ≤ after.entry.baseOffset) := by
  induction rows generalizing coveredTo frontierRank with
  | nil => exact List.Pairwise.nil
  | cons row later ih =>
    obtain ⟨first,laterOrdered⟩ := pairwise_cons.mp ordered
    unfold sweep
    split_ifs with covered dropped
    · exact ih laterOrdered _ _
    · exact ih laterOrdered _ _
    · apply pairwise_cons.mpr
      refine ⟨fun segment mem => ?_,ih laterOrdered _ _⟩
      obtain ⟨other,inLater,-,sameEntry,-⟩ := sweep_mem mem
      rw [sameEntry]
      rcases first other inLater with below | ⟨same,-⟩
      · exact le_of_lt below
      · exact le_of_eq same

lemma withFencedSegments_bases_ascend (rows : List RankedEntry) :
    (withFencedSegments rows).Pairwise
      (fun before after => before.entry.baseOffset ≤ after.entry.baseOffset) :=
  sweep_bases_ascend (insertionSort_sorted rows) _ _

/-- No offset is lost: base offsets are `i64`, so the sweep starts below them all. -/
lemma served_eq_held (typed : ∀ row ∈ rows, i64Min ≤ row.base) :
    servedBy (withFencedSegments rows) = held rows := by
  ext offset
  rw [withFencedSegments,mem_servedBy_sweep (insertionSort_sorted rows),held_insertionSort]
  constructor
  · exact fun ⟨_,holds⟩ => holds
  · intro holds
    obtain ⟨row,mem,base,_⟩ := mem_held.mp holds
    have lowest := typed row mem
    exact ⟨by omega,holds⟩

/-- The greatest end of the view is the greatest end of any row: the last offset of
the row that reaches furthest is served, and only a row as long can serve it. -/
lemma view_tail_eq_substreamTail (typed : ∀ row ∈ rows, i64Min ≤ row.base)
    (pos : ∀ row ∈ rows, 0 < row.entry.recordCount) :
    ((withFencedSegments rows).map FencedSegment.endOffset).max? = substreamTail rows := by
  unfold substreamTail
  cases tail : (rows.map RankedEntry.endOffset).max? with
  | none =>
    have empty : rows = [] := by simpa using tail
    subst empty
    rfl
  | some last =>
    obtain ⟨lastMem,greatest⟩ := max?_eq_some_iff.mp tail
    obtain ⟨row,mem,rfl⟩ := mem_map.mp lastMem
    have below : ∀ stop ∈ (withFencedSegments rows).map FencedSegment.endOffset,
        stop ≤ row.endOffset := by
      intro stop stopMem
      obtain ⟨segment,inView,rfl⟩ := mem_map.mp stopMem
      obtain ⟨source,inRows,_,same,_⟩ := withFencedSegments_mem inView
      have bound := greatest source.endOffset (mem_map_of_mem inRows)
      rwa [FencedSegment.endOffset,same]
    have count := pos row mem
    have lastHeld : row.endOffset - 1 ∈ held rows := by
      refine mem_held.mpr ⟨row,mem,?_,by omega⟩
      simp only [RankedEntry.base,RankedEntry.endOffset,SubstreamEntry.endOffset]
      omega
    rw [← served_eq_held typed] at lastHeld
    obtain ⟨segment,inView,_,reaches⟩ := mem_servedBy.mp lastHeld
    have inEnds := mem_map_of_mem (f := FencedSegment.endOffset) inView
    have exact_end : segment.endOffset = row.endOffset := by
      have := below _ inEnds
      omega
    exact max?_eq_some_iff.mpr ⟨exact_end ▸ inEnds,below⟩

/-- The view serves non-empty ranges, disjoint and ascending, whose union is what the
entries hold and whose last end is the sub-stream's tail.  Offsets and ends are taken as unbounded
integers, where the code has `i64`; only the bases are asked not to be below it. -/
theorem withFencedSegments_coverage (rows : List RankedEntry)
    (typed : ∀ row ∈ rows, i64Min ≤ row.base)
    (positive : ∀ row ∈ rows, 0 < row.entry.recordCount) :
    (∀ segment ∈ withFencedSegments rows, segment.servedFrom < segment.endOffset) ∧
      (withFencedSegments rows).Pairwise
        (fun before after => before.endOffset ≤ after.servedFrom) ∧
      servedBy (withFencedSegments rows) = held rows ∧
      ((withFencedSegments rows).map FencedSegment.endOffset).max? = substreamTail rows := by
  refine ⟨?_,withFencedSegments_ascends rows,served_eq_held typed,
    view_tail_eq_substreamTail typed positive⟩
  intro segment inView
  obtain ⟨row,member,_,_,nonempty⟩ := withFencedSegments_mem inView
  exact nonempty (positive row member)

def layoutRow (writerEpoch : Int) (seq : Nat) (baseOffset recordCount : Int) : RankedEntry :=
  { writerEpoch := writerEpoch
    seq := seq
    entry :=
      { topic := "orders"
        topicId := none
        partition := 0
        baseOffset := baseOffset
        recordCount := recordCount
        byteStart := 0
        byteLen := 0
        maxTimestamp := 0
        producers := [] } }

/-- A merge `[0, 10)`, a ghost original inside it, and a writer reaching past it. -/
theorem withFencedSegments_coverage_merge :
    servedBy (withFencedSegments
        [layoutRow 1 2 0 4, layoutRow 1 3 4 6, layoutRow 1 5 0 10, layoutRow 1 4 8 6]) =
      held [layoutRow 1 2 0 4, layoutRow 1 3 4 6, layoutRow 1 5 0 10, layoutRow 1 4 8 6] :=
  (withFencedSegments_coverage _ (by decide) (by decide)).2.2.1

end Kodansu.Index

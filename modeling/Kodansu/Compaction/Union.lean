/-
The union of the offset ranges of a run: one ascending list of intervals for each sub-stream that
neither overlap nor abut, whatever the order in which the ranges come.
-/

import Kodansu.Compaction.Run

namespace Kodansu.Compaction

open Index Lib Segment List OrderedMap

def covered (spans : List (Int × Int)) : Set Int :=
  {offset | ∃ span ∈ spans, span.1 ≤ offset ∧ offset < span.2}

/-- Ascending intervals that neither overlap nor abut. -/
structure Normal (spans : List (Int × Int)) : Prop where
  proper : ∀ span ∈ spans, span.1 < span.2
  ascending : spans.Pairwise (fun earlier later => earlier.2 < later.1)

/-- A stretch between covered offsets that is not covered. -/
def IsGap (set : Set Int) (gap : Int × Int) : Prop :=
  gap.1 < gap.2 ∧ gap.1 - 1 ∈ set ∧ gap.2 ∈ set ∧ ∀ offset, gap.1 ≤ offset → offset < gap.2 → offset ∉ set

section

variable {spans : List (Int × Int)} {span interval other : Int × Int} {offset : Int}

lemma mem_covered_cons : offset ∈ covered (span :: spans) ↔
    span.1 ≤ offset ∧ offset < span.2 ∨ offset ∈ covered spans :=
  exists_mem_cons_iff _ _ _

lemma normal_cons : Normal (span :: spans) ↔
    span.1 < span.2 ∧ (∀ later ∈ spans, span.2 < later.1) ∧ Normal spans := by
  constructor
  · rintro ⟨proper,ascending⟩
    obtain ⟨below,rest⟩ := pairwise_cons.mp ascending
    exact ⟨proper span (.head _),below,fun other mem =>
      proper other (.tail _ mem),rest⟩
  · rintro ⟨proper,below,rest⟩
    exact ⟨forall_mem_cons.mpr ⟨proper,rest.proper⟩,pairwise_cons.mpr ⟨below,rest.ascending⟩⟩

structure Absorbed (spans : List (Int × Int)) (interval : Int × Int) (kept : List (Int × Int))
    (widened : Int × Int) : Prop where
  fewer : kept.Sublist spans
  wider : widened.1 ≤ interval.1 ∧ interval.2 ≤ widened.2
  covers : ∀ offset, offset ∈ covered (widened :: kept) ↔ offset ∈ covered (interval :: spans)
  apart : ∀ held ∈ kept, held.2 < widened.1 ∨ widened.2 < held.1

/-- What lies between a kept interval and the inserted one is not covered, so the widened one
does not reach the kept one either. -/
lemma absorb_absorbed (normal : Normal spans) (interval : Int × Int)
    (proper : interval.1 < interval.2) :
    Absorbed spans interval (absorb spans interval).1 (absorb spans interval).2 := by
  induction spans generalizing interval with
  | nil => exact ⟨.refl _,⟨le_refl _,le_refl _⟩,fun _ => .rfl,nofun⟩
  | cons held rest ih =>
    obtain ⟨isProper,below,restNormal⟩ := normal_cons.mp normal
    unfold absorb
    split
    · rename_i touches
      obtain ⟨fewer,wider,covers,apart⟩ :=
        ih restNormal (min interval.1 held.1, max interval.2 held.2) (by grind)
      refine ⟨fewer.cons _,by grind,?_,apart⟩
      intro offset
      rw [covers,mem_covered_cons,mem_covered_cons,mem_covered_cons,← or_assoc]
      apply or_congr_left
      grind
    · rename_i distant
      obtain ⟨fewer,wider,covers,apart⟩ := ih restNormal interval proper
      refine ⟨fewer.cons_cons _,wider,?_,forall_mem_cons.mpr ⟨?_,apart⟩⟩
      · intro offset
        have rest := covers offset
        rw [mem_covered_cons,mem_covered_cons] at rest ⊢
        rw [mem_covered_cons,mem_covered_cons,or_left_comm,rest]
        exact or_left_comm
      · have free : ∀ offset, offset ≤ held.2 → offset ∉ covered rest := by
          rintro offset before ⟨later,mem,inside⟩
          have := below later mem
          omega
        have atStop := covers interval.2
        have atHeld := covers held.2
        rw [mem_covered_cons,mem_covered_cons] at atStop atHeld
        have := free interval.2
        have := free held.2
        grind

lemma mem_placed {kept : List (Int × Int)} (before : Int × Int → Bool) :
    other ∈ kept.takeWhile before ++ span :: kept.dropWhile before ↔ other = span ∨ other ∈ kept := by
  rw [perm_middle.mem_iff,mem_cons,takeWhile_append_dropWhile]

lemma placed_normal (normal : Normal spans) (proper : span.1 < span.2)
    (apart : ∀ held ∈ spans, held.2 < span.1 ∨ span.2 < held.1) :
    Normal (spans.takeWhile (fun held => held.1 < span.1) ++
      span :: spans.dropWhile (fun held => held.1 < span.1)) := by
  induction spans with
  | nil => exact normal_cons.mpr ⟨proper,nofun,normal⟩
  | cons held rest ih =>
    obtain ⟨isProper,below,restNormal⟩ := normal_cons.mp normal
    obtain ⟨heldApart,restApart⟩ := forall_mem_cons.mp apart
    rw [takeWhile_cons,dropWhile_cons]
    by_cases before : held.1 < span.1
    · simp only [before,decide_true,if_true,cons_append]
      refine normal_cons.mpr ⟨isProper,?_,ih restNormal restApart⟩
      intro later mem
      cases (mem_placed _).mp mem with
      | inl same =>
        rw [same]
        omega
      | inr isLater => exact below later isLater
    · simp only [before,decide_false]
      refine normal_cons.mpr ⟨proper,forall_mem_cons.mpr ⟨by omega,?_⟩,normal⟩
      intro later isLater
      have := below later isLater
      omega

lemma insertInterval_normal (normal : Normal spans) (proper : interval.1 < interval.2) :
    Normal (insertInterval spans interval) ∧
      covered (insertInterval spans interval) = covered (interval :: spans) := by
  obtain ⟨fewer,wider,covers,apart⟩ := absorb_absorbed normal interval proper
  constructor
  · apply placed_normal _ (by omega) apart
    exact ⟨fun held mem => normal.proper held (fewer.subset mem),normal.ascending.sublist fewer⟩
  · ext offset
    rw [← covers]
    simp only [covered,Set.mem_ofPred_eq,insertInterval,mem_placed,mem_cons]

namespace Normal

lemma above_stop (normal : Normal (span :: spans)) (offset : Int) (later : offset ∈ covered spans) :
    span.2 < offset := by
  obtain ⟨other,mem,inside⟩ := later
  have := (normal_cons.mp normal).2.1 other mem
  omega

lemma start_covered (normal : Normal (span :: spans)) : span.1 ∈ covered (span :: spans) :=
  mem_covered_cons.mpr (.inl ⟨le_refl _,(normal_cons.mp normal).1⟩)

lemma least (normal : Normal (span :: spans)) (offset : Int) (inside : offset ∈ covered (span :: spans)) :
    span.1 ≤ offset := by
  have := normal.above_stop offset
  have := (normal_cons.mp normal).1
  rw [mem_covered_cons] at inside
  grind

variable {others : List (Int × Int)} {gap : Int × Int}

/-- Both lists start at the least covered offset and stop first at the least that is free. -/
lemma unique (left : Normal spans) (right : Normal others)
    (same : ∀ offset, offset ∈ covered spans ↔ offset ∈ covered others) : spans = others := by
  induction spans generalizing others with
  | nil =>
    cases others with
    | nil => rfl
    | cons other more => exact absurd ((same _).mpr right.start_covered) nofun
  | cons span rest ih =>
    cases others with
    | nil => exact absurd ((same _).mp left.start_covered) nofun
    | cons other more =>
      obtain ⟨leftProper,-,leftRest⟩ := normal_cons.mp left
      obtain ⟨rightProper,-,rightRest⟩ := normal_cons.mp right
      have leftLater := left.above_stop
      have rightLater := right.above_stop
      simp only [mem_covered_cons] at same
      have atStop := same span.2
      have atOther := same other.2
      have starts : span.1 = other.1 := by grind only
      have stops : span.2 = other.2 := by grind
      rw [ih leftRest rightRest (by grind),Prod.ext starts stops]

lemma gap_iff (normal : Normal spans) :
    gap ∈ (spans.zip (spans.drop 1)).map (fun (before, after) => (before.2, after.1)) ↔
      IsGap (covered spans) gap := by
  have none : ∀ offset, offset ∉ covered [] := nofun
  induction spans with
  | nil => exact iff_of_false nofun (fun gap => none _ gap.2.1)
  | cons first rest ih =>
    obtain ⟨proper,below,restNormal⟩ := normal_cons.mp normal
    have above := normal.above_stop
    cases rest with
    | nil =>
      apply iff_of_false nofun
      rintro ⟨isProper,before,after,free⟩
      have := free gap.1
      simp only [mem_covered_cons] at *
      grind
    | cons second rest =>
      have start := restNormal.start_covered
      have least := restNormal.least
      have split : gap ∈ (first.2, second.1) :: ((second :: rest).zip rest).map
          (fun (before, after) => (before.2, after.1)) ↔
          gap = (first.2, second.1) ∨ IsGap (covered (second :: rest)) gap :=
        mem_cons.trans (or_congr_right (ih restNormal))
      refine split.trans ⟨?_,?_⟩
      · rintro (rfl | gap)
        · have := above _ start
          unfold IsGap
          simp only [@mem_covered_cons _ first]
          grind
        · unfold IsGap at *
          simp only [@mem_covered_cons _ first]
          grind
      · rintro ⟨isProper,before,after,free⟩
        have := free gap.1
        have := free second.1
        unfold IsGap
        simp only [@mem_covered_cons _ first] at *
        grind

lemma ordConnected_iff (normal : Normal spans) :
    (covered spans).OrdConnected ↔ spans.length ≤ 1 := by
  match spans with
  | [] => simp [covered,Set.ordConnected_empty]
  | [only] =>
    apply iff_of_true _ (le_refl 1)
    have is : covered [only] = Set.Ico only.1 only.2 := by
      ext offset
      simp [covered]
    exact is ▸ Set.ordConnected_Ico
  | first :: second :: rest =>
    apply iff_of_false _ (by simp)
    intro connected
    obtain ⟨proper,-,restNormal⟩ := normal_cons.mp normal
    have start := restNormal.start_covered
    have above := normal.above_stop
    have between := connected.out normal.start_covered (mem_covered_cons.mpr (.inr start))
      ⟨le_of_lt proper,le_of_lt (above _ start)⟩
    cases mem_covered_cons.mp between with
    | inl inside => exact lt_irrefl _ inside.2
    | inr later => exact lt_irrefl _ (above _ later)

end Normal

end

def RunUnion.of (inserts : List (SubstreamKey × Int × Int)) : RunUnion :=
  inserts.foldl (fun union (key, start, stop) => union.insert key start stop) {}

def RunUnion.spansAt (union : RunUnion) (key : SubstreamKey) : List (Int × Int) :=
  (union.spans.get? (toLex key)).getD []

def insertedAt (inserts : List (SubstreamKey × Int × Int)) (key : SubstreamKey) : Set Int :=
  {offset | ∃ insert ∈ inserts, insert.1 = key ∧ insert.2.1 ≤ offset ∧ offset < insert.2.2}

namespace RunUnion

structure Holds (union : RunUnion) (inserts : List (SubstreamKey × Int × Int)) : Prop where
  normal : ∀ key, Normal (union.spansAt key)
  covers : ∀ key offset, offset ∈ covered (union.spansAt key) ↔ offset ∈ insertedAt inserts key

variable {union : RunUnion} {inserts : List (SubstreamKey × Int × Int)} {key : SubstreamKey}
  {gap : Int × Int}

lemma Holds.insert (holds : union.Holds inserts) (key : SubstreamKey) (start stop : Int) :
    (union.insert key start stop).Holds (inserts ++ [(key, start, stop)]) := by
  have also : ∀ other offset, offset ∈ insertedAt (inserts ++ [(key, start, stop)]) other ↔
      offset ∈ insertedAt inserts other ∨ key = other ∧ start ≤ offset ∧ offset < stop := by
    intro other offset
    simp [insertedAt,or_and_right,exists_or]
  unfold RunUnion.insert
  split
  · refine ⟨holds.normal,?_⟩
    intro other offset
    rw [holds.covers,also]
    grind
  · rename_i proper
    obtain ⟨normal,covers⟩ := insertInterval_normal (holds.normal key)
      (show ((start, stop) : Int × Int).1 < stop from not_le.mp proper)
    have spans : ∀ other, (⟨union.spans.upsert (toLex key) (fun held =>
        insertInterval (held.getD []) (start, stop))⟩ : RunUnion).spansAt other =
        if other = key then insertInterval (union.spansAt key) (start, stop)
        else union.spansAt other := by
      intro other
      unfold spansAt
      rw [get?_upsert]
      simp only [EmbeddingLike.apply_eq_iff_eq]
      split <;> rfl
    constructor
    · intro other
      rw [spans]
      split
      · exact normal
      · exact holds.normal other
    · intro other offset
      rw [spans,also,← holds.covers]
      split
      · next same =>
        rw [covers,mem_covered_cons,same]
        grind
      · grind

lemma of_holds (inserts : List (SubstreamKey × Int × Int)) : (RunUnion.of inserts).Holds inserts := by
  induction inserts using List.reverseRecOn with
  | nil => exact ⟨fun _ => ⟨nofun,.nil⟩,fun _ _ => iff_of_false nofun nofun⟩
  | append_singleton inserts last ih =>
    unfold RunUnion.of
    rw [foldl_append]
    exact ih.insert last.1 last.2.1 last.2.2

lemma isConnected_iff : union.isConnected = true ↔ ∀ key, (union.spansAt key).length ≤ 1 := by
  unfold isConnected spansAt
  rw [all_eq_true]
  constructor
  · intro all key
    cases found : union.spans.get? (toLex key) with
    | none => exact Nat.zero_le 1
    | some spans => simpa using all _ (mem_entries.mpr found)
  · intro short entry mem
    have := short (ofLex entry.1)
    rw [toLex_ofLex,mem_entries.mp mem] at this
    exact decide_eq_true this

lemma mem_gaps :
    (∃ gaps, (key, gaps) ∈ union.gaps ∧ gap ∈ gaps) ↔
      gap ∈ ((union.spansAt key).zip ((union.spansAt key).drop 1)).map
        (fun (before, after) => (before.2, after.1)) := by
  unfold gaps spansAt
  constructor
  · rintro ⟨gaps,listed,inside⟩
    obtain ⟨⟨other,spans⟩,held,same⟩ := mem_map.mp listed
    cases same
    rw [toLex_ofLex,mem_entries.mp (mem_filter.mp held).1]
    exact inside
  · intro inside
    cases found : union.spans.get? (toLex key) with
    | none =>
      rw [found] at inside
      cases inside
    | some spans =>
      rw [found] at inside
      refine ⟨_,mem_map.mpr ⟨(toLex key, spans),mem_filter.mpr ⟨mem_entries.mpr found,?_⟩,rfl⟩,
        inside⟩
      match spans with
      | [] | [_] => cases inside
      | _ :: _ :: _ => exact decide_eq_true (by simp)

/-- However the intervals are inserted, each sub-stream holds the maximal intervals of their
union, in ascending order, and the questions asked of them are answered for that union. -/
theorem normal_form (inserts : List (SubstreamKey × Int × Int)) :
    (∀ key, Normal ((RunUnion.of inserts).spansAt key) ∧
      covered ((RunUnion.of inserts).spansAt key) = insertedAt inserts key) ∧
    (∀ others, insertedAt others = insertedAt inserts →
      (RunUnion.of others).spansAt = (RunUnion.of inserts).spansAt) ∧
    ((RunUnion.of inserts).isConnected = true ↔ ∀ key, (insertedAt inserts key).OrdConnected) ∧
    ∀ key gap, (∃ gaps, (key, gaps) ∈ (RunUnion.of inserts).gaps ∧ gap ∈ gaps) ↔
      IsGap (insertedAt inserts key) gap := by
  have holds := of_holds inserts
  have covers : ∀ key, covered ((RunUnion.of inserts).spansAt key) = insertedAt inserts key :=
    fun key => Set.ext (holds.covers key)
  refine ⟨fun key => ⟨holds.normal key,covers key⟩,?_,?_,?_⟩
  · intro others same
    have otherHolds := of_holds others
    funext key
    apply (otherHolds.normal key).unique (holds.normal key)
    intro offset
    rw [otherHolds.covers,holds.covers,same]
  · simp only [isConnected_iff,← covers,(holds.normal _).ordConnected_iff]
  · intro key gap
    rw [← covers,← (holds.normal key).gap_iff]
    exact mem_gaps

end RunUnion

end Kodansu.Compaction

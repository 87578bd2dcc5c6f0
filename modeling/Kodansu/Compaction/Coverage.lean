/-
What a merge checks of the segments it would take: that nothing outside the run serves the
offsets between its regions, that no two batches compete for an offset, and that the ranges of
each sub-stream make one interval.
-/

import Kodansu.Compaction.Run

namespace Kodansu.Compaction

open Index Lib Segment List

/-! ### Gaps between regions -/

inductive TilingBreak
  | outsideRun
  | belowLogStart
  | compactedTopic
  | straddle
  | missing
deriving DecidableEq

/-- Classify the break where a run expects an offset and its next region starts elsewhere. -/
def TilingBreak.of (expected regionBase : Int) (outside : List (Int × Int)) (logStart : Int)
    (compacted : Bool) : TilingBreak :=
  if regionBase < expected then .straddle
  else
    match highestUnserved (expected, regionBase) outside with
    | none => .outsideRun
    | some offset =>
      if offset < logStart then .belowLogStart
      else if compacted then .compactedTopic
      else .missing

def unserved (start stop : Int) (spans : List (Int × Int)) : Set Int :=
  {offset | start ≤ offset ∧ offset < stop ∧ ∀ span ∈ spans, offset < span.1 ∨ span.2 ≤ offset}

def Highest (set : Set Int) : Option Int → Prop
  | none => ∀ offset, offset ∉ set
  | some offset => IsGreatest set offset

section

variable {stop : Int} {spans : List (Int × Int)}

lemma scanUnserved_or (cursor : Int) (highest : Option Int) :
    scanUnserved stop spans cursor highest = (scanUnserved stop spans cursor none).or highest := by
  induction spans generalizing cursor highest with
  | nil =>
    unfold scanUnserved
    split <;> simp
  | cons span rest ih =>
    unfold scanUnserved
    rw [ih,ih _ (if span.1 > cursor then _ else none)]
    split
    · rfl
    · split <;> simp

/-- Above the cursor nothing is recorded yet.  An offset that the cursor passes over and that no
span serves lies below the next span. -/
lemma scanUnserved_highest (sorted : spans.Pairwise (fun earlier later => earlier.1 ≤ later.1))
    (cursor : Int) : Highest (unserved cursor stop spans) (scanUnserved stop spans cursor none) := by
  induction spans generalizing cursor with
  | nil =>
    unfold scanUnserved
    split
    · refine ⟨⟨by omega,by omega,nofun⟩,?_⟩
      intro offset inside
      exact Int.le_sub_one_of_lt inside.2.1
    · intro offset inside
      have := inside.1.trans_lt inside.2.1
      contradiction
  | cons span rest ih =>
    obtain ⟨first,restSorted⟩ := pairwise_cons.mp sorted
    unfold scanUnserved
    split
    · intro offset inside
      have := inside.1.trans_lt inside.2.1
      omega
    rw [scanUnserved_or]
    have onward : ∀ offset ∈ unserved cursor stop (span :: rest), max cursor span.2 ≤ offset →
        offset ∈ unserved (max cursor span.2) stop rest := fun offset inside above =>
      ⟨above,inside.2.1,(forall_mem_cons.mp inside.2.2).2⟩
    have later := ih restSorted (max cursor span.2)
    cases found : scanUnserved stop rest (max cursor span.2) none with
    | some highest =>
      rw [found] at later
      obtain ⟨⟨above,below,free⟩,greatest⟩ := later
      refine ⟨⟨by omega,below,forall_mem_cons.mpr ⟨by omega,free⟩⟩,?_⟩
      intro offset inside
      by_cases passed : max cursor span.2 ≤ offset
      · exact greatest (onward offset inside passed)
      · omega
    | none =>
      rw [found] at later
      have before : ∀ offset ∈ unserved cursor stop (span :: rest), offset < span.1 := by
        intro offset inside
        have passed := mt (onward offset inside) (later offset)
        have := inside.1
        have := (forall_mem_cons.mp inside.2.2).1
        omega
      dsimp only [Option.or]
      split
      · refine ⟨⟨by omega,by omega,forall_mem_cons.mpr ⟨by omega,?_⟩⟩,?_⟩
        · intro other mem
          have := first other mem
          omega
        · intro offset inside
          have := before offset inside
          have := inside.2.1
          omega
      · intro offset inside
        have := before offset inside
        have := inside.1
        omega

end

lemma highestUnserved_highest (start stop : Int) (spans : List (Int × Int)) :
    Highest (unserved start stop spans) (highestUnserved (start, stop) spans) := by
  have sorted := pairwise_insertionSort (fun left right : Int × Int => toLex left ≤ toLex right) spans
  have same : unserved start stop spans = unserved start stop
      (spans.insertionSort (fun left right => toLex left ≤ toLex right)) := by
    simp only [unserved,mem_insertionSort]
  rw [same]
  apply scanUnserved_highest
  apply sorted.imp
  intro left right below
  exact Prod.Lex.monotone_fst _ _ below

/-- The sweep answers with the greatest offset of the gap that no span serves, and a break counts
as missing exactly if such an offset lies at or above the log start. -/
theorem highestUnserved_exact (expected regionBase logStart : Int) (spans : List (Int × Int)) :
    (∀ offset, highestUnserved (expected, regionBase) spans = some offset ↔
      IsGreatest (unserved expected regionBase spans) offset) ∧
    (highestUnserved (expected, regionBase) spans = none ↔
      unserved expected regionBase spans = ∅) ∧
    (TilingBreak.of expected regionBase spans logStart false = .missing ↔
      ∃ offset ∈ unserved expected regionBase spans, logStart ≤ offset) := by
  have highest := highestUnserved_highest expected regionBase spans
  cases found : highestUnserved (expected, regionBase) spans with
  | none =>
    rw [found] at highest
    refine ⟨fun offset => ⟨nofun,fun isGreatest => absurd isGreatest.1 (highest offset)⟩,
      iff_of_true rfl (Set.eq_empty_of_forall_notMem highest),iff_of_false ?_ ?_⟩
    · unfold TilingBreak.of
      rw [found]
      split <;> nofun
    · rintro ⟨offset,inside,_⟩
      exact highest offset inside
  | some greatest =>
    rw [found] at highest
    have inGap := highest.1.1.trans_lt highest.1.2.1
    refine ⟨fun offset => ⟨?_,fun other => congrArg some (highest.unique other)⟩,
      iff_of_false nofun (fun none => ?_),?_⟩
    · rintro ⟨⟩
      exact highest
    · exact Set.notMem_empty greatest (none ▸ highest.1)
    · unfold TilingBreak.of
      rw [found,if_neg inGap.not_gt]
      by_cases low : greatest < logStart
      · apply iff_of_false
        · simp [low]
        · rintro ⟨offset,inside,above⟩
          exact absurd (highest.2 inside) (by omega)
      · exact iff_of_true (by simp [low]) ⟨greatest,highest.1,not_lt.mp low⟩

/-! ### The coverage of a run -/

/-- Offer a segment to a coverage that comes with the entries it has accepted. -/
def RunCoverage.offer (run : RunCoverage × List SubstreamEntry) (entries : List SubstreamEntry) :
    RunCoverage × List SubstreamEntry :=
  match run.1.extend entries with
  | some extended => (extended, run.2 ++ entries)
  | none => run

def RunCoverage.of (segments : List (List SubstreamEntry)) : RunCoverage × List SubstreamEntry :=
  segments.foldl RunCoverage.offer ({}, [])

/-- Each sub-stream of the segment has one region, and it is not empty. -/
def OneRegion (entries : List SubstreamEntry) : Prop :=
  (∀ entry ∈ entries, 0 < entry.recordCount) ∧ (entries.map SubstreamEntry.key).Nodup

def within (base stop offset : Int) : Nat := if base ≤ offset ∧ offset < stop then 1 else 0

/-- How many entries hold an offset of a sub-stream. -/
def holders (entries : List SubstreamEntry) (key : SubstreamKey) (offset : Int) : Nat :=
  entries.countP (fun entry => entry.key = key ∧ entry.baseOffset ≤ offset ∧ offset < entry.endOffset)

/-- What is held is one interval, each offset of it once. -/
def Tiling (held : Int → Nat) : Prop := ∃ base stop, held = within base stop

def Recorded (held : Int → Nat) : Option OffsetSpan → Prop
  | none => ∀ offset, held offset = 0
  | some span => held = within span.base span.endOffset ∧ span.base < span.endOffset ∧
      span.isContiguous = true

section

variable {coverage : RunCoverage} {held entries : List SubstreamEntry} {start stop base top : Int}
  {entry : SubstreamEntry}

lemma within_tile (left : start < stop) (right : base < top) :
    Tiling (fun offset => within start stop offset + within base top offset) ↔
      top = start ∨ stop = base := by
  constructor
  · rintro ⟨low,high,same⟩
    have at_ := fun offset => congrFun same offset
    have := at_ start
    have := at_ (stop - 1)
    have := at_ base
    have := at_ (top - 1)
    have := at_ stop
    have := at_ top
    unfold within at *
    grind
  · intro abut
    refine ⟨min start base,max stop top,funext fun offset => ?_⟩
    unfold within
    grind

lemma Recorded.tiling {held : Int → Nat} {span : Option OffsetSpan} (recorded : Recorded held span) :
    Tiling held := by
  cases span with
  | none => exact ⟨0,0,funext fun offset => by rw [recorded offset,within,if_neg (by omega)]⟩
  | some span => exact ⟨_,_,recorded.1⟩

lemma Recorded.extend {held : Int → Nat}
    (recorded : Recorded held (coverage.spans.get? (toLex entry.key)))
    (proper : 0 < entry.recordCount) :
    ((coverage.spanWith entry).isContiguous = true ↔
      Tiling (fun offset => held offset + within entry.baseOffset entry.endOffset offset)) ∧
    ((coverage.spanWith entry).isContiguous = true →
      Recorded (fun offset => held offset + within entry.baseOffset entry.endOffset offset)
        (some (coverage.spanWith entry))) := by
  have ends : entry.endOffset = entry.baseOffset + entry.recordCount := rfl
  unfold RunCoverage.spanWith
  cases found : coverage.spans.get? (toLex entry.key) with
  | none =>
    rw [found] at recorded
    have same : (fun offset => held offset + within entry.baseOffset entry.endOffset offset) =
        within entry.baseOffset entry.endOffset := funext fun offset => by rw [recorded,Nat.zero_add]
    rw [same]
    simp only [Recorded,OffsetSpan.isContiguous,decide_eq_true_eq]
    exact ⟨iff_of_true (by omega) ⟨_,_,rfl⟩,fun _ => ⟨trivial,by omega,by omega⟩⟩
  | some span =>
    rw [found] at recorded
    obtain ⟨rfl,isProper,contiguous⟩ := recorded
    rw [within_tile isProper (by omega)]
    simp only [Recorded,OffsetSpan.isContiguous,decide_eq_true_eq] at contiguous ⊢
    refine ⟨by omega,fun joined => ⟨funext fun offset => ?_,by omega,joined⟩⟩
    unfold within
    grind

/-- With one region for each sub-stream, the last span inserted for it is its only one. -/
lemma fold_cases (nodup : (entries.map SubstreamEntry.key).Nodup) (span : SubstreamEntry → OffsetSpan)
    (spans : OrderedMap (Substream ×ₗ Int) OffsetSpan) (key : SubstreamKey) :
    (∃ entry ∈ entries, entry.key = key ∧
      holders entries key = within entry.baseOffset entry.endOffset ∧
      ((entries.map (fun entry => (entry.key, span entry))).foldl
        (fun spans (key, span) => spans.insert (toLex key) span) spans).get? (toLex key) =
          some (span entry)) ∨
    (∀ entry ∈ entries, entry.key ≠ key) ∧ holders entries key = (fun _ => 0) ∧
      ((entries.map (fun entry => (entry.key, span entry))).foldl
        (fun spans (key, span) => spans.insert (toLex key) span) spans).get? (toLex key) =
          spans.get? (toLex key) := by
  induction entries generalizing spans with
  | nil => exact .inr ⟨nofun,rfl,rfl⟩
  | cons first rest ih =>
    obtain ⟨fresh,restNodup⟩ := nodup_cons.mp nodup
    have counts : ∀ offset, holders (first :: rest) key offset = holders rest key offset +
        if first.key = key then within first.baseOffset first.endOffset offset else 0 := by
      intro offset
      unfold holders within
      rw [countP_cons]
      grind
    rcases ih restNodup (spans.insert (toLex first.key) (span first)) with
      ⟨entry,mem,isKey,holds,found⟩ | ⟨none,holds,found⟩
    · refine .inl ⟨entry,.tail _ mem,isKey,?_,found⟩
      have differs : first.key ≠ key := fun same =>
        fresh (same.trans isKey.symm ▸ mem_map_of_mem mem)
      funext offset
      rw [counts,holds,if_neg differs,Nat.add_zero]
    · by_cases same : first.key = key
      · refine .inl ⟨first,.head _,same,?_,?_⟩
        · funext offset
          rw [counts,holds,if_pos same,Nat.zero_add]
        · rw [map_cons,foldl_cons,found,same,OrderedMap.get?_insert_self]
      · refine .inr ⟨forall_mem_cons.mpr ⟨same,none⟩,?_,?_⟩
        · funext offset
          rw [counts,holds,if_neg same]
        · rw [map_cons,foldl_cons,found,OrderedMap.get?_insert_ne]
          exact fun equal => same (toLex.injective equal).symm

/-- Each entry is judged on its own against what is held. -/
lemma extend_exact (recorded : ∀ key, Recorded (holders held key) (coverage.spans.get? (toLex key)))
    (oneRegion : OneRegion entries) :
    ((coverage.extend entries).isSome = true ↔ ∀ key, Tiling (holders (held ++ entries) key)) ∧
      ∀ extended, coverage.extend entries = some extended →
        ∀ key, Recorded (holders (held ++ entries) key) (extended.spans.get? (toLex key)) := by
  have both : ∀ key, holders (held ++ entries) key =
      fun offset => holders held key offset + holders entries key offset :=
    fun _ => funext fun _ => countP_append
  have cases := fold_cases oneRegion.2 coverage.spanWith coverage.spans
  have step := fun entry mem => (recorded entry.key).extend (oneRegion.1 entry mem)
  have accepts : (entries.map (fun entry => (entry.key, coverage.spanWith entry))).all
      (fun (_, span) => span.isContiguous) = true ↔ ∀ key, Tiling (holders (held ++ entries) key) := by
    rw [all_map,all_eq_true]
    constructor
    · intro all key
      rw [both]
      rcases cases key with ⟨entry,mem,rfl,holds,-⟩ | ⟨-,holds,-⟩
      · rw [holds]
        exact (step entry mem).1.mp (all entry mem)
      · rw [holds]
        exact (recorded key).tiling
    · intro tiles entry mem
      have tiling := tiles entry.key
      rw [both] at tiling
      rcases cases entry.key with ⟨other,isOther,same,holds,-⟩ | ⟨none,-,-⟩
      · rw [holds,inj_on_of_nodup_map oneRegion.2 isOther mem same] at tiling
        exact (step entry mem).1.mpr tiling
      · exact absurd rfl (none entry mem)
  unfold RunCoverage.extend
  dsimp only
  split
  · rename_i all
    refine ⟨iff_of_true rfl (accepts.mp all),?_⟩
    rintro extended ⟨⟩ key
    rw [both]
    rcases cases key with ⟨entry,mem,rfl,holds,found⟩ | ⟨-,holds,found⟩
    · rw [found,holds]
      exact (step entry mem).2 (all_eq_true.mp all _ (mem_map_of_mem mem))
    · rw [found,holds]
      exact recorded key
  · rename_i refused
    exact ⟨iff_of_false nofun (mt accepts.mpr refused),nofun⟩

end

/-- After any segments, each with one region of a sub-stream, a further one is accepted exactly if
what is held of each sub-stream is still one interval, each offset once.  The recorded spans are
these intervals.  Offsets and ends are taken as unbounded integers, where the code has `i64`. -/
theorem coverage_exact (segments : List (List SubstreamEntry))
    (oneRegion : ∀ entries ∈ segments, OneRegion entries) :
    (∀ entries, OneRegion entries →
      (((RunCoverage.of segments).1.extend entries).isSome = true ↔
        ∀ key, Tiling (holders ((RunCoverage.of segments).2 ++ entries) key))) ∧
    (∀ entries, (RunCoverage.of segments).1.extend entries = none →
      RunCoverage.of (segments ++ [entries]) = RunCoverage.of segments) ∧
    ∀ key, Recorded (holders (RunCoverage.of segments).2 key)
      ((RunCoverage.of segments).1.spans.get? (toLex key)) := by
  have recorded : ∀ key, Recorded (holders (RunCoverage.of segments).2 key)
      ((RunCoverage.of segments).1.spans.get? (toLex key)) := by
    unfold RunCoverage.of
    refine List.foldlRecOn (motive := fun run : RunCoverage × List SubstreamEntry => ∀ key,
      Recorded (holders run.2 key) (run.1.spans.get? (toLex key))) _ _ (fun _ _ => rfl) ?_
    intro run before entries mem
    unfold RunCoverage.offer
    split
    · rename_i extended accepted
      exact (extend_exact before (oneRegion entries mem)).2 extended accepted
    · exact before
  refine ⟨fun entries one => (extend_exact recorded one).1,?_,recorded⟩
  intro entries refused
  unfold RunCoverage.of at refused ⊢
  rw [foldl_append,foldl_cons,RunCoverage.offer,refused]
  rfl

def regionAt (base count : Int) : SubstreamEntry :=
  { topic := "t", topicId := none, partition := 0, baseOffset := base, recordCount := count
    byteStart := 0, byteLen := 0, maxTimestamp := 0, producers := [] }

theorem coverage_exact_two : Recorded
    (holders (RunCoverage.of [[regionAt 0 5],[regionAt 5 3]]).2 (.name "t", 0))
    ((RunCoverage.of [[regionAt 0 5],[regionAt 5 3]]).1.spans.get? (toLex (.name "t", 0))) := by
  apply (coverage_exact _ _).2.2
  simp [OneRegion,regionAt]

/-- Two regions of one sub-stream are not judged against each other: a gap between them is
accepted, and only the later one is recorded. -/
theorem gap_accepted :
    (RunCoverage.extend {} [regionAt 0 5,regionAt 9 5]).map (fun coverage =>
      coverage.spans.get? (toLex (.name "t", 0))) = some (some ⟨9,14,5⟩) ∧
    ¬ Tiling (holders [regionAt 0 5,regionAt 9 5] (.name "t", 0)) := by
  refine ⟨by decide,?_⟩
  rintro ⟨base,stop,same⟩
  have first : 1 = within base stop 0 := congrFun same 0
  have between : 0 = within base stop 7 := congrFun same 7
  have last : 1 = within base stop 9 := congrFun same 9
  unfold within at *
  grind

/-! ### Batches that compete for an offset -/

structure BatchSpan where
  start : Int
  stop : Int
  seq : Nat
  crc : Int
deriving DecidableEq

def divergenceFrom : List BatchSpan → Option BatchSpan → Option (BatchSpan × BatchSpan)
  | [], _ => none
  | span :: rest, none => divergenceFrom rest (some span)
  | span :: rest, some held =>
    if span.start < held.stop then
      if (span.start, span.stop, span.crc) ≠ (held.start, held.stop, held.crc) then
        some (held, span)
      else divergenceFrom rest (some held)
    else divergenceFrom rest (some (if span.stop > held.stop then span else held))

/-- The first two batches that claim overlapping offsets without being the same batch. -/
def firstDivergence (spans : List BatchSpan) : Option (BatchSpan × BatchSpan) :=
  divergenceFrom (spans.insertionSort (fun left right =>
    toLex (left.start, toLex (left.stop, left.seq)) ≤
      toLex (right.start, toLex (right.stop, right.seq)))) none

def Meet (left right : BatchSpan) : Prop := left.start < right.stop ∧ right.start < left.stop

def Copies (left right : BatchSpan) : Prop :=
  left.start = right.start ∧ left.stop = right.stop ∧ left.crc = right.crc

def Agree (left right : BatchSpan) : Prop := Meet left right → Copies left right

def Verdict (spans : List BatchSpan) : Option (BatchSpan × BatchSpan) → Prop
  | none => ∀ left ∈ spans, ∀ right ∈ spans, Agree left right
  | some (left, right) => left ∈ spans ∧ right ∈ spans ∧ ¬ Agree left right

variable {others spans : List BatchSpan} {answer : Option (BatchSpan × BatchSpan)}
  {left right : BatchSpan}

lemma Verdict.perm (perm : others.Perm spans) (verdict : Verdict others answer) :
    Verdict spans answer := by
  match answer with
  | none =>
    intro left isLeft right isRight
    exact verdict left (perm.mem_iff.mpr isLeft) right (perm.mem_iff.mpr isRight)
  | some (left, right) => exact ⟨perm.mem_iff.mp verdict.1,perm.mem_iff.mp verdict.2.1,verdict.2.2⟩

lemma Agree.symm (agree : Agree left right) : Agree right left := by
  intro meet
  obtain ⟨starts,stops,same⟩ := agree meet.symm
  exact ⟨starts.symm,stops.symm,same.symm⟩

lemma Verdict.cons {held : BatchSpan} (verdict : Verdict spans answer)
    (agree : Verdict spans none → ∀ span ∈ spans, Agree held span) :
    Verdict (held :: spans) answer := by
  match answer with
  | none =>
    intro left isLeft right isRight
    rcases mem_cons.mp isLeft with rfl | inLeft <;> rcases mem_cons.mp isRight with rfl | inRight
    · exact fun _ => ⟨rfl,rfl,rfl⟩
    · exact agree verdict right inRight
    · exact (agree verdict left inLeft).symm
    · exact verdict left inLeft right inRight
  | some (left, right) =>
    exact ⟨.tail _ verdict.1,.tail _ verdict.2.1,verdict.2.2⟩

/-- Whatever was met before the held span and is no copy of it ends before the rest starts. -/
lemma divergenceFrom_verdict {held : BatchSpan} {spans : List BatchSpan}
    (proper : ∀ span ∈ held :: spans, span.start < span.stop)
    (ascending : (held :: spans).Pairwise (fun left right => left.start ≤ right.start)) :
    Verdict (held :: spans) (divergenceFrom spans (some held)) := by
  induction spans generalizing held with
  | nil =>
    have alone : Verdict [] none := nofun
    exact alone.cons nofun
  | cons span rest ih =>
    obtain ⟨first,restAscending⟩ := pairwise_cons.mp ascending
    obtain ⟨isProper,restProper⟩ := forall_mem_cons.mp proper
    have begins := first span (.head _)
    have ends := restProper span (.head _)
    unfold divergenceFrom
    split
    · rename_i overlaps
      split
      · rename_i differs
        refine ⟨.head _,.tail _ (.head _),fun agree => differs ?_⟩
        obtain ⟨starts,stops,same⟩ := agree ⟨by omega,overlaps⟩
        rw [starts,stops,same]
      · rename_i same
        simp only [ne_eq,not_not,Prod.mk.injEq] at same
        have fewer : (held :: rest).Sublist (held :: span :: rest) := (sublist_cons_self _ _).cons_cons _
        apply Verdict.perm (Perm.swap held span rest)
        apply (ih (fun other mem => proper other (fewer.subset mem))
          (ascending.sublist fewer)).cons
        intro agrees other mem
        cases mem_cons.mp mem with
        | inl isHeld => exact fun _ => isHeld ▸ same
        | inr isLater =>
          have agree := agrees held (.head _) other (.tail _ isLater)
          unfold Agree Meet Copies at agree ⊢
          rw [same.1,same.2.1,same.2.2]
          exact agree
    · rename_i apart
      rw [if_pos (by omega)]
      apply (ih restProper restAscending).cons
      intro _ other mem meet
      have later : span.start ≤ other.start := by
        cases mem_cons.mp mem with
        | inl same => rw [same]
        | inr isLater => exact (pairwise_cons.mp restAscending).1 other isLater
      have := meet.2
      omega

def BatchSpan.sortKey (span : BatchSpan) : Int ×ₗ Int ×ₗ Nat :=
  toLex (span.start, toLex (span.stop, span.seq))

lemma divergenceFrom_sorted {sorted : List BatchSpan}
    (proper : ∀ span ∈ spans, span.start < span.stop) (perm : sorted.Perm spans)
    (ascending : sorted.Pairwise (fun left right => left.sortKey ≤ right.sortKey)) :
    Verdict spans (divergenceFrom sorted none) := by
  apply Verdict.perm perm
  have sortedProper : ∀ span ∈ sorted, span.start < span.stop := fun span mem =>
    proper span (perm.mem_iff.mp mem)
  cases sorted with
  | nil => exact nofun
  | cons held rest =>
    apply divergenceFrom_verdict sortedProper
    exact ascending.imp (fun below => Prod.Lex.monotone_fst _ _ below)

def Exact (spans : List BatchSpan) (answer : Option (BatchSpan × BatchSpan)) : Prop :=
  (answer = none ↔ ∀ left ∈ spans, ∀ right ∈ spans, Meet left right → Copies left right) ∧
    ∀ left right, answer = some (left, right) →
      left ∈ spans ∧ right ∈ spans ∧ Meet left right ∧ ¬ Copies left right

lemma Verdict.exact (verdict : Verdict spans answer) : Exact spans answer := by
  match answer with
  | none => exact ⟨iff_of_true rfl verdict,nofun⟩
  | some (left, right) =>
    obtain ⟨isLeft,isRight,disagree⟩ := verdict
    refine ⟨iff_of_false nofun (fun agree => disagree (agree _ isLeft _ isRight)),?_⟩
    rintro _ _ ⟨⟩
    exact ⟨isLeft,isRight,Classical.not_imp.mp disagree⟩

/-- Nothing is found exactly if every two spans that intersect are copies of one batch, and what
is found intersects and is no such pair, in whichever order spans of one key are sorted. -/
theorem firstDivergence_exact (spans : List BatchSpan)
    (proper : ∀ span ∈ spans, span.start < span.stop) :
    Exact spans (firstDivergence spans) ∧
      ∀ sorted : List BatchSpan, sorted.Perm spans →
        sorted.Pairwise (fun left right => left.sortKey ≤ right.sortKey) →
          Exact spans (divergenceFrom sorted none) := by
  constructor
  · apply Verdict.exact
    apply divergenceFrom_sorted proper (perm_insertionSort _ _)
    exact pairwise_insertionSort (Order.Preimage BatchSpan.sortKey (· ≤ ·)) spans
  · intro sorted perm ascending
    exact (divergenceFrom_sorted proper perm ascending).exact

theorem firstDivergence_exact_overlap :
    firstDivergence [⟨0,5,1,7⟩,⟨3,8,2,7⟩] ≠ none := by
  intro none
  have copies := (firstDivergence_exact [⟨0,5,1,7⟩,⟨3,8,2,7⟩] (by decide)).1.1.mp none
    _ mem_cons_self _ (mem_cons_of_mem _ mem_cons_self) ⟨by decide,by decide⟩
  cases copies.1

end Kodansu.Compaction

/-
What a replica's index knows of the store.  Below its cursor, and below every name it has
derived from its cursor, the index holds every live segment.

Two steps can break this and are excluded here: a flush that takes a floor above a live segment
it has not folded, and a failed refresh below a sequence that a compaction has won.
-/

import Kodansu.Leaseless.Ledger

namespace Kodansu.Leaseless

open Index Lib Segment Record List OrderedMap

/-! ### Below a name -/

def Knows (index : PrefixIndex) (seq : Nat) : Prop := (index.segments.get? seq).isSome = true

def KnowsBelow (world : World) (index : PrefixIndex) (bound : Nat) : Prop :=
  ∀ seq < bound, world.isDecodable seq = true → Knows index seq

/-- Nothing that has a name comes to life, nothing that is live is forgotten, and the floor does
not fall. -/
structure Keeps (world after : World) (index moved : PrefixIndex) : Prop where
  live : ∀ seq < world.next, after.isDecodable seq = true → world.isDecodable seq = true
  knows : ∀ seq, after.isDecodable seq = true → Knows index seq → Knows moved seq
  floor : world.floor ≤ after.floor

section

variable {w after : World}

lemma knowsBelow_zero (w : World) (index : PrefixIndex) : KnowsBelow w index 0 :=
  fun _ below => absurd below (Nat.not_lt_zero _)

variable {index moved : PrefixIndex} {lower other seq : Nat} {cached : CachedSegment}
  {keep : Nat → Bool} {r : Replica}

lemma KnowsBelow.anti {bound : Nat} (knows : KnowsBelow w index bound)
    (within : lower ≤ bound) : KnowsBelow w index lower :=
  fun seq below => knows seq (lt_of_lt_of_le below within)

lemma KnowsBelow.max {bound : Nat} (knows : KnowsBelow w index bound)
    (others : KnowsBelow w index other) : KnowsBelow w index (max bound other) := by
  intro seq below decodes
  rcases lt_max_iff.mp below with isBelow | isBelow
  · exact knows seq isBelow decodes
  · exact others seq isBelow decodes

lemma KnowsBelow.keeps {bound : Nat} (knows : KnowsBelow w index bound) (within : bound ≤ w.next)
    (keeps : Keeps w after index moved) : KnowsBelow after moved bound := by
  intro seq below decodes
  have decoded := keeps.live seq (lt_of_lt_of_le below within) decodes
  exact keeps.knows seq decodes (knows seq below decoded)

lemma Keeps.stays_unread (keeps : Keeps w after index moved) (isName : seq < w.next)
    (unread : w.isDecodable seq = false) : after.isDecodable seq = false := by
  by_contra decodes
  rw [keeps.live seq isName (by simpa using decodes)] at unread
  cases unread

lemma Keeps.refl (w : World) (index : PrefixIndex) : Keeps w w index index :=
  ⟨fun _ _ decodes => decodes,fun _ _ known => known,le_refl _⟩

lemma knows_insertSegment :
    Knows (index.insertSegment seq cached) other ↔ other = seq ∨ Knows index other := by
  unfold Knows PrefixIndex.insertSegment
  rw [get?_insert]
  by_cases same : other = seq <;> simp [same]

lemma knows_retainSegments :
    Knows (index.retainSegments keep) seq ↔ keep seq = true ∧ Knows index seq := by
  unfold Knows PrefixIndex.retainSegments
  rw [get?_retain]
  cases keep seq <;> simp

lemma Keeps.insertSegment (w : World) (index : PrefixIndex) (seq : Nat)
    (cached : CachedSegment) : Keeps w w index (index.insertSegment seq cached) :=
  ⟨fun _ _ decodes => decodes,fun _ _ known => knows_insertSegment.mpr (.inr known),le_refl _⟩

lemma Keeps.retainSegments
    (kept : ∀ seq, w.isDecodable seq = true → Knows index seq → keep seq = true) :
    Keeps w w index (index.retainSegments keep) :=
  ⟨fun _ _ decodes => decodes,
    fun seq decodes known => knows_retainSegments.mpr ⟨kept seq decodes known,known⟩,le_refl _⟩

lemma Turn.keeps (turn : Turn w r after) (index : PrefixIndex) :
    Keeps w after index index := by
  refine ⟨?_,fun _ _ known => known,?_⟩
  · intro seq below decodes
    obtain ⟨footer,found⟩ := Option.isSome_iff_exists.mp (World.isLive_of_isDecodable decodes)
    simp only [World.isDecodable,World.isLive,turn.live_of_live below found,found,
      turn.undecodable] at decodes ⊢
    exact decodes
  · cases turn with
    | raiseSeqFloor floor => exact le_max_left _ _
    | _ => exact le_refl _

end

/-! ### A refresh -/

/-- What a phase of a refresh knows, when its next listing starts after a name. -/
def RefreshPhase.Sound (world : World) (index : PrefixIndex) (start : Option Nat) :
    RefreshPhase → Prop
  | .probe seq _ | .absent seq | .floor seq _ _ =>
    nextAfter start ≤ seq ∧ KnowsBelow world index seq
  | .list found =>
    KnowsBelow world index (nextAfter start) ∧ (found.map Prod.fst).Pairwise (· < ·) ∧
      ∀ seq < nextAfter (Replica.scanned start found), world.isDecodable seq = true →
        seq < nextAfter start ∨ seq ∈ found.map Prod.fst
  | .commit pending _ =>
    (pending.map Prod.fst).Pairwise (· < ·) ∧
      (∀ seq ∈ pending.map Prod.fst, seq < nextAfter start) ∧
      ∀ seq < nextAfter start, world.isDecodable seq = true →
        Knows index seq ∨ seq ∈ pending.map Prod.fst

/-- A refresh in this phase, if it succeeds, leaves nothing unknown below a name. -/
def RefreshPhase.Reaches (world : World) (index : PrefixIndex) (bound : Nat) : RefreshPhase → Prop
  | .probe _ _ | .list _ => True
  | .absent seq => world.floor ≤ seq → bound ≤ seq
  | .floor seq read _ => read ≤ seq → bound ≤ seq
  | .commit pending _ => ∀ seq < bound, world.isDecodable seq = true →
      Knows index seq ∨ seq ∈ pending.map Prod.fst

def RefreshOwner.bound : RefreshOwner → Nat
  | .won seq => seq + 1
  | _ => 0

structure Refresh.Sound (world : World) (index : PrefixIndex) (refresh : Refresh) : Prop where
  phase : refresh.phase.Sound world index refresh.after
  listed : refresh.reconcile = true → ∀ seq ∈ refresh.listed, seq < nextAfter refresh.after
  complete : refresh.reconcile = true → ∀ seq < nextAfter refresh.after,
    world.isDecodable seq = true → seq ∈ refresh.listed
  owner : refresh.phase.Reaches world index refresh.owner.bound

section

variable {w after : World} {refresh : Refresh} {start : Option Nat} {seq : Nat}
  {found : List (Nat × SegmentFooter)} {index moved : PrefixIndex}

lemma nextAfter_le : nextAfter start ≤ seq ↔ ∀ last ∈ start, last < seq := by
  cases start <;> simp [nextAfter]

lemma nextAfter_max?_le {bound : Nat} {seqs : List Nat} :
    nextAfter seqs.max? ≤ bound ↔ ∀ seq ∈ seqs, seq < bound := by
  cases isMax : seqs.max? with
  | none =>
    rw [max?_eq_none_iff] at isMax
    simp [isMax,nextAfter]
  | some last =>
    obtain ⟨mem,greatest⟩ := max?_eq_some_iff.mp isMax
    constructor
    · exact fun within seq isSeq => lt_of_le_of_lt (greatest seq isSeq) within
    · exact fun below => below last mem

lemma nextAfter_scanned_le_iff {bound : Nat} :
    nextAfter (Replica.scanned start found) ≤ bound ↔
      nextAfter start ≤ bound ∧ ∀ seq ∈ found.map Prod.fst, seq < bound := by
  unfold Replica.scanned
  rw [nextAfter_max,max_le_iff,nextAfter_max?_le]

lemma nextAfter_scanned_append (start : Option Nat) (found : List (Nat × SegmentFooter))
    (segment : Nat × SegmentFooter) : nextAfter (Replica.scanned start (found ++ [segment])) =
      max (nextAfter (Replica.scanned start found)) (segment.1 + 1) := by
  apply eq_of_forall_ge_iff
  intro bound
  rw [max_le_iff,nextAfter_scanned_le_iff,nextAfter_scanned_le_iff,map_append]
  simp only [mem_append,map_cons,map_nil,mem_singleton,or_imp,
    forall_and,forall_eq,and_assoc,Nat.succ_le_iff]

lemma lt_nextAfter_scanned (mem : seq ∈ found.map Prod.fst) :
    seq < nextAfter (Replica.scanned start found) :=
  (nextAfter_scanned_le_iff.mp (le_refl _)).2 seq mem

lemma mem_listAfter_of_live (beyond : nextAfter start ≤ seq)
    (decodes : w.isDecodable seq = true) : ∃ footer, (seq, footer) ∈ w.listAfter start := by
  obtain ⟨footer,found⟩ := Option.isSome_iff_exists.mp (World.isLive_of_isDecodable decodes)
  exact ⟨footer,World.mem_listAfter.mpr ⟨found,nextAfter_le.mp beyond⟩⟩

lemma listAfter_head_le {segment : Nat × SegmentFooter} (isNext : (w.listAfter start).head? = some segment)
    (beyond : nextAfter start ≤ seq) (decodes : w.isDecodable seq = true) : segment.1 ≤ seq := by
  obtain ⟨footer,mem⟩ := mem_listAfter_of_live beyond decodes
  have ascending : (w.listAfter start).Pairwise (fun earlier later => earlier.1 < later.1) :=
    w.live.ascending.filter _
  cases listed : w.listAfter start with
  | nil =>
    rw [listed] at mem
    cases mem
  | cons first rest =>
    rw [listed] at isNext mem ascending
    cases isNext
    rcases mem_cons.mp mem with same | later
    · rw [← same]
    · exact le_of_lt ((pairwise_cons.mp ascending).1 _ later)

lemma RefreshPhase.Sound.keeps {phase : RefreshPhase} (sound : phase.Sound w index start)
    (bound : phase.Bounded w.next) (within : nextAfter start ≤ w.next)
    (keeps : Keeps w after index moved) : phase.Sound after moved start := by
  cases phase with
  | probe | absent => exact ⟨sound.1,sound.2.keeps bound keeps⟩
  | floor seq floor gen => exact ⟨sound.1,sound.2.keeps bound.1 keeps⟩
  | list found =>
    obtain ⟨known,ascending,complete⟩ := sound
    refine ⟨known.keeps within keeps,ascending,?_⟩
    intro seq below decodes
    have isName := lt_of_lt_of_le below (nextAfter_scanned_le within bound)
    exact complete seq below (keeps.live seq isName decodes)
  | commit pending vanished =>
    obtain ⟨ascending,below,complete⟩ := sound
    refine ⟨ascending,below,?_⟩
    intro seq isBelow decodes
    have decoded := keeps.live seq (lt_of_lt_of_le isBelow within) decodes
    exact (complete seq isBelow decoded).imp_left (keeps.knows seq decodes)

lemma RefreshPhase.Reaches.keeps {bound : Nat}
    {phase : RefreshPhase} (reaches : phase.Reaches w index bound)
    (within : bound ≤ w.next) (keeps : Keeps w after index moved) :
    phase.Reaches after moved bound := by
  cases phase with
  | probe | list => exact trivial
  | absent seq => exact fun behind => reaches (le_trans keeps.floor behind)
  | floor seq floor gen => exact reaches
  | commit pending vanished =>
    intro seq below decodes
    have decoded := keeps.live seq (lt_of_lt_of_le below within) decodes
    exact (reaches seq below decoded).imp_left (keeps.knows seq decodes)

lemma Refresh.Bounded.owner_le {next : Nat} (bound : refresh.Bounded next) : refresh.owner.bound ≤ next := by
  cases isOwner : refresh.owner with
  | won seq => exact bound.owner seq isOwner
  | _ => exact Nat.zero_le _

lemma Refresh.Sound.keeps (sound : refresh.Sound w index)
    (bound : refresh.Bounded w.next) (keeps : Keeps w after index moved) :
    refresh.Sound after moved where
  phase := sound.phase.keeps bound.phase bound.after keeps
  listed := sound.listed
  complete reconciles seq below decodes :=
    sound.complete reconciles seq below (keeps.live seq (lt_of_lt_of_le below bound.after) decodes)
  owner := sound.owner.keeps bound.owner_le keeps

/-- Before its footers are committed, or after, a refresh knows everything its next listing
leaves out. -/
lemma Refresh.Sound.known (sound : refresh.Sound w index)
    (done : ∀ pending vanished, refresh.phase = .commit pending vanished → pending = []) :
    KnowsBelow w index (nextAfter refresh.after) := by
  have phase := sound.phase
  cases isPhase : refresh.phase with
  | probe | absent | floor =>
    rw [isPhase] at phase
    exact phase.2.anti phase.1
  | list found =>
    rw [isPhase] at phase
    exact phase.1
  | commit pending vanished =>
    rw [isPhase,done pending vanished isPhase] at phase
    intro seq below decodes
    exact (phase.2.2 seq below decodes).resolve_right nofun

lemma RefreshPhase.sound_list (known : KnowsBelow w index (nextAfter start)) :
    RefreshPhase.Sound w index start (.list []) := by
  refine ⟨known,List.Pairwise.nil,?_⟩
  intro seq below _
  refine Or.inl (lt_of_lt_of_le below ?_)
  exact nextAfter_scanned_le (le_refl _) nofun

end

/-! ### A replica -/

def FlushPhase.bound : FlushPhase → Nat
  | .start | .refresh | .folded => 0
  | .cursor listed => nextAfter listed
  | .floor listed read _ => max (nextAfter listed) read
  | .basing candidate _ _ | .tail candidate _ _ _ _ | .put candidate _
  | .answered candidate _ _ _ => candidate

structure Flush.Sound (world : World) (index : PrefixIndex) (flush : Flush) : Prop where
  phase : KnowsBelow world index flush.phase.bound
  wonByPeer : ∀ seq ∈ flush.wonByPeer, KnowsBelow world index seq

def Maintain.Sound (world : World) (index : PrefixIndex) : Maintain → Prop
  | .deleting _ seqs left _ => ∀ seq ∈ seqs, seq ∈ left ∨ world.isDecodable seq = false
  | .insert _ seq _ => KnowsBelow world index seq
  | _ => True

structure Knowing (world : World) (replica : Replica) : Prop extends
    Tasks (Refresh.Sound world replica.index) (Flush.Sound world replica.index)
      (Maintain.Sound world replica.index) replica where
  cursor : KnowsBelow world replica.index (nextAfter replica.resolvedMax)
  opaqueSeqs : ∀ seq ∈ replica.opaqueSeqs, world.isDecodable seq = false
  vanished : ∀ seq ∈ replica.vanished, seq < world.next ∧ world.isDecodable seq = false

section

variable {w after : World} {replica next : Replica} {act : Act} {seq floor : Nat} {task : Maintain}

lemma Flush.Bounded.bound_le {flush : Flush} {next : Nat} (bound : flush.Bounded next) :
    flush.phase.bound ≤ next := by
  have phase := bound.phase
  cases isPhase : flush.phase <;> rw [isPhase] at phase <;>
    simp only [FlushPhase.Bounded] at phase <;> simp only [FlushPhase.bound] <;> omega

variable {index moved : PrefixIndex} {r : Replica}

lemma Maintain.Sound.keeps (sound : task.Sound w index)
    (bound : task.Bounded w.next floor) (keeps : Keeps w after index moved) :
    task.Sound after moved := by
  cases task with
  | deleting expired seqs left affected =>
    exact fun seq mem => (sound seq mem).imp_right (keeps.stays_unread (bound.1 seq mem))
  | insert job seq footer => exact KnowsBelow.keeps sound bound.2.le keeps
  | _ => exact trivial

lemma Knowing.tasks (knowing : Knowing w replica) {moved : PrefixIndex}
    (bound : Bounded w.next floor replica) (keeps : Keeps w after replica.index moved) :
    Tasks (Refresh.Sound after moved) (Flush.Sound after moved) (Maintain.Sound after moved)
      replica := by
  apply knowing.toTasks.imp
  · exact fun refresh held sound => sound.keeps (bound.refresh refresh held) keeps
  · intro flush held sound
    constructor
    · exact sound.phase.keeps (bound.flush flush held).bound_le keeps
    · intro seq won
      exact (sound.wonByPeer seq won).keeps ((bound.flush flush held).wonByPeer seq won).le keeps
  · exact fun task held sound => sound.keeps (bound.maintain task held) keeps

lemma Knowing.dead (knowing : Knowing w r) (bound : Bounded w.next floor r)
    (keeps : Keeps w after index moved) :
    ∀ seq ∈ r.opaqueSeqs, after.isDecodable seq = false := by
  intro seq mem
  have isName := bound.resolved seq (Replica.mem_resolved.mpr (.inr mem))
  exact keeps.stays_unread isName (knowing.opaqueSeqs seq mem)

namespace Knowing

variable (knowing : Knowing w r)

include knowing

variable {actor : Replica} {refresh : Refresh} {flush : Flush} {phase at' : FlushPhase}
  {owner : RefreshOwner}

lemma turn (bound : Bounded w.next floor r)
    (turn : Turn w actor after) : Knowing after r where
  toTasks := knowing.tasks bound (turn.keeps _)
  cursor := knowing.cursor.keeps (Replica.nextAfter_resolvedMax_le bound.resolved) (turn.keeps _)
  opaqueSeqs := knowing.dead bound (turn.keeps r.index)
  vanished seq mem := by
    obtain ⟨isName,unread⟩ := knowing.vanished seq mem
    exact ⟨lt_of_lt_of_le isName turn.next_le,(turn.keeps r.index).stays_unread isName unread⟩

lemma move {moved : Replica} (index : moved.index = r.index)
    (opaqueSeqs : moved.opaqueSeqs = r.opaqueSeqs) (vanished : moved.vanished = r.vanished)
    (tasks : Tasks (Refresh.Sound w r.index) (Flush.Sound w r.index)
      (Maintain.Sound w r.index) moved) : Knowing w moved where
  toTasks := index ▸ tasks
  cursor := by
    have resolved : moved.resolvedMax = r.resolvedMax := by
      unfold Replica.resolvedMax Replica.resolved
      rw [index,opaqueSeqs]
    rw [index,resolved]
    exact knowing.cursor
  opaqueSeqs := opaqueSeqs ▸ knowing.opaqueSeqs
  vanished := vanished ▸ knowing.vanished

lemma insertSegment (bound : Bounded w.next floor r)
    (below : KnowsBelow w r.index seq) (footer : SegmentFooter) :
    Knowing w (r.insertSegment seq footer) := by
  have keeps := Keeps.insertSegment w r.index seq ⟨footer,0⟩
  refine ⟨(knowing.tasks bound keeps).of_same rfl rfl rfl,?_,knowing.opaqueSeqs,knowing.vanished⟩
  have cursor : nextAfter (r.insertSegment seq footer).resolvedMax ≤
      max (nextAfter r.resolvedMax) (seq + 1) := by
    apply Replica.nextAfter_resolvedMax_le
    intro other mem
    rcases Replica.mem_resolved_insertSegment.mp mem with rfl | before
    · exact lt_of_lt_of_le (Nat.lt_succ_self _) (le_max_right _ _)
    · exact lt_of_lt_of_le (Replica.lt_nextAfter_resolvedMax before) (le_max_left _ _)
  intro other isBelow decodes
  have inserted := lt_of_lt_of_le isBelow cursor
  by_cases same : other = seq
  · exact knows_insertSegment.mpr (.inl same)
  · apply keeps.knows other decodes
    rcases lt_max_iff.mp inserted with isOld | isNew
    · exact knowing.cursor other isOld decodes
    · exact below other (by omega) decodes

/-- A name that is gone counts as resolved once everything below it is known. -/
lemma addOpaque (below : KnowsBelow w r.index seq) (dead : w.isDecodable seq = false) :
    Knowing w (r.stepOver seq) := by
  refine ⟨knowing.toTasks.of_same rfl rfl rfl,?_,?_,knowing.vanished⟩
  · have cursor : nextAfter (r.stepOver seq).resolvedMax ≤
        max (nextAfter r.resolvedMax) (seq + 1) := by
      apply Replica.nextAfter_resolvedMax_le
      intro other mem
      have resolved : other = seq ∨ other ∈ r.resolved := by
        rcases Replica.mem_resolved.mp mem with known | isOpaque
        · exact .inr (Replica.mem_resolved.mpr (.inl known))
        · exact (mem_cons.mp isOpaque).imp_right
            (fun before => Replica.mem_resolved.mpr (.inr before))
      rcases resolved with rfl | before
      · exact lt_of_lt_of_le (Nat.lt_succ_self _) (le_max_right _ _)
      · exact lt_of_lt_of_le (Replica.lt_nextAfter_resolvedMax before) (le_max_left _ _)
    intro other isBelow decodes
    rcases lt_max_iff.mp (lt_of_lt_of_le isBelow cursor) with isOld | isNew
    · exact knowing.cursor other isOld decodes
    · by_cases same : other = seq
      · rw [same,dead] at decodes
        cases decodes
      · exact below other (by omega) decodes
  · intro other mem
    rcases mem_cons.mp mem with rfl | before
    · exact dead
    · exact knowing.opaqueSeqs other before

lemma retain (bound : Bounded w.next floor r) {keep : Nat → Bool}
    (kept : ∀ seq, w.isDecodable seq = true → Knows r.index seq → keep seq = true)
    {opaqueSeqs : List Nat} (within : ∀ seq ∈ opaqueSeqs, seq ∈ r.opaqueSeqs)
    (generation : Nat) :
    Knowing w { r with
      index := r.index.retainSegments keep
      opaqueSeqs
      generation } := by
  have keeps := Keeps.retainSegments kept
  refine ⟨(knowing.tasks bound keeps).of_same rfl rfl rfl,?_,?_,knowing.vanished⟩
  · have cursor : nextAfter ({ r with
        index := r.index.retainSegments keep
        opaqueSeqs
        generation } : Replica).resolvedMax ≤ nextAfter r.resolvedMax := by
      apply Replica.nextAfter_resolvedMax_le
      intro other mem
      apply Replica.lt_nextAfter_resolvedMax
      rcases Replica.mem_resolved.mp mem with known | isOpaque
      · exact Replica.mem_resolved.mpr (.inl (knows_retainSegments.mp known).2)
      · exact Replica.mem_resolved.mpr (.inr (within other isOpaque))
    have known := knowing.cursor.anti cursor
    intro other isBelow decodes
    exact keeps.knows other decodes (known other isBelow decodes)
  · exact fun other mem => knowing.opaqueSeqs other (within other mem)

lemma indexPrune (bound : Bounded w.next floor r) {seqs : List Nat}
    (gone : ∀ seq ∈ seqs, w.isDecodable seq = false) : Knowing w (r.indexPrune seqs) := by
  refine knowing.retain bound ?_ (fun seq mem => mem) (r.generation + 1)
  intro seq decodes _
  rw [Bool.not_eq_true',← Bool.not_eq_true,contains_iff_mem]
  intro mem
  rw [gone seq mem] at decodes
  cases decodes

lemma certify (floor gen : Nat) : Knowing w (r.certify floor gen) :=
  knowing.move (certify_index _ _ _) (certify_opaqueSeqs _ _ _)
    (certify_vanished _ _ _) (knowing.toTasks.certify floor gen)

lemma setRefresh (held : refresh.Sound w r.index) :
    Knowing w (r.setRefresh refresh) :=
  knowing.move rfl rfl rfl (knowing.toTasks.setRefresh held)

lemma setFlush (held : KnowsBelow w r.index phase.bound)
    (won : ∀ seq ∈ flush.wonByPeer, KnowsBelow w r.index seq) :
    Knowing w (r.setFlush flush phase) :=
  knowing.move rfl rfl rfl (knowing.toTasks.setFlush ⟨held,won⟩)

lemma endFlush : Knowing w r.endFlush :=
  knowing.move rfl rfl rfl knowing.toTasks.endFlush

lemma setMaintain (held : task.Sound w r.index) :
    Knowing w (r.setMaintain task) :=
  knowing.move rfl rfl rfl (knowing.toTasks.setMaintain held)

lemma endMaintain : Knowing w r.endMaintain :=
  knowing.move rfl rfl rfl knowing.toTasks.endMaintain

lemma flushAt (held : r.flush = some flush)
    (phase : flush.phase = at') : KnowsBelow w r.index at'.bound :=
  phase ▸ (knowing.flush flush held).phase

lemma refreshAt {at' : RefreshPhase} (held : r.refresh = some refresh)
    (phase : refresh.phase = at') : at'.Sound w r.index refresh.after :=
  phase ▸ (knowing.refresh refresh held).phase

lemma resume (awaited : Awaited r) (held : r.refresh = some refresh)
    (folded : KnowsBelow w r.index refresh.owner.bound) :
    Knowing w (r.resume refresh.owner) := by
  have tasks := knowing.toTasks.resume (fun (_ : refresh.owner = .flush) flush isFlush =>
      ⟨knowsBelow_zero w r.index,(knowing.flush flush isFlush).wonByPeer⟩)
    (fun _ _ task isTask => by
      cases task with
      | foldBelow job seq footer =>
        have isOwner : refresh.owner = .won seq := by
          have waits := awaited refresh held
          cases isOwner : refresh.owner <;>
            simp_all [Replica.awaitsRefresh]
        rw [isOwner] at folded
        exact folded.anti (Nat.le_succ _)
      | deleting | insert => exact knowing.maintain _ isTask
      | _ => exact trivial)
  cases isOwner : refresh.owner <;> rw [isOwner] at tasks <;> exact knowing.move rfl rfl rfl tasks

lemma refreshFailed (notWon : ∀ seq, owner ≠ .won seq) :
    Knowing w (r.refreshFailed owner) := by
  have tasks := knowing.toTasks.refreshFailed
    (fun seq (isWon : owner = .won seq) => absurd isWon (notWon seq))
  cases owner <;> exact knowing.move rfl rfl rfl tasks

end Knowing

/-! ### Steps of a refresh -/

lemma Names.next_of_absent (names : Names w) (within : seq ≤ w.next)
    (absent : w.live.get? seq = none) (behind : w.floor ≤ seq) : seq = w.next := by
  by_contra differs
  have created := names.contiguous seq (by omega)
  have retired := names.dead seq created (by rw [World.isLive,absent]; rfl)
  omega

variable {refresh : Refresh} {found rest : List (Nat × SegmentFooter)} {start : Option Nat}
  {footer : SegmentFooter} {vanished earlier flag : Bool} {other listedMax : Nat}

lemma listed_complete (knowing : Knowing w r) (held : r.refresh = some refresh)
    (phase : refresh.phase = .list found)
    (done : w.listAfter (Replica.scanned refresh.after found) = [])
    (decodes : w.isDecodable seq = true) :
    seq < nextAfter (Replica.scanned refresh.after found) ∧ (Knows r.index seq ∨
      seq ∈ (found.filter (fun (seq, _) => !r.isResolved seq)).map Prod.fst) := by
  obtain ⟨known,-,complete⟩ := knowing.refreshAt held phase
  have below : seq < nextAfter (Replica.scanned refresh.after found) := by
    by_contra beyond
    obtain ⟨footer,mem⟩ := mem_listAfter_of_live (not_lt.mp beyond) decodes
    rw [done] at mem
    cases mem
  refine ⟨below,?_⟩
  rcases complete seq below decodes with earlier | listed
  · exact .inl (known seq earlier decodes)
  · by_cases resolved : r.isResolved seq = true
    · left
      rcases Replica.mem_resolved.mp (contains_iff_mem.mp resolved) with isKnown | isOpaque
      · exact isKnown
      · rw [knowing.opaqueSeqs seq isOpaque] at decodes
        cases decodes
    · right
      obtain ⟨segment,mem,rfl⟩ := mem_map.mp listed
      exact mem_map_of_mem (mem_filter.mpr ⟨mem,by simpa using resolved⟩)

lemma commit_head_known
    (sound : RefreshPhase.Sound w index start (.commit ((seq, footer) :: rest) vanished)) :
    KnowsBelow w index seq := by
  obtain ⟨ascending,below,complete⟩ := sound
  intro other isBelow decodes
  have within := lt_trans isBelow (below seq (.head _))
  refine (complete other within decodes).resolve_right (fun waiting => ?_)
  rcases mem_cons.mp waiting with same | later
  · exact absurd isBelow (same ▸ lt_irrefl _)
  · exact lt_asymm isBelow ((pairwise_cons.mp ascending).1 other later)

/-- A decodable segment does not wait for a footer that is not to be had. -/
lemma waits_in_rest {rest : List (Nat × SegmentFooter)} (unread : w.isDecodable seq = false)
    (decodes : w.isDecodable other = true)
    (waiting : other ∈ ((seq, footer) :: rest).map Prod.fst) : other ∈ rest.map Prod.fst := by
  rcases mem_cons.mp waiting with isFirst | inRest
  · rw [show other = seq from isFirst,unread] at decodes
    cases decodes
  · exact inRest

lemma refreshStep_reaches {bound : Nat} (names : Names w) (based : Based w r)
    (knowing : Knowing w r) (within : bound ≤ w.next)
    (reaches : ∀ refresh ∈ r.refresh, refresh.phase.Reaches w r.index bound)
    (step : RefreshStep w r act next) :
    ∀ refresh ∈ next.refresh, refresh.phase.Reaches w next.index bound := by
  have ended : next.refresh = none →
      ∀ refresh ∈ next.refresh, refresh.phase.Reaches w next.index bound := by
    intro none refresh isHeld
    rw [none] at isHeld
    cases isHeld
  cases step with
  | startList | startProbe | relist | probeFolds | floorAhead | pages =>
    intro _ same
    cases same
    exact trivial
  | probeAbsent held phase absent =>
    intro _ same
    cases same
    intro behind
    rw [names.next_of_absent (based.bounded.refreshAt held phase) absent behind]
    exact within
  | readsFloor held phase =>
    have before := reaches _ held
    rw [phase] at before
    intro _ same
    cases same
    exact before
  | floorProves | settles => exact ended (resume_refresh _ _)
  | lists held phase done =>
    intro _ same
    cases same
    exact fun seq _ decodes => (listed_complete knowing held phase done decodes).2
  | @commits refresh seq footer rest vanished held phase =>
    have before := reaches _ held
    rw [phase] at before
    intro _ same
    cases same
    intro other below decodes
    rcases before other below decodes with known | waiting
    · exact .inl (knows_insertSegment.mpr (.inr known))
    · rcases mem_cons.mp waiting with isFirst | inRest
      · exact .inl (knows_insertSegment.mpr (.inl isFirst))
      · exact .inr inRest
  | vanishes held phase absent =>
    have before := reaches _ held
    rw [phase] at before
    intro _ same
    cases same
    exact fun other below decodes => (before other below decodes).imp_right
      (waits_in_rest (World.isDecodable_of_dead absent) decodes)
  | stepsOver held phase undecodable =>
    have before := reaches _ held
    rw [phase] at before
    intro _ same
    cases same
    exact fun other below decodes => (before other below decodes).imp_right
      (waits_in_rest (World.isDecodable_of_undecodable undecodable) decodes)
  | fails | cancels => exact ended (refreshFailed_refresh _ _)

lemma reconciled_keeps {refresh : Refresh} (sound : refresh.Sound w index)
    (reconciles : refresh.reconcile = true) (isMax : refresh.listed.max? = some listedMax)
    (decodes : w.isDecodable seq = true) :
    (decide (listedMax ≤ seq) || refresh.listed.contains seq) = true := by
  rw [Bool.or_eq_true,decide_eq_true_eq]
  by_cases below : seq < nextAfter refresh.after
  · exact .inr (contains_iff_mem.mpr (sound.complete reconciles seq below decodes))
  · left
    have last := sound.listed reconciles listedMax (max?_eq_some_iff.mp isMax).1
    omega

lemma reconciled_tasks (r : Replica) (refresh : Refresh) :
    (r.reconciled refresh).refresh = r.refresh ∧
      (r.reconciled refresh).flush = r.flush ∧
      (r.reconciled refresh).maintain = r.maintain := by
  rcases reconciled_same r refresh with same | ⟨_,-,-,same⟩ <;>
    rw [same] <;> exact ⟨rfl,rfl,rfl⟩

lemma reconciled_knowing (knowing : Knowing w r)
    (bound : Bounded w.next floor r) (held : r.refresh = some refresh) :
    Knowing w { r.reconciled refresh with generation := r.generation + 1 } ∧
      Keeps w w r.index (r.reconciled refresh).index := by
  have sound := knowing.refresh refresh held
  rcases reconciled_same r refresh with same | ⟨listedMax,reconciles,isMax,same⟩
  · rw [same]
    exact ⟨knowing.move rfl rfl rfl (knowing.toTasks.of_same rfl rfl rfl),Keeps.refl _ _⟩
  · have kept : ∀ seq, w.isDecodable seq = true → Knows r.index seq →
        (decide (listedMax ≤ seq) || refresh.listed.contains seq) = true :=
      fun seq decodes _ => reconciled_keeps sound reconciles isMax decodes
    rw [same]
    exact ⟨knowing.retain bound kept (fun _ mem => (mem_filter.mp mem).1) _,
      Keeps.retainSegments kept⟩

lemma Knowing.passOver {refresh : Refresh} (knowing : Knowing w r)
    (held : r.refresh = some refresh)
    (phase : refresh.phase = .commit ((seq, footer) :: rest) earlier)
    (unread : w.isDecodable seq = false)
    (reaches : RefreshPhase.Reaches w r.index refresh.owner.bound (.commit rest flag)) :
    Knowing w ((r.stepOver seq).setRefresh { refresh with phase := .commit rest flag }) := by
  obtain ⟨ascending,below,complete⟩ := knowing.refreshAt held phase
  have restAscending := (pairwise_cons.mp ascending).2
  have added := knowing.addOpaque (commit_head_known (knowing.refreshAt held phase)) unread
  have sound := added.refresh _ held
  refine added.setRefresh ⟨⟨restAscending,fun other mem => below other (.tail _ mem),?_⟩,
    sound.listed,sound.complete,reaches⟩
  exact fun other isBelow decodes => (complete other isBelow decodes).imp_right
    (waits_in_rest unread decodes)

/-! ### The condition on steps -/

def World.knownBelow (world : World) (replica : Replica) (bound : Nat) : Bool :=
  world.live.entries.all (fun (seq, _) =>
    bound ≤ seq || world.undecodable seq || replica.knows seq)

/-- A floor that the step takes for a flush's candidate is above no live segment that the
replica does not know. -/
def floorFolded (world : World) (replica : Replica) : Act → Bool
  | .flush .ok => match replica.flush.map Flush.phase with
      | some (.cursor _) => world.knownBelow replica (replica.certifiedSeqFloor.getD world.floor)
      | _ => true
  | _ => true

/-- The step is no failed request of the refresh below a sequence that a compaction has won. -/
def wonFolded (replica : Replica) : Act → Bool
  | .refresh .failed => match replica.refresh.map Refresh.owner with
      | some (.won _) => false
      | _ => true
  | _ => true

def foldsBelow (world : World) (replica : Replica) (action : Act) : Bool :=
  freshName world replica action && floorFolded world replica action && wonFolded replica action

lemma knownBelow_iff {bound : Nat} :
    w.knownBelow r bound = true ↔ KnowsBelow w r.index bound := by
  unfold World.knownBelow KnowsBelow
  simp only [all_eq_true,Bool.or_eq_true,decide_eq_true_eq]
  constructor
  · intro all seq below decodes
    obtain ⟨footer,found⟩ := Option.isSome_iff_exists.mp (World.isLive_of_isDecodable decodes)
    refine (all (seq, footer) (mem_entries.mpr found)).resolve_left ?_
    rintro (above | undecodable)
    · exact absurd above (not_le.mpr below)
    · rw [World.isDecodable_of_undecodable undecodable] at decodes
      cases decodes
  · intro known segment mem
    by_cases below : segment.1 < bound
    · cases undecodable : w.undecodable segment.1 with
      | true => exact .inl (.inr rfl)
      | false =>
        refine .inr (known segment.1 below ?_)
        rw [World.isDecodable,World.isLive,mem_entries.mp mem,undecodable]
        rfl
    · exact .inl (.inl (not_lt.mp below))

section

variable {flush : Flush} {listed : Option Nat} (held : replica.flush = some flush)
  (phase : flush.phase = .cursor listed)

include held phase

lemma floorFolded_certified (isCertified : replica.certifiedSeqFloor = some floor)
    (folded : floorFolded w replica (.flush .ok) = true) :
    KnowsBelow w replica.index floor := by
  simp only [floorFolded,held,Option.map_some,phase,isCertified,Option.getD_some] at folded
  exact knownBelow_iff.mp folded

lemma floorFolded_read (uncertified : replica.certifiedSeqFloor = none)
    (folded : floorFolded w replica (.flush .ok) = true) :
    KnowsBelow w replica.index w.floor := by
  simp only [floorFolded,held,Option.map_some,phase,uncertified,Option.getD_none] at folded
  exact knownBelow_iff.mp folded

end

/-! ### Every step -/

section

variable (names : Names w) (based : Based w r) (knowing : Knowing w r)

include names based knowing

variable {config : Config}

lemma refreshStep_knowing (folded : wonFolded r act = true)
    (step : RefreshStep w r act next) : Knowing w next := by
  have reaches : ∀ {refresh : Refresh}, r.refresh = some refresh →
      ∀ moved ∈ next.refresh, moved.phase.Reaches w next.index refresh.owner.bound := by
    intro refresh held
    refine refreshStep_reaches names based knowing (based.bounded.refresh refresh held).owner_le ?_ step
    intro other isOther
    cases held.symm.trans isOther
    exact (knowing.refresh refresh held).owner
  cases step with
  | startList reconcile idle awaits =>
    exact knowing.setRefresh ⟨RefreshPhase.sound_list (knowsBelow_zero _ _),fun _ => nofun,
      fun _ _ below => absurd below (Nat.not_lt_zero _),trivial⟩
  | startProbe idle awaits isCursor =>
    have cursor := knowing.cursor
    rw [isCursor] at cursor
    exact knowing.setRefresh ⟨⟨le_refl _,cursor⟩,nofun,nofun,trivial⟩
  | relist relists held done =>
    have sound := knowing.refresh _ held
    exact knowing.setRefresh ⟨RefreshPhase.sound_list (sound.known done),sound.listed,
      sound.complete,trivial⟩
  | @probeFolds refresh seq left footer held phase decodes =>
    obtain ⟨within,below⟩ := knowing.refreshAt held phase
    have inserted := knowing.insertSegment based.bounded below footer
    have sound := inserted.refresh _ held
    refine inserted.setRefresh ⟨⟨le_trans within (Nat.le_succ _),?_⟩,sound.listed,
      sound.complete,trivial⟩
    intro other isBelow otherLive
    by_cases same : other = seq
    · exact knows_insertSegment.mpr (.inl same)
    · exact knows_insertSegment.mpr (.inr (below other (by omega) otherLive))
  | probeAbsent held phase | readsFloor held phase =>
    have sound := knowing.refresh _ held
    have below := knowing.refreshAt held phase
    exact knowing.setRefresh ⟨below,sound.listed,sound.complete,reaches held _ rfl⟩
  | @floorAhead refresh seq floor gen held phase ahead =>
    have certified := knowing.certify floor gen
    have sound := certified.refresh _ ((certify_refresh _ _ _).trans held)
    refine certified.setRefresh ⟨RefreshPhase.sound_list (sound.known ?_),sound.listed,
      sound.complete,trivial⟩
    simp [phase]
  | @floorProves refresh seq floor gen held phase behind =>
    have sound := knowing.refresh _ held
    have below := (knowing.refreshAt held phase).2
    have reached := sound.owner
    rw [phase] at reached
    refine (knowing.certify floor gen).resume ?_ ((certify_refresh _ _ _).trans held) ?_
    · exact based.awaited.of_same (certify_refresh _ _ _) (certify_flush _ _ _)
        (certify_maintain _ _ _)
    · rw [certify_index]
      exact below.anti (reached behind)
  | @pages refresh found segment held phase isNext =>
    have sound := knowing.refresh _ held
    obtain ⟨known,ascending,complete⟩ := knowing.refreshAt held phase
    have beyond := nextAfter_le.mpr (World.mem_listAfter.mp (mem_of_mem_head? isNext)).2
    refine knowing.setRefresh ⟨⟨known,?_,?_⟩,sound.listed,sound.complete,trivial⟩
    · rw [map_append,pairwise_append]
      refine ⟨ascending,pairwise_singleton _ _,?_⟩
      intro earlier mem later isLast
      rw [map_singleton,mem_singleton] at isLast
      rw [isLast]
      exact lt_of_lt_of_le (lt_nextAfter_scanned mem) beyond
    · intro seq below decodes
      simp only [nextAfter_scanned_append] at below
      rw [map_append,mem_append]
      by_cases scanned : seq < nextAfter (Replica.scanned refresh.after found)
      · exact (complete seq scanned decodes).imp_right Or.inl
      · have first := listAfter_head_le isNext (not_lt.mp scanned) decodes
        have same : seq = segment.1 := by omega
        exact .inr (.inr (by simp [same]))
  | @lists refresh found held phase done =>
    have sound := knowing.refresh _ held
    obtain ⟨known,ascending,complete⟩ := knowing.refreshAt held phase
    have within := nextAfter_scanned_le_iff.mp (le_refl (nextAfter (Replica.scanned refresh.after found)))
    refine knowing.setRefresh ⟨⟨?_,?_,?_⟩,?_,?_,reaches held _ rfl⟩
    · exact ascending.sublist (filter_sublist.map _)
    · intro seq mem
      obtain ⟨segment,isSegment,rfl⟩ := mem_map.mp mem
      exact lt_nextAfter_scanned (mem_map_of_mem (mem_filter.mp isSegment).1)
    · exact fun seq _ decodes => (listed_complete knowing held phase done decodes).2
    · intro reconciles seq mem
      simp only [Replica.listed,show refresh.reconcile = true from reconciles,if_true,
        mem_append] at mem
      rcases mem with earlier | isFound
      · exact lt_of_lt_of_le (sound.listed reconciles seq earlier) within.1
      · exact within.2 seq isFound
    · intro reconciles seq below decodes
      simp only [Replica.listed,show refresh.reconcile = true from reconciles,if_true,mem_append]
      exact (complete seq below decodes).imp_left
        (fun earlier => sound.complete reconciles seq earlier decodes)
  | @commits refresh seq footer rest vanished held phase =>
    obtain ⟨ascending,below,complete⟩ := knowing.refreshAt held phase
    have restAscending := (pairwise_cons.mp ascending).2
    have known := commit_head_known (knowing.refreshAt held phase)
    have inserted := knowing.insertSegment based.bounded known footer
    have sound := inserted.refresh _ held
    refine inserted.setRefresh ⟨⟨restAscending,fun other mem =>
      below other (.tail _ mem),?_⟩,sound.listed,sound.complete,
      reaches held _ rfl⟩
    intro other isBelow decodes
    rcases complete other isBelow decodes with isKnown | waiting
    · exact .inl (knows_insertSegment.mpr (.inr isKnown))
    · rcases mem_cons.mp waiting with isFirst | inRest
      · exact .inl (knows_insertSegment.mpr (.inl isFirst))
      · exact .inr inRest
  | vanishes held phase absent =>
    exact knowing.passOver held phase (World.isDecodable_of_dead absent) (reaches held _ rfl)
  | stepsOver held phase undecodable =>
    exact knowing.passOver held phase (World.isDecodable_of_undecodable undecodable)
      (reaches held _ rfl)
  | @settles refresh vanished held phase =>
    obtain ⟨settled,keeps⟩ := reconciled_knowing knowing based.bounded held
    have reached := (knowing.refresh _ held).owner
    rw [phase] at reached
    obtain ⟨sameRefresh,sameFlush,sameMaintain⟩ := reconciled_tasks r refresh
    refine settled.resume (based.awaited.of_same sameRefresh sameFlush sameMaintain)
      (sameRefresh.trans held) ?_
    intro seq below decodes
    exact keeps.knows seq decodes ((reached seq below decodes).resolve_right nofun)
  | @fails refresh held =>
    apply knowing.refreshFailed
    intro seq isWon
    simp [wonFolded,held,isWon] at folded
  | cancels held waits abandoned => exact knowing.refreshFailed abandoned

lemma flushStep_knowing (allowed : foldsBelow w r act = true)
    (step : FlushStep config w r act after next) : Knowing after next := by
  simp only [foldsBelow,Bool.and_eq_true] at allowed
  obtain ⟨⟨fresh,folded⟩,-⟩ := allowed
  -- the store moves first, and then the r
  have turned := knowing.turn based.bounded (flushStep_turn names based.bounded fresh step)
  cases step with
  | @begins pending idle =>
    have begun : Knowing { w with nonces := w.nonces + 1 }
        (r.setFlush { nonce := w.nonces, pending } .start) :=
      turned.setFlush (knowsBelow_zero _ _) nofun
    exact begun
  | ends held awake => exact knowing.endFlush
  | awaits held phase => exact knowing.setFlush (knowsBelow_zero _ _) nofun
  | folds held phase isPeer decodes =>
    have below := (knowing.flush _ held).wonByPeer _ isPeer
    exact (knowing.insertSegment based.bounded below _).setFlush (knowsBelow_zero _ _) nofun
  | takesCursor held phase => exact knowing.setFlush knowing.cursor (knowing.flush _ held).wonByPeer
  | certified held phase isCertified =>
    have below := knowing.flushAt held phase
    have floor := floorFolded_certified held phase isCertified folded
    exact knowing.setFlush (below.max floor) (knowing.flush _ held).wonByPeer
  | readsFloor held phase uncertified =>
    have below := knowing.flushAt held phase
    have floor := floorFolded_read held phase uncertified folded
    exact knowing.setFlush (below.max floor) (knowing.flush _ held).wonByPeer
  | derives held phase =>
    have below := knowing.flushAt held phase
    have flushing := (knowing.flush _ held).wonByPeer
    refine (knowing.certify _ _).setFlush ?_ ?_
    · rw [certify_index]
      exact below
    · rw [certify_index]
      exact flushing
  | takesTail held phase | bases held phase | readies held phase | misses held phase =>
    have below := knowing.flushAt held phase
    exact knowing.setFlush below (knowing.flush _ held).wonByPeer
  | answers held phase isEmpty => exact turned.endFlush
  | creates held phase encoded free effective isAnswer =>
    have below := turned.flushAt held phase
    exact turned.setFlush below (turned.flush _ held).wonByPeer
  | @wins flush resp candidate assigned footer answer held phase mine =>
    have below := turned.flushAt held phase
    obtain ⟨cachedSeq,cachedHigh,same⟩ := finalize_same w r candidate footer assigned
    rw [same]
    have ended := (turned.insertSegment based.bounded below footer).endFlush
    exact ended.move rfl rfl rfl (ended.toTasks.of_same rfl rfl rfl)
  | loses held phase theirs =>
    refine knowing.setFlush (knowsBelow_zero _ _) ?_
    intro seq isPeer
    cases isPeer
    have below := knowing.flushAt held phase
    exact below

lemma maintainStep_knowing (fresh : freshName w r act = true)
    (step : MaintainStep config w r act after next) : Knowing after next := by
  have turned := knowing.turn based.bounded (maintainStep_turn names based.bounded fresh step)
  cases step with
  | ends | halts => exact knowing.endMaintain
  | retires held isLast forgotten =>
    have certified : ∀ seqFloor, Knowing (w.raiseSeqFloor _) { r with seqFloor } :=
      fun _ => turned.move rfl rfl rfl (turned.toTasks.of_same rfl rfl rfl)
    exact (certified _).setMaintain (fun seq mem => .inl mem)
  | retireLost | deleteLost => exact turned.endMaintain
  | @deletes expired seqs rest seq affected held =>
    refine turned.setMaintain ?_
    intro other mem
    rcases turned.maintain _ held other mem with waiting | dead
    · rcases mem_cons.mp waiting with same | later
      · right
        apply World.isDecodable_of_dead
        rw [World.isLive_delete,same]
        simp
      · exact .inl later
    · exact .inr dead
  | @prunes expired seqs affected cachedHigh held =>
    have pruned := knowing.indexPrune based.bounded (fun seq (mem : seq ∈ seqs) =>
      (knowing.maintain _ held seq mem).resolve_left nofun)
    exact pruned.move rfl rfl rfl (pruned.toTasks.endMaintain.of_same rfl rfl rfl)
  | @wins resp job candidate footer answer held mine =>
    have hinted : Knowing w (r.setSeq (candidate + 1)) :=
      knowing.move rfl rfl rfl (knowing.toTasks.of_same rfl rfl rfl)
    unfold Replica.jobWon
    simp only
    split
    · rename_i atCursor
      refine hinted.setMaintain ?_
      obtain ⟨cursor,isCursor,close⟩ := Option.any_eq_true _ _ |>.mp atCursor
      have below := hinted.cursor
      rw [isCursor] at below
      exact below.anti (of_decide_eq_true close)
    · exact hinted.setMaintain trivial
  | derives held => exact (knowing.certify _ _).setMaintain trivial
  | inserts held =>
    exact (knowing.insertSegment based.bounded (knowing.maintain _ held) _).setMaintain trivial
  | _ => exact turned.setMaintain trivial

end

lemma knowing_init (w : World) : Knowing w {} :=
  ⟨Tasks.idle _ _ _ _ _ _,knowsBelow_zero _ _,nofun,nofun⟩

variable {config : Config}

lemma step_knowing (names : Names w) (based : Based w r)
    (knowing : Knowing w r) (allowed : foldsBelow w r act = true)
    (step : Step config w r act after next) : Knowing after next := by
  have parts := allowed
  simp only [foldsBelow,Bool.and_eq_true] at parts
  cases step with
  | refresh step => exact refreshStep_knowing names based knowing parts.2 step
  | flush step => exact flushStep_knowing names based knowing allowed step
  | maintain step => exact maintainStep_knowing names based knowing parts.1.1 step
  | read step =>
    cases step with
    | vanishes known absent =>
      have isName := based.bounded.resolved _ (Replica.mem_resolved.mpr (.inl known))
      refine { knowing with vanished := ?_ }
      intro seq mem
      rcases mem_cons.mp mem with rfl | before
      · exact ⟨isName,World.isDecodable_of_dead absent⟩
      · exact knowing.vanished seq before
    | prunes gone =>
      exact knowing.indexPrune based.bounded
        (fun seq mem => (knowing.vanished seq (gone seq mem)).2)
  | restart => exact knowing_init w

/-! ### Runs -/

variable {state : State}

lemma foldsBelow_freshName (allowed : foldsBelow w r act = true) :
    freshName w r act = true := by
  simp only [foldsBelow,Bool.and_eq_true] at allowed
  exact allowed.1.1

/-- In every run whose steps fold first, each replica knows every live segment below its
cursor. -/
lemma reachable_knowing {guard : World → Replica → Act → Prop}
    (folds : ∀ {w : World} {r : Replica} {act : Act}, guard w r act →
      foldsBelow w r act = true)
    (reached : Reachable config guard state) (index : Nat) :
    Knowing state.world (state.party index) := by
  have holds : Parties.Holds (fun _ => True) Knowing state := by
    refine Parties.invariant_over based_known ⟨trivial,knowing_init _⟩ ?_ ?_ reached
    · intro before after party next act names based _ _ knowing allowed acted
      exact ⟨trivial,step_knowing names based knowing (folds allowed) (act_step acted)⟩
    · intro before after party next other act names based _ otherBased _ _ _ otherKnowing allowed
        acted
      exact otherKnowing.turn otherBased.bounded
        (step_turn names based.bounded (foldsBelow_freshName (folds allowed)) (act_step acted))
  exact holds.2 index

end

end Kodansu.Leaseless

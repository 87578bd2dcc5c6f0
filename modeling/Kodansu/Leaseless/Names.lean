/-
Segment names.  The names ever created are the numbers below one bound, and every name a
replica may hold, create or delete stays within that bound.  A name is created twice exactly
when it is created below the floor.
-/

import Kodansu.Leaseless.Tasks

namespace Kodansu.Leaseless

open Index Lib Segment Record List OrderedMap

variable {next seq wider : Nat} {replica : Replica} {phase : FlushPhase} {task : Maintain}

/-! ### Names a replica holds -/

namespace Replica

lemma mem_resolved :
    seq ∈ replica.resolved ↔ replica.knows seq = true ∨ seq ∈ replica.opaqueSeqs := by
  unfold resolved knows
  rw [mem_append,mem_map,Option.isSome_iff_exists]
  constructor
  · rintro (⟨⟨name,cached⟩,mem,rfl⟩ | isOpaque)
    · exact .inl ⟨cached,mem_entries.mp mem⟩
    · exact .inr isOpaque
  · rintro (⟨cached,found⟩ | isOpaque)
    · exact .inl ⟨(seq, cached),mem_entries.mpr found,rfl⟩
    · exact .inr isOpaque

lemma knows_insertSegment (r : Replica) (seq other : Nat) (footer : SegmentFooter) :
    (r.insertSegment seq footer).knows other = (decide (other = seq) || r.knows other) := by
  unfold knows insertSegment PrefixIndex.insertSegment
  simp only [get?_insert]
  by_cases same : other = seq <;> simp [same]

variable {footer : SegmentFooter} {other bound : Nat}

lemma mem_resolved_insertSegment :
    other ∈ (replica.insertSegment seq footer).resolved ↔ other = seq ∨ other ∈ replica.resolved := by
  rw [mem_resolved,mem_resolved,knows_insertSegment]
  simp only [Bool.or_eq_true,decide_eq_true_eq,or_assoc]
  rfl

lemma lt_nextAfter_resolvedMax (mem : seq ∈ replica.resolved) :
    seq < nextAfter replica.resolvedMax := by
  unfold resolvedMax
  cases found : replica.resolved.max? with
  | none =>
    rw [max?_eq_none_iff] at found
    rw [found] at mem
    cases mem
  | some last =>
    have bound := (max?_eq_some_iff.mp found).2 seq mem
    exact Nat.lt_succ_of_le bound

lemma nextAfter_resolvedMax_le (below : ∀ seq ∈ replica.resolved, seq < bound) :
    nextAfter replica.resolvedMax ≤ bound := by
  unfold resolvedMax
  cases found : replica.resolved.max? with
  | none => exact Nat.zero_le _
  | some last => exact below last (max?_eq_some_iff.mp found).1

end Replica

/-! ### Bounds on every task -/

section

variable (next floor : Nat)

def RefreshPhase.Bounded : RefreshPhase → Prop
  | .probe seq _ => seq ≤ next
  | .absent seq => seq ≤ next
  | .floor seq read _ => seq ≤ next ∧ read ≤ next
  | .list found => ∀ listed ∈ found, listed.1 < next
  | .commit pending _ => ∀ listed ∈ pending, listed.1 < next

structure Refresh.Bounded (refresh : Refresh) : Prop where
  after : nextAfter refresh.after ≤ next
  phase : refresh.phase.Bounded next
  owner : ∀ seq, refresh.owner = .won seq → seq < next

def FlushPhase.Bounded : FlushPhase → Prop
  | .start | .refresh | .folded => True
  | .cursor listed => nextAfter listed ≤ next
  | .floor listed read _ => nextAfter listed ≤ next ∧ read ≤ next
  | .basing candidate _ _ => candidate ≤ next
  | .tail candidate _ _ _ _ => candidate ≤ next
  | .put candidate _ => candidate ≤ next
  | .answered candidate _ _ answer => candidate ≤ next ∧ (answer ≠ .unknown → candidate < next)

structure Flush.Bounded (flush : Flush) : Prop where
  phase : flush.phase.Bounded next
  wonByPeer : ∀ seq ∈ flush.wonByPeer, seq < next

def Job.Bounded (job : Job) : Prop := ∀ seq ∈ job.run, seq < next

def Maintain.Bounded : Maintain → Prop
  | .floors doomed _ _ => ∀ seq ∈ doomed, seq < next
  | .floorHeld doomed _ _ _ _ => ∀ seq ∈ doomed, seq < next
  | .retire _ seqs _ => ∀ seq ∈ seqs, seq < next
  | .deleting _ seqs left _ => (∀ seq ∈ seqs, seq < next) ∧ ∀ seq ∈ left, seq < floor
  | .hint job => job.Bounded next
  | .hintFloor job first => job.Bounded next ∧ first ≤ next
  | .put job candidate => job.Bounded next ∧ candidate ≤ next
  | .answered job candidate _ answer =>
    job.Bounded next ∧ candidate ≤ next ∧ (answer ≠ .unknown → candidate < next)
  | .refresh job => job.Bounded next
  | .folded job => job.Bounded next
  | .cursor job listed => job.Bounded next ∧ nextAfter listed ≤ next
  | .floor job listed read _ => job.Bounded next ∧ nextAfter listed ≤ next ∧ read ≤ next
  | .foldBelow job seq _ => job.Bounded next ∧ seq < next
  | .insert job seq _ => job.Bounded next ∧ seq < next

/-- Nothing a replica holds is beyond the names created so far, and what it is about to
delete is below the floor. -/
structure Bounded (replica : Replica) : Prop extends
    Tasks (Refresh.Bounded next) (Flush.Bounded next) (Maintain.Bounded next floor) replica where
  resolved : ∀ seq ∈ replica.resolved, seq < next
  certified : ∀ certified ∈ replica.seqFloor, certified.1 ≤ next
  hinted : ∀ seq ∈ replica.cachedSeq, seq ≤ next

end

lemma RefreshPhase.Bounded.mono (within : next ≤ wider) {phase : RefreshPhase}
    (bound : phase.Bounded next) : phase.Bounded wider := by
  cases phase with
  | probe | absent => exact le_trans bound within
  | floor seq read gen => exact ⟨le_trans bound.1 within,le_trans bound.2 within⟩
  | list | commit => exact fun listed mem => lt_of_lt_of_le (bound listed mem) within

lemma FlushPhase.Bounded.mono (within : next ≤ wider) (bound : phase.Bounded next) :
    phase.Bounded wider := by
  cases phase <;> simp only [FlushPhase.Bounded] at bound ⊢
  case answered candidate assigned footer answer =>
    exact ⟨le_trans bound.1 within,fun known => lt_of_lt_of_le (bound.2 known) within⟩
  all_goals omega

lemma Maintain.Bounded.mono {floor raised : Nat} (within : next ≤ wider) (higher : floor ≤ raised)
    (bound : task.Bounded next floor) : task.Bounded wider raised := by
  have names : ∀ {seqs : List Nat}, (∀ seq ∈ seqs, seq < next) → ∀ seq ∈ seqs, seq < wider :=
    fun below seq mem => lt_of_lt_of_le (below seq mem) within
  cases task <;> simp only [Maintain.Bounded,Job.Bounded] at bound ⊢
  case deleting expired seqs left affected =>
    exact ⟨names bound.1,fun seq mem => lt_of_lt_of_le (bound.2 seq mem) higher⟩
  case floors => exact names bound
  case floorHeld => exact names bound
  case retire => exact names bound
  case hint => exact names bound
  case refresh => exact names bound
  case folded => exact names bound
  case answered job candidate footer answer =>
    exact ⟨names bound.1,le_trans bound.2.1 within,
      fun known => lt_of_lt_of_le (bound.2.2 known) within⟩
  all_goals exact ⟨names bound.1,by omega⟩

variable {r : Replica}

lemma Bounded.mono {floor raised : Nat} (within : next ≤ wider) (higher : floor ≤ raised)
    (bound : Bounded next floor r) : Bounded wider raised r where
  toTasks := bound.imp (fun _ _ held => ⟨le_trans held.after within,held.phase.mono within,
      fun seq isOwner => lt_of_lt_of_le (held.owner seq isOwner) within⟩)
    (fun _ _ held => ⟨held.phase.mono within,
      fun seq won => lt_of_lt_of_le (held.wonByPeer seq won) within⟩)
    (fun _ _ held => held.mono within higher)
  resolved seq member := lt_of_lt_of_le (bound.resolved seq member) within
  certified certified member := le_trans (bound.certified certified member) within
  hinted seq member := le_trans (bound.hinted seq member) within

/-! ### Operations on the caches -/

lemma Maintain.Bounded.refreshed {floor : Nat} (bound : task.Bounded next floor) :
    task.refreshed.Bounded next floor := by
  cases task <;> exact bound

namespace Bounded

variable {floor : Nat} (bound : Bounded next floor replica)

include bound

variable {refresh : Refresh} {flush : Flush} {at' : RefreshPhase}

lemma setRefresh (held : refresh.Bounded next) :
    Bounded next floor (replica.setRefresh refresh) :=
  { bound with toTasks := bound.toTasks.setRefresh held }

lemma setFlush (held : phase.Bounded next) (won : ∀ seq ∈ flush.wonByPeer, seq < next) :
    Bounded next floor (replica.setFlush flush phase) :=
  { bound with toTasks := bound.toTasks.setFlush ⟨held,won⟩ }

lemma refreshAt (held : replica.refresh = some refresh)
    (phase : refresh.phase = at') : at'.Bounded next :=
  phase ▸ (bound.refresh refresh held).phase

lemma flushAt {at' : FlushPhase} (held : replica.flush = some flush) (phase : flush.phase = at') :
    at'.Bounded next :=
  phase ▸ (bound.flush flush held).phase

lemma endFlush : Bounded next floor replica.endFlush :=
  { bound with toTasks := bound.toTasks.endFlush }

lemma setMaintain (held : task.Bounded next floor) :
    Bounded next floor (replica.setMaintain task) :=
  { bound with toTasks := bound.toTasks.setMaintain held }

lemma endMaintain : Bounded next floor replica.endMaintain :=
  { bound with toTasks := bound.toTasks.endMaintain }

lemma insertSegment (below : seq < next) (footer : SegmentFooter) :
    Bounded next floor (replica.insertSegment seq footer) :=
  { bound with
    resolved := by
      intro other mem
      rcases Replica.mem_resolved_insertSegment.mp mem with same | before
      · exact same ▸ below
      · exact bound.resolved other before }

lemma addOpaque (below : seq < next) :
    Bounded next floor (replica.stepOver seq) :=
  { bound with
    resolved := by
      intro other mem
      rcases Replica.mem_resolved.mp mem with known | isOpaque
      · exact bound.resolved other (Replica.mem_resolved.mpr (.inl known))
      · rcases mem_cons.mp isOpaque with same | before
        · exact same ▸ below
        · exact bound.resolved other (Replica.mem_resolved.mpr (.inr before)) }

lemma certify {read : Nat} (below : read ≤ next) (generation : Nat) :
    Bounded next floor (replica.certify read generation) := by
  unfold Replica.certify
  split
  · exact
      { bound with
        certified := by
          rintro _ ⟨⟩
          exact below }
  · exact bound

lemma forgetFloor : Bounded next floor { replica with seqFloor := none } :=
  { bound with certified := nofun }

lemma setSeq (below : seq ≤ next) : Bounded next floor (replica.setSeq seq) :=
  { bound with
    hinted := by
      rintro _ ⟨⟩
      have hinted : replica.cachedSeq.getD 0 ≤ next := by
        cases found : replica.cachedSeq with
        | none => exact Nat.zero_le _
        | some held => exact bound.hinted held found
      exact max_le hinted below }

lemma setHighs (advances : List (Topition × Int)) : Bounded next floor (advances.foldl
      (fun replica (topition, high) => replica.setHigh topition high) replica) := by
  induction advances generalizing replica with
  | nil => exact bound
  | cons advance rest ih => exact ih { bound with }

lemma retain (keep : Nat → Bool) {opaqueSeqs : List Nat}
    (within : ∀ seq ∈ opaqueSeqs, seq ∈ replica.opaqueSeqs) (generation : Nat) :
    Bounded next floor { replica with
      index := replica.index.retainSegments keep
      opaqueSeqs
      generation } :=
  { bound with
    resolved := by
      intro other mem
      apply bound.resolved other
      rcases Replica.mem_resolved.mp mem with known | isOpaque
      · have before : replica.knows other = true := by
          unfold Replica.knows PrefixIndex.retainSegments at known
          simp only [get?_retain] at known
          split at known
          · exact known
          · cases known
        exact Replica.mem_resolved.mpr (.inl before)
      · exact Replica.mem_resolved.mpr (.inr (within other isOpaque)) }

lemma resume (owner : RefreshOwner) : Bounded next floor (replica.resume owner) := by
  have tasks := bound.toTasks.resume (fun (_ : owner = .flush) flush held =>
      ⟨trivial,(bound.flush flush held).wonByPeer⟩)
    (fun _ _ task held => (bound.maintain task held).refreshed)
  cases owner <;> exact { bound with toTasks := tasks }

lemma refreshFailed (owner : RefreshOwner) :
    Bounded next floor (replica.refreshFailed owner) := by
  have tasks := bound.toTasks.refreshFailed (fun seq (_ : owner = .won seq) task held =>
    (bound.maintain task held).refreshed)
  cases owner <;> exact { bound with toTasks := tasks }

end Bounded

/-! ### The world -/

/-- The names created are those below one bound, the floor is within it, and a created name
that is not live is below the floor. -/
structure Names (world : World) : Prop where
  contiguous : ∀ seq < world.next, seq ∈ world.names
  floor : world.floor ≤ world.next
  live : ∀ seq, world.isLive seq = true → seq ∈ world.names
  dead : ∀ seq ∈ world.names, world.isLive seq = false → seq < world.floor

variable {w : World}

lemma Names.lt_next (names : Names w) (live : w.isLive seq = true) : seq < w.next :=
  World.lt_next_of_mem (names.live seq live)

inductive Move (world : World) : World → Prop
  | quiet (nonces : Nat) (acks : List Ack) : Move world { world with nonces, acks }
  | create (record : Created) (free : world.isLive record.seq = false)
      (within : record.seq ≤ world.next) (floorAt : record.floorAt = world.floor) :
      Move world (world.create record)
  | delete (seq : Nat) (below : seq < world.floor) : Move world (world.delete seq)
  | raiseSeqFloor (floor : Nat) (within : floor ≤ world.next) :
      Move world (world.raiseSeqFloor floor)
  | raiseHigh (topition : Topition) (tail : Int) : Move world (world.raiseHigh topition tail)

lemma Move.still (world : World) : Move world world := Move.quiet world.nonces world.acks

namespace Move

variable {w after : World} (move : Move w after)

include move

lemma next_le : w.next ≤ after.next := by
  cases move with
  | create record => rw [World.next_create]; exact le_max_left _ _
  | _ => exact le_refl _

lemma floor_le : w.floor ≤ after.floor := by
  cases move with
  | raiseSeqFloor floor => exact le_max_left _ _
  | _ => exact le_refl _

lemma names (before : Names w) : Names after := by
  cases move with
  | quiet | raiseHigh => exact ⟨before.contiguous,before.floor,before.live,before.dead⟩
  | create record free within floorAt =>
    refine ⟨?_,?_,?_,?_⟩
    · intro seq below
      rw [World.next_create] at below
      rw [World.names_create,mem_append,mem_singleton]
      by_cases same : seq = record.seq
      · exact .inr same
      · exact .inl (before.contiguous seq (by omega))
    · rw [World.next_create]
      exact le_trans before.floor (le_max_left _ _)
    · intro seq live
      rw [World.names_create,mem_append,mem_singleton]
      rw [World.isLive_create] at live
      simp only [Bool.or_eq_true,decide_eq_true_eq] at live
      rcases live with same | earlier
      · exact .inr same
      · exact .inl (before.live seq earlier)
    · intro seq mem dead
      rw [World.isLive_create] at dead
      simp only [Bool.or_eq_false_iff,decide_eq_false_iff_not] at dead
      rw [World.names_create,mem_append,mem_singleton] at mem
      rcases mem with earlier | same
      · exact before.dead seq earlier dead.2
      · exact absurd same dead.1
  | delete deleted below =>
    refine ⟨before.contiguous,before.floor,?_,?_⟩
    · intro seq live
      rw [World.isLive_delete] at live
      simp only [Bool.and_eq_true] at live
      exact before.live seq live.2
    · intro seq mem dead
      by_cases same : seq = deleted
      · exact same ▸ below
      · rw [World.isLive_delete] at dead
        simp only [ne_eq,same,not_false_eq_true,decide_true,Bool.true_and] at dead
        exact before.dead seq mem dead
  | raiseSeqFloor floor within =>
    refine ⟨before.contiguous,max_le before.floor within,before.live,?_⟩
    intro seq mem dead
    exact lt_of_lt_of_le (before.dead seq mem dead) (le_max_left _ _)

/-- A name is created for the second time exactly when it is created below the floor. -/
lemma reuse (before : Names w)
    (fresh : w.names.Nodup ↔ ∀ record ∈ w.created, record.floorAt ≤ record.seq) :
    after.names.Nodup ↔ ∀ record ∈ after.created, record.floorAt ≤ record.seq := by
  cases move with
  | create record free within floorAt =>
    have again : record.seq ∈ w.names ↔ ¬ record.floorAt ≤ record.seq := by
      rw [floorAt,not_le]
      constructor
      · exact fun mem => before.dead record.seq mem free
      · exact fun below => before.contiguous record.seq (lt_of_lt_of_le below before.floor)
    have split : (w.create record).names.Nodup ↔
        w.names.Nodup ∧ record.seq ∉ w.names := by
      rw [World.names_create,nodup_append]
      simp only [nodup_singleton,true_and,mem_singleton,forall_eq]
      constructor
      · exact fun ⟨distinct,apart⟩ => ⟨distinct,fun mem => apart _ mem rfl⟩
      · exact fun ⟨distinct,absent⟩ =>
          ⟨distinct,fun seq mem same => absent (same ▸ mem)⟩
    have members : (∀ other ∈ (w.create record).created, other.floorAt ≤ other.seq) ↔
        (∀ other ∈ w.created, other.floorAt ≤ other.seq) ∧ record.floorAt ≤ record.seq := by
      simp only [World.create,mem_append,mem_singleton]
      constructor
      · exact fun all => ⟨fun other mem => all other (.inl mem),all record (.inr rfl)⟩
      · rintro ⟨earlier,last⟩ other (mem | rfl)
        · exact earlier other mem
        · exact last
    rw [split,members,fresh,again,not_not]
  | _ => exact fresh

end Move

/-! ### Steps -/

section

variable {w after : World} {r next : Replica} {act : Act} {footer : SegmentFooter}
  {start : Option Nat} {floor bound certified candidate nonce : Nat} {owner : RefreshOwner}
  {found : List (Nat × SegmentFooter)} {answer : Answer} {config : Config} {job : Job}

lemma Names.lt_next_of_get? (names : Names w)
    (found : w.live.get? seq = some footer) : seq < w.next :=
  names.lt_next (by rw [World.isLive,found]; rfl)

lemma Names.lt_next_of_listed {segment : Nat × SegmentFooter} (names : Names w)
    (listed : segment ∈ w.listAfter start) : segment.1 < w.next :=
  names.lt_next_of_get? (World.mem_listAfter.mp listed).1

lemma nextAfter_listAfter_le (names : Names w) (start : Option Nat) :
    nextAfter ((w.listAfter start).map Prod.fst).max? ≤ w.next := by
  cases found : ((w.listAfter start).map Prod.fst).max? with
  | none => exact Nat.zero_le _
  | some last =>
    obtain ⟨⟨seq,footer⟩,mem,rfl⟩ := mem_map.mp (max?_eq_some_iff.mp found).1
    exact names.lt_next_of_get? (World.mem_listAfter.mp mem).1

lemma awaited_bounded (bound : Bounded w.next floor r)
    (awaits : r.awaitsRefresh owner = true) (seq : Nat) (isWon : owner = .won seq) :
    seq < w.next := by
  subst isWon
  obtain ⟨task,held,waits⟩ := Option.any_eq_true _ _ |>.mp awaits
  have taskBound := bound.maintain task held
  cases task <;> simp only [Bool.false_eq_true,decide_eq_true_eq] at waits
  subst waits
  exact taskBound.2

lemma nextAfter_scanned_le
    (within : nextAfter start ≤ bound) (below : ∀ listed ∈ found, listed.1 < bound) :
    nextAfter (Replica.scanned start found) ≤ bound := by
  unfold Replica.scanned
  rw [nextAfter_max]
  refine max_le within ?_
  cases isMax : (found.map Prod.fst).max? with
  | none => exact Nat.zero_le _
  | some last =>
    obtain ⟨listed,mem,rfl⟩ := mem_map.mp (max?_eq_some_iff.mp isMax).1
    exact below listed mem

lemma settle_bounded (bound : Bounded w.next floor r) (refresh : Refresh) :
    Bounded w.next floor (r.settle refresh) := by
  apply Bounded.resume
  unfold Replica.reconciled
  split
  · exact bound.retain _ (fun _ mem => (mem_filter.mp mem).1) _
  · exact { bound with }

lemma refreshStep_bounded (names : Names w) (bound : Bounded w.next floor replica)
    (step : RefreshStep w replica act next) : Bounded w.next floor next := by
  have cursorBound := Replica.nextAfter_resolvedMax_le bound.resolved
  cases step with
  | startList reconcile idle awaits =>
    exact bound.setRefresh ⟨Nat.zero_le _,nofun,awaited_bounded bound awaits⟩
  | startProbe idle awaits isCursor =>
    rw [isCursor] at cursorBound
    exact bound.setRefresh ⟨cursorBound,cursorBound,awaited_bounded bound awaits⟩
  | relist relists held done =>
    have known := bound.refresh _ held
    exact bound.setRefresh ⟨known.after,nofun,known.owner⟩
  | probeFolds held phase isLive =>
    have known := bound.refresh _ held
    have below := names.lt_next_of_get? isLive
    exact (bound.insertSegment below _).setRefresh ⟨known.after,below,known.owner⟩
  | probeAbsent held phase absent =>
    have known := bound.refresh _ held
    have within := bound.refreshAt held phase
    exact bound.setRefresh ⟨known.after,within,known.owner⟩
  | readsFloor held phase =>
    have known := bound.refresh _ held
    have within := bound.refreshAt held phase
    exact bound.setRefresh ⟨known.after,⟨within,names.floor⟩,known.owner⟩
  | floorAhead held phase ahead =>
    have known := bound.refresh _ held
    have within := bound.refreshAt held phase
    exact (bound.certify within.2 _).setRefresh ⟨known.after,nofun,known.owner⟩
  | floorProves held phase behind =>
    have within := bound.refreshAt held phase
    exact (bound.certify within.2 _).resume _
  | pages held phase isNext =>
    have known := bound.refresh _ held
    have within := bound.refreshAt held phase
    refine bound.setRefresh ⟨known.after,?_,known.owner⟩
    intro listed mem
    rcases mem_append.mp mem with earlier | last
    · exact within listed earlier
    · rw [mem_singleton.mp last]
      exact names.lt_next_of_listed (mem_of_mem_head? isNext)
  | lists held phase done =>
    have known := bound.refresh _ held
    have within := bound.refreshAt held phase
    exact bound.setRefresh ⟨nextAfter_scanned_le known.after within,
      fun listed mem => within listed (mem_filter.mp mem).1,known.owner⟩
  | commits held phase =>
    have known := bound.refresh _ held
    have within := bound.refreshAt held phase
    exact (bound.insertSegment (within _ (.head _)) _).setRefresh
      ⟨known.after,fun listed mem => within listed (.tail _ mem),known.owner⟩
  | vanishes held phase | stepsOver held phase =>
    have known := bound.refresh _ held
    have within := bound.refreshAt held phase
    exact (bound.addOpaque (within _ (.head _))).setRefresh
      ⟨known.after,fun listed mem => within listed (.tail _ mem),known.owner⟩
  | settles held phase => exact settle_bounded bound _
  | fails | cancels => exact bound.refreshFailed _

lemma certifiedSeqFloor_le (bound : Bounded w.next floor r)
    (found : r.certifiedSeqFloor = some certified) : certified ≤ w.next := by
  unfold Replica.certifiedSeqFloor at found
  split at found
  · rename_i held gen isHeld
    split at found
    · cases found
      exact bound.certified _ isHeld
    · cases found
  · cases found

lemma settled_lt_next (names : Names w) (known : answer ≠ .unknown → candidate < w.next)
    (settled : w.Mine candidate nonce answer ∨ w.Theirs candidate nonce answer) :
    candidate < w.next := by
  rcases settled with (isWon | ⟨-,found,isFound,-⟩) | (isTaken | ⟨-,found,isFound,-⟩)
  · exact known (by simp [isWon])
  · exact names.lt_next_of_get? isFound
  · exact known (by simp [isTaken])
  · exact names.lt_next_of_get? isFound

lemma missed_lt_next (names : Names w) (missed : w.Missed candidate answer)
    (known : answer ≠ .unknown) : candidate < w.next := by
  rcases missed with ⟨-,isLive⟩ | isUnknown
  · exact names.lt_next isLive
  · exact absurd isUnknown known

lemma create_bounded (bound : Bounded w.next w.floor r) (record : Created)
    (free : w.isLive record.seq = false) (within : record.seq ≤ w.next)
    (floorAt : record.floorAt = w.floor) :
    Move w (w.create record) ∧
      Bounded (w.create record).next (w.create record).floor r ∧
      record.seq < (w.create record).next := by
  have move := Move.create record free within floorAt
  refine ⟨move,bound.mono move.next_le move.floor_le,?_⟩
  rw [World.next_create]
  exact lt_of_lt_of_le (Nat.lt_succ_self _) (le_max_right _ _)

lemma finalize_bounded (bound : Bounded w.next floor r)
    (below : candidate < w.next) (footer : SegmentFooter) (assigned : Assigned) :
    Bounded w.next floor (r.finalize w candidate footer assigned).2 :=
  (((bound.setSeq below).insertSegment below footer).setHighs assigned.advances).endFlush

lemma flushStep_move (names : Names w) (bound : Bounded w.next w.floor replica)
    (step : FlushStep config w replica act after next) :
    Move w after ∧ Bounded after.next after.floor next := by
  have untaken : ∀ seq ∈ (none : Option Nat), seq < w.next := nofun
  cases step with
  | @begins pending idle =>
    have begun : Bounded w.next w.floor
        (replica.setFlush { nonce := w.nonces, pending } .start) :=
      bound.setFlush trivial untaken
    exact ⟨Move.quiet _ _,begun⟩
  | ends held awake => exact ⟨Move.still w,bound.endFlush⟩
  | awaits held phase => exact ⟨Move.still w,bound.setFlush trivial untaken⟩
  | folds held phase isPeer isLive =>
    have below := names.lt_next_of_get? isLive
    exact ⟨Move.still w,(bound.insertSegment below _).setFlush trivial untaken⟩
  | takesCursor held phase =>
    exact ⟨Move.still w,bound.setFlush
      (Replica.nextAfter_resolvedMax_le bound.resolved) (bound.flush _ held).wonByPeer⟩
  | certified held phase isCertified =>
    have within := bound.flushAt held phase
    exact ⟨Move.still w,bound.setFlush
      (max_le within (certifiedSeqFloor_le bound isCertified)) (bound.flush _ held).wonByPeer⟩
  | readsFloor held phase =>
    have within := bound.flushAt held phase
    exact ⟨Move.still w,bound.setFlush ⟨within,names.floor⟩ (bound.flush _ held).wonByPeer⟩
  | derives held phase =>
    have within := bound.flushAt held phase
    exact ⟨Move.still w,(bound.certify within.2 _).setFlush (max_le within.1 within.2)
      (bound.flush _ held).wonByPeer⟩
  | takesTail held phase | bases held phase | readies held phase =>
    have within := bound.flushAt held phase
    exact ⟨Move.still w,bound.setFlush within (bound.flush _ held).wonByPeer⟩
  | answers held phase isEmpty => exact ⟨Move.quiet _ _,bound.endFlush⟩
  | @creates flush resp candidate assigned object footer answer held phase encoded free =>
    obtain ⟨move,wider,created⟩ := create_bounded bound
      ⟨candidate,w.floor,true,assigned.writes,footer⟩ free
      (bound.flushAt held phase) rfl
    exact ⟨move,wider.setFlush ⟨created.le,fun _ => created⟩ (wider.flush _ held).wonByPeer⟩
  | misses held phase encoded missed =>
    have within := bound.flushAt held phase
    exact ⟨Move.still w,bound.setFlush ⟨within,missed_lt_next names missed⟩
      (bound.flush _ held).wonByPeer⟩
  | wins held phase mine =>
    have within := bound.flushAt held phase
    have below := settled_lt_next names within.2 (.inl mine)
    exact ⟨Move.quiet _ _,finalize_bounded bound below _ _⟩
  | loses held phase theirs =>
    have within := bound.flushAt held phase
    refine ⟨Move.still w,bound.setFlush trivial ?_⟩
    rintro _ ⟨⟩
    exact settled_lt_next names within.2 (.inr theirs)

lemma jobWon_bounded (bound : Bounded w.next floor replica)
    (held : job.Bounded w.next) (below : seq < w.next) (footer : SegmentFooter) :
    Bounded w.next floor (replica.jobWon job seq footer) := by
  unfold Replica.jobWon
  simp only
  split
  · exact (bound.setSeq below).setMaintain ⟨held,below⟩
  · exact (bound.setSeq below).setMaintain ⟨held,below⟩

lemma known_lt_next (bound : Bounded w.next floor replica) {seqs : List Nat}
    (known : ∀ seq ∈ seqs, replica.knows seq = true) : ∀ seq ∈ seqs, seq < w.next :=
  fun seq mem => bound.resolved seq (Replica.mem_resolved.mpr (.inl (known seq mem)))

lemma maintainStep_move (names : Names w) (bound : Bounded w.next w.floor replica)
    (step : MaintainStep config w replica act after next) :
    Move w after ∧ Bounded after.next after.floor next := by
  cases step with
  | ends | halts => exact ⟨Move.still w,bound.endMaintain⟩
  | expires _ known
  | drops _ known => exact ⟨Move.still w,bound.setMaintain (known_lt_next bound known)⟩
  | merges idle known pinned =>
    exact ⟨Move.quiet _ _,bound.setMaintain (known_lt_next bound known)⟩
  | floorsDone held | floorsSkip held | floorsTake held | floorFailed held =>
    have within := bound.maintain _ held
    exact ⟨Move.still w,bound.setMaintain within⟩
  | floorRaised held =>
    have within := bound.maintain _ held
    exact ⟨Move.raiseHigh _ _,bound.setMaintain within⟩
  | @retires expired seqs affected last certified held isLast forgotten =>
    obtain ⟨isMember,greatest⟩ := max?_eq_some_iff.mp isLast
    have within := bound.maintain _ held
    have move := Move.raiseSeqFloor (last + 1) (within last isMember)
    have raised : Bounded w.next (w.raiseSeqFloor (last + 1)).floor replica :=
      bound.mono move.next_le move.floor_le
    have below : ∀ seq ∈ seqs, seq < (w.raiseSeqFloor (last + 1)).floor := fun seq mem =>
      lt_of_le_of_lt (greatest seq mem) (le_max_right w.floor (last + 1))
    refine ⟨move,Bounded.setMaintain ?_ ⟨within,below⟩⟩
    rcases forgotten with rfl | rfl
    · exact raised.forgetFloor
    · exact raised
  | retireLost held isLast =>
    have within := bound.maintain _ held
    have move := Move.raiseSeqFloor _ (within _ (max?_eq_some_iff.mp isLast).1)
    exact ⟨move,(bound.mono move.next_le move.floor_le).endMaintain⟩
  | deletes held =>
    obtain ⟨within,below⟩ := bound.maintain _ held
    exact ⟨Move.delete _ (below _ (.head _)),bound.setMaintain
      ⟨within,fun other mem => below other (.tail _ mem)⟩⟩
  | deleteLost held =>
    obtain ⟨-,below⟩ := bound.maintain _ held
    exact ⟨Move.delete _ (below _ (.head _)),bound.endMaintain⟩
  | @prunes expired seqs affected cachedHigh held =>
    have pruned := bound.retain (fun seq => !seqs.contains seq)
      (fun seq (mem : seq ∈ replica.opaqueSeqs) => mem) (replica.generation + 1)
    exact ⟨Move.still w,{ pruned.endMaintain with }⟩
  | hints held isFirst =>
    refine ⟨Move.still w,bound.setMaintain ⟨bound.maintain _ held,?_⟩⟩
    rcases isFirst with hinted | rfl
    · exact bound.hinted _ hinted
    · exact nextAfter_listAfter_le names none
  | hintFloors held =>
    obtain ⟨within,first⟩ := bound.maintain _ held
    exact ⟨Move.still w,bound.setMaintain ⟨within,max_le first names.floor⟩⟩
  | @creates resp job candidate object footer answer held encoded free =>
    obtain ⟨within,candidateBound⟩ := bound.maintain _ held
    obtain ⟨move,wider,created⟩ := create_bounded bound
      ⟨candidate,w.floor,false,job.writes,footer⟩ free candidateBound rfl
    exact ⟨move,wider.setMaintain ⟨(wider.maintain _ held).1,created.le,fun _ => created⟩⟩
  | misses held encoded missed =>
    obtain ⟨within,candidateBound⟩ := bound.maintain _ held
    exact ⟨Move.still w,bound.setMaintain ⟨within,candidateBound,missed_lt_next names missed⟩⟩
  | wins held mine =>
    obtain ⟨within,-,known⟩ := bound.maintain _ held
    exact ⟨Move.still w,
      jobWon_bounded bound within (settled_lt_next names known (.inl mine)) _⟩
  | loses held theirs => exact ⟨Move.still w,bound.setMaintain (bound.maintain _ held).1⟩
  | takesCursor held =>
    exact ⟨Move.still w,bound.setMaintain
      ⟨bound.maintain _ held,Replica.nextAfter_resolvedMax_le bound.resolved⟩⟩
  | certified held isCertified =>
    obtain ⟨within,cursor⟩ := bound.maintain _ held
    exact ⟨Move.still w,
      bound.setMaintain ⟨within,max_le cursor (certifiedSeqFloor_le bound isCertified)⟩⟩
  | readsFloor held =>
    obtain ⟨within,cursor⟩ := bound.maintain _ held
    exact ⟨Move.still w,bound.setMaintain ⟨within,cursor,names.floor⟩⟩
  | derives held =>
    obtain ⟨within,cursor,read⟩ := bound.maintain _ held
    exact ⟨Move.still w,(bound.certify read _).setMaintain ⟨within,max_le cursor read⟩⟩
  | inserts held =>
    obtain ⟨within,below⟩ := bound.maintain _ held
    exact ⟨Move.still w,(bound.insertSegment below _).setMaintain within⟩

lemma bounded_init (next floor : Nat) : Bounded next floor {} := by
  refine ⟨Tasks.idle _ _ _ _ _ _,?_,?_,?_⟩ <;> intro _ impossible <;> cases impossible

lemma readStep_bounded (bound : Bounded w.next w.floor r) (step : ReadStep w r act next) :
    Bounded w.next w.floor next := by
  cases step with
  | vanishes known absent => exact { bound with }
  | @prunes seqs gone =>
    exact bound.retain (fun seq => !seqs.contains seq) (fun seq (mem : seq ∈ r.opaqueSeqs) => mem)
      (r.generation + 1)

lemma step_move (names : Names w) (bound : Bounded w.next w.floor r)
    (step : Step config w r act after next) :
    Move w after ∧ Bounded after.next after.floor next := by
  cases step with
  | refresh step => exact ⟨Move.still w,refreshStep_bounded names bound step⟩
  | flush step => exact flushStep_move names bound step
  | maintain step => exact maintainStep_move names bound step
  | read step => exact ⟨Move.still w,readStep_bounded bound step⟩
  | restart => exact ⟨Move.still w,bounded_init _ _⟩

end

/-! ### Runs -/

section

variable {guard : World → Replica → Act → Prop}

lemma names_init (undecodable : Nat → Bool) : Names { undecodable } where
  contiguous _ below := absurd below (Nat.not_lt_zero _)
  floor := Nat.zero_le _
  live _ isLive := by cases isLive
  dead _ member := by cases member

variable {config : Config} {state : State}

lemma reachable_names (reached : Reachable config guard state) :
    Parties.Holds Names (fun w => Bounded w.next w.floor) state := by
  refine Parties.invariant ⟨names_init _,bounded_init _ _⟩ ?_ ?_ reached
  · intro before after party next act names bound _ acted
    obtain ⟨move,bounds⟩ := step_move names bound (act_step acted)
    exact ⟨move.names names,bounds⟩
  · intro before after party next other act names bound otherBounded _ acted
    obtain ⟨move,-⟩ := step_move names bound (act_step acted)
    exact otherBounded.mono move.next_le move.floor_le

lemma names_known : Parties.Known (replicas config) guard Names
    (fun w => Bounded w.next w.floor) (fun _ _ => True) :=
  fun _ reached => ⟨reachable_names reached,fun _ _ _ => trivial⟩

end

/-- In every run, no name was created twice exactly when no segment was created below the
floor of that moment. -/
theorem names_distinct_iff {config : Config} {state : State}
    (reached : Reachable config (fun _ _ _ => True) state) :
    state.world.names.Nodup ↔ ∀ record ∈ state.world.created, record.floorAt ≤ record.seq := by
  have holds : Parties.Holds (fun world => world.names.Nodup ↔
      ∀ record ∈ world.created, record.floorAt ≤ record.seq) (fun _ _ => True) state := by
    refine Parties.invariant_over names_known ⟨?_,trivial⟩ ?_ ?_ reached
    · exact iff_of_true nodup_nil (forall_mem_nil _)
    · intro before after party next action names bounded _ fresh _ _ acted
      exact ⟨(step_move names bounded (act_step acted)).1.reuse names fresh,trivial⟩
    · intros
      trivial
  exact holds.1

/-! ### Two replicas and a name -/

def namedPins : Pins where
  substream topition := .name topition.topic
  named _ := rfl
  injective {left right} same := by
    cases left
    cases right
    simp_all

def namedConfig : Config := { pins := namedPins, era := 0, segmentFormatVersion := 1 }

def orders : Topition := ⟨"orders", 0⟩

def plainBatch : Batch :=
  { baseOffset := 0, batchLength := 50, partitionLeaderEpoch := 0, crc := 0, attributes := 0,
    lastOffsetDelta := 0, baseTimestamp := 0, maxTimestamp := 0, producerId := -1,
    producerEpoch := -1, baseSequence := -1, recordCount := 1, recordData := [0] }

/-- A flush of one topition up to its PUT, by a replica that has resolved nothing while the
prefix has so many segments. -/
def flushToPut (party : Nat) (batch : Batch) (segments : Nat) : List (Nat × Act) :=
  [(party, .startFlush [⟨orders, batch⟩]), (party, .flush .ok),
    (party, .startRefresh .flush false), (party, .refresh .ok)] ++
  List.replicate (2 * segments + 1) (party, .refresh .ok) ++ List.replicate 6 (party, .flush .ok)

def flushPut (party : Nat) : List (Nat × Act) := List.replicate 2 (party, .flush .ok)

def expireOne (party seq : Nat) : List (Nat × Act) :=
  (party, .expire [seq]) :: List.replicate 6 (party, .maintain .ok)

/-- Two replicas derive name 0; the second creates it and expires it before the first one's
PUT. -/
def staleCandidate : List (Nat × Act) :=
  flushToPut 0 plainBatch 0 ++ flushToPut 1 plainBatch 0 ++ flushPut 1 ++ expireOne 1 0 ++
    flushPut 0

theorem staleCandidate_reuses_name :
    ∃ state, Reachable namedConfig (fun _ _ _ => True) state ∧ ¬ state.world.names.Nodup := by
  have ended : (ran namedConfig (fun _ _ _ => true) staleCandidate).map
      (fun state => state.world.names) = some [0, 0] := by decide +kernel
  obtain ⟨state,reached,names⟩ := ran_reachable (fun _ => trivial) ended
  refine ⟨state,reached,?_⟩
  rw [names]
  decide

theorem names_distinct_iff_twoFlushes :
    ∃ state, Reachable namedConfig (fun _ _ _ => True) state ∧ state.world.names = [0, 1] ∧
      ∀ record ∈ state.world.created, record.floorAt ≤ record.seq := by
  have ended : (ran namedConfig (fun _ _ _ => true)
      (flushToPut 0 plainBatch 0 ++ flushPut 0 ++ flushToPut 1 plainBatch 1 ++ flushPut 1)).map
      (fun state => state.world.names) = some [0, 1] := by decide +kernel
  obtain ⟨state,reached,names⟩ := ran_reachable (fun _ => trivial) ended
  refine ⟨state,reached,names,(names_distinct_iff reached).mp ?_⟩
  rw [names]
  decide

end Kodansu.Leaseless

/-
Facts about each task of a replica, and how they follow its tasks from phase to phase.
-/

import Kodansu.Leaseless.Step

namespace Kodansu.Leaseless

open Index Lib Segment Option

/-- A fact about the refresh, the flush and the maintenance a replica has under way. -/
structure Tasks (ofRefresh : Refresh → Prop) (ofFlush : Flush → Prop) (ofMaintain : Maintain → Prop)
    (replica : Replica) : Prop where
  refresh : ∀ refresh ∈ replica.refresh, ofRefresh refresh
  flush : ∀ flush ∈ replica.flush, ofFlush flush
  maintain : ∀ task ∈ replica.maintain, ofMaintain task

section

variable (r : Replica) (floor gen : Nat)

include r floor gen

@[simp] lemma certify_refresh : (r.certify floor gen).refresh = r.refresh := by
  unfold Replica.certify
  split <;> rfl

@[simp] lemma certify_flush : (r.certify floor gen).flush = r.flush := by
  unfold Replica.certify
  split <;> rfl

@[simp] lemma certify_maintain :
    (r.certify floor gen).maintain = r.maintain := by
  unfold Replica.certify
  split <;> rfl

@[simp] lemma certify_index : (r.certify floor gen).index = r.index := by
  unfold Replica.certify
  split <;> rfl

@[simp] lemma certify_vanished : (r.certify floor gen).vanished = r.vanished := by
  unfold Replica.certify
  split <;> rfl

@[simp] lemma certify_opaqueSeqs :
    (r.certify floor gen).opaqueSeqs = r.opaqueSeqs := by
  unfold Replica.certify
  split <;> rfl

end

lemma setHighs_same (advances : List (Topition × Int)) (r : Replica) :
    ∃ cachedHigh, advances.foldl (fun r (tp, high) => r.setHigh tp high)
      r = { r with cachedHigh } := by
  induction advances generalizing r with
  | nil => exact ⟨r.cachedHigh,rfl⟩
  | cons advance rest ih =>
    obtain ⟨cachedHigh,same⟩ := ih (r.setHigh advance.1 advance.2)
    exact ⟨cachedHigh,same⟩

lemma finalize_same (w : World) (r : Replica) (candidate : Nat)
    (footer : SegmentFooter) (assigned : Assigned) :
    ∃ cachedSeq cachedHigh, (r.finalize w candidate footer assigned).2 =
      { (r.insertSegment candidate footer).endFlush with cachedSeq, cachedHigh } := by
  obtain ⟨cachedHigh,same⟩ := setHighs_same assigned.advances
    ((r.setSeq (candidate + 1)).insertSegment candidate footer)
  refine ⟨some (max (r.cachedSeq.getD 0) (candidate + 1)),cachedHigh,?_⟩
  simp only [Replica.finalize]
  rw [same]
  rfl

lemma reconciled_same (r : Replica) (refresh : Refresh) :
    r.reconciled refresh = r ∨
      ∃ listedMax, refresh.reconcile = true ∧ refresh.listed.max? = some listedMax ∧
        r.reconciled refresh = { r with
          index := r.index.retainSegments
            (fun seq => decide (listedMax ≤ seq) || refresh.listed.contains seq)
          opaqueSeqs := r.opaqueSeqs.filter
            (fun seq => decide (listedMax ≤ seq) || refresh.listed.contains seq) } := by
  unfold Replica.reconciled
  split
  · next listedMax isReconcile isMax => exact .inr ⟨listedMax,isReconcile,isMax,rfl⟩
  · exact .inl rfl

namespace Tasks

variable {ofRefresh : Refresh → Prop} {ofFlush : Flush → Prop} {ofMaintain : Maintain → Prop}

lemma idle (index : PrefixIndex) (opaqueSeqs : List Nat) (generation : Nat)
    (seqFloor : Option (Nat × Nat)) (cachedSeq : Option Nat) (cachedHigh : Topition → Int) :
    Tasks ofRefresh ofFlush ofMaintain
      { index, opaqueSeqs, generation, seqFloor, cachedSeq, cachedHigh } :=
  ⟨nofun,nofun,nofun⟩

section

variable {replica : Replica} (tasks : Tasks ofRefresh ofFlush ofMaintain replica)

include tasks

variable {onRefresh : Refresh → Prop} {onFlush : Flush → Prop} {onMaintain : Maintain → Prop}
  {moved : Replica} {phase : FlushPhase} {task : Maintain} {owner : RefreshOwner}

lemma imp (refreshes : ∀ refresh ∈ replica.refresh, ofRefresh refresh → onRefresh refresh)
    (flushes : ∀ flush ∈ replica.flush, ofFlush flush → onFlush flush)
    (maintains : ∀ task ∈ replica.maintain, ofMaintain task → onMaintain task) :
    Tasks onRefresh onFlush onMaintain replica :=
  ⟨fun refresh held => refreshes refresh held (tasks.refresh refresh held),
    fun flush held => flushes flush held (tasks.flush flush held),
    fun task held => maintains task held (tasks.maintain task held)⟩

lemma of_same (refresh : moved.refresh = replica.refresh)
    (flush : moved.flush = replica.flush) (maintain : moved.maintain = replica.maintain) :
    Tasks ofRefresh ofFlush ofMaintain moved :=
  ⟨refresh ▸ tasks.refresh,flush ▸ tasks.flush,maintain ▸ tasks.maintain⟩

lemma setRefresh {refresh : Refresh} (moved : ofRefresh refresh) :
    Tasks ofRefresh ofFlush ofMaintain (replica.setRefresh refresh) := by
  refine ⟨?_,tasks.flush,tasks.maintain⟩
  rintro _ ⟨⟩
  exact moved

lemma setFlush {flush : Flush} (moved : ofFlush { flush with phase }) :
    Tasks ofRefresh ofFlush ofMaintain (replica.setFlush flush phase) := by
  refine ⟨tasks.refresh,?_,tasks.maintain⟩
  rintro _ ⟨⟩
  exact moved

lemma setMaintain (moved : ofMaintain task) :
    Tasks ofRefresh ofFlush ofMaintain (replica.setMaintain task) := by
  refine ⟨tasks.refresh,tasks.flush,?_⟩
  rintro _ ⟨⟩
  exact moved

lemma endRefresh : Tasks ofRefresh ofFlush ofMaintain { replica with refresh := none } :=
  ⟨nofun,tasks.flush,tasks.maintain⟩

lemma endFlush : Tasks ofRefresh ofFlush ofMaintain replica.endFlush :=
  ⟨tasks.refresh,nofun,tasks.maintain⟩

lemma endMaintain : Tasks ofRefresh ofFlush ofMaintain replica.endMaintain :=
  ⟨tasks.refresh,tasks.flush,nofun⟩

lemma certify (floor generation : Nat) :
    Tasks ofRefresh ofFlush ofMaintain (replica.certify floor generation) :=
  tasks.of_same (certify_refresh _ _ _) (certify_flush _ _ _) (certify_maintain _ _ _)

lemma resume
    (flushes : owner = .flush → ∀ flush ∈ replica.flush, ofFlush { flush with phase := .folded })
    (maintains : owner ≠ .reader → owner ≠ .flush →
      ∀ task ∈ replica.maintain, ofMaintain task.refreshed) :
    Tasks ofRefresh ofFlush ofMaintain (replica.resume owner) := by
  have refreshed : owner ≠ .reader → owner ≠ .flush → Tasks ofRefresh ofFlush ofMaintain
      { replica with refresh := none, maintain := replica.maintain.map Maintain.refreshed } := by
    intro notReader notFlush
    refine ⟨nofun,tasks.flush,?_⟩
    intro task mem
    obtain ⟨before,held,rfl⟩ := map_eq_some_iff.mp mem
    exact maintains notReader notFlush before held
  cases owner with
  | reader => exact tasks.endRefresh
  | flush =>
    refine ⟨nofun,?_,tasks.maintain⟩
    intro flush mem
    obtain ⟨before,held,rfl⟩ := map_eq_some_iff.mp mem
    exact flushes rfl before held
  | claim | won => exact refreshed nofun nofun

lemma refreshFailed
    (maintains : ∀ seq, owner = .won seq → ∀ task ∈ replica.maintain, ofMaintain task.refreshed) :
    Tasks ofRefresh ofFlush ofMaintain (replica.refreshFailed owner) := by
  cases owner with
  | reader => exact tasks.endRefresh
  | flush => exact tasks.endRefresh.endFlush
  | claim => exact tasks.endRefresh.endMaintain
  | won seq =>
    change Tasks ofRefresh ofFlush ofMaintain (replica.resume (.won seq))
    exact tasks.resume nofun (fun _ _ => maintains seq rfl)

end

end Tasks

/-! ### A refresh and the task that waits for it -/

def Awaited (replica : Replica) : Prop :=
  ∀ refresh ∈ replica.refresh, replica.awaitsRefresh refresh.owner = true

section

variable {act : Act}

section

variable {r : Replica} (awaited : Awaited r)

include awaited

variable {refresh moved : Refresh} {task : Maintain} {next : Replica}

lemma Awaited.flushing (held : r.refresh = some refresh)
    (isOwner : refresh.owner = .flush) : ∀ flush ∈ r.flush, flush.phase = .refresh := by
  intro flush isFlush
  have waits := awaited refresh held
  rw [isOwner] at waits
  rw [mem_def] at isFlush
  simp only [Replica.awaitsRefresh,isFlush,any_some] at waits
  split at waits
  · assumption
  · cases waits

lemma Awaited.maintaining
    (held : r.refresh = some refresh) (isTask : r.maintain = some task)
    (awake : task.awaits = false) : refresh.owner = .reader ∨ refresh.owner = .flush := by
  have waits := awaited refresh held
  cases isOwner : refresh.owner with
  | reader => exact .inl rfl
  | flush => exact .inr rfl
  | claim | won =>
    simp only [Replica.awaitsRefresh,isTask,any_some] at waits
    cases task <;> simp_all [Maintain.awaits]

lemma Awaited.of_same (refresh : next.refresh = r.refresh)
    (flush : next.flush = r.flush) (maintain : next.maintain = r.maintain) :
    Awaited next := by
  intro held isHeld
  have waits := awaited held (refresh ▸ isHeld)
  cases isOwner : held.owner <;> rw [isOwner] at waits <;>
    simp only [Replica.awaitsRefresh,flush,maintain] at waits ⊢ <;> exact waits

lemma Awaited.setRefresh (held : r.refresh = some refresh)
    (same : moved.owner = refresh.owner) : Awaited (r.setRefresh moved) := by
  rintro _ ⟨⟩
  have waits := awaited refresh held
  rw [← same] at waits
  cases isOwner : moved.owner <;> rw [isOwner] at waits <;> exact waits

lemma Awaited.flush_moves (awake : ∀ flush ∈ r.flush, flush.phase ≠ .refresh)
    (refresh : next.refresh = r.refresh) (maintain : next.maintain = r.maintain) :
    Awaited next := by
  intro held isHeld
  rw [refresh] at isHeld
  have waits := awaited held isHeld
  cases isOwner : held.owner with
  | reader => rfl
  | flush =>
    rw [isOwner] at waits
    obtain ⟨flush,isFlush,-⟩ := any_eq_true _ _ |>.mp waits
    exact absurd (awaited.flushing isHeld isOwner flush isFlush) (awake flush isFlush)
  | claim | won =>
    rw [isOwner] at waits
    simpa only [Replica.awaitsRefresh,maintain] using waits

lemma Awaited.maintain_moves
    (free : ∀ refresh ∈ r.refresh, refresh.owner = .reader ∨ refresh.owner = .flush)
    (refresh : next.refresh = r.refresh) (flush : next.flush = r.flush) :
    Awaited next := by
  intro held isHeld
  rw [refresh] at isHeld
  have waits := awaited held isHeld
  rcases free held isHeld with isReader | isFlush
  · rw [isReader]
    rfl
  · rw [isFlush] at waits ⊢
    simpa only [Replica.awaitsRefresh,flush] using waits

end

variable {next r : Replica} {w after : World} {config : Config} {state : State}

lemma Awaited.refresh_ends (refresh : next.refresh = none) : Awaited next := by
  intro held isHeld
  rw [refresh] at isHeld
  cases isHeld

lemma resume_refresh (r : Replica) (owner : RefreshOwner) :
    (r.resume owner).refresh = none := by
  cases owner <;> rfl

lemma refreshFailed_refresh (r : Replica) (owner : RefreshOwner) :
    (r.refreshFailed owner).refresh = none := by
  cases owner <;> rfl

lemma refreshStep_awaited (awaited : Awaited r)
    (step : RefreshStep w r act next) : Awaited next := by
  have inserted : ∀ seq footer, Awaited (r.insertSegment seq footer) :=
    fun _ _ => awaited.of_same rfl rfl rfl
  have certified : ∀ floor gen, Awaited (r.certify floor gen) :=
    fun _ _ => awaited.of_same (certify_refresh _ _ _) (certify_flush _ _ _) (certify_maintain _ _ _)
  cases step with
  | startList _ _ awaits | startProbe _ awaits =>
    rintro _ ⟨⟩
    exact awaits
  | relist _ held | probeAbsent held | readsFloor held | pages held
  | lists held => exact awaited.setRefresh held rfl
  | probeFolds held | commits held => exact (inserted _ _).setRefresh held rfl
  | floorAhead held phase ahead =>
    exact (certified _ _).setRefresh ((certify_refresh _ _ _).trans held) rfl
  | floorProves | settles => exact Awaited.refresh_ends (resume_refresh _ _)
  | vanishes held | stepsOver held =>
    have added : ∀ seq, Awaited (r.stepOver seq) := fun _ => awaited.of_same rfl rfl rfl
    exact (added _).setRefresh held rfl
  | fails | cancels => exact Awaited.refresh_ends (refreshFailed_refresh _ _)

lemma flushStep_awaited (awaited : Awaited r)
    (step : FlushStep config w r act after next) : Awaited next := by
  have awake : ∀ {flush : Flush}, r.flush = some flush → flush.phase ≠ .refresh →
      ∀ other ∈ r.flush, other.phase ≠ .refresh := by
    intro flush held notRefresh other isOther
    cases held.symm.trans isOther
    exact notRefresh
  cases step with
  | begins idle =>
    refine awaited.flush_moves ?_ rfl rfl
    intro flush isFlush
    cases idle.symm.trans isFlush
  | ends held phase => exact awaited.flush_moves (awake held phase) rfl rfl
  | awaits held phase | folds held phase | takesCursor held phase | certified held phase
  | readsFloor held phase | takesTail held phase | bases held phase | answers held phase
  | readies held phase | creates held phase | misses held phase
  | loses held phase => exact awaited.flush_moves (awake held (by simp [phase])) rfl rfl
  | derives held phase =>
    exact awaited.flush_moves (awake held (by simp [phase])) (certify_refresh _ _ _)
      (certify_maintain _ _ _)
  | wins held phase mine =>
    obtain ⟨cachedSeq,cachedHigh,same⟩ := finalize_same w r _ _ _
    rw [same]
    exact awaited.flush_moves (awake held (by simp [phase])) rfl rfl

lemma maintainStep_free (awaited : Awaited r)
    (step : MaintainStep config w r act after next) :
    ∀ refresh ∈ r.refresh, refresh.owner = .reader ∨ refresh.owner = .flush := by
  intro refresh isRefresh
  have idly : r.maintain = none → refresh.owner = .reader ∨ refresh.owner = .flush := by
    intro idle
    have waits := awaited refresh isRefresh
    cases isOwner : refresh.owner <;> simp_all [Replica.awaitsRefresh]
  cases step with
  | ends held awake => exact awaited.maintaining isRefresh held awake
  | halts free => exact free refresh isRefresh
  | expires idle | drops idle | merges idle => exact idly idle
  | floorsDone held | floorsSkip held | floorsTake held | floorRaised held | floorFailed held
  | retires held | retireLost held | deletes held | deleteLost held | prunes held | hints held
  | hintFloors held | creates held | misses held | wins held | loses held | takesCursor held
  | certified held | readsFloor held | derives held
  | inserts held => exact awaited.maintaining isRefresh held rfl

lemma maintainStep_others (step : MaintainStep config w r act after next) :
    next.refresh = r.refresh ∧ next.flush = r.flush := by
  cases step with
  | wins held mine =>
    unfold Replica.jobWon
    simp only
    split <;> exact ⟨rfl,rfl⟩
  | derives held => exact ⟨certify_refresh _ _ _,certify_flush _ _ _⟩
  | _ => exact ⟨rfl,rfl⟩

lemma step_awaited (awaited : Awaited r)
    (step : Step config w r act after next) : Awaited next := by
  cases step with
  | refresh step => exact refreshStep_awaited awaited step
  | flush step => exact flushStep_awaited awaited step
  | maintain step =>
    exact awaited.maintain_moves (maintainStep_free awaited step) (maintainStep_others step).1
      (maintainStep_others step).2
  | read step => cases step <;> exact awaited.of_same rfl rfl rfl
  | restart => exact Awaited.refresh_ends rfl

lemma reachable_awaited {guard : World → Replica → Act → Prop}
    (reached : Reachable config guard state) (index : Nat) : Awaited (state.party index) := by
  have holds : Parties.Holds (fun _ => True) (fun _ => Awaited) state := by
    refine Parties.invariant ⟨trivial,Awaited.refresh_ends rfl⟩ ?_ ?_ reached
    · exact fun _ awaited _ acted => ⟨trivial,step_awaited awaited (act_step acted)⟩
    · exact fun _ _ otherAwaited _ _ => otherAwaited
  exact holds.2 index

end

end Kodansu.Leaseless

/-
Who wrote what.  Every footer a replica holds under a name is the footer of the segment that
was created there, and a writer that does not know how its PUT ended recognises its own
segment by the nonce.
-/

import Kodansu.Leaseless.Writers

namespace Kodansu.Leaseless

open Index Lib Segment Record List Option OrderedMap

/-! ### The segments that were created -/

def Recorded (world : World) (seq : Nat) (footer : SegmentFooter) : Prop :=
  ∃ record ∈ world.created, record.seq = seq ∧ record.footer = footer

def Pins.Pinned (pins : Pins) (write : SubstreamWrite) : Prop :=
  write.substream = pins.substream write.topition

/-- The store holds what was created, and a created segment holds what its writer wrote. -/
structure Ledger (config : Config) (world : World) : Prop where
  distinct : world.names.Nodup
  live : ∀ seq footer, world.live.get? seq = some footer → Recorded world seq footer
  nonces : ∀ record ∈ world.created, record.footer.nonce < world.nonces
  pinned : ∀ record ∈ world.created, ∀ write ∈ record.writes, config.pins.Pinned write
  entries : ∀ record ∈ world.created, record.footer.entries = entriesFrom 0 (written record.writes)
  era : ∀ record ∈ world.created, record.flushed = true → record.footer.writerEpoch = config.era

section

variable {world after w : World} {replica next other : Replica} {act : Act}
  {guard : World → Replica → Act → Prop} {seq : Nat} {footer : SegmentFooter} {config : Config}

lemma Recorded.extend (recorded : Recorded w seq footer)
    (grows : ∀ record ∈ w.created, record ∈ after.created) : Recorded after seq footer := by
  obtain ⟨record,mem,same⟩ := recorded
  exact ⟨record,grows record mem,same⟩

lemma Ledger.footer_unique {found : SegmentFooter} (ledger : Ledger config w)
    (recorded : Recorded w seq footer) (alsoRecorded : Recorded w seq found) :
    found = footer := by
  obtain ⟨record,mem,isSeq,rfl⟩ := recorded
  obtain ⟨again,alsoMember,alsoSeq,rfl⟩ := alsoRecorded
  rw [inj_on_of_nodup_map ledger.distinct alsoMember mem (alsoSeq.trans isSeq.symm)]

/-! ### What a writer has at stake -/

/-- A writer's nonce and writes, the segment it may have created, and whether it did for
certain. -/
structure Stake where
  nonce : Nat
  writes : List SubstreamWrite
  slot : Option (Nat × SegmentFooter)
  certain : Bool

def Answer.slot (answer : Answer) (candidate : Nat) (footer : SegmentFooter) :
    Option (Nat × SegmentFooter) :=
  if answer = .taken then none else some (candidate, footer)

def Flush.stake (flush : Flush) : Stake :=
  match flush.phase with
  | .basing _ _ assigned | .tail _ _ _ assigned _ | .put _ assigned =>
    ⟨flush.nonce, assigned.writes, none, false⟩
  | .answered candidate assigned footer answer =>
    ⟨flush.nonce, assigned.writes, answer.slot candidate footer, answer = .won⟩
  | _ => ⟨flush.nonce, [], none, false⟩

def Maintain.stake : Maintain → Option Stake
  | .hint job | .hintFloor job _ | .put job _ | .refresh job | .folded job | .cursor job _
  | .floor job _ _ _ => some ⟨job.nonce, job.writes, none, false⟩
  | .answered job candidate footer answer =>
    some ⟨job.nonce, job.writes, answer.slot candidate footer, answer = .won⟩
  | .foldBelow job seq footer | .insert job seq footer =>
    some ⟨job.nonce, job.writes, some (seq, footer), true⟩
  | _ => none

structure Stake.Logged (config : Config) (world : World) (stake : Stake) : Prop where
  pinned : ∀ write ∈ stake.writes, config.pins.Pinned write
  mine : ∀ record ∈ world.created, record.footer.nonce = stake.nonce →
    stake.slot = some (record.seq, record.footer)
  entries : ∀ held ∈ stake.slot, held.2.entries = entriesFrom 0 (written stake.writes)
  certain : stake.certain = true → ∀ held ∈ stake.slot, Recorded world held.1 held.2

namespace Stake.Logged

variable {nonce candidate : Nat} {writes moved : List SubstreamWrite} {certain : Bool}
  {answer : Answer}

section

variable (logged : Stake.Logged config w ⟨nonce, writes, none, certain⟩)

include logged

lemma rewrite (pinned : ∀ write ∈ moved, config.pins.Pinned write) :
    Stake.Logged config w ⟨nonce, moved, none, certain⟩ :=
  ⟨pinned,logged.mine,nofun,fun _ => nofun⟩

lemma missed (entries : footer.entries = entriesFrom 0 (written writes))
    (missed : w.Missed candidate answer) :
    Stake.Logged config w ⟨nonce, writes, answer.slot candidate footer, answer = .won⟩ := by
  refine ⟨logged.pinned,?_,?_,?_⟩
  · intro record mem same
    have impossible := logged.mine record mem same
    cases impossible
  · unfold Answer.slot
    split
    · exact nofun
    · rintro _ ⟨⟩
      exact entries
  · intro isWon
    rcases missed with ⟨isTaken,-⟩ | isUnknown
    · simp [isTaken] at isWon
    · simp [isUnknown] at isWon

lemma created {record : Created}
    (entries : record.footer.entries = entriesFrom 0 (written writes)) (isAnswer : answer ≠ .taken) :
    Stake.Logged config (w.create record)
      ⟨nonce, writes, answer.slot record.seq record.footer, answer = .won⟩ := by
  have slot : answer.slot record.seq record.footer = some (record.seq, record.footer) :=
    if_neg isAnswer
  refine ⟨logged.pinned,?_,?_,?_⟩
  · intro other mem same
    rcases mem_append.mp mem with earlier | last
    · have impossible := logged.mine other earlier same
      cases impossible
    · rw [mem_singleton.mp last]
      exact slot
  · simp only [slot]
    rintro _ ⟨⟩
    exact entries
  · simp only [slot]
    rintro - _ ⟨⟩
    exact ⟨record,mem_append_right _ (mem_singleton_self _),rfl,rfl⟩

end

section

variable (ledger : Ledger config w)
  (logged : Stake.Logged config w ⟨nonce, writes, answer.slot candidate footer, answer = .won⟩)

include ledger logged

lemma recorded_of_mine (mine : w.Mine candidate nonce answer) :
    Recorded w candidate footer := by
  rcases mine with isWon | ⟨isUnknown,found,isFound,sameNonce⟩
  · subst isWon
    exact logged.certain rfl _ rfl
  · subst isUnknown
    obtain ⟨record,mem,isSeq,isFooter⟩ := ledger.live candidate found isFound
    have slot := logged.mine record mem (isFooter ▸ sameNonce)
    cases slot
    exact ⟨record,mem,rfl,rfl⟩

lemma none_of_theirs (theirs : w.Theirs candidate nonce answer) :
    Stake.Logged config w ⟨nonce, writes, none, false⟩ := by
  refine ⟨logged.pinned,?_,nofun,nofun⟩
  intro record mem same
  have slot := logged.mine record mem same
  rcases theirs with isTaken | ⟨isUnknown,found,isFound,otherNonce⟩
  · subst isTaken
    cases slot
  · subst isUnknown
    have unique := ledger.footer_unique ⟨record,mem,rfl,rfl⟩
      (ledger.live candidate found isFound |> fun recorded => by
        cases slot
        exact recorded)
    exact absurd (unique ▸ same) otherNonce

end

lemma extend {stake : Stake} (logged : stake.Logged config w)
    (grows : ∀ record ∈ w.created, record ∈ after.created)
    (others : ∀ record ∈ after.created,
      record ∈ w.created ∨ record.footer.nonce ≠ stake.nonce) :
    stake.Logged config after where
  pinned := logged.pinned
  mine record mem same := by
    rcases others record mem with earlier | differs
    · exact logged.mine record earlier same
    · exact absurd same differs
  entries := logged.entries
  certain isCertain held isHeld := (logged.certain isCertain held isHeld).extend grows

end Stake.Logged

/-! ### What a replica holds -/

def Indexed (world : World) (index : PrefixIndex) : Prop :=
  ∀ seq cached, index.segments.get? seq = some cached →
    ∃ footer, Recorded world seq footer ∧ cached = (CachedSegment.mk footer 0).pruned

def RefreshPhase.found : RefreshPhase → List (Nat × SegmentFooter)
  | .list found => found
  | .commit pending _ => pending
  | _ => []

def Refresh.Logged (world : World) (refresh : Refresh) : Prop :=
  ∀ listed ∈ refresh.phase.found, Recorded world listed.1 listed.2

structure Logged (config : Config) (world : World) (replica : Replica) : Prop extends
    Tasks (Refresh.Logged world) (fun flush => flush.stake.Logged config world)
      (fun task => ∀ stake ∈ task.stake, stake.Logged config world) replica where
  index : Indexed world replica.index

section

variable {index : PrefixIndex} (indexed : Indexed w index)

include indexed

lemma Indexed.extend (grows : ∀ record ∈ w.created, record ∈ after.created) :
    Indexed after index := by
  intro seq cached found
  obtain ⟨footer,recorded,same⟩ := indexed seq cached found
  exact ⟨footer,recorded.extend grows,same⟩

lemma Indexed.insertSegment (recorded : Recorded w seq footer) :
    Indexed w (index.insertSegment seq ⟨footer, 0⟩) := by
  intro other cached found
  simp only [PrefixIndex.insertSegment,get?_insert] at found
  split at found
  · rename_i same
    cases found
    exact ⟨footer,same ▸ recorded,rfl⟩
  · exact indexed other cached found

lemma Indexed.retainSegments (keep : Nat → Bool) : Indexed w (index.retainSegments keep) := by
  intro other cached found
  simp only [PrefixIndex.retainSegments,get?_retain] at found
  split at found
  · exact indexed other cached found
  · cases found

end

lemma stake_refreshed (task : Maintain) : task.refreshed.stake = task.stake := by
  cases task <;> rfl

lemma stake_nonce (flush : Flush) : flush.stake.nonce = flush.nonce := by
  unfold Flush.stake
  split <;> rfl

variable {task : Maintain}

lemma nonce_mem {stake : Stake} (held : replica.maintain = some task)
    (isStake : stake ∈ task.stake) : stake.nonce ∈ replica.nonces := by
  unfold Replica.nonces
  rw [held]
  cases task <;> simp only [Maintain.stake,mem_def,reduceCtorEq,Option.some.injEq] at isStake
  all_goals
    subst isStake
    simp [Maintain.job]

namespace Logged

variable (logged : Logged config w replica)

include logged

variable {refresh : Refresh} {flush : Flush} {moved : Maintain} {owner : RefreshOwner}

lemma extend (grows : ∀ record ∈ w.created, record ∈ after.created)
    (others : ∀ record ∈ after.created,
      record ∈ w.created ∨ record.footer.nonce ∉ replica.nonces) :
    Logged config after replica := by
  have apart : ∀ nonce ∈ replica.nonces, ∀ record ∈ after.created,
      record ∈ w.created ∨ record.footer.nonce ≠ nonce := by
    intro nonce isNonce record mem
    rcases others record mem with earlier | differs
    · exact .inl earlier
    · exact .inr (fun same => differs (same ▸ isNonce))
  refine ⟨logged.toTasks.imp ?_ ?_ ?_,logged.index.extend grows⟩
  · intro refresh _ held listed mem
    exact (held listed mem).extend grows
  · intro flush isFlush held
    refine held.extend grows (apart _ ?_)
    rw [stake_nonce]
    rw [mem_def] at isFlush
    simp [Replica.nonces,isFlush]
  · intro task isTask held stake isStake
    exact (held stake isStake).extend grows (apart _ (nonce_mem isTask isStake))

lemma of_created (same : after.created = w.created) : Logged config after replica :=
  logged.extend (fun _ mem => same ▸ mem) (fun _ mem => .inl (same ▸ mem))

lemma move {moved : Replica} (index : moved.index = replica.index)
    (tasks : Tasks (Refresh.Logged w) (fun flush => flush.stake.Logged config w)
      (fun task => ∀ stake ∈ task.stake, stake.Logged config w) moved) :
    Logged config w moved :=
  ⟨tasks,index ▸ logged.index⟩

lemma insertSegment (recorded : Recorded w seq footer) :
    Logged config w (replica.insertSegment seq footer) :=
  ⟨logged.toTasks.of_same rfl rfl rfl,logged.index.insertSegment recorded⟩

lemma retain (keep : Nat → Bool) (opaqueSeqs : List Nat) (generation : Nat) :
    Logged config w { replica with
      index := replica.index.retainSegments keep, opaqueSeqs, generation } :=
  ⟨logged.toTasks.of_same rfl rfl rfl,logged.index.retainSegments keep⟩

lemma certify (floor generation : Nat) : Logged config w (replica.certify floor generation) :=
  logged.move (certify_index _ _ _) (logged.toTasks.certify floor generation)

lemma setRefresh (held : refresh.Logged w) :
    Logged config w (replica.setRefresh refresh) :=
  logged.move rfl (logged.toTasks.setRefresh held)

lemma setFlush {phase : FlushPhase}
    (held : ({ flush with phase } : Flush).stake.Logged config w) :
    Logged config w (replica.setFlush flush phase) :=
  logged.move rfl (logged.toTasks.setFlush held)

lemma endFlush : Logged config w replica.endFlush := logged.move rfl logged.toTasks.endFlush

lemma setMaintain (held : ∀ stake ∈ task.stake, stake.Logged config w) :
    Logged config w (replica.setMaintain task) :=
  logged.move rfl (logged.toTasks.setMaintain held)

lemma unstake (none : task.stake = none) : Logged config w (replica.setMaintain task) :=
  logged.setMaintain (by rw [none]; exact nofun)

lemma keepMaintain (held : replica.maintain = some task)
    (same : moved.stake = task.stake) : Logged config w (replica.setMaintain moved) :=
  logged.setMaintain (same ▸ logged.maintain task held)

lemma endMaintain : Logged config w replica.endMaintain :=
  logged.move rfl logged.toTasks.endMaintain

lemma setSeq (next : Nat) : Logged config w (replica.setSeq next) :=
  logged.move rfl (logged.toTasks.of_same rfl rfl rfl)

lemma resume (waiting : owner = .flush → ∀ flush ∈ replica.flush, flush.phase = .refresh) :
    Logged config w (replica.resume owner) := by
  have tasks := logged.toTasks.resume (fun (isFlush : owner = .flush) flush held => by
      have stake := logged.flush flush held
      simp only [Flush.stake,waiting isFlush flush held] at stake
      exact stake)
    (fun _ _ task held stake isStake =>
      logged.maintain task held stake (stake_refreshed task ▸ isStake))
  cases owner <;> exact logged.move rfl tasks

lemma refreshFailed (owner : RefreshOwner) : Logged config w (replica.refreshFailed owner) := by
  have tasks := logged.toTasks.refreshFailed (fun seq (_ : owner = .won seq) task held stake isStake =>
    logged.maintain task held stake (stake_refreshed task ▸ isStake))
  cases owner <;> exact logged.move rfl tasks

end Logged

/-! ### Steps -/

variable {r : Replica} {refresh : Refresh} {at' : RefreshPhase} {flush : Flush}

lemma Logged.foundAt (logged : Logged config w r)
    (held : r.refresh = some refresh) (phase : refresh.phase = at') :
    ∀ listed ∈ at'.found, Recorded w listed.1 listed.2 :=
  phase ▸ logged.refresh refresh held

lemma refreshStep_logged (ledger : Ledger config w) (awaited : Awaited replica)
    (logged : Logged config w replica) (step : RefreshStep w replica act next) :
    Logged config w next := by
  cases step with
  | startList | startProbe | relist | probeAbsent | readsFloor => exact logged.setRefresh nofun
  | probeFolds held phase isLive =>
    exact (logged.insertSegment (ledger.live _ _ isLive)).setRefresh nofun
  | floorAhead held phase ahead => exact (logged.certify _ _).setRefresh nofun
  | floorProves held phase behind =>
    refine (logged.certify _ _).resume (fun isFlush flush isHeld => ?_)
    rw [certify_flush] at isHeld
    exact awaited.flushing held isFlush flush isHeld
  | pages held phase isNext =>
    have known := logged.foundAt held phase
    refine logged.setRefresh (fun listed mem => ?_)
    rcases mem_append.mp mem with earlier | last
    · exact known listed earlier
    · rw [mem_singleton.mp last]
      exact ledger.live _ _ (World.mem_listAfter.mp (mem_of_mem_head? isNext)).1
  | lists held phase done =>
    have known := logged.foundAt held phase
    exact logged.setRefresh (fun listed mem => known listed (mem_filter.mp mem).1)
  | commits held phase =>
    have known := logged.foundAt held phase
    refine (logged.insertSegment (known _ (.head _))).setRefresh ?_
    exact fun listed mem => known listed (.tail _ mem)
  | vanishes held phase | stepsOver held phase =>
    have known := logged.foundAt held phase
    have added : ∀ seq, Logged config w (replica.stepOver seq) :=
      fun _ => logged.move rfl (logged.toTasks.of_same rfl rfl rfl)
    refine (added _).setRefresh ?_
    exact fun listed mem => known listed (.tail _ mem)
  | settles held phase =>
    unfold Replica.settle
    have waiting := awaited.flushing held
    rcases reconciled_same replica _ with same | ⟨listedMax,-,-,same⟩
    · have counted : Logged config w { replica with generation := replica.generation + 1 } :=
        logged.move rfl (logged.toTasks.of_same rfl rfl rfl)
      rw [same]
      exact counted.resume waiting
    · rw [same]
      exact (logged.retain _ _ _).resume waiting
  | fails | cancels => exact logged.refreshFailed _

lemma pinned_add {assigned : Assigned}
    (pinned : ∀ write ∈ assigned.writes, config.pins.Pinned write) (tp : Topition)
    (base : Int) (share : Assigning) :
    ∀ write ∈ (assigned.add config tp base share).writes, config.pins.Pinned write := by
  unfold Assigned.add
  simp only
  split
  · exact pinned
  intro write mem
  rcases mem_append.mp mem with earlier | last
  · exact pinned write earlier
  · rw [mem_singleton.mp last]
    rfl

lemma Logged.stakeAt (logged : Logged config world r)
    (held : r.flush = some flush) {at' : FlushPhase} (phase : flush.phase = at') :
    ({ flush with phase := at' } : Flush).stake.Logged config world := by
  subst phase
  exact logged.flush flush held

lemma Logged.keepStake (logged : Logged config w r)
    (held : r.flush = some flush) {at' moved : FlushPhase} (phase : flush.phase = at')
    (same : ({ flush with phase := moved } : Flush).stake =
      ({ flush with phase := at' } : Flush).stake) :
    Logged config w (r.setFlush flush moved) :=
  logged.setFlush (same ▸ logged.stakeAt held phase)

lemma flushStep_logged (ledger : Ledger config world) (drawn : Drawn world replica)
    (logged : Logged config world replica)
    (step : FlushStep config world replica act after next) : Logged config after next := by
  cases step with
  | @begins pending idle =>
    have begun : Logged config world
        (replica.setFlush { nonce := world.nonces, pending } .start) := by
      refine logged.setFlush ⟨forall_mem_nil _,fun record mem same => ?_,?_,?_⟩
      · exact absurd (ledger.nonces record mem) (by rw [same]; exact lt_irrefl _)
      · rintro _ ⟨⟩
      · rintro ⟨⟩
    exact begun.of_created rfl
  | ends held awake => exact logged.endFlush
  | awaits held phase => exact logged.setFlush (logged.stakeAt held phase)
  | folds held phase isPeer isLive =>
    exact (logged.insertSegment (ledger.live _ _ isLive)).setFlush (logged.stakeAt held phase)
  | takesCursor held phase | certified held phase | readsFloor held phase | takesTail held phase
  | readies held phase => exact logged.keepStake held phase rfl
  | derives held phase =>
    exact (logged.certify _ _).keepStake ((certify_flush _ _ _).trans held) phase rfl
  | bases held phase isFloor =>
    have stake := logged.stakeAt held phase
    exact logged.setFlush (stake.rewrite (pinned_add stake.pinned _ _ _))
  | answers held phase isEmpty => exact logged.endFlush.of_created rfl
  | @creates flush resp candidate assigned object footer answer held phase encoded free _ isAnswer =>
    have isFooter := (encodeSegmentIndexed_ok encoded).2.1
    have stake := logged.stakeAt held phase
    have unflushed : Logged config
        (world.create ⟨candidate,world.floor,true,assigned.writes,footer⟩) replica.endFlush := by
      refine logged.endFlush.extend (fun _ mem => mem_append_left _ mem) ?_
      intro record mem
      rcases mem_append.mp mem with earlier | last
      · exact .inl earlier
      · right
        rw [mem_singleton.mp last,isFooter]
        have apart := drawn.distinct
        simp only [Replica.nonces,held,map_some,Option.toList_some,
          singleton_append,nodup_cons] at apart
        simpa [Replica.nonces,Replica.endFlush] using apart.1
    exact unflushed.setFlush (stake.created (by rw [isFooter]) isAnswer)
  | misses held phase encoded missed =>
    have isFooter := (encodeSegmentIndexed_ok encoded).2.1
    exact logged.setFlush ((logged.stakeAt held phase).missed (by rw [isFooter]) missed)
  | wins held phase mine =>
    have recorded := (logged.stakeAt held phase).recorded_of_mine ledger mine
    obtain ⟨cachedSeq,cachedHigh,same⟩ := finalize_same world replica _ _ _
    rw [same]
    have ended := (logged.insertSegment recorded).endFlush
    have finalized : Logged config world { (replica.insertSegment _ _).endFlush with
        cachedSeq, cachedHigh } := ended.move rfl (ended.toTasks.of_same rfl rfl rfl)
    exact finalized.of_created rfl
  | loses held phase theirs =>
    have stake := (logged.stakeAt held phase).none_of_theirs ledger theirs
    exact logged.setFlush (stake.rewrite (forall_mem_nil _))

lemma maintainStep_logged (ledger : Ledger config world) (drawn : Drawn world replica)
    (logged : Logged config world replica)
    (step : MaintainStep config world replica act after next) : Logged config after next := by
  cases step with
  | ends | halts => exact logged.endMaintain
  | expires | drops | floorsDone | floorsSkip | floorsTake | floorFailed => exact logged.unstake rfl
  | merges idle known pinned =>
    refine Logged.of_created (logged.setMaintain ?_) rfl
    rintro _ ⟨⟩
    refine ⟨pinned,fun record mem same => ?_,nofun,nofun⟩
    exact absurd (ledger.nonces record mem) (by rw [same]; exact lt_irrefl _)
  | floorRaised | deletes =>
    exact (logged.unstake rfl).of_created rfl
  | retires held isLast forgotten =>
    have certified : ∀ seqFloor, Logged config world { replica with seqFloor } :=
      fun _ => logged.move rfl (logged.toTasks.of_same rfl rfl rfl)
    exact ((certified _).unstake rfl).of_created rfl
  | retireLost | deleteLost =>
    exact logged.endMaintain.of_created rfl
  | @prunes expired seqs affected cachedHigh held =>
    have pruned := logged.retain (fun seq => !seqs.contains seq) replica.opaqueSeqs
      (replica.generation + 1)
    exact pruned.move rfl (pruned.toTasks.endMaintain.of_same rfl rfl rfl)
  | hints held | hintFloors held | takesCursor held | certified held
  | readsFloor held => exact logged.keepMaintain held rfl
  | @creates resp job candidate object footer answer held encoded free _ isAnswer =>
    have isFooter := (encodeSegmentIndexed_ok encoded).2.1
    have unmerged : Logged config
        (world.create ⟨candidate,world.floor,false,job.writes,footer⟩) replica.endMaintain := by
      refine logged.endMaintain.extend (fun _ mem => mem_append_left _ mem) ?_
      intro record mem
      rcases mem_append.mp mem with earlier | last
      · exact .inl earlier
      · right
        rw [mem_singleton.mp last,isFooter]
        have apart := drawn.distinct
        simp only [Replica.nonces,held,bind_some,Maintain.job,map_some,
          Option.toList_some,nodup_append,mem_singleton] at apart
        simp only [Replica.nonces,Replica.endMaintain,bind_none,map_none,
          Option.toList_none,append_nil]
        exact fun mem => apart.2.2 _ mem _ rfl rfl
    refine unmerged.setMaintain ?_
    rintro _ ⟨⟩
    exact (logged.maintain _ held _ rfl).created (by rw [isFooter]) isAnswer
  | misses held encoded missed =>
    have isFooter := (encodeSegmentIndexed_ok encoded).2.1
    refine logged.setMaintain ?_
    rintro _ ⟨⟩
    exact (logged.maintain _ held _ rfl).missed (by rw [isFooter]) missed
  | @wins resp job candidate footer answer held mine =>
    have stake := logged.maintain _ held _ rfl
    have recorded := stake.recorded_of_mine ledger mine
    have settled : Stake.Logged config world
        ⟨job.nonce,job.writes,some (candidate, footer),true⟩ := by
      have slot : answer.slot candidate footer = some (candidate, footer) := by
        rcases mine with isWon | ⟨isUnknown,-⟩
        · rw [isWon]; rfl
        · rw [isUnknown]; rfl
      refine ⟨stake.pinned,?_,?_,?_⟩
      · intro record mem same
        exact slot ▸ stake.mine record mem same
      · intro held isHeld
        exact stake.entries held (slot ▸ isHeld)
      · rintro - _ ⟨⟩
        exact recorded
    unfold Replica.jobWon
    simp only
    have hinted : ∀ task : Maintain,
        task.stake = some ⟨job.nonce,job.writes,some (candidate, footer),true⟩ →
        Logged config world ((replica.setSeq (candidate + 1)).setMaintain task) := by
      intro task isStake
      refine (logged.setSeq _).setMaintain (fun stake isHeld => ?_)
      rw [isStake] at isHeld
      cases isHeld
      exact settled
    split
    · exact hinted _ rfl
    · exact hinted _ rfl
  | loses held theirs =>
    refine logged.setMaintain ?_
    rintro _ ⟨⟩
    exact (logged.maintain _ held _ rfl).none_of_theirs ledger theirs
  | derives held =>
    exact (logged.certify _ _).keepMaintain ((certify_maintain _ _ _).trans held) rfl
  | inserts held =>
    have recorded := (logged.maintain _ held _ rfl).certain rfl _ rfl
    exact (logged.insertSegment recorded).unstake rfl

lemma logged_init (w : World) : Logged config w {} :=
  ⟨Tasks.idle _ _ _ _ _ _,nofun⟩

lemma step_logged (ledger : Ledger config world) (drawn : Drawn world r)
    (awaited : Awaited r) (logged : Logged config world r)
    (step : Step config world r act after next) : Logged config after next := by
  cases step with
  | refresh step => exact refreshStep_logged ledger awaited logged step
  | flush step => exact flushStep_logged ledger drawn logged step
  | maintain step => exact maintainStep_logged ledger drawn logged step
  | read step =>
    cases step with
    | vanishes known absent => exact logged.move rfl (logged.toTasks.of_same rfl rfl rfl)
    | prunes gone => exact logged.retain _ _ _
  | restart => exact logged_init world

/-! ### The ledger -/

namespace Ledger

variable (ledger : Ledger config w)

include ledger

/-- A step that creates nothing and brings nothing back keeps the ledger. -/
lemma of_created (live : ∀ seq footer, after.live.get? seq = some footer →
      w.live.get? seq = some footer) (created : after.created = w.created)
    (nonces : w.nonces ≤ after.nonces) : Ledger config after where
  distinct := by
    unfold World.names
    rw [created]
    exact ledger.distinct
  live seq footer found :=
    (ledger.live seq footer (live seq footer found)).extend (fun _ member => created ▸ member)
  nonces record member := lt_of_lt_of_le (ledger.nonces record (created ▸ member)) nonces
  pinned record member := ledger.pinned record (created ▸ member)
  entries record member := ledger.entries record (created ▸ member)
  era record member := ledger.era record (created ▸ member)

lemma create {record : Created} (isNext : record.seq = w.next)
    (nonce : record.footer.nonce < w.nonces)
    (pinned : ∀ write ∈ record.writes, config.pins.Pinned write)
    (entries : record.footer.entries = entriesFrom 0 (written record.writes))
    (era : record.flushed = true → record.footer.writerEpoch = config.era) :
    Ledger config (w.create record) := by
  have members : ∀ {fact : Created → Prop}, (∀ other ∈ w.created, fact other) → fact record →
      ∀ other ∈ (w.create record).created, fact other := by
    intro fact earlier last other mem
    rcases mem_append.mp mem with isEarlier | isLast
    · exact earlier other isEarlier
    · rw [mem_singleton.mp isLast]
      exact last
  constructor
  · rw [World.names_create,nodup_append]
    refine ⟨ledger.distinct,nodup_singleton _,?_⟩
    intro seq mem other isRecord same
    rw [mem_singleton.mp isRecord] at same
    exact absurd (World.lt_next_of_mem mem) (by omega)
  · intro seq footer found
    simp only [World.create,get?_insert] at found
    split at found
    · rename_i same
      cases found
      exact ⟨record,mem_append_right _ (mem_singleton_self _),same.symm,rfl⟩
    · exact (ledger.live seq footer found).extend (fun _ mem => mem_append_left _ mem)
  · exact members ledger.nonces nonce
  · exact members ledger.pinned pinned
  · exact members ledger.entries entries
  · exact members ledger.era era

lemma delete (deleted : Nat) : Ledger config (w.delete deleted) := by
  refine ledger.of_created ?_ rfl (le_refl _)
  intro seq footer found
  simp only [World.delete,get?_retain] at found
  split at found
  · exact found
  · cases found

end Ledger

section

variable (ledger : Ledger config world) (names : Names world)
  (bound : Bounded world.next world.floor r) (drawn : Drawn world r)
  (logged : Logged config world r)

include ledger names bound drawn logged

lemma flushStep_ledger (fresh : freshName world r act = true)
    (step : FlushStep config world r act after next) : Ledger config after := by
  cases step with
  | begins idle => exact ledger.of_created (fun _ _ found => found) rfl (Nat.le_succ _)
  | answers | wins => exact ledger.of_created (fun _ _ found => found) rfl (le_refl _)
  | creates held phase encoded free effective isAnswer =>
    have isFooter := (encodeSegmentIndexed_ok encoded).2.1
    simp only [freshName,held,map_some,phase] at fresh
    apply ledger.create
    · exact admits_next names (bound.flushAt held phase) free effective fresh
    · rw [isFooter]
      exact drawn.below _ (by simp [Replica.nonces,held])
    · exact (logged.stakeAt held phase).pinned
    · rw [isFooter]
    · exact fun _ => by rw [isFooter]
  | _ => exact ledger

lemma maintainStep_ledger (fresh : freshName world r act = true)
    (step : MaintainStep config world r act after next) : Ledger config after := by
  cases step with
  | merges idle known pinned => exact ledger.of_created (fun _ _ found => found) rfl (Nat.le_succ _)
  | floorRaised | retires
  | retireLost => exact ledger.of_created (fun _ _ found => found) rfl (le_refl _)
  | deletes | deleteLost => exact ledger.delete _
  | creates held encoded free effective isAnswer =>
    have isFooter := (encodeSegmentIndexed_ok encoded).2.1
    simp only [freshName,held] at fresh
    apply ledger.create
    · exact admits_next names (bound.maintain _ held).2 free effective fresh
    · rw [isFooter]
      exact drawn.below _ (by simp [Replica.nonces,held,Maintain.job])
    · exact (logged.maintain _ held _ rfl).pinned
    · rw [isFooter]
    · rintro ⟨⟩
  | _ => exact ledger

end

/-! ### Runs -/

structure Based (world : World) (replica : Replica) : Prop where
  bounded : Bounded world.next world.floor replica
  drawn : Drawn world replica
  awaited : Awaited replica

variable {state : State}

lemma based_known : Parties.Known (replicas config) guard Names Based NoncesApart := by
  intro s reached
  obtain ⟨names,bound⟩ := reachable_names reached
  have known : Parties.Known (replicas config) guard (fun _ => True) Drawn NoncesApart := nonces_known
  obtain ⟨drawn,apart⟩ := known s reached
  exact ⟨⟨names,fun index => ⟨bound index,drawn.2 index,reachable_awaited reached index⟩⟩,apart⟩

lemma ledger_init (undecodable : Nat → Bool) : Ledger config { undecodable } where
  distinct := nodup_nil
  live := nofun
  nonces := nofun
  pinned := nofun
  entries := nofun
  era := nofun

lemma step_ledger (ledger : Ledger config w) (names : Names w) (based : Based w r)
    (logged : Logged config w r) (fresh : freshName w r act = true)
    (step : Step config w r act after next) :
    Ledger config after ∧ Logged config after next := by
  refine ⟨?_,step_logged ledger based.drawn based.awaited logged step⟩
  cases step with
  | refresh | read | restart => exact ledger
  | flush step => exact flushStep_ledger ledger names based.bounded based.drawn logged fresh step
  | maintain step =>
    exact maintainStep_ledger ledger names based.bounded based.drawn logged fresh step

lemma reachable_ledger
    (fresh : ∀ {w : World} {r : Replica} {act : Act}, guard w r act →
      freshName w r act = true) (reached : Reachable config guard state) :
    Parties.Holds (Ledger config) (Logged config) state := by
  refine Parties.invariant_over based_known ⟨ledger_init _,logged_init _⟩ ?_ ?_ reached
  · intro before after party next act names based _ ledger logged allowed acted
    exact step_ledger ledger names based logged (fresh allowed) (act_step acted)
  · intro before after party next other act names based _ _ apart ledger _ otherLogged allowed acted
    have turn := step_turn names based.bounded (fresh allowed) (act_step acted)
    refine otherLogged.extend turn.created_subset ?_
    intro record mem
    rcases turn.created_inv record mem with earlier | own
    · exact .inl earlier
    · exact .inr (apart own)

end

end Kodansu.Leaseless

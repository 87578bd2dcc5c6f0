/-
What a refresh that returns leaves in the index: every decodable segment that was live all the
while, and a segment for every offset that some such segment held all the while.

The first follows from what the index knows below its cursor.  The second follows an offset from
the instant at which the refresh has seen the whole store: the segment that holds the offset
then is indexed or waits for its footer, and a footer that vanishes makes the refresh list again.
-/

import Kodansu.Leaseless.Knowledge
import Kodansu.Leaseless.Probe

namespace Kodansu.Leaseless

open Index Lib Segment Record Option

/-! ### A call -/

/-- Whether a refresh in this phase is about to return and mark the index fresh: the floor proves
the tail, or every listed footer is committed and none had vanished. -/
def RefreshPhase.marksFresh : RefreshPhase → Bool
  | .floor seq read _ => read ≤ seq
  | .commit [] false => true
  | _ => false

def Calling (guard : World → Replica → Act → Prop) (during : World → Prop) (party : Nat)
    (state : State) (action : Nat × Act) : Prop :=
  Parties.guarded guard state action ∧ (state.party party).refresh.isSome = true ∧
    during state.world

/-- A refresh of a replica from its first step to the one that marks the index fresh, with a
fact that holds at every instant of it. -/
structure RefreshCall (config : Config) (guard : World → Replica → Act → Prop)
    (during : World → Prop) (party : Nat) (began finish : State) : Prop where
  reached : Reachable config guard began
  calls : ∃ owner due opened last refresh,
    guard began.world (began.party party) (.startRefresh owner due) ∧
    (replicas config).system.step began (party, .startRefresh owner due) = some opened ∧
    System.Run (replicas config).system (Calling guard during party) opened last ∧
    during last.world ∧ (last.party party).refresh = some refresh ∧
    refresh.phase.marksFresh = true ∧
    (replicas config).system.step last (party, .refresh .ok) = some finish

/-- The replica does not prune its index while its refresh is under way, be it that it has retired
segments or that a read has found them gone. -/
def prunesApart (replica : Replica) : Act → Bool
  | .maintain .ok => match replica.maintain with
      | some (.deleting _ _ [] _) => replica.refresh.isNone
      | _ => true
  | .prune _ => replica.refresh.isNone
  | _ => true

def keepsIndexed (world : World) (replica : Replica) (action : Act) : Bool :=
  foldsBelow world replica action && prunesApart replica action

/-! ### The offsets a segment holds -/

def Covers (footer : SegmentFooter) (key : SubstreamKey) (offset : Int) : Prop :=
  ∃ entry ∈ footer.entries, entry.key = key ∧ offset ∈ entry.range

/-- The offsets that live decodable segments hold. -/
def World.held (world : World) (key : SubstreamKey) : Set Int :=
  {offset | ∃ seq footer, world.readSegmentFooter seq = some footer ∧ Covers footer key offset}

structure Found (world : World) (key : SubstreamKey) (offset : Int) (seq : Nat) : Prop where
  decodes : world.undecodable seq = false
  covers : ∃ footer, Recorded world seq footer ∧ Covers footer key offset

section

variable {w after : World} {act : Act} {key : SubstreamKey} {offset : Int} {seq : Nat} {r : Replica}
  {config : Config} {index : PrefixIndex}

lemma Found.turn (found : Found w key offset seq) (turn : Turn w r after) :
    Found after key offset seq := by
  obtain ⟨decodes,footer,recorded,covers⟩ := found
  exact ⟨turn.undecodable ▸ decodes,footer,recorded.extend turn.created_subset,covers⟩

lemma Found.mem_held (found : Found w key offset seq)
    (ledger : Ledger config w) (indexed : Indexed w index) (known : Knows index seq) :
    offset ∈ held (index.rows key) := by
  obtain ⟨-,footer,recorded,entry,isEntry,isKey,inRange⟩ := found
  obtain ⟨cached,isCached⟩ := isSome_iff_exists.mp known
  obtain ⟨other,alsoRecorded,rfl⟩ := indexed seq cached isCached
  have same := ledger.footer_unique recorded alsoRecorded
  subst same
  refine Index.mem_held.mpr ⟨⟨other.writerEpoch,seq,Producer.retainFoldableProducers entry⟩,?_,?_⟩
  · exact PrefixIndex.mem_rows.mpr ⟨_,isCached,rfl,List.mem_map_of_mem isEntry,by simpa using isKey⟩
  · simpa [RankedEntry.base,RankedEntry.endOffset,SubstreamEntry.range] using inRange

lemma held_found (ledger : Ledger config w) (isHeld : offset ∈ w.held key) :
    ∃ seq, w.isDecodable seq = true ∧ Found w key offset seq := by
  obtain ⟨seq,footer,read,covers⟩ := isHeld
  have found := World.get?_of_readSegmentFooter read
  have decodes : w.undecodable seq = false := by
    by_contra undecodable
    rw [World.readSegmentFooter,if_pos (by simpa using undecodable)] at read
    cases read
  refine ⟨seq,?_,decodes,footer,ledger.live seq footer found,covers⟩
  rw [World.isDecodable,World.isLive,found,decodes]
  rfl

/-! ### An offset during a refresh -/

def Refresh.Covering (world : World) (index : PrefixIndex) (key : SubstreamKey) (offset : Int)
    (refresh : Refresh) : Prop :=
  match refresh.phase with
  | .probe _ _ | .list _ => True
  | .absent seq => world.floor ≤ seq → ∃ holder, Found world key offset holder ∧ Knows index holder
  | .floor seq read _ => read ≤ seq → ∃ holder, Found world key offset holder ∧ Knows index holder
  | .commit pending vanished => vanished = false → ∃ holder, Found world key offset holder ∧
      (refresh.reconcile = true → holder ∈ refresh.listed) ∧
      (Knows index holder ∨ holder ∈ pending.map Prod.fst)

variable {moved : PrefixIndex} {next : Replica}

lemma Refresh.Covering.turn {refresh : Refresh} (covering : refresh.Covering w index key offset)
    (turn : Turn w r after) (knows : ∀ seq, Knows index seq → Knows moved seq) :
    refresh.Covering after moved key offset := by
  revert covering
  unfold Refresh.Covering
  cases refresh.phase with
  | probe | list => exact id
  | absent seq =>
    intro covering behind
    obtain ⟨holder,found,known⟩ := covering (le_trans (turn.keeps index).floor behind)
    exact ⟨holder,found.turn turn,knows holder known⟩
  | floor seq read gen =>
    intro covering behind
    obtain ⟨holder,found,known⟩ := covering behind
    exact ⟨holder,found.turn turn,knows holder known⟩
  | commit pending vanished =>
    intro covering settled
    obtain ⟨holder,found,listed,known⟩ := covering settled
    exact ⟨holder,found.turn turn,listed,known.imp_left (knows holder)⟩

lemma refreshStep_covering (names : Names w) (based : Based w r)
    (knowing : Knowing w r) (ledger : Ledger config w)
    (isHeld : offset ∈ w.held key)
    (covering : ∀ refresh ∈ r.refresh, refresh.Covering w r.index key offset)
    (step : RefreshStep w r act next) :
    ∀ refresh ∈ next.refresh, refresh.Covering w next.index key offset := by
  have ended : next.refresh = none →
      ∀ refresh ∈ next.refresh, refresh.Covering w next.index key offset := by
    intro none refresh isRefresh
    rw [none] at isRefresh
    cases isRefresh
  obtain ⟨holder,decodes,found⟩ := held_found ledger isHeld
  cases step with
  | startList | startProbe | relist | probeFolds | floorAhead | pages =>
    intro _ same
    cases same
    exact trivial
  | probeAbsent held phase absent =>
    intro _ same
    cases same
    intro behind
    have isNext := names.next_of_absent (based.bounded.refreshAt held phase) absent behind
    have below := (knowing.refreshAt held phase).2
    exact ⟨holder,found,below holder
      (isNext ▸ names.lt_next (World.isLive_of_isDecodable decodes)) decodes⟩
  | readsFloor held phase =>
    have before := covering _ held
    simp only [Refresh.Covering,phase] at before
    intro _ same
    cases same
    exact before
  | floorProves | settles => exact ended (resume_refresh _ _)
  | @lists refresh listed held phase done =>
    obtain ⟨below,known⟩ := listed_complete knowing held phase done decodes
    obtain ⟨-,-,complete⟩ := knowing.refreshAt held phase
    intro _ same
    cases same
    intro _
    refine ⟨holder,found,?_,known⟩
    intro reconciles
    simp only [Replica.listed,show refresh.reconcile = true from reconciles,if_true,List.mem_append]
    exact (complete holder below decodes).imp_left
      (fun earlier => (knowing.refresh _ held).complete reconciles holder earlier decodes)
  | commits held phase =>
    have before := covering _ held
    simp only [Refresh.Covering,phase] at before
    intro _ same
    cases same
    intro settled
    obtain ⟨earlier,isFound,listed,known⟩ := before settled
    refine ⟨earlier,isFound,listed,?_⟩
    rcases known with isKnown | waiting
    · exact .inl (knows_insertSegment.mpr (.inr isKnown))
    · rcases List.mem_cons.mp waiting with isFirst | inRest
      · exact .inl (knows_insertSegment.mpr (.inl isFirst))
      · exact .inr inRest
  | vanishes held phase absent =>
    intro _ same
    cases same
    rintro ⟨⟩
  | @stepsOver refresh seq footer rest vanished held phase undecodable =>
    have before := covering _ held
    simp only [Refresh.Covering,phase] at before
    intro _ same
    cases same
    intro settled
    obtain ⟨earlier,isFound,listed,known⟩ := before settled
    refine ⟨earlier,isFound,listed,known.imp_right (fun waiting => ?_)⟩
    rcases List.mem_cons.mp waiting with isFirst | inRest
    · have decodes := isFound.decodes
      rw [show earlier = seq from isFirst,undecodable] at decodes
      cases decodes
    · exact inRest
  | fails | cancels => exact ended (refreshFailed_refresh _ _)

/-! ### Steps of other tasks -/

lemma flushStep_knows (step : FlushStep config w r act after next) (seq : Nat)
    (known : Knows r.index seq) : Knows next.index seq := by
  cases step with
  | folds held phase isPeer isLive => exact knows_insertSegment.mpr (.inr known)
  | derives held phase =>
    change Knows (r.certify _ _).index seq
    rw [certify_index]
    exact known
  | wins held phase mine =>
    obtain ⟨cachedSeq,cachedHigh,same⟩ := finalize_same w r _ _ _
    rw [same]
    exact knows_insertSegment.mpr (.inr known)
  | _ => exact known

lemma maintainStep_knows (apart : prunesApart r act = true)
    (busy : r.refresh.isSome = true)
    (step : MaintainStep config w r act after next) (seq : Nat)
    (known : Knows r.index seq) : Knows next.index seq := by
  cases step with
  | prunes held =>
    simp only [prunesApart,held,isNone_iff_eq_none] at apart
    rw [apart] at busy
    cases busy
  | wins held mine =>
    unfold Replica.jobWon
    simp only
    split <;> exact known
  | derives held =>
    change Knows (r.certify _ _).index seq
    rw [certify_index]
    exact known
  | inserts held => exact knows_insertSegment.mpr (.inr known)
  | _ => exact known

end

/-! ### Runs -/

def KeepsIndexed (world : World) (replica : Replica) (action : Act) : Prop :=
  keepsIndexed world replica action = true

section

variable {r next : Replica} {act : Act} {w after : World} {config : Config} {s opened : State}
  {during : World → Prop} {fact : World → PrefixIndex → Refresh → Prop} {party : Nat}
  {last : Parties.Global World Replica} {offset : Int} {key : SubstreamKey}

lemma KeepsIndexed.folds (allowed : KeepsIndexed w r act) :
    foldsBelow w r act = true := by
  simp only [KeepsIndexed,keepsIndexed,Bool.and_eq_true] at allowed
  exact allowed.1

lemma KeepsIndexed.apart (allowed : KeepsIndexed w r act) :
    prunesApart r act = true := by
  simp only [KeepsIndexed,keepsIndexed,Bool.and_eq_true] at allowed
  exact allowed.2

structure Informed (config : Config) (world : World) (replica : Replica) : Prop where
  names : Names world
  based : Based world replica
  ledger : Ledger config world
  logged : Logged config world replica
  knowing : Knowing world replica

lemma reachable_informed (reached : Reachable config KeepsIndexed s)
    (party : Nat) : Informed config s.world (s.party party) := by
  obtain ⟨⟨names,based⟩,-⟩ := based_known s reached
  obtain ⟨ledger,logged⟩ := reachable_ledger (fun allowed => foldsBelow_freshName allowed.folds) reached
  exact ⟨names,based party,ledger,logged party,reachable_knowing KeepsIndexed.folds reached party⟩

/-- A fact about a replica's refresh that the refresh keeps up as long as something holds of the
store, and that everything else keeps. -/
structure Kept (config : Config) (during : World → Prop)
    (fact : World → PrefixIndex → Refresh → Prop) : Prop where
  own : ∀ {world : World} {replica next : Replica} {action : Act},
    Informed config world replica → during world → replica.refresh.isSome = true →
    (∀ refresh ∈ replica.refresh, fact world replica.index refresh) →
    RefreshStep world replica action next →
    ∀ refresh ∈ next.refresh, fact world next.index refresh
  others : ∀ {world after : World} {actor : Replica} {index moved : PrefixIndex} {refresh : Refresh},
    Turn world actor after → (∀ seq, Knows index seq → Knows moved seq) →
    fact world index refresh → fact after moved refresh

lemma Kept.step (kept : Kept config during fact) (informed : Informed config w r)
    (allowed : KeepsIndexed w r act) (isDuring : during w)
    (busy : r.refresh.isSome = true)
    (holds : ∀ refresh ∈ r.refresh, fact w r.index refresh)
    (step : Step config w r act after next) :
    ∀ refresh ∈ next.refresh, fact after next.index refresh := by
  have turn := step_turn informed.names informed.based.bounded
    (foldsBelow_freshName allowed.folds) step
  cases step with
  | refresh step => exact kept.own informed isDuring busy holds step
  | flush step =>
    intro refresh isRefresh
    rw [flushStep_refresh step] at isRefresh
    exact kept.others turn (flushStep_knows step) (holds refresh isRefresh)
  | maintain step =>
    intro refresh isRefresh
    rw [(maintainStep_others step).1] at isRefresh
    exact kept.others turn (maintainStep_knows allowed.apart busy step) (holds refresh isRefresh)
  | read step =>
    cases step with
    | vanishes known absent => exact holds
    | prunes gone =>
      have idle := allowed.apart
      simp only [prunesApart,isNone_iff_eq_none] at idle
      rw [idle] at busy
      cases busy
  | restart =>
    intro refresh isRefresh
    cases isRefresh

lemma Kept.run (kept : Kept config during fact) (reached : Reachable config KeepsIndexed opened)
    (begins : ∀ refresh ∈ (opened.party party).refresh,
      fact opened.world (opened.party party).index refresh)
    (ran : System.Run (replicas config).system (Calling KeepsIndexed during party) opened last) :
    ∀ refresh ∈ (last.party party).refresh, fact last.world (last.party party).index refresh := by
  induction ran with
  | refl => exact begins
  | @step before after act ran allowed moved ih =>
    have reachedBefore := ran.reachable reached (fun calling => calling.1)
    obtain ⟨guarded,busy,isDuring⟩ := allowed
    obtain ⟨w,r,acted,rfl⟩ := Parties.step_inv moved
    have informed := reachable_informed reachedBefore act.1
    change ∀ refresh ∈ (Function.update before.party act.1 r party).refresh,
      fact w (Function.update before.party act.1 r party).index refresh
    by_cases acts : party = act.1
    · subst acts
      rw [Function.update_self]
      exact kept.step informed guarded isDuring busy ih (act_step acted)
    · rw [Function.update_of_ne acts]
      have turn := step_turn informed.names informed.based.bounded
        (foldsBelow_freshName guarded.folds) (act_step acted)
      exact fun refresh isRefresh => kept.others turn (fun _ known => known) (ih refresh isRefresh)

lemma reaches_kept (config : Config) (during : World → Prop) (bound : Nat) :
    Kept config during (fun w index refresh =>
      bound ≤ w.next ∧ refresh.phase.Reaches w index bound) := by
  constructor
  · intro w r next act informed _ busy holds step
    obtain ⟨refresh,held⟩ := isSome_iff_exists.mp busy
    have within := (holds refresh held).1
    have reaches := refreshStep_reaches informed.names informed.based informed.knowing within
      (fun refresh held => (holds refresh held).2) step
    exact fun refresh held => ⟨within,reaches refresh held⟩
  · intro w after actor index moved refresh turn knows held
    have keeps := turn.keeps index
    refine ⟨le_trans held.1 turn.next_le,held.2.keeps held.1 ?_⟩
    exact ⟨keeps.live,fun seq _ => knows seq,keeps.floor⟩

lemma covering_kept (config : Config) (isHeld : ∀ w, during w → offset ∈ w.held key) :
    Kept config during (fun w index refresh => refresh.Covering w index key offset) := by
  constructor
  · intro w r next act informed isDuring _ holds step
    exact refreshStep_covering informed.names informed.based informed.knowing informed.ledger
      (isHeld w isDuring) holds step
  · intro w after actor index moved refresh turn knows held
    exact held.turn turn knows

/-! ### What a refresh returns -/

lemma resume_index (r : Replica) (owner : RefreshOwner) :
    (r.resume owner).index = r.index := by
  cases owner <;> rfl

variable {refresh : Refresh} {finish began : Parties.Global World Replica} {owner : RefreshOwner}
  {due : Bool} {seq : Nat}

/-- The step that marks the index fresh: it reads nothing more, and keeps what the listings
returned. -/
lemma marksFresh_step {s : Parties.Global World Replica}
    (held : (s.party party).refresh = some refresh) (marks : refresh.phase.marksFresh = true)
    (moved : (replicas config).system.step s (party, .refresh .ok) = some finish) :
    finish.world = s.world ∧
      ((∃ seq read gen, refresh.phase = .floor seq read gen ∧ read ≤ seq ∧
          (finish.party party).index = (s.party party).index) ∨
        refresh.phase = .commit [] false ∧
          (finish.party party).index = ((s.party party).reconciled refresh).index) := by
  cases phase : refresh.phase with
  | floor seq read gen =>
    rw [phase] at marks
    have behind : read ≤ seq := of_decide_eq_true marks
    have stepped : (s.party party).refreshStep s.world .ok =
        some ((s.party party).floorStep refresh seq read gen) := by
      simp only [Replica.refreshStep,held,phase,if_true]
    obtain ⟨sameWorld,same⟩ := refreshed_party stepped moved
    refine ⟨sameWorld,.inl ⟨seq,read,gen,rfl,behind,?_⟩⟩
    rw [same,Replica.floorStep,if_neg (not_lt.mpr behind),resume_index,certify_index]
  | commit pending vanished =>
    rw [phase] at marks
    cases pending with
    | cons first rest => cases marks
    | nil =>
      cases vanished with
      | true => cases marks
      | false =>
        have stepped : (s.party party).refreshStep s.world .ok =
            some ((s.party party).settle refresh) := by
          simp [Replica.refreshStep,held,phase,Replica.commitStep]
        obtain ⟨sameWorld,same⟩ := refreshed_party stepped moved
        refine ⟨sameWorld,.inr ⟨rfl,?_⟩⟩
        rw [same,Replica.settle,resume_index]
  | probe | absent | list =>
    rw [phase] at marks
    cases marks

lemma startRefresh_opens {opened : Parties.Global World Replica}
    (opens : (replicas config).system.step began (party, .startRefresh owner due) = some opened) :
    opened.world = began.world ∧ ∀ refresh ∈ (opened.party party).refresh,
      refresh.phase = .list [] ∨ ∃ seq left, refresh.phase = .probe seq left := by
  obtain ⟨w,replica,acted,rfl⟩ := Parties.step_inv opens
  obtain ⟨next,started,same⟩ := map_eq_some_iff.mp acted
  cases same
  refine ⟨rfl,?_⟩
  simp only [Function.update_self]
  have step : RefreshStep began.world (began.party party) (.startRefresh owner due) replica :=
    startRefresh_step started
  cases step with
  | startList reconcile idle awaits =>
    intro _ same
    cases same
    exact .inl rfl
  | startProbe idle awaits isCursor =>
    intro _ same
    cases same
    exact .inr ⟨_,_,rfl⟩

lemma reconciled_indexed (indexed : Indexed w r.index) (refresh : Refresh) :
    Indexed w (r.reconciled refresh).index := by
  rcases reconciled_same r refresh with same | ⟨listedMax,-,-,same⟩
  · rw [same]
    exact indexed
  · rw [same]
    exact indexed.retainSegments _

lemma reconciled_knows (known : Knows r.index seq)
    (listed : refresh.reconcile = true → seq ∈ refresh.listed) :
    Knows (r.reconciled refresh).index seq := by
  rcases reconciled_same r refresh with same | ⟨listedMax,reconciles,-,same⟩
  · rw [same]
    exact known
  · rw [same]
    refine knows_retainSegments.mpr ⟨?_,known⟩
    rw [Bool.or_eq_true]
    exact .inr (List.contains_iff_mem.mpr (listed reconciles))

end

/-- When a refresh returns and marks the index fresh, the index holds every decodable segment that
was live when the call began and still is, and every offset that such a segment held at every
instant of the call. -/
theorem refresh_returns_live_data {config : Config} {during : World → Prop} {party : Nat}
    {began finish : State} (call : RefreshCall config KeepsIndexed during party began finish) :
    (∀ seq, began.world.isDecodable seq = true → finish.world.isDecodable seq = true →
      (finish.party party).knows seq = true) ∧
    ∀ key offset, (∀ world, during world → offset ∈ world.held key) →
      offset ∈ held ((finish.party party).index.rows key) := by
  obtain ⟨owner,due,opened,last,refresh,allowed,opens,ran,isDuring,isRefresh,marks,
    returns⟩ := call.calls
  have guarded : Parties.guarded KeepsIndexed began (party, .startRefresh owner due) := allowed
  have reached : Reachable config KeepsIndexed opened := call.reached.step guarded opens
  have informed := reachable_informed (ran.reachable reached (fun calling => calling.1)) party
  obtain ⟨openedWorld,fresh⟩ := startRefresh_opens opens
  obtain ⟨lastWorld,marked⟩ := marksFresh_step isRefresh marks returns
  constructor
  · intro seq wasDecodable decodes
    have below := (reachable_informed call.reached party).names.lt_next
      (World.isLive_of_isDecodable wasDecodable)
    have begins : ∀ refresh ∈ (opened.party party).refresh, began.world.next ≤ opened.world.next ∧
        refresh.phase.Reaches opened.world (opened.party party).index began.world.next := by
      intro refresh held
      refine ⟨by rw [openedWorld],?_⟩
      rcases fresh refresh held with phase | ⟨seq,left,phase⟩ <;> rw [phase] <;> exact trivial
    have reaches := ((reaches_kept config during began.world.next).run reached begins ran refresh
      isRefresh).2
    rw [lastWorld] at decodes
    rcases marked with ⟨tail,read,generation,phase,behind,same⟩ | ⟨phase,same⟩
    · rw [phase] at reaches
      have known := (informed.knowing.refreshAt isRefresh phase).2 seq
        (lt_of_lt_of_le below (reaches behind)) decodes
      change Knows (finish.party party).index seq
      rw [same]
      exact known
    · rw [phase] at reaches
      have known := (reaches seq below decodes).resolve_right nofun
      change Knows (finish.party party).index seq
      rw [same]
      exact (reconciled_knowing informed.knowing informed.based.bounded isRefresh).2.knows seq decodes
        known
  · intro key offset isHeld
    have begins : ∀ refresh ∈ (opened.party party).refresh,
        refresh.Covering opened.world (opened.party party).index key offset := by
      intro refresh held
      unfold Refresh.Covering
      rcases fresh refresh held with phase | ⟨seq,left,phase⟩ <;> rw [phase] <;> exact trivial
    have covering := (covering_kept config isHeld).run reached begins ran refresh isRefresh
    rcases marked with ⟨tail,read,generation,phase,behind,same⟩ | ⟨phase,same⟩
    · simp only [Refresh.Covering,phase] at covering
      obtain ⟨holder,found,known⟩ := covering behind
      rw [same]
      exact found.mem_held informed.ledger informed.logged.index known
    · simp only [Refresh.Covering,phase,forall_const] at covering
      obtain ⟨holder,found,listed,known⟩ := covering
      rw [same]
      exact found.mem_held informed.ledger (reconciled_indexed informed.logged.index refresh)
        (reconciled_knows (known.resolve_right nofun) listed)

/-! ### Two calls -/

def World.holds (world : World) (key : SubstreamKey) (offset : Int) : Bool :=
  world.live.entries.any (fun (seq, footer) => !world.undecodable seq &&
    footer.entries.any (fun entry =>
      entry.key = key ∧ entry.baseOffset ≤ offset ∧ offset < entry.endOffset))

variable {key : SubstreamKey} {offset : Int} {check : World → Replica → Act → Bool}
  {instant : World → Bool} {during : World → Prop} {config : Config} {party : Nat}
  {earlier meanwhile : List (Nat × Act)} {began finish : State}

lemma World.mem_held_of_holds {w : World}
    (holds : w.holds key offset = true) : offset ∈ w.held key := by
  simp only [World.holds,List.any_eq_true,Bool.and_eq_true,Bool.not_eq_true',
    decide_eq_true_eq] at holds
  obtain ⟨⟨seq,footer⟩,mem,decodes,entry,isEntry,isKey,inRange⟩ := holds
  refine ⟨seq,footer,?_,entry,isEntry,isKey,inRange⟩
  rw [World.readSegmentFooter,decodes]
  exact OrderedMap.mem_entries.mp mem

/-- Run the replicas up to a reader's refresh and then to its end, with a check at every step and
one at every instant of the call. -/
def refreshCall (config : Config) (check : World → Replica → Act → Bool) (instant : World → Bool)
    (party : Nat) (earlier meanwhile : List (Nat × Act)) : Option (State × State) :=
  let system := (replicas config).system
  (ran config check earlier).bind (fun began =>
    (System.exec system (fun state action => check state.world (state.party action.1) action.2)
      began [(party, .startRefresh .reader false)]).bind (fun opened =>
        (System.exec system (fun state action =>
            check state.world (state.party action.1) action.2 &&
              (state.party party).refresh.isSome && instant state.world) opened meanwhile).bind
          (fun last =>
            if instant last.world && (last.party party).refresh.any (fun refresh =>
              refresh.phase.marksFresh) then
              (system.step last (party, .refresh .ok)).map (fun finish => (began, finish))
            else none)))

lemma refreshCall_called {guard : World → Replica → Act → Prop}
    (sufficient : ∀ {w : World} {r : Replica} {act : Act},
      check w r act = true → guard w r act)
    (holds : ∀ {w : World}, instant w = true → during w)
    (called : refreshCall config check instant party earlier meanwhile = some (began, finish)) :
    RefreshCall config guard during party began finish := by
  obtain ⟨start,reached,called⟩ := bind_eq_some_iff.mp called
  obtain ⟨opened,opens,called⟩ := bind_eq_some_iff.mp called
  obtain ⟨last,ranLast,called⟩ := bind_eq_some_iff.mp called
  split at called
  · rename_i marked
    obtain ⟨_,returns,same⟩ := map_eq_some_iff.mp called
    obtain ⟨rfl,rfl⟩ := Prod.mk.inj same
    rw [Bool.and_eq_true] at marked
    obtain ⟨refresh,isRefresh,marks⟩ := any_eq_true _ _ |>.mp marked.2
    unfold System.exec at opens
    split at opens
    · rename_i passed
      cases stepped : (replicas config).system.step start
          (party, Act.startRefresh .reader false) with
      | none =>
        rw [stepped] at opens
        cases opens
      | some s =>
        rw [stepped] at opens
        cases opens
        refine ⟨System.Reachable.init.exec sufficient reached,.reader,false,opened,last,
          refresh,sufficient passed,stepped,System.Run.refl.exec ?_ ranLast,
          holds marked.1,isRefresh,marks,returns⟩
        intro s act passed
        simp only [Bool.and_eq_true] at passed
        exact ⟨sufficient passed.1.1,passed.1.2,holds passed.2⟩
    · cases opens
  · cases called

def flushAgain (party : Nat) (batch : Batch) : List (Nat × Act) :=
  [(party, .startFlush [⟨orders, batch⟩]), (party, .flush .ok),
    (party, .startRefresh .flush false)] ++
  List.replicate 3 (party, .refresh .ok) ++ List.replicate 7 (party, .flush .ok)

/-- Replica 0 takes its cursor while the prefix is empty.  Replica 1 creates names 0 and 1 and
expires name 1; replica 0 then reads the floor, which is above name 0, and creates name 2. -/
def floorRace : List (Nat × Act) :=
  (flushToPut 0 plainBatch 0).take 6 ++ flushToPut 1 plainBatch 0 ++ flushPut 1 ++
    flushAgain 1 plainBatch ++ expireOne 1 1 ++ List.replicate 7 (0, .flush .ok)

/-- No name is reused, and a refresh returns without a segment that is live all the while. -/
theorem floorRace_hides_segment : ∃ began finish,
    RefreshCall namedConfig (fun world replica action => freshName world replica action = true)
      (fun _ => True) 0 began finish ∧
    began.world.isDecodable 0 = true ∧ finish.world.isDecodable 0 = true ∧
    (finish.party 0).knows 0 = false := by
  have observed : (refreshCall namedConfig freshName (fun _ => true) 0 floorRace
      (List.replicate 2 (0, .refresh .ok))).map (fun states =>
        (states.1.world.isDecodable 0, states.2.world.isDecodable 0, (states.2.party 0).knows 0)) =
      some (true, true, false) := by decide +kernel
  obtain ⟨⟨began,finish⟩,called,seen⟩ := map_eq_some_iff.mp observed
  simp only [Prod.mk.injEq] at seen
  exact ⟨began,finish,refreshCall_called id (fun _ => trivial) called,seen⟩

/-- The object under name 1 does not decode. -/
def damagedConfig : Config := { namedConfig with undecodable := fun seq => seq = 1 }

/-- A peer creates a segment while a refresh commits what it has listed: the footer of name 0, and
nothing for name 1. -/
theorem refresh_returns_live_data_peerFlushes : ∃ began finish,
    RefreshCall damagedConfig KeepsIndexed (fun world => 0 ∈ world.held (namedPins.key orders)) 0
      began finish ∧ began.world.isDecodable 0 = true ∧ (finish.party 0).opaqueSeqs = [1] ∧
    (finish.party 0).knows 0 = true ∧
    0 ∈ held ((finish.party 0).index.rows (namedPins.key orders)) := by
  have observed : (refreshCall damagedConfig keepsIndexed
      (fun world => world.holds (namedPins.key orders) 0) 0
      (flushToPut 1 plainBatch 0 ++ flushPut 1 ++ flushAgain 1 plainBatch)
      (List.replicate 3 (0, .refresh .ok) ++ flushAgain 1 plainBatch ++
        List.replicate 2 (0, .refresh .ok))).map
        (fun states => (states.1.world.isDecodable 0, states.2.world.isDecodable 0,
          (states.2.party 0).opaqueSeqs)) =
      some (true, true, [1]) := by decide +kernel
  obtain ⟨⟨began,finish⟩,called,seen⟩ := map_eq_some_iff.mp observed
  simp only [Prod.mk.injEq] at seen
  have call : RefreshCall damagedConfig KeepsIndexed
      (fun world => 0 ∈ world.held (namedPins.key orders)) 0 began finish :=
    refreshCall_called (fun passed => passed) World.mem_held_of_holds called
  obtain ⟨known,covered⟩ := refresh_returns_live_data call
  exact ⟨began,finish,call,seen.1,seen.2.2,known 0 seen.1 seen.2.1,
    covered _ 0 (fun _ isHeld => isHeld)⟩

end Kodansu.Leaseless

/-
A rebalance converges in three rounds of heartbeats.

While nothing but heartbeats comes in, each member in turn gives up what is not in its target,
then goes on to the assignment epoch, then owns all of its target.  A member that is behind
waits for nobody in the first two rounds; in the third what it misses is held by nobody, for
the others hold no more than their own targets, which are disjoint from its own.
-/

import Kodansu.Group.Reconciliation
import Kodansu.Lib.Rounds

namespace Kodansu.Group

open Lib OrderedMap Option Finset

variable {epoch : Int}

structure Beat where
  request : HeartbeatRequest
  client : Client
  minted : Minted
  resolved : Option Resolved
  liveness : Liveness
  config : ConsumerGroupConfig
  nowMs : Int

/-- The document, and the assignment that each member was last told. -/
structure Scene where
  group : ConsumerGroupDoc
  told : String → Partitions

/-- A heartbeat that succeeds: the document is written if it changed, and a member that is sent
an assignment takes it up. -/
def Scene.beat (topicPattern : Patterns) (scene : Scene) (beat : Beat) : Option Scene :=
  match apply topicPattern (some scene.group) beat.request beat.client beat.minted beat.resolved
      beat.liveness beat.config beat.nowMs with
  | .error _ => none
  | .ok transition => some
      { group := (transition.written (some scene.group)).getD scene.group
        told := (transition.response.assignment).elim scene.told
          (Function.update scene.told beat.request.memberId) }

/-- A heartbeat of a member at its epoch, which owns what it was last told, that changes neither
its subscription nor the topics, and no deadline has passed. -/
structure Quiet (scene : Scene) (beat : Beat) (member : ConsumerMember) : Prop where
  found : scene.group.members.get? beat.request.memberId = some member
  memberEpoch : beat.request.memberEpoch = member.memberEpoch
  owned : ownedFromRequest beat.request = some (scene.told beat.request.memberId)
  instanceId : ∀ instanceId, beat.request.instanceId = some instanceId →
    member.instanceId = some instanceId
  names : ∀ names, beat.request.subscribedTopicNames = some names →
    sorted names = member.subscribedTopicNames
  regex : ∀ regex, requestedRegex beat.request = some regex → regex = member.subscribedTopicRegex
  assignor : ∀ assignor, beat.request.serverAssignor = some assignor →
    member.serverAssignor = some assignor
  topics : ∀ resolved, beat.resolved = some resolved → topicsOf resolved = scene.group.topics
  unlapsed : ∀ id held, scene.group.members.get? id = some held →
    lapsed beat.liveness beat.nowMs id held = false

def quiet (scene : Scene) (beat : Beat) : Prop := ∃ member, Quiet scene beat member

def isQuiet (scene : Scene) (beat : Beat) : Bool :=
  (scene.group.members.get? beat.request.memberId).any (fun member =>
    decide (beat.request.memberEpoch = member.memberEpoch) &&
      decide (ownedFromRequest beat.request = some (scene.told beat.request.memberId)) &&
      beat.request.instanceId.all (fun instanceId => member.instanceId = some instanceId) &&
      beat.request.subscribedTopicNames.all (fun names =>
        sorted names = member.subscribedTopicNames) &&
      (requestedRegex beat.request).all (fun regex => regex = member.subscribedTopicRegex) &&
      beat.request.serverAssignor.all (fun assignor => member.serverAssignor = some assignor) &&
      beat.resolved.all (fun resolved => topicsOf resolved = scene.group.topics) &&
      scene.group.members.entries.all (fun entry =>
        !lapsed beat.liveness beat.nowMs entry.1 entry.2))

variable {scene : Scene}

lemma quiet_of_isQuiet {beat : Beat} (passed : isQuiet scene beat = true) : quiet scene beat := by
  obtain ⟨member,found,passed⟩ := (any_eq_true _ _).mp passed
  simp only [Bool.and_eq_true,decide_eq_true_eq,all_eq_true,List.all_eq_true,
    Bool.not_eq_true'] at passed
  obtain ⟨⟨⟨⟨⟨⟨⟨memberEpoch,owned⟩,inst⟩,names⟩,regex⟩,assignor⟩,topics⟩,unlapsed⟩ :=
    passed
  exact ⟨member,found,memberEpoch,owned,inst,names,regex,assignor,topics,
    fun id held isHeld => unlapsed (id, held) (mem_entries.mpr isHeld)⟩

/-! ### The answer to a quiet heartbeat -/

structure Swapped (group next : ConsumerGroupDoc) (memberId : String) (member : ConsumerMember) :
    Prop where
  groupEpoch : next.groupEpoch = group.groupEpoch
  assignmentEpoch : next.assignmentEpoch = group.assignmentEpoch
  topics : next.topics = group.topics
  others : ∀ id, id ≠ memberId → next.members.get? id = group.members.get? id
  itself : next.members.get? memberId = some member

section Swapped

variable {id mid memberId : String} {group last : ConsumerGroupDoc}
  {member changed : ConsumerMember}

lemma Swapped.trans {next : ConsumerGroupDoc} (first : Swapped group next mid member)
    (second : Swapped next last mid changed) : Swapped group last mid changed where
  groupEpoch := second.groupEpoch.trans first.groupEpoch
  assignmentEpoch := second.assignmentEpoch.trans first.assignmentEpoch
  topics := second.topics.trans first.topics
  others id different := (second.others id different).trans (first.others id different)
  itself := second.itself

lemma swapped_insert (group : ConsumerGroupDoc) (mid : String) (member : ConsumerMember) :
    Swapped group { group with members := group.members.insert mid member } mid member where
  groupEpoch := rfl
  assignmentEpoch := rfl
  topics := rfl
  others id different := by
    rw [get?_insert,if_neg different]
  itself := by
    rw [get?_insert,if_pos rfl]

lemma swapped_adjust (found : group.members.get? mid = some member)
    (change : ConsumerMember → ConsumerMember) :
    Swapped group { group with members := group.members.adjust mid change } mid
      (change member) where
  groupEpoch := rfl
  assignmentEpoch := rfl
  topics := rfl
  others id different := by
    rw [get?_adjust,if_neg different]
  itself := by
    rw [get?_adjust,if_pos rfl,found]
    rfl

lemma Swapped.bumped {next : ConsumerGroupDoc} (swapped : Swapped group next id member) :
    Swapped group next.bumped id member :=
  ⟨swapped.groupEpoch,swapped.assignmentEpoch,swapped.topics,swapped.others,swapped.itself⟩

lemma Swapped.ownedByOthers {next : ConsumerGroupDoc}
    (swapped : Swapped group next memberId member) :
    ownedByOthers next memberId = ownedByOthers group memberId := by
  ext slot
  rw [mem_ownedByOthers,mem_ownedByOthers]
  apply exists_congr
  intro other
  apply and_congr_right
  intro differ
  unfold heldBy
  rw [swapped.others other differ]

end Swapped

def starting (member : ConsumerMember) : ConsumerMember :=
  if member.memberEpoch = 0 then rejoining member else member

section Answer

variable {member changed first second third after base : ConsumerMember}
  {pattern topicPattern : Patterns} {req request : HeartbeatRequest}
  {entered group before : ConsumerGroupDoc} {taken : Partitions} {owned : Option Partitions}
  {mid : String} {told : String → Partitions} {liveness : Liveness} {config : ConsumerGroupConfig}
  {nowMs : Int}

lemma sweep_quiet {beat : Beat} (still : Quiet scene beat member) :
    sweep scene.group beat.liveness beat.nowMs = (scene.group, false) := by
  have everybody : scene.group.members.filter
      (fun id member => !lapsed beat.liveness beat.nowMs id member) =
        scene.group.members := by
    apply OrderedMap.filter_eq_self
    apply congrArg List.length
    apply List.filter_eq_self.mpr
    intro entry listed
    dsimp only
    rw [still.unlapsed entry.1 entry.2 (mem_entries.mp listed)]
    rfl
  unfold sweep
  rw [everybody]
  simp

lemma enterGroup_quiet {beat : Beat} (known : Reconciling pattern scene.group false)
    (still : Quiet scene beat member) :
    ∃ entered, enterGroup scene.group beat.request beat.client beat.minted beat.config =
        .ok (entered, beat.request.memberId, false) ∧
      Swapped scene.group entered beat.request.memberId (starting member) := by
  unfold enterGroup starting
  rw [still.memberEpoch]
  split
  · have named : joiningId beat.request beat.minted = beat.request.memberId := by
      unfold joiningId
      rw [if_neg (known.ne_empty still.found)]
    have nobody : instanceHolder scene.group beat.request.memberId beat.request.instanceId = none := by
      rw [eq_none_iff_forall_ne_some]
      intro holder isHolder
      obtain ⟨found,differ,ofHolder,isSome⟩ := instanceHolder_spec isHolder
      obtain ⟨inst,isInstance⟩ := ne_none_iff_exists'.mp isSome
      exact differ (known.distinct.instances found still.found (ofHolder.trans isInstance)
        (still.instanceId inst isInstance))
    refine ⟨_,?_,swapped_insert scene.group beat.request.memberId (rejoining member)⟩
    rw [named]
    unfold joinAs
    rw [nobody,still.found]
    rfl
  · refine ⟨scene.group,?_,rfl,rfl,rfl,fun _ _ => rfl,still.found⟩
    unfold validateEpoch
    rw [still.found,still.memberEpoch]
    simp

lemma updateNames_same (same : ∀ names, req.subscribedTopicNames = some names → sorted names =
      member.subscribedTopicNames) : updateNames member req = (member, false) := by
  unfold updateNames
  split
  · rfl
  · next names isNames => rw [if_pos (same names isNames)]

lemma updateRegex_same
    (valid : ∀ regex, member.subscribedTopicRegex = some regex → (topicPattern regex).isSome)
    (same : ∀ regex, requestedRegex req = some regex → regex = member.subscribedTopicRegex) :
    updateRegex topicPattern member req = .ok (member, false) := by
  unfold updateRegex
  split
  · rfl
  rename_i regex isRegex
  have isOwn := same regex isRegex
  rw [isOwn]
  cases found : member.subscribedTopicRegex with
  | none => simp
  | some pattern =>
    have compiles := valid pattern found
    rw [isSome_iff_ne_none] at compiles
    simpa using compiles

lemma updateAssignor_same
    (valid : ∀ assignor, member.serverAssignor = some assignor → isSupported assignor = true)
    (same : ∀ assignor, req.serverAssignor = some assignor → member.serverAssignor = some
      assignor) : updateAssignor member req = .ok (member, false) := by
  unfold updateAssignor
  split
  · rfl
  rename_i assignor isAssignor
  have isOwn := same assignor isAssignor
  rw [valid assignor isOwn,if_pos isOwn]
  rfl

lemma updateMember_same (client : Client) (config : ConsumerGroupConfig)
    (placed : Placed pattern epoch member)
    (names : ∀ names, req.subscribedTopicNames = some names → sorted names =
      member.subscribedTopicNames)
    (regex : ∀ regex, requestedRegex req = some regex → regex = member.subscribedTopicRegex)
    (assignor : ∀ assignor, req.serverAssignor = some assignor → member.serverAssignor = some
      assignor) :
    updateMember pattern member req client config =
      .ok (refreshMember member req client config, false) := by
  have sameNames : updateNames (refreshMember member req client config) req =
      (refreshMember member req client config, false) := updateNames_same names
  have sameRegex : updateRegex pattern (refreshMember member req client config) req =
      .ok (refreshMember member req client config, false) := updateRegex_same placed.regex regex
  have sameAssignor : updateAssignor (refreshMember member req client config) req =
      .ok (refreshMember member req client config, false) :=
    updateAssignor_same placed.assignor assignor
  unfold updateMember
  rw [sameNames]
  dsimp only
  rw [sameRegex]
  dsimp only [bind,Except.bind]
  rw [sameAssignor]
  rfl

lemma starting_same (member : ConsumerMember) : SameMember member (starting member) := by
  unfold starting
  split <;> exact ⟨rfl,rfl,rfl,rfl,rfl⟩

lemma starting_placed (nonneg : 0 ≤ epoch) (placed : Placed pattern epoch member) :
    Placed pattern epoch (starting member) := by
  unfold starting
  split
  · exact placed.restart nonneg rfl rfl rfl rfl
  · exact placed

lemma update_quiet {beat : Beat} (known : Reconciling pattern scene.group false)
    (still : Quiet scene beat member)
    (swapped : Swapped scene.group entered beat.request.memberId (starting member)) :
    ∃ changed, update pattern entered beat.request.memberId beat.request beat.client
        beat.config = .ok (changed, false) ∧ Swapped scene.group changed beat.request.memberId
        (refreshMember (starting member) beat.request beat.client beat.config) := by
  have same := starting_same member
  have unchanged := updateMember_same beat.client beat.config
    (starting_placed known.nonneg (known.placed still.found))
    (fun names isNames => (still.names names isNames).trans same.names.symm)
    (fun regex isRegex => (still.regex regex isRegex).trans same.regex.symm)
    (fun assignor isAssignor => same.assignor.trans (still.assignor assignor isAssignor))
  refine ⟨_,?_,swapped.trans (swapped_insert entered beat.request.memberId _)⟩
  unfold update
  rw [swapped.itself]
  dsimp only
  rw [unchanged]
  rfl

lemma refresh_quiet {beat : Beat} {changed : ConsumerGroupDoc} (still : Quiet scene beat member)
    (topics : changed.topics = scene.group.topics) :
    refresh changed beat.resolved = (changed, false) := by
  unfold refresh
  split
  · rfl
  rename_i resolved isResolved
  unfold refreshTopics
  rw [if_pos ((still.topics resolved isResolved).trans topics.symm)]

structure Turn (group : ConsumerGroupDoc) (memberId : String) (member after : ConsumerMember)
    (owned : Option Partitions) : Prop where
  same : SameMember member after
  moved : moves (starting member) group.assignmentEpoch owned = true →
    Next (starting member) group.assignmentEpoch (ownedByOthers group memberId) owned after
  stayed : moves (starting member) group.assignmentEpoch owned = false →
    Touched (starting member) after

lemma SameMember.trans (earlier : SameMember first second)
    (later : SameMember second third) : SameMember first third :=
  ⟨later.target.trans earlier.target,later.instanceId.trans earlier.instanceId,
    later.names.trans earlier.names,later.regex.trans earlier.regex,
    later.assignor.trans earlier.assignor⟩

lemma Touched.moves (touched : Touched member changed) (epoch : Int)
    (owned : Option Partitions) : moves changed epoch owned = moves member epoch owned := by
  unfold Group.moves
  rw [touched.state,touched.memberEpoch,touched.pendingRevocation]

lemma Touched.next
    (touched : Touched member changed) (next : Next changed epoch taken owned after) :
    Next member epoch taken owned after := by
  cases next with
  | revoke revoking owns memberEpoch s assigned pending =>
    rw [touched.assigned,touched.target] at revoking owns assigned pending
    exact .revoke revoking owns (memberEpoch.trans touched.memberEpoch) s assigned pending
  | advance released memberEpoch s assigned pending =>
    rw [touched.assigned,touched.target] at released s assigned
    exact .advance released memberEpoch s assigned pending

lemma reconciled_turn (group : ConsumerGroupDoc) (id : String)
    (touched : Touched (starting member) base) (same : SameMember member base)
    (owned : Option Partitions) (nowMs : Int) : Turn group id member
      (reconciled base group.assignmentEpoch (ownedByOthers group id) owned nowMs) owned := by
  have sameMoves := touched.moves group.assignmentEpoch owned
  obtain ⟨next,kept⟩ := nextAssignment_next base group.assignmentEpoch
    (ownedByOthers group id) owned nowMs
  unfold reconciled
  rw [sameMoves]
  split
  · rename_i moves
    refine ⟨same.trans kept,fun _ => touched.next next,?_⟩
    intro stays
    rw [moves] at stays
    cases stays
  · next stays => exact ⟨same,fun moves => absurd moves stays,fun _ => touched⟩

lemma Turn.stamped (turn : Turn group mid member after owned) (nowMs : Int) :
    Turn group mid member { after with lastContactMs := nowMs } owned where
  same := turn.same.trans ⟨rfl,rfl,rfl,rfl,rfl⟩
  moved moves := by
    cases turn.moved moves with
    | revoke revoking owns memberEpoch s assigned pending =>
      exact .revoke revoking owns memberEpoch s assigned pending
    | advance released memberEpoch s assigned pending =>
      exact .advance released memberEpoch s assigned pending
  stayed stays := (turn.stayed stays).trans ⟨rfl,rfl,rfl,rfl,rfl⟩

lemma apply_quiet {beat : Beat} (known : Reconciling pattern scene.group false)
    (staying : member.memberEpoch ≠ leavingStaticMemberEpoch) (still : Quiet scene beat member) :
    ∃ reconciledGroup after,
      apply pattern (some scene.group) beat.request beat.client beat.minted beat.resolved
          beat.liveness beat.config beat.nowMs =
        .ok (answered scene.group reconciledGroup beat.request.memberId after beat.request
          beat.liveness beat.config beat.nowMs) ∧
      Swapped scene.group reconciledGroup beat.request.memberId after ∧
      Turn scene.group beat.request.memberId member after
        (some (scene.told beat.request.memberId)) := by
  obtain ⟨entered,admits,enters⟩ := enterGroup_quiet known still
  obtain ⟨changed,updates,changes⟩ := update_quiet known still enters
  have reconciles := changes.trans (swapped_adjust changes.itself (fun member =>
    reconciled member changed.assignmentEpoch (ownedByOthers changed beat.request.memberId)
      (ownedFromRequest beat.request) beat.nowMs))
  refine ⟨_,_,?_,reconciles,?_⟩
  · have present : ¬(beat.request.memberEpoch = -1 ∨
        beat.request.memberEpoch = leavingStaticMemberEpoch) := by
      rw [still.memberEpoch]
      have reached := (known.placed still.found).reached
      omega
    unfold apply
    dsimp only [opened,getD_some]
    rw [sweep_quiet still,if_neg present]
    rw [admits]
    dsimp only [bind,Except.bind]
    rw [updates]
    dsimp only
    rw [refresh_quiet still changes.topics]
    dsimp only [Bool.or_false,rebalanced]
    rw [if_neg (by simp),reconcile_eq,reconciles.itself]
    rfl
  · have touched : Touched (starting member)
        (refreshMember (starting member) beat.request beat.client beat.config) :=
      ⟨rfl,rfl,rfl,rfl,rfl⟩
    have same : SameMember member
        (refreshMember (starting member) beat.request beat.client beat.config) :=
      (starting_same member).trans ⟨rfl,rfl,rfl,rfl,rfl⟩
    rw [changes.assignmentEpoch,changes.ownedByOthers,still.owned]
    exact reconciled_turn scene.group beat.request.memberId touched same _ _

lemma answered_told (found : before.members.get? mid = some member)
    (isTold : told mid = member.assigned) :
    (answered before group mid after request liveness config nowMs).response.assignment.elim told
      (Function.update told mid) = Function.update told mid after.assigned := by
  unfold answered
  dsimp only
  split
  · rfl
  rename_i unsent
  rw [found,Bool.or_eq_true,Bool.or_eq_true] at unsent
  have same : member.assigned = after.assigned := by
    by_contra differ
    apply unsent
    left
    right
    simpa using differ
  rw [← same,← isTold,Function.update_eq_self]
  rfl

lemma beat_quiet {beat : Beat} (known : Reconciling topicPattern scene.group false)
    (staying : member.memberEpoch ≠ leavingStaticMemberEpoch) (still : Quiet scene beat member)
    (told : scene.told beat.request.memberId = member.assigned) :
    ∃ next after, scene.beat topicPattern beat = some next ∧
      Swapped scene.group next.group beat.request.memberId after ∧
      Turn scene.group beat.request.memberId member after (some member.assigned) ∧
      next.told = Function.update scene.told beat.request.memberId after.assigned := by
  obtain ⟨group,after,applied,swapped,turn⟩ := apply_quiet known staying still
  rw [told] at turn
  unfold Scene.beat
  rw [applied]
  by_cases kept : group = scene.group
  · subst kept
    refine ⟨_,after,rfl,?_,turn,answered_told still.found told⟩
    simpa [answered,Transition.written] using swapped
  · refine ⟨_,{ after with lastContactMs := beat.nowMs },rfl,?_,turn.stamped beat.nowMs,
      answered_told still.found told⟩
    have written : ((answered scene.group group beat.request.memberId after beat.request
        beat.liveness beat.config beat.nowMs).written (some scene.group)).getD scene.group =
          (stamped group beat.request.memberId beat.nowMs).bumped := by
      simp [answered,Transition.written,kept]
    rw [written]
    exact (swapped.trans (swapped_adjust swapped.itself _)).bumped

end Answer

/-! ### Rounds -/

/-- Nobody is leaving, and everybody has been told its assignment. -/
structure Steady (topicPattern : Patterns) (ids : String → Prop) (epoch : Int) (scene : Scene) :
    Prop where
  reconciling : Reconciling topicPattern scene.group false
  epoch : scene.group.assignmentEpoch = epoch
  present : ∀ memberId, ids memberId ↔ (scene.group.members.get? memberId).isSome
  staying {memberId : String} {member : ConsumerMember}
    (found : scene.group.members.get? memberId = some member) :
    member.memberEpoch ≠ leavingStaticMemberEpoch
  told {memberId : String} {member : ConsumerMember}
    (found : scene.group.members.get? memberId = some member) :
    scene.told memberId = member.assigned

def Fitted (member : ConsumerMember) : Prop := member.assigned ⊆ member.target

structure Caught (epoch : Int) (member : ConsumerMember) : Prop where
  fitted : Fitted member
  memberEpoch : member.memberEpoch = epoch
  pending : member.pendingRevocation = ∅

structure Settled (epoch : Int) (member : ConsumerMember) : Prop where
  stable : member.state = .stable
  memberEpoch : member.memberEpoch = epoch
  assigned : member.assigned = member.target

section Turns

variable {topicPattern pattern : Patterns} {group : ConsumerGroupDoc} {mid : String}
  {member base after : ConsumerMember} {taken : Partitions} {owned : Option Partitions}

lemma moves_or_settled (known : Reconciling topicPattern group false)
    (found : group.members.get? mid = some member) :
    moves (starting member) group.assignmentEpoch (some member.assigned) = true ∨
      starting member = member ∧ Settled group.assignmentEpoch member := by
  have positive := known.started rfl found
  have apart := (known.placed found).apart
  have arrived := known.arrived rfl found
  rw [known.epochs]
  by_cases atZero : member.memberEpoch = 0
  · have restarts : starting member = rejoining member := if_pos atZero
    left
    rw [restarts]
    exact decide_eq_true (Int.ne_of_lt positive)
  · have continues : starting member = member := if_neg atZero
    rw [continues]
    unfold moves
    cases s : member.state with
    | stable =>
      by_cases atEpoch : member.memberEpoch = group.groupEpoch
      · exact .inr ⟨rfl,s,atEpoch,arrived s atEpoch⟩
      · left
        simpa using atEpoch
    | unrevokedPartitions =>
      left
      simp [stillOwns,disjoint_iff_inter_eq_empty.mp apart]
    | unreleasedPartitions =>
      left
      rfl

lemma Next.fitted
    (next : Next base epoch taken owned after) (target : after.target = base.target) :
    Fitted after := by
  unfold Fitted
  rw [target]
  cases next with
  | revoke _ _ _ _ assigned _ =>
    rw [assigned]
    exact inter_subset_right
  | advance _ _ _ assigned _ =>
    rw [assigned]
    exact union_subset inter_subset_right (sdiff_subset.trans sdiff_subset)

lemma starting_fitted (fitted : Fitted member) : Fitted (starting member) := by
  unfold starting
  split
  · exact empty_subset _
  · exact fitted

lemma Turn.started (turn : Turn group mid member after owned) :
    SameMember (starting member) after := by
  have start := starting_same member
  exact ⟨turn.same.target.trans start.target.symm,turn.same.instanceId.trans start.instanceId.symm,
    turn.same.names.trans start.names.symm,turn.same.regex.trans start.regex.symm,
    turn.same.assignor.trans start.assignor.symm⟩

lemma free_target (known : Reconciling pattern group false)
    (caught : ∀ {id held}, group.members.get? id = some held → Caught group.assignmentEpoch held)
    (found : group.members.get? mid = some member) :
    Disjoint member.target (ownedByOthers group mid) := by
  rw [disjoint_right]
  intro slot taken targeted
  obtain ⟨other,differ,holds⟩ := mem_ownedByOthers.mp taken
  unfold heldBy at holds
  cases isOther : group.members.get? other with
  | none =>
    rw [isOther] at holds
    cases holds
  | some held =>
    have current := caught isOther
    rw [isOther] at holds
    simp only [map_some,getD_some,ConsumerMember.holds,current.pending,union_empty] at holds
    exact disjoint_left.mp (known.distinct.targets differ isOther found)
      (current.fitted holds) targeted

namespace Turn

variable (known : Reconciling topicPattern group false)
  (found : group.members.get? mid = some member)
  (turn : Turn group mid member after (some member.assigned))

include known found turn

lemma outcome : Next (starting member) group.assignmentEpoch (ownedByOthers group mid)
        (some member.assigned) after ∨
      Touched member after ∧ Settled group.assignmentEpoch member := by
  cases moves : moves (starting member) group.assignmentEpoch (some member.assigned) with
  | true => exact .inl (turn.moved moves)
  | false =>
    rcases moves_or_settled known found with moved | ⟨same,settled⟩
    · rw [moves] at moved
      cases moved
    · right
      have touched := turn.stayed moves
      rw [same] at touched
      exact ⟨touched,settled⟩

lemma fitted : Fitted after := by
  rcases turn.outcome known found with next | ⟨touched,settled⟩
  · exact next.fitted turn.started.target
  · unfold Fitted
    rw [touched.assigned,touched.target,settled.assigned]

lemma caught (fitted : Fitted member) : Caught group.assignmentEpoch after := by
  have still := turn.fitted known found
  rcases turn.outcome known found with next | ⟨touched,settled⟩
  · cases next with
    | revoke revoking =>
      exact absurd (sdiff_eq_empty_iff_subset.mpr (starting_fitted fitted)) revoking
    | advance _ memberEpoch _ _ pending => exact ⟨still,memberEpoch,pending⟩
  · refine ⟨still,touched.memberEpoch.trans settled.memberEpoch,?_⟩
    rw [touched.pendingRevocation]
    apply (known.placed found).settled
    rw [settled.stable]
    exact nofun

lemma settled (caught : ∀ {id held}, group.members.get? id = some held → Caught group.assignmentEpoch held) :
    Settled group.assignmentEpoch after := by
  have free := free_target known caught found
  rw [← (starting_same member).target] at free
  rcases turn.outcome known found with next | ⟨touched,settled⟩
  · cases next with
    | revoke revoking =>
      exact absurd (sdiff_eq_empty_iff_subset.mpr (starting_fitted (caught found).fitted)) revoking
    | advance _ memberEpoch s assigned _ =>
      have unreleased : ((starting member).target \ (starting member).assigned) ∩
          ownedByOthers group mid = ∅ :=
        disjoint_iff_inter_eq_empty.mp (free.mono_left sdiff_subset)
      rw [if_pos unreleased] at s
      refine ⟨s,memberEpoch,?_⟩
      rw [assigned,turn.started.target,sdiff_eq_self_of_disjoint (free.mono_left sdiff_subset)]
      ext slot
      simp only [mem_union,mem_inter,mem_sdiff]
      tauto
  · refine ⟨touched.state.trans settled.stable,touched.memberEpoch.trans settled.memberEpoch,?_⟩
    rw [touched.assigned,touched.target,settled.assigned]

/-! ### What a turn keeps -/

lemma placed : Placed topicPattern group.groupEpoch after := by
  have placed := known.placed found
  rcases turn.outcome known found with next | ⟨touched,_⟩
  · rw [known.epochs] at next
    exact next.placed turn.started known.nonneg (starting_placed known.nonneg placed)
  · apply touched.placed placed
    · rw [turn.same.regex]
      exact placed.regex
    · rw [turn.same.assignor]
      exact placed.assignor

lemma arrived : Arrived group.groupEpoch after := by
  rcases turn.outcome known found with next | ⟨touched,_⟩
  · rw [known.epochs] at next
    exact next.arrived turn.started
  · exact touched.arrived (known.arrived rfl found)

lemma staying (stays : member.memberEpoch ≠ leavingStaticMemberEpoch) :
    after.memberEpoch ≠ leavingStaticMemberEpoch := by
  have nonneg := known.nonneg
  rw [← known.epochs] at nonneg
  rcases turn.outcome known found with next | ⟨touched,_⟩
  · cases next with
    | revoke _ _ memberEpoch =>
      rw [memberEpoch]
      unfold starting
      split
      · exact (by decide : (0 : Int) ≠ leavingStaticMemberEpoch)
      · exact stays
    | advance _ memberEpoch =>
      unfold leavingStaticMemberEpoch
      omega
  · rw [touched.memberEpoch]
    exact stays

end Turn

variable {changed : ConsumerGroupDoc} {ids : String → Prop}

lemma Swapped.reconciling (known : Reconciling pattern group false)
    (found : group.members.get? mid = some member) (swapped : Swapped group changed mid after)
    (turn : Turn group mid member after (some member.assigned)) :
    Reconciling pattern changed false := by
  have inserted := known.change found (turn.placed known found) turn.same.target
    turn.same.instanceId (fun _ => turn.arrived known found)
  apply inserted.sub swapped.groupEpoch swapped.assignmentEpoch _ id
  intro id held isHeld
  rw [get?_insert]
  split
  · rename_i same
    rw [same,swapped.itself] at isHeld
    exact isHeld
  · rename_i differ
    rw [swapped.others id differ] at isHeld
    exact isHeld

lemma Steady.step {beat : Beat} (steady : Steady pattern ids epoch scene)
    (still : Quiet scene beat member) :
    ∃ next after, scene.beat pattern beat = some next ∧ Steady pattern ids epoch next ∧
      Swapped scene.group next.group beat.request.memberId after ∧
      Turn scene.group beat.request.memberId member after (some member.assigned) := by
  have known := steady.reconciling
  obtain ⟨next,after,beaten,swapped,turn,told⟩ :=
    beat_quiet known (steady.staying still.found) still (steady.told still.found)
  refine ⟨next,after,beaten,?_,swapped,turn⟩
  have cases_ : ∀ {id held}, next.group.members.get? id = some held →
      id = beat.request.memberId ∧ held = after ∨
        id ≠ beat.request.memberId ∧ scene.group.members.get? id = some held := by
    intro id held found
    by_cases same : id = beat.request.memberId
    · rw [same,swapped.itself] at found
      exact .inl ⟨same,(Option.some.inj found).symm⟩
    · rw [swapped.others id same] at found
      exact .inr ⟨same,found⟩
  constructor
  · exact swapped.reconciling known still.found turn
  · exact swapped.assignmentEpoch.trans steady.epoch
  · intro id
    rw [steady.present id]
    by_cases same : id = beat.request.memberId
    · rw [same,swapped.itself,still.found]
      simp
    · rw [swapped.others id same]
  · intro id held found
    rcases cases_ found with ⟨_,rfl⟩ | ⟨_,before⟩
    · exact turn.staying known still.found (steady.staying still.found)
    · exact steady.staying before
  · intro id held found
    rw [told]
    rcases cases_ found with ⟨rfl,rfl⟩ | ⟨differ,before⟩
    · exact Function.update_self ..
    · rw [Function.update_of_ne differ]
      exact steady.told before

end Turns

def Everyone (property : ConsumerMember → Prop) (group : ConsumerGroupDoc) : Prop :=
  ∀ memberId member, group.members.get? memberId = some member → property member

def Covers (ids : String → Prop) (beats : List Beat) : Prop :=
  ∀ memberId, ids memberId → memberId ∈ beats.map (fun beat => beat.request.memberId)

section Rounds

variable {pattern : Patterns} {ids : String → Prop} {beats : List Beat}

/-- A round takes everybody from where everybody is to where a turn leads from there. -/
lemma heartbeat_round (earlier later : ConsumerMember → Prop)
    (turns : ∀ {group mid member after}, Reconciling pattern group false →
      group.assignmentEpoch = epoch → Everyone earlier group →
        group.members.get? mid = some member →
          Turn group mid member after (some member.assigned) → later after)
    (weaken : ∀ member, later member → earlier member)
    (steady : Steady pattern ids epoch scene) (everyone : Everyone earlier scene.group)
    (covers : Covers ids beats) (allows : Allowed (Scene.beat pattern) quiet scene beats) :
    ∃ final, play (Scene.beat pattern) scene beats = some final ∧
      Steady pattern ids epoch final ∧ Everyone later final.group := by
  have progress : ∀ {scene : Scene} {beat : Beat},
      Steady pattern ids epoch scene ∧ Everyone earlier scene.group → quiet scene beat →
        ∃ next, scene.beat pattern beat = some next ∧
          (Steady pattern ids epoch next ∧ Everyone earlier next.group) ∧
          (∀ member, next.group.members.get? beat.request.memberId = some member → later member) ∧
          ∀ id, id ≠ beat.request.memberId →
            (∀ member, scene.group.members.get? id = some member → later member) →
              ∀ member, next.group.members.get? id = some member → later member := by
    intro scene beat holds isQuiet
    obtain ⟨steady,everyone⟩ := holds
    obtain ⟨member,isQuiet⟩ := isQuiet
    obtain ⟨next,after,beaten,still,swapped,turn⟩ := steady.step isQuiet
    have there := turns steady.reconciling steady.epoch everyone isQuiet.found turn
    refine ⟨next,beaten,⟨still,?_⟩,?_,?_⟩
    · intro id held found
      by_cases same : id = beat.request.memberId
      · rw [same,swapped.itself] at found
        cases found
        exact weaken _ there
      · rw [swapped.others id same] at found
        exact everyone id held found
    · intro held found
      rw [swapped.itself] at found
      cases found
      exact there
    · intro id differ before held found
      rw [swapped.others id differ] at found
      exact before held found
  obtain ⟨final,played,⟨still,_⟩,arrived⟩ := round
    (fun scene => Steady pattern ids epoch scene ∧ Everyone earlier scene.group)
    (fun scene mid =>
      ∀ member, scene.group.members.get? mid = some member → later member)
    (fun beat => beat.request.memberId) progress ⟨steady,everyone⟩ allows
  refine ⟨final,played,still,?_⟩
  intro mid member found
  apply arrived mid (.inr (covers mid _)) member found
  rw [still.present,found]
  rfl

variable (steady : Steady pattern ids epoch scene) (covers : Covers ids beats)
  (allows : Allowed (Scene.beat pattern) quiet scene beats)

include steady covers allows

lemma fitted_round : ∃ final, play (Scene.beat pattern) scene beats = some final ∧
      Steady pattern ids epoch final ∧ Everyone Fitted final.group := by
  apply heartbeat_round (fun _ => True) Fitted _ _ steady _ covers allows
  · intro group id member after known _ _ found turn
    exact turn.fitted known found
  · intro member _
    trivial
  · intro id member _
    trivial

lemma caught_round (fitted : Everyone Fitted scene.group) :
    ∃ final, play (Scene.beat pattern) scene beats = some final ∧
      Steady pattern ids epoch final ∧ Everyone (Caught epoch) final.group := by
  apply heartbeat_round Fitted (Caught epoch) _ _ steady fitted covers allows
  · intro group id member after known atEpoch everyone found turn
    rw [← atEpoch]
    exact turn.caught known found (everyone id member found)
  · intro member caught
    exact caught.fitted

lemma settled_round (caught : Everyone (Caught epoch) scene.group) :
    ∃ final, play (Scene.beat pattern) scene beats = some final ∧
      Steady pattern ids epoch final ∧
      Everyone (fun member => Caught epoch member ∧ Settled epoch member) final.group := by
  apply heartbeat_round (Caught epoch) _ _ _ steady caught covers allows
  · intro group id member after known atEpoch everyone found turn
    rw [← atEpoch] at everyone ⊢
    exact ⟨turn.caught known found (everyone id member found).fitted,
      turn.settled known found (fun isHeld => everyone _ _ isHeld)⟩
  · intro member both
    exact both.1

end Rounds

/-- From every document that is reached by convergent requests, and that nobody is leaving, three
rounds of quiet heartbeats, in any order, lead everybody to be stable at the assignment epoch and
to own its target. -/
theorem rounds_converge (topicPattern : Patterns) {state : Option ConsumerGroupDoc}
    (reached : System.Reachable (documents topicPattern) convergent state)
    {group : ConsumerGroupDoc} (current : state = some group)
    (staying : Everyone (fun member => member.memberEpoch ≠ leavingStaticMemberEpoch) group)
    {told : String → Partitions}
    (informed : ∀ memberId member, group.members.get? memberId = some member →
      told memberId = member.assigned)
    {first second third : List Beat}
    (covers : ∀ beats ∈ [first, second, third],
      Covers (fun memberId => (group.members.get? memberId).isSome) beats)
    (allows : Allowed (Scene.beat topicPattern) quiet ⟨group, told⟩ (first ++ (second ++ third))) :
    ∃ final, play (Scene.beat topicPattern) ⟨group, told⟩ (first ++ (second ++ third)) = some final ∧
      (∀ memberId, (final.group.members.get? memberId).isSome ↔
        (group.members.get? memberId).isSome) ∧
      Everyone (fun member => member.state = .stable ∧
        member.memberEpoch = final.group.assignmentEpoch ∧ member.assigned = member.target)
          final.group := by
  have steady : Steady topicPattern (fun memberId => (group.members.get? memberId).isSome)
      group.assignmentEpoch ⟨group,told⟩ :=
    { reconciling := reachable_reconciling topicPattern reached group current
      epoch := rfl
      present := fun _ => Iff.rfl
      staying := fun found => staying _ _ found
      told := fun found => informed _ _ found }
  obtain ⟨allowsFirst,allowsRest⟩ := allows.of_append
  obtain ⟨afterFirst,playedFirst,steadyFirst,fitted⟩ :=
    fitted_round steady (covers first (by simp)) allowsFirst
  obtain ⟨allowsSecond,allowsThird⟩ := (allowsRest afterFirst playedFirst).of_append
  obtain ⟨afterSecond,playedSecond,steadySecond,caught⟩ :=
    caught_round steadyFirst (covers second (by simp)) allowsSecond fitted
  obtain ⟨final,playedThird,steadyThird,settled⟩ :=
    settled_round steadySecond (covers third (by simp)) (allowsThird afterSecond playedSecond)
      caught
  refine ⟨final,?_,fun memberId => (steadyThird.present memberId).symm,?_⟩
  · rw [play_append playedFirst,play_append playedSecond,playedThird]
  · intro memberId member found
    have reached := (settled memberId member found).2
    rw [steadyThird.epoch]
    exact ⟨reached.stable,reached.memberEpoch,reached.assigned⟩

def quietBeat (memberId : String) (memberEpoch : Int) (owned : List Int) : Beat where
  request := { memberId, memberEpoch, topicPartitions := some [(1, owned)] }
  client := {}
  minted := sampleMinted
  resolved := none
  liveness := {}
  config := {}
  nowMs := 0

def documentAfter (requests : List Request) : ConsumerGroupDoc :=
  opened (System.exec (documents (fun _ => none)) (fun _ _ => true) none requests).join 0

def handover : ConsumerGroupDoc :=
  documentAfter [sampleBeat "a" 0 (some ["t"]) [], sampleBeat "b" 0 (some ["t"]) []]

/-- The second member gets its partition in the third round. -/
theorem rounds_converge_handover :
    ∃ final, play (Scene.beat (fun _ => none))
        ⟨handover, fun memberId => if memberId = "a" then {⟨1, 0⟩, ⟨1, 1⟩} else ∅⟩
        ([quietBeat "a" 1 [0, 1], quietBeat "b" 2 []] ++
          ([quietBeat "b" 2 [], quietBeat "a" 1 [1]] ++ [quietBeat "a" 2 [1], quietBeat "b" 2 []])) =
          some final ∧
      (∀ memberId, (final.group.members.get? memberId).isSome ↔
        (handover.members.get? memberId).isSome) ∧
      Everyone (fun member => member.state = .stable ∧
        member.memberEpoch = final.group.assignmentEpoch ∧ member.assigned = member.target)
          final.group := by
  have ended : System.exec (documents (fun _ => none))
      (fun held request => !request.converts && held.all (fun group => group.groupEpoch < i32Max)) none
      [sampleBeat "a" 0 (some ["t"]) [], sampleBeat "b" 0 (some ["t"]) []] =
        some (some handover) := by decide +kernel
  have met : ∀ {held : Option ConsumerGroupDoc} {request : Request},
      (!request.converts && held.all (fun group => group.groupEpoch < i32Max)) = true →
        convergent held request := by
    intro held request passed
    simp only [Bool.and_eq_true,all_eq_true,decide_eq_true_eq] at passed
    refine ⟨passed.2,?_⟩
    cases request with
    | convert => cases passed.1
    | _ => trivial
  have members : ∀ memberId member, handover.members.get? memberId = some member →
      (memberId, member) ∈ handover.members.entries := fun _ _ => mem_entries.mpr
  apply rounds_converge (fun _ => none) (System.Reachable.init.exec met ended) rfl
  · have everyone : ∀ entry ∈ handover.members.entries,
        entry.2.memberEpoch ≠ leavingStaticMemberEpoch := by decide +kernel
    intro memberId member found
    exact everyone (memberId, member) (members memberId member found)
  · have everyone : ∀ entry ∈ handover.members.entries,
        (if entry.1 = "a" then {⟨1,0⟩, ⟨1,1⟩} else ∅) = entry.2.assigned := by decide +kernel
    intro memberId member found
    exact everyone (memberId, member) (members memberId member found)
  · have everyone : ∀ entry ∈ handover.members.entries, entry.1 = "a" ∨ entry.1 = "b" := by
      decide +kernel
    intro beats isRound memberId present
    obtain ⟨member,found⟩ := isSome_iff_exists.mp present
    have either := everyone (memberId, member) (members memberId member found)
    simp only [List.mem_cons,List.not_mem_nil,or_false] at isRound
    rcases isRound with rfl | rfl | rfl <;> rcases either with rfl | rfl <;> simp [quietBeat]
  · exact Allowed.of_passes quiet_of_isQuiet (by decide +kernel)

variable {assignment : AssignmentDoc}

lemma assignsOnce_single
    (single : assignment.assignments.entries.length ≤ 1) : AssignsOnce assignment := by
  intro left right toLeft toRight first second differ isLeft isRight
  have leftListed := mem_entries.mpr isLeft
  have rightListed := mem_entries.mpr isRight
  match entries : assignment.assignments.entries with
  | [] =>
    rw [entries] at leftListed
    cases leftListed
  | [entry] =>
    rw [entries,List.mem_singleton] at leftListed rightListed
    exact absurd (congrArg Prod.fst (leftListed.trans rightListed.symm)) differ
  | entry :: other :: rest =>
    rw [entries] at single
    simp at single

/-- The first generation of a classic group, with one member, converted; then the member comes
back under the consumer protocol. -/
def upgraded : List Request :=
  [.convert { members := OrderedMap.empty.insert "m" {} }
      (OrderedMap.empty.insert "m"
        { joinResponse := { metadata := { parsed := some { topics := ["t"] } } } })
      (some
        { generationId := 0
          leader := "m"
          protocolType := consumerProtocol
          protocolName := "range"
          assignments := OrderedMap.empty.insert "m"
            { bytes := [0], parsed := some { assignedPartitions := [⟨"t", [0, 1]⟩] } }
          assignedAtMs := 0 })
      (OrderedMap.empty.insert "t" (1, 2)) 0,
    sampleBeat "m" 0 (some ["t"]) []]

/-- The epoch of the first generation is the one of a join, so that the member has nothing to
catch up with: after the rounds it still owns nothing. -/
def assignsOne : Request → Bool
  | .convert _ _ (some assignment) _ _ => decide (assignment.assignments.entries.length ≤ 1)
  | _ => true

theorem conversion_stalls :
    System.Reachable (documents (fun _ => none)) convertsOnce (some (documentAfter upgraded)) ∧
      Everyone (fun member => member.classic = none ∧
        member.memberEpoch ≠ leavingStaticMemberEpoch ∧ member.assigned = ∅)
          (documentAfter upgraded) ∧
      Covers (fun memberId => ((documentAfter upgraded).members.get? memberId).isSome)
        [quietBeat "m" 0 []] ∧
      Allowed (Scene.beat (fun _ => none)) quiet ⟨documentAfter upgraded, fun _ => ∅⟩
        [quietBeat "m" 0 [], quietBeat "m" 0 [], quietBeat "m" 0 []] ∧
      ∃ final, play (Scene.beat (fun _ => none)) ⟨documentAfter upgraded, fun _ => ∅⟩
          [quietBeat "m" 0 [], quietBeat "m" 0 [], quietBeat "m" 0 []] = some final ∧
        ∃ member, final.group.members.get? "m" = some member ∧ member.assigned = ∅ ∧
          member.target = {⟨1, 0⟩, ⟨1, 1⟩} := by
  have met : ∀ {held : Option ConsumerGroupDoc} {request : Request},
      assignsOne request = true → convertsOnce held request := by
    intro held request passed
    cases request with
    | convert generation members assignment resolved nowMs =>
      cases assignment with
      | none => trivial
      | some assignment => exact assignsOnce_single (decide_eq_true_eq.mp passed)
    | _ => trivial
  have ended : System.exec (documents (fun _ => none))
      (fun _ request => assignsOne request) none upgraded = some (some (documentAfter upgraded)) := by decide +kernel
  have everyone : ∀ entry ∈ (documentAfter upgraded).members.entries,
      entry.1 = "m" ∧ entry.2.classic = none ∧
        entry.2.memberEpoch ≠ leavingStaticMemberEpoch ∧ entry.2.assigned = ∅ := by decide +kernel
  refine ⟨System.Reachable.init.exec met ended,?_,?_,?_,?_⟩
  · intro memberId member found
    exact (everyone (memberId, member) (mem_entries.mpr found)).2
  · intro memberId present
    obtain ⟨member,found⟩ := isSome_iff_exists.mp present
    have only := (everyone (memberId, member) (mem_entries.mpr found)).1
    exact List.mem_singleton.mpr only
  · exact Allowed.of_passes quiet_of_isQuiet (by decide +kernel)
  · have stays : (play (Scene.beat (fun _ => none)) ⟨documentAfter upgraded,fun _ => ∅⟩
        [quietBeat "m" 0 [], quietBeat "m" 0 [], quietBeat "m" 0 []]).map (fun final =>
          (final.group.members.get? "m").map (fun member => (member.assigned, member.target))) =
          some (some (∅, {⟨1,0⟩, ⟨1,1⟩})) := by decide +kernel
    obtain ⟨final,played,observed⟩ := map_eq_some_iff.mp stays
    obtain ⟨member,found,held⟩ := map_eq_some_iff.mp observed
    obtain ⟨assigned,target⟩ := Prod.mk.inj held
    exact ⟨final,played,member,found,assigned,target⟩

end Kodansu.Group

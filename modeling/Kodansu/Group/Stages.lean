/-
Every request works on the group in the same stages: sweep, let somebody in or out, take up
what the request says, assign again if the composition moved, reconcile, stamp.

A property of the document is proved stage by stage.  Before the assignment it may be owed,
which the flag of the source says: `fresh` holds until somebody is let in or out, `owing` from
then to the assignment, `kept` after it.
-/

import Kodansu.Group.Migration

namespace Kodansu.Group

open Lib OrderedMap

/-- Nobody has the instance id, or the member itself does. -/
def Claims (group : ConsumerGroupDoc) (memberId : String) (instanceId : Option String) : Prop :=
  ∀ id, instanceId = some id →
    (∀ other member, group.members.get? other = some member → member.instanceId ≠ some id) ∨
      ∃ member, group.members.get? memberId = some member ∧ member.instanceId = some id

structure Stages (topicPattern : Patterns)
    (joins : ConsumerGroupDoc → String → HeartbeatRequest → Prop)
    (fresh owing : ConsumerGroupDoc → Bool → Prop) (kept : ConsumerGroupDoc → Prop) : Prop where
  swept {group : ConsumerGroupDoc} (liveness : Liveness) (nowMs : Int) (holds : fresh group false) :
    fresh (sweep group liveness nowMs).1 (sweep group liveness nowMs).2
  admitted {group : ConsumerGroupDoc} {rebalance : Bool} (holds : fresh group rebalance) :
    owing group rebalance
  left {group next : ConsumerGroupDoc} {rebalance gone : Bool} {request : HeartbeatRequest}
    {nowMs : Int} (holds : fresh group rebalance)
    (leaves : leave group request nowMs = .ok (next, gone)) : owing next (rebalance || gone)
  joined {group next : ConsumerGroupDoc} {rebalance new : Bool} {memberId : String}
    {request : HeartbeatRequest} {client : Client} {config : ConsumerGroupConfig}
    (holds : fresh group rebalance) (nonempty : memberId ≠ "") (allowed : joins group memberId request)
    (enters : joinAs group memberId request client config = .ok (next, new)) :
    owing next (rebalance || new)
  enrolled {group next : ConsumerGroupDoc} {rebalance new : Bool} {memberId : String}
    {config : ConsumerGroupConfig} (holds : fresh group rebalance)
    (nonempty : memberId ≠ "" ∨ (group.members.get? memberId).isSome)
    (enters : enrol group memberId config = .ok (next, new)) : owing next (rebalance || new)
  removed {group : ConsumerGroupDoc} {rebalance : Bool} (memberId : String)
    (holds : owing group rebalance) :
    owing { group with members := group.members.remove memberId } true
  updated {group : ConsumerGroupDoc} {rebalance resubscribed : Bool} {memberId : String}
    {member next : ConsumerMember} {request : HeartbeatRequest} {client : Client}
    {config : ConsumerGroupConfig} (holds : owing group rebalance)
    (found : group.members.get? memberId = some member)
    (changes : updateMember topicPattern member request client config = .ok (next, resubscribed)) :
    owing { group with members := group.members.insert memberId next } (rebalance || resubscribed)
  spoken {group : ConsumerGroupDoc} {rebalance : Bool} {memberId : String} {member : ConsumerMember}
    {request : ClassicJoin} (client : Client) (protocol : String × Encoded MemberMetadata)
    (subscription : MemberMetadata) (holds : owing group rebalance)
    (found : group.members.get? memberId = some member)
    (claims : Claims group memberId request.instanceId) :
    owing
      { group with
        members := group.members.insert memberId
          (speakClassic member request client protocol subscription) }
      (rebalance || (decide (member.subscribedTopicNames ≠ sorted subscription.topics) ||
        member.serverAssignor.isSome))
  refreshed {group : ConsumerGroupDoc} {rebalance : Bool} (resolved : Resolved)
    (holds : owing group rebalance) : owing { group with topics := topicsOf resolved } true
  assigned {group : ConsumerGroupDoc} {rebalance : Bool} (holds : owing group rebalance) :
    kept (rebalanced topicPattern rebalance group)
  reconciled {group : ConsumerGroupDoc} (memberId : String) (owned : Option Partitions) (nowMs : Int)
    (holds : kept group) : kept (reconcile group memberId owned nowMs)
  stamped {group : ConsumerGroupDoc} (memberId : String) (nowMs : Int) (holds : kept group) :
    kept (stamped group memberId nowMs)

variable {α β : Type} {first : Except ErrorCode α} {value start result : β}

lemma bind_ok {rest : α → Except ErrorCode β}
    (succeeded : (first >>= rest) = .ok value) : ∃ middle, first = .ok middle ∧ rest middle = .ok value := by
  cases first with
  | error code => cases succeeded
  | ok middle => exact ⟨middle,rfl,succeeded⟩

lemma map_ok {change : α → β} (succeeded : first.map change = .ok value) :
    ∃ middle, first = .ok middle ∧ change middle = value := by
  cases first with
  | error code => cases succeeded
  | ok middle => exact ⟨middle,rfl,Except.ok.inj succeeded⟩

lemma foldlM_ok {step : β → α → Except ErrorCode β} {motive : β → Prop}
    {entries : List α} (base : motive start)
    (preserved : ∀ {before after entry}, entry ∈ entries → motive before →
      step before entry = .ok after → motive after)
    (folded : entries.foldlM step start = .ok result) : motive result := by
  induction entries generalizing start with
  | nil =>
    cases folded
    exact base
  | cons first rest ih =>
    obtain ⟨middle,stepped,folded⟩ := bind_ok folded
    apply ih (preserved (.head _) base stepped) _ folded
    intro before after entry inRest
    exact preserved (.tail _ inRest)

/-! ### Who a classic join claims to be -/

section

variable {group : ConsumerGroupDoc} {request : ClassicJoin} {client : Client} {minted : Minted}
  {mid : String} (joins : joiner group request client minted = .ok (.known mid))

include joins

lemma joiner_claims : Claims group mid request.instanceId := by
  intro id isId
  unfold joiner at joins
  rw [isId,Option.bind_some] at joins
  cases found : instanceMember group id with
  | none =>
    left
    intro other member known same
    have missed := List.find?_eq_none.mp found (other, member) (mem_entries.mpr known)
    simp [same] at missed
  | some entry =>
    obtain ⟨heldId,holder⟩ := entry
    rw [found] at joins
    dsimp only at joins
    split at joins
    · cases joins
      right
      have isHolder := List.find?_some found
      exact ⟨holder,mem_entries.mp (List.mem_of_find?_eq_some found),
        by simpa using isHolder⟩
    · cases joins

lemma joiner_nonempty : mid ≠ "" ∨ (group.members.get? mid).isSome := by
  unfold joiner at joins
  split at joins
  · rename_i heldId holder found
    split at joins
    · cases joins
      right
      obtain ⟨id,_,isHolder⟩ := Option.bind_eq_some_iff.mp found
      rw [mem_entries.mp (List.mem_of_find?_eq_some isHolder)]
      rfl
    · cases joins
  · split at joins
    · rename_i given
      cases joins
      exact .inl given
    · split at joins
      · cases joins
        exact .inl minted.2
      · cases joins

end

lemma joiningId_nonempty (req : HeartbeatRequest) (minted : Minted) :
    joiningId req minted ≠ "" := by
  unfold joiningId
  split
  · exact minted.2
  · next given => exact given

variable {group next : ConsumerGroupDoc} {mid : String} {instanceId : Option String}
  {config : ConsumerGroupConfig} {new : Bool}

lemma Claims.enrol (claims : Claims group mid instanceId)
    (enters : enrol group mid config = .ok (next, new)) : Claims next mid instanceId := by
  unfold Group.enrol at enters
  split at enters
  · cases enters
    exact claims
  · rename_i absent
    split at enters
    · cases enters
    cases enters
    intro id isId
    rcases claims id isId with nobody | ⟨member,found,_⟩
    · left
      intro other member found
      rw [get?_insert] at found
      split at found
      · cases found
        exact nofun
      · exact nobody other member found
    · rw [found] at absent
      exact absurd rfl absent

lemma enrol_present (enters : enrol group mid config = .ok (next, new)) :
    ∃ member, next.members.get? mid = some member := by
  unfold enrol at enters
  split at enters
  · rename_i present
    cases enters
    exact Option.isSome_iff_exists.mp present
  · split at enters
    · cases enters
    · cases enters
      exact ⟨_,get?_insert_self _ _ _⟩

/-! ### What a request leaves alone -/

/-- Neither the member's place in the reconciliation nor its target has changed. -/
structure Touched (member next : ConsumerMember) : Prop where
  memberEpoch : next.memberEpoch = member.memberEpoch
  state : next.state = member.state
  assigned : next.assigned = member.assigned
  pendingRevocation : next.pendingRevocation = member.pendingRevocation
  target : next.target = member.target

variable {second third member : ConsumerMember}

lemma Touched.trans {first : ConsumerMember} (earlier : Touched first second)
    (later : Touched second third) : Touched first third :=
  ⟨later.memberEpoch.trans earlier.memberEpoch,later.state.trans earlier.state,
    later.assigned.trans earlier.assigned,
    later.pendingRevocation.trans earlier.pendingRevocation,later.target.trans earlier.target⟩

lemma Touched.holds {next : ConsumerMember} (touched : Touched member next) :
    next.holds = member.holds := by
  unfold ConsumerMember.holds
  rw [touched.assigned,touched.pendingRevocation]

lemma speakClassic_touched (member : ConsumerMember) (req : ClassicJoin) (client : Client)
    (protocol : String × Encoded MemberMetadata) (subscription : MemberMetadata) :
    Touched member (speakClassic member req client protocol subscription) :=
  ⟨rfl,rfl,rfl,rfl,rfl⟩

structure Subscribed (member next : ConsumerMember) : Prop where
  names : next.subscribedTopicNames = member.subscribedTopicNames
  regex : next.subscribedTopicRegex = member.subscribedTopicRegex

lemma updateNames_inv (member : ConsumerMember) (req : HeartbeatRequest) :
    ∃ names, (updateNames member req).1 = { member with subscribedTopicNames := names } ∧
      ((updateNames member req).2 = false → names = member.subscribedTopicNames) := by
  unfold updateNames
  split
  · exact ⟨_,rfl,fun _ => rfl⟩
  split
  · exact ⟨_,rfl,fun _ => rfl⟩
  · exact ⟨_,rfl,nofun⟩

section

variable {topicPattern pattern : Patterns} {req : HeartbeatRequest} {moved : Bool} {client : Client}

lemma updateRegex_inv {next : ConsumerMember}
    (updates : updateRegex topicPattern member req = .ok (next, moved)) :
    ∃ regex, next = { member with subscribedTopicRegex := regex } ∧
      (regex = member.subscribedTopicRegex ∨
        moved = true ∧ ∀ pattern, regex = some pattern → (topicPattern pattern).isSome) := by
  unfold updateRegex at updates
  split at updates
  · cases updates
    exact ⟨_,rfl,.inl rfl⟩
  split at updates
  · cases updates
  rename_i compiles
  split at updates
  · cases updates
    exact ⟨_,rfl,.inl rfl⟩
  cases updates
  refine ⟨_,rfl,.inr ⟨rfl,?_⟩⟩
  rintro pattern rfl
  simpa [Option.isSome_iff_ne_none] using compiles

lemma updateAssignor_inv {next : ConsumerMember}
    (updates : updateAssignor member req = .ok (next, moved)) :
    ∃ assignor, next = { member with serverAssignor := assignor } ∧
      (assignor = member.serverAssignor ∨
        ∀ name, assignor = some name → isSupported name = true) := by
  unfold updateAssignor at updates
  split at updates
  · cases updates
    exact ⟨_,rfl,.inl rfl⟩
  split at updates
  · cases updates
  rename_i supported
  split at updates
  · cases updates
    exact ⟨_,rfl,.inl rfl⟩
  cases updates
  refine ⟨_,rfl,.inr ?_⟩
  rintro name ⟨⟩
  simpa using supported

/-- An update changes what the member subscribes to and the assignor it asks for, each only to
something valid. -/
lemma updateMember_inv {next : ConsumerMember}
    (updates : updateMember topicPattern member req client config = .ok (next, moved)) :
    ∃ names regex assignor, next = { refreshMember member req client config with
        subscribedTopicNames := names
        subscribedTopicRegex := regex
        serverAssignor := assignor } ∧
      (moved = false → names = member.subscribedTopicNames) ∧
      (regex = member.subscribedTopicRegex ∨
        moved = true ∧ ∀ pattern, regex = some pattern → (topicPattern pattern).isSome) ∧
      (assignor = member.serverAssignor ∨
        ∀ name, assignor = some name → isSupported name = true) := by
  unfold updateMember at updates
  obtain ⟨names,renamed,sameNames⟩ :=
    updateNames_inv (refreshMember member req client config) req
  generalize updateNames (refreshMember member req client config) req = named at *
  obtain ⟨⟨_,regexMoved⟩,regexed,updates⟩ := bind_ok updates
  obtain ⟨⟨_,assignorMoved⟩,voted,same⟩ := bind_ok updates
  cases same
  obtain ⟨regex,rfl,isRegex⟩ := updateRegex_inv regexed
  obtain ⟨assignor,rfl,isAssignor⟩ := updateAssignor_inv voted
  rw [renamed] at isRegex isAssignor ⊢
  refine ⟨names,regex,assignor,rfl,?_,?_,isAssignor⟩
  · intro still
    rw [Bool.or_eq_false_iff,Bool.or_eq_false_iff] at still
    exact sameNames still.1.1
  · refine isRegex.imp_right (fun compiles => ⟨?_,compiles.2⟩)
    rw [compiles.1,Bool.or_true,Bool.true_or]

lemma updateMember_spec {next : ConsumerMember}
    (updates : updateMember pattern member req client config = .ok (next, moved)) :
    Touched member next ∧ next.instanceId = member.instanceId ∧
      (moved = false → Subscribed member next) := by
  obtain ⟨names,regex,assignor,rfl,sameNames,isRegex,_⟩ := updateMember_inv updates
  refine ⟨⟨rfl,rfl,rfl,rfl,rfl⟩,rfl,?_⟩
  rintro rfl
  exact ⟨sameNames rfl,isRegex.resolve_right nofun⟩

end

/-! ### The requests, stage by stage -/

namespace Stages

variable {topicPattern : Patterns} {joins : ConsumerGroupDoc → String → HeartbeatRequest → Prop}
  {fresh owing : ConsumerGroupDoc → Bool → Prop} {kept : ConsumerGroupDoc → Prop}
  (stages : Stages topicPattern joins fresh owing kept)

include stages

variable {rebalance : Bool} {request : HeartbeatRequest} {client : Client}
  {before : ConsumerGroupDoc} {liveness : Liveness} {nowMs gid : Int} {minted : Minted}
  {held : Option ConsumerGroupDoc} {resolved : Option Resolved}
  {transition : Transition ClassicJoinResponse} {inst : Option String}
  {protocol : Option String × Option String} {identities : List (String × Option String)}

lemma refresh (resolved : Option Resolved) (holds : owing group rebalance) :
    owing (refresh group resolved).1 (rebalance || (refresh group resolved).2) := by
  cases resolved with
  | none => simpa [Group.refresh] using holds
  | some resolved =>
    unfold Group.refresh refreshTopics
    dsimp only
    split
    · simpa using holds
    · simpa using stages.refreshed _ holds

lemma update {resubscribed : Bool} (holds : owing group rebalance)
    (updates : update topicPattern group mid request client config = .ok (next, resubscribed)) :
    owing next (rebalance || resubscribed) := by
  unfold Group.update at updates
  split at updates
  · cases updates
    simpa using holds
  · rename_i member found
    obtain ⟨⟨changed,moved⟩,changes,same⟩ := bind_ok updates
    cases same
    exact stages.updated holds found changes

lemma settle {ρ : Type} {resp : ρ} (holds : kept group) :
    kept (settled before group mid liveness nowMs resp).group := by
  unfold settled
  dsimp only
  split
  · exact stages.stamped _ _ holds
  · exact holds

lemma depart (identities : List (String × Option String)) (leaving : Leaving)
    (holds : owing leaving.group leaving.rebalance) :
    owing (identities.foldl Leaving.depart leaving).group
      (identities.foldl Leaving.depart leaving).rebalance := by
  refine List.foldlRecOn (motive := fun (leaving : Leaving) => owing leaving.group leaving.rebalance)
    identities Leaving.depart holds ?_
  intro leaving holds identity _
  unfold Leaving.depart
  split
  · exact stages.removed _ holds
  · exact holds

lemma departed
    {transition : Transition HeartbeatResponse} (holds : fresh group false)
    (left : departed topicPattern before (sweep group liveness nowMs) request nowMs = .ok
      transition) : kept transition.group := by
  obtain ⟨⟨next,gone⟩,leaves,same⟩ := bind_ok left
  cases same
  exact stages.assigned (stages.left (stages.swept liveness nowMs holds) leaves)

lemma enterGroup (holds : fresh group rebalance)
    (allowed : request.memberEpoch = 0 → joins group (joiningId request minted) request)
    (enters : enterGroup group request client minted config = .ok (next, mid, new)) :
    owing next (rebalance || new) := by
  unfold Group.enterGroup at enters
  split at enters
  · rename_i joining
    obtain ⟨⟨entered,isNew⟩,joinsIn,same⟩ := bind_ok enters
    cases same
    exact stages.joined holds (joiningId_nonempty request minted) (allowed joining) joinsIn
  · obtain ⟨_,_,same⟩ := bind_ok enters
    cases same
    simpa using stages.admitted holds

lemma apply
    {transition : Transition HeartbeatResponse} (holds : fresh (opened held nowMs) false)
    (allowed : request.memberEpoch = 0 → joins (sweep (opened held nowMs) liveness nowMs).1
      (joiningId request minted) request)
    (applied : apply topicPattern held request client minted resolved liveness config nowMs = .ok
      transition) : kept transition.group := by
  unfold Group.apply at applied
  dsimp only at applied
  split at applied
  · exact stages.departed holds applied
  obtain ⟨⟨entered,mid,new⟩,enters,applied⟩ := bind_ok applied
  obtain ⟨⟨changed,resubscribed⟩,updates,applied⟩ := bind_ok applied
  have owes := stages.enterGroup (stages.swept liveness nowMs holds) allowed enters
  have owesMore := stages.refresh resolved (stages.update owes updates)
  have reconciled := stages.reconciled mid (ownedFromRequest request) nowMs
    (stages.assigned owesMore)
  split at applied
  · cases applied
  cases applied
  unfold answered
  dsimp only
  split
  · exact stages.stamped _ _ reconciled
  · exact reconciled

lemma joinedAs {request : ClassicJoin} (holds : fresh group false)
    (nonempty : mid ≠ "" ∨ ((sweep group liveness nowMs).1.members.get? mid).isSome)
    (claims : Claims (sweep group liveness nowMs).1 mid request.instanceId)
    (joined : joinedAs topicPattern before (sweep group liveness nowMs) mid request client
      resolved liveness config nowMs = .ok transition) : kept transition.group := by
  unfold Group.joinedAs at joined
  split at joined
  · cases joined
  rename_i protocol _
  split at joined
  · cases joined
  rename_i subscription _
  obtain ⟨⟨enrolledGroup,new⟩,enters,joined⟩ := bind_ok joined
  have owes := stages.refresh resolved
    (stages.enrolled (stages.swept liveness nowMs holds) nonempty enters)
  obtain ⟨member,found⟩ := enrol_present enters
  have refreshedMembers : (Group.refresh enrolledGroup resolved).1.members =
      enrolledGroup.members := by
    cases resolved with
    | none => rfl
    | some resolved =>
      unfold Group.refresh refreshTopics
      dsimp only
      split <;> rfl
  have stillClaims : Claims (Group.refresh enrolledGroup resolved).1 mid
      request.instanceId := by
    unfold Claims
    rw [refreshedMembers]
    exact claims.enrol enters
  rw [← refreshedMembers] at found
  have owesMore := stages.spoken client protocol subscription owes found stillClaims
  dsimp only at joined
  unfold speak at joined
  rw [found] at joined
  split at joined
  · cases joined
  · cases joined
    exact stages.settle (stages.reconciled _ _ _ (stages.assigned owesMore))

lemma join {request : ClassicJoin} (holds : fresh (opened held nowMs) false)
    (joined : join topicPattern held request client minted resolved liveness config nowMs = .ok
      transition) : transition.changed = true → kept transition.group := by
  intro changed
  unfold Group.join at joined
  split at joined
  · cases joined
  obtain ⟨who,isWho,joined⟩ := bind_ok joined
  cases who with
  | required mid =>
    cases joined
    cases changed
  | known mid =>
    exact stages.joinedAs holds (joiner_nonempty isWho) (joiner_claims isWho) joined

lemma sync {transition : Transition ClassicSyncResponse} (holds : fresh group false)
    (synced : sync topicPattern (some group) mid inst gid protocol liveness
      nowMs = .ok transition) : kept transition.group := by
  have assigned := stages.assigned (stages.admitted (stages.swept liveness nowMs holds))
  obtain ⟨⟨member,classic⟩,_,synced⟩ := bind_ok synced
  dsimp only at synced
  split at synced
  · cases synced
  split at synced
  · cases synced
  · cases synced
    exact stages.settle assigned

lemma heartbeat {transition : Transition ErrorCode} (holds : fresh group false)
    (beat : heartbeat topicPattern (some group) mid inst gid resolved liveness
      nowMs = .ok transition) : kept transition.group := by
  have assigned := stages.assigned
    (stages.refresh resolved (stages.admitted (stages.swept liveness nowMs holds)))
  obtain ⟨⟨member,classic⟩,_,beat⟩ := bind_ok beat
  cases beat
  exact stages.settle assigned

lemma leaveClassic
    {transition : Transition (List ClassicLeaveResponse)} (holds : fresh group false)
    (left : leaveClassic topicPattern (some group) identities liveness nowMs = .ok transition) :
    kept transition.group := by
  cases left
  exact stages.assigned
    (stages.depart identities _ (stages.admitted (stages.swept liveness nowMs holds)))

end Stages

/-! ### Whole runs -/

def Request.Joins (joins : ConsumerGroupDoc → String → HeartbeatRequest → Prop)
    (held : Option ConsumerGroupDoc) : Request → Prop
  | .heartbeat request _ minted _ liveness _ nowMs =>
    request.memberEpoch = 0 →
      joins (sweep (opened held nowMs) liveness nowMs).1 (joiningId request minted) request
  | _ => True

def Documented (kept : ConsumerGroupDoc → Prop) (held : Option ConsumerGroupDoc) : Prop :=
  ∀ group, held = some group → kept group

variable {ρ : Type} {kept : ConsumerGroupDoc → Prop} {held : Option ConsumerGroupDoc}

lemma Documented.written {transition : Transition ρ} (documented : Documented kept held)
    (bumped : ∀ {group}, kept group → kept group.bumped)
    (changes : transition.changed = true → kept transition.group) :
    Documented kept (transition.written held) := by
  unfold Transition.written
  split
  · rename_i changed
    intro group same
    cases same
    exact bumped (changes changed)
  · exact documented

namespace Stages

variable {pattern : Patterns} {joins : ConsumerGroupDoc → String → HeartbeatRequest → Prop}
  {fresh owing : ConsumerGroupDoc → Bool → Prop} (stages : Stages pattern joins fresh owing kept)

include stages

lemma answer
    (bumped : ∀ {group}, kept group → kept group.bumped) {held next : Option ConsumerGroupDoc}
    {req : Request} (documented : Documented kept held)
    (start : ∀ nowMs, fresh (opened held nowMs) false) (allowed : req.Joins joins held)
    (converted : ∀ gen members assignment resolved nowMs group,
      req = .convert gen members assignment resolved nowMs →
        fromClassic gen members assignment resolved held nowMs = .ok group → kept group)
    (answered : req.answer pattern held = .ok next) : Documented kept next := by
  cases req with
  | heartbeat req client minted resolved liveness config nowMs =>
    obtain ⟨transition,applied,same⟩ := map_ok answered
    subst same
    exact documented.written bumped (fun _ => stages.apply (start nowMs) allowed applied)
  | classicJoin req client minted resolved liveness config nowMs =>
    obtain ⟨transition,joined,same⟩ := map_ok answered
    subst same
    exact documented.written bumped (stages.join (start nowMs) joined)
  | classicSync id inst gid protocol liveness nowMs =>
    obtain ⟨transition,synced,same⟩ := map_ok answered
    subst same
    cases held with
    | none => cases synced
    | some group => exact documented.written bumped (fun _ => stages.sync (start nowMs) synced)
  | classicHeartbeat id inst gid resolved liveness nowMs =>
    obtain ⟨transition,beat,same⟩ := map_ok answered
    subst same
    cases held with
    | none => cases beat
    | some group => exact documented.written bumped (fun _ => stages.heartbeat (start nowMs) beat)
  | classicLeave identities liveness nowMs =>
    obtain ⟨transition,left,same⟩ := map_ok answered
    subst same
    cases held with
    | none => cases left
    | some group =>
      exact documented.written bumped (fun _ => stages.leaveClassic (start nowMs) left)
  | convert gen members assignment resolved nowMs =>
    obtain ⟨group,converts,same⟩ := map_ok answered
    subst same
    intro other isOther
    cases isOther
    exact bumped (converted _ _ _ _ _ _ rfl converts)

lemma reachable
    {guard : Option ConsumerGroupDoc → Request → Prop}
    (bumped : ∀ {group}, kept group → kept group.bumped)
    (start : ∀ {held req}, Documented kept held → guard held req →
      ∀ nowMs, fresh (opened held nowMs) false)
    (allowed : ∀ {held req}, guard held req → req.Joins joins held)
    (converted : ∀ {held generation members assignment resolved nowMs group},
      Documented kept held → guard held (.convert generation members assignment resolved nowMs) →
        fromClassic generation members assignment resolved held nowMs = .ok group → kept group)
    {state : Option ConsumerGroupDoc}
    (reached : System.Reachable (documents pattern) guard state) : Documented kept state := by
  induction reached with
  | init => exact nofun
  | @step before after req _ met moved ih =>
    cases answered : req.answer pattern before with
    | error code =>
      unfold documents at moved
      dsimp only at moved
      rw [answered] at moved
      cases moved
      exact ih
    | ok next =>
      unfold documents at moved
      dsimp only at moved
      rw [answered] at moved
      cases moved
      apply stages.answer bumped ih (start ih met) (allowed met) _ answered
      intro generation members assignment resolved nowMs group isConvert converts
      subst isConvert
      exact converted ih met converts

end Stages

end Kodansu.Group

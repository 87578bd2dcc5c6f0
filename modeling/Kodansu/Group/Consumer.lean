/-
The heartbeat of the consumer protocol: `apply` takes the group's document as read, the
request, the resolved topics, what is known of liveness and the clock, and answers the
document to write back.

A function of the source that changes the group in place answers the changed group here,
with whether the composition moved.  Compiling a subscription pattern is a parameter; a
member id that the broker mints is an argument of the request that needs one.
-/

import Kodansu.Group.Assignor

namespace Kodansu.Group

open Lib

/-- A subscription pattern as it compiles: what it matches, or none if it is no pattern. -/
abbrev Patterns := String → Option (String → Bool)

abbrev Resolved := OrderedMap String (Nat × Int)

def defaultRebalanceTimeoutMs : Int := 300000

structure ConsumerGroupConfig where
  sessionTimeoutMs : Int := 45000
  heartbeatIntervalMs : Int := 5000
  maxSize : Option Nat := none
deriving DecidableEq

structure Client where
  id : String := ""
  host : String := ""
deriving DecidableEq

structure Liveness where
  contacts : OrderedMap String Int := .empty
  listed : Bool := false

def Liveness.lastContactMs (liveness : Liveness) (memberId : String) (member : ConsumerMember) :
    Int :=
  match liveness.contacts.get? memberId with
  | none => member.lastContactMs
  | some contact => max member.lastContactMs contact

def Liveness.isExpired (liveness : Liveness) (memberId : String) (member : ConsumerMember)
    (nowMs : Int) : Bool :=
  lapsesAfterMs member.sessionTimeoutMs <
    saturating 64 (nowMs - liveness.lastContactMs memberId member)

structure Transition (ρ : Type) where
  group : ConsumerGroupDoc
  changed : Bool
  renew : Bool
  memberId : String
  response : ρ

structure HeartbeatRequest where
  memberId : String
  memberEpoch : Int
  instanceId : Option String := none
  rackId : Option String := none
  rebalanceTimeoutMs : Int := -1
  subscribedTopicNames : Option (List String) := none
  subscribedTopicRegex : Option String := none
  serverAssignor : Option String := none
  topicPartitions : Option (List (Nat × List Int)) := none
deriving DecidableEq

structure HeartbeatResponse where
  memberId : Option String
  memberEpoch : Int
  heartbeatIntervalMs : Int
  assignment : Option Partitions

abbrev Minted := { memberId : String // memberId ≠ "" }

def sorted (names : List String) : List String :=
  (names.foldl (fun set name => set.insert name ()) (.empty : OrderedMap String Unit)).entries.map
    Prod.fst

/-- None when the request does not say, and no pattern when it drops its own. -/
def requestedRegex (request : HeartbeatRequest) : Option (Option String) :=
  request.subscribedTopicRegex.map (fun regex => if regex = "" then none else some regex)

def ownedFromRequest (request : HeartbeatRequest) : Option Partitions :=
  request.topicPartitions.map (fun topics =>
    (topics.flatMap (fun topic => topic.2.map (fun partition => (⟨topic.1, partition⟩ : Slot)))).toFinset)

/-! ### Targets -/

def lapsed (liveness : Liveness) (nowMs : Int) (memberId : String) (member : ConsumerMember) : Bool :=
  member.isRevocationOverdue nowMs || liveness.listed && liveness.isExpired memberId member nowMs

def sweep (group : ConsumerGroupDoc) (liveness : Liveness) (nowMs : Int) :
    ConsumerGroupDoc × Bool :=
  let kept := group.members.filter (fun memberId member => !lapsed liveness nowMs memberId member)
  ({ group with members := kept }, kept.entries.length ≠ group.members.entries.length)

def preferredAssignor (group : ConsumerGroupDoc) : String :=
  let votes := (group.members.entries.filterMap (fun entry => entry.2.serverAssignor)).foldl
    (fun votes assignor => votes.upsert assignor (fun held => held.getD 0 + 1))
    (.empty : OrderedMap String Nat)
  let best := votes.entries.foldl (fun (best : Option (String × Nat)) entry =>
    match best with
    | none => some entry
    | some held => if held.2 < entry.2 then some entry else some held) none
  (best.map Prod.fst).getD uniformName

def namesOf (group : ConsumerGroupDoc) : OrderedMap String Nat :=
  group.topics.entries.foldl (fun names topic => names.insert topic.2.name topic.1) .empty

def memberSpec (topicPattern : Patterns) (byName : OrderedMap String Nat)
    (member : ConsumerMember) : MemberSpec where
  subscribed :=
    (member.subscribedTopicNames.filterMap byName.get? ++ (byName.entries.filter (fun topic =>
        (member.subscribedTopicRegex.bind topicPattern).any (fun pattern => pattern topic.1))).map
          Prod.snd).toFinset
  previous := member.target

def targets (topicPattern : Patterns) (group : ConsumerGroupDoc) : OrderedMap String Partitions :=
  assign (preferredAssignor group)
    (group.members.mapValues (fun _ member => memberSpec topicPattern (namesOf group) member))
    (group.topics.mapValues (fun _ topic => topic.partitions))

def retarget (topicPattern : Patterns) (group : ConsumerGroupDoc) : ConsumerGroupDoc :=
  let epoch := saturating 32 (group.groupEpoch + 1)
  { group with
    groupEpoch := epoch
    assignmentEpoch := epoch
    assignor := some (preferredAssignor group)
    members := group.members.mapValues (fun memberId member =>
      { member with target := share (targets topicPattern group) memberId }) }

def topicsOf (resolved : Resolved) : OrderedMap Nat SubscribedTopic :=
  resolved.entries.foldl (fun topics topic =>
    topics.insert topic.2.1 ⟨topic.1, topic.2.2⟩) .empty

def refreshTopics (group : ConsumerGroupDoc) (resolved : Resolved) : ConsumerGroupDoc × Bool :=
  if topicsOf resolved = group.topics then (group, false)
  else ({ group with topics := topicsOf resolved }, true)

/-! ### Reconciliation -/

def ConsumerMember.holds (member : ConsumerMember) : Partitions :=
  member.assigned ∪ member.pendingRevocation

def ownedByOthers (group : ConsumerGroupDoc) (memberId : String) : Partitions :=
  (group.members.entries.filter (fun entry => entry.1 ≠ memberId)).foldl
    (fun taken entry => taken ∪ entry.2.holds) ∅

/-- A request that does not say what it owns is taken to still own it. -/
def stillOwns (owned : Option Partitions) (revoking : Partitions) : Bool :=
  match owned with
  | none => true
  | some owned => owned ∩ revoking ≠ ∅

def nextAssignment (member : ConsumerMember) (targetEpoch : Int) (taken : Partitions)
    (owned : Option Partitions) (nowMs : Int) : ConsumerMember :=
  let kept := member.assigned ∩ member.target
  let revoking := member.assigned \ member.target
  if revoking ≠ ∅ ∧ stillOwns owned revoking then
    { member with
      revocationDeadlineMs :=
        if member.state ≠ .unrevokedPartitions then
          some (saturating 64 (nowMs + member.rebalanceTimeoutMs))
        else member.revocationDeadlineMs
      state := .unrevokedPartitions
      assigned := kept
      pendingRevocation := revoking }
  else
    let missing := member.target \ member.assigned
    let unreleased := missing ∩ taken
    { member with
      previousMemberEpoch :=
        if member.memberEpoch ≠ targetEpoch then member.memberEpoch else member.previousMemberEpoch
      memberEpoch := targetEpoch
      state := if unreleased = ∅ then .stable else .unreleasedPartitions
      assigned := kept ∪ (missing \ taken)
      pendingRevocation := ∅
      revocationDeadlineMs := none }

def moves (member : ConsumerMember) (targetEpoch : Int) (owned : Option Partitions) : Bool :=
  match member.state with
  | .stable => member.memberEpoch ≠ targetEpoch
  | .unrevokedPartitions => !stillOwns owned member.pendingRevocation
  | .unreleasedPartitions => true

def reconcile (group : ConsumerGroupDoc) (memberId : String) (owned : Option Partitions)
    (nowMs : Int) : ConsumerGroupDoc :=
  { group with
    members := group.members.adjust memberId (fun member =>
      if moves member group.assignmentEpoch owned then
        nextAssignment member group.assignmentEpoch (ownedByOthers group memberId) owned nowMs
      else member) }

/-! ### Joining, leaving and changing -/

def newMember (request : HeartbeatRequest) (client : Client) (config : ConsumerGroupConfig) :
    ConsumerMember where
  memberEpoch := 0
  previousMemberEpoch := -1
  instanceId := request.instanceId
  clientId := client.id
  clientHost := client.host
  rebalanceTimeoutMs := defaultRebalanceTimeoutMs
  sessionTimeoutMs := config.sessionTimeoutMs

def instanceHolder (group : ConsumerGroupDoc) (memberId : String) (instanceId : Option String) :
    Option (String × ConsumerMember) :=
  match instanceId with
  | none => none
  | some instanceId =>
    group.members.entries.find? (fun entry =>
      entry.1 ≠ memberId && entry.2.instanceId = some instanceId)

def replacing (member : ConsumerMember) (client : Client) : ConsumerMember :=
  { member with
    memberEpoch := 0
    previousMemberEpoch := 0
    state := .stable
    classic := none
    pendingRevocation := ∅
    revocationDeadlineMs := none
    clientId := client.id
    clientHost := client.host }

def rejoining (member : ConsumerMember) : ConsumerMember :=
  { member with
    memberEpoch := 0
    previousMemberEpoch := 0
    state := .stable
    classic := none
    assigned := ∅
    pendingRevocation := ∅
    revocationDeadlineMs := none }

def joinAs (group : ConsumerGroupDoc) (memberId : String) (request : HeartbeatRequest)
    (client : Client) (config : ConsumerGroupConfig) : Except ErrorCode (ConsumerGroupDoc × Bool) :=
  match instanceHolder group memberId request.instanceId with
  | some (previousId, previous) =>
    if previous.isLeavingStatic then
      .ok ({ group with
        members := (group.members.remove previousId).insert memberId (replacing previous client) },
          false)
    else .error .unreleasedInstanceId
  | none =>
    match group.members.get? memberId with
    | some member =>
      .ok ({ group with members := group.members.insert memberId (rejoining member) }, false)
    | none =>
      if request.subscribedTopicNames = none ∧ (requestedRegex request).join = none then
        .error .invalidRequest
      else if config.maxSize.any (fun maxSize => maxSize ≤ group.members.entries.length) then
        .error .groupMaxSizeReached
      else
        .ok ({ group with
          members := group.members.insert memberId (newMember request client config) }, true)

def joiningId (request : HeartbeatRequest) (minted : Minted) : String :=
  if request.memberId = "" then minted else request.memberId

/-- A response that was lost: the member is one epoch behind and owns no more than it should. -/
def lostResponse (member : ConsumerMember) (request : HeartbeatRequest) : Bool :=
  decide (request.memberEpoch = member.previousMemberEpoch) &&
    (ownedFromRequest request).any (fun owned => owned ⊆ member.assigned)

def validateEpoch (group : ConsumerGroupDoc) (request : HeartbeatRequest) : Except ErrorCode Unit :=
  match group.members.get? request.memberId with
  | none => .error .unknownMemberId
  | some member =>
    if member.memberEpoch < request.memberEpoch then .error .fencedMemberEpoch
    else if request.memberEpoch < member.memberEpoch ∧ ¬lostResponse member request then
      .error .fencedMemberEpoch
    else .ok ()

def updateNames (member : ConsumerMember) (request : HeartbeatRequest) : ConsumerMember × Bool :=
  match request.subscribedTopicNames with
  | none => (member, false)
  | some names =>
    if sorted names = member.subscribedTopicNames then (member, false)
    else ({ member with subscribedTopicNames := sorted names }, true)

def updateRegex (topicPattern : Patterns) (member : ConsumerMember) (request : HeartbeatRequest) :
    Except ErrorCode (ConsumerMember × Bool) :=
  match requestedRegex request with
  | none => .ok (member, false)
  | some regex =>
    if regex.any (fun regex => (topicPattern regex).isNone) then .error .invalidRegularExpression
    else if regex = member.subscribedTopicRegex then .ok (member, false)
    else .ok ({ member with subscribedTopicRegex := regex }, true)

def updateAssignor (member : ConsumerMember) (request : HeartbeatRequest) :
    Except ErrorCode (ConsumerMember × Bool) :=
  match request.serverAssignor with
  | none => .ok (member, false)
  | some assignor =>
    if !isSupported assignor then .error .unsupportedAssignor
    else if member.serverAssignor = some assignor then .ok (member, false)
    else .ok ({ member with serverAssignor := some assignor }, true)

def refreshMember (member : ConsumerMember) (request : HeartbeatRequest) (client : Client)
    (config : ConsumerGroupConfig) : ConsumerMember :=
  { member with
    sessionTimeoutMs := config.sessionTimeoutMs
    clientHost := if client.host = "" then member.clientHost else client.host
    rackId := request.rackId <|> member.rackId
    rebalanceTimeoutMs :=
      if 0 < request.rebalanceTimeoutMs then request.rebalanceTimeoutMs
      else member.rebalanceTimeoutMs }

def updateMember (topicPattern : Patterns) (member : ConsumerMember) (request : HeartbeatRequest)
    (client : Client) (config : ConsumerGroupConfig) : Except ErrorCode (ConsumerMember × Bool) := do
  let (member, renamed) := updateNames (refreshMember member request client config) request
  let (member, matched) ← updateRegex topicPattern member request
  let (member, voted) ← updateAssignor member request
  return (member, renamed || matched || voted)

def leave (group : ConsumerGroupDoc) (request : HeartbeatRequest) (nowMs : Int) :
    Except ErrorCode (ConsumerGroupDoc × Bool) :=
  match group.members.get? request.memberId with
  | none => .error .unknownMemberId
  | some member =>
    if request.memberEpoch = leavingStaticMemberEpoch ∧ member.instanceId.isSome then
      .ok ({ group with
        members := group.members.insert request.memberId
          { member with memberEpoch := leavingStaticMemberEpoch, lastContactMs := nowMs } }, false)
    else .ok ({ group with members := group.members.remove request.memberId }, true)

/-! ### The heartbeat -/

/-- The group as read; a group with no document yet is an empty one. -/
def opened (held : Option ConsumerGroupDoc) (nowMs : Int) : ConsumerGroupDoc :=
  held.getD { createdMs := nowMs }

def rebalanced (topicPattern : Patterns) (rebalance : Bool) (group : ConsumerGroupDoc) :
    ConsumerGroupDoc :=
  if rebalance then retarget topicPattern group else group

def stamped (group : ConsumerGroupDoc) (memberId : String) (nowMs : Int) : ConsumerGroupDoc :=
  { group with
    members := group.members.adjust memberId (fun member => { member with lastContactMs := nowMs }) }

def renewalDue (liveness : Liveness) (memberId : String) (member : ConsumerMember) (nowMs : Int) :
    Bool :=
  member.sessionTimeoutMs.tdiv 2 ≤ saturating 64 (nowMs - liveness.lastContactMs memberId member)

def enterGroup (group : ConsumerGroupDoc) (request : HeartbeatRequest) (client : Client)
    (minted : Minted) (config : ConsumerGroupConfig) :
    Except ErrorCode (ConsumerGroupDoc × String × Bool) :=
  if request.memberEpoch = 0 then do
    let (group, joined) ← joinAs group (joiningId request minted) request client config
    return (group, joiningId request minted, joined)
  else do
    validateEpoch group request
    return (group, request.memberId, false)

def update (topicPattern : Patterns) (group : ConsumerGroupDoc) (memberId : String)
    (request : HeartbeatRequest) (client : Client) (config : ConsumerGroupConfig) :
    Except ErrorCode (ConsumerGroupDoc × Bool) :=
  match group.members.get? memberId with
  | none => .ok (group, false)
  | some member => do
    let (member, resubscribed) ← updateMember topicPattern member request client config
    return ({ group with members := group.members.insert memberId member }, resubscribed)

def refresh (group : ConsumerGroupDoc) (resolved : Option Resolved) : ConsumerGroupDoc × Bool :=
  match resolved with
  | none => (group, false)
  | some resolved => refreshTopics group resolved

def answered (before group : ConsumerGroupDoc) (memberId : String) (member : ConsumerMember)
    (request : HeartbeatRequest) (liveness : Liveness) (config : ConsumerGroupConfig) (nowMs : Int) :
    Transition HeartbeatResponse :=
  let changed := decide (group ≠ before)
  let sendAssignment :=
    decide (request.memberEpoch ≠ member.memberEpoch) ||
      decide ((before.members.get? memberId).map ConsumerMember.assigned ≠ some member.assigned) ||
        (ownedFromRequest request).any (fun owned => owned ≠ member.assigned)
  { group := if changed then stamped group memberId nowMs else group
    changed
    renew := renewalDue liveness memberId member nowMs && !changed
    memberId
    response :=
      { memberId := some memberId
        memberEpoch := member.memberEpoch
        heartbeatIntervalMs := config.heartbeatIntervalMs
        assignment := if sendAssignment then some member.assigned else none } }

def departed (topicPattern : Patterns) (before : ConsumerGroupDoc) (swept : ConsumerGroupDoc × Bool)
    (request : HeartbeatRequest) (nowMs : Int) : Except ErrorCode (Transition HeartbeatResponse) := do
  let (group, left) ← leave swept.1 request nowMs
  let group := rebalanced topicPattern (swept.2 || left) group
  return {
    group
    changed := decide (group ≠ before)
    renew := false
    memberId := ""
    response := ⟨some request.memberId, request.memberEpoch, 0, none⟩ }

def apply (topicPattern : Patterns) (held : Option ConsumerGroupDoc) (request : HeartbeatRequest)
    (client : Client) (minted : Minted) (resolved : Option Resolved) (liveness : Liveness)
    (config : ConsumerGroupConfig) (nowMs : Int) :
    Except ErrorCode (Transition HeartbeatResponse) := do
  let before := opened held nowMs
  let swept := sweep before liveness nowMs
  if request.memberEpoch = -1 ∨ request.memberEpoch = leavingStaticMemberEpoch then
    departed topicPattern before swept request nowMs
  else
    let (group, memberId, joined) ← enterGroup swept.1 request client minted config
    let (group, resubscribed) ← update topicPattern group memberId request client config
    let (group, moved) := refresh group resolved
    let group := rebalanced topicPattern (swept.2 || joined || resubscribed || moved) group
    let group := reconcile group memberId (ownedFromRequest request) nowMs
    match group.members.get? memberId with
    | none => .error .unknownMemberId
    | some member => return answered before group memberId member request liveness config nowMs

end Kodansu.Group

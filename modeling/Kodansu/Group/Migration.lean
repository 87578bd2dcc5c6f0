/-
A classic group converted to a consumer group, and the classic requests that a consumer group
serves; then the group's document under all of these, as a transition system.
-/

import Kodansu.Group.Consumer
import Kodansu.Lib.Transition

namespace Kodansu.Group

open Lib

def consumerProtocol : String := "consumer"

def assignmentVersion : Int := 3

structure ClassicJoin where
  memberId : String
  instanceId : Option String
  sessionTimeoutMs : Int
  rebalanceTimeoutMs : Option Int
  protocolType : String
  protocols : List (String × Encoded MemberMetadata)
deriving DecidableEq

structure ClassicJoinResponse where
  errorCode : ErrorCode
  generationId : Int
  protocolType : String
  protocolName : String
  leader : String
  memberId : String
deriving DecidableEq

structure ClassicSyncResponse where
  protocolType : String
  protocolName : String
  assignment : MemberAssignment
deriving DecidableEq

structure ClassicLeaveResponse where
  memberId : String
  groupInstanceId : Option String
  errorCode : ErrorCode
deriving DecidableEq

def byId (partitions : List TopicPartition) (names : OrderedMap String Nat) : Partitions :=
  (partitions.flatMap (fun topic =>
    match names.get? topic.topic with
    | none => []
    | some topicId => topic.partitions.map (fun partition => (⟨topicId, partition⟩ : Slot)))).toFinset

/-! ### Conversion -/

/-- What the assignment gives a member, by id; refused if it does not parse or has user data. -/
def assignedTo (assignment : Option AssignmentDoc) (names : OrderedMap String Nat)
    (memberId : String) : Except ErrorCode Partitions :=
  match assignment.bind (fun assignment => assignment.assignments.get? memberId) with
  | none => .ok ∅
  | some assigned =>
    if assigned.bytes = [] then .ok ∅
    else
      match assigned.parsed with
      | none => .error .groupIdNotFound
      | some decoded =>
        if decoded.userData.any (fun userData => userData ≠ []) then .error .groupIdNotFound
        else .ok (byId decoded.assignedPartitions names)

def convertedMember (generation : GenerationDoc) (member : MemberDoc) (reference : MemberRef)
    (metadata : MemberMetadata) (assigned : Partitions) : ConsumerMember where
  memberEpoch := generation.generationId
  previousMemberEpoch := generation.generationId
  state := .stable
  instanceId := reference.groupInstanceId
  rackId := metadata.rackId
  subscribedTopicNames := sorted metadata.topics
  rebalanceTimeoutMs := member.rebalanceTimeoutMs.getD member.sessionTimeoutMs
  sessionTimeoutMs := member.sessionTimeoutMs
  lastContactMs := member.lastContactMs
  assigned := assigned
  target := assigned
  classic := some
    { sessionTimeoutMs := member.sessionTimeoutMs
      protocolName := generation.protocolName.getD ""
      protocols := [generation.protocolName.getD ""]
      metadata := member.joinResponse.metadata }

def convertMember (generation : GenerationDoc) (members : OrderedMap String MemberDoc)
    (assignment : Option AssignmentDoc) (names : OrderedMap String Nat) (nowMs : Int)
    (converted : OrderedMap String ConsumerMember) (entry : String × MemberRef) :
    Except ErrorCode (OrderedMap String ConsumerMember) :=
  match members.get? entry.1 with
  | none => .ok converted
  | some member =>
    if member.isExpired nowMs then .ok converted
    else
      match member.joinResponse.metadata.parsed with
      | none => .error .groupIdNotFound
      | some metadata => do
        let assigned ← assignedTo assignment names entry.1
        return converted.insert entry.1
          (convertedMember generation member entry.2 metadata assigned)

def fromClassic (generation : GenerationDoc) (members : OrderedMap String MemberDoc)
    (assignment : Option AssignmentDoc) (resolved : Resolved) (held : Option ConsumerGroupDoc)
    (nowMs : Int) : Except ErrorCode ConsumerGroupDoc := do
  let epoch := max generation.generationId (held.elim 0 ConsumerGroupDoc.groupEpoch)
  let group : ConsumerGroupDoc :=
    { seq := held.elim 0 ConsumerGroupDoc.seq
      groupEpoch := epoch
      assignmentEpoch := epoch
      topics := topicsOf resolved
      createdMs := held.elim nowMs ConsumerGroupDoc.createdMs
      classicGeneration := some generation.generationId }
  let current := assignment.filter (fun assignment =>
    assignment.generationId = generation.generationId)
  let converted ← generation.members.entries.foldlM
    (convertMember generation members current (namesOf group) nowMs) .empty
  return { group with members := converted }

/-! ### Classic requests -/

def instanceMember (group : ConsumerGroupDoc) (instanceId : String) :
    Option (String × ConsumerMember) :=
  group.members.entries.find? (fun entry => entry.2.instanceId = some instanceId)

def named (group : ConsumerGroupDoc) (memberId : String) (instanceId : Option String) :
    Except ErrorCode ConsumerMember :=
  match instanceId with
  | some instanceId =>
    match instanceMember group instanceId with
    | none => .error .unknownMemberId
    | some (id, member) => if id ≠ memberId then .error .fencedInstanceId else .ok member
  | none =>
    match group.members.get? memberId with
    | none => .error .unknownMemberId
    | some member => .ok member

/-- The first protocol offered that every other classic member supports. -/
def agreedProtocol (group : ConsumerGroupDoc) (memberId : String)
    (protocols : List (String × Encoded MemberMetadata)) :
    Option (String × Encoded MemberMetadata) :=
  protocols.find? (fun protocol =>
    group.members.entries.all (fun entry =>
      entry.1 = memberId ||
        entry.2.classic.all (fun classic => classic.protocols.contains protocol.1)))

def waitingOnUnreleased (group : ConsumerGroupDoc) (memberId : String) (member : ConsumerMember) :
    Bool :=
  (member.target \ member.assigned) ∩ ownedByOthers group memberId ≠ ∅

def settled {ρ : Type} (before group : ConsumerGroupDoc) (memberId : String) (liveness : Liveness)
    (nowMs : Int) (response : ρ) : Transition ρ :=
  let changed := decide (group ≠ before)
  { group := if changed then stamped group memberId nowMs else group
    changed
    renew :=
      match group.members.get? memberId with
      | some member => !changed && renewalDue liveness memberId member nowMs
      | none => false
    memberId
    response }

/-- Who joins: the instance's member, the id that is named, or a new id.  Without an id or an
instance the member is told to come back with the id it is given. -/
inductive Joiner
  | known (memberId : String)
  | required (memberId : String)
deriving DecidableEq

def joiner (group : ConsumerGroupDoc) (request : ClassicJoin) (client : Client) (minted : Minted) :
    Except ErrorCode Joiner :=
  match request.instanceId.bind (instanceMember group) with
  | some (heldId, _) =>
    if request.memberId = "" ∨ request.memberId = heldId then .ok (.known heldId)
    else .error .fencedInstanceId
  | none =>
    if request.memberId ≠ "" then .ok (.known request.memberId)
    else if request.instanceId.isSome then .ok (.known minted)
    else .ok (.required (if client.id = "" then minted else client.id ++ "-" ++ minted))

def enrol (group : ConsumerGroupDoc) (memberId : String) (config : ConsumerGroupConfig) :
    Except ErrorCode (ConsumerGroupDoc × Bool) :=
  if (group.members.get? memberId).isSome then .ok (group, false)
  else if config.maxSize.any (fun maxSize => maxSize ≤ group.members.entries.length) then
    .error .groupMaxSizeReached
  else
    .ok ({ group with
      members := group.members.insert memberId { memberEpoch := 0, previousMemberEpoch := -1 } },
        true)

def speakClassic (member : ConsumerMember) (request : ClassicJoin) (client : Client)
    (protocol : String × Encoded MemberMetadata) (subscription : MemberMetadata) : ConsumerMember :=
  { member with
    subscribedTopicNames := sorted subscription.topics
    serverAssignor := none
    instanceId := request.instanceId
    rackId := subscription.rackId
    rebalanceTimeoutMs := request.rebalanceTimeoutMs.getD request.sessionTimeoutMs
    sessionTimeoutMs := request.sessionTimeoutMs
    clientId := client.id
    clientHost := if client.host = "" then member.clientHost else client.host
    classic := some
      { sessionTimeoutMs := request.sessionTimeoutMs
        protocolName := protocol.1
        protocols := request.protocols.map Prod.fst
        metadata := protocol.2 } }

def speak (group : ConsumerGroupDoc) (memberId : String) (request : ClassicJoin) (client : Client)
    (protocol : String × Encoded MemberMetadata) (subscription : MemberMetadata) :
    ConsumerGroupDoc × Bool :=
  match group.members.get? memberId with
  | none => (group, false)
  | some member =>
    ({ group with
      members := group.members.insert memberId
        (speakClassic member request client protocol subscription) },
      decide (member.subscribedTopicNames ≠ sorted subscription.topics) ||
        member.serverAssignor.isSome)

def joinedAs (topicPattern : Patterns) (before : ConsumerGroupDoc) (swept : ConsumerGroupDoc × Bool)
    (memberId : String) (request : ClassicJoin) (client : Client) (resolved : Option Resolved)
    (liveness : Liveness) (config : ConsumerGroupConfig) (nowMs : Int) :
    Except ErrorCode (Transition ClassicJoinResponse) :=
  match agreedProtocol swept.1 memberId request.protocols with
  | none => .error .inconsistentGroupProtocol
  | some protocol =>
    match protocol.2.parsed with
    | none => .error .inconsistentGroupProtocol
    | some subscription => do
      let (group, joined) ← enrol swept.1 memberId config
      let (group, moved) := refresh group resolved
      let (group, resubscribed) := speak group memberId request client protocol subscription
      let group := rebalanced topicPattern (swept.2 || joined || moved || resubscribed) group
      let owned := subscription.ownedPartitions.map (fun owned => byId owned (namesOf group))
      let group := reconcile group memberId owned nowMs
      match group.members.get? memberId with
      | none => .error .unknownMemberId
      | some member =>
        return settled before group memberId liveness nowMs
          ⟨.none, member.memberEpoch, consumerProtocol, protocol.1, "", memberId⟩

def join (topicPattern : Patterns) (held : Option ConsumerGroupDoc) (request : ClassicJoin)
    (client : Client) (minted : Minted) (resolved : Option Resolved) (liveness : Liveness)
    (config : ConsumerGroupConfig) (nowMs : Int) :
    Except ErrorCode (Transition ClassicJoinResponse) := do
  let before := opened held nowMs
  if request.protocolType ≠ consumerProtocol then .error .inconsistentGroupProtocol
  else
    let swept := sweep before liveness nowMs
    match ← joiner swept.1 request client minted with
    | .required memberId =>
      return {
        group := before
        changed := false
        renew := false
        memberId := ""
        response := ⟨.memberIdRequired, -1, consumerProtocol, "", "", memberId⟩ }
    | .known memberId =>
      joinedAs topicPattern before swept memberId request client resolved liveness config nowMs

def encodedAssignment (group : ConsumerGroupDoc) (member : ConsumerMember) : MemberAssignment where
  version :=
    max 0 (min assignmentVersion
      ((member.classic.bind (fun classic => classic.metadata.parsed)).elim 0 MemberMetadata.version))
  assignedPartitions :=
    group.topics.entries.filterMap (fun topic =>
      match (ordered member.assigned).filter (fun slot => slot.topic = topic.1) with
      | [] => none
      | assigned => some ⟨topic.2.name, assigned.map Slot.partition⟩)

def validated (group : ConsumerGroupDoc) (memberId : String) (instanceId : Option String)
    (generationId : Int) : Except ErrorCode (ConsumerMember × ClassicMember) := do
  let member ← named group memberId instanceId
  match member.classic with
  | none => .error .unknownMemberId
  | some classic =>
    if member.memberEpoch ≠ generationId then .error .illegalGeneration
    else return (member, classic)

def sync (topicPattern : Patterns) (held : Option ConsumerGroupDoc) (memberId : String)
    (instanceId : Option String) (generationId : Int) (protocol : Option String × Option String)
    (liveness : Liveness) (nowMs : Int) : Except ErrorCode (Transition ClassicSyncResponse) :=
  match held with
  | none => .error .unknownMemberId
  | some before => do
    let swept := sweep before liveness nowMs
    let group := rebalanced topicPattern swept.2 swept.1
    let (member, classic) ← validated group memberId instanceId generationId
    if protocol.1.any (fun protocolType => protocolType ≠ consumerProtocol) ∨
        protocol.2.any (fun protocolName => protocolName ≠ classic.protocolName) then
      .error .inconsistentGroupProtocol
    else if member.memberEpoch < group.groupEpoch ∧ member.state ≠ .unrevokedPartitions then
      .error .rebalanceInProgress
    else
      return settled before group memberId liveness nowMs
        ⟨consumerProtocol, classic.protocolName, encodedAssignment group member⟩

def heartbeat (topicPattern : Patterns) (held : Option ConsumerGroupDoc) (memberId : String)
    (instanceId : Option String) (generationId : Int) (resolved : Option Resolved)
    (liveness : Liveness) (nowMs : Int) : Except ErrorCode (Transition ErrorCode) :=
  match held with
  | none => .error .unknownMemberId
  | some before => do
    let swept := sweep before liveness nowMs
    let (group, moved) := refresh swept.1 resolved
    let group := rebalanced topicPattern (swept.2 || moved) group
    let (member, _) ← validated group memberId instanceId generationId
    let rejoin :=
      decide (member.memberEpoch < group.groupEpoch) ||
        decide (member.state = .unrevokedPartitions) ||
          decide (member.state = .unreleasedPartitions) &&
            !waitingOnUnreleased group memberId member
    return settled before group memberId liveness nowMs
      (if rejoin then .rebalanceInProgress else .none)

def departing (group : ConsumerGroupDoc) (memberId : String) (instanceId : Option String) :
    Except ErrorCode String :=
  match instanceId with
  | some instanceId =>
    match instanceMember group instanceId with
    | none => .error .unknownMemberId
    | some (id, _) => if memberId = "" ∨ memberId = id then .ok id else .error .fencedInstanceId
  | none => if (group.members.get? memberId).isSome then .ok memberId else .error .unknownMemberId

structure Leaving where
  group : ConsumerGroupDoc
  rebalance : Bool
  responses : List ClassicLeaveResponse

def Leaving.depart (leaving : Leaving) (identity : String × Option String) : Leaving :=
  match departing leaving.group identity.1 identity.2 with
  | .ok id =>
    { group := { leaving.group with members := leaving.group.members.remove id }
      rebalance := true
      responses := leaving.responses ++ [⟨identity.1, identity.2, .none⟩] }
  | .error errorCode =>
    { leaving with responses := leaving.responses ++ [⟨identity.1, identity.2, errorCode⟩] }

def leaveClassic (topicPattern : Patterns) (held : Option ConsumerGroupDoc)
    (identities : List (String × Option String)) (liveness : Liveness) (nowMs : Int) :
    Except ErrorCode (Transition (List ClassicLeaveResponse)) :=
  match held with
  | none => .error .unknownMemberId
  | some before =>
    let swept := sweep before liveness nowMs
    let left := identities.foldl Leaving.depart ⟨swept.1, swept.2, []⟩
    let group := rebalanced topicPattern left.rebalance left.group
    .ok {
      group
      changed := decide (group ≠ before)
      renew := false
      memberId := ""
      response := left.responses }

/-! ### The document over time -/

/-- The requests that change a group's document, each with all it is computed from. -/
inductive Request
  | heartbeat (request : HeartbeatRequest) (client : Client) (minted : Minted)
      (resolved : Option Resolved) (liveness : Liveness) (config : ConsumerGroupConfig) (nowMs : Int)
  | classicJoin (request : ClassicJoin) (client : Client) (minted : Minted)
      (resolved : Option Resolved) (liveness : Liveness) (config : ConsumerGroupConfig) (nowMs : Int)
  | classicSync (memberId : String) (instanceId : Option String) (generationId : Int)
      (protocol : Option String × Option String) (liveness : Liveness) (nowMs : Int)
  | classicHeartbeat (memberId : String) (instanceId : Option String) (generationId : Int)
      (resolved : Option Resolved) (liveness : Liveness) (nowMs : Int)
  | classicLeave (identities : List (String × Option String)) (liveness : Liveness) (nowMs : Int)
  | convert (generation : GenerationDoc) (members : OrderedMap String MemberDoc)
      (assignment : Option AssignmentDoc) (resolved : Resolved) (nowMs : Int)

def Request.converts : Request → Bool
  | .convert .. => true
  | _ => false

/-- The document after a transition: written only if it changed. -/
def Transition.written {ρ : Type} (transition : Transition ρ) (held : Option ConsumerGroupDoc) :
    Option ConsumerGroupDoc :=
  if transition.changed then some transition.group.bumped else held

def Request.answer (topicPattern : Patterns) (held : Option ConsumerGroupDoc) :
    Request → Except ErrorCode (Option ConsumerGroupDoc)
  | .heartbeat request client minted resolved liveness config nowMs =>
    (apply topicPattern held request client minted resolved liveness config nowMs).map
      (fun transition => transition.written held)
  | .classicJoin request client minted resolved liveness config nowMs =>
    (join topicPattern held request client minted resolved liveness config nowMs).map
      (fun transition => transition.written held)
  | .classicSync memberId instanceId generationId protocol liveness nowMs =>
    (sync topicPattern held memberId instanceId generationId protocol liveness nowMs).map
      (fun transition => transition.written held)
  | .classicHeartbeat memberId instanceId generationId resolved liveness nowMs =>
    (Group.heartbeat topicPattern held memberId instanceId generationId resolved liveness nowMs).map
      (fun transition => transition.written held)
  | .classicLeave identities liveness nowMs =>
    (leaveClassic topicPattern held identities liveness nowMs).map
      (fun transition => transition.written held)
  | .convert generation members assignment resolved nowMs =>
    (fromClassic generation members assignment resolved held nowMs).map
      (fun group => some group.bumped)

/-- A request that fails changes nothing. -/
def documents (topicPattern : Patterns) : System (Option ConsumerGroupDoc) Request where
  init := none
  step held request :=
    match request.answer topicPattern held with
    | .ok next => some next
    | .error _ => some held

end Kodansu.Group

/-
The requests of a group, as programs over its store.

A program is what one request does from its first read to its answer, once through the loop of
the source; a request that loses a conditional write, or waits, leaves with the call to go on
with.  A failure that the source passes on ends the request.  Reads that the source has in
flight at once are performed in an order that is not determined.

The offsets of a commit are not part of the group, and metrics and logs are left out.
-/

import Kodansu.Coordinator.Store

namespace Kodansu.Coordinator

open Lib Kodansu.Group

/-! ### Calls -/

structure JoinCall where
  request : ClassicJoin
  client : Client := {}
  mintedForInstance : Option String := none
  consumerChecked : Bool := false

structure SyncCall where
  generationId : Int
  memberId : String
  instanceId : Option String := none
  protocolType : Option String := none
  protocolName : Option String := none
  assignments : List (String × Encoded MemberAssignment) := []

structure HeartbeatCall where
  generationId : Int
  memberId : String
  instanceId : Option String := none

inductive Call
  | join (call : JoinCall)
  | sync (call : SyncCall)
  | leave (departing : List (String × Option String)) (conflicts : Nat)
  | heartbeat (call : HeartbeatCall)
  | commit (memberId : String) (generationId : Int)
  | consumerHeartbeat (request : HeartbeatRequest) (client : Client)

abbrev Run := Program Op Op.Reply (Option Call)

abbrev perform (operation : Op) : Run operation.Reply := Program.perform operation

def answered {α : Type} (answer : Answer) : Run α := do
  let _ ← perform (.answer answer)
  .exit none

def again {α : Type} (call : Call) : Run α := .exit (some call)

structure Broker where
  topicPattern : Patterns := fun _ => none
  config : ConsumerGroupConfig := {}
  migrates : Bool := true

def maxGenerationCasAttempts : Nat := 64

/-! ### Views -/

structure GroupView where
  generation : GenerationDoc := {}
  version : Option Nat := none
  assignment : Option AssignmentDoc := none

def sessionTimeoutOrDefault (sessionTimeoutMs : Int) : Int :=
  if 0 < sessionTimeoutMs then sessionTimeoutMs else 45000

namespace GroupView

def generationId (view : GroupView) : Int := view.generation.generationId

def sessionTimeoutMs (view : GroupView) : Int :=
  sessionTimeoutOrDefault view.generation.sessionTimeoutMs

def assignments (view : GroupView) : Option (OrderedMap String (Encoded MemberAssignment)) :=
  (view.assignment.filter (fun assignment =>
    assignment.generationId = view.generation.generationId)).map AssignmentDoc.assignments

def isForming (view : GroupView) : Bool :=
  view.generation.leader.isNone || view.assignments.isNone

def names (view : GroupView) (memberId : String) : Bool :=
  (view.generation.members.get? memberId).isSome

end GroupView

def readAssigned (generation : GenerationDoc) : Run (Option AssignmentDoc) :=
  if generation.leader.isSome ∧ 0 ≤ generation.generationId then
    perform (.readAssignment generation.generationId)
  else pure none

def readView : Run GroupView := do
  match ← perform .readGeneration with
  | none => return {}
  | some held =>
    let assignment ← readAssigned held.doc
    return ⟨held.doc, some held.version, assignment⟩

def rebalanced (generation : GenerationDoc) (nowMs : Int) : GenerationDoc :=
  { generation with
    generationId := saturating 32 (generation.generationId + 1)
    membersChangedAtMs := nowMs
    stateSinceMs := nowMs }

def ids (generation : GenerationDoc) : List String := generation.members.entries.map Prod.fst

/-! ### Liveness -/

def livenessRenewalDue (held : Option MemberDoc) (nowMs sessionTimeoutMs : Int) : Bool :=
  held.all (fun member =>
    (sessionTimeoutOrDefault sessionTimeoutMs).tdiv 2 ≤ saturating 64 (nowMs - member.lastContactMs))

def heldMember (purpose : Purpose) (memberId : String) : Run (Option StoredMember) := do
  match ← perform (.readMember purpose memberId) with
  | none => answered .failed
  | some held => return held

def renewMember (memberId : String) (sessionTimeoutMs nowMs : Int) : Run Unit := do
  if memberId = "" then return
  else if ← perform (.ask .livenessKnown) then return
  else
    match ← heldMember .renew memberId with
    | none => return
    | some held =>
      if livenessRenewalDue (some held.doc) nowMs sessionTimeoutMs then do
        let _ ← perform (.writeMember .renew memberId
          { held.doc with lastContactMs := nowMs }.bumped (some held.version))
        return
      else return

/-! ### The sweep -/

def lapsedVerdict (nowMs : Int) (held : Option (Option StoredMember)) : Bool :=
  match held with
  | some (some member) => member.doc.isExpired nowMs
  | _ => true

def lapsedMembers (nowMs : Int) : List String → Run (List String)
  | [] => return []
  | memberId :: rest => do
    let held ← perform (.readMember (.sweep nowMs) memberId)
    let expired ← lapsedMembers nowMs rest
    return if lapsedVerdict nowMs held then memberId :: expired else expired

def claimed (generation : GenerationDoc) (nowMs : Int) : GenerationDoc :=
  { generation with sweptAtMs := nowMs }.bumped

def evicted (generation : GenerationDoc) (expired : List String) (nowMs : Int) : GenerationDoc :=
  { rebalanced
      { generation with
        members := generation.members.filter (fun memberId _ => !expired.contains memberId) }
      nowMs with
    leader := none }.bumped

/-- Best effort: a document that stays is an orphan. -/
def deleteMembers : List String → Run Unit
  | [] => return
  | memberId :: rest => do
    let _ ← perform (.deleteMember memberId)
    deleteMembers rest

def sweepDue (view : GroupView) (nowMs : Int) : Bool :=
  view.version.isSome && !view.generation.members.entries.isEmpty && !view.generation.isConverted &&
    decide (view.sessionTimeoutMs.tdiv 2 ≤ saturating 64 (nowMs - view.generation.sweptAtMs))

/-- The claim has been won: only now are the members' documents read. -/
def evict (view : GroupView) (nowMs : Int) : Run GroupView := do
  let order ← perform (.shuffle (ids view.generation))
  let expired ← lapsedMembers nowMs order
  if expired = [] then return view
  else
    let next := evicted view.generation expired nowMs
    match ← perform (.updateGeneration (.evict nowMs) next view.version) with
    | none => readView
    | some version => do
      deleteMembers (sorted expired)
      return ⟨next, some version, none⟩

def sweep (view : GroupView) (nowMs : Int) : Run GroupView := do
  if sweepDue view nowMs then
    if ← perform (.ask .sweepUnclaimed) then
      match ← perform (.updateGeneration .claim (claimed view.generation nowMs) view.version) with
      | none => readView
      | some version => evict ⟨claimed view.generation nowMs, some version, view.assignment⟩ nowMs
    else return view
  else return view

/-! ### The consumer group -/

def isLiveConsumer (nowMs : Int) : Run Bool := do
  match ← perform .readConsumer with
  | none => return false
  | some held => do
    let stamps ← perform .listContacts
    return (held.doc.withContacts stamps).hasLiveMembers nowMs

/-- A document that is missing or cannot be read counts as live. -/
def anyLive (nowMs : Int) : List String → Run Bool
  | [] => return false
  | memberId :: rest => do
    match ← perform (.readMember .probe memberId) with
    | some (some member) => if member.doc.isExpired nowMs then anyLive nowMs rest else return true
    | _ => return true

def isLiveClassicGeneration (generation : GenerationDoc) (nowMs : Int) : Run Bool :=
  if generation.isConverted then return false else anyLive nowMs (ids generation)

def readMembers : List String → Run (OrderedMap String MemberDoc)
  | [] => return .empty
  | memberId :: rest => do
    let held ← heldMember .convert memberId
    let members ← readMembers rest
    return held.elim members (fun held => members.insert memberId held.doc)

def converted (generation : GenerationDoc) (held : Option ConsumerGroupDoc) (nowMs : Int) :
    Run (Except ErrorCode ConsumerGroupDoc) := do
  let members ← readMembers (ids generation)
  let assignment ← readAssigned generation
  let resolved ← perform .resolve
  return fromClassic generation members assignment resolved held nowMs

def completeOnce (generation : GenerationDoc) (lost : Run (Except ErrorCode Unit)) :
    Run (Except ErrorCode Unit) := do
  let held ← perform .readConsumer
  if held.any (fun held => held.doc.classicGeneration = some generation.generationId) then
    return .ok ()
  else
    let nowMs ← perform .now
    match ← converted generation (held.map Versioned.doc) nowMs with
    | .error errorCode => return .error errorCode
    | .ok group =>
      match ← perform (.updateConsumer .clear group.bumped (held.map Versioned.version)) with
      | some _ => return .ok ()
      | none => lost

def completeConversion (generation : GenerationDoc) : Nat → Run (Except ErrorCode Unit)
  | 0 => completeOnce generation (return .error .coordinatorLoadInProgress)
  | left + 1 => completeOnce generation (completeConversion generation left)

inductive Conversion
  | converted
  | refused (errorCode : ErrorCode)
  | outdated

def convert (broker : Broker) (view : GroupView) (nowMs : Int) : Run Conversion := do
  if !broker.migrates || decide (view.generation.protocolType ≠ some consumerProtocol) ||
      broker.config.maxSize.any (fun maxSize => maxSize < view.generation.members.entries.length) then
    return .refused .groupIdNotFound
  else
    match ← Coordinator.converted view.generation none nowMs with
    | .error errorCode => return .refused errorCode
    | .ok _ =>
      let marked := { view.generation with consumerSinceMs := some nowMs }
      match ← perform (.updateGeneration .convert marked.bumped view.version) with
      | none => return .outdated
      | some _ =>
        match ← completeConversion marked maxGenerationCasAttempts with
        | .ok _ => return .converted
        | .error errorCode => return .refused errorCode

def admitOnce (broker : Broker) (outdated : Run (Except ErrorCode Passage)) :
    Run (Except ErrorCode Passage) := do
  let nowMs ← perform .now
  if ← isLiveConsumer nowMs then return .ok .live
  else
    let view ← readView
    if view.generation.isConverted then
      let completed ← completeConversion view.generation maxGenerationCasAttempts
      return completed.map (fun _ => .clear)
    else if ← isLiveClassicGeneration view.generation nowMs then
      match ← convert broker view nowMs with
      | .converted => return .ok .clear
      | .refused errorCode => return .error errorCode
      | .outdated => outdated
    else return .ok .clear

def consumerJoinAdmission (broker : Broker) : Nat → Run (Except ErrorCode Passage)
  | 0 => return .error .coordinatorLoadInProgress
  | left + 1 => admitOnce broker (consumerJoinAdmission broker left)

/-- The newest stamp of each member, and the sender's as this replica last saw it. -/
def consumerLiveness (sender : String) (noted : Option Int) (stamps : Option ContactStamps) :
    Liveness where
  contacts :=
    let listed := (stamps.getD []).foldl
      (fun contacts stamp => contacts.upsert stamp.1 (fun held => held.elim stamp.2 (max stamp.2)))
      (.empty : OrderedMap String Int)
    noted.elim listed (fun noted =>
      listed.upsert sender (fun held => held.elim noted (max noted)))
  listed := stamps.isSome

def staleStamps (group : ConsumerGroupDoc) (stamps : ContactStamps) : ContactStamps :=
  stamps.filter (fun stamp =>
    !((group.members.get? stamp.1).isSome && latestContact stamps stamp.1 = some stamp.2))

def deleteContacts : ContactStamps → Run Unit
  | [] => return
  | stamp :: rest => do
    let _ ← perform (.deleteContact stamp.1 stamp.2)
    deleteContacts rest

def forgetStaleStamps (group : ConsumerGroupDoc) (stamps : Option ContactStamps) : Run Unit :=
  deleteContacts (staleStamps group (stamps.getD []))

abbrev Step (ρ : Type) :=
  Minted → Option ConsumerGroupDoc → Option Resolved → Liveness → Int → Except ErrorCode (Transition ρ)

def resolveTopics (refresh : Bool) : Run (Option Resolved) :=
  if refresh then do
    let resolved ← perform .resolve
    return some resolved
  else return none

def transitionOnce {ρ : Type} (passage : Passage) (sender : String) (refresh : Bool)
    (stamps : Option ContactStamps) (step : Step ρ) (lost : Run (Except ErrorCode ρ)) :
    Run (Except ErrorCode ρ) := do
  let nowMs ← perform .now
  let held ← perform .readConsumer
  let noted ← perform (.noted sender)
  let resolved ← resolveTopics refresh
  let minted ← perform .mint
  match step minted (held.map Versioned.doc) resolved (consumerLiveness sender noted stamps) nowMs with
  | .error errorCode => return .error errorCode
  | .ok transition =>
    if transition.changed then
      match ← perform (.updateConsumer passage transition.group.bumped
          (held.map Versioned.version)) with
      | none => lost
      | some _ => do
        forgetStaleStamps transition.group stamps
        return .ok transition.response
    else if transition.renew ∧ transition.memberId ≠ "" then do
      let _ ← perform (.renewContact passage transition.memberId nowMs)
      forgetStaleStamps transition.group stamps
      return .ok transition.response
    else do
      forgetStaleStamps transition.group stamps
      return .ok transition.response

def transitionLoop {ρ : Type} (passage : Passage) (sender : String) (refresh : Bool)
    (stamps : Option ContactStamps) (step : Step ρ) : Nat → Run (Except ErrorCode ρ)
  | 0 => transitionOnce passage sender refresh stamps step (return .error .coordinatorLoadInProgress)
  | left + 1 =>
    transitionOnce passage sender refresh stamps step
      (transitionLoop passage sender refresh stamps step left)

def consumerTransition {ρ : Type} (passage : Passage) (sender : String) (refresh : Bool)
    (step : Step ρ) : Run (Except ErrorCode ρ) :=
  if refresh then do
    let stamps ← perform .listContacts
    transitionLoop passage sender refresh (some stamps) step maxGenerationCasAttempts
  else transitionLoop passage sender refresh none step maxGenerationCasAttempts

/-! ### Routes -/

inductive Route
  | classic
  | consumer
  | reread

def takenBack (generation : GenerationDoc) (nowMs : Int) : GenerationDoc :=
  { generation with
    consumerSinceMs := none
    members := .empty
    leader := none
    generationId := saturating 32 (generation.generationId + 1)
    membersChangedAtMs := nowMs
    stateSinceMs := nowMs }.bumped

def knownTo (generation : GenerationDoc) (named : List (String × Option String)) : Bool :=
  named.any (fun identity =>
    (generation.members.get? identity.1).isSome ||
      identity.2.any (fun instanceId =>
        generation.members.entries.any (fun entry => entry.2.groupInstanceId = some instanceId)))

def knownToConsumer (group : ConsumerGroupDoc) (named : List (String × Option String)) : Bool :=
  named.any (fun identity =>
    (group.members.get? identity.1).isSome ||
      identity.2.any (fun instanceId =>
        group.members.entries.any (fun entry => entry.2.instanceId = some instanceId)))

def convertedRoute (view : GroupView) (joining : Bool) (nowMs : Int) : Run Route := do
  let _ ← completeConversion view.generation maxGenerationCasAttempts
  if joining then
    if ← isLiveConsumer nowMs then return .consumer
    else
      let _ ← perform (.updateGeneration .takeBack (takenBack view.generation nowMs) view.version)
      return .reread
  else return .consumer

def classicRoute (view : GroupView) (named : List (String × Option String)) (joining : Bool)
    (nowMs : Int) : Run Route := do
  if view.generation.isConverted then convertedRoute view joining nowMs
  else if joining then
    if view.generation.members.entries = [] then
      if ← isLiveConsumer nowMs then return .consumer else return .classic
    else return .classic
  else if knownTo view.generation named then return .classic
  else
    match ← perform .readConsumer with
    | none => return .classic
    | some held => return if knownToConsumer held.doc named then .consumer else .classic

/-! ### Join -/

def joinError (view : GroupView) (errorCode : ErrorCode) (memberId protocolType : String) :
    JoinAnswer where
  errorCode
  generationId := if view.version.isSome then view.generationId else -1
  protocolType := view.generation.protocolType <|> some protocolType
  protocolName := some (view.generation.protocolName.getD "")
  leader := ""
  skipAssignment := view.generation.skipAssignment <|> some false
  memberId
  members := []

def refused {α : Type} (answer : JoinAnswer) : Run α := answered (.join {} answer)

def protocolFor (generation : GenerationDoc) (protocols : List (String × Encoded MemberMetadata)) :
    Option (String × Encoded MemberMetadata) :=
  match generation.protocolName with
  | some name => protocols.find? (fun protocol => protocol.1 = name)
  | none => protocols.head?

def memberIdRequired (view : GroupView) (protocolType minted : String) : JoinAnswer where
  errorCode := .memberIdRequired
  generationId := -1
  protocolType := view.generation.protocolType <|> some protocolType
  protocolName := some ""
  leader := ""
  skipAssignment := view.generation.skipAssignment <|> some false
  memberId := minted
  members := []

def sameSubscriptionTopics (left right : Encoded MemberMetadata) : Bool :=
  match left.parsed, right.parsed with
  | some left, some right => left.topics.isPerm right.topics
  | _, _ => false

def opening (view : GroupView) (request : ClassicJoin) (protocolName : String) (nowMs : Int) :
    GenerationDoc :=
  let next :=
    if view.generation.protocolName.isNone then
      { view.generation with
        protocolType := some request.protocolType
        protocolName := some protocolName
        sessionTimeoutMs := request.sessionTimeoutMs
        rebalanceTimeoutMs := request.rebalanceTimeoutMs }
    else view.generation
  if view.version.isSome then next
  else
    { next with
      inceptionMs := nowMs
      stateSinceMs := nowMs
      sweptAtMs := nowMs
      skipAssignment := some false
      generationId := -1 }

/-- A known member changes the composition only with its set of topics, or if it lost its document. -/
def membershipChanged (view : GroupView) (memberId : String) (held : Option StoredMember)
    (metadata : Encoded MemberMetadata) : Bool :=
  !view.names memberId ||
    held.all (fun held =>
      decide (held.doc.joinResponse.metadata ≠ metadata) &&
        !sameSubscriptionTopics held.doc.joinResponse.metadata metadata)

def unorphaned (generation : GenerationDoc) : GenerationDoc :=
  if generation.leader.any (fun leader => (generation.members.get? leader).isNone) then
    { generation with leader := none }
  else generation

def elected (generation : GenerationDoc) (memberId : String) (nowMs : Int) : GenerationDoc :=
  if generation.leader.isNone then
    { generation with leader := some memberId, stateSinceMs := nowMs }
  else generation

def joinedTo (generation : GenerationDoc) (memberId : String) (instanceId : Option String)
    (nowMs : Int) : GenerationDoc :=
  rebalanced { generation with members := generation.members.insert memberId ⟨instanceId⟩ } nowMs

def joinDecision (view : GroupView) (request : ClassicJoin)
    (protocol : String × Encoded MemberMetadata) (memberId : String) (held : Option StoredMember)
    (nowMs : Int) : GenerationDoc × Bool :=
  let opened := opening view request protocol.1 nowMs
  let changed := membershipChanged view memberId held protocol.2
  let joined := if changed then joinedTo opened memberId request.instanceId nowMs else opened
  let led := unorphaned joined
  (elected led memberId nowMs,
    view.version.isNone || view.generation.protocolName.isNone || changed || led.leader.isNone)

def joinResponseOf (request : ClassicJoin) (memberId : String) (metadata : Encoded MemberMetadata) :
    JoinResponseMember where
  memberId
  groupInstanceId := request.instanceId
  metadata

def memberDocOf (next : GenerationDoc) (request : ClassicJoin)
    (protocol : String × Encoded MemberMetadata) (memberId : String) (held : Option StoredMember)
    (nowMs : Int) : MemberDoc where
  seq := held.elim 0 (fun held => held.doc.seq)
  lastContactMs := nowMs
  sessionTimeoutMs := next.sessionTimeoutMs
  rebalanceTimeoutMs := next.rebalanceTimeoutMs
  groupInstanceId := request.instanceId
  protocolName := some protocol.1
  joinResponse := joinResponseOf request memberId protocol.2

def memberWriteDue (next : GenerationDoc) (request : ClassicJoin)
    (protocol : String × Encoded MemberMetadata) (memberId : String) (held : Option StoredMember)
    (nowMs : Int) : Bool :=
  held.all (fun held =>
    decide (held.doc.joinResponse ≠ joinResponseOf request memberId protocol.2) ||
      decide (held.doc.protocolName ≠ some protocol.1)) ||
    livenessRenewalDue (held.map StoredMember.doc) nowMs next.sessionTimeoutMs

/-- The id a static member goes by: the one the group has for its instance, or a new one. -/
def instanceMemberId (call : JoinCall) (view : GroupView) (instanceId : String) :
    Run (String × JoinCall) :=
  match view.generation.members.entries.find? (fun entry =>
      entry.2.groupInstanceId = some instanceId) with
  | some entry => return (entry.1, call)
  | none =>
    match call.mintedForInstance with
    | some minted => return (minted, call)
    | none => do
      let minted ← perform .mint
      let memberId := instanceId ++ "-" ++ minted
      return (memberId, { call with mintedForInstance := some memberId })

def joiningMemberId (call : JoinCall) (view : GroupView) : Run (String × JoinCall) :=
  match call.request.instanceId with
  | none => return (call.request.memberId, call)
  | some instanceId =>
    if call.request.memberId ≠ "" then return (call.request.memberId, call)
    else instanceMemberId call view instanceId

def admissionFreshnessMs (sessionTimeoutMs : Int) : Int :=
  (sessionTimeoutOrDefault sessionTimeoutMs).tdiv 4

def pendingAdmissions (generation : GenerationDoc) (memberId : String) (nowMs : Int) :
    Run (List String) := do
  match ← perform .listMembers with
  | none => return []
  | some stamps =>
    return (stamps.filter (fun stamp =>
      decide (stamp.1 ≠ memberId) && (generation.members.get? stamp.1).isNone &&
        decide (saturating 64 (nowMs - stamp.2) ≤
          admissionFreshnessMs generation.sessionTimeoutMs))).map Prod.fst

inductive Admission
  | defer
  | batch
deriving DecidableEq

def admissionDeferMs : Int := 2000

def admission (pending : List String) (memberId : String) (deferredMs : Int) : Admission :=
  match pending with
  | admitter :: _ =>
    if admitter < memberId ∧ deferredMs < admissionDeferMs then .defer else .batch
  | [] => .batch

def memberRefs (protocolName : Option String) : List String → Run (List (String × MemberRef))
  | [] => return []
  | memberId :: rest => do
    let held ← perform (.readMember .batch memberId)
    let admitted ← memberRefs protocolName rest
    match held with
    | some (some member) =>
      if member.doc.protocolName.any (fun joinedUnder =>
          protocolName.any (fun protocolName => joinedUnder ≠ protocolName)) then
        return admitted
      else return (memberId, ⟨member.doc.groupInstanceId⟩) :: admitted
    | _ => return admitted

def extended (generation : GenerationDoc) (admitted : List (String × MemberRef)) : GenerationDoc :=
  { generation with
    members := admitted.foldl (fun members entry => members.insert entry.1 entry.2)
      generation.members }

/-- A member that the group does not name yet waits for a lower one that is joining too, or takes
in all that are. -/
def batched (call : JoinCall) (view : GroupView) (memberId : String) (next : GenerationDoc)
    (nowMs : Int) : Run GenerationDoc := do
  let pending ← pendingAdmissions view.generation memberId nowMs
  let deferredMs ← perform .elapsed
  match admission pending memberId deferredMs with
  | .defer =>
    if ← perform (.ask .waited) then again (.join call) else return next
  | .batch => do
    let order ← perform (.shuffle pending)
    let admitted ← memberRefs next.protocolName order
    return extended next admitted

def joinQuiescenceMs : Int := 3000

def joinLongPoll (view : GroupView) (memberId : String) (elapsedMs : Int) (quiescent : Bool)
    (joinWindowMs : Int) : Bool :=
  let isLeader := decide (view.generation.leader = some memberId)
  let isAssigned := view.assignments.any (fun assignments => (assignments.get? memberId).isSome)
  if isLeader && view.isForming && !quiescent && decide (elapsedMs < joinWindowMs) then true
  else if isLeader then false
  else if isAssigned then false
  else if quiescent && view.isForming then false
  else decide (elapsedMs < view.sessionTimeoutMs.tdiv 2)

def joinMember (consumerProtocol : Bool) (held : Option (Option StoredMember)) :
    Option JoinResponseMember :=
  match held with
  | some (some member) =>
    if consumerProtocol && decide (member.doc.joinResponse.metadata.bytes.length < 2) then none
    else some member.doc.joinResponse
  | _ => none

def joinMembers (consumerProtocol : Bool) :
    List String → Run (Option (OrderedMap String JoinResponseMember))
  | [] => return some .empty
  | memberId :: rest => do
    let held ← perform (.readMember .lead memberId)
    let members ← joinMembers consumerProtocol rest
    return (joinMember consumerProtocol held).bind (fun member =>
      members.map (fun members => members.insert memberId member))

def memberList (view : GroupView) (memberId : String) : Run (Option (List JoinResponseMember)) :=
  if view.generation.leader = some memberId then do
    let order ← perform (.shuffle (ids view.generation))
    let members ←
      joinMembers (decide (view.generation.protocolType = some consumerProtocol)) order
    return members.map (fun members => members.entries.map Prod.snd)
  else return some []

def joinAnswer (view : GroupView) (memberId : String) (members : List JoinResponseMember) :
    JoinAnswer where
  errorCode := .none
  generationId := view.generationId
  protocolType := view.generation.protocolType
  protocolName := view.generation.protocolName
  leader := view.generation.leader.getD ""
  skipAssignment := view.generation.skipAssignment
  memberId
  members

def joinServed (call : JoinCall) (view : GroupView) (memberId : String)
    (metadata : Encoded MemberMetadata) : Run Empty := do
  match ← memberList view memberId with
  | none => refused (joinError view .rebalanceInProgress memberId call.request.protocolType)
  | some members => answered (.join metadata (joinAnswer view memberId members))

/-- The group is as this join wants it: wait for the others, or answer. -/
def joinAnswered (call : JoinCall) (view : GroupView) (memberId : String)
    (metadata : Encoded MemberMetadata) (nowMs : Int) : Run Empty := do
  let elapsedMs ← perform .elapsed
  let quiescent :=
    decide (joinQuiescenceMs ≤ max 0 (saturating 64 (nowMs - view.generation.membersChangedAtMs)))
  let joinWindowMs := max 0
    ((view.generation.rebalanceTimeoutMs <|> call.request.rebalanceTimeoutMs).getD
      view.sessionTimeoutMs)
  if joinLongPoll view memberId elapsedMs quiescent joinWindowMs then
    if ← perform (.ask .waited) then again (.join call)
    else joinServed call view memberId metadata
  else joinServed call view memberId metadata

def admitting (call : JoinCall) (view : GroupView) (memberId : String) (next : GenerationDoc)
    (nowMs : Int) : Run GenerationDoc :=
  if view.names memberId then return next else batched call view memberId next nowMs

def GroupView.following (view : GroupView) (next : GenerationDoc) (version : Nat) : GroupView where
  generation := next.bumped
  version := some version
  assignment := if next.generationId = view.generationId then view.assignment else none

def joinWritten (call : JoinCall) (view : GroupView) (memberId : String)
    (metadata : Encoded MemberMetadata) (next : GenerationDoc) (write : Bool) (nowMs : Int) :
    Run Empty := do
  if write then
    let next ← admitting call view memberId next nowMs
    match ← perform (.updateGeneration .join next.bumped view.version) with
    | none => again (.join call)
    | some version => joinAnswered call (view.following next version) memberId metadata nowMs
  else joinAnswered call view memberId metadata nowMs

/-- The member's own document comes first: a member that the generation names has one. -/
def joinAs (call : JoinCall) (view : GroupView) (memberId : String)
    (protocol : String × Encoded MemberMetadata) (nowMs : Int) : Run Empty := do
  let held ← heldMember .join memberId
  let decided := joinDecision view call.request protocol memberId held nowMs
  if memberWriteDue decided.1 call.request protocol memberId held nowMs then
    match ← perform (.writeMember .join memberId
        (memberDocOf decided.1 call.request protocol memberId held nowMs).bumped
        (held.map StoredMember.version)) with
    | none => again (.join call)
    | some _ => joinWritten call view memberId protocol.2 decided.1 decided.2 nowMs
  else joinWritten call view memberId protocol.2 decided.1 decided.2 nowMs

def classicJoinToConsumer (broker : Broker) (request : ClassicJoin) (client : Client) : Run Empty := do
  let answer ← consumerTransition .live request.memberId true
    (fun minted held resolved liveness nowMs =>
      Group.join broker.topicPattern held request client minted resolved liveness broker.config nowMs)
  answered (.consumerJoin answer)

def joinClassic (call : JoinCall) (view : GroupView) (nowMs : Int) : Run Empty :=
  match protocolFor view.generation call.request.protocols with
  | none => refused (joinError view .inconsistentGroupProtocol "" call.request.protocolType)
  | some protocol =>
    if call.request.memberId = "" ∧ call.request.instanceId = none then do
      let minted ← perform .mint
      refused (memberIdRequired view call.request.protocolType
        (if call.client.id = "" then minted else call.client.id ++ "-" ++ minted))
    else do
      let joining ← joiningMemberId call view
      joinAs joining.2 view joining.1 protocol nowMs

def join (broker : Broker) (call : JoinCall) : Run Empty := do
  let nowMs ← perform .now
  let view ← readView
  let view ← sweep view nowMs
  if call.request.protocols = [] then
    refused (joinError view .invalidRequest "" call.request.protocolType)
  else if !call.consumerChecked &&
      (view.generation.isConverted || view.generation.members.entries.isEmpty) then
    match ← classicRoute view [] true nowMs with
    | .classic => joinClassic { call with consumerChecked := true } view nowMs
    | .consumer => classicJoinToConsumer broker call.request call.client
    | .reread => again (.join { call with consumerChecked := false })
  else joinClassic call view nowMs

/-! ### Sync -/

def syncError (view : GroupView) (errorCode : ErrorCode) : SyncAnswer where
  errorCode
  protocolType := view.generation.protocolType
  protocolName := view.generation.protocolName
  assignment := {}

def syncOk (view : GroupView) (assignment : Encoded MemberAssignment) : SyncAnswer where
  errorCode := .none
  protocolType := view.generation.protocolType
  protocolName := view.generation.protocolName
  assignment

/-- What is in place once the leader's assignment has been put forward: its own, or the one that
was there before. -/
def createAssignment (generationId : Int) (assignment : AssignmentDoc) : Run AssignmentDoc := do
  if ← perform (.createAssignment generationId assignment) then return assignment
  else
    match ← perform (.readAssignment generationId) with
    | some stored => return stored
    | none => answered .failed

def deleteAssignments : List Int → Run Unit
  | [] => return
  | generationId :: rest => do
    let _ ← perform (.deleteAssignment generationId)
    deleteAssignments rest

def deleteGroupAssignmentsBefore (generationId : Int) : Run Unit := do
  let listed ← perform .listAssignments
  deleteAssignments (listed.filter (fun listed => listed < generationId))

def syncLeader (call : SyncCall) (view : GroupView) (nowMs : Int) : Run (GroupView × SyncAnswer) := do
  let requested := call.assignments.foldl (fun requested entry => requested.insert entry.1 entry.2)
    (.empty : OrderedMap String (Encoded MemberAssignment))
  if (requested.get? call.memberId).isNone then return (view, syncError view .rebalanceInProgress)
  else
    let assignment ← createAssignment view.generationId
      { generationId := view.generationId
        leader := call.memberId
        protocolType := view.generation.protocolType.getD consumerProtocol
        protocolName := view.generation.protocolName.getD ""
        assignments := requested
        assignedAtMs := nowMs }
    let after ← readView
    if after.generationId ≠ view.generationId then
      return (after, syncError after .rebalanceInProgress)
    else do
      deleteGroupAssignmentsBefore (saturating 32 (view.generationId - 1))
      return (after, syncOk after ((assignment.assignments.get? call.memberId).getD {}))

def syncOnce (call : SyncCall) (view : GroupView) (nowMs : Int) : Run (GroupView × SyncAnswer) :=
  if view.version.isNone ∨ !view.names call.memberId then
    return (view, syncError view .unknownMemberId)
  else if view.generationId < call.generationId then
    return (view, syncError view .illegalGeneration)
  else if call.generationId < view.generationId then
    return (view, syncError view .rebalanceInProgress)
  else
    match view.assignments with
    | some assignments =>
      match assignments.get? call.memberId with
      | none => return (view, syncError view .rebalanceInProgress)
      | some assignment => return (view, syncOk view assignment)
    | none =>
      if view.generation.leader ≠ some call.memberId then
        return (view, syncError view .rebalanceInProgress)
      else syncLeader call view nowMs

def SyncAnswer.isAssigned (answer : SyncAnswer) : Bool :=
  decide (answer.errorCode = .none) && !answer.assignment.bytes.isEmpty

inductive LongPoll
  | respond (errorCode : Option ErrorCode)
  | wait

def pauseMs : Int := 3000

def syncLongPoll (view : GroupView) (answer : SyncAnswer) (instanceId : Option String)
    (elapsedMs generationId : Int) : LongPoll :=
  let awaitingLeader := decide (generationId = view.generationId) && view.assignments.isNone
  if answer.isAssigned then .respond none
  else if awaitingLeader && decide (elapsedMs < view.sessionTimeoutMs.tdiv 2) then .wait
  else if view.isForming then .respond none
  else if instanceId.isSome && decide (elapsedMs < pauseMs) then .wait
  else if elapsedMs < (view.sessionTimeoutMs * 8).tdiv 10 then .wait
  else .respond (some .rebalanceInProgress)

def classicSyncToConsumer (broker : Broker) (call : SyncCall) : Run Empty := do
  let answer ← consumerTransition .member call.memberId false
    (fun _ held _ liveness nowMs =>
      Group.sync broker.topicPattern held call.memberId call.instanceId call.generationId
        (call.protocolType, call.protocolName) liveness nowMs)
  answered (.consumerSync call.memberId call.generationId answer)

def syncAnswered (call : SyncCall) (view : GroupView) (answer : SyncAnswer) : Run Empty := do
  let elapsedMs ← perform .elapsed
  match syncLongPoll view answer call.instanceId elapsedMs call.generationId with
  | .respond none => answered (.sync call.memberId call.generationId answer)
  | .respond (some errorCode) =>
    answered (.sync call.memberId call.generationId { answer with errorCode })
  | .wait =>
    if ← perform (.ask .waited) then again (.sync call)
    else if answer.isAssigned then answered (.sync call.memberId call.generationId answer)
    else
      answered (.sync call.memberId call.generationId
        { answer with errorCode := .rebalanceInProgress })

def sync (broker : Broker) (call : SyncCall) : Run Empty := do
  let nowMs ← perform .now
  let view ← readView
  match ← classicRoute view [(call.memberId, call.instanceId)] false nowMs with
  | .consumer => classicSyncToConsumer broker call
  | _ => do
    let view ← sweep view nowMs
    let synced ← syncOnce call view nowMs
    renewMember call.memberId synced.1.sessionTimeoutMs nowMs
    syncAnswered call synced.1 synced.2

/-! ### Leave -/

/-- Who an identity names: a member by its id, or else by its instance. -/
def leaving (generation : GenerationDoc) (identity : String × Option String) : Option String :=
  if (generation.members.get? identity.1).isSome then some identity.1
  else
    identity.2.bind (fun instanceId =>
      (generation.members.entries.find? (fun entry =>
        entry.2.groupInstanceId = some instanceId)).map Prod.fst)

structure Departures where
  generation : GenerationDoc
  left : List String := []
  responses : List ClassicLeaveResponse := []

def Departures.depart (departures : Departures) (identity : String × Option String) : Departures :=
  match leaving departures.generation identity with
  | some memberId =>
    { generation :=
        { departures.generation with members := departures.generation.members.remove memberId }
      left := departures.left ++ [memberId]
      responses := departures.responses ++ [⟨identity.1, identity.2, .none⟩] }
  | none =>
    { departures with
      responses := departures.responses ++ [⟨identity.1, identity.2, .unknownMemberId⟩] }

def departures (generation : GenerationDoc) (departing : List (String × Option String)) :
    Departures :=
  departing.foldl Departures.depart { generation }

def Departures.withdrawn (departures : Departures) (nowMs : Int) : GenerationDoc :=
  (unorphaned (rebalanced departures.generation nowMs)).bumped

def classicLeaveToConsumer (broker : Broker) (departing : List (String × Option String)) :
    Run Empty := do
  let answer ← consumerTransition .member "" false
    (fun _ held _ liveness nowMs =>
      Group.leaveClassic broker.topicPattern held departing liveness nowMs)
  answered (.consumerLeave answer)

def leave (broker : Broker) (departing : List (String × Option String)) (conflicts : Nat) :
    Run Empty := do
  let nowMs ← perform .now
  let view ← readView
  match ← classicRoute view departing false nowMs with
  | .consumer => classicLeaveToConsumer broker departing
  | _ =>
    let departed := departures view.generation departing
    if departed.left = [] then answered (.leave departed.responses)
    else
      match ← perform (.updateGeneration .leave (departed.withdrawn nowMs) view.version) with
      | some _ => do
        deleteMembers (sorted departed.left)
        answered (.leave departed.responses)
      | none =>
        if maxGenerationCasAttempts ≤ conflicts then answered .failed
        else again (.leave departing (conflicts + 1))

/-! ### Heartbeats and commits -/

def classicHeartbeatToConsumer (broker : Broker) (call : HeartbeatCall) : Run Empty := do
  let memo ← perform (.ask .metadataDue)
  let answer ← consumerTransition .member call.memberId (decide (call.generationId = 0) || memo)
    (fun _ held resolved liveness nowMs =>
      Group.heartbeat broker.topicPattern held call.memberId call.instanceId call.generationId
        resolved liveness nowMs)
  answered (.heartbeat (match answer with | .ok errorCode => errorCode | .error errorCode => errorCode))

def heartbeat (broker : Broker) (call : HeartbeatCall) : Run Empty := do
  let nowMs ← perform .now
  let view ← readView
  match ← classicRoute view [(call.memberId, call.instanceId)] false nowMs with
  | .consumer => classicHeartbeatToConsumer broker call
  | _ => do
    let view ← sweep view nowMs
    if view.version.isNone ∨ !view.names call.memberId then answered (.heartbeat .unknownMemberId)
    else do
      renewMember call.memberId view.sessionTimeoutMs nowMs
      answered (.heartbeat
        (if view.generationId < call.generationId then .illegalGeneration
        else if call.generationId < view.generationId then .rebalanceInProgress
        else .none))

def consumerCommitVerdict (held : Option (Versioned ConsumerGroupDoc)) (memberId : String)
    (memberEpoch : Int) : ErrorCode :=
  match held.bind (fun held => held.doc.members.get? memberId) with
  | none => .unknownMemberId
  | some member =>
    if member.memberEpoch = memberEpoch then .none
    else if member.classic.isSome then .illegalGeneration
    else .staleMemberEpoch

def staleCommitVerdict (current claimed : Int) : Run ErrorCode := do
  if current - 1 = claimed then
    match ← perform (.readAssignment current) with
    | none => return .none
    | some _ => return .rebalanceInProgress
  else return .illegalGeneration

def commit (memberId : String) (generationId : Int) : Run Empty := do
  if 0 ≤ generationId ∧ memberId ≠ "" then
    let nowMs ← perform .now
    let generation ← perform .readGeneration
    match generation.filter (fun generation =>
        !generation.doc.isConverted && (generation.doc.members.get? memberId).isSome) with
    | none => do
      let held ← perform .readConsumer
      answered (.commit (consumerCommitVerdict held memberId generationId))
    | some generation => do
      renewMember memberId generation.doc.sessionTimeoutMs nowMs
      if generation.doc.generationId = generationId then answered (.commit .none)
      else
        let errorCode ← staleCommitVerdict generation.doc.generationId generationId
        answered (.commit errorCode)
  else answered (.commit .none)

/-! ### The consumer protocol -/

def consumerStep (broker : Broker) (request : HeartbeatRequest) (client : Client) :
    Step HeartbeatResponse :=
  fun minted held resolved liveness nowMs =>
    if held.isNone ∧ request.memberEpoch ≠ 0 then .error .unknownMemberId
    else apply broker.topicPattern held request client minted resolved liveness broker.config nowMs

def consumerServed (broker : Broker) (request : HeartbeatRequest) (client : Client)
    (passage : Passage) : Run Empty := do
  let memo ← perform (.ask .metadataDue)
  let refresh := decide (request.memberEpoch = 0) || request.subscribedTopicNames.isSome ||
    request.subscribedTopicRegex.isSome || memo
  let answer ← consumerTransition passage request.memberId refresh
    (consumerStep broker request client)
  answered (.consumerHeartbeat answer)

def consumerHeartbeat (broker : Broker) (request : HeartbeatRequest) (client : Client) :
    Run Empty := do
  if request.memberEpoch = 0 then
    match ← consumerJoinAdmission broker (maxGenerationCasAttempts + 1) with
    | .error errorCode => answered (.consumerHeartbeat (.error errorCode))
    | .ok passage => consumerServed broker request client passage
  else consumerServed broker request client .member

/-! ### The coordinator -/

def body (broker : Broker) : Call → Run Empty
  | .join call => join broker call
  | .sync call => sync broker call
  | .leave departing conflicts => leave broker departing conflicts
  | .heartbeat call => heartbeat broker call
  | .commit memberId generationId => commit memberId generationId
  | .consumerHeartbeat request client => consumerHeartbeat broker request client

def Call.opens : Call → Bool
  | .join call => !call.consumerChecked && call.mintedForInstance.isNone
  | .leave _ conflicts => decide (conflicts = 0)
  | _ => true

/-- Any number of requests for one group, on any replicas. -/
def coordinator (broker : Broker) : Machine World Op Op.Reply Choice Call where
  world := {}
  perform := World.perform
  outside := World.outside
  opens := Call.opens
  body := body broker

end Kodansu.Coordinator

/-
What a request knows of the group from its own past.

A generation is known from the last time it was read or written.  A member's document, the
consumer group and the assignments are known as they were read.  `Issued` says of every
operation on the group what its request knows at that point; it names no other request, and
nothing it says is about the store as it is by then.
-/

import Kodansu.Coordinator.Requests

namespace Kodansu.Coordinator

open Lib Kodansu.Group

abbrev Event := Program.Event Op.Reply

abbrev Past := List Event

/-! ### Observations -/

def observedGeneration : Event → Option (Option (Versioned GenerationDoc))
  | ⟨.readGeneration, held⟩ => some held
  | ⟨.updateGeneration _ next _, reply⟩ => Option.map (fun version => some ⟨next, version⟩) reply
  | _ => none

def observedRead : Event → Option (Option (Versioned GenerationDoc))
  | ⟨.readGeneration, held⟩ => some held
  | _ => none

def observedConsumer : Event → Option (Option (Versioned ConsumerGroupDoc))
  | ⟨.readConsumer, held⟩ => some held
  | _ => none

def observedContacts : Event → Option ContactStamps
  | ⟨.listContacts, stamps⟩ => some stamps
  | _ => none

abbrev lastGeneration (past : Past) : Option (Option (Versioned GenerationDoc)) :=
  Program.latest observedGeneration past

abbrev sinceGeneration (past : Past) : Past := Program.since observedGeneration past

abbrev sinceRead (past : Past) : Past := Program.since observedRead past

abbrev lastConsumer (past : Past) : Option (Option (Versioned ConsumerGroupDoc)) :=
  Program.latest observedConsumer past

abbrev lastContacts (past : Past) : Option ContactStamps := Program.latest observedContacts past

def Steady (event : Event) : Prop := observedGeneration event = none

def Apart (event : Event) : Prop := observedConsumer event = none ∧ observedContacts event = none

def Quiet (event : Event) : Prop := Steady event ∧ Apart event

def Observed (past : Past) (held : Versioned GenerationDoc) : Prop :=
  ∃ event ∈ past, observedGeneration event = some (some held)

/-! ### Views -/

def GroupView.held (view : GroupView) : Option (Versioned GenerationDoc) :=
  view.version.map (fun version => ⟨view.generation, version⟩)

/-- The view is the last that the past has of the generation. -/
structure Seen (past : Past) (view : GroupView) : Prop where
  last : lastGeneration past = some view.held
  absent : view.version = none → view.generation = {}
  assigned : ∀ assignment, view.assignment = some assignment →
    ⟨.readAssignment view.generationId, some assignment⟩ ∈ past

inductive Checked (past : Past) : Prop
  | absent (consumer : lastConsumer past = some none)
  | lapsed {held : Versioned ConsumerGroupDoc} {stamps : ContactStamps} {nowMs : Int}
      (consumer : lastConsumer past = some (some held)) (contacts : lastContacts past = some stamps)
      (now : ⟨.now, nowMs⟩ ∈ past)
      (dead : (held.doc.withContacts stamps).hasLiveMembers nowMs = false)

inductive Clear (past : Past) : Prop
  | converted {view : GroupView} (seen : Seen past view)
      (isConverted : view.generation.isConverted = true)
  | lapsed {view : GroupView} {nowMs : Int} (seen : Seen past view) (now : ⟨.now, nowMs⟩ ∈ past)
      (each : ∀ memberId ∈ ids view.generation, ∃ member,
        ⟨.readMember .probe memberId, some (some member)⟩ ∈ sinceGeneration past ∧
          member.doc.isExpired nowMs = true)

/-! ### Joins -/

/-- The request goes by this id: its own, one minted for its instance, or that of the member the
group had for its instance. -/
inductive Named (request : ClassicJoin) (past : Past) (memberId : String) : Prop
  | given (nonempty : request.memberId ≠ "") (same : memberId = request.memberId)
  | minted {instanceId : String} {minted : Minted} (blank : request.memberId = "")
      (isStatic : request.instanceId = some instanceId) (made : ⟨.mint, minted⟩ ∈ past)
      (same : memberId = instanceId ++ "-" ++ minted)
  | found {instanceId : String} {held : Versioned GenerationDoc} (blank : request.memberId = "")
      (isStatic : request.instanceId = some instanceId) (observed : Observed past held)
      (named : held.doc.members.get? memberId = some ⟨some instanceId⟩)

def JoinsAs (call : Call) (past : Past) (memberId : String) : Prop :=
  ∃ join, call = .join join ∧ Named join.request past memberId

def Enter (call : Call) (past : Past) : Prop :=
  match call with
  | .join join =>
    (join.consumerChecked = true → Checked past) ∧
      ∀ memberId, join.mintedForInstance = some memberId →
        ∃ instanceId minted, join.request.instanceId = some instanceId ∧
          (⟨.mint, minted⟩ : Event) ∈ past ∧ memberId = instanceId ++ "-" ++ minted.val
  | _ => True

def Continues : Call → Call → Prop
  | .join call, next => ∃ join, next = .join join ∧ join.request = call.request
  | .leave departing _, next => ∃ conflicts, next = .leave departing conflicts
  | call, next => next = call

structure Attempt where
  request : ClassicJoin
  protocol : String × Encoded MemberMetadata
  memberId : String
  held : Option StoredMember
  nowMs : Int

namespace Attempt

variable (attempt : Attempt) (view : GroupView)

def next : GenerationDoc :=
  (joinDecision view attempt.request attempt.protocol attempt.memberId attempt.held
    attempt.nowMs).1

def write : Bool :=
  (joinDecision view attempt.request attempt.protocol attempt.memberId attempt.held
    attempt.nowMs).2

def changed : Bool := membershipChanged view attempt.memberId attempt.held attempt.protocol.2

def due : Bool :=
  memberWriteDue (attempt.next view) attempt.request attempt.protocol attempt.memberId attempt.held
    attempt.nowMs

def document : MemberDoc :=
  (memberDocOf (attempt.next view) attempt.request attempt.protocol attempt.memberId attempt.held
    attempt.nowMs).bumped

def trail (stored : Nat) (older : Past) : Past :=
  let read := ⟨.readMember .join attempt.memberId, some attempt.held⟩ :: older
  if attempt.due view then
    ⟨.writeMember .join attempt.memberId (attempt.document view)
      (attempt.held.map StoredMember.version), some stored⟩ :: read
  else read

end Attempt

structure Prepared (call : Call) (past : Past) (view : GroupView) (attempt : Attempt) : Prop where
  asked : ∃ join, call = .join join ∧ attempt.request = join.request
  seen : Seen past view
  joins : JoinsAs call past attempt.memberId
  recorded : ∃ stored older, past = attempt.trail view stored older
  checked : view.generation.members.entries = [] → Checked past

def Admits (past : Past) (entry : String × MemberRef) : Prop :=
  ∃ member, ⟨.readMember .batch entry.1, some (some member)⟩ ∈ sinceGeneration past ∧
    entry.2 = ⟨member.doc.groupInstanceId⟩

/-- The pass goes on to the next generation. -/
structure Entering (call : Call) (past : Past) (view : GroupView) (attempt : Attempt)
    (admitted : List (String × MemberRef)) : Prop where
  prepared : ∃ before, Prepared call before view attempt ∧ Program.Grown Quiet before past ∧
    (view.names attempt.memberId = true → past = before ∧ admitted = [])
  batch : ∀ entry ∈ admitted, Admits past entry

def Rewrites (call : Call) (past : Past) (view : GroupView) : Cause → GenerationDoc → Prop
  | .claim, next => view.version.isSome ∧ ∃ nowMs, next = claimed view.generation nowMs
  | .evict nowMs, next =>
    view.version.isSome ∧ ∃ expired, next = evicted view.generation expired nowMs ∧
      ∀ memberId ∈ expired, ∃ held,
        ⟨.readMember (.sweep nowMs) memberId, held⟩ ∈ sinceGeneration past ∧
          lapsedVerdict nowMs held = true
  | .join, next =>
    ∃ attempt admitted, Entering call past view attempt admitted ∧ attempt.write view = true ∧
      next = (extended (attempt.next view) admitted).bumped
  | .leave, next =>
    ∃ departing nowMs, (departures view.generation departing).left ≠ [] ∧
      next = (departures view.generation departing).withdrawn nowMs
  | .convert, next =>
    view.generation.protocolType = some consumerProtocol ∧
      ∃ nowMs, next = { view.generation with consumerSinceMs := some nowMs }.bumped
  | .takeBack, next =>
    view.generation.isConverted = true ∧ ∃ nowMs, next = takenBack view.generation nowMs

/-- The two subscriptions are to the same topics, as far as the source can tell. -/
def SameSubscription (left right : Encoded MemberMetadata) : Prop :=
  left = right ∨ sameSubscriptionTopics left right = true

def Raised (past : Past) : Prop :=
  ∃ next version stored older view,
    Program.Grown Steady (⟨.updateGeneration .join next version, some stored⟩ :: older) past ∧
      Seen older view ∧
        (view.version.isSome → next.generationId = saturating 32 (view.generationId + 1))

/-- Why a join is answered: it has made the next generation, or the member's document says what
the request says. -/
structure Settled (call : Call) (past : Past) (metadata : Encoded MemberMetadata)
    (answer : JoinAnswer) : Prop where
  seen : ∃ view, Seen past view ∧ view.version.isSome ∧ answer.generationId = view.generationId ∧
    view.names answer.memberId = true
  joins : JoinsAs call past answer.memberId
  how : Raised past ∨ ∃ held,
    ⟨.readMember .join answer.memberId, some (some held)⟩ ∈ sinceRead past ∧
      SameSubscription held.doc.joinResponse.metadata metadata

/-! ### Assignments -/

/-- The request has seen the generation's assignment, and the answer is taken from it. -/
structure Granted (past : Past) (memberId : String) (generationId : Int)
    (assignment : Encoded MemberAssignment) : Prop where
  grounds : ∃ held document, Observed past held ∧ held.doc.generationId = generationId ∧
    (held.doc.members.get? memberId).isSome ∧
    (⟨.createAssignment generationId document, true⟩ ∈ past ∨
      ⟨.readAssignment generationId, some document⟩ ∈ past) ∧
    (document.assignments.get? memberId = some assignment ∨
      held.doc.leader = some memberId ∧ assignment = (document.assignments.get? memberId).getD {})

/-! ### Operations -/

def Issued (call : Call) (past : Past) : Op → Prop
  | .updateGeneration cause next version =>
    ∃ view, Seen past view ∧ version = view.version ∧ Rewrites call past view cause next
  | .readMember .join memberId => JoinsAs call past memberId
  | .writeMember .join memberId _ version =>
    JoinsAs call past memberId ∧ ∃ held older,
      past = ⟨.readMember .join memberId, some held⟩ :: older ∧
        version = held.map StoredMember.version
  | .createAssignment generationId assignment =>
    ∃ held, Observed past held ∧ held.doc.generationId = generationId ∧
      assignment.generationId = generationId ∧ held.doc.leader = some assignment.leader ∧
      (assignment.assignments.get? assignment.leader).isSome
  | .deleteAssignment generationId =>
    ∃ held, Observed past held ∧ generationId < saturating 32 (held.doc.generationId - 1)
  | .updateConsumer .clear _ _ => Clear past
  | .renewContact .clear _ _ => Clear past
  | .answer (.join metadata answer) => answer.errorCode = .none → Settled call past metadata answer
  | .answer (.sync memberId generationId answer) =>
    answer.errorCode = .none → Granted past memberId generationId answer.assignment
  | _ => True

end Kodansu.Coordinator

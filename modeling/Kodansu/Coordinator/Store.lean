/-
The objects that one group is kept in, and the operations that requests perform on them.

Every conditional write takes the version that was read and yields a new one; versions are never
used twice.  A write that loses tells no more than that it lost: what to do next is decided from
a full re-read.  Along with the objects the store records what was written, created and answered.

What a request learns from elsewhere is an operation too: the clock, the memos of its replica,
whether a wait was cancelled, the topics that exist.
-/

import Kodansu.Group.Migration
import Kodansu.Lib.Path
import Kodansu.Lib.Program

namespace Kodansu.Coordinator

open Lib Kodansu.Group

structure Versioned (α : Type) where
  doc : α
  version : Nat
deriving DecidableEq

structure StoredMember where
  doc : MemberDoc
  version : Nat
  modifiedMs : Int
deriving DecidableEq

inductive Cause
  | claim
  | evict (nowMs : Int)
  | join
  | leave
  | convert
  | takeBack
deriving DecidableEq

inductive Purpose
  | sweep (nowMs : Int)
  | join
  | batch
  | lead
  | renew
  | convert
  | probe
deriving DecidableEq

/-- Why a request may write the consumer group: it has a live member, the classic group is out of
the way, or the sender is taken for a member. -/
inductive Passage
  | live
  | clear
  | member
deriving DecidableEq

structure JoinAnswer where
  errorCode : ErrorCode
  generationId : Int
  protocolType : Option String
  protocolName : Option String
  leader : String
  skipAssignment : Option Bool
  memberId : String
  members : List JoinResponseMember
deriving DecidableEq

structure SyncAnswer where
  errorCode : ErrorCode
  protocolType : Option String
  protocolName : Option String
  assignment : Encoded MemberAssignment
deriving DecidableEq

/-- An answer, with the request it answers as far as that is not in the answer. -/
inductive Answer
  | join (metadata : Encoded MemberMetadata) (answer : JoinAnswer)
  | sync (memberId : String) (generationId : Int) (answer : SyncAnswer)
  | heartbeat (errorCode : ErrorCode)
  | leave (members : List ClassicLeaveResponse)
  | commit (errorCode : ErrorCode)
  | consumerHeartbeat (answer : Except ErrorCode HeartbeatResponse)
  | consumerJoin (answer : Except ErrorCode ClassicJoinResponse)
  | consumerSync (memberId : String) (generationId : Int)
      (answer : Except ErrorCode ClassicSyncResponse)
  | consumerLeave (answer : Except ErrorCode (List ClassicLeaveResponse))
  | failed

inductive Question
  | sweepUnclaimed
  | livenessKnown
  | metadataDue
  | waited
deriving DecidableEq

inductive Op
  | now
  | elapsed
  | ask (question : Question)
  | noted (memberId : String)
  | mint
  | shuffle (ids : List String)
  | resolve
  | readGeneration
  | updateGeneration (cause : Cause) (next : GenerationDoc) (version : Option Nat)
  | readMember (purpose : Purpose) (memberId : String)
  | writeMember (purpose : Purpose) (memberId : String) (next : MemberDoc) (version : Option Nat)
  | deleteMember (memberId : String)
  | listMembers
  | readAssignment (generationId : Int)
  | createAssignment (generationId : Int) (assignment : AssignmentDoc)
  | listAssignments
  | deleteAssignment (generationId : Int)
  | readConsumer
  | updateConsumer (passage : Passage) (next : ConsumerGroupDoc) (version : Option Nat)
  | listContacts
  | renewContact (passage : Passage) (memberId : String) (contactMs : Int)
  | deleteContact (memberId : String) (contactMs : Int)
  | answer (answer : Answer)

/-- A read or a listing whose failure the source does not pass on replies with none. -/
abbrev Op.Reply : Op → Type
  | .now => Int
  | .elapsed => Int
  | .ask _ => Bool
  | .noted _ => Option Int
  | .mint => Minted
  | .shuffle _ => List String
  | .resolve => Resolved
  | .readGeneration => Option (Versioned GenerationDoc)
  | .updateGeneration .. => Option Nat
  | .readMember .. => Option (Option StoredMember)
  | .writeMember .. => Option Nat
  | .deleteMember _ => Unit
  | .listMembers => Option (List (String × Int))
  | .readAssignment _ => Option AssignmentDoc
  | .createAssignment .. => Bool
  | .listAssignments => List Int
  | .deleteAssignment _ => Unit
  | .readConsumer => Option (Versioned ConsumerGroupDoc)
  | .updateConsumer .. => Option Nat
  | .listContacts => ContactStamps
  | .renewContact .. => Unit
  | .deleteContact .. => Unit
  | .answer _ => Unit

structure Choice where
  failed : Bool := false
  nowMs : Int := 0
  ms : Int := 0
  flag : Bool := false
  noted : Option Int := none
  minted : Minted := ⟨"minted", by decide⟩
  order : List String := []
  resolved : Resolved := .empty

/-- A member that a sweep has removed, with its document at that moment. -/
structure Eviction where
  memberId : String
  held : Option MemberDoc
  nowMs : Int

def jsonExtension : List Char := ".json".toList

/-- Where a member's document lies below the group's members: one whose id normalises away has none,
and ids that differ by empty parts share one. -/
def groupMemberLocation (memberId : String) : Option (List (List Char)) :=
  let location := pathFrom (memberId.toList ++ jsonExtension)
  if location = [jsonExtension] then none else some location

/-- The member id that a listed document names, by the last part of where it lies. -/
def listedMemberId (location : List (List Char)) : Option String :=
  location.getLast?.bind (fun name =>
    if jsonExtension.isSuffixOf name then
      some (String.ofList (name.take (name.length - jsonExtension.length)))
    else none)

/-- The objects of the group, and what has been done to them so far, newest first. -/
structure World where
  generation : Option (Versioned GenerationDoc) := none
  members : OrderedMap (List (List Char)) StoredMember := .empty
  assignments : OrderedMap Int AssignmentDoc := .empty
  consumer : Option (Versioned ConsumerGroupDoc) := none
  contacts : ContactStamps := []
  clockMs : Int := 0
  nextVersion : Nat := 0
  generations : List (Versioned GenerationDoc) := []
  created : List (Int × AssignmentDoc) := []
  evictions : List Eviction := []
  answers : List Answer := []

namespace World

def version (world : World) : Option Nat := world.generation.map Versioned.version

def member? (world : World) (memberId : String) : Option StoredMember :=
  (groupMemberLocation memberId).bind world.members.get?

/-- The members that a listing shows, with the times their documents were written. -/
def memberStamps (world : World) : OrderedMap String Int :=
  world.members.entries.foldl (fun stamps entry =>
    (listedMemberId entry.1).elim stamps (fun memberId => stamps.insert memberId entry.2.modifiedMs))
    .empty

def evicted (world : World) (cause : Cause) (next : GenerationDoc) : List Eviction :=
  match cause with
  | .evict nowMs =>
    (world.generation.elim [] (fun held => held.doc.members.entries.map Prod.fst)).filterMap
      (fun memberId =>
        if (next.members.get? memberId).isSome then none
        else some ⟨memberId, (world.member? memberId).map StoredMember.doc, nowMs⟩)
  | _ => []

def perform (world : World) : (op : Op) → Choice → Option (op.Reply × World)
  | .now, choice => some (choice.nowMs, world)
  | .elapsed, choice => some (choice.ms, world)
  | .ask _, choice => some (choice.flag, world)
  | .noted _, choice => some (choice.noted, world)
  | .mint, choice => some (choice.minted, world)
  | .shuffle ids, choice => if choice.order.isPerm ids then some (choice.order, world) else none
  | .resolve, choice => some (choice.resolved, world)
  | .readGeneration, _ => some (world.generation, world)
  | .updateGeneration cause next version, _ =>
    if version = world.version then
      some (some world.nextVersion, { world with
          generation := some ⟨next, world.nextVersion⟩
          nextVersion := world.nextVersion + 1
          generations := ⟨next, world.nextVersion⟩ :: world.generations
          evictions := world.evicted cause next ++ world.evictions })
    else some (none, world)
  | .readMember _ memberId, choice =>
    some (if choice.failed then none else some (world.member? memberId), world)
  | .writeMember _ memberId next version, choice =>
    match groupMemberLocation memberId with
    | none => none -- The request fails.
    | some location =>
      if version = (world.members.get? location).map StoredMember.version then
        some (some world.nextVersion, { world with
            members := world.members.insert location ⟨next, world.nextVersion, choice.ms⟩
            nextVersion := world.nextVersion + 1 })
      else some (none, world)
  | .deleteMember memberId, choice =>
    match groupMemberLocation memberId with
    | none => some ((), world)
    | some location => some ((), if choice.failed then world else
        { world with members := world.members.remove location })
  | .listMembers, choice =>
    some (if choice.failed then none else some world.memberStamps.entries, world)
  | .readAssignment generationId, _ => some (world.assignments.get? generationId, world)
  | .createAssignment generationId assignment, _ =>
    match world.assignments.get? generationId with
    | some _ => some (false, world)
    | none => some (true, { world with
          assignments := world.assignments.insert generationId assignment
          created := (generationId, assignment) :: world.created })
  | .listAssignments, _ => some (world.assignments.entries.map Prod.fst, world)
  | .deleteAssignment generationId, choice =>
    some ((), if choice.failed then world else
      { world with assignments := world.assignments.remove generationId })
  | .readConsumer, _ => some (world.consumer, world)
  | .updateConsumer _ next version, _ =>
    if version = world.consumer.map Versioned.version then
      some (some world.nextVersion, { world with
          consumer := some ⟨next, world.nextVersion⟩
          nextVersion := world.nextVersion + 1 })
    else some (none, world)
  | .listContacts, _ => some (world.contacts, world)
  | .renewContact _ memberId contactMs, _ =>
    some ((), { world with contacts := (memberId, contactMs) :: world.contacts })
  | .deleteContact memberId contactMs, choice =>
    some ((), if choice.failed then world else
      { world with contacts := world.contacts.filter (fun stamp => stamp ≠ (memberId, contactMs)) })
  | .answer answer, _ => some ((), { world with answers := answer :: world.answers })

def outside (world : World) (choice : Choice) : Option World :=
  if world.clockMs ≤ choice.nowMs then some { world with clockMs := choice.nowMs } else none

end World

end Kodansu.Coordinator

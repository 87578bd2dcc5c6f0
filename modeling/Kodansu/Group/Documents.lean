/-
The documents of a group: the classic group's generation, member and assignment documents,
and the one document of a consumer-protocol group.

Partitions by topic id are kept as the set of their pairs: the source's two-level map has no
empty inner set, so that the two say the same.  A client's encoded subscription or assignment
is carried with what it parses to.
-/

import Kodansu.Lib.OrderedMap

namespace Kodansu.Group

open Lib

/-- Arithmetic that stops at the ends of a signed machine integer. -/
def saturating (bits : Nat) (value : Int) : Int :=
  max (-(2 ^ (bits - 1))) (min (2 ^ (bits - 1) - 1) value)

def i32Max : Int := 2 ^ 31 - 1

inductive ErrorCode
  | none
  | unknownServerError
  | illegalGeneration
  | inconsistentGroupProtocol
  | unknownMemberId
  | rebalanceInProgress
  | invalidRequest
  | groupIdNotFound
  | coordinatorLoadInProgress
  | memberIdRequired
  | groupMaxSizeReached
  | fencedInstanceId
  | fencedMemberEpoch
  | unreleasedInstanceId
  | staleMemberEpoch
  | unsupportedAssignor
  | invalidRegularExpression
deriving DecidableEq

/-- Bytes that a client encoded, and what they parse to. -/
structure Encoded (α : Type) where
  bytes : List UInt8 := []
  parsed : Option α := none
deriving DecidableEq

/-! ### Partitions -/

structure Slot where
  topic : Nat
  partition : Int
deriving DecidableEq

def Slot.sortKey (slot : Slot) : Nat ×ₗ Int := toLex (slot.topic, slot.partition)

lemma Slot.sortKey_injective : Function.Injective Slot.sortKey := by
  intro left right same
  cases left
  cases right
  simpa [Slot.sortKey] using same

instance : LinearOrder Slot := LinearOrder.lift' Slot.sortKey Slot.sortKey_injective

abbrev Partitions := Finset Slot

def ordered (partitions : Partitions) : List Slot :=
  Quotient.liftOn partitions.val (List.insertionSort (· ≤ ·)) (fun left right same => by
    apply List.Perm.eq_of_pairwise
    · intro first second _ _ le ge
      exact le_antisymm le ge
    · exact List.pairwise_insertionSort _ _
    · exact List.pairwise_insertionSort _ _
    · exact (List.perm_insertionSort _ _).trans (same.trans (List.perm_insertionSort _ _).symm))

variable {partitions : Partitions} {slot : Slot}

lemma mem_ordered : slot ∈ ordered partitions ↔ slot ∈ partitions := by
  obtain ⟨⟨entries⟩,distinct⟩ := partitions
  exact List.mem_insertionSort _

/-! ### What clients encode -/

structure TopicPartition where
  topic : String
  partitions : List Int
deriving DecidableEq

structure MemberMetadata where
  version : Int := 0
  topics : List String := []
  ownedPartitions : Option (List TopicPartition) := none
  rackId : Option String := none
deriving DecidableEq

structure MemberAssignment where
  version : Int := 0
  assignedPartitions : List TopicPartition := []
  userData : Option (List UInt8) := none
deriving DecidableEq

/-! ### The documents of a classic group -/

structure JoinResponseMember where
  memberId : String := ""
  groupInstanceId : Option String := none
  metadata : Encoded MemberMetadata := {}
deriving DecidableEq

structure MemberDoc where
  seq : Nat := 0
  lastContactMs : Int := 0
  sessionTimeoutMs : Int := 0
  rebalanceTimeoutMs : Option Int := none
  groupInstanceId : Option String := none
  protocolName : Option String := none
  joinResponse : JoinResponseMember := {}
deriving DecidableEq

/-- The silence a session allows: itself, and the window in which renewals are skipped. -/
def lapsesAfterMs (sessionTimeoutMs : Int) : Int :=
  saturating 64 (sessionTimeoutMs + sessionTimeoutMs.tdiv 2)

def MemberDoc.isExpired (member : MemberDoc) (nowMs : Int) : Bool :=
  lapsesAfterMs member.sessionTimeoutMs < saturating 64 (nowMs - member.lastContactMs)

def MemberDoc.bumped (member : MemberDoc) : MemberDoc := { member with seq := member.seq + 1 }

structure MemberRef where
  groupInstanceId : Option String := none
deriving DecidableEq

structure GenerationDoc where
  seq : Nat := 0
  generationId : Int := 0
  protocolType : Option String := none
  protocolName : Option String := none
  leader : Option String := none
  members : OrderedMap String MemberRef := .empty
  membersChangedAtMs : Int := 0
  stateSinceMs : Int := 0
  sweptAtMs : Int := 0
  sessionTimeoutMs : Int := 0
  rebalanceTimeoutMs : Option Int := none
  skipAssignment : Option Bool := none
  inceptionMs : Int := 0
  consumerSinceMs : Option Int := none
deriving DecidableEq

def GenerationDoc.isConverted (generation : GenerationDoc) : Bool :=
  generation.consumerSinceMs.isSome

def GenerationDoc.bumped (generation : GenerationDoc) : GenerationDoc :=
  { generation with seq := generation.seq + 1 }

structure AssignmentDoc where
  generationId : Int
  leader : String
  protocolType : String
  protocolName : String
  assignments : OrderedMap String (Encoded MemberAssignment)
  assignedAtMs : Int
deriving DecidableEq

/-! ### The document of a consumer group -/

inductive MemberState
  | stable
  | unrevokedPartitions
  | unreleasedPartitions
deriving DecidableEq

structure SubscribedTopic where
  name : String
  partitions : Int
deriving DecidableEq

structure ClassicMember where
  sessionTimeoutMs : Int
  protocolName : String
  protocols : List String
  metadata : Encoded MemberMetadata
deriving DecidableEq

structure ConsumerMember where
  memberEpoch : Int := 0
  previousMemberEpoch : Int := 0
  state : MemberState := .stable
  instanceId : Option String := none
  rackId : Option String := none
  clientId : String := ""
  clientHost : String := ""
  subscribedTopicNames : List String := []
  subscribedTopicRegex : Option String := none
  serverAssignor : Option String := none
  rebalanceTimeoutMs : Int := 0
  sessionTimeoutMs : Int := 0
  lastContactMs : Int := 0
  revocationDeadlineMs : Option Int := none
  assigned : Partitions := ∅
  pendingRevocation : Partitions := ∅
  target : Partitions := ∅
  classic : Option ClassicMember := none
deriving DecidableEq

def leavingStaticMemberEpoch : Int := -2

namespace ConsumerMember

def isExpired (member : ConsumerMember) (nowMs : Int) : Bool :=
  lapsesAfterMs member.sessionTimeoutMs < saturating 64 (nowMs - member.lastContactMs)

def isRevocationOverdue (member : ConsumerMember) (nowMs : Int) : Bool :=
  decide (member.state = .unrevokedPartitions) &&
    member.revocationDeadlineMs.any (fun deadline => deadline < nowMs)

def isLeavingStatic (member : ConsumerMember) : Bool :=
  member.memberEpoch = leavingStaticMemberEpoch

end ConsumerMember

structure ConsumerGroupDoc where
  seq : Nat := 0
  groupEpoch : Int := 0
  assignmentEpoch : Int := 0
  assignor : Option String := none
  members : OrderedMap String ConsumerMember := .empty
  topics : OrderedMap Nat SubscribedTopic := .empty
  classicGeneration : Option Int := none
  createdMs : Int := 0
deriving DecidableEq

abbrev ContactStamps := List (String × Int)

def latestContact (stamps : ContactStamps) (memberId : String) : Option Int :=
  ((stamps.filter (fun stamp => stamp.1 = memberId)).map Prod.snd).max?

namespace ConsumerGroupDoc

def bumped (group : ConsumerGroupDoc) : ConsumerGroupDoc := { group with seq := group.seq + 1 }

def withContacts (group : ConsumerGroupDoc) (stamps : ContactStamps) : ConsumerGroupDoc :=
  { group with
    members := group.members.mapValues (fun memberId member =>
      { member with
        lastContactMs := (latestContact stamps memberId).elim member.lastContactMs
          (max member.lastContactMs) }) }

def hasLiveMembers (group : ConsumerGroupDoc) (nowMs : Int) : Bool :=
  group.members.entries.any (fun entry => !entry.2.isExpired nowMs)

end ConsumerGroupDoc

end Kodansu.Group

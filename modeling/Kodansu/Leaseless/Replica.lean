/-
One replica of a prefix: its caches and the tasks it runs, and the index refresh.

A task waits at each request it makes, and other tasks and other replicas run in between.
A refresh holds the prefix's single-flight lock, so a replica runs one at a time; a flush
holds the prefix's flush lock, and maintenance is one task.
-/

import Kodansu.Index.PrefixIndex
import Kodansu.Leaseless.World

namespace Kodansu.Leaseless

open Index Lib Segment Record

/-! ### Tasks -/

inductive RefreshOwner
  | reader
  | flush
  | claim
  | won (seq : Nat)
deriving DecidableEq

inductive RefreshPhase
  /-- The tail probe is about to read `seq`, and `left` more names. -/
  | probe (seq left : Nat)
  | absent (seq : Nat)
  | floor (seq floor generation : Nat)
  | list (found : List (Nat × SegmentFooter))
  | commit (pending : List (Nat × SegmentFooter)) (vanished : Bool)

structure Refresh where
  owner : RefreshOwner
  reconcile : Bool
  /-- The name the next listing starts after. -/
  after : Option Nat
  relists : Nat := 0
  /-- What the listings of a reconciling refresh returned. -/
  listed : List Nat := []
  phase : RefreshPhase

structure Pending where
  topition : Topition
  batch : Batch
deriving DecidableEq

inductive Outcome
  | acked (offset : Int)
  | outOfOrder
  | fenced
deriving DecidableEq

structure Assigned where
  writes : List SubstreamWrite := []
  outcomes : List (Pending × Outcome) := []
  advances : List (Topition × Int) := []

inductive FlushPhase
  | start
  | refresh
  | folded
  | cursor (listed : Option Nat)
  | floor (listed : Option Nat) (floor generation : Nat)
  | basing (candidate : Nat) (todo : List Topition) (assigned : Assigned)
  | tail (candidate : Nat) (topition : Topition) (todo : List Topition) (assigned : Assigned)
      (tail : Int)
  | put (candidate : Nat) (assigned : Assigned)
  | answered (candidate : Nat) (assigned : Assigned) (footer : SegmentFooter) (answer : Answer)

structure Flush where
  nonce : Nat
  pending : List Pending
  wonByPeer : Option Nat := none
  phase : FlushPhase := .start

structure Job where
  run : List Nat
  writes : List SubstreamWrite
  writerEpoch : Int
  nonce : Nat

inductive Maintain
  /-- Expiry persists the offset floors of what it is about to delete. -/
  | floors (doomed : List Nat) (affected todo : List Topition)
  | floorHeld (doomed : List Nat) (affected : List Topition) (topition : Topition) (tail : Int)
      (todo : List Topition)
  | retire (expired : Bool) (seqs : List Nat) (affected : List Topition)
  | deleting (expired : Bool) (seqs left : List Nat) (affected : List Topition)
  | hint (job : Job)
  | hintFloor (job : Job) (next : Nat)
  | put (job : Job) (candidate : Nat)
  | answered (job : Job) (candidate : Nat) (footer : SegmentFooter) (answer : Answer)
  | refresh (job : Job)
  | folded (job : Job)
  | cursor (job : Job) (listed : Option Nat)
  | floor (job : Job) (listed : Option Nat) (floor generation : Nat)
  | foldBelow (job : Job) (seq : Nat) (footer : SegmentFooter)
  | insert (job : Job) (seq : Nat) (footer : SegmentFooter)

structure Replica where
  index : PrefixIndex := {}
  opaqueSeqs : List Nat := []
  generation : Nat := 0
  /-- A sequence floor and the generation it is certified for. -/
  seqFloor : Option (Nat × Nat) := none
  cachedSeq : Option Nat := none
  cachedHigh : Topition → Int := fun _ => 0
  /-- Segments that reads have found gone and are about to prune. -/
  vanished : List Nat := []
  refresh : Option Refresh := none
  flush : Option Flush := none
  maintain : Option Maintain := none

namespace Replica

/-! ### Caches -/

def resolved (replica : Replica) : List Nat :=
  replica.index.segments.entries.map Prod.fst ++ replica.opaqueSeqs

def resolvedMax (replica : Replica) : Option Nat := replica.resolved.max?

def isResolved (replica : Replica) (seq : Nat) : Bool := replica.resolved.contains seq

def insertSegment (replica : Replica) (seq : Nat) (footer : SegmentFooter) : Replica :=
  { replica with index := replica.index.insertSegment seq ⟨footer, 0⟩ }

def certifiedSeqFloor (replica : Replica) : Option Nat :=
  match replica.seqFloor with
  | some (floor, generation) => if generation = replica.generation then some floor else none
  | none => none

def certify (replica : Replica) (floor generation : Nat) : Replica :=
  if replica.generation = generation then
    { replica with seqFloor := some (floor, generation) }
  else replica

def setSeq (replica : Replica) (next : Nat) : Replica :=
  { replica with cachedSeq := some (max (replica.cachedSeq.getD 0) next) }

def setHigh (replica : Replica) (topition : Topition) (high : Int) : Replica :=
  { replica with
    cachedHigh := Function.update replica.cachedHigh topition
      (max (replica.cachedHigh topition) high) }

def indexPrune (replica : Replica) (seqs : List Nat) : Replica :=
  { replica with
    index := replica.index.retainSegments (fun seq => !seqs.contains seq)
    generation := replica.generation + 1 }

def knows (replica : Replica) (seq : Nat) : Bool := (replica.index.segments.get? seq).isSome

def stepOver (replica : Replica) (seq : Nat) : Replica :=
  { replica with opaqueSeqs := seq :: replica.opaqueSeqs }

/-! ### Reads of segments -/

/-- A fetch or a merge reads a segment of the index and finds no object. -/
def findVanished (world : World) (replica : Replica) (seq : Nat) : Option Replica :=
  if replica.knows seq && !world.isLive seq then
    some { replica with vanished := seq :: replica.vanished }
  else none

/-- A fetch prunes the segment it found gone, and a merge all that it found gone. -/
def pruneVanished (replica : Replica) (seqs : List Nat) : Option Replica :=
  if seqs.all replica.vanished.contains then some (replica.indexPrune seqs) else none

end Replica

def nextAfter (seq : Option Nat) : Nat := seq.elim 0 (· + 1)

lemma nextAfter_max (left right : Option Nat) :
    nextAfter (max left right) = max (nextAfter left) (nextAfter right) := by
  cases left <;> cases right <;> simp [nextAfter]

end Kodansu.Leaseless

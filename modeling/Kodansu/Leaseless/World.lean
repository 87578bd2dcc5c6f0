/-
What the replicas of one prefix share: the object store, as far as the prefix is concerned,
and the history of what was created there and what producers were told.

The history is not part of the store; no replica reads it.  A create-only PUT, a GET, a LIST
and a compare-and-swap of a small object are each one step.
-/

import Kodansu.Lib.OrderedMap
import Kodansu.Segment.RoundTrip

namespace Kodansu.Leaseless

open Lib Segment Record

/-- The sub-stream each topition is pinned to.  A name-keyed sub-stream is the topition's own
name, and no two topitions share a sub-stream. -/
structure Pins where
  substream : Topition → Substream
  named : ∀ topition, (substream topition).id?.elim (.name topition.topic) .id = substream topition
  injective : ∀ {left right : Topition},
    (substream left, left.partition) = (substream right, right.partition) → left = right

def Pins.key (pins : Pins) (topition : Topition) : SubstreamKey :=
  (pins.substream topition, topition.partition)

structure Config where
  pins : Pins
  era : Int
  segmentFormatVersion : Nat
  /-- The names whose objects have no footer that decodes. -/
  undecodable : Nat → Bool := fun _ => false

structure Created where
  seq : Nat
  floorAt : Nat
  flushed : Bool
  writes : List SubstreamWrite
  footer : SegmentFooter

/-- A producer was told that its batch is at an offset. -/
structure Ack where
  topition : Topition
  batch : Batch
  offset : Int

inductive Response
  | ok
  | absent
  /-- The request fails and has no effect. -/
  | failed
  /-- The request takes effect, but its answer is an error. -/
  | lost
deriving DecidableEq

inductive Answer
  | won
  | taken
  | unknown
deriving DecidableEq

inductive SegmentCreate
  | won
  | lost
  | failed
deriving DecidableEq

structure World where
  live : OrderedMap Nat SegmentFooter := OrderedMap.empty
  floor : Nat := 0
  /-- The persisted `watermark.high` of each topition. -/
  high : Topition → Int := fun _ => 0
  undecodable : Nat → Bool := fun _ => false
  nonces : Nat := 0
  created : List Created := []
  acks : List Ack := []

namespace World

def isLive (world : World) (seq : Nat) : Bool := (world.live.get? seq).isSome

def isDecodable (world : World) (seq : Nat) : Bool := world.isLive seq && !world.undecodable seq

/-- The footer that a read of an object gives, if it is there and decodes. -/
def readSegmentFooter (world : World) (seq : Nat) : Option SegmentFooter :=
  if world.undecodable seq then none else world.live.get? seq

def listAfter (world : World) (after : Option Nat) : List (Nat × SegmentFooter) :=
  world.live.entries.filter (fun (seq, _) => after.all (· < seq))

def create (world : World) (record : Created) : World :=
  { world with
    live := world.live.insert record.seq record.footer
    created := world.created ++ [record] }

def delete (world : World) (seq : Nat) : World :=
  { world with live := world.live.retain (fun other => other ≠ seq) }

def raiseSeqFloor (world : World) (floor : Nat) : World :=
  { world with floor := max world.floor floor }

def raiseHigh (world : World) (topition : Topition) (tail : Int) : World :=
  { world with
    high := Function.update world.high topition (max (world.high topition) tail) }

def putCreate (world : World) (record : Created) (response : Response) : Option (World × Answer) :=
  match response, world.isLive record.seq with
  | .ok, false => some (world.create record, .won)
  | .ok, true => some (world, .taken)
  | .lost, false => some (world.create record, .unknown)
  | .lost, true => some (world, .unknown)
  | .failed, _ => some (world, .unknown)
  | .absent, _ => none

/-- What the PUT's answer means.  An unknown one is settled by the footer found there: it is
the writer's own exactly if it carries the writer's nonce. -/
def resolveSegmentCreate (world : World) (candidate nonce : Nat) (answer : Answer)
    (response : Response) : Option SegmentCreate :=
  match answer, response with
  | .won, .ok => some .won
  | .taken, .ok => some .lost
  | .unknown, .ok =>
    match world.readSegmentFooter candidate with
    | some found => some (if found.nonce = nonce then .won else .lost)
    | none => some .failed
  | .unknown, .failed => some .failed
  | _, _ => none

def names (world : World) : List Nat := world.created.map Created.seq

def next (world : World) : Nat := world.names.foldr (fun seq next => max (seq + 1) next) 0

variable {seq : Nat} {footer : SegmentFooter} {after : Option Nat}

lemma lt_next_of_mem {w : World} (mem : seq ∈ w.names) : seq < w.next := by
  unfold next
  revert mem
  induction w.names with
  | nil =>
    exact nofun
  | cons first rest ih =>
    intro mem
    rw [List.foldr_cons]
    rcases List.mem_cons.mp mem with isFirst | inRest
    · omega
    · have bound := ih inRest
      omega

@[simp] lemma names_create (w : World) (record : Created) :
    (w.create record).names = w.names ++ [record.seq] := by
  simp [names,create]

@[simp] lemma next_create (w : World) (record : Created) :
    (w.create record).next = max w.next (record.seq + 1) := by
  unfold next
  rw [names_create]
  induction w.names with
  | nil => simp
  | cons first rest ih =>
    rw [List.cons_append,List.foldr_cons,List.foldr_cons,ih]
    omega

lemma isLive_of_isDecodable {w : World} (decodes : w.isDecodable seq = true) :
    w.isLive seq = true := by
  simp only [isDecodable,Bool.and_eq_true] at decodes
  exact decodes.1

lemma isDecodable_of_dead {w : World} (dead : w.isLive seq = false) :
    w.isDecodable seq = false := by
  rw [isDecodable,dead,Bool.false_and]

lemma isDecodable_of_undecodable {w : World} (undecodable : w.undecodable seq = true) :
    w.isDecodable seq = false := by
  rw [isDecodable,undecodable,Bool.not_true,Bool.and_false]

lemma get?_of_readSegmentFooter {w : World} (read : w.readSegmentFooter seq = some footer) :
    w.live.get? seq = some footer := by
  unfold readSegmentFooter at read
  split at read
  · cases read
  · exact read

lemma isLive_create (w : World) (record : Created) (seq : Nat) :
    (w.create record).isLive seq = (decide (seq = record.seq) || w.isLive seq) := by
  unfold isLive create
  rw [OrderedMap.get?_insert]
  by_cases same : seq = record.seq
  · simp [same]
  · simp [same]

lemma isLive_delete (w : World) (deleted seq : Nat) :
    (w.delete deleted).isLive seq = (decide (seq ≠ deleted) && w.isLive seq) := by
  unfold isLive delete
  rw [OrderedMap.get?_retain]
  by_cases same : seq = deleted
  · simp [same]
  · simp [same]

lemma mem_listAfter {w : World} : (seq, footer) ∈ w.listAfter after ↔
      w.live.get? seq = some footer ∧ ∀ bound ∈ after, bound < seq := by
  unfold listAfter
  rw [List.mem_filter,OrderedMap.mem_entries]
  cases after <;> simp

end World

end Kodansu.Leaseless

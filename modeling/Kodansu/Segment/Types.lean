/-
The data a segment object describes about itself: which sub-streams it holds,
where each one's batches lie and which offsets they cover.

Integers are unbounded here.  The width a field has on the wire is a matter of the
codec, which narrows it.
-/

import Mathlib

namespace Kodansu.Segment

def i64Min : Int := -2 ^ 63

abbrev Uuid := BitVec 128

/-- What identifies a sub-stream inside a shared segment object. -/
inductive Substream where
  | name (topic : String)
  | id (uuid : Uuid)
deriving DecidableEq

def Substream.id? : Substream → Option Uuid
  | .id uuid => some uuid
  | .name _ => none

def Substream.sortKey : Substream → Nat ×ₗ String ×ₗ Nat
  | .name topic => toLex (0, toLex (topic, 0))
  | .id uuid => toLex (1, toLex ("", uuid.toNat))

lemma Substream.sortKey_injective : Function.Injective Substream.sortKey := by
  intro left right same
  cases left <;> cases right <;> simp_all [Substream.sortKey,BitVec.toNat_inj]

instance : LinearOrder Substream where
  __ := PartialOrder.lift Substream.sortKey Substream.sortKey_injective
  le_total left right := le_total left.sortKey right.sortKey
  toDecidableLE left right := inferInstanceAs (Decidable (left.sortKey ≤ right.sortKey))
  toDecidableEq := inferInstance

abbrev SubstreamKey := Substream × Int

structure Topition where
  topic : String
  partition : Int
deriving DecidableEq

def Topition.sortKey (topition : Topition) : String ×ₗ Int :=
  toLex (topition.topic, topition.partition)

lemma Topition.sortKey_injective : Function.Injective Topition.sortKey := by
  intro left right same
  cases left
  cases right
  simpa [Topition.sortKey] using same

instance : LE Topition where
  le left right :=
    left.topic < right.topic ∨ left.topic = right.topic ∧ left.partition ≤ right.partition

instance : DecidableLE Topition := fun _ _ => inferInstanceAs (Decidable (_ ∨ _))

lemma Topition.le_iff {left right : Topition} :
    left ≤ right ↔ left.sortKey ≤ right.sortKey := by
  unfold Topition.sortKey
  rw [Prod.Lex.toLex_le_toLex]
  exact Iff.rfl

instance : LinearOrder Topition where
  le_refl _ := Topition.le_iff.mpr le_rfl
  le_trans _ _ _ before after :=
    Topition.le_iff.mpr (le_trans (Topition.le_iff.mp before) (Topition.le_iff.mp after))
  le_antisymm _ _ before after :=
    Topition.sortKey_injective (le_antisymm (Topition.le_iff.mp before) (Topition.le_iff.mp after))
  le_total left right :=
    (le_total left.sortKey right.sortKey).imp Topition.le_iff.mpr Topition.le_iff.mpr
  toDecidableLE := inferInstance
  toDecidableEq := inferInstance

def flagTransactional : UInt8 := 0b01

def flagControl : UInt8 := 0b10

/-- One idempotent or transactional batch's producer coordinates.  The offset is
relative to the base offset of the entry that carries it. -/
structure ProducerCoord where
  producerId : Int
  producerEpoch : Int
  baseSequence : Int
  lastSequence : Int
  offsetDelta : Nat
  flags : UInt8
deriving DecidableEq

def ProducerCoord.folds (coord : ProducerCoord) : Bool :=
  coord.flags &&& flagControl == 0 && coord.baseSequence != -1

/-- One sub-stream's region of a segment: its bytes and the offsets they cover. -/
structure SubstreamEntry where
  topic : String
  topicId : Option Uuid
  partition : Int
  baseOffset : Int
  recordCount : Int
  byteStart : Nat
  byteLen : Nat
  maxTimestamp : Int
  producers : List ProducerCoord
deriving DecidableEq

namespace SubstreamEntry

def substream (entry : SubstreamEntry) : Substream :=
  entry.topicId.elim (.name entry.topic) .id

/-- A name does not match an entry that has a topic id. -/
def is (entry : SubstreamEntry) : Substream → Bool
  | .id uuid => entry.topicId = some uuid
  | .name topic => entry.topicId = none ∧ entry.topic = topic

def key (entry : SubstreamEntry) : SubstreamKey :=
  (entry.substream, entry.partition)

def endOffset (entry : SubstreamEntry) : Int :=
  entry.baseOffset + entry.recordCount

def range (entry : SubstreamEntry) : Set Int :=
  Set.Ico entry.baseOffset entry.endOffset

end SubstreamEntry

structure SegmentFooter where
  writerEpoch : Int
  nonce : Nat
  entries : List SubstreamEntry
deriving DecidableEq

/-- The order in which overlapping entries win: writer epoch, then sequence. -/
abbrev Rank := Int ×ₗ Nat

end Kodansu.Segment

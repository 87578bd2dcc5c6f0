/-
A producer's idempotent state, as it is folded from the coordinates of the log, and the
pruning of coordinates that the fold would not use.
-/

import Kodansu.Segment.Types

namespace Kodansu.Producer

open Segment List

def i32Max : Int := 2 ^ 31 - 1

def idempotentWindow : Nat := 5

inductive IdempotentClass
  | admitted
  | duplicate (offset : Int)
  | outOfOrder
  | fenced
deriving DecidableEq

/-- The state of one producer id on one partition. -/
structure ProducerTail where
  epoch : Int := 0
  seen : Bool := false
  nextSequence : Int := 0
  window : List (Int × Int) := []
deriving DecidableEq

namespace ProducerTail

/-- Sequences wrap from the greatest `i32` to 0. -/
def seqIncrement (sequence : Int) : Int :=
  if sequence = i32Max then 0 else sequence + 1

def expected (tail : ProducerTail) : Int :=
  if tail.seen then tail.nextSequence else 0

def fold (tail : ProducerTail) (epoch baseSequence lastSequence baseOffset : Int) :
    ProducerTail :=
  if epoch < tail.epoch then tail
  else
    let window := if epoch > tail.epoch then [] else tail.window
    let window := if window.length = idempotentWindow then window.drop 1 else window
    { epoch := epoch
      seen := true
      nextSequence := seqIncrement lastSequence
      window := window ++ [(baseSequence, baseOffset)] }

def classify (tail : ProducerTail) (epoch baseSequence : Int) : IdempotentClass :=
  if epoch < tail.epoch then .fenced
  else
    let freshEpoch := epoch > tail.epoch
    let expected := if freshEpoch then 0 else tail.expected
    if baseSequence = expected then .admitted
    else if freshEpoch then .outOfOrder
    else
      match tail.window.find? (fun (sequence, _) => sequence = baseSequence) with
      | some (_, offset) => .duplicate offset
      | none => .outOfOrder

end ProducerTail

def topEpoch (producers : List ProducerCoord) (producerId : Int) : Option Int :=
  ((producers.filter (fun coord => coord.folds && coord.producerId = producerId)).map
    ProducerCoord.producerEpoch).max?

def takeWindow : List ProducerCoord → (Int → Nat) → List ProducerCoord
  | [], _ => []
  | coord :: rest, taken =>
    if taken coord.producerId = idempotentWindow then takeWindow rest taken
    else
      coord :: takeWindow rest (fun producerId =>
        if producerId = coord.producerId then taken producerId + 1 else taken producerId)

/-- Drop the coordinates that cannot change what the entry contributes to a fold: those
that do not fold, those below the producer's top epoch here, and all but the last few of
the rest.  The walk is backwards, so the last few are the first few met. -/
def retainFoldableProducers (entry : SubstreamEntry) : SubstreamEntry :=
  if entry.producers = [] then entry
  else
    { entry with
      producers := (takeWindow (entry.producers.reverse.filter (fun coord => coord.folds &&
        topEpoch entry.producers coord.producerId = some coord.producerEpoch))
        (fun _ => 0)).reverse }

variable {epoch baseSequence lastSequence baseOffset offset : Int}

lemma window_fold {tail : ProducerTail} {entry : Int × Int}
    (mem : entry ∈ (tail.fold epoch baseSequence lastSequence baseOffset).window) :
    entry ∈ tail.window ∨ entry = (baseSequence, baseOffset) := by
  unfold ProducerTail.fold at mem
  split at mem
  · exact .inl mem
  simp only [mem_append,mem_singleton] at mem
  rcases mem with kept | added
  · left
    split at kept <;> split at kept
    · cases mem_of_mem_drop kept
    · cases kept
    · exact mem_of_mem_drop kept
    · exact kept
  · exact .inr added

lemma mem_window_of_duplicate {tail : ProducerTail}
    (repeated : tail.classify epoch baseSequence = .duplicate offset) :
    (baseSequence, offset) ∈ tail.window := by
  unfold ProducerTail.classify at repeated
  simp only at repeated
  split_ifs at repeated
  split at repeated
  · rename_i found
    cases repeated
    have same := find?_some found
    rw [← of_decide_eq_true same]
    exact mem_of_find?_eq_some found
  · cases repeated

section

variable (entry : SubstreamEntry)

include entry

@[simp] lemma retainFoldableProducers_key : (retainFoldableProducers entry).key = entry.key := by
  unfold retainFoldableProducers
  split <;> rfl

@[simp] lemma retainFoldableProducers_baseOffset :
    (retainFoldableProducers entry).baseOffset = entry.baseOffset := by
  unfold retainFoldableProducers
  split <;> rfl

@[simp] lemma retainFoldableProducers_endOffset :
    (retainFoldableProducers entry).endOffset = entry.endOffset := by
  unfold retainFoldableProducers
  split <;> rfl

end

end Kodansu.Producer

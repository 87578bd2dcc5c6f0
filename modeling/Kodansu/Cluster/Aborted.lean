/-
Aborted transactions and the list of them that a fetch returns.

An entry of the list is the first offset of a range that the document has for an epoch whose
last transaction was aborted.  In runs in which such an epoch begins no other transaction, and
the markers come in order, every record of an aborted transaction has its entry, and no record
of a committed transaction of the same producer lies in a listed range.
-/

import Kodansu.Cluster.Published
import Kodansu.Cluster.Ranges
import Kodansu.Cluster.Fencing

namespace Kodansu.Cluster

open Lib Segment Record Producer Transaction Fetch List OrderedMap

variable {w after : World} {task next other : Task} {act : Act} {guard : World → Task → Act → Prop}
  {range : TxnProduceOffset}

def World.IsDecided (world : World) (key : Key) (number : Nat) (committed : Bool) : Prop :=
  ⟨key, number, committed⟩ ∈ world.history.decisions

structure IsOutcome (world : World) (outcome : Decision) : Prop where
  number : outcome.number = world.number outcome.key
  state : world.state outcome.key = some (preparedAs outcome.committed) ∨
    Unbegun world outcome.key ∧ outcome.committed = true

variable {committed : Bool} {txnId : TxnId} {outcome decision : Decision} {known : Topition → Bool}
  {index : Folded}

variable {record : Written} {req : EndTxn} {offsets : GroupOffsets} {doc : Meta} {key : Key}

lemma IsOutcome.decided (isOutcome : IsOutcome w outcome) (decisions : Decisions w)
    (isAbort : outcome.committed = false) : w.IsDecided outcome.key outcome.number false := by
  rcases isOutcome.state with prepared | ⟨-,isCommit⟩
  · obtain ⟨number,isLast,decided⟩ := decisions.prepared _ _ prepared
    have same : outcome.number = number := by
      rw [isOutcome.number,number_of_prepared prepared]
      omega
    rw [same,← isAbort]
    exact decided
  · rw [isAbort] at isCommit
    cases isCommit

variable {state : State}

/-- No control batch of a producer lies between two records of one of its transactions, nor
above the records of the one that is not ended. -/
structure Clear (world : World) : Prop where
  unended : ∀ record ∈ world.history.written, record.number = world.history.ended record.key →
    ∀ control ∈ (world.partitions record.topition).log, control.isControl = true →
      control.producerId = record.batch.producerId →
      control.baseOffset < record.batch.baseOffset
  between : ∀ left ∈ world.history.written, ∀ right ∈ world.history.written,
    left.key = right.key → left.number = right.number → left.topition = right.topition →
    ∀ control ∈ (world.partitions left.topition).log, control.isControl = true →
      control.producerId = left.batch.producerId →
      control.baseOffset < left.batch.baseOffset ∨ endOf right.batch ≤ control.baseOffset

variable {tp : Topition} {rest : List Topition}

section

variable (clear : Clear w) (numbered : Numbered w) (separate : Separate w task act)
  (change : Change w task act after)

include clear numbered separate change

end

variable {listed : Int × TxnProduceOffset} {highWatermark pid : Int} {topition : Topition}

lemma Ranges.outside (ranges : Ranges w) (found : w.range key tp = some range)
    (mem : record ∈ w.history.written) (isTopition : record.topition = tp)
    (sameId : record.key.1 = key.1)
    (rival : ¬ (record.key = key ∧ record.number = w.number key)) :
    endOf record.batch ≤ range.offsetStart ∨ range.offsetEnd < record.batch.baseOffset := by
  have bounds := ranges.bounds key tp range found
  obtain ⟨first,inWritten,firstKey,firstNumber,firstTopition,isStart⟩ := bounds.start
  by_cases isLater : Later key (w.number key) record
  · exact .inr (bounds.beyond record mem isTopition isLater)
  · left
    rw [← isStart]
    apply ranges.ordered record mem first inWritten (isTopition.trans firstTopition.symm)
    refine ⟨(congrArg Prod.fst firstKey).trans sameId.symm,?_⟩
    rw [firstKey,firstNumber]
    by_contra neither
    simp only [Later,sameId,true_and,not_or,not_lt,not_and] at isLater neither
    have sameEpoch : record.key.2 = key.2 := le_antisymm isLater.1 neither.1
    have sameKey : record.key = key := Prod.ext sameId sameEpoch
    have upper := isLater.2 sameKey
    have lower := neither.2 sameKey.symm
    exact rival ⟨sameKey,le_antisymm upper lower⟩

def endPayment (next : Int) (committed : Bool) : List (Nat × Act) :=
  [ (0, .endTxn "payer" 1 0 committed), (0, .run {}), (0, .run { next }), (0, .run {}),
    (0, .run {}) ]

/-- A transaction is aborted, and the epoch goes on with one that is committed. -/
def commitAfterAbort : List (Nat × Act) :=
  beginPayment ++ producePayment ++ endPayment 1 false ++
    [ (0, .addTxnPartitions (.versionZeroToThree "payer" 1 0 [("payments", [0])]) 0),
      (0, .produce (some "payer") payments (payment 0 1)), (0, .run (paid 2)),
      (0, .run {}) ] ++
    endPayment 3 true

end Kodansu.Cluster

/-
One partition as the brokers of a cluster see it: a log that batches are appended to, what is
left of it, and the classification of a sequenced batch against it.

A flush does not see the partition.  It has an index, folded from the segments that its replica
knows of, and takes from it the offset of a batch and the classification.
-/

import Kodansu.Fetch.Isolation
import Kodansu.Producer.Tail

namespace Kodansu.Cluster

open Record Producer Fetch

/-- What the index of a flush shows of a partition: its end, and the state of each producer. -/
structure Folded where
  next : Int := 0
  tail : Int → ProducerTail := fun _ => {}

def Folded.classify (index : Folded) (batch : Batch) : IdempotentClass :=
  if batch.isIdempotent then
    (index.tail batch.producerId).classify batch.producerEpoch batch.baseSequence
  else .admitted

/-- Everything that was ever appended, in order, and how many of the first batches are gone. -/
structure Partition where
  log : List Batch := []
  expired : Nat := 0
  truncateFloor : Int := 0

namespace Partition

/-- The end of the log. -/
def next (partition : Partition) : Int :=
  partition.log.foldl (fun offset batch => max offset (endOf batch)) 0

def live (partition : Partition) : List Batch := partition.log.drop partition.expired

/-- A batch lands at the offset that the flush has given it, whatever the log holds by then. -/
def append (partition : Partition) (base : Int) (batch : Batch) : Partition :=
  { partition with log := partition.log ++ [{ batch with baseOffset := base }] }

def foldBatch (producerId : Int) (tail : ProducerTail) (batch : Batch) : ProducerTail :=
  if !batch.isControl && batch.baseSequence ≠ -1 && batch.producerId = producerId then
    tail.fold batch.producerEpoch batch.baseSequence
      (Int.bmod (batch.baseSequence + batch.lastOffsetDelta) (2 ^ 32)) batch.baseOffset
  else tail

def producerTail (partition : Partition) (producerId : Int) : ProducerTail :=
  partition.live.foldl (foldBatch producerId) {}

/-- What an index shows that has all of the log. -/
def folded (partition : Partition) : Folded := ⟨partition.next, partition.producerTail⟩

def state (partition : Partition) (highWatermark : Int) : PartitionState where
  highWatermark := highWatermark
  truncateFloor := partition.truncateFloor
  regionStart := partition.live.head?.map Batch.baseOffset

lemma append_next (partition : Partition) (base : Int) (batch : Batch) :
    (partition.append base batch).next = max partition.next (base + batch.offsets) := by
  simp [next,append,endOf,Batch.offsets]

lemma mem_append {partition : Partition} {base : Int} {batch other : Batch} :
    other ∈ (partition.append base batch).log ↔
      other ∈ partition.log ∨ other = { batch with baseOffset := base } := by
  simp [append]

end Partition

def markerData (committed : Bool) : List UInt8 :=
  [32, 0, 0, 0, 8] ++ [0, 0, 0, if committed then 1 else 0] ++ [12] ++ List.replicate 6 0 ++ [0]

def endTransactionMarker (producerId producerEpoch : Int) (committed : Bool) : Batch where
  batchLength := fixedBatchLength + 17
  partitionLeaderEpoch := -1
  magic := magicRecordBatchV2
  attributes := 48
  producerId := producerId
  producerEpoch := producerEpoch
  baseSequence := -1
  recordCount := 1
  recordData := markerData committed

end Kodansu.Cluster

/-
The requests of a cluster's clients, on any of its brokers, as tasks over the transaction
document, the partitions and the groups' offsets.

A transactional produce appends its batch and then registers the range in the document.
`EndTxn` updates the document, appends and registers a marker on one partition after the
other, updates the document again, and commits the offsets of the groups.  A read-committed
fetch reads the document, then the high watermark, then the log.  A task may be cut short at
each of its requests, before or after the request takes effect.  What an append does is up to
the index that its flush has folded, and that may be any.
-/

import Kodansu.Cluster.Partition
import Kodansu.Lib.Parties

namespace Kodansu.Cluster

open Lib Segment Record Producer Transaction Fetch

abbrev Key := String × Int

/-! ### History

The transactions of an epoch are numbered: each has the number of `EndTxn`s that were accepted
for the epoch before it.  No request reads the history. -/

/-- A batch that was appended for a transaction, at its place in the log. -/
structure Written where
  topition : Topition
  batch : Batch
  key : Key
  number : Nat
  begun : Bool
deriving DecidableEq

structure Registration where
  topition : Topition
  offset : Int
  lastOffsetDelta : Int
  key : Key
  number : Nat
deriving DecidableEq

structure Owed where
  call : Nat
  topition : Topition
  key : Key
  number : Nat
  committed : Bool
deriving DecidableEq

structure Decision where
  key : Key
  number : Nat
  committed : Bool
deriving DecidableEq

/-- An offset of a group that a transaction has staged. -/
structure Staged where
  key : Key
  number : Nat
  group : String
  topition : Topition
  offset : TxnCommitOffset
deriving DecidableEq

structure History where
  calls : Nat := 0
  ended : Key → Nat := fun _ => 0
  written : List Written := []
  registrations : List Registration := []
  owed : List Owed := []
  decisions : List Decision := []
  outcomes : List Decision := []
  staged : List Staged := []
  pending : List Staged := []
  applied : List Staged := []
  /-- The producer ids and epochs that `InitProducerId` has answered for transactional ids. -/
  issued : List (Int × Int) := []

/-! ### Tasks -/

structure Produce where
  transactionId : Option String
  topition : Topition
  batch : Batch
  since : Nat

structure EndTxn where
  call : Nat
  transactionId : String
  producerId : Int
  producerEpoch : Int
  committed : Bool
  since : Nat

def EndTxn.key (request : EndTxn) : Key := (request.transactionId, request.producerEpoch)

structure FetchRequest where
  topition : Topition
  offset : Int
  maxBytes : Nat

inductive Task
  | idle
  | produce (request : Produce)
  | acked (request : Produce) (transactionId : String) (offset : Int)
  | endTxn (request : EndTxn)
  | marker (request : EndTxn) (topition : Topition) (rest : List Topition)
  | marked (request : EndTxn) (topition : Topition) (offset : Int) (rest : List Topition)
  | resolve (request : EndTxn)
  | commit (left : List (String × OrderedMap Topition TxnCommitOffset)) (items : List Staged)
  | fetch (request : FetchRequest)
  | stable (request : FetchRequest) (doc : Meta) (seen : Int)
  | bounded (request : FetchRequest) (doc : Meta) (highWatermark : Int)
  | answered (request : FetchRequest) (batches : List Batch)

structure World where
  doc : Meta := {}
  partitions : Topition → Partition := fun _ => {}
  groups : GroupOffsets := OrderedMap.empty
  history : History := {}

inductive Act
  | initProducerId (transactionId : String) (transactionTimeoutMs : Int)
      (producerId producerEpoch : Option Int)
  | initProducerIdempotent (producerId producerEpoch : Option Int)
  | addTxnPartitions (request : TxnAddPartitionsRequest) (now : Nat)
  | txnOffsetCommit (request : TxnOffsetCommitRequest)
  | produce (transactionId : Option String) (topition : Topition) (batch : Batch)
  | endTxn (transactionId : String) (producerId producerEpoch : Int) (committed : Bool)
  | fetch (request : FetchRequest)
  /-- The task's next request succeeds.  An append goes by what the index of its flush shows of
  the partition. -/
  | run (index : Folded)
  /-- It takes effect, but the task does not go on. -/
  | lose (index : Folded)
  /-- It has no effect, and the task does not go on. -/
  | fail
  /-- A group's commit fails; `EndTxn` does not look at the answer. -/
  | ignore
  /-- The high watermark, which may be an older one. -/
  | watermark (highWatermark : Int)
  /-- The log, as the segments of some index show it. -/
  | read (logs : Nat → StoredLog) (conditions : Nat → Conditions)
  | expire (topition : Topition) (count : Nat)
  | deleteRecords (topition : Topition) (offset : Int)

def Act.index? : Act → Option Folded
  | .run index | .lose index => some index
  | _ => none

def Act.takesEffect (action : Act) : Bool := action.index?.isSome

lemma Act.takesEffect_of_index {action : Act} {index : Folded}
    (acts : action.index? = some index) : action.takesEffect = true := by
  rw [takesEffect,acts]
  rfl

/-! ### Steps -/

def Unended (detail : Option TxnDetail) : Bool :=
  match detail.bind TxnDetail.state with
  | none | some .begin => true
  | _ => false

namespace World

def setPartition (world : World) (topition : Topition) (partition : Partition) : World :=
  { world with partitions := Function.update world.partitions topition partition }

def append (world : World) (topition : Topition) (base : Int) (batch : Batch) : World :=
  world.setPartition topition ((world.partitions topition).append base batch)

def number (world : World) (key : Key) : Nat :=
  if Unended (world.doc.detail? key) then world.history.ended key
  else world.history.ended key - 1

def isBegun (world : World) (key : Key) : Bool :=
  (world.doc.detail? key).any (fun detail => detail.state = some .begin)

def ends (world : World) (key : Key) (committed : Bool) : World :=
  { world with
    history := { world.history with
      ended := Function.update world.history.ended key (world.history.ended key + 1)
      decisions := world.history.decisions ++
        [{ key, number := world.history.ended key, committed }] } }

/-! #### Produce -/

def acked (request : Produce) (offset : Int) : Task :=
  match request.transactionId with
  | some transactionId =>
    if request.batch.isTransactional then .acked request transactionId offset else .idle
  | none => .idle

def writes (world : World) (base : Int) (request : Produce) : List Written :=
  match request.transactionId with
  | some transactionId =>
    let key := (transactionId, request.batch.producerEpoch)
    if request.batch.isTransactional then
      [{ topition := request.topition
         batch := { request.batch with baseOffset := base }
         key, number := world.history.ended key
         begun := (world.doc.detail? key).any (fun detail =>
           detail.state = some .begin && (detail.produces.get? request.topition).isSome) }]
    else []
  | none => []

def appendProduced (world : World) (base : Int) (request : Produce) : World :=
  { world.append request.topition base request.batch with
    history := { world.history with
      written := world.history.written ++ world.writes base request } }

def produceRun (world : World) (index : Folded) (request : Produce) : World × Task :=
  match index.classify request.batch with
  | .admitted => (world.appendProduced index.next request, acked request index.next)
  | .duplicate offset => (world, acked request offset)
  | .outOfOrder | .fenced => (world, .idle)

def registered (world : World) (request : Produce) (transactionId : String) (offset : Int) :
    World :=
  let key := (transactionId, request.batch.producerEpoch)
  { world with
    doc := world.doc.registerProduced transactionId request.batch.producerEpoch request.topition
      offset request.batch.lastOffsetDelta
    history := { world.history with
      registrations := world.history.registrations ++
        if (world.doc.detail? key).isSome then
          [{ topition := request.topition, offset
             lastOffsetDelta := request.batch.lastOffsetDelta, key
             number := world.history.ended key }]
        else [] } }

/-! #### `EndTxn` -/

def markers (request : EndTxn) : List Topition → Task
  | [] => .resolve request
  | topition :: rest => .marker request topition rest

def owe (world : World) (request : EndTxn) (topitions : List Topition) : World :=
  { world with
    history := { world.history with
      owed := world.history.owed ++ topitions.map (fun topition =>
        { call := request.call, topition, key := request.key
          number := world.history.ended request.key, committed := request.committed }) } }

def prepared (world : World) (request : EndTxn) (topitions : List Topition) (doc : Meta) : World :=
  ({ world with doc }.owe request topitions).ends request.key request.committed

def prepareRun (world : World) (request : EndTxn) : World × Task :=
  match world.doc.endTxnPrepare request.transactionId request.producerId request.producerEpoch
      request.committed with
  | .error _ => (world, .idle)
  | .ok (topitions, doc) =>
    if world.isBegun request.key then
      (world.prepared request topitions doc, markers request topitions)
    else ({ world with doc }, markers request topitions)

def appendMarker (world : World) (base : Int) (request : EndTxn) (topition : Topition) : World :=
  world.append topition base
    (endTransactionMarker request.producerId request.producerEpoch request.committed)

def markerRegistered (world : World) (request : EndTxn) (topition : Topition) (offset : Int) :
    World :=
  { world with
    doc := world.doc.registerProduced request.transactionId request.producerEpoch topition offset 0
    history := { world.history with
      owed := world.history.owed.filter (fun owed =>
        !(owed.call = request.call && owed.topition = topition)) } }

def resolving (doc : Meta) (request : EndTxn) : List TxnId :=
  match doc.overlappingTransactions request.transactionId request.producerId
      request.producerEpoch with
  | .error _ => []
  | .ok overlapping =>
    if overlapping.all (fun txnId => txnId.state.isPrepared) then
      overlapping ++ [⟨request.transactionId, request.producerId, request.producerEpoch,
        if request.committed then .prepareCommit else .prepareAbort⟩]
    else []

def published (world : World) (txnIds : List TxnId) : List Staged :=
  txnIds.flatMap (fun txnId =>
    if ((world.doc.detail? txnId.key).bind TxnDetail.resolved?).isSome &&
        txnId.state = .prepareCommit then
      world.history.pending.filter (fun staged => staged.key = txnId.key)
    else [])

/-- What the resolution of one transaction adds to the history.  An `EndTxn` also ends a
transaction that was never begun. -/
def settle (committed : Bool) (world : World) (txnId : TxnId) : World :=
  match world.doc.detail? txnId.key with
  | none => world
  | some detail =>
    match detail.resolved? with
    | none => world
    | some resolved =>
      let outcome : Decision :=
        { key := txnId.key, number := world.number txnId.key
          committed := resolved.state = some .committed }
      let ended := if detail.state = none then world.ends txnId.key committed else world
      { ended with
        history := { ended.history with
          outcomes := ended.history.outcomes ++ [outcome]
          pending := ended.history.pending.filter (fun staged => staged.key ≠ txnId.key) } }

def commits (items : List Staged) :
    List (String × OrderedMap Topition TxnCommitOffset) → Task
  | [] => .idle
  | left => .commit left items

def resolveRun (world : World) (request : EndTxn) : World × Task :=
  match world.doc.endTxnResolve request.transactionId request.producerId request.producerEpoch
      request.committed with
  | .error _ => (world, .idle)
  | .ok (offsetsToCommit, doc) =>
    let txnIds := resolving world.doc request
    ({ txnIds.foldl (settle request.committed) world with doc },
      commits (world.published txnIds) offsetsToCommit.entries)

def committedGroup (known : Topition → Bool) (world : World) (group : String)
    (offsets : OrderedMap Topition TxnCommitOffset) (items : List Staged) : World :=
  { world with
    groups := world.groups.upsert group (fun committed =>
      (offsets.entries.filter (fun (topition, _) => known topition)).foldl
        (fun inGroup (topition, offset) => inGroup.insert topition offset)
        (committed.getD OrderedMap.empty))
    history := { world.history with
      applied := world.history.applied ++
        items.filter (fun item => item.group = group && known item.topition) } }

def run (known : Topition → Bool) (index : Folded) (world : World) :
    Task → Option (World × Task)
  | .produce request => some (world.produceRun index request)
  | .acked request transactionId offset =>
    some (world.registered request transactionId offset, .idle)
  | .endTxn request => some (world.prepareRun request)
  | .marker request topition rest =>
    some (world.appendMarker index.next request topition,
      .marked request topition index.next rest)
  | .marked request topition offset rest =>
    some (world.markerRegistered request topition offset, markers request rest)
  | .resolve request => some (world.resolveRun request)
  | .commit ((group, offsets) :: rest) items =>
    some (world.committedGroup known group offsets items, commits items rest)
  | .fetch request =>
    some (world, .stable request world.doc (world.partitions request.topition).next)
  | _ => none

/-! #### Single updates -/

def issuedBy : InitProducer → List (Int × Int)
  | .completed id epoch .none => [(id, epoch)]
  | _ => []

/-- A transactional `InitProducerId`.  One that has to roll back ends the transaction by an
`EndTxn` of its own, and asks again. -/
def initProducerId (world : World) (transactionId : String) (transactionTimeoutMs : Int)
    (producerId producerEpoch : Option Int) : Option World :=
  (world.doc.initProducerId transactionId transactionTimeoutMs producerId producerEpoch).map
    (fun (response, doc) => { world with
      doc, history := { world.history with issued := world.history.issued ++ issuedBy response } })

def addTxnPartitions (world : World) (request : TxnAddPartitionsRequest) (now : Nat) : World :=
  match world.doc.addTxnPartitions request now with
  | .error _ => world
  | .ok (_, doc) => { world with doc }

def stagedBy (world : World) (request : TxnOffsetCommitRequest) : List Staged :=
  let key := (request.transactionId, request.producerEpoch)
  request.topics.flatMap (fun (topic, partitions) =>
    partitions.map (fun (partition, offset) =>
      { key, number := world.history.ended key, group := request.groupId
        topition := ⟨topic, partition⟩, offset }))

def stage (world : World) (staged : Staged) : World :=
  let keeps := fun (other : Staged) =>
    !(other.key = staged.key && other.group = staged.group && other.topition = staged.topition)
  { world with
    history := { world.history with
      staged := world.history.staged.filter (fun other =>
        keeps other || other.number ≠ staged.number) ++ [staged]
      pending := world.history.pending.filter keeps ++ [staged] } }

def txnOffsetCommit (world : World) (request : TxnOffsetCommitRequest) : World :=
  match world.doc.currentDetail request.transactionId request.producerId request.producerEpoch with
  | .error _ => world
  | .ok _ =>
    { (world.stagedBy request).foldl stage world with doc := (world.doc.txnOffsetCommit request).2 }

end World

/-- The regions of an index hold what was appended, at its place. -/
def Shows (log : StoredLog) (partition : Partition) : Prop :=
  ∀ fenced ∈ log.view, ∀ batch ∈ placed fenced.entry.baseOffset (log.batches fenced),
    batch ∈ partition.log

instance (log : StoredLog) (partition : Partition) : Decidable (Shows log partition) :=
  inferInstanceAs (Decidable (∀ fenced ∈ log.view, _))

def readStep (world : World) (request : FetchRequest) (doc : Meta) (highWatermark : Int)
    (logs : Nat → StoredLog) (conditions : Nat → Conditions) : Option (World × Task) :=
  let partition := world.partitions request.topition
  if ∀ attempt < maxAttempts, Shows (logs attempt) partition then
    match fetch doc request.topition (partition.state highWatermark) logs conditions request.offset
        request.maxBytes .readCommitted with
    | .ok batches => some (world, .answered request batches)
    | .error _ => some (world, .idle)
  else none

def start (world : World) : Act → Option (World × Task)
  | .initProducerId transactionId transactionTimeoutMs producerId producerEpoch =>
    (world.initProducerId transactionId transactionTimeoutMs producerId producerEpoch).map
      (fun after => (after, .idle))
  | .initProducerIdempotent producerId producerEpoch =>
    some ({ world with doc := (world.doc.initProducerIdempotent producerId producerEpoch).2 },
      .idle)
  | .addTxnPartitions request now => some (world.addTxnPartitions request now, .idle)
  | .txnOffsetCommit request => some (world.txnOffsetCommit request, .idle)
  | .produce transactionId topition batch =>
    some (world, .produce { transactionId, topition, batch, since := world.history.issued.length })
  | .endTxn transactionId producerId producerEpoch committed =>
    some ({ world with history := { world.history with calls := world.history.calls + 1 } },
      .endTxn { call := world.history.calls, transactionId, producerId, producerEpoch, committed
                since := world.history.issued.length })
  | .fetch request => some (world, .fetch request)
  | .expire topition count =>
    let partition := world.partitions topition
    some (world.setPartition topition
      { partition with expired := max partition.expired count }, .idle)
  | .deleteRecords topition offset =>
    let partition := world.partitions topition
    some (world.setPartition topition
      { partition with truncateFloor := max partition.truncateFloor offset }, .idle)
  | _ => none

def act (known : Topition → Bool) (world : World) (task : Task) (action : Act) :
    Option (World × Task) :=
  match task, action with
  | .idle, action => start world action
  | task, .run index => world.run known index task
  | task, .lose index => (world.run known index task).map (fun (after, _) => (after, .idle))
  | _, .fail => some (world, .idle)
  | .commit (_ :: rest) items, .ignore => some (world, World.commits items rest)
  | .stable request doc _, .watermark highWatermark =>
    if highWatermark ≤ (world.partitions request.topition).next then
      some (world, .bounded request doc highWatermark)
    else none
  | .bounded request doc highWatermark, .read logs conditions =>
    readStep world request doc highWatermark logs conditions
  | _, _ => none

def cluster (known : Topition → Bool) : Parties World Task Act where
  world := {}
  party := .idle
  act := act known

abbrev State := Parties.Global World Task

abbrev Reachable (known : Topition → Bool) (guard : World → Task → Act → Prop) : State → Prop :=
  System.Reachable (cluster known).system (Parties.guarded guard)

end Kodansu.Cluster

/-
What a step of a cluster does: one rule for each effect a request can have, and one for each
way a task begins and ends.
-/

import Kodansu.Cluster.Calls

namespace Kodansu.Cluster

open Lib Segment Record Producer Transaction Fetch

inductive Effect (known : Topition → Bool) (index : Folded) (world : World) :
    Task → World → Task → Prop
  | appends {request : Produce} (admitted : index.classify request.batch = .admitted) :
      Effect known index world (.produce request) (world.appendProduced index.next request)
        (World.acked request index.next)
  | repeats {request : Produce} {offset : Int}
      (repeated : index.classify request.batch = .duplicate offset) :
      Effect known index world (.produce request) world (World.acked request offset)
  | refuses {request : Produce} : Effect known index world (.produce request) world .idle
  | registers {request : Produce} {transactionId : String} {offset : Int} :
      Effect known index world (.acked request transactionId offset)
        (world.registered request transactionId offset) .idle
  | prepares {request : EndTxn} {detail : TxnDetail}
      (current : world.doc.currentDetail request.transactionId request.producerId
        request.producerEpoch = .ok detail)
      (begun : detail.state = some .begin) :
      Effect known index world (.endTxn request)
        (world.prepared request (detail.starts.map Prod.fst)
          (world.doc.updateDetail request.key (fun detail => { detail with
            state := some (if request.committed then .prepareCommit else .prepareAbort) })))
        (World.markers request (detail.starts.map Prod.fst))
  | passes {request : EndTxn} {detail : TxnDetail}
      (current : world.doc.currentDetail request.transactionId request.producerId
        request.producerEpoch = .ok detail)
      (unbegun : detail.state ≠ some .begin) :
      Effect known index world (.endTxn request) world (.resolve request)
  | refusesEnd {request : EndTxn} : Effect known index world (.endTxn request) world .idle
  | marks {request : EndTxn} {topition : Topition} {rest : List Topition} :
      Effect known index world (.marker request topition rest)
        (world.appendMarker index.next request topition)
        (.marked request topition index.next rest)
  | registersMarker {request : EndTxn} {topition : Topition} {offset : Int}
      {rest : List Topition} :
      Effect known index world (.marked request topition offset rest)
        (world.markerRegistered request topition offset) (World.markers request rest)
  | resolves {request : EndTxn} {offsets : GroupOffsets} {doc : Meta}
      (result : world.doc.endTxnResolve request.transactionId request.producerId
        request.producerEpoch request.committed = .ok (offsets, doc)) :
      Effect known index world (.resolve request)
        { (World.resolving world.doc request).foldl (World.settle request.committed) world with doc }
        (World.commits (world.published (World.resolving world.doc request)) offsets.entries)
  | refusesResolve {request : EndTxn} {code : ErrorCode}
      (result : world.doc.endTxnResolve request.transactionId request.producerId
        request.producerEpoch request.committed = .error code) :
      Effect known index world (.resolve request) world .idle
  | commitsGroup {group : String} {offsets : OrderedMap Topition TxnCommitOffset}
      {rest : List (String × OrderedMap Topition TxnCommitOffset)} {items : List Staged} :
      Effect known index world (.commit ((group, offsets) :: rest) items)
        (world.committedGroup known group offsets items) (World.commits items rest)
  | readsMeta {request : FetchRequest} :
      Effect known index world (.fetch request) world
        (.stable request world.doc (world.partitions request.topition).next)

inductive Step (known : Topition → Bool) (world : World) : Task → Act → World → Task → Prop
  | runs {task next : Task} {after : World} {index : Folded}
      (effect : Effect known index world task after next) :
      Step known world task (.run index) after next
  | loses {task next : Task} {after : World} {index : Folded}
      (effect : Effect known index world task after next) :
      Step known world task (.lose index) after .idle
  | stops (task : Task) (action : Act) (failed : action.takesEffect = false) :
      Step known world task action world .idle
  | inits {transactionId : String} {transactionTimeoutMs : Int}
      {producerId producerEpoch : Option Int} {response : InitProducer} {doc : Meta}
      (result : world.doc.initProducerId transactionId transactionTimeoutMs producerId
        producerEpoch = some (response, doc)) :
      Step known world .idle
        (.initProducerId transactionId transactionTimeoutMs producerId producerEpoch)
        { world with
          doc
          history := { world.history with
            issued := world.history.issued ++ World.issuedBy response } } .idle
  | initsIdempotent {producerId producerEpoch : Option Int} :
      Step known world .idle (.initProducerIdempotent producerId producerEpoch)
        { world with doc := (world.doc.initProducerIdempotent producerId producerEpoch).2 } .idle
  | begins {transactionId : String} {producerId producerEpoch : Int}
      {topics : List (String × List Int)} {now : Nat} {detail : TxnDetail}
      (current : world.doc.currentDetail transactionId producerId producerEpoch = .ok detail) :
      Step known world .idle
        (.addTxnPartitions (.versionZeroToThree transactionId producerId producerEpoch topics) now)
        { world with
          doc := world.doc.updateDetail (transactionId, producerEpoch) (fun detail =>
            { (topics.flatMap (fun (topic, partitions) => partitions.map (Topition.mk topic))).foldl
                TxnDetail.addPartition detail with
              startedAt := some now, state := some .begin }) } .idle
  | stages {request : TxnOffsetCommitRequest} {detail : TxnDetail}
      (current : world.doc.currentDetail request.transactionId request.producerId
        request.producerEpoch = .ok detail) :
      Step known world .idle (.txnOffsetCommit request) (world.txnOffsetCommit request) .idle
  | produces {transactionId : Option String} {topition : Topition} {batch : Batch} :
      Step known world .idle (.produce transactionId topition batch) world
        (.produce { transactionId, topition, batch, since := world.history.issued.length })
  | startsEnd {transactionId : String} {producerId producerEpoch : Int} {committed : Bool} :
      Step known world .idle (.endTxn transactionId producerId producerEpoch committed)
        { world with history := { world.history with calls := world.history.calls + 1 } }
        (.endTxn { call := world.history.calls, transactionId, producerId, producerEpoch, committed
                   since := world.history.issued.length })
  | fetches {request : FetchRequest} :
      Step known world .idle (.fetch request) world (.fetch request)
  | expires {topition : Topition} {count : Nat} :
      Step known world .idle (.expire topition count)
        (world.setPartition topition { world.partitions topition with
          expired := max (world.partitions topition).expired count }) .idle
  | truncates {topition : Topition} {offset : Int} :
      Step known world .idle (.deleteRecords topition offset)
        (world.setPartition topition { world.partitions topition with
          truncateFloor := max (world.partitions topition).truncateFloor offset }) .idle
  | ignores {first : String × OrderedMap Topition TxnCommitOffset}
      {rest : List (String × OrderedMap Topition TxnCommitOffset)} {items : List Staged} :
      Step known world (.commit (first :: rest) items) .ignore world (World.commits items rest)
  | bounds {request : FetchRequest} {doc : Meta} {seen highWatermark : Int}
      (within : highWatermark ≤ (world.partitions request.topition).next) :
      Step known world (.stable request doc seen) (.watermark highWatermark) world
        (.bounded request doc highWatermark)
  | reads {request : FetchRequest} {doc : Meta} {highWatermark : Int} {logs : Nat → StoredLog}
      {conditions : Nat → Conditions} {batches : List Batch}
      (shown : ∀ attempt < maxAttempts, Shows (logs attempt) (world.partitions request.topition))
      (fetched : fetch doc request.topition
        ((world.partitions request.topition).state highWatermark) logs conditions request.offset
        request.maxBytes .readCommitted = .ok batches) :
      Step known world (.bounded request doc highWatermark) (.read logs conditions) world
        (.answered request batches)

/-! ### The rules are sound -/

variable {P : Task → Prop} {after w : World} {next task : Task} {known : Topition → Bool}
  {index : Folded} {req : EndTxn} {action : Act} {doc : Meta} {highWatermark : Int}
  {logs : Nat → StoredLog} {conditions : Nat → Conditions}

lemma produceRun_effect {req : Produce} (ran : w.produceRun index req = (after, next)) :
    Effect known index w (.produce req) after next := by
  unfold World.produceRun at ran
  split at ran
  · rename_i admitted
    cases ran
    exact .appends admitted
  · rename_i repeated
    cases ran
    exact .repeats repeated
  · cases ran
    exact .refuses
  · cases ran
    exact .refuses

lemma prepareRun_effect (ran : w.prepareRun req = (after, next)) :
    Effect known index w (.endTxn req) after next := by
  unfold World.prepareRun Meta.endTxnPrepare at ran
  cases cur : w.doc.currentDetail req.transactionId req.producerId
      req.producerEpoch with
  | error code =>
    simp only [cur] at ran
    cases ran
    exact .refusesEnd
  | ok detail =>
    have found : w.doc.detail? req.key = some detail :=
      Meta.detail?_of_currentDetail cur
    by_cases begun : detail.state = some .begin
    · simp only [cur,begun,if_true,World.isBegun,found,Option.any_some,decide_true] at ran
      cases ran
      exact .prepares cur begun
    · simp only [cur,begun,if_false,World.isBegun,found,Option.any_some,
        decide_false] at ran
      cases ran
      exact .passes cur begun

lemma resolveRun_effect (ran : w.resolveRun req = (after, next)) :
    Effect known index w (.resolve req) after next := by
  unfold World.resolveRun at ran
  split at ran
  · rename_i res
    cases ran
    exact .refusesResolve res
  · rename_i res
    cases ran
    exact .resolves res

lemma run_effect (ran : w.run known index task = some (after, next)) :
    Effect known index w task after next := by
  cases task with
  | produce req => exact produceRun_effect (Option.some.inj ran)
  | acked req txn offset =>
    cases ran
    exact .registers
  | endTxn req => exact prepareRun_effect (Option.some.inj ran)
  | marker req tp rest =>
    cases ran
    exact .marks
  | marked req tp offset rest =>
    cases ran
    exact .registersMarker
  | resolve req => exact resolveRun_effect (Option.some.inj ran)
  | commit left items =>
    cases left with
    | nil => cases ran
    | cons first rest =>
      cases ran
      exact .commitsGroup
  | fetch req =>
    cases ran
    exact .readsMeta
  | _ => cases ran

lemma start_step (started : start w action = some (after, next)) :
    Step known w .idle action after next := by
  cases action with
  | initProducerId txn transactionTimeoutMs pid epoch =>
    obtain ⟨initialised,result,same⟩ := Option.map_eq_some_iff.mp started
    obtain ⟨⟨resp,doc⟩,answered,changed⟩ := Option.map_eq_some_iff.mp result
    cases same
    cases changed
    exact .inits answered
  | initProducerIdempotent pid epoch =>
    cases started
    exact .initsIdempotent
  | addTxnPartitions req now =>
    cases started
    unfold World.addTxnPartitions
    cases req with
    | versionFourPlus => exact .stops _ _ rfl
    | versionZeroToThree txn pid epoch topics =>
      cases cur : w.doc.currentDetail txn pid epoch with
      | error code =>
        simp only [Meta.addTxnPartitions,cur]
        exact .stops _ _ rfl
      | ok detail =>
        simp only [Meta.addTxnPartitions,cur]
        exact .begins cur
  | txnOffsetCommit req =>
    cases started
    cases cur : w.doc.currentDetail req.transactionId req.producerId
        req.producerEpoch with
    | error code =>
      simp only [World.txnOffsetCommit,cur]
      exact .stops _ _ rfl
    | ok detail => exact .stages cur
  | produce txn tp batch =>
    cases started
    exact .produces
  | endTxn txn pid epoch committed =>
    cases started
    exact .startsEnd
  | fetch req =>
    cases started
    exact .fetches
  | expire tp count =>
    cases started
    exact .expires
  | deleteRecords tp offset =>
    cases started
    exact .truncates
  | _ => cases started

lemma readStep_step {req : FetchRequest}
    (read : readStep w req doc highWatermark logs conditions = some (after, next)) :
    Step known w (.bounded req doc highWatermark) (.read logs conditions) after next := by
  unfold readStep at read
  simp only at read
  split at read
  · rename_i shown
    split at read
    · rename_i fetched
      cases read
      exact .reads shown fetched
    · cases read
      exact .stops _ _ rfl
  · cases read

lemma act_step (acted : act known w task action = some (after, next)) :
    Step known w task action after next := by
  unfold act at acted
  split at acted
  · exact start_step acted
  · exact .runs (run_effect acted)
  · obtain ⟨⟨changed,ignored⟩,ran,same⟩ := Option.map_eq_some_iff.mp acted
    cases same
    exact .loses (run_effect ran)
  · cases acted
    exact .stops _ _ rfl
  · cases acted
    exact .ignores
  · split at acted
    · rename_i within
      cases acted
      exact .bounds within
    · cases acted
  · exact readStep_step acted
  · cases acted

/-! ### What a task goes on with -/

variable {offset : Int} {topitions : List Topition}
  {left : List (String × OrderedMap Topition TxnCommitOffset)} {items : List Staged}

lemma acked_elim {req : Produce} (idle : P .idle)
    (acked : ∀ txn, P (.acked req txn offset)) :
    P (World.acked req offset) := by
  unfold World.acked
  split
  · split
    · exact acked _
    · exact idle
  · exact idle

lemma markers_elim (resolve : P (.resolve req))
    (marker : ∀ tp rest, P (.marker req tp rest)) :
    P (World.markers req topitions) := by
  cases topitions with
  | nil => exact resolve
  | cons first rest => exact marker first rest

lemma commits_elim (idle : P .idle)
    (commit : P (.commit left items)) : P (World.commits items left) := by
  cases left with
  | nil => exact idle
  | cons first rest => exact commit

end Kodansu.Cluster

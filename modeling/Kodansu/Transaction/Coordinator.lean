/-
The coordinator's updates of the document.  Each definition here is one conditional
write of `meta.json`; `EndTxn` is two of them, with the markers' registrations between.
-/

import Kodansu.Transaction.Meta

namespace Kodansu.Transaction

open Lib Segment OrderedMap Option

variable {doc : Meta}

inductive InitProducer
  | completed (id epoch : Int) (error : ErrorCode)
  | needToRollback (producerId producerEpoch : Int)
deriving DecidableEq

inductive TxnAddPartitionsRequest
  | versionZeroToThree (transactionId : String) (producerId producerEpoch : Int)
      (topics : List (String × List Int))
  | versionFourPlus

structure TxnOffsetCommitRequest where
  transactionId : String
  groupId : String
  producerId : Int
  producerEpoch : Int
  topics : List (String × List (Int × TxnCommitOffset))

namespace TxnDetail

def register (detail : TxnDetail) (topition : Topition) (offset offsetEnd : Int) : TxnDetail :=
  { detail with
    produces := detail.produces.upsert topition (fun
      | some (some range) =>
        some ⟨min range.offsetStart offset,
          if offsetEnd > range.offsetEnd then offsetEnd else range.offsetEnd⟩
      | _ => some ⟨offset, offsetEnd⟩) }

def addPartition (detail : TxnDetail) (topition : Topition) : TxnDetail :=
  { detail with produces := detail.produces.upsert topition (fun known => known.join) }

def commitOffset (detail : TxnDetail) (group : String) (topition : Topition)
    (offset : TxnCommitOffset) : TxnDetail :=
  { detail with
    offsets := detail.offsets.upsert group (fun known =>
      (known.getD OrderedMap.empty).insert topition offset) }

/-- The detail after its transaction's resolution.  An aborted one keeps its ranges, for
the aborted offsets that a read-committed fetch reports. -/
def resolved? (detail : TxnDetail) : Option TxnDetail :=
  match detail.state with
  | Option.none | some .prepareCommit =>
    some { detail with
      state := some .committed, produces := OrderedMap.empty,
      offsets := OrderedMap.empty, startedAt := none }
  | some .prepareAbort =>
    some { detail with
      state := some .aborted, offsets := OrderedMap.empty, startedAt := none }
  | _ => none

/-- A transaction is resolved where its state allows it, and left alone elsewhere. -/
def settle (detail : TxnDetail) : TxnDetail := detail.resolved?.getD detail

def isPrepared (detail : TxnDetail) : Bool := detail.state.any TxnState.isPrepared

def Holds (detail : TxnDetail) (topition : Topition) : Prop :=
  (detail.range topition).isSome = true

variable {other : Topition}

lemma register_holds {detail : TxnDetail} (held : detail.Holds other)
    (tp : Topition) (offset offsetEnd : Int) :
    (detail.register tp offset offsetEnd).Holds other := by
  unfold Holds range register at *
  rw [get?_upsert]
  by_cases same : other = tp
  · subst same
    simp only [if_true,join_some]
    split <;> rfl
  · simpa [same] using held

@[simp] lemma addPartition_range (detail : TxnDetail) (tp : Topition) :
    (detail.addPartition tp).range = detail.range := by
  funext other
  unfold range addPartition
  rw [get?_upsert]
  by_cases same : other = tp
  · simp [same]
  · simp [same]

lemma foldl_addPartition_range (topitions : List Topition) (detail : TxnDetail) :
    (topitions.foldl addPartition detail).range = detail.range := by
  induction topitions generalizing detail with
  | nil => rfl
  | cons first rest ih => rw [List.foldl_cons,ih,addPartition_range]

lemma foldl_commitOffset (group : String) (offsets : List (Topition × TxnCommitOffset))
    (detail : TxnDetail) :
    let changed := offsets.foldl (fun changed (tp, offset) =>
      changed.commitOffset group tp offset) detail
    changed.state = detail.state ∧ changed.range = detail.range := by
  induction offsets generalizing detail with
  | nil => exact ⟨rfl,rfl⟩
  | cons first rest ih => exact ih (detail.commitOffset group first.1 first.2)

lemma isOpen_iff (detail : TxnDetail) :
    detail.isOpen = true ↔ detail.state = some .begin ∨ detail.isPrepared = true := by
  unfold isOpen isPrepared
  cases detail.state with
  | none => simp
  | some s => cases s <;> simp [TxnState.isPrepared]

lemma isOpen_of_isPrepared {detail : TxnDetail} (prepared : detail.isPrepared = true) :
    detail.isOpen = true :=
  (isOpen_iff detail).mpr (.inr prepared)

lemma settle_isOpen {detail : TxnDetail} (stillOpen : detail.settle.isOpen = true) :
    detail.settle = detail ∧ detail.state = some .begin := by
  unfold settle resolved? isOpen at *
  cases found : detail.state with
  | none => simp [found] at stillOpen
  | some s => cases s <;> simp_all

lemma settle_settle (detail : TxnDetail) : detail.settle.settle = detail.settle := by
  unfold settle resolved?
  cases found : detail.state with
  | none => rfl
  | some s => cases s <;> simp [found]

end TxnDetail

def TxnId.key (txnId : TxnId) : String × Int := (txnId.transaction, txnId.producerEpoch)

namespace Meta

def updateDetail (doc : Meta) (key : String × Int) (change : TxnDetail → TxnDetail) : Meta :=
  { doc with
    transactions := doc.transactions.adjust key.1 (fun txn =>
      { txn with epochs := txn.epochs.adjust key.2 change }) }

/-- The detail of a producer's current epoch, or the error its request is refused with. -/
def currentDetail (doc : Meta) (transactionId : String) (producerId producerEpoch : Int) :
    Except ErrorCode TxnDetail :=
  match doc.transactions.get? transactionId with
  | Option.none => .error .transactionalIdNotFound
  | some txn =>
    if txn.producer ≠ producerId then .error .unknownProducerId
    else
      match txn.epochs.last? with
      | Option.none => .error .producerFenced
      | some (epoch, detail) =>
        if producerEpoch ≠ epoch then .error .producerFenced else .ok detail

def nextProducer (doc : Meta) : Int :=
  match doc.producers.last? with
  | Option.none => 1
  | some (id, _) => id + 1

def nextEpoch (epoch : Int) : Int := (epoch + 1).bmod (2 ^ 16)

/-- The update of a transactional `InitProducerId`.  It has no result where an assertion
of the source fails, on an epoch that is already there. -/
def initProducerId (doc : Meta) (transactionId : String) (transactionTimeoutMs : Int)
    (producerId producerEpoch : Option Int) : Option (InitProducer × Meta) :=
  if producerId = some (-1) ∧ producerEpoch = some (-1) then
    match doc.transactions.get? transactionId with
    | Option.none =>
      let id := doc.nextProducer
      let epochs := OrderedMap.empty.insert 0 { transactionTimeoutMs }
      some (.completed id 0 .none,
        { producers := doc.producers.insert id ⟨[0]⟩
          transactions := doc.transactions.insert transactionId ⟨id, epochs⟩ })
    | some txn =>
      match txn.epochs.last? with
      | Option.none => some (.completed (-1) (-1) .unknownServerError, doc)
      | some (currentEpoch, detail) =>
        if detail.state = some .begin then
          some (.needToRollback txn.producer currentEpoch, doc)
        else
          let epoch := nextEpoch currentEpoch
          let used := (doc.producers.get? txn.producer).any (fun producer =>
            producer.sequences.contains epoch)
          if used ∨ (txn.epochs.get? epoch).isSome then Option.none
          else
            some (.completed txn.producer epoch .none,
              { producers := doc.producers.adjust txn.producer (fun producer =>
                  ⟨producer.sequences ++ [epoch]⟩)
                transactions := doc.transactions.insert transactionId
                  { txn with epochs := txn.epochs.insert epoch { transactionTimeoutMs } } })
  else some (.completed (-1) (-1) .unknownServerError, doc)

/-- The update of an `InitProducerId` without a transactional id. -/
def initProducerIdempotent (doc : Meta) (producerId producerEpoch : Option Int) :
    InitProducer × Meta :=
  if producerId = some (-1) ∧ producerEpoch = some (-1) then
    (.completed doc.nextProducer 0 .none,
      { doc with producers := doc.producers.insert doc.nextProducer ⟨[0]⟩ })
  else (.completed (-1) (-1) .unknownServerError, doc)

def partitionResults {α : Type} (topics : List (String × List α)) (partition : α → Int)
    (code : ErrorCode) : List (String × List (Int × ErrorCode)) :=
  topics.map (fun (topic, partitions) =>
    (topic, partitions.map (fun requested => (partition requested, code))))

/-- The update of `AddPartitionsToTxn`: it begins the transaction, whatever state the
epoch's last one was left in. -/
def addTxnPartitions (doc : Meta) (request : TxnAddPartitionsRequest) (now : Nat) :
    Except ErrorCode (List (String × List (Int × ErrorCode)) × Meta) :=
  match request with
  | .versionFourPlus => .error .unsupportedVersion
  | .versionZeroToThree transactionId producerId producerEpoch topics =>
    match doc.currentDetail transactionId producerId producerEpoch with
    | .error code => .ok (partitionResults topics id code, doc)
    | .ok _ =>
      let topitions := topics.flatMap (fun (topic, partitions) =>
        partitions.map (Topition.mk topic))
      .ok (partitionResults topics id .none,
        doc.updateDetail (transactionId, producerEpoch) (fun detail =>
          { topitions.foldl TxnDetail.addPartition detail with
            startedAt := some now, state := some .begin }))

/-- The update that follows the acknowledgement of a transactional batch. -/
def registerProduced (doc : Meta) (transactionId : String) (producerEpoch : Int)
    (topition : Topition) (offset lastOffsetDelta : Int) : Meta :=
  doc.updateDetail (transactionId, producerEpoch) (fun detail =>
    detail.register topition offset (offset + lastOffsetDelta))

def txnOffsetCommit (doc : Meta) (request : TxnOffsetCommitRequest) :
    List (String × List (Int × ErrorCode)) × Meta :=
  match doc.currentDetail request.transactionId request.producerId request.producerEpoch with
  | .error code => (partitionResults request.topics Prod.fst code, doc)
  | .ok _ =>
    let offsets := request.topics.flatMap (fun (topic, partitions) =>
      partitions.map (fun (partition, offset) => (Topition.mk topic partition, offset)))
    (partitionResults request.topics Prod.fst .none,
      doc.updateDetail (request.transactionId, request.producerEpoch) (fun detail =>
        offsets.foldl (fun changed (topition, offset) =>
          changed.commitOffset request.groupId topition offset) detail))

/-- The first update of `EndTxn`; it answers with the partitions that get a marker. -/
def endTxnPrepare (doc : Meta) (transactionId : String) (producerId producerEpoch : Int)
    (committed : Bool) : Except ErrorCode (List Topition × Meta) :=
  match doc.currentDetail transactionId producerId producerEpoch with
  | .error code => .error code
  | .ok detail =>
    if detail.state = some .begin then
      .ok (detail.starts.map Prod.fst,
        doc.updateDetail (transactionId, producerEpoch) (fun detail =>
          { detail with state := some (if committed then .prepareCommit else .prepareAbort) }))
    else .ok ([], doc)

def mergeOffsets (offsetsToCommit offsets : GroupOffsets) : GroupOffsets :=
  offsets.entries.foldl (fun merged (group, committed) =>
    merged.upsert group (fun known =>
      committed.entries.foldl (fun inGroup (topition, offset) => inGroup.insert topition offset)
        (known.getD OrderedMap.empty))) offsetsToCommit

def resolveOne (progress : Meta × GroupOffsets) (txnId : TxnId) : Meta × GroupOffsets :=
  match progress.1.detail? txnId.key with
  | Option.none => progress
  | some detail =>
    match detail.resolved? with
    | Option.none => progress
    | some resolved =>
      (progress.1.updateDetail txnId.key (fun _ => resolved),
        if txnId.state = .prepareCommit then mergeOffsets progress.2 detail.offsets
        else progress.2)

/-- The last update of `EndTxn`: with every overlapping transaction prepared, all of them
are resolved, and with one that is not, none is. -/
def endTxnResolve (doc : Meta) (transactionId : String) (producerId producerEpoch : Int)
    (committed : Bool) : Except ErrorCode (GroupOffsets × Meta) := do
  let _ ← doc.currentDetail transactionId producerId producerEpoch
  let overlapping ← doc.overlappingTransactions transactionId producerId producerEpoch
  if overlapping.all (fun txnId => txnId.state.isPrepared) then
    let ending : TxnId := ⟨transactionId, producerId, producerEpoch,
      if committed then .prepareCommit else .prepareAbort⟩
    let progress := (overlapping ++ [ending]).foldl resolveOne (doc, OrderedMap.empty)
    return (progress.2, progress.1)
  else return (OrderedMap.empty, doc)

lemma detail?_updateDetail (doc : Meta) (key other : String × Int)
    (change : TxnDetail → TxnDetail) :
    (doc.updateDetail key change).detail? other =
      if other = key then (doc.detail? key).map change else doc.detail? other := by
  obtain ⟨id,epoch⟩ := key
  obtain ⟨otherId,otherEpoch⟩ := other
  unfold updateDetail detail?
  simp only [get?_adjust]
  by_cases sameId : otherId = id
  · subst sameId
    cases doc.transactions.get? otherId with
    | none => simp
    | some txn =>
      by_cases sameEpoch : otherEpoch = epoch <;> simp [get?_adjust,sameEpoch]
  · simp [sameId]

variable {transactionId : String} {pid producerEpoch transactionTimeoutMs : Int}
  {detail : TxnDetail} {resp : InitProducer} {after : Meta}

lemma detail?_of_currentDetail
    (cur : doc.currentDetail transactionId pid producerEpoch = .ok detail) :
    doc.detail? (transactionId, producerEpoch) = some detail := by
  unfold currentDetail at cur
  unfold detail?
  cases found : doc.transactions.get? transactionId with
  | none => simp [found] at cur
  | some txn =>
    simp only [found,bind_some] at cur ⊢
    split at cur
    · cases cur
    split at cur
    · cases cur
    rename_i epoch last inEpochs
    split at cur
    · cases cur
    rename_i same
    cases cur
    rw [not_not.mp same]
    exact get?_of_last? inEpochs

lemma detail?_initProducerId {pid producerEpoch : Option Int}
    (res : doc.initProducerId transactionId transactionTimeoutMs pid producerEpoch = some
      (resp, after)) (key : String × Int) : after.detail? key = doc.detail? key ∨
      doc.detail? key = none ∧ after.detail? key = some { transactionTimeoutMs } := by
  obtain ⟨id,epoch⟩ := key
  unfold initProducerId at res
  split at res
  · cases found : doc.transactions.get? transactionId with
    | none =>
      simp only [found,Option.some.injEq,Prod.mk.injEq] at res
      obtain ⟨_,rfl⟩ := res
      unfold detail?
      by_cases sameId : id = transactionId
      · subst sameId
        by_cases first : epoch = 0 <;> simp [found,get?_insert,first]
      · simp [get?_insert,sameId]
    | some txn =>
      simp only [found] at res
      split at res
      · cases res
        exact .inl rfl
      · rename_i currentEpoch detail last
        split at res
        · cases res
          exact .inl rfl
        · split at res
          · cases res
          · rename_i fresh
            cases res
            simp only [not_or,not_isSome_iff_eq_none] at fresh
            unfold detail?
            by_cases sameId : id = transactionId
            · subst sameId
              by_cases isNew : epoch = nextEpoch currentEpoch
              · simp [found,isNew,fresh.2]
              · simp [found,get?_insert,isNew]
            · simp [get?_insert,sameId]
  · cases res
    exact .inl rfl

lemma detail?_resolveOne (progress : Meta × GroupOffsets) (txnId : TxnId) (key : String × Int) :
    (resolveOne progress txnId).1.detail? key =
      if key = txnId.key then (progress.1.detail? key).map TxnDetail.settle
      else progress.1.detail? key := by
  unfold resolveOne TxnDetail.settle
  cases found : progress.1.detail? txnId.key with
  | none =>
    by_cases same : key = txnId.key
    · simp [same,found]
    · simp [same]
  | some detail =>
    cases outcome : detail.resolved? with
    | none =>
      by_cases same : key = txnId.key
      · simp [same,found,outcome]
      · simp [same,outcome]
    | some resolved =>
      simp only [outcome,detail?_updateDetail]
      by_cases same : key = txnId.key
      · simp [same,found,outcome]
      · simp [same]

lemma detail?_foldl_resolveOne (txnIds : List TxnId) (progress : Meta × GroupOffsets)
    (key : String × Int) :
    (txnIds.foldl resolveOne progress).1.detail? key =
      if key ∈ txnIds.map TxnId.key then (progress.1.detail? key).map TxnDetail.settle
      else progress.1.detail? key := by
  induction txnIds generalizing progress with
  | nil => rfl
  | cons first rest ih =>
    rw [List.foldl_cons,ih,detail?_resolveOne]
    by_cases isFirst : key = first.key
    · -- a second visit finds the transaction settled
      simp [isFirst,Function.comp_def,TxnDetail.settle_settle]
    · simp [isFirst]

section

variable {producerId : Int}
  (current : doc.currentDetail transactionId producerId producerEpoch = .ok detail)

include current

lemma producer_of_currentDetail :
    ∃ txn, doc.transactions.get? transactionId = some txn ∧ txn.producer = producerId := by
  unfold currentDetail at current
  cases found : doc.transactions.get? transactionId with
  | none => simp [found] at current
  | some txn =>
    simp only [found] at current
    split at current
    · cases current
    · next same => exact ⟨txn,rfl,not_not.mp same⟩

lemma produced_of_currentDetail :
    doc.produced transactionId producerId producerEpoch = .ok detail.range := by
  obtain ⟨txn,found,same⟩ := producer_of_currentDetail current
  have epochFound := detail?_of_currentDetail current
  simp only [detail?,found,bind_some] at epochFound
  simp [produced,found,same,epochFound]

/-- Whom the search for overlapping transactions names: only transactions that overlap,
and of each id with one that overlaps, some epoch. -/
lemma overlappingTransactions_spec :
    ∃ named, doc.overlappingTransactions transactionId producerId producerEpoch = .ok named ∧
      (∀ txnId ∈ named, txnId.key ≠ (transactionId, producerEpoch) ∧
        ∃ other, doc.detail? txnId.key = some other ∧ other.state = some txnId.state ∧
          overlaps detail.range other = true) ∧
      (∀ key other, key ≠ (transactionId, producerEpoch) → doc.detail? key = some other →
        overlaps detail.range other = true → ∃ txnId ∈ named, txnId.transaction = key.1) := by
  obtain ⟨ending,endingFound,endingProducer⟩ := producer_of_currentDetail current
  unfold overlappingTransactions
  rw [produced_of_currentDetail current]
  refine ⟨_,rfl,?_,?_⟩
  · intro txnId mem
    simp only [List.mem_filterMap,bind_eq_some_iff,map_eq_some_iff] at mem
    obtain ⟨⟨candidateId,txn⟩,inTransactions,⟨epoch,other⟩,found,state,hasState,rfl⟩ :=
      mem
    have test := List.find?_some found
    simp only [Bool.and_eq_true,Bool.not_eq_true',Bool.and_eq_false_iff,decide_eq_false_iff_not]
      at test
    have inDoc := mem_entries.mp inTransactions
    have inEpochs := mem_entries.mp (List.mem_of_find?_eq_some found)
    constructor
    · intro same
      obtain ⟨sameId,sameEpoch⟩ := Prod.mk.inj same
      simp only at sameId sameEpoch
      subst sameId sameEpoch
      rw [inDoc] at endingFound
      cases endingFound
      simp [endingProducer] at test
    · refine ⟨other,?_,hasState,test.2⟩
      simp [detail?,TxnId.key,inDoc,inEpochs]
  · intro key other differ found overlapping
    obtain ⟨id,epoch⟩ := key
    simp only [detail?,bind_eq_some_iff] at found
    obtain ⟨txn,inDoc,inEpochs⟩ := found
    cases search : txn.epochs.entries.find? (fun entry =>
        !(transactionId = id && producerId = txn.producer && producerEpoch = entry.1) &&
          overlaps detail.range entry.2) with
    | none =>
      -- the search cannot end without an epoch, since this one passes its test
      have missed := List.find?_eq_none.mp search (epoch, other) (mem_entries.mpr inEpochs)
      simp only [overlapping,Bool.and_true,Bool.not_eq_true',Bool.not_eq_false,
        Bool.and_eq_true,decide_eq_true_eq] at missed
      exact absurd (by rw [missed.1.1,missed.2]) differ
    | some hit =>
      obtain ⟨hitEpoch,hitDetail⟩ := hit
      have test := List.find?_some search
      simp only [Bool.and_eq_true,overlaps,isSome_iff_exists] at test
      obtain ⟨_,⟨state,hasState⟩,_⟩ := test
      refine ⟨⟨id,txn.producer,hitEpoch,state⟩,?_,rfl⟩
      simp only [List.mem_filterMap]
      refine ⟨(id, txn),mem_entries.mpr inDoc,?_⟩
      exact (congrArg (Option.bind · _) search).trans (by rw [bind_some,hasState,map_some])

end

variable {txn : String} {epoch : Int} {named : List TxnId} {committed : Bool}
  {offsets : GroupOffsets}

lemma overlappingTransactions_pairwise
    (search : doc.overlappingTransactions txn pid epoch = .ok named) :
    named.Pairwise (fun left right => left.transaction ≠ right.transaction) := by
  unfold overlappingTransactions at search
  cases candidates : doc.produced txn pid epoch with
  | error code =>
    rw [candidates] at search
    cases search
  | ok ranges =>
    rw [candidates] at search
    cases search
    apply List.Pairwise.filterMap _ ?_ doc.transactions.ascending
    intro earlier later ascending left isLeft right isRight
    obtain ⟨_,-,fromLeft⟩ := bind_eq_some_iff.mp isLeft
    obtain ⟨_,-,fromRight⟩ := bind_eq_some_iff.mp isRight
    obtain ⟨_,-,rfl⟩ := map_eq_some_iff.mp fromLeft
    obtain ⟨_,-,rfl⟩ := map_eq_some_iff.mp fromRight
    exact ne_of_lt ascending

lemma endTxnResolve_ok
    (res : doc.endTxnResolve txn pid epoch committed = .ok (offsets,
      after)) :
    ∃ detail named, doc.currentDetail txn pid epoch = .ok detail ∧
      doc.overlappingTransactions txn pid epoch = .ok named ∧
      ((∃ txnId ∈ named, txnId.state.isPrepared = false) ∧ after = doc ∨
        (∀ txnId ∈ named, txnId.state.isPrepared = true) ∧ ∀ key, after.detail? key =
            if key ∈ named.map TxnId.key ∨ key = (txn, epoch)
            then (doc.detail? key).map TxnDetail.settle else doc.detail? key) := by
  unfold endTxnResolve at res
  cases cur : doc.currentDetail txn pid epoch with
  | error code => rw [cur] at res; cases res
  | ok detail =>
    obtain ⟨named,search,-,-⟩ := overlappingTransactions_spec cur
    rw [cur,search] at res
    refine ⟨detail,named,rfl,search,?_⟩
    change (if named.all _ then _ else _) = _ at res
    split at res
    · rename_i all
      cases res
      refine Or.inr ⟨by simpa using all,fun key => ?_⟩
      rw [detail?_foldl_resolveOne]
      simp [TxnId.key]
    · rename_i notAll
      cases res
      exact .inl ⟨by simpa using notAll,rfl⟩

end Meta

end Kodansu.Transaction

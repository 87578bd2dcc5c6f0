/-
The producer ids of transactional ids.  A transactional id gets a producer id of its own when
it is first seen and keeps it; its epochs stay in the document, and only the last one is
current.
-/

import Kodansu.Transaction.Coordinator

namespace Kodansu.Transaction

open Lib OrderedMap Option

variable {after doc : Meta}

namespace Meta

def producer? (doc : Meta) (transactionId : String) : Option Int :=
  (doc.transactions.get? transactionId).map Txn.producer

@[simp] lemma producer?_updateDetail (doc : Meta) (key : String × Int)
    (change : TxnDetail → TxnDetail) (transactionId : String) :
    (doc.updateDetail key change).producer? transactionId = doc.producer? transactionId := by
  unfold producer? updateDetail
  rw [get?_adjust]
  split
  · rename_i same
    rw [same,map_map]
    rfl
  · rfl

variable {transactionId txn : String}
  {producerId producerEpoch pid epoch transactionTimeoutMs owner newId : Int} {detail : TxnDetail}
  {committed : Bool} {offsets : GroupOffsets} {resp : InitProducer} {key : String × Int}

lemma producer?_of_currentDetail
    (current : doc.currentDetail transactionId producerId producerEpoch = .ok detail) :
    doc.producer? transactionId = some producerId := by
  obtain ⟨txn,found,same⟩ := producer_of_currentDetail current
  rw [producer?,found,map_some,same]

@[simp] lemma producer?_foldl_resolveOne (txnIds : List TxnId) (progress : Meta × GroupOffsets)
    (transactionId : String) :
    (txnIds.foldl resolveOne progress).1.producer? transactionId =
      progress.1.producer? transactionId := by
  induction txnIds generalizing progress with
  | nil => rfl
  | cons first rest ih =>
    rw [List.foldl_cons,ih]
    unfold resolveOne
    split
    · rfl
    split
    · rfl
    · exact producer?_updateDetail _ _ _ _

lemma producer?_endTxnResolve
    (res : doc.endTxnResolve txn pid epoch committed = .ok (offsets,
      after)) (id : String) : after.producer? id = doc.producer? id := by
  obtain ⟨detail,named,cur,search,-⟩ := endTxnResolve_ok res
  unfold endTxnResolve at res
  rw [cur,search] at res
  change (if named.all _ then _ else _) = _ at res
  split at res
  · cases res
    exact producer?_foldl_resolveOne _ _ _
  · cases res
    rfl

/-- `InitProducerId` gives a transactional id a producer id once. -/
lemma producer?_initProducerId {pid epoch : Option Int}
    (res : doc.initProducerId transactionId transactionTimeoutMs pid epoch = some
      (resp, after)) {id : String} (found : doc.producer? id = some owner) :
    after.producer? id = some owner := by
  unfold initProducerId at res
  split at res
  · split at res
    · rename_i absent
      cases res
      unfold producer? at found ⊢
      rw [get?_insert]
      split
      · next same => rw [same,absent] at found; cases found
      · exact found
    · rename_i txn present
      split at res
      · cases res
        exact found
      · split at res
        · cases res
          exact found
        · dsimp only at res
          split at res
          · cases res
          cases res
          unfold producer? at found ⊢
          rw [get?_insert]
          split
          · rename_i same
            rw [same,present] at found
            exact found
          · exact found
  · cases res
    exact found

@[simp] lemma producer?_initProducerIdempotent (doc : Meta)
    (pid epoch : Option Int) (transactionId : String) :
    (doc.initProducerIdempotent pid epoch).2.producer? transactionId =
      doc.producer? transactionId := by
  unfold initProducerIdempotent
  split <;> rfl

/-- No epoch of a transactional id is above the current one. -/
lemma le_of_currentDetail
    (cur : doc.currentDetail transactionId pid producerEpoch = .ok detail)
    (present : (doc.detail? (transactionId, epoch)).isSome) : epoch ≤ producerEpoch := by
  unfold currentDetail at cur
  unfold detail? at present
  split at cur
  · cases cur
  rename_i txn found
  rw [found,bind_some] at present
  obtain ⟨other,inEpochs⟩ := isSome_iff_exists.mp present
  obtain ⟨last,isLast,bound⟩ := le_last? inEpochs
  split at cur
  · cases cur
  rw [isLast] at cur
  simp only at cur
  split at cur
  · cases cur
  · next same => rwa [not_not.mp same]

/-- `InitProducerId` adds an epoch to its own transactional id, and only if the last epoch's
transaction is not begun. -/
lemma unbegun_of_added {pid producerEpoch : Option Int}
    (res : doc.initProducerId transactionId transactionTimeoutMs pid producerEpoch = some
      (resp, after)) (absent : doc.detail? key = none) (present : (after.detail? key).isSome) :
    key.1 = transactionId ∧ ∀ last detail, doc.detail? (transactionId, last) = some detail →
      (∀ epoch, (doc.detail? (transactionId, epoch)).isSome → epoch ≤ last) →
      detail.state ≠ some .begin := by
  have same : after = doc → False := by
    intro kept
    rw [kept,absent] at present
    cases present
  have added : ∀ txn, after.transactions = doc.transactions.insert transactionId txn →
      key.1 = transactionId := by
    intro txn inserted
    by_contra elsewhere
    rw [detail?,inserted,get?_insert_ne _ _ elsewhere] at present
    rw [detail?] at absent
    rw [absent] at present
    cases present
  unfold initProducerId at res
  split at res
  · split at res
    · rename_i unknown
      cases res
      refine ⟨added _ rfl,fun last detail found => ?_⟩
      rw [detail?,unknown] at found
      cases found
    · rename_i txn inDoc
      split at res
      · cases res
        exact (same rfl).elim
      · rename_i currentEpoch cur isLast
        split at res
        · cases res
          exact (same rfl).elim
        · rename_i unbegun
          dsimp only at res
          split at res
          · cases res
          cases res
          refine ⟨added _ rfl,fun last detail found upper => ?_⟩
          rw [detail?,inDoc,bind_some] at found
          have inEpochs := get?_of_last? isLast
          obtain ⟨entry,isEntry,bound⟩ := le_last? found
          rw [isLast] at isEntry
          cases isEntry
          have least := upper currentEpoch (by
            rw [detail?,inDoc,bind_some,inEpochs]
            rfl)
          have isCurrent : last = currentEpoch := le_antisymm bound least
          rw [isCurrent,inEpochs] at found
          cases found
          exact unbegun
  · cases res
    exact (same rfl).elim

/-- What a completed `InitProducerId` answers is in the document. -/
lemma initProducerId_completed {pid producerEpoch : Option Int} {id : Int}
    (res : doc.initProducerId txn transactionTimeoutMs pid producerEpoch = some
      (.completed id epoch .none, after)) :
    after.producer? txn = some id ∧ (after.detail? (txn, epoch)).isSome := by
  unfold initProducerId at res
  split at res
  · split at res
    · cases res
      simp [producer?,detail?]
    · split at res
      · cases res
      · split at res
        · cases res
        · dsimp only at res
          split at res
          · cases res
          · cases res
            simp [producer?,detail?]
  · cases res

/-- Every producer id in use is known, and is the one of a single transactional id. -/
structure Owned (doc : Meta) : Prop where
  known : ∀ transactionId producerId, doc.producer? transactionId = some producerId →
    (doc.producers.get? producerId).isSome
  unique : ∀ left right producerId, doc.producer? left = some producerId →
    doc.producer? right = some producerId → left = right

lemma get?_nextProducer (doc : Meta) : doc.producers.get? doc.nextProducer = none := by
  cases found : doc.producers.get? doc.nextProducer with
  | none => rfl
  | some detail =>
    obtain ⟨last,isLast,bound⟩ := le_last? found
    rw [nextProducer,isLast] at bound
    simp only at bound
    omega

lemma Owned.of_same (owned : Owned doc)
    (kept : ∀ pid, (doc.producers.get? pid).isSome → (after.producers.get?
      pid).isSome)
    (same : ∀ txn, after.producer? txn = doc.producer? txn) :
    Owned after where
  known txn pid found :=
    kept pid (owned.known txn pid (same _ ▸ found))
  unique left right pid inLeft inRight :=
    owned.unique left right pid (same _ ▸ inLeft) (same _ ▸ inRight)

lemma Owned.of_new (owned : Owned doc) (txn : String)
    (absent : doc.producers.get? newId = none)
    (added : ∀ pid, (doc.producers.get? pid).isSome ∨ pid = newId →
      (after.producers.get? pid).isSome)
    (owner : ∀ other, after.producer? other = if other = txn then some newId else
      doc.producer? other) : Owned after := by
  have fresh : ∀ other, doc.producer? other ≠ some newId := by
    intro other found
    have present := owned.known other _ found
    rw [absent] at present
    cases present
  refine ⟨fun other pid found => added pid ?_,
    fun left right pid inLeft inRight => ?_⟩
  · rw [owner] at found
    split at found
    · exact .inr (Option.some.inj found).symm
    · exact .inl (owned.known other pid found)
  · rw [owner] at inLeft inRight
    split at inLeft
    · rename_i isLeft
      split at inRight
      · next isRight => rw [isLeft,isRight]
      · exact absurd (inRight.trans inLeft.symm) (fresh right)
    · split at inRight
      · exact absurd (inLeft.trans inRight.symm) (fresh left)
      · exact owned.unique left right pid inLeft inRight

lemma Owned.updateDetail (owned : Owned doc) (key : String × Int) (change : TxnDetail → TxnDetail) :
    Owned (doc.updateDetail key change) :=
  owned.of_same (fun _ present => present) (producer?_updateDetail doc key change)

lemma producers_foldl_resolveOne (txnIds : List TxnId) (progress : Meta × GroupOffsets) :
    (txnIds.foldl resolveOne progress).1.producers = progress.1.producers := by
  induction txnIds generalizing progress with
  | nil => rfl
  | cons first rest ih =>
    rw [List.foldl_cons,ih]
    unfold resolveOne
    split
    · rfl
    · split <;> rfl

lemma Owned.endTxnResolve (owned : Owned doc)
    (res : doc.endTxnResolve txn pid epoch committed = .ok (offsets,
      after)) : Owned after := by
  refine owned.of_same (fun pid present => ?_) (producer?_endTxnResolve res)
  obtain ⟨detail,named,cur,search,-⟩ := endTxnResolve_ok res
  unfold Meta.endTxnResolve at res
  rw [cur,search] at res
  change (if named.all _ then _ else _) = _ at res
  split at res
  · cases res
    rwa [producers_foldl_resolveOne]
  · cases res
    exact present

lemma Owned.initProducerIdempotent (owned : Owned doc) (pid epoch : Option Int) :
    Owned (doc.initProducerIdempotent pid epoch).2 := by
  refine owned.of_same (fun id present => ?_) (producer?_initProducerIdempotent doc _ _)
  unfold Meta.initProducerIdempotent
  split
  · simp only [get?_insert]
    split
    · rfl
    · exact present
  · exact present

lemma Owned.initProducerId (owned : Owned doc) {pid epoch : Option Int}
    (res : doc.initProducerId transactionId transactionTimeoutMs pid epoch = some
      (resp, after)) : Owned after := by
  unfold Meta.initProducerId at res
  split at res
  · split at res
    · cases res
      refine owned.of_new transactionId (get?_nextProducer doc) (fun id present => ?_) (fun other => ?_)
      · simp only [get?_insert]
        split
        · rfl
        · next differs => exact present.resolve_right differs
      · simp only [producer?,get?_insert]
        split <;> rfl
    · rename_i txn present
      split at res
      · cases res
        exact owned
      · split at res
        · cases res
          exact owned
        · dsimp only at res
          split at res
          · cases res
          cases res
          refine owned.of_same (fun id known => ?_) (fun other => ?_)
          · simp only [get?_adjust]
            split
            · next same => rwa [isSome_map,← same]
            · exact known
          · simp only [producer?,get?_insert]
            split
            · next same => rw [same,present,map_some,map_some]
            · rfl
  · cases res
    exact owned

end Meta

end Kodansu.Transaction

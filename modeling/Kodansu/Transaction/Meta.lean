/-
The transaction part of the cluster's `meta.json`: producers, transactional ids, and
for each epoch of an id what its transaction produced and how far it has been ended.
The two levels of topic and partition that the source nests are one level of
`Topition` here.
-/

import Kodansu.Lib.OrderedMap
import Kodansu.Segment.Types

namespace Kodansu.Transaction

open Lib Segment OrderedMap Option

inductive TxnState
  | begin
  | prepareCommit
  | prepareAbort
  | committed
  | aborted
deriving DecidableEq

def TxnState.isPrepared : TxnState → Bool
  | .prepareAbort | .prepareCommit => true
  | _ => false

inductive ErrorCode
  | none
  | transactionalIdNotFound
  | unknownProducerId
  | producerFenced
  | unknownServerError
  | unsupportedVersion
deriving DecidableEq

/-- The offsets a transaction wrote to one partition; both ends are written. -/
structure TxnProduceOffset where
  offsetStart : Int
  offsetEnd : Int
deriving DecidableEq

structure TxnCommitOffset where
  committedOffset : Int
  leaderEpoch : Option Int
  metadata : Option String
deriving DecidableEq

abbrev GroupOffsets := OrderedMap String (OrderedMap Topition TxnCommitOffset)

structure TxnDetail where
  transactionTimeoutMs : Int := 0
  startedAt : Option Nat := none
  state : Option TxnState := none
  produces : OrderedMap Topition (Option TxnProduceOffset) := OrderedMap.empty
  offsets : GroupOffsets := OrderedMap.empty
deriving DecidableEq

structure Txn where
  producer : Int
  epochs : OrderedMap Int TxnDetail
deriving DecidableEq

structure ProducerDetail where
  sequences : List Int := []
deriving DecidableEq

structure Meta where
  producers : OrderedMap Int ProducerDetail := OrderedMap.empty
  transactions : OrderedMap String Txn := OrderedMap.empty
deriving DecidableEq

structure TxnId where
  transaction : String
  producerId : Int
  producerEpoch : Int
  state : TxnState
deriving DecidableEq

namespace TxnDetail

def isOpen (detail : TxnDetail) : Bool :=
  match detail.state with
  | Option.none => false
  | some state => state ≠ .committed && state ≠ .aborted

def range (detail : TxnDetail) (topition : Topition) : Option TxnProduceOffset :=
  (detail.produces.get? topition).join

def starts (detail : TxnDetail) : List (Topition × Int) :=
  detail.produces.entries.filterMap (fun (topition, offsetRange) =>
    offsetRange.map (fun written => (topition, written.offsetStart)))

variable {tp : Topition} {start : Int}

lemma mem_starts {detail : TxnDetail} : (tp, start) ∈ detail.starts ↔
      ∃ written, detail.range tp = some written ∧ written.offsetStart = start := by
  simp only [starts,range,List.mem_filterMap,map_eq_some_iff,join_eq_some_iff]
  constructor
  · rintro ⟨⟨found,offsetRange⟩,mem,written,same,eq⟩
    obtain ⟨rfl,rfl⟩ := Prod.mk.inj eq
    simp only at same
    subst same
    exact ⟨written,mem_entries.mp mem,rfl⟩
  · rintro ⟨written,found,rfl⟩
    exact ⟨(tp, some written),mem_entries.mpr found,written,rfl,rfl⟩

end TxnDetail

namespace Meta

def detail? (doc : Meta) (key : String × Int) : Option TxnDetail :=
  (doc.transactions.get? key.1).bind (fun txn => txn.epochs.get? key.2)

def epochs (doc : Meta) : List ((String × Int) × TxnDetail) :=
  doc.transactions.entries.flatMap (fun (id, txn) =>
    txn.epochs.entries.map (fun (epoch, detail) => ((id, epoch), detail)))

variable {key : String × Int} {detail : TxnDetail} {floor start : Int} {tp : Topition}

lemma mem_epochs {doc : Meta} : (key, detail) ∈ doc.epochs ↔ doc.detail? key = some detail := by
  simp only [epochs,detail?,List.mem_flatMap,List.mem_map,bind_eq_some_iff]
  constructor
  · rintro ⟨⟨id,txn⟩,mem,⟨epoch,found⟩,inEpochs,same⟩
    cases same
    exact ⟨txn,mem_entries.mp mem,mem_entries.mp inEpochs⟩
  · rintro ⟨txn,found,inEpochs⟩
    exact ⟨(key.1, txn),mem_entries.mpr found,(key.2, detail),mem_entries.mpr inEpochs,rfl⟩

/-- Lower a partition's floor to a transaction's first offset. -/
def lowerFloor (floors : OrderedMap Topition Int) (floor : Topition × Int) :
    OrderedMap Topition Int :=
  floors.upsert floor.1 (fun
    | Option.none => floor.2
    | some existing => if existing > floor.2 then floor.2 else existing)

/-- The least first offset of an unresolved transaction, for each partition. -/
def openTransactionFloors (doc : Meta) : OrderedMap Topition Int :=
  (((doc.epochs.map Prod.snd).filter TxnDetail.isOpen).flatMap TxnDetail.starts).foldl lowerFloor
    OrderedMap.empty

lemma lowerFloor_get? (floors : OrderedMap Topition Int) (floor : Topition × Int)
    (topition : Topition) :
    (lowerFloor floors floor).get? topition =
      if topition = floor.1 then some (((floors.get? topition).map (min floor.2)).getD floor.2)
      else floors.get? topition := by
  unfold lowerFloor
  rw [get?_upsert]
  by_cases same : topition = floor.1
  · subst same
    cases floors.get? floor.1 with
    | none => simp
    | some existing =>
      simp only [if_true,map_some,getD_some]
      congr 1
      omega
  · simp [same]

/-- After any floors have been lowered, a partition's floor is the least of the one it had
and of those it was lowered to. -/
lemma foldl_lowerFloor_isLeast (topition : Topition) (floors : List (Topition × Int))
    (initial : OrderedMap Topition Int)
    (found : (floors.foldl lowerFloor initial).get? topition = some floor) :
    IsLeast {start | initial.get? topition = some start ∨ (topition, start) ∈ floors} floor := by
  induction floors generalizing initial with
  | nil =>
    refine ⟨.inl found,fun start mem => ?_⟩
    rcases mem with same | absurd
    · exact le_of_eq (Option.some.inj (found.symm.trans same))
    · cases absurd
  | cons first rest ih =>
    obtain ⟨firstTopition,firstStart⟩ := first
    obtain ⟨mem,least⟩ := ih (lowerFloor initial (firstTopition, firstStart)) found
    simp only [lowerFloor_get?,Set.mem_ofPred_eq] at mem
    simp only [lowerBounds,Set.mem_ofPred_eq,lowerFloor_get?] at least
    by_cases same : topition = firstTopition
    · subst same
      simp only [if_true] at mem least
      cases known : initial.get? topition with
      | none =>
        simp only [known,map_none,getD_none] at mem least
        constructor
        · simpa [eq_comm,known] using mem
        · rintro start (impossible | listed)
          · cases impossible
          · exact least (by simpa [eq_comm] using listed)
      | some existing =>
        simp only [known,map_some,getD_some,Option.some.injEq] at mem least
        constructor
        · simp only [Set.mem_ofPred_eq,Option.some.injEq,List.mem_cons,Prod.mk.injEq,true_and]
          rcases mem with smallest | listed
          · rcases le_total firstStart existing with below | above
            · exact .inr (.inl (by omega))
            · exact .inl (by omega)
          · exact .inr (.inr listed)
        · have bound : floor ≤ min firstStart existing := least (.inl rfl)
          rintro start (isExisting | listed)
          · have := Option.some.inj isExisting
            omega
          · rcases List.mem_cons.mp listed with isFirst | inRest
            · have := (Prod.mk.inj isFirst).2
              omega
            · exact least (.inr inRest)
    · simp only [same,if_false] at mem least
      constructor
      · simpa [same] using mem
      · rintro start (isExisting | listed)
        · exact least (.inl isExisting)
        · exact least (.inr (by simpa [same] using listed))

lemma foldl_lowerFloor_isSome (topition : Topition) (floors : List (Topition × Int))
    (initial : OrderedMap Topition Int) :
    ((floors.foldl lowerFloor initial).get? topition).isSome ↔
      (initial.get? topition).isSome ∨ ∃ start, (topition, start) ∈ floors := by
  induction floors generalizing initial with
  | nil => simp
  | cons first rest ih =>
    rw [List.foldl_cons,ih,lowerFloor_get?]
    by_cases same : topition = first.1
    · have listed : ∃ start, (topition, start) ∈ first :: rest :=
        ⟨first.2,by simp [same]⟩
      simp [same] at listed ⊢
      tauto
    · obtain ⟨firstTopition,firstStart⟩ := first
      simp only at same
      simp [same]

/-- The first offsets of the unresolved transactions on a partition. -/
def openStarts (doc : Meta) (topition : Topition) : Set Int :=
  {start | ∃ key detail written, doc.detail? key = some detail ∧ detail.isOpen = true ∧
    detail.range topition = some written ∧ written.offsetStart = start}

lemma mem_openStarts {doc : Meta} : start ∈ doc.openStarts tp ↔ (tp, start) ∈
        ((doc.epochs.map Prod.snd).filter TxnDetail.isOpen).flatMap TxnDetail.starts := by
  simp only [openStarts,Set.mem_ofPred_eq,List.mem_flatMap,List.mem_filter,List.mem_map,
    TxnDetail.mem_starts]
  constructor
  · rintro ⟨key,detail,written,found,unresolved,inRange,rfl⟩
    exact ⟨detail,⟨⟨(key, detail),mem_epochs.mpr found,rfl⟩,unresolved⟩,written,inRange,rfl⟩
  · rintro ⟨detail,⟨⟨⟨key,found⟩,mem,rfl⟩,unresolved⟩,written,inRange,rfl⟩
    exact ⟨key,found,written,mem_epochs.mp mem,unresolved,inRange,rfl⟩

/-- A partition's floor is the least first offset of an unresolved transaction on it. -/
lemma openTransactionFloors_isLeast {doc : Meta}
    (found : doc.openTransactionFloors.get? tp = some floor) :
    IsLeast (doc.openStarts tp) floor := by
  have least := foldl_lowerFloor_isLeast tp _ _ found
  have same : doc.openStarts tp = {start | (OrderedMap.empty : OrderedMap Topition Int).get?
      tp = some start ∨ (tp, start) ∈
        ((doc.epochs.map Prod.snd).filter TxnDetail.isOpen).flatMap TxnDetail.starts} := by
    ext start
    simp [mem_openStarts]
  exact same ▸ least

lemma openTransactionFloors_eq_none {doc : Meta} :
    doc.openTransactionFloors.get? tp = Option.none ↔ doc.openStarts tp = ∅ := by
  rw [← not_isSome_iff_eq_none,openTransactionFloors,foldl_lowerFloor_isSome,
    Set.eq_empty_iff_forall_notMem]
  simp only [mem_openStarts,get?_empty]
  simp

/-- What the transaction of an epoch has produced, by partition. -/
def produced (doc : Meta) (transactionId : String) (producerId producerEpoch : Int) :
    Except ErrorCode (Topition → Option TxnProduceOffset) :=
  match doc.transactions.get? transactionId with
  | Option.none => .error .transactionalIdNotFound
  | some txn =>
    if txn.producer ≠ producerId then .error .unknownProducerId
    else
      match txn.epochs.get? producerEpoch with
      | Option.none => .error .producerFenced
      | some detail => .ok detail.range

/-- Whether another transaction wrote to a partition of the candidates below the end of
the candidate's range there.  A transaction that was never begun does not count. -/
def overlaps (candidates : Topition → Option TxnProduceOffset) (other : TxnDetail) : Bool :=
  other.state.isSome && other.starts.any (fun (topition, offsetStart) =>
    (candidates topition).any (fun candidate => offsetStart < candidate.offsetEnd))

/-- The transactions in the way of one epoch's transaction, at most one of each id: the
search of an id stops at its first epoch that overlaps. -/
def overlappingTransactions (doc : Meta) (transactionId : String)
    (producerId producerEpoch : Int) : Except ErrorCode (List TxnId) := do
  let candidates ← doc.produced transactionId producerId producerEpoch
  return doc.transactions.entries.filterMap (fun (candidateId, txn) =>
    (txn.epochs.entries.find? (fun (epoch, detail) =>
      !(transactionId = candidateId && producerId = txn.producer && producerEpoch = epoch) &&
        overlaps candidates detail)).bind (fun (epoch, detail) =>
      detail.state.map (fun state => ⟨candidateId, txn.producer, epoch, state⟩)))

end Meta

end Kodansu.Transaction

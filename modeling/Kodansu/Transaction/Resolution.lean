/-
Runs of the coordinator.  `EndTxn` is not atomic: between its two updates markers are
appended and registered and other transactions move, and it may fail there.  A transaction
whose `EndTxn` found others in its way stays prepared, and is left for a later `EndTxn` to
take along.
-/

import Kodansu.Lib.Deferral
import Kodansu.Lib.Transition
import Kodansu.Transaction.Coordinator

namespace Kodansu.Transaction

open Lib Lib.Deferral Segment List

/-- The document, and the transactions whose `EndTxn` has returned no error. -/
structure TxnRun where
  doc : Meta := {}
  returned : List (String × Int) := []

inductive TxnAction
  | initProducerId (transactionId : String) (transactionTimeoutMs : Int)
      (producerId producerEpoch : Option Int)
  | initProducerIdempotent (producerId producerEpoch : Option Int)
  | addTxnPartitions (request : TxnAddPartitionsRequest) (now : Nat)
  | produce (transactionId : String) (producerEpoch : Int) (topition : Topition)
      (offset lastOffsetDelta : Int)
  | txnOffsetCommit (request : TxnOffsetCommitRequest)
  | endTxnPrepare (transactionId : String) (producerId producerEpoch : Int) (committed : Bool)
  | endTxnResolve (transactionId : String) (producerId producerEpoch : Int) (committed : Bool)

namespace TxnRun

def isBegun (run : TxnRun) (key : String × Int) : Bool :=
  (run.doc.detail? key).any (fun detail => detail.state = some .begin)

/-- One step.  A refused request leaves the document as it is.  An `EndTxn` that fails at a
marker or at its second update, or whose process dies in between, takes no further step: the
transaction it has prepared stays as it is, and has not returned. -/
def step (run : TxnRun) : TxnAction → Option TxnRun
  | .initProducerId transactionId transactionTimeoutMs producerId producerEpoch =>
    (run.doc.initProducerId transactionId transactionTimeoutMs producerId producerEpoch).map
      (fun (_, doc) => { run with doc })
  | .initProducerIdempotent producerId producerEpoch =>
    some { run with doc := (run.doc.initProducerIdempotent producerId producerEpoch).2 }
  | .addTxnPartitions request now =>
    match run.doc.addTxnPartitions request now with
    | .error _ => some run
    | .ok (_, doc) => some { run with doc }
  | .produce transactionId producerEpoch topition offset lastOffsetDelta =>
    some { run with
      doc := run.doc.registerProduced transactionId producerEpoch topition offset lastOffsetDelta }
  | .txnOffsetCommit request => some { run with doc := (run.doc.txnOffsetCommit request).2 }
  | .endTxnPrepare transactionId producerId producerEpoch committed =>
    match run.doc.endTxnPrepare transactionId producerId producerEpoch committed with
    | .error _ => some run
    | .ok (_, doc) =>
      if run.isBegun (transactionId, producerEpoch) then
        some { doc, returned := run.returned.filter (· ≠ (transactionId, producerEpoch)) }
      else some { run with doc }
  | .endTxnResolve transactionId producerId producerEpoch committed =>
    match run.doc.endTxnResolve transactionId producerId producerEpoch committed with
    | .error _ => some run
    | .ok (_, doc) => some { doc, returned := (transactionId, producerEpoch) :: run.returned }

def system : System TxnRun TxnAction := ⟨{}, step⟩

/-- Unresolved transactions, those of them whose `EndTxn` has returned, and which
transactions have produced to a partition in common. -/
def board (run : TxnRun) : Board (String × Int) where
  live key := ∃ detail, run.doc.detail? key = some detail ∧ detail.isOpen = true
  waits key := (∃ detail, run.doc.detail? key = some detail ∧ detail.isPrepared = true) ∧
    key ∈ run.returned
  near left right := ∃ leftDetail rightDetail topition,
    run.doc.detail? left = some leftDetail ∧ run.doc.detail? right = some rightDetail ∧
      leftDetail.Holds topition ∧ rightDetail.Holds topition
  near_symm := by
    rintro left right ⟨leftDetail, rightDetail, topition, inLeft, inRight, held, alsoHeld⟩
    exact ⟨rightDetail, leftDetail, topition, inRight, inLeft, alsoHeld, held⟩

/-- Nothing hides from the transaction that is being resolved, and nothing resolved is in
its way: the unresolved transactions it reaches through common partitions overlap it,
whatever overlaps it is unresolved, and no two epochs of an id do. -/
structure Unobstructed (run : TxnRun) (key : String × Int) (detail : TxnDetail) : Prop where
  seen : ∀ other found, other ≠ key → run.doc.detail? other = some found → found.isOpen = true →
    run.board.Reached key other → Meta.overlaps detail.range found = true
  unresolved : ∀ other found, other ≠ key → run.doc.detail? other = some found →
    Meta.overlaps detail.range found = true → found.isOpen = true
  oneEpoch : ∀ left right leftFound rightFound, left ≠ key → right ≠ key → left.1 = right.1 →
    run.doc.detail? left = some leftFound → run.doc.detail? right = some rightFound →
    Meta.overlaps detail.range leftFound = true → Meta.overlaps detail.range rightFound = true →
    left = right

/-- The condition on a step: an `EndTxn` that resolves is unobstructed. -/
def Clear (run : TxnRun) : TxnAction → Prop
  | .endTxnResolve transactionId producerId producerEpoch _ =>
    ∀ detail, run.doc.currentDetail transactionId producerId producerEpoch = .ok detail →
      Unobstructed run (transactionId, producerEpoch) detail
  | _ => True

variable {run after : TxnRun}

/-- No deferred transaction is forgotten. -/
def Deferred (run : TxnRun) : Prop := run.board.Sound

lemma deferred_init : Deferred system.init := by
  rintro key ⟨detail,found,-⟩
  cases found

section

variable (deferred : Deferred run) {doc : Meta}

include deferred

/-- Steps that only open transactions, widen what they hold or prepare them. -/
lemma Deferred.advance (grows : ∀ key detail, run.doc.detail? key = some detail →
      ∃ later, after.doc.detail? key = some later ∧ (detail.isOpen = true → later.isOpen = true) ∧
        ∀ tp, detail.Holds tp → later.Holds tp)
    (prepares : ∀ key later, after.doc.detail? key = some later → later.isPrepared = true →
      key ∉ after.returned ∨
        (∃ detail, run.doc.detail? key = some detail ∧ detail.isPrepared = true) ∧
          (key ∈ after.returned → key ∈ run.returned)) : Deferred after := by
  apply Board.Sound.grow deferred
  · rintro key ⟨detail,found,isOpen⟩
    obtain ⟨later,laterFound,opens,-⟩ := grows key detail found
    exact ⟨later,laterFound,opens isOpen⟩
  · rintro left right ⟨leftDetail,rightDetail,tp,inLeft,inRight,held,alsoHeld⟩
    obtain ⟨leftLater,leftFound,-,leftHolds⟩ := grows left leftDetail inLeft
    obtain ⟨rightLater,rightFound,-,rightHolds⟩ := grows right rightDetail inRight
    exact ⟨leftLater,rightLater,tp,leftFound,rightFound,leftHolds tp held,
      rightHolds tp alsoHeld⟩
  · rintro key - ⟨⟨later,found,prepared⟩,isReturned⟩
    rcases prepares key later found prepared with starting | ⟨⟨detail,was,wasPrepared⟩,same⟩
    · exact absurd isReturned starting
    · exact ⟨⟨detail,was,TxnDetail.isOpen_of_isPrepared wasPrepared⟩,
        ⟨detail,was,wasPrepared⟩,same isReturned⟩

variable {key : String × Int} {change : TxnDetail → TxnDetail} {txn : String}
  {transactionTimeoutMs : Int} {pid epoch : Option Int} {resp : InitProducer}
  {req : TxnAddPartitionsRequest} {now : Nat} {committed : Bool}

lemma Deferred.update
    (opens : ∀ detail, run.doc.detail? key = some detail → detail.isOpen = true →
      (change detail).isOpen = true)
    (holds : ∀ detail tp, run.doc.detail? key = some detail → detail.Holds tp →
      (change detail).Holds tp)
    (prepared : ∀ detail, run.doc.detail? key = some detail → (change detail).isPrepared = true →
      detail.isPrepared = true) : Deferred { run with doc := run.doc.updateDetail key change } := by
  apply deferred.advance
  · intro other detail found
    simp only [Meta.detail?_updateDetail]
    by_cases same : other = key
    · subst same
      exact ⟨change detail,by simp [found],opens detail found,fun tp held =>
        holds detail tp found held⟩
    · exact ⟨detail,by simp [same,found],id,fun _ held => held⟩
  · intro other later found isPrepared
    simp only [Meta.detail?_updateDetail] at found
    refine Or.inr ⟨?_,id⟩
    by_cases same : other = key
    · subst same
      simp only [if_true,Option.map_eq_some_iff] at found
      obtain ⟨detail,was,rfl⟩ := found
      exact ⟨detail,was,prepared detail was isPrepared⟩
    · simp only [same,if_false] at found
      exact ⟨later,found,isPrepared⟩

lemma Deferred.initProducerId
    (res : run.doc.initProducerId txn transactionTimeoutMs pid epoch =
      some (resp, doc)) : Deferred { run with doc } := by
  apply deferred.advance
  · intro key detail found
    rcases Meta.detail?_initProducerId res key with same | ⟨absent,-⟩
    · exact ⟨detail,same.trans found,id,fun _ held => held⟩
    · cases absent.symm.trans found
  · intro key later found prepared
    rcases Meta.detail?_initProducerId res key with same | ⟨-,isNew⟩
    · exact .inr ⟨⟨later,same.symm.trans found,prepared⟩,id⟩
    · cases isNew.symm.trans found
      cases prepared

lemma Deferred.addTxnPartitions {resp : List (String × List (Int × ErrorCode))}
    (res : run.doc.addTxnPartitions req now = .ok (resp, doc)) :
    Deferred { run with doc } := by
  cases req with
  | versionFourPlus => cases res
  | versionZeroToThree txn pid epoch topics =>
    unfold Meta.addTxnPartitions at res
    simp only at res
    split at res
    · cases res
      exact deferred
    · cases res
      apply deferred.update
      · intro detail _ _
        rfl
      · intro detail tp _ held
        unfold TxnDetail.Holds at *
        rw [← TxnDetail.foldl_addPartition_range] at held
        exact held
      · exact nofun

lemma Deferred.produce (txn : String) (epoch : Int) (tp : Topition)
    (offset lastOffsetDelta : Int) :
    Deferred { run with
      doc := run.doc.registerProduced txn epoch tp offset
        lastOffsetDelta } := by
  apply deferred.update
  · intro detail _ isOpen
    exact isOpen
  · intro detail other _ held
    exact TxnDetail.register_holds held tp offset _
  · intro detail _ prepared
    exact prepared

lemma Deferred.txnOffsetCommit (req : TxnOffsetCommitRequest) :
    Deferred { run with doc := (run.doc.txnOffsetCommit req).2 } := by
  unfold Meta.txnOffsetCommit
  split
  · exact deferred
  apply deferred.update
  · intro detail _ isOpen
    unfold TxnDetail.isOpen at *
    rwa [(TxnDetail.foldl_commitOffset req.groupId _ detail).1]
  · intro detail tp _ held
    unfold TxnDetail.Holds at *
    rwa [(TxnDetail.foldl_commitOffset req.groupId _ detail).2]
  · intro detail _ prepared
    unfold TxnDetail.isPrepared at *
    rwa [(TxnDetail.foldl_commitOffset req.groupId _ detail).1] at prepared

lemma Deferred.endTxnPrepare {pid : Int} {epoch : Int}
    (moved : run.step (.endTxnPrepare txn pid epoch committed) =
      some after) : Deferred after := by
  unfold step Meta.endTxnPrepare at moved
  simp only at moved
  cases cur : run.doc.currentDetail txn pid epoch with
  | error code =>
    simp only [cur] at moved
    cases moved
    exact deferred
  | ok detail =>
    have found := Meta.detail?_of_currentDetail cur
    by_cases begun : detail.state = some .begin
    · simp only [cur,begun,if_true,isBegun,found,Option.any_some,decide_true] at moved
      cases moved
      apply deferred.advance
      · intro key known wasFound
        simp only [Meta.detail?_updateDetail]
        by_cases same : key = (txn, epoch)
        · subst same
          cases wasFound.symm.trans found
          simp only [if_true,found,Option.map_some]
          refine ⟨_,rfl,fun _ => ?_,fun _ held => held⟩
          cases committed <;> rfl
        · exact ⟨known,by simp [same,wasFound],id,fun _ held => held⟩
      · intro key later laterFound prepared
        simp only [Meta.detail?_updateDetail] at laterFound
        by_cases same : key = (txn, epoch)
        · exact .inl (by simp [same])
        · simp only [same,if_false] at laterFound
          exact .inr ⟨⟨later,laterFound,prepared⟩,by simp [same]⟩
    · simp only [cur,begun,if_false,isBegun,found,Option.any_some,decide_false,
        Bool.false_eq_true] at moved
      cases moved
      exact deferred

end

variable {key other : String × Int} {detail found : TxnDetail}

lemma near_of_overlaps (inKey : run.doc.detail? key = some detail)
    (inOther : run.doc.detail? other = some found)
    (overlapping : Meta.overlaps detail.range found = true) : run.board.near key other := by
  simp only [Meta.overlaps,Bool.and_eq_true,any_eq_true,Option.any_eq_true] at overlapping
  obtain ⟨-,⟨tp,start⟩,mem,candidate,inRange,-⟩ := overlapping
  obtain ⟨written,held,-⟩ := TxnDetail.mem_starts.mp mem
  exact ⟨detail,found,tp,inKey,inOther,by simp [TxnDetail.Holds,inRange],
    by simp [TxnDetail.Holds,held]⟩

section

variable (deferred : Deferred run)

include deferred

variable {txn : String} {pid producerEpoch : Int} {act : TxnAction}

/-- An `EndTxn` that finds a begun transaction in its way leaves its own to wait for it. -/
lemma Deferred.defer {key : String × Int} (inKey : run.doc.detail? key = some detail)
    (inOther : run.doc.detail? other = some found) (begun : found.state = some .begin)
    (overlapping : Meta.overlaps detail.range found = true) :
    Deferred { run with returned := key :: run.returned } := by
  refine Board.Sound.defer deferred key ?_ ?_ ?_ (near_of_overlaps inKey inOther overlapping) ?_ ?_
  · exact fun _ => Iff.rfl
  · exact fun _ _ => Iff.rfl
  · rintro party - ⟨prepared,isReturned⟩
    rcases mem_cons.mp isReturned with isKey | wasReturned
    · exact .inr isKey
    · exact .inl ⟨prepared,wasReturned⟩
  · exact ⟨found,inOther,(TxnDetail.isOpen_iff found).mpr (.inl begun)⟩
  · rintro ⟨⟨again,foundAgain,prepared⟩,-⟩
    cases inOther.symm.trans foundAgain
    simp [TxnDetail.isPrepared,begun,TxnState.isPrepared] at prepared

/-- An `EndTxn` with only prepared transactions in its way, and all of those it can reach
among them, resolves them together. -/
lemma Deferred.settle {doc : Meta} {named : List (String × Int)}
    (reachesNamed : ∀ other ∈ named, run.board.Reached key other)
    (namesReached : ∀ other, run.board.live other → other ≠ key → run.board.Reached key other →
      other ∈ named) (settled : ∀ other, doc.detail? other = if other ∈ named ∨ other = key
      then (run.doc.detail? other).map TxnDetail.settle else run.doc.detail? other) :
    Deferred { doc, returned := key :: run.returned } := by
  -- what is open afterwards was left alone
  have kept : ∀ other later, doc.detail? other = some later → later.isOpen = true →
      run.doc.detail? other = some later := by
    intro other later found isOpen
    rw [settled other] at found
    split at found
    · obtain ⟨before,was,rfl⟩ := Option.map_eq_some_iff.mp found
      rw [(TxnDetail.settle_isOpen isOpen).1]
      exact was
    · exact found
  have untouched : ∀ other later, doc.detail? other = some later → later.isPrepared = true →
      ¬ (other ∈ named ∨ other = key) := by
    intro other later found prepared touched
    rw [settled other,if_pos touched] at found
    obtain ⟨before,was,rfl⟩ := Option.map_eq_some_iff.mp found
    obtain ⟨same,begun⟩ := TxnDetail.settle_isOpen (TxnDetail.isOpen_of_isPrepared prepared)
    rw [same,TxnDetail.isPrepared,begun] at prepared
    cases prepared
  apply Board.Sound.settle deferred key
  · rintro other ⟨later,found,isOpen⟩
    exact ⟨later,kept other later found isOpen,isOpen⟩
  · rintro other ⟨detail,found,isOpen⟩ notReached
    have notTouched : ¬ (other ∈ named ∨ other = key) := by
      rintro (isNamed | isKey)
      · exact notReached (reachesNamed other isNamed)
      · exact notReached (isKey ▸ Relation.ReflTransGen.refl)
    exact ⟨detail,by rw [settled other,if_neg notTouched]; exact found,isOpen⟩
  · rintro left right ⟨leftLater,leftFound,leftOpen⟩ ⟨rightLater,rightFound,rightOpen⟩
      ⟨leftDetail,rightDetail,tp,inLeft,inRight,held,alsoHeld⟩
    cases (kept left leftLater leftFound leftOpen).symm.trans inLeft
    cases (kept right rightLater rightFound rightOpen).symm.trans inRight
    exact ⟨leftLater,rightLater,tp,leftFound,rightFound,held,alsoHeld⟩
  · rintro other - ⟨⟨later,found,prepared⟩,isReturned⟩
    have notTouched := untouched other later found prepared
    have isOpen := TxnDetail.isOpen_of_isPrepared prepared
    have was := kept other later found isOpen
    have notKey : other ≠ key := fun isKey => notTouched (.inr isKey)
    refine ⟨⟨⟨later,was,prepared⟩,(mem_cons.mp isReturned).resolve_left notKey⟩,?_⟩
    intro reached
    exact notTouched (.inl (namesReached other ⟨later,was,isOpen⟩ notKey reached))

lemma Deferred.endTxnResolve {committed : Bool}
    (clear : run.Clear (.endTxnResolve txn pid producerEpoch committed))
    (moved : run.step (.endTxnResolve txn pid producerEpoch committed) =
      some after) : Deferred after := by
  unfold step at moved
  simp only at moved
  cases res : run.doc.endTxnResolve txn pid producerEpoch committed with
  | error code =>
    rw [res] at moved
    cases moved
    exact deferred
  | ok outcome =>
    obtain ⟨offsets,doc⟩ := outcome
    rw [res] at moved
    cases moved
    obtain ⟨detail,named,cur,search,effect⟩ := Meta.endTxnResolve_ok res
    obtain ⟨namedAgain,searchAgain,onlyOverlapping,someEpoch⟩ :=
      Meta.overlappingTransactions_spec cur
    cases search.symm.trans searchAgain
    have inKey := Meta.detail?_of_currentDetail cur
    have clear := clear detail cur
    rcases effect with ⟨⟨txnId,mem,notPrepared⟩,rfl⟩ | ⟨allPrepared,settled⟩
    · obtain ⟨differ,other,found,hasState,overlapping⟩ := onlyOverlapping txnId mem
      have isOpen := clear.unresolved _ other differ found overlapping
      have begun : other.state = some .begin := by
        rcases (TxnDetail.isOpen_iff other).mp isOpen with begun | prepared
        · exact begun
        · rw [TxnDetail.isPrepared,hasState,Option.any_some,notPrepared] at prepared
          cases prepared
      exact deferred.defer inKey found begun overlapping
    · refine deferred.settle ?_ ?_ settled
      · intro other mem
        obtain ⟨txnId,isNamed,rfl⟩ := mem_map.mp mem
        obtain ⟨-,found,inOther,hasState,overlapping⟩ := onlyOverlapping txnId isNamed
        have prepared : found.isPrepared = true := by
          rw [TxnDetail.isPrepared,hasState]
          exact allPrepared txnId isNamed
        exact Relation.ReflTransGen.single ⟨near_of_overlaps inKey inOther overlapping,found,
          inOther,TxnDetail.isOpen_of_isPrepared prepared⟩
      · rintro other ⟨found,inOther,isOpen⟩ differ reached
        have overlapping := clear.seen other found differ inOther isOpen reached
        obtain ⟨txnId,isNamed,sameId⟩ := someEpoch other found differ inOther overlapping
        obtain ⟨namedDifferent,hit,inHit,-,hitOverlaps⟩ := onlyOverlapping txnId isNamed
        have same := clear.oneEpoch other txnId.key found hit differ namedDifferent
          sameId.symm inOther inHit overlapping hitOverlaps
        exact same ▸ mem_map_of_mem isNamed

lemma Deferred.step (clear : run.Clear act)
    (moved : run.step act = some after) : Deferred after := by
  cases act with
  | initProducerId txn transactionTimeoutMs pid epoch =>
    obtain ⟨⟨resp,doc⟩,res,rfl⟩ := Option.map_eq_some_iff.mp moved
    exact deferred.initProducerId res
  | initProducerIdempotent pid epoch =>
    cases moved
    unfold Meta.initProducerIdempotent
    split <;> exact deferred
  | addTxnPartitions req now =>
    unfold TxnRun.step at moved
    simp only at moved
    split at moved
    · cases moved
      exact deferred
    · rename_i res
      cases moved
      exact deferred.addTxnPartitions res
  | produce txn epoch tp offset lastOffsetDelta =>
    cases moved
    exact deferred.produce txn epoch tp offset lastOffsetDelta
  | txnOffsetCommit req =>
    cases moved
    exact deferred.txnOffsetCommit req
  | endTxnPrepare txn pid epoch committed =>
    exact deferred.endTxnPrepare moved
  | endTxnResolve txn pid epoch committed =>
    exact deferred.endTxnResolve clear moved

end

lemma deferred_of_reachable (reached : system.Reachable Clear run) : Deferred run :=
  reached.invariant deferred_init (fun deferred clear moved => Deferred.step deferred clear moved)

/-- No transaction is begun, and for each that produced anything `EndTxn` has returned no
error. -/
def AllEnded (run : TxnRun) : Prop :=
  ∀ entry ∈ run.doc.epochs,
    entry.2.state ≠ some .begin ∧ (entry.2.starts ≠ [] → entry.1 ∈ run.returned)

/-- A prepared transaction that has produced nothing has had its `EndTxn` return no error:
it is not between its two updates, and has not failed there. -/
def EmptyReturned (run : TxnRun) : Prop :=
  ∀ entry ∈ run.doc.epochs, entry.2.isPrepared = true → entry.2.starts = [] →
    entry.1 ∈ run.returned

/-- No transaction is prepared, and no partition has a floor. -/
def AllResolved (run : TxnRun) : Prop :=
  (∀ entry ∈ run.doc.epochs, entry.2.isPrepared = false) ∧
    run.doc.openTransactionFloors = OrderedMap.empty

instance (run : TxnRun) : Decidable (AllEnded run) :=
  inferInstanceAs (Decidable (∀ entry ∈ run.doc.epochs, _ ∧ _))

instance (run : TxnRun) : Decidable (EmptyReturned run) :=
  inferInstanceAs (Decidable (∀ entry ∈ run.doc.epochs, _ → _ → _))

instance (run : TxnRun) : Decidable (AllResolved run) :=
  inferInstanceAs (Decidable (_ ∧ _))

variable {action : TxnAction}

/-- Once every transaction has been ended, a waiting one would have nothing to wait for. -/
lemma Deferred.none_prepared (deferred : Deferred run) (ended : AllEnded run)
    (empties : EmptyReturned run) (found : run.doc.detail? key = some detail) :
    detail.isPrepared = false := by
  have returned : ∀ {other later}, run.doc.detail? other = some later →
      later.isPrepared = true → other ∈ run.returned := by
    intro other later inDoc prepared
    have inEpochs := Meta.mem_epochs.mpr inDoc
    by_cases empty : later.starts = []
    · exact empties _ inEpochs prepared empty
    · exact (ended _ inEpochs).2 empty
  cases prepared : detail.isPrepared with
  | false => rfl
  | true =>
    obtain ⟨blocker,-,⟨later,inDoc,isOpen⟩,free⟩ := deferred key
      ⟨detail,found,TxnDetail.isOpen_of_isPrepared prepared⟩
      ⟨⟨detail,found,prepared⟩,returned found prepared⟩
    rcases (TxnDetail.isOpen_iff later).mp isOpen with begun | laterPrepared
    · exact absurd begun (ended _ (Meta.mem_epochs.mpr inDoc)).1
    · exact absurd ⟨⟨later,inDoc,laterPrepared⟩,returned inDoc laterPrepared⟩ free

/-- In a run in which every resolution is unobstructed, transactions that have all been
ended, those that produced nothing included, are all resolved. -/
theorem allResolved_of_allEnded {run : TxnRun} (reached : system.Reachable Clear run)
    (ended : AllEnded run) (empties : EmptyReturned run) : AllResolved run := by
  have deferred := deferred_of_reachable reached
  have nonePrepared : ∀ entry ∈ run.doc.epochs, entry.2.isPrepared = false :=
    fun entry member => deferred.none_prepared ended empties (Meta.mem_epochs.mp member)
  refine ⟨nonePrepared,?_⟩
  have noneOpen : (run.doc.epochs.map Prod.snd).filter TxnDetail.isOpen = [] := by
    rw [filter_eq_nil_iff]
    intro detail member isOpen
    obtain ⟨entry,inEpochs,rfl⟩ := mem_map.mp member
    rcases (TxnDetail.isOpen_iff entry.2).mp isOpen with begun | prepared
    · exact (ended entry inEpochs).1 begun
    · rw [nonePrepared entry inEpochs] at prepared
      cases prepared
  simp [Meta.openTransactionFloors,noneOpen]

/-- A check that implies the condition on a step: exactly the unresolved transactions
overlap the one that is being resolved. -/
def clearCheck (run : TxnRun) : TxnAction → Bool
  | .endTxnResolve transactionId producerId producerEpoch _ =>
    match run.doc.currentDetail transactionId producerId producerEpoch with
    | .error _ => false
    | .ok detail =>
      let others := run.doc.epochs.filter (·.1 ≠ (transactionId, producerEpoch))
      others.all (fun entry => Meta.overlaps detail.range entry.2 = entry.2.isOpen) &&
        others.all (fun left => others.all (fun right => left.1.1 ≠ right.1.1 || left.1 = right.1))
  | _ => true

lemma clear_of_clearCheck (passed : run.clearCheck action = true) : run.Clear action := by
  cases action with
  | endTxnResolve txn pid epoch committed =>
    unfold clearCheck at passed
    cases cur : run.doc.currentDetail txn pid epoch with
    | error code => simp [cur] at passed
    | ok known =>
      simp only [cur,Bool.and_eq_true,all_eq_true,mem_filter,
        decide_eq_true_eq,Bool.or_eq_true] at passed
      have entry : ∀ {key found}, key ≠ (txn, epoch) →
          run.doc.detail? key = some found → (key, found) ∈ run.doc.epochs ∧
            (key, found).1 ≠ (txn, epoch) :=
        fun different found => ⟨Meta.mem_epochs.mpr found,different⟩
      rintro detail isCurrent
      cases cur.symm.trans isCurrent
      constructor
      · intro other found different inDoc isOpen _
        rw [passed.1 _ (entry different inDoc)]
        exact isOpen
      · intro other found different inDoc overlapping
        rw [← passed.1 _ (entry different inDoc)]
        exact overlapping
      · intro left right leftFound rightFound leftDiffers rightDiffers sameId inLeft inRight _ _
        have apart := passed.2 _ (entry leftDiffers inLeft) _ (entry rightDiffers inRight)
        exact apart.resolve_left (fun differ => differ sameId)
  | _ => trivial

/-- One transactional id's transaction on a partition: begin, produce one record, end with
a marker. -/
def transactionOn (transactionId : String) (producerId : Int) (topition : Topition)
    (offset marker : Int) (committed : Bool) : List TxnAction × List TxnAction :=
  ([.initProducerId transactionId 60000 (some (-1)) (some (-1)),
    .addTxnPartitions (.versionZeroToThree transactionId producerId 0
      [(topition.topic, [topition.partition])]) 0,
    .produce transactionId 0 topition offset 0],
   [.endTxnPrepare transactionId producerId 0 committed, .produce transactionId 0 topition marker 0,
    .endTxnResolve transactionId producerId 0 committed])

def interleavedCommits : List TxnAction :=
  let first := transactionOn "t1" 1 ⟨"a", 0⟩ 0 2 true
  let second := transactionOn "t2" 2 ⟨"a", 0⟩ 1 3 true
  first.1 ++ second.1 ++ first.2 ++ second.2 ++
    [.initProducerId "t3" 60000 (some (-1)) (some (-1)),
      .addTxnPartitions (.versionZeroToThree "t3" 3 0 [("a", [0])]) 0,
      .endTxnPrepare "t3" 3 0 false, .endTxnResolve "t3" 3 0 false]

/-- Two transactions interleaved on one partition: the first one's `EndTxn` leaves it
prepared, the second one's resolves both.  A third one is ended without having produced. -/
theorem allResolved_of_allEnded_interleavedCommits :
    ∃ run, system.exec clearCheck system.init interleavedCommits = some run ∧
      (AllEnded run ∧ EmptyReturned run) ∧ AllResolved run := by
  have ran : (system.exec clearCheck system.init interleavedCommits).any
      (fun run => decide (AllEnded run ∧ EmptyReturned run)) = true := by decide
  obtain ⟨run,result,ended⟩ := (Option.any_eq_true _ _).mp ran
  have reached : system.Reachable Clear run :=
    System.Reachable.init.exec clear_of_clearCheck result
  obtain ⟨allEnded,empties⟩ := of_decide_eq_true ended
  exact ⟨run,result,⟨allEnded,empties⟩,allResolved_of_allEnded reached allEnded empties⟩

def commitAfterAbort : List TxnAction :=
  let first := transactionOn "t1" 1 ⟨"a", 0⟩ 0 1 false
  let second := transactionOn "t2" 2 ⟨"a", 0⟩ 2 3 true
  first.1 ++ first.2 ++ second.1 ++ second.2

/-- A transaction committed on a partition that an aborted one has written to before it:
the aborted one's ranges, which are kept, are in its way for good. -/
theorem commitAfterAbort_stays_prepared :
    ∃ run, system.Reachable System.unguarded run ∧ (AllEnded run ∧ EmptyReturned run) ∧
      ¬ AllResolved run ∧ run.doc.openTransactionFloors.get? ⟨"a", 0⟩ = some 2 := by
  have ran : (system.exec (fun _ _ => true) system.init commitAfterAbort).any (fun run =>
      decide ((AllEnded run ∧ EmptyReturned run) ∧ ¬ AllResolved run ∧
        run.doc.openTransactionFloors.get? ⟨"a",0⟩ = some 2)) = true := by decide
  obtain ⟨run,result,facts⟩ := (Option.any_eq_true _ _).mp ran
  exact ⟨run,System.Reachable.init.exec (fun _ => trivial) result,of_decide_eq_true facts⟩

end TxnRun

end Kodansu.Transaction

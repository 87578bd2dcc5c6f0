/-
The ranges that a transactional id has registered on a partition.

The detail of an epoch has one range for each partition, which every transaction of the epoch
goes on with, or clears.  In runs in which an epoch that has aborted a transaction with records
begins no other, a range is that of one transaction, and the records of all others of the id
lie before it or after it.
-/

import Kodansu.Cluster.Markers

namespace Kodansu.Cluster

open Lib Segment Record Producer Transaction Fetch Option

variable {w after : World} {act : Act} {detail : TxnDetail}

/-! ### The condition on a run -/

structure IsOf (range : Registration) (record : Written) : Prop where
  key : range.key = record.key
  number : range.number = record.number
  topition : range.topition = record.topition
  offset : range.offset = record.batch.baseOffset
  lastOffsetDelta : range.lastOffsetDelta = record.batch.lastOffsetDelta

instance (range : Registration) (record : Written) : Decidable (IsOf range record) :=
  decidable_of_iff (range.key = record.key ∧ range.number = record.number ∧
      range.topition = record.topition ∧ range.offset = record.batch.baseOffset ∧
      range.lastOffsetDelta = record.batch.lastOffsetDelta)
    ⟨fun ⟨key, number, topition, offset, delta⟩ => ⟨key, number, topition, offset, delta⟩,
      fun isOf => ⟨isOf.key, isOf.number, isOf.topition, isOf.offset, isOf.lastOffsetDelta⟩⟩

def IsRegistered (world : World) (record : Written) : Prop :=
  ∃ range ∈ world.history.registrations, IsOf range record

/-- A produce has no control batch, and the producer id of its transactional id; what it
registers is a record of the transaction that is begun; and a transaction is ended when all of
its records are registered. -/
def InTransaction (world : World) : Task → Prop
  | .produce request => request.batch.isControl = false ∧
      ∀ transactionId ∈ request.transactionId, request.batch.isTransactional = true →
        world.doc.producer? transactionId = some request.batch.producerId
  | .acked request transactionId offset =>
    ∃ record ∈ world.history.written, record.key = (transactionId, request.batch.producerEpoch) ∧
      record.number = world.history.ended record.key ∧ record.topition = request.topition ∧
      record.batch.baseOffset = offset ∧
      record.batch.lastOffsetDelta = request.batch.lastOffsetDelta
  | .endTxn request => ∀ record ∈ world.history.written, record.key = request.key →
      record.number = world.history.ended request.key → IsRegistered world record
  | _ => True

/-- An epoch begins no transaction while one is prepared, nor after it has aborted one that has
a range; and no epoch is added while a transaction of the id is prepared. -/
def Separates (world : World) : Act → Prop
  | .addTxnPartitions (.versionZeroToThree transactionId _ producerEpoch _) _ =>
    ∀ detail ∈ world.doc.detail? (transactionId, producerEpoch),
      detail.isPrepared = false ∧ (detail.state = some .aborted → detail.starts = [])
  | .initProducerId transactionId _ _ _ =>
    ∀ entry ∈ world.doc.epochs, entry.1.1 = transactionId → entry.2.isPrepared = false
  | _ => True

structure Separate (world : World) (task : Task) (action : Act) : Prop where
  orderly : Orderly world task action
  inTransaction : action.takesEffect = true → InTransaction world task
  separates : Separates world action

instance (world : World) (record : Written) : Decidable (IsRegistered world record) :=
  inferInstanceAs (Decidable (∃ range ∈ world.history.registrations, IsOf range record))

instance (world : World) : (task : Task) → Decidable (InTransaction world task)
  | .produce _ | .acked .. | .endTxn _ | .idle | .marker .. | .marked .. | .resolve _ | .commit ..
  | .fetch _ | .stable .. | .bounded .. | .answered .. => by
    unfold InTransaction
    infer_instance

instance (world : World) (action : Act) : Decidable (Separates world action) := by
  unfold Separates
  rcases action with _ | _ | ⟨_ | _,_⟩ | _ <;> infer_instance

instance (world : World) (task : Task) (action : Act) : Decidable (Separate world task action) :=
  decidable_of_iff (Orderly world task action ∧
      (action.takesEffect = true → InTransaction world task) ∧ Separates world action)
    ⟨fun all => ⟨all.1, all.2.1, all.2.2⟩,
      fun separate => ⟨separate.orderly, separate.inTransaction, separate.separates⟩⟩

/-! ### The invariant -/

def IsActive (world : World) (key : Key) : Prop :=
  world.state key = some .begin ∨ ∃ committed, world.state key = some (preparedAs committed)

def Later (key : Key) (number : Nat) (record : Written) : Prop :=
  record.key.1 = key.1 ∧ (key.2 < record.key.2 ∨ record.key = key ∧ number < record.number)

structure Bounds (world : World) (key : Key) (topition : Topition) (range : TxnProduceOffset) :
    Prop where
  start : ∃ record ∈ world.history.written, record.key = key ∧
    record.number = world.number key ∧ record.topition = topition ∧
    record.batch.baseOffset = range.offsetStart
  beyond : ∀ record ∈ world.history.written, record.topition = topition →
    Later key (world.number key) record → range.offsetEnd < record.batch.baseOffset
  ends : range.offsetEnd < (world.partitions topition).next

structure Ranges (world : World) : Prop where
  last : ∀ key, IsActive world key → ∀ epoch, (world.doc.detail? (key.1, epoch)).isSome →
    epoch ≤ key.2
  present : ∀ record ∈ world.history.written, (world.doc.detail? record.key).isSome
  ordered : ∀ left ∈ world.history.written, ∀ right ∈ world.history.written,
    left.topition = right.topition → Later left.key left.number right →
    endOf left.batch ≤ right.batch.baseOffset
  owed : ∀ owed ∈ world.history.owed, world.state owed.key = some (preparedAs owed.committed) ∧
    owed.number + 1 = world.history.ended owed.key ∧
    (world.range owed.key owed.topition).isSome
  cleared : ∀ key, world.state key = none ∨ world.state key = some .committed →
    ∀ topition, world.range key topition = none
  bounds : ∀ key topition range, world.range key topition = some range →
    Bounds world key topition range
  covers : ∀ registered ∈ world.history.registrations,
    registered.number = world.number registered.key → world.state registered.key ≠ none →
    world.state registered.key ≠ some .committed →
    ∃ range, world.range registered.key registered.topition = some range ∧
      range.offsetStart ≤ registered.offset ∧
      registered.offset + registered.lastOffsetDelta ≤ range.offsetEnd

def Owes (world : World) : Task → Prop
  | .marker request topition rest | .marked request topition _ rest =>
    (topition :: rest).Nodup ∧ ∀ marked ∈ topition :: rest,
      ∃ owed ∈ world.history.owed, owed.call = request.call ∧ owed.topition = marked
  | _ => True

/-! ### Numbers of transactions -/

lemma number_eq (w : World) (key : Key) : w.number key =
    match w.state key with
    | none | some .begin => w.history.ended key
    | _ => w.history.ended key - 1 := by
  unfold World.number Unended World.state
  cases (w.doc.detail? key).bind TxnDetail.state with
  | none => rfl
  | some s => cases s <;> rfl

variable {key : Key} {committed : Bool} {pid : Int} {topics : List (String × List Int)} {now : Nat}

lemma number_same (s : after.state key = w.state key)
    (ended : after.history.ended key = w.history.ended key) :
    after.number key = w.number key := by
  rw [number_eq,number_eq,s,ended]

lemma number_of_begin (begun : w.state key = some .begin) :
    w.number key = w.history.ended key := by
  rw [number_eq,begun]

lemma number_of_prepared (prepared : w.state key = some (preparedAs committed)) :
    w.number key = w.history.ended key - 1 := by
  rw [number_eq,prepared]
  cases committed <;> rfl

lemma number_of_aborted (aborted : w.state key = some .aborted) :
    w.number key = w.history.ended key - 1 := by
  rw [number_eq,aborted]

lemma starts_eq_nil (empty : detail.starts = []) (tp : Topition) :
    detail.range tp = none := by
  cases found : detail.range tp with
  | none => rfl
  | some range =>
    have member := TxnDetail.mem_starts.mpr ⟨range,found,rfl⟩
    rw [empty] at member
    cases member

lemma Separates.begins (separates : Separates w (.addTxnPartitions
      (.versionZeroToThree key.1 pid key.2 topics) now))
    (cur : w.doc.currentDetail key.1 pid key.2 = .ok detail)
    (unbegun : w.state key ≠ some .begin)
    (cleared : ∀ key, w.state key = none ∨ w.state key = some .committed →
      ∀ topition, w.range key topition = none) :
    (∀ committed, w.state key ≠ some (preparedAs committed)) ∧
      ∀ topition, w.range key topition = none := by
  have found : w.doc.detail? key = some detail := Meta.detail?_of_currentDetail cur
  obtain ⟨unprepared,aborted⟩ := separates detail found
  have isState : w.state key = detail.state := by
    rw [World.state,found,bind_some]
  have isRange : ∀ topition, w.range key topition = detail.range topition := by
    intro topition
    rw [World.range,found,bind_some]
  have empty := cleared key
  rw [isState] at empty unbegun ⊢
  unfold TxnDetail.isPrepared at unprepared
  cases s : detail.state with
  | none =>
    rw [s] at empty
    exact ⟨fun _ => (some_ne_none _).symm,empty (.inl rfl)⟩
  | some isNow =>
    rw [s] at empty unprepared aborted unbegun
    cases isNow with
    | begin => exact absurd rfl unbegun
    | prepareCommit | prepareAbort => cases unprepared
    | committed =>
      refine ⟨?_,empty (.inr rfl)⟩
      intro committed same
      cases committed <;> cases same
    | aborted =>
      refine ⟨?_,fun topition => ?_⟩
      · intro committed same
        cases committed <;> cases same
      · rw [isRange]
        exact starts_eq_nil (aborted rfl) topition

/-! ### Epochs -/

section

variable {task : Task} (ranges : Ranges w) (separate : Separate w task act)
  (change : Change w task act after)

include ranges separate change

lemma Ranges.prepared_kept (prepared : w.state key = some (preparedAs committed))
    (unpaid : ¬ Paid w key) :
    after.state key = some (preparedAs committed) ∧
      after.history.ended key = w.history.ended key ∧
      ∀ tp, (w.range key tp).isSome → (after.range key tp).isSome := by
  cases change.turn key with
  | stays s range ended =>
    refine ⟨s.trans prepared,ended,fun tp isRanged => ?_⟩
    rwa [range]
  | begins isAction cur unbegun =>
    subst isAction
    exact absurd prepared ((separate.separates.begins cur unbegun ranges.cleared).1 committed)
  | registers _ _ _ s range ended | pays _ _ _ s range ended =>
    refine ⟨s.trans prepared,ended,fun tp isRanged => ?_⟩
    rw [range]
    split
    · rfl
    · exact isRanged
  | prepares _ _ _ found begun =>
    rw [World.state,found,bind_some,begun] at prepared
    cases committed <;> cases prepared
  | resolves _ isTask takes named =>
    subst isTask
    exact absurd (separate.orderly.inOrder takes key named) unpaid
  | skips before =>
    rw [before] at prepared
    cases prepared

lemma Ranges.step_owed :
    ∀ owed ∈ after.history.owed, after.state owed.key = some (preparedAs owed.committed) ∧
      owed.number + 1 = after.history.ended owed.key ∧
      (after.range owed.key owed.topition).isSome := by
  intro owed mem
  rcases change.owed_cases mem with before | ⟨req,-,-,-,-,isNow⟩
  · obtain ⟨prepared,isLast,isRanged⟩ := ranges.owed owed before
    obtain ⟨s,ended,kept⟩ := ranges.prepared_kept separate change prepared
      (fun paid => paid owed before rfl)
    exact ⟨s,isLast.trans ended.symm,kept _ isRanged⟩
  · exact isNow

end

variable {task next : Task} {known : Topition → Bool} {req : Produce} {base : Int}
  {record : Written}

lemma Change.active_inv (change : Change w task act after) (active : IsActive after key) :
    IsActive w key ∨ ∃ pid topics now detail, act = .addTxnPartitions
      (.versionZeroToThree key.1 pid key.2 topics) now ∧
      w.doc.currentDetail key.1 pid key.2 = .ok detail := by
  have kept : after.state key = w.state key → IsActive w key := by
    intro same
    rwa [IsActive,same] at active
  cases change.turn key with
  | stays s | registers _ _ _ s | pays _ _ _ s => exact .inl (kept s)
  | begins isAction cur => exact .inr ⟨_,_,_,_,isAction,cur⟩
  | prepares _ _ _ found begun =>
    refine .inl (.inl ?_)
    rw [World.state,found,bind_some,begun]
  | resolves outcome _ _ _ before => exact .inl (.inr ⟨outcome,before⟩)
  | skips _ s =>
    rw [IsActive,s] at active
    rcases active with begun | ⟨committed,prepared⟩
    · cases begun
    · cases committed <;> cases prepared

lemma step_present (step : Step known w task act after next)
    (present : (after.doc.detail? key).isSome) :
    (w.doc.detail? key).isSome ∨ ∃ txn transactionTimeoutMs pid epoch
      resp, act = .initProducerId txn transactionTimeoutMs pid epoch ∧
        w.doc.initProducerId txn transactionTimeoutMs pid epoch =
          some (resp, after.doc) := by
  have updated : ∀ {doc : Meta} {other : Key} {change : TxnDetail → TxnDetail},
      ((doc.updateDetail other change).detail? key).isSome → (doc.detail? key).isSome := by
    intro doc other change isSome
    rw [Meta.detail?_updateDetail] at isSome
    split at isSome
    · next same => rwa [isSome_map,← same] at isSome
    · exact isSome
  have effect : ∀ {index next}, Effect known index w task after next → (w.doc.detail? key).isSome := by
    intro index next effect
    cases effect with
    | registers | prepares | registersMarker => exact updated present
    | resolves res =>
      rw [resolving_spec res] at present
      split at present
      · rwa [isSome_map] at present
      · exact present
    | _ => exact present
  cases step with
  | runs ran | loses ran => exact .inl (effect ran)
  | inits res => exact .inr ⟨_,_,_,_,_,rfl,res⟩
  | @initsIdempotent pid epoch =>
    left
    simp only [Meta.initProducerIdempotent] at present
    split at present <;> exact present
  | begins => exact .inl (updated present)
  | stages cur =>
    simp only [World.txnOffsetCommit,cur,Meta.txnOffsetCommit] at present
    exact .inl (updated present)
  | _ => exact .inl present

lemma Ranges.step_last (ranges : Ranges w) (separate : Separate w task act)
    (step : Step known w task act after next) :
    ∀ key, IsActive after key → ∀ epoch, (after.doc.detail? (key.1, epoch)).isSome →
      epoch ≤ key.2 := by
  intro key active epoch present
  rcases (step_change step).active_inv active with was | ⟨_,_,_,detail,isAction,cur⟩
  · by_cases before : (w.doc.detail? (key.1, epoch)).isSome
    · exact ranges.last key was epoch before
    · rcases step_present step present with already | ⟨_,_,_,_,_,isAction,res⟩
      · exact absurd already before
      · subst isAction
        obtain ⟨rfl,unbegun⟩ := Meta.unbegun_of_added res (not_isSome_iff_eq_none.mp before)
          present
        exfalso
        rcases was with begun | ⟨committed,prepared⟩
        · obtain ⟨detail,found,isBegun⟩ := bind_eq_some_iff.mp begun
          exact unbegun key.2 detail found (ranges.last key (.inl begun)) isBegun
        · obtain ⟨detail,found,isPrepared⟩ := bind_eq_some_iff.mp prepared
          have unprepared := separate.separates (key, detail) (Meta.mem_epochs.mpr found) rfl
          rw [TxnDetail.isPrepared,isPrepared] at unprepared
          cases committed <;> cases unprepared
  · subst isAction
    apply Meta.le_of_currentDetail cur
    rcases step_present step present with already | ⟨_,_,_,_,_,impossible,-⟩
    · exact already
    · cases impossible

lemma Separate.begun (separate : Separate w (.produce req) act)
    (takes : act.takesEffect = true) (appended : Appended w req base record) :
    w.state record.key = some .begin := by
  obtain ⟨txn,isId,transactional,isKey⟩ := appended.transaction
  rw [isKey]
  exact separate.orderly.inOrder takes txn isId transactional

lemma Ranges.step_present (ranges : Ranges w) (separate : Separate w task act)
    (step : Step known w task act after next) :
    ∀ record ∈ after.history.written, (after.doc.detail? record.key).isSome := by
  intro record mem
  apply (step_doc step).detail_isSome
  rcases (step_change step).written_last separate.orderly.grows mem with before | ⟨req,isTask,takes,appended,-⟩
  · exact ranges.present record before
  · subst isTask
    obtain ⟨detail,found,-⟩ := bind_eq_some_iff.mp (separate.begun takes appended)
    rw [found]
    rfl

lemma not_later (numbered : Numbered w) (marking : Marking w)
    (last : ∀ epoch, (w.doc.detail? (key.1, epoch)).isSome → epoch ≤ key.2)
    (present : (w.doc.detail? record.key).isSome) (active : IsActive w key)
    (mem : record ∈ w.history.written) : ¬ Later key (w.number key) record := by
  rintro ⟨sameId,higher | ⟨sameKey,later⟩⟩
  · have isKey : record.key = (key.1, record.key.2) := Prod.ext sameId rfl
    rw [isKey] at present
    have bound := last _ present
    omega
  · rw [← sameKey] at active later
    rcases active with begun | ⟨committed,prepared⟩
    · have bound := (numbered.written record mem).2
      rw [number_of_begin begun] at later
      omega
    · have bound := marking.written record mem (by
        rw [prepared]
        cases committed <;> nofun)
      rw [number_of_prepared prepared] at later
      omega

lemma Ranges.step_ordered (ranges : Ranges w) (numbered : Numbered w)
    (marking : Marking w) (separate : Separate w task act)
    (change : Change w task act after) :
    ∀ left ∈ after.history.written, ∀ right ∈ after.history.written,
      left.topition = right.topition → Later left.key left.number right →
      endOf left.batch ≤ right.batch.baseOffset := by
  intro left inLeft right inRight sameTopition later
  rcases change.written_last separate.orderly.grows inLeft with leftBefore | ⟨req,isTask,takes,leftNew,-⟩
  · rcases change.written_last separate.orderly.grows inRight with rightBefore | ⟨req,-,-,rightNew,-⟩
    · exact ranges.ordered left leftBefore right rightBefore sameTopition later
    · have placed := numbered.placed _ _ (numbered.written left leftBefore).1
      rw [rightNew.batch,← rightNew.topition,← sameTopition]
      exact placed.2
  · exfalso
    subst isTask
    have begun := separate.begun takes leftNew
    rw [leftNew.number,← number_of_begin begun] at later
    rcases change.written_last separate.orderly.grows inRight with rightBefore |
      ⟨other,isTask,-,rightNew,-⟩
    · exact not_later numbered marking (ranges.last _ (.inl begun)) (ranges.present right rightBefore)
        (.inl begun) rightBefore later
    · cases isTask
      obtain ⟨leftId,isLeft,-,leftKey⟩ := leftNew.transaction
      obtain ⟨rightId,isRight,-,rightKey⟩ := rightNew.transaction
      have sameKey : right.key = left.key := by
        rw [isLeft] at isRight
        cases isRight
        exact rightKey.trans leftKey.symm
      rcases later with ⟨-,higher | ⟨-,greater⟩⟩
      · rw [sameKey] at higher
        exact lt_irrefl _ higher
      · rw [number_of_begin begun,rightNew.number,sameKey] at greater
        exact lt_irrefl _ greater

/-! ### Ranges -/

variable {before : Option TxnProduceOffset} {tp : Topition} {offset : Int} {rest : List Topition}

lemma Ranges.step_cleared (ranges : Ranges w) (separate : Separate w task act)
    (unpaid : ∀ req tp offset rest, task = .marked req tp offset rest →
      ¬ Paid w req.key)
    (change : Change w task act after) :
    ∀ key, after.state key = none ∨ after.state key = some .committed →
      ∀ tp, after.range key tp = none := by
  intro key ended tp
  cases change.turn key with
  | stays s range =>
    rw [range]
    exact ranges.cleared key (s ▸ ended) tp
  | begins _ _ _ s =>
    rw [s] at ended
    rcases ended with none | committed <;> contradiction
  | registers isTask takes isEpoch s =>
    subst isTask
    have begun := separate.orderly.inOrder takes
    rw [InOrder,IsOpen,← isEpoch] at begun
    rw [s,begun] at ended
    rcases ended with none | committed <;> contradiction
  | @prepares req _ _ _ _ _ _ s =>
    rw [s] at ended
    rcases ended with none | committed
    · cases none
    · exact absurd (Option.some.inj committed) (@preparedAs_ne_resolvedAs req.committed true)
  | pays isTask _ isKey s =>
    have owes := unpaid _ _ _ _ isTask
    simp only [Paid,not_forall,not_not] at owes
    obtain ⟨owed,mem,sameKey⟩ := owes
    have prepared := (ranges.owed owed mem).1
    rw [sameKey,isKey] at prepared
    rw [s,prepared] at ended
    rcases ended with none | committed
    · cases none
    · exact absurd (Option.some.inj committed) (@preparedAs_ne_resolvedAs owed.committed true)
  | resolves outcome _ _ _ _ s range =>
    rw [s] at ended
    rw [range]
    cases outcome with
    | true => rfl
    | false => rcases ended with none | committed <;> contradiction
  | skips _ _ range => exact range tp

lemma widen_covers (range : Option TxnProduceOffset) (offset offsetEnd : Int) :
    (widen range offset offsetEnd).offsetStart ≤ offset ∧
      offsetEnd ≤ (widen range offset offsetEnd).offsetEnd := by
  cases range with
  | none => exact ⟨le_refl _,le_refl _⟩
  | some range => exact ⟨min_le_right _ _,le_max_right _ _⟩

lemma widen_extends (range : TxnProduceOffset) (offset offsetEnd : Int) :
    (widen (some range) offset offsetEnd).offsetStart ≤ range.offsetStart ∧
      range.offsetEnd ≤ (widen (some range) offset offsetEnd).offsetEnd :=
  ⟨min_le_left _ _,le_max_left _ _⟩

lemma Bounds.kept {tp : Topition} {range : TxnProduceOffset}
    (bounds : Bounds w key tp range) (grows : Grows w task act)
    (change : Change w task act after) (same : after.number key = w.number key) :
    Bounds after key tp range where
  start := by
    obtain ⟨record,mem,isKey,isNumber,isTopition,isStart⟩ := bounds.start
    exact ⟨record,change.written_subset mem,isKey,isNumber.trans same.symm,isTopition,isStart⟩
  beyond record mem isTopition later := by
    rcases change.written_last grows mem with before | ⟨req,-,-,appended,-⟩
    · exact bounds.beyond record before isTopition (same ▸ later)
    · rw [appended.batch,← appended.topition,isTopition]
      exact bounds.ends
  ends := lt_of_lt_of_le bounds.ends (change.next_le tp)

lemma Bounds.registers (numbered : Numbered w)
    (mem : record ∈ w.history.written) (isNumber : record.number = w.number record.key)
    (bounds : ∀ range, before = some range → Bounds w record.key record.topition range) :
    let range :=
  widen before record.batch.baseOffset (record.batch.baseOffset + record.batch.lastOffsetDelta)
    (∃ first ∈ w.history.written, first.key = record.key ∧
        first.number = w.number record.key ∧ first.topition = record.topition ∧
        first.batch.baseOffset = range.offsetStart) ∧
      range.offsetEnd < (w.partitions record.topition).next := by
  have placed := (numbered.placed _ _ (numbered.written record mem).1).2
  rw [endOf,Batch.offsets] at placed
  cases before with
  | none =>
    refine ⟨⟨record,mem,rfl,isNumber,rfl,rfl⟩,?_⟩
    simp only [widen]
    omega
  | some range =>
    have old := bounds range rfl
    simp only [widen]
    constructor
    · rcases le_total range.offsetStart record.batch.baseOffset with below | above
      · rw [min_eq_left below]
        exact old.start
      · rw [min_eq_right above]
        exact ⟨record,mem,rfl,isNumber,rfl,rfl⟩
    · have ends := old.ends
      omega

lemma Owes.marked {req : EndTxn} (owes : Owes w (.marked req tp offset rest))
    (marks : Marks w (.marked req tp offset rest)) :
    ∃ owed ∈ w.history.owed, owed.key = req.key ∧ owed.topition = tp ∧
      Above w req.key owed.number tp offset := by
  obtain ⟨owed,mem,isCall,isTopition⟩ := owes.2 tp (.head _)
  obtain ⟨isKey,-⟩ := marks.1.2 owed mem isCall
  exact ⟨owed,mem,isKey,isTopition,isKey ▸ marks.2 owed mem isCall isTopition⟩

lemma Ranges.pays {req : EndTxn} (ranges : Ranges w) (numbered : Numbered w)
    (ready : Ready w (.marked req tp offset rest))
    (marks : Marks w (.marked req tp offset rest))
    (owes : Owes w (.marked req tp offset rest)) :
    let range := widen (w.range req.key tp) offset offset
    IsActive w req.key ∧ (∃ first ∈ w.history.written, first.key = req.key ∧
        first.number = w.number req.key ∧ first.topition = tp ∧
        first.batch.baseOffset = range.offsetStart) ∧
      range.offsetEnd < (w.partitions tp).next := by
  obtain ⟨owed,mem,isKey,isTopition,above⟩ := owes.marked marks
  obtain ⟨prepared,isLast,isRanged⟩ := ranges.owed owed mem
  rw [isKey] at prepared isLast
  rw [isKey,isTopition] at isRanged
  obtain ⟨before,found⟩ := isSome_iff_exists.mp isRanged
  have bounds := ranges.bounds req.key tp before found
  obtain ⟨first,inWritten,firstKey,firstNumber,firstTopition,isStart⟩ := bounds.start
  have isNumber : first.number = owed.number := by
    rw [firstNumber,number_of_prepared prepared]
    omega
  have below := above first inWritten firstKey isNumber firstTopition
  have spans := (numbered.placed _ _ (numbered.written first inWritten).1).1
  have placed := (numbered.placed _ _ ready).2
  simp only [endOf,Batch.offsets,endTransactionMarker] at placed
  have ends := bounds.ends
  rw [found]
  simp only [widen]
  refine ⟨.inr ⟨_,prepared⟩,⟨first,inWritten,firstKey,firstNumber,firstTopition,?_⟩,?_⟩
  · omega
  · omega

lemma Ranges.step_bounds (ranges : Ranges w) (numbered : Numbered w)
    (ready : Ready w task) (marks : Marks w task) (owes : Owes w task)
    (separate : Separate w task act) (change : Change w task act after)
    (later : ∀ key, IsActive after key → ∀ record ∈ after.history.written,
      ¬ Later key (after.number key) record) :
    ∀ key tp range, after.range key tp = some range →
      Bounds after key tp range := by
  intro key tp range found
  have kept : w.range key tp = some range → after.number key = w.number key →
      Bounds after key tp range :=
    fun before same => (ranges.bounds key tp range before).kept separate.orderly.grows change same
  -- the range of an active transaction may grow, since no record is of a later one
  have grown : IsActive after key → after.number key = w.number key →
      (∃ first ∈ w.history.written, first.key = key ∧ first.number = w.number key ∧
        first.topition = tp ∧ first.batch.baseOffset = range.offsetStart) ∧
        range.offsetEnd < (w.partitions tp).next → Bounds after key tp range := by
    intro active same ⟨⟨first,mem,isKey,isNumber,isTopition,isStart⟩,ends⟩
    refine ⟨⟨first,change.written_subset mem,isKey,isNumber.trans same.symm,isTopition,
      isStart⟩,?_,lt_of_lt_of_le ends (change.next_le tp)⟩
    exact fun record inWritten _ isLater => absurd isLater (later key active record inWritten)
  cases change.turn key with
  | stays s same ended => exact kept (same tp ▸ found) (number_same s ended)
  | begins isAction cur unbegun _ same =>
    subst isAction
    have empty := (separate.separates.begins cur unbegun ranges.cleared).2 tp
    rw [same,empty] at found
    cases found
  | @registers req offset isTask takes isEpoch s same ended =>
    have isNumber := number_same s ended
    rw [same] at found
    split at found
    · rename_i isTopition
      subst isTask isTopition
      have begun := separate.orderly.inOrder takes
      rw [InOrder,IsOpen,← isEpoch] at begun
      obtain ⟨record,mem,isKey,isLast,inTopition,isOffset,isDelta⟩ :=
        separate.inTransaction takes
      have sameKey : record.key = key := isKey.trans (Prod.ext rfl isEpoch.symm)
      have widened := @Bounds.registers w record (w.range key req.topition) numbered
        mem (isLast.trans (number_of_begin (sameKey ▸ begun)).symm)
        (fun range before => by
          rw [sameKey,inTopition]
          exact ranges.bounds key _ range before)
      rw [sameKey,inTopition,isOffset,isDelta,Option.some.inj found] at widened
      exact grown (.inl (s.trans begun)) isNumber widened
    · exact kept found isNumber
  | @prepares req detail _ _ _ inDoc begun s same ended =>
    refine kept (same tp ▸ found) ?_
    have wasBegun : w.state key = some .begin := by
      rw [World.state,inDoc,bind_some,begun]
    rw [number_of_prepared s,number_of_begin wasBegun,ended]
    rfl
  | @pays req marked offset rest isTask takes isKey s same ended =>
    have isNumber := number_same s ended
    rw [same] at found
    split at found
    · rename_i isTopition
      subst isTask isTopition isKey
      have widened := ranges.pays numbered ready marks owes
      rw [Option.some.inj found] at widened
      refine grown ?_ isNumber widened.2
      rw [IsActive,s]
      exact widened.1
    · exact kept found isNumber
  | resolves outcome _ _ _ before s same ended =>
    rw [same] at found
    cases outcome with
    | true => cases found
    | false =>
      refine kept found ?_
      rw [number_of_aborted s,number_of_prepared before,ended]
  | skips _ _ same =>
    rw [same] at found
    cases found

lemma Ranges.step_covers (ranges : Ranges w) (marking : Marking w)
    (change : Change w task act after) :
    ∀ registered ∈ after.history.registrations,
      registered.number = after.number registered.key → after.state registered.key ≠ none →
      after.state registered.key ≠ some .committed →
      ∃ range, after.range registered.key registered.topition = some range ∧
        range.offsetStart ≤ registered.offset ∧
        registered.offset + registered.lastOffsetDelta ≤ range.offsetEnd := by
  intro registered mem isNumber hasState uncommitted
  rcases change.registrations_inv mem with before | ⟨_,_,_,-,-,-,isRange,-⟩
  · have covered := ranges.covers registered before
    -- what covered the registration has stayed, or has been widened
    have widened : ∀ {tp : Topition} {offset offsetEnd : Int},
        after.range registered.key registered.topition = (if registered.topition = tp then
            some (widen (w.range registered.key registered.topition) offset offsetEnd)
          else w.range registered.key registered.topition) →
        after.state registered.key = w.state registered.key →
        after.history.ended registered.key = w.history.ended registered.key →
        ∃ range, after.range registered.key registered.topition = some range ∧
          range.offsetStart ≤ registered.offset ∧
          registered.offset + registered.lastOffsetDelta ≤ range.offsetEnd := by
      intro tp offset offsetEnd isNow s ended
      rw [number_same s ended] at isNumber
      rw [s] at hasState uncommitted
      obtain ⟨range,found,starts,ends⟩ := covered isNumber hasState uncommitted
      rw [found] at isNow
      split at isNow
      · obtain ⟨lower,upper⟩ := widen_extends range offset offsetEnd
        exact ⟨_,isNow,lower.trans starts,ends.trans upper⟩
      · exact ⟨range,isNow,starts,ends⟩
    cases change.turn registered.key with
    | stays s same ended =>
      rw [number_same s ended] at isNumber
      rw [s] at hasState uncommitted
      rw [same]
      exact covered isNumber hasState uncommitted
    | begins _ _ unbegun s _ ended =>
      have earlier := marking.registered registered before unbegun
      rw [number_of_begin s,ended] at isNumber
      omega
    | registers _ _ _ s same ended
    | pays _ _ _ s same ended => exact widened (same _) s ended
    | prepares _ _ _ found begun s same ended =>
      have wasBegun : w.state registered.key = some .begin := by
        rw [World.state,found,bind_some,begun]
      rw [number_of_prepared s,ended,Nat.add_sub_cancel,← number_of_begin wasBegun] at isNumber
      rw [wasBegun] at covered
      rw [same]
      exact covered isNumber (some_ne_none _) (by decide)
    | resolves outcome _ _ _ wasPrepared s same ended =>
      cases outcome with
      | true => exact absurd s uncommitted
      | false =>
        rw [number_of_aborted s,ended,← number_of_prepared wasPrepared] at isNumber
        rw [wasPrepared] at covered
        rw [same]
        exact covered isNumber (some_ne_none _) (by decide)
    | skips _ s => exact absurd s uncommitted
  · exact ⟨_,isRange,widen_covers _ _ _⟩

/-! ### Markers that are owed -/

variable {index : Folded} {other : Task}

lemma Owes.step {req : EndTxn} {topitions : List Topition}
    (owes : ∀ marked ∈ topitions, ∃ owed ∈ w.history.owed,
      owed.call = req.call ∧ owed.topition = marked)
    (change : Change w task act after)
    (mine : ∀ request' tp offset rest, task = .marked request' tp offset rest →
      request'.call = req.call → tp ∉ topitions) :
    ∀ marked ∈ topitions, ∃ owed ∈ after.history.owed,
      owed.call = req.call ∧ owed.topition = marked := by
  intro marked mem
  obtain ⟨owed,inOwed,isCall,isTopition⟩ := owes marked mem
  rcases change.owed_inv inOwed with still | ⟨request',offset,rest,isTask,sameCall⟩
  · exact ⟨owed,still,isCall,isTopition⟩
  · rw [← isTopition] at mem
    exact absurd mem (mine request' _ offset rest isTask (sameCall.symm.trans isCall))

lemma Owes.bystander (owes : Owes w other)
    (apart : Parties.TicketsApart Task.calls task other) (change : Change w task act after) :
    Owes after other := by
  have mine : ∀ {req : EndTxn} {topitions : List Topition}, req.call ∈ other.calls →
      ∀ request' tp offset rest, task = .marked request' tp offset rest →
        request'.call = req.call → tp ∉ topitions := by
    intro req topitions inOther request' tp offset rest isTask same
    subst isTask
    exact absurd (same ▸ inOther) (apart _ (.head _))
  cases other with
  | marker | marked =>
    exact ⟨owes.1,Owes.step owes.2 change (mine (.head _))⟩
  | _ => trivial

/-! ### Runs -/

variable {state : State}

lemma Ranges.step (ranges : Ranges w) (numbered : Numbered w) (ready : Ready w task)
    (marking : Marking w) (marks : Marks w task) (owes : Owes w task)
    (numberedAfter : Numbered after) (markingAfter : Marking after)
    (separate : Separate w task act) (step : Step known w task act after next) :
    Ranges after := by
  have change := step_change step
  have last := ranges.step_last separate step
  have present := ranges.step_present separate step
  refine ⟨last,present,ranges.step_ordered numbered marking separate change,
    ranges.step_owed separate change,ranges.step_cleared separate ?_ change,
    ranges.step_bounds numbered ready marks owes separate change ?_,ranges.step_covers marking change⟩
  · intro req tp offset rest isTask paid
    subst isTask
    obtain ⟨owed,mem,isKey,-⟩ := owes.marked marks
    exact paid owed mem isKey
  · intro key active record mem
    exact not_later numberedAfter markingAfter (last key active) (present record mem) active mem

end Kodansu.Cluster

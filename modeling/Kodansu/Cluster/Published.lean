/-
Transactional offsets and how their transactions were ended.

In runs in which an `EndTxn` resolves its transaction with the argument that had ended it, and
in which the groups' commits are carried through, a group gets the offsets of a transaction
exactly if the transaction was ended with commit.
-/

import Kodansu.Cluster.GroupOffsets

namespace Kodansu.Cluster

open Lib Segment Record Producer Transaction Fetch List Function OrderedMap

variable {req : EndTxn} {w after : World} {task next other : Task} {act : Act}

def Decided (world : World) (item : Staged) (committed : Bool) : Prop :=
  ⟨item.key, item.number, committed⟩ ∈ world.history.decisions

def Task.Hands (task : Task) (item : Staged) : Prop :=
  match task with
  | .commit left items => item ∈ items ∧ item.group ∈ left.map Prod.fst
  | _ => False

/-- The groups have the offsets that were applied, and nothing else; an item is applied only if
its transaction was ended with commit, and if so it is applied, or its transaction is not resolved
yet, or an `EndTxn` is about to apply it. -/
structure OffsetsAtomic (state : State) : Prop where
  groups : ∀ group topition, committedOffset state.world.groups group topition =
    latest state.world.history.applied group topition
  committed : ∀ item ∈ state.world.history.applied, Decided state.world item true
  aborted : ∀ item ∈ state.world.history.applied, ¬ Decided state.world item false
  applied : ∀ item ∈ state.world.history.staged, Decided state.world item true →
    item ∈ state.world.history.applied ∨ item ∈ state.world.history.pending ∧
        state.world.state item.key = some .prepareCommit ∨
      ∃ party, (state.party party).Hands item

/-! ### The condition on a run -/

/-- Offsets are staged, for partitions that exist, while a transaction is begun or before it is;
no transaction is begun again while it is prepared; an `EndTxn` resolves its transaction as it
was ended; and it is not cut short once it has resolved it. -/
def EndsAsDecided (known : Topition → Bool) (world : World) : Task → Act → Prop
  | .idle, .addTxnPartitions (.versionZeroToThree transactionId _ producerEpoch _) _ =>
    ∀ committed, world.state (transactionId, producerEpoch) ≠ some (preparedAs committed)
  | .idle, .txnOffsetCommit request =>
    (world.state (request.transactionId, request.producerEpoch) = none ∨
      world.state (request.transactionId, request.producerEpoch) = some .begin) ∧
    ∀ item ∈ world.stagedBy request, known item.topition = true
  | .resolve request, .run _ => ∀ committed,
      world.state request.key = some (preparedAs committed) → request.committed = committed
  | .resolve _, .lose _ => False
  | .commit _ _, .run _ => True
  | .commit _ _, _ => False
  | _, _ => True

/-! ### The invariant -/

/-- Each number of an epoch is decided once, and a prepared transaction as it is prepared. -/
structure Decisions (world : World) : Prop where
  decided : ∀ decision ∈ world.history.decisions, decision.number < world.history.ended decision.key
  unique : ∀ left ∈ world.history.decisions, ∀ right ∈ world.history.decisions,
    left.key = right.key → left.number = right.number → left.committed = right.committed
  prepared : ∀ key committed, world.state key = some (preparedAs committed) →
    ∃ number, number + 1 = world.history.ended key ∧
      ⟨key, number, committed⟩ ∈ world.history.decisions

structure Staging (known : Topition → Bool) (world : World) : Prop where
  pending : ∀ item ∈ world.history.pending, known item.topition = true ∧
    ((world.state item.key = none ∨ world.state item.key = some .begin) ∧
        item.number = world.history.ended item.key ∨
      ∃ committed, world.state item.key = some (preparedAs committed) ∧
        item.number + 1 = world.history.ended item.key)
  staged : ∀ item ∈ world.history.staged, item.number ≤ world.history.ended item.key
  current : ∀ item ∈ world.history.staged, item.number = world.history.ended item.key →
    item ∈ world.history.pending

structure Agrees (world : World) : Prop where
  offset : ∀ key group topition, world.offset key group topition =
    latest (world.pendingOf key) group topition
  applied : ∀ item ∈ world.history.applied, Decided world item true
  groups : ∀ group topition, committedOffset world.groups group topition =
    latest world.history.applied group topition

structure Offsets (known : Topition → Bool) (world : World) : Prop where
  decisions : Decisions world
  staging : Staging known world
  agrees : Agrees world

/-- What an `EndTxn` commits was staged by transactions that were ended with commit. -/
def Publishing (known : Topition → Bool) (world : World) : Task → Prop
  | .commit left items =>
    (∀ item ∈ items, Decided world item true ∧ known item.topition = true) ∧
      ∀ entry ∈ left, ∀ topition, entry.2.get? topition = latest items entry.1 topition
  | _ => True

/-! ### Decisions -/

section

def World.settled (world : World) (request : EndTxn) (doc : Meta) : World :=
  { (World.resolving world.doc request).foldl (World.settle request.committed) world with doc }

variable {key : Key} {offsets : GroupOffsets} {doc : Meta}

lemma settled_ended_lt (doc : Meta)
    (named : key ∈ (World.resolving w.doc req).map TxnId.key)
    (unbegun : Unbegun w key) :
    w.history.ended key < (w.settled req doc).history.ended key :=
  (foldl_settle_ended req.committed (World.resolving w.doc req) w key).1 named
    unbegun

variable (res : w.resolves req offsets doc)

include res

lemma settled_decisions (decision : Decision) :
    decision ∈ (w.settled req doc).history.decisions ↔ decision ∈ w.history.decisions ∨
        decision.key ∈ (World.resolving w.doc req).map TxnId.key ∧
          Unbegun w decision.key ∧ decision.number = w.history.ended decision.key ∧
          decision.committed = req.committed :=
  foldl_settle_decisions _ _ _ (resolving_ok res).2.1 decision

lemma settled_change : Change w (.resolve req) (.run {}) (w.settled req doc) :=
  resolves_change res rfl

lemma Decisions.settled (decisions : Decisions w) :
    Decisions (w.settled req doc) where
  decided decision member := by
    rcases (settled_decisions res decision).mp member with before | ⟨named,unbegun,isNumber,-⟩
    · exact lt_of_lt_of_le (decisions.decided decision before) ((settled_change res).ended_le _)
    · rw [isNumber]
      exact settled_ended_lt doc named unbegun
  unique left inLeft right inRight sameKey sameNumber := by
    rcases (settled_decisions res left).mp inLeft with leftBefore | ⟨-,-,leftNumber,leftCommitted⟩
    · rcases (settled_decisions res right).mp inRight with rightBefore | ⟨-,-,rightNumber,-⟩
      · exact decisions.unique left leftBefore right rightBefore sameKey sameNumber
      · have earlier := decisions.decided left leftBefore
        rw [sameKey] at earlier
        omega
    · rcases (settled_decisions res right).mp inRight with rightBefore | ⟨-,-,-,rightCommitted⟩
      · have earlier := decisions.decided right rightBefore
        rw [← sameKey] at earlier
        omega
      · rw [leftCommitted,rightCommitted]
  prepared key committed isState := by
    rcases (settled_change res).prepared_inv isState with ⟨was,same⟩ | ⟨_,_,impossible,-⟩
    · obtain ⟨number,isLast,member⟩ := decisions.prepared key committed was
      exact ⟨number,isLast.trans same.symm,(settled_decisions res _).mpr (.inl member)⟩
    · cases impossible

end

variable {known : Topition → Bool}

lemma Decisions.step (decisions : Decisions w)
    (change : OffsetChange known w task act after) : Decisions after := by
  have kept : after.history.decisions = w.history.decisions →
      (∀ key, after.history.ended key = w.history.ended key) →
      (∀ key committed, after.state key = some (preparedAs committed) →
        w.state key = some (preparedAs committed)) → Decisions after := by
    intro same ended prepared
    refine ⟨?_,?_,fun key committed isState => ?_⟩
    · rw [same]
      exact fun decision mem => (ended _).symm ▸ decisions.decided decision mem
    · rw [same]
      exact decisions.unique
    · rw [same,ended]
      exact decisions.prepared key committed (prepared key committed isState)
  cases change with
  | quiet _ same s ended =>
    exact kept same ended (fun key committed isState => s key ▸ isState)
  | begins _ _ _ same s ended =>
    refine kept same ended (fun key committed isState => ?_)
    rw [s] at isState
    split at isState
    · cases committed <;> cases isState
    · exact isState
  | @stages req detail _ _ cur isAfter =>
    subst isAfter
    have still := stages_still cur
    refine kept ?_ still.ended (fun key committed isState => still.state key ▸ isState)
    obtain ⟨_,_,_,same⟩ := txnOffsetCommit_same w req
    rw [same]
  | @prepares req _ _ s ended same =>
    refine ⟨fun decision mem => ?_,fun left inLeft right inRight sameKey sameNumber => ?_,
      fun key committed isState => ?_⟩
    · rw [same] at mem
      rw [ended,update_apply]
      rcases mem_append.mp mem with before | new
      · have earlier := decisions.decided decision before
        split
        · rename_i isKey
          rw [isKey] at earlier
          omega
        · exact earlier
      · rw [mem_singleton.mp new,if_pos rfl]
        exact Nat.lt_succ_self _
    · rw [same] at inLeft inRight
      rcases mem_append.mp inLeft with leftBefore | leftNew
      · rcases mem_append.mp inRight with rightBefore | rightNew
        · exact decisions.unique left leftBefore right rightBefore sameKey sameNumber
        · have earlier := decisions.decided left leftBefore
          rw [mem_singleton.mp rightNew] at sameKey sameNumber
          rw [sameKey,sameNumber] at earlier
          exact absurd earlier (Nat.lt_irrefl _)
      · rcases mem_append.mp inRight with rightBefore | rightNew
        · have earlier := decisions.decided right rightBefore
          rw [mem_singleton.mp leftNew] at sameKey sameNumber
          rw [← sameKey,← sameNumber] at earlier
          exact absurd earlier (Nat.lt_irrefl _)
        · rw [mem_singleton.mp leftNew,mem_singleton.mp rightNew]
    · rw [s] at isState
      rw [same,ended]
      split at isState
      · rename_i isKey
        have isCommitted : req.committed = committed :=
          preparedAs_inj (Option.some.inj isState)
        rw [isKey,update_self,← isCommitted]
        exact ⟨_,rfl,mem_append_right _ (mem_singleton_self _)⟩
      · rename_i elsewhere
        rw [update_of_ne elsewhere]
        obtain ⟨number,isLast,mem⟩ := decisions.prepared key committed isState
        exact ⟨number,isLast,mem_append_left _ mem⟩
  | resolves _ _ res isAfter =>
    subst isAfter
    exact decisions.settled res
  | commits _ isAfter =>
    subst isAfter
    exact kept rfl (fun _ => rfl) (fun _ _ isState => isState)

/-! ### Staged offsets -/

variable {item : Staged} {offsets : GroupOffsets} {doc : Meta} {detail : TxnDetail}

lemma mem_pendingOf : item ∈ w.pendingOf item.key ↔ item ∈ w.history.pending := by
  simp [World.pendingOf]

lemma Staging.settled (staging : Staging known w)
    (res : w.resolves req offsets doc) : Staging known (w.settled req doc) := by
  have pendingOf : ∀ key, (w.settled req doc).pendingOf key = _ :=
    foldl_settle_pendingOf req.committed (World.resolving w.doc req) w
  have staged : (w.settled req doc).history.staged = w.history.staged := by
    obtain ⟨_,_,_,_,same⟩ :=
      foldl_settle_same req.committed (World.resolving w.doc req) w
    rw [World.settled,same]
  refine ⟨fun item mem => ?_,fun item mem => ?_,fun item mem isCurrent => ?_⟩
  · rw [← mem_pendingOf,pendingOf] at mem
    split at mem
    · cases mem
    rename_i unresolved
    obtain ⟨sameDetail,sameEnded⟩ := unresolved_same res unresolved
    have sameState : (w.settled req doc).state item.key = w.state item.key := by
      exact congrArg (Option.bind · TxnDetail.state) sameDetail
    rw [sameState]
    have before := staging.pending item (mem_pendingOf.mp mem)
    rw [← sameEnded] at before
    exact before
  · exact le_trans (staging.staged item (staged ▸ mem)) ((settled_change res).ended_le _)
  · have grows := (settled_change res).ended_le item.key
    have bound := staging.staged item (staged ▸ mem)
    have before := staging.current item (staged ▸ mem) (by omega)
    rw [← mem_pendingOf,pendingOf,if_neg]
    · exact mem_pendingOf.mpr before
    · rintro ⟨named,resolves⟩
      rcases unbegun_or_prepared resolves with unbegun | ⟨committed,prepared⟩
      · have ends := settled_ended_lt doc named unbegun
        omega
      · rcases (staging.pending item before).2 with ⟨unended,-⟩ | ⟨_,-,isLast⟩
        · rw [prepared] at unended
          cases committed <;> simp [preparedAs] at unended
        · omega

lemma stagedBy_spec (w : World) (req : TxnOffsetCommitRequest) :
    ∀ item ∈ w.stagedBy req, item.key = (req.transactionId, req.producerEpoch) ∧
        item.number = w.history.ended item.key := by
  intro item mem
  rw [stagedBy_eq] at mem
  obtain ⟨pair,-,rfl⟩ := mem_map.mp mem
  exact ⟨rfl,rfl⟩

lemma txnOffsetCommit_history {req : TxnOffsetCommitRequest}
    (cur : w.stagesIn req detail) : (w.txnOffsetCommit req).history =
      ((w.stagedBy req).foldl World.stage w).history := by
  simp only [World.txnOffsetCommit,cur]

lemma Staging.stages (staging : Staging known w) {req : TxnOffsetCommitRequest}
    (cur : w.stagesIn req detail)
    (unended : w.state (req.transactionId, req.producerEpoch) = none ∨
      w.state (req.transactionId, req.producerEpoch) = some .begin)
    (allKnown : ∀ item ∈ w.stagedBy req, known item.topition = true) :
    Staging known (w.txnOffsetCommit req) := by
  have still := stages_still cur
  have spec := stagedBy_spec w req
  have members := fun item => @mem_foldl_stage item (w.stagedBy req) w
  refine ⟨fun item mem => ?_,fun item mem => ?_,?_⟩
  · rw [still.state,still.ended]
    rw [txnOffsetCommit_history cur] at mem
    rcases (members item).1 mem with new | before
    · rw [(spec item new).2,(spec item new).1]
      exact ⟨allKnown item new,.inl ⟨unended,rfl⟩⟩
    · exact staging.pending item before
  · rw [still.ended]
    rw [txnOffsetCommit_history cur] at mem
    rcases (members item).2 mem with new | before
    · exact le_of_eq (spec item new).2
    · exact staging.staged item before
  · have ended : (w.txnOffsetCommit req).history.ended = w.history.ended :=
      funext still.ended
    rw [ended,txnOffsetCommit_history cur]
    exact current_foldl_stage _ w (fun item mem => (spec item mem).2) staging.current

lemma Staging.prepares (staging : Staging known w) (same : SameOffsets w after)
    (begun : w.state req.key = some .begin)
    (s : ∀ key, after.state key = if key = req.key then some (preparedAs req.committed)
      else w.state key)
    (ended : after.history.ended = update w.history.ended req.key
      (w.history.ended req.key + 1)) : Staging known after := by
  refine ⟨fun item mem => ?_,fun item mem => ?_,fun item mem isCurrent => ?_⟩
  · obtain ⟨isKnown,before⟩ := staging.pending item (same.pending ▸ mem)
    rw [s,ended]
    by_cases isKey : item.key = req.key
    · rw [if_pos isKey,isKey,update_self]
      rw [isKey] at before
      rcases before with ⟨-,isNumber⟩ | ⟨committed,prepared,-⟩
      · exact ⟨isKnown,.inr ⟨req.committed,rfl,by omega⟩⟩
      · rw [begun] at prepared
        cases committed <;> cases prepared
    · rw [if_neg isKey,update_of_ne isKey]
      exact ⟨isKnown,before⟩
  · have bound := staging.staged item (same.staged ▸ mem)
    rw [ended,update_apply]
    split
    · rename_i isKey
      rw [isKey] at bound
      omega
    · exact bound
  · have bound := staging.staged item (same.staged ▸ mem)
    rw [ended,update_apply] at isCurrent
    rw [same.pending]
    split at isCurrent
    · rename_i isKey
      rw [isKey] at bound
      omega
    · exact staging.current item (same.staged ▸ mem) isCurrent

lemma Staging.step (staging : Staging known w) (ends : EndsAsDecided known w task act)
    (change : OffsetChange known w task act after) : Staging known after := by
  cases change with
  | quiet same _ s ended =>
    refine ⟨fun item mem => ?_,fun item mem => ?_,fun item mem => ?_⟩
    · rw [s,ended]
      exact staging.pending item (same.pending ▸ mem)
    · rw [ended]
      exact staging.staged item (same.staged ▸ mem)
    · rw [ended,same.pending]
      exact staging.current item (same.staged ▸ mem)
  | @begins txn pid epoch topics now isTask isAction same _ s ended =>
    subst isTask isAction
    refine ⟨fun item mem => ?_,fun item mem => ?_,fun item mem => ?_⟩
    · rw [s,ended]
      obtain ⟨isKnown,unended | ⟨committed,prepared,isNumber⟩⟩ :=
        staging.pending item (same.pending ▸ mem)
      · refine ⟨isKnown,.inl ⟨?_,unended.2⟩⟩
        split
        · exact .inr rfl
        · exact unended.1
      · have elsewhere : item.key ≠ (txn, epoch) :=
          fun isKey => ends committed (isKey ▸ prepared)
        rw [if_neg elsewhere]
        exact ⟨isKnown,.inr ⟨committed,prepared,isNumber⟩⟩
    · rw [ended]
      exact staging.staged item (same.staged ▸ mem)
    · rw [ended,same.pending]
      exact staging.current item (same.staged ▸ mem)
  | stages isTask isAction cur isAfter =>
    subst isTask isAction isAfter
    exact staging.stages cur ends.1 ends.2
  | prepares same begun s ended => exact staging.prepares same begun s ended
  | resolves _ _ res isAfter =>
    subst isAfter
    exact staging.settled res
  | commits _ isAfter =>
    subst isAfter
    exact ⟨staging.pending,staging.staged,staging.current⟩

/-! ### The document and the groups -/

variable {committed : Bool} {request : EndTxn} {group : String}
  {rest : List (String × OrderedMap Topition TxnCommitOffset)} {items : List Staged}

lemma OffsetChange.decided (change : OffsetChange known w task act after)
    (decided : Decided w item committed) : Decided after item committed := by
  cases change with
  | quiet _ same | begins _ _ _ same => rwa [Decided,same]
  | @stages req _ _ _ _ isAfter =>
    obtain ⟨_,_,_,same⟩ := txnOffsetCommit_same w req
    rw [isAfter,Decided,same]
    exact decided
  | prepares _ _ _ _ same =>
    rw [Decided,same]
    exact mem_append_left _ decided
  | resolves _ _ res isAfter =>
    rw [isAfter]
    exact (settled_decisions res _).mpr (.inl decided)
  | commits _ isAfter =>
    rw [isAfter]
    exact decided

lemma Agrees.stages (agrees : Agrees w) {request : TxnOffsetCommitRequest}
    (cur : w.stagesIn request detail) (key : Key) (group : String) (topition : Topition) :
    (w.txnOffsetCommit request).offset key group topition =
      latest ((w.txnOffsetCommit request).pendingOf key) group topition := by
  have found := Meta.detail?_of_currentDetail cur
  rw [World.pendingOf,txnOffsetCommit_history cur]
  simp only [World.offset,World.txnOffsetCommit,cur,Meta.txnOffsetCommit,
    Meta.detail?_updateDetail]
  split
  · rename_i isKey
    subst isKey
    rw [found,Option.map_some,Option.bind_some,stagedBy_eq]
    refine latest_foldl_stage _ w detail (fun other topition => ?_) group topition
    have before := agrees.offset (request.transactionId, request.producerEpoch) other topition
    rw [World.offset,found] at before
    exact before
  · rename_i elsewhere
    have same := latest_foldl_stage_ne key (w.stagedBy request) w
      (fun item mem isKey => elsewhere (isKey ▸ (stagedBy_spec w request item mem).1))
      group topition
    rw [World.pendingOf] at same
    rw [same]
    exact agrees.offset key group topition

lemma Agrees.settled (agrees : Agrees w)
    (res : w.resolves request offsets doc) (key : Key) (group : String) (topition : Topition) :
    (w.settled request doc).offset key group topition =
      latest ((w.settled request doc).pendingOf key) group topition := by
  have pendingOf : (w.settled request doc).pendingOf key = _ :=
    foldl_settle_pendingOf request.committed (World.resolving w.doc request) w key
  rw [pendingOf]
  split
  · rename_i both
    obtain ⟨named,resolves⟩ := both
    have changed := resolving_spec res key
    rw [if_pos named] at changed
    obtain ⟨settled,isSettled⟩ := Option.isSome_iff_exists.mp resolves
    obtain ⟨detail,found,resolved⟩ := Option.bind_eq_some_iff.mp isSettled
    have empty : settled.offsets = OrderedMap.empty := by
      unfold TxnDetail.resolved? at resolved
      split at resolved <;> cases resolved <;> rfl
    simp only [World.offset,World.settled,changed,found,Option.map_some,TxnDetail.settle,
      resolved,Option.getD_some,Option.bind_some,empty]
    rfl
  · rename_i unresolved
    have same := (unresolved_same res unresolved).1
    have before := agrees.offset key group topition
    rw [World.offset,← same] at before
    exact before

lemma committedOffset_committedGroup (w : World) (group other : String)
    (offsets : OrderedMap Topition TxnCommitOffset) (items : List Staged) (topition : Topition) :
    committedOffset (w.committedGroup known group offsets items).groups other topition =
      if other = group then
        (if known topition then offsets.get? topition else none).or
          (committedOffset w.groups other topition)
      else committedOffset w.groups other topition := by
  simp only [World.committedGroup,committedOffset,get?_upsert]
  split
  · rename_i same
    subst same
    rw [Option.bind_some,get?_foldl_insert (offsets.ascending.filter _)]
    cases w.groups.get? other <;>
      exact congrArg (Option.or · _) (get?_retain offsets known topition)
  · rfl

lemma Agrees.commits (agrees : Agrees w) {offsets : OrderedMap Topition TxnCommitOffset}
    (publishing : Publishing known w (.commit ((group, offsets) :: rest) items))
    (other : String) (topition : Topition) :
    committedOffset (w.committedGroup known group offsets items).groups other topition =
      latest (w.committedGroup known group offsets items).history.applied other topition := by
  obtain ⟨decided,agree⟩ := publishing
  rw [committedOffset_committedGroup]
  simp only [World.committedGroup,latest_append,agrees.groups]
  have ofGroup : latest (items.filter (fun item => item.group = group && known item.topition)) other
      topition = if other = group then latest items group topition else none := by
    split
    · rename_i same
      subst same
      unfold latest
      congr 2
      rw [filter_filter]
      apply filter_congr
      intro item mem
      rw [(decided item mem).2]
      by_cases isGroup : item.group = other
      · simp [isGroup]
      · simp [isGroup]
    · rename_i differs
      apply latest_eq_none
      intro item mem isOther
      have isGroup := (mem_filter.mp mem).2
      simp only [Bool.and_eq_true,decide_eq_true_eq] at isGroup
      exact absurd (isOther.symm.trans isGroup.1) differs
  rw [ofGroup]
  split
  · rename_i same
    subst same
    have offered := agree _ (.head _) topition
    simp only at offered
    rw [offered]
    cases isKnown : known topition with
    | true => rfl
    | false =>
      have none : latest items other topition = none := by
        apply latest_eq_none
        intro item mem _ isTopition
        have itemKnown := (decided item mem).2
        rw [isTopition,isKnown] at itemKnown
        cases itemKnown
      rw [none]
      rfl
  · rfl

lemma Agrees.step (agrees : Agrees w) (publishing : Publishing known w task)
    (change : OffsetChange known w task act after) : Agrees after := by
  have decided : ∀ item ∈ w.history.applied, Decided after item true :=
    fun item mem => change.decided (agrees.applied item mem)
  have kept : SameOffsets w after → Agrees after := by
    intro same
    refine ⟨fun key group topition => ?_,?_,?_⟩
    · rw [same.offset,World.pendingOf,same.pending]
      exact agrees.offset key group topition
    · rwa [same.applied]
    · rw [same.groups,same.applied]
      exact agrees.groups
  cases change with
  | quiet same | begins _ _ same | prepares same => exact kept same
  | @stages request _ _ _ cur isAfter =>
    subst isAfter
    have offset := agrees.stages cur
    obtain ⟨doc,all,pending,same⟩ := txnOffsetCommit_same w request
    rw [same] at offset decided ⊢
    exact ⟨offset,decided,agrees.groups⟩
  | @resolves request offsets doc _ _ res isAfter =>
    subst isAfter
    have offset := agrees.settled res
    obtain ⟨_,_,_,_,same⟩ :=
      foldl_settle_same request.committed (World.resolving w.doc request) w
    rw [World.settled,same] at offset
    rw [same] at decided ⊢
    exact ⟨offset,decided,agrees.groups⟩
  | commits isTask isAfter =>
    subst isTask isAfter
    refine ⟨agrees.offset,fun item mem => ?_,agrees.commits publishing⟩
    rcases mem_append.mp mem with before | new
    · exact decided item before
    · exact (publishing.1 item (mem_filter.mp new).1).1

/-! ### Publishing -/

variable {toCommit : GroupOffsets} {index : Folded}
  {entry : String × OrderedMap Topition TxnCommitOffset} {state : State}

lemma Publishing.bystander (publishing : Publishing known w other)
    (change : OffsetChange known w task act after) : Publishing known after other := by
  cases other with
  | commit left items =>
    exact ⟨fun item mem => ⟨change.decided (publishing.1 item mem).1,
      (publishing.1 item mem).2⟩,publishing.2⟩
  | _ => trivial

lemma published_decided (offsets : Offsets known w)
    (res : w.doc.endTxnResolve req.transactionId req.producerId req.producerEpoch
      req.committed = .ok (toCommit, doc))
    (ends : EndsAsDecided known w (.resolve req) (.run index)) :
    ∀ item ∈ w.published (World.resolving w.doc req),
      Decided (w.settled req doc) item true ∧ known item.topition = true := by
  intro item mem
  obtain ⟨txnId,named,inPublished⟩ := mem_flatMap.mp mem
  split at inPublished
  · rename_i resolved
    simp only [Bool.and_eq_true,decide_eq_true_eq] at resolved
    obtain ⟨settles,isCommit⟩ := resolved
    have resolves : Resolves w txnId.key := settles
    obtain ⟨inPending,isKey⟩ := mem_filter.mp inPublished
    have itemKey : item.key = txnId.key := of_decide_eq_true isKey
    obtain ⟨isKnown,number⟩ := offsets.staging.pending item inPending
    refine ⟨(settled_decisions res _).mpr ?_,isKnown⟩
    -- the transaction is prepared to commit, or was never begun and is ended by this call
    have fate : w.state item.key = some .prepareCommit ∨
        req.committed = true ∧ Unbegun w item.key := by
      rcases (resolving_ok res).2.2 txnId named with ⟨-,s⟩ | isEnding
      · exact .inl (by rw [itemKey,s,isCommit])
      · have isRequest : txnId.key = req.key := by rw [isEnding]; rfl
        have committed : req.committed = true := by
          rw [isEnding] at isCommit
          exact preparedAs_inj isCommit
        rcases unbegun_or_prepared resolves with unbegun | ⟨outcome,prepared⟩
        · exact .inr ⟨committed,itemKey ▸ unbegun⟩
        · have same := ends outcome (isRequest ▸ prepared)
          rw [itemKey,prepared,← same,committed]
          exact .inl rfl
    rcases fate with prepared | ⟨committed,unbegun⟩
    · left
      obtain ⟨last,isLast,decided⟩ := offsets.decisions.prepared item.key true prepared
      rcases number with ⟨unended,-⟩ | ⟨_,-,isNumber⟩
      · rw [prepared] at unended
        rcases unended with impossible | impossible <;> cases impossible
      · have same : item.number = last := by omega
        rw [same]
        exact decided
    · right
      refine ⟨itemKey ▸ mem_map_of_mem named,unbegun,?_,committed.symm⟩
      rcases number with ⟨-,isNumber⟩ | ⟨_,prepared,-⟩
      · exact isNumber
      · rw [state_of_unbegun unbegun] at prepared
        cases prepared
  · cases inPublished

lemma get?_of_mem_entries (mem : entry ∈ offsets.entries) (topition : Topition) :
    entry.2.get? topition = committedOffset offsets entry.1 topition := by
  rw [committedOffset,mem_entries.mp mem]
  rfl

lemma step_publishing (offsets : Offsets known w) (publishing : Publishing known w task)
    (ends : EndsAsDecided known w task act)
    (step : Step known w task act after next) : Publishing known after next := by
  cases step with
  | runs effect =>
    cases effect with
    | appends | repeats => exact acked_elim trivial (fun _ => trivial)
    | prepares | registersMarker => exact markers_elim trivial (fun _ _ => trivial)
    | resolves res =>
      refine commits_elim trivial ⟨published_decided offsets res ends,?_⟩
      intro entry mem tp
      rw [get?_of_mem_entries mem]
      exact published_agrees res offsets.agrees.offset entry.1 tp
    | commitsGroup =>
      refine commits_elim trivial ⟨publishing.1,fun entry mem => ?_⟩
      exact publishing.2 entry (.tail _ mem)
    | _ => trivial
  | ignores => cases ends
  | _ => trivial

lemma offsets_init : Offsets known ({} : World) where
  decisions := ⟨nofun,nofun,nofun⟩
  staging := ⟨nofun,nofun,nofun⟩
  agrees := ⟨fun _ _ _ => rfl,nofun,fun _ _ => rfl⟩

lemma reachable_offsets (reached : Reachable known (EndsAsDecided known) state) :
    Parties.Holds (Offsets known) (Publishing known) state := by
  refine Parties.invariant ⟨offsets_init,trivial⟩ ?_ ?_ reached
  · intro before after task next act offsets publishing ends acted
    have step := act_step acted
    have change := step_offsets step
    exact ⟨⟨offsets.decisions.step change,offsets.staging.step ends change,
      offsets.agrees.step publishing change⟩,step_publishing offsets publishing ends step⟩
  · intro before after task next other act _ _ publishing _ acted
    exact publishing.bystander (step_offsets (act_step acted))

/-! ### No item is lost -/

def Reaches (state : State) (item : Staged) : Prop :=
  item ∈ state.world.history.applied ∨
    item ∈ state.world.history.pending ∧ state.world.state item.key = some .prepareCommit ∨
    ∃ party, (state.party party).Hands item

variable {s : State}

lemma hands_step (hands : task.Hands item) (publishing : Publishing known w task)
    (ends : EndsAsDecided known w task act) (step : Step known w task act after next) :
    item ∈ after.history.applied ∨ next.Hands item := by
  cases task with
  | commit left items =>
    obtain ⟨mem,inLeft⟩ := hands
    cases step with
    | runs effect =>
      cases effect with
      | @commitsGroup group offsets rest =>
        rcases mem_cons.mp inLeft with isGroup | inRest
        · left
          apply mem_append_right
          apply mem_filter.mpr ⟨mem,?_⟩
          simp [isGroup,(publishing.1 item mem).2]
        · right
          cases rest with
          | nil => cases inRest
          | cons first rest => exact ⟨mem,inRest⟩
    | loses | ignores => cases ends
    | stops _ _ failed =>
      cases act with
      | run index => cases failed
      | _ => cases ends
  | _ => cases hands

lemma hands_of_published (agrees : Agrees w) (res : w.resolves req offsets doc)
    (mem : item ∈ w.published (World.resolving w.doc req)) :
    (World.commits (w.published (World.resolving w.doc req)) offsets.entries).Hands
      item := by
  have found := latest_isSome mem
  rw [← published_agrees res agrees.offset,committedOffset] at found
  obtain ⟨offset,isOffset⟩ := Option.isSome_iff_exists.mp found
  obtain ⟨inGroup,isGroup,-⟩ := Option.bind_eq_some_iff.mp isOffset
  have inEntries : item.group ∈ offsets.entries.map Prod.fst :=
    mem_map.mpr ⟨_,mem_entries.mpr isGroup,rfl⟩
  cases entries : offsets.entries with
  | nil =>
    rw [entries] at inEntries
    cases inEntries
  | cons first rest => exact ⟨mem,entries ▸ inEntries⟩

lemma mem_published (res : w.resolves req offsets doc)
    (ends : EndsAsDecided known w (.resolve req) (.run index))
    (pending : item ∈ w.history.pending)
    (named : item.key ∈ (World.resolving w.doc req).map TxnId.key)
    (fate : w.state item.key = some .prepareCommit ∨ Unbegun w item.key ∧ req.committed
      = true) : item ∈ w.published (World.resolving w.doc req) := by
  obtain ⟨txnId,mem,isKey⟩ := mem_map.mp named
  refine mem_flatMap.mpr ⟨txnId,mem,?_⟩
  have resolves : Resolves w txnId.key := by
    rw [isKey]
    rcases fate with prepared | ⟨unbegun,-⟩
    · have isPrepared : w.state item.key = some (preparedAs true) := prepared
      exact resolves_of_prepared isPrepared
    · exact resolves_of_unbegun unbegun
  have isCommit : txnId.state = .prepareCommit := by
    rcases (resolving_ok res).2.2 txnId mem with ⟨-,s⟩ | isEnding
    · rw [isKey] at s
      rcases fate with prepared | ⟨unbegun,-⟩
      · exact Option.some.inj (s.symm.trans prepared)
      · rw [state_of_unbegun unbegun] at s
        cases s
    · rcases fate with prepared | ⟨-,committed⟩
      · have isRequest : item.key = req.key := by rw [← isKey,isEnding]; rfl
        rw [isEnding,ends true (isRequest ▸ prepared)]
        rfl
      · rw [isEnding,committed]
        rfl
  have both : (((w.doc.detail? txnId.key).bind TxnDetail.resolved?).isSome &&
      decide (txnId.state = .prepareCommit)) = true := by
    rw [isCommit,resolves]
    rfl
  rw [if_pos both]
  exact mem_filter.mpr ⟨pending,by simp [isKey]⟩

lemma reaches_step (offsets : Offsets known w) (ends : EndsAsDecided known w task act)
    (step : Step known w task act after next) (staged : item ∈ after.history.staged)
    (decided : Decided after item true) :
    (item ∈ after.history.applied ∨
      item ∈ after.history.pending ∧ after.state item.key = some .prepareCommit ∨
      next.Hands item) ∨
    (item ∈ w.history.staged ∧ Decided w item true ∧
      (item ∈ w.history.applied → item ∈ after.history.applied) ∧
      (item ∈ w.history.pending → w.state item.key = some .prepareCommit →
        item ∈ after.history.pending ∧ after.state item.key = some .prepareCommit ∨
          next.Hands item)) := by
  cases step_offsets step with
  | quiet same decisions s =>
    rw [same.applied,same.pending,s]
    rw [Decided,decisions] at decided
    exact .inr ⟨same.staged ▸ staged,decided,id,fun pending prepared => .inl ⟨pending,prepared⟩⟩
  | begins isTask isAction same decisions s =>
    subst isTask isAction
    rw [same.applied,same.pending,s]
    rw [Decided,decisions] at decided
    refine .inr ⟨same.staged ▸ staged,decided,id,fun pending prepared => .inl ⟨pending,?_⟩⟩
    rw [if_neg]
    · exact prepared
    · exact fun isKey => ends true (isKey ▸ prepared)
  | @stages req detail isTask isAction cur isAfter =>
    subst isTask isAction isAfter
    have still := stages_still cur
    have spec := stagedBy_spec w req
    rw [still.state]
    rw [txnOffsetCommit_history cur] at staged
    have was : Decided w item true := by
      obtain ⟨_,_,_,same⟩ := txnOffsetCommit_same w req
      rw [same] at decided
      exact decided
    rcases (mem_foldl_stage (w.stagedBy req) w).2 staged with new | before
    · -- an item that is staged now is of a transaction that is not ended
      have earlier := offsets.decisions.decided _ was
      rw [(spec item new).2] at earlier
      exact absurd earlier (Nat.lt_irrefl _)
    · refine .inr ⟨before,was,fun applied => ?_,fun pending prepared => .inl ⟨?_,prepared⟩⟩
      · obtain ⟨_,_,_,same⟩ := txnOffsetCommit_same w req
        rw [same]
        exact applied
      · rw [txnOffsetCommit_history cur]
        refine pending_foldl_stage _ w (fun item mem => (spec item mem).1) ?_ pending
        intro isKey
        rw [isKey] at prepared
        rcases ends.1 with none | begun
        · rw [none] at prepared
          cases prepared
        · rw [begun] at prepared
          cases prepared
  | @prepares req same begun s ended decisions =>
    rw [same.applied,same.pending,s]
    rw [Decided,decisions] at decided
    rcases mem_append.mp decided with before | new
    · refine .inr ⟨same.staged ▸ staged,before,id,fun pending prepared => .inl ⟨pending,?_⟩⟩
      rw [if_neg]
      · exact prepared
      · intro isKey
        rw [isKey,begun] at prepared
        cases prepared
    · simp only [mem_singleton,Decision.mk.injEq] at new
      obtain ⟨isKey,isNumber,isCommitted⟩ := new
      have pending := offsets.staging.current item (same.staged ▸ staged) (isKey ▸ isNumber)
      refine .inl (.inr (.inl ⟨pending,?_⟩))
      rw [if_pos isKey,← isCommitted]
      rfl
  | @resolves req toCommit doc isTask takes res isAfter =>
    subst isTask
    obtain ⟨index,isRun⟩ : ∃ index, act = .run index := by
      cases act with
      | run index => exact ⟨index,rfl⟩
      | lose => cases ends
      | _ => cases takes
    subst isRun
    have isNext : next = World.commits (w.published (World.resolving w.doc req))
        toCommit.entries := by
      cases step with
      | runs effect =>
        cases effect with
        | resolves again =>
          rw [res] at again
          cases again
          rfl
        | refusesResolve refused =>
          rw [res] at refused
          cases refused
      | stops _ _ failed => cases failed
    have sameStaged : after.history.staged = w.history.staged ∧
        after.history.applied = w.history.applied := by
      obtain ⟨_,_,_,_,same⟩ :=
        foldl_settle_same req.committed (World.resolving w.doc req) w
      rw [isAfter,same]
      exact ⟨rfl,rfl⟩
    rw [sameStaged.1] at staged
    rw [sameStaged.2]
    subst isAfter
    rcases (settled_decisions res _).mp decided with before | ⟨named,unbegun,isNumber,isCommitted⟩
    · refine .inr ⟨staged,before,id,fun pending prepared => ?_⟩
      by_cases named : item.key ∈ (World.resolving w.doc req).map TxnId.key
      · right
        rw [isNext]
        exact hands_of_published offsets.agrees res
          (mem_published res ends pending named (.inl prepared))
      · left
        have unresolved : ¬ (item.key ∈ (World.resolving w.doc req).map TxnId.key ∧
            Resolves w item.key) := fun both => named both.1
        constructor
        · have pendingOf := foldl_settle_pendingOf req.committed
            (World.resolving w.doc req) w item.key
          rw [if_neg unresolved] at pendingOf
          apply mem_pendingOf.mp
          exact pendingOf ▸ mem_pendingOf.mpr pending
        · exact (congrArg (Option.bind · TxnDetail.state) (unresolved_same res unresolved).1).trans
            prepared
    · have pending := offsets.staging.current item staged isNumber
      refine .inl (.inr (.inr ?_))
      rw [isNext]
      exact hands_of_published offsets.agrees res
        (mem_published res ends pending named (.inr ⟨unbegun,isCommitted.symm⟩))
  | commits _ isAfter =>
    subst isAfter
    exact .inr ⟨staged,decided,fun applied => mem_append_left _ applied,
      fun pending prepared => .inl ⟨pending,prepared⟩⟩

lemma reaches (reached : Reachable known (EndsAsDecided known) s) :
    ∀ item ∈ s.world.history.staged, Decided s.world item true → Reaches s item := by
  induction reached with
  | init => nofun
  | @step before after act reached ends moved ih =>
    obtain ⟨w,next,acted,rfl⟩ := Parties.step_inv moved
    obtain ⟨offsets,publishing⟩ := reachable_offsets reached
    have step := act_step acted
    have mine : ∀ {item}, next.Hands item → Reaches
        ⟨w,update before.party act.1 next⟩ item := by
      intro item hands
      refine .inr (.inr ⟨act.1,?_⟩)
      change (update before.party act.1 next act.1).Hands item
      rw [update_self]
      exact hands
    intro item staged decided
    rcases reaches_step offsets ends step staged decided with (applied | waits | hands) |
      ⟨wasStaged,wasDecided,stillApplied,stillPending⟩
    · exact .inl applied
    · exact .inr (.inl waits)
    · exact mine hands
    · rcases ih item wasStaged wasDecided with applied | ⟨pending,prepared⟩ | ⟨party,hands⟩
      · exact .inl (stillApplied applied)
      · rcases stillPending pending prepared with waits | hands
        · exact .inr (.inl waits)
        · exact mine hands
      · by_cases acts : party = act.1
        · subst acts
          rcases hands_step hands (publishing _) ends step with applied | still
          · exact .inl applied
          · exact mine still
        · refine .inr (.inr ⟨party,?_⟩)
          change (update before.party act.1 next party).Hands item
          rw [update_of_ne acts]
          exact hands

/-- Groups get the offsets of exactly the transactions that were ended with commit, in every run
in which transactions are resolved as they were ended and the groups' commits are carried
through. -/
theorem offsets_atomic {state : State} (reached : Reachable known (EndsAsDecided known) state) :
    OffsetsAtomic state := by
  obtain ⟨offsets,-⟩ := reachable_offsets reached
  refine ⟨offsets.agrees.groups,offsets.agrees.applied,fun item member aborted => ?_,reaches reached⟩
  have committed := offsets.agrees.applied item member
  cases offsets.decisions.unique _ committed _ aborted rfl rfl

/-! ### Runs -/

instance (world : World) (task : Task) (action : Act) :
    Decidable (EndsAsDecided known world task action) := by
  unfold EndsAsDecided
  rcases task with _ | _ | _ | _ | _ | _ | _ | _ <;>
    rcases action with _ | _ | ⟨_ | _,_⟩ | _ <;> infer_instance

def stageOffset : Nat × Act :=
  (0, .txnOffsetCommit
    { transactionId := "payer", groupId := "billing", producerId := 1, producerEpoch := 0
      topics := [("payments", [(0, ⟨5, none, none⟩)])] })

def billed : Staged :=
  { key := ("payer", 0), number := 0, group := "billing", topition := payments
    offset := ⟨5, none, none⟩ }

def commitAfterFailedAbort : List (Nat × Act) :=
  beginPayment ++ [stageOffset] ++ producePayment ++
    [ (0, .endTxn "payer" 1 0 false), (0, .run {}), (0, .fail),
      (0, .endTxn "payer" 1 0 true), (0, .run {}), (0, .run {}), (0, .run {}) ]

theorem commitAfterFailedAbort_publishes :
    ∃ state, Reachable (fun _ => true) (fun _ _ _ => True) state ∧
      state.world.state ("payer", 0) = some .aborted ∧
      committedOffset state.world.groups "billing" payments = some ⟨5, none, none⟩ ∧
      ¬ OffsetsAtomic state := by
  have ended : ((cluster (fun _ => true)).ran (fun _ _ _ => True) commitAfterFailedAbort).map
      (fun state => (state.world.state ("payer", 0),
        committedOffset state.world.groups "billing" payments,
        state.world.history.applied, state.world.history.decisions)) =
      some (some .aborted, some ⟨5,none,none⟩, [billed], [⟨("payer", 0),0,false⟩]) := by
    decide +kernel
  obtain ⟨state,reached,seen⟩ := Parties.ran_reachable ended
  simp only [Prod.mk.injEq] at seen
  obtain ⟨isState,committed,applied,decisions⟩ := seen
  refine ⟨state,reached,isState,committed,fun atomic => ?_⟩
  apply atomic.aborted billed (applied ▸ mem_singleton_self _)
  rw [Decided,decisions]
  exact mem_singleton_self _

def loan : Batch := { payment 0 0 with producerId := 2 }

/-- The payer's transaction overlaps a loan's, which is not ended: its `EndTxn` leaves it
prepared.  The `EndTxn` of the loan then resolves both, and commits the payer's offset. -/
def deferredCommit : List (Nat × Act) :=
  beginPayment ++ [stageOffset] ++ producePayment ++
    [ (1, .initProducerId "lender" 60000 (some (-1)) (some (-1))),
      (1, .addTxnPartitions (.versionZeroToThree "lender" 2 0 [("payments", [0])]) 0),
      (1, .produce (some "lender") payments loan), (1, .run (paid 1)), (1, .run {}),
      (0, .endTxn "payer" 1 0 true), (0, .run {}),
      (0, .run { next := 2 }), (0, .run {}), (0, .run {}) ]

def endLoan : List (Nat × Act) :=
  [ (1, .endTxn "lender" 2 0 true), (1, .run {}), (1, .run { next := 3 }), (1, .run {}),
    (1, .run {}), (1, .run {}) ]

theorem offsets_atomic_commit :
    ∃ state, Reachable (fun _ => true) (EndsAsDecided (fun _ => true)) state ∧
      ((cluster (fun _ => true)).ran (EndsAsDecided (fun _ => true)) deferredCommit).map
        (fun deferred => (deferred.world.state ("payer", 0), deferred.world.history.applied)) =
        some (some .prepareCommit, []) ∧
      state.world.state ("payer", 0) = some .committed ∧
      state.world.history.applied = [billed] ∧ OffsetsAtomic state := by
  have ended : ((cluster (fun _ => true)).ran (EndsAsDecided (fun _ => true))
      (deferredCommit ++ endLoan)).map
      (fun state => (state.world.state ("payer", 0), state.world.history.applied)) =
      some (some .committed, [billed]) := by decide +kernel
  obtain ⟨state,reached,seen⟩ := Parties.ran_reachable ended
  obtain ⟨isState,applied⟩ := Prod.mk.inj seen
  exact ⟨state,reached,by decide +kernel,isState,applied,offsets_atomic reached⟩

end Kodansu.Cluster

/-
The offsets of consumer groups that transactions commit.

`TxnOffsetCommit` stages offsets in the detail of an epoch; the last update of an `EndTxn` hands
those of the transactions it resolves on to the groups.  Whether it does so for its own
transaction depends on the argument of the call, and not on how the transaction was ended.
-/

import Kodansu.Cluster.Numbers

namespace Kodansu.Cluster

open Lib Segment Record Producer Transaction Fetch List OrderedMap

variable {w after : World} {task next other : Task} {act : Act}

/-! ### Offsets by group and partition -/

def committedOffset (offsets : GroupOffsets) (group : String) (topition : Topition) :
    Option TxnCommitOffset :=
  (offsets.get? group).bind (fun inGroup => inGroup.get? topition)

lemma get?_foldl_insert {entries : List (Topition × TxnCommitOffset)}
    (ascending : entries.Pairwise (fun earlier later => earlier.1 < later.1))
    (map : OrderedMap Topition TxnCommitOffset) (tp : Topition) :
    (entries.foldl (fun inGroup (tp, offset) => inGroup.insert tp offset) map).get?
        tp = (entries.lookup tp).or (map.get? tp) := by
  have merged := get?_foldl_upsert (fun offset _ => offset) ascending map tp
  cases found : entries.lookup tp with
  | none | some =>
    rw [found] at merged
    exact merged

lemma committedOffset_mergeOffsets (merged offsets : GroupOffsets) (group : String)
    (tp : Topition) :
    committedOffset (Meta.mergeOffsets merged offsets) group tp =
      (committedOffset offsets group tp).or (committedOffset merged group tp) := by
  have outer := get?_foldl_upsert (fun (committed : OrderedMap Topition TxnCommitOffset)
    known => committed.entries.foldl (fun inGroup (tp, offset) =>
      inGroup.insert tp offset) (known.getD OrderedMap.empty)) offsets.ascending merged group
  have isMerged : (Meta.mergeOffsets merged offsets).get? group = _ := outer
  rw [committedOffset,isMerged]
  unfold committedOffset
  have inOffsets : offsets.get? group = offsets.entries.lookup group := rfl
  rw [inOffsets]
  cases offsets.entries.lookup group with
  | none => rfl
  | some committed =>
    simp only [Option.bind_some]
    rw [get?_foldl_insert committed.ascending]
    cases merged.get? group <;> rfl

def latest (items : List Staged) (group : String) (topition : Topition) : Option TxnCommitOffset :=
  (items.filter (fun item => item.group = group && item.topition = topition)).getLast?.map
    Staged.offset

lemma latest_append (left right : List Staged) (group : String) (tp : Topition) :
    latest (left ++ right) group tp =
      (latest right group tp).or (latest left group tp) := by
  unfold latest
  rw [filter_append,getLast?_append]
  cases (right.filter (fun item => item.group = group && item.topition = tp)).getLast? <;> rfl

variable {items : List Staged} {group : String} {tp : Topition} {item : Staged}

lemma latest_eq_none (none : ∀ item ∈ items, item.group = group → item.topition ≠ tp) :
    latest items group tp = Option.none := by
  have empty : items.filter (fun item => item.group = group && item.topition = tp) = [] := by
    rw [filter_eq_nil_iff]
    intro item mem both
    simp only [Bool.and_eq_true,decide_eq_true_eq] at both
    exact none item mem both.1 both.2
  rw [latest,empty]
  rfl

lemma latest_isSome (mem : item ∈ items) : (latest items item.group item.topition).isSome := by
  have inFilter : item ∈ items.filter (fun other =>
      other.group = item.group && other.topition = item.topition) := by simp [mem]
  rw [latest,Option.isSome_map,getLast?_isSome]
  exact ne_nil_of_mem inFilter

def World.offset (world : World) (key : Key) (group : String) (topition : Topition) :
    Option TxnCommitOffset :=
  (world.doc.detail? key).bind (fun detail => committedOffset detail.offsets group topition)

def World.pendingOf (world : World) (key : Key) : List Staged :=
  world.history.pending.filter (fun item => item.key = key)

/-! ### What a step does to offsets -/

structure SameOffsets (world after : World) : Prop where
  staged : after.history.staged = world.history.staged
  pending : after.history.pending = world.history.pending
  applied : after.history.applied = world.history.applied
  groups : after.groups = world.groups
  offset : ∀ key, after.offset key = world.offset key

inductive OffsetChange (known : Topition → Bool) (world : World) (task : Task) (action : Act)
    (after : World) : Prop
  | quiet (same : SameOffsets world after)
      (decisions : after.history.decisions = world.history.decisions)
      (state : ∀ key, after.state key = world.state key)
      (ended : ∀ key, after.history.ended key = world.history.ended key)
  | begins {transactionId : String} {producerId producerEpoch : Int}
      {topics : List (String × List Int)} {now : Nat}
      (isTask : task = .idle)
      (isAction : action = .addTxnPartitions
        (.versionZeroToThree transactionId producerId producerEpoch topics) now)
      (same : SameOffsets world after)
      (decisions : after.history.decisions = world.history.decisions)
      (state : ∀ key, after.state key =
        if key = (transactionId, producerEpoch) then some .begin else world.state key)
      (ended : ∀ key, after.history.ended key = world.history.ended key)
  | stages {request : TxnOffsetCommitRequest} {detail : TxnDetail}
      (isTask : task = .idle) (isAction : action = .txnOffsetCommit request)
      (current : world.doc.currentDetail request.transactionId request.producerId
        request.producerEpoch = .ok detail)
      (isAfter : after = world.txnOffsetCommit request)
  | prepares {request : EndTxn} (same : SameOffsets world after)
      (begun : world.state request.key = some .begin)
      (state : ∀ key, after.state key =
        if key = request.key then some (preparedAs request.committed) else world.state key)
      (ended : after.history.ended =
        Function.update world.history.ended request.key (world.history.ended request.key + 1))
      (decisions : after.history.decisions = world.history.decisions ++
        [⟨request.key, world.history.ended request.key, request.committed⟩])
  | resolves {request : EndTxn} {offsets : GroupOffsets} {doc : Meta}
      (isTask : task = .resolve request) (takes : action.takesEffect = true)
      (result : world.doc.endTxnResolve request.transactionId request.producerId
        request.producerEpoch request.committed = .ok (offsets, doc))
      (isAfter : after = { (World.resolving world.doc request).foldl
        (World.settle request.committed) world with doc })
  | commits {group : String} {offsets : OrderedMap Topition TxnCommitOffset}
      {rest : List (String × OrderedMap Topition TxnCommitOffset)} {items : List Staged}
      (isTask : task = .commit ((group, offsets) :: rest) items)
      (isAfter : after = world.committedGroup known group offsets items)

variable {partitions : Topition → Partition} {groups : GroupOffsets} {history : History}
  {known : Topition → Bool} {index : Folded}

lemma offset_updateDetail (key : Key) (change : TxnDetail → TxnDetail)
    (same : ∀ detail, (change detail).offsets = detail.offsets) (other : Key) :
    (World.mk (w.doc.updateDetail key change) partitions groups history).offset other =
      w.offset other := by
  funext group tp
  simp only [World.offset,Meta.detail?_updateDetail]
  split
  · rename_i isKey
    subst isKey
    cases w.doc.detail? other with
    | none => rfl
    | some detail => simp only [Option.map_some,Option.bind_some,same]
  · rfl

lemma SameOffsets.refl (world : World) : SameOffsets world world :=
  ⟨rfl,rfl,rfl,rfl,fun _ => rfl⟩

lemma OffsetChange.refl (world : World) : OffsetChange known world task act world :=
  .quiet (.refl world) rfl (fun _ => rfl) (fun _ => rfl)

lemma effect_offsets (effect : Effect known index w task after next)
    (takes : act.takesEffect = true) :
    OffsetChange known w task act after := by
  cases effect with
  | appends
  | marks => exact .quiet ⟨rfl,rfl,rfl,rfl,fun _ => rfl⟩ rfl (fun _ => rfl) (fun _ => rfl)
  | registers | registersMarker =>
    refine .quiet ⟨rfl,rfl,rfl,rfl,fun key => ?_⟩ rfl (fun key => ?_) (fun _ => rfl)
    · apply offset_updateDetail
      exact fun _ => rfl
    · exact state_registerProduced _ _ _ _ _ _ key
  | @prepares req detail cur begun =>
    have found : w.doc.detail? req.key = some detail :=
      Meta.detail?_of_currentDetail cur
    refine .prepares ⟨rfl,rfl,rfl,rfl,fun key => ?_⟩ ?_ (fun key => ?_) rfl rfl
    · apply offset_updateDetail
      exact fun _ => rfl
    · rw [World.state,found]
      exact begun
    · simp only [World.prepared,World.ends,World.owe,World.state,Meta.detail?_updateDetail]
      split
      · rw [found]
        rfl
      · rfl
  | resolves res => exact .resolves rfl takes res rfl
  | commitsGroup => exact .commits rfl rfl
  | _ => exact .refl w

lemma offsets_foldl_addPartition (topitions : List Topition) (detail : TxnDetail) :
    (topitions.foldl TxnDetail.addPartition detail).offsets = detail.offsets := by
  induction topitions generalizing detail with
  | nil => rfl
  | cons first rest ih => exact ih _

lemma step_offsets (step : Step known w task act after next) :
    OffsetChange known w task act after := by
  cases step with
  | runs effect | loses effect => exact effect_offsets effect rfl
  | inits res =>
    refine .quiet ⟨rfl,rfl,rfl,rfl,fun key => ?_⟩ rfl (inits_still rfl res).state (fun _ => rfl)
    funext group tp
    rcases Meta.detail?_initProducerId res key with same | ⟨absent,added⟩
    · simp only [World.offset,same]
    · simp only [World.offset,absent,added]
      rfl
  | initsIdempotent =>
    refine .quiet ⟨rfl,rfl,rfl,rfl,fun key => ?_⟩ rfl (fun key => ?_) (fun _ => rfl)
    all_goals
      unfold Meta.initProducerIdempotent
      split <;> rfl
  | @begins txn pid epoch topics now detail cur =>
    have found := Meta.detail?_of_currentDetail cur
    refine .begins rfl rfl ⟨rfl,rfl,rfl,rfl,fun key => ?_⟩ rfl (fun key => ?_) (fun _ => rfl)
    · apply offset_updateDetail
      exact fun detail => offsets_foldl_addPartition _ detail
    · simp only [World.state,Meta.detail?_updateDetail]
      split
      · rw [found]
        rfl
      · rfl
  | stages cur => exact .stages rfl rfl cur rfl
  | startsEnd | expires
  | truncates => exact .quiet ⟨rfl,rfl,rfl,rfl,fun _ => rfl⟩ rfl (fun _ => rfl) (fun _ => rfl)
  | _ => exact .refl w

/-! ### Staging -/

lemma stagedBy_eq (w : World) (request : TxnOffsetCommitRequest) :
    w.stagedBy request = (request.topics.flatMap (fun (topic, partitions) =>
        partitions.map (fun (partition, offset) => (Topition.mk topic partition, offset)))).map
      (fun (topition, offset) =>
        { key := (request.transactionId, request.producerEpoch)
          number := w.history.ended (request.transactionId, request.producerEpoch)
          group := request.groupId, topition, offset }) := by
  simp only [World.stagedBy,map_flatMap,map_map]
  rfl

lemma latest_stage (w : World) (item : Staged) (key : Key) (group : String)
    (topition : Topition) :
    latest ((w.stage item).pendingOf key) group topition =
      if key = item.key ∧ group = item.group ∧ topition = item.topition then some item.offset
      else latest (w.pendingOf key) group topition := by
  simp only [World.pendingOf,World.stage,filter_append,latest_append]
  split
  · rename_i here
    obtain ⟨rfl,rfl,rfl⟩ := here
    simp [latest]
  · rename_i elsewhere
    have last : latest ([item].filter (fun other => other.key = key)) group topition = none := by
      apply latest_eq_none
      intro other mem isGroup isTopition
      obtain ⟨isItem,isKey⟩ := mem_filter.mp mem
      cases mem_singleton.mp isItem
      exact elsewhere ⟨(of_decide_eq_true isKey).symm,isGroup.symm,isTopition.symm⟩
    rw [last,Option.none_or]
    unfold latest
    congr 2
    rw [filter_filter,filter_filter,filter_filter]
    apply filter_congr
    intro other _
    by_cases same : other.key = key ∧ other.group = group ∧ other.topition = topition
    · obtain ⟨rfl,rfl,rfl⟩ := same
      simpa [imp_iff_not_or,or_assoc] using elsewhere
    · rw [Bool.eq_iff_iff]
      simp only [Bool.and_eq_true,decide_eq_true_eq]
      constructor
      · exact fun all => absurd ⟨all.1.2,all.1.1.1,all.1.1.2⟩ same
      · exact fun all => absurd ⟨all.2,all.1.1,all.1.2⟩ same

lemma committedOffset_commitOffset (detail : TxnDetail) (group other : String)
    (tp another : Topition) (offset : TxnCommitOffset) :
    committedOffset (detail.commitOffset group tp offset).offsets other another =
      if other = group ∧ another = tp then some offset
      else committedOffset detail.offsets other another := by
  unfold committedOffset TxnDetail.commitOffset
  simp only [get?_upsert]
  by_cases sameGroup : other = group
  · subst sameGroup
    simp only [if_true,Option.bind_some,get?_insert,true_and]
    split
    · rfl
    · cases detail.offsets.get? other <;> rfl
  · simp [sameGroup]

variable {key : Key} {number : Nat} {staged : Staged}

lemma latest_foldl_stage (offsets : List (Topition × TxnCommitOffset))
    (w : World) (detail : TxnDetail)
    (agree : ∀ other topition, committedOffset detail.offsets other topition =
      latest (w.pendingOf key) other topition) (other : String) (topition : Topition) :
    committedOffset (offsets.foldl (fun changed (topition, offset) =>
        changed.commitOffset group topition offset) detail).offsets other topition =
      latest (((offsets.map (fun (topition, offset) =>
        ({ key, number, group, topition, offset } : Staged))).foldl World.stage w).pendingOf key)
        other topition := by
  induction offsets generalizing w detail with
  | nil => exact agree other topition
  | cons first rest ih =>
    refine ih _ _ (fun other topition => ?_)
    simp only [committedOffset_commitOffset,latest_stage,true_and,agree]

lemma latest_foldl_stage_ne (key : Key) (items : List Staged) (w : World)
    (elsewhere : ∀ item ∈ items, item.key ≠ key) (group : String) (topition : Topition) :
    latest ((items.foldl World.stage w).pendingOf key) group topition =
      latest (w.pendingOf key) group topition := by
  induction items generalizing w with
  | nil => rfl
  | cons first rest ih =>
    rw [foldl_cons,ih _ (fun item mem => elsewhere item (mem_cons_of_mem _ mem)),
      latest_stage,if_neg]
    exact fun here => elsewhere first (.head _) here.1.symm

lemma mem_pending_stage (mem : item ∈ (w.stage staged).history.pending) :
    item = staged ∨ item ∈ w.history.pending := by
  rcases mem_append.mp mem with kept | new
  · exact .inr (mem_filter.mp kept).1
  · exact .inl (mem_singleton.mp new)

lemma mem_staged_stage (mem : item ∈ (w.stage staged).history.staged) :
    item = staged ∨ item ∈ w.history.staged := by
  rcases mem_append.mp mem with kept | new
  · exact .inr (mem_filter.mp kept).1
  · exact .inl (mem_singleton.mp new)

lemma mem_foldl_stage (items : List Staged) (w : World) :
    (item ∈ (items.foldl World.stage w).history.pending →
      item ∈ items ∨ item ∈ w.history.pending) ∧
    (item ∈ (items.foldl World.stage w).history.staged →
      item ∈ items ∨ item ∈ w.history.staged) := by
  induction items generalizing w with
  | nil => exact ⟨.inr,.inr⟩
  | cons first rest ih =>
    obtain ⟨pending,staged⟩ := ih (w.stage first)
    constructor
    · intro mem
      rcases pending mem with inRest | before
      · exact .inl (.tail _ inRest)
      · rcases mem_pending_stage before with isFirst | was
        · exact .inl (isFirst ▸ (.head _))
        · exact .inr was
    · intro mem
      rcases staged mem with inRest | before
      · exact .inl (.tail _ inRest)
      · rcases mem_staged_stage before with isFirst | was
        · exact .inl (isFirst ▸ (.head _))
        · exact .inr was

lemma pending_foldl_stage (items : List Staged) (w : World)
    (isKey : ∀ item ∈ items, item.key = key) (elsewhere : item.key ≠ key)
    (before : item ∈ w.history.pending) :
    item ∈ (items.foldl World.stage w).history.pending := by
  induction items generalizing w with
  | nil => exact before
  | cons first rest ih =>
    refine ih _ (fun item mem => isKey item (.tail _ mem)) ?_
    apply mem_append_left
    apply mem_filter.mpr ⟨before,?_⟩
    have differs : item.key ≠ first.key := fun same =>
      elsewhere (same.trans (isKey first (.head _)))
    simp [differs]

lemma current_foldl_stage {number : Key → Nat} (items : List Staged) (w : World)
    (isNumber : ∀ item ∈ items, item.number = number item.key)
    (cur : ∀ item ∈ w.history.staged, item.number = number item.key →
      item ∈ w.history.pending) :
    ∀ item ∈ (items.foldl World.stage w).history.staged, item.number = number item.key →
      item ∈ (items.foldl World.stage w).history.pending := by
  induction items generalizing w with
  | nil => exact cur
  | cons first rest ih =>
    refine ih _ (fun item mem => isNumber item (.tail _ mem)) ?_
    intro item mem isCurrent
    rcases mem_append.mp mem with kept | new
    · obtain ⟨before,keeps⟩ := mem_filter.mp kept
      apply mem_append_left
      apply mem_filter.mpr ⟨cur item before isCurrent,?_⟩
      rcases Bool.or_eq_true_iff.mp keeps with still | earlier
      · exact still
      · -- an item that is cur gives way to none of another transaction
        have elsewhere : item.key ≠ first.key := by
          intro same
          apply of_decide_eq_true earlier
          rw [isCurrent,same,isNumber first mem_cons_self]
        simp [elsewhere]
    · exact mem_append_right _ new

/-! ### Resolution -/

def Resolves (world : World) (key : Key) : Prop :=
  ((world.doc.detail? key).bind TxnDetail.resolved?).isSome = true

instance (world : World) (key : Key) : Decidable (Resolves world key) :=
  inferInstanceAs (Decidable (_ = true))

def Unbegun (world : World) (key : Key) : Prop :=
  (world.doc.detail? key).any (fun detail => detail.state = none) = true

instance (world : World) (key : Key) : Decidable (Unbegun world key) :=
  inferInstanceAs (Decidable (_ = true))

lemma settle_pendingOf (committed : Bool) (w : World) (txnId : TxnId) (key : Key) :
    (w.settle committed txnId).pendingOf key =
      if key = txnId.key ∧ Resolves w key then [] else w.pendingOf key := by
  have removed : ∀ items : List Staged,
      (items.filter (fun item => item.key ≠ txnId.key)).filter (fun item => item.key = key) =
        if key = txnId.key then [] else items.filter (fun item => item.key = key) := by
    intro items
    rw [filter_filter]
    split
    · rename_i same
      rw [filter_eq_nil_iff]
      intro item _
      simp [same]
    · rename_i differs
      apply filter_congr
      intro item _
      by_cases isKey : item.key = key
      · simp [isKey,differs]
      · simp [isKey]
  unfold World.settle Resolves
  cases found : w.doc.detail? txnId.key with
  | none =>
    rw [if_neg]
    rintro ⟨rfl,resolves⟩
    simp [found] at resolves
  | some detail =>
    cases resolved : detail.resolved? with
    | none =>
      simp only [resolved]
      rw [if_neg]
      rintro ⟨rfl,resolves⟩
      simp [found,resolved] at resolves
    | some after =>
      have kept : ∀ ended : World, ended.history.pending = w.history.pending →
          World.pendingOf { ended with history := { ended.history with
            outcomes := ended.history.outcomes ++ [⟨txnId.key,w.number txnId.key,
              after.state = some .committed⟩]
            pending := ended.history.pending.filter (fun staged => staged.key ≠ txnId.key) } }
            key = if key = txnId.key ∧ ((w.doc.detail? key).bind
              TxnDetail.resolved?).isSome = true then [] else w.pendingOf key := by
        intro ended same
        simp only [World.pendingOf,same,removed]
        by_cases isKey : key = txnId.key
        · subst isKey
          simp [found,resolved]
        · simp [isKey]
      simp only [resolved]
      split
      · exact kept (w.ends txnId.key committed) rfl
      · exact kept w rfl

lemma foldl_settle_pendingOf (committed : Bool) (txnIds : List TxnId) (w : World)
    (key : Key) :
    (txnIds.foldl (World.settle committed) w).pendingOf key =
      if key ∈ txnIds.map TxnId.key ∧ Resolves w key then [] else w.pendingOf key := by
  induction txnIds generalizing w with
  | nil => simp
  | cons first rest ih =>
    have same : Resolves (w.settle committed first) key ↔ Resolves w key := by
      rw [Resolves,settle_doc]
      rfl
    rw [foldl_cons,ih,settle_pendingOf]
    simp only [map_cons,mem_cons,same]
    by_cases resolves : Resolves w key
    · simp only [resolves,and_true]
      by_cases isFirst : key = first.key
      · rw [if_pos isFirst,ite_self,if_pos (.inl isFirst)]
      · simp only [isFirst,false_or,if_false]
    · simp only [resolves,and_false,if_false]

lemma settle_decisions (committed : Bool) (w : World) (txnId : TxnId) :
    (w.settle committed txnId).history.decisions =
      if Unbegun w txnId.key then w.history.decisions ++
        [⟨txnId.key, w.history.ended txnId.key, committed⟩]
      else w.history.decisions := by
  unfold World.settle
  cases found : w.doc.detail? txnId.key with
  | none => rw [if_neg (by simp [Unbegun,found])]
  | some detail =>
    cases s : detail.state with
    | none =>
      rw [if_pos (by simp [Unbegun,found,s])]
      simp [TxnDetail.resolved?,s,World.ends]
    | some isState =>
      rw [if_neg (by simp [Unbegun,found,s])]
      cases isState <;> simp [TxnDetail.resolved?,s]

lemma foldl_settle_decisions (committed : Bool) (txnIds : List TxnId) (w : World)
    (distinct : (txnIds.map TxnId.key).Nodup) (decision : Decision) :
    decision ∈ (txnIds.foldl (World.settle committed) w).history.decisions ↔
      decision ∈ w.history.decisions ∨
        decision.key ∈ txnIds.map TxnId.key ∧ Unbegun w decision.key ∧
          decision.number = w.history.ended decision.key ∧ decision.committed = committed := by
  induction txnIds generalizing w with
  | nil => simp
  | cons first rest ih =>
    obtain ⟨notInRest,restDistinct⟩ := nodup_cons.mp distinct
    have unbegun : ∀ key, Unbegun (w.settle committed first) key ↔ Unbegun w key := by
      intro key
      rw [Unbegun,settle_doc]
      rfl
    have ended : ∀ key ∈ rest.map TxnId.key,
        (w.settle committed first).history.ended key = w.history.ended key := by
      intro key inRest
      rw [settle_ended,if_neg]
      exact fun both => notInRest (both.1 ▸ inRest)
    rw [foldl_cons,ih _ restDistinct,settle_decisions]
    simp only [unbegun,map_cons,mem_cons]
    constructor
    · rintro (now | ⟨inRest,wasUnbegun,isNumber,isCommitted⟩)
      · split at now
        · rename_i firstUnbegun
          rcases mem_append.mp now with before | new
          · exact .inl before
          · cases mem_singleton.mp new
            exact .inr ⟨.inl rfl,firstUnbegun,rfl,rfl⟩
        · exact .inl now
      · exact .inr ⟨.inr inRest,wasUnbegun,ended _ inRest ▸ isNumber,isCommitted⟩
    · rintro (before | ⟨isFirst | inRest,wasUnbegun,isNumber,isCommitted⟩)
      · left
        split
        · exact mem_append_left _ before
        · exact before
      · left
        rw [isFirst] at wasUnbegun isNumber
        rw [if_pos wasUnbegun]
        apply mem_append_right
        cases decision
        simp_all
      · exact .inr ⟨inRest,wasUnbegun,(ended _ inRest).symm ▸ isNumber,isCommitted⟩

variable {req request : EndTxn} {offsets : GroupOffsets} {doc : Meta} {committed : Bool}

lemma resolving_ok (res : w.resolves req offsets doc) : (doc, offsets) =
      (World.resolving w.doc req).foldl Meta.resolveOne (w.doc, OrderedMap.empty) ∧
    ((World.resolving w.doc req).map TxnId.key).Nodup ∧
    ∀ txnId ∈ World.resolving w.doc req,
      (txnId.key ≠ req.key ∧ w.state txnId.key = some txnId.state) ∨
      txnId = ⟨req.transactionId, req.producerId, req.producerEpoch,
        preparedAs req.committed⟩ := by
  obtain ⟨detail,named,cur,search,-⟩ := Meta.endTxnResolve_ok res
  obtain ⟨named',search',isNamed,-⟩ := Meta.overlappingTransactions_spec cur
  rw [search] at search'
  cases search'
  have pairwise := Meta.overlappingTransactions_pairwise search
  unfold World.resolves Meta.endTxnResolve at res
  rw [cur,search] at res
  unfold World.resolving
  rw [search]
  simp only
  change (if named.all _ then _ else _) = _ at res
  split at res
  · rename_i all
    cases res
    rw [if_pos all]
    refine ⟨rfl,?_,?_⟩
    · rw [map_append,nodup_append]
      refine ⟨?_,by simp,?_⟩
      · exact pairwise_map.mpr (pairwise.imp (fun differs same => differs (Prod.mk.inj same).1))
      · intro key inNamed other isEnding same
        obtain ⟨txnId,mem,rfl⟩ := mem_map.mp inNamed
        simp only [map_cons,map_nil,mem_singleton] at isEnding
        exact (isNamed txnId mem).1 (same.trans isEnding)
    · intro txnId mem
      rcases mem_append.mp mem with inNamed | isEnding
      · obtain ⟨elsewhere,other,found,s,-⟩ := isNamed txnId inNamed
        refine .inl ⟨elsewhere,?_⟩
        rw [World.state,found]
        exact s
      · exact .inr (mem_singleton.mp isEnding)
  · rename_i notAll
    cases res
    rw [if_neg notAll]
    exact ⟨rfl,nodup_nil,forall_mem_nil _⟩

lemma foldl_resolveOne_published (txnIds : List TxnId) (progress : Meta × GroupOffsets)
    (done : List Staged) (distinct : (txnIds.map TxnId.key).Nodup)
    (kept : ∀ txnId ∈ txnIds, progress.1.detail? txnId.key = w.doc.detail? txnId.key)
    (agree : ∀ key group topition, w.offset key group topition =
      latest (w.pendingOf key) group topition)
    (before : ∀ group topition, committedOffset progress.2 group topition =
      latest done group topition) (group : String) (topition : Topition) :
    committedOffset (txnIds.foldl Meta.resolveOne progress).2 group topition =
      latest (done ++ w.published txnIds) group topition := by
  induction txnIds generalizing progress done with
  | nil =>
    rw [foldl_nil,before]
    simp [World.published]
  | cons first rest ih =>
    obtain ⟨notInRest,restDistinct⟩ := nodup_cons.mp distinct
    have later : ∀ txnId ∈ rest,
        (Meta.resolveOne progress first).1.detail? txnId.key = w.doc.detail? txnId.key := by
      intro txnId mem
      rw [Meta.detail?_resolveOne,if_neg]
      · exact kept txnId (.tail _ mem)
      · exact fun same => notInRest (same ▸ mem_map_of_mem mem)
    have published : w.published (first :: rest) =
        w.published [first] ++ w.published rest := by
      simp [World.published]
    rw [foldl_cons,published,← append_assoc]
    refine ih _ (done ++ w.published [first]) restDistinct later (fun group topition => ?_)
    have found := kept first (.head _)
    unfold Meta.resolveOne World.published
    rw [found,flatMap_singleton]
    cases inDoc : w.doc.detail? first.key with
    | none => simp [before]
    | some detail =>
      cases resolved : detail.resolved? with
      | none => simp [resolved,before]
      | some settled =>
        simp only [resolved,Option.bind_some,Option.isSome_some,Bool.true_and,decide_eq_true_eq]
        split
        · rw [committedOffset_mergeOffsets,latest_append,before]
          have staged := agree first.key group topition
          rw [World.offset,inDoc,Option.bind_some] at staged
          rw [staged]
          rfl
        · rw [append_nil,before]

lemma published_agrees (res : w.resolves request offsets doc)
    (agree : ∀ key group topition, w.offset key group topition =
      latest (w.pendingOf key) group topition) (group : String) (topition : Topition) :
    committedOffset offsets group topition =
      latest (w.published (World.resolving w.doc request)) group topition := by
  obtain ⟨progress,distinct,-⟩ := resolving_ok res
  have folded := foldl_resolveOne_published _ (w.doc, OrderedMap.empty) [] distinct
    (fun _ _ => rfl) agree (fun _ _ => rfl) group topition
  rw [← progress] at folded
  exact folded

lemma resolves_of_unbegun (unbegun : Unbegun w key) : Resolves w key := by
  unfold Unbegun at unbegun
  unfold Resolves
  cases found : w.doc.detail? key with
  | none => simp [found] at unbegun
  | some detail =>
    rw [found,Option.any_some,decide_eq_true_eq] at unbegun
    simp [TxnDetail.resolved?,unbegun]

lemma state_of_unbegun (unbegun : Unbegun w key) : w.state key = none := by
  unfold Unbegun at unbegun
  unfold World.state
  cases found : w.doc.detail? key with
  | none => rfl
  | some detail =>
    rw [found,Option.any_some,decide_eq_true_eq] at unbegun
    exact unbegun

lemma resolves_of_prepared
    (prepared : w.state key = some (preparedAs committed)) : Resolves w key := by
  obtain ⟨detail,found,s⟩ := Option.bind_eq_some_iff.mp prepared
  rw [Resolves,found,Option.bind_some]
  cases committed <;> simp [TxnDetail.resolved?,s,preparedAs]

lemma unbegun_or_prepared (resolves : Resolves w key) :
    Unbegun w key ∨ ∃ committed, w.state key = some (preparedAs committed) := by
  obtain ⟨settled,res⟩ := Option.isSome_iff_exists.mp resolves
  obtain ⟨detail,found,resolved⟩ := Option.bind_eq_some_iff.mp res
  unfold TxnDetail.resolved? at resolved
  split at resolved
  · rename_i s
    left
    simp [Unbegun,found,s]
  · next s => exact .inr ⟨true,by rw [World.state,found]; exact s⟩
  · next s => exact .inr ⟨false,by rw [World.state,found]; exact s⟩
  · cases resolved

section

lemma unresolved_same (res : w.resolves req offsets doc)
    (unresolved : ¬ (key ∈ (World.resolving w.doc req).map TxnId.key ∧ Resolves w key)) :
    doc.detail? key = w.doc.detail? key ∧
      ((World.resolving w.doc req).foldl (World.settle req.committed)
        w).history.ended key = w.history.ended key := by
  have changed := resolving_spec res key
  obtain ⟨-,kept,others⟩ :=
    foldl_settle_ended req.committed (World.resolving w.doc req) w key
  by_cases mem : key ∈ (World.resolving w.doc req).map TxnId.key
  · have stays : ¬ Resolves w key := fun resolves => unresolved ⟨mem,resolves⟩
    refine ⟨?_,(kept mem).resolve_left (fun unbegun => stays (resolves_of_unbegun unbegun))⟩
    rw [changed,if_pos mem]
    unfold Resolves at stays
    cases found : w.doc.detail? key with
    | none => rfl
    | some detail =>
      rw [found,Option.bind_some,Option.not_isSome_iff_eq_none] at stays
      rw [Option.map_some,TxnDetail.settle,stays]
      rfl
  · rw [changed,if_neg mem]
    exact ⟨rfl,others mem⟩

end

end Kodansu.Cluster

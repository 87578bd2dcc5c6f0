/-
What a step of a cluster changes, as far as transactions and logs are concerned: the state and
the ranges of every epoch's transaction, how often the epoch was ended, the logs, and what the
history says of them.
-/

import Kodansu.Cluster.Step
import Kodansu.Transaction.Owners

namespace Kodansu.Cluster

open Lib Segment Record Producer Transaction Fetch Option

variable {w after : World} {act : Act}

abbrev World.resolves (world : World) (request : EndTxn) (offsets : GroupOffsets) (doc : Meta) :
    Prop :=
  world.doc.endTxnResolve request.transactionId request.producerId request.producerEpoch
    request.committed = .ok (offsets, doc)

abbrev World.stagesIn (world : World) (request : TxnOffsetCommitRequest) (detail : TxnDetail) :
    Prop :=
  world.doc.currentDetail request.transactionId request.producerId request.producerEpoch = .ok detail

/-! ### Histories -/

lemma settle_same (committed : Bool) (w : World) (txnId : TxnId) :
    ∃ ended decisions outcomes pending, w.settle committed txnId = { w with
      history := { w.history with ended, decisions, outcomes, pending } } := by
  unfold World.settle
  split
  · exact ⟨_,_,_,_,rfl⟩
  split
  · exact ⟨_,_,_,_,rfl⟩
  split
  · exact ⟨_,_,_,_,rfl⟩
  · exact ⟨_,_,_,_,rfl⟩

lemma foldl_settle_same (committed : Bool) (txnIds : List TxnId) (w : World) :
    ∃ ended decisions outcomes pending, txnIds.foldl (World.settle committed) w = { w with
      history := { w.history with ended, decisions, outcomes, pending } } := by
  induction txnIds generalizing w with
  | nil => exact ⟨_,_,_,_,rfl⟩
  | cons first rest ih =>
    obtain ⟨_,_,_,_,settled⟩ := settle_same committed w first
    obtain ⟨ended,decisions,outcomes,pending,same⟩ := ih (w.settle committed first)
    refine ⟨ended,decisions,outcomes,pending,?_⟩
    rw [List.foldl_cons,same,settled]

lemma settle_ended (committed : Bool) (w : World) (txnId : TxnId) (key : Key) :
    (w.settle committed txnId).history.ended key =
      if key = txnId.key ∧ (w.doc.detail? key).any (fun detail => detail.state = none)
      then w.history.ended key + 1 else w.history.ended key := by
  unfold World.settle
  cases found : w.doc.detail? txnId.key with
  | none =>
    by_cases same : key = txnId.key
    · simp [same,found]
    · simp [same]
  | some detail =>
    by_cases same : key = txnId.key
    · subst same
      cases s : detail.state with
      | none => simp [found,TxnDetail.resolved?,s,World.ends]
      | some state' => cases state' <;> simp [found,TxnDetail.resolved?,s]
    · cases s : detail.state with
      | none => simp [TxnDetail.resolved?,s,World.ends,same]
      | some state' => cases state' <;> simp [TxnDetail.resolved?,s,same]

@[simp] lemma settle_doc (committed : Bool) (w : World) (txnId : TxnId) :
    (w.settle committed txnId).doc = w.doc := by
  obtain ⟨_,_,_,_,same⟩ := settle_same committed w txnId
  rw [same]

lemma foldl_settle_ended (committed : Bool) (txnIds : List TxnId) (w : World) (key : Key) :
    let ended := (txnIds.foldl (World.settle committed) w).history.ended key
    let unbegun := (w.doc.detail? key).any (fun detail => detail.state = none)
    (key ∈ txnIds.map TxnId.key → unbegun = true → w.history.ended key < ended) ∧
      (key ∈ txnIds.map TxnId.key → unbegun = true ∨ ended = w.history.ended key) ∧
      (key ∉ txnIds.map TxnId.key → ended = w.history.ended key) := by
  induction txnIds generalizing w with
  | nil => exact ⟨nofun,nofun,fun _ => rfl⟩
  | cons first rest ih =>
    obtain ⟨counted,kept,others⟩ := ih (w.settle committed first)
    rw [settle_ended] at counted kept others
    rw [settle_doc] at counted kept
    simp only [List.map_cons,List.mem_cons,List.foldl_cons,not_or] at *
    by_cases unbegun : (w.doc.detail? key).any (fun detail => detail.state = none) = true
    · refine ⟨?_,fun _ => .inl unbegun,?_⟩
      · intro mem _
        by_cases inRest : key ∈ rest.map TxnId.key
        · exact lt_of_le_of_lt (by split <;> omega) (counted inRest unbegun)
        · have isFirst := mem.resolve_right inRest
          rw [others inRest,if_pos ⟨isFirst,unbegun⟩]
          exact Nat.lt_succ_self _
      · intro outside
        rw [others outside.2,if_neg (fun both => outside.1 both.1)]
    · have same : (if key = first.key ∧ (w.doc.detail? key).any
          (fun detail => detail.state = none) = true then w.history.ended key + 1
          else w.history.ended key) = w.history.ended key :=
        if_neg (fun both => unbegun both.2)
      rw [same] at kept others
      refine ⟨fun _ absurd => (unbegun absurd).elim,fun _ => .inr ?_,fun outside => others outside.2⟩
      by_cases inRest : key ∈ rest.map TxnId.key
      · exact (kept inRest).resolve_left unbegun
      · exact others inRest

lemma txnOffsetCommit_same (w : World) (req : TxnOffsetCommitRequest) :
    ∃ doc all pending, w.txnOffsetCommit req = { w with
      doc, history := { w.history with staged := all, pending } } := by
  have staging : ∀ (items : List Staged) (w : World), ∃ all pending,
      items.foldl World.stage w = { w with
        history := { w.history with staged := all, pending } } := by
    intro items
    induction items with
    | nil => exact fun _ => ⟨_,_,rfl⟩
    | cons first rest ih => exact fun w => ih (w.stage first)
  unfold World.txnOffsetCommit
  split
  · exact ⟨_,_,_,rfl⟩
  obtain ⟨all,pending,same⟩ := staging (w.stagedBy req) w
  rw [same]
  exact ⟨_,all,pending,rfl⟩

variable {req : TxnOffsetCommitRequest} {detail : TxnDetail}

lemma detail?_txnOffsetCommit (cur : w.stagesIn req detail) (key : Key) :
    ((w.txnOffsetCommit req).doc.detail? key).map
        (fun detail => (detail.state, detail.produces)) =
      (w.doc.detail? key).map (fun detail => (detail.state, detail.produces)) := by
  have same : (w.txnOffsetCommit req).doc = (w.doc.txnOffsetCommit req).2 := by
    simp only [World.txnOffsetCommit,cur]
  have folded : ∀ (offsets : List (Topition × TxnCommitOffset)) (detail : TxnDetail),
      let changed := offsets.foldl (fun changed item =>
        changed.commitOffset req.groupId item.1 item.2) detail
      (changed.state, changed.produces) = (detail.state, detail.produces) := by
    intro offsets
    induction offsets with
    | nil => exact fun _ => rfl
    | cons first rest ih =>
      exact fun detail => ih (detail.commitOffset req.groupId first.1 first.2)
  rw [same,Meta.txnOffsetCommit,cur]
  simp only
  rw [Meta.detail?_updateDetail]
  split
  · rename_i isKey
    rw [isKey,map_map]
    congr 1
    funext detail
    exact folded _ detail
  · rfl

/-! ### What a step does to a transaction -/

namespace World

def state (world : World) (key : Key) : Option TxnState :=
  (world.doc.detail? key).bind TxnDetail.state

def range (world : World) (key : Key) (topition : Topition) : Option TxnProduceOffset :=
  (world.doc.detail? key).bind (fun detail => detail.range topition)

end World

def widen (range : Option TxnProduceOffset) (offset offsetEnd : Int) : TxnProduceOffset :=
  match range with
  | none => ⟨offset, offsetEnd⟩
  | some range => ⟨min range.offsetStart offset, max range.offsetEnd offsetEnd⟩

lemma range_register (detail : TxnDetail) (tp other : Topition) (offset offsetEnd : Int) :
    (detail.register tp offset offsetEnd).range other =
      if other = tp then some (widen (detail.range tp) offset offsetEnd)
      else detail.range other := by
  unfold TxnDetail.register TxnDetail.range
  simp only [OrderedMap.get?_upsert]
  by_cases same : other = tp
  · subst same
    simp only [if_true,join_some]
    cases detail.produces.get? other with
    | none => rfl
    | some known =>
      cases known with
      | none => rfl
      | some range =>
        simp only [join_some,widen]
        congr 2
        omega
  · simp [same]

def preparedAs (committed : Bool) : TxnState :=
  if committed then .prepareCommit else .prepareAbort

variable {left right : Bool}

lemma preparedAs_inj (same : preparedAs left = preparedAs right) : left = right := by
  cases left <;> cases right <;> first | rfl | cases same

def resolvedAs (committed : Bool) : TxnState := if committed then .committed else .aborted

structure Kept (world after : World) : Prop where
  logs : ∀ topition, (after.partitions topition).log = (world.partitions topition).log
  written : after.history.written = world.history.written
  registrations : after.history.registrations = world.history.registrations
  owed : after.history.owed = world.history.owed

structure Still (world after : World) : Prop where
  state : ∀ key, after.state key = world.state key
  range : ∀ key topition, after.range key topition = world.range key topition
  ended : ∀ key, after.history.ended key = world.history.ended key

/-- What the last update of an `EndTxn` does to one epoch's transaction. -/
inductive Resolved (world after : World) (key : Key) : Prop
  | stays (state : after.state key = world.state key)
      (range : ∀ topition, after.range key topition = world.range key topition)
      (ended : after.history.ended key = world.history.ended key)
  | resolves (committed : Bool)
      (before : world.state key = some (if committed then .prepareCommit else .prepareAbort))
      (state : after.state key = some (if committed then .committed else .aborted))
      (range : ∀ topition, after.range key topition =
        if committed then none else world.range key topition)
      (ended : after.history.ended key = world.history.ended key)
  | skips (before : world.state key = none) (state : after.state key = some .committed)
      (range : ∀ topition, after.range key topition = none)
      (ended : world.history.ended key < after.history.ended key)

/-- What a step does to the transactions, the logs and their history. -/
inductive Change (world : World) (task : Task) (action : Act) (after : World) : Prop
  | still (kept : Kept world after) (still : Still world after)
  | begins {transactionId : String} {producerId producerEpoch : Int}
      {topics : List (String × List Int)} {now : Nat}
      (isAction : action = .addTxnPartitions
        (.versionZeroToThree transactionId producerId producerEpoch topics) now)
      (current : ∃ detail, world.doc.currentDetail transactionId producerId producerEpoch =
        .ok detail)
      (kept : Kept world after)
      (state : ∀ key, after.state key =
        if key = (transactionId, producerEpoch) then some .begin else world.state key)
      (range : ∀ key topition, after.range key topition = world.range key topition)
      (ended : ∀ key, after.history.ended key = world.history.ended key)
  | resolves {request : EndTxn} (isTask : task = .resolve request) (takes : action.takesEffect = true) (kept : Kept world after)
      (resolved : ∀ key, Resolved world after key)
      (others : ∀ key, key ∉ (World.resolving world.doc request).map TxnId.key →
        after.state key = world.state key)
  | appends {request : Produce} {index : Folded} (isTask : task = .produce request)
      (acts : action.index? = some index)
      (admitted : index.classify request.batch = .admitted)
      (still : Still world after)
      (logs : ∀ topition, (after.partitions topition).log =
        if topition = request.topition then
          ((world.partitions request.topition).append index.next request.batch).log
        else (world.partitions topition).log)
      (written : after.history.written = world.history.written ++ world.writes index.next request)
      (registrations : after.history.registrations = world.history.registrations)
      (owed : after.history.owed = world.history.owed)
  | registers {request : Produce} {transactionId : String} {offset : Int}
      (isTask : task = .acked request transactionId offset) (takes : action.takesEffect = true)
      (state : ∀ key, after.state key = world.state key)
      (range : ∀ key topition, after.range key topition =
        if key = (transactionId, request.batch.producerEpoch) ∧ topition = request.topition ∧
          (world.doc.detail? key).isSome
        then some (widen (world.range key topition) offset (offset + request.batch.lastOffsetDelta))
        else world.range key topition)
      (ended : ∀ key, after.history.ended key = world.history.ended key)
      (logs : ∀ topition, (after.partitions topition).log = (world.partitions topition).log)
      (written : after.history.written = world.history.written)
      (registrations : after.history.registrations = world.history.registrations ++
        if (world.doc.detail? (transactionId, request.batch.producerEpoch)).isSome then
          [{ topition := request.topition, offset
             lastOffsetDelta := request.batch.lastOffsetDelta
             key := (transactionId, request.batch.producerEpoch)
             number := world.history.ended (transactionId, request.batch.producerEpoch) }]
        else [])
      (owed : after.history.owed = world.history.owed)
  | owes {request : EndTxn} {detail : TxnDetail} (isTask : task = .endTxn request) (takes : action.takesEffect = true)
      (current : world.doc.currentDetail request.transactionId request.producerId
        request.producerEpoch = .ok detail)
      (begun : detail.state = some .begin)
      (state : ∀ key, after.state key =
        if key = request.key then
          some (if request.committed then .prepareCommit else .prepareAbort)
        else world.state key)
      (range : ∀ key topition, after.range key topition = world.range key topition)
      (ended : after.history.ended =
        Function.update world.history.ended request.key (world.history.ended request.key + 1))
      (logs : ∀ topition, (after.partitions topition).log = (world.partitions topition).log)
      (written : after.history.written = world.history.written)
      (registrations : after.history.registrations = world.history.registrations)
      (owed : after.history.owed = world.history.owed ++ (detail.starts.map Prod.fst).map
        (fun topition =>
          { call := request.call, topition, key := request.key
            number := world.history.ended request.key, committed := request.committed }))
  | marks {request : EndTxn} {index : Folded} {topition : Topition} {rest : List Topition}
      (isTask : task = .marker request topition rest) (acts : action.index? = some index)
      (still : Still world after)
      (logs : ∀ other, (after.partitions other).log =
        if other = topition then
          ((world.partitions topition).append index.next (endTransactionMarker request.producerId
            request.producerEpoch request.committed)).log
        else (world.partitions other).log)
      (written : after.history.written = world.history.written)
      (registrations : after.history.registrations = world.history.registrations)
      (owed : after.history.owed = world.history.owed)
  | pays {request : EndTxn} {topition : Topition} {offset : Int} {rest : List Topition}
      (isTask : task = .marked request topition offset rest) (takes : action.takesEffect = true)
      (state : ∀ key, after.state key = world.state key)
      (range : ∀ key other, after.range key other =
        if key = request.key ∧ other = topition ∧ (world.doc.detail? key).isSome
        then some (widen (world.range key other) offset (offset + 0))
        else world.range key other)
      (ended : ∀ key, after.history.ended key = world.history.ended key)
      (logs : ∀ other, (after.partitions other).log = (world.partitions other).log)
      (written : after.history.written = world.history.written)
      (registrations : after.history.registrations = world.history.registrations)
      (owed : after.history.owed = world.history.owed.filter (fun owed =>
        !(owed.call = request.call && owed.topition = topition)))

section

variable (doc : Meta) (txn : String) (epoch : Int)

include doc txn epoch

lemma detail?_registerProduced (tp : Topition) (offset lastOffsetDelta : Int) (key : Key) :
    (doc.registerProduced txn epoch tp offset lastOffsetDelta).detail? key =
      if key = (txn, epoch) then
        (doc.detail? key).map (fun detail =>
          detail.register tp offset (offset + lastOffsetDelta))
      else doc.detail? key := by
  rw [Meta.registerProduced,Meta.detail?_updateDetail]
  split
  · next same => rw [same]
  · rfl

variable {partitions : Topition → Partition} {groups : GroupOffsets} {history : History}

lemma state_registerProduced (registered : Topition) (offset lastOffsetDelta : Int) (key : Key) :
    (World.mk (doc.registerProduced txn epoch registered offset lastOffsetDelta)
      partitions groups history).state key = (doc.detail? key).bind TxnDetail.state := by
  simp only [World.state,detail?_registerProduced]
  split
  · rw [bind_map]
    rfl
  · rfl

lemma range_registerProduced (registered : Topition) (offset lastOffsetDelta : Int) (key : Key)
    (tp : Topition) :
    (World.mk (doc.registerProduced txn epoch registered offset lastOffsetDelta)
      partitions groups history).range key tp =
      if key = (txn, epoch) ∧ tp = registered ∧ (doc.detail? key).isSome
      then some (widen ((doc.detail? key).bind (fun detail => detail.range tp)) offset
        (offset + lastOffsetDelta))
      else (doc.detail? key).bind (fun detail => detail.range tp) := by
  simp only [World.range,detail?_registerProduced]
  by_cases same : key = (txn, epoch)
  · simp only [same,if_true,true_and]
    cases doc.detail? (txn, epoch) with
    | none => simp
    | some detail =>
      simp only [map_some,bind_some,range_register,isSome_some,and_true]
      by_cases isRegistered : tp = registered
      · simp [isRegistered]
      · simp [isRegistered]
  · simp [same]

end

lemma Still.refl (world : World) : Still world world := ⟨fun _ => rfl,fun _ _ => rfl,fun _ => rfl⟩

lemma Kept.refl (world : World) : Kept world world := ⟨fun _ => rfl,rfl,rfl,rfl⟩

lemma Change.refl (world : World) (task : Task) (act : Act) : Change world task act world :=
  .still (Kept.refl world) (Still.refl world)

lemma log_setPartition (w : World) (tp other : Topition) (partition : Partition) :
    ((w.setPartition tp partition).partitions other).log =
      if other = tp then partition.log else (w.partitions other).log := by
  simp only [World.setPartition,Function.update_apply]
  split <;> rfl

variable {offsets : GroupOffsets} {doc : Meta}

lemma prepares_change {req : EndTxn} (cur : w.doc.currentDetail req.transactionId req.producerId
      req.producerEpoch = .ok detail) (begun : detail.state = some .begin)
    (takes : act.takesEffect = true) :
    Change w (.endTxn req) act (w.prepared req (detail.starts.map Prod.fst)
      (w.doc.updateDetail req.key (fun detail => { detail with
        state := some (if req.committed then .prepareCommit else .prepareAbort) }))) := by
  have found : w.doc.detail? req.key = some detail := Meta.detail?_of_currentDetail cur
  refine .owes rfl takes cur begun ?_ ?_ rfl (fun _ => rfl) rfl rfl rfl
  · intro key
    simp only [World.prepared,World.ends,World.owe,World.state,Meta.detail?_updateDetail]
    split
    · rw [found]
      rfl
    · rfl
  · intro key tp
    simp only [World.prepared,World.ends,World.owe,World.range,Meta.detail?_updateDetail]
    split
    · rename_i same
      rw [same,found]
      rfl
    · rfl

lemma resolving_spec {req : EndTxn}
    (res : w.resolves req offsets doc) (key : Key) : doc.detail? key =
      if key ∈ (World.resolving w.doc req).map TxnId.key then
        (w.doc.detail? key).map TxnDetail.settle else w.doc.detail? key := by
  obtain ⟨detail,named,-,search,⟨unprepared,same⟩ | ⟨prepared,settled⟩⟩ :=
    Meta.endTxnResolve_ok res
  · obtain ⟨txnId,mem,notPrepared⟩ := unprepared
    have blocked : World.resolving w.doc req = [] := by
      unfold World.resolving
      rw [search]
      exact if_neg (fun all => by
        have prepared := List.all_eq_true.mp all txnId mem
        rw [notPrepared] at prepared
        cases prepared)
    rw [blocked,same]
    rfl
  · have all : World.resolving w.doc req = named ++ [⟨req.transactionId,
        req.producerId,req.producerEpoch,
        if req.committed then .prepareCommit else .prepareAbort⟩] := by
      unfold World.resolving
      rw [search]
      exact if_pos (List.all_eq_true.mpr prepared)
    rw [all,settled key]
    simp [TxnId.key]

lemma settle_cases (detail : TxnDetail) :
    (detail.state = none ∧ detail.settle.state = some .committed ∧
        ∀ tp, detail.settle.range tp = none) ∨
      (∃ committed : Bool, detail.state = some (if committed then .prepareCommit else .prepareAbort) ∧
        detail.settle.state = some (if committed then .committed else .aborted) ∧
        ∀ tp, detail.settle.range tp =
          if committed then none else detail.range tp) ∨
      (detail.state ≠ none ∧ detail.settle = detail) := by
  unfold TxnDetail.settle TxnDetail.resolved?
  cases s : detail.state with
  | none => exact .inl ⟨rfl,rfl,fun _ => rfl⟩
  | some isState =>
    cases isState with
    | prepareCommit => exact .inr (.inl ⟨true,rfl,rfl,fun _ => rfl⟩)
    | prepareAbort => exact .inr (.inl ⟨false,rfl,rfl,fun _ => rfl⟩)
    | _ => exact .inr (.inr ⟨nofun,rfl⟩)

section

variable {req : EndTxn} (res : w.resolves req offsets doc)

include res

lemma resolved_of_settle (key : Key) : Resolved w
      { (World.resolving w.doc req).foldl (World.settle req.committed) w with doc }
      key := by
  have changed := resolving_spec res key
  obtain ⟨counted,kept,others⟩ :=
    foldl_settle_ended req.committed (World.resolving w.doc req) w key
  by_cases mem : key ∈ (World.resolving w.doc req).map TxnId.key
  · rw [if_pos mem] at changed
    cases found : w.doc.detail? key with
    | none =>
      refine .stays ?_ ?_ ((kept mem).resolve_left (by simp [found]))
      · simp only [World.state,changed,found,map_none]
      · simp only [World.range,changed,found,map_none,implies_true]
    | some detail =>
      rw [found] at changed
      have isNow : doc.detail? key = some detail.settle := changed
      have ended : detail.state ≠ none →
          ((World.resolving w.doc req).foldl (World.settle req.committed)
            w).history.ended key = w.history.ended key := by
        intro begun
        exact (kept mem).resolve_left (by simp [found,begun])
      rcases settle_cases detail with ⟨before,s,range⟩ | ⟨committed,before,s,range⟩ |
        ⟨before,same⟩
      · refine .skips ?_ ?_ ?_ (counted mem (by simp [found,before]))
        · simp only [World.state,found,bind_some,before]
        · simp only [World.state,isNow,bind_some,s]
        · simp only [World.range,isNow,bind_some,range,implies_true]
      · refine .resolves committed ?_ ?_ ?_ (ended (by simp [before]))
        · simp only [World.state,found,bind_some,before]
        · simp only [World.state,isNow,bind_some,s]
        · simp only [World.range,found,isNow,bind_some,range,implies_true]
      · refine .stays ?_ ?_ (ended before)
        · simp only [World.state,found,isNow,same]
        · simp only [World.range,found,isNow,same,implies_true]
  · rw [if_neg mem] at changed
    refine .stays ?_ ?_ (others mem)
    · simp only [World.state,changed]
    · simp only [World.range,changed,implies_true]

lemma resolves_change (takes : act.takesEffect = true) : Change w (.resolve req) act
      { (World.resolving w.doc req).foldl (World.settle req.committed) w with
        doc } := by
  refine .resolves rfl takes ?_ (resolved_of_settle res) ?_
  · obtain ⟨_,_,_,_,same⟩ :=
      foldl_settle_same req.committed (World.resolving w.doc req) w
    rw [same]
    exact ⟨fun _ => rfl,rfl,rfl,rfl⟩
  · intro key outside
    simp only [World.state]
    rw [resolving_spec res key,if_neg outside]

end

variable {known : Topition → Bool} {index : Folded} {task next : Task} {txn : String}
  {pid epoch transactionTimeoutMs : Int} {topics : List (String × List Int)} {resp : InitProducer}
  {history : History}

lemma effect_change (effect : Effect known index w task after next)
    (acts : act.index? = some index) :
    Change w task act after := by
  have takes := Act.takesEffect_of_index acts
  cases effect with
  | @appends req admitted =>
    refine .appends rfl acts admitted ⟨fun _ => rfl,fun _ _ => rfl,fun _ => rfl⟩ ?_ rfl rfl rfl
    exact fun tp => log_setPartition w req.topition tp _
  | @registers req txn offset =>
    refine .registers rfl takes ?_ ?_ (fun _ => rfl) (fun _ => rfl) rfl rfl rfl
    · exact fun key => state_registerProduced _ _ _ _ _ _ key
    · exact fun key tp => range_registerProduced _ _ _ _ _ _ key tp
  | prepares cur begun => exact prepares_change cur begun takes
  | @marks req tp rest =>
    refine .marks rfl acts ⟨fun _ => rfl,fun _ _ => rfl,fun _ => rfl⟩ ?_ rfl rfl rfl
    exact fun other => log_setPartition w tp other _
  | @registersMarker req tp offset rest =>
    refine .pays rfl takes ?_ ?_ (fun _ => rfl) (fun _ => rfl) rfl rfl rfl
    · exact fun key => state_registerProduced _ _ _ _ _ _ key
    · exact fun key other => range_registerProduced _ _ _ _ _ _ key other
  | resolves res => exact resolves_change res takes
  | commitsGroup =>
    exact .still ⟨fun _ => rfl,rfl,rfl,rfl⟩ ⟨fun _ => rfl,fun _ _ => rfl,fun _ => rfl⟩
  | _ => exact .refl w _ _

lemma begins_change {now : Nat} {topitions : List Topition}
    (cur : w.doc.currentDetail txn pid epoch = .ok detail) :
    Change w task
      (.addTxnPartitions (.versionZeroToThree txn pid epoch topics) now)
      { w with doc := w.doc.updateDetail (txn, epoch) (fun detail =>
          { topitions.foldl TxnDetail.addPartition detail with
            startedAt := some now, state := some .begin }) } := by
  have found := Meta.detail?_of_currentDetail cur
  refine .begins rfl ⟨detail,cur⟩ ⟨fun _ => rfl,rfl,rfl,rfl⟩ ?_ ?_ (fun _ => rfl)
  · intro key
    simp only [World.state,Meta.detail?_updateDetail]
    split
    · rw [found]
      rfl
    · rfl
  · intro key tp
    simp only [World.range,Meta.detail?_updateDetail]
    split
    · rename_i same
      rw [same,found]
      exact congrFun (TxnDetail.foldl_addPartition_range topitions detail) tp
    · rfl

lemma inits_still {pid epoch : Option Int}
    (ended : history.ended = w.history.ended)
    (res : w.doc.initProducerId txn transactionTimeoutMs pid
      epoch = some (resp, doc)) : Still w { w with doc, history } := by
  refine ⟨fun key => ?_,fun key tp => ?_,fun key => by rw [ended]⟩
  all_goals
    rcases Meta.detail?_initProducerId res key with same | ⟨absent,added⟩
    · simp only [World.state,World.range,same]
    · simp only [World.state,World.range,absent,added]
      rfl

lemma stages_still {req : TxnOffsetCommitRequest} (current : w.stagesIn req detail) :
    Still w (w.txnOffsetCommit req) := by
  obtain ⟨doc,all,pending,changed⟩ := txnOffsetCommit_same w req
  have same := detail?_txnOffsetCommit current
  refine ⟨fun key => ?_,fun key tp => ?_,fun key => by rw [changed]⟩
  · have state := congrArg (Option.bind · Prod.fst) (same key)
    rw [bind_map,bind_map] at state
    exact state
  · have range := congrArg (Option.bind · (fun pair => (pair.2.get? tp).join)) (same key)
    rw [bind_map,bind_map] at range
    exact range

lemma step_change (step : Step known w task act after next) :
    Change w task act after := by
  cases step with
  | runs effect | loses effect => exact effect_change effect rfl
  | inits res => exact .still ⟨fun _ => rfl,rfl,rfl,rfl⟩ (inits_still rfl res)
  | initsIdempotent =>
    refine .still ⟨fun _ => rfl,rfl,rfl,rfl⟩ ⟨fun key => ?_,fun key tp => ?_,fun _ => rfl⟩
    all_goals
      simp only [World.state,World.range,Meta.initProducerIdempotent]
      split <;> rfl
  | begins cur => exact begins_change cur
  | @stages req detail cur =>
    refine .still ?_ (stages_still cur)
    obtain ⟨doc,all,pending,changed⟩ := txnOffsetCommit_same w req
    rw [changed]
    exact ⟨fun _ => rfl,rfl,rfl,rfl⟩
  | startsEnd =>
    exact .still ⟨fun _ => rfl,rfl,rfl,rfl⟩ ⟨fun _ => rfl,fun _ _ => rfl,fun _ => rfl⟩
  | expires | truncates =>
    refine .still ⟨fun other => ?_,rfl,rfl,rfl⟩ ⟨fun _ => rfl,fun _ _ => rfl,fun _ => rfl⟩
    rw [log_setPartition]
    split
    · next same => rw [same]
    · rfl
  | _ => exact .refl w _ _

/-! ### What a step does to one epoch -/

inductive Turn (world : World) (task : Task) (action : Act) (after : World) (key : Key) : Prop
  | stays (state : after.state key = world.state key)
      (range : ∀ topition, after.range key topition = world.range key topition)
      (ended : after.history.ended key = world.history.ended key)
  | begins {producerId : Int} {topics : List (String × List Int)} {now : Nat} {detail : TxnDetail}
      (isAction : action = .addTxnPartitions
        (.versionZeroToThree key.1 producerId key.2 topics) now)
      (current : world.doc.currentDetail key.1 producerId key.2 = .ok detail)
      (unbegun : world.state key ≠ some .begin)
      (state : after.state key = some .begin)
      (range : ∀ topition, after.range key topition = world.range key topition)
      (ended : after.history.ended key = world.history.ended key)
  | registers {request : Produce} {offset : Int}
      (isTask : task = .acked request key.1 offset) (takes : action.takesEffect = true)
      (isEpoch : key.2 = request.batch.producerEpoch)
      (state : after.state key = world.state key)
      (range : ∀ topition, after.range key topition = if topition = request.topition
        then some (widen (world.range key topition) offset (offset + request.batch.lastOffsetDelta))
        else world.range key topition)
      (ended : after.history.ended key = world.history.ended key)
  | prepares {request : EndTxn} {detail : TxnDetail}
      (isTask : task = .endTxn request) (takes : action.takesEffect = true)
      (isKey : request.key = key) (found : world.doc.detail? key = some detail)
      (begun : detail.state = some .begin)
      (state : after.state key = some (preparedAs request.committed))
      (range : ∀ topition, after.range key topition = world.range key topition)
      (ended : after.history.ended key = world.history.ended key + 1)
      (owed : after.history.owed = world.history.owed ++ (detail.starts.map Prod.fst).map
        (fun topition =>
          ⟨request.call, topition, key, world.history.ended key, request.committed⟩))
  | pays {request : EndTxn} {topition : Topition} {offset : Int} {rest : List Topition}
      (isTask : task = .marked request topition offset rest) (takes : action.takesEffect = true)
      (isKey : request.key = key)
      (state : after.state key = world.state key)
      (range : ∀ other, after.range key other = if other = topition
        then some (widen (world.range key other) offset offset) else world.range key other)
      (ended : after.history.ended key = world.history.ended key)
  | resolves {request : EndTxn} (committed : Bool)
      (isTask : task = .resolve request) (takes : action.takesEffect = true)
      (named : key ∈ (World.resolving world.doc request).map TxnId.key)
      (before : world.state key = some (preparedAs committed))
      (state : after.state key = some (resolvedAs committed))
      (range : ∀ topition, after.range key topition =
        if committed then none else world.range key topition)
      (ended : after.history.ended key = world.history.ended key)
  | skips (before : world.state key = none) (state : after.state key = some .committed)
      (range : ∀ topition, after.range key topition = none)
      (ended : world.history.ended key < after.history.ended key)

lemma preparedAs_ne_resolvedAs : preparedAs left ≠ resolvedAs right := by
  cases left <;> cases right <;> nofun

lemma Still.turn (still : Still w after) (key : Key) : Turn w task act after key :=
  .stays (still.state key) (still.range key) (still.ended key)

lemma Change.turn (change : Change w task act after) (key : Key) :
    Turn w task act after key := by
  cases change with
  | still _ still | appends _ _ _ still | marks _ _ still => exact still.turn key
  | @begins txn pid epoch topics now isAction cur _ s range ended =>
    have isState := s key
    split at isState
    · rename_i isKey
      obtain ⟨detail,isCurrent⟩ := cur
      subst isKey
      by_cases begun : w.state (txn, epoch) = some .begin
      · exact .stays (isState.trans begun.symm) (range _) (ended _)
      · exact .begins isAction isCurrent begun isState (range _) (ended _)
    · exact .stays isState (range key) (ended key)
  | @resolves req isTask takes _ resolved others =>
    cases resolved key with
    | stays s range ended => exact .stays s range ended
    | resolves committed before s range ended =>
      refine .resolves committed isTask takes ?_ before s range ended
      by_contra outside
      have same := (others key outside).symm.trans s
      rw [before] at same
      exact preparedAs_ne_resolvedAs (Option.some.inj same)
    | skips before s range ended => exact .skips before s range ended
  | @registers req txn offset isTask takes s range ended =>
    by_cases here : key = (txn, req.batch.producerEpoch) ∧
        (w.doc.detail? key).isSome
    · obtain ⟨isKey,present⟩ := here
      subst isKey
      refine .registers isTask takes rfl (s _) (fun tp => ?_) (ended _)
      rw [range]
      by_cases same : tp = req.topition
      · rw [if_pos ⟨rfl,same,present⟩,if_pos same]
      · rw [if_neg (fun all => same all.2.1),if_neg same]
    · refine .stays (s key) (fun tp => ?_) (ended key)
      rw [range,if_neg (fun all => here ⟨all.1,all.2.2⟩)]
  | @owes req detail isTask takes cur begun s range ended _ _ _ owed =>
    have isState := s key
    split at isState
    · rename_i isKey
      subst isKey
      refine .prepares isTask takes rfl (Meta.detail?_of_currentDetail cur) begun isState
        (range _) ?_ owed
      rw [ended,Function.update_self]
    · rename_i differs
      exact .stays isState (range key) (by rw [ended,Function.update_of_ne differs])
  | @pays req tp offset rest isTask takes s range ended =>
    by_cases here : key = req.key ∧ (w.doc.detail? key).isSome
    · refine .pays isTask takes here.1.symm (s key) (fun other => ?_) (ended key)
      rw [range,Int.add_zero]
      by_cases same : other = tp
      · rw [if_pos ⟨here.1,same,here.2⟩,if_pos same]
      · rw [if_neg (fun all => same all.2.1),if_neg same]
    · refine .stays (s key) (fun other => ?_) (ended key)
      rw [range,if_neg (fun all => here ⟨all.1,all.2.2⟩)]

/-! ### What a step does to the document -/

inductive DocChange (doc : Meta) : Meta → Prop
  | same : DocChange doc doc
  | updates (key : Key) (change : TxnDetail → TxnDetail) : DocChange doc (doc.updateDetail key change)
  | resolves {transactionId : String} {producerId producerEpoch : Int} {committed : Bool}
      {offsets : GroupOffsets} {after : Meta}
      (result : doc.endTxnResolve transactionId producerId producerEpoch committed =
        .ok (offsets, after)) : DocChange doc after
  | inits {transactionId : String} {transactionTimeoutMs : Int}
      {producerId producerEpoch : Option Int} {response : InitProducer} {after : Meta}
      (result : doc.initProducerId transactionId transactionTimeoutMs producerId producerEpoch =
        some (response, after)) : DocChange doc after
  | initsIdempotent (producerId producerEpoch : Option Int) :
      DocChange doc (doc.initProducerIdempotent producerId producerEpoch).2

variable {producerId : Int} {key : Key}

lemma effect_doc (effect : Effect known index w task after next) :
    DocChange w.doc after.doc := by
  cases effect with
  | registers | prepares | registersMarker => exact .updates _ _
  | resolves res => exact .resolves res
  | _ => exact .same

lemma step_doc (step : Step known w task act after next) :
    DocChange w.doc after.doc := by
  cases step with
  | runs effect | loses effect => exact effect_doc effect
  | inits res => exact .inits res
  | initsIdempotent => exact .initsIdempotent _ _
  | begins => exact .updates _ _
  | stages cur =>
    simp only [World.txnOffsetCommit,cur,Meta.txnOffsetCommit]
    exact .updates _ _
  | _ => exact .same

lemma DocChange.producer {doc after : Meta} (change : DocChange doc after)
    (found : doc.producer? txn = some producerId) :
    after.producer? txn = some producerId := by
  cases change with
  | same => exact found
  | updates key change => exact (Meta.producer?_updateDetail _ _ _ _).trans found
  | resolves res => exact (Meta.producer?_endTxnResolve res _).trans found
  | inits res => exact Meta.producer?_initProducerId res found
  | initsIdempotent => exact (Meta.producer?_initProducerIdempotent _ _ _ _).trans found

lemma DocChange.detail_isSome {doc after : Meta} (change : DocChange doc after)
    (present : (doc.detail? key).isSome) : (after.detail? key).isSome := by
  cases change with
  | same => exact present
  | updates other change =>
    rw [Meta.detail?_updateDetail]
    split
    · next same => rwa [isSome_map,← same]
    · exact present
  | resolves res =>
    obtain ⟨_,_,-,-,⟨-,same⟩ | ⟨-,settled⟩⟩ := Meta.endTxnResolve_ok res
    · rwa [same]
    · rw [settled]
      split
      · rwa [isSome_map]
      · exact present
  | inits res =>
    rcases Meta.detail?_initProducerId res key with same | ⟨absent,-⟩
    · rwa [same]
    · rw [absent] at present
      cases present
  | initsIdempotent =>
    simp only [Meta.initProducerIdempotent]
    split
    · exact present
    · exact present

end Kodansu.Cluster

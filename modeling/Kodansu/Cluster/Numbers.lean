/-
What holds in every run of a cluster whose batches span at least one offset each and land at
the end of the log: the logs ascend, and the transactions of an epoch are numbered by the
`EndTxn`s accepted before them.
-/

import Kodansu.Cluster.Change

namespace Kodansu.Cluster

open Lib Segment Record Producer Transaction Fetch List

variable {w after : World} {task next other : Task} {act : Act} {partition : Partition}

def Spans : Act → Prop
  | .produce _ _ batch => 0 ≤ batch.lastOffsetDelta
  | _ => True

/-- The index of an append ends where the log ends, and classifies the batch as the log does. -/
def Lands (world : World) (index : Folded) : Task → Prop
  | .produce request => index.next = (world.partitions request.topition).next ∧
      index.classify request.batch = (world.partitions request.topition).folded.classify request.batch
  | .marker _ topition _ => index.next = (world.partitions topition).next
  | _ => True

structure Grows (world : World) (task : Task) (action : Act) : Prop where
  spans : Spans action
  lands : ∀ index ∈ action.index?, Lands world index task

instance (action : Act) : Decidable (Spans action) :=
  match action with
  | .produce _ _ batch => inferInstanceAs (Decidable (0 ≤ batch.lastOffsetDelta))
  | .initProducerId .. | .initProducerIdempotent .. | .addTxnPartitions .. | .txnOffsetCommit ..
  | .endTxn .. | .fetch .. | .run _ | .lose _ | .fail | .ignore | .watermark .. | .read ..
  | .expire .. | .deleteRecords .. => isTrue trivial

instance (world : World) (index : Folded) (task : Task) : Decidable (Lands world index task) :=
  match task with
  | .produce request => inferInstanceAs (Decidable
      (index.next = (world.partitions request.topition).next ∧
        index.classify request.batch = (world.partitions request.topition).folded.classify request.batch))
  | .marker _ topition _ =>
    inferInstanceAs (Decidable (index.next = (world.partitions topition).next))
  | .idle | .acked .. | .endTxn .. | .marked .. | .resolve .. | .commit .. | .fetch ..
  | .stable .. | .bounded .. | .answered .. => isTrue trivial

instance (world : World) (task : Task) (action : Act) : Decidable (Grows world task action) :=
  decidable_of_iff (Spans action ∧ ∀ index ∈ action.index?, Lands world index task)
    ⟨fun both => ⟨both.1, both.2⟩, fun grows => ⟨grows.spans, grows.lands⟩⟩

/-! ### Logs -/

lemma next_of_log {left right : Partition} (same : left.log = right.log) :
    left.next = right.next := by
  rw [Partition.next,Partition.next,same]

variable {entry : Int × Int} {batch : Batch} {offset : Int}

lemma window_producerTail (pid : Int) (batches : List Batch) (tail : ProducerTail)
    (mem : entry ∈ (batches.foldl (Partition.foldBatch pid) tail).window) :
    entry ∈ tail.window ∨ ∃ batch ∈ batches, entry = (batch.baseSequence, batch.baseOffset) := by
  induction batches generalizing tail with
  | nil => exact .inl mem
  | cons first rest ih =>
    rcases ih _ mem with folded | ⟨batch,inRest,same⟩
    · unfold Partition.foldBatch at folded
      split at folded
      · exact (window_fold folded).imp id (fun isFirst => ⟨first,.head _,isFirst⟩)
      · exact .inl folded
    · exact .inr ⟨batch,.tail _ inRest,same⟩

lemma classify_duplicate (repeated : partition.folded.classify batch = .duplicate offset) :
    ∃ logged ∈ partition.log, logged.baseOffset = offset := by
  unfold Folded.classify at repeated
  split at repeated
  · rcases window_producerTail _ _ _ (mem_window_of_duplicate repeated) with impossible |
      ⟨logged,isLive,same⟩
    · cases impossible
    · exact ⟨logged,mem_of_mem_drop isLive,(Prod.mk.inj same).2.symm⟩
  · cases repeated

section

variable (change : Change w task act after)

include change

variable {key : Key} {committed : Bool}

lemma Change.log_subset (tp : Topition) (mem : batch ∈ (w.partitions tp).log) :
    batch ∈ (after.partitions tp).log := by
  cases change with
  | still kept | begins _ _ kept | resolves _ _ kept => rwa [kept.logs]
  | appends _ _ _ _ logs | marks _ _ _ logs =>
    rw [logs]
    split
    · next same => exact Partition.mem_append.mpr (.inl (same ▸ mem))
    · exact mem
  | registers _ _ _ _ _ logs | owes _ _ _ _ _ _ _ logs | pays _ _ _ _ _ logs => rwa [logs]

lemma Change.ended_le (key : Key) : w.history.ended key ≤ after.history.ended key := by
  cases change.turn key with
  | stays _ _ ended | begins _ _ _ _ _ ended | registers _ _ _ _ _ ended | pays _ _ _ _ _ ended
  | resolves _ _ _ _ _ _ _ ended => exact le_of_eq ended.symm
  | prepares _ _ _ _ _ _ _ ended => exact ended ▸ Nat.le_succ _
  | skips _ _ _ ended => exact le_of_lt ended

lemma Change.unbegun (unbegun : after.state key ≠ some .begin) :
    w.state key ≠ some .begin ∨ w.history.ended key < after.history.ended key := by
  cases change.turn key with
  | stays s | registers _ _ _ s | pays _ _ _ s => exact .inl (s ▸ unbegun)
  | begins _ _ _ s => exact absurd s unbegun
  | prepares _ _ _ _ _ _ _ ended => exact .inr (ended ▸ Nat.lt_succ_self _)
  | resolves committed _ _ _ before =>
    left
    rw [before]
    cases committed <;> nofun
  | skips _ _ _ ended => exact .inr ended

lemma Change.prepared_inv (prepared : after.state key = some (preparedAs committed)) :
    (w.state key = some (preparedAs committed) ∧
        after.history.ended key = w.history.ended key) ∨
      ∃ req detail, task = .endTxn req ∧ req.key = key ∧
        req.committed = committed ∧ w.doc.detail? key = some detail ∧
        detail.state = some .begin ∧ after.history.ended key = w.history.ended key + 1 ∧
        after.history.owed = w.history.owed ++ (detail.starts.map Prod.fst).map
          (fun tp => ⟨req.call, tp, key, w.history.ended key, committed⟩) := by
  cases change.turn key with
  | stays s _ ended | registers _ _ _ s _ ended
  | pays _ _ _ s _ ended => exact .inl ⟨s.symm.trans prepared,ended⟩
  | begins _ _ _ s | skips _ s =>
    rw [s] at prepared
    cases committed <;> cases prepared
  | @prepares req detail isTask _ isKey found begun s _ ended owed =>
    have isCommitted : req.committed = committed :=
      preparedAs_inj (Option.some.inj (s.symm.trans prepared))
    subst isCommitted
    exact .inr ⟨req,detail,isTask,isKey,rfl,found,begun,ended,owed⟩
  | resolves outcome _ _ _ _ s =>
    exact absurd (Option.some.inj (prepared.symm.trans s)) preparedAs_ne_resolvedAs

end

/-! ### The invariant -/

structure Numbered (world : World) : Prop where
  placed : ∀ topition, ∀ batch ∈ (world.partitions topition).log,
    batch.baseOffset < endOf batch ∧ endOf batch ≤ (world.partitions topition).next
  written : ∀ record ∈ world.history.written,
    record.batch ∈ (world.partitions record.topition).log ∧
      record.number ≤ world.history.ended record.key
  registered : ∀ range ∈ world.history.registrations, range.number ≤ world.history.ended range.key
  owed : ∀ owed ∈ world.history.owed, owed.number < world.history.ended owed.key
  unended : ∀ key, world.state key = none → world.history.ended key = 0
  ended : ∀ key state, world.state key = some state → state ≠ .begin → 0 < world.history.ended key

def Ready (world : World) : Task → Prop
  | .produce request => 0 ≤ request.batch.lastOffsetDelta
  | .acked request _ offset => 0 ≤ request.batch.lastOffsetDelta ∧
      ∃ batch ∈ (world.partitions request.topition).log, batch.baseOffset = offset
  | .marked request topition offset _ =>
    { endTransactionMarker request.producerId request.producerEpoch request.committed with
      baseOffset := offset } ∈ (world.partitions topition).log
  | _ => True

variable {index : Folded} {known : Topition → Bool} {base : Int} {req : Produce} {record : Written}

lemma effect_ready (ready : Ready w task) (lands : Lands w index task)
    (effect : Effect known index w task after next) : Ready after next := by
  cases effect with
  | @appends req admitted =>
    refine acked_elim trivial (fun _ => ⟨ready,{ req.batch with baseOffset := index.next },?_,rfl⟩)
    simp only [World.appendProduced,World.append,log_setPartition,if_true]
    exact Partition.mem_append.mpr (.inr rfl)
  | repeats repeated =>
    rw [lands.2] at repeated
    exact acked_elim trivial (fun _ => ⟨ready,classify_duplicate repeated⟩)
  | prepares | registersMarker => exact markers_elim trivial (fun _ _ => trivial)
  | marks =>
    simp only [Ready,World.appendMarker,World.append,log_setPartition,if_true]
    exact Partition.mem_append.mpr (.inr rfl)
  | resolves | commitsGroup => exact commits_elim trivial trivial
  | _ => trivial

lemma step_ready (ready : Ready w task) (grows : Grows w task act)
    (step : Step known w task act after next) : Ready after next := by
  cases step with
  | runs effect => exact effect_ready ready (grows.lands _ rfl) effect
  | produces => exact grows.spans
  | ignores => exact commits_elim trivial trivial
  | _ => trivial

lemma Change.ready (change : Change w task act after) (ready : Ready w other) :
    Ready after other := by
  cases other with
  | produce req => exact ready
  | acked req txn offset =>
    obtain ⟨spans,batch,mem,same⟩ := ready
    exact ⟨spans,batch,change.log_subset _ mem,same⟩
  | marked req tp offset rest => exact change.log_subset tp ready
  | _ => trivial

lemma placed_append (placed : ∀ batch ∈ partition.log,
      batch.baseOffset < endOf batch ∧ endOf batch ≤ partition.next)
    (spans : 0 ≤ batch.lastOffsetDelta) :
    ∀ other ∈ (partition.append base batch).log,
      other.baseOffset < endOf other ∧ endOf other ≤ (partition.append base batch).next := by
  intro other mem
  rw [Partition.append_next]
  rcases Partition.mem_append.mp mem with before | isLast
  · obtain ⟨spanning,bound⟩ := placed other before
    exact ⟨spanning,le_max_of_le_left bound⟩
  · rw [isLast]
    constructor
    · change base < base + (batch.lastOffsetDelta + 1)
      omega
    · exact le_max_right _ _

lemma Change.placed (change : Change w task act after) (ready : Ready w task)
    (placed : ∀ tp, ∀ batch ∈ (w.partitions tp).log,
      batch.baseOffset < endOf batch ∧ endOf batch ≤ (w.partitions tp).next) :
    ∀ tp, ∀ batch ∈ (after.partitions tp).log,
      batch.baseOffset < endOf batch ∧ endOf batch ≤ (after.partitions tp).next := by
  have kept : ∀ {tp}, (after.partitions tp).log = (w.partitions tp).log →
      ∀ batch ∈ (after.partitions tp).log,
        batch.baseOffset < endOf batch ∧ endOf batch ≤ (after.partitions tp).next := by
    intro tp same
    rw [same,next_of_log same]
    exact placed tp
  have appended : ∀ {tp base batch}, 0 ≤ batch.lastOffsetDelta →
      (after.partitions tp).log = ((w.partitions tp).append base batch).log →
      ∀ batch ∈ (after.partitions tp).log,
        batch.baseOffset < endOf batch ∧ endOf batch ≤ (after.partitions tp).next := by
    intro tp base batch spans same
    rw [same,next_of_log same]
    exact placed_append (placed tp) spans
  intro tp
  cases change with
  | still unchanged | begins _ _ unchanged
  | resolves _ _ unchanged => exact kept (unchanged.logs tp)
  | @appends req _ isTask _ _ _ logs =>
    subst isTask
    have same := logs tp
    split at same
    · rename_i isTopition
      subst isTopition
      exact appended ready same
    · exact kept same
  | registers _ _ _ _ _ logs | owes _ _ _ _ _ _ _ logs
  | pays _ _ _ _ _ logs => exact kept (logs tp)
  | marks _ _ _ logs =>
    have same := logs tp
    split at same
    · rename_i isTopition
      subst isTopition
      exact appended (le_refl 0) same
    · exact kept same

structure Appended (world : World) (request : Produce) (base : Int) (record : Written) : Prop where
  transaction : ∃ transactionId, request.transactionId = some transactionId ∧
    request.batch.isTransactional = true ∧
    record.key = (transactionId, request.batch.producerEpoch)
  topition : record.topition = request.topition
  batch : record.batch = { request.batch with baseOffset := base }
  number : record.number = world.history.ended record.key
  begun : record.begun = true → world.state record.key = some .begin

lemma appended_of_mem_writes (mem : record ∈ w.writes base req) :
    Appended w req base record := by
  unfold World.writes at mem
  split at mem
  · rename_i txn isId
    simp only at mem
    split at mem
    · rename_i transactional
      cases mem_singleton.mp mem
      refine ⟨⟨txn,isId,transactional,rfl⟩,rfl,rfl,rfl,fun begun => ?_⟩
      simp only [World.state]
      cases found : w.doc.detail? (txn, req.batch.producerEpoch) with
      | none => simp [found] at begun
      | some detail =>
        simp only [found,Option.any_some,Bool.and_eq_true,decide_eq_true_eq] at begun
        exact begun.1
    · cases mem
  · cases mem

lemma Change.next_le (change : Change w task act after) (tp : Topition) :
    (w.partitions tp).next ≤ (after.partitions tp).next := by
  have appended : ∀ base (batch : Batch),
      (w.partitions tp).next ≤ ((w.partitions tp).append base batch).next := by
    intro base batch
    rw [Partition.append_next]
    exact le_max_left _ _
  cases change with
  | still kept | begins _ _ kept
  | resolves _ _ kept => exact le_of_eq (next_of_log (kept.logs tp)).symm
  | appends _ _ _ _ logs | marks _ _ _ logs =>
    have same := logs tp
    split at same
    · rename_i isTopition
      subst isTopition
      exact next_of_log same ▸ appended _ _
    · exact le_of_eq (next_of_log same).symm
  | registers _ _ _ _ _ logs | owes _ _ _ _ _ _ _ logs
  | pays _ _ _ _ _ logs => exact le_of_eq (next_of_log (logs tp)).symm

namespace Change

variable (change : Change w task act after)

include change

lemma written_inv (mem : record ∈ after.history.written) :
    record ∈ w.history.written ∨ ∃ req index, task = .produce req ∧
      act.index? = some index ∧ Appended w req index.next record ∧ Still w after := by
  cases change with
  | still kept | begins _ _ kept | resolves _ _ kept => exact .inl (kept.written ▸ mem)
  | @appends req index isTask acts _ still _ written =>
    rw [written] at mem
    rcases mem_append.mp mem with before | new
    · exact .inl before
    · exact .inr ⟨req,index,isTask,acts,appended_of_mem_writes new,still⟩
  | registers _ _ _ _ _ _ written | owes _ _ _ _ _ _ _ _ written | marks _ _ _ _ written
  | pays _ _ _ _ _ _ written => exact .inl (written ▸ mem)

lemma written_last (grows : Grows w task act) (mem : record ∈ after.history.written) :
    record ∈ w.history.written ∨ ∃ req, task = .produce req ∧ act.takesEffect = true ∧
      Appended w req (w.partitions req.topition).next record ∧ Still w after := by
  rcases change.written_inv mem with before | ⟨req,index,isTask,acts,appended,still⟩
  · exact .inl before
  · subst isTask
    rw [(grows.lands index acts).1] at appended
    exact .inr ⟨req,rfl,Act.takesEffect_of_index acts,appended,still⟩

lemma written_subset (mem : record ∈ w.history.written) :
    record ∈ after.history.written := by
  cases change with
  | still kept | begins _ _ kept | resolves _ _ kept => exact kept.written ▸ mem
  | appends _ _ _ _ _ written => exact written ▸ mem_append_left _ mem
  | registers _ _ _ _ _ _ written | owes _ _ _ _ _ _ _ _ written | marks _ _ _ _ written
  | pays _ _ _ _ _ _ written => exact written ▸ mem

lemma written (numbered : Numbered w) :
    ∀ record ∈ after.history.written, record.batch ∈ (after.partitions record.topition).log ∧
      record.number ≤ after.history.ended record.key := by
  have kept : ∀ record ∈ w.history.written,
      record.batch ∈ (after.partitions record.topition).log ∧
        record.number ≤ after.history.ended record.key := by
    intro record mem
    obtain ⟨logged,bound⟩ := numbered.written record mem
    exact ⟨change.log_subset _ logged,le_trans bound (change.ended_le _)⟩
  cases change with
  | still unchanged | begins _ _ unchanged | resolves _ _ unchanged => rwa [unchanged.written]
  | appends _ _ _ still logs written =>
    rw [written]
    intro record mem
    rcases mem_append.mp mem with before | new
    · exact kept record before
    · have appended := appended_of_mem_writes new
      rw [logs,if_pos appended.topition,still.ended]
      exact ⟨Partition.mem_append.mpr (.inr appended.batch),le_of_eq appended.number⟩
  | registers _ _ _ _ _ _ written | owes _ _ _ _ _ _ _ _ written | marks _ _ _ _ written
  | pays _ _ _ _ _ _ written => rwa [written]

lemma registrations_inv {range : Registration} (mem : range ∈ after.history.registrations) :
    range ∈ w.history.registrations ∨ ∃ req txn offset,
      task = .acked req txn offset ∧ act.takesEffect = true ∧
        range = ⟨req.topition, offset, req.batch.lastOffsetDelta,
          (txn, req.batch.producerEpoch),
          w.history.ended (txn, req.batch.producerEpoch)⟩ ∧
        after.range range.key range.topition = some (widen (w.range range.key range.topition)
          range.offset (range.offset + range.lastOffsetDelta)) ∧
        after.state range.key = w.state range.key ∧
        after.history.ended range.key = w.history.ended range.key := by
  cases change with
  | still kept | begins _ _ kept | resolves _ _ kept => exact .inl (kept.registrations ▸ mem)
  | appends _ _ _ _ _ _ registrations | owes _ _ _ _ _ _ _ _ _ registrations
  | marks _ _ _ _ _ registrations
  | pays _ _ _ _ _ _ _ registrations => exact .inl (registrations ▸ mem)
  | @registers req txn offset isTask takes s ranges ended _ _ registrations =>
    rw [registrations] at mem
    rcases mem_append.mp mem with before | new
    · exact .inl before
    · split at new
      · rename_i present
        have isNew := mem_singleton.mp new
        refine .inr ⟨req,txn,offset,isTask,takes,isNew,?_,s _,ended _⟩
        rw [isNew,ranges,if_pos ⟨rfl,rfl,present⟩]
      · cases new

lemma registered (numbered : Numbered w) :
    ∀ range ∈ after.history.registrations, range.number ≤ after.history.ended range.key := by
  intro range mem
  rcases change.registrations_inv mem with before | ⟨_,_,_,-,-,isNew,-,-,ended⟩
  · exact le_trans (numbered.registered range before) (change.ended_le _)
  · rw [ended,isNew]

lemma owed (numbered : Numbered w) :
    ∀ owed ∈ after.history.owed, owed.number < after.history.ended owed.key := by
  have kept : ∀ owed ∈ w.history.owed, owed.number < after.history.ended owed.key :=
    fun owed mem => lt_of_lt_of_le (numbered.owed owed mem) (change.ended_le _)
  cases change with
  | still unchanged | begins _ _ unchanged | resolves _ _ unchanged => rwa [unchanged.owed]
  | appends _ _ _ _ _ _ _ owed | registers _ _ _ _ _ _ _ _ owed
  | marks _ _ _ _ _ _ owed => rwa [owed]
  | owes _ _ _ _ _ _ ended _ _ _ owed =>
    rw [owed]
    intro entry mem
    rcases mem_append.mp mem with before | new
    · exact kept entry before
    · obtain ⟨tp,-,rfl⟩ := mem_map.mp new
      rw [ended,Function.update_self]
      exact Nat.lt_succ_self _
  | pays _ _ _ _ _ _ _ _ owed =>
    rw [owed]
    exact fun entry mem => kept entry (mem_filter.mp mem).1

lemma numbered (ready : Ready w task) (numbered : Numbered w) : Numbered after where
  placed := change.placed ready numbered.placed
  written := change.written numbered
  registered := change.registered numbered
  owed := change.owed numbered
  unended key isNone := by
    have kept : after.state key = w.state key →
        after.history.ended key = w.history.ended key → after.history.ended key = 0 := by
      intro s ended
      rw [ended]
      exact numbered.unended key (s ▸ isNone)
    cases change.turn key with
    | stays s _ ended | registers _ _ _ s _ ended
    | pays _ _ _ s _ ended => exact kept s ended
    | begins _ _ _ s | prepares _ _ _ _ _ s | resolves _ _ _ _ _ s | skips _ s =>
      rw [s] at isNone
      cases isNone
  ended key isState found notBegin := by
    have kept : after.state key = w.state key → 0 < after.history.ended key := by
      intro s
      exact lt_of_lt_of_le (numbered.ended key isState (s ▸ found) notBegin)
        (change.ended_le key)
    cases change.turn key with
    | stays s | registers _ _ _ s | pays _ _ _ s => exact kept s
    | begins _ _ _ s =>
      rw [s] at found
      cases found
      exact absurd rfl notBegin
    | prepares _ _ _ _ _ _ _ ended => exact ended ▸ Nat.succ_pos _
    | resolves committed _ _ _ before _ _ ended =>
      rw [ended]
      refine numbered.ended key _ before ?_
      cases committed <;> nofun
    | skips _ _ _ ended => exact lt_of_le_of_lt (Nat.zero_le _) ended

end Change

lemma numbered_init : Numbered ({} : World) where
  placed _ _ impossible := nomatch impossible
  written _ impossible := nomatch impossible
  registered _ impossible := nomatch impossible
  owed _ impossible := nomatch impossible
  unended _ _ := rfl
  ended _ _ impossible := nomatch impossible

/-! ### Calls -/

def Task.calls : Task → List Nat
  | .endTxn request | .marker request _ _ | .marked request _ _ _ | .resolve request => [request.call]
  | _ => []

lemma calls_acked (req : Produce) (offset : Int) : (World.acked req offset).calls = [] :=
  acked_elim (P := fun task => task.calls = []) rfl (fun _ => rfl)

lemma calls_markers (req : EndTxn) (topitions : List Topition) :
    (World.markers req topitions).calls = [req.call] :=
  markers_elim (P := fun task => task.calls = [req.call]) rfl (fun _ _ => rfl)

lemma calls_commits (items : List Staged)
    (left : List (String × OrderedMap Topition TxnCommitOffset)) :
    (World.commits items left).calls = [] :=
  commits_elim (P := fun task => task.calls = []) rfl rfl

lemma effect_calls (effect : Effect known index w task after next) :
    after.history.calls = w.history.calls ∧ ∀ call ∈ next.calls, call ∈ task.calls := by
  cases effect with
  | appends | repeats =>
    rw [calls_acked]
    exact ⟨rfl,nofun⟩
  | prepares | registersMarker =>
    rw [calls_markers]
    exact ⟨rfl,fun _ mem => mem⟩
  | @resolves req offsets doc res =>
    obtain ⟨_,_,_,_,same⟩ :=
      foldl_settle_same req.committed (World.resolving w.doc req) w
    rw [same,calls_commits]
    exact ⟨rfl,nofun⟩
  | commitsGroup =>
    rw [calls_commits]
    exact ⟨rfl,nofun⟩
  | passes | marks => exact ⟨rfl,fun _ mem => mem⟩
  | _ => exact ⟨rfl,nofun⟩

lemma step_calls (step : Step known w task act after next) :
    w.history.calls ≤ after.history.calls ∧ ∀ call ∈ next.calls, call ∈ task.calls ∨
        call = w.history.calls ∧ w.history.calls < after.history.calls := by
  cases step with
  | runs effect =>
    obtain ⟨same,kept⟩ := effect_calls effect
    exact ⟨le_of_eq same.symm,fun call mem => .inl (kept call mem)⟩
  | loses effect => exact ⟨le_of_eq (effect_calls effect).1.symm,nofun⟩
  | @stages req detail cur =>
    obtain ⟨doc,all,pending,same⟩ := txnOffsetCommit_same w req
    rw [same]
    exact ⟨le_refl _,nofun⟩
  | startsEnd =>
    refine ⟨Nat.le_succ _,fun call mem => .inr ⟨mem_singleton.mp mem,?_⟩⟩
    exact Nat.lt_succ_self _
  | ignores =>
    rw [calls_commits]
    exact ⟨le_refl _,nofun⟩
  | _ => exact ⟨le_refl _,nofun⟩

lemma calls_known {guard : World → Task → Act → Prop} :
    Parties.Known (cluster known) guard (fun _ => True)
      (fun w task => ∀ call ∈ task.calls, call < w.history.calls)
      (Parties.TicketsApart Task.calls) :=
  Parties.tickets rfl (fun acted => step_calls (act_step acted))

section

variable {guard : World → Task → Act → Prop}
  (grows : ∀ {w task act}, guard w task act → Grows w task act)

include grows

variable {state : State}

lemma reachable_numbered (reached : Reachable known guard state) :
    Parties.Holds Numbered Ready state := by
  refine Parties.invariant ⟨numbered_init,trivial⟩ ?_ ?_ reached
  · intro before after task next act numbered ready allowed acted
    have step := act_step acted
    exact ⟨(step_change step).numbered ready numbered,step_ready ready (grows allowed) step⟩
  · intro before after task next other act _ _ ready _ acted
    exact (step_change (act_step acted)).ready ready

lemma numbered_known : Parties.Known (cluster known) guard Numbered
      (fun w task => Ready w task ∧ ∀ call ∈ task.calls, call < w.history.calls)
      (Parties.TicketsApart Task.calls) := by
  intro s reached
  obtain ⟨numbered,ready⟩ := reachable_numbered grows reached
  obtain ⟨⟨-,called⟩,apart⟩ := calls_known s reached
  exact ⟨⟨numbered,fun index => ⟨ready index,called index⟩⟩,apart⟩

end

/-! ### Runs -/

def payments : Topition := ⟨"payments", 0⟩

def payment (producerEpoch baseSequence : Int) : Batch where
  magic := magicRecordBatchV2
  attributes := 16
  producerId := 1
  producerEpoch := producerEpoch
  baseSequence := baseSequence
  recordCount := 1

def beginPayment : List (Nat × Act) :=
  [ (0, .initProducerId "payer" 60000 (some (-1)) (some (-1))),
    (0, .addTxnPartitions (.versionZeroToThree "payer" 1 0 [("payments", [0])]) 0) ]

/-- An index that shows the payment, and the batches after it up to an offset. -/
def paid (next : Int) : Folded := { Partition.folded { log := [payment 0 0] } with next }

def producePayment : List (Nat × Act) :=
  [(0, .produce (some "payer") payments (payment 0 0)), (0, .run {}), (0, .run {})]

end Kodansu.Cluster

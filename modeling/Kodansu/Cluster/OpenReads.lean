/-
Read-committed fetches and transactions that are not ended.

A record is in the log before the document knows of it, and a fetch reads the document before
the log.  A fetch that reads the document when every record of a begun transaction is
registered, and a high watermark below the records that came since, returns none of them.
-/

import Kodansu.Cluster.Numbers

namespace Kodansu.Cluster

open Lib Segment Record Producer Transaction Fetch

variable {w after : World} {task next other : Task}

/-- A record of a transaction that `AddPartitionsToTxn` has begun for the partition, and that no
`EndTxn` has ended. -/
structure Unfinished (world : World) (topition : Topition) (record : Written) : Prop where
  member : record ∈ world.history.written
  topition : record.topition = topition
  begun : record.begun = true
  unended : record.number = world.history.ended record.key

/-- No fetch has returned a record of a transaction that is not ended. -/
def Hidden (state : State) : Prop :=
  ∀ party request batches, state.party party = .answered request batches →
    ∀ record, Unfinished state.world request.topition record → record.batch ∉ batches

/-! ### The condition on a run -/

def stableOffset (doc : Meta) (topition : Topition) (highWatermark : Int) : Int :=
  (doc.openTransactionFloors.get? topition).getD highWatermark

/-- The document is read when it knows of every record of a transaction that is not ended; the
high watermark is not above those that came since; and the log is read from segments in which
no region crosses the last stable offset. -/
def ReadsApart (world : World) : Task → Act → Prop
  | .fetch request, .run _ => ∀ record ∈ world.history.written,
      record.topition = request.topition → record.begun = true →
      record.number = world.history.ended record.key →
      ∃ range ∈ world.range record.key record.topition, range.offsetStart ≤ record.batch.baseOffset
  | .stable request _ seen, .watermark highWatermark => ∀ record ∈ world.history.written,
      record.topition = request.topition → record.begun = true →
      record.number = world.history.ended record.key → seen ≤ record.batch.baseOffset →
      highWatermark ≤ record.batch.baseOffset
  | .bounded request doc highWatermark, .read logs _ => ∀ attempt < maxAttempts,
      Aligned (logs attempt) (stableOffset doc request.topition highWatermark)
        (world.partitions request.topition).truncateFloor
  | _, _ => True

structure ReadsInOrder (world : World) (task : Task) (action : Act) : Prop where
  grows : Grows world task action
  apart : ReadsApart world task action

instance (world : World) (task : Task) (action : Act) : Decidable (ReadsApart world task action) := by
  unfold ReadsApart
  split <;> infer_instance

instance (world : World) (task : Task) (action : Act) :
    Decidable (ReadsInOrder world task action) :=
  decidable_of_iff (Grows world task action ∧ ReadsApart world task action)
    ⟨fun both => ⟨both.1, both.2⟩, fun inOrder => ⟨inOrder.grows, inOrder.apart⟩⟩

/-! ### The invariant -/

structure OpenRanges (world : World) : Prop where
  begun : ∀ record ∈ world.history.written, record.begun = true →
    record.number = world.history.ended record.key → world.state record.key = some .begin
  placed : ∀ key topition range, world.range key topition = some range →
    range.offsetStart < (world.partitions topition).next

def Reads (world : World) : Task → Prop
  | .stable request doc seen =>
    (∀ start ∈ doc.openStarts request.topition, start < seen) ∧
      seen ≤ (world.partitions request.topition).next ∧
      ∀ record, Unfinished world request.topition record → seen ≤ record.batch.baseOffset ∨
        ∃ start ∈ doc.openStarts request.topition, start ≤ record.batch.baseOffset
  | .bounded request doc highWatermark =>
    stableOffset doc request.topition highWatermark ≤ (world.partitions request.topition).next ∧
      ∀ record, Unfinished world request.topition record →
        stableOffset doc request.topition highWatermark ≤ record.batch.baseOffset
  | .answered request batches =>
    (∀ batch ∈ batches, batch ∈ (world.partitions request.topition).log) ∧
      ∀ record, Unfinished world request.topition record → record.batch ∉ batches
  | _ => True

/-! ### Steps -/

variable {action : Act} {record : Written} {tp : Topition} {offset bound offsetEnd : Int}
  {range : Option TxnProduceOffset}

lemma Change.written_cases (change : Change w task action after) (grows : Grows w task action)
    (mem : record ∈ after.history.written) :
    record ∈ w.history.written ∨
      record.batch.baseOffset = (w.partitions record.topition).next ∧
        (record.begun = true → w.state record.key = some .begin) ∧
        after.state record.key = w.state record.key := by
  rcases change.written_last grows mem with before | ⟨req,-,-,appended,still⟩
  · exact .inl before
  · refine .inr ⟨?_,appended.begun,still.state _⟩
    rw [appended.batch,appended.topition]

lemma Change.begun (change : Change w task action after) (grows : Grows w task action)
    (numbered : Numbered w)
    (begun : ∀ record ∈ w.history.written, record.begun = true →
      record.number = w.history.ended record.key → w.state record.key = some .begin) :
    ∀ record ∈ after.history.written, record.begun = true →
      record.number = after.history.ended record.key → after.state record.key = some .begin := by
  intro record mem wasBegun isNumber
  rcases change.written_cases grows mem with before | ⟨-,isOpen,same⟩
  · have bound := (numbered.written record before).2
    have later := change.ended_le record.key
    have isState := begun record before wasBegun (by omega)
    by_contra unbegun
    rcases change.unbegun unbegun with wasNot | ended
    · exact wasNot isState
    · omega
  · exact same.trans (isOpen wasBegun)

lemma Unfinished.before (unfinished : Unfinished after tp record)
    (change : Change w task action after) (grows : Grows w task action) (numbered : Numbered w) :
    Unfinished w tp record ∨
      record.batch.baseOffset = (w.partitions tp).next := by
  rcases change.written_cases grows unfinished.member with before | ⟨last,-,-⟩
  · have bound := (numbered.written record before).2
    have later := change.ended_le record.key
    have same := unfinished.unended
    exact .inl ⟨before,unfinished.topition,unfinished.begun,by omega⟩
  · exact .inr (unfinished.topition ▸ last)

lemma widen_start_lt
    (below : offset < bound) : (widen range offset offsetEnd).offsetStart < bound := by
  cases range with
  | none => exact below
  | some range => exact lt_of_le_of_lt (min_le_right _ _) below

lemma Change.ranges_placed (change : Change w task action after) (ready : Ready w task)
    (numbered : Numbered w)
    (placed : ∀ key tp range, w.range key tp = some range →
      range.offsetStart < (w.partitions tp).next) :
    ∀ key tp range, after.range key tp = some range →
      range.offsetStart < (after.partitions tp).next := by
  intro key tp range found
  have grows := change.next_le tp
  have kept : w.range key tp = some range →
      range.offsetStart < (after.partitions tp).next :=
    fun before => lt_of_lt_of_le (placed key tp range before) grows
  cases change with
  | still _ still | appends _ _ _ still
  | marks _ _ still => exact kept (still.range key tp ▸ found)
  | begins _ _ _ _ same | owes _ _ _ _ _ same => exact kept (same key tp ▸ found)
  | resolves _ _ _ resolved =>
    cases resolved key with
    | stays _ same => exact kept (same tp ▸ found)
    | resolves committed _ _ same =>
      rw [same] at found
      split at found
      · cases found
      · exact kept found
    | skips _ _ same =>
      rw [same] at found
      cases found
  | @registers req txn offset isTask _ _ same =>
    subst isTask
    rw [same] at found
    split at found
    · rename_i here
      obtain ⟨-,batch,inLog,isOffset⟩ := ready
      have bounds := numbered.placed _ batch inLog
      cases found
      apply widen_start_lt
      rw [here.2.1] at grows ⊢
      omega
    · exact kept found
  | @pays req marked offset rest isTask _ _ same =>
    subst isTask
    rw [same] at found
    split at found
    · rename_i here
      have bounds := numbered.placed _ _ ready
      simp only [endOf] at bounds
      cases found
      apply widen_start_lt
      rw [here.2.1] at grows ⊢
      omega
    · exact kept found

/-! ### Fetches -/

variable {key : Key} {topition : Topition} {req : FetchRequest} {index : Folded} {doc : Meta}
  {seen highWatermark : Int} {logs : Nat → StoredLog} {conditions : Nat → Conditions}
  {batches : List Batch} {known : Topition → Bool}

lemma mem_openStarts_of_begin {range : TxnProduceOffset}
    (begun : w.state key = some .begin) (found : w.range key topition = some range) :
    range.offsetStart ∈ w.doc.openStarts topition := by
  obtain ⟨detail,inDoc,s⟩ := Option.bind_eq_some_iff.mp begun
  rw [World.range,inDoc,Option.bind_some] at found
  refine ⟨key,detail,range,inDoc,?_,found,rfl⟩
  simp [TxnDetail.isOpen,s]

lemma start_of_mem_openStarts {start : Int} (mem : start ∈ w.doc.openStarts tp) :
    ∃ key range, w.range key tp = some range ∧ range.offsetStart = start := by
  obtain ⟨key,detail,range,inDoc,-,found,isStart⟩ := mem
  exact ⟨key,range,by rw [World.range,inDoc]; exact found,isStart⟩

lemma reads_fetch (ranges : OpenRanges w) (apart : ReadsApart w (.fetch req) (.run index)) :
    Reads w (.stable req w.doc (w.partitions req.topition).next) := by
  refine ⟨fun start mem => ?_,le_refl _,fun record unfinished => .inr ?_⟩
  · obtain ⟨key,range,found,isStart⟩ := start_of_mem_openStarts mem
    exact isStart ▸ ranges.placed key req.topition range found
  · obtain ⟨range,found,below⟩ := apart record unfinished.member unfinished.topition
      unfinished.begun unfinished.unended
    have begun := ranges.begun record unfinished.member unfinished.begun unfinished.unended
    rw [unfinished.topition] at found
    exact ⟨range.offsetStart,mem_openStarts_of_begin begun found,below⟩

lemma stableOffset_spec (doc : Meta) (tp : Topition) (highWatermark : Int) :
    IsLeast (doc.openStarts tp) (stableOffset doc tp highWatermark) ∨
      doc.openStarts tp = ∅ ∧ stableOffset doc tp highWatermark = highWatermark :=
  lastStable_spec doc tp { highWatermark }

lemma reads_watermark (reads : Reads w (.stable req doc seen))
    (apart : ReadsApart w (.stable req doc seen) (.watermark highWatermark))
    (within : highWatermark ≤ (w.partitions req.topition).next) :
    Reads w (.bounded req doc highWatermark) := by
  obtain ⟨below,before,known⟩ := reads
  rcases stableOffset_spec doc req.topition highWatermark with ⟨isStart,least⟩ | ⟨none,same⟩
  · have early := below _ isStart
    refine ⟨by omega,fun record unfinished => ?_⟩
    rcases known record unfinished with later | ⟨start,mem,registered⟩
    · omega
    · exact le_trans (least mem) registered
  · rw [Reads,same]
    refine ⟨within,fun record unfinished => ?_⟩
    rcases known record unfinished with later | ⟨start,mem,-⟩
    · exact apart record unfinished.member unfinished.topition unfinished.begun unfinished.unended
        later
    · rw [none] at mem
      cases mem

lemma reads_read (reads : Reads w (.bounded req doc highWatermark))
    (apart : ReadsApart w (.bounded req doc highWatermark) (.read logs conditions))
    (shown : ∀ attempt < maxAttempts, Shows (logs attempt) (w.partitions req.topition))
    (fetched : fetch doc req.topition
      ((w.partitions req.topition).state highWatermark) logs conditions req.offset
      req.maxBytes .readCommitted = .ok batches) : Reads w (.answered req batches) := by
  constructor
  · intro batch mem
    obtain ⟨attempt,bound,fenced,inView,-,-,inRegion,-⟩ := fetch_mem fetched mem
    exact shown attempt bound fenced inView batch inRegion
  · intro record unfinished mem
    obtain ⟨attempt,bound,fenced,inView,starts,ends,inRegion,above,serves⟩ :=
      fetch_mem fetched mem
    have below := apart attempt bound fenced inView starts ends _ inRegion above serves
    have stable := reads.2 record unfinished
    omega

lemma step_reads (reads : Reads w task) (ranges : OpenRanges w)
    (apart : ReadsApart w task action) (step : Step known w task action after next) :
    Reads after next := by
  cases step with
  | runs effect =>
    cases effect with
    | appends | repeats => exact acked_elim trivial (fun _ => trivial)
    | prepares | registersMarker => exact markers_elim trivial (fun _ _ => trivial)
    | resolves | commitsGroup => exact commits_elim trivial trivial
    | readsMeta => exact reads_fetch ranges apart
    | _ => trivial
  | ignores => exact commits_elim trivial trivial
  | bounds within => exact reads_watermark reads apart within
  | reads shown fetched => exact reads_read reads apart shown fetched
  | _ => trivial

lemma Reads.bystander (reads : Reads w other) (numbered : Numbered w)
    (grows : Grows w task action) (change : Change w task action after) : Reads after other := by
  cases other with
  | stable req doc seen =>
    obtain ⟨below,before,known⟩ := reads
    have longer := change.next_le req.topition
    refine ⟨below,by omega,fun record unfinished => ?_⟩
    rcases unfinished.before change grows numbered with was | last
    · exact known record was
    · left
      omega
  | bounded req doc highWatermark =>
    obtain ⟨before,known⟩ := reads
    have longer := change.next_le req.topition
    refine ⟨by omega,fun record unfinished => ?_⟩
    rcases unfinished.before change grows numbered with was | last
    · exact known record was
    · omega
  | answered req batches =>
    obtain ⟨inLog,hidden⟩ := reads
    refine ⟨fun batch mem => change.log_subset _ (inLog batch mem),?_⟩
    intro record unfinished mem
    rcases unfinished.before change grows numbered with was | last
    · exact hidden record was mem
    · -- the fetch has returned only what was in the log before
      have bounds := numbered.placed _ _ (inLog _ mem)
      omega
  | _ => trivial

lemma openRanges_init : OpenRanges ({} : World) where
  begun _ impossible := nomatch impossible
  placed _ _ _ impossible := nomatch impossible

/-- No record of an unended transaction is returned, in every run whose reads are in order. -/
theorem open_transactions_hidden {state : State} (reached : Reachable known ReadsInOrder state) :
    Hidden state := by
  have holds : Parties.Holds OpenRanges Reads state := by
    refine Parties.invariant_over (numbered_known ReadsInOrder.grows) ⟨openRanges_init,trivial⟩
      ?_ ?_ reached
    · intro before after task next action numbered ⟨ready,_⟩ _ ranges reads allowed acted
      have step := act_step acted
      have change := step_change step
      exact ⟨⟨change.begun allowed.grows numbered ranges.begun,change.ranges_placed ready numbered ranges.placed⟩,
        step_reads reads ranges allowed.apart step⟩
    · intro before after task next other action numbered _ _ _ _ _ _ reads allowed acted
      exact reads.bystander numbered allowed.grows (step_change (act_step acted))
  intro party request batches isTask record unfinished
  have reads := holds.2 party
  rw [isTask] at reads
  exact reads.2 record unfinished

/-! ### Runs -/

def segmentLog (batches : List Batch) : StoredLog where
  rows :=
    let row := Index.layoutRow 0 0 0 batches.length
    [{ row with entry := { row.entry with byteLen := (batches.map Batch.wireSize).sum } }]
  region _ _ := batches
  byteLen_eq := by
    intro row member
    rw [List.mem_singleton.mp member]

def fetchPayments (highWatermark : Int) (batches : List Batch) : List (Nat × Act) :=
  [ (1, .fetch ⟨payments, 0, 1024⟩), (1, .run {}), (1, .watermark highWatermark),
    (1, .read (fun _ => segmentLog batches) (fun _ => {})) ]

def Task.answer : Task → Option (Topition × List Batch)
  | .answered request batches => some (request.topition, batches)
  | _ => none

lemma answered_of_answer (answer : task.answer = some (topition, batches)) :
    ∃ request, task = .answered request batches ∧ request.topition = topition := by
  cases task with
  | answered request found =>
    cases answer
    exact ⟨request,rfl,rfl⟩
  | _ => cases answer

def fetchBeforeRegistration : List (Nat × Act) :=
  beginPayment ++ [(0, .produce (some "payer") payments (payment 0 0)), (0, .run {})] ++
    fetchPayments 1 [payment 0 0]

theorem fetchBeforeRegistration_returns_open_record :
    ∃ state, Reachable (fun _ => true) Grows state ∧ ¬ Hidden state := by
  have ended : ((cluster (fun _ => true)).ran Grows fetchBeforeRegistration).map
      (fun state => (state.world.history.written, state.world.history.ended ("payer", 0),
        (state.party 1).answer)) =
      some ([⟨payments,payment 0 0,("payer", 0),0,true⟩], 0,
        some (payments, [payment 0 0])) := by
    decide +kernel
  obtain ⟨state,reached,seen⟩ := Parties.ran_reachable ended
  simp only [Prod.mk.injEq] at seen
  obtain ⟨written,isEnded,answer⟩ := seen
  obtain ⟨request,isTask,isTopition⟩ := answered_of_answer answer
  refine ⟨state,reached,fun hidden => ?_⟩
  refine hidden 1 request _ isTask ⟨payments,payment 0 0,("payer", 0),0,true⟩ ?_
    (List.mem_singleton_self _)
  exact ⟨written ▸ List.mem_singleton_self _,isTopition.symm,rfl,isEnded.symm⟩

theorem open_transactions_hidden_registered :
    ∃ state, Reachable (fun _ => true) ReadsInOrder state ∧
      state.world.history.written = [⟨payments, { payment 0 0 with baseOffset := 1 },
        ("payer", 0), 0, true⟩] ∧
      (state.party 1).answer = some (payments, [{ recordCount := 1 }]) ∧ Hidden state := by
  have ended : ((cluster (fun _ => true)).ran ReadsInOrder (
      [(0, .produce none payments { recordCount := 1 }), (0, .run {})] ++ beginPayment ++
        [ (0, .produce (some "payer") payments (payment 0 0)),
          (0, .run { next := 1 }), (0, .run {}) ] ++ fetchPayments 2 [{ recordCount := 1 }])).map
      (fun state => (state.world.history.written, (state.party 1).answer)) =
      some ([⟨payments,{ payment 0 0 with baseOffset := 1 },("payer", 0),0,true⟩],
        some (payments, [{ recordCount := 1 }])) := by decide +kernel
  obtain ⟨state,reached,seen⟩ := Parties.ran_reachable ended
  obtain ⟨written,answer⟩ := Prod.mk.inj seen
  exact ⟨state,reached,written,answer,open_transactions_hidden reached⟩

end Kodansu.Cluster

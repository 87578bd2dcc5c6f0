/-
The markers of a transaction and its resolution.

`EndTxn` skips the markers of a transaction that is prepared already, so a call that was cut
short leaves markers that no other call writes.  In runs in which no transaction is resolved
while such markers are owed, a resolved transaction has all of its markers.
-/

import Kodansu.Cluster.Numbers

namespace Kodansu.Cluster

open Lib Segment Record Producer Transaction Fetch List

variable {w after : World} {task next other : Task} {act : Act} {owed : Owed}

def Above (world : World) (key : Key) (number : Nat) (topition : Topition) (offset : Int) : Prop :=
  ∀ record ∈ world.history.written, record.key = key → record.number = number →
    record.topition = topition → endOf record.batch ≤ offset

def HasMarker (world : World) (key : Key) (topition : Topition) (committed : Bool)
    (offset : Int) : Prop :=
  ∃ producerId, world.doc.producer? key.1 = some producerId ∧
    { endTransactionMarker producerId key.2 committed with baseOffset := offset } ∈
      (world.partitions topition).log

/-- Whenever a detail says that its transaction is resolved, each partition with a registered
range has the marker, above the records.  A range or a record that came after the transaction
was ended counts too. -/
def MarkersPrecede (world : World) : Prop :=
  ∀ (committed : Bool), ∀ range ∈ world.history.registrations,
    world.state range.key = some (resolvedAs committed) →
    world.history.ended range.key ≤ range.number + 1 →
    ∃ offset, HasMarker world range.key range.topition committed offset ∧
      ∀ number, world.history.ended range.key ≤ number + 1 →
        Above world range.key number range.topition offset

/-! ### The condition on a run -/

def IsOpen (world : World) (key : Key) : Prop := world.state key = some .begin

/-- Every `EndTxn` that ended a transaction of the epoch has come to the end of its markers. -/
def Paid (world : World) (key : Key) : Prop := ∀ owed ∈ world.history.owed, owed.key ≠ key

/-- A transactional batch is appended and registered while its transaction is begun, and a
transaction is resolved when no `EndTxn` has yet to write markers of it. -/
def InOrder (world : World) : Task → Prop
  | .produce request => ∀ transactionId ∈ request.transactionId,
      request.batch.isTransactional = true →
      IsOpen world (transactionId, request.batch.producerEpoch)
  | .acked request transactionId _ => IsOpen world (transactionId, request.batch.producerEpoch)
  | .resolve request => ∀ key ∈ (World.resolving world.doc request).map TxnId.key, Paid world key
  | _ => True

structure Orderly (world : World) (task : Task) (action : Act) : Prop where
  grows : Grows world task action
  inOrder : action.takesEffect = true → InOrder world task

instance (world : World) (key : Key) : Decidable (IsOpen world key) :=
  inferInstanceAs (Decidable (world.state key = some .begin))

instance (world : World) (key : Key) : Decidable (Paid world key) :=
  inferInstanceAs (Decidable (∀ owed ∈ world.history.owed, owed.key ≠ key))

instance (world : World) (task : Task) : Decidable (InOrder world task) :=
  match task with
  | .produce request => inferInstanceAs (Decidable (∀ transactionId ∈ request.transactionId,
      request.batch.isTransactional = true →
      IsOpen world (transactionId, request.batch.producerEpoch)))
  | .acked request transactionId _ =>
    inferInstanceAs (Decidable (IsOpen world (transactionId, request.batch.producerEpoch)))
  | .resolve request => inferInstanceAs
      (Decidable (∀ key ∈ (World.resolving world.doc request).map TxnId.key, Paid world key))
  | .idle | .endTxn .. | .marker .. | .marked .. | .commit .. | .fetch .. | .stable ..
  | .bounded .. | .answered .. => isTrue trivial

instance (world : World) (task : Task) (action : Act) : Decidable (Orderly world task action) :=
  decidable_of_iff
    (Grows world task action ∧ (action.takesEffect = true → InOrder world task))
    ⟨fun both => ⟨both.1, both.2⟩, fun orderly => ⟨orderly.grows, orderly.inOrder⟩⟩

/-! ### The invariant -/

structure Marking (world : World) : Prop where
  calls : ∀ owed ∈ world.history.owed, owed.call < world.history.calls
  written : ∀ record ∈ world.history.written, world.state record.key ≠ some .begin →
    record.number < world.history.ended record.key
  registered : ∀ range ∈ world.history.registrations, world.state range.key ≠ some .begin →
    range.number < world.history.ended range.key
  ranged : ∀ range ∈ world.history.registrations, world.state range.key = some .begin →
    range.number = world.history.ended range.key → (world.range range.key range.topition).isSome
  prepared : ∀ committed, ∀ range ∈ world.history.registrations,
    world.state range.key = some (preparedAs committed) →
    range.number + 1 = world.history.ended range.key →
    (∃ offset, HasMarker world range.key range.topition committed offset ∧
      Above world range.key range.number range.topition offset) ∨
    ∃ call, ⟨call, range.topition, range.key, range.number, committed⟩ ∈ world.history.owed
  resolved : ∀ committed, ∀ range ∈ world.history.registrations,
    world.state range.key = some (resolvedAs committed) →
    range.number + 1 = world.history.ended range.key →
    ∃ offset, HasMarker world range.key range.topition committed offset ∧
      Above world range.key range.number range.topition offset

def Works (world : World) (request : EndTxn) : Prop :=
  world.doc.producer? request.transactionId = some request.producerId ∧
    ∀ owed ∈ world.history.owed, owed.call = request.call →
      owed.key = request.key ∧ owed.committed = request.committed

def Marks (world : World) : Task → Prop
  | .endTxn request => ∀ owed ∈ world.history.owed, owed.call ≠ request.call
  | .marker request _ _ => Works world request
  | .marked request topition offset _ => Works world request ∧
      ∀ owed ∈ world.history.owed, owed.call = request.call → owed.topition = topition →
        Above world owed.key owed.number topition offset
  | _ => True

/-! ### What a step keeps -/

variable {key : Key} {tp : Topition} {committed : Bool} {offset : Int} {known : Topition → Bool}
  {number : Nat}

lemma HasMarker.step (marker : HasMarker w key tp committed offset)
    (step : Step known w task act after next) :
    HasMarker after key tp committed offset := by
  obtain ⟨pid,found,logged⟩ := marker
  exact ⟨pid,(step_doc step).producer found,(step_change step).log_subset tp logged⟩

lemma Change.above (change : Change w task act after)
    (ended : number < w.history.ended key) (above : Above w key number tp offset) :
    Above after key number tp offset := by
  cases change with
  | still kept | begins _ _ kept | resolves _ _ kept => rwa [Above,kept.written]
  | appends _ _ _ _ _ written =>
    rw [Above,written]
    intro record mem isKey isNumber isTopition
    rcases mem_append.mp mem with before | new
    · exact above record before isKey isNumber isTopition
    · have current := (appended_of_mem_writes new).number
      rw [isKey,isNumber] at current
      exact absurd current (Nat.ne_of_lt ended)
  | registers _ _ _ _ _ _ written | owes _ _ _ _ _ _ _ _ written | marks _ _ _ _ written
  | pays _ _ _ _ _ _ written => rwa [Above,written]

lemma Change.number_lt (change : Change w task act after)
    (bound : number ≤ w.history.ended key)
    (before : w.state key ≠ some .begin → number < w.history.ended key)
    (unbegun : after.state key ≠ some .begin) : number < after.history.ended key := by
  rcases change.unbegun unbegun with wasNot | now
  · exact lt_of_lt_of_le (before wasNot) (change.ended_le key)
  · exact lt_of_le_of_lt bound now

section

variable (marking : Marking w) (numbered : Numbered w) (orderly : Orderly w task act)
  (change : Change w task act after)

include marking numbered orderly change

lemma Marking.step_written :
    ∀ record ∈ after.history.written, after.state record.key ≠ some .begin →
      record.number < after.history.ended record.key := by
  intro record mem unbegun
  rcases change.written_last orderly.grows mem with before | ⟨req,isTask,takes,appended,still⟩
  · exact change.number_lt (numbered.written record before).2 (marking.written record before) unbegun
  · obtain ⟨txn,isId,transactional,isKey⟩ := appended.transaction
    subst isTask
    have isOpen := orderly.inOrder takes txn isId transactional
    rw [still.state,isKey] at unbegun
    exact absurd isOpen unbegun

lemma Marking.step_registered :
    ∀ range ∈ after.history.registrations, after.state range.key ≠ some .begin →
      range.number < after.history.ended range.key := by
  intro range mem unbegun
  rcases change.registrations_inv mem with before | ⟨_,_,_,isTask,takes,isNew,-,s,-⟩
  · exact change.number_lt (numbered.registered range before) (marking.registered range before)
      unbegun
  · subst isTask
    rw [s,isNew] at unbegun
    exact absurd (orderly.inOrder takes) unbegun

end

variable {request : EndTxn} {index : Folded} {state : State}

lemma Change.range_kept (change : Change w task act after)
    (begun : after.state key = some .begin) (isRanged : (w.range key tp).isSome) :
    (after.range key tp).isSome := by
  cases change.turn key with
  | stays _ range | begins _ _ _ _ range | prepares _ _ _ _ _ _ range => rwa [range]
  | registers _ _ _ _ range | pays _ _ _ _ range =>
    rw [range]
    split
    · rfl
    · exact isRanged
  | resolves committed _ _ _ _ s =>
    rw [s] at begun
    cases committed <;> cases begun
  | skips _ s =>
    rw [s] at begun
    cases begun

lemma Marking.step_ranged (marking : Marking w) (numbered : Numbered w)
    (change : Change w task act after) :
    ∀ range ∈ after.history.registrations, after.state range.key = some .begin →
      range.number = after.history.ended range.key →
      (after.range range.key range.topition).isSome := by
  intro range mem begun isNumber
  rcases change.registrations_inv mem with before | ⟨_,_,_,-,-,-,isRange,-⟩
  · have grows := change.ended_le range.key
    by_cases wasBegun : w.state range.key = some .begin
    · have bound := numbered.registered range before
      exact change.range_kept begun (marking.ranged range before wasBegun (by omega))
    · have earlier := marking.registered range before wasBegun
      omega
  · rw [isRange]
    rfl

lemma Change.registered_before (change : Change w task act after) {range : Registration}
    (mem : range ∈ after.history.registrations)
    (ended : range.number < after.history.ended range.key) :
    range ∈ w.history.registrations := by
  rcases change.registrations_inv mem with before | ⟨_,_,_,-,-,isNew,-,-,same⟩
  · exact before
  · rw [same,isNew] at ended
    exact absurd ended (Nat.lt_irrefl _)

lemma Change.owed_inv (change : Change w task act after)
    (before : owed ∈ w.history.owed) :
    owed ∈ after.history.owed ∨ ∃ req offset rest,
      task = .marked req owed.topition offset rest ∧ owed.call = req.call := by
  cases change with
  | still kept | begins _ _ kept
  | resolves _ _ kept => exact .inl (kept.owed ▸ before)
  | appends _ _ _ _ _ _ _ same | registers _ _ _ _ _ _ _ _ same
  | marks _ _ _ _ _ _ same => exact .inl (same ▸ before)
  | owes _ _ _ _ _ _ _ _ _ _ same =>
    rw [same]
    exact .inl (mem_append_left _ before)
  | @pays req tp offset rest isTask _ _ _ _ _ _ _ same =>
    by_cases paid : owed.call = req.call ∧ owed.topition = tp
    · obtain ⟨isCall,rfl⟩ := paid
      exact .inr ⟨req,offset,rest,isTask,isCall⟩
    · rw [same,mem_filter]
      exact .inl ⟨before,by simpa [imp_iff_not_or] using paid⟩

lemma Marking.step_prepared (marking : Marking w) (marks : Marks w task)
    (ready : Ready w task) (step : Step known w task act after next) :
    ∀ committed, ∀ range ∈ after.history.registrations,
      after.state range.key = some (preparedAs committed) →
      range.number + 1 = after.history.ended range.key →
      (∃ offset, HasMarker after range.key range.topition committed offset ∧
        Above after range.key range.number range.topition offset) ∨
      ∃ call, ⟨call, range.topition, range.key, range.number, committed⟩ ∈ after.history.owed := by
  intro committed range mem prepared isLast
  have change := step_change step
  have before := change.registered_before mem (by omega)
  rcases change.prepared_inv prepared with ⟨wasPrepared,same⟩ |
    ⟨req,detail,-,-,-,found,begun,ended,owed⟩
  · rw [same] at isLast
    have earlier : range.number < w.history.ended range.key := by omega
    rcases marking.prepared committed range before wasPrepared isLast with
      ⟨offset,marker,above⟩ | ⟨call,owed⟩
    · exact .inl ⟨offset,marker.step step,change.above earlier above⟩
    · rcases change.owed_inv owed with still | ⟨req,offset,rest,isTask,isCall⟩
      · exact .inr ⟨call,still⟩
      · -- the call has just registered this marker, so it is in the log
        subst isTask
        obtain ⟨⟨producer,own⟩,above⟩ := marks
        obtain ⟨isKey,isCommitted⟩ := own _ owed isCall
        have marker : HasMarker w range.key range.topition committed offset := by
          simp only at isKey isCommitted
          rw [isKey,isCommitted]
          exact ⟨req.producerId,producer,ready⟩
        exact .inl ⟨offset,marker.step step,change.above earlier (above _ owed isCall rfl)⟩
  · have isNumber : range.number = w.history.ended range.key := by omega
    have begunThere : w.state range.key = some .begin := by
      rw [World.state,found]
      exact begun
    have isRanged := marking.ranged range before begunThere isNumber
    obtain ⟨written,inDetail⟩ := Option.isSome_iff_exists.mp isRanged
    have inStarts : range.topition ∈ detail.starts.map Prod.fst := by
      rw [World.range,found] at inDetail
      exact mem_map.mpr ⟨_,TxnDetail.mem_starts.mpr ⟨written,inDetail,rfl⟩,rfl⟩
    right
    refine ⟨req.call,?_⟩
    rw [owed,isNumber]
    exact mem_append_right _ (mem_map.mpr ⟨_,inStarts,rfl⟩)

lemma Change.resolved_inv (change : Change w task act after)
    (resolved : after.state key = some (resolvedAs committed)) :
    (w.state key = some (resolvedAs committed) ∧
        after.history.ended key = w.history.ended key) ∨
      (w.state key = some (preparedAs committed) ∧
        after.history.ended key = w.history.ended key ∧
        ∃ req, task = .resolve req ∧ act.takesEffect = true ∧
          key ∈ (World.resolving w.doc req).map TxnId.key) ∨
      w.state key = none ∧ committed = true := by
  cases change.turn key with
  | stays s _ ended | registers _ _ _ s _ ended
  | pays _ _ _ s _ ended => exact .inl ⟨s.symm.trans resolved,ended⟩
  | begins _ _ _ s =>
    rw [s] at resolved
    cases committed <;> cases resolved
  | prepares _ _ _ _ _ s =>
    exact absurd (Option.some.inj (s.symm.trans resolved)) preparedAs_ne_resolvedAs
  | @resolves req outcome isTask takes named before s _ ended =>
    have isOutcome : outcome = committed := by
      rw [s] at resolved
      cases outcome <;> cases committed <;> first | rfl | cases resolved
    subst isOutcome
    exact .inr (.inl ⟨before,ended,req,isTask,takes,named⟩)
  | skips before s =>
    rw [s] at resolved
    cases committed with
    | true => exact .inr (.inr ⟨before,rfl⟩)
    | false => cases resolved

lemma Marking.step_resolved (marking : Marking w) (numbered : Numbered w)
    (orderly : Orderly w task act) (step : Step known w task act after next) :
    ∀ committed, ∀ range ∈ after.history.registrations,
      after.state range.key = some (resolvedAs committed) →
      range.number + 1 = after.history.ended range.key →
      ∃ offset, HasMarker after range.key range.topition committed offset ∧
        Above after range.key range.number range.topition offset := by
  intro committed range mem resolved isLast
  have change := step_change step
  have before := change.registered_before mem (by omega)
  have kept : range.number < w.history.ended range.key →
      (∃ offset, HasMarker w range.key range.topition committed offset ∧
        Above w range.key range.number range.topition offset) →
      ∃ offset, HasMarker after range.key range.topition committed offset ∧
        Above after range.key range.number range.topition offset := by
    intro earlier ⟨offset,marker,above⟩
    exact ⟨offset,marker.step step,change.above earlier above⟩
  rcases change.resolved_inv resolved with ⟨was,same⟩ | ⟨prepared,same,req,isTask,takes,named⟩ |
    ⟨unbegun,-⟩
  · exact kept (by omega) (marking.resolved committed range before was (by omega))
  · rcases marking.prepared committed range before prepared (by omega) with marked | ⟨call,owed⟩
    · exact kept (by omega) marked
    · subst isTask
      exact absurd rfl (orderly.inOrder takes _ named _ owed)
  · -- nothing is registered in an epoch without a transaction
    have earlier := marking.registered range before (by rw [unbegun]; nofun)
    rw [numbered.unended _ unbegun] at earlier
    exact absurd earlier (Nat.not_lt_zero _)

lemma Change.owed_cases (change : Change w task act after)
    (mem : owed ∈ after.history.owed) :
    owed ∈ w.history.owed ∨ ∃ req, task = .endTxn req ∧ owed.call = req.call ∧
      owed.key = req.key ∧ owed.committed = req.committed ∧
      after.state owed.key = some (preparedAs owed.committed) ∧
      owed.number + 1 = after.history.ended owed.key ∧
      (after.range owed.key owed.topition).isSome := by
  cases change with
  | still kept | begins _ _ kept
  | resolves _ _ kept => exact .inl (kept.owed ▸ mem)
  | appends _ _ _ _ _ _ _ same | registers _ _ _ _ _ _ _ _ same
  | marks _ _ _ _ _ _ same => exact .inl (same ▸ mem)
  | @owes req detail isTask _ cur _ s range ended _ _ _ same =>
    rw [same] at mem
    rcases mem_append.mp mem with before | new
    · exact .inl before
    · obtain ⟨tp,inStarts,rfl⟩ := mem_map.mp new
      obtain ⟨⟨_,start⟩,isStart,rfl⟩ := mem_map.mp inStarts
      obtain ⟨written,inRange,-⟩ := TxnDetail.mem_starts.mp isStart
      refine .inr ⟨req,isTask,rfl,rfl,rfl,?_,?_,?_⟩
      · exact (s _).trans (if_pos rfl)
      · rw [ended,Function.update_self]
      · rw [range,World.range,EndTxn.key,Meta.detail?_of_currentDetail cur,
          Option.bind_some,inRange]
        rfl
  | pays _ _ _ _ _ _ _ _ same =>
    rw [same] at mem
    exact .inl (mem_filter.mp mem).1

lemma Works.step (works : Works w request) (step : Step known w task act after next)
    (mine : ∀ request', task = .endTxn request' → request'.call ≠ request.call) :
    Works after request := by
  refine ⟨(step_doc step).producer works.1,fun owed mem isCall => ?_⟩
  rcases (step_change step).owed_cases mem with before | ⟨request',isTask,sameCall,-⟩
  · exact works.2 owed before isCall
  · exact absurd (sameCall.symm.trans isCall) (mine request' isTask)

lemma effect_marks (marks : Marks w task) (numbered : Numbered w) (lands : Lands w index task)
    (effect : Effect known index w task after next) : Marks after next := by
  cases effect with
  | appends | repeats => exact acked_elim trivial (fun _ => trivial)
  | @prepares req detail cur begun =>
    have change := step_change (.runs (.prepares cur begun) : Step known _ _ (.run index) _ _)
    refine markers_elim trivial (fun _ _ => ⟨?_,fun owed mem isCall => ?_⟩)
    · exact (Meta.producer?_updateDetail _ _ _ _).trans (Meta.producer?_of_currentDetail cur)
    · rcases change.owed_cases mem with before | ⟨other,isTask,-,isKey,isCommitted,-⟩
      · exact absurd isCall (marks owed before)
      · cases isTask
        exact ⟨isKey,isCommitted⟩
  | @marks req tp rest =>
    refine ⟨⟨marks.1,marks.2⟩,fun owed _ _ _ record mem _ _ isTopition => ?_⟩
    subst isTopition
    exact lands.symm ▸ (numbered.placed _ _ (numbered.written record mem).1).2
  | @registersMarker req tp offset rest =>
    refine markers_elim trivial (fun _ _ => marks.1.step
      (.runs (@Effect.registersMarker known index w req tp offset rest)) ?_)
    nofun
  | resolves | commitsGroup => exact commits_elim trivial trivial
  | _ => trivial

lemma step_marks (marks : Marks w task) (marking : Marking w) (numbered : Numbered w)
    (grows : Grows w task act) (step : Step known w task act after next) : Marks after next := by
  cases step with
  | runs effect => exact effect_marks marks numbered (grows.lands _ rfl) effect
  | startsEnd => exact fun owed mem => Nat.ne_of_lt (marking.calls owed mem)
  | ignores => exact commits_elim trivial trivial
  | _ => trivial

lemma Marks.bystander (marks : Marks w other) (numbered : Numbered w)
    (apart : Parties.TicketsApart Task.calls task other)
    (step : Step known w task act after next) : Marks after other := by
  have mine : ∀ {req : EndTxn}, req.call ∈ other.calls →
      ∀ request', task = .endTxn request' → request'.call ≠ req.call := by
    intro req inOther request' isTask same
    subst isTask
    exact apart _ (.head _) (same ▸ inOther)
  have change := step_change step
  cases other with
  | endTxn req =>
    intro owed mem
    rcases change.owed_cases mem with before | ⟨request',isTask,isCall,-⟩
    · exact marks owed before
    · rw [isCall]
      exact mine (.head _) request' isTask
  | marker req tp rest => exact marks.step step (mine (.head _))
  | marked req tp offset rest =>
    obtain ⟨works,above⟩ := marks
    refine ⟨works.step step (mine (.head _)),fun owed mem isCall isTopition => ?_⟩
    rcases change.owed_cases mem with before | ⟨request',isTask,sameCall,-⟩
    · exact change.above (numbered.owed owed before) (above owed before isCall isTopition)
    · exact absurd (sameCall.symm.trans isCall) (mine (.head _) request' isTask)
  | _ => trivial

lemma Marking.step (marking : Marking w) (marks : Marks w task)
    (numbered : Numbered w) (ready : Ready w task)
    (called : ∀ call ∈ task.calls, call < w.history.calls)
    (orderly : Orderly w task act) (step : Step known w task act after next) :
    Marking after where
  calls owed member := by
    refine lt_of_lt_of_le ?_ (step_calls step).1
    rcases (step_change step).owed_cases member with before | ⟨req,isTask,isCall,-⟩
    · exact marking.calls owed before
    · subst isTask
      exact isCall ▸ called _ (.head _)
  written := marking.step_written numbered orderly (step_change step)
  registered := marking.step_registered numbered orderly (step_change step)
  ranged := marking.step_ranged numbered (step_change step)
  prepared := marking.step_prepared marks ready step
  resolved := marking.step_resolved numbered orderly step

lemma marking_init : Marking ({} : World) where
  calls _ impossible := nomatch impossible
  written _ impossible := nomatch impossible
  registered _ impossible := nomatch impossible
  ranged _ impossible := nomatch impossible
  prepared _ _ impossible := nomatch impossible
  resolved _ _ impossible := nomatch impossible

lemma reachable_marking {guard : World → Task → Act → Prop}
    (orderly : ∀ {w task act}, guard w task act → Orderly w task act)
    (reached : Reachable known guard state) : Parties.Holds Marking Marks state := by
  refine Parties.invariant_over (numbered_known (fun allowed => (orderly allowed).grows))
    ⟨marking_init,trivial⟩ ?_ ?_ reached
  · intro before after task next act numbered ⟨ready,called⟩ _ marking marks allowed acted
    have step := act_step acted
    exact ⟨marking.step marks numbered ready called (orderly allowed) step,
      step_marks marks marking numbered (orderly allowed).grows step⟩
  · intro before after task next other act numbered _ _ _ apart _ _ marks _ acted
    exact marks.bystander numbered apart (act_step acted)

/-- Markers precede resolution, in every run that is orderly. -/
theorem markers_precede_resolution {state : State} (reached : Reachable known Orderly state) :
    MarkersPrecede state.world := by
  obtain ⟨marking,-⟩ := reachable_marking id reached
  intro committed range member resolved isLast
  have unbegun : state.world.state range.key ≠ some .begin := by
    rw [resolved]
    cases committed <;> nofun
  have earlier := marking.registered range member unbegun
  obtain ⟨offset,marker,above⟩ := marking.resolved committed range member resolved (by omega)
  refine ⟨offset,marker,fun number later record inWritten isKey isNumber isTopition => ?_⟩
  have before := marking.written record inWritten (isKey ▸ unbegun)
  rw [isKey] at before
  exact above record inWritten isKey (by omega) isTopition

/-! ### Runs -/

def retriedCommit : List (Nat × Act) :=
  beginPayment ++ producePayment ++ [ (0, .endTxn "payer" 1 0 true), (0, .run {}), (0, .fail),
      (0, .endTxn "payer" 1 0 true), (0, .run {}), (0, .run {}) ]

theorem retriedCommit_resolves_without_marker :
    ∃ state, Reachable (fun _ => true) Grows state ∧ ¬ MarkersPrecede state.world := by
  have ended : ((cluster (fun _ => true)).ran Grows retriedCommit).map
      (fun state => (state.world.history.registrations, state.world.state ("payer", 0),
        state.world.history.ended ("payer", 0),
        (state.world.partitions payments).log.map Batch.isControl)) =
      some ([⟨payments,0,0,("payer", 0),0⟩], some .committed, 1, [false]) := by decide +kernel
  obtain ⟨state,reached,seen⟩ := Parties.ran_reachable ended
  simp only [Prod.mk.injEq] at seen
  obtain ⟨registrations,isState,isEnded,logged⟩ := seen
  refine ⟨state,reached,fun precede => ?_⟩
  obtain ⟨offset,⟨producerId,-,inLog⟩,-⟩ := precede true _
    (registrations ▸ mem_singleton_self _) isState (le_of_eq isEnded)
  have control : true ∈ (state.world.partitions payments).log.map Batch.isControl :=
    mem_map.mpr ⟨_,inLog,rfl⟩
  rw [logged] at control
  exact absurd control (by decide)

theorem markers_precede_resolution_commit :
    ∃ state, Reachable (fun _ => true) Orderly state ∧
      state.world.state ("payer", 0) = some .committed ∧
      state.world.history.registrations = [⟨payments, 0, 0, ("payer", 0), 0⟩] ∧
      MarkersPrecede state.world := by
  have ended : ((cluster (fun _ => true)).ran Orderly (beginPayment ++ producePayment ++
      [ (0, .endTxn "payer" 1 0 true), (0, .run {}), (0, .run { next := 1 }), (0, .run {}),
        (0, .run {}) ])).map
      (fun state => (state.world.state ("payer", 0), state.world.history.registrations)) =
      some (some .committed, [⟨payments,0,0,("payer", 0),0⟩]) := by decide +kernel
  obtain ⟨state,reached,seen⟩ := Parties.ran_reachable ended
  obtain ⟨isState,registrations⟩ := Prod.mk.inj seen
  exact ⟨state,reached,isState,registrations,markers_precede_resolution reached⟩

end Kodansu.Cluster

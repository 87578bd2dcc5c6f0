/-
Admission to a prefix's buffer, the linger timers, the queue of closed windows and the
worker that flushes it.

A window is taken out of the buffer and pushed onto the queue in one critical section of the
buffers, and the worker pops under the queue's own lock, so each of these is one step.  One
lane is what the process keeps for one prefix; the lanes share the counter that numbers the
windows.
-/

import Kodansu.Leaseless.Replica
import Kodansu.Lib.Parties

namespace Kodansu.Coalesce

open Lib List Option
open Leaseless (Pending)

def prefixBackfillMinRecords : Int := 1000

def coalesceMaxRecords : Int := 100000

def backfillCoalesceBytes : Nat := 32 * 2 ^ 20

def flushQueueDepth : Nat := 1

structure Tuning where
  coalesceBatches : Nat := 64
  coalesceBytes : Nat := 2 ^ 20

def Tuning.flushThresholds (tuning : Tuning) (backfill : Bool) : Nat × Nat :=
  if backfill then
    (max tuning.coalesceBatches coalesceMaxRecords.toNat,
      max tuning.coalesceBytes backfillCoalesceBytes)
  else (tuning.coalesceBatches, tuning.coalesceBytes)

structure PrefixCoalesceBuffer where
  pending : List Pending := []
  records : Int := 0
  bytes : Nat := 0
  backfill : Bool := false
  window : Nat := 0

def PrefixCoalesceBuffer.push (buffer : PrefixCoalesceBuffer) (window : Nat) (arrival : Pending) :
    PrefixCoalesceBuffer :=
  let span := arrival.batch.lastOffsetDelta + 1
  { pending := buffer.pending ++ [arrival]
    records := buffer.records + span
    bytes := buffer.bytes + (8 + 4 + (max arrival.batch.batchLength 0).toNat)
    backfill := buffer.backfill || decide (prefixBackfillMinRecords ≤ span)
    window := if buffer.pending.isEmpty then window else buffer.window }

def PrefixCoalesceBuffer.full (buffer : PrefixCoalesceBuffer) (tuning : Tuning) : Bool :=
  let (batchesThreshold, bytesThreshold) := tuning.flushThresholds buffer.backfill
  decide (batchesThreshold ≤ buffer.pending.length) || decide (bytesThreshold ≤ buffer.bytes) ||
    decide (coalesceMaxRecords ≤ buffer.records)

structure PrefixFlushQueue where
  closed : List PrefixCoalesceBuffer := []
  enqueued : Nat := 0
  draining : Bool := false
  started : Nat := 0

inductive Worker
  | idle
  | flushing (window : PrefixCoalesceBuffer)

def Worker.window : Worker → Option PrefixCoalesceBuffer
  | .idle => none
  | .flushing window => some window

/-- What the process keeps for one prefix: the buffer, the windows whose timers run, the
queue, its workers, and the positions that admissions wait behind.  The last three fields
record what has been admitted, closed and flushed so far. -/
structure Lane where
  buffer : PrefixCoalesceBuffer := {}
  timers : List Nat := []
  queue : PrefixFlushQueue := {}
  workers : List Worker := []
  waiting : List Nat := []
  admitted : List Pending := []
  closed : List PrefixCoalesceBuffer := []
  flushed : List PrefixCoalesceBuffer := []

namespace Lane

def inFlight (lane : Lane) : List PrefixCoalesceBuffer := lane.workers.filterMap Worker.window

def enqueuePrefixFlush (lane : Lane) : Lane :=
  { lane with
    buffer := {}
    queue :=
      { lane.queue with
        closed := lane.queue.closed ++ [lane.buffer]
        enqueued := lane.queue.enqueued + 1
        draining := true }
    workers := if lane.queue.draining then lane.workers else lane.workers ++ [.idle]
    closed := lane.closed ++ [lane.buffer] }

def push (lane : Lane) (window : Nat) (arrival : Pending) : Lane :=
  { lane with
    buffer := lane.buffer.push window arrival
    admitted := lane.admitted ++ [arrival] }

def admitPrefixCoalesced (lane : Lane) (tuning : Tuning) (window : Nat) (arrival : Pending) :
    Lane :=
  let pushed := lane.push window arrival
  if pushed.buffer.full tuning || arrival.batch.isControl then
    let closed := pushed.enqueuePrefixFlush
    { closed with waiting := closed.waiting ++ [closed.queue.enqueued] }
  else if lane.buffer.pending.isEmpty then { pushed with timers := pushed.timers ++ [window] }
  else pushed

def linger (lane : Lane) (window : Nat) : Option Lane :=
  if window ∈ lane.timers then
    let fired := { lane with timers := lane.timers.erase window }
    if lane.buffer.window = window ∧ lane.buffer.pending ≠ [] then some fired.enqueuePrefixFlush
    else some fired
  else none

/-- An admission that closed a window goes on once at most `flushQueueDepth` windows wait. -/
def resume (lane : Lane) (position : Nat) : Option Lane :=
  if position ∈ lane.waiting ∧ position ≤ lane.queue.started + flushQueueDepth then
    some { lane with waiting := lane.waiting.erase position }
  else none

/-- A worker's next step.  The end of a flush is the same step whether it succeeded, failed or
panicked: each runs in a task of its own. -/
def drainPrefixFlushQueue (lane : Lane) (index : Nat) : Option Lane :=
  match lane.workers[index]?, lane.queue.closed with
  | none, _ => none
  | some .idle, [] =>
    some
      { lane with
        queue := { lane.queue with draining := false }
        workers := lane.workers.eraseIdx index }
  | some .idle, window :: rest =>
    some
      { lane with
        queue := { lane.queue with closed := rest, started := lane.queue.started + 1 }
        workers := lane.workers.set index (.flushing window) }
  | some (.flushing window), _ =>
    some
      { lane with
        workers := lane.workers.set index .idle
        flushed := lane.flushed ++ [window] }

end Lane

inductive Act
  | admitPrefix (arrival : Pending)
  | linger (window : Nat)
  | resume (position : Nat)
  | drain (index : Nat)

def Act.drains : Act → Bool
  | .drain _ => true
  | _ => false

/-- `window` is the process-wide counter; only the first batch of a window draws from it. -/
def act (tuning : Tuning) (window : Nat) (lane : Lane) : Act → Option (Nat × Lane)
  | .admitPrefix arrival =>
    some (if lane.buffer.pending.isEmpty then window + 1 else window,
      lane.admitPrefixCoalesced tuning (window + 1) arrival)
  | .linger numbered => (lane.linger numbered).map ((window, ·))
  | .resume position => (lane.resume position).map ((window, ·))
  | .drain index => (lane.drainPrefixFlushQueue index).map ((window, ·))

def process (tuning : Tuning) : Parties Nat Lane Act where
  world := 0
  party := {}
  act := act tuning

/-! ### What holds of every lane -/

inductive Staffed : PrefixFlushQueue → List Worker → Prop
  | stopped {queue : PrefixFlushQueue} (idle : queue.draining = false) (empty : queue.closed = []) :
      Staffed queue []
  | drained {queue : PrefixFlushQueue} (worker : Worker) (busy : queue.draining = true) :
      Staffed queue [worker]

structure Orderly (lane : Lane) : Prop where
  staffed : Staffed lane.queue lane.workers
  /-- Every closed window is flushed, being flushed or queued, in the order of closing. -/
  windows : lane.closed = lane.flushed ++ lane.inFlight ++ lane.queue.closed
  /-- Every admitted batch is in a closed window or in the buffer, in the order of admission. -/
  batches : lane.admitted = lane.closed.flatMap PrefixCoalesceBuffer.pending ++ lane.buffer.pending
  /-- A window that is filling has its timer running. -/
  lingers : lane.buffer.pending ≠ [] → lane.buffer.window ∈ lane.timers

namespace Orderly

variable {lane next : Lane}

lemma initial : Orderly {} where
  staffed := .stopped rfl rfl
  windows := rfl
  batches := rfl
  lingers := fun filled => absurd rfl filled

lemma enqueue (staffed : Staffed lane.queue lane.workers)
    (windows : lane.closed = lane.flushed ++ lane.inFlight ++ lane.queue.closed)
    (batches : lane.admitted =
      lane.closed.flatMap PrefixCoalesceBuffer.pending ++ lane.buffer.pending) :
    Orderly lane.enqueuePrefixFlush := by
  have spawned : Staffed lane.enqueuePrefixFlush.queue lane.enqueuePrefixFlush.workers ∧
      lane.enqueuePrefixFlush.inFlight = lane.inFlight := by
    unfold Lane.enqueuePrefixFlush Lane.inFlight
    generalize lane.workers = workers at staffed
    cases staffed with
    | stopped idle _ =>
      rw [idle]
      exact ⟨.drained .idle rfl,rfl⟩
    | drained worker busy =>
      rw [busy]
      exact ⟨.drained worker rfl,rfl⟩
  constructor
  · exact spawned.1
  · rw [spawned.2]
    simp [Lane.enqueuePrefixFlush,windows]
  · simp [Lane.enqueuePrefixFlush,batches]
  · exact fun filled => absurd rfl filled

variable {tuning : Tuning} {position : Nat}

lemma admitPrefix (orderly : Orderly lane) (window : Nat) (arrival : Pending) :
    Orderly (lane.admitPrefixCoalesced tuning window arrival) := by
  have batches : (lane.push window arrival).admitted =
      (lane.push window arrival).closed.flatMap PrefixCoalesceBuffer.pending ++
        (lane.push window arrival).buffer.pending := by
    simp [Lane.push,PrefixCoalesceBuffer.push,orderly.batches]
  unfold Lane.admitPrefixCoalesced
  dsimp only
  split
  · have closed : Orderly (lane.push window arrival).enqueuePrefixFlush :=
      enqueue orderly.staffed orderly.windows batches
    exact ⟨closed.staffed,closed.windows,closed.batches,closed.lingers⟩
  · split
    · rename_i first
      refine ⟨orderly.staffed,orderly.windows,batches,fun _ => ?_⟩
      simp [Lane.push,PrefixCoalesceBuffer.push,first]
    · rename_i later
      refine ⟨orderly.staffed,orderly.windows,batches,fun _ => ?_⟩
      have filled : lane.buffer.pending ≠ [] := by simpa using later
      simpa [Lane.push,PrefixCoalesceBuffer.push,later] using orderly.lingers filled

lemma linger {window : Nat} (orderly : Orderly lane)
    (fired : lane.linger window = some next) : Orderly next := by
  unfold Lane.linger at fired
  split at fired
  · split at fired
    · cases fired
      exact enqueue orderly.staffed orderly.windows orderly.batches
    · rename_i other
      cases fired
      refine ⟨orderly.staffed,orderly.windows,orderly.batches,fun filled => ?_⟩
      have differ : lane.buffer.window ≠ window := fun same => other ⟨same,filled⟩
      exact (mem_erase_of_ne differ).mpr (orderly.lingers filled)
  · cases fired

lemma resume (orderly : Orderly lane)
    (resumed : lane.resume position = some next) : Orderly next := by
  unfold Lane.resume at resumed
  split at resumed
  · cases resumed
    exact ⟨orderly.staffed,orderly.windows,orderly.batches,orderly.lingers⟩
  · cases resumed

end Orderly

inductive Drains (lane : Lane) : Lane → Prop
  | stop (worker : lane.workers = [.idle]) (empty : lane.queue.closed = []) :
      Drains lane
        { lane with queue := { lane.queue with draining := false }, workers := [] }
  | start {window : PrefixCoalesceBuffer} {rest : List PrefixCoalesceBuffer}
      (worker : lane.workers = [.idle]) (queued : lane.queue.closed = window :: rest) :
      Drains lane
        { lane with
          queue := { lane.queue with closed := rest, started := lane.queue.started + 1 }
          workers := [.flushing window] }
  | finish {window : PrefixCoalesceBuffer} (worker : lane.workers = [.flushing window]) :
      Drains lane { lane with workers := [.idle], flushed := lane.flushed ++ [window] }

namespace Orderly

variable {lane next : Lane} {index : Nat}

lemma drains (orderly : Orderly lane)
    (drained : lane.drainPrefixFlushQueue index = some next) : Drains lane next := by
  obtain ⟨worker,at_index⟩ : ∃ worker, lane.workers[index]? = some worker := by
    unfold Lane.drainPrefixFlushQueue at drained
    cases found : lane.workers[index]? with
    | none => simp [found] at drained
    | some worker => exact ⟨worker,rfl⟩
  -- The only worker is the first.
  obtain ⟨first,only⟩ : index = 0 ∧ lane.workers = [worker] := by
    have staffed := orderly.staffed
    generalize lane.workers = workers at staffed at_index
    cases staffed with
    | stopped => cases at_index
    | drained other _ =>
      cases index with
      | zero =>
        cases at_index
        exact ⟨rfl,rfl⟩
      | succ index => cases at_index
  subst first
  unfold Lane.drainPrefixFlushQueue at drained
  rw [only] at drained
  cases worker with
  | idle =>
    cases queued : lane.queue.closed with
    | nil =>
      rw [queued] at drained
      cases drained
      exact .stop only queued
    | cons window rest =>
      rw [queued] at drained
      cases drained
      exact .start only queued
  | flushing window =>
    cases drained
    exact .finish only

@[simp] lemma inFlight_none : [].filterMap Worker.window = [] := rfl

@[simp] lemma inFlight_idle : [Worker.idle].filterMap Worker.window = [] := rfl

@[simp] lemma inFlight_flushing (window : PrefixCoalesceBuffer) :
    [Worker.flushing window].filterMap Worker.window = [window] := rfl

section

variable (orderly : Orderly lane)

include orderly

lemma drain (drained : Drains lane next) : Orderly next := by
  have windows := orderly.windows
  have staffed := orderly.staffed
  unfold Lane.inFlight at windows
  cases drained with
  | stop worker empty =>
    rw [worker,empty] at windows
    exact ⟨.stopped rfl empty,by simpa [Lane.inFlight,empty] using windows,orderly.batches,
      orderly.lingers⟩
  | start worker queued =>
    rw [worker,queued] at windows
    rw [worker] at staffed
    cases staffed with
    | drained _ busy =>
      exact ⟨.drained _ busy,by simpa [Lane.inFlight] using windows,orderly.batches,orderly.lingers⟩
  | finish worker =>
    rw [worker] at windows staffed
    cases staffed with
    | drained _ busy =>
      exact ⟨.drained _ busy,by simpa [Lane.inFlight] using windows,orderly.batches,orderly.lingers⟩

variable {tuning : Tuning} {action : Act} {numbered : Nat}

lemma step {window : Nat}
    (acted : act tuning window lane action = some (numbered, next)) : Orderly next := by
  cases action with
  | admitPrefix arrival =>
    cases acted
    exact orderly.admitPrefix _ arrival
  | linger fires =>
    obtain ⟨_,fired,same⟩ := map_eq_some_iff.mp acted
    cases same
    exact orderly.linger fired
  | resume position =>
    obtain ⟨_,resumed,same⟩ := map_eq_some_iff.mp acted
    cases same
    exact orderly.resume resumed
  | drain index =>
    obtain ⟨_,drained,same⟩ := map_eq_some_iff.mp acted
    cases same
    exact orderly.drain (orderly.drains drained)

lemma single : lane.inFlight.length ≤ 1 := by
  have staffed := orderly.staffed
  unfold Lane.inFlight
  generalize lane.workers = workers at staffed
  refine Nat.le_trans (length_filterMap_le _ _) ?_
  cases staffed with
  | stopped => exact Nat.zero_le _
  | drained => exact Nat.le_refl _

lemma worker_of_queued (queued : lane.queue.closed ≠ []) : lane.workers ≠ [] := by
  have staffed := orderly.staffed
  generalize lane.workers = workers at staffed
  cases staffed with
  | stopped _ empty => exact absurd empty queued
  | drained worker => exact cons_ne_nil worker []

/-- What has been flushed or is being flushed is what was admitted first. -/
lemma flushed_prefix :
    (lane.flushed ++ lane.inFlight).flatMap PrefixCoalesceBuffer.pending <+: lane.admitted := by
  rw [orderly.batches,orderly.windows]
  simp only [flatMap_append,append_assoc]
  exact (prefix_append_right_inj _).mpr (prefix_append _ _)

end

variable {tuning : Tuning} {state : Parties.Global Nat Lane}

lemma reachable
    (reached : System.Reachable (process tuning).system System.unguarded state) (index : Nat) :
    Orderly (state.party index) := by
  have free : System.Reachable (process tuning).system (Parties.guarded fun _ _ _ => True) state :=
    reached
  have holds : Parties.Holds (fun _ => True) (fun _ lane => Orderly lane) state := by
    refine Parties.invariant ?_ ?_ ?_ free
    · exact ⟨trivial,initial⟩
    · intro _ _ _ _ _ _ orderly _ acted
      exact ⟨trivial,orderly.step acted⟩
    · intro _ _ _ _ _ _ _ _ orderly _ _
      exact orderly
  exact holds.2 index

end Orderly

/-! ### A drained queue is flushed -/

def Lane.progress (lane : Lane) : Nat := 2 * lane.flushed.length + lane.inFlight.length

structure Later (lane next : Lane) : Prop where
  closed : lane.closed <+: next.closed
  progress : lane.progress ≤ next.progress

namespace Later

variable {lane middle next : Lane}

lemma refl (lane : Lane) : Later lane lane := ⟨prefix_rfl,Nat.le_refl _⟩

lemma trans (first : Later lane middle) (second : Later middle next) : Later lane next :=
  ⟨first.closed.trans second.closed,Nat.le_trans first.progress second.progress⟩

lemma enqueue (lane : Lane) : Later lane lane.enqueuePrefixFlush where
  closed := prefix_append _ _
  progress := by
    unfold Lane.progress Lane.inFlight Lane.enqueuePrefixFlush
    split
    · exact Nat.le_refl _
    · simp [Worker.window]

variable {tuning : Tuning} {position numbered : Nat} {action : Act}

lemma admitPrefix (lane : Lane) (window : Nat) (arrival : Pending) :
    Later lane (lane.admitPrefixCoalesced tuning window arrival) := by
  have pushed : Later lane (lane.push window arrival) := ⟨prefix_rfl,Nat.le_refl _⟩
  unfold Lane.admitPrefixCoalesced
  dsimp only
  split
  · have closed := pushed.trans (enqueue _)
    exact ⟨closed.closed,closed.progress⟩
  · split
    · exact ⟨pushed.closed,pushed.progress⟩
    · exact pushed

lemma linger {window : Nat} (fired : lane.linger window = some next) : Later lane next := by
  unfold Lane.linger at fired
  split at fired
  · have stopped : Later lane { lane with timers := lane.timers.erase window } :=
      ⟨prefix_rfl,Nat.le_refl _⟩
    split at fired
    · cases fired
      exact stopped.trans (enqueue _)
    · cases fired
      exact stopped
  · cases fired

lemma resume (resumed : lane.resume position = some next) : Later lane next := by
  unfold Lane.resume at resumed
  split at resumed
  · cases resumed
    exact ⟨prefix_rfl,Nat.le_refl _⟩
  · cases resumed

lemma drain (drained : Drains lane next) : Later lane next := by
  cases drained with
  | stop worker
  | start worker => exact ⟨prefix_rfl,by simp [Lane.progress,Lane.inFlight,worker]⟩
  | finish worker =>
    refine ⟨prefix_rfl,?_⟩
    simp only [Lane.progress,Lane.inFlight,worker,Orderly.inFlight_idle,
      Orderly.inFlight_flushing,length_append,length_singleton,length_nil]
    omega

lemma step {window : Nat} (orderly : Orderly lane)
    (acted : act tuning window lane action = some (numbered, next)) : Later lane next := by
  cases action with
  | admitPrefix arrival =>
    cases acted
    exact admitPrefix lane _ arrival
  | linger fires =>
    obtain ⟨_,fired,same⟩ := map_eq_some_iff.mp acted
    cases same
    exact linger fired
  | resume position =>
    obtain ⟨_,resumed,same⟩ := map_eq_some_iff.mp acted
    cases same
    exact resume resumed
  | drain index =>
    obtain ⟨_,drained,same⟩ := map_eq_some_iff.mp acted
    cases same
    exact drain (orderly.drains drained)

end Later

variable {lane : Lane}

lemma Drains.progress_lt {next : Lane} (orderly : Orderly lane) (drained : Drains lane next)
    (behind : lane.flushed.length < lane.closed.length) : lane.progress < next.progress := by
  have windows := congrArg List.length orderly.windows
  unfold Lane.inFlight at windows
  cases drained with
  | stop worker empty =>
    rw [worker,empty] at windows
    simp only [Orderly.inFlight_idle,append_nil] at windows
    omega
  | start worker queued => simp [Lane.progress,Lane.inFlight,worker]
  | finish worker =>
    simp only [Lane.progress,Lane.inFlight,worker,Orderly.inFlight_idle,
      Orderly.inFlight_flushing,length_append,length_singleton,length_nil]
    omega

def drains (index : Nat) (actions : List (Nat × Act)) : Nat :=
  actions.countP (fun action => action.1 = index && action.2.drains)

section

variable {tuning : Tuning} {s after : Parties.Global Nat Lane}
  (reached : System.Reachable (process tuning).system System.unguarded s)

include reached

variable {action : Nat × Act} {index worker : Nat}

lemma process_later
    (moved : (process tuning).system.step s action = some after) (index : Nat) :
    Later (s.party index) (after.party index) := by
  obtain ⟨window,lane,acted,same⟩ := Parties.step_inv moved
  subst same
  dsimp only
  by_cases own : index = action.1
  · subst own
    rw [Function.update_self]
    exact Later.step (Orderly.reachable reached _) acted
  · rw [Function.update_of_ne own]
    exact Later.refl _

lemma process_progress_lt
    (moved : (process tuning).system.step s (index, .drain worker) = some after)
    (behind : (s.party index).flushed.length < (s.party index).closed.length) :
    (s.party index).progress < (after.party index).progress := by
  obtain ⟨window,lane,acted,same⟩ := Parties.step_inv moved
  subst same
  obtain ⟨_,drained,same⟩ := map_eq_some_iff.mp acted
  cases same
  dsimp only
  rw [Function.update_self]
  have orderly := Orderly.reachable reached index
  exact (orderly.drains drained).progress_lt orderly behind

section

variable {position : Nat} {actions : List (Nat × Act)}
  (closed : position < (s.party index).closed.length)
  (ran : System.exec (process tuning).system (fun _ _ => true) s actions = some after)

include closed ran

lemma run_progress : (s.party index).closed <+: (after.party index).closed ∧
      min (2 * (position + 1)) ((s.party index).progress + drains index actions) ≤
        (after.party index).progress := by
  induction actions generalizing s with
  | nil =>
    cases ran
    exact ⟨prefix_rfl,Nat.min_le_right _ _⟩
  | cons action rest ih =>
    unfold System.exec at ran
    cases moved : (process tuning).system.step s action with
    | none =>
      rw [moved] at ran
      cases ran
    | some middle =>
      rw [moved] at ran
      have later := process_later reached moved index
      obtain ⟨grown,flushes⟩ := ih (reached.step trivial moved)
        (Nat.lt_of_lt_of_le closed later.closed.length_le) ran
      refine ⟨later.closed.trans grown,?_⟩
      have progress := later.progress
      obtain ⟨acting,step⟩ := action
      by_cases works : acting = index ∧ step.drains
      · obtain ⟨own,working⟩ := works
        subst own
        have counted : drains acting ((acting, step) :: rest) = drains acting rest + 1 := by
          simp [drains,working]
        cases step with
        | drain worker =>
          by_cases behind : (s.party acting).flushed.length < (s.party acting).closed.length
          · have nearer := process_progress_lt reached moved behind
            omega
          · have enough : 2 * (position + 1) ≤ (s.party acting).progress := by
              unfold Lane.progress
              omega
            omega
        | admitPrefix | linger | resume => cases working
      · have counted : drains index ((acting, step) :: rest) = drains index rest := by
          simp only [drains,countP_cons]
          simp [works]
        omega

/-- Once the worker has moved twice for each window up to the one at `position`, that window
is flushed, at its place in the order of closing. -/
lemma run_flushes (worked : 2 * (position + 1) ≤ drains index actions) :
    (after.party index).flushed[position]? = (s.party index).closed[position]? := by
  obtain ⟨grown,progress⟩ := run_progress reached closed ran
  have ended : System.Reachable (process tuning).system System.unguarded after :=
    reached.exec (fun _ => trivial) ran
  have orderly := Orderly.reachable ended index
  have single := orderly.single
  have flushed : position < (after.party index).flushed.length := by
    unfold Lane.progress at progress
    omega
  have kept : (after.party index).closed[position]? = (s.party index).closed[position]? := by
    obtain ⟨_,same⟩ := grown
    rw [← same,getElem?_append_left closed]
  rw [← kept,orderly.windows,append_assoc,getElem?_append_left flushed]

end

end

/-- In every state of every run, every closed window of a prefix is flushed, being flushed or
queued, in the order of closing; one window at most is being flushed; a queued window has a
worker; the batches of a partition are flushed in the order of their admission.  A closed window
is flushed once its worker has moved often enough, however the other steps fall. -/
theorem flushQueue_orderly (tuning : Tuning) {state : Parties.Global Nat Lane}
    (reached : System.Reachable (process tuning).system System.unguarded state) (index : Nat) :
    (state.party index).closed = (state.party index).flushed ++ (state.party index).inFlight ++
          (state.party index).queue.closed ∧
      (state.party index).inFlight.length ≤ 1 ∧
      ((state.party index).queue.closed ≠ [] → (state.party index).workers ≠ []) ∧
      (∀ topition : Segment.Topition,
        (((state.party index).flushed ++ (state.party index).inFlight).flatMap
            PrefixCoalesceBuffer.pending).filter (fun pending => pending.topition = topition) <+:
          (state.party index).admitted.filter (fun pending => pending.topition = topition)) ∧
      ∀ (actions : List (Nat × Act)) (after : Parties.Global Nat Lane),
        System.exec (process tuning).system (fun _ _ => true) state actions = some after →
          ∀ position < (state.party index).closed.length,
            2 * (position + 1) ≤ drains index actions →
              (after.party index).flushed[position]? = (state.party index).closed[position]? := by
  have orderly := Orderly.reachable reached index
  refine ⟨orderly.windows,orderly.single,orderly.worker_of_queued,?_,?_⟩
  · intro topition
    exact orderly.flushed_prefix.filter _
  · intro actions after ran position closed worked
    exact run_flushes reached closed ran worked

def arrival (partition sequence : Int) : Pending :=
  ⟨⟨"t", partition⟩, { producerId := 1, baseSequence := sequence }⟩

/-- With a count threshold of two, the second batch closes the first window.  While that one is
flushed, two batches close the next window, and the timer closes the one after it. -/
def threeWindows : List (Nat × Act) :=
  [ (0, .admitPrefix (arrival 0 0)), (0, .admitPrefix (arrival 0 1)), (0, .drain 0),
    (0, .admitPrefix (arrival 1 0)), (1, .admitPrefix (arrival 7 0)), (0, .admitPrefix (arrival 0 2)),
    (0, .admitPrefix (arrival 0 3)), (0, .linger 4) ]

theorem flushQueue_orderly_threeWindows :
    ∃ state after : Parties.Global Nat Lane,
      System.Reachable (process { coalesceBatches := 2 }).system System.unguarded state ∧
        (state.party 0).closed.map PrefixCoalesceBuffer.pending =
          [[arrival 0 0, arrival 0 1], [arrival 1 0, arrival 0 2], [arrival 0 3]] ∧
        (state.party 0).flushed.length = 0 ∧ (state.party 0).inFlight.length = 1 ∧
        System.exec (process { coalesceBatches := 2 }).system (fun _ _ => true) state
          (replicate 6 (0, .drain 0)) = some after ∧
        (after.party 0).flushed[2]? = (state.party 0).closed[2]? ∧
        (((after.party 0).flushed ++ (after.party 0).inFlight).flatMap
            PrefixCoalesceBuffer.pending).filter (fun pending => pending.topition = ⟨"t", 0⟩) <+:
          [arrival 0 0, arrival 0 1, arrival 0 2, arrival 0 3] := by
  obtain ⟨state,after,ran,drained,closed,waiting,admitted⟩ : ∃ state after,
      System.exec (process { coalesceBatches := 2 }).system (fun _ _ => true)
          (process { coalesceBatches := 2 }).start threeWindows = some state ∧
        System.exec (process { coalesceBatches := 2 }).system (fun _ _ => true) state
          (replicate 6 (0, .drain 0)) = some after ∧
        (state.party 0).closed.map PrefixCoalesceBuffer.pending =
          [[arrival 0 0, arrival 0 1], [arrival 1 0, arrival 0 2], [arrival 0 3]] ∧
        ((state.party 0).flushed.length = 0 ∧ (state.party 0).inFlight.length = 1) ∧
        (after.party 0).admitted.filter (fun pending => pending.topition = ⟨"t", 0⟩) =
          [arrival 0 0, arrival 0 1, arrival 0 2, arrival 0 3] :=
    ⟨_,_,rfl,rfl,rfl,⟨rfl,rfl⟩,by decide⟩
  have reached : System.Reachable (process { coalesceBatches := 2 }).system System.unguarded state :=
    System.Reachable.init.exec (fun _ => trivial) ran
  have inside : 2 < (state.party 0).closed.length := by
    have counted := congrArg length closed
    rw [length_map] at counted
    exact counted ▸ Nat.lt_succ_self 2
  have flushes := (flushQueue_orderly _ reached 0).2.2.2.2 _ after drained 2 inside (by decide)
  have ordered := (flushQueue_orderly _ (reached.exec (fun _ => trivial) drained) 0).2.2.2.1 ⟨"t",0⟩
  rw [admitted] at ordered
  exact ⟨state,after,reached,closed,waiting.1,waiting.2,drained,flushes,ordered⟩

end Kodansu.Coalesce

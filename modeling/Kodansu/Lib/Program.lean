/-
Programs over the operations of a shared world, and machines that run many of them at once.

A program stops with a value, leaves with an outcome, or performs an operation and goes on with
the reply.  The operations it has performed, with their replies, are its past.  `Follows` says
what is known of the past at each operation of a program, with no other program in sight.

A machine runs one program for each of its parties, one operation at a time and in any order.
All that its runs can do is then said without the programs: a party performs an operation that
is issued at its past.  This is `Conducts`, over which invariants are proved.
-/

import Kodansu.Lib.Parties

namespace Kodansu.Lib

open Function

/-- A program: each operation has its own type of replies. -/
inductive Program (Op : Type) (Reply : Op → Type) (ε α : Type) : Type
  | pure (value : α)
  | exit (outcome : ε)
  | op (operation : Op) (next : Reply operation → Program Op Reply ε α)

namespace Program

abbrev Event {Op : Type} (Reply : Op → Type) := (operation : Op) × Reply operation

variable {Op : Type} {Reply : Op → Type} {ε α β : Type}

def bind : Program Op Reply ε α → (α → Program Op Reply ε β) → Program Op Reply ε β
  | .pure value, rest => rest value
  | .exit outcome, _ => .exit outcome
  | .op operation next, rest => .op operation (fun reply => (next reply).bind rest)

instance : Monad (Program Op Reply ε) where
  pure := .pure
  bind := bind

def perform (operation : Op) : Program Op Reply ε (Reply operation) := .op operation .pure

/-- Each operation of the program is issued at the past it is performed at; the newest event of a
past comes first. -/
def Follows (issued : List (Event Reply) → Op → Prop) (leaves : List (Event Reply) → ε → Prop)
    (stops : List (Event Reply) → α → Prop) : Program Op Reply ε α → List (Event Reply) → Prop
  | .pure value, past => stops past value
  | .exit outcome, past => leaves past outcome
  | .op operation next, past =>
    issued past operation ∧
      ∀ reply, (next reply).Follows issued leaves stops (⟨operation, reply⟩ :: past)

section Follows

variable {issued : List (Event Reply) → Op → Prop} {leaves : List (Event Reply) → ε → Prop}
  {stops : List (Event Reply) → β → Prop} {program : Program Op Reply ε α}
  {past : List (Program.Event Reply)} {operation : Op}
  {rest : Reply operation → Program Op Reply ε β}

@[simp] lemma follows_bind {rest : α → Program Op Reply ε β} :
    (program >>= rest).Follows issued leaves stops past ↔ program.Follows issued leaves
        (fun past value => (rest value).Follows issued leaves stops past) past := by
  induction program generalizing past with
  | pure | exit => exact Iff.rfl
  | op operation next ih =>
    apply and_congr_right
    intro _
    exact forall_congr' (fun reply => ih reply)

lemma follows_perform_bind :
    (perform operation >>= rest).Follows issued leaves stops past ↔ issued past operation ∧
        ∀ reply, (rest reply).Follows issued leaves stops (⟨operation, reply⟩ :: past) :=
  Iff.rfl

end Follows

/-! ### Pasts -/

section Pasts

variable {σ β : Type} {kind : σ → Prop} {past after : List σ} {event : σ} {observe : σ → Option β}
  {value : β}

/-- A later past, whose new events are all of one kind. -/
def Grown (kind : σ → Prop) (past after : List σ) : Prop :=
  ∃ news, after = news ++ past ∧ ∀ event ∈ news, kind event

lemma Grown.refl : Grown kind past past :=
  ⟨[],rfl,nofun⟩

lemma Grown.cons (grown : Grown kind past after) (event : σ) (is : kind event) :
    Grown kind past (event :: after) := by
  obtain ⟨news,same,each⟩ := grown
  exact ⟨event :: news,by rw [same,List.cons_append],List.forall_mem_cons.mpr ⟨is,each⟩⟩

variable {between : List σ} {other : σ → Prop} {newest : σ}

lemma Grown.trans (first : Grown kind past between)
    (second : Grown kind between after) : Grown kind past after := by
  obtain ⟨news,rfl,each⟩ := second
  induction news with
  | nil => exact first
  | cons event news ih =>
    exact (ih (fun event isNew => each event (.tail _ isNew))).cons event
      (each event (.head _))

lemma Grown.weaken (grown : Grown kind past after)
    (implied : ∀ event, kind event → other event) : Grown other past after := by
  obtain ⟨news,same,each⟩ := grown
  exact ⟨news,same,fun event isNew => implied event (each event isNew)⟩

lemma Grown.mem (grown : Grown kind past after) (isEvent : event ∈ past) : event ∈ after := by
  obtain ⟨news,rfl,_⟩ := grown
  exact List.mem_append_right news isEvent

def latest (observe : σ → Option β) (past : List σ) : Option β := past.findSome? observe

def since (observe : σ → Option β) (past : List σ) : List σ :=
  past.takeWhile (fun event => (observe event).isNone)

lemma latest_unseen (unseen : observe event = none) :
    latest observe (event :: past) = latest observe past := by
  unfold latest
  rw [List.findSome?_cons,unseen]

lemma latest_seen (seen : observe event = some value) :
    latest observe (event :: past) = some value := by
  unfold latest
  rw [List.findSome?_cons,seen]

lemma since_unseen (unseen : observe event = none) :
    since observe (event :: past) = event :: since observe past := by
  unfold since
  rw [List.takeWhile_cons_of_pos (by rw [unseen]; rfl)]

lemma since_seen (seen : observe event = some value) : since observe (event :: past) = [] := by
  unfold since
  rw [List.takeWhile_cons_of_neg (by rw [seen]; exact Bool.false_ne_true)]

lemma mem_since_cons (unseen : observe newest = none)
    (isEvent : event ∈ since observe past) : event ∈ since observe (newest :: past) := by
  rw [since_unseen unseen]
  exact .tail _ isEvent

lemma mem_since_self (unseen : observe event = none) : event ∈ since observe (event :: past) := by
  rw [since_unseen unseen]
  exact .head _

lemma mem_since_cons_iff : event ∈ since observe (newest :: past) ↔
      observe newest = none ∧ (event = newest ∨ event ∈ since observe past) := by
  cases isSeen : observe newest with
  | none => rw [since_unseen isSeen,List.mem_cons,eq_self,true_and]
  | some value =>
    rw [since_seen isSeen]
    constructor
    · intro isEvent
      cases isEvent
    · intro both
      cases both.1

lemma mem_of_latest (last : latest observe past = some value) :
    ∃ event ∈ past, observe event = some value :=
  List.exists_of_findSome?_eq_some last

lemma Grown.latest (grown : Grown kind past after)
    (unseen : ∀ event, kind event → observe event = none) :
    Program.latest observe after = Program.latest observe past := by
  obtain ⟨news,rfl,each⟩ := grown
  induction news with
  | nil => rfl
  | cons event news ih =>
    rw [List.cons_append,latest_unseen (unseen event (each event List.mem_cons_self))]
    exact ih (fun event isNew => each event (.tail _ isNew))

lemma Grown.since (grown : Grown kind past after)
    (unseen : ∀ event, kind event → observe event = none)
    (isEvent : event ∈ Program.since observe past) : event ∈ Program.since observe after := by
  obtain ⟨news,rfl,each⟩ := grown
  induction news with
  | nil => exact isEvent
  | cons newest news ih =>
    rw [List.cons_append,since_unseen (unseen newest (each newest List.mem_cons_self))]
    exact .tail _ (ih (fun event isNew => each event (.tail _ isNew)))

end Pasts

end Program

/-! ### Machines -/

/-- A world, what an operation does to it under a choice of the surroundings, what happens to it
from outside, the calls that a party begins with, and the program of each call; a program leaves
with the call to go on with, if any. -/
structure Machine (ω Op : Type) (Reply : Op → Type) (η κ : Type) where
  world : ω
  perform : ω → (operation : Op) → η → Option (Reply operation × ω)
  outside : ω → η → Option ω
  opens : κ → Bool
  body : κ → Program Op Reply (Option κ) Empty

structure Task {Op : Type} (Reply : Op → Type) (κ : Type) where
  call : κ
  past : List (Program.Event Reply)
  rest : Program Op Reply (Option κ) Empty

inductive Act (η κ : Type)
  | start (call : κ)
  | go (choice : η)
  | drop
  | outside (choice : η)

/-- What a party does in a step. -/
inductive Deed (Op η κ : Type)
  | start (call : κ)
  | perform (operation : Op) (choice : η)
  | again (call : κ)
  | finish
  | drop
  | outside (choice : η)

abbrev Roster {Op : Type} (Reply : Op → Type) (κ : Type) := Nat → Option (κ × List (Program.Event Reply))

namespace Machine

variable {ω Op : Type} {Reply : Op → Type} {η κ : Type}

def act (machine : Machine ω Op Reply η κ) (world : ω) (party : Option (Task Reply κ)) :
    Act η κ → Option (ω × Option (Task Reply κ))
  | .start call =>
    match party with
    | none => if machine.opens call then some (world, some ⟨call, [], machine.body call⟩) else none
    | some _ => none
  | .drop => party.map (fun _ => (world, none))
  | .outside choice => (machine.outside world choice).map (fun world => (world, party))
  | .go choice =>
    match party with
    | none => none
    | some task =>
      match task.rest with
      | .pure value => nomatch value
      | .exit none => some (world, none)
      | .exit (some call) => some (world, some ⟨call, task.past, machine.body call⟩)
      | .op operation next =>
        (machine.perform world operation choice).map (fun (reply, world) =>
          (world, some ⟨task.call, ⟨operation, reply⟩ :: task.past, next reply⟩))

def parties (machine : Machine ω Op Reply η κ) : Parties ω (Option (Task Reply κ)) (Act η κ) where
  world := machine.world
  party := none
  act := machine.act

def roster (state : Parties.Global ω (Option (Task Reply κ))) : Roster Reply κ :=
  fun index => (state.party index).map (fun task => (task.call, task.past))

def deed (party : Option (Task Reply κ)) : Act η κ → Option (Deed Op η κ)
  | .start call => some (.start call)
  | .drop => some .drop
  | .outside choice => some (.outside choice)
  | .go choice =>
    match party with
    | none => none
    | some task =>
      match task.rest with
      | .pure value => nomatch value
      | .exit none => some .finish
      | .exit (some call) => some (.again call)
      | .op operation _ => some (.perform operation choice)

/-- A condition on the world, the roster and the deed, as a condition on the step. -/
def conducted (guard : ω → Roster Reply κ → Nat → Deed Op η κ → Prop)
    (state : Parties.Global ω (Option (Task Reply κ))) (action : Nat × Act η κ) : Prop :=
  ∀ done, deed (state.party action.1) action.2 = some done →
    guard state.world (roster state) action.1 done

/-- What a call issues at a past, what it takes for granted of the past it begins at, and what
calls it goes on with. -/
structure Discipline (machine : Machine ω Op Reply η κ) where
  issued : κ → List (Program.Event Reply) → Op → Prop
  enter : κ → List (Program.Event Reply) → Prop
  continues : κ → κ → Prop
  start : ∀ {call}, machine.opens call = true → enter call []
  body : ∀ {call past}, enter call past → (machine.body call).Follows (issued call)
      (fun past outcome => ∀ next, outcome = some next → continues call next ∧ enter next past)
      (fun _ _ => False) past

/-- The worlds and rosters that are reached by parties that perform what is issued. -/
inductive Conducts {machine : Machine ω Op Reply η κ} (discipline : Discipline machine)
    (guard : ω → Roster Reply κ → Nat → Deed Op η κ → Prop) : ω → Roster Reply κ → Prop
  | init : Conducts discipline guard machine.world (fun _ => none)
  | start {world : ω} {roster : Roster Reply κ} {index : Nat} {call : κ}
      (reached : Conducts discipline guard world roster) (free : roster index = none)
      (allowed : guard world roster index (.start call)) :
      Conducts discipline guard world (update roster index (some (call, [])))
  | again {world : ω} {roster : Roster Reply κ} {index : Nat} {call next : κ}
      {past : List (Program.Event Reply)} (reached : Conducts discipline guard world roster)
      (own : roster index = some (call, past)) (continued : discipline.continues call next)
      (entered : discipline.enter next past)
      (allowed : guard world roster index (.again next)) :
      Conducts discipline guard world (update roster index (some (next, past)))
  | finish {world : ω} {roster : Roster Reply κ} {index : Nat}
      (reached : Conducts discipline guard world roster)
      (allowed : guard world roster index .finish) :
      Conducts discipline guard world (update roster index none)
  | drop {world : ω} {roster : Roster Reply κ} {index : Nat}
      (reached : Conducts discipline guard world roster)
      (allowed : guard world roster index .drop) :
      Conducts discipline guard world (update roster index none)
  | outside {world after : ω} {roster : Roster Reply κ} {index : Nat} {choice : η}
      (reached : Conducts discipline guard world roster)
      (allowed : guard world roster index (.outside choice))
      (moved : machine.outside world choice = some after) :
      Conducts discipline guard after roster
  | perform {world after : ω} {roster : Roster Reply κ} {index : Nat} {call : κ}
      {past : List (Program.Event Reply)} {operation : Op} {choice : η} {reply : Reply operation}
      (reached : Conducts discipline guard world roster)
      (own : roster index = some (call, past)) (known : discipline.issued call past operation)
      (allowed : guard world roster index (.perform operation choice))
      (performed : machine.perform world operation choice = some (reply, after)) :
      Conducts discipline guard after
        (update roster index (some (call, ⟨operation, reply⟩ :: past)))

section Conduct

variable {machine : Machine ω Op Reply η κ} (discipline : Discipline machine)
  {guard : ω → Roster Reply κ → Nat → Deed Op η κ → Prop} {index : Nat} {world : ω}

/-- The rest of a task follows the discipline from its past on. -/
def Disciplined (task : Task Reply κ) : Prop :=
  task.rest.Follows (discipline.issued task.call)
    (fun past outcome => ∀ next, outcome = some next →
      discipline.continues task.call next ∧ discipline.enter next past)
    (fun _ _ => False) task.past

lemma roster_update (w : ω) (party : Nat → Option (Task Reply κ)) (index : Nat)
    (task : Option (Task Reply κ)) :
    roster ⟨w, update party index task⟩ = update (roster ⟨w, party⟩) index
        (task.map (fun task => (task.call, task.past))) := by
  funext other
  unfold roster
  dsimp only
  by_cases same : other = index
  · subst same
    rw [update_self,update_self]
  · rw [update_of_ne same,update_of_ne same]

variable {w after : ω} {party : Nat → Option (Task Reply κ)} {action : Act η κ}
  {next : Option (Task Reply κ)} {s : Parties.Global ω (Option (Task Reply κ))}

/-- What one party's action does, said of the roster. -/
lemma act_conducts (reached : Conducts discipline guard w (roster ⟨w, party⟩))
    (disciplined : ∀ task, party index = some task → Disciplined discipline task)
    (allowed : conducted guard ⟨w, party⟩ (index, action))
    (acted : machine.act w (party index) action = some (after, next)) :
    Conducts discipline guard after
        (update (roster ⟨w, party⟩) index (next.map (fun task => (task.call, task.past)))) ∧
      ∀ task, next = some task → Disciplined discipline task := by
  have mine : roster ⟨w,party⟩ index = (party index).map (fun task => (task.call, task.past)) :=
    rfl
  cases action with
  | start call =>
    unfold act at acted
    dsimp only at acted
    cases isTask : party index with
    | none =>
      rw [isTask] at acted mine
      by_cases opens : machine.opens call = true
      · rw [if_pos opens] at acted
        cases acted
        refine ⟨reached.start mine (allowed _ rfl),?_⟩
        intro task same
        cases same
        exact discipline.body (discipline.start opens)
      · rw [if_neg opens] at acted
        cases acted
    | some task =>
      rw [isTask] at acted
      cases acted
  | drop =>
    obtain ⟨task,_,same⟩ := Option.map_eq_some_iff.mp acted
    cases same
    exact ⟨reached.drop (allowed _ rfl),nofun⟩
  | outside choice =>
    obtain ⟨moved,isMoved,same⟩ := Option.map_eq_some_iff.mp acted
    cases same
    rw [← mine,update_eq_self]
    exact ⟨reached.outside (allowed _ rfl) isMoved,disciplined⟩
  | go choice =>
    cases isTask : party index with
    | none =>
      rw [isTask] at acted
      cases acted
    | some task =>
      obtain ⟨call,past,rest⟩ := task
      have follows := disciplined _ isTask
      rw [isTask] at acted mine
      unfold conducted at allowed
      dsimp only at acted allowed
      rw [isTask] at allowed
      cases rest with
      | pure value => exact nomatch value
      | exit outcome =>
        cases outcome with
        | none =>
          cases acted
          exact ⟨reached.finish (allowed _ rfl),nofun⟩
        | some next =>
          cases acted
          obtain ⟨continued,entered⟩ := follows next rfl
          refine ⟨reached.again mine continued entered (allowed _ rfl),?_⟩
          intro task same
          cases same
          exact discipline.body entered
      | op operation continue_ =>
        obtain ⟨⟨reply,moved⟩,performed,same⟩ := Option.map_eq_some_iff.mp acted
        cases same
        refine ⟨reached.perform mine follows.1 (allowed _ rfl) performed,?_⟩
        intro task same
        cases same
        exact follows.2 reply

/-- Every state of the machine is one that is reached by conduct alone. -/
lemma conducts_of_reachable
    (reached : System.Reachable machine.parties.system (conducted guard) s) :
    Conducts discipline guard s.world (roster s) := by
  have both : Conducts discipline guard s.world (roster s) ∧
      ∀ index task, s.party index = some task → Disciplined discipline task := by
    induction reached with
    | init => exact ⟨.init,nofun⟩
    | @step before after act _ allowed moved ih =>
      obtain ⟨w,next,acted,rfl⟩ := Parties.step_inv moved
      obtain ⟨conducts,disciplined⟩ := act_conducts discipline ih.1 (ih.2 act.1) allowed acted
      refine ⟨?_,?_⟩
      · rw [roster_update]
        exact conducts
      · intro index task isTask
        dsimp only at isTask
        by_cases same : index = act.1
        · subst same
          rw [update_self] at isTask
          exact disciplined task isTask
        · rw [update_of_ne same] at isTask
          exact ih.2 index task isTask
  exact both.1

variable {discipline} {own : ω → κ → List (Program.Event Reply) → Prop} {roster : Roster Reply κ}
  {shared : ω → Prop}

/-- A fact about the world and one about each party's past. -/
structure Kept (shared : ω → Prop) (own : ω → κ → List (Program.Event Reply) → Prop) (world : ω)
    (roster : Roster Reply κ) : Prop where
  shared : shared world
  own {index : Nat} {call : κ} {past : List (Program.Event Reply)} (held : roster index = some (call, past)) :
    own world call past

lemma Kept.update {before after : ω} {party : Option (κ × List (Program.Event Reply))}
    (kept : Kept shared own before roster) (sharedAfter : shared after)
    (ownAfter : ∀ call past, party = some (call, past) → own after call past)
    (others : ∀ other call past, other ≠ index → roster other = some (call, past) →
      own before call past → own after call past) :
    Kept shared own after (update roster index party) where
  shared := sharedAfter
  own {other call past} held := by
    by_cases same : other = index
    · subst same
      rw [update_self] at held
      exact ownAfter call past held
    · rw [update_of_ne same] at held
      exact others other call past same held (kept.own held)

/-- The invariant rule: a party that performs an operation owes the fact about the world, its
own, and that of each of the others. -/
lemma Conducts.kept (base : shared machine.world)
    (start : ∀ {w : ω} (call : κ), shared w → own w call [])
    (again : ∀ {w : ω} {call next : κ} {past : List (Program.Event Reply)}, own w call past
      → discipline.continues call next → discipline.enter next past → own w next past)
    (outside : ∀ {w after : ω} {choice : η}, shared w →
      machine.outside w choice = some after →
        shared after ∧ ∀ {call past}, own w call past → own after call past)
    (perform : ∀ {w after : ω} {roster : Roster Reply κ} {index : Nat} {call : κ}
      {past : List (Program.Event Reply)} {operation : Op} {choice : η} {reply : Reply operation},
      Conducts discipline guard w roster → Kept shared own w roster →
      roster index = some (call, past) → discipline.issued call past operation →
      guard w roster index (.perform operation choice) →
      machine.perform w operation choice = some (reply, after) →
      shared after ∧ own after call (⟨operation, reply⟩ :: past) ∧
        ∀ other otherCall otherPast, other ≠ index → roster other = some (otherCall, otherPast) →
          own w otherCall otherPast → own after otherCall otherPast)
    (reached : Conducts discipline guard w roster) : Kept shared own w roster := by
  induction reached with
  | init => exact ⟨base,nofun⟩
  | start _ _ _ ih =>
    refine ih.update ih.shared ?_ (fun _ _ _ _ _ kept => kept)
    intro call past same
    cases same
    exact start _ ih.shared
  | again _ held continued entered _ ih =>
    refine ih.update ih.shared ?_ (fun _ _ _ _ _ kept => kept)
    intro call past same
    cases same
    exact again (ih.own held) continued entered
  | finish _ _ ih | drop _ _ ih => exact ih.update ih.shared nofun (fun _ _ _ _ _ kept => kept)
  | outside _ _ moved ih =>
    obtain ⟨sharedAfter,ownAfter⟩ := outside ih.shared moved
    exact ⟨sharedAfter,fun held => ownAfter (ih.own held)⟩
  | perform reached held known allowed performed ih =>
    obtain ⟨sharedAfter,ownAfter,others⟩ := perform reached ih held known allowed performed
    refine ih.update sharedAfter ?_ others
    intro call past same
    cases same
    exact ownAfter

end Conduct

end Machine

end Kodansu.Lib

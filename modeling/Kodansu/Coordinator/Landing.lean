/-
What an operation does to the store, and what a conditional write lands on.

`Moved` says once what each operation can do.  A write of the generation lands only at the
version that its request has seen, and no two generations have one version: it lands on the very
generation that its request has seen.  The same holds of a member's document.
-/

import Kodansu.Coordinator.Conduct

namespace Kodansu.Coordinator

open Lib Kodansu.Group List

/-! ### Operations -/

def Tells (world : World) : Event → Prop
  | ⟨.readGeneration, held⟩ => held = world.generation
  | ⟨.updateGeneration _ _ _, reply⟩ => reply = none
  | ⟨.readMember _ memberId, reply⟩ => ∀ held, reply = some held → held = world.member? memberId
  | ⟨.writeMember _ _ _ _, reply⟩ => reply = none
  | ⟨.readAssignment generationId, reply⟩ => reply = world.assignments.get? generationId
  | ⟨.createAssignment generationId _, reply⟩ =>
    reply = false ∧ (world.assignments.get? generationId).isSome
  | ⟨.readConsumer, held⟩ => held = world.consumer
  | ⟨.updateConsumer _ _ _, reply⟩ => reply = none
  | ⟨.listContacts, stamps⟩ => stamps = world.contacts
  | ⟨.renewContact _ _ _, _⟩ => False
  | ⟨.answer _, _⟩ => False
  | _ => True

def World.withGeneration (world : World) (cause : Cause) (next : GenerationDoc) : World :=
  { world with
    generation := some ⟨next, world.nextVersion⟩
    nextVersion := world.nextVersion + 1
    generations := ⟨next, world.nextVersion⟩ :: world.generations
    evictions := world.evicted cause next ++ world.evictions }

def World.withMember (world : World) (location : List (List Char)) (next : MemberDoc) (ms : Int) :
    World :=
  { world with
    members := world.members.insert location ⟨next, world.nextVersion, ms⟩
    nextVersion := world.nextVersion + 1 }

def World.withConsumer (world : World) (next : ConsumerGroupDoc) : World :=
  { world with
    consumer := some ⟨next, world.nextVersion⟩
    nextVersion := world.nextVersion + 1 }

inductive Moved (world : World) : Event → World → Prop
  | idle {event : Event} (tells : Tells world event) : Moved world event world
  | generation {cause : Cause} {next : GenerationDoc} :
      Moved world ⟨.updateGeneration cause next world.version, some world.nextVersion⟩
        (world.withGeneration cause next)
  | member {purpose : Purpose} {memberId : String} {location : List (List Char)}
      {next : MemberDoc} {version : Option Nat} {ms : Int}
      (located : groupMemberLocation memberId = some location) :
      Moved world ⟨.writeMember purpose memberId next version, some world.nextVersion⟩
        (world.withMember location next ms)
  | forgotten {memberId : String} {location : List (List Char)}
      (located : groupMemberLocation memberId = some location) :
      Moved world ⟨.deleteMember memberId, ()⟩
        { world with members := world.members.remove location }
  | assigned {generationId : Int} {assignment : AssignmentDoc}
      (absent : world.assignments.get? generationId = none) :
      Moved world ⟨.createAssignment generationId assignment, true⟩
        { world with
          assignments := world.assignments.insert generationId assignment
          created := (generationId, assignment) :: world.created }
  | unassigned {generationId : Int} :
      Moved world ⟨.deleteAssignment generationId, ()⟩
        { world with assignments := world.assignments.remove generationId }
  | consumer {passage : Passage} {next : ConsumerGroupDoc} {version : Option Nat} {stored : Nat} :
      Moved world ⟨.updateConsumer passage next version, some stored⟩ (world.withConsumer next)
  | renewed {passage : Passage} {memberId : String} {contactMs : Int} :
      Moved world ⟨.renewContact passage memberId contactMs, ()⟩
        { world with contacts := (memberId, contactMs) :: world.contacts }
  | dropped {memberId : String} {contactMs : Int} :
      Moved world ⟨.deleteContact memberId contactMs, ()⟩
        { world with contacts := world.contacts.filter (fun stamp => stamp ≠ (memberId, contactMs)) }
  | answered {answer : Answer} :
      Moved world ⟨.answer answer, ()⟩ { world with answers := answer :: world.answers }

variable {operation : Op} {choice : Choice} {reply : operation.Reply}

lemma World.perform_moved {w after : World}
    (performed : w.perform operation choice = some (reply, after)) :
    Moved w ⟨operation, reply⟩ after := by
  cases operation with
  | readMember purpose id =>
    cases performed
    apply Moved.idle
    intro held same
    split at same
    · cases same
    · exact (Option.some.inj same).symm
  | shuffle ids =>
    simp only [World.perform] at performed
    split at performed
    · cases performed
      exact .idle trivial
    · cases performed
  | updateGeneration cause next version =>
    simp only [World.perform] at performed
    split at performed
    · rename_i same
      subst same
      cases performed
      exact .generation
    · cases performed
      exact .idle rfl
  | writeMember purpose id next version =>
    simp only [World.perform] at performed
    split at performed
    · cases performed
    rename_i located
    split at performed
    · cases performed
      exact .member located
    · cases performed
      exact .idle rfl
  | deleteMember id =>
    simp only [World.perform] at performed
    split at performed
    · cases performed
      exact .idle trivial
    rename_i located
    cases performed
    split
    · exact .idle trivial
    · exact .forgotten located
  | listMembers =>
    cases performed
    exact .idle trivial
  | createAssignment gid assignment =>
    simp only [World.perform] at performed
    split at performed
    · rename_i stored isStored
      cases performed
      exact .idle ⟨rfl,by rw [isStored]; rfl⟩
    · rename_i absent
      cases performed
      exact .assigned absent
  | deleteAssignment gid =>
    cases performed
    split
    · exact .idle trivial
    · exact .unassigned
  | updateConsumer passage next version =>
    simp only [World.perform] at performed
    split at performed
    · cases performed
      exact .consumer
    · cases performed
      exact .idle rfl
  | renewContact passage id contactMs =>
    cases performed
    exact .renewed
  | deleteContact id contactMs =>
    cases performed
    split
    · exact .idle trivial
    · exact .dropped
  | answer answer =>
    cases performed
    exact .answered
  | readGeneration | readAssignment | readConsumer
  | listContacts => cases performed; exact .idle rfl
  | now | elapsed | ask | noted | mint | resolve
  | listAssignments => cases performed; exact .idle trivial

/-! ### Landing -/

structure Recorded (world : World) : Prop where
  current : world.generation = world.generations.head?
  below : ∀ held ∈ world.generations, held.version < world.nextVersion
  distinct : (world.generations.map Versioned.version).Nodup

def ObservedWritten (world : World) (past : Past) : Prop :=
  ∀ held, Observed past held → held ∈ world.generations

namespace Recorded

variable {w : World} {held left right : Versioned GenerationDoc} {event : Event}

lemma mem (recorded : Recorded w)
    (isCurrent : w.generation = some held) : held ∈ w.generations := by
  rw [recorded.current] at isCurrent
  exact mem_of_mem_head? isCurrent

lemma unique (recorded : Recorded w)
    (isLeft : left ∈ w.generations) (isRight : right ∈ w.generations)
    (same : left.version = right.version) : left = right :=
  inj_on_of_nodup_map recorded.distinct isLeft isRight same

lemma written (recorded : Recorded w) (cause : Cause) (next : GenerationDoc) :
    Recorded (w.withGeneration cause next) where
  current := rfl
  below held isHeld := by
    cases mem_cons.mp isHeld with
    | inl same =>
      subst same
      exact Nat.lt_succ_self _
    | inr older => exact Nat.lt_succ_of_lt (recorded.below held older)
  distinct := by
    apply nodup_cons.mpr
    refine ⟨?_,recorded.distinct⟩
    intro isVersion
    obtain ⟨held,isHeld,same⟩ := mem_map.mp isVersion
    exact absurd same (Nat.ne_of_lt (recorded.below held isHeld))

lemma moved (recorded : Recorded w) {after : World}
    (moved : Moved w event after) : Recorded after := by
  have kept : ∀ {nextVersion : Nat}, w.nextVersion ≤ nextVersion →
      ∀ held ∈ w.generations, held.version < nextVersion :=
    fun later held isHeld => Nat.lt_of_lt_of_le (recorded.below held isHeld) later
  cases moved with
  | idle => exact recorded
  | generation => exact recorded.written _ _
  | member | consumer => exact ⟨recorded.current,kept (Nat.le_succ _),recorded.distinct⟩
  | _ => exact ⟨recorded.current,recorded.below,recorded.distinct⟩

end Recorded

variable {event : Event} {held : Versioned GenerationDoc} {past : Past}

lemma Moved.generations {w after : World} (moved : Moved w event after) :
    after.generation = w.generation ∧ after.generations = w.generations ∨
      ∃ cause next, event = ⟨.updateGeneration cause next w.version, some w.nextVersion⟩ ∧
        after = w.withGeneration cause next := by
  cases moved with
  | generation => exact .inr ⟨_,_,rfl,rfl⟩
  | _ => exact .inl ⟨rfl,rfl⟩

lemma Moved.keeps_generations {w after : World} (moved : Moved w event after)
    (isHeld : held ∈ w.generations) : held ∈ after.generations := by
  cases moved.generations with
  | inl same =>
    rw [same.2]
    exact isHeld
  | inr written =>
    obtain ⟨cause,next,_,rfl⟩ := written
    exact .tail _ isHeld

lemma ObservedWritten.moved {w after : World}
    (written : ObservedWritten w past) (moved : Moved w event after) :
    ObservedWritten after past :=
  fun held observed => moved.keeps_generations (written held observed)

lemma Moved.observed {w after : World} (recorded : Recorded w)
    (moved : Moved w event after)
    (observed : observedGeneration event = some (some held)) : held ∈ after.generations := by
  cases moved with
  | idle tells =>
    obtain ⟨operation,reply⟩ := event
    cases operation with
    | readGeneration =>
      have same : reply = w.generation := tells
      cases observed
      exact recorded.mem same.symm
    | updateGeneration cause next version =>
      have lost : reply = none := tells
      subst lost
      cases observed
    | _ => cases observed
  | generation =>
    cases observed
    exact .head _
  | _ => cases observed

lemma ObservedWritten.cons {w after : World} (recorded : Recorded w)
    (written : ObservedWritten w past) (moved : Moved w event after) :
    ObservedWritten after (event :: past) := by
  intro held observed
  obtain ⟨other,isEvent,is⟩ := observed
  cases mem_cons.mp isEvent with
  | inl same =>
    subst same
    exact moved.observed recorded is
  | inr older => exact written.moved moved held ⟨other,older,is⟩

/-! ### Runs -/

/-- A condition on what a request does next. -/
abbrev Condition := World → Roster Op.Reply Call → Nat → Deed Op Choice Call → Prop

abbrev Reaches (broker : Broker) (condition : Condition) (world : World)
    (roster : Roster Op.Reply Call) : Prop :=
  Machine.Conducts (discipline broker) condition world roster

section Runs

variable {w : World} {shared : World → Prop}
  {own : World → Call → List (Program.Event Op.Reply) → Prop} {broker : Broker}
  {condition : Condition} {roster : Roster Op.Reply Call} {index : Nat} {call : Call}
  {view : GroupView}

lemma World.outside_inv {after : World} (moved : w.outside choice = some after) :
    after = { w with clockMs := choice.nowMs } ∧ w.clockMs ≤ choice.nowMs := by
  unfold World.outside at moved
  split at moved
  · rename_i later
    cases moved
    exact ⟨rfl,later⟩
  · cases moved

/-- The invariant rule for the coordinator: the time is nobody's operation. -/
lemma Reaches.kept (base : shared {}) (start : ∀ {w} (call), shared w → own w call [])
    (again : ∀ {w call next past}, own w call past → Continues call next → Enter next past →
      own w next past)
    (time : ∀ {w : World} {nowMs : Int}, w.clockMs ≤ nowMs → shared w →
      shared { w with clockMs := nowMs } ∧
        ∀ {call past}, own w call past → own { w with clockMs := nowMs } call past)
    (perform : ∀ {w after : World} {roster : Roster Op.Reply Call} {index : Nat} {call : Call}
      {past : Past} {operation : Op} {choice : Choice} {reply : operation.Reply},
      Reaches broker condition w roster → Machine.Kept shared own w roster →
      roster index = some (call, past) → Issued call past operation →
      condition w roster index (.perform operation choice) →
      w.perform operation choice = some (reply, after) →
      shared after ∧ own after call (⟨operation, reply⟩ :: past) ∧
        ∀ other otherCall otherPast, other ≠ index → roster other = some (otherCall, otherPast) →
          own w otherCall otherPast → own after otherCall otherPast)
    (reached : Reaches broker condition w roster) : Machine.Kept shared own w roster := by
  apply Machine.Conducts.kept base (fun call => start call) again _ perform reached
  intro w after choice kept moved
  obtain ⟨rfl,later⟩ := World.outside_inv moved
  exact time later kept

lemma Reaches.recorded (reached : Reaches broker condition w roster) :
    Machine.Kept Recorded (fun w _ past => ObservedWritten w past) w roster := by
  apply Reaches.kept _ _ _ _ _ reached
  · exact ⟨rfl,fun _ isHeld => absurd isHeld not_mem_nil,nodup_nil⟩
  · intro w call recorded held observed
    obtain ⟨event,isEvent,_⟩ := observed
    cases isEvent
  · intro w call next past written _ _
    exact written
  · intro w nowMs _ recorded
    exact ⟨⟨recorded.current,recorded.below,recorded.distinct⟩,fun written => written⟩
  · intro w after roster index call past operation choice reply _ kept own _ _ performed
    have moved := World.perform_moved performed
    refine ⟨kept.shared.moved moved,(kept.own own).cons kept.shared moved,?_⟩
    intro other otherCall otherPast _ _ written
    exact written.moved moved

lemma Reaches.lands {past : List (Program.Event Op.Reply)}
    (reached : Reaches broker condition w roster)
    (own : roster index = some (call, past)) (seen : Seen past view)
    (same : w.version = view.version) : w.generation = view.held := by
  have recorded := reached.recorded.shared
  cases isCurrent : w.generation with
  | none =>
    rw [World.version,isCurrent] at same
    rw [GroupView.held,← same]
    rfl
  | some held =>
    rw [World.version,isCurrent] at same
    have observed := seen.observed same.symm
    have isView := reached.recorded.own own _ observed
    rw [GroupView.held,← same]
    exact congrArg some (recorded.unique (recorded.mem isCurrent) isView rfl)

end Runs

abbrev State := Parties.Global World (Option (Task Op.Reply Call))

abbrev Reachable (broker : Broker) (condition : Condition) (state : State) : Prop :=
  System.Reachable (coordinator broker).parties.system (Machine.conducted condition) state

variable {broker : Broker} {condition : Condition} {s : State}

lemma Reachable.reaches (reachable : Reachable broker condition s) :
    Reaches broker condition s.world (Machine.roster s) :=
  Machine.conducts_of_reachable (discipline broker) reachable

/-! ### Requests in a run -/

def goes (index count : Nat) (choice : Choice) : List (Nat × Act Choice Call) :=
  List.replicate count (index, .go choice)

def prompt : Choice := { ms := 100000, flag := true }

def prompted (order : List String) : Choice := { prompt with order }

def subscribing (topics : List String) : Encoded MemberMetadata :=
  { bytes := [0, 0], parsed := some { topics } }

def joining (memberId : String) (topics : List String) : Call :=
  .join {
    request := {
      memberId
      instanceId := none
      sessionTimeoutMs := 45000
      rebalanceTimeoutMs := none
      protocolType := "consumer"
      protocols := [("range", subscribing topics)] } }

abbrev Check := World → Roster Op.Reply Call → Nat → Deed Op Choice Call → Bool

def within (bound : Nat) (check : Check) (state : State) (action : Nat × Act Choice Call) : Bool :=
  decide (action.1 < bound) &&
    (Machine.deed (state.party action.1) action.2).all
      (check state.world (Machine.roster state) action.1)

def ends (bound : Nat) (check : Check) (actions : List (Nat × Act Choice Call)) : Option State :=
  System.exec (coordinator {}).parties.system (within bound check)
    (coordinator {}).parties.system.init actions

variable {bound : Nat} {check : Check} {actions : List (Nat × Act Choice Call)}

lemma ends_reachable {ο : Type*} {observe : State → ο} {value : ο}
    (sufficient : ∀ {w roster index deed}, (∀ other, bound ≤ other → roster other = none) →
      check w roster index deed = true → condition w roster index deed)
    (ended : (ends bound check actions).map observe = some value) :
    ∃ s, Reachable {} condition s ∧ observe s = value := by
  have ran : ∀ {actions : List (Nat × Act Choice Call)} {before after : State},
      Reachable {} condition before → (∀ other, bound ≤ other → before.party other = none) →
      System.exec (coordinator {}).parties.system (within bound check) before actions = some after →
      Reachable {} condition after := by
    intro actions
    induction actions with
    | nil =>
      intro before after reachable _ executed
      cases executed
      exact reachable
    | cons act rest ih =>
      intro before after reachable others executed
      unfold System.exec at executed
      split at executed
      · rename_i passed
        obtain ⟨isWithin,isChecked⟩ := Bool.and_eq_true_iff.mp passed
        cases moved : (coordinator {}).parties.system.step before act with
        | none =>
          rw [moved] at executed
          cases executed
        | some next =>
          rw [moved] at executed
          refine ih (reachable.step ?_ moved) ?_ executed
          · intro done isDone
            rw [isDone] at isChecked
            refine sufficient ?_ isChecked
            intro other isOther
            unfold Machine.roster
            rw [others other isOther]
            rfl
          · intro other isOther
            obtain ⟨w,party,_,rfl⟩ := Parties.step_inv moved
            have apart : other ≠ act.1 := by
              have low := of_decide_eq_true isWithin
              omega
            exact (Function.update_of_ne apart _ _).trans (others other isOther)
      · cases executed
  obtain ⟨s,executed,observed⟩ := Option.map_eq_some_iff.mp ended
  exact ⟨s,ran .init (fun _ _ => rfl) executed,observed⟩

end Kodansu.Coordinator

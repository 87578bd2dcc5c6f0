/-
Parties that act on a shared world, one at a time and in any order.

Each party has a state of its own; an action of one party changes the world and that
party's state.  An invariant of such a system is a fact about the world and a fact about
each party, and a step owes three things: the first, the second for the party that acts,
and the second for the parties that look on.
-/

import Kodansu.Lib.Transition

namespace Kodansu.Lib

open Function

structure Parties (ω π α : Type) where
  world : ω
  party : π
  act : ω → π → α → Option (ω × π)

namespace Parties

variable {ω π α : Type} {parties : Parties ω π α} {guard : ω → π → α → Prop}

structure Global (ω π : Type) where
  world : ω
  party : Nat → π

def start (parties : Parties ω π α) : Global ω π := ⟨parties.world, fun _ => parties.party⟩

def system (parties : Parties ω π α) : System (Global ω π) (Nat × α) where
  init := parties.start
  step state action :=
    (parties.act state.world (state.party action.1) action.2).map (fun (world, party) =>
      ⟨world, update state.party action.1 party⟩)

/-- A condition on the acting party and the world, as a condition on the step. -/
def guarded (guard : ω → π → α → Prop) (state : Global ω π) (action : Nat × α) : Prop :=
  guard state.world (state.party action.1) action.2

def Holds (shared : ω → Prop) (own : ω → π → Prop) (state : Global ω π) : Prop :=
  shared state.world ∧ ∀ index, own state.world (state.party index)

lemma step_inv {s after : Global ω π} {act : Nat × α}
    (moved : parties.system.step s act = some after) :
    ∃ w party, parties.act s.world (s.party act.1) act.2 = some (w, party) ∧
      after = ⟨w, update s.party act.1 party⟩ := by
  obtain ⟨⟨w,party⟩,acted,same⟩ := Option.map_eq_some_iff.mp moved
  exact ⟨w,party,acted,same.symm⟩

section

variable {related : π → π → Prop}

/-- What is known of every reachable state already: a fact about the world, one about each
party, and one about each two different parties. -/
def Known (parties : Parties ω π α) (guard : ω → π → α → Prop) (prior : ω → Prop)
    (priorOwn : ω → π → Prop) (related : π → π → Prop) : Prop :=
  ∀ state : Global ω π, System.Reachable parties.system (guarded guard) state →
    Holds prior priorOwn state ∧
      ∀ left right, left ≠ right → related (state.party left) (state.party right)

lemma Known.trivially : Known parties guard (fun _ => True) (fun _ _ => True) (fun _ _ => True) :=
  fun _ _ => ⟨⟨trivial,fun _ => trivial⟩,fun _ _ _ => trivial⟩

variable {shared : ω → Prop} {own : ω → π → Prop}

/-- The invariant rule, over what is known already. -/
lemma invariant_over {prior : ω → Prop} {priorOwn : ω → π → Prop}
    (known : Known parties guard prior priorOwn related)
    (base : shared parties.world ∧ own parties.world parties.party)
    (acting : ∀ {before after : ω} {party next : π} {act : α}, prior before →
      priorOwn before party → prior after → shared before → own before party →
      guard before party act → parties.act before party act = some (after, next) →
      shared after ∧ own after next)
    (bystander : ∀ {before after : ω} {party next other : π} {act : α}, prior before →
      priorOwn before party → prior after → priorOwn before other → related party other →
      shared before → own before party → own before other → guard before party act →
      parties.act before party act = some (after, next) → own after other)
    {state : Global ω π} (reached : System.Reachable parties.system (guarded guard) state) :
    Holds shared own state := by
  induction reached with
  | init => exact ⟨base.1,fun _ => base.2⟩
  | @step before after act reached allowed moved ih =>
    obtain ⟨⟨priorBefore,priorParties⟩,apart⟩ := known _ reached
    have priorAfter := (known _ (reached.step allowed moved)).1.1
    obtain ⟨w,party,acted,rfl⟩ := step_inv moved
    obtain ⟨sharedBefore,ownBefore⟩ := ih
    obtain ⟨sharedAfter,ownAfter⟩ := acting priorBefore (priorParties _) priorAfter sharedBefore
      (ownBefore _) allowed acted
    refine ⟨sharedAfter,fun index => ?_⟩
    change own w (update before.party act.1 party index)
    by_cases acts : index = act.1
    · subst acts
      simpa using ownAfter
    · rw [update_of_ne acts]
      exact bystander priorBefore (priorParties _) priorAfter (priorParties index)
        (apart act.1 index (Ne.symm acts)) sharedBefore (ownBefore _) (ownBefore index) allowed
        acted

lemma invariant (base : shared parties.world ∧ own parties.world parties.party)
    (acting : ∀ {before after : ω} {party next : π} {act : α}, shared before →
      own before party → guard before party act →
      parties.act before party act = some (after, next) → shared after ∧ own after next)
    (bystander : ∀ {before after : ω} {party next other : π} {act : α}, shared before →
      own before party → own before other → guard before party act →
      parties.act before party act = some (after, next) → own after other)
    {state : Global ω π} (reached : System.Reachable parties.system (guarded guard) state) :
    Holds shared own state :=
  invariant_over Known.trivially base (fun _ _ _ => acting) (fun _ _ _ _ _ => bystander) reached

/-- A relation that one party's steps keep towards each of the others holds between all. -/
lemma apart {prior : ω → Prop} {priorOwn : ω → π → Prop} {priorRelated : π → π → Prop}
    (known : Known parties guard prior priorOwn priorRelated)
    (symmetric : ∀ {left right : π}, related left right → related right left)
    (base : related parties.party parties.party)
    (acting : ∀ {before after : ω} {party next other : π} {act : α}, prior before →
      priorOwn before party → priorOwn before other → priorRelated party other →
      related party other → parties.act before party act = some (after, next) →
      related next other)
    {s : Global ω π} (reached : System.Reachable parties.system (guarded guard) s) :
    ∀ left right, left ≠ right → related (s.party left) (s.party right) := by
  induction reached with
  | init => exact fun _ _ _ => base
  | @step before after act reached allowed moved ih =>
    obtain ⟨⟨priorBefore,priorParties⟩,priorApart⟩ := known _ reached
    obtain ⟨w,party,acted,rfl⟩ := step_inv moved
    have stepped : ∀ index, act.1 ≠ index → related party (before.party index) :=
      fun index differs => acting priorBefore (priorParties _) (priorParties index)
        (priorApart _ _ differs) (ih _ _ differs) acted
    intro left right differs
    change related (update before.party act.1 party left)
      (update before.party act.1 party right)
    by_cases leftActs : left = act.1
    · subst leftActs
      rw [update_self,update_of_ne (Ne.symm differs)]
      exact stepped right differs
    · rw [update_of_ne leftActs]
      by_cases rightActs : right = act.1
      · subst rightActs
        rw [update_self]
        exact symmetric (stepped left (Ne.symm differs))
      · rw [update_of_ne rightActs]
        exact ih left right differs

def TicketsApart (held : π → List Nat) (left right : π) : Prop :=
  ∀ ticket ∈ held left, ticket ∉ held right

/-- Parties draw tickets from a counter of the world: all that they hold have been drawn, and
no two hold the same one. -/
lemma tickets {counter : ω → Nat} {held : π → List Nat} (base : held parties.party = [])
    (drawn : ∀ {before after : ω} {party next : π} {act : α},
      parties.act before party act = some (after, next) → counter before ≤ counter after ∧
        ∀ ticket ∈ held next, ticket ∈ held party ∨
          ticket = counter before ∧ counter before < counter after) :
    Known parties guard (fun _ => True) (fun w party => ∀ ticket ∈ held party, ticket < counter w)
      (TicketsApart held) := by
  have issued : ∀ state, System.Reachable parties.system (guarded guard) state →
      Holds (fun _ => True) (fun w party => ∀ ticket ∈ held party, ticket < counter w)
        state := by
    intro state reached
    refine invariant ⟨trivial,?_⟩ ?_ ?_ reached
    · intro ticket mem
      rw [base] at mem
      cases mem
    · intro before after party next act _ within _ acted
      refine ⟨trivial,fun ticket mem => ?_⟩
      obtain ⟨grows,origin⟩ := drawn acted
      rcases origin ticket mem with kept | ⟨isNext,drew⟩
      · exact Nat.lt_of_lt_of_le (within ticket kept) grows
      · rw [isNext]
        exact drew
    · intro before after party next other act _ _ within _ acted ticket mem
      exact Nat.lt_of_lt_of_le (within ticket mem) (drawn acted).1
  have known : Known parties guard (fun _ => True)
      (fun w party => ∀ ticket ∈ held party, ticket < counter w) (fun _ _ => True) :=
    fun state reached => ⟨issued state reached,fun _ _ _ => trivial⟩
  intro state reached
  refine ⟨issued state reached,?_⟩
  refine apart known ?_ ?_ ?_ reached
  · intro left right disjoint ticket inRight inLeft
    exact disjoint ticket inLeft inRight
  · intro ticket mem
    rw [base] at mem
    cases mem
  · intro before after party next other act _ _ within _ disjoint acted ticket mem
    rcases (drawn acted).2 ticket mem with kept | ⟨isNext,-⟩
    · exact disjoint ticket kept
    · intro inOther
      rw [isNext] at inOther
      exact Nat.lt_irrefl _ (within _ inOther)

end

/-! ### Given runs -/

def ran (parties : Parties ω π α) (guard : ω → π → α → Prop)
    [∀ world party action, Decidable (guard world party action)] (actions : List (Nat × α)) :
    Option (Global ω π) :=
  System.exec parties.system
    (fun state action => decide (guard state.world (state.party action.1) action.2)) parties.start
    actions

lemma ran_reachable [∀ w party act, Decidable (guard w party act)] {β : Type}
    {observed : Global ω π → β} {value : β} {actions : List (Nat × α)}
    (ended : (parties.ran guard actions).map observed = some value) :
    ∃ s, System.Reachable parties.system (guarded guard) s ∧ observed s = value := by
  refine System.Reachable.observed ?_ ended
  intro s act passed
  have allowed := of_decide_eq_true passed
  exact allowed

end Parties

end Kodansu.Lib

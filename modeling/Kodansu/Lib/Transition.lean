/-
Transition systems with a partial step function, their guarded runs and the
induction over them.
-/

import Mathlib

namespace Kodansu.Lib

/-- A system that moves by actions; an action that is not enabled has no result. -/
structure System (σ α : Type) where
  init : σ
  step : σ → α → Option σ

namespace System

variable {σ α : Type} {guard : σ → α → Prop}

/-- The states reached by runs every step of which meets the guard in the state before it. -/
inductive Reachable (system : System σ α) (guard : σ → α → Prop) : σ → Prop
  | init : Reachable system guard system.init
  | step {before after : σ} {action : α} (reached : Reachable system guard before)
      (allowed : guard before action) (moved : system.step before action = some after) :
      Reachable system guard after

def unguarded : σ → α → Prop := fun _ _ => True

variable {system : System σ α} {state : σ}

lemma Reachable.invariant {inv : σ → Prop} (base : inv system.init)
    (preserved : ∀ {before after : σ} {act : α}, inv before → guard before act →
      system.step before act = some after → inv after)
    (reached : Reachable system guard state) : inv state := by
  induction reached with
  | init => exact base
  | step _ allowed moved ih => exact preserved ih allowed moved

def exec (system : System σ α) (check : σ → α → Bool) : σ → List α → Option σ
  | state, [] => some state
  | state, action :: rest =>
    if check state action then
      match system.step state action with
      | none => none
      | some next => exec system check next rest
    else none

/-! ### From one state to another -/

/-- One state follows from another by steps that each meet the guard. -/
inductive Run (system : System σ α) (guard : σ → α → Prop) (start : σ) : σ → Prop
  | refl : Run system guard start start
  | step {before after : σ} {action : α} (ran : Run system guard start before)
      (allowed : guard before action) (moved : system.step before action = some after) :
      Run system guard start after

namespace Run

variable {weaker : σ → α → Prop} {start finish before after : σ} {check : σ → α → Bool}
  {actions : List α}

lemma reachable (reached : Reachable system weaker start)
    (implied : ∀ {s : σ} {act : α}, guard s act → weaker s act)
    (ran : Run system guard start finish) : Reachable system weaker finish := by
  induction ran with
  | refl => exact reached
  | step _ allowed moved ih => exact ih.step (implied allowed) moved

lemma exec
    (sufficient : ∀ {s : σ} {act : α}, check s act = true → guard s act)
    (ran : Run system guard start before)
    (executed : System.exec system check before actions = some after) :
    Run system guard start after := by
  induction actions generalizing before with
  | nil =>
    cases executed
    exact ran
  | cons act rest ih =>
    unfold System.exec at executed
    split at executed
    · rename_i passed
      cases moved : system.step before act with
      | none => rw [moved] at executed; cases executed
      | some next =>
        rw [moved] at executed
        exact ih (ran.step (sufficient passed) moved) executed
    · cases executed

end Run

section

variable {check : σ → α → Bool}
  (sufficient : ∀ {s : σ} {act : α}, check s act = true → guard s act)

include sufficient

variable {before after : σ} {actions : List α}

lemma Reachable.exec (reached : Reachable system guard before)
    (executed : System.exec system check before actions = some after) :
    Reachable system guard after :=
  (Run.refl.exec sufficient executed).reachable reached id

/-- A given run from the start, by what is observed at its end. -/
lemma Reachable.observed {ο : Type*} {observe : σ → ο} {value : ο}
    (ended : (System.exec system check system.init actions).map observe = some value) :
    ∃ s, Reachable system guard s ∧ observe s = value := by
  obtain ⟨s,found,observation⟩ := Option.map_eq_some_iff.mp ended
  exact ⟨s,Reachable.init.exec sufficient found,observation⟩

end

end System

end Kodansu.Lib

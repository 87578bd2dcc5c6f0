/-
Parties that move one at a time, in any order.

A list of moves is played one after the other, each of them allowed where it is made.  If
whoever moves gets somewhere, and stays there while the others move, then after a list in which
everybody moves everybody is there.
-/

import Mathlib

namespace Kodansu.Lib

variable {σ β ι : Type}

def play (step : σ → β → Option σ) : σ → List β → Option σ
  | state, [] => some state
  | state, move :: rest => (step state move).bind (fun next => play step next rest)

def Allowed (step : σ → β → Option σ) (allowed : σ → β → Prop) : σ → List β → Prop
  | _, [] => True
  | state, move :: rest =>
    allowed state move ∧ ∀ next, step state move = some next → Allowed step allowed next rest

/-- The moves can be played, each of them passing a check where it is made. -/
def passes (step : σ → β → Option σ) (check : σ → β → Bool) : σ → List β → Bool
  | _, [] => true
  | state, move :: rest =>
    check state move &&
      match step state move with
      | none => false
      | some next => passes step check next rest

section Rounds

variable {step : σ → β → Option σ} {allowed : σ → β → Prop} {check : σ → β → Bool} {s : σ}
  {moves first second : List β}

lemma play_append {middle : σ} (played : play step s first = some middle) :
    play step s (first ++ second) = play step middle second := by
  induction first generalizing s with
  | nil =>
    cases played
    rfl
  | cons move rest ih =>
    obtain ⟨next,moved,played⟩ := Option.bind_eq_some_iff.mp played
    change (step s move).bind (fun next => play step next (rest ++ second)) = _
    rw [moved]
    exact ih played

lemma Allowed.of_append (allows : Allowed step allowed s (first ++ second)) :
    Allowed step allowed s first ∧
      ∀ middle, play step s first = some middle → Allowed step allowed middle second := by
  induction first generalizing s with
  | nil =>
    refine ⟨trivial,?_⟩
    intro middle played
    cases played
    exact allows
  | cons move rest ih =>
    obtain ⟨here,later⟩ := allows
    refine ⟨⟨here,fun next moved => (ih (later next moved)).1⟩,?_⟩
    intro middle played
    obtain ⟨next,moved,played⟩ := Option.bind_eq_some_iff.mp played
    exact (ih (later next moved)).2 middle played

lemma Allowed.of_passes
    (sufficient : ∀ {s : σ} {move : β}, check s move = true → allowed s move)
    (passed : passes step check s moves = true) : Allowed step allowed s moves := by
  induction moves generalizing s with
  | nil => trivial
  | cons move rest ih =>
    obtain ⟨here,later⟩ := Bool.and_eq_true_iff.mp passed
    refine ⟨sufficient here,?_⟩
    intro next moved
    rw [moved] at later
    exact ih later

/-- Whoever has moved is there at the end of the round, as is whoever was there before. -/
lemma round (inv : σ → Prop) (there : σ → ι → Prop) (who : β → ι)
    (progress : ∀ {s move}, inv s → allowed s move →
      ∃ next, step s move = some next ∧ inv next ∧ there next (who move) ∧
        ∀ party, party ≠ who move → there s party → there next party)
    (holds : inv s) (allows : Allowed step allowed s moves) :
    ∃ final, play step s moves = some final ∧ inv final ∧
      ∀ party, there s party ∨ party ∈ moves.map who → there final party := by
  induction moves generalizing s with
  | nil =>
    refine ⟨s,rfl,holds,?_⟩
    intro party already
    exact already.resolve_right List.not_mem_nil
  | cons move rest ih =>
    obtain ⟨next,moved,still,arrived,others⟩ := progress holds allows.1
    obtain ⟨final,played,finally_,everybody⟩ := ih still (allows.2 next moved)
    refine ⟨final,?_,finally_,?_⟩
    · unfold play
      rw [moved]
      exact played
    · intro party already
      apply everybody
      by_cases mover : party = who move
      · left
        rw [mover]
        exact arrived
      · rw [List.map_cons,List.mem_cons] at already
        rcases already with before | isMover | later
        · exact .inl (others party mover before)
        · exact absurd isMover mover
        · exact .inr later

end Rounds

end Kodansu.Lib

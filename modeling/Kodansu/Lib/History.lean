/-
Histories of concurrent calls and their linearization.

A history records when calls are made and when they return.  A linearization puts the calls
that took effect in one order: each outcome is the one the call has when it runs alone at its
place, and a call that returned before another was made comes first.
-/

import Mathlib

namespace Kodansu.Lib

open List

inductive Event (κ ε : Type)
  | invoke (call : κ)
  | respond (call : κ) (outcome : ε)
  /-- The call returns an error and no outcome. -/
  | fail (call : κ)

variable {κ ε σ : Type}

def Event.call : Event κ ε → κ
  | .invoke call => call
  | .respond call _ => call
  | .fail call => call

def replay (apply : κ → σ → ε × σ) (initial : σ) (order : List κ) : σ :=
  order.foldl (fun state call => (apply call state).2) initial

@[simp] lemma replay_snoc (apply : κ → σ → ε × σ) (initial : σ) (order : List κ) (call : κ) :
    replay apply initial (order ++ [call]) = (apply call (replay apply initial order)).2 := by
  simp [replay]

def Precedes (history : List (Event κ ε)) (first second : κ) : Prop :=
  ∃ past future outcome,
    history = past ++ future ∧ .respond first outcome ∈ past ∧ .invoke second ∈ future

lemma Precedes.snoc_inv {history : List (Event κ ε)} {event : Event κ ε} {first second : κ}
    (precedes : Precedes (history ++ [event]) first second) :
    Precedes history first second ∨ event = .invoke second := by
  obtain ⟨past,future,outcome,split,responded,made⟩ := precedes
  rcases eq_nil_or_concat future with rfl | ⟨future,last,rfl⟩
  · cases made
  · rw [concat_eq_append,← append_assoc] at split
    obtain ⟨rfl,same⟩ := append_inj_left' split rfl, append_inj_right' split rfl
    cases same
    rw [concat_eq_append] at made
    rcases mem_append.mp made with inFuture | isLast
    · exact .inl ⟨past,future,outcome,rfl,responded,inFuture⟩
    · exact .inr (mem_singleton.mp isLast).symm

def OutcomeAt (apply : κ → σ → ε × σ) (initial : σ) (order : List κ) (call : κ) (outcome : ε) :
    Prop :=
  ∃ before after, order = before ++ call :: after ∧
    outcome = (apply call (replay apply initial before)).1

structure Linearizes (apply : κ → σ → ε × σ) (initial : σ) (history : List (Event κ ε))
    (order : List κ) : Prop where
  once : order.Nodup
  invoked : ∀ call ∈ order, .invoke call ∈ history
  effective : ∀ call ∈ order, .fail call ∉ history
  answered : ∀ call outcome, .respond call outcome ∈ history →
    OutcomeAt apply initial order call outcome
  realTime : ∀ first second, Precedes history first second → second ∈ order →
    [first, second].Sublist order

section

variable {apply : κ → σ → ε × σ} {initial : σ} {history : List (Event κ ε)} {order : List κ}
  {outcome : ε}

lemma OutcomeAt.mem {call : κ}
    (placed : OutcomeAt apply initial order call outcome) : call ∈ order := by
  obtain ⟨before,after,rfl,-⟩ := placed
  exact mem_append_right _ (.head _)

lemma OutcomeAt.append {call : κ}
    (placed : OutcomeAt apply initial order call outcome) (later : List κ) :
    OutcomeAt apply initial (order ++ later) call outcome := by
  obtain ⟨before,after,rfl,same⟩ := placed
  exact ⟨before,after ++ later,by simp,same⟩

lemma OutcomeAt.last (apply : κ → σ → ε × σ) (initial : σ) (order : List κ) (call : κ) :
    OutcomeAt apply initial (order ++ [call]) call (apply call (replay apply initial order)).1 :=
  ⟨order,[],rfl,rfl⟩

namespace Linearizes

lemma empty : Linearizes apply initial [] [] where
  once := nodup_nil
  invoked := nofun
  effective := nofun
  answered := nofun
  realTime := nofun

section

variable (linear : Linearizes apply initial history order)

include linear

/-- An event is recorded: a call that is made or fails is not in the order, and an outcome is
the one the order gives. -/
lemma record {event : Event κ ε} (made : ∀ call, event = .invoke call → call ∉ order)
    (failed : ∀ call, event = .fail call → call ∉ order)
    (responded : ∀ call outcome, event = .respond call outcome →
      OutcomeAt apply initial order call outcome) :
    Linearizes apply initial (history ++ [event]) order where
  once := linear.once
  invoked other member := mem_append_left _ (linear.invoked other member)
  effective other member isFailed := by
    rcases mem_append.mp isFailed with before | last
    · exact linear.effective other member before
    · exact failed other (mem_singleton.mp last).symm member
  answered other outcome isResponded := by
    rcases mem_append.mp isResponded with before | last
    · exact linear.answered other outcome before
    · exact responded other outcome (mem_singleton.mp last).symm
  realTime first second precedes member := by
    rcases precedes.snoc_inv with before | last
    · exact linear.realTime first second before member
    · exact absurd member (made second last)

lemma invoke {call : κ} (fresh : call ∉ order) :
    Linearizes apply initial (history ++ [.invoke call]) order := by
  refine linear.record ?_ nofun nofun
  intro other same
  cases same
  exact fresh

lemma respond {call : κ} (placed : OutcomeAt apply initial order call outcome) :
    Linearizes apply initial (history ++ [.respond call outcome]) order := by
  refine linear.record nofun nofun ?_
  intro other res same
  cases same
  exact placed

lemma fail {call : κ} (ineffective : call ∉ order) :
    Linearizes apply initial (history ++ [.fail call]) order := by
  refine linear.record nofun ?_ nofun
  intro other same
  cases same
  exact ineffective

/-- A call that was made and has not returned takes effect after all others. -/
lemma effect {call : κ} (fresh : call ∉ order) (made : .invoke call ∈ history)
    (stands : .fail call ∉ history) : Linearizes apply initial history (order ++ [call]) where
  once := nodup_append.mpr ⟨linear.once,nodup_singleton _,by
    intro other member last isLast same
    rw [mem_singleton.mp isLast] at same
    rw [same] at member
    exact fresh member⟩
  invoked other member := by
    rcases mem_append.mp member with before | last
    · exact linear.invoked other before
    · rw [mem_singleton.mp last]
      exact made
  effective other member := by
    rcases mem_append.mp member with before | last
    · exact linear.effective other before
    · rw [mem_singleton.mp last]
      exact stands
  answered other outcome responded := (linear.answered other outcome responded).append [call]
  realTime first second precedes member := by
    rcases mem_append.mp member with before | last
    · exact (linear.realTime first second precedes before).trans (sublist_append_left _ _)
    · rw [mem_singleton.mp last]
      obtain ⟨past,future,outcome,rfl,responded,-⟩ := precedes
      have placed := linear.answered first outcome (mem_append_left _ responded)
      exact (singleton_sublist.mpr placed.mem).append (List.Sublist.refl [call])

end

end Linearizes

end

end Kodansu.Lib

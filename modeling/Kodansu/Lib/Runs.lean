/-
The maximal runs of a set of integers, and lists of intervals that are exactly these.
-/

import Mathlib

namespace Kodansu.Lib

/-- An interval of the set that no neighbour of it extends. -/
structure MaximalRun (set : Set Int) (first last : Int) : Prop where
  nonempty : first ≤ last
  within : ∀ number, first ≤ number → number ≤ last → number ∈ set
  left : first - 1 ∉ set
  right : last + 1 ∉ set

/-- Ascending intervals, with something between any two of them. -/
structure Spaced (runs : List (Int × Int)) : Prop where
  nonempty : ∀ run ∈ runs, run.1 ≤ run.2
  ascending : runs.Pairwise (fun earlier later => earlier.2 + 1 < later.1)

def coveredBy (runs : List (Int × Int)) : Set Int :=
  {number | ∃ run ∈ runs, run.1 ≤ number ∧ number ≤ run.2}

namespace Spaced

variable {runs : List (Int × Int)} {run other : Int × Int} {first last : Int}

lemma apart (spaced : Spaced runs) (mem : run ∈ runs) (isOther : other ∈ runs) :
    other = run ∨ other.2 + 1 < run.1 ∨ run.2 + 1 < other.1 := by
  have symmetric : Std.Symm (fun left right : Int × Int =>
      left.2 + 1 < right.1 ∨ right.2 + 1 < left.1) := ⟨fun _ _ => Or.symm⟩
  have pairwise : runs.Pairwise (fun left right => left.2 + 1 < right.1 ∨ right.2 + 1 < left.1) :=
    spaced.ascending.imp Or.inl
  by_cases same : other = run
  · exact .inl same
  · exact .inr (pairwise.forall isOther mem same)

lemma maximalRun_iff (spaced : Spaced runs) :
    MaximalRun (coveredBy runs) first last ↔ (first, last) ∈ runs := by
  constructor
  · intro maximal
    obtain ⟨run,mem,above,below⟩ := maximal.within first (le_refl first) maximal.nonempty
    have starts : run.1 = first := by
      by_contra later
      exact maximal.left ⟨run,mem,by omega,by omega⟩
    have ends : run.2 = last := by
      by_contra differ
      rcases lt_or_gt_of_ne differ with short | long
      · obtain ⟨other,isOther,reaches⟩ := maximal.within (run.2 + 1) (by omega) (by omega)
        rcases spaced.apart mem isOther with same | distance
        · rw [same] at reaches
          omega
        · omega
      · have inside := maximal.nonempty
        exact maximal.right ⟨run,mem,by omega,by omega⟩
    rw [← starts,← ends]
    exact mem
  · intro mem
    have inside : first ≤ last := spaced.nonempty _ mem
    refine ⟨inside,fun number above below => ⟨_,mem,above,below⟩,?_,?_⟩
    all_goals
      rintro ⟨other,isOther,reaches⟩
      rcases spaced.apart mem isOther with same | distance
      · rw [same] at reaches
        omega
      · omega

end Spaced

end Kodansu.Lib

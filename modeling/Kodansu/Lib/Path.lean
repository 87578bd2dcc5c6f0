/-
Paths of an object store.  A path is made from a text: it has the parts between the slashes, without
the empty ones, so that different texts may have one path.  A text without empty parts is told by
its path.
-/

import Mathlib

namespace Kodansu.Lib

open List

/-- The path of a text: its parts, without the empty ones.  Each part is percent-encoded, which
keeps different parts different. -/
def pathFrom (raw : List Char) : List (List Char) :=
  (raw.splitOn '/').filter (fun part => !part.isEmpty)

def Tidy (name : String) : Prop := [] ∉ name.toList.splitOn '/'

instance (name : String) : Decidable (Tidy name) :=
  inferInstanceAs (Decidable (_ ∉ _))

lemma pathFrom_append (left right : List Char) :
    pathFrom (left ++ '/' :: right) = pathFrom left ++ pathFrom right := by
  unfold pathFrom splitOn
  rw [splitOnP_append_cons left right (by decide),filter_append]

lemma pathFrom_tidy {name : String} (tidy : Tidy name) :
    pathFrom name.toList = name.toList.splitOn '/' := by
  apply filter_eq_self.mpr
  intro part isPart
  cases part with
  | nil => exact absurd isPart tidy
  | cons => rfl

lemma pathFrom_injective {left right : String} (isLeft : Tidy left) (isRight : Tidy right)
    (same : pathFrom left.toList = pathFrom right.toList) : left = right := by
  rw [pathFrom_tidy isLeft,pathFrom_tidy isRight] at same
  have chars := congrArg (intercalate ['/']) same
  rw [intercalate_splitOn,intercalate_splitOn] at chars
  exact String.toList_inj.mp chars

end Kodansu.Lib

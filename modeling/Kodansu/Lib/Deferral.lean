/-
Deferred completion.  A party that cannot complete because of its neighbours waits, and
some later completion takes it along.  Nobody is forgotten as long as every waiting
party can reach, from live neighbour to live neighbour, one that is not waiting.
-/

import Mathlib

namespace Kodansu.Lib.Deferral

variable {ν : Type}

/-- Who is not complete yet, who of them waits for others, and who is whose neighbour. -/
structure Board (ν : Type) where
  live : ν → Prop
  waits : ν → Prop
  near : ν → ν → Prop
  near_symm : ∀ {left right : ν}, near left right → near right left

namespace Board

variable {board after : Board ν}

/-- A path all of whose later parties are live. -/
def Reached (board : Board ν) : ν → ν → Prop :=
  Relation.ReflTransGen (fun left right => board.near left right ∧ board.live right)

def Sound (board : Board ν) : Prop :=
  ∀ party, board.live party → board.waits party →
    ∃ blocker, board.Reached party blocker ∧ board.live blocker ∧ ¬ board.waits blocker

variable {left right blocker : ν}

lemma Reached.mono (liveGrows : ∀ party, board.live party → after.live party)
    (nearGrows : ∀ left right, board.near left right → after.near left right)
    (path : board.Reached left right) : after.Reached left right :=
  Relation.ReflTransGen.mono (fun _ _ step => ⟨nearGrows _ _ step.1,liveGrows _ step.2⟩) _ _ path

lemma Reached.reverse (isLive : board.live left)
    (path : board.Reached left right) : board.live right ∧ board.Reached right left := by
  induction path with
  | refl => exact ⟨isLive,Relation.ReflTransGen.refl⟩
  | tail _ step ih =>
    exact ⟨step.2,Relation.ReflTransGen.head ⟨board.near_symm step.1,ih.1⟩ ih.2⟩

/-- Parties may join and neighbourhoods grow, as long as nobody starts to wait. -/
lemma Sound.grow (sound : board.Sound) (liveGrows : ∀ party, board.live party → after.live party)
    (nearGrows : ∀ left right, board.near left right → after.near left right)
    (noneWaits : ∀ party, after.live party → after.waits party →
      board.live party ∧ board.waits party) :
    after.Sound := by
  intro party isLive waiting
  obtain ⟨wasLive,wasWaiting⟩ := noneWaits party isLive waiting
  obtain ⟨blocker,path,blockerLive,free⟩ := sound party wasLive wasWaiting
  refine ⟨blocker,path.mono liveGrows nearGrows,liveGrows blocker blockerLive,?_⟩
  intro blockerWaits
  exact free (noneWaits blocker (liveGrows blocker blockerLive) blockerWaits).2

/-- One party may start to wait next to a live one that does not. -/
lemma Sound.defer (sound : board.Sound) (origin : ν)
    (sameLive : ∀ party, after.live party ↔ board.live party)
    (sameNear : ∀ left right, after.near left right ↔ board.near left right)
    (onlyOrigin : ∀ party, after.live party → after.waits party →
      board.waits party ∨ party = origin)
    (beside : board.near origin blocker) (blockerLive : board.live blocker)
    (free : ¬ after.waits blocker) : after.Sound := by
  have transfer : ∀ {left right : ν}, board.Reached left right → after.Reached left right :=
    fun path => path.mono (fun party => (sameLive party).mpr)
      (fun left right => (sameNear left right).mpr)
  have fromOrigin : after.Reached origin blocker :=
    transfer (Relation.ReflTransGen.single ⟨beside,blockerLive⟩)
  have afterLive := (sameLive blocker).mpr blockerLive
  intro party isLive waiting
  rcases onlyOrigin party isLive waiting with wasWaiting | isOrigin
  · obtain ⟨other,path,otherLive,otherFree⟩ := sound party ((sameLive party).mp isLive) wasWaiting
    by_cases nowWaits : after.waits other
    · -- the blocker found so far is the one that starts to wait
      have isOrigin : other = origin :=
        (onlyOrigin other ((sameLive other).mpr otherLive) nowWaits).resolve_left otherFree
      subst isOrigin
      exact ⟨blocker,(transfer path).trans fromOrigin,afterLive,free⟩
    · exact ⟨other,transfer path,(sameLive other).mpr otherLive,nowWaits⟩
  · subst isOrigin
    exact ⟨blocker,fromOrigin,afterLive,free⟩

/-- Parties may complete together with everything they can reach. -/
lemma Sound.settle (sound : board.Sound) (origin : ν)
    (shrinks : ∀ party, after.live party → board.live party)
    (keeps : ∀ party, board.live party → ¬ board.Reached origin party → after.live party)
    (sameNear : ∀ left right, after.live left → after.live right →
      board.near left right → after.near left right)
    (waitsLess : ∀ party, after.live party → after.waits party →
      board.waits party ∧ ¬ board.Reached origin party) :
    after.Sound := by
  intro party isLive waiting
  obtain ⟨wasWaiting,apart⟩ := waitsLess party isLive waiting
  obtain ⟨blocker,path,blockerLive,free⟩ := sound party (shrinks party isLive) wasWaiting
  -- nothing on the way to the blocker is reached from the origin
  have along : ∀ {other : ν}, board.Reached party other →
      after.live other ∧ after.Reached party other := by
    intro other toOther
    induction toOther with
    | refl => exact ⟨isLive,Relation.ReflTransGen.refl⟩
    | @tail middle last before step ih =>
      have wholePath : board.Reached party last := before.tail step
      have back := (Reached.reverse (shrinks party isLive) wholePath).2
      have lastLive : after.live last :=
        keeps last step.2 (fun reached => apart (reached.trans back))
      exact ⟨lastLive,ih.2.tail ⟨sameNear _ _ ih.1 lastLive step.1,lastLive⟩⟩
  obtain ⟨stillLive,afterPath⟩ := along path
  exact ⟨blocker,afterPath,stillLive,fun blockerWaits =>
    free (waitsLess blocker stillLive blockerWaits).1⟩

end Board

end Kodansu.Lib.Deferral

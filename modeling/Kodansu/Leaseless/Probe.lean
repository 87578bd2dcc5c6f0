/-
The tail probe.  The absence of one name is taken as proof that no higher name is in use.
That holds because names are created without gaps, and a created name that is gone lies below
the floor, which the probe reads after the absence.
-/

import Kodansu.Leaseless.Names

namespace Kodansu.Leaseless

open Lib Segment Option

/-! ### A refresh while others act -/

def Act.refreshes : Act → Bool
  | .refresh _ | .cancelRefresh | .restart => true
  | _ => false

def Aside (party : Nat) (_ : State) (action : Nat × Act) : Prop :=
  action.1 = party → action.2.refreshes = false

section

variable {act : Act} {config : Config} {w after : World} {r next : Replica} {refresh : Refresh}

lemma flushStep_refresh (step : FlushStep config w r act after next) :
    next.refresh = r.refresh := by
  cases step with
  | derives held phase => exact certify_refresh _ _ _
  | wins held phase mine =>
    obtain ⟨cachedSeq,cachedHigh,same⟩ := finalize_same w r _ _ _
    rw [same]
    rfl
  | _ => rfl

lemma step_refresh (held : r.refresh = some refresh)
    (aside : act.refreshes = false) (step : Step config w r act after next) :
    next.refresh = some refresh := by
  cases step with
  | refresh step =>
    cases step with
    | startList _ idle | startProbe idle => cases idle.symm.trans held
    | _ => cases aside
  | flush step => exact (flushStep_refresh step).trans held
  | maintain step => exact (maintainStep_others step).1.trans held
  | read step => cases step <;> exact held
  | restart => cases aside

lemma step_floor_le (step : Step config w r act after next) :
    w.floor ≤ after.floor := by
  cases step with
  | flush step => cases step <;> exact le_refl _
  | maintain step =>
    cases step with
    | retires | retireLost => exact le_max_left _ _
    | _ => exact le_refl _
  | _ => exact le_refl _

end

section

variable {refresh : Refresh} {config : Config} {party : Nat}
  {s finish : Parties.Global World Replica}

lemma aside_refresh (held : (s.party party).refresh = some refresh)
    (ran : System.Run (replicas config).system (Aside party) s finish) :
    (finish.party party).refresh = some refresh := by
  induction ran with
  | refl => exact held
  | @step before after act ran aside moved ih =>
    obtain ⟨w,r,acted,rfl⟩ := Parties.step_inv moved
    change (Function.update before.party act.1 r party).refresh = some refresh
    by_cases acts : party = act.1
    · subst acts
      rw [Function.update_self]
      exact step_refresh ih (aside rfl) (act_step acted)
    · rw [Function.update_of_ne acts]
      exact ih

lemma run_floor_le {guard : State → Nat × Act → Prop}
    (ran : System.Run (replicas config).system guard s finish) :
    s.world.floor ≤ finish.world.floor := by
  induction ran with
  | refl => exact le_refl _
  | step ran allowed moved ih =>
    obtain ⟨w,r,acted,rfl⟩ := Parties.step_inv moved
    exact le_trans ih (step_floor_le (act_step acted))

end

/-! ### What a resolved probe proves -/

/-- A probe at a cursor finds the next name absent in a state, and goes on to report that the
tail is resolved: it reads the floor, and compares it, while others act. -/
structure TailResolved (config : Config) (party cursor : Nat) (absent : State) : Prop where
  reached : Reachable config (fun _ _ _ => True) absent
  resolves : ∃ refresh left missed asked answered told proved,
    (absent.party party).refresh = some refresh ∧
    refresh.phase = .probe (cursor + 1) (left + 1) ∧
    absent.world.live.get? (cursor + 1) = none ∧
    (replicas config).system.step absent (party, .refresh .ok) = some missed ∧
    System.Run (replicas config).system (Aside party) missed asked ∧
    (replicas config).system.step asked (party, .refresh .ok) = some answered ∧
    System.Run (replicas config).system (Aside party) answered told ∧
    (replicas config).system.step told (party, .refresh .ok) = some proved ∧
    (proved.party party).refresh = none

variable {w : World} {seq : Nat}

lemma names_floor_proof (names : Names w)
    (absent : w.isLive seq = false) (behind : w.floor ≤ seq) :
    ∀ other, w.isLive other = true → other < seq := by
  intro other isLive
  by_contra above
  have differs : seq ≠ other := by
    intro same
    rw [same,isLive] at absent
    cases absent
  have below : seq < w.next := by
    have bound := names.lt_next isLive
    omega
  have retired := names.dead seq (names.contiguous seq below) absent
  omega

section

variable {s after : State} {party : Nat} {next : Replica} {config : Config}

lemma refreshed_party (stepped : (s.party party).refreshStep s.world .ok = some next)
    (moved : (replicas config).system.step s (party, .refresh .ok) = some after) :
    after.world = s.world ∧ after.party party = next := by
  obtain ⟨w,r,acted,rfl⟩ := Parties.step_inv moved
  simp only [replicas,act,stepped,map_some,Option.some.injEq,Prod.mk.injEq] at acted
  obtain ⟨rfl,rfl⟩ := acted
  exact ⟨rfl,Function.update_self _ _ _⟩

section

variable {refresh : Refresh} (held : (s.party party).refresh = some refresh)

include held

variable {left floor gen : Nat}

lemma probe_absent (phase : refresh.phase = .probe seq (left + 1))
    (absent : s.world.live.get? seq = none)
    (moved : (replicas config).system.step s (party, .refresh .ok) = some after) :
    (after.party party).refresh = some { refresh with phase := .absent seq } ∧
      after.world = s.world := by
  have stepped : (s.party party).refreshStep s.world .ok =
      some ((s.party party).setRefresh { refresh with phase := .absent seq }) := by
    simp only [Replica.refreshStep,held,phase,Replica.probeStep,absent]
  obtain ⟨sameWorld,same⟩ := refreshed_party stepped moved
  exact ⟨by rw [same]; rfl,sameWorld⟩

lemma absent_reads (phase : refresh.phase = .absent seq)
    (moved : (replicas config).system.step s (party, .refresh .ok) = some after) :
    ∃ gen, (after.party party).refresh =
      some { refresh with phase := .floor seq s.world.floor gen } := by
  have stepped : (s.party party).refreshStep s.world .ok =
      some ((s.party party).setRefresh { refresh with
        phase := .floor seq s.world.floor (s.party party).generation }) := by
    simp only [Replica.refreshStep,held,phase,Replica.absentStep]
  obtain ⟨-,same⟩ := refreshed_party stepped moved
  exact ⟨_,by rw [same]; rfl⟩

lemma floor_proves (phase : refresh.phase = .floor seq floor gen)
    (moved : (replicas config).system.step s (party, .refresh .ok) = some after)
    (ended : (after.party party).refresh = none) : floor ≤ seq := by
  have stepped : (s.party party).refreshStep s.world .ok =
      some ((s.party party).floorStep refresh seq floor gen) := by
    simp only [Replica.refreshStep,held,phase,if_true]
  obtain ⟨-,same⟩ := refreshed_party stepped moved
  by_contra ahead
  rw [same,Replica.floorStep,if_pos (not_le.mp ahead)] at ended
  cases ended

end

end

/-- When a probe reports that the tail is resolved at a cursor, no segment above the cursor was
live at the instant the name after it was found absent. -/
theorem tailProbe_sound {config : Config} {party cursor : Nat} {absent : State}
    (resolved : TailResolved config party cursor absent) :
    ∀ seq, absent.world.isLive seq = true → seq ≤ cursor := by
  obtain ⟨refresh,left,missed,asked,answered,told,proved,held,phase,isAbsent,misses,
    waits,asks,waitsAgain,tells,ended⟩ := resolved.resolves
  have names := (reachable_names resolved.reached).1
  obtain ⟨heldMissed,sameWorld⟩ := probe_absent held phase isAbsent misses
  obtain ⟨generation,heldAnswered⟩ := absent_reads (aside_refresh heldMissed waits) rfl asks
  have read := floor_proves (aside_refresh heldAnswered waitsAgain) rfl tells ended
  have behind : absent.world.floor ≤ cursor + 1 := by
    have raised := run_floor_le waits
    rw [sameWorld] at raised
    exact le_trans raised read
  intro seq isLive
  have missing : absent.world.isLive (cursor + 1) = false := by rw [World.isLive,isAbsent]; rfl
  exact Nat.lt_succ_iff.mp (names_floor_proof names missing behind seq isLive)

def Replica.probing (replica : Replica) : Option (Nat × Nat) :=
  replica.refresh.bind (fun refresh => match refresh.phase with
    | .probe seq left => some (seq, left)
    | _ => none)

variable {left : Nat}

lemma probing_inv {r : Replica} (probing : r.probing = some (seq, left)) :
    ∃ refresh, r.refresh = some refresh ∧ refresh.phase = .probe seq left := by
  obtain ⟨refresh,held,phase⟩ := bind_eq_some_iff.mp probing
  refine ⟨refresh,held,?_⟩
  split at phase
  · rename_i same
    cases phase
    exact same
  · cases phase

/-- Replica 0 has a segment and probes the name after it; replica 1 takes that name between the
absence and the reading of the floor. -/
def peerTakesName : Option (State × State) :=
  let step := fun state => (replicas namedConfig).system.step state (0, .refresh .ok)
  let aside := System.exec (replicas namedConfig).system (fun _ action => action.1 == 1)
  (ran namedConfig (fun _ _ _ => true)
    (flushToPut 0 plainBatch 0 ++ flushPut 0 ++ [(0, .startRefresh .reader false)])).bind
    (fun absent => (step absent).bind (fun missed =>
      (aside missed (flushToPut 1 plainBatch 1 ++ flushPut 1)).bind (fun asked =>
        (step asked).bind (fun answered => (step answered).map (fun proved => (absent, proved))))))

lemma peerTakesName_resolved : ∃ absent, TailResolved namedConfig 0 0 absent ∧
    absent.world.names = [0] := by
  have observed : peerTakesName.map (fun states =>
      (states.1.world.names, states.1.world.isLive 1, (states.1.party 0).probing,
        (states.2.party 0).refresh.isNone)) = some ([0], false, some (1, 4), true) := by
    decide +kernel
  obtain ⟨⟨absent,proved⟩,found,seen⟩ := map_eq_some_iff.mp observed
  simp only [peerTakesName] at found
  obtain ⟨_,reached,found⟩ := bind_eq_some_iff.mp found
  obtain ⟨missed,misses,found⟩ := bind_eq_some_iff.mp found
  obtain ⟨asked,waits,found⟩ := bind_eq_some_iff.mp found
  obtain ⟨answered,asks,found⟩ := bind_eq_some_iff.mp found
  obtain ⟨_,tells,same⟩ := map_eq_some_iff.mp found
  obtain ⟨rfl,rfl⟩ := Prod.mk.inj same
  simp only [Prod.mk.injEq,isNone_iff_eq_none] at seen
  obtain ⟨names,isAbsent,probing,ended⟩ := seen
  obtain ⟨refresh,held,phase⟩ := probing_inv probing
  have aside : ∀ {s : State} {action : Nat × Act}, (action.1 == 1) = true →
      Aside 0 s action := by
    intro s action acts same
    rw [same] at acts
    cases acts
  refine ⟨_,⟨System.Reachable.init.exec (fun _ => trivial) reached,refresh,3,missed,asked,
    answered,answered,_,held,phase,?_,misses,System.Run.refl.exec aside waits,asks,.refl,
    tells,ended⟩,names⟩
  simpa [World.isLive] using isAbsent

theorem tailProbe_sound_peerTakesName : ∃ absent, TailResolved namedConfig 0 0 absent ∧
    absent.world.names = [0] ∧ ∀ seq, absent.world.isLive seq = true → seq ≤ 0 := by
  obtain ⟨absent,resolved,names⟩ := peerTakesName_resolved
  exact ⟨absent,resolved,names,tailProbe_sound resolved⟩

end Kodansu.Leaseless

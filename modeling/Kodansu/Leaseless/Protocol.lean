/-
The replicas of a prefix as one system: any of them may take a step of any of its tasks at any
time, and lose everything it holds in memory.
-/

import Kodansu.Leaseless.Maintain
import Kodansu.Lib.Parties

namespace Kodansu.Leaseless

open Lib Segment

inductive Act
  | startRefresh (owner : RefreshOwner) (due : Bool)
  | refresh (response : Response)
  | cancelRefresh
  | startFlush (pending : List Pending)
  | flush (response : Response)
  | giveUp
  | expire (doomed : List Nat)
  | compact (run : List Nat) (writes : List SubstreamWrite) (writerEpoch : Int)
  | maintain (response : Response)
  | vanished (seq : Nat)
  | prune (seqs : List Nat)
  /-- Maintenance stops where it is. -/
  | halt
  | restart

def act (config : Config) (world : World) (replica : Replica) : Act → Option (World × Replica)
  | .startRefresh owner due => (replica.startRefresh owner due).map (fun next => (world, next))
  | .refresh response => (replica.refreshStep world response).map (fun next => (world, next))
  | .cancelRefresh => replica.cancelRefresh.map (fun next => (world, next))
  | .startFlush pending => replica.startFlush world pending
  | .flush response => replica.flushStep config world response
  | .giveUp => replica.giveUp.map (fun next => (world, next))
  | .expire doomed => (replica.startExpire doomed).map (fun next => (world, next))
  | .compact run writes writerEpoch => replica.startCompact config world run writes writerEpoch
  | .maintain response => replica.maintainStep config world response
  | .vanished seq => (replica.findVanished world seq).map (fun next => (world, next))
  | .prune seqs => (replica.pruneVanished seqs).map (fun next => (world, next))
  | .halt =>
    if replica.refresh.any (fun refresh => refresh.owner ≠ .reader ∧ refresh.owner ≠ .flush) then
      none
    else some (world, replica.endMaintain)
  | .restart => some (world, {})

def replicas (config : Config) : Parties World Replica Act where
  world := { undecodable := config.undecodable }
  party := {}
  act := act config

abbrev State := Parties.Global World Replica

/-- The states the replicas reach when every step meets a condition on the replica that takes
it and on the world. -/
abbrev Reachable (config : Config) (guard : World → Replica → Act → Prop) : State → Prop :=
  System.Reachable (replicas config).system (Parties.guarded guard)

def ran (config : Config) (check : World → Replica → Act → Bool) (actions : List (Nat × Act)) :
    Option State :=
  System.exec (replicas config).system
    (fun state action => check state.world (state.party action.1) action.2)
    (replicas config).start actions

variable {check : World → Replica → Act → Bool} {config : Config} {actions : List (Nat × Act)}

lemma ran_reachable {ο : Type*} {observed : State → ο} {value : ο}
    {guard : World → Replica → Act → Prop}
    (sufficient : ∀ {w : World} {r : Replica} {act : Act},
      check w r act = true → guard w r act)
    (ended : (ran config check actions).map observed = some value) :
    ∃ s, Reachable config guard s ∧ observed s = value := by
  obtain ⟨s,found,observation⟩ := Option.map_eq_some_iff.mp ended
  exact ⟨s,System.Reachable.init.exec sufficient found,observation⟩

end Kodansu.Leaseless

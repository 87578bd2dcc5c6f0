/-
The lease on the maintenance of a prefix.

A call reads the lease object, judges it by the version tag it last wrote and by the clock, and
replaces it on condition that the version has not moved.  Other calls, of this replica and of
others, run at each point where a call waits or takes a lock.

The replicas read one clock, in nanoseconds.  The object states its expiry in whole
milliseconds, from a reading taken late in the call; the replica caches its own term in
full precision, from a reading taken when the call began.
-/

import Kodansu.Lib.Parties

namespace Kodansu.Lease

open Lib

def millisecond : Nat := 1000000

def nowMs (clock : Nat) : Nat := clock / millisecond

structure PrefixLease where
  epoch : Int
  holder : String
  expiresAtMs : Nat
  maintainedAtMs : Nat
deriving DecidableEq

/-! ### The object -/

/-- The version tags of an object store.  A tag may depend on how many writes came before;
different contents never share one. -/
structure Tags (τ : Type) where
  tag : Nat → PrefixLease → τ
  content : ∀ {place other : Nat} {lease written : PrefixLease},
    tag place lease = tag other written → lease = written

structure World (τ : Type) where
  clock : Nat := 0
  object : Option (PrefixLease × τ) := none
  /-- Every content the object has had, oldest first; no call reads it. -/
  writes : List PrefixLease := []

structure Put (τ : Type) where
  version : Option τ
  lease : PrefixLease

variable {τ : Type} [DecidableEq τ]

def World.version (world : World τ) : Option τ := world.object.map Prod.snd

def World.write (tags : Tags τ) (world : World τ) (lease : PrefixLease) : World τ :=
  { world with
    object := some (lease, tags.tag world.writes.length lease)
    writes := world.writes ++ [lease] }

/-! ### A replica -/

structure HeldLease (τ : Type) where
  epoch : Int
  expiresAt : Nat
  version : Option τ

structure Tuning where
  writerId : String
  prefixLeaseTtl : Nat

def Tuning.margin (tuning : Tuning) : Nat := tuning.prefixLeaseTtl / 3

def Tuning.ttlMs (tuning : Tuning) : Nat := tuning.prefixLeaseTtl / millisecond

/-- A call that succeeded: when it returned, and until when its replica then takes the lease
to be its own. -/
structure Term where
  epoch : Int
  since : Nat
  expiresAt : Nat
  /-- The place of the call's own write among all; a call answered from the cache has none. -/
  place : Option Nat
deriving DecidableEq

/-- How far a call has come.  The first reading of the clock is kept throughout. -/
inductive Call (τ : Type)
  | begun (now : Nat)
  | get (now : Nat)
  | got (now : Nat) (current : Option (PrefixLease × τ))
  | compared (now : Nat) (current : Option (PrefixLease × τ)) (ours : Bool)
  | acquirable (now : Nat) (current : Option (PrefixLease × τ))
  | expiring (now : Nat) (current : Option (PrefixLease × τ)) (expiresAtMs : Nat)
  | put (now : Nat) (request : Put τ)
  /-- The write has succeeded, and its answer is on the way. -/
  | written (now : Nat) (epoch : Int) (place : Nat) (tag : τ)
  | fenced
  | returned (term : Term)
  | refused

structure Replica (τ : Type) where
  /-- Set once, when the process starts. -/
  tuning : Option Tuning := none
  held : Option (HeldLease τ) := none
  calls : List (Call τ) := []
  /-- Writes whose call has returned an error and that may still take effect. -/
  outstanding : List (Put τ) := []
  /-- The places of this replica's writes among all; no call reads it. -/
  places : List Nat := []

inductive Response
  | answered
  | failed
deriving DecidableEq

inductive Act
  | boot (tuning : Tuning)
  | wait (elapsed : Nat)
  | begin
  | advance (call : Nat) (response : Response)
  | land (write : Nat)

namespace Replica

def setCall (replica : Replica τ) (index : Nat) (call : Call τ) : Replica τ :=
  { replica with calls := replica.calls.set index call }

def wrote (replica : Replica τ) (world : World τ) : Replica τ :=
  { replica with places := world.writes.length :: replica.places }

def cached (replica : Replica τ) (tuning : Tuning) (now : Nat) : Option (HeldLease τ) :=
  replica.held.filter (fun held => now + tuning.margin < held.expiresAt)

def ourVersion (replica : Replica τ) : Option τ := replica.held.bind HeldLease.version

/-- One stretch of `acquire_or_renew_lease_at` between two points where others may run. -/
def step (tags : Tags τ) (world : World τ) (replica : Replica τ) (tuning : Tuning) (index : Nat) :
    Call τ → Response → Option (World τ × Replica τ)
  | .begun now, .answered =>
    match replica.cached tuning now with
    | some held =>
      let term := ⟨held.epoch, world.clock, held.expiresAt, none⟩
      some (world, replica.setCall index (.returned term))
    | none => some (world, replica.setCall index (.get now))
  | .get now, .answered => some (world, replica.setCall index (.got now world.object))
  | .get _, .failed => some (world, replica.setCall index .refused)
  | .got now current, .answered =>
    -- Two absent tags do not make the object ours.
    let ours := match current, replica.ourVersion with
      | some (_, version), some own => decide (version = own)
      | _, _ => false
    some (world, replica.setCall index (.compared now current ours))
  | .compared now current ours, .answered =>
    let expired := current.all (fun (lease, _) => decide (lease.expiresAtMs ≤ nowMs world.clock))
    if !ours && !expired then some (world, replica.setCall index .fenced)
    else some (world, replica.setCall index (.acquirable now current))
  | .acquirable now current, .answered =>
    let expiresAtMs := nowMs world.clock + tuning.ttlMs
    some (world, replica.setCall index (.expiring now current expiresAtMs))
  | .expiring now current expiresAtMs, .answered =>
    let epoch := (current.map (fun (lease, _) => lease.epoch)).getD 0 + 1
    let lease := ⟨epoch, tuning.writerId, expiresAtMs, nowMs world.clock⟩
    some (world, replica.setCall index (.put now ⟨current.map Prod.snd, lease⟩))
  | .put now request, .answered =>
    if world.version = request.version then
      let tag := tags.tag world.writes.length request.lease
      let call := .written now request.lease.epoch world.writes.length tag
      some (world.write tags request.lease, (replica.wrote world).setCall index call)
    else some (world, replica.setCall index .fenced)
  | .put _ request, .failed =>
    let next := { replica with outstanding := request :: replica.outstanding }
    some (world, next.setCall index .refused)
  | .written now epoch place tag, .answered =>
    let expiresAt := now + tuning.prefixLeaseTtl
    let next := { replica with held := some ⟨epoch, expiresAt, some tag⟩ }
    some (world, next.setCall index (.returned ⟨epoch, world.clock, expiresAt, some place⟩))
  | .fenced, .answered => some (world, { replica with held := none }.setCall index .refused)
  | _, _ => none

def land (tags : Tags τ) (world : World τ) (replica : Replica τ) (index : Nat) :
    Option (World τ × Replica τ) :=
  match replica.outstanding[index]? with
  | none => none
  | some request =>
    let next := { replica with outstanding := replica.outstanding.eraseIdx index }
    if world.version = request.version then
      some (world.write tags request.lease, next.wrote world)
    else some (world, next)

end Replica

def act (tags : Tags τ) (world : World τ) (replica : Replica τ) : Act → Option (World τ × Replica τ)
  | .boot tuning =>
    if replica.tuning.isSome then none else some (world, { replica with tuning := some tuning })
  | .wait elapsed => some ({ world with clock := world.clock + elapsed }, replica)
  | .begin =>
    replica.tuning.map (fun _ =>
      (world, { replica with calls := replica.calls ++ [.begun world.clock] }))
  | .advance index response =>
    match replica.tuning, replica.calls[index]? with
    | some tuning, some call => replica.step tags world tuning index call response
    | _, _ => none
  | .land index => replica.land tags world index

def replicas (tags : Tags τ) : Parties (World τ) (Replica τ) Act where
  world := {}
  party := {}
  act := act tags

end Kodansu.Lease

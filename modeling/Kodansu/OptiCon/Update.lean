/-
Optimistic concurrency on one object: handles that cache a document with the version it was
read at, and updates that write back on condition that the version has not moved.

A handle's cache is shared by every task that uses the handle.  A task waits at each request
to the store; other tasks run in between.
-/

import Kodansu.Lib.History
import Kodansu.Lib.Parties

namespace Kodansu.OptiCon

open Lib

/-! ### The store -/

/-- How a document is stored; what can be written reads back. -/
structure Codec (D β : Type) where
  encode : D → Option β
  decode : β → Option D
  roundTrip : ∀ {data : D} {payload : β}, encode data = some payload → decode payload = some data

structure DataVersion (D : Type) where
  data : D
  version : Option Nat := none

inductive PutMode
  | create
  | update (version : Nat)

def DataVersion.putMode {D : Type} (dv : DataVersion D) : PutMode := dv.version.elim .create .update

structure Object (β : Type) where
  payload : β
  version : Nat

structure Store (β : Type) where
  object : Option (Object β) := none
  /-- The next version; all that were given out are below it. -/
  versions : Nat := 0

inductive GetResult (β : Type)
  | found (object : Object β)
  | notFound
  | notModified

namespace Store

variable {β : Type}

def write (store : Store β) (payload : β) : Store β :=
  { object := some ⟨payload, store.versions⟩, versions := store.versions + 1 }

/-- A conditional PUT: the new version, or nothing when the condition fails. -/
def putOpts (store : Store β) (payload : β) (mode : PutMode) : Option (Store β × Nat) :=
  match mode, store.object with
  | .create, none => some (store.write payload, store.versions)
  | .update version, some object =>
    if object.version = version then some (store.write payload, store.versions) else none
  | _, _ => none

def getOpts (store : Store β) (ifNoneMatch : Option Nat) : GetResult β :=
  match store.object with
  | none => .notFound
  | some object => if ifNoneMatch = some object.version then .notModified else .found object

end Store

/-! ### Tasks -/

/-- One `with_mut`: its closure turns a document into an outcome and a new document. -/
structure Call (D E : Type) where
  id : Nat
  update : D → E × D

inductive Phase (D β E : Type)
  | attempt
  | put (outcome : E) (dv : DataVersion D) (payload : β)
  | stored (outcome : E) (data : D) (version : Nat)
  | conflict
  | got (result : GetResult β)

inductive RefreshPhase (β : Type)
  | asked (version : Option Nat)
  | answered (result : GetResult β)

inductive Task (D β E : Type)
  | idle
  | withMut (call : Call D E) (handle : Nat) (phase : Phase D β E)
  | refresh (handle : Nat) (phase : RefreshPhase β)

structure World (D β E : Type) where
  store : Store β
  handles : Nat → Option (DataVersion D)
  calls : Nat := 0
  history : List (Event (Call D E) E) := []
  order : List (Call D E) := []

inductive Act (D E : Type)
  | withMut (handle : Nat) (update : D → E × D)
  | refresh (handle : Nat)
  /-- The task goes on; a request it makes is answered, or fails without effect. -/
  | run (answered : Bool)
  /-- The task is dropped where it waits. -/
  | cancel

section

variable {D β E : Type} [Inhabited D]

namespace World

def cache (world : World D β E) (handle : Nat) (cached : Option (DataVersion D)) : World D β E :=
  { world with handles := Function.update world.handles handle cached }

def record (world : World D β E) (event : Event (Call D E) E) : World D β E :=
  { world with history := world.history ++ [event] }

def document (codec : Codec D β) (world : World D β E) : D :=
  (world.store.object.bind (fun object => codec.decode object.payload)).getD default

end World

def GetResult.cached (codec : Codec D β) (result : GetResult β) (before : Option (DataVersion D)) :
    Option (Option (DataVersion D)) :=
  match result with
  | .found object =>
    (codec.decode object.payload).map (fun data => some { data, version := some object.version })
  | .notFound => some none
  | .notModified => some before

abbrev Moved (D β E : Type) := World D β E × Task D β E

def attempt (codec : Codec D β) (world : World D β E) (call : Call D E) (handle : Nat) :
    Moved D β E :=
  let dv := (world.handles handle).getD { data := default }
  let (outcome, data) := call.update dv.data
  match codec.encode data with
  | none => (world.record (.fail call), .idle)
  | some payload => (world, .withMut call handle (.put outcome { dv with data } payload))

def put (world : World D β E) (call : Call D E) (handle : Nat) (outcome : E)
    (dv : DataVersion D) (payload : β) : Moved D β E :=
  match world.store.putOpts payload dv.putMode with
  | some (store, version) =>
    ({ world with store, order := world.order ++ [call] },
      .withMut call handle (.stored outcome dv.data version))
  | none => (world, .withMut call handle .conflict)

def withMutStep (codec : Codec D β) (world : World D β E) (call : Call D E) (handle : Nat)
    (answered : Bool) : Phase D β E → Moved D β E
  | .attempt => attempt codec world call handle
  | .put outcome dv payload =>
    if answered then put world call handle outcome dv payload
    else (world.record (.fail call), .idle)
  | .stored outcome data version =>
    ((world.cache handle (some { data, version := some version })).record (.respond call outcome),
      .idle)
  | .conflict =>
    if answered then (world, .withMut call handle (.got (world.store.getOpts none)))
    else (world.record (.fail call), .idle)
  | .got result =>
    match result.cached codec (world.handles handle) with
    | some cached => (world.cache handle cached, .withMut call handle .attempt)
    | none => (world.record (.fail call), .idle)

def refreshStep (codec : Codec D β) (world : World D β E) (handle : Nat) (answered : Bool) :
    RefreshPhase β → Moved D β E
  | .asked version =>
    if answered then (world, .refresh handle (.answered (world.store.getOpts version)))
    else (world, .idle)
  | .answered result =>
    match result.cached codec (world.handles handle) with
    | some cached => (world.cache handle cached, .idle)
    | none => (world, .idle)

def act (codec : Codec D β) (world : World D β E) (task : Task D β E) (action : Act D E) :
    Option (Moved D β E) :=
  match action, task with
  | .withMut handle update, .idle =>
    let call := { id := world.calls, update }
    some (({ world with calls := world.calls + 1 } : World D β E).record (.invoke call),
      .withMut call handle .attempt)
  | .refresh handle, .idle =>
    some (world, .refresh handle (.asked ((world.handles handle).bind DataVersion.version)))
  | .run answered, .withMut call handle phase => some (withMutStep codec world call handle answered phase)
  | .run answered, .refresh handle phase => some (refreshStep codec world handle answered phase)
  | .cancel, _ => some (world, .idle)
  | _, _ => none

/-- A cached document is the one the store has, if the store still has its version. -/
def Store.Agrees (codec : Codec D β) (store : Store β) (data : D) (version : Nat) : Prop :=
  version < store.versions ∧ ∀ object, store.object = some object → object.version = version →
      codec.decode object.payload = some data

/-- An object, and handles that have cached any of its versions, or none. -/
structure Start (codec : Codec D β) where
  store : Store β
  handles : Nat → Option (DataVersion D)
  issued : ∀ object, store.object = some object → object.version < store.versions
  cached : ∀ handle dv, handles handle = some dv →
    ∃ version, dv.version = some version ∧ store.Agrees codec dv.data version

def tasks {codec : Codec D β} (E : Type) (start : Start codec) :
    Parties (World D β E) (Task D β E) (Act D E) where
  world := { store := start.store, handles := start.handles }
  party := .idle
  act := act codec

end

end Kodansu.OptiCon

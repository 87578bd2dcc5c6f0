/-
Authentication of a connection: the gate in front of the routed services, the stages of an
exchange, the hooks that the SASL library calls, and the objects that hold the credentials.

The SASL library is a parameter: a session makes of each token what the library makes of it, asking
the callback for the credentials of users.  When it finishes a session it may have called the
validation hook or not.
-/

import Kodansu.Lib.Path
import Kodansu.Lib.Transition

namespace Kodansu.Auth

open Lib

/-! ### Credentials -/

inductive ScramMechanism
  | scram256
  | scram512
deriving DecidableEq

def ScramMechanism.fromStr (name : String) : Option ScramMechanism :=
  if name = "SCRAM-SHA-256" then some .scram256
  else if name = "SCRAM-SHA-512" then some .scram512
  else none

def ScramMechanism.file : ScramMechanism → List Char
  | .scram256 => "scram-sha-256.json".toList
  | .scram512 => "scram-sha-512.json".toList

def userScramCredentialLocation (cluster user : String) (mechanism : ScramMechanism) :
    List (List Char) :=
  pathFrom (("clusters/".toList ++ cluster.toList ++ "/users".toList) ++
    '/' :: (user.toList ++ '/' :: mechanism.file))

structure Stored (κ : Type) where
  owner : String
  credential : κ

/-! ### The hooks -/

inductive AuthError
  | bad
  | missingProperty (mechanism property : String)
  | unknownMechanism (mechanism : String)
deriving DecidableEq

structure Properties where
  authId : Option String := none
  authzId : Option String := none
  password : Option String := none

def isScram (mechanism : String) : Bool := "SCRAM-".toList.isPrefixOf mechanism.toList

def check (mechanism : String) (properties : Properties) : Except AuthError String :=
  if mechanism = "PLAIN" then
    match properties.password with
    | none => .error (.missingProperty mechanism "Password")
    | some _ =>
      match properties.authId with
      | none => .error (.missingProperty mechanism "AuthId")
      | some authId => .ok authId
  else if isScram mechanism then
    match properties.authId with
    | none => .error (.missingProperty mechanism "AuthId")
    | some authId =>
      match properties.authzId with
      | none => .ok authId
      | some authzId => if authzId = authId then .ok authId else .error .bad
  else .error (.unknownMechanism mechanism)

/-! ### Sessions -/

/-- What a session makes of a token: it fails, goes on, or is finished, with what the validation hook
was called with, if it was. -/
inductive Stepped (σ : Type)
  | failed
  | running (session : σ)
  | finished (validated : Option Properties)

/-- The library: the mechanisms that it offers, the names it takes for mechanisms, its sessions, and
which tokens prove that a credential is known. -/
structure Library (σ κ τ : Type) where
  offered : List String
  parses : String → Bool
  start : String → σ
  step : σ → (String → Option κ) → τ → Stepped σ
  proves : κ → List τ → Prop

variable {σ κ τ : Type}

/-- A session after the tokens of an exchange, newest first, each with what the callback gave. -/
def Library.run (library : Library σ κ τ) (mechanism : String) :
    List ((String → Option κ) × τ) → Stepped σ
  | [] => .running (library.start mechanism)
  | (callback, token) :: past =>
    match library.run mechanism past with
    | .running session => library.step session callback token
    | _ => .failed

/-- The validation hook of a SCRAM session is called with the name of a user whose credential the
callback has given and the tokens prove. -/
def Library.Documented (library : Library σ κ τ) : Prop :=
  ∀ mechanism past properties, isScram mechanism = true →
    library.run mechanism past = .finished (some properties) →
    ∃ user credential, properties.authId = some user ∧
      (∃ turn ∈ past, turn.1 user = some credential) ∧
        library.proves credential (past.map Prod.snd)

/-! ### The connection -/

inductive Stage (σ : Type)
  | server
  | session (mechanism : String) (session : σ)
  | finished (success : Option String)

abbrev Objects (κ : Type) := List (List Char) → Option (Stored κ)

/-- A token of an exchange, and the credentials that were stored when it came. -/
structure Turn (κ τ : Type) where
  objects : Objects κ
  token : τ

def callback (cluster mechanism : String) (objects : Objects κ) (user : String) : Option κ :=
  (ScramMechanism.fromStr mechanism).bind (fun scram =>
    (objects (userScramCredentialLocation cluster user scram)).map Stored.credential)

/-- The latest exchange of a connection: its tokens, newest first, and the result of the validation
hook, if it was called. -/
inductive Exchange (κ τ : Type)
  | none
  | open (mechanism : String) (turns : List (Turn κ τ))
  | failed
  | ended (mechanism : String) (turns : List (Turn κ τ))
      (validation : Option (Except AuthError String))

def Exchange.turns : Exchange κ τ → List (Turn κ τ)
  | .open _ turns => turns
  | _ => []

inductive Request (τ : Type)
  | saslHandshake (apiVersion : Nat) (mechanism : String)
  | saslAuthenticate (token : τ)
  | apiVersions
  | other (apiKey : Int)

/-- A frame, as the token it is while tokens come without headers, and as the request it is
otherwise, if it can be decoded. -/
structure Frame (τ : Type) where
  opaqueToken : τ
  request : Option (Request τ)

/-- A request that has reached the routed services, with the principal it carries and the exchange
it follows. -/
structure Routed (κ τ : Type) where
  apiKey : Int
  principal : Option String
  exchange : Exchange κ τ

structure Connection (σ κ τ : Type) where
  stage : Option (Stage σ) := some .server
  v0 : Bool := false
  closed : Bool := false
  exchange : Exchange κ τ := .none
  routed : List (Routed κ τ) := []
  objects : Objects κ := fun _ => Option.none

def success : Option (Except AuthError String) → Option String
  | some (.ok authId) => some authId
  | _ => none

namespace Connection

def principal (connection : Connection σ κ τ) : Option String :=
  match connection.stage with
  | some (.finished (some authId)) => some ("User:" ++ authId)
  | _ => none

def isAuthenticated (connection : Connection σ κ τ) : Bool :=
  match connection.stage with
  | some (.finished _) => true
  | _ => false

def handshake (connection : Connection σ κ τ) (library : Library σ κ τ) (mechanism : String) :
    Connection σ κ τ :=
  -- Whatever the stage was, a fresh server takes its place.
  if library.parses mechanism then
    if mechanism ∈ library.offered then
      { connection with
        stage := some (.session mechanism (library.start mechanism))
        exchange := .open mechanism [] }
    else { connection with stage := none, exchange := .failed, closed := true }
  else { connection with stage := none, exchange := .failed }

def authenticate (connection : Connection σ κ τ) (library : Library σ κ τ) (cluster : String)
    (token : τ) : Connection σ κ τ :=
  match connection.stage with
  | some (.session mechanism session) =>
    let turns := ⟨connection.objects, token⟩ :: connection.exchange.turns
    match library.step session (callback cluster mechanism connection.objects) token with
    | .failed => { connection with stage := none, exchange := .failed }
    | .running later =>
      { connection with
        stage := some (.session mechanism later)
        exchange := .open mechanism turns }
    | .finished validated =>
      { connection with
        stage := some (.finished (success (validated.map (check mechanism))))
        exchange := .ended mechanism turns (validated.map (check mechanism)) }
  | _ => { connection with stage := none }

def route (connection : Connection σ κ τ) (apiKey : Int) : Connection σ κ τ :=
  { connection with
    routed := ⟨apiKey, connection.principal, connection.exchange⟩ :: connection.routed }

def apiVersionsKey : Int := 18

def serve (connection : Connection σ κ τ) (library : Library σ κ τ) (cluster : String)
    (frame : Frame τ) : Connection σ κ τ :=
  if connection.v0 then
    let served := connection.authenticate library cluster frame.opaqueToken
    { served with v0 := !served.isAuthenticated }
  else
    match frame.request with
    | none => { connection with closed := true }
    | some (.saslHandshake apiVersion mechanism) =>
      let served := connection.handshake library mechanism
      { served with v0 := !served.closed && decide (apiVersion = 0) }
    | some (.saslAuthenticate token) => connection.authenticate library cluster token
    | some .apiVersions => connection.route apiVersionsKey
    | some (.other apiKey) =>
      if connection.isAuthenticated then connection.route apiKey
      else { connection with closed := true }

end Connection

inductive Act (κ τ : Type)
  | frame (frame : Frame τ)
  | upsert (user : String) (mechanism : ScramMechanism) (credential : κ)
  | delete (user : String) (mechanism : ScramMechanism)

def step (library : Library σ κ τ) (cluster : String) (connection : Connection σ κ τ) :
    Act κ τ → Option (Connection σ κ τ)
  | .frame frame =>
    if connection.closed then none else some (connection.serve library cluster frame)
  | .upsert user mechanism credential =>
    some
      { connection with
        objects := Function.update connection.objects
          (userScramCredentialLocation cluster user mechanism) (some ⟨user, credential⟩) }
  | .delete user mechanism =>
    some
      { connection with
        objects := Function.update connection.objects
          (userScramCredentialLocation cluster user mechanism) none }

def system (library : Library σ κ τ) (cluster : String) :
    System (Connection σ κ τ) (Act κ τ) where
  init := {}
  step := step library cluster

end Kodansu.Auth

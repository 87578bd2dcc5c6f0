/-
What a connection that reaches the routed services has proved.

A session that the library finishes counts as an authentication whatever the validation hook said,
and also if it was not called; and the object of a credential is named after the parts of the user's
name.  So a principal is a proven user in the runs whose exchanges are SCRAM ones, finish with the
hook called, without an authorization name of their own, and whose names have no empty part.
-/

import Kodansu.Auth.Sasl

namespace Kodansu.Auth

open Lib List

/-! ### Paths -/

/-- The credentials of different names without empty parts are different objects. -/
lemma location_injective {cluster left right : String} {mechanism other : ScramMechanism}
    (isLeft : Tidy left) (isRight : Tidy right)
    (same : userScramCredentialLocation cluster left mechanism =
      userScramCredentialLocation cluster right other) : left = right := by
  have file : ∀ mechanism : ScramMechanism, pathFrom mechanism.file = [mechanism.file] := by
    intro mechanism
    cases mechanism <;> decide +kernel
  unfold userScramCredentialLocation at same
  rw [pathFrom_append,pathFrom_append,pathFrom_append,pathFrom_append,file,file,
    append_cancel_left_eq] at same
  exact pathFrom_injective isLeft isRight (append_inj' same rfl).1

/-! ### Proven users -/

variable {σ κ τ : Type} {library : Library σ κ τ} {cluster : String} {conn : Connection σ κ τ}

/-- The tokens prove a credential that was stored for exactly this user. -/
def Proves (library : Library σ κ τ) (turns : List (Turn κ τ)) (user : String) : Prop :=
  ∃ turn ∈ turns, ∃ path stored, turn.objects path = some stored ∧ stored.owner = user ∧
    library.proves stored.credential (turns.map Turn.token)

/-- The request follows an exchange that ended in a successful validation, and the principal it
carries is a user whose stored credential the exchange has proved. -/
def Routed.Proven (library : Library σ κ τ) (routed : Routed κ τ) : Prop :=
  ∃ mechanism turns authId, routed.exchange = .ended mechanism turns (some (.ok authId)) ∧
    ∀ user, routed.principal = some ("User:" ++ user) → Proves library turns user

def exempt (apiKey : Int) : Prop := apiKey = Connection.apiVersionsKey

/-- A user without empty parts in the name, who asks to act for no other. -/
def Properties.Own (properties : Properties) : Prop :=
  (∀ user, properties.authId = some user → Tidy user) ∧
    ∀ other, properties.authzId = some other → properties.authId = some other

/-- If the token finishes the session, the validation hook has been called with a user's own name. -/
def FinishesValidated (library : Library σ κ τ) (cluster : String) (connection : Connection σ κ τ)
    (token : τ) : Prop :=
  ∀ mechanism session validated, connection.stage = some (.session mechanism session) →
    library.step session (callback cluster mechanism connection.objects) token =
      .finished validated → ∃ properties, validated = some properties ∧ properties.Own

/-- Exchanges are SCRAM ones and finish validated, and credentials are stored for names without empty
parts. -/
def proper (library : Library σ κ τ) (cluster : String) (connection : Connection σ κ τ) :
    Act κ τ → Prop
  | .frame frame =>
    if connection.v0 then FinishesValidated library cluster connection frame.opaqueToken
    else
      (∀ apiVersion mechanism, frame.request = some (.saslHandshake apiVersion mechanism) →
        isScram mechanism = true) ∧
      ∀ token, frame.request = some (.saslAuthenticate token) →
        FinishesValidated library cluster connection token
  | .upsert user _ _ => Tidy user
  | .delete _ _ => True

def StoresOwn (cluster : String) (objects : Objects κ) : Prop :=
  ∀ path stored, objects path = some stored → Tidy stored.owner ∧
    ∃ mechanism, path = userScramCredentialLocation cluster stored.owner mechanism

def Turn.asked (cluster mechanism : String) (turn : Turn κ τ) : (String → Option κ) × τ :=
  (callback cluster mechanism turn.objects, turn.token)

/-- The exchange that a session is at. -/
structure Underway (library : Library σ κ τ) (cluster mechanism : String) (session : σ)
    (turns : List (Turn κ τ)) : Prop where
  scram : isScram mechanism = true
  run : library.run mechanism (turns.map (Turn.asked cluster mechanism)) = .running session
  stores : ∀ turn ∈ turns, StoresOwn cluster turn.objects

def Stage.Sound (library : Library σ κ τ) (cluster : String) (exchange : Exchange κ τ) :
    Stage σ → Prop
  | .server => True
  | .session mechanism current => Underway library cluster mechanism current exchange.turns
  | .finished success => ∃ mechanism turns authId, success = some authId ∧
      exchange = .ended mechanism turns (some (.ok authId)) ∧ Proves library turns authId

structure Sound (library : Library σ κ τ) (cluster : String) (connection : Connection σ κ τ) :
    Prop where
  stage : ∀ stage, connection.stage = some stage →
    stage.Sound library cluster connection.exchange
  objects : StoresOwn cluster connection.objects
  routed : ∀ routed ∈ connection.routed, ¬ exempt routed.apiKey → routed.Proven library

lemma ne_plain {mechanism : String} (scram : isScram mechanism = true) : mechanism ≠ "PLAIN" := by
  intro plain
  rw [plain] at scram
  exact absurd scram (by decide +kernel)

lemma check_scram {mechanism user : String} {properties : Properties}
    (scram : isScram mechanism = true) (isUser : properties.authId = some user)
    (own : properties.Own) : check mechanism properties = .ok user := by
  unfold check
  rw [if_neg (ne_plain scram),if_pos scram,isUser]
  cases isOther : properties.authzId with
  | none => rfl
  | some other =>
    have same : user = other := Option.some.inj (isUser.symm.trans (own.2 other isOther))
    exact if_pos same.symm

/-- What the callback gives for a name without empty parts was stored for that name. -/
lemma StoresOwn.callback {objects : Objects κ} {mechanism user : String} {credential : κ}
    (own : StoresOwn cluster objects) (tidy : Tidy user)
    (given : Auth.callback cluster mechanism objects user = some credential) :
    ∃ path stored, objects path = some stored ∧ stored.owner = user ∧
      stored.credential = credential := by
  obtain ⟨scram,_,isGiven⟩ := Option.bind_eq_some_iff.mp given
  obtain ⟨stored,isStored,isCredential⟩ := Option.map_eq_some_iff.mp isGiven
  obtain ⟨isTidy,other,same⟩ := own _ stored isStored
  exact ⟨_,stored,isStored,(location_injective tidy isTidy same).symm,isCredential⟩

section Underway

variable {mechanism : String} {session : σ} {turns : List (Turn κ τ)}
  (underway : Underway library cluster mechanism session turns)

include underway

lemma Underway.run_cons (turn : Turn κ τ) :
    library.run mechanism ((turn :: turns).map (Turn.asked cluster mechanism)) =
      library.step session (callback cluster mechanism turn.objects) turn.token := by
  rw [map_cons,Turn.asked,Library.run,underway.run]

lemma Underway.stores_cons {turn : Turn κ τ} (own : StoresOwn cluster turn.objects) :
    ∀ other ∈ turn :: turns, StoresOwn cluster other.objects := by
  intro other isTurn
  cases mem_cons.mp isTurn with
  | inl isNew => exact isNew ▸ own
  | inr older => exact underway.stores other older

lemma Underway.finishes (documented : library.Documented) (turn : Turn κ τ)
    {properties : Properties} (stores : StoresOwn cluster turn.objects) (own : properties.Own)
    (finished : library.step session (callback cluster mechanism turn.objects) turn.token =
      .finished (some properties)) :
    ∃ user, check mechanism properties = .ok user ∧ Proves library (turn :: turns) user := by
  rw [← underway.run_cons turn] at finished
  obtain ⟨user,credential,isUser,⟨asked,isAsked,given⟩,proves⟩ :=
    documented mechanism _ properties underway.scram finished
  obtain ⟨other,isTurn,rfl⟩ := mem_map.mp isAsked
  obtain ⟨path,stored,isStored,owner,isCredential⟩ :=
    (underway.stores_cons stores other isTurn).callback (own.1 user isUser) given
  refine ⟨user,check_scram underway.scram isUser own,other,isTurn,path,stored,isStored,owner,?_⟩
  rw [isCredential]
  rw [map_map] at proves
  exact proves

end Underway

namespace Sound

variable (sound : Sound library cluster conn)

include sound

lemma staged {stage : Option (Stage σ)} {exchange : Exchange κ τ}
    (isSound : ∀ cur, stage = some cur → cur.Sound library cluster exchange) :
    Sound library cluster { conn with stage, exchange } where
  stage := isSound
  objects := sound.objects
  routed := sound.routed

lemma unstaged {exchange : Exchange κ τ} :
    Sound library cluster { conn with stage := none, exchange } := by
  apply sound.staged
  intro cur isCurrent
  cases isCurrent

lemma authenticate (documented : library.Documented) {token : τ}
    (validated : FinishesValidated library cluster conn token) :
    Sound library cluster (conn.authenticate library cluster token) := by
  unfold Connection.authenticate
  split
  · rename_i mechanism session isSession
    have underway : Underway library cluster mechanism session conn.exchange.turns :=
      sound.stage _ isSession
    dsimp only
    split
    · exact sound.unstaged
    · rename_i later moved
      apply sound.staged
      intro cur isCurrent
      cases isCurrent
      exact ⟨underway.scram,(underway.run_cons ⟨conn.objects,token⟩).trans moved,
        underway.stores_cons sound.objects⟩
    · rename_i given moved
      obtain ⟨properties,rfl,own⟩ := validated mechanism session given isSession moved
      obtain ⟨user,checked,proves⟩ :=
        underway.finishes documented ⟨conn.objects,token⟩ sound.objects own moved
      apply sound.staged
      intro cur isCurrent
      cases isCurrent
      rw [Option.map_some,checked]
      exact ⟨mechanism,_,user,rfl,rfl,proves⟩
  · exact sound.unstaged

lemma handshake {mechanism : String} (scram : isScram mechanism = true) :
    Sound library cluster (conn.handshake library mechanism) := by
  unfold Connection.handshake
  split
  · split
    · apply sound.staged
      intro cur isCurrent
      cases isCurrent
      exact ⟨scram,rfl,fun _ isTurn => absurd isTurn not_mem_nil⟩
    · exact { sound.unstaged with }
  · exact sound.unstaged

lemma proven (authenticated : conn.isAuthenticated = true)
    (apiKey : Int) : Routed.Proven library ⟨apiKey, conn.principal, conn.exchange⟩ := by
  unfold Connection.isAuthenticated at authenticated
  split at authenticated
  · rename_i success isFinished
    obtain ⟨mechanism,turns,authId,isSuccess,ended,proves⟩ := sound.stage _ isFinished
    refine ⟨mechanism,turns,authId,ended,?_⟩
    intro user isUser
    unfold Connection.principal at isUser
    rw [isFinished,isSuccess] at isUser
    have same : authId = user := by
      have text := Option.some.inj isUser
      have chars := congrArg String.toList text
      rw [String.toList_append,String.toList_append,append_cancel_left_eq] at chars
      exact String.toList_inj.mp chars
    rw [← same]
    exact proves
  · cases authenticated

lemma route {apiKey : Int} (proven : ¬ exempt apiKey →
      Routed.Proven library ⟨apiKey, conn.principal, conn.exchange⟩) :
    Sound library cluster (conn.route apiKey) where
  stage := sound.stage
  objects := sound.objects
  routed := by
    intro routed isRouted unexempt
    cases mem_cons.mp isRouted with
    | inl isNew =>
      rw [isNew] at unexempt ⊢
      exact proven unexempt
    | inr older => exact sound.routed routed older unexempt

lemma serve (documented : library.Documented) {frame : Frame τ}
    (isProper : proper library cluster conn (.frame frame)) :
    Sound library cluster (conn.serve library cluster frame) := by
  simp only [proper] at isProper
  unfold Connection.serve
  split
  · rename_i isOpaque
    rw [if_pos isOpaque] at isProper
    exact { sound.authenticate documented isProper with }
  rename_i wrapped
  rw [if_neg wrapped] at isProper
  split
  · exact { sound with }
  · rename_i apiVersion mechanism is
    exact { sound.handshake (isProper.1 apiVersion mechanism is) with }
  · next token is => exact sound.authenticate documented (isProper.2 token is)
  · exact sound.route (fun unexempt => absurd rfl unexempt)
  · rename_i apiKey _
    split
    · next authenticated => exact sound.route (fun _ => sound.proven authenticated apiKey)
    · exact { sound with }

lemma stores (path : List (List Char)) {stored : Option (Stored κ)}
    (own : ∀ kept, stored = some kept → Tidy kept.owner ∧
      ∃ mechanism, path = userScramCredentialLocation cluster kept.owner mechanism) :
    Sound library cluster { conn with objects := Function.update conn.objects path stored } where
  stage := sound.stage
  objects := by
    intro other kept isKept
    change Function.update _ _ _ other = _ at isKept
    rw [Function.update_apply] at isKept
    split at isKept
    · rename_i here
      exact here ▸ own kept isKept
    · exact sound.objects other kept isKept
  routed := sound.routed

omit sound in
lemma of_reachable (documented : library.Documented)
    (reachable : (system library cluster).Reachable (proper library cluster) conn) :
    Sound library cluster conn := by
  apply reachable.invariant
  · exact {
      stage := by
        intro stage isStage
        cases isStage
        trivial
      objects := nofun
      routed := nofun }
  · intro before after act sound isProper moved
    change Auth.step library cluster before act = some after at moved
    unfold Auth.step at moved
    cases act with
    | frame frame =>
      dsimp only at moved
      split at moved
      · cases moved
      · cases moved
        exact sound.serve documented isProper
    | upsert user mechanism credential =>
      cases moved
      apply sound.stores
      intro kept isKept
      cases isKept
      exact ⟨isProper,mechanism,rfl⟩
    | delete user mechanism =>
      cases moved
      apply sound.stores
      intro kept isKept
      cases isKept

end Sound

/-- With a library that does as it documents. -/
theorem principal_proven {σ κ τ : Type} {library : Library σ κ τ} {cluster : String}
    {connection : Connection σ κ τ} (documented : library.Documented)
    (reachable : (system library cluster).Reachable (proper library cluster) connection) :
    ∀ routed ∈ connection.routed, ¬ exempt routed.apiKey → routed.Proven library :=
  (Sound.of_reachable documented reachable).routed

/-! ### A library -/

inductive Message
  | first (authId : String) (authzId : Option String)
  | final (proof : Nat)

inductive Dialog
  | fresh
  | challenged (authId : String) (authzId : Option String) (credential : Nat)

def Dialog.step : Dialog → (String → Option Nat) → Message → Stepped Dialog
  | .fresh, callback, .first authId authzId =>
    (callback authId).elim .failed (fun credential =>
      .running (.challenged authId authzId credential))
  | .challenged authId authzId credential, _, .final proof =>
    if proof = credential then .finished (some { authId := some authId, authzId }) else .failed
  | _, _, _ => .failed

/-- Credentials are numbers, and who sends the number in the final message knows it. -/
def scramLibrary : Library Dialog Nat Message where
  offered := ["SCRAM-SHA-256", "SCRAM-SHA-512"]
  parses := fun _ => true
  start := fun _ => .fresh
  step := Dialog.step
  proves := fun credential tokens => .final credential ∈ tokens

lemma scramLibrary_given {mechanism authId : String} {authzId : Option String} {credential : Nat}
    {past : List ((String → Option Nat) × Message)}
    (running : scramLibrary.run mechanism past = .running (.challenged authId authzId credential)) :
    ∃ turn ∈ past, turn.1 authId = some credential := by
  cases past with
  | nil => cases running
  | cons turn past =>
    obtain ⟨given,token⟩ := turn
    unfold Library.run at running
    split at running
    · rename_i session _
      change session.step given token = _ at running
      cases session with
      | challenged =>
        cases token with
        | first => cases running
        | final proof =>
          unfold Dialog.step at running
          dsimp only at running
          split at running <;> cases running
      | fresh =>
        cases token with
        | final => cases running
        | first user other =>
          unfold Dialog.step at running
          cases isGiven : given user with
          | none => simp [isGiven] at running
          | some known =>
            simp only [isGiven,Option.elim_some,Stepped.running.injEq,
              Dialog.challenged.injEq] at running
            obtain ⟨rfl,-,rfl⟩ := running
            exact ⟨_,.head _,isGiven⟩
    · cases running

lemma scramLibrary_documented : scramLibrary.Documented := by
  intro mechanism past properties _ finished
  cases past with
  | nil => cases finished
  | cons turn past =>
    obtain ⟨given,token⟩ := turn
    unfold Library.run at finished
    split at finished
    · rename_i session isRunning
      change session.step given token = _ at finished
      cases session with
      | fresh =>
        cases token with
        | final => cases finished
        | first user other =>
          unfold Dialog.step at finished
          cases isGiven : given user <;> simp [isGiven] at finished
      | challenged authId authzId credential =>
        cases token with
        | first => cases finished
        | final proof =>
          unfold Dialog.step at finished
          dsimp only at finished
          split at finished
          · rename_i right
            cases finished
            obtain ⟨turn,isTurn,isGiven⟩ := scramLibrary_given isRunning
            refine ⟨authId,credential,rfl,⟨turn,.tail _ isTurn,isGiven⟩,?_⟩
            rw [← right]
            exact .head _
          · cases finished
    · cases finished

def Properties.isOwn (properties : Properties) : Bool :=
  properties.authId.all (fun user => decide (Tidy user)) &&
    properties.authzId.all (fun other => properties.authId == some other)

lemma Properties.own_of_isOwn {properties : Properties} (passed : properties.isOwn = true) :
    properties.Own := by
  obtain ⟨tidy,own⟩ := Bool.and_eq_true_iff.mp passed
  constructor
  · intro user isUser
    rw [isUser] at tidy
    exact of_decide_eq_true tidy
  · intro other isOther
    rw [isOther] at own
    exact beq_iff_eq.mp own

def finishesValidated (library : Library σ κ τ) (cluster : String) (connection : Connection σ κ τ)
    (token : τ) : Bool :=
  match connection.stage with
  | some (.session mechanism session) =>
    match library.step session (callback cluster mechanism connection.objects) token with
    | .finished validated => validated.any Properties.isOwn
    | _ => true
  | _ => true

lemma validated_of_finishesValidated {token : τ}
    (passed : finishesValidated library cluster conn token = true) :
    FinishesValidated library cluster conn token := by
  intro mechanism session validated isSession finished
  unfold finishesValidated at passed
  rw [isSession] at passed
  dsimp only at passed
  rw [finished] at passed
  obtain ⟨properties,isValidated,own⟩ := (Option.any_eq_true _ _).mp passed
  exact ⟨properties,isValidated,Properties.own_of_isOwn own⟩

def isProper (library : Library σ κ τ) (cluster : String) (connection : Connection σ κ τ) :
    Act κ τ → Bool
  | .frame frame =>
    if connection.v0 then finishesValidated library cluster connection frame.opaqueToken
    else frame.request.all (fun
      | .saslHandshake _ mechanism => isScram mechanism
      | .saslAuthenticate token => finishesValidated library cluster connection token
      | _ => true)
  | .upsert user _ _ => decide (Tidy user)
  | .delete _ _ => true

lemma proper_of_isProper {act : Act κ τ} (passed : isProper library cluster conn act = true) :
    proper library cluster conn act := by
  cases act with
  | frame frame =>
    simp only [isProper] at passed
    simp only [proper]
    split at passed
    · rename_i isOpaque
      rw [if_pos isOpaque]
      exact validated_of_finishesValidated passed
    · rename_i wrapped
      rw [if_neg wrapped]
      constructor
      · intro apiVersion mechanism is
        rw [is] at passed
        exact passed
      · intro token is
        rw [is] at passed
        exact validated_of_finishesValidated passed
  | upsert user mechanism credential => exact (of_decide_eq_true passed : Tidy user)
  | delete => trivial

def requests (request : Request Message) : Act Nat Message := .frame ⟨.final 0, some request⟩

def exchanges (authzId : Option String) : List (Act Nat Message) :=
  [ .upsert "alice" .scram256 7, requests (.saslHandshake 1 "SCRAM-SHA-256"),
    requests (.saslAuthenticate (.first "alice" authzId)),
    requests (.saslAuthenticate (.final 7)),
    requests (.other 3) ]

theorem principal_proven_alice :
    ∃ connection, (system scramLibrary "c").Reachable (proper scramLibrary "c") connection ∧
      (∀ routed ∈ connection.routed, ¬ exempt routed.apiKey → routed.Proven scramLibrary) ∧
      connection.routed.map (fun routed => (routed.apiKey, routed.principal)) =
        [(3, some "User:alice")] := by
  have ended : (System.exec (system scramLibrary "c") (isProper scramLibrary "c")
      (system scramLibrary "c").init (exchanges none)).map
      (fun connection => connection.routed.map (fun routed => (routed.apiKey, routed.principal))) =
      some [(3, some "User:alice")] := by decide +kernel
  obtain ⟨connection,reachable,observed⟩ := System.Reachable.observed proper_of_isProper ended
  exact ⟨connection,reachable,principal_proven scramLibrary_documented reachable,observed⟩

def refused : Exchange Nat Message → Bool
  | .ended _ _ (some (.error .bad)) => true
  | _ => false

/-- The validation refuses a user who asks to act for another, and the request is routed all the
same. -/
theorem refusedValidation_routed : scramLibrary.Documented ∧
    ∃ connection, (system scramLibrary "c").Reachable System.unguarded connection ∧
      ∃ routed ∈ connection.routed, ¬ exempt routed.apiKey ∧ ¬ routed.Proven scramLibrary := by
  refine ⟨scramLibrary_documented,?_⟩
  have ended : (System.exec (system scramLibrary "c") (fun _ _ => true)
      (system scramLibrary "c").init (exchanges (some "root"))).map
      (fun connection => connection.routed.any (fun routed =>
        routed.apiKey == 3 && refused routed.exchange)) = some true := by decide +kernel
  obtain ⟨connection,reachable,observed⟩ := System.Reachable.observed (fun _ => trivial) ended
  obtain ⟨routed,isRouted,is⟩ := any_eq_true.mp observed
  obtain ⟨isKey,isRefused⟩ := Bool.and_eq_true_iff.mp is
  refine ⟨connection,reachable,routed,isRouted,?_,?_⟩
  · intro isExempt
    rw [beq_iff_eq.mp isKey] at isExempt
    cases isExempt
  · rintro ⟨mechanism,turns,authId,ended,_⟩
    rw [ended] at isRefused
    cases isRefused

end Kodansu.Auth

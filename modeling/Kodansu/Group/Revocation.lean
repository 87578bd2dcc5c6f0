/-
The time that a member has to give up the partitions it was told to give up.

The document has one deadline for all of them.  A run is watched: beside the document stands
when each partition was last put among those that a member is to give up.
-/

import Kodansu.Group.Rounds

namespace Kodansu.Group

open Lib OrderedMap Option

variable {beat : Beat} {member : ConsumerMember}

namespace Beat

def answer (beat : Beat) (topicPattern : Patterns) (held : Option ConsumerGroupDoc) :
    Except ErrorCode (Transition HeartbeatResponse) :=
  apply topicPattern held beat.request beat.client beat.minted beat.resolved beat.liveness beat.config
    beat.nowMs

def joins (beat : Beat) : Bool := beat.request.memberEpoch = 0

def sender (beat : Beat) : String :=
  if beat.joins then joiningId beat.request beat.minted else beat.request.memberId

/-- The group in which the sender is reconciled: with the request taken up, and the targets
assigned again if they have to be. -/
def staged (beat : Beat) (topicPattern : Patterns) (held : Option ConsumerGroupDoc) :
    Except ErrorCode ConsumerGroupDoc := do
  let swept := sweep (opened held beat.nowMs) beat.liveness beat.nowMs
  let (group, memberId, joined) ←
    enterGroup swept.1 beat.request beat.client beat.minted beat.config
  let (group, resubscribed) ←
    update topicPattern group memberId beat.request beat.client beat.config
  let (group, moved) := refresh group beat.resolved
  return rebalanced topicPattern (swept.2 || joined || resubscribed || moved) group

end Beat

/-- What a member is to give up, until when, and its rebalance timeout. -/
abbrev Revocation := Partitions × Option Int × Int

def ConsumerMember.revocation (member : ConsumerMember) : Option Revocation :=
  if member.state = .unrevokedPartitions then
    some (member.pendingRevocation, member.revocationDeadlineMs, member.rebalanceTimeoutMs)
  else none

def revocationOf (held : Option ConsumerGroupDoc) (memberId : String) : Option Revocation :=
  held.bind (fun group => (group.members.get? memberId).bind ConsumerMember.revocation)

def toGiveUp (held : Option ConsumerGroupDoc) (memberId : String) : Partitions :=
  ((revocationOf held memberId).map Prod.fst).getD ∅

structure Watched where
  held : Option ConsumerGroupDoc := none
  since : String → Slot → Int := fun _ _ => 0

/-- A heartbeat puts a partition there that was not there before.  One that joins clears what is
there first. -/
def Beat.puts (beat : Beat) (held after : Option ConsumerGroupDoc) (memberId : String)
    (slot : Slot) : Prop :=
  slot ∈ toGiveUp after memberId ∧
    (slot ∉ toGiveUp held memberId ∨ beat.joins = true ∧ memberId = beat.sender)

instance (beat : Beat) (held after : Option ConsumerGroupDoc) (memberId : String) (slot : Slot) :
    Decidable (beat.puts held after memberId slot) :=
  inferInstanceAs (Decidable (_ ∧ _))

def watching (topicPattern : Patterns) : System Watched Beat where
  init := {}
  step state beat :=
    match beat.answer topicPattern state.held with
    | .error _ => some state
    | .ok transition =>
      if transition.changed then
        let after := some transition.group.bumped
        some
          { held := after
            since := fun memberId slot =>
              if beat.puts state.held after memberId slot then beat.nowMs
              else state.since memberId slot }
      else some state

/-- A heartbeat that is answered finds the revocation of a member overdue, and drops it, whether or
not its session has lapsed. -/
def Dropped (topicPattern : Patterns) (state : Watched) (beat : Beat) (memberId : String)
    (member : ConsumerMember) : Prop :=
  (opened state.held beat.nowMs).members.get? memberId = some member ∧
    member.isRevocationOverdue beat.nowMs = true ∧
    (beat.answer topicPattern state.held).isOk = true

def Beat.Patient (beat : Beat) (member : ConsumerMember) : Prop :=
  member.state = .unrevokedPartitions → 0 < beat.request.rebalanceTimeoutMs →
    beat.request.rebalanceTimeoutMs = member.rebalanceTimeoutMs

def Beat.Done (beat : Beat) (member : ConsumerMember) : Prop :=
  member.state = .unrevokedPartitions →
    stillOwns (ownedFromRequest beat.request) member.pendingRevocation = false →
      stillOwns (ownedFromRequest beat.request) (member.assigned \ member.target) = false

/-- No deadline that is running is made to stand for more: a member that has partitions to give up
does not change its rebalance timeout, and when it has given them up it owns no others that it is to
give up. -/
def Unhurried (topicPattern : Patterns) (state : Watched) (beat : Beat) : Prop :=
  beat.nowMs < 2 ^ 63 ∧
    (∀ member ∈ (opened state.held beat.nowMs).members.get? beat.request.memberId,
      beat.Patient member) ∧
    ∀ group ∈ (beat.staged topicPattern state.held).toOption,
      ∀ member ∈ group.members.get? beat.sender, beat.Done member

instance (topicPattern : Patterns) (state : Watched) (beat : Beat) (memberId : String)
    (member : ConsumerMember) : Decidable (Dropped topicPattern state beat memberId member) :=
  inferInstanceAs (Decidable (_ ∧ _))

instance (beat : Beat) (member : ConsumerMember) : Decidable (beat.Patient member) :=
  inferInstanceAs (Decidable (_ → _))

instance (beat : Beat) (member : ConsumerMember) : Decidable (beat.Done member) :=
  inferInstanceAs (Decidable (_ → _))

instance (topicPattern : Patterns) (state : Watched) (beat : Beat) :
    Decidable (Unhurried topicPattern state beat) :=
  inferInstanceAs (Decidable (_ ∧ _))

/-! ### Up to the reconciliation -/

section

def Carries (carried : String → Option Revocation) (group : ConsumerGroupDoc) : Prop :=
  ∀ memberId member, group.members.get? memberId = some member → member.revocation = carried memberId

variable {carried : String → Option Revocation} {group next : ConsumerGroupDoc} {mid : String}
  {after : ConsumerMember} {held : Option ConsumerGroupDoc} {nowMs : Int} {liveness : Liveness}
  {req request : HeartbeatRequest} {gone new : Bool} {pattern topicPattern : Patterns}
  {client : Client} {config : ConsumerGroupConfig}

lemma Carries.insert (carries : Carries carried group) (id : String) (member : ConsumerMember) :
    Carries (Function.update carried id member.revocation)
      { group with members := group.members.insert id member } := by
  intro other after found
  rw [get?_insert] at found
  split at found
  · rename_i same
    cases found
    rw [same,Function.update_self]
  · rename_i differ
    rw [Function.update_of_ne differ]
    exact carries other after found

lemma Carries.replace (carries : Carries carried group)
    (found : group.members.get? mid = some member)
    (same : after.revocation = member.revocation) :
    Carries carried { group with members := group.members.insert mid after } := by
  have inserted := carries.insert mid after
  rw [same,carries mid member found,Function.update_eq_self] at inserted
  exact inserted

lemma Carries.remove (carries : Carries carried group) (id : String) :
    Carries carried { group with members := group.members.remove id } := by
  intro other after found
  rw [get?_remove] at found
  split at found
  · cases found
  · exact carries other after found

lemma sweep_found
    (found : (sweep (opened held nowMs) liveness nowMs).1.members.get? mid = some member) :
    (opened held nowMs).members.get? mid = some member := by
  rw [sweep,get?_filter,filter_eq_some_iff] at found
  exact found.1

lemma revocationOf_found (found : (opened held nowMs).members.get? mid = some member) :
    revocationOf held mid = member.revocation := by
  cases held with
  | none => cases found
  | some group =>
    unfold revocationOf
    rw [bind_some,show group.members.get? mid = some member from found,bind_some]

lemma sweep_carries (held : Option ConsumerGroupDoc) (liveness : Liveness) (nowMs : Int) :
    Carries (revocationOf held) (sweep (opened held nowMs) liveness nowMs).1 :=
  fun _ _ found => (revocationOf_found (sweep_found found)).symm

lemma leave_carries (carries : Carries carried group)
    (leaves : leave group req nowMs = .ok (next, gone)) : Carries carried next := by
  unfold leave at leaves
  split at leaves
  · cases leaves
  rename_i member found
  split at leaves
  · cases leaves
    exact carries.replace found rfl
  · cases leaves
    exact carries.remove _

lemma rebalanced_carries (rebalance : Bool) (carries : Carries carried group) :
    Carries carried (rebalanced pattern rebalance group) := by
  cases rebalance with
  | false => exact carries
  | true =>
    intro id after found
    rw [rebalanced,if_pos rfl,retarget,get?_mapValues] at found
    obtain ⟨member,known,isAfter⟩ := map_eq_some_iff.mp found
    rw [← isAfter,← carries id member known]
    rfl

lemma refresh_carries (resolved : Option Resolved) (carries : Carries carried group) :
    Carries carried (refresh group resolved).1 := by
  cases resolved with
  | none => exact carries
  | some resolved =>
    unfold refresh refreshTopics
    dsimp only
    split <;> exact carries

lemma joinAs_carries (carries : Carries carried group)
    (enters : joinAs group mid request client config = .ok (next, new)) :
    Carries (Function.update carried mid none) next := by
  unfold joinAs at enters
  split at enters
  · rename_i previousId previous _
    split at enters
    · cases enters
      exact (carries.remove previousId).insert mid (replacing previous client)
    · cases enters
  · split at enters
    · rename_i member _
      cases enters
      exact carries.insert mid (rejoining member)
    · split at enters
      · cases enters
      · split at enters
        · cases enters
        · cases enters
          exact carries.insert mid (newMember request client config)

lemma refreshMember_revocation (patient : beat.Patient member) :
    (refreshMember member beat.request beat.client beat.config).revocation = member.revocation := by
  unfold ConsumerMember.revocation refreshMember
  dsimp only
  split
  · rename_i unrevoked
    split
    · next stated => rw [patient unrevoked stated]
    · rfl
  · rfl

lemma update_carries (carries : Carries carried group)
    (patient : ∀ member, group.members.get? mid = some member → beat.Patient member)
    (updates : update topicPattern group mid beat.request beat.client beat.config =
      .ok (next, new)) : Carries carried next := by
  unfold update at updates
  split at updates
  · cases updates
    exact carries
  · rename_i member found
    obtain ⟨changed,changes,same⟩ := bind_ok updates
    cases same
    obtain ⟨names,regex,assignor,isChanged,_⟩ := updateMember_inv changes
    apply carries.replace found
    rw [isChanged]
    exact refreshMember_revocation (patient member found)

def Beat.brings (beat : Beat) (held : Option ConsumerGroupDoc) (memberId : String) :
    Option Revocation :=
  if beat.joins = true ∧ memberId = beat.sender then none else revocationOf held memberId

lemma enterGroup_carries
    (patient : ∀ member ∈ (opened held beat.nowMs).members.get? beat.request.memberId,
      beat.Patient member)
    (enters : enterGroup (sweep (opened held beat.nowMs) beat.liveness beat.nowMs).1 beat.request
      beat.client beat.minted beat.config = .ok (group, mid, new)) :
    mid = beat.sender ∧ Carries (beat.brings held) group ∧
      ∀ member, group.members.get? mid = some member → beat.Patient member := by
  have swept := sweep_carries held beat.liveness beat.nowMs
  unfold enterGroup at enters
  unfold Carries Beat.brings Beat.sender Beat.joins
  split at enters
  · rename_i joining
    obtain ⟨⟨entered,isNew⟩,joinsIn,same⟩ := bind_ok enters
    cases same
    have joined := joinAs_carries swept joinsIn
    simp only [joining,decide_true,if_true,true_and]
    constructor
    · intro id member found
      rw [joined id member found,Function.update_apply]
    · intro member found unrevoked
      have idle := joined _ member found
      rw [Function.update_self,ConsumerMember.revocation,if_pos unrevoked] at idle
      cases idle
  · rename_i staying
    obtain ⟨_,_,same⟩ := bind_ok enters
    cases same
    simp only [staying,decide_false,Bool.false_eq_true,if_false,false_and,true_and]
    exact ⟨swept,fun member found => patient member (sweep_found found)⟩

end

/-! ### A whole heartbeat -/

/-- Whoever is in the group has nothing to give up, or what it brought, or was told at `nowMs` and
has a rebalance timeout for it. -/
def Ends (carried : String → Option Revocation) (nowMs : Int) (group : ConsumerGroupDoc) : Prop :=
  ∀ memberId member, group.members.get? memberId = some member →
    member.revocation = none ∨ member.revocation = carried memberId ∨
      carried memberId = none ∧ member.revocationDeadlineMs =
        some (saturating 64 (nowMs + member.rebalanceTimeoutMs))

variable {carried : String → Option Revocation} {group : ConsumerGroupDoc} {nowMs targetEpoch : Int}
  {owned : Option Partitions} {taken : Partitions} {mid : String} {pattern : Patterns} {s : Watched}
  {transition : Transition HeartbeatResponse}

lemma Carries.ends (carries : Carries carried group) : Ends carried nowMs group :=
  fun id member found => .inr (.inl (carries id member found))

lemma nextAssignment_ends (unrevoked : member.state = .unrevokedPartitions →
      stillOwns owned (member.assigned \ member.target) = false) :
    (nextAssignment member targetEpoch taken owned nowMs).revocation = none ∨
      member.revocation = none ∧
        (nextAssignment member targetEpoch taken owned nowMs).revocationDeadlineMs = some (saturating 64
          (nowMs + (nextAssignment member targetEpoch taken owned nowMs).rebalanceTimeoutMs)) := by
  unfold nextAssignment
  dsimp only
  split
  · rename_i revoking
    right
    have idle : member.state ≠ .unrevokedPartitions := by
      intro running
      rw [unrevoked running] at revoking
      cases revoking.2
    exact ⟨if_neg idle,if_pos idle⟩
  · left
    apply if_neg
    dsimp only
    split <;> exact nofun

lemma reconcile_ends (nowMs : Int) (carries : Carries carried group)
    (done : ∀ member ∈ group.members.get? mid, beat.Done member) :
    Ends carried nowMs (reconcile group mid (ownedFromRequest beat.request) nowMs) := by
  intro id next found
  rw [reconcile,get?_adjust] at found
  split at found
  · rename_i same
    subst same
    obtain ⟨member,known,isNext⟩ := map_eq_some_iff.mp found
    rw [← carries id member known,← isNext]
    split
    · rename_i moving
      refine (nextAssignment_ends (fun unrevoked => ?_)).imp_right Or.inr
      apply done member known unrevoked
      rw [moves,unrevoked] at moving
      simpa using moving
    · exact .inr (.inl rfl)
  · exact carries.ends id next found

lemma Ends.stamped (ends : Ends carried nowMs group) (mid : String) (contact : Int) :
    Ends carried nowMs (stamped group mid contact) := by
  intro id next found
  rw [Group.stamped,get?_adjust] at found
  split at found
  · rename_i same
    obtain ⟨member,known,isNext⟩ := map_eq_some_iff.mp found
    rw [same,← isNext]
    exact ends mid member known
  · exact ends id next found

lemma answer_ends (unhurried : Unhurried pattern s beat)
    (answers : beat.answer pattern s.held = .ok transition) :
    Ends (beat.brings s.held) beat.nowMs transition.group := by
  unfold Beat.answer apply at answers
  dsimp only at answers
  split at answers
  · rename_i leaving
    obtain ⟨⟨rest,gone⟩,leaves,same⟩ := bind_ok answers
    cases same
    have staying : beat.joins = false := by
      apply decide_eq_false
      intro joining
      simp [joining,leavingStaticMemberEpoch] at leaving
    have brings : beat.brings s.held = revocationOf s.held := by
      funext id
      simp [Beat.brings,staying]
    rw [brings]
    apply Carries.ends
    exact rebalanced_carries _ (leave_carries (sweep_carries _ _ _) leaves)
  · obtain ⟨⟨entered,mid,new⟩,enters,answers⟩ := bind_ok answers
    obtain ⟨⟨updated,resubscribed⟩,updates,answers⟩ := bind_ok answers
    obtain ⟨isSender,carries,slow⟩ := enterGroup_carries unhurried.2.1 enters
    subst isSender
    have isStaged : beat.staged pattern s.held = .ok (rebalanced pattern
        ((sweep (opened s.held beat.nowMs) beat.liveness beat.nowMs).2 || new || resubscribed ||
          (refresh updated beat.resolved).2) (refresh updated beat.resolved).1) := by
      unfold Beat.staged
      dsimp only
      rw [enters]
      change (update pattern entered beat.sender beat.request beat.client beat.config >>= _) = _
      rw [updates]
      rfl
    have ends := reconcile_ends beat.nowMs
      (rebalanced_carries _ (refresh_carries beat.resolved (update_carries carries slow updates)))
      (unhurried.2.2 _ (by rw [isStaged]; rfl))
    split at answers
    · cases answers
    cases answers
    unfold answered
    dsimp only
    split
    · exact ends.stamped _ _
    · exact ends

/-! ### Every run -/

/-- The deadline of a member is not before the rebalance timeout of anything it is to give up, short
of the end of the clock. -/
def Watched.Sound (state : Watched) : Prop :=
  ∀ memberId slots deadline timeout,
    revocationOf state.held memberId = some (slots, some deadline, timeout) →
      ∀ slot ∈ slots, state.since memberId slot + timeout ≤ deadline ∨ 2 ^ 63 - 1 ≤ deadline

variable {topicPattern : Patterns} {after : Watched}

lemma revocation_eq_some {revocation : Revocation} (is : member.revocation = some revocation) :
    member.state = .unrevokedPartitions ∧ revocation =
      (member.pendingRevocation, member.revocationDeadlineMs, member.rebalanceTimeoutMs) := by
  unfold ConsumerMember.revocation at is
  split at is
  · next unrevoked => exact ⟨unrevoked,(Option.some.inj is).symm⟩
  · cases is

lemma step_sound (sound : s.Sound) (unhurried : Unhurried topicPattern s beat)
    (moved : (watching topicPattern).step s beat = some after) : after.Sound := by
  unfold watching at moved
  dsimp only at moved
  split at moved
  · cases moved
    exact sound
  · rename_i transition answers
    split at moved
    · cases moved
      intro memberId slots deadline timeout is slot toGive
      have given : slot ∈ toGiveUp (some transition.group.bumped) memberId := by
        unfold toGiveUp
        rw [is]
        exact toGive
      have isRevocation :
          (transition.group.members.get? memberId).bind ConsumerMember.revocation = _ := is
      obtain ⟨member,found,isRevocation⟩ := bind_eq_some_iff.mp isRevocation
      rcases answer_ends unhurried answers memberId member found with nothing | same | ⟨told,due⟩
      · rw [nothing] at isRevocation
        cases isRevocation
      · rw [isRevocation,Beat.brings] at same
        split at same
        · cases same
        rename_i old
        have standing : ¬beat.puts s.held (some transition.group.bumped) memberId slot := by
          rintro ⟨_,new⟩
          apply old
          apply new.resolve_left
          rw [not_not,toGiveUp,← same]
          exact toGive
        simp only [if_neg standing]
        exact sound memberId slots deadline timeout same.symm slot toGive
      · have put : beat.puts s.held (some transition.group.bumped) memberId slot := by
          refine ⟨given,?_⟩
          rw [Beat.brings] at told
          split at told
          · next new => exact .inr new
          left
          rw [toGiveUp,told]
          exact Finset.notMem_empty slot
        obtain ⟨_,isTriple⟩ := revocation_eq_some isRevocation
        rw [due] at isTriple
        cases isTriple
        simp only [if_pos put]
        unfold saturating
        omega
    · cases moved
      exact sound

theorem revocation_gets_rebalance_timeout (topicPattern : Patterns) {state : Watched} {beat : Beat}
    {memberId : String} {member : ConsumerMember}
    (reached : System.Reachable (watching topicPattern) (Unhurried topicPattern) state)
    (timely : beat.nowMs < 2 ^ 63) (dropped : Dropped topicPattern state beat memberId member) :
    ∀ slot ∈ member.pendingRevocation,
      state.since memberId slot + member.rebalanceTimeoutMs ≤ beat.nowMs := by
  have sound : state.Sound := by
    apply reached.invariant
    · intro memberId slots deadline timeout is
      cases is
    · exact step_sound
  intro slot toGive
  obtain ⟨found,overdue,-⟩ := dropped
  rw [ConsumerMember.isRevocationOverdue,Bool.and_eq_true,decide_eq_true_eq] at overdue
  obtain ⟨deadline,isDeadline,past⟩ := (any_eq_true _ _).mp overdue.2
  have running := revocationOf_found found
  rw [ConsumerMember.revocation,if_pos overdue.1,isDeadline] at running
  have due := sound memberId _ deadline _ running slot toGive
  have past := of_decide_eq_true past
  omega

def threeBeat (memberId : String) (memberEpoch : Int) (owned : List Int) (nowMs : Int) : Beat where
  request :=
    { memberId, memberEpoch, rebalanceTimeoutMs := 1000, subscribedTopicNames := some ["t"],
      topicPartitions := some [(1, owned)] }
  client := {}
  minted := sampleMinted
  resolved := some (OrderedMap.empty.insert "t" (1, 3))
  liveness := {}
  config := {}
  nowMs

def memberOf (state : Watched) (memberId : String) : ConsumerMember :=
  ((opened state.held 0).members.get? memberId).getD {}

theorem revocation_gets_rebalance_timeout_single :
    ∃ state, System.Reachable (watching (fun _ => none)) (Unhurried (fun _ => none)) state ∧
      Dropped (fun _ => none) state (threeBeat "b" 2 [] 1001) "a" (memberOf state "a") ∧
      ∀ slot ∈ (memberOf state "a").pendingRevocation,
        state.since "a" slot + (memberOf state "a").rebalanceTimeoutMs ≤ 1001 := by
  have ended : (System.exec (watching (fun _ => none))
      (fun state beat => Unhurried (fun _ => none) state beat) {}
      [threeBeat "a" 0 [] 0, threeBeat "b" 0 [] 0, threeBeat "a" 1 [0, 1, 2] 0]).map
        (fun state => decide
          (Dropped (fun _ => none) state (threeBeat "b" 2 [] 1001) "a" (memberOf state "a"))) =
      some true := by decide +kernel
  obtain ⟨state,reached,observed⟩ := System.Reachable.observed of_decide_eq_true ended
  have dropped := of_decide_eq_true observed
  exact ⟨state,reached,dropped,revocation_gets_rebalance_timeout _ reached (by decide) dropped⟩

/-- A third member joins while the first one has yet to give up a partition.  When it has, it is to
give up another, and has a tenth of its rebalance timeout for that. -/
theorem second_revocation_hurried :
    ∃ state, System.Reachable (watching (fun _ => none)) (fun _ beat => beat.nowMs < 2 ^ 63) state ∧
      Dropped (fun _ => none) state (threeBeat "b" 2 [] 1001) "a" (memberOf state "a") ∧
      (threeBeat "b" 2 [] 1001).liveness.isExpired "a" (memberOf state "a") 1001 = false ∧
      ⟨1, 1⟩ ∈ (memberOf state "a").pendingRevocation ∧
      1001 < state.since "a" ⟨1, 1⟩ + (memberOf state "a").rebalanceTimeoutMs := by
  have ended : (System.exec (watching (fun _ => none)) (fun _ beat => beat.nowMs < 2 ^ 63) {}
      [threeBeat "a" 0 [] 0, threeBeat "b" 0 [] 0, threeBeat "a" 1 [0, 1, 2] 0,
        threeBeat "c" 0 [] 1, threeBeat "a" 1 [1, 2] 900]).map
        (fun state => decide
          (Dropped (fun _ => none) state (threeBeat "b" 2 [] 1001) "a" (memberOf state "a") ∧
            (threeBeat "b" 2 [] 1001).liveness.isExpired "a" (memberOf state "a") 1001 = false ∧
            ⟨1,1⟩ ∈ (memberOf state "a").pendingRevocation ∧
            1001 < state.since "a" ⟨1,1⟩ + (memberOf state "a").rebalanceTimeoutMs)) =
      some true := by decide +kernel
  obtain ⟨state,reached,observed⟩ := System.Reachable.observed of_decide_eq_true ended
  exact ⟨state,reached,of_decide_eq_true observed⟩

end Kodansu.Group

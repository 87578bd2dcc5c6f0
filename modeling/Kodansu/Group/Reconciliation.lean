/-
Where the members of a reachable document are on the way to their targets.

A stable member at the assignment epoch owns its target; a member that is not revoking has
nothing left to give up; what it is giving up it does not own.  Nobody's epoch is past the
group's, so that a new assignment, which moves the group's epoch on, finds nobody at it.  That
needs an epoch that can still move, and, for members that start over at epoch zero, one that is
not zero.
-/

import Kodansu.Group.Ownership

namespace Kodansu.Group

open Lib OrderedMap Finset

structure Placed (topicPattern : Patterns) (epoch : Int) (member : ConsumerMember) : Prop where
  reached : member.memberEpoch = leavingStaticMemberEpoch ∨
    0 ≤ member.memberEpoch ∧ member.memberEpoch ≤ epoch
  settled : member.state ≠ .unrevokedPartitions → member.pendingRevocation = ∅
  apart : Disjoint member.assigned member.pendingRevocation
  regex : ∀ regex, member.subscribedTopicRegex = some regex → (topicPattern regex).isSome
  assignor : ∀ assignor, member.serverAssignor = some assignor → isSupported assignor = true

def Arrived (epoch : Int) (member : ConsumerMember) : Prop :=
  member.state = .stable → member.memberEpoch = epoch → member.assigned = member.target

structure Distinct (group : ConsumerGroupDoc) : Prop where
  targets {left right : String} {first second : ConsumerMember} (different : left ≠ right)
    (isFirst : group.members.get? left = some first)
    (isSecond : group.members.get? right = some second) : Disjoint first.target second.target
  instances {left right : String} {first second : ConsumerMember} {instanceId : String}
    (isFirst : group.members.get? left = some first)
    (isSecond : group.members.get? right = some second)
    (ofFirst : first.instanceId = some instanceId) (ofSecond : second.instanceId = some instanceId) :
    left = right

structure Reconciling (topicPattern : Patterns) (group : ConsumerGroupDoc) (rebalance : Bool) :
    Prop where
  epochs : group.assignmentEpoch = group.groupEpoch
  nonneg : 0 ≤ group.groupEpoch
  placed {memberId : String} {member : ConsumerMember}
    (found : group.members.get? memberId = some member) :
    Placed topicPattern group.groupEpoch member
  distinct : Distinct group
  nonempty : group.members.get? "" = none
  /-- Until somebody is let in, somebody has been here since an earlier assignment. -/
  started {memberId : String} {member : ConsumerMember} (still : rebalance = false)
    (found : group.members.get? memberId = some member) : 0 < group.groupEpoch
  arrived {memberId : String} {member : ConsumerMember} (still : rebalance = false)
    (found : group.members.get? memberId = some member) : Arrived group.groupEpoch member

/-- On the way to an assignment, which can still move the epoch. -/
structure Movable (topicPattern : Patterns) (group : ConsumerGroupDoc) (rebalance : Bool) : Prop where
  reconciling : Reconciling topicPattern group rebalance
  room : group.groupEpoch < i32Max

section Changes

variable {id : String}

section

variable {pattern : Patterns} {group : ConsumerGroupDoc} {rebalance : Bool}
  (known : Reconciling pattern group rebalance)

include known

variable {moved : Bool} {next : ConsumerGroupDoc} {changed member : ConsumerMember} {mid : String}

lemma Reconciling.sub (groupEpoch : next.groupEpoch = group.groupEpoch)
    (assignmentEpoch : next.assignmentEpoch = group.assignmentEpoch)
    (from_ : ∀ {id held}, next.members.get? id = some held → group.members.get? id = some held)
    (still : moved = false → rebalance = false) : Reconciling pattern next moved where
  epochs := by rw [assignmentEpoch,groupEpoch,known.epochs]
  nonneg := by
    rw [groupEpoch]
    exact known.nonneg
  placed found := by
    rw [groupEpoch]
    exact known.placed (from_ found)
  distinct :=
    { targets := fun differ isFirst isSecond =>
        known.distinct.targets differ (from_ isFirst) (from_ isSecond)
      instances := fun isFirst isSecond ofFirst ofSecond =>
        known.distinct.instances (from_ isFirst) (from_ isSecond) ofFirst ofSecond }
  nonempty := by
    cases found : next.members.get? "" with
    | none => rfl
    | some held =>
      have absent := known.nonempty
      rw [from_ found] at absent
      cases absent
  started unmoved found := by
    rw [groupEpoch]
    exact known.started (still unmoved) (from_ found)
  arrived unmoved found := by
    rw [groupEpoch]
    exact known.arrived (still unmoved) (from_ found)

lemma Reconciling.insert (placed : Placed pattern group.groupEpoch changed)
    (nonempty : mid ≠ "")
    (targets : ∀ {id held}, id ≠ mid → group.members.get? id = some held →
      Disjoint changed.target held.target)
    (instances : ∀ {id held inst}, id ≠ mid → group.members.get? id = some held →
      changed.instanceId = some inst → held.instanceId ≠ some inst)
    (still : moved = false → rebalance = false) (started : moved = false → 0 < group.groupEpoch)
    (arrived : moved = false → Arrived group.groupEpoch changed) :
    Reconciling pattern { group with members := group.members.insert mid changed } moved := by
  have cases_ : ∀ {id held}, ({ group with members := group.members.insert mid changed } :
        ConsumerGroupDoc).members.get? id = some held →
        id = mid ∧ held = changed ∨ id ≠ mid ∧ group.members.get? id = some held := by
    intro id held found
    rw [get?_insert] at found
    split at found
    · next same => exact .inl ⟨same,(Option.some.inj found).symm⟩
    · next differ => exact .inr ⟨differ,found⟩
  constructor
  · exact known.epochs
  · exact known.nonneg
  · intro id held found
    rcases cases_ found with ⟨_,rfl⟩ | ⟨_,before⟩
    · exact placed
    · exact known.placed before
  · constructor
    · intro left right first second differ isFirst isSecond
      rcases cases_ isFirst with ⟨isLeft,rfl⟩ | ⟨notLeft,oldFirst⟩
      · rcases cases_ isSecond with ⟨isRight,_⟩ | ⟨notRight,oldSecond⟩
        · exact absurd (isLeft.trans isRight.symm) differ
        · exact targets notRight oldSecond
      · rcases cases_ isSecond with ⟨_,rfl⟩ | ⟨_,oldSecond⟩
        · exact (targets notLeft oldFirst).symm
        · exact known.distinct.targets differ oldFirst oldSecond
    · intro left right first second inst isFirst isSecond ofFirst ofSecond
      rcases cases_ isFirst with ⟨isLeft,rfl⟩ | ⟨notLeft,oldFirst⟩
      · rcases cases_ isSecond with ⟨isRight,_⟩ | ⟨notRight,oldSecond⟩
        · exact isLeft.trans isRight.symm
        · exact absurd ofSecond (instances notRight oldSecond ofFirst)
      · rcases cases_ isSecond with ⟨_,rfl⟩ | ⟨_,oldSecond⟩
        · exact absurd ofFirst (instances notLeft oldFirst ofSecond)
        · exact known.distinct.instances oldFirst oldSecond ofFirst ofSecond
  · rw [get?_insert_ne _ _ (Ne.symm nonempty)]
    exact known.nonempty
  · intro id held unmoved _
    exact started unmoved
  · intro id held unmoved found
    rcases cases_ found with ⟨_,rfl⟩ | ⟨_,before⟩
    · exact arrived unmoved
    · exact known.arrived (still unmoved) before

lemma Reconciling.ne_empty (found : group.members.get? id = some member) :
    id ≠ "" := by
  intro isEmpty
  have absent := known.nonempty
  rw [← isEmpty,found] at absent
  cases absent

lemma Reconciling.change (found : group.members.get? mid = some member)
    (placed : Placed pattern group.groupEpoch changed)
    (target : changed.target = member.target) (inst : changed.instanceId = member.instanceId)
    (arrived : rebalance = false → Arrived group.groupEpoch changed) :
    Reconciling pattern { group with members := group.members.insert mid changed }
      rebalance := by
  refine known.insert placed (known.ne_empty found) ?_ ?_ id (fun still => known.started still found)
    arrived
  · intro id held differ isHeld
    rw [target]
    exact known.distinct.targets (Ne.symm differ) found isHeld
  · intro id held instance_ differ isHeld ofChanged ofHeld
    rw [inst] at ofChanged
    exact differ (known.distinct.instances isHeld found ofHeld ofChanged)

end

variable {member changed : ConsumerMember} {epoch : Int} {pattern : Patterns}

lemma Touched.arrived (touched : Touched member changed)
    (arrived : Arrived epoch member) : Arrived epoch changed := by
  intro stable atEpoch
  rw [touched.assigned,touched.target]
  exact arrived (touched.state ▸ stable) (touched.memberEpoch ▸ atEpoch)

lemma Touched.placed {epoch : Int} (touched : Touched member changed)
    (placed : Placed pattern epoch member)
    (regex : ∀ regex, changed.subscribedTopicRegex = some regex → (pattern regex).isSome)
    (assignor : ∀ assignor, changed.serverAssignor = some assignor → isSupported assignor = true) :
    Placed pattern epoch changed where
  reached := by
    rw [touched.memberEpoch]
    exact placed.reached
  settled notRevoking := by
    rw [touched.pendingRevocation]
    exact placed.settled (touched.state ▸ notRevoking)
  apart := by
    rw [touched.assigned,touched.pendingRevocation]
    exact placed.apart
  regex := regex
  assignor := assignor

end Changes

/-! ### Updates -/

section Updates

variable {topicPattern : Patterns} {member next : ConsumerMember} {req : HeartbeatRequest}
  {client : Client} {config : ConsumerGroupConfig} {moved : Bool} {epoch : Int}

lemma updateMember_placed
    (updates : updateMember topicPattern member req client config = .ok (next, moved))
    (placed : Placed topicPattern epoch member) : Placed topicPattern epoch next := by
  apply (updateMember_spec updates).1.placed placed
  all_goals obtain ⟨names,regex,assignor,rfl,_,isRegex,isAssignor⟩ := updateMember_inv updates
  · cases isRegex with
    | inl same => exact fun pattern isPattern => placed.regex pattern (same.symm.trans isPattern)
    | inr compiles => exact compiles.2
  · cases isAssignor with
    | inl same => exact fun name isName => placed.assignor name (same.symm.trans isName)
    | inr supported => exact supported

end Updates

/-! ### The stages -/

section Stages

section

variable {pattern : Patterns} {group : ConsumerGroupDoc} {rebalance : Bool}
  (known : Reconciling pattern group rebalance)

include known

variable {moved gone : Bool} {req : HeartbeatRequest} {nowMs : Int} {next : ConsumerGroupDoc}

lemma Reconciling.flag (still : moved = false → rebalance = false) :
    Reconciling pattern group moved :=
  known.sub rfl rfl id still

lemma Reconciling.or (moved : Bool) : Reconciling pattern group (rebalance || moved) :=
  known.flag (fun unmoved => (Bool.or_eq_false_iff.mp unmoved).1)

lemma Reconciling.remove (mid : String) (still : moved = false → rebalance = false) :
    Reconciling pattern { group with members := group.members.remove mid } moved := by
  refine known.sub rfl rfl ?_ still
  intro id held found
  rw [get?_remove] at found
  split at found
  · cases found
  · exact found

lemma leave_reconciling (leaves : leave group req nowMs = .ok (next, gone)) :
    Reconciling pattern next (rebalance || gone) := by
  unfold leave at leaves
  split at leaves
  · cases leaves
  rename_i member found
  have placed := known.placed found
  split at leaves
  · cases leaves
    rw [Bool.or_false]
    apply known.change found
    · exact ⟨.inl rfl,placed.settled,placed.apart,placed.regex,placed.assignor⟩
    · rfl
    · rfl
    · intro _ _ atEpoch
      have nonneg := known.nonneg
      simp only [leavingStaticMemberEpoch] at atEpoch
      omega
  · cases leaves
    exact known.remove _ (fun unmoved => (Bool.or_eq_false_iff.mp unmoved).1)

end

variable {pattern : Patterns} {epoch : Int} {member held : ConsumerMember}
  {group next : ConsumerGroupDoc} {mid : String} {inst : Option String} {rebalance new : Bool}
  {req : HeartbeatRequest} {config : ConsumerGroupConfig}

lemma Placed.restart {epoch : Int} {member changed : ConsumerMember}
    (placed : Placed pattern epoch member) (nonneg : 0 ≤ epoch)
    (memberEpoch : changed.memberEpoch = 0) (pending : changed.pendingRevocation = ∅)
    (regex : changed.subscribedTopicRegex = member.subscribedTopicRegex)
    (assignor : changed.serverAssignor = member.serverAssignor) :
    Placed pattern epoch changed where
  reached := Or.inr (by omega)
  settled _ := pending
  apart := by
    rw [pending]
    exact disjoint_empty_right _
  regex := by
    rw [regex]
    exact placed.regex
  assignor := by
    rw [assignor]
    exact placed.assignor

lemma arrived_at_zero (pos : 0 < epoch)
    (memberEpoch : member.memberEpoch = 0) : Arrived epoch member := by
  intro _ atEpoch
  omega

lemma instanceHolder_none
    (nobody : instanceHolder group mid inst = none) {id name : String}
    (differ : id ≠ mid) (found : group.members.get? id = some held)
    (isName : inst = some name) : held.instanceId ≠ some name := by
  intro same
  subst isName
  have missed := List.find?_eq_none.mp nobody (id, held) (mem_entries.mpr found)
  simp [differ,same] at missed

lemma joinAs_reconciling {client : Client} (known : Reconciling pattern group rebalance)
    (nonempty : mid ≠ "")
    (enters : joinAs group mid req client config = .ok (next, new)) :
    Reconciling pattern next (rebalance || new) := by
  unfold joinAs at enters
  split at enters
  · rename_i previousId previous isHolder
    split at enters
    · cases enters
      rw [Bool.or_false]
      obtain ⟨found,_⟩ := instanceHolder_spec isHolder
      -- Whoever else is left is not the member that is replaced.
      have other : ∀ {id held}, ({ group with members := group.members.remove previousId } :
            ConsumerGroupDoc).members.get? id = some held →
            id ≠ previousId ∧ group.members.get? id = some held := by
        intro id held isHeld
        rw [get?_remove] at isHeld
        split at isHeld
        · cases isHeld
        · next differ => exact ⟨differ,isHeld⟩
      have removed : Reconciling pattern
          { group with members := group.members.remove previousId } rebalance :=
        known.remove previousId id
      refine removed.insert ((known.placed found).restart known.nonneg rfl rfl rfl rfl) nonempty
        ?_ ?_ id (fun still => known.started still found) ?_
      · intro id held _ isHeld
        obtain ⟨differ,before⟩ := other isHeld
        have apart := known.distinct.targets (Ne.symm differ) found before
        exact apart
      · intro id held inst _ isHeld ofChanged ofHeld
        obtain ⟨differ,before⟩ := other isHeld
        exact differ (known.distinct.instances before found ofHeld ofChanged)
      · intro still
        exact arrived_at_zero (known.started still found) rfl
    · cases enters
  · rename_i nobody
    split at enters
    · rename_i member found
      cases enters
      rw [Bool.or_false]
      apply known.change found
      · exact (known.placed found).restart known.nonneg rfl rfl rfl rfl
      · rfl
      · rfl
      · intro still
        exact arrived_at_zero (known.started still found) rfl
    · split at enters
      · cases enters
      · split at enters
        · cases enters
        · cases enters
          rw [Bool.or_true]
          refine known.insert ?_ nonempty ?_ ?_ nofun nofun nofun
          · have nonneg := known.nonneg
            exact ⟨.inr ⟨Int.le_refl 0,nonneg⟩,fun _ => rfl,disjoint_empty_right _,
              nofun,nofun⟩
          · intro id held _ _
            exact disjoint_empty_left _
          · intro id held inst differ isHeld isName
            exact instanceHolder_none nobody differ isHeld isName

lemma enrol_reconciling (known : Reconciling pattern group rebalance)
    (nonempty : mid ≠ "" ∨ (group.members.get? mid).isSome)
    (enters : enrol group mid config = .ok (next, new)) :
    Reconciling pattern next (rebalance || new) := by
  unfold enrol at enters
  split at enters
  · cases enters
    exact known.or false
  · rename_i absent
    split at enters
    · cases enters
    cases enters
    rw [Bool.or_true]
    refine known.insert ?_ (nonempty.resolve_right absent) ?_ nofun nofun nofun nofun
    · have nonneg := known.nonneg
      exact ⟨.inr ⟨Int.le_refl 0,nonneg⟩,fun _ => rfl,disjoint_empty_right _,
        nofun,nofun⟩
    · intro id held _ _
      exact disjoint_empty_left _

lemma speak_reconciling {req : ClassicJoin} (client : Client)
    (protocol : String × Encoded MemberMetadata) (subscription : MemberMetadata)
    (known : Reconciling pattern group rebalance)
    (found : group.members.get? mid = some member)
    (claims : Claims group mid req.instanceId) : Reconciling pattern { group with
        members := group.members.insert mid
          (speakClassic member req client protocol subscription) } rebalance := by
  have touched := speakClassic_touched member req client protocol subscription
  have placed := known.placed found
  refine known.insert (touched.placed placed placed.regex nofun) (known.ne_empty found) ?_ ?_ id
    (fun still => known.started still found)
    (fun still => touched.arrived (known.arrived still found))
  · intro id held differ isHeld
    have apart := known.distinct.targets (Ne.symm differ) found isHeld
    exact apart
  · intro id held inst differ isHeld isName ofHeld
    rcases claims inst isName with nobody | ⟨own,isOwn,ofOwn⟩
    · exact nobody id held isHeld ofHeld
    · exact differ (known.distinct.instances isHeld isOwn ofHeld ofOwn)

lemma retarget_reconciling (known : Reconciling pattern group rebalance)
    (room : group.groupEpoch < i32Max) :
    Reconciling pattern (retarget pattern group) false := by
  have nonneg := known.nonneg
  have epoch : (retarget pattern group).groupEpoch = group.groupEpoch + 1 := by
    unfold retarget saturating
    unfold i32Max at room
    dsimp only
    omega
  have from_ : ∀ {id held}, (retarget pattern group).members.get? id = some held →
      ∃ member, group.members.get? id = some member ∧
        held = { member with target := share (targets pattern group) id } := by
    intro id held found
    unfold retarget at found
    rw [get?_mapValues] at found
    obtain ⟨member,before,same⟩ := Option.map_eq_some_iff.mp found
    exact ⟨member,before,same.symm⟩
  constructor
  · rfl
  · omega
  · intro id held found
    obtain ⟨member,before,rfl⟩ := from_ found
    have placed := known.placed before
    refine ⟨?_,placed.settled,placed.apart,placed.regex,placed.assignor⟩
    exact placed.reached.imp_right (fun within => ⟨within.1,Int.le_trans within.2 (by omega)⟩)
  · constructor
    · intro left right first second differ isFirst isSecond
      obtain ⟨_,_,rfl⟩ := from_ isFirst
      obtain ⟨_,_,rfl⟩ := from_ isSecond
      rw [disjoint_left]
      intro slot toFirst toSecond
      exact differ (assign_exclusive toFirst toSecond)
    · intro left right first second inst isFirst isSecond ofFirst ofSecond
      obtain ⟨_,oldFirst,rfl⟩ := from_ isFirst
      obtain ⟨_,oldSecond,rfl⟩ := from_ isSecond
      exact known.distinct.instances oldFirst oldSecond ofFirst ofSecond
  · cases found : (retarget pattern group).members.get? "" with
    | none => rfl
    | some held =>
      obtain ⟨_,before,_⟩ := from_ found
      rw [known.nonempty] at before
      cases before
  · intro id held _ _
    omega
  · intro id held _ found _ atEpoch
    obtain ⟨member,before,rfl⟩ := from_ found
    have reached := (known.placed before).reached
    simp only [leavingStaticMemberEpoch] at reached
    dsimp only at atEpoch
    omega

/-! Reconciliation of one member -/

def reconciled (member : ConsumerMember) (epoch : Int) (taken : Partitions)
    (owned : Option Partitions) (nowMs : Int) : ConsumerMember :=
  if moves member epoch owned then nextAssignment member epoch taken owned nowMs else member

lemma reconcile_eq (group : ConsumerGroupDoc) (id : String) (owned : Option Partitions)
    (nowMs : Int) :
    reconcile group id owned nowMs = { group with
        members := group.members.adjust id (fun member =>
          reconciled member group.assignmentEpoch (ownedByOthers group id) owned nowMs) } := rfl

/-- The two ways a member moves: it is told to revoke, or it goes on to the epoch. -/
inductive Next (member : ConsumerMember) (epoch : Int) (taken : Partitions) (owned : Option Partitions)
    (next : ConsumerMember) : Prop
  | revoke (revoking : member.assigned \ member.target ≠ ∅)
      (owns : stillOwns owned (member.assigned \ member.target) = true)
      (memberEpoch : next.memberEpoch = member.memberEpoch)
      (state : next.state = .unrevokedPartitions)
      (assigned : next.assigned = member.assigned ∩ member.target)
      (pending : next.pendingRevocation = member.assigned \ member.target)
  | advance (released : member.assigned \ member.target ≠ ∅ →
        stillOwns owned (member.assigned \ member.target) = false)
      (memberEpoch : next.memberEpoch = epoch)
      (state : next.state =
        if (member.target \ member.assigned) ∩ taken = ∅ then .stable else .unreleasedPartitions)
      (assigned : next.assigned =
        member.assigned ∩ member.target ∪ (member.target \ member.assigned) \ taken)
      (pending : next.pendingRevocation = ∅)

structure SameMember (member next : ConsumerMember) : Prop where
  target : next.target = member.target
  instanceId : next.instanceId = member.instanceId
  names : next.subscribedTopicNames = member.subscribedTopicNames
  regex : next.subscribedTopicRegex = member.subscribedTopicRegex
  assignor : next.serverAssignor = member.serverAssignor

lemma nextAssignment_next (member : ConsumerMember) (epoch : Int) (taken : Partitions)
    (owned : Option Partitions) (nowMs : Int) :
    Next member epoch taken owned (nextAssignment member epoch taken owned nowMs) ∧
      SameMember member (nextAssignment member epoch taken owned nowMs) := by
  unfold nextAssignment
  dsimp only
  split
  · next revokes => exact ⟨.revoke revokes.1 revokes.2 rfl rfl rfl rfl,⟨rfl,rfl,rfl,rfl,rfl⟩⟩
  rename_i advances
  refine ⟨.advance ?_ rfl rfl rfl rfl,⟨rfl,rfl,rfl,rfl,rfl⟩⟩
  intro revoking
  have released : ¬stillOwns owned (member.assigned \ member.target) = true :=
    fun owns => advances ⟨revoking,owns⟩
  simpa using released

section

variable {taken : Partitions} {owned : Option Partitions} {next : ConsumerMember}
  (moves : Next member epoch taken owned next) (same : SameMember member next)

include moves same

lemma Next.placed (nonneg : 0 ≤ epoch) (placed : Placed pattern epoch member) :
    Placed pattern epoch next := by
  have regex : ∀ regex, next.subscribedTopicRegex = some regex → (pattern regex).isSome := by
    rw [same.regex]
    exact placed.regex
  have assignor : ∀ assignor, next.serverAssignor = some assignor → isSupported assignor = true := by
    rw [same.assignor]
    exact placed.assignor
  cases moves with
  | revoke _ _ memberEpoch s assigned pending =>
    refine ⟨?_,?_,?_,regex,assignor⟩
    · rw [memberEpoch]
      exact placed.reached
    · intro notRevoking
      exact absurd s notRevoking
    · rw [assigned,pending]
      exact disjoint_sdiff.mono_left inter_subset_right
  | advance _ memberEpoch _ _ pending =>
    refine ⟨.inr ?_,fun _ => pending,?_,regex,assignor⟩
    · rw [memberEpoch]
      exact ⟨nonneg,Int.le_refl _⟩
    · rw [pending]
      exact disjoint_empty_right _

lemma Next.arrived : Arrived epoch next := by
  intro stable _
  cases moves with
  | revoke _ _ _ s _ _ =>
    rw [s] at stable
    cases stable
  | advance _ _ s assigned _ =>
    have free : (member.target \ member.assigned) ∩ taken = ∅ := by
      by_contra unreleased
      rw [s,if_neg unreleased] at stable
      cases stable
    rw [assigned,same.target,sdiff_eq_self_of_disjoint (disjoint_iff_inter_eq_empty.mpr free)]
    ext slot
    simp only [mem_union,mem_inter,mem_sdiff]
    tauto

end

lemma Reconciling.adjust (known : Reconciling pattern group rebalance) (id : String)
    {change : ConsumerMember → ConsumerMember}
    (changes : ∀ {member}, group.members.get? id = some member →
      Placed pattern group.groupEpoch (change member) ∧
        (change member).target = member.target ∧ (change member).instanceId = member.instanceId ∧
          (rebalance = false → Arrived group.groupEpoch (change member))) :
    Reconciling pattern { group with members := group.members.adjust id change }
      rebalance := by
  unfold OrderedMap.adjust
  cases found : group.members.get? id with
  | none => exact known
  | some member =>
    obtain ⟨placed,target,inst,arrived⟩ := changes found
    exact known.change found placed target inst arrived

lemma reconcile_reconciling (id : String) (owned : Option Partitions) (nowMs : Int)
    (known : Reconciling pattern group false) :
    Reconciling pattern (reconcile group id owned nowMs) false := by
  rw [reconcile_eq]
  apply known.adjust
  intro member found
  unfold reconciled
  rw [known.epochs]
  split
  · obtain ⟨moves,same⟩ := nextAssignment_next member group.groupEpoch
      (ownedByOthers group id) owned nowMs
    exact ⟨moves.placed same known.nonneg (known.placed found),same.target,same.instanceId,
      fun _ => moves.arrived same⟩
  · exact ⟨known.placed found,rfl,rfl,fun still => known.arrived still found⟩

lemma stamped_reconciling (id : String) (nowMs : Int)
    (known : Reconciling pattern group rebalance) :
    Reconciling pattern (stamped group id nowMs) rebalance := by
  apply known.adjust
  intro member found
  have placed := known.placed found
  refine ⟨⟨placed.reached,placed.settled,placed.apart,placed.regex,placed.assignor⟩,rfl,rfl,?_⟩
  intro still
  have arrived := known.arrived still found
  exact arrived

lemma reconciling_stages (pattern : Patterns) :
    Stages pattern (fun _ _ _ => True) (Movable pattern) (Movable pattern)
      (fun group => Reconciling pattern group false) where
  swept liveness nowMs movable := by
    refine ⟨movable.reconciling.sub rfl rfl ?_ (fun _ => rfl),movable.room⟩
    intro id held found
    unfold sweep at found
    rw [get?_filter,Option.filter_eq_some_iff] at found
    exact found.1
  admitted movable := movable
  left movable leaves := by
    refine ⟨leave_reconciling movable.reconciling leaves,?_⟩
    have room := movable.room
    unfold leave at leaves
    split at leaves
    · cases leaves
    · split at leaves <;> cases leaves <;> exact room
  joined movable nonempty _ enters := by
    refine ⟨joinAs_reconciling movable.reconciling nonempty enters,?_⟩
    have room := movable.room
    unfold joinAs at enters
    split at enters
    · split at enters
      · cases enters
        exact room
      · cases enters
    · split at enters
      · cases enters
        exact room
      · split at enters
        · cases enters
        · split at enters
          · cases enters
          · cases enters
            exact room
  enrolled movable nonempty enters := by
    refine ⟨enrol_reconciling movable.reconciling nonempty enters,?_⟩
    have room := movable.room
    unfold enrol at enters
    split at enters
    · cases enters
      exact room
    · split at enters
      · cases enters
      · cases enters
        exact room
  removed mid movable :=
    ⟨movable.reconciling.remove mid nofun,movable.room⟩
  updated movable found changes := by
    obtain ⟨touched,inst,_⟩ := updateMember_spec changes
    have placed := updateMember_placed changes (movable.reconciling.placed found)
    have changed := movable.reconciling.change found placed touched.target inst
      (fun still => touched.arrived (movable.reconciling.arrived still found))
    exact ⟨changed.or _,movable.room⟩
  spoken client protocol subscription movable found claims :=
    ⟨(speak_reconciling client protocol subscription movable.reconciling found claims).or _,
      movable.room⟩
  refreshed resolved movable :=
    ⟨movable.reconciling.sub rfl rfl id nofun,movable.room⟩
  assigned movable := by
    unfold rebalanced
    split
    · exact retarget_reconciling movable.reconciling movable.room
    · next still => exact movable.reconciling.flag (fun _ => by simpa using still)
  reconciled mid owned nowMs known := reconcile_reconciling mid owned nowMs known
  stamped mid nowMs known := stamped_reconciling mid nowMs known

end Stages

/-! ### Every document -/

/-- A classic generation that converts well: its assignment gives each partition once, its members
have ids and instance ids of their own, and the epoch it leads to is not the one of a join. -/
structure Convertible (held : Option ConsumerGroupDoc) (generation : GenerationDoc)
    (assignment : Option AssignmentDoc) : Prop where
  once : ∀ document, assignment = some document → AssignsOnce document
  instances {left right : String} {first second : MemberRef} {instanceId : String}
    (isFirst : generation.members.get? left = some first)
    (isSecond : generation.members.get? right = some second)
    (ofFirst : first.groupInstanceId = some instanceId)
    (ofSecond : second.groupInstanceId = some instanceId) : left = right
  nonempty : generation.members.get? "" = none
  nonneg : 0 ≤ generation.generationId
  started : 0 < max generation.generationId (held.elim 0 ConsumerGroupDoc.groupEpoch)

/-- The epoch of the group can still move, and a conversion starts from a generation that
converts well. -/
def convergent (held : Option ConsumerGroupDoc) (request : Request) : Prop :=
  (∀ group, held = some group → group.groupEpoch < i32Max) ∧
    match request with
    | .convert generation _ assignment _ _ => Convertible held generation assignment
    | _ => True

variable {held state : Option ConsumerGroupDoc} {gen : GenerationDoc}
  {assignment : Option AssignmentDoc} {members : OrderedMap String MemberDoc} {resolved : Resolved}
  {nowMs : Int} {group : ConsumerGroupDoc}

lemma fromClassic_reconciling (pattern : Patterns)
    (convertible : Convertible held gen assignment)
    (converts : fromClassic gen members assignment resolved held nowMs = .ok group) :
    Reconciling pattern group false := by
  have exclusive := fromClassic_exclusive converts convertible.once
  have origin : ∀ {id member}, group.members.get? id = some member →
      ConvertedFrom gen
        (assignment.filter (fun assignment => assignment.generationId = gen.generationId))
        (namesOf group) id member := fun found => fromClassic_member converts found
  have epochs : group.groupEpoch =
        max gen.generationId (held.elim 0 ConsumerGroupDoc.groupEpoch) ∧
      group.assignmentEpoch = group.groupEpoch := by
    obtain ⟨converted,_,same⟩ := bind_ok converts
    cases same
    exact ⟨rfl,rfl⟩
  have started : 0 < group.groupEpoch := by
    rw [epochs.1]
    exact convertible.started
  constructor
  · exact epochs.2
  · exact Int.le_of_lt started
  · intro id member found
    obtain ⟨_,_,_,_,_,_,rfl⟩ := origin found
    refine ⟨.inr ⟨convertible.nonneg,?_⟩,fun _ => rfl,disjoint_empty_right _,nofun,nofun⟩
    rw [epochs.1]
    exact Int.le_max_left _ _
  · constructor
    · intro left right first second differ isFirst isSecond
      have apart := exclusive left right differ
      rw [heldBy_of_get? isFirst,heldBy_of_get? isSecond] at apart
      obtain ⟨_,_,_,_,_,_,rfl⟩ := origin isFirst
      obtain ⟨_,_,_,_,_,_,rfl⟩ := origin isSecond
      exact apart.mono subset_union_left subset_union_left
    · intro left right first second inst isFirst isSecond ofFirst ofSecond
      obtain ⟨_,_,_,_,isLeft,_,rfl⟩ := origin isFirst
      obtain ⟨_,_,_,_,isRight,_,rfl⟩ := origin isSecond
      exact convertible.instances isLeft isRight ofFirst ofSecond
  · cases found : group.members.get? "" with
    | none => rfl
    | some member =>
      obtain ⟨_,_,_,_,isMember,_⟩ := origin found
      have absent := convertible.nonempty
      rw [isMember] at absent
      cases absent
  · intro id member _ _
    exact started
  · intro id member _ found _ _
    obtain ⟨_,_,_,_,_,_,rfl⟩ := origin found
    rfl

lemma empty_reconciling (pattern : Patterns) (nowMs : Int) :
    Reconciling pattern { createdMs := nowMs } false where
  epochs := rfl
  nonneg := Int.le_refl _
  placed found := by cases found
  distinct :=
    { targets := fun _ isFirst => by cases isFirst
      instances := fun isFirst => by cases isFirst }
  nonempty := rfl
  started _ found := by cases found
  arrived _ found := by cases found

lemma i32Max_positive : 0 < i32Max := by decide

lemma reachable_reconciling (pattern : Patterns)
    (reached : System.Reachable (documents pattern) convergent state) :
    Documented (fun group => Reconciling pattern group false) state := by
  refine (reconciling_stages pattern).reachable ?_ ?_ ?_ ?_ reached
  · intro group known
    exact known.sub rfl rfl id id
  · intro held req documented met nowMs
    cases held with
    | none => exact ⟨empty_reconciling pattern nowMs,i32Max_positive⟩
    | some group => exact ⟨documented group rfl,met.1 group rfl⟩
  · intro held req _
    cases req <;> simp [Request.Joins]
  · intro held generation members assignment resolved nowMs group _ met converts
    exact fromClassic_reconciling pattern met.2 converts

end Kodansu.Group

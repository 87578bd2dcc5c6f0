/-
The targets cover the subscriptions.

The assignment is computed again only when a stage says that the composition moved, so each
stage either says so or leaves every target and every subscription where it was.  The one that
does neither is the replacement of a static member by a member that is already in the group:
it drops that member's target.
-/

import Kodansu.Group.Ownership

namespace Kodansu.Group

open Lib OrderedMap List

def Subscribes (topicPattern : Patterns) (member : ConsumerMember) (name : String) : Prop :=
  name ∈ member.subscribedTopicNames ∨
    (member.subscribedTopicRegex.bind topicPattern).any (fun pattern => pattern name) = true

def Named (group : ConsumerGroupDoc) : Prop :=
  ∀ leftId rightId left right, group.topics.get? leftId = some left →
    group.topics.get? rightId = some right → left.name = right.name → leftId = rightId

def Recorded (group : ConsumerGroupDoc) (slot : Slot) (name : String) : Prop :=
  ∃ topic, group.topics.get? slot.topic = some topic ∧ topic.name = name ∧ 0 ≤ slot.partition ∧
    slot.partition < topic.partitions

structure Covered (topicPattern : Patterns) (group : ConsumerGroupDoc) : Prop where
  sound {memberId : String} {member : ConsumerMember} {slot : Slot}
    (found : group.members.get? memberId = some member) (targeted : slot ∈ member.target) :
    ∃ name, Recorded group slot name ∧ Subscribes topicPattern member name
  single {left right : String} {first second : ConsumerMember} {slot : Slot}
    (isFirst : group.members.get? left = some first) (toFirst : slot ∈ first.target)
    (isSecond : group.members.get? right = some second) (toSecond : slot ∈ second.target) :
    left = right
  full {memberId : String} {member : ConsumerMember} {slot : Slot} {name : String}
    (recorded : Recorded group slot name) (found : group.members.get? memberId = some member)
    (subscribes : Subscribes topicPattern member name) :
    ∃ ownerId owner, group.members.get? ownerId = some owner ∧ slot ∈ owner.target

/-! ### What the assignment establishes -/

section Assign

variable {group : ConsumerGroupDoc} {topicId : Nat} {topic : SubscribedTopic}
  {pattern topicPattern : Patterns} {member : ConsumerMember} {mid : String}

lemma namesOf_get? (named : Named group) (found : group.topics.get? topicId = some topic) :
    (namesOf group).get? topic.name = some topicId := by
  -- The loop has seen the topic, or has yet to; no other topic takes its name.
  have every : ∀ (entries : List (Nat × SubscribedTopic)) (names : OrderedMap String Nat),
      (∀ entry ∈ entries, group.topics.get? entry.1 = some entry.2) →
        (names.get? topic.name = some topicId ∨ (topicId, topic) ∈ entries) →
          (entries.foldl (fun names topic => names.insert topic.2.name topic.1) names).get?
            topic.name = some topicId := by
    intro entries
    induction entries with
    | nil =>
      intro names _ seen
      exact seen.resolve_right (by simp)
    | cons first rest ih =>
      intro names known seen
      apply ih _ (fun entry listed => known entry (.tail _ listed))
      rw [get?_insert]
      by_cases same : topic.name = first.2.name
      · left
        rw [if_pos same,named topicId first.1 topic first.2 found (known first mem_cons_self) same]
      · rw [if_neg same]
        rcases seen with before | listed
        · exact .inl before
        · rcases mem_cons.mp listed with isFirst | inRest
          · exact absurd (congrArg (fun entry => entry.2.name) isFirst) same
          · exact .inr inRest
  apply every group.topics.entries .empty
  · intro entry listed
    exact mem_entries.mp listed
  · exact .inr (mem_entries.mpr found)

lemma mem_memberSpec (named : Named group) :
    topicId ∈ (memberSpec pattern (namesOf group) member).subscribed ↔
      ∃ topic, group.topics.get? topicId = some topic ∧ Subscribes pattern member topic.name := by
  unfold memberSpec
  simp only [mem_toFinset,mem_append,mem_filterMap,mem_map,mem_filter,
    Prod.exists,exists_eq_right,mem_entries]
  constructor
  · rintro (⟨name,listed,found⟩ | ⟨name,found,passes⟩)
    · obtain ⟨topic,known,isName⟩ := namesOf_spec found
      exact ⟨topic,known,.inl (isName ▸ listed)⟩
    · obtain ⟨topic,known,isName⟩ := namesOf_spec found
      exact ⟨topic,known,.inr (isName ▸ passes)⟩
  · rintro ⟨topic,known,byName | byPattern⟩
    · exact .inl ⟨topic.name,byName,namesOf_get? named known⟩
    · exact .inr ⟨topic.name,namesOf_get? named known,byPattern⟩

lemma get?_retarget (pattern : Patterns) (group : ConsumerGroupDoc) (id : String) :
    (retarget pattern group).members.get? id =
      (group.members.get? id).map (fun member =>
        { member with target := share (targets pattern group) id }) := by
  exact get?_mapValues _ _ _

lemma retarget_member {next : ConsumerMember} (found : (retarget topicPattern group).members.get? mid = some next) :
    ∃ member, group.members.get? mid = some member ∧
      next = { member with target := share (targets topicPattern group) mid } := by
  rw [get?_retarget] at found
  obtain ⟨member,known,same⟩ := Option.map_eq_some_iff.mp found
  exact ⟨member,known,same.symm⟩

lemma get?_specs : (group.members.mapValues (fun _ member =>
      memberSpec topicPattern (namesOf group) member)).get? mid =
        (group.members.get? mid).map (memberSpec topicPattern (namesOf group)) :=
  get?_mapValues _ _ _

def Nonneg (group : ConsumerGroupDoc) : Prop :=
  ∀ memberId member, group.members.get? memberId = some member → ∀ slot ∈ member.target,
    0 ≤ slot.partition

lemma retarget_covered (named : Named group) (nonneg : Nonneg group)
    (few : (group.members.entries.length : Int) ≤ i32Max) :
    Covered pattern (retarget pattern group) := by
  constructor
  · intro id next slot found targeted
    obtain ⟨member,known,rfl⟩ := retarget_member found
    have entitled := assign_entitled targeted
    have above : 0 ≤ slot.partition := by
      apply assign_nonneg targeted
      intro otherId spec isSpec previous held
      rw [get?_specs] at isSpec
      obtain ⟨other,isOther,rfl⟩ := Option.map_eq_some_iff.mp isSpec
      exact nonneg otherId other isOther previous held
    obtain ⟨spec,isSpec,subscribed⟩ := mem_subscribers.mp entitled.subscribes
    rw [get?_specs,known] at isSpec
    cases isSpec
    obtain ⟨topic,isTopic,subscribes⟩ := (mem_memberSpec named).mp subscribed
    obtain ⟨count,isCount,below⟩ := entitled.exists_
    rw [get?_mapValues,isTopic] at isCount
    cases isCount
    exact ⟨topic.name,⟨topic,isTopic,rfl,above,below⟩,subscribes⟩
  · intro left right first second slot isFirst toFirst isSecond toSecond
    obtain ⟨_,_,rfl⟩ := retarget_member isFirst
    obtain ⟨_,_,rfl⟩ := retarget_member isSecond
    exact assign_exclusive toFirst toSecond
  · intro id next slot name recorded found subscribes
    obtain ⟨topic,isTopic,rfl,above,below⟩ := recorded
    obtain ⟨member,known,rfl⟩ := retarget_member found
    have listed : slot ∈ slots (group.topics.mapValues (fun _ topic => topic.partitions)) := by
      apply mem_slots.mpr
      refine ⟨above,topic.partitions,?_,below⟩
      rw [get?_mapValues]
      exact congrArg (Option.map SubscribedTopic.partitions) isTopic
    have subscriber : id ∈ subscribers (group.members.mapValues (fun _ member =>
        memberSpec pattern (namesOf group) member)) slot.topic := by
      apply mem_subscribers.mpr
      refine ⟨memberSpec pattern (namesOf group) member,?_,?_⟩
      · rw [get?_specs,known]
        rfl
      · exact (mem_memberSpec named).mpr ⟨topic,isTopic,subscribes⟩
    have fewSpecs : ((group.members.mapValues (fun _ member =>
        memberSpec pattern (namesOf group) member)).entries.length : Int) ≤ i32Max := by
      simpa [OrderedMap.mapValues] using few
    obtain ⟨ownerId,owns⟩ := assign_covers listed subscriber fewSpecs
    obtain ⟨spec,isSpec,_⟩ := mem_subscribers.mp (assign_entitled owns).subscribes
    rw [get?_specs] at isSpec
    obtain ⟨owner,isOwner,_⟩ := Option.map_eq_some_iff.mp isSpec
    refine ⟨ownerId,{ owner with target := share (targets pattern group) ownerId },?_,owns⟩
    rw [get?_retarget,isOwner]
    rfl

end Assign

/-! ### What leaves the targets alone -/

def profile (member : ConsumerMember) : Partitions × List String × Option String :=
  (member.target, member.subscribedTopicNames, member.subscribedTopicRegex)

variable {member : ConsumerMember} {pattern : Patterns} {name : String}

lemma Subscribes.of_profile {next : ConsumerMember}
    (same : profile next = profile member) (subscribes : Subscribes pattern member name) :
    Subscribes pattern next name := by
  unfold profile at same
  simp only [Prod.mk.injEq] at same
  unfold Subscribes
  rw [same.2.1,same.2.2]
  exact subscribes

section Profiles

variable {group next : ConsumerGroupDoc}

/-- The members are those of before, perhaps under other ids. -/
structure Renamed (rename : String → String) (group next : ConsumerGroupDoc) : Prop where
  topics : next.topics = group.topics
  source {memberId : String} {member : ConsumerMember}
    (found : next.members.get? memberId = some member) :
    ∃ before, group.members.get? (rename memberId) = some before ∧ profile member = profile before
  kept {memberId : String} {member : ConsumerMember}
    (found : group.members.get? memberId = some member) :
    ∃ nextId after, rename nextId = memberId ∧ next.members.get? nextId = some after ∧
      profile after = profile member
  injective {left right : String} {first second : ConsumerMember}
    (isFirst : next.members.get? left = some first) (isSecond : next.members.get? right = some second)
    (same : rename left = rename right) : left = right

variable {rename : String → String}

lemma Renamed.covered (renamed : Renamed rename group next) (covered : Covered pattern group) :
    Covered pattern next := by
  have targetOf : ∀ {first second : ConsumerMember}, profile first = profile second →
      first.target = second.target := fun same => congrArg Prod.fst same
  have recordedOf : ∀ slot name, Recorded next slot name ↔ Recorded group slot name := by
    intro slot name
    unfold Recorded
    rw [renamed.topics]
  constructor
  · intro id member slot found targeted
    obtain ⟨before,known,same⟩ := renamed.source found
    rw [targetOf same] at targeted
    obtain ⟨name,recorded,subscribes⟩ := covered.sound known targeted
    exact ⟨name,(recordedOf slot name).mpr recorded,subscribes.of_profile same⟩
  · intro left right first second slot isFirst toFirst isSecond toSecond
    obtain ⟨_,knownFirst,sameFirst⟩ := renamed.source isFirst
    obtain ⟨_,knownSecond,sameSecond⟩ := renamed.source isSecond
    rw [targetOf sameFirst] at toFirst
    rw [targetOf sameSecond] at toSecond
    exact renamed.injective isFirst isSecond
      (covered.single knownFirst toFirst knownSecond toSecond)
  · intro id member slot name recorded found subscribes
    obtain ⟨before,known,same⟩ := renamed.source found
    obtain ⟨ownerId,owner,isOwner,owns⟩ :=
      covered.full ((recordedOf slot name).mp recorded) known (subscribes.of_profile same.symm)
    obtain ⟨nextId,after,_,isAfter,sameOwner⟩ := renamed.kept isOwner
    exact ⟨nextId,after,isAfter,targetOf sameOwner ▸ owns⟩

lemma Renamed.refl_of (topics : next.topics = group.topics)
    (same : ∀ mid, (next.members.get? mid).map profile =
      (group.members.get? mid).map profile) : Renamed id group next where
  topics := topics
  source found := by
    rename_i mid member
    have both := same mid
    rw [found] at both
    obtain ⟨before,known,sameProfile⟩ := Option.map_eq_some_iff.mp both.symm
    exact ⟨before,known,sameProfile.symm⟩
  kept found := by
    rename_i mid member
    have both := same mid
    rw [found] at both
    obtain ⟨after,known,sameProfile⟩ := Option.map_eq_some_iff.mp both
    exact ⟨mid,after,rfl,known,sameProfile⟩
  injective _ _ same := same

end Profiles

/-! ### The stages -/

/-- What is known on the way to the assignment: coverage itself only while nothing has moved. -/
structure Tracked (topicPattern : Patterns) (bound : Int) (group : ConsumerGroupDoc)
    (rebalance : Bool) : Prop where
  named : Named group
  nonneg : Nonneg group
  few : (group.members.entries.length : Int) ≤ bound
  covered : rebalance = false → Covered topicPattern group

/-- A static member is replaced only by a member that is new to the group. -/
def ReplacesAsNew (group : ConsumerGroupDoc) (memberId : String) (request : HeartbeatRequest) : Prop :=
  ∀ holder, instanceHolder group memberId request.instanceId = some holder →
    holder.2.isLeavingStatic = true → group.members.get? memberId = none

section Stages

variable {group next : ConsumerGroupDoc} {bound limit : Int} {rebalance : Bool} {mid : String}
  {changed : ConsumerMember}

lemma Renamed.tracked {rename : String → String} (renamed : Renamed rename group next)
    (tracked : Tracked pattern bound group rebalance)
    (few : (next.members.entries.length : Int) ≤ limit) :
    Tracked pattern limit next rebalance where
  named := by
    unfold Named
    rw [renamed.topics]
    exact tracked.named
  nonneg := by
    intro nextId after found slot targeted
    obtain ⟨before,known,same⟩ := renamed.source found
    have sameTarget : after.target = before.target := congrArg Prod.fst same
    rw [sameTarget] at targeted
    exact tracked.nonneg _ before known slot targeted
  few := few
  covered still := renamed.covered (tracked.covered still)

lemma Renamed.insert (found : group.members.get? mid = some member)
    (same : profile changed = profile member) :
    Renamed id group { group with members := group.members.insert mid changed } := by
  refine Renamed.refl_of rfl ?_
  intro other
  rw [get?_insert]
  split
  · rename_i isMember
    subst isMember
    rw [found]
    exact congrArg some same
  · rfl

section

variable {topicPattern : Patterns} (tracked : Tracked topicPattern bound group rebalance)

include tracked

lemma Tracked.keep (found : group.members.get? mid = some member)
    (same : profile changed = profile member) :
    Tracked topicPattern bound { group with members := group.members.insert mid changed }
      rebalance := by
  apply (Renamed.insert found same).tracked tracked
  rw [length_insert_of_isSome _ (by rw [found]; rfl)]
  exact tracked.few

lemma Tracked.owed (topics : next.topics = group.topics)
    (few : (next.members.entries.length : Int) ≤ limit)
    (targets : ∀ id member, next.members.get? id = some member →
      member.target = ∅ ∨ ∃ otherId other, group.members.get? otherId = some other ∧
        member.target = other.target) : Tracked pattern limit next true where
  named := by
    unfold Named
    rw [topics]
    exact tracked.named
  nonneg := by
    intro id member found slot targeted
    rcases targets id member found with nothing | ⟨otherId,other,known,same⟩
    · rw [nothing] at targeted
      cases targeted
    · rw [same] at targeted
      exact tracked.nonneg otherId other known slot targeted
  few := few
  covered := nofun

lemma Tracked.weaken (wider : bound ≤ limit) : Tracked topicPattern limit group rebalance :=
  ⟨tracked.named,tracked.nonneg,Int.le_trans tracked.few wider,tracked.covered⟩

end

variable {req : HeartbeatRequest} {nowMs : Int} {gone : Bool} {previousId memberId : String}
  {previous : ConsumerMember}

lemma sweep_tracked (liveness : Liveness) (nowMs : Int)
    (tracked : Tracked pattern bound group false) :
    Tracked pattern bound (sweep group liveness nowMs).1 (sweep group liveness nowMs).2 := by
  unfold sweep
  dsimp only
  by_cases whole : (group.members.filter (fun id member =>
      !lapsed liveness nowMs id member)).entries.length = group.members.entries.length
  · rw [filter_eq_self whole]
    simpa using tracked
  · rw [decide_eq_true (by exact whole)]
    refine tracked.owed rfl ?_ ?_
    · have fewer := length_filter_le (fun (entry : String × ConsumerMember) =>
        !lapsed liveness nowMs entry.1 entry.2) group.members.entries
      have few := tracked.few
      unfold OrderedMap.filter
      dsimp only
      omega
    · intro id member found
      rw [get?_filter,Option.filter_eq_some_iff] at found
      exact .inr ⟨id,member,found.1,rfl⟩

lemma remove_tracked (id : String) (tracked : Tracked pattern bound group rebalance) :
    Tracked pattern bound { group with members := group.members.remove id } true := by
  refine tracked.owed rfl ?_ ?_
  · have fewer := length_filter_le (fun (entry : String × ConsumerMember) =>
      decide (entry.1 ≠ id)) group.members.entries
    have few := tracked.few
    unfold OrderedMap.remove OrderedMap.retain
    dsimp only
    omega
  · intro otherId other found
    rw [get?_remove] at found
    split at found
    · cases found
    · exact .inr ⟨otherId,other,found,rfl⟩

lemma leave_tracked (tracked : Tracked pattern bound group rebalance)
    (leaves : leave group req nowMs = .ok (next, gone)) :
    Tracked pattern bound next (rebalance || gone) := by
  unfold leave at leaves
  split at leaves
  · cases leaves
  rename_i member found
  split at leaves
  · cases leaves
    rw [Bool.or_false]
    exact tracked.keep found rfl
  · cases leaves
    rw [Bool.or_true]
    exact remove_tracked _ tracked

lemma insert_tracked (tracked : Tracked pattern bound group rebalance) (id : String)
    (nothing : member.target = ∅) :
    Tracked pattern (bound + 1) { group with members := group.members.insert id member }
      true := by
  refine tracked.owed rfl ?_ ?_
  · have more := length_insert_le group.members id member
    have few := tracked.few
    dsimp only
    omega
  · intro otherId other found
    rw [get?_insert] at found
    split at found
    · cases found
      exact .inl nothing
    · exact .inr ⟨otherId,other,found,rfl⟩

lemma Renamed.replace (found : group.members.get? previousId = some previous)
    (new : group.members.get? memberId = none) (same : profile changed = profile previous) :
    Renamed (fun id => if id = memberId then previousId else id) group
      { group with members := (group.members.remove previousId).insert memberId changed } where
  topics := rfl
  source isMember := by
    rw [get?_insert,get?_remove] at isMember
    split at isMember
    · rename_i isNew
      cases isMember
      rw [if_pos isNew]
      exact ⟨previous,found,same⟩
    · rename_i isOld
      split at isMember
      · cases isMember
      · rw [if_neg isOld]
        exact ⟨_,isMember,rfl⟩
  kept isMember := by
    rename_i otherId other
    by_cases isPrevious : otherId = previousId
    · subst isPrevious
      rw [found] at isMember
      cases isMember
      refine ⟨memberId,changed,?_,?_,same⟩
      · rw [if_pos rfl]
      · dsimp only
        rw [get?_insert_self]
    · have isOld : otherId ≠ memberId := by
        intro isNew
        rw [isNew,new] at isMember
        cases isMember
      refine ⟨otherId,other,?_,?_,rfl⟩
      · rw [if_neg isOld]
      · rw [get?_insert_ne _ _ isOld,get?_remove,if_neg isPrevious]
        exact isMember
  injective isFirst isSecond sameSource := by
    rename_i left right first second
    -- The replaced member is gone, so that nobody else comes from it.
    have gone : ∀ {id held}, ({ group with members :=
        (group.members.remove previousId).insert memberId changed } : ConsumerGroupDoc).members.get? id =
          some held → id ≠ memberId → id ≠ previousId := by
      intro id held known isOld isPrevious
      rw [get?_insert_ne _ _ isOld,get?_remove,if_pos isPrevious] at known
      cases known
    by_cases isLeft : left = memberId
    · by_cases isRight : right = memberId
      · exact isLeft.trans isRight.symm
      · rw [if_pos isLeft,if_neg isRight] at sameSource
        exact absurd sameSource.symm (gone isSecond isRight)
    · by_cases isRight : right = memberId
      · rw [if_neg isLeft,if_pos isRight] at sameSource
        exact absurd sameSource (gone isFirst isLeft)
      · rw [if_neg isLeft,if_neg isRight] at sameSource
        exact sameSource

section

variable {topicPattern : Patterns} (tracked : Tracked topicPattern bound group rebalance)

include tracked

variable {request : HeartbeatRequest} {client : Client} {config : ConsumerGroupConfig}
  {new moved : Bool}

lemma joinAs_tracked (asNew : ReplacesAsNew group mid request)
    (enters : joinAs group mid request client config = .ok (next, new)) :
    Tracked topicPattern (bound + 1) next (rebalance || new) := by
  unfold joinAs at enters
  split at enters
  · rename_i previousId previous isHolder
    split at enters
    · rename_i left
      cases enters
      rw [Bool.or_false]
      have renamed : Renamed _ group { group with members :=
          (group.members.remove previousId).insert mid (replacing previous client) } :=
        Renamed.replace (instanceHolder_spec isHolder).1 (asNew _ isHolder left) rfl
      apply renamed.tracked tracked
      have more := length_insert_le (group.members.remove previousId) mid
        (replacing previous client)
      have fewer := length_filter_le (fun (entry : String × ConsumerMember) =>
        decide (entry.1 ≠ previousId)) group.members.entries
      have few := tracked.few
      unfold OrderedMap.remove OrderedMap.retain at more ⊢
      dsimp only at more ⊢
      omega
    · cases enters
  · split at enters
    · rename_i member found
      cases enters
      rw [Bool.or_false]
      have kept : Tracked topicPattern bound
          { group with members := group.members.insert mid (rejoining member) } rebalance :=
        tracked.keep found rfl
      exact kept.weaken (by omega)
    · split at enters
      · cases enters
      · split at enters
        · cases enters
        · cases enters
          rw [Bool.or_true]
          exact insert_tracked tracked _ rfl

lemma enrol_tracked (enters : enrol group mid config = .ok (next, new)) :
    Tracked topicPattern (bound + 1) next (rebalance || new) := by
  unfold enrol at enters
  split at enters
  · cases enters
    rw [Bool.or_false]
    exact tracked.weaken (by omega)
  · split at enters
    · cases enters
    · cases enters
      rw [Bool.or_true]
      exact insert_tracked tracked _ rfl

lemma Tracked.update (found : group.members.get? mid = some member)
    (touched : Touched member changed) (subscribed : moved = false → Subscribed member changed) :
    Tracked topicPattern bound { group with members := group.members.insert mid changed }
      (rebalance || moved) := by
  cases moved with
  | false =>
    rw [Bool.or_false]
    have same := subscribed rfl
    apply tracked.keep found
    unfold profile
    rw [touched.target,same.names,same.regex]
  | true =>
    rw [Bool.or_true]
    refine tracked.owed rfl ?_ ?_
    · rw [length_insert_of_isSome _ (by rw [found]; rfl)]
      exact tracked.few
    · intro otherId other isOther
      rw [get?_insert] at isOther
      split at isOther
      · cases isOther
        exact .inr ⟨mid,member,found,touched.target⟩
      · exact .inr ⟨otherId,other,isOther,rfl⟩

end

lemma topicsOf_named (resolved : Resolved) : Named { group with topics := topicsOf resolved } := by
  have listed : ∀ topicId topic, (topicsOf resolved).get? topicId = some topic →
      resolved.get? topic.name = some (topicId, topic.partitions) := by
    refine List.foldlRecOn
      (motive := fun (topics : OrderedMap Nat SubscribedTopic) => ∀ topicId topic,
        topics.get? topicId = some topic →
          resolved.get? topic.name = some (topicId, topic.partitions))
      resolved.entries _ (fun _ _ found => absurd found (by simp)) ?_
    intro topics known entry member topicId topic found
    rw [get?_insert] at found
    split at found
    · rename_i same
      cases found
      subst same
      exact mem_entries.mp member
    · exact known topicId topic found
  intro leftId rightId left right isLeft isRight sameName
  have leftListed := listed leftId left isLeft
  have rightListed := listed rightId right isRight
  rw [sameName,rightListed] at leftListed
  exact (congrArg Prod.fst (Option.some.inj leftListed)).symm

variable {change : ConsumerMember → ConsumerMember} {rename : String → String}

lemma rebalanced_covered (tracked : Tracked pattern i32Max group rebalance) :
    Named (rebalanced pattern rebalance group) ∧
      Covered pattern (rebalanced pattern rebalance group) := by
  cases rebalance with
  | false => exact ⟨tracked.named,tracked.covered rfl⟩
  | true => exact ⟨tracked.named,retarget_covered tracked.named tracked.nonneg tracked.few⟩

lemma nextAssignment_profile (member : ConsumerMember) (targetEpoch : Int) (taken : Partitions)
    (owned : Option Partitions) (nowMs : Int) :
    profile (nextAssignment member targetEpoch taken owned nowMs) = profile member := by
  unfold nextAssignment
  dsimp only
  split <;> rfl

lemma Renamed.adjust (same : ∀ member, profile (change member) = profile member) :
    Renamed id group { group with members := group.members.adjust mid change } := by
  refine Renamed.refl_of rfl ?_
  intro other
  rw [get?_adjust]
  split
  · rename_i isMember
    subst isMember
    cases group.members.get? other with
    | none => rfl
    | some member => exact congrArg some (same member)
  · rfl

lemma Renamed.named (renamed : Renamed rename group next) (named : Named group) : Named next := by
  unfold Named
  rw [renamed.topics]
  exact named

lemma reconcile_renamed (group : ConsumerGroupDoc) (mid : String) (owned : Option Partitions)
    (nowMs : Int) : Renamed id group (reconcile group mid owned nowMs) := by
  apply Renamed.adjust
  intro member
  split
  · exact nextAssignment_profile _ _ _ _ _
  · rfl

lemma stamped_renamed (group : ConsumerGroupDoc) (mid : String) (nowMs : Int) :
    Renamed id group (stamped group mid nowMs) :=
  Renamed.adjust (fun _ => rfl)

lemma covered_stages (pattern : Patterns) :
    Stages pattern ReplacesAsNew (Tracked pattern (i32Max - 1))
      (Tracked pattern i32Max)
      (fun group => Named group ∧ Covered pattern group) where
  swept liveness nowMs tracked := sweep_tracked liveness nowMs tracked
  admitted tracked := tracked.weaken (by omega)
  left tracked leaves := (leave_tracked tracked leaves).weaken (by omega)
  joined tracked _ asNew enters := (joinAs_tracked tracked asNew enters).weaken (by omega)
  enrolled tracked _ enters := (enrol_tracked tracked enters).weaken (by omega)
  removed id tracked := remove_tracked id tracked
  updated tracked found changes :=
    tracked.update found (updateMember_spec changes).1 (updateMember_spec changes).2.2
  spoken client protocol subscription tracked found _ := by
    refine tracked.update found (speakClassic_touched _ _ client protocol subscription) ?_
    intro still
    rw [Bool.or_eq_false_iff,decide_eq_false_iff_not,not_not] at still
    exact ⟨still.1.symm,rfl⟩
  refreshed resolved tracked :=
    ⟨topicsOf_named resolved,tracked.nonneg,tracked.few,nofun⟩
  assigned tracked := rebalanced_covered tracked
  reconciled id owned nowMs covered :=
    ⟨(reconcile_renamed _ id owned nowMs).named covered.1,
      (reconcile_renamed _ id owned nowMs).covered covered.2⟩
  stamped id nowMs covered :=
    ⟨(stamped_renamed _ id nowMs).named covered.1,
      (stamped_renamed _ id nowMs).covered covered.2⟩

end Stages

/-! ### Every document -/

/-- The request converts no classic group, replaces a static member only by a member that is new
to the group, and comes to a group with fewer members than an `i32` counts. -/
def replacesAsNew (held : Option ConsumerGroupDoc) (request : Request) : Prop :=
  request.converts = false ∧ request.Joins ReplacesAsNew held ∧
    ∀ group, held = some group → (group.members.entries.length : Int) < i32Max

lemma empty_tracked (pattern : Patterns) (nowMs : Int) :
    Tracked pattern (i32Max - 1) { createdMs := nowMs } false where
  named _ _ _ _ isLeft := by cases isLeft
  nonneg _ _ found := by cases found
  few := by
    change ((0 : Nat) : Int) ≤ i32Max - 1
    decide
  covered _ := by
    constructor
    · intro id member slot found
      cases found
    · intro left right first second slot isFirst
      cases isFirst
    · intro id member slot name _ found
      cases found

/-- In every document that is reached by such requests, every partition of a recorded topic that
somebody subscribes to is in the target of one member, which subscribes to it, and of no other;
and targets hold nothing else. -/
theorem targets_cover (topicPattern : Patterns) {state : Option ConsumerGroupDoc}
    (reached : System.Reachable (documents topicPattern) replacesAsNew state)
    {group : ConsumerGroupDoc} (current : state = some group) :
    (∀ slot name, Recorded group slot name →
      (∃ memberId member, group.members.get? memberId = some member ∧
        Subscribes topicPattern member name) →
      ∃ ownerId owner, group.members.get? ownerId = some owner ∧ slot ∈ owner.target ∧
        Subscribes topicPattern owner name ∧
        ∀ otherId other, group.members.get? otherId = some other → slot ∈ other.target →
          otherId = ownerId) ∧
    ∀ memberId member slot, group.members.get? memberId = some member → slot ∈ member.target →
      ∃ name, Recorded group slot name ∧ Subscribes topicPattern member name := by
  have covered : Documented (fun group => Named group ∧ Covered topicPattern group) state := by
    refine (covered_stages topicPattern).reachable ?_ ?_ ?_ ?_ reached
    · intro group covered
      exact ⟨covered.1,covered.2.sound,covered.2.single,covered.2.full⟩
    · intro held request documented met nowMs
      cases held with
      | none => exact empty_tracked topicPattern nowMs
      | some group =>
        obtain ⟨named,covered⟩ := documented group rfl
        refine ⟨named,?_,?_,fun _ => covered⟩
        · intro memberId member found slot targeted
          obtain ⟨_,⟨_,_,_,above,_⟩,_⟩ := covered.sound found targeted
          exact above
        · have few := met.2.2 group rfl
          dsimp only [opened,Option.getD_some]
          omega
    · intro held request met
      exact met.2.1
    · intro held generation members assignment resolved nowMs group _ met
      cases met.1
  obtain ⟨_,covered⟩ := covered group current
  constructor
  · intro slot name recorded subscribed
    obtain ⟨memberId,member,found,subscribes⟩ := subscribed
    obtain ⟨ownerId,owner,isOwner,owns⟩ := covered.full recorded found subscribes
    obtain ⟨ownName,⟨ownTopic,isOwn,isName,_⟩,ownerSubscribes⟩ := covered.sound isOwner owns
    obtain ⟨topic,isTopic,sameName,_⟩ := recorded
    rw [isTopic] at isOwn
    cases isOwn
    rw [← isName,sameName] at ownerSubscribes
    refine ⟨ownerId,owner,isOwner,owns,ownerSubscribes,?_⟩
    intro otherId other isOther toOther
    exact covered.single isOther toOther isOwner owns
  · intro memberId member slot found targeted
    exact covered.sound found targeted

def overview (state : Option ConsumerGroupDoc) :
    Option SubscribedTopic × List (String × Partitions × List String) :=
  let group := opened state 0
  (group.topics.get? 1,
    group.members.entries.map (fun entry => (entry.1, entry.2.target, entry.2.subscribedTopicNames)))

def beatsAsNew (held : Option ConsumerGroupDoc) : Request → Bool
  | .heartbeat request _ minted _ liveness _ nowMs =>
    let group := (sweep (opened held nowMs) liveness nowMs).1
    (instanceHolder group (joiningId request minted) request.instanceId).all (fun holder =>
        !holder.2.isLeavingStatic || (group.members.get? (joiningId request minted)).isNone) &&
      held.all (fun group => decide ((group.members.entries.length : Int) < i32Max))
  | _ => false

lemma replacesAsNew_of_beats {held : Option ConsumerGroupDoc} {request : Request}
    (passed : beatsAsNew held request = true) : replacesAsNew held request := by
  cases request with
  | heartbeat request client minted resolved liveness config nowMs =>
    simp only [beatsAsNew,Bool.and_eq_true,Option.all_eq_true,decide_eq_true_eq] at passed
    refine ⟨rfl,?_,passed.2⟩
    intro _ holder isHolder leaving
    simpa [leaving] using passed.1 holder isHolder
  | classicJoin | classicSync | classicHeartbeat | classicLeave | convert => cases passed

def staticBeat (memberId : String) (memberEpoch : Int) : Request :=
  .heartbeat
    { memberId, memberEpoch, instanceId := some "i", subscribedTopicNames := some ["t"] }
    {} sampleMinted (some (OrderedMap.empty.insert "t" (1, 2))) {} {} 0

/-- A static member leaves, and a new member joins under its instance id and takes its target. -/
theorem targets_cover_replacement :
    ∃ group, System.Reachable (documents (fun _ => none)) replacesAsNew (some group) ∧
      overview (some group) =
        (some ⟨"t", 2⟩, [("b", {⟨1, 0⟩}, ["t"]), ("c", {⟨1, 1⟩}, ["t"])]) ∧
      ∀ slot name, Recorded group slot name →
        (∃ memberId member, group.members.get? memberId = some member ∧
          Subscribes (fun _ => none) member name) →
        ∃ ownerId owner, group.members.get? ownerId = some owner ∧ slot ∈ owner.target ∧
          Subscribes (fun _ => none) owner name ∧
          ∀ otherId other, group.members.get? otherId = some other → slot ∈ other.target →
            otherId = ownerId := by
  have ended : (System.exec (documents (fun _ => none)) beatsAsNew none
      [staticBeat "a" 0, sampleBeat "b" 0 (some ["t"]) [], staticBeat "a" (-2),
        staticBeat "c" 0]).map overview =
      some (some ⟨"t",2⟩, [("b", {⟨1,0⟩}, ["t"]), ("c", {⟨1,1⟩}, ["t"])]) := by decide +kernel
  obtain ⟨state,reached,observed⟩ := System.Reachable.observed replacesAsNew_of_beats ended
  cases state with
  | none => cases observed
  | some group => exact ⟨group,reached,observed,(targets_cover _ reached rfl).1⟩

def unconverted (_ : Option ConsumerGroupDoc) (request : Request) : Prop := request.converts = false

/-- A static member leaves, and a member that is in the group joins again under its instance id:
it takes over the target of the static member, and its own is lost. -/
theorem replacement_uncovers :
    ∃ group member, System.Reachable (documents (fun _ => none)) unconverted (some group) ∧
        Recorded group ⟨1, 0⟩ "t" ∧ group.members.get? "b" = some member ∧
        Subscribes (fun _ => none) member "t" ∧
        ∀ otherId other, group.members.get? otherId = some other → ⟨1, 0⟩ ∉ other.target := by
  have ended : (System.exec (documents (fun _ => none)) (fun _ request => !request.converts) none
      [staticBeat "a" 0, sampleBeat "b" 0 (some ["t"]) [], staticBeat "a" (-2),
        staticBeat "b" 0]).map overview =
      some (some ⟨"t",2⟩, [("b", {⟨1,1⟩}, ["t"])]) := by decide +kernel
  have met : ∀ {state : Option ConsumerGroupDoc} {request : Request},
      (!request.converts) = true → unconverted state request := by
    intro state request passed
    simpa [unconverted] using passed
  obtain ⟨state,reached,observed⟩ := System.Reachable.observed met ended
  obtain ⟨isTopic,members⟩ := Prod.mk.inj observed
  cases state with
  | none => cases isTopic
  | some group =>
  dsimp only [opened,Option.getD_some] at isTopic members
  obtain ⟨⟨memberId,member⟩,only,isB⟩ := map_eq_singleton_iff.mp members
  obtain ⟨isId,others⟩ := Prod.mk.inj isB
  obtain ⟨targeted,names⟩ := Prod.mk.inj others
  refine ⟨group,member,reached,⟨_,isTopic,rfl,by decide,by decide⟩,?_,?_,?_⟩
  · rw [← mem_entries,only,← isId]
    exact mem_singleton_self _
  · left
    rw [names]
    exact mem_singleton_self _
  · intro otherId other found
    rw [← mem_entries,only,mem_singleton] at found
    cases found
    rw [targeted]
    decide

end Kodansu.Group

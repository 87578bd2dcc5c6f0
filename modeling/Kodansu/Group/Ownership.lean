/-
No partition is owned by two members.

What a member holds is what it is assigned and what it has not yet given up.  Every stage of
a request but the last lets holdings shrink or hands the whole of one on; `reconcile` adds only
what no other member holds.
-/

import Kodansu.Group.Stages

namespace Kodansu.Group

open Lib OrderedMap Finset

def heldBy (group : ConsumerGroupDoc) (memberId : String) : Partitions :=
  ((group.members.get? memberId).map ConsumerMember.holds).getD ∅

def Exclusive (group : ConsumerGroupDoc) : Prop :=
  ∀ left right, left ≠ right → Disjoint (heldBy group left) (heldBy group right)

section Holdings

variable {id : String} {member : ConsumerMember} {group : ConsumerGroupDoc}

lemma heldBy_of_get? (found : group.members.get? id = some member) :
    heldBy group id = member.holds := by
  unfold heldBy
  rw [found]
  rfl

lemma heldBy_insert (group : ConsumerGroupDoc) (id : String) (member : ConsumerMember)
    (other : String) :
    heldBy { group with members := group.members.insert id member } other =
      if other = id then member.holds else heldBy group other := by
  unfold heldBy
  rw [get?_insert]
  split <;> rfl

lemma heldBy_remove (group : ConsumerGroupDoc) (id other : String) :
    heldBy { group with members := group.members.remove id } other =
      if other = id then ∅ else heldBy group other := by
  unfold heldBy
  rw [get?_remove]
  split <;> rfl

section

variable (exclusive : Exclusive group)

include exclusive

variable {next : ConsumerGroupDoc} {mid previousId memberId : String} {changed : ConsumerMember}

lemma Exclusive.shrink (less : ∀ id, heldBy next id ⊆ heldBy group id) : Exclusive next := by
  intro left right differ
  exact (exclusive left right differ).mono (less left) (less right)

lemma Exclusive.insert (less : member.holds ⊆ heldBy group mid) :
    Exclusive { group with members := group.members.insert mid member } := by
  apply exclusive.shrink
  intro id
  rw [heldBy_insert]
  split
  · next same => exact same ▸ less
  · exact Finset.Subset.refl _

lemma Exclusive.remove (mid : String) :
    Exclusive { group with members := group.members.remove mid } := by
  apply exclusive.shrink
  intro id
  rw [heldBy_remove]
  split
  · exact empty_subset _
  · exact Finset.Subset.refl _

lemma Exclusive.touched
    (found : group.members.get? id = some member) (touched : Touched member changed) :
    Exclusive { group with members := group.members.insert id changed } := by
  apply exclusive.insert
  rw [touched.holds,heldBy_of_get? found]

lemma Exclusive.replace (less : member.holds ⊆ heldBy group previousId) :
    Exclusive { group with members := (group.members.remove previousId).insert memberId member } := by
  have removed : Exclusive { group with members := group.members.remove previousId } :=
    exclusive.remove previousId
  intro left right differ
  rw [heldBy_insert { group with members := group.members.remove previousId },
    heldBy_insert { group with members := group.members.remove previousId }]
  have apart : ∀ other, other ≠ memberId → Disjoint member.holds
        (heldBy { group with members := group.members.remove previousId } other) := by
    intro other _
    rw [heldBy_remove]
    split
    · exact disjoint_empty_right _
    · next kept => exact (exclusive previousId other (Ne.symm kept)).mono_left less
  by_cases isLeft : left = memberId
  · have notRight : right ≠ memberId := fun same => differ (isLeft.trans same.symm)
    rw [if_pos isLeft,if_neg notRight]
    exact apart right notRight
  · rw [if_neg isLeft]
    by_cases isRight : right = memberId
    · rw [if_pos isRight]
      exact (apart left isLeft).symm
    · rw [if_neg isRight]
      exact removed left right differ

end

end Holdings

/-! ### The stages -/

section Stages

variable {id holderId : String} {group next : ConsumerGroupDoc} {req : HeartbeatRequest}
  {nowMs targetEpoch : Int} {gone new : Bool} {inst : Option String} {client : Client}
  {config : ConsumerGroupConfig} {slot : Slot} {member : ConsumerMember} {taken : Partitions}
  {owned : Option Partitions}

lemma sweep_exclusive (liveness : Liveness) (nowMs : Int) (exclusive : Exclusive group) :
    Exclusive (sweep group liveness nowMs).1 := by
  apply exclusive.shrink
  intro id
  unfold sweep heldBy
  rw [get?_filter]
  cases group.members.get? id with
  | none => exact Finset.Subset.refl _
  | some member =>
    rw [Option.filter_some]
    split
    · exact Finset.Subset.refl _
    · exact empty_subset _

lemma leave_exclusive (exclusive : Exclusive group)
    (leaves : leave group req nowMs = .ok (next, gone)) : Exclusive next := by
  unfold leave at leaves
  split at leaves
  · cases leaves
  rename_i member found
  split at leaves
  · cases leaves
    apply exclusive.insert
    rw [heldBy_of_get? found]
    exact Finset.Subset.refl _
  · cases leaves
    exact exclusive.remove _

lemma instanceHolder_spec {holder : ConsumerMember}
    (found : instanceHolder group id inst = some (holderId, holder)) :
    group.members.get? holderId = some holder ∧ holderId ≠ id ∧
      holder.instanceId = inst ∧ inst ≠ none := by
  unfold instanceHolder at found
  split at found
  · cases found
  have passes := List.find?_some found
  simp only [Bool.and_eq_true,decide_eq_true_eq] at passes
  exact ⟨mem_entries.mp (List.mem_of_find?_eq_some found),passes.1,passes.2,nofun⟩

lemma joinAs_exclusive (exclusive : Exclusive group)
    (enters : joinAs group id req client config = .ok (next, new)) : Exclusive next := by
  unfold joinAs at enters
  split at enters
  · rename_i holderId holder found
    split at enters
    · cases enters
      apply exclusive.replace
      rw [heldBy_of_get? (instanceHolder_spec found).1]
      exact union_subset_union_right (empty_subset _)
    · cases enters
  · split at enters
    · cases enters
      apply exclusive.insert
      exact empty_subset _
    · split at enters
      · cases enters
      · split at enters
        · cases enters
        · cases enters
          apply exclusive.insert
          exact empty_subset _

lemma enrol_exclusive (exclusive : Exclusive group)
    (enters : enrol group id config = .ok (next, new)) : Exclusive next := by
  unfold enrol at enters
  split at enters
  · cases enters
    exact exclusive
  · split at enters
    · cases enters
    · cases enters
      apply exclusive.insert
      exact empty_subset _

lemma heldBy_retarget (pattern : Patterns) (group : ConsumerGroupDoc) (id : String) :
    heldBy (retarget pattern group) id = heldBy group id := by
  unfold heldBy retarget
  rw [get?_mapValues]
  cases group.members.get? id with
  | none | some => rfl

lemma rebalanced_exclusive (pattern : Patterns) (rebalance : Bool)
    (exclusive : Exclusive group) : Exclusive (rebalanced pattern rebalance group) := by
  unfold rebalanced
  split
  · apply exclusive.shrink
    intro id
    rw [heldBy_retarget]
  · exact exclusive

lemma mem_ownedByOthers :
    slot ∈ ownedByOthers group id ↔ ∃ other, other ≠ id ∧ slot ∈ heldBy group other := by
  have folded : ∀ (entries : List (String × ConsumerMember)) (taken : Partitions),
      slot ∈ entries.foldl (fun taken entry => taken ∪ entry.2.holds) taken ↔
        slot ∈ taken ∨ ∃ entry ∈ entries, slot ∈ entry.2.holds := by
    intro entries
    induction entries with
    | nil => simp
    | cons first rest ih =>
      intro taken
      rw [List.foldl_cons,ih,mem_union,or_assoc]
      simp
  unfold ownedByOthers
  rw [folded]
  constructor
  · rintro (impossible | ⟨⟨other,member⟩,listed,held⟩)
    · cases impossible
    · obtain ⟨known,differ⟩ := List.mem_filter.mp listed
      refine ⟨other,by simpa using differ,?_⟩
      rw [heldBy_of_get? (mem_entries.mp known)]
      exact held
  · rintro ⟨other,differ,held⟩
    right
    unfold heldBy at held
    cases found : group.members.get? other with
    | none =>
      rw [found] at held
      cases held
    | some member =>
      rw [found] at held
      refine ⟨(other, member),List.mem_filter.mpr ⟨mem_entries.mpr found,?_⟩,held⟩
      simpa using differ

lemma nextAssignment_holds
    (held : slot ∈ (nextAssignment member targetEpoch taken owned nowMs).holds) :
    slot ∈ member.assigned ∨ slot ∉ taken := by
  unfold nextAssignment at held
  dsimp only at held
  split at held
  · left
    rcases mem_union.mp held with kept | revoking
    · exact (mem_inter.mp kept).1
    · exact (mem_sdiff.mp revoking).1
  · unfold ConsumerMember.holds at held
    rw [union_empty] at held
    rcases mem_union.mp held with kept | free
    · exact .inl (mem_inter.mp kept).1
    · exact .inr (mem_sdiff.mp free).2

lemma reconcile_exclusive (memberId : String) (owned : Option Partitions) (nowMs : Int)
    (exclusive : Exclusive group) : Exclusive (reconcile group memberId owned nowMs) := by
  have others : ∀ id, id ≠ memberId →
      heldBy (reconcile group memberId owned nowMs) id = heldBy group id := by
    intro id differ
    unfold heldBy reconcile
    rw [get?_adjust,if_neg differ]
  have own : ∀ slot, slot ∈ heldBy (reconcile group memberId owned nowMs) memberId →
      slot ∈ heldBy group memberId ∨ slot ∉ ownedByOthers group memberId := by
    intro slot held
    unfold heldBy reconcile at held
    rw [get?_adjust,if_pos rfl] at held
    cases found : group.members.get? memberId with
    | none =>
      rw [found] at held
      cases held
    | some member =>
      rw [found] at held
      rw [heldBy_of_get? found]
      simp only [Option.map_some,Option.getD_some] at held
      split at held
      · exact (nextAssignment_holds held).imp_left (mem_union_left _)
      · exact .inl held
  have apart : ∀ other, other ≠ memberId →
      Disjoint (heldBy (reconcile group memberId owned nowMs) memberId) (heldBy group other) := by
    intro other differ
    rw [disjoint_left]
    intro slot held ofOther
    rcases own slot held with before | free
    · exact disjoint_left.mp (exclusive memberId other (Ne.symm differ)) before ofOther
    · exact free (mem_ownedByOthers.mpr ⟨other,differ,ofOther⟩)
  intro left right differ
  by_cases isLeft : left = memberId
  · subst isLeft
    rw [others right (Ne.symm differ)]
    exact apart right (Ne.symm differ)
  · rw [others left isLeft]
    by_cases isRight : right = memberId
    · subst isRight
      exact (apart left isLeft).symm
    · rw [others right isRight]
      exact exclusive left right differ

lemma stamped_exclusive (mid : String) (nowMs : Int) (exclusive : Exclusive group) :
    Exclusive (stamped group mid nowMs) := by
  apply exclusive.shrink
  intro id
  unfold heldBy stamped
  rw [get?_adjust]
  split
  · rename_i same
    subst same
    cases group.members.get? id <;> exact Finset.Subset.refl _
  · exact Finset.Subset.refl _

lemma exclusive_stages (pattern : Patterns) :
    Stages pattern (fun _ _ _ => True) (fun group _ => Exclusive group)
      (fun group _ => Exclusive group) Exclusive where
  swept liveness nowMs exclusive := sweep_exclusive liveness nowMs exclusive
  admitted exclusive := exclusive
  left exclusive leaves := leave_exclusive exclusive leaves
  joined exclusive _ _ enters := joinAs_exclusive exclusive enters
  enrolled exclusive _ enters := enrol_exclusive exclusive enters
  removed id exclusive := exclusive.remove id
  updated exclusive found changes := exclusive.touched found (updateMember_spec changes).1
  spoken client protocol subscription exclusive found _ :=
    exclusive.touched found (speakClassic_touched _ _ client protocol subscription)
  refreshed _ exclusive := exclusive
  assigned exclusive := rebalanced_exclusive pattern _ exclusive
  reconciled id owned nowMs exclusive := reconcile_exclusive id owned nowMs exclusive
  stamped id nowMs exclusive := stamped_exclusive id nowMs exclusive

end Stages

/-! ### Conversion -/

def Gives (assignment : MemberAssignment) (topic : String) (partition : Int) : Prop :=
  ∃ given ∈ assignment.assignedPartitions, given.topic = topic ∧ partition ∈ given.partitions

def AssignsOnce (assignment : AssignmentDoc) : Prop :=
  ∀ left right (toLeft toRight : Encoded MemberAssignment) (first second : MemberAssignment),
    left ≠ right → assignment.assignments.get? left = some toLeft →
      assignment.assignments.get? right = some toRight → toLeft.parsed = some first →
        toRight.parsed = some second →
          ∀ topic partition, Gives first topic partition → ¬Gives second topic partition

variable {group : ConsumerGroupDoc} {name mid : String} {topicId : Nat}
  {partitions : List TopicPartition} {names : OrderedMap String Nat} {slot : Slot}
  {assignment : Option AssignmentDoc} {assigned : Partitions} {gen : GenerationDoc}
  {members : OrderedMap String MemberDoc} {nowMs : Int}
  {converted : OrderedMap String ConsumerMember}

lemma namesOf_spec (found : (namesOf group).get? name = some topicId) :
    ∃ topic, group.topics.get? topicId = some topic ∧ topic.name = name := by
  have every : ∀ name topicId, (namesOf group).get? name = some topicId →
      ∃ topic, group.topics.get? topicId = some topic ∧ topic.name = name := by
    refine List.foldlRecOn (motive := fun (names : OrderedMap String Nat) => ∀ name topicId,
        names.get? name = some topicId →
          ∃ topic, group.topics.get? topicId = some topic ∧ topic.name = name)
      group.topics.entries _ nofun ?_
    intro names known entry listed name topicId found
    rw [get?_insert] at found
    split at found
    · rename_i same
      cases found
      exact ⟨entry.2,mem_entries.mp listed,same.symm⟩
    · exact known name topicId found
  exact every name topicId found

lemma mem_byId :
    slot ∈ byId partitions names ↔ ∃ topic ∈ partitions, names.get? topic.topic = some slot.topic ∧
        slot.partition ∈ topic.partitions := by
  obtain ⟨topicId,partition⟩ := slot
  unfold byId
  rw [List.mem_toFinset,List.mem_flatMap]
  apply exists_congr
  intro topic
  apply and_congr_right
  intro _
  cases names.get? topic.topic with
  | none => simp
  | some found => simp [and_comm,eq_comm]

lemma assignedTo_gives
    (succeeded : assignedTo assignment names mid = .ok assigned) (given : slot ∈ assigned) :
    ∃ document encoded decoded name, assignment = some document ∧
      document.assignments.get? mid = some encoded ∧ encoded.parsed = some decoded ∧
        names.get? name = some slot.topic ∧ Gives decoded name slot.partition := by
  unfold assignedTo at succeeded
  split at succeeded
  · cases succeeded
    cases given
  · rename_i encoded found
    split at succeeded
    · cases succeeded
      cases given
    · split at succeeded
      · cases succeeded
      · rename_i decoded parsed
        split at succeeded
        · cases succeeded
        cases succeeded
        obtain ⟨document,isDocument,found⟩ := Option.bind_eq_some_iff.mp found
        obtain ⟨topic,listed,known,among⟩ := mem_byId.mp given
        exact ⟨document,encoded,decoded,topic.topic,isDocument,found,parsed,known,
          topic,listed,rfl,among⟩

def ConvertedFrom (generation : GenerationDoc) (assignment : Option AssignmentDoc)
    (names : OrderedMap String Nat) (memberId : String) (member : ConsumerMember) : Prop :=
  ∃ document reference metadata assigned, generation.members.get? memberId = some reference ∧
      assignedTo assignment names memberId = .ok assigned ∧
      member = convertedMember generation document reference metadata assigned

lemma convertMember_from
    (folded : gen.members.entries.foldlM (convertMember gen members assignment names
      nowMs) .empty = .ok converted) : ∀ id member, converted.get? id = some member →
      ConvertedFrom gen assignment names id member := by
  refine foldlM_ok
    (motive := fun (converted : OrderedMap String ConsumerMember) => ∀ id member,
      converted.get? id = some member →
        ConvertedFrom gen assignment names id member)
    (fun _ _ found => absurd found (by simp)) ?_ folded
  intro before after entry listed known stepped id member found
  unfold convertMember at stepped
  split at stepped
  · cases stepped
    exact known id member found
  · rename_i document _
    split at stepped
    · cases stepped
      exact known id member found
    · split at stepped
      · cases stepped
      · rename_i metadata _
        obtain ⟨assigned,isAssigned,same⟩ := bind_ok stepped
        cases same
        rw [get?_insert] at found
        split at found
        · rename_i same
          cases found
          subst same
          exact ⟨document,entry.2,metadata,assigned,mem_entries.mp listed,isAssigned,rfl⟩
        · exact known id member found

section

variable {resolved : Resolved} {held : Option ConsumerGroupDoc}
  (converts : fromClassic gen members assignment resolved held nowMs = .ok group)

include converts

variable {member : ConsumerMember}

lemma fromClassic_member (found : group.members.get? mid = some member) :
    ConvertedFrom gen
      (assignment.filter (fun assignment => assignment.generationId = gen.generationId))
      (namesOf group) mid member := by
  obtain ⟨converted,folded,same⟩ := bind_ok converts
  cases same
  exact convertMember_from folded mid member found

lemma fromClassic_exclusive (once : ∀ document, assignment = some document → AssignsOnce document) :
    Exclusive group := by
  -- What a member holds goes back to the name of a topic that the assignment gives it.
  have origin : ∀ mid slot, slot ∈ heldBy group mid →
      ∃ document encoded decoded name, assignment = some document ∧
        document.assignments.get? mid = some encoded ∧ encoded.parsed = some decoded ∧
          (namesOf group).get? name = some slot.topic ∧ Gives decoded name slot.partition := by
    intro mid slot holds
    unfold heldBy at holds
    cases found : group.members.get? mid with
    | none =>
      rw [found] at holds
      cases holds
    | some member =>
      obtain ⟨memberDoc,reference,metadata,assigned,_,isAssigned,same⟩ :=
        fromClassic_member converts found
      rw [found,same] at holds
      simp only [Option.map_some,Option.getD_some,ConsumerMember.holds,convertedMember,
        union_empty] at holds
      obtain ⟨document,encoded,decoded,name,isDocument,rest⟩ :=
        assignedTo_gives isAssigned holds
      exact ⟨document,encoded,decoded,name,(Option.filter_eq_some_iff.mp isDocument).1,rest⟩
  intro left right differ
  rw [disjoint_left]
  intro slot toLeft toRight
  obtain ⟨document,leftBytes,first,leftName,isDocument,leftKnown,leftParsed,leftTopic,
    leftGives⟩ := origin left slot toLeft
  obtain ⟨other,rightBytes,second,rightName,isOther,rightKnown,rightParsed,rightTopic,
    rightGives⟩ := origin right slot toRight
  rw [isDocument] at isOther
  cases isOther
  obtain ⟨leftSubscribed,leftFound,leftNamed⟩ := namesOf_spec leftTopic
  obtain ⟨rightSubscribed,rightFound,rightNamed⟩ := namesOf_spec rightTopic
  rw [leftFound] at rightFound
  cases rightFound
  rw [← rightNamed,leftNamed] at rightGives
  exact once document isDocument left right _ _ _ _ differ leftKnown rightKnown leftParsed
    rightParsed _ _ leftGives rightGives

end

/-! ### Every document -/

/-- A conversion starts from an assignment that gives each partition to at most one member. -/
def convertsOnce (_ : Option ConsumerGroupDoc) : Request → Prop
  | .convert _ _ (some assignment) _ _ => AssignsOnce assignment
  | _ => True

/-- In every document that is reached from no document or by conversion, whatever the requests,
the topics, the liveness and the clocks are, no partition is assigned to, or pending revocation
by, two different members. -/
theorem ownership_exclusive (topicPattern : Patterns) {state : Option ConsumerGroupDoc}
    (reached : System.Reachable (documents topicPattern) convertsOnce state)
    {group : ConsumerGroupDoc} (current : state = some group) {left right : String}
    {first second : ConsumerMember} (different : left ≠ right)
    (isFirst : group.members.get? left = some first)
    (isSecond : group.members.get? right = some second) :
    Disjoint (first.assigned ∪ first.pendingRevocation)
      (second.assigned ∪ second.pendingRevocation) := by
  have exclusive : Documented Exclusive state := by
    refine (exclusive_stages topicPattern).reachable ?_ ?_ ?_ ?_ reached
    · intro group exclusive
      exact exclusive
    · intro held request documented _ nowMs
      cases held with
      | none => exact fun _ _ _ => disjoint_empty_left _
      | some group => exact documented group rfl
    · intro held request _
      cases request <;> simp [Request.Joins]
    · intro held generation members assignment resolved nowMs group _ met converts
      apply fromClassic_exclusive converts
      intro document isDocument
      subst isDocument
      exact met
  have apart := exclusive group current left right different
  rw [heldBy_of_get? isFirst,heldBy_of_get? isSecond] at apart
  exact apart

def sampleBeat (memberId : String) (memberEpoch : Int) (names : Option (List String))
    (owned : List Int) : Request :=
  .heartbeat
    { memberId, memberEpoch, subscribedTopicNames := names, topicPartitions := some [(1, owned)] }
    {} ⟨"x", by decide⟩ (some (OrderedMap.empty.insert "t" (1, 2))) {} {} 0

def sampleMinted : Minted := ⟨"x", by decide⟩

def assignedPair (left right : String) (state : Option ConsumerGroupDoc) :
    Option (Partitions × Partitions) :=
  state.bind (fun group =>
    (group.members.get? left).bind (fun first =>
      (group.members.get? right).map (fun second => (first.assigned, second.assigned))))

variable {left right : String} {s : Option ConsumerGroupDoc}

lemma assignedPair_spec {toLeft toRight : Partitions} (found : assignedPair left right s = some (toLeft, toRight)) :
    ∃ group first second, s = some group ∧ group.members.get? left = some first ∧
      group.members.get? right = some second ∧ first.assigned = toLeft ∧
        second.assigned = toRight := by
  obtain ⟨group,isGroup,found⟩ := Option.bind_eq_some_iff.mp found
  obtain ⟨first,isFirst,found⟩ := Option.bind_eq_some_iff.mp found
  obtain ⟨second,isSecond,same⟩ := Option.map_eq_some_iff.mp found
  cases same
  exact ⟨group,first,second,isGroup,isFirst,isSecond,rfl,rfl⟩

theorem ownership_exclusive_handover :
    ∃ group first second, System.Reachable (documents (fun _ => none)) convertsOnce (some group) ∧
        group.members.get? "a" = some first ∧ group.members.get? "b" = some second ∧
          first.assigned = {⟨1, 1⟩} ∧ second.assigned = {⟨1, 0⟩} ∧
            Disjoint (first.assigned ∪ first.pendingRevocation)
              (second.assigned ∪ second.pendingRevocation) := by
  have ended : (System.exec (documents (fun _ => none)) (fun _ request => !request.converts) none
      [sampleBeat "a" 0 (some ["t"]) [], sampleBeat "b" 0 (some ["t"]) [], sampleBeat "a" 1 none [0, 1],
        sampleBeat "a" 1 none [1], sampleBeat "b" 2 none []]).map (assignedPair "a" "b") =
      some (some ({⟨1,1⟩}, {⟨1,0⟩})) := by decide +kernel
  have met : ∀ {state : Option ConsumerGroupDoc} {request : Request},
      (!request.converts) = true → convertsOnce state request := by
    intro state request passed
    cases request with
    | convert => cases passed
    | _ => trivial
  obtain ⟨state,reached,observed⟩ := System.Reachable.observed met ended
  obtain ⟨group,first,second,current,isFirst,isSecond,toFirst,toSecond⟩ :=
    assignedPair_spec observed
  subst current
  exact ⟨group,first,second,reached,isFirst,isSecond,toFirst,toSecond,
    ownership_exclusive _ reached rfl (by decide) isFirst isSecond⟩

end Kodansu.Group

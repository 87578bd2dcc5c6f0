/-
What the assignors give, exactly, and how evenly `uniform` gives it.

`uniform` keeps whatever a member held below the partition count, so a negative partition of a
previous target, which the assignment of a classic leader may hold, stays with its member.  Its
last loop ends because every move lowers the sum of the squared loads, and what it ends in is a
fixed point: given back as the previous targets, it is kept whole and nothing moves.
-/

import Kodansu.Group.Assignor

namespace Kodansu.Group

open Lib OrderedMap Function

variable {ids : List String}

/-! ### Exactness -/

/-- Every partition of a subscribed topic has one owner, and nobody has anything else. -/
structure Exact (members : OrderedMap String MemberSpec) (topics : OrderedMap Nat Int)
    (assigned : OrderedMap String Partitions) : Prop where
  covered : ∀ slot ∈ slots topics, subscribers members slot.topic ≠ [] →
    ∃! memberId, slot ∈ share assigned memberId
  entitled : ∀ memberId slot, slot ∈ share assigned memberId →
    slot ∈ slots topics ∧ memberId ∈ subscribers members slot.topic

def Few (members : OrderedMap String MemberSpec) (topics : OrderedMap Nat Int) : Prop :=
  ∀ topic count, topics.get? topic = some count → 0 < count →
    ((subscribers members topic).length : Int) ≤ i32Max

/-- No previous target has a negative partition of a topic that exists and its member follows. -/
def Natural (members : OrderedMap String MemberSpec) (topics : OrderedMap Nat Int) : Prop :=
  ∀ memberId spec, members.get? memberId = some spec → ∀ slot ∈ spec.previous,
    slot.topic ∈ spec.subscribed → (topics.get? slot.topic).isSome → 0 ≤ slot.partition

variable {other mid : String} {slot : Slot} {assigned : OrderedMap String Partitions}
  {more : Partitions} {topic index : Nat} {quota extra next : Int}
  {members : OrderedMap String MemberSpec} {topics : OrderedMap Nat Int}

lemma share_adjust (held : slot ∈ share (assigned.adjust mid (· ∪ more)) other) :
    slot ∈ share assigned other ∨ slot ∈ more := by
  rw [share,get?_adjust] at held
  rw [share]
  split at held
  · next same =>
    rw [same]
    cases found : assigned.get? mid with
    | none =>
      rw [found] at held
      exact absurd held (Finset.notMem_empty _)
    | some partitions =>
      rw [found] at held
      exact Finset.mem_union.mp held
  · exact .inl held

lemma share_handOut
    (held : slot ∈ share (handOut topic quota extra index next ids assigned) mid) :
    slot ∈ share assigned mid ∨ slot.topic = topic := by
  induction ids generalizing index next assigned with
  | nil => exact .inl held
  | cons first rest ih =>
    cases ih held with
    | inr ofTopic => exact .inr ofTopic
    | inl before =>
      generalize (quota + if (index : Int) < extra then 1 else 0) = width at before
      split at before
      · exact (share_adjust before).imp_right (fun now => (mem_stretch.mp now).1)
      · exact .inl before

lemma range_few (held : slot ∈ share (range members topics) mid) :
    ((subscribers members slot.topic).length : Int) ≤ i32Max := by
  revert slot mid
  refine List.foldlRecOn (motive := fun assigned => ∀ {mid slot},
    slot ∈ share assigned mid → ((subscribers members slot.topic).length : Int) ≤ i32Max)
    topics.entries _ ?_ ?_
  · intro mid slot held
    rw [share_unassigned] at held
    cases held
  · intro assigned few topic _ mid slot held
    unfold rangeTopic at held
    dsimp only at held
    split_ifs at held with tooMany none
    · exact few held
    · exact few held
    · cases share_handOut held with
      | inl earlier => exact few earlier
      | inr ofTopic =>
        rw [ofTopic]
        omega

lemma range_exact_iff : Exact members topics (range members topics) ↔ Few members topics := by
  have ranged : Ranged members topics.entries (range members topics) := range_ranged topics
  constructor
  · intro exact topic count found pos
    by_cases none : subscribers members topic = []
    · rw [none]
      decide
    · have listed : (⟨topic,0⟩ : Slot) ∈ slots topics :=
        mem_slots.mpr ⟨Int.le_refl 0,count,found,pos⟩
      obtain ⟨id,held,_⟩ := exact.covered _ listed none
      exact range_few held
  · intro few
    constructor
    · intro slot listed some
      obtain ⟨nonneg,count,found,below⟩ := mem_slots.mp listed
      obtain ⟨subscriber,subscribes⟩ := List.exists_mem_of_ne_nil _ some
      obtain ⟨id,held⟩ := ranged.full (mem_entries.mpr found) subscribes
        (few _ _ found (by omega)) nonneg below
      exact ⟨id,held,fun other also => ranged.single also held⟩
    · intro id slot held
      obtain ⟨subscribes,nonneg,count,found,below⟩ := ranged.entitled held
      exact ⟨mem_slots.mpr ⟨nonneg,count,mem_entries.mp found,below⟩,subscribes⟩

lemma settle_keeps (retains : Retains members topics mid slot) :
    ((settle members topics).1.get? slot).isSome := by
  apply balance_keeps
  exact List.foldlRecOn (motive := fun s : Balance => (s.1.get? slot).isSome) _ _
    (sticky_keeps retains) (fun _ held _ _ => give_keeps held)

lemma settle_unlisted (unlisted : slot ∉ slots topics)
    (held : ((settle members topics).1.get? slot).isSome) :
    ((sticky members topics).get? slot).isSome := by
  have given : ∀ {pending : List Slot} {s : Balance}, (∀ other ∈ pending, other ∈ slots topics) →
      ((pending.foldl (give members) s).1.get? slot).isSome → (s.1.get? slot).isSome := by
    intro pending
    induction pending with
    | nil => exact fun _ held => held
    | cons first rest ih =>
      intro s listed held
      have later := ih (fun other among => listed other (.tail _ among)) held
      have differ : slot ≠ first := fun same => unlisted (same ▸ listed first (.head _))
      unfold give at later
      split at later
      · exact later
      split at later
      · exact later
      · rwa [get?_insert,if_neg differ] at later
  have moved : ∀ {fuel : Nat} {s : Balance},
      ((balance members fuel s).1.get? slot).isSome → (s.1.get? slot).isSome := by
    intro fuel
    induction fuel with
    | zero => exact fun held => held
    | succ fuel ih =>
      intro s held
      unfold balance at held
      split at held
      · exact held
      rename_i move found
      have later := ih held
      rw [Move.apply,get?_insert] at later
      split at later
      · next same =>
        rw [same,(improvingMove_improves found).1]
        rfl
      · exact later
  exact given (fun _ listed => listed) (moved held)

lemma uniform_exact_iff (counts : ∀ topic count, topics.get? topic = some count → 0 ≤ count) :
    Exact members topics (uniform members topics) ↔ Natural members topics := by
  constructor
  · intro exact id spec found slot previous subscribed known
    by_contra negative
    obtain ⟨count,isCount⟩ := Option.isSome_iff_exists.mp known
    have nonneg := counts _ _ isCount
    have kept := mem_retained.mpr ⟨previous,subscribed,count,isCount,by omega⟩
    obtain ⟨holder,owns⟩ := Option.isSome_iff_exists.mp (settle_keeps ⟨spec,found,kept⟩)
    have listed := (exact.entitled holder slot (mem_share_uniform.mpr owns)).1
    exact negative (mem_slots.mp listed).1
  · intro natural
    constructor
    · intro slot listed some
      obtain ⟨subscriber,subscribes⟩ := List.exists_mem_of_ne_nil _ some
      obtain ⟨holder,owns⟩ := Option.isSome_iff_exists.mp (settle_covers listed subscribes)
      refine ⟨holder,mem_share_uniform.mpr owns,fun other also => ?_⟩
      have same := (mem_share_uniform.mp also).symm.trans owns
      exact Option.some.inj same
    · intro id slot held
      have owns := mem_share_uniform.mp held
      obtain ⟨subscribes,count,found,below⟩ := settle_owned.entitled owns
      refine ⟨?_,subscribes⟩
      by_contra unlisted
      obtain ⟨keeper,kept⟩ := Option.isSome_iff_exists.mp
        (settle_unlisted unlisted (Option.isSome_of_mem owns))
      obtain ⟨spec,isSpec,retained⟩ := sticky_retained kept
      obtain ⟨previous,subscribed,_⟩ := mem_retained.mp retained
      have nonneg := natural keeper spec isSpec slot previous subscribed (Option.isSome_of_mem found)
      exact unlisted (mem_slots.mpr ⟨nonneg,count,found,below⟩)

/-- The assignment is exact just when `range` can count the subscribers of each topic, and when no
negative partition is left to `uniform` to keep. -/
theorem assign_exact_iff (assignor : String)
    (counts : ∀ topic count, topics.get? topic = some count → 0 ≤ count) :
    Exact members topics (assign assignor members topics) ↔
      if assignor = rangeName then Few members topics else Natural members topics := by
  unfold assign
  split
  · exact range_exact_iff
  · exact uniform_exact_iff counts

def holder (partition : Int) : OrderedMap String MemberSpec :=
  OrderedMap.empty.insert "m" ⟨{1}, {⟨1, partition⟩}⟩

def onePartition : OrderedMap Nat Int := OrderedMap.empty.insert 1 1

/-- One member holds both partitions when another one joins. -/
def joining : OrderedMap String MemberSpec :=
  (OrderedMap.empty.insert "a" ⟨{1}, {⟨1, 0⟩, ⟨1, 1⟩}⟩).insert "b" ⟨{1}, ∅⟩

def twoPartitions : OrderedMap Nat Int := OrderedMap.empty.insert 1 2

theorem assign_exact_moved :
    share (assign uniformName joining twoPartitions) "a" = {⟨1, 1⟩} ∧
      share (assign uniformName joining twoPartitions) "b" = {⟨1, 0⟩} ∧
      Exact joining twoPartitions (assign uniformName joining twoPartitions) := by
  refine ⟨by decide +kernel,by decide +kernel,(assign_exact_iff uniformName ?_).mpr ?_⟩
  · intro topic count found
    rw [twoPartitions,get?_insert] at found
    split at found
    · cases found
      decide
    · cases found
  · have natural : ∀ entry ∈ joining.entries, ∀ slot ∈ entry.2.previous, 0 ≤ slot.partition := by
      decide +kernel
    intro memberId spec found slot previous _ _
    exact natural _ (mem_entries.mpr found) slot previous

/-- A partition -1 that a classic leader assigned stays assigned. -/
theorem uniform_keeps_negative :
    ¬ Exact (holder (-1)) onePartition (assign uniformName (holder (-1)) onePartition) := by
  intro exact
  have given : ⟨1,-1⟩ ∈ share (assign uniformName (holder (-1)) onePartition) "m" := by
    decide +kernel
  have unlisted : ⟨1,-1⟩ ∉ slots onePartition := by decide
  exact unlisted (exact.entitled _ _ given).1

/-! ### Loads -/

lemma counted_insert (owner : Owner) (slot : Slot) (id other : String) :
    counted (owner.insert slot id) other =
      counted (owner.remove slot) other + if id = other then 1 else 0 := by
  rw [counted,(perm_insert owner slot id).countP_eq,List.countP_cons]
  simp [counted]

def Tallied (state : Balance) : Prop := ∀ memberId, state.2 memberId = counted state.1 memberId

variable {s : Balance} {move : Move} {memberId : String}

lemma Tallied.give (tallied : Tallied s) : Tallied (give members s slot) := by
  unfold Group.give
  split
  · exact tallied
  rename_i absent
  split
  · exact tallied
  intro other
  rw [Option.not_isSome_iff_eq_none] at absent
  rw [counted_insert,remove_of_absent absent,← tallied]
  dsimp only
  split
  · next same => rw [same,update_self]
  · next differ => rw [update_of_ne (Ne.symm differ),Nat.add_zero]

lemma Tallied.apply (tallied : Tallied s)
    (improves : Improves members s move) : Tallied (move.apply s) := by
  obtain ⟨owns,_,gap⟩ := improves
  intro other
  have before := counted_insert s.1 move.slot move.source
  rw [insert_of_get? owns] at before
  have differ : move.destination ≠ move.source := by
    intro same
    rw [same] at gap
    omega
  rw [Move.apply,counted_insert]
  dsimp only
  rw [update_of_ne differ]
  have source := before move.source
  have destination := before move.destination
  rw [if_pos rfl,← tallied] at source
  rw [if_neg (Ne.symm differ),← tallied] at destination
  by_cases gains : other = move.destination
  · rw [gains,update_self,if_pos rfl]
    omega
  · rw [update_of_ne gains,if_neg (Ne.symm gains)]
    by_cases loses : other = move.source
    · rw [loses,update_self]
      omega
    · rw [update_of_ne loses,tallied,before,if_neg (Ne.symm loses)]

lemma Tallied.balance (fuel : Nat) (tallied : Tallied s) :
    Tallied (balance members fuel s) := by
  induction fuel generalizing s with
  | zero => exact tallied
  | succ fuel ih =>
    unfold Group.balance
    split
    · exact tallied
    · next move found => exact ih (tallied.apply (improvingMove_improves found))

lemma settle_tallied : Tallied (settle members topics) :=
  Tallied.balance _ (List.foldlRecOn _ _ (fun _ => rfl) (fun _ tallied _ _ => tallied.give))

lemma card_share : (share (uniform members topics) memberId).card =
    counted (settle members topics).1 memberId := by
  have listed : share (uniform members topics) memberId =
      (((settle members topics).1.entries.filter (·.2 = memberId)).map Prod.fst).toFinset := by
    ext slot
    rw [mem_share_uniform,← mem_entries]
    simp
  have ascending := (settle members topics).1.ascending.filter (·.2 = memberId)
  rw [listed,List.toFinset_card_of_nodup,List.length_map,counted,List.countP_eq_length_filter]
  exact List.pairwise_map.mpr (ascending.imp (fun below => ne_of_lt below))

/-! ### Balance -/

variable {load : String → Nat} {best : Option String} {entry : Slot × String}

lemma lightest_least (found : ids.foldl (lighter load) best = some mid) :
    (∀ held ∈ best, load mid ≤ load held) ∧ ∀ other ∈ ids, load mid ≤ load other := by
  induction ids generalizing best with
  | nil =>
    cases found
    exact ⟨fun held same => by cases same; exact Nat.le_refl _,fun _ => nofun⟩
  | cons first rest ih =>
    obtain ⟨least,others⟩ := ih found
    have lessFirst : ∃ chosen ∈ lighter load best first, load chosen ≤ load first ∧
        ∀ held ∈ best, load chosen ≤ load held := by
      cases best with
      | none => exact ⟨first,rfl,Nat.le_refl _,fun _ => nofun⟩
      | some held =>
        unfold lighter
        dsimp only
        split
        · next less =>
          exact ⟨first,rfl,Nat.le_refl _,fun _ same => by cases same; omega⟩
        · next more =>
          exact ⟨held,rfl,by omega,fun _ same => by cases same; exact Nat.le_refl _⟩
    obtain ⟨chosen,isChosen,first,best⟩ := lessFirst
    have below := least chosen isChosen
    constructor
    · intro held isBest
      exact Nat.le_trans below (best held isBest)
    · intro other among
      cases List.mem_cons.mp among with
      | inl same => exact same ▸ Nat.le_trans below first
      | inr later => exact others other later

lemma improve_none {best : Option Move} (none : improve members load best entry = none) :
    best = Option.none ∧ ∀ lightest ∈ leastLoaded members load entry.1.topic,
      load entry.2 < load lightest + 2 := by
  unfold improve at none
  split at none
  · next nobody => exact ⟨none,fun _ found => by rw [nobody] at found; cases found⟩
  rename_i destination found
  dsimp only at none
  split at none
  · cases none
  rename_i narrow
  cases none
  refine ⟨rfl,fun lightest isLightest => ?_⟩
  rw [found] at isLightest
  cases isLightest
  simp at narrow
  omega

lemma improvingMove_none (none : improvingMove members s = none)
    (owns : s.1.get? slot = some mid) (subscriber : other ∈ subscribers members slot.topic) :
    s.2 mid < s.2 other + 2 := by
  have every : ∀ {entries : List (Slot × String)} {best : Option Move},
      entries.foldl (improve members s.2) best = Option.none →
        best = Option.none ∧ ∀ entry ∈ entries,
          ∀ lightest ∈ leastLoaded members s.2 entry.1.topic,
            s.2 entry.2 < s.2 lightest + 2 := by
    intro entries
    induction entries with
    | nil => exact fun none => ⟨none,fun _ => nofun⟩
    | cons first rest ih =>
      intro best none
      obtain ⟨noneFirst,later⟩ := ih none
      obtain ⟨noneBest,narrow⟩ := improve_none noneFirst
      refine ⟨noneBest,fun entry among => ?_⟩
      cases List.mem_cons.mp among with
      | inl same => exact same ▸ narrow
      | inr inRest => exact later entry inRest
  obtain ⟨lightest,found⟩ := leastLoaded_of_subscriber s.2 subscriber
  have narrow := (every none).2 _ (mem_entries.mpr owns) lightest found
  have least := (lightest_least found).2 other subscriber
  dsimp only at narrow
  omega

lemma uniform_even (given : slot ∈ share (uniform members topics) memberId)
    (subscriber : other ∈ subscribers members slot.topic) :
    (share (uniform members topics) memberId).card <
      (share (uniform members topics) other).card + 2 := by
  rw [card_share,card_share,← settle_tallied,← settle_tallied]
  exact improvingMove_none settle_settled (mem_share_uniform.mp given) subscriber

/-! ### The last loop -/

def given (members : OrderedMap String MemberSpec) (topics : OrderedMap Nat Int) : Balance :=
  (slots topics).foldl (give members) (sticky members topics, counted (sticky members topics))

variable {state : Balance} {fuel : Nat}

lemma balance_of_settled (settled : improvingMove members state = none) (fuel : Nat) :
    balance members fuel state = state := by
  cases fuel with
  | zero => rfl
  | succ fuel => rw [balance,settled]

lemma balance_add (more : Nat) :
    balance members (fuel + more) s = balance members more (balance members fuel s) := by
  induction fuel generalizing s with
  | zero => rw [Nat.zero_add,balance]
  | succ fuel ih =>
    rw [Nat.succ_add,balance,balance]
    cases found : improvingMove members s with
    | none => exact (balance_of_settled found more).symm
    | some move => exact ih

lemma balance_ends (enough : squares members (given members topics).2 ≤ fuel) :
    balance members fuel (given members topics) = settle members topics := by
  obtain ⟨more,rfl⟩ := Nat.exists_eq_add_of_le enough
  rw [balance_add]
  exact balance_of_settled settle_settled more

/-! ### Once more -/

def again (members : OrderedMap String MemberSpec) (topics : OrderedMap Nat Int) :
    OrderedMap String MemberSpec :=
  members.mapValues fun memberId spec =>
    { spec with previous := share (uniform members topics) memberId }

lemma subscribers_again (topic : Nat) :
    subscribers (again members topics) topic = subscribers members topic := by
  rw [subscribers,subscribers,again]
  simp [OrderedMap.filter,OrderedMap.mapValues,List.filter_map,Function.comp_def]

lemma retains_again : Retains (again members topics) topics memberId slot ↔
      (settle members topics).1.get? slot = some memberId := by
  constructor
  · intro ⟨spec,found,kept⟩
    rw [again,get?_mapValues] at found
    obtain ⟨_,_,rfl⟩ := Option.map_eq_some_iff.mp found
    exact mem_share_uniform.mp (mem_retained.mp kept).1
  · intro owns
    obtain ⟨subscriber,exist⟩ := settle_owned.entitled owns
    obtain ⟨spec,found,subscribed⟩ := mem_subscribers.mp subscriber
    refine ⟨{ spec with previous := share (uniform members topics) memberId },?_,
      mem_retained.mpr ⟨mem_share_uniform.mpr owns,subscribed,exist⟩⟩
    rw [again,get?_mapValues,found]
    rfl

lemma sticky_again : sticky (again members topics) topics = (settle members topics).1 := by
  apply ext_get?
  intro slot
  apply Option.ext
  intro id
  constructor
  · exact fun owns => retains_again.mp (sticky_retained owns)
  · intro owns
    obtain ⟨holder,kept⟩ := Option.isSome_iff_exists.mp (sticky_keeps (retains_again.mpr owns))
    have same := (retains_again.mp (sticky_retained kept)).symm.trans owns
    rw [kept,same]

lemma leastLoaded_again (load : String → Nat) (topic : Nat) :
    leastLoaded (again members topics) load topic = leastLoaded members load topic := by
  rw [leastLoaded,leastLoaded,subscribers_again]

lemma given_again : given (again members topics) topics = settle members topics := by
  have same : ((settle members topics).1, counted (settle members topics).1) =
      settle members topics := Prod.ext rfl (funext fun _ => (settle_tallied _).symm)
  rw [given,sticky_again,same]
  refine List.foldlRecOn (motive := fun s => s = settle members topics) _ _ rfl ?_
  intro s same slot listed
  subst same
  unfold give
  split
  · rfl
  rename_i absent
  rw [leastLoaded_again]
  split
  · rfl
  rename_i lightest found
  exact absurd (settle_covers listed (leastLoaded_subscribes found)) absent

lemma settle_again : settle (again members topics) topics = settle members topics := by
  have same (load : String → Nat) : improve (again members topics) load = improve members load := by
    funext best entry
    rw [improve,improve,leastLoaded_again]
  have settled : improvingMove (again members topics) (settle members topics) = none := by
    rw [improvingMove,same]
    exact settle_settled
  have started : settle (again members topics) topics = balance (again members topics)
        (squares (again members topics) (given (again members topics) topics).2)
        (given (again members topics) topics) := rfl
  rw [started,given_again]
  exact balance_of_settled settled _

lemma uniform_again : uniform (again members topics) topics = uniform members topics := by
  have members : unassigned (again members topics) = unassigned members := by
    simp [unassigned,again,OrderedMap.mapValues]
  rw [uniform,uniform,settle_again,collect,collect,members]

theorem uniform_balanced_and_sticky (members : OrderedMap String MemberSpec)
    (topics : OrderedMap Nat Int) :
    (∃ rounds, ∀ fuel, rounds ≤ fuel →
      balance members fuel (given members topics) = settle members topics ∧
        improvingMove members (balance members fuel (given members topics)) = none) ∧
    (∀ memberId slot, slot ∈ share (uniform members topics) memberId →
      ∀ other ∈ subscribers members slot.topic, (share (uniform members topics) memberId).card <
          (share (uniform members topics) other).card + 2) ∧
    uniform (members.mapValues fun memberId spec =>
        { spec with previous := share (uniform members topics) memberId }) topics =
      uniform members topics := by
  refine ⟨⟨squares members (given members topics).2,fun fuel enough => ?_⟩,?_,uniform_again⟩
  · rw [balance_ends enough]
    exact ⟨rfl,settle_settled⟩
  · intro memberId slot held other subscriber
    exact uniform_even held subscriber

end Kodansu.Group

/-
The server-side assignors, `uniform` and `range`.

What both owe is stated once, by `Shared`: nobody is given a partition that is not there or
that it does not subscribe to, no partition is given to two members, and no partition that has
a subscriber is left out.  `range` leaves out the topics with more subscribers than an `i32`
counts.
-/

import Kodansu.Group.Documents

namespace Kodansu.Group

open Lib OrderedMap List Function

variable {ids : List String}

def uniformName : String := "uniform"

def rangeName : String := "range"

def isSupported (name : String) : Bool := name = uniformName || name = rangeName

structure MemberSpec where
  subscribed : Finset Nat
  previous : Partitions

def unassigned (members : OrderedMap String MemberSpec) : OrderedMap String Partitions :=
  members.mapValues (fun _ _ => ∅)

def subscribers (members : OrderedMap String MemberSpec) (topic : Nat) : List String :=
  (members.filter (fun _ spec => topic ∈ spec.subscribed)).entries.map Prod.fst

/-! ### Range -/

def stretch (topic : Nat) (next width : Int) : Partitions :=
  ((List.range width.toNat).map (fun (index : Nat) => (⟨topic, next + index⟩ : Slot))).toFinset

def handOut (topic : Nat) (quota extra : Int) : Nat → Int → List String →
    OrderedMap String Partitions → OrderedMap String Partitions
  | _, _, [], assigned => assigned
  | index, next, memberId :: rest, assigned =>
    let width := quota + if (index : Int) < extra then 1 else 0
    handOut topic quota extra (index + 1) (next + width) rest
      (if 0 < width then assigned.adjust memberId (· ∪ stretch topic next width) else assigned)

def rangeTopic (members : OrderedMap String MemberSpec) (assigned : OrderedMap String Partitions)
    (topic : Nat) (partitions : Int) : OrderedMap String Partitions :=
  let count := (subscribers members topic).length
  if i32Max < count then assigned
  else if count = 0 then assigned
  else
    handOut topic (partitions.tdiv count) (partitions.tmod count) 0 0 (subscribers members topic)
      assigned

def range (members : OrderedMap String MemberSpec) (topics : OrderedMap Nat Int) :
    OrderedMap String Partitions :=
  topics.entries.foldl (fun assigned topic => rangeTopic members assigned topic.1 topic.2)
    (unassigned members)

/-! ### Uniform -/

abbrev Owner := OrderedMap Slot String

def retained (topics : OrderedMap Nat Int) (spec : MemberSpec) : List Slot :=
  (ordered spec.previous).filter (fun slot =>
    (topics.get? slot.topic).any (fun count =>
      decide (slot.topic ∈ spec.subscribed) && decide (slot.partition < count)))

/-- Each member keeps what it held, unless an earlier member has it. -/
def sticky (members : OrderedMap String MemberSpec) (topics : OrderedMap Nat Int) : Owner :=
  members.entries.foldl (fun owner member =>
    (retained topics member.2).foldl (fun owner slot =>
      owner.upsert slot (fun held => held.getD member.1)) owner) .empty

def lighter (load : String → Nat) (best : Option String) (memberId : String) : Option String :=
  match best with
  | none => some memberId
  | some held =>
    if load memberId < load held ∨ load memberId = load held ∧ memberId < held then some memberId
    else some held

def leastLoaded (members : OrderedMap String MemberSpec) (load : String → Nat) (topic : Nat) :
    Option String :=
  (subscribers members topic).foldl (lighter load) none

abbrev Balance := Owner × (String → Nat)

def give (members : OrderedMap String MemberSpec) (state : Balance) (slot : Slot) : Balance :=
  if (state.1.get? slot).isSome then state
  else
    match leastLoaded members state.2 slot.topic with
    | none => state
    | some memberId =>
      (state.1.insert slot memberId, update state.2 memberId (state.2 memberId + 1))

def slots (topics : OrderedMap Nat Int) : List Slot :=
  topics.entries.flatMap (fun topic =>
    (List.range topic.2.toNat).map (fun (partition : Nat) => (⟨topic.1, partition⟩ : Slot)))

structure Move where
  gap : Nat
  slot : Slot
  source : String
  destination : String

def improve (members : OrderedMap String MemberSpec) (load : String → Nat) (best : Option Move)
    (entry : Slot × String) : Option Move :=
  match leastLoaded members load entry.1.topic with
  | none => best
  | some destination =>
    let gap := load entry.2 - load destination
    if 2 ≤ gap && best.all (fun held => held.gap < gap) then
      some ⟨gap, entry.1, entry.2, destination⟩
    else best

def improvingMove (members : OrderedMap String MemberSpec) (state : Balance) : Option Move :=
  state.1.entries.foldl (improve members state.2) none

def Move.apply (move : Move) (state : Balance) : Balance :=
  let lowered := update state.2 move.source (state.2 move.source - 1)
  (state.1.insert move.slot move.destination,
    update lowered move.destination (lowered move.destination + 1))

/-- The source loops until no move is left; `settle_settled` says that the sum of the squared
loads is enough for that. -/
def balance (members : OrderedMap String MemberSpec) : Nat → Balance → Balance
  | 0, state => state
  | fuel + 1, state =>
    match improvingMove members state with
    | none => state
    | some move => balance members fuel (move.apply state)

def squares (members : OrderedMap String MemberSpec) (load : String → Nat) : Nat :=
  ((members.entries.map Prod.fst).map (fun memberId => load memberId ^ 2)).sum

def counted (owner : Owner) (memberId : String) : Nat :=
  owner.entries.countP (fun entry => entry.2 = memberId)

def collect (members : OrderedMap String MemberSpec) (owner : Owner) :
    OrderedMap String Partitions :=
  owner.entries.foldl (fun assigned entry =>
    assigned.upsert entry.2 (fun held => insert entry.1 (held.getD ∅))) (unassigned members)

/-- Kept, then given to the least loaded, then balanced. -/
def settle (members : OrderedMap String MemberSpec) (topics : OrderedMap Nat Int) : Balance :=
  let kept := sticky members topics
  let given := (slots topics).foldl (give members) (kept, counted kept)
  balance members (squares members given.2) given

def uniform (members : OrderedMap String MemberSpec) (topics : OrderedMap Nat Int) :
    OrderedMap String Partitions :=
  collect members (settle members topics).1

def assign (assignor : String) (members : OrderedMap String MemberSpec)
    (topics : OrderedMap Nat Int) : OrderedMap String Partitions :=
  if assignor = rangeName then range members topics else uniform members topics

/-! ### What an assignment owes -/

def share (assigned : OrderedMap String Partitions) (memberId : String) : Partitions :=
  (assigned.get? memberId).getD ∅

structure Entitled (members : OrderedMap String MemberSpec) (topics : OrderedMap Nat Int)
    (memberId : String) (slot : Slot) : Prop where
  subscribes : memberId ∈ subscribers members slot.topic
  exists_ : ∃ count, topics.get? slot.topic = some count ∧ slot.partition < count

variable {members : OrderedMap String MemberSpec} {topic : Nat} {mid : String}

lemma mem_subscribers : mid ∈ subscribers members topic ↔
      ∃ spec, members.get? mid = some spec ∧ topic ∈ spec.subscribed := by
  constructor
  · intro member
    obtain ⟨⟨_,spec⟩,found,rfl⟩ := mem_map.mp member
    rw [mem_entries,get?_filter,Option.filter_eq_some_iff] at found
    exact ⟨spec,found.1,by simpa using found.2⟩
  · rintro ⟨spec,found,subscribed⟩
    refine mem_map.mpr ⟨(mid, spec),?_,rfl⟩
    rw [mem_entries,get?_filter,Option.filter_eq_some_iff]
    exact ⟨found,by simpa using subscribed⟩

section Range

variable {before assigned : OrderedMap String Partitions} {width quota extra partitions : Int}
  {slot : Slot} {other : String} {rest : List String} {index : Nat} {done : List (Nat × Int)}

lemma mem_stretch {next : Int} : slot ∈ stretch topic next width ↔
      slot.topic = topic ∧ next ≤ slot.partition ∧ slot.partition < next + width := by
  obtain ⟨owner,partition⟩ := slot
  simp only [stretch,mem_toFinset,mem_map,mem_range,Slot.mk.injEq]
  constructor
  · rintro ⟨index,below,same,rfl⟩
    exact ⟨same.symm,by omega,by omega⟩
  · rintro ⟨same,above,below⟩
    exact ⟨(partition - next).toNat,by omega,same.symm,by omega⟩

lemma mem_share_adjust {more : Partitions} (known : (assigned.get? mid).isSome) :
    slot ∈ share (assigned.adjust mid (· ∪ more)) other ↔
      slot ∈ share assigned other ∨ other = mid ∧ slot ∈ more := by
  unfold share
  rw [get?_adjust]
  by_cases same : other = mid
  · subst same
    obtain ⟨held,found⟩ := Option.isSome_iff_exists.mp known
    simp [found]
  · simp [same]

lemma isSome_adjust (id other : String) (change : Partitions → Partitions) :
    ((assigned.adjust id change).get? other).isSome = (assigned.get? other).isSome := by
  rw [get?_adjust]
  by_cases same : other = id
  · simp [same]
  · simp [same]

structure Handed (topic : Nat) (ids : List String) (before : OrderedMap String Partitions)
    (next : Int) (assigned : OrderedMap String Partitions) : Prop where
  known (memberId : String) : (assigned.get? memberId).isSome = (before.get? memberId).isSome
  kept {memberId : String} {slot : Slot} (held : slot ∈ share before memberId) :
    slot ∈ share assigned memberId
  added {memberId : String} {slot : Slot} (held : slot ∈ share assigned memberId) :
    slot ∈ share before memberId ∨
      memberId ∈ ids ∧ slot.topic = topic ∧ 0 ≤ slot.partition ∧ slot.partition < next
  single {left right : String} {partition : Int} (toLeft : ⟨topic, partition⟩ ∈ share assigned left)
    (toRight : ⟨topic, partition⟩ ∈ share assigned right) : left = right
  full {partition : Int} (nonneg : 0 ≤ partition) (below : partition < next) :
    ∃ memberId ∈ ids, ⟨topic, partition⟩ ∈ share assigned memberId

def Untouched (topic : Nat) (assigned : OrderedMap String Partitions) : Prop :=
  ∀ memberId partition, (⟨topic, partition⟩ : Slot) ∉ share assigned memberId

lemma Handed.start (untouched : Untouched topic before) (ids : List String) :
    Handed topic ids before 0 before where
  known _ := rfl
  kept held := held
  added held := Or.inl held
  single toLeft _ := absurd toLeft (untouched _ _)
  full nonneg below := absurd (Int.lt_of_le_of_lt nonneg below) (Int.lt_irrefl 0)

lemma Handed.more {next : Int} (handed : Handed topic ids before next assigned)
    (untouched : Untouched topic before) (member : mid ∈ ids)
    (known : (before.get? mid).isSome) (nonneg : 0 ≤ next) (pos : 0 < width) :
    Handed topic ids before (next + width)
      (assigned.adjust mid (· ∪ stretch topic next width)) := by
  have present : (assigned.get? mid).isSome := by
    rw [handed.known]
    exact known
  -- What was handed out before lies below `next`, what comes now does not.
  have old : ∀ {other partition}, (⟨topic,partition⟩ : Slot) ∈ share assigned other →
      partition < next := by
    intro other partition held
    rcases handed.added held with earlier | ⟨_,_,_,below⟩
    · exact absurd earlier (untouched _ _)
    · exact below
  constructor
  · intro other
    rw [isSome_adjust]
    exact handed.known other
  · intro other slot held
    exact (mem_share_adjust present).mpr (.inl (handed.kept held))
  · intro other slot held
    rcases (mem_share_adjust present).mp held with earlier | ⟨same,stretched⟩
    · rcases handed.added earlier with first | ⟨known,ofTopic,above,below⟩
      · exact .inl first
      · exact .inr ⟨known,ofTopic,above,by omega⟩
    · obtain ⟨ofTopic,above,below⟩ := mem_stretch.mp stretched
      subst same
      exact .inr ⟨member,ofTopic,by omega,below⟩
  · intro left right partition toLeft toRight
    rcases (mem_share_adjust present).mp toLeft with oldLeft | ⟨isLeft,newLeft⟩
    · rcases (mem_share_adjust present).mp toRight with oldRight | ⟨_,newRight⟩
      · exact handed.single oldLeft oldRight
      · have below := old oldLeft
        have above := (mem_stretch.mp newRight).2.1
        simp only at above
        omega
    · rcases (mem_share_adjust present).mp toRight with oldRight | ⟨isRight,_⟩
      · have below := old oldRight
        have above := (mem_stretch.mp newLeft).2.1
        simp only at above
        omega
      · rw [isLeft,isRight]
  · intro partition above below
    by_cases earlier : partition < next
    · obtain ⟨other,among,held⟩ := handed.full above earlier
      exact ⟨other,among,(mem_share_adjust present).mpr (.inl held)⟩
    · refine ⟨mid,member,(mem_share_adjust present).mpr (.inr ⟨rfl,?_⟩)⟩
      exact mem_stretch.mpr ⟨rfl,by simp only; omega,below⟩

/-- Where the stretches end, the first of which starts at `next` for the member at `index`. -/
def handedTo (quota extra : Int) (index : Nat) (next : Int) (count : Nat) : Int :=
  next + count * quota + (min ((index : Int) + count) extra - min (index : Int) extra)

lemma handedTo_succ (quota extra : Int) (index : Nat) (next : Int) (count : Nat) :
    handedTo quota extra (index + 1) (next + (quota + if (index : Int) < extra then 1 else 0)) count =
      handedTo quota extra index next (count + 1) := by
  unfold handedTo
  push_cast
  rw [Int.add_mul]
  split <;> omega

lemma Handed.handOut {next : Int} (quotaNonneg : 0 ≤ quota)
    (untouched : Untouched topic before) (known : ∀ id ∈ ids, (before.get? id).isSome)
    (among : ∀ id ∈ rest, id ∈ ids) (nonneg : 0 ≤ next)
    (handed : Handed topic ids before next assigned) :
    Handed topic ids before (handedTo quota extra index next rest.length)
      (handOut topic quota extra index next rest assigned) := by
  induction rest generalizing index next assigned with
  | nil =>
    have ended : handedTo quota extra index next 0 = next := by
      unfold handedTo
      simp
    rw [length_nil,ended]
    exact handed
  | cons id rest ih =>
    have member : id ∈ ids := among id (.head _)
    have later : ∀ other ∈ rest, other ∈ ids :=
      fun other inRest => among other (.tail _ inRest)
    rw [length_cons,← handedTo_succ]
    unfold Group.handOut
    have widthNonneg : 0 ≤ quota + if (index : Int) < extra then 1 else 0 := by
      split <;> omega
    generalize (quota + if (index : Int) < extra then 1 else 0) = width at widthNonneg
    apply ih later (by omega)
    split
    · next pos => exact handed.more untouched member (known _ member) nonneg pos
    have none : width = 0 := by omega
    rw [none,Int.add_zero]
    exact handed

lemma handOut_of_quota_neg (quotaNeg : quota ≤ 0) (extraNeg : extra ≤ 0) (index : Nat)
    (next : Int) : handOut topic quota extra index next ids assigned = assigned := by
  induction ids generalizing index next assigned with
  | nil => rfl
  | cons id rest ih =>
    unfold Group.handOut
    rw [ih,if_neg]
    split <;> omega

/-- A topic's step: its partitions are shared out among its subscribers, unless it has none or
too many of them. -/
lemma rangeTopic_handed (untouched : Untouched topic before)
    (known : ∀ id, (before.get? id).isSome = (members.get? id).isSome)
    (partitions : Int) :
    ∃ next, Handed topic (subscribers members topic) before next
        (rangeTopic members before topic partitions) ∧ next ≤ max partitions 0 ∧
      (subscribers members topic ≠ [] → ((subscribers members topic).length : Int) ≤ i32Max →
        partitions ≤ next) := by
  have start := Handed.start untouched (subscribers members topic)
  unfold rangeTopic
  dsimp only
  split_ifs with tooMany none
  · exact ⟨0,start,by omega,fun _ few => absurd tooMany (by omega)⟩
  · refine ⟨0,start,by omega,fun some => absurd (length_eq_zero_iff.mp none) some⟩
  · generalize counted : (subscribers members topic).length = count at tooMany none
    have pos : 0 < (count : Int) := by omega
    by_cases some : 0 ≤ partitions
    · have present : ∀ id ∈ subscribers members topic, (before.get? id).isSome := by
        intro id member
        obtain ⟨spec,found,_⟩ := mem_subscribers.mp member
        rw [known,found]
        rfl
      have quotaNonneg : 0 ≤ partitions.tdiv count := Int.tdiv_nonneg some (by omega)
      have handed : Handed topic (subscribers members topic) before
          (handedTo (partitions.tdiv count) (partitions.tmod count) 0 0
            (subscribers members topic).length)
          (handOut topic (partitions.tdiv count) (partitions.tmod count) 0 0
            (subscribers members topic) before) :=
        start.handOut quotaNonneg untouched present (fun _ member => member) (Int.le_refl 0)
      have whole : handedTo (partitions.tdiv count) (partitions.tmod count) 0 0 count =
          partitions := by
        have remainder := Int.tmod_lt_of_pos partitions pos
        have nonneg := Int.tmod_nonneg (b := count) some
        have division := Int.mul_tdiv_add_tmod partitions count
        unfold handedTo
        omega
      rw [counted,whole] at handed
      exact ⟨partitions,handed,by omega,fun _ _ => Int.le_refl _⟩
    · have quotaNeg : partitions.tdiv count ≤ 0 := by
        have nonneg := Int.tdiv_nonneg (a := -partitions) (b := count) (by omega) (by omega)
        rw [Int.neg_tdiv] at nonneg
        omega
      have extraNeg : partitions.tmod count ≤ 0 := by
        have nonneg := Int.tmod_nonneg (a := -partitions) (b := count) (by omega)
        rw [Int.neg_tmod] at nonneg
        omega
      rw [handOut_of_quota_neg quotaNeg extraNeg]
      exact ⟨0,start,by omega,fun _ _ => by omega⟩

structure Ranged (members : OrderedMap String MemberSpec) (done : List (Nat × Int))
    (assigned : OrderedMap String Partitions) : Prop where
  known (memberId : String) : (assigned.get? memberId).isSome = (members.get? memberId).isSome
  entitled {memberId : String} {slot : Slot} (held : slot ∈ share assigned memberId) :
    memberId ∈ subscribers members slot.topic ∧ 0 ≤ slot.partition ∧
      ∃ count, (slot.topic, count) ∈ done ∧ slot.partition < count
  single {left right : String} {slot : Slot} (toLeft : slot ∈ share assigned left)
    (toRight : slot ∈ share assigned right) : left = right
  full {memberId : String} {topic : Nat} {count partition : Int} (isDone : (topic, count) ∈ done)
    (subscriber : memberId ∈ subscribers members topic)
    (few : ((subscribers members topic).length : Int) ≤ i32Max) (nonneg : 0 ≤ partition)
    (below : partition < count) : ∃ memberId, ⟨topic, partition⟩ ∈ share assigned memberId

lemma share_unassigned (id : String) : share (unassigned members) id = ∅ := by
  unfold share unassigned
  rw [get?_mapValues]
  cases members.get? id with
  | none | some => rfl

lemma Ranged.start : Ranged members [] (unassigned members) where
  known memberId := by
    unfold unassigned
    rw [get?_mapValues,Option.isSome_map]
  entitled held := by
    rw [share_unassigned] at held
    cases held
  single toLeft := by
    rw [share_unassigned] at toLeft
    cases toLeft
  full isDone := by cases isDone

lemma Ranged.next
    (ranged : Ranged members done assigned) (new : ∀ entry ∈ done, entry.1 ≠ topic) :
    Ranged members (done ++ [(topic, partitions)]) (rangeTopic members assigned topic partitions) := by
  have untouched : Untouched topic assigned := by
    intro id partition held
    obtain ⟨_,_,count,isDone,_⟩ := ranged.entitled held
    exact new _ isDone rfl
  obtain ⟨next,handed,least,most⟩ := rangeTopic_handed untouched ranged.known partitions
  constructor
  · intro id
    rw [handed.known]
    exact ranged.known id
  · intro id slot held
    rcases handed.added held with earlier | ⟨subscriber,ofTopic,nonneg,below⟩
    · obtain ⟨subscriber,nonneg,count,isDone,below⟩ := ranged.entitled earlier
      exact ⟨subscriber,nonneg,count,mem_append_left _ isDone,below⟩
    · subst ofTopic
      exact ⟨subscriber,nonneg,partitions,by simp,by omega⟩
  · intro left right slot toLeft toRight
    by_cases ofTopic : slot.topic = topic
    · subst ofTopic
      exact handed.single toLeft toRight
    · rcases handed.added toLeft with oldLeft | ⟨_,same,_⟩
      · rcases handed.added toRight with oldRight | ⟨_,same,_⟩
        · exact ranged.single oldLeft oldRight
        · exact absurd same ofTopic
      · exact absurd same ofTopic
  · intro id other count partition isDone subscriber few nonneg below
    rcases mem_append.mp isDone with earlier | now
    · obtain ⟨owner,held⟩ := ranged.full earlier subscriber few nonneg below
      exact ⟨owner,handed.kept held⟩
    · cases mem_singleton.mp now
      have whole := most (ne_nil_of_mem subscriber) few
      obtain ⟨owner,_,held⟩ := handed.full nonneg (by omega : partition < next)
      exact ⟨owner,held⟩

lemma Ranged.foldl {rest : List (Nat × Int)} (ranged : Ranged members done assigned)
    (apart : (done ++ rest).Pairwise (fun earlier later => earlier.1 < later.1)) :
    Ranged members (done ++ rest)
      (rest.foldl (fun assigned topic => rangeTopic members assigned topic.1 topic.2) assigned) := by
  induction rest generalizing done assigned with
  | nil => simpa using ranged
  | cons topic rest ih =>
    have new : ∀ entry ∈ done, entry.1 ≠ topic.1 := by
      intro entry isDone
      exact ne_of_lt ((pairwise_append.mp apart).2.2 _ isDone _ (.head _))
    have step := ih (ranged.next new) (by simpa using apart)
    simpa using step

lemma range_ranged (topics : OrderedMap Nat Int) :
    Ranged members topics.entries (range members topics) :=
  Ranged.start.foldl topics.ascending

end Range

section Uniform

variable {σ : Type*} {α : Type*} {topics : OrderedMap Nat Int} {spec : MemberSpec} {slot : Slot}
  {owner : Owner} {step : σ → α → σ} {item : α} {load : String → Nat}

lemma mem_retained :
    slot ∈ retained topics spec ↔ slot ∈ spec.previous ∧ slot.topic ∈ spec.subscribed ∧
        ∃ count, topics.get? slot.topic = some count ∧ slot.partition < count := by
  unfold retained
  rw [mem_filter,mem_ordered,Option.any_eq_true]
  constructor
  · rintro ⟨previous,count,found,passes⟩
    rw [Bool.and_eq_true,decide_eq_true_eq,decide_eq_true_eq] at passes
    exact ⟨previous,passes.1,count,found,passes.2⟩
  · rintro ⟨previous,subscribed,count,found,below⟩
    exact ⟨previous,count,found,by simp [subscribed,below]⟩

lemma mem_slots : slot ∈ slots topics ↔
      0 ≤ slot.partition ∧ ∃ count, topics.get? slot.topic = some count ∧ slot.partition < count := by
  obtain ⟨topic,partition⟩ := slot
  simp only [slots,mem_flatMap,mem_map,mem_range,Slot.mk.injEq,Prod.exists,mem_entries]
  constructor
  · rintro ⟨_,count,found,index,below,rfl,rfl⟩
    exact ⟨by omega,count,found,by omega⟩
  · rintro ⟨nonneg,count,found,below⟩
    exact ⟨topic,count,found,partition.toNat,by omega,rfl,by omega⟩

/-- Where a partition with an owner comes from: the topics, or somebody's previous target. -/
def Origin (members : OrderedMap String MemberSpec) (topics : OrderedMap Nat Int) (slot : Slot) :
    Prop :=
  slot ∈ slots topics ∨ ∃ memberId spec, members.get? memberId = some spec ∧ slot ∈ spec.previous

structure Owned (members : OrderedMap String MemberSpec) (topics : OrderedMap Nat Int)
    (owner : Owner) : Prop where
  entitled {slot : Slot} {memberId : String} (owns : owner.get? slot = some memberId) :
    Entitled members topics memberId slot
  origin {slot : Slot} {memberId : String} (owns : owner.get? slot = some memberId) :
    Origin members topics slot

lemma Owned.insert (owned : Owned members topics owner)
    (entitled : Entitled members topics mid slot) (origin : Origin members topics slot) :
    Owned members topics (owner.insert slot mid) := by
  constructor
  · intro other holder owns
    rw [get?_insert] at owns
    split at owns
    · rename_i same
      subst same
      cases owns
      exact entitled
    · exact owned.entitled owns
  · intro other holder owns
    rw [get?_insert] at owns
    split at owns
    · rename_i same
      subst same
      exact origin
    · exact owned.origin owns

def Retains (members : OrderedMap String MemberSpec) (topics : OrderedMap Nat Int)
    (memberId : String) (slot : Slot) : Prop :=
  ∃ spec, members.get? memberId = some spec ∧ slot ∈ retained topics spec

lemma sticky_retained (owns : (sticky members topics).get? slot = some mid) :
    Retains members topics mid slot := by
  revert slot mid
  refine List.foldlRecOn (motive := fun owner : Owner => ∀ {slot mid},
    owner.get? slot = some mid → Retains members topics mid slot) members.entries _
    ?_ ?_
  · intro slot mid owns
    cases owns
  intro owner owned member isMember
  refine List.foldlRecOn (motive := fun owner : Owner => ∀ {slot mid},
    owner.get? slot = some mid → Retains members topics mid slot)
    (retained topics member.2) _ owned ?_
  intro owner owned kept isKept slot mid owns
  rw [get?_upsert] at owns
  split at owns
  · next same =>
    subst same
    cases held : owner.get? slot with
    | none =>
      rw [held] at owns
      cases owns
      exact ⟨member.2,mem_entries.mp isMember,isKept⟩
    | some holder =>
      rw [held] at owns
      cases owns
      exact owned held
  · exact owned owns

lemma sticky_owned : Owned members topics (sticky members topics) := by
  constructor
  · intro slot mid owns
    obtain ⟨spec,found,kept⟩ := sticky_retained owns
    obtain ⟨_,subscribed,exist⟩ := mem_retained.mp kept
    exact ⟨mem_subscribers.mpr ⟨spec,found,subscribed⟩,exist⟩
  · intro slot mid owns
    obtain ⟨spec,found,kept⟩ := sticky_retained owns
    exact .inr ⟨mid,spec,found,(mem_retained.mp kept).1⟩

lemma foldl_reaches (holds : σ → Prop) {items : List α}
    (kept : ∀ {s} other, holds s → holds (step s other)) (listed : item ∈ items)
    (reached : ∀ s, holds (step s item)) (s : σ) : holds (items.foldl step s) := by
  obtain ⟨before,after,rfl⟩ := append_of_mem listed
  rw [foldl_append,foldl_cons]
  exact List.foldlRecOn after step (reached _) (fun _ held other _ => kept other held)

lemma sticky_keeps (retains : Retains members topics mid slot) :
    ((sticky members topics).get? slot).isSome := by
  obtain ⟨spec,found,isKept⟩ := retains
  have kept : ∀ {owner : Owner} (other : Slot) (holder : String), (owner.get? slot).isSome →
      ((owner.upsert other (fun held => held.getD holder)).get? slot).isSome := by
    intro owner other holder held
    rw [get?_upsert]
    split
    · rfl
    · exact held
  apply foldl_reaches (fun owner : Owner => (owner.get? slot).isSome) _ (mem_entries.mpr found)
  · intro owner
    apply foldl_reaches (fun owner : Owner => (owner.get? slot).isSome)
      (fun other => kept other mid) isKept
    intro owner
    rw [get?_upsert,if_pos rfl]
    rfl
  · intro owner member held
    exact List.foldlRecOn (motive := fun owner : Owner => (owner.get? slot).isSome) _ _ held
      (fun _ held other _ => kept other member.1 held)

lemma lighter_or (load : String → Nat) (best : Option String) (id : String) :
    lighter load best id = some id ∨
      best.isSome ∧ lighter load best id = best := by
  cases best with
  | none => exact .inl rfl
  | some held =>
    unfold lighter
    dsimp only
    split
    · exact .inl rfl
    · exact .inr ⟨rfl,rfl⟩

lemma lightest_spec (load : String → Nat) (ids : List String) (best : Option String) :
    (∀ id, ids.foldl (lighter load) best = some id →
      best = some id ∨ id ∈ ids) ∧
    (ids.foldl (lighter load) best = none → best = none ∧ ids = []) := by
  induction ids generalizing best with
  | nil => exact ⟨fun _ found => .inl found,fun absent => ⟨absent,rfl⟩⟩
  | cons first rest ih =>
    obtain ⟨found,absent⟩ := ih (lighter load best first)
    constructor
    · intro id lightest
      rcases found id lightest with held | inRest
      · rcases lighter_or load best first with isFirst | ⟨_,isBest⟩
        · rw [isFirst] at held
          cases held
          exact .inr (.head _)
        · exact .inl (isBest ▸ held)
      · exact .inr (.tail _ inRest)
    · intro nobody
      obtain ⟨noBest,_⟩ := absent nobody
      rcases lighter_or load best first with isFirst | ⟨known,isBest⟩
      · rw [isFirst] at noBest
        cases noBest
      · rw [isBest] at noBest
        rw [noBest] at known
        cases known

lemma leastLoaded_subscribes (found : leastLoaded members load topic = some mid) :
    mid ∈ subscribers members topic := by
  rcases (lightest_spec load _ none).1 mid found with impossible | member
  · cases impossible
  · exact member

lemma leastLoaded_of_subscriber (load : String → Nat)
    (subscriber : mid ∈ subscribers members topic) :
    ∃ lightest, leastLoaded members load topic = some lightest := by
  apply Option.ne_none_iff_exists'.mp
  intro absent
  rw [((lightest_spec load _ none).2 absent).2] at subscriber
  cases subscriber

/-! The partitions nobody kept -/

variable {s : Balance} {other : Slot}

lemma give_owned (owned : Owned members topics s.1) (listed : slot ∈ slots topics) :
    Owned members topics (give members s slot).1 := by
  unfold give
  split
  · exact owned
  split
  · exact owned
  rename_i id found
  exact owned.insert ⟨leastLoaded_subscribes found,(mem_slots.mp listed).2⟩ (.inl listed)

lemma give_keeps (held : (s.1.get? other).isSome) :
    ((give members s slot).1.get? other).isSome := by
  unfold give
  split
  · exact held
  split
  · exact held
  rw [get?_insert]
  split
  · rfl
  · exact held

lemma give_gives (subscriber : mid ∈ subscribers members slot.topic) :
    ((give members s slot).1.get? slot).isSome := by
  unfold give
  split
  · next held => exact held
  obtain ⟨lightest,found⟩ := leastLoaded_of_subscriber s.2 subscriber
  rw [found,get?_insert,if_pos rfl]
  rfl

lemma given_gives {pending : List Slot} (subscriber : mid ∈ subscribers members slot.topic)
    (listed : slot ∈ pending) : ((pending.foldl (give members) s).1.get? slot).isSome := by
  apply foldl_reaches (fun s : Balance => (s.1.get? slot).isSome) _ listed
  · intro s
    exact give_gives subscriber
  · intro s other held
    exact give_keeps held

/-! Moves -/

/-- What the best move so far is: of a partition that the source owns, to a subscriber of its
topic with at least two fewer. -/
def Improves (members : OrderedMap String MemberSpec) (state : Balance) (move : Move) : Prop :=
  state.1.get? move.slot = some move.source ∧ move.destination ∈ subscribers members move.slot.topic ∧
    state.2 move.destination + 2 ≤ state.2 move.source

variable {move : Move} {memberId : String} {fuel : Nat} {assigned : OrderedMap String Partitions}
  {entry : Slot × String}

lemma improvingMove_improves (found : improvingMove members s = some move) :
    Improves members s move := by
  have every : ∀ move, improvingMove members s = some move → Improves members s move := by
    refine List.foldlRecOn
      (motive := fun best => ∀ move, best = some move → Improves members s move)
      s.1.entries _ nofun ?_
    intro best improves entry member move chosen
    unfold improve at chosen
    split at chosen
    · exact improves move chosen
    rename_i destination lightest
    dsimp only at chosen
    split at chosen
    · rename_i wider
      cases chosen
      rw [Bool.and_eq_true,decide_eq_true_eq] at wider
      refine ⟨mem_entries.mp member,leastLoaded_subscribes lightest,?_⟩
      dsimp only
      omega
    · exact improves move chosen
  exact every move found

lemma Improves.owned (improves : Improves members s move)
    (owned : Owned members topics s.1) : Owned members topics (move.apply s).1 := by
  obtain ⟨owns,subscriber,_⟩ := improves
  exact owned.insert ⟨subscriber,(owned.entitled owns).exists_⟩ (owned.origin owns)

lemma Move.apply_keeps (move : Move) (held : (s.1.get? other).isSome) :
    ((move.apply s).1.get? other).isSome := by
  unfold Move.apply
  rw [get?_insert]
  split
  · rfl
  · exact held

lemma balance_owned (fuel : Nat) (owned : Owned members topics s.1) :
    Owned members topics (balance members fuel s).1 := by
  induction fuel generalizing s with
  | zero => exact owned
  | succ fuel ih =>
    unfold balance
    split
    · exact owned
    · next move found => exact ih ((improvingMove_improves found).owned owned)

lemma balance_keeps (fuel : Nat) (held : (s.1.get? slot).isSome) :
    ((balance members fuel s).1.get? slot).isSome := by
  induction fuel generalizing s with
  | zero => exact held
  | succ fuel ih =>
    unfold balance
    split
    · exact held
    · next move _ => exact ih (move.apply_keeps held)

lemma sum_squares_update (distinct : ids.Nodup) (member : memberId ∈ ids) (load : String → Nat)
    (value : Nat) :
    (ids.map (fun id => update load memberId value id ^ 2)).sum + load memberId ^ 2 =
      (ids.map (fun id => load id ^ 2)).sum + value ^ 2 := by
  induction ids with
  | nil => cases member
  | cons first rest ih =>
    obtain ⟨new,restDistinct⟩ := nodup_cons.mp distinct
    rw [map_cons,map_cons,sum_cons,sum_cons]
    by_cases isFirst : memberId = first
    · subst isFirst
      have others : rest.map (fun id => update load memberId value id ^ 2) =
          rest.map (fun id => load id ^ 2) := by
        apply map_congr_left
        intro id inRest
        have differ : id ≠ memberId := fun same => new (same ▸ inRest)
        rw [update_of_ne differ]
      rw [others,update_self]
      omega
    · have inRest : memberId ∈ rest := (mem_cons.mp member).resolve_left isFirst
      have induction := ih restDistinct inRest
      rw [update_of_ne (Ne.symm isFirst)]
      omega

lemma squares_move_lt (improves : Improves members s move)
    (owned : Owned members topics s.1) :
    squares members (move.apply s).2 < squares members s.2 := by
  obtain ⟨owns,subscriber,gap⟩ := improves
  have isMember : ∀ {id topic}, id ∈ subscribers members topic →
      id ∈ members.entries.map Prod.fst := by
    intro id topic subscriber
    obtain ⟨spec,found,_⟩ := mem_subscribers.mp subscriber
    exact mem_map.mpr ⟨(id, spec),mem_entries.mpr found,rfl⟩
  have distinct : (members.entries.map Prod.fst).Nodup :=
    pairwise_map.mpr (members.ascending.imp (fun below => ne_of_lt below))
  have differ : move.destination ≠ move.source := by
    intro same
    rw [same] at gap
    omega
  have lowered := sum_squares_update distinct (isMember (owned.entitled owns).subscribes) s.2
    (s.2 move.source - 1)
  have raised := sum_squares_update distinct (isMember subscriber)
    (update s.2 move.source (s.2 move.source - 1)) (s.2 move.destination + 1)
  rw [update_of_ne differ] at raised
  unfold squares Move.apply
  dsimp only
  rw [update_of_ne differ]
  obtain ⟨more,wide⟩ := Nat.exists_eq_add_of_le gap
  rw [wide] at lowered raised ⊢
  have nearer : (s.2 move.destination + 2 + more - 1) ^ 2 + (s.2 move.destination + 1) ^ 2 <
      (s.2 move.destination + 2 + more) ^ 2 + s.2 move.destination ^ 2 := by
    rw [show s.2 move.destination + 2 + more - 1 = s.2 move.destination + 1 + more by omega]
    nlinarith
  omega

/-- The loop of the source has come to its end: no improving move is left. -/
lemma balance_settled (owned : Owned members topics s.1)
    (enough : squares members s.2 ≤ fuel) :
    improvingMove members (balance members fuel s) = none := by
  induction fuel generalizing s with
  | zero =>
    unfold balance
    cases found : improvingMove members s with
    | none => rfl
    | some move =>
      have less := squares_move_lt (improvingMove_improves found) owned
      omega
  | succ fuel ih =>
    unfold balance
    split
    · next none => exact none
    rename_i move found
    have improves := improvingMove_improves found
    have less := squares_move_lt improves owned
    exact ih (improves.owned owned) (by omega)

lemma mem_share_upsert :
    slot ∈ share (assigned.upsert entry.2 (fun held => insert entry.1 (held.getD ∅))) mid ↔
      slot ∈ share assigned mid ∨ entry = (slot, mid) := by
  unfold share
  rw [get?_upsert]
  obtain ⟨owned,owner⟩ := entry
  by_cases same : mid = owner
  · subst same
    simp [or_comm,eq_comm]
  · simp [same,Ne.symm same]

lemma mem_share_collect :
    slot ∈ share (collect members owner) memberId ↔ owner.get? slot = some memberId := by
  have every : ∀ (entries : List (Slot × String)) (assigned : OrderedMap String Partitions),
      slot ∈ share (entries.foldl (fun assigned entry =>
        assigned.upsert entry.2 (fun held => insert entry.1 (held.getD ∅))) assigned) memberId ↔
        slot ∈ share assigned memberId ∨ (slot, memberId) ∈ entries := by
    intro entries
    induction entries with
    | nil => simp
    | cons first rest ih =>
      intro assigned
      rw [foldl_cons,ih,mem_share_upsert,mem_cons,or_assoc]
      simp [eq_comm]
  unfold collect
  rw [every,share_unassigned,mem_entries]
  simp

lemma mem_share_uniform : slot ∈ share (uniform members topics) memberId ↔
      (settle members topics).1.get? slot = some memberId := mem_share_collect

lemma given_owned (load : String → Nat) :
    Owned members topics ((slots topics).foldl (give members) (sticky members topics, load)).1 := by
  refine List.foldlRecOn (motive := fun s => Owned members topics s.1) (slots topics)
    (give members) ?_ ?_
  · exact sticky_owned
  · intro s owned slot listed
    exact give_owned owned listed

lemma settle_owned : Owned members topics (settle members topics).1 :=
  balance_owned _ (given_owned _)

lemma settle_covers (listed : slot ∈ slots topics)
    (subscriber : mid ∈ subscribers members slot.topic) :
    ((settle members topics).1.get? slot).isSome :=
  balance_keeps _ (given_gives subscriber listed)

lemma settle_settled : improvingMove members (settle members topics) = none :=
  balance_settled (given_owned _) (Nat.le_refl _)

end Uniform

section Assign

variable {id assignor memberId left right : String} {topics : OrderedMap Nat Int} {slot : Slot}

lemma assign_entitled (given : slot ∈ share (assign assignor members topics) id) :
    Entitled members topics id slot := by
  unfold assign at given
  split at given
  · obtain ⟨subscriber,_,count,known,below⟩ := (range_ranged topics).entitled given
    exact ⟨subscriber,count,mem_entries.mp known,below⟩
  · exact settle_owned.entitled (mem_share_uniform.mp given)

lemma assign_nonneg (given : slot ∈ share (assign assignor members topics) memberId)
    (previous : ∀ memberId spec, members.get? memberId = some spec → ∀ slot ∈ spec.previous,
      0 ≤ slot.partition) : 0 ≤ slot.partition := by
  unfold assign at given
  split at given
  · exact ((range_ranged topics).entitled given).2.1
  rcases settle_owned.origin (mem_share_uniform.mp given) with listed | ⟨other,spec,found,held⟩
  · exact (mem_slots.mp listed).1
  · exact previous other spec found slot held

lemma assign_exclusive (toLeft : slot ∈ share (assign assignor members topics) left)
    (toRight : slot ∈ share (assign assignor members topics) right) : left = right := by
  unfold assign at toLeft toRight
  split at toLeft
  · rename_i isRange
    rw [if_pos isRange] at toRight
    exact (range_ranged topics).single toLeft toRight
  · rename_i isUniform
    rw [if_neg isUniform] at toRight
    rw [mem_share_uniform] at toLeft toRight
    rw [toLeft] at toRight
    exact Option.some.inj toRight

lemma assign_covers (listed : slot ∈ slots topics)
    (subscriber : mid ∈ subscribers members slot.topic)
    (few : (members.entries.length : Int) ≤ i32Max) :
    ∃ owner, slot ∈ share (assign assignor members topics) owner := by
  obtain ⟨nonneg,count,known,below⟩ := mem_slots.mp listed
  unfold assign
  split
  · have fewer : ((subscribers members slot.topic).length : Int) ≤ i32Max := by
      have filtered : (subscribers members slot.topic).length ≤ members.entries.length := by
        unfold subscribers
        rw [length_map]
        exact length_filter_le _ _
      omega
    exact (range_ranged topics).full (mem_entries.mpr known) subscriber fewer nonneg below
  · obtain ⟨owner,owns⟩ := Option.isSome_iff_exists.mp (settle_covers listed subscriber)
    exact ⟨owner,mem_share_uniform.mpr owns⟩

end Assign

end Kodansu.Group

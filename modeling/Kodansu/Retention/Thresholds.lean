/-
The retention threshold of every prefix, and whether expiry for age under it keeps to
the policy each topic has now.

Two derivations meet here.  A topic's records lie under the prefix pinned when it was
created, and the thresholds are keyed by the prefix its current policy derives.  The
law is stated over the records, and `retention_honoured_iff` says for which clusters
the two derivations agree well enough for it to hold.
-/

import Kodansu.Retention.Expire

namespace Kodansu.Retention

open Segment Index Lib OrderedMap List

/-! ### Topic configuration -/

def i64Max : Int := 2 ^ 63 - 1

def saturatingSub (left right : Int) : Int := max i64Min (min i64Max (left - right))

structure TopicConfig where
  name : String
  value : Option String
deriving DecidableEq

structure CreatableTopic where
  name : String
  numPartitions : Int
  configs : List TopicConfig
deriving DecidableEq

def mentions (text word : String) : Bool :=
  text.toList.tails.any (word.toList.isPrefixOf ·)

def natFromDigits : List Char → Option Nat
  | [] => none
  | digits =>
    if digits.all Char.isDigit then
      some (digits.foldl (fun value digit => 10 * value + (digit.toNat - '0'.toNat)) 0)
    else none

def i64FromStr (text : String) : Option Int :=
  let value := match text.toList with
    | '-' :: digits => (natFromDigits digits).map (fun value => -(value : Int))
    | '+' :: digits => (natFromDigits digits).map (fun value => (value : Int))
    | digits => (natFromDigits digits).map (fun value => (value : Int))
  value.filter (fun value => i64Min ≤ value ∧ value ≤ i64Max)

namespace CreatableTopic

def config (topic : CreatableTopic) (name : String) : Option String :=
  (topic.configs.find? (·.name = name)).bind TopicConfig.value

def cleanupPolicy (topic : CreatableTopic) : String := (topic.config "cleanup.policy").getD ""

def compact (topic : CreatableTopic) : Bool := mentions topic.cleanupPolicy "compact"

def compactOnly (topic : CreatableTopic) : Bool :=
  topic.compact && !mentions topic.cleanupPolicy "delete"

def defaultRetentionMs : Int := 7 * 24 * 60 * 60 * 1000

def effectiveRetentionMs (topic : CreatableTopic) : Int :=
  match (topic.config "retention.ms").bind i64FromStr with
  | some ms => if ms < 0 then i64Max else ms
  | none => defaultRetentionMs

end CreatableTopic

/-! ### Prefixes -/

/-- How topic names are grouped.  An empty separator is refused when it is read. -/
structure PrefixShape where
  prefixDepth : Nat
  prefixSeparator : String
  separates : prefixSeparator ≠ ""

/-- The parts of a text between occurrences of a separator, found from the left.  The
counter is how much of the occurrence being passed is left. -/
def splitParts (separator : List Char) : Nat → List Char → List (List Char)
  | _, [] => [[]]
  | skip + 1, _ :: rest => splitParts separator skip rest
  | 0, char :: rest =>
    if separator.isPrefixOf (char :: rest) then
      [] :: splitParts separator (separator.length - 1) rest
    else
      match splitParts separator 0 rest with
      | [] => [[char]]
      | part :: parts => (char :: part) :: parts

namespace PrefixShape

def prefixOf (shape : PrefixShape) (topic : String) : String :=
  let parts := splitParts shape.prefixSeparator.toList 0 topic.toList
  if shape.prefixDepth = 0 ∨ parts.length < shape.prefixDepth then topic
  else String.ofList (List.intercalate shape.prefixSeparator.toList (parts.take shape.prefixDepth))

def routedPrefix (shape : PrefixShape) (topic : String) (compacted : Bool) : String :=
  if compacted then topic else shape.prefixOf topic

end PrefixShape

/-- Where a topic's records live and what identifies them there. -/
structure TopicRouting where
  prefixName : String
  substreamId : Option Uuid
deriving DecidableEq

structure LiveTopic where
  topic : CreatableTopic
  routing : TopicRouting
deriving DecidableEq

/-- The topics that exist, and what one maintenance tick of a replica has read of them.
The index may be behind. -/
structure Cluster where
  shape : PrefixShape
  live : OrderedMap String LiveTopic
  topicsIndex : List CreatableTopic
  retiredPrefixes : OrderedMap String Int
  owned : Option (List String)

namespace Cluster

/-! ### The thresholds -/

def raise (retentionMs : Int) : Option Int → Int
  | none => retentionMs
  | some existing => if retentionMs > existing then retentionMs else existing

def routedOf (cluster : Cluster) (topic : CreatableTopic) : String :=
  cluster.shape.routedPrefix topic.name topic.compact

def retentionByPrefix (cluster : Cluster) : OrderedMap String Int :=
  cluster.topicsIndex.foldl (fun byPrefix topic =>
    if topic.compactOnly then byPrefix
    else (List.range topic.numPartitions.toNat).foldl (fun byPrefix _ =>
      byPrefix.upsert (cluster.routedOf topic) (raise topic.effectiveRetentionMs)) byPrefix)
    OrderedMap.empty

def exemptPrefixes (cluster : Cluster) : List String :=
  (cluster.topicsIndex.filter CreatableTopic.compactOnly).map fun topic =>
    cluster.shape.routedPrefix topic.name true

def withRetired (cluster : Cluster) : OrderedMap String Int :=
  cluster.retiredPrefixes.entries.foldl (fun byPrefix (prefixName, retentionMs) =>
    if (byPrefix.get? prefixName).isSome || cluster.exemptPrefixes.contains prefixName then byPrefix
    else byPrefix.insert prefixName retentionMs) cluster.retentionByPrefix

def owns (cluster : Cluster) (prefixName : String) : Bool :=
  cluster.owned.all (·.contains prefixName)

def segmentRetentionThresholds (cluster : Cluster) (nowMs : Int) : OrderedMap String Int :=
  (cluster.withRetired.retain cluster.owns).mapValues fun _ retentionMs =>
    saturatingSub nowMs retentionMs

/-! ### The law -/

def Holds (cluster : Cluster) (entry : SubstreamEntry) (topic : LiveTopic) : Prop :=
  cluster.live.get? entry.topic = some topic ∧ entry.topicId = topic.routing.substreamId

/-- When the newest record of a slice was written, by its timestamp where it has one. -/
def recordTime (cached : CachedSegment) (entry : SubstreamEntry) : Int :=
  if 0 < entry.maxTimestamp then entry.maxTimestamp else cached.lastModifiedMs

/-- The time up to which a topic's own retention lets its records go. -/
def expiresBefore (nowMs : Int) (topic : CreatableTopic) : Int :=
  saturatingSub nowMs topic.effectiveRetentionMs

/-- What a prefix may hold: slices of a live topic only under its pin, and, unless
`mixed`, no slice without timestamps beside one with. -/
structure Layout (cluster : Cluster) (mixed : Bool) (prefixName : String) (index : PrefixIndex) :
    Prop where
  pinned : ∀ seq cached, index.segments.get? seq = some cached →
    ∀ entry ∈ cached.footer.entries, ∀ topic, cluster.Holds entry topic →
      topic.routing.prefixName = prefixName
  stamped : mixed = false → ∀ seq cached, index.segments.get? seq = some cached →
    ∀ entry ∈ cached.footer.entries, 0 < newest cached → 0 < entry.maxTimestamp
  typed : ∀ seq cached, index.segments.get? seq = some cached → i64Min ≤ cached.lastModifiedMs

/-- No record of a live topic goes for age while its own policy keeps it. -/
def Honours (cluster : Cluster) (nowMs : Int) (mixed : Bool) : Prop :=
  ∀ prefixName thresholdMs,
    (cluster.segmentRetentionThresholds nowMs).get? prefixName = some thresholdMs →
    ∀ index floors, cluster.Layout mixed prefixName index →
    ∀ seq ∈ (expirePrefixSegments floors thresholdMs index).aged,
    ∀ cached, index.segments.get? seq = some cached →
    ∀ entry ∈ cached.footer.entries, ∀ topic, cluster.Holds entry topic →
      topic.topic.compactOnly = false ∧ recordTime cached entry < expiresBefore nowMs topic.topic

/-- An indexed topic that gives the prefix its retention. -/
def Occupies (cluster : Cluster) (topic : CreatableTopic) (prefixName : String) : Prop :=
  topic ∈ cluster.topicsIndex ∧ topic.compactOnly = false ∧ 0 < topic.numPartitions ∧
    cluster.routedOf topic = prefixName

/-- The retention in force for a prefix: the greatest of its occupants' or, without an
occupant, its marker's. -/
inductive Governs (cluster : Cluster) (prefixName : String) : Int → Prop
  | occupied (topic : CreatableTopic) (occupies : cluster.Occupies topic prefixName)
      (greatest : ∀ other, cluster.Occupies other prefixName →
        other.effectiveRetentionMs ≤ topic.effectiveRetentionMs) :
      Governs cluster prefixName topic.effectiveRetentionMs
  | retired (retentionMs : Int) (vacant : ∀ topic, ¬cluster.Occupies topic prefixName)
      (unexempt : prefixName ∉ cluster.exemptPrefixes)
      (marked : cluster.retiredPrefixes.get? prefixName = some retentionMs) :
      Governs cluster prefixName retentionMs

/-- Each live topic is spared by the retention in force where its records lie. -/
def Spares (cluster : Cluster) (nowMs : Int) (mixed : Bool) : Prop :=
  ∀ name topic, cluster.live.get? name = some topic →
    ∀ retentionMs, cluster.Governs topic.routing.prefixName retentionMs →
    cluster.owns topic.routing.prefixName = true →
    if topic.topic.compactOnly then saturatingSub nowMs retentionMs = i64Min
    else saturatingSub nowMs retentionMs ≤ expiresBefore nowMs topic.topic ∧
      (mixed = true → saturatingSub nowMs retentionMs ≤ 1)

/-! ### The thresholds are those in force -/

def shares (cluster : Cluster) : List (String × Int) :=
  cluster.topicsIndex.flatMap fun topic =>
    if topic.compactOnly then []
    else (List.range topic.numPartitions.toNat).map fun _ =>
      (cluster.routedOf topic, topic.effectiveRetentionMs)

lemma retentionByPrefix_shares (cluster : Cluster) :
    cluster.retentionByPrefix = cluster.shares.foldl
      (fun byPrefix share => byPrefix.upsert share.1 (raise share.2)) OrderedMap.empty := by
  unfold retentionByPrefix shares
  rw [foldl_flatMap]
  congr 1
  funext byPrefix topic
  split
  · rfl
  · rw [foldl_map]

variable {cluster : Cluster} {entries : List SubstreamEntry} {prefixName : String}
  {retentionMs nowMs thresholdMs : Int}

lemma mem_shares : (prefixName, retentionMs) ∈ cluster.shares ↔
      ∃ topic, cluster.Occupies topic prefixName ∧ topic.effectiveRetentionMs = retentionMs := by
  unfold shares Occupies
  rw [mem_flatMap]
  constructor
  · rintro ⟨topic,indexed,share⟩
    cases policy : topic.compactOnly with
    | true => simp [policy] at share
    | false =>
      simp only [policy,Bool.false_eq_true,if_false,mem_map,mem_range,Prod.mk.injEq] at share
      obtain ⟨partition,below,routed,retention⟩ := share
      exact ⟨topic,⟨indexed,policy,by omega,routed⟩,retention⟩
  · rintro ⟨topic,⟨indexed,policy,partitions,routed⟩,retention⟩
    refine ⟨topic,indexed,?_⟩
    simp only [policy,Bool.false_eq_true,if_false,mem_map,mem_range,Prod.mk.injEq]
    exact ⟨0,by omega,routed,retention⟩

lemma get?_foldl_raise (shares : List (String × Int)) (byPrefix : OrderedMap String Int)
    (prefixName : String) :
    (shares.foldl (fun byPrefix share => byPrefix.upsert share.1 (raise share.2)) byPrefix).get?
        prefixName =
      ((shares.filter (·.1 = prefixName)).map Prod.snd).foldl
        (fun held retentionMs => some (raise retentionMs held)) (byPrefix.get? prefixName) := by
  induction shares generalizing byPrefix with
  | nil => rfl
  | cons share shares ih =>
    rw [foldl_cons,ih,get?_upsert]
    by_cases same : share.1 = prefixName
    · rw [filter_cons_of_pos (by simpa using same),if_pos same.symm,same]
      rfl
    · rw [filter_cons_of_neg (by simpa using same),if_neg (Ne.symm same)]

lemma le_raise (retentionMs : Int) (held : Option Int) :
    retentionMs ≤ raise retentionMs held ∧ ∀ existing ∈ held, existing ≤ raise retentionMs held := by
  cases held with
  | none => simp [raise]
  | some existing =>
    simp only [raise,Option.mem_some_iff]
    constructor
    · split <;> omega
    · intro other same
      split <;> omega

lemma raise_eq (retentionMs : Int) (held : Option Int) :
    raise retentionMs held = retentionMs ∨ held = some (raise retentionMs held) := by
  cases held with
  | none => exact .inl rfl
  | some existing =>
    simp only [raise]
    split
    · exact .inl rfl
    · exact .inr rfl

lemma foldl_raise_greatest (retentions : List Int) (held : Option Int) :
    match retentions.foldl (fun held retentionMs => some (raise retentionMs held)) held with
    | none => retentions = [] ∧ held = none
    | some greatest => (greatest ∈ retentions ∨ held = some greatest) ∧
        (∀ retentionMs ∈ retentions, retentionMs ≤ greatest) ∧ ∀ existing ∈ held, existing ≤ greatest := by
  induction retentions generalizing held with
  | nil =>
    cases held with
    | none => exact ⟨rfl,rfl⟩
    | some existing => simp
  | cons retentionMs rest ih =>
    have raised := ih (some (raise retentionMs held))
    rw [foldl_cons]
    split at raised
    · simp at raised
    obtain ⟨reached,above,aboveHeld⟩ := raised
    have aboveRaised := aboveHeld _ rfl
    obtain ⟨own,existing⟩ := le_raise retentionMs held
    refine ⟨?_,?_,fun other isHeld => le_trans (existing other isHeld) aboveRaised⟩
    · cases reached with
      | inl inRest => exact .inl (.tail _ inRest)
      | inr isRaised =>
        rw [Option.some.injEq] at isRaised
        cases raise_eq retentionMs held with
        | inl isNew => exact .inl (by rw [← isRaised,isNew]; exact .head _)
        | inr isHeld => exact .inr (isRaised ▸ isHeld)
    · intro other mem
      cases mem_cons.mp mem with
      | inl isFirst => exact isFirst ▸ le_trans own aboveRaised
      | inr inRest => exact above other inRest

lemma mem_sharesOf : retentionMs ∈ (cluster.shares.filter (·.1 = prefixName)).map Prod.snd ↔
      ∃ topic, cluster.Occupies topic prefixName ∧ topic.effectiveRetentionMs = retentionMs := by
  rw [← mem_shares,mem_map]
  constructor
  · rintro ⟨⟨_,_⟩,mem,rfl⟩
    obtain ⟨inShares,same⟩ := mem_filter.mp mem
    rw [← of_decide_eq_true same]
    exact inShares
  · intro mem
    exact ⟨_,mem_filter.mpr ⟨mem,by simp⟩,rfl⟩

lemma retentionByPrefix_greatest (cluster : Cluster) (prefixName : String) :
    match cluster.retentionByPrefix.get? prefixName with
    | none => ∀ topic, ¬cluster.Occupies topic prefixName
    | some retentionMs => ∃ topic, cluster.Occupies topic prefixName ∧
        topic.effectiveRetentionMs = retentionMs ∧
        ∀ other, cluster.Occupies other prefixName → other.effectiveRetentionMs ≤ retentionMs := by
  rw [retentionByPrefix_shares,get?_foldl_raise,get?_empty]
  have ended := foldl_raise_greatest ((cluster.shares.filter (·.1 = prefixName)).map Prod.snd) none
  split at ended
  · intro topic occupies
    have member := mem_sharesOf.mpr ⟨topic,occupies,rfl⟩
    rw [ended.1] at member
    exact absurd member not_mem_nil
  · obtain ⟨reached,above,-⟩ := ended
    cases reached with
    | inr held => cases held
    | inl member =>
      obtain ⟨topic,occupies,same⟩ := mem_sharesOf.mp member
      exact ⟨topic,occupies,same,fun other occupies =>
        above _ (mem_sharesOf.mpr ⟨other,occupies,rfl⟩)⟩

lemma get?_foldl_offer (exempt : String → Bool) (markers : List (String × Int))
    (byPrefix : OrderedMap String Int) (prefixName : String) :
    (markers.foldl (fun byPrefix (marked, retentionMs) =>
      if (byPrefix.get? marked).isSome || exempt marked then byPrefix
      else byPrefix.insert marked retentionMs) byPrefix).get? prefixName =
      (byPrefix.get? prefixName).or
        (if exempt prefixName then none else markers.lookup prefixName) := by
  induction markers generalizing byPrefix with
  | nil => simp
  | cons marker markers ih =>
    obtain ⟨marked,retentionMs⟩ := marker
    rw [foldl_cons,ih,lookup_cons]
    by_cases same : prefixName = marked
    · subst same
      cases held : byPrefix.get? prefixName with
      | some existing => simp [held]
      | none =>
        cases spared : exempt prefixName with
        | true => simp [held,spared]
        | false => simp [held,spared,get?_insert_self]
    · rw [beq_false_of_ne same]
      dsimp only
      split
      · rfl
      · rw [get?_insert_ne byPrefix retentionMs same]

lemma withRetired_get? (cluster : Cluster) (prefixName : String) :
    cluster.withRetired.get? prefixName = (cluster.retentionByPrefix.get? prefixName).or
      (if cluster.exemptPrefixes.contains prefixName then none
        else cluster.retiredPrefixes.get? prefixName) :=
  get?_foldl_offer cluster.exemptPrefixes.contains cluster.retiredPrefixes.entries
    cluster.retentionByPrefix prefixName

lemma withRetired_governs : cluster.withRetired.get? prefixName = some retentionMs ↔
      cluster.Governs prefixName retentionMs := by
  rw [withRetired_get?]
  have occupants := cluster.retentionByPrefix_greatest prefixName
  cases indexed : cluster.retentionByPrefix.get? prefixName with
  | some existing =>
    rw [indexed] at occupants
    obtain ⟨topic,occupies,rfl,greatest⟩ := occupants
    simp only [Option.some_or,Option.some.injEq]
    constructor
    · rintro rfl
      exact .occupied topic occupies greatest
    · intro governs
      cases governs with
      | occupied other otherOccupies otherGreatest =>
        exact le_antisymm (otherGreatest topic occupies) (greatest other otherOccupies)
      | retired _ vacant => exact absurd occupies (vacant topic)
  | none =>
    rw [indexed] at occupants
    simp only [Option.none_or]
    constructor
    · intro marked
      split at marked
      · cases marked
      · next unexempt => exact .retired retentionMs occupants (by simpa using unexempt) marked
    · intro governs
      cases governs with
      | occupied topic occupies => exact absurd occupies (occupants topic)
      | retired _ vacant unexempt marked => rw [if_neg (by simpa using unexempt),marked]

lemma thresholds_get? :
    (cluster.segmentRetentionThresholds nowMs).get? prefixName = some thresholdMs ↔
      ∃ retentionMs, cluster.Governs prefixName retentionMs ∧ cluster.owns prefixName = true ∧
        saturatingSub nowMs retentionMs = thresholdMs := by
  unfold segmentRetentionThresholds
  rw [get?_mapValues,get?_retain,Option.map_eq_some_iff]
  constructor
  · rintro ⟨retentionMs,held,rfl⟩
    split at held
    · next mine => exact ⟨retentionMs,withRetired_governs.mp held,mine,rfl⟩
    · cases held
  · rintro ⟨retentionMs,governs,mine,rfl⟩
    exact ⟨retentionMs,by rw [if_pos mine,withRetired_governs.mpr governs],rfl⟩

/-! ### The condition suffices -/

lemma i64Min_le_saturatingSub (left right : Int) : i64Min ≤ saturatingSub left right :=
  le_max_left _ _

variable {entry : SubstreamEntry} {cached : CachedSegment} {mixed : Bool}

lemma le_newest (mem : entry ∈ cached.footer.entries) :
    entry.maxTimestamp ≤ newest cached := by
  unfold newest
  have stamped : entry.maxTimestamp ∈ cached.footer.entries.map SubstreamEntry.maxTimestamp :=
    mem_map_of_mem mem
  cases greatest : (cached.footer.entries.map SubstreamEntry.maxTimestamp).max? with
  | none =>
    rw [max?_eq_none_iff] at greatest
    rw [greatest] at stamped
    exact absurd stamped not_mem_nil
  | some value => exact (max?_eq_some_iff.mp greatest).2 _ stamped

lemma i64Min_le_ageMs (typed : i64Min ≤ cached.lastModifiedMs) : i64Min ≤ ageMs cached := by
  unfold ageMs
  split
  · next pos => exact le_trans (by decide) (le_of_lt pos)
  · exact typed

/-- A slice is no younger than its segment is held to be, unless the segment is judged by
other slices' timestamps. -/
lemma recordTime_le_ageMs (mem : entry ∈ cached.footer.entries)
    (stamped : 0 < newest cached → 0 < entry.maxTimestamp) :
    recordTime cached entry ≤ ageMs cached := by
  have below := le_newest mem
  unfold recordTime ageMs
  by_cases pos : 0 < newest cached
  · rw [if_pos pos,if_pos (stamped pos)]
    exact below
  · rw [if_neg pos,if_neg (by omega)]

lemma Spares.honours (spares : cluster.Spares nowMs mixed) : cluster.Honours nowMs mixed := by
  intro prefixName thresholdMs threshold index floors layout seq taken cached found entry mem
    topic holds
  obtain ⟨retentionMs,governs,mine,rfl⟩ := thresholds_get?.mp threshold
  obtain ⟨aged,foundAged,past⟩ := aged_past taken
  rw [found,Option.some.injEq] at foundAged
  subst foundAged
  have under := layout.pinned seq cached found entry mem topic holds
  have spared := spares entry.topic topic holds.1 retentionMs (under ▸ governs) (under ▸ mine)
  cases policy : topic.topic.compactOnly with
  | true =>
    rw [if_pos policy] at spared
    rw [spared] at past
    exact absurd (i64Min_le_ageMs (layout.typed seq cached found)) (not_le_of_gt past)
  | false =>
    rw [if_neg (by simp [policy])] at spared
    obtain ⟨bound,unmixed⟩ := spared
    refine ⟨rfl,lt_of_le_of_lt (recordTime_le_ageMs mem ?_) (lt_of_lt_of_le past bound)⟩
    intro pos
    cases mixed with
    | false => exact layout.stamped rfl seq cached found entry mem pos
    | true =>
      -- A threshold of at most one has no pos timestamp behind it.
      rw [ageMs,if_pos pos] at past
      have := unmixed rfl
      omega

/-! ### The condition is needed -/

def slice (name : String) (topic : LiveTopic) (partition maxTimestamp : Int) : SubstreamEntry :=
  { topic := name
    topicId := topic.routing.substreamId
    partition
    baseOffset := 0
    recordCount := 1
    byteStart := 0
    byteLen := 1
    maxTimestamp
    producers := [] }

def soleSegment (entries : List SubstreamEntry) (lastModifiedMs : Int) : PrefixIndex :=
  ⟨OrderedMap.empty.insert 0 ⟨⟨0, 0, entries⟩, lastModifiedMs⟩⟩

variable {lastModifiedMs : Int} {seq : Nat} {topic : LiveTopic} {name : String}

lemma soleSegment_get?
    (found : (soleSegment entries lastModifiedMs).segments.get? seq = some cached) :
    cached = ⟨⟨0, 0, entries⟩, lastModifiedMs⟩ := by
  unfold soleSegment at found
  rw [get?_insert] at found
  split at found
  · exact (Option.some.inj found).symm
  · cases found

lemma fullyTruncated_unknown (cached : CachedSegment) :
    fullyTruncated (fun _ => none) cached = false := by
  unfold fullyTruncated
  cases cached.footer.entries with
  | nil => rfl
  | cons entry rest => simp [sliceTruncated]

lemma Honours.soleSegment (honours : cluster.Honours nowMs mixed)
    (threshold : (cluster.segmentRetentionThresholds nowMs).get? prefixName = some thresholdMs)
    (layout : cluster.Layout mixed prefixName (soleSegment entries lastModifiedMs))
    (past : ageMs ⟨⟨0, 0, entries⟩, lastModifiedMs⟩ < thresholdMs) (mem : entry ∈ entries)
    (holds : cluster.Holds entry topic) :
    topic.topic.compactOnly = false ∧
      recordTime ⟨⟨0, 0, entries⟩, lastModifiedMs⟩ entry < expiresBefore nowMs topic.topic := by
  have found : (Cluster.soleSegment entries lastModifiedMs).segments.get? 0 =
      some ⟨⟨0,0,entries⟩,lastModifiedMs⟩ := get?_insert_self _ _ _
  have taken : 0 ∈ (expirePrefixSegments (fun _ => none) thresholdMs
      (Cluster.soleSegment entries lastModifiedMs)).aged := by
    apply aged_of_all _ found
    intro seq cached isFound
    rw [soleSegment_get? isFound]
    exact ⟨fullyTruncated_unknown _,past⟩
  exact honours prefixName thresholdMs threshold _ _ layout 0 taken _ found entry mem topic holds

lemma slice_holds (isLive : cluster.live.get? name = some topic) (partition maxTimestamp : Int) :
    cluster.Holds (slice name topic partition maxTimestamp) topic :=
  ⟨isLive,rfl⟩

lemma slices_layout (isLive : cluster.live.get? name = some topic)
    (ofTopic : ∀ entry ∈ entries, entry.topic = name) (typed : i64Min ≤ lastModifiedMs)
    (stamped : mixed = false → ∀ entry ∈ entries, 0 < newest ⟨⟨0, 0, entries⟩, lastModifiedMs⟩ → 0 <
      entry.maxTimestamp) :
    cluster.Layout mixed topic.routing.prefixName (soleSegment entries lastModifiedMs) where
  pinned := by
    intro seq cached found entry mem other holds
    rw [soleSegment_get? found] at mem
    have same := holds.1
    rw [ofTopic entry mem,isLive,Option.some.injEq] at same
    rw [same]
  stamped := by
    intro unmixed seq cached found entry mem
    rw [soleSegment_get? found] at mem ⊢
    exact stamped unmixed entry mem
  typed := by
    intro seq cached found
    rw [soleSegment_get? found]
    exact typed

lemma Honours.unstamped (honours : cluster.Honours nowMs mixed)
    (isLive : cluster.live.get? name = some topic)
    (threshold : (cluster.segmentRetentionThresholds nowMs).get? topic.routing.prefixName = some
      thresholdMs) (above : i64Min < thresholdMs) :
    topic.topic.compactOnly = false ∧ thresholdMs ≤ expiresBefore nowMs topic.topic := by
  have old : newest ⟨⟨0,0,[slice name topic 0 0]⟩,thresholdMs - 1⟩ = 0 := rfl
  have layout : cluster.Layout mixed topic.routing.prefixName
      (Cluster.soleSegment [slice name topic 0 0] (thresholdMs - 1)) := by
    apply slices_layout isLive
    · intro entry mem
      rw [mem_singleton.mp mem]
      rfl
    · omega
    · intro _ _ _ pos
      exact absurd pos (lt_irrefl 0)
  have past : ageMs ⟨⟨0,0,[slice name topic 0 0]⟩,thresholdMs - 1⟩ < thresholdMs := by
    rw [ageMs,old,if_neg (lt_irrefl 0)]
    dsimp only
    omega
  have kept := honours.soleSegment threshold layout past (.head _) (slice_holds isLive 0 0)
  have time : recordTime ⟨⟨0,0,[slice name topic 0 0]⟩,thresholdMs - 1⟩ (slice name topic 0 0) =
      thresholdMs - 1 := rfl
  exact ⟨kept.1,by omega⟩

lemma Honours.beside (honours : cluster.Honours nowMs true)
    (isLive : cluster.live.get? name = some topic)
    (threshold : (cluster.segmentRetentionThresholds nowMs).get? topic.routing.prefixName = some
      thresholdMs) : thresholdMs ≤ 1 := by
  by_contra above
  let entries := [slice name topic 0 0, slice name topic 1 1]
  have stampedOne : newest ⟨⟨0,0,entries⟩,expiresBefore nowMs topic.topic⟩ = 1 := rfl
  have layout : cluster.Layout true topic.routing.prefixName
      (Cluster.soleSegment entries (expiresBefore nowMs topic.topic)) := by
    apply slices_layout isLive
    · intro entry mem
      simp only [entries,mem_cons,not_mem_nil,or_false] at mem
      cases mem with
      | inl isFirst => rw [isFirst]; rfl
      | inr isSecond => rw [isSecond]; rfl
    · exact i64Min_le_saturatingSub _ _
    · exact fun unmixed => absurd unmixed (by decide)
  have past : ageMs ⟨⟨0,0,entries⟩,expiresBefore nowMs topic.topic⟩ < thresholdMs := by
    rw [ageMs,stampedOne,if_pos Int.one_pos]
    omega
  have kept := honours.soleSegment threshold layout past (.head _) (slice_holds isLive 0 0)
  exact lt_irrefl _ kept.2

lemma Honours.spares (honours : cluster.Honours nowMs mixed) : cluster.Spares nowMs mixed := by
  intro name topic isLive retentionMs governs mine
  have threshold : (cluster.segmentRetentionThresholds nowMs).get? topic.routing.prefixName =
      some (saturatingSub nowMs retentionMs) :=
    thresholds_get?.mpr ⟨retentionMs,governs,mine,rfl⟩
  have least := i64Min_le_saturatingSub nowMs retentionMs
  cases policy : topic.topic.compactOnly with
  | true =>
    by_contra above
    have kept := honours.unstamped isLive threshold (lt_of_le_of_ne least (Ne.symm above))
    rw [policy] at kept
    exact absurd kept.1 (by decide)
  | false =>
    constructor
    · by_cases above : i64Min < saturatingSub nowMs retentionMs
      · exact (honours.unstamped isLive threshold above).2
      · exact le_trans (not_lt.mp above) (i64Min_le_saturatingSub _ _)
    · rintro rfl
      exact honours.beside isLive threshold

/-- Expiry for age keeps to every live topic's own policy exactly where the retention in
force under each topic's pin spares that topic. -/
theorem retention_honoured_iff (cluster : Cluster) (nowMs : Int) (mixed : Bool) :
    cluster.Honours nowMs mixed ↔ cluster.Spares nowMs mixed :=
  ⟨Honours.spares,Spares.honours⟩

/-! ### A policy altered after creation -/

def connectorShape : PrefixShape := ⟨1, ".", by decide⟩

/-- Created with the default policy, pinned with its siblings, compacted since. -/
def altered : LiveTopic :=
  { topic := ⟨"orders.state", 1, [⟨"cleanup.policy", some "compact"⟩]⟩
    routing := ⟨"orders", none⟩ }

def sibling : LiveTopic :=
  { topic := ⟨"orders.events", 1, [⟨"cleanup.policy", some "delete"⟩, ⟨"retention.ms", some "1000"⟩]⟩
    routing := ⟨"orders", none⟩ }

def sharedPrefix : Cluster :=
  { shape := connectorShape
    live := (OrderedMap.empty.insert "orders.events" sibling).insert "orders.state" altered
    topicsIndex := [sibling.topic, altered.topic]
    retiredPrefixes := OrderedMap.empty
    owned := none }

/-- The altered topic's exemption is for its own name, and its records stay with the
sibling's. -/
theorem alteredPolicy_expires : ¬sharedPrefix.Honours 1000000 false := by
  intro honours
  have threshold : (sharedPrefix.segmentRetentionThresholds 1000000).get? "orders" =
      some 999000 := by decide +kernel
  have isLive : sharedPrefix.live.get? "orders.state" = some altered := by decide +kernel
  have kept := honours.unstamped isLive threshold (by decide)
  exact absurd kept.1 (by decide +kernel)

end Cluster

end Kodansu.Retention

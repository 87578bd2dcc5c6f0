/-
Finite maps kept in key order.  The entries are an ascending list, so that iterating
over a map, reading its last entry and looking a key up all speak of the same data.
-/

import Mathlib

namespace Kodansu.Lib

open List

variable {κ α : Type} [LinearOrder κ]

/-- A map from ordered keys, as the list of its entries in ascending key order. -/
structure OrderedMap (κ α : Type) [LinearOrder κ] where
  entries : List (κ × α)
  ascending : entries.Pairwise (fun earlier later => earlier.1 < later.1)

namespace OrderedMap

instance [DecidableEq α] : DecidableEq (OrderedMap κ α) := fun left right =>
  decidable_of_iff (left.entries = right.entries) (by
    cases left
    cases right
    simp)

def empty : OrderedMap κ α := ⟨[], List.Pairwise.nil⟩

instance : Inhabited (OrderedMap κ α) := ⟨empty⟩

def get? (map : OrderedMap κ α) (key : κ) : Option α := map.entries.lookup key

def insertEntry (key : κ) (value : α) : List (κ × α) → List (κ × α)
  | [] => [(key, value)]
  | entry :: rest =>
    if key < entry.1 then (key, value) :: entry :: rest
    else if key = entry.1 then (key, value) :: rest
    else entry :: insertEntry key value rest

variable {entries : List (κ × α)} {β : Type} {key : κ} {value : α} {entry : κ × α}

lemma key_of_mem_insertEntry (mem : entry ∈ insertEntry key value entries) :
    entry = (key, value) ∨ entry ∈ entries := by
  induction entries with
  | nil => exact .inl (mem_singleton.mp mem)
  | cons first rest ih =>
    unfold insertEntry at mem
    split at mem
    · exact mem_cons.mp mem
    split at mem
    · rcases mem_cons.mp mem with same | inRest
      · exact .inl same
      · exact .inr (.tail _ inRest)
    · rcases mem_cons.mp mem with same | inRest
      · exact .inr (mem_cons.mpr (.inl same))
      · exact (ih inRest).imp_right (mem_cons_of_mem _)

lemma insertEntry_ascending (key : κ) (value : α)
    (ascending : entries.Pairwise (fun earlier later => earlier.1 < later.1)) :
    (insertEntry key value entries).Pairwise (fun earlier later => earlier.1 < later.1) := by
  induction entries with
  | nil => exact pairwise_singleton _ _
  | cons first rest ih =>
    obtain ⟨below,restAscending⟩ := pairwise_cons.mp ascending
    unfold insertEntry
    split_ifs with before same
    · apply pairwise_cons.mpr
      refine ⟨fun entry mem => ?_,ascending⟩
      rcases mem_cons.mp mem with isFirst | inRest
      · exact isFirst ▸ before
      · exact lt_trans before (below entry inRest)
    · exact pairwise_cons.mpr ⟨fun entry mem => same ▸ below entry mem,restAscending⟩
    · apply pairwise_cons.mpr
      refine ⟨fun entry mem => ?_,ih restAscending⟩
      rcases key_of_mem_insertEntry mem with inserted | inRest
      · exact inserted ▸ lt_of_le_of_ne (not_lt.mp before) (Ne.symm same)
      · exact below entry inRest

def insert (map : OrderedMap κ α) (key : κ) (value : α) : OrderedMap κ α :=
  ⟨insertEntry key value map.entries, insertEntry_ascending key value map.ascending⟩

def upsert (map : OrderedMap κ α) (key : κ) (change : Option α → α) : OrderedMap κ α :=
  map.insert key (change (map.get? key))

def adjust (map : OrderedMap κ α) (key : κ) (change : α → α) : OrderedMap κ α :=
  match map.get? key with
  | none => map
  | some value => map.insert key (change value)

def retain (map : OrderedMap κ α) (keep : κ → Bool) : OrderedMap κ α :=
  ⟨map.entries.filter (fun entry => keep entry.1), map.ascending.filter _⟩

def filter (map : OrderedMap κ α) (keep : κ → α → Bool) : OrderedMap κ α :=
  ⟨map.entries.filter (fun entry => keep entry.1 entry.2), map.ascending.filter _⟩

def remove (map : OrderedMap κ α) (key : κ) : OrderedMap κ α := map.retain (fun other => other ≠ key)

def mapValues {β : Type} (map : OrderedMap κ α) (change : κ → α → β) : OrderedMap κ β :=
  ⟨map.entries.map (fun entry => (entry.1, change entry.1 entry.2)), pairwise_map.mpr map.ascending⟩

def last? (map : OrderedMap κ α) : Option (κ × α) := map.entries.getLast?

@[simp] lemma get?_empty (key : κ) : (empty : OrderedMap κ α).get? key = none := rfl

section

variable (map : OrderedMap κ α)

include map

@[simp] lemma get?_insert_self (key : κ) (value : α) :
    (map.insert key value).get? key = some value := by
  obtain ⟨entries,ascending⟩ := map
  simp only [insert,get?]
  clear ascending
  induction entries with
  | nil => simp [insertEntry]
  | cons first rest ih =>
    unfold insertEntry
    split_ifs with before same
    · simp
    · simp
    · rw [lookup_cons,beq_false_of_ne same]
      exact ih

variable {other : κ}

lemma get?_insert_ne (value : α) (differ : other ≠ key) :
    (map.insert key value).get? other = map.get? other := by
  obtain ⟨entries,ascending⟩ := map
  simp only [insert,get?]
  clear ascending
  have miss : (other == key) = false := beq_false_of_ne differ
  induction entries with
  | nil => simp [insertEntry,lookup_cons,miss]
  | cons first rest ih =>
    obtain ⟨found,cur⟩ := first
    unfold insertEntry
    split_ifs with before same
    · simp [lookup_cons,miss]
    · simp only at same
      subst same
      simp [lookup_cons,miss]
    · simp only [lookup_cons]
      cases other == found with
      | true => rfl
      | false => exact ih

lemma get?_insert (key other : κ) (value : α) :
    (map.insert key value).get? other = if other = key then some value else map.get? other := by
  split
  next same => rw [same,get?_insert_self]
  next differ => exact get?_insert_ne map value differ

lemma get?_upsert (key other : κ) (change : Option α → α) : (map.upsert key change).get? other =
      if other = key then some (change (map.get? key)) else map.get? other :=
  get?_insert map key other _

lemma get?_adjust (key other : κ) (change : α → α) : (map.adjust key change).get? other =
      if other = key then (map.get? key).map change else map.get? other := by
  unfold adjust
  cases found : map.get? key with
  | none =>
    by_cases same : other = key
    · simp [same,found]
    · simp [same]
  | some value => exact get?_insert map key other _

end

variable {keep : κ → α → Bool}

lemma mem_entries {map : OrderedMap κ α} :
    (key, value) ∈ map.entries ↔ map.get? key = some value := by
  obtain ⟨entries,ascending⟩ := map
  simp only [get?]
  induction entries with
  | nil => simp
  | cons first rest ih =>
    obtain ⟨below,restAscending⟩ := pairwise_cons.mp ascending
    rw [mem_cons,lookup_cons]
    by_cases same : key = first.1
    · have absent : (key, value) ∉ rest := by
        intro mem
        exact absurd (below _ mem) (same ▸ lt_irrefl _)
      subst same
      simp [absent,Prod.ext_iff,eq_comm]
    · rw [beq_false_of_ne same,ih restAscending]
      simp [Prod.ext_iff,same]

lemma get?_eq_none {map : OrderedMap κ α} :
    map.get? key = none ↔ ∀ entry ∈ map.entries, entry.1 ≠ key := by
  rw [get?,lookup_eq_none_iff]
  constructor
  · intro missed entry mem same
    have := missed entry mem
    simp [same] at this
  · intro absent entry mem
    simpa using Ne.symm (absent entry mem)

lemma entries_nodup (map : OrderedMap κ α) : map.entries.Nodup :=
  map.ascending.imp (fun below same => ne_of_lt below (congrArg Prod.fst same))

lemma entries_perm {map : OrderedMap κ α} (nodup : entries.Nodup)
    (same : ∀ key value, (key, value) ∈ entries ↔ map.get? key = some value) :
    map.entries.Perm entries := by
  apply (perm_ext_iff_of_nodup map.entries_nodup nodup).mpr
  intro entry
  rw [same entry.1 entry.2]
  exact mem_entries

lemma ext_get? {left right : OrderedMap κ α} (same : ∀ key, left.get? key = right.get? key) :
    left = right := by
  have perm : left.entries.Perm right.entries :=
    entries_perm right.entries_nodup (fun key value => by rw [mem_entries,same])
  have entries : left.entries = right.entries :=
    perm.eq_of_pairwise (fun _ _ _ _ below above => absurd above (lt_asymm below)) left.ascending
      right.ascending
  cases left
  cases right
  cases entries
  rfl

lemma entries_insert_of_absent {map : OrderedMap κ α} (value : α) (absent : map.get? key = none) :
    ∃ before after, map.entries = before ++ after ∧
      (map.insert key value).entries = before ++ (key, value) :: after := by
  rw [get?_eq_none] at absent
  obtain ⟨entries,ascending⟩ := map
  simp only [insert] at absent ⊢
  clear ascending
  induction entries with
  | nil => exact ⟨[],[],rfl,rfl⟩
  | cons first rest ih =>
    have differ : key ≠ first.1 := Ne.symm (absent first (.head _))
    unfold insertEntry
    by_cases earlier : key < first.1
    · exact ⟨[],first :: rest,rfl,by simp [earlier]⟩
    · obtain ⟨before,after,split,inserted⟩ :=
        ih (fun entry mem => absent entry (.tail _ mem))
      exact ⟨first :: before,after,by simp [split],by simp [earlier,differ,inserted]⟩

lemma get?_retain (map : OrderedMap κ α) (keep : κ → Bool) (key : κ) :
    (map.retain keep).get? key = if keep key then map.get? key else none := by
  apply Option.ext
  intro value
  rw [← mem_entries,retain,mem_filter,mem_entries]
  cases keep key with
  | true => simp
  | false => simp

lemma get?_remove (map : OrderedMap κ α) (key other : κ) :
    (map.remove key).get? other = if other = key then none else map.get? other := by
  rw [remove,get?_retain]
  by_cases same : other = key
  · simp [same]
  · simp [same]

lemma insert_of_get? {map : OrderedMap κ α} (found : map.get? key = some value) :
    map.insert key value = map := by
  apply ext_get?
  intro other
  rw [get?_insert]
  split
  · next same => rw [same,found]
  · rfl

lemma remove_of_absent {map : OrderedMap κ α} (absent : map.get? key = none) :
    map.remove key = map := by
  apply ext_get?
  intro other
  rw [get?_remove]
  split
  · next same => rw [same,absent]
  · rfl

lemma perm_insert (map : OrderedMap κ α) (key : κ) (value : α) :
    (map.insert key value).entries.Perm ((key, value) :: (map.remove key).entries) := by
  apply entries_perm
  · rw [nodup_cons,mem_entries,get?_remove,if_pos rfl]
    exact ⟨nofun,entries_nodup _⟩
  · intro other held
    rw [mem_cons,mem_entries,get?_remove,get?_insert]
    split
    · next same => simp [same,eq_comm]
    · next differ => simp [differ]

lemma length_insert_of_isSome {map : OrderedMap κ α} (value : α) (present : (map.get? key).isSome) :
    (map.insert key value).entries.length = map.entries.length := by
  obtain ⟨held,found⟩ := Option.isSome_iff_exists.mp present
  have old := (perm_insert map key held).length_eq
  rw [insert_of_get? found] at old
  rw [(perm_insert map key value).length_eq,old]
  rfl

lemma length_insert_le (map : OrderedMap κ α) (key : κ) (value : α) :
    (map.insert key value).entries.length ≤ map.entries.length + 1 := by
  cases found : map.get? key with
  | none =>
    obtain ⟨before,after,split,inserted⟩ := entries_insert_of_absent value found
    rw [split,inserted]
    simp only [length_append,length_cons]
    omega
  | some held =>
    rw [length_insert_of_isSome value (by rw [found]; rfl)]
    exact Nat.le_succ _

lemma get?_mapValues (map : OrderedMap κ α) (change : κ → α → β) (key : κ) :
    (map.mapValues change).get? key = (map.get? key).map (change key) := by
  apply Option.ext
  intro value
  simp [mapValues,← mem_entries]

lemma get?_filter (map : OrderedMap κ α) (keep : κ → α → Bool) (key : κ) :
    (map.filter keep).get? key = (map.get? key).filter (keep key) := by
  apply Option.ext
  intro value
  rw [← mem_entries,Option.filter_eq_some_iff,← mem_entries]
  simp [filter]

lemma filter_eq_self {map : OrderedMap κ α}
    (whole : (map.filter keep).entries.length = map.entries.length) : map.filter keep = map := by
  obtain ⟨entries,ascending⟩ := map
  simp only [filter,mk.injEq] at whole ⊢
  exact List.filter_eq_self.mpr (length_filter_eq_length_iff.mp whole)

lemma get?_of_last? {map : OrderedMap κ α} (last : map.last? = some (key, value)) :
    map.get? key = some value :=
  mem_entries.mp (mem_of_getLast? last)

lemma le_last? {map : OrderedMap κ α} (found : map.get? key = some value) :
    ∃ last, map.last? = some last ∧ key ≤ last.1 := by
  have member := mem_entries.mpr found
  have notEmpty : map.entries ≠ [] := ne_nil_of_mem member
  refine ⟨map.entries.getLast notEmpty,getLast?_eq_some_getLast notEmpty,?_⟩
  have ascending := map.ascending
  rw [← dropLast_append_getLast notEmpty] at member ascending
  rcases mem_append.mp member with earlier | isLast
  · exact le_of_lt ((pairwise_append.mp ascending).2.2 _ earlier _ (mem_singleton_self _))
  · rw [← mem_singleton.mp isLast]

lemma get?_foldl_upsert (change : β → Option α → α) {entries : List (κ × β)}
    (ascending : entries.Pairwise (fun earlier later => earlier.1 < later.1)) (map : OrderedMap κ α)
    (key : κ) :
    (entries.foldl (fun map entry => map.upsert entry.1 (change entry.2)) map).get? key =
      match entries.lookup key with
      | none => map.get? key
      | some value => some (change value (map.get? key)) := by
  induction entries generalizing map with
  | nil => rfl
  | cons first rest ih =>
    obtain ⟨found,value⟩ := first
    obtain ⟨above,restAscending⟩ := pairwise_cons.mp ascending
    rw [foldl_cons,ih restAscending,get?_upsert,lookup_cons]
    by_cases same : key = found
    · subst same
      have absent : rest.lookup key = none := by
        cases later : rest.lookup key with
        | none => rfl
        | some other =>
          have mem : (key, other) ∈ (OrderedMap.mk rest restAscending).entries :=
            mem_entries.mpr later
          exact absurd (above _ mem) (lt_irrefl _)
      rw [absent,beq_self_eq_true]
      simp
    · rw [beq_false_of_ne same]
      simp [same]

end OrderedMap

end Kodansu.Lib

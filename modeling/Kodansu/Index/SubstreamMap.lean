/-
The map from a sub-stream to the places of its entries in the indexed footers, which every mutation
of the index keeps in step.
-/

import Kodansu.Index.PrefixIndex

namespace Kodansu.Index

open Lib Segment List OrderedMap

/-- Sequences and positions in ascending order, by sub-stream. -/
abbrev SubstreamMap := OrderedMap (Substream ×ₗ Int) (OrderedMap (Nat ×ₗ Nat) Unit)

structure MappedIndex where
  index : PrefixIndex := {}
  bySubstream : SubstreamMap := OrderedMap.empty

def seqsOf (map : SubstreamMap) (key : SubstreamKey) : OrderedMap (Nat ×ₗ Nat) Unit :=
  (map.get? (toLex key)).getD .empty

def refer (seq : Nat) (map : SubstreamMap) (entry : SubstreamEntry × Nat) : SubstreamMap :=
  map.upsert (toLex entry.1.key) (fun seqs => (seqs.getD .empty).insert (toLex (seq, entry.2)) ())

/-- A sub-stream with no segments left keeps no key. -/
def withdraw (seq : Nat) (map : SubstreamMap) (entry : SubstreamEntry × Nat) : SubstreamMap :=
  match map.get? (toLex entry.1.key) with
  | none => map
  | some seqs =>
    let seqs := seqs.remove (toLex (seq, entry.2))
    if seqs.entries = [] then map.remove (toLex entry.1.key)
    else map.insert (toLex entry.1.key) seqs

namespace MappedIndex

def unindexSegment (mapped : MappedIndex) (seq : Nat) : MappedIndex :=
  { mapped with
    bySubstream := match mapped.index.segments.get? seq with
      | none => mapped.bySubstream
      | some cached => cached.footer.entries.zipIdx.foldl (withdraw seq) mapped.bySubstream }

def insertSegment (mapped : MappedIndex) (seq : Nat) (cached : CachedSegment) : MappedIndex :=
  ⟨mapped.index.insertSegment seq cached,cached.pruned.footer.entries.zipIdx.foldl (refer seq)
    (mapped.unindexSegment seq).bySubstream⟩

def retainSegments (mapped : MappedIndex) (keep : Nat → Bool) : MappedIndex :=
  let retained := mapped.index.retainSegments keep
  let dropped := mapped.index.segments.entries.length - retained.segments.entries.length
  if dropped > 0 then
    ⟨retained,(mapped.bySubstream.mapValues (fun _ seqs =>
      seqs.retain (fun place => keep (ofLex place).1))).filter (fun _ seqs => seqs.entries ≠ [])⟩
  else { mapped with index := retained }

def entryAt (mapped : MappedIndex) (place : Nat × Nat) : Option RankedEntry := do
  let cached ← mapped.index.segments.get? place.1
  let entry ← cached.footer.entries[place.2]?
  return ⟨cached.footer.writerEpoch,place.1,entry⟩

def references (mapped : MappedIndex) (key : SubstreamKey) : List (Nat × Nat) :=
  (seqsOf mapped.bySubstream key).entries.map (fun entry => ofLex entry.1)

def substreamEntries (mapped : MappedIndex) (substream : Substream) (partition : Int) :
    List RankedEntry :=
  (mapped.references (substream, partition)).filterMap mapped.entryAt

end MappedIndex

def Refers (map : SubstreamMap) (key : SubstreamKey) (place : Nat × Nat) : Prop :=
  (seqsOf map key).get? (toLex place) = some ()

def HasEntry (index : PrefixIndex) (key : SubstreamKey) (place : Nat × Nat) : Prop :=
  ∃ cached entry, index.segments.get? place.1 = some cached ∧
    cached.footer.entries[place.2]? = some entry ∧ entry.key = key

section

variable {map : SubstreamMap} {entries : List (SubstreamEntry × Nat)}

attribute [local grind =] OrderedMap.get?_insert OrderedMap.get?_remove OrderedMap.get?_retain
  OrderedMap.get?_upsert OrderedMap.get?_empty Option.getD_some Option.getD_none toLex_inj ofLex_toLex

variable {seq : Nat} {entry : SubstreamEntry × Nat} {key : SubstreamKey} {place : Nat × Nat}
  {seqs : OrderedMap (Lex (Nat × Nat)) Unit}

lemma refers_refer : Refers (refer seq map entry) key place ↔
    Refers map key place ∨ entry.1.key = key ∧ place = (seq, entry.2) := by
  unfold Refers seqsOf refer
  grind

lemma get?_of_nil (none : seqs.entries = []) (place : Nat ×ₗ Nat) :
    (seqs : OrderedMap (Nat ×ₗ Nat) Unit).get? place = .none := by
  unfold OrderedMap.get?
  rw [none]
  rfl

lemma refers_withdraw : Refers (withdraw seq map entry) key place ↔
    Refers map key place ∧ ¬ (entry.1.key = key ∧ place = (seq, entry.2)) := by
  unfold Refers seqsOf withdraw
  split
  · grind
  · dsimp only
    split
    · next none =>
      have := get?_of_nil none (toLex place)
      grind
    · grind

lemma refers_retain (keep : Nat → Bool) :
    Refers ((map.mapValues (fun _ seqs => seqs.retain (fun place => keep (ofLex place).1))).filter
      (fun _ seqs => seqs.entries ≠ [])) key place ↔ keep place.1 = true ∧ Refers map key place := by
  unfold Refers seqsOf
  rw [get?_filter,get?_mapValues]
  cases map.get? (toLex key) with
  | none => exact iff_of_false nofun (fun held => nomatch held.2)
  | some seqs =>
    rw [Option.map_some,Option.filter_some]
    split
    · grind
    · next none =>
      have := get?_of_nil (by simpa using none) (toLex place)
      grind

lemma refers_foldl_refer : Refers (entries.foldl (refer seq) map) key place ↔
    Refers map key place ∨ ∃ entry ∈ entries, entry.1.key = key ∧ place = (seq, entry.2) := by
  induction entries generalizing map with
  | nil => simp
  | cons entry rest ih =>
    rw [foldl_cons,ih,refers_refer,exists_mem_cons_iff,or_assoc]

lemma refers_foldl_withdraw : Refers (entries.foldl (withdraw seq) map) key place ↔
    Refers map key place ∧ ¬ ∃ entry ∈ entries, entry.1.key = key ∧ place = (seq, entry.2) := by
  induction entries generalizing map with
  | nil => simp
  | cons entry rest ih =>
    rw [foldl_cons,ih,refers_withdraw,exists_mem_cons_iff,not_or,and_assoc]

lemma exists_zipIdx {entries : List SubstreamEntry} :
    (∃ entry ∈ entries.zipIdx, entry.1.key = key ∧ place = (seq, entry.2)) ↔
      place.1 = seq ∧ ∃ entry, entries[place.2]? = some entry ∧ entry.key = key := by
  simp only [Prod.exists,mem_zipIdx_iff_getElem?]
  grind

end

inductive IndexOp
  | insert (seq : Nat) (cached : CachedSegment)
  | retain (keep : Nat → Bool)
  | unindex (seq : Nat)

namespace MappedIndex

def apply (mapped : MappedIndex) : IndexOp → MappedIndex
  | .insert seq cached => mapped.insertSegment seq cached
  | .retain keep => mapped.retainSegments keep
  | .unindex seq => mapped.unindexSegment seq

/-- Which sequences have been unindexed since they were last inserted. -/
def withdrawn (was : Nat → Bool) : IndexOp → Nat → Bool
  | .insert seq _, other => was other && other ≠ seq
  | .retain _, other => was other
  | .unindex seq, other => was other || other = seq

def Mirrors (mapped : MappedIndex) (was : Nat → Bool) : Prop :=
  ∀ key place, Refers mapped.bySubstream key place ↔
    was place.1 = false ∧ HasEntry mapped.index key place

variable {mapped : MappedIndex} {was : Nat → Bool}

lemma Mirrors.unindexSegment (mirrors : Mirrors mapped was) (seq : Nat) :
    Mirrors (mapped.unindexSegment seq) (withdrawn was (.unindex seq)) := by
  intro key place
  have before := mirrors key place
  unfold MappedIndex.unindexSegment withdrawn HasEntry at *
  cases found : mapped.index.segments.get? seq with
  | none => grind
  | some cached =>
    simp only [refers_foldl_withdraw,exists_zipIdx,before]
    grind

lemma Mirrors.insertSegment (mirrors : Mirrors mapped was) (seq : Nat) (cached : CachedSegment) :
    Mirrors (mapped.insertSegment seq cached) (withdrawn was (.insert seq cached)) := by
  intro key place
  have before := mirrors.unindexSegment seq key place
  change _ ↔ _ ∧ HasEntry mapped.index key place at before
  unfold MappedIndex.insertSegment PrefixIndex.insertSegment withdrawn HasEntry at *
  simp only [refers_foldl_refer,exists_zipIdx,before,get?_insert]
  grind

lemma Mirrors.retainSegments (mirrors : Mirrors mapped was) (keep : Nat → Bool) :
    Mirrors (mapped.retainSegments keep) was := by
  intro key place
  have before := mirrors key place
  unfold MappedIndex.retainSegments
  dsimp only
  split
  · rw [refers_retain,before]
    unfold HasEntry PrefixIndex.retainSegments
    simp only [get?_retain]
    grind
  · next none =>
    have all : ∀ entry ∈ mapped.index.segments.entries, keep entry.1 = true := by
      apply length_filter_eq_length_iff.mp
      have := length_filter_le (fun entry => keep entry.1) mapped.index.segments.entries
      unfold PrefixIndex.retainSegments OrderedMap.retain at none
      dsimp only at none
      omega
    rw [before]
    unfold HasEntry PrefixIndex.retainSegments
    simp only [get?_retain]
    have kept := fun cached found => all (place.1, cached) (mem_entries.mpr found)
    grind

lemma foldl_mirrors (ops : List IndexOp) (mirrors : Mirrors mapped was) :
    Mirrors (ops.foldl MappedIndex.apply mapped) (ops.foldl withdrawn was) := by
  induction ops generalizing mapped was with
  | nil => exact mirrors
  | cons op rest ih =>
    apply ih
    cases op with
    | insert seq cached => exact mirrors.insertSegment seq cached
    | retain keep => exact mirrors.retainSegments keep
    | unindex seq => exact mirrors.unindexSegment seq

end MappedIndex

variable {substream : Substream}

lemma key_iff {entry : SubstreamEntry} {partition : Int} : entry.key = (substream, partition) ↔
    entry.is substream = true ∧ entry.partition = partition := by
  unfold SubstreamEntry.key SubstreamEntry.substream SubstreamEntry.is
  cases entry.topicId <;> cases substream <;> simp

open MappedIndex in
/-- After any operations the references of a sub-stream are, once each, the places of its entries
in the segments that were not unindexed after they were inserted, and a lookup returns what stands
there. -/
theorem substream_map_exact (ops : List IndexOp) (substream : Substream) (partition : Int) :
    let mapped := ops.foldl MappedIndex.apply {}
    let references := mapped.references (substream, partition)
    references.Pairwise (fun earlier later => toLex earlier < toLex later) ∧
    (∀ seq position, (seq, position) ∈ references ↔
      ops.foldl withdrawn (fun _ => false) seq = false ∧ ∃ cached entry,
        mapped.index.segments.get? seq = some cached ∧
        cached.footer.entries[position]? = some entry ∧
        entry.is substream = true ∧ entry.partition = partition) ∧
    (mapped.substreamEntries substream partition).map some = references.map mapped.entryAt := by
  intro mapped references
  have mirrors : Mirrors mapped (ops.foldl withdrawn (fun _ => false)) :=
    foldl_mirrors ops (fun _ _ => iff_of_false nofun (fun held => nomatch held.2))
  have places : ∀ place, place ∈ references ↔ Refers mapped.bySubstream (substream, partition) place := by
    intro place
    simp [references,MappedIndex.references,Refers,← OrderedMap.mem_entries,Unique.exists_iff]
  refine ⟨?_,?_,?_⟩
  · exact pairwise_map.mpr (OrderedMap.ascending _)
  · intro seq position
    rw [places,mirrors]
    unfold HasEntry
    simp only [key_iff]
  · unfold substreamEntries
    rw [map_filterMap_some_eq_filter_map_isSome]
    apply filter_eq_self.mpr
    intro row mem
    obtain ⟨place,listed,rfl⟩ := mem_map.mp mem
    obtain ⟨-,cached,entry,found,isEntry,-⟩ := (mirrors _ _).mp ((places place).mp listed)
    simp [entryAt,found,isEntry]

/-- A segment that was only unindexed is still among the segments, and nothing refers to it. -/
theorem unindexed_unreferenced :
    let entry : SubstreamEntry := ⟨"t",none,0,0,1,0,0,0,[]⟩
    let mapped := [.insert 1 ⟨⟨0,0,[entry]⟩,0⟩,.unindex 1].foldl MappedIndex.apply {}
    HasEntry mapped.index entry.key (1, 0) ∧ mapped.references entry.key = [] :=
  ⟨⟨_,_,rfl,rfl,rfl⟩,by decide⟩

end Kodansu.Index

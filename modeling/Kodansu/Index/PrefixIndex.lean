/-
A replica's index of one prefix: the footers of the segments it knows, by sequence, and
the rows they give each sub-stream.
-/

import Kodansu.Index.FencedView
import Kodansu.Lib.OrderedMap
import Kodansu.Producer.Tail

namespace Kodansu.Index

open Lib Segment List

structure CachedSegment where
  footer : SegmentFooter
  lastModifiedMs : Int
deriving DecidableEq

structure PrefixIndex where
  segments : OrderedMap Nat CachedSegment := OrderedMap.empty
deriving DecidableEq

namespace CachedSegment

def rows (cached : CachedSegment) (seq : Nat) (key : SubstreamKey) : List RankedEntry :=
  (cached.footer.entries.filter (fun entry => entry.key = key)).map
    (RankedEntry.mk cached.footer.writerEpoch seq)

def pruned (cached : CachedSegment) : CachedSegment :=
  { cached with
    footer := { cached.footer with
      entries := cached.footer.entries.map Producer.retainFoldableProducers } }

end CachedSegment

namespace PrefixIndex

def insertSegment (index : PrefixIndex) (seq : Nat) (cached : CachedSegment) : PrefixIndex :=
  ⟨index.segments.insert seq cached.pruned⟩

def retainSegments (index : PrefixIndex) (keep : Nat → Bool) : PrefixIndex :=
  ⟨index.segments.retain keep⟩

def rows (index : PrefixIndex) (key : SubstreamKey) : List RankedEntry :=
  index.segments.entries.flatMap (fun (seq, cached) => cached.rows seq key)

def validSubstreamSegments (index : PrefixIndex) (key : SubstreamKey) : List FencedSegment :=
  withFencedSegments (index.rows key)

variable {index : PrefixIndex} {key : SubstreamKey} {row : RankedEntry}

lemma mem_rows : row ∈ index.rows key ↔ ∃ cached, index.segments.get? row.seq = some cached ∧
      row.writerEpoch = cached.footer.writerEpoch ∧ row.entry ∈ cached.footer.entries ∧
      row.entry.key = key := by
  simp only [rows,CachedSegment.rows,mem_flatMap,mem_map,mem_filter,
    decide_eq_true_eq]
  constructor
  · rintro ⟨⟨seq,cached⟩,mem,entry,⟨inFooter,sameKey⟩,rfl⟩
    exact ⟨cached,OrderedMap.mem_entries.mp mem,rfl,inFooter,sameKey⟩
  · rintro ⟨cached,found,sameEpoch,inFooter,sameKey⟩
    refine ⟨(row.seq, cached),OrderedMap.mem_entries.mpr found,row.entry,⟨inFooter,sameKey⟩,?_⟩
    rw [← sameEpoch]

end PrefixIndex

end Kodansu.Index

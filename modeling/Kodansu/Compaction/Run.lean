/-
What a merge keeps of the offsets of a run while it chooses one: the span of each sub-stream, the
union of its ranges, and the highest offset of a stretch that nothing outside the run serves.
-/

import Kodansu.Index.PrefixIndex

namespace Kodansu.Compaction

open Index Lib Segment

/-! ### Coverage of a run -/

structure OffsetSpan where
  base : Int
  endOffset : Int
  records : Int
deriving DecidableEq

def OffsetSpan.isContiguous (span : OffsetSpan) : Bool :=
  span.records = span.endOffset - span.base

structure RunCoverage where
  spans : OrderedMap (Substream ×ₗ Int) OffsetSpan := OrderedMap.empty

def RunCoverage.spanWith (coverage : RunCoverage) (entry : SubstreamEntry) : OffsetSpan :=
  match coverage.spans.get? (toLex entry.key) with
  | some held =>
    ⟨min held.base entry.baseOffset, max held.endOffset entry.endOffset,
      held.records + entry.recordCount⟩
  | none => ⟨entry.baseOffset, entry.endOffset, entry.recordCount⟩

/-- Fold a segment's entries in, or answer that a sub-stream would stop being one
unbroken interval. -/
def RunCoverage.extend (coverage : RunCoverage) (entries : List SubstreamEntry) :
    Option RunCoverage :=
  let folded := entries.map (fun entry => (entry.key, coverage.spanWith entry))
  if folded.all (fun (_, span) => span.isContiguous) then
    some ⟨folded.foldl (fun spans (key, span) => spans.insert (toLex key) span) coverage.spans⟩
  else none

structure RunUnion where
  spans : OrderedMap (Substream ×ₗ Int) (List (Int × Int)) := OrderedMap.empty

def absorb : List (Int × Int) → Int × Int → List (Int × Int) × (Int × Int)
  | [], interval => ([], interval)
  | held :: rest, interval =>
    if held.1 ≤ interval.2 ∧ held.2 ≥ interval.1 then
      absorb rest (min interval.1 held.1, max interval.2 held.2)
    else
      let (kept, widened) := absorb rest interval
      (held :: kept, widened)

def insertInterval (spans : List (Int × Int)) (interval : Int × Int) : List (Int × Int) :=
  let (kept, widened) := absorb spans interval
  kept.takeWhile (fun held => held.1 < widened.1) ++
    widened :: kept.dropWhile (fun held => held.1 < widened.1)

def RunUnion.insert (union : RunUnion) (key : SubstreamKey) (start stop : Int) : RunUnion :=
  if stop ≤ start then union
  else
    ⟨union.spans.upsert (toLex key) (fun held => insertInterval (held.getD []) (start, stop))⟩

def RunUnion.isConnected (union : RunUnion) : Bool :=
  union.spans.entries.all (fun (_, spans) => spans.length ≤ 1)

def RunUnion.gaps (union : RunUnion) : List (SubstreamKey × List (Int × Int)) :=
  (union.spans.entries.filter (fun (_, spans) => 1 < spans.length)).map (fun (key, spans) =>
    (ofLex key, (spans.zip (spans.drop 1)).map (fun (before, after) => (before.2, after.1))))

def scanUnserved (stop : Int) : List (Int × Int) → Int → Option Int → Option Int
  | [], cursor, highest => if cursor < stop then some (stop - 1) else highest
  | span :: rest, cursor, highest =>
    if cursor ≥ stop then highest
    else
      scanUnserved stop rest (max cursor span.2)
        (if span.1 > cursor then some (min span.1 stop - 1) else highest)

def highestUnserved (range : Int × Int) (spans : List (Int × Int)) : Option Int :=
  scanUnserved range.2 (spans.insertionSort (fun left right => toLex left ≤ toLex right))
    range.1 none

end Kodansu.Compaction

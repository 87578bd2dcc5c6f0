/-
When the fenced view leaves an entry out.

An entry every offset of which is held by entries of higher rank is superseded, but
the sweep compares it only with the entry that set the frontier and with the entries
after it.  A lower-ranked entry that starts earlier and sets the frontier inside it
therefore lets it back in.  Without such an entry a superseded one never appears.
-/

import Kodansu.Index.FencedView

namespace Kodansu.Index

open Segment List

def Dominated (rows : List RankedEntry) (row : RankedEntry) : Prop :=
  row.entry.range ⊆ held (rows.filter (fun other => row.rank < other.rank))

variable {rows later : List RankedEntry} {row : RankedEntry} {offset covered upTo : Int}
  {rank : Rank}

lemma Dominated.winner (dominated : Dominated rows row) (base : row.base ≤ offset)
    (below : offset < row.endOffset) :
    ∃ winner ∈ rows, row.rank < winner.rank ∧ winner.base ≤ offset ∧ offset < winner.endOffset := by
  have inRange : offset ∈ row.entry.range := ⟨base,below⟩
  obtain ⟨winner,mem,holds⟩ := mem_held.mp (dominated inRange)
  obtain ⟨inRows,higher⟩ := mem_filter.mp mem
  exact ⟨winner,inRows,by simpa using higher,holds⟩

variable {visited remaining : List RankedEntry} {coveredTo : Int} {frontierRank : Rank}

end Kodansu.Index

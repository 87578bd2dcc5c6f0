/-
What a flush writes, as appends of the cluster.

A flush takes the waiting batches of a partition one after the other, each by what its index
shows with the batches before it folded in.  The region that it writes, placed from its base, is
what the produces append that go by these indexes, and each batch is answered as its produce is.
-/

import Kodansu.Cluster.Calls
import Kodansu.Leaseless.Flush

namespace Kodansu.Cluster

open Segment Record Producer Fetch Leaseless List

/-- What the index of a flush shows once the batches so far are folded in. -/
def folding (share : Assigning) : Folded := ⟨share.running, share.tails⟩

def Folded.answer (index : Folded) (batch : Batch) : Outcome :=
  match index.classify batch with
  | .admitted => .acked index.next
  | .duplicate offset => .acked offset
  | .outOfOrder => .outOfOrder
  | .fenced => .fenced

/-- What the produces are answered. -/
def answers : Assigning → List Pending → List (Pending × Outcome)
  | _, [] => []
  | share, waiting :: rest =>
    (waiting, (folding share).answer waiting.batch) :: answers (share.push waiting) rest

end Kodansu.Cluster

/-
The refresh of a replica's index: the tail probe, and the listing it falls back to.
-/

import Kodansu.Leaseless.Replica

namespace Kodansu.Leaseless

open Index Lib Segment

def probeWindow : Nat := 4

def prefixIndexMaxRelists : Nat := 4

def Maintain.refreshed : Maintain → Maintain
  | .refresh job => .folded job
  | .foldBelow job seq footer => .insert job seq footer
  | other => other

namespace Replica

def setRefresh (replica : Replica) (refresh : Refresh) : Replica :=
  { replica with refresh := some refresh }

def awaitsRefresh (replica : Replica) : RefreshOwner → Bool
  | .reader => true
  | .flush => replica.flush.any (fun flush => match flush.phase with
      | .refresh => true
      | _ => false)
  | .claim => replica.maintain.any (fun task => match task with
      | .refresh _ => true
      | _ => false)
  | .won seq => replica.maintain.any (fun task => match task with
      | .foldBelow _ other _ => other = seq
      | _ => false)

def resume (replica : Replica) (owner : RefreshOwner) : Replica :=
  match owner with
  | .reader => { replica with refresh := none }
  | .flush =>
    { replica with
      refresh := none
      flush := replica.flush.map (fun flush => { flush with phase := .folded }) }
  | .claim | .won _ =>
    { replica with
      refresh := none
      maintain := replica.maintain.map Maintain.refreshed }

/-- A refresh has failed.  The flush or the claim fails with it; a compaction that has won its
sequence already goes on. -/
def refreshFailed (replica : Replica) (owner : RefreshOwner) : Replica :=
  match owner with
  | .reader => { replica with refresh := none }
  | .flush => { replica with refresh := none, flush := none }
  | .claim => { replica with refresh := none, maintain := none }
  | .won _ =>
    { replica with
      refresh := none
      maintain := replica.maintain.map Maintain.refreshed }

def cancelRefresh (replica : Replica) : Option Replica :=
  replica.refresh.map (fun refresh => match refresh.owner with
    | .reader => { replica with refresh := none }
    | .flush => { replica with refresh := none, flush := none }
    | .claim | .won _ => { replica with refresh := none, maintain := none })

/-- Begin a refresh.  One that is due to reconcile lists the whole prefix, and so does one
that has no cursor; any other starts with the tail probe. -/
def startRefresh (replica : Replica) (owner : RefreshOwner) (due : Bool) : Option Replica :=
  if replica.refresh.isSome || !replica.awaitsRefresh owner then none
  else
    match replica.resolvedMax with
    | none => some (replica.setRefresh { owner, reconcile := false, after := none, phase := .list [] })
    | some cursor =>
      if due then
        some (replica.setRefresh { owner, reconcile := true, after := none, phase := .list [] })
      else
        some (replica.setRefresh
          { owner, reconcile := false, after := some cursor,
            phase := .probe (cursor + 1) probeWindow })

/-- Drop what a whole listing did not return, below its own maximum. -/
def reconciled (replica : Replica) (refresh : Refresh) : Replica :=
  match refresh.reconcile, refresh.listed.max? with
  | true, some listedMax =>
    let keep := fun seq => decide (listedMax ≤ seq) || refresh.listed.contains seq
    { replica with
      index := replica.index.retainSegments keep
      opaqueSeqs := replica.opaqueSeqs.filter keep }
  | _, _ => replica

def settle (replica : Replica) (refresh : Refresh) : Replica :=
  ({ replica.reconciled refresh with generation := replica.generation + 1 } : Replica).resume
    refresh.owner

def scanned (after : Option Nat) (found : List (Nat × SegmentFooter)) : Option Nat :=
  max after (found.map Prod.fst).max?

def listed (replica : Replica) (refresh : Refresh) (found : List (Nat × SegmentFooter)) : Refresh :=
  { refresh with
    after := scanned refresh.after found
    listed := if refresh.reconcile then refresh.listed ++ found.map Prod.fst else refresh.listed
    phase := .commit (found.filter (fun (seq, _) => !replica.isResolved seq)) false }

def listStep (world : World) (replica : Replica) (refresh : Refresh)
    (found : List (Nat × SegmentFooter)) : Replica :=
  match (world.listAfter (scanned refresh.after found)).head? with
  | some segment => replica.setRefresh { refresh with phase := .list (found ++ [segment]) }
  | none => replica.setRefresh (replica.listed refresh found)

def probeStep (world : World) (replica : Replica) (refresh : Refresh) (seq left : Nat) :
    Response → Option Replica
  | .ok =>
    match left with
    | 0 => some (replica.setRefresh { refresh with phase := .list [] })
    | left + 1 =>
      match world.live.get? seq with
      | some footer =>
        if world.undecodable seq then some (replica.setRefresh { refresh with phase := .list [] })
        else
          some ((replica.insertSegment seq footer).setRefresh
            { refresh with phase := .probe (seq + 1) left })
      | none => some (replica.setRefresh { refresh with phase := .absent seq })
  | .failed => some (replica.setRefresh { refresh with phase := .list [] })
  | _ => none

def absentStep (world : World) (replica : Replica) (refresh : Refresh) (seq : Nat) :
    Response → Option Replica
  | .ok =>
    some (replica.setRefresh
      { refresh with phase := .floor seq world.floor replica.generation })
  | .failed => some (replica.setRefresh { refresh with phase := .list [] })
  | _ => none

/-- The absence of a name proves the tail only if the floor is not above it. -/
def floorStep (replica : Replica) (refresh : Refresh) (seq floor generation : Nat) : Replica :=
  let certified := replica.certify floor generation
  if seq < floor then certified.setRefresh { refresh with phase := .list [] }
  else certified.resume refresh.owner

def commitStep (world : World) (replica : Replica) (refresh : Refresh)
    (pending : List (Nat × SegmentFooter)) (vanished : Bool) : Response → Option Replica
  | .ok =>
    match pending with
    | [] =>
      if !vanished || refresh.relists = prefixIndexMaxRelists then
        some (replica.settle refresh)
      else
        some (replica.setRefresh
          { refresh with relists := refresh.relists + 1, phase := .list [] })
    | (seq, footer) :: rest =>
      let read := if world.undecodable seq then replica.stepOver seq
        else replica.insertSegment seq footer
      some (read.setRefresh { refresh with phase := .commit rest vanished })
  | .absent =>
    match pending with
    | [] => none
    | (seq, _) :: rest =>
      if world.isLive seq then none
      else
        some ((replica.stepOver seq).setRefresh { refresh with phase := .commit rest true })
  | .failed => some (replica.refreshFailed refresh.owner)
  | .lost => none

def refreshStep (world : World) (replica : Replica) (response : Response) : Option Replica :=
  match replica.refresh with
  | none => none
  | some refresh =>
    match refresh.phase with
    | .probe seq left => replica.probeStep world refresh seq left response
    | .absent seq => replica.absentStep world refresh seq response
    | .floor seq floor generation =>
      if response = .ok then some (replica.floorStep refresh seq floor generation) else none
    | .list found =>
      match response with
      | .ok => some (replica.listStep world refresh found)
      | .failed => some (replica.refreshFailed refresh.owner)
      | _ => none
    | .commit pending vanished => replica.commitStep world refresh pending vanished response

end Replica

end Kodansu.Leaseless

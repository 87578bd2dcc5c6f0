/-
Maintenance: expiry, which persists an offset floor for every sub-stream that loses a segment,
and compaction, which creates a merged segment; both retire segments by raising the sequence
floor, deleting the objects and pruning the index.

Which segments expire and what a merge writes is left open here: an expiry may take any
segments of the index, and a merge may take any and write anything.
-/

import Kodansu.Leaseless.Flush

namespace Kodansu.Leaseless

open Index Lib Segment Record

def entryTopition (entry : SubstreamEntry) : Topition := ⟨entry.topic, entry.partition⟩

def affectedBy (index : PrefixIndex) (seqs : List Nat) : List Topition :=
  (seqs.flatMap (fun seq => (index.segments.get? seq).elim [] (fun cached =>
    cached.footer.entries.map entryTopition))).dedup

def viewTail (index : PrefixIndex) (key : SubstreamKey) : Option Int :=
  (index.validSubstreamSegments key).getLast?.map FencedSegment.endOffset

namespace Replica

def setMaintain (replica : Replica) (task : Maintain) : Replica :=
  { replica with maintain := some task }

def endMaintain (replica : Replica) : Replica := { replica with maintain := none }

def startExpire (replica : Replica) (doomed : List Nat) : Option Replica :=
  if replica.maintain.isSome || !doomed.all replica.knows then none
  else
    let affected := affectedBy replica.index doomed
    some (replica.setMaintain (.floors doomed affected affected))

/-- Merge some segments of the index; a run that serves nothing is only retired. -/
def startCompact (config : Config) (world : World) (replica : Replica) (run : List Nat)
    (writes : List SubstreamWrite) (writerEpoch : Int) : Option (World × Replica) :=
  if replica.maintain.isSome || !run.all replica.knows ||
      !writes.all (fun write => write.substream = config.pins.substream write.topition) then none
  else if writes = [] then some (world, replica.setMaintain (.retire false run []))
  else
    some ({ world with nonces := world.nonces + 1 },
      replica.setMaintain (.hint { run, writes, writerEpoch, nonce := world.nonces }))

/-! ### Expiry -/

def floorsStep (config : Config) (replica : Replica) (doomed : List Nat)
    (affected todo : List Topition) : Replica :=
  match todo with
  | [] => replica.setMaintain (.retire true doomed affected)
  | topition :: rest =>
    match viewTail replica.index (config.pins.key topition) with
    | none => replica.setMaintain (.floors doomed affected rest)
    | some tail => replica.setMaintain (.floorHeld doomed affected topition tail rest)

def floorHeldStep (world : World) (replica : Replica) (doomed : List Nat)
    (affected : List Topition) (topition : Topition) (tail : Int) (todo : List Topition) :
    Response → Option (World × Replica)
  | .ok =>
    some (world.raiseHigh topition tail, replica.setMaintain (.floors doomed affected todo))
  | .lost =>
    some (world.raiseHigh topition tail, replica.setMaintain (.floors doomed affected todo))
  | .failed => some (world, replica.setMaintain (.floors doomed affected todo))
  | .absent => none

/-! ### Retirement -/

/-- Raise the floor past the segments that are about to go.  A floor this replica has
certified is stale once the persisted one has moved. -/
def retireStep (world : World) (replica : Replica) (expired : Bool) (seqs : List Nat)
    (affected : List Topition) (response : Response) : Option (World × Replica) :=
  match seqs.max? with
  | none => some (world, replica.endMaintain)
  | some last =>
    match response with
    | .ok =>
      let forgotten := if world.floor < last + 1 then { replica with seqFloor := none }
        else replica
      some (world.raiseSeqFloor (last + 1),
        forgotten.setMaintain (.deleting expired seqs seqs affected))
    | .lost => some (world.raiseSeqFloor (last + 1), replica.endMaintain)
    | .failed => some (world, replica.endMaintain)
    | .absent => none

def deletingStep (world : World) (replica : Replica) (expired : Bool) (seqs left : List Nat)
    (affected : List Topition) (response : Response) : Option (World × Replica) :=
  match left, response with
  | [], .ok =>
    some (world, { (replica.indexPrune seqs).endMaintain with
      cachedHigh := fun topition =>
        if affected.contains topition then 0 else replica.cachedHigh topition })
  | seq :: rest, .ok =>
    some (world.delete seq, replica.setMaintain (.deleting expired seqs rest affected))
  | seq :: _, .lost => some (world.delete seq, replica.endMaintain)
  | _ :: _, .failed => some (world, replica.endMaintain)
  | _, _ => none

/-! ### Compaction -/

/-- The first candidate comes from the process's own hint, or else from a listing. -/
def hintStep (world : World) (replica : Replica) (job : Job) : Response → Option Replica
  | .ok =>
    some (replica.setMaintain (.hintFloor job (replica.cachedSeq.getD
      (nextAfter ((world.listAfter none).map Prod.fst).max?))))
  | .failed => some replica.endMaintain
  | _ => none

def hintFloorStep (world : World) (replica : Replica) (job : Job) (next : Nat) :
    Response → Option Replica
  | .ok => some (replica.setMaintain (.put job (max next world.floor)))
  | .failed => some replica.endMaintain
  | _ => none

def jobPutStep (config : Config) (world : World) (replica : Replica) (job : Job)
    (candidate : Nat) (response : Response) : Option (World × Replica) :=
  match encodeSegmentIndexed job.writes job.writerEpoch job.nonce config.segmentFormatVersion with
  | .error _ => some (world, replica.endMaintain)
  | .ok (_, footer) =>
    (world.putCreate
      { seq := candidate, floorAt := world.floor, flushed := false, writes := job.writes, footer }
      response).map (fun (after, answer) =>
        (after, replica.setMaintain (.answered job candidate footer answer)))

def jobWon (replica : Replica) (job : Job) (seq : Nat) (footer : SegmentFooter) : Replica :=
  let hinted := replica.setSeq (seq + 1)
  if hinted.resolvedMax.any (fun cursor => seq ≤ cursor + 1) then
    hinted.setMaintain (.insert job seq footer)
  else hinted.setMaintain (.foldBelow job seq footer)

def jobResolveStep (world : World) (replica : Replica) (job : Job) (candidate : Nat)
    (footer : SegmentFooter) (answer : Answer) (response : Response) : Option Replica :=
  (world.resolveSegmentCreate candidate job.nonce answer response).map (fun result =>
    match result with
    | .won => replica.jobWon job candidate footer
    | .lost => replica.setMaintain (.refresh job)
    | .failed => replica.endMaintain)

def jobCandidateStep (world : World) (replica : Replica) (job : Job) (listed : Option Nat) :
    Response → Option Replica :=
  replica.tailNextSeqFolded world listed (fun candidate => replica.setMaintain (.put job candidate))
    (fun floor generation => replica.setMaintain (.floor job listed floor generation))
    replica.endMaintain

def maintainStep (config : Config) (world : World) (replica : Replica) (response : Response) :
    Option (World × Replica) :=
  match replica.maintain with
  | none => none
  | some task =>
    match task with
    | .floors doomed affected todo =>
      if response = .ok then some (world, replica.floorsStep config doomed affected todo)
      else none
    | .floorHeld doomed affected topition tail todo =>
      replica.floorHeldStep world doomed affected topition tail todo response
    | .retire expired seqs affected => replica.retireStep world expired seqs affected response
    | .deleting expired seqs left affected =>
      replica.deletingStep world expired seqs left affected response
    | .hint job => (replica.hintStep world job response).map (fun next => (world, next))
    | .hintFloor job next =>
      (replica.hintFloorStep world job next response).map (fun next => (world, next))
    | .put job candidate => replica.jobPutStep config world job candidate response
    | .answered job candidate footer answer =>
      (replica.jobResolveStep world job candidate footer answer response).map
        (fun next => (world, next))
    | .refresh _ => none
    | .folded job =>
      if response = .ok then
        some (world, replica.setMaintain (.cursor job replica.resolvedMax))
      else none
    | .cursor job listed =>
      (replica.jobCandidateStep world job listed response).map (fun next => (world, next))
    | .floor job listed floor generation =>
      if response = .ok then
        some (world, (replica.certify floor generation).setMaintain
          (.put job (max (nextAfter listed) floor)))
      else none
    | .foldBelow _ _ _ => none
    | .insert job seq footer =>
      if response = .ok then
        some (world, (replica.insertSegment seq footer).setMaintain (.retire false job.run []))
      else none

end Replica

end Kodansu.Leaseless

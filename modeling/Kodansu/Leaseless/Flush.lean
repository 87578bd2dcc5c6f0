/-
The leaseless flush: fold what peers have written, derive a candidate name and each
sub-stream's base, classify idempotent batches against the folded log, and try to create the
segment.  A create that is lost is folded and the next name is tried.
-/

import Kodansu.Leaseless.Refresh

namespace Kodansu.Leaseless

open Index Lib Segment Record Producer

/-! ### Assigning offsets -/

def foldCoord (producerId : Int) (baseOffset : Int) (tail : ProducerTail) (coord : ProducerCoord) :
    ProducerTail :=
  if coord.folds && coord.producerId = producerId then
    tail.fold coord.producerEpoch coord.baseSequence coord.lastSequence
      (baseOffset + coord.offsetDelta)
  else tail

def producerTailFolded (index : PrefixIndex) (key : SubstreamKey) (producerId : Int) :
    ProducerTail :=
  (index.validSubstreamSegments key).foldl (fun tail fenced =>
    fenced.entry.producers.foldl (foldCoord producerId fenced.entry.baseOffset) tail) {}

structure Assigning where
  running : Int
  tails : Int → ProducerTail
  batches : List Batch := []
  outcomes : List (Pending × Outcome) := []

namespace Assigning

def admitted (state : Assigning) (pending : Pending) : Assigning :=
  { state with
    running := state.running + pending.batch.offsets
    batches := state.batches ++ [pending.batch]
    outcomes := state.outcomes ++ [(pending, .acked state.running)] }

def answer (state : Assigning) (pending : Pending) (outcome : Outcome) : Assigning :=
  { state with outcomes := state.outcomes ++ [(pending, outcome)] }

def foldAdmitted (state : Assigning) (batch : Batch) : Assigning :=
  { state with
    tails := Function.update state.tails batch.producerId
      ((state.tails batch.producerId).fold batch.producerEpoch batch.baseSequence
        (Int.bmod (batch.baseSequence + batch.lastOffsetDelta) (2 ^ 32)) state.running) }

def push (state : Assigning) (pending : Pending) : Assigning :=
  let batch := pending.batch
  if batch.isIdempotent then
    match (state.tails batch.producerId).classify batch.producerEpoch batch.baseSequence with
    | .admitted => (state.foldAdmitted batch).admitted pending
    | .duplicate offset => state.answer pending (.acked offset)
    | .outOfOrder => state.answer pending .outOfOrder
    | .fenced => state.answer pending .fenced
  else state.admitted pending

end Assigning

def topitionsOf (pending : List Pending) : List Topition :=
  (pending.map Pending.topition).dedup.insertionSort (· ≤ ·)

def assignTopition (config : Config) (index : PrefixIndex) (pending : List Pending)
    (topition : Topition) (base : Int) : Assigning :=
  (pending.filter (fun waiting => waiting.topition = topition)).foldl Assigning.push
    { running := base, tails := producerTailFolded index (config.pins.key topition) }

def Assigned.add (config : Config) (assigned : Assigned) (topition : Topition) (base : Int)
    (share : Assigning) : Assigned :=
  { writes := if share.batches = [] then assigned.writes
      else assigned.writes ++
        [{ topition, substream := config.pins.substream topition, baseOffset := base,
           batches := share.batches }]
    outcomes := assigned.outcomes ++ share.outcomes
    advances := if share.batches = [] then assigned.advances
      else assigned.advances ++ [(topition, share.running)] }

def acksOf (outcomes : List (Pending × Outcome)) : List Ack :=
  outcomes.filterMap (fun (pending, outcome) => match outcome with
    | .acked offset => some ⟨pending.topition, pending.batch, offset⟩
    | _ => none)

def World.ack (world : World) (assigned : Assigned) : World :=
  { world with acks := world.acks ++ acksOf assigned.outcomes }

/-! ### Steps -/

namespace Replica

def localBase (config : Config) (replica : Replica) (topition : Topition) : Int :=
  max ((substreamTail (replica.index.rows (config.pins.key topition))).getD 0)
    (replica.cachedHigh topition)

def setFlush (replica : Replica) (flush : Flush) (phase : FlushPhase) : Replica :=
  { replica with flush := some { flush with phase } }

def endFlush (replica : Replica) : Replica := { replica with flush := none }

def startFlush (world : World) (replica : Replica) (pending : List Pending) :
    Option (World × Replica) :=
  if replica.flush.isSome then none
  else
    some ({ world with nonces := world.nonces + 1 },
      { replica with flush := some { nonce := world.nonces, pending } })

def giveUp (replica : Replica) : Option Replica :=
  match replica.flush with
  | some flush => match flush.phase with
      | .start => some replica.endFlush
      | _ => none
  | none => none

def attemptStep (world : World) (replica : Replica) (flush : Flush) (response : Response) :
    Option Replica :=
  let taken := { flush with wonByPeer := none }
  match flush.wonByPeer, response with
  | none, .ok => some (replica.setFlush taken .refresh)
  | some seq, .ok =>
    match world.readSegmentFooter seq with
    | some footer => some ((replica.insertSegment seq footer).setFlush taken .folded)
    | none => some (replica.setFlush taken .refresh)
  | some _, .failed => some (replica.setFlush taken .refresh)
  | _, _ => none

/-- The next name after the cursor and the floor.  A floor that is certified for the current
generation is used as it is; otherwise it has to be read. -/
def tailNextSeqFolded (world : World) (replica : Replica) (listed : Option Nat)
    (derived : Nat → Replica) (read : Nat → Nat → Replica) (failed : Replica) :
    Response → Option Replica
  | .ok =>
    match replica.certifiedSeqFloor with
    | some floor => some (derived (max (nextAfter listed) floor))
    | none => some (read world.floor replica.generation)
  | .failed => some failed
  | _ => none

def setBasing (replica : Replica) (flush : Flush) (candidate : Nat) : Replica :=
  replica.setFlush flush (.basing candidate (topitionsOf flush.pending) {})

def candidateStep (world : World) (replica : Replica) (flush : Flush) (listed : Option Nat) :
    Response → Option Replica :=
  replica.tailNextSeqFolded world listed (replica.setBasing flush)
    (fun floor generation => replica.setFlush flush (.floor listed floor generation))
    replica.endFlush

def baseStep (config : Config) (world : World) (replica : Replica) (flush : Flush)
    (candidate : Nat) (topition : Topition) (todo : List Topition) (assigned : Assigned)
    (tail : Int) (response : Response) : Option Replica :=
  let share := fun (floor : Int) =>
    let base := max tail floor
    replica.setFlush flush (.basing candidate todo (assigned.add config topition base
      (assignTopition config replica.index flush.pending topition base)))
  match response with
  | .ok => some (share (world.high topition))
  | .failed => some (share 0)
  | _ => none

def basingStep (config : Config) (world : World) (replica : Replica) (flush : Flush)
    (candidate : Nat) (todo : List Topition) (assigned : Assigned) : World × Replica :=
  match todo with
  | [] =>
    if assigned.writes = [] then (world.ack assigned, replica.endFlush)
    else (world, replica.setFlush flush (.put candidate assigned))
  | topition :: rest =>
    (world, replica.setFlush flush
      (.tail candidate topition rest assigned (replica.localBase config topition)))

def putStep (config : Config) (world : World) (replica : Replica) (flush : Flush)
    (candidate : Nat) (assigned : Assigned) (response : Response) : Option (World × Replica) :=
  match encodeSegmentIndexed assigned.writes config.era flush.nonce config.segmentFormatVersion with
  | .error _ => some (world, replica.endFlush)
  | .ok (_, footer) =>
    (world.putCreate
      { seq := candidate, floorAt := world.floor, flushed := true, writes := assigned.writes, footer }
      response).map (fun (after, answer) =>
        (after, replica.setFlush flush (.answered candidate assigned footer answer)))

/-- The segment is durable: index it, advance the hints and answer the producers. -/
def finalize (world : World) (replica : Replica) (candidate : Nat) (footer : SegmentFooter)
    (assigned : Assigned) : World × Replica :=
  let indexed := (replica.setSeq (candidate + 1)).insertSegment candidate footer
  (world.ack assigned,
    (assigned.advances.foldl (fun replica (topition, high) => replica.setHigh topition high)
      indexed).endFlush)

def resolveStep (world : World) (replica : Replica) (flush : Flush) (candidate : Nat)
    (assigned : Assigned) (footer : SegmentFooter) (answer : Answer) (response : Response) :
    Option (World × Replica) :=
  (world.resolveSegmentCreate candidate flush.nonce answer response).map (fun result =>
    match result with
    | .won => replica.finalize world candidate footer assigned
    | .lost => (world, replica.setFlush { flush with wonByPeer := some candidate } .start)
    | .failed => (world, replica.endFlush))

def flushStep (config : Config) (world : World) (replica : Replica) (response : Response) :
    Option (World × Replica) :=
  match replica.flush with
  | none => none
  | some flush =>
    match flush.phase with
    | .start => (replica.attemptStep world flush response).map (fun next => (world, next))
    | .refresh => none
    | .folded =>
      if response = .ok then
        some (world, replica.setFlush flush (.cursor replica.resolvedMax))
      else none
    | .cursor listed =>
      (replica.candidateStep world flush listed response).map (fun next => (world, next))
    | .floor listed floor generation =>
      if response = .ok then
        some (world, (replica.certify floor generation).setBasing flush
          (max (nextAfter listed) floor))
      else none
    | .basing candidate todo assigned =>
      if response = .ok then
        some (replica.basingStep config world flush candidate todo assigned)
      else none
    | .tail candidate topition todo assigned tail =>
      (replica.baseStep config world flush candidate topition todo assigned tail response).map
        (fun next => (world, next))
    | .put candidate assigned => replica.putStep config world flush candidate assigned response
    | .answered candidate assigned footer answer =>
      replica.resolveStep world flush candidate assigned footer answer response

end Replica

end Kodansu.Leaseless

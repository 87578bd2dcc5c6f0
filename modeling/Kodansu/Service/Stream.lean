/-
One connection of the broker: the half that reads requests, the half that answers them, and what
couples them.

A request takes a slot before its body is read and gives it back once its answer is through.  The
reading half sends what it has read through a bounded channel, and goes on when the request is
admitted or answered; a request that is no produce waits first until it is the only one with a
slot.  The answering half runs what it has received side by side and takes the answers in the order
of the requests.  Both halves run in one task, so each of their stretches between two awaits is one
step.  When an answer fails the reading half is cancelled, but it is polled before the cancellation
is looked at: until it is dropped it may still take steps.

The inner service is open: it starts, admits and answers what it has received in any order.
-/

import Kodansu.Lib.Transition
import Kodansu.Lib.Wire

namespace Kodansu.Service

open Lib

/-- What the operator sets of a connection, and the API keys the protocol has. -/
structure TcpContext where
  pipelineDepth : Nat
  positive : 0 < pipelineDepth
  connectionsMaxIdle : Option Nat := none
  requests : List Int := [0, 1]

def produceKey : Int := 0

def frameApiKey (requests : List Int) (frame : List UInt8) : Int :=
  let head := (frame.drop 4).take 2
  if head.length = 2 ∧ Wire.bytesInt head ∈ requests then Wire.bytesInt head else -1

structure Request where
  number : Nat
  apiKey : Int
deriving DecidableEq

def Request.isProduce (request : Request) : Bool := decide (request.apiKey = produceKey)

inductive Answer
  | frame (response : List UInt8)
  | error
deriving DecidableEq

/-- A request read and not yet answered: what has become of it so far. -/
structure Owed where
  request : Request
  noResponse : Bool := false
  started : Bool := false
  answer : Option Answer := none

def Request.owed (request : Request) : Owed where
  request := request

inductive Reading
  | waiting
  | sized
  | holding
  | barrier (request : Request)
  | sending (request : Request)
  | admitting (number : Nat)
  | muted
  | ended
deriving DecidableEq

def Reading.request : Reading → Option Request
  | .barrier request => some request
  | .sending request => some request
  | _ => none

def Reading.slots : Reading → Nat
  | .holding => 1
  | _ => 0

inductive Event
  | read (request : Request)
  | started (request : Request)
  | admitted (number : Nat)
  | completed (number : Nat) (answer : Answer)
  | silenced (number : Nat)
  | written (number : Nat) (response : List UInt8)
  | failed (number : Nat)
deriving DecidableEq

/-- The last three fields number the requests read, count those whose answers have been taken, and
record what has happened, newest first. -/
structure Connection where
  reading : Reading := .waiting
  free : Nat
  channel : List Owed := []
  answers : List Owed := []
  writing : Option Owed := none
  isOpen : Bool := true
  failed : Bool := false
  finished : Bool := false
  signalled : List Nat := []
  count : Nat := 0
  settled : Nat := 0
  log : List Event := []

/-! ### The reading half -/

inductive ReadAct
  | drain
  | idle
  | size
  | fail
  | acquire
  | read (frame : List UInt8)
  | pass
  | send
  | proceed
  | unmute

/-- A request has been read: a produce goes on at once, any other waits at the barrier. -/
def Connection.take (connection : Connection) (request : Request) : Connection :=
  { connection with
    reading := if request.isProduce then .sending request else .barrier request
    count := connection.count + 1
    log := .read request :: connection.log }

def Connection.send (connection : Connection) (request : Request) : Connection :=
  { connection with
    reading := .admitting request.number
    channel := connection.channel ++ [request.owed] }

def Connection.read (connection : Connection) (context : TcpContext) :
    ReadAct → Option Connection
  | act =>
    match connection.reading, act with
    | .waiting, .drain => some { connection with reading := .ended }
    | .waiting, .idle =>
      -- `connections.max.idle.ms` runs only while nothing is owed.
      if context.connectionsMaxIdle.isSome ∧ connection.free = context.pipelineDepth then
        some { connection with reading := .ended }
      else none
    | .waiting, .size => some { connection with reading := .sized }
    | .waiting, .fail => some { connection with reading := .ended }
    | .sized, .acquire =>
      if 0 < connection.free then
        some { connection with reading := .holding, free := connection.free - 1 }
      else none
    | .holding, .read frame =>
      some (connection.take ⟨connection.count, frameApiKey context.requests frame⟩)
    | .holding, .fail =>
      some { connection with reading := .ended, free := connection.free + 1 }
    | .barrier request, .pass =>
      -- The other slots are taken together and let go at once.
      if context.pipelineDepth - 1 ≤ connection.free then
        some { connection with reading := .sending request }
      else none
    | .sending request, .send =>
      if connection.channel.length < context.pipelineDepth then
        some (connection.send request)
      else none
    | .admitting number, .proceed =>
      if number ∈ connection.signalled then some { connection with reading := .muted }
      else none
    | .muted, .unmute => some { connection with reading := .waiting }
    | .muted, .drain => some { connection with reading := .ended }
    | _, _ => none

/-- A cancelled reading half is dropped, with the slot of what it has not sent. -/
def Connection.cancel (connection : Connection) : Connection :=
  { connection with
    reading := .ended
    free := connection.free + connection.reading.slots + connection.reading.request.toList.length }

/-! ### The answering half -/

inductive ServeAct
  | start
  | admitted
  | silence
  | complete (answer : Answer)

def Owed.serve (owed : Owed) : ServeAct → Option (Owed × List Event)
  | .start =>
    if owed.started then none
    else some ({ owed with started := true }, [.started owed.request])
  | .admitted =>
    if owed.started then some (owed, [.admitted owed.request.number]) else none
  | .silence =>
    if owed.started ∧ owed.answer = none then some ({ owed with noResponse := true }, [])
    else none
  | .complete answer =>
    if owed.started ∧ owed.answer = none then
      some ({ owed with answer := some answer }, [.completed owed.request.number answer])
    else none

inductive AnswerAct
  | receive
  | close
  | serve (index : Nat) (act : ServeAct)
  | next
  | wrote
  | broke
  | finish

/-- What is owed has been answered, or given up: its admission fires and its slot is free. -/
def Connection.release (connection : Connection) (owed : Owed) : Connection :=
  { connection with
    free := connection.free + 1
    signalled := owed.request.number :: connection.signalled
    settled := connection.settled + 1 }

def Event.signal : Event → Option Nat
  | .admitted number => some number
  | _ => none

/-- Take the oldest answer, once it is there. -/
def Connection.next (connection : Connection) : Option Connection :=
  match connection.writing, connection.answers with
  | none, owed :: rest =>
    match owed.answer with
    | none => none
    | some answer =>
      if connection.failed then
        -- Run to the end, and not written.
        some ({ connection with answers := rest }.release owed)
      else
        match answer with
        | .frame _ =>
          if owed.noResponse then
            some
              ({ connection with
                answers := rest
                log := .silenced owed.request.number :: connection.log }.release owed)
          else some { connection with answers := rest, writing := some owed }
        | .error =>
          some
            ({ connection with
              answers := rest
              failed := true
              log := .failed owed.request.number :: connection.log }.release owed)
  | _, _ => none

def Connection.answer (connection : Connection) : AnswerAct → Option Connection
  | .receive =>
    match connection.writing, connection.channel with
    | none, owed :: rest =>
      if connection.isOpen ∧ ¬ connection.failed then
        some { connection with channel := rest, answers := connection.answers ++ [owed] }
      else none
    | _, _ => none
  | .close =>
    if connection.writing.isNone ∧ connection.isOpen ∧ ¬ connection.failed ∧
        connection.channel.isEmpty ∧ connection.reading = .ended then
      some { connection with isOpen := false }
    else none
  | .serve index act =>
    match connection.answers[index]? with
    | none => none
    | some owed =>
      (owed.serve act).map (fun served =>
        { connection with
          answers := connection.answers.set index served.1
          signalled := served.2.filterMap Event.signal ++ connection.signalled
          log := served.2 ++ connection.log })
  | .next => connection.next
  | .wrote =>
    match connection.writing with
    | some owed =>
      match owed.answer with
      | some (.frame response) =>
        some
          ({ connection with
            writing := none
            log := .written owed.request.number response :: connection.log }.release owed)
      | _ => none
    | none => none
  | .broke =>
    match connection.writing with
    | some owed =>
      some
        ({ connection with
          writing := none
          failed := true
          log := .failed owed.request.number :: connection.log }.release owed)
    | none => none
  | .finish =>
    if connection.writing.isNone ∧ ¬ (connection.isOpen ∧ ¬ connection.failed) ∧
        connection.answers.isEmpty then
      some { connection with finished := true }
    else none

inductive Act
  | read (act : ReadAct)
  | cancel
  | answer (act : AnswerAct)

def Connection.step (context : TcpContext) (connection : Connection) : Act → Option Connection
  | .read act => connection.read context act
  | .cancel =>
    if connection.failed ∧ connection.reading ≠ .ended then some connection.cancel else none
  | .answer act => if connection.finished then none else connection.answer act

def serve (context : TcpContext) : System Connection Act where
  init := { free := context.pipelineDepth }
  step := Connection.step context

end Kodansu.Service

/-
What holds of every run of a connection: answers in the order of the requests, requests started in
time, and a bound on what is read and unanswered.

The requests that have been read and whose answers have not been taken stand in one line: the one
being written, those running, those in the channel, and the one that the reading half holds.  Their
numbers are consecutive, each has a slot, and while nothing has failed everything before the line
is answered.  When an answer fails, its slot is free again and the reading half, which is polled once
more, can take it: the bound is exceeded by one request, and that one is never received.
-/

import Kodansu.Service.Stream

namespace Kodansu.Service

open Lib List

/-! ### What was allowed when it happened -/

def reads (log : List Event) : List Nat :=
  log.filterMap (fun event =>
    match event with
    | .read request => some request.number
    | _ => none)

def answered (log : List Event) : List Nat :=
  log.filterMap (fun event =>
    match event with
    | .silenced number => some number
    | .written number _ => some number
    | _ => none)

def unanswered (log : List Event) : List Nat :=
  (reads log).filter (fun number => decide (number ∉ answered log))

def Event.isFailure : Event → Bool
  | .failed _ => true
  | _ => false

/-- The requests that were read after a failure. -/
def lateReads : List Event → Nat
  | [] => 0
  | .read _ :: past => lateReads past + if past.any Event.isFailure then 1 else 0
  | _ :: past => lateReads past

def Passed (log : List Event) (number : Nat) : Prop :=
  .admitted number ∈ log ∨ number ∈ answered log

/-- An event after these: requests are numbered as they are read and bounded by the depth, and one
may be read after a failure; they start in time, and get their own answer, in order and before any
failure. -/
def Allowed (depth : Nat) (past : List Event) : Event → Prop
  | .read request => request.number = (reads past).length ∧
      if past.any Event.isFailure then lateReads past = 0 else (unanswered past).length < depth
  | .started request =>
    request.number ∈ reads past ∧
      if request.isProduce then ∀ earlier < request.number, Passed past earlier
      else ∀ earlier < request.number, earlier ∈ answered past
  | .written number response =>
    number ∈ reads past ∧ .completed number (.frame response) ∈ past ∧
      (∀ earlier other, .written earlier other ∈ past → earlier < number) ∧
      ∀ earlier, .failed earlier ∉ past
  | _ => True

def Orderly (depth : Nat) : List Event → Prop
  | [] => True
  | event :: past => Allowed depth past event ∧ Orderly depth past

variable {conn : Connection} {log : List Event} {number : Nat} {event : Event}

lemma answered_append (events : List Event) :
    number ∈ answered (events ++ log) ↔ number ∈ answered events ∨ number ∈ answered log := by
  unfold answered
  rw [filterMap_append,mem_append]

lemma Passed.append (events : List Event) (passed : Passed log number) :
    Passed (events ++ log) number := by
  cases passed with
  | inl isAdmitted => exact .inl (mem_append_right _ isAdmitted)
  | inr isAnswered => exact .inr ((answered_append events).mpr (.inr isAnswered))

lemma answered_cons (isAnswered : number ∈ answered log) : number ∈ answered (event :: log) :=
  (answered_append [event]).mpr (.inr isAnswered)

lemma Passed.cons (passed : Passed log number) : Passed (event :: log) number :=
  passed.append [event]

/-- Up to where the reading half has seen that requests may be followed by others. -/
def Reading.Caught (count : Nat) (log : List Event) : Reading → Prop
  | .admitting number => number + 1 = count ∧ ∀ earlier < number, Passed log earlier
  | .barrier _ | .sending _ | .ended => True
  | _ => ∀ earlier < count, Passed log earlier

lemma Reading.Caught.append {reading : Reading} {count : Nat} (events : List Event)
    (caught : reading.Caught count log) : reading.Caught count (events ++ log) := by
  cases reading with
  | admitting number =>
    exact ⟨caught.1,fun earlier below => (caught.2 earlier below).append events⟩
  | barrier | sending | ended => trivial
  | _ => exact fun earlier below => (caught earlier below).append events

lemma unanswered_cons_length (log : List Event) (event : Event) :
    (unanswered (event :: log)).length ≤ (unanswered log).length + (reads [event]).length := by
  have split : reads (event :: log) = reads [event] ++ reads log := by
    unfold reads
    rw [← filterMap_append]
    rfl
  have fewer : ((reads log).filter (fun number => decide (number ∉ answered (event :: log)))).length ≤
      (unanswered log).length := by
    unfold unanswered
    rw [← countP_eq_length_filter,← countP_eq_length_filter]
    apply countP_mono_left
    intro number _ isUnanswered
    exact decide_eq_true (fun before => of_decide_eq_true isUnanswered (answered_cons before))
  rw [unanswered,split,filter_append,length_append]
  have few := length_filter_le (fun number => decide (number ∉ answered (event :: log)))
    (reads [event])
  omega

lemma lateReads_unfailed {log : List Event} (unfailed : log.any Event.isFailure = false) :
    lateReads log = 0 := by
  induction log with
  | nil => rfl
  | cons event past ih =>
    rw [any_cons,Bool.or_eq_false_iff] at unfailed
    cases event with
    | read req =>
      simp only [lateReads,unfailed.2,Bool.false_eq_true,if_false,ih unfailed.2]
    | _ => exact ih unfailed.2

lemma lateReads_append {events : List Event} (unread : reads events = []) (log : List Event) :
    lateReads (events ++ log) = lateReads log := by
  induction events with
  | nil => rfl
  | cons event later ih =>
    cases event with
    | read req => cases unread
    | _ => exact ih unread

/-- At most `depth` requests are read and unanswered, but for one that is read after a failure. -/
lemma Orderly.bounded {depth : Nat} {log : List Event} (orderly : Orderly depth log) :
    (unanswered log).length ≤ depth + lateReads log ∧ lateReads log ≤ 1 := by
  induction log with
  | nil => exact ⟨Nat.zero_le _,Nat.zero_le _⟩
  | cons event past ih =>
    obtain ⟨before,late⟩ := ih orderly.2
    have after := unanswered_cons_length past event
    cases event with
    | read req =>
      have allowed := orderly.1.2
      have one : (reads [.read req]).length = 1 := rfl
      simp only [lateReads]
      split at allowed
      · rename_i failure
        rw [if_pos failure]
        omega
      · rename_i noFailure
        rw [if_neg noFailure]
        omega
    | _ => exact ⟨le_trans after before,late⟩

/-! ### The line of requests -/

def Reading.passed : Reading → Option Request
  | .sending request => some request
  | _ => none

namespace Connection

def running (connection : Connection) : List Owed :=
  connection.writing.toList ++ connection.answers

def owing (connection : Connection) : List Owed :=
  connection.running ++ connection.channel

def pending (connection : Connection) : List Request :=
  connection.owing.map Owed.request ++ connection.reading.request.toList

def beyond (connection : Connection) : List Request :=
  connection.owing.map Owed.request ++ connection.reading.passed.toList

end Connection

/-- Where the reading half stands once it has read a request after a failure: it is not received, so
the half does not come to the next one. -/
def Reading.Stuck (count : Nat) (channel : List Owed) : Reading → Prop
  | .barrier _ | .sending _ | .ended => True
  | .admitting number => number + 1 = count ∧ channel ≠ []
  | _ => False

/-- A request that runs has come in its turn. -/
structure InTurn (log : List Event) (request : Request) : Prop where
  passed : ∀ earlier < request.number, Passed log earlier
  alone : request.isProduce = false → ∀ earlier < request.number, earlier ∈ answered log

lemma InTurn.append {log : List Event} {request : Request} (events : List Event)
    (inTurn : InTurn log request) : InTurn (events ++ log) request where
  passed earlier below := (inTurn.passed earlier below).append events
  alone unproduced earlier below :=
    (answered_append events).mpr (.inr (inTurn.alone unproduced earlier below))

/-- What holds of a connection between two steps. -/
structure Sound (depth : Nat) (connection : Connection) : Prop where
  orderly : Orderly depth connection.log
  numbered : reads connection.log = (List.range connection.count).reverse
  line : connection.pending.map Request.number =
    List.range' connection.settled connection.pending.length
  within : connection.settled + connection.pending.length ≤ connection.count
  slots : connection.free + connection.pending.length + connection.reading.slots = depth
  inTurn : ∀ owed ∈ connection.running, InTurn connection.log owed.request
  cleared : connection.failed = false → ∀ request ∈ connection.pending,
    ∀ earlier < request.number, Passed connection.log earlier
  alone : connection.failed = false → ∀ request ∈ connection.beyond, request.isProduce = false →
    ∀ earlier < request.number, earlier ∈ answered connection.log
  completed : ∀ owed ∈ connection.owing, ∀ answer, owed.answer = some answer →
    .completed owed.request.number answer ∈ connection.log
  written : ∀ number response, .written number response ∈ connection.log →
    number < connection.settled
  clean : connection.writing.isSome = true → connection.failed = false
  failure : connection.log.any Event.isFailure = connection.failed
  whole : (connection.failed = true → connection.reading ≠ .ended) →
    connection.settled + connection.pending.length = connection.count
  bound : ∀ number ∈ connection.signalled,
    number < connection.settled + connection.running.length
  late : lateReads connection.log = 0 ∨
    lateReads connection.log = 1 ∧ connection.reading.Stuck connection.count connection.channel
  behind : connection.failed = false → ∀ number < connection.settled,
    number ∈ answered connection.log
  signals : connection.failed = false → ∀ number ∈ connection.signalled,
    Passed connection.log number
  caught : connection.failed = false → connection.reading.Caught connection.count connection.log

namespace Sound

lemma init (context : TcpContext) : Sound context.pipelineDepth (serve context).init where
  orderly := trivial
  numbered := rfl
  line := rfl
  within := Nat.le_refl 0
  slots := rfl
  inTurn := nofun
  cleared := nofun
  alone := nofun
  completed := nofun
  written := nofun
  clean := nofun
  failure := rfl
  whole := fun _ => rfl
  bound := nofun
  late := .inl rfl
  behind := fun _ number below => absurd below (Nat.not_lt_zero number)
  signals := nofun
  caught := fun _ number below => absurd below (Nat.not_lt_zero number)

lemma Reading.of_take (req : Request) :
    (conn.take req).reading.request = some req ∧
      (conn.take req).reading.slots = 0 := by
  unfold Connection.take
  split <;> exact ⟨rfl,rfl⟩

variable {depth : Nat} (sound : Sound depth conn)

include sound

variable {reading : Reading} {free index : Nat} {channel answers rest : List Owed}
  {writing : Option Owed} {isOpen finished failed : Bool} {signalled : List Nat} {req : Request}
  {owed : Owed} {context : TcpContext} {act : ReadAct} {events : List Event} {resp : List UInt8}

/-- The line stays as it is, wherever its requests stand. -/
lemma rearranged {after : Connection} (is : after = { conn with
      reading, free, channel, answers, writing, isOpen, finished, signalled })
    (line : after.pending = conn.pending)
    (slots : free + reading.slots = conn.free + conn.reading.slots)
    (ended : conn.reading = .ended → reading = .ended)
    (inTurn : ∀ owed ∈ after.running, InTurn conn.log owed.request)
    (alone : conn.failed = false → ∀ req ∈ after.beyond, req.isProduce = false →
      ∀ earlier < req.number, earlier ∈ answered conn.log)
    (completed : ∀ owed ∈ after.owing, ∀ answer, owed.answer = some answer →
      .completed owed.request.number answer ∈ conn.log)
    (clean : writing.isSome = true → conn.failed = false)
    (bound : ∀ number ∈ signalled, number < conn.settled + after.running.length)
    (late : lateReads conn.log = 0 ∨
      lateReads conn.log = 1 ∧ reading.Stuck conn.count channel)
    (signals : conn.failed = false → ∀ number ∈ signalled, Passed conn.log number)
    (caught : conn.failed = false → reading.Caught conn.count conn.log) :
    Sound depth after := by
  subst is
  exact {
    sound with
    line := by rw [line]; exact sound.line
    within := by rw [line]; exact sound.within
    slots := by
      have before := sound.slots
      rw [line]
      change free + conn.pending.length + reading.slots = depth
      omega
    inTurn
    cleared := by rw [line]; exact sound.cleared
    alone
    completed
    clean
    whole := by
      rw [line]
      exact fun live => sound.whole (fun failed wasEnded => live failed (ended wasEnded))
    bound
    late
    signals
    caught }

lemma moves (req : reading.request = conn.reading.request)
    (slots : free + reading.slots = conn.free + conn.reading.slots)
    (ended : conn.reading = .ended → reading = .ended)
    (alone : conn.failed = false → ∀ req, reading.passed = some req →
      ∀ earlier < req.number, earlier ∈ answered conn.log)
    (late : conn.reading.Stuck conn.count conn.channel →
      reading.Stuck conn.count conn.channel)
    (caught : conn.failed = false → reading.Caught conn.count conn.log) :
    Sound depth { conn with reading, free } := by
  apply sound.rearranged rfl
  · unfold Connection.pending
    rw [req]
    rfl
  · exact slots
  · exact ended
  · exact sound.inTurn
  · intro unfailed req isBeyond unproduced
    cases mem_append.mp isBeyond with
    | inl isOwing => exact sound.alone unfailed req (mem_append_left _ isOwing) unproduced
    | inr isPassed => exact alone unfailed req (Option.mem_toList.mp isPassed)
  · exact sound.completed
  · exact sound.clean
  · exact sound.bound
  · exact sound.late.imp_right (And.imp_right late)
  · exact sound.signals
  · exact caught

lemma unanswered_length (unfailed : conn.failed = false) :
    (unanswered conn.log).length ≤ conn.pending.length := by
  have nodup : (unanswered conn.log).Nodup := by
    apply List.Nodup.filter
    rw [sound.numbered,nodup_reverse]
    exact nodup_range
  have inLine : unanswered conn.log ⊆
      List.range' conn.settled conn.pending.length := by
    intro number isUnanswered
    obtain ⟨isRead,unanswered⟩ := mem_filter.mp isUnanswered
    rw [sound.numbered,mem_reverse,mem_range] at isRead
    have later : conn.settled ≤ number := by
      by_contra before
      exact of_decide_eq_true unanswered (sound.behind unfailed number (not_le.mp before))
    have whole := sound.whole (fun failed => nomatch failed.symm.trans unfailed)
    rw [mem_range'_1]
    omega
  have fewer := (subperm_of_subset nodup inLine).length_le
  rwa [length_range'] at fewer

lemma takes {req : Request} (holding : conn.reading = .holding)
    (number : req.number = conn.count) : Sound depth (conn.take req) := by
  have passed : conn.failed = false → ∀ earlier < conn.count, Passed conn.log earlier := by
    intro unfailed
    have caught := sound.caught unfailed
    rw [holding] at caught
    exact caught
  have grown : (conn.take req).pending = conn.pending ++ [req] := by
    unfold Connection.pending
    rw [(Reading.of_take req).1,holding]
    exact (congrArg (· ++ [req]) (append_nil _)).symm
  have slots := sound.slots
  rw [holding,show Reading.holding.slots = 1 from rfl] at slots
  have room : conn.pending.length < depth := by omega
  have whole := sound.whole (fun _ => by rw [holding]; rintro ⟨⟩)
  -- Only one request is read after a failure: the reading half does not come here again.
  have first : lateReads conn.log = 0 := by
    cases sound.late with
    | inl none => exact none
    | inr stuck =>
      rw [holding] at stuck
      cases stuck.2
  exact {
    orderly := by
      change Allowed depth conn.log (.read req) ∧ Orderly depth conn.log
      refine ⟨⟨?_,?_⟩,sound.orderly⟩
      · rw [number,sound.numbered,length_reverse,length_range]
      · rw [sound.failure]
        split
        · exact first
        · rename_i unfailed
          exact lt_of_le_of_lt (sound.unanswered_length (Bool.eq_false_iff.mpr unfailed)) room
    numbered := by
      change req.number :: reads conn.log = (List.range (conn.count + 1)).reverse
      rw [sound.numbered,number,range_succ,reverse_append]
      rfl
    line := by
      rw [grown,map_append,sound.line,length_append,map_singleton,number,← whole,
        length_singleton,List.range'_1_concat]
      rfl
    within := by
      rw [grown,length_append]
      change conn.settled + (conn.pending.length + 1) ≤ conn.count + 1
      omega
    slots := by
      rw [grown,length_append,(Reading.of_take req).2]
      change conn.free + (conn.pending.length + 1) = depth
      omega
    inTurn := fun owed isRunning => (sound.inTurn owed isRunning).append [.read req]
    cleared := by
      rw [grown]
      intro unfailed other isPending earlier before
      apply Passed.cons
      cases mem_append.mp isPending with
      | inl inLine => exact sound.cleared unfailed other inLine earlier before
      | inr isNew =>
        rw [mem_singleton.mp isNew,number] at before
        exact passed unfailed earlier before
    alone := by
      intro unfailed other isBeyond unproduced earlier before
      cases mem_append.mp isBeyond with
      | inl isOwing =>
        exact answered_cons
          (sound.alone unfailed other (mem_append_left _ isOwing) unproduced earlier before)
      | inr isPassed =>
        unfold Connection.take at isPassed
        split at isPassed
        · rename_i produced
          rw [mem_singleton.mp isPassed,produced] at unproduced
          cases unproduced
        · cases isPassed
    completed := fun owed isOwing answer isAnswer =>
      .tail _ (sound.completed owed isOwing answer isAnswer)
    written := by
      intro other resp isWritten
      cases mem_cons.mp isWritten with
      | inl same => cases same
      | inr before => exact sound.written other resp before
    clean := sound.clean
    failure := sound.failure
    whole := by
      intro _
      rw [grown,length_append]
      change conn.settled + (conn.pending.length + 1) = conn.count + 1
      omega
    bound := sound.bound
    late := by
      change lateReads conn.log + _ = 0 ∨ lateReads conn.log + _ = 1 ∧ _
      rw [first]
      split
      · refine .inr ⟨rfl,?_⟩
        unfold Connection.take
        split <;> trivial
      · exact .inl rfl
    behind := fun still other before => answered_cons (sound.behind still other before)
    signals := fun still other isSignalled => (sound.signals still other isSignalled).cons
    caught := by
      intro _
      unfold Connection.take
      split <;> trivial }

lemma alone_at_barrier (unfailed : conn.failed = false)
    (atBarrier : conn.reading = .barrier req) (free : depth - 1 ≤ conn.free) :
    ∀ earlier < req.number, earlier ∈ answered conn.log := by
  have slots := sound.slots
  have isPending : conn.pending = conn.owing.map Owed.request ++ [req] := by
    unfold Connection.pending
    rw [atBarrier]
    rfl
  have none : (conn.owing.map Owed.request).length = 0 := by
    rw [isPending,length_append,length_singleton] at slots
    omega
  rw [length_eq_zero_iff.mp none,nil_append] at isPending
  have line := sound.line
  rw [isPending] at line
  have first : req.number = conn.settled := head_eq_of_cons_eq line
  rw [first]
  exact sound.behind unfailed

lemma cancelled (failed : conn.failed = true) : Sound depth conn.cancel := by
  have still : ∀ {fact : Prop}, conn.cancel.failed = false → fact := by
    intro fact unfailed
    cases failed.symm.trans unfailed
  have shorter : conn.pending =
      conn.cancel.pending ++ conn.reading.request.toList := by
    unfold Connection.pending
    rw [show conn.cancel.reading.request.toList = [] from rfl,append_nil]
    rfl
  exact {
    sound with
    line := by
      have line := sound.line
      rw [shorter,map_append,length_append,← List.range'_append_1] at line
      exact (append_inj line (by rw [length_map,length_range'])).1
    within := by
      have within := sound.within
      rw [shorter,length_append] at within
      change conn.settled + conn.cancel.pending.length ≤ conn.count
      omega
    slots := by
      have slots := sound.slots
      rw [shorter,length_append] at slots
      change conn.free + conn.reading.slots +
        conn.reading.request.toList.length + conn.cancel.pending.length + 0 = depth
      omega
    cleared := still
    alone := still
    whole := fun live => absurd rfl (live failed)
    late := sound.late.imp_right (And.imp_right (fun _ => trivial))
    behind := still
    signals := still
    caught := still }

lemma sends {req : Request} (sending : conn.reading = .sending req) :
    Sound depth (conn.send req) := by
  have line : (conn.send req).pending = conn.pending := by
    unfold Connection.pending Connection.owing Connection.send
    rw [sending]
    simp [Reading.request,Request.owed,Connection.running]
  have beyond : (conn.send req).beyond = conn.beyond := by
    unfold Connection.beyond Connection.owing Connection.send
    rw [sending]
    simp [Reading.passed,Request.owed,Connection.running]
  have owing : (conn.send req).owing = conn.owing ++ [req.owed] :=
    (append_assoc _ _ _).symm
  have isLast : conn.pending = conn.owing.map Owed.request ++ [req] := by
    unfold Connection.pending
    rw [sending]
    rfl
  have last : req.number + 1 = conn.count := by
    have whole := sound.whole (fun _ => by rw [sending]; rintro ⟨⟩)
    have numbers := sound.line
    rw [isLast,length_append,length_singleton] at whole
    rw [isLast,map_append,length_append,length_singleton,List.range'_1_concat] at numbers
    have number := (append_inj' numbers rfl).2
    rw [map_singleton,List.cons.injEq] at number
    omega
  apply sound.rearranged rfl line
  · rw [sending]
    rfl
  · rw [sending]
    rintro ⟨⟩
  · exact sound.inTurn
  · change _ → ∀ other ∈ (conn.send req).beyond, _
    rw [beyond]
    exact sound.alone
  · change ∀ owed ∈ (conn.send req).owing, _
    rw [owing]
    intro owed isOwing answer isAnswer
    cases mem_append.mp isOwing with
    | inl before => exact sound.completed owed before answer isAnswer
    | inr isNew =>
      rw [mem_singleton.mp isNew] at isAnswer
      cases isAnswer
  · exact sound.clean
  · exact sound.bound
  · exact sound.late.imp_right
      (And.imp_right (fun _ => ⟨last,append_ne_nil_of_right_ne_nil _ (cons_ne_nil _ _)⟩))
  · exact sound.signals
  · intro unfailed
    have inLine : req ∈ conn.pending := by
      rw [isLast]
      exact mem_append_right _ (.head _)
    exact ⟨last,sound.cleared unfailed req inLine⟩

def quiet : Event → Prop
  | .started _ | .admitted _ | .completed _ _ => True
  | _ => False

lemma logs (event : Event) (isQuiet : quiet event)
    (allowed : Allowed depth conn.log event) :
    Sound depth { conn with log := event :: conn.log } := by
  have before : ∀ {other : Event}, ¬ quiet other → other ∈ event :: conn.log →
      other ∈ conn.log := by
    intro other loud isEvent
    cases mem_cons.mp isEvent with
    | inl same => exact absurd (same ▸ isQuiet) loud
    | inr older => exact older
  exact {
    sound with
    orderly := ⟨allowed,sound.orderly⟩
    numbered := by
      rw [← sound.numbered]
      cases event with
      | started | admitted | completed => rfl
      | _ => cases isQuiet
    inTurn := fun owed isRunning => (sound.inTurn owed isRunning).append [event]
    cleared := fun still req isPending earlier below =>
      (sound.cleared still req isPending earlier below).cons
    alone := fun still req isBeyond unproduced earlier below =>
      answered_cons (sound.alone still req isBeyond unproduced earlier below)
    completed := fun owed isOwing answer isAnswer =>
      .tail _ (sound.completed owed isOwing answer isAnswer)
    written := fun number resp isWritten =>
      sound.written number resp (before id isWritten)
    failure := by
      rw [← sound.failure]
      cases event with
      | started | admitted | completed => rfl
      | _ => cases isQuiet
    late := by
      cases event with
      | started | admitted | completed => exact sound.late
      | _ => cases isQuiet
    behind := fun still number below => answered_cons (sound.behind still number below)
    signals := fun still number isSignalled => (sound.signals still number isSignalled).cons
    caught := fun still => (sound.caught still).append [event] }

lemma serves (isOwed : conn.answers[index]? = some owed) (served : Owed)
    (same : served.request = owed.request) (completed : ∀ answer, served.answer = some answer →
      .completed served.request.number answer ∈ conn.log)
    (bound : ∀ number ∈ signalled, number < conn.settled + conn.running.length)
    (signals : conn.failed = false → ∀ number ∈ signalled, Passed conn.log number) :
    Sound depth { conn with answers := conn.answers.set index served, signalled } := by
  have requests : (conn.answers.set index served).map Owed.request =
      conn.answers.map Owed.request := by
    rw [map_set,same]
    apply ext_getElem?
    intro other
    rw [getElem?_set]
    split
    · rename_i here
      obtain ⟨inside,_⟩ := List.getElem?_eq_some_iff.mp isOwed
      rw [← here,getElem?_map,isOwed,if_pos (by rwa [length_map])]
      rfl
    · rfl
  have running : { conn with
      answers := conn.answers.set index served, signalled }.running.map Owed.request =
      conn.running.map Owed.request := by
    unfold Connection.running
    rw [map_append,requests,map_append]
  have owing : { conn with
      answers := conn.answers.set index served, signalled }.owing.map Owed.request =
      conn.owing.map Owed.request := by
    unfold Connection.owing
    rw [map_append,running,map_append]
  apply sound.rearranged rfl
  · unfold Connection.pending
    rw [owing]
  · rfl
  · exact id
  · intro other isRunning
    have isRequest := mem_map_of_mem (f := Owed.request) isRunning
    rw [running] at isRequest
    obtain ⟨before,wasRunning,sameRequest⟩ := mem_map.mp isRequest
    exact sameRequest ▸ sound.inTurn before wasRunning
  · intro unfailed req isBeyond
    apply sound.alone unfailed req
    unfold Connection.beyond at isBeyond ⊢
    rwa [owing] at isBeyond
  · intro other isOwing answer isAnswer
    have either : other ∈ conn.owing ∨ other = served := by
      unfold Connection.owing Connection.running at isOwing ⊢
      simp only [mem_append] at isOwing ⊢
      rcases isOwing with (isWriting | isAnswered) | inChannel
      · exact .inl (.inl (.inl isWriting))
      · cases mem_or_eq_of_mem_set isAnswered with
        | inl before => exact .inl (.inl (.inr before))
        | inr isServed => exact .inr isServed
      · exact .inl (.inr inChannel)
    cases either with
    | inl before => exact sound.completed other before answer isAnswer
    | inr isServed =>
      rw [isServed] at isAnswer ⊢
      exact completed answer isAnswer
  · exact sound.clean
  · intro number isSignalled
    have same := congrArg length running
    rw [length_map,length_map] at same
    rw [same]
    exact bound number isSignalled
  · exact sound.late
  · exact signals
  · exact sound.caught

lemma settles {owed : Owed} (events : List Event) {after : Connection}
    (is : after = { conn with answers, writing, failed, log := events ++ conn.log }.release
      owed)
    (before : conn.running = owed :: answers) (clean : writing = none)
    (orderly : Orderly depth (events ++ conn.log)) (unread : reads events = [])
    (written : ∀ number resp, .written number resp ∈ events → number = owed.request.number)
    (failure : (events.any Event.isFailure || conn.failed) = failed)
    (through : failed = false → owed.request.number ∈ answered events) :
    Sound depth after := by
  have running : conn.running = owed :: after.running := by
    rw [before,is,clean]
    rfl
  have first : conn.owing = owed :: after.owing := by
    unfold Connection.owing
    rw [running,is]
    rfl
  have line : conn.pending = owed.request :: after.pending := by
    unfold Connection.pending
    rw [first,is]
    rfl
  have numbers := sound.line
  rw [line,map_cons,length_cons,List.range'_succ,List.cons.injEq] at numbers
  have within := sound.within
  rw [line,length_cons] at within
  have slots := sound.slots
  rw [line,length_cons] at slots
  have inLine : ∀ req ∈ after.pending, req ∈ conn.pending := by
    intro req isPending
    rw [line]
    exact .tail _ isPending
  have beyond : conn.beyond = owed.request :: after.beyond := by
    unfold Connection.beyond
    rw [first,is]
    rfl
  have inOwing : ∀ other ∈ after.owing, other ∈ conn.owing := by
    intro other isOwing
    rw [first]
    exact .tail _ isOwing
  have stillBefore : failed = false → conn.failed = false := by
    intro still
    rw [still,Bool.or_eq_false_iff] at failure
    exact failure.2
  have same : after.log = events ++ conn.log ∧ after.settled = conn.settled + 1 ∧
      after.count = conn.count ∧ after.reading = conn.reading ∧
      after.failed = failed ∧ after.free = conn.free + 1 ∧ after.writing = writing ∧
      after.signalled = owed.request.number :: conn.signalled ∧
      after.channel = conn.channel := by
    rw [is]
    exact ⟨rfl,rfl,rfl,rfl,rfl,rfl,rfl,rfl,rfl⟩
  obtain ⟨log,settled,count,reading,isFailed,free,isWriting,signalled,channel⟩ := same
  constructor <;>
    simp only [log,settled,count,reading,isFailed,free,isWriting,signalled,channel]
  case orderly => exact orderly
  case numbered =>
    have fewer : reads (events ++ conn.log) = reads events ++ reads conn.log :=
      filterMap_append
    rw [fewer,unread,nil_append]
    exact sound.numbered
  case line => exact numbers.2
  case within => omega
  case slots => omega
  case inTurn =>
    intro other isRunning
    apply (sound.inTurn other _).append events
    rw [running]
    exact .tail _ isRunning
  case cleared =>
    intro still req isPending earlier below
    exact (sound.cleared (stillBefore still) req (inLine req isPending) earlier below).append
      events
  case alone =>
    intro still req isBeyond unproduced earlier below
    have before : req ∈ conn.beyond := by
      rw [beyond]
      exact .tail _ isBeyond
    exact (answered_append events).mpr
      (.inr (sound.alone (stillBefore still) req before unproduced earlier below))
  case completed =>
    intro other isOwing answer isAnswer
    exact mem_append_right _ (sound.completed other (inOwing other isOwing) answer isAnswer)
  case written =>
    intro number resp isWritten
    cases mem_append.mp isWritten with
    | inl isNew =>
      rw [written number resp isNew,numbers.1]
      exact Nat.lt_succ_self _
    | inr before => exact Nat.lt_succ_of_lt (sound.written number resp before)
  case clean =>
    rw [clean]
    intro absent
    cases absent
  case failure =>
    rw [any_append,sound.failure]
    exact failure
  case whole =>
    intro live
    have whole := sound.whole (fun wasFailed => live (by rw [← failure,wasFailed,Bool.or_true]))
    rw [line,length_cons] at whole
    omega
  case bound =>
    intro number isSignalled
    cases mem_cons.mp isSignalled with
    | inl here => omega
    | inr older =>
      have bound := sound.bound number older
      rw [running,length_cons] at bound
      omega
  case late =>
    rw [lateReads_append unread]
    exact sound.late
  case behind =>
    intro still number below
    apply (answered_append events).mpr
    cases Nat.lt_succ_iff_lt_or_eq.mp below with
    | inl before => exact .inr (sound.behind (stillBefore still) number before)
    | inr here =>
      rw [here,← numbers.1]
      exact .inl (through still)
  case signals =>
    intro still number isSignalled
    cases mem_cons.mp isSignalled with
    | inl here =>
      rw [here]
      exact .inr ((answered_append events).mpr (.inl (through still)))
    | inr before => exact (sound.signals (stillBefore still) number before).append events
  case caught =>
    intro still
    exact (sound.caught (stillBefore still)).append events

lemma plain (before : conn.reading.request = none) (req : reading.request = none)
    (slots : free + reading.slots = conn.free + conn.reading.slots)
    (ended : conn.reading = .ended → reading = .ended)
    (late : conn.reading.Stuck conn.count conn.channel →
      reading.Stuck conn.count conn.channel)
    (caught : conn.failed = false → reading.Caught conn.count conn.log) :
    Sound depth { conn with reading, free } := by
  apply sound.moves (req.trans before.symm) slots ended _ late caught
  intro _ other isPassed
  cases reading with
  | sending => cases req
  | _ => cases isPassed

/-- Whatever has been read after a failure is not received, so its admission never fires. -/
lemma unsignalled {number : Nat} (admitting : conn.reading = .admitting number)
    (isSignalled : number ∈ conn.signalled) :
    ¬ conn.reading.Stuck conn.count conn.channel := by
  rw [admitting]
  rintro ⟨last,received⟩
  have whole := sound.whole (fun _ => by rw [admitting]; rintro ⟨⟩)
  have bound := sound.bound number isSignalled
  have unreceived := length_pos_iff.mpr received
  unfold Connection.pending Connection.owing at whole
  rw [length_append,length_map,length_append] at whole
  omega

omit sound in
lemma read (sound : Sound context.pipelineDepth conn) {after : Connection}
    (moved : conn.read context act = some after) : Sound context.pipelineDepth after := by
  have caught := sound.caught
  unfold Connection.read at moved
  cases reading : conn.reading with
  | waiting =>
    rw [reading] at moved caught
    have noRequest : conn.reading.request = none := by rw [reading]; rfl
    have ends : Sound context.pipelineDepth { conn with reading := .ended } :=
      sound.plain noRequest rfl (by rw [reading]; rfl) (fun _ => rfl) (fun _ => trivial)
        (fun _ => trivial)
    cases act with
    | drain | fail =>
      cases moved
      exact ends
    | idle =>
      split at moved
      · cases moved
        exact ends
      · cases moved
    | size =>
      cases moved
      exact sound.plain noRequest rfl (by rw [reading]; rfl) (by rw [reading]; rintro ⟨⟩)
        (by rw [reading]; exact id) caught
    | _ => cases moved
  | sized =>
    rw [reading] at moved caught
    cases act with
    | acquire =>
      dsimp only at moved
      split at moved
      · rename_i room
        cases moved
        exact sound.plain (by rw [reading]; rfl) rfl
          (by rw [reading]; exact Nat.sub_add_cancel room) (by rw [reading]; rintro ⟨⟩)
          (by rw [reading]; exact id) caught
      · cases moved
    | _ => cases moved
  | holding =>
    rw [reading] at moved
    cases act with
    | read frame =>
      cases moved
      exact sound.takes reading rfl
    | fail =>
      cases moved
      exact sound.plain (by rw [reading]; rfl) rfl (by rw [reading]; rfl) (fun _ => rfl)
        (fun _ => trivial) (fun _ => trivial)
    | _ => cases moved
  | barrier req =>
    rw [reading] at moved
    cases act with
    | pass =>
      dsimp only at moved
      split at moved
      · rename_i free
        cases moved
        refine sound.moves (by rw [reading]; rfl) (by rw [reading]; rfl) (by rw [reading]; rintro ⟨⟩)
          ?_ (fun _ => trivial) (fun _ => trivial)
        intro unfailed other isPassed
        cases isPassed
        exact sound.alone_at_barrier unfailed reading free
      · cases moved
    | _ => cases moved
  | sending req =>
    rw [reading] at moved
    cases act with
    | send =>
      dsimp only at moved
      split at moved
      · cases moved
        exact sound.sends reading
      · cases moved
    | _ => cases moved
  | admitting number =>
    rw [reading] at moved caught
    cases act with
    | proceed =>
      dsimp only at moved
      split at moved
      · rename_i isSignalled
        cases moved
        apply sound.plain (by rw [reading]; rfl) rfl (by rw [reading]; rfl)
          (by rw [reading]; rintro ⟨⟩)
          (fun stuck => absurd stuck (sound.unsignalled reading isSignalled))
        intro unfailed earlier below
        obtain ⟨last,passed⟩ := caught unfailed
        rw [← last] at below
        cases Nat.lt_succ_iff_lt_or_eq.mp below with
        | inl before => exact passed earlier before
        | inr here => exact here ▸ sound.signals unfailed number isSignalled
      · cases moved
    | _ => cases moved
  | muted =>
    rw [reading] at moved caught
    cases act with
    | unmute =>
      cases moved
      exact sound.plain (by rw [reading]; rfl) rfl (by rw [reading]; rfl)
        (by rw [reading]; rintro ⟨⟩) (by rw [reading]; exact id) caught
    | drain =>
      cases moved
      exact sound.plain (by rw [reading]; rfl) rfl (by rw [reading]; rfl) (fun _ => rfl)
        (fun _ => trivial) (fun _ => trivial)
    | _ => cases moved
  | ended =>
    rw [reading] at moved
    cases act <;> cases moved

lemma owing_read {owed : Owed} (isOwing : owed ∈ conn.owing) :
    owed.request.number ∈ reads conn.log := by
  have isNumber : owed.request.number ∈ conn.pending.map Request.number :=
    mem_map_of_mem (mem_append_left _ (mem_map_of_mem isOwing))
  have within := sound.within
  rw [sound.line,mem_range'_1] at isNumber
  rw [sound.numbered,mem_reverse,mem_range]
  omega

lemma running_bound {owed : Owed} (isRunning : owed ∈ conn.running) :
    owed.request.number < conn.settled + conn.running.length := by
  have numbers := sound.line
  have split : conn.pending = conn.running.map Owed.request ++
      (conn.channel.map Owed.request ++ conn.reading.request.toList) := by
    unfold Connection.pending Connection.owing
    rw [map_append,append_assoc]
  rw [split,map_append,length_append,← List.range'_append_1] at numbers
  have first := (append_inj numbers (by rw [length_map,length_range'])).1
  have isNumber : owed.request.number ∈ (conn.running.map Owed.request).map Request.number :=
    mem_map_of_mem (mem_map_of_mem isRunning)
  rw [first,mem_range'_1,length_map] at isNumber
  exact isNumber.2

lemma starts {owed : Owed} (isRunning : owed ∈ conn.running) :
    Allowed depth conn.log (.started owed.request) := by
  constructor
  · exact sound.owing_read (mem_append_left _ isRunning)
  split
  · exact (sound.inTurn owed isRunning).passed
  · rename_i unproduced
    exact (sound.inTurn owed isRunning).alone (Bool.eq_false_iff.mpr unproduced)

lemma served {act : ServeAct} {owed served : Owed} (isOwed : conn.answers[index]? = some owed)
    (moved : owed.serve act = some (served, events)) : Sound depth { conn with
        answers := conn.answers.set index served
        signalled := events.filterMap Event.signal ++ conn.signalled
        log := events ++ conn.log } := by
  have isRunning : owed ∈ conn.running := mem_append_right _ (mem_of_getElem? isOwed)
  have isAnswer : owed ∈ conn.owing := mem_append_left _ isRunning
  unfold Owed.serve at moved
  cases act with
  | start =>
    dsimp only at moved
    split at moved
    · cases moved
    cases moved
    have logged := sound.logs (.started owed.request) trivial
      (sound.starts isRunning)
    exact logged.serves isOwed { owed with started := true } rfl
      (logged.completed owed isAnswer) logged.bound logged.signals
  | admitted =>
    dsimp only at moved
    split at moved
    · cases moved
      have logged := sound.logs (.admitted owed.request.number) trivial trivial
      apply logged.serves isOwed owed rfl (logged.completed owed isAnswer)
      · intro number isSignalled
        cases mem_cons.mp isSignalled with
        | inl here => exact here ▸ sound.running_bound isRunning
        | inr before => exact logged.bound number before
      · intro still number isSignalled
        cases mem_cons.mp isSignalled with
        | inl here => exact .inl (here ▸ (.head _))
        | inr before => exact logged.signals still number before
    · cases moved
  | silence =>
    dsimp only at moved
    split at moved
    · cases moved
      exact sound.serves isOwed { owed with noResponse := true } rfl
        (sound.completed owed isAnswer) sound.bound sound.signals
    · cases moved
  | complete answer =>
    dsimp only at moved
    split at moved
    · cases moved
      have logged := sound.logs (.completed owed.request.number answer) trivial trivial
      apply logged.serves isOwed { owed with answer := some answer } rfl _ logged.bound
        logged.signals
      intro other isOther
      cases isOther
      exact .head _
    · cases moved

lemma handed (same : { conn with channel, answers, writing }.owing = conn.owing)
    (inTurn : ∀ owed ∈ { conn with channel, answers, writing }.running,
      InTurn conn.log owed.request)
    (grown : conn.running.length ≤ { conn with channel, answers, writing }.running.length)
    (unfailed : conn.failed = false) : Sound depth { conn with channel, answers, writing } := by
  apply sound.rearranged rfl
  · unfold Connection.pending
    rw [same]
  · rfl
  · exact id
  · exact inTurn
  · intro unfailed req isBeyond
    apply sound.alone unfailed req
    unfold Connection.beyond at isBeyond ⊢
    rwa [same] at isBeyond
  · intro other isOwing
    rw [same] at isOwing
    exact sound.completed other isOwing
  · exact fun _ => unfailed
  · intro number isSignalled
    exact lt_of_lt_of_le (sound.bound number isSignalled) (Nat.add_le_add_left grown _)
  · exact .inl (lateReads_unfailed (sound.failure.trans unfailed))
  · exact sound.signals
  · exact sound.caught

lemma receives {owed : Owed} (isChannel : conn.channel = owed :: rest)
    (unfailed : conn.failed = false) :
    Sound depth { conn with channel := rest, answers := conn.answers ++ [owed] } := by
  have running : { conn with channel := rest, answers := conn.answers ++ [owed] }.running =
      conn.running ++ [owed] := (append_assoc _ _ _).symm
  have isOwing : owed.request ∈ conn.owing.map Owed.request := by
    apply mem_map_of_mem
    unfold Connection.owing
    rw [isChannel]
    exact mem_append_right _ (.head _)
  apply sound.handed _ _ _ unfailed
  · unfold Connection.owing
    rw [running,isChannel,append_assoc]
    rfl
  · rw [running]
    intro other isRunning
    cases mem_append.mp isRunning with
    | inl before => exact sound.inTurn other before
    | inr isNew =>
      rw [mem_singleton.mp isNew]
      exact ⟨sound.cleared unfailed owed.request (mem_append_left _ isOwing),
        sound.alone unfailed owed.request (mem_append_left _ isOwing)⟩
  · rw [running,length_append]
    exact Nat.le_add_right _ _

lemma writes (isWriting : conn.writing = some owed) : conn.failed = false ∧
      conn.running = owed :: conn.answers := by
  constructor
  · apply sound.clean
    rw [isWriting]
    rfl
  · unfold Connection.running
    rw [isWriting]
    rfl

lemma writable (first : conn.running = owed :: rest)
    (still : conn.failed = false) (isAnswer : owed.answer = some (.frame resp)) :
    Allowed depth conn.log (.written owed.request.number resp) := by
  have isOwing : owed ∈ conn.owing := by
    unfold Connection.owing
    rw [first]
    exact .head _
  have isFirst : owed.request.number = conn.settled := by
    have line := sound.line
    unfold Connection.pending Connection.owing at line
    rw [first] at line
    exact head_eq_of_cons_eq line
  refine ⟨sound.owing_read isOwing,sound.completed owed isOwing _ isAnswer,?_,?_⟩
  · rw [isFirst]
    exact sound.written
  · intro earlier isFailed
    exact (any_eq_false.mp (sound.failure.trans still)) _ isFailed rfl

lemma next {after : Connection} (moved : conn.next = some after) : Sound depth after := by
  unfold Connection.next at moved
  split at moved
  · rename_i owed rest notWriting isAnswers
    have first : conn.running = owed :: rest := by
      unfold Connection.running
      rw [notWriting,isAnswers]
      rfl
    split at moved
    · cases moved
    split at moved
    · rename_i failed
      cases moved
      apply sound.settles [] rfl first notWriting sound.orderly rfl
      · intro number resp absent
        cases absent
      · rfl
      · intro unfailed
        cases failed.symm.trans unfailed
    · rename_i unfailed
      have still : conn.failed = false := Bool.eq_false_iff.mpr unfailed
      split at moved
      · split at moved
        · cases moved
          apply sound.settles [.silenced owed.request.number] rfl first notWriting
            ⟨trivial,sound.orderly⟩ rfl
          · intro number resp isWritten
            cases mem_singleton.mp isWritten
          · rfl
          · exact fun _ => .head _
        · cases moved
          apply sound.handed _ _ _ still
          · unfold Connection.owing
            rw [first]
            rfl
          · change ∀ other ∈ owed :: rest, _
            rw [← first]
            exact sound.inTurn
          · rw [first]
            rfl
      · cases moved
        apply sound.settles [.failed owed.request.number] rfl first notWriting
          ⟨trivial,sound.orderly⟩ rfl
        · intro number resp isWritten
          cases mem_singleton.mp isWritten
        · rfl
        · intro absent
          cases absent
  · cases moved

lemma answer {act : AnswerAct} {after : Connection}
    (moved : conn.answer act = some after) : Sound depth after := by
  cases act with
  | receive =>
    unfold Connection.answer at moved
    dsimp only at moved
    split at moved
    · rename_i owed rest notWriting isChannel
      split at moved
      · rename_i receiving
        cases moved
        exact sound.receives isChannel (Bool.eq_false_iff.mpr receiving.2)
      · cases moved
    · cases moved
  | close | finish =>
    unfold Connection.answer at moved
    dsimp only at moved
    split at moved
    · cases moved
      exact { sound with }
    · cases moved
  | serve index act =>
    unfold Connection.answer at moved
    dsimp only at moved
    split at moved
    · cases moved
    rename_i owed isOwed
    cases served : owed.serve act with
    | none => rw [served] at moved; cases moved
    | some pair =>
      rw [served] at moved
      cases moved
      exact sound.served isOwed served
  | next => exact sound.next moved
  | wrote =>
    unfold Connection.answer at moved
    dsimp only at moved
    split at moved
    · rename_i owed isWriting
      split at moved
      · rename_i resp isAnswer
        cases moved
        obtain ⟨still,first⟩ := sound.writes isWriting
        apply sound.settles [.written owed.request.number resp] rfl first rfl
          ⟨sound.writable first still isAnswer,sound.orderly⟩ rfl
        · intro number other isWritten
          cases mem_singleton.mp isWritten
          rfl
        · rfl
        · exact fun _ => .head _
      · cases moved
    · cases moved
  | broke =>
    unfold Connection.answer at moved
    dsimp only at moved
    split at moved
    · rename_i owed isWriting
      cases moved
      obtain ⟨_,first⟩ := sound.writes isWriting
      apply sound.settles [.failed owed.request.number] rfl first rfl ⟨trivial,sound.orderly⟩ rfl
      · intro number resp isWritten
        cases mem_singleton.mp isWritten
      · rfl
      · intro absent
        cases absent
    · cases moved

end Sound

variable {context : TcpContext} {connection : Connection}

lemma Sound.of_reachable (reachable : (serve context).Reachable System.unguarded connection) :
    Sound context.pipelineDepth connection := by
  apply reachable.invariant (Sound.init context)
  intro before after act sound _ moved
  change before.step context act = some after at moved
  unfold Connection.step at moved
  cases act with
  | read act => exact sound.read moved
  | cancel =>
    dsimp only at moved
    split at moved
    · rename_i failed
      cases moved
      exact sound.cancelled failed.1
    · cases moved
  | answer act =>
    dsimp only at moved
    split at moved
    · cases moved
    · exact sound.answer moved

/-- Answers are in the order of the requests and requests start in time; what is read and unanswered
is within the depth until an answer fails, and exceeds it by no more than one afterwards. -/
theorem pipeline_orderly {context : TcpContext} {connection : Connection}
    (reachable : (serve context).Reachable System.unguarded connection) :
    Orderly context.pipelineDepth connection.log ∧
      ((∀ number, .failed number ∉ connection.log) →
        (unanswered connection.log).length ≤ context.pipelineDepth) ∧
      (unanswered connection.log).length ≤ context.pipelineDepth + 1 := by
  have orderly := (Sound.of_reachable reachable).orderly
  obtain ⟨bounded,late⟩ := orderly.bounded
  refine ⟨orderly,?_,by omega⟩
  intro unfailed
  have none : lateReads connection.log = 0 := by
    apply lateReads_unfailed
    rw [any_eq_false]
    intro event isEvent isFailure
    cases event with
    | failed number => exact unfailed number isEvent
    | _ => cases isFailure
  rwa [none] at bounded

def requests (frame : List UInt8) : List Act :=
  [.read .size, .read .acquire, .read (.read frame)]

def begins (index : Nat) : List Act :=
  [.answer .receive, .answer (.serve index .start)]

def twoDeep : TcpContext where
  pipelineDepth := 2
  positive := by decide

/-- Two produces share the window, and are answered in their order although the second is done
first; the fetch behind them waits at the barrier until both are answered. -/
theorem pipeline_orderly_twoDeep :
    ∃ connection, (serve twoDeep).Reachable System.unguarded connection ∧
      (Orderly twoDeep.pipelineDepth connection.log ∧
        ((∀ number, .failed number ∉ connection.log) →
          (unanswered connection.log).length ≤ twoDeep.pipelineDepth) ∧
        (unanswered connection.log).length ≤ twoDeep.pipelineDepth + 1) ∧
      (answered connection.log, reads connection.log) = ([2, 1, 0], [2, 1, 0]) := by
  have ended : (System.exec (serve twoDeep) (fun _ _ => true) (serve twoDeep).init
      (requests [0, 0, 0, 2, 0, 0] ++ [.read .send] ++ begins 0 ++
        [.answer (.serve 0 .admitted), .read .proceed, .read .unmute] ++
        requests [0, 0, 0, 2, 0, 0] ++ [.read .send] ++ begins 1 ++
        [.answer (.serve 1 .admitted), .answer (.serve 1 (.complete (.frame [1]))),
          .read .proceed, .read .unmute, .answer (.serve 0 (.complete (.frame [0]))),
          .answer .next, .answer .wrote] ++
        requests [0, 0, 0, 2, 0, 1] ++
        [.answer .next, .answer .wrote, .read .pass, .read .send] ++ begins 0 ++
        [.answer (.serve 0 (.complete (.frame [2]))), .answer .next, .answer .wrote])).map
      (fun connection => (answered connection.log, reads connection.log)) =
      some ([2, 1, 0], [2, 1, 0]) := by decide +kernel
  obtain ⟨connection,reachable,observed⟩ :=
    System.Reachable.observed (fun _ => trivial) ended
  exact ⟨connection,reachable,pipeline_orderly reachable,observed⟩

def oneDeep : TcpContext where
  pipelineDepth := 1
  positive := by decide

/-- With a depth of one, the answer of the first request cannot be written: its slot is free again,
and the reading half, waiting for it, reads the second request. -/
theorem second_read_after_failure :
    ∃ connection, (serve oneDeep).Reachable System.unguarded connection ∧
      (reads connection.log, answered connection.log) = ([1, 0], []) ∧
      oneDeep.pipelineDepth < (unanswered connection.log).length := by
  have ended : (System.exec (serve oneDeep) (fun _ _ => true) (serve oneDeep).init
      (requests [0, 0, 0, 2, 0, 0] ++ [.read .send] ++ begins 0 ++
        [.answer (.serve 0 .admitted), .read .proceed, .read .unmute, .read .size,
          .answer (.serve 0 (.complete (.frame [0]))), .answer .next, .answer .broke,
          .read .acquire, .read (.read [0, 0, 0, 2, 0, 0])])).map
      (fun connection => ((reads connection.log, answered connection.log),
        decide (oneDeep.pipelineDepth < (unanswered connection.log).length))) =
      some (([1, 0], []), true) := by decide +kernel
  obtain ⟨connection,reachable,observed⟩ :=
    System.Reachable.observed (fun _ => trivial) ended
  rw [Prod.mk.injEq] at observed
  exact ⟨connection,reachable,observed.1,of_decide_eq_true observed.2⟩

end Kodansu.Service

/-
Every request keeps to what `Issued` says.

There is one lemma for each program, in the order of the programs: what it is called with, and
what is known of the past when it returns.  A lemma takes what is to hold afterwards as its last
hypothesis, so that the lemmas compose as the programs do.  The last one covers all requests.
-/

import Kodansu.Coordinator.Observed

namespace Kodansu.Coordinator

open Lib Kodansu.Group List
open Lib.Program (Grown follows_bind follows_perform_bind latest_seen latest_unseen
  mem_since_cons mem_since_self)

variable {refresh : Bool} {after past : Past} {id : String}

/-! ### Growing pasts -/

variable {event : Event} {view : GroupView} {version : Option Nat} {stored : Nat}
  {held : Versioned GenerationDoc} {kind : Event → Prop} {request : ClassicJoin} {memberId : String}
  {gid : Int}

lemma Quiet.steady (quiet : Quiet event) : Steady event :=
  quiet.1

lemma Quiet.apart (quiet : Quiet event) : Apart event :=
  quiet.2

lemma Steady.unread (steady : Steady event) : observedRead event = none := by
  obtain ⟨operation,reply⟩ := event
  cases operation with
  | readGeneration => cases steady
  | _ => rfl

lemma Seen.steady (seen : Seen past view) (grown : Grown Steady past after) :
    Seen after view where
  last := (grown.latest (fun _ steady => steady)).trans seen.last
  absent := seen.absent
  assigned assignment held := grown.mem (seen.assigned assignment held)

lemma Seen.quiet (seen : Seen past view) (grown : Grown Quiet past after) : Seen after view :=
  seen.steady (grown.weaken (fun _ quiet => quiet.steady))

lemma Seen.written {cause : Cause} {next : GenerationDoc} {assignment : Option AssignmentDoc}
    (assigned : ∀ document, assignment = some document → ⟨.readAssignment next.generationId, some
      document⟩ ∈ past) :
    Seen (⟨.updateGeneration cause next version, some stored⟩ :: past)
      ⟨next, some stored, assignment⟩ where
  last := latest_seen rfl
  absent := nofun
  assigned document held := .tail _ (assigned document held)

lemma Seen.observed {version : Nat} (seen : Seen past view) (held : view.version = some version) :
    Observed past ⟨view.generation, version⟩ := by
  apply Program.mem_of_latest (seen.last.trans _)
  rw [GroupView.held,held]
  rfl

lemma Checked.apart (checked : Checked past) (grown : Grown Apart past after) :
    Checked after := by
  have consumer : lastConsumer after = lastConsumer past := grown.latest (fun _ apart => apart.1)
  have contacts : lastContacts after = lastContacts past := grown.latest (fun _ apart => apart.2)
  cases checked with
  | absent none => exact .absent (consumer.trans none)
  | lapsed some stamps now dead =>
    exact .lapsed (consumer.trans some) (contacts.trans stamps) (grown.mem now) dead

lemma Clear.steady (clear : Clear past) (grown : Grown Steady past after) : Clear after := by
  cases clear with
  | converted seen is => exact .converted (seen.steady grown) is
  | lapsed seen now each =>
    refine .lapsed (seen.steady grown) (grown.mem now) ?_
    intro id isMember
    obtain ⟨member,read,expired⟩ := each id isMember
    exact ⟨member,grown.since (fun _ steady => steady) read,expired⟩

lemma Observed.grown (observed : Observed past held) (grown : Grown kind past after) :
    Observed after held := by
  obtain ⟨event,isEvent,is⟩ := observed
  exact ⟨event,grown.mem isEvent,is⟩

lemma Named.grown (named : Named request past memberId) (grown : Grown kind past after) :
    Named request after memberId := by
  cases named with
  | given nonempty same => exact .given nonempty same
  | minted blank isStatic made same => exact .minted blank isStatic (grown.mem made) same
  | found blank isStatic observed named => exact .found blank isStatic (observed.grown grown) named

lemma JoinsAs.grown {call : Call} (joins : JoinsAs call past memberId)
    (grown : Grown kind past after) : JoinsAs call after memberId := by
  obtain ⟨join,same,named⟩ := joins
  exact ⟨join,same,named.grown grown⟩

lemma Enter.apart {call : Call} (enter : Enter call past) (grown : Grown Apart past after) :
    Enter call after := by
  cases call with
  | join join =>
    obtain ⟨checked,minted⟩ := enter
    refine ⟨fun isChecked => (checked isChecked).apart grown,?_⟩
    intro id isMinted
    obtain ⟨inst,made,isStatic,isMade,same⟩ := minted id isMinted
    exact ⟨inst,made,isStatic,grown.mem isMade,same⟩
  | _ => trivial

lemma Enter.quiet {call : Call} (enter : Enter call past) (grown : Grown Quiet past after) :
    Enter call after :=
  enter.apart (grown.weaken (fun _ quiet => quiet.apart))

lemma Granted.grown {assignment : Encoded MemberAssignment}
    (granted : Granted past id gid assignment) (grown : Grown kind past after) :
    Granted after id gid assignment := by
  obtain ⟨held,document,observed,same,named,known,entry⟩ := granted.grounds
  exact ⟨held,document,observed.grown grown,same,named,known.imp grown.mem grown.mem,entry⟩

/-! ### Programs -/

def leavesWith (call : Call) (past : Past) (outcome : Option Call) : Prop :=
  ∀ next, outcome = some next → Continues call next ∧ Enter next past

abbrev Fits (call : Call) {α : Type} (program : Run α) (past : Past) (stops : Past → α → Prop) :
    Prop := program.Follows (Issued call) (leavesWith call) stops past

section Programs

variable {α ρ : Type} {departing : List (String × Option String)} {heartbeat : HeartbeatCall}
  {call : Call} {operation : Op} {rest : operation.Reply → Run α} {purpose : Purpose}
  {gen : GenerationDoc} {sessionTimeoutMs nowMs : Int}

lemma performs {stops : Past → α → Prop} (issued : Issued call past operation)
    (next : ∀ reply, Fits call (rest reply) (⟨operation, reply⟩ :: past) stops) :
    Fits call (Program.perform operation >>= rest) past stops :=
  follows_perform_bind.mpr ⟨issued,next⟩

lemma asks {stops : Past → α → Prop} (kind : Event → Prop)
    (issued : Issued call past operation) (is : ∀ reply, kind ⟨operation, reply⟩)
    (next : ∀ reply, Grown kind past (⟨operation, reply⟩ :: past) →
      Fits call (rest reply) (⟨operation, reply⟩ :: past) stops) :
    Fits call (Program.perform operation >>= rest) past stops :=
  performs issued (fun reply => next reply (Grown.refl.cons _ (is reply)))

lemma answered_fits {stops : Past → α → Prop} {answer : Answer}
    (issued : Issued call past (.answer answer)) : Fits call (answered answer) past stops :=
  follows_bind.mpr ⟨issued,fun _ => nofun⟩

lemma again_fits {next : Call} {stops : Past → α → Prop} (continues : Continues call next)
    (enter : Enter next past) : Fits call (again next) past stops := by
  intro after same
  cases same
  exact ⟨continues,enter⟩

lemma heldMember_fits {stops : Past → Option StoredMember → Prop}
    (issued : Issued call past (.readMember purpose id))
    (next : ∀ held, stops (⟨.readMember purpose id, some held⟩ :: past) held) :
    Fits call (heldMember purpose id) past stops := by
  refine performs issued ?_
  intro reply
  cases reply with
  | none => exact answered_fits trivial
  | some held => exact next held

lemma readAssigned_fits {stops : Past → Option AssignmentDoc → Prop}
    (next : ∀ after assignment, Grown Quiet past after → (∀ document, assignment = some document →
      ⟨.readAssignment gen.generationId, some document⟩ ∈ after) → stops after assignment) :
    Fits call (readAssigned gen) past stops := by
  unfold readAssigned
  split
  · refine ⟨trivial,?_⟩
    intro reply
    apply next (⟨.readAssignment gen.generationId,reply⟩ :: past) reply
      (Grown.refl.cons _ ⟨rfl,rfl,rfl⟩)
    intro document same
    cases same
    exact .head _
  · exact next past none .refl nofun

lemma readView_fits {stops : Past → GroupView → Prop}
    (next : ∀ after view, Grown Apart past after → Seen after view → stops after view) :
    Fits call readView past stops := by
  refine asks Apart trivial (fun _ => ⟨rfl,rfl⟩) ?_
  intro reply read
  cases reply with
  | none => exact next _ _ read ⟨latest_seen rfl,fun _ => rfl,nofun⟩
  | some held =>
    apply follows_bind.mpr
    apply readAssigned_fits
    intro after assignment grown assigned
    apply next _ _ (read.trans (grown.weaken (fun _ quiet => quiet.apart)))
    exact ⟨(grown.latest (fun _ quiet => quiet.steady)).trans (latest_seen rfl),nofun,assigned⟩

lemma renewMember_fits {stops : Past → Unit → Prop}
    (next : ∀ after, Grown Quiet past after → stops after ()) :
    Fits call (renewMember id sessionTimeoutMs nowMs) past stops := by
  unfold renewMember
  split
  · exact next past .refl
  refine asks Quiet trivial (fun _ => ⟨rfl,rfl,rfl⟩) ?_
  intro known asked
  split
  · exact next _ asked
  apply follows_bind.mpr
  apply heldMember_fits
  · exact trivial
  · intro held
    have read : Grown Quiet past (⟨.readMember .renew id,some held⟩ ::
      ⟨.ask .livenessKnown,known⟩ :: past) := asked.cons _ ⟨rfl,rfl,rfl⟩
    cases held with
    | none => exact next _ read
    | some held =>
      dsimp only
      split
      · refine performs trivial ?_
        intro reply
        apply next
        exact read.cons _ ⟨rfl,rfl,rfl⟩
      · exact next _ read

/-! ### The sweep -/

variable {order members : List String}

lemma lapsedMembers_fits {stops : Past → List String → Prop}
    (next : ∀ after expired, Grown Quiet past after → (∀ id ∈ expired, ∃ held, ⟨.readMember
      (.sweep nowMs) id, held⟩ ∈ sinceGeneration after ∧ lapsedVerdict nowMs held = true) →
      stops after expired) : Fits call (lapsedMembers nowMs order) past stops := by
  induction order generalizing past stops with
  | nil => exact next past [] .refl nofun
  | cons id rest ih =>
    refine performs trivial ?_
    intro held
    apply follows_bind.mpr
    apply ih
    intro after expired grown each
    apply next after _ ((Grown.refl.cons _ ⟨rfl,rfl,rfl⟩).trans grown)
    split
    · rename_i lapsed
      intro other isLapsed
      cases mem_cons.mp isLapsed with
      | inr isOther => exact each other isOther
      | inl same =>
      subst same
      refine ⟨held,?_,lapsed⟩
      exact grown.since (fun _ quiet => quiet.steady) (mem_since_self rfl)
    · exact each

lemma deleteMembers_fits {stops : Past → Unit → Prop}
    (next : ∀ after, Grown Quiet past after → stops after ()) :
    Fits call (deleteMembers members) past stops := by
  induction members generalizing past with
  | nil => exact next past .refl
  | cons id rest ih =>
    refine performs trivial ?_
    intro reply
    apply ih
    intro after grown
    exact next after ((Grown.refl.cons _ ⟨rfl,rfl,rfl⟩).trans grown)

lemma evict_fits {stops : Past → GroupView → Prop} (seen : Seen past view)
    (present : view.version.isSome)
    (next : ∀ after view, Grown Apart past after → Seen after view → stops after view) :
    Fits call (evict view nowMs) past stops := by
  refine asks Quiet trivial (fun _ => ⟨rfl,rfl,rfl⟩) ?_
  intro order shuffled
  apply follows_bind.mpr
  apply lapsedMembers_fits
  intro after expired grown each
  have still := shuffled.trans grown
  have apart := still.weaken (fun _ quiet => quiet.apart)
  split
  · exact next after view apart (seen.quiet still)
  refine performs ⟨view,seen.quiet still,rfl,present,expired,rfl,each⟩ ?_
  intro reply
  have tried := apart.cons ⟨.updateGeneration (.evict nowMs)
    (evicted view.generation expired nowMs) view.version,reply⟩ ⟨rfl,rfl⟩
  cases reply with
  | none =>
    apply readView_fits
    intro last view grown seen
    exact next last view (tried.trans grown) seen
  | some stored =>
    have written : Seen (⟨.updateGeneration (.evict nowMs)
        (evicted view.generation expired nowMs) view.version,some stored⟩ :: after)
        ⟨evicted view.generation expired nowMs,some stored,none⟩ := Seen.written nofun
    apply follows_bind.mpr
    apply deleteMembers_fits
    intro last grown
    exact next last _ (tried.trans (grown.weaken (fun _ quiet => quiet.apart)))
      (written.quiet grown)

lemma sweepDue_present (due : sweepDue view nowMs = true) : view.version.isSome := by
  unfold sweepDue at due
  simp only [Bool.and_eq_true] at due
  exact due.1.1.1

lemma sweep_fits {stops : Past → GroupView → Prop} (seen : Seen past view)
    (next : ∀ after view, Grown Apart past after → Seen after view → stops after view) :
    Fits call (sweep view nowMs) past stops := by
  unfold sweep
  split
  · rename_i due
    have present := sweepDue_present due
    refine asks Quiet trivial (fun _ => ⟨rfl,rfl,rfl⟩) ?_
    intro unclaimed asked
    have apart := asked.weaken (fun _ quiet => quiet.apart)
    split
    · refine performs ⟨view,seen.quiet asked,rfl,present,nowMs,rfl⟩ ?_
      intro reply
      have tried := apart.cons ⟨.updateGeneration .claim
        (claimed view.generation nowMs) view.version,reply⟩ ⟨rfl,rfl⟩
      cases reply with
      | none =>
        apply readView_fits
        intro last view grown seen
        exact next last view (tried.trans grown) seen
      | some stored =>
        apply evict_fits
        · apply Seen.written
          intro document held
          exact .tail _ (seen.assigned document held)
        · rfl
        · intro last view grown seen
          exact next last view (tried.trans grown) seen
    · exact next _ view apart (seen.quiet asked)
  · exact next past view .refl seen

/-! ### The consumer group -/

lemma isLiveConsumer_fits {stops : Past → Bool → Prop}
    (next : ∀ after live, Grown Steady past after → (live = false → ⟨.now, nowMs⟩ ∈ past → Checked
      after) → stops after live) : Fits call (isLiveConsumer nowMs) past stops := by
  refine asks Steady trivial (fun _ => rfl) ?_
  intro held read
  cases held with
  | none =>
    apply next _ false read
    intro _ _
    exact .absent (latest_seen rfl)
  | some held =>
    refine performs trivial ?_
    intro stamps
    apply next
    · exact read.cons _ rfl
    · intro dead now
      refine .lapsed ?_ (latest_seen rfl) (.tail _ (.tail _ now)) dead
      exact (latest_unseen rfl).trans (latest_seen rfl)

lemma anyLive_fits {stops : Past → Bool → Prop}
    (next : ∀ after live, Grown Quiet past after → (live = false → ∀ id ∈ members, ∃ member,
      ⟨.readMember .probe id, some (some member)⟩ ∈ sinceGeneration after ∧
      member.doc.isExpired nowMs = true) → stops after live) :
    Fits call (anyLive nowMs members) past stops := by
  induction members generalizing past stops with
  | nil => exact next past false .refl nofun
  | cons id rest ih =>
    refine asks Quiet trivial (fun _ => ⟨rfl,rfl,rfl⟩) ?_
    intro held read
    match held with
    | none => exact next _ true read nofun
    | some none => exact next _ true read nofun
    | some (some member) =>
      dsimp only
      split
      · rename_i expired
        apply ih
        intro after live grown each
        apply next after live (read.trans grown)
        intro dead other isMember
        cases mem_cons.mp isMember with
        | inr isOther => exact each dead other isOther
        | inl same =>
          subst same
          refine ⟨member,?_,expired⟩
          exact grown.since (fun _ quiet => quiet.steady) (mem_since_self rfl)
      · exact next _ true read nofun

lemma readMembers_fits {stops : Past → OrderedMap String MemberDoc → Prop}
    (next : ∀ after read, Grown Quiet past after → stops after read) :
    Fits call (readMembers members) past stops := by
  induction members generalizing past stops with
  | nil => exact next past _ .refl
  | cons id rest ih =>
    apply follows_bind.mpr
    apply heldMember_fits
    · exact trivial
    · intro held
      apply follows_bind.mpr
      apply ih
      intro after read grown
      exact next after _ ((Grown.refl.cons _ ⟨rfl,rfl,rfl⟩).trans grown)

lemma converted_fits {stops : Past → Except ErrorCode ConsumerGroupDoc → Prop}
    {held : Option ConsumerGroupDoc}
    (next : ∀ after res, Grown Quiet past after → stops after res) :
    Fits call (converted gen held nowMs) past stops := by
  apply follows_bind.mpr
  apply readMembers_fits
  intro after members read
  apply follows_bind.mpr
  apply readAssigned_fits
  intro last assignment grown _
  refine performs trivial ?_
  intro resolved
  apply next
  exact (read.trans grown).cons _ ⟨rfl,rfl,rfl⟩

def SeenConverted (past : Past) : Prop :=
  ∃ view, Seen past view ∧ view.generation.isConverted = true

lemma SeenConverted.steady (seen : SeenConverted past) (grown : Grown Steady past after) :
    SeenConverted after := by
  obtain ⟨view,seen,is⟩ := seen
  exact ⟨view,seen.steady grown,is⟩

lemma SeenConverted.clear (seen : SeenConverted past) : Clear past := by
  obtain ⟨view,seen,is⟩ := seen
  exact .converted seen is

section

variable {stops : Past → Except ErrorCode Unit → Prop} (seen : SeenConverted past)
  (next : ∀ after res, Grown Steady past after → stops after res)

include seen next

lemma completeOnce_fits {lost : Run (Except ErrorCode Unit)}
    (retry : ∀ after, Grown Steady past after → Fits call lost after stops) :
    Fits call (completeOnce gen lost) past stops := by
  refine asks Steady trivial (fun _ => rfl) ?_
  intro held read
  split
  · exact next _ _ read
  refine performs trivial ?_
  intro nowMs
  apply follows_bind.mpr
  apply converted_fits
  intro after res grown
  have still : Grown Steady past after :=
    (read.cons ⟨.now,nowMs⟩ rfl).trans (grown.weaken (fun _ quiet => quiet.steady))
  cases res with
  | error errorCode => exact next after _ still
  | ok group =>
    refine performs ((seen.steady still).clear) ?_
    intro reply
    cases reply with
    | some _ => exact next _ _ (still.cons _ rfl)
    | none => exact retry _ (still.cons _ rfl)

lemma completeConversion_fits {left : Nat} :
    Fits call (completeConversion gen left) past stops := by
  induction left generalizing past with
  | zero => exact completeOnce_fits seen next (fun after grown => next after _ grown)
  | succ left ih =>
    apply completeOnce_fits seen next
    intro after grown
    apply ih (seen.steady grown)
    intro last res more
    exact next last res (grown.trans more)

end

variable {broker : Broker} {passage : Passage}

lemma convert_fits {stops : Past → Conversion → Prop} (seen : Seen past view)
    (next : ∀ after res, (res = .converted → SeenConverted after) → stops after res) :
    Fits call (convert broker view nowMs) past stops := by
  unfold convert
  split
  · exact next past _ nofun
  rename_i open_
  have isConsumer : view.generation.protocolType = some consumerProtocol := by
    simp only [Bool.or_eq_true,decide_eq_true_eq,not_or,not_not] at open_
    exact open_.1.2
  apply follows_bind.mpr
  apply converted_fits
  intro after res grown
  cases res with
  | error errorCode => exact next after _ nofun
  | ok group =>
    refine performs ⟨view,seen.quiet grown,rfl,isConsumer,nowMs,rfl⟩ ?_
    intro reply
    cases reply with
    | none => exact next _ _ nofun
    | some stored =>
      apply follows_bind.mpr
      have marked : SeenConverted (⟨.updateGeneration .convert
          { view.generation with consumerSinceMs := some nowMs }.bumped view.version,
          some stored⟩ :: after) := by
        refine ⟨⟨_,some stored,none⟩,Seen.written ?_,rfl⟩
        exact nofun
      apply completeConversion_fits marked
      intro last res more
      cases res with
      | ok _ => exact next last _ (fun _ => marked.steady more)
      | error errorCode => exact next last _ nofun

def Passes (passage : Passage) (past : Past) : Prop := passage = .clear → Clear past

lemma Passes.steady (passes : Passes passage past) (grown : Grown Steady past after) :
    Passes passage after :=
  fun isClear => (passes isClear).steady grown

section

variable {stops : Past → Except ErrorCode Passage → Prop}
  (next : ∀ after res, (∀ passage, res = .ok passage → Passes passage after) → stops after
      res)

include next

variable {left : Nat}

lemma admitOnce_fits {outdated : Run (Except ErrorCode Passage)}
    (retry : ∀ after, Fits call outdated after stops) :
    Fits call (admitOnce broker outdated) past stops := by
  refine performs trivial ?_
  intro nowMs
  apply follows_bind.mpr
  apply isLiveConsumer_fits
  intro looked live steady _
  have now : (⟨.now,nowMs⟩ : Event) ∈ looked := steady.mem (.head _)
  split
  · apply next looked
    intro passage same
    cases same
    exact nofun
  · apply follows_bind.mpr
    apply readView_fits
    intro viewed view read seen
    split
    · rename_i isConverted
      have marked : SeenConverted viewed := ⟨view,seen,isConverted⟩
      apply follows_bind.mpr
      apply completeConversion_fits marked
      intro after completed grown
      apply next after
      intro passage same _
      exact (marked.steady grown).clear
    · rename_i unconverted
      apply follows_bind.mpr
      unfold isLiveClassicGeneration
      rw [if_neg unconverted]
      apply anyLive_fits
      intro probed live quiet each
      split
      · apply follows_bind.mpr
        apply convert_fits (seen.quiet quiet)
        intro after res isConverted
        cases res with
        | converted =>
          apply next after
          intro passage same _
          exact (isConverted rfl).clear
        | refused errorCode => exact next after _ nofun
        | outdated => exact retry after
      · rename_i dead
        apply next probed
        intro passage same _
        exact .lapsed (seen.quiet quiet) (quiet.mem (read.mem now))
          (each (Bool.not_eq_true _ ▸ dead))

lemma consumerJoinAdmission_fits : Fits call (consumerJoinAdmission broker left) past stops := by
  induction left generalizing past with
  | zero => exact next past _ nofun
  | succ left ih => exact admitOnce_fits next (fun _ => ih)

end

variable {lost : Run (Except ErrorCode ρ)} {sender : String} {stamps : Option ContactStamps}
  {step : Step ρ} {left : Nat}

lemma deleteContacts_fits {stops : Past → Unit → Prop} {stamps : ContactStamps}
    (next : ∀ after, stops after ()) : Fits call (deleteContacts stamps) past stops := by
  induction stamps generalizing past with
  | nil => exact next past
  | cons stamp rest ih => exact follows_perform_bind.mpr ⟨trivial,fun _ => ih⟩

lemma resolveTopics_fits {stops : Past → Option Resolved → Prop}
    (next : ∀ after resolved, Grown Steady past after → stops after resolved) :
    Fits call (resolveTopics refresh) past stops := by
  unfold resolveTopics
  split
  · exact follows_perform_bind.mpr ⟨trivial,fun _ => next _ _ (Grown.refl.cons _ rfl)⟩
  · exact next past none .refl

lemma Passes.updates (passes : Passes passage past) {next : ConsumerGroupDoc} :
    Issued call past (.updateConsumer passage next version) := by
  cases passage with
  | clear => exact passes rfl
  | _ => trivial

lemma Passes.renews (passes : Passes passage past) {contactMs : Int} :
    Issued call past (.renewContact passage id contactMs) := by
  cases passage with
  | clear => exact passes rfl
  | _ => trivial

lemma transitionOnce_fits {stops : Past → Except ErrorCode ρ → Prop}
    (passes : Passes passage past) (next : ∀ after res, stops after res)
    (retry : ∀ after, Passes passage after → Fits call lost after stops) :
    Fits call (transitionOnce passage sender refresh stamps step lost) past stops := by
  refine asks Steady trivial (fun _ => rfl) ?_
  intro nowMs begun
  refine performs trivial ?_
  intro held
  refine performs trivial ?_
  intro noted
  apply follows_bind.mpr
  apply resolveTopics_fits
  intro resolving resolved grown
  refine performs trivial ?_
  intro minted
  have read := (begun.cons ⟨.readConsumer,held⟩ rfl).cons ⟨.noted sender,noted⟩ rfl
  have still := (read.trans grown).cons ⟨.mint,minted⟩ rfl
  split
  · exact next _ _
  split
  · refine performs ((passes.steady still).updates) ?_
    intro reply
    cases reply with
    | none => exact retry _ (passes.steady (still.cons _ rfl))
    | some stored => exact follows_bind.mpr (deleteContacts_fits (fun after => next after _))
  · split
    · refine performs ((passes.steady still).renews) ?_
      intro _
      exact follows_bind.mpr (deleteContacts_fits (fun after => next after _))
    · exact follows_bind.mpr (deleteContacts_fits (fun after => next after _))

lemma transitionLoop_fits {stops : Past → Except ErrorCode ρ → Prop}
    (passes : Passes passage past) (next : ∀ after res, stops after res) :
    Fits call (transitionLoop passage sender refresh stamps step left) past stops := by
  induction left generalizing past with
  | zero => exact transitionOnce_fits passes next (fun after _ => next after _)
  | succ left ih => exact transitionOnce_fits passes next (fun _ passes => ih passes)

lemma consumerTransition_fits {stops : Past → Except ErrorCode ρ → Prop}
    (passes : Passes passage past) (next : ∀ after res, stops after res) :
    Fits call (consumerTransition passage sender refresh step) past stops := by
  unfold consumerTransition
  split
  · refine performs trivial ?_
    intro stamps
    exact transitionLoop_fits (passes.steady (Grown.refl.cons _ rfl)) next
  · exact transitionLoop_fits passes next

/-! ### Routes -/

variable {joining : Bool}

lemma convertedRoute_fits {stops : Past → Route → Prop} (seen : Seen past view)
    (isConverted : view.generation.isConverted = true) (consumer : ∀ after, stops after .consumer)
    (reread : joining = true → ∀ after, Grown (fun _ => True) past after → stops after .reread) :
    Fits call (convertedRoute view joining nowMs) past stops := by
  apply follows_bind.mpr
  apply completeConversion_fits ⟨view,seen,isConverted⟩
  intro completed _ grown
  split
  · rename_i isJoining
    apply follows_bind.mpr
    apply isLiveConsumer_fits
    intro looked live more _
    split
    · exact consumer looked
    apply follows_perform_bind.mpr
    have still := grown.trans more
    refine ⟨⟨view,seen.steady still,rfl,isConverted,nowMs,rfl⟩,?_⟩
    intro reply
    apply reread isJoining
    exact (still.weaken (fun _ _ => trivial)).cons _ trivial
  · exact consumer completed

lemma classicRoute_fits {stops : Past → Route → Prop} {named : List (String × Option String)}
    (seen : Seen past view) (now : ⟨.now, nowMs⟩ ∈ past)
    (classic : ∀ after, Grown Steady past after → view.generation.isConverted = false → (joining =
      true → view.generation.members.entries = [] → Checked after) → stops after .classic)
    (consumer : ∀ after, stops after .consumer)
    (reread : joining = true → ∀ after, Grown (fun _ => True) past after → stops after .reread) :
    Fits call (classicRoute view named joining nowMs) past stops := by
  unfold classicRoute
  split
  · next isConverted => exact convertedRoute_fits seen isConverted consumer reread
  rename_i unconverted
  have unconverted := Bool.not_eq_true _ ▸ unconverted
  split
  · split
    · apply follows_bind.mpr
      apply isLiveConsumer_fits
      intro looked live grown checked
      split
      · exact consumer looked
      rename_i dead
      exact classic looked grown unconverted (fun _ _ => checked (Bool.not_eq_true _ ▸ dead) now)
    · rename_i nonempty
      exact classic past .refl unconverted (fun _ isEmpty => absurd isEmpty nonempty)
  · rename_i notJoining
    split
    · exact classic past .refl unconverted (fun isJoining => absurd isJoining notJoining)
    refine asks Steady trivial (fun _ => rfl) ?_
    intro held read
    have goOn := classic _ read unconverted (fun isJoining => absurd isJoining notJoining)
    cases held with
    | none => exact goOn
    | some held =>
      dsimp only
      split
      · exact consumer _
      · exact goOn

/-! ### Join -/

variable {admitted : List (String × MemberRef)} {mid : String}

lemma extended_members (named : (gen.members.get? mid).isSome) :
    ((extended gen admitted).members.get? mid).isSome := by
  have folded : ∀ {members : OrderedMap String MemberRef}, (members.get? mid).isSome →
      ((admitted.foldl (fun members entry => members.insert entry.1 entry.2) members).get?
        mid).isSome := by
    induction admitted with
    | nil => exact id
    | cons entry rest ih =>
      intro members named
      apply ih
      rw [OrderedMap.get?_insert]
      split
      · rfl
      · exact named
  exact folded named

namespace Attempt

variable {attempt : Attempt} {older : Past}

lemma unchanged_inv (kept : attempt.changed view = false) :
    view.names attempt.memberId = true ∧ ∃ held, attempt.held = some held ∧
      SameSubscription held.doc.joinResponse.metadata attempt.protocol.2 := by
  unfold changed membershipChanged at kept
  cases isHeld : attempt.held with
  | none =>
    rw [isHeld] at kept
    simp at kept
  | some held =>
    rw [isHeld] at kept
    simp only [Option.all_some,Bool.or_eq_false_iff,Bool.not_eq_false',Bool.and_eq_false_iff,
      decide_eq_false_iff_not,not_not] at kept
    exact ⟨kept.1,held,rfl,kept.2⟩

lemma unwritten_inv (unwritten : attempt.write view = false) :
    view.version.isSome ∧ attempt.changed view = false := by
  unfold write joinDecision at unwritten
  simp only [Bool.or_eq_false_iff,Option.isNone_eq_false_iff] at unwritten
  exact ⟨unwritten.1.1.1,unwritten.1.2⟩

lemma unorphaned_same (gen : GenerationDoc) :
    (unorphaned gen).generationId = gen.generationId ∧
      (unorphaned gen).members = gen.members := by
  unfold unorphaned
  split
  · exact ⟨rfl,rfl⟩
  · exact ⟨rfl,rfl⟩

lemma elected_same (gen : GenerationDoc) (id : String) (nowMs : Int) :
    (elected gen id nowMs).generationId = gen.generationId ∧
      (elected gen id nowMs).members = gen.members := by
  unfold elected
  split
  · exact ⟨rfl,rfl⟩
  · exact ⟨rfl,rfl⟩

lemma opening_same (view : GroupView) (req : ClassicJoin) (protocolName : String)
    (nowMs : Int) :
    (opening view req protocolName nowMs).members = view.generation.members ∧
      (opening view req protocolName nowMs).leader = view.generation.leader ∧
      (opening view req protocolName nowMs).generationId =
        if view.version.isSome then view.generationId else -1 := by
  unfold opening GroupView.generationId
  split <;> split <;> exact ⟨rfl,rfl,rfl⟩

/-- What a pass makes of the group: the same members at the same generation, or one more at the
next. -/
lemma next_inv (attempt : Attempt) (view : GroupView) :
    attempt.changed view = false ∧ (attempt.next view).members = view.generation.members ∧
        (attempt.next view).generationId = (if view.version.isSome then view.generationId else -1) ∨
      attempt.changed view = true ∧ (attempt.next view).members =
          view.generation.members.insert attempt.memberId ⟨attempt.request.instanceId⟩ ∧
        (attempt.next view).generationId =
          saturating 32 ((if view.version.isSome then view.generationId else -1) + 1) := by
  obtain ⟨members,_,gid⟩ :=
    opening_same view attempt.request attempt.protocol.1 attempt.nowMs
  unfold next joinDecision
  rw [(elected_same _ _ _).1,(elected_same _ _ _).2,(unorphaned_same _).1,(unorphaned_same _).2]
  cases isChanged : attempt.changed view with
  | false =>
    unfold changed at isChanged
    rw [isChanged]
    exact .inl ⟨rfl,members,gid⟩
  | true =>
    unfold changed at isChanged
    rw [isChanged]
    refine Or.inr ⟨rfl,?_,?_⟩
    · exact congrArg (fun members => members.insert attempt.memberId ⟨attempt.request.instanceId⟩)
        members
    · exact congrArg (fun gid => saturating 32 (gid + 1)) gid

lemma next_names (kept : attempt.changed view = false → view.names attempt.memberId = true) :
    ((attempt.next view).members.get? attempt.memberId).isSome := by
  cases next_inv attempt view with
  | inl same =>
    rw [same.2.1]
    exact kept same.1
  | inr grown =>
    rw [grown.2.1,OrderedMap.get?_insert_self]
    rfl

lemma read_mem_trail {ο : Type} {observe : Event → Option ο}
    (unseen : ∀ event, Steady event → observe event = none) :
    ⟨.readMember .join attempt.memberId, some attempt.held⟩ ∈
      Program.since observe (attempt.trail view stored older) := by
  have read : ⟨.readMember .join attempt.memberId,some attempt.held⟩ ∈
      Program.since observe (⟨.readMember .join attempt.memberId,some attempt.held⟩ :: older) :=
    mem_since_self (unseen _ rfl)
  unfold trail
  split
  · apply mem_since_cons _ read
    exact unseen _ rfl
  · exact read

end Attempt

variable {protocolName : Option String} {pending : List String} {metadata : Encoded MemberMetadata}
  {answer : JoinAnswer} {stops : Past → Empty → Prop} {attempt : Attempt}
  {protocol : String × Encoded MemberMetadata} {inst : String} {entry : String × MemberRef}
  {req : ClassicJoin} {client : Client}

lemma pendingAdmissions_fits {stops : Past → List String → Prop}
    (next : ∀ after pending, Grown Quiet past after → stops after pending) :
    Fits call (pendingAdmissions gen id nowMs) past stops := by
  refine asks Quiet trivial (fun _ => ⟨rfl,rfl,rfl⟩) ?_
  intro stamps listed
  cases stamps with
  | none | some => exact next _ _ listed

lemma memberRefs_fits {stops : Past → List (String × MemberRef) → Prop}
    (next : ∀ after admitted, Grown Quiet past after → (∀ entry ∈ admitted, Admits after entry) →
          stops after admitted) : Fits call (memberRefs protocolName pending) past stops := by
  induction pending generalizing past stops with
  | nil => exact next past [] .refl nofun
  | cons id rest ih =>
    refine asks Quiet trivial (fun _ => ⟨rfl,rfl,rfl⟩) ?_
    intro held read
    apply follows_bind.mpr
    apply ih
    intro after admitted grown each
    have goOn := next after admitted (read.trans grown) each
    match held with
    | none => exact goOn
    | some none => exact goOn
    | some (some member) =>
      dsimp only
      split
      · exact goOn
      apply next after _ (read.trans grown)
      intro entry isAdmitted
      cases mem_cons.mp isAdmitted with
      | inr isOther => exact each entry isOther
      | inl same =>
        subst same
        exact ⟨member,grown.since (fun _ quiet => quiet.steady) (mem_since_self rfl),rfl⟩

lemma batched_fits {stops : Past → GenerationDoc → Prop} {join : JoinCall}
    (continues : Continues call (.join join)) (enter : Enter (.join join) past)
    (next : ∀ after admitted, Grown Quiet past after → (∀ entry ∈ admitted, Admits after entry) →
      stops after (extended gen admitted)) :
    Fits call (batched join view id gen nowMs) past stops := by
  apply follows_bind.mpr
  apply pendingAdmissions_fits
  intro listed pending grown
  refine performs trivial ?_
  intro deferredMs
  have measured := grown.cons ⟨.elapsed,deferredMs⟩ ⟨rfl,rfl,rfl⟩
  split
  · refine performs trivial ?_
    intro waited
    have asked := measured.cons ⟨.ask .waited,waited⟩ ⟨rfl,rfl,rfl⟩
    split
    · exact again_fits continues (enter.quiet asked)
    · exact next _ [] asked nofun
  · refine performs trivial ?_
    intro order
    have shuffled := measured.cons ⟨.shuffle pending,order⟩ ⟨rfl,rfl,rfl⟩
    apply follows_bind.mpr
    apply memberRefs_fits
    intro after admitted more each
    exact next after admitted (shuffled.trans more) each

lemma joinMembers_fits {stops : Past → Option (OrderedMap String JoinResponseMember) → Prop}
    {consumerProtocol : Bool} (next : ∀ after members, Grown Quiet past after → stops after members) :
    Fits call (joinMembers consumerProtocol order) past stops := by
  induction order generalizing past stops with
  | nil => exact next past _ .refl
  | cons id rest ih =>
    refine performs trivial ?_
    intro held
    apply follows_bind.mpr
    apply ih
    intro after members grown
    exact next after _ ((Grown.refl.cons _ ⟨rfl,rfl,rfl⟩).trans grown)

lemma memberList_fits {stops : Past → Option (List JoinResponseMember) → Prop}
    (next : ∀ after members, Grown Quiet past after → stops after members) :
    Fits call (memberList view id) past stops := by
  unfold memberList
  split
  · refine asks Quiet trivial (fun _ => ⟨rfl,rfl,rfl⟩) ?_
    intro order shuffled
    apply follows_bind.mpr
    apply joinMembers_fits
    intro after members grown
    exact next after _ (shuffled.trans grown)
  · exact next past _ .refl

lemma Raised.quiet (raised : Raised past) (grown : Grown Quiet past after) : Raised after := by
  obtain ⟨next,version,stored,older,view,since,seen,is⟩ := raised
  exact ⟨next,version,stored,older,view,
    since.trans (grown.weaken (fun _ quiet => quiet.steady)),seen,is⟩

lemma Settled.quiet (settled : Settled call past metadata answer) (grown : Grown Quiet past after) :
    Settled call after metadata answer := by
  obtain ⟨⟨view,seen,known⟩,joins,how⟩ := settled
  refine ⟨⟨view,seen.quiet grown,known⟩,joins.grown grown,?_⟩
  cases how with
  | inl raised => exact .inl (raised.quiet grown)
  | inr read =>
    obtain ⟨held,isRead,same⟩ := read
    exact .inr ⟨held,grown.since (fun _ quiet => quiet.steady.unread) isRead,same⟩

lemma refused_fits {stops : Past → α → Prop} (isError : answer.errorCode ≠ .none) :
    Fits call (refused answer) past stops :=
  answered_fits (fun isNone => absurd isNone isError)

lemma joinServed_fits {join : JoinCall}
    (settled : ∀ members, Settled call past metadata (joinAnswer view id members)) :
    Fits call (joinServed join view id metadata) past stops := by
  apply follows_bind.mpr
  apply memberList_fits
  intro after members grown
  cases members with
  | none => exact refused_fits nofun
  | some members => exact answered_fits (fun _ => (settled members).quiet grown)

lemma joinAnswered_fits {join : JoinCall} (continues : Continues call (.join join))
    (enter : Enter (.join join) past)
    (settled : ∀ members, Settled call past metadata (joinAnswer view id members)) :
    Fits call (joinAnswered join view id metadata nowMs) past stops := by
  refine asks Quiet trivial (fun _ => ⟨rfl,rfl,rfl⟩) ?_
  intro elapsedMs measured
  dsimp only
  split
  · refine performs trivial ?_
    intro waited
    have asked := measured.cons ⟨.ask .waited,waited⟩ ⟨rfl,rfl,rfl⟩
    split
    · exact again_fits continues (enter.quiet asked)
    · exact joinServed_fits (fun members => (settled members).quiet asked)
  · exact joinServed_fits (fun members => (settled members).quiet measured)

lemma admitting_fits {stops : Past → GenerationDoc → Prop} {join : JoinCall}
    (continues : Continues call (.join join)) (enter : Enter (.join join) past)
    (next : ∀ after admitted, Grown Quiet past after → (view.names id = true → after = past ∧
      admitted = []) → (∀ entry ∈ admitted, Admits after entry) → stops after (extended gen
      admitted)) : Fits call (admitting join view id gen nowMs) past stops := by
  unfold admitting
  split
  · exact next past [] .refl (fun _ => ⟨rfl,rfl⟩) nofun
  rename_i unnamed
  apply batched_fits continues enter
  intro after admitted grown each
  exact next after admitted grown (fun named => absurd named unnamed) each

lemma Prepared.read (prepared : Prepared call past view attempt)
    {held : StoredMember} (isHeld : attempt.held = some held) :
    ⟨.readMember .join attempt.memberId, some (some held)⟩ ∈ sinceRead past := by
  obtain ⟨stored,older,isTrail⟩ := prepared.recorded
  rw [isTrail,← isHeld]
  exact Attempt.read_mem_trail (fun _ steady => steady.unread)

lemma Prepared.landed {attempt : Attempt} (prepared : Prepared call past view attempt)
    (grown : Grown Quiet past after) (admitted : List (String × MemberRef)) (stored : Nat)
    (members : List JoinResponseMember) :
    Settled call
      (⟨.updateGeneration .join (extended (attempt.next view) admitted).bumped view.version,
        some stored⟩ :: after) attempt.protocol.2
      (joinAnswer (view.following (extended (attempt.next view) admitted) stored) attempt.memberId
        members) where
  seen := by
    refine ⟨view.following (extended (attempt.next view) admitted) stored,?_,rfl,rfl,?_⟩
    · apply Seen.written
      intro document isAssigned
      split at isAssigned
      · rename_i same
        have assigned := (prepared.seen.quiet grown).assigned document isAssigned
        rw [← same] at assigned
        exact assigned
      · cases isAssigned
    · apply extended_members
      exact Attempt.next_names (fun kept => (Attempt.unchanged_inv kept).1)
  joins := by
    apply prepared.joins.grown
    exact (grown.weaken (fun _ _ => trivial)).cons _ (trivial : (fun _ => True) _)
  how := by
    cases isChanged : attempt.changed view with
    | true =>
      refine Or.inl ⟨_,_,stored,after,view,.refl,prepared.seen.quiet grown,?_⟩
      intro present
      cases Attempt.next_inv attempt view with
      | inl same => exact absurd (same.1.symm.trans isChanged) Bool.false_ne_true
      | inr raised =>
        have id := raised.2.2
        rw [if_pos present] at id
        exact id
    | false =>
      obtain ⟨_,held,isHeld,same⟩ := Attempt.unchanged_inv isChanged
      refine Or.inr ⟨held,?_,same⟩
      exact mem_since_cons rfl
        (grown.since (fun _ quiet => quiet.steady.unread) (prepared.read isHeld))

lemma joinWritten_fits {join : JoinCall} (attempt : Attempt)
    (continues : Continues call (.join join)) (enter : Enter (.join join) past)
    (prepared : Prepared call past view attempt) :
    Fits call (joinWritten join view attempt.memberId attempt.protocol.2 (attempt.next view)
      (attempt.write view) attempt.nowMs) past stops := by
  unfold joinWritten
  split
  · rename_i isWrite
    apply follows_bind.mpr
    apply admitting_fits continues enter
    intro after admitted grown named each
    refine performs ⟨view,prepared.seen.quiet grown,rfl,attempt,admitted,
      ⟨⟨past,prepared,grown,named⟩,each⟩,isWrite,rfl⟩ ?_
    intro reply
    cases reply with
    | none => exact again_fits continues (enter.quiet (grown.cons _ ⟨rfl,rfl,rfl⟩))
    | some stored =>
      apply joinAnswered_fits continues
      · exact enter.apart ((grown.weaken (fun _ quiet => quiet.apart)).cons _ ⟨rfl,rfl⟩)
      · exact prepared.landed grown admitted stored
  · rename_i unwritten
    obtain ⟨present,kept⟩ := Attempt.unwritten_inv (Bool.not_eq_true _ ▸ unwritten)
    obtain ⟨named,held,isHeld,same⟩ := Attempt.unchanged_inv kept
    apply joinAnswered_fits continues enter
    intro members
    exact ⟨⟨view,prepared.seen,present,rfl,named⟩,prepared.joins,
      Or.inr ⟨held,prepared.read isHeld,same⟩⟩

lemma joinAs_fits {join : JoinCall}
    (continues : Continues call (.join join)) (enter : Enter (.join join) past)
    (seen : Seen past view) (joins : JoinsAs call past id)
    (checked : view.generation.members.entries = [] → Checked past) :
    Fits call (joinAs join view id protocol nowMs) past stops := by
  apply follows_bind.mpr
  apply heldMember_fits (show Issued call past (.readMember .join id) from joins)
  intro held
  let attempt : Attempt := ⟨join.request,protocol,id,held,nowMs⟩
  have read : Grown Quiet past (⟨.readMember .join id,some held⟩ :: past) :=
    Grown.refl.cons _ ⟨rfl,rfl,rfl⟩
  have prepared : ∀ {after : Past}, Grown Quiet past after →
      (∃ stored older, after = attempt.trail view stored older) →
      Prepared call after view attempt := by
    intro after grown recorded
    have asked : ∃ asked, call = .join asked ∧ join.request = asked.request := by
      obtain ⟨asked,rfl,_⟩ := joins
      obtain ⟨_,same,req⟩ := continues
      cases same
      exact ⟨asked,rfl,req⟩
    exact ⟨asked,seen.quiet grown,joins.grown grown,recorded,
      fun isEmpty => (checked isEmpty).apart (grown.weaken (fun _ quiet => quiet.apart))⟩
  dsimp only
  split
  · rename_i due
    refine performs ⟨joins.grown read,held,past,rfl,rfl⟩ ?_
    intro reply
    cases reply with
    | none => exact again_fits continues (enter.quiet (read.cons _ ⟨rfl,rfl,rfl⟩))
    | some stored =>
      have written := read.cons ⟨.writeMember .join id (attempt.document view)
        (held.map StoredMember.version),some stored⟩ ⟨rfl,rfl,rfl⟩
      apply joinWritten_fits attempt continues (enter.quiet written)
      apply prepared written
      refine ⟨stored,past,?_⟩
      exact (if_pos due).symm
  · rename_i undue
    apply joinWritten_fits attempt continues (enter.quiet read)
    apply prepared read
    refine ⟨0,past,?_⟩
    exact (if_neg undue).symm

lemma Seen.found (seen : Seen past view)
    (blank : req.memberId = "") (isStatic : req.instanceId = some inst)
    (found : view.generation.members.entries.find? (fun entry => entry.2.groupInstanceId = some
      inst) = some entry) : Named req past entry.1 := by
  have isEntry := mem_of_find?_eq_some found
  have isInstance := find?_some found
  have held : view.generation.members.get? entry.1 = some ⟨some inst⟩ := by
    rw [OrderedMap.mem_entries.mp isEntry]
    exact congrArg (fun id => some (MemberRef.mk id)) (of_decide_eq_true isInstance)
  cases isVersion : view.version with
  | none =>
    rw [seen.absent isVersion] at held
    cases held
  | some version => exact .found blank isStatic (seen.observed isVersion) held

lemma joiningMemberId_fits {stops : Past → String × JoinCall → Prop} {join : JoinCall}
    (enter : Enter (.join join) past) (seen : Seen past view)
    (known : ¬ (join.request.memberId = "" ∧ join.request.instanceId = none))
    (next : ∀ after id joining, Grown Quiet past after → joining.request = join.request →
      Enter (.join joining) after → Named join.request after id → stops after (id,
      joining)) : Fits call (joiningMemberId join view) past stops := by
  unfold joiningMemberId
  cases isStatic : join.request.instanceId with
  | none =>
    exact next past _ join .refl rfl enter (.given (fun blank => known ⟨blank,isStatic⟩) rfl)
  | some inst =>
    dsimp only
    split
    · next nonempty => exact next past _ join .refl rfl enter (.given nonempty rfl)
    rename_i blank
    have blank := not_not.mp blank
    unfold instanceMemberId
    split
    · rename_i entry found
      exact next past _ join .refl rfl enter (seen.found blank isStatic found)
    · split
      · rename_i minted isMinted
        apply next past minted join .refl rfl enter
        obtain ⟨other,made,isOther,isMade,same⟩ := enter.2 minted isMinted
        exact .minted blank isOther isMade same
      · refine asks Quiet trivial (fun _ => ⟨rfl,rfl,rfl⟩) ?_
        intro minted made
        apply next _ _ _ made
        · rfl
        · refine ⟨(enter.quiet made).1,?_⟩
          intro id same
          cases same
          exact ⟨inst,minted,isStatic,.head _,rfl⟩
        · exact .minted blank isStatic (.head _) rfl

lemma joinClassic_fits {join joining : JoinCall} (enter : Enter (.join joining) past)
    (same : joining.request = join.request) (seen : Seen past view)
    (checked : view.generation.members.entries = [] → Checked past) :
    Fits (.join join) (joinClassic joining view nowMs) past stops := by
  unfold joinClassic
  split
  · exact refused_fits nofun
  split
  · apply follows_perform_bind.mpr
    exact ⟨trivial,fun _ => refused_fits nofun⟩
  · rename_i known
    apply follows_bind.mpr
    apply joiningMemberId_fits enter seen known
    intro after id last grown sameLast enter named
    have continues : Continues (.join join) (.join last) := ⟨last,rfl,sameLast.trans same⟩
    apply joinAs_fits continues enter (seen.quiet grown)
    · exact ⟨join,rfl,same ▸ named⟩
    · intro isEmpty
      exact (checked isEmpty).apart (grown.weaken (fun _ quiet => quiet.apart))

lemma classicJoinToConsumer_fits :
    Fits call (classicJoinToConsumer broker req client) past stops := by
  apply follows_bind.mpr
  apply consumerTransition_fits
  · exact nofun
  · intro after res
    exact answered_fits trivial

lemma join_fits {call : JoinCall} (enter : Enter (.join call) past) :
    Fits (.join call) (join broker call) past stops := by
  refine asks Apart trivial (fun _ => ⟨rfl,rfl⟩) ?_
  intro nowMs begun
  apply follows_bind.mpr
  apply readView_fits
  intro viewed view read seen
  apply follows_bind.mpr
  apply sweep_fits seen
  intro swept view more seen
  have apart := (begun.trans read).trans more
  have now : (⟨.now,nowMs⟩ : Event) ∈ swept := more.mem (read.mem (.head _))
  split
  · exact refused_fits nofun
  split
  · rename_i unchecked
    have open_ : (view.generation.isConverted || view.generation.members.entries.isEmpty) = true :=
      (Bool.and_eq_true_iff.mp unchecked).2
    apply follows_bind.mpr
    apply classicRoute_fits seen now
    · intro after grown unconverted checked
      have isEmpty : view.generation.members.entries = [] := by
        rw [unconverted,Bool.false_or] at open_
        exact isEmpty_iff.mp open_
      have entered : Enter (.join { call with consumerChecked := true }) after := by
        refine ⟨fun _ => checked rfl isEmpty,?_⟩
        intro id isMinted
        obtain ⟨inst,minted,isStatic,made,same⟩ := enter.2 id isMinted
        exact ⟨inst,minted,isStatic,grown.mem (apart.mem made),same⟩
      exact joinClassic_fits entered rfl (seen.steady grown) (checked rfl)
    · intro after
      exact classicJoinToConsumer_fits
    · intro _ after grown
      apply again_fits
      · exact ⟨_,rfl,rfl⟩
      · refine ⟨nofun,?_⟩
        intro id isMinted
        obtain ⟨inst,minted,isStatic,made,same⟩ := enter.2 id isMinted
        exact ⟨inst,minted,isStatic,grown.mem (apart.mem made),same⟩
  · rename_i unrouted
    apply joinClassic_fits (enter.apart apart) rfl seen
    intro isEmpty
    apply ((enter.apart apart).1 _)
    rw [isEmpty] at unrouted
    simpa using unrouted

/-! ### Sync -/

variable {assignment : AssignmentDoc} {generationIds : List Int} {errorCode : ErrorCode}

lemma createAssignment_fits {stops : Past → AssignmentDoc → Prop}
    (issued : Issued call past (.createAssignment gid assignment))
    (next : ∀ after document, Grown Quiet past after →
      (⟨.createAssignment gid document, true⟩ ∈ after ∨
        ⟨.readAssignment gid, some document⟩ ∈ after) → stops after document) :
    Fits call (createAssignment gid assignment) past stops := by
  refine performs issued ?_
  intro created
  have tried : Grown Quiet past (⟨.createAssignment gid assignment,created⟩ :: past) :=
    Grown.refl.cons _ ⟨rfl,rfl,rfl⟩
  cases created with
  | true => exact next _ assignment tried (.inl (.head _))
  | false =>
    refine performs trivial ?_
    intro stored
    cases stored with
    | none => exact answered_fits trivial
    | some document =>
      exact next _ document (tried.cons _ ⟨rfl,rfl,rfl⟩) (.inr (.head _))

lemma deleteAssignments_fits {stops : Past → Unit → Prop} (observed : Observed past held)
    (old : ∀ gid ∈ generationIds, gid < saturating 32 (held.doc.generationId - 1))
    (next : ∀ after, Grown Quiet past after → stops after ()) :
    Fits call (deleteAssignments generationIds) past stops := by
  induction generationIds generalizing past with
  | nil => exact next past .refl
  | cons gid rest ih =>
    refine performs ⟨held,observed,old gid (.head _)⟩ ?_
    intro reply
    have tried : Grown Quiet past (⟨.deleteAssignment gid,reply⟩ :: past) :=
      Grown.refl.cons _ ⟨rfl,rfl,rfl⟩
    apply ih (observed.grown tried)
    · intro other isOther
      exact old other (.tail _ isOther)
    · intro after grown
      exact next after (tried.trans grown)

lemma deleteGroupAssignmentsBefore_fits {stops : Past → Unit → Prop}
    (observed : Observed past held) (next : ∀ after, Grown Quiet past after → stops after ()) :
    Fits call (deleteGroupAssignmentsBefore (saturating 32 (held.doc.generationId - 1))) past
      stops := by
  refine asks Quiet trivial (fun _ => ⟨rfl,rfl,rfl⟩) ?_
  intro listed tried
  apply deleteAssignments_fits (observed.grown tried)
  · intro gid isOld
    exact of_decide_eq_true (mem_filter.mp isOld).2
  · intro after grown
    exact next after (tried.trans grown)

def SyncKnown (past : Past) (call : SyncCall) (answer : SyncAnswer) : Prop :=
  answer.errorCode = .none → Granted past call.memberId call.generationId answer.assignment

lemma SyncKnown.error {call : SyncCall} (isError : errorCode ≠ .none) :
    SyncKnown past call (syncError view errorCode) :=
  fun isNone => absurd isNone isError

lemma Seen.names (seen : Seen past view) (named : view.names id = true) :
    ∃ held, Observed past held ∧ held.doc = view.generation := by
  cases isVersion : view.version with
  | none =>
    rw [GroupView.names,seen.absent isVersion] at named
    cases named
  | some version => exact ⟨_,seen.observed isVersion,rfl⟩

lemma syncLeader_fits {stops : Past → GroupView × SyncAnswer → Prop} {sync : SyncCall}
    (seen : Seen past view) (named : view.names sync.memberId = true)
    (leads : view.generation.leader = some sync.memberId)
    (same : view.generationId = sync.generationId)
    (next : ∀ after view answer, SyncKnown after sync answer → stops after (view, answer)) :
    Fits call (syncLeader sync view nowMs) past stops := by
  obtain ⟨held,observed,isHeld⟩ := seen.names named
  unfold syncLeader GroupView.generationId
  unfold GroupView.generationId at same
  rw [GroupView.names] at named
  rw [← isHeld] at same leads named ⊢
  dsimp only
  split
  · exact next past _ _ (SyncKnown.error nofun)
  rename_i requested
  apply follows_bind.mpr
  apply createAssignment_fits
  · refine ⟨held,observed,rfl,rfl,leads,?_⟩
    rw [← Option.not_isNone,Bool.not_eq_true']
    exact Bool.not_eq_true _ ▸ requested
  · intro created document quiet known
    apply follows_bind.mpr
    apply readView_fits
    intro viewed after read seenAfter
    have observed := (observed.grown quiet).grown read
    have granted : Granted viewed sync.memberId sync.generationId
        ((document.assignments.get? sync.memberId).getD {}) :=
      ⟨held,document,observed,same,named,same ▸ known.imp read.mem read.mem,Or.inr ⟨leads,rfl⟩⟩
    split
    · exact next viewed _ _ (SyncKnown.error nofun)
    apply follows_bind.mpr
    apply deleteGroupAssignmentsBefore_fits observed
    intro last grown
    exact next last _ _ (fun _ => granted.grown grown)

lemma syncOnce_fits {stops : Past → GroupView × SyncAnswer → Prop} {sync : SyncCall}
    (seen : Seen past view)
    (next : ∀ after view answer, SyncKnown after sync answer → stops after (view, answer)) :
    Fits call (syncOnce sync view nowMs) past stops := by
  unfold syncOnce
  split
  · exact next past _ _ (SyncKnown.error nofun)
  rename_i known
  have named : view.names sync.memberId = true := by
    simp only [not_or,Bool.not_eq_true',Bool.not_eq_false] at known
    exact known.2
  split
  · exact next past _ _ (SyncKnown.error nofun)
  rename_i notAbove
  split
  · exact next past _ _ (SyncKnown.error nofun)
  rename_i notBelow
  have same : view.generationId = sync.generationId :=
    le_antisymm (not_lt.mp notBelow) (not_lt.mp notAbove)
  split
  · rename_i assignments isAssigned
    split
    · exact next past _ _ (SyncKnown.error nofun)
    rename_i assignment isEntry
    apply next past
    intro _
    obtain ⟨held,observed,isHeld⟩ := seen.names named
    obtain ⟨document,filtered,isDocument⟩ := Option.map_eq_some_iff.mp isAssigned
    have isRead := (Option.filter_eq_some_iff.mp filtered).1
    refine ⟨held,document,observed,?_,?_,.inr ?_,.inl ?_⟩
    · rw [isHeld]
      exact same
    · rw [isHeld]
      exact named
    · rw [← same]
      exact seen.assigned document isRead
    · rw [isDocument]
      exact isEntry
  · split
    · exact next past _ _ (SyncKnown.error nofun)
    · next leads => exact syncLeader_fits seen named (not_not.mp leads) same next

lemma syncAnswered_fits {sync : SyncCall} {answer : SyncAnswer}
    (known : SyncKnown past sync answer) :
    Fits (.sync sync) (syncAnswered sync view answer) past stops := by
  refine asks Quiet trivial (fun _ => ⟨rfl,rfl,rfl⟩) ?_
  intro elapsedMs measured
  have answers : ∀ {after : Past}, Grown Quiet past after → SyncKnown after sync answer :=
    fun grown isNone => (known isNone).grown grown
  have errors : ∀ {errorCode : ErrorCode}, syncLongPoll view answer sync.instanceId elapsedMs
      sync.generationId = .respond (some errorCode) → errorCode = .rebalanceInProgress := by
    intro errorCode decided
    unfold syncLongPoll at decided
    dsimp only at decided
    split_ifs at decided <;> cases decided
    rfl
  split
  · exact answered_fits (answers measured)
  · rename_i errorCode decided
    rw [errors decided]
    exact answered_fits nofun
  · refine performs trivial ?_
    intro waited
    split
    · exact again_fits rfl trivial
    split
    · exact answered_fits (answers (measured.cons _ ⟨rfl,rfl,rfl⟩))
    · exact answered_fits nofun

lemma classicSyncToConsumer_fits {sync : SyncCall} :
    Fits call (classicSyncToConsumer broker sync) past stops := by
  apply follows_bind.mpr
  apply consumerTransition_fits
  · exact nofun
  · intro after res
    exact answered_fits trivial

lemma sync_fits {call : SyncCall} : Fits (.sync call) (sync broker call) past stops := by
  refine performs trivial ?_
  intro nowMs
  apply follows_bind.mpr
  apply readView_fits
  intro viewed view read seen
  apply follows_bind.mpr
  apply classicRoute_fits seen (read.mem (.head _))
  · intro routed grown _ _
    apply follows_bind.mpr
    apply sweep_fits (seen.steady grown)
    intro swept view more seen
    apply follows_bind.mpr
    apply syncOnce_fits seen
    intro synced view answer known
    apply follows_bind.mpr
    apply renewMember_fits
    intro renewed grown
    exact syncAnswered_fits (fun isNone => (known isNone).grown grown)
  · intro after
    exact classicSyncToConsumer_fits
  · exact nofun

/-! ### Leave -/

variable {conflicts : Nat}

lemma classicLeaveToConsumer_fits :
    Fits call (classicLeaveToConsumer broker departing) past stops := by
  apply follows_bind.mpr
  apply consumerTransition_fits
  · exact nofun
  · intro after res
    exact answered_fits trivial

lemma leave_fits :
    Fits (.leave departing conflicts) (leave broker departing conflicts) past stops := by
  refine performs trivial ?_
  intro nowMs
  apply follows_bind.mpr
  apply readView_fits
  intro viewed view read seen
  apply follows_bind.mpr
  apply classicRoute_fits seen (read.mem (.head _))
  · intro routed grown _ _
    dsimp only
    split
    · exact answered_fits trivial
    rename_i someone
    refine performs ⟨view,seen.steady grown,rfl,departing,nowMs,someone,rfl⟩ ?_
    intro reply
    cases reply with
    | some stored =>
      apply follows_bind.mpr
      apply deleteMembers_fits
      intro after _
      exact answered_fits trivial
    | none =>
      dsimp only
      split
      · exact answered_fits trivial
      · exact again_fits ⟨_,rfl⟩ trivial
  · intro after
    exact classicLeaveToConsumer_fits
  · exact nofun

/-! ### Heartbeats and commits -/

lemma classicHeartbeatToConsumer_fits :
    Fits call (classicHeartbeatToConsumer broker heartbeat) past stops := by
  refine performs trivial ?_
  intro memo
  apply follows_bind.mpr
  apply consumerTransition_fits
  · exact nofun
  · intro after res
    exact answered_fits trivial

lemma heartbeat_fits : Fits call (Coordinator.heartbeat broker heartbeat) past stops := by
  refine performs trivial ?_
  intro nowMs
  apply follows_bind.mpr
  apply readView_fits
  intro viewed view read seen
  apply follows_bind.mpr
  apply classicRoute_fits seen (read.mem (.head _))
  · intro routed grown _ _
    apply follows_bind.mpr
    apply sweep_fits (seen.steady grown)
    intro swept view more seen
    split
    · exact answered_fits trivial
    apply follows_bind.mpr
    apply renewMember_fits
    intro renewed _
    exact answered_fits trivial
  · intro after
    exact classicHeartbeatToConsumer_fits
  · exact nofun

lemma commit_fits : Fits call (commit id gid) past stops := by
  unfold commit
  split
  · refine performs trivial ?_
    intro nowMs
    refine performs trivial ?_
    intro held
    split
    · apply follows_perform_bind.mpr
      exact ⟨trivial,fun _ => answered_fits trivial⟩
    · apply follows_bind.mpr
      apply renewMember_fits
      intro renewed _
      split
      · exact answered_fits trivial
      apply follows_bind.mpr
      unfold staleCommitVerdict
      split
      · refine performs trivial ?_
        intro stored
        cases stored with
        | none | some => exact answered_fits trivial
      · exact answered_fits trivial
  · exact answered_fits trivial

lemma consumerServed_fits {req : HeartbeatRequest} (passes : Passes passage past) :
    Fits call (consumerServed broker req client passage) past stops := by
  refine performs trivial ?_
  intro memo
  apply follows_bind.mpr
  apply consumerTransition_fits
  · exact passes.steady (Grown.refl.cons _ rfl)
  · intro after res
    exact answered_fits trivial

lemma consumerHeartbeat_fits {req : HeartbeatRequest} :
    Fits call (consumerHeartbeat broker req client) past stops := by
  unfold consumerHeartbeat
  split
  · apply follows_bind.mpr
    apply consumerJoinAdmission_fits
    intro after res passes
    cases res with
    | error errorCode => exact answered_fits trivial
    | ok passage => exact consumerServed_fits (passes passage rfl)
  · exact consumerServed_fits nofun

end Programs

def discipline (broker : Broker) : Machine.Discipline (coordinator broker) where
  issued := Issued
  enter := Enter
  continues := Continues
  start {call} opens := by
    cases call with
    | join call =>
      have opens : (!call.consumerChecked && call.mintedForInstance.isNone) = true := opens
      simp only [Bool.and_eq_true, Bool.not_eq_true', Option.isNone_iff_eq_none] at opens
      refine ⟨?_, ?_⟩
      · intro isChecked
        exact absurd (opens.1.symm.trans isChecked) Bool.false_ne_true
      · intro memberId isMinted
        rw [opens.2] at isMinted
        cases isMinted
    | _ => trivial
  body {call past} enter := by
    cases call with
    | join call => exact join_fits enter
    | sync call => exact sync_fits
    | leave departing conflicts => exact leave_fits
    | heartbeat call => exact heartbeat_fits
    | commit memberId generationId => exact commit_fits
    | consumerHeartbeat request client => exact consumerHeartbeat_fits

end Kodansu.Coordinator

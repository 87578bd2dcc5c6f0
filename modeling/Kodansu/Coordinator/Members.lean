/-
Members and their documents.

A member's document is written before the generation names the member, and deleted after it
does not.  Neither write is tied to the generation, so that a document may be deleted under a
member that has come back, or under another one that shares it, and a member that has renewed its
document may be evicted on the word of an older read.  This module says what has to be the case when a document is deleted,
written or read for these not to happen, and the same for the instance ids of the members.
-/

import Kodansu.Coordinator.Generations

namespace Kodansu.Coordinator

open Lib Kodansu.Group OrderedMap List

variable {attempt : Attempt} {next generation : GenerationDoc} {roster : Roster Op.Reply Call}
  {admitted : List (String × MemberRef)} {w after : World}

/-! ### Documents of named members -/

def relies : Event → Option String
  | ⟨.readMember .join memberId, some (some _)⟩ => some memberId
  | ⟨.readMember .batch memberId, some (some _)⟩ => some memberId
  | ⟨.writeMember .join memberId _ _, some _⟩ => some memberId
  | _ => none

def relied (past : Past) : List String := (sinceGeneration past).filterMap relies

def World.names (world : World) (memberId : String) : Bool :=
  world.generation.any (fun held => (held.doc.members.get? memberId).isSome)

def ShareDocument (left right : String) : Prop :=
  groupMemberLocation left = groupMemberLocation right

instance (left right : String) : Decidable (ShareDocument left right) :=
  inferInstanceAs (Decidable (_ = _))

/-- A document is deleted only when the generation names no member that has it, and no join that is
under way goes by it. -/
def deletesUnused : Condition := fun world roster _ deed =>
  match deed with
  | .perform (.deleteMember memberId) _ => ∀ other, ShareDocument other memberId →
    world.names other = false ∧
      ∀ index call past, roster index = some (call, past) → other ∉ relied past
  | _ => True

def NamedHaveDocuments (world : World) : Prop :=
  ∀ memberId, world.names memberId = true → (world.member? memberId).isSome

def ReliedHaveDocuments (world : World) (_ : Call) (past : Past) : Prop :=
  ∀ memberId ∈ relied past, (world.member? memberId).isSome

section

variable (location : List (List Char)) (mid : String)

lemma World.member?_withMember (doc : MemberDoc) (ms : Int) :
    (w.withMember location doc ms).member? mid =
      if groupMemberLocation mid = some location then some ⟨doc, w.nextVersion, ms⟩
      else w.member? mid := by
  unfold World.member? World.withMember
  cases groupMemberLocation mid with
  | none => rfl
  | some own =>
    rw [Option.bind_some,Option.bind_some,get?_insert]
    by_cases same : own = location <;> simp [same]

lemma World.member?_removed : { w with members := w.members.remove location }.member? mid =
    if groupMemberLocation mid = some location then none else w.member? mid := by
  unfold World.member?
  cases groupMemberLocation mid with
  | none => rfl
  | some own =>
    rw [Option.bind_some,Option.bind_some,get?_remove]
    by_cases same : own = location <;> simp [same]

end

variable {past : Past} {memberId mid : String} {event : Event} {gen : GenerationDoc}
  {ref : MemberRef} {call : Call} {view : GroupView} {cause : Cause} {broker : Broker}
  {condition : Condition} {index bound other : Nat} {operation : Op} {world : World}
  {deed : Deed Op Choice Call}

lemma mem_relied :
    memberId ∈ relied past ↔ ∃ event ∈ sinceGeneration past, relies event = some memberId :=
  mem_filterMap

lemma mem_relied_cons {past : List Event} : memberId ∈ relied (event :: past) ↔
      observedGeneration event = none ∧ (relies event = some memberId ∨ memberId ∈ relied past) := by
  rw [mem_relied,mem_relied]
  constructor
  · rintro ⟨other,isEvent,is⟩
    obtain ⟨unseen,either⟩ := Program.mem_since_cons_iff.mp isEvent
    refine ⟨unseen,either.imp ?_ ?_⟩
    · rintro rfl
      exact is
    · intro older
      exact ⟨other,older,is⟩
  · rintro ⟨unseen,isNew | ⟨other,older,is⟩⟩
    · exact ⟨event,Program.mem_since_self unseen,isNew⟩
    · exact ⟨other,Program.mem_since_cons unseen older,is⟩

lemma extended_inv (named : (extended gen admitted).members.get? mid = some ref) :
    gen.members.get? mid = some ref ∨ (mid, ref) ∈ admitted := by
  have folded : ∀ {members : OrderedMap String MemberRef},
      (admitted.foldl (fun members entry => members.insert entry.1 entry.2) members).get? mid =
        some ref → members.get? mid = some ref ∨ (mid, ref) ∈ admitted := by
    clear named
    induction admitted with
    | nil => exact .inl
    | cons entry rest ih =>
      intro members named
      cases ih named with
      | inr later => exact .inr (.tail _ later)
      | inl now =>
        rw [get?_insert] at now
        split at now
        · rename_i same
          cases now
          subst same
          exact .inr (.head _)
        · exact .inl now
  exact folded named

lemma departures_members {departing : List (String × Option String)}
    (named : (departures gen departing).generation.members.get? mid = some ref) :
    gen.members.get? mid = some ref := by
  have folded : ∀ {departures : Departures},
      (departing.foldl Departures.depart departures).generation.members.get? mid = some ref →
        departures.generation.members.get? mid = some ref := by
    clear named
    induction departing with
    | nil => exact id
    | cons identity rest ih =>
      intro departures named
      have before := ih named
      unfold Departures.depart at before
      split at before
      · rw [get?_remove] at before
        split at before
        · cases before
        · exact before
      · exact before
  exact folded named

/-- The entries of the next generation are those of the last one, the joining member's own, and
those of the members that a batch lets in. -/
lemma Rewrites.entries (rewrites : Rewrites call past view cause next) :
    (∀ mid ref, next.members.get? mid = some ref →
        view.generation.members.get? mid = some ref) ∨
      ∃ attempt admitted, Entering call past view attempt admitted ∧
        ∀ mid ref, next.members.get? mid = some ref →
          view.generation.members.get? mid = some ref ∨
            mid = attempt.memberId ∧ ref = ⟨attempt.request.instanceId⟩ ∨
            (mid, ref) ∈ admitted := by
  cases cause with
  | claim | convert =>
    obtain ⟨_,nowMs,rfl⟩ := rewrites
    exact .inl (fun _ _ named => named)
  | evict nowMs =>
    obtain ⟨_,expired,rfl,_⟩ := rewrites
    refine Or.inl ?_
    intro mid ref named
    change (view.generation.members.filter _).get? mid = some ref at named
    rw [get?_filter] at named
    exact (Option.filter_eq_some_iff.mp named).1
  | join =>
    obtain ⟨attempt,admitted,entering,_,rfl⟩ := rewrites
    refine Or.inr ⟨attempt,admitted,entering,?_⟩
    intro mid ref named
    cases extended_inv named with
    | inr isAdmitted => exact .inr (.inr isAdmitted)
    | inl own =>
      cases Attempt.next_inv attempt view with
      | inl same =>
        rw [same.2.1] at own
        exact .inl own
      | inr raised =>
        rw [raised.2.1,get?_insert] at own
        split at own
        · next isOwn => exact .inr (.inl ⟨isOwn,(Option.some.inj own).symm⟩)
        · exact .inl own
  | leave =>
    obtain ⟨departing,nowMs,_,rfl⟩ := rewrites
    refine Or.inl ?_
    intro mid ref named
    unfold Departures.withdrawn GenerationDoc.bumped at named
    rw [(Attempt.unorphaned_same _).2] at named
    exact departures_members named
  | takeBack =>
    obtain ⟨_,nowMs,rfl⟩ := rewrites
    exact .inl nofun

lemma Attempt.undue_held (undue : attempt.due view = false) :
    ∃ held, attempt.held = some held := by
  cases isHeld : attempt.held with
  | some held => exact ⟨held,rfl⟩
  | none =>
    unfold Attempt.due memberWriteDue at undue
    rw [isHeld] at undue
    cases undue

lemma Entering.relied (entering : Entering call past view attempt admitted) :
    attempt.memberId ∈ Coordinator.relied past := by
  obtain ⟨before,prepared,grown,_⟩ := entering.prepared
  obtain ⟨stored,older,isTrail⟩ := prepared.recorded
  have reliedBefore : ∃ event ∈ sinceGeneration before, relies event = some attempt.memberId := by
    rw [isTrail]
    unfold Attempt.trail
    split
    · exact ⟨_,Program.mem_since_self rfl,rfl⟩
    rename_i undue
    obtain ⟨held,isHeld⟩ := Attempt.undue_held (Bool.not_eq_true _ ▸ undue)
    rw [isHeld]
    exact ⟨_,Program.mem_since_self rfl,rfl⟩
  obtain ⟨event,isEvent,is⟩ := reliedBefore
  exact mem_relied.mpr ⟨event,grown.since (fun _ quiet => quiet.steady) isEvent,is⟩

lemma Rewrites.relied (rewrites : Rewrites call past view cause next)
    (named : (next.members.get? mid).isSome) :
    (view.generation.members.get? mid).isSome ∨ mid ∈ Coordinator.relied past := by
  obtain ⟨ref,isRef⟩ := Option.isSome_iff_exists.mp named
  have kept : view.generation.members.get? mid = some ref →
      (view.generation.members.get? mid).isSome := by
    intro before
    rw [before]
    rfl
  cases rewrites.entries with
  | inl before => exact .inl (kept (before mid ref isRef))
  | inr joined =>
    obtain ⟨attempt,admitted,entering,each⟩ := joined
    rcases each mid ref isRef with before | own | isAdmitted
    · exact .inl (kept before)
    · rw [own.1]
      exact .inr entering.relied
    · obtain ⟨member,isRead,_⟩ := entering.batch _ isAdmitted
      exact .inr (mem_relied.mpr ⟨_,isRead,rfl⟩)

lemma Reaches.lands_names {past : List (Program.Event Op.Reply)}
    (reached : Reaches broker condition w roster)
    (own : roster index = some (call, past)) (seen : Seen past view)
    (same : w.version = view.version) (memberId : String) :
    w.names memberId = view.names memberId := by
  unfold World.names GroupView.names
  rw [reached.lands own seen same,GroupView.held]
  cases isVersion : view.version with
  | none =>
    rw [seen.absent isVersion]
    rfl
  | some version => rfl

lemma NamedHaveDocuments.moved {past : List (Program.Event Op.Reply)}
    (reached : Reaches broker condition w roster)
    {reply : operation.Reply} (named : NamedHaveDocuments w)
    (own : roster index = some (call, past)) (relied : ReliedHaveDocuments w call past)
    (issued : Issued call past operation)
    (unnamed : ∀ id, operation = .deleteMember id → ∀ other, ShareDocument other id →
      w.names other = false)
    (moved : Moved w ⟨operation, reply⟩ after) : NamedHaveDocuments after := by
  cases moved with
  | generation =>
    intro id isNamed
    obtain ⟨view,seen,same,rewrites⟩ := issued
    cases rewrites.relied isNamed with
    | inl before =>
      exact named id ((reached.lands_names own seen same id).trans before)
    | inr isRelied => exact relied id isRelied
  | member =>
    intro id isNamed
    rw [World.member?_withMember]
    split
    · rfl
    · exact named id isNamed
  | @forgotten gone location located =>
    intro id isNamed
    rw [World.member?_removed]
    split
    · rename_i here
      have absent : w.names id = false := unnamed gone rfl id (here.trans located.symm)
      exact absurd (absent.symm.trans isNamed) Bool.false_ne_true
    · exact named id isNamed
  | _ => exact named

lemma Moved.relies (moved : Moved w event after) (is : relies event = some mid) :
    (after.member? mid).isSome := by
  cases moved with
  | idle tells =>
    obtain ⟨operation,reply⟩ := event
    cases operation with
    | readMember purpose other =>
      have told : ∀ held, reply = some held → held = w.member? other := tells
      have found : other = mid ∧ ∃ member, reply = some (some member) := by
        unfold Coordinator.relies at is
        split at is
        · rename_i heq
          cases heq
          exact ⟨Option.some.inj is,_,rfl⟩
        · rename_i heq
          cases heq
          exact ⟨Option.some.inj is,_,rfl⟩
        · next heq => cases heq
        · cases is
      obtain ⟨rfl,member,isReply⟩ := found
      rw [← told _ isReply]
      rfl
    | writeMember purpose other next version =>
      have lost : reply = none := tells
      subst lost
      cases purpose <;> cases is
    | _ => cases is
  | @member purpose other location next version ms located =>
    cases purpose with
    | join =>
      cases is
      rw [World.member?_withMember,if_pos located]
      rfl
    | _ => cases is
  | _ => cases is

lemma ReliedHaveDocuments.moved (relied : ReliedHaveDocuments w call past)
    (unrelied : ∀ id, event = ⟨.deleteMember id, ()⟩ → ∀ other, ShareDocument other id →
      other ∉ Coordinator.relied past) (moved : Moved w event after) :
    ReliedHaveDocuments after call past := by
  intro id isRelied
  have present := relied id isRelied
  cases moved with
  | member =>
    rw [World.member?_withMember]
    split
    · rfl
    · exact present
  | forgotten located =>
    rw [World.member?_removed]
    split
    · rename_i here
      exact absurd isRelied (unrelied _ rfl id (here.trans located.symm))
    · exact present
  | _ => exact present

lemma Reaches.documents (reached : Reaches broker deletesUnused world roster) :
    NamedHaveDocuments world := by
  have kept : Machine.Kept NamedHaveDocuments ReliedHaveDocuments world roster := by
    apply Reaches.kept _ _ _ _ _ reached
    · intro mid named
      cases named
    · intro world call _ mid isRelied
      cases isRelied
    · intro world call next past relied _ _
      exact relied
    · intro world nowMs _ named
      exact ⟨named,fun relied => relied⟩
    · intro world after roster index call past operation choice reply reached kept own issued allowed
        performed
      have moved := World.perform_moved performed
      have unused : ∀ mid, operation = .deleteMember mid → ∀ other, ShareDocument other mid →
          world.names other = false ∧
            ∀ index call past, roster index = some (call, past) → other ∉ relied past := by
        intro mid same
        subst same
        exact allowed
      have unrelied : ∀ mid, (⟨operation,reply⟩ : Event) = ⟨.deleteMember mid,()⟩ →
          ∀ index call past, roster index = some (call, past) →
            ∀ other, ShareDocument other mid → other ∉ relied past := by
        intro mid same index call past isParty other shared
        cases same
        exact (unused mid rfl other shared).2 index call past isParty
      refine ⟨?_,?_,?_⟩
      · exact kept.shared.moved reached own (kept.own own) issued
          (fun mid same other shared => (unused mid same other shared).1) moved
      · intro mid isRelied
        obtain ⟨_,isNew | older⟩ := mem_relied_cons.mp isRelied
        · exact moved.relies isNew
        · exact (kept.own own).moved (fun mid same => unrelied mid same _ _ _ own) moved
            mid older
      · intro other otherCall otherPast _ isOther relied
        exact relied.moved (fun mid same => unrelied mid same _ _ _ isOther) moved
  exact kept.shared

theorem named_have_documents {broker : Broker} {state : State}
    (reachable : Reachable broker deletesUnused state) :
    ∀ memberId, state.world.names memberId = true → (state.world.member? memberId).isSome :=
  reachable.reaches.documents

lemma roster_low {past : List (Program.Event Op.Reply)}
    (others : ∀ other, bound ≤ other → roster other = none)
    (isParty : roster other = some (call, past)) : other < bound := by
  by_contra high
  rw [others other (not_lt.mp high)] at isParty
  cases isParty

/-- Whether no one on the roster has, in the list, a member with the document of this one. -/
def apartOn (roster : Roster Op.Reply Call) (bound : Nat) (names : Past → List String)
    (memberId : String) : Bool :=
  (List.range bound).all (fun index => (roster index).all (fun party =>
    (names party.2).all (fun other => !decide (ShareDocument other memberId))))

lemma roster_free {past : List (Program.Event Op.Reply)} {other : String}
    {names : Past → List String}
    (others : ∀ other, bound ≤ other → roster other = none)
    (passed : apartOn roster bound names mid = true)
    (isParty : roster index = some (call, past)) (shared : ShareDocument other mid) :
    other ∉ names past := by
  intro isNamed
  have free := all_eq_true.mp passed index (mem_range.mpr (roster_low others isParty))
  rw [isParty,Option.all_some,all_eq_true] at free
  have apart := free other isNamed
  rw [decide_eq_true shared] at apart
  cases apart

def World.ids (world : World) : List String :=
  world.generation.elim [] (fun held => Coordinator.ids held.doc)

lemma World.mem_ids (named : w.names mid = true) : mid ∈ w.ids := by
  obtain ⟨held,isHeld,isNamed⟩ := (Option.any_eq_true _ _).mp named
  obtain ⟨ref,isRef⟩ := Option.isSome_iff_exists.mp isNamed
  unfold World.ids
  rw [isHeld]
  exact mem_map.mpr ⟨(mid,ref),mem_entries.mpr isRef,rfl⟩

def checksUnused (bound : Nat) : Check := fun world roster _ deed =>
  match deed with
  | .perform (.deleteMember memberId) _ =>
    world.ids.all (fun other => !decide (ShareDocument other memberId)) &&
      apartOn roster bound relied memberId
  | _ => true

lemma checksUnused_sufficient (others : ∀ other, bound ≤ other → roster other = none)
    (passed : checksUnused bound w roster index deed = true) :
    deletesUnused w roster index deed := by
  cases deed with
  | perform operation choice =>
    cases operation with
    | deleteMember id =>
      obtain ⟨unnamed,unrelied⟩ := Bool.and_eq_true_iff.mp passed
      intro other shared
      refine ⟨?_,fun _ _ _ isParty => roster_free others unrelied isParty shared⟩
      cases isNamed : w.names other with
      | false => rfl
      | true =>
        have apart := all_eq_true.mp unnamed other (World.mem_ids isNamed)
        rw [decide_eq_true shared] at apart
        cases apart
    | _ => trivial
  | _ => trivial

theorem named_have_documents_departed :
    ∃ state, Reachable {} deletesUnused state ∧
      (∀ memberId, state.world.names memberId = true → (state.world.member? memberId).isSome) ∧
      (state.world.generations.map (fun held => ids held.doc),
        state.world.memberStamps.entries.map Prod.fst) = ([["m"], [], ["m"]], ["m"]) := by
  have ended : (ends 2 (checksUnused 2)
      (joinsAlone 0 10 ["a"] ++ [(1, .start (.leave [("m", none)] 0))] ++ goes 1 7 prompt ++
        joinsAlone 0 10 ["a"])).map
      (fun state => (state.world.generations.map (fun held => ids held.doc),
        state.world.memberStamps.entries.map Prod.fst)) =
      some ([["m"], [], ["m"]], ["m"]) := by decide +kernel
  obtain ⟨state,reachable,observed⟩ := ends_reachable checksUnused_sufficient ended
  exact ⟨state,reachable,named_have_documents reachable,observed⟩

/-- The member leaves and joins again before its document is deleted. -/
theorem lateDelete_orphans_member :
    ∃ state, Reachable {} (fun _ _ _ _ => True) state ∧ state.world.names "m" = true ∧
      state.world.member? "m" = none := by
  have ended : (ends 2 (fun _ _ _ _ => true)
      (joinsAlone 0 10 ["a"] ++ [(1, .start (.leave [("m", none)] 0))] ++ goes 1 4 prompt ++
        joinsAlone 0 9 ["a"] ++ goes 1 1 prompt)).map
      (fun state => (state.world.names "m", state.world.member? "m")) = some (true, none) := by
    decide +kernel
  obtain ⟨state,reachable,observed⟩ := ends_reachable (fun _ _ => trivial) ended
  exact ⟨state,reachable,congrArg Prod.fst observed,congrArg Prod.snd observed⟩

/-! ### Evictions -/

def World.lapsedAt (world : World) (nowMs : Int) (memberId : String) : Bool :=
  (world.member? memberId).all (fun member => member.doc.isExpired nowMs)

/-- The member that a sweep's read condemns. -/
def condemns : Event → Option String
  | ⟨.readMember (.sweep nowMs) memberId, reply⟩ =>
    if lapsedVerdict nowMs reply then some memberId else none
  | _ => none

def condemned (past : Past) : List String := (sinceGeneration past).filterMap condemns

/-- A sweep fails to read only documents that have lapsed anyway, and no document is written that
belongs to a member that a sweep under way has found lapsed. -/
def sweepsFairly : Condition := fun world roster _ deed =>
  match deed with
  | .perform (.readMember (.sweep nowMs) memberId) choice =>
    choice.failed = true → world.lapsedAt nowMs memberId = true
  | .perform (.writeMember _ memberId _ _) _ => ∀ other, ShareDocument other memberId →
    ∀ index call past, roster index = some (call, past) → other ∉ condemned past
  | _ => True

def EvictedLapsed (world : World) : Prop :=
  ∀ eviction ∈ world.evictions,
    eviction.held.all (fun member => member.isExpired eviction.nowMs) = true

def CondemnedLapsed (world : World) (_ : Call) (past : Past) : Prop :=
  ∀ nowMs memberId reply, (⟨.readMember (.sweep nowMs) memberId, reply⟩ : Event) ∈
    sinceGeneration past → lapsedVerdict nowMs reply = true → world.lapsedAt nowMs memberId = true

variable {nowMs : Int} {reply : (Op.readMember (Purpose.sweep nowMs) mid).Reply}
  {eviction : Eviction} {choice : Choice}

lemma mem_condemned
    (isRead : (⟨.readMember (.sweep nowMs) mid, reply⟩ : Event) ∈ sinceGeneration past)
    (lapsed : lapsedVerdict nowMs reply = true) : mid ∈ condemned past :=
  mem_filterMap.mpr ⟨_,isRead,if_pos lapsed⟩

lemma mem_evicted (isEvicted : eviction ∈ w.evicted cause next) :
    cause = .evict eviction.nowMs ∧ w.names eviction.memberId = true ∧
      next.members.get? eviction.memberId = none ∧
      eviction.held = (w.member? eviction.memberId).map StoredMember.doc := by
  cases cause with
  | evict nowMs =>
    obtain ⟨id,isMember,is⟩ := mem_filterMap.mp isEvicted
    split at is
    · cases is
    rename_i unnamed
    cases is
    refine ⟨rfl,?_,Option.not_isSome_iff_eq_none.mp unnamed,rfl⟩
    unfold World.names
    cases isCurrent : w.generation with
    | none =>
      rw [isCurrent] at isMember
      cases isMember
    | some held =>
      rw [isCurrent] at isMember
      obtain ⟨entry,isEntry,same⟩ := mem_map.mp isMember
      subst same
      have named : held.doc.members.get? entry.1 = some entry.2 :=
        mem_entries.mp isEntry
      change (held.doc.members.get? entry.1).isSome = true
      rw [named]
      rfl
  | _ => cases isEvicted

lemma Rewrites.evicts (rewrites : Rewrites call past view (.evict nowMs) next)
    (named : (view.generation.members.get? mid).isSome)
    (unnamed : next.members.get? mid = none) :
    ∃ held, ⟨.readMember (.sweep nowMs) mid, held⟩ ∈ sinceGeneration past ∧
      lapsedVerdict nowMs held = true := by
  obtain ⟨_,expired,rfl,each⟩ := rewrites
  apply each
  change (view.generation.members.filter _).get? mid = none at unnamed
  obtain ⟨ref,isRef⟩ := Option.isSome_iff_exists.mp named
  rw [get?_filter,isRef] at unnamed
  simpa [Option.filter] using unnamed

lemma EvictedLapsed.written {past : List (Program.Event Op.Reply)}
    (reached : Reaches broker condition w roster)
    (lapsed : EvictedLapsed w) (own : roster index = some (call, past))
    (condemned : CondemnedLapsed w call past)
    (issued : Issued call past (.updateGeneration cause next w.version)) :
    EvictedLapsed (w.withGeneration cause next) := by
  intro eviction isEviction
  cases mem_append.mp isEviction with
  | inr older => exact lapsed eviction older
  | inl isNew =>
    obtain ⟨isCause,isNamed,unnamed,isHeld⟩ := mem_evicted isNew
    subst isCause
    obtain ⟨view,seen,same,rewrites⟩ := issued
    have named : view.names eviction.memberId = true :=
      (reached.lands_names own seen same eviction.memberId).symm.trans isNamed
    obtain ⟨held,isRead,verdict⟩ := rewrites.evicts named unnamed
    have isLapsed := condemned eviction.nowMs eviction.memberId held isRead verdict
    rw [isHeld,Option.all_map]
    exact isLapsed

lemma CondemnedLapsed.moved (lapsed : CondemnedLapsed w call past)
    (unwritten : ∀ purpose id next version reply, event = ⟨.writeMember purpose id next
      version, reply⟩ → ∀ other, ShareDocument other id → other ∉ condemned past)
    (moved : Moved w event after) : CondemnedLapsed after call past := by
  intro nowMs id reply isRead verdict
  have before := lapsed nowMs id reply isRead verdict
  cases moved with
  | member located =>
    unfold World.lapsedAt
    rw [World.member?_withMember]
    split
    · rename_i here
      exact absurd (mem_condemned isRead verdict)
        (unwritten _ _ _ _ _ rfl id (here.trans located.symm))
    · exact before
  | forgotten =>
    unfold World.lapsedAt
    rw [World.member?_removed]
    split
    · rfl
    · exact before
  | _ => exact before

lemma lapsed_of_read
    (performed : w.perform (.readMember (.sweep nowMs) mid) choice = some (reply, after))
    (allowed : choice.failed = true → w.lapsedAt nowMs mid = true)
    (verdict : lapsedVerdict nowMs reply = true) :
    after = w ∧ w.lapsedAt nowMs mid = true := by
  cases performed
  refine ⟨rfl,?_⟩
  split at verdict
  · next failed => exact allowed failed
  unfold World.lapsedAt
  cases isHeld : w.member? mid with
  | none => rfl
  | some member =>
    rw [isHeld] at verdict
    exact verdict

lemma Reaches.evictions (reached : Reaches broker sweepsFairly world roster) :
    EvictedLapsed world := by
  have kept : Machine.Kept EvictedLapsed CondemnedLapsed world roster := by
    apply Reaches.kept _ _ _ _ _ reached
    · intro eviction isEviction
      cases isEviction
    · intro world call _ nowMs id reply isRead
      cases isRead
    · intro world call next past lapsed _ _
      exact lapsed
    · intro world nowMs _ lapsed
      exact ⟨lapsed,fun condemned => condemned⟩
    · intro world after roster index call past operation choice reply reached kept own issued allowed
        performed
      have moved := World.perform_moved performed
      have unwritten : ∀ purpose id next version stored,
          (⟨operation,reply⟩ : Event) = ⟨.writeMember purpose id next version,stored⟩ →
          ∀ index call past, roster index = some (call, past) →
            ∀ other, ShareDocument other id → other ∉ condemned past := by
        intro purpose id next version stored same index call past isParty other shared
        cases same
        exact allowed other shared index call past isParty
      refine ⟨?_,?_,?_⟩
      · cases moved with
        | generation => exact kept.shared.written reached own (kept.own own) issued
        | _ => exact kept.shared
      · intro nowMs id held isRead verdict
        obtain ⟨_,isNew | older⟩ := Program.mem_since_cons_iff.mp isRead
        · cases isNew
          obtain ⟨same,lapsed⟩ := lapsed_of_read performed allowed verdict
          rw [same]
          exact lapsed
        · exact (kept.own own).moved (fun purpose id next version reply same =>
              unwritten purpose id next version reply same _ _ _ own) moved
            nowMs id held older verdict
      · intro other otherCall otherPast _ isOther lapsed
        exact lapsed.moved (fun purpose id next version reply same =>
            unwritten purpose id next version reply same _ _ _ isOther) moved
  exact kept.shared

theorem evicted_lapsed {broker : Broker} {state : State}
    (reachable : Reachable broker sweepsFairly state) :
    ∀ eviction ∈ state.world.evictions,
      eviction.held.all (fun member => member.isExpired eviction.nowMs) = true :=
  reachable.reaches.evictions

def checksFairly (bound : Nat) : Check := fun world roster _ deed =>
  match deed with
  | .perform (.readMember (.sweep nowMs) memberId) choice =>
    !choice.failed || world.lapsedAt nowMs memberId
  | .perform (.writeMember _ memberId _ _) _ => apartOn roster bound condemned memberId
  | _ => true

lemma checksFairly_sufficient (others : ∀ other, bound ≤ other → roster other = none)
    (passed : checksFairly bound w roster index deed = true) :
    sweepsFairly w roster index deed := by
  cases deed with
  | perform operation choice =>
    cases operation with
    | readMember purpose id =>
      cases purpose with
      | sweep nowMs =>
        intro failed
        have either : (!choice.failed || w.lapsedAt nowMs id) = true := passed
        rw [failed] at either
        exact either
      | _ => trivial
    | writeMember purpose id next version =>
      exact fun _ shared _ _ _ isParty => roster_free others passed isParty shared
    | _ => trivial
  | _ => trivial

def sweeping (index : Nat) (nowMs : Int) (failed : Bool) : List (Nat × Act Choice Call) :=
  [(index, .start (.heartbeat { generationId := 0, memberId := "m" }))] ++
    goes index 6 { prompted ["m"] with nowMs } ++ goes index 2 { prompted ["m"] with nowMs, failed }

theorem evicted_lapsed_silent :
    ∃ state, Reachable {} sweepsFairly state ∧ (∀ eviction ∈ state.world.evictions,
        eviction.held.all (fun member => member.isExpired eviction.nowMs) = true) ∧
      state.world.evictions.map (fun eviction => (eviction.memberId, eviction.nowMs)) =
        [("m", 200000)] := by
  have ended : (ends 2 (checksFairly 2) (joinsAlone 0 10 ["a"] ++ sweeping 1 200000 false)).map
      (fun state => state.world.evictions.map
        (fun eviction => (eviction.memberId, eviction.nowMs))) = some [("m", 200000)] := by
    decide +kernel
  obtain ⟨state,reachable,observed⟩ := ends_reachable checksFairly_sufficient ended
  exact ⟨state,reachable,evicted_lapsed reachable,observed⟩

/-- One failed read, and a member that was heard of half a session ago is evicted. -/
theorem failedRead_evicts_fresh :
    ∃ state, Reachable {} (fun _ _ _ _ => True) state ∧
      ∃ eviction ∈ state.world.evictions, ∃ member, eviction.held = some member ∧
        member.isExpired eviction.nowMs = false := by
  have ended : (ends 2 (fun _ _ _ _ => true)
      (joinsAlone 0 10 ["a"] ++ sweeping 1 23000 true)).map
      (fun state => state.world.evictions.map
        (fun eviction => eviction.held.map (fun member => member.isExpired eviction.nowMs))) =
      some [some false] := by decide +kernel
  obtain ⟨state,reachable,observed⟩ := ends_reachable (fun _ _ => trivial) ended
  refine ⟨state,reachable,?_⟩
  have isOne : some false ∈ state.world.evictions.map
      (fun eviction => eviction.held.map (fun member => member.isExpired eviction.nowMs)) := by
    rw [observed]
    exact mem_cons_self
  obtain ⟨eviction,isEviction,fresh⟩ := mem_map.mp isOne
  obtain ⟨member,isHeld,unexpired⟩ := Option.map_eq_some_iff.mp fresh
  exact ⟨eviction,isEviction,member,isHeld,unexpired⟩

/-! ### Instances -/

def carries (generation : GenerationDoc) (memberId instanceId : String) : Prop :=
  generation.members.get? memberId = some ⟨some instanceId⟩

/-- No other member of the generation that a request has last seen has the instance. -/
def CarriedOnlyBy (past : Past) (memberId instanceId : String) : Prop :=
  ∀ held other, lastGeneration past = some (some held) → carries held.doc other instanceId →
    other = memberId

/-- The instance is new to the pass that lets a member in. -/
structure NewInstance (call : Call) (past : Past) (memberId instanceId : String) : Prop where
  uncarried : ∀ held other, lastGeneration past = some (some held) →
    ¬ carries held.doc other instanceId
  unasked : ∀ join, call = .join join → join.request.instanceId ≠ some instanceId
  unread : ∀ other member, ⟨.readMember .batch other, some (some member)⟩ ∈ sinceGeneration past →
    member.doc.groupInstanceId = some instanceId → other = memberId

/-- A join that gives an instance id goes by the id of the member that has it, and lets in only
members whose instances are new. -/
def instancesApart : Condition := fun world roster index deed =>
  match deed with
  | .perform (.readMember .join memberId) _ =>
    ∀ join past instanceId, roster index = some (.join join, past) →
      join.request.instanceId = some instanceId → CarriedOnlyBy past memberId instanceId
  | .perform (.readMember .batch memberId) _ =>
    ∀ call past member instanceId, roster index = some (call, past) →
      world.member? memberId = some member →
      member.doc.groupInstanceId = some instanceId → NewInstance call past memberId instanceId
  | _ => True

def InstancesDistinct (generation : GenerationDoc) : Prop :=
  ∀ left right instanceId, carries generation left instanceId →
    carries generation right instanceId → left = right

/-- What a join has settled on since it last saw the generation. -/
structure InstancesKnown (call : Call) (past : Past) : Prop where
  own : ∀ memberId reply join instanceId,
    (⟨.readMember .join memberId, reply⟩ : Event) ∈ sinceGeneration past → call = .join join →
    join.request.instanceId = some instanceId → CarriedOnlyBy past memberId instanceId
  batch : ∀ memberId member instanceId,
    ⟨.readMember .batch memberId, some (some member)⟩ ∈ sinceGeneration past →
    member.doc.groupInstanceId = some instanceId → NewInstance call past memberId instanceId

variable {inst instanceId left right : String}

lemma InstancesKnown.nothing (fresh : sinceGeneration past = []) : InstancesKnown call past where
  own id reply join inst isRead := by
    rw [fresh] at isRead
    cases isRead
  batch id member inst isRead := by
    rw [fresh] at isRead
    cases isRead

lemma NewInstance.continued {next : Call} (isNew : NewInstance call past mid inst)
    (continues : Continues call next) : NewInstance next past mid inst where
  uncarried := isNew.uncarried
  unasked join same := by
    subst same
    cases call with
    | join call =>
      obtain ⟨_,isJoin,request⟩ := continues
      cases isJoin
      rw [request]
      exact isNew.unasked call rfl
    | leave departing conflicts =>
      obtain ⟨_,isLeave⟩ := continues
      cases isLeave
    | _ => cases continues
  unread := isNew.unread

lemma InstancesKnown.continued {next : Call} (known : InstancesKnown call past)
    (continues : Continues call next) : InstancesKnown next past where
  own id reply join inst isRead same isStatic := by
    subst same
    cases call with
    | join call =>
      obtain ⟨_,isJoin,req⟩ := continues
      cases isJoin
      rw [req] at isStatic
      exact known.own id reply call inst isRead rfl isStatic
    | leave departing conflicts =>
      obtain ⟨_,isLeave⟩ := continues
      cases isLeave
    | _ => cases continues
  batch id member inst isRead isInstance :=
    (known.batch id member inst isRead isInstance).continued continues

lemma InstancesKnown.cons {reply : operation.Reply} (known : InstancesKnown call past)
    (party : roster index = some (call, past))
    (allowed : instancesApart w roster index (.perform operation choice))
    (moved : Moved w ⟨operation, reply⟩ after) :
    InstancesKnown call (⟨operation, reply⟩ :: past) := by
  cases isSeen : observedGeneration ⟨operation,reply⟩ with
  | some held => exact .nothing (Program.since_seen isSeen)
  | none =>
    have last : lastGeneration (⟨operation,reply⟩ :: past) = lastGeneration past :=
      Program.latest_unseen isSeen
    -- A document that a batch has just read, with its instance.
    have batch : ∀ {id member instanceId},
        (⟨operation,reply⟩ : Event) = ⟨.readMember .batch id,some (some member)⟩ →
        member.doc.groupInstanceId = some instanceId →
        NewInstance call past id instanceId := by
      intro id member instanceId same isInstance
      cases same
      cases moved with
      | idle tells =>
        exact allowed call past member instanceId party (tells (some member) rfl).symm isInstance
    refine ⟨?_,?_⟩
    · intro id held join instanceId isRead isJoin isStatic other otherId isLast
      rw [last] at isLast
      obtain ⟨_,isNew | older⟩ := Program.mem_since_cons_iff.mp isRead
      · cases isNew
        subst isJoin
        exact allowed join past instanceId party isStatic other otherId isLast
      · exact known.own id held join instanceId older isJoin isStatic other otherId isLast
    · intro id member instanceId isRead isInstance
      have before : NewInstance call past id instanceId := by
        obtain ⟨_,isNew | older⟩ := Program.mem_since_cons_iff.mp isRead
        · exact batch isNew.symm isInstance
        · exact known.batch id member instanceId older isInstance
      refine ⟨?_,before.unasked,?_⟩
      · intro held other isLast
        rw [last] at isLast
        exact before.uncarried held other isLast
      · intro other found isOther isFound
        obtain ⟨_,isNew | older⟩ := Program.mem_since_cons_iff.mp isOther
        · obtain ⟨_,isOwn | ownOlder⟩ := Program.mem_since_cons_iff.mp isRead
          · cases isNew.trans isOwn.symm
            rfl
          · exact ((batch isNew.symm isFound).unread id member ownOlder isInstance).symm
        · exact before.unread other found older isFound

lemma Entering.read (entering : Entering call past view attempt admitted) :
    ⟨.readMember .join attempt.memberId, some attempt.held⟩ ∈ sinceGeneration past := by
  obtain ⟨before,prepared,grown,_⟩ := entering.prepared
  obtain ⟨stored,older,isTrail⟩ := prepared.recorded
  apply grown.since (fun _ quiet => quiet.steady)
  rw [isTrail]
  exact Attempt.read_mem_trail (fun _ steady => steady)

lemma Seen.carries (seen : Seen past view)
    (carried : Coordinator.carries view.generation mid instanceId) :
    ∃ held, lastGeneration past = some (some held) ∧
      Coordinator.carries held.doc mid instanceId := by
  cases isVersion : view.version with
  | none =>
    rw [seen.absent isVersion] at carried
    cases carried
  | some version =>
    refine ⟨⟨view.generation,version⟩,?_,carried⟩
    rw [seen.last,GroupView.held,isVersion]
    rfl

inductive Carrier (past : Past) (view : GroupView) (attempt : Attempt) (memberId instanceId : String) :
    Prop
  | kept (before : carries view.generation memberId instanceId)
  | own (same : memberId = attempt.memberId) (asked : attempt.request.instanceId = some instanceId)
  | admitted {member : StoredMember}
      (read : ⟨.readMember .batch memberId, some (some member)⟩ ∈ sinceGeneration past)
      (is : member.doc.groupInstanceId = some instanceId)

lemma Carrier.unique (entering : Entering call past view attempt admitted) (seen : Seen past view)
    (distinct : InstancesDistinct view.generation) (known : InstancesKnown call past)
    (isLeft : Carrier past view attempt left instanceId)
    (isRight : Carrier past view attempt right instanceId) : left = right := by
  obtain ⟨before,prepared,_,_⟩ := entering.prepared
  obtain ⟨join,isJoin,request⟩ := prepared.asked
  have own : ∀ {other}, attempt.request.instanceId = some instanceId →
      carries view.generation other instanceId → other = attempt.memberId := by
    intro other asked carried
    obtain ⟨held,isLast,isHeld⟩ := seen.carries carried
    exact known.own _ _ join instanceId entering.read isJoin (request ▸ asked) held other isLast isHeld
  have unkept : ∀ {mid other member},
      ⟨.readMember .batch mid,some (some member)⟩ ∈ sinceGeneration past →
      member.doc.groupInstanceId = some instanceId → ¬ carries view.generation other instanceId := by
    intro mid other member read is carried
    obtain ⟨held,isLast,isHeld⟩ := seen.carries carried
    exact (known.batch mid member instanceId read is).uncarried held other isLast isHeld
  have unasked : ∀ {mid member},
      ⟨.readMember .batch mid,some (some member)⟩ ∈ sinceGeneration past →
      member.doc.groupInstanceId = some instanceId →
      attempt.request.instanceId ≠ some instanceId := by
    intro mid member read is asked
    exact (known.batch mid member instanceId read is).unasked join isJoin (request ▸ asked)
  cases isLeft with
  | kept beforeLeft =>
    cases isRight with
    | kept beforeRight => exact distinct left right instanceId beforeLeft beforeRight
    | own same asked => exact (own asked beforeLeft).trans same.symm
    | admitted read is => exact absurd beforeLeft (unkept read is)
  | own same asked =>
    cases isRight with
    | kept beforeRight => exact same.trans (own asked beforeRight).symm
    | own sameRight _ => exact same.trans sameRight.symm
    | admitted read is => exact absurd asked (unasked read is)
  | admitted read is =>
    cases isRight with
    | kept beforeRight => exact absurd beforeRight (unkept read is)
    | own _ asked => exact absurd asked (unasked read is)
    | admitted readRight isRight =>
      exact (known.batch right _ instanceId readRight isRight).unread left _ read is

lemma Rewrites.distinct (rewrites : Rewrites call past view cause next) (seen : Seen past view)
    (distinct : InstancesDistinct view.generation) (known : InstancesKnown call past) :
    InstancesDistinct next := by
  intro left right instanceId isLeft isRight
  cases rewrites.entries with
  | inl before =>
    exact distinct left right instanceId (before left _ isLeft) (before right _ isRight)
  | inr joined =>
    obtain ⟨attempt,admitted,entering,each⟩ := joined
    have carrier : ∀ {id}, carries next id instanceId →
        Carrier past view attempt id instanceId := by
      intro id carried
      rcases each id _ carried with before | own | isAdmitted
      · exact .kept before
      · exact .own own.1 (congrArg MemberRef.groupInstanceId own.2).symm
      · obtain ⟨member,isRead,isRef⟩ := entering.batch _ isAdmitted
        exact .admitted isRead (congrArg MemberRef.groupInstanceId isRef).symm
    exact Carrier.unique entering seen distinct known (carrier isLeft) (carrier isRight)

lemma Reaches.instances (reached : Reaches broker instancesApart w roster) :
    ∀ held ∈ w.generations, InstancesDistinct held.doc := by
  have kept : Machine.Kept (fun w => ∀ held ∈ w.generations, InstancesDistinct held.doc)
      (fun _ call past => InstancesKnown call past) w roster := by
    apply Reaches.kept _ _ _ _ _ reached
    · intro held isHeld
      cases isHeld
    · intro w call _
      exact .nothing rfl
    · intro w call next past known continues _
      exact known.continued continues
    · intro w nowMs _ distinct
      exact ⟨distinct,fun known => known⟩
    · intro w after roster index call past operation choice reply reached kept own issued allowed
        performed
      have moved := World.perform_moved performed
      refine ⟨?_,(kept.own own).cons own allowed moved,fun _ _ _ _ _ known => known⟩
      cases moved.generations with
      | inl same =>
        rw [same.2]
        exact kept.shared
      | inr written =>
        obtain ⟨cause,next,isEvent,rfl⟩ := written
        cases isEvent
        obtain ⟨view,seen,same,rewrites⟩ := issued
        intro held isHeld
        cases mem_cons.mp isHeld with
        | inr older => exact kept.shared held older
        | inl isNew =>
          subst isNew
          apply rewrites.distinct seen _ (kept.own own)
          cases isVersion : view.version with
          | none =>
            rw [seen.absent isVersion]
            intro left right inst isLeft
            cases isLeft
          | some version =>
            exact kept.shared _ (reached.recorded.own own _ (seen.observed isVersion))
  exact kept.shared

theorem instances_distinct {broker : Broker} {state : State}
    (reachable : Reachable broker instancesApart state) :
    ∀ held ∈ state.world.generations, InstancesDistinct held.doc := reachable.reaches.instances

def checksInstances : Check := fun world roster index deed =>
  match deed with
  | .perform (.readMember .join memberId) _ =>
    (roster index).all (fun party =>
      match party.1, lastGeneration party.2 with
      | .join join, some (some held) =>
        held.doc.members.entries.all (fun entry =>
          entry.2.groupInstanceId.isNone ||
            entry.2.groupInstanceId != join.request.instanceId || entry.1 == memberId)
      | _, _ => true)
  | .perform (.readMember .batch memberId) _ =>
    (world.member? memberId).all (fun member => member.doc.groupInstanceId.isNone)
  | _ => true

lemma checksInstances_sufficient (passed : checksInstances w roster index deed = true) :
    instancesApart w roster index deed := by
  cases deed with
  | perform operation choice =>
    cases operation with
    | readMember purpose id =>
      cases purpose with
      | join =>
        intro join past inst isParty asked held other isLast carried
        unfold checksInstances at passed
        simp only [isParty,Option.all_some,isLast] at passed
        have own := all_eq_true.mp passed _ (mem_entries.mpr carried)
        simpa [asked] using own
      | batch =>
        intro call past member inst _ isHeld is
        unfold checksInstances at passed
        simp only [isHeld,Option.all_some,is] at passed
        cases passed
      | _ => trivial
    | _ => trivial
  | _ => trivial

def standing (memberId instanceId : String) : Call :=
  .join {
    request := {
      memberId
      instanceId := some instanceId
      sessionTimeoutMs := 45000
      rebalanceTimeoutMs := none
      protocolType := "consumer"
      protocols := [("range", subscribing ["a"])] } }

def standsAlone : List (Nat × Act Choice Call) :=
  [(0, .start (standing "m" "s"))] ++ goes 0 10 prompt ++ goes 0 4 (prompted ["m"])

def instancesOf (state : State) : List (List (String × Option String)) :=
  state.world.generations.map (fun held =>
    held.doc.members.entries.map (fun entry => (entry.1, entry.2.groupInstanceId)))

/-- The instance comes back without its id, and is the member that it was. -/
theorem instances_distinct_standing :
    ∃ state, Reachable {} instancesApart state ∧
      (∀ held ∈ state.world.generations, InstancesDistinct held.doc) ∧
      (instancesOf state, state.world.answers.length) = ([[("m", some "s")]], 2) := by
  have ended : (ends 1 checksInstances
      (standsAlone ++ [(0, .start (standing "" "s"))] ++ goes 0 5 prompt ++
        goes 0 4 (prompted ["m"]))).map
      (fun state => (instancesOf state, state.world.answers.length)) =
      some ([[("m", some "s")]], 2) := by decide +kernel
  obtain ⟨state,reachable,observed⟩ :=
    ends_reachable (fun _ => checksInstances_sufficient) ended
  exact ⟨state,reachable,instances_distinct reachable,observed⟩

/-- The instance comes back with an id of its own choice, and is a second member. -/
theorem givenId_doubles_instance :
    ∃ state, Reachable {} (fun _ _ _ _ => True) state ∧
      ∃ held ∈ state.world.generations, ¬ InstancesDistinct held.doc := by
  have ended : (ends 1 (fun _ _ _ _ => true)
      (standsAlone ++ [(0, .start (standing "n" "s"))] ++ goes 0 9 prompt)).map
      (fun state => state.world.generations.any (fun held =>
        held.doc.members.get? "m" == some ⟨some "s"⟩ &&
          held.doc.members.get? "n" == some ⟨some "s"⟩)) = some true := by decide +kernel
  obtain ⟨state,reachable,observed⟩ := ends_reachable (fun _ _ => trivial) ended
  obtain ⟨held,isHeld,both⟩ := any_eq_true.mp observed
  rw [Bool.and_eq_true,beq_iff_eq,beq_iff_eq] at both
  refine ⟨state,reachable,held,isHeld,?_⟩
  intro distinct
  have same := distinct "m" "n" "s" both.1 both.2
  exact absurd same (by decide)

end Kodansu.Coordinator

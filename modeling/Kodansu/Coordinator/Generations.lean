/-
What a classic generation fixes.

Every rewriting of the generation document either keeps the number, the members and the leader,
or moves to the next number.  The versions of the document therefore ascend, and two versions of
one generation name the same members.  The assignment of a generation is created once: as long as
a leader's assignment does not land after the group has moved on by two generations, when the
one that was there may have been deleted.  What a sync is answered is taken from it, unless the group
has been converted: then the consumer group answers, by the same numbers.
-/

import Kodansu.Coordinator.Landing

namespace Kodansu.Coordinator

open Lib Kodansu.Group List OrderedMap

variable {leader id : String} {attempt : Attempt} {after : World}

/-! ### Succession -/

structure Succeeds (older newer : GenerationDoc) : Prop where
  ascending : older.generationId ≤ newer.generationId
  members : older.generationId = newer.generationId → newer.members = older.members
  leader : older.generationId = newer.generationId →
    ∀ leader, older.leader = some leader → newer.leader = some leader

structure SoundGeneration (generation : GenerationDoc) : Prop where
  led : ∀ leader, generation.leader = some leader → (generation.members.get? leader).isSome
  begun : -1 ≤ generation.generationId

variable {older between newer : GenerationDoc} {gid : Int}

lemma Succeeds.trans (first : Succeeds older between)
    (second : Succeeds between newer) : Succeeds older newer := by
  have unmoved : older.generationId = newer.generationId →
      older.generationId = between.generationId ∧ between.generationId = newer.generationId := by
    have low := first.ascending
    have high := second.ascending
    omega
  refine ⟨le_trans first.ascending second.ascending,?_,?_⟩
  · intro same
    exact (second.members (unmoved same).2).trans (first.members (unmoved same).1)
  · intro same leader leads
    exact second.leader (unmoved same).2 leader (first.leader (unmoved same).1 leader leads)

lemma Succeeds.same (id : newer.generationId = older.generationId)
    (members : newer.members = older.members)
    (leader : ∀ leader, older.leader = some leader → newer.leader = some leader) :
    Succeeds older newer := ⟨le_of_eq id.symm,fun _ => members,fun _ => leader⟩

lemma saturating_next (begun : -1 ≤ gid)
    (below : gid < i32Max) : saturating 32 (gid + 1) = gid + 1 := by
  unfold i32Max at below
  unfold saturating
  omega

lemma Succeeds.next (begun : -1 ≤ older.generationId) (below : older.generationId < i32Max)
    (id : newer.generationId = saturating 32 (older.generationId + 1)) : Succeeds older newer := by
  rw [saturating_next begun below] at id
  refine ⟨?_,?_,?_⟩
  · omega
  · intro same
    omega
  · intro same
    omega

/-! ### Rewritings -/

variable {gen : GenerationDoc} {nowMs : Int} {view : GroupView} {past : Past}

lemma unorphaned_led (leads : (unorphaned gen).leader = some leader) :
    gen.leader = some leader ∧ (gen.members.get? leader).isSome := by
  unfold unorphaned at leads
  split at leads
  · cases leads
  rename_i kept
  refine ⟨leads,?_⟩
  rw [leads] at kept
  simpa [Option.isSome_iff_ne_none] using kept

lemma elected_led (named : (gen.members.get? id).isSome)
    (leads : (elected (unorphaned gen) id nowMs).leader = some leader) :
    (gen.members.get? leader).isSome := by
  unfold elected at leads
  split at leads
  · cases leads
    exact named
  · exact (unorphaned_led leads).2

lemma unorphaned_keeps (leads : gen.leader = some leader)
    (named : (gen.members.get? leader).isSome) :
    (unorphaned gen).leader = some leader := by
  unfold unorphaned
  rw [leads,if_neg]
  · exact leads
  · simp [Option.isSome_iff_ne_none.mp named]

lemma elected_keeps (leads : gen.leader = some leader) :
    (elected gen id nowMs).leader = some leader := by
  unfold elected
  rw [leads,if_neg (by simp)]
  exact leads

lemma Attempt.next_led (leads : (attempt.next view).leader = some leader) :
    ((attempt.next view).members.get? leader).isSome := by
  have named : ((attempt.next view).members.get? attempt.memberId).isSome :=
    Attempt.next_names (fun kept => (Attempt.unchanged_inv kept).1)
  unfold Attempt.next joinDecision at leads named ⊢
  rw [(Attempt.elected_same _ _ _).2,(Attempt.unorphaned_same _).2] at named ⊢
  exact elected_led named leads

lemma Attempt.next_keeps_leader (kept : attempt.changed view = false)
    (sound : SoundGeneration view.generation) (leads : view.generation.leader = some leader) :
    (attempt.next view).leader = some leader := by
  obtain ⟨members,sameLeader,_⟩ :=
    Attempt.opening_same view attempt.request attempt.protocol.1 attempt.nowMs
  unfold Attempt.changed at kept
  unfold Attempt.next joinDecision
  rw [kept]
  apply elected_keeps
  apply unorphaned_keeps
  · exact sameLeader.trans leads
  · exact (congrArg (fun members => (members.get? leader).isSome) members).trans
      (sound.led leader leads)

lemma departures_generationId (gen : GenerationDoc)
    (departing : List (String × Option String)) :
    (departures gen departing).generation.generationId = gen.generationId := by
  have folded : ∀ {departures : Departures},
      (departing.foldl Departures.depart departures).generation.generationId =
        departures.generation.generationId := by
    induction departing with
    | nil => exact rfl
    | cons identity rest ih =>
      intro departures
      rw [foldl_cons,ih]
      unfold Departures.depart
      split
      · rfl
      · rfl
  exact folded

lemma departures_nobody (isEmpty : gen.members.entries = [])
    (departing : List (String × Option String)) : (departures gen departing).left = [] := by
  have folded : ∀ {departures : Departures}, departures.generation.members.entries = [] →
      departures.left = [] → (departing.foldl Departures.depart departures).left = [] := by
    induction departing with
    | nil => exact fun _ nobody => nobody
    | cons identity rest ih =>
      intro departures isEmpty nobody
      rw [foldl_cons]
      have stays : leaving departures.generation identity = none := by
        unfold leaving
        rw [OrderedMap.get?,isEmpty]
        cases identity.2 with
        | none | some => rfl
      unfold Departures.depart
      rw [stays]
      exact ih isEmpty nobody
  exact folded isEmpty rfl

lemma Seen.empty (seen : Seen past view) (absent : view.version = none) :
    view.generation.members.entries = [] := by
  rw [seen.absent absent]
  rfl

section

variable {call : Call} {cause : Cause} {next : GenerationDoc}
  (rewrites : Rewrites call past view cause next)

include rewrites

lemma Rewrites.first (seen : Seen past view) (absent : view.version = none) : cause = .join := by
  cases cause with
  | join => rfl
  | claim | evict =>
    have present := rewrites.1
    rw [absent] at present
    cases present
  | leave =>
    obtain ⟨departing,nowMs,someone,_⟩ := rewrites
    exact absurd (departures_nobody (seen.empty absent) departing) someone
  | convert =>
    have isConsumer := rewrites.1
    rw [seen.absent absent] at isConsumer
    cases isConsumer
  | takeBack =>
    have isConverted := rewrites.1
    rw [seen.absent absent] at isConverted
    cases isConverted

lemma Rewrites.succeeds (present : view.version.isSome) (sound : SoundGeneration view.generation)
    (below : view.generationId < i32Max) : Succeeds view.generation next := by
  cases cause with
  | claim | convert =>
    obtain ⟨_,nowMs,rfl⟩ := rewrites
    exact .same rfl rfl (fun _ leads => leads)
  | evict nowMs =>
    obtain ⟨_,expired,rfl,_⟩ := rewrites
    exact .next sound.begun below rfl
  | join =>
    obtain ⟨attempt,admitted,entering,_,rfl⟩ := rewrites
    cases Attempt.next_inv attempt view with
    | inl same =>
      obtain ⟨kept,members,id⟩ := same
      obtain ⟨before,_,_,named⟩ := entering.prepared
      obtain ⟨_,rfl⟩ := named (Attempt.unchanged_inv kept).1
      rw [if_pos present] at id
      exact .same id members (fun _ => Attempt.next_keeps_leader kept sound)
    | inr raised =>
      have id := raised.2.2
      rw [if_pos present] at id
      exact .next sound.begun below id
  | leave =>
    obtain ⟨departing,nowMs,_,rfl⟩ := rewrites
    apply Succeeds.next sound.begun below
    exact (Attempt.unorphaned_same _).1.trans
      (congrArg (fun id => saturating 32 (id + 1)) (departures_generationId _ departing))
  | takeBack =>
    obtain ⟨_,nowMs,rfl⟩ := rewrites
    exact .next sound.begun below rfl

lemma Rewrites.led (sound : view.version.isSome → SoundGeneration view.generation)
    (seen : Seen past view) (leads : next.leader = some leader) :
    (next.members.get? leader).isSome := by
  have present : cause ≠ .join → view.version.isSome := by
    intro notJoin
    cases isVersion : view.version with
    | none => exact absurd (rewrites.first seen isVersion) notJoin
    | some version => rfl
  cases cause with
  | claim | convert =>
    obtain ⟨_,nowMs,rfl⟩ := rewrites
    exact (sound (present nofun)).led leader leads
  | evict nowMs =>
    obtain ⟨_,expired,rfl,_⟩ := rewrites
    cases leads
  | join =>
    obtain ⟨attempt,admitted,_,_,rfl⟩ := rewrites
    exact extended_members (Attempt.next_led leads)
  | leave =>
    obtain ⟨departing,nowMs,_,rfl⟩ := rewrites
    have kept := (unorphaned_led leads).2
    unfold Departures.withdrawn GenerationDoc.bumped
    rw [(Attempt.unorphaned_same _).2]
    exact kept
  | takeBack =>
    obtain ⟨_,nowMs,rfl⟩ := rewrites
    cases leads

lemma Rewrites.sound (sound : view.version.isSome → SoundGeneration view.generation)
    (seen : Seen past view) (below : view.version.isSome → view.generationId < i32Max) :
    SoundGeneration next := by
  refine ⟨fun _ => rewrites.led sound seen,?_⟩
  cases isVersion : view.version with
  | some version =>
    have present : view.version.isSome := by
      rw [isVersion]
      rfl
    exact le_trans (sound present).begun
      (rewrites.succeeds present (sound present) (below present)).ascending
  | none =>
    have isJoin := rewrites.first seen isVersion
    subst isJoin
    obtain ⟨attempt,admitted,_,_,rfl⟩ := rewrites
    change -1 ≤ (attempt.next view).generationId
    cases Attempt.next_inv attempt view with
    | inl same =>
      rw [same.2.2,isVersion]
      exact le_refl _
    | inr raised =>
      rw [raised.2.2,isVersion]
      exact (by decide : (-1 : Int) ≤ saturating 32 (-1 + 1))

end

/-! ### Runs -/

def World.generationId (world : World) : Int :=
  world.generation.elim (-1) (fun held => held.doc.generationId)

structure Succession (world : World) : Prop where
  sound : ∀ held ∈ world.generations, SoundGeneration held.doc
  ordered : world.generations.Pairwise (fun newer older => Succeeds older.doc newer.doc)

def unsaturated : Condition := fun world _ _ deed =>
  match deed with
  | .perform (.updateGeneration _ _ _) _ => world.generationId < i32Max
  | _ => True

variable {w world : World} {held cur : Versioned GenerationDoc} {cause : Cause}
  {condition : Condition} {broker : Broker} {roster : Roster Op.Reply Call}

lemma Succession.newest (recorded : Recorded w) (succession : Succession w)
    (isHeld : held ∈ w.generations) (isCurrent : w.generation = some cur) :
    held = cur ∨ Succeeds held.doc cur.doc := by
  rw [recorded.current] at isCurrent
  cases isGenerations : w.generations with
  | nil =>
    rw [isGenerations] at isHeld
    cases isHeld
  | cons first older =>
    have ordered := succession.ordered
    rw [isGenerations] at isHeld isCurrent ordered
    cases isCurrent
    cases mem_cons.mp isHeld with
    | inl same => exact .inl same
    | inr isOlder => exact .inr ((pairwise_cons.mp ordered).1 held isOlder)

lemma Succession.extended {w : World} (recorded : Recorded w)
    (succession : Succession w) {next : GenerationDoc} (sound : SoundGeneration next)
    (succeeds : ∀ cur, w.generation = some cur → Succeeds cur.doc next) :
    Succession (w.withGeneration cause next) where
  sound held isHeld := by
    cases mem_cons.mp isHeld with
    | inl same =>
      subst same
      exact sound
    | inr older => exact succession.sound held older
  ordered := by
    apply pairwise_cons.mpr
    refine ⟨?_,succession.ordered⟩
    intro held isHeld
    cases isCurrent : w.generation with
    | none =>
      rw [recorded.current,head?_eq_none_iff] at isCurrent
      rw [isCurrent] at isHeld
      cases isHeld
    | some cur =>
      cases succession.newest recorded isHeld isCurrent with
      | inl same =>
        subst same
        exact succeeds held isCurrent
      | inr before => exact before.trans (succeeds cur isCurrent)

lemma Reaches.succession
    (bound : ∀ world roster index deed, condition world roster index deed → unsaturated world
      roster index deed) (reached : Reaches broker condition world roster) : Succession world := by
  have kept : Machine.Kept Succession (fun _ _ _ => True) world roster := by
    apply Reaches.kept _ _ _ _ _ reached
    · exact ⟨fun _ isHeld => absurd isHeld not_mem_nil,List.Pairwise.nil⟩
    · intros
      trivial
    · intros
      trivial
    · intro world nowMs _ succession
      exact ⟨⟨succession.sound,succession.ordered⟩,fun _ => trivial⟩
    · intro world after roster index call past operation choice reply reached kept own issued allowed
        performed
      refine ⟨?_,trivial,fun _ _ _ _ _ _ => trivial⟩
      have recorded := reached.recorded.shared
      cases (World.perform_moved performed).generations with
      | inl same =>
        refine ⟨?_,?_⟩
        · rw [same.2]
          exact kept.shared.sound
        · rw [same.2]
          exact kept.shared.ordered
      | inr written =>
        obtain ⟨cause,next,isEvent,rfl⟩ := written
        cases isEvent
        obtain ⟨view,seen,same,rewrites⟩ := issued
        have below : world.generationId < i32Max := bound _ _ _ _ allowed
        have landed := reached.lands own seen same
        have cur : ∀ {held}, world.generation = some held →
            view.version.isSome ∧ held.doc = view.generation := by
          intro held isCurrent
          rw [landed] at isCurrent
          obtain ⟨version,isVersion,isHeld⟩ := Option.map_eq_some_iff.mp isCurrent
          subst isHeld
          exact ⟨by rw [isVersion]; rfl,rfl⟩
        have seenSound : view.version.isSome → SoundGeneration view.generation := by
          intro present
          obtain ⟨version,isVersion⟩ := Option.isSome_iff_exists.mp present
          exact kept.shared.sound _ (reached.recorded.own own _ (seen.observed isVersion))
        have seenBelow : view.version.isSome → view.generationId < i32Max := by
          intro present
          obtain ⟨version,isVersion⟩ := Option.isSome_iff_exists.mp present
          unfold World.generationId at below
          rw [landed,GroupView.held,isVersion] at below
          exact below
        apply kept.shared.extended recorded (rewrites.sound seenSound seen seenBelow)
        intro held isCurrent
        obtain ⟨present,isView⟩ := cur isCurrent
        rw [isView]
        exact rewrites.succeeds present (seenSound present) (seenBelow present)
  exact kept.shared

/-! ### Assignments -/

def Answer.converted : Answer → Option Int
  | .consumerSync _ generationId (.ok _) => some generationId
  | _ => none

/-- The numbers at which the consumer group has granted a sync. -/
def World.converted (world : World) : List Int := world.answers.filterMap Answer.converted

/-- The number has not run out, a leader's assignment does not land when the group has moved on by
two generations, and the consumer group grants no sync at the number of a classic generation. -/
def assignsInTime : Condition := fun world _ _ deed =>
  match deed with
  | .perform (.updateGeneration _ next _) _ =>
    world.generationId < i32Max ∧ next.generationId ∉ world.converted
  | .perform (.createAssignment generationId _) _ =>
    world.assignments.get? generationId = none → world.generationId ≤ generationId + 1
  | .perform (.answer answer) _ => ∀ generationId ∈ answer.converted,
    ∀ held ∈ world.generations, held.doc.generationId ≠ generationId
  | _ => True

lemma assignsInTime_unsaturated (w : World) (roster : Roster Op.Reply Call) (index : Nat)
    (deed : Deed Op Choice Call) (allowed : assignsInTime w roster index deed) :
    unsaturated w roster index deed := by
  cases deed with
  | perform operation choice =>
    cases operation with
    | updateGeneration cause next version => exact allowed.1
    | _ => trivial
  | _ => trivial

def Led (world : World) (generationId : Int) (assignment : AssignmentDoc) : Prop :=
  ∃ held ∈ world.generations, held.doc.generationId = generationId ∧
    held.doc.leader = some assignment.leader ∧
      (assignment.assignments.get? assignment.leader).isSome

/-- A member of the generation was answered with its entry in the generation's assignment. -/
def Served (world : World) (memberId : String) (generationId : Int)
    (assignment : Encoded MemberAssignment) : Prop :=
  (∃ document, (generationId, document) ∈ world.created ∧
      document.assignments.get? memberId = some assignment) ∧
    ∃ held ∈ world.generations, held.doc.generationId = generationId ∧
      (held.doc.members.get? memberId).isSome

structure Filed (world : World) : Prop where
  stored : ∀ generationId assignment, world.assignments.get? generationId = some assignment →
    (generationId, assignment) ∈ world.created
  led : ∀ generationId assignment, (generationId, assignment) ∈ world.created →
    Led world generationId assignment
  once : (world.created.map Prod.fst).Nodup
  gone : ∀ generationId assignment, (generationId, assignment) ∈ world.created →
    world.assignments.get? generationId = none → generationId + 2 ≤ world.generationId
  served : ∀ memberId generationId answer, Answer.sync memberId generationId answer ∈ world.answers →
    answer.errorCode = .none → Served world memberId generationId answer.assignment
  unconverted : ∀ held ∈ world.generations, held.doc.generationId ∉ world.converted

def SeenCreated (world : World) (_ : Call) (past : Past) : Prop :=
  ∀ generationId document, (⟨.createAssignment generationId document, true⟩ : Event) ∈ past ∨
    (⟨.readAssignment generationId, some document⟩ : Event) ∈ past →
      (generationId, document) ∈ world.created

variable {assignment : Encoded MemberAssignment}

lemma Led.mono {assignment : AssignmentDoc} (led : Led w gid assignment)
    (kept : ∀ held ∈ w.generations, held ∈ after.generations) :
    Led after gid assignment := by
  obtain ⟨held,isHeld,known⟩ := led
  exact ⟨held,kept held isHeld,known⟩

lemma Served.mono (served : Served w id gid assignment)
    (generations : ∀ held ∈ w.generations, held ∈ after.generations)
    (created : ∀ entry ∈ w.created, entry ∈ after.created) :
    Served after id gid assignment := by
  obtain ⟨⟨document,isCreated,entry⟩,held,isHeld,known⟩ := served
  exact ⟨⟨document,created _ isCreated,entry⟩,held,generations held isHeld,known⟩

section

variable {left right : Versioned GenerationDoc} (succession : Succession w)
  (isLeft : left ∈ w.generations) (isRight : right ∈ w.generations)

include succession isLeft isRight

variable {second : String}

lemma Succession.comparable : left = right ∨ Succeeds left.doc right.doc ∨ Succeeds right.doc left.doc := by
  have symmetric : Std.Symm (fun left right : Versioned GenerationDoc =>
      Succeeds left.doc right.doc ∨ Succeeds right.doc left.doc) := ⟨fun _ _ either => either.symm⟩
  by_cases same : left = right
  · exact .inl same
  · have ordered : w.generations.Pairwise (fun left right =>
        Succeeds left.doc right.doc ∨ Succeeds right.doc left.doc) :=
      succession.ordered.imp (fun before => .inr before)
    exact .inr (ordered.forall isLeft isRight same)

lemma Succession.leader_unique {first : String}
    (same : left.doc.generationId = right.doc.generationId)
    (leftLeads : left.doc.leader = some first)
    (rightLeads : right.doc.leader = some second) : first = second := by
  cases succession.comparable isLeft isRight with
  | inl equal =>
    subst equal
    exact Option.some.inj (leftLeads.symm.trans rightLeads)
  | inr either =>
    cases either with
    | inl after =>
      exact Option.some.inj ((after.leader same first leftLeads).symm.trans rightLeads)
    | inr before =>
      exact Option.some.inj (leftLeads.symm.trans (before.leader same.symm second rightLeads))

end

variable {call : Call} {event : Event}

lemma World.generationId_ge (recorded : Recorded w) (succession : Succession w)
    (isHeld : held ∈ w.generations) : held.doc.generationId ≤ w.generationId := by
  unfold World.generationId
  cases isCurrent : w.generation with
  | none =>
    rw [recorded.current,head?_eq_none_iff] at isCurrent
    rw [isCurrent] at isHeld
    cases isHeld
  | some cur =>
    cases succession.newest recorded isHeld isCurrent with
    | inl same =>
      rw [same]
      exact le_refl _
    | inr before => exact before.ascending

lemma Granted.served
    (granted : Granted past id gid assignment) (succession : Succession w)
    (filed : Filed w) (written : ObservedWritten w past)
    (created : SeenCreated w call past) : Served w id gid assignment := by
  obtain ⟨held,document,observed,isGeneration,named,known,entry⟩ := granted.grounds
  have isHeld := written held observed
  have isCreated := created gid document known
  refine ⟨⟨document,isCreated,?_⟩,held,isHeld,isGeneration,named⟩
  cases entry with
  | inl entry => exact entry
  | inr own =>
    -- The leader's own entry is there: whoever created the document led the same gen.
    obtain ⟨other,isOther,otherGeneration,otherLeads,hasEntry⟩ :=
      filed.led gid document isCreated
    have same := succession.leader_unique isHeld isOther (isGeneration.trans otherGeneration.symm)
      own.1 otherLeads
    rw [← same] at hasEntry
    obtain ⟨value,isValue⟩ := Option.isSome_iff_exists.mp hasEntry
    rw [own.2,isValue]
    rfl

lemma World.generationId_mono (recorded : Recorded w)
    (succession : Succession after) (moved : Moved w event after) :
    w.generationId ≤ after.generationId := by
  cases moved.generations with
  | inl same =>
    unfold World.generationId
    rw [same.1]
  | inr written =>
    obtain ⟨cause,next,_,rfl⟩ := written
    cases isCurrent : w.generation with
    | none =>
      have begun := (succession.sound _ (.head _)).begun
      unfold World.generationId
      rw [isCurrent]
      exact begun
    | some cur =>
      have below := World.generationId_ge (recorded.written cause next) succession
        (.tail _ (recorded.mem isCurrent))
      unfold World.generationId at below ⊢
      rw [isCurrent]
      exact below

lemma saturating_previous {held : Int} (begun : -1 ≤ held)
    (old : gid < saturating 32 (held - 1)) : gid + 2 ≤ held := by
  unfold saturating at old
  omega

section Filing

variable {operation : Op} {index : Nat} {choice : Choice} {reply : operation.Reply}

lemma Filed.created (filed : Filed w) {gid : Int} {assignment : AssignmentDoc}
    (absent : w.assignments.get? gid = none)
    (inTime : w.generationId ≤ gid + 1) (led : Led w gid assignment) :
    Filed { w with
      assignments := w.assignments.insert gid assignment
      created := (gid, assignment) :: w.created } where
  stored other document isStored := by
    rw [get?_insert] at isStored
    split at isStored
    · rename_i same
      cases isStored
      rw [same]
      exact .head _
    · exact .tail _ (filed.stored other document isStored)
  led other document isCreated := by
    cases mem_cons.mp isCreated with
    | inl same =>
      cases same
      exact led
    | inr older => exact filed.led other document older
  once := by
    apply nodup_cons.mpr
    refine ⟨?_,filed.once⟩
    -- An assignment that was here before is gone for two generations.
    intro before
    obtain ⟨⟨other,document⟩,isCreated,same⟩ := mem_map.mp before
    subst same
    have moved := filed.gone other document isCreated absent
    omega
  gone other document isCreated isGone := by
    rw [get?_insert] at isGone
    split at isGone
    · cases isGone
    rename_i differ
    cases mem_cons.mp isCreated with
    | inl same =>
      cases same
      exact absurd rfl differ
    | inr older => exact filed.gone other document older isGone
  served id other answer isAnswer isNone :=
    (filed.served id other answer isAnswer isNone).mono (fun _ isHeld => isHeld)
      (fun _ isCreated => .tail _ isCreated)
  unconverted := filed.unconverted

lemma Filed.deleted (filed : Filed w) (old : gid + 2 ≤ w.generationId) :
    Filed { w with assignments := w.assignments.remove gid } where
  stored other document isStored := by
    rw [get?_remove] at isStored
    split at isStored
    · cases isStored
    · exact filed.stored other document isStored
  led := filed.led
  once := filed.once
  gone other document isCreated isGone := by
    rw [get?_remove] at isGone
    split at isGone
    · rename_i same
      rw [same]
      exact old
    · exact filed.gone other document isCreated isGone
  served := filed.served
  unconverted := filed.unconverted

lemma Filed.answered (filed : Filed w) {answer : Answer}
    (granted : ∀ id gid body, answer = .sync id gid body →
      body.errorCode = .none → Served w id gid body.assignment)
    (unconverted : ∀ gid ∈ answer.converted, ∀ held ∈ w.generations,
      held.doc.generationId ≠ gid) :
    Filed { w with answers := answer :: w.answers } where
  stored := filed.stored
  led := filed.led
  once := filed.once
  gone := filed.gone
  served id gid body isAnswer isNone := by
    cases mem_cons.mp isAnswer with
    | inl same => exact granted id gid body same.symm isNone
    | inr older => exact filed.served id gid body older isNone
  unconverted held isHeld isConverted := by
    obtain ⟨granted,isAnswer,isGranted⟩ := mem_filterMap.mp isConverted
    cases mem_cons.mp isAnswer with
    | inl same =>
      rw [same] at isGranted
      exact unconverted _ isGranted held isHeld rfl
    | inr older =>
      exact filed.unconverted held isHeld (mem_filterMap.mpr ⟨granted,older,isGranted⟩)

lemma Filed.moved
    (filed : Filed w) (recorded : Recorded w) (succession : Succession w)
    (successionAfter : Succession after) (written : ObservedWritten w past)
    (created : SeenCreated w call past) (issued : Issued call past operation)
    (allowed : assignsInTime w roster index (.perform operation choice))
    (moved : Moved w ⟨operation, reply⟩ after) : Filed after := by
  have later := World.generationId_mono recorded successionAfter moved
  have kept := fun held (isHeld : held ∈ w.generations) => moved.keeps_generations isHeld
  cases moved with
  | idle => exact filed
  | generation =>
    exact {
      stored := filed.stored
      led := fun generationId assignment isCreated =>
        (filed.led generationId assignment isCreated).mono kept
      once := filed.once
      gone := fun generationId assignment isCreated isGone =>
        le_trans (filed.gone generationId assignment isCreated isGone) later
      served := fun id generationId answer isAnswer isNone =>
        (filed.served id generationId answer isAnswer isNone).mono kept
          (fun _ isCreated => isCreated)
      unconverted := by
        intro held isHeld
        cases mem_cons.mp isHeld with
        | inl isNext =>
          rw [isNext]
          exact allowed.2
        | inr older => exact filed.unconverted held older }
  | assigned absent =>
    obtain ⟨held,observed,isGeneration,_,leads,hasEntry⟩ := issued
    exact filed.created absent (allowed absent)
      ⟨held,written held observed,isGeneration,leads,hasEntry⟩
  | unassigned =>
    obtain ⟨held,observed,old⟩ := issued
    have isHeld := written held observed
    apply filed.deleted
    exact le_trans (saturating_previous (succession.sound held isHeld).begun old)
      (World.generationId_ge recorded succession isHeld)
  | answered =>
    apply filed.answered
    · intro id generationId body same isNone
      subst same
      have granted : Granted past id generationId body.assignment := issued isNone
      exact granted.served succession filed written created
    · exact allowed
  | _ => exact { filed with }

lemma SeenCreated.moved (seen : SeenCreated w call past) (moved : Moved w event after) :
    SeenCreated after call past := by
  intro gid document known
  have isCreated := seen gid document known
  cases moved with
  | assigned => exact .tail _ isCreated
  | _ => exact isCreated

lemma SeenCreated.cons (seen : SeenCreated w call past) (filed : Filed w)
    (moved : Moved w event after) : SeenCreated after call (event :: past) := by
  have older := seen.moved moved
  intro gid document known
  have split : event = ⟨.createAssignment gid document,true⟩ ∨
      event = ⟨.readAssignment gid,some document⟩ ∨
      (gid, document) ∈ after.created := by
    cases known with
    | inl isCreated =>
      cases mem_cons.mp isCreated with
      | inl same => exact .inl same.symm
      | inr before => exact .inr (.inr (older gid document (.inl before)))
    | inr isRead =>
      cases mem_cons.mp isRead with
      | inl same => exact .inr (.inl same.symm)
      | inr before => exact .inr (.inr (older gid document (.inr before)))
  rcases split with isCreate | isRead | done
  · subst isCreate
    cases moved with
    | idle tells => exact absurd tells.1 nofun
    | assigned => exact .head _
  · subst isRead
    cases moved with
    | idle tells => exact filed.stored gid document tells.symm
  · exact done

end Filing

variable {index : Nat} {deed : Deed Op Choice Call}

lemma Reaches.filed (reached : Reaches broker assignsInTime world roster) : Filed world := by
  have kept : Machine.Kept Filed SeenCreated world roster := by
    apply Reaches.kept _ _ _ _ _ reached
    · exact {
        stored := nofun
        led := fun _ _ isCreated => absurd isCreated not_mem_nil
        once := nodup_nil
        gone := fun _ _ isCreated => absurd isCreated not_mem_nil
        served := fun _ _ _ isAnswer => absurd isAnswer not_mem_nil
        unconverted := fun _ isHeld => absurd isHeld not_mem_nil }
    · intro world call _ gid document known
      cases known with
      | inl isCreated => exact absurd isCreated not_mem_nil
      | inr isRead => exact absurd isRead not_mem_nil
    · intro world call next past seen _ _
      exact seen
    · intro world nowMs _ filed
      exact ⟨{ filed with },fun seen => seen⟩
    · intro world after roster index call past operation choice reply reached kept own issued allowed
        performed
      have moved := World.perform_moved performed
      have later := reached.perform own issued allowed performed
      refine ⟨?_,(kept.own own).cons kept.shared moved,?_⟩
      · exact kept.shared.moved reached.recorded.shared
          (reached.succession assignsInTime_unsaturated)
          (Reaches.succession assignsInTime_unsaturated later)
          (reached.recorded.own own) (kept.own own) issued allowed moved
      · intro other otherCall otherPast _ _ seen
        exact seen.moved moved
  exact kept.shared

def joinsAlone (index count : Nat) (topics : List String) : List (Nat × Act Choice Call) :=
  [(index, .start (joining "m" topics))] ++ goes index count prompt ++ goes index 4 (prompted ["m"])

end Kodansu.Coordinator

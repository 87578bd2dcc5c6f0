/-
At most one replica at a time takes the lease to be its own.

Each instant up to which a replica may take the lease to be its own has passed, or the replica
made the last write of the object and the object states an expiry at or after that instant.  A
replica that is not the last writer can write only once the stated expiry has passed.

The object states its expiry in whole milliseconds and the replica does not.  Where rounding
down makes the stated term end before the cached one, another replica may hold the lease in
between.
-/

import Kodansu.Lease.Acquire

namespace Kodansu.Lease

open Lib List Option

variable {τ : Type}

/-! ### Rules -/

inductive Advance (tags : Tags τ) (world : World τ) (replica : Replica τ) (tuning : Tuning) :
    Call τ → World τ → Replica τ → Call τ → Prop
  | fast {now : Nat} {held : HeldLease τ} (cached : replica.cached tuning now = some held) :
      Advance tags world replica tuning (.begun now) world replica
        (.returned ⟨held.epoch, world.clock, held.expiresAt, none⟩)
  | slow {now : Nat} : Advance tags world replica tuning (.begun now) world replica (.get now)
  | gets {now : Nat} :
      Advance tags world replica tuning (.get now) world replica (.got now world.object)
  | unread {now : Nat} : Advance tags world replica tuning (.get now) world replica .refused
  | compares {now : Nat} {current : Option (PrefixLease × τ)} {ours : Bool}
      (isOurs : ours = true → ∀ found ∈ current, replica.ourVersion = some found.2) :
      Advance tags world replica tuning (.got now current) world replica (.compared now current ours)
  | yields {now : Nat} {current : Option (PrefixLease × τ)} {ours : Bool} :
      Advance tags world replica tuning (.compared now current ours) world replica .fenced
  | passes {now : Nat} {current : Option (PrefixLease × τ)} {ours : Bool}
      (free : ours = true ∨ ∀ found ∈ current, found.1.expiresAtMs ≤ nowMs world.clock) :
      Advance tags world replica tuning (.compared now current ours) world replica
        (.acquirable now current)
  | stamps {now : Nat} {current : Option (PrefixLease × τ)} :
      Advance tags world replica tuning (.acquirable now current) world replica
        (.expiring now current (nowMs world.clock + tuning.ttlMs))
  | requests {now expiresAtMs : Nat} {current : Option (PrefixLease × τ)} {request : Put τ}
      (version : request.version = current.map Prod.snd)
      (expires : request.lease.expiresAtMs = expiresAtMs)
      (epoch : ∀ found ∈ current, request.lease.epoch = found.1.epoch + 1) :
      Advance tags world replica tuning (.expiring now current expiresAtMs) world replica
        (.put now request)
  | writes {now : Nat} {request : Put τ} (current : world.version = request.version) :
      Advance tags world replica tuning (.put now request) (world.write tags request.lease)
        (replica.wrote world) (.written now request.lease.epoch world.writes.length
          (tags.tag world.writes.length request.lease))
  | loses {now : Nat} {request : Put τ} :
      Advance tags world replica tuning (.put now request) world replica .fenced
  | errs {now : Nat} {request : Put τ} :
      Advance tags world replica tuning (.put now request) world
        { replica with outstanding := request :: replica.outstanding } .refused
  | holds {now place : Nat} {epoch : Int} {tag : τ} :
      Advance tags world replica tuning (.written now epoch place tag) world
        { replica with held := some ⟨epoch, now + tuning.prefixLeaseTtl, some tag⟩ }
        (.returned ⟨epoch, world.clock, now + tuning.prefixLeaseTtl, some place⟩)
  | drops : Advance tags world replica tuning .fenced world { replica with held := none } .refused

inductive Step (tags : Tags τ) (world : World τ) (replica : Replica τ) :
    Act → World τ → Replica τ → Prop
  | boots {tuning : Tuning} (fresh : replica.tuning = none) :
      Step tags world replica (.boot tuning) world { replica with tuning := some tuning }
  | waits {elapsed : Nat} :
      Step tags world replica (.wait elapsed) { world with clock := world.clock + elapsed } replica
  | begins {tuning : Tuning} (running : replica.tuning = some tuning) :
      Step tags world replica .begin world
        { replica with calls := replica.calls ++ [.begun world.clock] }
  | advances {index : Nat} {response : Response} {tuning : Tuning} {call next : Call τ}
      {after : World τ} {moved : Replica τ} (running : replica.tuning = some tuning)
      (found : replica.calls[index]? = some call)
      (advanced : Advance tags world replica tuning call after moved next) :
      Step tags world replica (.advance index response) after (moved.setCall index next)
  | lands {index : Nat} {request : Put τ} (found : replica.outstanding[index]? = some request)
      (current : world.version = request.version) :
      Step tags world replica (.land index) (world.write tags request.lease)
        ({ replica with outstanding := replica.outstanding.eraseIdx index }.wrote world)
  | misses {index : Nat} :
      Step tags world replica (.land index) world
        { replica with outstanding := replica.outstanding.eraseIdx index }

section

variable [DecidableEq τ] {w after : World τ} {r next : Replica τ} {tags : Tags τ} {tuning : Tuning}
  {index : Nat} {call : Call τ} {resp : Response} {action : Act}

lemma step_advance
    (stepped : r.step tags w tuning index call resp = some (after, next)) :
    ∃ moved ended, Advance tags w r tuning call after moved ended ∧
      next = moved.setCall index ended := by
  cases call <;> cases resp <;> simp only [Replica.step] at stepped
  all_goals first | cases stepped | skip
  case begun.answered now =>
      split at stepped
      · rename_i held cached
        cases stepped
        exact ⟨_,_,.fast cached,rfl⟩
      · cases stepped
        exact ⟨_,_,.slow,rfl⟩
  case compared.answered now cur ours =>
      split at stepped
      · cases stepped
        exact ⟨_,_,.yields,rfl⟩
      · rename_i passed
        cases stepped
        refine ⟨_,_,.passes ?_,rfl⟩
        cases ours
        · right
          intro found present
          rw [present] at passed
          simpa using passed
        · exact .inl rfl
  case put.answered now req =>
      split at stepped
      · rename_i cur
        cases stepped
        exact ⟨_,_,.writes cur,rfl⟩
      · cases stepped
        exact ⟨_,_,.loses,rfl⟩
  case get.answered => exact ⟨_,_,.gets,rfl⟩
  case get.failed => exact ⟨_,_,.unread,rfl⟩
  case got.answered now cur =>
      refine ⟨_,_,.compares ?_,rfl⟩
      intro same found present
      rw [present] at same
      cases own : r.ourVersion with
      | none => rw [own] at same; cases same
      | some version =>
        rw [own] at same
        simpa [eq_comm] using same
  case acquirable.answered => exact ⟨_,_,.stamps,rfl⟩
  case expiring.answered now cur expiresAtMs =>
      refine ⟨_,_,.requests rfl rfl ?_,rfl⟩
      intro found present
      rw [present]
      rfl
  case put.failed => exact ⟨_,_,.errs,rfl⟩
  case written.answered => exact ⟨_,_,.holds,rfl⟩
  case fenced.answered => exact ⟨_,_,.drops,rfl⟩

lemma act_step (acted : act tags w r action = some (after, next)) :
    Step tags w r action after next := by
  cases action with
  | boot tuning =>
    simp only [act] at acted
    split at acted
    · cases acted
    rename_i fresh
    cases acted
    exact .boots (by simpa using fresh)
  | wait elapsed =>
    cases acted
    exact .waits
  | begin =>
    obtain ⟨tuning,running,same⟩ := map_eq_some_iff.mp acted
    cases same
    exact .begins running
  | advance index resp =>
    simp only [act] at acted
    split at acted
    · rename_i tuning call running found
      obtain ⟨moved,ended,advanced,rfl⟩ := step_advance acted
      exact .advances running found advanced
    · cases acted
  | land index =>
    simp only [act,Replica.land] at acted
    split at acted
    · cases acted
    rename_i req found
    split at acted
    · rename_i cur
      cases acted
      exact .lands found cur
    · cases acted
      exact .misses

end

/-! ### What a replica relies on -/

def Written (tags : Tags τ) (world : World τ) (place : Nat) (found : PrefixLease × τ) : Prop :=
  world.writes[place]? = some found.1 ∧ found.2 = tags.tag place found.1

def Owns (world : World τ) (places : List Nat) : Prop :=
  ∃ last ∈ places, last + 1 = world.writes.length

/-- The instant has passed, or the replica made the last write and the object states an expiry
at or after it. -/
def Covered (world : World τ) (places : List Nat) (instant : Nat) : Prop :=
  instant ≤ world.clock ∨ Owns world places ∧
    ∀ found ∈ world.object, instant ≤ found.1.expiresAtMs * millisecond

def Lapsed (world : World τ) (lease : PrefixLease) : Prop :=
  lease.expiresAtMs * millisecond ≤ world.clock

/-- The version read is the replica's own, with an expiry no later than the new one, or lapsed. -/
def Replaceable (tags : Tags τ) (world : World τ) (places : List Nat) (expiresAtMs : Nat)
    (found : PrefixLease × τ) : Prop :=
  ∃ place, Written tags world place found ∧
    (place ∈ places ∧ found.1.expiresAtMs ≤ expiresAtMs ∨ Lapsed world found.1)

structure Put.Sound (tags : Tags τ) (world : World τ) (places : List Nat) (tuning : Tuning)
    (request : Put τ) : Prop where
  replaces : ∀ tag ∈ request.version, ∃ lease,
    Replaceable tags world places request.lease.expiresAtMs (lease, tag) ∧
      request.lease.epoch = lease.epoch + 1
  bounded : request.lease.expiresAtMs ≤ nowMs world.clock + tuning.ttlMs

def Call.Sound (tags : Tags τ) (world : World τ) (places : List Nat) (tuning : Tuning) :
    Call τ → Prop
  | .begun _ | .get _ | .fenced | .refused => True
  | .got _ current => ∀ found ∈ current, ∃ place, Written tags world place found
  | .compared _ current ours => ∀ found ∈ current, ∃ place, Written tags world place found ∧
      (ours = true → place ∈ places)
  | .acquirable _ current => ∀ found ∈ current, ∃ place, Written tags world place found ∧
      (place ∈ places ∨ Lapsed world found.1)
  | .expiring now current expiresAtMs =>
    (∀ found ∈ current, Replaceable tags world places expiresAtMs found) ∧
      expiresAtMs ≤ nowMs world.clock + tuning.ttlMs ∧
      now + tuning.prefixLeaseTtl ≤ expiresAtMs * millisecond
  | .put now request => request.Sound tags world places tuning ∧
      now + tuning.prefixLeaseTtl ≤ request.lease.expiresAtMs * millisecond
  | .written now epoch place tag => Covered world places (now + tuning.prefixLeaseTtl) ∧
      place ∈ places ∧ ∃ lease, Written tags world place (lease, tag) ∧ lease.epoch = epoch
  | .returned term => Covered world places term.expiresAt ∧
      ∀ place ∈ term.place, ∃ lease, world.writes[place]? = some lease ∧ lease.epoch = term.epoch

structure HeldLease.Sound (tags : Tags τ) (world : World τ) (places : List Nat)
    (held : HeldLease τ) : Prop where
  covered : Covered world places held.expiresAt
  version : ∀ tag ∈ held.version, ∃ place ∈ places, ∃ lease, Written tags world place (lease, tag)

structure Running (tags : Tags τ) (world : World τ) (tuning : Tuning) (replica : Replica τ) :
    Prop where
  held : ∀ held ∈ replica.held, held.Sound tags world replica.places
  calls : ∀ call ∈ replica.calls, call.Sound tags world replica.places tuning
  outstanding : ∀ request ∈ replica.outstanding, request.Sound tags world replica.places tuning
  places : ∀ place ∈ replica.places, ∀ lease, world.writes[place]? = some lease →
    lease.expiresAtMs ≤ nowMs world.clock + tuning.ttlMs

def Replica.Sound (tags : Tags τ) (world : World τ) (replica : Replica τ) : Prop :=
  match replica.tuning with
  | none => replica.held = none ∧ replica.calls = [] ∧ replica.outstanding = [] ∧
      replica.places = []
  | some tuning => Running tags world tuning replica

structure World.Sound (tags : Tags τ) (world : World τ) : Prop where
  object : world.object = world.writes.getLast?.map (fun lease =>
    (lease, tags.tag (world.writes.length - 1) lease))
  epochs : world.writes.Pairwise (fun earlier later => earlier.epoch < later.epoch)

/-! ### Later worlds -/

/-- Time has passed and there may be more writes, but every instant that was covered still is. -/
structure Later (world after : World τ) (places more : List Nat) : Prop where
  clock : world.clock ≤ after.clock
  writes : world.writes <+: after.writes
  grown : places ⊆ more
  covered : ∀ {instant : Nat}, Covered world places instant → Covered after more instant

section

variable {tags : Tags τ} {w after world : World τ} {tuning : Tuning} {replica next r : Replica τ}
  {place earlier expiresAtMs : Nat} {places more : List Nat} {lease : PrefixLease}
  {found : PrefixLease × τ}

lemma nowMs_mono {later : Nat} (le : earlier ≤ later) : nowMs earlier ≤ nowMs later :=
  Nat.div_le_div_right le

lemma Later.refl (w : World τ) (places : List Nat) : Later w w places places :=
  ⟨le_refl _,prefix_rfl,fun _ mem => mem,fun covered => covered⟩

lemma Later.wait (w : World τ) (places : List Nat) (elapsed : Nat) :
    Later w { w with clock := w.clock + elapsed } places places := by
  refine ⟨Nat.le_add_right _ _,prefix_rfl,fun _ mem => mem,?_⟩
  exact fun covered => covered.imp_left (fun passed => le_trans passed (Nat.le_add_right _ _))

lemma Later.getElem? (later : Later w after places more)
    (found : w.writes[place]? = some lease) : after.writes[place]? = some lease := by
  obtain ⟨suffix,same⟩ := later.writes
  rw [← same,getElem?_append_left (List.getElem?_eq_some_iff.mp found).1]
  exact found

lemma Written.later (written : Written tags w place found)
    (later : Later w after places more) : Written tags after place found :=
  ⟨later.getElem? written.1,written.2⟩

lemma Lapsed.later (lapsed : Lapsed w lease) (later : Later w after places more) :
    Lapsed after lease :=
  le_trans lapsed later.clock

lemma Replaceable.later (replaceable : Replaceable tags w places expiresAtMs found)
    (later : Later w after places more) : Replaceable tags after more expiresAtMs found := by
  obtain ⟨place,written,free⟩ := replaceable
  refine ⟨place,written.later later,?_⟩
  rcases free with ⟨own,earlier⟩ | lapsed
  · exact .inl ⟨later.grown own,earlier⟩
  · exact .inr (lapsed.later later)

lemma Put.Sound.later {req : Put τ} (sound : req.Sound tags w places tuning)
    (later : Later w after places more) : req.Sound tags after more tuning := by
  constructor
  · intro tag isVersion
    obtain ⟨lease,replaceable,epoch⟩ := sound.replaces tag isVersion
    exact ⟨lease,replaceable.later later,epoch⟩
  · exact le_trans sound.bounded (Nat.add_le_add_right (nowMs_mono later.clock) _)

lemma Call.Sound.later {call : Call τ} (sound : call.Sound tags w places tuning)
    (later : Later w after places more) : call.Sound tags after more tuning := by
  cases call with
  | begun | get | fenced | refused => trivial
  | got now cur =>
    intro found present
    obtain ⟨place,written⟩ := sound found present
    exact ⟨place,written.later later⟩
  | compared now cur ours =>
    intro found present
    obtain ⟨place,written,own⟩ := sound found present
    exact ⟨place,written.later later,fun isOurs => later.grown (own isOurs)⟩
  | acquirable now cur =>
    intro found present
    obtain ⟨place,written,free⟩ := sound found present
    refine ⟨place,written.later later,?_⟩
    exact free.imp (fun own => later.grown own) (fun lapsed => lapsed.later later)
  | expiring now cur expiresAtMs =>
    obtain ⟨replaceable,bound,covers⟩ := sound
    refine ⟨fun found present => (replaceable found present).later later,?_,covers⟩
    exact le_trans bound (Nat.add_le_add_right (nowMs_mono later.clock) _)
  | put now req => exact ⟨sound.1.later later,sound.2⟩
  | written now epoch place tag =>
    obtain ⟨covered,own,lease,written,same⟩ := sound
    exact ⟨later.covered covered,later.grown own,lease,written.later later,same⟩
  | returned term =>
    refine ⟨later.covered sound.1,fun place isPlace => ?_⟩
    obtain ⟨lease,found,same⟩ := sound.2 place isPlace
    exact ⟨lease,later.getElem? found,same⟩

lemma HeldLease.Sound.later {held : HeldLease τ} (sound : held.Sound tags w places)
    (later : Later w after places more) : held.Sound tags after more := by
  refine ⟨later.covered sound.covered,fun tag isVersion => ?_⟩
  obtain ⟨place,own,lease,written⟩ := sound.version tag isVersion
  exact ⟨place,later.grown own,lease,written.later later⟩

lemma Running.later (running : Running tags w tuning replica)
    (below : ∀ place ∈ replica.places, place < w.writes.length)
    (later : Later w after replica.places replica.places) :
    Running tags after tuning replica := by
  constructor
  · exact fun held isHeld => (running.held held isHeld).later later
  · exact fun call mem => (running.calls call mem).later later
  · exact fun request mem => (running.outstanding request mem).later later
  · intro place own lease found
    have known := getElem?_eq_getElem (below place own)
    have same := (later.getElem? known).symm.trans found
    rw [same] at known
    exact le_trans (running.places place own lease known)
      (Nat.add_le_add_right (nowMs_mono later.clock) _)

lemma Running.sound (running : Running tags world tuning r)
    (started : r.tuning = some tuning) : r.Sound tags world := by
  unfold Replica.Sound
  rw [started]
  exact running

lemma Replica.Sound.running (sound : replica.Sound tags w)
    (started : replica.tuning = some tuning) : Running tags w tuning replica := by
  unfold Replica.Sound at sound
  rw [started] at sound
  exact sound

lemma Replica.Sound.idle (sound : replica.Sound tags w) (idle : replica.tuning = none) :
    replica.held = none ∧ replica.calls = [] ∧ replica.outstanding = [] ∧ replica.places = [] := by
  unfold Replica.Sound at sound
  rw [idle] at sound
  exact sound

lemma Replica.Sound.later (sound : replica.Sound tags w)
    (below : ∀ place ∈ replica.places, place < w.writes.length)
    (later : Later w after replica.places replica.places) : replica.Sound tags after := by
  cases started : replica.tuning with
  | none =>
    have idle := sound.idle started
    simp [Replica.Sound,started,idle]
  | some tuning => exact ((sound.running started).later below later).sound started

/-! ### A write -/

variable {tag : τ}

lemma written_object (sound : w.Sound tags) (present : w.object = some (lease, tag)) :
    w.writes.getLast? = some lease ∧ tag = tags.tag (w.writes.length - 1) lease := by
  have same := sound.object
  rw [present] at same
  obtain ⟨last,isLast,pair⟩ := map_eq_some_iff.mp same.symm
  cases pair
  exact ⟨isLast,rfl⟩

lemma written_last (sound : w.Sound tags) (written : Written tags w place (lease, tag))
    (cur : w.version = some tag) :
    w.object = some (lease, tag) ∧ place + 1 = w.writes.length := by
  obtain ⟨⟨object,version⟩,present,rfl⟩ := map_eq_some_iff.mp cur
  obtain ⟨isLast,isTag⟩ := written_object sound present
  have same : object = lease := tags.content (isTag.symm.trans written.2)
  subst same
  refine ⟨present,?_⟩
  rw [getLast?_eq_getElem?] at isLast
  obtain ⟨below,atPlace⟩ := List.getElem?_eq_some_iff.mp written.1
  obtain ⟨inside,atLast⟩ := List.getElem?_eq_some_iff.mp isLast
  -- Epochs grow, so no content occurs twice.
  have ordered := pairwise_iff_getElem.mp sound.epochs
  by_contra differs
  have earlier := ordered place (w.writes.length - 1) below inside (by omega)
  rw [atPlace,atLast] at earlier
  exact lt_irrefl _ earlier

section

variable {req : Put τ} (sound : w.Sound tags)
  (requested : req.Sound tags w places tuning) (cur : w.version = req.version)

include sound requested cur

variable {last : Nat} {others : List Nat}

lemma replaced_last (isLast : last + 1 = w.writes.length) :
    ∃ lease tag, w.object = some (lease, tag) ∧ req.lease.epoch = lease.epoch + 1 ∧
      w.writes[last]? = some lease ∧
      (last ∈ places ∧ lease.expiresAtMs ≤ req.lease.expiresAtMs ∨ Lapsed w lease) := by
  have some : ∃ tag, req.version = .some tag := by
    rw [← Option.isSome_iff_exists,← cur,World.version,sound.object]
    have nonempty : w.writes ≠ [] := by
      intro empty
      rw [empty] at isLast
      cases isLast
    simp [getLast?_eq_some_getLast nonempty]
  obtain ⟨tag,isVersion⟩ := some
  obtain ⟨lease,⟨place,written,free⟩,epoch⟩ := requested.replaces tag isVersion
  obtain ⟨present,isEnd⟩ := written_last sound written (cur.trans isVersion)
  have samePlace : place = last := by omega
  subst samePlace
  exact ⟨lease,tag,present,epoch,written.1,free⟩

lemma write_sound : (w.write tags req.lease).Sound tags := by
  constructor
  · simp [World.write]
  · refine pairwise_append.mpr ⟨sound.epochs,pairwise_singleton _ _,?_⟩
    intro earlier mem later isLater
    rw [mem_singleton] at isLater
    subst isLater
    obtain ⟨index,below,rfl⟩ := mem_iff_getElem.mp mem
    obtain ⟨lease,-,-,epoch,atLast,-⟩ :=
      replaced_last sound requested cur (Nat.sub_add_cancel (Nat.zero_lt_of_lt below))
    obtain ⟨inside,isLease⟩ := List.getElem?_eq_some_iff.mp atLast
    have upTo : w.writes[index].epoch ≤ lease.epoch := by
      rcases Nat.lt_or_ge index (w.writes.length - 1) with before | notBefore
      · have lower := pairwise_iff_getElem.mp sound.epochs index _ below inside before
        rw [isLease] at lower
        exact le_of_lt lower
      · have isEnd : index = w.writes.length - 1 := by omega
        subst isEnd
        rw [isLease]
    omega

lemma later_write_other (apart : ∀ place ∈ places, place ∉ others) :
    Later w (w.write tags req.lease) others others := by
  refine ⟨le_refl _,prefix_append _ _,fun _ mem => mem,?_⟩
  intro instant covered
  rcases covered with passed | ⟨⟨last,own,isLast⟩,stated⟩
  · exact .inl passed
  · left
    obtain ⟨lease,tag,present,-,-,free⟩ := replaced_last sound requested cur isLast
    rcases free with ⟨ours,-⟩ | lapsed
    · exact absurd own (apart last ours)
    · exact le_trans (stated _ present) lapsed

lemma later_write_own :
    Later w (w.write tags req.lease) places (w.writes.length :: places) := by
  refine ⟨le_refl _,prefix_append _ _,subset_cons_self _ _,?_⟩
  intro instant covered
  rcases covered with passed | ⟨⟨last,own,isLast⟩,stated⟩
  · exact .inl passed
  · obtain ⟨lease,tag,present,-,-,free⟩ := replaced_last sound requested cur isLast
    have upTo := stated _ present
    rcases free with ⟨-,earlier⟩ | lapsed
    · right
      constructor
      · exact ⟨_,.head _,by simp [World.write]⟩
      · intro found isFound
        cases isFound
        exact le_trans upTo (Nat.mul_le_mul_right _ earlier)
    · exact .inl (le_trans upTo lapsed)

end

section

variable (running : Running tags w tuning replica)

include running

lemma Running.wrote (sound : w.Sound tags)
    (below : ∀ place ∈ replica.places, place < w.writes.length) {request : Put τ}
    (requested : request.Sound tags w replica.places tuning)
    (current : w.version = request.version) :
    Running tags (w.write tags request.lease) tuning (replica.wrote w) := by
  have later := later_write_own sound requested current
  constructor
  · exact fun held isHeld => (running.held held isHeld).later later
  · exact fun call mem => (running.calls call mem).later later
  · exact fun request mem => (running.outstanding request mem).later later
  · intro place own lease found
    rcases mem_cons.mp own with isNew | old
    · subst isNew
      simp only [World.write,getElem?_concat_length,some_inj] at found
      subst found
      exact requested.bounded
    · have known := getElem?_eq_getElem (below place old)
      have same := (later.getElem? known).symm.trans found
      rw [same] at known
      exact running.places place old lease known

variable {call : Call τ}

lemma Running.setCall (sound : call.Sound tags w replica.places tuning)
    (index : Nat) : Running tags w tuning (replica.setCall index call) := by
  refine ⟨running.held,fun other mem => ?_,running.outstanding,running.places⟩
  rcases mem_or_eq_of_mem_set mem with old | isNew
  · exact running.calls other old
  · rw [isNew]
    exact sound

lemma Running.eraseIdx (index : Nat) : Running tags w tuning
      { replica with outstanding := replica.outstanding.eraseIdx index } :=
  ⟨running.held,running.calls,fun request kept =>
    running.outstanding request (mem_of_mem_eraseIdx kept),running.places⟩

end

variable {request : Put τ} {call ended : Call τ} {moved : Replica τ} {action : Act}

lemma Replica.Sound.outstanding_running (sound : replica.Sound tags w)
    (mem : request ∈ replica.outstanding) :
    ∃ tuning, replica.tuning = some tuning ∧ request.Sound tags w replica.places tuning := by
  cases running : replica.tuning with
  | none =>
    rw [(sound.idle running).2.2.1] at mem
    cases mem
  | some tuning =>
    exact ⟨tuning,rfl,(sound.running running).outstanding request mem⟩

/-- The expiry that the object is about to state comes no earlier than the one that the replica
will cache. -/
def stampCovers (world : World τ) (replica : Replica τ) : Act → Bool
  | .advance index _ => match replica.tuning, replica.calls[index]? with
      | some tuning, some (.acquirable now _) =>
        now + tuning.prefixLeaseTtl ≤ (nowMs world.clock + tuning.ttlMs) * millisecond
      | _, _ => true
  | _ => true

lemma advance_running (sound : w.Sound tags) (running : Running tags w tuning replica)
    (below : ∀ place ∈ replica.places, place < w.writes.length)
    (covers : ∀ {now current}, call = .acquirable now current →
      now + tuning.prefixLeaseTtl ≤ (nowMs w.clock + tuning.ttlMs) * millisecond)
    (called : call.Sound tags w replica.places tuning)
    (advanced : Advance tags w replica tuning call after moved ended) :
    after.Sound tags ∧ Running tags after tuning moved ∧
      ended.Sound tags after moved.places tuning := by
  cases advanced with
  | @fast now held cached =>
    have isHeld : replica.held = some held := (filter_eq_some_iff.mp cached).1
    exact ⟨sound,running,(running.held held isHeld).covered,nofun⟩
  | slow | unread | yields | loses => exact ⟨sound,running,trivial⟩
  | gets =>
    refine ⟨sound,running,fun found present => ?_⟩
    obtain ⟨isLast,isTag⟩ := written_object sound present
    rw [getLast?_eq_getElem?] at isLast
    exact ⟨_,isLast,isTag⟩
  | @compares now current ours isOurs =>
    refine ⟨sound,running,fun found present => ?_⟩
    obtain ⟨place,written⟩ := called found present
    cases ours with
    | false => exact ⟨place,written,nofun⟩
    | true =>
      obtain ⟨held,isHeld,isVersion⟩ := bind_eq_some_iff.mp (isOurs rfl found present)
      obtain ⟨own,isOwn,lease,ownWritten⟩ := (running.held held isHeld).version _ isVersion
      have same : lease = found.1 := tags.content (ownWritten.2.symm.trans written.2)
      subst same
      exact ⟨own,ownWritten,fun _ => isOwn⟩
  | @passes now current ours free =>
    refine ⟨sound,running,fun found present => ?_⟩
    obtain ⟨place,written,own⟩ := called found present
    refine ⟨place,written,?_⟩
    rcases free with isOurs | expired
    · exact .inl (own isOurs)
    · right
      calc found.1.expiresAtMs * millisecond
          ≤ nowMs w.clock * millisecond := Nat.mul_le_mul_right _ (expired found present)
        _ ≤ w.clock := Nat.div_mul_le_self _ _
  | @stamps now current =>
    refine ⟨sound,running,fun found present => ?_,le_refl _,covers rfl⟩
    obtain ⟨place,written,free⟩ := called found present
    refine ⟨place,written,?_⟩
    exact free.imp (fun own => ⟨own,running.places place own _ written.1⟩) (fun lapsed => lapsed)
  | @requests now expiresAtMs current request version expires epoch =>
    obtain ⟨replaceable,bound,upTo⟩ := called
    subst expires
    refine ⟨sound,running,⟨fun tag isVersion => ?_,bound⟩,upTo⟩
    rw [version] at isVersion
    obtain ⟨found,present,rfl⟩ := map_eq_some_iff.mp isVersion
    exact ⟨found.1,replaceable found present,epoch found present⟩
  | @writes now request current =>
    refine ⟨write_sound sound called.1 current,running.wrote sound below called.1 current,?_⟩
    refine ⟨.inr ⟨⟨_,.head _,?_⟩,?_⟩,.head _,request.lease,?_,rfl⟩
    · simp [World.write]
    · intro found isFound
      cases isFound
      exact called.2
    · exact ⟨getElem?_concat_length ..,rfl⟩
  | @errs now request =>
    refine ⟨sound,⟨running.held,running.calls,?_,running.places⟩,trivial⟩
    exact forall_mem_cons.mpr ⟨called.1,running.outstanding⟩
  | @holds now place epoch tag =>
    obtain ⟨covered,own,lease,written,same⟩ := called
    refine ⟨sound,⟨?_,running.calls,running.outstanding,running.places⟩,covered,?_⟩
    · intro held isHeld
      cases isHeld
      refine ⟨covered,fun version isVersion => ?_⟩
      cases isVersion
      exact ⟨place,own,lease,written⟩
    · intro other isPlace
      cases isPlace
      exact ⟨lease,written.1,same⟩
  | drops => exact ⟨sound,⟨nofun,running.calls,running.outstanding,running.places⟩,trivial⟩

lemma step_sound (sound : world.Sound tags) (own : replica.Sound tags world)
    (below : ∀ place ∈ replica.places, place < world.writes.length)
    (allowed : stampCovers world replica action = true)
    (step : Step tags world replica action after next) :
    after.Sound tags ∧ next.Sound tags after := by
  cases step with
  | boots fresh =>
    obtain ⟨held,calls,outstanding,places⟩ := own.idle fresh
    refine ⟨sound,Running.sound ⟨?_,?_,?_,?_⟩ rfl⟩ <;> simp_all
  | waits =>
    refine ⟨⟨sound.object,sound.epochs⟩,own.later below ?_⟩
    exact Later.wait _ _ _
  | begins running =>
    have whole := own.running running
    refine ⟨sound,Running.sound ?_ running⟩
    refine ⟨whole.held,fun call mem => ?_,whole.outstanding,whole.places⟩
    rcases mem_append.mp mem with old | isNew
    · exact whole.calls call old
    · rw [mem_singleton.mp isNew]
      trivial
  | @advances index resp tuning call ended after moved running found advanced =>
    have whole := own.running running
    have called := whole.calls call (mem_of_getElem? found)
    have covers : ∀ {now current}, call = .acquirable now current →
        now + tuning.prefixLeaseTtl ≤ (nowMs world.clock + tuning.ttlMs) * millisecond := by
      intro now current isCall
      subst isCall
      simpa [stampCovers,running,found] using allowed
    have same : moved.tuning = some tuning := by cases advanced <;> exact running
    obtain ⟨soundAfter,runningAfter,endedSound⟩ :=
      advance_running sound whole below covers called advanced
    exact ⟨soundAfter,(runningAfter.setCall endedSound index).sound same⟩
  | @lands index request found current =>
    obtain ⟨tuning,running,requested⟩ := own.outstanding_running (mem_of_getElem? found)
    have whole := own.running running
    have fewer := whole.eraseIdx index
    refine ⟨write_sound sound requested current,?_⟩
    exact (fewer.wrote sound below requested current).sound running
  | @misses index =>
    refine ⟨sound,?_⟩
    rcases eq_none_or_eq_some replica.tuning with fresh | ⟨tuning,running⟩
    · have idle := own.idle fresh
      simp [Replica.Sound,fresh,idle]
    · exact ((own.running running).eraseIdx index).sound running

end

/-! ### Every run -/

section

variable {w after : World τ} {r next replica : Replica τ} {act : Act} {term : Term} {tags : Tags τ}
  {others places : List Nat}

lemma step_later (sound : w.Sound tags) (own : replica.Sound tags w)
    (apart : ∀ place ∈ replica.places, place ∉ others)
    (step : Step tags w replica act after next) : Later w after others others := by
  cases step with
  | boots | begins | misses => exact Later.refl _ _
  | waits => exact Later.wait _ _ _
  | @advances index resp tuning call ended after moved running found advanced =>
    have whole := own.running running
    have called := whole.calls call (mem_of_getElem? found)
    cases advanced with
    | writes current => exact later_write_other sound called.1 current apart
    | _ => exact Later.refl _ _
  | lands found current =>
    obtain ⟨tuning,-,requested⟩ := own.outstanding_running (mem_of_getElem? found)
    exact later_write_other sound requested current apart

lemma step_places (step : Step tags w r act after next) :
    w.writes.length ≤ after.writes.length ∧ ∀ place ∈ next.places, place ∈ r.places ∨
      place = w.writes.length ∧ w.writes.length < after.writes.length := by
  have wrote : ∀ lease, w.writes.length < (w.write tags lease).writes.length := by
    intro lease
    simp [World.write]
  have quiet : w.writes.length ≤ w.writes.length ∧ ∀ place ∈ r.places,
      place ∈ r.places ∨
        place = w.writes.length ∧ w.writes.length < w.writes.length :=
    ⟨le_refl _,fun _ mem => .inl mem⟩
  have writes : ∀ lease, w.writes.length ≤ (w.write tags lease).writes.length ∧
      ∀ place ∈ w.writes.length :: r.places, place ∈ r.places ∨
        place = w.writes.length ∧
          w.writes.length < (w.write tags lease).writes.length := by
    intro lease
    refine ⟨le_of_lt (wrote lease),fun place mem => ?_⟩
    rcases mem_cons.mp mem with isNew | old
    · exact .inr ⟨isNew,wrote lease⟩
    · exact .inl old
  cases step with
  | boots | waits | begins | misses => exact quiet
  | advances running found advanced =>
    cases advanced with
    | writes cur => exact writes _
    | _ => exact quiet
  | lands found cur => exact writes _

def Call.term? : Call τ → Option Term
  | .returned term => some term
  | _ => none

def Replica.terms (replica : Replica τ) : List Term := replica.calls.filterMap Call.term?

def Term.span (term : Term) : Set Nat := Set.Ico term.since term.expiresAt

lemma returned_of_mem_terms (mem : term ∈ r.terms) : .returned term ∈ r.calls := by
  obtain ⟨call,isCall,isTerm⟩ := mem_filterMap.mp mem
  cases call <;> cases isTerm
  exact isCall

lemma step_terms (own : replica.Sound tags w)
    (step : Step tags w replica act after next) (mem : term ∈ next.terms) :
    term ∈ replica.terms ∨
      term.since = w.clock ∧ Covered w replica.places term.expiresAt := by
  cases step with
  | boots | waits | lands | misses => exact .inl mem
  | begins running =>
    left
    simpa [Replica.terms,Call.term?] using mem
  | @advances index resp tuning call ended after moved running found advanced =>
    have whole := own.running running
    have called := whole.calls call (mem_of_getElem? found)
    rcases mem_or_eq_of_mem_set (returned_of_mem_terms mem) with old | isNew
    · left
      have kept : Call.returned term ∈ replica.calls := by cases advanced <;> exact old
      exact mem_filterMap.mpr ⟨_,kept,rfl⟩
    · right
      cases advanced with
      | @fast now held cached =>
        cases isNew
        have isHeld : replica.held = some held := (filter_eq_some_iff.mp cached).1
        exact ⟨rfl,(whole.held held isHeld).covered⟩
      | holds =>
        cases isNew
        exact ⟨rfl,called.1⟩
      | _ => cases isNew

lemma Covered.disjoint {other : Term}
    (covered : Covered w places term.expiresAt) (since : term.since = w.clock)
    (otherCovered : Covered w others other.expiresAt) (apart : ∀ place ∈ places, place ∉ others) :
    Disjoint term.span other.span := by
  rw [Set.disjoint_left]
  intro instant inTerm inOther
  rcases covered with passed | ⟨⟨last,own,isLast⟩,-⟩
  · have started := inTerm.1
    have ends := inTerm.2
    omega
  · rcases otherCovered with passed | ⟨⟨place,others,isPlace⟩,-⟩
    · have started := inTerm.1
      have ends := inOther.2
      omega
    · have same : last = place := by omega
      subst same
      exact apart last own others

end

section

variable [DecidableEq τ] {tags : Tags τ}

def Guard (world : World τ) (replica : Replica τ) (action : Act) : Prop :=
  stampCovers world replica action = true

instance (world : World τ) (replica : Replica τ) (action : Act) :
    Decidable (Guard world replica action) :=
  inferInstanceAs (Decidable (_ = true))

lemma places_known : Parties.Known (replicas tags) Guard (fun _ => True)
      (fun w r => ∀ place ∈ r.places, place < w.writes.length)
      (Parties.TicketsApart Replica.places) :=
  Parties.tickets rfl (fun acted => step_places (act_step acted))

lemma sound_known : Parties.Known (replicas tags) Guard (World.Sound tags)
      (fun w replica => replica.Sound tags w) (Parties.TicketsApart Replica.places) := by
  intro state reached
  refine ⟨?_,(places_known state reached).2⟩
  refine Parties.invariant_over places_known ⟨⟨rfl,List.Pairwise.nil⟩,rfl,rfl,rfl,rfl⟩ ?_ ?_ reached
  · intro before after replica next act _ below _ sound own allowed acted
    exact step_sound sound own below allowed (act_step acted)
  · intro before after replica next other act _ _ _ below apart sound own others _ acted
    exact others.later below (step_later sound own apart (act_step acted))

def TermsApart (left right : Replica τ) : Prop :=
  ∀ term ∈ left.terms, ∀ other ∈ right.terms, Disjoint term.span other.span

abbrev State (τ : Type) := Parties.Global (World τ) (Replica τ)

section

variable {state : State τ}
  (reached : System.Reachable (replicas tags).system (Parties.guarded Guard) state)

include reached

lemma terms_apart :
    ∀ left right, left ≠ right → TermsApart (state.party left) (state.party right) := by
  refine Parties.apart sound_known ?_ nofun ?_ reached
  · exact fun apart other inRight term inLeft => (apart term inLeft other inRight).symm
  · intro before after replica next other act sound own others apart disjoint acted term mem
    rcases step_terms own (act_step acted) mem with old | ⟨since,covered⟩
    · exact disjoint term old
    · intro theirs isTheirs
      have held := returned_of_mem_terms isTheirs
      cases running : other.tuning with
      | none =>
        rw [(others.idle running).2.1] at held
        cases held
      | some tuning =>
        exact covered.disjoint since ((others.running running).calls _ held).1 apart

/-- The epochs that successful writes return grow in the order in which the writes took effect. -/
lemma epochs_grow :
    state.world.writes.Pairwise (fun earlier later => earlier.epoch < later.epoch) ∧
      ∀ index, ∀ term ∈ (state.party index).terms, ∀ place ∈ term.place,
        ∃ lease, state.world.writes[place]? = some lease ∧ lease.epoch = term.epoch := by
  obtain ⟨⟨sound,parties⟩,-⟩ := sound_known state reached
  refine ⟨sound.epochs,fun index term mem => ?_⟩
  have own := parties index
  have held := returned_of_mem_terms mem
  cases running : (state.party index).tuning with
  | none =>
    rw [(own.idle running).2.1] at held
    cases held
  | some tuning => exact ((own.running running).calls _ held).2

end

/-- When no stated expiry comes before the cached one, no two replicas take the lease to be
their own at the same instant, and the epochs of the writes grow. -/
theorem lease_exclusive {state : State τ}
    (reached : System.Reachable (replicas tags).system (Parties.guarded Guard) state) :
    (∀ left right, left ≠ right → TermsApart (state.party left) (state.party right)) ∧
      state.world.writes.Pairwise (fun earlier later => earlier.epoch < later.epoch) ∧
      ∀ index, ∀ term ∈ (state.party index).terms, ∀ place ∈ term.place,
        ∃ lease, state.world.writes[place]? = some lease ∧ lease.epoch = term.epoch :=
  ⟨terms_apart reached,epochs_grow reached⟩

end

/-! ### Two replicas one after the other -/

def contentTags : Tags PrefixLease := ⟨fun _ lease => lease, fun same => same⟩

def acquire (replica : Nat) : List (Nat × Act) :=
  (replica, .begin) :: List.replicate 8 (replica, .advance 0 .answered)

/-- One replica acquires the lease for ten milliseconds at some nanosecond, and another when
ten milliseconds have passed on the clock. -/
def takeover (started : Nat) : List (Nat × Act) :=
  [(0, .boot ⟨"a", 10 * millisecond⟩), (1, .boot ⟨"b", 10 * millisecond⟩), (0, .wait started)] ++
    acquire 0 ++ [(0, .wait (10 * millisecond - started))] ++ acquire 1

def termsOf (state : State PrefixLease) : List Term × List Term :=
  ((state.party 0).terms, (state.party 1).terms)

theorem lease_exclusive_takeover : ∃ state : State PrefixLease,
    System.Reachable (replicas contentTags).system (Parties.guarded Guard) state ∧
      termsOf state = ([⟨1, 0, 10000000, some 0⟩], [⟨2, 10000000, 20000000, some 1⟩]) ∧
      TermsApart (state.party 0) (state.party 1) := by
  have ended : ((replicas contentTags).ran Guard (takeover 0)).map termsOf =
      some ([⟨1,0,10000000,some 0⟩], [⟨2,10000000,20000000,some 1⟩]) := by decide +kernel
  obtain ⟨state,reached,terms⟩ := Parties.ran_reachable ended
  exact ⟨state,reached,terms,(lease_exclusive reached).1 0 1 (by decide)⟩

/-- A call that begins late in a millisecond states an expiry nine tenths of one too early. -/
theorem takeover_overlaps : ∃ state : State PrefixLease,
    System.Reachable (replicas contentTags).system (Parties.guarded (fun _ _ _ => True)) state ∧
      ¬ TermsApart (state.party 0) (state.party 1) := by
  have ended : ((replicas contentTags).ran (fun _ _ _ => True) (takeover 900000)).map termsOf =
      some ([⟨1,900000,10900000,some 0⟩], [⟨2,10000000,20000000,some 1⟩]) := by
    decide +kernel
  obtain ⟨state,reached,terms⟩ := Parties.ran_reachable ended
  obtain ⟨first,second⟩ := Prod.mk.inj terms
  refine ⟨state,reached,fun apart => ?_⟩
  unfold TermsApart at apart
  rw [first,second] at apart
  have disjoint := apart _ mem_cons_self _ mem_cons_self
  have both : 10000000 ∈ Set.Ico 900000 10900000 ∩ Set.Ico 10000000 20000000 := by simp
  exact Set.disjoint_left.mp disjoint both.1 both.2

end Kodansu.Lease

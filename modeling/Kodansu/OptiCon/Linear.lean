/-
Updates through optimistic concurrency are linearizable: they take effect in the order of
their successful PUTs.

A PUT succeeds only on the version its document was computed from, and a version is never
given out twice, so the closure has seen exactly the document the PUT replaces.
-/

import Kodansu.OptiCon.Update

namespace Kodansu.OptiCon

open Lib List

variable {D β E : Type} {codec : Codec D β}

section

variable [Inhabited D] {next : Task D β E}

/-! ### What a step does -/

inductive Moves (codec : Codec D β) (world : World D β E) :
    Task D β E → World D β E → Task D β E → Prop
  | invokes (handle : Nat) (update : D → E × D) :
      Moves codec world .idle
        (({ world with calls := world.calls + 1 } : World D β E).record
          (.invoke { id := world.calls, update }))
        (.withMut { id := world.calls, update } handle .attempt)
  | attempts {call : Call D E} {handle : Nat} {dv : DataVersion D} {payload : β}
      (cached : dv = (world.handles handle).getD { data := default })
      (encoded : codec.encode (call.update dv.data).2 = some payload) :
      Moves codec world (.withMut call handle .attempt) world
        (.withMut call handle
          (.put (call.update dv.data).1 { dv with data := (call.update dv.data).2 } payload))
  | writes {call : Call D E} {handle : Nat} {outcome : E} {dv : DataVersion D} {payload : β}
      {store : Store β} {version : Nat}
      (put : world.store.putOpts payload dv.putMode = some (store, version)) :
      Moves codec world (.withMut call handle (.put outcome dv payload))
        { world with store, order := world.order ++ [call] }
        (.withMut call handle (.stored outcome dv.data version))
  | conflicts {call : Call D E} {handle : Nat} {outcome : E} {dv : DataVersion D} {payload : β} :
      Moves codec world (.withMut call handle (.put outcome dv payload)) world
        (.withMut call handle .conflict)
  | returns {call : Call D E} {handle : Nat} {outcome : E} {data : D} {version : Nat} :
      Moves codec world (.withMut call handle (.stored outcome data version))
        ((world.cache handle (some { data, version := some version })).record
          (.respond call outcome)) .idle
  | gets {call : Call D E} {handle : Nat} :
      Moves codec world (.withMut call handle .conflict) world
        (.withMut call handle (.got (world.store.getOpts none)))
  | caches {call : Call D E} {handle : Nat} {result : GetResult β}
      {cached : Option (DataVersion D)}
      (readable : result.cached codec (world.handles handle) = some cached) :
      Moves codec world (.withMut call handle (.got result)) (world.cache handle cached)
        (.withMut call handle .attempt)
  | fails {call : Call D E} {handle : Nat} {phase : Phase D β E}
      (unstored : ∀ outcome data version, phase ≠ .stored outcome data version) :
      Moves codec world (.withMut call handle phase) (world.record (.fail call)) .idle
  | asks (handle : Nat) (version : Option Nat) :
      Moves codec world .idle world (.refresh handle (.asked version))
  | answers {handle : Nat} {version : Option Nat} :
      Moves codec world (.refresh handle (.asked version)) world
        (.refresh handle (.answered (world.store.getOpts version)))
  | refreshes {handle : Nat} {result : GetResult β} {cached : Option (DataVersion D)}
      (readable : result.cached codec (world.handles handle) = some cached) :
      Moves codec world (.refresh handle (.answered result)) (world.cache handle cached) .idle
  | stops (task : Task D β E) : Moves codec world task world .idle

variable {handle : Nat} {answered : Bool} {phase : Phase D β E} {task : Task D β E}
  {action : Act D E}

lemma withMutStep_moves {call : Call D E} {w after : World D β E}
    (stepped : withMutStep codec w call handle answered phase = (after, next)) :
    Moves codec w (.withMut call handle phase) after next := by
  cases phase with
  | attempt =>
    simp only [withMutStep,attempt] at stepped
    split at stepped
    · cases stepped
      exact .fails nofun
    · rename_i encoded
      cases stepped
      exact .attempts rfl encoded
  | put outcome dv payload =>
    simp only [withMutStep,put] at stepped
    split at stepped
    · split at stepped
      · rename_i written
        cases stepped
        exact .writes written
      · cases stepped
        exact .conflicts
    · cases stepped
      exact .fails nofun
  | stored outcome data version =>
    cases stepped
    exact .returns
  | conflict =>
    simp only [withMutStep] at stepped
    split at stepped
    · cases stepped
      exact .gets
    · cases stepped
      exact .fails nofun
  | got res =>
    simp only [withMutStep] at stepped
    split at stepped
    · rename_i readable
      cases stepped
      exact .caches readable
    · cases stepped
      exact .fails nofun

lemma refreshStep_moves {phase : RefreshPhase β} {w after : World D β E}
    (stepped : refreshStep codec w handle answered phase = (after, next)) :
    Moves codec w (.refresh handle phase) after next := by
  cases phase with
  | asked version =>
    simp only [refreshStep] at stepped
    split at stepped
    · cases stepped
      exact .answers
    · cases stepped
      exact .stops _
  | answered res =>
    simp only [refreshStep] at stepped
    split at stepped
    · rename_i readable
      cases stepped
      exact .refreshes readable
    · cases stepped
      exact .stops _

lemma act_moves {w after : World D β E}
    (acted : act codec w task action = some (after, next)) :
    Moves codec w task after next := by
  unfold act at acted
  split at acted
  · cases acted
    exact .invokes _ _
  · cases acted
    exact .asks _ _
  · exact withMutStep_moves (Option.some.inj acted)
  · exact refreshStep_moves (Option.some.inj acted)
  · cases acted
    exact .stops _
  · cases acted

end

/-! ### Calls are distinct -/

def Task.call : Task D β E → Option (Call D E)
  | .withMut call _ _ => some call
  | _ => none

def Numbered (world : World D β E) : Prop :=
  ∀ event ∈ world.history, event.call.id < world.calls

def Made (world : World D β E) (task : Task D β E) : Prop :=
  ∀ call ∈ task.call, .invoke call ∈ world.history

def CallsApart (left right : Task D β E) : Prop :=
  ∀ first ∈ left.call, ∀ second ∈ right.call, first.id ≠ second.id

lemma numbered_record {w : World D β E} {event : Event (Call D E) E}
    (numbered : Numbered w) (inside : event.call.id < w.calls) : Numbered (w.record event) := by
  intro other mem
  rcases mem_append.mp mem with before | last
  · exact numbered other before
  · rw [mem_singleton.mp last]
    exact inside

variable {task other : Task D β E} {payload : β} {mode : PutMode} {written : Store β}
  {version : Nat}

lemma moves_numbered [Inhabited D] {w after : World D β E} {next : Task D β E}
    (numbered : Numbered w) (made : Made w task)
    (moves : Moves codec w task after next) : Numbered after ∧ Made after next := by
  cases moves with
  | invokes handle update =>
    refine ⟨numbered_record (fun event mem => ?_) (Nat.lt_succ_self _),?_⟩
    · exact Nat.lt_succ_of_lt (numbered event mem)
    · intro call held
      cases held
      exact mem_append_right _ (mem_singleton_self _)
  | @returns call | @fails call =>
    have inside : call.id < w.calls := numbered _ (made call rfl)
    exact ⟨numbered_record numbered inside,nofun⟩
  | attempts | writes | conflicts | gets | caches => exact ⟨numbered,made⟩
  | _ => exact ⟨numbered,nofun⟩

lemma moves_apart [Inhabited D] {w after : World D β E} {next : Task D β E}
    (numbered : Numbered w) (made : Made w other) (apart : CallsApart task other)
    (moves : Moves codec w task after next) : CallsApart next other := by
  cases moves with
  | invokes handle update =>
    intro first held second others
    cases held
    exact Ne.symm (Nat.ne_of_lt (numbered _ (made second others)))
  | attempts | writes | conflicts | gets | caches => exact apart
  | _ => exact nofun

/-- A step may extend the history and the order by its own call, and write to the store. -/
structure Extends (world after : World D β E) (task : Task D β E) : Prop where
  history : ∃ events, after.history = world.history ++ events ∧
    ∀ event ∈ events, event.call ∈ task.call ∨ event.call.id = world.calls
  order : ∃ calls, after.order = world.order ++ calls ∧ ∀ call ∈ calls, call ∈ task.call
  store : after.store = world.store ∨ ∃ payload, after.store = world.store.write payload

lemma putOpts_inv {store : Store β} (put : store.putOpts payload mode = some (written, version)) :
    written = store.write payload ∧ version = store.versions ∧
      ((mode = .create ∧ store.object = none) ∨
        ∃ object, store.object = some object ∧ mode = .update object.version) := by
  unfold Store.putOpts at put
  split at put
  · rename_i absent
    cases put
    exact ⟨rfl,rfl,.inl ⟨rfl,absent⟩⟩
  · rename_i object present
    split at put
    · rename_i same
      cases put
      exact ⟨rfl,rfl,.inr ⟨object,present,by rw [same]⟩⟩
    · cases put
  · cases put

lemma moves_extends [Inhabited D] {w after : World D β E} {next : Task D β E}
    (moves : Moves codec w task after next) : Extends w after task := by
  have quiet : (∃ events, w.history = w.history ++ events ∧
      ∀ event ∈ events, event.call ∈ task.call ∨ event.call.id = w.calls) :=
    ⟨[],(append_nil _).symm,nofun⟩
  have idle : ∃ calls, w.order = w.order ++ calls ∧ ∀ call ∈ calls, call ∈ task.call :=
    ⟨[],(append_nil _).symm,nofun⟩
  cases moves with
  | invokes handle update =>
    refine ⟨⟨[_],rfl,?_⟩,idle,.inl rfl⟩
    intro event mem
    rw [mem_singleton.mp mem]
    exact .inr rfl
  | writes put =>
    obtain ⟨rfl,-,-⟩ := putOpts_inv put
    refine ⟨quiet,⟨[_],rfl,?_⟩,.inr ⟨_,rfl⟩⟩
    intro call mem
    rw [mem_singleton.mp mem]
    rfl
  | returns | fails =>
    refine ⟨⟨[_],rfl,?_⟩,idle,.inl rfl⟩
    intro event mem
    rw [mem_singleton.mp mem]
    exact .inl rfl
  | _ => exact ⟨quiet,idle,.inl rfl⟩

lemma calls_known [Inhabited D] {start : Start codec} :
    Parties.Known (tasks E start) (fun _ _ _ => True) Numbered Made CallsApart := by
  have numbered : ∀ state, System.Reachable (tasks E start).system
      (Parties.guarded (fun _ _ _ => True)) state → Parties.Holds Numbered Made state := by
    intro state reached
    refine Parties.invariant ⟨nofun,nofun⟩ ?_ ?_ reached
    · intro before after task next act isNumbered made _ acted
      exact moves_numbered isNumbered made (act_moves acted)
    · intro before after task next other act isNumbered made othersMade _ acted call held
      obtain ⟨events,same,-⟩ := (moves_extends (act_moves acted)).history
      rw [same]
      exact mem_append_left _ (othersMade call held)
  have known : Parties.Known (tasks E start) (fun _ _ _ => True) Numbered Made (fun _ _ => True) :=
    fun state reached => ⟨numbered state reached,fun _ _ _ => trivial⟩
  intro state reached
  refine ⟨numbered state reached,?_⟩
  refine Parties.apart known ?_ nofun ?_ reached
  · intro left right apart first held second others
    exact Ne.symm (apart second others first held)
  · intro before after task next other act isNumbered made othersMade _ apart acted
    exact moves_apart isNumbered othersMade apart (act_moves acted)

/-! ### Versions -/

section

variable {store : Store β} {data : D} {result res : GetResult β}
  {before cached : Option (DataVersion D)}

lemma agrees_write (agrees : store.Agrees codec data version) :
    (store.write payload).Agrees codec data version := by
  refine ⟨Nat.lt_succ_of_lt agrees.1,?_⟩
  intro object present same
  cases present
  exact absurd same (Nat.ne_of_gt agrees.1)

lemma agrees_written (encoded : codec.encode data = some payload) :
    (store.write payload).Agrees codec data store.versions := by
  refine ⟨Nat.lt_succ_self _,?_⟩
  intro object present _
  cases present
  exact codec.roundTrip encoded

def Store.Reads [Inhabited D] (codec : Codec D β) (store : Store β) (data : D) :
    Option Nat → Prop
  | none => data = default
  | some version => store.Agrees codec data version

def Store.Answers (store : Store β) (result : GetResult β) : Prop :=
  ∀ object, result = .found object → object.version < store.versions ∧
    ∀ current, store.object = some current → current.version = object.version →
      current.payload = object.payload

lemma reads_write [Inhabited D] {version : Option Nat} (reads : store.Reads codec data version) :
    (store.write payload).Reads codec data version := by
  cases version with
  | none => exact reads
  | some version => exact agrees_write reads

lemma answers_write (answers : store.Answers result) : (store.write payload).Answers result := by
  intro object found
  obtain ⟨issued,-⟩ := answers object found
  refine ⟨Nat.lt_succ_of_lt issued,?_⟩
  intro cur present same
  cases present
  exact absurd same (Nat.ne_of_gt issued)

lemma answers_getOpts
    (issued : ∀ object, store.object = some object → object.version < store.versions)
    (ifNoneMatch : Option Nat) : store.Answers (store.getOpts ifNoneMatch) := by
  intro object found
  unfold Store.getOpts at found
  split at found
  · cases found
  rename_i present
  split at found
  · cases found
  cases found
  refine ⟨issued _ present,?_⟩
  intro cur isCurrent _
  rw [isCurrent] at present
  cases present
  rfl

def CacheAgrees (codec : Codec D β) (store : Store β) (cached : Option (DataVersion D)) : Prop :=
  ∀ dv, cached = some dv → ∃ version, dv.version = some version ∧ store.Agrees codec dv.data version

lemma cached_agrees (answers : store.Answers res)
    (agrees : CacheAgrees codec store before) (readable : res.cached codec before = some cached) :
    CacheAgrees codec store cached := by
  intro dv held
  cases res with
  | found object =>
    obtain ⟨data,decoded,same⟩ := Option.map_eq_some_iff.mp readable
    rw [held] at same
    cases same
    obtain ⟨issued,stands⟩ := answers object rfl
    refine ⟨object.version,rfl,issued,?_⟩
    intro cur present same
    rw [stands cur present same]
    exact decoded
  | notFound =>
    cases readable
    cases held
  | notModified =>
    cases readable
    exact agrees dv held

lemma document_of_put [Inhabited D] {w : World D β E} {dv : DataVersion D} {read : D}
    (reads : w.store.Reads codec read dv.version)
    (put : w.store.putOpts payload dv.putMode = some (written, version)) :
    w.document codec = read := by
  obtain ⟨-,-,⟨mode,absent⟩ | ⟨object,present,mode⟩⟩ := putOpts_inv put
  · cases held : dv.version with
    | none =>
      rw [held] at reads
      rw [World.document,absent]
      exact reads.symm
    | some version =>
      rw [DataVersion.putMode,held] at mode
      cases mode
  · cases held : dv.version with
    | none =>
      rw [DataVersion.putMode,held] at mode
      cases mode
    | some version =>
      rw [DataVersion.putMode,held] at mode
      cases mode
      rw [held] at reads
      have decoded := reads.2 object present rfl
      simp only [World.document,present,Option.bind_some,decoded,Option.getD_some]

end

/-! ### The order of the PUTs -/

section

variable [Inhabited D] {initial : D}

structure Serial (codec : Codec D β) (initial : D) (world : World D β E) : Prop where
  issued : ∀ object, world.store.object = some object → object.version < world.store.versions
  cached : ∀ handle, CacheAgrees codec world.store (world.handles handle)
  linear : Linearizes Call.update initial world.history world.order
  document : world.document codec = replay Call.update initial world.order

def Phase.Placed (codec : Codec D β) (initial : D) (world : World D β E) (call : Call D E) :
    Phase D β E → Prop
  | .attempt | .conflict => call ∉ world.order
  | .put outcome dv payload => call ∉ world.order ∧ codec.encode dv.data = some payload ∧
      ∃ read, call.update read = (outcome, dv.data) ∧ world.store.Reads codec read dv.version
  | .stored outcome data version => OutcomeAt Call.update initial world.order call outcome ∧
      world.store.Agrees codec data version
  | .got result => call ∉ world.order ∧ world.store.Answers result

def Placed (codec : Codec D β) (initial : D) (world : World D β E) : Task D β E → Prop
  | .withMut call _ phase => .fail call ∉ world.history ∧ phase.Placed codec initial world call
  | .refresh _ (.answered result) => world.store.Answers result
  | _ => True

namespace Serial

variable {w : World D β E}

section

variable (serial : Serial codec initial w)

include serial

variable {event : Event (Call D E) E} {handle : Nat} {outcome : E}

lemma record (linear : Linearizes Call.update initial (w.history ++ [event]) w.order) :
    Serial codec initial (w.record event) :=
  ⟨serial.issued,serial.cached,linear,serial.document⟩

lemma cache {cached : Option (DataVersion D)} (agrees : CacheAgrees codec w.store cached) :
    Serial codec initial (w.cache handle cached) := by
  refine ⟨serial.issued,?_,serial.linear,serial.document⟩
  intro other
  simp only [World.cache]
  by_cases same : other = handle
  · rw [same,Function.update_self]
    exact agrees
  · rw [Function.update_of_ne same]
    exact serial.cached other

lemma reads (handle : Nat) :
    w.store.Reads codec ((w.handles handle).getD { data := default }).data
      ((w.handles handle).getD { data := default }).version := by
  cases held : w.handles handle with
  | none => rfl
  | some dv =>
    obtain ⟨version,isVersion,agrees⟩ := serial.cached handle dv held
    rw [Option.getD_some,isVersion]
    exact agrees

lemma write {call : Call D E} {dv : DataVersion D} {read : D}
    (made : .invoke call ∈ w.history) (stands : .fail call ∉ w.history)
    (fresh : call ∉ w.order) (encoded : codec.encode dv.data = some payload)
    (computed : call.update read = (outcome, dv.data))
    (reads : w.store.Reads codec read dv.version)
    (put : w.store.putOpts payload dv.putMode = some (written, version)) :
    Serial codec initial { w with store := written, order := w.order ++ [call] } ∧
      OutcomeAt Call.update initial (w.order ++ [call]) call outcome := by
  have replaced : replay Call.update initial w.order = read := by
    rw [← serial.document]
    exact document_of_put reads put
  obtain ⟨rfl,-,-⟩ := putOpts_inv put
  refine ⟨⟨?_,?_,serial.linear.effect fresh made stands,?_⟩,?_⟩
  · intro object present
    cases present
    exact Nat.lt_succ_self _
  · intro handle dv held
    obtain ⟨version,isVersion,agrees⟩ := serial.cached handle dv held
    exact ⟨version,isVersion,agrees_write agrees⟩
  · rw [replay_snoc,replaced,computed]
    simp [World.document,Store.write,codec.roundTrip encoded]
  · have placed := OutcomeAt.last Call.update initial w.order call
    rw [replaced,computed] at placed
    exact placed

end

end Serial

lemma moves_serial {w after : World D β E} {next : Task D β E}
    (numbered : Numbered w) (made : Made w task) (serial : Serial codec initial w)
    (placed : Placed codec initial w task) (moves : Moves codec w task after next) :
    Serial codec initial after ∧ Placed codec initial after next := by
  cases moves with
  | invokes handle update =>
    have unknown : ∀ event ∈ w.history, event.call ≠ { id := w.calls, update } := by
      intro event mem same
      have inside := numbered event mem
      rw [same] at inside
      exact Nat.lt_irrefl _ inside
    have fresh : { id := w.calls, update } ∉ w.order :=
      fun mem => unknown _ (serial.linear.invoked _ mem) rfl
    refine ⟨⟨serial.issued,serial.cached,serial.linear.invoke fresh,serial.document⟩,?_,fresh⟩
    intro failed
    rcases mem_append.mp failed with before | last
    · exact unknown _ before rfl
    · cases mem_singleton.mp last
  | @attempts call handle dv payload cached encoded =>
    refine ⟨serial,placed.1,placed.2,encoded,dv.data,rfl,?_⟩
    rw [cached]
    exact serial.reads handle
  | @writes call handle outcome dv payload store version put =>
    obtain ⟨stands,fresh,encoded,read,computed,reads⟩ := placed
    obtain ⟨serialAfter,outcomeAt⟩ :=
      serial.write (made call rfl) stands fresh encoded computed reads put
    obtain ⟨rfl,rfl,-⟩ := putOpts_inv put
    exact ⟨serialAfter,stands,outcomeAt,agrees_written encoded⟩
  | conflicts => exact ⟨serial,placed.1,placed.2.1⟩
  | @returns call handle outcome data version =>
    obtain ⟨-,outcomeAt,agrees⟩ := placed
    refine ⟨?_,trivial⟩
    apply Serial.record
    · apply serial.cache
      intro dv held
      cases held
      exact ⟨version,rfl,agrees⟩
    · exact serial.linear.respond outcomeAt
  | gets => exact ⟨serial,placed.1,placed.2,answers_getOpts serial.issued none⟩
  | caches readable =>
    obtain ⟨stands,fresh,answers⟩ := placed
    exact ⟨serial.cache (cached_agrees answers (serial.cached _) readable),stands,fresh⟩
  | @fails call handle phase unstored =>
    refine ⟨serial.record (serial.linear.fail ?_),trivial⟩
    cases phase with
    | attempt | conflict => exact placed.2
    | put | got => exact placed.2.1
    | stored outcome data version => exact absurd rfl (unstored outcome data version)
  | asks | stops => exact ⟨serial,trivial⟩
  | answers => exact ⟨serial,answers_getOpts serial.issued _⟩
  | refreshes readable =>
    exact ⟨serial.cache (cached_agrees placed (serial.cached _) readable),trivial⟩

lemma Extends.placed {w after : World D β E}
    (extension : Extends w after task) (numbered : Numbered w) (made : Made w other)
    (apart : CallsApart task other) (placed : Placed codec initial w other) :
    Placed codec initial after other := by
  obtain ⟨⟨events,history,ownEvents⟩,⟨calls,order,ownCalls⟩,store⟩ := extension
  have agrees : ∀ data version, w.store.Agrees codec data version →
      after.store.Agrees codec data version := by
    intro data version held
    rcases store with same | ⟨payload,same⟩
    · rw [same]
      exact held
    · rw [same]
      exact agrees_write held
  have answers : ∀ result, w.store.Answers result → after.store.Answers result := by
    intro result held
    rcases store with same | ⟨payload,same⟩
    · rw [same]
      exact held
    · rw [same]
      exact answers_write held
  cases other with
  | idle => trivial
  | refresh handle phase =>
    cases phase with
    | asked version => trivial
    | answered result => exact answers result placed
  | withMut call handle phase =>
    obtain ⟨stands,phasePlaced⟩ := placed
    have fresh : call ∉ w.order → call ∉ after.order := by
      intro outside mem
      rw [order] at mem
      rcases mem_append.mp mem with before | added
      · exact outside before
      · exact apart call (ownCalls call added) call rfl rfl
    refine ⟨?_,?_⟩
    · intro failed
      rw [history] at failed
      rcases mem_append.mp failed with before | added
      · exact stands before
      · rcases ownEvents _ added with own | unnumbered
        · exact apart call own call rfl rfl
        · exact Nat.ne_of_lt (numbered _ (made call rfl)) unnumbered
    · cases phase with
      | attempt | conflict => exact fresh phasePlaced
      | put outcome dv payload =>
        obtain ⟨outside,encoded,read,computed,reads⟩ := phasePlaced
        refine ⟨fresh outside,encoded,read,computed,?_⟩
        rcases store with same | ⟨payload,same⟩
        · rw [same]
          exact reads
        · rw [same]
          exact reads_write reads
      | stored outcome data version =>
        refine ⟨?_,agrees _ _ phasePlaced.2⟩
        rw [order]
        exact phasePlaced.1.append calls
      | got result => exact ⟨fresh phasePlaced.1,answers _ phasePlaced.2⟩

end

section

variable [Inhabited D] {start : Start codec}

abbrev Reachable (start : Start codec) : Parties.Global (World D β E) (Task D β E) → Prop :=
  System.Reachable (tasks E start).system (Parties.guarded (fun _ _ _ => True))

lemma reachable_serial {state : Parties.Global (World D β E) (Task D β E)}
    (reached : Reachable start state) :
    Parties.Holds (Serial codec ((tasks E start).world.document codec))
      (Placed codec ((tasks E start).world.document codec)) state := by
  refine Parties.invariant_over calls_known ?_ ?_ ?_ reached
  · exact ⟨⟨start.issued,fun handle dv held => start.cached handle dv held,.empty,rfl⟩,trivial⟩
  · intro before after task next act numbered made _ serial placed _ acted
    exact moves_serial numbered made serial placed (act_moves acted)
  · intro before after task next other act numbered _ _ made apart _ _ placed _ acted
    exact (moves_extends (act_moves acted)).placed numbered made apart placed

/-- The calls of `with_mut` that took effect have one serial order.  It has every call that
returned its closure's outcome, once, and none that returned an error; a call in it that has
not returned is under way or was dropped after its PUT. -/
theorem withMut_linearizable {state : Parties.Global (World D β E) (Task D β E)}
    (reached : Reachable start state) :
    ∃ order, Linearizes Call.update ((tasks E start).world.document codec) state.world.history order ∧
      state.world.document codec =
        replay Call.update ((tasks E start).world.document codec) order :=
  ⟨_,(reachable_serial reached).1.linear,(reachable_serial reached).1.document⟩

end

/-! ### Two counters -/

def plainCodec : Codec Nat Nat := ⟨some, some, Eq.symm⟩

/-- The object is at version 3; the first handle has cached version 2 and the second nothing. -/
def staleHandles : Start plainCodec where
  store := { object := some ⟨5, 3⟩, versions := 4 }
  handles handle := if handle = 0 then some { data := 4, version := some 2 } else none
  issued := by
    intro object present
    cases present
    decide
  cached := by
    intro handle dv held
    split at held
    · cases held
      refine ⟨2, rfl, by decide, ?_⟩
      intro object present same
      cases present
      cases same
    · cases held

def countTwice : List (Nat × Act Nat Nat) :=
  [(0, .withMut 0 (fun count => (count, count + 1))),
    (1, .withMut 1 (fun count => (count, count + 1)))] ++
  List.replicate 5 (0, .run true) ++ List.replicate 7 (1, .run true) ++
  List.replicate 6 (0, .run true)

theorem withMut_linearizable_countTwice :
    ∃ state, Reachable (E := Nat) staleHandles state ∧
      state.world.order.map Call.id = [1, 0] ∧ state.world.document plainCodec = 7 ∧
      ∃ order, Linearizes Call.update 5 state.world.history order ∧
        7 = replay Call.update 5 order := by
  have ended : ((System.exec (tasks Nat staleHandles).system (fun _ _ => true)
      (tasks Nat staleHandles).start countTwice).map
      (fun state => (state.world.document plainCodec, state.world.order.map Call.id))) =
      some (7, [1, 0]) := by decide +kernel
  obtain ⟨state,executed,seen⟩ := Option.map_eq_some_iff.mp ended
  have reached : Reachable staleHandles state :=
    System.Reachable.init.exec (fun _ => trivial) executed
  obtain ⟨document,ids⟩ := Prod.mk.inj seen
  obtain ⟨order,linear,result⟩ := withMut_linearizable reached
  rw [document] at result
  exact ⟨state,reached,ids,document,order,linear,result⟩

end Kodansu.OptiCon

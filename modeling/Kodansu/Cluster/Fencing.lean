/-
Fenced producers.

The document holds the current epoch of a producer, but a produce is judged by what the index
of its flush shows of the partition.  A produce of an older epoch is refused only where the
index shows that a newer one has written to the partition.
-/

import Kodansu.Cluster.Numbers

namespace Kodansu.Cluster

open Lib Segment Record Producer Transaction Fetch

/-- A higher epoch was among the first that `InitProducerId` has answered. -/
def FencedSince (world : World) (since : Nat) (producerId producerEpoch : Int) : Prop :=
  ∃ issued ∈ world.history.issued.take since, issued.1 = producerId ∧ producerEpoch < issued.2

def isSequencedData (batch : Batch) : Bool := batch.isIdempotent && !batch.isControl

def FencedTask (world : World) : Task → Prop
  | .produce request | .acked request _ _ => isSequencedData request.batch = true ∧
      FencedSince world request.since request.batch.producerId request.batch.producerEpoch
  | .endTxn request | .marker request _ _ | .marked request _ _ _ | .resolve request =>
    FencedSince world request.since request.producerId request.producerEpoch
  | _ => False

def FencedAct (world : World) : Act → Prop
  | .addTxnPartitions (.versionZeroToThree _ producerId producerEpoch _) _ =>
    FencedSince world world.history.issued.length producerId producerEpoch
  | .txnOffsetCommit request =>
    FencedSince world world.history.issued.length request.producerId request.producerEpoch
  | _ => False

structure NoEffect (before after : World) : Prop where
  doc : after.doc = before.doc
  partitions : after.partitions = before.partitions
  groups : after.groups = before.groups

/-! ### The condition on a run -/

/-- A sequenced batch that a fenced producer sends comes to a flush whose index shows a higher
epoch on the partition. -/
def SeenEpoch (world : World) (task : Task) (action : Act) : Prop :=
  match task with
  | .produce request => ∀ index ∈ action.index?, isSequencedData request.batch = true →
      FencedSince world request.since request.batch.producerId request.batch.producerEpoch →
      request.batch.producerEpoch < (index.tail request.batch.producerId).epoch
  | _ => True

instance (world : World) (since : Nat) (producerId producerEpoch : Int) :
    Decidable (FencedSince world since producerId producerEpoch) :=
  inferInstanceAs (Decidable (∃ issued ∈ world.history.issued.take since, _))

instance (world : World) (task : Task) : Decidable (FencedTask world task) := by
  unfold FencedTask
  split <;> infer_instance

instance (world : World) (task : Task) (action : Act) : Decidable (SeenEpoch world task action) := by
  unfold SeenEpoch
  split <;> infer_instance

/-! ### The invariant -/

/-- What `InitProducerId` has answered is in the document, and a producer id is the one of a
single transactional id. -/
structure Epochs (world : World) : Prop where
  owned : world.doc.Owned
  issued : ∀ issued ∈ world.history.issued, ∃ transactionId,
    world.doc.producer? transactionId = some issued.1 ∧
      (world.doc.detail? (transactionId, issued.2)).isSome

def Unfenced (world : World) : Task → Prop
  | .produce request => request.since ≤ world.history.issued.length
  | .acked request _ _ => request.since ≤ world.history.issued.length ∧
      ¬ (isSequencedData request.batch = true ∧
        FencedSince world request.since request.batch.producerId request.batch.producerEpoch)
  | .endTxn request => request.since ≤ world.history.issued.length
  | .marker request _ _ | .marked request _ _ _ | .resolve request =>
    request.since ≤ world.history.issued.length ∧
      ¬ FencedSince world request.since request.producerId request.producerEpoch
  | _ => True

variable {w : World} {txn : String} {producerId producerEpoch : Int} {detail : TxnDetail}
  {since : Nat}

lemma Epochs.refuses (epochs : Epochs w)
    (current : w.doc.currentDetail txn producerId producerEpoch = .ok detail) :
    ¬ FencedSince w since producerId producerEpoch := by
  intro ⟨issued,mem,isProducer,higher⟩
  obtain ⟨owner,owns,present⟩ := epochs.issued issued (List.mem_of_mem_take mem)
  rw [isProducer] at owns
  have same := epochs.owned.unique owner txn producerId owns
    (Meta.producer?_of_currentDetail current)
  rw [same] at present
  have bound := Meta.le_of_currentDetail current present
  omega

lemma classify_fenced {index : Folded} {batch : Batch} (sequenced : isSequencedData batch = true)
    (seen : batch.producerEpoch < (index.tail batch.producerId).epoch) :
    index.classify batch = .fenced := by
  have idempotent : batch.isIdempotent = true := (Bool.and_eq_true_iff.mp sequenced).1
  rw [Folded.classify,if_pos idempotent,ProducerTail.classify,if_pos seen]

/-! ### Steps -/

variable {known : Topition → Bool} {task next : Task} {action : Act} {after : World}

lemma step_issued (step : Step known w task action after next) :
    after.history.issued = w.history.issued ∨
      ∃ txn transactionTimeoutMs pid epoch response,
        w.doc.initProducerId txn transactionTimeoutMs pid epoch =
            some (response, after.doc) ∧
          after.history.issued = w.history.issued ++ World.issuedBy response := by
  have effect : ∀ {index next}, Effect known index w task after next →
      after.history.issued = w.history.issued := by
    intro index next effect
    cases effect with
    | @resolves req =>
      obtain ⟨_,_,_,_,same⟩ :=
        foldl_settle_same req.committed (World.resolving w.doc req) w
      rw [same]
    | _ => rfl
  cases step with
  | runs ran | loses ran => exact .inl (effect ran)
  | inits result => exact .inr ⟨_,_,_,_,_,result,rfl⟩
  | @stages req =>
    obtain ⟨_,_,_,same⟩ := txnOffsetCommit_same w req
    rw [same]
    exact .inl rfl
  | _ => exact .inl rfl

lemma DocChange.owned {doc after : Meta} (change : DocChange doc after) (owned : doc.Owned) :
    after.Owned := by
  cases change with
  | same => exact owned
  | updates key change => exact owned.updateDetail key change
  | resolves res => exact owned.endTxnResolve res
  | inits res => exact owned.initProducerId res
  | initsIdempotent => exact owned.initProducerIdempotent _ _

lemma Epochs.step (epochs : Epochs w) (step : Step known w task action after next) :
    Epochs after where
  owned := (step_doc step).owned epochs.owned
  issued issued member := by
    have kept : issued ∈ w.history.issued → ∃ txn,
        after.doc.producer? txn = some issued.1 ∧
          (after.doc.detail? (txn, issued.2)).isSome := by
      intro before
      obtain ⟨txn,owns,present⟩ := epochs.issued issued before
      exact ⟨txn,(step_doc step).producer owns,(step_doc step).detail_isSome present⟩
    rcases step_issued step with same | ⟨txn,_,_,_,response,result,added⟩
    · exact kept (same ▸ member)
    · rw [added] at member
      rcases List.mem_append.mp member with before | new
      · exact kept before
      · unfold World.issuedBy at new
        split at new
        · rw [List.mem_singleton.mp new]
          exact ⟨txn,Meta.initProducerId_completed result⟩
        · cases new

section

variable (step : Step known w task action after next) (within : since ≤ w.history.issued.length)

include step within

lemma step_issued_take : since ≤ after.history.issued.length ∧
      after.history.issued.take since = w.history.issued.take since := by
  rcases step_issued step with same | ⟨_,_,_,_,response,-,added⟩
  · rw [same]
    exact ⟨within,rfl⟩
  · rw [added,List.length_append,List.take_append_of_le_length within]
    exact ⟨Nat.le_add_right_of_le within,rfl⟩

lemma fencedSince_iff (producerId producerEpoch : Int) :
    FencedSince after since producerId producerEpoch ↔
      FencedSince w since producerId producerEpoch := by
  rw [FencedSince,FencedSince,(step_issued_take step within).2]

end

variable {other : Task} {index : Folded} {state : State}

lemma Unfenced.bystander (unfenced : Unfenced w other)
    (step : Step known w task action after next) : Unfenced after other := by
  cases other with
  | produce | endTxn => exact (step_issued_take step unfenced).1
  | acked | marker | marked | resolve =>
    rw [Unfenced,fencedSince_iff step unfenced.1]
    exact ⟨(step_issued_take step unfenced.1).1,unfenced.2⟩
  | _ => trivial

lemma unfenced_of_seen {req : Produce} (seen : SeenEpoch w (.produce req) action)
    (acts : action.index? = some index) (accepted : index.classify req.batch ≠ .fenced) :
    ¬ (isSequencedData req.batch = true ∧
      FencedSince w req.since req.batch.producerId req.batch.producerEpoch) :=
  fun fenced => accepted (classify_fenced fenced.1 (seen index acts fenced.1 fenced.2))

lemma effect_unfenced (unfenced : Unfenced w task) (epochs : Epochs w)
    (seen : SeenEpoch w task action) (acts : action.index? = some index)
    (effect : Effect known index w task after next) : Unfenced after next := by
  cases effect with
  | appends admitted =>
    have earlier := unfenced_of_seen seen acts (by rw [admitted]; nofun)
    exact acked_elim trivial (fun _ => ⟨unfenced,earlier⟩)
  | repeats repeated =>
    have earlier := unfenced_of_seen seen acts (by rw [repeated]; nofun)
    exact acked_elim trivial (fun _ => ⟨unfenced,earlier⟩)
  | prepares cur =>
    exact markers_elim ⟨unfenced,epochs.refuses cur⟩
      (fun _ _ => ⟨unfenced,epochs.refuses cur⟩)
  | passes cur => exact ⟨unfenced,epochs.refuses cur⟩
  | marks => exact unfenced
  | registersMarker => exact markers_elim unfenced (fun _ _ => unfenced)
  | resolves | commitsGroup => exact commits_elim trivial trivial
  | _ => trivial

lemma step_unfenced (unfenced : Unfenced w task) (epochs : Epochs w)
    (seen : SeenEpoch w task action) (step : Step known w task action after next) :
    Unfenced after next := by
  cases step with
  | runs effect => exact effect_unfenced unfenced epochs seen rfl effect
  | produces | startsEnd => exact Nat.le_refl _
  | ignores => exact commits_elim trivial trivial
  | _ => trivial

lemma reachable_epochs (reached : Reachable known SeenEpoch state) :
    Parties.Holds Epochs Unfenced state := by
  refine Parties.invariant ⟨⟨⟨nofun,nofun⟩,nofun⟩,trivial⟩ ?_ ?_ reached
  · intro before after task next act epochs unfenced seen acted
    have step := act_step acted
    exact ⟨epochs.step step,step_unfenced unfenced epochs seen step⟩
  · intro before after task next other act _ _ unfenced _ acted
    exact unfenced.bystander (act_step acted)

lemma NoEffect.refl (world : World) : NoEffect world world := ⟨rfl,rfl,rfl⟩

lemma effect_noEffect (unfenced : Unfenced w task) (epochs : Epochs w)
    (seen : SeenEpoch w task action) (acts : action.index? = some index)
    (fenced : FencedTask w task) (effect : Effect known index w task after next) :
    NoEffect w after := by
  cases effect with
  | appends admitted =>
    exact absurd fenced (unfenced_of_seen seen acts (by rw [admitted]; nofun))
  | registers | marks | registersMarker | resolves => exact absurd fenced unfenced.2
  | prepares cur => exact absurd fenced (epochs.refuses cur)
  | commitsGroup => cases fenced
  | _ => exact .refl w

lemma step_noEffect (unfenced : Unfenced w task) (epochs : Epochs w)
    (seen : SeenEpoch w task action) (fenced : FencedTask w task)
    (step : Step known w task action after next) : NoEffect w after := by
  cases step with
  | runs effect | loses effect => exact effect_noEffect unfenced epochs seen rfl fenced effect
  | stops | ignores | bounds | reads => exact .refl w
  | _ => cases fenced

lemma start_noEffect (epochs : Epochs w) (fenced : FencedAct w action)
    (step : Step known w task action after next) : NoEffect w after := by
  cases step with
  | begins cur | stages cur => exact absurd fenced (epochs.refuses cur)
  | stops => exact .refl w
  | _ => cases fenced

/-- In every run in which the fenced produces come to flushes whose index shows the higher
epoch, no step of a fenced call has an effect. -/
theorem fenced_no_effect {state : State} {party : Nat} {action : Act} {after : World} {next : Task}
    (reached : Reachable known SeenEpoch state)
    (seen : SeenEpoch state.world (state.party party) action)
    (acted : act known state.world (state.party party) action = some (after, next))
    (fenced : FencedTask state.world (state.party party) ∨ FencedAct state.world action) :
    NoEffect state.world after := by
  obtain ⟨epochs,unfenced⟩ := reachable_epochs reached
  have step := act_step acted
  rcases fenced with isTask | isAct
  · exact step_noEffect (unfenced party) epochs seen isTask step
  · exact start_noEffect epochs isAct step

/-! ### Runs -/

def initTwice : List (Nat × Act) :=
  [ (0, .initProducerId "payer" 60000 (some (-1)) (some (-1))),
    (0, .initProducerId "payer" 60000 (some (-1)) (some (-1))) ]

def lengths (state : State) (party : Nat) (index : Folded) (topition : Topition) :
    Option (Nat × Nat) :=
  (act (fun _ => true) state.world (state.party party) (.run index)).map (fun (after, _) =>
    ((state.world.partitions topition).log.length, (after.partitions topition).log.length))

variable {s : State} {party before later : Nat} {tp : Topition}

lemma act_of_lengths (counted : lengths s party index tp = some (before, later)) :
    ∃ after next, act (fun _ => true) s.world (s.party party) (.run index) = some (after, next) ∧
      (s.world.partitions tp).log.length = before ∧
      (after.partitions tp).log.length = later := by
  obtain ⟨⟨after,next⟩,acted,same⟩ := Option.map_eq_some_iff.mp counted
  cases same
  exact ⟨after,next,acted,rfl,rfl⟩

/-- A batch of the first epoch comes to a partition that the second has not written to.  The
index of the flush shows all there is. -/
theorem fenced_batch_appended :
    ∃ state after next, Reachable (fun _ => true) Grows state ∧
      Grows state.world (state.party 1) (.run {}) ∧
      act (fun _ => true) state.world (state.party 1) (.run {}) = some (after, next) ∧
      FencedTask state.world (state.party 1) ∧ ¬ NoEffect state.world after := by
  have ended : ((cluster (fun _ => true)).ran Grows (initTwice ++
      [(1, .produce (some "payer") payments (payment 0 0))])).map
      (fun state => (decide (FencedTask state.world (state.party 1)),
        decide (Grows state.world (state.party 1) (.run {})), lengths state 1 {} payments)) =
      some (true, true, some (0, 1)) := by decide +kernel
  obtain ⟨state,reached,seen⟩ := Parties.ran_reachable ended
  simp only [Prod.mk.injEq,decide_eq_true_eq] at seen
  obtain ⟨fenced,current,counted⟩ := seen
  obtain ⟨after,next,acted,before,later⟩ := act_of_lengths counted
  refine ⟨state,after,next,reached,current,acted,fenced,fun noEffect => ?_⟩
  rw [noEffect.partitions,before] at later
  cases later

def repaid : Partition := { log := [payment 1 0] }

theorem fenced_no_effect_seen :
    ∃ state after next, Reachable (fun _ => true) SeenEpoch state ∧
      act (fun _ => true) state.world (state.party 1) (.run repaid.folded) =
        some (after, next) ∧
      FencedTask state.world (state.party 1) ∧ NoEffect state.world after := by
  have ended : ((cluster (fun _ => true)).ran SeenEpoch (initTwice ++
      [ (0, .produce (some "payer") payments (payment 1 0)), (0, .run {}),
        (1, .produce (some "payer") payments (payment 0 0)) ])).map
      (fun state => (decide (FencedTask state.world (state.party 1)),
        decide (SeenEpoch state.world (state.party 1) (.run repaid.folded)),
        lengths state 1 repaid.folded payments)) =
      some (true, true, some (1, 1)) := by decide +kernel
  obtain ⟨state,reached,seen⟩ := Parties.ran_reachable ended
  simp only [Prod.mk.injEq,decide_eq_true_eq] at seen
  obtain ⟨fenced,allowed,counted⟩ := seen
  obtain ⟨after,next,acted,-⟩ := act_of_lengths counted
  exact ⟨state,after,next,reached,acted,fenced,
    fenced_no_effect reached allowed acted (.inl fenced)⟩

end Kodansu.Cluster

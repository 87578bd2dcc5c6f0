/-
Nonces tell writers apart, and names tell segments apart as long as none is created below the
floor.
-/

import Kodansu.Leaseless.Names

namespace Kodansu.Leaseless

open Index Lib Segment Record List

/-! ### Nonces -/

def Maintain.job : Maintain → Option Job
  | .hint job | .hintFloor job _ | .put job _ | .answered job _ _ _ | .refresh job | .folded job
  | .cursor job _ | .floor job _ _ _ | .foldBelow job _ _ | .insert job _ _ => some job
  | _ => none

@[simp] lemma Maintain.job_refreshed (task : Maintain) : task.refreshed.job = task.job := by
  cases task <;> rfl

def Replica.nonces (replica : Replica) : List Nat :=
  (replica.flush.map Flush.nonce).toList ++
    ((replica.maintain.bind Maintain.job).map Job.nonce).toList

section

variable {w after : World} {r next other : Replica} {act : Act}

lemma nonces_resume (r : Replica) (owner : RefreshOwner) :
    (r.resume owner).nonces = r.nonces := by
  cases owner <;> simp only [Replica.resume,Replica.nonces,Option.map_map,Option.bind_map]
  case flush => rfl
  all_goals
    cases r.maintain with
    | none => rfl
    | some task => simp

lemma nonces_certify (r : Replica) (floor gen : Nat) :
    (r.certify floor gen).nonces = r.nonces := by
  simp [Replica.nonces]

lemma nonces_reconciled (r : Replica) (refresh : Refresh) :
    (r.reconciled refresh).nonces = r.nonces := by
  unfold Replica.reconciled
  split <;> rfl

lemma nonces_setHighs (advances : List (Topition × Int)) (r : Replica) :
    (advances.foldl (fun r (tp, high) => r.setHigh tp high)
      r).nonces = r.nonces := by
  induction advances generalizing r with
  | nil => rfl
  | cons advance rest ih => exact ih _

lemma nonces_endFlush (r : Replica) : r.endFlush.nonces.Sublist r.nonces := by
  simp [Replica.nonces,Replica.endFlush]

lemma nonces_endMaintain (r : Replica) :
    r.endMaintain.nonces.Sublist r.nonces := by
  simp [Replica.nonces,Replica.endMaintain]

variable {flush moved : Flush} {task : Maintain} {config : Config}

lemma nonces_setFlush (held : r.flush = some flush)
    (same : moved.nonce = flush.nonce) (phase : FlushPhase) :
    (r.setFlush moved phase).nonces = r.nonces := by
  simp [Replica.nonces,Replica.setFlush,held,same]

lemma nonces_setMaintain {moved : Maintain} (held : r.maintain = some task)
    (same : moved.job = none ∨ moved.job = task.job) :
    (r.setMaintain moved).nonces.Sublist r.nonces := by
  rcases same with same | same <;> simp [Replica.nonces,Replica.setMaintain,held,same]

lemma nonces_refreshFailed (r : Replica) (owner : RefreshOwner) :
    (r.refreshFailed owner).nonces.Sublist r.nonces := by
  cases owner with
  | reader => exact List.Sublist.refl _
  | flush => exact nonces_endFlush r
  | claim => exact nonces_endMaintain r
  | won seq => exact (nonces_resume r (.won seq)) ▸ List.Sublist.refl _

lemma refreshStep_nonces (step : RefreshStep w r act next) :
    next.nonces.Sublist r.nonces := by
  cases step with
  | floorProves held phase behind =>
    rw [nonces_resume,nonces_certify]
  | floorAhead held phase ahead =>
    exact (nonces_certify r _ _) ▸ List.Sublist.refl _
  | settles held phase =>
    unfold Replica.settle
    rw [nonces_resume]
    exact (nonces_reconciled r _) ▸ List.Sublist.refl _
  | fails | cancels => exact nonces_refreshFailed r _
  | _ => exact List.Sublist.refl _

def NoncesDrawn (world after : World) (replica next : Replica) : Prop :=
  (after.nonces = world.nonces ∧ next.nonces.Sublist replica.nonces) ∨
    (after.nonces = world.nonces + 1 ∧ next.nonces.Perm (world.nonces :: replica.nonces))

lemma flushStep_nonces (step : FlushStep config w r act after next) :
    NoncesDrawn w after r next := by
  have kept : ∀ {moved : Replica}, moved.nonces = r.nonces →
      moved.nonces.Sublist r.nonces := fun same => same ▸ List.Sublist.refl _
  cases step with
  | begins idle =>
    refine Or.inr ⟨rfl,?_⟩
    simp [Replica.nonces,idle]
  | ends | answers => exact .inl ⟨rfl,nonces_endFlush r⟩
  | wins held phase mine =>
    refine Or.inl ⟨rfl,?_⟩
    exact (nonces_endFlush _).trans (kept (nonces_setHighs _ _))
  | derives held phase =>
    refine Or.inl ⟨rfl,kept ?_⟩
    rw [Replica.setBasing,nonces_setFlush (by simpa using held) rfl,nonces_certify]
  | folds held phase isPeer isLive =>
    refine Or.inl ⟨rfl,kept ?_⟩
    simp [Replica.nonces,Replica.setFlush,Replica.insertSegment,held]
  | awaits held | loses held =>
    refine Or.inl ⟨rfl,kept ?_⟩
    simp [Replica.nonces,Replica.setFlush,held]
  | takesCursor held | certified held | readsFloor held | takesTail held | bases held | readies held
  | creates held | misses held => exact .inl ⟨rfl,kept (nonces_setFlush held rfl _)⟩

lemma nonces_jobWon {job : Job} (held : r.maintain = some task)
    (isJob : task.job = some job) (seq : Nat) (footer : SegmentFooter) :
    (r.jobWon job seq footer).nonces = r.nonces := by
  unfold Replica.jobWon
  simp only
  have same : ∀ moved : Maintain, moved.job = some job →
      ((r.setSeq (seq + 1)).setMaintain moved).nonces = r.nonces := by
    intro moved isMoved
    simp [Replica.nonces,Replica.setMaintain,Replica.setSeq,held,isJob,isMoved]
  split
  · exact same _ rfl
  · exact same _ rfl

lemma maintainStep_nonces (step : MaintainStep config w r act after next) :
    NoncesDrawn w after r next := by
  cases step with
  | ends | halts | retireLost | deleteLost
  | prunes => exact .inl ⟨rfl,nonces_endMaintain r⟩
  | expires | drops =>
    exact .inl ⟨rfl,by simp [Replica.nonces,Replica.setMaintain,Maintain.job]⟩
  | merges idle known pinned =>
    refine Or.inr ⟨rfl,?_⟩
    simp [Replica.nonces,Replica.setMaintain,Maintain.job,idle,perm_append_singleton]
  | floorsDone held | floorsSkip held | floorsTake held | floorRaised held | floorFailed held
  | retires held | deletes held
  | inserts held => exact .inl ⟨rfl,nonces_setMaintain held (.inl rfl)⟩
  | wins held mine => exact .inl ⟨rfl,nonces_jobWon held rfl _ _ ▸ List.Sublist.refl _⟩
  | derives held =>
    refine Or.inl ⟨rfl,?_⟩
    simp [Replica.nonces,Replica.setMaintain,held,Maintain.job]
  | hints held | hintFloors held | creates held | misses held | loses held | takesCursor held
  | certified held | readsFloor held => exact .inl ⟨rfl,nonces_setMaintain held (.inr rfl)⟩

lemma step_nonces (step : Step config w r act after next) :
    NoncesDrawn w after r next := by
  cases step with
  | refresh step => exact .inl ⟨rfl,refreshStep_nonces step⟩
  | flush step => exact flushStep_nonces step
  | maintain step => exact maintainStep_nonces step
  | read step => exact .inl ⟨rfl,by cases step <;> exact Sublist.refl _⟩
  | restart => exact .inl ⟨rfl,nil_sublist _⟩

structure Drawn (world : World) (replica : Replica) : Prop where
  below : ∀ nonce ∈ replica.nonces, nonce < world.nonces
  distinct : replica.nonces.Nodup

lemma Drawn.step (drawn : Drawn w r)
    (step : Step config w r act after next) : Drawn after next := by
  rcases step_nonces step with ⟨same,kept⟩ | ⟨more,drew⟩
  · refine ⟨fun nonce mem => ?_,drawn.distinct.sublist kept⟩
    rw [same]
    exact drawn.below nonce (kept.subset mem)
  · constructor
    · intro nonce mem
      rcases mem_cons.mp (drew.mem_iff.mp mem) with rfl | earlier
      · omega
      · have bound := drawn.below nonce earlier
        omega
    · refine drew.nodup_iff.mpr (nodup_cons.mpr ⟨fun mem => ?_,drawn.distinct⟩)
      exact absurd (drawn.below _ mem) (lt_irrefl _)

def NoncesApart (left right : Replica) : Prop := left.nonces.Disjoint right.nonces

lemma NoncesApart.step (disjoint : NoncesApart r other) (otherDrawn : Drawn w other)
    (step : Step config w r act after next) : NoncesApart next other := by
  rcases step_nonces step with ⟨-,kept⟩ | ⟨-,drew⟩
  · exact fun nonce mem => disjoint (kept.subset mem)
  · intro nonce mem
    rcases mem_cons.mp (drew.mem_iff.mp mem) with rfl | earlier
    · exact fun inOther => absurd (otherDrawn.below _ inOther) (lt_irrefl _)
    · exact disjoint earlier

lemma nonces_le (step : Step config w r act after next) :
    w.nonces ≤ after.nonces := by
  rcases step_nonces step with ⟨same,-⟩ | ⟨more,-⟩
  · exact same.ge
  · omega

lemma drawn_init (w : World) : Drawn w {} := ⟨nofun,nodup_nil⟩

lemma nonces_known {guard : World → Replica → Act → Prop} :
    Parties.Known (replicas config) guard (fun _ => True) Drawn NoncesApart := by
  have drawn : Parties.Known (replicas config) guard (fun _ => True) Drawn (fun _ _ => True) := by
    intro s reached
    refine ⟨Parties.invariant ⟨trivial,drawn_init _⟩ ?_ ?_ reached,fun _ _ _ => trivial⟩
    · intro before after party next act _ drawn _ acted
      exact ⟨trivial,drawn.step (act_step acted)⟩
    · intro before after party next other act _ _ otherDrawn _ acted
      refine ⟨fun nonce mem => ?_,otherDrawn.distinct⟩
      exact lt_of_lt_of_le (otherDrawn.below nonce mem) (nonces_le (act_step acted))
  intro s reached
  refine ⟨(drawn s reached).1,Parties.apart drawn ?_ ?_ ?_ reached⟩
  · exact fun disjoint _ inRight inLeft => disjoint inLeft inRight
  · exact fun _ mem => by cases mem
  · intro before after party next other act _ _ otherDrawn _ disjoint acted
    exact disjoint.step otherDrawn (act_step acted)

/-! ### Names at or above the floor -/

/-- A PUT that would create a segment is for a name at or above the floor. -/
def World.admits (world : World) (candidate : Nat) (response : Response) : Bool :=
  response = .failed || world.isLive candidate || world.floor ≤ candidate

def freshName (world : World) (replica : Replica) : Act → Bool
  | .flush response => match replica.flush.map Flush.phase with
      | some (.put candidate _) => world.admits candidate response
      | _ => true
  | .maintain response => match replica.maintain with
      | some (.put _ candidate) => world.admits candidate response
      | _ => true
  | _ => true

variable {candidate : Nat} {resp : Response}

lemma admits_next (names : Names w)
    (within : candidate ≤ w.next) (free : w.isLive candidate = false)
    (effective : resp ≠ .failed) (admitted : w.admits candidate resp = true) :
    candidate = w.next := by
  simp only [World.admits,effective,decide_false,free,Bool.or_false,Bool.false_or,
    decide_eq_true_eq] at admitted
  by_contra differs
  have created := names.contiguous candidate (lt_of_le_of_ne within differs)
  exact absurd (names.dead candidate created free) (not_lt.mpr admitted)

/-- What a step does to the world when it creates no segment below the floor. -/
inductive Turn (world : World) (replica : Replica) : World → Prop
  | quiet (nonces : Nat) (acks : List Ack) : Turn world replica { world with nonces, acks }
  | create (record : Created) (isNext : record.seq = world.next)
      (own : record.footer.nonce ∈ replica.nonces) : Turn world replica (world.create record)
  | delete (seq : Nat) : Turn world replica (world.delete seq)
  | raiseSeqFloor (floor : Nat) : Turn world replica (world.raiseSeqFloor floor)
  | raiseHigh (topition : Topition) (tail : Int) :
      Turn world replica (world.raiseHigh topition tail)

lemma Turn.still (world : World) (r : Replica) : Turn world r world :=
  Turn.quiet world.nonces world.acks

section

variable (names : Names w) (bound : Bounded w.next w.floor r)
  (fresh : freshName w r act = true)

include names bound fresh

lemma flushStep_turn (step : FlushStep config w r act after next) :
    Turn w r after := by
  cases step with
  | begins | answers | wins => exact Turn.quiet _ _
  | creates held phase encoded free effective isAnswer =>
    simp only [freshName,held,Option.map_some,phase] at fresh
    refine Turn.create _ ?_ ?_
    · exact admits_next names (bound.flushAt held phase) free effective fresh
    · simp [Replica.nonces,held,(encodeSegmentIndexed_ok encoded).2.1]
  | _ => exact Turn.still w r

lemma maintainStep_turn (step : MaintainStep config w r act after next) :
    Turn w r after := by
  cases step with
  | merges idle known pinned => exact Turn.quiet _ _
  | floorRaised held => exact Turn.raiseHigh _ _
  | retires | retireLost => exact Turn.raiseSeqFloor _
  | deletes | deleteLost => exact Turn.delete _
  | creates held encoded free effective isAnswer =>
    simp only [freshName,held] at fresh
    refine Turn.create _ ?_ ?_
    · exact admits_next names (bound.maintain _ held).2 free effective fresh
    · simp [Replica.nonces,held,Maintain.job,(encodeSegmentIndexed_ok encoded).2.1]
  | _ => exact Turn.still w r

lemma step_turn (step : Step config w r act after next) :
    Turn w r after := by
  cases step with
  | refresh | read | restart => exact Turn.still w r
  | flush step => exact flushStep_turn names bound fresh step
  | maintain step => exact maintainStep_turn names bound fresh step

end

namespace Turn

variable (turn : Turn w r after)

include turn

lemma created_subset : ∀ record ∈ w.created, record ∈ after.created := by
  cases turn with
  | create record => exact fun earlier mem => mem_append_left _ mem
  | _ => exact fun _ mem => mem

lemma created_inv : ∀ record ∈ after.created,
    record ∈ w.created ∨ record.footer.nonce ∈ r.nonces := by
  cases turn with
  | create created isNext own =>
    intro record mem
    rcases mem_append.mp mem with earlier | last
    · exact .inl earlier
    · exact .inr (mem_singleton.mp last ▸ own)
  | _ => exact fun _ mem => .inl mem

lemma next_le : w.next ≤ after.next := by
  cases turn with
  | create record => rw [World.next_create]; exact le_max_left _ _
  | _ => exact le_refl _

lemma undecodable : after.undecodable = w.undecodable := by
  cases turn <;> rfl

variable {seq : Nat} {footer : SegmentFooter}

lemma live_of_live (below : seq < w.next)
    (isLive : after.live.get? seq = some footer) : w.live.get? seq = some footer := by
  cases turn with
  | create record isNext =>
    simp only [World.create] at isLive
    rwa [OrderedMap.get?_insert_ne _ _ (by omega)] at isLive
  | delete deleted =>
    simp only [World.delete,OrderedMap.get?_retain] at isLive
    split at isLive
    · exact isLive
    · cases isLive
  | _ => exact isLive

end Turn

end

end Kodansu.Leaseless

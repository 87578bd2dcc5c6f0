/-
The byte budget that the partition reads of one fetch request share.

Each read claims a part of what remains, fetches within that claim and settles the difference, as
often as its log goes on.  The reads of a request run side by side, so their claims and settlements
interleave in any order.
-/

import Kodansu.Lib.Transition

namespace Kodansu.Fetch

open Lib List

structure Budget where
  remaining : Nat
  readers : Nat

namespace Budget

def new (maxBytes readers : Nat) : Budget := ⟨maxBytes,max readers 1⟩

/-- What a read that wants so much may take. -/
def allowance (budget : Budget) (want : Nat) : Nat :=
  let share := max (budget.remaining / budget.readers) 1
  min (min want share) budget.remaining

def claim (budget : Budget) (want : Nat) : Option (Nat × Budget) :=
  let claimed := budget.allowance want
  if 0 < claimed then some (claimed,{ budget with remaining := budget.remaining - claimed }) else none

def settle (budget : Budget) (claimed spent : Nat) : Budget :=
  match compare spent claimed with
  | .lt => { budget with remaining := budget.remaining + (claimed - spent) }
  | .gt => { budget with remaining := budget.remaining - (spent - claimed) }
  | .eq => budget

end Budget

/-- A fetched batch, with the offset that follows it. -/
structure FetchedBatch where
  size : Nat
  next : Int
deriving DecidableEq

def byteSize (batches : List FetchedBatch) : Nat := (batches.map FetchedBatch.size).sum

structure PartitionRead where
  partitionMaxBytes : Nat
  offset : Int
  batches : List FetchedBatch := []
  claimed : Option Nat := none
  ended : Bool := false

/-- The read goes on only while its offset moves. -/
def PartitionRead.append (read : PartitionRead) (fetched : List FetchedBatch) : PartitionRead :=
  let next := fetched.foldl (fun next batch => max next batch.next) read.offset
  { read with
    offset := next
    batches := read.batches ++ fetched
    claimed := none
    ended := next ≤ read.offset }

structure FetchState where
  budget : Budget
  read : Nat → PartitionRead

inductive FetchAction
  | claim (partition : Nat)
  | fetched (partition : Nat) (batches : List FetchedBatch)
  | failed (partition : Nat)

def FetchAction.partition : FetchAction → Nat
  | .claim partition | .fetched partition _ | .failed partition => partition

def FetchState.set (state : FetchState) (partition : Nat) (budget : Budget) (read : PartitionRead) :
    FetchState :=
  ⟨budget,Function.update state.read partition read⟩

def fetchStep (state : FetchState) : FetchAction → Option FetchState
  | .claim partition =>
    let read := state.read partition
    if read.ended ∨ read.claimed.isSome then none
    else
      match state.budget.claim read.partitionMaxBytes with
      | some (claimed,budget) => some (state.set partition budget { read with claimed := some claimed })
      | none => some (state.set partition state.budget { read with ended := true })
  | .fetched partition batches => do
    let read := state.read partition
    let claimed ← read.claimed
    -- A size that does not fit a word ends the read with an error and no batches.
    if 2 ^ 32 ≤ byteSize batches then
      return state.set partition state.budget { read with batches := [], claimed := none, ended := true }
    return state.set partition (state.budget.settle claimed (byteSize batches)) (read.append batches)
  | .failed partition => do
    let read := state.read partition
    let claimed ← read.claimed
    return state.set partition (state.budget.settle claimed 0) { read with claimed := none, ended := true }

def fetchSystem (maxBytes readers : Nat) (partitions : Nat → Nat × Int) : System FetchState FetchAction where
  init := ⟨.new maxBytes readers,fun partition => ⟨(partitions partition).1,(partitions partition).2,[],none,false⟩⟩
  step := fetchStep

/-- A fetch exceeds the limit it is given by at most its last batch. -/
def WithinLimit (state : FetchState) : FetchAction → Prop
  | .fetched partition batches =>
    ∀ claimed ∈ (state.read partition).claimed, byteSize batches.dropLast ≤ claimed
  | _ => True

/-- A read that has batches gets more of them only by a claim that its cap still has room for. -/
def WithinCap (state : FetchState) : FetchAction → Prop
  | .fetched partition batches => batches = [] ∨ (state.read partition).batches = [] ∨
      ∀ claimed ∈ (state.read partition).claimed,
        byteSize (state.read partition).batches + claimed ≤ (state.read partition).partitionMaxBytes
  | _ => True

def FetchAllowed (state : FetchState) (action : FetchAction) : Prop :=
  WithinLimit state action ∧ WithinCap state action

instance (state : FetchState) (action : FetchAction) : Decidable (WithinLimit state action) :=
  match action with
  | .fetched .. => inferInstanceAs (Decidable (∀ claimed ∈ (state.read _).claimed, _))
  | .claim _ | .failed _ => isTrue trivial

instance (state : FetchState) (action : FetchAction) : Decidable (WithinCap state action) :=
  match action with
  | .fetched partition batches => inferInstanceAs (Decidable (batches = [] ∨
      (state.read partition).batches = [] ∨ ∀ claimed ∈ (state.read partition).claimed, _))
  | .claim _ | .failed _ => isTrue trivial

instance (state : FetchState) (action : FetchAction) : Decidable (FetchAllowed state action) :=
  inferInstanceAs (Decidable (_ ∧ _))

/-! ### The budget -/

namespace Budget

variable {budget after : Budget} {want claimed : Nat}

lemma claim_some (taken : budget.claim want = some (claimed, after)) :
    claimed ≤ want ∧ claimed + after.remaining = budget.remaining := by
  unfold claim at taken
  simp only at taken
  split at taken <;> cases taken
  have wanted : budget.allowance want ≤ want :=
    le_trans (Nat.min_le_left _ _) (Nat.min_le_left _ _)
  have left : budget.allowance want ≤ budget.remaining := Nat.min_le_right _ _
  exact ⟨wanted,by simp only; omega⟩

lemma settle_remaining (budget : Budget) (claimed spent : Nat) :
    (budget.settle claimed spent).remaining = budget.remaining + claimed - spent := by
  unfold settle
  split
  · next isLess =>
    have less := Nat.compare_eq_lt.mp isLess
    simp only
    omega
  · next isGreater =>
    have greater := Nat.compare_eq_gt.mp isGreater
    simp only
    omega
  · next isEqual =>
    have equal := Nat.compare_eq_eq.mp isEqual
    omega

end Budget

/-! ### Steps -/

/-- What a step does to the read it is about, and to the budget. -/
inductive Reads (budget : Budget) (read : PartitionRead) :
    FetchAction → Budget → PartitionRead → Prop
  | claims {partition claimed : Nat} {left : Budget} (unclaimed : read.claimed = none)
      (taken : budget.claim read.partitionMaxBytes = some (claimed, left)) :
      Reads budget read (.claim partition) left { read with claimed := some claimed }
  | spent {partition : Nat} (unclaimed : read.claimed = none) :
      Reads budget read (.claim partition) budget { read with ended := true }
  | oversized {partition : Nat} {batches : List FetchedBatch} :
      Reads budget read (.fetched partition batches) budget
        { read with batches := [], claimed := none, ended := true }
  | fetches {partition claimed : Nat} {batches : List FetchedBatch}
      (isClaimed : read.claimed = some claimed) :
      Reads budget read (.fetched partition batches) (budget.settle claimed (byteSize batches))
        (read.append batches)
  | fails {partition claimed : Nat} (isClaimed : read.claimed = some claimed) :
      Reads budget read (.failed partition) (budget.settle claimed 0)
        { read with claimed := none, ended := true }

lemma fetchStep_reads {before after : FetchState} {action : FetchAction}
    (moved : fetchStep before action = some after) :
    ∃ budget read, Reads before.budget (before.read action.partition) action budget read ∧
      after = before.set action.partition budget read := by
  cases action with
  | claim partition =>
    unfold fetchStep at moved
    dsimp only at moved
    split at moved
    · cases moved
    · rename_i free
      have unclaimed : (before.read partition).claimed = none := by
        simpa using fun isSome => free (.inr isSome)
      split at moved <;> cases moved
      · rename_i taken
        exact ⟨_,_,.claims unclaimed taken,rfl⟩
      · exact ⟨_,_,.spent unclaimed,rfl⟩
  | fetched partition batches =>
    obtain ⟨claimed,isClaimed,moved⟩ := Option.bind_eq_some_iff.mp moved
    split at moved <;> cases moved
    · exact ⟨_,_,.oversized,rfl⟩
    · exact ⟨_,_,.fetches isClaimed,rfl⟩
  | failed partition =>
    obtain ⟨claimed,isClaimed,moved⟩ := Option.bind_eq_some_iff.mp moved
    cases moved
    exact ⟨_,_,.fails isClaimed,rfl⟩

/-! ### Within the cap -/

lemma byteSize_append (left right : List FetchedBatch) :
    byteSize (left ++ right) = byteSize left + byteSize right := by
  simp [byteSize]

namespace PartitionRead

def Kept (read : PartitionRead) : Prop :=
  byteSize read.batches ≤ read.partitionMaxBytes ∨
    ∃ batch ∈ read.batches, byteSize read.batches ≤ read.partitionMaxBytes + batch.size

def Sound (read : PartitionRead) : Prop :=
  read.Kept ∧ ∀ claimed ∈ read.claimed, claimed ≤ read.partitionMaxBytes

lemma kept_append {read : PartitionRead} {batches : List FetchedBatch} {claimed : Nat}
    (kept : read.Kept) (within : byteSize batches.dropLast ≤ claimed)
    (room : batches = [] ∨ byteSize read.batches + claimed ≤ read.partitionMaxBytes) :
    (read.append batches).Kept := by
  rcases eq_nil_or_concat batches with rfl | ⟨front,last,rfl⟩
  · simpa only [Kept,append,append_nil] using kept
  · have fits := room.resolve_left (by simp)
    refine .inr ⟨last,by simp [append],?_⟩
    rw [concat_eq_append,dropLast_concat] at within
    simp only [append,concat_eq_append,byteSize_append] at fits within ⊢
    simp only [byteSize,map_cons,map_nil,sum_cons,sum_nil]
    simp only [byteSize] at fits within
    omega

lemma Sound.reads {read next : PartitionRead} {budget left : Budget} {action : FetchAction}
    {state : FetchState} (sound : Sound read) (isRead : state.read action.partition = read)
    (allowed : FetchAllowed state action) (reads : Reads budget read action left next) :
    Sound next := by
  obtain ⟨kept,bounded⟩ := sound
  cases reads with
  | claims _ taken =>
    refine ⟨kept,?_⟩
    rintro _ ⟨⟩
    exact (Budget.claim_some taken).1
  | spent => exact ⟨kept,bounded⟩
  | oversized => exact ⟨.inl (Nat.zero_le _),fun _ impossible => nomatch impossible⟩
  | @fetches partition claimed batches isClaimed =>
    obtain ⟨limit,cap⟩ := allowed
    simp only [WithinLimit,WithinCap,FetchAction.partition] at limit cap isRead
    rw [isRead] at limit cap
    refine ⟨kept_append kept (limit claimed isClaimed) ?_,fun _ impossible => nomatch impossible⟩
    rcases cap with empty | first | room
    · exact .inl empty
    · -- the first claim of a read is within the cap as it is
      rw [first]
      exact .inr (by simpa [byteSize] using bounded claimed isClaimed)
    · exact .inr (room claimed isClaimed)
  | fails => exact ⟨kept,fun _ impossible => nomatch impossible⟩

end PartitionRead

def FetchState.Sound (state : FetchState) : Prop :=
  ∀ partition, (state.read partition).Sound

/-- What the read has and has claimed, and what remains, were the request's to begin with; unless
the budget is overdrawn, and then the read has no claim and nothing remains. -/
def Spends (maxBytes : Nat) (budget : Budget) (read : PartitionRead) : Prop :=
  byteSize read.batches + read.claimed.getD 0 + budget.remaining ≤ maxBytes ∨
    budget.remaining = 0 ∧ read.claimed = none

/-- What holds of the one partition of a request. -/
structure SpendsAlone (maxBytes cap : Nat) (state : FetchState) : Prop where
  spends : Spends maxBytes state.budget (state.read 0)
  isCap : (state.read 0).partitionMaxBytes = cap
  sound : (state.read 0).Sound

lemma Spends.reads {maxBytes : Nat} {budget left : Budget} {read next : PartitionRead}
    {action : FetchAction} (spends : Spends maxBytes budget read)
    (reads : Reads budget read action left next) : Spends maxBytes left next := by
  unfold Spends at spends ⊢
  cases reads with
  | claims unclaimed taken =>
    have total := (Budget.claim_some taken).2
    simp only [unclaimed,Option.getD_none,Option.getD_some] at spends ⊢
    rcases spends with within | ⟨empty,-⟩
    · exact .inl (by omega)
    · unfold Budget.claim Budget.allowance at taken
      simp [empty] at taken
  | spent => exact spends
  | oversized =>
    simp only [Option.getD_none]
    rcases spends with within | ⟨empty,-⟩
    · exact .inl (by simp only [byteSize,map_nil,sum_nil]; omega)
    · exact .inr ⟨empty,trivial⟩
  | @fetches _ claimed batches isClaimed =>
    rw [isClaimed] at spends
    have within := spends.resolve_right (by simp)
    rw [Budget.settle_remaining]
    simp only [PartitionRead.append,byteSize_append,Option.getD_none,Option.getD_some] at within ⊢
    rcases le_total (byteSize batches) (budget.remaining + claimed) with covered | overdrawn
    · exact .inl (by omega)
    · exact .inr ⟨by omega,trivial⟩
  | @fails _ claimed isClaimed =>
    rw [isClaimed] at spends
    have within := spends.resolve_right (by simp)
    rw [Budget.settle_remaining]
    simp only [Option.getD_none,Option.getD_some] at within ⊢
    omega

/-- A request of one partition with no more bytes than the partition's cap keeps the cap,
whatever the log holds. -/
theorem single_partition_allowance {maxBytes readers : Nat} {partitions : Nat → Nat × Int}
    {state : FetchState} (capped : maxBytes ≤ (partitions 0).1)
    (reached : (fetchSystem maxBytes readers partitions).Reachable
      (fun state action => action.partition = 0 ∧ WithinLimit state action) state) :
    (state.read 0).Kept := by
  have holds : SpendsAlone maxBytes (partitions 0).1 state := by
    apply reached.invariant
    · exact ⟨.inl (by simp [fetchSystem,Budget.new,byteSize]),rfl,.inl (Nat.zero_le _),
        fun _ impossible => nomatch impossible⟩
    · intro before after action ⟨spends,isCap,sound⟩ ⟨own,limit⟩ moved
      obtain ⟨budget,read,reads,rfl⟩ := fetchStep_reads moved
      rw [own] at reads
      simp only [own,FetchState.set]
      refine ⟨spends.reads reads,?_,sound.reads (own ▸ rfl) ⟨limit,?_⟩ reads⟩
      · cases reads <;> exact isCap
      · cases action with
        | fetched partition batches =>
          subst own
          refine .inr (.inr fun claimed isClaimed => ?_)
          rw [Option.mem_def] at isClaimed
          rw [Spends,isClaimed] at spends
          have within := spends.resolve_right (by simp)
          rw [Option.getD_some] at within
          omega
        | _ => trivial
  exact holds.sound.1

/-! ### Runs -/

/-- Two reads that share 140 bytes, to their ends.  The first has batches of 69 bytes, claims 18
more and gets a batch of 50: it ends past its cap of 100, by less than that batch. -/
def overlapping : List FetchAction :=
  [ .claim 0, .claim 1, .fetched 0 [⟨30, 1⟩, ⟨39, 2⟩], .claim 0, .fetched 1 [⟨20, 1⟩, ⟨15, 2⟩],
    .fetched 0 [⟨50, 3⟩], .claim 1, .claim 0 ]

/-- A batch of 69 bytes within 70, and another one by the byte that is left. -/
theorem single_partition_allowance_last : ∃ state : FetchState,
    (state.read 0).ended = true ∧ byteSize (state.read 0).batches = 138 ∧
      (state.read 0).Kept := by
  have ended : (System.exec (fetchSystem 70 1 fun _ => (70,0))
      (fun state action => action.partition = 0 ∧ WithinLimit state action)
      (fetchSystem 70 1 fun _ => (70,0)).init
      [.claim 0, .fetched 0 [⟨69, 1⟩], .claim 0, .fetched 0 [⟨69, 2⟩], .claim 0]).map
      (fun state => ((state.read 0).ended, byteSize (state.read 0).batches)) =
      some (true, 138) := by decide +kernel
  obtain ⟨state,reached,seen⟩ := System.Reachable.observed of_decide_eq_true ended
  obtain ⟨isEnded,total⟩ := Prod.mk.inj seen
  exact ⟨state,isEnded,total,single_partition_allowance (le_refl 70) reached⟩

end Kodansu.Fetch

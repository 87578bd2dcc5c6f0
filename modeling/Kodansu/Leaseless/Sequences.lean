/-
The tail of a producer as a fold of the log's coordinates.

Only the coordinates at the greatest epoch count, and of those the newest and the last few.  So
an entry can be pruned on its own, whatever was folded before it or will be after it, and batches
that are sent in order are admitted and their resends recognised, except at the wrap: the last
sequence of a batch wraps in 32 bits, the next base sequence of a client in 31.
-/

import Kodansu.Leaseless.Flush

namespace Kodansu.Leaseless

open Segment Record Producer List

section

variable {α β : Type} {count : Nat} (front back : List α)

lemma map_rtake (f : α → β) : (front.map f).rtake count = (front.rtake count).map f := by
  rw [rtake,rtake,map_drop,length_map]

lemma rtake_append_rtake :
    (front.rtake count ++ back).rtake count = (front ++ back).rtake count := by
  simp [rtake_eq_reverse_take_reverse,take_append,take_take]

lemma rtake_append_rtake_right :
    (front ++ back.rtake count).rtake count = (front ++ back).rtake count := by
  have rest : count - min count back.length = count - back.length := by omega
  simp [rtake_eq_reverse_take_reverse,take_append,take_take,rest]

end

/-! ### Folding -/

/-- A coordinate and its offset in the log. -/
abbrev Placed := ProducerCoord × Int

def foldPlaced (tail : ProducerTail) (placed : Placed) : ProducerTail :=
  tail.fold placed.1.producerEpoch placed.1.baseSequence placed.1.lastSequence placed.2

def slot (placed : Placed) : Int × Int := (placed.1.baseSequence, placed.2)

section

variable {tail : ProducerTail} {log : List Placed} {last : Placed} {epoch : Int}

lemma foldPlaced_stale {placed : Placed} (stale : placed.1.producerEpoch < tail.epoch) :
    foldPlaced tail placed = tail := if_pos stale

lemma foldPlaced_foldPlaced {placed : Placed}
    (raised : placed.1.producerEpoch < last.1.producerEpoch) :
    foldPlaced (foldPlaced tail placed) last = foldPlaced tail last := by
  by_cases stale : placed.1.producerEpoch < tail.epoch
  · rw [foldPlaced_stale stale]
  · have lower : tail.epoch < last.1.producerEpoch := lt_of_le_of_lt (not_lt.mp stale) raised
    simp [foldPlaced,ProducerTail.fold,stale,raised,lower,not_lt_of_gt raised,not_lt_of_gt lower]

/-- Coordinates below the greatest epoch leave no trace. -/
lemma foldl_top (below : ∀ placed ∈ log, placed.1.producerEpoch ≤ epoch)
    (there : epoch ≤ tail.epoch ∨ ∃ placed ∈ log, placed.1.producerEpoch = epoch) :
    (log.filter (·.1.producerEpoch = epoch)).foldl foldPlaced tail = log.foldl foldPlaced tail := by
  induction log generalizing tail with
  | nil => rfl
  | cons first log ih =>
    obtain ⟨atMost,rest⟩ := forall_mem_cons.mp below
    rw [foldl_cons,filter_cons]
    split
    · rename_i same
      rw [foldl_cons,ih rest (Or.inl _)]
      unfold foldPlaced ProducerTail.fold
      grind
    · rename_i lower
      have lower : first.1.producerEpoch < epoch := lt_of_le_of_ne atMost (by simpa using lower)
      by_cases reached : epoch ≤ tail.epoch
      · rw [foldPlaced_stale (lt_of_lt_of_le lower reached),ih rest (Or.inl reached)]
      · have later : ∃ placed ∈ log, placed.1.producerEpoch = epoch := by grind
        rw [← ih rest (Or.inr later)]
        cases isTop : log.filter (·.1.producerEpoch = epoch) with
        | nil => grind
        | cons next others =>
          have isNext : next ∈ log.filter (·.1.producerEpoch = epoch) := isTop ▸ (.head _)
          rw [foldl_cons,foldl_cons,foldPlaced_foldPlaced (by grind)]

lemma foldl_stale (stale : ∀ placed ∈ log, placed.1.producerEpoch < tail.epoch) :
    log.foldl foldPlaced tail = tail := by
  induction log with
  | nil => rfl
  | cons first log ih =>
    obtain ⟨isStale,rest⟩ := forall_mem_cons.mp stale
    rw [foldl_cons,foldPlaced_stale isStale,ih rest]

variable (bound : tail.window.length ≤ idempotentWindow)

include bound

lemma foldPlaced_current {placed : Placed} (current : tail.epoch ≤ placed.1.producerEpoch) :
    foldPlaced tail placed =
      { epoch := placed.1.producerEpoch
        seen := true
        nextSequence := ProducerTail.seqIncrement placed.1.lastSequence
        window := ((if tail.epoch = placed.1.producerEpoch then tail.window else []) ++
          [slot placed]).rtake idempotentWindow } := by
  unfold foldPlaced ProducerTail.fold idempotentWindow at *
  rw [if_neg (not_lt.mpr current),rtake_concat_succ]
  by_cases same : tail.epoch = placed.1.producerEpoch
  · simp only [same,lt_irrefl,if_false,if_true]
    unfold rtake slot
    split
    · rename_i full
      rw [full]
    · rw [Nat.sub_eq_zero_of_le (by omega),drop_zero]
  · have raised : placed.1.producerEpoch > tail.epoch := lt_of_le_of_ne current same
    simp [same,raised,slot]

lemma foldPlaced_bounded {placed : Placed} :
    (foldPlaced tail placed).window.length ≤ idempotentWindow := by
  by_cases stale : placed.1.producerEpoch < tail.epoch
  · rw [foldPlaced_stale stale]
    exact bound
  · rw [foldPlaced_current bound (not_lt.mp stale),rtake,length_drop]
    omega

/-- The tail after coordinates of one epoch that is not behind. -/
lemma foldl_epoch (current : tail.epoch ≤ epoch)
    (same : ∀ placed ∈ log ++ [last], placed.1.producerEpoch = epoch) :
    (log ++ [last]).foldl foldPlaced tail =
      { epoch
        seen := true
        nextSequence := ProducerTail.seqIncrement last.1.lastSequence
        window := ((if tail.epoch = epoch then tail.window else []) ++
          (log ++ [last]).map slot).rtake idempotentWindow } := by
  induction log generalizing tail with
  | nil =>
    obtain rfl := same last (by simp)
    exact foldPlaced_current bound current
  | cons first log ih =>
    obtain rfl := same first (by simp)
    have folded : foldPlaced tail first = _ := foldPlaced_current bound current
    rw [cons_append,foldl_cons,ih (foldPlaced_bounded bound) (by rw [folded])
      (fun other mem => same other (.tail _ mem)),folded,if_pos rfl,map_cons]
    simp only [rtake_append_rtake,append_assoc,singleton_append]

/-- Of the coordinates of one epoch only the last few leave a trace. -/
lemma foldl_rtake (current : tail.epoch ≤ epoch)
    (same : ∀ placed ∈ log, placed.1.producerEpoch = epoch) :
    (log.rtake idempotentWindow).foldl foldPlaced tail = log.foldl foldPlaced tail := by
  cases log using reverseRecOn with
  | nil => rfl
  | append_singleton front last =>
    have short : (front ++ [last]).rtake idempotentWindow = front.rtake 4 ++ [last] :=
      rtake_concat_succ _ _ _
    have recent : ∀ placed ∈ front.rtake 4 ++ [last], placed.1.producerEpoch = epoch :=
      fun placed mem => same placed (mem_of_mem_drop (short ▸ mem))
    rw [short,foldl_epoch bound current recent,foldl_epoch bound current same,← short,
      ← map_rtake,rtake_append_rtake_right]

end

/-! ### Pruning -/

section

variable (producerId : Int) (entry : SubstreamEntry) {tail : ProducerTail}

def relevant : List Placed :=
  (entry.producers.filter (fun coord => coord.folds && coord.producerId = producerId)).map
    (fun coord => (coord, entry.baseOffset + coord.offsetDelta))

def foldEntry (producerId : Int) (tail : ProducerTail) (entry : SubstreamEntry) : ProducerTail :=
  entry.producers.foldl (foldCoord producerId entry.baseOffset) tail

lemma foldEntry_eq :
    foldEntry producerId tail entry = (relevant producerId entry).foldl foldPlaced tail := by
  unfold relevant foldEntry
  rw [foldl_map,foldl_filter]
  rfl

variable {taken : Int → Nat}

lemma takeWindow_filter (coords : List ProducerCoord)
    (bound : ∀ producerId, taken producerId ≤ idempotentWindow) :
    (takeWindow coords taken).filter (fun coord => coord.producerId = producerId) =
      (coords.filter (fun coord => coord.producerId = producerId)).take
        (idempotentWindow - taken producerId) := by
  fun_induction takeWindow coords taken with
  | case1 => simp
  | case2 coord rest taken full ih =>
    rw [ih bound,filter_cons]
    split <;> simp_all
  | case3 coord rest taken room ih =>
    have within := bound coord.producerId
    rw [filter_cons,filter_cons,ih (by grind)]
    by_cases same : coord.producerId = producerId
    · have left : idempotentWindow - taken producerId =
          idempotentWindow - (taken producerId + 1) + 1 := by grind
      simp [same,left]
    · simp [same,Ne.symm same]

lemma relevant_retained : relevant producerId (retainFoldableProducers entry) =
      ((relevant producerId entry).filter (fun placed =>
        topEpoch entry.producers producerId = some placed.1.producerEpoch)).rtake
          idempotentWindow := by
  unfold relevant
  rw [filter_map,map_rtake,retainFoldableProducers_baseOffset]
  congr 1
  unfold retainFoldableProducers
  split
  · rename_i isEmpty
    simp [isEmpty]
  have sameTop : ∀ coord ∈ entry.producers.reverse,
      (decide (coord.producerId = producerId) && (coord.folds &&
        decide (topEpoch entry.producers coord.producerId = some coord.producerEpoch))) =
      (decide (topEpoch entry.producers producerId = some coord.producerEpoch) &&
        (coord.folds && decide (coord.producerId = producerId))) := by
    intro coord _
    by_cases same : coord.producerId = producerId <;> simp [same,Bool.and_comm]
  dsimp only
  rw [rtake_eq_reverse_take_reverse,filter_reverse,← filter_filter,
    takeWindow_filter _ _ (fun _ => Nat.zero_le _),List.filter_eq_self.mpr]
  · simp only [filter_filter,← filter_reverse]
    rw [filter_congr sameTop]
    rfl
  · intro coord mem
    have kept := (mem_filter.mp (mem_filter.mp (mem_of_mem_take mem)).1).2
    exact (Bool.and_eq_true_iff.mp kept).1

lemma foldEntry_retained (bound : tail.window.length ≤ idempotentWindow) :
    foldEntry producerId tail (retainFoldableProducers entry) = foldEntry producerId tail entry := by
  have isTop : topEpoch entry.producers producerId =
      ((relevant producerId entry).map (·.1.producerEpoch)).max? := by
    simp [topEpoch,relevant,Function.comp_def]
  rw [foldEntry_eq,foldEntry_eq,relevant_retained,isTop]
  cases found : ((relevant producerId entry).map (·.1.producerEpoch)).max? with
  | none =>
    rw [max?_eq_none_iff,map_eq_nil_iff] at found
    rw [found]
    rfl
  | some top =>
    obtain ⟨there,below⟩ := max?_eq_some_iff.mp found
    rw [forall_mem_map] at below
    simp only [Option.some.injEq,eq_comm (a := top)]
    by_cases stale : top < tail.epoch
    · rw [foldl_stale,foldl_stale]
      · exact fun placed mem => lt_of_le_of_lt (below placed mem) stale
      · intro placed mem
        exact lt_of_le_of_lt (below placed (mem_of_mem_filter (mem_of_mem_drop mem))) stale
    · rw [foldl_rtake bound (not_lt.mp stale),foldl_top below (Or.inr (mem_map.mp there))]
      exact fun placed mem => by simpa using of_mem_filter mem

end

/-- Folding entries gives the same tail whichever of them are pruned. -/
theorem pruning_keeps_tail (start : { tail : ProducerTail // tail.window.length ≤ idempotentWindow })
    (producerId : Int) (entries : List (SubstreamEntry × Bool)) :
    (entries.map (fun (entry, pruned) =>
        if pruned then retainFoldableProducers entry else entry)).foldl (foldEntry producerId) start =
      (entries.map Prod.fst).foldl (foldEntry producerId) start := by
  obtain ⟨tail,bounded⟩ := start
  induction entries generalizing tail with
  | nil => rfl
  | cons first entries ih =>
    obtain ⟨entry,pruned⟩ := first
    have same : foldEntry producerId tail (if pruned then retainFoldableProducers entry else entry) =
        foldEntry producerId tail entry := by
      cases pruned with
      | true => exact foldEntry_retained producerId entry bounded
      | false => rfl
    have still : (foldEntry producerId tail entry).window.length ≤ idempotentWindow := by
      rw [foldEntry_eq]
      exact foldlRecOn (motive := fun tail : ProducerTail =>
        tail.window.length ≤ idempotentWindow) _ _ bounded
        (fun _ bounded _ _ => foldPlaced_bounded bounded)
    rw [map_cons,map_cons,foldl_cons,foldl_cons]
    dsimp only
    rw [same]
    exact ih _ still

/-! ### Batches in order -/

/-- A batch with the region it was added to, and the region's base. -/
structure Appended where
  batch : Batch
  region : Region
  baseOffset : Int

namespace Appended

def coord (appended : Appended) : ProducerCoord := appended.region.coord appended.batch

/-- The offset of the batch: as many offsets are before it as the region had records. -/
def offset (appended : Appended) : Int := appended.baseOffset + appended.region.recordCount

/-- The offset by the coordinate, which keeps 32 bits of the distance. -/
def kept (appended : Appended) : Int := appended.baseOffset + appended.coord.offsetDelta

def placed (appended : Appended) : Placed := (appended.coord, appended.kept)

def slot (appended : Appended) : Int × Int := (appended.batch.baseSequence, appended.kept)

lemma kept_eq_offset (appended : Appended) : appended.kept = appended.offset ↔
    0 ≤ appended.region.recordCount ∧ appended.region.recordCount < 2 ^ 32 := by
  unfold kept offset coord Region.coord
  simp only
  omega

def fold (producerId : Int) (tail : ProducerTail) (appended : Appended) : ProducerTail :=
  foldCoord producerId appended.baseOffset tail appended.coord

end Appended

/-- Batches of one epoch, numbered as a client numbers them. -/
structure Numbered (producerId epoch : Int) (batches : List Batch) : Prop where
  each : ∀ batch ∈ batches, batch.producerId = producerId ∧ batch.producerEpoch = epoch ∧
    batch.isControl = false ∧ 0 ≤ batch.lastOffsetDelta ∧ batch.lastOffsetDelta < 2 ^ 31
  starts : ∀ first ∈ batches.head?, first.baseSequence = 0
  chain : batches.IsChain (fun batch next =>
    next.baseSequence = (batch.baseSequence + batch.offsets) % 2 ^ 31)

variable {producerId epoch delta : Int} {batches : List Batch}

lemma Numbered.sequences (numbered : Numbered producerId epoch batches) :
    ∀ batch ∈ batches, 0 ≤ batch.baseSequence ∧ batch.baseSequence < 2 ^ 31 := by
  apply numbered.chain.induction (fun batch => 0 ≤ batch.baseSequence ∧ batch.baseSequence < 2 ^ 31)
  · intro batch next isNext _
    omega
  · intro nonempty
    rw [numbered.starts _ (head_mem_head? nonempty)]
    decide

lemma seqIncrement_eq {sequence next : Int} (pos : 0 ≤ sequence)
    (within : sequence < 2 ^ 31) (nonneg : 0 ≤ delta) (small : delta < 2 ^ 31)
    (isNext : next = (sequence + (delta + 1)) % 2 ^ 31) :
    next = ProducerTail.seqIncrement (Int.bmod (sequence + delta) (2 ^ 32)) ↔
      sequence + (delta + 1) ≤ 2 ^ 31 := by
  unfold ProducerTail.seqIncrement i32Max
  rw [Int.bmod_def]
  norm_num at *
  omega

section

variable {tail : ProducerTail} (seen : tail.seen = true) {sequence offset : Int}

include seen

lemma classify_admitted :
    tail.classify tail.epoch sequence = .admitted ↔ sequence = tail.nextSequence := by
  simp only [ProducerTail.classify,ProducerTail.expected,seen,lt_irrefl,if_false,if_true]
  split_ifs with isNext
  · simp [isNext]
  · split <;> simp [isNext]

lemma classify_duplicate :
    tail.classify tail.epoch sequence = .duplicate offset ↔ sequence ≠ tail.nextSequence ∧
      tail.window.find? (fun slot => slot.1 = sequence) = some (sequence, offset) := by
  simp only [ProducerTail.classify,ProducerTail.expected,seen,lt_irrefl,if_false,if_true]
  split_ifs with isNext
  · simp [isNext]
  · cases found : tail.window.find? (fun slot => slot.1 = sequence) with
    | none => simp [isNext]
    | some slot =>
      have same : slot.1 = sequence := by simpa using find?_some found
      subst same
      simp [isNext,Prod.ext_iff]

end

lemma find_self_iff {recent : List Appended} (ordered : recent.Pairwise (·.offset < ·.offset)) :
    (∀ resent ∈ recent, (recent.map Appended.slot).find?
        (fun slot => slot.1 = resent.batch.baseSequence) =
          some (resent.batch.baseSequence, resent.offset)) ↔
      (∀ resent ∈ recent, resent.kept = resent.offset) ∧
        (recent.map (fun resent => resent.batch.baseSequence)).Nodup := by
  induction recent with
  | nil => simp
  | cons first rest ih =>
    obtain ⟨before,later⟩ := pairwise_cons.mp ordered
    simp only [forall_mem_cons,map_cons,nodup_cons,mem_map,find?_cons,Appended.slot] at ih ⊢
    simp only [decide_true,Option.some.injEq,Prod.mk.injEq,true_and]
    constructor
    · intro ⟨isKept,others⟩
      -- two batches of one sequence would have one offset
      have apart : ∀ resent ∈ rest, first.batch.baseSequence ≠ resent.batch.baseSequence := by
        intro resent mem same
        have found := others resent mem
        simp only [same,decide_true,Option.some.injEq,Prod.mk.injEq,true_and] at found
        exact absurd (isKept.symm.trans found) (ne_of_lt (before resent mem))
      have rested := (ih later).mp (fun resent mem => by
        have found := others resent mem
        rwa [decide_eq_false (apart resent mem)] at found)
      refine ⟨⟨isKept,rested.1⟩,?_,rested.2⟩
      rintro ⟨resent,mem,same⟩
      exact apart resent mem same.symm
    · intro ⟨⟨isKept,allKept⟩,apart,distinct⟩
      refine ⟨isKept,fun resent mem => ?_⟩
      have differs : first.batch.baseSequence ≠ resent.batch.baseSequence :=
        fun same => apart ⟨resent,mem,same.symm⟩
      rw [decide_eq_false differs]
      exact (ih later).mpr ⟨allKept,distinct⟩ resent mem

lemma recognises_iff {sequence : Int} {tail : ProducerTail} (seen : tail.seen = true)
    {recent : List Appended} (window : tail.window = recent.map Appended.slot)
    (ordered : recent.Pairwise (·.offset < ·.offset)) (isNext : sequence = tail.nextSequence) :
    (∀ resent ∈ recent, tail.classify tail.epoch resent.batch.baseSequence =
        .duplicate resent.offset) ↔
      (∀ resent ∈ recent, 0 ≤ resent.region.recordCount ∧ resent.region.recordCount < 2 ^ 32) ∧
        (recent.map (fun resent => resent.batch.baseSequence) ++ [sequence]).Nodup := by
  simp only [classify_duplicate seen,window,← isNext,forall_and,← Appended.kept_eq_offset]
  rw [find_self_iff ordered,nodup_append]
  simp only [nodup_singleton,forall_mem_map,mem_singleton,forall_eq,true_and]
  tauto

/-- The tail after batches of one epoch. -/
lemma Appended.folded {producerId epoch : Int} {front : List Appended} {last : Appended}
    (valid : 0 ≤ epoch) (each : ∀ appended ∈ front ++ [last],
      appended.batch.producerId = producerId ∧ appended.batch.producerEpoch = epoch ∧
        appended.batch.isControl = false ∧ 0 ≤ appended.batch.baseSequence) :
    (front ++ [last]).foldl (Appended.fold producerId) {} =
      { epoch
        seen := true
        nextSequence := ProducerTail.seqIncrement last.coord.lastSequence
        window := ((front ++ [last]).map Appended.slot).rtake idempotentWindow } := by
  have placed : (front ++ [last]).foldl (Appended.fold producerId) {} =
      ((front ++ [last]).map Appended.placed).foldl foldPlaced {} := by
    rw [foldl_map]
    apply foldl_ext
    intro tail appended mem
    obtain ⟨isOwn,-,isData,nonneg⟩ := each appended mem
    have unmarked : coordFlags appended.batch &&& flagControl = 0 := by
      unfold coordFlags
      rw [isData]
      split <;> decide
    have folds : appended.coord.folds = true := by
      simp [coord,Region.coord,ProducerCoord.folds,unmarked]
      omega
    exact if_pos (by rw [folds]; exact decide_eq_true isOwn)
  have same : ∀ placed ∈ front.map Appended.placed ++ [last.placed],
      placed.1.producerEpoch = epoch := by
    rw [← map_singleton,← map_append]
    intro placed mem
    obtain ⟨appended,isAppended,rfl⟩ := mem_map.mp mem
    exact (each appended isAppended).2.1
  rw [placed,map_append,map_singleton,foldl_epoch (Nat.zero_le _) valid same,map_append,map_map,
    map_append,ite_self]
  rfl

/-- Batches in order are admitted and their resends recognised exactly as long as no batch spans
the wrap, no base sequence comes back too early, and each is less than 2 ^ 32 offsets into its
region. -/
theorem resends_recognised {producerId epoch : Int} {sent : List Appended} (next : Batch)
    (valid : 0 ≤ epoch) (numbered : Numbered producerId epoch (sent.map Appended.batch ++ [next]))
    (ordered : sent.Pairwise (·.offset < ·.offset)) :
    (sent.foldl (Appended.fold producerId) {}).classify epoch next.baseSequence = .admitted ∧
        (∀ resent ∈ sent.rtake idempotentWindow, (sent.foldl (Appended.fold producerId) {}).classify
          epoch resent.batch.baseSequence = .duplicate resent.offset) ↔
      (∀ last ∈ sent.getLast?, last.batch.baseSequence + last.batch.offsets ≤ 2 ^ 31) ∧
        (∀ resent ∈ sent.rtake idempotentWindow,
          0 ≤ resent.region.recordCount ∧ resent.region.recordCount < 2 ^ 32) ∧
        ((sent.rtake idempotentWindow).map (fun resent => resent.batch.baseSequence) ++
          [next.baseSequence]).Nodup := by
  cases sent using reverseRecOn with
  | nil =>
    have isFirst : next.baseSequence = 0 := numbered.starts next rfl
    simp [isFirst,ProducerTail.classify,ProducerTail.expected,valid]
  | append_singleton front last =>
    have inside : ∀ appended ∈ front ++ [last],
        appended.batch ∈ (front ++ [last]).map Appended.batch ++ [next] :=
      fun appended member => mem_append_left _ (mem_map_of_mem member)
    have folded := Appended.folded valid (fun appended member =>
      have facts := numbered.each _ (inside appended member)
      ⟨facts.1,facts.2.1,facts.2.2.1,(numbered.sequences _ (inside appended member)).1⟩)
    have isNext : next.baseSequence = (last.batch.baseSequence + last.batch.offsets) % 2 ^ 31 :=
      (isChain_append.mp numbered.chain).2.2 last.batch (by simp) next rfl
    have isLast := inside last (by simp)
    have wraps := seqIncrement_eq (numbered.sequences _ isLast).1 (numbered.sequences _ isLast).2
      (numbered.each _ isLast).2.2.2.1 (numbered.each _ isLast).2.2.2.2 isNext
    rw [folded,getLast?_concat]
    simp only [Option.mem_def,Option.some.injEq,forall_eq']
    refine (and_congr_left' (classify_admitted rfl)).trans (Iff.trans ?_ (and_congr_left' wraps))
    apply and_congr_right
    exact recognises_iff rfl (map_rtake _ _) (ordered.sublist (drop_sublist _ _))

/-- A batch of its own segment. -/
def single (offset sequence lastOffsetDelta : Int) : Appended :=
  ⟨{ producerId := 1, baseSequence := sequence, lastOffsetDelta }, {}, offset⟩

theorem resends_recognised_three :
    ([single 7 0 0, single 8 1 2].foldl (Appended.fold 1) {}).classify 0 4 = .admitted ∧
      ∀ resent ∈ [single 7 0 0, single 8 1 2].rtake idempotentWindow,
        ([single 7 0 0, single 8 1 2].foldl (Appended.fold 1) {}).classify 0
          resent.batch.baseSequence = .duplicate resent.offset :=
  (resends_recognised (single 0 4 0).batch (by decide) ⟨by decide,by decide,by decide⟩
    (by decide)).mpr ⟨by decide,by decide⟩

/-- The batch after one that spans the wrap is refused. -/
theorem spanning_refused :
    Numbered 1 0 [(single 0 0 (2 ^ 31 - 3)).batch, (single (2 ^ 31 - 2) (2 ^ 31 - 2) 3).batch,
        (single 0 2 0).batch] ∧
      ([single 0 0 (2 ^ 31 - 3), single (2 ^ 31 - 2) (2 ^ 31 - 2) 3].foldl (Appended.fold 1)
        {}).classify 0 2 = .outOfOrder :=
  ⟨⟨by decide,by decide,by decide⟩,by decide⟩

end Kodansu.Leaseless

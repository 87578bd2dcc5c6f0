/-
What each step of a replica does, transition by transition.

The step functions branch on a task's phase and on the response.  Here each outcome is one
rule: what the task held, what was checked, and what follows.  An invariant is then a case
split over the rules; `act_step` connects them to the step functions.
-/

import Kodansu.Leaseless.Protocol

namespace Kodansu.Leaseless

open Index Lib Segment Record Option

/-! ### Refresh -/

inductive RefreshStep (world : World) (replica : Replica) : Act → Replica → Prop
  | startList {owner : RefreshOwner} {due : Bool} (reconcile : Bool)
      (idle : replica.refresh = none) (awaits : replica.awaitsRefresh owner = true) :
      RefreshStep world replica (.startRefresh owner due)
        (replica.setRefresh { owner, reconcile, after := none, phase := .list [] })
  | startProbe {owner : RefreshOwner} {due : Bool} {cursor : Nat}
      (idle : replica.refresh = none) (awaits : replica.awaitsRefresh owner = true)
      (isCursor : replica.resolvedMax = some cursor) :
      RefreshStep world replica (.startRefresh owner due)
        (replica.setRefresh
          { owner, reconcile := false, after := some cursor,
            phase := .probe (cursor + 1) probeWindow })
  | relist {refresh : Refresh} {response : Response} (relists : Nat)
      (held : replica.refresh = some refresh)
      (done : ∀ pending vanished, refresh.phase = .commit pending vanished → pending = []) :
      RefreshStep world replica (.refresh response)
        (replica.setRefresh { refresh with relists, phase := .list [] })
  | probeFolds {refresh : Refresh} {seq left : Nat} {footer : SegmentFooter}
      (held : replica.refresh = some refresh) (phase : refresh.phase = .probe seq (left + 1))
      (isLive : world.live.get? seq = some footer) :
      RefreshStep world replica (.refresh .ok)
        ((replica.insertSegment seq footer).setRefresh
          { refresh with phase := .probe (seq + 1) left })
  | probeAbsent {refresh : Refresh} {seq left : Nat} (held : replica.refresh = some refresh)
      (phase : refresh.phase = .probe seq (left + 1)) (absent : world.live.get? seq = none) :
      RefreshStep world replica (.refresh .ok)
        (replica.setRefresh { refresh with phase := .absent seq })
  | readsFloor {refresh : Refresh} {seq : Nat} (held : replica.refresh = some refresh)
      (phase : refresh.phase = .absent seq) :
      RefreshStep world replica (.refresh .ok)
        (replica.setRefresh { refresh with phase := .floor seq world.floor replica.generation })
  | floorAhead {refresh : Refresh} {seq floor generation : Nat}
      (held : replica.refresh = some refresh) (phase : refresh.phase = .floor seq floor generation)
      (ahead : seq < floor) :
      RefreshStep world replica (.refresh .ok)
        ((replica.certify floor generation).setRefresh { refresh with phase := .list [] })
  | floorProves {refresh : Refresh} {seq floor generation : Nat}
      (held : replica.refresh = some refresh) (phase : refresh.phase = .floor seq floor generation)
      (behind : floor ≤ seq) :
      RefreshStep world replica (.refresh .ok)
        ((replica.certify floor generation).resume refresh.owner)
  | pages {refresh : Refresh} {found : List (Nat × SegmentFooter)}
      {segment : Nat × SegmentFooter} (held : replica.refresh = some refresh)
      (phase : refresh.phase = .list found)
      (isNext : (world.listAfter (Replica.scanned refresh.after found)).head? = some segment) :
      RefreshStep world replica (.refresh .ok)
        (replica.setRefresh { refresh with phase := .list (found ++ [segment]) })
  | lists {refresh : Refresh} {found : List (Nat × SegmentFooter)}
      (held : replica.refresh = some refresh) (phase : refresh.phase = .list found)
      (done : world.listAfter (Replica.scanned refresh.after found) = []) :
      RefreshStep world replica (.refresh .ok)
        (replica.setRefresh (replica.listed refresh found))
  | commits {refresh : Refresh} {seq : Nat} {footer : SegmentFooter}
      {rest : List (Nat × SegmentFooter)} {vanished : Bool} (held : replica.refresh = some refresh)
      (phase : refresh.phase = .commit ((seq, footer) :: rest) vanished) :
      RefreshStep world replica (.refresh .ok)
        ((replica.insertSegment seq footer).setRefresh
          { refresh with phase := .commit rest vanished })
  | vanishes {refresh : Refresh} {seq : Nat} {footer : SegmentFooter}
      {rest : List (Nat × SegmentFooter)} {vanished : Bool} (held : replica.refresh = some refresh)
      (phase : refresh.phase = .commit ((seq, footer) :: rest) vanished)
      (absent : world.isLive seq = false) :
      RefreshStep world replica (.refresh .absent)
        ((replica.stepOver seq).setRefresh { refresh with phase := .commit rest true })
  | stepsOver {refresh : Refresh} {seq : Nat} {footer : SegmentFooter}
      {rest : List (Nat × SegmentFooter)} {vanished : Bool} (held : replica.refresh = some refresh)
      (phase : refresh.phase = .commit ((seq, footer) :: rest) vanished)
      (undecodable : world.undecodable seq = true) :
      RefreshStep world replica (.refresh .ok)
        ((replica.stepOver seq).setRefresh { refresh with phase := .commit rest vanished })
  | settles {refresh : Refresh} {vanished : Bool} (held : replica.refresh = some refresh)
      (phase : refresh.phase = .commit [] vanished) :
      RefreshStep world replica (.refresh .ok) (replica.settle refresh)
  | fails {refresh : Refresh} (held : replica.refresh = some refresh) :
      RefreshStep world replica (.refresh .failed) (replica.refreshFailed refresh.owner)
  | cancels {refresh : Refresh} {owner : RefreshOwner} (held : replica.refresh = some refresh)
      (waits : refresh.owner = owner ∨ ∃ seq, refresh.owner = .won seq ∧ owner = .claim)
      (abandoned : ∀ seq, owner ≠ .won seq) :
      RefreshStep world replica .cancelRefresh (replica.refreshFailed owner)

/-! ### Flush -/

def World.Mine (world : World) (candidate nonce : Nat) (answer : Answer) : Prop :=
  answer = .won ∨
    answer = .unknown ∧ ∃ found, world.live.get? candidate = some found ∧ found.nonce = nonce

def World.Theirs (world : World) (candidate nonce : Nat) (answer : Answer) : Prop :=
  answer = .taken ∨
    answer = .unknown ∧ ∃ found, world.live.get? candidate = some found ∧ found.nonce ≠ nonce

def World.Missed (world : World) (candidate : Nat) (answer : Answer) : Prop :=
  answer = .taken ∧ world.isLive candidate = true ∨ answer = .unknown

inductive FlushStep (config : Config) (world : World) (replica : Replica) :
    Act → World → Replica → Prop
  | begins {pending : List Pending} (idle : replica.flush = none) :
      FlushStep config world replica (.startFlush pending) { world with nonces := world.nonces + 1 }
        { replica with flush := some { nonce := world.nonces, pending } }
  | ends {flush : Flush} {action : Act} (held : replica.flush = some flush)
      (awake : flush.phase ≠ .refresh) :
      FlushStep config world replica action world replica.endFlush
  | awaits {flush : Flush} {response : Response} (held : replica.flush = some flush)
      (phase : flush.phase = .start) :
      FlushStep config world replica (.flush response) world
        (replica.setFlush { flush with wonByPeer := none } .refresh)
  | folds {flush : Flush} {seq : Nat} {footer : SegmentFooter} (held : replica.flush = some flush)
      (phase : flush.phase = .start) (isPeer : flush.wonByPeer = some seq)
      (isLive : world.live.get? seq = some footer) :
      FlushStep config world replica (.flush .ok) world
        ((replica.insertSegment seq footer).setFlush { flush with wonByPeer := none } .folded)
  | takesCursor {flush : Flush} (held : replica.flush = some flush)
      (phase : flush.phase = .folded) :
      FlushStep config world replica (.flush .ok) world
        (replica.setFlush flush (.cursor replica.resolvedMax))
  | certified {flush : Flush} {listed : Option Nat} {floor : Nat}
      (held : replica.flush = some flush) (phase : flush.phase = .cursor listed)
      (isCertified : replica.certifiedSeqFloor = some floor) :
      FlushStep config world replica (.flush .ok) world
        (replica.setBasing flush (max (nextAfter listed) floor))
  | readsFloor {flush : Flush} {listed : Option Nat} (held : replica.flush = some flush)
      (phase : flush.phase = .cursor listed) (uncertified : replica.certifiedSeqFloor = none) :
      FlushStep config world replica (.flush .ok) world
        (replica.setFlush flush (.floor listed world.floor replica.generation))
  | derives {flush : Flush} {listed : Option Nat} {floor generation : Nat}
      (held : replica.flush = some flush) (phase : flush.phase = .floor listed floor generation) :
      FlushStep config world replica (.flush .ok) world
        ((replica.certify floor generation).setBasing flush (max (nextAfter listed) floor))
  | takesTail {flush : Flush} {candidate : Nat} {topition : Topition} {rest : List Topition}
      {assigned : Assigned} (held : replica.flush = some flush)
      (phase : flush.phase = .basing candidate (topition :: rest) assigned) :
      FlushStep config world replica (.flush .ok) world
        (replica.setFlush flush
          (.tail candidate topition rest assigned (replica.localBase config topition)))
  | bases {flush : Flush} {response : Response} {candidate : Nat} {topition : Topition}
      {todo : List Topition} {assigned : Assigned} {tail floor : Int}
      (held : replica.flush = some flush)
      (phase : flush.phase = .tail candidate topition todo assigned tail)
      (isFloor : response = .ok ∧ floor = world.high topition ∨ response = .failed ∧ floor = 0) :
      FlushStep config world replica (.flush response) world
        (replica.setFlush flush (.basing candidate todo (assigned.add config topition
          (max tail floor)
          (assignTopition config replica.index flush.pending topition (max tail floor)))))
  | answers {flush : Flush} {candidate : Nat} {assigned : Assigned}
      (held : replica.flush = some flush) (phase : flush.phase = .basing candidate [] assigned)
      (isEmpty : assigned.writes = []) :
      FlushStep config world replica (.flush .ok) (world.ack assigned) replica.endFlush
  | readies {flush : Flush} {candidate : Nat} {assigned : Assigned}
      (held : replica.flush = some flush) (phase : flush.phase = .basing candidate [] assigned) :
      FlushStep config world replica (.flush .ok) world
        (replica.setFlush flush (.put candidate assigned))
  | creates {flush : Flush} {response : Response} {candidate : Nat} {assigned : Assigned}
      {object : List UInt8} {footer : SegmentFooter} {answer : Answer}
      (held : replica.flush = some flush) (phase : flush.phase = .put candidate assigned)
      (encoded : encodeSegmentIndexed assigned.writes config.era flush.nonce
        config.segmentFormatVersion = .ok (object, footer))
      (free : world.isLive candidate = false) (effective : response ≠ .failed)
      (isAnswer : answer ≠ .taken) :
      FlushStep config world replica (.flush response)
        (world.create
          { seq := candidate, floorAt := world.floor, flushed := true,
            writes := assigned.writes, footer })
        (replica.setFlush flush (.answered candidate assigned footer answer))
  | misses {flush : Flush} {response : Response} {candidate : Nat} {assigned : Assigned}
      {object : List UInt8} {footer : SegmentFooter} {answer : Answer}
      (held : replica.flush = some flush) (phase : flush.phase = .put candidate assigned)
      (encoded : encodeSegmentIndexed assigned.writes config.era flush.nonce
        config.segmentFormatVersion = .ok (object, footer))
      (missed : world.Missed candidate answer) :
      FlushStep config world replica (.flush response) world
        (replica.setFlush flush (.answered candidate assigned footer answer))
  | wins {flush : Flush} {response : Response} {candidate : Nat} {assigned : Assigned}
      {footer : SegmentFooter} {answer : Answer} (held : replica.flush = some flush)
      (phase : flush.phase = .answered candidate assigned footer answer)
      (mine : world.Mine candidate flush.nonce answer) :
      FlushStep config world replica (.flush response) (world.ack assigned)
        (replica.finalize world candidate footer assigned).2
  | loses {flush : Flush} {response : Response} {candidate : Nat} {assigned : Assigned}
      {footer : SegmentFooter} {answer : Answer} (held : replica.flush = some flush)
      (phase : flush.phase = .answered candidate assigned footer answer)
      (theirs : world.Theirs candidate flush.nonce answer) :
      FlushStep config world replica (.flush response) world
        (replica.setFlush { flush with wonByPeer := some candidate } .start)

/-! ### Maintenance -/

def Maintain.awaits : Maintain → Bool
  | .refresh _ | .foldBelow _ _ _ => true
  | _ => false

inductive MaintainStep (config : Config) (world : World) (replica : Replica) :
    Act → World → Replica → Prop
  | ends {task : Maintain} {response : Response} (held : replica.maintain = some task)
      (awake : task.awaits = false) :
      MaintainStep config world replica (.maintain response) world replica.endMaintain
  | halts (free : ∀ refresh ∈ replica.refresh, refresh.owner = .reader ∨ refresh.owner = .flush) :
      MaintainStep config world replica .halt world replica.endMaintain
  | expires {doomed : List Nat} (idle : replica.maintain = none)
      (known : ∀ seq ∈ doomed, replica.knows seq = true) :
      MaintainStep config world replica (.expire doomed) world
        (replica.setMaintain (.floors doomed (affectedBy replica.index doomed)
          (affectedBy replica.index doomed)))
  | drops {run : List Nat} {writerEpoch : Int} (idle : replica.maintain = none)
      (known : ∀ seq ∈ run, replica.knows seq = true) :
      MaintainStep config world replica (.compact run [] writerEpoch) world
        (replica.setMaintain (.retire false run []))
  | merges {run : List Nat} {writes : List SubstreamWrite} {writerEpoch : Int}
      (idle : replica.maintain = none) (known : ∀ seq ∈ run, replica.knows seq = true)
      (pinned : ∀ write ∈ writes, write.substream = config.pins.substream write.topition) :
      MaintainStep config world replica (.compact run writes writerEpoch)
        { world with nonces := world.nonces + 1 }
        (replica.setMaintain (.hint { run, writes, writerEpoch, nonce := world.nonces }))
  | floorsDone {doomed : List Nat} {affected : List Topition}
      (held : replica.maintain = some (.floors doomed affected [])) :
      MaintainStep config world replica (.maintain .ok) world
        (replica.setMaintain (.retire true doomed affected))
  | floorsSkip {doomed : List Nat} {affected rest : List Topition} {topition : Topition}
      (held : replica.maintain = some (.floors doomed affected (topition :: rest)))
      (unseen : viewTail replica.index (config.pins.key topition) = none) :
      MaintainStep config world replica (.maintain .ok) world
        (replica.setMaintain (.floors doomed affected rest))
  | floorsTake {doomed : List Nat} {affected rest : List Topition} {topition : Topition}
      {tail : Int} (held : replica.maintain = some (.floors doomed affected (topition :: rest)))
      (seen : viewTail replica.index (config.pins.key topition) = some tail) :
      MaintainStep config world replica (.maintain .ok) world
        (replica.setMaintain (.floorHeld doomed affected topition tail rest))
  | floorRaised {response : Response} {doomed : List Nat} {affected todo : List Topition}
      {topition : Topition} {tail : Int}
      (held : replica.maintain = some (.floorHeld doomed affected topition tail todo)) :
      MaintainStep config world replica (.maintain response) (world.raiseHigh topition tail)
        (replica.setMaintain (.floors doomed affected todo))
  | floorFailed {doomed : List Nat} {affected todo : List Topition} {topition : Topition}
      {tail : Int} (held : replica.maintain = some (.floorHeld doomed affected topition tail todo)) :
      MaintainStep config world replica (.maintain .failed) world
        (replica.setMaintain (.floors doomed affected todo))
  | retires {expired : Bool} {seqs : List Nat} {affected : List Topition} {last : Nat}
      {certified : Option (Nat × Nat)}
      (held : replica.maintain = some (.retire expired seqs affected))
      (isLast : seqs.max? = some last)
      (forgotten : certified = none ∨ certified = replica.seqFloor) :
      MaintainStep config world replica (.maintain .ok) (world.raiseSeqFloor (last + 1))
        (({ replica with seqFloor := certified } : Replica).setMaintain
          (.deleting expired seqs seqs affected))
  | retireLost {expired : Bool} {seqs : List Nat} {affected : List Topition} {last : Nat}
      (held : replica.maintain = some (.retire expired seqs affected))
      (isLast : seqs.max? = some last) :
      MaintainStep config world replica (.maintain .lost) (world.raiseSeqFloor (last + 1))
        replica.endMaintain
  | deletes {expired : Bool} {seqs rest : List Nat} {seq : Nat} {affected : List Topition}
      (held : replica.maintain = some (.deleting expired seqs (seq :: rest) affected)) :
      MaintainStep config world replica (.maintain .ok) (world.delete seq)
        (replica.setMaintain (.deleting expired seqs rest affected))
  | deleteLost {expired : Bool} {seqs rest : List Nat} {seq : Nat} {affected : List Topition}
      (held : replica.maintain = some (.deleting expired seqs (seq :: rest) affected)) :
      MaintainStep config world replica (.maintain .lost) (world.delete seq) replica.endMaintain
  | prunes {expired : Bool} {seqs : List Nat} {affected : List Topition}
      {cachedHigh : Topition → Int}
      (held : replica.maintain = some (.deleting expired seqs [] affected)) :
      MaintainStep config world replica (.maintain .ok) world
        { (replica.indexPrune seqs).endMaintain with cachedHigh }
  | hints {job : Job} {first : Nat} (held : replica.maintain = some (.hint job))
      (isFirst : replica.cachedSeq = some first ∨
        first = nextAfter ((world.listAfter none).map Prod.fst).max?) :
      MaintainStep config world replica (.maintain .ok) world
        (replica.setMaintain (.hintFloor job first))
  | hintFloors {job : Job} {first : Nat} (held : replica.maintain = some (.hintFloor job first)) :
      MaintainStep config world replica (.maintain .ok) world
        (replica.setMaintain (.put job (max first world.floor)))
  | creates {response : Response} {job : Job} {candidate : Nat} {object : List UInt8}
      {footer : SegmentFooter} {answer : Answer}
      (held : replica.maintain = some (.put job candidate))
      (encoded : encodeSegmentIndexed job.writes job.writerEpoch job.nonce
        config.segmentFormatVersion = .ok (object, footer))
      (free : world.isLive candidate = false) (effective : response ≠ .failed)
      (isAnswer : answer ≠ .taken) :
      MaintainStep config world replica (.maintain response)
        (world.create
          { seq := candidate, floorAt := world.floor, flushed := false, writes := job.writes,
            footer })
        (replica.setMaintain (.answered job candidate footer answer))
  | misses {response : Response} {job : Job} {candidate : Nat} {object : List UInt8}
      {footer : SegmentFooter} {answer : Answer}
      (held : replica.maintain = some (.put job candidate))
      (encoded : encodeSegmentIndexed job.writes job.writerEpoch job.nonce
        config.segmentFormatVersion = .ok (object, footer))
      (missed : world.Missed candidate answer) :
      MaintainStep config world replica (.maintain response) world
        (replica.setMaintain (.answered job candidate footer answer))
  | wins {response : Response} {job : Job} {candidate : Nat} {footer : SegmentFooter}
      {answer : Answer} (held : replica.maintain = some (.answered job candidate footer answer))
      (mine : world.Mine candidate job.nonce answer) :
      MaintainStep config world replica (.maintain response) world
        (replica.jobWon job candidate footer)
  | loses {response : Response} {job : Job} {candidate : Nat} {footer : SegmentFooter}
      {answer : Answer} (held : replica.maintain = some (.answered job candidate footer answer))
      (theirs : world.Theirs candidate job.nonce answer) :
      MaintainStep config world replica (.maintain response) world
        (replica.setMaintain (.refresh job))
  | takesCursor {job : Job} (held : replica.maintain = some (.folded job)) :
      MaintainStep config world replica (.maintain .ok) world
        (replica.setMaintain (.cursor job replica.resolvedMax))
  | certified {job : Job} {listed : Option Nat} {floor : Nat}
      (held : replica.maintain = some (.cursor job listed))
      (isCertified : replica.certifiedSeqFloor = some floor) :
      MaintainStep config world replica (.maintain .ok) world
        (replica.setMaintain (.put job (max (nextAfter listed) floor)))
  | readsFloor {job : Job} {listed : Option Nat}
      (held : replica.maintain = some (.cursor job listed)) :
      MaintainStep config world replica (.maintain .ok) world
        (replica.setMaintain (.floor job listed world.floor replica.generation))
  | derives {job : Job} {listed : Option Nat} {floor generation : Nat}
      (held : replica.maintain = some (.floor job listed floor generation)) :
      MaintainStep config world replica (.maintain .ok) world
        ((replica.certify floor generation).setMaintain (.put job (max (nextAfter listed) floor)))
  | inserts {job : Job} {seq : Nat} {footer : SegmentFooter}
      (held : replica.maintain = some (.insert job seq footer)) :
      MaintainStep config world replica (.maintain .ok) world
        ((replica.insertSegment seq footer).setMaintain (.retire false job.run []))

/-! ### Reads of segments -/

inductive ReadStep (world : World) (replica : Replica) : Act → Replica → Prop
  | vanishes {seq : Nat} (known : replica.knows seq = true) (absent : world.isLive seq = false) :
      ReadStep world replica (.vanished seq) { replica with vanished := seq :: replica.vanished }
  | prunes {seqs : List Nat} (gone : ∀ seq ∈ seqs, seq ∈ replica.vanished) :
      ReadStep world replica (.prune seqs) (replica.indexPrune seqs)

inductive Step (config : Config) (world : World) (replica : Replica) : Act → World → Replica → Prop
  | refresh {action : Act} {next : Replica} (step : RefreshStep world replica action next) :
      Step config world replica action world next
  | flush {action : Act} {after : World} {next : Replica}
      (step : FlushStep config world replica action after next) :
      Step config world replica action after next
  | maintain {action : Act} {after : World} {next : Replica}
      (step : MaintainStep config world replica action after next) :
      Step config world replica action after next
  | read {action : Act} {next : Replica} (step : ReadStep world replica action next) :
      Step config world replica action world next
  | restart : Step config world replica .restart world {}

/-! ### The step functions take no other steps -/

section

variable {w after : World} {r next : Replica} {owner : RefreshOwner} {due vanished : Bool}
  {refresh : Refresh} {pending : List (Nat × SegmentFooter)} {resp : Response} {record : Created}
  {answer : Answer} {candidate nonce : Nat} {res : SegmentCreate}

lemma startRefresh_step (moved : r.startRefresh owner due = some next) :
    RefreshStep w r (.startRefresh owner due) next := by
  unfold Replica.startRefresh at moved
  split at moved
  · cases moved
  rename_i free
  simp only [Bool.or_eq_true,not_or,Bool.not_eq_true,Bool.not_eq_false',
    isSome_eq_false_iff,isNone_iff_eq_none] at free
  split at moved
  · cases moved
    exact .startList false free.1 free.2
  · rename_i cursor isCursor
    split at moved
    · cases moved
      exact .startList true free.1 free.2
    · cases moved
      exact .startProbe free.1 free.2 isCursor

lemma commitStep_step (held : r.refresh = some refresh)
    (phase : refresh.phase = .commit pending vanished)
    (moved : r.commitStep w refresh pending vanished resp = some next) :
    RefreshStep w r (.refresh resp) next := by
  unfold Replica.commitStep at moved
  split at moved
  · split at moved
    · split at moved
      · cases moved
        exact .settles held phase
      · cases moved
        refine .relist _ held ?_
        intro others flag same
        rw [phase] at same
        cases same
        rfl
    · cases moved
      split
      · rename_i undecodable
        exact .stepsOver held phase undecodable
      · exact .commits held phase
  · split at moved
    · cases moved
    · split at moved
      · cases moved
      · rename_i absent
        cases moved
        exact .vanishes held phase (by simpa using absent)
  · cases moved
    exact .fails held
  · cases moved

lemma refreshStep_step (moved : r.refreshStep w resp = some next) :
    RefreshStep w r (.refresh resp) next := by
  unfold Replica.refreshStep at moved
  split at moved
  · cases moved
  rename_i refresh held
  have relists : (∀ pending vanished, refresh.phase ≠ .commit pending vanished) →
      RefreshStep w r (.refresh resp)
        (r.setRefresh { refresh with phase := .list [] }) := fun uncommitted =>
    RefreshStep.relist refresh.relists held
      (fun pending vanished same => absurd same (uncommitted pending vanished))
  split at moved
  · rename_i seq left phase
    have uncommitted : ∀ pending vanished, refresh.phase ≠ .commit pending vanished := by
      simp [phase]
    unfold Replica.probeStep at moved
    split at moved
    · split at moved
      · cases moved
        exact relists uncommitted
      · split at moved
        · rename_i footer isLive
          split at moved
          · cases moved
            exact relists uncommitted
          · cases moved
            exact .probeFolds held phase isLive
        · rename_i absent
          cases moved
          exact .probeAbsent held phase absent
    · cases moved
      exact relists uncommitted
    · cases moved
  · rename_i seq phase
    unfold Replica.absentStep at moved
    split at moved
    · cases moved
      exact .readsFloor held phase
    · cases moved
      exact relists (by simp [phase])
    · cases moved
  · rename_i seq floor gen phase
    rw [ite_none_right_eq_some] at moved
    obtain ⟨rfl,moved⟩ := moved
    cases moved
    unfold Replica.floorStep
    simp only
    split
    · next ahead => exact .floorAhead held phase ahead
    · next behind => exact .floorProves held phase (not_lt.mp behind)
  · rename_i found phase
    split at moved
    · cases moved
      unfold Replica.listStep
      split
      · next segment isNext => exact .pages held phase isNext
      · next done => exact .lists held phase (List.head?_eq_none_iff.mp done)
    · cases moved
      exact .fails held
    · cases moved
  · next pending vanished phase => exact commitStep_step held phase moved

lemma putCreate_outcome (put : w.putCreate record resp = some (after, answer)) :
    (after = w.create record ∧ w.isLive record.seq = false ∧ resp ≠ .failed ∧
        answer ≠ .taken) ∨ (after = w ∧ w.Missed record.seq answer) := by
  unfold World.putCreate at put
  split at put
  · rename_i free
    cases put
    exact .inl ⟨rfl,free,by decide,by decide⟩
  · rename_i isLive
    cases put
    exact .inr ⟨rfl,.inl ⟨rfl,isLive⟩⟩
  · rename_i free
    cases put
    exact .inl ⟨rfl,free,by decide,by decide⟩
  · cases put
    exact .inr ⟨rfl,.inr rfl⟩
  · cases put
    exact .inr ⟨rfl,.inr rfl⟩
  · cases put

lemma resolveSegmentCreate_outcome
    (resolved : w.resolveSegmentCreate candidate nonce answer resp = some res) :
    (res = .won → w.Mine candidate nonce answer) ∧
      (res = .lost → w.Theirs candidate nonce answer) := by
  unfold World.resolveSegmentCreate at resolved
  split at resolved
  · cases resolved
    exact ⟨fun _ => .inl rfl,nofun⟩
  · cases resolved
    exact ⟨nofun,fun _ => .inl rfl⟩
  · split at resolved
    · rename_i found isFound
      split at resolved
      · rename_i same
        cases resolved
        exact ⟨fun _ => .inr ⟨rfl,found,World.get?_of_readSegmentFooter isFound,same⟩,nofun⟩
      · rename_i other
        cases resolved
        exact ⟨nofun,fun _ => .inr ⟨rfl,found,World.get?_of_readSegmentFooter isFound,other⟩⟩
    · cases resolved
      exact ⟨nofun,nofun⟩
  · cases resolved
    exact ⟨nofun,nofun⟩
  · cases resolved

section

variable {flush : Flush} (held : r.flush = some flush)

include held

variable {config : Config} {listed : Option Nat} {tp : Topition} {todo : List Topition}
  {assigned : Assigned} {tail : Int} {footer : SegmentFooter}

lemma attemptStep_step (phase : flush.phase = .start)
    (moved : r.attemptStep w flush resp = some next) :
    FlushStep config w r (.flush resp) w next := by
  unfold Replica.attemptStep at moved
  simp only at moved
  split at moved
  · cases moved
    exact .awaits held phase
  · rename_i seq isPeer
    split at moved
    · rename_i footer isRead
      cases moved
      exact .folds held phase isPeer (World.get?_of_readSegmentFooter isRead)
    · cases moved
      exact .awaits held phase
  · cases moved
    exact .awaits held phase
  · cases moved

lemma candidateStep_step (phase : flush.phase = .cursor listed)
    (moved : r.candidateStep w flush listed resp = some next) :
    FlushStep config w r (.flush resp) w next := by
  unfold Replica.candidateStep Replica.tailNextSeqFolded at moved
  split at moved
  · split at moved
    · rename_i floor isCertified
      cases moved
      exact .certified held phase isCertified
    · rename_i uncertified
      cases moved
      exact .readsFloor held phase uncertified
  · cases moved
    exact .ends held (by simp [phase])
  · cases moved

lemma baseStep_step (phase : flush.phase = .tail candidate tp todo assigned tail)
    (moved : r.baseStep config w flush candidate tp todo assigned tail resp =
      some next) : FlushStep config w r (.flush resp) w next := by
  unfold Replica.baseStep at moved
  simp only at moved
  split at moved
  · cases moved
    exact .bases held phase (.inl ⟨rfl,rfl⟩)
  · cases moved
    exact .bases held phase (.inr ⟨rfl,rfl⟩)
  · cases moved

lemma putStep_step (phase : flush.phase = .put candidate assigned)
    (moved : r.putStep config w flush candidate assigned resp = some (after, next)) :
    FlushStep config w r (.flush resp) after next := by
  unfold Replica.putStep at moved
  split at moved
  · cases moved
    exact .ends held (by simp [phase])
  · rename_i object footer encoded
    obtain ⟨⟨created,answer⟩,put,same⟩ := map_eq_some_iff.mp moved
    cases same
    rcases putCreate_outcome put with ⟨rfl,free,effective,isAnswer⟩ | ⟨rfl,missed⟩
    · exact .creates held phase encoded free effective isAnswer
    · exact .misses held phase encoded missed

lemma resolveStep_step (phase : flush.phase = .answered candidate assigned footer answer)
    (moved : r.resolveStep w flush candidate assigned footer answer resp = some
      (after, next)) : FlushStep config w r (.flush resp) after next := by
  obtain ⟨res,resolved,same⟩ := map_eq_some_iff.mp moved
  obtain ⟨won,lost⟩ := resolveSegmentCreate_outcome resolved
  cases res with
  | won =>
    cases same
    exact .wins held phase (won rfl)
  | lost =>
    cases same
    exact .loses held phase (lost rfl)
  | failed =>
    cases same
    exact .ends held (by simp [phase])

end

variable {stepped : Option Replica} {config : Config} {doomed seqs left run : List Nat}
  {affected todo : List Topition} {tp : Topition} {tail writerEpoch : Int} {expired : Bool}
  {job : Job} {first : Nat} {footer : SegmentFooter} {listed : Option Nat}
  {writes : List SubstreamWrite} {action : Act}

/-- A step that leaves the world as it is. -/
lemma quietly {holds : World → Replica → Prop}
    (mapped : stepped.map (fun next => (w, next)) = some (after, next))
    (step : ∀ moved, stepped = some moved → holds w moved) : holds after next := by
  obtain ⟨moved,isMoved,same⟩ := map_eq_some_iff.mp mapped
  cases same
  exact step _ isMoved

lemma flushStep_step (moved : r.flushStep config w resp = some (after, next)) :
    FlushStep config w r (.flush resp) after next := by
  unfold Replica.flushStep at moved
  split at moved
  · cases moved
  rename_i flush held
  split at moved
  · next phase => exact quietly moved (fun _ stepped => attemptStep_step held phase stepped)
  · cases moved
  · rename_i phase
    rw [ite_none_right_eq_some] at moved
    obtain ⟨rfl,moved⟩ := moved
    cases moved
    exact .takesCursor held phase
  · next phase => exact quietly moved (fun _ stepped => candidateStep_step held phase stepped)
  · rename_i phase
    rw [ite_none_right_eq_some] at moved
    obtain ⟨rfl,moved⟩ := moved
    cases moved
    exact .derives held phase
  · rename_i phase
    rw [ite_none_right_eq_some] at moved
    obtain ⟨rfl,moved⟩ := moved
    unfold Replica.basingStep at moved
    split at moved
    · split at moved
      · rename_i isEmpty
        cases moved
        exact .answers held phase isEmpty
      · cases moved
        exact .readies held phase
    · cases moved
      exact .takesTail held phase
  · next phase => exact quietly moved (fun _ stepped => baseStep_step held phase stepped)
  · next phase => exact putStep_step held phase moved
  · next phase => exact resolveStep_step held phase moved

lemma floorHeldStep_step
    (held : r.maintain = some (.floorHeld doomed affected tp tail todo))
    (moved : r.floorHeldStep w doomed affected tp tail todo resp =
      some (after, next)) : MaintainStep config w r (.maintain resp) after next := by
  unfold Replica.floorHeldStep at moved
  split at moved
  · cases moved
    exact .floorRaised held
  · cases moved
    exact .floorRaised held
  · cases moved
    exact .floorFailed held
  · cases moved

lemma retireStep_step (held : r.maintain = some (.retire expired seqs affected))
    (moved : r.retireStep w expired seqs affected resp = some (after, next)) :
    MaintainStep config w r (.maintain resp) after next := by
  unfold Replica.retireStep at moved
  split at moved
  · cases moved
    exact .ends held rfl
  · rename_i last isLast
    split at moved
    · cases moved
      split
      · exact .retires held isLast (.inl rfl)
      · exact .retires held isLast (.inr rfl)
    · cases moved
      exact .retireLost held isLast
    · cases moved
      exact .ends held rfl
    · cases moved

lemma deletingStep_step (held : r.maintain = some (.deleting expired seqs left affected))
    (moved : r.deletingStep w expired seqs left affected resp = some (after, next)) :
    MaintainStep config w r (.maintain resp) after next := by
  unfold Replica.deletingStep at moved
  split at moved
  · cases moved
    exact .prunes held
  · cases moved
    exact .deletes held
  · cases moved
    exact .deleteLost held
  · cases moved
    exact .ends held rfl
  · cases moved

lemma hintStep_step (held : r.maintain = some (.hint job))
    (moved : r.hintStep w job resp = some next) :
    MaintainStep config w r (.maintain resp) w next := by
  unfold Replica.hintStep at moved
  split at moved
  · cases moved
    refine .hints held ?_
    cases r.cachedSeq with
    | none => exact .inr rfl
    | some hinted => exact .inl rfl
  · cases moved
    exact .ends held rfl
  · cases moved

lemma hintFloorStep_step (held : r.maintain = some (.hintFloor job first))
    (moved : r.hintFloorStep w job first resp = some next) :
    MaintainStep config w r (.maintain resp) w next := by
  unfold Replica.hintFloorStep at moved
  split at moved
  · cases moved
    exact .hintFloors held
  · cases moved
    exact .ends held rfl
  · cases moved

lemma jobPutStep_step (held : r.maintain = some (.put job candidate))
    (moved : r.jobPutStep config w job candidate resp = some (after, next)) :
    MaintainStep config w r (.maintain resp) after next := by
  unfold Replica.jobPutStep at moved
  split at moved
  · cases moved
    exact .ends held rfl
  · rename_i object footer encoded
    obtain ⟨⟨created,answer⟩,put,same⟩ := map_eq_some_iff.mp moved
    cases same
    rcases putCreate_outcome put with ⟨rfl,free,effective,isAnswer⟩ | ⟨rfl,missed⟩
    · exact .creates held encoded free effective isAnswer
    · exact .misses held encoded missed

lemma jobResolveStep_step (held : r.maintain = some (.answered job candidate footer answer))
    (moved : r.jobResolveStep w job candidate footer answer resp = some next) :
    MaintainStep config w r (.maintain resp) w next := by
  obtain ⟨res,resolved,same⟩ := map_eq_some_iff.mp moved
  obtain ⟨won,lost⟩ := resolveSegmentCreate_outcome resolved
  cases res with
  | won =>
    cases same
    exact .wins held (won rfl)
  | lost =>
    cases same
    exact .loses held (lost rfl)
  | failed =>
    cases same
    exact .ends held rfl

lemma jobCandidateStep_step (held : r.maintain = some (.cursor job listed))
    (moved : r.jobCandidateStep w job listed resp = some next) :
    MaintainStep config w r (.maintain resp) w next := by
  unfold Replica.jobCandidateStep Replica.tailNextSeqFolded at moved
  split at moved
  · split at moved
    · rename_i floor isCertified
      cases moved
      exact .certified held isCertified
    · cases moved
      exact .readsFloor held
  · cases moved
    exact .ends held rfl
  · cases moved

lemma maintainStep_step (moved : r.maintainStep config w resp = some (after, next)) :
    MaintainStep config w r (.maintain resp) after next := by
  unfold Replica.maintainStep at moved
  split at moved
  · cases moved
  rename_i task held
  cases task with
  | floors doomed affected todo =>
    simp only at moved
    rw [ite_none_right_eq_some] at moved
    obtain ⟨rfl,moved⟩ := moved
    unfold Replica.floorsStep at moved
    split at moved
    · cases moved
      exact .floorsDone held
    · split at moved
      · rename_i unseen
        cases moved
        exact .floorsSkip held unseen
      · rename_i seen
        cases moved
        exact .floorsTake held seen
  | floorHeld doomed affected tp tail todo => exact floorHeldStep_step held moved
  | retire expired seqs affected => exact retireStep_step held moved
  | deleting expired seqs left affected => exact deletingStep_step held moved
  | hint job => exact quietly moved (fun _ stepped => hintStep_step held stepped)
  | hintFloor job first =>
    exact quietly moved (fun _ stepped => hintFloorStep_step held stepped)
  | put job candidate => exact jobPutStep_step held moved
  | answered job candidate footer answer =>
    exact quietly moved (fun _ stepped => jobResolveStep_step held stepped)
  | refresh | foldBelow => cases moved
  | folded job =>
    simp only at moved
    rw [ite_none_right_eq_some] at moved
    obtain ⟨rfl,moved⟩ := moved
    cases moved
    exact .takesCursor held
  | cursor job listed =>
    exact quietly moved (fun _ stepped => jobCandidateStep_step held stepped)
  | floor job listed read gen =>
    simp only at moved
    rw [ite_none_right_eq_some] at moved
    obtain ⟨rfl,moved⟩ := moved
    cases moved
    exact .derives held
  | insert job seq footer =>
    simp only at moved
    rw [ite_none_right_eq_some] at moved
    obtain ⟨rfl,moved⟩ := moved
    cases moved
    exact .inserts held

lemma startExpire_step (moved : r.startExpire doomed = some next) :
    MaintainStep config w r (.expire doomed) w next := by
  unfold Replica.startExpire at moved
  split at moved
  · cases moved
  rename_i free
  simp only [Bool.or_eq_true,not_or,Bool.not_eq_true,Bool.not_eq_false',List.all_eq_true,
    isSome_eq_false_iff,isNone_iff_eq_none] at free
  cases moved
  exact .expires free.1 free.2

lemma startCompact_step
    (moved : r.startCompact config w run writes writerEpoch = some (after, next)) :
    MaintainStep config w r (.compact run writes writerEpoch) after next := by
  unfold Replica.startCompact at moved
  split at moved
  · cases moved
  rename_i free
  simp only [Bool.or_eq_true,not_or,Bool.not_eq_true,Bool.not_eq_false',List.all_eq_true,
    isSome_eq_false_iff,isNone_iff_eq_none,decide_eq_true_eq] at free
  split at moved
  · rename_i isEmpty
    subst isEmpty
    cases moved
    exact .drops free.1.1 free.1.2
  · cases moved
    exact .merges free.1.1 free.1.2 free.2

lemma act_step (acted : act config w r action = some (after, next)) :
    Step config w r action after next := by
  cases action with
  | startRefresh owner due =>
    exact quietly acted (fun _ stepped => .refresh (startRefresh_step stepped))
  | refresh resp =>
    exact quietly acted (fun _ stepped => .refresh (refreshStep_step stepped))
  | cancelRefresh =>
    apply quietly acted
    intro moved stepped
    obtain ⟨refresh,held,same⟩ := map_eq_some_iff.mp stepped
    cases isOwner : refresh.owner <;> rw [isOwner] at same <;> cases same
    · exact .refresh (.cancels held (.inl isOwner) nofun)
    · exact .refresh (.cancels held (.inl isOwner) nofun)
    · exact .refresh (.cancels held (.inl isOwner) nofun)
    · exact .refresh (.cancels held (.inr ⟨_,isOwner,rfl⟩) nofun)
  | startFlush pending =>
    simp only [act,Replica.startFlush] at acted
    split at acted
    · cases acted
    rename_i idle
    cases acted
    exact .flush (.begins (by simpa using idle))
  | flush resp => exact .flush (flushStep_step acted)
  | giveUp =>
    apply quietly acted
    intro moved stepped
    unfold Replica.giveUp at stepped
    split at stepped
    · rename_i flush held
      split at stepped
      · rename_i phase
        cases stepped
        exact .flush (.ends held (by simp [phase]))
      · cases stepped
    · cases stepped
  | expire doomed =>
    exact quietly acted (fun _ stepped => .maintain (startExpire_step stepped))
  | compact run writes writerEpoch => exact .maintain (startCompact_step acted)
  | maintain resp => exact .maintain (maintainStep_step acted)
  | halt =>
    simp only [act] at acted
    split at acted
    · cases acted
    rename_i free
    cases acted
    refine .maintain (.halts ?_)
    intro refresh held
    rw [held] at free
    cases owner : refresh.owner with
    | reader => exact .inl rfl
    | flush => exact .inr rfl
    | claim | won => simp [owner] at free
  | vanished seq =>
    apply quietly acted
    intro moved stepped
    unfold Replica.findVanished at stepped
    split at stepped
    · rename_i gone
      simp only [Bool.and_eq_true,Bool.not_eq_true'] at gone
      cases stepped
      exact .read (.vanishes gone.1 gone.2)
    · cases stepped
  | prune seqs =>
    apply quietly acted
    intro moved stepped
    unfold Replica.pruneVanished at stepped
    split at stepped
    · rename_i gone
      simp only [List.all_eq_true,List.contains_iff_mem] at gone
      cases stepped
      exact .read (.prunes gone)
    · cases stepped
  | restart =>
    cases acted
    exact .restart

end

end Kodansu.Leaseless

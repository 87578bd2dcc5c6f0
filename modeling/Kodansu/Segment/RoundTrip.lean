/-
The segment format round trip.

What the encoder builds is first described without its loops: the regions of the
non-empty writes, one after another, and an entry for each.  The footer then comes back
exactly when every narrowed field had room for its value, and a region's batches
exactly when none of them is a pre-v2 message set.
-/

import Kodansu.Segment.Encode

namespace Kodansu.Segment

open Lib.Wire List
open Record

/-! ### What the encoder builds -/

def written (substreams : List SubstreamWrite) : List SubstreamWrite :=
  substreams.filter (fun write => write.batches ≠ [])

def SubstreamWrite.region (write : SubstreamWrite) : Region :=
  write.batches.foldl Region.push {}

def entriesFrom : Nat → List SubstreamWrite → List SubstreamEntry
  | _, [] => []
  | byteStart, write :: rest =>
    entryAt byteStart write write.region :: entriesFrom (byteStart + write.region.bytes.length) rest

lemma Region.foldl_push_bytes (batches : List Batch) (region : Region) :
    (batches.foldl Region.push region).bytes = region.bytes ++ batches.flatMap Batch.toBytes := by
  induction batches generalizing region with
  | nil => simp
  | cons batch rest ih => simp [ih,Region.push,append_assoc]

lemma SubstreamWrite.region_bytes (write : SubstreamWrite) :
    write.region.bytes = write.batches.flatMap Batch.toBytes := by
  simp [SubstreamWrite.region,Region.foldl_push_bytes]

lemma Region.foldl_push_producers_length (batches : List Batch) (region : Region) :
    (batches.foldl Region.push region).producers.length =
      region.producers.length + batches.countP indexed := by
  induction batches generalizing region with
  | nil => simp
  | cons batch rest ih =>
    rw [foldl_cons,ih,countP_cons]
    by_cases coordinate : indexed batch = true
    · simp only [Region.push,coordinate,if_true,length_append,length_singleton]
      omega
    · simp [Region.push,coordinate]

lemma SubstreamWrite.region_producers_length (write : SubstreamWrite) :
    write.region.producers.length = write.batches.countP indexed := by
  simp [SubstreamWrite.region,Region.foldl_push_producers_length]

variable {write : SubstreamWrite} {batches : List Batch} {region res : Region} {batch : Batch}
  {count index version nonce : Nat} {substreams : List SubstreamWrite}
  {body body' object : List UInt8} {entries entries' : List SubstreamEntry} {writerEpoch : Int}
  {footer : SegmentFooter}

lemma encodeBatches_ok (encoded : encodeBatches write batches index region = .ok res) :
    res = batches.foldl Region.push region ∧
      ∀ batch ∈ batches, batch.declaresItsOwnLength = true := by
  induction batches generalizing index region with
  | nil =>
    cases encoded
    exact ⟨rfl,fun _ absent => by cases absent⟩
  | cons batch rest ih =>
    unfold encodeBatches at encoded
    split_ifs at encoded with own
    obtain ⟨same,others⟩ := ih encoded
    refine ⟨same,fun mem inBatches => ?_⟩
    rcases mem_cons.mp inBatches with rfl | inRest
    · exact own
    · exact others mem inRest

lemma written_cons_nil (rest : List SubstreamWrite) (empty : write.batches = []) :
    written (write :: rest) = written rest := by
  simp [written,empty]

lemma written_cons (rest : List SubstreamWrite) (nonempty : write.batches ≠ []) :
    written (write :: rest) = write :: written rest := by
  simp [written,nonempty]

/-- What an accepted list of writes satisfies. -/
structure Accepted (version : Nat) (write : SubstreamWrite) : Prop where
  keyed : version < segmentFormatVersionV4 → write.substream.id? = none
  own : ∀ batch ∈ write.batches, batch.declaresItsOwnLength = true

lemma encodeWrites_ok
    (encoded : encodeWrites version substreams body entries = .ok (body', entries')) :
    body' = body ++ (written substreams).flatMap (fun write => write.region.bytes) ∧
      entries' = entries ++ entriesFrom body.length (written substreams) ∧
      ∀ write ∈ written substreams, Accepted version write := by
  induction substreams generalizing body entries with
  | nil =>
    cases encoded
    exact ⟨by simp [written],by simp [written,entriesFrom],fun _ absent => by cases absent⟩
  | cons write rest ih =>
    unfold encodeWrites at encoded
    split_ifs at encoded with empty refused
    · rw [written_cons_nil rest empty]
      exact ih encoded
    · rw [written_cons rest empty]
      cases regionOk : encodeBatches write write.batches 0 {} with
      | error failure => rw [regionOk] at encoded; cases encoded
      | ok region =>
        rw [regionOk] at encoded
        obtain ⟨sameRegion,own⟩ := encodeBatches_ok regionOk
        replace sameRegion : region = write.region := sameRegion
        subst sameRegion
        obtain ⟨bodyEq,entriesEq,accepted⟩ := ih encoded
        refine ⟨?_,?_,?_⟩
        · rw [bodyEq,flatMap_cons,append_assoc]
        · rw [entriesEq,entriesFrom,append_assoc,length_append]
          rfl
        · intro mem inWritten
          rcases mem_cons.mp inWritten with rfl | inRest
          · refine ⟨fun old => ?_,own⟩
            by_contra keyed
            exact refused ⟨old,keyed⟩
          · exact accepted mem inRest

lemma encodeSegmentIndexed_ok
    (encoded : encodeSegmentIndexed substreams writerEpoch nonce version = .ok (object, footer)) :
    object = (written substreams).flatMap (fun write => write.region.bytes) ++
        encodeFooter footer version ++
        trailerBytes (encodeFooter footer version).length footer.entries.length version ∧
      footer = ⟨writerEpoch, nonce, entriesFrom 0 (written substreams)⟩ ∧ object.length ≤ isizeMax ∧
      ∀ write ∈ written substreams, Accepted version write := by
  unfold encodeSegmentIndexed at encoded
  cases writes : encodeWrites version substreams [] [] with
  | error failure => rw [writes] at encoded; cases encoded
  | ok res =>
    obtain ⟨body,entries⟩ := res
    obtain ⟨bodyEq,entriesEq,accepted⟩ := encodeWrites_ok writes
    subst bodyEq entriesEq
    rw [writes] at encoded
    change (if _ then Except.ok _ else Except.error _) = _ at encoded
    split_ifs at encoded with fits
    cases encoded
    exact ⟨rfl,rfl,fits,accepted⟩

lemma encodeBatches_of_own (write : SubstreamWrite)
    (own : ∀ batch ∈ batches, batch.declaresItsOwnLength = true) (index : Nat) (region : Region) :
    encodeBatches write batches index region = .ok (batches.foldl Region.push region) := by
  induction batches generalizing index region with
  | nil => rfl
  | cons batch rest ih =>
    unfold encodeBatches
    rw [if_pos (own batch mem_cons_self)]
    exact ih (fun other mem => own other (mem_cons_of_mem batch mem)) _ _

lemma encodeSegmentIndexed_single
    (nonempty : write.batches ≠ []) (accepted : Accepted version write)
    (bound : (write.region.bytes ++
        encodeFooter ⟨writerEpoch, nonce, [entryAt 0 write write.region]⟩ version ++ trailerBytes
          (encodeFooter ⟨writerEpoch, nonce, [entryAt 0 write write.region]⟩ version).length
          1 version).length ≤ isizeMax) :
    ∃ object, encodeSegmentIndexed [write] writerEpoch nonce version =
      .ok (object, ⟨writerEpoch, nonce, [entryAt 0 write write.region]⟩) := by
  have writes : encodeWrites version [write] [] [] =
      .ok (write.region.bytes, [entryAt 0 write write.region]) := by
    unfold encodeWrites
    rw [if_neg nonempty,if_neg (fun refused => refused.2 (accepted.keyed refused.1)),
      encodeBatches_of_own write accepted.own]
    rfl
  unfold encodeSegmentIndexed
  rw [writes]
  exact ⟨_,if_pos bound⟩

/-! ### The footer in a tail -/

lemma trailerBytes_length (footerLen entryCount version : Nat) :
    (trailerBytes footerLen entryCount version).length = segmentTrailerLen := by
  simp [trailerBytes,segmentTrailerLen]

lemma slice_append (before middle after : List UInt8) :
    slice (before ++ middle ++ after) before.length (before.length + middle.length) = middle := by
  unfold slice
  rw [append_assoc,← append_assoc before middle after,take_left' (length_append),drop_left' rfl]

lemma trailer_fields (footerLen entryCount version : Nat) :
    slice (trailerBytes footerLen entryCount version) 0 8 = natBytes 8 footerLen ∧
      slice (trailerBytes footerLen entryCount version) 8 12 = natBytes 4 entryCount ∧
      slice (trailerBytes footerLen entryCount version) 12 14 = natBytes 2 version ∧
      slice (trailerBytes footerLen entryCount version) 14 18 = natBytes 4 segmentMagic := by
  have first := slice_append [] (natBytes 8 footerLen)
    (natBytes 4 entryCount ++ (natBytes 2 version ++ natBytes 4 segmentMagic))
  have second := slice_append (natBytes 8 footerLen) (natBytes 4 entryCount)
    (natBytes 2 version ++ natBytes 4 segmentMagic)
  have third := slice_append (natBytes 8 footerLen ++ natBytes 4 entryCount)
    (natBytes 2 version) (natBytes 4 segmentMagic)
  have fourth := slice_append
    (natBytes 8 footerLen ++ (natBytes 4 entryCount ++ natBytes 2 version))
    (natBytes 4 segmentMagic) []
  simp only [length_append,length_nil,natBytes_length,append_assoc,
    nil_append,append_nil] at first second third fourth
  exact ⟨first,second,third,fourth⟩

lemma decodeSegmentFooter_tail (front footerBytes : List UInt8) (entryCount : Nat)
    (known : version = segmentFormatVersionV3 ∨ version = segmentFormatVersionV4)
    (bound : footerBytes.length < 2 ^ 64) : decodeSegmentFooter
        (front ++ footerBytes ++ trailerBytes footerBytes.length entryCount version) =
      some <$> decodeFooter footerBytes (entryCount % 2 ^ 32) version := by
  obtain ⟨lenField,countField,versionField,magicField⟩ :=
    trailer_fields footerBytes.length entryCount version
  have length : (front ++ footerBytes ++
      trailerBytes footerBytes.length entryCount version).length =
        (front.length + footerBytes.length) + segmentTrailerLen := by
    rw [length_append,length_append,trailerBytes_length]
  have trailer : (front ++ footerBytes ++ trailerBytes footerBytes.length entryCount version).drop
        (front.length + footerBytes.length) = trailerBytes footerBytes.length entryCount version :=
    drop_left' length_append
  have lenValue : bytesNat (natBytes 8 footerBytes.length) = footerBytes.length :=
    bytesNat_natBytes_of_lt bound
  have countValue : bytesNat (natBytes 4 entryCount) = entryCount % 2 ^ 32 :=
    bytesNat_natBytes 4 entryCount
  have versionValue : bytesNat (natBytes 2 version) = version := by
    rcases known with rfl | rfl <;> decide
  have accepted : ¬ (version ≠ 1 ∧ version ≠ segmentFormatVersionV2 ∧
      version ≠ segmentFormatVersionV3 ∧ version ≠ segmentFormatVersionV4) := by
    rintro ⟨_,_,not3,not4⟩
    exact known.elim not3 not4
  have footerSlice := slice_append front footerBytes
    (trailerBytes footerBytes.length entryCount version)
  unfold decodeSegmentFooter
  simp only [length,Nat.add_sub_cancel,trailer,lenField,countField,versionField,magicField,
    lenValue,countValue,versionValue]
  rw [if_neg (by omega),if_neg (not_not.mpr (by decide)),if_neg accepted,if_neg (by omega),
    footerSlice]

/-! ### The batches of a region -/

lemma decodeFrameFrom_nil (at' : Nat) : decodeFrameFrom at' [] = .ok ([], .exhausted) := by
  rw [decodeFrameFrom]
  rfl

lemma decodeFrameFrom_toBytes (at' : Nat) (typed : batch.Typed)
    (own : batch.declaresItsOwnLength = true) (rest : List UInt8) :
    decodeFrameFrom at' (batch.toBytes ++ rest) = (do
      let (batches, tail) ← decodeFrameFrom (at' + batch.wireSize) rest
      pure (batch.decoded :: batches, tail)) := by
  obtain ⟨declared,_⟩ := (batch.declaresItsOwnLength_iff).mp own
  have size : batch.wireSize = 12 + batch.batchLength.toNat := by
    rw [declared,Int.toNat_natCast,Batch.wireSize]
    omega
  have lengthField : slice (batch.toBytes ++ rest) 8 12 = intBytes 4 batch.batchLength := by
    obtain ⟨body,framed⟩ := batch.toBytes_framed
    have field := slice_append (intBytes 8 batch.baseOffset) (intBytes 4 batch.batchLength)
      (body ++ rest)
    rw [framed,append_assoc]
    simpa using field
  have value : bytesInt (intBytes 4 batch.batchLength) = batch.batchLength :=
    bytesInt_intBytes typed.batchLength (by decide)
  have long : ¬ (batch.toBytes ++ rest).length < 12 := by
    rw [length_append,Batch.toBytes_length,size]
    omega
  have nonneg : ¬ batch.batchLength < 0 := by
    omega
  have inside : ¬ 12 + batch.batchLength.toNat > (batch.toBytes ++ rest).length := by
    rw [length_append,Batch.toBytes_length,size]
    omega
  have front : (batch.toBytes ++ rest).take (12 + batch.batchLength.toNat) = batch.toBytes :=
    take_left' ((Batch.toBytes_length batch).trans size)
  have back : (batch.toBytes ++ rest).drop (12 + batch.batchLength.toNat) = rest :=
    drop_left' ((Batch.toBytes_length batch).trans size)
  rw [decodeFrameFrom,dif_neg long]
  simp only [lengthField,value]
  rw [if_neg nonneg,if_neg inside,front,back,Batch.tryFrom_toBytes typed own,← size]
  rfl

/-- A region's bytes decode to its batches, each as it comes back from the wire. -/
lemma decodeFrame_flatMap (typed : ∀ batch ∈ batches, batch.Typed)
    (own : ∀ batch ∈ batches, batch.declaresItsOwnLength = true) :
    decodeFrame (batches.flatMap Batch.toBytes) = .ok (batches.map Batch.decoded, .exhausted) := by
  unfold decodeFrame
  generalize 0 = at'
  induction batches generalizing at' with
  | nil => exact decodeFrameFrom_nil at'
  | cons batch rest ih =>
    rw [flatMap_cons,decodeFrameFrom_toBytes at' (typed batch mem_cons_self)
      (own batch mem_cons_self),ih (fun other mem => typed other
        (mem_cons_of_mem batch mem)) (fun other mem => own other
        (mem_cons_of_mem batch mem))]
    rfl

/-! ### Ranges of what is reported -/

structure SubstreamWrite.Typed (write : SubstreamWrite) : Prop where
  partition : Fits 32 write.topition.partition
  baseOffset : Fits 64 write.baseOffset
  batches : ∀ batch ∈ write.batches, batch.Typed

structure Region.Typed (region : Region) : Prop where
  recordCount : Fits 64 region.recordCount
  maxTimestamp : Fits 64 region.maxTimestamp
  producers : ∀ coord ∈ region.producers, CoordTyped coord

variable {bits : Nat}

lemma fits_bmod (nonempty : 0 < bits) (value : Int) : Fits bits (Int.bmod value (2 ^ bits)) := by
  obtain ⟨width,rfl⟩ := Nat.exists_eq_succ_of_ne_zero nonempty.ne'
  have pos : 0 < 2 ^ (width + 1) := by positivity
  have low := Int.le_bmod (x := value) pos
  have high := Int.bmod_lt (x := value) pos
  have half : ((2 ^ (width + 1) : Nat) : Int) = 2 * 2 ^ width := by
    push_cast
    ring
  simp only [Nat.succ_eq_add_one,Fits,Nat.add_sub_cancel]
  omega

lemma Region.coord_typed (region : Region) (typed : batch.Typed) :
    CoordTyped (region.coord batch) := by
  refine ⟨typed.producerId,typed.producerEpoch,typed.baseSequence,fits_bmod (by decide) _,?_⟩
  simp only [Region.coord]
  omega

lemma Region.push_typed (typed : region.Typed) (batchTyped : batch.Typed) :
    (region.push batch).Typed := by
  refine ⟨fits_bmod (by decide) _,?_,?_⟩
  · simp only [Region.push]
    rcases max_choice region.maxTimestamp batch.maxTimestamp with same | same
    · rw [same]
      exact typed.maxTimestamp
    · rw [same]
      exact batchTyped.maxTimestamp
  · intro coord mem
    simp only [Region.push] at mem
    split_ifs at mem
    · rcases mem_append.mp mem with earlier | last
      · exact typed.producers coord earlier
      · exact mem_singleton.mp last ▸ region.coord_typed batchTyped
    · exact typed.producers coord mem

lemma SubstreamWrite.region_typed (typed : write.Typed) : write.region.Typed := by
  have empty : ({} : Region).Typed := ⟨by decide,by decide,fun _ absent => by cases absent⟩
  have fold : ∀ (batches : List Batch) (region : Region), region.Typed →
      (∀ batch ∈ batches, batch.Typed) → (batches.foldl Region.push region).Typed := by
    intro batches
    induction batches with
    | nil => exact fun _ regionTyped _ => regionTyped
    | cons batch rest ih =>
      intro region regionTyped batchesTyped
      exact ih _ (Region.push_typed regionTyped (batchesTyped batch (.head _)))
        (fun other mem => batchesTyped other (mem_cons_of_mem batch mem))
  exact fold write.batches {} empty typed.batches

/-! ### Entries and regions -/

variable {byteStart : Nat} {writes : List SubstreamWrite} {entry : SubstreamEntry}

lemma mem_entriesFrom (mem : entry ∈ entriesFrom byteStart writes) :
    ∃ write ∈ writes, ∃ start, entry = entryAt start write write.region ∧
      start + write.region.bytes.length ≤
        byteStart + (writes.flatMap (fun write => write.region.bytes)).length := by
  induction writes generalizing byteStart with
  | nil => cases mem
  | cons write rest ih =>
    rw [flatMap_cons,length_append]
    rcases mem_cons.mp mem with rfl | inRest
    · exact ⟨write,.head _,byteStart,rfl,by omega⟩
    · obtain ⟨found,inWrites,start,same,bound⟩ := ih inRest
      exact ⟨found,mem_cons_of_mem write inWrites,start,same,by omega⟩

lemma entryAt_mem_entriesFrom (byteStart : Nat) (mem : write ∈ writes) :
    ∃ start, entryAt start write write.region ∈ entriesFrom byteStart writes := by
  induction writes generalizing byteStart with
  | nil => cases mem
  | cons head rest ih =>
    rcases mem_cons.mp mem with rfl | inRest
    · exact ⟨byteStart,.head _⟩
    · obtain ⟨start,inEntries⟩ := ih (byteStart + head.region.bytes.length) inRest
      exact ⟨start,.tail _ inEntries⟩

@[simp] lemma entriesFrom_length (byteStart : Nat) (writes : List SubstreamWrite) :
    (entriesFrom byteStart writes).length = writes.length := by
  induction writes generalizing byteStart with
  | nil => rfl
  | cons write rest ih => simp [entriesFrom,ih]

/-- The byte ranges follow one another from `start` to `stop`. -/
def Tiles : Nat → List SubstreamEntry → Nat → Prop
  | start, [], stop => start = stop
  | start, entry :: rest, stop => entry.byteStart = start ∧ Tiles (start + entry.byteLen) rest stop

lemma entriesFrom_tiles (byteStart : Nat) (writes : List SubstreamWrite) :
    Tiles byteStart (entriesFrom byteStart writes)
      (byteStart + (writes.flatMap (fun write => write.region.bytes)).length) := by
  induction writes generalizing byteStart with
  | nil => exact rfl
  | cons write rest ih =>
    refine ⟨rfl,?_⟩
    rw [flatMap_cons,length_append,← Nat.add_assoc]
    exact ih (byteStart + write.region.bytes.length)

lemma entriesFrom_slices (before after : List UInt8) (writes : List SubstreamWrite) : List.Forall₂
      (fun write entry =>
        slice (before ++ writes.flatMap (fun write => write.region.bytes) ++ after)
          entry.byteStart (entry.byteStart + entry.byteLen) = write.region.bytes)
      writes (entriesFrom before.length writes) := by
  induction writes generalizing before with
  | nil => exact List.Forall₂.nil
  | cons write rest ih =>
    have later := ih (before ++ write.region.bytes)
    rw [length_append] at later
    rw [flatMap_cons,← append_assoc before]
    refine List.Forall₂.cons ?_ later
    rw [append_assoc]
    exact slice_append before write.region.bytes _

/-! ### The round trip -/

/-- The object reads back as what was written. -/
structure RoundTrip (substreams : List SubstreamWrite) (version : Nat) (object : List UInt8)
    (footer : SegmentFooter) : Prop where
  reported : ∀ tail, tail <:+ object →
    (encodeFooter footer version).length + segmentTrailerLen ≤ tail.length →
      decodeSegmentFooter tail = .ok (some footer)
  tiles : Tiles 0 footer.entries
    (object.length - ((encodeFooter footer version).length + segmentTrailerLen))
  batches : List.Forall₂
    (fun write entry =>
      decodeFrame (slice object entry.byteStart (entry.byteStart + entry.byteLen)) =
        .ok (write.batches, .exhausted))
    (written substreams) footer.entries

/-- A write whose every field survives the widths and sentinels of the format. -/
structure Representable (write : SubstreamWrite) : Prop where
  topic : (topicBytes write.topition.topic).length < 2 ^ 16
  substream : write.substream ≠ .id nilUuid
  producers : write.batches.countP indexed < 2 ^ 16
  batches : ∀ batch ∈ write.batches, batch.magic = magicRecordBatchV2 ∨
    batch = Batch.husk batch.baseOffset batch.batchLength batch.magic

lemma entryFits_iff (start : Nat) : EntryFits (entryAt start write write.region) ↔
      (topicBytes write.topition.topic).length < 2 ^ 16 ∧ write.substream ≠ .id nilUuid ∧
        write.batches.countP indexed < 2 ^ 16 := by
  have idKeyed : write.substream.id? = some nilUuid ↔ write.substream = .id nilUuid := by
    cases write.substream <;> simp [Substream.id?]
  rw [← SubstreamWrite.region_producers_length,Ne,← idKeyed]
  exact ⟨fun fits => ⟨fits.topic,fits.topicId,fits.producers⟩,
    fun ⟨topic,topicId,producers⟩ => ⟨topic,topicId,producers⟩⟩

section

variable
  (encoded : encodeSegmentIndexed substreams writerEpoch nonce version = .ok (object, footer))

include encoded

lemma decodeSegmentFooter_of_encoded
    (known : version = segmentFormatVersionV3 ∨ version = segmentFormatVersionV4)
    {tail : List UInt8} (isTail : tail <:+ object)
    (holds : (encodeFooter footer version).length + segmentTrailerLen ≤ tail.length) :
    decodeSegmentFooter tail = some <$> decodeFooter (encodeFooter footer version)
        (footer.entries.length % 2 ^ 32) version := by
  obtain ⟨objectEq,_,bound,_⟩ := encodeSegmentIndexed_ok encoded
  rw [append_assoc] at objectEq
  have ending : encodeFooter footer version ++
      trailerBytes (encodeFooter footer version).length footer.entries.length version <:+ tail := by
    refine suffix_of_suffix_length_le (objectEq ▸ suffix_append _ _) isTail ?_
    rwa [length_append,trailerBytes_length]
  obtain ⟨front,rfl⟩ := ending
  rw [← append_assoc]
  apply decodeSegmentFooter_tail front _ _ known
  rw [objectEq,length_append,length_append] at bound
  unfold isizeMax at bound
  omega

lemma entryTyped_of_encoded (typed : ∀ write ∈ substreams, write.Typed) :
    ∀ entry ∈ footer.entries, EntryTyped entry := by
  obtain ⟨objectEq,footerEq,bound,_⟩ := encodeSegmentIndexed_ok encoded
  rw [objectEq,length_append,length_append] at bound
  unfold isizeMax at bound
  intro entry mem
  rw [footerEq] at mem
  obtain ⟨write,inWritten,start,rfl,inside⟩ := mem_entriesFrom mem
  have writeTyped := typed write (mem_filter.mp inWritten).1
  have regionTyped := SubstreamWrite.region_typed writeTyped
  refine ⟨writeTyped.partition,writeTyped.baseOffset,regionTyped.recordCount,?_,?_,
    regionTyped.maxTimestamp,regionTyped.producers⟩
  · change start < 2 ^ 64
    omega
  · change write.region.bytes.length < 2 ^ 64
    omega

lemma decodeFrame_of_encoded (typed : ∀ write ∈ substreams, write.Typed) : List.Forall₂
      (fun write entry =>
        decodeFrame (slice object entry.byteStart (entry.byteStart + entry.byteLen)) =
          .ok (write.batches.map Batch.decoded, .exhausted))
      (written substreams) footer.entries := by
  obtain ⟨objectEq,footerEq,_,accepted⟩ := encodeSegmentIndexed_ok encoded
  have slices := entriesFrom_slices [] (encodeFooter footer version ++
    trailerBytes (encodeFooter footer version).length footer.entries.length version)
    (written substreams)
  rw [nil_append,← append_assoc,← objectEq,length_nil] at slices
  have entries : footer.entries = entriesFrom 0 (written substreams) := by rw [footerEq]
  rw [← entries] at slices
  have both := (forall₂_and_left _ _).mpr ⟨fun write mem => mem,slices⟩
  refine both.imp (fun write entry facts => ?_)
  obtain ⟨inWritten,bytes⟩ := facts
  rw [bytes,SubstreamWrite.region_bytes]
  exact decodeFrame_flatMap (typed write (mem_filter.mp inWritten).1).batches
    (accepted write inWritten).own

lemma tiles_of_encoded : Tiles 0 footer.entries
      (object.length - ((encodeFooter footer version).length + segmentTrailerLen)) := by
  obtain ⟨objectEq,footerEq,_,_⟩ := encodeSegmentIndexed_ok encoded
  have body : object.length - ((encodeFooter footer version).length + segmentTrailerLen) =
      0 + ((written substreams).flatMap (fun write => write.region.bytes)).length := by
    rw [objectEq,length_append,length_append,trailerBytes_length]
    omega
  have entries : footer.entries = entriesFrom 0 (written substreams) := by rw [footerEq]
  rw [body,entries]
  exact entriesFrom_tiles 0 _

lemma representable_of_roundTrip (typed : ∀ write ∈ substreams, write.Typed)
    (known : version = segmentFormatVersionV3 ∨ version = segmentFormatVersionV4)
    (trip : RoundTrip substreams version object footer) :
    (written substreams).length < 2 ^ 32 ∧ ∀ write ∈ written substreams, Representable write := by
  obtain ⟨objectEq,footerEq,_,_⟩ := encodeSegmentIndexed_ok encoded
  have entries : footer.entries = entriesFrom 0 (written substreams) := by rw [footerEq]
  have long : (encodeFooter footer version).length + segmentTrailerLen ≤ object.length := by
    rw [objectEq,length_append,length_append,trailerBytes_length]
    omega
  have whole := trip.reported object suffix_rfl long
  rw [decodeSegmentFooter_of_encoded encoded known suffix_rfl long] at whole
  obtain ⟨count,fits⟩ : footer.entries.length = footer.entries.length % 2 ^ 32 ∧
      ∀ entry ∈ footer.entries, EntryFits entry := by
    cases decoded : decodeFooter (encodeFooter footer version)
        (footer.entries.length % 2 ^ 32) version with
    | error failure => rw [decoded] at whole; cases whole
    | ok found =>
      rw [decoded] at whole
      cases whole
      exact decodeFooter_fits decoded
  have regions := decodeFrame_of_encoded encoded typed
  constructor
  · rw [entries,entriesFrom_length] at count
    omega
  · intro write mem
    obtain ⟨start,inEntries⟩ := entryAt_mem_entriesFrom 0 mem
    obtain ⟨topic,substream,producers⟩ :=
      (entryFits_iff start).mp (fits _ (entries ▸ inEntries))
    refine ⟨topic,substream,producers,?_⟩
    -- Both descriptions of the write's region are about the same bytes.
    obtain ⟨entry,same⟩ : ∃ entry, (write, entry) ∈ (written substreams).zip footer.entries := by
      obtain ⟨index,inRange,rfl⟩ := mem_iff_getElem.mp mem
      have inBoth : index < ((written substreams).zip footer.entries).length := by
        rw [length_zip,entries,entriesFrom_length]
        omega
      exact ⟨_,mem_iff_getElem.mpr ⟨index,inBoth,getElem_zip⟩⟩
    have asWritten := forall₂_zip trip.batches same
    have asDecoded := forall₂_zip regions same
    rw [asWritten,Except.ok.injEq,Prod.mk.injEq] at asDecoded
    intro batch inBatches
    rw [← Batch.decoded_eq_self_iff]
    exact map_inj_left.mp (asDecoded.1.symm.trans (map_id _).symm) batch inBatches

lemma roundTrip_of_representable (typed : ∀ write ∈ substreams, write.Typed)
    (epoch : Fits 64 writerEpoch) (nonceTyped : nonce < 2 ^ 64)
    (known : version = segmentFormatVersionV3 ∨ version = segmentFormatVersionV4)
    (count : (written substreams).length < 2 ^ 32)
    (representable : ∀ write ∈ written substreams, Representable write) :
    RoundTrip substreams version object footer := by
  obtain ⟨_,footerEq,_,accepted⟩ := encodeSegmentIndexed_ok encoded
  have entryTyped := entryTyped_of_encoded encoded typed
  have entries : footer.entries = entriesFrom 0 (written substreams) := by rw [footerEq]
  refine ⟨?_,tiles_of_encoded encoded,?_⟩
  · intro tail isTail holds
    rw [decodeSegmentFooter_of_encoded encoded known isTail holds,Nat.mod_eq_of_lt
      (by rwa [entries,entriesFrom_length])]
    have ofWrite {entry : SubstreamEntry} (mem : entry ∈ footer.entries) :
        ∃ write ∈ written substreams, ∃ start, entry = entryAt start write write.region := by
      obtain ⟨write,inWritten,start,same,_⟩ := mem_entriesFrom (entries ▸ mem)
      exact ⟨write,inWritten,start,same⟩
    rw [decodeFooter_encodeFooter (known.elim Eq.ge (fun v4 => v4 ▸ by decide))
      (footerEq ▸ epoch) (footerEq ▸ nonceTyped) entryTyped]
    · rfl
    · intro entry mem
      obtain ⟨write,inWritten,start,rfl⟩ := ofWrite mem
      have fits := representable write inWritten
      exact (entryFits_iff start).mpr ⟨fits.topic,fits.substream,fits.producers⟩
    · intro old entry mem
      obtain ⟨write,inWritten,start,rfl⟩ := ofWrite mem
      exact (accepted write inWritten).keyed old
  · have both := (forall₂_and_left _ _).mpr
      ⟨fun write mem => (representable write mem).batches,
        decodeFrame_of_encoded encoded typed⟩
    refine both.imp (fun write entry facts => ?_)
    obtain ⟨survives,decoded⟩ := facts
    rwa [map_congr_left (fun batch inBatches =>
      (Batch.decoded_eq_self_iff batch).mpr (survives batch inBatches)),map_id'] at decoded

end

/-- The round trip holds exactly when every narrowed count and sentinel had room for what
was written and no batch is a pre-v2 message set with more than its husk. -/
theorem segment_roundTrip_iff (substreams : List SubstreamWrite) (writerEpoch : Int)
    (nonce version : Nat) (object : List UInt8) (footer : SegmentFooter)
    (typed : ∀ write ∈ substreams, write.Typed)
    (epoch : Fits 64 writerEpoch) (nonceTyped : nonce < 2 ^ 64)
    (known : version = segmentFormatVersionV3 ∨ version = segmentFormatVersionV4)
    (encoded : encodeSegmentIndexed substreams writerEpoch nonce version = .ok (object, footer)) :
    RoundTrip substreams version object footer ↔ (written substreams).length < 2 ^ 32 ∧
        ∀ write ∈ written substreams, Representable write :=
  ⟨representable_of_roundTrip encoded typed known,fun ⟨count,representable⟩ =>
    roundTrip_of_representable encoded typed epoch nonceTyped known count representable⟩

/-! ### Concrete objects -/

def smallBatch : Batch :=
  { batchLength := 49
    magic := 2
    producerId := 1 }

def repeatedWrite (count : Nat) : SubstreamWrite :=
  { topition := ⟨"orders", 0⟩
    substream := .name "orders"
    baseOffset := 0
    batches := List.replicate count smallBatch }

lemma smallBatch_typed : smallBatch.Typed := by
  constructor <;> decide

lemma repeatedWrite_typed (count : Nat) : (repeatedWrite count).Typed := by
  have zero32 : Fits 32 0 := by decide
  have zero64 : Fits 64 0 := by decide
  refine ⟨zero32,zero64,fun batch mem => ?_⟩
  rw [(mem_replicate.mp mem).2]
  exact smallBatch_typed

lemma repeatedWrite_countP (count : Nat) :
    (repeatedWrite count).batches.countP indexed = count := by
  have coordinate : indexed smallBatch = true := by decide
  rw [repeatedWrite,countP_replicate,if_pos coordinate]

lemma repeatedWrite_written (pos : 0 < count) :
    repeatedWrite count ∈ written [repeatedWrite count] := by
  simp [written,repeatedWrite,pos.ne']

lemma encodeEntry_length_v3 (entry : SubstreamEntry) :
    (encodeEntry segmentFormatVersionV3 entry).length =
      48 + (topicBytes entry.topic).length + 23 * entry.producers.length := by
  have each : ∀ coord, (encodeCoord segmentFormatVersionV3 coord).length = 23 := by
    intro coord
    simp [encodeCoord]
  have coords : (entry.producers.flatMap (encodeCoord segmentFormatVersionV3)).length =
      23 * entry.producers.length := by
    simp [length_flatMap,each,Nat.mul_comm]
  simp only [encodeEntry,flatten_cons,flatten_nil,length_append,natBytes_length,
    intBytes_length,length_nil]
  rw [if_neg (by decide),if_pos (by decide),length_append,natBytes_length,coords,length_nil]
  omega

lemma repeatedWrite_encodes (pos : 0 < count) (bound : count < 2 ^ 32) :
    ∃ object, encodeSegmentIndexed [repeatedWrite count] 1 7 segmentFormatVersionV3 =
      .ok (object, ⟨1, 7, [entryAt 0 (repeatedWrite count) (repeatedWrite count).region]⟩) := by
  apply encodeSegmentIndexed_single
  · simp [repeatedWrite,pos.ne']
  · refine ⟨fun _ => rfl,fun batch mem => ?_⟩
    rw [(mem_replicate.mp mem).2]
    decide
  · have producers : (repeatedWrite count).region.producers.length = count := by
      rw [SubstreamWrite.region_producers_length,repeatedWrite_countP]
    have bytes : (repeatedWrite count).region.bytes.length = 61 * count := by
      have each : smallBatch.toBytes.length = 61 := by decide
      simp [SubstreamWrite.region_bytes,repeatedWrite,length_flatMap,each,Nat.mul_comm]
    have topic : (topicBytes "orders").length = 6 := by decide
    have footer : (encodeFooter ⟨1,7,[entryAt 0 (repeatedWrite count) (repeatedWrite count).region]⟩
          segmentFormatVersionV3).length = 70 + 23 * count := by
      simp only [encodeFooter,flatten_cons,flatten_nil,length_append,
        intBytes_length,flatMap_cons,flatMap_nil,length_nil,
        encodeEntry_length_v3]
      change 8 + (8 + (48 + (topicBytes "orders").length +
        23 * (repeatedWrite count).region.producers.length + 0 + 0)) = _
      omega
    rw [length_append,length_append,trailerBytes_length,bytes,footer]
    unfold segmentTrailerLen isizeMax
    omega

theorem segment_roundTrip_three_batches :
    ∃ object footer,
      encodeSegmentIndexed [repeatedWrite 3] 1 7 segmentFormatVersionV3 = .ok (object, footer) ∧
        RoundTrip [repeatedWrite 3] segmentFormatVersionV3 object footer := by
  obtain ⟨object,encoded⟩ := repeatedWrite_encodes (show 0 < 3 by decide) (by decide)
  refine ⟨object,_,encoded,(segment_roundTrip_iff _ _ _ _ _ _ ?_ (by decide) (by decide)
    (.inl rfl) encoded).mpr ⟨by decide,?_⟩⟩
  · exact fun write member => mem_singleton.mp member ▸ repeatedWrite_typed 3
  · intro write member
    rw [mem_singleton.mp (mem_filter.mp member).1]
    exact ⟨by decide,nofun,by decide,by decide⟩

/-- The coordinate count is narrowed to sixteen bits: 65536 of them are reported, and
written as none. -/
theorem segment_roundTrip_lost_coordinates :
    ∃ object footer, encodeSegmentIndexed [repeatedWrite 65536] 1 7 segmentFormatVersionV3 =
          .ok (object, footer) ∧
        ¬ RoundTrip [repeatedWrite 65536] segmentFormatVersionV3 object footer := by
  obtain ⟨object,encoded⟩ := repeatedWrite_encodes (show 0 < 65536 by decide) (by decide)
  refine ⟨object,_,encoded,fun trip => ?_⟩
  have typed : ∀ write ∈ [repeatedWrite 65536], write.Typed :=
    fun write member => mem_singleton.mp member ▸ repeatedWrite_typed 65536
  have fits := (representable_of_roundTrip encoded typed (.inl rfl) trip).2 _
    (repeatedWrite_written (show 0 < 65536 by decide))
  have count := fits.producers
  rw [repeatedWrite_countP] at count
  omega

end Kodansu.Segment

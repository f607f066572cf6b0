import Mathlib.Tactic

/-!
The numbers of audio tracks (`CmafDecoder::Impl::decode_unit`, `emit_audio`).

A unit's streams are opened one after the other and the audio streams numbered as they are; the
packets are then decoded in the order of their times, and the decoders flushed.  The demultiplexer
and the decoders are parameters, and so is the resampler an audio frame passes.

* `audioIdx_opened`: a stream's number counts the audio streams before it that were opened;
* `mem_decodeUnit`: where an audio frame comes from;
* `numbers_kept_iff`: the numbers are those of the unit just if no audio stream that does not open
  comes before one that does.
-/

namespace Multisite

/-! ### Opening the streams -/

/-- `AVMediaType`. -/
inductive MediaKind where
  | video
  | audio
  | other
  deriving DecidableEq, Repr

/-- A stream, and which of the decoders tried for it would open: the board's own, one of those
preferred, FFmpeg's choice. -/
structure UnitStream where
  kind : MediaKind
  mppOpens : Bool := false
  preferredOpens : Bool := false
  softwareOpens : Bool := true
  deriving DecidableEq, Repr

/-- What the loop over the streams has come to: the contexts, the numbers of the audio streams (or
-1), the video stream, whether the board decodes it, and the next number. -/
structure OpenUnit where
  ctxs : List Bool := []
  audioIdx : List ℤ := []
  videoStream : Option ℕ := none
  mpp : Bool := false
  an : ℕ := 0
  deriving DecidableEq, Repr

/-- One turn of the loop. -/
def OpenUnit.openStream (o : OpenUnit) (st : UnitStream) : OpenUnit :=
  let isVideo : Bool := st.kind = .video
  let mpp := o.mpp || isVideo && st.mppOpens
  let preferred := isVideo && !mpp && st.preferredOpens
  let tries := !preferred && !(isVideo && mpp)
  if tries && !st.softwareOpens then
    -- skipped: the stream is not numbered
    { o with mpp, ctxs := o.ctxs ++ [false], audioIdx := o.audioIdx ++ [-1] }
  else
    let o := { o with mpp, ctxs := o.ctxs ++ [preferred || tries] }
    if isVideo && o.videoStream.isNone then
      { o with videoStream := some o.audioIdx.length, audioIdx := o.audioIdx ++ [-1] }
    else if st.kind = .audio then { o with audioIdx := o.audioIdx ++ [(o.an : ℤ)], an := o.an + 1 }
    else { o with audioIdx := o.audioIdx ++ [-1] }

/-- The streams of a unit, opened. -/
def openStreams (streams : List UnitStream) : OpenUnit := streams.foldl OpenUnit.openStream {}

/-! ### Decoding -/

/-- `AVFrame`, as far as it matters here. -/
structure AvFrame where
  sampleRate : ℤ := 0
  pts : ℤ := 0
  deriving DecidableEq, Repr

/-- `AVPacket`, with the time packets are put in order by. -/
structure AvPacket where
  stream : ℕ
  time : ℚ := 0
  deriving DecidableEq, Repr

/-- What the decoders give: after each packet sent to a stream's, after its end, and the same of
the board's.  A frame that is not sound has no sample rate. -/
structure UnitDecoders (streams : List UnitStream) where
  frames : ℕ → List AvPacket → List AvFrame
  flushed : ℕ → List AvPacket → List AvFrame
  mppFrames : List AvPacket → List AvFrame
  mppFlushed : List AvPacket → List AvFrame
  mute : ∀ i st, streams[i]? = some st → st.kind ≠ .audio → ∀ past,
    ∀ f ∈ frames i past ++ flushed i past, f.sampleRate = 0

/-- The resampler: whether it makes anything of a frame, after the ones it was given for the same
number.  It refuses a sample rate that is none. -/
structure Resampling where
  converts : List AvFrame → AvFrame → Bool
  refuses : ∀ past f, f.sampleRate ≤ 0 → converts past f = false

/-- What a host is handed: a picture, or sound with its `track_index`; the stream that the sound was
decoded from is noted. -/
inductive Emitted where
  | video (f : AvFrame)
  | audio (trackIndex : ℤ) (f : AvFrame) (stream : ℕ)
  deriving DecidableEq, Repr

/-- The state of the two loops: what was sent to each decoder and given to each resampler, and what
was emitted. -/
structure Decoding where
  sent : ℕ → List AvPacket := fun _ => []
  given : ℤ → List AvFrame := fun _ => []
  out : List Emitted := []

section Loops

variable {streams : List UnitStream} (o : OpenUnit) (d : UnitDecoders streams) (r : Resampling)

/-- `emit_audio`. -/
def emitAudio (s : Decoding) (f : AvFrame) (trackIndex : ℤ) (stream : ℕ) : Decoding :=
  { s with
    given := Function.update s.given trackIndex (s.given trackIndex ++ [f])
    out :=
      if r.converts (s.given trackIndex) f then s.out ++ [.audio trackIndex f stream] else s.out }

/-- A frame of a stream, as both loops emit it. -/
def emitFrame (s : Decoding) (stream : ℕ) (f : AvFrame) : Decoding :=
  if o.videoStream = some stream then { s with out := s.out ++ [.video f] }
  else emitAudio r s f (o.audioIdx.getD stream (-1)) stream

/-- The board's frames. -/
def emitMppVideo (s : Decoding) (frames : List AvFrame) : Decoding :=
  { s with out := s.out ++ frames.map .video }

/-- One packet. -/
def decodePacket (s : Decoding) (p : AvPacket) : Decoding :=
  let sent := s.sent p.stream ++ [p]
  let s := { s with sent := Function.update s.sent p.stream sent }
  if o.mpp && o.videoStream = some p.stream then emitMppVideo s (d.mppFrames sent)
  else if o.ctxs.getD p.stream false then
    (d.frames p.stream sent).foldl (fun s f => emitFrame o r s p.stream f) s
  else s

/-- The end of one decoder. -/
def flushStream (s : Decoding) (i : ℕ) : Decoding :=
  if o.ctxs.getD i false then
    (d.flushed i (s.sent i)).foldl (fun s f => emitFrame o r s i f) s
  else s

/-- `decode_unit`, past the opening of the container.  The loops look at `running` in each turn:
they come to so many packets read, packets decoded and decoders flushed. -/
def decodeUnit (packets : List AvPacket) (reads decodes flushes : ℕ) : List Emitted :=
  let o := openStreams streams
  let plist := (packets.take reads).mergeSort (fun a b => decide (a.time ≤ b.time))
  let s := (plist.take decodes).foldl (decodePacket o d r) {}
  let s := ((List.range o.ctxs.length).take flushes).foldl (flushStream o d r) s
  let s := if o.mpp then emitMppVideo s (d.mppFlushed (s.sent (o.videoStream.getD 0))) else s
  s.out

end Loops

/-! ### The numbers -/

/-- The audio streams before one, all of them. -/
def audioRank (streams : List UnitStream) (i : ℕ) : ℕ :=
  (streams.take i).countP (·.kind = .audio)

/-- Those of them that open. -/
def openRank (streams : List UnitStream) (i : ℕ) : ℕ :=
  (streams.take i).countP fun st => st.kind = .audio && st.softwareOpens

variable {streams : List UnitStream} {st : UnitStream} {o : OpenUnit} {i : ℕ}

/-- A turn of the loop adds one place to either list. -/
lemma openStream_lengths : (o.openStream st).ctxs.length = o.ctxs.length + 1 ∧
    (o.openStream st).audioIdx.length = o.audioIdx.length + 1 := by
  rw [OpenUnit.openStream]
  dsimp only
  split
  · simp
  · split
    · simp
    · split <;> simp

/-- It keeps what was there. -/
lemma openStream_keeps (hi : i < o.ctxs.length) (hi' : i < o.audioIdx.length) :
    (o.openStream st).ctxs[i]? = o.ctxs[i]? ∧ (o.openStream st).audioIdx[i]? = o.audioIdx[i]? := by
  rw [OpenUnit.openStream]
  dsimp only
  split
  · exact ⟨List.getElem?_append_left hi, List.getElem?_append_left hi'⟩
  · split
    · exact ⟨List.getElem?_append_left hi, List.getElem?_append_left hi'⟩
    · split <;> exact ⟨List.getElem?_append_left hi, List.getElem?_append_left hi'⟩

/-- An audio stream is only tried with FFmpeg's choice, and numbered if that opens. -/
lemma openStream_audio (h : st.kind = .audio) : o.openStream st =
    { o with
      ctxs := o.ctxs ++ [st.softwareOpens]
      audioIdx := o.audioIdx ++ [if st.softwareOpens then (o.an : ℤ) else -1]
      an := o.an + if st.softwareOpens then 1 else 0 } := by
  rw [OpenUnit.openStream]
  cases hopens : st.softwareOpens <;> simp [h]

/-- Another is not numbered. -/
lemma openStream_other (h : st.kind ≠ .audio) : (o.openStream st).an = o.an := by
  rw [OpenUnit.openStream]
  dsimp only
  split
  · rfl
  · split
    · rfl
    · rfl

lemma opened_concat (streams : List UnitStream) (st : UnitStream) :
    openStreams (streams ++ [st]) = (openStreams streams).openStream st := by
  rw [openStreams, List.foldl_append]
  rfl

lemma opened_lengths (streams : List UnitStream) :
    (openStreams streams).ctxs.length = streams.length ∧
      (openStreams streams).audioIdx.length = streams.length := by
  induction streams using List.reverseRecOn with
  | nil => exact ⟨rfl, rfl⟩
  | append_singleton l st ih =>
      rw [opened_concat, openStream_lengths.1, openStream_lengths.2, ih.1, ih.2, List.length_append]
      exact ⟨rfl, rfl⟩

/-- The next number counts the audio streams that were opened. -/
lemma an_opened (streams : List UnitStream) :
    (openStreams streams).an = openRank streams streams.length := by
  rw [openRank, List.take_length]
  induction streams using List.reverseRecOn with
  | nil => rfl
  | append_singleton l st ih =>
      rw [opened_concat, List.countP_append, List.countP_singleton]
      by_cases h : st.kind = .audio
      · rw [openStream_audio h, ih]
        simp [h]
      · rw [openStream_other h, ih]
        simp [h]

/-- **The number of an audio stream that opens**: the count of those before it. -/
lemma audioIdx_opened (h : streams[i]? = some st) (haudio : st.kind = .audio) :
    (openStreams streams).ctxs[i]? = some st.softwareOpens ∧
      (openStreams streams).audioIdx[i]? =
        some (if st.softwareOpens then (openRank streams i : ℤ) else -1) := by
  induction streams using List.reverseRecOn with
  | nil => exact absurd h (by simp)
  | append_singleton l st' ih =>
      have hlen := opened_lengths l
      rw [opened_concat]
      rcases lt_or_ge i l.length with hi | hi
      · -- it was opened before
        rw [List.getElem?_append_left hi] at h
        rw [(openStream_keeps (hlen.1.symm ▸ hi) (hlen.2.symm ▸ hi)).1,
          (openStream_keeps (hlen.1.symm ▸ hi) (hlen.2.symm ▸ hi)).2, openRank,
          List.take_append_of_le_length hi.le]
        exact ih h
      · -- it is the one openStreams last
        have hlast : i = l.length := by
          have := (List.getElem?_eq_some_iff.mp h).1
          rw [List.length_append, List.length_singleton] at this
          omega
        subst hlast
        obtain rfl : st' = st := by simpa using h
        rw [openStream_audio haudio, openRank, List.take_left' rfl, an_opened, openRank,
          List.take_length]
        exact ⟨by simp [hlen.1], by simp [hlen.2]⟩

/-- The video stream is one. -/
lemma videoStream_opened (h : (openStreams streams).videoStream = some i) :
    ∃ st, streams[i]? = some st ∧ st.kind = .video := by
  induction streams using List.reverseRecOn with
  | nil => exact absurd h (by simp [openStreams])
  | append_singleton l st ih =>
      have hkeep (h : (openStreams l).videoStream = some i) :
          ∃ st', (l ++ [st])[i]? = some st' ∧ st'.kind = .video := by
        obtain ⟨st', hst', hkind⟩ := ih h
        exact ⟨st', by rw [List.getElem?_append_left (List.getElem?_eq_some_iff.mp hst').1, hst'],
          hkind⟩
      rw [opened_concat, OpenUnit.openStream] at h
      dsimp only at h
      split at h
      · exact hkeep h
      · split at h
        · rename_i hfirst
          simp only [Bool.and_eq_true, decide_eq_true_eq] at hfirst
          obtain rfl : (openStreams l).audioIdx.length = i := Option.some.inj h
          exact ⟨st, by rw [(opened_lengths l).2]; simp, hfirst.1⟩
        · split at h <;> exact hkeep h

/-! ### The frames -/

section Frames

variable {d : UnitDecoders streams} {r : Resampling} {s : Decoding}

/-- An audio frame comes from the decoder of its stream, has that stream's number and is one the
resampler takes. -/
def Sourced (o : OpenUnit) (d : UnitDecoders streams) (r : Resampling) : Emitted → Prop
  | .video _ => True
  | .audio trackIndex f stream =>
      o.ctxs.getD stream false = true ∧ trackIndex = o.audioIdx.getD stream (-1) ∧
        (∃ past, f ∈ d.frames stream past ++ d.flushed stream past) ∧
        ∃ given, r.converts given f = true

/-- What one frame adds. -/
lemma emitFrame_sourced (hs : ∀ e ∈ s.out, Sourced o d r e) {f : AvFrame}
    (hopen : o.ctxs.getD i false = true)
    (hf : ∃ past, f ∈ d.frames i past ++ d.flushed i past) :
    ∀ e ∈ (emitFrame o r s i f).out, Sourced o d r e := by
  rw [emitFrame]
  split
  · intro e he
    rcases List.mem_append.mp he with he | he
    · exact hs e he
    · obtain rfl := List.mem_singleton.mp he
      trivial
  · rw [emitAudio]
    dsimp only
    split
    · rename_i hconv
      intro e he
      rcases List.mem_append.mp he with he | he
      · exact hs e he
      · obtain rfl := List.mem_singleton.mp he
        exact ⟨hopen, rfl, hf, _, hconv⟩
    · exact hs

/-- What the frames of one turn add. -/
lemma emitFrames_sourced {frames : List AvFrame} (hopen : o.ctxs.getD i false = true)
    (hf : ∀ f ∈ frames, ∃ past, f ∈ d.frames i past ++ d.flushed i past)
    (hs : ∀ e ∈ s.out, Sourced o d r e) :
    ∀ e ∈ (frames.foldl (fun s f => emitFrame o r s i f) s).out, Sourced o d r e := by
  induction frames generalizing s with
  | nil => exact hs
  | cons f frames ih =>
      exact ih (fun g hg => hf g (List.mem_cons_of_mem _ hg))
        (emitFrame_sourced hs hopen (hf f List.mem_cons_self))

lemma emitMppVideo_sourced (hs : ∀ e ∈ s.out, Sourced o d r e) (frames : List AvFrame) :
    ∀ e ∈ (emitMppVideo s frames).out, Sourced o d r e := by
  intro e he
  rcases List.mem_append.mp he with he | he
  · exact hs e he
  · obtain ⟨f, -, rfl⟩ := List.mem_map.mp he
    trivial

lemma decodePacket_sourced (hs : ∀ e ∈ s.out, Sourced o d r e) (p : AvPacket) :
    ∀ e ∈ (decodePacket o d r s p).out, Sourced o d r e := by
  rw [decodePacket]
  split
  · exact emitMppVideo_sourced hs _
  · split
    · rename_i hopen
      exact emitFrames_sourced hopen (fun f hf => ⟨_, List.mem_append_left _ hf⟩) hs
    · exact hs

lemma flushStream_sourced (hs : ∀ e ∈ s.out, Sourced o d r e) (i : ℕ) :
    ∀ e ∈ (flushStream o d r s i).out, Sourced o d r e := by
  rw [flushStream]
  split
  · rename_i hopen
    exact emitFrames_sourced hopen (fun f hf => ⟨_, List.mem_append_right _ hf⟩) hs
  · exact hs

/-- Both loops, packet by packet and decoder by decoder. -/
lemma decodeUnit_sourced (packets : List AvPacket) (reads decodes flushes : ℕ) :
    ∀ e ∈ decodeUnit d r packets reads decodes flushes, Sourced (openStreams streams) d r e := by
  have hrun {β : Type} (step : Decoding → β → Decoding)
      (hstep : ∀ s b, (∀ e ∈ s.out, Sourced (openStreams streams) d r e) →
        ∀ e ∈ (step s b).out, Sourced (openStreams streams) d r e) (l : List β) (s : Decoding)
      (hs : ∀ e ∈ s.out, Sourced (openStreams streams) d r e) :
      ∀ e ∈ (l.foldl step s).out, Sourced (openStreams streams) d r e := by
    induction l generalizing s with
    | nil => exact hs
    | cons b l ih => exact ih _ (hstep s b hs)
  rw [decodeUnit]
  have hdecoded := hrun (decodePacket (openStreams streams) d r)
    (fun s p hs => decodePacket_sourced hs p)
    (((packets.take reads).mergeSort fun a b => decide (a.time ≤ b.time)).take decodes) {}
    (fun e he => absurd he List.not_mem_nil)
  have hflushed := hrun (flushStream (openStreams streams) d r)
    (fun s i hs => flushStream_sourced hs i)
    ((List.range (openStreams streams).ctxs.length).take flushes) _ hdecoded
  split
  · exact emitMppVideo_sourced hflushed _
  · exact hflushed

/-- **Where an audio frame comes from**: an audio stream that opens, whose number it has. -/
lemma mem_decodeUnit {packets : List AvPacket} {reads decodes flushes : ℕ} {trackIndex : ℤ}
    {f : AvFrame} (h : .audio trackIndex f i ∈ decodeUnit d r packets reads decodes flushes) :
    ∃ st, streams[i]? = some st ∧ st.kind = .audio ∧ st.softwareOpens = true ∧
      trackIndex = openRank streams i := by
  obtain ⟨hopen, hnumber, ⟨past, hf⟩, given, hconv⟩ := decodeUnit_sourced _ _ _ _ _ h
  have hi : i < streams.length := by
    by_contra hi
    rw [List.getD_eq_getElem?_getD,
      List.getElem?_eq_none ((opened_lengths streams).1.symm ▸ not_lt.mp hi)] at hopen
    exact absurd hopen Bool.false_ne_true
  have hst := List.getElem?_eq_getElem hi
  by_cases haudio : streams[i].kind = .audio
  · obtain ⟨hctx, hidx⟩ := audioIdx_opened hst haudio
    rw [List.getD_eq_getElem?_getD, hctx, Option.getD_some] at hopen
    rw [List.getD_eq_getElem?_getD, hidx, Option.getD_some, if_pos hopen] at hnumber
    exact ⟨_, hst, haudio, hopen, hnumber⟩
  · -- a frame without a sample rate goes no further than the resampler
    have hrate := d.mute i _ hst haudio past f hf
    rw [r.refuses given f hrate.le] at hconv
    exact absurd hconv Bool.false_ne_true

end Frames

/-! ### The claim on the numbers -/

/-- Every audio frame has the number of its stream among all audio streams of the unit. -/
def Numbered (streams : List UnitStream) (out : List Emitted) : Prop :=
  ∀ (trackIndex : ℤ) (f : AvFrame) (i : ℕ), .audio trackIndex f i ∈ out →
    ∃ st, streams[i]? = some st ∧ st.kind = .audio ∧ trackIndex = audioRank streams i

/-- No audio stream that does not open comes before one that does. -/
def OpensInOrder (streams : List UnitStream) : Prop :=
  ∀ i st, streams[i]? = some st → st.kind = .audio → st.softwareOpens = true →
    ∀ st' ∈ streams.take i, st'.kind = .audio → st'.softwareOpens = true

/-- All the audio streams before one opened just if their count is that of all of them. -/
lemma openRank_eq_iff : openRank streams i = audioRank streams i ↔
    ∀ st' ∈ streams.take i, st'.kind = .audio → st'.softwareOpens = true := by
  have hopen : openRank streams i =
      ((streams.take i).filter fun st => decide (st.kind = .audio)).countP (·.softwareOpens) := by
    rw [openRank, List.countP_filter]
    simp only [Bool.and_comm]
  have hall : audioRank streams i =
      ((streams.take i).filter fun st => decide (st.kind = .audio)).length :=
    List.countP_eq_length_filter
  rw [hopen, hall, List.countP_eq_length]
  simp [List.mem_filter]

/-- A frame for every packet of sound. -/
def plainDecoders (streams : List UnitStream) : UnitDecoders streams where
  frames i _ := if streams[i]?.map (·.kind) = some .audio then [{ sampleRate := 48000 }] else []
  flushed _ _ := []
  mppFrames _ := []
  mppFlushed _ := []
  mute i st hst hkind past f hf := by simp [hst, hkind] at hf

/-- Sound is taken as it is. -/
def plainResampling : Resampling where
  converts _ f := decide (0 < f.sampleRate)
  refuses _ f hf := by simpa using hf

/-- One packet of an audio stream that opens. -/
lemma decodeUnit_single (h : streams[i]? = some st) (haudio : st.kind = .audio)
    (hopens : st.softwareOpens = true) :
    .audio (openRank streams i) { sampleRate := 48000 } i ∈
      decodeUnit (plainDecoders streams) plainResampling [{ stream := i }] 1 1 0 := by
  obtain ⟨hctx, hidx⟩ := audioIdx_opened h haudio
  rw [hopens] at hctx
  rw [if_pos hopens] at hidx
  have hvideo : (openStreams streams).videoStream ≠ some i := by
    intro hv
    obtain ⟨st', hst', hkind⟩ := videoStream_opened hv
    rw [h] at hst'
    obtain rfl := Option.some.inj hst'
    rw [haudio] at hkind
    exact absurd hkind (by decide)
  have hsort : ([{ stream := i }] : List AvPacket).mergeSort
      (fun a b => decide (a.time ≤ b.time)) = [{ stream := i }] := List.mergeSort_singleton _
  simp [decodeUnit, hsort, decodePacket, hvideo, hctx, hidx, plainDecoders, h, haudio, emitFrame,
    emitAudio, plainResampling, emitMppVideo]

/-- The numbers of the audio frames are those of the unit, whatever the packets and the decoders
give, just if no audio stream that does not open comes before one that does. -/
theorem numbers_kept_iff (streams : List UnitStream) :
    (∀ (d : UnitDecoders streams) (r : Resampling) (packets : List AvPacket)
      (reads decodes flushes : ℕ),
      Numbered streams (decodeUnit d r packets reads decodes flushes)) ↔ OpensInOrder streams := by
  constructor
  · intro h i st hst haudio hopens
    obtain ⟨-, -, -, hrank⟩ := h (plainDecoders streams) plainResampling [{ stream := i }] 1 1 0 _ _
      _ (decodeUnit_single hst haudio hopens)
    exact openRank_eq_iff.mp (by exact_mod_cast hrank)
  · intro h d r packets reads decodes flushes trackIndex f i hmem
    obtain ⟨st, hst, haudio, hopens, rfl⟩ := mem_decodeUnit hmem
    refine ⟨st, hst, haudio, ?_⟩
    rw [openRank_eq_iff.mpr (h i st hst haudio hopens)]

/-- A first language that does not open: the second goes out under its number. -/
theorem not_numbers_kept :
    ¬∀ (streams : List UnitStream) (d : UnitDecoders streams) (r : Resampling)
      (packets : List AvPacket) (reads decodes flushes : ℕ),
      Numbered streams (decodeUnit d r packets reads decodes flushes) := by
  intro h
  have hmem := @decodeUnit_single [⟨.video, false, false, true⟩, ⟨.audio, false, false, false⟩,
    ⟨.audio, false, false, true⟩] _ 2 rfl rfl rfl
  obtain ⟨-, -, -, hrank⟩ := h _ _ _ _ _ _ _ _ _ _ hmem
  exact absurd hrank (by decide)

end Multisite

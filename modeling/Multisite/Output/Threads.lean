import Multisite.Output.Muxer
import Multisite.Spool.Queue

/-!
The OBS output (`multisite_output.cpp`) from a deferred start to its stop.

An encoder that has no codec config yet makes `out_start` return with the start
unfinished: `out_packet` holds the packets, and the writer thread finishes the start
(`finish_deferred_start`) once a packet shows that the config is there.  Three threads
share the context: the one libobs delivers packets on, one packet at a time; the
writer; and the one `stop_output` runs on.  Every step of them is one action: a read or
write of a flag, a critical section, or a call; what the calls come to (a bucket that
does not answer, a resume refused) is part of the action.

`WriterPc.crashed` is the process gone: a thread went through `ctx->muxer` or
`ctx->session` and it was null.
-/

namespace Multisite

open SpoolQueue (ResumeInfo)

/-! ### Data -/

/-- `HoldBudget` (`hold_budget.h`). -/
structure HoldBudget where
  video : ℕ := 0
  bytes : ℕ := 0
  deriving DecidableEq, Repr

namespace HoldBudget

def maxVideoPackets : ℕ := 900

def maxBytes : ℕ := 64 * 2 ^ 20

def maxMs : ℤ := 15000

/-- `HoldBudget::add`. -/
def add (b : HoldBudget) (isVideo : Bool) (bytes : ℕ) : HoldBudget :=
  { video := if isVideo then b.video + 1 else b.video, bytes := b.bytes + bytes }

/-- `HoldBudget::exceeded`. -/
def exceeded (b : HoldBudget) (heldMs : ℤ) : Bool :=
  decide (maxVideoPackets < b.video) || decide (maxBytes < b.bytes) || decide (maxMs < heldMs)

end HoldBudget

/-- libobs's `encoder_packet`. -/
structure EncoderPacket where
  isVideo : Bool := true
  trackIdx : ℕ := 0
  pts : ℤ := 0
  dts : ℤ := 0
  timebaseNum : ℤ := 1
  timebaseDen : ℤ := 30
  keyframe : Bool := false
  data : Bytes := []
  deriving DecidableEq, Repr

/-- `HeldPacket`. -/
structure HeldPacket where
  isVideo : Bool := false
  trackIdx : ℕ := 0
  ptsNs : ℤ := 0
  dtsNs : ℤ := 0
  keyframe : Bool := false
  data : Bytes := []
  deriving DecidableEq, Repr

/-- `PendingFragment`. -/
structure PendingFragment where
  bytes : Bytes := []
  durationS : ℚ := 0
  ptsOffsetS : ℚ := 0
  deriving DecidableEq, Repr

/-- The fragment the muxer's callback queues. -/
def CmafSegment.pending (s : CmafSegment) : PendingFragment :=
  { bytes := s.bytes, durationS := s.durationS, ptsOffsetS := s.ptsS }

/-- `ts_to_ns`. -/
def tsToNs (ts tbNum tbDen : ℤ) : ℤ :=
  let den := if tbDen ≤ 0 then 1 else tbDen
  let num := if tbNum ≤ 0 then 1 else tbNum
  let nsPerUnit := (1000000000 * num).tdiv den
  let rem := (1000000000 * num).tmod den
  ts * nsPerUnit + (ts * rem).tdiv den

/-- libobs's `MAX_AUDIO_MIXES`. -/
def maxAudioMixes : ℕ := 6

/-- `video_track` and `audio_track_for`: the muxer's track for an encoder, `-1` for one
that is not sent. -/
structure TrackMap where
  video : ℤ := -1
  audio : List ℤ := []
  deriving DecidableEq, Repr

/-- The muxer's track for a packet. -/
def TrackMap.track (t : TrackMap) (isVideo : Bool) (trackIdx : ℕ) : ℤ :=
  if isVideo then t.video
  else if trackIdx < maxAudioMixes then (t.audio[trackIdx]?).getD (-1)
  else -1

/-- `build_tracks`, once the video encoder has a codec config: the video is the first
track, and the audio encoders attached follow in the order of their mixes. -/
def buildTracks (video : CmafTrack) (mixes : List Bool) : TrackMap × List CmafTrack :=
  (mixes.take maxAudioMixes).foldl
    (fun r attached =>
      if attached then
        ({ r.1 with audio := r.1.audio ++ [(r.2.length : ℤ)] }, r.2 ++ [{ kind := .audio }])
      else ({ r.1 with audio := r.1.audio ++ [-1] }, r.2))
    ({ video := 0 }, [video])

/-- What the start was given, and libavformat. -/
structure OutputConfig where
  movenc : Movenc
  video : CmafTrack := {}
  mixes : List Bool := []
  segmentDurationS : ℚ := 6
  forceNewEvent : Bool := false

/-- The tracks of this output. -/
def OutputConfig.tracks (cfg : OutputConfig) : List CmafTrack := (buildTracks cfg.video cfg.mixes).2

/-- Their numbers. -/
def OutputConfig.map (cfg : OutputConfig) : TrackMap := (buildTracks cfg.video cfg.mixes).1

/-- `out_packet` holding a packet. -/
def EncoderPacket.hold (p : EncoderPacket) : HeldPacket :=
  { isVideo := p.isVideo
    trackIdx := p.trackIdx
    ptsNs := tsToNs p.pts p.timebaseNum p.timebaseDen
    dtsNs := tsToNs p.dts p.timebaseNum p.timebaseDen
    keyframe := p.keyframe
    data := p.data }

/-- The packet for the muxer that `finish_deferred_start` makes of a held one, `none`
for a track nobody asked for. -/
def HeldPacket.release (t : TrackMap) (h : HeldPacket) : Option CmafPacket :=
  let track := t.track h.isVideo h.trackIdx
  if track < 0 then none
  else some { track, data := h.data, ptsNs := h.ptsNs, dtsNs := h.dtsNs, keyframe := h.keyframe }

/-- The packet for the muxer that `out_packet` makes. -/
def EncoderPacket.toCmaf (t : TrackMap) (p : EncoderPacket) : Option CmafPacket :=
  let track := t.track p.isVideo p.trackIdx
  if track < 0 then none
  else
    some
      { track, data := p.data
        ptsNs := tsToNs p.pts p.timebaseNum p.timebaseDen
        dtsNs := tsToNs p.dts p.timebaseNum p.timebaseDen
        keyframe := p.keyframe }

/-- A packet comes to the same whether it was held or not. -/
@[simp] lemma EncoderPacket.release_hold (t : TrackMap) (p : EncoderPacket) :
    p.hold.release t = p.toCmaf t := rfl

/-! ### The context -/

/-- Where `out_packet` stands: past the gate, past its reading of `deferred`, with the
packet held, or with the packet for the muxer. -/
inductive PacketPc where
  | idle
  | entered (p : EncoderPacket)
  | holding (p : EncoderPacket)
  | overflowed
  | asking (p : EncoderPacket)
  | pushing (p : CmafPacket)
  deriving DecidableEq, Repr

/-- Where the writer thread stands: in `writer_loop`, in `finish_deferred_start` and,
from `building` to `failing`, in `complete_start`. -/
inductive WriterPc where
  | waiting
  | publishing (f : PendingFragment)
  | finishing
  | building
  | making (resumeFromS : ℚ)
  | logging
  | opening
  | choosing
  | resuming
  | resumeCalled
  | remaking
  | starting
  | startCalled
  | hooking
  | failing
  | swapping
  | rechecking (held : List HeldPacket)
  | draining (held : List HeldPacket)
  | clearing
  | ended
  | crashed
  deriving DecidableEq, Repr

/-- Where `stop_output` stands. -/
inductive StopPc where
  | idle
  | closed
  | flushed
  | joining
  | joined
  | resetting
  | returned
  deriving DecidableEq, Repr

/-- How far `stop_output` has come. -/
def StopPc.rank : StopPc → ℕ
  | .idle => 0
  | .closed => 1
  | .flushed => 2
  | .joining => 3
  | .joined => 4
  | .resetting => 5
  | .returned => 6

/-- A call on the `Session`; `wrote` says that it wrote `event.json`. -/
inductive SessionCall where
  | resume (wrote : Bool)
  | startNew (wrote : Bool)
  | publishSegment (f : PendingFragment)
  | endEvent
  deriving DecidableEq, Repr

/-- What happened so far: the packets `out_packet` received, those the muxer was given,
the fragments its callback queued, and the calls on the session. -/
structure OutputPast where
  received : List EncoderPacket := []
  given : List CmafPacket := []
  queued : List PendingFragment := []
  calls : List SessionCall := []
  deriving DecidableEq, Repr

/-- `OutputCtx`, as `out_start` leaves it when the start is deferred, with its three
threads. -/
structure Output where
  accepting : Bool := true
  deferred : Bool := true
  completeRequested : Bool := false
  completing : Bool := false
  writerRun : Bool := true
  started : Bool := true
  tracks : TrackMap := {}
  held : List HeldPacket := []
  budget : HoldBudget := {}
  muxer : Option CmafMuxer := none
  session : Bool := false
  wq : List PendingFragment := []
  packet : PacketPc := .idle
  writer : WriterPc := .waiting
  stop : StopPc := .idle
  past : OutputPast := {}
  deriving DecidableEq, Repr

/-! ### Steps -/

/-- What `Session::resume` comes to. -/
inductive ResumeAnswer where
  | ok
  | refused
  | failed
  deriving DecidableEq, Repr

/-- One step of one thread. -/
inductive OutputAction where
  /-- `out_packet` is called; the gate is open. -/
  | outPacket (p : EncoderPacket)
  | readDeferred
  | hold (heldMs : ℤ)
  | overflow
  | ask (configReady : Bool)
  | push
  /-- `writer_loop` has its lock. -/
  | wake
  | publish
  /-- `finish_deferred_start` and `complete_start`. -/
  | testAccepting
  | build (ok : Bool) (peek : ResumeInfo)
  | makeMuxer
  | logInit
  | openSession (ok : Bool)
  | choose (check : ResumeInfo)
  | callResume
  | resumeReturns (answer : ResumeAnswer) (wrote : Bool)
  | remakeMuxer
  | callStartNew
  | startNewReturns (ok wrote : Bool)
  | hook
  | failStart
  | swap
  | recheck
  | pushHeld
  | clearDeferred
  /-- `stop_output`. -/
  | closeGate
  | flushMuxer
  | stopWriter
  | join
  | endSession
  | reset
  deriving DecidableEq, Repr

namespace Output

variable (cfg : OutputConfig)

/-- The callback of `on_segment`. -/
def queue (o : Output) (segs : List CmafSegment) : Output :=
  let fs := segs.map CmafSegment.pending
  { o with wq := o.wq ++ fs, past := { o.past with queued := o.past.queued ++ fs } }

/-- `ctx->muxer->push`, the muxer being there. -/
def pushTo (o : Output) (m : CmafMuxer) (p : CmafPacket) : Output :=
  let r := m.push cfg.movenc p
  { o with muxer := some r.1, past := { o.past with given := o.past.given ++ [p] } }.queue r.2

/-- A call on the session. -/
def call (o : Output) (c : SessionCall) : Output :=
  { o with past := { o.past with calls := o.past.calls ++ [c] } }

/-- `make_muxer`. -/
def makeMuxer (o : Output) (resumeFromS : ℚ) (next : WriterPc) : Output :=
  let m := CmafMuxer.new cfg.movenc cfg.tracks cfg.segmentDurationS false resumeFromS
  if m.ok then { o with muxer := some m, writer := next } else { o with writer := .failing }

/-- `resume_from` in `complete_start`. -/
def resumeFrom (peek : ResumeInfo) : ℚ :=
  if !cfg.forceNewEvent && peek.resumable && decide (0 < peek.mediaEndS) then peek.mediaEndS else -1

/-- A use of `ctx->muxer` by `complete_start`, which goes on to `next`. -/
def useMuxer (o next : Output) : Output :=
  if o.muxer.isSome then next else { o with writer := .crashed }

/-- The steps of `out_packet`. -/
def stepPacket (o : Output) : OutputAction → Option Output
  | .outPacket p =>
      if o.packet = .idle ∧ o.accepting = true then
        some { o with
          packet := .entered p
          past := { o.past with received := o.past.received ++ [p] } }
      else none
  | .readDeferred =>
      match o.packet with
      | .entered p =>
          if o.deferred then some { o with packet := .holding p }
          else
            match p.toCmaf o.tracks with
            | some q => some { o with packet := .pushing q }
            | none => some { o with packet := .idle }
      | _ => none
  | .hold heldMs =>
      match o.packet with
      | .holding p =>
          let budget := o.budget.add p.isVideo p.data.length
          some { o with
            budget
            held := o.held ++ [p.hold]
            packet := if budget.exceeded heldMs then .overflowed else .asking p }
      | _ => none
  | .overflow =>
      if o.packet = .overflowed then some { o with packet := .idle, accepting := false } else none
  | .ask configReady =>
      match o.packet with
      | .asking p =>
          if p.isVideo && configReady && !o.completing then
            some { o with packet := .idle, completing := true, completeRequested := true }
          else some { o with packet := .idle }
      | _ => none
  | .push =>
      match o.packet with
      | .pushing p =>
          match o.muxer with
          | some m => some ({ o with packet := .idle }.pushTo cfg m p)
          | none => some { o with packet := .idle }
      | _ => none
  | _ => none

/-- The steps of `writer_loop` and of `finish_deferred_start` around
`complete_start`. -/
def stepWriter (o : Output) : OutputAction → Option Output
  | .wake =>
      if o.writer = .waiting then
        if o.completeRequested then
          some { o with completeRequested := false, writer := .finishing }
        else
          match o.wq with
          | f :: rest => some { o with wq := rest, writer := .publishing f }
          | [] => if o.writerRun then none else some { o with writer := .ended }
      else none
  | .publish =>
      match o.writer with
      | .publishing f =>
          if o.session then some ({ o with writer := .waiting }.call (.publishSegment f))
          else some { o with writer := .crashed }
      | _ => none
  | .testAccepting =>
      if o.writer = .finishing then
        if o.accepting then some { o with writer := .building }
        else some { o with deferred := false, writer := .waiting }
      else none
  | .failStart =>
      if o.writer = .failing then some { o with accepting := false, writer := .waiting } else none
  | .swap =>
      if o.writer = .swapping then
        some { o with held := [], budget := {}, writer := .rechecking o.held }
      else none
  | .recheck =>
      match o.writer with
      | .rechecking held =>
          if o.accepting then some { o with writer := .draining held }
          else some { o with writer := .clearing }
      | _ => none
  | .pushHeld =>
      match o.writer with
      | .draining (h :: rest) =>
          match h.release o.tracks, o.muxer with
          | none, _ => some { o with writer := .draining rest }
          | some p, some m => some ({ o with writer := .draining rest }.pushTo cfg m p)
          | some _, none => some { o with writer := .clearing }
      | _ => none
  | .clearDeferred =>
      if o.writer = .clearing ∨ o.writer = .draining [] then
        some { o with deferred := false, writer := .waiting }
      else none
  | _ => none

/-- The steps of `complete_start`. -/
def stepStart (o : Output) : OutputAction → Option Output
  | .build ok peek =>
      if o.writer = .building then
        if ok then some { o with tracks := cfg.map, writer := .making (resumeFrom cfg peek) }
        else some { o with writer := .failing }
      else none
  | .makeMuxer =>
      match o.writer with
      | .making resumeFromS => some (o.makeMuxer cfg resumeFromS .logging)
      | _ => none
  | .logInit => if o.writer = .logging then some (o.useMuxer { o with writer := .opening }) else none
  | .openSession ok =>
      if o.writer = .opening then
        if ok then some { o with session := true, writer := .choosing }
        else some { o with writer := .failing }
      else none
  | .choose check =>
      if o.writer = .choosing then
        if check.resumable && !cfg.forceNewEvent then some { o with writer := .resuming }
        else some { o with writer := .starting }
      else none
  | .callResume => if o.writer = .resuming then some (o.useMuxer { o with writer := .resumeCalled }) else none
  | .resumeReturns answer wrote =>
      -- `resume` reads the muxer's own init segment until it returns
      if o.writer = .resumeCalled then
        match answer with
        | .ok => some (o.useMuxer ({ o with writer := .hooking }.call (.resume wrote)))
        | .refused => some (o.useMuxer ({ o with writer := .remaking }.call (.resume false)))
        | .failed => some (o.useMuxer ({ o with writer := .failing }.call (.resume wrote)))
      else none
  | .remakeMuxer => if o.writer = .remaking then some (o.makeMuxer cfg (-1) .starting) else none
  | .callStartNew => if o.writer = .starting then some (o.useMuxer { o with writer := .startCalled }) else none
  | .startNewReturns ok wrote =>
      -- and so does `start_new`
      if o.writer = .startCalled then
        let next := if ok then WriterPc.hooking else .failing
        some (o.useMuxer ({ o with writer := next }.call (.startNew wrote)))
      else none
  | .hook =>
      if o.writer = .hooking then
        match o.muxer with
        | some m => some { o with muxer := some m.onSegment, writer := .swapping }
        | none => some { o with writer := .crashed }
      else none
  | _ => none

/-- The steps of `stop_output`. -/
def stepStop (o : Output) : OutputAction → Option Output
  | .closeGate =>
      if o.stop = .idle ∧ o.started = true then some { o with stop := .closed, accepting := false }
      else none
  | .flushMuxer =>
      if o.stop = .closed then
        match o.muxer with
        | some m => some ({ o with stop := .flushed, muxer := none }.queue (m.flush cfg.movenc).2)
        | none => some { o with stop := .flushed }
      else none
  -- `writer_shutdown` waits for the queue to empty, but not for ever
  | .stopWriter =>
      if o.stop = .flushed then some { o with stop := .joining, writerRun := false } else none
  | .join => if o.stop = .joining ∧ o.writer = .ended then some { o with stop := .joined } else none
  | .endSession =>
      if o.stop = .joined then
        if o.session then some ({ o with stop := .resetting }.call .endEvent)
        else some { o with stop := .resetting }
      else none
  | .reset =>
      if o.stop = .resetting then
        some { o with stop := .returned, started := false, session := false, muxer := none }
      else none
  | _ => none

/-- **One step**, of whichever thread the action is of. -/
def step (o : Output) (a : OutputAction) : Option Output :=
  if o.writer = .crashed then none
  else (stepPacket cfg o a).or ((stepWriter cfg o a).or ((stepStart cfg o a).or (stepStop cfg o a)))

end Output

/-- An output whose start is deferred, no packet yet. -/
def Deferred (o : Output) : Prop := o = {}

end Multisite

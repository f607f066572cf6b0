import Multisite.Core.Model

/-!
`CmafMuxer` (`cmaf_muxer.h`, `cmaf_muxer.cpp`): where it cuts the programme.

Packets go in, segments come out at the keyframes that `keyframe_starts_segment`
picks.  Seconds are rational numbers and nanoseconds whole ones, so that nothing is
rounded but what the source rounds itself (`llround`).  What libavformat makes of the
packets is a parameter.
-/

namespace Multisite

/-- `CmafTrack::Kind`. -/
inductive TrackKind where
  | video
  | audio
  deriving DecidableEq, Repr

/-- `CmafTrack`, as far as the cuts depend on it. -/
structure CmafTrack where
  kind : TrackKind := .video
  fpsNum : ℤ := 30
  fpsDen : ℤ := 1
  deriving DecidableEq, Repr

/-- `CmafPacket`. -/
structure CmafPacket where
  track : ℤ := 0
  data : Bytes := []
  ptsNs : ℤ := 0
  dtsNs : ℤ := 0
  durationNs : ℤ := 0
  keyframe : Bool := false
  deriving DecidableEq, Repr

/-- libavformat's fragmented-MP4 muxer, told whether to write the times as given: the
header it writes, if it can, whether it takes a packet after those since the last
flush, and the fragment it makes of them. -/
structure Movenc where
  header : Bool → List CmafTrack → Option Bytes
  accepts : Bool → List CmafPacket → CmafPacket → Bool
  fragment : Bool → List CmafPacket → Bytes

/-- What a `CmafSegmentCallback` is given. -/
structure CmafSegment where
  index : ℕ
  bytes : Bytes
  durationS : ℚ
  ptsS : ℚ
  deriving DecidableEq, Repr

/-- `CmafMuxer::Impl`; `written` are the packets since the last flush, which `buf`
holds once libavformat has flushed them. -/
structure CmafMuxer where
  tracks : List CmafTrack := []
  targetS : ℚ := 6
  hasCallback : Bool := false
  init : Bytes := []
  written : List CmafPacket := []
  headerWritten : Bool := false
  ok : Bool := true
  segIndex : ℕ := 0
  segOpen : Bool := false
  segStartPtsS : ℚ := 0
  segEndVideoPtsS : ℚ := 0
  segHasVideo : Bool := false
  keepInputTimestamps : Bool := false
  rebase : Bool := false
  rebaseToNs : ℤ := 0
  base : Option ℤ := none
  deriving DecidableEq, Repr

/-- `keyframe_starts_segment` (`segment_cut.h`). -/
def keyframeStartsSegment (elapsedS targetS frameS : ℚ) : Bool :=
  let tolerance := if 0 < frameS then frameS else 0
  decide (targetS - tolerance ≤ elapsedS)

/-- `llround`: to the nearest whole number, halves away from zero. -/
def llround (q : ℚ) : ℤ := if 0 ≤ q then ⌊q + 1 / 2⌋ else ⌈q - 1 / 2⌉

/-- Nanoseconds as seconds. -/
def nsToS (ns : ℤ) : ℚ := ns / 1000000000

/-- `append_styp`. -/
def styp : Bytes :=
  [0, 0, 0, 28, 0x73, 0x74, 0x79, 0x70, 0x6d, 0x73, 0x64, 0x68, 0, 0, 0, 0, 0x6d, 0x73, 0x64, 0x68,
    0x63, 0x6d, 0x66, 0x73, 0x69, 0x73, 0x6f, 0x36]

namespace CmafMuxer

/-- `CmafMuxer::CmafMuxer`, with `setup`; `resumeFromS` is negative for an event that
is not resumed. -/
def new (av : Movenc) (tracks : List CmafTrack) (targetS : ℚ) (keepInputTimestamps : Bool)
    (resumeFromS : ℚ) : CmafMuxer :=
  let rebase := decide (0 ≤ resumeFromS)
  let m : CmafMuxer :=
    { tracks, targetS, rebase
      keepInputTimestamps := keepInputTimestamps || rebase
      rebaseToNs := if rebase then llround (resumeFromS * 1000000000) else 0 }
  match av.header m.keepInputTimestamps tracks with
  | some init => { m with init, headerWritten := true }
  | none => { m with ok := false }

/-- `video_track`: the first of the video tracks, `-1` without one. -/
def videoTrack (m : CmafMuxer) : ℤ :=
  match m.tracks.findIdx? fun t => t.kind = .video with
  | some i => i
  | none => -1

/-- `video_frame_s`. -/
def videoFrameS (m : CmafMuxer) : ℚ :=
  match m.tracks.find? fun t => t.kind = .video with
  | some v => if 0 < v.fpsNum ∧ 0 < v.fpsDen then v.fpsDen / v.fpsNum else 0
  | none => 0

/-- `flush_fragment`. -/
def flushFragment (av : Movenc) (m : CmafMuxer) (endPtsS : ℚ) : CmafMuxer × List CmafSegment :=
  if m.segOpen then
    let seg : CmafSegment :=
      { index := m.segIndex
        bytes := styp ++ av.fragment m.keepInputTimestamps m.written
        -- no video: no frame to measure, the target
        durationS := if m.segHasVideo then max 0 (endPtsS - m.segStartPtsS) else m.targetS
        ptsS := m.segStartPtsS }
    ({ m with written := [], segIndex := m.segIndex + 1, segOpen := false },
      if m.hasCallback then [seg] else [])
  else (m, [])

/-- The first half of `push`: the first packet is the base, and every packet's times
are shifted by it. -/
def based (m : CmafMuxer) (p : CmafPacket) : CmafMuxer × CmafPacket :=
  if m.rebase then
    let base := m.base.getD p.dtsNs
    ({ m with base := some base },
      { p with ptsNs := p.ptsNs - base + m.rebaseToNs, dtsNs := p.dtsNs - base + m.rebaseToNs })
  else (m, p)

/-- The packet starts a segment. -/
def cuts (m : CmafMuxer) (p : CmafPacket) : Bool :=
  decide (p.track = m.videoTrack) && p.keyframe && m.segOpen &&
    keyframeStartsSegment (nsToS p.ptsNs - m.segStartPtsS) m.targetS m.videoFrameS

/-- `push` opens a segment when none is. -/
def openAt (m : CmafMuxer) (ptsS : ℚ) : CmafMuxer :=
  if m.segOpen then m
  else
    { m with
      segOpen := true, segStartPtsS := ptsS, segHasVideo := false, segEndVideoPtsS := ptsS }

/-- The last half of `push`: the packet goes to libavformat, and a video packet moves
the segment's end. -/
def writeFrame (av : Movenc) (m : CmafMuxer) (p : CmafPacket) : CmafMuxer :=
  if av.accepts m.keepInputTimestamps m.written p then
    let m' := { m with written := m.written ++ [p] }
    if p.track = m.videoTrack then
      let frameS := if 0 < p.durationNs then nsToS p.durationNs else m.videoFrameS
      let endS := nsToS p.ptsNs + frameS
      { m' with
        segEndVideoPtsS := if m.segHasVideo then max m.segEndVideoPtsS endS else endS
        segHasVideo := true }
    else m'
  else { m with ok := false }

/-- `push`, with the segment it completes. -/
def push (av : Movenc) (m : CmafMuxer) (p : CmafPacket) : CmafMuxer × List CmafSegment :=
  if m.ok && m.headerWritten && decide (0 ≤ p.track) && decide (p.track < m.tracks.length) then
    let b := m.based p
    let f := if b.1.cuts b.2 then b.1.flushFragment av (nsToS b.2.ptsNs) else (b.1, [])
    (((f.1.openAt (nsToS b.2.ptsNs)).writeFrame av b.2), f.2)
  else (m, [])

/-- `kMinFinalSegmentS`. -/
def minFinalSegmentS : ℚ := 1 / 2

/-- `flush`, which is `finish`, with the last segment. -/
def flush (av : Movenc) (m : CmafMuxer) : CmafMuxer × List CmafSegment :=
  let m' :=
    if m.segOpen && m.segHasVideo && decide (0 < m.segIndex) &&
        decide (m.segEndVideoPtsS - m.segStartPtsS < minFinalSegmentS) then
      { m with written := [], segOpen := false }
    else m
  m'.flushFragment av m'.segEndVideoPtsS

/-- `on_segment`. -/
def onSegment (m : CmafMuxer) : CmafMuxer := { m with hasCallback := true }

variable {av : Movenc} {m : CmafMuxer} {p : CmafPacket}

@[simp] lemma segOpen_based (m : CmafMuxer) (p : CmafPacket) :
    (m.based p).1.segOpen = m.segOpen := by
  rw [based]
  split <;> rfl

/-- A segment comes out of `push` only where one was open. -/
lemma push_of_closed (h : m.segOpen = false) : (m.push av p).2 = [] := by
  rw [push]
  split
  · have hno : (m.based p).1.cuts (m.based p).2 = false := by simp [cuts, h]
    simp [hno]
  · rfl

lemma segOpen_new (av : Movenc) (tracks : List CmafTrack) (targetS : ℚ) (keep : Bool)
    (resumeFromS : ℚ) : (new av tracks targetS keep resumeFromS).segOpen = false := by
  rw [new]
  split <;> rfl

end CmafMuxer

end Multisite

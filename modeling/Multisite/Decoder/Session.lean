import Multisite.Decoder.Cache

/-!
`DecoderSession` (`decoder_session.h`, `decoder_session.cpp`): what a satellite knows of
the event it plays, and the operations on it.

The session's lock is never held over a request or a file, so an operation is the list of
its critical sections, each a function of the state here; `Decoder.Threads` runs them.  A
request is the reply it got (`Reply`): whatever the store, a mirror or a cancelled
transport came up with.  A `double` is a rational, and a millisecond count an integer
without bound; a sequence number wraps around where the source adds to it.
-/

namespace Multisite

/-! ### Data -/

/-- `RoomState`. -/
inductive RoomState where
  | unknown
  | offline
  | live
  | ended
  | interrupted
  deriving DecidableEq, Repr

/-- `is_vod`. -/
def RoomState.isVod : RoomState → Bool
  | .ended | .interrupted => true
  | _ => false

/-- `PlayState`. -/
inductive PlayState where
  | stopped
  | playing
  | paused
  deriving DecidableEq, Repr

/-- `DecoderConfig`, with the checksum function. -/
structure DecoderConfig where
  prebufferSegments : ℤ := 2
  startBufferSeconds : ℤ := 60
  bufferMinutes : ℤ := 10
  maxCachedSegments : ℤ := 2000
  keepBehindSegments : ℤ := 200
  staleAfterMs : ℤ := 600000
  holdFinishedEvent : Bool := true
  pinnedEventId : String := ""
  sha256Hex : Bytes → String

/-- `PlayableSegment`. -/
structure PlayableSegment where
  seq : ℕ := 0
  durationS : ℚ := 6
  init : Bytes := []
  media : Bytes := []
  startsAtMs : ℤ := 0
  startsAtEstimated : Bool := false
  eventStartedAtMs : ℤ := 0
  skipToMs : ℤ := 0
  deriving DecidableEq, Repr

/-- `DecoderSession::Stats`. -/
structure DecoderStats where
  downloaded : ℕ := 0
  downloadFailures : ℕ := 0
  checksumFailures : ℕ := 0
  served : ℕ := 0
  gapsWaited : ℕ := 0
  gapSkips : ℕ := 0
  deriving DecidableEq, Repr

/-- What `Transport::get` came to, and whether it was cancelled; for a document the body
is what `from_json` makes of it. -/
structure Reply (α : Type) where
  success : Bool := true
  httpStatus : ℤ := 200
  error : String := ""
  cancelled : Bool := false
  body : α
  deriving DecidableEq, Repr

/-- The rest of a poll, once the event is known: the manifest; the cue lists that were
fetched and could be read; and `event.json`, asked for when the manifest has no start. -/
structure PollReplies where
  manifest : Reply (Option Manifest)
  cues : List (List Marker) := []
  event : Reply (Option EventInfo) := { success := false, body := none }
  deriving DecidableEq, Repr

/-- A `pump_downloads` under way: the event it fetches from, what it still wants with the
checksums demanded, and what came of the others. -/
structure Pump where
  eventId : String
  needInit : Bool
  wanted : List (ℕ × String)
  got : List ℕ := []
  refused : List ℕ := []
  downloadFailures : ℕ := 0
  checksumFailures : ℕ := 0
  error : String := ""
  deriving DecidableEq, Repr

/-- Where the thread that polls and downloads stands. -/
inductive NetPc where
  | idle
  | pollingLive (now : ℤ) (pinned : String)
  | pollingEvent (now : ℤ) (live : LivePointer) (eventId : String) (needMarkers : Bool)
  | fetchingInit (p : Pump)
  | writingInit (p : Pump) (path : String) (body : Bytes)
  | fetching (p : Pump)
  | writing (p : Pump) (path : String) (seq : ℕ) (body : Bytes)
  | indexing (p : Pump) (seq : ℕ)
  deriving DecidableEq, Repr

/-- A segment `next_segment` has chosen: `out` without its bytes. -/
structure Chosen where
  want : ℕ
  needInit : Bool
  skipMs : ℤ
  out : PlayableSegment
  deriving DecidableEq, Repr

/-- Where the thread that feeds the decoder stands in `next_segment`. -/
inductive FeedPc where
  | idle
  | chosen (c : Chosen)
  | loading (c : Chosen) (path : String)
  | loaded (c : Chosen)
  | loadingInit (c : Chosen) (path : String)
  | committing (c : Chosen) (init : Bytes)
  deriving DecidableEq, Repr

/-- Where an operator's seek by time stands; `orElse` is the segment `jump_to_marker`
falls back on. -/
inductive ControlPc where
  | idle
  | seating (seq : ℕ) (skip : ℤ)
  | seeking (target : ℕ) (skip : ℤ) (orElse : Option ℕ)
  | skipping (skip : ℤ)
  | fallingBack (target : ℕ)
  deriving DecidableEq, Repr

/-- `DecoderSession`, with its three threads.  `secondary` is the transport's
`preferring_secondary`. -/
structure DecoderSession where
  cache : SegmentCache := {}
  eventId : String := ""
  pinnedEventId : String := ""
  measuredSegmentMs : ℤ := 0
  endHoldDone : Bool := false
  liveEventId : String := ""
  roomIsLive : Bool := false
  room : RoomState := .unknown
  play : PlayState := .stopped
  lastError : String := ""
  manifest : Manifest := {}
  markers : List Marker := []
  markersCheckedMs : ℤ := 0
  manifestUpdatedMs : ℤ := 0
  latestSeq : ℕ := 0
  firstAvailableSeq : ℕ := 0
  segmentDurationS : ℚ := 6
  startedAtMs : ℤ := 0
  sawLive : Bool := false
  manifestStalled : Bool := false
  switchedTarget : Bool := false
  secondary : Bool := false
  head : ℕ := 0
  headSet : Bool := false
  initSent : Bool := false
  discontinuity : ℕ := 0
  pendingSkipMs : ℤ := 0
  unavailable : ℕ → ℕ := fun _ => 0
  stats : DecoderStats := {}
  net : NetPc := .idle
  feed : FeedPc := .idle
  control : ControlPc := .idle

/-- `kGapAttempts`. -/
def kGapAttempts : ℕ := 3

namespace DecoderSession

variable (cfg : DecoderConfig) (s : DecoderSession)

/-- `DecoderSession::DecoderSession`, on a cache directory with these folders. -/
def new (folders : String → Option CacheFolder) : DecoderSession :=
  { cache := SegmentCache.new folders "pending", pinnedEventId := cfg.pinnedEventId }

/-! ### Positions -/

/-- `segment_duration_s()`. -/
def segmentDuration : ℚ := if 1 / 10 < s.segmentDurationS then s.segmentDurationS else 6

/-- `segment_ms`. -/
def segmentMs : ℤ :=
  if 0 < s.measuredSegmentMs then s.measuredSegmentMs else msOf s.segmentDuration

/-- `start_reserve_segments`. -/
def startReserveSegments : ℕ :=
  max (max 0 cfg.prebufferSegments).toNat
    ⌈((max 0 cfg.startBufferSeconds : ℤ) : ℚ) / s.segmentDuration⌉.toNat

/-- `plays_as_recording_locked`. -/
def playsAsRecording : Bool := s.room.isVod || decide (s.pinnedEventId ≠ "")

/-- The place `reserve` segments back from the live edge. -/
def behindLive (reserve : ℕ) : ℕ :=
  if reserve < s.latestSeq then s.latestSeq - reserve else s.firstAvailableSeq

/-! ### Discovery -/

/-- The start of `poll`: an end that has stopped being written to is left, once. -/
def noteStalled : DecoderSession :=
  if s.manifestStalled && !s.switchedTarget && !s.secondary then
    { s with secondary := true, switchedTarget := true }
  else s

/-- `live.json` as `poll` reads it: the pointer, and what is wrong with it. -/
def readLive (r : Reply (Option LivePointer)) : LivePointer × String :=
  if r.success then
    match r.body with
    | some live => (live, "")
    | none => ({}, "live.json is not valid JSON")
  else
    ({}, if r.cancelled then ""
      else "live.json: HTTP " ++ toString r.httpStatus ++ " " ++ r.error)

/-- Nothing to play. -/
def offline (error : String) : DecoderSession :=
  { s with lastError := error, room := .offline }

/-- The event change of `poll`. -/
def switchEvent (target : String) : DecoderSession :=
  if target ≠ s.eventId then
    { s with
      eventId := target
      cache := s.cache.setEvent target
      head := 0
      headSet := false
      initSent := false
      play := .stopped
      markers := []
      markersCheckedMs := 0
      sawLive := false
      endHoldDone := false
      discontinuity := s.discontinuity + 1
      unavailable := fun _ => 0 }
  else s

/-- The event to play. -/
def pollTarget (pinned : String) (live : LivePointer) : String :=
  if pinned = "" then live.eventId else pinned

/-- No event to play; a cancelled read is no answer. -/
def noTarget (r : Reply (Option LivePointer)) : DecoderSession :=
  if r.cancelled then { s with net := .idle }
  else
    { s with
      net := .idle
      liveEventId := (readLive r).1.eventId
      roomIsLive := false
      lastError := if (readLive r).2 ≠ "" then (readLive r).2 else s.lastError
      room := .offline }

/-- The critical section of `poll` that notes an event change. -/
def enterEvent (now : ℤ) (live : LivePointer) (target : String) : DecoderSession :=
  let s := { s with liveEventId := live.eventId }.switchEvent target
  let needMarkers := decide (5000 < now - s.markersCheckedMs)
  { s with
    markersCheckedMs := if needMarkers then now else s.markersCheckedMs
    net := .pollingEvent now live s.eventId needMarkers }

/-- The second part of `poll`, `live.json` read. -/
def pollLive (now : ℤ) (pinned : String) (r : Reply (Option LivePointer)) : DecoderSession :=
  let live := (readLive r).1
  if pollTarget pinned live = "" then s.noTarget r
  else s.enterEvent now live (pollTarget pinned live)

/-- The segment length the manifest's times give: first and last listed with a time. -/
def measuredMs (segments : List ManifestSegment) : Option ℤ :=
  let timed := segments.filter fun sg => decide (0 < sg.atMs)
  match timed.head?, timed.getLast? with
  | some first, some last =>
      if first.seq < last.seq ∧ first.atMs < last.atMs then
        some ((last.atMs - first.atMs) / ((last.seq : ℤ) - first.seq))
      else none
  | _, _ => none

/-- The start of the event and the nominal length, from `event.json` when the manifest
has no start. -/
def startOf (m : Manifest) (r : Reply (Option EventInfo)) : ℤ × ℚ :=
  if m.startedAtMs ≤ 0 ∧ r.success = true then
    match r.body with
    | some info => (info.startedAtMs, info.segmentDurationS)
    | none => (m.startedAtMs, 0)
  else (m.startedAtMs, 0)

/-- The commit of `poll`, up to what the manifest says of the room. -/
def takeManifest (m : Manifest) (cues : Option (List Marker)) (startedAt : ℤ) (segHint : ℚ) :
    DecoderSession :=
  let m := if 0 < startedAt then { m with startedAtMs := startedAt } else m
  { s with
    manifest := m
    startedAtMs := m.startedAtMs
    markers := cues.getD s.markers
    latestSeq := m.latestSeq
    firstAvailableSeq := m.firstAvailableSeq
    manifestUpdatedMs := m.updatedAtMs
    segmentDurationS :=
      if 1 / 10 < m.streamDurationHint then m.streamDurationHint
      else if 1 / 10 < segHint then segHint
      else s.segmentDurationS
    measuredSegmentMs := (measuredMs m.segments).getD s.measuredSegmentMs }

/-- The room the committed manifest shows. -/
def seeRoom (now : ℤ) (live : LivePointer) : DecoderSession :=
  let age := now - s.manifestUpdatedMs
  let stale := decide (0 < s.manifestUpdatedMs) && decide (cfg.staleAfterMs < age)
  let s := { s with manifestStalled := decide (s.manifest.status ≠ Status.ended) && stale }
  let s :=
    if s.manifest.status = .ended then { s with room := .ended }
    else if stale then
      { s with
        room := .interrupted
        lastError := "manifest last updated " ++ toString (age.tdiv 1000) ++
          "s ago — the encoder stopped without ending the event" }
    else { s with room := .live, sawLive := true, lastError := "" }
  { s with
    roomIsLive := decide (live.eventId ≠ "") && decide (live.status = Status.live) &&
      (decide (cfg.staleAfterMs ≤ 0) || decide (now - live.updatedAtMs ≤ cfg.staleAfterMs)) }

/-- An event that has ended while it was followed is held. -/
def holdFinished : DecoderSession :=
  if cfg.holdFinishedEvent ∧ s.room = .ended then
    { s with
      pinnedEventId :=
        if !s.endHoldDone && decide (s.pinnedEventId = "") && decide (s.eventId ≠ "") then s.eventId
        else s.pinnedEventId
      endHoldDone := true }
  else s

/-- The rest of `poll`, from the manifest on. -/
def pollEvent (now : ℤ) (live : LivePointer) (needMarkers : Bool) (r : PollReplies) :
    DecoderSession :=
  let s := { s with net := .idle }
  if r.manifest.success then
    match r.manifest.body with
    | none => s.offline "manifest.json is not valid JSON"
    | some m =>
        if protocolReadable m.protocolVersion then
          let cues := if needMarkers ∧ r.cues ≠ [] then some (mergeMarkers r.cues) else none
          let start := startOf m r.event
          ((s.takeManifest m cues start.1 start.2).seeRoom cfg now live).holdFinished cfg
        else
          s.offline ("this event needs a newer version of the plugin — it was " ++
            "recorded with storage protocol " ++ toString m.protocolVersion ++
            " and this build reads " ++ toString kProtocolVersion)
  else if r.manifest.cancelled then s
  else s.offline ("manifest.json: HTTP " ++ toString r.manifest.httpStatus ++ " " ++
    r.manifest.error)

end DecoderSession

end Multisite

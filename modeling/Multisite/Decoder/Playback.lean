import Multisite.Decoder.Session

/-!
Downloading and playback (`decoder_session.cpp`, from `pump_downloads` on): the critical
sections of `pump_downloads`, the start gate, the operator's moves, and `next_segment`,
which chooses a segment, reads it unlocked and commits.

`next_segment` gets past a segment that will never come in three ways, each a function
here: `floorSkip`, `gapSkip` and `refusalSkip`.
-/

namespace Multisite

/-! ### Downloading -/

/-- The checksum `pump_downloads` demands of a segment, none when it is not listed. -/
def Manifest.checksumOf (m : Manifest) (seq : ℕ) : String :=
  ((m.segments.find? (·.seq == seq)).map (·.checksum)).getD ""

/-- The planning loop of `pump_downloads`, `none` while it has not come to its end. -/
def Manifest.plan (m : Manifest) (cached : Finset ℕ) (upTo : ℕ) (max : ℤ) :
    ℕ → ℕ → List (ℕ × String) → Option (List (ℕ × String))
  | 0, _, _ => none
  | fuel + 1, sq, wanted =>
      if sq ≤ upTo ∧ (wanted.length : ℤ) < max then
        if sq ∈ cached then m.plan cached upTo max fuel (wrapU64 (sq + 1)) wanted
        else
          match m.gapEnd sq with
          | some last => m.plan cached upTo max fuel (wrapU64 (last + 1)) wanted
          | none =>
              m.plan cached upTo max fuel (wrapU64 (sq + 1)) (wanted ++ [(sq, m.checksumOf sq)])
      else some wanted

/-- A segment that `store` did not take. -/
def Pump.storeFailed (p : Pump) (seq : ℕ) : Pump :=
  { p with
    checksumFailures := p.checksumFailures + 1
    refused := p.refused ++ [seq]
    error := "segment " ++ toString seq ++ " failed checksum verification" }

/-- A segment that did not arrive. -/
def Pump.getFailed (p : Pump) (seq : ℕ) (r : Reply Bytes) : Pump :=
  let counted := decide (r.httpStatus ≠ 404) && !r.cancelled
  { p with
    downloadFailures := if counted then p.downloadFailures + 1 else p.downloadFailures
    error := if counted then
        "segment " ++ toString seq ++ ": HTTP " ++ toString r.httpStatus ++ " " ++ r.error
      else p.error
    refused := if r.httpStatus = 404 then p.refused ++ [seq] else p.refused }

namespace DecoderSession

variable (cfg : DecoderConfig) (s : DecoderSession)

/-- Where `pump_downloads` fetches from. -/
def pumpStart : ℕ :=
  max
    (if s.headSet then s.head
      else if s.playsAsRecording then s.firstAvailableSeq
      else s.behindLive (s.startReserveSegments cfg))
    s.firstAvailableSeq

/-- How far ahead it fetches. -/
def wantAhead : ℕ :=
  let minutes := ⌊max 1 (((max 1 cfg.bufferMinutes : ℤ) : ℚ) * 60 / s.segmentDuration)⌋.toNat
  min (max minutes (s.startReserveSegments cfg)) (toU64 cfg.maxCachedSegments)

/-- The first critical section of `pump_downloads`: what to fetch. -/
def pumpPlan (max : ℤ) (fuel : ℕ) : Option DecoderSession :=
  if s.eventId = "" then some s
  else
    let start := s.pumpStart cfg
    let upTo := min s.latestSeq (wrapU64 (start + s.wantAhead cfg))
    (s.manifest.plan s.cache.index upTo max fuel start []).map fun wanted =>
      let p : Pump := { eventId := s.eventId, needInit := !s.cache.hasInit, wanted }
      { s with net := if p.needInit then .fetchingInit p else .fetching p }

/-- The reply to the request for `init.mp4`, and the path `store_init` takes. -/
def pumpInit (p : Pump) (r : Reply Bytes) : DecoderSession :=
  if r.success then
    if r.body = [] then { s with net := .idle }
    else
      let cache := s.cache.ensureDir
      { s with cache, net := .writingInit p cache.eventId r.body }
  else
    { s with
      net := .idle
      lastError := if r.cancelled then s.lastError
        else "init.mp4: HTTP " ++ toString r.httpStatus ++ " " ++ r.error }

/-- The writing of `init.mp4`; `ok` says whether the disk took it. -/
def pumpInitWrite (p : Pump) (path : String) (body : Bytes) (ok : Bool) : DecoderSession :=
  match if ok then s.cache.writeInit path body else none with
  | some cache => { s with cache, net := .fetching p }
  | none => { s with net := .idle }

/-- The reply to the request for a segment, its checksum, and the path `store` takes. -/
def pumpSegment (p : Pump) (seq : ℕ) (sum : String) (r : Reply Bytes) : DecoderSession :=
  if r.success then
    if sum ≠ "" ∧ cfg.sha256Hex r.body ≠ sum then { s with net := .fetching (p.storeFailed seq) }
    else
      let cache := s.cache.ensureDir
      { s with cache, net := .writing p cache.eventId seq r.body }
  else { s with net := .fetching (p.getFailed seq r) }

/-- The writing of a segment. -/
def pumpWrite (p : Pump) (path : String) (seq : ℕ) (body : Bytes) (ok : Bool) :
    DecoderSession :=
  match if ok then s.cache.write path seq body else none with
  | some cache => { s with cache, net := .indexing p seq }
  | none => { s with net := .fetching (p.storeFailed seq) }

/-- `store` returns: the segment is in the index. -/
def pumpIndex (p : Pump) (seq : ℕ) : DecoderSession :=
  { s with
    cache := { s.cache with index := insert seq s.cache.index }
    net := .fetching { p with got := p.got ++ [seq] } }

/-- The first pruning of `pump_downloads`: what is far behind the head. -/
def pruneBehind : SegmentCache :=
  let keep := toU64 cfg.keepBehindSegments
  if s.headSet ∧ keep < s.head then s.cache.pruneBelow (s.head - keep) else s.cache

/-- The pruning at the end of `pump_downloads`. -/
def prune : SegmentCache := (s.pruneBehind cfg).pruneExcess cfg.maxCachedSegments

/-- The commit of `pump_downloads`. -/
def pumpCommit (p : Pump) : DecoderSession :=
  let refused := p.refused.filter fun sq => decide (sq < s.latestSeq)
  { s with
    net := .idle
    stats := { s.stats with
      downloaded := s.stats.downloaded + p.got.length
      downloadFailures := s.stats.downloadFailures + p.downloadFailures
      checksumFailures := s.stats.checksumFailures + p.checksumFailures }
    unavailable := fun sq => if sq ∈ p.got then 0 else s.unavailable sq + refused.count sq
    lastError := if p.error = "" then s.lastError else p.error
    cache := s.prune cfg }

/-! ### The start gate -/

/-- `DecoderSession::StartPlan`. -/
structure StartPlan where
  known : Bool := false
  hasInit : Bool := false
  want : ℕ := 0
  need : ℕ := 0
  have_ : ℕ := 0

/-- `StartPlan::ready`. -/
def StartPlan.ready (p : StartPlan) : Bool :=
  p.known && p.hasInit && decide (p.need ≤ p.have_)

/-- How many of the cached segments follow on from `sq`, at most `n`. -/
def contiguous (cached : Finset ℕ) : ℕ → ℕ → ℕ
  | 0, _ => 0
  | n + 1, sq => if sq ∈ cached then contiguous cached n (wrapU64 (sq + 1)) + 1 else 0

/-- The event the host wants played. -/
def wantedEvent : String := if s.pinnedEventId = "" then s.liveEventId else s.pinnedEventId

/-- `start_plan_locked`. -/
def startPlan : StartPlan :=
  if s.room ≠ .live ∧ s.room.isVod = false then {}
  else if s.wantedEvent ≠ "" ∧ s.wantedEvent ≠ s.eventId then { known := true }
  else if s.headSet then
    { known := true, hasInit := s.cache.hasInit, want := s.head, need := 1, have_ := 1 }
  else
    let reserve := s.startReserveSegments cfg
    let want := max (if s.playsAsRecording then s.firstAvailableSeq else s.behindLive reserve)
      s.firstAvailableSeq
    { known := true
      hasInit := s.cache.hasInit
      want
      need := if s.playsAsRecording then 1 else max 1 reserve
      have_ := contiguous s.cache.index s.cache.index.card want }

/-- `start`. -/
def start : DecoderSession :=
  let p := s.startPlan cfg
  if p.ready then
    { s with head := if s.headSet then s.head else p.want, headSet := true, play := .playing }
  else s

/-! ### The operator's moves -/

/-- `pause`. -/
def pause : DecoderSession := { s with play := .paused }

/-- `resume`. -/
def resume : DecoderSession := { s with play := if s.headSet then .playing else .stopped }

/-- The head moved to `seq`: unless it was there, the decoder restarts and needs the init
segment again. -/
def moveHead (seq : ℕ) : DecoderSession :=
  let jump := !s.headSet || decide (seq ≠ s.head)
  { s with
    discontinuity := if jump then s.discontinuity + 1 else s.discontinuity
    initSent := if jump then false else s.initSent
    head := seq
    headSet := true }

/-- `jump_to_live`. -/
def jumpToLive : DecoderSession :=
  let want := s.behindLive (max 0 cfg.prebufferSegments).toNat
  let s := s.moveHead (max want s.firstAvailableSeq)
  { s with play := if s.play = .paused then .playing else s.play }

/-- `request_init`. -/
def requestInit : DecoderSession := { s with initSent := false }

/-- What the store still retains. -/
def Retains (seq : ℕ) : Prop := s.firstAvailableSeq ≤ seq ∧ seq ≤ s.latestSeq

instance (seq : ℕ) : Decidable (s.Retains seq) := inferInstanceAs (Decidable (_ ∧ _))

/-- `seek`. -/
def seek (seq : ℕ) : DecoderSession := if s.Retains seq then s.moveHead seq else s

/-- `seek_to_media_ms`, before its lock. -/
def seekToMediaMs (mediaMs : ℤ) : DecoderSession :=
  let mediaMs := max 0 mediaMs
  if s.segmentMs ≤ 0 then s
  else
    let seq := (mediaMs / s.segmentMs).toNat
    { s with control := .seating seq (mediaMs - seq * s.segmentMs) }

/-- `seek_to_media_ms`, under its lock. -/
def seat (seq : ℕ) (skip : ℤ) : DecoderSession :=
  let s := { s with control := .idle }
  if s.Retains seq then { s.moveHead seq with pendingSkipMs := skip }
  else { s with lastError := "that moment is outside what storage still holds" }

/-- The first critical section of `seek_to_wall_ms`: the segment and how far into it, or
why there is none. -/
def wallTarget (wallMs : ℤ) : Except String (ℕ × ℤ) :=
  if s.manifest.startedAtMs ≤ 0 then
    .error "nothing is loaded yet, so there is no timeline to move within"
  else
    let listed := s.manifest.segments.find? fun sg =>
      decide (0 < sg.atMs) && decide (sg.atMs ≤ wallMs) &&
        decide (wallMs < sg.atMs + msOf sg.durationS)
    let offset := wallMs - s.manifest.startedAtMs
    if listed = none ∧ offset < 0 then .error "that is before this event started"
    else
      let derived := (offset / s.segmentMs).toNat
      let target := (listed.map (·.seq)).getD derived
      let segStart :=
        (listed.map (·.atMs)).getD (s.manifest.startedAtMs + derived * s.segmentMs)
      if target < s.firstAvailableSeq then
        .error ("that moment has passed out of storage — it is older " ++
          "than the retention rule keeps")
      else if s.latestSeq < target then
        .error (if s.room.isVod then "that is past the end of this recording"
          else "that is ahead of what has been broadcast yet")
      else .ok (target, max 0 (wallMs - segStart))

/-- A time seek that did not come off: `jump_to_marker` falls back on the segment. -/
def wallFailed (orElse : Option ℕ) (why : String) : DecoderSession :=
  { s with
    lastError := why
    control := (orElse.map ControlPc.fallingBack).getD .idle }

/-- `seek_to_wall_ms` up to its call of `seek`. -/
def seekToWallMs (wallMs : ℤ) (orElse : Option ℕ) : DecoderSession :=
  match s.wallTarget wallMs with
  | .error why => s.wallFailed orElse why
  | .ok (target, skip) => { s with control := .seeking target skip orElse }

/-- The call of `seek` in `seek_to_wall_ms`. -/
def wallSeek (target : ℕ) (skip : ℤ) (orElse : Option ℕ) : DecoderSession :=
  if s.Retains target then { s.moveHead target with control := .skipping skip }
  else s.wallFailed orElse "that moment is not available to play"

/-- `jump_to_marker` up to its first call. -/
def jumpToMarker (id : String) : DecoderSession :=
  match s.markers.find? (·.id == id) with
  | none => s
  | some cue =>
      if 0 < cue.atMs then s.seekToWallMs cue.atMs (some cue.seq)
      else { s with control := .fallingBack cue.seq }

/-- `pin_event`. -/
def pinEvent (id : String) : DecoderSession := { s with pinnedEventId := id }

/-- `unpin`. -/
def unpin : DecoderSession := { s with pinnedEventId := "", endHoldDone := true }

/-! ### The next segment -/

/-- A skip of `next_segment` past what will never come. -/
def skipTo (head : ℕ) : DecoderSession :=
  { s with
    head
    discontinuity := s.discontinuity + 1
    stats := { s.stats with gapSkips := s.stats.gapSkips + 1 } }

/-- A segment waited for. -/
def waited : DecoderSession :=
  { s with
    feed := .idle
    stats := { s.stats with gapsWaited := s.stats.gapsWaited + 1 } }

/-- The head is below what the encoder still has. -/
def floorSkip : DecoderSession :=
  if s.head < s.firstAvailableSeq then s.skipTo s.firstAvailableSeq else s

/-- The encoder listed the head's segment as a gap. -/
def gapSkip : Option DecoderSession :=
  (s.manifest.gapEnd s.head).map fun last => s.skipTo (wrapU64 (last + 1))

/-- The head's segment was refused too often, behind the live edge. -/
def givenUp : Bool :=
  decide (kGapAttempts ≤ s.unavailable s.head) && decide (s.head < s.latestSeq)

/-- The skip past such a segment. -/
def refusalSkip : DecoderSession :=
  { s with unavailable := Function.update s.unavailable s.head 0 }.skipTo (wrapU64 (s.head + 1))

/-- What `next_segment` says of the segment at the head, its bytes apart. -/
def describe : PlayableSegment :=
  -- the loop goes over every entry of that number, and the last one to say so is kept
  let listed := s.manifest.segments.filter (·.seq == s.head)
  let startsAtMs : ℤ :=
    ((listed.filter fun sg => decide (0 < sg.atMs)).getLast?.map (·.atMs)).getD 0
  let estimated := decide (startsAtMs = 0) && decide (0 < s.startedAtMs)
  { seq := s.head
    durationS :=
      ((listed.filter fun sg => decide (1 / 10 < sg.durationS)).getLast?.map (·.durationS)).getD
        s.segmentDuration
    eventStartedAtMs := s.startedAtMs
    startsAtMs := if estimated then s.startedAtMs + s.head * s.segmentMs else startsAtMs
    startsAtEstimated := estimated }

/-- The head's segment chosen. -/
def choose : DecoderSession :=
  { s with
    feed := .chosen
      { want := s.head, needInit := !s.initSent, skipMs := s.pendingSkipMs, out := s.describe } }

/-- The first critical section of `next_segment`. -/
def nextSegment : DecoderSession :=
  if s.play ≠ .playing ∨ s.headSet = false then s
  else if s.latestSeq < s.head then s
  else
    let s := s.floorSkip
    if s.latestSeq < s.head then s
    else
      match s.gapSkip with
      | some skipped => skipped
      | none =>
          if s.head ∈ s.cache.index then s.choose
          else if s.givenUp then s.refusalSkip
          else s.waited

/-- The reading of the segment. -/
def nextLoad (c : Chosen) (path : String) : DecoderSession :=
  match s.cache.load path c.want with
  | none => s.waited
  | some media => { s with feed := .loaded { c with out := { c.out with media } } }

/-- The segment read: the path `load_init` takes, when the decoder needs the init
segment. -/
def nextLoaded (c : Chosen) : DecoderSession :=
  { s with feed := if c.needInit then .loadingInit c s.cache.eventId else .committing c [] }

/-- The reading of the init segment; without it the position is held. -/
def nextLoadInit (c : Chosen) (path : String) : DecoderSession :=
  match (s.cache.loadInit path).getD [] with
  | [] => s.waited
  | init => { s with feed := .committing c init }

/-- The segment the commit of `next_segment` returns, if the position has not moved. -/
def returned (c : Chosen) (init : Bytes) : Option PlayableSegment :=
  if s.head = c.want then
    some { c.out with init := if c.needInit then init else [], skipToMs := c.skipMs }
  else none

/-- The commit of `next_segment`. -/
def nextCommit (c : Chosen) (init : Bytes) : DecoderSession :=
  if (s.returned c init).isSome then
    { s with
      feed := .idle
      initSent := s.initSent || c.needInit
      pendingSkipMs := 0
      head := wrapU64 (s.head + 1)
      stats := { s.stats with served := s.stats.served + 1 } }
  else { s with feed := .idle }

end DecoderSession

end Multisite

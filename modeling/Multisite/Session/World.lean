import Multisite.Lib.Run
import Multisite.Spool.Laws

/-!
One event as `Session` runs it (`session.h`, `session.cpp`, `retry_uploader.cpp`):
the spool folder on disk, the two buckets, and the process with its threads.

Each thread is where it stands between two of its critical sections or requests,
so an `Action` is one critical section, one request answered, or one callback;
the actions of different threads interleave freely.  The threads are

* the host's (`start_new` or `resume`, `publish_segment` with the drop callback,
  `end`, and `heartbeat`),
* the primary uploader (`RetryUploader::run`, or `drain_blocking` during `end`)
  and the mirror's,
* the manifest publisher (`manifest_publish_loop`).

A request that fails changes nothing in the store.  A crash may come between any
two actions (`crash`) and after any write of a spool operation (`crashIn`); it
discards the process and keeps the folder and the buckets.

`History` is not read by any action: it records what the statements below speak
of (numbers handed out, uploads acknowledged, files cleared, gaps declared).
-/

namespace Multisite

/-! ### Configuration -/

/-- What is fixed for the run of one event: its id, its first sequence number
(`Session::start_new` passes `0`) and the SHA-256 of the platform's library,
whose hexadecimal form is never empty. -/
structure Event where
  id : String
  firstSeq : ℕ := 0
  sha256Hex : Bytes → String
  sha256Hex_ne : ∀ b, sha256Hex b ≠ ""

/-- The fields of `SessionConfig` a running session reads; `mirror` says whether
`mirror_transport` is set. -/
structure SessionConfig where
  roomId : String := "main-auditorium"
  eventName : String := ""
  maxSpoolBytes : ℕ := 4 * 1024 * 1024 * 1024
  mirror : Bool := false
  segmentDurationS : ℚ := 6
  manifestWindow : ℕ := 50
  heartbeatIntervalS : ℤ := 10
  deriving DecidableEq, Repr

/-- `LinkHealth`. -/
inductive LinkHealth where
  | healthy
  | degraded
  | offline
  deriving DecidableEq, Repr

/-- What `set_error` was last given. -/
inductive SessionError where
  /-- `"PUT " + key + " -> HTTP ..."`. -/
  | put (key : Key)
  /-- `"local spool cap reached: dropped queued segment ..."`. -/
  | dropped (seq : ℕ)
  deriving DecidableEq, Repr

/-! ### The threads -/

/-- Where an uploader stands in `upload_one`. -/
inductive UploadPc where
  /-- Between two segments. -/
  | idle
  /-- A segment peeked; `may_upload_now` has still to be asked. -/
  | peeked (seg : SpooledSegment)
  /-- In `upload_one`; the retry loop is about to look at the floor, after
  `attempt` requests. -/
  | holding (seg : SpooledSegment) (attempt : ℕ)
  /-- The floor passed; the PUT numbered `attempt` is under way. -/
  | sending (seg : SpooledSegment) (attempt : ℕ)
  /-- The PUT succeeded; the confirm callback has not run. -/
  | stored (seg : SpooledSegment)
  /-- The confirm callback has updated the manifest, and has still to send the
  heartbeat, when one is due, before `SpoolQueue::confirm`. -/
  | listed (seg : SpooledSegment) (beat : Option LivePointer)
  /-- A damaged segment was confirmed in the spool; the skipped callback has not
  run. -/
  | skipping (seq : ℕ)
  deriving DecidableEq, Repr

/-- A `RetryUploader`. -/
structure Uploader where
  pc : UploadPc := .idle
  health : LinkHealth := .healthy
  deriving DecidableEq, Repr

/-- The manifest publisher: `pending` is `m_manifest_pending` while
`m_manifest_dirty` is set, `inFlight` the manifest being PUT with its `gen`. -/
structure Publisher where
  run : Bool := true
  pending : Option Manifest := none
  queued : ℕ := 0
  done : ℕ := 0
  inFlight : Option (Manifest × ℕ) := none
  deriving DecidableEq, Repr

/-- Where the host's thread stands. -/
inductive Phase where
  /-- `begin_common` waits in `flush_manifest(10000)`. -/
  | begun
  /-- `begin_common` has still to publish `live.json` and start the uploaders. -/
  | goingLive
  /-- On air. -/
  | running
  /-- `end` has stopped the uploaders and drains what is left. -/
  | draining
  /-- `end` has called `clear_error`. -/
  | cleared
  /-- `end` has queued the ended manifest and waits in `flush_manifest(15000)`. -/
  | ending
  /-- `flush_manifest` has returned, whatever it returned. -/
  | flushed
  /-- `m_manifest_run` is cleared; the publisher is being joined. -/
  | joining
  /-- `end` has still to publish `live.json`. -/
  | joined
  /-- `end` has still to mark the spool. -/
  | marking
  /-- `end` has still to remove the folder, if it is done. -/
  | removing
  /-- `end` has still to return. -/
  | leaving
  | returned (ok : Bool)
  deriving DecidableEq, Repr

/-- The memory of a session that has begun. -/
structure Proc where
  cfg : SessionConfig
  phase : Phase := .begun
  spool : SpoolQueue
  nextSeq : ℕ
  manifest : Manifest
  pub : Publisher
  up : Uploader := {}
  mirror : Uploader := {}
  /-- Drops `enqueue` has collected and not yet reported to `on_dropped`. -/
  dropping : List SpoolDrop := []
  /-- A `heartbeat()` between building `live.json` and sending it. -/
  beat : Option LivePointer := none
  lastHeartbeatMs : ℤ := 0
  lastError : Option SessionError := none
  droppedTotal : ℕ := 0
  deriving DecidableEq, Repr

/-- The process: not running, a `Session` constructed, or one that has begun. -/
inductive Machine where
  | down
  | opened (cfg : SessionConfig) (spool : SpoolQueue)
  | up (p : Proc)
  deriving DecidableEq, Repr

/-- What has happened so far. -/
structure History where
  /-- Numbers of the segments of which a file was written, in order. -/
  given : List ℕ := []
  /-- The checksum in the sidecar last written for a number. -/
  taken : ℕ → Option String := fun _ => none
  /-- Segment PUTs the primary bucket acknowledged. -/
  acked : List (ℕ × Bytes) := []
  /-- Numbers `SpoolQueue::confirm` was called with, for either target. -/
  confirmed : List ℕ := []
  /-- Numbers the primary uploader confirmed after a successful PUT. -/
  primary : List ℕ := []
  /-- Those of `primary` whose `.seg` file was removed for being confirmed. -/
  cleared : List ℕ := []
  /-- Numbers passed to `add_gap`. -/
  gapped : List ℕ := []

/-- One event: its folder, the two buckets, the process, and the past. -/
structure World where
  /-- `start_new` has made the event's id. -/
  begun : Bool := false
  disk : Option Folder := none
  store : Store := Store.empty
  second : Store := Store.empty
  machine : Machine := .down
  hist : History := {}

/-! ### Actions -/

/-- What `start_new` and `resume` are given by the host. -/
structure StartArgs where
  init : Bytes := []
  video : VideoInfo := {}
  tracks : List AudioTrack := []
  deriving DecidableEq, Repr

/-- Which of the requests of `begin_common` succeed. -/
structure BeginPuts where
  event : Bool := true
  index : Bool := true
  init : Bool := true
  deriving DecidableEq, Repr

/-- Which of the reads of `resume` are answered (with the object, or `404` when
there is none), the others failing some other way. -/
structure ResumeReads where
  init : Bool := true
  event : Bool := true
  manifest : Bool := true
  deriving DecidableEq, Repr

/-- The answer to a segment's PUT. -/
inductive PutOutcome where
  | ok
  | retryable
  | refused
  | cancelled
  deriving DecidableEq, Repr

/-- One step of one thread, or of the world around the process. -/
inductive Action where
  | openSession (cfg : SessionConfig)
  | startNew (args : StartArgs) (puts : BeginPuts) (now : ℤ)
  | resume (args : StartArgs) (reads : ResumeReads) (puts : BeginPuts) (now : ℤ)
  | flushBegin
  | publishLive (ok : Bool) (now : ℤ)
  /-- `publish_segment`; with `fault := some k`, the write after the first `k`
  of `enqueue` throws. -/
  | publishSegment (data : Bytes) (durationS ptsOffsetS : ℚ) (now : ℤ) (fault : Option ℕ)
  | onDropped
  | heartbeat (now : ℤ)
  | putHeartbeat (ok : Bool)
  | stopUploaders
  | clearError
  | queueEnded (now : ℤ)
  | flushEnd
  | stopPublisher
  | joinPublisher
  | publishEnded (ok : Bool) (now : ℤ)
  | markEnded
  | removeIfDone
  | endReturn
  | peek (t : Target)
  | mayUpload (t : Target)
  | checkFloor (t : Target)
  | putSegment (t : Target) (r : PutOutcome)
  | onConfirmed (now : ℤ)
  | putBeat (ok : Bool)
  | confirm (t : Target) (now : ℤ)
  | skip (t : Target) (now : ℤ)
  | onSkipped
  | giveUp (t : Target)
  | dequeueManifest
  | putManifest (ok : Bool)
  | damage (seq : ℕ) (data : Bytes)
  | crash
  | crashIn (a : Action) (k : ℕ)
  deriving DecidableEq, Repr

/-! ### The parts of the session -/

/-- `upload_one`'s test: the bytes no longer match the checksum taken when they
were captured. -/
def Event.damaged (ev : Event) (seg : SpooledSegment) : Bool :=
  decide (seg.checksum ≠ "") && !(decide (seg.checksum ≠ "") &&
    decide (ev.sha256Hex seg.data = seg.checksum))

namespace Proc

/-- `queue_manifest_locked`. -/
def queueManifest (p : Proc) : Proc :=
  { p with pub := { p.pub with pending := some p.manifest, queued := p.pub.queued + 1 } }

/-- The `LivePointer` of `publish_live` and of the heartbeat. -/
def livePointer (ev : Event) (p : Proc) (status : Status) (now : ℤ) : LivePointer :=
  { roomId := p.cfg.roomId, eventId := ev.id, status, updatedAtMs := now }

/-- `put_bytes` on a failed PUT. -/
def putFailed (p : Proc) (k : Key) : Proc := { p with lastError := some (.put k) }

/-- The two uploaders by their target. -/
def uploader (p : Proc) : Target → Uploader
  | .primary => p.up
  | .second => p.mirror

/-- The process with an uploader moved on. -/
def withUploader (p : Proc) (t : Target) (u : Uploader) : Proc :=
  match t with
  | .primary => { p with up := u }
  | .second => { p with mirror := u }

/-- `Session::mirror_may_go`. -/
def mirrorMayGo (p : Proc) (d : Option Folder) : Bool :=
  decide (p.up.health ≠ .healthy) || p.spool.caughtUp d .primary

/-- The uploader's loop is running. -/
def runs (p : Proc) : Target → Bool
  | .primary => p.phase = .running || p.phase = .draining
  | .second => p.phase = .running && p.cfg.mirror

/-- `RetryUploader::may_upload_now`: only the mirror has a rule to ask. -/
def mayUploadNow (p : Proc) (d : Option Folder) : Target → Bool
  | .primary => true
  | .second => p.mirrorMayGo d

/-- The manifest half of `Session::on_confirmed`. -/
def listSegment (p : Proc) (seg : SpooledSegment) (now : ℤ) : Proc :=
  let ms : ManifestSegment :=
    { seq := seg.seq, durationS := seg.durationS, checksum := seg.checksum
      atMs := p.manifest.startedAtMs + msOf seg.ptsOffsetS }
  let m := { p.manifest.push ms p.cfg.manifestWindow with updatedAtMs := now }
  ({ p with manifest := m }).queueManifest

/-- The heartbeat of `Session::on_confirmed` is due. -/
def beatDue (p : Proc) (now : ℤ) : Bool :=
  decide (p.manifest.status ≠ .ended) &&
    decide (p.cfg.heartbeatIntervalS * 1000 ≤ now - p.lastHeartbeatMs)

/-- The session may send heartbeats from the host: it has gone live. -/
def heartbeats (p : Proc) : Bool := decide (p.phase ≠ .begun) && decide (p.phase ≠ .goingLive)

end Proc

/-- The constructor of `SpoolQueue` on a root that holds this event's folder and
no other: the folder is opened when its event is unfinished. -/
def openQueue (ev : Event) (cfg : SessionConfig) (d : Option Folder) : SpoolQueue :=
  let st := readStateFile (d.bind (·.state))
  SpoolQueue.load cfg.maxSpoolBytes (if st.valid && !st.ended then some ev.id else none) d

/-- `SessionConfig::mirror_transport ? 2 : 1`. -/
def SessionConfig.targets (cfg : SessionConfig) : ℤ := if cfg.mirror then 2 else 1

/-- `Session::Continuing`. -/
structure Continuing where
  event : Option EventInfo := none
  manifest : Option Manifest := none
  initStored : Bool := false
  deriving DecidableEq, Repr

/-- The reads of `resume`: `none` when it gives up, the init segment being
unreadable or not the one given. -/
def readContinuing (ev : Event) (st : Store) (init : Bytes) (r : ResumeReads) :
    Option Continuing :=
  let event := if r.event then st.event ev.id else none
  let manifest := if r.manifest then (st.manifest ev.id).filter (·.eventId = ev.id) else none
  if !r.init then none
  else
    match st (.init ev.id) with
    | none => some { event, manifest, initStored := false }
    | some (.bytes b) => if b = init then some { event, manifest, initStored := true } else none
    | some _ => none

/-- `resume` takes over the stored event's name when the host gave none. -/
def SessionConfig.named (cfg : SessionConfig) (c : Continuing) : SessionConfig :=
  match c.event with
  | some e => if cfg.eventName = "" ∧ e.name ≠ "" then { cfg with eventName := e.name } else cfg
  | none => cfg

/-- The event descriptor `begin_common` works with. -/
def descriptor (ev : Event) (cfg : SessionConfig) (args : StartArgs) (c : Continuing)
    (next : ℕ) (now : ℤ) : EventInfo :=
  c.event.getD
    { eventId := ev.id
      roomId := cfg.roomId
      name := cfg.eventName
      startedAtMs := now
      firstSeq := next
      segmentDurationS := cfg.segmentDurationS
      video := args.video
      audioTracks := args.tracks }

/-- The manifest `begin_common` seeds the session with. -/
def seedManifest (ev : Event) (cfg : SessionConfig) (args : StartArgs) (c : Continuing)
    (e : EventInfo) (now : ℤ) : Manifest :=
  { c.manifest.getD
      { eventId := ev.id
        name := cfg.eventName
        video := args.video
        audioTracks := args.tracks
        firstAvailableSeq := e.firstSeq
        startedAtMs := e.startedAtMs } with
    status := .live
    updatedAtMs := now }

/-- The requests of `begin_common` up to the manifest: the bucket after them, and
whether the session goes on. -/
def beginRequests (ev : Event) (cfg : SessionConfig) (args : StartArgs) (c : Continuing)
    (e : EventInfo) (puts : BeginPuts) (st : Store) : Store × Bool :=
  let st1 := if c.event.isNone && puts.event then st.put (.event ev.id) (.event e) else st
  if c.event.isNone && !puts.event then (st1, false)
  else
    let idx : RoomEventEntry :=
      { eventId := ev.id, roomId := cfg.roomId, name := cfg.eventName, startedAtMs := e.startedAtMs }
    let st2 :=
      if c.event.isNone && puts.index then st1.put (.roomEvent cfg.roomId ev.id) (.roomEvent idx)
      else st1
    if c.initStored then (st2, true)
    else if puts.init then (st2.put (.init ev.id) (.bytes args.init), true)
    else (st2, false)

/-- `Session::begin_common`: the process and the bucket after it has queued the
first manifest, or the process gone when a request failed. -/
def beginCommon (ev : Event) (cfg : SessionConfig) (args : StartArgs) (c : Continuing)
    (puts : BeginPuts) (q : SpoolQueue) (next : ℕ) (now : ℤ) (st : Store) : Machine × Store :=
  let e := descriptor ev cfg args c next now
  match beginRequests ev cfg args c e puts st with
  | (st', false) => (.down, st')
  | (st', true) =>
      let p : Proc :=
        { cfg, spool := q, nextSeq := next
          manifest := seedManifest ev cfg args c e now
          pub := {} }
      (.up p.queueManifest, st')

/-! ### The history -/

namespace History

/-- The numbers and checksums recorded by the writes of an operation. -/
def wrote (h : History) : List Write → History
  | [] => h
  | .seg s _ :: ws => ({ h with given := h.given ++ [s] }).wrote ws
  | .sidecar s m :: ws =>
      ({ h with taken := fun x => if x = s then some m.checksum else h.taken x }).wrote ws
  | _ :: ws => h.wrote ws

/-- The confirmed segments whose file the writes remove. -/
def clear (h : History) (d : Option Folder) (ws : List Write) : History :=
  { h with
    cleared := h.cleared ++ ws.filterMap fun
      | .removeSeg s =>
          if s ∈ h.primary ∧ HasSeg d s then some s else none
      | _ => none }

end History

/-! ### Steps -/

/-- What an action does: the process and the buckets after it, what it adds to
the past, and the writes it makes in the folder; `clears` marks an operation
that removes files for being confirmed, `begun` the one that makes the event. -/
structure Effect where
  machine : Machine
  store : Store
  second : Store
  hist : History
  writes : List Write := []
  clears : Bool := false
  begun : Bool := false

/-- The effect of an action that changes the process only. -/
def World.become (w : World) (p : Proc) : Effect :=
  { machine := .up p, store := w.store, second := w.second, hist := w.hist }

/-- `RetryUploader::upload_one` on the answer to a PUT, apart from the store. -/
def Uploader.answered (seg : SpooledSegment) (attempt : ℕ) (u : Uploader) :
    PutOutcome → Uploader
  | .ok => { pc := .stored seg, health := .healthy }
  | .retryable =>
      { pc := .holding seg attempt, health := if 2 ≤ attempt then .offline else .degraded }
  | .refused => { pc := .idle, health := .offline }
  | .cancelled => { u with pc := .idle }

/-- `publish_segment`. -/
def publishSegment (ev : Event) (w : World) (p : Proc) (data : Bytes) (durationS ptsOffsetS : ℚ)
    (now : ℤ) (fault : Option ℕ) : Option Effect :=
  let seg : SpooledSegment :=
    { seq := p.nextSeq, data, durationS, ptsOffsetS, key := .segment ev.id p.nextSeq }
  (p.spool.enqueue ev.sha256Hex now w.disk seg).bind fun e =>
    match fault with
    | none =>
        some { w.become { p with nextSeq := p.nextSeq + 1, spool := e.queue, dropping := e.drops }
                with writes := e.writes }
    | some k =>
        -- a throw at the `.seg` or `.meta` leaves the memory as it was; one at
        -- the state comes after everything else, and the drops are not reported
        if k < 2 then
          some { w.become { p with nextSeq := p.nextSeq + 1 } with writes := e.writes.take k }
        else if k + 1 = e.writes.length then
          some { w.become { p with nextSeq := p.nextSeq + 1, spool := e.queue }
                  with writes := e.writes.take k }
        else none

/-- `SpoolQueue::confirm` as an uploader calls it. -/
def confirmSpool (w : World) (p : Proc) (seq : ℕ) (t : Target) (now : ℤ) (u : UploadPc)
    (primary : List ℕ) : Effect :=
  let c := p.spool.confirm now w.disk seq t
  let p' := { p with spool := c.1 }
  { machine := .up (p'.withUploader t { p'.uploader t with pc := u })
    store := w.store
    second := w.second
    hist := { w.hist with
      confirmed := w.hist.confirmed ++ [seq], primary := w.hist.primary ++ primary }
    writes := c.2
    clears := true }

/-- Where an uploader stands once it has confirmed a damaged segment: only the
primary's has a skipped callback. -/
def afterSkip (seq : ℕ) : Target → UploadPc
  | .primary => .skipping seq
  | .second => .idle

/-- The actions of a session that has begun. -/
def Proc.plan (ev : Event) (w : World) (p : Proc) : Action → Option Effect
  | .flushBegin =>
      if p.phase = .begun then some (w.become { p with phase := .goingLive }) else none
  | .publishLive ok now =>
      if p.phase = .goingLive then
        let lp := p.livePointer ev .live now
        let p' := { p with phase := .running, lastHeartbeatMs := now }
        if ok then
          some { w.become p' with store := w.store.put (.live p.cfg.roomId) (.live lp) }
        else some (w.become (p'.putFailed (.live p.cfg.roomId)))
      else none
  | .publishSegment data dur pts now fault =>
      if p.phase = .running ∧ p.dropping = [] then publishSegment ev w p data dur pts now fault
      else none
  | .onDropped =>
      match p.dropping with
      | [] => none
      | dr :: rest =>
          some { w.become { p with
                    dropping := rest
                    manifest := p.manifest.addGap dr.seq
                    droppedTotal := p.droppedTotal + 1
                    lastError := some (.dropped dr.seq) }
                  with hist := { w.hist with gapped := w.hist.gapped ++ [dr.seq] } }
  | .heartbeat now =>
      if p.heartbeats = true ∧ p.beat = none then
        some (w.become { p with
          beat := some (p.livePointer ev .live now), lastHeartbeatMs := now })
      else none
  | .putHeartbeat ok =>
      match p.beat with
      | none => none
      | some lp =>
          if ok then
            some { w.become { p with beat := none }
                    with store := w.store.put (.live p.cfg.roomId) (.live lp) }
          else some (w.become ({ p with beat := none }.putFailed (.live p.cfg.roomId)))
  | .stopUploaders =>
      if p.phase = .running ∧ p.dropping = [] ∧ p.up.pc = .idle ∧ p.mirror.pc = .idle then
        some (w.become { p with phase := .draining })
      else none
  | .clearError =>
      if p.phase = .draining ∧ p.up.pc = .idle then
        some (w.become { p with phase := .cleared, lastError := none })
      else none
  | .queueEnded now =>
      if p.phase = .cleared then
        some (w.become ({ p with
          phase := .ending
          manifest := { p.manifest with status := .ended, updatedAtMs := now } }.queueManifest))
      else none
  | .flushEnd =>
      if p.phase = .ending then some (w.become { p with phase := .flushed }) else none
  | .stopPublisher =>
      if p.phase = .flushed then
        some (w.become { p with phase := .joining, pub := { p.pub with run := false } })
      else none
  | .joinPublisher =>
      if p.phase = .joining ∧ p.pub.inFlight = none then
        some (w.become { p with phase := .joined })
      else none
  | .publishEnded ok now =>
      if p.phase = .joined then
        let lp := p.livePointer ev .ended now
        let p' := { p with phase := .marking, lastHeartbeatMs := now }
        if ok then
          some { w.become p' with store := w.store.put (.live p.cfg.roomId) (.live lp) }
        else some (w.become (p'.putFailed (.live p.cfg.roomId)))
      else none
  | .markEnded =>
      if p.phase = .marking then
        let c := p.spool.markEnded p.lastError.isNone
        some { w.become { p with phase := .removing, spool := c.1 } with writes := c.2 }
      else none
  | .removeIfDone =>
      if p.phase = .removing then
        let c := p.spool.removeIfDone w.disk
        some { w.become { p with phase := .leaving, spool := c.1 } with writes := c.2.1 }
      else none
  | .endReturn =>
      if p.phase = .leaving then
        some (w.become { p with phase := .returned p.lastError.isNone })
      else none
  | .peek t =>
      if p.runs t = true ∧ (p.uploader t).pc = .idle then
        match p.spool.peekNext w.disk t with
        | some seg => some (w.become (p.withUploader t { p.uploader t with pc := .peeked seg }))
        | none =>
            if p.phase = .running then
              some (w.become (p.withUploader t { p.uploader t with health := .healthy }))
            else none
      else none
  | .mayUpload t =>
      match (p.uploader t).pc with
      | .peeked seg =>
          let pc := if p.mayUploadNow w.disk t then .holding seg 0 else .idle
          some (w.become (p.withUploader t { p.uploader t with pc }))
      | _ => none
  | .checkFloor t =>
      match (p.uploader t).pc with
      | .holding seg n =>
          if ev.damaged seg then none
          else if seg.seq < p.spool.floor then
            some (w.become (p.withUploader t { p.uploader t with pc := .idle }))
          else some (w.become (p.withUploader t { p.uploader t with pc := .sending seg (n + 1) }))
      | _ => none
  | .putSegment t r =>
      match (p.uploader t).pc with
      | .sending seg n =>
          let e := w.become (p.withUploader t ((p.uploader t).answered seg n r))
          match t, r with
          | .primary, .ok =>
              some { e with
                store := w.store.put seg.key (.bytes seg.data)
                hist := { w.hist with acked := w.hist.acked ++ [(seg.seq, seg.data)] } }
          | .second, .ok => some { e with second := w.second.put seg.key (.bytes seg.data) }
          | _, _ => some e
      | _ => none
  | .onConfirmed now =>
      match p.up.pc with
      | .stored seg =>
          let p' := p.listSegment seg now
          let due := p'.beatDue now
          some (w.become { p' with
            lastHeartbeatMs := if due then now else p.lastHeartbeatMs
            up := { p.up with
              pc := .listed seg (if due then some (p'.livePointer ev .live now) else none) } })
      | _ => none
  | .putBeat ok =>
      match p.up.pc with
      | .listed seg (some lp) =>
          let p' := { p with up := { p.up with pc := .listed seg none } }
          if p.manifest.status = .ended then some (w.become p')
          else if ok then
            some { w.become p' with store := w.store.put (.live p.cfg.roomId) (.live lp) }
          else some (w.become (p'.putFailed (.live p.cfg.roomId)))
      | _ => none
  | .confirm t now =>
      match t, (p.uploader t).pc with
      | .primary, .listed seg none => some (confirmSpool w p seg.seq t now .idle [seg.seq])
      | .second, .stored seg => some (confirmSpool w p seg.seq t now .idle [])
      | _, _ => none
  | .skip t now =>
      match (p.uploader t).pc with
      | .holding seg _ =>
          if ev.damaged seg then
            some (confirmSpool w p seg.seq t now (afterSkip seg.seq t) [])
          else none
      | _ => none
  | .onSkipped =>
      match p.up.pc with
      | .skipping seq =>
          some { w.become { p with
                    up := { p.up with pc := .idle }, manifest := p.manifest.addGap seq }
                  with hist := { w.hist with gapped := w.hist.gapped ++ [seq] } }
      | _ => none
  | .giveUp t =>
      match (p.uploader t).pc with
      | .holding _ _ => some (w.become (p.withUploader t { p.uploader t with pc := .idle }))
      | _ => none
  | .dequeueManifest =>
      match p.pub.pending, p.pub.inFlight with
      | some m, none =>
          if p.pub.run then
            some (w.become { p with
              pub := { p.pub with pending := none, inFlight := some (m, p.pub.queued) } })
          else none
      | _, _ => none
  | .putManifest ok =>
      match p.pub.inFlight with
      | some (m, gen) =>
          let p' := { p with pub := { p.pub with inFlight := none, done := max p.pub.done gen } }
          if ok then
            some { w.become p' with store := w.store.put (.manifest ev.id) (.manifest m) }
          else some (w.become (p'.putFailed (.manifest ev.id)))
      | none => none
  | _ => none

/-- The effect of an action other than a crash, `none` when it is not enabled. -/
def World.plan (ev : Event) (w : World) : Action → Option Effect
  | .openSession cfg =>
      match w.machine with
      | .down =>
          let c := (openQueue ev cfg w.disk).setTargets cfg.targets w.disk
          some
            { machine := .opened cfg c.1, store := w.store, second := w.second, hist := w.hist
              writes := c.2, clears := true }
      | _ => none
  | .startNew args puts now =>
      match w.machine with
      | .opened cfg q =>
          -- `start_new` makes the id, so it begins this event once
          if !w.begun then
            let c := q.beginIn now ev.id ev.firstSeq
            let b := beginCommon ev cfg args {} puts c.1 ev.firstSeq now w.store
            some
              { machine := b.1, store := b.2, second := w.second, hist := w.hist, writes := c.2
                begun := true }
          else none
      | _ => none
  | .resume args reads puts now =>
      match w.machine with
      | .opened cfg q =>
          let info := q.inspect w.disk
          if info.resumable then
            match readContinuing ev w.store args.init reads, q.resumeEvent now with
            | some c, some r =>
                let b := beginCommon ev (cfg.named c) args c puts r.1 (info.lastEnqueued + 1) now w.store
                some
                  { machine := b.1, store := b.2, second := w.second, hist := w.hist
                    writes := r.2 }
            | _, _ =>
                some { machine := .down, store := w.store, second := w.second, hist := w.hist }
          else none
      | _ => none
  | a =>
      match w.machine with
      | .up p => p.plan ev w a
      | _ => none

/-- The past after an effect whose writes up to now are `ws`. -/
def Effect.past (e : Effect) (d : Option Folder) (ws : List Write) : History :=
  let h := e.hist.wrote ws
  if e.clears then h.clear d ws else h

/-- The world once an effect is complete. -/
def World.after (w : World) (e : Effect) : World :=
  { begun := e.begun || w.begun
    disk := applyWrites e.writes w.disk
    store := e.store
    second := e.second
    machine := e.machine
    hist := e.past w.disk e.writes }

/-- The world a crash leaves after the first `k` writes of an effect. -/
def World.cutAfter (w : World) (e : Effect) (k : ℕ) : World :=
  { w with
    begun := e.begun || w.begun
    disk := cutWrites k e.writes w.disk
    machine := .down
    hist := e.past w.disk (e.writes.take k) }

/-- The world once the `.seg` file of `s` came back with other bytes. -/
def World.damaged (w : World) (s : ℕ) (b : Bytes) : World :=
  { w with disk := w.disk.map fun d => { d with segs := d.segs.insert s b } }

/-- **One step** of the world. -/
def step (ev : Event) (w : World) : Action → Option World
  | .crash =>
      match w.machine with
      | .down => none
      | _ => some { w with machine := .down }
  | .crashIn a k =>
      (w.plan ev a).bind fun e => if e.writes = [] then none else some (w.cutAfter e k)
  | .damage s b => if HasSeg w.disk s then some (w.damaged s b) else none
  | a => (w.plan ev a).map w.after

/-- Before the event: no folder, empty buckets, no process. -/
def Fresh (w : World) : Prop := w = {}

end Multisite

import Multisite.Spool.Root
import Multisite.Session.World

/-!
`EventFinisher::finish` (`event_finisher.cpp`) with the uploader it starts
(`RetryUploader::run`), on the event `id`.

The call waits in a loop that only reads `pending_count` while the uploader's
thread works, so its steps are the uploader's, with the loop's test made between
two of them; a step makes at most one request.  What the world answers is a
`Tick`: whether a request is answered (a GET with the object or `404`, a PUT with
success), whether a failed PUT may be retried, what `may_upload` says, and
whether the loop finds itself stopped or abandoned.

A null transport fails the call as its first request does; the HEAD requests that
check the first uploads change nothing, and neither do the log and the waits.
-/

namespace Multisite

/-- What the world answers in one step. -/
structure Tick where
  ok : Key → Bool := fun _ => true
  retryable : Bool := true
  mayUpload : Bool := true
  halt : Bool := false
  now : ℤ := 0

/-- The bytes no longer match the checksum taken when they were captured. -/
def SpooledSegment.damaged (sha : Bytes → String) (seg : SpooledSegment) : Bool :=
  decide (seg.checksum ≠ "") && !(decide (seg.checksum ≠ "") && decide (sha seg.data = seg.checksum))

/-- The locals of `finish` once it has read the manifest. -/
structure FinishJob where
  manifest : Manifest
  queue : SpoolQueue
  deriving DecidableEq, Repr

/-- Where a call of `finish` stands. -/
inductive FinishPc where
  /-- About to GET `manifest.json`. -/
  | reading
  /-- It is not there; about to GET `event.json`. -/
  | readingEvent
  /-- In the wait loop; the uploader is about to call `peek_next`. -/
  | polling (j : FinishJob)
  /-- The uploader is about to look at the floor. -/
  | holding (j : FinishJob) (seg : SpooledSegment)
  /-- The uploader's PUT is under way. -/
  | sending (j : FinishJob) (seg : SpooledSegment)
  /-- The PUT succeeded; the confirm callback and `confirm` have not run. -/
  | listing (j : FinishJob) (seg : SpooledSegment)
  /-- A damaged segment is confirmed and listed as a gap; the skipped callback is
  about to publish. -/
  | skipped (j : FinishJob)
  /-- Out of the wait loop with nothing pending. -/
  | publishing (j : FinishJob)
  /-- In `end_live_pointer`, about to GET `event.json`. -/
  | endEvent
  /-- In `end_live_pointer`, about to GET `live.json`. -/
  | endLive (room : String)
  /-- In `end_live_pointer`, about to PUT `live.json`. -/
  | endPut (room : String) (lp : LivePointer)
  | returned (ok : Bool)
  deriving DecidableEq, Repr

/-- A call of `finish` and the world it works in. -/
structure Finishing where
  root : Root
  store : Store
  pc : FinishPc := .reading

namespace Finishing

variable (sha : Bytes → String) (window : ℕ) (id : String)

/-- The call moves on. -/
def goto (f : Finishing) (pc : FinishPc) : Finishing := { f with pc }

/-- The manifest `finish` builds from `event.json`. -/
def manifestOf (e : EventInfo) : Manifest :=
  { eventId := e.eventId
    name := e.name
    startedAtMs := e.startedAtMs
    firstAvailableSeq := e.firstSeq
    video := e.video
    audioTracks := e.audioTracks }

/-- From the manifest to the wait loop: the queue is opened on the event's folder
for one target. -/
def startUpload (f : Finishing) (m : Manifest) : Finishing :=
  let c := SpoolQueue.openRoot 0 f.root id
  let c' := c.1.setTargets 1 (c.2.folder id)
  { f with
    root := c.2.write c.1.dir c'.2
    pc := .polling { manifest := { m with eventId := id, status := .ended }, queue := c'.1 } }

/-- `publish`: the bucket after the manifest's PUT. -/
def publish (t : Tick) (f : Finishing) (m : Manifest) : Store :=
  if t.ok (.manifest id) then
    f.store.put (.manifest id) (.manifest { m with updatedAtMs := t.now })
  else f.store

/-- `SpoolQueue::confirm` for the primary target. -/
def confirm (t : Tick) (f : Finishing) (j : FinishJob) (seq : ℕ) : SpoolQueue × Root :=
  let c := j.queue.confirm t.now (f.root.folder id) seq .primary
  (c.1, f.root.write j.queue.dir c.2)

/-- The uploader's loop from `peek_next` up to its first request. -/
def poll (t : Tick) (f : Finishing) (j : FinishJob) : Finishing :=
  match j.queue.peekNext (f.root.folder id) .primary with
  | none => f
  | some seg =>
      if !t.mayUpload then f
      else if seg.damaged sha then
        let c := confirm id t f j seg.seq
        { f with
          root := c.2
          pc := .skipped { manifest := j.manifest.addGap seg.seq, queue := c.1 } }
      else f.goto (.holding j seg)

/-- The entry the confirm callback lists a segment with. -/
def entryOf (m : Manifest) (seg : SpooledSegment) : ManifestSegment :=
  { seq := seg.seq, durationS := seg.durationS, checksum := seg.checksum
    atMs := m.startedAtMs + msOf seg.ptsOffsetS }

/-- The confirm callback and `confirm`. -/
def list (t : Tick) (f : Finishing) (j : FinishJob) (seg : SpooledSegment) : Finishing :=
  let m := j.manifest.push (entryOf j.manifest seg) window
  let c := confirm id t f j seg.seq
  { root := c.2, store := publish id t f m, pc := .polling { manifest := m, queue := c.1 } }

/-- The end of a successful call: `discard_event`. -/
def finished (f : Finishing) : Finishing :=
  { f with root := f.root.discardEvent id, pc := .returned true }

/-- **One step** of a call. -/
def step (t : Tick) (f : Finishing) : Finishing :=
  match f.pc with
  | .reading =>
      if !t.ok (.manifest id) then f.goto (.returned false)
      else
        match f.store (.manifest id) with
        | some (.manifest m) => startUpload id f m
        | some _ => f.goto (.returned false)
        | none => f.goto .readingEvent
  | .readingEvent =>
      if !t.ok (.event id) then f.goto (.returned false)
      else
        match f.store (.event id) with
        | some (.event e) => startUpload id f (manifestOf e)
        | _ => f.goto (.returned false)
  | .polling j =>
      if j.queue.pendingCount (f.root.folder id) = 0 then f.goto (.publishing j)
      else if t.halt then f.goto (.returned false)
      else poll sha id t f j
  | .holding j seg =>
      if t.halt then f.goto (.returned false)
      else if seg.seq < j.queue.floor then f.goto (.polling j)
      else f.goto (.sending j seg)
  | .sending j seg =>
      if t.ok seg.key then
        { f with store := f.store.put seg.key (.bytes seg.data), pc := .listing j seg }
      else if t.retryable then f.goto (.holding j seg)
      else f.goto (.polling j)
  | .listing j seg => list window id t f j seg
  | .skipped j => { f with store := publish id t f j.manifest, pc := .polling j }
  | .publishing j =>
      if t.ok (.manifest id) then { f with store := publish id t f j.manifest, pc := .endEvent }
      else f.goto (.returned false)
  | .endEvent =>
      if !t.ok (.event id) then f.goto (.returned false)
      else
        match f.store (.event id) with
        | some (.event e) => if e.roomId = "" then finished id f else f.goto (.endLive e.roomId)
        | _ => finished id f
  | .endLive room =>
      if !t.ok (.live room) then f.goto (.returned false)
      else
        match f.store (.live room) with
        | some (.live lp) =>
            if lp.eventId ≠ id ∨ lp.status = .ended then finished id f
            else f.goto (.endPut room lp)
        | _ => finished id f
  | .endPut room lp =>
      if t.ok (.live room) then
        finished id { f with
          store := f.store.put (.live room)
            (.live { lp with status := .ended, updatedAtMs := t.now }) }
      else f.goto (.returned false)
  | .returned _ => f

/-- A step of the calls made one after the other until one succeeds. -/
def again (t : Tick) (f : Finishing) : Finishing :=
  match f.pc with
  | .returned false => f.goto .reading
  | _ => step sha window id t f

end Finishing

end Multisite

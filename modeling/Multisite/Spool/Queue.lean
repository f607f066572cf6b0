import Mathlib.Data.List.AList
import Multisite.Lib.WriteLog
import Multisite.Core.Store

/-!
`SpoolQueue` (`spool_queue.h`, `spool_queue.cpp`) at work on one event's folder.

A folder holds `state.json`, a `.seg` file and a `.meta` sidecar per segment.
Every change of the disk is one `Write`, atomic by `atomic_write` (written to a
temporary name, synced, renamed) or by the removal of one file; an operation is
the list of its writes in the order the source makes them, so that a crash
inside it is `Lib.cut`.  Sequence numbers are natural numbers (a run counts them
up from the event's first, so neither `uint64_t` nor the file name's field
overflows); `m_bytes_pending` keeps its wrap-around.

Each operation is given the folder at `m_dir` as it stands, `none` when there is
none, and the clock reading `now` where the source calls `now_ms()`.
-/

namespace Multisite

/-! ### Files -/

/-- `SpooledSegment`. -/
structure SpooledSegment where
  seq : ℕ := 0
  data : Bytes := []
  durationS : ℚ := 6
  ptsOffsetS : ℚ := 0
  checksum : String := ""
  key : Key
  deriving DecidableEq, Repr

/-- What a `.meta` sidecar says, each field at its default when the sidecar does
not have it. -/
structure Sidecar where
  durationS : ℚ := 6
  ptsOffsetS : ℚ := 0
  checksum : String := ""
  key : Key
  deriving DecidableEq, Repr

/-- A `.meta` file that is there: it parses or it does not. -/
inductive SidecarFile where
  | garbled
  | parsed (m : Sidecar)
  deriving DecidableEq, Repr

/-- `SpoolState`, the content of `state.json`. -/
structure SpoolState where
  eventId : String := ""
  firstSeq : ℕ := 0
  lastEnqueued : ℕ := 0
  lastConfirmed : ℕ := 0
  targets : ℤ := 1
  lastConfirmed2 : ℕ := 0
  anyConfirmed : Bool := false
  anyConfirmed2 : Bool := false
  ended : Bool := false
  valid : Bool := false
  lastActivityMs : ℤ := 0
  mediaEndS : ℚ := 0
  endUnpublished : Bool := false
  deriving DecidableEq, Repr

/-- A `state.json` that is there: it parses or it does not. -/
inductive StateFile where
  | garbled
  | parsed (st : SpoolState)
  deriving DecidableEq, Repr

/-- Files named by a sequence number. -/
abbrev SeqFiles (β : Type) := AList fun _ : ℕ => β

/-- One event's folder. -/
structure Folder where
  state : Option StateFile := none
  segs : SeqFiles Bytes := ∅
  metas : SeqFiles SidecarFile := ∅

/-- `read_state_file`: the recorded state, or an invalid one when there is none
or it does not parse. -/
def readStateFile : Option StateFile → SpoolState
  | some (.parsed st) => { st with valid := true }
  | _ => {}

/-- `has_segments`. -/
def Folder.hasSegments (d : Folder) : Bool := !d.segs.keys.isEmpty

/-! ### Writes -/

/-- One atomic change of a folder. -/
inductive Write where
  | create
  | removeAll
  | seg (seq : ℕ) (data : Bytes)
  | sidecar (seq : ℕ) (m : Sidecar)
  | removeSeg (seq : ℕ)
  | removeSidecar (seq : ℕ)
  | state (st : SpoolState)
  deriving DecidableEq, Repr

/-- The folder after a write; a file can only be written into a folder that is
there. -/
def Write.apply : Write → Option Folder → Option Folder
  | .create, d => some (d.getD {})
  | .removeAll, _ => none
  | .seg s b, d => d.map fun d => { d with segs := d.segs.insert s b }
  | .sidecar s m, d => d.map fun d => { d with metas := d.metas.insert s (.parsed m) }
  | .removeSeg s, d => d.map fun d => { d with segs := d.segs.erase s }
  | .removeSidecar s, d => d.map fun d => { d with metas := d.metas.erase s }
  | .state st, d => d.map fun d => { d with state := some (.parsed st) }

/-- The folder after all writes of an operation. -/
abbrev applyWrites (ws : List Write) (d : Option Folder) : Option Folder :=
  Lib.applyAll Write.apply ws d

/-- The folder left by a crash after the first `k` writes of an operation. -/
abbrev cutWrites (k : ℕ) (ws : List Write) (d : Option Folder) : Option Folder :=
  Lib.cut Write.apply k ws d

/-! ### The queue's memory -/

/-- A target of the upload: the primary bucket (`0`) or the second (`1`). -/
inductive Target where
  | primary
  | second
  deriving DecidableEq, Repr

/-- `SpoolDrop`. -/
structure SpoolDrop where
  seq : ℕ
  newFloor : ℕ
  deriving DecidableEq, Repr

/-- The members of `SpoolQueue`; `dir` is `m_dir`, `none` when it is empty. -/
structure SpoolQueue where
  dir : Option String := none
  maxBytes : ℕ := 0
  state : SpoolState := {}
  bytesPending : ℕ := 0
  droppedCount : ℕ := 0
  deriving DecidableEq, Repr

namespace SpoolState

/-- `any_confirmed` or `any_confirmed_2`. -/
def any (st : SpoolState) : Target → Bool
  | .primary => st.anyConfirmed
  | .second => st.anyConfirmed2

/-- `last_confirmed` or `last_confirmed_2`. -/
def mark (st : SpoolState) : Target → ℕ
  | .primary => st.lastConfirmed
  | .second => st.lastConfirmed2

/-- `any && seq <= mark`: the target already has the segment. -/
def has (st : SpoolState) (t : Target) (seq : ℕ) : Bool := st.any t && decide (seq ≤ st.mark t)

end SpoolState

namespace SpoolQueue

/-- Subtraction of `uint64_t`. -/
def subU64 (a b : ℕ) : ℕ := if b ≤ a then a - b else a + 2 ^ 64 - b

/-- `SpoolQueue::pending_seqs`: the `.seg` files of the folder, ascending. -/
def pendingSeqs (q : SpoolQueue) (d : Option Folder) : List ℕ :=
  match q.dir, d with
  | some _, some d => d.segs.keys.insertionSort (· ≤ ·)
  | _, _ => []

/-- `fs::file_size` of a segment's file, `none` when there is no such file. -/
def fileSize (d : Option Folder) (seq : ℕ) : Option ℕ :=
  (d.bind fun d => d.segs.lookup seq).map List.length

/-- `SpoolQueue::save_state`. -/
def saveState (q : SpoolQueue) : List Write := if q.dir.isSome then [.state q.state] else []

/-- `SpoolQueue::load_state`, and the bytes pending recomputed from the disk, as
the constructor does once it has chosen `m_dir`. -/
def load (maxBytes : ℕ) (dir : Option String) (d : Option Folder) : SpoolQueue :=
  let q : SpoolQueue :=
    { dir, maxBytes
      state := match dir with
        | none => {}
        | some _ => readStateFile (d.bind (·.state)) }
  { q with
    bytesPending :=
      (q.pendingSeqs d).foldl (fun n s => (n + (fileSize d s).getD 0) % 2 ^ 64) 0 }

/-- `ResumeInfo`, as far as `inspect` fills it. -/
structure ResumeInfo where
  resumable : Bool := false
  eventId : String := ""
  lastConfirmed : ℕ := 0
  lastEnqueued : ℕ := 0
  pendingCount : ℕ := 0
  lastActivityMs : ℤ := 0
  mediaEndS : ℚ := 0
  deriving DecidableEq, Repr

/-- `SpoolQueue::inspect`. -/
def inspect (q : SpoolQueue) (d : Option Folder) : ResumeInfo :=
  if !q.state.valid || q.state.ended then {}
  else
    { resumable := true
      eventId := q.state.eventId
      lastConfirmed := q.state.lastConfirmed
      lastEnqueued := q.state.lastEnqueued
      pendingCount := (q.pendingSeqs d).length
      lastActivityMs := q.state.lastActivityMs
      mediaEndS := q.state.mediaEndS }

/-! ### Operations -/

/-- The second half of `SpoolQueue::begin_event`: the new event's folder, made
afresh, and its first state.  How many targets there are is kept. -/
def beginIn (now : ℤ) (q : SpoolQueue) (eventId : String) (firstSeq : ℕ) :
    SpoolQueue × List Write :=
  let first := if firstSeq > 0 then firstSeq - 1 else 0
  let q' : SpoolQueue :=
    { q with
      dir := some eventId
      bytesPending := 0
      state :=
        { eventId
          firstSeq
          lastEnqueued := first
          lastConfirmed := first
          lastConfirmed2 := first
          targets := q.state.targets
          ended := false
          valid := true
          lastActivityMs := now } }
  (q', [.removeAll, .create] ++ q'.saveState)

/-- `SpoolQueue::resume_event`, `none` when it throws. -/
def resumeEvent (now : ℤ) (q : SpoolQueue) : Option (SpoolQueue × List Write) :=
  if !q.state.valid then none
  else
    let q' := { q with state := { q.state with ended := false, lastActivityMs := now } }
    some (q', q'.saveState)

/-- What the eviction loop of `enqueue` carries from one victim to the next. -/
structure Evicting where
  state : SpoolState
  bytesPending : ℕ
  droppedCount : ℕ
  drops : List SpoolDrop := []
  writes : List Write := []

/-- `SpoolQueue::evict_locked`, and the bytes it frees taken off. -/
def evictLocked (d : Option Folder) (e : Evicting) (seq : ℕ) : Evicting :=
  let st := { e.state with firstSeq := max e.state.firstSeq (seq + 1) }
  { state := st
    bytesPending := subU64 e.bytesPending ((fileSize d seq).getD 0)
    droppedCount := e.droppedCount + 1
    drops := e.drops ++ [⟨seq, st.firstSeq⟩]
    writes := e.writes ++ [.removeSeg seq, .removeSidecar seq] }

/-- The eviction loop of `enqueue` over the pending sequences, oldest first:
while the bytes exceed the cap and more than one segment is left, up to the one
just written. -/
def evictLoop (maxBytes keep : ℕ) (d : Option Folder) : Evicting → List ℕ → Evicting
  | e, [] => e
  | e, v :: rest =>
      if maxBytes < e.bytesPending ∧ rest ≠ [] ∧ v ≠ keep then
        evictLoop maxBytes keep d (evictLocked d e v) rest
      else e

/-- The outcome of `enqueue` up to the moment it releases its lock: the writes
made, the queue's memory, and the drops it is about to report. -/
structure Enqueued where
  writes : List Write
  queue : SpoolQueue
  drops : List SpoolDrop

/-- The sidecar `enqueue` writes for a segment. -/
def sidecarOf (sha : Bytes → String) (seg : SpooledSegment) : Sidecar :=
  { durationS := seg.durationS
    ptsOffsetS := seg.ptsOffsetS
    checksum := sha seg.data
    key := seg.key }

/-- The two files `enqueue` writes for a segment, the bytes first. -/
def segmentFiles (sha : Bytes → String) (seg : SpooledSegment) : List Write :=
  [.seg seg.seq seg.data, .sidecar seg.seq (sidecarOf sha seg)]

/-- The state and counters of `enqueue` once the files are written, before the
disk cap is looked at. -/
def counted (now : ℤ) (q : SpoolQueue) (seg : SpooledSegment) : Evicting :=
  { state :=
      { q.state with
        lastEnqueued := max q.state.lastEnqueued seg.seq
        mediaEndS := max q.state.mediaEndS (seg.ptsOffsetS + seg.durationS)
        lastActivityMs := now }
    bytesPending := (q.bytesPending + seg.data.length) % 2 ^ 64
    droppedCount := q.droppedCount }

/-- The disk cap, on the folder `d` that holds the new files. -/
def overCap (q : SpoolQueue) (d : Option Folder) (seq : ℕ) (e : Evicting) : Evicting :=
  if q.maxBytes > 0 then evictLoop q.maxBytes seq d e (q.pendingSeqs d) else e

/-- `SpoolQueue::enqueue`, `none` when no event was begun.  The segment's bytes
come first, then its sidecar, then what the disk cap evicts, then the state. -/
def enqueue (sha : Bytes → String) (now : ℤ) (q : SpoolQueue) (d : Option Folder)
    (seg : SpooledSegment) : Option Enqueued :=
  match q.dir with
  | none => none
  | some _ =>
      let files := segmentFiles sha seg
      let e := q.overCap (applyWrites files d) seg.seq (q.counted now seg)
      let q' := { q with
        state := e.state, bytesPending := e.bytesPending, droppedCount := e.droppedCount }
      some { writes := files ++ e.writes ++ q'.saveState, queue := q', drops := e.drops }

/-- The `.meta` of a segment, when it is there and parses. -/
def readSidecar (d : Folder) (seq : ℕ) : Option Sidecar :=
  match d.metas.lookup seq with
  | some (.parsed m) => some m
  | _ => none

/-- A pending segment as `peek_next` reads it, `none` when its sidecar is missing
or does not parse. -/
def readSegment (d : Folder) (seq : ℕ) : Option SpooledSegment :=
  match readSidecar d seq, d.segs.lookup seq with
  | some m, some data =>
      some
        { seq, data
          durationS := m.durationS
          ptsOffsetS := m.ptsOffsetS
          checksum := m.checksum
          key := m.key }
  | _, _ => none

/-- `SpoolQueue::peek_next`: the lowest pending segment the target does not have
whose files can be read. -/
def peekNext (q : SpoolQueue) (d : Option Folder) (t : Target) : Option SpooledSegment :=
  (q.pendingSeqs d).findSome? fun seq =>
    if q.state.has t seq then none else d.bind fun d => readSegment d seq

/-- `SpoolQueue::floor`. -/
def floor (q : SpoolQueue) : ℕ := q.state.firstSeq

/-- `SpoolQueue::caught_up`. -/
def caughtUp (q : SpoolQueue) (d : Option Folder) (t : Target) : Bool :=
  (q.pendingSeqs d).all fun seq => q.state.has t seq

/-- `SpoolQueue::behind`. -/
def behind (q : SpoolQueue) (d : Option Folder) (t : Target) : ℕ :=
  (q.pendingSeqs d).countP fun seq => !q.state.has t seq

/-- `SpoolQueue::pending_count`. -/
def pendingCount (q : SpoolQueue) (d : Option Folder) : ℕ := (q.pendingSeqs d).length

/-- The bytes pending once the file of `seq` is gone, when it is there. -/
def forget (d : Option Folder) (bytes seq : ℕ) : ℕ :=
  match fileSize d seq with
  | some sz => if sz ≤ bytes then bytes - sz else bytes
  | none => bytes

/-- `SpoolQueue::set_targets`.  Back at one target, what the primary already has
is removed. -/
def setTargets (n : ℤ) (q : SpoolQueue) (d : Option Folder) : SpoolQueue × List Write :=
  let n := if n < 1 then 1 else if n > 2 then 2 else n
  let q1 := { q with state := { q.state with targets := n } }
  let swept := if n < 2 then (q.pendingSeqs d).filter fun s => q.state.has .primary s else []
  let q2 := { q1 with bytesPending := swept.foldl (forget d) q.bytesPending }
  (q2, (swept.flatMap fun s => [.removeSeg s, .removeSidecar s]) ++ q2.saveState)

/-- The state `confirm` records: the target's mark moved up to `seq`. -/
def confirmed (now : ℤ) (st : SpoolState) (seq : ℕ) : Target → SpoolState
  | .primary =>
      { st with
        anyConfirmed := true, lastConfirmed := max st.lastConfirmed seq, lastActivityMs := now }
  | .second =>
      { st with
        anyConfirmed2 := true, lastConfirmed2 := max st.lastConfirmed2 seq, lastActivityMs := now }

/-- Every target in play has the segment. -/
def everyTargetHas (st : SpoolState) (seq : ℕ) : Bool :=
  st.has .primary seq && (decide (st.targets < 2) || st.has .second seq)

/-- `SpoolQueue::confirm`: the mark is saved first, and the segment's files go
once every target in play has it. -/
def confirm (now : ℤ) (q : SpoolQueue) (d : Option Folder) (seq : ℕ) (t : Target) :
    SpoolQueue × List Write :=
  let q1 := { q with state := confirmed now q.state seq t }
  if everyTargetHas q1.state seq then
    ({ q1 with bytesPending := forget d q.bytesPending seq },
      q1.saveState ++ [.removeSeg seq, .removeSidecar seq])
  else (q1, q1.saveState)

/-- `SpoolQueue::mark_ended`. -/
def markEnded (published : Bool) (q : SpoolQueue) : SpoolQueue × List Write :=
  let q' := { q with state := { q.state with ended := true, endUnpublished := !published } }
  (q', q'.saveState)

/-- `SpoolQueue::remove_if_done`; the flag says whether the folder was removed. -/
def removeIfDone (q : SpoolQueue) (d : Option Folder) : SpoolQueue × List Write × Bool :=
  if q.dir.isNone || !q.state.ended || q.state.endUnpublished ||
      (d.map Folder.hasSegments).getD false then (q, [], false)
  else ({ q with dir := none, bytesPending := 0 }, [.removeAll], true)

end SpoolQueue

end Multisite

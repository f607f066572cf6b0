import Multisite.Decoder.Steps
import Multisite.Relay.Machine

/-!
A relay at work on one room: `RoomFeeder` (`room_feeder.cpp`) with the decoder session
underneath, one enabled live destination (`RelaySession::run`, `relay_session.cpp`), and the
service that tells the feeder where the destination reads (`Service::supervise`).

The feeder's loop, the destination's loop and the service are threads; every action is one
use of the session, of the cache or of the store, so the runs of `RelayRoom.step` are all
interleavings.  `RoomFeeder::snapshot` asks the session for one figure after the other, and
is as many steps.
-/

namespace Multisite

/-! ### The feeder -/

/-- `FeederConfig`, as far as the session goes by it, and the checksum function. -/
structure FeederConfig where
  bufferMinutes : ℤ := 15
  staleAfterMs : ℤ := 600000
  pinnedEventId : String := ""
  sha256Hex : Bytes → String

/-- The session's configuration, as `RoomFeeder::RoomFeeder` makes it. -/
def FeederConfig.session (c : FeederConfig) : DecoderConfig :=
  { bufferMinutes := c.bufferMinutes, staleAfterMs := c.staleAfterMs, keepBehindSegments := 100
    prebufferSegments := 0, startBufferSeconds := 0, pinnedEventId := c.pinnedEventId
    sha256Hex := c.sha256Hex }

/-- Where `RoomFeeder::run` stands. -/
inductive FeederPc where
  | top
  | polling
  | polled
  | fetchingInfo (eventId : String)
  | parking
  | downloading
  | pumping
  deriving DecidableEq, Repr

/-- `RoomFeeder`. -/
structure RoomFeeder where
  session : DecoderSession
  info : EventInfo := {}
  infoEventId : String := ""
  haveInfo : Bool := false
  lowestReader : ℕ := 0
  readerSet : Bool := false
  pc : FeederPc := .top

namespace RoomFeeder

variable (cfg : DecoderConfig) (f : RoomFeeder)

/-- A step of the session; the loop goes on once the call has returned. -/
def forward (a : DecoderAction) (next : FeederPc) : Option RoomFeeder :=
  (f.session.step cfg a).map fun s =>
    { f with session := s, pc := if s.net = .idle then next else f.pc }

/-- The call of `poll`. -/
def poll (now : ℤ) : Option RoomFeeder :=
  if f.pc = .top then { f with pc := .polling }.forward cfg (.poll now) .polled else none

/-- A pass on which no poll is due. -/
def skipPoll : Option RoomFeeder :=
  if f.pc = .top then some { f with pc := .downloading } else none

/-- The rest of `poll` and of `pump_downloads`. -/
def proceed (a : DecoderAction) : Option RoomFeeder :=
  match f.pc, a with
  | .polling, .readLive _ | .polling, .readEvent _ => f.forward cfg a .polled
  | .pumping, .getInit _ | .pumping, .writeInit _ | .pumping, .getSegment _
  | .pumping, .writeSegment _ | .pumping, .indexSegment | .pumping, .commitDownloads =>
      f.forward cfg a .top
  | _, _ => none

/-- `event.json` is asked for once an event. -/
def checkInfo : Option RoomFeeder :=
  if f.pc = .polled then
    some { f with
      pc :=
        if f.session.eventId ≠ "" ∧ (f.session.eventId ≠ f.infoEventId ∨ f.haveInfo = false) then
          .fetchingInfo f.session.eventId
        else .parking }
  else none

/-- The reply to the request for `event.json`. -/
def gotInfo (r : Reply (Option EventInfo)) : Option RoomFeeder :=
  match f.pc with
  | .fetchingInfo id =>
      match if r.success then r.body else none with
      | some info => some { f with info, infoEventId := id, haveInfo := true, pc := .parking }
      | none => some { f with pc := .parking }
  | _ => none

/-- The download window parked where the destination reads. -/
def park : Option RoomFeeder :=
  if f.pc = .parking then
    some { f with
      session :=
        if f.readerSet = true ∧ f.session.firstAvailableSeq ≤ f.lowestReader ∧
            f.session.head ≠ f.lowestReader then
          f.session.seek f.lowestReader
        else f.session
      pc := .downloading }
  else none

/-- The call of `pump_downloads`. -/
def pump (fuel : ℕ) : Option RoomFeeder :=
  if f.pc = .downloading then
    { f with pc := .pumping }.forward cfg (.pumpDownloads 4 fuel) .top
  else none

/-- `set_lowest_reader`. -/
def setLowestReader (seq : ℕ) : RoomFeeder := { f with lowestReader := seq, readerSet := true }

/-- `has_segment`. -/
def hasSegment (seq : ℕ) : Bool := decide (seq ∈ f.session.cache.index)

/-- `load_segment`. -/
def loadSegment (seq : ℕ) : Option Bytes := f.session.cache.load f.session.cache.eventId seq

/-- `load_init`. -/
def loadInit : Option Bytes := f.session.cache.loadInit f.session.cache.eventId

end RoomFeeder

/-! ### The destination -/

/-- `RoomSnapshot`, as far as the destination goes by it. -/
structure RoomSnapshot where
  room : RoomState := .unknown
  eventId : String := ""
  haveEventInfo : Bool := false
  latestSeq : ℕ := 0
  firstAvailableSeq : ℕ := 0
  segmentDurationS : ℚ := 6
  deriving DecidableEq, Repr

/-- What a pass of `RelaySession::run` finds outside the feeder: the clock, the
destination's settings, what `plan_stream` makes of the event, and what the pipe took. -/
structure Surroundings where
  nowMs : ℤ := 0
  planOk : Bool := true
  planProblem : String := ""
  outputAccepting : Bool := true
  outputEverAccepted : Bool := false
  awaitsReceiver : Bool := false
  delayS : ℤ := 0
  deriving DecidableEq, Repr

/-- `kDefaultDelayS`. -/
def kDefaultDelayS : ℤ := 180

/-- `kGraceS`. -/
def kGraceS : ℤ := 45

/-- The child process, with what was queued for it: the folder the opening data came from,
and each segment with its folder. -/
structure Connection where
  alive : Bool := true
  event : String
  fed : List (String × ℕ) := []
  deriving DecidableEq, Repr

/-- Where `RelaySession::run` stands. -/
inductive RelayPc where
  | idle
  | sawRoom (s : RoomSnapshot)
  | sawEvent (s : RoomSnapshot)
  | sawEdge (s : RoomSnapshot)
  | sawFloor (s : RoomSnapshot)
  | snapped (s : RoomSnapshot)
  | gathered (i : RelayInput)
  | acting (nowMs : ℤ) (d : RelayDecision)
  deriving DecidableEq, Repr

/-- `RelaySession` of an enabled live destination. -/
structure RelaySession where
  machine : RelayMachine := {}
  child : Option Connection := none
  reconfigured : Bool := false
  pc : RelayPc := .idle

namespace RelaySession

variable (r : RelaySession) (f : RoomFeeder)

/-- The next figure of `snapshot`. -/
def look : Option RelaySession :=
  match r.pc with
  | .idle => some { r with pc := .sawRoom { room := f.session.room } }
  | .sawRoom s => some { r with pc := .sawEvent { s with eventId := f.session.eventId } }
  | .sawEvent s => some { r with pc := .sawEdge { s with latestSeq := f.session.latestSeq } }
  | .sawEdge s =>
      some { r with pc := .sawFloor { s with firstAvailableSeq := f.session.firstAvailableSeq } }
  | .sawFloor s =>
      some { r with
        pc := .snapped
          (if f.haveInfo = true ∧ f.infoEventId = s.eventId then
            { s with
              haveEventInfo := true
              segmentDurationS :=
                if 1 / 10 < f.info.segmentDurationS then f.info.segmentDurationS
                else s.segmentDurationS }
          else s) }
  | _ => none

/-- The input of the machine: a live destination has neither in-point nor out-point. -/
def input (s : RoomSnapshot) (e : Surroundings) : RelayInput :=
  { nowMs := e.nowMs
    operatorWantsRunning := true
    room := s.room
    latestSeq := s.latestSeq
    firstAvailableSeq := s.firstAvailableSeq
    segmentDurationS := s.segmentDurationS
    planOk := s.haveEventInfo && e.planOk
    planProblem :=
      if s.haveEventInfo then e.planProblem else "Waiting to hear what the main site is sending."
    childAlive := r.child.any (·.alive)
    outputAccepting := e.outputAccepting
    outputEverAccepted := e.outputEverAccepted
    awaitsReceiver := e.awaitsReceiver
    nextSegmentReady := f.hasSegment r.machine.head
    initReady := f.loadInit.isSome
    delayS := if 0 < e.delayS then e.delayS else kDefaultDelayS
    graceS := kGraceS }

/-- The input gathered. -/
def gather (e : Surroundings) : Option RelaySession :=
  match r.pc with
  | .snapped s => some { r with pc := .gathered (r.input f s e) }
  | _ => none

/-- The machine's step; an edit of the destination comes first. -/
def decide : Option RelaySession :=
  match r.pc with
  | .gathered i =>
      if r.reconfigured then
        some
          { machine := r.machine.reconfigured i.nowMs, child := none, reconfigured := false
            pc := .idle }
      else
        some { r with machine := (r.machine.step i).1, pc := .acting i.nowMs (r.machine.step i).2 }
  | _ => none

/-- The decision carried out; `ok` says whether `ffmpeg` came up. -/
def perform (d : RelayDecision) (ok : Bool) : Option Connection :=
  match d.action with
  | .spawn => if ok then some { event := f.session.cache.eventId } else none
  | .feedSegment =>
      if (f.loadSegment d.seq).isSome then
        r.child.map fun c => { c with fed := c.fed ++ [(f.session.cache.eventId, d.seq)] }
      else r.child
  | .kill => none
  | .closeInput | .none => r.child

/-- A connection that dropped is reported to the machine. -/
def reportExit (nowMs : ℤ) : RelaySession :=
  if (r.child.any fun c => !c.alive) ∧ r.machine.state = .reconnecting then
    { r with machine := r.machine.noteChildExited nowMs false, child := none }
  else r

/-- The end of the pass. -/
def act (ok : Bool) : Option RelaySession :=
  match r.pc with
  | .acting nowMs d =>
      some (reportExit { r with child := r.perform f d ok, pc := .idle } nowMs)
  | _ => none

end RelaySession

/-! ### The relay -/

/-- The feeder and its destination. -/
structure RelayRoom where
  feeder : RoomFeeder
  relay : RelaySession := {}

/-- A step of one thread, with the replies it got. -/
inductive RoomAction where
  /-- The feeder. -/
  | poll (now : ℤ)
  | skipPoll
  | proceed (a : DecoderAction)
  | checkInfo
  | gotInfo (r : Reply (Option EventInfo))
  | park
  | pump (fuel : ℕ)
  /-- The destination. -/
  | look
  | gather (e : Surroundings)
  | decide
  | act (ok : Bool)
  /-- The service, the operator's edits, and `ffmpeg`. -/
  | supervise
  | edit
  | childExits
  deriving DecidableEq, Repr

namespace RelayRoom

variable (cfg : FeederConfig) (x : RelayRoom)

/-- A relay that starts, on a cache directory with these folders. -/
def new (folders : String → Option CacheFolder) : RelayRoom :=
  { feeder := { session := DecoderSession.new cfg.session folders } }

/-- One step of a run. -/
def step (x : RelayRoom) : RoomAction → Option RelayRoom
  | .poll now => (x.feeder.poll cfg.session now).map fun f => { x with feeder := f }
  | .skipPoll => x.feeder.skipPoll.map fun f => { x with feeder := f }
  | .proceed a => (x.feeder.proceed cfg.session a).map fun f => { x with feeder := f }
  | .checkInfo => x.feeder.checkInfo.map fun f => { x with feeder := f }
  | .gotInfo r => (x.feeder.gotInfo r).map fun f => { x with feeder := f }
  | .park => x.feeder.park.map fun f => { x with feeder := f }
  | .pump fuel => (x.feeder.pump cfg.session fuel).map fun f => { x with feeder := f }
  | .look => (x.relay.look x.feeder).map fun r => { x with relay := r }
  | .gather e => (x.relay.gather x.feeder e).map fun r => { x with relay := r }
  | .decide => x.relay.decide.map fun r => { x with relay := r }
  | .act ok => (x.relay.act x.feeder ok).map fun r => { x with relay := r }
  | .supervise =>
      some
        (if x.relay.machine.headSet then
          { x with feeder := x.feeder.setLowestReader x.relay.machine.head }
        else x)
  | .edit => some { x with relay := { x.relay with reconfigured := true } }
  | .childExits =>
      some { x with relay := { x.relay with child := x.relay.child.map ({ · with alive := false }) } }

end RelayRoom

end Multisite

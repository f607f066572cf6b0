import Multisite.Decoder.Session

/-!
`RelayMachine` (`relay_state.h`, `relay_state.cpp`): the life of one destination of a relay,
a state machine without threads or a clock of its own.  Every input is an argument of
`step`, and what is to be done comes back as its decision, one action a call.

A `double` is a rational, a millisecond count an integer without bound, and a sequence
number a natural number.
-/

namespace Multisite

/-- `RelayState`. -/
inductive RelayState where
  | idle
  | waiting
  | awaiting
  | streaming
  | stalled
  | reconnecting
  | ending
  | stopped
  | blocked
  deriving DecidableEq, Repr

/-- `RelayAction`. -/
inductive RelayAction where
  | none
  | spawn
  | feedSegment
  | closeInput
  | kill
  deriving DecidableEq, Repr

/-- `RelayInput`. -/
structure RelayInput where
  nowMs : ℤ := 0
  operatorWantsRunning : Bool := false
  room : RoomState := .unknown
  latestSeq : ℕ := 0
  firstAvailableSeq : ℕ := 0
  segmentDurationS : ℚ := 6
  planOk : Bool := false
  planProblem : String := ""
  childAlive : Bool := false
  outputAccepting : Bool := true
  outputEverAccepted : Bool := false
  awaitsReceiver : Bool := false
  nextSegmentReady : Bool := false
  initReady : Bool := false
  delayS : ℤ := 180
  fromBeginning : Bool := false
  startSeq : ℕ := 0
  endSeq : ℕ := 0
  graceS : ℤ := 45
  deriving DecidableEq, Repr

/-- `RelayDecision`. -/
structure RelayDecision where
  action : RelayAction := .none
  seq : ℕ := 0
  note : String := ""
  deriving DecidableEq, Repr

/-- `RelayMachine`. -/
structure RelayMachine where
  state : RelayState := .idle
  head : ℕ := 0
  headSet : Bool := false
  anchorMs : ℤ := 0
  anchorSeq : ℕ := 0
  stalledSinceMs : ℤ := 0
  backedUpSinceMs : ℤ := 0
  overdueSinceMs : ℤ := 0
  retryAtMs : ℤ := 0
  backoffMs : ℤ := 0
  restarts : ℤ := 0
  streamingSinceMs : ℤ := 0
  lastError : String := ""
  deriving DecidableEq, Repr

/-- `kBackoffFirstMs`. -/
def kBackoffFirstMs : ℤ := 1000

/-- `kBackoffMaxMs`. -/
def kBackoffMaxMs : ℤ := 15000

/-- `kBackoffResetAfterMs`. -/
def kBackoffResetAfterMs : ℤ := 120000

/-- `kStallAfterMs`. -/
def kStallAfterMs : ℤ := 3000

/-- The segment length the arithmetic of positions uses. -/
def relaySegS (segS : ℚ) : ℚ := if 1 / 10 < segS then segS else 6

/-- `seq_behind_live`. -/
def seqBehindLive (latestSeq firstAvailableSeq : ℕ) (segS : ℚ) (delayS : ℤ) : ℕ :=
  let back := ⌊max 0 ((delayS : ℚ) / relaySegS segS)⌋.toNat
  min (max (latestSeq - back) firstAvailableSeq) latestSeq

/-- `room_has_content`. -/
def RelayInput.roomHasContent (i : RelayInput) : Bool :=
  i.room = .live || i.room = .ended || i.room = .interrupted

/-- The place `delay_s` behind this live edge. -/
def RelayInput.behindLive (i : RelayInput) : ℕ :=
  seqBehindLive i.latestSeq i.firstAvailableSeq (relaySegS i.segmentDurationS) i.delayS

namespace RelayMachine

variable (m : RelayMachine) (i : RelayInput) (d : RelayDecision)

/-- `enter`. -/
def enter (s : RelayState) (nowMs : ℤ) (why : String) : RelayMachine :=
  { m with
    state := s
    streamingSinceMs := if s = .streaming then nowMs else m.streamingSinceMs
    stalledSinceMs := if s = .stalled then m.stalledSinceMs else 0
    backedUpSinceMs := if s = .awaiting then m.backedUpSinceMs else 0
    lastError := if why = "" then m.lastError else why }

/-- `note_child_exited`. -/
def noteChildExited (nowMs : ℤ) (expected : Bool) : RelayMachine :=
  if expected then m
  else
    let backoff :=
      if 0 < m.streamingSinceMs ∧ kBackoffResetAfterMs < nowMs - m.streamingSinceMs then 0
      else m.backoffMs
    let backoff := if backoff = 0 then kBackoffFirstMs else min (backoff * 2) kBackoffMaxMs
    { m with restarts := m.restarts + 1, backoffMs := backoff, retryAtMs := nowMs + backoff }

/-- `reconfigured`. -/
def reconfigured (nowMs : ℤ) : RelayMachine :=
  { m with
    state := .waiting
    headSet := false
    retryAtMs := 0
    stalledSinceMs := 0
    overdueSinceMs := 0
    backedUpSinceMs := 0
    streamingSinceMs := nowMs
    lastError := "" }

/-! ### The parts of `step` -/

/-- The operator has switched the destination off. -/
def switchedOff : RelayMachine × RelayDecision :=
  if i.childAlive then
    ({ m.enter .idle i.nowMs "" with headSet := false },
      { action := .kill, note := "stopped by the operator" })
  else if m.state ≠ .idle then
    ({ m.enter .idle i.nowMs "" with headSet := false }, { note := "stopped" })
  else (m, {})

/-- The feed cannot be sent. -/
def unsendable : RelayMachine × RelayDecision :=
  if i.childAlive then
    (m.enter .blocked i.nowMs i.planProblem, { action := .kill, note := i.planProblem })
  else if m.state ≠ .blocked then
    (m.enter .blocked i.nowMs i.planProblem, { note := i.planProblem })
  else ({ m with lastError := i.planProblem }, {})

/-- What kept the feed from being sent has been put right. -/
def unblock : RelayMachine × RelayDecision :=
  if m.state = .blocked then
    ({ m.enter .waiting i.nowMs "" with lastError := "" }, { note := "this event can be sent now" })
  else (m, {})

/-- The room has nothing to send. -/
def noContent : RelayMachine × RelayDecision :=
  if i.childAlive then
    (m.enter .ending i.nowMs "",
      { d with action := .closeInput, note := "the main site is no longer broadcasting" })
  else if m.state ≠ .waiting ∧ m.state ≠ .stopped then
    (m.enter .waiting i.nowMs "", { d with note := "waiting for the event to start" })
  else (m, d)

/-- The position, taken up before anything is waited for, or resumed. -/
def takePosition : RelayMachine :=
  { m with
    head :=
      if m.headSet then max m.head i.firstAvailableSeq
      else if i.fromBeginning then max i.startSeq i.firstAvailableSeq
      else i.behindLive
    headSet := true }

/-- Start, or restart: there is no child. -/
def restart : RelayMachine × RelayDecision :=
  if m.state = .ending then
    (m.enter .stopped i.nowMs "", { d with note := "everything has been sent" })
  else if m.state = .stopped then (m, d)
  else
    let m := m.takePosition i
    if i.nowMs < m.retryAtMs then (m, d)
    else if !i.initReady || !i.nextSegmentReady then
      if m.state ≠ .waiting then
        (m.enter .waiting i.nowMs "", { d with note := "waiting for the event to download" })
      else (m, d)
    else
      ({ m with anchorMs := i.nowMs, anchorSeq := m.head }.enter .streaming i.nowMs "",
        { d with
          action := .spawn
          note := if m.state = .reconnecting then "reconnecting" else "starting" })

/-- Content is not going out. -/
def notTaken : RelayMachine × RelayDecision :=
  if i.awaitsReceiver && !i.outputEverAccepted then
    let note := if m.state ≠ .awaiting then "ready — waiting for the far end to connect" else d.note
    let m := if m.state ≠ .awaiting then m.enter .awaiting i.nowMs "" else m
    ({ m with head := if i.fromBeginning then m.head else i.behindLive }, { d with note })
  else
    let m := { m with
      backedUpSinceMs := if m.backedUpSinceMs = 0 then i.nowMs else m.backedUpSinceMs }
    if i.graceS * 1000 ≤ i.nowMs - m.backedUpSinceMs then
      ({ m.enter .reconnecting i.nowMs "the destination stopped accepting content" with
          retryAtMs := i.nowMs + kBackoffFirstMs },
        { d with
          action := .kill
          note := "the destination stopped accepting content for " ++ toString i.graceS ++
            " seconds — dropping the connection" })
    else (m, d)

/-- Something attached: the pacing starts afresh. -/
def attach : RelayMachine × RelayDecision :=
  if m.state = .awaiting then
    ({ m with anchorMs := i.nowMs, anchorSeq := m.head, overdueSinceMs := 0 }.enter .streaming
        i.nowMs "",
      { d with note := "the far end connected" })
  else (m, d)

/-- Content arrives again. -/
def arriving : RelayMachine × RelayDecision :=
  let m := { m with overdueSinceMs := 0 }
  if m.state = .stalled then
    (m.enter .streaming i.nowMs "", { d with note := "the main site is sending again" })
  else (m, d)

/-- Overdue, and nothing there. -/
def starved : RelayMachine × RelayDecision :=
  let m := { m with overdueSinceMs := if m.overdueSinceMs = 0 then i.nowMs else m.overdueSinceMs }
  let overdue := i.nowMs - m.overdueSinceMs
  if kStallAfterMs ≤ overdue ∧ m.state ≠ .stalled then
    ({ m.enter .stalled i.nowMs "" with stalledSinceMs := m.overdueSinceMs },
      { d with note := "nothing arriving from the main site" })
  else if i.graceS * 1000 ≤ overdue then
    ({ m.enter .reconnecting i.nowMs ("the main site stopped sending for more than " ++
          toString i.graceS ++ " seconds") with
        retryAtMs := i.nowMs + kBackoffFirstMs
        overdueSinceMs := 0 },
      { d with
        action := .kill
        note := "nothing from the main site for " ++ toString i.graceS ++
          " seconds — dropping the connection" })
  else (m, d)

/-- Content is going out: what is due is fed. -/
def feed : RelayMachine × RelayDecision :=
  let (m, d) := m.attach i d
  let m := { m with backedUpSinceMs := 0 }
  let due := m.anchorMs + ((m.head : ℤ) - m.anchorSeq) * msOf (relaySegS i.segmentDurationS)
  if i.nowMs < due then m.arriving i d
  else if !i.nextSegmentReady then m.starved i d
  else
    let (m, d) := m.arriving i d
    ({ m with head := m.head + 1 }, { d with action := .feedSegment, seq := m.head })

/-- A child is running. -/
def running : RelayMachine × RelayDecision :=
  if 0 < i.endSeq ∧ i.endSeq < m.head ∧ m.state ≠ .ending then
    (m.enter .ending i.nowMs "",
      { d with
        action := .closeInput
        note := "the out-point cue has been reached — sending up to it" })
  else if i.latestSeq < m.head ∧ (i.room = .ended ∨ i.room = .interrupted) then
    if m.state ≠ .ending then
      (m.enter .ending i.nowMs "",
        { d with
          action := .closeInput
          note := if i.room = .interrupted then
              "the main site stopped unexpectedly — sending what arrived"
            else "the event has ended — sending the last of it" })
    else (m, d)
  else if m.state = .ending then (m, d)
  else if !i.outputAccepting then m.notTaken i d
  else m.feed i d

/-- `step`. -/
def step : RelayMachine × RelayDecision :=
  if !i.operatorWantsRunning then m.switchedOff i
  else if !i.planOk then m.unsendable i
  else
    let (m, d) := m.unblock i
    if !i.childAlive && (m.state = .streaming || m.state = .stalled || m.state = .awaiting) then
      (m.enter .reconnecting i.nowMs "the connection to the destination dropped",
        { d with note := "connection lost — reconnecting" })
    else if !i.roomHasContent then m.noContent i d
    else if !i.childAlive then m.restart i d
    else m.running i d

end RelayMachine

end Multisite

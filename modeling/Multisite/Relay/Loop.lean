import Multisite.Relay.Feeder
import Multisite.Relay.Branches

/-!
`RelaySession::run` (`relay_session.cpp`), one pass after the other: a destination of any kind,
live or a rebroadcast, over whatever the feeder, the settings and the child process come up
with from one read to the next.

A pass is an argument that holds everything the loop reads in it, so any sequence of passes is
any interleaving with the threads it reads from.

* `RelayLoop.pass_room`: on the room's feeder it is the destination of `RelayRoom`.
-/

namespace Multisite

/-- What a `RelaySession` was made with. -/
structure RelayTask where
  fromBeginning : Bool := false
  startSeq : ℕ := 0
  endSeq : ℕ := 0
  deriving DecidableEq, Repr

/-- What a pass of `RelaySession::run` reads.  `exited` and `drops` say whether the child exits
before the pass asks, and after; `cached` are the segments in the cache when the pass asks for
the next one; `media` is the size of what it then loads for the child; `drained` and `took` are
the bytes the pipe takes while the input is being closed, and at the end of the pass, and
`tookAtMs` when it last took any. -/
structure RelayPass where
  nowMs : ℤ := 0
  edited : Bool := false
  enabled : Bool := true
  snap : RoomSnapshot := {}
  planOk : Bool := true
  planProblem : String := ""
  delayS : ℤ := 0
  listener : Bool := false
  cached : Finset ℕ := ∅
  initCached : Bool := true
  exited : Bool := false
  starts : Bool := true
  media : Option ℕ := none
  drained : ℕ := 0
  drops : Bool := false
  took : ℕ := 0
  tookAtMs : ℤ := 0
  deriving DecidableEq

/-- `kDrainQuietMs`. -/
def kDrainQuietMs : ℤ := 2000

/-- `RelaySession`: the machine, the child, if there is one, and whether it runs, and the bytes
queued for it and not yet taken. -/
structure RelayLoop where
  machine : RelayMachine := {}
  child : Option Bool := none
  pending : ℕ := 0
  lastAcceptMs : ℤ := 0
  everAccepted : Bool := false
  deriving DecidableEq, Repr

namespace RelayLoop

variable (k : RelayTask) (p : RelayPass) (l : RelayLoop) (d : RelayDecision)

/-- The child exits, if there is one. -/
def childExits (exits : Bool) : RelayLoop :=
  { l with child := l.child.map fun alive => alive && !exits }

/-- The input of the machine. -/
def input : RelayInput :=
  { nowMs := p.nowMs
    operatorWantsRunning := p.enabled
    room := p.snap.room
    latestSeq := p.snap.latestSeq
    firstAvailableSeq := p.snap.firstAvailableSeq
    segmentDurationS := p.snap.segmentDurationS
    planOk := p.snap.haveEventInfo && p.planOk
    planProblem :=
      if p.snap.haveEventInfo then p.planProblem
      else "Waiting to hear what the main site is sending."
    childAlive := l.child = some true
    outputAccepting := l.pending = 0 || decide (p.nowMs - l.lastAcceptMs < kDrainQuietMs)
    outputEverAccepted := l.everAccepted
    awaitsReceiver := p.listener
    nextSegmentReady := decide (l.machine.head ∈ p.cached)
    initReady := p.initCached
    delayS := if 0 < p.delayS then p.delayS else kDefaultDelayS
    fromBeginning := k.fromBeginning
    startSeq := k.startSeq
    endSeq := k.endSeq
    graceS := kGraceS }

/-- `pump_writes`, of which the pipe takes `took` bytes. -/
def pumpWrites (took : ℕ) (atMs : ℤ) : RelayLoop :=
  if l.child.isNone || l.pending = 0 then l
  else if 0 < min took l.pending then
    { l with pending := l.pending - min took l.pending, lastAcceptMs := atMs, everAccepted := true }
  else l

/-- The decision carried out. -/
def perform : RelayLoop :=
  match d.action with
  | .spawn =>
      if p.starts then
        { l with
          child := some true, pending := p.media.getD 0, everAccepted := false
          lastAcceptMs := p.nowMs }
      else { l with child := none, pending := 0, everAccepted := false, lastAcceptMs := p.nowMs }
  | .feedSegment => { l with pending := l.pending + p.media.getD 0 }
  | .closeInput => l.pumpWrites p.drained p.tookAtMs
  | .kill => { l with child := none, pending := 0, everAccepted := false }
  | .none => l

/-- A connection that dropped is reported to the machine. -/
def reportExit : RelayLoop :=
  if l.child = some false ∧ l.machine.state = .reconnecting then
    { l with machine := l.machine.noteChildExited p.nowMs false, child := none }
  else l

/-- What a pass decides: nothing, when the destination was edited. -/
def decision : RelayDecision :=
  if p.edited then {} else (l.machine.step ((l.childExits p.exited).input k p)).2

/-- A pass. -/
def pass : RelayLoop :=
  let l := l.childExits p.exited
  if p.edited then
    { machine := l.machine.reconfigured p.nowMs, child := none, pending := 0
      lastAcceptMs := l.lastAcceptMs, everAccepted := false }
  else
    let x := l.machine.step (l.input k p)
    let l := { l with machine := x.1 }.perform p x.2
    ((l.childExits p.drops).reportExit p).pumpWrites p.took p.tookAtMs

/-- The loop after these passes. -/
def after (ps : List RelayPass) : RelayLoop := ps.foldl (fun l p => l.pass k p) l

/-! ### What a pass does to the machine and the child -/

variable {k : RelayTask} {p : RelayPass} {l : RelayLoop} {d : RelayDecision}

@[simp] lemma pumpWrites_machine (n : ℕ) (t : ℤ) : (l.pumpWrites n t).machine = l.machine := by
  rw [pumpWrites]
  split
  · rfl
  · split <;> rfl

@[simp] lemma pumpWrites_child (n : ℕ) (t : ℤ) : (l.pumpWrites n t).child = l.child := by
  rw [pumpWrites]
  split
  · rfl
  · split <;> rfl

@[simp] lemma childExits_machine (b : Bool) : (l.childExits b).machine = l.machine := rfl

@[simp] lemma childExits_false : l.childExits false = l := by
  cases l with
  | mk machine child =>
      cases child <;> simp [childExits]

@[simp] lemma perform_machine : (l.perform p d).machine = l.machine := by
  rw [perform]
  split
  · split <;> rfl
  · rfl
  · simp
  · rfl
  · rfl

/-- Whether the child is found running. -/
lemma childAlive_iff : ((l.childExits p.exited).input k p).childAlive = true ↔
    l.child = some true ∧ p.exited = false := by
  simp only [input, childExits, decide_eq_true_eq, Option.map_eq_some_iff]
  constructor
  · rintro ⟨alive, hl, hand⟩
    simp only [Bool.and_eq_true, Bool.not_eq_true'] at hand
    exact ⟨hand.1 ▸ hl, hand.2⟩
  · rintro ⟨hl, he⟩
    exact ⟨true, hl, by simp [he]⟩

/-- The child after a decision. -/
lemma perform_child : (l.perform p d).child =
    if d.action = .spawn then (if p.starts then some true else none)
    else if d.action = .kill then none else l.child := by
  rw [perform]
  cases hact : d.action with
  | spawn => simp only [if_true]; split <;> rfl
  | _ => simp

/-- A pass on a destination that was not edited. -/
lemma pass_eq (h : p.edited = false) : l.pass k p =
    (({ l.childExits p.exited with
        machine := (l.machine.step ((l.childExits p.exited).input k p)).1 }.perform p
          (l.decision k p)).childExits p.drops |>.reportExit p).pumpWrites p.took p.tookAtMs := by
  simp only [pass, decision, h, Bool.false_eq_true, if_false]
  rfl

/-- What reporting an exit leaves of the machine. -/
lemma reportExit_frame : (l.reportExit p).machine.state = l.machine.state ∧
    (l.reportExit p).machine.head = l.machine.head ∧
    (l.reportExit p).machine.headSet = l.machine.headSet := by
  rw [reportExit]
  split
  · simp [RelayMachine.noteChildExited]
  · exact ⟨rfl, rfl, rfl⟩

/-- The position after a pass is that after its step. -/
lemma pass_place (h : p.edited = false) :
    (l.pass k p).machine.head =
        (l.machine.step ((l.childExits p.exited).input k p)).1.head ∧
      (l.pass k p).machine.headSet =
        (l.machine.step ((l.childExits p.exited).input k p)).1.headSet := by
  rw [pass_eq h, pumpWrites_machine, reportExit_frame.2.1, reportExit_frame.2.2]
  simp

lemma pass_state (h : p.edited = false) : (l.pass k p).machine.state =
    (l.machine.step ((l.childExits p.exited).input k p)).1.state := by
  rw [pass_eq h, pumpWrites_machine, reportExit_frame.1]
  simp

/-- The child at the end of a pass, before its exit is reported. -/
def childThen (k : RelayTask) (p : RelayPass) (l : RelayLoop) : Option Bool :=
  if (l.decision k p).action = .spawn then (if p.starts then some !p.drops else none)
  else if (l.decision k p).action = .kill then none
  else l.child.map fun alive => alive && !p.exited && !p.drops

/-- **A pass**: its step, and the report of an exit that the step reconnects after. -/
lemma pass_cases (h : p.edited = false) :
    (l.childThen k p = some false ∧
        (l.machine.step ((l.childExits p.exited).input k p)).1.state = .reconnecting) ∧
      (l.pass k p).machine =
        (l.machine.step ((l.childExits p.exited).input k p)).1.noteChildExited p.nowMs false ∧
      (l.pass k p).child = none ∨
    ¬(l.childThen k p = some false ∧
        (l.machine.step ((l.childExits p.exited).input k p)).1.state = .reconnecting) ∧
      (l.pass k p).machine = (l.machine.step ((l.childExits p.exited).input k p)).1 ∧
      (l.pass k p).child = l.childThen k p := by
  rw [pass_eq h, pumpWrites_machine, pumpWrites_child]
  have hchild : (({ l.childExits p.exited with
      machine := (l.machine.step ((l.childExits p.exited).input k p)).1 }.perform p
        (l.decision k p)).childExits p.drops).child = l.childThen k p := by
    rw [childExits, childThen, perform_child]
    split
    · split <;> rfl
    · split
      · rfl
      · simp [childExits, Function.comp_def]
  rw [reportExit, hchild, childExits_machine, perform_machine]
  split
  · rename_i hreport
    exact Or.inl ⟨hreport, rfl, rfl⟩
  · rename_i hreport
    exact Or.inr ⟨hreport, perform_machine, hchild⟩

/-- What a pass leaves queued for a child: nothing, where the pipe takes all there is. -/
lemma pass_drained (h : p.edited = false) (htakes : l.pending + p.media.getD 0 ≤ p.took)
    (hchild : (l.pass k p).child.isSome = true) : (l.pass k p).pending = 0 := by
  have hpumped : ∀ (l : RelayLoop) n t, (l.pumpWrites n t).pending ≤ l.pending := by
    intro l n t
    rw [pumpWrites]
    split
    · exact le_rfl
    · split
      · exact Nat.sub_le _ _
      · exact le_rfl
  have hqueued : ∀ (l' : RelayLoop) (d : RelayDecision), l'.pending = l.pending →
      (l'.perform p d).pending ≤ p.took := by
    intro l' d hl'
    rw [perform]
    split
    · split
      · dsimp only
        omega
      · exact Nat.zero_le _
    · dsimp only
      omega
    · have hle := hpumped l' p.drained p.tookAtMs
      omega
    · exact Nat.zero_le _
    · omega
  rw [pass_eq h] at hchild ⊢
  rw [pumpWrites_child] at hchild
  have hle := hqueued { l.childExits p.exited with
    machine := (l.machine.step ((l.childExits p.exited).input k p)).1 } (l.decision k p) rfl
  have hreported : ∀ l' : RelayLoop, (l'.reportExit p).pending = l'.pending := by
    intro l'
    rw [reportExit]
    split <;> rfl
  rw [pumpWrites]
  split
  · rename_i hnone
    rcases Bool.or_eq_true_iff.mp hnone with hnone | hnone
    · simp [Option.isNone_iff_eq_none.mp hnone] at hchild
    · simpa using hnone
  · rw [hreported]
    split
    · dsimp only [childExits] at hle ⊢
      omega
    · rename_i hno
      rw [hreported] at *
      dsimp only [childExits] at hle hno ⊢
      omega

/-- A child that runs after a pass was started by it, or ran before it. -/
lemma pass_alive (halive : (l.pass k p).child = some true) :
    p.edited = false ∧ ((l.decision k p).action = .spawn ∨
      ((l.childExits p.exited).input k p).childAlive = true ∧ l.child = some true ∧
        (l.decision k p).action ≠ .kill) := by
  cases hedited : p.edited with
  | true => simp [pass, hedited] at halive
  | false =>
      refine ⟨rfl, ?_⟩
      rw [pass_eq hedited, pumpWrites_child, reportExit] at halive
      split at halive
      · simp at halive
      · simp only [childExits, Option.map_eq_some_iff, Bool.and_eq_true, perform_child] at halive
        obtain ⟨alive, hchild, rfl, -⟩ := halive
        by_cases hspawn : (l.decision k p).action = .spawn
        · exact Or.inl hspawn
        · refine Or.inr ?_
          rw [if_neg hspawn] at hchild
          split at hchild
          · simp at hchild
          · rename_i hkill
            refine ⟨by simpa [input, childExits] using hchild, ?_, hkill⟩
            rw [Option.map_eq_some_iff] at hchild
            obtain ⟨alive, hl, hand⟩ := hchild
            rw [hl, (Bool.and_eq_true_iff.mp hand).1]

/-- **The destination of a room** is this loop, on the inputs it gathers there. -/
theorem pass_room {r r' : RelaySession} {f : RoomFeeder} {i : RelayInput} {ok : Bool}
    (hpc : r.pc = .gathered i) (hstep : (r.decide.bind fun r => r.act f ok) = some r')
    (hedited : p.edited = r.reconfigured) (hstarts : p.starts = ok)
    (hexits : p.exited = false ∧ p.drops = false) (hmachine : l.machine = r.machine)
    (hchild : l.child = r.child.map (·.alive)) (hinput : l.input k p = i) :
    (l.pass k p).machine = r'.machine ∧ (l.pass k p).child = r'.child.map (·.alive) := by
  simp only [RelaySession.decide, hpc, Option.bind_eq_some_iff] at hstep
  obtain ⟨r₁, hdecide, hact⟩ := hstep
  split at hdecide
  · rw [Option.some.injEq] at hdecide
    simp [RelaySession.act, ← hdecide] at hact
  · rename_i hnot
    rw [Option.some.injEq] at hdecide
    simp only [RelaySession.act, ← hdecide, Option.some.injEq] at hact
    have hsame : l.decision k p = (r.machine.step i).2 := by
      simp [decision, hedited, hnot, hexits.1, hmachine, hinput]
    have hperformed : ∀ (l' : RelayLoop) (r₀ : RelaySession), r₀.child = r.child →
        l'.child = r.child.map (·.alive) →
        (l'.perform p (r.machine.step i).2).child =
          (r₀.perform f (r.machine.step i).2 ok).map (·.alive) := by
      intro l' r₀ hr₀ hl'
      rw [perform_child, RelaySession.perform, hl', hr₀, hstarts]
      cases (r.machine.step i).2.action with
      | spawn => simp only [if_true]; split <;> rfl
      | feedSegment =>
          simp only [reduceCtorEq, if_false]
          split
          · cases r.child <;> rfl
          · rfl
      | _ => rfl
    have hl := hperformed { l with machine := (r.machine.step i).1 }
      { r with machine := (r.machine.step i).1, pc := .acting i.nowMs (r.machine.step i).2 } rfl hchild
    have hnow : p.nowMs = i.nowMs := by rw [← hinput]; rfl
    rw [pass_eq (by rw [hedited]; simpa using hnot), hsame, hexits.1, hexits.2, childExits_false,
      childExits_false, hinput, hmachine, pumpWrites_machine, pumpWrites_child, ← hact, reportExit,
      RelaySession.reportExit, hl, perform_machine, hnow]
    generalize RelaySession.perform _ f (r.machine.step i).2 ok = child at hl ⊢
    have hdropped : child.map (·.alive) = some false ↔ (child.any fun c => !c.alive) = true := by
      cases child <;> simp
    simp only [hdropped]
    split
    · exact ⟨rfl, rfl⟩
    · exact ⟨perform_machine, hl⟩

end RelayLoop

end Multisite

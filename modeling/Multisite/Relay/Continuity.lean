import Multisite.Relay.Branches

/-!
What a relay sends, over restarts (`RelayMachine::step`, `note_child_exited`).

* `step_place`: the position moves by a segment fed, by a restart that finds it below the
  floor, and otherwise only where nothing ever attached;
* `feed_continuity`: between two feeds the position is one further, or where a restart took
  it up again;
* `feed_passes_floor`: a step that only notes that the connection is gone reads no floor.
-/

namespace Multisite

namespace RelayMachine

/-- The step starts the child, or waits to: the position is taken up again. -/
def resumes (m : RelayMachine) (i : RelayInput) : Bool :=
  i.operatorWantsRunning && i.planOk && i.roomHasContent && !i.childAlive && !m.connected &&
    !m.finishing

/-- The step moves a listener that was never attached to. -/
def repositions (m : RelayMachine) (i : RelayInput) : Bool :=
  i.awaitsReceiver && !i.outputEverAccepted && !i.fromBeginning && (m.step i).1.state = .awaiting

section Steps

variable {m : RelayMachine} {i : RelayInput} {d : RelayDecision} {x : RelayMachine × RelayDecision}

/-- The position is where it was, or where it is taken up. -/
structure Holds (m : RelayMachine) (i : RelayInput) (taken : Bool) (m' : RelayMachine) :
    Prop where
  headSet : m'.headSet = (taken || m.headSet)
  head : m'.head = if taken then (m.takePosition i).head else m.head

lemma Restarted.holds (h : Restarted m i x) : Holds m i (!m.finishing) x.1 := by
  cases h with
  | drained hstate h => rw [h]; exact ⟨by simp [finishing, hstate], by simp [finishing, hstate]⟩
  | stopped hstate h => rw [h]; exact ⟨by simp [finishing, hstate], by simp [finishing, hstate]⟩
  | backsOff hgoes _ h => rw [h, hgoes]; exact ⟨rfl, rfl⟩
  | waits hgoes _ _ h =>
      rcases h with ⟨-, h⟩ | h
      all_goals rw [h, hgoes]; exact ⟨rfl, rfl⟩
  | spawns hgoes _ _ _ h => rw [h, hgoes]; exact ⟨rfl, rfl⟩

lemma attach_position : (m.attach i d).1.head = m.head ∧ (m.attach i d).1.headSet = m.headSet :=
  ⟨attach_stays.1.head, attach_stays.1.headSet⟩

lemma accepting_arriving : ((m.accepting i).arriving i {}).1.head = m.head ∧
    ((m.accepting i).arriving i {}).1.headSet = m.headSet := by
  have harrive := (arriving_stays (m := m.accepting i) (i := i) (d := {})).1
  exact ⟨harrive.head.trans attach_position.1, harrive.headSet.trans attach_position.2⟩

lemma Ran.holds (h : Ran m i x)
    (hstill : (i.awaitsReceiver && !i.outputEverAccepted && !i.fromBeginning &&
      x.1.state = .awaiting) = false)
    (hact : x.2.action ≠ .feedSegment) : Holds m i false x.1 := by
  cases h with
  | closes _ _ h => rw [h]; exact ⟨rfl, rfl⟩
  | draining _ h => rw [h]; exact ⟨rfl, rfl⟩
  | awaits _ _ hfirst m₁ hm h =>
      have hstate : x.1.state = .awaiting := by
        rw [h]
        rcases hm with ⟨hs, rfl⟩ | rfl
        · exact hs
        · rfl
      have hbeginning : i.fromBeginning = true := by simpa [hfirst, hstate] using hstill
      rw [h]
      rcases hm with ⟨-, rfl⟩ | rfl
      all_goals exact ⟨rfl, by simp [hbeginning]⟩
  | backsUp _ _ _ _ h => rw [h]; exact ⟨rfl, rfl⟩
  | dropsDeaf _ _ _ _ h => rw [h]; exact ⟨rfl, rfl⟩
  | early _ _ h => rw [h]; exact ⟨accepting_arriving.2, accepting_arriving.1⟩
  | starves _ _ _ _ _ h =>
      rcases h with h | h
      all_goals rw [h]; exact ⟨attach_position.2, attach_position.1⟩
  | dropsStarved _ _ _ _ _ h => rw [h]; exact ⟨attach_position.2, attach_position.1⟩
  | feeds _ _ _ _ _ hfeed => exact absurd hfeed hact

/-- **What a step does to the position.** -/
lemma step_place (hwants : i.operatorWantsRunning = true) (hstill : m.repositions i = false)
    (hact : (m.step i).2.action ≠ .feedSegment) : Holds m i (m.resumes i) (m.step i).1 := by
  rw [repositions] at hstill
  revert hstill hact
  obtain ⟨hhead, hset, -⟩ := unblock_frame (m := m) (i := i)
  have htake : ((m.unblock i).1.takePosition i).head = (m.takePosition i).head := by
    rw [takePosition, takePosition, hhead, hset]
  refine @step_rec m i (fun x => (i.awaitsReceiver && !i.outputEverAccepted && !i.fromBeginning &&
      x.1.state = .awaiting) = false → x.2.action ≠ .feedSegment →
    Holds m i (m.resumes i) x.1) ?_ ?_ ?_ ?_ ?_ ?_
  · simp [hwants]
  · intro _ hplan _ _
    have hno : m.resumes i = false := by simp [resumes, hplan]
    rw [hno, unsendable]
    split
    · exact ⟨rfl, rfl⟩
    · split <;> exact ⟨rfl, rfl⟩
  · intro _ _ _ hconn _ _
    have hno : m.resumes i = false := by simp [resumes, hconn]
    rw [hno]
    exact ⟨rfl, rfl⟩
  · intro _ _ hcontent _ _ _
    have hno : m.resumes i = false := by simp [resumes, hcontent]
    rw [hno, noContent]
    split
    · exact ⟨hset, hhead⟩
    · split <;> exact ⟨hset, hhead⟩
  · intro _ hplan hcontent halive hconn x hx _ _
    have hyes : m.resumes i = !m.finishing := by
      simp [resumes, hwants, hplan, hcontent, halive, hconn]
    have h := hx.holds
    rw [unblock_finishing, ← hyes] at h
    exact ⟨h.headSet.trans (by rw [hset]), h.head.trans (by rw [hhead, htake])⟩
  · intro _ _ _ halive x hx hstill hact
    have hno : m.resumes i = false := by simp [resumes, halive]
    rw [hno]
    have h := hx.holds hstill hact
    exact ⟨h.headSet.trans (by rw [hset]), h.head.trans (by simp [hhead])⟩

end Steps

end RelayMachine

open RelayMachine

/-! ### Runs -/

/-- The machine after these calls. -/
def RelayMachine.after (m : RelayMachine) (as : List MachineAction) : RelayMachine :=
  as.foldl (fun m a => a.apply m) m

/-- The destination stays on and unedited, and the call feeds nothing and moves no listener
that was never attached to. -/
def MachineAction.quiet (m : RelayMachine) : MachineAction → Bool
  | .step i => i.operatorWantsRunning && !m.repositions i && (m.step i).2.action ≠ .feedSegment
  | .childExited _ _ => true
  | .reconfigured _ => false

/-- All of these calls are. -/
def RelayMachine.quiet (m : RelayMachine) : List MachineAction → Bool
  | [] => true
  | a :: as => a.quiet m && (a.apply m).quiet as

/-- The child is alive, where the call says. -/
def MachineAction.childAlive : MachineAction → Bool
  | .step i => i.childAlive
  | _ => true

/-- The floor a call takes the position up again from. -/
def MachineAction.floor (m : RelayMachine) : MachineAction → ℕ
  | .step i => if m.resumes i then i.firstAvailableSeq else 0
  | _ => 0

/-- The largest floor these calls take the position up again from. -/
def RelayMachine.raised (m : RelayMachine) : List MachineAction → ℕ
  | [] => 0
  | a :: as => max (a.floor m) ((a.apply m).raised as)

/-- A quiet call takes the position to its floor. -/
lemma quiet_call {m : RelayMachine} {a : MachineAction} (hset : m.headSet = true)
    (hquiet : a.quiet m = true) :
    (a.apply m).headSet = true ∧ (a.apply m).head = max m.head (a.floor m) := by
  cases a with
  | step i =>
      simp only [MachineAction.quiet, Bool.and_eq_true, Bool.not_eq_true', decide_eq_true_eq] at hquiet
      obtain ⟨⟨hwants, hstill⟩, hact⟩ := hquiet
      have h := step_place hwants hstill hact
      refine ⟨h.headSet.trans (by simp [hset]), h.head.trans ?_⟩
      rw [takePosition, if_pos hset, MachineAction.floor]
      split <;> simp
  | childExited nowMs expected =>
      simp only [MachineAction.apply, MachineAction.floor, noteChildExited, Nat.max_zero]
      split <;> exact ⟨hset, rfl⟩
  | reconfigured nowMs => simp [MachineAction.quiet] at hquiet

/-- Quiet calls take the position to the largest of their floors. -/
lemma quiet_calls {m : RelayMachine} {as : List MachineAction} (hset : m.headSet = true)
    (hquiet : m.quiet as = true) : (m.after as).head = max m.head (m.raised as) := by
  induction as generalizing m with
  | nil => simp [after, raised]
  | cons a as ih =>
      obtain ⟨ha, has⟩ := Bool.and_eq_true_iff.mp hquiet
      obtain ⟨hset', hhead⟩ := quiet_call hset ha
      have h := ih hset' has
      rw [hhead, max_assoc] at h
      exact h

/-- With the child alive all the while no position is taken up again. -/
lemma raised_alive {m : RelayMachine} {as : List MachineAction}
    (halive : ∀ a ∈ as, a.childAlive = true) : m.raised as = 0 := by
  induction as generalizing m with
  | nil => rfl
  | cons a as ih =>
      obtain ⟨ha, has⟩ := List.forall_mem_cons.mp halive
      rw [raised, ih has, Nat.max_zero]
      cases a with
      | step i =>
          have hno : m.resumes i = false := by
            rw [MachineAction.childAlive] at ha
            simp [resumes, ha]
          simp [MachineAction.floor, hno]
      | _ => rfl

/-- **Nothing twice, nothing skipped.**  A segment is fed when it is there and due.  Of two
feeds of a machine that has a position, with the destination on and unedited between them and
no listener moved, the second is of the next segment, or of the largest floor that a restart
between them took the position up from: nothing is sent twice, and what is left out was below
that floor. -/
theorem feed_continuity :
    (∀ (m : RelayMachine) (i : RelayInput), (m.step i).2.action = .feedSegment →
      i.nextSegmentReady = true ∧
      (m.step i).1.anchorMs + (((m.step i).2.seq : ℤ) - (m.step i).1.anchorSeq) *
        msOf (relaySegS i.segmentDurationS) ≤ i.nowMs) ∧
    ∀ (m : RelayMachine) (i j : RelayInput) (as : List MachineAction), m.headSet = true →
      (m.step i).2.action = .feedSegment → (m.step i).1.quiet as = true →
      (((m.step i).1.after as).step j).2.action = .feedSegment →
      (((m.step i).1.after as).step j).2.seq =
        max ((m.step i).2.seq + 1) ((m.step i).1.raised as) ∧
      ((∀ a ∈ as, a.childAlive = true) →
        (((m.step i).1.after as).step j).2.seq = (m.step i).2.seq + 1) ∧
      (m.step i).2.seq < (((m.step i).1.after as).step j).2.seq ∧
      ∀ q, (m.step i).2.seq < q → q < (((m.step i).1.after as).step j).2.seq →
        q < (m.step i).1.raised as := by
  refine ⟨fun m i hact => ⟨(step_feeds hact).ready, (step_feeds hact).due⟩, ?_⟩
  intro m i j as hset hfeed hquiet hnext
  have hfirst := step_feeds hfeed
  have hsecond := step_feeds hnext
  have hseq : (((m.step i).1.after as).step j).2.seq =
      max ((m.step i).2.seq + 1) ((m.step i).1.raised as) := by
    calc (((m.step i).1.after as).step j).2.seq
        = ((m.step i).1.after as).head := hsecond.seq
      _ = max (m.step i).1.head ((m.step i).1.raised as) :=
          quiet_calls (hfirst.headSet.trans hset) hquiet
      _ = max ((m.step i).2.seq + 1) ((m.step i).1.raised as) := by
          rw [hfirst.head, hfirst.seq]
  refine ⟨hseq, fun halive => ?_, by omega, fun q h1 h2 => by omega⟩
  rw [hseq, raised_alive halive, Nat.max_zero]

/-- A room that holds segments from this one on. -/
def roomFrom (nowMs : ℤ) (firstAvailableSeq latestSeq : ℕ) (childAlive : Bool) : RelayInput :=
  { roomInput nowMs .live latestSeq childAlive with firstAvailableSeq }

/-- Segment 0 is fed, the connection drops, and the restart finds that storage holds nothing
before segment 5: it is fed next. -/
theorem feed_continuity_floor :
    let m := ({} : RelayMachine).after [.step (roomFrom 0 0 0 false)]
    let as : List MachineAction := [.step (roomFrom 100 4 20 false), .childExited 100 false,
      .step (roomFrom 1200 5 20 false)]
    (m.step (roomFrom 50 0 0 true)).2.seq = 0 ∧
      (((m.step (roomFrom 50 0 0 true)).1.after as).step (roomFrom 1250 5 20 true)).2.seq =
        max ((m.step (roomFrom 50 0 0 true)).2.seq + 1)
          ((m.step (roomFrom 50 0 0 true)).1.raised as) ∧
      (m.step (roomFrom 50 0 0 true)).1.raised as = 5 := by
  refine ⟨by decide +kernel, ?_, by decide +kernel⟩
  exact (feed_continuity.2 _ _ _ _ (by decide +kernel) (by decide +kernel) (by decide +kernel)
    (by decide +kernel)).1

/-- The floor a call with content and no child finds. -/
def MachineAction.floorSeen : MachineAction → ℕ
  | .step i => if i.roomHasContent && !i.childAlive then i.firstAvailableSeq else 0
  | _ => 0

/-- **A step that only notes the loss reads no floor**: segment 0 is fed, the step that finds
the connection gone sees the floor at 10, the restart sees it at 5, and segment 5 is fed. -/
theorem feed_passes_floor :
    let m := ({} : RelayMachine).after [.step (roomFrom 0 0 0 false)]
    let as : List MachineAction := [.step (roomFrom 100 10 20 false), .childExited 100 false,
      .step (roomFrom 1200 5 20 false)]
    let m' := (m.step (roomFrom 50 0 0 true)).1
    m.headSet = true ∧ (m.step (roomFrom 50 0 0 true)).2.action = .feedSegment ∧
      m'.quiet as = true ∧ as.any (!·.childAlive) = true ∧
      ((m'.after as).step (roomFrom 1250 5 20 true)).2.action = .feedSegment ∧
      ((m'.after as).step (roomFrom 1250 5 20 true)).2.seq ≠
        max ((m.step (roomFrom 50 0 0 true)).2.seq + 1)
          ((as.map MachineAction.floorSeen).foldr max 0) := by
  decide +kernel

end Multisite

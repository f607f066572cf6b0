import Multisite.Relay.Branches

/-!
What the log of a relay says, and how often the input of a child is closed
(`RelayMachine::step`).

A note is there "so the caller logs transitions rather than every tick".  A step that finds the
room gone under a child whose input is already closed looks at neither.

* `marks_iff`: every other note marks a change of the state, a kill or a start;
* `step_drains`: what a step does to a child that is being drained;
* `notes_and_closes`: over a run, with the child a caller has.
-/

namespace Multisite

open Lib

namespace RelayMachine

/-- A note marks a change of the state, a kill or a start. -/
def Marks (m : RelayMachine) (x : RelayMachine × RelayDecision) : Prop :=
  x.2.note ≠ "" → x.1.state ≠ m.state ∨ x.2.action = .kill ∨ x.2.action = .spawn

instance (m : RelayMachine) (x : RelayMachine × RelayDecision) : Decidable (m.Marks x) :=
  inferInstanceAs (Decidable (_ → _))

/-- The room is gone, and the child's input already closed. -/
def Recloses (m : RelayMachine) (i : RelayInput) : Prop :=
  i.operatorWantsRunning = true ∧ i.planOk = true ∧ i.roomHasContent = false ∧
    i.childAlive = true ∧ m.state = .ending

instance (m : RelayMachine) (i : RelayInput) : Decidable (m.Recloses i) :=
  inferInstanceAs (Decidable (_ ∧ _))

variable {m : RelayMachine} {i : RelayInput} {d : RelayDecision} {x : RelayMachine × RelayDecision}

/-! ### The notes -/

/-- The note is the one there was, or marks something, and the feed can be sent. -/
structure Moved (m : RelayMachine) (d : RelayDecision) (x : RelayMachine × RelayDecision) :
    Prop where
  note : x.2.note = d.note ∨ x.1.state ≠ m.state ∨ x.2.action = .kill ∨ x.2.action = .spawn
  sendable : x.1.state ≠ .blocked

lemma noContent_moved (hs : m.state ≠ .blocked) (hr : i.childAlive = true → m.state ≠ .ending) :
    Moved m d (m.noContent i d) := by
  rw [noContent]
  split
  · rename_i halive
    exact ⟨Or.inr (Or.inl (hr halive).symm), by simp⟩
  · split
    · rename_i h
      exact ⟨Or.inr (Or.inl h.1.symm), by simp⟩
    · exact ⟨Or.inl rfl, hs⟩

lemma restart_moved (hs : m.state ≠ .blocked) : Moved m d (m.restart i d) := by
  have hsame : (m.takePosition i).state = m.state := rfl
  rw [restart]
  split
  · rename_i h
    exact ⟨Or.inr (Or.inl (by simp [h])), by simp⟩
  · split
    · exact ⟨Or.inl rfl, hs⟩
    · dsimp only
      split
      · exact ⟨Or.inl rfl, hs⟩
      · split
        · split
          · rename_i h
            exact ⟨Or.inr (Or.inl (hsame ▸ h).symm), by simp⟩
          · exact ⟨Or.inl rfl, hs⟩
        · exact ⟨Or.inr (Or.inr (Or.inr rfl)), by simp⟩

lemma notTaken_moved (hs : m.state ≠ .blocked) : Moved m d (m.notTaken i d) := by
  rw [notTaken]
  split
  · by_cases h : m.state = .awaiting
    · exact ⟨Or.inl (by simp [h]), by simp [h]⟩
    · exact ⟨Or.inr (Or.inl (by simp [h, Ne.symm h])), by simp [h]⟩
  · generalize (if m.backedUpSinceMs = 0 then i.nowMs else m.backedUpSinceMs) = since
    dsimp only
    split
    · exact ⟨Or.inr (Or.inr (Or.inl rfl)), by simp⟩
    · exact ⟨Or.inl rfl, hs⟩

lemma arriving_notes (hs : m.state ≠ .blocked) :
    ((m.arriving i d).2.note = d.note ∨ (m.arriving i d).1.state ≠ m.state) ∧
      (m.arriving i d).1.state ≠ .blocked := by
  rw [arriving]
  dsimp only
  split
  · rename_i h
    exact ⟨Or.inr (by simp [h]), by simp⟩
  · exact ⟨Or.inl rfl, hs⟩

lemma starved_moved (hs : m.state ≠ .blocked) : Moved m d (m.starved i d) := by
  rw [starved]
  generalize (if m.overdueSinceMs = 0 then i.nowMs else m.overdueSinceMs) = since
  dsimp only
  split
  · rename_i h
    exact ⟨Or.inr (Or.inl h.2.symm), by simp⟩
  · split
    · exact ⟨Or.inr (Or.inr (Or.inl rfl)), by simp⟩
    · exact ⟨Or.inl rfl, hs⟩

/-- The end of `feed`: what is due goes out. -/
def pour (m : RelayMachine) (i : RelayInput) (d : RelayDecision) : RelayMachine × RelayDecision :=
  if i.nowMs < m.due i then m.arriving i d
  else if !i.nextSegmentReady then m.starved i d
  else
    ({ (m.arriving i d).1 with head := (m.arriving i d).1.head + 1 },
      { (m.arriving i d).2 with action := .feedSegment, seq := (m.arriving i d).1.head })

lemma feed_eq : m.feed i d =
    ({ (m.attach i d).1 with backedUpSinceMs := 0 } : RelayMachine).pour i (m.attach i d).2 :=
  rfl

lemma pour_moved (hs : m.state ≠ .blocked) : Moved m d (m.pour i d) := by
  obtain ⟨hnote, hsend⟩ := arriving_notes (i := i) (d := d) hs
  rw [pour]
  split
  · exact ⟨hnote.imp_right Or.inl, hsend⟩
  · split
    · exact starved_moved hs
    · exact ⟨hnote.imp_right Or.inl, hsend⟩

lemma pour_state : (m.pour i d).1.state = m.state ∨ (m.pour i d).1.state = .streaming ∨
    (m.pour i d).1.state = .stalled ∨ (m.pour i d).1.state = .reconnecting := by
  have harrive := (arriving_stays (m := m) (i := i) (d := d)).2.2
  rw [pour]
  split
  · exact harrive.imp_right Or.inl
  · split
    · rw [starved]
      generalize (if m.overdueSinceMs = 0 then i.nowMs else m.overdueSinceMs) = since
      dsimp only
      split
      · exact Or.inr (Or.inr (Or.inl rfl))
      · split
        · exact Or.inr (Or.inr (Or.inr rfl))
        · exact Or.inl rfl
    · exact harrive.imp_right Or.inl

lemma feed_moved (hs : m.state ≠ .blocked) : Moved m d (m.feed i d) := by
  rw [feed_eq]
  by_cases hwaits : m.state = .awaiting
  · -- something attached: the state is another one, whatever else there is to say
    rw [attach, if_pos hwaits]
    refine ⟨Or.inr (Or.inl ?_), (pour_moved (by simp)).sendable⟩
    rw [hwaits]
    rcases pour_state with h | h | h | h
    all_goals rw [h]; simp
  · rw [attach, if_neg hwaits]
    have := pour_moved (m := { m with backedUpSinceMs := 0 }) (i := i) (d := d) hs
    exact ⟨this.note, this.sendable⟩

lemma running_moved (hs : m.state ≠ .blocked) : Moved m d (m.running i d) := by
  rw [running]
  split
  · rename_i h
    exact ⟨Or.inr (Or.inl h.2.2.symm), by simp⟩
  · split
    · split
      · rename_i h
        exact ⟨Or.inr (Or.inl (Ne.symm h)), by simp⟩
      · exact ⟨Or.inl rfl, hs⟩
    · split
      · exact ⟨Or.inl rfl, hs⟩
      · split
        · exact notTaken_moved hs
        · exact feed_moved hs

/-- A branch taken after `unblock`. -/
lemma Moved.marks (h : Moved (m.unblock i).1 (m.unblock i).2 x) : m.Marks x := by
  intro hnote
  by_cases hb : m.state = .blocked
  · exact Or.inl (hb ▸ h.sendable)
  · rw [unblock, if_neg hb] at h
    exact h.note.resolve_left hnote

lemma unblock_sendable : (m.unblock i).1.state ≠ .blocked := by
  rw [unblock]
  split
  · simp
  · assumption

lemma unblock_ending : (m.unblock i).1.state = .ending ↔ m.state = .ending := by
  rw [unblock]
  split
  · rename_i h
    simp [h]
  · rfl

lemma switchedOff_marks : m.Marks (m.switchedOff i) := by
  rw [switchedOff]
  split
  · exact fun _ => Or.inr (Or.inl rfl)
  · split
    · rename_i h
      exact fun _ => Or.inl (Ne.symm h)
    · exact fun h => absurd rfl h

lemma unsendable_marks : m.Marks (m.unsendable i) := by
  rw [unsendable]
  split
  · exact fun _ => Or.inr (Or.inl rfl)
  · split
    · rename_i h
      exact fun _ => Or.inl (Ne.symm h)
    · exact fun h => absurd rfl h

/-- A closed input is closed again, and so it is said again. -/
lemma step_recloses (h : m.Recloses i) : (m.step i).2.action = .closeInput ∧
    (m.step i).2.note = "the main site is no longer broadcasting" ∧
    (m.step i).1.state = m.state := by
  obtain ⟨hwants, hplan, hcontent, halive, hending⟩ := h
  have hunblock : m.unblock i = (m, {}) := if_neg (by simp [hending])
  simp [step, hwants, hplan, hunblock, hcontent, halive, noContent, hending]

/-- **Every note marks something, unless a closed input is closed again.** -/
theorem marks_iff : m.Marks (m.step i) ↔ ¬m.Recloses i := by
  constructor
  · intro hmarks h
    obtain ⟨hact, hnote, hstate⟩ := step_recloses h
    rcases hmarks (by rw [hnote]; decide) with h' | h' | h'
    · exact h' hstate
    · simp [hact] at h'
    · simp [hact] at h'
  · intro h
    rw [step]
    split
    · exact switchedOff_marks
    · rename_i hwants
      split
      · exact unsendable_marks
      · rename_i hplan
        dsimp only
        have hs := unblock_sendable (m := m) (i := i)
        split
        · rename_i hdropped
          refine fun _ => Or.inl fun hsame => ?_
          have hconn : m.state ≠ .blocked := by
            intro hb
            simp [unblock, hb] at hdropped
          rw [unblock, if_neg hconn, ← hsame] at hdropped
          simp at hdropped
        · split
          · rename_i hcontent
            refine (noContent_moved hs fun halive hending => h ?_).marks
            exact ⟨by simpa using hwants, by simpa using hplan, by simpa using hcontent, halive,
              unblock_ending.mp hending⟩
          · split
            · exact (restart_moved hs).marks
            · exact (running_moved hs).marks

/-! ### The drain -/

/-- What a step does to a child whose input is closed. -/
structure Drains (m : RelayMachine) (i : RelayInput) (x : RelayMachine × RelayDecision) : Prop where
  closes : x.2.action = .closeInput →
    i.childAlive = true ∧ x.1.state = .ending ∧ (m.state ≠ .ending ∨ m.Recloses i)
  spawns : x.2.action = .spawn → x.1.state ≠ .ending
  enters : x.1.state = .ending → x.2.action = .closeInput ∨ m.state = .ending
  leaves : m.state = .ending →
    x.1.state = .ending ∨ x.2.action = .kill ∨ i.childAlive = false

/-- A step that closes nothing, and does not get into `Ending`. -/
lemma Drains.idle (hact : x.2.action ≠ .closeInput) (hstate : x.1.state ≠ .ending)
    (hleaves : m.state = .ending → x.2.action = .kill ∨ i.childAlive = false) : Drains m i x :=
  ⟨fun h => absurd h hact, fun _ => hstate, fun h => absurd h hstate, fun h => Or.inr (hleaves h)⟩

lemma not_ending_of_goes (h : m.finishing = false) : m.state ≠ .ending := by
  intro hending
  simp [finishing, hending] at h

/-- With content going out the input stays open. -/
lemma accepting_goes (h : m.state ≠ .ending) :
    (m.accepting i).state ≠ .ending ∧ ((m.accepting i).arriving i {}).1.state ≠ .ending := by
  have hattach := (attach_stays (m := m) (i := i) (d := {})).2.2
  have harrive := (arriving_stays (m := m.accepting i) (i := i) (d := {})).2.2
  have haccept : (m.accepting i).state ≠ .ending := by
    show (m.attach i {}).1.state ≠ .ending
    rcases hattach with hs | hs
    · rwa [hs]
    · simp [hs]
  refine ⟨haccept, ?_⟩
  rcases harrive with hs | hs
  · rwa [hs]
  · simp [hs]

lemma step_drains : Drains m i (m.step i) := by
  refine @step_rec m i (Drains m i) ?_ ?_ ?_ ?_ ?_ ?_
  · intro _
    rw [switchedOff]
    split
    · exact .idle (by simp) (by simp) fun _ => Or.inl rfl
    · rename_i hdead
      have hdead : i.childAlive = false := by simpa using hdead
      split
      · exact .idle (by simp) (by simp) fun _ => Or.inr hdead
      · rename_i h
        exact .idle (by simp) (by simp [not_not.mp h]) fun _ => Or.inr hdead
  · intro _ _
    rw [unsendable]
    split
    · exact .idle (by simp) (by simp) fun _ => Or.inl rfl
    · rename_i hdead
      have hdead : i.childAlive = false := by simpa using hdead
      split
      · exact .idle (by simp) (by simp) fun _ => Or.inr hdead
      · rename_i h
        exact .idle (by simp) (by simp [not_not.mp h]) fun _ => Or.inr hdead
  · intro _ _ hdead _
    exact .idle (by simp) (by simp) fun _ => Or.inr hdead
  · intro hwants hplan hcontent _
    rw [noContent]
    split
    · rename_i halive
      refine ⟨fun _ => ⟨halive, rfl, ?_⟩, fun h => by simp at h, fun _ => Or.inl rfl,
        fun _ => Or.inl rfl⟩
      by_cases hending : m.state = .ending
      · exact Or.inr ⟨hwants, hplan, hcontent, halive, hending⟩
      · exact Or.inl hending
    · rename_i hdead
      have hdead : i.childAlive = false := by simpa using hdead
      have hact := unblock_action (m := m) (i := i)
      split
      · exact .idle (by simp [hact]) (by simp) fun _ => Or.inr hdead
      · rename_i h
        refine .idle (by simp [hact]) ?_ fun _ => Or.inr hdead
        intro (hending : (m.unblock i).1.state = .ending)
        exact h ⟨by simp [hending], by simp [hending]⟩
  · intro _ _ _ hdead _ x hx
    cases hx with
    | drained _ h hact => exact .idle (by simp [hact]) (by simp [h]) fun _ => Or.inr hdead
    | stopped hstate h hact =>
        exact .idle (by simp [hact]) (by simp [h, hstate]) fun _ => Or.inr hdead
    | backsOff hgoes _ h hact =>
        exact .idle (by simp [hact]) (h ▸ not_ending_of_goes hgoes) fun _ => Or.inr hdead
    | waits hgoes _ _ h hact =>
        refine .idle (by simp [hact]) ?_ fun _ => Or.inr hdead
        rcases h with ⟨-, h⟩ | h
        · exact h ▸ not_ending_of_goes hgoes
        · simp [h]
    | spawns hgoes _ _ _ h hact => exact .idle (by simp [hact]) (by simp [h]) fun _ => Or.inr hdead
  · intro _ _ _ halive x hx
    cases hx with
    | closes hgoes _ h hact =>
        have hgoes := mt unblock_ending.mpr hgoes
        exact ⟨fun _ => ⟨halive, by rw [h, enter_state], Or.inl hgoes⟩,
          fun h => by simp [hact] at h, fun _ => Or.inl hact, fun h => absurd h hgoes⟩
    | draining hstate h hact =>
        have hsame : x.1.state = .ending := by rw [h, hstate]
        exact ⟨fun h => by simp [hact] at h, fun h => by simp [hact] at h,
          fun _ => Or.inr (unblock_ending.mp hstate), fun _ => Or.inl hsame⟩
    | awaits hgoes _ _ m₁ hm h hact =>
        refine .idle (by simp [hact]) ?_ fun he => absurd (unblock_ending.mpr he) hgoes
        rcases hm with ⟨hm, rfl⟩ | rfl
        · simp [h, hm]
        · simp [h]
    | backsUp hgoes _ _ _ h hact =>
        exact .idle (by simp [hact]) (by simpa [h] using hgoes)
          fun he => absurd (unblock_ending.mpr he) hgoes
    | dropsDeaf _ _ _ _ h hact => exact .idle (by simp [hact]) (by simp [h]) fun _ => Or.inl hact
    | early hgoes _ h hact =>
        exact .idle (by simp [hact]) (h ▸ (accepting_goes hgoes).2)
          fun he => absurd (unblock_ending.mpr he) hgoes
    | starves hgoes _ _ _ _ h hact =>
        refine .idle (by simp [hact]) ?_ fun he => absurd (unblock_ending.mpr he) hgoes
        rcases h with h | h
        · exact h ▸ (accepting_goes hgoes).1
        · simp [h]
    | dropsStarved _ _ _ _ _ h hact =>
        exact .idle (by simp [hact]) (by simp [h]) fun _ => Or.inl hact
    | feeds hgoes _ _ _ h hact _ =>
        exact .idle (by simp [hact]) (h ▸ (accepting_goes hgoes).2)
          fun he => absurd (unblock_ending.mpr he) hgoes

end RelayMachine

/-! ### Runs -/

/-- What a caller does with a machine: a step, and what it tells it of a child that exited and of
settings that changed, in any order. -/
inductive RelayCall where
  | step (i : RelayInput)
  | noteChildExited (nowMs : ℤ) (expected : Bool)
  | reconfigured (nowMs : ℤ)
  deriving DecidableEq, Repr

/-- A machine, and what was seen of it: whether a child was started and not stopped since nor found
to be gone, how often its input was closed since a child was last started, and whether every note
so far marked something. -/
structure RelayLog where
  machine : RelayMachine := {}
  child : Bool := false
  closed : ℕ := 0
  marked : Bool := true
  deriving DecidableEq, Repr

namespace RelayLog

/-- A call, of which a step tells. -/
def call (l : RelayLog) : RelayCall → Option RelayLog
  | .step i =>
      let x := l.machine.step i
      some
        { machine := x.1
          child := x.2.action = .spawn || l.child && i.childAlive && x.2.action ≠ .kill
          closed :=
            if x.2.action = .spawn then 0
            else if x.2.action = .closeInput then l.closed + 1
            else l.closed
          marked := l.marked && decide (l.machine.Marks x) }
  | .noteChildExited nowMs expected =>
      some { l with machine := l.machine.noteChildExited nowMs expected }
  | .reconfigured nowMs =>
      some { l with machine := l.machine.reconfigured nowMs, child := false }

/-- A child is only alive once it was started, until it is stopped or found to be gone. -/
def Owned (l : RelayLog) : RelayCall → Prop
  | .step i => i.childAlive = true → l.child = true
  | _ => True

/-- And no step finds the room gone with the input already closed. -/
def Orderly (l : RelayLog) : RelayCall → Prop
  | .step i => (i.childAlive = true → l.child = true) ∧ ¬l.machine.Recloses i
  | _ => True

instance (l : RelayLog) (c : RelayCall) : Decidable (l.Owned c) :=
  match c with
  | .step _ => inferInstanceAs (Decidable (_ → _))
  | .noteChildExited _ _ => inferInstanceAs (Decidable True)
  | .reconfigured _ => inferInstanceAs (Decidable True)

instance (l : RelayLog) (c : RelayCall) : Decidable (l.Orderly c) :=
  match c with
  | .step _ => inferInstanceAs (Decidable (_ ∧ _))
  | .noteChildExited _ _ => inferInstanceAs (Decidable True)
  | .reconfigured _ => inferInstanceAs (Decidable True)

/-- A child whose input was closed is the one being drained. -/
structure Closing (l : RelayLog) : Prop where
  draining : l.child = true → l.closed = 0 ∨ l.machine.state = .ending
  ending : l.machine.state = .ending → 1 ≤ l.closed

/-- What a step comes to, seen from outside. -/
lemma Closing.step {l : RelayLog} (h : l.Closing) (i : RelayInput) {l' : RelayLog}
    (hcall : l.call (.step i) = some l') : l'.Closing := by
  have hd := RelayMachine.step_drains (m := l.machine) (i := i)
  obtain rfl := Option.some.inj hcall
  constructor
  · simp only [Bool.or_eq_true, decide_eq_true_eq, Bool.and_eq_true, ne_eq]
    rintro (hspawn | ⟨⟨hchild, halive⟩, hkill⟩)
    · exact Or.inl (if_pos hspawn)
    · by_cases hclose : (l.machine.step i).2.action = .closeInput
      · exact Or.inr (hd.closes hclose).2.1
      · rw [if_neg hclose]
        rcases h.draining hchild with hzero | hending
        · exact Or.inl (by simp [hzero])
        · rcases hd.leaves hending with h' | h' | h'
          · exact Or.inr h'
          · exact absurd h' hkill
          · simp [halive] at h'
  · intro hending
    dsimp only at hending ⊢
    rw [if_neg fun hspawn => hd.spawns hspawn hending]
    rcases hd.enters hending with hclose | hstate
    · rw [if_pos hclose]
      omega
    · have := h.ending hstate
      split <;> omega

/-- The invariant of a run. -/
lemma owned_closing {l : RelayLog} (h : Reach call Owned (· = {}) l) : l.Closing := by
  refine h.invariant (I := Closing) ?_ ?_
  · rintro _ rfl
    exact ⟨fun _ => Or.inl rfl, fun h => by simp at h⟩
  · intro l c l' hl _ hcall
    cases c with
    | step i => exact hl.step i hcall
    | noteChildExited nowMs expected =>
        obtain rfl := Option.some.inj hcall
        have hstate : (l.machine.noteChildExited nowMs expected).state = l.machine.state := by
          rw [RelayMachine.noteChildExited]
          split <;> rfl
        exact ⟨fun hc => hstate ▸ hl.draining hc, fun he => hl.ending (hstate ▸ he)⟩
    | reconfigured nowMs =>
        obtain rfl := Option.some.inj hcall
        exact ⟨fun hc => absurd hc Bool.false_ne_true,
          fun he => by simp [RelayMachine.reconfigured] at he⟩

lemma orderly_closed {l : RelayLog} (h : Reach call Orderly (· = {}) l) :
    l.marked = true ∧ l.closed ≤ 1 := by
  refine h.invariant₂ (I := fun l => l.marked = true ∧ l.closed ≤ 1) (J := Closing)
    (fun h => owned_closing (h.mono ?_)) ?_ ?_
  · intro l c hc
    cases c with
    | step i => exact hc.1
    | noteChildExited _ _ => trivial
    | reconfigured _ => trivial
  · rintro _ rfl
    exact ⟨rfl, Nat.zero_le _⟩
  · intro l c l' hl hmarked hc hcall
    cases c with
    | step i =>
        obtain rfl := Option.some.inj hcall
        have hd := RelayMachine.step_drains (m := l.machine) (i := i)
        refine ⟨by simpa [hmarked.1] using RelayMachine.marks_iff.mpr hc.2, ?_⟩
        dsimp only
        split
        · exact Nat.zero_le _
        · split
          · rename_i hclose
            obtain ⟨halive, -, hgoes⟩ := hd.closes hclose
            have hzero := (hl.draining (hc.1 halive)).resolve_right (hgoes.resolve_right hc.2)
            omega
          · exact hmarked.2
    | noteChildExited _ _ =>
        obtain rfl := Option.some.inj hcall
        exact hmarked
    | reconfigured _ =>
        obtain rfl := Option.some.inj hcall
        exact hmarked

/-- A note marks a change, a kill or a start, and the input of a child is closed once, as long as no
step finds the room gone under a child that is being drained; a step that does repeats both. -/
theorem notes_and_closes (m : RelayMachine) (i : RelayInput) (l : RelayLog) :
    (m.Marks (m.step i) ↔ ¬m.Recloses i) ∧
    (Reach call Orderly (· = {}) l → l.marked = true ∧ l.closed ≤ 1) ∧
    (Reach call Owned (· = {}) l → l.Owned (.step i) → l.machine.Recloses i →
      ∃ l', l.call (.step i) = some l' ∧ l'.marked = false ∧ l'.closed = l.closed + 1 ∧
        2 ≤ l'.closed) := by
  refine ⟨RelayMachine.marks_iff, orderly_closed, fun h _ hagain => ?_⟩
  have hclosed := (owned_closing h).ending hagain.2.2.2.2
  have hmarks : ¬l.machine.Marks (l.machine.step i) := fun h => RelayMachine.marks_iff.mp h hagain
  have hact := (RelayMachine.step_recloses hagain).1
  refine ⟨_, rfl, by simp [hmarks], by simp [hact], ?_⟩
  simp only [hact, reduceCtorEq, if_false, if_true]
  omega

/-- The room is live, and what is needed to start is there. -/
def liveInput (nowMs : ℤ) (childAlive : Bool) : RelayInput :=
  { nowMs, operatorWantsRunning := true, planOk := true, room := .live, initReady := true,
    nextSegmentReady := true, childAlive }

/-- The room is gone. -/
def goneInput (nowMs : ℤ) : RelayInput :=
  { liveInput nowMs true with room := .unknown }

theorem notes_and_closes_drained :
    (∃ l : RelayLog, l.closed = 1 ∧ l.machine.state = .ending ∧ l.marked = true) ∧
      ∃ l : RelayLog, l.marked = false ∧ 2 ≤ l.closed := by
  have hrun : ∃ l, Reach call Orderly (· = {}) l ∧
      (l.closed = 1 ∧ l.machine.state = .ending ∧ l.child = true) :=
    exists_reach_guarded {}
      [.step (liveInput 1 false), .step (liveInput 2 true), .step (goneInput 3)] rfl
      (by decide +kernel)
  obtain ⟨l, hl, hclosed, hstate, halive⟩ := hrun
  have howned : Reach call Owned (· = {}) l := by
    refine hl.mono fun l c hc => ?_
    cases c with
    | step i => exact hc.1
    | noteChildExited _ _ => trivial
    | reconfigured _ => trivial
  refine ⟨⟨l, hclosed, hstate, ((notes_and_closes {} (goneInput 4) l).2.1 hl).1⟩, ?_⟩
  obtain ⟨l', -, hmarked, -, htwice⟩ := (notes_and_closes {} (goneInput 4) l).2.2 howned
    (fun _ => halive) ⟨rfl, rfl, rfl, rfl, hstate⟩
  exact ⟨l', hmarked, htwice⟩

/-- The room stays gone for two ticks: the input is closed twice, and it is said twice. -/
theorem not_notes_and_closes :
    ¬∀ l : RelayLog, Reach call Owned (· = {}) l → l.marked = true ∧ l.closed ≤ 1 := by
  intro h
  have hrun : ∃ l, Reach call Owned (· = {}) l ∧ (l.marked = false ∧ l.closed = 2) :=
    exists_reach_guarded {}
      [.step (liveInput 1 false), .step (liveInput 2 true), .step (goneInput 3),
        .step (goneInput 4)] rfl (by decide +kernel)
  obtain ⟨l, hl, hmarked, hclosed⟩ := hrun
  have := h l hl
  simp [hmarked] at this

end RelayLog

end Multisite

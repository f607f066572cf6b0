import Multisite.Relay.Loop

/-!
How often a relay tries (`RelaySession::run`, `RelayMachine::note_child_exited`).

* `step_arms`: what a step does to the backoff;
* `Standing`: where an attempt can stand between two passes;
* `spawn_backoff`: while every child starts, and an exit is found with the connection up, two
  children are started a second apart, and after attempts that fail in a row the wait doubles;
* `start_fails_twice`: a child that does not start is started again two passes later.
-/

namespace Multisite

namespace RelayMachine

variable {m : RelayMachine} {i : RelayInput} {d : RelayDecision} {x : RelayMachine × RelayDecision}

/-- The backoff stays, and a kill waits the first of it. -/
structure Arms (m : RelayMachine) (i : RelayInput) (m' : RelayMachine) (a : RelayAction) :
    Prop where
  backoff : m'.backoffMs = m.backoffMs
  since : m'.streamingSinceMs = m.streamingSinceMs ∨ m'.streamingSinceMs = i.nowMs
  retry : m'.retryAtMs = m.retryAtMs ∨ a = .kill ∧ m'.retryAtMs = i.nowMs + kBackoffFirstMs

lemma accepting_arms {a : RelayAction} : Arms m i (m.accepting i) a := by
  rw [accepting, attach]
  split
  · exact ⟨rfl, Or.inr rfl, Or.inl rfl⟩
  · exact ⟨rfl, Or.inl rfl, Or.inl rfl⟩

lemma arriving_arms {m' : RelayMachine} {a : RelayAction} (h : Arms m i m' .none) :
    Arms m i (m'.arriving i {}).1 a := by
  have hretry : m'.retryAtMs = m.retryAtMs := by simpa using h.retry
  simp only [arriving]
  split
  · exact ⟨h.backoff, Or.inr rfl, Or.inl hretry⟩
  · exact ⟨h.backoff, h.since, Or.inl hretry⟩

lemma Restarted.arms (h : Restarted m i x) : Arms m i x.1 x.2.action := by
  cases h with
  | drained _ h => rw [h]; exact ⟨rfl, Or.inl rfl, Or.inl rfl⟩
  | stopped _ h => rw [h]; exact ⟨rfl, Or.inl rfl, Or.inl rfl⟩
  | backsOff _ _ h => rw [h]; exact ⟨rfl, Or.inl rfl, Or.inl rfl⟩
  | waits _ _ _ h =>
      rcases h with ⟨-, h⟩ | h
      all_goals rw [h]; exact ⟨rfl, Or.inl rfl, Or.inl rfl⟩
  | spawns _ _ _ _ h => rw [h]; exact ⟨rfl, Or.inr rfl, Or.inl rfl⟩

lemma Ran.arms (h : Ran m i x) : Arms m i x.1 x.2.action := by
  have haccepts := accepting_arms (m := m) (i := i) (a := x.2.action)
  have harrives := arriving_arms (m := m) (i := i) (a := x.2.action) accepting_arms
  cases h with
  | closes _ _ h => rw [h]; exact ⟨rfl, Or.inl rfl, Or.inl rfl⟩
  | draining _ h => rw [h]; exact ⟨rfl, Or.inl rfl, Or.inl rfl⟩
  | awaits _ _ _ m₁ hm h =>
      rw [h]
      rcases hm with ⟨-, rfl⟩ | rfl
      all_goals exact ⟨rfl, Or.inl rfl, Or.inl rfl⟩
  | backsUp _ _ _ _ h => rw [h]; exact ⟨rfl, Or.inl rfl, Or.inl rfl⟩
  | dropsDeaf _ _ _ _ h hact => rw [h, hact]; exact ⟨rfl, Or.inl rfl, Or.inr ⟨rfl, rfl⟩⟩
  | early _ _ h => rw [h]; exact harrives
  | starves _ _ _ _ _ h =>
      rcases h with h | h
      all_goals rw [h]; exact ⟨haccepts.backoff, haccepts.since, haccepts.retry⟩
  | dropsStarved _ _ _ _ _ h hact =>
      rw [h, hact]
      exact ⟨haccepts.backoff, haccepts.since, Or.inr ⟨rfl, rfl⟩⟩
  | feeds _ _ _ _ h => rw [h]; exact ⟨harrives.backoff, harrives.since, harrives.retry⟩

/-- What no branch before the start of a child does. -/
lemma unblock_arms {m' : RelayMachine} {a : RelayAction} (h : Arms (m.unblock i).1 i m' a) :
    Arms m i m' a := by
  obtain ⟨-, -, -, -, hretry, hbackoff, hsince⟩ := unblock_frame (m := m) (i := i)
  exact ⟨h.backoff.trans hbackoff, hsince ▸ h.since, hretry ▸ h.retry⟩

/-- **What a step does to the backoff.** -/
lemma step_arms : Arms m i (m.step i).1 (m.step i).2.action := by
  refine @step_rec m i (fun x => Arms m i x.1 x.2.action) ?_ ?_ ?_ ?_ ?_ ?_
  · intro _
    rw [switchedOff]
    split
    · exact ⟨rfl, Or.inl rfl, Or.inl rfl⟩
    · split <;> exact ⟨rfl, Or.inl rfl, Or.inl rfl⟩
  · intro _ _
    rw [unsendable]
    split
    · exact ⟨rfl, Or.inl rfl, Or.inl rfl⟩
    · split <;> exact ⟨rfl, Or.inl rfl, Or.inl rfl⟩
  · intro _ _ _ _
    exact ⟨rfl, Or.inl rfl, Or.inl rfl⟩
  · intro _ _ _ _
    refine unblock_arms ?_
    rw [noContent]
    split
    · exact ⟨rfl, Or.inl rfl, Or.inl rfl⟩
    · split <;> exact ⟨rfl, Or.inl rfl, Or.inl rfl⟩
  · intro _ _ _ _ _ x hx
    exact unblock_arms hx.arms
  · intro _ _ _ _ x hx
    exact unblock_arms hx.arms

/-! ### Where a step leaves a connection -/

lemma unblock_same (h : m.state ≠ .blocked) : m.unblock i = (m, {}) := if_neg h

lemma connected_sendable (h : m.connected = true) : m.state ≠ .blocked := by
  intro hb
  simp [connected, hb] at h

/-- The machine cannot go on: it neither has a connection nor is closing one, nor is done. -/
def pausing (m : RelayMachine) : Bool := !m.connected && !m.finishing

/-- Unsendable: whatever runs is killed. -/
lemma step_unsendable (hwants : i.operatorWantsRunning = true) (hplan : i.planOk = false) :
    (m.step i).1.state = .blocked ∧
      (m.step i).2.action = if i.childAlive then .kill else .none := by
  have hstep : m.step i = m.unsendable i := by simp [step, hwants, hplan]
  rw [hstep, unsendable]
  split
  · exact ⟨rfl, rfl⟩
  · split
    · exact ⟨rfl, rfl⟩
    · rename_i h
      exact ⟨not_not.mp h, rfl⟩

/-- With a running child: killed and waiting a second, or still up or closing. -/
lemma step_alive (hwants : i.operatorWantsRunning = true) (hplan : i.planOk = true)
    (halive : i.childAlive = true) (hup : m.connected = true ∨ m.state = .ending) :
    (m.step i).2.action = .kill ∧ (m.step i).1.retryAtMs = i.nowMs + kBackoffFirstMs ∨
      (m.step i).2.action ≠ .kill ∧ (m.step i).2.action ≠ .spawn ∧
        ((m.step i).1.connected = true ∨ (m.step i).1.state = .ending) := by
  have hsend : m.state ≠ .blocked := by
    rcases hup with h | h
    · exact connected_sendable h
    · simp [h]
  refine @step_rec m i (fun x => x.2.action = .kill ∧ x.1.retryAtMs = i.nowMs + kBackoffFirstMs ∨
    x.2.action ≠ .kill ∧ x.2.action ≠ .spawn ∧ (x.1.connected = true ∨ x.1.state = .ending))
    ?_ ?_ ?_ ?_ ?_ ?_
  · simp [hwants]
  · simp [hplan]
  · simp [halive]
  · intro _ _ _ _
    rw [noContent, if_pos halive]
    exact Or.inr ⟨by simp, by simp, Or.inr rfl⟩
  · simp [halive]
  · intro _ _ _ _ x hx
    rw [unblock_same hsend] at hx
    have hattached : m.state ≠ .ending → (m.accepting i).connected = true := by
      intro hgoes
      have hconn := hup.resolve_right hgoes
      rw [accepting, attach]
      split
      · rfl
      · exact hconn
    have harrived : ∀ m₁ : RelayMachine, m₁.connected = true →
        (m₁.arriving i {}).1.connected = true := by
      intro m₁ h
      simp only [arriving]
      split
      · rfl
      · exact h
    cases hx with
    | closes _ _ h hact => rw [h, hact]; exact Or.inr ⟨by simp, by simp, Or.inr rfl⟩
    | draining hstate h hact => rw [h, hact]; exact Or.inr ⟨by simp, by simp, Or.inr hstate⟩
    | awaits _ _ _ m₁ hm h hact =>
        rw [h, hact]
        refine Or.inr ⟨by simp, by simp, Or.inl ?_⟩
        rcases hm with ⟨hs, rfl⟩ | rfl
        · have hs : m₁.state = .awaiting := hs
          simp [connected, hs]
        · rfl
    | backsUp hgoes _ _ _ h hact =>
        rw [h, hact]
        exact Or.inr ⟨by simp, by simp, Or.inl (hup.resolve_right hgoes)⟩
    | dropsDeaf _ _ _ _ h hact => rw [h, hact]; exact Or.inl ⟨rfl, rfl⟩
    | early hgoes _ h hact =>
        rw [h, hact]
        exact Or.inr ⟨by simp, by simp, Or.inl (harrived _ (hattached hgoes))⟩
    | starves hgoes _ _ _ _ h hact =>
        rw [hact]
        refine Or.inr ⟨by simp, by simp, Or.inl ?_⟩
        rcases h with h | h
        · rw [h]
          exact hattached hgoes
        · rw [h]
          rfl
    | dropsStarved _ _ _ _ _ h hact => rw [h, hact]; exact Or.inl ⟨rfl, rfl⟩
    | feeds hgoes _ _ _ h hact =>
        rw [h, hact]
        exact Or.inr ⟨by simp, by simp, Or.inl (harrived _ (hattached hgoes))⟩

/-- With no running child: the connection is given up, what was closing is done or waits for
the room, what is done stays so, and a pause ends in a start or goes on. -/
lemma step_dead (hwants : i.operatorWantsRunning = true) (hplan : i.planOk = true)
    (hdead : i.childAlive = false) :
    (m.connected = true → (m.step i).1.state = .reconnecting ∧ (m.step i).2.action = .none) ∧
    (m.state = .ending → (m.step i).2.action = .none ∧
      (m.step i).1.state = if i.roomHasContent then .stopped else .waiting) ∧
    (m.state = .stopped → (m.step i).1.state = .stopped ∧ (m.step i).2.action = .none) ∧
    (m.pausing = true → (m.step i).2.action = .spawn ∨
      (m.step i).2.action = .none ∧ (m.step i).1.pausing = true) := by
  refine @step_rec m i (fun x =>
    (m.connected = true → x.1.state = .reconnecting ∧ x.2.action = .none) ∧
    (m.state = .ending → x.2.action = .none ∧
      x.1.state = if i.roomHasContent then .stopped else .waiting) ∧
    (m.state = .stopped → x.1.state = .stopped ∧ x.2.action = .none) ∧
    (m.pausing = true → x.2.action = .spawn ∨ x.2.action = .none ∧ x.1.pausing = true))
    ?_ ?_ ?_ ?_ ?_ ?_
  · simp [hwants]
  · simp [hplan]
  · intro _ _ _ hconn
    refine ⟨fun _ => ⟨rfl, rfl⟩, fun h => ?_, fun h => ?_, fun h => ?_⟩
    · simp [connected, h] at hconn
    · simp [connected, h] at hconn
    · simp [pausing, hconn] at h
  · intro _ _ hcontent hconn
    have hact := unblock_action (m := m) (i := i)
    rw [noContent, if_neg (by simp [hdead]), hcontent]
    refine ⟨by simp [hconn hdead], fun h => ?_, fun h => ?_, fun h => ?_⟩
    · rw [unblock_same (by simp [h]), if_pos (by simp [h])]
      exact ⟨rfl, rfl⟩
    · rw [unblock_same (by simp [h]), if_neg (by simp [h])]
      exact ⟨h, rfl⟩
    · refine Or.inr ?_
      split
      · exact ⟨hact, rfl⟩
      · rename_i hstays
        refine ⟨hact, ?_⟩
        have hs : (m.unblock i).1.state = .waiting := by
          by_contra hne
          rw [not_and_or, not_not, not_not] at hstays
          have hstopped := hstays.resolve_left hne
          have hfin := unblock_finishing (m := m) (i := i)
          rw [finishing, hstopped] at hfin
          simp [pausing, ← hfin] at h
        simp [pausing, connected, finishing, hs]
  · intro _ _ hcontent _ hconn x hx
    rw [hcontent]
    refine ⟨by simp [hconn], fun h => ?_, fun h => ?_, fun h => ?_⟩
    · rw [unblock_same (by simp [h])] at hx
      cases hx with
      | drained _ hm hact => exact ⟨hact, by rw [hm]; rfl⟩
      | stopped hs => simp [h] at hs
      | backsOff hgoes => simp [finishing, h] at hgoes
      | waits hgoes => simp [finishing, h] at hgoes
      | spawns hgoes => simp [finishing, h] at hgoes
    · rw [unblock_same (by simp [h])] at hx
      cases hx with
      | drained hs => simp [h] at hs
      | stopped _ hm hact => exact ⟨by rw [hm]; exact h, hact⟩
      | backsOff hgoes => simp [finishing, h] at hgoes
      | waits hgoes => simp [finishing, h] at hgoes
      | spawns hgoes => simp [finishing, h] at hgoes
    · have hpausing : (m.unblock i).1.pausing = true := by
        rw [unblock]
        split
        · rfl
        · exact h
      have hgoes : (m.unblock i).1.finishing = false := by
        simpa using (Bool.and_eq_true_iff.mp hpausing).2
      cases hx with
      | drained hs => simp [finishing, hs] at hgoes
      | stopped hs => simp [finishing, hs] at hgoes
      | backsOff _ _ hm hact => exact Or.inr ⟨hact, by rw [hm]; exact hpausing⟩
      | waits _ _ _ hm hact =>
          refine Or.inr ⟨hact, ?_⟩
          rcases hm with ⟨-, hm⟩ | hm
          · rw [hm]
            exact hpausing
          · rw [hm]
            rfl
      | spawns _ _ _ _ _ hact => exact Or.inl hact
  · simp [hdead]

/-- With no running child nothing is killed, closed or fed. -/
lemma step_rests (hwants : i.operatorWantsRunning = true) (hdead : i.childAlive = false) :
    (m.step i).2.action = .spawn ∨ (m.step i).2.action = .none := by
  cases hplan : i.planOk with
  | false =>
      have h := (step_unsendable (m := m) hwants hplan).2
      rw [hdead] at h
      exact Or.inr h
  | true =>
      obtain ⟨hup, hending, hstopped, hpausing⟩ := step_dead (m := m) hwants hplan hdead
      cases hconn : m.connected with
      | true => exact Or.inr (hup hconn).2
      | false =>
          cases hfin : m.finishing with
          | true =>
              simp only [finishing, Bool.or_eq_true, decide_eq_true_eq] at hfin
              rcases hfin with hs | hs
              · exact Or.inr (hending hs).1
              · exact Or.inr (hstopped hs).2
          | false =>
              rcases hpausing (by simp [pausing, hconn, hfin]) with hact | ⟨hact, -⟩
              · exact Or.inl hact
              · exact Or.inr hact

end RelayMachine

/-! ### Attempts -/

/-- The attempts of a run: the times of the Spawn decisions, the last first; whether the last
failed, when that was found, and the wait that it and the failures before it in a row require. -/
structure Attempts where
  clock : ℤ
  spawns : List ℤ := []
  failed : Bool := false
  failedAt : ℤ := 0
  wait : ℤ := 0
  deriving DecidableEq, Repr

namespace Attempts

variable (k : RelayTask) (l : RelayLoop) (p : RelayPass) (n : Attempts)

/-- The last attempt has failed. -/
def fail (t : ℤ) : Attempts :=
  { n with
    failed := true, failedAt := t
    wait := if n.wait = 0 then kBackoffFirstMs else min (n.wait * 2) kBackoffMaxMs }

/-- The last child was started within `kBackoffResetAfterMs`. -/
def young (t : ℤ) : Bool := n.spawns.head?.any fun s => t - s ≤ kBackoffResetAfterMs

/-- The pass finds, for the first time, that a child exited within `kBackoffResetAfterMs`. -/
def finds : Bool :=
  l.child.isSome && !((l.childExits p.exited).input k p).childAlive && !n.failed && n.young p.nowMs

/-- The attempts after a pass. -/
def note (l : RelayLoop) (p : RelayPass) (n : Attempts) : Attempts :=
  let n := if finds k l p n then { n with clock := p.nowMs }.fail p.nowMs
    else { n with clock := p.nowMs }
  if (l.decision k p).action = .spawn then
    let n := { n with
      spawns := p.nowMs :: n.spawns, wait := if n.failed then n.wait else 0, failed := false }
    if p.starts then n else n.fail p.nowMs
  else n

/-- A child may be started at this time. -/
def Allows (t : ℤ) : Prop :=
  (∀ s ∈ n.spawns, s + kBackoffFirstMs ≤ t) ∧ (n.failed = true → n.failedAt + n.wait ≤ t)

end Attempts

/-- The destination stays on and unedited, and the clock does not run back; a child that is
started comes up; the exit of a child that ran no longer than `kBackoffResetAfterMs` is found
with the connection up, or closing and the room there, and the feed sendable; and while there is
a child that has not failed the feed is not found unsendable within a second of its start. -/
structure RelayPass.steady (k : RelayTask) (l : RelayLoop) (n : Attempts) (p : RelayPass) :
    Prop where
  unedited : p.edited = false
  enabled : p.enabled = true
  clock : n.clock ≤ p.nowMs
  starts : (l.decision k p).action = .spawn → p.starts = true
  found : Attempts.finds k l p n = true →
    ((l.childExits p.exited).input k p).planOk = true ∧
      (l.machine.connected = true ∨
        l.machine.state = .ending ∧ ((l.childExits p.exited).input k p).roomHasContent = true)
  sendable : l.child.isSome = true → ((l.childExits p.exited).input k p).planOk = false →
    n.failed = false ∧ ∀ s ∈ n.spawns, s + kBackoffFirstMs ≤ p.nowMs

instance (k : RelayTask) (l : RelayLoop) (n : Attempts) (p : RelayPass) :
    Decidable (p.steady k l n) :=
  decidable_of_iff
    (p.edited = false ∧ p.enabled = true ∧ n.clock ≤ p.nowMs ∧
      ((l.decision k p).action = .spawn → p.starts = true) ∧
      (Attempts.finds k l p n = true →
        ((l.childExits p.exited).input k p).planOk = true ∧
          (l.machine.connected = true ∨
            l.machine.state = .ending ∧
              ((l.childExits p.exited).input k p).roomHasContent = true)) ∧
      (l.child.isSome = true → ((l.childExits p.exited).input k p).planOk = false →
        n.failed = false ∧ ∀ s ∈ n.spawns, s + kBackoffFirstMs ≤ p.nowMs))
    ⟨fun h => ⟨h.1, h.2.1, h.2.2.1, h.2.2.2.1, h.2.2.2.2.1, h.2.2.2.2.2⟩,
      fun h => ⟨h.unedited, h.enabled, h.clock, h.starts, h.found, h.sendable⟩⟩

/-- The exit of the last child is not one of an attempt that failed. -/
def Attempts.Old (n : Attempts) : Prop :=
  ∃ s, n.spawns.head? = some s ∧ s + kBackoffResetAfterMs < n.clock

/-- Where the last attempt stands. -/
inductive Standing (l : RelayLoop) (n : Attempts) : Prop
  /-- No child; the backoff, if there is one, is armed. -/
  | idle (hchild : l.child = none) (hretry : n.Allows l.machine.retryAtMs ∨ n.Allows n.clock)
      (hwait : n.failed = true → n.wait ≤ l.machine.backoffMs)
  | up (s : ℤ) (hchild : l.child.isSome = true)
      (hstate : l.machine.connected = true ∨ l.machine.state = .ending)
      (hgoing : n.failed = false) (hspawn : n.spawns.head? = some s)
      (hsince : s ≤ l.machine.streamingSinceMs) (hwait : n.wait ≤ l.machine.backoffMs)
  /-- Closed, and the child gone: nothing is started any more. -/
  | closed (hchild : l.child = some false) (hstate : l.machine.state = .stopped)
      (hover : n.failed = true ∨ n.Old)
  /-- The child is gone and was not reported, long after its start. -/
  | unreported (hchild : l.child = some false) (hstate : l.machine.pausing = true)
      (hgoing : n.failed = false) (hold : n.Old)

/-- The attempts are counted right, and the last stands somewhere. -/
structure BacksOff (l : RelayLoop) (n : Attempts) : Prop where
  spawns : ∀ s ∈ n.spawns, s ≤ n.clock
  last : ∀ a, n.spawns.head? = some a → ∀ s ∈ n.spawns, s ≤ a
  armed : l.machine.backoffMs = 0 ∨ kBackoffFirstMs ≤ l.machine.backoffMs
  bounded : l.machine.backoffMs ≤ kBackoffMaxMs
  waited : n.wait = 0 ∨ kBackoffFirstMs ≤ n.wait
  standing : Standing l n

section Passes

variable {k : RelayTask} {l : RelayLoop} {p : RelayPass} {n : Attempts}

/-- What is allowed stays so. -/
lemma Attempts.Allows.mono {t u : ℤ} (h : n.Allows t) (htu : t ≤ u) : n.Allows u :=
  ⟨fun s hs => (h.1 s hs).trans htu, fun hf => (h.2 hf).trans htu⟩

/-- An exit reported arms the backoff, doubled unless the connection was up for long. -/
lemma exit_arms (m : RelayMachine) (t w : ℤ)
    (harmed : m.backoffMs = 0 ∨ kBackoffFirstMs ≤ m.backoffMs) (hmax : m.backoffMs ≤ kBackoffMaxMs) :
    (m.noteChildExited t false).retryAtMs = t + (m.noteChildExited t false).backoffMs ∧
      kBackoffFirstMs ≤ (m.noteChildExited t false).backoffMs ∧
      (m.noteChildExited t false).backoffMs ≤ kBackoffMaxMs ∧
      (t - m.streamingSinceMs ≤ kBackoffResetAfterMs → w ≤ m.backoffMs →
        (if w = 0 then kBackoffFirstMs else min (w * 2) kBackoffMaxMs) ≤
          (m.noteChildExited t false).backoffMs) := by
  simp only [RelayMachine.noteChildExited, Bool.false_eq_true, if_false]
  refine ⟨trivial, ?_, ?_, fun hyoung hw => ?_⟩
  · simp only [kBackoffFirstMs, kBackoffMaxMs] at *
    split_ifs <;> omega
  · simp only [kBackoffFirstMs, kBackoffMaxMs] at *
    split_ifs <;> omega
  · have hkeep : ¬(0 < m.streamingSinceMs ∧ kBackoffResetAfterMs < t - m.streamingSinceMs) :=
      fun hlong => absurd hlong.2 (not_lt.mpr hyoung)
    simp only [hkeep, if_false]
    simp only [kBackoffFirstMs, kBackoffMaxMs] at *
    split_ifs <;> omega

/-- What the loop gives the machine at a steady pass. -/
lemma RelayPass.steady.input (hp : p.steady k l n) :
    l.decision k p = (l.machine.step ((l.childExits p.exited).input k p)).2 ∧
      ((l.childExits p.exited).input k p).operatorWantsRunning = true ∧
      ((l.childExits p.exited).input k p).nowMs = p.nowMs ∧
      (((l.childExits p.exited).input k p).childAlive = true ↔
        l.child = some true ∧ p.exited = false) := by
  exact ⟨by simp [RelayLoop.decision, hp.unedited], hp.enabled, rfl, RelayLoop.childAlive_iff⟩

/-- Long after the last start everything is allowed. -/
lemma BacksOff.allows_old (h : BacksOff l n) (hgoing : n.failed = false) {s t : ℤ}
    (hs : n.spawns.head? = some s) (hlate : s + kBackoffFirstMs ≤ t) : n.Allows t := by
  refine ⟨fun s' hs' => ?_, by simp [hgoing]⟩
  have hle := h.last s hs s' hs'
  omega

/-- A child is started where the attempts before it allow it. -/
lemma BacksOff.allows (h : BacksOff l n) (hp : p.steady k l n)
    (hact : (l.decision k p).action = .spawn) : n.Allows p.nowMs := by
  obtain ⟨hdecision, -, hnow, -⟩ := hp.input
  rw [hdecision] at hact
  have hspawn := RelayMachine.step_spawns hact
  have hclock := hp.clock
  have hlate := hspawn.late
  rw [hnow] at hlate
  cases h.standing with
  | idle _ hretry _ =>
      rcases hretry with hretry | hretry
      · exact hretry.mono hlate
      · exact hretry.mono hclock
  | up s _ hstate =>
      rcases hstate with hstate | hstate
      · simp [hspawn.unconnected] at hstate
      · have hgoes := hspawn.goes
        simp [RelayMachine.finishing, hstate] at hgoes
  | closed _ hstate =>
      have hgoes := hspawn.goes
      simp [RelayMachine.finishing, hstate] at hgoes
  | unreported _ _ hgoing hold =>
      obtain ⟨s, hs, hlong⟩ := hold
      refine h.allows_old hgoing hs ?_
      simp only [kBackoffFirstMs, kBackoffResetAfterMs] at *
      omega

/-! ### What a pass writes down -/

lemma note_quiet (hact : (l.decision k p).action ≠ .spawn) (hfind : Attempts.finds k l p n = false) :
    Attempts.note k l p n = { n with clock := p.nowMs } := by
  simp [Attempts.note, hact, hfind]

lemma note_found (hact : (l.decision k p).action ≠ .spawn) (hfind : Attempts.finds k l p n = true) :
    Attempts.note k l p n = { n with clock := p.nowMs }.fail p.nowMs := by
  simp [Attempts.note, hact, hfind]

lemma note_spawned (hact : (l.decision k p).action = .spawn) (hstart : p.starts = true)
    (hfind : Attempts.finds k l p n = false) :
    Attempts.note k l p n =
      { n with
        clock := p.nowMs, spawns := p.nowMs :: n.spawns
        wait := if n.failed then n.wait else 0, failed := false } := by
  simp [Attempts.note, hact, hfind, hstart]

lemma old_not_young (h : n.Old) (hclock : n.clock ≤ p.nowMs) : n.young p.nowMs = false := by
  obtain ⟨s, hs, hlong⟩ := h
  rw [Attempts.young, hs, Option.any_some, decide_eq_false_iff_not, not_le]
  omega

lemma not_young_old {s : ℤ} (hs : n.spawns.head? = some s) (h : n.young p.nowMs = false) :
    s + kBackoffResetAfterMs < p.nowMs := by
  rw [Attempts.young, hs, Option.any_some, decide_eq_false_iff_not, not_le] at h
  omega

/-- The exit of a child is found by the pass, or the child is not. -/
lemma finds_eq (hchild : l.child.isSome = true) (hgoing : n.failed = false)
    (hdead : ((l.childExits p.exited).input k p).childAlive = false) :
    Attempts.finds k l p n = n.young p.nowMs := by
  simp [Attempts.finds, hchild, hgoing, hdead]

/-- **A child that is started** stands up. -/
lemma BacksOff.spawned (h : BacksOff l n) (hp : p.steady k l n)
    (hact : (l.decision k p).action = .spawn) (hfind : Attempts.finds k l p n = false)
    (hwait : n.failed = true → n.wait ≤ l.machine.backoffMs) :
    BacksOff (l.pass k p) (Attempts.note k l p n) := by
  obtain ⟨hdecision, -, hnow, -⟩ := hp.input
  have hstart := hp.starts hact
  have hspawn := RelayMachine.step_spawns (hdecision ▸ hact)
  have hclock := hp.clock
  rw [note_spawned hact hstart hfind]
  have hthen : l.childThen k p = some !p.drops := by
    rw [RelayLoop.childThen, if_pos hact, if_pos hstart]
  rcases RelayLoop.pass_cases (k := k) (l := l) hp.unedited with ⟨⟨-, hstate⟩, -, -⟩ | ⟨-, hm, hc⟩
  · simp [hspawn.state] at hstate
  · refine ⟨?_, ?_, ?_, ?_, ?_, ?_⟩
    · intro s hs
      rcases List.mem_cons.mp hs with rfl | hs
      · exact le_rfl
      · exact (h.spawns s hs).trans hclock
    · intro a ha s hs
      simp only [List.head?_cons, Option.some.injEq] at ha
      subst ha
      rcases List.mem_cons.mp hs with rfl | hs
      · exact le_rfl
      · exact (h.spawns s hs).trans hclock
    · rw [hm, hspawn.backoffMs]
      exact h.armed
    · rw [hm, hspawn.backoffMs]
      exact h.bounded
    · dsimp only
      split
      · exact h.waited
      · exact Or.inl rfl
    · refine .up p.nowMs (by rw [hc, hthen]; rfl) (Or.inl ?_) rfl rfl ?_ ?_
      · rw [hm]
        simp [RelayMachine.connected, hspawn.state]
      · rw [hm, hspawn.streamingSinceMs, hnow]
      · rw [hm, hspawn.backoffMs]
        dsimp only
        split
        · exact hwait ‹_›
        · rcases h.armed with hzero | hpos
          · exact hzero.ge
          · exact (show (0 : ℤ) ≤ kBackoffFirstMs by decide).trans hpos

/-- A pass that starts nothing leaves everything counted right. -/
lemma BacksOff.counts (h : BacksOff l n) (hp : p.steady k l n)
    (hact : (l.decision k p).action ≠ .spawn)
    (hstands : Standing (l.pass k p) (Attempts.note k l p n)) :
    BacksOff (l.pass k p) (Attempts.note k l p n) := by
  have hclock := hp.clock
  have harms := RelayMachine.step_arms (m := l.machine) (i := (l.childExits p.exited).input k p)
  have hspawns : (Attempts.note k l p n).spawns = n.spawns ∧
      (Attempts.note k l p n).clock = p.nowMs ∧
      ((Attempts.note k l p n).wait = 0 ∨ kBackoffFirstMs ≤ (Attempts.note k l p n).wait) := by
    cases hfind : Attempts.finds k l p n with
    | false =>
        rw [note_quiet hact hfind]
        exact ⟨rfl, rfl, h.waited⟩
    | true =>
        rw [note_found hact hfind]
        refine ⟨rfl, rfl, Or.inr ?_⟩
        have hwaited := h.waited
        simp only [Attempts.fail, kBackoffFirstMs, kBackoffMaxMs] at *
        split_ifs <;> omega
  have hbackoff : ((l.pass k p).machine.backoffMs = 0 ∨
      kBackoffFirstMs ≤ (l.pass k p).machine.backoffMs) ∧
      (l.pass k p).machine.backoffMs ≤ kBackoffMaxMs := by
    rcases RelayLoop.pass_cases (k := k) (l := l) hp.unedited with ⟨-, hm, -⟩ | ⟨-, hm, -⟩
    · have hexit := exit_arms (l.machine.step ((l.childExits p.exited).input k p)).1 p.nowMs 0
        (harms.backoff ▸ h.armed) (harms.backoff ▸ h.bounded)
      rw [hm]
      exact ⟨Or.inr hexit.2.1, hexit.2.2.1⟩
    · rw [hm, harms.backoff]
      exact ⟨h.armed, h.bounded⟩
  refine ⟨?_, ?_, hbackoff.1, hbackoff.2, hspawns.2.2, hstands⟩
  · rw [hspawns.1, hspawns.2.1]
    exact fun s hs => (h.spawns s hs).trans hclock
  · rw [hspawns.1]
    exact h.last

/-- No child, and none started. -/
lemma BacksOff.stays_idle (h : BacksOff l n) (hp : p.steady k l n) (hchild : l.child = none)
    (hretry : n.Allows l.machine.retryAtMs ∨ n.Allows n.clock)
    (hwait : n.failed = true → n.wait ≤ l.machine.backoffMs)
    (hact : (l.decision k p).action ≠ .spawn) :
    Standing (l.pass k p) (Attempts.note k l p n) := by
  obtain ⟨hdecision, hwants, -, halive⟩ := hp.input
  have harms := RelayMachine.step_arms (m := l.machine) (i := (l.childExits p.exited).input k p)
  have hdead : ((l.childExits p.exited).input k p).childAlive = false := by
    by_contra hrun
    have hl := (halive.mp (by simpa using hrun)).1
    simp [hchild] at hl
  have hnone : (l.machine.step ((l.childExits p.exited).input k p)).2.action = .none :=
    (RelayMachine.step_rests hwants hdead).resolve_left (hdecision ▸ hact)
  have hthen : l.childThen k p = none := by
    rw [RelayLoop.childThen, hdecision, hnone]
    simp [hchild]
  have hfind : Attempts.finds k l p n = false := by simp [Attempts.finds, hchild]
  rw [note_quiet hact hfind]
  rcases RelayLoop.pass_cases (k := k) (l := l) hp.unedited with ⟨⟨hc, -⟩, -, -⟩ | ⟨-, hm, hc⟩
  · simp [hthen] at hc
  · refine .idle (by rw [hc, hthen]) ?_ ?_
    · rcases hretry with hretry | hretry
      · left
        rw [hm, harms.retry.resolve_right (by simp [hnone])]
        exact hretry
      · exact Or.inr (hretry.mono hp.clock)
    · rw [hm, harms.backoff]
      exact hwait

/-- A child that runs: it runs on, or is killed. -/
lemma BacksOff.goes_on (h : BacksOff l n) (hp : p.steady k l n) {s : ℤ}
    (halive : ((l.childExits p.exited).input k p).childAlive = true)
    (hstate : l.machine.connected = true ∨ l.machine.state = .ending) (hgoing : n.failed = false)
    (hspawn : n.spawns.head? = some s) (hsince : s ≤ l.machine.streamingSinceMs)
    (hwait : n.wait ≤ l.machine.backoffMs) (hact : (l.decision k p).action ≠ .spawn) :
    Standing (l.pass k p) (Attempts.note k l p n) := by
  obtain ⟨hdecision, hwants, hnow, hiff⟩ := hp.input
  have harms := RelayMachine.step_arms (m := l.machine) (i := (l.childExits p.exited).input k p)
  obtain ⟨hl, hexited⟩ := hiff.mp halive
  have hfind : Attempts.finds k l p n = false := by simp [Attempts.finds, halive]
  have hs : s ≤ p.nowMs := (h.spawns s (List.mem_of_mem_head? hspawn)).trans hp.clock
  have hkilled : (l.machine.step ((l.childExits p.exited).input k p)).2.action = .kill →
      l.childThen k p = none := by
    intro hkill
    rw [RelayLoop.childThen, hdecision, hkill]
    simp
  rw [note_quiet hact hfind]
  cases hplan : ((l.childExits p.exited).input k p).planOk with
  | false =>
      -- unsendable: killed, a second after the start at the earliest
      have hkill := (RelayMachine.step_unsendable (m := l.machine) hwants hplan).2
      rw [if_pos halive] at hkill
      obtain ⟨-, hlate⟩ := hp.sendable (by simp [hl]) hplan
      rcases RelayLoop.pass_cases (k := k) (l := l) hp.unedited with ⟨⟨hc, -⟩, -, -⟩ | ⟨-, -, hc⟩
      · simp [hkilled hkill] at hc
      · exact .idle (by rw [hc, hkilled hkill])
          (Or.inr ⟨hlate, by simp [hgoing]⟩) (by simp [hgoing])
  | true =>
      rcases RelayMachine.step_alive hwants hplan halive hstate with
        ⟨hkill, hretry⟩ | ⟨hnot, -, hup⟩
      · rcases RelayLoop.pass_cases (k := k) (l := l) hp.unedited with
          ⟨⟨hc, -⟩, -, -⟩ | ⟨-, hm, hc⟩
        · simp [hkilled hkill] at hc
        · refine .idle (by rw [hc, hkilled hkill]) (Or.inl ⟨fun s' hs' => ?_, by simp [hgoing]⟩)
            (by simp [hgoing])
          have hle := (h.spawns s' hs').trans hp.clock
          rw [hm, hretry, hnow]
          simpa using hle
      · rcases RelayLoop.pass_cases (k := k) (l := l) hp.unedited with
          ⟨⟨-, hs'⟩, -, -⟩ | ⟨-, hm, hc⟩
        · rcases hup with hup | hup
          · simp [RelayMachine.connected, hs'] at hup
          · simp [hs'] at hup
        · refine .up s ?_ (hm ▸ hup) hgoing hspawn ?_ ?_
          · rw [hc, RelayLoop.childThen, if_neg hact, hdecision, if_neg hnot, hl]
            rfl
          · rw [hm]
            rcases harms.since with hsame | hlater
            · exact hsame ▸ hsince
            · rw [hlater, hnow]
              exact hs
          · rw [hm, harms.backoff]
            exact hwait

/-- A child that is gone stays, until its exit is reported. -/
lemma childThen_gone (hp : p.steady k l n) (hchild : l.child.isSome = true)
    (hdead : ((l.childExits p.exited).input k p).childAlive = false)
    (hact : (l.decision k p).action ≠ .spawn) :
    (l.machine.step ((l.childExits p.exited).input k p)).2.action = .none ∧
      l.childThen k p = some false := by
  obtain ⟨hdecision, hwants, -, halive⟩ := hp.input
  have hnone : (l.machine.step ((l.childExits p.exited).input k p)).2.action = .none :=
    (RelayMachine.step_rests hwants hdead).resolve_left (hdecision ▸ hact)
  refine ⟨hnone, ?_⟩
  obtain ⟨alive, hl⟩ := Option.isSome_iff_exists.mp hchild
  have hnot : ¬(l.child = some true ∧ p.exited = false) := by
    rw [← halive, hdead]
    simp
  rw [RelayLoop.childThen, hdecision, hnone, hl]
  cases alive with
  | false => simp
  | true =>
      have hexited : p.exited = true := by
        by_contra he
        exact hnot ⟨hl, by simpa using he⟩
      simp [hexited]

/-- A child that is found gone: its exit is reported, or it was closed, or it had been up for
long. -/
lemma BacksOff.gone (h : BacksOff l n) (hp : p.steady k l n) {s : ℤ}
    (hchild : l.child.isSome = true)
    (hdead : ((l.childExits p.exited).input k p).childAlive = false)
    (hstate : l.machine.connected = true ∨ l.machine.state = .ending) (hgoing : n.failed = false)
    (hspawn : n.spawns.head? = some s) (hsince : s ≤ l.machine.streamingSinceMs)
    (hwait : n.wait ≤ l.machine.backoffMs) (hact : (l.decision k p).action ≠ .spawn) :
    Standing (l.pass k p) (Attempts.note k l p n) := by
  obtain ⟨-, hwants, hnow, -⟩ := hp.input
  obtain ⟨hnone, hthen⟩ := childThen_gone hp hchild hdead hact
  have harms := RelayMachine.step_arms (m := l.machine) (i := (l.childExits p.exited).input k p)
  have hfinds := finds_eq (k := k) (p := p) hchild hgoing hdead
  have hclock := hp.clock
  have hspawns : ∀ s' ∈ n.spawns, s' ≤ p.nowMs := fun s' hs' => (h.spawns s' hs').trans hclock
  -- an exit that is not of a failed attempt is found long after the start
  have hlong : n.young p.nowMs = false → ({ n with clock := p.nowMs } : Attempts).Old :=
    fun hy => ⟨s, hspawn, not_young_old hspawn hy⟩
  have hallows : n.young p.nowMs = false → n.Allows p.nowMs := by
    intro hy
    have hold := not_young_old hspawn hy
    refine h.allows_old hgoing hspawn ?_
    simp only [kBackoffFirstMs, kBackoffResetAfterMs] at *
    omega
  cases hplan : ((l.childExits p.exited).input k p).planOk with
  | false =>
      have hfind : Attempts.finds k l p n = false := by
        by_contra hf
        have hsend := (hp.found (by simpa using hf)).1
        simp [hplan] at hsend
      have hblocked := (RelayMachine.step_unsendable (m := l.machine) hwants hplan).1
      rw [note_quiet hact hfind]
      rcases RelayLoop.pass_cases (k := k) (l := l) hp.unedited with ⟨⟨-, hs'⟩, -, -⟩ | ⟨-, hm, hc⟩
      · simp [hblocked] at hs'
      · refine .unreported (hc.trans hthen) ?_ hgoing (hlong (hfinds ▸ hfind))
        rw [hm]
        simp [RelayMachine.pausing, RelayMachine.connected, RelayMachine.finishing, hblocked]
  | true =>
      obtain ⟨hconnected, hending, -, -⟩ := RelayMachine.step_dead (m := l.machine) hwants hplan hdead
      rcases hstate with hstate | hstate
      · -- the connection dropped, which is reported
        have hreconnecting := (hconnected hstate).1
        rcases RelayLoop.pass_cases (k := k) (l := l) hp.unedited with ⟨-, hm, hc⟩ | ⟨hnot, -, -⟩
        · obtain ⟨hretry, hfirst, -, hdoubled⟩ := exit_arms
            (l.machine.step ((l.childExits p.exited).input k p)).1 p.nowMs n.wait
            (harms.backoff ▸ h.armed) (harms.backoff ▸ h.bounded)
          cases hfind : Attempts.finds k l p n with
          | false =>
              rw [note_quiet hact hfind]
              exact .idle hc (Or.inr (hallows (hfinds ▸ hfind))) (by simp [hgoing])
          | true =>
              have hyoung : p.nowMs - s ≤ kBackoffResetAfterMs := by
                rw [hfinds, Attempts.young, hspawn, Option.any_some, decide_eq_true_eq] at hfind
                exact hfind
              have hs : s ≤ p.nowMs := hspawns s (List.mem_of_mem_head? hspawn)
              have hle := hdoubled (by
                rcases harms.since with hsame | hlater
                · rw [hsame]
                  omega
                · rw [hlater, hnow]
                  simp [kBackoffResetAfterMs]) (harms.backoff ▸ hwait)
              rw [note_found hact hfind]
              refine .idle hc (Or.inl ⟨fun s' hs' => ?_, fun _ => ?_⟩) (fun _ => ?_)
              · have hle' := hspawns s' hs'
                rw [hm, hretry]
                omega
              · rw [hm, hretry]
                exact (add_le_add_iff_left _).mpr hle
              · rw [hm]
                exact hle
        · exact absurd ⟨hthen, hreconnecting⟩ hnot
      · -- what was closing is done, or waits for the room
        obtain ⟨-, hafter⟩ := hending hstate
        rcases RelayLoop.pass_cases (k := k) (l := l) hp.unedited with ⟨⟨-, hs'⟩, -, -⟩ | ⟨-, hm, hc⟩
        · rw [hafter] at hs'
          split at hs' <;> simp at hs'
        · cases hfind : Attempts.finds k l p n with
          | false =>
              rw [note_quiet hact hfind]
              split at hafter
              · exact .closed (hc.trans hthen) (hm ▸ hafter) (Or.inr (hlong (hfinds ▸ hfind)))
              · refine .unreported (hc.trans hthen) ?_ hgoing (hlong (hfinds ▸ hfind))
                rw [hm]
                simp [RelayMachine.pausing, RelayMachine.connected, RelayMachine.finishing, hafter]
          | true =>
              have hcontent := (hp.found hfind).2.resolve_left (by
                simp [RelayMachine.connected, hstate])
              rw [if_pos hcontent.2] at hafter
              rw [note_found hact hfind]
              exact .closed (hc.trans hthen) (hm ▸ hafter) (Or.inl rfl)

/-- A child known to be gone. -/
lemma dead_of_gone (hp : p.steady k l n) (hchild : l.child = some false) :
    ((l.childExits p.exited).input k p).childAlive = false := by
  obtain ⟨-, -, -, halive⟩ := hp.input
  by_contra hrun
  have hl := (halive.mp (by simpa using hrun)).1
  simp [hchild] at hl

/-- What was closed stays so, unless the feed becomes unsendable. -/
lemma stays_closed (hp : p.steady k l n) (hchild : l.child = some false)
    (hstate : l.machine.state = .stopped) (hover : n.failed = true ∨ n.Old)
    (hact : (l.decision k p).action ≠ .spawn) :
    Standing (l.pass k p) (Attempts.note k l p n) := by
  obtain ⟨-, hwants, -, -⟩ := hp.input
  have hdead := dead_of_gone hp hchild
  obtain ⟨-, hthen⟩ := childThen_gone hp (by simp [hchild]) hdead hact
  have hfind : Attempts.finds k l p n = false := by
    rcases hover with hf | hf
    · simp [Attempts.finds, hf]
    · simp [Attempts.finds, old_not_young hf hp.clock]
  have hover' : n.failed = true ∨ ({ n with clock := p.nowMs } : Attempts).Old := by
    refine hover.imp_right fun hold => ?_
    obtain ⟨s, hs, hlong⟩ := hold
    exact ⟨s, hs, hlong.trans_le hp.clock⟩
  rw [note_quiet hact hfind]
  cases hplan : ((l.childExits p.exited).input k p).planOk with
  | false =>
      have hblocked := (RelayMachine.step_unsendable (m := l.machine) hwants hplan).1
      have hgoing := (hp.sendable (by simp [hchild]) hplan).1
      rcases RelayLoop.pass_cases (k := k) (l := l) hp.unedited with ⟨⟨-, hs⟩, -, -⟩ | ⟨-, hm, hc⟩
      · simp [hblocked] at hs
      · refine .unreported (hc.trans hthen) ?_ hgoing (hover'.resolve_left (by simp [hgoing]))
        rw [hm]
        simp [RelayMachine.pausing, RelayMachine.connected, RelayMachine.finishing, hblocked]
  | true =>
      have hstays := ((RelayMachine.step_dead (m := l.machine) hwants hplan hdead).2.2.1 hstate).1
      rcases RelayLoop.pass_cases (k := k) (l := l) hp.unedited with ⟨⟨-, hs⟩, -, -⟩ | ⟨-, hm, hc⟩
      · simp [hstays] at hs
      · exact .closed (hc.trans hthen) (hm ▸ hstays) hover'

/-- What was not reported is reported late, or waits for its turn. -/
lemma BacksOff.stays_unreported (h : BacksOff l n) (hp : p.steady k l n)
    (hchild : l.child = some false) (hstate : l.machine.pausing = true) (hgoing : n.failed = false)
    (hold : n.Old) (hact : (l.decision k p).action ≠ .spawn) :
    Standing (l.pass k p) (Attempts.note k l p n) := by
  obtain ⟨hdecision, hwants, -, -⟩ := hp.input
  have hdead := dead_of_gone hp hchild
  obtain ⟨-, hthen⟩ := childThen_gone hp (by simp [hchild]) hdead hact
  have hfind : Attempts.finds k l p n = false := by
    simp [Attempts.finds, old_not_young hold hp.clock]
  have hpausing : (l.machine.step ((l.childExits p.exited).input k p)).1.pausing = true := by
    cases hplan : ((l.childExits p.exited).input k p).planOk with
    | false =>
        have hblocked := (RelayMachine.step_unsendable (m := l.machine) hwants hplan).1
        simp [RelayMachine.pausing, RelayMachine.connected, RelayMachine.finishing, hblocked]
    | true =>
        have hpause := (RelayMachine.step_dead (m := l.machine) hwants hplan hdead).2.2.2 hstate
        exact (hpause.resolve_left (hdecision ▸ hact)).2
  obtain ⟨s, hs, hlong⟩ := hold
  have hclock := hp.clock
  rw [note_quiet hact hfind]
  rcases RelayLoop.pass_cases (k := k) (l := l) hp.unedited with ⟨-, -, hc⟩ | ⟨-, hm, hc⟩
  · refine .idle hc (Or.inr (h.allows_old hgoing hs ?_)) (by simp [hgoing])
    simp only [kBackoffFirstMs, kBackoffResetAfterMs] at *
    omega
  · exact .unreported (hc.trans hthen) (hm ▸ hpausing) hgoing ⟨s, hs, hlong.trans_le hclock⟩

/-- **A pass backs off.** -/
lemma BacksOff.pass (h : BacksOff l n) (hp : p.steady k l n) :
    BacksOff (l.pass k p) (Attempts.note k l p n) := by
  by_cases hact : (l.decision k p).action = .spawn
  · obtain ⟨hdecision, -, -, -⟩ := hp.input
    have hspawn := RelayMachine.step_spawns (hdecision ▸ hact)
    cases h.standing with
    | idle hchild _ hwait =>
        exact h.spawned hp hact (by simp [Attempts.finds, hchild]) hwait
    | up _ _ hstate =>
        have hgoes := hspawn.goes
        have hconn := hspawn.unconnected
        rcases hstate with hstate | hstate
        · simp [hconn] at hstate
        · simp [RelayMachine.finishing, hstate] at hgoes
    | closed _ hstate =>
        have hgoes := hspawn.goes
        simp [RelayMachine.finishing, hstate] at hgoes
    | unreported _ _ hgoing hold =>
        refine h.spawned hp hact ?_ (by simp [hgoing])
        simp [Attempts.finds, old_not_young hold hp.clock]
  · refine h.counts hp hact ?_
    cases h.standing with
    | idle hchild hretry hwait => exact h.stays_idle hp hchild hretry hwait hact
    | up s hchild hstate hgoing hspawn hsince hwait =>
        cases halive : ((l.childExits p.exited).input k p).childAlive with
        | true => exact h.goes_on hp halive hstate hgoing hspawn hsince hwait hact
        | false => exact h.gone hp hchild halive hstate hgoing hspawn hsince hwait hact
    | closed hchild hstate hover => exact stays_closed hp hchild hstate hover hact
    | unreported hchild hstate hgoing hold =>
        exact h.stays_unreported hp hchild hstate hgoing hold hact

end Passes

/-- **Reconnection backs off.**  In every run of the loop whose passes are steady, a child is
started a second or more after each one before it, and, after attempts that failed in a row, no
sooner after the last was found than the wait that they require, which doubles from one to the
next up to the longest; and the backoff is never longer than that. -/
theorem spawn_backoff (k : RelayTask) (t : ℤ) {x : RelayLoop × Attempts}
    (hx : Lib.Reach (Lib.noted (fun l p => some (l.pass k p)) (Attempts.note k))
      (fun x p => p.steady k x.1 x.2) (· = ({}, { clock := t })) x)
    {p : RelayPass} (hp : p.steady k x.1 x.2) (hact : (x.1.decision k p).action = .spawn) :
    (∀ s ∈ x.2.spawns, s + kBackoffFirstMs ≤ p.nowMs) ∧
      (x.2.failed = true → x.2.failedAt + x.2.wait ≤ p.nowMs) ∧
      x.1.machine.backoffMs ≤ kBackoffMaxMs := by
  have h : BacksOff x.1 x.2 := by
    refine Lib.Reach.invariant (I := fun x => BacksOff x.1 x.2) ?_ ?_ hx
    · rintro _ rfl
      refine ⟨by simp, by simp, Or.inl rfl, by simp [kBackoffMaxMs], Or.inl rfl, ?_⟩
      exact .idle rfl (Or.inr ⟨by simp, by simp⟩) (by simp)
    · rintro x p y h hp hy
      obtain ⟨hstep, hn⟩ := Lib.noted_eq_some.mp hy
      rw [hn, ← Option.some.inj hstep]
      exact h.pass hp
  obtain ⟨hapart, hwaited⟩ := h.allows hp hact
  exact ⟨hapart, hwaited, h.bounded⟩

/-- A pass on a live event, of which the cache holds two segments. -/
def tryPass (nowMs : ℤ) (exited starts : Bool) : RelayPass :=
  { nowMs, exited, starts, cached := {0, 1}
    snap := { room := .live, eventId := "e1", haveEventInfo := true } }

/-- A child that is started, exits, and is started again a second after that was found. -/
theorem spawn_backoff_again :
    ∃ x, Lib.Reach (Lib.noted (fun l p => some (RelayLoop.pass {} p l)) (Attempts.note {}))
        (fun x p => p.steady {} x.1 x.2) (· = ({}, { clock := 0 })) x ∧
      x.2.spawns = [0] ∧ x.2.failedAt = 100 ∧ x.2.wait = 1000 ∧
      x.2.failedAt + x.2.wait ≤ (tryPass 1100 false true).nowMs := by
  obtain ⟨x, hx, hp, hact, hfailed, hspawns, hfailedAt, hwait⟩ : ∃ x : RelayLoop × Attempts,
      Lib.Reach (Lib.noted (fun l p => some (RelayLoop.pass {} p l)) (Attempts.note {}))
        (fun x p => p.steady {} x.1 x.2) (· = ({}, { clock := 0 })) x ∧
      (tryPass 1100 false true).steady {} x.1 x.2 ∧
      (x.1.decision {} (tryPass 1100 false true)).action = .spawn ∧ x.2.failed = true ∧
      x.2.spawns = [0] ∧ x.2.failedAt = 100 ∧ x.2.wait = 1000 := by
    refine Lib.exists_reach_guarded (({} : RelayLoop), ({ clock := 0 } : Attempts))
      [tryPass 0 false true, tryPass 50 false true, tryPass 100 true true, tryPass 600 false true]
      rfl ?_
    decide +kernel
  exact ⟨x, hx, hspawns, hfailedAt, hwait, (spawn_backoff {} 0 hx hp hact).2.1 hfailed⟩

/-- **A start that fails backs off from nothing**: two passes later the child is started again,
and again two passes after that. -/
theorem start_fails_twice :
    ∃ x, Lib.Reach (Lib.noted (fun l p => some (RelayLoop.pass {} p l)) (Attempts.note {}))
        (fun x p => p.edited = false ∧ p.enabled = true ∧ x.2.clock ≤ p.nowMs)
        (· = ({}, { clock := 0 })) x ∧
      x.2.spawns = [200, 100, 0] ∧ x.2.wait = 4000 := by
  refine Lib.exists_reach_guarded (({} : RelayLoop), ({ clock := 0 } : Attempts))
    [tryPass 0 false false, tryPass 50 false false, tryPass 100 false false,
      tryPass 150 false false, tryPass 200 false false] rfl ?_
  decide +kernel

end Multisite

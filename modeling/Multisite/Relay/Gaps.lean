import Multisite.Lib.Progress
import Multisite.Relay.Backoff
import Multisite.Relay.Continuity

/-!
A relay at a gap (`RelaySession::run`, `RelayMachine::step`).

The loop asks the cache for the segment at the position; nothing but a feed, or the floor,
moves the position on.

* `Going`: where a destination that can be served stands between two passes;
* `RelayServing`: a run that can serve an event with gaps;
* `position_waits`: the position is never past a segment that is never in the cache;
* `goes`: the destination is not closed before the position is past the end.
-/

namespace Multisite

/-! ### Passes that can serve -/

/-- The destination is on and unedited and calls out, the feed can be sent, and the room has
content. -/
structure RelayPass.Serves (p : RelayPass) : Prop where
  enabled : p.enabled = true
  unedited : p.edited = false
  info : p.snap.haveEventInfo = true
  plan : p.planOk = true
  content : p.snap.room = .live ∨ p.snap.room = .ended ∨ p.snap.room = .interrupted
  calls : p.listener = false

/-- A child runs only while it is fed, or its input is closed. -/
structure Going (l : RelayLoop) : Prop where
  sendable : l.machine.state ≠ .blocked
  calls : l.machine.state ≠ .awaiting
  runs : l.child = some true → l.machine.connected = true ∨ l.machine.state = .ending
  gone : l.child = some false → l.machine.connected = true ∨ l.machine.finishing = true

section Passes

variable {k : RelayTask} {p : RelayPass} {l : RelayLoop}

/-- What the machine is given. -/
lemma RelayPass.Serves.input (h : p.Serves) :
    l.decision k p = (l.machine.step ((l.childExits p.exited).input k p)).2 ∧
      ((l.childExits p.exited).input k p).operatorWantsRunning = true ∧
      ((l.childExits p.exited).input k p).planOk = true ∧
      ((l.childExits p.exited).input k p).roomHasContent = true ∧
      ((l.childExits p.exited).input k p).awaitsReceiver = false := by
  refine ⟨by simp [RelayLoop.decision, h.unedited], h.enabled, ?_, ?_, h.calls⟩
  · simp [RelayLoop.input, h.info, h.plan]
  · rcases h.content with hroom | hroom | hroom
    all_goals simp [RelayInput.roomHasContent, RelayLoop.input, hroom]

end Passes

namespace RelayMachine

variable {m : RelayMachine} {i : RelayInput}

/-- A destination that calls out never waits to be called, and one whose feed can be sent is
not blocked. -/
lemma step_serves (hwants : i.operatorWantsRunning = true) (hplan : i.planOk = true)
    (hcalls : i.awaitsReceiver = false) (hsend : m.state ≠ .blocked) (hnot : m.state ≠ .awaiting) :
    (m.step i).1.state ≠ .blocked ∧ (m.step i).1.state ≠ .awaiting := by
  refine @step_rec m i (fun x => x.1.state ≠ .blocked ∧ x.1.state ≠ .awaiting) ?_ ?_ ?_ ?_ ?_ ?_
  · simp [hwants]
  · simp [hplan]
  · intro _ _ _ _
    simp
  · intro _ _ _ _
    rw [unblock_same hsend, noContent]
    split
    · simp
    · split
      · simp
      · exact ⟨hsend, hnot⟩
  · intro _ _ _ _ _ x hx
    rw [unblock_same hsend] at hx
    cases hx with
    | drained _ h => rw [h]; simp
    | stopped _ h => rw [h]; exact ⟨hsend, hnot⟩
    | backsOff _ _ h => rw [h]; exact ⟨hsend, hnot⟩
    | waits _ _ _ h =>
        rcases h with ⟨-, h⟩ | h
        · rw [h]
          exact ⟨hsend, hnot⟩
        · rw [h]
          simp
    | spawns _ _ _ _ h => rw [h]; simp
  · intro _ _ _ _ x hx
    rw [unblock_same hsend] at hx
    have haccepts : (m.accepting i).state = m.state := by
      rw [accepting, attach, if_neg hnot]
    have harrives : ((m.accepting i).arriving i {}).1.state = m.state ∨
        ((m.accepting i).arriving i {}).1.state = .streaming := by
      rcases (arriving_stays (m := m.accepting i) (i := i) (d := {})).2.2 with h | h
      · exact Or.inl (h.trans haccepts)
      · exact Or.inr h
    have hgoes : ∀ s : RelayState, s = m.state ∨ s = .streaming → s ≠ .blocked ∧ s ≠ .awaiting := by
      rintro s (rfl | rfl)
      · exact ⟨hsend, hnot⟩
      · simp
    cases hx with
    | closes _ _ h => rw [h]; simp
    | draining _ h => rw [h]; exact ⟨hsend, hnot⟩
    | awaits _ _ hfirst => simp [hcalls] at hfirst
    | backsUp _ _ _ _ h => rw [h]; exact ⟨hsend, hnot⟩
    | dropsDeaf _ _ _ _ h => rw [h]; simp
    | early _ _ h => rw [h]; exact hgoes _ harrives
    | starves _ _ _ _ _ h =>
        rcases h with h | h
        · rw [h]
          exact hgoes _ (Or.inl haccepts)
        · rw [h]
          simp
    | dropsStarved _ _ _ _ _ h => rw [h]; simp
    | feeds _ _ _ _ h => rw [h]; exact hgoes _ harrives

/-- With the backoff served and everything there, a pause ends in a start. -/
lemma step_starts (hwants : i.operatorWantsRunning = true) (hplan : i.planOk = true)
    (hcontent : i.roomHasContent = true) (hdead : i.childAlive = false) (hpause : m.pausing = true)
    (hlate : m.retryAtMs ≤ i.nowMs) (hinit : i.initReady = true)
    (hready : i.nextSegmentReady = true) : (m.step i).2.action = .spawn := by
  simp only [pausing, Bool.and_eq_true, Bool.not_eq_true'] at hpause
  refine @step_rec m i (fun x => x.2.action = .spawn) ?_ ?_ ?_ ?_ ?_ ?_
  · simp [hwants]
  · simp [hplan]
  · simp [hpause.1]
  · simp [hcontent]
  · intro _ _ _ _ _ x hx
    have hgoes : (m.unblock i).1.finishing = false := unblock_finishing.trans hpause.2
    obtain ⟨-, -, -, -, hretry, -⟩ := unblock_frame (m := m) (i := i)
    cases hx with
    | drained hs => simp [finishing, hs] at hgoes
    | stopped hs => simp [finishing, hs] at hgoes
    | backsOff _ hearly => omega
    | waits _ _ hnot => simp [hinit, hready] at hnot
    | spawns _ _ _ _ _ hact => exact hact
  · simp [hdead]

/-- With the far end taking content and the next segment there, it goes out when it is due. -/
lemma step_flows (hwants : i.operatorWantsRunning = true) (hplan : i.planOk = true)
    (hcontent : i.roomHasContent = true) (halive : i.childAlive = true) (hup : m.connected = true)
    (hnot : m.state ≠ .awaiting) (hopen : ¬m.Ends i) (htakes : i.outputAccepting = true)
    (hready : i.nextSegmentReady = true) :
    m.due i ≤ i.nowMs ∧ (m.step i).2.action = .feedSegment ∨
      i.nowMs < m.due i ∧ (m.step i).2.action = .none ∧ (m.step i).1.connected = true ∧
        (m.step i).1.anchorMs = m.anchorMs ∧ (m.step i).1.anchorSeq = m.anchorSeq := by
  refine @step_rec m i (fun x => m.due i ≤ i.nowMs ∧ x.2.action = .feedSegment ∨
    i.nowMs < m.due i ∧ x.2.action = .none ∧ x.1.connected = true ∧
      x.1.anchorMs = m.anchorMs ∧ x.1.anchorSeq = m.anchorSeq) ?_ ?_ ?_ ?_ ?_ ?_
  · simp [hwants]
  · simp [hplan]
  · simp [halive]
  · simp [hcontent]
  · simp [halive]
  · intro _ _ _ _ x hx
    rw [unblock_same (connected_sendable hup)] at hx
    have haccepts : m.accepting i = { m with backedUpSinceMs := 0 } := by
      rw [accepting, attach, if_neg hnot]
    have hdue : (m.accepting i).due i = m.due i := by rw [haccepts]; rfl
    have hgoes : m.state ≠ .ending := by
      intro hs
      simp [connected, hs] at hup
    cases hx with
    | closes _ hend => exact absurd hend hopen
    | draining hs => exact absurd hs hgoes
    | awaits _ hdeaf => simp [htakes] at hdeaf
    | backsUp _ hdeaf => simp [htakes] at hdeaf
    | dropsDeaf _ hdeaf => simp [htakes] at hdeaf
    | early _ hearly h hact =>
        have hanchor := arriving_anchor (m := m.accepting i) (i := i) (d := {})
        rw [haccepts] at hanchor
        refine Or.inr ⟨hdue ▸ hearly, hact, ?_, ?_, ?_⟩
        · rw [h, haccepts]
          simp only [arriving]
          split
          · rfl
          · exact hup
        · rw [h, haccepts, hanchor.1]
        · rw [h, haccepts, hanchor.2]
    | starves _ _ hno => simp [hready] at hno
    | dropsStarved _ _ hno => simp [hready] at hno
    | feeds _ _ hlate _ _ hact => exact Or.inl ⟨hdue ▸ hlate, hact⟩

end RelayMachine

section Passes

variable {k : RelayTask} {p : RelayPass} {l : RelayLoop}

lemma finishing_iff {m : RelayMachine} :
    m.finishing = true ↔ m.state = .ending ∨ m.state = .stopped := by
  simp [RelayMachine.finishing]

/-- **Between two passes** a child runs only while it is fed, or its input is closed. -/
lemma Going.pass (h : Going l) (hp : p.Serves) : Going (l.pass k p) := by
  obtain ⟨hdecision, hwants, hplan, hcontent, hcalls⟩ := hp.input (k := k) (l := l)
  have hserves := RelayMachine.step_serves hwants hplan hcalls h.sendable h.calls
  rcases RelayLoop.pass_cases (k := k) (l := l) hp.unedited with ⟨-, hm, hc⟩ | ⟨hnot, hm, hc⟩
  · have hstate : (l.pass k p).machine.state =
        (l.machine.step ((l.childExits p.exited).input k p)).1.state := by
      rw [hm]
      simp [RelayMachine.noteChildExited]
    exact ⟨hstate ▸ hserves.1, hstate ▸ hserves.2, by simp [hc], by simp [hc]⟩
  · have hchild : l.childThen k p ≠ none →
        (l.machine.step ((l.childExits p.exited).input k p)).1.connected = true ∨
        (l.machine.step ((l.childExits p.exited).input k p)).1.state = .ending ∨
        (l.machine.step ((l.childExits p.exited).input k p)).1.state = .stopped ∧
          l.childThen k p ≠ some true := by
      intro hthen
      by_cases hspawn : (l.decision k p).action = .spawn
      · have hspawned := RelayMachine.step_spawns (hdecision ▸ hspawn)
        simp [RelayMachine.connected, hspawned.state]
      cases halive : ((l.childExits p.exited).input k p).childAlive with
      | true =>
          obtain ⟨hl, -⟩ := RelayLoop.childAlive_iff.mp halive
          rcases RelayMachine.step_alive hwants hplan halive (h.runs hl) with
            ⟨hkill, -⟩ | ⟨-, -, hup⟩
          · simp [RelayLoop.childThen, hdecision, hkill] at hthen
          · exact hup.imp_right Or.inl
      | false =>
          obtain ⟨hconnected, hending, hstopped, -⟩ :=
            RelayMachine.step_dead (m := l.machine) hwants hplan halive
          have hnone := (RelayMachine.step_rests (m := l.machine) hwants halive).resolve_left
            (hdecision ▸ hspawn)
          obtain ⟨alive, hl⟩ : ∃ alive, l.child = some alive := by
            cases hl : l.child with
            | none => simp [RelayLoop.childThen, hdecision, hnone, hl] at hthen
            | some alive => exact ⟨alive, rfl⟩
          have hfalse : l.childThen k p = some false := by
            have hnot : ¬(l.child = some true ∧ p.exited = false) := by
              rw [← RelayLoop.childAlive_iff (k := k), halive]
              simp
            rw [RelayLoop.childThen, hdecision, hnone, hl]
            cases alive with
            | false => simp
            | true => simp [hl] at hnot; simp [hnot]
          have hstate : l.machine.connected = true ∨ l.machine.finishing = true := by
            cases alive with
            | false => exact h.gone hl
            | true => exact (h.runs hl).imp_right fun hs => finishing_iff.mpr (Or.inl hs)
          rcases hstate with hstate | hstate
          · exact absurd ⟨hfalse, (hconnected hstate).1⟩ hnot
          · rcases finishing_iff.mp hstate with hs | hs
            · have hafter := (hending hs).2
              rw [if_pos hcontent] at hafter
              exact Or.inr (Or.inr ⟨hafter, by simp [hfalse]⟩)
            · exact Or.inr (Or.inr ⟨(hstopped hs).1, by simp [hfalse]⟩)
    refine ⟨hm ▸ hserves.1, hm ▸ hserves.2, fun hrun => ?_, fun hgone => ?_⟩
    · rw [hm]
      rcases hchild (by simp [← hc, hrun]) with hup | hup | ⟨-, hup⟩
      · exact Or.inl hup
      · exact Or.inr hup
      · exact absurd (hc ▸ hrun) hup
    · rw [hm, finishing_iff]
      rcases hchild (by simp [← hc, hgone]) with hup | hup | ⟨hup, -⟩
      · exact Or.inl hup
      · exact Or.inr (Or.inl hup)
      · exact Or.inr (Or.inr hup)

/-- A segment is fed, and the position moves on; or the position stays. -/
lemma Going.place (h : Going l) (hp : p.Serves) (hset : l.machine.headSet = true)
    (hfloor : p.snap.firstAvailableSeq ≤ l.machine.head) :
    (l.pass k p).machine.headSet = true ∧
      ((l.decision k p).action = .feedSegment ∧ (l.decision k p).seq = l.machine.head ∧
          l.machine.head ∈ p.cached ∧ (l.pass k p).machine.head = l.machine.head + 1 ∨
        (l.decision k p).action ≠ .feedSegment ∧ (l.pass k p).machine.head = l.machine.head) := by
  obtain ⟨hdecision, hwants, -, -, hcalls⟩ := hp.input (k := k) (l := l)
  obtain ⟨hhead, hplaced⟩ := RelayLoop.pass_place (k := k) (l := l) hp.unedited
  rw [hhead, hplaced, hdecision]
  by_cases hact : (l.machine.step ((l.childExits p.exited).input k p)).2.action = .feedSegment
  · have hfed := RelayMachine.step_feeds hact
    refine ⟨hfed.headSet.trans hset, Or.inl ⟨hact, hfed.seq, ?_, hfed.head⟩⟩
    exact of_decide_eq_true hfed.ready
  · have hplace := RelayMachine.step_place hwants (by simp [RelayMachine.repositions, hcalls]) hact
    refine ⟨hplace.headSet.trans (by simp [hset]), Or.inr ⟨hact, hplace.head.trans ?_⟩⟩
    split
    · rw [RelayMachine.takePosition, if_pos hset]
      exact max_eq_left hfloor
    · rfl

/-- The destination is closed only where the position is past the end. -/
lemma Going.closes (h : Going l) (hp : p.Serves) (hgoes : l.machine.finishing = false)
    (hopen : ¬l.machine.Ends ((l.childExits p.exited).input k p)) :
    (l.pass k p).machine.finishing = false := by
  obtain ⟨-, hwants, hplan, hcontent, -⟩ := hp.input (k := k) (l := l)
  have hs := RelayMachine.stepped_step hwants hplan h.sendable
  have hsame : (l.pass k p).machine.finishing =
      (l.machine.step ((l.childExits p.exited).input k p)).1.finishing := by
    rw [RelayMachine.finishing, RelayMachine.finishing, RelayLoop.pass_state hp.unedited]
  rw [hsame]
  cases hs with
  | stays hstay _ =>
      rcases hstay.state with hs | ⟨hs, -⟩
      · rw [RelayMachine.finishing, hs]
        exact hgoes
      · exact hs
  | kills _ _ hs _ => exact hs
  | gone hno => simp [hcontent] at hno
  | drained hs => simp [RelayMachine.finishing, hs] at hgoes
  | takes _ _ hs => exact hs.1
  | closes _ _ hend => exact absurd hend hopen
  | awaits hs => simp [RelayMachine.finishing, hs]
  | feeds _ hs =>
      rcases hs with hs | hs
      · rw [RelayMachine.finishing, hs]
        exact hgoes
      · simp [RelayMachine.finishing, hs]

end Passes

/-! ### Runs -/

/-- The loop after `n` passes. -/
def relayRun (k : RelayTask) (env : ℕ → RelayPass) (n : ℕ) : RelayLoop :=
  Lib.trace (fun p l => l.pass k p) env {} n

/-- The position the first pass takes up. -/
def relayStart (k : RelayTask) (env : ℕ → RelayPass) : ℕ :=
  (({} : RelayMachine).takePosition (({} : RelayLoop).input k (env 0))).head

/-- Pass `n` feeds this segment. -/
def Feeds (k : RelayTask) (env : ℕ → RelayPass) (n q : ℕ) : Prop :=
  ((relayRun k env n).decision k (env n)).action = .feedSegment ∧
    ((relayRun k env n).decision k (env n)).seq = q

/-- The segment is no later than the out-point, if there is one, and the last of an event that
ends. -/
def RelayTask.Within (k : RelayTask) (last : Option ℕ) (q : ℕ) : Prop :=
  (0 < k.endSeq → q ≤ k.endSeq) ∧ ∀ z ∈ last, q ≤ z

/-- **A run that can serve**: an event whose segments are all but these `gaps`, through `last` if
it ends.  Segments have one length; the floor stays at or below the start; an event found over
is found with its last segment; no gap is ever in the cache, and every other segment comes to
it and stays until the position has passed it.  The clock goes on, and from some pass on a child
that is started comes up and stays, and takes what is queued for it. -/
structure RelayServing (k : RelayTask) (gaps : Set ℕ) (last : Option ℕ) (segS : ℚ)
    (env : ℕ → RelayPass) : Prop where
  serves : ∀ n, (env n).Serves
  pace : ∀ n, (env n).snap.segmentDurationS = segS
  floor : ∀ n, (env n).snap.firstAvailableSeq ≤ relayStart k env
  ended : ∀ n, (env n).snap.room = .ended ∨ (env n).snap.room = .interrupted →
    last = some (env n).snap.latestSeq
  missing : ∀ g ∈ gaps, ∀ n, g ∉ (env n).cached
  cached : ∀ q, relayStart k env ≤ q → q ∉ gaps → (∀ z ∈ last, q ≤ z) →
    ∃ N, ∀ n, N ≤ n → (relayRun k env n).machine.head ≤ q → q ∈ (env n).cached
  clock : ∀ (t : ℤ) (N : ℕ), ∃ n, N ≤ n ∧ t ≤ (env n).nowMs
  healthy : ∃ N, ∀ n, N ≤ n → (env n).starts = true ∧ (env n).exited = false ∧
    (env n).drops = false ∧ (env n).initCached = true ∧
    (relayRun k env n).pending + (env n).media.getD 0 ≤ (env n).took

section Runs

variable {k : RelayTask} {gaps : Set ℕ} {last : Option ℕ} {segS : ℚ} {env : ℕ → RelayPass}

lemma relayRun_succ (n : ℕ) : relayRun k env (n + 1) = (relayRun k env n).pass k (env n) := rfl

/-- Between two passes of the run. -/
lemma RelayServing.going (h : RelayServing k gaps last segS env) (n : ℕ) : Going (relayRun k env n) := by
  induction n with
  | zero => exact ⟨by simp [relayRun], by simp [relayRun], by simp [relayRun], by simp [relayRun]⟩
  | succ n ih => exact ih.pass (h.serves n)

/-- The first pass takes up the position. -/
lemma RelayServing.first (h : RelayServing k gaps last segS env) :
    (relayRun k env 1).machine.headSet = true ∧
      (relayRun k env 1).machine.head = relayStart k env := by
  have hp := h.serves 0
  obtain ⟨-, hwants, hplan, hcontent, hcalls⟩ := hp.input (k := k) (l := {})
  obtain ⟨hhead, hplaced⟩ := RelayLoop.pass_place (k := k) (l := {}) hp.unedited
  have hl : ((({} : RelayLoop).childExits (env 0).exited).input k (env 0)).childAlive = false := rfl
  have hresumes : ({} : RelayMachine).resumes
      ((({} : RelayLoop).childExits (env 0).exited).input k (env 0)) = true := by
    simp [RelayMachine.resumes, hwants, hplan, hcontent, hl, RelayMachine.connected,
      RelayMachine.finishing]
  have hact : (({} : RelayMachine).step
      ((({} : RelayLoop).childExits (env 0).exited).input k (env 0))).2.action ≠ .feedSegment := by
    intro hfeed
    have halive := (RelayMachine.step_feeds hfeed).alive
    simp [hl] at halive
  have hplace := RelayMachine.step_place hwants (by simp [RelayMachine.repositions, hcalls]) hact
  rw [hresumes] at hplace
  exact ⟨hplaced.trans hplace.headSet, hhead.trans hplace.head⟩

/-- The position from then on. -/
lemma RelayServing.position (h : RelayServing k gaps last segS env) (n : ℕ) :
    (relayRun k env (n + 1)).machine.headSet = true ∧
      relayStart k env ≤ (relayRun k env (n + 1)).machine.head := by
  induction n with
  | zero => exact ⟨h.first.1, h.first.2.ge⟩
  | succ n ih =>
      obtain ⟨hset, hcase⟩ := (h.going (n + 1)).place (k := k) (h.serves (n + 1)) ih.1
        ((h.floor (n + 1)).trans ih.2)
      rw [relayRun_succ]
      refine ⟨hset, ?_⟩
      rcases hcase with ⟨-, -, -, hhead⟩ | ⟨-, hhead⟩
      · omega
      · omega

/-- What a pass does to the position. -/
lemma RelayServing.moves (h : RelayServing k gaps last segS env) (n : ℕ) :
    Feeds k env (n + 1) (relayRun k env (n + 1)).machine.head ∧
        (relayRun k env (n + 1)).machine.head ∈ (env (n + 1)).cached ∧
        (relayRun k env (n + 1 + 1)).machine.head = (relayRun k env (n + 1)).machine.head + 1 ∨
      (∀ q, ¬Feeds k env (n + 1) q) ∧
        (relayRun k env (n + 1 + 1)).machine.head = (relayRun k env (n + 1)).machine.head := by
  obtain ⟨hset, hle⟩ := h.position n
  obtain ⟨-, ⟨hact, hseq, hcached, hhead⟩ | ⟨hact, hhead⟩⟩ := (h.going (n + 1)).place (k := k)
    (h.serves (n + 1)) hset ((h.floor (n + 1)).trans hle)
  · exact Or.inl ⟨⟨hact, hseq⟩, hcached, hhead⟩
  · exact Or.inr ⟨fun q hq => hact hq.1, hhead⟩

/-- The first pass feeds nothing. -/
lemma RelayServing.first_feeds_none (h : RelayServing k gaps last segS env) (q : ℕ) : ¬Feeds k env 0 q := by
  rintro ⟨hact, -⟩
  obtain ⟨hdecision, -⟩ := (h.serves 0).input (k := k) (l := relayRun k env 0)
  rw [hdecision] at hact
  have halive := (RelayLoop.childAlive_iff.mp (RelayMachine.step_feeds hact).alive).1
  simp [relayRun] at halive

/-- A segment that is fed is the one at the position, and in the cache. -/
lemma RelayServing.feeds (h : RelayServing k gaps last segS env) {n q : ℕ} (hfeeds : Feeds k env n q) :
    0 < n ∧ (relayRun k env n).machine.head = q ∧ q ∈ (env n).cached ∧
      (relayRun k env (n + 1)).machine.head = q + 1 := by
  cases n with
  | zero => exact absurd hfeeds (h.first_feeds_none q)
  | succ n =>
      rcases h.moves n with ⟨hfed, hcached, hhead⟩ | ⟨hnone, -⟩
      · have hq : (relayRun k env (n + 1)).machine.head = q := hfed.2.symm.trans hfeeds.2
        exact ⟨Nat.succ_pos n, hq, hq ▸ hcached, hq ▸ hhead⟩
      · exact absurd hfeeds (hnone q)

/-- The position does not go back. -/
lemma RelayServing.head_mono (h : RelayServing k gaps last segS env) {n n' : ℕ} (hn : 0 < n) (hle : n ≤ n') :
    (relayRun k env n).machine.head ≤ (relayRun k env n').machine.head := by
  induction n', hle using Nat.le_induction with
  | base => exact le_rfl
  | succ n' hn' ih =>
      obtain ⟨j, rfl⟩ : ∃ j, n' = j + 1 := ⟨n' - 1, by omega⟩
      rcases h.moves j with ⟨-, -, hhead⟩ | ⟨-, hhead⟩
      · omega
      · omega

/-- **The position waits** at a segment that never comes to the cache. -/
lemma RelayServing.position_waits (h : RelayServing k gaps last segS env) {g : ℕ} (hg : g ∈ gaps)
    (hstart : relayStart k env ≤ g) (n : ℕ) : (relayRun k env (n + 1)).machine.head ≤ g := by
  induction n with
  | zero => exact h.first.2.trans_le hstart
  | succ n ih =>
      rcases h.moves n with ⟨-, hcached, hhead⟩ | ⟨-, hhead⟩
      · have hne : (relayRun k env (n + 1)).machine.head ≠ g :=
          fun heq => h.missing g hg (n + 1) (heq ▸ hcached)
        omega
      · omega

/-- Nothing is past the end before the position is. -/
lemma RelayServing.not_past (h : RelayServing k gaps last segS env) {e n : ℕ} (he : k.Within last e)
    (hhead : (relayRun k env n).machine.head ≤ e) :
    ¬(relayRun k env n).machine.Ends
      (((relayRun k env n).childExits (env n).exited).input k (env n)) := by
  rintro (⟨hpos, hpast⟩ | ⟨hpast, hroom⟩)
  · have hle := he.1 hpos
    change k.endSeq < _ at hpast
    omega
  · have hle := he.2 _ (h.ended n hroom)
    change (env n).snap.latestSeq < _ at hpast
    omega

/-- The destination is not closed before the position is past the end. -/
lemma RelayServing.goes (h : RelayServing k gaps last segS env) {e : ℕ} (he : k.Within last e) (n : ℕ)
    (hhead : ∀ j ≤ n, (relayRun k env j).machine.head ≤ e) :
    (relayRun k env n).machine.finishing = false := by
  induction n with
  | zero => rfl
  | succ n ih =>
      exact (h.going n).closes (h.serves n) (ih fun j hj => hhead j (by omega))
        (h.not_past he (hhead n (by omega)))

end Runs

end Multisite

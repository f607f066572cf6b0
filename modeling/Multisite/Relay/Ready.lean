import Multisite.Relay.Loop

/-!
When a relay starts its child (`RelaySession::run`, `RelayMachine::step`).

The loop asks whether the next segment is in the cache before the step, of the position it has
then; the step takes the position up first.

* `spawn_ready`: where the step leaves the position it was asked of, or the segment at the new
  one is in the cache too, a child is started only when there is something to send it;
* `spawn_unready`: a destination switched on again is started on the word of the segment it had
  reached before.
-/

namespace Multisite

/-- A pass, with what is in the cache when the machine takes its step. -/
structure CachedPass extends RelayPass where
  held : Finset ℕ := cached
  initHeld : Bool := initCached
  deriving DecidableEq

/-- What holds where a child is started: the operator wants it, the plan succeeds, and the
opening data and the segment at the position are in the cache. -/
structure SpawnNote where
  wanted : Bool
  planOk : Bool
  initHeld : Bool
  segmentHeld : Bool
  deriving DecidableEq, Repr

/-- Everything is ready. -/
def SpawnNote.ready (s : SpawnNote) : Bool := s.wanted && s.planOk && s.initHeld && s.segmentHeld

namespace CachedPass

variable (k : RelayTask) (a : CachedPass) (l : RelayLoop)

/-- The position after the step of the pass. -/
def place : ℕ := (l.machine.step ((l.childExits a.exited).input k a.toRelayPass)).1.head

/-- The children started so far. -/
def note (l : RelayLoop) (a : CachedPass) (n : List SpawnNote) : List SpawnNote :=
  if (l.decision k a.toRelayPass).action = .spawn then
    { wanted := a.enabled
      planOk := a.snap.haveEventInfo && a.planOk
      initHeld := a.initHeld
      segmentHeld := decide (a.place k l ∈ a.held) } :: n
  else n

/-- The position the step would take up. -/
def taken : ℕ := (l.machine.takePosition ((l.childExits a.exited).input k a.toRelayPass)).head

/-- What the pass found in the cache stays there until the step, and the step would leave the
position that was asked of, or the segment at the one it takes up is there as well. -/
def settled : Prop :=
  (a.initCached = true → a.initHeld = true) ∧
    if a.taken k l = l.machine.head then l.machine.head ∈ a.cached → l.machine.head ∈ a.held
    else a.taken k l ∈ a.held

instance : Decidable (a.settled k l) := inferInstanceAs (Decidable (_ ∧ ite _ _ _))

variable {k a l}

/-- A child is started: all is ready exactly where the pass is settled. -/
lemma spawn_settled (hact : (l.decision k a.toRelayPass).action = .spawn) :
    a.enabled = true ∧ (a.snap.haveEventInfo && a.planOk) = true ∧
      (a.settled k l ↔ a.initHeld = true ∧ a.place k l ∈ a.held) := by
  cases hedited : a.edited with
  | true => simp [RelayLoop.decision, hedited] at hact
  | false =>
      simp only [RelayLoop.decision, hedited, Bool.false_eq_true, if_false] at hact
      have h := RelayMachine.step_spawns hact
      have hinit : a.initCached = true := h.init
      have hready : l.machine.head ∈ a.cached := of_decide_eq_true h.ready
      have hplace : a.place k l = a.taken k l := h.head
      refine ⟨h.wants, h.plan, ?_⟩
      rw [settled, hplace]
      split
      · rename_i hsame
        simp [hinit, hready, hsame]
      · simp [hinit]

end CachedPass

/-- **Something to send.**  In every run of the loop whose passes are settled, every child was
started with the operator wanting it, a plan that succeeds, and the opening data and the
segment at the position just taken up in the cache; and where a pass is not settled and starts
a child, that is not so. -/
theorem spawn_ready (k : RelayTask) :
    (∀ x : RelayLoop × List SpawnNote,
      Lib.Reach (Lib.noted (fun l (a : CachedPass) => some (l.pass k a.toRelayPass))
          (CachedPass.note k)) (fun x a => a.settled k x.1) (· = ({}, [])) x →
        ∀ s ∈ x.2, s.ready = true) ∧
    ∀ (l : RelayLoop) (a : CachedPass), (l.decision k a.toRelayPass).action = .spawn →
      ((∀ s ∈ CachedPass.note k l a [], s.ready = true) ↔ a.settled k l) := by
  have hone : ∀ (l : RelayLoop) (a : CachedPass),
      (l.decision k a.toRelayPass).action = .spawn →
      ((∀ s ∈ CachedPass.note k l a [], s.ready = true) ↔ a.settled k l) := by
    intro l a hact
    obtain ⟨hwanted, hplan, hsettled⟩ := CachedPass.spawn_settled hact
    rw [CachedPass.note, if_pos hact, hsettled]
    simp [SpawnNote.ready, hwanted, hplan]
  refine ⟨fun x hx => ?_, hone⟩
  refine Lib.Reach.invariant (I := fun x => ∀ s ∈ x.2, s.ready = true) ?_ ?_ hx
  · rintro _ rfl
    simp
  · rintro x a y h hc hy
    obtain ⟨-, hn⟩ := Lib.noted_eq_some.mp hy
    rw [hn]
    by_cases hact : (x.1.decision k a.toRelayPass).action = .spawn
    · have hnew := (hone x.1 a hact).mpr hc
      rw [CachedPass.note, if_pos hact] at hnew ⊢
      intro s hs
      rcases List.mem_cons.mp hs with rfl | hs
      · exact hnew _ List.mem_cons_self
      · exact h s hs
    · rw [CachedPass.note, if_neg hact]
      exact h

/-- A pass on a live event up to this segment, three minutes behind it, with these segments in
the cache. -/
def livePass (nowMs : ℤ) (latestSeq : ℕ) (cached : Finset ℕ) : CachedPass :=
  { nowMs, cached
    snap := { room := .live, eventId := "e1", haveEventInfo := true, latestSeq } }

/-- A destination started at segment 9, which the cache holds. -/
theorem spawn_ready_first :
    ∃ x, Lib.Reach (Lib.noted (fun l (a : CachedPass) => some (l.pass {} a.toRelayPass))
        (CachedPass.note {})) (fun x a => a.settled {} x.1) (· = ({}, [])) x ∧
      x.2.length = 1 ∧ ∀ s ∈ x.2, s.ready = true := by
  obtain ⟨x, hx, hlen⟩ : ∃ x : RelayLoop × List SpawnNote, Lib.Reach
      (Lib.noted (fun l (a : CachedPass) => some (l.pass {} a.toRelayPass)) (CachedPass.note {}))
      (fun x a => a.settled {} x.1) (· = ({}, [])) x ∧ x.2.length = 1 := by
    refine Lib.exists_reach_guarded (({} : RelayLoop), ([] : List SpawnNote))
      [livePass 0 39 {9}, livePass 50 39 {9}] rfl ?_
    decide +kernel
  exact ⟨x, hx, hlen, (spawn_ready {}).1 x hx⟩

/-- **The word of the segment before**: a destination at segment 9 is switched off, and on again
ten minutes later.  Its position is now segment 109; the cache holds segment 9 and not that
one, and the child is started. -/
theorem spawn_unready :
    ∃ x, Lib.Reach (Lib.noted (fun l (a : CachedPass) => some (l.pass {} a.toRelayPass))
        (CachedPass.note {})) Lib.anyStep (· = ({}, [])) x ∧
      x.1.machine.head = 109 ∧ x.2.head? = some ⟨true, true, true, false⟩ := by
  refine Lib.exists_reach (({} : RelayLoop), ([] : List SpawnNote))
    [livePass 0 39 {9}, livePass 50 39 {9}, { livePass 100 39 {9} with enabled := false },
      livePass 600100 139 {9}] rfl ?_
  decide +kernel

end Multisite

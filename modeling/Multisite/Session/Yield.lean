import Multisite.Session.Link

/-!
The yield rule and the queue.

`caught_up`, `behind` and `peek_next` each look over the pending files for work a
target has left; only `peek_next` looks at the sidecars.

* `orphan_holds_mirror`: after a crash between the two files of a segment
  `peek_next` returns nothing, `caught_up` is false and the mirror waits;
* `yield_rule_agrees`: the three agree exactly when a `.seg` file waiting for the
  target means that a readable one is, so always in a run whose segments have
  both files; and there the mirror may go as soon as the primary has nothing to
  send.
-/

namespace Multisite

open SpoolQueue (removals)

/-- The three answers to whether a target has work left agree. -/
def SpoolQueue.Agrees (q : SpoolQueue) (d : Option Folder) (t : Target) : Prop :=
  (q.caughtUp d t = true ↔ q.peekNext d t = none) ∧ (q.caughtUp d t = true ↔ q.behind d t = 0)

/-- A pending `.seg` file the target does not have. -/
def SpoolQueue.Waits (q : SpoolQueue) (d : Option Folder) (t : Target) (s : ℕ) : Prop :=
  s ∈ q.pendingSeqs d ∧ q.state.has t s = false

namespace SpoolQueue

variable {q : SpoolQueue} {d : Option Folder} {t : Target}

lemma caughtUp_iff : q.caughtUp d t = true ↔ ∀ s, ¬q.Waits d t s := by
  rw [caughtUp, List.all_eq_true]
  refine forall_congr' fun s => ?_
  rw [Waits, not_and, Bool.not_eq_false]

lemma behind_eq_zero_iff : q.behind d t = 0 ↔ ∀ s, ¬q.Waits d t s := by
  rw [behind, List.countP_eq_zero]
  refine forall_congr' fun s => ?_
  rw [Waits, not_and, Bool.not_eq_true', Bool.not_eq_false]

lemma peekNext_none_iff : q.peekNext d t = none ↔ ∀ s, q.Waits d t s → ¬Readable d s := by
  by_cases hdir : q.dir.isSome
  · rw [peekNext_eq_none_iff hdir]
    constructor
    · intro h s hs hread
      exact absurd (h s hread) (by simp [hs.2])
    · intro h s hread
      by_contra hhas
      exact h s ⟨mem_pendingSeqs.mpr ⟨hdir, hread.1⟩, by simpa using hhas⟩ hread
  · have hpend : q.pendingSeqs d = [] := by
      rw [List.eq_nil_iff_forall_not_mem]
      exact fun s hs => hdir (mem_pendingSeqs.mp hs).1
    rw [peekNext, hpend]
    exact iff_of_true rfl fun s hs => absurd hs.1 (by simp [hpend])

/-- **When the answers agree**: if a segment waits, a readable one does. -/
theorem agrees_iff :
    q.Agrees d t ↔ ((∃ s, q.Waits d t s) → ∃ s, q.Waits d t s ∧ Readable d s) := by
  rw [Agrees, caughtUp_iff, behind_eq_zero_iff, peekNext_none_iff]
  constructor
  · rintro ⟨h, -⟩ ⟨s, hs⟩
    by_contra hno
    exact h.mpr (fun r hr hread => hno ⟨r, hr, hread⟩) s hs
  · intro h
    refine ⟨⟨fun hno s hs => absurd hs (hno s), fun hno s hs => ?_⟩, Iff.rfl⟩
    obtain ⟨r, hr, hread⟩ := h ⟨s, hs⟩
    exact hno r hr hread

end SpoolQueue

/-! ### Folders whose segments have both files -/

/-- Every `.seg` file has its sidecar. -/
def Whole (d : Option Folder) : Prop := ∀ s, HasSeg d s → (sidecar d s).isSome = true

lemma Whole.agrees {q : SpoolQueue} {d : Option Folder} (h : Whole d) (t : Target) : q.Agrees d t := by
  rw [SpoolQueue.agrees_iff]
  rintro ⟨s, hs⟩
  have hseg := (SpoolQueue.mem_pendingSeqs.mp hs.1).2
  exact ⟨s, hs, hseg, h s hseg⟩

lemma whole_none : Whole none := fun s hs => absurd hs (not_hasSeg_none s)

/-- A state saved, or no state. -/
lemma Whole.state {d : Option Folder} (h : Whole d) (st : SpoolState) (k : ℕ) :
    Whole (applyWrites ([Write.state st].take k) d) := by
  intro s hs
  rcases hasSeg_applyWrites hs with hold | ⟨b, hb⟩
  · refine sidecar_applyWrites_of (h s hold) (fun hm => ?_) (fun hm => ?_) <;>
      exact absurd (List.mem_of_mem_take hm) (by simp)
  · exact absurd (List.mem_of_mem_take hb) (by simp)

/-- A removal takes the `.seg` file first. -/
lemma Whole.removals {d : Option Folder} (h : Whole d) (vs : List ℕ) (k : ℕ) :
    Whole (applyWrites ((removals vs).take k) d) := by
  induction vs generalizing d k with
  | nil =>
      rw [show SpoolQueue.removals [] = [] from rfl, List.take_nil]
      exact h
  | cons v vs ih =>
      have hcons : SpoolQueue.removals (v :: vs) =
          .removeSeg v :: .removeSidecar v :: SpoolQueue.removals vs := rfl
      have hone : Whole (Write.apply (.removeSeg v) d) := by
        intro s hs
        rcases hasSeg_apply hs with hold | ⟨b, hb⟩
        · exact sidecar_apply_of (h s hold) (by simp) (by simp)
        · exact absurd hb (by simp)
      have htwo : Whole (Write.apply (.removeSidecar v) (Write.apply (.removeSeg v) d)) := by
        intro s hs
        rcases hasSeg_apply hs with hold | ⟨b, hb⟩
        · refine sidecar_apply_of (hone s hold) (fun he => ?_) (by simp)
          -- the `.seg` file of `v` is gone
          obtain rfl : v = s := by simpa using he
          cases d with
          | none => exact absurd hold (by simp [Write.apply])
          | some f => exact absurd hold (by simp [Write.apply, hasSeg_some])
        · exact absurd hb (by simp)
      rw [hcons]
      rcases k with _ | _ | k
      · exact h
      · exact hone
      · rw [List.take_succ_cons, List.take_succ_cons, applyWrites, Lib.applyAll_cons,
          Lib.applyAll_cons]
        exact ih htwo k

/-- The end of every operation: removals, and the state. -/
lemma Whole.removals_state {d : Option Folder} (h : Whole d) (vs : List ℕ) (st : SpoolState) (k : ℕ) :
    Whole (applyWrites ((SpoolQueue.removals vs ++ [Write.state st]).take k) d) := by
  rw [List.take_append, applyWrites, Lib.applyAll_append]
  exact (h.removals vs k).state st _

/-- `enqueue`, unless it stops between its two files. -/
lemma Whole.enqueue {sha : Bytes → String} {q : SpoolQueue} {d : Option Folder}
    {seg : SpooledSegment} {e : SpoolQueue.Enqueued} {vs : List ℕ} (h : Whole d) (hd : d.isSome)
    (hs : q.Enqueues sha d seg e vs) {k : ℕ} (hk : k ≠ 1) : Whole (cutWrites k e.writes d) := by
  rcases k with _ | _ | k
  · exact h
  · exact absurd rfl hk
  · have hfiles : Whole (applyWrites (SpoolQueue.segmentFiles sha seg) d) := by
      intro s hseg
      have hcut : cutWrites 2 e.writes d = applyWrites (SpoolQueue.segmentFiles sha seg) d := by
        rw [cutWrites, Lib.cut, hs.writes]
        rfl
      rw [← hcut] at hseg ⊢
      rcases hs.hasSeg_cut hseg with hold | rfl
      · exact hs.sidecar_cut_of le_rfl (h s hold)
      · exact (hs.readable_new hd le_rfl).2
    rw [cutWrites, Lib.cut, hs.writes, List.take_append]
    rw [List.take_of_length_le (by simp [SpoolQueue.segmentFiles]), Lib.applyAll_append]
    exact hfiles.removals_state vs _ _

/-! ### Runs -/

/-- The step stops `publish_segment` between the two files of the segment: a
crash there, or a write that fails there. -/
def stopsBetween : Action → Bool
  | .publishSegment _ _ _ _ fault => decide (fault = some 1)
  | .crashIn (.publishSegment _ _ _ _ none) k => decide (k = 1)
  | .crashIn (.publishSegment _ _ _ _ (some j)) k => decide (min k j = 1)
  | _ => false

/-- The steps that leave no segment between its two files. -/
def writesWhole (_ : World) (a : Action) : Bool := !stopsBetween a

/-- **What a move keeps**, also up to a crash inside it. -/
lemma Whole.move {ev : Event} {d : Option Folder} {md md' : Media} {h h' : History} {c c' : Core}
    {a : Action} {ws : List Write} (hw : Whole d) (hl : LinkedUp d c)
    (mv : Move ev d md h c a c' md' h' ws) {k : ℕ}
    (hk : ∀ data dur pts now, a = .publishSegment data dur pts now none → k ≠ 1)
    (hj : ∀ data dur pts now j, a = .publishSegment data dur pts now (some j) → min k j ≠ 1) :
    Whole (cutWrites k ws d) := by
  have hconf : ∀ {t now seq}, c.hand t ≠ .idle →
      Whole (cutWrites k (c.spool.confirm now d seq t).2 d) := by
    intro t now seq ht
    obtain ⟨-, -, hws | ⟨-, hws⟩⟩ := SpoolQueue.confirm_spec now c.spool d seq t (hl.dir_of_hand ht)
    · rw [hws]
      exact hw.state _ k
    · rw [hws]
      rcases k with _ | k
      · exact hw
      · rw [cutWrites, Lib.cut, List.take_succ_cons, Lib.applyAll_cons]
        exact (hw.state (SpoolQueue.confirmed now c.spool.state seq t) 1).removals [seq] k
  cases mv with
  | confirm hpc => exact hconf (LinkedUp.confirms_ne_idle hpc)
  | skip _ hpc => exact hconf (by simp [hpc])
  | publish _ he =>
      obtain ⟨vs, hs⟩ := SpoolQueue.enqueue_spec he
      exact hw.enqueue (hl.linked hs.dir).disk hs (hk _ _ _ _ rfl)
  | @fault _ _ _ _ j e _ _ he _ =>
      obtain ⟨vs, hs⟩ := SpoolQueue.enqueue_spec he
      have hcut : cutWrites k (e.writes.take j) d = cutWrites (min k j) e.writes d := by
        rw [cutWrites, Lib.cut, List.take_take]
        rfl
      rw [hcut]
      exact hw.enqueue (hl.linked hs.dir).disk hs (hj _ _ _ _ _ rfl)
  | @mark b =>
      rw [LinkedUp.markEnded_writes]
      split
      · exact hw.state _ k
      · rw [cutWrites, Lib.cut, List.take_nil]
        exact hw
  | remove _ _ =>
      rw [SpoolQueue.removeIfDone]
      split
      · rw [cutWrites, Lib.cut, List.take_nil]
        exact hw
      · rcases k with _ | k
        · exact hw
        · rw [cutWrites, Lib.cut_of_length_le _ (by simp)]
          exact whole_none
  | _ =>
      rw [cutWrites, Lib.cut, List.take_nil]
      exact hw

lemma whole_invariant (ev : Event) :
    Invariant ev (fun w a => writesWhole w a = true)
      (fun w => ∀ p, w.machine = .up p → LinkedUp w.disk p.core)
      (fun d _ _ => Whole d) (fun d _ _ _ => Whole d) where
  init := whole_none
  same hs h s hseg := by
    rw [hs.sidecar]
    exact h s ((hs.hasSeg s).mp hseg)
  sameUp hs h s hseg := by
    rw [hs.sidecar]
    exact h s ((hs.hasSeg s).mp hseg)
  opens k hd ho _ := by
    cases ho with
    | nothing _ _ =>
        rw [cutWrites, Lib.cut, List.take_nil]
        exact hd
    | event _ _ _ _ _ => exact hd.removals_state _ _ k
  starts k _ s hs := absurd hs (hasSeg_beginWrites _ k s)
  startsUp _ _ s hs := absurd hs (hasSeg_beginWrites _ 3 s)
  resumes k hd _ := hd.state _ k
  resumesUp _ _ hd _ _ := hd.state _ 1
  moves := by
    intro w p a c md h ws h' hB hm hc hu mv _
    have hcut : cutWrites (ws.length + 2) ws w.disk = applyWrites ws w.disk :=
      Lib.cut_of_length_le _ (Nat.le_add_right _ _) w.disk
    rw [← hcut]
    refine hu.move (hB p hm) mv (fun _ _ _ _ _ => by omega) fun data dur pts now j ha => ?_
    subst ha
    have hj : j ≠ 1 := by simpa [writesWhole, stopsBetween] using hc
    omega
  crash _ _ _ hu := hu
  cuts := by
    intro w p a k e c md h h' hB hm hc _ _ hu mv _
    refine hu.move (hB p hm) mv (fun data dur pts now ha => ?_) fun data dur pts now j ha => ?_
    · subst ha
      simpa [writesWhole, stopsBetween] using hc
    · subst ha
      simpa [writesWhole, stopsBetween] using hc

/-- A run that leaves no segment between its two files leaves every `.seg` with
its sidecar. -/
lemma whole_of_reach {ev : Event} {w : World} (h : ReachedBy ev writesWhole w) : Whole w.disk := by
  have hinv := (whole_invariant ev).reach (fun h p hm => linked_of_reach h hm) h
  rw [Holds] at hinv
  split at hinv <;> exact hinv

/-! ### The result -/

/-- **The yield rule and the queue agree** on a folder exactly when a `.seg` file
waiting for the target means that a readable one is; in a run that leaves no
segment between its two files, always, and the mirror may go as soon as the
primary has nothing it could send. -/
theorem yield_rule_agrees (ev : Event) :
    (∀ (q : SpoolQueue) (d : Option Folder) (t : Target), q.Agrees d t ↔
      ((∃ s, q.Waits d t s) → ∃ s, q.Waits d t s ∧ Readable d s)) ∧
      ∀ w p, ReachedBy ev writesWhole w → w.machine = .up p →
        (∀ t, p.spool.Agrees w.disk t) ∧
          (p.spool.peekNext w.disk .primary = none → p.mirrorMayGo w.disk = true) := by
  refine ⟨fun q d t => SpoolQueue.agrees_iff, fun w p h _ => ?_⟩
  have hwhole := whole_of_reach h
  refine ⟨fun t => hwhole.agrees t, fun hpeek => ?_⟩
  rw [Proc.mirrorMayGo, Bool.or_eq_true]
  exact Or.inr ((hwhole.agrees .primary).1.mpr hpeek)

/-- The primary has taken the one segment, which still waits for the mirror. -/
theorem yield_rule_agrees_mirrored :
    ∃ (w : World) (p : Proc), w.machine = .up p ∧ p.spool.behind w.disk .second = 1 ∧
      (∀ t, p.spool.Agrees w.disk t) ∧ p.mirrorMayGo w.disk = true := by
  obtain ⟨w, hw, hup⟩ : ∃ w, ReachedBy sampleEvent writesWhole w ∧
      (w.upWith fun p d => decide (p.spool.behind d .second = 1) &&
        (p.spool.peekNext d .primary).isNone) = true :=
    Lib.exists_reach_guarded {}
      (goLiveMirrored ++ [Action.publishSegment [1] 6 0 1 none] ++ uploadOne) rfl
      (by decide +kernel)
  obtain ⟨p, hm, hp⟩ := exists_of_upWith hup
  rw [Bool.and_eq_true, decide_eq_true_eq, Option.isNone_iff_eq_none] at hp
  have h := (yield_rule_agrees sampleEvent).2 w p hw hm
  exact ⟨w, p, hm, hp.1, h.1, h.2 hp.2⟩

/-- A crash between the two files of the second segment; the next session
uploads the first and finds nothing else it could send. -/
def orphanLeft : List Action :=
  goLiveMirrored ++
    [Action.publishSegment [1] 6 0 1 none, .crashIn (.publishSegment [2] 6 6 2 none) 1,
      .openSession { mirror := true }, .resume {} {} {} 3, .flushBegin,
      .publishLive true 3] ++ uploadOne

/-- `peek_next` returns nothing, `caught_up` is false, and the mirror waits. -/
theorem orphan_holds_mirror :
    ∃ w p, Reached sampleEvent w ∧ w.machine = .up p ∧ ¬p.spool.Agrees w.disk .primary ∧
      p.spool.peekNext w.disk .primary = none ∧ p.mirrorMayGo w.disk = false := by
  obtain ⟨w, hw, hup⟩ : ∃ w, Reached sampleEvent w ∧
      (w.upWith fun p d => !p.spool.caughtUp d .primary && (p.spool.peekNext d .primary).isNone &&
        !p.mirrorMayGo d) = true :=
    Lib.exists_reach {} orphanLeft rfl (by decide +kernel)
  obtain ⟨p, hm, hp⟩ := exists_of_upWith hup
  simp only [Bool.and_eq_true, Bool.not_eq_true', Option.isNone_iff_eq_none] at hp
  obtain ⟨⟨hcaught, hpeek⟩, hgo⟩ := hp
  refine ⟨w, p, hw, hm, fun hagree => ?_, hpeek, hgo⟩
  rw [hagree.1.mpr hpeek] at hcaught
  exact absurd hcaught (by simp)

end Multisite

import Multisite.Session.Link

/-!
The number `resume` continues with.

`last_enqueued` is saved after the files of the segment, and starts at
`first_seq - 1`, clamped to `0`.  A crash in between leaves a `.seg` file above
it, so that the number is given again; and an event that began at `0` without a
segment is resumed at `1`.

* `resume_reuses`: a run after which `resume` continues with the number of a
  `.seg` file;
* `resume_number`: apart from these crashes, failed writes and resumptions,
  `resume` continues right after the last number, and the numbers given are
  consecutive.
-/

namespace Multisite

/-- A crash after the first `k` writes of an action finds no segment half
enqueued: `publish_segment` has written nothing yet, or its state too, or the
segment is number 0, which the state counts as enqueued from the start. -/
def enqueuesWhole (ev : Event) (w : World) (a : Action) (k : ℕ) : Bool :=
  match a, w.machine, w.plan ev a with
  | .publishSegment _ _ _ _ _, .up p, some e =>
      decide (k = 0) || decide (e.writes.length ≤ k) || decide (p.nextSeq = 0)
  | _, _, _ => true

/-- The steps that number safely: no write of the spool fails, no crash comes
between the files of a segment and the state, and an event that begins at `0` is
not resumed before it has a segment. -/
def numbersSafely (ev : Event) (w : World) : Action → Bool
  | .crashIn a k => noFault a && enqueuesWhole ev w a k
  | .resume _ _ _ _ => decide (0 < ev.firstSeq) || !w.hist.given.isEmpty
  | a => noFault a

/-- The numbers given so far are consecutive, from the first. -/
def Consecutive (ev : Event) (w : World) : Prop :=
  w.hist.given = List.range' ev.firstSeq w.hist.given.length

/-- `resume` brings up a session that continues with the number `n`. -/
def Continues (ev : Event) (w : World) (a : Action) (n : ℕ) : Prop :=
  ∃ w' p, step ev w a = some w' ∧ w'.machine = .up p ∧ p.nextSeq = n

lemma continues_of_any {ev : Event} {w : World} {a : Action} {n : ℕ}
    (h : (step ev w a).any (World.upWith fun p _ => decide (p.nextSeq = n)) = true) :
    Continues ev w a n := by
  rw [Option.any_eq_true] at h
  obtain ⟨w', hw', hp⟩ := h
  obtain ⟨p, hm, hn⟩ := exists_of_upWith hp
  exact ⟨w', p, hw', hm, of_decide_eq_true hn⟩

/-- What the number `n` that `resume` continues with should be. -/
structure ResumesRight (ev : Event) (w : World) (n : ℕ) : Prop where
  last : n = (recorded w.disk).lastEnqueued + 1
  segs : ∀ s, HasSeg w.disk s → s < n
  confirmed : ∀ s ∈ w.hist.confirmed, s < n
  first : w.hist.given = [] → n = ev.firstSeq

/-! ### The invariant -/

/-- Without a session. -/
structure NumsDead (ev : Event) (d : Option Folder) (h : History) : Prop where
  given : ∃ n, h.given = List.range' ev.firstSeq n
  segs : (recorded d).valid = true → ∀ s, HasSeg d s → s ≤ (recorded d).lastEnqueued
  confirmed : (recorded d).valid = true → ∀ s ∈ h.confirmed, s ≤ (recorded d).lastEnqueued
  last : (recorded d).valid = true →
    h.given = [] ∧ (recorded d).lastEnqueued = ev.firstSeq - 1 ∨
      ev.firstSeq ≤ (recorded d).lastEnqueued ∧
        h.given = List.range' ev.firstSeq ((recorded d).lastEnqueued + 1 - ev.firstSeq)

/-- With a session. -/
structure NumsUp (ev : Event) (d : Option Folder) (h : History) (c : Core) : Prop where
  first : ev.firstSeq ≤ c.nextSeq
  given : h.given = List.range' ev.firstSeq (c.nextSeq - ev.firstSeq)
  next : c.spool.dir.isSome →
    c.nextSeq = ev.firstSeq ∧ c.spool.state.lastEnqueued = ev.firstSeq - 1 ∨
      c.nextSeq = c.spool.state.lastEnqueued + 1
  segs : ∀ s, HasSeg d s → s < c.nextSeq
  hands : ∀ t seg, (c.hand t).segment = some seg → seg.seq < c.nextSeq
  confirmed : ∀ s ∈ h.confirmed, s < c.nextSeq

lemma numbersSafely_noFault {ev : Event} {w : World} {a : Action}
    (h : numbersSafely ev w a = true) : noFault a = true := by
  cases a with
  | crashIn a k =>
      rw [numbersSafely, Bool.and_eq_true] at h
      exact h.1
  | resume args reads puts now => rfl
  | _ => exact h

/-- What a crash leaves of a session whose memory was recorded. -/
lemma NumsUp.dead {ev : Event} {d : Option Folder} {h : History} {c : Core} (hu : NumsUp ev d h c)
    (hrec : (recorded d).valid = true → c.spool.dir.isSome ∧
      (recorded d).lastEnqueued = c.spool.state.lastEnqueued) : NumsDead ev d h := by
  have hfirst := hu.first
  -- the last number recorded is the one before the next, but for clamping
  have hnext : (recorded d).valid = true → ∀ s < c.nextSeq, s ≤ (recorded d).lastEnqueued := by
    intro hv s hs
    have := hu.next (hrec hv).1
    rw [(hrec hv).2]
    omega
  refine ⟨⟨_, hu.given⟩, fun hv s hs => hnext hv s (hu.segs s hs),
    fun hv s hs => hnext hv s (hu.confirmed s hs), fun hv => ?_⟩
  have hlast := hu.next (hrec hv).1
  rw [← (hrec hv).2] at hlast
  by_cases hnew : c.nextSeq = ev.firstSeq
  · refine Or.inl ⟨by rw [hu.given, hnew, Nat.sub_self, List.range'_zero], ?_⟩
    omega
  · have hn : c.nextSeq = (recorded d).lastEnqueued + 1 := by omega
    exact Or.inr ⟨by omega, hn ▸ hu.given⟩

section

variable {ev : Event} {d d' : Option Folder} {md md' : Media} {h h' h'' : History} {c c' : Core}
  {a : Action} {ws : List Write}

/-- The numbers given are those below the next one, and one more. -/
lemma range'_snoc {s n : ℕ} (h : s ≤ n) :
    List.range' s (n - s) ++ [n] = List.range' s (n + 1 - s) := by
  rw [Nat.succ_sub h, Nat.succ_eq_add_one, List.range'_concat]
  congr 2
  omega

/-- Only segments in hand are confirmed. -/
lemma Move.confirmed_cases (mv : Move ev d md h c a c' md' h' ws) {s : ℕ} (hs : s ∈ h'.confirmed) :
    s ∈ h.confirmed ∨ ∃ t seg, (c.hand t).segment = some seg ∧ seg.seq = s := by
  cases mv with
  | @confirm t now seg hpc =>
      rcases List.mem_append.mp hs with hs | hs
      · exact Or.inl hs
      · refine Or.inr ⟨t, seg, ?_, (List.mem_singleton.mp hs).symm⟩
        cases t <;> rw [show c.hand _ = _ from hpc] <;> rfl
  | @skip t now seg n _ hpc =>
      rcases List.mem_append.mp hs with hs | hs
      · exact Or.inl hs
      · exact Or.inr ⟨t, seg, by rw [hpc]; rfl, (List.mem_singleton.mp hs).symm⟩
  | _ => exact Or.inl hs

/-- A move that takes no number, up to a crash inside it: the numbers are as
they were. -/
lemma NumsUp.still (hu : NumsUp ev d h c) (mv : Move ev d md h c a c' md' h' ws)
    (hno : ∀ x ∈ ws, x.addsFile = false) {k : ℕ} (hf : Follows h' (ws.take k) h'') :
    NumsUp ev (cutWrites k ws d) h'' c := by
  have hsegs : ∀ s, HasSeg (cutWrites k ws d) s → HasSeg d s := by
    intro s hs
    rcases hasSeg_applyWrites hs with hs | ⟨b, hb⟩
    · exact hs
    · exact absurd (hno _ (List.mem_of_mem_take hb)) (by simp [Write.addsFile])
  refine ⟨hu.first, ?_, hu.next, fun s hs => hu.segs s (hsegs s hs), hu.hands, fun s hs => ?_⟩
  · rw [hf.given, History.wrote_of_addsFile fun x hx => hno x (List.mem_of_mem_take hx), ← hu.given]
    cases mv <;> rfl
  · rw [hf.confirmed] at hs
    rcases mv.confirmed_cases hs with hs | ⟨t, seg, hseg, rfl⟩
    · exact hu.confirmed s hs
    · exact hu.hands t seg hseg

/-- `publish_segment`, complete. -/
lemma NumsUp.publish (hu : NumsUp ev d h c) (hl : LinkedUp d c) {seg : SpooledSegment}
    {e : SpoolQueue.Enqueued} {vs : List ℕ} (hseq : seg.seq = c.nextSeq)
    (hs : c.spool.Enqueues ev.sha256Hex d seg e vs) {k : ℕ} (hk : e.writes.length ≤ k)
    (hf : Follows h (e.writes.take k) h'') :
    NumsUp ev (cutWrites k e.writes d) h''
      { c with nextSeq := c.nextSeq + 1, spool := e.queue, dropping := vs } := by
  have hlink := hl.linked hs.dir
  have hlen := hs.length
  refine ⟨hu.first.trans (Nat.le_succ _), ?_, fun _ => Or.inr ?_, fun s hseg => ?_, fun t sg hsg => ?_,
    fun s hc => ?_⟩
  · rw [hf.given, (hs.wrote h k).1, if_pos (by omega), hu.given, hseq]
    exact range'_snoc hu.first
  · show c.nextSeq + 1 = e.queue.state.lastEnqueued + 1
    rw [hs.last, hseq, hlink.last_max]
  · show s < c.nextSeq + 1
    rcases hs.hasSeg_cut hseg with hold | rfl
    · exact (hu.segs s hold).trans (Nat.lt_succ_self _)
    · exact hseq ▸ Nat.lt_succ_self _
  · refine (hu.hands t sg ?_).trans (Nat.lt_succ_self _)
    cases t <;> exact hsg
  · exact (hu.confirmed s (hf.confirmed ▸ hc)).trans (Nat.lt_succ_self _)

/-- **What a move keeps**, when no write fails. -/
lemma NumsUp.move (hu : NumsUp ev d h c) (hl : LinkedUp d c) (ha : noFault a = true)
    (mv : Move ev d md h c a c' md' h' ws) (hf : Follows h' ws h'') :
    NumsUp ev (applyWrites ws d) h'' c' := by
  have hf' : Follows h' (ws.take ws.length) h'' := by rwa [List.take_length]
  have hcut : cutWrites ws.length ws d = applyWrites ws d := Lib.cut_of_length_le _ le_rfl d
  rcases mv.still_or_publish ha with ⟨hno, hnext, hlast⟩ |
    ⟨seg, e, vs, -, hseq, hs, -, rfl, rfl, -, rfl⟩
  · have hstill := hu.still mv hno hf'
    rw [hcut] at hstill
    refine ⟨hnext ▸ hu.first, hnext ▸ hstill.given, fun hd => ?_, hnext ▸ hstill.segs,
      fun t seg hseg => ?_, hnext ▸ hstill.confirmed⟩
    · rw [hnext, hlast]
      exact hu.next (mv.last_le hd).1
    · rw [hnext]
      rcases mv.hand hseg with hold | hp
      · exact hu.hands t seg hold
      · exact hu.segs _ hp.hasSeg
  · rw [← hcut]
    exact hu.publish hl hseq hs le_rfl hf'

/-- A crash inside a move, unless it finds a segment half enqueued. -/
lemma NumsUp.cut (hu : NumsUp ev d h c) (hl : LinkedUp d c) (hsaved : Saved d c)
    (ha : noFault a = true) (mv : Move ev d md h c a c' md' h' ws) {k : ℕ}
    (hwhole : ∀ data dur pts now, a = .publishSegment data dur pts now none →
      k = 0 ∨ ws.length ≤ k ∨ c.nextSeq = 0)
    (hf : Follows h' (ws.take k) h'') : NumsDead ev (cutWrites k ws d) h'' := by
  rcases mv.still_or_publish ha with ⟨hno, hnext, hlast⟩ |
    ⟨seg, e, vs, ⟨data, dur, pts, now, rfl⟩, hseq, hs, -, rfl, rfl, -, rfl⟩
  · refine (hu.still mv hno hf).dead fun hv => ?_
    rcases hl.recorded_cut mv k with hrec | ⟨hd, hrec⟩ | hnone
    · rw [hrec] at hv ⊢
      exact ⟨hl.dir_of_valid hv, by rw [hsaved (hl.dir_of_valid hv)]⟩
    · exact ⟨hd, by rw [hrec, hlast]⟩
    · exact absurd hv (by simp [hnone])
  · have hlink := hl.linked hs.dir
    rcases hwhole data dur pts now rfl with rfl | hk | hzero
    · have hh : h''.given = h'.given := hf.given
      refine NumsUp.dead (c := c) ⟨hu.first, hh ▸ hu.given, hu.next, hu.segs, hu.hands,
        fun s hc => hu.confirmed s (hf.confirmed ▸ hc)⟩ fun _ => ⟨hs.dir, ?_⟩
      exact congrArg SpoolState.lastEnqueued (hsaved hs.dir)
    · refine (hu.publish hl hseq hs hk hf).dead fun _ => ⟨hs.dir'.symm ▸ hs.dir, ?_⟩
      rw [cutWrites, Lib.cut_of_length_le _ hk, hs.recorded_all hlink.disk hlink.valid]
    · -- number 0 is counted as enqueued in the state before it
      by_cases hk : e.writes.length ≤ k
      · refine (hu.publish hl hseq hs hk hf).dead fun _ => ⟨hs.dir'.symm ▸ hs.dir, ?_⟩
        rw [cutWrites, Lib.cut_of_length_le _ hk, hs.recorded_all hlink.disk hlink.valid]
      have hfirst : ev.firstSeq = 0 := by
        have := hu.first
        omega
      have hrec : (recorded (cutWrites k e.writes d)).lastEnqueued = 0 := by
        have := hu.next hs.dir
        rw [hs.recorded_cut (not_le.mp hk), hsaved hs.dir]
        omega
      have hempty : h'.given = [] := by rw [hu.given, hzero, hfirst]; rfl
      have hgiven : h''.given = if 1 ≤ k then [0] else [] := by
        rw [hf.given, (hs.wrote h' k).1, hseq, hzero, hempty]
        rfl
      have hnum : h''.given = [] ∨ h''.given = [0] := by
        rw [hgiven]
        split <;> simp
      refine ⟨?_, fun _ s hseg => ?_, fun _ s hc => ?_, fun _ => ?_⟩
      · rw [hfirst]
        rcases hnum with hg | hg
        · exact ⟨0, hg⟩
        · exact ⟨1, hg⟩
      · rw [hrec]
        rcases hs.hasSeg_cut hseg with hold | rfl
        · have := hu.segs s hold
          omega
        · omega
      · have := hu.confirmed s (hf.confirmed ▸ hc)
        omega
      · rw [hrec, hfirst]
        exact hnum.imp (fun hg => ⟨hg, rfl⟩) fun hg => ⟨le_rfl, hg⟩

end

/-- A folder whose files and recorded number are the old ones. -/
lemma NumsDead.of_disk {ev : Event} {d d' : Option Folder} {h h' : History} (hd : NumsDead ev d h)
    (hsegs : ∀ s, HasSeg d' s → HasSeg d s) (hv : (recorded d').valid = (recorded d).valid)
    (hlast : (recorded d').lastEnqueued = (recorded d).lastEnqueued)
    (hgiven : h'.given = h.given) (hconf : h'.confirmed = h.confirmed) : NumsDead ev d' h' where
  given := hgiven ▸ hd.given
  segs h1 s hs := hlast ▸ hd.segs (hv ▸ h1) s (hsegs s hs)
  confirmed h1 s hs := hlast ▸ hd.confirmed (hv ▸ h1) s (hconf ▸ hs)
  last h1 := by
    rw [hlast, hgiven]
    exact hd.last (hv ▸ h1)

/-- What `resume` continues with. -/
lemma NumsDead.resumesRight {ev : Event} {w : World} (hd : NumsDead ev w.disk w.hist)
    (hv : (recorded w.disk).valid = true) (hc : 0 < ev.firstSeq ∨ w.hist.given ≠ []) :
    ResumesRight ev w ((recorded w.disk).lastEnqueued + 1) where
  last := rfl
  segs s hs := Nat.lt_succ_of_le (hd.segs hv s hs)
  confirmed s hs := Nat.lt_succ_of_le (hd.confirmed hv s hs)
  first hempty := by
    rcases hd.last hv with ⟨-, hlast⟩ | ⟨hle, hgiven⟩
    · have := hc.resolve_right (fun h => h hempty)
      omega
    · rw [hgiven] at hempty
      simp at hempty
      omega

/-- A session resumed with the right number. -/
lemma NumsUp.resumed {ev : Event} {w : World} {d' : Option Folder} {r : SpoolQueue} {m : Manifest}
    (hd : NumsDead ev w.disk w.hist) (hr : Resumed w.disk r)
    (hc : 0 < ev.firstSeq ∨ w.hist.given ≠ []) (hsegs : ∀ s, HasSeg d' s → HasSeg w.disk s) :
    NumsUp ev d' w.hist (Core.begun r ((recorded w.disk).lastEnqueued + 1) m) := by
  have hright := hd.resumesRight hr.valid hc
  obtain ⟨now, hst⟩ := hr.state
  have hgiven : ev.firstSeq ≤ (recorded w.disk).lastEnqueued + 1 ∧ w.hist.given =
      List.range' ev.firstSeq ((recorded w.disk).lastEnqueued + 1 - ev.firstSeq) := by
    rcases hd.last hr.valid with ⟨hempty, -⟩ | ⟨hle, hgiven⟩
    · rw [hright.first hempty, hempty, Nat.sub_self]
      exact ⟨le_rfl, rfl⟩
    · exact ⟨by omega, hgiven⟩
  refine ⟨hgiven.1, hgiven.2, fun _ => Or.inr ?_, fun s hs => hright.segs s (hsegs s hs),
    fun t seg hs => ?_, hright.confirmed⟩
  · show _ = r.state.lastEnqueued + 1
    rw [hst]
    rfl
  · cases t <;> exact absurd hs (by simp [Core.begun, Core.hand, UploadPc.segment])

lemma numbersSafely_resume {ev : Event} {w : World} {args : StartArgs} {reads : ResumeReads}
    {puts : BeginPuts} {now : ℤ} (h : numbersSafely ev w (.resume args reads puts now) = true) :
    0 < ev.firstSeq ∨ w.hist.given ≠ [] := by
  simpa [numbersSafely] using h

lemma nums_invariant (ev : Event) :
    Invariant ev (fun w a => numbersSafely ev w a = true)
      (fun w => ∀ p, w.machine = .up p → LinkedUp w.disk p.core ∧ Saved w.disk p.core)
      (fun d _ h => NumsDead ev d h) (fun d _ h c => NumsUp ev d h c) where
  init := ⟨⟨0, rfl⟩, fun h => absurd h (by simp), fun h => absurd h (by simp),
    fun h => absurd h (by simp)⟩
  same hs h := h.of_disk (fun s => (hs.hasSeg s).mp) (by rw [hs.recorded]) (by rw [hs.recorded])
    rfl rfl
  sameUp hs h := { h with segs := fun s hseg => h.segs s ((hs.hasSeg s).mp hseg) }
  opens k hd ho hf := by
    obtain ⟨n, hrec⟩ := ho.recorded_cut k
    refine hd.of_disk (fun s hs => ?_) (by rw [hrec]) (by rw [hrec]) ?_ hf.confirmed
    · rcases hasSeg_applyWrites hs with h | ⟨b, hb⟩
      · exact h
      · exact absurd (ho.addsFile _ (List.mem_of_mem_take hb)) (by simp [Write.addsFile])
    · rw [hf.given, History.wrote_of_addsFile fun x hx => ho.addsFile x (List.mem_of_mem_take hx)]
  starts k hq := by
    refine ⟨⟨0, rfl⟩, fun _ s hs => absurd hs (hasSeg_beginWrites _ k s),
      fun _ s hs => absurd hs (by simp), fun hv => Or.inl ⟨rfl, ?_⟩⟩
    rename_i q
    rcases recorded_beginWrites q.state k with hrec | hrec
    · exact absurd hv (by simp [hrec])
    · rw [hrec]
      exact hq.last
  startsUp hq _ := by
    refine ⟨le_rfl, by simp [Core.begun], fun _ => Or.inl ⟨rfl, hq.last⟩, fun s hs => ?_,
      fun t seg hs => ?_, fun s hs => absurd hs (by simp)⟩
    · exact absurd hs (hasSeg_beginWrites _ 3 s)
    · cases t <;> exact absurd hs (by simp [Core.begun, Core.hand, UploadPc.segment])
  resumes k hd hr := by
    obtain ⟨b, now, hrec⟩ := hr.recorded_cut k
    refine hd.of_disk (fun s hs => ?_) (by rw [hrec]) (by rw [hrec]) rfl rfl
    rcases hasSeg_applyWrites hs with h | ⟨b, hb⟩
    · exact h
    · exact absurd (List.mem_of_mem_take hb) (by simp)
  resumesUp := by
    intro w args reads puts now r m _ hc hd hr _
    refine .resumed hd hr (numbersSafely_resume hc) fun s hs => ?_
    rcases hasSeg_applyWrites hs with h | ⟨b, hb⟩
    · exact h
    · exact absurd hb (by simp)
  moves hB hm hc hu mv hf := hu.move (hB _ hm).1 (numbersSafely_noFault hc) mv hf
  crash := by
    intro w p hB hm _ hu
    obtain ⟨hl, hsaved⟩ := hB p hm
    refine hu.dead fun hv => ?_
    have hdir := hl.dir_of_valid hv
    exact ⟨hdir, congrArg SpoolState.lastEnqueued (hsaved hdir)⟩
  cuts := by
    intro w p a k e c md h h' hB hm hc he _ hu mv hf
    obtain ⟨hl, hsaved⟩ := hB p hm
    have hcond : noFault a = true ∧ enqueuesWhole ev w a k = true := by
      simpa [numbersSafely] using hc
    refine hu.cut hl hsaved hcond.1 mv (fun data dur pts now ha => ?_) hf
    subst ha
    have hwhole : k = 0 ∨ e.writes.length ≤ k ∨ p.nextSeq = 0 := by
      simpa [enqueuesWhole, hm, he, or_assoc] using hcond.2
    exact hwhole

/-! ### The result -/

/-- What every run that numbers safely leaves. -/
lemma nums_of_reach {ev : Event} {w : World} (h : ReachedBy ev (numbersSafely ev) w) :
    Holds ev (fun d _ h => NumsDead ev d h) (fun d _ h c => NumsUp ev d h c) w :=
  (nums_invariant ev).reach (fun h _ hm =>
    ⟨linked_of_reach h hm, saved_of_reach (fun _ _ => numbersSafely_noFault) h hm⟩) h

/-- What a session that `resume` brings up continues with. -/
lemma resume_continues {ev : Event} {w : World} (hs : Sound ev w) {args : StartArgs}
    {reads : ResumeReads} {puts : BeginPuts} {now : ℤ} {n : ℕ}
    (h : Continues ev w (.resume args reads puts now) n) :
    (∀ p, w.machine ≠ .up p) ∧ (recorded w.disk).valid = true ∧
      n = (recorded w.disk).lastEnqueued + 1 := by
  obtain ⟨w', p, hstep, hp, rfl⟩ := h
  simp only [step, Option.map_eq_some_iff] at hstep
  obtain ⟨e, he, rfl⟩ := hstep
  have hp' : e.machine = .up p := hp
  rcases hs.plan he with ⟨p', hm, -⟩ | ⟨hup, hboot⟩
  · exact absurd he (by simp [World.plan, hm])
  · refine ⟨hup, ?_⟩
    cases hboot with
    | refused hdown _ _ _ _ => exact absurd hp' (by simp [hdown])
    | resumes hr _ _ _ _ hmach =>
        rcases hmach with hdown | ⟨p', m, hup', -, -, hcore⟩
        · exact absurd hp' (by simp [hdown])
        · obtain rfl := Machine.up.inj (hup'.symm.trans hp')
          exact ⟨hr.valid, congrArg Core.nextSeq hcore⟩

/-- **Resume numbering.**  In a run that numbers safely, the numbers given are
consecutive, and `resume` continues with a number above every `.seg` file and
every confirmed segment, the first one when there was none. -/
theorem resume_number (ev : Event) {w : World} (h : ReachedBy ev (numbersSafely ev) w) :
    Consecutive ev w ∧ ∀ args reads puts now n,
      numbersSafely ev w (.resume args reads puts now) = true →
      Continues ev w (.resume args reads puts now) n → ResumesRight ev w n := by
  have hinv := nums_of_reach h
  constructor
  · obtain ⟨n, hn⟩ : ∃ n, w.hist.given = List.range' ev.firstSeq n := by
      rw [Holds] at hinv
      split at hinv
      · exact ⟨_, hinv.given⟩
      · exact hinv.given
    rw [Consecutive, hn, List.length_range']
  · intro args reads puts now n hc hcont
    obtain ⟨hup, hv, rfl⟩ := resume_continues (sound_of_reach h) hcont
    have hd := (Holds.of_not_up hup).mp hinv
    exact hd.resumesRight hv (numbersSafely_resume hc)

/-- Two segments, the second whole, and a crash before anything is confirmed. -/
def resumedInOrder : List Action :=
  goLive ++ [Action.publishSegment [1] 6 0 1 none, .publishSegment [2] 6 6 1 none] ++
    uploadOne ++ [Action.crash, .openSession {}]

theorem resume_number_inOrder :
    ∃ w, w.hist.given = [0, 1] ∧ HasSeg w.disk 1 ∧ ResumesRight sampleEvent w 2 := by
  obtain ⟨w, hw, hgiven, hseg, hcont⟩ : ∃ w, ReachedBy sampleEvent (numbersSafely sampleEvent) w ∧
      w.hist.given = [0, 1] ∧ HasSeg w.disk 1 ∧
      (step sampleEvent w (.resume {} {} {} 3)).any
        (World.upWith fun p _ => decide (p.nextSeq = 2)) = true :=
    Lib.exists_reach_guarded {} resumedInOrder rfl (by decide +kernel)
  have hc : numbersSafely sampleEvent w (.resume {} {} {} 3) = true := by
    simp [numbersSafely, hgiven]
  exact ⟨w, hgiven, hseg, (resume_number sampleEvent hw).2 {} {} {} 3 2 hc (continues_of_any hcont)⟩

/-- The second segment's `.seg` file is written and the process is gone before
the state is saved. -/
def halfEnqueued : List Action :=
  goLive ++ [Action.publishSegment [1] 6 0 1 none, .crashIn (.publishSegment [2] 6 6 2 none) 1,
    .openSession {}]

/-- The number of that file is the one `resume` continues with. -/
theorem resume_reuses :
    ∃ w, Reached sampleEvent w ∧ Continues sampleEvent w (.resume {} {} {} 3) 1 ∧
      ¬ResumesRight sampleEvent w 1 := by
  obtain ⟨w, hw, hseg, hcont⟩ : ∃ w, Reached sampleEvent w ∧ HasSeg w.disk 1 ∧
      (step sampleEvent w (.resume {} {} {} 3)).any
        (World.upWith fun p _ => decide (p.nextSeq = 1)) = true :=
    Lib.exists_reach {} halfEnqueued rfl (by decide +kernel)
  exact ⟨w, hw, continues_of_any hcont, fun hr => absurd (hr.segs 1 hseg) (by decide)⟩

end Multisite

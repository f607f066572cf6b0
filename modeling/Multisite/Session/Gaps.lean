import Multisite.Session.References

/-!
A gap is a real gap.

The disk cap takes the oldest file, which with two targets may be one the primary
already has, and which may be past the floor check on its way to the bucket.

* `gap_held`: with a mirror that waits, a segment the primary has confirmed is
  evicted and declared a gap;
* `gap_real`: when the disk cap takes no segment that the primary has or is
  sending, and no crash comes between a PUT and the mark, the gaps and the
  bucket's segments stay apart.
-/

namespace Multisite

/-- What is in the gaps is not in the bucket. -/
structure GapsReal (ev : Event) (w : World) : Prop where
  held : ∀ p, w.machine = .up p → ∀ s, p.manifest.InGaps s → w.store.segment ev.id s = none
  disjoint : ∀ p, w.machine = .up p → ∀ e ∈ p.manifest.segments, ¬p.manifest.InGaps e.seq
  confirmed : ∀ s ∈ w.hist.gapped, s ∉ w.hist.primary

/-- The uploader is sending the segment `s`, or has sent it. -/
def UploadPc.sends (pc : UploadPc) (s : ℕ) : Bool := pc.sent.any fun seg => decide (seg.seq = s)

/-- Nothing has been sent that is not marked. -/
def World.marked (w : World) : Bool :=
  match w.machine with
  | .up p => p.up.pc.done.isNone
  | _ => true

/-- The steps that declare real gaps: the disk cap takes no segment that the
primary has or is sending, and no crash comes between a PUT and the mark. -/
def dropsUnsent (ev : Event) (w : World) : Action → Bool
  | .publishSegment data dur pts now none =>
      match w.machine with
      | .up p =>
          (p.spool.enqueue ev.sha256Hex now w.disk (newSegment ev p.nextSeq data dur pts)).all
            fun e => e.drops.all fun dr =>
              !p.spool.state.has .primary dr.seq && !p.up.pc.sends dr.seq
      | _ => true
  | .crash => w.marked
  | .crashIn (.confirm .primary _) k => w.marked || decide (0 < k)
  | .crashIn _ _ => w.marked
  | _ => true

/-! ### What is declared lost -/

/-- The number `s` was passed to `add_gap`, or is about to be. -/
def Declared (h : History) (c : Core) (s : ℕ) : Prop :=
  s ∈ h.gapped ∨ s ∈ c.dropping ∨ c.up = .skipping s

section

variable {ev : Event} {d : Option Folder} {md md' : Media} {h h' h'' : History} {c c' : Core}
  {a : Action} {ws : List Write}

/-- What is declared lost was so before, or is a victim of the disk cap, or the
damaged segment in hand. -/
lemma Move.declared (mv : Move ev d md h c a c' md' h' ws) {s : ℕ} (hs : Declared h' c' s) :
    Declared h c s ∨
      (∃ data dur pts now e, a = .publishSegment data dur pts now none ∧
        c.spool.enqueue ev.sha256Hex now d (newSegment ev c.nextSeq data dur pts) = some e ∧
        c' = { c with nextSeq := c.nextSeq + 1, spool := e.queue, dropping := e.drops.map (·.seq) } ∧
        md' = md ∧ ws = e.writes ∧ s ∈ e.drops.map (·.seq)) ∨
      ∃ seg n, c.up = .holding seg n ∧ seg.seq = s ∧ c'.up = .skipping s ∧ md' = md ∧
        ∃ now, a = .skip .primary now ∧ ws = (c.spool.confirm now d seg.seq .primary).2 ∧
          c'.spool = (c.spool.confirm now d seg.seq .primary).1 := by
  have hand : ∀ {h₁ : History} {c₁ : Core} {t : Target} {pc : UploadPc},
      Declared h₁ (c₁.withHand t pc) s → h₁.gapped = h.gapped → c₁.dropping = c.dropping →
      c₁.up = c.up → (t = .primary → ∀ x, pc ≠ .skipping x) → Declared h c s := by
    rintro h₁ c₁ t pc (hs | hs | hs) h0 h1 h2 h3
    · exact Or.inl (h0 ▸ hs)
    · exact Or.inr (Or.inl (by rw [Core.dropping_withHand, h1] at hs; exact hs))
    · cases t with
      | primary => exact absurd hs (h3 rfl s)
      | second => exact Or.inr (Or.inr (h2.symm.trans hs))
  cases mv with
  | @back _ t pc hpc =>
      refine Or.inl (hand hs rfl rfl rfl fun _ x hx => ?_)
      rw [hx] at hpc
      generalize c.hand t = y at hpc
      cases hpc
  | take _ _ => exact Or.inl (hand hs rfl rfl rfl (by simp))
  | pass _ _ _ => exact Or.inl (hand hs rfl rfl rfl (by simp))
  | put _ => exact Or.inl (hand hs rfl rfl rfl (by simp))
  | putSecond _ => exact Or.inl (hand hs rfl rfl rfl (by simp))
  | list _ _ => exact Or.inl (hand hs rfl rfl rfl (by simp))
  | confirm _ => exact Or.inl (hand hs rfl rfl rfl (by simp))
  | @skip t now seg n _ hpc =>
      cases t with
      | primary =>
          rcases hs with hs | hs | hs
          · exact Or.inl (Or.inl hs)
          · exact Or.inl (Or.inr (Or.inl hs))
          · obtain rfl : seg.seq = s := by simpa [Core.withHand, afterSkip] using hs
            exact Or.inr (Or.inr ⟨seg, n, hpc, rfl, rfl, rfl, now, rfl, rfl, rfl⟩)
      | second => exact Or.inl (hand hs rfl rfl rfl (by simp))
  | @skipped seq hpc =>
      rcases hs with hs | hs | hs
      · rcases List.mem_append.mp hs with hs | hs
        · exact Or.inl (Or.inl hs)
        · rw [List.mem_singleton.mp hs]
          exact Or.inl (Or.inr (Or.inr hpc))
      · exact Or.inl (Or.inr (Or.inl hs))
      · exact absurd hs (by simp [Core.withHand])
  | publish hdrop he =>
      rcases hs with hs | hs | hs
      · exact Or.inl (Or.inl hs)
      · exact Or.inr (Or.inl ⟨_, _, _, _, _, rfl, he, rfl, rfl, rfl, hs⟩)
      · exact Or.inl (Or.inr (Or.inr hs))
  | @dropped v rest hpc =>
      rcases hs with hs | hs | hs
      · rcases List.mem_append.mp hs with hs | hs
        · exact Or.inl (Or.inl hs)
        · rw [List.mem_singleton.mp hs]
          exact Or.inl (Or.inr (Or.inl (by simp [hpc])))
      · exact Or.inl (Or.inr (Or.inl (by rw [hpc]; exact List.mem_cons_of_mem _ hs)))
      · exact Or.inl (Or.inr (Or.inr hs))
  | _ => exact Or.inl hs

/-- Every gap was passed to `add_gap`. -/
lemma Move.gaps (mv : Move ev d md h c a c' md' h' ws) {s : ℕ} (hs : c'.manifest.InGaps s) :
    c.manifest.InGaps s ∨ s ∈ h'.gapped := by
  cases mv with
  | skipped _ =>
      rcases (Manifest.inGaps_addGap _ _ _).mp hs with rfl | hs
      · exact Or.inr (by simp)
      · exact Or.inl hs
  | dropped _ =>
      rcases (Manifest.inGaps_addGap _ _ _).mp hs with rfl | hs
      · exact Or.inr (by simp)
      · exact Or.inl hs
  | list _ hm =>
      subst hm
      have hs' : Manifest.InRanges (c.manifest.push _ _).gaps s := hs
      rw [Manifest.gaps_push] at hs'
      exact Or.inl hs'
  | ended hm =>
      subst hm
      exact Or.inl hs
  | _ => exact Or.inl (by simpa using hs)

lemma Move.gapped_subset (mv : Move ev d md h c a c' md' h' ws) : h.gapped ⊆ h'.gapped := by
  cases mv <;> first | exact fun x hx => hx | exact List.subset_append_left _ _

/-- What has been sent stays so until it is marked. -/
lemma LinkedUp.done_stays (hl : LinkedUp d c) (mv : Move ev d md h c a c' md' h' ws)
    {seg : SpooledSegment} (hs : c.up.done = some seg) :
    c'.up.done = some seg ∨ c'.spool.state.has .primary seg.seq = true := by
  have no : ∀ {pc : UploadPc}, c.up = pc → pc.done = none → False := by
    rintro pc rfl hno
    exact absurd (hs.symm.trans hno) (by simp)
  cases mv with
  | @back _ t pc hpc =>
      cases t with
      | second => exact Or.inl hs
      | primary =>
          have hback : c.up.Back pc := hpc
          refine Or.inl ?_
          show pc.done = some seg
          generalize c.up = x at hs hback
          cases hback <;> exact hs
  | @take t _ hpc _ =>
      cases t with
      | primary => exact (no hpc rfl).elim
      | second => exact Or.inl hs
  | @pass t _ _ hpc _ _ =>
      cases t with
      | primary => exact (no hpc rfl).elim
      | second => exact Or.inl hs
  | put hpc => exact (no hpc rfl).elim
  | list hpc _ =>
      have hpc' : c.up = _ := hpc
      exact Or.inl (hpc' ▸ hs)
  | @confirm t now seg' hpc =>
      cases t with
      | second => exact Or.inl hs
      | primary =>
          have hpc' : c.up = .listed seg' none := hpc
          obtain rfl : seg' = seg := by simpa [hpc', UploadPc.done] using hs
          refine Or.inr ?_
          have hst := (SpoolQueue.confirm_spec now c.spool d seg'.seq .primary
            (hl.dir_of_hand (t := .primary) (by simp [Core.hand, hpc']))).1
          rw [Core.spool_withHand, hst, SpoolQueue.has_iff]
          exact ⟨rfl, le_max_right _ _⟩
  | @skip t _ _ _ _ hpc =>
      cases t with
      | primary => exact (no hpc rfl).elim
      | second => exact Or.inl hs
  | skipped hpc => exact (no hpc rfl).elim
  | _ => exact Or.inl hs

/-- What the bucket holds after a move: what it held, and the segment just put. -/
lemma Move.segment_cases (mv : Move ev d md h c a c' md' h' ws) (s : ℕ) :
    md'.segment s = md.segment s ∨
      ∃ seg n, c.up = .sending seg n ∧ c'.up = .stored seg ∧ seg.seq = s := by
  cases mv with
  | @put seg n hpc =>
      by_cases hs : s = seg.seq
      · exact Or.inr ⟨seg, n, hpc, rfl, hs.symm⟩
      · exact Or.inl (Function.update_of_ne hs _ _)
  | _ => exact Or.inl rfl

/-- The bucket keeps what it holds. -/
lemma Move.segment_isSome (mv : Move ev d md h c a c' md' h' ws) {s : ℕ}
    (hs : (md.segment s).isSome = true) : (md'.segment s).isSome = true := by
  cases mv with
  | @put seg n hpc =>
      show (Function.update md.segment seg.seq (some seg.data) s).isSome = true
      rw [Function.update_apply]
      split
      · rfl
      · exact hs
  | _ => exact hs

/-- What the primary confirms it has sent. -/
lemma Move.primary_cases (mv : Move ev d md h c a c' md' h' ws) {s : ℕ} (hs : s ∈ h'.primary) :
    s ∈ h.primary ∨ ∃ seg, c.up.done = some seg ∧ seg.seq = s := by
  cases mv with
  | @confirm t now seg hpc =>
      rcases List.mem_append.mp hs with hs | hs
      · exact Or.inl hs
      · cases t with
        | primary =>
            have hpc' : c.up = .listed seg none := hpc
            exact Or.inr ⟨seg, by rw [hpc']; rfl, (List.mem_singleton.mp hs).symm⟩
        | second => exact absurd hs (by simp [primaryOf])
  | _ => exact Or.inl hs

end

/-! ### The invariant -/

/-- Without a session. -/
structure GapsDead (d : Option Folder) (md : Media) (h : History) : Prop where
  held : (recorded d).valid = true → ∀ s, (md.segment s).isSome = true →
    (recorded d).has .primary s = true
  gone : ∀ s ∈ h.gapped, md.segment s = none
  past : (recorded d).valid = true → ∀ s ∈ h.gapped,
    s < (recorded d).firstSeq ∨ (recorded d).has .primary s = true
  gaps : ∀ m, md.manifest = some m → ∀ s, m.InGaps s → s ∈ h.gapped
  primary : ∀ s ∈ h.primary, (md.segment s).isSome = true

/-- With a session: what the bucket holds is marked, or about to be; and what is
declared lost is not in the bucket, is not being sent, and is past being sent:
below the floor, or marked. -/
structure GapsUp (d : Option Folder) (md : Media) (h : History) (c : Core) : Prop where
  held : c.spool.dir.isSome → ∀ s, (md.segment s).isSome = true →
    c.spool.state.has .primary s = true ∨ ∃ seg, c.up.done = some seg ∧ seg.seq = s
  gone : ∀ s, Declared h c s → md.segment s = none
  past : c.spool.dir.isSome → ∀ s, Declared h c s →
    s < (recorded d).firstSeq ∨ (recorded d).has .primary s = true
  unsent : ∀ s, Declared h c s → ∀ seg, c.up.sent = some seg → seg.seq ≠ s
  fresh : ∀ seg, c.up.segment = some seg → c.spool.state.has .primary seg.seq = false
  gaps : Versions (fun m => ∀ s, m.InGaps s → s ∈ h.gapped) c md
  primary : ∀ s ∈ h.primary, (md.segment s).isSome = true

section

variable {ev : Event} {d : Option Folder} {md md' : Media} {h h' h'' : History} {c c' : Core}
  {a : Action} {ws : List Write}

/-- What is newly declared lost is not in the bucket. -/
lemma GapsUp.new_gone (hu : GapsUp d md h c) (hd : c.spool.dir.isSome) {s : ℕ}
    (hhas : c.spool.state.has .primary s = false)
    (hdone : ∀ seg, c.up.done = some seg → seg.seq ≠ s) : md.segment s = none := by
  by_contra hne
  rcases hu.held hd s (Option.isSome_iff_ne_none.mpr hne) with h1 | ⟨seg, h1, h2⟩
  · exact absurd (h1.symm.trans hhas) (by simp)
  · exact hdone seg h1 h2

/-- **What a move keeps**, when the disk cap takes nothing the primary has or is
sending. -/
lemma GapsUp.move (hu : GapsUp d md h c) (hl : LinkedUp d c) (hb : BackedUp ev d md h c)
    (mv : Move ev d md h c a c' md' h' ws) (hf : Follows h' ws h'')
    (hcap : ∀ data dur pts now e, a = .publishSegment data dur pts now none →
      c.spool.enqueue ev.sha256Hex now d (newSegment ev c.nextSeq data dur pts) = some e →
      ∀ s ∈ e.drops.map (·.seq), c.spool.state.has .primary s = false ∧ c.up.sends s = false) :
    GapsUp (applyWrites ws d) md' h'' c' := by
  have hcut : cutWrites ws.length ws d = applyWrites ws d := Lib.cut_of_length_le _ le_rfl d
  have hdecl : ∀ {s}, Declared h'' c' s → Declared h' c' s := fun hs =>
    hs.imp_left fun hg => hf.gapped ▸ hg
  have hsends : ∀ {s} {seg : SpooledSegment}, c.up.sends s = false → c.up.sent = some seg →
      seg.seq ≠ s := by
    intro s seg hno hsent hseq
    rw [UploadPc.sends, hsent] at hno
    simp [hseq] at hno
  -- a state saved by this move is recorded
  have hgrow : c'.spool.dir.isSome → (recorded d).firstSeq ≤ (recorded (applyWrites ws d)).firstSeq ∧
      ∀ s, (recorded d).has .primary s = true →
        (recorded (applyWrites ws d)).has .primary s = true := by
    intro hd
    rw [← hcut]
    refine hl.recorded_grows mv _ ?_
    rw [hcut]
    exact ((hl.move mv).linked hd).validDisk
  refine ⟨fun hd s hs => ?_, fun s hs => ?_, fun hd s hs => ?_, fun s hs seg hsent => ?_,
    fun seg hseg => ?_, ?_, fun s hs => ?_⟩
  · rcases mv.segment_cases s with hsame | ⟨seg, n, -, hpc, hseq⟩
    · rw [hsame] at hs
      rcases hu.held (mv.last_le hd).1 s hs with hhas | ⟨seg, hdone, rfl⟩
      · exact Or.inl ((hl.state_grows mv).2 s hhas)
      · rcases hl.done_stays mv hdone with h1 | h1
        · exact Or.inr ⟨seg, h1, rfl⟩
        · exact Or.inl h1
    · exact Or.inr ⟨seg, by rw [hpc]; rfl, hseq⟩
  · rcases mv.declared (hdecl hs) with hold | ⟨data, dur, pts, now, e, ha, he, -, rfl, -, hv⟩ |
      ⟨seg, n, hpc, rfl, -, rfl, -⟩
    · rcases mv.segment_cases s with hsame | ⟨seg, n, hpc, -, hseq⟩
      · rw [hsame]
        exact hu.gone s hold
      · exact absurd hseq (hu.unsent s hold seg (by rw [hpc]; rfl))
    · obtain ⟨hhas, hno⟩ := hcap data dur pts now e ha he s hv
      obtain ⟨vs, hq⟩ := SpoolQueue.enqueue_spec he
      exact hu.new_gone hq.dir hhas fun seg hdone => hsends hno (UploadPc.sent_of_done hdone)
    · refine hu.new_gone (hl.dir_of_hand (t := .primary) (by simp [Core.hand, hpc]))
        (hu.fresh seg (by rw [hpc]; rfl)) fun seg' hdone => ?_
      rw [hpc] at hdone
      exact absurd hdone (by simp [UploadPc.done])
  · rcases mv.declared (hdecl hs) with hold | ⟨data, dur, pts, now, e, ha, he, rfl, -, rfl, hv⟩ |
      ⟨seg, n, hpc, rfl, -, -, now, -, rfl, hsp⟩
    · obtain ⟨hfl, hhas⟩ := hgrow hd
      exact (hu.past (mv.last_le hd).1 s hold).imp (fun hlt => hlt.trans_le hfl) (hhas s)
    · obtain ⟨vs, hq⟩ := SpoolQueue.enqueue_spec he
      have hlink := hl.linked hq.dir
      rw [hq.recorded_all hlink.disk hlink.valid]
      exact Or.inl (hq.below s (hq.drops ▸ hv))
    · have hdir := hl.dir_of_hand (t := .primary) (by simp [Core.hand, hpc])
      have hlink := hl.linked hdir
      have hst := (SpoolQueue.confirm_spec now c.spool d seg.seq .primary hdir).1
      refine Or.inr ?_
      rw [((hl.move mv).linked hd).has_eq .primary, hsp, hst, SpoolQueue.has_iff]
      exact ⟨rfl, le_max_right _ _⟩
  · rcases mv.declared (hdecl hs) with hold | ⟨data, dur, pts, now, e, ha, he, rfl, -, rfl, hv⟩ |
      ⟨seg', n, -, -, hpc, -⟩
    · rcases mv.sent hsent with hsent | ⟨n, hpc, -, hfl⟩
      · exact hu.unsent s hold seg hsent
      · -- past the floor check, so neither below the floor nor marked
        rintro rfl
        have hdir := hl.dir_of_hand (t := .primary) (by simp [Core.hand, hpc])
        have hlink := hl.linked hdir
        rcases hu.past hdir seg.seq hold with hlt | hhas
        · have := hlink.floor
          rw [SpoolQueue.floor] at hfl
          omega
        · rw [hlink.has_eq .primary] at hhas
          exact absurd (hhas.symm.trans (hu.fresh seg (by rw [hpc]; rfl))) (by simp)
    · exact hsends (hcap data dur pts now e ha he s hv).2 hsent
    · rw [hpc] at hsent
      exact absurd hsent (by simp [UploadPc.sent])
  · by_contra hne
    rcases hl.has_cases mv (Bool.eq_true_of_not_eq_false hne) with hhas | ⟨-, -, -, -, hnone, -⟩
    · have hseg' : (c'.hand .primary).segment = some seg := hseg
      rcases mv.hand hseg' with hold | hp
      · exact absurd (hhas.symm.trans (hu.fresh seg hold)) (by simp)
      · exact absurd (hhas.symm.trans hp.new) (by simp)
    · exact absurd (hnone.symm.trans hseg) (by simp)
  · have hsub : ∀ s, s ∈ h.gapped → s ∈ h''.gapped := fun s hs => hf.gapped ▸ mv.gapped_subset hs
    refine mv.versions (hu.gaps.mono fun m hm s hs => hsub s (hm s hs)) fun s hs => ?_
    rcases mv.gaps hs with hold | hnew
    · exact hsub s (hu.gaps.manifest s hold)
    · exact hf.gapped ▸ hnew
  · rw [hf.primary] at hs
    rcases mv.primary_cases hs with hold | ⟨seg, hdone, rfl⟩
    · exact mv.segment_isSome (hu.primary s hold)
    · exact mv.segment_isSome (hb.stored _ _ (hb.done seg hdone))

/-- A crash between two moves, with nothing sent that is not marked. -/
lemma GapsUp.dead (hu : GapsUp d md h c) (hl : LinkedUp d c) (hdone : c.up.done = none) :
    GapsDead d md h := by
  refine ⟨fun hv s hs => ?_, fun s hs => hu.gone s (Or.inl hs),
    fun hv s hs => hu.past (hl.dir_of_valid hv) s (Or.inl hs), hu.gaps.store, hu.primary⟩
  have hdir := hl.dir_of_valid hv
  rw [(hl.linked hdir).has_eq .primary]
  rcases hu.held hdir s hs with hhas | ⟨seg, hseg, -⟩
  · exact hhas
  · exact absurd (hseg.symm.trans hdone) (by simp)

/-- A move that writes declares nothing lost yet. -/
lemma Move.gapped_eq (mv : Move ev d md h c a c' md' h' ws) (hws : ws ≠ []) :
    h'.gapped = h.gapped := by
  cases mv <;> first | rfl | exact absurd rfl hws

/-- A crash inside a move, with nothing sent that is not marked, or after the
mark of what was sent. -/
lemma GapsUp.cut (hu : GapsUp d md h c) (hl : LinkedUp d c) (hb : BackedUp ev d md h c)
    (mv : Move ev d md h c a c' md' h' ws) (hws : ws ≠ []) {k : ℕ} (hf : Follows h' (ws.take k) h'')
    (hdone : c.up.done = none ∨ 0 < k ∧ ∃ now, a = .confirm .primary now) :
    GapsDead (cutWrites k ws d) md h'' := by
  have hgapped : h''.gapped = h.gapped := hf.gapped.trans (mv.gapped_eq hws)
  have hdir : (recorded (cutWrites k ws d)).valid = true → c.spool.dir.isSome := by
    intro hv
    rcases hl.recorded_cut mv k with hrec | ⟨hd, -⟩ | hnone
    · exact hl.dir_of_valid (hrec ▸ hv)
    · exact hd
    · exact absurd hv (by simp [hnone])
  refine ⟨fun hv s hs => ?_, fun s hs => hu.gone s (Or.inl (hgapped ▸ hs)), fun hv s hs => ?_,
    fun m hm s hs => hgapped ▸ hu.gaps.store m hm s hs, fun s hs => ?_⟩
  · obtain ⟨-, hhas⟩ := hl.recorded_grows mv k hv
    have hlink := hl.linked (hdir hv)
    rcases hu.held (hdir hv) s hs with hm | ⟨seg, hseg, rfl⟩
    · exact hhas s (hlink.has_eq .primary s ▸ hm)
    · rcases hdone with hno | ⟨hk, now, rfl⟩
      · exact absurd (hseg.symm.trans hno) (by simp)
      · cases mv with
        | @confirm _ _ seg' hpc =>
            have hpc' : c.up = .listed seg' none := hpc
            obtain rfl : seg' = seg := by simpa [hpc', UploadPc.done] using hseg
            rw [SpoolQueue.recorded_confirm (hdir hv) hlink.disk hlink.valid hk, SpoolQueue.has_iff]
            exact ⟨rfl, le_max_right _ _⟩
        | quiet => exact absurd rfl hws
        | back _ => exact absurd rfl hws
  · obtain ⟨hfl, hhas⟩ := hl.recorded_grows mv k hv
    exact (hu.past (hdir hv) s (Or.inl (hgapped ▸ hs))).imp (fun hlt => hlt.trans_le hfl) (hhas s)
  · rw [hf.primary] at hs
    rcases mv.primary_cases hs with hold | ⟨seg, hd, rfl⟩
    · exact hu.primary s hold
    · exact hb.stored _ _ (hb.done seg hd)

end

/-- A folder with the same recorded floor and mark. -/
lemma GapsDead.of_disk {d d' : Option Folder} {md : Media} {h h' : History} (hd : GapsDead d md h)
    (hv : (recorded d').valid = (recorded d).valid)
    (hfl : (recorded d').firstSeq = (recorded d).firstSeq)
    (hany : (recorded d').any .primary = (recorded d).any .primary)
    (hmark : (recorded d').mark .primary = (recorded d).mark .primary)
    (hgap : h'.gapped = h.gapped) (hprim : h'.primary = h.primary) : GapsDead d' md h' := by
  have hhas : ∀ s, (recorded d').has .primary s = (recorded d).has .primary s := fun s => by
    rw [SpoolState.has, SpoolState.has, hany, hmark]
  constructor
  · intro h1 s hs
    rw [hhas]
    exact hd.held (hv ▸ h1) s hs
  · rw [hgap]
    exact hd.gone
  · intro h1 s hs
    rw [hfl, hhas]
    exact hd.past (hv ▸ h1) s (hgap ▸ hs)
  · rw [hgap]
    exact hd.gaps
  · rw [hprim]
    exact hd.primary

lemma GapsDead.empty (ev : Event) (d : Option Folder) : GapsDead d (Store.empty.media ev) {} where
  held _ s hs := absurd hs Bool.false_ne_true
  gone s hs := absurd hs (by simp)
  past _ s hs := absurd hs (by simp)
  gaps m hm := absurd hm (Option.not_mem_none m)
  primary s hs := absurd hs (by simp)

/-- A session just begun declares nothing that was not declared. -/
lemma GapsUp.begun {d : Option Folder} {md : Media} {h : History} {q : SpoolQueue} {n : ℕ}
    {m : Manifest} (hd : GapsDead d md h) (hv : (recorded d).valid = true)
    (hhas : ∀ s, q.state.has .primary s = (recorded d).has .primary s)
    (hm : ∀ s, m.InGaps s → s ∈ h.gapped) : GapsUp d md h (Core.begun q n m) := by
  have hdecl : ∀ {s}, Declared h (Core.begun q n m) s → s ∈ h.gapped := by
    rintro s (hs | hs | hs)
    · exact hs
    · exact absurd hs (by simp [Core.begun])
    · exact absurd hs (by simp [Core.begun])
  refine ⟨fun _ s hs => Or.inl ?_, fun s hs => hd.gone s (hdecl hs), fun _ s hs => hd.past hv s (hdecl hs),
    fun s _ seg hsent => ?_, fun seg hseg => ?_, .begun hm hd.gaps, hd.primary⟩
  · show q.state.has .primary s = true
    rw [hhas]
    exact hd.held hv s hs
  · exact absurd hsent (by simp [Core.begun, UploadPc.sent])
  · exact absurd hseg (by simp [Core.begun, UploadPc.segment])

lemma marked_done {w : World} {p : Proc} (hm : w.machine = .up p) (h : w.marked = true) :
    p.core.up.done = none := by
  have hdone : p.up.pc.done = none := by simpa [World.marked, hm] using h
  exact hdone

lemma gaps_invariant (ev : Event) :
    Invariant ev (fun w a => dropsUnsent ev w a = true)
      (fun w => ∀ p, w.machine = .up p →
        LinkedUp w.disk p.core ∧ BackedUp ev w.disk (w.store.media ev) w.hist p.core)
      GapsDead GapsUp where
  init := .empty ev none
  same hs h := h.of_disk (by rw [hs.recorded]) (by rw [hs.recorded]) (by rw [hs.recorded])
    (by rw [hs.recorded]) rfl rfl
  sameUp hs h := { h with past := by rw [hs.recorded]; exact h.past }
  opens k hd ho hf := by
    obtain ⟨n, hrec⟩ := ho.recorded_cut k
    exact hd.of_disk (by rw [hrec]) (by rw [hrec]) (by rw [hrec]; rfl) (by rw [hrec]; rfl) hf.gapped
      hf.primary
  starts k _ := .empty ev _
  startsUp hq hseed := by
    refine .begun (.empty ev _) rfl (fun s => rfl) fun s hs => ?_
    have hs' : Manifest.InRanges _ s := hs
    rw [hseed.gaps] at hs'
    obtain ⟨g, hg, -⟩ := hs'
    exact absurd hg (by simp)
  resumes k hd hr := by
    obtain ⟨b, now, hrec⟩ := hr.recorded_cut k
    exact hd.of_disk (by rw [hrec]) (by rw [hrec]) (by rw [hrec]; rfl) (by rw [hrec]; rfl) rfl rfl
  resumesUp := by
    intro w args reads puts now r m _ _ hd hr hseed
    obtain ⟨b, now', hrec⟩ := hr.recorded_cut 1
    have hrec' : recorded (applyWrites [.state r.state] w.disk) =
        { recorded w.disk with ended := b, lastActivityMs := now' } := hrec
    obtain ⟨now'', hst⟩ := hr.state
    refine .begun (hd.of_disk (by rw [hrec']) (by rw [hrec']) (by rw [hrec']; rfl)
      (by rw [hrec']; rfl) rfl rfl) (by rw [hrec']; exact hr.valid) (fun s => ?_) fun s hs => ?_
    · rw [hrec', hst]
      rfl
    · have hs' : Manifest.InRanges m.gaps s := hs
      rw [hseed.gaps] at hs'
      cases hx : continued ev (w.store.manifest ev.id) reads with
      | none =>
          rw [hx] at hs'
          obtain ⟨g, hg, -⟩ := hs'
          exact absurd hg (by simp)
      | some x =>
          rw [hx] at hs'
          refine hd.gaps x ?_ s hs'
          rw [continued] at hx
          split at hx
          · exact (Option.filter_eq_some_iff.mp hx).1
          · exact absurd hx (by simp)
  moves := by
    intro w p a c md h ws h' hB hm hc hu mv hf
    refine hu.move (hB p hm).1 (hB p hm).2 mv hf ?_
    rintro data dur pts now e rfl he s hs
    have he' : p.spool.enqueue ev.sha256Hex now w.disk (newSegment ev p.nextSeq data dur pts) =
        some e := he
    simp only [dropsUnsent, hm, he', Option.all_some, List.all_eq_true] at hc
    obtain ⟨dr, hdr, rfl⟩ := List.mem_map.mp hs
    have hno : p.spool.state.has .primary dr.seq = false ∧ p.up.pc.sends dr.seq = false := by
      simpa using hc dr hdr
    exact hno
  crash := by
    intro w p hB hm hc hu
    exact hu.dead (hB p hm).1 (marked_done hm hc)
  cuts := by
    intro w p a k e c md h h' hB hm hc _ hws hu mv hf
    refine hu.cut (hB p hm).1 (hB p hm).2 mv hws hf ?_
    by_cases ha : ∃ now, a = .confirm .primary now
    · obtain ⟨now, rfl⟩ := ha
      simp only [dropsUnsent, Bool.or_eq_true, decide_eq_true_eq] at hc
      exact hc.imp (marked_done hm) fun hk => ⟨hk, now, rfl⟩
    · refine Or.inl (marked_done hm ?_)
      unfold dropsUnsent at hc
      split at hc <;> simp_all

/-! ### The result -/

/-- **A gap is a real gap.**  In a run whose disk cap takes nothing the primary
has or is sending, and without a crash between a PUT and its mark, no number is
in the gaps and in the bucket, none is listed and in the gaps, and none that the
primary has confirmed is ever passed to `add_gap`. -/
theorem gap_real (ev : Event) {w : World} (h : ReachedBy ev (dropsUnsent ev) w) :
    GapsReal ev w := by
  have hinv := (gaps_invariant ev).reach (fun h _ hm =>
    ⟨linked_of_reach h hm, (Holds.of_up hm).mp (backed_of_reach h)⟩) h
  have hheld : ∀ p, w.machine = .up p → ∀ s, p.manifest.InGaps s →
      w.store.segment ev.id s = none := by
    intro p hm s hs
    have hu := (Holds.of_up hm).mp hinv
    exact hu.gone s (Or.inl (hu.gaps.manifest s hs))
  refine ⟨hheld, fun p hm e he hgap => ?_, fun s hs hp => ?_⟩
  · have hb := (Holds.of_up hm).mp (backed_of_reach h)
    obtain ⟨b, hacked, -⟩ := hb.versions.manifest.segments e he
    have hst : (w.store.segment ev.id e.seq).isSome = true := hb.stored e.seq b hacked
    rw [hheld p hm e.seq hgap] at hst
    exact absurd hst (by simp)
  · have hboth : (w.store.media ev).segment s = none ∧
        ((w.store.media ev).segment s).isSome = true := by
      rw [Holds] at hinv
      split at hinv
      · exact ⟨hinv.gone s (Or.inl hs), hinv.primary s hp⟩
      · exact ⟨hinv.gone s hs, hinv.primary s hp⟩
    rw [hboth.1] at hboth
    exact absurd hboth.2 (by simp)

/-- The first segment makes room for the second before it is peeked, and the
second is uploaded. -/
def droppedUnsent : List Action :=
  [Action.openSession { maxSpoolBytes := 1 }, .startNew {} {} 0, .flushBegin, .publishLive true 0,
    .publishSegment [1] 6 0 1 none, .publishSegment [2] 6 6 1 none, .onDropped] ++
    uploadOne

theorem gap_real_unsent :
    ∃ (w : World) (p : Proc), w.machine = .up p ∧ p.manifest.gaps = [(0, 0)] ∧
      p.manifest.segments.map (·.seq) = [1] ∧ GapsReal sampleEvent w := by
  obtain ⟨w, hw, hup⟩ : ∃ w, ReachedBy sampleEvent (dropsUnsent sampleEvent) w ∧
      (w.upWith fun p _ => decide (p.manifest.gaps = [(0, 0)]) &&
        decide (p.manifest.segments.map (·.seq) = [1])) = true :=
    Lib.exists_reach_guarded {} droppedUnsent rfl (by decide +kernel)
  obtain ⟨p, hm, hp⟩ := exists_of_upWith hup
  simp only [Bool.and_eq_true, decide_eq_true_eq] at hp
  exact ⟨w, p, hm, hp.1, hp.2, gap_real sampleEvent hw⟩

/-- With a mirror: the primary has confirmed the first segment, whose file waits
for the mirror when the second one needs its room. -/
def droppedHeld : List Action :=
  [Action.openSession { mirror := true, maxSpoolBytes := 1 }, .startNew {} {} 0, .flushBegin,
    .publishLive true 0, .publishSegment [1] 6 0 1 none] ++ uploadOne ++
    [Action.publishSegment [2] 6 6 1 none, .onDropped]

/-- Segment 0 is confirmed, listed and in the bucket, and it is a gap. -/
theorem gap_held : ∃ w, Reached sampleEvent w ∧ ¬GapsReal sampleEvent w := by
  obtain ⟨w, hw, hgap, hprim⟩ : ∃ w, Reached sampleEvent w ∧ w.hist.gapped = [0] ∧
      w.hist.primary = [0] :=
    Lib.exists_reach {} droppedHeld rfl (by decide +kernel)
  exact ⟨w, hw, fun h => h.confirmed 0 (by simp [hgap]) (by simp [hprim])⟩

end Multisite

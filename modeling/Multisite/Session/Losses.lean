import Multisite.Session.Link

/-!
No segment is lost without being said.

A number the session has passed is readable in the spool, confirmed into the
primary bucket, or in the gaps of the manifest.  Gaps are kept in memory until
some later manifest lands, a number is taken before the `enqueue` that can
throw, and `resume` rebuilds the manifest from the bucket.

* `lost_unsaid`: a run with an eviction and a crash after which a resumed session
  knows nothing of the segment;
* `lost_said`: with no failed write, no crash while a gap is known to the process
  only, and a `resume` that reads the stored manifest and has its first segment,
  nothing is lost unsaid.
-/

namespace Multisite

/-- The session says of `s` that it is lost: a gap of the manifest it holds, or a
drop or a skip it is about to add to it. -/
def Core.Says (c : Core) (s : ℕ) : Prop :=
  c.manifest.InGaps s ∨ s ∈ c.dropping ∨ c.up = .skipping s

/-- What must hold of every number a session has passed. -/
def NoneLost (ev : Event) (w : World) : Prop :=
  ∀ p, w.machine = .up p → ∀ s, ev.firstSeq ≤ s → s < p.nextSeq →
    Readable w.disk s ∨ s ∈ w.hist.primary ∨ p.core.Says s

/-! ### The steps that say before they lose -/

/-- Every range of `gs` lies in one of `gs'`. -/
def rangesWithin (gs gs' : List (ℕ × ℕ)) : Bool :=
  gs.all fun g => gs'.any fun g' => decide (g'.1 ≤ g.1) && decide (g.2 ≤ g'.2)

/-- What the session says is in the stored manifest too. -/
def toldAll (ev : Event) (w : World) : Bool :=
  match w.machine with
  | .up p =>
      p.dropping.isEmpty && (match p.up.pc with | .skipping _ => false | _ => true) &&
        rangesWithin p.manifest.gaps (((w.store.manifest ev.id).map (·.gaps)).getD [])
  | _ => true

/-- The first `k` writes of an action evict nothing, and skip nothing. -/
def losesNothing (ev : Event) (w : World) (a : Action) (k : ℕ) : Bool :=
  match w.machine, a with
  | .up p, .publishSegment data dur pts now _ =>
      decide (k ≤ 2) || ((p.spool.enqueue ev.sha256Hex now w.disk
        (newSegment ev p.nextSeq data dur pts)).all fun e => e.drops.isEmpty)
  | _, .skip .primary _ => decide (k = 0)
  | _, _ => true

/-- The steps that say before they lose: no write of the spool fails; a crash
finds every gap in the stored manifest, and comes neither after an eviction of
the `enqueue` under way nor inside the skip of a damaged segment; `resume` reads
the stored manifest when there is one, and goes on from 0 only when segment 0 is
there. -/
def saysFirst (ev : Event) (w : World) : Action → Bool
  | .crash => toldAll ev w
  | .crashIn a k => noFault a && toldAll ev w && losesNothing ev w a k
  | .resume _ reads _ _ =>
      (reads.manifest || (w.store.manifest ev.id).isNone) &&
        (decide (0 < ev.firstSeq) || decide (0 < (recorded w.disk).lastEnqueued) ||
          (recorded w.disk).anyConfirmed || decide (Readable w.disk 0))
  | a => noFault a

lemma saysFirst_noFault {ev : Event} {w : World} {a : Action} (h : saysFirst ev w a = true) :
    noFault a = true := by
  cases a with
  | crashIn a k =>
      simp only [saysFirst, Bool.and_eq_true] at h
      exact h.1.1
  | resume args reads puts now => rfl
  | crash => rfl
  | _ => exact h

lemma inRanges_within {gs gs' : List (ℕ × ℕ)} (h : rangesWithin gs gs' = true) {s : ℕ}
    (hs : Manifest.InRanges gs s) : Manifest.InRanges gs' s := by
  obtain ⟨g, hg, h1, h2⟩ := hs
  rw [rangesWithin, List.all_eq_true] at h
  have hg' := h g hg
  rw [List.any_eq_true] at hg'
  obtain ⟨g', hmem, hle⟩ := hg'
  simp only [Bool.and_eq_true, decide_eq_true_eq] at hle
  exact ⟨g', hmem, hle.1.trans h1, h2.trans hle.2⟩

/-! ### What is said stays said -/

/-- The primary has confirmed `s`, or the session says it is lost. -/
def Core.Answers (c : Core) (h : History) (s : ℕ) : Prop := s ∈ h.primary ∨ c.Says s

/-- The primary has confirmed `s`, or the stored manifest says it is lost. -/
def Answered (h : History) (md : Media) (s : ℕ) : Prop :=
  s ∈ h.primary ∨ ∃ m, md.manifest = some m ∧ m.InGaps s

section

variable {ev : Event} {d : Option Folder} {md md' : Media} {h h' h'' : History} {c c' : Core}
  {a : Action} {ws : List Write}

/-- Confirmations are not forgotten. -/
lemma Move.primary_subset (mv : Move ev d md h c a c' md' h' ws) : h.primary ⊆ h'.primary := by
  cases mv <;> first | exact fun x hx => hx | exact List.subset_append_left _ _

/-- **What is said stays said**: a drop or a skip becomes a gap, and gaps stay. -/
lemma Move.says (mv : Move ev d md h c a c' md' h' ws) {s : ℕ} (hs : c.Says s) : c'.Says s := by
  -- a move of a hand that is not skipping
  have hand : ∀ {c₁ : Core} {t : Target} {pc : UploadPc}, c₁.manifest.gaps = c.manifest.gaps →
      c₁.dropping = c.dropping → c₁.up = c.up → (t = .primary → ∀ x, c.up ≠ .skipping x) →
      (c₁.withHand t pc).Says s := by
    intro c₁ t pc h1 h2 h3 h4
    rcases hs with hs | hs | hs
    · exact Or.inl (by rw [Core.manifest_withHand, Manifest.InGaps, h1]; exact hs)
    · exact Or.inr (Or.inl (by rw [Core.dropping_withHand, h2]; exact hs))
    · cases t with
      | primary => exact absurd hs (h4 rfl s)
      | second => exact Or.inr (Or.inr (h3.trans hs))
  cases mv with
  | @back _ t _ hpc =>
      refine hand rfl rfl rfl ?_
      rintro rfl x hx
      have hback : c.up.Back _ := hpc
      rw [hx] at hback
      cases hback
  | @take t _ hpc _ =>
      refine hand rfl rfl rfl ?_
      rintro rfl x hx
      exact absurd (hx.symm.trans hpc) (by simp)
  | @pass t _ _ hpc _ _ =>
      refine hand rfl rfl rfl ?_
      rintro rfl x hx
      exact absurd (hx.symm.trans hpc) (by simp)
  | put hpc => exact hand rfl rfl rfl fun _ x hx => absurd (hx.symm.trans hpc) (by simp)
  | putSecond _ => exact hand rfl rfl rfl (by simp)
  | list hpc hm =>
      subst hm
      refine hand ?_ rfl rfl fun _ x hx => absurd (hx.symm.trans hpc) (by simp)
      exact Manifest.gaps_push _ _ _
  | @confirm t _ _ hpc =>
      refine hand rfl rfl rfl ?_
      rintro rfl x hx
      have hpc' : c.up = _ := hpc
      exact absurd (hx.symm.trans hpc') (by simp)
  | @skip t _ _ _ _ hpc =>
      refine hand rfl rfl rfl ?_
      rintro rfl x hx
      exact absurd (hx.symm.trans hpc) (by simp)
  | @skipped seq hpc =>
      have hpc' : c.up = .skipping seq := hpc
      rcases hs with hs | hs | hs
      · exact Or.inl ((Manifest.inGaps_addGap _ _ _).mpr (Or.inr hs))
      · exact Or.inr (Or.inl hs)
      · obtain rfl : seq = s := by simpa using hpc'.symm.trans hs
        exact Or.inl ((Manifest.inGaps_addGap _ _ _).mpr (Or.inl rfl))
  | publish hdrop _ =>
      rcases hs with hs | hs | hs
      · exact Or.inl hs
      · exact absurd hs (by simp [hdrop])
      · exact Or.inr (Or.inr hs)
  | @dropped v rest hpc =>
      rcases hs with hs | hs | hs
      · exact Or.inl ((Manifest.inGaps_addGap _ _ _).mpr (Or.inr hs))
      · rw [hpc] at hs
        rcases List.mem_cons.mp hs with rfl | hs
        · exact Or.inl ((Manifest.inGaps_addGap _ _ _).mpr (Or.inl rfl))
        · exact Or.inr (Or.inl hs)
      · exact Or.inr (Or.inr hs)
  | ended hm =>
      subst hm
      exact hs
  | _ => exact hs

lemma Move.answers (mv : Move ev d md h c a c' md' h' ws) (hf : h''.primary = h'.primary) {s : ℕ}
    (hs : c.Answers h s) : c'.Answers h'' s :=
  hs.imp (fun hp => hf ▸ mv.primary_subset hp) mv.says

end

/-! ### The invariant -/

/-- Without a session. -/
structure SaidDead (ev : Event) (d : Option Folder) (md : Media) (h : History) : Prop where
  lost : (recorded d).valid = true → 0 < (recorded d).lastEnqueued → ∀ s, ev.firstSeq ≤ s →
    s ≤ (recorded d).lastEnqueued → Readable d s ∨ Answered h md s
  had : (recorded d).valid = true → ∀ s, ev.firstSeq ≤ s → (recorded d).has .primary s = true →
    Answered h md s
  fresh : (recorded d).valid = true → (recorded d).any .primary = false →
    (recorded d).mark .primary = ev.firstSeq - 1
  segs : (recorded d).valid = true → ∀ s, HasSeg d s → s ≤ (recorded d).lastEnqueued + 1
  ids : ∀ m, md.manifest = some m → m.eventId = ev.id

/-- With a session: a number below the next is readable or answered for, and so
is, at once, every number the mark has, and every number below the one in hand. -/
structure SaidUp (ev : Event) (d : Option Folder) (md : Media) (h : History) (c : Core) : Prop where
  lost : ∀ s, ev.firstSeq ≤ s → s < c.nextSeq → Readable d s ∨ c.Answers h s
  had : c.spool.dir.isSome → ∀ s, ev.firstSeq ≤ s → c.spool.state.has .primary s = true →
    c.Answers h s
  hand : ∀ seg, c.up.segment = some seg → ∀ s, ev.firstSeq ≤ s → s < seg.seq → c.Answers h s
  fresh : c.spool.dir.isSome → c.spool.state.any .primary = false →
    c.spool.state.mark .primary = ev.firstSeq - 1
  segs : ∀ s, HasSeg d s → s ≤ c.nextSeq
  next : c.spool.dir.isSome → c.nextSeq ≤ c.spool.state.lastEnqueued + 1
  ids : Versions (fun m => m.eventId = ev.id) c md

section

variable {ev : Event} {d : Option Folder} {md md' : Media} {h h' h'' : History} {c c' : Core}
  {a : Action} {ws : List Write}

/-- The mark of a queue that has confirmed nothing stays where it began. -/
lemma LinkedUp.fresh_move (hl : LinkedUp d c) (mv : Move ev d md h c a c' md' h' ws)
    (hany : c'.spool.state.any .primary = false) :
    c.spool.state.any .primary = false ∧ c'.spool.state.mark .primary = c.spool.state.mark .primary := by
  have hconf : ∀ {t now seq}, c.hand t ≠ .idle →
      (c.spool.confirm now d seq t).1.state.any .primary = false →
      c.spool.state.any .primary = false ∧ (c.spool.confirm now d seq t).1.state.mark .primary =
        c.spool.state.mark .primary := by
    intro t now seq ht hno
    have hst := (SpoolQueue.confirm_spec now c.spool d seq t (hl.dir_of_hand ht)).1
    rw [hst] at hno ⊢
    cases t with
    | primary => exact absurd hno (by simp [SpoolQueue.confirmed_eq])
    | second => exact ⟨hno, rfl⟩
  cases mv with
  | confirm hpc =>
      rw [Core.spool_withHand] at hany ⊢
      exact hconf (LinkedUp.confirms_ne_idle hpc) hany
  | skip _ hpc =>
      rw [Core.spool_withHand] at hany ⊢
      exact hconf (by simp [hpc]) hany
  | publish _ he =>
      obtain ⟨vs, hq⟩ := SpoolQueue.enqueue_spec he
      exact ⟨(hq.any .primary).symm.trans hany, hq.mark .primary⟩
  | fault _ he hq =>
      obtain ⟨vs, hq'⟩ := SpoolQueue.enqueue_spec he
      rcases hq with ⟨-, rfl⟩ | ⟨-, rfl⟩
      · exact ⟨hany, rfl⟩
      · exact ⟨(hq'.any .primary).symm.trans hany, hq'.mark .primary⟩
  | remove _ _ =>
      rw [SpoolQueue.removeIfDone] at hany ⊢
      split at hany
      · rename_i hn
        rw [if_pos hn]
        exact ⟨hany, rfl⟩
      · rename_i hn
        rw [if_neg hn]
        exact ⟨hany, rfl⟩
  | mark => exact ⟨hany, rfl⟩
  | back _ => exact ⟨by simpa using hany, by simp⟩
  | take _ _ => exact ⟨by simpa using hany, by simp⟩
  | pass _ _ _ => exact ⟨by simpa using hany, by simp⟩
  | _ => exact ⟨hany, rfl⟩

/-- A number the mark comes to have is answered for, unless the segment in hand
is being skipped in this very move. -/
lemma SaidUp.had_move (hu : SaidUp ev d md h c) (hl : LinkedUp d c)
    (mv : Move ev d md h c a c' md' h' ws) {s : ℕ} (hfirst : ev.firstSeq ≤ s)
    (hd : c.spool.dir.isSome) (hs : c'.spool.state.has .primary s = true) :
    c.Answers h s ∨ s ∈ h'.primary ∨ c'.up = .skipping s ∧ ∃ now, a = .skip .primary now := by
  rcases hl.has_cases mv hs with hold | ⟨seg, hseg, hany, hmax, -, hnew⟩
  · exact Or.inl (hu.had hd s hfirst hold)
  · have hle : s ≤ seg.seq := by
      cases hb : c.spool.state.any .primary with
      | true => exact hany hb
      | false =>
          rw [hu.fresh hd hb] at hmax
          omega
    rcases hle.lt_or_eq with hlt | rfl
    · exact Or.inl (hu.hand seg hseg s hfirst hlt)
    · exact Or.inr hnew

/-- **What a move keeps**, when no write fails. -/
lemma SaidUp.move (hu : SaidUp ev d md h c) (hl : LinkedUp d c) (ha : noFault a = true)
    (mv : Move ev d md h c a c' md' h' ws) (hf : Follows h' ws h'') :
    SaidUp ev (applyWrites ws d) md' h'' c' := by
  have hans : ∀ {s}, c.Answers h s → c'.Answers h'' s := mv.answers hf.primary
  have hcut : cutWrites (ws.length + 3) ws d = applyWrites ws d :=
    Lib.cut_of_length_le _ (Nat.le_add_right _ _) d
  have hhad : c'.spool.dir.isSome ∨ c.spool.dir.isSome → ∀ s, ev.firstSeq ≤ s →
      c'.spool.state.has .primary s = true → c'.Answers h'' s := by
    intro hd s hfirst hs
    have hd' : c.spool.dir.isSome := hd.elim (fun hd => (mv.last_le hd).1) id
    rcases hu.had_move hl mv hfirst hd' hs with hold | hp | ⟨hskip, -⟩
    · exact hans hold
    · exact Or.inl (hf.primary ▸ hp)
    · exact Or.inr (Or.inr (Or.inr hskip))
  -- what is no longer readable is answered for
  have hread : ∀ s, ev.firstSeq ≤ s → Readable d s →
      Readable (applyWrites ws d) s ∨ c'.Answers h'' s := by
    intro s hfirst hs
    rw [← hcut]
    rcases hl.unread mv ha (ws.length + 3) hs with hr | ⟨hhas, -⟩ | ⟨_, _, _, _, _, -, -, -, hv, -⟩
    · exact Or.inl hr
    · have hdir : c.spool.dir.isSome := by
        by_contra hn
        rw [hl.noFolder (Option.not_isSome_iff_eq_none.mp hn)] at hs
        exact absurd hs.1 (not_hasSeg_none s)
      exact Or.inr (hhad (Or.inr hdir) s hfirst hhas)
    · exact Or.inr (Or.inr (Or.inr (Or.inl hv)))
  have hids : c'.manifest.eventId = ev.id := mv.eventId_eq.trans hu.ids.manifest
  refine ⟨fun s hfirst hs => ?_, fun hd => hhad (Or.inl hd), fun seg hseg s hfirst hs => ?_,
    fun hd hany => ?_, fun s hs => ?_, fun hd => ?_, mv.versions hu.ids hids⟩
  · rcases mv.still_or_publish ha with ⟨-, hnext, -⟩ | ⟨seg, e, vs, -, hseq, hq, -, rfl, -, -, rfl⟩
    · rcases hu.lost s hfirst (hnext ▸ hs) with hr | ho
      · exact hread s hfirst hr
      · exact Or.inr (hans ho)
    · have hs' : s < c.nextSeq + 1 := hs
      rcases Nat.lt_succ_iff_lt_or_eq.mp hs' with hlt | rfl
      · rcases hu.lost s hfirst hlt with hr | ho
        · exact hread s hfirst hr
        · exact Or.inr (hans ho)
      · refine Or.inl ?_
        rw [← hcut, ← hseq]
        exact hq.readable_new (hl.linked hq.dir).disk (by omega)
  · have hseg' : (c'.hand .primary).segment = some seg := hseg
    rcases mv.hand hseg' with hold | hp
    · exact hans (hu.hand seg hold s hfirst hs)
    · -- the segment was just peeked: what is readable below it, the mark has
      have hnext := hu.segs _ hp.hasSeg
      rcases hu.lost s hfirst (by omega) with hr | ho
      · exact hans (hu.had hp.dir s hfirst (hp.lowest s hs hr))
      · exact hans ho
  · obtain ⟨hold, hmark⟩ := hl.fresh_move mv hany
    rw [hmark]
    exact hu.fresh (mv.last_le hd).1 hold
  · rcases mv.still_or_publish ha with ⟨hno, hnext, -⟩ | ⟨seg, e, vs, -, hseq, hq, -, rfl, -, -, rfl⟩
    · rcases hasSeg_applyWrites hs with hold | ⟨b, hb⟩
      · exact hnext ▸ hu.segs s hold
      · exact absurd (hno _ hb) (by simp [Write.addsFile])
    · rw [← hcut] at hs
      show s ≤ c.nextSeq + 1
      rcases hq.hasSeg_cut hs with hold | rfl
      · exact (hu.segs s hold).trans (Nat.le_succ _)
      · omega
  · rcases mv.still_or_publish ha with ⟨-, hnext, hlast⟩ | ⟨seg, e, vs, -, hseq, hq, -, rfl, -, -, rfl⟩
    · rw [hnext, hlast]
      exact hu.next (mv.last_le hd).1
    · show c.nextSeq + 1 ≤ e.queue.state.lastEnqueued + 1
      rw [hq.last, hseq]
      omega

/-- A crash between two moves, when all that is said is stored. -/
lemma SaidUp.dead (hu : SaidUp ev d md h c) (hl : LinkedUp d c) (hsaved : Saved d c)
    (htold : ∀ s, c.Says s → ∃ m, md.manifest = some m ∧ m.InGaps s) : SaidDead ev d md h := by
  have hans : ∀ {s}, c.Answers h s → Answered h md s := fun hs => hs.imp id (htold _)
  refine ⟨fun hv hpos s hfirst hs => ?_, fun hv s hfirst hs => ?_, fun hv hany => ?_,
    fun hv s hs => ?_, hu.ids.store⟩ <;> have hdir := hl.dir_of_valid hv
  · have hnext := (hl.linked hdir).next
    rw [hsaved hdir] at hpos hs
    exact (hu.lost s hfirst (by omega)).imp_right hans
  · rw [hsaved hdir] at hs
    exact hans (hu.had hdir s hfirst hs)
  · rw [hsaved hdir] at hany ⊢
    exact hu.fresh hdir hany
  · have hnext := hu.next hdir
    rw [hsaved hdir]
    exact (hu.segs s hs).trans hnext

/-- A crash inside a move, which evicts and skips nothing. -/
lemma SaidUp.cut (hu : SaidUp ev d md h c) (hl : LinkedUp d c) (hsaved : Saved d c)
    (htold : ∀ s, c.Says s → ∃ m, md.manifest = some m ∧ m.InGaps s) (ha : noFault a = true)
    (mv : Move ev d md h c a c' md' h' ws) {k : ℕ} (hf : Follows h' (ws.take k) h'')
    (hkeep : ∀ data dur pts now e, a = .publishSegment data dur pts now none →
      c.spool.enqueue ev.sha256Hex now d (newSegment ev c.nextSeq data dur pts) = some e →
      2 < k → e.drops = [])
    (hskip : ∀ now, a = .skip .primary now → k = 0) : SaidDead ev (cutWrites k ws d) md h'' := by
  have hold : ∀ {s}, c.Answers h s → Answered h'' md s := fun hs =>
    hs.imp (fun hp => hf.primary ▸ mv.primary_subset hp) (htold _)
  have hhad : 0 < k → c.spool.dir.isSome → ∀ s, ev.firstSeq ≤ s →
      c'.spool.state.has .primary s = true → Answered h'' md s := by
    intro hk hd s hfirst hs
    rcases hu.had_move hl mv hfirst hd hs with ho | hp | ⟨-, now, rfl⟩
    · exact hold ho
    · exact Or.inl (hf.primary ▸ hp)
    · exact absurd (hskip now rfl) hk.ne'
  have hread : ∀ s, ev.firstSeq ≤ s → c.spool.dir.isSome → Readable d s →
      Readable (cutWrites k ws d) s ∨ Answered h'' md s := by
    intro s hfirst hd hs
    rcases hl.unread mv ha k hs with hr | ⟨hhas, hk⟩ | ⟨data, dur, pts, now, e, rfl, he, hdr, hv, hk⟩
    · exact Or.inl hr
    · exact Or.inr (hhad hk hd s hfirst hhas)
    · rw [hdr, hkeep data dur pts now e rfl he hk] at hv
      exact absurd hv (by simp)
  have hsegs : ∀ s, HasSeg (cutWrites k ws d) s → s ≤ c.nextSeq := by
    intro s hs
    rcases mv.still_or_publish ha with ⟨hno, -, -⟩ | ⟨seg, e, vs, -, hseq, hq, -, rfl, -, -, rfl⟩
    · rcases hasSeg_applyWrites hs with ho | ⟨b, hb⟩
      · exact hu.segs s ho
      · exact absurd (hno _ (List.mem_of_mem_take hb)) (by simp [Write.addsFile])
    · rcases hq.hasSeg_cut hs with ho | rfl
      · exact hu.segs s ho
      · exact hseq.le
  -- recorded is the state before the move, or the one after it
  have hcase : (recorded (cutWrites k ws d)).valid = true → c.spool.dir.isSome ∧
      (recorded (cutWrites k ws d) = c.spool.state ∨
        0 < k ∧ recorded (cutWrites k ws d) = c'.spool.state) := by
    intro hv
    rcases hl.recorded_cut mv k with hrec | ⟨hd, hrec⟩ | hnone
    · rw [hrec] at hv
      have hd := hl.dir_of_valid hv
      exact ⟨hd, Or.inl (hrec.trans (hsaved hd))⟩
    · rcases Nat.eq_zero_or_pos k with rfl | hk
      · exact ⟨hd, Or.inl (hsaved hd)⟩
      · exact ⟨hd, Or.inr ⟨hk, hrec⟩⟩
    · exact absurd hv (by simp [hnone])
  refine ⟨fun hv hpos s hfirst hs => ?_, fun hv s hfirst hs => ?_, fun hv hany => ?_,
    fun hv s hs => ?_, hu.ids.store⟩ <;> obtain ⟨hd, hrec⟩ := hcase hv
  · have hbelow : s < c.nextSeq → Readable (cutWrites k ws d) s ∨ Answered h'' md s := fun hlt =>
      (hu.lost s hfirst hlt).elim (hread s hfirst hd) fun ho => Or.inr (hold ho)
    have hnext := (hl.linked hd).next
    rcases hrec with hrec | ⟨hk, hrec⟩ <;> rw [hrec] at hpos hs
    · exact hbelow (by omega)
    · rcases mv.still_or_publish ha with ⟨-, -, hlast⟩ | ⟨seg, e, vs, -, hseq, hq, -, rfl, -, -, rfl⟩
      · exact hbelow (by omega)
      · have hs' : s ≤ e.queue.state.lastEnqueued := hs
        have hpos' : 0 < e.queue.state.lastEnqueued := hpos
        rw [hq.last, hseq, (hl.linked hd).last_max] at hs' hpos'
        rcases hs'.lt_or_eq with hlt | rfl
        · exact hbelow hlt
        · -- the state is saved last, so both files of the new segment are there
          by_cases h2 : 2 ≤ k
          · exact Or.inl (hseq ▸ hq.readable_new (hl.linked hd).disk h2)
          · have hlen := hq.length
            have hsame : recorded (cutWrites k e.writes d) = recorded d := hq.recorded_cut (by omega)
            have hlast : e.queue.state.lastEnqueued = c.spool.state.lastEnqueued := by
              rw [← hsaved hd, ← hsame, hrec]
            rw [hq.last, hseq, (hl.linked hd).last_max] at hlast
            omega
  · rcases hrec with hrec | ⟨hk, hrec⟩ <;> rw [hrec] at hs
    · exact hold (hu.had hd s hfirst hs)
    · exact hhad hk hd s hfirst hs
  · rcases hrec with hrec | ⟨hk, hrec⟩ <;> rw [hrec] at hany ⊢
    · exact hu.fresh hd hany
    · obtain ⟨ho, hmark⟩ := hl.fresh_move mv hany
      rw [hmark]
      exact hu.fresh hd ho
  · have hnext := hu.next hd
    have hle := hsegs s hs
    rcases hrec with hrec | ⟨hk, hrec⟩ <;> rw [hrec]
    · omega
    · rcases mv.still_or_publish ha with ⟨-, -, hlast⟩ | ⟨seg, e, vs, -, hseq, hq, -, rfl, -, -, rfl⟩
      · omega
      · show s ≤ e.queue.state.lastEnqueued + 1
        rw [hq.last]
        omega

end

/-- A folder in which nothing has changed but what no longer matters. -/
lemma SaidDead.of_disk {ev : Event} {d d' : Option Folder} {md : Media} {h h' : History}
    (hd : SaidDead ev d md h) (hread : ∀ s, Readable d s → Readable d' s ∨
      (recorded d).valid = true ∧ (recorded d).has .primary s = true)
    (hsegs : ∀ s, HasSeg d' s → HasSeg d s) (hv : (recorded d').valid = (recorded d).valid)
    (hlast : (recorded d').lastEnqueued = (recorded d).lastEnqueued)
    (hany : (recorded d').any .primary = (recorded d).any .primary)
    (hmark : (recorded d').mark .primary = (recorded d).mark .primary)
    (hprim : h'.primary = h.primary) : SaidDead ev d' md h' where
  lost h1 hpos s hfirst hs := by
    rw [hv] at h1
    rw [hlast] at hpos hs
    rw [Answered, hprim]
    rcases hd.lost h1 hpos s hfirst hs with hr | ha
    · exact (hread s hr).imp_right fun hh => hd.had hh.1 s hfirst hh.2
    · exact Or.inr ha
  had h1 s hfirst hs := by
    rw [SpoolQueue.has_iff, hany, hmark, ← SpoolQueue.has_iff] at hs
    rw [Answered, hprim]
    exact hd.had (hv ▸ h1) s hfirst hs
  fresh h1 ha := by
    rw [hmark]
    exact hd.fresh (hv ▸ h1) (hany ▸ ha)
  segs h1 s hs := hlast ▸ hd.segs (hv ▸ h1) s (hsegs s hs)
  ids := hd.ids

/-- Before the first segment. -/
lemma SaidDead.empty (ev : Event) {d : Option Folder} (hsegs : ∀ s, ¬HasSeg d s)
    (hrec : (recorded d).valid = true → (recorded d).lastEnqueued = ev.firstSeq - 1 ∧
      (recorded d).any .primary = false ∧ (recorded d).mark .primary = ev.firstSeq - 1) :
    SaidDead ev d (Store.empty.media ev) {} where
  lost hv hpos s hfirst hs := by
    rw [(hrec hv).1] at hpos hs
    omega
  had hv s _ hs := by
    rw [SpoolQueue.has_iff, (hrec hv).2.1] at hs
    exact absurd hs.1 (by simp)
  fresh hv _ := (hrec hv).2.2
  segs _ s hs := absurd hs (hsegs s)
  ids m hm := absurd hm (Option.not_mem_none m)

/-- A session resumed from what is stored. -/
lemma SaidUp.resumed {ev : Event} {w : World} {d' : Option Folder} {r : SpoolQueue} {m : Manifest}
    (hd : SaidDead ev w.disk (w.store.media ev) w.hist) (hr : Resumed w.disk r)
    (hread : ∀ s, Readable w.disk s → Readable d' s) (hsegs : ∀ s, HasSeg d' s → HasSeg w.disk s)
    (hgaps : ∀ x, w.store.manifest ev.id = some x → m.gaps = x.gaps) (hid : m.eventId = ev.id)
    (hzero : 0 < ev.firstSeq ∨ 0 < (recorded w.disk).lastEnqueued ∨
      (recorded w.disk).anyConfirmed = true ∨ Readable w.disk 0) :
    SaidUp ev d' (w.store.media ev) w.hist
      (Core.begun r ((recorded w.disk).lastEnqueued + 1) m) := by
  obtain ⟨now, hst⟩ := hr.state
  have hans : ∀ {s}, Answered w.hist (w.store.media ev) s →
      (Core.begun r ((recorded w.disk).lastEnqueued + 1) m).Answers w.hist s := by
    rintro s (hp | ⟨x, hx, hs⟩)
    · exact Or.inl hp
    · refine Or.inr (Or.inl ?_)
      show Manifest.InRanges m.gaps s
      rw [hgaps x hx]
      exact hs
  have hany : r.state.any .primary = (recorded w.disk).any .primary := by rw [hst]; rfl
  have hmark : r.state.mark .primary = (recorded w.disk).mark .primary := by rw [hst]; rfl
  refine ⟨fun s hfirst hs => ?_, fun _ s hfirst hs => hans ?_, fun seg hs => ?_, fun _ ha => ?_,
    fun s hs => hd.segs hr.valid s (hsegs s hs), fun _ => ?_, .begun hid hd.ids⟩
  · have hs' : s ≤ (recorded w.disk).lastEnqueued := Nat.lt_succ_iff.mp hs
    by_cases hpos : 0 < (recorded w.disk).lastEnqueued
    · exact (hd.lost hr.valid hpos s hfirst hs').imp (hread s) hans
    · obtain rfl : s = 0 := by omega
      rcases hzero with h | h | h | h
      · omega
      · exact absurd h hpos
      · exact Or.inr (hans (hd.had hr.valid 0 hfirst (SpoolQueue.has_iff.mpr ⟨h, Nat.zero_le _⟩)))
      · exact Or.inl (hread 0 h)
  · rw [SpoolQueue.has_iff] at hs
    exact hd.had hr.valid s hfirst (SpoolQueue.has_iff.mpr ⟨hany ▸ hs.1, hmark ▸ hs.2⟩)
  · exact absurd hs (by simp [Core.begun, UploadPc.segment])
  · show r.state.mark .primary = _
    rw [hmark]
    exact hd.fresh hr.valid (hany ▸ ha)
  · show (recorded w.disk).lastEnqueued + 1 ≤ r.state.lastEnqueued + 1
    rw [hst]

lemma toldAll_says {ev : Event} {w : World} {p : Proc} (hm : w.machine = .up p)
    (h : toldAll ev w = true) {s : ℕ} (hs : p.core.Says s) :
    ∃ m, (w.store.media ev).manifest = some m ∧ m.InGaps s := by
  simp only [toldAll, hm, Bool.and_eq_true, List.isEmpty_iff] at h
  obtain ⟨⟨hdrop, hpc⟩, hgaps⟩ := h
  rcases hs with hs | hs | hs
  · have hin := inRanges_within hgaps hs
    cases hst : w.store.manifest ev.id with
    | none =>
        rw [hst] at hin
        obtain ⟨g, hg, -⟩ := hin
        exact absurd hg (by simp)
    | some m =>
        rw [hst] at hin
        exact ⟨m, hst, hin⟩
  · exact absurd hs (by simp [Proc.core, hdrop])
  · have hpc' : p.up.pc = .skipping s := hs
    rw [hpc'] at hpc
    exact absurd hpc (by simp)

lemma readable_state {d : Option Folder} {s : ℕ} (h : Readable d s) (st : SpoolState) (k : ℕ) :
    Readable (cutWrites k [.state st] d) s := by
  refine readable_applyWrites_of h ?_ ?_ ?_ <;>
    exact fun hm => absurd (List.mem_of_mem_take hm) (by simp)

lemma said_invariant (ev : Event) :
    Invariant ev (fun w a => saysFirst ev w a = true)
      (fun w => ∀ p, w.machine = .up p → LinkedUp w.disk p.core ∧ Saved w.disk p.core)
      (SaidDead ev) (SaidUp ev) where
  init := .empty ev (fun s => not_hasSeg_none s) fun hv => absurd hv (by simp)
  same hs h := by
    refine h.of_disk (fun s hr => Or.inl ⟨(hs.hasSeg s).mpr hr.1, ?_⟩) (fun s => (hs.hasSeg s).mp)
      (by rw [hs.recorded]) (by rw [hs.recorded]) (by rw [hs.recorded]) (by rw [hs.recorded]) rfl
    rw [hs.sidecar]
    exact hr.2
  sameUp hs h := by
    refine { h with lost := fun s hfirst hlt => ?_, segs := fun s hseg => h.segs s ((hs.hasSeg s).mp hseg) }
    refine (h.lost s hfirst hlt).imp_left fun hr => ⟨(hs.hasSeg s).mpr hr.1, ?_⟩
    rw [hs.sidecar]
    exact hr.2
  opens k hd ho hf := by
    obtain ⟨n, hrec⟩ := ho.recorded_cut k
    refine hd.of_disk (fun s hr => ?_) (fun s hs => ?_) (by rw [hrec]) (by rw [hrec])
      (by rw [hrec]; rfl) (by rw [hrec]; rfl) hf.primary
    · cases ho with
      | nothing _ _ =>
          rw [cutWrites, Lib.cut, List.take_nil]
          exact Or.inl hr
      | @event vs _ hv _ _ hvs =>
          by_cases hmem : s ∈ vs
          · exact Or.inr ⟨hv, (hvs s hmem).2⟩
          · refine Or.inl (readable_applyWrites_of hr ?_ ?_ ?_) <;>
              exact fun hm => absurd (List.mem_of_mem_take hm) (by simp [SpoolQueue.removals, hmem])
    · rcases hasSeg_applyWrites hs with h | ⟨b, hb⟩
      · exact h
      · exact absurd (ho.addsFile _ (List.mem_of_mem_take hb)) (by simp [Write.addsFile])
  starts := by
    intro q k hq
    refine .empty ev (fun s => hasSeg_beginWrites _ k s) fun hv => ?_
    rcases recorded_beginWrites q.state k with hrec | hrec
    · exact absurd hv (by simp [hrec])
    · rw [hrec]
      exact ⟨hq.last, hq.any .primary, hq.mark .primary⟩
  startsUp hq hseed := by
    refine ⟨fun s hfirst hs => ?_, fun _ s _ hs => ?_, fun seg hs => ?_, fun _ _ => hq.mark .primary,
      fun s hs => absurd hs (hasSeg_beginWrites _ 3 s), fun _ => ?_,
      .begun hseed.eventId fun m hm => absurd hm (Option.not_mem_none m)⟩
    · exact absurd hs (not_lt.mpr hfirst)
    · rw [SpoolQueue.has_iff] at hs
      exact absurd (hs.1.symm.trans (hq.any .primary)) (by simp)
    · exact absurd hs (by simp [Core.begun, UploadPc.segment])
    · show ev.firstSeq ≤ _ + 1
      rw [Core.begun, hq.last]
      omega
  resumes k hd hr := by
    obtain ⟨b, now, hrec⟩ := hr.recorded_cut k
    refine hd.of_disk (fun s h => Or.inl (readable_state h _ k)) (fun s hs => ?_) (by rw [hrec])
      (by rw [hrec]) (by rw [hrec]; rfl) (by rw [hrec]; rfl) rfl
    rcases hasSeg_applyWrites hs with h | ⟨b, hb⟩
    · exact h
    · exact absurd (List.mem_of_mem_take hb) (by simp)
  resumesUp := by
    intro w args reads puts now r m _ hc hd hr hseed
    simp only [saysFirst, Bool.and_eq_true, Bool.or_eq_true, decide_eq_true_eq,
      Option.isNone_iff_eq_none] at hc
    refine .resumed hd hr (fun s h => readable_state h _ 1) (fun s hs => ?_) (fun x hx => ?_)
      hseed.eventId ?_
    · rcases hasSeg_applyWrites hs with h | ⟨b, hb⟩
      · exact h
      · exact absurd hb (by simp)
    · have hreads : reads.manifest = true := hc.1.resolve_right (by simp [hx])
      have hcont : continued ev (w.store.manifest ev.id) reads = some x := by
        rw [continued, if_pos hreads, hx]
        simp [hd.ids x hx]
      rw [hseed.gaps, hcont]
      rfl
    · tauto
  moves hB hm hc hu mv hf := hu.move (hB _ hm).1 (saysFirst_noFault hc) mv hf
  crash := by
    intro w p hB hm hc hu
    obtain ⟨hl, hsaved⟩ := hB p hm
    exact hu.dead hl hsaved fun s => toldAll_says hm hc
  cuts := by
    intro w p a k e c md h h' hB hm hc he _ hu mv hf
    obtain ⟨hl, hsaved⟩ := hB p hm
    simp only [saysFirst, Bool.and_eq_true] at hc
    obtain ⟨⟨ha, htold⟩, hlose⟩ := hc
    refine hu.cut hl hsaved (fun s => toldAll_says hm htold) ha mv hf ?_ ?_
    · rintro data dur pts now e' rfl hq hk
      have hq' : p.spool.enqueue ev.sha256Hex now w.disk (newSegment ev p.nextSeq data dur pts) =
          some e' := hq
      simp only [losesNothing, hm, hq', Option.all_some, Bool.or_eq_true, decide_eq_true_eq,
        List.isEmpty_iff] at hlose
      exact hlose.resolve_left (by omega)
    · rintro now rfl
      simpa [losesNothing, hm] using hlose

/-! ### The result -/

/-- **No segment is lost without being said.**  In a run that says before it
loses, every number the session has passed is readable in the spool, confirmed
into the primary bucket, or said to be lost, in every world reached. -/
theorem lost_said (ev : Event) {w : World} (h : ReachedBy ev (saysFirst ev) w) : NoneLost ev w := by
  intro p hm s hfirst hs
  have hinv := (said_invariant ev).reach (fun h _ hm =>
    ⟨linked_of_reach h hm, saved_of_reach (fun _ _ => saysFirst_noFault) h hm⟩) h
  exact ((Holds.of_up hm).mp hinv).lost s hfirst hs

/-- Going on air with room for one segment of one byte. -/
def goLiveCapped : List Action :=
  [.openSession { maxSpoolBytes := 1 }, .startNew {} {} 0, .dequeueManifest, .putManifest true,
    .flushBegin, .publishLive true 0]

/-- The second segment takes the first one's place; the crash comes once the
manifest with the gap has landed. -/
def droppedAndSaid : List Action :=
  goLiveCapped ++
    [Action.publishSegment [1] 6 0 1 none, .publishSegment [2] 6 6 1 none, .onDropped] ++
    uploadOne ++
    [Action.dequeueManifest, .putManifest true, .crash, .openSession {},
      .resume {} {} {} 3]

theorem lost_said_dropped :
    ∃ (w : World) (p : Proc), w.machine = .up p ∧ p.nextSeq = 2 ∧ ¬Readable w.disk 0 ∧
      w.hist.primary = [1] ∧ p.core.Says 0 := by
  obtain ⟨w, hw, hprim, hup⟩ : ∃ w, ReachedBy sampleEvent (saysFirst sampleEvent) w ∧
      w.hist.primary = [1] ∧
      (w.upWith fun p d => decide (p.nextSeq = 2) && !decide (Readable d 0)) = true :=
    Lib.exists_reach_guarded {} droppedAndSaid rfl (by decide +kernel)
  obtain ⟨p, hm, hp⟩ := exists_of_upWith hup
  simp only [Bool.and_eq_true, decide_eq_true_eq, Bool.not_eq_true', decide_eq_false_iff_not] at hp
  refine ⟨w, p, hm, hp.1, hp.2, hprim, ?_⟩
  rcases lost_said sampleEvent hw p hm 0 (Nat.zero_le _) (by omega) with h | h | h
  · exact absurd h hp.2
  · exact absurd h (by simp [hprim])
  · exact h

/-- The same eviction, and a crash before any manifest has the gap. -/
def droppedUnsaid : List Action :=
  goLiveCapped ++ [Action.publishSegment [1] 6 0 1 none, .publishSegment [2] 6 6 1 none, .onDropped,
    .crash, .openSession {}, .resume {} {} {} 3]

/-- Segment 0 is not on disk, was never uploaded, and is no gap. -/
theorem lost_unsaid : ∃ w, Reached sampleEvent w ∧ ¬NoneLost sampleEvent w := by
  obtain ⟨w, hw, hprim, hup⟩ : ∃ w, Reached sampleEvent w ∧ w.hist.primary = [] ∧
      (w.upWith fun p d => decide (p.nextSeq = 2) && !decide (Readable d 0) &&
        decide (p.manifest.gaps = []) && p.dropping.isEmpty && decide (p.up.pc = .idle)) = true :=
    Lib.exists_reach {} droppedUnsaid rfl (by decide +kernel)
  obtain ⟨p, hm, hp⟩ := exists_of_upWith hup
  simp only [Bool.and_eq_true, decide_eq_true_eq, Bool.not_eq_true', decide_eq_false_iff_not,
    List.isEmpty_iff] at hp
  obtain ⟨⟨⟨⟨hnext, hread⟩, hgaps⟩, hdrop⟩, hpc⟩ := hp
  refine ⟨w, hw, fun hnone => ?_⟩
  rcases hnone p hm 0 (Nat.zero_le _) (by omega) with h | h | h | h | h
  · exact hread h
  · exact absurd h (by simp [hprim])
  · obtain ⟨g, hg, -⟩ := h
    exact absurd (hgaps ▸ hg) (by simp)
  · exact absurd h (by simp [Proc.core, hdrop])
  · exact absurd (hpc.symm.trans h) (by simp)

end Multisite

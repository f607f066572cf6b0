import Multisite.Finisher.Finish

/-!
What a call of `finish` does to its event's folder: opening it for one target
sweeps what the primary has (`Swept`), and each segment sent or skipped is
confirmed and removed (`Confirms`).

* `Drains`: the folders whose wait loop ends.  The loop counts `.seg` files, and
  the uploader gets rid of those it can read, in order, and is allowed to send;
* `Drains.confirm`, `Stuck.confirm`: a folder that drains goes on draining, and a
  file that blocks the loop goes on blocking it.
-/

namespace Multisite

/-! ### Reading a segment -/

/-- A pending segment as `peek_next` reads it. -/
def readSeg (d : Option Folder) (s : ℕ) : Option SpooledSegment :=
  d.bind (SpoolQueue.readSegment · s)

lemma readSeg_congr {d d' : Option Folder} {s : ℕ} (h1 : segData d' s = segData d s)
    (h2 : sidecar d' s = sidecar d s) : readSeg d' s = readSeg d s := by
  have key : ∀ d : Option Folder, readSeg d s =
      (sidecar d s).bind fun m => (segData d s).map fun data =>
        { seq := s, data, durationS := m.durationS, ptsOffsetS := m.ptsOffsetS
          checksum := m.checksum, key := m.key } := by
    intro d
    cases d with
    | none => rfl
    | some f =>
        rw [readSeg, sidecar, segData, Option.bind_some, Option.bind_some, Option.bind_some,
          SpoolQueue.readSegment]
        cases SpoolQueue.readSidecar f s <;> cases f.segs.lookup s <;> rfl
  rw [key, key, h1, h2]

lemma readSeg_isSome {d : Option Folder} {s : ℕ} : (readSeg d s).isSome ↔ Readable d s := by
  cases d with
  | none => simp [readSeg, Readable]
  | some f => exact SpoolQueue.readSegment_isSome

lemma readSeg_of_peekNext {q : SpoolQueue} {d : Option Folder} {t : Target} {seg : SpooledSegment}
    (h : q.peekNext d t = some seg) : readSeg d seg.seq = some seg := by
  rw [SpoolQueue.peekNext, List.findSome?_eq_some_iff] at h
  obtain ⟨_, s, _, _, hs, _⟩ := h
  split at hs
  · exact absurd hs (by simp)
  · cases d with
    | none => exact absurd hs (by simp)
    | some f =>
        have : seg.seq = s := (SpoolQueue.readSegment_eq_some hs).1
        rwa [← this] at hs

/-- The number of `.seg` files. -/
def files (d : Option Folder) : ℕ := d.elim 0 fun d => d.segs.keys.length

lemma files_apply_le {w : Write} (d : Option Folder) (h : ∀ s b, w ≠ .seg s b) :
    files (w.apply d) ≤ files d := by
  cases d with
  | none => cases w <;> simp [Write.apply, files]
  | some f =>
      cases w with
      | seg s b => exact absurd rfl (h s b)
      | removeSeg s =>
          simp only [Write.apply, files, Option.map_some, Option.elim_some, AList.keys_erase]
          exact List.length_erase_le
      | _ => simp [Write.apply, files]

lemma files_applyWrites_le {ws : List Write} {d : Option Folder} (h : ∀ s b, .seg s b ∉ ws) :
    files (applyWrites ws d) ≤ files d := by
  refine Lib.applyAll_invariant (I := fun d' => files d' ≤ files d) Write.apply ?_ le_rfl
  intro w hw d' hd'
  exact (files_apply_le d' fun s b e => h s b (e ▸ hw)).trans hd'

lemma files_removeSeg_lt {d : Option Folder} {s : ℕ} (h : HasSeg d s) :
    files (Write.apply (.removeSeg s) d) < files d := by
  cases d with
  | none => exact absurd h (not_hasSeg_none s)
  | some f =>
      rw [hasSeg_some, AList.mem_keys] at h
      simp only [Write.apply, files, Option.map_some, Option.elim_some, AList.keys_erase]
      rw [List.length_erase_of_mem h]
      have := List.length_pos_of_mem h
      omega

/-! ### Folders that drain -/

/-- The uploader gets rid of the segment: it can read it, and either finds it
damaged or is let past the floor. -/
def Sendable (sha : Bytes → String) (d : Option Folder) (s : ℕ) : Prop :=
  ∃ seg, readSeg d s = some seg ∧ (seg.damaged sha = true ∨ (recorded d).firstSeq ≤ s)

lemma Sendable.readable {sha : Bytes → String} {d : Option Folder} {s : ℕ}
    (h : Sendable sha d s) : Readable d s := by
  obtain ⟨seg, hseg, -⟩ := h
  exact readSeg_isSome.mp (by rw [hseg]; rfl)

/-- **A folder that drains**: every segment the primary does not have can be sent,
and a mark that was never set stands below all of them but the lowest (the first
confirmation sets it). -/
structure Drains (sha : Bytes → String) (d : Option Folder) : Prop where
  sendable : ∀ s, HasSeg d s → (recorded d).has .primary s = true ∨ Sendable sha d s
  unset : (recorded d).any .primary = false →
    ∀ r s, HasSeg d r → HasSeg d s → r < s → (recorded d).mark .primary < s

/-- Nothing on disk is something the primary has. -/
def Unsent (d : Option Folder) : Prop := ∀ s, HasSeg d s → (recorded d).has .primary s = false

/-- A file that blocks the wait loop: the uploader passes over it, or will once it
has confirmed a segment below it. -/
def Blocks (sha : Bytes → String) (d : Option Folder) (s : ℕ) : Prop :=
  (recorded d).has .primary s = true ∨ ¬Sendable sha d s ∨
    ((recorded d).any .primary = false ∧ s ≤ (recorded d).mark .primary ∧ ∃ r < s, HasSeg d r)

/-- A folder with a file that blocks the wait loop. -/
def Stuck (sha : Bytes → String) (d : Option Folder) : Prop := ∃ s, HasSeg d s ∧ Blocks sha d s

/-- The second folder is the first opened for one target. -/
structure Swept (d d' : Option Folder) : Prop where
  hasSeg : ∀ s, HasSeg d' s ↔ HasSeg d s ∧ (recorded d).has .primary s = false
  readSeg : ∀ s, HasSeg d' s → readSeg d' s = readSeg d s
  sidecar : ∀ s m, sidecar d' s = some m → sidecar d s = some m
  firstSeq : (recorded d').firstSeq = (recorded d).firstSeq
  any : (recorded d').any .primary = (recorded d).any .primary
  mark : (recorded d').mark .primary = (recorded d).mark .primary

/-- The second folder is the first once its segment `s` is confirmed for the
primary, the only target. -/
structure Confirms (d d' : Option Folder) (s : ℕ) : Prop where
  hasSeg : ∀ x, HasSeg d' x ↔ x ≠ s ∧ HasSeg d x
  readSeg : ∀ x, HasSeg d' x → readSeg d' x = readSeg d x
  sidecar : ∀ x m, sidecar d' x = some m → sidecar d x = some m
  firstSeq : (recorded d').firstSeq = (recorded d).firstSeq
  any : (recorded d').any .primary = true
  mark : (recorded d').mark .primary = max ((recorded d).mark .primary) s

section

variable {sha : Bytes → String} {d d' : Option Folder} {s : ℕ}

lemma sendable_congr {x : ℕ} (hr : readSeg d' x = readSeg d x)
    (hf : (recorded d').firstSeq = (recorded d).firstSeq) :
    Sendable sha d' x ↔ Sendable sha d x := by
  rw [Sendable, Sendable, hr, hf]

lemma Swept.has (h : Swept d d') (s : ℕ) :
    (recorded d').has .primary s = (recorded d).has .primary s := by
  rw [SpoolState.has, SpoolState.has, h.any, h.mark]

lemma Swept.unsent (h : Swept d d') : Unsent d' := fun s hs => by
  rw [h.has]
  exact ((h.hasSeg s).mp hs).2

/-- Opening a folder that drains leaves one that drains. -/
lemma Drains.sweep (hd : Drains sha d) (h : Swept d d') : Drains sha d' where
  sendable s hs := by
    rw [h.has, sendable_congr (h.readSeg s hs) h.firstSeq]
    exact hd.sendable s ((h.hasSeg s).mp hs).1
  unset hany r s hr hs := by
    rw [h.mark]
    exact hd.unset (h.any ▸ hany) r s ((h.hasSeg r).mp hr).1 ((h.hasSeg s).mp hs).1

/-- Opening a folder that does not drain leaves a file that blocks the loop. -/
lemma Swept.stuck (h : Swept d d') (hd : ¬Drains sha d) : Stuck sha d' := by
  by_contra hstuck
  refine hd ⟨fun s hs => ?_, fun hany r s hr hs hrs => ?_⟩
  · by_contra hcon
    rw [not_or, Bool.not_eq_true] at hcon
    have hs' : HasSeg d' s := (h.hasSeg s).mpr ⟨hs, hcon.1⟩
    refine hstuck ⟨s, hs', Or.inr (Or.inl ?_)⟩
    rw [sendable_congr (h.readSeg s hs') h.firstSeq]
    exact hcon.2
  · have hnone : ∀ x, (recorded d).has .primary x = false := fun x => by
      rw [SpoolState.has, hany, Bool.false_and]
    by_contra hle
    refine hstuck ⟨s, (h.hasSeg s).mpr ⟨hs, hnone s⟩, Or.inr (Or.inr ⟨?_, ?_, r, hrs, ?_⟩)⟩
    · rw [h.any, hany]
    · rw [h.mark]
      omega
    · exact (h.hasSeg r).mpr ⟨hr, hnone r⟩

/-- **The uploader's step** on a folder that drains. -/
lemma Drains.confirm (hd : Drains sha d) (hu : Unsent d) (h : Confirms d d' s) (hs : HasSeg d s)
    (hlow : ∀ r < s, Readable d r → (recorded d).has .primary r = true) :
    Drains sha d' ∧ Unsent d' := by
  have hall : ∀ x, HasSeg d x → Sendable sha d x := fun x hx =>
    (hd.sendable x hx).resolve_left (by rw [hu x hx]; simp)
  refine ⟨⟨fun x hx => Or.inr ?_, fun hany => absurd (h.any.symm.trans hany) (by simp)⟩, ?_⟩
  · rw [sendable_congr (h.readSeg x hx) h.firstSeq]
    exact hall x ((h.hasSeg x).mp hx).2
  · intro x hx
    obtain ⟨hne, hx'⟩ := (h.hasSeg x).mp hx
    -- `s` was the lowest, so what is left is above it and above the mark
    have hsx : s < x := by
      rcases lt_trichotomy x s with hlt | heq | hgt
      · have := hlow x hlt (hall x hx').readable
        rw [hu x hx'] at this
        exact absurd this (by simp)
      · exact absurd heq hne
      · exact hgt
    have hmark : (recorded d).mark .primary < x := by
      cases hany : (recorded d).any .primary with
      | false => exact hd.unset hany s x hs hx' hsx
      | true =>
          have := hu x hx'
          rw [SpoolState.has, hany, Bool.true_and, decide_eq_false_iff_not] at this
          omega
    rw [SpoolState.has, h.any, h.mark, Bool.true_and, decide_eq_false_iff_not]
    omega

/-- **The uploader's step** on a folder with a file that blocks the loop. -/
lemma Stuck.confirm (hst : Stuck sha d) (h : Confirms d d' s) (hs : Sendable sha d s)
    (hnew : (recorded d).has .primary s = false)
    (hlow : ∀ r < s, Readable d r → (recorded d).has .primary r = true) : Stuck sha d' := by
  have hgrow : ∀ x, (recorded d).has .primary x = true → (recorded d').has .primary x = true := by
    intro x hx
    rw [SpoolQueue.has_iff] at hx ⊢
    rw [h.any, h.mark]
    exact ⟨rfl, le_max_of_le_left hx.2⟩
  -- a file the uploader cannot send is not the one it sends
  have hunsendable : ∀ x, HasSeg d x → ¬Sendable sha d x → Stuck sha d' := by
    intro x hx hns
    have hx' : HasSeg d' x := (h.hasSeg x).mpr ⟨fun e => hns (e ▸ hs), hx⟩
    refine ⟨x, hx', Or.inr (Or.inl ?_)⟩
    rwa [sendable_congr (h.readSeg x hx') h.firstSeq]
  obtain ⟨x, hx, hhas | hns | ⟨hany, hle, r, hr, hrseg⟩⟩ := hst
  · refine ⟨x, (h.hasSeg x).mpr ⟨fun e => ?_, hx⟩, Or.inl (hgrow x hhas)⟩
    subst e
    exact absurd (hnew.symm.trans hhas) (by simp)
  · exact hunsendable x hx hns
  · by_cases hxs : x = s
    · subst hxs
      -- `r` is below the lowest readable segment, so it is not readable
      refine hunsendable r hrseg fun hsend => ?_
      have := hlow r hr hsend.readable
      rw [SpoolState.has, hany, Bool.false_and] at this
      exact absurd this (by simp)
    · refine ⟨x, (h.hasSeg x).mpr ⟨hxs, hx⟩, Or.inl ?_⟩
      rw [SpoolQueue.has_iff, h.any, h.mark]
      exact ⟨rfl, le_max_of_le_left hle⟩

end

/-! ### The queue's operations on it -/

/-- The queue works on the folder for one target, and remembers what is recorded
there. -/
structure Serving (q : SpoolQueue) (id : String) (d : Option Folder) : Prop where
  dir : q.dir = some id
  isSome : d.isSome
  recorded : recorded d = { q.state with valid := true }
  targets : q.state.targets = 1

namespace Serving

variable {q : SpoolQueue} {id : String} {d : Option Folder}

lemma has (h : Serving q id d) (s : ℕ) :
    (Multisite.recorded d).has .primary s = q.state.has .primary s := by
  rw [h.recorded]
  rfl

lemma floor (h : Serving q id d) : q.floor = (Multisite.recorded d).firstSeq := by
  rw [h.recorded]
  rfl

lemma pendingCount (h : Serving q id d) : q.pendingCount d = 0 ↔ ∀ s, ¬HasSeg d s := by
  have hmem : ∀ s, s ∈ q.pendingSeqs d ↔ HasSeg d s := fun s => by
    rw [SpoolQueue.mem_pendingSeqs, h.dir]
    exact and_iff_right rfl
  rw [SpoolQueue.pendingCount, List.length_eq_zero_iff, List.eq_nil_iff_forall_not_mem]
  exact forall_congr' fun s => not_congr (hmem s)

/-- `set_targets(1)` on a queue just opened. -/
lemma setTargets (hdir : q.dir = some id) (hd : d.isSome) (hst : q.state = Multisite.recorded d) :
    Swept d (applyWrites (q.setTargets 1 d).2 d) ∧
      Serving (q.setTargets 1 d).1 id (applyWrites (q.setTargets 1 d).2 d) ∧
      files (applyWrites (q.setTargets 1 d).2 d) ≤ files d := by
  obtain ⟨hst', hdir', hws⟩ := SpoolQueue.setTargets_spec 1 q d
  have hclamp : SpoolQueue.clampTargets 1 = 1 := by decide
  have hsave : (q.setTargets 1 d).1.saveState = [.state (q.setTargets 1 d).1.state] := by
    rw [SpoolQueue.saveState, hdir', hdir]
    rfl
  rw [hclamp] at hst'
  have hswept : ∀ s, s ∈ SpoolQueue.swept 1 q d ↔ HasSeg d s ∧ q.state.has .primary s = true := by
    intro s
    rw [SpoolQueue.swept, hclamp, if_pos (by decide), List.mem_filter, SpoolQueue.mem_pendingSeqs,
      hdir]
    simp
  have hless : Less d (applyWrites (q.setTargets 1 d).2 d) (SpoolQueue.swept 1 q d) := by
    rw [hws, hsave, applyWrites, Lib.applyAll_append]
    exact (Less.removals _ _).save _
  have hrec : Multisite.recorded (applyWrites (q.setTargets 1 d).2 d) =
      { (q.setTargets 1 d).1.state with valid := true } := by
    rw [hws, hsave]
    exact recorded_applyWrites_state hd (SpoolQueue.removeAll_notMem_removals _) _
  refine ⟨⟨fun s => ?_, fun s hs => ?_, fun s m hm => ?_, ?_, ?_, ?_⟩, ⟨hdir'.trans hdir, ?_, hrec, ?_⟩, ?_⟩
  · rw [hless.hasSeg, hswept, hst]
    by_cases hs : HasSeg d s <;> simp [hs]
  · have hnot := ((hless.hasSeg s).mp hs).1
    exact readSeg_congr ((hless.segs s).trans (if_neg hnot)) (hless.sidecar s hnot)
  · rcases sidecar_applyWrites hm with h | h
    · exact h
    · rw [hws, hsave] at h
      simp [SpoolQueue.removals] at h
  · rw [hrec, hst', ← hst]
  · rw [hrec, hst', ← hst]
    rfl
  · rw [hrec, hst', ← hst]
    rfl
  · rw [hws, hsave]
    exact isSome_applyWrites hd (by simp [SpoolQueue.removals])
  · rw [hst']
  · refine files_applyWrites_le fun s b h => ?_
    rw [hws, hsave] at h
    simp [SpoolQueue.removals] at h

/-- `confirm` with one target. -/
lemma confirm (h : Serving q id d) (now : ℤ) {s : ℕ} (hs : HasSeg d s) :
    Confirms d (applyWrites (q.confirm now d s .primary).2 d) s ∧
      Serving (q.confirm now d s .primary).1 id (applyWrites (q.confirm now d s .primary).2 d) ∧
      files (applyWrites (q.confirm now d s .primary).2 d) < files d := by
  set st := SpoolQueue.confirmed now q.state s .primary with hst
  have hevery : SpoolQueue.everyTargetHas st s = true := by
    have h1 : st.has .primary s = true := by
      rw [SpoolQueue.has_iff]
      exact ⟨rfl, le_max_right _ _⟩
    have h2 : st.targets = 1 := h.targets
    rw [SpoolQueue.everyTargetHas, h1, h2]
    rfl
  obtain ⟨hst', hdir', hws⟩ :=
    SpoolQueue.confirm_spec now q d s .primary (by rw [h.dir]; rfl)
  have hw : (q.confirm now d s .primary).2 = .state st :: SpoolQueue.removals [s] := by
    rw [SpoolQueue.confirm, if_pos hevery]
    simp [SpoolQueue.saveState, h.dir, SpoolQueue.removals, hst]
  have hless : Less d (applyWrites (q.confirm now d s .primary).2 d) [s] := by
    rw [hw, applyWrites, Lib.applyAll_cons]
    exact (Less.removals [s] _).of_same ((SameFiles.refl d).save st)
  have hrec : Multisite.recorded (applyWrites (q.confirm now d s .primary).2 d) =
      { st with valid := true } := by
    rw [hw, applyWrites, Lib.applyAll_cons]
    exact (SpoolQueue.recorded_removals [s] _).trans (recorded_apply_state h.isSome st)
  refine ⟨⟨fun x => ?_, fun x hx => ?_, fun x m hm => ?_, ?_, ?_, ?_⟩,
    ⟨hdir'.trans h.dir, ?_, by rw [hrec, hst'], by rw [hst']; exact h.targets⟩, ?_⟩
  · rw [hless.hasSeg, List.mem_singleton]
  · have hnot := ((hless.hasSeg x).mp hx).1
    exact readSeg_congr ((hless.segs x).trans (if_neg hnot)) (hless.sidecar x hnot)
  · rcases sidecar_applyWrites hm with h' | h'
    · exact h'
    · rw [hw] at h'
      simp [SpoolQueue.removals] at h'
  · rw [hrec, h.recorded]
    rfl
  · rw [hrec]
    rfl
  · rw [hrec, h.recorded]
    rfl
  · rw [hw]
    exact isSome_applyWrites h.isSome (by simp [SpoolQueue.removals])
  · -- the state touches no file, and of the two removals the first takes one
    have hs' : HasSeg (Write.apply (.state st) d) s := ((SameFiles.refl d).save st).hasSeg.mpr hs
    have h1 : files (Write.apply (.state st) d) ≤ files d := files_apply_le d (by simp)
    have h2 := files_removeSeg_lt hs'
    have h3 := files_apply_le (w := .removeSidecar s)
      (Write.apply (.removeSeg s) (Write.apply (.state st) d)) (by simp)
    rw [hw, applyWrites, Lib.applyAll_cons, SpoolQueue.removals_cons, Lib.applyAll_cons,
      Lib.applyAll_cons]
    exact lt_of_le_of_lt h3 (lt_of_lt_of_le h2 h1)

end Serving

end Multisite

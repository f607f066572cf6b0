import Multisite.Spool.Queue

/-!
What the operations of `SpoolQueue` do to a folder, for the modules above, which
look at one only through `HasSeg`, `sidecar` and `recorded`.

* `hasSeg_applyWrites`, `sidecar_applyWrites` and their converses: a list of
  writes adds the files it writes and takes away those it removes; the same holds
  for every crash inside it, a cut being a shorter list;
* `peekNext_spec`: what `peek_next` returns is readable, not yet had by the
  target, and nothing readable below it is missing there;
* `enqueue_spec`: the writes of `enqueue`, with the victims of the disk cap;
* `confirm_spec`, `setTargets_spec`: what the two remove.
-/

namespace Multisite

/-! ### A folder from outside -/

/-- The bytes of a segment's `.seg` file. -/
def segData (d : Option Folder) (s : ℕ) : Option Bytes := d.bind fun d => d.segs.lookup s

/-- The folder has a `.seg` file for `s`. -/
def HasSeg (d : Option Folder) (s : ℕ) : Prop := (segData d s).isSome = true

instance (d : Option Folder) (s : ℕ) : Decidable (HasSeg d s) :=
  inferInstanceAs (Decidable (_ = true))

/-- What the `.meta` file of `s` says, when it is there and parses. -/
def sidecar (d : Option Folder) (s : ℕ) : Option Sidecar := d.bind (SpoolQueue.readSidecar · s)

/-- The state recorded in the folder. -/
def recorded (d : Option Folder) : SpoolState := readStateFile (d.bind (·.state))

/-- Both files of `s` are there and can be read. -/
def Readable (d : Option Folder) (s : ℕ) : Prop := HasSeg d s ∧ (sidecar d s).isSome = true

instance (d : Option Folder) (s : ℕ) : Decidable (Readable d s) :=
  inferInstanceAs (Decidable (_ ∧ _))

@[simp] lemma not_hasSeg_none (s : ℕ) : ¬HasSeg none s := by simp [HasSeg, segData]

@[simp] lemma sidecar_none (s : ℕ) : sidecar none s = none := rfl

@[simp] lemma recorded_none : recorded none = {} := rfl

lemma hasSeg_some {d : Folder} {s : ℕ} : HasSeg (some d) s ↔ s ∈ d.segs := by
  rw [HasSeg, segData, Option.bind_some, AList.lookup_isSome]

/-! ### One write -/

/-- The writes that leave the folder where it is. -/
def Write.Inside : Write → Prop
  | .create | .removeAll => False
  | _ => True

lemma hasSeg_apply {w : Write} {d : Option Folder} {x : ℕ} (h : HasSeg (w.apply d) x) :
    HasSeg d x ∨ ∃ b, w = .seg x b := by
  cases d with
  | none => cases w <;> simp_all [Write.apply, hasSeg_some]
  | some d =>
      cases w <;> simp_all [Write.apply, hasSeg_some]
      tauto

lemma hasSeg_apply_of {w : Write} {d : Option Folder} {x : ℕ} (h : HasSeg d x)
    (hr : w ≠ .removeSeg x) (ha : w ≠ .removeAll) : HasSeg (w.apply d) x := by
  cases d with
  | none => exact absurd h (not_hasSeg_none x)
  | some d =>
      cases w with
      | removeSeg s =>
          have hs : x ≠ s := fun e => hr (by rw [e])
          simp_all [Write.apply, hasSeg_some]
      | removeAll => exact absurd rfl ha
      | _ => simp_all [Write.apply, hasSeg_some]

lemma sidecar_apply {w : Write} {d : Option Folder} {x : ℕ} {m : Sidecar}
    (h : sidecar (w.apply d) x = some m) : sidecar d x = some m ∨ w = .sidecar x m := by
  cases d with
  | none => cases w <;> simp_all [Write.apply, sidecar, SpoolQueue.readSidecar]
  | some d =>
      cases w with
      | sidecar s m' =>
          by_cases hs : x = s
          · subst hs
            simp_all [Write.apply, sidecar, SpoolQueue.readSidecar]
          · simp_all [Write.apply, sidecar, SpoolQueue.readSidecar, AList.lookup_insert_ne]
      | removeSidecar s =>
          by_cases hs : x = s
          · subst hs
            simp_all [Write.apply, sidecar, SpoolQueue.readSidecar]
          · simp_all [Write.apply, sidecar, SpoolQueue.readSidecar, AList.lookup_erase_ne]
      | _ => simp_all [Write.apply, sidecar, SpoolQueue.readSidecar]

lemma segData_apply {w : Write} {d : Option Folder} {x : ℕ} {b : Bytes}
    (h : segData (w.apply d) x = some b) : segData d x = some b ∨ w = .seg x b := by
  cases d with
  | none => cases w <;> simp_all [Write.apply, segData]
  | some d =>
      cases w with
      | seg s b' =>
          by_cases hs : x = s
          · subst hs
            simp_all [Write.apply, segData]
          · simp_all [Write.apply, segData, AList.lookup_insert_ne]
      | removeSeg s =>
          by_cases hs : x = s
          · subst hs
            simp_all [Write.apply, segData]
          · simp_all [Write.apply, segData, AList.lookup_erase_ne]
      | _ => simp_all [Write.apply, segData]

lemma sidecar_apply_of {w : Write} {d : Option Folder} {x : ℕ}
    (h : (sidecar d x).isSome) (hr : w ≠ .removeSidecar x) (ha : w ≠ .removeAll) :
    (sidecar (w.apply d) x).isSome := by
  cases d with
  | none => exact absurd h (by simp)
  | some d =>
      cases w with
      | sidecar s m' =>
          by_cases hs : x = s
          · subst hs
            simp_all [Write.apply, sidecar, SpoolQueue.readSidecar]
          · simp_all [Write.apply, sidecar, SpoolQueue.readSidecar, AList.lookup_insert_ne]
      | removeSidecar s =>
          have hs : x ≠ s := fun e => hr (by rw [e])
          simp_all [Write.apply, sidecar, SpoolQueue.readSidecar, AList.lookup_erase_ne]
      | removeAll => exact absurd rfl ha
      | _ => simp_all [Write.apply, sidecar, SpoolQueue.readSidecar]

@[simp] lemma recorded_apply_state {d : Option Folder} (hd : d.isSome) (st : SpoolState) :
    recorded (Write.apply (.state st) d) = { st with valid := true } := by
  obtain ⟨d, rfl⟩ := Option.isSome_iff_exists.mp hd
  rfl

lemma recorded_apply {w : Write} {d : Option Folder} (hs : ∀ st, w ≠ .state st)
    (ha : w ≠ .removeAll) : recorded (w.apply d) = recorded d := by
  cases d <;> cases w <;> simp_all [Write.apply, recorded]

/-! ### A list of writes -/

/-- No file appears where there is no folder. -/
lemma applyWrites_none {ws : List Write} (h : .create ∉ ws) : applyWrites ws none = none := by
  refine Lib.applyAll_invariant (I := fun d : Option Folder => d = none) Write.apply ?_ rfl
  rintro w hw d rfl
  cases w with
  | create => exact absurd hw h
  | _ => rfl

lemma isSome_applyWrites {ws : List Write} {d : Option Folder} (hd : d.isSome)
    (ha : .removeAll ∉ ws) : (applyWrites ws d).isSome := by
  refine Lib.applyAll_invariant (I := fun d : Option Folder => d.isSome) Write.apply ?_ hd
  intro w hw d hd
  obtain ⟨d, rfl⟩ := Option.isSome_iff_exists.mp hd
  cases w with
  | removeAll => exact absurd hw ha
  | _ => rfl

lemma hasSeg_applyWrites {ws : List Write} {d : Option Folder} {x : ℕ}
    (h : HasSeg (applyWrites ws d) x) : HasSeg d x ∨ ∃ b, .seg x b ∈ ws := by
  refine Lib.applyAll_invariant
    (I := fun d' => HasSeg d' x → HasSeg d x ∨ ∃ b, .seg x b ∈ ws) Write.apply ?_ Or.inl h
  intro w hw d' ih h'
  rcases hasSeg_apply h' with h'' | ⟨b, rfl⟩
  · exact ih h''
  · exact Or.inr ⟨b, hw⟩

lemma hasSeg_applyWrites_of {ws : List Write} {d : Option Folder} {x : ℕ} (h : HasSeg d x)
    (hr : .removeSeg x ∉ ws) (ha : .removeAll ∉ ws) : HasSeg (applyWrites ws d) x := by
  refine Lib.applyAll_invariant (I := (HasSeg · x)) Write.apply ?_ h
  intro w hw d' h'
  exact hasSeg_apply_of h' (fun e => hr (e ▸ hw)) (fun e => ha (e ▸ hw))

lemma sidecar_applyWrites {ws : List Write} {d : Option Folder} {x : ℕ} {m : Sidecar}
    (h : sidecar (applyWrites ws d) x = some m) : sidecar d x = some m ∨ .sidecar x m ∈ ws := by
  refine Lib.applyAll_invariant
    (I := fun d' => sidecar d' x = some m → sidecar d x = some m ∨ .sidecar x m ∈ ws)
    Write.apply ?_ Or.inl h
  intro w hw d' ih h'
  rcases sidecar_apply h' with h'' | rfl
  · exact ih h''
  · exact Or.inr hw

lemma segData_applyWrites {ws : List Write} {d : Option Folder} {x : ℕ} {b : Bytes}
    (h : segData (applyWrites ws d) x = some b) : segData d x = some b ∨ .seg x b ∈ ws := by
  refine Lib.applyAll_invariant
    (I := fun d' => segData d' x = some b → segData d x = some b ∨ .seg x b ∈ ws)
    Write.apply ?_ Or.inl h
  intro w hw d' ih h'
  rcases segData_apply h' with h'' | rfl
  · exact ih h''
  · exact Or.inr hw

lemma sidecar_applyWrites_of {ws : List Write} {d : Option Folder} {x : ℕ}
    (h : (sidecar d x).isSome) (hr : .removeSidecar x ∉ ws) (ha : .removeAll ∉ ws) :
    (sidecar (applyWrites ws d) x).isSome := by
  refine Lib.applyAll_invariant (I := fun d' => (sidecar d' x).isSome) Write.apply ?_ h
  intro w hw d' h'
  exact sidecar_apply_of h' (fun e => hr (e ▸ hw)) (fun e => ha (e ▸ hw))

lemma readable_applyWrites_of {ws : List Write} {d : Option Folder} {x : ℕ} (h : Readable d x)
    (hr : .removeSeg x ∉ ws) (hm : .removeSidecar x ∉ ws) (ha : .removeAll ∉ ws) :
    Readable (applyWrites ws d) x :=
  ⟨hasSeg_applyWrites_of h.1 hr ha, sidecar_applyWrites_of h.2 hm ha⟩

lemma recorded_applyWrites {ws : List Write} {d : Option Folder} (hs : ∀ st, .state st ∉ ws)
    (ha : .removeAll ∉ ws) : recorded (applyWrites ws d) = recorded d := by
  refine Lib.applyAll_invariant (I := fun d' => recorded d' = recorded d) Write.apply ?_ rfl
  intro w hw d' h'
  rw [recorded_apply (fun st e => hs st (e ▸ hw)) (fun e => ha (e ▸ hw)), h']

/-- A state saved last is the state recorded. -/
lemma recorded_applyWrites_state {ws : List Write} {d : Option Folder} (hd : d.isSome)
    (ha : .removeAll ∉ ws) (st : SpoolState) :
    recorded (applyWrites (ws ++ [.state st]) d) = { st with valid := true } := by
  rw [applyWrites, Lib.applyAll_append]
  exact recorded_apply_state (isSome_applyWrites hd ha) st

/-! ### The pending segments -/

namespace SpoolQueue

variable {q : SpoolQueue} {d : Option Folder} {t : Target}

lemma mem_pendingSeqs {s : ℕ} : s ∈ q.pendingSeqs d ↔ q.dir.isSome ∧ HasSeg d s := by
  rcases q with ⟨_ | i, _, _, _, _⟩ <;> cases d <;> simp [pendingSeqs, hasSeg_some, AList.mem_keys]

lemma pendingSeqs_sorted : (q.pendingSeqs d).Pairwise (· < ·) := by
  unfold pendingSeqs
  split
  · rename_i _ d _
    have h1 := List.pairwise_insertionSort (· ≤ ·) d.segs.keys
    have h2 : (d.segs.keys.insertionSort (· ≤ ·)).Nodup :=
      (List.perm_insertionSort _ _).nodup_iff.mpr d.segs.keys_nodup
    exact (h1.and h2).imp fun h => lt_of_le_of_ne h.1 h.2
  · exact List.Pairwise.nil

lemma readSegment_eq_some {f : Folder} {s : ℕ} {seg : SpooledSegment}
    (h : readSegment f s = some seg) :
    seg.seq = s ∧ segData (some f) s = some seg.data ∧
      ∃ m, sidecar (some f) s = some m ∧ seg.checksum = m.checksum ∧ seg.key = m.key := by
  rw [readSegment] at h
  split at h
  · rename_i m b hm hb
    obtain rfl := Option.some.inj h
    exact ⟨rfl, hb, m, hm, rfl, rfl⟩
  · exact absurd h (by simp)

lemma readSegment_isSome {f : Folder} {s : ℕ} :
    (readSegment f s).isSome ↔ Readable (some f) s := by
  rw [Readable, HasSeg, segData, sidecar, Option.bind_some, Option.bind_some, readSegment]
  cases readSidecar f s <;> cases f.segs.lookup s <;> simp

/-- What `peek_next` returns. -/
structure Peeked (q : SpoolQueue) (d : Option Folder) (t : Target) (seg : SpooledSegment) : Prop where
  dir : q.dir.isSome
  data : segData d seg.seq = some seg.data
  new : q.state.has t seg.seq = false
  sidecar : ∃ m, sidecar d seg.seq = some m ∧ seg.checksum = m.checksum ∧ seg.key = m.key
  lowest : ∀ r < seg.seq, Readable d r → q.state.has t r = true

lemma Peeked.hasSeg {seg : SpooledSegment} (h : Peeked q d t seg) : HasSeg d seg.seq := by
  rw [HasSeg, h.data]
  rfl

/-- **`peek_next`** returns the lowest readable segment the target does not
have. -/
theorem peekNext_spec {seg : SpooledSegment} (h : q.peekNext d t = some seg) : Peeked q d t seg := by
  rw [peekNext, List.findSome?_eq_some_iff] at h
  obtain ⟨l₁, s, l₂, hl, hs, hlow⟩ := h
  have hmem : s ∈ q.pendingSeqs d := by
    rw [hl]
    exact List.mem_append_right _ List.mem_cons_self
  split at hs
  · exact absurd hs (by simp)
  · rename_i hnew
    cases d with
    | none => exact absurd hs (by simp)
    | some f =>
        obtain ⟨rfl, hseg, hm⟩ := readSegment_eq_some hs
        refine ⟨(mem_pendingSeqs.mp hmem).1, hseg, by simpa using hnew, hm, ?_⟩
        intro r hr hread
        have hr1 : r ∈ q.pendingSeqs (some f) :=
          mem_pendingSeqs.mpr ⟨(mem_pendingSeqs.mp hmem).1, hread.1⟩
        have hr2 : r ∈ l₁ := by
          -- the pending list ascends, so what is below `seg.seq` stands before it
          have hsort := pendingSeqs_sorted (q := q) (d := some f)
          rw [hl] at hsort hr1
          rcases List.mem_append.mp hr1 with h' | h'
          · exact h'
          · rcases List.mem_cons.mp h' with rfl | h'
            · exact absurd hr (lt_irrefl _)
            · have := (List.pairwise_cons.mp (List.pairwise_append.mp hsort).2.1).1 r h'
              omega
        by_contra hhas
        have := hlow r hr2
        rw [if_neg hhas, Option.bind_some] at this
        have h2 := readSegment_isSome.mpr hread
        rw [this] at h2
        exact absurd h2 (by simp)

/-- `peek_next` returns nothing exactly when everything readable is had by the
target. -/
lemma peekNext_eq_none_iff (hdir : q.dir.isSome) :
    q.peekNext d t = none ↔ ∀ s, Readable d s → q.state.has t s = true := by
  rw [peekNext, List.findSome?_eq_none_iff]
  constructor
  · intro h s hs
    by_contra hhas
    have h1 := h s (mem_pendingSeqs.mpr ⟨hdir, hs.1⟩)
    rw [if_neg hhas] at h1
    cases d with
    | none => exact absurd hs.1 (not_hasSeg_none s)
    | some f =>
        have h2 := readSegment_isSome.mpr hs
        rw [Option.bind_some] at h1
        rw [h1] at h2
        exact absurd h2 (by simp)
  · intro h s hs
    split
    · rfl
    · rename_i hhas
      cases d with
      | none => rfl
      | some f =>
          by_contra hne
          exact hhas (h s (readSegment_isSome.mp (Option.isSome_iff_ne_none.mpr hne)))

/-! ### The disk cap -/

/-- The two removals of an eviction or a confirmation. -/
def removals (vs : List ℕ) : List Write := vs.flatMap fun s => [.removeSeg s, .removeSidecar s]

@[simp] lemma removeSeg_mem_removals {vs : List ℕ} {s : ℕ} : .removeSeg s ∈ removals vs ↔ s ∈ vs := by
  simp [removals]

@[simp] lemma removeSidecar_mem_removals {vs : List ℕ} {s : ℕ} :
    .removeSidecar s ∈ removals vs ↔ s ∈ vs := by
  simp [removals]

lemma mem_removals {vs : List ℕ} {w : Write} (h : w ∈ removals vs) :
    ∃ v ∈ vs, w = .removeSeg v ∨ w = .removeSidecar v := by
  simpa [removals] using h

lemma removeAll_notMem_removals (vs : List ℕ) : .removeAll ∉ removals vs := by
  simp [removals]

lemma state_notMem_removals (vs : List ℕ) (st : SpoolState) : .state st ∉ removals vs := by
  simp [removals]

lemma removals_cons (v : ℕ) (vs : List ℕ) :
    removals (v :: vs) = .removeSeg v :: .removeSidecar v :: removals vs := rfl

/-- The removals take the files of their segments and no others. -/
lemma files_removals (vs : List ℕ) (d : Option Folder) (x : ℕ) :
    segData (applyWrites (removals vs) d) x = (if x ∈ vs then none else segData d x) ∧
      sidecar (applyWrites (removals vs) d) x = if x ∈ vs then none else sidecar d x := by
  induction vs generalizing d with
  | nil => exact ⟨rfl, rfl⟩
  | cons v vs ih =>
      rw [removals_cons, applyWrites, Lib.applyAll_cons, Lib.applyAll_cons]
      obtain ⟨h1, h2⟩ := ih (Write.apply (.removeSidecar v) (Write.apply (.removeSeg v) d))
      rw [h1, h2]
      cases d with
      | none => simp [Write.apply, segData, sidecar]
      | some f =>
          by_cases hx : x = v
          · subst hx
            simp [Write.apply, segData, sidecar, readSidecar]
          · simp [Write.apply, segData, sidecar, readSidecar, hx, AList.lookup_erase_ne hx]

lemma hasSeg_removals {vs : List ℕ} {d : Option Folder} {x : ℕ} :
    HasSeg (applyWrites (removals vs) d) x ↔ x ∉ vs ∧ HasSeg d x := by
  rw [HasSeg, (files_removals vs d x).1, HasSeg]
  split <;> simp_all

lemma recorded_removals (vs : List ℕ) (d : Option Folder) :
    recorded (applyWrites (removals vs) d) = recorded d :=
  recorded_applyWrites (state_notMem_removals vs) (removeAll_notMem_removals vs)

/-- What the eviction loop leaves, from `e`, after the victims `vs`. -/
structure Evicts (e e' : Evicting) (vs : List ℕ) : Prop where
  writes : e'.writes = e.writes ++ removals vs
  drops : e'.drops.map (·.seq) = e.drops.map (·.seq) ++ vs
  state : e'.state = { e.state with firstSeq := e'.state.firstSeq }
  floor_le : e.state.firstSeq ≤ e'.state.firstSeq
  below : ∀ v ∈ vs, v < e'.state.firstSeq
  floor : e'.state.firstSeq = e.state.firstSeq ∨ ∃ v ∈ vs, e'.state.firstSeq = v + 1

lemma Evicts.refl (e : Evicting) : Evicts e e [] :=
  ⟨by simp [removals], by simp, rfl, le_rfl, by simp, Or.inl rfl⟩

/-- The eviction loop takes a stretch of the oldest segments, never the one just
written. -/
lemma evictLoop_spec (maxBytes keep : ℕ) (d : Option Folder) (e : Evicting) (l : List ℕ) :
    ∃ vs, vs <+: l ∧ keep ∉ vs ∧ Evicts e (evictLoop maxBytes keep d e l) vs := by
  induction l generalizing e with
  | nil => exact ⟨[], List.prefix_rfl, by simp, .refl e⟩
  | cons v rest ih =>
      rw [evictLoop]
      split
      · rename_i hv
        obtain ⟨vs, hpre, hkeep, hev⟩ := ih (evictLocked d e v)
        refine ⟨v :: vs, List.cons_prefix_cons.mpr ⟨rfl, hpre⟩, ?_, ?_⟩
        · rw [List.mem_cons, not_or]
          exact ⟨fun h => hv.2.2 h.symm, hkeep⟩
        have hfl : (evictLocked d e v).state.firstSeq = max e.state.firstSeq (v + 1) := rfl
        have hle := hev.floor_le
        rw [hfl] at hle
        refine ⟨?_, ?_, ?_, by omega, ?_, ?_⟩
        · rw [hev.writes]
          simp [evictLocked, removals]
        · rw [hev.drops]
          simp [evictLocked]
        · rw [hev.state]
          rfl
        · intro x hx
          rcases List.mem_cons.mp hx with rfl | hx
          · omega
          · exact hev.below x hx
        · rcases hev.floor with h | ⟨x, hx, h⟩
          · rw [hfl] at h
            rcases le_total (v + 1) e.state.firstSeq with h' | h'
            · exact Or.inl (by omega)
            · exact Or.inr ⟨v, List.mem_cons_self, by omega⟩
          · exact Or.inr ⟨x, List.mem_cons_of_mem _ hx, h⟩
      · exact ⟨[], List.nil_prefix, by simp, .refl e⟩

lemma overCap_spec (q : SpoolQueue) (d : Option Folder) (seq : ℕ) (e : Evicting) :
    ∃ vs, vs <+: q.pendingSeqs d ∧ seq ∉ vs ∧ Evicts e (q.overCap d seq e) vs := by
  rw [overCap]
  split
  · exact evictLoop_spec q.maxBytes seq d e (q.pendingSeqs d)
  · exact ⟨[], List.nil_prefix, by simp, .refl e⟩

/-- What `enqueue` does: the files of the segment, the victims `vs` of the disk
cap removed, the state saved. -/
structure Enqueues (sha : Bytes → String) (q : SpoolQueue) (d : Option Folder)
    (seg : SpooledSegment) (e : Enqueued) (vs : List ℕ) : Prop where
  dir : q.dir.isSome
  dir' : e.queue.dir = q.dir
  writes : e.writes = segmentFiles sha seg ++ (removals vs ++ [.state e.queue.state])
  drops : e.drops.map (·.seq) = vs
  victims : vs <+: q.pendingSeqs (applyWrites (segmentFiles sha seg) d)
  keeps : seg.seq ∉ vs
  last : e.queue.state.lastEnqueued = max q.state.lastEnqueued seg.seq
  valid : e.queue.state.valid = q.state.valid
  any : ∀ t, e.queue.state.any t = q.state.any t
  mark : ∀ t, e.queue.state.mark t = q.state.mark t
  floor_le : q.state.firstSeq ≤ e.queue.state.firstSeq
  below : ∀ v ∈ vs, v < e.queue.state.firstSeq
  floor : e.queue.state.firstSeq = q.state.firstSeq ∨ ∃ v ∈ vs, e.queue.state.firstSeq = v + 1

/-- **`enqueue`**. -/
theorem enqueue_spec {sha : Bytes → String} {now : ℤ} {seg : SpooledSegment} {e : Enqueued}
    (h : q.enqueue sha now d seg = some e) : ∃ vs, Enqueues sha q d seg e vs := by
  obtain ⟨vs, hpre, hkeep, hev⟩ := overCap_spec q (applyWrites (segmentFiles sha seg) d) seg.seq
    (q.counted now seg)
  rw [enqueue] at h
  cases hd : q.dir with
  | none =>
      rw [hd] at h
      exact absurd h (by simp)
  | some i =>
      rw [hd] at h
      obtain rfl := Option.some.inj h
      refine ⟨vs, by rw [hd]; rfl, hd.symm, ?_, by simpa [counted] using hev.drops, hpre, hkeep,
        ?_, ?_, ?_, ?_, hev.floor_le, hev.below, hev.floor⟩
      · dsimp only
        rw [hev.writes]
        simp [saveState, counted]
      · dsimp only
        rw [hev.state]
        rfl
      · dsimp only
        rw [hev.state]
        rfl
      · intro t
        dsimp only
        rw [hev.state]
        cases t <;> rfl
      · intro t
        dsimp only
        rw [hev.state]
        cases t <;> rfl

lemma valid_eq {st : SpoolState} (h : st.valid = true) : { st with valid := true } = st := by
  rw [← h]

namespace Enqueues

variable {sha : Bytes → String} {seg : SpooledSegment} {e : Enqueued} {vs : List ℕ}
  (hs : Enqueues sha q d seg e vs)

include hs

lemma removeAll_notMem : .removeAll ∉ e.writes := by
  rw [hs.writes]
  simp [segmentFiles, removals]

lemma length : e.writes.length = 3 + 2 * vs.length := by
  have : (removals vs).length = 2 * vs.length := by
    simp [removals, List.length_flatMap, mul_comm]
  rw [hs.writes, List.length_append, List.length_append, this]
  simp only [segmentFiles, List.length_cons, List.length_nil]
  omega

/-- Before its last write, `enqueue` has not touched the state. -/
lemma state_mem_take {k : ℕ} (hk : k < e.writes.length) (st : SpoolState) :
    .state st ∉ e.writes.take k := by
  have hw : e.writes = segmentFiles sha seg ++ removals vs ++ [.state e.queue.state] := by
    rw [hs.writes, List.append_assoc]
  rw [hw] at hk ⊢
  rw [List.length_append, List.length_singleton] at hk
  rw [List.take_append_of_le_length (by omega)]
  intro h
  have := List.mem_of_mem_take h
  simp [segmentFiles, removals] at this

lemma recorded_cut {k : ℕ} (hk : k < e.writes.length) : recorded (cutWrites k e.writes d) = recorded d :=
  recorded_applyWrites (hs.state_mem_take hk) fun h => hs.removeAll_notMem (List.mem_of_mem_take h)

lemma recorded_all (hd : d.isSome) (hv : q.state.valid = true) :
    recorded (applyWrites e.writes d) = e.queue.state := by
  have hw : e.writes = (segmentFiles sha seg ++ removals vs) ++ [.state e.queue.state] := by
    rw [hs.writes, List.append_assoc]
  rw [hw, recorded_applyWrites_state hd (by simp [segmentFiles, removals]),
    valid_eq (hs.valid.trans hv)]

lemma hasSeg_cut {k x : ℕ} (h : HasSeg (cutWrites k e.writes d) x) : HasSeg d x ∨ x = seg.seq := by
  refine (hasSeg_applyWrites h).imp_right ?_
  rintro ⟨b, hb⟩
  have := List.mem_of_mem_take hb
  rw [hs.writes] at this
  simp [segmentFiles, removals] at this
  exact this.1

/-- Before the sidecar is written nothing has been evicted. -/
lemma removal_notMem_take {k : ℕ} (hk : k ≤ 2) (x : ℕ) :
    .removeSeg x ∉ e.writes.take k ∧ .removeSidecar x ∉ e.writes.take k := by
  have : e.writes.take k = (segmentFiles sha seg).take k := by
    rw [hs.writes, List.take_append_of_le_length (by simpa [segmentFiles] using hk)]
  rw [this]
  constructor <;> intro hm <;> have := List.mem_of_mem_take hm <;> simp [segmentFiles] at this

lemma sidecar_cut_of {k x : ℕ} (hk : k ≤ 2) (h : (sidecar d x).isSome) :
    (sidecar (cutWrites k e.writes d) x).isSome :=
  sidecar_applyWrites_of h (hs.removal_notMem_take hk x).2
    fun hm => hs.removeAll_notMem (List.mem_of_mem_take hm)

lemma readable_cut {k x : ℕ} (hx : x ∉ vs) (h : Readable d x) : Readable (cutWrites k e.writes d) x := by
  refine readable_applyWrites_of h (fun hm => ?_) (fun hm => ?_)
    (fun hm => hs.removeAll_notMem (List.mem_of_mem_take hm))
  · have := List.mem_of_mem_take hm
    rw [hs.writes] at this
    simp [segmentFiles, hx] at this
  · have := List.mem_of_mem_take hm
    rw [hs.writes] at this
    simp [segmentFiles, hx] at this

/-- The segment just written stays: it is never a victim. -/
lemma readable_new {k : ℕ} (hd : d.isSome) (hk : 2 ≤ k) :
    Readable (cutWrites k e.writes d) seg.seq := by
  have hfiles : Readable (applyWrites (segmentFiles sha seg) d) seg.seq := by
    obtain ⟨f, rfl⟩ := Option.isSome_iff_exists.mp hd
    constructor
    · simp [segmentFiles, Write.apply, hasSeg_some]
    · simp [segmentFiles, Write.apply, sidecar, readSidecar]
  have htake : e.writes.take k =
      segmentFiles sha seg ++ (removals vs ++ [Write.state e.queue.state]).take (k - 2) := by
    rw [hs.writes, List.take_append, List.take_of_length_le (by simpa [segmentFiles] using hk)]
    rfl
  rw [cutWrites, Lib.cut, htake, Lib.applyAll_append]
  refine readable_applyWrites_of hfiles (fun hm => ?_) (fun hm => ?_) (fun hm => ?_) <;>
    have := List.mem_of_mem_take hm
  · simp [hs.keeps] at this
  · simp [hs.keeps] at this
  · simp [removals] at this

/-- Its bytes are the ones written. -/
lemma segData_new (hd : d.isSome) : segData (applyWrites e.writes d) seg.seq = some seg.data := by
  obtain ⟨f, rfl⟩ := Option.isSome_iff_exists.mp hd
  have hcut : cutWrites e.writes.length e.writes (some f) = applyWrites e.writes (some f) :=
    Lib.cut_of_length_le _ le_rfl _
  have hseg : HasSeg (applyWrites e.writes (some f)) seg.seq := by
    rw [← hcut]
    exact (hs.readable_new rfl (by rw [hs.writes]; simp [segmentFiles])).1
  obtain ⟨x, hx⟩ := Option.isSome_iff_exists.mp hseg
  have hfiles : segData (applyWrites (segmentFiles sha seg) (some f)) seg.seq = some seg.data := by
    simp [segmentFiles, Write.apply, segData]
  have hx' := hx
  rw [hs.writes, applyWrites, Lib.applyAll_append] at hx'
  rcases segData_applyWrites hx' with h | h
  · rw [hx, ← h, hfiles]
  · exact absurd h (by simp [removals])

end Enqueues

/-! ### Confirmations -/

lemma has_iff {st : SpoolState} {s : ℕ} :
    st.has t s = true ↔ st.any t = true ∧ s ≤ st.mark t := by
  simp [SpoolState.has]

/-- The state `confirm` records. -/
lemma confirmed_eq (now : ℤ) (st : SpoolState) (s : ℕ) (t : Target) :
    (confirmed now st s t).any t = true ∧ (confirmed now st s t).mark t = max (st.mark t) s := by
  cases t <;> exact ⟨rfl, rfl⟩

lemma confirmed_other (now : ℤ) (st : SpoolState) (s : ℕ) {t u : Target} (h : u ≠ t) :
    (confirmed now st s t).any u = st.any u ∧ (confirmed now st s t).mark u = st.mark u := by
  cases t <;> cases u <;> first | exact absurd rfl h | exact ⟨rfl, rfl⟩

@[simp] lemma confirmed_lastEnqueued (now : ℤ) (st : SpoolState) (s : ℕ) (t : Target) :
    (confirmed now st s t).lastEnqueued = st.lastEnqueued := by
  cases t <;> rfl

@[simp] lemma confirmed_firstSeq (now : ℤ) (st : SpoolState) (s : ℕ) (t : Target) :
    (confirmed now st s t).firstSeq = st.firstSeq := by
  cases t <;> rfl

@[simp] lemma confirmed_valid (now : ℤ) (st : SpoolState) (s : ℕ) (t : Target) :
    (confirmed now st s t).valid = st.valid := by
  cases t <;> rfl

/-- What the target had, it has after any confirmation. -/
lemma has_confirmed {now : ℤ} {st : SpoolState} {s x : ℕ} {u : Target} (h : st.has t x = true) :
    (confirmed now st s u).has t x = true := by
  rw [has_iff] at h ⊢
  by_cases htu : t = u
  · subst htu
    rw [(confirmed_eq now st s t).1, (confirmed_eq now st s t).2]
    exact ⟨rfl, le_max_of_le_left h.2⟩
  · rw [(confirmed_other now st s htu).1, (confirmed_other now st s htu).2]
    exact h

/-- **`confirm`**: the state first, then the files of `seq`, when every target in
play has it. -/
theorem confirm_spec (now : ℤ) (q : SpoolQueue) (d : Option Folder) (seq : ℕ) (t : Target)
    (hdir : q.dir.isSome) :
    (q.confirm now d seq t).1.state = confirmed now q.state seq t ∧
      (q.confirm now d seq t).1.dir = q.dir ∧
      ((q.confirm now d seq t).2 = [.state (confirmed now q.state seq t)] ∨
        (everyTargetHas (confirmed now q.state seq t) seq = true ∧
          (q.confirm now d seq t).2 = .state (confirmed now q.state seq t) :: removals [seq])) := by
  rw [confirm]
  split
  · rename_i h
    exact ⟨rfl, rfl, Or.inr ⟨h, by simp [saveState, hdir, removals]⟩⟩
  · exact ⟨rfl, rfl, Or.inl (by simp [saveState, hdir])⟩

/-- Once `confirm` has written anything, its state is the state recorded. -/
lemma recorded_confirm {now : ℤ} {seq k : ℕ} (hdir : q.dir.isSome) (hd : d.isSome)
    (hv : q.state.valid = true) (hk : 0 < k) :
    recorded (cutWrites k (q.confirm now d seq t).2 d) = confirmed now q.state seq t := by
  obtain ⟨-, -, hw⟩ := confirm_spec now q d seq t hdir
  have hstate : recorded (Write.apply (.state (confirmed now q.state seq t)) d) =
      confirmed now q.state seq t := by
    rw [recorded_apply_state hd, valid_eq (by simpa using hv)]
  obtain ⟨k, rfl⟩ : ∃ j, k = j + 1 := ⟨k - 1, by omega⟩
  rcases hw with hw | ⟨-, hw⟩
  · rw [hw]
    simpa [cutWrites, Lib.cut] using hstate
  · rw [hw, cutWrites, Lib.cut, List.take_succ_cons, Lib.applyAll_cons]
    refine (recorded_applyWrites (fun st h => ?_) fun h => ?_).trans hstate
    · exact state_notMem_removals _ st (List.mem_of_mem_take h)
    · exact removeAll_notMem_removals _ (List.mem_of_mem_take h)

lemma mem_confirm_writes {now : ℤ} {seq : ℕ} {x : Write} (h : x ∈ (q.confirm now d seq t).2) :
    x = .state (confirmed now q.state seq t) ∨ x = .removeSeg seq ∨ x = .removeSidecar seq := by
  rw [confirm] at h
  split at h <;> by_cases hdir : q.dir.isSome <;> simp [saveState, hdir] at h <;> tauto

lemma everyTargetHas_primary {st : SpoolState} {s : ℕ} (h : everyTargetHas st s = true) :
    st.has .primary s = true := by
  rw [everyTargetHas, Bool.and_eq_true] at h
  exact h.1

/-- With no disk cap, `enqueue` writes its files and saves its state. -/
lemma enqueue_uncapped {sha : Bytes → String} {now : ℤ} {seg : SpooledSegment} {e : Enqueued}
    (hcap : q.maxBytes = 0) (h : q.enqueue sha now d seg = some e) :
    e.writes = segmentFiles sha seg ++ [.state (q.counted now seg).state] ∧
      e.queue.state = (q.counted now seg).state ∧ e.queue.dir = q.dir ∧
      e.queue.maxBytes = q.maxBytes := by
  rw [enqueue] at h
  cases hdir : q.dir with
  | none =>
      rw [hdir] at h
      exact absurd h (by simp)
  | some i =>
      rw [hdir] at h
      obtain rfl := Option.some.inj h
      simp [overCap, hcap, saveState, counted]

/-- The target count `set_targets` settles on. -/
def clampTargets (n : ℤ) : ℤ := if n < 1 then 1 else if n > 2 then 2 else n

/-- What `set_targets` sweeps: with one target left, what the primary has. -/
def swept (n : ℤ) (q : SpoolQueue) (d : Option Folder) : List ℕ :=
  if clampTargets n < 2 then (q.pendingSeqs d).filter fun s => q.state.has .primary s else []

lemma mem_swept {n : ℤ} {s : ℕ} (h : s ∈ swept n q d) :
    HasSeg d s ∧ q.state.has .primary s = true := by
  rw [swept] at h
  split at h
  · rw [List.mem_filter] at h
    exact ⟨(mem_pendingSeqs.mp h.1).2, h.2⟩
  · exact absurd h (by simp)

/-- **`set_targets`**. -/
theorem setTargets_spec (n : ℤ) (q : SpoolQueue) (d : Option Folder) :
    (q.setTargets n d).1.state = { q.state with targets := clampTargets n } ∧
      (q.setTargets n d).1.dir = q.dir ∧
      (q.setTargets n d).2 = removals (swept n q d) ++ (q.setTargets n d).1.saveState :=
  ⟨rfl, rfl, rfl⟩

/-- **`remove_if_done`**: nothing, or the whole folder of an event that holds no
segment. -/
theorem removeIfDone_cases (q : SpoolQueue) (d : Option Folder) :
    q.removeIfDone d = (q, [], false) ∨
      q.dir.isSome ∧ (∀ s, ¬HasSeg d s) ∧
        q.removeIfDone d = ({ q with dir := none, bytesPending := 0 }, [.removeAll], true) := by
  rw [removeIfDone]
  split
  · exact Or.inl rfl
  · rename_i h
    simp only [Bool.or_eq_true, not_or, Bool.not_eq_true, Option.isNone_eq_false_iff] at h
    refine Or.inr ⟨h.1.1.1, fun s hs => ?_, rfl⟩
    cases d with
    | none => exact not_hasSeg_none s hs
    | some d =>
        have hempty : d.segs.keys = [] := by simpa [Folder.hasSegments] using h.2
        rw [hasSeg_some, AList.mem_keys, hempty] at hs
        exact absurd hs (by simp)

end SpoolQueue

end Multisite

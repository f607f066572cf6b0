import Multisite.Session.Runs

/-!
A session and its folder: what is recorded follows what is in memory.

`Linked` is kept by every run (`linked_of_reach`), also by one in which a write
of the spool fails: the marks in `state.json` are those in memory, and its
`last_enqueued` is behind only while the sidecar of the last segment is there.
A session whose folder is gone has nothing in hand.
-/

namespace Multisite

open SpoolQueue (confirmed)

/-- The folder of a session that has one. -/
structure Linked (d : Option Folder) (q : SpoolQueue) (next : ℕ) : Prop where
  disk : d.isSome
  valid : q.state.valid = true
  validDisk : (recorded d).valid = true
  any : ∀ t, (recorded d).any t = q.state.any t
  mark : ∀ t, (recorded d).mark t = q.state.mark t
  floor : (recorded d).firstSeq ≤ q.state.firstSeq
  last : (recorded d).lastEnqueued = q.state.lastEnqueued ∨
    (recorded d).lastEnqueued ≤ q.state.lastEnqueued ∧
      (sidecar d q.state.lastEnqueued).isSome = true
  next : q.state.lastEnqueued < next ∨ next = 0 ∧ q.state.lastEnqueued = 0

/-- A session and its folder. -/
structure LinkedUp (d : Option Folder) (c : Core) : Prop where
  linked : c.spool.dir.isSome → Linked d c.spool c.nextSeq
  gone : c.spool.dir = none → (∀ t, c.hand t = .idle) ∧ c.dropping = []
  noFolder : c.spool.dir = none → d = none

namespace Linked

variable {d : Option Folder} {q : SpoolQueue} {next : ℕ}

/-- A queue whose state has just been saved is linked. -/
lemma of_saved (hd : d.isSome) (hv : q.state.valid = true) (hrec : recorded d = q.state)
    (hn : q.state.lastEnqueued < next ∨ next = 0 ∧ q.state.lastEnqueued = 0) : Linked d q next where
  disk := hd
  valid := hv
  validDisk := by rw [hrec, hv]
  any t := by rw [hrec]
  mark t := by rw [hrec]
  floor := by rw [hrec]
  last := Or.inl (by rw [hrec])
  next := hn

lemma same {d' : Option Folder} (hs : SameFolder d d') (h : Linked d q next) : Linked d' q next where
  disk := by rw [hs.isSome]; exact h.disk
  valid := h.valid
  validDisk := by rw [hs.recorded]; exact h.validDisk
  any := by rw [hs.recorded]; exact h.any
  mark := by rw [hs.recorded]; exact h.mark
  floor := by rw [hs.recorded]; exact h.floor
  last := by rw [hs.recorded, hs.sidecar]; exact h.last
  next := h.next

/-- The number `publish_segment` takes becomes the last one enqueued. -/
lemma last_max (h : Linked d q next) : max q.state.lastEnqueued next = next := by
  have := h.next
  omega

end Linked

namespace LinkedUp

variable {ev : Event} {d : Option Folder} {md md' : Media} {h h' : History} {c c' : Core}
  {a : Action} {ws : List Write}

/-- A session at its folder. -/
lemma of_dir (hdir : c.spool.dir.isSome) (h : Linked d c.spool c.nextSeq) : LinkedUp d c where
  linked _ := h
  gone hn := absurd hdir (by simp [hn])
  noFolder hn := absurd hdir (by simp [hn])

lemma dir_of_hand (hl : LinkedUp d c) {t : Target} (ht : c.hand t ≠ .idle) : c.spool.dir.isSome := by
  by_contra hn
  exact ht ((hl.gone (Option.not_isSome_iff_eq_none.mp hn)).1 t)

/-- What is recorded belongs to a session at its folder. -/
lemma dir_of_valid (hl : LinkedUp d c) (hv : (recorded d).valid = true) : c.spool.dir.isSome := by
  by_contra hn
  rw [hl.noFolder (Option.not_isSome_iff_eq_none.mp hn)] at hv
  exact absurd hv (by simp)

/-- A move that leaves the queue and the folder alone, and gives no idle hand
work. -/
lemma of_hands (hl : LinkedUp d c) (hq : c'.spool = c.spool) (hn : c'.nextSeq = c.nextSeq)
    (hhand : (∀ t, c.hand t = .idle) → ∀ t, c'.hand t = .idle)
    (hdrop : c.dropping = [] → c'.dropping = []) : LinkedUp d c' where
  linked hd := by
    rw [hq] at hd ⊢
    rw [hn]
    exact hl.linked hd
  gone hd := by
    rw [hq] at hd
    exact ⟨hhand (hl.gone hd).1, hdrop (hl.gone hd).2⟩
  noFolder hd := by
    rw [hq] at hd
    exact hl.noFolder hd

/-- `confirm`, called for a segment in hand, saves the state. -/
lemma confirm (hl : LinkedUp d c) {t : Target} {now : ℤ} {seq : ℕ} {pc : UploadPc}
    (ht : c.hand t ≠ .idle) :
    LinkedUp (applyWrites (c.spool.confirm now d seq t).2 d)
      ({ c with spool := (c.spool.confirm now d seq t).1 }.withHand t pc) := by
  have hdir := hl.dir_of_hand ht
  have hlink := hl.linked hdir
  obtain ⟨hst, hdir', hw⟩ := SpoolQueue.confirm_spec now c.spool d seq t hdir
  refine .of_dir (by rw [Core.spool_withHand, hdir']; exact hdir) ?_
  · simp only [Core.spool_withHand, Core.nextSeq_withHand]
    refine .of_saved ?_ ?_ ?_ ?_
    · exact isSome_applyWrites hlink.disk fun hm => by
        rcases SpoolQueue.mem_confirm_writes hm with h | h | h <;> exact absurd h (by simp)
    · rw [hst]
      simpa using hlink.valid
    · rw [hst, ← SpoolQueue.recorded_confirm (t := t) hdir hlink.disk hlink.valid
        (k := (c.spool.confirm now d seq t).2.length), cutWrites, Lib.cut_of_length_le _ le_rfl]
      rcases hw with hw | ⟨-, hw⟩ <;> rw [hw] <;> simp
    · rw [hst]
      simpa using hlink.next

/-- `publish_segment`, complete. -/
lemma publish (hl : LinkedUp d c) {seg : SpooledSegment} {e : SpoolQueue.Enqueued}
    {vs drops : List ℕ} (hseq : seg.seq = c.nextSeq)
    (hs : c.spool.Enqueues ev.sha256Hex d seg e vs) :
    LinkedUp (applyWrites e.writes d)
      { c with nextSeq := c.nextSeq + 1, spool := e.queue, dropping := drops } := by
  have hlink := hl.linked hs.dir
  refine .of_dir (hs.dir'.symm ▸ hs.dir) (.of_saved ?_ ?_ ?_ (Or.inl ?_))
  · exact isSome_applyWrites hlink.disk hs.removeAll_notMem
  · exact hs.valid.trans hlink.valid
  · exact hs.recorded_all hlink.disk hlink.valid
  · show e.queue.state.lastEnqueued < c.nextSeq + 1
    rw [hs.last, hseq, hlink.last_max]
    exact Nat.lt_succ_self _

/-- `publish_segment` when a write throws: at the files, and the memory is what it
was, or at the state, and the new sidecar is there. -/
lemma fault (hl : LinkedUp d c) {seg : SpooledSegment} {e : SpoolQueue.Enqueued} {vs : List ℕ}
    {k : ℕ} {q : SpoolQueue} (hseq : seg.seq = c.nextSeq)
    (hs : c.spool.Enqueues ev.sha256Hex d seg e vs)
    (hq : k < 2 ∧ q = c.spool ∨ k + 1 = e.writes.length ∧ q = e.queue) :
    LinkedUp (applyWrites (e.writes.take k) d) { c with nextSeq := c.nextSeq + 1, spool := q } := by
  have hlink := hl.linked hs.dir
  have hlen := hs.length
  have hk : k < e.writes.length := by omega
  have hrec : recorded (applyWrites (e.writes.take k) d) = recorded d := hs.recorded_cut hk
  have hdisk : (applyWrites (e.writes.take k) d).isSome :=
    isSome_applyWrites hlink.disk fun hm => hs.removeAll_notMem (List.mem_of_mem_take hm)
  rcases hq with ⟨hk2, rfl⟩ | ⟨hk2, rfl⟩
  · refine .of_dir hs.dir ?_
    refine ⟨hdisk, hlink.valid, by rw [hrec]; exact hlink.validDisk, by rw [hrec]; exact hlink.any,
      by rw [hrec]; exact hlink.mark, by rw [hrec]; exact hlink.floor, ?_, Or.inl ?_⟩
    · rw [hrec]
      exact hlink.last.imp_right fun h => ⟨h.1, hs.sidecar_cut_of (by omega) h.2⟩
    · have := hlink.next
      show c.spool.state.lastEnqueued < c.nextSeq + 1
      omega
  · have hlast : e.queue.state.lastEnqueued = c.nextSeq := by rw [hs.last, hseq, hlink.last_max]
    refine .of_dir (hs.dir'.symm ▸ hs.dir) ?_
    refine ⟨hdisk, hs.valid.trans hlink.valid, by rw [hrec]; exact hlink.validDisk,
      fun t => by rw [hrec, hs.any]; exact hlink.any t,
      fun t => by rw [hrec, hs.mark]; exact hlink.mark t,
      by rw [hrec]; exact hlink.floor.trans hs.floor_le, Or.inr ?_, Or.inl ?_⟩
    · rw [hrec, hlast, ← hseq]
      refine ⟨?_, (hs.readable_new hlink.disk (by omega)).2⟩
      have h1 := hlink.next
      have h2 := hlink.last
      omega
    · show e.queue.state.lastEnqueued < c.nextSeq + 1
      omega

/-- `mark_ended` saves the state. -/
lemma mark (hl : LinkedUp d c) (b : Bool) :
    LinkedUp (applyWrites (c.spool.markEnded b).2 d)
      { c with spool := (c.spool.markEnded b).1 } := by
  refine ⟨fun hd => ?_, fun hd => ?_, fun hd => ?_⟩
  · have hdir : c.spool.dir.isSome := hd
    have hlink := hl.linked hdir
    have hws : (c.spool.markEnded b).2 = [.state (c.spool.markEnded b).1.state] := if_pos hdir
    rw [hws]
    refine .of_saved ?_ hlink.valid ?_ hlink.next
    · exact isSome_applyWrites hlink.disk (by simp)
    · exact (recorded_apply_state hlink.disk _).trans (SpoolQueue.valid_eq hlink.valid)
  · obtain ⟨h1, h2⟩ := hl.gone hd
    exact ⟨fun t => by have := h1 t; cases t <;> exact this, h2⟩
  · have hdir : c.spool.dir = none := hd
    have hws : (c.spool.markEnded b).2 = [] := if_neg (by simp [hdir])
    rw [hws]
    exact hl.noFolder hdir

/-- `remove_if_done` finds the uploaders at rest. -/
lemma remove (hl : LinkedUp d c) (hidle : ∀ t, c.hand t = .idle) (hdrop : c.dropping = []) :
    LinkedUp (applyWrites (c.spool.removeIfDone d).2.1 d)
      { c with spool := (c.spool.removeIfDone d).1 } := by
  rw [SpoolQueue.removeIfDone]
  split
  · exact hl.of_hands rfl rfl (fun h t => by have := h t; cases t <;> exact this) id
  · refine ⟨fun hd => absurd hd (by simp), fun _ => ⟨fun t => ?_, hdrop⟩, fun _ => rfl⟩
    have := hidle t
    cases t <;> exact this

/-- **What a move keeps.** -/
lemma move (hl : LinkedUp d c) (mv : Move ev d md h c a c' md' h' ws) :
    LinkedUp (applyWrites ws d) c' := by
  -- an uploader that has work moves on: nothing else changes
  have hand : ∀ {c₁ : Core} {t : Target} {pc : UploadPc}, c₁.spool = c.spool →
      c₁.nextSeq = c.nextSeq → c₁.dropping = c.dropping → (∀ t, c₁.hand t = c.hand t) →
      c.hand t ≠ .idle → LinkedUp d (c₁.withHand t pc) := by
    intro c₁ t pc h1 h2 h3 h4 h5
    refine hl.of_hands (by simpa using h1) (by simpa using h2) (fun hidle => absurd (hidle t) h5) ?_
    simp [h3]
  cases mv with
  | quiet => exact hl
  | back hpc =>
      refine hand rfl rfl rfl (fun _ => rfl) fun hidle => ?_
      rw [hidle] at hpc
      cases hpc
  | @take t seg hpc hp =>
      refine .of_dir (by simpa using hp.dir) ?_
      simp only [Core.spool_withHand, Core.nextSeq_withHand]
      exact hl.linked hp.dir
  | pass hpc _ _ => exact hand rfl rfl rfl (fun _ => rfl) (by simp [hpc])
  | put hpc => exact hand rfl rfl rfl (fun _ => rfl) (by simp [hpc])
  | putSecond hpc => exact hand rfl rfl rfl (fun _ => rfl) (by simp [hpc])
  | list hpc _ =>
      exact hand rfl rfl rfl (fun t => by cases t <;> rfl) (by simp [hpc])
  | @confirm t now seg hpc =>
      refine hl.confirm fun hidle => ?_
      rw [hidle] at hpc
      cases t <;> exact absurd hpc (by simp [UploadPc.Confirms])
  | skip _ hpc => exact hl.confirm (by simp [hpc])
  | skipped hpc => exact hand rfl rfl rfl (fun t => by cases t <;> rfl) (by simp [hpc])
  | publish _ he =>
      obtain ⟨vs, hs⟩ := SpoolQueue.enqueue_spec he
      exact hl.publish rfl hs
  | fault _ he hq =>
      obtain ⟨vs, hs⟩ := SpoolQueue.enqueue_spec he
      exact hl.fault rfl hs hq
  | dropped hpc =>
      refine hl.of_hands rfl rfl (fun h t => ?_) fun h => absurd (hpc ▸ h) (by simp)
      have := h t
      cases t <;> exact this
  | @mark b => exact hl.mark b
  | remove hidle hdrop => exact hl.remove hidle hdrop
  | ended _ => exact hl.of_hands rfl rfl (fun h t => by have := h t; cases t <;> exact this) id
  | dequeue _ _ => exact hl.of_hands rfl rfl (fun h t => by have := h t; cases t <;> exact this) id
  | putManifest _ => exact hl.of_hands rfl rfl (fun h t => by have := h t; cases t <;> exact this) id
  | failManifest _ => exact hl.of_hands rfl rfl (fun h t => by have := h t; cases t <;> exact this) id

/-- An event just begun. -/
lemma begun {q : SpoolQueue} {m : Manifest} (hq : Begun ev q) :
    LinkedUp (applyWrites (beginWrites q.state) none) (Core.begun q ev.firstSeq m) := by
  refine .of_dir hq.dir (.of_saved rfl hq.valid (SpoolQueue.valid_eq hq.valid) ?_)
  show q.state.lastEnqueued < ev.firstSeq ∨ ev.firstSeq = 0 ∧ q.state.lastEnqueued = 0
  rw [hq.last]
  omega

/-- An event resumed. -/
lemma resumed {r : SpoolQueue} {m : Manifest} (hr : Resumed d r) :
    LinkedUp (applyWrites [.state r.state] d)
      (Core.begun r ((recorded d).lastEnqueued + 1) m) := by
  obtain ⟨now, hst⟩ := hr.state
  have hv : r.state.valid = true := by
    rw [hst]
    exact hr.valid
  refine .of_dir hr.dir (.of_saved ?_ hv ?_ (Or.inl ?_))
  · exact isSome_applyWrites hr.disk (by simp)
  · exact (recorded_apply_state hr.disk _).trans (SpoolQueue.valid_eq hv)
  · show r.state.lastEnqueued < (recorded d).lastEnqueued + 1
    rw [hst]
    exact Nat.lt_succ_self _

end LinkedUp

lemma linked_invariant (ev : Event) (cond : World → Action → Prop) :
    Invariant ev cond (fun _ => True) (fun _ _ _ => True) (fun d _ _ c => LinkedUp d c) where
  init := trivial
  same _ _ := trivial
  sameUp hs h := ⟨fun hd => (h.linked hd).same hs, h.gone, fun hd => by
    have hnone := hs.isSome
    rw [h.noFolder hd] at hnone
    exact Option.isNone_iff_eq_none.mp (by simpa using hnone)⟩
  opens _ _ _ _ := trivial
  starts _ _ := trivial
  startsUp hq _ := .begun hq
  resumes _ _ _ := trivial
  resumesUp _ _ _ hr _ := .resumed hr
  moves _ _ _ hl mv _ := hl.move mv
  crash _ _ _ _ := trivial
  cuts _ _ _ _ _ _ _ _ := trivial

/-- **Every run keeps a session linked to its folder.** -/
theorem linked_of_reach {ev : Event} {cond : World → Action → Prop} {w : World} {p : Proc}
    (h : Lib.Reach (step ev) cond Fresh w) (hm : w.machine = .up p) : LinkedUp w.disk p.core :=
  (Holds.of_up hm).mp ((linked_invariant ev cond).reach (fun _ => trivial) h)

namespace LinkedUp

variable {ev : Event} {d : Option Folder} {md md' : Media} {h h' : History} {c c' : Core}
  {a : Action} {ws : List Write}

/-- `mark_ended` writes the state it leaves in memory, if it has a folder. -/
lemma markEnded_writes (q : SpoolQueue) (b : Bool) :
    (q.markEnded b).2 = if q.dir.isSome then [.state (q.markEnded b).1.state] else [] := rfl

lemma confirms_ne_idle {t : Target} {seg : SpooledSegment} {pc : UploadPc}
    (h : pc.Confirms t seg) : pc ≠ .idle := by
  rintro rfl
  cases t <;> exact absurd h (by simp [UploadPc.Confirms])

/-- **A crash inside a move** leaves recorded the state before the move or the one
after it, or no folder. -/
lemma recorded_cut (hl : LinkedUp d c) (mv : Move ev d md h c a c' md' h' ws) (k : ℕ) :
    recorded (cutWrites k ws d) = recorded d ∨
      c.spool.dir.isSome ∧ recorded (cutWrites k ws d) = c'.spool.state ∨
      cutWrites k ws d = none := by
  rcases Nat.eq_zero_or_pos k with rfl | hk
  · exact Or.inl rfl
  have hconf : ∀ {t now seq pc}, c.hand t ≠ .idle → c.spool.dir.isSome ∧
      recorded (cutWrites k (c.spool.confirm now d seq t).2 d) =
        ({ c with spool := (c.spool.confirm now d seq t).1 }.withHand t pc).spool.state := by
    intro t now seq pc ht
    have hdir := hl.dir_of_hand ht
    have hlink := hl.linked hdir
    rw [Core.spool_withHand, (SpoolQueue.confirm_spec now c.spool d seq t hdir).1]
    exact ⟨hdir, SpoolQueue.recorded_confirm hdir hlink.disk hlink.valid hk⟩
  cases mv with
  | confirm hpc => exact Or.inr (Or.inl (hconf (confirms_ne_idle hpc)))
  | skip _ hpc => exact Or.inr (Or.inl (hconf (by simp [hpc])))
  | @publish _ _ _ _ e _ he =>
      obtain ⟨vs, hs⟩ := SpoolQueue.enqueue_spec he
      have hlink := hl.linked hs.dir
      by_cases hlen : k < e.writes.length
      · exact Or.inl (hs.recorded_cut hlen)
      · refine Or.inr (Or.inl ⟨hs.dir, ?_⟩)
        rw [cutWrites, Lib.cut_of_length_le _ (not_lt.mp hlen)]
        exact hs.recorded_all hlink.disk hlink.valid
  | @fault _ _ _ _ j e q _ he hq =>
      obtain ⟨vs, hs⟩ := SpoolQueue.enqueue_spec he
      have hlen := hs.length
      refine Or.inl ?_
      have hcut : cutWrites k (e.writes.take j) d = cutWrites (min k j) e.writes d := by
        rw [cutWrites, Lib.cut, List.take_take]
        rfl
      rw [hcut]
      exact hs.recorded_cut (by omega)
  | @mark b =>
      rw [markEnded_writes]
      split
      · rename_i hdir
        have hlink := hl.linked hdir
        rw [cutWrites, Lib.cut_of_length_le _ hk, Lib.applyAll_cons, Lib.applyAll_nil,
          recorded_apply_state hlink.disk]
        exact Or.inr (Or.inl ⟨hdir, SpoolQueue.valid_eq hlink.valid⟩)
      · exact Or.inl (by rw [cutWrites, Lib.cut, List.take_nil]; rfl)
  | remove _ _ =>
      rw [SpoolQueue.removeIfDone]
      split
      · exact Or.inl (by rw [cutWrites, Lib.cut, List.take_nil]; rfl)
      · exact Or.inr (Or.inr (by rw [cutWrites, Lib.cut_of_length_le _ hk]; rfl))
  | _ => exact Or.inl (by rw [cutWrites, Lib.cut, List.take_nil]; rfl)

end LinkedUp

/-! ### Runs in which no write fails -/

/-- No write of the spool throws. -/
def noFault : Action → Bool
  | .publishSegment _ _ _ _ fault => fault.isNone
  | .crashIn a _ => noFault a
  | _ => true

/-- What is in memory is what is recorded. -/
def Saved (d : Option Folder) (c : Core) : Prop :=
  c.spool.dir.isSome → recorded d = c.spool.state

/-- Without a failed write, every move that changes the state saves it. -/
lemma LinkedUp.saved_move {ev : Event} {d : Option Folder} {md md' : Media} {h h' : History}
    {c c' : Core} {a : Action} {ws : List Write} (hl : LinkedUp d c) (hs : Saved d c)
    (ha : noFault a = true) (mv : Move ev d md h c a c' md' h' ws) :
    Saved (applyWrites ws d) c' := by
  have hconf : ∀ {t now seq pc}, c.hand t ≠ .idle →
      Saved (applyWrites (c.spool.confirm now d seq t).2 d)
        ({ c with spool := (c.spool.confirm now d seq t).1 }.withHand t pc) := by
    intro t now seq pc ht _
    have hdir := hl.dir_of_hand ht
    have hlink := hl.linked hdir
    obtain ⟨hst, -, hw⟩ := SpoolQueue.confirm_spec now c.spool d seq t hdir
    have hlen : 0 < (c.spool.confirm now d seq t).2.length := by
      rcases hw with hw | ⟨-, hw⟩ <;> rw [hw] <;> simp
    have hrec : recorded (cutWrites (c.spool.confirm now d seq t).2.length
        (c.spool.confirm now d seq t).2 d) = confirmed now c.spool.state seq t :=
      SpoolQueue.recorded_confirm hdir hlink.disk hlink.valid hlen
    rw [cutWrites, Lib.cut_of_length_le _ le_rfl] at hrec
    rw [Core.spool_withHand, hst]
    exact hrec
  cases mv with
  | confirm hpc =>
      exact hconf (LinkedUp.confirms_ne_idle hpc)
  | skip _ hpc => exact hconf (by simp [hpc])
  | publish _ he =>
      obtain ⟨vs, hs⟩ := SpoolQueue.enqueue_spec he
      exact fun _ => hs.recorded_all (hl.linked hs.dir).disk (hl.linked hs.dir).valid
  | fault _ _ _ => exact absurd ha (by simp [noFault])
  | @mark b =>
      intro hdir
      have hdir' : c.spool.dir.isSome := hdir
      have hlink := hl.linked hdir'
      have hw : (c.spool.markEnded b).2 = [.state (c.spool.markEnded b).1.state] := if_pos hdir'
      rw [hw]
      exact (recorded_apply_state hlink.disk _).trans (SpoolQueue.valid_eq hlink.valid)
  | remove _ _ =>
      intro hdir
      rw [SpoolQueue.removeIfDone] at hdir ⊢
      split at hdir
      · rename_i hn
        rw [if_pos hn]
        exact hs hdir
      · exact absurd hdir (by simp)
  | back _ => simpa [Saved] using hs
  | take _ _ => simpa [Saved] using hs
  | pass _ _ _ => simpa [Saved] using hs
  | _ => exact hs

lemma saved_invariant (ev : Event) {cond : World → Action → Prop}
    (hcond : ∀ w a, cond w a → noFault a = true) :
    Invariant ev cond (fun w => ∀ p, w.machine = .up p → LinkedUp w.disk p.core)
      (fun _ _ _ => True) (fun d _ _ c => Saved d c) where
  init := trivial
  same _ _ := trivial
  sameUp hs h hd := hs.recorded.trans (h hd)
  opens _ _ _ _ := trivial
  starts _ _ := trivial
  startsUp hq _ _ := SpoolQueue.valid_eq hq.valid
  resumes _ _ _ := trivial
  resumesUp _ _ _ hr _ _ := by
    obtain ⟨now, hst⟩ := hr.state
    refine (recorded_apply_state hr.disk _).trans (SpoolQueue.valid_eq ?_)
    rw [hst]
    exact hr.valid
  moves hB hm hc hs mv _ := (hB _ hm).saved_move hs (hcond _ _ hc) mv
  crash _ _ _ _ := trivial
  cuts _ _ _ _ _ _ _ _ := trivial

/-- **In a run without a failed write the recorded state is the one in memory.** -/
theorem saved_of_reach {ev : Event} {cond : World → Action → Prop}
    (hcond : ∀ w a, cond w a → noFault a = true) {w : World} {p : Proc}
    (h : Lib.Reach (step ev) cond Fresh w) (hm : w.machine = .up p) : Saved w.disk p.core :=
  (Holds.of_up hm).mp ((saved_invariant ev hcond).reach (fun h _ hm => linked_of_reach h hm) h)

/-- Without a failed write, a move adds no file and takes no number, or it is
`publish_segment`, complete. -/
lemma Move.still_or_publish {ev : Event} {d : Option Folder} {md md' : Media} {h h' : History}
    {c c' : Core} {a : Action} {ws : List Write} (mv : Move ev d md h c a c' md' h' ws)
    (ha : noFault a = true) :
    ((∀ x ∈ ws, x.addsFile = false) ∧ c'.nextSeq = c.nextSeq ∧
        c'.spool.state.lastEnqueued = c.spool.state.lastEnqueued) ∨
      ∃ seg e vs, (∃ data dur pts now, a = .publishSegment data dur pts now none) ∧
        seg.seq = c.nextSeq ∧ c.spool.Enqueues ev.sha256Hex d seg e vs ∧
        c.dropping = [] ∧ ws = e.writes ∧ h' = h ∧ md' = md ∧
        c' = { c with nextSeq := c.nextSeq + 1, spool := e.queue, dropping := vs } := by
  have hconf : ∀ {t now seq}, (c.spool.confirm now d seq t).1.state.lastEnqueued =
      c.spool.state.lastEnqueued := by
    intro t now seq
    rw [SpoolQueue.confirm]
    split <;> simp
  cases mv with
  | publish hdrop he =>
      obtain ⟨vs, hs⟩ := SpoolQueue.enqueue_spec he
      exact Or.inr ⟨_, _, vs, ⟨_, _, _, _, rfl⟩, rfl, hs, hdrop, rfl, rfl, rfl, by rw [hs.drops]⟩
  | fault _ _ _ => exact absurd ha (by simp [noFault])
  | confirm _ =>
      refine Or.inl ⟨fun x hx => ?_, by simp, by simpa using hconf⟩
      rcases SpoolQueue.mem_confirm_writes hx with rfl | rfl | rfl <;> rfl
  | skip _ _ =>
      refine Or.inl ⟨fun x hx => ?_, by simp, by simpa using hconf⟩
      rcases SpoolQueue.mem_confirm_writes hx with rfl | rfl | rfl <;> rfl
  | mark =>
      refine Or.inl ⟨fun x hx => ?_, rfl, rfl⟩
      rw [LinkedUp.markEnded_writes] at hx
      split at hx
      · rw [List.mem_singleton.mp hx]
        rfl
      · exact absurd hx (by simp)
  | remove _ _ =>
      rw [SpoolQueue.removeIfDone]
      split
      · exact Or.inl ⟨fun x hx => absurd hx (by simp), rfl, rfl⟩
      · exact Or.inl ⟨fun x hx => by rw [List.mem_singleton.mp hx]; rfl, rfl, rfl⟩
  | _ => exact Or.inl ⟨fun x hx => absurd hx (by simp), by simp, by simp⟩

/-! ### Marks and removals -/

section

variable {ev : Event} {d : Option Folder} {md md' : Media} {h h' : History} {c c' : Core}
  {a : Action} {ws : List Write}

/-- How a target's mark comes to have a number: it had it, or the uploader
confirmed the segment in hand, uploaded or damaged, and the number is not above
that one. -/
lemma LinkedUp.has_hand (hl : LinkedUp d c) (mv : Move ev d md h c a c' md' h' ws) {u : Target}
    {s : ℕ} (hs : c'.spool.state.has u s = true) :
    c.spool.state.has u s = true ∨
      ∃ seg, (c.hand u).segment = some seg ∧ (c.spool.state.any u = true → s ≤ seg.seq) ∧
        s ≤ max (c.spool.state.mark u) seg.seq ∧ (c'.hand u).segment = none ∧
        ((c.hand u).Confirms u seg ∧ primaryOf seg.seq u ⊆ h'.primary ∨
          c'.hand u = afterSkip seg.seq u ∧ ∃ now, a = .skip u now) := by
  have hconf : ∀ {t now pc} {seg : SpooledSegment} {x : Core}, c.hand t ≠ .idle →
      x = { c with spool := (c.spool.confirm now d seg.seq t).1 }.withHand t pc →
      x.spool.state.has u s = true →
      c.spool.state.has u s = true ∨ t = u ∧
        (c.spool.state.any u = true → s ≤ seg.seq) ∧ s ≤ max (c.spool.state.mark u) seg.seq := by
    rintro t now pc seg x ht rfl hx
    have hst := (SpoolQueue.confirm_spec now c.spool d seg.seq t (hl.dir_of_hand ht)).1
    rw [Core.spool_withHand, hst, SpoolQueue.has_iff] at hx
    rw [SpoolQueue.has_iff]
    by_cases htu : t = u
    · subst htu
      have hmark := (SpoolQueue.confirmed_eq now c.spool.state seg.seq t).2
      rw [hmark] at hx
      by_cases hold : c.spool.state.any t = true ∧ s ≤ c.spool.state.mark t
      · exact Or.inl hold
      · refine Or.inr ⟨rfl, fun hany => ?_, hx.2⟩
        have hlt : ¬s ≤ c.spool.state.mark t := fun hle => hold ⟨hany, hle⟩
        have := hx.2
        omega
    · obtain ⟨h1, h2⟩ := SpoolQueue.confirmed_other now c.spool.state seg.seq (Ne.symm htu)
      rw [h1, h2] at hx
      exact Or.inl hx
  cases mv with
  | @confirm t now seg hpc =>
      have hne := LinkedUp.confirms_ne_idle hpc
      have hseg : (c.hand t).segment = some seg := by
        cases t <;> rw [show c.hand _ = _ from hpc] <;> rfl
      rcases hconf hne rfl hs with hold | ⟨rfl, h1, h2⟩
      · exact Or.inl hold
      · refine Or.inr ⟨seg, hseg, h1, h2, ?_, Or.inl ⟨hpc, ?_⟩⟩
        · rw [Core.hand_withHand]
          rfl
        · exact List.subset_append_right _ _
  | @skip t now seg n _ hpc =>
      have hne : c.hand t ≠ .idle := by simp [hpc]
      have hseg : (c.hand t).segment = some seg := by rw [hpc]; rfl
      rcases hconf hne rfl hs with hold | ⟨rfl, h1, h2⟩
      · exact Or.inl hold
      · refine Or.inr ⟨seg, hseg, h1, h2, ?_, Or.inr ⟨Core.hand_withHand .., now, rfl⟩⟩
        rw [Core.hand_withHand]
        exact afterSkip_segment seg.seq t
  | publish _ he =>
      obtain ⟨vs, hq⟩ := SpoolQueue.enqueue_spec he
      rw [SpoolQueue.has_iff, hq.any, hq.mark, ← SpoolQueue.has_iff] at hs
      exact Or.inl hs
  | fault _ he hq =>
      obtain ⟨vs, hq'⟩ := SpoolQueue.enqueue_spec he
      rcases hq with ⟨-, rfl⟩ | ⟨-, rfl⟩
      · exact Or.inl hs
      · rw [SpoolQueue.has_iff, hq'.any, hq'.mark, ← SpoolQueue.has_iff] at hs
        exact Or.inl hs
  | remove _ _ =>
      rw [SpoolQueue.removeIfDone] at hs
      split at hs <;> exact Or.inl hs
  | mark => exact Or.inl hs
  | back _ => exact Or.inl (by simpa using hs)
  | take _ _ => exact Or.inl (by simpa using hs)
  | pass _ _ _ => exact Or.inl (by simpa using hs)
  | _ => exact Or.inl hs

/-- The same of the primary. -/
lemma LinkedUp.has_cases (hl : LinkedUp d c) (mv : Move ev d md h c a c' md' h' ws) {s : ℕ}
    (hs : c'.spool.state.has .primary s = true) :
    c.spool.state.has .primary s = true ∨
      ∃ seg, c.up.segment = some seg ∧ (c.spool.state.any .primary = true → s ≤ seg.seq) ∧
        s ≤ max (c.spool.state.mark .primary) seg.seq ∧ c'.up.segment = none ∧
        (seg.seq ∈ h'.primary ∨ c'.up = .skipping seg.seq ∧ ∃ now, a = .skip .primary now) := by
  rcases hl.has_hand mv hs with hold | ⟨seg, hseg, h1, h2, hnone, hhow⟩
  · exact Or.inl hold
  · refine Or.inr ⟨seg, hseg, h1, h2, hnone, hhow.imp (fun h => ?_) fun h => h⟩
    exact h.2 (by simp [primaryOf])

/-- The floor and the primary's mark only go up. -/
lemma LinkedUp.state_grows (hl : LinkedUp d c) (mv : Move ev d md h c a c' md' h' ws) :
    c.spool.state.firstSeq ≤ c'.spool.state.firstSeq ∧
      ∀ s, c.spool.state.has .primary s = true → c'.spool.state.has .primary s = true := by
  have hconf : ∀ {t now seq}, c.hand t ≠ .idle →
      c.spool.state.firstSeq ≤ (c.spool.confirm now d seq t).1.state.firstSeq ∧
        ∀ s, c.spool.state.has .primary s = true →
          (c.spool.confirm now d seq t).1.state.has .primary s = true := by
    intro t now seq ht
    rw [(SpoolQueue.confirm_spec now c.spool d seq t (hl.dir_of_hand ht)).1]
    exact ⟨by simp, fun s hs => SpoolQueue.has_confirmed hs⟩
  have henq : ∀ {seg e vs}, c.spool.Enqueues ev.sha256Hex d seg e vs →
      ∀ s, c.spool.state.has .primary s = true → e.queue.state.has .primary s = true := by
    intro seg e vs hq s hs
    rw [SpoolQueue.has_iff, hq.any, hq.mark, ← SpoolQueue.has_iff]
    exact hs
  cases mv with
  | confirm hpc =>
      rw [Core.spool_withHand]
      exact hconf (LinkedUp.confirms_ne_idle hpc)
  | skip _ hpc =>
      rw [Core.spool_withHand]
      exact hconf (by simp [hpc])
  | publish _ he =>
      obtain ⟨vs, hq⟩ := SpoolQueue.enqueue_spec he
      exact ⟨hq.floor_le, henq hq⟩
  | fault _ he hq =>
      obtain ⟨vs, hq'⟩ := SpoolQueue.enqueue_spec he
      rcases hq with ⟨-, rfl⟩ | ⟨-, rfl⟩
      · exact ⟨le_rfl, fun s hs => hs⟩
      · exact ⟨hq'.floor_le, henq hq'⟩
  | remove _ _ =>
      rw [SpoolQueue.removeIfDone]
      split <;> exact ⟨le_rfl, fun s hs => hs⟩
  | mark => exact ⟨le_rfl, fun s hs => hs⟩
  | back _ => exact ⟨by simp, by simp⟩
  | take _ _ => exact ⟨by simp, by simp⟩
  | pass _ _ _ => exact ⟨by simp, by simp⟩
  | _ => exact ⟨le_rfl, fun s hs => hs⟩

lemma Linked.has_eq {q : SpoolQueue} {next : ℕ} (hl : Linked d q next) (t : Target) (s : ℕ) :
    (recorded d).has t s = q.state.has t s := by
  rw [SpoolState.has, SpoolState.has, hl.any, hl.mark]

/-- So they do in what is recorded, wherever a move is cut. -/
lemma LinkedUp.recorded_grows (hl : LinkedUp d c) (mv : Move ev d md h c a c' md' h' ws) (k : ℕ)
    (hv : (recorded (cutWrites k ws d)).valid = true) :
    (recorded d).firstSeq ≤ (recorded (cutWrites k ws d)).firstSeq ∧
      ∀ s, (recorded d).has .primary s = true →
        (recorded (cutWrites k ws d)).has .primary s = true := by
  rcases hl.recorded_cut mv k with hrec | ⟨hd, hrec⟩ | hnone
  · rw [hrec]
    exact ⟨le_rfl, fun s hs => hs⟩
  · obtain ⟨hfl, hhas⟩ := hl.state_grows mv
    have hlink := hl.linked hd
    rw [hrec]
    exact ⟨hlink.floor.trans hfl, fun s hs => hhas s (hlink.has_eq .primary s ▸ hs)⟩
  · exact absurd hv (by simp [hnone])

/-- How a readable segment goes, up to a crash inside a move: the primary has it,
or the disk cap took it. -/
lemma LinkedUp.unread (hl : LinkedUp d c) (mv : Move ev d md h c a c' md' h' ws)
    (ha : noFault a = true) (k : ℕ) {s : ℕ} (hs : Readable d s) :
    Readable (cutWrites k ws d) s ∨ (c'.spool.state.has .primary s = true ∧ 0 < k) ∨
      ∃ data dur pts now e, a = .publishSegment data dur pts now none ∧
        c.spool.enqueue ev.sha256Hex now d (newSegment ev c.nextSeq data dur pts) = some e ∧
        c'.dropping = e.drops.map (·.seq) ∧ s ∈ c'.dropping ∧ 2 < k := by
  have hconf : ∀ {t now seq pc}, c.hand t ≠ .idle →
      Readable (cutWrites k (c.spool.confirm now d seq t).2 d) s ∨
        (({ c with spool := (c.spool.confirm now d seq t).1 }.withHand t pc).spool.state.has
          .primary s = true ∧ 0 < k) := by
    intro t now seq pc ht
    obtain ⟨hst, -, hw⟩ := SpoolQueue.confirm_spec now c.spool d seq t (hl.dir_of_hand ht)
    rw [Core.spool_withHand, hst]
    by_cases hk : 0 < k
    · rcases hw with hw | ⟨hall, hw⟩
      · refine Or.inl (readable_applyWrites_of hs ?_ ?_ ?_) <;>
          exact fun hm => absurd (hw ▸ List.mem_of_mem_take hm) (by simp)
      · by_cases hseq : s = seq
        · subst hseq
          exact Or.inr ⟨SpoolQueue.everyTargetHas_primary hall, hk⟩
        · refine Or.inl (readable_applyWrites_of hs ?_ ?_ ?_) <;>
            exact fun hm => absurd (hw ▸ List.mem_of_mem_take hm) (by simp [SpoolQueue.removals, hseq])
    · obtain rfl : k = 0 := by omega
      exact Or.inl hs
  have henq : ∀ {seg e vs} i, c.spool.Enqueues ev.sha256Hex d seg e vs →
      Readable (cutWrites i e.writes d) s ∨ s ∈ vs ∧ 2 < i := by
    intro seg e vs i hq
    by_cases hv : s ∈ vs
    · by_cases hi : 2 < i
      · exact Or.inr ⟨hv, hi⟩
      · refine Or.inl (readable_applyWrites_of hs ?_ ?_ ?_)
        · exact (hq.removal_notMem_take (by omega) s).1
        · exact (hq.removal_notMem_take (by omega) s).2
        · exact fun hm => hq.removeAll_notMem (List.mem_of_mem_take hm)
    · exact Or.inl (hq.readable_cut hv hs)
  cases mv with
  | confirm hpc =>
      exact (hconf (LinkedUp.confirms_ne_idle hpc)).imp_right Or.inl
  | skip _ hpc => exact (hconf (by simp [hpc])).imp_right Or.inl
  | publish _ he =>
      obtain ⟨vs, hq⟩ := SpoolQueue.enqueue_spec he
      refine (henq k hq).imp_right fun h => Or.inr ⟨_, _, _, _, _, rfl, he, rfl, ?_, h.2⟩
      show s ∈ List.map _ _
      rw [hq.drops]
      exact h.1
  | fault _ _ _ => exact absurd ha (by simp [noFault])
  | @mark b =>
      rw [LinkedUp.markEnded_writes]
      refine Or.inl (readable_applyWrites_of hs ?_ ?_ ?_) <;> intro hm <;>
        have := List.mem_of_mem_take hm <;> split at this <;> simp at this
  | remove _ _ =>
      rw [SpoolQueue.removeIfDone]
      split
      · rw [cutWrites, Lib.cut, List.take_nil]
        exact Or.inl hs
      · rename_i hn
        -- the folder is removed only when it holds no segment
        obtain ⟨f, rfl⟩ : ∃ f, d = some f := by
          cases d with
          | none => exact absurd hs.1 (not_hasSeg_none s)
          | some f => exact ⟨f, rfl⟩
        have hmem := AList.mem_keys.mp (hasSeg_some.mp hs.1)
        simp only [Option.map_some, Option.getD_some, Folder.hasSegments, Bool.or_eq_true, not_or,
          Bool.not_eq_true', Bool.not_eq_false, List.isEmpty_iff] at hn
        rw [hn.2] at hmem
        exact absurd hmem (by simp)
  | _ =>
      rw [cutWrites, Lib.cut, List.take_nil]
      exact Or.inl hs

end

end Multisite

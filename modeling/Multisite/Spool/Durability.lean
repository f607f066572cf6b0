import Multisite.Lib.Run
import Multisite.Spool.Root

/-!
A spool root used through `SpoolQueue` with no disk cap: events begun one after
the other, segments taken and confirmed, the target count changed, the queue
destroyed and opened again between any two calls.

`Spooling` is the root, the queue, and the calls made so far; `proper` says how
the callers use it: an event is begun under an id that has no folder
(`make_event_id`), its sequences are taken in ascending order from the first, and
what is confirmed for a target is something `peek_next` returned for it.

* `Orderly`: the invariant.  A mark never covers a segment on disk that was not
  itself confirmed for that target, although it is only a number: what
  `peek_next` returns is the lowest the target lacks, and a mark that was never
  set stands below the event's first sequence;
* `spool_durable`: a segment taken stays on disk until every target in force has
  had it confirmed, and no operation on whole folders removes one that holds a
  segment.
-/

namespace Multisite

/-! ### Calls -/

/-- The spool as its user has it: the root, the queue if one is open, and the
calls made so far. -/
structure Spooling where
  root : Root := {}
  queue : Option SpoolQueue := none
  /-- Segments whose `enqueue` returned, by event. -/
  enqueued : List (String × ℕ) := []
  /-- Calls of `confirm`, by event. -/
  calls : List (String × ℕ × Target) := []
  /-- What `peek_next` has returned to the user of this queue for its event. -/
  returned : List (ℕ × Target) := []

/-- A call on the spool. -/
inductive SpoolOp where
  /-- The constructor, after any queue there was is destroyed. -/
  | openQueue (eventId : String)
  | close
  | beginEvent (now : ℤ) (eventId : String) (firstSeq : ℕ)
  | enqueue (now : ℤ) (seg : SpooledSegment)
  | peekNext (t : Target)
  | confirm (now : ℤ) (seq : ℕ) (t : Target)
  | setTargets (n : ℤ)
  | markEnded (published : Bool)
  | resumeEvent (now : ℤ)
  | removeIfDone
  | removeFinished
  deriving DecidableEq, Repr

namespace Spooling

/-- The segment was taken for the event. -/
def Enqueued (w : Spooling) (id : String) (s : ℕ) : Prop := (id, s) ∈ w.enqueued

/-- `confirm` was called for the segment and the target. -/
def Called (w : Spooling) (id : String) (s : ℕ) (t : Target) : Prop := (id, s, t) ∈ w.calls

/-- The folder of the queue's event. -/
def own (w : Spooling) (q : SpoolQueue) : Option Folder := q.dir.bind w.root.folder

/-- The spool after a call that writes in the folder of the queue's event. -/
def wrote (w : Spooling) (q : SpoolQueue) (c : SpoolQueue × List Write) : Spooling :=
  { w with root := w.root.write q.dir c.2, queue := some c.1 }

/-- The spool after a call on its queue.  A call that throws, there being no folder
to write into, leaves the root as it was. -/
def call (sha : Bytes → String) (w : Spooling) (q : SpoolQueue) : SpoolOp → Spooling
  | .beginEvent now id first =>
      match q.beginEvent now w.root id first with
      | (q', none) => { w with queue := some q' }
      | (q', some r) =>
          { root := r
            queue := some q'
            enqueued := w.enqueued.filter (·.1 ≠ id)
            calls := w.calls.filter (·.1 ≠ id)
            returned := [] }
  | .enqueue now seg =>
      match q.dir, w.own q with
      | some id, some d =>
          match q.enqueue sha now (some d) seg with
          | some e =>
              { w.wrote q (e.queue, e.writes) with enqueued := (id, seg.seq) :: w.enqueued }
          | none => w
      | _, _ => w
  | .peekNext t =>
      match q.peekNext (w.own q) t with
      | some seg => { w with returned := (seg.seq, t) :: w.returned }
      | none => w
  | .confirm now s t =>
      { w.wrote q (q.confirm now (w.own q) s t) with
        calls := (q.dir.map fun id => (id, s, t)).toList ++ w.calls }
  | .setTargets n => w.wrote q (q.setTargets n (w.own q))
  | .markEnded published => w.wrote q (q.markEnded published)
  | .resumeEvent now =>
      match q.resumeEvent now with
      | some c => w.wrote q c
      | none => w
  | .removeIfDone =>
      let c := q.removeIfDone (w.own q)
      w.wrote q (c.1, c.2.1)
  | _ => w

/-- **One call.** -/
def step (sha : Bytes → String) (w : Spooling) : SpoolOp → Option Spooling
  | .openQueue id =>
      let c := SpoolQueue.openRoot 0 w.root id
      some { w with root := c.2, queue := some c.1, returned := [] }
  | .close => some { w with queue := none, returned := [] }
  | .removeFinished => some { w with root := w.root.removeFinished.1 }
  | op => w.queue.map fun q => w.call sha q op

/-- How the callers use the spool. -/
def proper (w : Spooling) : SpoolOp → Bool
  | .beginEvent _ id _ => decide (id ≠ "") && (w.root.folder id).isNone
  | .enqueue _ seg =>
      w.queue.all fun q => q.dir.all fun id =>
        decide (q.state.firstSeq ≤ seg.seq) &&
          w.enqueued.all fun e => decide (e.1 = id → e.2 < seg.seq)
  | .confirm _ s t => decide ((s, t) ∈ w.returned)
  | _ => true

-- their equations are made here, once, and not by the first lemmas that ask for them
section
attribute [local simp] call step proper
end

end Spooling

/-- The target must hold a segment before its files are removed. -/
def SpoolState.InForce (st : SpoolState) : Target → Prop
  | .primary => True
  | .second => 2 ≤ st.targets

instance (st : SpoolState) (t : Target) : Decidable (st.InForce t) :=
  match t with
  | .primary => isTrue trivial
  | .second => inferInstanceAs (Decidable (2 ≤ st.targets))

lemma SpoolQueue.has_of_everyTargetHas {st : SpoolState} {s : ℕ} {t : Target}
    (h : everyTargetHas st s = true) (ht : st.InForce t) : st.has t s = true := by
  rw [everyTargetHas, Bool.and_eq_true, Bool.or_eq_true, decide_eq_true_eq] at h
  cases t with
  | primary => exact h.1
  | second => exact h.2.resolve_left (not_lt.mpr ht)

/-- Every target in force for the queue's event has had the segment confirmed. -/
def Spooling.Released (w : Spooling) (id : String) (s : ℕ) : Prop :=
  ∃ q, w.queue = some q ∧ q.dir = some id ∧ ∀ t, q.state.InForce t → w.Called id s t

/-- The operations on whole folders. -/
def SpoolOp.Whole : SpoolOp → Prop
  | .openQueue _ | .beginEvent _ _ _ | .removeIfDone | .removeFinished => True
  | _ => False

/-! ### The invariant -/

/-- The second folder has the files of the segment `s` besides those of the
first. -/
structure Takes (d d' : Option Folder) (s : ℕ) : Prop where
  hasSeg : ∀ x, HasSeg d' x → x = s ∨ HasSeg d x
  readable : ∀ x, Readable d x → Readable d' x
  new : Readable d' s

/-- **`enqueue`** with no disk cap. -/
theorem SpoolQueue.enqueue_takes {sha : Bytes → String} {now : ℤ} {q : SpoolQueue} {d : Folder}
    {seg : SpooledSegment} {e : Enqueued} (hcap : q.maxBytes = 0) (hv : q.state.valid = true)
    (he : q.enqueue sha now (some d) seg = some e) :
    Takes (some d) (applyWrites e.writes (some d)) seg.seq ∧ SameMarks q.state e.queue.state ∧
      recorded (applyWrites e.writes (some d)) = e.queue.state ∧ e.queue.dir = q.dir ∧
      e.queue.maxBytes = q.maxBytes ∧ .create ∉ e.writes := by
  obtain ⟨hws, hst, hdir, hcap'⟩ := enqueue_uncapped hcap he
  obtain ⟨vs, hspec⟩ := enqueue_spec he
  obtain rfl : vs = [] := by
    have := hspec.length
    rw [hws] at this
    simp only [segmentFiles, List.length_append, List.length_cons, List.length_nil] at this
    exact List.length_eq_zero_iff.mp (by omega)
  have hcut : applyWrites e.writes (some d) = cutWrites e.writes.length e.writes (some d) :=
    (Lib.cut_of_length_le Write.apply le_rfl _).symm
  refine ⟨⟨fun x hx => ?_, fun x hx => ?_, ?_⟩, ?_, hspec.recorded_all rfl hv, hdir, hcap', ?_⟩
  · rw [hcut] at hx
    exact (hspec.hasSeg_cut hx).symm
  · rw [hcut]
    exact hspec.readable_cut (by simp) hx
  · rw [hcut]
    exact hspec.readable_new rfl (by rw [hspec.length]; omega)
  · rw [hst]
    exact ⟨rfl, rfl, fun t => by cases t <;> rfl, fun t => by cases t <;> rfl⟩
  · simp [hws, segmentFiles]

/-- A folder in order: every segment on disk has its sidecar and was taken, no
earlier than the event's first sequence; what a target's mark covers was
confirmed for it; and a mark is a segment taken, or, never set, where the event's
beginning put it. -/
structure Kept (E : ℕ → Prop) (C : ℕ → Target → Prop) (d : Option Folder) : Prop where
  valid : (recorded d).valid = true
  whole : ∀ s, HasSeg d s → (sidecar d s).isSome
  taken : ∀ s, HasSeg d s → E s
  first_le : ∀ s, E s → (recorded d).firstSeq ≤ s
  called : ∀ s t, HasSeg d s → (recorded d).has t s = true → C s t
  marked : ∀ t, (recorded d).any t = true → E ((recorded d).mark t)
  unset : ∀ t, (recorded d).any t = false → (recorded d).mark t = (recorded d).firstSeq - 1

namespace Kept

variable {E E' : ℕ → Prop} {C C' : ℕ → Target → Prop} {d d' : Option Folder}

lemma readable (h : Kept E C d) {s : ℕ} (hs : HasSeg d s) : Readable d s := ⟨hs, h.whole s hs⟩

/-- Fewer segments under the same marks. -/
lemma less {vs : List ℕ} (h : Kept E C d) (hless : Less d d' vs)
    (hm : SameMarks (recorded d) (recorded d')) : Kept E C d' where
  valid := hm.valid.trans h.valid
  whole s hs := by
    obtain ⟨h1, h2⟩ := (hless.hasSeg s).mp hs
    rw [hless.sidecar s h1]
    exact h.whole s h2
  taken s hs := h.taken s ((hless.hasSeg s).mp hs).2
  first_le s hs := hm.firstSeq.trans_le (h.first_le s hs)
  called s t hs ht := h.called s t ((hless.hasSeg s).mp hs).2 ((hm.has t s).symm.trans ht)
  marked t ht := by
    rw [hm.mark]
    exact h.marked t ((hm.any t).symm.trans ht)
  unset t ht := by
    rw [hm.mark, hm.firstSeq]
    exact h.unset t ((hm.any t).symm.trans ht)

/-- A folder just made for an event. -/
lemma fresh {st : SpoolState} (hE : ∀ s, ¬E s) (hany : ∀ t, st.any t = false)
    (hmark : ∀ t, st.mark t = st.firstSeq - 1) :
    Kept E C (some { state := some (.parsed st) }) where
  valid := rfl
  whole s hs := absurd hs (by simp [hasSeg_some])
  taken s hs := absurd hs (by simp [hasSeg_some])
  first_le s hs := absurd hs (hE s)
  called s t hs := absurd hs (by simp [hasSeg_some])
  marked t ht := absurd ((hany t).symm.trans ht) (by simp)
  unset t _ := hmark t

/-- A confirmation of a segment below which the target lacks nothing. -/
lemma confirm (h : Kept E C d) {now : ℤ} {s : ℕ} {t : Target} (hE : E s)
    (hlow : ∀ r < s, HasSeg d r → C r t) (hC : ∀ r u, C r u → C' r u) (hCs : C' s t)
    {vs : List ℕ} (hless : Less d d' vs)
    (hrec : recorded d' = SpoolQueue.confirmed now (recorded d) s t) : Kept E C' d' where
  valid := by rw [hrec, SpoolQueue.confirmed_valid, h.valid]
  whole x hx := by
    obtain ⟨hx1, hx2⟩ := (hless.hasSeg x).mp hx
    rw [hless.sidecar x hx1]
    exact h.whole x hx2
  taken x hx := h.taken x ((hless.hasSeg x).mp hx).2
  first_le x hx := by
    rw [hrec, SpoolQueue.confirmed_firstSeq]
    exact h.first_le x hx
  called x u hx hhas := by
    have hx' := ((hless.hasSeg x).mp hx).2
    by_cases hold : (recorded d).has u x = true
    · exact hC x u (h.called x u hx' hold)
    rw [hrec, SpoolQueue.has_iff] at hhas
    rw [SpoolQueue.has_iff] at hold
    by_cases hu : u = t
    · subst hu
      rw [(SpoolQueue.confirmed_eq now (recorded d) s u).2] at hhas
      -- the mark moved over `x`, which is then at most `s`
      have hxs : x ≤ s := by
        cases hany : (recorded d).any u with
        | true =>
            have : ¬x ≤ (recorded d).mark u := fun hle => hold ⟨hany, hle⟩
            omega
        | false =>
            have h1 := h.unset u hany
            have h2 := h.first_le x (h.taken x hx')
            omega
      rcases hxs.lt_or_eq with hlt | rfl
      · exact hC x u (hlow x hlt hx')
      · exact hCs
    · rw [(SpoolQueue.confirmed_other now (recorded d) s hu).1,
        (SpoolQueue.confirmed_other now (recorded d) s hu).2] at hhas
      exact absurd hhas hold
  marked u hu := by
    rw [hrec] at hu ⊢
    by_cases hut : u = t
    · subst hut
      rw [(SpoolQueue.confirmed_eq now (recorded d) s u).2]
      cases hany : (recorded d).any u with
      | true =>
          rcases max_choice ((recorded d).mark u) s with hm | hm <;> rw [hm]
          · exact h.marked u hany
          · exact hE
      | false =>
          have h1 := h.unset u hany
          have h2 := h.first_le s hE
          rw [max_eq_right (by omega)]
          exact hE
    · rw [(SpoolQueue.confirmed_other now (recorded d) s hut).1] at hu
      rw [(SpoolQueue.confirmed_other now (recorded d) s hut).2]
      exact h.marked u hu
  unset u hu := by
    rw [hrec] at hu ⊢
    have hut : u ≠ t := by
      rintro rfl
      rw [(SpoolQueue.confirmed_eq now (recorded d) s u).1] at hu
      exact absurd hu (by simp)
    rw [(SpoolQueue.confirmed_other now (recorded d) s hut).1] at hu
    rw [(SpoolQueue.confirmed_other now (recorded d) s hut).2, SpoolQueue.confirmed_firstSeq]
    exact h.unset u hu

/-- A segment taken above all those before it. -/
lemma enqueue (h : Kept E C d) {s : ℕ} (hE : ∀ r, E' r ↔ r = s ∨ E r)
    (hfirst : (recorded d).firstSeq ≤ s) (hlt : ∀ r, E r → r < s)
    (hm : SameMarks (recorded d) (recorded d')) (htakes : Takes d d' s) : Kept E' C d' where
  valid := hm.valid.trans h.valid
  whole x hx := by
    rcases htakes.hasSeg x hx with rfl | hx
    · exact htakes.new.2
    · exact (htakes.readable x (h.readable hx)).2
  taken x hx := (hE x).mpr ((htakes.hasSeg x hx).imp_right (h.taken x))
  first_le x hx := by
    rw [hm.firstSeq]
    rcases (hE x).mp hx with rfl | hx
    · exact hfirst
    · exact h.first_le x hx
  called x t hx hhas := by
    rw [hm.has] at hhas
    rcases htakes.hasSeg x hx with rfl | hx
    · -- no mark reaches the new segment
      rw [SpoolQueue.has_iff] at hhas
      have := hlt _ (h.marked t hhas.1)
      omega
    · exact h.called x t hx hhas
  marked t ht := by
    rw [hm.mark, hE]
    exact Or.inr (h.marked t ((hm.any t).symm.trans ht))
  unset t ht := by
    rw [hm.mark, hm.firstSeq]
    exact h.unset t ((hm.any t).symm.trans ht)

end Kept

/-- The queue in memory is what its folder records, and the user of the queue
holds only segments below which its target lacks nothing. -/
structure Tracks (w : Spooling) (q : SpoolQueue) : Prop where
  cap : q.maxBytes = 0
  state : ∀ id, q.dir = some id → (w.root.folder id).isSome → q.state = recorded (w.root.folder id)
  returned : ∀ id, q.dir = some id → ∀ s t, (s, t) ∈ w.returned →
    w.Enqueued id s ∧ ∀ r < s, HasSeg (w.root.folder id) r → w.Called id r t

/-- **The invariant.** -/
structure Orderly (w : Spooling) : Prop where
  loose : w.root.loose.state = none
  kept : ∀ id, (w.root.folder id).isSome →
    Kept (w.Enqueued id) (w.Called id) (w.root.folder id)
  queue : ∀ q, w.queue = some q → Tracks w q

/-- What a call does for the segments taken: those on disk stay, or are released,
and one it takes is there. -/
structure Keeps (w w' : Spooling) : Prop where
  files : ∀ id s, Readable (w.root.folder id) s →
    Readable (w'.root.folder id) s ∨ w'.Released id s
  new : ∀ id s, w'.Enqueued id s → w.Enqueued id s ∨ Readable (w'.root.folder id) s

lemma Keeps.of_files {w w' : Spooling} (he : w'.enqueued = w.enqueued)
    (hf : ∀ id s, Readable (w.root.folder id) s → Readable (w'.root.folder id) s) : Keeps w w' where
  files id s hs := Or.inl (hf id s hs)
  new id s hs := Or.inl (by rwa [Spooling.Enqueued, he] at hs)

lemma Keeps.refl (w : Spooling) : Keeps w w := .of_files rfl fun _ _ => id

namespace Orderly

variable {sha : Bytes → String} {w w' : Spooling} {q q' : SpoolQueue} {id : String}

lemma init : Orderly {} where
  loose := rfl
  kept _ h := absurd h (by simp [Root.folder])
  queue _ h := nomatch h

/-- The rule for a call that writes in the folder of the queue's event. -/
lemma wrote (hw : Orderly w) (hq : w.queue = some q) (hdir : q.dir = some id) {ws : List Write}
    (hroot : w'.root = w.root.write q.dir ws) (hqueue : w'.queue = some q')
    (hcap : q'.maxBytes = q.maxBytes) (hdir' : q'.dir = q.dir) (hcreate : .create ∉ ws)
    (hE : ∀ x, x ≠ id → w'.Enqueued x = w.Enqueued x) (hC : ∀ x, x ≠ id → w'.Called x = w.Called x)
    (hown : (w.root.folder id).isSome →
      Kept (w'.Enqueued id) (w'.Called id) (applyWrites ws (w.root.folder id)) ∧
        q'.state = recorded (applyWrites ws (w.root.folder id)))
    (hret : ∀ s t, (s, t) ∈ w'.returned → w'.Enqueued id s ∧
      ∀ r < s, HasSeg (applyWrites ws (w.root.folder id)) r → w'.Called id r t) : Orderly w' := by
  have hself : w'.root.folder id = applyWrites ws (w.root.folder id) := by
    rw [hroot, hdir, Root.folder_write_self]
  have hother : ∀ x, x ≠ id → w'.root.folder x = w.root.folder x := by
    intro x hx
    rw [hroot, hdir, Root.folder_write_of_ne]
    exact fun h => hx (Option.some.inj h).symm
  have hthere : (w'.root.folder id).isSome → (w.root.folder id).isSome := by
    rw [hself]
    cases hd : w.root.folder id with
    | none => rw [applyWrites_none hcreate]; exact fun h => h
    | some d => exact fun _ => rfl
  refine ⟨by rw [hroot, Root.loose_write]; exact hw.loose, fun x hx => ?_, fun y hy => ?_⟩
  · by_cases hxid : x = id
    · subst hxid
      rw [hself]
      exact (hown (hthere hx)).1
    · rw [hother x hxid] at hx ⊢
      rw [hE x hxid, hC x hxid]
      exact hw.kept x hx
  · obtain rfl : q' = y := Option.some.inj (hqueue.symm.trans hy)
    refine ⟨hcap.trans (hw.queue q hq).cap, fun x hx hsome => ?_, fun x hx => ?_⟩
    · obtain rfl : id = x := Option.some.inj ((hdir.symm.trans hdir'.symm).trans hx)
      rw [hself]
      exact (hown (hthere hsome)).2
    · obtain rfl : id = x := Option.some.inj ((hdir.symm.trans hdir'.symm).trans hx)
      rw [hself]
      exact hret

/-- The rule for a call that leaves the queue without an event, or whose event
has no folder, and changes no more than its memory. -/
lemma memory (hw : Orderly w) (hq : w.queue = some q) (hcap : q'.maxBytes = q.maxBytes)
    (hdir : q'.dir = q.dir) (hnone : ∀ id, q.dir = some id → w.root.folder id = none) :
    Orderly { w with queue := some q' } where
  loose := hw.loose
  kept := hw.kept
  queue y hy := by
    obtain rfl : q' = y := Option.some.inj hy
    refine ⟨hcap.trans (hw.queue q hq).cap, fun x hx hsome => ?_, fun x hx => ?_⟩
    · have hsome' : (w.root.folder x).isSome := hsome
      rw [hnone x (hdir ▸ hx)] at hsome'
      exact absurd hsome' (by simp)
    · exact (hw.queue q hq).returned x (hdir ▸ hx)

lemma wrote_of_none (hw : Orderly w) (hq : w.queue = some q) (hdir : q.dir = none)
    {c : SpoolQueue × List Write} (hcap : c.1.maxBytes = q.maxBytes) (hdir' : c.1.dir = q.dir) :
    Orderly (w.wrote q c) ∧ Keeps w (w.wrote q c) := by
  have hroot : (w.wrote q c).root = w.root := by
    rw [Spooling.wrote, hdir]
    rfl
  constructor
  · have := hw.memory hq hcap hdir' fun id h => absurd (hdir.symm.trans h) (by simp)
    rwa [Spooling.wrote, hdir]
  · refine .of_files rfl fun id s hs => ?_
    rwa [hroot]

lemma mem_returned (hw : Orderly w) (hq : w.queue = some q) (hdir : q.dir = some id) {s : ℕ}
    {t : Target} (h : (s, t) ∈ w.returned) :
    w.Enqueued id s ∧ ∀ r < s, HasSeg (w.root.folder id) r → w.Called id r t :=
  (hw.queue q hq).returned id hdir s t h

/-- The rule for a call that removes the files of `vs` from the folder of the
queue's event, each of them one that every target in force has. -/
lemma dropped (hw : Orderly w) (hq : w.queue = some q) (hd : q.dir = some id) (ws : List Write)
    (vs : List ℕ) (hroot : w'.root = w.root.write q.dir ws) (hqueue : w'.queue = some q')
    (hcap : q'.maxBytes = q.maxBytes) (hdir : q'.dir = q.dir) (hcreate : .create ∉ ws)
    (hE : w'.enqueued = w.enqueued) (hret : w'.returned = w.returned)
    (hC : ∀ x, x ≠ id → w'.Called x = w.Called x) (hC' : ∀ s t, w.Called id s t → w'.Called id s t)
    (hless : Less (w.root.folder id) (applyWrites ws (w.root.folder id)) vs)
    (hown : (w.root.folder id).isSome →
      Kept (w.Enqueued id) (w'.Called id) (applyWrites ws (w.root.folder id)) ∧
        q'.state = recorded (applyWrites ws (w.root.folder id)))
    (hvs : ∀ s ∈ vs, HasSeg (w.root.folder id) s → ∀ t, q'.state.InForce t → w'.Called id s t) :
    Orderly w' ∧ Keeps w w' := by
  have hE' : ∀ x, w'.Enqueued x = w.Enqueued x := fun x => by
    funext s
    rw [Spooling.Enqueued, hE]
    rfl
  constructor
  · refine hw.wrote hq hd hroot hqueue hcap hdir hcreate (fun x _ => hE' x) hC
      (by rw [hE']; exact hown) fun s t hst => ?_
    rw [hret] at hst
    obtain ⟨h1, h2⟩ := hw.mem_returned hq hd hst
    rw [hE']
    exact ⟨h1, fun r hr hs => hC' r t (h2 r hr ((hless.hasSeg r).mp hs).2)⟩
  · refine ⟨fun x s hs => ?_, fun x s hs => Or.inl (by rwa [hE'] at hs)⟩
    by_cases hx : x = id
    · subst hx
      by_cases hmem : s ∈ vs
      · exact Or.inr ⟨q', hqueue, hdir.trans hd, hvs s hmem hs.1⟩
      · refine Or.inl ?_
        rw [hroot, hd, Root.folder_write_self]
        exact ⟨(hless.hasSeg s).mpr ⟨hmem, hs.1⟩, by rw [hless.sidecar s hmem]; exact hs.2⟩
    · refine Or.inl ?_
      rw [hroot, hd, Root.folder_write_of_ne _ _ fun h => hx (Option.some.inj h).symm]
      exact hs

/-- A call that removes segments every target in force has, and saves the state
with its marks as they were. -/
lemma saved (hw : Orderly w) (hq : w.queue = some q) (vs : List ℕ) (hcap : q'.maxBytes = q.maxBytes)
    (hdir : q'.dir = q.dir) (hm : SameMarks q.state q'.state)
    (hvs : ∀ s ∈ vs, ∀ t, q'.state.InForce t → q.state.has t s = true) :
    Orderly (w.wrote q (q', SpoolQueue.removals vs ++ q'.saveState)) ∧
      Keeps w (w.wrote q (q', SpoolQueue.removals vs ++ q'.saveState)) := by
  cases hd : q.dir with
  | none => exact hw.wrote_of_none hq hd hcap hdir
  | some id =>
  have hsave : q'.saveState = [.state q'.state] := by
    rw [SpoolQueue.saveState, hdir, hd]
    rfl
  have hless : Less (w.root.folder id)
      (applyWrites (SpoolQueue.removals vs ++ q'.saveState) (w.root.folder id)) vs := by
    rw [hsave, applyWrites, Lib.applyAll_append]
    exact (Less.removals vs _).save q'.state
  refine hw.dropped hq hd _ _ rfl rfl hcap hdir (by simp [hsave, SpoolQueue.removals]) rfl rfl
    (fun _ _ => rfl) (fun _ _ h => h) hless (fun hsome => ?_) fun s hs hseg t ht => ?_
  · have hk := hw.kept id hsome
    have hst := (hw.queue q hq).state id hd hsome
    have hrec : recorded (applyWrites (SpoolQueue.removals vs ++ q'.saveState)
        (w.root.folder id)) = q'.state := by
      rw [hsave, recorded_applyWrites_state hsome (SpoolQueue.removeAll_notMem_removals vs)]
      exact SpoolQueue.valid_eq (hm.valid.trans ((congrArg _ hst).trans hk.valid))
    exact ⟨hk.less hless (by rw [hrec, ← hst]; exact hm), hrec.symm⟩
  · have hsome := isSome_of_hasSeg hseg
    refine (hw.kept id hsome).called s t hseg ?_
    rw [← (hw.queue q hq).state id hd hsome]
    exact hvs s hs t ht

/-- `set_targets`. -/
lemma setTargets (hw : Orderly w) (hq : w.queue = some q) (n : ℤ) :
    Orderly (w.wrote q (q.setTargets n (w.own q))) ∧ Keeps w (w.wrote q (q.setTargets n (w.own q))) := by
  obtain ⟨hst, hdir, hws⟩ := SpoolQueue.setTargets_spec n q (w.own q)
  have hpair : q.setTargets n (w.own q) = ((q.setTargets n (w.own q)).1,
      SpoolQueue.removals (SpoolQueue.swept n q (w.own q)) ++
        (q.setTargets n (w.own q)).1.saveState) := by
    rw [← hws]
  rw [hpair]
  refine hw.saved hq _ rfl hdir ?_ fun s hs t ht => ?_
  · rw [hst]
    exact ⟨rfl, rfl, fun t => by cases t <;> rfl, fun t => by cases t <;> rfl⟩
  · cases t with
    | primary => exact (SpoolQueue.mem_swept hs).2
    | second =>
        -- nothing is swept while two targets are in force
        have h2 : 2 ≤ SpoolQueue.clampTargets n := by
          rw [SpoolState.InForce, hst] at ht
          exact ht
        rw [SpoolQueue.swept, if_neg (not_lt.mpr h2)] at hs
        exact absurd hs (by simp)

/-- What `confirm` writes: the state, and then the removals, when every target in
force has the segment. -/
lemma confirm_writes (now : ℤ) (q : SpoolQueue) (d : Option Folder) (s : ℕ) (t : Target)
    (hd : q.dir.isSome) :
    ∃ vs : List ℕ, (∀ x ∈ vs, x = s) ∧
      (q.confirm now d s t).2 =
        .state (SpoolQueue.confirmed now q.state s t) :: SpoolQueue.removals vs ∧
      (vs ≠ [] → SpoolQueue.everyTargetHas (SpoolQueue.confirmed now q.state s t) s = true) := by
  obtain ⟨-, -, hws⟩ := SpoolQueue.confirm_spec now q d s t hd
  rcases hws with h | ⟨hevery, h⟩
  · exact ⟨[], by simp, h, fun hne => absurd rfl hne⟩
  · exact ⟨[s], by simp, h, fun _ => hevery⟩

/-- `confirm` of what `peek_next` returned. -/
lemma confirm (hw : Orderly w) (hq : w.queue = some q) (now : ℤ) {s : ℕ} {t : Target}
    (hret : (s, t) ∈ w.returned) :
    Orderly (w.call sha q (.confirm now s t)) ∧ Keeps w (w.call sha q (.confirm now s t)) := by
  have hcap : ∀ d, (q.confirm now d s t).1.maxBytes = q.maxBytes := by
    intro d
    rw [SpoolQueue.confirm]
    split <;> rfl
  cases hd : q.dir with
  | none =>
      have hdir : (q.confirm now (w.own q) s t).1.dir = q.dir := by
        rw [SpoolQueue.confirm]
        split <;> rfl
      rw [Spooling.call, hd]
      exact hw.wrote_of_none hq hd (hcap _) hdir
  | some id =>
  have hown : w.own q = w.root.folder id := by
    rw [Spooling.own, hd]
    rfl
  have hdirSome : q.dir.isSome := by
    rw [hd]
    rfl
  obtain ⟨hst, hdir, -⟩ := SpoolQueue.confirm_spec now q (w.root.folder id) s t hdirSome
  obtain ⟨vs, hvs, hws, hhas⟩ := confirm_writes now q (w.root.folder id) s t hdirSome
  obtain ⟨hE, hlow⟩ := hw.mem_returned hq hd hret
  have hcalled : ∀ x r u, (w.call sha q (.confirm now s t)).Called x r u ↔
      (x = id ∧ r = s ∧ u = t) ∨ w.Called x r u := by
    intro x r u
    simp [Spooling.call, Spooling.Called, hd]
  have hmid : SameFiles (w.root.folder id)
      (Write.apply (.state (SpoolQueue.confirmed now q.state s t)) (w.root.folder id)) :=
    (SameFiles.refl _).save _
  have hless : Less (w.root.folder id)
      (applyWrites (q.confirm now (w.root.folder id) s t).2 (w.root.folder id)) vs := by
    rw [hws, applyWrites, Lib.applyAll_cons]
    exact (Less.removals vs _).of_same hmid
  refine hw.dropped hq hd _ _ (by rw [Spooling.call, hown]; rfl) (by rw [Spooling.call, hown]; rfl)
    (hcap _) hdir (by simp [hws, SpoolQueue.removals]) rfl rfl (fun x hx => ?_)
    (fun r u h => (hcalled id r u).mpr (Or.inr h)) hless (fun hsome => ?_) fun r hr hseg u hu => ?_
  · funext r u
    exact propext ((hcalled x r u).trans (or_iff_right fun h => hx h.1))
  · have hk := hw.kept id hsome
    have hmem := (hw.queue q hq).state id hd hsome
    have hrec : recorded (applyWrites (q.confirm now (w.root.folder id) s t).2
        (w.root.folder id)) = SpoolQueue.confirmed now q.state s t := by
      rw [hws, applyWrites, Lib.applyAll_cons]
      refine (SpoolQueue.recorded_removals vs _).trans ?_
      rw [recorded_apply_state hsome]
      refine SpoolQueue.valid_eq ?_
      rw [SpoolQueue.confirmed_valid, hmem]
      exact hk.valid
    refine ⟨?_, hst.trans hrec.symm⟩
    exact hk.confirm hE hlow (fun r u h => (hcalled id r u).mpr (Or.inr h))
      ((hcalled id s t).mpr (Or.inl ⟨rfl, rfl, rfl⟩)) hless (by rw [hrec, hmem])
  · obtain rfl := hvs r hr
    by_cases hut : u = t
    · exact (hcalled id r u).mpr (Or.inl ⟨rfl, rfl, hut⟩)
    have hsome := isSome_of_hasSeg hseg
    refine (hcalled id r u).mpr (Or.inr ((hw.kept id hsome).called r u hseg ?_))
    rw [hst] at hu
    have := SpoolQueue.has_of_everyTargetHas (hhas (List.ne_nil_of_mem hr)) hu
    rwa [SpoolState.has, (SpoolQueue.confirmed_other now q.state r hut).1,
      (SpoolQueue.confirmed_other now q.state r hut).2, (hw.queue q hq).state id hd hsome] at this

/-- `enqueue` of a sequence above those taken before. -/
lemma enqueue (hw : Orderly w) (hq : w.queue = some q) (now : ℤ) {seg : SpooledSegment}
    (hp : w.proper (.enqueue now seg) = true) :
    Orderly (w.call sha q (.enqueue now seg)) ∧ Keeps w (w.call sha q (.enqueue now seg)) := by
  cases hd : q.dir with
  | none =>
      rw [Spooling.call, hd]
      exact ⟨hw, .refl w⟩
  | some id =>
  have hown : w.own q = w.root.folder id := by
    rw [Spooling.own, hd]
    rfl
  cases hf : w.root.folder id with
  | none =>
      rw [Spooling.call, hd, hown, hf]
      exact ⟨hw, .refl w⟩
  | some d =>
  cases he : q.enqueue sha now (some d) seg with
  | none =>
      rw [Spooling.call, hd, hown, hf]
      dsimp only
      rw [he]
      exact ⟨hw, .refl w⟩
  | some e =>
  have hsome : (w.root.folder id).isSome := by
    rw [hf]
    rfl
  have hk := hw.kept id hsome
  have hmem := (hw.queue q hq).state id hd hsome
  have hvalid : q.state.valid = true := hmem ▸ hk.valid
  obtain ⟨htakes, hm, hrec, hdir, hcap, hcreate⟩ :=
    SpoolQueue.enqueue_takes (hw.queue q hq).cap hvalid he
  rw [← hf] at htakes hrec
  obtain ⟨hfirst, hlt⟩ : q.state.firstSeq ≤ seg.seq ∧ ∀ s, w.Enqueued id s → s < seg.seq := by
    simp only [Spooling.proper, hq, hd, Option.all_some, Bool.and_eq_true, decide_eq_true_eq,
      List.all_eq_true] at hp
    exact ⟨hp.1, fun s hs => hp.2 (id, s) hs rfl⟩
  have hcall : w.call sha q (.enqueue now seg) =
      { w.wrote q (e.queue, e.writes) with enqueued := (id, seg.seq) :: w.enqueued } := by
    rw [Spooling.call, hd, hown, hf]
    dsimp only
    rw [he]
  have hE : ∀ x r, (w.call sha q (.enqueue now seg)).Enqueued x r ↔
      (x = id ∧ r = seg.seq) ∨ w.Enqueued x r := by
    intro x r
    rw [hcall]
    simp [Spooling.Enqueued]
  have hroot : (w.call sha q (.enqueue now seg)).root = w.root.write q.dir e.writes := by
    rw [hcall]
    rfl
  constructor
  · refine hw.wrote hq hd hroot (by rw [hcall]; rfl) hcap hdir hcreate
      (fun x hx => ?_) (fun x _ => by rw [hcall]; rfl) (fun _ => ⟨?_, hrec.symm⟩) fun s t hs => ?_
    · funext r
      exact propext ((hE x r).trans (or_iff_right fun h => hx h.1))
    · have hC : (w.call sha q (.enqueue now seg)).Called id = w.Called id := by
        rw [hcall]
        rfl
      rw [hC]
      refine hk.enqueue (fun r => by rw [hE]; simp) (hmem ▸ hfirst) hlt ?_ htakes
      rw [hrec, ← hmem]
      exact hm
    · have hs' : (s, t) ∈ w.returned := by
        rw [hcall] at hs
        exact hs
      obtain ⟨h1, h2⟩ := hw.mem_returned hq hd hs'
      refine ⟨(hE id s).mpr (Or.inr h1), fun r hr hx => ?_⟩
      have hCr : w.Called id r t := by
        rcases htakes.hasSeg r hx with rfl | hx'
        · exact absurd (hlt s h1) (by omega)
        · exact h2 r hr hx'
      rw [hcall]
      exact hCr
  · refine ⟨fun x s hs => Or.inl ?_, fun x s hs => ?_⟩
    · by_cases hx : x = id
      · subst hx
        rw [hroot, hd, Root.folder_write_self]
        exact htakes.readable s hs
      · rw [hroot, hd, Root.folder_write_of_ne _ _ fun h => hx (Option.some.inj h).symm]
        exact hs
    · rcases (hE x s).mp hs with ⟨rfl, rfl⟩ | h
      · rw [hroot, hd, Root.folder_write_self]
        exact Or.inr htakes.new
      · exact Or.inl h

/-- `peek_next` returns the lowest segment its target lacks. -/
lemma peekNext (hw : Orderly w) (hq : w.queue = some q) (t : Target) :
    Orderly (w.call sha q (.peekNext t)) ∧ Keeps w (w.call sha q (.peekNext t)) := by
  rw [Spooling.call]
  split
  · rename_i seg hseg
    have hpeek := SpoolQueue.peekNext_spec hseg
    refine ⟨⟨hw.loose, hw.kept, fun y hy => ?_⟩, .of_files rfl fun _ _ h => h⟩
    obtain rfl : q = y := Option.some.inj (hq.symm.trans hy)
    have htr := hw.queue q hq
    refine ⟨htr.cap, htr.state, fun id hd s u hs => ?_⟩
    rcases List.mem_cons.mp hs with h | h
    · obtain ⟨rfl, rfl⟩ := Prod.mk.inj h
      have hown : w.own q = w.root.folder id := by
        rw [Spooling.own, hd]
        rfl
      rw [hown] at hpeek
      have hsome := isSome_of_hasSeg hpeek.hasSeg
      have hk := hw.kept id hsome
      refine ⟨hk.taken _ hpeek.hasSeg, fun r hr hx => hk.called r u hx ?_⟩
      rw [← htr.state id hd hsome]
      exact hpeek.lowest r hr (hk.readable hx)
    · exact htr.returned id hd s u h
  · exact ⟨hw, .refl w⟩

/-- `remove_if_done` removes a folder that holds no segment. -/
lemma removeIfDone (hw : Orderly w) (hq : w.queue = some q) :
    Orderly (w.call sha q .removeIfDone) ∧ Keeps w (w.call sha q .removeIfDone) := by
  rw [Spooling.call]
  rcases SpoolQueue.removeIfDone_cases q (w.own q) with h | ⟨hdir, hempty, h⟩ <;> rw [h] <;>
    dsimp only
  · cases hd : q.dir with
    | none => exact hw.wrote_of_none hq hd rfl rfl
    | some id =>
        exact hw.dropped hq hd [] [] rfl rfl rfl rfl (by simp) rfl rfl
          (fun _ _ => rfl) (fun _ _ h => h) (.same (.refl _))
          (fun hsome => ⟨hw.kept id hsome, (hw.queue q hq).state id hd hsome⟩) (by simp)
  · obtain ⟨id, hd⟩ := Option.isSome_iff_exists.mp hdir
    rw [Spooling.own, hd, Option.bind_some] at hempty
    have hroot : (w.wrote q ({ q with dir := none, bytesPending := 0 }, [.removeAll])).root =
        w.root.setFolder id none := by
      rw [Spooling.wrote, hd]
      rfl
    refine ⟨⟨?_, fun x hx => ?_, fun y hy => ?_⟩, .of_files rfl fun x s hs => ?_⟩
    · rw [hroot, Root.loose_setFolder]
      exact hw.loose
    · have hxid : x ≠ id := by
        rintro rfl
        rw [hroot, Root.folder_setFolder_self] at hx
        exact absurd hx (by simp)
      rw [hroot, Root.folder_setFolder_of_ne _ _ hxid] at hx ⊢
      exact hw.kept x hx
    · obtain rfl := Option.some.inj hy
      exact ⟨(hw.queue q hq).cap, fun x hx => absurd hx (by simp), fun x hx => absurd hx (by simp)⟩
    · have hxid : x ≠ id := by
        rintro rfl
        exact hempty s hs.1
      rwa [hroot, Root.folder_setFolder_of_ne _ _ hxid]

/-- The constructor. -/
lemma openQueue (hw : Orderly w) (eventId : String) {c : SpoolQueue × Root}
    (hc : SpoolQueue.openRoot 0 w.root eventId = c) :
    Orderly { w with root := c.2, queue := some c.1, returned := [] } ∧
      Keeps w { w with root := c.2, queue := some c.1, returned := [] } := by
  subst hc
  have hfolder := SpoolQueue.folder_openRoot 0 hw.loose eventId
  obtain ⟨hcap, hstate⟩ := SpoolQueue.openRoot_queue 0 w.root eventId
  refine ⟨⟨?_, fun id hid => ?_, fun y hy => ?_⟩, .of_files rfl fun id s hs => ?_⟩
  · exact (congrArg _ (SpoolQueue.loose_openRoot 0 hw.loose eventId)).trans hw.loose
  · obtain ⟨hf, hm⟩ := hfolder id
    have hsome : (w.root.folder id).isSome := hf.isSome ▸ hid
    exact (hw.kept id hsome).less (.same hf) hm
  · obtain rfl := Option.some.inj hy
    exact ⟨hcap, fun id hd _ => hstate id hd, fun id _ s t h => absurd h (by simp)⟩
  · exact (hfolder id).1.readable.mpr hs

/-- `remove_finished` removes folders that hold no segment. -/
lemma removeFinished (hw : Orderly w) :
    Orderly { w with root := w.root.removeFinished.1 } ∧
      Keeps w { w with root := w.root.removeFinished.1 } := by
  have hcases : ∀ id, w.root.removeFinished.1.folder id = w.root.folder id ∨
      w.root.removeFinished.1.folder id = none := by
    intro id
    rw [Root.folder_removeFinished]
    cases w.root.folder id with
    | none => exact Or.inl rfl
    | some d => cases h : Root.done d <;> simp [Option.filter, h]
  refine ⟨⟨?_, fun id hid => ?_, fun q hq => ?_⟩, .of_files rfl fun id s hs => ?_⟩
  · exact (congrArg _ (Root.loose_removeFinished w.root)).trans hw.loose
  · have hid' : (w.root.removeFinished.1.folder id).isSome := hid
    show Kept _ _ (w.root.removeFinished.1.folder id)
    rcases hcases id with h | h <;> rw [h] at hid' ⊢
    · exact hw.kept id hid'
    · exact absurd hid' (by simp)
  · have htr := hw.queue q hq
    refine ⟨htr.cap, fun id hd hid => ?_, fun id hd s t hs => ?_⟩
    · have hid' : (w.root.removeFinished.1.folder id).isSome := hid
      show _ = recorded (w.root.removeFinished.1.folder id)
      rcases hcases id with h | h <;> rw [h] at hid' ⊢
      · exact htr.state id hd hid'
      · exact absurd hid' (by simp)
    · obtain ⟨h1, h2⟩ := htr.returned id hd s t hs
      refine ⟨h1, fun r hr hseg => h2 r hr ?_⟩
      have hseg' : HasSeg (w.root.removeFinished.1.folder id) r := hseg
      rcases hcases id with h | h <;> rw [h] at hseg'
      · exact hseg'
      · exact absurd hseg' (not_hasSeg_none r)
  · show Readable (w.root.removeFinished.1.folder id) s
    rw [Root.folder_removeFinished_of_hasSeg hs.1]
    exact hs

/-- `begin_event` under an id that has no folder. -/
lemma beginEvent (hw : Orderly w) (hq : w.queue = some q) (now : ℤ) (id : String) (first : ℕ)
    (hfresh : w.root.folder id = none) :
    Orderly (w.call sha q (.beginEvent now id first)) ∧
      Keeps w (w.call sha q (.beginEvent now id first)) := by
  rw [Spooling.call, SpoolQueue.beginEvent]
  cases hl : q.leaveEvent w.root with
  | none =>
      refine ⟨hw.memory hq ?_ ?_ (SpoolQueue.leaveEvent_eq_none hl), .of_files rfl fun _ _ h => h⟩ <;>
        (rw [SpoolQueue.left]; split <;> rfl)
  | some r =>
  dsimp only
  set st := (q.left.beginIn now id first).1.state with hst
  have hself : (r.write (some id) (q.left.beginIn now id first).2).folder id =
      some { state := some (.parsed st) } := by
    rw [Root.folder_write_self]
    rfl
  have hother : ∀ x, x ≠ id →
      (r.write (some id) (q.left.beginIn now id first).2).folder x = r.folder x :=
    fun x hx => Root.folder_write_of_ne r _ fun h => hx (Option.some.inj h).symm
  refine ⟨⟨?_, fun x hx => ?_, fun y hy => ?_⟩, fun x s hs => Or.inl ?_, fun x s hs => Or.inl ?_⟩
  · show (r.write _ _).loose.state = none
    rw [Root.loose_write, SpoolQueue.loose_leaveEvent hl]
    exact hw.loose
  · show Kept _ _ ((r.write _ _).folder x)
    by_cases hxid : x = id
    · subst hxid
      rw [hself]
      refine .fresh (fun s hs => ?_) (fun t => by cases t <;> rfl) fun t => ?_
      · simp [Spooling.Enqueued] at hs
      · cases t <;> (rw [hst]; show (if first > 0 then first - 1 else 0) = first - 1; split <;> omega)
    · have hx' : (r.folder x).isSome := by
        rw [← hother x hxid]
        exact hx
      rw [hother x hxid]
      rcases SpoolQueue.folder_leaveEvent hl x with hf | ⟨hnone, -⟩
      · have hk := (hw.kept x (hf.isSome ▸ hx')).less (.same hf)
          (SpoolQueue.recorded_leaveEvent hl x (fun d hd hfd => by
            have := (hw.queue q hq).state x hd (by rw [hfd]; rfl)
            rwa [hfd] at this) hx')
        convert hk using 1
        · funext s
          simp [Spooling.Enqueued, hxid]
        · funext s t
          simp [Spooling.Called, hxid]
      · rw [hnone] at hx'
        exact absurd hx' (by simp)
  · obtain rfl := Option.some.inj hy
    have hcap : q.left.maxBytes = q.maxBytes := by
      rw [SpoolQueue.left]
      split <;> rfl
    refine ⟨hcap.trans (hw.queue q hq).cap, fun x hx _ => ?_, fun x _ s t h => absurd h (by simp)⟩
    obtain rfl : id = x := Option.some.inj hx
    show st = recorded ((r.write _ _).folder id)
    rw [hself]
    rfl
  · have hxid : x ≠ id := by
      rintro rfl
      rw [hfresh] at hs
      exact not_hasSeg_none s hs.1
    show Readable ((r.write _ _).folder x) s
    rw [hother x hxid]
    rcases SpoolQueue.folder_leaveEvent hl x with hf | ⟨-, hempty⟩
    · exact hf.readable.mpr hs
    · exact absurd hs.1 (hempty s)
  · exact (List.mem_filter.mp hs).1

end Orderly

/-! ### Runs -/

end Multisite

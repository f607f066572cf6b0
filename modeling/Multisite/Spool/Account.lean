import Multisite.Lib.Run
import Multisite.Spool.Bytes

/-!
One event's spool over any run: the bytes pending, the disk cap and the floor.

* `Accounting.step`: an operation, which may throw at one of its writes;
* `Accounting.Meets`: what an operation must find for the count to stay right;
* `Accounting.Sound`, `sound_step`: the invariant, and that each such operation keeps it;
* `enqueued_spec`: what an `enqueue` that returns leaves.
-/

namespace Multisite

open SpoolQueue

/-- The write that `enqueue` throws at. -/
inductive Throw where
  | seg
  | sidecar
  | state
  deriving DecidableEq, Repr

/-- An operation on the spool, `fails` where the state cannot be saved. -/
inductive SpoolEvent where
  | enqueue (seg : SpooledSegment) (now : ℤ) (fault : Option Throw)
  | confirm (seq : ℕ) (t : Target) (now : ℤ) (fails : Bool)
  | setTargets (n : ℤ) (fails : Bool)
  | reopen (maxBytes : ℕ)
  deriving DecidableEq, Repr

/-- The queue and its folder, with the event's first sequence and what has been evicted so far. -/
structure Accounting where
  q : SpoolQueue
  d : Option Folder
  first : ℕ
  evicted : List ℕ := []

namespace Accounting

variable (sha : Bytes → String)

/-- One operation; an `enqueue` with no event begun is refused. -/
def step (s : Accounting) : SpoolEvent → Option Accounting
  | .enqueue seg now fault =>
      (s.q.enqueue sha now s.d seg).map fun e =>
        match fault with
        | none =>
            { s with
              q := e.queue
              d := applyWrites e.writes s.d
              evicted := s.evicted ++ e.drops.map (·.seq) }
        | some .seg => s
        | some .sidecar => { s with d := cutWrites 1 e.writes s.d }
        | some .state =>
            { s with
              q := e.queue
              d := cutWrites (e.writes.length - 1) e.writes s.d
              evicted := s.evicted ++ e.drops.map (·.seq) }
  | .confirm seq t now fails =>
      let c := s.q.confirm now s.d seq t
      if fails then some { s with q := { s.q with state := confirmed now s.q.state seq t } }
      else some { s with q := c.1, d := applyWrites c.2 s.d }
  | .setTargets n fails =>
      let c := s.q.setTargets n s.d
      some { s with
        q := c.1
        d := if fails then cutWrites (c.2.length - 1) c.2 s.d else applyWrites c.2 s.d }
  | .reopen maxBytes => some { s with q := load maxBytes s.q.dir s.d }

/-- An event that has just begun, whatever the queue was at before. -/
def Begins (s : Accounting) : Prop :=
  ∃ now q id first d,
    s = { q := (beginIn now q id first).1, d := applyWrites (beginIn now q id first).2 d, first }

/-- What `enqueue` of a segment with that much above it leaves under the cap. -/
def CapFits (s : Accounting) (seg : SpooledSegment) : Prop :=
  (∀ x, HasSeg s.d x → x ≤ seg.seq) ∨
    seg.data.length + sizes s.d ((s.q.pendingSeqs s.d).filter (seg.seq < ·)) ≤ s.q.maxBytes

/-- What an operation must find for the count to stay right: a sequence at or above the event's
first and within the file name's field, no bytes under it that are counted already, no write left
behind uncounted, and, when the spool is opened, the state that was last in memory. -/
def Meets (s : Accounting) : SpoolEvent → Prop
  | .enqueue seg _ fault =>
      seg.seq < 10 ^ 15 ∧ s.first ≤ seg.seq ∧
        match fault with
        | none =>
            segSize s.d seg.seq = 0 ∧ segTotal s.d + seg.data.length < 2 ^ 64 ∧
              (0 < s.q.maxBytes → s.CapFits seg)
        | some .seg => True
        | some .sidecar => segSize s.d seg.seq = seg.data.length
        | some .state => segSize s.d seg.seq = 0 ∧ segTotal s.d + seg.data.length < 2 ^ 64
  | .confirm .. => True
  | .setTargets .. => True
  | .reopen _ => (recorded s.d).firstSeq = s.q.floor

/-- The floor is one past the highest evicted, and the event's first while nothing has been. -/
def FloorOver (first floor : ℕ) (evicted : List ℕ) : Prop :=
  evicted = [] ∧ floor = first ∨ ∃ v ∈ evicted, floor = v + 1 ∧ ∀ u ∈ evicted, u ≤ v

/-- The invariant. -/
structure Sound (s : Accounting) : Prop where
  dir : s.q.dir.isSome
  there : s.d.isSome
  bytes : s.q.bytesPending = segTotal s.d
  fits : segTotal s.d < 2 ^ 64
  above : ∀ x, HasSeg s.d x → s.first ≤ x
  floor : FloorOver s.first s.q.floor s.evicted

variable {sha} {s s' : Accounting} {seg : SpooledSegment} {now : ℤ} {e : Enqueued} {vs : List ℕ}

lemma sound_begins (h : Begins s) : s.Sound := by
  obtain ⟨now, q, id, first, d, rfl⟩ := h
  refine ⟨rfl, rfl, rfl, Nat.two_pow_pos 64, fun x hx => ?_, Or.inl ⟨rfl, rfl⟩⟩
  have hmem : x ∈ (∅ : SeqFiles Bytes) := hasSeg_some.mp hx
  exact absurd hmem (AList.notMem_empty x)

/-! ### `enqueue` -/

/-- The folder with the new segment's files. -/
abbrev withFiles (sha : Bytes → String) (d : Option Folder) (seg : SpooledSegment) :
    Option Folder := applyWrites (segmentFiles sha seg) d

lemma segTotal_withFiles {d : Option Folder} (hd : d.isSome) :
    segTotal (withFiles sha d seg) + segSize d seg.seq = segTotal d + seg.data.length := by
  have hseg := segTotal_seg hd seg.seq seg.data
  have hmeta := segTotal_sidecar (Write.apply (.seg seg.seq seg.data) d) seg.seq (sidecarOf sha seg)
  show segTotal (Write.apply (.sidecar seg.seq (sidecarOf sha seg))
    (Write.apply (.seg seg.seq seg.data) d)) + _ = _
  rw [hmeta, hseg]

lemma segData_withFiles {d : Option Folder} (hd : d.isSome) (x : ℕ) :
    segData (withFiles sha d seg) x = if x = seg.seq then some seg.data else segData d x := by
  rw [← segData_seg hd seg.seq seg.data x]
  show segData (Write.apply (.sidecar seg.seq (sidecarOf sha seg))
    (Write.apply (.seg seg.seq seg.data) d)) x = _
  cases Write.apply (.seg seg.seq seg.data) d <;> rfl

lemma hasSeg_withFiles {d : Option Folder} (hd : d.isSome) {x : ℕ} :
    HasSeg (withFiles sha d seg) x ↔ HasSeg d x ∨ x = seg.seq := by
  rw [HasSeg, segData_withFiles hd, HasSeg]
  by_cases hx : x = seg.seq
  · simp [hx]
  · simp [hx]

/-- The writes of `enqueue` but for the last, the state. -/
lemma cut_last {q : SpoolQueue} {d : Option Folder} (hs : Enqueues sha q d seg e vs) :
    cutWrites (e.writes.length - 1) e.writes d =
        applyWrites (removals vs) (withFiles sha d seg) ∧
      applyWrites e.writes d = Write.apply (.state e.queue.state)
        (applyWrites (removals vs) (withFiles sha d seg)) := by
  have hw : e.writes = (segmentFiles sha seg ++ removals vs) ++ [.state e.queue.state] := by
    rw [hs.writes, List.append_assoc]
  have hlen : e.writes.length - 1 = (segmentFiles sha seg ++ removals vs).length := by
    rw [hw, List.length_append, List.length_singleton, Nat.add_sub_cancel]
  constructor
  · rw [cutWrites, Lib.cut, hlen, hw, List.take_left, Lib.applyAll_append]
  · rw [hw, applyWrites, Lib.applyAll_append, Lib.applyAll_append]
    rfl

/-- What an `enqueue` leaves, of a segment none of whose bytes were counted: the pending segments
split into those evicted and the rest, and the bytes of the rest. -/
structure Accounts (sha : Bytes → String) (s : Accounting) (seg : SpooledSegment) (e : Enqueued)
    (vs rest : List ℕ) : Prop where
  spec : Enqueues sha s.q s.d seg e vs
  split : s.q.pendingSeqs (withFiles sha s.d seg) = vs ++ rest
  bytes : e.queue.bytesPending = sizes (withFiles sha s.d seg) rest
  total : segTotal (applyWrites (removals vs) (withFiles sha s.d seg)) = e.queue.bytesPending
  cap : e.queue.maxBytes = s.q.maxBytes
  stops : 0 < s.q.maxBytes → e.queue.bytesPending ≤ s.q.maxBytes ∨ rest.length ≤ 1 ∨
    rest.head? = some seg.seq

lemma enqueue_account (h : s.Sound) (hnew : segSize s.d seg.seq = 0)
    (hfits : segTotal s.d + seg.data.length < 2 ^ 64) (he : s.q.enqueue sha now s.d seg = some e) :
    ∃ vs rest, Accounts sha s seg e vs rest := by
  obtain ⟨vs, hs⟩ := enqueue_spec he
  have htotal : segTotal (withFiles sha s.d seg) = segTotal s.d + seg.data.length := by
    have := @segTotal_withFiles sha seg s.d h.there
    omega
  have hpending := sizes_pendingSeqs h.dir (withFiles sha s.d seg)
  have hcounted : (s.q.counted now seg).bytesPending = segTotal (withFiles sha s.d seg) := by
    show (s.q.bytesPending + seg.data.length) % 2 ^ 64 = _
    rw [h.bytes, htotal, Nat.mod_eq_of_lt hfits]
  obtain ⟨vs', rest, hsplit, hdrops, hbytes, hstops⟩ :=
    @overCap_bytes _ s.q seg.seq (s.q.counted now seg) (hpending.trans hcounted.symm).le
  -- The queue that `enqueue` returns has the loop's counters.
  obtain ⟨i, hi⟩ := Option.isSome_iff_exists.mp h.dir
  rw [enqueue, hi] at he
  dsimp only at he
  obtain rfl := Option.some_injective _ he
  obtain rfl : vs = vs' := by
    have := hs.drops
    dsimp only at this
    rw [← this, hdrops]
    rfl
  have hnodup : vs.Nodup := by
    have hsorted := pendingSeqs_sorted (q := s.q) (d := withFiles sha s.d seg)
    rw [hsplit] at hsorted
    exact (List.pairwise_append.mp hsorted).1.imp fun hlt => hlt.ne
  have hremoved := segTotal_removals hnodup (withFiles sha s.d seg)
  rw [hsplit, sizes_append] at hpending
  refine ⟨vs, rest, hs, hsplit, ?_, ?_, rfl, hstops⟩
  · show (s.q.overCap (withFiles sha s.d seg) seg.seq (s.q.counted now seg)).bytesPending = _
    omega
  · show _ = (s.q.overCap (withFiles sha s.d seg) seg.seq (s.q.counted now seg)).bytesPending
    omega

/-- The files left after an eviction are the rest. -/
lemma Accounts.hasSeg {rest : List ℕ} (h : s.Sound) (hs : Accounts sha s seg e vs rest) {x : ℕ} :
    HasSeg (applyWrites (removals vs) (withFiles sha s.d seg)) x ↔ x ∈ rest := by
  have hsorted := pendingSeqs_sorted (q := s.q) (d := withFiles sha s.d seg)
  have hmem := mem_pendingSeqs (q := s.q) (d := withFiles sha s.d seg) (s := x)
  rw [hs.split] at hsorted hmem
  rw [hasSeg_removals]
  constructor
  · rintro ⟨hnot, hseg⟩
    exact (List.mem_append.mp (hmem.mpr ⟨h.dir, hseg⟩)).resolve_left hnot
  · intro hrest
    refine ⟨fun hvs => ?_, (hmem.mp (List.mem_append_right _ hrest)).2⟩
    exact lt_irrefl x ((List.pairwise_append.mp hsorted).2.2 x hvs x hrest)

lemma Accounts.seq_mem {rest : List ℕ} (h : s.Sound) (hs : Accounts sha s seg e vs rest) :
    seg.seq ∈ rest := by
  have hmem : seg.seq ∈ s.q.pendingSeqs (withFiles sha s.d seg) :=
    mem_pendingSeqs.mpr ⟨h.dir, (hasSeg_withFiles h.there).mpr (Or.inr rfl)⟩
  rw [hs.split] at hmem
  exact (List.mem_append.mp hmem).resolve_left hs.spec.keeps

/-- The files left are those of the rest, sorted. -/
lemma Accounts.rest_sorted {rest : List ℕ} (hs : Accounts sha s seg e vs rest) :
    rest.Pairwise (· < ·) := by
  have hsorted := pendingSeqs_sorted (q := s.q) (d := withFiles sha s.d seg)
  rw [hs.split] at hsorted
  exact (List.pairwise_append.mp hsorted).2.1

/-- **The cap**: what is left fits, or nothing but the new segment is left. -/
lemma Accounts.capped {rest : List ℕ} (h : s.Sound) (hs : Accounts sha s seg e vs rest)
    (hpos : 0 < s.q.maxBytes) (hcap : s.CapFits seg) :
    e.queue.bytesPending ≤ s.q.maxBytes ∨ ∀ x, x ∈ rest ↔ x = seg.seq := by
  have hmem := hs.seq_mem h
  have hsorted := hs.rest_sorted
  rcases hs.stops hpos with hle | hone | hhead
  · exact Or.inl hle
  · right
    cases rest with
    | nil => exact absurd hmem (by simp)
    | cons y tail =>
        have htail : tail = [] := List.length_eq_zero_iff.mp (by rw [List.length_cons] at hone; omega)
        subst htail
        obtain rfl := List.mem_singleton.mp hmem
        exact fun x => List.mem_singleton
  · cases rest with
    | nil => exact absurd hmem (by simp)
    | cons y tail =>
        obtain rfl : y = seg.seq := by simpa using hhead
        obtain ⟨habove, htail⟩ := List.pairwise_cons.mp hsorted
        -- What is left above the new segment was there before.
        have hold (x : ℕ) (hx : x ∈ tail) : HasSeg s.d x := by
          have hpend : x ∈ s.q.pendingSeqs (withFiles sha s.d seg) := by
            rw [hs.split]
            exact List.mem_append_right _ (List.mem_cons_of_mem _ hx)
          refine ((hasSeg_withFiles h.there).mp (mem_pendingSeqs.mp hpend).2).resolve_right ?_
          exact (habove x hx).ne'
        rcases hcap with hlow | hfits
        · right
          have hnil : tail = [] := by
            refine List.eq_nil_iff_forall_not_mem.mpr fun x hx => ?_
            have := hlow x (hold x hx)
            have := habove x hx
            omega
          subst hnil
          exact fun x => List.mem_singleton
        · left
          have hperm : tail.Perm ((s.q.pendingSeqs s.d).filter (seg.seq < ·)) := by
            refine (List.perm_ext_iff_of_nodup (htail.imp fun hlt => hlt.ne) ?_).mpr fun x => ?_
            · exact (pendingSeqs_sorted.imp fun hlt => hlt.ne).filter _
            · rw [List.mem_filter, decide_eq_true_eq, mem_pendingSeqs]
              constructor
              · exact fun hx => ⟨⟨h.dir, hold x hx⟩, habove x hx⟩
              · rintro ⟨⟨-, hseg⟩, hlt⟩
                have hpend : x ∈ s.q.pendingSeqs (withFiles sha s.d seg) :=
                  mem_pendingSeqs.mpr ⟨h.dir, (hasSeg_withFiles h.there).mpr (Or.inl hseg)⟩
                have hall := pendingSeqs_sorted (q := s.q) (d := withFiles sha s.d seg)
                rw [hs.split] at hpend hall
                rcases List.mem_append.mp hpend with hvs | hrest
                · -- The evicted ones are below the new one.
                  have := (List.pairwise_append.mp hall).2.2 x hvs seg.seq List.mem_cons_self
                  omega
                · rcases List.mem_cons.mp hrest with rfl | hx
                  · exact absurd hlt (lt_irrefl _)
                  · exact hx
          have hsame : sizes (withFiles sha s.d seg) tail = sizes s.d tail := by
            rw [sizes, sizes]
            refine congrArg List.sum (List.map_congr_left fun x hx => segSize_of_segData ?_)
            rw [segData_withFiles h.there, if_neg (habove x hx).ne']
          have hnew : segSize (withFiles sha s.d seg) seg.seq = seg.data.length := by
            show ((segData (withFiles sha s.d seg) seg.seq).map List.length).getD 0 = _
            rw [segData_withFiles h.there, if_pos rfl]
            rfl
          have hsum : sizes s.d tail = sizes s.d ((s.q.pendingSeqs s.d).filter (seg.seq < ·)) :=
            (hperm.map (segSize s.d)).sum_eq
          rw [hs.bytes, sizes_cons, hnew, hsame, hsum]
          exact hfits

/-- The floor after an eviction. -/
lemma Accounts.floor {rest : List ℕ} (h : s.Sound) (hfirst : s.first ≤ seg.seq)
    (hs : Accounts sha s seg e vs rest) :
    FloorOver s.first e.queue.floor (s.evicted ++ vs) := by
  have hle : s.q.floor ≤ e.queue.floor := hs.spec.floor_le
  have hbelow : ∀ v ∈ vs, v < e.queue.floor := hs.spec.below
  have hvs (v : ℕ) (hv : v ∈ vs) : s.first ≤ v := by
    have hpend : v ∈ s.q.pendingSeqs (withFiles sha s.d seg) := by
      rw [hs.split]
      exact List.mem_append_left _ hv
    rcases (hasSeg_withFiles h.there).mp (mem_pendingSeqs.mp hpend).2 with hseg | rfl
    · exact h.above v hseg
    · exact hfirst
  have hevicted (u : ℕ) (hu : u ∈ s.evicted) : u < s.q.floor := by
    rcases h.floor with ⟨hnil, -⟩ | ⟨v, -, hv, hmax⟩
    · rw [hnil] at hu
      exact absurd hu (by simp)
    · have := hmax u hu
      omega
  have hall (u : ℕ) (hu : u ∈ s.evicted ++ vs) : u < e.queue.floor := by
    rcases List.mem_append.mp hu with hu | hu
    · exact lt_of_lt_of_le (hevicted u hu) hle
    · exact hbelow u hu
  rcases hs.spec.floor with hsame | ⟨v, hv, hfloor⟩
  · have hsame' : e.queue.floor = s.q.floor := hsame
    rcases h.floor with ⟨hnil, hf⟩ | ⟨v, hv, hf, -⟩
    · -- Nothing is evicted: it would have raised the floor.
      have hnone : vs = [] := by
        refine List.eq_nil_iff_forall_not_mem.mpr fun v hv => ?_
        have := hvs v hv
        have := hbelow v hv
        omega
      exact Or.inl ⟨by rw [hnil, hnone, List.append_nil], by omega⟩
    · refine Or.inr ⟨v, List.mem_append_left _ hv, by omega, fun u hu => ?_⟩
      have := hall u hu
      omega
  · have hfloor' : e.queue.floor = v + 1 := hfloor
    refine Or.inr ⟨v, List.mem_append_right _ hv, hfloor', fun u hu => ?_⟩
    have := hall u hu
    omega

/-- The folder and the count after the writes of `enqueue`, with its state saved or not. -/
lemma Accounts.sound {rest : List ℕ} (h : s.Sound) (hfirst : s.first ≤ seg.seq)
    (hfits : segTotal s.d + seg.data.length < 2 ^ 64) (hs : Accounts sha s seg e vs rest)
    {d : Option Folder}
    (hd : d = applyWrites (removals vs) (withFiles sha s.d seg) ∨
      d = Write.apply (.state e.queue.state)
        (applyWrites (removals vs) (withFiles sha s.d seg))) :
    Sound { s with q := e.queue, d, evicted := s.evicted ++ e.drops.map (·.seq) } := by
  have hthere : (applyWrites (removals vs) (withFiles sha s.d seg)).isSome :=
    isSome_applyWrites (isSome_applyWrites h.there (by simp [segmentFiles]))
      (removeAll_notMem_removals vs)
  obtain ⟨f, hf⟩ := Option.isSome_iff_exists.mp hthere
  have htotal : segTotal d = e.queue.bytesPending := by
    rcases hd with rfl | rfl
    · exact hs.total
    · rw [segTotal_state]
      exact hs.total
  have hle : e.queue.bytesPending ≤ segTotal s.d + seg.data.length := by
    have hfiles := @segTotal_withFiles sha seg s.d h.there
    have hpending := sizes_pendingSeqs h.dir (withFiles sha s.d seg)
    rw [hs.split, sizes_append, ← hs.bytes] at hpending
    omega
  have hseg (x : ℕ) (hx : HasSeg d x) : s.first ≤ x := by
    have hx' : HasSeg (applyWrites (removals vs) (withFiles sha s.d seg)) x := by
      rcases hd with rfl | rfl
      · exact hx
      · rw [hf] at hx ⊢
        exact hx
    rcases (hasSeg_withFiles h.there).mp (hasSeg_removals.mp hx').2 with hold | rfl
    · exact h.above x hold
    · exact hfirst
  refine ⟨by rw [hs.spec.dir']; exact h.dir, ?_, htotal.symm, by dsimp only; omega, hseg, ?_⟩
  · rcases hd with rfl | rfl
    · exact hthere
    · rw [hf]
      rfl
  · rw [hs.spec.drops]
    exact hs.floor h hfirst

/-! ### Runs -/

/-- A change of the state alone keeps the count. -/
lemma Sound.withState (h : s.Sound) {q : SpoolQueue} (hdir : q.dir = s.q.dir)
    (hbytes : q.bytesPending = s.q.bytesPending) (hfloor : q.floor = s.q.floor) :
    Sound { s with q } :=
  ⟨by rw [hdir]; exact h.dir, h.there, hbytes.trans h.bytes, h.fits, h.above,
    by rw [hfloor]; exact h.floor⟩

/-- A removal of files that the count forgets keeps the count. -/
lemma Sound.withRemovals (h : s.Sound) {q : SpoolQueue} {l : List ℕ} {d : Option Folder}
    (hl : l.Nodup) (hdir : q.dir = s.q.dir)
    (hbytes : q.bytesPending = l.foldl (forget s.d) s.q.bytesPending)
    (hfloor : q.floor = s.q.floor) (hthere : d.isSome)
    (htotal : segTotal d = segTotal (applyWrites (removals l) s.d))
    (hseg : ∀ x, HasSeg d x → HasSeg s.d x) : Sound { s with q, d } := by
  have hsizes : sizes s.d l ≤ s.q.bytesPending := by
    rw [h.bytes]
    exact sizes_le_segTotal hl s.d
  have hforget := foldl_forget hsizes
  have hremoved := segTotal_removals hl s.d
  have hbefore := h.bytes
  have hcap := h.fits
  refine ⟨by rw [hdir]; exact h.dir, hthere, ?_, ?_, fun x hx => h.above x (hseg x hx),
    by rw [hfloor]; exact h.floor⟩
  · show q.bytesPending = segTotal d
    rw [hbytes, htotal]
    omega
  · show segTotal d < 2 ^ 64
    rw [htotal]
    omega

lemma sound_confirm (h : s.Sound) (seq : ℕ) (t : Target) (now : ℤ) :
    Sound { s with
      q := (s.q.confirm now s.d seq t).1
      d := applyWrites (s.q.confirm now s.d seq t).2 s.d } ∧
    (s.q.confirm now s.d seq t).1.floor = s.q.floor := by
  have hfloor : (s.q.confirm now s.d seq t).1.floor = s.q.floor := by
    show (s.q.confirm now s.d seq t).1.state.firstSeq = _
    rw [(confirm_spec now s.q s.d seq t h.dir).1, confirmed_firstSeq]
    rfl
  refine ⟨?_, hfloor⟩
  obtain ⟨f, hf⟩ := Option.isSome_iff_exists.mp h.there
  rw [confirm] at hfloor ⊢
  by_cases hall : everyTargetHas (confirmed now s.q.state seq t) seq = true
  · rw [if_pos hall] at hfloor ⊢
    refine h.withRemovals (l := [seq]) (List.nodup_singleton seq) rfl rfl hfloor ?_ ?_ fun x hx => ?_
    · rw [hf]
      refine isSome_applyWrites rfl ?_
      cases s.q.dir <;> simp [saveState]
    · rw [saveState, if_pos h.dir, applyWrites, Lib.applyAll_append, hf]
      rfl
    · rcases hasSeg_applyWrites hx with hseg | ⟨b, hb⟩
      · exact hseg
      · exact absurd hb (by cases s.q.dir <;> simp [saveState])
  · rw [if_neg hall] at hfloor ⊢
    refine h.withRemovals (l := []) List.nodup_nil rfl rfl hfloor ?_ ?_ fun x hx => ?_
    · rw [hf]
      refine isSome_applyWrites rfl ?_
      cases s.q.dir <;> simp [saveState]
    · rw [saveState, if_pos h.dir, hf]
      rfl
    · rcases hasSeg_applyWrites hx with hseg | ⟨b, hb⟩
      · exact hseg
      · exact absurd hb (by cases s.q.dir <;> simp [saveState])

lemma swept_nodup (n : ℤ) (q : SpoolQueue) (d : Option Folder) : (swept n q d).Nodup := by
  rw [swept]
  split
  · exact (pendingSeqs_sorted.imp fun hlt => hlt.ne).filter _
  · exact List.nodup_nil

lemma sound_setTargets (h : s.Sound) (n : ℤ) (fails : Bool) :
    Sound { s with
      q := (s.q.setTargets n s.d).1
      d := if fails then cutWrites ((s.q.setTargets n s.d).2.length - 1) (s.q.setTargets n s.d).2 s.d
        else applyWrites (s.q.setTargets n s.d).2 s.d } := by
  obtain ⟨-, -, hwrites⟩ := setTargets_spec n s.q s.d
  have hsave : (s.q.setTargets n s.d).1.saveState = [.state (s.q.setTargets n s.d).1.state] :=
    if_pos h.dir
  rw [hsave] at hwrites
  have hcut : cutWrites ((s.q.setTargets n s.d).2.length - 1) (s.q.setTargets n s.d).2 s.d =
      applyWrites (removals (swept n s.q s.d)) s.d := by
    rw [hwrites, List.length_append, List.length_singleton, Nat.add_sub_cancel, cutWrites, Lib.cut,
      List.take_left]
  have hfull : applyWrites (s.q.setTargets n s.d).2 s.d =
      Write.apply (.state (s.q.setTargets n s.d).1.state)
        (applyWrites (removals (swept n s.q s.d)) s.d) := by
    rw [hwrites, applyWrites, Lib.applyAll_append]
    rfl
  have hthere : (applyWrites (removals (swept n s.q s.d)) s.d).isSome :=
    isSome_applyWrites h.there (removeAll_notMem_removals _)
  obtain ⟨f, hf⟩ := Option.isSome_iff_exists.mp hthere
  rw [hcut, hfull]
  refine h.withRemovals (swept_nodup n s.q s.d) rfl rfl rfl ?_ ?_ fun x hx => ?_
  · cases fails
    · rw [hf]
      rfl
    · exact hthere
  · cases fails
    · exact segTotal_state _ _
    · rfl
  · have hx' : HasSeg (applyWrites (removals (swept n s.q s.d)) s.d) x := by
      cases fails
      · rw [hf] at hx ⊢
        exact hx
      · exact hx
    exact (hasSeg_removals.mp hx').2

/-- **One operation** that meets its condition keeps the invariant, and never lowers the floor. -/
lemma sound_step {op : SpoolEvent} (h : s.Sound) (hm : s.Meets op) (hstep : step sha s op = some s') :
    s'.Sound ∧ s.q.floor ≤ s'.q.floor := by
  cases op with
  | enqueue seg now fault =>
      obtain ⟨-, hfirst, hm⟩ := hm
      obtain ⟨e, he, hs'⟩ := Option.map_eq_some_iff.mp hstep
      cases fault with
      | none =>
          obtain ⟨hnew, hfits, -⟩ := hm
          obtain ⟨vs, rest, hs⟩ := enqueue_account h hnew hfits he
          obtain rfl : _ = s' := hs'
          exact ⟨hs.sound h hfirst hfits (Or.inr (cut_last hs.spec).2), hs.spec.floor_le⟩
      | some fault =>
          cases fault with
          | seg =>
              obtain rfl : s = s' := hs'
              exact ⟨h, le_rfl⟩
          | sidecar =>
              obtain ⟨vs, hs⟩ := enqueue_spec he
              have hcut : cutWrites 1 e.writes s.d = Write.apply (.seg seg.seq seg.data) s.d := by
                rw [hs.writes]
                rfl
              obtain rfl : { s with d := cutWrites 1 e.writes s.d } = s' := hs'
              have htotal := segTotal_seg h.there seg.seq seg.data
              have hsize : segSize s.d seg.seq = seg.data.length := hm
              obtain ⟨f, hf⟩ := Option.isSome_iff_exists.mp h.there
              rw [hcut]
              refine ⟨⟨h.dir, by rw [hf]; rfl, ?_, ?_, fun x hx => ?_, h.floor⟩, le_rfl⟩
              · show s.q.bytesPending = segTotal (Write.apply (.seg seg.seq seg.data) s.d)
                rw [h.bytes]
                omega
              · have := h.fits
                show segTotal (Write.apply (.seg seg.seq seg.data) s.d) < 2 ^ 64
                omega
              · have hx' : HasSeg (Write.apply (.seg seg.seq seg.data) s.d) x := hx
                rcases hasSeg_apply hx' with hold | ⟨b, hb⟩
                · exact h.above x hold
                · obtain ⟨rfl, -⟩ := Write.seg.inj hb
                  exact hfirst
          | state =>
              obtain ⟨hnew, hfits⟩ := hm
              obtain ⟨vs, rest, hs⟩ := enqueue_account h hnew hfits he
              obtain rfl : _ = s' := hs'
              exact ⟨hs.sound h hfirst hfits (Or.inl (cut_last hs.spec).1), hs.spec.floor_le⟩
  | confirm seq t now fails =>
      rw [step] at hstep
      cases fails with
      | true =>
          obtain rfl := Option.some_injective _ hstep
          exact ⟨h.withState rfl rfl (confirmed_firstSeq now s.q.state seq t),
            (confirmed_firstSeq now s.q.state seq t).ge⟩
      | false =>
          obtain rfl := Option.some_injective _ hstep
          obtain ⟨hsound, hfloor⟩ := sound_confirm h seq t now
          exact ⟨hsound, hfloor.ge⟩
  | setTargets n fails =>
      obtain rfl := Option.some_injective _ hstep
      exact ⟨sound_setTargets h n fails, le_rfl⟩
  | reopen maxBytes =>
      obtain rfl := Option.some_injective _ hstep
      obtain ⟨i, hi⟩ := Option.isSome_iff_exists.mp h.dir
      have hfloor : (load maxBytes s.q.dir s.d).floor = s.q.floor := by
        rw [hi]
        exact hm
      refine ⟨⟨h.dir, h.there, load_bytesPending h.dir h.fits, h.fits, h.above, ?_⟩, hfloor.ge⟩
      rw [hfloor]
      exact h.floor

/-- What an `enqueue` that returns leaves. -/
lemma enqueued_spec (h : s.Sound) (hm : s.Meets (.enqueue seg now none))
    (hstep : step sha s (.enqueue seg now none) = some s') :
    (0 < s.q.maxBytes →
      s'.q.bytesPending ≤ s.q.maxBytes ∨ ∀ x, HasSeg s'.d x ↔ x = seg.seq) ∧
    ∃ vs, s'.evicted = s.evicted ++ vs ∧
      s.q.pendingSeqs (withFiles sha s.d seg) = vs ++ s'.q.pendingSeqs s'.d := by
  obtain ⟨-, hfirst, hnew, hfits, hcap⟩ := hm
  obtain ⟨e, he, hs'⟩ := Option.map_eq_some_iff.mp hstep
  obtain ⟨vs, rest, hs⟩ := enqueue_account h hnew hfits he
  obtain rfl : _ = s' := hs'
  have hthere : (applyWrites (removals vs) (withFiles sha s.d seg)).isSome :=
    isSome_applyWrites (isSome_applyWrites h.there (by simp [segmentFiles]))
      (removeAll_notMem_removals vs)
  obtain ⟨f, hf⟩ := Option.isSome_iff_exists.mp hthere
  have hseg (x : ℕ) : HasSeg (applyWrites e.writes s.d) x ↔ x ∈ rest := by
    rw [← hs.hasSeg h, (cut_last hs.spec).2, hf]
    rfl
  have hrest : e.queue.pendingSeqs (applyWrites e.writes s.d) = rest := by
    refine List.Pairwise.eq_of_mem_iff pendingSeqs_sorted hs.rest_sorted fun x => ?_
    rw [mem_pendingSeqs, hs.spec.dir', hseg x]
    exact and_iff_right h.dir
  refine ⟨fun hpos => ?_, vs, ?_, ?_⟩
  · refine (hs.capped h hpos (hcap hpos)).imp_right fun hone x => ?_
    exact (hseg x).trans (hone x)
  · dsimp only
    rw [hs.spec.drops]
  · dsimp only
    rw [hrest]
    exact hs.split

/-- **Spool accounting.** In every run of one event's spool whose operations meet their condition,
the bytes pending are those of the `.seg` files, the floor is one past the highest evicted and
never sinks, and an `enqueue` that returns has evicted the lowest of what was there, down to the
cap or to the new segment alone. -/
theorem spool_accounting (h : Lib.Reach (step sha) Meets Begins s) :
    s.q.bytesPending = segTotal s.d ∧ FloorOver s.first s.q.floor s.evicted ∧
      ∀ op s', s.Meets op → step sha s op = some s' → s.q.floor ≤ s'.q.floor ∧
        ∀ seg now, op = .enqueue seg now none →
          (0 < s.q.maxBytes →
            s'.q.bytesPending ≤ s.q.maxBytes ∨ ∀ x, HasSeg s'.d x ↔ x = seg.seq) ∧
          ∃ vs, s'.evicted = s.evicted ++ vs ∧
            s.q.pendingSeqs (withFiles sha s.d seg) = vs ++ s'.q.pendingSeqs s'.d := by
  have hsound : s.Sound :=
    h.invariant (fun _ => sound_begins) fun s op s' hs hm hstep => (sound_step hs hm hstep).1
  refine ⟨hsound.bytes, hsound.floor, fun op s' hm hstep => ⟨(sound_step hsound hm hstep).2, ?_⟩⟩
  rintro seg now rfl
  exact enqueued_spec hsound hm hstep

/-- A spool with a cap, whose event has just begun at sequence 1. -/
def sample (maxBytes : ℕ) : Accounting :=
  { q := (beginIn 0 { maxBytes } "E" 1).1
    d := applyWrites (beginIn 0 { maxBytes } "E" 1).2 none
    first := 1 }

/-- A segment of `n` bytes. -/
def sampleSegment (seq n : ℕ) : SpooledSegment :=
  { seq, data := List.replicate n 7, key := .segment "E" seq }

theorem spool_accounting_one :
    ∃ s, Lib.Reach (step fun _ => "") Meets Begins s ∧ s.q.bytesPending = 3 ∧ segTotal s.d = 3 := by
  have hreach : Lib.Reach (step fun _ => "") Meets Begins
      { q := ((sample 5).q.enqueue (fun _ => "") 0 (sample 5).d (sampleSegment 1 3)).get rfl |>.queue
        d := applyWrites
          (((sample 5).q.enqueue (fun _ => "") 0 (sample 5).d (sampleSegment 1 3)).get rfl).writes
          (sample 5).d
        first := 1 } := by
    refine .next (a := .enqueue (sampleSegment 1 3) 0 none)
      (.start ⟨0, { maxBytes := 5 }, "E", 1, none, rfl⟩) ?_ rfl
    exact ⟨by decide, by decide, by decide, by decide, fun _ => Or.inr (by decide)⟩
  exact ⟨_, hreach, rfl, (spool_accounting hreach).1.symm⟩

/-- A sidecar that cannot be written leaves bytes that are not counted, and evicting them takes the
count below zero. -/
theorem accounting_wraps : ¬∀ (sha : Bytes → String) (s : Accounting),
    Lib.Reach (step sha) Lib.anyStep Begins s → s.q.bytesPending = segTotal s.d := by
  intro h
  obtain ⟨s, hs, hbytes, htotal⟩ : ∃ s, Lib.Reach (step fun _ => "") Lib.anyStep Begins s ∧
      s.q.bytesPending = 2 ^ 64 - 7 ∧ segTotal s.d = 3 :=
    Lib.exists_reach (sample 1)
      [.enqueue (sampleSegment 1 10) 0 (some .sidecar), .enqueue (sampleSegment 2 3) 0 none]
      ⟨0, { maxBytes := 1 }, "E", 1, none, rfl⟩ (by decide +kernel)
  have hsame := h _ s hs
  rw [hbytes, htotal] at hsame
  exact absurd hsame (by decide)

end Accounting

end Multisite

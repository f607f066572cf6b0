import Multisite.Session.World

/-!
Every way a session moves, said once.

`Core` is what the results see of a session's memory; `Move` lists the ways an
action changes it, with the bucket, the past and the folder's writes, and
`plan_moves` says that these are all.
-/

namespace Multisite

/-! ### The core of a session -/

/-- What the results see of a session's memory. -/
structure Core where
  spool : SpoolQueue
  nextSeq : ℕ
  manifest : Manifest
  pending : Option Manifest
  inFlight : Option Manifest
  dropping : List ℕ
  up : UploadPc
  mirror : UploadPc

/-- The core of a session that has just begun. -/
def Core.begun (q : SpoolQueue) (next : ℕ) (m : Manifest) : Core :=
  { spool := q, nextSeq := next, manifest := m, pending := some m, inFlight := none
    dropping := [], up := .idle, mirror := .idle }

/-- The core of a process. -/
def Proc.core (p : Proc) : Core :=
  { spool := p.spool
    nextSeq := p.nextSeq
    manifest := p.manifest
    pending := p.pub.pending
    inFlight := p.pub.inFlight.map (·.1)
    dropping := p.dropping.map (·.seq)
    up := p.up.pc
    mirror := p.mirror.pc }

namespace Core

/-- Where the two uploaders stand. -/
def hand (c : Core) : Target → UploadPc
  | .primary => c.up
  | .second => c.mirror

/-- The core with an uploader moved on. -/
def withHand (c : Core) (t : Target) (pc : UploadPc) : Core :=
  match t with
  | .primary => { c with up := pc }
  | .second => { c with mirror := pc }

variable (c : Core) (t : Target) (pc : UploadPc)

-- their equations are made here, once, and not by the first lemmas that ask for them
section
attribute [local simp] withHand hand
end

@[simp] lemma withHand_self : c.withHand t (c.hand t) = c := by cases t <;> rfl

@[simp] lemma hand_withHand : (c.withHand t pc).hand t = pc := by cases t <;> rfl

lemma hand_withHand_of_ne {u : Target} (h : u ≠ t) : (c.withHand t pc).hand u = c.hand u := by
  cases t <;> cases u <;> first | exact absurd rfl h | rfl

/-- The uploader that moved, and the other. -/
lemma hand_withHand_cases (u : Target) :
    u = t ∧ (c.withHand t pc).hand u = pc ∨ u ≠ t ∧ (c.withHand t pc).hand u = c.hand u := by
  by_cases h : u = t
  · subst h
    exact Or.inl ⟨rfl, hand_withHand c u pc⟩
  · exact Or.inr ⟨h, hand_withHand_of_ne c t pc h⟩

@[simp] lemma spool_withHand : (c.withHand t pc).spool = c.spool := by cases t <;> rfl

@[simp] lemma nextSeq_withHand : (c.withHand t pc).nextSeq = c.nextSeq := by cases t <;> rfl

@[simp] lemma manifest_withHand : (c.withHand t pc).manifest = c.manifest := by cases t <;> rfl

@[simp] lemma pending_withHand : (c.withHand t pc).pending = c.pending := by cases t <;> rfl

@[simp] lemma inFlight_withHand : (c.withHand t pc).inFlight = c.inFlight := by cases t <;> rfl

@[simp] lemma dropping_withHand : (c.withHand t pc).dropping = c.dropping := by cases t <;> rfl

end Core

lemma Proc.core_withUploader (p : Proc) (t : Target) (u : Uploader) :
    (p.withUploader t u).core = p.core.withHand t u.pc := by
  cases t <;> rfl

/-- The moves of an uploader that leave everything else alone and bring it no
nearer to a PUT: the yield rule answered, a segment given up, a failed request,
the heartbeat after a listing. -/
inductive UploadPc.Back : UploadPc → UploadPc → Prop
  | may (seg : SpooledSegment) : Back (.peeked seg) (.holding seg 0)
  | yield (seg : SpooledSegment) : Back (.peeked seg) .idle
  | giveUp (seg : SpooledSegment) (n : ℕ) : Back (.holding seg n) .idle
  | retry (seg : SpooledSegment) (n : ℕ) : Back (.sending seg n) (.holding seg n)
  | failed (seg : SpooledSegment) (n : ℕ) : Back (.sending seg n) .idle
  | beat (seg : SpooledSegment) (lp : LivePointer) : Back (.listed seg (some lp)) (.listed seg none)

/-- What the results see of the primary bucket: the event's manifest and its
segments. -/
structure Media where
  manifest : Option Manifest
  segment : ℕ → Option Bytes

/-- The media of an event in a bucket. -/
def Store.media (ev : Event) (st : Store) : Media :=
  { manifest := st.manifest ev.id, segment := st.segment ev.id }

lemma Store.media_put_manifest (ev : Event) (st : Store) (m : Manifest) :
    (st.put (.manifest ev.id) (.manifest m)).media ev =
      { st.media ev with manifest := some m } := by
  rw [media, manifest_put_manifest]
  rfl

lemma Store.media_put_segment (ev : Event) (st : Store) (s : ℕ) (b : Bytes) :
    (st.put (.segment ev.id s) (.bytes b)).media ev =
      { st.media ev with segment := Function.update (st.media ev).segment s (some b) } := by
  have : (st.put (.segment ev.id s) (.bytes b)).segment ev.id =
      Function.update (st.segment ev.id) s (some b) := by
    funext x
    rw [segment_put_segment, Function.update_apply]
  rw [media, this]
  rfl

/-- Where an uploader calls `SpoolQueue::confirm` for a segment it has put: the
primary's once it is listed, the mirror's at once. -/
def UploadPc.Confirms : Target → SpooledSegment → UploadPc → Prop
  | .primary, seg, pc => pc = .listed seg none
  | .second, seg, pc => pc = .stored seg

/-- The segment `publish_segment` hands to the spool. -/
def newSegment (ev : Event) (seq : ℕ) (data : Bytes) (durationS ptsOffsetS : ℚ) : SpooledSegment :=
  { seq, data, durationS, ptsOffsetS, key := .segment ev.id seq }

/-- The entry `on_confirmed` pushes. -/
def listing (c : Core) (seg : SpooledSegment) : ManifestSegment :=
  { seq := seg.seq, durationS := seg.durationS, checksum := seg.checksum
    atMs := c.manifest.startedAtMs + msOf seg.ptsOffsetS }

/-- What a confirmation after a PUT adds to the numbers the primary has. -/
def primaryOf (seq : ℕ) : Target → List ℕ
  | .primary => [seq]
  | .second => []

/-! ### Moves -/

/-- The moves of a session: an action, with the core, the media and the past
after it and the writes it makes in the folder. -/
inductive Move (ev : Event) (d : Option Folder) (md : Media) (h : History) (c : Core) :
    Action → Core → Media → History → List Write → Prop
  | quiet {a : Action} : Move ev d md h c a c md h []
  | back {a : Action} {t : Target} {pc : UploadPc} (hpc : (c.hand t).Back pc) :
      Move ev d md h c a (c.withHand t pc) md h []
  | take {t : Target} {seg : SpooledSegment} (hpc : c.hand t = .idle)
      (hp : c.spool.Peeked d t seg) :
      Move ev d md h c (.peek t) (c.withHand t (.peeked seg)) md h []
  | pass {t : Target} {seg : SpooledSegment} {n : ℕ} (hpc : c.hand t = .holding seg n)
      (hok : ev.damaged seg = false) (hf : c.spool.floor ≤ seg.seq) :
      Move ev d md h c (.checkFloor t) (c.withHand t (.sending seg (n + 1))) md h []
  | put {seg : SpooledSegment} {n : ℕ} (hpc : c.hand .primary = .sending seg n) :
      Move ev d md h c (.putSegment .primary .ok) (c.withHand .primary (.stored seg))
        { md with segment := Function.update md.segment seg.seq (some seg.data) }
        { h with acked := h.acked ++ [(seg.seq, seg.data)] } []
  | putSecond {seg : SpooledSegment} {n : ℕ} (hpc : c.hand .second = .sending seg n) :
      Move ev d md h c (.putSegment .second .ok) (c.withHand .second (.stored seg)) md h []
  | list {now : ℤ} {seg : SpooledSegment} {window : ℕ} {b : Option LivePointer} {m : Manifest}
      (hpc : c.hand .primary = .stored seg)
      (hm : m = { c.manifest.push (listing c seg) window with updatedAtMs := now }) :
      Move ev d md h c (.onConfirmed now)
        ({ c with manifest := m, pending := some m }.withHand .primary (.listed seg b))
        md h []
  | confirm {t : Target} {now : ℤ} {seg : SpooledSegment} (hpc : (c.hand t).Confirms t seg) :
      Move ev d md h c (.confirm t now)
        ({ c with spool := (c.spool.confirm now d seg.seq t).1 }.withHand t .idle) md
        { h with
          confirmed := h.confirmed ++ [seg.seq]
          primary := h.primary ++ primaryOf seg.seq t }
        (c.spool.confirm now d seg.seq t).2
  | skip {t : Target} {now : ℤ} {seg : SpooledSegment} {n : ℕ} (hok : ev.damaged seg = true)
      (hpc : c.hand t = .holding seg n) :
      Move ev d md h c (.skip t now)
        ({ c with spool := (c.spool.confirm now d seg.seq t).1 }.withHand t
          (afterSkip seg.seq t)) md
        { h with confirmed := h.confirmed ++ [seg.seq] }
        (c.spool.confirm now d seg.seq t).2
  | skipped {seq : ℕ} (hpc : c.hand .primary = .skipping seq) :
      Move ev d md h c .onSkipped
        ({ c with manifest := c.manifest.addGap seq }.withHand .primary .idle) md
        { h with gapped := h.gapped ++ [seq] } []
  | publish {data : Bytes} {dur pts : ℚ} {now : ℤ} {e : SpoolQueue.Enqueued}
      (hdrop : c.dropping = [])
      (he : c.spool.enqueue ev.sha256Hex now d (newSegment ev c.nextSeq data dur pts) = some e) :
      Move ev d md h c (.publishSegment data dur pts now none)
        { c with nextSeq := c.nextSeq + 1, spool := e.queue, dropping := e.drops.map (·.seq) }
        md h e.writes
  | fault {data : Bytes} {dur pts : ℚ} {now : ℤ} {k : ℕ} {e : SpoolQueue.Enqueued} {q : SpoolQueue}
      (hdrop : c.dropping = [])
      (he : c.spool.enqueue ev.sha256Hex now d (newSegment ev c.nextSeq data dur pts) = some e)
      (hq : k < 2 ∧ q = c.spool ∨ k + 1 = e.writes.length ∧ q = e.queue) :
      Move ev d md h c (.publishSegment data dur pts now (some k))
        { c with nextSeq := c.nextSeq + 1, spool := q } md h (e.writes.take k)
  | dropped {v : ℕ} {rest : List ℕ} (hpc : c.dropping = v :: rest) :
      Move ev d md h c .onDropped { c with dropping := rest, manifest := c.manifest.addGap v } md
        { h with gapped := h.gapped ++ [v] } []
  | ended {now : ℤ} {m : Manifest}
      (hm : m = { c.manifest with status := .ended, updatedAtMs := now }) :
      Move ev d md h c (.queueEnded now) { c with manifest := m, pending := some m } md h []
  | dequeue {m : Manifest} (hpc : c.pending = some m) (hf : c.inFlight = none) :
      Move ev d md h c .dequeueManifest { c with pending := none, inFlight := some m } md h []
  | putManifest {m : Manifest} (hpc : c.inFlight = some m) :
      Move ev d md h c (.putManifest true) { c with inFlight := none }
        { md with manifest := some m } h []
  | failManifest {m : Manifest} (hpc : c.inFlight = some m) :
      Move ev d md h c (.putManifest false) { c with inFlight := none } md h []
  | mark {b : Bool} :
      Move ev d md h c .markEnded { c with spool := (c.spool.markEnded b).1 } md h
        (c.spool.markEnded b).2
  | remove (hidle : ∀ t, c.hand t = .idle) (hdrop : c.dropping = []) :
      Move ev d md h c .removeIfDone { c with spool := (c.spool.removeIfDone d).1 } md h
        (c.spool.removeIfDone d).2.1

/-! ### The phases of `end` -/

/-- How far a session has come. -/
def Phase.rank : Phase → ℕ
  | .begun => 0
  | .goingLive => 1
  | .running => 2
  | .draining => 3
  | .cleared => 4
  | .ending => 5
  | .flushed => 6
  | .joining => 7
  | .joined => 8
  | .marking => 9
  | .removing => 10
  | .leaving => 11
  | .returned _ => 12

/-- Once `end` drains, the mirror and the drop callback rest; once it has cleared
the error, so does the primary. -/
structure Calm (p : Proc) : Prop where
  mirror : 3 ≤ p.phase.rank → p.mirror.pc = .idle ∧ p.dropping = []
  up : 4 ≤ p.phase.rank → p.up.pc = .idle

variable {ev : Event} {w : World} {p p' : Proc} {e : Effect} {a : Action}

lemma Calm.of_rank (h : p.phase.rank < 3) : Calm p :=
  ⟨fun h3 => absurd h3 (not_le.mpr h), fun h4 => absurd h4 (by omega)⟩

/-- A session whose core is the old one is as calm as it was, unless its phase
moved into the drain. -/
lemma Calm.same (hc : Calm p) (h : p'.core = p.core)
    (hr : p'.phase.rank ≤ p.phase.rank ∨ 4 ≤ p.phase.rank ∨ p'.phase.rank ≤ 2) : Calm p' := by
  have hup : p'.up.pc = p.up.pc := congrArg Core.up h
  have hmir : p'.mirror.pc = p.mirror.pc := congrArg Core.mirror h
  have hdrop : p'.dropping = [] ↔ p.dropping = [] := by
    have := congrArg Core.dropping h
    rw [← List.map_eq_nil_iff (f := SpoolDrop.seq), ← List.map_eq_nil_iff (f := SpoolDrop.seq)]
    exact Eq.congr_left this
  constructor
  · intro h3
    rw [hmir, hdrop]
    exact hc.mirror (by omega)
  · intro h4
    rw [hup]
    exact hc.up (by omega)

/-- The primary uploader at work, the session has not come past the drain. -/
lemma Calm.rank_primary (hc : Calm p) (h : p.up.pc ≠ .idle ∨ p.runs .primary = true) :
    p.phase.rank < 4 := by
  rcases h with h | h
  · by_contra hr
    exact h (hc.up (not_lt.mp hr))
  · simp only [Proc.runs, Bool.or_eq_true, decide_eq_true_eq] at h
    rcases h with h | h <;> rw [h] <;> decide

/-- The mirror at work, the session is on air. -/
lemma Calm.rank_second (hc : Calm p) (h : p.mirror.pc ≠ .idle ∨ p.runs .second = true) :
    p.phase.rank < 3 := by
  rcases h with h | h
  · by_contra hr
    exact h (hc.mirror (not_lt.mp hr)).1
  · simp only [Proc.runs, Bool.and_eq_true, decide_eq_true_eq] at h
    rw [h.1]
    decide

/-- An uploader at work may move on. -/
lemma Calm.hand {t : Target} (hc : Calm p) (hphase : p'.phase = p.phase)
    (hdrop : p'.dropping = p.dropping)
    (hhand : ∀ t' ≠ t, (p'.uploader t').pc = (p.uploader t').pc)
    (hact : (p.uploader t).pc ≠ .idle ∨ p.runs t = true) : Calm p' := by
  cases t with
  | primary =>
      have hr := hc.rank_primary hact
      refine ⟨fun h3 => ?_, fun h4 => absurd h4 (by rw [hphase]; omega)⟩
      rw [hphase] at h3
      rw [hdrop]
      exact ⟨(hhand .second (by simp)).trans (hc.mirror h3).1, (hc.mirror h3).2⟩
  | second =>
      have hr := hc.rank_second hact
      exact ⟨fun h3 => absurd h3 (by rw [hphase]; omega),
        fun h4 => absurd h4 (by rw [hphase]; omega)⟩

/-- The uploader of `withUploader` at work may move on. -/
lemma Calm.withUploader {t : Target} {u : Uploader} (hc : Calm p)
    (hphase : p'.phase = p.phase) (hdrop : p'.dropping = p.dropping)
    (hp : ∀ t', p'.uploader t' = (p.withUploader t u).uploader t')
    (hact : (p.uploader t).pc ≠ .idle ∨ p.runs t = true) : Calm p' := by
  refine hc.hand hphase hdrop (fun t' ht => ?_) hact
  rw [hp]
  cases t <;> cases t' <;> first | exact absurd rfl ht | rfl

/-! ### Every action is a move -/

/-- What an action of a session comes to. -/
def Moves (ev : Event) (w : World) (p : Proc) (a : Action) (e : Effect) : Prop :=
  ∃ p', e.machine = .up p' ∧ e.begun = false ∧ Calm p' ∧
    Move ev w.disk (w.store.media ev) w.hist p.core a p'.core (e.store.media ev) e.hist e.writes

lemma Moves.quiet (hc : Calm p)
    (hr : p'.phase.rank ≤ p.phase.rank ∨ 4 ≤ p.phase.rank ∨ p'.phase.rank ≤ 2)
    (h : p'.core = p.core) : Moves ev w p a (w.become p') :=
  ⟨p', rfl, rfl, hc.same h hr, by rw [h]; exact .quiet⟩

lemma Moves.live {room : String} {lp : LivePointer} (hc : Calm p)
    (hr : p'.phase.rank ≤ p.phase.rank ∨ 4 ≤ p.phase.rank ∨ p'.phase.rank ≤ 2)
    (h : p'.core = p.core) :
    Moves ev w p a { w.become p' with store := w.store.put (.live room) (.live lp) } :=
  ⟨p', rfl, rfl, hc.same h hr, by rw [h]; exact .quiet⟩

/-- An uploader's step that only moves its `pc` back. -/
lemma Moves.back {t : Target} {u : Uploader} (hc : Calm p)
    (h : (p.uploader t).pc.Back u.pc) : Moves ev w p a (w.become (p.withUploader t u)) := by
  refine ⟨p.withUploader t u, rfl, rfl, ?_, ?_⟩
  · refine hc.withUploader (by cases t <;> rfl) (by cases t <;> rfl) (fun _ => rfl) (Or.inl ?_)
    intro hidle
    rw [hidle] at h
    cases h
  · rw [Proc.core_withUploader]
    exact .back (by cases t <;> exact h)

/-- `publish_segment`. -/
lemma moves_publishSegment {data : Bytes} {dur pts : ℚ} {now : ℤ} {fault : Option ℕ}
    (h : p.plan ev w (.publishSegment data dur pts now fault) = some e) :
    Moves ev w p (.publishSegment data dur pts now fault) e := by
  unfold Proc.plan at h
  dsimp only at h
  split at h
  · rename_i hph
    have hcalm : ∀ p' : Proc, p'.phase = p.phase → Calm p' := fun p' hp' =>
      .of_rank (by rw [hp', hph.1]; decide)
    have hdrop : p.core.dropping = [] := by rw [Proc.core, hph.2]; rfl
    rw [publishSegment, Option.bind_eq_some_iff] at h
    obtain ⟨q, hq, h⟩ := h
    split at h
    · obtain rfl := Option.some.inj h
      exact ⟨_, rfl, rfl, hcalm _ rfl, .publish hdrop hq⟩
    · split at h
      · rename_i hk
        obtain rfl := Option.some.inj h
        exact ⟨_, rfl, rfl, hcalm _ rfl, .fault hdrop hq (Or.inl ⟨hk, rfl⟩)⟩
      · split at h
        · rename_i hk
          obtain rfl := Option.some.inj h
          exact ⟨_, rfl, rfl, hcalm _ rfl, .fault hdrop hq (Or.inr ⟨hk, rfl⟩)⟩
        · exact absurd h (by simp)
  · exact absurd h (by simp)

/-- `SpoolQueue::confirm` called by an uploader. -/
lemma core_confirmSpool (w : World) (seq : ℕ) {t : Target} (now : ℤ) (pc : UploadPc)
    (prim : List ℕ) (hc : Calm p) (hact : (p.uploader t).pc ≠ .idle) :
    ∃ p', (confirmSpool w p seq t now pc prim).machine = .up p' ∧ Calm p' ∧
      p'.core = { p.core with spool := (p.spool.confirm now w.disk seq t).1 }.withHand t pc ∧
      (confirmSpool w p seq t now pc prim).store = w.store ∧
      (confirmSpool w p seq t now pc prim).hist =
        { w.hist with
          confirmed := w.hist.confirmed ++ [seq], primary := w.hist.primary ++ prim } := by
  refine ⟨_, rfl, ?_, ?_, rfl, rfl⟩
  · refine hc.hand (t := t) (by cases t <;> rfl) (by cases t <;> rfl) (fun t' ht => ?_) (Or.inl hact)
    cases t <;> cases t' <;> first | exact absurd rfl ht | rfl
  · cases t <;> rfl

/-- `upload_one` on the answer to a PUT. -/
lemma moves_putSegment {t : Target} {r : PutOutcome} (hc : Calm p)
    (hk : ∀ seg n, p.up.pc = .sending seg n → seg.key = .segment ev.id seg.seq)
    (h : p.plan ev w (.putSegment t r) = some e) : Moves ev w p (.putSegment t r) e := by
  unfold Proc.plan at h
  dsimp only at h
  split at h
  · rename_i seg n hpc
    have hcalm : ∀ u, Calm (p.withUploader t u) := fun u =>
      hc.withUploader (by cases t <;> rfl) (by cases t <;> rfl) (fun _ => rfl)
        (Or.inl (by rw [hpc]; simp))
    cases r with
    | ok =>
        cases t with
        | primary =>
            obtain rfl := Option.some.inj h
            have hpc' : p.core.hand .primary = .sending seg n := hpc
            refine ⟨_, rfl, rfl, hcalm _, ?_⟩
            rw [Proc.core_withUploader, hk seg n hpc, Store.media_put_segment]
            exact .put hpc'
        | second =>
            obtain rfl := Option.some.inj h
            refine ⟨_, rfl, rfl, hcalm _, ?_⟩
            rw [Proc.core_withUploader]
            exact .putSecond hpc
    | retryable =>
        cases t <;> obtain rfl := Option.some.inj h <;>
          exact .back hc (by rw [hpc]; exact .retry seg n)
    | refused =>
        cases t <;> obtain rfl := Option.some.inj h <;>
          exact .back hc (by rw [hpc]; exact .failed seg n)
    | cancelled =>
        cases t <;> obtain rfl := Option.some.inj h <;>
          exact .back hc (by rw [hpc]; exact .failed seg n)
  · exact absurd h (by simp)

/-- `Session::on_confirmed`, its heartbeat, and the call of `confirm`. -/
lemma moves_confirming (hc : Calm p) (h : p.plan ev w a = some e)
    (ha : (∃ now, a = .onConfirmed now) ∨ (∃ ok, a = .putBeat ok) ∨ ∃ t now, a = .confirm t now) :
    Moves ev w p a e := by
  rcases ha with ⟨now, rfl⟩ | ⟨ok, rfl⟩ | ⟨t, now, rfl⟩ <;>
    (unfold Proc.plan at h; dsimp only at h)
  · split at h
    · rename_i seg hpc
      obtain rfl := Option.some.inj h
      refine ⟨_, rfl, rfl, ?_, ?_⟩
      · refine hc.hand (t := .primary) rfl rfl (fun t' ht => ?_) (Or.inl ?_)
        · cases t' <;> first | exact absurd rfl ht | rfl
        · rw [Proc.uploader, hpc]
          simp
      · exact .list hpc rfl
    · exact absurd h (by simp)
  · split at h
    · rename_i seg lp hpc
      have hback : p.up.pc.Back (.listed seg none) := by
        rw [hpc]
        exact .beat seg lp
      have hcalm : ∀ p' : Proc, p'.phase = p.phase → p'.dropping = p.dropping →
          p'.mirror = p.mirror → Calm p' := by
        intro p' h1 h2 h3
        refine hc.hand (t := .primary) h1 h2 (fun t' ht => ?_) (Or.inl ?_)
        · cases t' with
          | primary => exact absurd rfl ht
          | second => rw [Proc.uploader, h3]; rfl
        · rw [Proc.uploader, hpc]
          simp
      split at h
      · obtain rfl := Option.some.inj h
        exact .back (t := .primary) hc hback
      · split at h <;> obtain rfl := Option.some.inj h
        · refine ⟨_, rfl, rfl, hcalm _ rfl rfl rfl, ?_⟩
          exact .back (t := .primary) hback
        · refine ⟨_, rfl, rfl, hcalm _ rfl rfl rfl, ?_⟩
          exact .back (t := .primary) hback
    · exact absurd h (by simp)
  · split at h
    · rename_i seg hpc
      obtain rfl := Option.some.inj h
      obtain ⟨p', h1, h2, h3, -⟩ := core_confirmSpool (t := .primary) w seg.seq now .idle [seg.seq] hc
        (by rw [hpc]; simp)
      have hconf : (p.core.hand .primary).Confirms .primary seg := hpc
      refine ⟨p', h1, rfl, h2, ?_⟩
      rw [h3]
      exact .confirm (t := .primary) hconf
    · rename_i seg hpc
      obtain rfl := Option.some.inj h
      obtain ⟨p', h1, h2, h3, -⟩ := core_confirmSpool (t := .second) w seg.seq now .idle [] hc
        (by rw [hpc]; simp)
      have hconf : (p.core.hand .second).Confirms .second seg := hpc
      refine ⟨p', h1, rfl, h2, ?_⟩
      rw [h3]
      exact .confirm hconf
    · exact absurd h (by simp)

/-- The other steps of the uploaders. -/
lemma moves_uploading (hc : Calm p) (h : p.plan ev w a = some e)
    (ha : (∃ t, a = .peek t) ∨ (∃ t, a = .mayUpload t) ∨ (∃ t, a = .checkFloor t) ∨
      (∃ t now, a = .skip t now) ∨ a = .onSkipped ∨ ∃ t, a = .giveUp t) : Moves ev w p a e := by
  rcases ha with ⟨t, rfl⟩ | ⟨t, rfl⟩ | ⟨t, rfl⟩ | ⟨t, now, rfl⟩ | rfl | ⟨t, rfl⟩ <;>
    (unfold Proc.plan at h; dsimp only at h)
  · split at h
    · rename_i hidle
      split at h
      · rename_i seg hseg
        obtain rfl := Option.some.inj h
        refine ⟨_, rfl, rfl, ?_, ?_⟩
        · exact hc.withUploader (by cases t <;> rfl) (by cases t <;> rfl) (fun _ => rfl)
            (Or.inr hidle.1)
        · rw [Proc.core_withUploader]
          exact .take (by rw [← hidle.2]; cases t <;> rfl) (SpoolQueue.peekNext_spec hseg)
      · split at h
        · obtain rfl := Option.some.inj h
          refine .quiet hc (Or.inl (by cases t <;> exact le_rfl)) ?_
          cases t <;> rfl
        · exact absurd h (by simp)
    · exact absurd h (by simp)
  · split at h
    · rename_i seg hpc
      obtain rfl := Option.some.inj h
      refine .back hc ?_
      rw [hpc]
      dsimp only
      split
      · exact .may seg
      · exact .yield seg
    · exact absurd h (by simp)
  · split at h
    · rename_i seg n hpc
      split at h
      · exact absurd h (by simp)
      · rename_i hdam
        split at h
        · obtain rfl := Option.some.inj h
          exact .back hc (by rw [hpc]; exact .giveUp seg n)
        · rename_i hfloor
          obtain rfl := Option.some.inj h
          refine ⟨_, rfl, rfl, ?_, ?_⟩
          · exact hc.withUploader (by cases t <;> rfl) (by cases t <;> rfl) (fun _ => rfl)
              (Or.inl (by rw [hpc]; simp))
          · rw [Proc.core_withUploader]
            exact .pass (by rw [← hpc]; cases t <;> rfl) (by simpa using hdam) (not_lt.mp hfloor)
    · exact absurd h (by simp)
  · split at h
    · rename_i seg n hpc
      split at h
      · rename_i hdam
        obtain rfl := Option.some.inj h
        obtain ⟨p', h1, h2, h3, h4, h5⟩ := core_confirmSpool (t := t) w seg.seq now
          (afterSkip seg.seq t) [] hc (by rw [hpc]; simp)
        refine ⟨p', h1, rfl, h2, ?_⟩
        have hpc' : p.core.hand t = .holding seg n := by
          rw [← hpc]
          cases t <;> rfl
        rw [h3, h4, h5, List.append_nil]
        exact .skip hdam hpc'
      · exact absurd h (by simp)
    · exact absurd h (by simp)
  · split at h
    · rename_i seq hpc
      obtain rfl := Option.some.inj h
      refine ⟨_, rfl, rfl, ?_, ?_⟩
      · refine hc.hand (t := .primary) rfl rfl (fun t' ht => ?_) (Or.inl ?_)
        · cases t' <;> first | exact absurd rfl ht | rfl
        · rw [Proc.uploader, hpc]
          simp
      · exact .skipped hpc
    · exact absurd h (by simp)
  · split at h
    · rename_i seg n hpc
      obtain rfl := Option.some.inj h
      exact .back hc (by rw [hpc]; exact .giveUp seg n)
    · exact absurd h (by simp)

/-- The host's other actions before `end`. -/
lemma moves_onAir (hc : Calm p) (h : p.plan ev w a = some e)
    (ha : a = .flushBegin ∨ (∃ ok now, a = .publishLive ok now) ∨ a = .onDropped ∨
      (∃ now, a = .heartbeat now) ∨ ∃ ok, a = .putHeartbeat ok) : Moves ev w p a e := by
  rcases ha with rfl | ⟨ok, now, rfl⟩ | rfl | ⟨now, rfl⟩ | ⟨ok, rfl⟩ <;>
    (unfold Proc.plan at h; dsimp only at h)
  · split at h
    · obtain rfl := Option.some.inj h
      exact .quiet hc (by simp [Phase.rank]) rfl
    · exact absurd h (by simp)
  · split at h
    · split at h <;> obtain rfl := Option.some.inj h
      · exact .live hc (by simp [Phase.rank]) rfl
      · exact .quiet hc (by simp [Phase.rank, Proc.putFailed]) rfl
    · exact absurd h (by simp)
  · split at h
    · exact absurd h (by simp)
    · rename_i dr rest hdr
      obtain rfl := Option.some.inj h
      have hrank : p.phase.rank < 3 := by
        by_contra hr
        have := (hc.mirror (not_lt.mp hr)).2
        rw [hdr] at this
        exact absurd this (by simp)
      have hdr' : p.core.dropping = dr.seq :: rest.map (·.seq) := by
        rw [Proc.core, hdr]
        rfl
      exact ⟨_, rfl, rfl, .of_rank hrank, .dropped hdr'⟩
  · split at h
    · obtain rfl := Option.some.inj h
      exact .quiet hc (Or.inl le_rfl) rfl
    · exact absurd h (by simp)
  · split at h
    · exact absurd h (by simp)
    · split at h <;> obtain rfl := Option.some.inj h
      · exact .live hc (Or.inl le_rfl) rfl
      · exact .quiet hc (Or.inl le_rfl) rfl

/-- The actions of `end`. -/
lemma moves_end (hc : Calm p) (h : p.plan ev w a = some e)
    (ha : a = .stopUploaders ∨ a = .clearError ∨ (∃ now, a = .queueEnded now) ∨ a = .flushEnd ∨
      a = .stopPublisher ∨ a = .joinPublisher ∨ (∃ ok now, a = .publishEnded ok now) ∨
      a = .markEnded ∨ a = .removeIfDone ∨ a = .endReturn) : Moves ev w p a e := by
  rcases ha with rfl | rfl | ⟨now, rfl⟩ | rfl | rfl | rfl | ⟨ok, now, rfl⟩ | rfl | rfl | rfl <;>
    (unfold Proc.plan at h; dsimp only at h) <;> split at h <;>
      first | simp only [reduceCtorEq] at h | rename_i hph
  · obtain rfl := Option.some.inj h
    exact ⟨_, rfl, rfl, ⟨fun _ => ⟨hph.2.2.2, hph.2.1⟩, fun _ => hph.2.2.1⟩,
      .quiet⟩
  · obtain rfl := Option.some.inj h
    exact ⟨_, rfl, rfl, ⟨fun _ => hc.mirror (by rw [hph.1]; decide), fun _ => hph.2⟩,
      .quiet⟩
  · obtain rfl := Option.some.inj h
    exact ⟨_, rfl, rfl,
      ⟨fun _ => hc.mirror (by rw [hph]; decide), fun _ => hc.up (by rw [hph]; decide)⟩, .ended rfl⟩
  · obtain rfl := Option.some.inj h
    exact .quiet hc (by simp [hph, Phase.rank]) rfl
  · obtain rfl := Option.some.inj h
    exact .quiet hc (by simp [hph, Phase.rank]) rfl
  · obtain rfl := Option.some.inj h
    exact .quiet hc (by simp [hph, Phase.rank]) rfl
  · split at h <;> obtain rfl := Option.some.inj h
    · exact .live hc (by simp [hph, Phase.rank]) rfl
    · exact .quiet hc (by simp [hph, Phase.rank]) rfl
  · obtain rfl := Option.some.inj h
    exact ⟨_, rfl, rfl,
      ⟨fun _ => hc.mirror (by rw [hph]; decide), fun _ => hc.up (by rw [hph]; decide)⟩, .mark⟩
  · obtain rfl := Option.some.inj h
    have hup := hc.up (by rw [hph]; decide)
    have hmir := hc.mirror (by rw [hph]; decide)
    refine ⟨_, rfl, rfl, ⟨fun _ => hmir, fun _ => hup⟩, .remove (fun t => ?_) ?_⟩
    · cases t with
      | primary => exact hup
      | second => exact hmir.1
    · rw [Proc.core, hmir.2]
      rfl
  · obtain rfl := Option.some.inj h
    exact .quiet hc (by simp [hph, Phase.rank]) rfl

/-- The publisher's steps. -/
lemma moves_publisher (hc : Calm p) (h : p.plan ev w a = some e)
    (ha : a = .dequeueManifest ∨ ∃ ok, a = .putManifest ok) : Moves ev w p a e := by
  rcases ha with rfl | ⟨ok, rfl⟩ <;>
    (unfold Proc.plan at h; dsimp only at h)
  · split at h
    · rename_i m hpend hfl
      split at h
      · obtain rfl := Option.some.inj h
        exact ⟨_, rfl, rfl, ⟨hc.mirror, hc.up⟩, .dequeue hpend (by rw [Proc.core, hfl]; rfl)⟩
      · exact absurd h (by simp)
    · exact absurd h (by simp)
  · split at h
    · rename_i m gen hfl
      have hflight : p.core.inFlight = some m := by rw [Proc.core, hfl]; rfl
      split at h <;> obtain rfl := Option.some.inj h
      · rename_i hok
        obtain rfl := hok
        refine ⟨_, rfl, rfl, ⟨hc.mirror, hc.up⟩, ?_⟩
        rw [Store.media_put_manifest]
        exact .putManifest hflight
      · rename_i hok
        obtain rfl := Bool.eq_false_iff.mpr hok
        exact ⟨_, rfl, rfl, ⟨hc.mirror, hc.up⟩, .failManifest hflight⟩
    · exact absurd h (by simp)

/-- **Every action of a session is a move.** -/
theorem plan_moves (hc : Calm p)
    (hk : ∀ seg n, p.up.pc = .sending seg n → seg.key = .segment ev.id seg.seq)
    (h : p.plan ev w a = some e) : Moves ev w p a e := by
  cases a with
  | flushBegin => exact moves_onAir hc h (by simp)
  | publishLive ok now => exact moves_onAir hc h (by simp)
  | onDropped => exact moves_onAir hc h (by simp)
  | heartbeat now => exact moves_onAir hc h (by simp)
  | putHeartbeat ok => exact moves_onAir hc h (by simp)
  | publishSegment data dur pts now fault => exact moves_publishSegment h
  | stopUploaders => exact moves_end hc h (by simp)
  | clearError => exact moves_end hc h (by simp)
  | queueEnded now => exact moves_end hc h (by simp)
  | flushEnd => exact moves_end hc h (by simp)
  | stopPublisher => exact moves_end hc h (by simp)
  | joinPublisher => exact moves_end hc h (by simp)
  | publishEnded ok now => exact moves_end hc h (by simp)
  | markEnded => exact moves_end hc h (by simp)
  | removeIfDone => exact moves_end hc h (by simp)
  | endReturn => exact moves_end hc h (by simp)
  | peek t => exact moves_uploading hc h (by simp)
  | mayUpload t => exact moves_uploading hc h (by simp)
  | checkFloor t => exact moves_uploading hc h (by simp)
  | putSegment t r => exact moves_putSegment hc hk h
  | onConfirmed now => exact moves_confirming hc h (by simp)
  | putBeat ok => exact moves_confirming hc h (by simp)
  | confirm t now => exact moves_confirming hc h (by simp)
  | skip t now => exact moves_uploading hc h (by simp)
  | onSkipped => exact moves_uploading hc h (by simp)
  | giveUp t => exact moves_uploading hc h (by simp)
  | dequeueManifest => exact moves_publisher hc h (by simp)
  | putManifest ok => exact moves_publisher hc h (by simp)
  | _ => exact absurd h (by simp [Proc.plan])

end Multisite

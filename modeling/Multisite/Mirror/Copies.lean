import Multisite.Session.Cues
import Multisite.Session.Pointer
import Multisite.Mirror.Objects

/-!
The second bucket's copies of a session's documents.

The documents go to the second bucket through the queue of `Mirror.Objects`.  `end`
stops the thread that sends them before anything else, and only then writes the
manifest and the pointer that say `ended`: these are queued and never sent.

* `never_told`: a run in which every request to the second bucket succeeds and `end`
  returns true, and the second bucket still says `live`;
* `end_not_copied`: so it is in every run: the pointer last written never reaches
  the second bucket.
-/

namespace Multisite

/-- The world with its cues, and the session's queue for the second bucket. -/
structure Mirrored where
  cued : Cued := {}
  objects : MirrorObjects := {}

/-- One step of a session or a cue, or one of `mirror_objects_loop`; `stop` is the
beginning of `end`, which clears `m_obj_run`. -/
inductive MirroredAction where
  | site (a : CueAction)
  | loop (a : MirrorAction)
  deriving DecidableEq, Repr

/-- The calls of `put_bytes` a step makes. -/
def Cued.putCalls (ev : Event) (c : Cued) : CueAction → List PutCall
  | .session a => c.world.putCalls ev a
  | .putMarkers ok => c.sending.toList.map fun l => putJson (.markers ev.id) (.markers l) ok
  | _ => []

/-- `put_bytes` queues what it wrote, whatever the primary bucket answered. -/
def MirrorObjects.queueAll (q : MirrorObjects) (cs : List PutCall) : MirrorObjects :=
  cs.foldl (fun q c => q.queue c.key c.body c.contentType) q

/-- `begin_common` has started the thread by its last step. -/
def MirrorObjects.startAt (q : MirrorObjects) : CueAction → MirrorObjects
  | .session (.publishLive _ _) => q.start
  | _ => q

/-- The queue after a step: a `Session` that is gone took it with it, and without a
second bucket nothing is queued. -/
def Mirrored.objectsAfter (ev : Event) (m : Mirrored) (a : CueAction) (c : Cued) : MirrorObjects :=
  match c.world.machine with
  | .up p =>
      if p.cfg.mirror then (m.objects.queueAll (m.cued.putCalls ev a)).startAt a else m.objects
  | _ => {}

/-- `end` joins the thread before it stops the uploaders. -/
def Mirrored.joined (m : Mirrored) : CueAction → Bool
  | .session .stopUploaders => decide (m.objects.pc = .off)
  | _ => true

/-- The steps of the loop that are its own, with the answer of `mirror_may_go`. -/
def loopMay (p : Proc) (d : Option Folder) : MirrorAction → Bool
  | .stop => decide (p.phase = .running)
  | .look | .take _ | .put _ | .putBack | .sleep => true
  | .swap => p.mirrorMayGo d
  | .yield => !p.mirrorMayGo d
  | .putBytes _ _ _ | .start => false

/-- **One step**. -/
def Mirrored.step (ev : Event) (m : Mirrored) : MirroredAction → Option Mirrored
  | .site a =>
      if m.joined a then
        (m.cued.step ev a).map fun c => { cued := c, objects := m.objectsAfter ev a c }
      else none
  | .loop a =>
      match m.cued.world.machine with
      | .up p =>
          if loopMay p m.cued.world.disk a then
            (MirrorObjects.step (m.objects, m.cued.world.second) a).map fun s =>
              { cued := { m.cued with world := { m.cued.world with second := s.2 } }
                objects := s.1 }
          else none
      | _ => none

/-- Before the event. -/
def Mirrored.Fresh (m : Mirrored) : Prop := m = {}

/-- The event's documents. -/
def documents (id room : String) : List Key :=
  [.manifest id, .live room, .event id, .init id, .markers id]

/-- The value `put_bytes` wrote last for a document was sent to the second bucket,
and is what it holds. -/
def Copied (ev : Event) (room : String) (m : Mirrored) : Prop :=
  ∀ k ∈ documents ev.id room, ∀ o, m.objects.newest k = some o →
    (k, o) ∈ m.objects.received ∧ m.cued.world.second k = some o.body

/-! ### The invariant -/

/-- The value last queued for the key has not been sent. -/
def Waits (q : MirrorObjects) (k : Key) : Prop :=
  ∃ o, q.newest k = some o ∧ (k, o) ∉ q.received

variable {ev : Event} {m m' : Mirrored} {q : MirrorObjects} {st : Store} {k : Key}

/-- A value just queued has not been sent. -/
lemma waits_queue (h : Latest q st) (k : Key) (body : Object) (ct : String) :
    Waits (q.queue k body ct) k := by
  refine ⟨_, Function.update_self .., fun hmem => ?_⟩
  obtain ⟨n, hn, hle⟩ := h.received_le k _ hmem
  rw [hn, Option.elim_some] at hle
  simp at hle

lemma Waits.queue (h : Latest q st) (hu : Waits q k) (k' : Key) (body : Object) (ct : String) :
    Waits (q.queue k' body ct) k := by
  by_cases hk : k = k'
  · subst hk
    exact waits_queue h k body ct
  · obtain ⟨o, ho, hnot⟩ := hu
    exact ⟨o, (Function.update_of_ne hk _ _).trans ho, hnot⟩

lemma Latest.queueAll (h : Latest q st) (cs : List PutCall) : Latest (q.queueAll cs) st := by
  induction cs generalizing q with
  | nil => exact h
  | cons c cs ih => exact ih (h.queue c.key c.body c.contentType)

lemma Waits.queueAll (h : Latest q st) (hu : Waits q k) (cs : List PutCall) :
    Waits (q.queueAll cs) k := by
  induction cs generalizing q with
  | nil => exact hu
  | cons c cs ih =>
      exact ih (h.queue c.key c.body c.contentType) (hu.queue h c.key c.body c.contentType)

/-- A store that holds the same under the keys queued. -/
lemma Latest.of_store (h : Latest q st) {st' : Store}
    (hst : ∀ k o, q.newest k = some o → st' k = st k) : Latest q st' where
  kept k o ho := by
    rw [hst k o ho]
    exact h.kept k o ho
  pending_le := h.pending_le
  held_le := h.held_le
  received_le := h.received_le
  held_lt := h.held_lt
  received_lt := h.received_lt
  never := h.never
  idle := h.idle
  taken := h.taken

/-- What the queue of a session keeps: it is empty before one begins, no segment
goes through it, outside the time on air nobody sends, and past the pointer of `end`
the pointer last queued is waiting. -/
structure Uncopied (m : Mirrored) : Prop where
  latest : Latest m.objects m.cued.world.second
  keys : ∀ k o, m.objects.newest k = some o → k.isSegment = false
  fresh : (∀ p, m.cued.world.machine ≠ .up p) → m.objects = {}
  off : ∀ p, m.cued.world.machine = .up p → p.phase.rank ≠ 2 → m.objects.pc = .off
  waits : ∀ p, m.cued.world.machine = .up p → p.cfg.mirror = true → 9 ≤ p.phase.rank →
    Waits m.objects (.live p.cfg.roomId)

lemma putCalls_isSegment {c : Cued} {a : CueAction} {call : PutCall}
    (h : call ∈ c.putCalls ev a) : call.key.isSegment = false := by
  cases a with
  | session a =>
      rcases putCalls_key h with ⟨r, hr⟩ | ⟨r, hr⟩ | hr | hr | hr <;> rw [hr] <;> rfl
  | putMarkers ok =>
      obtain ⟨l, -, rfl⟩ := List.mem_map.mp h
      rfl
  | _ => exact absurd h (by simp [Cued.putCalls])

lemma newest_queueAll {cs : List PutCall} {o : MirrorObject}
    (h : (q.queueAll cs).newest k = some o) :
    (∃ o', q.newest k = some o') ∨ ∃ c ∈ cs, c.key = k := by
  induction cs generalizing q with
  | nil => exact Or.inl ⟨o, h⟩
  | cons c cs ih =>
      rcases ih h with ⟨o', ho'⟩ | ⟨d, hd, hk⟩
      · by_cases hk : k = c.key
        · exact Or.inr ⟨c, List.mem_cons_self, hk.symm⟩
        · exact Or.inl ⟨o', (Function.update_of_ne hk _ _).symm.trans ho'⟩
      · exact Or.inr ⟨d, List.mem_cons_of_mem _ hd, hk⟩

@[simp] lemma pc_queueAll (q : MirrorObjects) (cs : List PutCall) :
    (q.queueAll cs).pc = q.pc := by
  induction cs generalizing q with
  | nil => rfl
  | cons c cs ih => exact (ih _).trans rfl

lemma startAt_of_ne {a : CueAction} (h : ∀ ok now, a ≠ .session (.publishLive ok now)) :
    q.startAt a = q := by
  unfold MirrorObjects.startAt
  split
  · exact absurd rfl (h _ _)
  · rfl

/-- The loop does nothing where nobody sends. -/
lemma loop_off {s t : MirrorObjects × Store} {a : MirrorAction} (hpc : s.1.pc = .off)
    (ha : a ≠ .start ∧ a ≠ .stop ∧ ∀ k b ct, a ≠ .putBytes k b ct) :
    MirrorObjects.step s a ≠ some t := by
  cases a <;> simp_all [MirrorObjects.step]

/-- A step of the loop leaves what was queued last. -/
lemma loop_newest {s t : MirrorObjects × Store} {a : MirrorAction}
    (ha : ∀ k b ct, a ≠ .putBytes k b ct) (h : MirrorObjects.step s a = some t) :
    t.1.newest = s.1.newest := by
  cases a with
  | putBytes k b ct => exact absurd rfl (ha k b ct)
  | _ =>
      simp only [MirrorObjects.step] at h
      repeat' split at h
      all_goals first
        | simp only [reduceCtorEq] at h
        | (obtain rfl := Option.some.inj h
           rfl)

lemma loopMay_ne_putBytes {p : Proc} {d : Option Folder} {a : MirrorAction}
    (hmay : loopMay p d a = true) (k : Key) (b : Object) (ct : String) : a ≠ .putBytes k b ct := by
  rintro rfl
  exact absurd hmay (by simp [loopMay])

/-- The loop takes its steps on air only. -/
lemma Uncopied.onAir {p : Proc} {a : MirrorAction} {s : MirrorObjects × Store} (h : Uncopied m)
    (hm : m.cued.world.machine = .up p) (hmay : loopMay p m.cued.world.disk a = true)
    (hs : MirrorObjects.step (m.objects, m.cued.world.second) a = some s) : p.phase.rank = 2 := by
  by_contra hr
  refine loop_off (h.off p hm hr) ⟨?_, ?_, loopMay_ne_putBytes hmay⟩ hs
  · rintro rfl
    exact absurd hmay (by simp [loopMay])
  · rintro rfl
    simp only [loopMay, decide_eq_true_eq] at hmay
    rw [hmay] at hr
    exact hr rfl

lemma Uncopied.loop {p : Proc} {a : MirrorAction} {s : MirrorObjects × Store} (h : Uncopied m)
    (hm : m.cued.world.machine = .up p) (hmay : loopMay p m.cued.world.disk a = true)
    (hs : MirrorObjects.step (m.objects, m.cued.world.second) a = some s) :
    Uncopied { cued := { m.cued with world := { m.cued.world with second := s.2 } }
               objects := s.1 } := by
  have hput := loopMay_ne_putBytes hmay
  have hair : p.phase.rank = 2 := h.onAir hm hmay hs
  have hp : ∀ p', m.cued.world.machine = .up p' → p'.phase.rank = 2 := by
    intro p' hp'
    obtain rfl := Machine.up.inj (hm.symm.trans hp')
    exact hair
  refine ⟨h.latest.step hs, ?_, fun hdown => absurd hm (hdown p), fun p' hp' hr => ?_,
    fun p' hp' _ hr => ?_⟩
  · rw [loop_newest hput hs]
    exact h.keys
  · exact absurd (hp p' hp') hr
  · rw [hp p' hp'] at hr
    exact absurd hr (by decide)

/-- What a step of a session may do to its phase and its documents. -/
structure Airs (ev : Event) (m : Mirrored) (a : CueAction) (p p' : Proc) : Prop where
  cfg : p'.cfg = p.cfg
  rank_le : p.phase.rank ≤ p'.phase.rank
  starts : ∀ ok now, a = .session (.publishLive ok now) → p.phase.rank = 1 ∧ p'.phase.rank = 2
  stops : p.phase.rank = 2 → p'.phase.rank ≠ 2 → m.objects.pc = .off
  sends : p.phase.rank < 9 → 9 ≤ p'.phase.rank →
    ∃ body ok, m.cued.putCalls ev a = [putJson (.live p.cfg.roomId) body ok]

/-- A step of a running session queues its documents. -/
lemma Uncopied.up {p p' : Proc} {a : CueAction} {c : Cued} (h : Uncopied m)
    (hm : m.cued.world.machine = .up p) (hm' : c.world.machine = .up p') (ha : Airs ev m a p p')
    (hsecond : ∀ k, k.isSegment = false → c.world.second k = m.cued.world.second k) :
    Uncopied { cued := c, objects := m.objectsAfter ev a c } := by
  have hlatest : Latest m.objects c.world.second :=
    h.latest.of_store fun k o ho => hsecond k (h.keys k o ho)
  have hobj : m.objectsAfter ev a c = if p.cfg.mirror then
      (m.objects.queueAll (m.cued.putCalls ev a)).startAt a else m.objects := by
    rw [Mirrored.objectsAfter, hm', ← ha.cfg]
  have hup : ∀ r, c.world.machine = .up r → r = p' := fun r hr =>
    (Machine.up.inj (hm'.symm.trans hr)).symm
  -- outside the start, the thread stays where it is
  have hstay : p'.phase.rank ≠ 2 → ∀ q : MirrorObjects, q.startAt a = q := fun hr q =>
    startAt_of_ne fun ok now he => hr (ha.starts ok now he).2
  rw [hobj]
  by_cases hmir : p.cfg.mirror = true
  · rw [if_pos hmir]
    have hall := hlatest.queueAll (m.cued.putCalls ev a)
    refine ⟨?_, fun k o ho => ?_, fun hdown => absurd hm' (hdown p'), fun r hr hne => ?_,
      fun r hr _ h9 => ?_⟩
    · by_cases hlive : ∃ ok now, a = .session (.publishLive ok now)
      · obtain ⟨ok, now, rfl⟩ := hlive
        have hpc : m.objects.pc = .off := by
          refine h.off p hm ?_
          rw [(ha.starts ok now rfl).1]
          decide
        have hstart : ∀ q : MirrorObjects, q.pc = .off →
            MirrorObjects.step (q, c.world.second) .start = some (q.start, c.world.second) :=
          fun q hq => if_pos hq
        exact Latest.step hall (hstart _ ((pc_queueAll _ _).trans hpc))
      · rw [startAt_of_ne fun ok now he => hlive ⟨ok, now, he⟩]
        exact hall
    · have hkey : (m.objects.queueAll (m.cued.putCalls ev a)).newest k = some o := by
        unfold MirrorObjects.startAt at ho
        split at ho <;> exact ho
      rcases newest_queueAll hkey with ⟨o', ho'⟩ | ⟨call, hcall, rfl⟩
      · exact h.keys k o' ho'
      · exact putCalls_isSegment hcall
    · obtain rfl := hup r hr
      rw [hstay hne, pc_queueAll]
      by_cases h2 : p.phase.rank = 2
      · exact ha.stops h2 hne
      · exact h.off p hm h2
    · obtain rfl := hup r hr
      rw [hstay (by omega), ha.cfg]
      by_cases hlt : p.phase.rank < 9
      · obtain ⟨body, ok, hcalls⟩ := ha.sends hlt h9
        rw [hcalls]
        exact waits_queue hlatest _ body _
      · exact (h.waits p hm hmir (not_lt.mp hlt)).queueAll hlatest _
  · rw [if_neg hmir]
    refine ⟨hlatest, h.keys, fun hdown => absurd hm' (hdown p'), fun r hr hne => ?_,
      fun r hr hmir' _ => ?_⟩
    · obtain rfl := hup r hr
      by_cases h2 : p.phase.rank = 2
      · exact ha.stops h2 hne
      · exact h.off p hm h2
    · obtain rfl := hup r hr
      rw [ha.cfg] at hmir'
      exact absurd hmir' hmir

/-- A session that begins has queued its first documents. -/
lemma Uncopied.begins {p' : Proc} {a : CueAction} {c : Cued} (h : Uncopied m)
    (hdown : ∀ p, m.cued.world.machine ≠ .up p) (hm' : c.world.machine = .up p')
    (hphase : p'.phase = .begun) (ha : ∀ ok now, a ≠ .session (.publishLive ok now)) :
    Uncopied { cued := c, objects := m.objectsAfter ev a c } := by
  have hlatest : Latest ({} : MirrorObjects) c.world.second := .start _
  have hobj : m.objectsAfter ev a c = if p'.cfg.mirror then
      ({} : MirrorObjects).queueAll (m.cued.putCalls ev a) else {} := by
    rw [Mirrored.objectsAfter, hm', h.fresh hdown]
    dsimp only
    rw [startAt_of_ne ha]
  rw [hobj]
  refine ⟨?_, fun k o ho => ?_, fun hd => absurd hm' (hd p'), fun r _ _ => ?_, fun r hr _ h9 => ?_⟩
  · split
    · exact hlatest.queueAll _
    · exact hlatest
  · split at ho
    · rcases newest_queueAll ho with ⟨o', ho'⟩ | ⟨call, hcall, rfl⟩
      · exact absurd ho' (by simp)
      · exact putCalls_isSegment hcall
    · exact absurd ho (by simp)
  · split
    · rw [pc_queueAll]
    · rfl
  · obtain rfl := Machine.up.inj (hm'.symm.trans hr)
    rw [hphase] at h9
    exact absurd h9 (by decide)

/-- Without a session the queue is gone. -/
lemma Uncopied.down {a : CueAction} {c : Cued} (hdown : ∀ p, c.world.machine ≠ .up p) :
    Uncopied { cued := c, objects := m.objectsAfter ev a c } := by
  have hobj : m.objectsAfter ev a c = {} := by
    unfold Mirrored.objectsAfter
    split
    · rename_i p hp
      exact absurd hp (hdown p)
    · rfl
  rw [hobj]
  exact ⟨.start _, fun k o ho => absurd ho (by simp), fun _ => rfl,
    fun p hp => absurd hp (hdown p), fun p hp => absurd hp (hdown p)⟩

lemma Airs.stay {a : CueAction} {p : Proc} (ha : ∀ b, a ≠ .session b) : Airs ev m a p p where
  cfg := rfl
  rank_le := le_rfl
  starts _ _ h := absurd h (ha _)
  stops h2 hne := absurd h2 hne
  sends hlt h9 := absurd hlt (not_lt.mpr h9)

/-- A step of the session moves it as `plan_forward` has it, and `end` stops the
uploaders only when nobody sends. -/
lemma Airs.of_plan {p p' : Proc} {a : Action} {e : Effect} (hjoin : m.joined (.session a) = true)
    (hm : m.cued.world.machine = .up p) (he : p.plan ev m.cued.world a = some e)
    (hp' : e.machine = .up p') : Airs ev m (.session a) p p' := by
  obtain ⟨r, hr, hf⟩ := plan_forward he
  obtain rfl := Machine.up.inj (hp'.symm.trans hr)
  refine ⟨hf.cfg, hf.rank_le, fun ok now heq => ?_, fun h2 hne => ?_, fun hlt h9 => ?_⟩
  · obtain rfl := CueAction.session.inj heq
    simp only [Proc.plan] at he
    split at he
    · rename_i hphase
      have hrun : p'.phase = .running := by
        split at he <;> obtain rfl := Option.some.inj he <;>
          exact (congrArg Proc.phase (Machine.up.inj hp')).symm
      rw [hphase, hrun]
      exact ⟨rfl, rfl⟩
    · exact absurd he (by simp)
  · have h3 : 3 ≤ p'.phase.rank := by
      have := hf.rank_le
      omega
    obtain rfl := hf.stops (by omega) h3
    simpa [Mirrored.joined] using hjoin
  · obtain ⟨ok, now, rfl⟩ := hf.sends hlt h9
    have hjoined : p.phase = .joined := by
      simp only [Proc.plan] at he
      by_contra hne
      rw [if_neg hne] at he
      exact absurd he (by simp)
    simp only [Cued.putCalls, World.putCalls, hm, Proc.putCalls, if_pos hjoined]
    exact ⟨_, _, rfl⟩

/-- A step after which a session is running. -/
lemma Uncopied.site {a : CueAction} {c : Cued} {p' : Proc} (hs : Sound ev m.cued.world)
    (h : Uncopied m) (hjoin : m.joined a = true) (hc : m.cued.step ev a = some c)
    (hm' : c.world.machine = .up p') :
    Uncopied { cued := c, objects := m.objectsAfter ev a c } := by
  cases a with
  | session a =>
      obtain ⟨w, hw, rfl⟩ := Option.map_eq_some_iff.mp hc
      rw [Cued.world_after] at hm'
      rcases step_cases hw with ⟨-, -, rfl⟩ | ⟨s, b, rfl, -, rfl⟩ | ⟨a', n, e, -, -, -, rfl⟩ |
        ⟨e, he, rfl⟩
      · exact absurd hm' (by simp)
      · refine h.up hm' (by rwa [Cued.world_after]) ?_ fun k _ => by rw [Cued.world_after]; rfl
        exact ⟨rfl, le_rfl, fun ok now heq => absurd (CueAction.session.inj heq) (by simp),
          fun h2 hne => absurd h2 hne, fun hlt h9 => absurd hlt (not_lt.mpr h9)⟩
      · exact absurd hm' (by simp [World.cutAfter])
      · by_cases hup : ∃ p, m.cued.world.machine = .up p
        · obtain ⟨p, hm⟩ := hup
          rw [plan_up hm] at he
          refine h.up hm (by rwa [Cued.world_after]) (.of_plan hjoin hm he hm') fun k hk => ?_
          rw [Cued.world_after]
          exact Proc.second_of_plan (fun t seg => hs.hands p t seg hm) he hk
        · have hdown : ∀ p, m.cued.world.machine ≠ .up p := fun p hp => hup ⟨p, hp⟩
          refine h.begins hdown (by rwa [Cued.world_after]) (phase_of_plan hdown he hm') ?_
          rintro ok now heq
          obtain rfl := CueAction.session.inj heq
          rcases up_of_step hw hm' with ⟨p, hp⟩ | ⟨_, _, _, hact, -⟩ | ⟨_, _, _, _, hact⟩
          · exact hdown p hp
          · exact absurd hact (by simp)
          · exact absurd hact (by simp)
  | addMarker args now =>
      simp only [Cued.step] at hc
      split at hc
      · obtain rfl := Option.some.inj hc
        exact h.up hm' hm' (.stay (by simp)) fun _ _ => rfl
      · exact absurd hc (by simp)
  | readMarkers =>
      simp only [Cued.step] at hc
      split at hc
      · obtain rfl := Option.some.inj hc
        exact h.up hm' hm' (.stay (by simp)) fun _ _ => rfl
      · exact absurd hc (by simp)
  | putMarkers ok =>
      simp only [Cued.step] at hc
      split at hc
      · exact absurd hc (by simp)
      · split at hc <;> obtain rfl := Option.some.inj hc <;>
          exact h.up hm' hm' (.stay (by simp)) fun _ _ => rfl

/-- **One step** keeps it. -/
theorem Uncopied.step {a : MirroredAction} (hs : Sound ev m.cued.world) (h : Uncopied m)
    (ht : m.step ev a = some m') : Uncopied m' := by
  cases a with
  | loop a =>
      simp only [Mirrored.step] at ht
      split at ht
      · rename_i p hm
        split at ht
        · rename_i hmay
          obtain ⟨s, hstep, rfl⟩ := Option.map_eq_some_iff.mp ht
          exact h.loop hm hmay hstep
        · exact absurd ht (by simp)
      · exact absurd ht (by simp)
  | site a =>
      simp only [Mirrored.step] at ht
      split at ht
      · rename_i hjoin
        obtain ⟨c, hc, rfl⟩ := Option.map_eq_some_iff.mp ht
        by_cases hup : ∃ p', c.world.machine = .up p'
        · obtain ⟨p', hm'⟩ := hup
          exact h.site hs hjoin hc hm'
        · exact .down fun p hp => hup ⟨p, hp⟩
      · exact absurd ht (by simp)

/-! ### What the second bucket is told -/

/-- A document that says the event has ended. -/
def Object.saysEnded : Object → Bool
  | .live lp => decide (lp.status = .ended)
  | .manifest mf => decide (mf.status = .ended)
  | _ => false

/-- Every object the queue or its loop holds has the property. -/
structure AllQueued (P : MirrorObject → Prop) (q : MirrorObjects) : Prop where
  pending : ∀ k o, q.pending.lookup k = some o → P o
  batch : ∀ k o, q.batch.lookup k = some o → P o
  hand : ∀ k o, q.pc = .sending k o ∨ q.pc = .failed k o → P o

variable {P : MirrorObject → Prop}

lemma lookup_insert_cases {l : AList (fun _ : Key => MirrorObject)} {k k' : Key}
    {o o' : MirrorObject} (h : (l.insert k' o').lookup k = some o) : o = o' ∨ l.lookup k = some o := by
  by_cases hk : k = k'
  · subst hk
    rw [AList.lookup_insert] at h
    exact Or.inl (Option.some.inj h).symm
  · rw [AList.lookup_insert_ne hk] at h
    exact Or.inr h

lemma AllQueued.queueAll {cs : List PutCall} (h : AllQueued P q)
    (hcs : ∀ c ∈ cs, ∀ n, P { body := c.body, contentType := c.contentType, nth := n }) :
    AllQueued P (q.queueAll cs) := by
  induction cs generalizing q with
  | nil => exact h
  | cons c cs ih =>
      refine ih ⟨fun k o ho => ?_, h.batch, h.hand⟩ fun d hd => hcs d (List.mem_cons_of_mem _ hd)
      rcases lookup_insert_cases ho with rfl | ho
      · exact hcs c List.mem_cons_self _
      · exact h.pending k o ho

lemma AllQueued.startAt (h : AllQueued P q) (a : CueAction) : AllQueued P (q.startAt a) := by
  unfold MirrorObjects.startAt
  split
  · exact ⟨h.pending, h.batch, fun k o ho => absurd ho (by simp [MirrorObjects.start])⟩
  · exact h

/-- A step of the loop sends an object it held. -/
lemma AllQueued.loop {s t : MirrorObjects × Store} {a : MirrorAction} (h : AllQueued P s.1)
    (ha : ∀ k b ct, a ≠ .putBytes k b ct) (ht : MirrorObjects.step s a = some t) :
    AllQueued P t.1 ∧ ∀ k, t.2 k = s.2 k ∨ ∃ o, P o ∧ t.2 k = some o.body := by
  cases a with
  | putBytes k b ct => exact absurd rfl (ha k b ct)
  | take k =>
      simp only [MirrorObjects.step] at ht
      split at ht
      · rename_i o hpc hlook
        obtain rfl := Option.some.inj ht
        refine ⟨⟨h.pending, fun k' o' ho' => ?_, fun k' o' ho' => ?_⟩, fun _ => Or.inl rfl⟩
        · by_cases hk : k' = k
          · subst hk
            rw [AList.lookup_erase] at ho'
            exact absurd ho' (by simp)
          · rw [AList.lookup_erase_ne hk] at ho'
            exact h.batch k' o' ho'
        · simp only [LoopPc.sending.injEq, reduceCtorEq, or_false] at ho'
          exact ho'.2 ▸ h.batch k o hlook
      · exact absurd ht (by simp)
  | put ok =>
      simp only [MirrorObjects.step] at ht
      split at ht
      · rename_i k o hpc
        split at ht
        · obtain rfl := Option.some.inj ht
          refine ⟨⟨h.pending, h.batch, by simp⟩, fun k' => ?_⟩
          by_cases hk : k' = k
          · subst hk
            exact Or.inr ⟨o, h.hand k' o (Or.inl hpc), Store.put_self _ _ _⟩
          · exact Or.inl (Store.put_of_ne _ _ hk)
        · obtain rfl := Option.some.inj ht
          refine ⟨⟨h.pending, h.batch, fun k' o' ho' => ?_⟩, fun _ => Or.inl rfl⟩
          simp only [LoopPc.failed.injEq, reduceCtorEq, false_or] at ho'
          exact ho'.2 ▸ h.hand k o (Or.inl hpc)
      · exact absurd ht (by simp)
  | putBack =>
      simp only [MirrorObjects.step] at ht
      split at ht
      · rename_i k o hpc
        obtain rfl := Option.some.inj ht
        refine ⟨⟨fun k' o' ho' => ?_, h.batch, by simp⟩, fun _ => Or.inl rfl⟩
        dsimp only at ho'
        split at ho'
        · rcases lookup_insert_cases ho' with rfl | ho'
          · exact h.hand k o' (Or.inr hpc)
          · exact h.pending k' o' ho'
        · exact h.pending k' o' ho'
      · exact absurd ht (by simp)
  | swap =>
      simp only [MirrorObjects.step] at ht
      split at ht
      · obtain rfl := Option.some.inj ht
        exact ⟨⟨by simp, h.pending, by simp⟩, fun _ => Or.inl rfl⟩
      · exact absurd ht (by simp)
  | look =>
      simp only [MirrorObjects.step] at ht
      split at ht
      · obtain rfl := Option.some.inj ht
        refine ⟨⟨h.pending, h.batch, fun k o ho => ?_⟩, fun _ => Or.inl rfl⟩
        dsimp only at ho
        split at ho <;> exact absurd ho (by simp)
      · exact absurd ht (by simp)
  | stop =>
      obtain rfl := Option.some.inj ht
      exact ⟨⟨h.pending, h.batch, h.hand⟩, fun _ => Or.inl rfl⟩
  | _ =>
      -- the loop moves on with nothing in hand
      simp only [MirrorObjects.step] at ht
      split at ht
      · obtain rfl := Option.some.inj ht
        exact ⟨⟨h.pending, h.batch, by simp [MirrorObjects.start]⟩, fun _ => Or.inl rfl⟩
      · exact absurd ht (by simp)

/-- Nothing a session has built so far says that the event has ended. -/
structure LiveYet (p : Proc) : Prop where
  beats : BeatsLive p
  manifest : p.core.manifest.status = .live
  pending : ∀ mf ∈ p.core.pending, mf.status = .live
  inFlight : ∀ mf ∈ p.core.inFlight, mf.status = .live

/-- Until `end` drains, a session builds nothing that does. -/
lemma LiveYet.of_plan {p p' : Proc} {w : World} {a : Action} {e : Effect} (h : LiveYet p)
    (hc : Calm p) (hk : ∀ seg n, p.up.pc = .sending seg n → seg.key = .segment ev.id seg.seq)
    (he : p.plan ev w a = some e) (hp' : e.machine = .up p') (hrank : p'.phase.rank ≤ 2) :
    LiveYet p' := by
  obtain ⟨r, hr, hf⟩ := plan_forward he
  obtain rfl := Machine.up.inj (hp'.symm.trans hr)
  obtain ⟨r, hr, -, -, mv⟩ := plan_moves hc hk he
  obtain rfl := Machine.up.inj (hp'.symm.trans hr)
  have hnot : ∀ now, a ≠ .queueEnded now := by
    rintro now rfl
    have hle : p.phase.rank ≤ 2 := hf.rank_le.trans hrank
    simp only [Proc.plan] at he
    split at he
    · rename_i hphase
      rw [hphase] at hle
      exact absurd hle (by decide)
    · exact absurd he (by simp)
  have hmanifest : p'.core.manifest.status = .live := (mv.status_eq hnot).trans h.manifest
  obtain ⟨hpending, hflight⟩ := mv.queued h.pending h.inFlight hmanifest
  exact ⟨hf.beats h.beats, hmanifest, hpending, hflight⟩

/-- So what it writes does not either. -/
lemma LiveYet.putCalls {p : Proc} {a : Action} (h : LiveYet p) (hrank : p.phase.rank ≤ 2)
    {call : PutCall} (hcall : call ∈ p.putCalls ev a) : call.body.saysEnded = false := by
  cases a with
  | publishLive ok now =>
      simp only [Proc.putCalls] at hcall
      split at hcall
      · obtain rfl := List.mem_singleton.mp hcall
        rfl
      · exact absurd hcall (by simp)
  | putHeartbeat ok =>
      obtain ⟨lp, hlp, rfl⟩ := List.mem_map.mp hcall
      simp [putJson, Object.saysEnded, h.beats.beat lp (Option.mem_toList.mp hlp)]
  | publishEnded ok now =>
      simp only [Proc.putCalls] at hcall
      split at hcall
      · rename_i hphase
        rw [hphase] at hrank
        exact absurd hrank (by decide)
      · exact absurd hcall (by simp)
  | putBeat ok =>
      simp only [Proc.putCalls] at hcall
      split at hcall
      · rename_i seg lp hpc
        split at hcall
        · exact absurd hcall (by simp)
        · obtain rfl := List.mem_singleton.mp hcall
          simp [putJson, Object.saysEnded, h.beats.listed seg lp hpc]
      · exact absurd hcall (by simp)
  | putManifest ok =>
      obtain ⟨mf, hmf, rfl⟩ := List.mem_map.mp hcall
      have hmem : mf.1 ∈ p.core.inFlight := Option.mem_map_of_mem _ (Option.mem_toList.mp hmf)
      simp [putJson, Object.saysEnded, h.inFlight _ hmem]
  | _ => exact absurd hcall (by simp [Proc.putCalls])

lemma liveYet_begun (ev : Event) (cfg : SessionConfig) (args : StartArgs) (c : Continuing)
    (q : SpoolQueue) (next : ℕ) (now : ℤ) : LiveYet (begunProc ev cfg args c q next now) where
  beats := beatsLive_begun ev cfg args c q next now
  manifest := rfl
  pending _ hmf := Option.some.inj hmf ▸ rfl
  inFlight _ hmf := absurd hmf (by simp [begunProc, Proc.core, Proc.queueManifest])

lemma beginCalls_saysEnded {cfg : SessionConfig} {args : StartArgs} {c : Continuing} {e : EventInfo}
    {puts : BeginPuts} {call : PutCall} (h : call ∈ beginCalls ev cfg args c e puts) :
    call.body.saysEnded = false := by
  simp only [beginCalls] at h
  repeat' split at h
  all_goals simp only [List.mem_cons, List.not_mem_nil, or_false] at h
  all_goals rcases h with rfl | rfl | rfl <;> rfl

/-- The second bucket has heard of no end, and until `end` drains nothing that
tells of one is built or queued. -/
structure Untold (m : Mirrored) : Prop where
  second : ∀ k o, k.isSegment = false → m.cued.world.second k = some o → o.saysEnded = false
  live : ∀ p, m.cued.world.machine = .up p → p.phase.rank ≤ 2 →
    LiveYet p ∧ AllQueued (fun o => o.body.saysEnded = false) m.objects

lemma Untold.loop {p : Proc} {a : MirrorAction} {s : MirrorObjects × Store} (h : Untold m)
    (hu : Uncopied m) (hm : m.cued.world.machine = .up p)
    (hmay : loopMay p m.cued.world.disk a = true)
    (hs : MirrorObjects.step (m.objects, m.cued.world.second) a = some s) :
    Untold { cued := { m.cued with world := { m.cued.world with second := s.2 } }
             objects := s.1 } := by
  obtain ⟨hlive, hall⟩ := h.live p hm (hu.onAir hm hmay hs).le
  obtain ⟨hall', hsent⟩ := hall.loop (loopMay_ne_putBytes hmay) hs
  refine ⟨fun k o hk ho => ?_, fun p' hp' _ => ?_⟩
  · rcases hsent k with heq | ⟨o', hP, ho'⟩
    · exact h.second k o hk (heq.symm.trans ho)
    · obtain rfl := Option.some.inj (ho'.symm.trans ho)
      exact hP
  · obtain rfl := Machine.up.inj (hm.symm.trans hp')
    exact ⟨hlive, hall'⟩

/-- A step that leaves a session on air: what it writes says nothing of an end. -/
lemma queued_untold {p : Proc} {a : CueAction} {c : Cued} (hp : c.world.machine = .up p)
    (hlive : LiveYet p) (hall : AllQueued (fun o => o.body.saysEnded = false) m.objects)
    (hcalls : ∀ call ∈ m.cued.putCalls ev a, call.body.saysEnded = false) :
    LiveYet p ∧ AllQueued (fun o => o.body.saysEnded = false) (m.objectsAfter ev a c) := by
  refine ⟨hlive, ?_⟩
  rw [Mirrored.objectsAfter, hp]
  dsimp only
  split
  · exact (hall.queueAll fun call hcall _ => hcalls call hcall).startAt a
  · exact hall

lemma Untold.site {a : CueAction} {c : Cued} (hs : Sound ev m.cued.world) (hu : Uncopied m)
    (h : Untold m) (hc : m.cued.step ev a = some c) :
    Untold { cued := c, objects := m.objectsAfter ev a c } := by
  cases a with
  | session a =>
      obtain ⟨w, hw, rfl⟩ := Option.map_eq_some_iff.mp hc
      rcases step_cases hw with ⟨-, -, rfl⟩ | ⟨s, b, rfl, -, rfl⟩ | ⟨a', n, e, -, -, -, rfl⟩ |
        ⟨e, he, rfl⟩
      · refine ⟨fun k o hk ho => h.second k o hk ?_, fun p hp => ?_⟩
        · rwa [Cued.world_after] at ho
        · rw [Cued.world_after] at hp
          exact absurd hp (by simp)
      · refine ⟨fun k o hk ho => h.second k o hk ?_, fun p hp hr => ?_⟩
        · rwa [Cued.world_after] at ho
        · have hm : m.cued.world.machine = .up p := by rwa [Cued.world_after] at hp
          obtain ⟨hlive, hall⟩ := h.live p hm hr
          refine queued_untold hp hlive hall ?_
          simp [Cued.putCalls, World.putCalls, hm, Proc.putCalls]
      · refine ⟨fun k o hk ho => h.second k o hk ?_, fun p hp => ?_⟩
        · rwa [Cued.world_after] at ho
        · rw [Cued.world_after] at hp
          exact absurd hp (by simp [World.cutAfter])
      · by_cases hup : ∃ p, m.cued.world.machine = .up p
        · obtain ⟨p, hm⟩ := hup
          rw [plan_up hm] at he
          refine ⟨fun k o hk ho => h.second k o hk ?_, fun p' hp' hr => ?_⟩
          · rw [Cued.world_after] at ho
            exact (Proc.second_of_plan (fun t seg => hs.hands p t seg hm) he hk).symm.trans ho
          · have hp'' : e.machine = .up p' := by rwa [Cued.world_after] at hp'
            obtain ⟨r, hr', hf⟩ := plan_forward he
            obtain rfl := Machine.up.inj (hp''.symm.trans hr')
            have hle : p.phase.rank ≤ 2 := hf.rank_le.trans hr
            obtain ⟨hlive, hall⟩ := h.live p hm hle
            have hk : ∀ seg n, p.up.pc = .sending seg n → seg.key = .segment ev.id seg.seq := by
              intro seg n hpc
              exact hs.hands p .primary seg hm (by simp [Proc.core, Core.hand, hpc, UploadPc.segment])
            refine queued_untold hp' (hlive.of_plan (hs.calm p hm) hk he hp'' hr) hall ?_
            intro call hcall
            simp only [Cued.putCalls, World.putCalls, hm] at hcall
            exact hlive.putCalls hle hcall
        · have hdown : ∀ p, m.cued.world.machine ≠ .up p := fun p hp => hup ⟨p, hp⟩
          refine ⟨fun k o hk ho => h.second k o hk ?_, fun p' hp' _ => ?_⟩
          · rw [Cued.world_after] at ho
            exact (second_of_boot hdown he) ▸ ho
          · have hp'' : e.machine = .up p' := by rwa [Cued.world_after] at hp'
            obtain ⟨cfg, args, c, q, next, now, rfl⟩ := begins_of_plan hdown he hp''
            refine queued_untold hp' (liveYet_begun ev cfg args c q next now) ?_ ?_
            · rw [hu.fresh hdown]
              exact ⟨by simp, by simp, by simp⟩
            · intro call hcall
              simp only [Cued.putCalls, World.putCalls] at hcall
              repeat' split at hcall
              all_goals first
                | exact beginCalls_saysEnded hcall
                | exact absurd hcall (by simp)
                | exact absurd ‹_› (hdown _)
  | addMarker args now =>
      simp only [Cued.step] at hc
      split at hc
      · obtain rfl := Option.some.inj hc
        refine ⟨h.second, fun p hp hr => ?_⟩
        obtain ⟨hlive, hall⟩ := h.live p hp hr
        exact queued_untold hp hlive hall (by simp [Cued.putCalls])
      · exact absurd hc (by simp)
  | readMarkers =>
      simp only [Cued.step] at hc
      split at hc
      · obtain rfl := Option.some.inj hc
        refine ⟨h.second, fun p hp hr => ?_⟩
        obtain ⟨hlive, hall⟩ := h.live p hp hr
        exact queued_untold hp hlive hall (by simp [Cued.putCalls])
      · exact absurd hc (by simp)
  | putMarkers ok =>
      have hcalls : ∀ call ∈ m.cued.putCalls ev (.putMarkers ok), call.body.saysEnded = false := by
        intro call hcall
        obtain ⟨l, -, rfl⟩ := List.mem_map.mp hcall
        rfl
      simp only [Cued.step] at hc
      split at hc
      · exact absurd hc (by simp)
      · split at hc
        all_goals
          obtain rfl := Option.some.inj hc
          refine ⟨h.second, fun p hp hr => ?_⟩
          obtain ⟨hlive, hall⟩ := h.live p hp hr
          exact queued_untold hp hlive hall hcalls

/-! ### The result -/

/-- What every run keeps. -/
structure Unheard (ev : Event) (m : Mirrored) : Prop where
  sound : m.cued.Sound ev
  uncopied : Uncopied m
  untold : Untold m

/-- The second bucket is read by no invariant of the session. -/
lemma Cued.Sound.withSecond {c : Cued} (h : c.Sound ev) (st : Store) :
    Cued.Sound ev { c with world := { c.world with second := st } } where
  sound := ⟨h.sound.fresh, h.sound.opened, h.sound.calm, h.sound.sidecars, h.sound.hands⟩
  running := h.running

/-- **One step** keeps it. -/
theorem Unheard.step {a : MirroredAction} (h : Unheard ev m) (ht : m.step ev a = some m') :
    Unheard ev m' := by
  have huncopied := h.uncopied.step h.sound.sound ht
  cases a with
  | loop a =>
      simp only [Mirrored.step] at ht
      split at ht
      · rename_i p hm
        split at ht
        · rename_i hmay
          obtain ⟨s, hs, rfl⟩ := Option.map_eq_some_iff.mp ht
          exact ⟨h.sound.withSecond s.2, huncopied, h.untold.loop h.uncopied hm hmay hs⟩
        · exact absurd ht (by simp)
      · exact absurd ht (by simp)
  | site a =>
      simp only [Mirrored.step] at ht
      split at ht
      · obtain ⟨c, hc, rfl⟩ := Option.map_eq_some_iff.mp ht
        exact ⟨h.sound.step hc, huncopied, h.untold.site h.sound.sound h.uncopied hc⟩
      · exact absurd ht (by simp)

lemma unheard_of_reach (h : Lib.Reach (Mirrored.step ev) Lib.anyStep Mirrored.Fresh m) :
    Unheard ev m := by
  refine Lib.Reach.invariant (I := Unheard ev) ?_ (fun _ _ _ hm _ ht => hm.step ht) h
  rintro m rfl
  refine ⟨Cued.Fresh.sound ev rfl, ⟨.start _, ?_, fun _ => rfl, ?_, ?_⟩, ⟨?_, ?_⟩⟩
  · exact fun k o ho => absurd ho (by simp)
  · exact fun p hp => absurd hp (by simp)
  · exact fun p hp => absurd hp (by simp)
  · exact fun k o _ ho => absurd ho (by simp [Store.empty])
  · exact fun p hp => absurd hp (by simp)

/-- The second bucket takes whatever is sent to it. -/
def secondAnswers : MirroredAction → Bool
  | .loop (.put ok) => ok
  | .site (.session (.putSegment .second r)) => decide (r = .ok)
  | _ => true

/-- **The second bucket never learns the end.**  When `end` has returned, whatever
it returned and whatever the second bucket answered, the pointer it wrote last has
not been sent there, and no document there says that the event has ended. -/
theorem end_not_copied (ev : Event) {m : Mirrored} {p : Proc} {b : Bool}
    (h : Lib.Reach (Mirrored.step ev) Lib.anyStep Mirrored.Fresh m)
    (hm : m.cued.world.machine = .up p) (hmirror : p.cfg.mirror = true)
    (hret : p.phase = .returned b) :
    ¬Copied ev p.cfg.roomId m ∧
      ∀ k ∈ documents ev.id p.cfg.roomId, ∀ o, m.cued.world.second k = some o →
        o.saysEnded = false := by
  have hinv := unheard_of_reach h
  refine ⟨fun hcopied => ?_, fun k hk o ho => hinv.untold.second k o ?_ ho⟩
  · have h9 : 9 ≤ p.phase.rank := by
      rw [hret]
      exact (by decide : 9 ≤ 12)
    obtain ⟨o, ho, hnot⟩ := hinv.uncopied.waits p hm hmirror h9
    exact hnot (hcopied (.live p.cfg.roomId) (by simp [documents]) o ho).1
  · simp only [documents, List.mem_cons, List.not_mem_nil, or_false] at hk
    rcases hk with rfl | rfl | rfl | rfl | rfl <;> rfl

/-- The steps of a session. -/
def ofSession (as : List Action) : List MirroredAction := as.map fun a => .site (.session a)

/-- The loop sends the objects under the keys, one after the other. -/
def sendAll (ks : List Key) : List MirroredAction :=
  [MirroredAction.loop .look, .loop .swap] ++
    ks.flatMap (fun k => [.loop (.take k), .loop (.put true)]) ++
    [MirroredAction.loop .sleep]

/-- `end` runs its course. -/
def endMirrored : List MirroredAction :=
  [MirroredAction.loop .stop, .loop .look] ++
  ofSession [.stopUploaders, .clearError, .queueEnded 5, .dequeueManifest, .putManifest true,
    .flushEnd, .stopPublisher, .joinPublisher, .publishEnded true 6, .markEnded, .removeIfDone,
    .endReturn]

/-- A session with a second bucket that takes everything: one segment goes to both
buckets, the loop sends what is queued, and the session ends. -/
def mirroredEnd : List MirroredAction :=
  ofSession (goLiveMirrored ++ [Action.publishSegment [1] 6 0 1 none] ++ uploadOne ++
    [Action.dequeueManifest, .putManifest true, .peek .second, .mayUpload .second,
      .checkFloor .second, .putSegment .second .ok, .confirm .second 2]) ++
  sendAll [.event sampleEvent.id, .roomEvent "main-auditorium" sampleEvent.id, .init sampleEvent.id,
    .manifest sampleEvent.id, .live "main-auditorium"] ++ endMirrored

theorem end_not_copied_answered : ∃ (m : Mirrored) (p : Proc),
    m.cued.world.machine = .up p ∧ p.cfg.mirror = true ∧ p.phase = .returned true ∧
      ¬Copied sampleEvent p.cfg.roomId m := by
  obtain ⟨m, hm, hup⟩ : ∃ m, Lib.Reach (Mirrored.step sampleEvent) Lib.anyStep Mirrored.Fresh m ∧
      (m.cued.world.upWith fun p _ => p.cfg.mirror && decide (p.phase = .returned true)) = true :=
    Lib.exists_reach {} mirroredEnd rfl (by decide +kernel)
  obtain ⟨p, hp, hboth⟩ := exists_of_upWith hup
  simp only [Bool.and_eq_true, decide_eq_true_eq] at hboth
  exact ⟨m, p, hp, hboth.1, hboth.2, (end_not_copied sampleEvent hm hp hboth.1 hboth.2).1⟩

/-- `end` has returned true and the folder is gone; the first bucket says `ended`,
the second says `live`, and both documents there are not the last ones written. -/
theorem never_told : ∃ m, Lib.Reach (Mirrored.step sampleEvent)
      (fun _ a => secondAnswers a = true) Mirrored.Fresh m ∧
    (m.cued.world.upWith fun p d => decide (p.phase = .returned true) && d.isNone) = true ∧
    (m.cued.world.store.manifest sampleEvent.id).map (·.status) = some .ended ∧
    (m.cued.world.store.live "main-auditorium").map (·.status) = some .ended ∧
    (m.cued.world.second.manifest sampleEvent.id).map (·.status) = some .live ∧
    (m.cued.world.second.live "main-auditorium").map (·.status) = some .live ∧
    (m.objects.newest (.manifest sampleEvent.id)).map (·.body) ≠
      (m.cued.world.second (.manifest sampleEvent.id) : Option Object) ∧
    (m.objects.newest (.live "main-auditorium")).map (·.body) ≠
      (m.cued.world.second (.live "main-auditorium") : Option Object) :=
  Lib.exists_reach_guarded {} mirroredEnd rfl (by decide +kernel)

end Multisite

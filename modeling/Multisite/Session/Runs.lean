import Multisite.Session.Boots
import Multisite.Session.Frames

/-!
Runs of the world, by the moves of the session.

* `Sound`: what every run keeps without further conditions, so that the moves of
  `Moves` and the beginnings of `Boots` are all there is (`sound_of_reach`);
* `Invariant` and `Invariant.reach`: an invariant of whole runs is a predicate
  `D` for the world while no session has begun and a predicate `U` for a
  session's core, with one obligation for each way from one to the next.  A crash
  inside an operation leaves the folder with a prefix of its writes, so the
  obligations for a crash are about cuts.
-/

namespace Multisite

open SpoolQueue (removals)

/-! ### What every run keeps -/

/-- What every run keeps. -/
structure Sound (ev : Event) (w : World) : Prop where
  fresh : w.begun = false →
    w.disk = none ∧ w.hist = {} ∧ w.store = Store.empty ∧ ∀ p, w.machine ≠ .up p
  opened : ∀ cfg q, w.machine = .opened cfg q → Opened w.disk q
  calm : ∀ p, w.machine = .up p → Calm p
  sidecars : ∀ s m, sidecar w.disk s = some m → m.key = .segment ev.id s
  hands : ∀ p t seg, w.machine = .up p → (p.core.hand t).segment = some seg →
    seg.key = .segment ev.id seg.seq

/-- Two folders that differ in the bytes of their segments at most. -/
structure SameFolder (d d' : Option Folder) : Prop where
  isSome : d'.isSome = d.isSome
  hasSeg : ∀ s, HasSeg d' s ↔ HasSeg d s
  sidecar : ∀ s, sidecar d' s = sidecar d s
  recorded : recorded d' = recorded d

lemma World.damaged_same {w : World} {s : ℕ} (b : Bytes) (h : HasSeg w.disk s) :
    SameFolder w.disk (w.damaged s b).disk := by
  rw [World.damaged]
  cases hd : w.disk with
  | none => exact absurd (hd ▸ h) (not_hasSeg_none s)
  | some d =>
      rw [hd] at h
      refine ⟨rfl, fun x => ?_, fun x => rfl, rfl⟩
      rw [Option.map_some, hasSeg_some, hasSeg_some, AList.mem_insert]
      rw [hasSeg_some] at h
      exact ⟨fun hx => hx.elim (fun e => e ▸ h) id, Or.inr⟩

lemma step_cases {ev : Event} {w w' : World} {a : Action} (h : step ev w a = some w') :
    (a = .crash ∧ w.machine ≠ .down ∧ w' = { w with machine := .down }) ∨
      (∃ s b, a = .damage s b ∧ HasSeg w.disk s ∧ w' = w.damaged s b) ∨
      (∃ a' k e, a = .crashIn a' k ∧ w.plan ev a' = some e ∧ e.writes ≠ [] ∧ w' = w.cutAfter e k) ∨
      ∃ e, w.plan ev a = some e ∧ w' = w.after e := by
  cases a with
  | crash =>
      refine Or.inl ⟨rfl, ?_⟩
      simp only [step] at h
      split at h
      · exact absurd h (by simp)
      · rename_i hm
        exact ⟨hm, (Option.some.inj h).symm⟩
  | damage s b =>
      simp only [step] at h
      split at h
      · rename_i hs
        exact Or.inr (Or.inl ⟨s, b, rfl, hs, (Option.some.inj h).symm⟩)
      · exact absurd h (by simp)
  | crashIn a' k =>
      simp only [step, Option.bind_eq_some_iff] at h
      obtain ⟨e, he, h⟩ := h
      split at h
      · exact absurd h (by simp)
      · rename_i hws
        exact Or.inr (Or.inr (Or.inl ⟨a', k, e, rfl, he, hws, (Option.some.inj h).symm⟩))
  | _ =>
      simp only [step, Option.map_eq_some_iff] at h
      obtain ⟨e, he, rfl⟩ := h
      exact Or.inr (Or.inr (Or.inr ⟨e, he, rfl⟩))

lemma plan_up {ev : Event} {w : World} {p : Proc} (hm : w.machine = .up p) (a : Action) :
    w.plan ev a = p.plan ev w a := by
  cases a <;> simp [World.plan, hm, Proc.plan]

/-- The sidecars of a session's folder carry their own keys, wherever it stops. -/
lemma sidecars_applyWrites {ev : Event} {d : Option Folder} {ws : List Write}
    (hd : ∀ s m, sidecar d s = some m → m.key = .segment ev.id s)
    (hws : ∀ s m, .sidecar s m ∈ ws → m.key = .segment ev.id s) (s : ℕ) (m : Sidecar)
    (h : sidecar (applyWrites ws d) s = some m) : m.key = .segment ev.id s := by
  rcases sidecar_applyWrites h with h | h
  · exact hd s m h
  · exact hws s m h

lemma Boots.sidecar_mem {ev : Event} {w : World} {e : Effect} {a : Action} (h : Boots ev w e a)
    (s : ℕ) (m : Sidecar) : .sidecar s m ∉ e.writes := by
  intro hm
  cases h with
  | opens _ _ hws _ _ _ =>
      generalize e.writes = ws at hws hm
      cases hws with
      | nothing _ _ => exact absurd hm (by simp)
      | event _ _ _ _ _ => simp [removals] at hm
  | starts _ _ _ hws _ _ _ _ =>
      rw [hws] at hm
      simp [beginWrites] at hm
  | refused _ hws _ _ _ =>
      rw [hws] at hm
      simp at hm
  | resumes _ hws _ _ _ _ =>
      rw [hws] at hm
      simp at hm

lemma Effect.past_nil (e : Effect) (d : Option Folder) : e.past d [] = e.hist := by
  rw [Effect.past]
  split
  · simp [History.wrote, History.clear]
  · rfl

/-- Before the event, constructing a session finds nothing to do. -/
lemma Boots.of_fresh {ev : Event} {w : World} {e : Effect} {a : Action} (h : Boots ev w e a)
    (hd : w.disk = none) (hb : e.begun = false) :
    e.writes = [] ∧ e.hist = w.hist ∧ e.store = w.store ∧ ∀ p, e.machine ≠ .up p := by
  cases h with
  | opens _ hq hws hst hh _ =>
      refine ⟨?_, hh, hst, by simp [hq]⟩
      generalize e.writes = ws at hws
      cases hws with
      | nothing _ _ => rfl
      | event hd' _ _ _ _ => exact absurd hd' (by simp [hd])
  | starts _ _ _ _ _ _ hb' _ => exact absurd hb (by simp [hb'])
  | refused hmach hws hst hh _ =>
      refine ⟨hws, ?_, hst, by simp [hmach]⟩
      have := congrFun hh []
      rwa [Effect.past_nil] at this
  | resumes hr _ _ _ _ _ => exact absurd hr.disk (by simp [hd])

/-- A session that has just begun rests. -/
lemma Boots.up {ev : Event} {w : World} {e : Effect} {a : Action} (h : Boots ev w e a) {p : Proc}
    (hp : e.machine = .up p) : Calm p ∧ ∃ q n m, p.core = Core.begun q n m := by
  cases h with
  | opens _ hq _ _ _ _ => exact absurd hp (by simp [hq])
  | starts _ _ _ _ _ _ _ hmach =>
      rcases hmach with h | ⟨p', m, h, hc, -, hcore⟩
      · exact absurd hp (by simp [h])
      · obtain rfl := Machine.up.inj (h.symm.trans hp)
        exact ⟨hc, _, _, _, hcore⟩
  | refused hmach _ _ _ _ => exact absurd hp (by simp [hmach])
  | resumes _ _ _ _ _ hmach =>
      rcases hmach with h | ⟨p', m, h, hc, -, hcore⟩
      · exact absurd hp (by simp [h])
      · obtain rfl := Machine.up.inj (h.symm.trans hp)
        exact ⟨hc, _, _, _, hcore⟩

/-- The effect of an action, from a sound world: a move of the session, or its
construction or beginning. -/
lemma Sound.plan {ev : Event} {w : World} {a : Action} {e : Effect} (hs : Sound ev w)
    (h : w.plan ev a = some e) :
    (∃ p, w.machine = .up p ∧ Moves ev w p a e) ∨ (∀ p, w.machine ≠ .up p) ∧ Boots ev w e a := by
  by_cases hup : ∃ p, w.machine = .up p
  · obtain ⟨p, hm⟩ := hup
    refine Or.inl ⟨p, hm, plan_moves (hs.calm p hm) (fun seg n hpc => ?_) (plan_up hm a ▸ h)⟩
    exact hs.hands p .primary seg hm (by rw [Core.hand, Proc.core, hpc]; rfl)
  · have hup' : ∀ p, w.machine ≠ .up p := fun p hp => hup ⟨p, hp⟩
    exact Or.inr ⟨hup', plan_boots hup' hs.opened h⟩

/-- A world without a process is sound as soon as its folder and bucket are. -/
lemma Sound.down {ev : Event} {w : World} (hm : w.machine = .down)
    (hfresh : w.begun = false → w.disk = none ∧ w.hist = {} ∧ w.store = Store.empty)
    (hside : ∀ s m, sidecar w.disk s = some m → m.key = .segment ev.id s) : Sound ev w where
  fresh hb := ⟨(hfresh hb).1, (hfresh hb).2.1, (hfresh hb).2.2, by simp [hm]⟩
  opened cfg q hq := absurd hq (by simp [hm])
  calm p hp := absurd hp (by simp [hm])
  sidecars := hside
  hands p t seg hp := absurd hp (by simp [hm])

/-- **Every step keeps the world sound.** -/
theorem Sound.step {ev : Event} {w w' : World} {a : Action} (hs : Sound ev w)
    (h : step ev w a = some w') : Sound ev w' := by
  rcases step_cases h with ⟨-, -, rfl⟩ | ⟨s, b, -, hseg, rfl⟩ | ⟨a', k, e, -, he, -, rfl⟩ |
    ⟨e, he, rfl⟩
  · exact .down rfl (fun hb => ⟨(hs.fresh hb).1, (hs.fresh hb).2.1, (hs.fresh hb).2.2.1⟩)
      hs.sidecars
  · have hsame := World.damaged_same b hseg
    refine ⟨fun hb => ?_, fun cfg q hm => ?_, hs.calm, fun s m hm => ?_, hs.hands⟩
    · exact absurd ((hs.fresh hb).1 ▸ hseg) (not_hasSeg_none s)
    · have := hs.opened cfg q hm
      rwa [Opened, ← hsame.isSome, ← hsame.recorded] at this
    · exact hs.sidecars s m (hsame.sidecar s ▸ hm)
  · rcases hs.plan he with ⟨p, hm, p', hm', hb, hc, mv⟩ | ⟨hup, hboot⟩
    · refine .down rfl (fun hb' => ?_) ?_
      · rw [World.cutAfter, hb, Bool.false_or] at hb'
        exact absurd hm ((hs.fresh hb').2.2.2 p)
      · exact sidecars_applyWrites hs.sidecars fun s m hm =>
          (mv.sidecar_mem (List.mem_of_mem_take hm)).2.1
    · refine .down rfl (fun hb => ?_) ?_
      · simp only [World.cutAfter, Bool.or_eq_false_iff] at hb
        obtain ⟨hd, hh, hst, -⟩ := hs.fresh hb.2
        obtain ⟨hws, hh', -, -⟩ := hboot.of_fresh hd hb.1
        refine ⟨?_, ?_, hst⟩
        · rw [World.cutAfter, hws]
          simpa [cutWrites, Lib.cut] using hd
        · simp only [World.cutAfter, hws, List.take_nil, Effect.past_nil, hh', hh]
      · exact sidecars_applyWrites hs.sidecars fun s m hm =>
          absurd (List.mem_of_mem_take hm) (hboot.sidecar_mem s m)
  · rcases hs.plan he with ⟨p, hm, p', hm', hb, hc, mv⟩ | ⟨hup, hboot⟩
    · refine ⟨fun hb' => ?_, fun cfg q hq => ?_, fun q hq => ?_, ?_, fun q t seg hq hseg => ?_⟩
      · simp only [World.after, hb, Bool.false_or] at hb'
        exact absurd hm ((hs.fresh hb').2.2.2 p)
      · rw [World.after, hm'] at hq
        exact absurd hq (by simp)
      · simp only [World.after, hm', Machine.up.injEq] at hq
        exact hq ▸ hc
      · exact sidecars_applyWrites hs.sidecars fun s m hm => (mv.sidecar_mem hm).2.1
      · simp only [World.after, hm', Machine.up.injEq] at hq
        subst hq
        rcases mv.hand hseg with hold | hpeek
        · exact hs.hands p t seg hm hold
        · obtain ⟨m, hm1, -, hm2⟩ := hpeek.sidecar
          rw [hm2]
          exact hs.sidecars seg.seq m hm1
    · refine ⟨fun hb => ?_, fun cfg q hq => ?_, fun q hq => ?_, ?_, fun q t seg hq hseg => ?_⟩
      · simp only [World.after, Bool.or_eq_false_iff] at hb
        obtain ⟨hd, hh, hst, -⟩ := hs.fresh hb.2
        obtain ⟨hws, hh', hst', hup'⟩ := hboot.of_fresh hd hb.1
        refine ⟨?_, ?_, hst'.trans hst, hup'⟩
        · rw [World.after, hws]
          exact hd
        · simp only [World.after, hws, Effect.past_nil, hh', hh]
      · cases hboot with
        | opens _ hq' hws _ _ _ =>
            simp only [World.after, hq', Machine.opened.injEq] at hq ⊢
            exact hq.2 ▸ hws.opened
        | starts _ _ _ _ _ _ _ hmach =>
            rcases hmach with h | ⟨p, m, h, -⟩ <;> simp [World.after, h] at hq
        | refused hmach _ _ _ _ => simp [World.after, hmach] at hq
        | resumes _ _ _ _ _ hmach =>
            rcases hmach with h | ⟨p, m, h, -⟩ <;> simp [World.after, h] at hq
      · exact (hboot.up hq).1
      · exact sidecars_applyWrites hs.sidecars fun s m hm => absurd hm (hboot.sidecar_mem s m)
      · obtain ⟨q', n, m, hcore⟩ := (hboot.up hq).2
        rw [hcore] at hseg
        cases t <;> exact absurd hseg (by simp [Core.begun, Core.hand, UploadPc.segment])

lemma sound_fresh (ev : Event) {w : World} (h : Fresh w) : Sound ev w := by
  subst h
  exact .down rfl (fun _ => ⟨rfl, rfl, rfl⟩) fun s m hm => absurd hm (by simp)

/-- Every reached world is sound. -/
theorem sound_of_reach {ev : Event} {cond : World → Action → Prop} {w : World}
    (h : Lib.Reach (step ev) cond Fresh w) : Sound ev w :=
  Lib.Reach.invariant (I := Sound ev) (fun _ h0 => sound_fresh ev h0)
    (fun _ _ _ hs _ ht => hs.step ht) h

/-- The worlds that runs reach. -/
abbrev Reached (ev : Event) : World → Prop := Lib.Reach (step ev) Lib.anyStep Fresh

/-- The worlds reached by runs whose steps all pass `ok`. -/
abbrev ReachedBy (ev : Event) (ok : World → Action → Bool) : World → Prop :=
  Lib.Reach (step ev) (fun w a => ok w a = true) Fresh

/-- An event for runs on fixed inputs, with the SHA-256 of the segments they
use. -/
def sampleEvent : Event where
  id := "01JB8K2Q4S"
  sha256Hex b :=
    if b = [1] then "4bf5122f344554c53bde2ebb8cd2b7e3d1600ad631c385a5d7cce23c7785459a"
    else if b = [2] then "dbc1b4c900ffe48d575b5da5c638040125f65db0fe3e24494b76ea986457d986"
    else if b = [3] then "084fed08b978af4d7d196a7446a86b58009e636b611db16211b65a9aadff29c5"
    else "other"
  sha256Hex_ne b := by
    split
    · decide
    · split
      · decide
      · split <;> decide

/-- A world in which a session is up and has `P`. -/
def World.upWith (P : Proc → Option Folder → Bool) (w : World) : Bool :=
  match w.machine with
  | .up p => P p w.disk
  | _ => false

lemma exists_of_upWith {P : Proc → Option Folder → Bool} {w : World} (h : w.upWith P = true) :
    ∃ p, w.machine = .up p ∧ P p w.disk = true := by
  rw [World.upWith] at h
  split at h
  · rename_i p hm
    exact ⟨p, hm, h⟩
  · exact absurd h (by simp)

/-- Going on air: the session is constructed and begun, the first manifest and
`live.json` are stored. -/
def goLive : List Action :=
  [.openSession {}, .startNew {} {} 0, .dequeueManifest, .putManifest true, .flushBegin,
    .publishLive true 0]

/-- A session with a second bucket goes on air. -/
def goLiveMirrored : List Action :=
  [.openSession { mirror := true }, .startNew {} {} 0, .dequeueManifest, .putManifest true,
    .flushBegin, .publishLive true 0]

/-- The primary uploads the lowest segment, lists it and clears it. -/
def uploadOne : List Action :=
  [.peek .primary, .mayUpload .primary, .checkFloor .primary, .putSegment .primary .ok,
    .onConfirmed 1, .confirm .primary 1]

/-! ### Invariants of runs -/

/-- The invariant made of `D` while there is no session and of `U` for a
session's core. -/
def Holds (ev : Event) (D : Option Folder → Media → History → Prop)
    (U : Option Folder → Media → History → Core → Prop) (w : World) : Prop :=
  match w.machine with
  | .up p => U w.disk (w.store.media ev) w.hist p.core
  | _ => D w.disk (w.store.media ev) w.hist

/-- What has to be shown of an invariant: that it holds at first, and one
obligation for each way a run goes on.  `B` is what is already known of every
world reached. -/
structure Invariant (ev : Event) (cond : World → Action → Prop) (B : World → Prop)
    (D : Option Folder → Media → History → Prop)
    (U : Option Folder → Media → History → Core → Prop) : Prop where
  init : D none (Store.empty.media ev) {}
  same : ∀ {d d' md h}, SameFolder d d' → D d md h → D d' md h
  sameUp : ∀ {d d' md h c}, SameFolder d d' → U d md h c → U d' md h c
  opens : ∀ {d md h q ws h'} k, D d md h → Opens d q ws → Follows h (ws.take k) h' →
    D (cutWrites k ws d) md h'
  starts : ∀ {q} k, Begun ev q → D (cutWrites k (beginWrites q.state) none) (Store.empty.media ev) {}
  startsUp : ∀ {q m}, Begun ev q → Seeds ev none m →
    U (applyWrites (beginWrites q.state) none) (Store.empty.media ev) {} (Core.begun q ev.firstSeq m)
  resumes : ∀ {d md h r} k, D d md h → Resumed d r → D (cutWrites k [.state r.state] d) md h
  resumesUp : ∀ {w args reads puts now r m}, B w → cond w (.resume args reads puts now) →
    D w.disk (w.store.media ev) w.hist → Resumed w.disk r →
    Seeds ev (continued ev (w.store.manifest ev.id) reads) m →
    U (applyWrites [.state r.state] w.disk) (w.store.media ev) w.hist
      (Core.begun r ((recorded w.disk).lastEnqueued + 1) m)
  moves : ∀ {w p a c md h ws h'}, B w → w.machine = .up p → cond w a →
    U w.disk (w.store.media ev) w.hist p.core →
    Move ev w.disk (w.store.media ev) w.hist p.core a c md h ws → Follows h ws h' →
    U (applyWrites ws w.disk) md h' c
  crash : ∀ {w p}, B w → w.machine = .up p → cond w .crash →
    U w.disk (w.store.media ev) w.hist p.core → D w.disk (w.store.media ev) w.hist
  cuts : ∀ {w p a k e c md h h'}, B w → w.machine = .up p → cond w (.crashIn a k) →
    w.plan ev a = some e → e.writes ≠ [] → U w.disk (w.store.media ev) w.hist p.core →
    Move ev w.disk (w.store.media ev) w.hist p.core a c md h e.writes →
    Follows h (e.writes.take k) h' → D (cutWrites k e.writes w.disk) (w.store.media ev) h'

section Rule

variable {ev : Event} {cond : World → Action → Prop} {B : World → Prop}
  {D : Option Folder → Media → History → Prop} {U : Option Folder → Media → History → Core → Prop}

lemma Holds.of_up {w : World} {p : Proc} (hm : w.machine = .up p) :
    Holds ev D U w ↔ U w.disk (w.store.media ev) w.hist p.core := by
  rw [Holds, hm]

lemma Holds.of_not_up {w : World} (hm : ∀ p, w.machine ≠ .up p) :
    Holds ev D U w ↔ D w.disk (w.store.media ev) w.hist := by
  rw [Holds]
  split
  · rename_i p hp
    exact absurd hp (hm p)
  · rfl

lemma wrote_beginWrites (h : History) (st : SpoolState) (k : ℕ) :
    h.wrote ((beginWrites st).take k) = h := by
  refine History.wrote_of_addsFile fun x hx => ?_
  have := List.mem_of_mem_take hx
  simp only [beginWrites, List.mem_cons, List.not_mem_nil, or_false] at this
  rcases this with rfl | rfl | rfl <;> rfl

lemma wrote_state (h : History) (st : SpoolState) (k : ℕ) :
    h.wrote ([Write.state st].take k) = h := by
  refine History.wrote_of_addsFile fun x hx => ?_
  rw [List.mem_singleton.mp (List.mem_of_mem_take hx)]
  rfl

/-- A crash inside an action that constructs or begins a session. -/
lemma Invariant.boots_cut (I : Invariant ev cond B D U) {w : World} (hs : Sound ev w)
    (hD : D w.disk (w.store.media ev) w.hist) {a : Action} {e : Effect} (hb : Boots ev w e a)
    (k : ℕ) : D (cutWrites k e.writes w.disk) (w.store.media ev) (e.past w.disk (e.writes.take k)) := by
  cases hb with
  | opens _ _ hws _ hh _ => exact I.opens k hD hws (hh ▸ e.past_follows w.disk _)
  | starts _ hnew hq hws _ hh _ _ =>
      obtain ⟨hd, hhist, hst, -⟩ := hs.fresh hnew
      rw [hh, hws, wrote_beginWrites, hd, hst, hhist]
      exact I.starts k hq
  | refused _ hws _ hh _ =>
      rw [hh, hws]
      simpa [cutWrites, Lib.cut, History.wrote] using hD
  | resumes hr hws _ hh _ _ =>
      rw [hh, hws, wrote_state]
      exact I.resumes k hD hr

/-- An action that constructs or begins a session, complete. -/
lemma Invariant.boots (I : Invariant ev cond B D U) {w : World} (hs : Sound ev w) (hB : B w)
    (hD : D w.disk (w.store.media ev) w.hist) {a : Action} (hc : cond w a) {e : Effect}
    (hb : Boots ev w e a) : Holds ev D U (w.after e) := by
  -- the complete operation is the cut after its last write
  have hcut := I.boots_cut hs hD hb e.writes.length
  rw [cutWrites, Lib.cut_of_length_le _ le_rfl, List.take_length] at hcut
  cases hb with
  | opens _ hq _ hst _ _ =>
      refine (Holds.of_not_up (by simp [World.after, hq])).mpr ?_
      simpa only [World.after, hst] using hcut
  | starts _ hnew hq hws hst hh _ hmach =>
      rcases hmach with hdown | ⟨p, m, hup, -, hseed, hcore⟩
      · refine (Holds.of_not_up (by simp [World.after, hdown])).mpr ?_
        simpa only [World.after, hst] using hcut
      · refine (Holds.of_up hup).mpr ?_
        obtain ⟨hd, hhist, hst', -⟩ := hs.fresh hnew
        simp only [World.after, hst, hws, hh]
        rw [hd, hst', hhist, hcore]
        exact I.startsUp hq hseed
  | refused hdown _ hst _ _ =>
      refine (Holds.of_not_up (by simp [World.after, hdown])).mpr ?_
      simpa only [World.after, hst] using hcut
  | resumes hr hws hst hh _ hmach =>
      rcases hmach with hdown | ⟨p, m, hup, -, hseed, hcore⟩
      · refine (Holds.of_not_up (by simp [World.after, hdown])).mpr ?_
        simpa only [World.after, hst] using hcut
      · refine (Holds.of_up hup).mpr ?_
        simp only [World.after, hst, hws, hh, hcore]
        exact I.resumesUp hB hc hD hr hseed

/-- **The rule**: an invariant that meets its obligations holds in every world
reached. -/
theorem Invariant.reach (I : Invariant ev cond B D U)
    (hB : ∀ {w}, Lib.Reach (step ev) cond Fresh w → B w) {w : World}
    (h : Lib.Reach (step ev) cond Fresh w) : Holds ev D U w := by
  refine Lib.Reach.invariant₂ (I := Holds ev D U) (J := fun w => Sound ev w ∧ B w)
    (fun h => ⟨sound_of_reach h, hB h⟩) ?_ ?_ h
  · rintro w rfl
    exact I.init
  · rintro w a w' ⟨hs, hBw⟩ hw hc ht
    rcases step_cases ht with ⟨rfl, hm, rfl⟩ | ⟨s, b, rfl, hseg, rfl⟩ | ⟨a', k, e, rfl, he, hws, rfl⟩ |
      ⟨e, he, rfl⟩
    · refine (Holds.of_not_up (by simp)).mpr ?_
      by_cases hup : ∃ p, w.machine = .up p
      · obtain ⟨p, hp⟩ := hup
        exact I.crash (w := w) hBw hp hc ((Holds.of_up hp).mp hw)
      · exact (Holds.of_not_up fun p hp => hup ⟨p, hp⟩).mp hw
    · have hsame := World.damaged_same b hseg
      by_cases hup : ∃ p, w.machine = .up p
      · obtain ⟨p, hp⟩ := hup
        exact (Holds.of_up (w := w.damaged s b) hp).mpr (I.sameUp hsame ((Holds.of_up hp).mp hw))
      · have hup' : ∀ p, w.machine ≠ .up p := fun p hp => hup ⟨p, hp⟩
        exact (Holds.of_not_up (w := w.damaged s b) hup').mpr
          (I.same hsame ((Holds.of_not_up hup').mp hw))
    · refine (Holds.of_not_up (by simp [World.cutAfter])).mpr ?_
      rcases hs.plan he with ⟨p, hm, p', hm', hb, hcalm, mv⟩ | ⟨hup, hboot⟩
      · exact I.cuts hBw hm hc he hws ((Holds.of_up hm).mp hw) mv (e.past_follows w.disk _)
      · exact I.boots_cut hs ((Holds.of_not_up hup).mp hw) hboot k
    · rcases hs.plan he with ⟨p, hm, p', hm', hb, hcalm, mv⟩ | ⟨hup, hboot⟩
      · refine (Holds.of_up (w := w.after e) hm').mpr ?_
        exact I.moves hBw hm hc ((Holds.of_up hm).mp hw) mv (e.past_follows w.disk _)
      · exact I.boots hs hBw ((Holds.of_not_up hup).mp hw) hc hboot

end Rule

end Multisite

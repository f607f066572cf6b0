import Multisite.Session.Runs

/-!
What `Session::end` returns, and what the bucket says then.

`end` infers success from an empty `last_error`.  The wait in `flush_manifest`
is bounded and its answer is not used, and stopping the publisher drops a
manifest that is still queued; and `heartbeat` sends `live` whenever it is
called.

* `end_untrue`: a run in which the wait is over while the publisher is still in an
  earlier PUT, and `end` returns true with the stored manifest still `live`;
* `end_true`: with the publisher stopped only once it has taken the last manifest,
  and no `heartbeat` after the `ended` pointer, a return of true is the truth.
-/

namespace Multisite

/-- The bucket says that the event is over: its manifest, and the room's
pointer. -/
def SaysEnded (ev : Event) (room : String) (st : Store) : Prop :=
  (∃ m, st.manifest ev.id = some m ∧ m.status = .ended) ∧
    ∃ lp, st.live room = some lp ∧ lp.status = .ended ∧ lp.eventId = ev.id

/-- What `end` returning true promises. -/
def EndTrue (ev : Event) (w : World) : Prop :=
  ∀ p, w.machine = .up p → p.phase = .returned true → SaysEnded ev p.cfg.roomId w.store

/-- The steps of an ending in order: the publisher is stopped with nothing
queued, and no `heartbeat` is sent after the `ended` pointer. -/
def endsInOrder (w : World) (a : Action) : Bool :=
  match w.machine, a with
  | .up p, .stopPublisher => p.pub.pending.isNone
  | .up p, .putHeartbeat _ => decide (p.phase.rank < 9)
  | _, _ => true

/-! ### The invariant -/

/-- The manifest that says `ended` is queued, under way, or stored. -/
inductive Handed (ev : Event) (st : Store) (pub : Publisher) : Prop
  | queued (m : Manifest) (hp : pub.pending = some m) (hm : m.status = .ended)
  | sent (m : Manifest) (g : ℕ) (hp : pub.pending = none) (hf : pub.inFlight = some (m, g))
      (hm : m.status = .ended)
  | stored (m : Manifest) (hp : pub.pending = none) (hf : pub.inFlight = none)
      (hs : st.manifest ev.id = some m) (hm : m.status = .ended)

lemma Handed.same {ev : Event} {st st' : Store} {pub pub' : Publisher} (h : Handed ev st pub)
    (hp : pub'.pending = pub.pending) (hf : pub'.inFlight = pub.inFlight)
    (hs : st'.manifest ev.id = st.manifest ev.id) : Handed ev st' pub' := by
  rcases h with ⟨m, h1, hm⟩ | ⟨m, g, h1, h2, hm⟩ | ⟨m, h1, h2, h3, hm⟩
  · exact .queued m (hp.trans h1) hm
  · exact .sent m g (hp.trans h1) (hf.trans h2) hm
  · exact .stored m (hp.trans h1) (hf.trans h2) (hs.trans h3) hm

/-- What an ending session keeps, as long as no error is recorded. -/
structure Ends (ev : Event) (st : Store) (p : Proc) : Prop where
  handed : 5 ≤ p.phase.rank → p.lastError = none → Handed ev st p.pub
  joining : 7 ≤ p.phase.rank → p.pub.pending = none
  joined : 8 ≤ p.phase.rank → p.pub.inFlight = none
  live : 9 ≤ p.phase.rank → p.lastError = none →
    ∃ lp, st.live p.cfg.roomId = some lp ∧ lp.status = .ended ∧ lp.eventId = ev.id
  returned : p.phase = .returned true → p.lastError = none

namespace Ends

variable {ev : Event} {w : World} {st st' : Store} {p p' : Proc} {a : Action} {e : Effect}

/-- Before the last manifest is queued there is nothing to keep. -/
lemma of_rank (h : p.phase.rank < 5) : Ends ev st p where
  handed h5 := absurd h5 (by omega)
  joining h7 := absurd h7 (by omega)
  joined h8 := absurd h8 (by omega)
  live h9 := absurd h9 (by omega)
  returned hr := absurd h (by simp [hr, Phase.rank])

/-- A step that leaves all of this alone. -/
lemma same (h : Ends ev st p) (hphase : p'.phase = p.phase) (hpub : p'.pub = p.pub)
    (herr : p'.lastError = p.lastError) (hcfg : p'.cfg = p.cfg) : Ends ev st p' := by
  constructor
  · rw [hphase, hpub, herr]
    exact h.handed
  · rw [hphase, hpub]
    exact h.joining
  · rw [hphase, hpub]
    exact h.joined
  · rw [hphase, herr, hcfg]
    exact h.live
  · rw [hphase, herr]
    exact h.returned

/-- At the end of an ending in order the bucket says so. -/
lemma saysEnded (h : Ends ev st p) (hret : p.phase = .returned true) :
    SaysEnded ev p.cfg.roomId st := by
  have hrank : p.phase.rank = 12 := by rw [hret]; rfl
  refine ⟨?_, h.live (by omega) (h.returned hret)⟩
  rcases h.handed (by omega) (h.returned hret) with ⟨m, hp, hm⟩ | ⟨m, g, hp, hf, hm⟩ |
    ⟨m, hp, hf, hs, hm⟩
  · rw [h.joining (by omega)] at hp
    exact absurd hp (by simp)
  · rw [h.joined (by omega)] at hf
    exact absurd hf (by simp)
  · exact ⟨m, hs, hm⟩

/-- What an action of an uploader comes to: the session is not that far. -/
lemma of_hand (hc : Calm p) {t : Target} (hact : (p.uploader t).pc ≠ .idle ∨ p.runs t = true)
    (hphase : p'.phase = p.phase) : Ends ev st p' := by
  refine .of_rank ?_
  rw [hphase]
  cases t with
  | primary => exact (hc.rank_primary hact).trans (by decide)
  | second => exact (hc.rank_second hact).trans (by decide)

/-- The publisher takes what is queued. -/
lemma dequeue (h : Ends ev w.store p) (hplan : p.plan ev w .dequeueManifest = some e) :
    ∃ p', e.machine = .up p' ∧ Ends ev e.store p' := by
  simp only [Proc.plan] at hplan
  split at hplan
  · rename_i m hpend hfl
    split at hplan
    · obtain rfl := Option.some.inj hplan
      have hrank : p.phase.rank < 7 := by
        by_contra h7
        rw [h.joining (not_lt.mp h7)] at hpend
        exact absurd hpend (by simp)
      refine ⟨_, rfl, fun h5 herr => ?_, fun h7 => absurd h7 (not_le.mpr hrank),
        fun h8 => absurd hrank (by have : 8 ≤ p.phase.rank := h8; omega), fun h9 => ?_, h.returned⟩
      · rcases h.handed h5 herr with ⟨m', hp, hm⟩ | ⟨m', g, hp, hf, hm⟩ | ⟨m', hp, hf, hs, hm⟩
        · obtain rfl := Option.some.inj (hpend.symm.trans hp)
          exact .sent m p.pub.queued rfl rfl hm
        · exact absurd (hpend.symm.trans hp) (by simp)
        · exact absurd (hpend.symm.trans hp) (by simp)
      · exact absurd hrank (by have : 9 ≤ p.phase.rank := h9; omega)
    · exact absurd hplan (by simp)
  · exact absurd hplan (by simp)

/-- The publisher's PUT is answered. -/
lemma putManifest (h : Ends ev w.store p) {ok : Bool}
    (hplan : p.plan ev w (.putManifest ok) = some e) : ∃ p', e.machine = .up p' ∧ Ends ev e.store p' := by
  simp only [Proc.plan] at hplan
  split at hplan
  · rename_i m gen hfl
    have hrank : p.phase.rank < 8 := by
      by_contra h8
      rw [h.joined (not_lt.mp h8)] at hfl
      exact absurd hfl (by simp)
    have hret : p.phase ≠ .returned true := fun hr => absurd hrank (by simp [hr, Phase.rank])
    split at hplan <;> obtain rfl := Option.some.inj hplan
    · refine ⟨_, rfl, fun h5 herr => ?_, h.joining, fun _ => rfl,
        fun h9 => absurd hrank (by have : 9 ≤ p.phase.rank := h9; omega), fun hr => absurd hr hret⟩
      rcases h.handed h5 herr with ⟨m', hp, hm⟩ | ⟨m', g, hp, hf, hm⟩ | ⟨m', hp, hf, hs, hm⟩
      · exact .queued m' hp hm
      · obtain ⟨rfl, -⟩ := Prod.mk.inj (Option.some.inj (hfl.symm.trans hf))
        exact .stored m hp rfl (by simp) hm
      · exact absurd (hfl.symm.trans hf) (by simp)
    · exact ⟨_, rfl, fun _ herr => absurd herr (by simp [Proc.putFailed]), h.joining, fun _ => rfl,
        fun h9 => absurd hrank (by have : 9 ≤ p.phase.rank := h9; omega), fun hr => absurd hr hret⟩
  · exact absurd hplan (by simp)

/-- The steps of `end` from the last manifest on. -/
lemma ending (h : Ends ev w.store p) (hc : endsInOrder w a = true) (hm : w.machine = .up p)
    (hplan : p.plan ev w a = some e)
    (ha : (∃ now, a = .queueEnded now) ∨ a = .flushEnd ∨ a = .stopPublisher ∨ a = .joinPublisher ∨
      (∃ ok now, a = .publishEnded ok now) ∨ a = .markEnded ∨ a = .removeIfDone ∨ a = .endReturn) :
    ∃ p', e.machine = .up p' ∧ Ends ev e.store p' := by
  rcases ha with ⟨now, rfl⟩ | rfl | rfl | rfl | ⟨ok, now, rfl⟩ | rfl | rfl | rfl <;>
    simp only [Proc.plan] at hplan <;> split at hplan <;>
    first | simp only [reduceCtorEq] at hplan | rename_i hph
  · obtain rfl := Option.some.inj hplan
    refine ⟨_, rfl, fun _ _ => .queued _ rfl rfl, fun h7 => ?_, fun h8 => ?_, fun h9 => ?_, fun hr => ?_⟩
    · exact absurd h7 (by simp [Proc.queueManifest, Phase.rank])
    · exact absurd h8 (by simp [Proc.queueManifest, Phase.rank])
    · exact absurd h9 (by simp [Proc.queueManifest, Phase.rank])
    · exact absurd hr (by simp [Proc.queueManifest])
  · obtain rfl := Option.some.inj hplan
    refine ⟨_, rfl, fun _ => h.handed (by simp [hph, Phase.rank]), fun h7 => ?_, fun h8 => ?_, fun h9 => ?_,
      fun hr => absurd hr (by simp)⟩
    · exact absurd h7 (by simp [Phase.rank])
    · exact absurd h8 (by simp [Phase.rank])
    · exact absurd h9 (by simp [Phase.rank])
  · obtain rfl := Option.some.inj hplan
    have hpend : p.pub.pending = none := by simpa [endsInOrder, hm] using hc
    refine ⟨_, rfl, fun _ herr => ?_, fun _ => hpend, fun h8 => ?_, fun h9 => ?_,
      fun hr => absurd hr (by simp)⟩
    · exact (h.handed (by simp [hph, Phase.rank]) herr).same rfl rfl rfl
    · exact absurd h8 (by simp [Phase.rank])
    · exact absurd h9 (by simp [Phase.rank])
  · obtain rfl := Option.some.inj hplan
    exact ⟨_, rfl, fun _ => h.handed (by simp [hph.1, Phase.rank]),
      fun _ => h.joining (by simp [hph.1, Phase.rank]), fun _ => hph.2,
      fun h9 => absurd h9 (by simp [Phase.rank]), fun hr => absurd hr (by simp)⟩
  · have hold : ∀ herr : p.lastError = none, Handed ev w.store p.pub :=
      h.handed (by simp [hph, Phase.rank])
    split at hplan <;> obtain rfl := Option.some.inj hplan
    · refine ⟨_, rfl, fun _ herr => (hold herr).same rfl rfl rfl,
        fun _ => h.joining (by simp [hph, Phase.rank]),
        fun _ => h.joined (by simp [hph, Phase.rank]), fun _ _ => ?_, fun hr => absurd hr (by simp)⟩
      · exact ⟨p.livePointer ev .ended now, by simp, rfl, rfl⟩
    · exact ⟨_, rfl, fun _ herr => absurd herr (by simp [Proc.putFailed]),
        fun _ => h.joining (by simp [hph, Phase.rank]), fun _ => h.joined (by simp [hph, Phase.rank]),
        fun _ herr => absurd herr (by simp [Proc.putFailed]), fun hr => absurd hr (by simp [Proc.putFailed])⟩
  · obtain rfl := Option.some.inj hplan
    exact ⟨_, rfl, fun _ => h.handed (by simp [hph, Phase.rank]),
      fun _ => h.joining (by simp [hph, Phase.rank]), fun _ => h.joined (by simp [hph, Phase.rank]),
      fun _ => h.live (by simp [hph, Phase.rank]), fun hr => absurd hr (by simp)⟩
  · obtain rfl := Option.some.inj hplan
    exact ⟨_, rfl, fun _ => h.handed (by simp [hph, Phase.rank]),
      fun _ => h.joining (by simp [hph, Phase.rank]), fun _ => h.joined (by simp [hph, Phase.rank]),
      fun _ => h.live (by simp [hph, Phase.rank]), fun hr => absurd hr (by simp)⟩
  · obtain rfl := Option.some.inj hplan
    refine ⟨_, rfl, fun _ => h.handed (by simp [hph, Phase.rank]),
      fun _ => h.joining (by simp [hph, Phase.rank]), fun _ => h.joined (by simp [hph, Phase.rank]),
      fun _ => h.live (by simp [hph, Phase.rank]), fun hr => ?_⟩
    simpa using hr

/-- The other actions of the host. -/
lemma onAir (h : Ends ev w.store p) (hcalm : Calm p) (hc : endsInOrder w a = true)
    (hm : w.machine = .up p) (hplan : p.plan ev w a = some e)
    (ha : a = .flushBegin ∨ (∃ ok now, a = .publishLive ok now) ∨ a = .onDropped ∨
      (∃ now, a = .heartbeat now) ∨ (∃ ok, a = .putHeartbeat ok) ∨ a = .stopUploaders ∨
      a = .clearError) : ∃ p', e.machine = .up p' ∧ Ends ev e.store p' := by
  rcases ha with rfl | ⟨ok, now, rfl⟩ | rfl | ⟨now, rfl⟩ | ⟨ok, rfl⟩ | rfl | rfl <;>
    simp only [Proc.plan] at hplan <;> split at hplan <;>
    first | simp only [reduceCtorEq] at hplan | rename_i hph
  · obtain rfl := Option.some.inj hplan
    exact ⟨_, rfl, .of_rank (by simp [Phase.rank])⟩
  · split at hplan <;> obtain rfl := Option.some.inj hplan
    · exact ⟨_, rfl, .of_rank (by simp [Phase.rank])⟩
    · exact ⟨_, rfl, .of_rank (by simp [Proc.putFailed, Phase.rank])⟩
  · obtain rfl := Option.some.inj hplan
    refine ⟨_, rfl, .of_rank ?_⟩
    have hrank : p.phase.rank < 3 := by
      by_contra hr
      rw [(hcalm.mirror (not_lt.mp hr)).2] at hph
      exact absurd hph (by simp)
    exact hrank.trans (by decide)
  · obtain rfl := Option.some.inj hplan
    exact ⟨_, rfl, h.same rfl rfl rfl rfl⟩
  · have hrank : p.phase.rank < 9 := by simpa [endsInOrder, hm] using hc
    have hret : p.phase ≠ .returned true := fun hr => absurd hrank (by simp [hr, Phase.rank])
    split at hplan <;> obtain rfl := Option.some.inj hplan
    · exact ⟨_, rfl, fun h5 herr => (h.handed h5 herr).same rfl rfl rfl, h.joining, h.joined,
        fun h9 => absurd h9 (not_le.mpr hrank), fun hr => absurd hr hret⟩
    · exact ⟨_, rfl, fun _ herr => absurd herr (by simp [Proc.putFailed]), h.joining, h.joined,
        fun h9 => absurd h9 (not_le.mpr hrank), fun hr => absurd hr hret⟩
  · obtain rfl := Option.some.inj hplan
    exact ⟨_, rfl, .of_rank (by simp [Phase.rank])⟩
  · obtain rfl := Option.some.inj hplan
    exact ⟨_, rfl, .of_rank (by simp [Phase.rank])⟩

/-- An action of an uploader, or `publish_segment`: the phase stays, and the
session has not come that far. -/
lemma uploading (hcalm : Calm p) (hplan : p.plan ev w a = some e)
    (ha : (∃ data dur pts now f, a = .publishSegment data dur pts now f) ∨ (∃ t, a = .peek t) ∨
      (∃ t, a = .mayUpload t) ∨ (∃ t, a = .checkFloor t) ∨ (∃ t r, a = .putSegment t r) ∨
      (∃ now, a = .onConfirmed now) ∨ (∃ ok, a = .putBeat ok) ∨ (∃ t now, a = .confirm t now) ∨
      (∃ t now, a = .skip t now) ∨ a = .onSkipped ∨ ∃ t, a = .giveUp t) :
    ∃ p', e.machine = .up p' ∧ Ends ev e.store p' := by
  have hwith : ∀ (p : Proc) t u, (p.withUploader t u).phase = p.phase := fun p t u => by
    cases t <;> rfl
  rcases ha with ⟨data, dur, pts, now, f, rfl⟩ | ⟨t, rfl⟩ | ⟨t, rfl⟩ | ⟨t, rfl⟩ | ⟨t, r, rfl⟩ |
    ⟨now, rfl⟩ | ⟨ok, rfl⟩ | ⟨t, now, rfl⟩ | ⟨t, now, rfl⟩ | rfl | ⟨t, rfl⟩ <;>
    simp only [Proc.plan] at hplan <;> split at hplan <;>
    first | simp only [reduceCtorEq] at hplan | rename_i hpc
  · have hrank : p.phase.rank < 5 := by rw [hpc.1]; decide
    rw [publishSegment, Option.bind_eq_some_iff] at hplan
    obtain ⟨q, -, hplan⟩ := hplan
    split at hplan
    · obtain rfl := Option.some.inj hplan
      exact ⟨_, rfl, .of_rank hrank⟩
    · split at hplan
      · obtain rfl := Option.some.inj hplan
        exact ⟨_, rfl, .of_rank hrank⟩
      · split at hplan
        · obtain rfl := Option.some.inj hplan
          exact ⟨_, rfl, .of_rank hrank⟩
        · exact absurd hplan (by simp)
  · split at hplan
    · obtain rfl := Option.some.inj hplan
      exact ⟨_, rfl, .of_hand hcalm (Or.inr hpc.1) (hwith p t _)⟩
    · split at hplan
      · obtain rfl := Option.some.inj hplan
        exact ⟨_, rfl, .of_hand hcalm (Or.inr hpc.1) (hwith p t _)⟩
      · exact absurd hplan (by simp)
  · obtain rfl := Option.some.inj hplan
    exact ⟨_, rfl, .of_hand hcalm (Or.inl (by rw [hpc]; simp)) (hwith p t _)⟩
  · split at hplan
    · exact absurd hplan (by simp)
    · split at hplan <;> obtain rfl := Option.some.inj hplan <;>
        exact ⟨_, rfl, .of_hand hcalm (Or.inl (by rw [hpc]; simp)) (hwith p t _)⟩
  · split at hplan <;> obtain rfl := Option.some.inj hplan <;>
      exact ⟨_, rfl, .of_hand hcalm (Or.inl (by rw [hpc]; simp)) (hwith p _ _)⟩
  · obtain rfl := Option.some.inj hplan
    exact ⟨_, rfl, .of_hand hcalm (t := .primary) (Or.inl (by rw [Proc.uploader, hpc]; simp)) rfl⟩
  · have hact : (p.uploader .primary).pc ≠ .idle ∨ p.runs .primary = true :=
      Or.inl (by rw [Proc.uploader, hpc]; simp)
    split at hplan
    · obtain rfl := Option.some.inj hplan
      exact ⟨_, rfl, .of_hand hcalm hact rfl⟩
    · split at hplan <;> obtain rfl := Option.some.inj hplan <;>
        exact ⟨_, rfl, .of_hand hcalm hact rfl⟩
  · obtain rfl := Option.some.inj hplan
    exact ⟨_, rfl, .of_hand hcalm (t := .primary) (Or.inl (by rw [hpc]; simp)) rfl⟩
  · obtain rfl := Option.some.inj hplan
    exact ⟨_, rfl, .of_hand hcalm (t := .second) (Or.inl (by rw [hpc]; simp)) rfl⟩
  · split at hplan
    · obtain rfl := Option.some.inj hplan
      exact ⟨_, rfl, .of_hand hcalm (Or.inl (by rw [hpc]; simp)) (hwith _ t _)⟩
    · exact absurd hplan (by simp)
  · obtain rfl := Option.some.inj hplan
    exact ⟨_, rfl, .of_hand hcalm (t := .primary) (Or.inl (by rw [Proc.uploader, hpc]; simp)) rfl⟩
  · obtain rfl := Option.some.inj hplan
    exact ⟨_, rfl, .of_hand hcalm (Or.inl (by rw [hpc]; simp)) (hwith p t _)⟩

/-- **What an action keeps**, in an ending in order. -/
lemma plan (h : Ends ev w.store p) (hcalm : Calm p) (hc : endsInOrder w a = true)
    (hm : w.machine = .up p) (hplan : p.plan ev w a = some e) :
    ∃ p', e.machine = .up p' ∧ Ends ev e.store p' := by
  cases a with
  | flushBegin => exact h.onAir hcalm hc hm hplan (by simp)
  | publishLive ok now => exact h.onAir hcalm hc hm hplan (by simp)
  | onDropped => exact h.onAir hcalm hc hm hplan (by simp)
  | heartbeat now => exact h.onAir hcalm hc hm hplan (by simp)
  | putHeartbeat ok => exact h.onAir hcalm hc hm hplan (by simp)
  | stopUploaders => exact h.onAir hcalm hc hm hplan (by simp)
  | clearError => exact h.onAir hcalm hc hm hplan (by simp)
  | queueEnded now => exact h.ending hc hm hplan (by simp)
  | flushEnd => exact h.ending hc hm hplan (by simp)
  | stopPublisher => exact h.ending hc hm hplan (by simp)
  | joinPublisher => exact h.ending hc hm hplan (by simp)
  | publishEnded ok now => exact h.ending hc hm hplan (by simp)
  | markEnded => exact h.ending hc hm hplan (by simp)
  | removeIfDone => exact h.ending hc hm hplan (by simp)
  | endReturn => exact h.ending hc hm hplan (by simp)
  | dequeueManifest => exact h.dequeue hplan
  | putManifest ok => exact h.putManifest hplan
  | publishSegment data dur pts now fault => exact uploading hcalm hplan (by simp)
  | peek t => exact uploading hcalm hplan (by simp)
  | mayUpload t => exact uploading hcalm hplan (by simp)
  | checkFloor t => exact uploading hcalm hplan (by simp)
  | putSegment t r => exact uploading hcalm hplan (by simp)
  | onConfirmed now => exact uploading hcalm hplan (by simp)
  | putBeat ok => exact uploading hcalm hplan (by simp)
  | confirm t now => exact uploading hcalm hplan (by simp)
  | skip t now => exact uploading hcalm hplan (by simp)
  | onSkipped => exact uploading hcalm hplan (by simp)
  | giveUp t => exact uploading hcalm hplan (by simp)
  | _ => exact absurd hplan (by simp [Proc.plan])

end Ends

/-- A session that has just begun has not come far. -/
lemma phase_of_plan {ev : Event} {w : World} {a : Action} {e : Effect} {p : Proc}
    (hup : ∀ p, w.machine ≠ .up p) (h : w.plan ev a = some e) (hp : e.machine = .up p) :
    p.phase = .begun := by
  obtain ⟨cfg, args, c, q, next, now, rfl⟩ := begins_of_plan hup h hp
  rfl

/-- What every run with its endings in order keeps. -/
lemma ends_of_reach {ev : Event} {w : World} (h : ReachedBy ev endsInOrder w) :
    ∀ p, w.machine = .up p → Ends ev w.store p := by
  refine Lib.Reach.invariant₂ (I := fun w => ∀ p, w.machine = .up p → Ends ev w.store p)
    (J := Sound ev) sound_of_reach ?_ ?_ h
  · rintro w rfl p hp
    exact absurd hp (by simp)
  · intro w a w' hs ih hc ht p hp
    rcases step_cases ht with ⟨rfl, -, rfl⟩ | ⟨s, b, rfl, -, rfl⟩ | ⟨a', k, e, rfl, -, -, rfl⟩ |
      ⟨e, he, rfl⟩
    · exact absurd hp (by simp)
    · exact ih p hp
    · exact absurd hp (by simp [World.cutAfter])
    · by_cases hup : ∃ p, w.machine = .up p
      · obtain ⟨p₀, hm⟩ := hup
        obtain ⟨p', hp', hends⟩ := (ih p₀ hm).plan (hs.calm p₀ hm) hc hm (plan_up hm a ▸ he)
        obtain rfl := Machine.up.inj (hp'.symm.trans hp)
        exact hends
      · have hphase := phase_of_plan (fun p hm => hup ⟨p, hm⟩) he hp
        exact .of_rank (by rw [hphase]; decide)

/-! ### The result -/

/-- **End tells the truth.**  In a run with its endings in order, `end` returns
true only when the stored manifest and the room's pointer say `ended`. -/
theorem end_true (ev : Event) {w : World} (h : ReachedBy ev endsInOrder w) : EndTrue ev w :=
  fun p hp hret => (ends_of_reach h p hp).saysEnded hret

/-- `end` with the publisher idle: the last manifest is taken and stored while
`flush_manifest` waits. -/
def endedInOrder : List Action :=
  goLive ++ [Action.stopUploaders, .clearError, .queueEnded 5, .dequeueManifest, .putManifest true,
    .flushEnd, .stopPublisher, .joinPublisher, .publishEnded true 6, .markEnded, .removeIfDone,
    .endReturn]

theorem end_true_inOrder :
    ∃ (w : World) (p : Proc), w.machine = .up p ∧ p.phase = .returned true ∧
      SaysEnded sampleEvent p.cfg.roomId w.store := by
  obtain ⟨w, hw, hup⟩ : ∃ w, ReachedBy sampleEvent endsInOrder w ∧
      (w.upWith fun p _ => decide (p.phase = .returned true)) = true :=
    Lib.exists_reach_guarded {} endedInOrder rfl (by decide +kernel)
  obtain ⟨p, hm, hret⟩ := exists_of_upWith hup
  have hret' := of_decide_eq_true hret
  exact ⟨w, p, hm, hret', end_true sampleEvent hw p hm hret'⟩

/-- The manifest that lists the first segment is under way when `end` queues the
last one; the wait is over before it is answered. -/
def endedEarly : List Action :=
  goLive ++ [Action.publishSegment [1] 6 0 1 none] ++ uploadOne ++
    [Action.dequeueManifest, .stopUploaders, .clearError, .queueEnded 5, .flushEnd, .stopPublisher,
      .putManifest true, .joinPublisher, .publishEnded true 6, .markEnded, .removeIfDone,
      .endReturn]

/-- `end` returns true, and the stored manifest says `live`. -/
theorem end_untrue : ∃ w, Reached sampleEvent w ∧ ¬EndTrue sampleEvent w := by
  obtain ⟨w, hw, hlive, hup⟩ : ∃ w, Reached sampleEvent w ∧
      (w.store.manifest sampleEvent.id).map (·.status) = some .live ∧
      (w.upWith fun p _ => decide (p.phase = .returned true)) = true :=
    Lib.exists_reach {} endedEarly rfl (by decide +kernel)
  obtain ⟨p, hm, hret⟩ := exists_of_upWith hup
  refine ⟨w, hw, fun h => ?_⟩
  obtain ⟨⟨m, hst, hended⟩, -⟩ := h p hm (of_decide_eq_true hret)
  rw [hst] at hlive
  simp [hended] at hlive

end Multisite

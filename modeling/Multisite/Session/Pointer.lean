import Multisite.Session.Ending

/-!
The room's pointer: the requests for `live.json` one session makes, in their order.

Three paths send it.  `begin_common` and `end` each send it once; the heartbeat of
`on_confirmed` looks at the manifest's status again before it does; `heartbeat`
does not look, and the lock it takes only keeps two requests apart.

* `revived`: a run in which `heartbeat` sends `live` after `end` has sent `ended`;
* `pointer_stays_ended`: where no `heartbeat` is sent after `ended`, nothing else
  brings the room back.
-/

namespace Multisite

/-- The status in the `live.json` an action sends, when it sends one. -/
def Proc.sendsLive (p : Proc) : Action → Option Status
  | .publishLive _ _ => if p.phase = .goingLive then some .live else none
  | .putHeartbeat _ => p.beat.map (·.status)
  | .putBeat _ =>
      match p.up.pc with
      | .listed _ (some lp) => if p.manifest.status = .ended then none else some lp.status
      | _ => none
  | .publishEnded _ _ => if p.phase = .joined then some .ended else none
  | _ => none

/-- The statuses the session has sent so far, the latest first: a new session
starts with none. -/
def noteLive (w : World) (a : Action) (sent : List Status) : List Status :=
  match w.machine, a with
  | .up p, a => (p.sendsLive a).toList ++ sent
  | _, .openSession _ => []
  | _, _ => sent

/-- The steps of the world, with the statuses sent. -/
def stepLive (ev : Event) : World × List Status → Action → Option (World × List Status) :=
  Lib.noted (step ev) noteLive

/-- Before the event, with nothing sent. -/
def FreshLive (x : World × List Status) : Prop := x = ({}, [])

/-- Once `ended` has been sent, `live` is not. -/
def StaysEnded (sent : List Status) : Prop :=
  sent.Pairwise fun later earlier => earlier = .ended → later ≠ .live

instance (sent : List Status) : Decidable (StaysEnded sent) :=
  inferInstanceAs (Decidable (List.Pairwise _ sent))

/-- No `heartbeat` is sent once `end` has sent its pointer. -/
def beatsBeforeEnd (w : World) (a : Action) : Bool :=
  match w.machine, a with
  | .up p, .putHeartbeat _ => decide (p.phase.rank < 9)
  | _, _ => true

/-! ### The pointers built and the phases -/

variable {ev : Event} {w : World} {p p' : Proc} {a : Action} {e : Effect}

/-- The pointers a session has built and not yet sent say `live`. -/
structure BeatsLive (p : Proc) : Prop where
  beat : ∀ lp, p.beat = some lp → lp.status = .live
  listed : ∀ seg lp, p.up.pc = .listed seg (some lp) → lp.status = .live

/-- What an action of a session makes of its configuration, its pointers and its
phase: the phase goes on or stays, into the drain only by stopping the uploaders,
and past the pointer of `end` only by sending it. -/
structure Forward (p : Proc) (a : Action) (p' : Proc) : Prop where
  cfg : p'.cfg = p.cfg
  beats : BeatsLive p → BeatsLive p'
  rank_le : p.phase.rank ≤ p'.phase.rank
  stops : p.phase.rank < 3 → 3 ≤ p'.phase.rank → a = .stopUploaders
  sends : p.phase.rank < 9 → 9 ≤ p'.phase.rank → ∃ ok now, a = .publishEnded ok now

lemma Forward.stay (hcfg : p'.cfg = p.cfg) (hphase : p'.phase = p.phase)
    (hbeats : BeatsLive p → BeatsLive p') : Forward p a p' :=
  ⟨hcfg, hbeats, hphase ▸ le_rfl, fun h1 h2 => absurd h1 (not_lt.mpr (hphase ▸ h2)),
    fun h1 h2 => absurd h1 (not_lt.mpr (hphase ▸ h2))⟩

/-- An uploader moves to a place without a pointer. -/
lemma BeatsLive.withUploader (h : BeatsLive p) {t : Target} {u : Uploader}
    (hu : ∀ seg lp, u.pc ≠ .listed seg (some lp)) : BeatsLive (p.withUploader t u) := by
  cases t with
  | primary => exact ⟨h.beat, fun seg lp hpc => absurd hpc (hu seg lp)⟩
  | second => exact ⟨h.beat, h.listed⟩

lemma Forward.withUploader {t : Target} {u : Uploader}
    (hu : ∀ seg lp, u.pc ≠ .listed seg (some lp)) : Forward p a (p.withUploader t u) :=
  .stay (by cases t <;> rfl) (by cases t <;> rfl) fun h => h.withUploader hu

/-- **One action**: the session goes forward. -/
lemma plan_forward (h : p.plan ev w a = some e) : ∃ p', e.machine = .up p' ∧ Forward p a p' := by
  cases a with
  | publishSegment data dur pts now fault =>
      simp only [Proc.plan] at h
      split at h
      · rw [publishSegment, Option.bind_eq_some_iff] at h
        obtain ⟨q, -, h⟩ := h
        split at h
        · obtain rfl := Option.some.inj h
          exact ⟨_, rfl, .stay rfl rfl fun hb => ⟨hb.beat, hb.listed⟩⟩
        · split at h
          · obtain rfl := Option.some.inj h
            exact ⟨_, rfl, .stay rfl rfl fun hb => ⟨hb.beat, hb.listed⟩⟩
          · split at h
            · obtain rfl := Option.some.inj h
              exact ⟨_, rfl, .stay rfl rfl fun hb => ⟨hb.beat, hb.listed⟩⟩
            · exact absurd h (by simp)
      · exact absurd h (by simp)
  | heartbeat now =>
      simp only [Proc.plan] at h
      split at h
      · obtain rfl := Option.some.inj h
        refine ⟨_, rfl, .stay rfl rfl fun hb => ⟨fun lp hlp => ?_, hb.listed⟩⟩
        rw [← Option.some.inj hlp]
        rfl
      · exact absurd h (by simp)
  | onConfirmed now =>
      simp only [Proc.plan] at h
      split at h
      · obtain rfl := Option.some.inj h
        refine ⟨_, rfl, .stay rfl rfl fun hb => ⟨hb.beat, fun seg lp hpc => ?_⟩⟩
        simp only [UploadPc.listed.injEq] at hpc
        obtain ⟨-, hlp⟩ := hpc
        split at hlp
        · rw [← Option.some.inj hlp]
          rfl
        · exact absurd hlp (by simp)
      · exact absurd h (by simp)
  | peek t =>
      simp only [Proc.plan] at h
      split at h
      · rename_i hidle
        split at h
        · obtain rfl := Option.some.inj h
          exact ⟨_, rfl, .withUploader (by simp)⟩
        · split at h
          · obtain rfl := Option.some.inj h
            exact ⟨_, rfl, .withUploader (by simp [hidle.2])⟩
          · exact absurd h (by simp)
      · exact absurd h (by simp)
  | mayUpload t =>
      simp only [Proc.plan] at h
      split at h
      · obtain rfl := Option.some.inj h
        refine ⟨_, rfl, .withUploader fun seg lp => ?_⟩
        dsimp only
        split <;> simp
      · exact absurd h (by simp)
  | checkFloor t =>
      simp only [Proc.plan] at h
      split at h
      · split at h
        · exact absurd h (by simp)
        · split at h <;> obtain rfl := Option.some.inj h <;>
            exact ⟨_, rfl, .withUploader (by simp)⟩
      · exact absurd h (by simp)
  | putSegment t r =>
      simp only [Proc.plan] at h
      split at h
      · rename_i seg n hpc
        have hu : ∀ seg' lp, ((p.uploader t).answered seg n r).pc ≠ .listed seg' (some lp) := by
          intro seg' lp
          cases r <;> simp [Uploader.answered]
        split at h <;> obtain rfl := Option.some.inj h <;> exact ⟨_, rfl, .withUploader hu⟩
      · exact absurd h (by simp)
  | confirm t now =>
      simp only [Proc.plan] at h
      split at h
      · obtain rfl := Option.some.inj h
        exact ⟨_, rfl, .stay rfl rfl fun hb => ⟨hb.beat, by simp [Proc.withUploader]⟩⟩
      · obtain rfl := Option.some.inj h
        exact ⟨_, rfl, .stay rfl rfl fun hb => ⟨hb.beat, hb.listed⟩⟩
      · exact absurd h (by simp)
  | skip t now =>
      simp only [Proc.plan] at h
      split at h
      · split at h
        · obtain rfl := Option.some.inj h
          cases t with
          | primary =>
              exact ⟨_, rfl, .stay rfl rfl fun hb => ⟨hb.beat, by simp [Proc.withUploader, afterSkip]⟩⟩
          | second => exact ⟨_, rfl, .stay rfl rfl fun hb => ⟨hb.beat, hb.listed⟩⟩
        · exact absurd h (by simp)
      · exact absurd h (by simp)
  | giveUp t =>
      simp only [Proc.plan] at h
      split at h
      · obtain rfl := Option.some.inj h
        exact ⟨_, rfl, .withUploader (by simp)⟩
      · exact absurd h (by simp)
  | putBeat ok =>
      simp only [Proc.plan] at h
      split at h
      · split at h
        · obtain rfl := Option.some.inj h
          exact ⟨_, rfl, .stay rfl rfl fun hb => ⟨hb.beat, by simp⟩⟩
        · split at h <;> obtain rfl := Option.some.inj h <;>
            exact ⟨_, rfl, .stay rfl rfl fun hb => ⟨hb.beat, by simp [Proc.putFailed]⟩⟩
      · exact absurd h (by simp)
  | onSkipped =>
      simp only [Proc.plan] at h
      split at h
      · obtain rfl := Option.some.inj h
        exact ⟨_, rfl, .stay rfl rfl fun hb => ⟨hb.beat, by simp⟩⟩
      · exact absurd h (by simp)
  | putHeartbeat ok =>
      simp only [Proc.plan] at h
      split at h
      · exact absurd h (by simp)
      · split at h <;> obtain rfl := Option.some.inj h <;>
          exact ⟨_, rfl, .stay rfl rfl fun hb => ⟨by simp [Proc.putFailed], hb.listed⟩⟩
  | publishEnded ok now =>
      simp only [Proc.plan] at h
      split at h
      · rename_i hph
        split at h <;> obtain rfl := Option.some.inj h <;>
          exact ⟨_, rfl, rfl, fun hb => ⟨hb.beat, hb.listed⟩,
            by simp [hph, Phase.rank, Proc.putFailed], by simp [hph, Phase.rank],
            fun _ _ => ⟨ok, now, rfl⟩⟩
      · exact absurd h (by simp)
  | _ =>
      -- the steps of `begin_common`, `end` and the publisher
      simp only [Proc.plan] at h
      repeat' split at h
      all_goals first
        | simp only [reduceCtorEq] at h
        | (obtain rfl := Option.some.inj h
           first
            | exact ⟨_, rfl, .stay rfl rfl fun hb => ⟨hb.beat, hb.listed⟩⟩
            | (refine ⟨_, rfl, rfl, fun hb => ⟨hb.beat, hb.listed⟩, ?_, ?_, ?_⟩ <;>
                simp_all [Phase.rank, Proc.queueManifest, Proc.putFailed]))

/-- What an action sends: past the pointer of `end` nothing but a heartbeat, and
`ended` only as that pointer. -/
lemma sendsLive_cases (hcalm : Calm p) (hb : BeatsLive p) (hc : beatsBeforeEnd w a = true)
    (hm : w.machine = .up p) {s : Status} (h : p.sendsLive a = some s) :
    p.phase.rank < 9 ∧ (s = .live ∨ s = .ended ∧ ∃ ok now, a = .publishEnded ok now) := by
  cases a <;> simp only [Proc.sendsLive, reduceCtorEq] at h
  · split at h
    · rename_i hph
      obtain rfl := Option.some.inj h
      exact ⟨by rw [hph]; decide, Or.inl rfl⟩
    · exact absurd h (by simp)
  · obtain ⟨lp, hlp, rfl⟩ := Option.map_eq_some_iff.mp h
    simp only [beatsBeforeEnd, hm, decide_eq_true_eq] at hc
    exact ⟨hc, Or.inl (hb.beat lp hlp)⟩
  · split at h
    · rename_i hph
      obtain rfl := Option.some.inj h
      exact ⟨by rw [hph]; decide, Or.inr ⟨rfl, _, _, rfl⟩⟩
    · exact absurd h (by simp)
  · split at h
    · rename_i seg lp hpc
      split at h
      · exact absurd h (by simp)
      · obtain rfl := Option.some.inj h
        refine ⟨?_, Or.inl (hb.listed seg lp hpc)⟩
        exact (hcalm.rank_primary (Or.inl (by simp [hpc]))).trans (by decide)
    · exact absurd h (by simp)

/-! ### The invariant -/

/-- What is sent keeps its order, and until a session sends its last pointer it
has not sent `ended`. -/
structure Pointed (x : World × List Status) : Prop where
  stays : StaysEnded x.2
  opened : ∀ cfg q, x.1.machine = .opened cfg q → x.2 = []
  beats : ∀ p, x.1.machine = .up p → BeatsLive p
  before : ∀ p, x.1.machine = .up p → p.phase.rank < 9 → .ended ∉ x.2

/-- An action of a session. -/
lemma Pointed.plan {sent : List Status} (h : Pointed (w, sent)) (hcalm : Calm p)
    (hc : beatsBeforeEnd w a = true) (hm : w.machine = .up p) (he : p.plan ev w a = some e) :
    Pointed (w.after e, noteLive w a sent) := by
  obtain ⟨p', hp', hf⟩ := plan_forward he
  have hb := h.beats p hm
  have hnote : noteLive w a sent = (p.sendsLive a).toList ++ sent := by
    simp only [noteLive, hm]
  have hup : ∀ q, (w.after e).machine = .up q → q = p' := fun q hq =>
    (Machine.up.inj (hp'.symm.trans hq)).symm
  rw [hnote]
  refine ⟨?_, fun cfg q hq => absurd (hp'.symm.trans hq) (by simp),
    fun q hq => hup q hq ▸ hf.beats hb, fun q hq hr => ?_⟩
  · cases hs : p.sendsLive a with
    | none => exact h.stays
    | some s =>
        refine List.pairwise_cons.mpr ⟨fun s' hs' hend => ?_, h.stays⟩
        have hrank := (sendsLive_cases hcalm hb hc hm hs).1
        exact absurd (hend ▸ hs') (h.before p hm hrank)
  · obtain rfl := hup q hq
    have hrank : p.phase.rank < 9 := lt_of_le_of_lt hf.rank_le hr
    cases hs : p.sendsLive a with
    | none => exact h.before p hm hrank
    | some s =>
        rcases (sendsLive_cases hcalm hb hc hm hs).2 with rfl | ⟨rfl, ok, now, rfl⟩
        · simpa using h.before p hm hrank
        · -- the pointer of `end` takes the phase with it
          simp only [Proc.sendsLive] at hs
          split at hs
          · rename_i hph
            simp only [Proc.plan, hph, if_true] at he
            split at he <;> obtain rfl := Option.some.inj he <;>
              obtain rfl := Machine.up.inj hp' <;>
              exact absurd hr (by simp [Phase.rank, Proc.putFailed])
          · exact absurd hs (by simp)

lemma beatsLive_begun (ev : Event) (cfg : SessionConfig) (args : StartArgs) (c : Continuing)
    (q : SpoolQueue) (next : ℕ) (now : ℤ) : BeatsLive (begunProc ev cfg args c q next now) :=
  ⟨fun _ hlp => absurd hlp (by simp [begunProc, Proc.queueManifest]),
    fun _ _ hpc => absurd hpc (by simp [begunProc, Proc.queueManifest])⟩

/-- Without a session nothing is sent, and one that begins has sent nothing. -/
lemma Pointed.boot {sent : List Status} (h : Pointed (w, sent)) (hup : ∀ p, w.machine ≠ .up p)
    (he : w.plan ev a = some e) : Pointed (w.after e, noteLive w a sent) := by
  cases hm : w.machine with
  | up p => exact absurd hm (hup p)
  | down =>
      cases a <;> simp only [World.plan, hm, reduceCtorEq] at he
      obtain rfl := Option.some.inj he
      simp only [noteLive, hm]
      exact ⟨List.Pairwise.nil, fun _ _ _ => rfl, fun q hq => absurd hq (by simp [World.after]),
        fun q hq => absurd hq (by simp [World.after])⟩
  | opened cfg q =>
      have hsent : sent = [] := h.opened cfg q hm
      have hnote : noteLive w a sent = [] := by
        rw [hsent]
        cases a <;> simp only [noteLive, hm]
      rw [hnote]
      refine ⟨List.Pairwise.nil, fun _ _ _ => rfl, fun p hp => ?_, fun _ _ _ => by simp⟩
      obtain ⟨cfg, args, c, q, next, now, rfl⟩ := begins_of_plan hup he hp
      exact beatsLive_begun ev cfg args c q next now

lemma noteLive_same {sent : List Status} (h : ∀ p : Proc, p.sendsLive a = none)
    (ha : ∀ cfg, a ≠ .openSession cfg) : noteLive w a sent = sent := by
  unfold noteLive
  split
  · rw [h]
    rfl
  · exact absurd rfl (ha _)
  · rfl

/-- What leaves no session sends nothing. -/
lemma Pointed.down {sent : List Status} (h : Pointed (w, sent)) {w' : World}
    (hm : w'.machine = .down) : Pointed (w', sent) :=
  ⟨h.stays, fun _ _ hq => absurd (hm.symm.trans hq) (by simp),
    fun _ hq => absurd (hm.symm.trans hq) (by simp),
    fun _ hq => absurd (hm.symm.trans hq) (by simp)⟩

lemma pointed_of_reach {x : World × List Status}
    (h : Lib.Reach (stepLive ev) (fun x a => beatsBeforeEnd x.1 a = true) FreshLive x) :
    Pointed x := by
  have hsound : ∀ {x}, Lib.Reach (stepLive ev) (fun x a => beatsBeforeEnd x.1 a = true) FreshLive x →
      Sound ev x.1 := by
    intro x hx
    have hr : ReachedBy ev beatsBeforeEnd x.1 := by
      refine Lib.Reach.of_noted ?_ hx
      rintro y rfl
      rfl
    exact sound_of_reach hr
  refine Lib.Reach.invariant₂ (I := Pointed) (J := fun x => Sound ev x.1) hsound ?_ ?_ h
  · rintro x rfl
    exact ⟨List.Pairwise.nil, fun _ _ h => absurd h (by simp), fun _ h => absurd h (by simp),
      fun _ h => absurd h (by simp)⟩
  · rintro ⟨w, sent⟩ a ⟨w', sent'⟩ hs ih hc ht
    obtain ⟨ht, hsent⟩ := Lib.noted_eq_some.mp ht
    obtain rfl : sent' = noteLive w a sent := hsent
    rcases step_cases ht with ⟨rfl, -, rfl⟩ | ⟨s, b, rfl, -, rfl⟩ | ⟨a', k, e, rfl, -, -, rfl⟩ |
      ⟨e, he, rfl⟩
    · rw [noteLive_same (fun _ => rfl) (by simp)]
      exact ih.down rfl
    · rw [noteLive_same (fun _ => rfl) (by simp)]
      exact ⟨ih.stays, ih.opened, ih.beats, ih.before⟩
    · rw [noteLive_same (fun _ => rfl) (by simp)]
      exact ih.down rfl
    · by_cases hup : ∃ p, w.machine = .up p
      · obtain ⟨p, hm⟩ := hup
        exact ih.plan (hs.calm p hm) hc hm (plan_up hm a ▸ he)
      · exact ih.boot (fun p hm => hup ⟨p, hm⟩) he

/-! ### The result -/

/-- **No room is brought back to life.**  Where `heartbeat` sends nothing once
`end` has sent its pointer, a session sends no `live` after an `ended`, however
its threads and the host's calls interleave. -/
theorem pointer_stays_ended (ev : Event) {x : World × List Status}
    (h : Lib.Reach (stepLive ev) (fun x a => beatsBeforeEnd x.1 a = true) FreshLive x) :
    StaysEnded x.2 :=
  (pointed_of_reach h).stays

/-- A `heartbeat` built before the pointer of `end` and sent before it too. -/
def beatInTime : List Action :=
  goLive ++ [Action.heartbeat 3, .stopUploaders, .clearError, .queueEnded 5, .dequeueManifest,
    .putManifest true, .flushEnd, .stopPublisher, .joinPublisher, .putHeartbeat true,
    .publishEnded true 6]

theorem pointer_stays_ended_inTime : ∃ x : World × List Status,
    x.2 = [.ended, .live, .live] ∧ StaysEnded x.2 := by
  obtain ⟨x, hx, hsent⟩ : ∃ x, Lib.Reach (stepLive sampleEvent)
      (fun x a => beatsBeforeEnd x.1 a = true) FreshLive x ∧ x.2 = [.ended, .live, .live] :=
    Lib.exists_reach_guarded ({}, []) beatInTime rfl (by decide +kernel)
  exact ⟨x, hsent, pointer_stays_ended sampleEvent hx⟩

/-- The same call, sent after it. -/
def beatTooLate : List Action :=
  goLive ++ [Action.heartbeat 3, .stopUploaders, .clearError, .queueEnded 5, .dequeueManifest,
    .putManifest true, .flushEnd, .stopPublisher, .joinPublisher, .publishEnded true 6,
    .putHeartbeat true]

/-- `live` follows `ended`, and it is what the bucket keeps. -/
theorem revived : ∃ x : World × List Status,
    Lib.Reach (stepLive sampleEvent) Lib.anyStep FreshLive x ∧ ¬StaysEnded x.2 ∧
      (x.1.store.live "main-auditorium").map (·.status) = some .live :=
  Lib.exists_reach ({}, []) beatTooLate rfl (by decide +kernel)

end Multisite

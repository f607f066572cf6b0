import Multisite.Session.Puts

/-!
The cues of an event (`Session::add_marker`).

A call adds its cue to the list in memory and then writes the whole list to
`markers.json`, one request at a time and each with the list as it is then.  A
`Session` starts with an empty list, and `resume` reads back the event's other
documents but not this one.

* `cue_lost`: a run in which the first cue after a resume overwrites the one stored
  before the crash;
* `cues_kept`: where no event is resumed that has a cue stored, every list written
  holds every cue that was ever stored.
-/

namespace Multisite

/-- The world with a session's cues: `m_markers`, the calls of `add_marker` that
have added their cue and not written it yet, and the list being written.  `ever`
is read by no step: the cues that have been stored. -/
structure Cued where
  world : World := {}
  markers : List Marker := []
  waiting : ℕ := 0
  sending : Option (List Marker) := none
  ever : List Marker := []

/-- What an operator gives `add_marker`, with what it stamps on the cue: the media
position of the live edge, the clock, and the id it makes. -/
structure CueArgs where
  label : String
  type : String := "cue"
  author : String := ""
  mediaMs : ℤ := 0
  id : String
  deriving DecidableEq, Repr

/-- One step of a session, or of a call of `add_marker`. -/
inductive CueAction where
  | session (a : Action)
  /-- The cue is added to the list. -/
  | addMarker (args : CueArgs) (now : ℤ)
  /-- `m_markers_put_mtx` is taken and the list read. -/
  | readMarkers
  /-- The PUT is answered. -/
  | putMarkers (ok : Bool)
  deriving DecidableEq, Repr

/-- The cue `add_marker` makes. -/
def CueArgs.marker (args : CueArgs) (seq : ℕ) (now : ℤ) : Marker :=
  { seq, atMs := now, atMediaMs := args.mediaMs, type := args.type, label := args.label
    id := args.id, author := args.author }

/-- The cues in memory after a step of the session: a `Session` that is gone took
them with it, one that is constructed has none, and `start_new` clears them. -/
def Cued.after (c : Cued) (a : Action) (w : World) : Cued :=
  match w.machine, a with
  | .up _, .startNew _ _ _ => { c with world := w, markers := [] }
  | .up _, _ => { c with world := w }
  | _, _ => { world := w, ever := c.ever }

@[simp] lemma Cued.world_after (c : Cued) (a : Action) (w : World) : (c.after a w).world = w := by
  unfold Cued.after
  split <;> rfl

/-- **One step** of the world with its cues. -/
def Cued.step (ev : Event) (c : Cued) : CueAction → Option Cued
  | .session a => (Multisite.step ev c.world a).map (c.after a)
  | .addMarker args now =>
      match c.world.machine with
      | .up p =>
          some { c with
            markers := c.markers ++ [args.marker p.nextSeq now], waiting := c.waiting + 1 }
      | _ => none
  | .readMarkers =>
      if c.waiting ≠ 0 ∧ c.sending = none then
        some { c with waiting := c.waiting - 1, sending := some c.markers }
      else none
  | .putMarkers ok =>
      match c.sending with
      | none => none
      | some l =>
          if ok then
            some { c with
              sending := none
              world := { c.world with
                store := c.world.store.put (.markers ev.id) (.markers l) }
              ever := l ++ c.ever }
          else some { c with sending := none }

/-- Before the event. -/
def Cued.Fresh (c : Cued) : Prop := c = {}

/-- The list being written holds every cue that was ever stored. -/
def CuesKept (c : Cued) : Prop := ∀ l, c.sending = some l → ∀ m ∈ c.ever, m ∈ l

instance (c : Cued) : Decidable (CuesKept c) :=
  decidable_of_iff (∀ l ∈ c.sending, ∀ m ∈ c.ever, m ∈ l) (by simp [CuesKept])

/-- No event is resumed that has a cue stored. -/
def resumesBare (ev : Event) (c : Cued) : CueAction → Bool
  | .session (.resume _ _ _ _) => (c.world.store.markers ev.id).isEmpty
  | _ => true

/-! ### The invariant -/

/-- The calls of `add_marker` are calls of a running session. -/
structure Cued.Sound (ev : Event) (c : Cued) : Prop where
  sound : Multisite.Sound ev c.world
  running : c.waiting ≠ 0 ∨ c.sending ≠ none → ∃ p, c.world.machine = .up p

/-- What is stored is stored for good, and a running session knows it. -/
structure CuesKnown (ev : Event) (c : Cued) : Prop extends Cued.Sound ev c where
  stored : ∀ m ∈ c.ever, m ∈ c.world.store.markers ev.id
  markers : ∀ p, c.world.machine = .up p → ∀ m ∈ c.ever, m ∈ c.markers
  sent : ∀ l, c.sending = some l → ∀ m ∈ l, m ∈ c.markers
  kept : CuesKept c

variable {ev : Event} {c c' : Cued} {a : CueAction}

/-- No step of the session writes `markers.json`. -/
lemma step_markers {w w' : World} {a : Action} (hs : Sound ev w) (h : step ev w a = some w') :
    w'.store.markers ev.id = w.store.markers ev.id := by
  have hkey : w'.store (.markers ev.id) = w.store (.markers ev.id) := by
    refine store_of_step hs h rfl fun call hcall => ?_
    rcases putCalls_key hcall with ⟨r, hr⟩ | ⟨r, hr⟩ | hr | hr | hr <;> rw [hr] <;> simp
  rw [Store.markers, Store.markers, hkey]

/-- Another object in the bucket of an event that has begun. -/
lemma Sound.withStore {w : World} (hs : Sound ev w) (hb : w.begun = true) (st : Store) :
    Sound ev { w with store := st } where
  fresh hf := absurd (hf.symm.trans hb) (by simp)
  opened := hs.opened
  calm := hs.calm
  sidecars := hs.sidecars
  hands := hs.hands

lemma Sound.begun_of_up {w : World} (hs : Sound ev w) {p : Proc} (hm : w.machine = .up p) :
    w.begun = true := by
  by_contra hb
  exact (hs.fresh (by simpa using hb)).2.2.2 p hm

/-- A session begins only by `start_new` or by a `resume`. -/
lemma up_of_step {w w' : World} {a : Action} {p : Proc} (h : step ev w a = some w')
    (hp : w'.machine = .up p) : (∃ p₀, w.machine = .up p₀) ∨
      (∃ args puts now, a = .startNew args puts now ∧ w.begun = false) ∨
      ∃ args reads puts now, a = .resume args reads puts now := by
  rcases step_cases h with ⟨-, -, rfl⟩ | ⟨s, b, -, -, rfl⟩ | ⟨a', n, e, -, -, -, rfl⟩ | ⟨e, he, rfl⟩
  · exact absurd hp (by simp)
  · exact Or.inl ⟨p, hp⟩
  · exact absurd hp (by simp [World.cutAfter])
  · cases hm : w.machine with
    | up p₀ => exact Or.inl ⟨p₀, rfl⟩
    | down =>
        cases a <;> simp only [World.plan, hm, reduceCtorEq] at he
        obtain rfl := Option.some.inj he
        exact absurd hp (by simp [World.after])
    | opened cfg q =>
        cases a <;> simp only [World.plan, hm, reduceCtorEq] at he
        · split at he
          · rename_i hb
            exact Or.inr (Or.inl ⟨_, _, _, rfl, by simpa using hb⟩)
          · exact absurd he (by simp)
        · exact Or.inr (Or.inr ⟨_, _, _, _, rfl⟩)

lemma Cued.Sound.step (h : c.Sound ev) (ht : c.step ev a = some c') : c'.Sound ev := by
  cases a with
  | session a =>
      obtain ⟨w, hw, rfl⟩ := Option.map_eq_some_iff.mp ht
      refine ⟨by rw [Cued.world_after]; exact h.sound.step hw, fun hrun => ?_⟩
      rw [Cued.world_after]
      unfold Cued.after at hrun
      split at hrun
      · rename_i p _ _ _ hp
        exact ⟨p, hp⟩
      · rename_i p hp _
        exact ⟨p, hp⟩
      · exact absurd hrun (by simp)
  | addMarker args now =>
      simp only [Cued.step] at ht
      split at ht
      · rename_i p hp
        obtain rfl := Option.some.inj ht
        exact ⟨h.sound, fun _ => ⟨p, hp⟩⟩
      · exact absurd ht (by simp)
  | readMarkers =>
      simp only [Cued.step] at ht
      split at ht
      · rename_i hwait
        obtain rfl := Option.some.inj ht
        exact ⟨h.sound, fun _ => h.running (Or.inl hwait.1)⟩
      · exact absurd ht (by simp)
  | putMarkers ok =>
      simp only [Cued.step] at ht
      split at ht
      · exact absurd ht (by simp)
      · rename_i l hl
        obtain ⟨p, hp⟩ := h.running (Or.inr (by simp [hl]))
        split at ht <;> obtain rfl := Option.some.inj ht
        · exact ⟨h.sound.withStore (h.sound.begun_of_up hp) _, fun _ => ⟨p, hp⟩⟩
        · exact ⟨h.sound, fun _ => ⟨p, hp⟩⟩

lemma Cued.Fresh.sound (ev : Event) (h : c.Fresh) : c.Sound ev := by
  subst h
  exact ⟨sound_fresh ev rfl, fun hr => absurd hr (by simp)⟩

/-- A step of the session. -/
lemma CuesKnown.session {a : Action} {w : World} (h : CuesKnown ev c)
    (hc : resumesBare ev c (.session a) = true) (ht : step ev c.world a = some w) :
    CuesKnown ev (c.after a w) := by
  have hsound : (c.after a w).Sound ev :=
    h.toSound.step (a := .session a) (Option.map_eq_some_iff.mpr ⟨w, ht, rfl⟩)
  have hstored : ∀ m ∈ c.ever, m ∈ w.store.markers ev.id := by
    rw [step_markers h.sound ht]
    exact h.stored
  -- a session that begins here finds no cue stored
  have hnew : ∀ p, w.machine = .up p → (∀ p₀, c.world.machine ≠ .up p₀) → c.ever = [] := by
    intro p hp hdown
    have hnone : c.world.store.markers ev.id = [] → c.ever = [] := by
      intro hempty
      refine List.eq_nil_iff_forall_not_mem.mpr fun m hm => ?_
      have := h.stored m hm
      rw [hempty] at this
      exact absurd this (by simp)
    rcases up_of_step ht hp with ⟨p₀, hp₀⟩ | ⟨args, puts, now, rfl, hb⟩ | ⟨args, reads, puts, now, rfl⟩
    · exact absurd hp₀ (hdown p₀)
    · refine hnone ?_
      rw [(h.sound.fresh hb).2.2.1]
      rfl
    · exact hnone (by simpa [resumesBare] using hc)
  have hever : ∀ p, w.machine = .up p → ∀ m ∈ c.ever, m ∈ c.markers := by
    intro p hp m hm
    by_cases hup : ∃ p₀, c.world.machine = .up p₀
    · obtain ⟨p₀, hp₀⟩ := hup
      exact h.markers p₀ hp₀ m hm
    · rw [hnew p hp fun p₀ hp₀ => hup ⟨p₀, hp₀⟩] at hm
      exact absurd hm (by simp)
  unfold Cued.after at hsound ⊢
  split at hsound
  · -- `start_new`: the event is new, so nothing of it is stored or being written
    rename_i p _ _ _ hp
    have hdown : ∀ p₀, c.world.machine ≠ .up p₀ := by
      intro p₀ hp₀
      simp only [Multisite.step, plan_up hp₀, Proc.plan] at ht
      exact absurd ht (by simp)
    have hnil := hnew p hp hdown
    have hidle : c.sending = none := by
      by_contra hsend
      obtain ⟨p₀, hp₀⟩ := h.running (Or.inr hsend)
      exact hdown p₀ hp₀
    refine ⟨hsound, hstored, fun _ _ m hm => ?_, fun l hl => ?_, h.kept⟩
    · rw [show c.ever = [] from hnil] at hm
      exact absurd hm (by simp)
    · exact absurd (hidle.symm.trans hl) (by simp)
  · exact ⟨hsound, hstored, hever, h.sent, h.kept⟩
  · rename_i hdown _
    refine ⟨hsound, hstored, fun p hp => ?_, fun l hl => absurd hl (by simp), fun l hl => absurd hl (by simp)⟩
    exact absurd hp (by simpa using hdown p)

/-- **One step** keeps every cue that was stored. -/
theorem CuesKnown.step (h : CuesKnown ev c) (hc : resumesBare ev c a = true)
    (ht : c.step ev a = some c') : CuesKnown ev c' := by
  have hsound := h.toSound.step ht
  cases a with
  | session a =>
      obtain ⟨w, hw, rfl⟩ := Option.map_eq_some_iff.mp ht
      exact h.session hc hw
  | addMarker args now =>
      simp only [Cued.step] at ht
      split at ht
      · obtain rfl := Option.some.inj ht
        exact ⟨hsound, h.stored, fun p hp m hm => List.mem_append_left _ (h.markers p hp m hm),
          fun l hl m hm => List.mem_append_left _ (h.sent l hl m hm), h.kept⟩
      · exact absurd ht (by simp)
  | readMarkers =>
      simp only [Cued.step] at ht
      split at ht
      · rename_i hwait
        obtain rfl := Option.some.inj ht
        obtain ⟨p, hp⟩ := h.running (Or.inl hwait.1)
        refine ⟨hsound, h.stored, h.markers, fun l hl m hm => ?_, fun l hl m hm => ?_⟩ <;> obtain rfl := Option.some.inj hl
        · exact hm
        · exact h.markers p hp m hm
      · exact absurd ht (by simp)
  | putMarkers ok =>
      simp only [Cued.step] at ht
      split at ht
      · exact absurd ht (by simp)
      · rename_i l hl
        obtain ⟨p, hp⟩ := h.running (Or.inr (by simp [hl]))
        split at ht <;> obtain rfl := Option.some.inj ht
        · refine ⟨hsound, fun m hm => ?_, fun _ _ m hm => ?_, fun l hl => absurd hl (by simp),
            fun l hl => absurd hl (by simp)⟩
          · rw [Store.markers_put_markers]
            rcases List.mem_append.mp hm with hm | hm
            · exact hm
            · exact h.kept l hl m hm
          · rcases List.mem_append.mp hm with hm | hm
            · exact h.sent l hl m hm
            · exact h.markers p hp m hm
        · exact ⟨hsound, h.stored, h.markers, fun l hl => absurd hl (by simp), fun l hl => absurd hl (by simp)⟩

/-! ### The result -/

/-- **Cues survive.**  Where no event is resumed that has a cue stored, every list
written to `markers.json` holds every cue that was ever stored there, in every
state reached. -/
theorem cues_kept (ev : Event)
    (h : Lib.Reach (Cued.step ev) (fun c a => resumesBare ev c a = true) Cued.Fresh c) :
    CuesKept c := by
  refine (Lib.Reach.invariant (I := CuesKnown ev) ?_ ?_ h).kept
  · rintro c hfresh
    have hsound := hfresh.sound ev
    obtain rfl := hfresh
    exact ⟨hsound, fun m hm => absurd hm (by simp), fun p hp => absurd hp (by simp), fun l hl => absurd hl (by simp),
      fun l hl => absurd hl (by simp)⟩
  · exact fun _ _ _ hc hcond ht => hc.step hcond ht

/-- Going on air. -/
def cuedLive : List CueAction := goLive.map .session

/-- Two cues, the second dropped while the list with the first is being written. -/
def cuedTwice : List CueAction :=
  cuedLive ++ [CueAction.addMarker { label := "Welcome", id := "a" } 2, .readMarkers,
    .addMarker { label := "Sermon", id := "b" } 3, .putMarkers true, .readMarkers]

theorem cues_kept_twice : ∃ c : Cued, c.ever.map (·.label) = ["Welcome"] ∧
    c.sending.map (·.map (·.label)) = some ["Welcome", "Sermon"] ∧ CuesKept c := by
  obtain ⟨c, hc, hever, hsend⟩ : ∃ c, Lib.Reach (Cued.step sampleEvent)
      (fun c a => resumesBare sampleEvent c a = true) Cued.Fresh c ∧
      c.ever.map (·.label) = ["Welcome"] ∧
      c.sending.map (·.map (·.label)) = some ["Welcome", "Sermon"] :=
    Lib.exists_reach_guarded {} cuedTwice rfl (by decide +kernel)
  exact ⟨c, hever, hsend, cues_kept sampleEvent hc⟩

/-- A cue is stored, the machine fails, the event is resumed and a second cue is
dropped. -/
def cuedAcross : List CueAction :=
  cuedLive ++
    [CueAction.addMarker { label := "Welcome", id := "a" } 2, .readMarkers,
      .putMarkers true] ++
    [Action.crash, .openSession {}, .resume {} {} {} 5, .dequeueManifest, .putManifest true,
      .flushBegin, .publishLive true 6].map CueAction.session ++
    [CueAction.addMarker { label := "Sermon", id := "b" } 7, .readMarkers]

/-- The list written after the resume has lost the cue stored before the crash. -/
theorem cue_lost : ∃ c, Lib.Reach (Cued.step sampleEvent) Lib.anyStep Cued.Fresh c ∧
    ¬CuesKept c ∧ c.sending.map (·.map (·.label)) = some ["Sermon"] :=
  Lib.exists_reach {} cuedAcross rfl (by decide +kernel)

end Multisite

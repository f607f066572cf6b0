import Multisite.Session.Runs

/-!
The order of the writes: a spool file goes only after the stored manifest covers
its segment.

`upload_one` lists a segment before it clears the spool file, but the listing
only queues the manifest: the publisher's thread sends it later, and a send that
fails is not made again.

* `cleared_uncovered`: a run in which a file is cleared while the stored manifest
  does not reach its segment;
* `cleared_covered`: in a run that clears nothing before the publisher is done,
  every segment cleared is covered in every world reached.
-/

namespace Multisite

/-- The manifest is there and its live edge has reached `s`. -/
def Covers (m : Option Manifest) (s : ℕ) : Prop := ∃ x, m = some x ∧ s ≤ x.latestSeq

instance : ∀ m s, Decidable (Covers m s)
  | none, _ => isFalse (by simp [Covers])
  | some x, s => decidable_of_iff (s ≤ x.latestSeq) (by simp [Covers])

lemma covers_some {x : Manifest} {s : ℕ} : Covers (some x) s ↔ s ≤ x.latestSeq := by
  simp [Covers]

/-- Every segment cleared because the primary confirmed it is covered by the
stored manifest. -/
def ClearedCovered (ev : Event) (w : World) : Prop :=
  ∀ s ∈ w.hist.cleared, Covers (w.store.manifest ev.id) s

instance (ev : Event) (w : World) : Decidable (ClearedCovered ev w) :=
  inferInstanceAs (Decidable (∀ s ∈ w.hist.cleared, _))

/-- The publisher has nothing queued and nothing in flight. -/
def Publisher.drained (pub : Publisher) : Bool := pub.pending.isNone && pub.inFlight.isNone

/-- The confirm callback has run and `SpoolQueue::confirm` has not. -/
def UploadPc.isListed : UploadPc → Bool
  | .listed _ _ => true
  | _ => false

/-- The steps that keep the order: the primary's confirmation waits for the
publisher, the manifest that lists its segment is not lost meanwhile, and
`resume` goes on from the stored manifest when there is one. -/
def publishesFirst (ev : Event) (w : World) : Action → Bool
  | .confirm .primary _ | .crashIn (.confirm .primary _) _ =>
      match w.machine with
      | .up p => p.pub.drained
      | _ => true
  | .putManifest false =>
      match w.machine with
      | .up p => !p.up.pc.isListed || p.pub.pending.isSome
      | _ => true
  | .resume _ reads _ _ => reads.manifest || (w.store.manifest ev.id).isNone
  | _ => true

/-! ### The invariant -/

-- their equations are made here, once, and not by the first lemmas that ask for them
section
attribute [local simp] UploadPc.isListed publishesFirst
end

/-- The newest manifest handed on: queued, else in flight, else stored. -/
def Core.front (c : Core) (md : Media) : Option Manifest :=
  (c.pending.or c.inFlight).or md.manifest

/-- Without a session: the stored manifest covers what the primary confirmed. -/
structure CoveredDead (ev : Event) (md : Media) (h : History) : Prop where
  store : ∀ s ∈ h.primary, Covers md.manifest s
  cleared : ∀ s ∈ h.cleared, s ∈ h.primary
  eventId : ∀ m ∈ md.manifest, m.eventId = ev.id

/-- With a session: so does every version of the manifest, and the newest one
covers the segment just listed. -/
structure CoveredUp (ev : Event) (md : Media) (h : History) (c : Core) : Prop
    extends CoveredDead ev md h where
  inFlight : ∀ s ∈ h.primary, ∀ m ∈ c.inFlight, s ≤ m.latestSeq
  pending : ∀ s ∈ h.primary, ∀ m ∈ c.pending, s ≤ m.latestSeq
  manifest : ∀ s ∈ h.primary, s ≤ c.manifest.latestSeq
  listed : ∀ seg b, c.up = .listed seg b →
    seg.seq ≤ c.manifest.latestSeq ∧ Covers (c.front md) seg.seq
  flightId : ∀ m ∈ c.inFlight, m.eventId = ev.id
  pendingId : ∀ m ∈ c.pending, m.eventId = ev.id
  manifestId : c.manifest.eventId = ev.id

lemma CoveredDead.follows {ev : Event} {md : Media} {h h' : History} {ws : List Write}
    (hd : CoveredDead ev md h) (hf : Follows h ws h') : CoveredDead ev md h' where
  store s hs := hd.store s (hf.primary ▸ hs)
  cleared s hs := by
    rw [hf.primary]
    rcases hf.cleared s hs with hs | hs
    · exact hd.cleared s hs
    · exact hs
  eventId := hd.eventId

lemma CoveredUp.follows {ev : Event} {md : Media} {h h' : History} {c : Core} {ws : List Write}
    (hu : CoveredUp ev md h c) (hf : Follows h ws h') : CoveredUp ev md h' c :=
  { hu with
    toCoveredDead := hu.toCoveredDead.follows hf
    inFlight := fun s hs => hu.inFlight s (hf.primary ▸ hs)
    pending := fun s hs => hu.pending s (hf.primary ▸ hs)
    manifest := fun s hs => hu.manifest s (hf.primary ▸ hs) }

/-- **What a move keeps**, when the primary's confirmation finds the publisher
drained and no failed send loses the listing. -/
lemma CoveredUp.move {ev : Event} {d : Option Folder} {md md' : Media} {h h' : History}
    {c c' : Core} {a : Action} {ws : List Write} (hu : CoveredUp ev md h c)
    (hconf : ∀ now, a = .confirm .primary now → c.pending = none ∧ c.inFlight = none)
    (hfail : a = .putManifest false → ∀ seg b, c.up = .listed seg b → c.pending ≠ none)
    (mv : Move ev d md h c a c' md' h' ws) : CoveredUp ev md' h' c' := by
  cases mv with
  | quiet => exact hu
  | @back _ t pc hpc =>
      cases t with
      | second => exact { hu with }
      | primary =>
          refine { hu with listed := fun seg b hl => ?_ }
          obtain rfl : pc = .listed seg b := hl
          cases hup : c.up with
          | listed seg' b' =>
              have hback : (UploadPc.listed seg' b').Back (.listed seg b) := hup ▸ hpc
              cases hback
              exact hu.listed _ _ hup
          | _ =>
              have hback : c.up.Back (.listed seg b) := hpc
              rw [hup] at hback
              cases hback
  | @take t seg _ _ =>
      cases t with
      | primary => exact { hu with listed := fun seg b hl => absurd hl (by simp [Core.withHand]) }
      | second => exact { hu with }
  | @pass t seg n _ _ _ =>
      cases t with
      | primary => exact { hu with listed := fun seg b hl => absurd hl (by simp [Core.withHand]) }
      | second => exact { hu with }
  | put _ => exact { hu with listed := fun seg b hl => absurd hl (by simp [Core.withHand]) }
  | putSecond _ => exact { hu with }
  | @list now seg window b m hpc hm =>
      have hlatest : m.latestSeq = max c.manifest.latestSeq seg.seq := by
        rw [hm]
        exact Manifest.latestSeq_push _ _ _
      have hid : m.eventId = ev.id := by
        rw [hm]
        exact (Manifest.eventId_push _ _ _).trans hu.manifestId
      refine { hu with
        pending := fun s hs x hx => ?_, manifest := fun s hs => ?_, listed := fun seg' b' hl => ?_
        pendingId := fun x hx => ?_, manifestId := hid }
      · obtain rfl := Option.some.inj hx
        exact hlatest ▸ le_max_of_le_left (hu.manifest s hs)
      · show s ≤ m.latestSeq
        exact hlatest ▸ le_max_of_le_left (hu.manifest s hs)
      · obtain ⟨rfl, -⟩ : seg = seg' ∧ b = b' := by simpa [Core.withHand] using hl
        refine ⟨?_, covers_some.mpr ?_⟩
        · show seg.seq ≤ m.latestSeq
          exact hlatest ▸ le_max_right _ _
        · exact hlatest ▸ le_max_right _ _
      · obtain rfl := Option.some.inj hx
        exact hid
  | @confirm t now seg hpc =>
      cases t with
      | second =>
          rw [primaryOf, List.append_nil]
          exact { hu with }
      | primary =>
          obtain ⟨hpend, hfl⟩ := hconf now rfl
          have hl := hu.listed seg none hpc
          have hcov : Covers md.manifest seg.seq := by
            simpa [Core.front, hpend, hfl] using hl.2
          have hmem : ∀ s ∈ h.primary ++ [seg.seq], s ∈ h.primary ∨ s = seg.seq := by simp
          refine { hu with
            store := fun s hs => ?_, cleared := fun s hs => ?_, inFlight := fun s hs m hm => ?_
            pending := fun s hs m hm => ?_, manifest := fun s hs => ?_
            listed := fun seg' b hl' => ?_ }
          · rcases hmem s hs with hs | rfl
            · exact hu.store s hs
            · exact hcov
          · exact List.mem_append_left _ (hu.cleared s hs)
          · exact absurd hm (by simp [Core.withHand, hfl])
          · exact absurd hm (by simp [Core.withHand, hpend])
          · rcases hmem s hs with hs | rfl
            · exact hu.manifest s hs
            · exact hl.1
          · exact absurd hl' (by simp [Core.withHand])
  | @skip t now seg n _ _ =>
      cases t with
      | primary =>
          exact { hu with listed := fun seg b hl => absurd hl (by simp [Core.withHand, afterSkip]) }
      | second => exact { hu with }
  | @skipped seq hpc =>
      exact { hu with
        manifest := fun s hs => (hu.manifest s hs).trans_eq (Manifest.latestSeq_addGap _ _).symm
        listed := fun seg b hl => absurd hl (by simp [Core.withHand])
        manifestId := (Manifest.eventId_addGap _ _).trans hu.manifestId }
  | publish _ _ => exact { hu with }
  | fault _ _ _ => exact { hu with }
  | @dropped v rest _ =>
      refine { hu with
        manifest := fun s hs => (hu.manifest s hs).trans_eq (Manifest.latestSeq_addGap _ _).symm
        listed := fun seg b hl => ?_
        manifestId := (Manifest.eventId_addGap _ _).trans hu.manifestId }
      have := hu.listed seg b hl
      exact ⟨this.1.trans_eq (Manifest.latestSeq_addGap _ _).symm, this.2⟩
  | @ended now m hm =>
      subst hm
      refine { hu with
        pending := fun s hs x hx => ?_, listed := fun seg b hl => ?_, pendingId := fun x hx => ?_ }
      · obtain rfl := Option.some.inj hx
        exact hu.manifest s hs
      · exact ⟨(hu.listed seg b hl).1, covers_some.mpr (hu.listed seg b hl).1⟩
      · obtain rfl := Option.some.inj hx
        exact hu.manifestId
  | @dequeue m hpend hfl =>
      refine { hu with
        inFlight := fun s hs x hx => hu.pending s hs x (hpend ▸ hx)
        pending := fun s hs x hx => absurd hx (by simp)
        listed := fun seg b hl => ⟨(hu.listed seg b hl).1, ?_⟩
        flightId := fun x hx => hu.pendingId x (hpend ▸ hx)
        pendingId := fun x hx => absurd hx (by simp) }
      have := (hu.listed seg b hl).2
      simpa [Core.front, hpend] using this
  | @putManifest m hfl =>
      refine { hu with
        store := fun s hs => covers_some.mpr (hu.inFlight s hs m hfl)
        eventId := fun x hx => ?_
        inFlight := fun s hs x hx => absurd hx (by simp)
        listed := fun seg b hl => ⟨(hu.listed seg b hl).1, ?_⟩
        flightId := fun x hx => absurd hx (by simp) }
      · obtain rfl := Option.some.inj hx
        exact hu.flightId m hfl
      · have := (hu.listed seg b hl).2
        cases hp : c.pending <;> simpa [Core.front, hfl, hp] using this
  | @failManifest m hfl =>
      refine { hu with
        inFlight := fun s hs x hx => absurd hx (by simp)
        listed := fun seg b hl => ⟨(hu.listed seg b hl).1, ?_⟩
        flightId := fun x hx => absurd hx (by simp) }
      have := (hu.listed seg b hl).2
      cases hp : c.pending with
      | none => exact absurd hp (hfail rfl seg b hl)
      | some x => simpa [Core.front, hp] using this
  | mark => exact { hu with }
  | remove _ _ => exact { hu with }

lemma publishesFirst_confirm {ev : Event} {w : World} {p : Proc} {now : ℤ} (hm : w.machine = .up p)
    (h : publishesFirst ev w (.confirm .primary now) = true) :
    p.core.pending = none ∧ p.core.inFlight = none := by
  simp only [publishesFirst, hm, Publisher.drained, Bool.and_eq_true, Option.isNone_iff_eq_none] at h
  exact ⟨h.1, by rw [Proc.core, h.2]; rfl⟩

lemma publishesFirst_fail {ev : Event} {w : World} {p : Proc} (hm : w.machine = .up p)
    (h : publishesFirst ev w (.putManifest false) = true) :
    ∀ seg b, p.core.up = .listed seg b → p.core.pending ≠ none := by
  intro seg b hl hp
  have hl' : p.up.pc = .listed seg b := hl
  have hp' : p.pub.pending = none := hp
  simp [publishesFirst, hm, hl', hp', UploadPc.isListed] at h

lemma CoveredDead.empty (ev : Event) : CoveredDead ev (Store.empty.media ev) {} :=
  ⟨fun s hs => absurd hs (by simp), fun s hs => absurd hs (by simp), fun m hm => absurd hm (Option.not_mem_none m)⟩

/-- A session begins covered when its first manifest does not fall behind. -/
lemma CoveredDead.begun {ev : Event} {md : Media} {h : History} (hd : CoveredDead ev md h)
    {q : SpoolQueue} {n : ℕ} {m : Manifest} (hcov : ∀ s ∈ h.primary, s ≤ m.latestSeq)
    (hid : m.eventId = ev.id) : CoveredUp ev md h (Core.begun q n m) :=
  { hd with
    inFlight := fun s hs x hx => absurd hx (by simp [Core.begun])
    pending := fun s hs x hx => Option.some.inj hx ▸ hcov s hs
    manifest := hcov
    listed := fun seg b hl => absurd hl (by simp [Core.begun])
    flightId := fun x hx => absurd hx (by simp [Core.begun])
    pendingId := fun x hx => Option.some.inj hx ▸ hid
    manifestId := hid }

/-- Every run that publishes first keeps the stored manifest ahead of the
spool. -/
lemma covered_invariant (ev : Event) :
    Invariant ev (fun w a => publishesFirst ev w a = true) (fun _ => True)
      (fun _ md h => CoveredDead ev md h) (fun _ md h c => CoveredUp ev md h c) where
  init := .empty ev
  same _ h := h
  sameUp _ h := h
  opens _ hd _ hf := hd.follows hf
  starts _ _ := .empty ev
  startsUp _ hseed := (CoveredDead.empty ev).begun (fun s hs => absurd hs (by simp)) hseed.eventId
  resumes _ hd _ := hd
  resumesUp := by
    intro w args reads puts now r m _ hc hd hr hseed
    refine hd.begun (fun s hs => ?_) hseed.eventId
    -- what the primary confirmed is covered by the stored manifest, which is read
    obtain ⟨x, hx, hle⟩ := hd.store s hs
    have hx' : w.store.manifest ev.id = some x := hx
    have hread : reads.manifest = true := by simpa [publishesFirst, hx'] using hc
    have hcont : continued ev (w.store.manifest ev.id) reads = some x := by
      rw [continued, if_pos hread, hx']
      simp [hd.eventId x hx]
    rw [hseed.latestSeq, hcont]
    exact hle
  moves := by
    intro w p a c md h ws h' _ hm hc hu mv hf
    refine (hu.move (fun now ha => ?_) (fun ha => ?_) mv).follows hf
    · exact publishesFirst_confirm hm (ha ▸ hc)
    · exact publishesFirst_fail hm (ha ▸ hc)
  crash _ _ _ hu := hu.toCoveredDead
  cuts := by
    intro w p a k e c md h h' _ hm hc _ hws hu mv hf
    refine CoveredDead.follows ?_ hf
    rw [← mv.media_eq hws]
    refine (hu.move (fun now ha => ?_) (fun ha => ?_) mv).toCoveredDead
    · subst ha
      have hc' : publishesFirst ev w (.confirm .primary now) = true := hc
      exact publishesFirst_confirm hm hc'
    · subst ha
      generalize e.writes = ws at hws mv
      cases mv <;> exact absurd rfl hws

/-! ### The result -/

/-- **No unlisted media.**  In a run that publishes first, every segment cleared
from the spool because the primary confirmed it is covered by the stored
manifest, in every world reached. -/
theorem cleared_covered (ev : Event) {w : World}
    (h : ReachedBy ev (publishesFirst ev) w) : ClearedCovered ev w := by
  have hinv := (covered_invariant ev).reach (fun _ => trivial) h
  have hdead : CoveredDead ev (w.store.media ev) w.hist := by
    rw [Holds] at hinv
    split at hinv
    · exact hinv.toCoveredDead
    · exact hinv
  exact fun s hs => hdead.store s (hdead.cleared s hs)

/-- One segment, cleared after the manifest that lists it has landed. -/
def clearedInOrder : List Action :=
  goLive ++ [Action.publishSegment [1] 6 0 1 none, .peek .primary, .mayUpload .primary,
    .checkFloor .primary, .putSegment .primary .ok, .onConfirmed 1, .dequeueManifest,
    .putManifest true, .confirm .primary 1]

theorem cleared_covered_inOrder :
    ∃ w, w.hist.cleared = [0] ∧ ClearedCovered sampleEvent w := by
  obtain ⟨w, hw, hcleared⟩ : ∃ w, ReachedBy sampleEvent (publishesFirst sampleEvent) w ∧
      w.hist.cleared = [0] :=
    Lib.exists_reach_guarded {} clearedInOrder rfl (by decide +kernel)
  exact ⟨w, hcleared, cleared_covered sampleEvent hw⟩

/-- Two segments uploaded and cleared while the publisher's thread waits, and
then a crash. -/
def clearedEarly : List Action :=
  goLive ++ [Action.publishSegment [1] 6 0 1 none, .publishSegment [2] 6 6 1 none] ++
    uploadOne ++ uploadOne ++ [Action.crash]

/-- The second segment is cleared and the stored manifest stops before it. -/
theorem cleared_uncovered :
    ∃ w, Reached sampleEvent w ∧ ¬ClearedCovered sampleEvent w :=
  Lib.exists_reach {} clearedEarly rfl (by decide +kernel)

end Multisite

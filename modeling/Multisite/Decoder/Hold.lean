import Multisite.Decoder.Steps

/-!
An event that finishes while it is watched is held (`poll`, `pin_event`, `unpin`).

A poll that reads a manifest marked ended pins the event it follows, so that the next event
of the room does not take its place; `m_end_hold_done` lets it do so once, and `unpin` sets
it, so that the event an operator lets go of is not held again.  A change of the loaded
event clears it.

* `finished_held`: with `hold_finished_event`, an event first reported ended while it is
  followed unpinned, and not let go of since it was loaded, stays the current event until
  the operator chooses; and one that was let go of is not held while it is loaded;
* `finished_stolen`: an `unpin` while the event was still live is such a letting go: the
  event is not held when it ends; and once another event was loaded an event that was let
  go of is held anew.
-/

namespace Multisite

open DecoderSession

/-! ### The statement -/

/-- The rest of this poll reads a manifest that is marked ended. -/
def DecoderSession.reportsEnded (s : DecoderSession) (r : PollReplies) : Bool :=
  match s.net with
  | .pollingEvent _ _ _ _ =>
      r.manifest.success && (r.manifest.body.any fun m =>
        protocolReadable m.protocolVersion && decide (m.status = Status.ended))
  | _ => false

/-- What a run has seen.  `fresh`: the event was neither reported ended nor let go of since
it was loaded; `letGo`: it was let go of.  `held` and `reported` are the event that a poll
reported ended while it was followed unpinned, the operator having chosen nothing since: for
`held` it was fresh then, for `reported` it had never been reported ended before.  `freed`
are the events let go of while they were held. -/
structure Endings where
  fresh : Bool := true
  letGo : Bool := false
  held : Option String := none
  ended : List String := []
  reported : Option String := none
  freed : List String := []
  deriving DecidableEq

/-- The notes after a step. -/
def Endings.note (s : DecoderSession) (a : DecoderAction) (n : Endings) : Endings :=
  match a with
  | .readLive r => if s.changesEvent r then { n with fresh := true, letGo := false } else n
  | .readEvent r =>
      if s.reportsEnded r then
        { n with
          fresh := false
          held := if n.fresh ∧ s.pinnedEventId = "" then some s.eventId else n.held
          ended := s.eventId :: n.ended
          reported :=
            if s.eventId ∉ n.ended ∧ s.pinnedEventId = "" then some s.eventId else n.reported }
      else n
  | .pinEvent _ => { n with held := none, reported := none }
  | .unpin =>
      { n with
        fresh := false
        letGo := true
        held := none
        reported := none
        freed := n.held.toList ++ n.freed }
  | _ => n

/-! ### The latch -/

/-- What decides over the hold. -/
structure Latch where
  eventId : String
  pinnedEventId : String
  endHoldDone : Bool

/-- The latch of this session. -/
def DecoderSession.latch (s : DecoderSession) : Latch :=
  { eventId := s.eventId, pinnedEventId := s.pinnedEventId, endHoldDone := s.endHoldDone }

section Latch

variable {cfg : DecoderConfig} {s t : DecoderSession} {a : DecoderAction} {n : Endings}

/-- The steps that may change the latch. -/
def DecoderAction.isLatch : DecoderAction → Bool
  | .readLive _ | .readEvent _ | .pinEvent _ | .unpin => true
  | _ => false

/-- Only a poll and the operator's choice of an event touch the latch. -/
lemma latch_of_other (h : Steps cfg s a t) (ha : a.isLatch = false) : t.latch = s.latch := by
  cases hpolls : a.polls with
  | false =>
      have hpin : a.isPin = false := by
        cases a <;> first | rfl | simp [DecoderAction.isLatch] at ha
      have hkept := polled_of_other h hpolls hpin
      exact congrArg (fun p : Polled => Latch.mk p.eventId p.pinnedEventId p.endHoldDone) hkept
  | true =>
      cases h with
      | poll =>
          rw [noteStalled]
          split <;> rfl
      | _ => simp [DecoderAction.isLatch, DecoderAction.polls] at ha hpolls

/-- What the second part of a poll does to the latch. -/
lemma latch_pollLive {now : ℤ} {pinned : String} {r : Reply (Option LivePointer)}
    (hpc : s.net = .pollingLive now pinned) :
    (s.pollLive now pinned r).latch =
      if s.changesEvent r then
        { s.latch with eventId := pollTarget pinned (readLive r).1, endHoldDone := false }
      else s.latch := by
  simp only [pollLive, changesEvent, hpc]
  by_cases h0 : pollTarget pinned (readLive r).1 = ""
  · simp only [h0, if_true, ne_eq, not_true_eq_false, decide_false, Bool.false_and,
      Bool.false_eq_true, if_false]
    rw [noTarget]
    split <;> rfl
  · by_cases h1 : pollTarget pinned (readLive r).1 = s.eventId
    · have hne : s.eventId ≠ "" := fun h => h0 (h1.trans h)
      simp [h1, hne, enterEvent, switchEvent, latch]
    · simp [h0, h1, enterEvent, switchEvent, latch]

/-- What the manifest says of the room does to the latch: an ended one sets it, and pins
the event where the latch was not set and no event is pinned. -/
lemma latch_seen {now : ℤ} {live : LivePointer} (hcfg : cfg.holdFinishedEvent = true)
    (hne : s.eventId ≠ "") :
    ((s.seeRoom cfg now live).holdFinished cfg).latch =
      if s.manifest.status = .ended then
        { s.latch with
          pinnedEventId :=
            if s.endHoldDone = false ∧ s.pinnedEventId = "" then s.eventId else s.pinnedEventId
          endHoldDone := true }
      else s.latch := by
  by_cases hended : s.manifest.status = .ended
  · simp [holdFinished, seeRoom, hended, hcfg, hne, latch]
  · have hroom : (s.seeRoom cfg now live).room ≠ .ended := by
      simp only [seeRoom, hended, if_false]
      split <;> simp
    have hsee : (s.seeRoom cfg now live).latch = s.latch := by
      simp only [seeRoom, hended, if_false]
      split <;> rfl
    rw [holdFinished, if_neg (fun h => hroom h.2), hsee, if_neg hended]

/-- What the rest of a poll does to the latch: a manifest marked ended sets it, and nothing
else touches it. -/
lemma latch_pollEvent {now : ℤ} {live : LivePointer} {id : String} {needMarkers : Bool}
    {r : PollReplies} (hcfg : cfg.holdFinishedEvent = true)
    (hpc : s.net = .pollingEvent now live id needMarkers) (hne : s.eventId ≠ "") :
    (s.pollEvent cfg now live needMarkers r).latch =
      if s.reportsEnded r then
        { s.latch with
          pinnedEventId :=
            if s.endHoldDone = false ∧ s.pinnedEventId = "" then s.eventId else s.pinnedEventId
          endHoldDone := true }
      else s.latch := by
  simp only [pollEvent, reportsEnded, hpc]
  split
  · rename_i hok
    split
    · rename_i hbody
      simp only [hbody, Option.any_none, Bool.and_false, Bool.false_eq_true, if_false]
      rfl
    · rename_i m hbody
      split
      · rename_i hread
        rw [latch_seen hcfg (by exact hne)]
        simp only [hbody, hok, hread, Option.any_some, Bool.true_and, decide_eq_true_eq,
          takeManifest]
        split <;> rfl
      · rename_i hread
        simp only [hbody, hok, hread, Option.any_some, Bool.false_and, Bool.and_false,
          Bool.false_eq_true, if_false]
        rfl
  · rename_i hok
    simp only [hok, Bool.false_and, Bool.false_eq_true, if_false]
    split <;> rfl

/-- A poll reads the pin when it starts, and only it comes to its later parts. -/
lemma polling_of_other (h : Steps cfg s a t) (ha : a.isLatch = false) :
    (∀ now pinned, t.net = .pollingLive now pinned →
      t.net = s.net ∨ pinned = s.pinnedEventId) ∧
    ∀ now live id needMarkers, t.net = .pollingEvent now live id needMarkers → t.net = s.net := by
  cases hpolls : a.polls with
  | false =>
      rcases net_of_not_polls h hpolls with hkept | hnot
      · exact ⟨fun _ _ _ => Or.inl hkept, fun _ _ _ _ _ => hkept⟩
      · exact ⟨fun _ _ hpc => by simp [hpc, NetPc.polling] at hnot,
          fun _ _ _ _ hpc => by simp [hpc, NetPc.polling] at hnot⟩
  | true =>
      cases h with
      | poll => exact ⟨by simp, by simp⟩
      | _ => simp [DecoderAction.isLatch, DecoderAction.polls] at ha hpolls

/-- A poll that goes on has an event. -/
lemma polling_pollLive (s : DecoderSession) (now : ℤ) (pinned : String)
    (r : Reply (Option LivePointer)) :
    (∀ now' pinned', (s.pollLive now pinned r).net ≠ .pollingLive now' pinned') ∧
    ∀ now' live id needMarkers, (s.pollLive now pinned r).net =
      .pollingEvent now' live id needMarkers → (s.pollLive now pinned r).eventId ≠ "" := by
  simp only [pollLive]
  split
  · rw [noTarget]
    split <;> simp
  · rename_i htarget
    refine ⟨by simp [enterEvent], fun _ _ _ _ _ => ?_⟩
    simp only [enterEvent, switchEvent]
    split
    · exact htarget
    · rename_i hsame
      exact fun h => htarget ((not_not.mp hsame).trans h)

end Latch

/-! ### Whole runs -/

/-- What the notes say of the session: the latch is set from the first report or letting go
on, and an event that is held is loaded and pinned, for the poll under way too. -/
structure EndHold (s : DecoderSession) (n : Endings) : Prop where
  latch : s.endHoldDone = !n.fresh
  letGo : n.letGo = true → n.fresh = false
  event : ∀ now live id needMarkers, s.net = .pollingEvent now live id needMarkers →
    s.eventId ≠ ""
  held : ∀ id, n.held = some id → id ≠ "" ∧ s.eventId = id ∧ s.pinnedEventId = id ∧
    ∀ now pinned, s.net = .pollingLive now pinned → pinned = id

section Runs

variable {cfg : DecoderConfig} {s t : DecoderSession} {a : DecoderAction} {n : Endings}

lemma Endings.note_other (ha : a.isLatch = false) : Endings.note s a n = n := by
  cases a <;> first | rfl | simp [DecoderAction.isLatch] at ha

lemma EndHold.of_other (h : EndHold s n) (ha : a.isLatch = false) (ht : Steps cfg s a t) :
    EndHold t (Endings.note s a n) := by
  rw [Endings.note_other ha]
  have hlatch := latch_of_other ht ha
  obtain ⟨hlive, hevent⟩ := polling_of_other ht ha
  refine ⟨(congrArg Latch.endHoldDone hlatch).trans h.latch, h.letGo, ?_, fun id hid => ?_⟩
  · intro now live id needMarkers hpc
    have hid : t.eventId = s.eventId := congrArg Latch.eventId hlatch
    rw [hid]
    exact h.event _ _ _ _ ((hevent _ _ _ _ hpc).symm.trans hpc)
  · obtain ⟨hne, hid1, hid2, hid3⟩ := h.held id hid
    refine ⟨hne, (congrArg Latch.eventId hlatch).trans hid1,
      (congrArg Latch.pinnedEventId hlatch).trans hid2, fun now pinned hpc => ?_⟩
    rcases hlive now pinned hpc with hsame | hpin
    · exact hid3 now pinned (hsame.symm.trans hpc)
    · exact hpin.trans hid2

lemma EndHold.pollLive {now : ℤ} {pinned : String} {r : Reply (Option LivePointer)}
    (h : EndHold s n) (hpc : s.net = .pollingLive now pinned) :
    EndHold (s.pollLive now pinned r) (Endings.note s (.readLive r) n) := by
  have hlatch := latch_pollLive (r := r) hpc
  obtain ⟨hlive, hevent⟩ := polling_pollLive s now pinned r
  rw [Endings.note]
  split at hlatch
  · rename_i hchange
    rw [if_pos hchange]
    refine ⟨congrArg Latch.endHoldDone hlatch, by simp, hevent, fun id hid => ?_⟩
    -- a held event is the poll's target, so no other takes its place
    obtain ⟨hne, hid1, -, hid3⟩ := h.held id hid
    have hpinned := hid3 now pinned hpc
    simp [changesEvent, hpc, hpinned, pollTarget, hne, hid1] at hchange
  · rename_i hstay
    rw [if_neg hstay]
    refine ⟨(congrArg Latch.endHoldDone hlatch).trans h.latch, h.letGo, hevent, fun id hid => ?_⟩
    obtain ⟨hne, hid1, hid2, -⟩ := h.held id hid
    exact ⟨hne, (congrArg Latch.eventId hlatch).trans hid1,
      (congrArg Latch.pinnedEventId hlatch).trans hid2, fun _ _ h => absurd h (hlive _ _)⟩

lemma EndHold.pollEvent {now : ℤ} {live : LivePointer} {id : String} {needMarkers : Bool}
    {r : PollReplies} (hcfg : cfg.holdFinishedEvent = true) (h : EndHold s n)
    (hpc : s.net = .pollingEvent now live id needMarkers) :
    EndHold (s.pollEvent cfg now live needMarkers r) (Endings.note s (.readEvent r) n) := by
  have hne := h.event _ _ _ _ hpc
  have hlatch := latch_pollEvent (r := r) hcfg hpc hne
  have hidle := (pollEvent_frame cfg s now live needMarkers r).1
  rw [Endings.note]
  split at hlatch
  · rename_i hended
    rw [if_pos hended]
    refine ⟨congrArg Latch.endHoldDone hlatch, fun _ => rfl, by simp [hidle], fun id hid => ?_⟩
    have hpin := congrArg Latch.pinnedEventId hlatch
    have hevent : (s.pollEvent cfg now live needMarkers r).eventId = s.eventId :=
      congrArg Latch.eventId hlatch
    simp only at hid
    split at hid
    · -- the first report: the event is pinned now
      rename_i hfresh
      obtain rfl := Option.some.inj hid
      refine ⟨hne, hevent, ?_, by simp [hidle]⟩
      exact hpin.trans (if_pos ⟨by rw [h.latch, hfresh.1]; rfl, hfresh.2⟩)
    · obtain ⟨hne, hid1, hid2, -⟩ := h.held id hid
      refine ⟨hne, hevent.trans hid1, ?_, by simp [hidle]⟩
      exact hpin.trans ((if_neg fun h => hne (hid2.symm.trans h.2)).trans hid2)
  · rename_i hgoes
    rw [if_neg hgoes]
    refine ⟨(congrArg Latch.endHoldDone hlatch).trans h.latch, h.letGo, by simp [hidle],
      fun id hid => ?_⟩
    obtain ⟨hne, hid1, hid2, -⟩ := h.held id hid
    exact ⟨hne, (congrArg Latch.eventId hlatch).trans hid1,
      (congrArg Latch.pinnedEventId hlatch).trans hid2, by simp [hidle]⟩

/-- **A step keeps the hold.** -/
lemma EndHold.step (hcfg : cfg.holdFinishedEvent = true) (h : EndHold s n)
    (ht : Steps cfg s a t) : EndHold t (Endings.note s a n) := by
  cases ha : a.isLatch with
  | false => exact h.of_other ha ht
  | true =>
      cases ht with
      | readLive hpc => exact h.pollLive hpc
      | readEvent hpc => exact h.pollEvent hcfg hpc
      | pinEvent => exact ⟨h.latch, h.letGo, h.event, by simp [Endings.note]⟩
      | unpin => exact ⟨rfl, fun _ => rfl, h.event, by simp [Endings.note]⟩
      | _ => exact absurd ha (by simp [DecoderAction.isLatch])

lemma endHold_reach (hcfg : cfg.holdFinishedEvent = true) {x : DecoderSession × Endings}
    (hx : Lib.Reach (Lib.noted (DecoderSession.step cfg) Endings.note) Lib.anyStep
      (fun x => ∃ folders, x = (new cfg folders, {})) x) : EndHold x.1 x.2 := by
  refine Lib.Reach.invariant (I := fun x => EndHold x.1 x.2) ?_ ?_ hx
  · rintro _ ⟨folders, rfl⟩
    exact ⟨rfl, by simp, by simp [new], by simp⟩
  · intro x a y h _ hy
    obtain ⟨ht, hn⟩ := Lib.noted_eq_some.mp hy
    rw [hn]
    exact h.step hcfg (steps_of_step ht)

end Runs

/-- **A finished event is held.**  An event that a poll reports ended while it is followed
unpinned, for the first time since it was loaded and with no `unpin` since, stays the current
event until the operator chooses; and where it was let go of since it was loaded, no poll
pins anything. -/
theorem finished_held {cfg : DecoderConfig} (hcfg : cfg.holdFinishedEvent = true)
    {x : DecoderSession × Endings}
    (hx : Lib.Reach (Lib.noted (DecoderSession.step cfg) Endings.note) Lib.anyStep
      (fun x => ∃ folders, x = (new cfg folders, {})) x) :
    (∀ id, x.2.held = some id → x.1.eventId = id) ∧
      ∀ r t, x.2.letGo = true → x.1.step cfg (.readEvent r) = some t →
        t.pinnedEventId = x.1.pinnedEventId := by
  have h := endHold_reach hcfg hx
  refine ⟨fun id hid => (h.held id hid).2.1, fun r t hgo ht => ?_⟩
  have hdone : x.1.endHoldDone = true := by rw [h.latch, h.letGo hgo]; rfl
  cases steps_of_step ht with
  | readEvent hpc =>
      have hlatch := congrArg Latch.pinnedEventId
        (latch_pollEvent (r := r) hcfg hpc (h.event _ _ _ _ hpc))
      refine hlatch.trans ?_
      split
      · exact if_neg (by simp [hdone])
      · rfl

/-- A poll that finds `live.json` naming this event, with this status. -/
def pollAs (id : String) (status : Status) : List DecoderAction :=
  [.poll 10, .readLive { body := some { eventId := id, updatedAtMs := 10 } },
    .readEvent { manifest := { body := some { status } } }]

/-- The event `"e"` ends while it is followed, and the room goes on to `"f"`. -/
theorem finished_held_over :
    ∃ x, Lib.Reach (Lib.noted (DecoderSession.step sampleDecoder) Endings.note) Lib.anyStep
        (fun x => ∃ folders, x = (new sampleDecoder folders, {})) x ∧
      (x.2.held = some "e" ∧ x.1.liveEventId = "f") ∧ x.1.eventId = "e" := by
  obtain ⟨x, hx, hheld⟩ : ∃ x : DecoderSession × Endings,
      Lib.Reach (Lib.noted (DecoderSession.step sampleDecoder) Endings.note) Lib.anyStep
        (fun x => ∃ folders, x = (new sampleDecoder folders, {})) x ∧
      (x.2.held = some "e" ∧ x.1.liveEventId = "f") :=
    Lib.exists_reach (new sampleDecoder fun _ => none, {})
      (pollAs "e" .live ++ pollAs "e" .ended ++ pollAs "f" .ended) ⟨_, rfl⟩ (by decide +kernel)
  exact ⟨x, hx, hheld, (finished_held rfl hx).1 "e" hheld.1⟩

/-- **Letting go of a live event gives up its hold**: after an `unpin` while the event is
live, its first report of the end does not keep the next event of the room from taking its
place.  And an event let go of while it was held is held again once another was loaded. -/
theorem finished_stolen :
    (∃ x, Lib.Reach (Lib.noted (DecoderSession.step sampleDecoder) Endings.note) Lib.anyStep
        (fun x => ∃ folders, x = (new sampleDecoder folders, {})) x ∧
      x.2.reported = some "e" ∧ x.1.eventId = "f") ∧
    ∃ x, Lib.Reach (Lib.noted (DecoderSession.step sampleDecoder) Endings.note) Lib.anyStep
        (fun x => ∃ folders, x = (new sampleDecoder folders, {})) x ∧
      "e" ∈ x.2.freed ∧ x.2.held = some "e" ∧ x.1.pinnedEventId = "e" :=
  ⟨Lib.exists_reach (new sampleDecoder fun _ => none, {})
      (pollAs "e" .live ++ [DecoderAction.unpin] ++ pollAs "e" .ended ++ pollAs "f" .live)
      ⟨_, rfl⟩ (by decide +kernel),
    Lib.exists_reach (new sampleDecoder fun _ => none, {})
      (pollAs "e" .live ++ pollAs "e" .ended ++ [DecoderAction.unpin] ++ pollAs "f" .live ++
        pollAs "e" .ended)
      ⟨_, rfl⟩ (by decide +kernel)⟩

end Multisite

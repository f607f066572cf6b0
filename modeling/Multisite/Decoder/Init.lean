import Multisite.Decoder.Steps

/-!
The init segment after a jump (`next_segment`, and `feed_loop` of `multisite_source.cpp`).

A host tears its decoder down when `discontinuity_id()` has changed, and a fresh decoder
needs the init segment.  `seek`, `jump_to_live`, the time seeks and an event change bump
the id and arm the init again; the three skips of `next_segment` bump the id alone.

* `init_missing`: a run in which a listed gap is met while a decoder runs, and the next
  segment comes without its init;
* `init_carried`: where a skip is made only while the init is owed, and no jump away and
  back falls into the reading of a segment, every segment after a jump carries it, and the
  host opens a decoder for each.
-/

namespace Multisite

open DecoderSession

/-! ### The statement -/

/-- What the run has handed out, newest first, each segment with the discontinuity id it
came under; and the id at the last choice of a segment. -/
structure HandedOut where
  past : List (ℕ × PlayableSegment) := []
  chosenAt : ℕ := 0
  deriving DecidableEq

/-- The notes after a step. -/
def HandedOut.note (s : DecoderSession) (a : DecoderAction) (n : HandedOut) : HandedOut :=
  { past := ((s.handed a).map fun p => (s.discontinuity, p)).toList ++ n.past
    chosenAt := if a = .nextSegment then s.nextSegment.discontinuity else n.chosenAt }

/-- The discontinuity id of the last segment handed out. -/
def HandedOut.last (n : HandedOut) : Option ℕ := n.past.head?.map (·.1)

/-- A segment under another id than the one before it, or the first, has an init. -/
def CarriesInit : List (ℕ × PlayableSegment) → Prop
  | [] => True
  | (d, p) :: rest => ((rest.head?.map (·.1)) ≠ some d → p.init ≠ []) ∧ CarriesInit rest

instance decidableCarriesInit : DecidablePred CarriesInit
  | [] => isTrue trivial
  | (_, _) :: rest =>
      have := decidableCarriesInit rest
      inferInstanceAs (Decidable (_ ∧ _))

/-- `seen_discontinuity` and `decoder_started` of the host. -/
structure FeedHost where
  seen : ℕ := 0
  started : Bool := false
  deriving DecidableEq

/-- What `feed_loop` does with a segment: a changed id tears the decoder down, and
without a decoder the init opens one; `none` when it has to throw the segment away. -/
def FeedHost.feed (h : FeedHost) (d : ℕ) (p : PlayableSegment) : Option FeedHost :=
  if (h.started && decide (d = h.seen)) || !p.init.isEmpty then some { seen := d, started := true }
  else none

/-- The host over all segments handed out. -/
def FeedHost.feedAll (h : FeedHost) : List (ℕ × PlayableSegment) → Option FeedHost
  | [] => some h
  | (d, p) :: rest => (h.feedAll rest).bind fun h => h.feed d p

/-- The head stands before something that will never come: below the floor, in a listed
gap, or at a segment refused too often. -/
def DecoderSession.skips (s : DecoderSession) : Bool :=
  decide (s.play = .playing) && s.headSet && decide (s.head ≤ s.latestSeq) &&
    (decide (s.head < s.firstAvailableSeq) || (s.manifest.gapEnd s.head).isSome ||
      (decide (s.head ∉ s.cache.index) && s.givenUp))

/-- A skip is made only while the init is owed, and a segment chosen without its init is
committed only under the id it was chosen under. -/
def owesInit (x : DecoderSession × HandedOut) : DecoderAction → Bool
  | .nextSegment => !x.1.skips || !x.1.initSent
  | .commitSegment =>
      match x.1.feed with
      | .committing c _ =>
          c.needInit || decide (x.1.head ≠ c.want) || decide (x.1.discontinuity = x.2.chosenAt)
      | _ => true
  | _ => true

/-! ### The steps -/

/-- The init is armed whenever the id moves, and stays armed until a commit. -/
def Rearms (s t : DecoderSession) : Prop :=
  t.feed = s.feed ∧ (t.initSent = true → s.initSent = true ∧ t.discontinuity = s.discontinuity)

lemma Rearms.of_playhead {s t : DecoderSession} (h : t.playhead = s.playhead) : Rearms s t :=
  ⟨congrArg Playhead.feed h, fun hi =>
    ⟨(congrArg Playhead.initSent h).symm.trans hi, congrArg Playhead.discontinuity h⟩⟩

lemma Rearms.of_control {s t : DecoderSession}
    (h : ∃ c, t.playhead = { s.playhead with control := c }) : Rearms s t := by
  obtain ⟨c, h⟩ := h
  exact ⟨congrArg Playhead.feed h, fun hi =>
    ⟨(congrArg Playhead.initSent h).symm.trans hi, congrArg Playhead.discontinuity h⟩⟩

lemma rearms_moveHead (s : DecoderSession) (seq : ℕ) : Rearms s (s.moveHead seq) := by
  refine ⟨rfl, fun hi => ?_⟩
  simp only [moveHead] at hi ⊢
  split at hi
  · exact absurd hi (by simp)
  · rename_i hj
    exact ⟨hi, if_neg hj⟩

lemma rearms_seek (s : DecoderSession) (seq : ℕ) : Rearms s (s.seek seq) := by
  rw [seek]
  split
  · exact rearms_moveHead s seq
  · exact .of_playhead rfl

lemma rearms_pollLive (s : DecoderSession) (now : ℤ) (pinned : String)
    (r : Reply (Option LivePointer)) : Rearms s (s.pollLive now pinned r) := by
  rcases s.playhead_pollLive now pinned r with h | h
  · exact .of_playhead h
  · refine ⟨congrArg Playhead.feed h, fun hi => ?_⟩
    exact absurd ((congrArg Playhead.initSent h).symm.trans hi) (by simp)

lemma rearms_start (cfg : DecoderConfig) (s : DecoderSession) : Rearms s (s.start cfg) := by
  rcases playhead_start cfg s with h | ⟨-, h⟩
  · exact .of_playhead h
  · exact ⟨congrArg Playhead.feed h, fun hi =>
      ⟨(congrArg Playhead.initSent h).symm.trans hi, congrArg Playhead.discontinuity h⟩⟩

/-- Every step but the feed's own. -/
lemma rearms_of_steps {cfg : DecoderConfig} {s t : DecoderSession} {a : DecoderAction}
    (h : Steps cfg s a t) (ha : a.isFeed = false) : Rearms s t := by
  cases h with
  | poll => exact .of_playhead playhead_noteStalled
  | readLive => exact rearms_pollLive ..
  | readEvent => exact .of_playhead (playhead_pollEvent ..)
  | plan _ hp => exact .of_playhead (playhead_pumpPlan hp)
  | getInit => exact .of_playhead (playhead_pumpInit ..)
  | writeInit => exact .of_playhead (playhead_pumpInitWrite ..)
  | getSegment => exact .of_playhead (playhead_pumpSegment ..)
  | writeSegment => exact .of_playhead (playhead_pumpWrite ..)
  | indexSegment => exact .of_playhead rfl
  | commitDownloads => exact .of_playhead rfl
  | start => exact rearms_start cfg s
  | pause => exact .of_playhead rfl
  | resume => exact .of_playhead rfl
  | jumpToLive => exact rearms_moveHead s _
  | requestInit => exact ⟨rfl, fun hi => absurd hi (by simp [requestInit])⟩
  | seek => exact rearms_seek s _
  | pinEvent => exact .of_playhead rfl
  | unpin => exact .of_playhead rfl
  | seekToMediaMs => exact .of_control (playhead_seekToMediaMs _)
  | seekToWallMs => exact .of_control (playhead_seekToWallMs ..)
  | jumpToMarker => exact .of_control (playhead_jumpToMarker _)
  | seat =>
      simp only [seat]
      split
      · exact rearms_moveHead s _
      · exact .of_control ⟨_, rfl⟩
  | wallSeek =>
      rw [wallSeek]
      split
      · exact rearms_moveHead s _
      · exact .of_control (playhead_wallFailed ..)
  | skip => exact ⟨rfl, fun hi => ⟨hi, rfl⟩⟩
  | fallBack => exact rearms_seek s _
  | _ => simp [DecoderAction.isFeed] at ha

/-- Where there is nothing to skip, the head is at the floor at least, in no gap, and
not given up. -/
lemma not_skips {s : DecoderSession} (hd : s.due) (h : s.skips = false) :
    s.floorSkip = s ∧ s.manifest.gapEnd s.head = none ∧
      (s.head ∉ s.cache.index → s.givenUp = false) := by
  simp only [skips, hd.1, hd.2.1, hd.2.2, decide_true, Bool.and_true, Bool.true_and,
    Bool.or_eq_false_iff, decide_eq_false_iff_not, Option.isSome_eq_false_iff, Option.isNone_iff_eq_none,
    Bool.and_eq_false_iff, not_not] at h
  obtain ⟨⟨hfloor, hgap⟩, hgiven⟩ := h
  refine ⟨if_neg hfloor, hgap, fun hm => ?_⟩
  rcases hgiven with hmem | hg
  · exact absurd hmem hm
  · exact hg

/-- The choice of a segment: the id moves only with a skip, and the init goes with the
segment when it is owed. -/
lemma nextSegment_spec {s : DecoderSession} (hpc : s.feed = .idle) :
    s.nextSegment.initSent = s.initSent ∧
      (s.skips = false → s.nextSegment.discontinuity = s.discontinuity) ∧
      (∀ c, s.nextSegment.feed.chosen? = some c → c.needInit = !s.initSent) ∧
      ∀ c init, s.nextSegment.feed ≠ .committing c init := by
  have key := s.next_nextSegment
  generalize s.nextSegment = t at key ⊢
  -- a step that leaves the thread idle has nothing to say of a chosen segment
  have idle : ∀ {u : DecoderSession}, u.feed = .idle →
      (∀ c, u.feed.chosen? = some c → c.needInit = !s.initSent) ∧
        ∀ c init, u.feed ≠ .committing c init := by
    intro u hu
    rw [hu]
    exact ⟨fun c hc => absurd hc (by simp [FeedPc.chosen?]), fun c init hc => absurd hc (by simp)⟩
  cases key with
  | notDue => exact ⟨rfl, fun _ => rfl, idle hpc⟩
  | overtaken hd hl =>
      refine ⟨initSent_floorSkip, fun hk => ?_, idle (feed_floorSkip.trans hpc)⟩
      rw [(not_skips hd hk).1]
  | gap hd hl hg =>
      refine ⟨initSent_floorSkip, fun hk => ?_, idle (feed_floorSkip.trans hpc)⟩
      rw [(not_skips hd hk).1, (not_skips hd hk).2.1] at hg
      exact absurd hg (by simp)
  | choose hd hl hg hm =>
      refine ⟨initSent_floorSkip, fun hk => ?_, fun c hc => ?_, fun c init hc => ?_⟩
      · rw [(not_skips hd hk).1]
        rfl
      · rw [← Option.some.inj hc]
        exact congrArg (!·) initSent_floorSkip
      · exact absurd hc (by simp [DecoderSession.choose])
  | refused hd hl hg hm hr =>
      refine ⟨initSent_floorSkip, fun hk => ?_, idle (feed_floorSkip.trans hpc)⟩
      rw [(not_skips hd hk).1] at hm hr
      exact absurd hr (by simp [(not_skips hd hk).2.2 hm])
  | wait hd hl hg hm hr =>
      refine ⟨initSent_floorSkip, fun hk => ?_, idle rfl⟩
      rw [(not_skips hd hk).1]
      rfl

/-! ### The invariant -/

/-- The init is owed whenever the id has moved since the last segment handed out, and a
segment chosen without it was chosen under that segment's id. -/
structure InitOwed (x : DecoderSession × HandedOut) : Prop where
  carries : CarriesInit x.2.past
  sent : x.1.initSent = true → x.2.last = some x.1.discontinuity
  chosen : ∀ c, x.1.feed.chosen? = some c → c.needInit = false → x.2.last = some x.2.chosenAt
  ready : ∀ c init, x.1.feed = .committing c init → c.needInit = true → init ≠ []

lemma InitOwed.rearm {s t : DecoderSession} {n : HandedOut} (h : InitOwed (s, n)) (ht : Rearms s t) :
    InitOwed (t, n) := by
  obtain ⟨hf, hi⟩ := ht
  refine ⟨h.carries, fun hsent => ?_, fun c hc => ?_, fun c init hc => ?_⟩
  · obtain ⟨hs, hd⟩ := hi hsent
    exact (h.sent hs).trans (congrArg some hd.symm)
  · exact h.chosen c (hf ▸ hc)
  · exact h.ready c init (hf ▸ hc)

lemma InitOwed.read {s t : DecoderSession} {n : HandedOut} (h : InitOwed (s, n))
    (ht : Reading s t) : InitOwed (t, n) := by
  have hi : t.initSent = s.initSent := congrArg Playhead.initSent ht.playhead
  have hd : t.discontinuity = s.discontinuity := congrArg Playhead.discontinuity ht.playhead
  refine ⟨h.carries, fun hsent => ?_, fun c' hc' hn => ?_, ht.ready⟩
  · exact (h.sent (hi ▸ hsent)).trans (congrArg some hd.symm)
  · obtain ⟨c, hc0, hsame⟩ := ht.chosen c' hc'
    exact h.chosen c hc0 (by rw [hsame] at hn; exact hn)

lemma InitOwed.choose {s : DecoderSession} {n : HandedOut} (h : InitOwed (s, n))
    (hpc : s.feed = .idle) (hc : owesInit (s, n) .nextSegment = true) :
    InitOwed (s.nextSegment, { n with chosenAt := s.nextSegment.discontinuity }) := by
  obtain ⟨hi, hd, hneed, hready⟩ := nextSegment_spec hpc
  -- while the init is not owed nothing is skipped, and the id stays
  have hsame : s.initSent = true → s.nextSegment.discontinuity = s.discontinuity := by
    intro hs
    refine hd ?_
    simpa [owesInit, hs] using hc
  refine ⟨h.carries, fun hsent => ?_, fun c hcs hn => ?_, fun c init hcs => ?_⟩
  · have hs : s.initSent = true := hi ▸ hsent
    exact (h.sent hs).trans (congrArg some (hsame hs).symm)
  · have hs : s.initSent = true := by
      have := hneed c hcs
      rw [hn] at this
      simpa using this.symm
    exact (h.sent hs).trans (congrArg some (hsame hs).symm)
  · exact absurd hcs (hready c init)

lemma InitOwed.commit {s : DecoderSession} {n : HandedOut} {c : Chosen} {init : Bytes}
    (h : InitOwed (s, n)) (hpc : s.feed = .committing c init)
    (hc : owesInit (s, n) .commitSegment = true) :
    InitOwed (s.nextCommit c init, HandedOut.note s .commitSegment n) := by
  have hnote : HandedOut.note s .commitSegment n =
      { n with past := ((s.returned c init).map fun p => (s.discontinuity, p)).toList ++ n.past } := by
    simp [HandedOut.note, handed, hpc]
  rw [hnote, nextCommit, returned]
  by_cases hhead : s.head = c.want
  · rw [if_pos hhead]
    -- a segment without its init is served under the id of the one before
    have hcarry : n.last ≠ some s.discontinuity → (if c.needInit then init else []) ≠ [] := by
      intro hne
      cases hneed : c.needInit
      · have hat : s.discontinuity = n.chosenAt := by simpa [owesInit, hpc, hneed, hhead] using hc
        exact absurd (h.chosen c (by rw [hpc]; rfl) hneed) (by rw [← hat]; exact hne)
      · simpa using h.ready c init hpc hneed
    refine ⟨⟨hcarry, h.carries⟩, fun _ => rfl, fun c' hc' => ?_, fun c' init' hc' => ?_⟩
    · exact absurd hc' (by simp [FeedPc.chosen?])
    · exact absurd hc' (by simp)
  · rw [if_neg hhead]
    refine ⟨h.carries, fun hsent => h.sent hsent, fun c' hc' => ?_, fun c' init' hc' => ?_⟩
    · exact absurd hc' (by simp [FeedPc.chosen?])
    · exact absurd hc' (by simp)

/-- **A step keeps it.** -/
lemma InitOwed.step {cfg : DecoderConfig} {s t : DecoderSession} {n : HandedOut} {a : DecoderAction}
    (h : InitOwed (s, n)) (hc : owesInit (s, n) a = true) (ht : s.step cfg a = some t) :
    InitOwed (t, HandedOut.note s a n) := by
  cases hfeed : a.isFeed with
  | false =>
      have hnote : HandedOut.note s a n = n := by
        cases a <;> first | rfl | exact absurd hfeed (by decide)
      rw [hnote]
      exact h.rearm (rearms_of_steps (steps_of_step ht) hfeed)
  | true =>
      cases steps_of_step ht with
      | nextSegment hpc => exact h.choose hpc hc
      | openSegment => exact h.read (reading_of_read (steps_of_step ht) rfl)
      | loadSegment => exact h.read (reading_of_read (steps_of_step ht) rfl)
      | openInit => exact h.read (reading_of_read (steps_of_step ht) rfl)
      | loadInit => exact h.read (reading_of_read (steps_of_step ht) rfl)
      | commitSegment hpc => exact h.commit hpc hc
      | _ => simp [DecoderAction.isFeed] at hfeed

/-- A fresh session has handed out nothing. -/
lemma initOwed_new (cfg : DecoderConfig) (folders : String → Option CacheFolder) :
    InitOwed (DecoderSession.new cfg folders, {}) := by
  refine ⟨trivial, fun h => ?_, fun c hc => ?_, fun c init hc => ?_⟩
  · exact absurd h (by simp [DecoderSession.new])
  · exact absurd hc (by simp [DecoderSession.new, FeedPc.chosen?])
  · exact absurd hc (by simp [DecoderSession.new])

/-- Where every segment after a jump carries its init, the host throws none away. -/
lemma feedAll_of_carriesInit {l : List (ℕ × PlayableSegment)} (h : CarriesInit l) :
    ∃ host, FeedHost.feedAll {} l = some host ∧
      ∀ d p rest, l = (d, p) :: rest → host = { seen := d, started := true } := by
  induction l with
  | nil => exact ⟨_, rfl, fun d p rest hl => absurd hl (by simp)⟩
  | cons x rest ih =>
      obtain ⟨d, p⟩ := x
      obtain ⟨hinit, hrest⟩ := h
      obtain ⟨host, hfeed, hlast⟩ := ih hrest
      have hopen : ((host.started && decide (d = host.seen)) || !p.init.isEmpty) = true := by
        cases rest with
        | nil =>
            have : p.init ≠ [] := hinit (by simp)
            simpa [List.isEmpty_iff] using Or.inr this
        | cons y rest =>
            obtain ⟨d', p'⟩ := y
            rw [hlast d' p' rest rfl]
            by_cases hd : d = d'
            · simp [hd]
            · have : p.init ≠ [] := hinit (by simpa using Ne.symm hd)
              simpa [List.isEmpty_iff] using Or.inr this
      refine ⟨{ seen := d, started := true }, ?_, ?_⟩
      · simp only [FeedHost.feedAll, hfeed, Option.bind_some, FeedHost.feed, hopen, if_true]
      · rintro d' p' rest' hl
        obtain ⟨hd, -⟩ := List.cons.inj hl
        rw [(Prod.mk.inj hd).1]

/-- **The init after every jump.**  In every run in which skips are made only while the
init is owed, and a segment chosen without its init is committed only under the id it was
chosen under, every segment handed out under an id other than the one before it carries a
non-empty init, and the host opens a decoder for it. -/
theorem init_carried (cfg : DecoderConfig) {x : DecoderSession × HandedOut}
    (h : Lib.Reach (Lib.noted (step cfg) HandedOut.note) (fun x a => owesInit x a = true)
      (fun x => ∃ folders, x = (DecoderSession.new cfg folders, {})) x) :
    CarriesInit x.2.past ∧ (FeedHost.feedAll {} x.2.past).isSome := by
  have key : InitOwed x := by
    refine h.invariant ?_ ?_
    · rintro _ ⟨folders, rfl⟩
      exact initOwed_new cfg folders
    · rintro ⟨s, n⟩ a ⟨t, n'⟩ hs hc ht
      obtain ⟨ht, rfl⟩ := Lib.noted_eq_some.mp ht
      exact hs.step hc ht
  obtain ⟨host, hfeed, -⟩ := feedAll_of_carriesInit key.carries
  exact ⟨key.carries, by rw [hfeed]; rfl⟩

/-! ### Runs -/

/-- A recording of three segments, the second of them lost before it was sent. -/
def gapRecording : Manifest :=
  { eventId := "e", status := .ended, updatedAtMs := 1, startedAtMs := 1, latestSeq := 2
    gaps := [(1, 1)] }

theorem init_carried_sought : ∃ x : DecoderSession × HandedOut,
    (CarriesInit x.2.past ∧ (FeedHost.feedAll {} x.2.past).isSome) ∧
      x.2.past.map (·.2.seq) = [2, 0] ∧ x.1.discontinuity = 2 := by
  obtain ⟨x, hx, hp⟩ := (Lib.exists_reach_guarded
    (DecoderSession.new sampleDecoder fun _ => none, ({} : HandedOut))
    (playFirst gapRecording [0, 2] ++ [DecoderAction.seek 2] ++ serve true) ⟨_, rfl⟩
    (by decide +kernel) :
    ∃ x, Lib.Reach (Lib.noted (step sampleDecoder) HandedOut.note) (fun x a => owesInit x a = true)
      (fun x => ∃ folders, x = (DecoderSession.new sampleDecoder folders, {})) x ∧
      x.2.past.map (·.2.seq) = [2, 0] ∧ x.1.discontinuity = 2)
  exact ⟨x, init_carried sampleDecoder hx, hp⟩

/-- A gap met while a decoder runs: the segment after it comes under a new id, without
its init, and the host has to throw it away. -/
theorem init_missing : ∃ x : DecoderSession × HandedOut,
    Lib.Reach (Lib.noted (step sampleDecoder) HandedOut.note) Lib.anyStep
      (fun x => ∃ folders, x = (DecoderSession.new sampleDecoder folders, {})) x ∧
      ¬ CarriesInit x.2.past ∧ FeedHost.feedAll {} x.2.past = none :=
  Lib.exists_reach (DecoderSession.new sampleDecoder fun _ => none, ({} : HandedOut))
    (playFirst gapRecording [0, 2] ++ [DecoderAction.nextSegment] ++ serve false) ⟨_, rfl⟩
    (by decide +kernel)

end Multisite

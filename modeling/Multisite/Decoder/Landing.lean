import Multisite.Decoder.Init

/-!
A time seek lands inside a segment: `m_pending_skip_ms`, set by `seek_to_media_ms` and
`seek_to_wall_ms` and used up by the next segment served.

* `skip_lands`: where the head is moved otherwise only while no skip is pending, where no
  segment is being read at the place a time seek lands, where `next_segment` keeps out of
  the gap between the two locks of `seek_to_wall_ms`, and where the segment is no shorter
  than the seek reckoned, a skip is used only by the segment it was meant for, within that
  segment, and no time seek loses its skip;
* `skip_strays`: a seek after a time seek carries its skip to another segment.
-/

namespace Multisite

open DecoderSession

/-! ### The statement -/

/-- Where a time seek put the head: the segment, how far into it, and the length of a
segment it reckoned with. -/
structure Landed where
  target : ℕ
  skip : ℤ
  length : ℤ
  deriving DecidableEq

/-- What a run has sought: the length the time seek under way reckons with, and the last
operation that moved or set the head, where that was a time seek. -/
structure Seeks where
  length : ℤ := 0
  last : Option Landed := none
  deriving DecidableEq

/-- The length `seek_to_wall_ms` reckons with for this moment. -/
def DecoderSession.wallLength (s : DecoderSession) (wallMs : ℤ) : ℤ :=
  ((s.manifest.segments.find? fun sg =>
      decide (0 < sg.atMs) && decide (sg.atMs ≤ wallMs) &&
        decide (wallMs < sg.atMs + msOf sg.durationS)).map fun sg => msOf sg.durationS).getD
    s.segmentMs

/-- The notes after a step. -/
def Seeks.note (cfg : DecoderConfig) (s : DecoderSession) (a : DecoderAction) (n : Seeks) :
    Seeks :=
  match a with
  | .seekToMediaMs _ => { n with length := s.segmentMs }
  | .seekToWallMs wallMs => { n with length := s.wallLength wallMs }
  | .jumpToMarker id =>
      match s.markers.find? (·.id == id) with
      | some cue => { n with length := s.wallLength cue.atMs }
      | none => n
  | .proceed =>
      match s.control with
      | .seating seq skip =>
          if s.Retains seq then { n with last := some ⟨seq, skip, n.length⟩ } else n
      | .seeking target skip _ =>
          if s.Retains target then { n with last := some ⟨target, skip, n.length⟩ } else n
      | .fallingBack target => if s.Retains target then { n with last := none } else n
      | _ => n
  | .seek seq => if s.Retains seq then { n with last := none } else n
  | .jumpToLive => { n with last := none }
  | .start =>
      if s.headSet = false ∧ (s.startPlan cfg).ready = true then { n with last := none } else n
  | .readLive r => if s.changesEvent r then { n with last := none } else n
  | .nextSegment => if s.skips then { n with last := none } else n
  | .commitSegment => if (s.handed a).isSome then { n with last := none } else n
  | _ => n

/-- Between the two locks of `seek_to_wall_ms`: the head moved, its skip not set. -/
def ControlPc.between : ControlPc → Bool
  | .skipping _ => true
  | _ => false

/-- The head may be put here without a skip: none is pending or about to be set, and no
segment of this number is being read with one. -/
def DecoderSession.FreeAt (s : DecoderSession) (head : ℕ) : Prop :=
  s.pendingSkipMs = 0 ∧ s.control.between = false ∧
    ∀ c ∈ s.feed.chosen?, c.skipMs = 0 ∨ c.want ≠ head

instance (s : DecoderSession) (head : ℕ) : Decidable (s.FreeAt head) :=
  inferInstanceAs (Decidable (_ ∧ _ ∧ _))

/-- No segment of this number is being read. -/
def DecoderSession.UnreadAt (s : DecoderSession) (seq : ℕ) : Prop :=
  ∀ c ∈ s.feed.chosen?, c.want ≠ seq

instance (s : DecoderSession) (seq : ℕ) : Decidable (s.UnreadAt seq) :=
  inferInstanceAs (Decidable (∀ c ∈ s.feed.chosen?, c.want ≠ seq))

/-- Where an operation under way is about to move the head, it may. -/
def ControlPc.Clean (s : DecoderSession) : ControlPc → Prop
  | .seating seq _ => s.Retains seq → s.UnreadAt seq
  | .seeking target _ _ => s.Retains target → s.UnreadAt target
  | .fallingBack target => s.Retains target → s.FreeAt target
  | _ => True

instance (s : DecoderSession) : DecidablePred (ControlPc.Clean s)
  | .seating seq _ => inferInstanceAs (Decidable (s.Retains seq → s.UnreadAt seq))
  | .seeking target _ _ => inferInstanceAs (Decidable (s.Retains target → s.UnreadAt target))
  | .fallingBack target => inferInstanceAs (Decidable (s.Retains target → s.FreeAt target))
  | .idle | .skipping _ => inferInstanceAs (Decidable True)

/-- Only a time seek moves the head under a skip that is pending; it lands where nothing is
being read; `next_segment` keeps out of the gap between its locks; and the segment it landed
in is no shorter than it reckoned. -/
def landsClean (cfg : DecoderConfig) (x : DecoderSession × Seeks) : DecoderAction → Prop
  | .readLive r => x.1.changesEvent r = true → x.1.FreeAt 0
  | .start => x.1.headSet = false → (x.1.startPlan cfg).ready = true →
      x.1.FreeAt (x.1.startPlan cfg).want
  | .jumpToLive => x.1.FreeAt
      (max (x.1.behindLive (max 0 cfg.prebufferSegments).toNat) x.1.firstAvailableSeq)
  | .seek seq => x.1.Retains seq → x.1.FreeAt seq
  | .proceed => x.1.control.Clean x.1
  | .nextSegment =>
      (x.1.due → x.1.control.between = false) ∧
      (x.1.skips = true → x.1.pendingSkipMs = 0) ∧
      ∀ l ∈ x.2.last, 0 < l.skip → (l.length : ℚ) ≤ 1000 * x.1.describe.durationS
  | _ => True

namespace DecoderSession

/-! ### What a time seek reckons -/

section Reckoning

variable {s : DecoderSession}

lemma msOf_pos {q : ℚ} (h : 1 / 10 < q) : 0 < msOf q := by
  have hden : (0 : ℚ) < (q * 1000).den := by exact_mod_cast (q * 1000).den_pos
  have hone : (1 : ℚ) ≤ ((q * 1000).num : ℚ) / (q * 1000).den := by
    rw [Rat.num_div_den]
    linarith
  have hle : ((q * 1000).den : ℚ) ≤ (q * 1000).num := by
    rwa [le_div_iff₀ hden, one_mul] at hone
  have hle' : ((q * 1000).den : ℤ) ≤ (q * 1000).num := by exact_mod_cast hle
  have hnat : 0 < (q * 1000).den := (q * 1000).den_pos
  rw [msOf, Int.tdiv_eq_ediv_of_nonneg (by omega)]
  exact Int.lt_of_lt_of_le one_pos (Int.le_ediv_of_mul_le (by omega) (by omega))

lemma segmentMs_pos (s : DecoderSession) : 0 < s.segmentMs := by
  rw [segmentMs]
  split
  · assumption
  · refine msOf_pos ?_
    rw [segmentDuration]
    split
    · assumption
    · norm_num

/-- A moment of the event is less than a segment into its segment. -/
lemma seekToMediaMs_skip {mediaMs skip : ℤ} {seq : ℕ}
    (h : (s.seekToMediaMs mediaMs).control = .seating seq skip) :
    0 ≤ skip ∧ skip < s.segmentMs := by
  have hpos := s.segmentMs_pos
  simp only [seekToMediaMs] at h
  rw [if_neg (by omega)] at h
  obtain ⟨hseq, hskip⟩ := ControlPc.seating.inj h
  have hdiv : 0 ≤ max 0 mediaMs / s.segmentMs := Int.ediv_nonneg (le_max_left _ _) hpos.le
  have hmod := Int.emod_add_mul_ediv (max 0 mediaMs) s.segmentMs
  have h0 := Int.emod_nonneg (max 0 mediaMs) hpos.ne'
  have h1 := Int.emod_lt_of_pos (max 0 mediaMs) hpos
  rw [Int.toNat_of_nonneg hdiv] at hskip
  have hcomm : max 0 mediaMs / s.segmentMs * s.segmentMs =
      s.segmentMs * (max 0 mediaMs / s.segmentMs) := Int.mul_comm _ _
  omega

/-- A moment by the clock is less than its segment's length, or a segment's, into it. -/
lemma wallTarget_skip {wallMs skip : ℤ} {target : ℕ} (h : s.wallTarget wallMs = .ok (target, skip)) :
    0 ≤ skip ∧ skip < s.wallLength wallMs := by
  have hpos := s.segmentMs_pos
  simp only [wallTarget] at h
  rw [wallLength]
  generalize hfind : s.manifest.segments.find? (fun sg =>
      decide (0 < sg.atMs) && decide (sg.atMs ≤ wallMs) &&
        decide (wallMs < sg.atMs + msOf sg.durationS)) = listed at h ⊢
  split_ifs at h with _ hbefore
  obtain ⟨-, rfl⟩ := Prod.mk.inj (Except.ok.inj h)
  cases listed with
  | some sg =>
      have hsg := List.find?_some hfind
      simp only [Bool.and_eq_true, decide_eq_true_eq] at hsg
      simp only [Option.map_some, Option.getD_some]
      omega
  | none =>
      have hafter : 0 ≤ wallMs - s.manifest.startedAtMs := by
        simpa using hbefore
      have hdiv := Int.ediv_nonneg hafter hpos.le
      have hmod := Int.emod_add_mul_ediv (wallMs - s.manifest.startedAtMs) s.segmentMs
      have h0 := Int.emod_nonneg (wallMs - s.manifest.startedAtMs) hpos.ne'
      have h1 := Int.emod_lt_of_pos (wallMs - s.manifest.startedAtMs) hpos
      have hcomm := Int.mul_comm ((wallMs - s.manifest.startedAtMs) / s.segmentMs) s.segmentMs
      simp only [Option.map_none, Option.getD_none, Int.toNat_of_nonneg hdiv]
      omega

end Reckoning

/-! ### The steps -/

section Steps

variable {cfg : DecoderConfig} {s t : DecoderSession} {a : DecoderAction}

/-- A skip of `next_segment` moves the head, and nothing else of it does. -/
lemma head_nextSegment (h : s.skips = false) : s.nextSegment.head = s.head := by
  have key := s.next_nextSegment
  generalize s.nextSegment = t at key ⊢
  cases key with
  | notDue => rfl
  | overtaken hd => rw [(not_skips hd h).1]
  | gap hd hl hg =>
      rw [(not_skips hd h).1, (not_skips hd h).2.1] at hg
      exact absurd hg (by simp)
  | choose hd =>
      rw [(not_skips hd h).1]
      rfl
  | refused hd hl hg hm hr =>
      rw [(not_skips hd h).1] at hm hr
      exact absurd hr (by simp [(not_skips hd h).2.2 hm])
  | wait hd =>
      rw [(not_skips hd h).1]
      rfl

lemma pending_floorSkip :
    s.floorSkip.pendingSkipMs = s.pendingSkipMs ∧ s.floorSkip.control = s.control := by
  rw [floorSkip]
  split <;> exact ⟨rfl, rfl⟩

/-- What is chosen is the segment at the head, with the skip that is pending. -/
lemma pending_nextSegment (hpc : s.feed = .idle) :
    s.nextSegment.pendingSkipMs = s.pendingSkipMs ∧ s.nextSegment.control = s.control ∧
      ∀ c, s.nextSegment.feed.chosen? = some c → s.due ∧ c.skipMs = s.pendingSkipMs ∧
        c.out.seq = c.want ∧ (s.skips = false → c.out.durationS = s.describe.durationS) := by
  have key := s.next_nextSegment
  generalize s.nextSegment = t at key ⊢
  have idle : ∀ {u : DecoderSession} {P : Chosen → Prop}, u.feed = .idle →
      ∀ c, u.feed.chosen? = some c → P c := by
    intro u P hu c hc
    rw [hu] at hc
    simp [FeedPc.chosen?] at hc
  obtain ⟨hpending, hcontrol⟩ := pending_floorSkip (s := s)
  have hfeed : s.floorSkip.feed = .idle := feed_floorSkip.trans hpc
  cases key with
  | notDue => exact ⟨rfl, rfl, idle hpc⟩
  | overtaken => exact ⟨hpending, hcontrol, idle hfeed⟩
  | gap => exact ⟨hpending, hcontrol, idle hfeed⟩
  | choose hd =>
      refine ⟨hpending, hcontrol, fun c hc => ?_⟩
      rw [← Option.some.inj hc]
      refine ⟨hd, hpending, rfl, fun hk => ?_⟩
      rw [(not_skips hd hk).1]
  | refused => exact ⟨hpending, hcontrol, idle hfeed⟩
  | wait => exact ⟨hpending, hcontrol, idle rfl⟩

/-- A reading of `live.json` that changes no event leaves the position alone. -/
lemma playhead_stays {now : ℤ} {pinned : String} {r : Reply (Option LivePointer)}
    (hpc : s.net = .pollingLive now pinned) (h : s.changesEvent r = false) :
    (s.pollLive now pinned r).playhead = s.playhead := by
  simp only [pollLive]
  split
  · rw [noTarget]
    split <;> rfl
  · rename_i htarget
    have hsame : pollTarget pinned (readLive r).1 = s.eventId := by
      simpa [changesEvent, hpc, htarget] using h
    simp only [enterEvent, switchEvent, hsame, ne_eq, not_true_eq_false, if_false]
    rfl

lemma playhead_switches {now : ℤ} {pinned : String} {r : Reply (Option LivePointer)}
    (hpc : s.net = .pollingLive now pinned) (h : s.changesEvent r = true) :
    (s.pollLive now pinned r).playhead =
      { s.playhead with
        head := 0, headSet := false, initSent := false, discontinuity := s.discontinuity + 1 } := by
  simp only [changesEvent, hpc, Bool.and_eq_true, decide_eq_true_eq] at h
  simp only [pollLive, h.1, if_false, enterEvent, switchEvent]
  rw [if_pos h.2]
  rfl

end Steps

end DecoderSession

/-! ### Whole runs -/

/-- A segment the seek under way skips into is as long as it reckons. -/
def ControlPc.Within (length : ℤ) : ControlPc → Prop
  | .seating _ skip | .seeking _ skip _ => 0 ≤ skip ∧ skip < length
  | _ => True

-- their equations are made here, once, and not by the first lemmas that ask for them
section
attribute [local simp] Seeks.note ControlPc.between
end

/-- The skip that is pending is that of the last time seek, if nothing moved the head since,
and a segment being read at the head carries it. -/
structure SkipHeld (s : DecoderSession) (n : Seeks) : Prop where
  within : s.control.Within n.length
  last : ∀ l ∈ n.last, s.head = l.target ∧ 0 ≤ l.skip ∧ l.skip < l.length
  settled : s.control.between = false → s.pendingSkipMs = (n.last.map Landed.skip).getD 0
  between : ∀ k, s.control = .skipping k → ∃ l ∈ n.last, l.skip = k ∧ s.UnreadAt s.head
  chosen : ∀ c ∈ s.feed.chosen?, c.out.seq = c.want ∧
    (c.want = s.head → c.skipMs = s.pendingSkipMs) ∧
    (0 < c.skipMs → (c.skipMs : ℚ) < 1000 * c.out.durationS)

section Runs

variable {cfg : DecoderConfig} {s t : DecoderSession} {a : DecoderAction} {n : Seeks}

/-- The position is the same, and the seek under way has not moved the head. -/
lemma SkipHeld.of_control {c : ControlPc} {length : ℤ} (h : SkipHeld s n)
    (ht : t.playhead = { s.playhead with control := c }) (hbetween : s.control.between = false)
    (hc : c.between = false) (hw : c.Within length) :
    SkipHeld t { n with length := length } := by
  have hhead : t.head = s.head := congrArg Playhead.head ht
  have hpending : t.pendingSkipMs = s.pendingSkipMs := congrArg Playhead.pendingSkipMs ht
  have hfeed : t.feed = s.feed := congrArg Playhead.feed ht
  have hcontrol : t.control = c := congrArg Playhead.control ht
  refine ⟨by rw [hcontrol]; exact hw, fun l hl => ?_, fun _ => ?_, fun k hk => ?_, ?_⟩
  · rw [hhead]
    exact h.last l hl
  · rw [hpending]
    exact h.settled hbetween
  · rw [hcontrol] at hk
    simp [hk, ControlPc.between] at hc
  · rw [hfeed, hhead, hpending]
    exact h.chosen

lemma SkipHeld.of_same (h : SkipHeld s n) (hhead : t.head = s.head)
    (hpending : t.pendingSkipMs = s.pendingSkipMs) (hfeed : t.feed = s.feed)
    (hcontrol : t.control = s.control) : SkipHeld t n := by
  refine ⟨?_, ?_, ?_, ?_, ?_⟩
  · rw [hcontrol]
    exact h.within
  · rw [hhead]
    exact h.last
  · rw [hcontrol, hpending]
    exact h.settled
  · rw [hcontrol, UnreadAt, hfeed, hhead]
    exact h.between
  · rw [hfeed, hhead, hpending]
    exact h.chosen

lemma SkipHeld.of_playhead (h : SkipHeld s n) (ht : t.playhead = s.playhead) : SkipHeld t n :=
  h.of_same (congrArg Playhead.head ht) (congrArg Playhead.pendingSkipMs ht)
    (congrArg Playhead.feed ht) (congrArg Playhead.control ht)

/-- The head is put elsewhere, no skip pending. -/
lemma SkipHeld.freed (h : SkipHeld s n) (hfree : s.FreeAt t.head)
    (hpending : t.pendingSkipMs = s.pendingSkipMs) (hfeed : t.feed = s.feed)
    (hcontrol : t.control = s.control ∨ t.control = .idle) :
    SkipHeld t { n with last := none } := by
  obtain ⟨h0, hbetween, hchosen⟩ := hfree
  refine ⟨?_, by simp, fun _ => hpending.trans h0, fun k hk => ?_, fun c hc => ?_⟩
  · rcases hcontrol with hc | hc
    · rw [hc]
      exact h.within
    · rw [hc]
      trivial
  · rcases hcontrol with hc | hc
    · rw [hc] at hk
      simp [hk, ControlPc.between] at hbetween
    · simp [hc] at hk
  · rw [hfeed] at hc
    obtain ⟨hseq, -, hlen⟩ := h.chosen c hc
    refine ⟨hseq, fun hw => ?_, hlen⟩
    rw [hpending, h0]
    exact (hchosen c hc).resolve_right fun hne => hne hw

/-- A time seek puts the head into a segment that is not being read. -/
lemma SkipHeld.land {seq : ℕ} {skip : ℤ} (h : SkipHeld s n) (hw : 0 ≤ skip ∧ skip < n.length)
    (hunread : s.UnreadAt seq) (hhead : t.head = seq) (hfeed : t.feed = s.feed)
    (hcontrol : t.control = .idle ∧ t.pendingSkipMs = skip ∨ t.control = .skipping skip) :
    SkipHeld t { n with last := some ⟨seq, skip, n.length⟩ } := by
  refine ⟨?_, fun l hl => ?_, fun hb => ?_, fun k hk => ?_, fun c hc => ?_⟩
  · rcases hcontrol with ⟨hc, -⟩ | hc <;> rw [hc] <;> trivial
  · obtain rfl : _ = l := Option.some.inj hl
    exact ⟨hhead, hw⟩
  · rcases hcontrol with ⟨-, hp⟩ | hc
    · exact hp
    · simp [hc, ControlPc.between] at hb
  · rcases hcontrol with ⟨hc, -⟩ | hc
    · simp [hc] at hk
    · rw [hc] at hk
      obtain rfl := ControlPc.skipping.inj hk
      refine ⟨_, rfl, rfl, fun c hc => ?_⟩
      rw [hfeed] at hc
      rw [hhead]
      exact hunread c hc
  · rw [hfeed] at hc
    obtain ⟨hseq, -, hlen⟩ := h.chosen c hc
    exact ⟨hseq, fun hw => absurd (hw.trans hhead) (hunread c hc), hlen⟩

/-- The second lock of `seek_to_wall_ms`. -/
lemma SkipHeld.settle {skip : ℤ} (h : SkipHeld s n) (hpc : s.control = .skipping skip) :
    SkipHeld { s with control := .idle, pendingSkipMs := skip } n := by
  obtain ⟨l, hl, hskip, hunread⟩ := h.between skip hpc
  refine ⟨trivial, h.last, fun _ => ?_, fun k hk => by simp at hk, fun c hc => ?_⟩
  · rw [hl, Option.map_some, Option.getD_some]
    exact hskip.symm
  · obtain ⟨hseq, -, hlen⟩ := h.chosen c hc
    exact ⟨hseq, fun hw => absurd hw (hunread c hc), hlen⟩

/-- `next_segment` chooses. -/
lemma SkipHeld.choose (h : SkipHeld s n) (hpc : s.feed = .idle)
    (hc : landsClean cfg (s, n) .nextSegment) :
    SkipHeld s.nextSegment (Seeks.note cfg s .nextSegment n) := by
  obtain ⟨hout, hzero, hlength⟩ := hc
  obtain ⟨hpending, hcontrol, hchosen⟩ := pending_nextSegment hpc
  have hwithin : s.nextSegment.control.Within n.length := by
    rw [hcontrol]
    exact h.within
  cases hskips : s.skips with
  | true =>
      have hdue : s.due := by
        by_contra hnot
        simp only [skips, Bool.and_eq_true, decide_eq_true_eq] at hskips
        exact hnot ⟨hskips.1.1.1, hskips.1.1.2, hskips.1.2⟩
      have h0 := hzero hskips
      have hbetween := hout hdue
      simp only [Seeks.note, hskips, if_true]
      refine ⟨hwithin, by simp, fun _ => hpending.trans h0, fun k hk => ?_, fun c hc => ?_⟩
      · rw [hcontrol] at hk
        simp [hk, ControlPc.between] at hbetween
      · obtain ⟨-, hskip, hseq, -⟩ := hchosen c hc
        refine ⟨hseq, fun _ => hskip.trans hpending.symm, fun hpos => ?_⟩
        have h0' : s.pendingSkipMs = 0 := h0
        omega
  | false =>
      have hhead := head_nextSegment hskips
      simp only [Seeks.note, hskips, Bool.false_eq_true, if_false]
      refine ⟨hwithin, ?_, ?_, fun k hk => ?_, fun c hc => ?_⟩
      · rw [hhead]
        exact h.last
      · rw [hcontrol, hpending]
        exact h.settled
      · rw [hcontrol] at hk
        obtain ⟨l, hl, hskip, -⟩ := h.between k hk
        refine ⟨l, hl, hskip, fun c hc => ?_⟩
        have := hout (hchosen c hc).1
        simp [hk, ControlPc.between] at this
      · obtain ⟨hdue, hskip, hseq, hdur⟩ := hchosen c hc
        refine ⟨hseq, fun _ => hskip.trans hpending.symm, fun hpos => ?_⟩
        -- the skip is that of the last time seek
        have hsettled := h.settled (hout hdue)
        cases hlast : n.last with
        | none =>
            rw [hlast] at hsettled
            simp only [Option.map_none, Option.getD_none] at hsettled
            omega
        | some l =>
            rw [hlast] at hsettled
            simp only [Option.map_some, Option.getD_some] at hsettled
            have hlen := hlength l hlast (by omega)
            have hlt : c.skipMs < l.length := by
              rw [hskip, hsettled]
              exact (h.last l hlast).2.2
            rw [hdur hskips]
            have hlt' : (c.skipMs : ℚ) < l.length := by exact_mod_cast hlt
            linarith

/-- The reading of the segment. -/
lemma SkipHeld.read (h : SkipHeld s n) (ht : Reading s t) : SkipHeld t n := by
  have hhead : t.head = s.head := congrArg Playhead.head ht.playhead
  have hpending : t.pendingSkipMs = s.pendingSkipMs := congrArg Playhead.pendingSkipMs ht.playhead
  have hcontrol : t.control = s.control := congrArg Playhead.control ht.playhead
  refine ⟨?_, ?_, ?_, fun k hk => ?_, fun c' hc' => ?_⟩
  · rw [hcontrol]
    exact h.within
  · rw [hhead]
    exact h.last
  · rw [hcontrol, hpending]
    exact h.settled
  · rw [hcontrol] at hk
    obtain ⟨l, hl, hskip, hunread⟩ := h.between k hk
    refine ⟨l, hl, hskip, fun c' hc' => ?_⟩
    obtain ⟨c, hc, hsame⟩ := ht.chosen c' hc'
    rw [hhead, hsame]
    exact hunread c hc
  · obtain ⟨c, hc, hsame⟩ := ht.chosen c' hc'
    rw [hsame, hhead, hpending]
    exact h.chosen c hc

/-- The commit: the skip is used up. -/
lemma SkipHeld.commit {c : Chosen} {init : Bytes} (h : SkipHeld s n)
    (hpc : s.feed = .committing c init) :
    SkipHeld (s.nextCommit c init) (Seeks.note cfg s .commitSegment n) := by
  have hfeed : s.feed.chosen? = some c := by rw [hpc]; rfl
  rw [nextCommit, Seeks.note]
  simp only [handed, hpc]
  split
  · rename_i hsome
    have hwant : s.head = c.want := by
      by_contra hne
      simp [returned, hne] at hsome
    have hbetween : s.control.between = false := by
      cases hcontrol : s.control with
      | skipping k =>
          obtain ⟨-, -, -, hunread⟩ := h.between k hcontrol
          exact absurd hwant.symm (hunread c hfeed)
      | _ => rfl
    refine ⟨h.within, by simp, fun _ => rfl, fun k hk => ?_, by simp [FeedPc.chosen?]⟩
    have hk : s.control = .skipping k := hk
    simp [hk, ControlPc.between] at hbetween
  · refine ⟨h.within, h.last, h.settled, fun k hk => ?_, by simp [FeedPc.chosen?]⟩
    obtain ⟨l, hl, hskip, -⟩ := h.between k hk
    exact ⟨l, hl, hskip, by simp [UnreadAt, FeedPc.chosen?]⟩

lemma SkipHeld.seek {seq : ℕ} (h : SkipHeld s n) (hc : s.Retains seq → s.FreeAt seq) :
    SkipHeld (s.seek seq) (if s.Retains seq then { n with last := none } else n) := by
  rw [DecoderSession.seek]
  split
  · rename_i hretains
    exact h.freed (hc hretains) rfl rfl (Or.inl rfl)
  · exact h

lemma SkipHeld.start (h : SkipHeld s n) (hc : landsClean cfg (s, n) .start) :
    SkipHeld (s.start cfg) (Seeks.note cfg s .start n) := by
  rw [Seeks.note, DecoderSession.start]
  cases hready : (s.startPlan cfg).ready with
  | false =>
      simp only [Bool.false_eq_true, and_false, if_false]
      exact h
  | true =>
      cases hset : s.headSet with
      | true =>
          simp only [Bool.true_eq_false, false_and, if_false, if_true]
          exact h.of_same rfl rfl rfl rfl
      | false =>
          simp only [Bool.false_eq_true, and_self, if_false, if_true]
          exact h.freed (hc hset hready) rfl rfl (Or.inl rfl)

/-- A seek by the clock that has not moved the head yet. -/
lemma SkipHeld.wall {wallMs : ℤ} {orElse : Option ℕ} (h : SkipHeld s n) (hpc : s.control = .idle) :
    SkipHeld (s.seekToWallMs wallMs orElse) { n with length := s.wallLength wallMs } := by
  have hbetween : s.control.between = false := by rw [hpc]; rfl
  rw [seekToWallMs]
  split
  · rename_i why hfail
    cases orElse with
    | none => exact h.of_control (c := .idle) rfl hbetween rfl trivial
    | some target => exact h.of_control (c := .fallingBack target) rfl hbetween rfl trivial
  · rename_i target skip hok
    exact h.of_control (c := .seeking target skip orElse) rfl hbetween rfl (wallTarget_skip hok)

/-- **A step keeps it.** -/
lemma SkipHeld.step (h : SkipHeld s n) (hc : landsClean cfg (s, n) a) (ht : Steps cfg s a t) :
    SkipHeld t (Seeks.note cfg s a n) := by
  cases ht with
  | poll => exact h.of_playhead playhead_noteStalled
  | @readLive now pinned r hpc =>
      rw [Seeks.note]
      split
      · rename_i hchange
        have hp := playhead_switches hpc hchange
        have hhead : (s.pollLive now pinned r).head = 0 := congrArg Playhead.head hp
        refine h.freed ?_ (congrArg Playhead.pendingSkipMs hp) (congrArg Playhead.feed hp)
          (Or.inl (congrArg Playhead.control hp))
        rw [hhead]
        exact hc hchange
      · rename_i hstay
        exact h.of_playhead (playhead_stays hpc (by simpa using hstay))
  | readEvent => exact h.of_playhead (playhead_pollEvent ..)
  | plan _ hp => exact h.of_playhead (playhead_pumpPlan hp)
  | getInit => exact h.of_playhead (playhead_pumpInit ..)
  | writeInit => exact h.of_playhead (playhead_pumpInitWrite ..)
  | getSegment => exact h.of_playhead (playhead_pumpSegment ..)
  | writeSegment => exact h.of_playhead (playhead_pumpWrite ..)
  | indexSegment => exact h.of_playhead rfl
  | commitDownloads => exact h.of_playhead rfl
  | nextSegment hpc => exact h.choose hpc hc
  | openSegment hpc => exact h.read (reading_of_read (Steps.openSegment hpc : Steps cfg _ _ _) rfl)
  | loadSegment hpc => exact h.read (reading_of_read (Steps.loadSegment hpc : Steps cfg _ _ _) rfl)
  | openInit hpc => exact h.read (reading_of_read (Steps.openInit hpc : Steps cfg _ _ _) rfl)
  | loadInit hpc => exact h.read (reading_of_read (Steps.loadInit hpc : Steps cfg _ _ _) rfl)
  | commitSegment hpc => exact h.commit hpc
  | start => exact h.start hc
  | pause => exact h.of_playhead rfl
  | resume => exact h.of_playhead rfl
  | jumpToLive => exact h.freed hc rfl rfl (Or.inl rfl)
  | requestInit => exact h.of_same rfl rfl rfl rfl
  | seek => exact h.seek hc
  | pinEvent => exact h.of_playhead rfl
  | unpin => exact h.of_playhead rfl
  | @seekToMediaMs mediaMs hpc =>
      have hbetween : s.control.between = false := by rw [hpc]; rfl
      have hpos := s.segmentMs_pos
      have hskip : ∀ seq skip, (s.seekToMediaMs mediaMs).control = .seating seq skip →
          0 ≤ skip ∧ skip < s.segmentMs := fun seq skip => seekToMediaMs_skip
      rw [Seeks.note]
      simp only [DecoderSession.seekToMediaMs, if_neg (by omega : ¬ s.segmentMs ≤ 0)] at hskip ⊢
      exact h.of_control rfl hbetween rfl (hskip _ _ rfl)
  | seekToWallMs hpc => exact h.wall hpc
  | @jumpToMarker id hpc =>
      have hbetween : s.control.between = false := by rw [hpc]; rfl
      rw [Seeks.note, DecoderSession.jumpToMarker]
      cases s.markers.find? (·.id == id) with
      | none => exact h
      | some cue =>
          dsimp only
          split
          · exact h.wall hpc
          · exact h.of_control (c := .fallingBack cue.seq) rfl hbetween rfl trivial
  | @seat seq skip hpc =>
      have hw := h.within
      simp only [landsClean, ControlPc.Clean, hpc] at hc hw
      simp only [Seeks.note, hpc, DecoderSession.seat]
      by_cases hretains : s.Retains seq
      · rw [if_pos hretains, if_pos (by exact hretains)]
        exact h.land hw (hc hretains) rfl rfl (Or.inl ⟨rfl, rfl⟩)
      · rw [if_neg hretains, if_neg (by exact hretains)]
        exact h.of_control (c := .idle) rfl (by rw [hpc]; rfl) rfl trivial
  | @wallSeek target skip orElse hpc =>
      have hw := h.within
      simp only [landsClean, ControlPc.Clean, hpc] at hc hw
      simp only [Seeks.note, hpc, DecoderSession.wallSeek]
      split
      · rename_i hretains
        exact h.land hw (hc hretains) rfl rfl (Or.inr rfl)
      · have hbetween : s.control.between = false := by rw [hpc]; rfl
        cases orElse with
        | none => exact h.of_control (c := .idle) rfl hbetween rfl trivial
        | some seq => exact h.of_control (c := .fallingBack seq) rfl hbetween rfl trivial
  | skip hpc =>
      simp only [Seeks.note, hpc]
      exact h.settle hpc
  | @fallBack target hpc =>
      simp only [landsClean, ControlPc.Clean, hpc] at hc
      simp only [Seeks.note, hpc, DecoderSession.seek]
      split
      · rename_i hretains
        exact h.freed (hc hretains) rfl rfl (Or.inr rfl)
      · exact h.of_control (c := .idle) rfl (by rw [hpc]; rfl) rfl trivial

lemma skipHeld_reach {x : DecoderSession × Seeks}
    (hx : Lib.Reach (Lib.noted (DecoderSession.step cfg) (Seeks.note cfg)) (landsClean cfg)
      (fun x => ∃ folders, x = (new cfg folders, {})) x) : SkipHeld x.1 x.2 := by
  refine Lib.Reach.invariant (I := fun x => SkipHeld x.1 x.2) ?_ ?_ hx
  · rintro _ ⟨folders, rfl⟩
    exact ⟨trivial, by simp, fun _ => rfl, fun k hk => by simp [new] at hk,
      by simp [new, FeedPc.chosen?]⟩
  · rintro ⟨s, n⟩ a y h hc hy
    obtain ⟨ht, hn⟩ := Lib.noted_eq_some.mp hy
    rw [hn]
    exact h.step hc (steps_of_step ht)

end Runs

/-- **A skip lands where it was sought.**  In every run whose steps meet the condition, a
segment is handed out with a skip only if the last operation that moved or set the head was
a time seek whose target is that segment, and the skip is less than the segment's length;
and the target of such a seek, if it is the next segment handed out, carries the seek's
skip. -/
theorem skip_lands {cfg : DecoderConfig} {x : DecoderSession × Seeks}
    (hx : Lib.Reach (Lib.noted (DecoderSession.step cfg) (Seeks.note cfg)) (landsClean cfg)
      (fun x => ∃ folders, x = (new cfg folders, {})) x)
    {a : DecoderAction} {p : PlayableSegment} (hp : x.1.handed a = some p) :
    (0 < p.skipToMs → (∃ l, x.2.last = some l ∧ l.target = p.seq) ∧
      (p.skipToMs : ℚ) < 1000 * p.durationS) ∧
    ∀ l, x.2.last = some l → l.target = p.seq → p.skipToMs = l.skip := by
  have h := skipHeld_reach hx
  cases a with
  | commitSegment =>
      cases hpc : x.1.feed with
      | committing c init =>
          simp only [handed, hpc, returned] at hp
          split at hp
          · rename_i hwant
            obtain ⟨hseq, hskip, hlen⟩ := h.chosen c (by rw [hpc]; rfl)
            have hbetween : x.1.control.between = false := by
              cases hcontrol : x.1.control with
              | skipping k =>
                  obtain ⟨-, -, -, hunread⟩ := h.between k hcontrol
                  exact absurd hwant.symm (hunread c (by rw [hpc]; rfl))
              | _ => rfl
            have hpending := (hskip hwant.symm).trans (h.settled hbetween)
            rw [← Option.some.inj hp]
            refine ⟨fun hpos => ⟨?_, hlen hpos⟩, fun l hl _ => ?_⟩
            · cases hlast : x.2.last with
              | none =>
                  rw [hlast] at hpending
                  have hpos : 0 < c.skipMs := hpos
                  simp only [Option.map_none, Option.getD_none] at hpending
                  omega
              | some l => exact ⟨l, rfl, by rw [← (h.last l hlast).1, hwant, hseq]⟩
            · rw [hl] at hpending
              exact hpending
          · exact absurd hp (by simp)
      | _ => simp [handed, hpc] at hp
  | _ => simp [handed] at hp

/-- A recording of two segments, loaded, started at the first and served as far as the
commit of the segment at the head. -/
def playAt (moves : List DecoderAction) : List DecoderAction :=
  pollOf { status := .ended, latestSeq := 1, startedAtMs := 1 } ++
    [DecoderAction.pumpDownloads 8 10, .getInit { body := [7] }, .writeInit true] ++
    downloadOf [0, 1] ++ [DecoderAction.commitDownloads, .start] ++ moves ++
    [DecoderAction.nextSegment, .openSegment, .loadSegment, .openInit, .loadInit]

instance (s : DecoderSession) : Decidable s.due := inferInstanceAs (Decidable (_ ∧ _ ∧ _))

instance (cfg : DecoderConfig) : ∀ x a, Decidable (landsClean cfg x a)
  | x, .readLive r => inferInstanceAs (Decidable (x.1.changesEvent r = true → x.1.FreeAt 0))
  | x, .start => inferInstanceAs (Decidable (x.1.headSet = false →
      (x.1.startPlan cfg).ready = true → x.1.FreeAt (x.1.startPlan cfg).want))
  | x, .jumpToLive => inferInstanceAs (Decidable (x.1.FreeAt _))
  | x, .seek seq => inferInstanceAs (Decidable (x.1.Retains seq → x.1.FreeAt seq))
  | x, .proceed => inferInstanceAs (Decidable (x.1.control.Clean x.1))
  | x, .nextSegment => inferInstanceAs (Decidable (
      (x.1.due → x.1.control.between = false) ∧ (x.1.skips = true → x.1.pendingSkipMs = 0) ∧
        ∀ l ∈ x.2.last, 0 < l.skip → (l.length : ℚ) ≤ 1000 * x.1.describe.durationS))
  | _, .poll _ | _, .readEvent _ | _, .pumpDownloads _ _ | _, .getInit _ | _, .writeInit _
  | _, .getSegment _ | _, .writeSegment _ | _, .indexSegment | _, .commitDownloads
  | _, .openSegment | _, .loadSegment | _, .openInit | _, .loadInit | _, .commitSegment
  | _, .pause | _, .resume | _, .requestInit | _, .pinEvent _ | _, .unpin
  | _, .seekToMediaMs _ | _, .seekToWallMs _ | _, .jumpToMarker _ =>
      inferInstanceAs (Decidable True)

/-- A seek to 6.5 s of the recording, and its segment. -/
theorem skip_lands_half :
    ∃ x, Lib.Reach (Lib.noted (DecoderSession.step sampleDecoder) (Seeks.note sampleDecoder))
        (landsClean sampleDecoder) (fun x => ∃ folders, x = (new sampleDecoder folders, {})) x ∧
      ∃ p, x.1.handed .commitSegment = some p ∧ p.skipToMs = 500 ∧
        (500 : ℚ) < 1000 * p.durationS := by
  obtain ⟨x, hx, hp⟩ : ∃ x : DecoderSession × Seeks,
      Lib.Reach (Lib.noted (DecoderSession.step sampleDecoder) (Seeks.note sampleDecoder))
        (landsClean sampleDecoder) (fun x => ∃ folders, x = (new sampleDecoder folders, {})) x ∧
      ((x.1.handed .commitSegment).any fun p => decide (p.skipToMs = 500)) = true :=
    Lib.exists_reach_guarded (new sampleDecoder fun _ => none, {})
      (playAt [.seekToMediaMs 6500, .proceed]) ⟨_, rfl⟩ (by decide +kernel)
  rw [Option.any_eq_true] at hp
  obtain ⟨p, hp, hskip⟩ := hp
  have hskip : p.skipToMs = 500 := of_decide_eq_true hskip
  have hlen := ((skip_lands hx hp).1 (by omega)).2
  rw [hskip] at hlen
  exact ⟨x, hx, p, hp, hskip, by exact_mod_cast hlen⟩

/-- **A skip strays**: after a seek to 6.5 s of the recording the operator goes back to its
first segment, and that segment is served from 0.5 s on. -/
theorem skip_strays :
    ∃ x, Lib.Reach (Lib.noted (DecoderSession.step sampleDecoder) (Seeks.note sampleDecoder))
        Lib.anyStep (fun x => ∃ folders, x = (new sampleDecoder folders, {})) x ∧
      x.2.last = none ∧
        ((x.1.handed .commitSegment).any fun p =>
          decide (p.seq = 0) && decide (p.skipToMs = 500)) = true :=
  Lib.exists_reach (new sampleDecoder fun _ => none, {})
    (playAt [.seekToMediaMs 6500, .proceed, .seek 0]) ⟨_, rfl⟩ (by decide +kernel)

end Multisite

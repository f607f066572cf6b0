import Multisite.Decoder.Landing

/-!
Seeking by media time (`seek_to_media_ms`).

The call measures a segment, divides, and then seats the head under the session's lock; the
two parts are `seekToMediaMs` and `seat` of `Decoder.Playback`, and a poll may come between
them.  What the call returns is both the position reached and the sign that it was reached.

* `seeksWell_iff`: it does all it should exactly when the position asked for is not the very
  start of an event that is still whole: there the seek comes off and the answer is zero.
-/

namespace Multisite

namespace DecoderSession

/-- What `seek_to_media_ms` returns, called in `s` and under its lock in `t`. -/
def seekAnswer (s t : DecoderSession) (mediaMs : ℤ) : ℤ :=
  let mediaMs := max 0 mediaMs
  if s.segmentMs ≤ 0 then 0
  else if t.Retains (mediaMs / s.segmentMs).toNat then mediaMs else 0

/-- The seek called in `s` comes off in `t`: the store still holds the segment it fell on. -/
def SeekLands (s t : DecoderSession) (mediaMs : ℤ) : Prop :=
  0 < s.segmentMs ∧ t.Retains (mediaMs / s.segmentMs).toNat

/-- What a call of `seek_to_media_ms` in `s` should do, which gets the lock in `t` and leaves
`u`. -/
structure SeeksWell (s t u : DecoderSession) (mediaMs : ℤ) : Prop where
  answer : s.seekAnswer t mediaMs ≠ 0 ↔ s.SeekLands t mediaMs
  position : s.SeekLands t mediaMs → s.segmentMs * u.head + u.pendingSkipMs = mediaMs
  skip : s.SeekLands t mediaMs → 0 ≤ u.pendingSkipMs ∧ u.pendingSkipMs < s.segmentMs
  held : s.SeekLands t mediaMs → u.headSet = true ∧ u.Retains u.head
  head : s.SeekLands t mediaMs → (u.head : ℤ) = mediaMs / s.segmentMs
  failed : ¬ s.SeekLands t mediaMs → u.head = t.head ∧ u.pendingSkipMs = t.pendingSkipMs ∧
    u.discontinuity = t.discontinuity ∧ u.initSent = t.initSent
  /-- The quotient and the product stay within the types they are computed in. -/
  noOverflow : 0 ≤ mediaMs / s.segmentMs ∧ mediaMs / s.segmentMs < 2 ^ 63 ∧
    0 ≤ mediaMs / s.segmentMs * s.segmentMs ∧ mediaMs / s.segmentMs * s.segmentMs < 2 ^ 63

variable {cfg : DecoderConfig} {s t u : DecoderSession} {mediaMs : ℤ}

lemma control_seekToMediaMs (h0 : 0 ≤ mediaMs) :
    (s.seekToMediaMs mediaMs).control =
      .seating (mediaMs / s.segmentMs).toNat (mediaMs - mediaMs / s.segmentMs * s.segmentMs) := by
  have hpos := s.segmentMs_pos
  have hq : 0 ≤ mediaMs / s.segmentMs := Int.ediv_nonneg h0 hpos.le
  rw [seekToMediaMs, max_eq_right h0, if_neg (not_le.mpr hpos)]
  simp only [Int.toNat_of_nonneg hq]

/-- The answer is the position asked for if the seek comes off. -/
lemma seekAnswer_of_lands (h0 : 0 ≤ mediaMs) (h : s.SeekLands t mediaMs) :
    s.seekAnswer t mediaMs = mediaMs := by
  rw [seekAnswer, max_eq_right h0, if_neg (not_le.mpr h.1), if_pos h.2]

lemma seekAnswer_of_not_lands (h0 : 0 ≤ mediaMs) (h : ¬ s.SeekLands t mediaMs) :
    s.seekAnswer t mediaMs = 0 := by
  have hpos := s.segmentMs_pos
  rw [seekAnswer, max_eq_right h0, if_neg (not_le.mpr hpos), if_neg fun hr => h ⟨hpos, hr⟩]

/-- The seek to zero comes off exactly while the store holds the first segment. -/
lemma seekLands_zero : s.SeekLands t 0 ↔ t.firstAvailableSeq = 0 := by
  rw [SeekLands, Int.zero_ediv]
  constructor
  · rintro ⟨-, hfirst, -⟩
    exact Nat.le_zero.mp hfirst
  · intro h
    exact ⟨s.segmentMs_pos, h.le, Nat.zero_le _⟩

/-- The answer tells the two ends of a seek apart but for the seek to zero. -/
lemma answer_iff (h0 : 0 ≤ mediaMs) :
    (s.seekAnswer t mediaMs ≠ 0 ↔ s.SeekLands t mediaMs) ↔
      mediaMs ≠ 0 ∨ t.firstAvailableSeq ≠ 0 := by
  by_cases hl : s.SeekLands t mediaMs
  · rw [seekAnswer_of_lands h0 hl]
    by_cases hm : mediaMs = 0
    · subst hm
      have := seekLands_zero.mp hl
      tauto
    · tauto
  · rw [seekAnswer_of_not_lands h0 hl]
    refine iff_of_true (iff_of_false (by simp) hl) ?_
    by_cases hm : mediaMs = 0
    · subst hm
      exact Or.inr fun h => hl (seekLands_zero.mpr h)
    · exact Or.inl hm

/-- What the seek leaves when the store still holds the segment. -/
lemma seat_of_retains {seq : ℕ} (skip : ℤ) (h : t.Retains seq) :
    (t.seat seq skip).head = seq ∧ (t.seat seq skip).pendingSkipMs = skip ∧
      (t.seat seq skip).headSet = true ∧ (t.seat seq skip).Retains seq := by
  have h' : ({ t with control := .idle } : DecoderSession).Retains seq := h
  unfold seat
  dsimp only
  rw [if_pos h']
  exact ⟨rfl, rfl, rfl, h⟩

/-- And when it does not. -/
lemma seat_of_not_retains {seq : ℕ} {skip : ℤ} (h : ¬ t.Retains seq) :
    (t.seat seq skip).head = t.head ∧ (t.seat seq skip).pendingSkipMs = t.pendingSkipMs ∧
      (t.seat seq skip).discontinuity = t.discontinuity ∧
      (t.seat seq skip).initSent = t.initSent := by
  have h' : ¬ ({ t with control := .idle } : DecoderSession).Retains seq := h
  unfold seat
  dsimp only
  rw [if_neg h']
  exact ⟨rfl, rfl, rfl, rfl⟩

lemma step_seating {seq : ℕ} {skip : ℤ} (h : t.control = .seating seq skip) :
    t.step cfg .proceed = some (t.seat seq skip) := by
  simp [step, stepNet, stepFeed, stepControl, h]

/-- **A seek by time** does what it should exactly when it is not to the very start of an event
whose first segment the store still holds. -/
theorem seeksWell_iff (cfg : DecoderConfig) (s t u : DecoderSession) (mediaMs : ℤ)
    (h0 : 0 ≤ mediaMs) (hmax : mediaMs < 2 ^ 63)
    (ht : t.control = (s.seekToMediaMs mediaMs).control) (hu : t.step cfg .proceed = some u) :
    s.SeeksWell t u mediaMs ↔ mediaMs ≠ 0 ∨ t.firstAvailableSeq ≠ 0 := by
  refine ⟨fun h => (answer_iff h0).mp h.answer, fun h => ?_⟩
  have hpos := s.segmentMs_pos
  have hq : 0 ≤ mediaMs / s.segmentMs := Int.ediv_nonneg h0 hpos.le
  have hprod : mediaMs / s.segmentMs * s.segmentMs ≤ mediaMs := Int.ediv_mul_le _ hpos.ne'
  have hrem : mediaMs - mediaMs / s.segmentMs * s.segmentMs < s.segmentMs := by
    have := Int.emod_lt_of_pos mediaMs hpos
    rw [Int.emod_def, mul_comm] at this
    exact this
  have hhead : ((mediaMs / s.segmentMs).toNat : ℤ) = mediaMs / s.segmentMs :=
    Int.toNat_of_nonneg hq
  rw [control_seekToMediaMs h0] at ht
  generalize hseq : (mediaMs / s.segmentMs).toNat = seq at ht hhead
  generalize hskip : mediaMs - mediaMs / s.segmentMs * s.segmentMs = skip at ht hrem
  obtain rfl := Option.some.inj ((step_seating ht).symm.trans hu)
  have hlands : s.SeekLands t mediaMs ↔ t.Retains seq := by
    rw [SeekLands, hseq]
    exact and_iff_right hpos
  constructor
  · exact (answer_iff h0).mpr h
  · intro hl
    obtain ⟨h1, h2, -⟩ := seat_of_retains skip (hlands.mp hl)
    rw [h1, h2, hhead, mul_comm]
    omega
  · intro hl
    rw [(seat_of_retains skip (hlands.mp hl)).2.1]
    omega
  · intro hl
    obtain ⟨h1, -, h3, h4⟩ := seat_of_retains skip (hlands.mp hl)
    refine ⟨h3, ?_⟩
    rw [h1]
    exact h4
  · intro hl
    rw [(seat_of_retains skip (hlands.mp hl)).1, hhead]
  · exact fun hl => seat_of_not_retains fun hr => hl (hlands.mpr hr)
  · refine ⟨hq, lt_of_le_of_lt ?_ hmax, mul_nonneg hq hpos.le, lt_of_le_of_lt hprod hmax⟩
    exact Int.ediv_le_self _ h0

/-- An event of which the first two segments have passed out of the store. -/
def sampleSeek : DecoderSession :=
  { firstAvailableSeq := 2, latestSeq := 10, measuredSegmentMs := 6000 }

theorem seeksWell_iff_sample :
    sampleSeek.SeeksWell (sampleSeek.seekToMediaMs 15000)
      ((sampleSeek.seekToMediaMs 15000).seat 2 3000) 15000 := by
  have hcontrol : (sampleSeek.seekToMediaMs 15000).control = .seating 2 3000 := by
    rw [control_seekToMediaMs (by norm_num)]
    rfl
  exact (seeksWell_iff { sha256Hex := fun _ => "" } sampleSeek (sampleSeek.seekToMediaMs 15000)
    ((sampleSeek.seekToMediaMs 15000).seat 2 3000) 15000 (by norm_num) (by norm_num) rfl
    (step_seating hcontrol)).mpr (Or.inl (by norm_num))

/-- An operator goes back to the very start of a whole recording: the head is there, and the host
is told that the moment is outside what the store holds. -/
theorem seek_start_refused :
    ∃ s t u : DecoderSession, t.control = (s.seekToMediaMs 0).control ∧
      t.step { sha256Hex := fun _ => "" } .proceed = some u ∧
      s.head = 3 ∧ u.head = 0 ∧ s.seekAnswer t 0 = 0 ∧ ¬ s.SeeksWell t u 0 := by
  let s : DecoderSession :=
    { latestSeq := 5, measuredSegmentMs := 6000, head := 3, headSet := true }
  have hcontrol : (s.seekToMediaMs 0).control = .seating 0 0 := by
    rw [control_seekToMediaMs le_rfl, Int.zero_ediv]
    rfl
  have hlands : s.SeekLands (s.seekToMediaMs 0) 0 := seekLands_zero.mpr rfl
  have hanswer : s.seekAnswer (s.seekToMediaMs 0) 0 = 0 := seekAnswer_of_lands le_rfl hlands
  exact ⟨s, s.seekToMediaMs 0, (s.seekToMediaMs 0).seat 0 0, rfl, step_seating hcontrol, rfl,
    (seat_of_retains 0 (by decide)).1, hanswer, fun h => h.answer.mpr hlands hanswer⟩

end DecoderSession

end Multisite

import Multisite.Core.Merge
import Multisite.Decoder.Seek
import Multisite.Storage.CueFiles

/-!
Where a cue is shown, and where a jump to it lands (`marker_media_ms`, `jump_to_marker`).

A display goes by `at_media_ms` first.  The jump goes by the time of day: the listed segment it
falls in or, outside the window, the one it falls in if all are of one length; and by the cue's
segment where that comes to nothing.

* `jumpCall_run`: the call, with no other thread's step in between, as one function;
* `jump_lands_iff`: exactly when the jump lands where the cue is shown;
* `cue_returns`: a cue that is set on a segment returns to it, unless another segment that is
  listed holds its time of day.
-/

namespace Multisite

namespace DecoderSession

variable (s : DecoderSession)

/-! ### The call as a whole -/

/-- `seek_to_wall_ms` from first to last: what it returns and what it leaves. -/
def wallCall (wallMs : ℤ) : ℤ × DecoderSession :=
  match s.wallTarget wallMs with
  | .error why => (0, { s with lastError := why })
  | .ok (target, skip) =>
      if s.Retains target then (wallMs, { s.moveHead target with pendingSkipMs := skip })
      else (0, { s with lastError := "that moment is not available to play" })

/-- `jump_to_marker` from first to last. -/
def jumpCall (id : String) : Bool × DecoderSession :=
  match s.markers.find? (·.id == id) with
  | none => (false, s)
  | some cue =>
      let r := s.wallCall cue.atMs
      if 0 < cue.atMs ∧ r.1 ≠ 0 then (true, r.2)
      else
        let s := if 0 < cue.atMs then r.2 else s
        (decide (s.Retains cue.seq), s.seek cue.seq)

-- their equations are made here, once, and not by the first lemmas that ask for them
section
attribute [local simp] wallCall jumpCall
end

/-! ### Where a time of day falls -/

/-- The listed segment that a time of day falls in: the first. -/
def listedAt (wallMs : ℤ) : Option ManifestSegment :=
  s.manifest.segments.find? fun sg =>
    decide (0 < sg.atMs) && decide (sg.atMs ≤ wallMs) &&
      decide (wallMs < sg.atMs + msOf sg.durationS)

/-- The segment that a time of day is taken to fall in. -/
def segmentAt (wallMs : ℤ) : ℕ :=
  ((s.listedAt wallMs).map (·.seq)).getD
    ((wallMs - s.manifest.startedAtMs) / s.segmentMs).toNat

/-- When that segment is taken to start. -/
def startAt (wallMs : ℤ) : ℤ :=
  ((s.listedAt wallMs).map (·.atMs)).getD
    (s.manifest.startedAtMs + s.segmentAt wallMs * s.segmentMs)

/-- There is a timeline, the time of day is not before it, and the store has what is there. -/
def Holds (wallMs : ℤ) : Prop :=
  0 < s.manifest.startedAtMs ∧ (s.listedAt wallMs = none → s.manifest.startedAtMs ≤ wallMs) ∧
    s.Retains (s.segmentAt wallMs)

instance (wallMs : ℤ) : Decidable (s.Holds wallMs) := inferInstanceAs (Decidable (_ ∧ _ ∧ _))

variable {s} {wallMs : ℤ}

/-- `wallTarget`, said with these. -/
lemma wallTarget_eq (s : DecoderSession) (wallMs : ℤ) :
    s.wallTarget wallMs =
      if s.manifest.startedAtMs ≤ 0 then
        .error "nothing is loaded yet, so there is no timeline to move within"
      else if s.listedAt wallMs = none ∧ wallMs - s.manifest.startedAtMs < 0 then
        .error "that is before this event started"
      else if s.segmentAt wallMs < s.firstAvailableSeq then
        .error ("that moment has passed out of storage — it is older " ++
          "than the retention rule keeps")
      else if s.latestSeq < s.segmentAt wallMs then
        .error (if s.room.isVod then "that is past the end of this recording"
          else "that is ahead of what has been broadcast yet")
      else .ok (s.segmentAt wallMs, max 0 (wallMs - s.startAt wallMs)) := by
  have hstart : s.startAt wallMs = ((s.listedAt wallMs).map (·.atMs)).getD
      (s.manifest.startedAtMs +
        ((wallMs - s.manifest.startedAtMs) / s.segmentMs).toNat * s.segmentMs) := by
    rw [startAt, segmentAt]
    cases s.listedAt wallMs with
    | none => rfl
    | some sg => rfl
  rw [hstart]
  rfl

/-- The time seek where the time of day is held. -/
lemma wallTarget_of_holds (h : s.Holds wallMs) :
    s.wallTarget wallMs = .ok (s.segmentAt wallMs, max 0 (wallMs - s.startAt wallMs)) := by
  obtain ⟨hstarted, hafter, hfirst, hlast⟩ := h
  have hbefore : ¬(s.listedAt wallMs = none ∧ wallMs - s.manifest.startedAtMs < 0) := by
    rintro ⟨hnone, hneg⟩
    have := hafter hnone
    omega
  rw [wallTarget_eq, if_neg (not_le.mpr hstarted), if_neg hbefore, if_neg (not_lt.mpr hfirst),
    if_neg (not_lt.mpr hlast)]

/-- And where it is not. -/
lemma wallTarget_of_not_holds (h : ¬s.Holds wallMs) : ∃ why, s.wallTarget wallMs = .error why := by
  rw [wallTarget_eq]
  split_ifs with hstarted hbefore hfirst hlast
  · exact ⟨_, rfl⟩
  · exact ⟨_, rfl⟩
  · exact ⟨_, rfl⟩
  · exact ⟨_, rfl⟩
  · exact ⟨_, rfl⟩
  · refine absurd ⟨not_le.mp hstarted, fun hnone => ?_, not_lt.mp hfirst, not_lt.mp hlast⟩ h
    by_contra hneg
    exact hbefore ⟨hnone, by omega⟩

/-- The segment starts no later than the time of day. -/
lemma startAt_le (h : s.Holds wallMs) : s.startAt wallMs ≤ wallMs := by
  obtain ⟨-, hafter, -⟩ := h
  rw [startAt]
  cases hl : s.listedAt wallMs with
  | none =>
      have hpos := s.segmentMs_pos
      have hdiv : 0 ≤ (wallMs - s.manifest.startedAtMs) / s.segmentMs :=
        Int.ediv_nonneg (sub_nonneg.mpr (hafter hl)) hpos.le
      have hle := Int.ediv_mul_le (wallMs - s.manifest.startedAtMs) hpos.ne'
      rw [segmentAt, hl, Option.map_none, Option.getD_none, Option.map_none, Option.getD_none,
        Int.toNat_of_nonneg hdiv]
      omega
  | some sg =>
      have hin := List.find?_some hl
      simp only [Bool.and_eq_true, decide_eq_true_eq] at hin
      exact hin.1.2

/-- What the time seek comes to. -/
lemma wallCall_of_holds (h : s.Holds wallMs) :
    s.wallCall wallMs = (wallMs, { s.moveHead (s.segmentAt wallMs) with
      pendingSkipMs := wallMs - s.startAt wallMs }) := by
  have hskip : max 0 (wallMs - s.startAt wallMs) = wallMs - s.startAt wallMs :=
    max_eq_right (sub_nonneg.mpr (startAt_le h))
  rw [wallCall, wallTarget_of_holds h, hskip]
  exact if_pos h.2.2

lemma wallCall_of_not_holds (h : ¬s.Holds wallMs) :
    ∃ why, s.wallCall wallMs = (0, { s with lastError := why }) := by
  obtain ⟨why, hwhy⟩ := wallTarget_of_not_holds h
  exact ⟨why, by rw [wallCall, hwhy]⟩

/-! ### What a jump comes to -/

section Jump

variable {id : String} {cue : Marker}

/-- By the time of day, where it is held. -/
lemma jumpCall_of_holds (hcue : s.markers.find? (·.id == id) = some cue) (hat : 0 < cue.atMs)
    (h : s.Holds cue.atMs) :
    s.jumpCall id = (true, { s.moveHead (s.segmentAt cue.atMs) with
      pendingSkipMs := cue.atMs - s.startAt cue.atMs }) := by
  simp only [jumpCall, hcue, wallCall_of_holds h]
  rw [if_pos ⟨hat, hat.ne'⟩]

/-- By the segment, where it is not. -/
lemma jump_of_not_holds (hcue : s.markers.find? (·.id == id) = some cue)
    (h : ¬(0 < cue.atMs ∧ s.Holds cue.atMs)) :
    ∃ why, s.jumpToMarker id = { s with lastError := why, control := .fallingBack cue.seq } ∧
      s.jumpCall id = (decide (s.Retains cue.seq), { s with lastError := why }.seek cue.seq) := by
  by_cases hat : 0 < cue.atMs
  · obtain ⟨why, hwhy⟩ := wallTarget_of_not_holds fun hc => h ⟨hat, hc⟩
    refine ⟨why, ?_, ?_⟩
    · simp only [jumpToMarker, hcue, if_pos hat, seekToWallMs, hwhy]
      rfl
    · simp only [jumpCall, hcue, wallCall, hwhy]
      rw [if_neg fun hc => hc.2 rfl, if_pos hat]
      rfl
  · refine ⟨s.lastError, ?_, ?_⟩
    · simp only [jumpToMarker, hcue, if_neg hat]
    · simp only [jumpCall, hcue]
      rw [if_neg fun hc => hat hc.1, if_neg hat]

/-- The call, with no other thread's step in between, is a run of the session. -/
lemma jumpCall_run (cfg : DecoderConfig) (hidle : s.control = .idle) (id : String) :
    ∃ n, Lib.run (step cfg) s (.jumpToMarker id :: List.replicate n .proceed) =
      some (s.jumpCall id).2 := by
  have hself : s = { s with control := .idle } := by rw [← hidle]
  have hcall : s.step cfg (.jumpToMarker id) = some (s.jumpToMarker id) := by
    simp [step, stepNet, stepFeed, stepControl, hidle]
  have hback (t : DecoderSession) {target : ℕ} (ht : t.control = .fallingBack target) :
      t.step cfg .proceed = some { t.seek target with control := .idle } := by
    simp [step, stepNet, stepFeed, stepControl, ht]
  cases hcue : s.markers.find? (·.id == id) with
  | none =>
      refine ⟨0, ?_⟩
      have hjump : s.jumpToMarker id = s := by simp only [jumpToMarker, hcue]
      rw [List.replicate_zero, Lib.run, hcall, hjump, Option.bind_some, Lib.run]
      simp only [jumpCall, hcue]
  | some cue =>
      by_cases h : 0 < cue.atMs ∧ s.Holds cue.atMs
      · obtain ⟨hat, hholds⟩ := h
        let t : DecoderSession := { s with
          control := .seeking (s.segmentAt cue.atMs) (cue.atMs - s.startAt cue.atMs)
            (some cue.seq) }
        let u : DecoderSession := { t.moveHead (s.segmentAt cue.atMs) with
          control := .skipping (cue.atMs - s.startAt cue.atMs) }
        have hskip : max 0 (cue.atMs - s.startAt cue.atMs) = cue.atMs - s.startAt cue.atMs :=
          max_eq_right (sub_nonneg.mpr (startAt_le hholds))
        have hjump : s.jumpToMarker id = t := by
          simp only [jumpToMarker, hcue, if_pos hat, seekToWallMs, wallTarget_of_holds hholds,
            hskip]
          rfl
        have hseek : t.step cfg .proceed = some u := by
          have hstep : t.step cfg .proceed = some (t.wallSeek (s.segmentAt cue.atMs)
              (cue.atMs - s.startAt cue.atMs) (some cue.seq)) := by
            simp [t, step, stepNet, stepFeed, stepControl]
          rw [hstep, wallSeek]
          exact congrArg some (if_pos hholds.2.2)
        have hset : u.step cfg .proceed = some { u with
            control := .idle, pendingSkipMs := cue.atMs - s.startAt cue.atMs } := by
          simp [u, step, stepNet, stepFeed, stepControl]
        refine ⟨2, ?_⟩
        rw [Lib.run, hcall, hjump, Option.bind_some, List.replicate_succ, Lib.run, hseek,
          Option.bind_some, List.replicate_one, Lib.run, hset, Option.bind_some, Lib.run,
          jumpCall_of_holds hcue hat hholds]
        conv_rhs => rw [hself]
        rfl
      · obtain ⟨why, hjump, hwhole⟩ := jump_of_not_holds hcue h
        refine ⟨1, ?_⟩
        rw [Lib.run, hcall, hjump, Option.bind_some, List.replicate_one, Lib.run, hback _ rfl,
          Option.bind_some, Lib.run, hwhole]
        conv_rhs => rw [hself]
        by_cases hr : s.Retains cue.seq
        · rw [seek, if_pos (show ({ s with lastError := why, control := .fallingBack cue.seq } :
            DecoderSession).Retains cue.seq from hr), seek, if_pos (show ({ s with
              control := .idle, lastError := why } : DecoderSession).Retains cue.seq from hr)]
          rfl
        · rw [seek, if_neg (show ¬({ s with lastError := why, control := .fallingBack cue.seq } :
            DecoderSession).Retains cue.seq from hr), seek, if_neg (show ¬({ s with
              control := .idle, lastError := why } : DecoderSession).Retains cue.seq from hr)]

end Jump

/-! ### Where a cue is shown -/

variable (s) in
/-- Where a segment starts in the programme: where the manifest records it, and otherwise as if
all were of one length. -/
def segmentStartMs (seq : ℕ) : ℤ :=
  match s.manifest.segments.find? fun m => decide (m.seq = seq) && decide (0 < m.atMs) with
  | some m =>
      if 0 < s.manifest.startedAtMs then m.atMs - s.manifest.startedAtMs else seq * s.segmentMs
  | none => seq * s.segmentMs

variable (s) in
/-- How far the segment that a time of day falls in is recorded off the start it is taken to
have. -/
def drift (wallMs : ℤ) : ℤ :=
  s.segmentStartMs (s.segmentAt wallMs) - (s.startAt wallMs - s.manifest.startedAtMs)

/-- There is no drift where the segment is listed, once, or not listed with a time at all. -/
lemma drift_eq_zero (hstarted : 0 < s.manifest.startedAtMs)
    (h : ∀ m ∈ s.manifest.segments, m.seq = s.segmentAt wallMs → 0 < m.atMs →
      s.listedAt wallMs = some m) : s.drift wallMs = 0 := by
  rw [drift, segmentStartMs]
  cases hfind : s.manifest.segments.find? fun m =>
      decide (m.seq = s.segmentAt wallMs) && decide (0 < m.atMs) with
  | some m =>
      have hm := List.find?_some hfind
      simp only [Bool.and_eq_true, decide_eq_true_eq] at hm
      have hl := h m (List.mem_of_find?_eq_some hfind) hm.1 hm.2
      simp only [if_pos hstarted, startAt, hl, Option.map_some, Option.getD_some]
      omega
  | none =>
      cases hl : s.listedAt wallMs with
      | none =>
          simp only [startAt, hl, Option.map_none, Option.getD_none]
          omega
      | some sg =>
          have hsg := List.find?_some hl
          simp only [Bool.and_eq_true, decide_eq_true_eq] at hsg
          have hnone := List.find?_eq_none.mp hfind sg (List.mem_of_find?_eq_some hl)
          refine absurd ?_ hnone
          simp [segmentAt, hl, hsg.1.1]

/-- The start that the displays go by, and the one of the manifest. -/
def starts (s : DecoderSession) : ℤ × ℤ := (s.startedAtMs, s.manifest.startedAtMs)

lemma starts_floorSkip : s.floorSkip.starts = s.starts := by
  rw [floorSkip]
  split <;> rfl

lemma starts_nextSegment : s.nextSegment.starts = s.starts := by
  have key := s.next_nextSegment
  generalize s.nextSegment = t at key ⊢
  cases key with
  | notDue => rfl
  | overtaken => exact starts_floorSkip
  | gap => exact starts_floorSkip
  | choose => exact starts_floorSkip
  | refused => exact starts_floorSkip
  | wait => exact starts_floorSkip

lemma starts_seek (seq : ℕ) : (s.seek seq).starts = s.starts := by
  rw [seek]
  split <;> rfl

lemma starts_seekToWallMs (orElse : Option ℕ) :
    (s.seekToWallMs wallMs orElse).starts = s.starts := by
  rw [seekToWallMs]
  split <;> rfl

/-- A poll commits both starts at once. -/
lemma starts_step {cfg : DecoderConfig} {a : DecoderAction} {t : DecoderSession}
    (h : Steps cfg s a t) : t.starts = s.starts ∨ t.startedAtMs = t.manifest.startedAtMs := by
  cases h with
  | poll =>
      left
      simp only [noteStalled]
      split_ifs <;> rfl
  | readEvent =>
      rename_i now live id needMarkers r hpc
      obtain h | ⟨why, h⟩ | ⟨m, cues, at_, hint, -, -, h⟩ :=
        s.pollEvent_cases cfg now live needMarkers r
      · exact .inl (by rw [h]; rfl)
      · exact .inl (by rw [h]; rfl)
      · right
        rw [h]
        simp only [holdFinished, seeRoom]
        split_ifs <;> rfl
  | readLive =>
      left
      rw [pollLive]
      simp only [noTarget, enterEvent, switchEvent]
      split_ifs <;> rfl
  | plan _ hp =>
      left
      rw [pumpPlan] at hp
      split at hp
      · rw [← Option.some.inj hp]
      · obtain ⟨wanted, -, rfl⟩ := Option.map_eq_some_iff.mp hp
        rfl
  | getInit =>
      left
      rw [pumpInit]
      split_ifs <;> rfl
  | writeInit =>
      left
      rw [pumpInitWrite]
      split <;> rfl
  | getSegment =>
      left
      rw [pumpSegment]
      split_ifs <;> rfl
  | writeSegment =>
      left
      rw [pumpWrite]
      split <;> rfl
  | nextSegment => exact .inl starts_nextSegment
  | loadSegment =>
      left
      rw [nextLoad]
      split <;> rfl
  | loadInit =>
      left
      rw [nextLoadInit]
      split <;> rfl
  | commitSegment =>
      left
      rw [nextCommit]
      split <;> rfl
  | start =>
      left
      simp only [start]
      split <;> rfl
  | seek => exact .inl (starts_seek _)
  | seekToMediaMs =>
      left
      simp only [seekToMediaMs]
      split <;> rfl
  | seekToWallMs => exact .inl (starts_seekToWallMs _)
  | jumpToMarker =>
      left
      rw [jumpToMarker]
      split
      · rfl
      · split
        · exact starts_seekToWallMs _
        · rfl
  | seat =>
      left
      simp only [seat]
      split <;> rfl
  | wallSeek =>
      left
      rw [wallSeek]
      split <;> rfl
  | fallBack => exact .inl (starts_seek _)
  | _ => exact .inl rfl

/-- The displays go by the start of the manifest. -/
lemma started_of_reach {cfg : DecoderConfig} {folders : String → Option CacheFolder}
    (h : Lib.Reach (step cfg) Lib.anyStep (· = new cfg folders) s) :
    s.startedAtMs = s.manifest.startedAtMs := by
  refine Lib.Reach.invariant (I := fun s => s.startedAtMs = s.manifest.startedAtMs) ?_ ?_ h
  · rintro _ rfl
    rfl
  · intro s a t hs _ ht
    obtain hsame | hnew := starts_step (steps_of_step ht)
    · exact (congrArg Prod.fst hsame).trans (hs.trans (congrArg Prod.snd hsame).symm)
    · exact hnew

/-! ### A cue that is set and gone to -/

/-- `add_cue_impl` from its PUT on: the cue goes to the end of the list that was read, and the
list into the ones there are. -/
def withCue (s : DecoderSession) (mine : List Marker) (mk : Marker) : DecoderSession :=
  { s with markers := mergeMarkers [s.markers, mine ++ [mk]] }

/-- A cue whose id is new is the one that a jump to it finds. -/
lemma find_withCue {mine : List Marker} {mk : Marker}
    (hid : ∀ m ∈ s.markers ++ mine, m.id ≠ mk.id) :
    (s.withCue mine mk).markers.find? (·.id == mk.id) = some mk := by
  have hsole : ∀ m ∈ (s.withCue mine mk).markers, m.id = mk.id → m = mk := by
    intro m hm heq
    have hmem := mem_of_mem_mergeMarkers hm
    simp only [List.flatten_cons, List.flatten_nil, List.append_nil, ← List.append_assoc] at hmem
    obtain hold | hnew := List.mem_append.mp hmem
    · exact absurd heq (hid m hold)
    · exact List.mem_singleton.mp hnew
  obtain ⟨y, hy, heq⟩ := exists_foldl_keepNew [] _ ((List.mem_insertionSort
    (r := Marker.NotAfter)).mpr (show mk ∈ [s.markers, mine ++ [mk]].flatten by simp))
  rw [← mergeMarkers_eq] at hy
  cases hfind : (s.withCue mine mk).markers.find? (·.id == mk.id) with
  | none =>
      have hno := List.find?_eq_none.mp hfind y hy
      exact absurd (by simpa using heq) hno
  | some m =>
      have hm := List.find?_some hfind
      rw [hsole m (List.mem_of_find?_eq_some hfind) (by simpa using hm)]

/-- The time of day of a cue that is set on a segment: recorded, reckoned, or none. -/
lemma wallClockMs_cases (s : DecoderSession) (unlocked : Bool) (seq : ℕ) :
    (∃ m ∈ s.manifest.segments, m.seq = seq ∧ 0 < m.atMs ∧ s.wallClockMs unlocked seq = m.atMs) ∨
      (0 < s.startedAtMs ∧ s.wallClockMs unlocked seq = s.startedAtMs + seq * s.segmentMs) ∨
      (s.startedAtMs ≤ 0 ∧ s.wallClockMs unlocked seq = 0) := by
  have hreckoned (hno : (if unlocked then s.manifest.segments.find? fun m =>
      m.seq = seq ∧ 0 < m.atMs else none) = none) :
      s.wallClockMs unlocked seq =
        if s.startedAtMs ≤ 0 then 0 else s.startedAtMs + seq * s.segmentMs := by
    simp only [wallClockMs, hno]
  cases hlisted : (if unlocked then s.manifest.segments.find? fun m =>
      m.seq = seq ∧ 0 < m.atMs else none) with
  | none =>
      right
      rw [hreckoned hlisted]
      by_cases hstarted : s.startedAtMs ≤ 0
      · exact .inr ⟨hstarted, if_pos hstarted⟩
      · exact .inl ⟨not_le.mp hstarted, if_neg hstarted⟩
  | some m =>
      left
      have hfind : (s.manifest.segments.find? fun m => m.seq = seq ∧ 0 < m.atMs) = some m := by
        split at hlisted
        · exact hlisted
        · exact absurd hlisted (by simp)
      have hm := List.find?_some hfind
      rw [decide_eq_true_eq] at hm
      exact ⟨m, List.mem_of_find?_eq_some hfind, hm.1, hm.2, by simp only [wallClockMs, hlisted]⟩

/-- What a cue is that has been set. -/
lemma addCueImpl_marker {ccfg : CueConfig} {call : CueCall} {route : CueRoute} {mk : Marker}
    (h : s.addCueImpl ccfg call = .ok (route, mk)) :
    mk.seq = s.cueSeq call ∧ mk.atMs = s.cueAtMs call ∧ mk.id = call.id := by
  -- every way that is not refused makes the same cue
  have hmk (r : CueRoute) (h : (Except.ok (r,
      { seq := s.cueSeq call
        atMs := s.cueAtMs call
        label := call.label
        id := call.id
        author := ccfg.authorName }) : Except String (CueRoute × Marker)) = .ok (route, mk)) :
      mk.seq = s.cueSeq call ∧ mk.atMs = s.cueAtMs call ∧ mk.id = call.id := by
    obtain ⟨-, rfl⟩ := Prod.mk.inj (Except.ok.inj h)
    exact ⟨rfl, rfl, rfl⟩
  rw [addCueImpl] at h
  cases htarget : ccfg.cueTarget.map fun target => target s.eventId with
  | none =>
      simp only [htarget] at h
      split_ifs at h <;> exact hmk _ h
  | some t =>
      simp only [htarget] at h
      split_ifs at h <;> exact hmk _ h

/-- **A cue returns.**  Set on a segment that the store retains (the one the host names, or
where playback is), and written to an object, it takes a jump to that segment: unless another
listed segment holds its time of day, or its own is listed without a length. -/
theorem cue_returns {cfg : DecoderConfig} {folders : String → Option CacheFolder}
    (hs : Lib.Reach (step cfg) Lib.anyStep (· = new cfg folders) s) {ccfg : CueConfig}
    {call : CueCall} {key : String} {mk : Marker}
    (hset : s.addCueImpl ccfg call = .ok (.object key, mk)) (hat : call.operatorAtMs = 0)
    {mine : List Marker} (hid : ∀ m ∈ s.markers ++ mine, m.id ≠ mk.id) {seq : ℕ}
    (hseq : seq = if 0 < call.operatorSeq then call.operatorSeq
      else if s.headSet then s.head else s.latestSeq)
    (hret : s.Retains seq)
    (hown : ∀ m ∈ s.manifest.segments, m.seq = seq → 0 < m.atMs → 0 < msOf m.durationS)
    (hothers : ∀ m ∈ s.manifest.segments, 0 < m.atMs → m.atMs ≤ mk.atMs →
      mk.atMs < m.atMs + msOf m.durationS → m.seq = seq) :
    ((s.withCue mine mk).jumpCall mk.id).1 = true ∧
      ((s.withCue mine mk).jumpCall mk.id).2.head = seq := by
  obtain ⟨hmkseq, hmkat, -⟩ := addCueImpl_marker hset
  have hcue : s.cueSeq call = seq := by
    rw [hseq, cueSeq, hat]
    simp
  have hfind := find_withCue hid
  set t := s.withCue mine mk with ht
  by_cases h : 0 < mk.atMs ∧ t.Holds mk.atMs
  · rw [jumpCall_of_holds hfind h.1 h.2]
    refine ⟨rfl, ?_⟩
    show t.segmentAt mk.atMs = seq
    cases hl : t.listedAt mk.atMs with
    | some sg =>
        have hsg := List.find?_some hl
        simp only [Bool.and_eq_true, decide_eq_true_eq] at hsg
        rw [segmentAt, hl]
        exact hothers sg (List.mem_of_find?_eq_some hl) hsg.1.1 hsg.1.2 hsg.2
    | none =>
        have hnone := List.find?_eq_none.mp hl
        have hfalls : ∀ m ∈ s.manifest.segments, 0 < m.atMs → m.atMs ≤ mk.atMs →
            ¬mk.atMs < m.atMs + msOf m.durationS := by
          intro m hm hpos hle hlt
          exact hnone m hm (by simp [hpos, hle, hlt])
        have hstarted : 0 < s.startedAtMs := by
          rw [started_of_reach hs]
          exact h.2.1
        obtain ⟨m, hm, hmseq, hmpos, hwall⟩ | ⟨-, hwall⟩ | ⟨hnot, -⟩ :=
          s.wallClockMs_cases call.unlocked seq
        · -- its own listing holds it
          have hmat : mk.atMs = m.atMs := by
            rw [hmkat, cueAtMs, hat, hcue, hwall]
            simp [hmpos]
          have hlen := hown m hm hmseq hmpos
          exact absurd (by omega) (hfalls m hm hmpos hmat.ge)
        · have hpos := s.segmentMs_pos
          have hmat : mk.atMs = s.startedAtMs + seq * s.segmentMs := by
            have hreckoned : 0 < s.startedAtMs + seq * s.segmentMs := by positivity
            rw [hmkat, cueAtMs, hat, hcue, hwall]
            simp [hreckoned]
          have hback : (mk.atMs - t.manifest.startedAtMs) / t.segmentMs = seq := by
            show (mk.atMs - s.manifest.startedAtMs) / s.segmentMs = seq
            rw [hmat, ← started_of_reach hs, add_sub_cancel_left,
              Int.mul_ediv_cancel _ hpos.ne']
          rw [segmentAt, hl, Option.map_none, Option.getD_none, hback, Int.toNat_natCast]
        · omega
  · obtain ⟨why, -, hcall⟩ := jump_of_not_holds hfind h
    have hret' : ({ t with lastError := why } : DecoderSession).Retains mk.seq := by
      rw [hmkseq, hcue]
      exact hret
    rw [hcall, seek, if_pos hret']
    refine ⟨decide_eq_true hret', ?_⟩
    exact hmkseq.trans hcue

/-- A recording of three segments, of which the manifest still lists the last, and playback at
the second. -/
def windowedRun : List DecoderAction :=
  pollOf
    { status := .ended
      startedAtMs := 1
      latestSeq := 2
      segments := [{ seq := 2, atMs := 12001 }] } ++ [DecoderAction.seek 1]

/-- A cue at this segment. -/
def callAt (operatorSeq : ℕ) : CueCall := { label := "c", operatorSeq, id := "c" }

/-- What a site that writes its own cues makes of it. -/
def cueAt (s : DecoderSession) (operatorSeq : ℕ) : Marker where
  seq := s.cueSeq (callAt operatorSeq)
  atMs := s.cueAtMs (callAt operatorSeq)
  label := "c"
  id := "c"
  author := "a"

lemma addCueImpl_callAt (hevent : s.eventId ≠ "") (operatorSeq : ℕ) :
    ∃ key, s.addCueImpl { authorName := "a" } (callAt operatorSeq) =
      .ok (.object key, s.cueAt operatorSeq) := by
  refine ⟨cuesPrefixFor s.eventId ++ cueAuthorToken "a" ++ ".json", ?_⟩
  rw [addCueImpl, if_neg (by decide), if_neg (by decide), if_neg hevent]
  rfl

/-- A cue on a segment older than what is listed. -/
theorem cue_returns_older : ∃ s : DecoderSession,
    Lib.Reach (step sampleDecoder) Lib.anyStep (· = new sampleDecoder fun _ => none) s ∧
      ∃ mk, ((s.withCue [] mk).jumpCall mk.id).2.head = 1 := by
  obtain ⟨s, hs, hevent, hmarkers, hret, hown, hothers⟩ :
      ∃ s, Lib.Reach (step sampleDecoder) Lib.anyStep (· = new sampleDecoder fun _ => none) s ∧
        s.eventId ≠ "" ∧ s.markers = [] ∧ s.Retains 1 ∧
        (∀ m ∈ s.manifest.segments, m.seq = 1 → 0 < m.atMs → 0 < msOf m.durationS) ∧
        ∀ m ∈ s.manifest.segments, 0 < m.atMs → m.atMs ≤ s.cueAtMs (callAt 1) →
          s.cueAtMs (callAt 1) < m.atMs + msOf m.durationS → m.seq = 1 :=
    Lib.exists_reach (new sampleDecoder fun _ => none) windowedRun rfl (by decide +kernel)
  obtain ⟨key, hset⟩ := addCueImpl_callAt hevent 1
  have hid : ∀ m ∈ s.markers ++ [], m.id ≠ (s.cueAt 1).id := by simp [hmarkers]
  exact ⟨s, hs, _, (cue_returns hs hset rfl hid rfl hret hown hothers).2⟩

/-- Zero is no segment to the host: the cue is set where playback is. -/
theorem cue_elsewhere : ¬∀ (cfg : DecoderConfig) (folders : String → Option CacheFolder)
    (s : DecoderSession), Lib.Reach (step cfg) Lib.anyStep (· = new cfg folders) s →
    ∀ (ccfg : CueConfig) (call : CueCall) (key : String) (mk : Marker) (mine : List Marker),
      s.addCueImpl ccfg call = .ok (.object key, mk) → call.operatorAtMs = 0 →
      (∀ m ∈ s.markers ++ mine, m.id ≠ mk.id) → s.Retains call.operatorSeq →
        ((s.withCue mine mk).jumpCall mk.id).1 = true ∧
          ((s.withCue mine mk).jumpCall mk.id).2.head = call.operatorSeq := by
  intro h
  obtain ⟨s, hs, hevent, hmarkers, hret, hhead⟩ :
      ∃ s, Lib.Reach (step sampleDecoder) Lib.anyStep (· = new sampleDecoder fun _ => none) s ∧
        s.eventId ≠ "" ∧ s.markers = [] ∧ s.Retains 0 ∧
        ((s.withCue [] (s.cueAt 0)).jumpCall "c").2.head = 1 :=
    Lib.exists_reach (new sampleDecoder fun _ => none) windowedRun rfl (by decide +kernel)
  obtain ⟨key, hset⟩ := addCueImpl_callAt hevent 0
  have hzero := (h _ _ s hs _ _ key _ [] hset rfl (by simp [hmarkers]) hret).2
  exact absurd (hzero.symm.trans hhead) (by decide)

end DecoderSession

end Multisite

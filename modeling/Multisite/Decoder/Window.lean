import Multisite.Decoder.Steps

/-!
The download window of `pump_downloads`, and the two places that have to agree with it: the
pruning at its end, and the start gate.

The second bound of the pruning counts the whole cache and takes its lowest numbers,
wherever the head is; `start_plan_locked` counts cached segments from the first of the
window on, whatever the manifest says of them.

* `prune_spares`: what a `pump_downloads` keeps of the window, exactly; `head_pruned`: a run
  in which the segment just fetched for the head is gone when it returns;
* `gate_reached`: when the gate opens and a segment is served, exactly, for a window whose
  segments are all cached or never coming; `gate_shut`: a recording that begins with a gap.
-/

namespace Multisite

namespace DecoderSession

variable (cfg : DecoderConfig) (s : DecoderSession)

/-- The window `pump_downloads` fetches. -/
def InWindow (k : ℕ) : Prop :=
  s.pumpStart cfg ≤ k ∧ k ≤ min s.latestSeq (wrapU64 (s.pumpStart cfg + s.wantAhead cfg))

instance (k : ℕ) : Decidable (s.InWindow cfg k) := inferInstanceAs (Decidable (_ ∧ _))

/-! ### Pruning -/

/-- A segment of the window at the head or after it is cached, and the pruning of this
`pump_downloads` leaves it. -/
def KeepsWindow (t : DecoderSession) : Prop :=
  ∀ k ∈ s.cache.index, s.head ≤ k → s.InWindow cfg k → k ∈ t.cache.index

instance (t : DecoderSession) : Decidable (s.KeepsWindow cfg t) :=
  inferInstanceAs (Decidable (∀ k ∈ s.cache.index, _))

/-- What is far behind the head left out, the cache holds no more than it may, or its
lowest number is so far below the window that the excess numbers from there on end before
it. -/
def Uncrowded : Prop :=
  let c := s.pruneBehind cfg
  (c.index.card : ℤ) ≤ cfg.maxCachedSegments ∨
    ∀ k ∈ s.cache.index, s.head ≤ k → s.InWindow cfg k →
      wrapU64 (c.lowestSeq + wrapU64 (c.index.card + 2 ^ 64 - toU64 cfg.maxCachedSegments)) ≤ k

instance : Decidable (s.Uncrowded cfg) := inferInstanceAs (Decidable (_ ∨ _))

end DecoderSession

open DecoderSession

lemma SegmentCache.mem_pruneBelow {c : SegmentCache} {keepFrom k : ℕ} :
    k ∈ (c.pruneBelow keepFrom).index ↔ k ∈ c.index ∧ keepFrom ≤ k := Finset.mem_filter

lemma SegmentCache.mem_pruneExcess {c : SegmentCache} {maxCached : ℤ} {k : ℕ} :
    k ∈ (c.pruneExcess maxCached).index ↔ k ∈ c.index ∧
      ((c.index.card : ℤ) ≤ maxCached ∨
        wrapU64 (c.lowestSeq + wrapU64 (c.index.card + 2 ^ 64 - toU64 maxCached)) ≤ k) := by
  rw [pruneExcess]
  split
  · rename_i h
    rw [mem_pruneBelow, or_iff_right (by omega)]
  · rename_i h
    exact ⟨fun hk => ⟨hk, Or.inl (by omega)⟩, fun hk => hk.1⟩

/-- The first bound of the pruning takes nothing at the head or after it. -/
lemma mem_pruneBehind {cfg : DecoderConfig} {s : DecoderSession} {k : ℕ} (hk : s.head ≤ k) :
    k ∈ (s.pruneBehind cfg).index ↔ k ∈ s.cache.index := by
  simp only [pruneBehind]
  split
  · rw [SegmentCache.mem_pruneBelow]
    exact ⟨fun h => h.1, fun h => ⟨h, by omega⟩⟩
  · rfl

/-- **What pruning keeps.**  In every state, whatever its history, a `pump_downloads`
removes no cached segment of the window at the head or after it exactly when the cache is
not crowded. -/
theorem prune_spares (cfg : DecoderConfig) {s t : DecoderSession}
    (ht : s.step cfg .commitDownloads = some t) : s.KeepsWindow cfg t ↔ s.Uncrowded cfg := by
  cases steps_of_step ht with
  | commitDownloads =>
      have hmem : ∀ k ∈ s.cache.index, s.head ≤ k →
          (k ∈ (s.prune cfg).index ↔ ((s.pruneBehind cfg).index.card : ℤ) ≤ cfg.maxCachedSegments ∨
            wrapU64 ((s.pruneBehind cfg).lowestSeq + wrapU64 ((s.pruneBehind cfg).index.card +
              2 ^ 64 - toU64 cfg.maxCachedSegments)) ≤ k) := by
        intro k hk hhead
        rw [prune, SegmentCache.mem_pruneExcess]
        exact and_iff_right ((mem_pruneBehind hhead).mpr hk)
      constructor
      · intro hkeep
        by_cases hroom : ((s.pruneBehind cfg).index.card : ℤ) ≤ cfg.maxCachedSegments
        · exact Or.inl hroom
        · refine Or.inr fun k hk hhead hwin => ?_
          exact ((hmem k hk hhead).mp (hkeep k hk hhead hwin)).resolve_left hroom
      · rintro hroom k hk hhead hwin
        refine (hmem k hk hhead).mpr (hroom.imp_right fun h => h k hk hhead hwin)

/-- A recording of eight segments. -/
def eightSegments : Manifest :=
  { eventId := "e", status := .ended, updatedAtMs := 1, startedAtMs := 1, latestSeq := 7 }

/-- A decoder that keeps two segments. -/
def smallCache : DecoderConfig := { sampleDecoder with maxCachedSegments := 2 }

/-- The end of the recording fetched. -/
def fetchEnd : List DecoderAction :=
  pollOf eightSegments ++
    [DecoderAction.seek 6, .pumpDownloads 8 10, .getInit { body := [7] }, .writeInit true] ++
    downloadOf [6, 7]

theorem prune_spares_end : ∃ s t : DecoderSession,
    (s.KeepsWindow smallCache t ↔ s.Uncrowded smallCache) ∧ s.headSet = true ∧
      s.Uncrowded smallCache ∧ s.head = 6 ∧ s.cache.index = {6, 7} := by
  obtain ⟨s, hs, hstep, hp⟩ := (Lib.exists_reach
    (DecoderSession.new smallCache fun _ => none) fetchEnd ⟨_, rfl⟩ (by decide +kernel) :
    ∃ s, Lib.Reach (step smallCache) Lib.anyStep
      (fun s => ∃ folders, s = DecoderSession.new smallCache folders) s ∧
      (s.step smallCache .commitDownloads).isSome = true ∧ s.headSet = true ∧
      s.Uncrowded smallCache ∧ s.head = 6 ∧ s.cache.index = {6, 7})
  obtain ⟨t, ht⟩ := Option.isSome_iff_exists.mp hstep
  exact ⟨s, t, prune_spares smallCache ht, hp⟩

/-- After a seek back the lowest numbers are the ones about to be played: segment 0,
fetched for the head, is gone when `pump_downloads` returns. -/
theorem head_pruned : ∃ s : DecoderSession,
    Lib.Reach (step smallCache) Lib.anyStep
      (fun s => ∃ folders, s = DecoderSession.new smallCache folders) s ∧
      s.headSet = true ∧ s.head = 0 ∧ 0 ∈ s.cache.index ∧
      (s.step smallCache .commitDownloads).any (fun t => decide (¬ s.KeepsWindow smallCache t) &&
        decide (0 ∉ t.cache.index)) = true :=
  Lib.exists_reach (DecoderSession.new smallCache fun _ => none)
    (fetchEnd ++ [.commitDownloads, .seek 0, .pumpDownloads 8 10] ++ downloadOf [0, 1, 2]) ⟨_, rfl⟩
    (by decide +kernel)

/-! ### Serving what the window holds -/

namespace DecoderSession

/-- The next step of `next_segment`, when nothing else is called. -/
def feedAction (s : DecoderSession) : DecoderAction :=
  match s.feed with
  | .idle => .nextSegment
  | .chosen _ => .openSegment
  | .loading _ _ => .loadSegment
  | .loaded _ => .openInit
  | .loadingInit _ _ => .loadInit
  | .committing _ _ => .commitSegment

/-- `next_segment` called over and over, for `n` steps: the segment it comes to first. -/
def feedFor (s : DecoderSession) : ℕ → Option PlayableSegment
  | 0 => none
  | n + 1 => (s.handed s.feedAction).or ((s.stepFeed s.feedAction).bind fun t => t.feedFor n)

-- their equations are made here, once, and not by the first lemmas that ask for them
section
attribute [local simp] feedAction feedFor
end

/-- `next_segment` eventually serves a segment. -/
def Serves (s : DecoderSession) : Prop := ∃ n p, s.feedFor n = some p

/-- The segment at the head can be read, and the init with it. -/
def Readable (s : DecoderSession) : Prop :=
  s.cache.hasInit = true ∧ ∀ k ∈ s.cache.index, (s.cache.load s.cache.eventId k).isSome

/-- The segment `k` will never come, and `next_segment` knows it. -/
def NeverComes (s : DecoderSession) (k : ℕ) : Prop :=
  s.manifest.InGaps k ∨ kGapAttempts ≤ s.unavailable k ∧ k < s.latestSeq

instance (s : DecoderSession) : Decidable s.Readable := inferInstanceAs (Decidable (_ ∧ _))

instance (s : DecoderSession) (k : ℕ) : Decidable (s.NeverComes k) :=
  inferInstanceAs (Decidable (_ ∨ _ ∧ _))

variable {s t : DecoderSession}

lemma stepFeed_openSegment {c : Chosen} (hpc : s.feed = .chosen c) :
    s.stepFeed .openSegment = some { s with feed := .loading c s.cache.eventId } := by
  unfold stepFeed
  dsimp only
  rw [hpc]

lemma stepFeed_loadSegment {c : Chosen} {path : String} (hpc : s.feed = .loading c path) :
    s.stepFeed .loadSegment = some (s.nextLoad c path) := by
  unfold stepFeed
  dsimp only
  rw [hpc]

lemma stepFeed_openInit {c : Chosen} (hpc : s.feed = .loaded c) :
    s.stepFeed .openInit = some (s.nextLoaded c) := by
  unfold stepFeed
  dsimp only
  rw [hpc]

lemma stepFeed_loadInit {c : Chosen} {path : String} (hpc : s.feed = .loadingInit c path) :
    s.stepFeed .loadInit = some (s.nextLoadInit c path) := by
  unfold stepFeed
  dsimp only
  rw [hpc]

lemma Serves.of_step {a : DecoderAction} (ha : s.feedAction = a) (h0 : s.handed a = none)
    (ht : s.stepFeed a = some t) (h : t.Serves) : s.Serves := by
  obtain ⟨n, p, hp⟩ := h
  refine ⟨n + 1, p, ?_⟩
  unfold feedFor
  rw [ha, h0, ht]
  exact hp

lemma serves_committing {c : Chosen} {init : Bytes} (hpc : s.feed = .committing c init)
    (hhead : s.head = c.want) : s.Serves := by
  refine ⟨1, { c.out with init := if c.needInit then init else [], skipToMs := c.skipMs }, ?_⟩
  simp [feedFor, feedAction, hpc, handed, returned, hhead]

lemma serves_loadingInit {c : Chosen} (hpc : s.feed = .loadingInit c s.cache.eventId)
    (hhead : s.head = c.want) (hinit : s.cache.hasInit = true) : s.Serves := by
  rw [SegmentCache.hasInit, Option.any_eq_true] at hinit
  obtain ⟨b, hb, hne⟩ := hinit
  have hload : (s.cache.loadInit s.cache.eventId).getD [] = b := by rw [SegmentCache.loadInit, hb]; rfl
  refine Serves.of_step (a := .loadInit) (t := s.nextLoadInit c s.cache.eventId) ?_ rfl ?_ ?_
  · rw [feedAction, hpc]
  · exact stepFeed_loadInit hpc
  · rw [nextLoadInit, hload]
    cases b with
    | nil => exact absurd hne (by simp)
    | cons x b => exact serves_committing rfl hhead

lemma serves_loaded {c : Chosen} (hpc : s.feed = .loaded c) (hhead : s.head = c.want)
    (hinit : s.cache.hasInit = true) : s.Serves := by
  refine Serves.of_step (a := .openInit) (t := s.nextLoaded c) ?_ rfl ?_ ?_
  · rw [feedAction, hpc]
  · exact stepFeed_openInit hpc
  · cases hneed : c.needInit with
    | true => exact serves_loadingInit (c := c) (by simp [nextLoaded, hneed]) hhead hinit
    | false =>
        have hfeed : (s.nextLoaded c).feed = .committing c [] := by simp [nextLoaded, hneed]
        exact serves_committing hfeed hhead

/-- A cached segment chosen at the head is served. -/
lemma serves_chosen {c : Chosen} (hpc : s.feed = .chosen c) (hhead : s.head = c.want)
    (hread : s.Readable) (hmem : c.want ∈ s.cache.index) : s.Serves := by
  obtain ⟨hinit, hfiles⟩ := hread
  obtain ⟨media, hmedia⟩ := Option.isSome_iff_exists.mp (hfiles _ hmem)
  refine Serves.of_step (a := .openSegment) (t := { s with feed := .loading c s.cache.eventId })
    ?_ rfl ?_ ?_
  · rw [feedAction, hpc]
  · exact stepFeed_openSegment hpc
  · refine Serves.of_step (a := .loadSegment)
      (t := { s with feed := .loaded { c with out := { c.out with media } } }) rfl rfl ?_ ?_
    · rw [stepFeed_loadSegment rfl, nextLoad]
      dsimp only
      rw [hmedia]
    · exact serves_loaded rfl hhead hinit

lemma floorSkip_eq (s : DecoderSession) : ∃ d st, s.floorSkip =
    { s with head := max s.head s.firstAvailableSeq, discontinuity := d, stats := st } := by
  rw [floorSkip]
  split
  · rename_i h
    rw [max_eq_right h.le]
    exact ⟨_, _, rfl⟩
  · rename_i h
    rw [max_eq_left (by omega)]
    exact ⟨_, _, rfl⟩

/-- **A cached segment ahead is reached**: where everything between the head and a cached
segment is cached or never comes, `next_segment` serves one. -/
lemma serves_of_ahead {k : ℕ} (hplay : s.play = .playing) (hset : s.headSet = true)
    (hidle : s.feed = .idle) (hread : s.Readable) (hk : k ∈ s.cache.index)
    (hgap : ¬ s.manifest.InGaps k) (hle : max s.head s.firstAvailableSeq ≤ k)
    (hkl : k ≤ s.latestSeq) (hlt : s.latestSeq < 2 ^ 64)
    (hacc : ∀ j, max s.head s.firstAvailableSeq ≤ j → j < k → j ∈ s.cache.index ∨ s.NeverComes j) :
    s.Serves := by
  -- every call that serves nothing moves the head closer to `k`
  induction hd : k - s.head using Nat.strong_induction_on generalizing s with
  | _ d ih =>
      refine Serves.of_step (a := .nextSegment) (t := s.nextSegment) ?_ rfl ?_ ?_
      · rw [feedAction, hidle]
      · exact if_pos hidle
      obtain ⟨dis, st, hfloor⟩ := s.floorSkip_eq
      have hdue : s.due := ⟨hplay, hset, by omega⟩
      have key := s.next_nextSegment
      generalize s.nextSegment = t at key ⊢
      cases key with
      | notDue h => exact absurd hdue h
      | overtaken _ h =>
          rw [hfloor] at h
          exact absurd h (by simp only; omega)
      | @gap last _ _ hg =>
          obtain ⟨g, hmem, h1, h2, rfl⟩ := Manifest.gapEnd_eq_some hg
          rw [hfloor] at h1 h2 ⊢
          simp only at h1 h2
          have hout : g.2 < k := by
            by_contra hno
            exact hgap ⟨g, hmem, by omega, by omega⟩
          have hwrap : wrapU64 (g.2 + 1) = g.2 + 1 := wrapU64_of_lt (by omega)
          rw [hwrap]
          refine ih (k - (g.2 + 1)) (by omega) hplay hset hidle hread hk hgap ?_ hkl hlt ?_ rfl
          · simp only [skipTo]
            omega
          · intro j hj hjk
            refine hacc j ?_ hjk
            simp only [skipTo] at hj
            omega
      | choose _ _ _ hm =>
          rw [hfloor] at hm ⊢
          exact serves_chosen rfl rfl hread hm
      | refused _ _ _ hm =>
          rw [hfloor] at hm ⊢
          simp only at hm
          have hne : max s.head s.firstAvailableSeq ≠ k := by
            rintro rfl
            exact hm hk
          have hwrap : wrapU64 (max s.head s.firstAvailableSeq + 1) =
              max s.head s.firstAvailableSeq + 1 := wrapU64_of_lt (by omega)
          refine ih (k - (max s.head s.firstAvailableSeq + 1)) (by omega) hplay hset hidle hread hk
            hgap ?_ hkl hlt ?_ (by simp only [refusalSkip, skipTo, hwrap])
          · simp only [refusalSkip, skipTo, hwrap]
            omega
          · intro j hj hjk
            simp only [refusalSkip, skipTo, hwrap] at hj
            have hother : j ≠ max s.head s.firstAvailableSeq := by omega
            refine (hacc j (by omega) hjk).imp_right fun h => h.imp_right fun h => ⟨?_, h.2⟩
            simp only [refusalSkip, skipTo, Function.update_of_ne hother]
            exact h.1
      | wait _ _ hg hm hr =>
          rw [hfloor] at hg hm hr
          simp only [givenUp, Bool.and_eq_false_iff, decide_eq_false_iff_not] at hg hm hr
          have hne : max s.head s.firstAvailableSeq ≠ k := by
            rintro rfl
            exact hm hk
          rcases hacc _ le_rfl (by omega) with hin | hin | ⟨hu, hl⟩
          · exact absurd hin hm
          · rw [← Manifest.gapEnd_isSome_iff, hg] at hin
            exact absurd hin (by simp)
          · rcases hr with hr | hr
            · exact absurd hu hr
            · exact absurd hl hr

end DecoderSession

/-! ### The start gate -/

namespace DecoderSession

variable (cfg : DecoderConfig) (s : DecoderSession)

/-- A finished, interrupted or live event is loaded, pinned or not; its init is cached,
every segment of the window is cached or will never come, and one that is no gap is
cached. -/
structure GateSetting : Prop where
  room : s.room = .live ∨ s.room.isVod = true
  event : s.wantedEvent = "" ∨ s.wantedEvent = s.eventId
  idle : s.feed = .idle
  readable : s.Readable
  latest : s.latestSeq < 2 ^ 64
  reserve : s.startReserveSegments cfg < 2 ^ 64
  window : ∀ k ≤ s.latestSeq, s.InWindow cfg k → k ∈ s.cache.index ∨ s.NeverComes k
  ahead : ∃ k ∈ s.cache.index, s.InWindow cfg k ∧ ¬ s.manifest.InGaps k

instance : Decidable (s.GateSetting cfg) :=
  decidable_of_iff
    ((s.room = .live ∨ s.room.isVod = true) ∧
      (s.wantedEvent = "" ∨ s.wantedEvent = s.eventId) ∧ s.feed = .idle ∧ s.Readable ∧
      s.latestSeq < 2 ^ 64 ∧ s.startReserveSegments cfg < 2 ^ 64 ∧
      (∀ k ≤ s.latestSeq, s.InWindow cfg k → k ∈ s.cache.index ∨ s.NeverComes k) ∧
      ∃ k ∈ s.cache.index, s.InWindow cfg k ∧ ¬ s.manifest.InGaps k)
    ⟨fun ⟨h1, h2, h3, h4, h5, h6, h7, h8⟩ => ⟨h1, h2, h3, h4, h5, h6, h7, h8⟩,
      fun ⟨h1, h2, h3, h4, h5, h6, h7, h8⟩ => ⟨h1, h2, h3, h4, h5, h6, h7, h8⟩⟩

/-- How many segments the gate asks for: one of a recording, the reserve of a live
event. -/
def gateNeed : ℕ := if s.playsAsRecording then 1 else max 1 (s.startReserveSegments cfg)

/-- The head is seated, or the window begins with as many cached segments as the gate asks
for. -/
def GateFilled : Prop :=
  s.headSet = true ∨ ∀ i < s.gateNeed cfg, wrapU64 (s.pumpStart cfg + i) ∈ s.cache.index

instance : Decidable (s.GateFilled cfg) := inferInstanceAs (Decidable (_ ∨ _))

variable {cfg s}

lemma le_contiguous {cached : Finset ℕ} {n m sq : ℕ} (hsq : sq < 2 ^ 64) :
    m ≤ contiguous cached n sq ↔ m ≤ n ∧ ∀ i < m, wrapU64 (sq + i) ∈ cached := by
  induction n generalizing m sq with
  | zero =>
      rw [contiguous]
      exact ⟨fun h => ⟨h, fun i hi => absurd hi (by omega)⟩, fun h => h.1⟩
  | succ n ih =>
      have hhere : wrapU64 (sq + 0) = sq := wrapU64_of_lt (by omega)
      have hlt : wrapU64 (sq + 1) < 2 ^ 64 := Nat.mod_lt _ (by decide)
      have hnext : ∀ i, wrapU64 (wrapU64 (sq + 1) + i) = wrapU64 (sq + (i + 1)) := by
        intro i
        simp only [wrapU64, Nat.mod_add_mod]
        congr 1
        omega
      cases m with
      | zero => exact ⟨fun _ => ⟨Nat.zero_le _, fun i hi => absurd hi (by omega)⟩, fun _ => Nat.zero_le _⟩
      | succ m =>
          rw [contiguous]
          split
          · rename_i hin
            rw [Nat.add_le_add_iff_right, ih hlt, Nat.add_le_add_iff_right]
            refine and_congr_right fun _ => ⟨fun h i hi => ?_, fun h i hi => ?_⟩
            · cases i with
              | zero => exact hhere.symm ▸ hin
              | succ i => exact hnext i ▸ h i (by omega)
            · exact (hnext i).symm ▸ h (i + 1) (by omega)
          · rename_i hout
            refine ⟨fun h => absurd h (by omega), fun h => ?_⟩
            exact absurd (hhere ▸ h.2 0 (by omega)) hout

/-- A run of cached segments is no longer than the cache. -/
lemma le_card_of_run {cached : Finset ℕ} {m sq : ℕ} (hm : m ≤ 2 ^ 64)
    (h : ∀ i < m, wrapU64 (sq + i) ∈ cached) : m ≤ cached.card := by
  have hinj : Set.InjOn (fun i => wrapU64 (sq + i)) (Finset.range m : Set ℕ) := by
    intro i hi j hj hij
    simp only [Finset.coe_range, Set.mem_Iio] at hi hj
    have := Nat.ModEq.add_left_cancel' sq (show sq + i ≡ sq + j [MOD 2 ^ 64] from hij)
    exact Nat.ModEq.eq_of_lt_of_lt this (by omega) (by omega)
  calc m = (Finset.range m).card := (Finset.card_range m).symm
    _ = ((Finset.range m).image fun i => wrapU64 (sq + i)).card :=
        (Finset.card_image_of_injOn hinj).symm
    _ ≤ cached.card := by
        refine Finset.card_le_card fun k hk => ?_
        obtain ⟨i, hi, rfl⟩ := Finset.mem_image.mp hk
        exact h i (Finset.mem_range.mp hi)

/-- The plan is known, and is the loaded event's. -/
lemma GateSetting.known (h : s.GateSetting cfg) :
    ¬ (s.room ≠ .live ∧ s.room.isVod = false) ∧
      ¬ (s.wantedEvent ≠ "" ∧ s.wantedEvent ≠ s.eventId) := by
  refine ⟨?_, fun h' => h.event.elim h'.1 h'.2⟩
  rintro ⟨h1, h2⟩
  rcases h.room with hr | hr
  · exact h1 hr
  · exact absurd hr (by simp [h2])

/-- The plan begins where the download does. -/
lemma startPlan_of_unset (h : s.GateSetting cfg) (hset : s.headSet = false) :
    s.startPlan cfg =
      { known := true, hasInit := s.cache.hasInit, want := s.pumpStart cfg
        need := s.gateNeed cfg
        have_ := contiguous s.cache.index s.cache.index.card (s.pumpStart cfg) } := by
  obtain ⟨hroom, hevent⟩ := h.known
  rw [startPlan, if_neg hroom, if_neg hevent, hset]
  simp only [Bool.false_eq_true, if_false, pumpStart, hset, gateNeed]

lemma ready_iff (h : s.GateSetting cfg) : (s.startPlan cfg).ready = true ↔ s.GateFilled cfg := by
  cases hset : s.headSet with
  | true =>
      obtain ⟨hroom, hevent⟩ := h.known
      rw [startPlan, if_neg hroom, if_neg hevent, hset]
      simp [StartPlan.ready, h.readable.1, GateFilled, hset]
  | false =>
      obtain ⟨k, -, hwin, -⟩ := h.ahead
      have hstart : s.pumpStart cfg < 2 ^ 64 := by
        have h1 := hwin.1
        have h2 := hwin.2
        have := h.latest
        omega
      have hneed : s.gateNeed cfg ≤ 2 ^ 64 := by
        have := h.reserve
        rw [gateNeed]
        split <;> omega
      rw [startPlan_of_unset h hset, GateFilled, hset]
      simp only [StartPlan.ready, h.readable.1, Bool.true_and, decide_eq_true_eq,
        Bool.false_eq_true, false_or]
      rw [le_contiguous hstart]
      exact ⟨fun h => h.2, fun h => ⟨le_card_of_run hneed h, h⟩⟩

/-- **The start gate.**  Over a window whose segments are all cached or never coming, with
one of them cached, `start` succeeds and `next_segment` then serves a segment, exactly when
the head is seated already or the window begins with the segments the gate counts. -/
theorem gate_reached (h : s.GateSetting cfg) :
    (s.startPlan cfg).ready = true ∧ (s.start cfg).Serves ↔ s.GateFilled cfg := by
  refine ⟨fun hs => (ready_iff h).mp hs.1, fun hf => ?_⟩
  have hready := (ready_iff h).mpr hf
  refine ⟨hready, ?_⟩
  obtain ⟨k, hk, hwin, hgap⟩ := h.ahead
  have hstart : max (if s.headSet then s.head else (s.startPlan cfg).want) s.firstAvailableSeq =
      s.pumpStart cfg := by
    cases hset : s.headSet with
    | true => simp only [pumpStart, hset, if_true]
    | false =>
        rw [startPlan_of_unset h hset]
        simp only [Bool.false_eq_true, if_false, pumpStart, hset]
        omega
  simp only [start, hready, if_true]
  have hkl : k ≤ s.latestSeq := by
    have := hwin.2
    omega
  refine serves_of_ahead rfl rfl h.idle h.readable hk hgap ?_ hkl h.latest ?_
  · simp only [hstart]
    exact hwin.1
  · intro j hj hjk
    simp only [hstart] at hj
    have := hwin.2
    exact h.window j (by omega) ⟨hj, by omega⟩

end DecoderSession

/-- A recording of three segments, with the given gaps, downloaded as far as it goes. -/
def loadRecording (gaps : List (ℕ × ℕ)) (seqs : List ℕ) : List DecoderAction :=
  pollOf { eventId := "e", status := .ended, updatedAtMs := 1, startedAtMs := 1, latestSeq := 2
           gaps := gaps } ++
    [DecoderAction.pumpDownloads 8 10, .getInit { body := [7] }, .writeInit true] ++
    downloadOf seqs ++ [DecoderAction.commitDownloads]

theorem gate_reached_gapInside : ∃ s : DecoderSession,
    ((s.startPlan sampleDecoder).ready = true ∧ (s.start sampleDecoder).Serves ↔
      s.GateFilled sampleDecoder) ∧ s.GateFilled sampleDecoder ∧ s.manifest.InGaps 1 := by
  obtain ⟨s, -, hset, hp⟩ := (Lib.exists_reach (DecoderSession.new sampleDecoder fun _ => none)
    (loadRecording [(1, 1)] [0, 2]) ⟨_, rfl⟩ (by decide +kernel) :
    ∃ s, Lib.Reach (step sampleDecoder) Lib.anyStep
      (fun s => ∃ folders, s = DecoderSession.new sampleDecoder folders) s ∧
      s.GateSetting sampleDecoder ∧ s.GateFilled sampleDecoder ∧ s.manifest.InGaps 1)
  exact ⟨s, gate_reached hset, hp⟩

/-- A recording whose first segment is a listed gap: everything else is cached, and `start`
does not succeed. -/
theorem gate_shut : ∃ s : DecoderSession,
    Lib.Reach (step sampleDecoder) Lib.anyStep
      (fun s => ∃ folders, s = DecoderSession.new sampleDecoder folders) s ∧
      s.GateSetting sampleDecoder ∧
      ¬ ((s.startPlan sampleDecoder).ready = true ∧ (s.start sampleDecoder).Serves) := by
  obtain ⟨s, hs, hset, hp⟩ := (Lib.exists_reach (DecoderSession.new sampleDecoder fun _ => none)
    (loadRecording [(0, 0)] [1, 2]) ⟨_, rfl⟩ (by decide +kernel) :
    ∃ s, Lib.Reach (step sampleDecoder) Lib.anyStep
      (fun s => ∃ folders, s = DecoderSession.new sampleDecoder folders) s ∧
      s.GateSetting sampleDecoder ∧ (s.startPlan sampleDecoder).ready = false)
  exact ⟨s, hs, hset, fun h => absurd h.1 (by simp [hp])⟩

end Multisite

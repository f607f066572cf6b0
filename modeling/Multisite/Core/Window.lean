import Mathlib.Data.List.DropRight
import Multisite.Core.Model

/-!
The rolling window of a manifest (`Manifest::push`, `Manifest::stream_duration_hint`).

The encoder and the finisher push the segments that were uploaded, in order; after a crash a
segment may be uploaded, and pushed, again.

* `Pushed`: the manifests such pushes make of one that lists nothing;
* `Rolling`: what holds of them, kept by a push of a new segment (`Rolling.push_new`) and by
  a repeat (`Rolling.push_again`);
* `window_of_pushed`: the listed segments are the last `window` that were pushed, in order
  and each as it was pushed last; `latest_seq` and `window_start_seq` go with them, and the
  duration hint lies among their durations, whatever order these stand in.
-/

namespace Multisite

namespace Manifest

variable {m m' : Manifest} {ps : List ManifestSegment} {s e : ManifestSegment} {window : ℕ}

/-! ### Pushes -/

/-- After `ps` a push of `s` is in order: it is newer than all of them, or it repeats one that
is still listed. -/
def Takes (m : Manifest) (ps : List ManifestSegment) (s : ManifestSegment) : Prop :=
  (∀ p ∈ ps, p.seq < s.seq) ∨ ∃ e ∈ m.segments, e.seq = s.seq

instance (m : Manifest) (ps : List ManifestSegment) (s : ManifestSegment) :
    Decidable (m.Takes ps s) := inferInstanceAs (Decidable (_ ∨ _))

/-- `m` is what the pushes `ps` have made of a manifest that listed nothing. -/
inductive Pushed (window : ℕ) : List ManifestSegment → Manifest → Prop
  | start {m : Manifest} (hseg : m.segments = []) (hlatest : m.latestSeq = 0) : Pushed window [] m
  | push {m : Manifest} {ps : List ManifestSegment} {s : ManifestSegment} (h : Pushed window ps m)
      (ht : m.Takes ps s) : Pushed window (ps ++ [s]) (m.push s window)

/-- The sequences pushed, in the order of their first push. -/
def firstPushed (ps : List ManifestSegment) : List ℕ :=
  ps.foldl (fun l s => if s.seq ∈ l then l else l ++ [s.seq]) []

/-- What was pushed last under a sequence. -/
def lastPushed (ps : List ManifestSegment) (seq : ℕ) : Option ManifestSegment :=
  ps.reverse.find? fun p => decide (p.seq = seq)

@[simp] lemma firstPushed_append (ps : List ManifestSegment) (s : ManifestSegment) :
    firstPushed (ps ++ [s]) =
      if s.seq ∈ firstPushed ps then firstPushed ps else firstPushed ps ++ [s.seq] := by
  rw [firstPushed, List.foldl_append]
  rfl

@[simp] lemma lastPushed_append (ps : List ManifestSegment) (s : ManifestSegment) (seq : ℕ) :
    lastPushed (ps ++ [s]) seq = if s.seq = seq then some s else lastPushed ps seq := by
  rw [lastPushed, List.reverse_append]
  by_cases h : s.seq = seq
  · simp [h]
  · simp [h, lastPushed]

lemma mem_firstPushed {seq : ℕ} : seq ∈ firstPushed ps ↔ ∃ p ∈ ps, p.seq = seq := by
  induction ps using List.reverseRecOn with
  | nil => simp [firstPushed]
  | append_singleton ps s ih =>
      rw [firstPushed_append]
      split
      · rename_i hs
        refine ih.trans ⟨?_, ?_⟩
        · rintro ⟨p, hp, rfl⟩
          exact ⟨p, List.mem_append_left _ hp, rfl⟩
        · rintro ⟨p, hp, rfl⟩
          rcases List.mem_append.mp hp with hp | hp
          · exact ⟨p, hp, rfl⟩
          · obtain rfl := List.mem_singleton.mp hp
            exact ih.mp hs
      · rw [List.mem_append, ih, List.mem_singleton]
        constructor
        · rintro (⟨p, hp, rfl⟩ | rfl)
          · exact ⟨p, List.mem_append_left _ hp, rfl⟩
          · exact ⟨s, by simp, rfl⟩
        · rintro ⟨p, hp, rfl⟩
          rcases List.mem_append.mp hp with hp | hp
          · exact Or.inl ⟨p, hp, rfl⟩
          · exact Or.inr (by rw [List.mem_singleton.mp hp])

/-! ### One push -/

/-- A manifest that the pushes `ps` have made. -/
structure Rolling (window : ℕ) (ps : List ManifestSegment) (m : Manifest) : Prop where
  increasing : (firstPushed ps).Pairwise (· < ·)
  listed : m.segments.map (·.seq) = (firstPushed ps).rtake window
  data : ∀ e ∈ m.segments, lastPushed ps e.seq = some e
  latest_le : ∀ p ∈ ps, p.seq ≤ m.latestSeq
  latest_mem : ps = [] ∧ m.latestSeq = 0 ∨ ∃ p ∈ ps, p.seq = m.latestSeq
  start : m.segments ≠ [] → m.segments.head?.map (·.seq) = some m.windowStartSeq

/-- The window of a list that goes on is the window of the old one that goes on. -/
lemma rtake_rtake_concat {α : Type} (l : List α) (x : α) (hw : 1 ≤ window) :
    (l.rtake window ++ [x]).rtake window = (l ++ [x]).rtake window := by
  obtain ⟨k, rfl⟩ : ∃ k, window = k + 1 := ⟨window - 1, by omega⟩
  rw [List.rtake_concat_succ, List.rtake_concat_succ]
  congr 1
  simp only [List.rtake, List.drop_drop, List.length_drop]
  congr 1
  omega

lemma map_replaceF (l : List ManifestSegment) (s : ManifestSegment) :
    (l.replaceF fun e => if e.seq = s.seq then some s else none).map (·.seq) = l.map (·.seq) := by
  induction l with
  | nil => rfl
  | cons x l ih =>
      rw [List.replaceF_cons]
      by_cases hx : x.seq = s.seq
      · rw [if_pos hx]
        exact congrArg (· :: l.map (·.seq)) hx.symm
      · rw [if_neg hx]
        exact congrArg (x.seq :: ·) ih

/-- Only the first entry of that sequence is replaced; in a list without repeats that is all. -/
lemma eq_or_of_mem_replaceF {l : List ManifestSegment} (hn : (l.map (·.seq)).Nodup)
    (h : e ∈ l.replaceF fun e => if e.seq = s.seq then some s else none) :
    e = s ∨ e ∈ l ∧ e.seq ≠ s.seq := by
  induction l with
  | nil => exact absurd h (by simp)
  | cons x l ih =>
      obtain ⟨hx, hl⟩ := List.nodup_cons.mp hn
      rw [List.replaceF_cons] at h
      by_cases hxs : x.seq = s.seq
      · rw [if_pos hxs] at h
        rcases List.mem_cons.mp h with rfl | h
        · exact Or.inl rfl
        · refine Or.inr ⟨List.mem_cons_of_mem _ h, fun heq => hx ?_⟩
          exact List.mem_map.mpr ⟨e, h, heq.trans hxs.symm⟩
      · rw [if_neg hxs] at h
        rcases List.mem_cons.mp h with rfl | h
        · exact Or.inr ⟨List.mem_cons_self, hxs⟩
        · exact (ih hl h).imp_right fun h => ⟨List.mem_cons_of_mem _ h.1, h.2⟩

namespace Rolling

/-- What is listed was pushed. -/
lemma pushed (h : Rolling window ps m) (he : e ∈ m.segments) : e.seq ∈ firstPushed ps := by
  have hmem : e.seq ∈ (firstPushed ps).rtake window :=
    h.listed ▸ List.mem_map.mpr ⟨e, he, rfl⟩
  exact List.mem_of_mem_drop hmem

lemma segments_nodup (h : Rolling window ps m) : (m.segments.map (·.seq)).Nodup :=
  h.listed ▸ (h.increasing.sublist (List.drop_sublist _ _)).imp ne_of_lt

lemma latest_push (h : Rolling window ps m) (s : ManifestSegment) :
    (∀ p ∈ ps ++ [s], p.seq ≤ (m.push s window).latestSeq) ∧
      ∃ p ∈ ps ++ [s], p.seq = (m.push s window).latestSeq := by
  rw [latestSeq_push]
  refine ⟨fun p hp => ?_, ?_⟩
  · rcases List.mem_append.mp hp with hp | hp
    · exact (h.latest_le p hp).trans (le_max_left _ _)
    · rw [List.mem_singleton.mp hp]
      exact le_max_right _ _
  · rcases h.latest_mem with ⟨-, h0⟩ | ⟨p, hp, heq⟩
    · exact ⟨s, by simp, by omega⟩
    · rcases le_total m.latestSeq s.seq with hle | hle
      · exact ⟨s, by simp, (max_eq_right hle).symm⟩
      · exact ⟨p, List.mem_append_left _ hp, heq.trans (max_eq_left hle).symm⟩

/-- A push of a newer segment. -/
lemma push_new (h : Rolling window ps m) (hw : 1 ≤ window) (hs : ∀ p ∈ ps, p.seq < s.seq) :
    Rolling window (ps ++ [s]) (m.push s window) := by
  have hfirst : ∀ x ∈ firstPushed ps, x < s.seq := by
    intro x hx
    obtain ⟨p, hp, rfl⟩ := mem_firstPushed.mp hx
    exact hs p hp
  have hnot : s.seq ∉ firstPushed ps := fun hmem => absurd (hfirst _ hmem) (lt_irrefl _)
  have hany : ¬ m.segments.any (·.seq == s.seq) := by
    rw [List.any_eq_true]
    rintro ⟨e, he, heq⟩
    exact hnot ((beq_iff_eq.mp heq) ▸ h.pushed he)
  have hseg : (m.push s window).segments = (m.segments ++ [s]).rtake window := by
    rw [push, if_neg hany]
    rfl
  have hstart : (m.push s window).windowStartSeq =
      ((m.push s window).segments.head?.map (·.seq)).getD 0 := by
    rw [push, if_neg hany]
  have hlatest := h.latest_push s
  refine ⟨?_, ?_, ?_, hlatest.1, Or.inr hlatest.2, fun hne => ?_⟩
  · rw [firstPushed_append, if_neg hnot]
    refine List.pairwise_append.mpr ⟨h.increasing, List.pairwise_singleton _ _, fun x hx y hy => ?_⟩
    rw [List.mem_singleton.mp hy]
    exact hfirst x hx
  · rw [firstPushed_append, if_neg hnot, hseg,
      ← rtake_rtake_concat (firstPushed ps) _ hw, ← h.listed]
    simp [List.rtake, List.map_drop]
  · intro e he
    rw [hseg] at he
    rw [lastPushed_append]
    rcases List.mem_append.mp (List.mem_of_mem_drop he) with he | he
    · have hne : s.seq ≠ e.seq := fun heq => hnot (heq ▸ h.pushed he)
      rw [if_neg hne]
      exact h.data e he
    · rw [List.mem_singleton.mp he, if_pos rfl]
  · obtain ⟨x, l, hcons⟩ := List.exists_cons_of_ne_nil hne
    rw [hstart, hcons]
    rfl

/-- A repeat of a segment that is still listed. -/
lemma push_again (h : Rolling window ps m) (hs : ∃ e ∈ m.segments, e.seq = s.seq) :
    Rolling window (ps ++ [s]) (m.push s window) := by
  have hmem : s.seq ∈ firstPushed ps := by
    obtain ⟨e, he, heq⟩ := hs
    exact heq ▸ h.pushed he
  have hany : m.segments.any (·.seq == s.seq) := by
    obtain ⟨e, he, heq⟩ := hs
    exact List.any_eq_true.mpr ⟨e, he, beq_iff_eq.mpr heq⟩
  have hseg : (m.push s window).segments =
      m.segments.replaceF fun e => if e.seq = s.seq then some s else none := by
    rw [push, if_pos hany]
  have hstart : (m.push s window).windowStartSeq = m.windowStartSeq := by
    rw [push, if_pos hany]
  have hmap : (m.push s window).segments.map (·.seq) = m.segments.map (·.seq) := by
    rw [hseg, map_replaceF]
  have hlatest := h.latest_push s
  refine ⟨?_, ?_, ?_, hlatest.1, Or.inr hlatest.2, fun _ => ?_⟩
  · rw [firstPushed_append, if_pos hmem]
    exact h.increasing
  · rw [firstPushed_append, if_pos hmem, hmap]
    exact h.listed
  · intro e he
    rw [hseg] at he
    rw [lastPushed_append]
    rcases eq_or_of_mem_replaceF h.segments_nodup he with rfl | ⟨he, hne⟩
    · rw [if_pos rfl]
    · rw [if_neg hne.symm]
      exact h.data e he
  · obtain ⟨e, he, -⟩ := hs
    rw [← List.head?_map, hmap, List.head?_map, hstart]
    exact h.start (List.ne_nil_of_mem he)

end Rolling

/-- Every sequence of pushes in order keeps the window rolling. -/
theorem Pushed.rolling (h : Pushed window ps m) (hw : 1 ≤ window) : Rolling window ps m := by
  induction h with
  | @start m hseg hlatest =>
      exact ⟨List.Pairwise.nil, by simp [hseg, firstPushed], by simp [hseg], by simp,
        Or.inl ⟨rfl, hlatest⟩, fun hne => absurd hseg hne⟩
  | push _ ht ih =>
      rcases ht with hnew | hagain
      · exact ih.push_new hw hnew
      · exact ih.push_again hagain

/-! ### The duration hint -/

/-- The listed durations that the hint looks at. -/
def durations (m : Manifest) : List ℚ :=
  (m.segments.map (·.durationS)).filter fun x => decide (1 / 10 < x)

lemma streamDurationHint_eq (m : Manifest) :
    m.streamDurationHint = ((m.durations.insertionSort (· ≤ ·))[
      (m.durations.insertionSort (· ≤ ·)).length / 2]?).getD 0 := rfl

lemma streamDurationHint_mem (h : m.durations ≠ []) : m.streamDurationHint ∈ m.durations := by
  rw [streamDurationHint_eq, ← List.mem_insertionSort (· ≤ ·)]
  have hlen : (m.durations.insertionSort (· ≤ ·)).length / 2 <
      (m.durations.insertionSort (· ≤ ·)).length := by
    rw [List.length_insertionSort]
    exact Nat.div_lt_self (List.length_pos_iff.mpr h) (by norm_num)
  rw [List.getElem?_eq_getElem hlen]
  exact List.getElem_mem hlen

lemma streamDurationHint_perm
    (h : (m'.segments.map (·.durationS)).Perm (m.segments.map (·.durationS))) :
    m'.streamDurationHint = m.streamDurationHint := by
  have hsort : m'.durations.insertionSort (· ≤ ·) = m.durations.insertionSort (· ≤ ·) := by
    refine List.Perm.eq_of_pairwise' (List.pairwise_insertionSort _ _)
      (List.pairwise_insertionSort _ _) ?_
    exact (List.perm_insertionSort _ _).trans
      ((h.filter _).trans (List.perm_insertionSort _ _).symm)
  rw [streamDurationHint_eq, streamDurationHint_eq, hsort]

/-! ### The window -/

/-- **The rolling window**: after pushes in order, each of a newer segment or of one still
listed, the listed sequences increase and are the last `window` that were pushed first, each
as it was pushed last; `latest_seq` is the greatest pushed and `window_start_seq` the first
listed; and the duration hint is the same in any order of the durations and lies between the
least and the greatest of those above 0.1 s. -/
theorem window_of_pushed (window : ℕ) (hw : 1 ≤ window) (ps : List ManifestSegment)
    (m : Manifest) (h : Pushed window ps m) :
    (m.segments.map (·.seq)).Pairwise (· < ·) ∧
      m.segments.map (·.seq) = (firstPushed ps).rtake window ∧
      m.segments.length = min window (firstPushed ps).length ∧
      (∀ e ∈ m.segments, lastPushed ps e.seq = some e) ∧
      (∀ p ∈ ps, p.seq ≤ m.latestSeq) ∧
      (ps ≠ [] → (∃ p ∈ ps, p.seq = m.latestSeq) ∧
        m.segments.head?.map (·.seq) = some m.windowStartSeq) ∧
      (∀ m' : Manifest, (m'.segments.map (·.durationS)).Perm (m.segments.map (·.durationS)) →
        m'.streamDurationHint = m.streamDurationHint) ∧
      (m.durations ≠ [] → ∃ lo ∈ m.durations, ∃ hi ∈ m.durations,
        (∀ d ∈ m.durations, lo ≤ d ∧ d ≤ hi) ∧
          lo ≤ m.streamDurationHint ∧ m.streamDurationHint ≤ hi) := by
  have hr := h.rolling hw
  have hlen : m.segments.length = min window (firstPushed ps).length := by
    have := congrArg List.length hr.listed
    rw [List.length_map, List.rtake, List.length_drop] at this
    omega
  refine ⟨?_, hr.listed, hlen, hr.data, hr.latest_le, fun hne => ⟨?_, hr.start ?_⟩,
    fun m' hperm => streamDurationHint_perm hperm, fun hne => ?_⟩
  · exact hr.listed ▸ hr.increasing.sublist (List.drop_sublist _ _)
  · exact hr.latest_mem.resolve_left fun h0 => hne h0.1
  · obtain ⟨p, l, rfl⟩ := List.exists_cons_of_ne_nil hne
    have hpos : 0 < (firstPushed (p :: l)).length :=
      List.length_pos_of_mem (mem_firstPushed.mpr ⟨p, List.mem_cons_self, rfl⟩)
    exact List.ne_nil_of_length_pos (by omega)
  · have hhint := streamDurationHint_mem hne
    obtain ⟨lo, hlo, hmin⟩ := m.durations.toFinset.exists_min_image id
      ⟨_, List.mem_toFinset.mpr hhint⟩
    obtain ⟨hi, hhi, hmax⟩ := m.durations.toFinset.exists_max_image id
      ⟨_, List.mem_toFinset.mpr hhint⟩
    refine ⟨lo, List.mem_toFinset.mp hlo, hi, List.mem_toFinset.mp hhi, fun d hd => ?_, ?_, ?_⟩
    · exact ⟨hmin d (List.mem_toFinset.mpr hd), hmax d (List.mem_toFinset.mpr hd)⟩
    · exact hmin _ (List.mem_toFinset.mpr hhint)
    · exact hmax _ (List.mem_toFinset.mpr hhint)

/-- A window of two: the third segment pushes the first out, and the second is uploaded
again. -/
theorem window_of_pushed_resumed :
    (((({} : Manifest).push { seq := 4 } 2).push { seq := 5, durationS := 3 } 2).push
        { seq := 7 } 2 |>.push { seq := 5, durationS := 6 } 2).segments.map (·.seq) = [5, 7] :=
  (window_of_pushed 2 (by norm_num)
      [{ seq := 4 }, { seq := 5, durationS := 3 }, { seq := 7 }, { seq := 5, durationS := 6 }] _
      ((((Pushed.start rfl rfl).push (by decide)).push (by decide)).push (by decide) |>.push
        (by decide))).2.1.trans (by decide)

end Manifest

end Multisite

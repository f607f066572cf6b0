import Multisite.Playout.Skip

/-!
`SeekSkip` as its header has it (`seek_skip.h`): five integers and flags, where a pts stands for
"no base yet" and a difference wraps around, armed and asked again and again.

* `drops_same`, `drops_other`: one call, as far as a stream can tell;
* `frameCalls_filter`: the other stream's calls might as well not be made;
* `frameCalls_eq`: on a stream by itself the fields are those of `Playout.Skip`;
* `each_own_share`: what is dropped of a stream, whatever an earlier arm left.
-/

namespace Multisite

/-- `kUnsetPts`. -/
def kUnsetPts : ℤ := -9223372036854775808

/-- A difference of `int64_t`. -/
def minusNs (a b : ℤ) : ℤ := (a - b).bmod (2 ^ 64)

lemma minusNs_eq {a b : ℤ} (hlow : -(2 ^ 63) ≤ a - b) (hhigh : a - b < 2 ^ 63) :
    minusNs a b = a - b := by
  unfold minusNs
  exact Int.bmod_eq_of_le (by omega) (by omega)

/-- The members of `SeekSkip`. -/
structure SkipFields where
  skipNs : ℤ := -1
  baseV : ℤ := kUnsetPts
  baseA : ℤ := kUnsetPts
  arrivedV : Bool := false
  arrivedA : Bool := false
  deriving DecidableEq, Repr

namespace SkipFields

/-- `arm`. -/
def arm (s : SkipFields) (skipNs : ℤ) : SkipFields :=
  { s with
    baseV := kUnsetPts, baseA := kUnsetPts, arrivedV := false, arrivedA := false, skipNs }

/-- `disarm`. -/
def disarm (s : SkipFields) : SkipFields := { s with skipNs := -1 }

/-- `base`. -/
def base (s : SkipFields) (isVideo : Bool) : ℤ := if isVideo then s.baseV else s.baseA

/-- `arrived`. -/
def arrived (s : SkipFields) (isVideo : Bool) : Bool := if isVideo then s.arrivedV else s.arrivedA

/-- `base.store`. -/
def setBase (s : SkipFields) (isVideo : Bool) (b : ℤ) : SkipFields :=
  if isVideo then { s with baseV := b } else { s with baseA := b }

/-- `arrived.store`, and the check for both. -/
def arrive (s : SkipFields) (isVideo : Bool) : SkipFields :=
  let s := if isVideo then { s with arrivedV := true } else { s with arrivedA := true }
  if s.arrivedV && s.arrivedA then { s with skipNs := -1 } else s

/-- `drops`. -/
def drops (s : SkipFields) (ptsNs : ℤ) (isVideo : Bool) : Bool × SkipFields :=
  if s.skipNs < 0 then (false, s)
  else if s.arrived isVideo then (false, s)
  else
    let b := s.base isVideo
    let (s, b) := if b = kUnsetPts then (s.setBase isVideo ptsNs, ptsNs) else (s, b)
    if minusNs ptsNs b < s.skipNs then (true, s) else (false, s.arrive isVideo)

end SkipFields

/-- A call from outside: a frame is asked about, or a seek arms or disarms. -/
inductive SkipCall where
  | arm (skipNs : ℤ)
  | disarm
  | drops (f : DecodedFrame)
  deriving DecidableEq, Repr

/-- What a call leaves. -/
def SkipFields.call (s : SkipFields) : SkipCall → SkipFields
  | .arm n => s.arm n
  | .disarm => s.disarm
  | .drops f => (s.drops f.ptsNs f.isVideo).2

/-- The answers to the frames asked about one after the other. -/
def frameCalls (s : SkipFields) : List DecodedFrame → List (DecodedFrame × Bool)
  | [] => []
  | f :: fs =>
      (f, (s.drops f.ptsNs f.isVideo).1) :: frameCalls (s.drops f.ptsNs f.isVideo).2 fs

/-! ### As far as one stream can tell -/

namespace SkipFields

variable (s t : SkipFields) (u v : Bool) (b p : ℤ)

/-- The stream has nothing left to skip. -/
def Done : Prop := s.skipNs < 0 ∨ s.arrived v = true

instance : Decidable (s.Done v) := inferInstanceAs (Decidable (_ ∨ _))

/-- Two states that a stream cannot tell apart. -/
def Same : Prop :=
  (s.Done v ∧ t.Done v) ∨
    (¬ s.Done v ∧ ¬ t.Done v ∧ s.skipNs = t.skipNs ∧ s.base v = t.base v)

@[simp] lemma setBase_skipNs : (s.setBase v b).skipNs = s.skipNs := by cases v <;> rfl

@[simp] lemma setBase_arrived : (s.setBase v b).arrived u = s.arrived u := by
  cases v <;> cases u <;> rfl

@[simp] lemma base_setBase : (s.setBase v b).base v = b := by cases v <;> rfl

lemma base_setBase_ne (h : u ≠ v) : (s.setBase v b).base u = s.base u := by
  cases v <;> cases u <;> simp_all [setBase, base]

@[simp] lemma done_setBase : (s.setBase v b).Done u ↔ s.Done u := by simp [Done]

/-- The stream that arrives is done with. -/
lemma done_arrive : (s.arrive v).Done v := by
  cases v <;> simp only [arrive, Bool.false_eq_true, if_false, if_true] <;> split
  · exact .inl (show (-1 : ℤ) < 0 by decide)
  · exact .inr rfl
  · exact .inl (show (-1 : ℤ) < 0 by decide)
  · exact .inr rfl

/-- The other stream goes on as it was, or was done with before. -/
lemma same_arrive (h : u ≠ v) : (s.arrive v).Same s u := by
  by_cases hu : s.Done u
  · refine .inl ⟨?_, hu⟩
    obtain hn | ha := hu
    · refine .inl ?_
      cases v <;> simp only [arrive, Bool.false_eq_true, if_false, if_true] <;> split <;>
        first | exact hn | exact (by decide : (-1 : ℤ) < 0)
    · refine .inr ?_
      cases v <;> cases u <;> simp_all [arrive, arrived]
  · have hua : s.arrived u = false := by
      simpa using fun ha => hu (.inr ha)
    have hn : (s.arrive v).skipNs = s.skipNs := by
      cases v <;> cases u <;> simp_all [arrive, arrived]
    have ha : (s.arrive v).arrived u = s.arrived u := by
      cases v <;> cases u <;> simp_all [arrive, arrived]
    have hb : (s.arrive v).base u = s.base u := by
      cases v <;> cases u <;> simp_all [arrive, arrived, base]
    refine .inr ⟨?_, hu, hn, hb⟩
    simpa only [Done, hn, ha] using hu

variable {s t v}

lemma Same.refl (s : SkipFields) (v : Bool) : s.Same s v := by
  by_cases h : s.Done v
  · exact .inl ⟨h, h⟩
  · exact .inr ⟨h, h, rfl, rfl⟩

lemma Same.trans {r : SkipFields} (hrs : r.Same s v) (hst : s.Same t v) : r.Same t v := by
  obtain ⟨hr, hs⟩ | ⟨hr, hs, hn, hb⟩ := hrs <;> obtain ⟨hs', ht⟩ | ⟨hs', ht, hn', hb'⟩ := hst
  · exact .inl ⟨hr, ht⟩
  · exact absurd hs hs'
  · exact absurd hs' hs
  · exact .inr ⟨hr, ht, hn.trans hn', hb.trans hb'⟩

/-- `drops` for a stream that is done with. -/
lemma drops_done (h : s.Done v) : s.drops p v = (false, s) := by
  unfold drops
  by_cases hn : s.skipNs < 0
  · rw [if_pos hn]
  · rw [if_neg hn, if_pos (h.resolve_left hn)]

/-- The base a frame is measured from. -/
def lead (s : SkipFields) (ptsNs : ℤ) (isVideo : Bool) : ℤ :=
  if s.base isVideo = kUnsetPts then ptsNs else s.base isVideo

/-- `drops` before that. -/
lemma drops_armed (h : ¬ s.Done v) :
    s.drops p v =
      if minusNs p (s.lead p v) < s.skipNs then (true, s.setBase v (s.lead p v))
      else (false, (s.setBase v (s.lead p v)).arrive v) := by
  rw [Done, not_or] at h
  have hset (hb : s.base v ≠ kUnsetPts) : s.setBase v (s.base v) = s := by
    cases v <;> rfl
  by_cases hb : s.base v = kUnsetPts
  · simp only [drops, if_neg h.1, if_neg h.2, lead, if_pos hb, setBase_skipNs]
  · simp only [drops, if_neg h.1, if_neg h.2, lead, if_neg hb, hset hb]

/-- A call for the stream itself. -/
lemma drops_same (h : s.Same t v) :
    (s.drops p v).1 = (t.drops p v).1 ∧ ((s.drops p v).2).Same (t.drops p v).2 v := by
  obtain ⟨hs, ht⟩ | ⟨hs, ht, hn, hb⟩ := h
  · rw [drops_done p hs, drops_done p ht]
    exact ⟨rfl, .inl ⟨hs, ht⟩⟩
  · have hlead : s.lead p v = t.lead p v := by simp only [lead, hb]
    rw [drops_armed p hs, drops_armed p ht, hn, hlead]
    split
    · exact ⟨rfl, .inr ⟨by simpa using hs, by simpa using ht, by simpa using hn, by simp⟩⟩
    · exact ⟨rfl, .inl ⟨done_arrive _ v, done_arrive _ v⟩⟩

/-- A call for the other stream. -/
lemma drops_other (h : u ≠ v) : ((s.drops p u).2).Same s v := by
  by_cases hd : s.Done u
  · rw [drops_done p hd]
    exact .refl s v
  · have hset (b : ℤ) : (s.setBase u b).Same s v := by
      by_cases hv : s.Done v
      · exact .inl ⟨by simpa using hv, hv⟩
      · exact .inr ⟨by simpa using hv, hv, setBase_skipNs .., base_setBase_ne _ _ _ _ h.symm⟩
    rw [drops_armed p hd]
    split
    · exact hset _
    · exact (same_arrive _ _ _ h.symm).trans (hset _)

/-- What an arm leaves does not go by what it found. -/
lemma arm_eq (s t : SkipFields) (n : ℤ) : s.arm n = t.arm n := rfl

end SkipFields

/-- The other stream's calls might as well not be made, and a stream cannot tell one state from
another that is the same to it. -/
lemma frameCalls_filter (v : Bool) (fs : List DecodedFrame) (s t : SkipFields)
    (h : s.Same t v) :
    (frameCalls s fs).filter (fun x => x.1.isVideo == v)
      = frameCalls t (fs.filter fun f => f.isVideo == v) := by
  induction fs generalizing s t with
  | nil => rfl
  | cons f fs ih =>
      by_cases hf : f.isVideo = v
      · subst hf
        obtain ⟨hanswer, hstate⟩ := SkipFields.drops_same f.ptsNs h
        simp only [frameCalls, List.filter_cons, beq_self_eq_true, if_true, hanswer,
          ih _ _ hstate]
      · have hstate : ((s.drops f.ptsNs f.isVideo).2).Same t v :=
          (SkipFields.drops_other f.isVideo f.ptsNs hf).trans h
        simp only [frameCalls, List.filter_cons, beq_eq_false_iff_ne.mpr hf, Bool.false_eq_true,
          if_false, ih _ _ hstate]

/-! ### A stream by itself -/

/-- The frames before the first that lies `skipNs` after the pts. -/
def beforeSkip (skipNs first : ℤ) (f : DecodedFrame) : Bool := f.ptsNs - first < skipNs

/-- The frames of a stream that a skip drops, and those it lets through. -/
def shareOf (skipNs : ℤ) (fs : List DecodedFrame) : List (DecodedFrame × Bool) :=
  let first := (fs.head?.map (·.ptsNs)).getD 0
  (fs.takeWhile (beforeSkip skipNs first)).map (fun f => (f, true)) ++
    (fs.dropWhile (beforeSkip skipNs first)).map fun f => (f, false)

/-- A pts for which the fields are the integers they stand for: it is not the one for "no base
yet", and differences from the stream's others do not wrap around. -/
structure Plain (fs : List DecodedFrame) : Prop where
  set : ∀ f ∈ fs, f.ptsNs ≠ kUnsetPts
  low : ∀ f ∈ fs, ∀ g ∈ fs, -(2 ^ 63) ≤ f.ptsNs - g.ptsNs
  high : ∀ f ∈ fs, ∀ g ∈ fs, f.ptsNs - g.ptsNs < 2 ^ 63

/-- From a base on, `streamSkips` cuts the stream in two. -/
lemma streamSkips_some (n b : ℤ) (fs : List DecodedFrame) :
    streamSkips n (some b) fs
      = (fs.takeWhile (beforeSkip n b)).map (fun f => (f, true)) ++
        (fs.dropWhile (beforeSkip n b)).map fun f => (f, false) := by
  induction fs with
  | nil => rfl
  | cons f fs ih =>
      rw [streamSkips, Option.getD_some]
      by_cases h : f.ptsNs - b < n
      · rw [if_pos h, ih, List.takeWhile_cons_of_pos (by simpa [beforeSkip] using h),
          List.dropWhile_cons_of_pos (by simpa [beforeSkip] using h)]
        rfl
      · rw [if_neg h, List.takeWhile_cons_of_neg (by simpa [beforeSkip] using h),
          List.dropWhile_cons_of_neg (by simpa [beforeSkip] using h)]
        rfl

/-- A stream measured from its first frame. -/
lemma streamSkips_none (n : ℤ) (fs : List DecodedFrame) :
    streamSkips n none fs = shareOf n fs := by
  cases fs with
  | nil => rfl
  | cons f fs =>
      have hfirst : streamSkips n none (f :: fs) = streamSkips n (some f.ptsNs) (f :: fs) := rfl
      rw [hfirst, streamSkips_some]
      rfl

/-- A stream that is done with loses nothing more. -/
lemma frameCalls_done (v : Bool) (fs : List DecodedFrame) (s : SkipFields) (hs : s.Done v)
    (hv : ∀ f ∈ fs, f.isVideo = v) : frameCalls s fs = fs.map fun f => (f, false) := by
  induction fs with
  | nil => rfl
  | cons f fs ih =>
      have hf : f.isVideo = v := hv f List.mem_cons_self
      rw [frameCalls, hf, SkipFields.drops_done _ hs, List.map_cons,
        ih fun g hg => hv g (List.mem_cons_of_mem _ hg)]

/-- On a stream by itself the fields say what `streamSkips` says. -/
lemma frameCalls_eq (v : Bool) (all fs : List DecodedFrame) (hall : Plain all)
    (hsub : ∀ f ∈ fs, f ∈ all) (hv : ∀ f ∈ fs, f.isVideo = v) (s : SkipFields)
    (hs : ¬ s.Done v) (hbase : s.base v = kUnsetPts ∨ ∃ g ∈ all, s.base v = g.ptsNs) :
    frameCalls s fs
      = streamSkips s.skipNs (if s.base v = kUnsetPts then none else some (s.base v)) fs := by
  induction fs generalizing s with
  | nil => rfl
  | cons f fs ih =>
      have hf : f.isVideo = v := hv f List.mem_cons_self
      have hmem : f ∈ all := hsub f List.mem_cons_self
      have htail : ∀ g ∈ fs, g ∈ all := fun g hg => hsub g (List.mem_cons_of_mem _ hg)
      have hvtail : ∀ g ∈ fs, g.isVideo = v := fun g hg => hv g (List.mem_cons_of_mem _ hg)
      -- the frame that leads is one of the stream's, so nothing wraps around
      obtain ⟨g, hg, hlead⟩ : ∃ g ∈ all, s.lead f.ptsNs v = g.ptsNs := by
        unfold SkipFields.lead
        by_cases hb : s.base v = kUnsetPts
        · exact ⟨f, hmem, if_pos hb⟩
        · rw [if_neg hb]
          exact hbase.resolve_left hb
      have hminus : minusNs f.ptsNs (s.lead f.ptsNs v) = f.ptsNs - s.lead f.ptsNs v := by
        rw [hlead]
        exact minusNs_eq (hall.low f hmem g hg) (hall.high f hmem g hg)
      have hgetD : (if s.base v = kUnsetPts then none else some (s.base v)).getD f.ptsNs
          = s.lead f.ptsNs v := by
        unfold SkipFields.lead
        split <;> rfl
      rw [frameCalls, hf, SkipFields.drops_armed _ hs, hminus, streamSkips, hgetD]
      by_cases h : f.ptsNs - s.lead f.ptsNs v < s.skipNs
      · have hset : s.lead f.ptsNs v ≠ kUnsetPts := by
          rw [hlead]
          exact hall.set g hg
        rw [if_pos h, if_pos h, ih htail hvtail _ (by simpa using hs)
          (.inr ⟨g, hg, by simpa using hlead⟩)]
        simp only [SkipFields.setBase_skipNs, SkipFields.base_setBase, if_neg hset]
      · rw [if_neg h, if_neg h, frameCalls_done v fs _ (SkipFields.done_arrive _ v) hvtail]

/-- However a skip is armed, with whatever was asked before: a stream's answers go by its own
frames alone, and, where their pts are plain, those dropped are the ones before the first that
lies the skip past the stream's first. -/
theorem each_own_share (s : SkipFields) (calls : List SkipCall) (n : ℤ) (hn : 0 ≤ n) (v : Bool)
    (fs : List DecodedFrame) :
    (∀ (s' : SkipFields) (fs' : List DecodedFrame),
        (fs'.filter fun f => f.isVideo == v) = (fs.filter fun f => f.isVideo == v) →
        (frameCalls (s'.arm n) fs').filter (fun x => x.1.isVideo == v)
          = (frameCalls ((calls.foldl SkipFields.call s).arm n) fs).filter
              fun x => x.1.isVideo == v) ∧
      (Plain (fs.filter fun f => f.isVideo == v) →
        (frameCalls ((calls.foldl SkipFields.call s).arm n) fs).filter (fun x => x.1.isVideo == v)
          = shareOf n (fs.filter fun f => f.isVideo == v)) := by
  set r := calls.foldl SkipFields.call s
  have hdone : ¬ (r.arm n).Done v := by
    cases v <;> simp [SkipFields.Done, SkipFields.arm, SkipFields.arrived, hn]
  have hunset : (r.arm n).base v = kUnsetPts := by cases v <;> rfl
  refine ⟨fun s' fs' hfs => ?_, fun hplain => ?_⟩
  · rw [SkipFields.arm_eq s' r, frameCalls_filter v fs' _ _ (.refl _ v), hfs,
      frameCalls_filter v fs _ _ (.refl _ v)]
  · have hv : ∀ f ∈ fs.filter (fun f => f.isVideo == v), f.isVideo = v := by
      intro f hf
      simpa using (List.mem_filter.mp hf).2
    rw [frameCalls_filter v fs _ _ (.refl _ v),
      frameCalls_eq v _ _ hplain (fun _ hf => hf) hv _ hdone (.inl hunset), hunset, if_pos rfl,
      streamSkips_none]
    rfl

/-- The sound ahead of the picture, and an earlier skip cut short. -/
theorem each_own_share_armed :
    (frameCalls (([.arm 5, .drops ⟨7, true⟩] : List SkipCall).foldl SkipFields.call {} |>.arm 2)
        [⟨30, false⟩, ⟨0, true⟩, ⟨31, false⟩, ⟨3, true⟩, ⟨1, true⟩]).filter
          (fun x => x.1.isVideo == true)
      = [(⟨0, true⟩, true), (⟨3, true⟩, false), (⟨1, true⟩, false)] :=
  (each_own_share {} [.arm 5, .drops ⟨7, true⟩] 2 (by decide) true
    [⟨30, false⟩, ⟨0, true⟩, ⟨31, false⟩, ⟨3, true⟩, ⟨1, true⟩]).2
    ⟨by decide, by decide, by decide⟩

/-- A first frame stamped `kUnsetPts` claims no base: the frame after it starts over, and is
dropped though it lies further on than the skip. -/
theorem share_of_unset :
    ¬ ∀ (s : SkipFields) (n : ℤ) (_ : 0 ≤ n) (v : Bool) (fs : List DecodedFrame),
      (frameCalls (s.arm n) fs).filter (fun x => x.1.isVideo == v)
        = shareOf n (fs.filter fun f => f.isVideo == v) := by
  intro h
  have := h {} 1 (by decide) true [⟨kUnsetPts, true⟩, ⟨kUnsetPts + 5, true⟩]
  revert this
  decide

end Multisite

import Mathlib.Tactic

/-!
The skip of a seek that lands inside a segment: `SeekSkip` of the OBS source (`seek_skip.h`),
which measures each stream from its own first frame, and the campus player's (`deliver_loop` of
`player.cpp`), which measures both from one base that `feed_loop` resets for every fragment.

The frames of the segment and of those that follow it are a list, in the order the player's
delivery takes them; `SeekSkip` sees each stream in the same order.

* `seekSkips_filter`: what `SeekSkip` drops of a stream depends on that stream alone;
* `skips_alike`: exactly when the two drop the same frames.
-/

namespace Multisite

/-- A decoded frame, as far as a skip goes by it. -/
structure DecodedFrame where
  ptsNs : ℤ
  isVideo : Bool
  deriving DecidableEq, Repr

/-! ### The OBS source -/

/-- `SeekSkip`; a base is `none` for `kUnsetPts`, which is no frame's. -/
structure SeekSkip where
  skipNs : ℤ := -1
  baseV : Option ℤ := none
  baseA : Option ℤ := none
  arrivedV : Bool := false
  arrivedA : Bool := false
  deriving DecidableEq, Repr

namespace SeekSkip

/-- `arm`. -/
def arm (skipNs : ℤ) : SeekSkip := { skipNs }

/-- `base`. -/
def base (s : SeekSkip) (isVideo : Bool) : Option ℤ := if isVideo then s.baseV else s.baseA

/-- `arrived`. -/
def arrived (s : SeekSkip) (isVideo : Bool) : Bool := if isVideo then s.arrivedV else s.arrivedA

/-- A base claimed for a stream. -/
def setBase (s : SeekSkip) (isVideo : Bool) (b : ℤ) : SeekSkip :=
  if isVideo then { s with baseV := some b } else { s with baseA := some b }

/-- A stream has arrived; the skip is over once both have. -/
def arrive (s : SeekSkip) (isVideo : Bool) : SeekSkip :=
  let s := if isVideo then { s with arrivedV := true } else { s with arrivedA := true }
  if s.arrivedV && s.arrivedA then { s with skipNs := -1 } else s

/-- `drops`. -/
def drops (s : SeekSkip) (f : DecodedFrame) : Bool × SeekSkip :=
  if s.skipNs < 0 then (false, s)
  else if s.arrived f.isVideo then (false, s)
  else
    let b := (s.base f.isVideo).getD f.ptsNs
    let s := s.setBase f.isVideo b
    if f.ptsNs - b < s.skipNs then (true, s) else (false, s.arrive f.isVideo)

end SeekSkip

/-- What is dropped of the frames. -/
def seekSkips (s : SeekSkip) : List DecodedFrame → List (DecodedFrame × Bool)
  | [] => []
  | f :: fs => (f, (s.drops f).1) :: seekSkips (s.drops f).2 fs

/-! ### The campus player -/

/-- `m_seg_first_pts_ns` and `m_skip_until_pts_ns`. -/
structure PlayerSkip where
  segFirstPtsNs : ℤ := -1
  skipUntilPtsNs : ℤ := -1
  deriving DecidableEq, Repr

/-- A frame that delivery takes, and where the resets of the feed loop fall: before it reads the
base, between that and its own write of it, and after. -/
structure Delivered where
  frame : DecodedFrame
  before : Bool := false
  between : Bool := false
  later : Bool := false
  deriving DecidableEq, Repr

namespace PlayerSkip

/-- What `feed_loop` does before a push: the base goes, and a skip is armed where there is one. -/
def feed (s : PlayerSkip) (skipToMs : ℤ) : PlayerSkip :=
  { segFirstPtsNs := -1
    skipUntilPtsNs := if 0 < skipToMs then skipToMs * 1000000 else s.skipUntilPtsNs }

/-- A reset, if one falls there. -/
def resetIf (s : PlayerSkip) (falls : Bool) : PlayerSkip := if falls then s.feed 0 else s

/-- The base is read, and claimed where there is none. -/
def claim (s : PlayerSkip) (ptsNs : ℤ) (between : Bool) : PlayerSkip × ℤ :=
  let b := s.segFirstPtsNs
  let s := s.resetIf between
  if b < 0 then ({ s with segFirstPtsNs := ptsNs }, ptsNs) else (s, b)

/-- `deliver_loop` from its skip on: whether the frame is dropped. -/
def deliver (s : PlayerSkip) (d : Delivered) : Bool × PlayerSkip :=
  let s := s.resetIf d.before
  if 0 ≤ s.skipUntilPtsNs then
    let (s, b) := s.claim d.frame.ptsNs d.between
    if d.frame.ptsNs - b < s.skipUntilPtsNs then (true, s.resetIf d.later)
    else
      let s := { s with skipUntilPtsNs := -1 }.resetIf d.later
      (false, (s.claim d.frame.ptsNs false).1)
  else (false, ((s.claim d.frame.ptsNs d.between).1).resetIf d.later)

end PlayerSkip

/-- What is dropped of the frames. -/
def playerSkips (s : PlayerSkip) : List Delivered → List (DecodedFrame × Bool)
  | [] => []
  | d :: ds => (d.frame, (s.deliver d).1) :: playerSkips (s.deliver d).2 ds

/-! ### A stream by itself -/

/-- What is dropped of a stream's frames, measured from `base` where one is claimed: those before
the first that lies `skipNs` after it, and none after that. -/
def streamSkips (skipNs : ℤ) : Option ℤ → List DecodedFrame → List (DecodedFrame × Bool)
  | _, [] => []
  | base, f :: fs =>
      if f.ptsNs - base.getD f.ptsNs < skipNs then
        (f, true) :: streamSkips skipNs (some (base.getD f.ptsNs)) fs
      else (f, false) :: fs.map fun g => (g, false)

/-- What is left to be dropped of a stream. -/
def SeekSkip.left (s : SeekSkip) (isVideo : Bool) (fs : List DecodedFrame) :
    List (DecodedFrame × Bool) :=
  if s.skipNs < 0 ∨ s.arrived isVideo = true then fs.map fun f => (f, false)
  else streamSkips s.skipNs (s.base isVideo) fs

namespace SeekSkip

variable (s : SeekSkip) (f : DecodedFrame) (fs : List DecodedFrame) (u v : Bool) (b : ℤ)

@[simp] lemma setBase_skipNs : (s.setBase v b).skipNs = s.skipNs := by cases v <;> rfl

@[simp] lemma setBase_arrived : (s.setBase v b).arrived u = s.arrived u := by
  cases v <;> cases u <;> rfl

@[simp] lemma base_setBase : (s.setBase v b).base v = some b := by cases v <;> rfl

lemma base_setBase_ne (h : u ≠ v) : (s.setBase v b).base u = s.base u := by
  cases v <;> cases u <;> simp_all [setBase, base]

/-- A stream that has arrived, or a skip that is over, leaves the frames alone. -/
lemma left_done (h : s.skipNs < 0 ∨ s.arrived v = true) :
    s.left v fs = fs.map fun f => (f, false) := if_pos h

/-- What is left of a stream goes by the skip and by the stream's own base and flag. -/
lemma left_congr {s s' : SeekSkip} (hn : s'.skipNs = s.skipNs)
    (ha : s'.arrived v = s.arrived v) (hb : s'.base v = s.base v) :
    s'.left v fs = s.left v fs := by
  simp only [left, hn, ha, hb]

/-- The stream that arrives is done with. -/
lemma left_arrive : (s.arrive v).left v fs = fs.map fun f => (f, false) := by
  refine left_done _ _ _ ?_
  cases v <;> simp only [arrive, Bool.false_eq_true, if_false, if_true] <;> split
  · exact .inl (show (-1 : ℤ) < 0 by decide)
  · exact .inr rfl
  · exact .inl (show (-1 : ℤ) < 0 by decide)
  · exact .inr rfl

/-- The other stream keeps its own share, also when the skip ends with this one. -/
lemma left_arrive_ne (h : u ≠ v) :
    (s.arrive v).left u fs = s.left u fs := by
  by_cases hu : s.arrived u = true
  · rw [left_done s fs u (.inr hu)]
    refine left_done _ _ _ (.inr ?_)
    cases v <;> cases u <;> simp_all [arrive, arrived]
  · refine left_congr fs u ?_ ?_ ?_ <;>
      cases v <;> cases u <;> simp_all [arrive, arrived, base]

/-- `drops` once the skip is over or the stream home. -/
lemma drops_done (h : s.skipNs < 0 ∨ s.arrived f.isVideo = true) : s.drops f = (false, s) := by
  unfold drops
  by_cases hn : s.skipNs < 0
  · rw [if_pos hn]
  · rw [if_neg hn, if_pos (h.resolve_left hn)]

/-- `drops` before that. -/
lemma drops_armed (h : ¬ (s.skipNs < 0 ∨ s.arrived f.isVideo = true)) :
    s.drops f = if f.ptsNs - (s.base f.isVideo).getD f.ptsNs < s.skipNs
      then (true, s.setBase f.isVideo ((s.base f.isVideo).getD f.ptsNs))
      else (false, (s.setBase f.isVideo ((s.base f.isVideo).getD f.ptsNs)).arrive f.isVideo) := by
  rw [not_or] at h
  simp only [drops, if_neg h.1, if_neg h.2, setBase_skipNs]

/-- One frame of the stream. -/
lemma left_cons :
    s.left f.isVideo (f :: fs) = (f, (s.drops f).1) :: (s.drops f).2.left f.isVideo fs := by
  by_cases h : s.skipNs < 0 ∨ s.arrived f.isVideo = true
  · rw [s.drops_done f h, left_done s _ _ h, left_done s _ _ h, List.map_cons]
  · have hleft : s.left f.isVideo (f :: fs) = streamSkips s.skipNs (s.base f.isVideo) (f :: fs) :=
      if_neg h
    rw [hleft, s.drops_armed f h, streamSkips]
    split
    · have hset : ¬ ((s.setBase f.isVideo ((s.base f.isVideo).getD f.ptsNs)).skipNs < 0 ∨
          (s.setBase f.isVideo ((s.base f.isVideo).getD f.ptsNs)).arrived f.isVideo = true) := by
        simpa only [setBase_skipNs, setBase_arrived] using h
      rw [left, if_neg hset, setBase_skipNs, base_setBase]
    · rw [left_arrive]

/-- A frame of the other stream. -/
lemma left_other (h : f.isVideo ≠ v) : (s.drops f).2.left v fs = s.left v fs := by
  by_cases hd : s.skipNs < 0 ∨ s.arrived f.isVideo = true
  · rw [s.drops_done f hd]
  · have hset (b : ℤ) : (s.setBase f.isVideo b).left v fs = s.left v fs :=
      left_congr fs v (setBase_skipNs ..) (setBase_arrived ..) (base_setBase_ne _ _ _ _ h.symm)
    rw [s.drops_armed f hd]
    split
    · exact hset _
    · rw [left_arrive_ne _ _ _ _ h.symm]
      exact hset _

end SeekSkip

/-- What `SeekSkip` drops of a stream depends on that stream alone. -/
theorem seekSkips_filter (v : Bool) (fs : List DecodedFrame) (s : SeekSkip) :
    (seekSkips s fs).filter (fun x => x.1.isVideo == v)
      = s.left v (fs.filter fun f => f.isVideo == v) := by
  induction fs generalizing s with
  | nil => simp [seekSkips, SeekSkip.left, streamSkips]
  | cons f fs ih =>
      by_cases hf : f.isVideo = v
      · subst hf
        simp only [seekSkips, List.filter_cons, beq_self_eq_true, if_true, ih,
          SeekSkip.left_cons]
      · simp only [seekSkips, List.filter_cons, beq_eq_false_iff_ne.mpr hf, Bool.false_eq_true,
          if_false, ih, SeekSkip.left_other s f _ v hf]

/-- The skip as armed: each stream's own frames before its first pts and the skip. -/
lemma seekSkips_arm (n : ℤ) (hn : 0 ≤ n) (v : Bool) (fs : List DecodedFrame) :
    (seekSkips (.arm n) fs).filter (fun x => x.1.isVideo == v)
      = streamSkips n none (fs.filter fun f => f.isVideo == v) := by
  have hleft : ¬ ((SeekSkip.arm n).skipNs < 0 ∨ (SeekSkip.arm n).arrived v = true) := by
    cases v <;> simp [SeekSkip.arm, SeekSkip.arrived, hn]
  rw [seekSkips_filter, SeekSkip.left, if_neg hleft]
  cases v <;> rfl

/-! ### The two side by side -/

namespace Delivered

/-- The base a frame finds, where `b` is the one before the feed loop's reset. -/
def found (d : Delivered) (b : ℤ) : ℤ := if d.before then -1 else b

/-- The base a frame is measured from: the one it finds, or its own pts where there is none. -/
def lead (d : Delivered) (b : ℤ) : ℤ :=
  if d.found b < 0 then d.frame.ptsNs else d.found b

/-- The base a frame leaves. -/
def leaves (d : Delivered) (b : ℤ) : ℤ :=
  if d.later then -1
  else if d.found b < 0 then d.frame.ptsNs
  else if d.between then -1 else d.found b

end Delivered

/-- Both skips come home together. `b` is the pts of the frame that leads since the last reset,
negative where there is none, and `first` is each stream's first pts. Up to the frame that comes
home by the shared base no frame lies the skip past its own stream's first, and from there on the
next frame of each stream does. -/
def Together (n b : ℤ) (first : Bool → Option ℤ) : List Delivered → Prop
  | [] => True
  | d :: ds =>
      if d.frame.ptsNs - d.lead b < n then
        d.frame.ptsNs - (first d.frame.isVideo).getD d.frame.ptsNs < n ∧
          Together n (d.leaves b)
            (fun v => if v = d.frame.isVideo then
              some ((first d.frame.isVideo).getD d.frame.ptsNs) else first v) ds
      else
        ∀ v, ∀ f ∈ (((d :: ds).map (·.frame)).find? fun f => f.isVideo == v),
          n ≤ f.ptsNs - (first v).getD f.ptsNs

instance Together.decide (n : ℤ) :
    ∀ (b : ℤ) (first : Bool → Option ℤ) (ds : List Delivered), Decidable (Together n b first ds)
  | _, _, [] => .isTrue trivial
  | b, first, d :: ds =>
      have := Together.decide n (d.leaves b)
        (fun v => if v = d.frame.isVideo then
          some ((first d.frame.isVideo).getD d.frame.ptsNs) else first v) ds
      inferInstanceAs (Decidable (if d.frame.ptsNs - d.lead b < n then _ ∧ _ else _))

namespace PlayerSkip

variable (s : PlayerSkip) (d : Delivered)

@[simp] lemma resetIf_skipUntil (falls : Bool) :
    (s.resetIf falls).skipUntilPtsNs = s.skipUntilPtsNs := by cases falls <;> rfl

@[simp] lemma claim_skipUntil (p : ℤ) (falls : Bool) :
    (s.claim p falls).1.skipUntilPtsNs = s.skipUntilPtsNs := by
  simp only [claim]
  split
  · exact resetIf_skipUntil s falls
  · exact resetIf_skipUntil s falls

/-- With no skip left nothing is dropped, and none comes back. -/
lemma deliver_over (h : s.skipUntilPtsNs < 0) :
    (s.deliver d).1 = false ∧ (s.deliver d).2.skipUntilPtsNs < 0 := by
  simp only [deliver, resetIf_skipUntil, claim_skipUntil, if_neg (not_le.mpr h)]
  exact ⟨trivial, h⟩

/-- The skip, armed: the frame goes by the base it is measured from. -/
lemma deliver_armed (n b : ℤ) (hn : 0 ≤ n) :
    (if d.frame.ptsNs - d.lead b < n then (mk b n).deliver d = (true, mk (d.leaves b) n)
      else ((mk b n).deliver d).1 = false ∧ ((mk b n).deliver d).2.skipUntilPtsNs < 0) := by
  have hfound : ((mk b n).resetIf d.before).segFirstPtsNs = d.found b := by
    cases hb : d.before <;> simp [resetIf, feed, Delivered.found, hb]
  have hlead : (((mk b n).resetIf d.before).claim d.frame.ptsNs d.between).2 = d.lead b := by
    simp only [claim, hfound, Delivered.lead]
    split <;> rfl
  simp only [deliver, hlead, claim_skipUntil, resetIf_skipUntil, if_pos hn]
  by_cases h : d.frame.ptsNs - d.lead b < n
  · rw [if_pos h, if_pos h]
    obtain ⟨f, before, between, later⟩ := d
    cases before <;> cases between <;> cases later <;>
      simp only [claim, resetIf, feed, Delivered.leaves, Delivered.found, if_true, if_false,
        Bool.false_eq_true, lt_self_iff_false] <;> split_ifs <;> simp_all
  · rw [if_neg h, if_neg h]
    simp only [claim_skipUntil, resetIf_skipUntil]
    exact ⟨trivial, by decide⟩

end PlayerSkip

/-- Once the skip is over, what is left goes out. -/
lemma playerSkips_over (ds : List Delivered) (s : PlayerSkip) (h : s.skipUntilPtsNs < 0) :
    playerSkips s ds = (ds.map (·.frame)).map fun f => (f, false) := by
  induction ds generalizing s with
  | nil => rfl
  | cons d ds ih =>
      obtain ⟨hf, hs⟩ := s.deliver_over d h
      rw [playerSkips, hf, ih _ hs, List.map_cons, List.map_cons]

/-- Nothing of a stream is dropped exactly when its next frame is home. -/
lemma streamSkips_eq_false (n : ℤ) (base : Option ℤ) (fs : List DecodedFrame) :
    fs.map (fun f => (f, false)) = streamSkips n base fs ↔
      ∀ f ∈ fs.head?, n ≤ f.ptsNs - base.getD f.ptsNs := by
  cases fs with
  | nil => simp [streamSkips]
  | cons f fs =>
      simp only [streamSkips, List.map_cons, List.head?_cons, Option.mem_some_iff, forall_eq']
      by_cases h : f.ptsNs - base.getD f.ptsNs < n
      · simp [if_pos h, not_le.mpr h]
      · simp [if_neg h, not_lt.mp h]

/-- The player with a skip armed, against each stream measured from its own first frame. -/
lemma playerSkips_eq (n : ℤ) (hn : 0 ≤ n) (ds : List Delivered) (b : ℤ)
    (first : Bool → Option ℤ) :
    (∀ v, (playerSkips ⟨b, n⟩ ds).filter (fun x => x.1.isVideo == v)
        = streamSkips n (first v) ((ds.map (·.frame)).filter fun f => f.isVideo == v)) ↔
      Together n b first ds := by
  induction ds generalizing b first with
  | nil => simp [playerSkips, streamSkips, Together]
  | cons d ds ih =>
      have hd := PlayerSkip.deliver_armed d n b hn
      rw [Together]
      by_cases h : d.frame.ptsNs - d.lead b < n
      · rw [if_pos h] at hd ⊢
        rw [← ih]
        simp only [playerSkips, hd, List.map_cons, List.filter_cons]
        by_cases hown : d.frame.ptsNs - (first d.frame.isVideo).getD d.frame.ptsNs < n
        · refine (forall_congr' fun v => ?_).trans (and_iff_right hown).symm
          by_cases hv : d.frame.isVideo = v
          · subst hv
            simp [streamSkips, if_pos hown]
          · simp [hv, Ne.symm hv]
        · refine iff_of_false (fun hall => ?_) fun hall => hown hall.1
          have := hall d.frame.isVideo
          simp [streamSkips, if_neg hown] at this
      · rw [if_neg h] at hd ⊢
        refine forall_congr' fun v => ?_
        rw [playerSkips, hd.1, playerSkips_over ds _ hd.2, ← List.head?_filter,
          ← streamSkips_eq_false, List.map_cons]
        rw [show ((d.frame, false) :: ((ds.map (·.frame)).map fun f => (f, false)))
            = (d.frame :: ds.map (·.frame)).map fun f => (f, false) from rfl, List.filter_map]
        rfl

/-- The two receivers drop the same frames of a segment served with a skip, and of those that
follow, exactly when both streams come home together by the player's shared base; what `SeekSkip`
drops is each stream's own frames before its first pts and the skip. -/
theorem skips_alike (k : ℤ) (hk : 0 < k) (s : PlayerSkip) (ds : List Delivered)
    (fs : List DecodedFrame)
    (hfs : ∀ v, fs.filter (fun f => f.isVideo == v)
      = (ds.map (·.frame)).filter fun f => f.isVideo == v) :
    (∀ v, (seekSkips (.arm (k * 1000000)) fs).filter (fun x => x.1.isVideo == v)
        = streamSkips (k * 1000000) none (fs.filter fun f => f.isVideo == v)) ∧
      ((∀ v, (playerSkips (s.feed k) ds).filter (fun x => x.1.isVideo == v)
          = (seekSkips (.arm (k * 1000000)) fs).filter fun x => x.1.isVideo == v) ↔
        Together (k * 1000000) (-1) (fun _ => none) ds) := by
  have hn : (0 : ℤ) ≤ k * 1000000 := by omega
  have hseek := fun v => seekSkips_arm (k * 1000000) hn v fs
  refine ⟨hseek, ?_⟩
  rw [← playerSkips_eq _ hn, PlayerSkip.feed, if_pos hk]
  refine forall_congr' fun v => ?_
  rw [hseek, hfs]

/-- Sound and picture that start together, and a reset once both are home. -/
theorem skips_alike_aligned :
    let ds : List Delivered := [⟨⟨0, true⟩, false, false, false⟩, ⟨⟨0, false⟩, false, false, false⟩,
      ⟨⟨40000000, true⟩, false, false, true⟩, ⟨⟨40000000, false⟩, true, false, false⟩]
    0 < (20 : ℤ) ∧ ∀ v, (playerSkips (PlayerSkip.feed {} 20) ds).filter (fun x => x.1.isVideo == v)
      = (seekSkips (.arm (20 * 1000000)) (ds.map (·.frame))).filter fun x => x.1.isVideo == v :=
  ⟨by decide, (skips_alike 20 (by decide) {} _ _ fun _ => rfl).2.mpr (by decide)⟩

/-- Sound that starts 300 ms after the picture, and a second to skip: the player lets the last
300 ms of sound before that moment through, measured from the picture's base. -/
theorem skips_differ :
    ¬ ∀ (k : ℤ) (_ : 0 < k) (s : PlayerSkip) (ds : List Delivered) (fs : List DecodedFrame)
      (_ : ∀ v, fs.filter (fun f => f.isVideo == v)
        = (ds.map (·.frame)).filter fun f => f.isVideo == v) (v : Bool),
      (playerSkips (s.feed k) ds).filter (fun x => x.1.isVideo == v)
        = (seekSkips (.arm (k * 1000000)) fs).filter fun x => x.1.isVideo == v := by
  intro h
  let fs : List DecodedFrame :=
    [⟨0, true⟩, ⟨300000000, false⟩, ⟨1000000000, true⟩, ⟨1000000000, false⟩]
  have := h 1000 (by decide) {} (fs.map fun f => ⟨f, false, false, false⟩) fs
    (fun v => by cases v <;> rfl) false
  revert this
  decide

end Multisite

import Mathlib.Tactic
import Mathlib.Data.List.Sort

/-!
The storage protocol's documents (`model.h`, `model.cpp`): the live pointer, the
event descriptor, the rolling manifest, and the two operations that change a
manifest, `Manifest.push` and `Manifest.addGap`.

A `double` of the source is a rational here, so durations and offsets are exact;
a document's `status` is read as one of the two words the protocol uses, any
other text being `Status.other`.

* `Manifest.mem_segments_push`, `Manifest.latestSeq_push`: what a push leaves
  listed, and the live edge it leaves;
* `Manifest.inGaps_addGap`: the sequences in the gaps after `addGap s` are `s`
  and those that were there before, whatever ranges the manifest held.
-/

namespace Multisite

/-- A byte string, `std::vector<uint8_t>` in the source. -/
abbrev Bytes := List UInt8

/-- `kProtocolVersion`. -/
def kProtocolVersion : ℤ := 1

/-- `protocol_readable`. -/
def protocolReadable (v : ℤ) : Bool := decide (v ≤ kProtocolVersion)

/-- `(int64_t)(s * 1000.0)`: truncation toward zero. -/
def msOf (s : ℚ) : ℤ := (s * 1000).num.tdiv (s * 1000).den

/-- The `status` of a document: `"live"`, `"ended"`, or any other text. -/
inductive Status where
  | live
  | ended
  | other (text : String)
  deriving DecidableEq, Repr

/-- `LivePointer`, the content of `rooms/{room}/live.json`. -/
structure LivePointer where
  protocolVersion : ℤ := kProtocolVersion
  roomId : String := ""
  eventId : String := ""
  status : Status := .live
  updatedAtMs : ℤ := 0
  deriving DecidableEq, Repr

/-- `AudioTrack`. -/
structure AudioTrack where
  idx : ℤ := 0
  label : String := ""
  codec : String := "aac"
  channels : ℤ := 2
  sampleRate : ℤ := 48000
  channelLabels : List String := []
  language : String := ""
  deriving DecidableEq, Repr

/-- `TileLayout`. -/
structure TileLayout where
  cols : ℤ := 1
  rows : ℤ := 1
  deriving DecidableEq, Repr

/-- `VideoInfo`. -/
structure VideoInfo where
  codec : String := "h264"
  width : ℤ := 0
  height : ℤ := 0
  fps : ℚ := 0
  layout : TileLayout := {}
  deriving DecidableEq, Repr

/-- `EventInfo`, the content of `events/{event_id}/event.json`. -/
structure EventInfo where
  protocolVersion : ℤ := kProtocolVersion
  eventId : String := ""
  roomId : String := ""
  name : String := ""
  startedAtMs : ℤ := 0
  firstSeq : ℕ := 0
  segmentDurationS : ℚ := 6
  init : String := "init.mp4"
  video : VideoInfo := {}
  audioTracks : List AudioTrack := []
  deriving DecidableEq, Repr

/-- `RoomEventEntry`, the content of `rooms/{room_id}/events/{event_id}.json`. -/
structure RoomEventEntry where
  protocolVersion : ℤ := kProtocolVersion
  eventId : String := ""
  roomId : String := ""
  name : String := ""
  startedAtMs : ℤ := 0
  deriving DecidableEq, Repr

/-- `ManifestSegment`. -/
structure ManifestSegment where
  seq : ℕ := 0
  durationS : ℚ := 6
  checksum : String := ""
  atMs : ℤ := 0
  deriving DecidableEq, Repr

/-- `Manifest`, the content of `events/{event_id}/manifest.json`. -/
structure Manifest where
  protocolVersion : ℤ := kProtocolVersion
  eventId : String := ""
  status : Status := .live
  name : String := ""
  updatedAtMs : ℤ := 0
  startedAtMs : ℤ := 0
  firstAvailableSeq : ℕ := 0
  windowStartSeq : ℕ := 0
  latestSeq : ℕ := 0
  init : String := "init.mp4"
  video : VideoInfo := {}
  audioTracks : List AudioTrack := []
  segments : List ManifestSegment := []
  gaps : List (ℕ × ℕ) := []
  deriving DecidableEq, Repr

/-- `Marker`, a cue: where it sits in the programme, and who dropped it. -/
structure Marker where
  seq : ℕ := 0
  atMs : ℤ := 0
  atMediaMs : ℤ := -1
  type : String := "cue"
  label : String := ""
  id : String := ""
  author : String := ""
  deriving DecidableEq, Repr

/-! ### Cue lists -/

/-- The order `merge_markers` sorts by: the sequence, then the wall time, then the id. -/
def Marker.before (a b : Marker) : Bool :=
  if a.seq ≠ b.seq then decide (a.seq < b.seq)
  else if a.atMs ≠ b.atMs then decide (a.atMs < b.atMs)
  else decide (a.id < b.id)

/-- `merge_markers`: all cues in order, an id that is named only once. -/
def mergeMarkers (parts : List (List Marker)) : List Marker :=
  -- inserting from the right before what is not smaller keeps equal cues in order
  (parts.flatten.insertionSort fun a b => ¬ b.before a).foldl
    (fun out m => if m.id ≠ "" ∧ out.any (·.id == m.id) then out else out ++ [m]) []

namespace Manifest

/-! ### The rolling window -/

/-- `Manifest::stream_duration_hint`: the upper median of the listed durations. -/
def streamDurationHint (m : Manifest) : ℚ :=
  let d := ((m.segments.map (·.durationS)).filter fun x => decide (1 / 10 < x)).insertionSort
    (· ≤ ·)
  (d[d.length / 2]?).getD 0

/-- `Manifest::push`: a segment already listed is refreshed in place; a new one
is appended and the window trimmed to its last `window` entries. -/
def push (m : Manifest) (s : ManifestSegment) (window : ℕ) : Manifest :=
  if m.segments.any (·.seq == s.seq) then
    -- the loop replaces the first entry of that number and returns
    { m with
      segments := m.segments.replaceF fun e => if e.seq = s.seq then some s else none
      latestSeq := max m.latestSeq s.seq }
  else
    let segments := (m.segments ++ [s]).drop ((m.segments ++ [s]).length - window)
    { m with
      segments
      latestSeq := max m.latestSeq s.seq
      windowStartSeq := (segments.head?.map (·.seq)).getD 0 }

@[simp] lemma latestSeq_push (m : Manifest) (s : ManifestSegment) (window : ℕ) :
    (m.push s window).latestSeq = max m.latestSeq s.seq := by
  rw [push]
  split <;> rfl

@[simp] lemma gaps_push (m : Manifest) (s : ManifestSegment) (window : ℕ) :
    (m.push s window).gaps = m.gaps := by
  rw [push]
  split <;> rfl

@[simp] lemma status_push (m : Manifest) (s : ManifestSegment) (window : ℕ) :
    (m.push s window).status = m.status := by
  rw [push]
  split <;> rfl

@[simp] lemma eventId_push (m : Manifest) (s : ManifestSegment) (window : ℕ) :
    (m.push s window).eventId = m.eventId := by
  rw [push]
  split <;> rfl

@[simp] lemma startedAtMs_push (m : Manifest) (s : ManifestSegment) (window : ℕ) :
    (m.push s window).startedAtMs = m.startedAtMs := by
  rw [push]
  split <;> rfl

lemma mem_replaceF {l : List ManifestSegment} {s e : ManifestSegment}
    (h : e ∈ l.replaceF fun e => if e.seq = s.seq then some s else none) : e = s ∨ e ∈ l := by
  induction l with
  | nil => exact absurd h (by simp)
  | cons x l ih =>
      rw [List.replaceF_cons] at h
      by_cases hx : x.seq = s.seq
      · rw [if_pos hx] at h
        rcases List.mem_cons.mp h with rfl | h'
        · exact Or.inl rfl
        · exact Or.inr (List.mem_cons_of_mem _ h')
      · rw [if_neg hx] at h
        rcases List.mem_cons.mp h with rfl | h'
        · exact Or.inr List.mem_cons_self
        · exact (ih h').imp_right (List.mem_cons_of_mem _)

/-- A push lists nothing but the segment pushed and what was listed before. -/
lemma mem_segments_push {m : Manifest} {s e : ManifestSegment} {window : ℕ}
    (h : e ∈ (m.push s window).segments) : e = s ∨ e ∈ m.segments := by
  rw [push] at h
  split at h
  · exact mem_replaceF h
  · rcases List.mem_append.mp (List.mem_of_mem_drop h) with h' | h'
    · exact Or.inr h'
    · exact Or.inl (List.mem_singleton.mp h')

/-! ### Gaps -/

/-- The order `std::sort` puts the ranges in: `std::pair`'s. -/
def rangeLe (a b : ℕ × ℕ) : Prop := a.1 < b.1 ∨ a.1 = b.1 ∧ a.2 ≤ b.2

instance : DecidableRel rangeLe := fun _ _ => inferInstanceAs (Decidable (_ ∨ _))

instance : Std.Total rangeLe := ⟨fun a b => by rw [rangeLe, rangeLe]; omega⟩

instance : IsTrans (ℕ × ℕ) rangeLe := ⟨fun a b c => by rw [rangeLe, rangeLe, rangeLe]; omega⟩

/-- The merging loop of `add_gap`, from the range `g` on: a range that touches
`g` is folded into it, and any other starts the next. -/
def mergeFrom (g : ℕ × ℕ) : List (ℕ × ℕ) → List (ℕ × ℕ)
  | [] => [g]
  | h :: rest =>
      -- the sum wraps after the largest sequence
      if h.1 ≤ (g.2 + 1) % 2 ^ 64 then mergeFrom (g.1, max g.2 h.2) rest else g :: mergeFrom h rest

/-- The merging loop of `add_gap`. -/
def mergeTouching : List (ℕ × ℕ) → List (ℕ × ℕ)
  | [] => []
  | g :: rest => mergeFrom g rest

/-- `Manifest::gap_end`: the last sequence of the first range that holds `seq`. -/
def gapEnd (m : Manifest) (seq : ℕ) : Option ℕ :=
  (m.gaps.find? fun g => g.1 ≤ seq && seq ≤ g.2).map (·.2)

/-- `Manifest::add_gap`. -/
def addGap (m : Manifest) (seq : ℕ) : Manifest :=
  if (m.gapEnd seq).isSome then m
  else { m with gaps := mergeTouching ((m.gaps ++ [(seq, seq)]).insertionSort rangeLe) }

/-- The sequence `s` lies in one of the ranges. -/
def InRanges (l : List (ℕ × ℕ)) (s : ℕ) : Prop := ∃ g ∈ l, g.1 ≤ s ∧ s ≤ g.2

instance (l : List (ℕ × ℕ)) (s : ℕ) : Decidable (InRanges l s) :=
  inferInstanceAs (Decidable (∃ g ∈ l, g.1 ≤ s ∧ s ≤ g.2))

/-- The sequence `s` is in the manifest's gaps. -/
abbrev InGaps (m : Manifest) (s : ℕ) : Prop := InRanges m.gaps s

lemma inRanges_cons {g : ℕ × ℕ} {l : List (ℕ × ℕ)} {s : ℕ} :
    InRanges (g :: l) s ↔ (g.1 ≤ s ∧ s ≤ g.2) ∨ InRanges l s := by
  simp [InRanges]

lemma gapEnd_isSome_iff (m : Manifest) (s : ℕ) : (m.gapEnd s).isSome ↔ m.InGaps s := by
  simp [gapEnd, InRanges]

lemma fst_le_of_pairwise {g h : ℕ × ℕ} {l : List (ℕ × ℕ)}
    (hs : (g :: h :: l).Pairwise rangeLe) : g.1 ≤ h.1 := by
  have hgh := (List.pairwise_cons.mp hs).1 h List.mem_cons_self
  rw [rangeLe] at hgh
  omega

/-- A range folded into the one before it leaves the list sorted. -/
lemma pairwise_fold {g h : ℕ × ℕ} {l : List (ℕ × ℕ)} (hs : (g :: h :: l).Pairwise rangeLe) :
    ((g.1, max g.2 h.2) :: l).Pairwise rangeLe := by
  have hgh := fst_le_of_pairwise hs
  obtain ⟨hg, hrest⟩ := List.pairwise_cons.mp hs
  refine List.pairwise_cons.mpr ⟨fun r hr => ?_, (List.pairwise_cons.mp hrest).2⟩
  have h1 := hg r (List.mem_cons_of_mem _ hr)
  have h2 := (List.pairwise_cons.mp hrest).1 r hr
  simp only [rangeLe] at h1 h2 ⊢
  omega

/-- Folding touching ranges together keeps the set of sequences they hold: the
list is sorted, so a range that touches `g` begins inside it or right after. -/
lemma inRanges_mergeFrom {g : ℕ × ℕ} {l : List (ℕ × ℕ)} {s : ℕ}
    (hs : (g :: l).Pairwise rangeLe) : InRanges (mergeFrom g l) s ↔ InRanges (g :: l) s := by
  induction l generalizing g with
  | nil => rfl
  | cons h rest ih =>
      have hgh := fst_le_of_pairwise hs
      rw [mergeFrom]
      split
      · rename_i htouch
        have hle : h.1 ≤ g.2 + 1 := htouch.trans (Nat.mod_le _ _)
        rw [ih (pairwise_fold hs), inRanges_cons, inRanges_cons, inRanges_cons, ← or_assoc]
        refine or_congr_left ?_
        simp only
        omega
      · rw [inRanges_cons, ih (List.pairwise_cons.mp hs).2, inRanges_cons (g := g)]

lemma inRanges_mergeTouching {l : List (ℕ × ℕ)} {s : ℕ} (hs : l.Pairwise rangeLe) :
    InRanges (mergeTouching l) s ↔ InRanges l s := by
  cases l with
  | nil => rfl
  | cons g rest => exact inRanges_mergeFrom hs

/-- **What `add_gap` adds**: the sequences in the gaps afterwards are the one
given and those there before. -/
theorem inGaps_addGap (m : Manifest) (s x : ℕ) : (m.addGap s).InGaps x ↔ x = s ∨ m.InGaps x := by
  rw [addGap]
  split
  · rename_i h
    rw [gapEnd_isSome_iff] at h
    exact ⟨Or.inr, fun hx => hx.elim (fun hxs => hxs ▸ h) id⟩
  · show InRanges (mergeTouching _) x ↔ _
    rw [inRanges_mergeTouching (List.pairwise_insertionSort rangeLe _)]
    simp only [InRanges, List.mem_insertionSort, List.mem_append, List.mem_singleton]
    constructor
    · rintro ⟨g, hg | rfl, h1, h2⟩
      · exact Or.inr ⟨g, hg, h1, h2⟩
      · exact Or.inl (le_antisymm h2 h1)
    · rintro (rfl | ⟨g, hg, h1, h2⟩)
      · exact ⟨(x, x), Or.inr rfl, le_rfl, le_rfl⟩
      · exact ⟨g, Or.inl hg, h1, h2⟩

@[simp] lemma segments_addGap (m : Manifest) (s : ℕ) : (m.addGap s).segments = m.segments := by
  rw [addGap]
  split <;> rfl

@[simp] lemma latestSeq_addGap (m : Manifest) (s : ℕ) :
    (m.addGap s).latestSeq = m.latestSeq := by
  rw [addGap]
  split <;> rfl

@[simp] lemma status_addGap (m : Manifest) (s : ℕ) : (m.addGap s).status = m.status := by
  rw [addGap]
  split <;> rfl

@[simp] lemma eventId_addGap (m : Manifest) (s : ℕ) : (m.addGap s).eventId = m.eventId := by
  rw [addGap]
  split <;> rfl

@[simp] lemma startedAtMs_addGap (m : Manifest) (s : ℕ) :
    (m.addGap s).startedAtMs = m.startedAtMs := by
  rw [addGap]
  split <;> rfl

@[simp] lemma firstAvailableSeq_addGap (m : Manifest) (s : ℕ) :
    (m.addGap s).firstAvailableSeq = m.firstAvailableSeq := by
  rw [addGap]
  split <;> rfl

end Manifest

end Multisite

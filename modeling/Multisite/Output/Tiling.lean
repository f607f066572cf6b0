import Multisite.Output.Muxer

/-!
The segments of a whole programme: packet after packet into a `CmafMuxer`, and `flush` at the end.

* `mux_eq`: what comes out is the packets, cut in front of the keyframes that start a segment;
* `joined_iff`: when every segment starts where the one before it ends;
* `tiles_iff`: exactly when the segments tile the programme.  The duration of a segment without
  video is the target, which is meant for a muxer without a video track and also given to the
  segment in front of a video that starts late.
-/

namespace Multisite

namespace CmafMuxer

/-! ### A whole programme -/

/-- `push` for every packet. -/
def pushAll (av : Movenc) : CmafMuxer → List CmafPacket → CmafMuxer × List CmafSegment
  | m, [] => (m, [])
  | m, p :: ps =>
      let r := m.push av p
      let rest := pushAll av r.1 ps
      (rest.1, r.2 ++ rest.2)

/-- The segments of a programme: `push` for every packet, then `flush`. -/
def mux (av : Movenc) (m : CmafMuxer) (ps : List CmafPacket) : List CmafSegment :=
  (m.pushAll av ps).2 ++ ((m.pushAll av ps).1.flush av).2

section Parts

variable (m : CmafMuxer)

/-- A packet of the video track. -/
def IsVideo (p : CmafPacket) : Prop := p.track = m.videoTrack

instance (p : CmafPacket) : Decidable (m.IsVideo p) := inferInstanceAs (Decidable (_ = _))

/-- When a picture ends. -/
def frameEnd (p : CmafPacket) : ℚ :=
  nsToS p.ptsNs + if 0 < p.durationNs then nsToS p.durationNs else m.videoFrameS

/-- A packet as it is written: its times from the first packet on. -/
def rebased (baseNs : ℤ) (p : CmafPacket) : CmafPacket :=
  if m.rebase then
    { p with
      ptsNs := p.ptsNs - baseNs + m.rebaseToNs
      dtsNs := p.dtsNs - baseNs + m.rebaseToNs }
  else p

/-- The packets as they are written. -/
def writtenOf : List CmafPacket → List CmafPacket
  | [] => []
  | p :: ps => (p :: ps).map (m.rebased p.dtsNs)

/-- When a part of the programme starts: with its first packet. -/
def partStart : List CmafPacket → ℚ
  | [] => 0
  | p :: _ => nsToS p.ptsNs

/-- A keyframe that starts a segment, after these packets of the open one. -/
def startsPart (part : List CmafPacket) (p : CmafPacket) : Bool :=
  decide (m.IsVideo p) && p.keyframe &&
    keyframeStartsSegment (nsToS p.ptsNs - partStart part) m.targetS m.videoFrameS

/-- The packets, cut in front of the keyframes that start a segment. -/
def partsFrom : List CmafPacket → List CmafPacket → List (List CmafPacket)
  | part, [] => [part]
  | part, p :: ps =>
      if m.startsPart part p then part :: partsFrom [p] ps else partsFrom (part ++ [p]) ps

/-- The parts of a programme. -/
def parts : List CmafPacket → List (List CmafPacket)
  | [] => []
  | p :: ps => m.partsFrom [p] ps

/-- Whether a part has video, and when it ends. -/
def videoEnd (part : List CmafPacket) : Bool × ℚ :=
  part.foldl
    (fun s p => if m.IsVideo p then (true, if s.1 then max s.2 (m.frameEnd p) else m.frameEnd p)
      else s)
    (false, partStart part)

/-- Less than half a second of video. -/
def Short (part : List CmafPacket) : Prop :=
  (∃ p ∈ part, m.IsVideo p) ∧
    ∀ p ∈ part, m.IsVideo p → m.frameEnd p - partStart part < minFinalSegmentS

instance (part : List CmafPacket) : Decidable (m.Short part) :=
  inferInstanceAs (Decidable ((∃ p ∈ part, m.IsVideo p) ∧
    ∀ p ∈ part, m.IsVideo p → m.frameEnd p - partStart part < minFinalSegmentS))

/-- The segment of a part that ends then. -/
def segmentOf (av : Movenc) (index : ℕ) (part : List CmafPacket) (endS : ℚ) : CmafSegment where
  index := index
  bytes := styp ++ av.fragment m.keepInputTimestamps part
  durationS := if (m.videoEnd part).1 then max 0 (endS - partStart part) else m.targetS
  ptsS := partStart part

/-- The segments of the parts: each ends where the next one starts, and the last with its last
picture, unless it is dropped. -/
def segmentsOf (av : Movenc) : ℕ → List (List CmafPacket) → List CmafSegment
  | _, [] => []
  | index, [part] =>
      if 0 < index ∧ m.Short part then [] else [m.segmentOf av index part (m.videoEnd part).2]
  | index, part :: next :: rest =>
      m.segmentOf av index part (partStart next) :: segmentsOf av (index + 1) (next :: rest)

end Parts

/-- A packet of one of its tracks: `push` does nothing with any other. -/
def OfTrack (m : CmafMuxer) (p : CmafPacket) : Prop := 0 ≤ p.track ∧ p.track < m.tracks.length

instance (m : CmafMuxer) (p : CmafPacket) : Decidable (m.OfTrack p) :=
  inferInstanceAs (Decidable (_ ∧ _))

/-- The packets of its tracks. -/
def taken (m : CmafMuxer) (ps : List CmafPacket) : List CmafPacket :=
  ps.filter fun p => m.OfTrack p

/-! ### What comes out -/

/-- A muxer that has taken no packet. -/
structure Fresh (m : CmafMuxer) : Prop where
  ok : m.ok = true
  headerWritten : m.headerWritten = true
  hasCallback : m.hasCallback = true
  written : m.written = []
  segIndex : m.segIndex = 0
  segOpen : m.segOpen = false
  base : m.base = none

/-- The muxer inside a segment, after these packets of it. -/
def inSegment (m : CmafMuxer) (baseNs : ℤ) (index : ℕ) (part : List CmafPacket) : CmafMuxer :=
  { m with
    base := if m.rebase then some baseNs else none
    written := part
    segIndex := index
    segOpen := true
    segStartPtsS := partStart part
    segHasVideo := (m.videoEnd part).1
    segEndVideoPtsS := (m.videoEnd part).2 }

section Push

variable {av : Movenc} {m : CmafMuxer} {part : List CmafPacket} {baseNs : ℤ} {index : ℕ}

lemma partStart_append (hpart : part ≠ []) (l : List CmafPacket) :
    partStart (part ++ l) = partStart part := by
  cases part with
  | nil => exact absurd rfl hpart
  | cons p ps => rfl

lemma videoEnd_concat (hpart : part ≠ []) (p : CmafPacket) :
    m.videoEnd (part ++ [p]) =
      if m.IsVideo p then
        (true, if (m.videoEnd part).1 then max (m.videoEnd part).2 (m.frameEnd p) else m.frameEnd p)
      else m.videoEnd part := by
  rw [videoEnd, List.foldl_append, partStart_append hpart]
  rfl

/-- A packet goes to the open segment. -/
lemma writeFrame_inSegment (haccepts : ∀ keep ws p, av.accepts keep ws p = true)
    (hpart : part ≠ []) (p : CmafPacket) :
    (m.inSegment baseNs index part).writeFrame av p = m.inSegment baseNs index (part ++ [p]) := by
  rw [writeFrame, if_pos (haccepts ..), inSegment, inSegment, videoEnd_concat hpart,
    partStart_append hpart]
  by_cases hv : m.IsVideo p
  · rw [if_pos hv]
    exact if_pos hv
  · rw [if_neg hv]
    exact if_neg hv

/-- A packet starts a segment. -/
lemma writeFrame_openAt (haccepts : ∀ keep ws p, av.accepts keep ws p = true) {s : CmafMuxer}
    (hs : s = { m with
      base := if m.rebase then some baseNs else none
      written := []
      segIndex := index
      segOpen := false
      segStartPtsS := s.segStartPtsS
      segHasVideo := s.segHasVideo
      segEndVideoPtsS := s.segEndVideoPtsS }) (p : CmafPacket) :
    (s.openAt (nsToS p.ptsNs)).writeFrame av p = m.inSegment baseNs index [p] := by
  have hopen : s.openAt (nsToS p.ptsNs) = { m with
      base := if m.rebase then some baseNs else none
      written := []
      segIndex := index
      segOpen := true
      segStartPtsS := nsToS p.ptsNs
      segHasVideo := false
      segEndVideoPtsS := nsToS p.ptsNs } := by
    rw [hs]
    exact if_neg Bool.false_ne_true
  rw [hopen, writeFrame, if_pos (haccepts ..), inSegment, videoEnd, List.foldl_cons, List.foldl_nil]
  by_cases hv : m.IsVideo p
  · rw [if_pos hv]
    exact if_pos hv
  · rw [if_neg hv]
    exact if_neg hv

lemma based_inSegment (p : CmafPacket) :
    (m.inSegment baseNs index part).based p =
      (m.inSegment baseNs index part, m.rebased baseNs p) := by
  by_cases h : m.rebase = true
  · have hin : (m.inSegment baseNs index part).rebase = true := h
    rw [based, rebased, if_pos h, if_pos hin]
    simp only [inSegment, h, ↓reduceIte, Option.getD_some]
  · have hin : ¬(m.inSegment baseNs index part).rebase = true := h
    rw [based, rebased, if_neg h, if_neg hin]

/-- What a packet does inside a segment. -/
lemma push_inSegment (h : m.Fresh) (haccepts : ∀ keep ws p, av.accepts keep ws p = true)
    (hpart : part ≠ []) {p : CmafPacket} (htrack : m.OfTrack p) :
    (m.inSegment baseNs index part).push av p =
      if m.startsPart part (m.rebased baseNs p) then
        (m.inSegment baseNs (index + 1) [m.rebased baseNs p],
          [m.segmentOf av index part (nsToS (m.rebased baseNs p).ptsNs)])
      else (m.inSegment baseNs index (part ++ [m.rebased baseNs p]), []) := by
  have htakes : ((m.inSegment baseNs index part).ok &&
      (m.inSegment baseNs index part).headerWritten && decide (0 ≤ p.track) &&
      decide (p.track < (m.inSegment baseNs index part).tracks.length)) = true := by
    simp [inSegment, h.ok, h.headerWritten, htrack.1, htrack.2]
  rw [push, if_pos htakes]
  simp only [based_inSegment]
  set q := m.rebased baseNs p
  have hcuts : (m.inSegment baseNs index part).cuts q = m.startsPart part q := by
    simp only [cuts, inSegment, Bool.and_true]
    rfl
  rw [hcuts]
  by_cases hstarts : m.startsPart part q = true
  · have hflush : (m.inSegment baseNs index part).flushFragment av (nsToS q.ptsNs) =
        ({ m.inSegment baseNs index part with
            written := [], segIndex := index + 1, segOpen := false },
          [m.segmentOf av index part (nsToS q.ptsNs)]) := by
      rw [flushFragment, if_pos (show (m.inSegment baseNs index part).segOpen = true from rfl)]
      simp only [inSegment, h.hasCallback, ↓reduceIte]
      rfl
    rw [if_pos hstarts, if_pos hstarts, hflush]
    exact Prod.ext (writeFrame_openAt haccepts rfl q) rfl
  · rw [if_neg hstarts, if_neg hstarts]
    exact Prod.ext (writeFrame_inSegment haccepts hpart q) rfl

/-- The first part begins with what it began with. -/
lemma partsFrom_head (m : CmafMuxer) (ps part : List CmafPacket) :
    ∃ l rest, m.partsFrom part ps = (part ++ l) :: rest := by
  induction ps generalizing part with
  | nil => exact ⟨[], [], by rw [partsFrom, List.append_nil]⟩
  | cons p ps ih =>
      rw [partsFrom]
      split
      · exact ⟨[], _, by rw [List.append_nil]⟩
      · obtain ⟨l, rest, h⟩ := ih (part ++ [p])
        exact ⟨p :: l, rest, by rw [h, List.append_assoc, List.singleton_append]⟩

/-- The end of the video of a part, where it has any. -/
lemma videoEnd_spec (m : CmafMuxer) (part : List CmafPacket) :
    ((m.videoEnd part).1 = true ↔ ∃ p ∈ part, m.IsVideo p) ∧
      ∀ x, (m.videoEnd part).1 = true →
        ((m.videoEnd part).2 < x ↔ ∀ p ∈ part, m.IsVideo p → m.frameEnd p < x) := by
  rw [videoEnd]
  generalize partStart part = startS
  induction part using List.reverseRecOn with
  | nil => simp
  | append_singleton part p ih =>
      rw [List.foldl_append, List.foldl_cons, List.foldl_nil]
      obtain ⟨hvideo, hend⟩ := ih
      set s := part.foldl (fun s p => if m.IsVideo p then (true, if s.1 then max s.2 (m.frameEnd p)
        else m.frameEnd p) else s) (false, startS)
      by_cases hp : m.IsVideo p
      · rw [if_pos hp]
        refine ⟨iff_of_true rfl ⟨p, by simp, hp⟩, fun x _ => ?_⟩
        by_cases hs : s.1 = true
        · rw [if_pos hs, max_lt_iff, hend x hs]
          simp [or_imp, forall_and, hp]
        · have hno : ∀ q ∈ part, ¬m.IsVideo q := fun q hq hv => hs (hvideo.mpr ⟨q, hq, hv⟩)
          rw [if_neg hs]
          refine ⟨fun hlt q hq hv => ?_, fun hall => hall p (by simp) hp⟩
          obtain hq | hq := List.mem_append.mp hq
          · exact absurd hv (hno q hq)
          · rwa [List.mem_singleton.mp hq]
      · rw [if_neg hp, hvideo]
        refine ⟨by simp [or_and_right, exists_or, hp], fun x hs => ?_⟩
        rw [hend x (hvideo.mpr hs)]
        simp [or_imp, forall_and, hp]

lemma short_iff (m : CmafMuxer) (part : List CmafPacket) :
    m.Short part ↔ (m.videoEnd part).1 = true ∧
      (m.videoEnd part).2 - partStart part < minFinalSegmentS := by
  obtain ⟨hvideo, hend⟩ := m.videoEnd_spec part
  rw [Short, ← hvideo]
  refine and_congr_right fun h => ?_
  rw [sub_lt_iff_lt_add, hend _ h]
  simp only [sub_lt_iff_lt_add]

/-- What `flush` makes of the open segment. -/
lemma flush_inSegment (h : m.Fresh) :
    ((m.inSegment baseNs index part).flush av).2 = m.segmentsOf av index [part] := by
  have hshort := m.short_iff part
  by_cases hdrop : 0 < index ∧ m.Short part
  · obtain ⟨hindex, hs⟩ := hdrop
    obtain ⟨hvideo, hlen⟩ := hshort.mp hs
    rw [segmentsOf, if_pos ⟨hindex, hs⟩, flush]
    simp [inSegment, hvideo, hindex, hlen, flushFragment]
  · rw [segmentsOf, if_neg hdrop, flush]
    have hkeep : ¬((m.inSegment baseNs index part).segOpen &&
        (m.inSegment baseNs index part).segHasVideo &&
        decide (0 < (m.inSegment baseNs index part).segIndex) &&
        decide ((m.inSegment baseNs index part).segEndVideoPtsS -
          (m.inSegment baseNs index part).segStartPtsS < minFinalSegmentS)) = true := by
      simp only [Bool.and_eq_true, decide_eq_true_eq]
      rintro ⟨⟨⟨-, hvideo⟩, hindex⟩, hlen⟩
      exact hdrop ⟨hindex, hshort.mpr ⟨hvideo, hlen⟩⟩
    simp only [hkeep]
    rw [flushFragment]
    simp only [inSegment, h.hasCallback, ↓reduceIte, Bool.false_eq_true]
    rfl

/-- The rest of a programme, from inside a segment on. -/
lemma mux_inSegment (h : m.Fresh) (haccepts : ∀ keep ws p, av.accepts keep ws p = true)
    (ps : List CmafPacket) (htrack : ∀ p ∈ ps, m.OfTrack p)
    (index : ℕ) (hpart : part ≠ []) :
    mux av (m.inSegment baseNs index part) ps =
      m.segmentsOf av index (m.partsFrom part (ps.map (m.rebased baseNs))) := by
  induction ps generalizing index part with
  | nil =>
      rw [mux, pushAll, List.nil_append, List.map_nil, partsFrom]
      exact flush_inSegment h
  | cons p ps ih =>
      have hp := htrack p List.mem_cons_self
      have hps := fun q hq => htrack q (List.mem_cons_of_mem p hq)
      have hmux : mux av (m.inSegment baseNs index part) (p :: ps) =
          ((m.inSegment baseNs index part).push av p).2 ++
            mux av ((m.inSegment baseNs index part).push av p).1 ps := by
        rw [mux, pushAll, mux, List.append_assoc]
      rw [hmux, push_inSegment h haccepts hpart hp, List.map_cons, partsFrom]
      by_cases hstarts : m.startsPart part (m.rebased baseNs p) = true
      · rw [if_pos hstarts, if_pos hstarts, ih hps (index + 1) (by simp)]
        obtain ⟨l, rest, hhead⟩ := m.partsFrom_head (ps.map (m.rebased baseNs))
          [m.rebased baseNs p]
        rw [hhead, segmentsOf]
        rfl
      · rw [if_neg hstarts, if_neg hstarts, ih hps index (by simp), List.nil_append]

/-- **What comes out** is the packets, cut in front of the keyframes that start a segment. -/
lemma mux_eq (h : m.Fresh) (haccepts : ∀ keep ws p, av.accepts keep ws p = true)
    (ps : List CmafPacket) (htrack : ∀ p ∈ ps, m.OfTrack p) :
    mux av m ps = m.segmentsOf av 0 (m.parts (m.writtenOf ps)) := by
  cases ps with
  | nil =>
      rw [mux, pushAll, List.nil_append, flush, writtenOf, parts, segmentsOf]
      simp [h.segOpen, flushFragment]
  | cons p ps =>
      have hp := htrack p List.mem_cons_self
      have hps := fun q hq => htrack q (List.mem_cons_of_mem p hq)
      have hbased : m.based p = ({ m with base := if m.rebase then some p.dtsNs else none },
          m.rebased p.dtsNs p) := by
        rw [based, rebased, h.base]
        by_cases hrebase : m.rebase = true
        · simp only [hrebase, ↓reduceIte, Option.getD_none]
        · rw [if_neg hrebase, if_neg hrebase, if_neg hrebase, ← h.base]
      have hfirst : m.push av p = (m.inSegment p.dtsNs 0 [m.rebased p.dtsNs p], []) := by
        have htakes : (m.ok && m.headerWritten && decide (0 ≤ p.track) &&
            decide (p.track < m.tracks.length)) = true := by
          simp [h.ok, h.headerWritten, hp.1, hp.2]
        have hcuts : CmafMuxer.cuts { m with base := if m.rebase then some p.dtsNs else none }
            (m.rebased p.dtsNs p) = false := by
          simp [cuts, h.segOpen]
        rw [push, if_pos htakes]
        simp only [hbased, hcuts, Bool.false_eq_true, ↓reduceIte]
        refine Prod.ext (writeFrame_openAt haccepts ?_ _) rfl
        simp only [h.written, h.segIndex, h.segOpen]
      have hmux : mux av m (p :: ps) = (m.push av p).2 ++ mux av (m.push av p).1 ps := by
        rw [mux, pushAll, mux, List.append_assoc]
      rw [hmux, hfirst, List.nil_append, mux_inSegment h haccepts ps hps 0 (by simp), writtenOf,
        List.map_cons, parts]

end Push

/-! ### The statement -/

/-- The parts that are handed out: all but a last one that is short and not the only one. -/
def handedFrom (m : CmafMuxer) : ℕ → List (List CmafPacket) → List (List CmafPacket)
  | _, [] => []
  | index, [part] => if 0 < index ∧ m.Short part then [] else [part]
  | index, part :: next :: rest => part :: handedFrom m (index + 1) (next :: rest)

/-- One part is followed by another as its segment's duration says: no earlier than it starts,
and where it has no video, after the target. -/
def Joins (m : CmafMuxer) (part next : List CmafPacket) : Prop :=
  ((∃ p ∈ part, m.IsVideo p) → partStart part ≤ partStart next) ∧
    ((∀ p ∈ part, ¬m.IsVideo p) → partStart next = partStart part + m.targetS)

/-- These segments tile the programme that these packets are. -/
structure TilesProgramme (av : Movenc) (m : CmafMuxer) (resumeFromS : ℚ) (ps : List CmafPacket)
    (segs : List CmafSegment) : Prop where
  numbered : segs.map (·.index) = List.range segs.length
  joined : segs.IsChain fun a b => b.ptsS = a.ptsS + a.durationS
  /-- Every packet is in one of them, but for those of a short last segment. -/
  covers : ∃ parts : List (List CmafPacket), parts.flatten = m.writtenOf ps ∧ [] ∉ parts ∧
    List.Forall₂ (fun seg part => seg.bytes = styp ++ av.fragment m.keepInputTimestamps part) segs
      (parts.take segs.length) ∧
    (parts.length = segs.length ∨
      ∃ last, parts.drop segs.length = [last] ∧ segs ≠ [] ∧ m.Short last)
  resumed : 0 ≤ resumeFromS → ∀ seg ∈ segs.head?, resumeFromS ≤ seg.ptsS

/-- When they do. -/
structure TilesWhen (m : CmafMuxer) (resumeFromS : ℚ) (ps : List CmafPacket) : Prop where
  joins : (m.handedFrom 0 (m.parts (m.writtenOf ps))).IsChain m.Joins
  resumes : 0 ≤ resumeFromS → ∀ p ∈ ps.head?,
    resumeFromS ≤ nsToS (p.ptsNs - p.dtsNs + llround (resumeFromS * 1000000000))

section Segments

variable {av : Movenc} {m : CmafMuxer}

lemma parts_flatten (m : CmafMuxer) (ps : List CmafPacket) : (m.parts ps).flatten = ps := by
  have hfrom (ps part : List CmafPacket) : (m.partsFrom part ps).flatten = part ++ ps := by
    induction ps generalizing part with
    | nil => simp [partsFrom]
    | cons p ps ih =>
        rw [partsFrom]
        split
        · rw [List.flatten_cons, ih, List.singleton_append]
        · rw [ih, List.append_assoc, List.singleton_append]
  cases ps with
  | nil => rfl
  | cons p ps => exact hfrom ps [p]

lemma nil_not_mem_parts (m : CmafMuxer) (ps : List CmafPacket) : [] ∉ m.parts ps := by
  have hfrom (ps : List CmafPacket) {part : List CmafPacket} (hpart : part ≠ []) :
      [] ∉ m.partsFrom part ps := by
    induction ps generalizing part with
    | nil => simpa [partsFrom] using hpart.symm
    | cons p ps ih =>
        rw [partsFrom]
        split
        · rw [List.mem_cons, not_or]
          exact ⟨hpart.symm, ih (by simp)⟩
        · exact ih (by simp)
  cases ps with
  | nil => exact List.not_mem_nil
  | cons p ps => exact hfrom ps (by simp)

/-- A segment is followed by another as its part is. -/
lemma joins_iff (av : Movenc) (m : CmafMuxer) (index : ℕ) (part next : List CmafPacket) :
    partStart next = (m.segmentOf av index part (partStart next)).ptsS +
      (m.segmentOf av index part (partStart next)).durationS ↔ m.Joins part next := by
  have hvideo := (m.videoEnd_spec part).1
  simp only [segmentOf]
  by_cases hv : (m.videoEnd part).1 = true
  · have hsome := hvideo.mp hv
    have hno : ¬∀ p ∈ part, ¬m.IsVideo p := by
      obtain ⟨p, hp, hpv⟩ := hsome
      exact fun hall => hall p hp hpv
    rw [if_pos hv, Joins]
    constructor
    · intro heq
      have hle : 0 ≤ max 0 (partStart next - partStart part) := le_max_left _ _
      exact ⟨fun _ => by linarith, fun hc => absurd hc hno⟩
    · rintro ⟨hle, -⟩
      rw [max_eq_right (sub_nonneg.mpr (hle hsome)), add_sub_cancel]
  · have hnone : ∀ p ∈ part, ¬m.IsVideo p := fun p hp hpv => hv (hvideo.mpr ⟨p, hp, hpv⟩)
    rw [if_neg hv, Joins]
    refine ⟨fun heq => ⟨?_, fun _ => heq⟩, fun h => h.2 hnone⟩
    rintro ⟨p, hp, hpv⟩
    exact absurd hpv (hnone p hp)

/-- The segments and the parts that are handed out begin alike. -/
lemma segmentsOf_cases (av : Movenc) (m : CmafMuxer) (index : ℕ) (part : List CmafPacket)
    (rest : List (List CmafPacket)) :
    (m.segmentsOf av index (part :: rest) = [] ∧ m.handedFrom index (part :: rest) = []) ∨
      ∃ endS segs handed, m.segmentsOf av index (part :: rest) =
        m.segmentOf av index part endS :: segs ∧
          m.handedFrom index (part :: rest) = part :: handed := by
  cases rest with
  | nil =>
      rw [segmentsOf, handedFrom]
      by_cases hdrop : 0 < index ∧ m.Short part
      · exact .inl ⟨if_pos hdrop, if_pos hdrop⟩
      · exact .inr ⟨_, [], [], if_neg hdrop, if_neg hdrop⟩
  | cons next rest => exact .inr ⟨_, _, _, rfl, rfl⟩

/-- When every segment starts where the one before it ends. -/
lemma joined_iff (av : Movenc) (m : CmafMuxer) (index : ℕ) (parts : List (List CmafPacket)) :
    ((m.segmentsOf av index parts).IsChain fun a b => b.ptsS = a.ptsS + a.durationS) ↔
      (m.handedFrom index parts).IsChain m.Joins := by
  induction parts generalizing index with
  | nil => exact iff_of_true List.isChain_nil List.isChain_nil
  | cons part rest ih =>
      cases rest with
      | nil =>
          rw [segmentsOf, handedFrom]
          split
          · exact iff_of_true List.isChain_nil List.isChain_nil
          · exact iff_of_true (List.isChain_singleton _) (List.isChain_singleton _)
      | cons next rest =>
          have htail := ih (index + 1)
          rw [segmentsOf, handedFrom]
          obtain ⟨hsegs, hhanded⟩ | ⟨endS, segs, handed, hsegs, hhanded⟩ :=
            segmentsOf_cases av m (index + 1) next rest
          · rw [hsegs, hhanded]
            exact iff_of_true (List.isChain_singleton _) (List.isChain_singleton _)
          · rw [hsegs, hhanded] at htail ⊢
            rw [List.isChain_cons_cons, List.isChain_cons_cons, htail, ← joins_iff av m index]
            rfl

/-- The segments are numbered one after the other. -/
lemma segmentsOf_index (av : Movenc) (m : CmafMuxer) (index : ℕ)
    (parts : List (List CmafPacket)) :
    (m.segmentsOf av index parts).map (·.index) =
      List.range' index (m.segmentsOf av index parts).length := by
  induction parts generalizing index with
  | nil => rfl
  | cons part rest ih =>
      cases rest with
      | nil =>
          rw [segmentsOf]
          split
          · rfl
          · rfl
      | cons next rest =>
          rw [segmentsOf, List.map_cons, List.length_cons, List.range'_succ, ih]
          rfl

/-- Every part is a segment, but for a short last one. -/
lemma segmentsOf_covers (av : Movenc) (m : CmafMuxer) (index : ℕ)
    (parts : List (List CmafPacket)) :
    List.Forall₂ (fun seg part => seg.bytes = styp ++ av.fragment m.keepInputTimestamps part)
        (m.segmentsOf av index parts) (parts.take (m.segmentsOf av index parts).length) ∧
      (parts.length = (m.segmentsOf av index parts).length ∨
        ∃ last, parts.drop (m.segmentsOf av index parts).length = [last] ∧
          (0 < index ∨ m.segmentsOf av index parts ≠ []) ∧ m.Short last) := by
  induction parts generalizing index with
  | nil => exact ⟨.nil, .inl rfl⟩
  | cons part rest ih =>
      cases rest with
      | nil =>
          rw [segmentsOf]
          split
          next hdrop => exact ⟨.nil, .inr ⟨part, rfl, .inl hdrop.1, hdrop.2⟩⟩
          next => exact ⟨.cons rfl .nil, .inl rfl⟩
      | cons next rest =>
          obtain ⟨hbytes, hlast⟩ := ih (index + 1)
          rw [segmentsOf, List.length_cons, List.take_succ_cons, List.drop_succ_cons,
            List.length_cons]
          refine ⟨.cons rfl hbytes, ?_⟩
          obtain hlen | ⟨last, hdrop, -, hshort⟩ := hlast
          · exact .inl (by rw [hlen])
          · exact .inr ⟨last, hdrop, .inr (by simp), hshort⟩

/-- The first segment starts with the first packet. -/
lemma segmentsOf_head (av : Movenc) (m : CmafMuxer) (ps : List CmafPacket) :
    ((m.segmentsOf av 0 (m.parts ps)).head?).map (·.ptsS) =
      ps.head?.map fun p => nsToS p.ptsNs := by
  cases ps with
  | nil => rfl
  | cons p ps =>
      obtain ⟨l, rest, hhead⟩ := m.partsFrom_head ps [p]
      rw [parts, hhead]
      cases rest with
      | nil =>
          have hkeep : ¬(0 < 0 ∧ m.Short ([p] ++ l)) := fun h => absurd h.1 (lt_irrefl 0)
          rw [segmentsOf, if_neg hkeep]
          rfl
      | cons next rest => rfl

end Segments

section Taken

variable {av : Movenc} {m : CmafMuxer}

lemma tracks_flushFragment (endPtsS : ℚ) : (m.flushFragment av endPtsS).1.tracks = m.tracks := by
  rw [flushFragment]
  split <;> rfl

lemma tracks_writeFrame (p : CmafPacket) : (m.writeFrame av p).tracks = m.tracks := by
  rw [writeFrame]
  split
  · dsimp only
    split <;> rfl
  · rfl

@[simp] lemma tracks_push (p : CmafPacket) : (m.push av p).1.tracks = m.tracks := by
  have hbased : (m.based p).1.tracks = m.tracks := by
    rw [based]
    split <;> rfl
  have hopen (m' : CmafMuxer) (ptsS : ℚ) : (m'.openAt ptsS).tracks = m'.tracks := by
    rw [openAt]
    split <;> rfl
  rw [push]
  split
  · dsimp only
    rw [tracks_writeFrame, hopen]
    split
    · rw [tracks_flushFragment, hbased]
    · exact hbased
  · rfl

/-- Only the packets of its tracks count. -/
lemma mux_taken (av : Movenc) (m : CmafMuxer) (ps : List CmafPacket) :
    mux av m ps = mux av m (m.taken ps) := by
  have hall : m.pushAll av ps = m.pushAll av (m.taken ps) := by
    induction ps generalizing m with
    | nil => rfl
    | cons p ps ih =>
        by_cases hp : m.OfTrack p
        · have htaken : m.taken (p :: ps) = p :: (m.push av p).1.taken ps := by
            rw [taken, List.filter_cons_of_pos (by simpa using hp), taken]
            have hsame (q : CmafPacket) : (m.push av p).1.OfTrack q ↔ m.OfTrack q := by
              rw [OfTrack, OfTrack, tracks_push]
            exact congrArg (p :: ·) (List.filter_congr fun q _ => by simp only [hsame])
          rw [htaken, pushAll, pushAll, ih]
        · have htaken : m.taken (p :: ps) = m.taken ps := by
            rw [taken, List.filter_cons_of_neg (by simpa using hp), taken]
          have hpush : m.push av p = (m, []) := by
            rw [push, if_neg]
            simp only [Bool.and_eq_true, decide_eq_true_eq]
            rintro ⟨⟨-, hlow⟩, hhigh⟩
            exact hp ⟨hlow, hhigh⟩
          rw [htaken, pushAll, hpush, ← ih]
          rfl
  rw [mux, hall, mux]

end Taken

section New

variable {av : Movenc} {tracks : List CmafTrack} {keep : Bool} {resumeFromS : ℚ}

/-- A muxer whose header is written has taken no packet. -/
lemma fresh_new (targetS : ℚ)
    (hheader : (av.header (keep || decide (0 ≤ resumeFromS)) tracks).isSome) :
    (new av tracks targetS keep resumeFromS).onSegment.Fresh := by
  obtain ⟨init, hinit⟩ := Option.isSome_iff_exists.mp hheader
  rw [new]
  simp only [hinit]
  exact ⟨rfl, rfl, rfl, rfl, rfl, rfl, rfl⟩

lemma rebase_new (av : Movenc) (tracks : List CmafTrack) (targetS : ℚ) (keep : Bool)
    (resumeFromS : ℚ) :
    (new av tracks targetS keep resumeFromS).onSegment.rebase = decide (0 ≤ resumeFromS) ∧
      (0 ≤ resumeFromS → (new av tracks targetS keep resumeFromS).onSegment.rebaseToNs =
        llround (resumeFromS * 1000000000)) := by
  rw [new]
  split
  · exact ⟨rfl, fun h => if_pos (decide_eq_true h)⟩
  · exact ⟨rfl, fun h => if_pos (decide_eq_true h)⟩

end New

/-- **The segments tile the programme** exactly when every part of it is followed by the next as
its segment's duration says, and the first packet is not written before the point it goes on
from. -/
theorem tiles_iff (av : Movenc) (tracks : List CmafTrack) (targetS : ℚ) (keep : Bool)
    (resumeFromS : ℚ)
    (hheader : (av.header (keep || decide (0 ≤ resumeFromS)) tracks).isSome)
    (haccepts : ∀ keep ws p, av.accepts keep ws p = true) (ps : List CmafPacket) :
    TilesProgramme av (new av tracks targetS keep resumeFromS).onSegment resumeFromS
        ((new av tracks targetS keep resumeFromS).onSegment.taken ps)
        (mux av (new av tracks targetS keep resumeFromS).onSegment ps) ↔
      TilesWhen (new av tracks targetS keep resumeFromS).onSegment resumeFromS
        ((new av tracks targetS keep resumeFromS).onSegment.taken ps) := by
  have hfresh := fresh_new targetS hheader
  obtain ⟨hrebase, hto⟩ := rebase_new av tracks targetS keep resumeFromS
  set m := (new av tracks targetS keep resumeFromS).onSegment
  rw [mux_taken]
  have htrack : ∀ p ∈ m.taken ps, m.OfTrack p :=
    fun p hp => of_decide_eq_true (List.mem_filter.mp hp).2
  generalize m.taken ps = ws at htrack
  rw [mux_eq hfresh haccepts ws htrack]
  have hfirst (hr : 0 ≤ resumeFromS) (p : CmafPacket) :
      (m.rebased p.dtsNs p).ptsNs = p.ptsNs - p.dtsNs + llround (resumeFromS * 1000000000) := by
    rw [rebased, if_pos (hrebase.trans (decide_eq_true hr)), hto hr]
  have hhead := segmentsOf_head av m (m.writtenOf ws)
  have hresumed : (0 ≤ resumeFromS → ∀ seg ∈ (m.segmentsOf av 0 (m.parts (m.writtenOf ws))).head?,
      resumeFromS ≤ seg.ptsS) ↔ (0 ≤ resumeFromS → ∀ p ∈ ws.head?,
        resumeFromS ≤ nsToS (p.ptsNs - p.dtsNs + llround (resumeFromS * 1000000000))) := by
    refine forall_congr' fun hr => ?_
    cases ws with
    | nil => simp [writtenOf, parts, segmentsOf]
    | cons p ws =>
        rw [writtenOf, List.map_cons, List.head?_cons, Option.map_some, hfirst hr] at hhead
        obtain ⟨seg, hseg, hpts⟩ := Option.map_eq_some_iff.mp hhead
        rw [writtenOf, List.map_cons, hseg]
        simp only [Option.mem_some_iff, forall_eq', List.head?_cons, hpts]
  constructor
  · rintro ⟨-, hjoined, -, hresume⟩
    exact ⟨(joined_iff av m 0 _).mp hjoined, hresumed.mp hresume⟩
  · rintro ⟨hjoins, hresume⟩
    obtain ⟨hbytes, hlast⟩ := segmentsOf_covers av m 0 (m.parts (m.writtenOf ws))
    refine ⟨?_, (joined_iff av m 0 _).mpr hjoins,
      ⟨m.parts (m.writtenOf ws), parts_flatten m _, nil_not_mem_parts m _, hbytes, ?_⟩,
      hresumed.mpr hresume⟩
    · rw [segmentsOf_index, List.range_eq_range']
    · obtain hlen | ⟨last, hdrop, hindex | hsome, hshort⟩ := hlast
      · exact .inl hlen
      · exact absurd hindex (lt_irrefl 0)
      · exact .inr ⟨last, hdrop, hsome, hshort⟩

/-- A fragment is the bytes of its packets. -/
def plainMovenc : Movenc where
  header _ _ := some []
  accepts _ _ _ := true
  fragment _ ps := ps.flatMap (·.data)

/-- Video at 25 frames a second, and audio. -/
def pictureAndSound : List CmafTrack := [{ fpsNum := 25 }, { kind := .audio }]

/-- A keyframe of the video that lasts that long, both in milliseconds. -/
def keyframeAt (ms duration : ℤ) : CmafPacket where
  data := [1]
  ptsNs := ms * 1000000
  dtsNs := ms * 1000000
  durationNs := duration * 1000000
  keyframe := true

/-- An audio packet. -/
def soundAt (ms : ℤ) : CmafPacket where
  track := 1
  data := [2]
  ptsNs := ms * 1000000
  dtsNs := ms * 1000000

/-- Twelve seconds with sound from the start, resumed at two minutes. -/
theorem tiles_iff_resumed :
    TilesProgramme plainMovenc (new plainMovenc pictureAndSound 6 false 120).onSegment 120
        ((new plainMovenc pictureAndSound 6 false 120).onSegment.taken
          [keyframeAt 1000 6000, soundAt 1000, keyframeAt 7000 6000, soundAt 7000])
        (mux plainMovenc (new plainMovenc pictureAndSound 6 false 120).onSegment
          [keyframeAt 1000 6000, soundAt 1000, keyframeAt 7000 6000, soundAt 7000]) ↔
      TilesWhen (new plainMovenc pictureAndSound 6 false 120).onSegment 120
        ((new plainMovenc pictureAndSound 6 false 120).onSegment.taken
          [keyframeAt 1000 6000, soundAt 1000, keyframeAt 7000 6000, soundAt 7000]) :=
  tiles_iff plainMovenc pictureAndSound 6 false 120 (by decide) (fun _ _ _ => rfl) _

/-- Ten seconds of sound before the first picture: the segment of it claims six, and the one
after it starts at ten. -/
theorem tiles_not :
    ((mux plainMovenc (new plainMovenc pictureAndSound 6 false (-1)).onSegment
        [soundAt 0, soundAt 5000, keyframeAt 10000 6000]).map fun seg =>
          (seg.index, seg.ptsS, seg.durationS)) = [(0, 0, 6), (1, 10, 6)] ∧
      ¬TilesProgramme plainMovenc (new plainMovenc pictureAndSound 6 false (-1)).onSegment (-1)
        ((new plainMovenc pictureAndSound 6 false (-1)).onSegment.taken
          [soundAt 0, soundAt 5000, keyframeAt 10000 6000])
        (mux plainMovenc (new plainMovenc pictureAndSound 6 false (-1)).onSegment
          [soundAt 0, soundAt 5000, keyframeAt 10000 6000]) := by
  have hsegs : ((mux plainMovenc (new plainMovenc pictureAndSound 6 false (-1)).onSegment
      [soundAt 0, soundAt 5000, keyframeAt 10000 6000]).map fun seg =>
        (seg.index, seg.ptsS, seg.durationS)) = [(0, 0, 6), (1, 10, 6)] := by
    decide +kernel
  refine ⟨hsegs, fun h => ?_⟩
  have hjoined := h.joined
  obtain ⟨a, rest, ha, hfirst, hrest⟩ := List.map_eq_cons_iff.mp hsegs
  obtain ⟨b, rest', hb, hsecond, -⟩ := List.map_eq_cons_iff.mp hrest
  rw [ha, hb, List.isChain_cons_cons] at hjoined
  simp only [Prod.mk.injEq] at hfirst hsecond
  have hgap := hjoined.1
  rw [hsecond.2.1, hfirst.2.1, hfirst.2.2] at hgap
  norm_num at hgap

end CmafMuxer

end Multisite

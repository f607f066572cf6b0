import Multisite.Core.Documents

/-!
What is printed and read again, and what is read when a member that readers can do without is left
out.

* `Valid`: the values that the program prints, record by record;
* `fromJson_toJson`: each record is read as it was printed;
* `Defaulted`: the optional members of a document, where they stand, and the record without them;
* `ReadsBack`, `documents_read_back`: the five documents.
-/

namespace Multisite

open Json

/-! ### Numbers -/

/-- An `int`. -/
def FitsInt (n : ℤ) : Prop := -2 ^ 31 ≤ n ∧ n < 2 ^ 31

/-- An `int64_t`. -/
def FitsInt64 (n : ℤ) : Prop := -2 ^ 63 ≤ n ∧ n < 2 ^ 63

/-- A `uint64_t`. -/
def FitsUInt64 (n : ℕ) : Prop := n < 2 ^ 64

namespace Json

variable {n : ℤ}

@[simp] lemma getStr_str (s : String) : getStr (.str s) = some s := rfl

@[simp] lemma getDouble_float (q : ℚ) : getDouble (.float q) = some q := rfl

lemma bmod_of_fits {n : ℤ} {k : ℕ} (h : -2 ^ k ≤ n ∧ n < 2 ^ k) : n.bmod (2 ^ (k + 1)) = n := by
  obtain ⟨hlow, hhigh⟩ := h
  have hpow : ((2 ^ (k + 1) : ℕ) : ℤ) = 2 * 2 ^ k := by
    push_cast
    ring
  refine Int.bmod_eq_of_le_mul_two ?_ ?_
  · rw [hpow]
    omega
  · rw [hpow]
    omega

lemma getInt_int (h : FitsInt n) : getInt (.int n) = some n := by
  have hmod : n.bmod (2 ^ 32) = n := bmod_of_fits h
  rw [getInt, number?, Option.map_some, truncate_int, hmod]
  exact fun b => Json.noConfusion

lemma getInt64_int (h : FitsInt64 n) : getInt64 (.int n) = some n := by
  have hmod : n.bmod (2 ^ 64) = n := bmod_of_fits h
  rw [getInt64, number?, Option.map_some, truncate_int, hmod]

lemma getUInt64_int {n : ℕ} (h : FitsUInt64 n) : getUInt64 (.int n) = some n := by
  have hmod : ((n : ℤ) % 2 ^ 64).toNat = n := by
    rw [FitsUInt64] at h
    omega
  rw [getUInt64, number?, Option.map_some, truncate_int, hmod]

/-! ### Members -/

/-- Where a value stands in a document: under a key, or at a place of a list. -/
inductive Step where
  | key (k : String)
  | index (i : ℕ)
  deriving DecidableEq, Repr

/-- The document without the member `k` of the object at that place. -/
def removeAt (k : String) : List Step → Json → Json
  | [], .obj l => .obj (l.filter fun m => m.1 ≠ k)
  | .key k' :: path, .obj l =>
      .obj (l.map fun m => if m.1 = k' then (m.1, removeAt k path m.2) else m)
  | .index i :: path, .arr l => .arr (l.modify i (removeAt k path))
  | _, j => j

-- their equations are made here, once, and not by the first lemmas that ask for them
section
attribute [local simp] removeAt find value
end

end Json

/-- What is printed one by one is read one by one. -/
lemma mapM_map {α β : Type} {f : β → Option α} {g : α → β} {l : List α}
    (h : ∀ a ∈ l, f (g a) = some a) : (l.map g).mapM f = some l := by
  induction l with
  | nil => rfl
  | cons a l ih =>
      rw [List.map_cons, List.mapM_cons, h a List.mem_cons_self,
        ih fun b hb => h b (List.mem_cons_of_mem _ hb)]
      rfl

/-- One that was printed with something left out is read as it is without it. -/
lemma mapM_modify {α β : Type} {f : β → Option α} {g : α → β} {cut : β → β} {without : α → α}
    {l : List α} (i : ℕ) (h : ∀ a ∈ l, f (g a) = some a)
    (hcut : ∀ a ∈ l, f (cut (g a)) = some (without a)) :
    ((l.map g).modify i cut).mapM f = some (l.modify i without) := by
  induction l generalizing i with
  | nil => cases i <;> rfl
  | cons a l ih =>
      have hrest : ∀ b ∈ l, f (g b) = some b := fun b hb => h b (List.mem_cons_of_mem _ hb)
      cases i with
      | zero =>
          rw [List.map_cons, List.modify_zero_cons, List.modify_zero_cons, List.mapM_cons,
            hcut a List.mem_cons_self, mapM_map hrest]
          rfl
      | succ i =>
          rw [List.map_cons, List.modify_succ_cons, List.modify_succ_cons, List.mapM_cons,
            h a List.mem_cons_self, ih i hrest fun b hb => hcut b (List.mem_cons_of_mem _ hb)]
          rfl

/-! ### What the program prints -/

/-- The status is one that a text is read as. -/
def Status.Valid (s : Status) : Prop := Status.ofText s.text = s

/-- The version of a document that is printed. -/
def ValidVersion (n : ℤ) : Prop := 1 ≤ n ∧ FitsInt n

structure TileLayout.Valid (t : TileLayout) : Prop where
  cols : 1 ≤ t.cols ∧ t.cols ≤ 4
  rows : 1 ≤ t.rows ∧ t.rows ≤ 4

structure VideoInfo.Valid (v : VideoInfo) : Prop where
  width : FitsInt v.width
  height : FitsInt v.height
  layout : v.layout.Valid

structure AudioTrack.Valid (t : AudioTrack) : Prop where
  idx : FitsInt t.idx
  channels : FitsInt t.channels
  sampleRate : FitsInt t.sampleRate
  language : t.language = ""

structure LivePointer.Valid (p : LivePointer) : Prop where
  version : ValidVersion p.protocolVersion
  status : p.status.Valid
  updatedAtMs : FitsInt64 p.updatedAtMs

structure EventInfo.Valid (e : EventInfo) : Prop where
  version : ValidVersion e.protocolVersion
  startedAtMs : FitsInt64 e.startedAtMs
  firstSeq : FitsUInt64 e.firstSeq
  video : e.video.Valid
  audioTracks : ∀ t ∈ e.audioTracks, t.Valid

structure RoomEventEntry.Valid (e : RoomEventEntry) : Prop where
  version : ValidVersion e.protocolVersion
  startedAtMs : FitsInt64 e.startedAtMs

structure ManifestSegment.Valid (s : ManifestSegment) : Prop where
  seq : FitsUInt64 s.seq
  atMs : FitsInt64 s.atMs

structure Manifest.Valid (m : Manifest) : Prop where
  version : ValidVersion m.protocolVersion
  status : m.status.Valid
  updatedAtMs : FitsInt64 m.updatedAtMs
  startedAtMs : FitsInt64 m.startedAtMs
  firstAvailableSeq : FitsUInt64 m.firstAvailableSeq
  windowStartSeq : FitsUInt64 m.windowStartSeq
  latestSeq : FitsUInt64 m.latestSeq
  video : m.video.Valid
  audioTracks : ∀ t ∈ m.audioTracks, t.Valid
  segments : ∀ s ∈ m.segments, s.Valid
  gaps : ∀ g ∈ m.gaps, g.1 ≤ g.2 ∧ FitsUInt64 g.2

structure Marker.Valid (m : Marker) : Prop where
  seq : FitsUInt64 m.seq
  atMs : FitsInt64 m.atMs
  atMediaMs : FitsInt64 m.atMediaMs

structure MarkerList.Valid (l : MarkerList) : Prop where
  version : ValidVersion l.protocolVersion
  markers : ∀ m ∈ l.markers, m.Valid

/-! ### Parts of the documents -/

lemma readProtocolVersion_of_find {l : List (String × Json)} {n : ℤ} (hn : ValidVersion n)
    (h : find "protocol_version" l = some (.int n)) : readProtocolVersion (.obj l) = n := by
  have hmod : n.bmod (2 ^ 32) = n := bmod_of_fits hn.2
  rw [readProtocolVersion, get?, h]
  dsimp only
  rw [hmod, if_pos (by have := hn.1; omega)]

lemma readProtocolVersion_of_absent {l : List (String × Json)}
    (h : find "protocol_version" l = none) : readProtocolVersion (.obj l) = kProtocolVersion := by
  rw [readProtocolVersion, get?, h]
  rfl

/-- Every layout that is printed is read again. -/
lemma TileLayout.parse_text {t : TileLayout} (h : t.Valid) : TileLayout.parse t.text = t := by
  obtain ⟨cols, rows⟩ := t
  obtain ⟨⟨hc, hc'⟩, hr, hr'⟩ := h
  dsimp only at hc hc' hr hr'
  interval_cases cols <;> interval_cases rows <;> decide +kernel

/-- The layout of a picture that is not split is `1x1`. -/
lemma TileLayout.parse_single : TileLayout.parse "1x1" = {} :=
  TileLayout.parse_text (t := {}) ⟨by decide, by decide⟩

lemma TileLayout.eq_of_not_isSplit {t : TileLayout} (h : t.Valid) (hs : t.isSplit = false) :
    t = {} := by
  obtain ⟨cols, rows⟩ := t
  obtain ⟨⟨hc, hc'⟩, hr, hr'⟩ := h
  rw [isSplit] at hs
  dsimp only at hc hc' hr hr' hs
  interval_cases cols <;> interval_cases rows <;> first | rfl | exact absurd hs (by decide)

namespace VideoInfo

variable {v : VideoInfo}

lemma fromJson_toJson (h : v.Valid) : fromJson v.toJson = some v := by
  have hlayout := TileLayout.parse_text h.layout
  cases hs : v.layout.isSplit with
  | true =>
      simp [toJson, fromJson, hs, value, find, getInt_int h.width, getInt_int h.height, hlayout]
  | false =>
      have hone := TileLayout.eq_of_not_isSplit h.layout hs
      simp [toJson, fromJson, hs, value, find, getInt_int h.width, getInt_int h.height,
        TileLayout.parse_single]
      rw [← hone]

lemma fromJson_noLayout (h : v.Valid) :
    fromJson (removeAt "layout" [] v.toJson) = some { v with layout := {} } := by
  cases hs : v.layout.isSplit <;>
    simp [removeAt, toJson, fromJson, hs, value, find, getInt_int h.width, getInt_int h.height,
      TileLayout.parse_single]

end VideoInfo

namespace AudioTrack

variable {t : AudioTrack}

lemma fromJson_toJson (h : t.Valid) : fromJson t.toJson = some t := by
  have hlabels : (t.channelLabels.map Json.str).mapM getStr = some t.channelLabels :=
    mapM_map fun s _ => rfl
  obtain ⟨idx, label, codec, channels, sampleRate, channelLabels, language⟩ := t
  obtain rfl : language = "" := h.language
  by_cases hempty : channelLabels = []
  · subst hempty
    simp [toJson, fromJson, labelsFromJson, get?, value, find, getInt_int h.idx,
      getInt_int h.channels, getInt_int h.sampleRate]
  · simp [toJson, fromJson, labelsFromJson, get?, value, find, getInt_int h.idx,
      getInt_int h.channels, getInt_int h.sampleRate, hempty, hlabels]

lemma fromJson_noLabels (h : t.Valid) :
    fromJson (removeAt "channel_labels" [] t.toJson) = some { t with channelLabels := [] } := by
  obtain ⟨idx, label, codec, channels, sampleRate, channelLabels, language⟩ := t
  obtain rfl : language = "" := h.language
  by_cases hempty : channelLabels = [] <;>
    simp [removeAt, toJson, fromJson, labelsFromJson, get?, value, find, getInt_int h.idx,
      getInt_int h.channels, getInt_int h.sampleRate, hempty]

end AudioTrack

lemma tracksFromJson_toJson {l : List AudioTrack} (h : ∀ t ∈ l, t.Valid) :
    tracksFromJson (tracksToJson l) = some l :=
  mapM_map fun t ht => AudioTrack.fromJson_toJson (h t ht)

lemma tracksFromJson_noLabels {l : List AudioTrack} (h : ∀ t ∈ l, t.Valid) (i : ℕ) :
    tracksFromJson (removeAt "channel_labels" [.index i] (tracksToJson l)) =
      some (l.modify i fun t => { t with channelLabels := [] }) :=
  mapM_modify i (fun t ht => AudioTrack.fromJson_toJson (h t ht))
    fun t ht => AudioTrack.fromJson_noLabels (h t ht)

lemma ManifestSegment.fromJson_toJson {s : ManifestSegment} (h : s.Valid) :
    fromJson s.toJson = some s := by
  simp [toJson, fromJson, value, find, getUInt64_int h.seq, getInt64_int h.atMs]

lemma Manifest.unsigned?_int {n : ℕ} (h : FitsUInt64 n) : unsigned? (.int n) = some n := by
  have hmod : ((n : ℤ) % 2 ^ 64).toNat = n := by
    rw [FitsUInt64] at h
    omega
  rw [unsigned?, if_pos (Int.natCast_nonneg n), hmod]

/-- Every range that is printed is read again. -/
lemma Manifest.filterMap_gaps {l : List (ℕ × ℕ)} (h : ∀ g ∈ l, g.1 ≤ g.2 ∧ FitsUInt64 g.2) :
    (l.map gapToJson).filterMap gapFromJson = l := by
  have hread : ∀ g ∈ l, gapFromJson (gapToJson g) = some g := by
    intro g hg
    obtain ⟨hle, hfits⟩ := h g hg
    rw [gapToJson, gapFromJson, unsigned?_int (lt_of_le_of_lt hle hfits), unsigned?_int hfits]
    exact if_pos hle
  rw [List.filterMap_map]
  exact (List.filterMap_congr hread).trans List.filterMap_some

namespace Marker

variable {m : Marker}

lemma fromJson_toJson (h : m.Valid) : fromJson m.toJson = some m := by
  simp [toJson, fromJson, value, find, getUInt64_int h.seq, getInt64_int h.atMs,
    getInt64_int h.atMediaMs]

lemma fromJson_noMediaMs (h : m.Valid) :
    fromJson (removeAt "at_media_ms" [] m.toJson) = some { m with atMediaMs := -1 } := by
  simp [removeAt, toJson, fromJson, value, find, getUInt64_int h.seq, getInt64_int h.atMs]

lemma fromJson_noAuthor (h : m.Valid) :
    fromJson (removeAt "author" [] m.toJson) = some { m with author := "" } := by
  simp [removeAt, toJson, fromJson, value, find, getUInt64_int h.seq, getInt64_int h.atMs,
    getInt64_int h.atMediaMs]

end Marker

/-! ### The documents -/

/-- What a document says without one of its optional members: the member, where the object that
holds it stands, and the value with that field at its default. -/
inductive LivePointer.Defaulted (p : LivePointer) : List Step → String → LivePointer → Prop where
  | protocolVersion : p.Defaulted [] "protocol_version" { p with protocolVersion := 1 }

inductive EventInfo.Defaulted (e : EventInfo) : List Step → String → EventInfo → Prop where
  | protocolVersion : e.Defaulted [] "protocol_version" { e with protocolVersion := 1 }
  | name : e.Defaulted [] "name" { e with name := "" }
  | layout : e.Defaulted [.key "video"] "layout" { e with video := { e.video with layout := {} } }
  | channelLabels (i : ℕ) : e.Defaulted [.key "audio_tracks", .index i] "channel_labels"
      { e with audioTracks := e.audioTracks.modify i fun t => { t with channelLabels := [] } }

inductive RoomEventEntry.Defaulted (e : RoomEventEntry) :
    List Step → String → RoomEventEntry → Prop where
  | protocolVersion : e.Defaulted [] "protocol_version" { e with protocolVersion := 1 }
  | name : e.Defaulted [] "name" { e with name := "" }

inductive Manifest.Defaulted (m : Manifest) : List Step → String → Manifest → Prop where
  | protocolVersion : m.Defaulted [] "protocol_version" { m with protocolVersion := 1 }
  | name : m.Defaulted [] "name" { m with name := "" }
  | gaps : m.Defaulted [] "gaps" { m with gaps := [] }
  | layout : m.Defaulted [.key "video"] "layout" { m with video := { m.video with layout := {} } }
  | channelLabels (i : ℕ) : m.Defaulted [.key "audio_tracks", .index i] "channel_labels"
      { m with audioTracks := m.audioTracks.modify i fun t => { t with channelLabels := [] } }

inductive MarkerList.Defaulted (l : MarkerList) : List Step → String → MarkerList → Prop where
  | protocolVersion : l.Defaulted [] "protocol_version" { l with protocolVersion := 1 }
  | atMediaMs (i : ℕ) : l.Defaulted [.key "markers", .index i] "at_media_ms"
      { l with markers := l.markers.modify i fun m => { m with atMediaMs := -1 } }
  | author (i : ℕ) : l.Defaulted [.key "markers", .index i] "author"
      { l with markers := l.markers.modify i fun m => { m with author := "" } }

lemma LivePointer.fromJson_toJson {p : LivePointer} (h : p.Valid) :
    fromJson p.toJson = some p := by
  have hstatus : Status.ofText p.status.text = p.status := h.status
  have hversion : readProtocolVersion p.toJson = p.protocolVersion :=
    readProtocolVersion_of_find h.version rfl
  rw [fromJson, hversion]
  simp [toJson, value, find, getInt64_int h.updatedAtMs, hstatus]

lemma LivePointer.fromJson_removeAt {p p' : LivePointer} {path : List Step} {k : String}
    (h : p.Valid) (hd : p.Defaulted path k p') :
    fromJson (removeAt k path p.toJson) = some p' := by
  have hstatus : Status.ofText p.status.text = p.status := h.status
  cases hd with
  | protocolVersion =>
      have hversion : readProtocolVersion (removeAt "protocol_version" [] p.toJson) = 1 :=
        readProtocolVersion_of_absent (by simp [find])
      rw [fromJson, hversion]
      simp [removeAt, toJson, value, find, getInt64_int h.updatedAtMs, hstatus]

lemma RoomEventEntry.fromJson_toJson {e : RoomEventEntry} (h : e.Valid) :
    fromJson e.toJson = some e := by
  have hversion : readProtocolVersion e.toJson = e.protocolVersion :=
    readProtocolVersion_of_find h.version rfl
  rw [fromJson, hversion]
  simp [toJson, value, find, getInt64_int h.startedAtMs]

lemma RoomEventEntry.fromJson_removeAt {e e' : RoomEventEntry} {path : List Step} {k : String}
    (h : e.Valid) (hd : e.Defaulted path k e') :
    fromJson (removeAt k path e.toJson) = some e' := by
  cases hd with
  | protocolVersion =>
      have hversion : readProtocolVersion (removeAt "protocol_version" [] e.toJson) = 1 :=
        readProtocolVersion_of_absent (by simp [find])
      rw [fromJson, hversion]
      simp [removeAt, toJson, value, find, getInt64_int h.startedAtMs]
  | name =>
      have hversion : readProtocolVersion (removeAt "name" [] e.toJson) = e.protocolVersion :=
        readProtocolVersion_of_find h.version (by simp [find])
      rw [fromJson, hversion]
      simp [removeAt, toJson, value, find, getInt64_int h.startedAtMs]

lemma EventInfo.fromJson_toJson {e : EventInfo} (h : e.Valid) : fromJson e.toJson = some e := by
  have hversion : readProtocolVersion e.toJson = e.protocolVersion :=
    readProtocolVersion_of_find h.version rfl
  rw [fromJson, hversion]
  simp [toJson, value, member, get?, find, getInt64_int h.startedAtMs, getUInt64_int h.firstSeq,
    VideoInfo.fromJson_toJson h.video, tracksFromJson_toJson h.audioTracks]

lemma EventInfo.fromJson_removeAt {e e' : EventInfo} {path : List Step} {k : String}
    (h : e.Valid) (hd : e.Defaulted path k e') :
    fromJson (removeAt k path e.toJson) = some e' := by
  cases hd with
  | protocolVersion =>
      have hversion : readProtocolVersion (removeAt "protocol_version" [] e.toJson) = 1 :=
        readProtocolVersion_of_absent (by simp [find])
      rw [fromJson, hversion]
      simp [removeAt, toJson, value, member, get?, find, getInt64_int h.startedAtMs,
        getUInt64_int h.firstSeq, VideoInfo.fromJson_toJson h.video,
        tracksFromJson_toJson h.audioTracks]
  | name =>
      have hversion : readProtocolVersion (removeAt "name" [] e.toJson) = e.protocolVersion :=
        readProtocolVersion_of_find h.version (by simp [find])
      rw [fromJson, hversion]
      simp [removeAt, toJson, value, member, get?, find, getInt64_int h.startedAtMs,
        getUInt64_int h.firstSeq, VideoInfo.fromJson_toJson h.video,
        tracksFromJson_toJson h.audioTracks]
  | layout =>
      have hversion :
          readProtocolVersion (removeAt "layout" [.key "video"] e.toJson) = e.protocolVersion :=
        readProtocolVersion_of_find h.version (by simp [find])
      have hvideo := VideoInfo.fromJson_noLayout h.video
      rw [fromJson, hversion]
      simp [removeAt, toJson, value, member, get?, find, getInt64_int h.startedAtMs,
        getUInt64_int h.firstSeq, hvideo, tracksFromJson_toJson h.audioTracks]
  | channelLabels i =>
      have hversion : readProtocolVersion
          (removeAt "channel_labels" [.key "audio_tracks", .index i] e.toJson) =
            e.protocolVersion :=
        readProtocolVersion_of_find h.version (by simp [find])
      have htracks := tracksFromJson_noLabels h.audioTracks i
      rw [fromJson, hversion]
      simp [removeAt, toJson, value, member, get?, find, getInt64_int h.startedAtMs,
        getUInt64_int h.firstSeq, VideoInfo.fromJson_toJson h.video, htracks]

lemma Manifest.listed_segments {l : List ManifestSegment} (h : ∀ s ∈ l, s.Valid) :
    (l.map ManifestSegment.toJson).mapM ManifestSegment.fromJson = some l :=
  mapM_map fun s hs => ManifestSegment.fromJson_toJson (h s hs)

lemma Manifest.fromJson_toJson {m : Manifest} (h : m.Valid) : fromJson m.toJson = some m := by
  have hstatus : Status.ofText m.status.text = m.status := h.status
  have hversion : readProtocolVersion m.toJson = m.protocolVersion :=
    readProtocolVersion_of_find h.version rfl
  rw [fromJson, hversion]
  simp [toJson, value, member, listed, get?, find, getInt64_int h.startedAtMs,
    getInt64_int h.updatedAtMs, getUInt64_int h.firstAvailableSeq, getUInt64_int h.windowStartSeq,
    getUInt64_int h.latestSeq, VideoInfo.fromJson_toJson h.video,
    tracksFromJson_toJson h.audioTracks, listed_segments h.segments, filterMap_gaps h.gaps, hstatus]

lemma Manifest.fromJson_removeAt {m m' : Manifest} {path : List Step} {k : String}
    (h : m.Valid) (hd : m.Defaulted path k m') :
    fromJson (removeAt k path m.toJson) = some m' := by
  have hstatus : Status.ofText m.status.text = m.status := h.status
  cases hd with
  | protocolVersion =>
      have hversion : readProtocolVersion (removeAt "protocol_version" [] m.toJson) = 1 :=
        readProtocolVersion_of_absent (by simp [find])
      rw [fromJson, hversion]
      simp [removeAt, toJson, value, member, listed, get?, find, getInt64_int h.startedAtMs,
        getInt64_int h.updatedAtMs, getUInt64_int h.firstAvailableSeq,
        getUInt64_int h.windowStartSeq, getUInt64_int h.latestSeq,
        VideoInfo.fromJson_toJson h.video, tracksFromJson_toJson h.audioTracks,
        listed_segments h.segments, filterMap_gaps h.gaps, hstatus]
  | name =>
      have hversion : readProtocolVersion (removeAt "name" [] m.toJson) = m.protocolVersion :=
        readProtocolVersion_of_find h.version (by simp [find])
      rw [fromJson, hversion]
      simp [removeAt, toJson, value, member, listed, get?, find, getInt64_int h.startedAtMs,
        getInt64_int h.updatedAtMs, getUInt64_int h.firstAvailableSeq,
        getUInt64_int h.windowStartSeq, getUInt64_int h.latestSeq,
        VideoInfo.fromJson_toJson h.video, tracksFromJson_toJson h.audioTracks,
        listed_segments h.segments, filterMap_gaps h.gaps, hstatus]
  | gaps =>
      have hversion : readProtocolVersion (removeAt "gaps" [] m.toJson) = m.protocolVersion :=
        readProtocolVersion_of_find h.version (by simp [find])
      rw [fromJson, hversion]
      simp [removeAt, toJson, value, member, listed, get?, find, getInt64_int h.startedAtMs,
        getInt64_int h.updatedAtMs, getUInt64_int h.firstAvailableSeq,
        getUInt64_int h.windowStartSeq, getUInt64_int h.latestSeq,
        VideoInfo.fromJson_toJson h.video, tracksFromJson_toJson h.audioTracks,
        listed_segments h.segments, hstatus]
  | layout =>
      have hversion :
          readProtocolVersion (removeAt "layout" [.key "video"] m.toJson) = m.protocolVersion :=
        readProtocolVersion_of_find h.version (by simp [find])
      have hvideo := VideoInfo.fromJson_noLayout h.video
      rw [fromJson, hversion]
      simp [removeAt, toJson, value, member, listed, get?, find, getInt64_int h.startedAtMs,
        getInt64_int h.updatedAtMs, getUInt64_int h.firstAvailableSeq,
        getUInt64_int h.windowStartSeq, getUInt64_int h.latestSeq, hvideo,
        tracksFromJson_toJson h.audioTracks, listed_segments h.segments, filterMap_gaps h.gaps,
        hstatus]
  | channelLabels i =>
      have hversion : readProtocolVersion
          (removeAt "channel_labels" [.key "audio_tracks", .index i] m.toJson) =
            m.protocolVersion :=
        readProtocolVersion_of_find h.version (by simp [find])
      have htracks := tracksFromJson_noLabels h.audioTracks i
      rw [fromJson, hversion]
      simp [removeAt, toJson, value, member, listed, get?, find, getInt64_int h.startedAtMs,
        getInt64_int h.updatedAtMs, getUInt64_int h.firstAvailableSeq,
        getUInt64_int h.windowStartSeq, getUInt64_int h.latestSeq,
        VideoInfo.fromJson_toJson h.video, htracks, listed_segments h.segments,
        filterMap_gaps h.gaps, hstatus]

lemma MarkerList.fromJson_toJson {l : MarkerList} (h : l.Valid) : fromJson l.toJson = some l := by
  have hmarkers : (l.markers.map Marker.toJson).mapM Marker.fromJson = some l.markers :=
    mapM_map fun m hm => Marker.fromJson_toJson (h.markers m hm)
  have hversion : readProtocolVersion l.toJson = l.protocolVersion :=
    readProtocolVersion_of_find h.version rfl
  rw [fromJson, hversion]
  simp [toJson, listed, get?, find, hmarkers]

lemma MarkerList.fromJson_removeAt {l l' : MarkerList} {path : List Step} {k : String}
    (h : l.Valid) (hd : l.Defaulted path k l') :
    fromJson (removeAt k path l.toJson) = some l' := by
  have hmarkers (m : Marker) (hm : m ∈ l.markers) : Marker.fromJson m.toJson = some m :=
    Marker.fromJson_toJson (h.markers m hm)
  cases hd with
  | protocolVersion =>
      have hversion : readProtocolVersion (removeAt "protocol_version" [] l.toJson) = 1 :=
        readProtocolVersion_of_absent (by simp [find])
      rw [fromJson, hversion]
      simp [removeAt, toJson, listed, get?, find, mapM_map hmarkers]
  | atMediaMs i =>
      have hversion : readProtocolVersion
          (removeAt "at_media_ms" [.key "markers", .index i] l.toJson) = l.protocolVersion :=
        readProtocolVersion_of_find h.version (by simp [find])
      have hcut := mapM_modify i hmarkers fun m hm => Marker.fromJson_noMediaMs (h.markers m hm)
      rw [fromJson, hversion]
      simp [removeAt, toJson, listed, get?, find, hcut]
  | author i =>
      have hversion : readProtocolVersion
          (removeAt "author" [.key "markers", .index i] l.toJson) = l.protocolVersion :=
        readProtocolVersion_of_find h.version (by simp [find])
      have hcut := mapM_modify i hmarkers fun m hm => Marker.fromJson_noAuthor (h.markers m hm)
      rw [fromJson, hversion]
      simp [removeAt, toJson, listed, get?, find, hcut]

/-- A document is read as it was printed, and read with a field at its default when the member is
left out of the text. -/
def ReadsBack {α : Type} (parse : String → Option Json) (dump : Json → String) (toJson : α → Json)
    (fromJson : Json → Option α) (Defaulted : α → List Step → String → α → Prop) (x : α) : Prop :=
  (parse (dump (toJson x))).bind fromJson = some x ∧
    ∀ path k x' t, Defaulted x path k x' → parse t = some (removeAt k path (toJson x)) →
      (parse t).bind fromJson = some x'

lemma readsBack_of_fromJson {α : Type} {parse : String → Option Json} {dump : Json → String}
    {toJson : α → Json} {fromJson : Json → Option α}
    {Defaulted : α → List Step → String → α → Prop} {x : α}
    (hparse : parse (dump (toJson x)) = some (toJson x)) (hread : fromJson (toJson x) = some x)
    (hremoved : ∀ path k x', Defaulted x path k x' →
      fromJson (removeAt k path (toJson x)) = some x') :
    ReadsBack parse dump toJson fromJson Defaulted x := by
  refine ⟨by rw [hparse, Option.bind_some, hread], fun path k x' t hd ht => ?_⟩
  rw [ht, Option.bind_some, hremoved path k x' hd]

/-- **Documents round-trip**, where the JSON library prints and parses them faithfully. -/
theorem documents_read_back (parse : String → Option Json) (dump : Json → String)
    (printed : Json → Prop) (hparse : ∀ j, printed j → parse (dump j) = some j) :
    (∀ p : LivePointer, p.Valid → printed p.toJson →
      ReadsBack parse dump LivePointer.toJson LivePointer.fromJson LivePointer.Defaulted p) ∧
    (∀ e : EventInfo, e.Valid → printed e.toJson →
      ReadsBack parse dump EventInfo.toJson EventInfo.fromJson EventInfo.Defaulted e) ∧
    (∀ e : RoomEventEntry, e.Valid → printed e.toJson →
      ReadsBack parse dump RoomEventEntry.toJson RoomEventEntry.fromJson RoomEventEntry.Defaulted
        e) ∧
    (∀ m : Manifest, m.Valid → printed m.toJson →
      ReadsBack parse dump Manifest.toJson Manifest.fromJson Manifest.Defaulted m) ∧
    ∀ l : MarkerList, l.Valid → printed l.toJson →
      ReadsBack parse dump MarkerList.toJson MarkerList.fromJson MarkerList.Defaulted l := by
  refine ⟨fun p hp hj => ?_, fun e he hj => ?_, fun e he hj => ?_, fun m hm hj => ?_,
    fun l hl hj => ?_⟩
  · exact readsBack_of_fromJson (hparse _ hj) (LivePointer.fromJson_toJson hp)
      fun _ _ _ => LivePointer.fromJson_removeAt hp
  · exact readsBack_of_fromJson (hparse _ hj) (EventInfo.fromJson_toJson he)
      fun _ _ _ => EventInfo.fromJson_removeAt he
  · exact readsBack_of_fromJson (hparse _ hj) (RoomEventEntry.fromJson_toJson he)
      fun _ _ _ => RoomEventEntry.fromJson_removeAt he
  · exact readsBack_of_fromJson (hparse _ hj) (Manifest.fromJson_toJson hm)
      fun _ _ _ => Manifest.fromJson_removeAt hm
  · exact readsBack_of_fromJson (hparse _ hj) (MarkerList.fromJson_toJson hl)
      fun _ _ _ => MarkerList.fromJson_removeAt hl

/-- The entry of a room's event, as it is printed. -/
def entryText : String := "\x7b\"event_id\":\"E\",\"name\":\"Sunday\",\"protocol_version\":1," ++
  "\"room_id\":\"R\",\"started_at_ms\":5\x7d"

theorem documents_read_back_entry :
    ReadsBack (fun t => if t = entryText then
        some (RoomEventEntry.toJson
          { eventId := "E", roomId := "R", name := "Sunday", startedAtMs := 5 }) else none)
      (fun _ => entryText) RoomEventEntry.toJson RoomEventEntry.fromJson RoomEventEntry.Defaulted
      { eventId := "E", roomId := "R", name := "Sunday", startedAtMs := 5 } := by
  refine (documents_read_back _ _ (fun j => j = RoomEventEntry.toJson
    { eventId := "E", roomId := "R", name := "Sunday", startedAtMs := 5 }) ?_).2.2.1 _ ?_ rfl
  · rintro j rfl
    rfl
  · exact ⟨⟨by decide, by decide, by decide⟩, by decide, by decide⟩

end Multisite

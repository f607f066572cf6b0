import Multisite.Core.Json
import Multisite.Core.Model

/-!
The documents as JSON (`model.cpp`): what each `to_json` prints and what each `from_json` makes of
the value it parses.

The members of an object stand in the order of their keys, as the JSON library keeps and prints
them.
-/

namespace Multisite

open Json

/-- `MarkerList`. -/
structure MarkerList where
  protocolVersion : ℤ := kProtocolVersion
  markers : List Marker := []
  deriving DecidableEq, Repr

/-- `read_protocol_version`. -/
def readProtocolVersion (j : Json) : ℤ :=
  match j.get? "protocol_version" with
  | some (.int n) => if 0 < n.bmod (2 ^ 32) then n.bmod (2 ^ 32) else 1
  | _ => 1

/-- The text of a status. -/
def Status.text : Status → String
  | .live => "live"
  | .ended => "ended"
  | .other s => s

/-- The status of that text. -/
def Status.ofText (s : String) : Status :=
  if s = "live" then .live else if s = "ended" then .ended else .other s

/-! ### The tile layout -/

namespace TileLayout

/-- `is_split`. -/
def isSplit (t : TileLayout) : Bool := decide (1 < t.cols * t.rows)

/-- `to_string`. -/
def text (t : TileLayout) : String := toString t.cols ++ "x" ++ toString t.rows

/-- `digits_only`. -/
def digitsOnly (v : List Char) : Bool := v ≠ [] && decide (v.length ≤ 2) && v.all (·.isDigit)

/-- `std::stoi`, of a text that is digits only. -/
def stoi (v : List Char) : ℤ := v.foldl (fun n c => 10 * n + (c.toNat - 48 : ℕ)) 0

/-- `TileLayout::parse`: one tile unless the text says otherwise. -/
def parse (s : String) : TileLayout :=
  let a := s.toList.takeWhile (· ≠ 'x')
  let b := (s.toList.dropWhile (· ≠ 'x')).drop 1
  if 'x' ∉ s.toList ∨ a = [] ∨ b = [] then {}
  else if !digitsOnly a || !digitsOnly b then {}
  else if stoi a < 1 ∨ stoi b < 1 ∨ 4 < stoi a ∨ 4 < stoi b then {}
  else { cols := stoi a, rows := stoi b }

end TileLayout

/-! ### Parts of the documents -/

namespace VideoInfo

/-- `video_to_json`. -/
def toJson (v : VideoInfo) : Json :=
  .obj ([("codec", .str v.codec), ("fps", .float v.fps), ("height", .int v.height)] ++
    (if v.layout.isSplit then [("layout", .str v.layout.text)] else []) ++
    [("width", .int v.width)])

/-- `video_from_json`. -/
def fromJson (j : Json) : Option VideoInfo := do
  let codec ← j.value getStr "codec" "h264"
  let width ← j.value getInt "width" 0
  let height ← j.value getInt "height" 0
  let fps ← j.value getDouble "fps" 0
  let layout ← j.value getStr "layout" "1x1"
  return { codec, width, height, fps, layout := TileLayout.parse layout }

end VideoInfo

namespace AudioTrack

/-- A track of `tracks_to_json`. -/
def toJson (t : AudioTrack) : Json :=
  .obj ((if t.channelLabels ≠ [] then [("channel_labels", .arr (t.channelLabels.map .str))]
      else []) ++
    [("channels", .int t.channels), ("codec", .str t.codec), ("idx", .int t.idx),
      ("label", .str t.label), ("sample_rate", .int t.sampleRate)])

/-- The channel labels of a track: none unless there is a list of them. -/
def labelsFromJson (j : Json) : Option (List String) :=
  match j.get? "channel_labels" with
  | some (.arr l) => l.mapM getStr
  | _ => some []

/-- A track of `tracks_from_json`. -/
def fromJson (j : Json) : Option AudioTrack := do
  let idx ← j.value getInt "idx" 0
  let label ← j.value getStr "label" ""
  let codec ← j.value getStr "codec" "aac"
  let channels ← j.value getInt "channels" 2
  let sampleRate ← j.value getInt "sample_rate" 48000
  let channelLabels ← labelsFromJson j
  return { idx, label, codec, channels, sampleRate, channelLabels }

end AudioTrack

/-- `tracks_to_json`. -/
def tracksToJson (ts : List AudioTrack) : Json := .arr (ts.map AudioTrack.toJson)

/-- `tracks_from_json`. -/
def tracksFromJson (j : Json) : Option (List AudioTrack) :=
  match j with
  | .arr l => l.mapM AudioTrack.fromJson
  | _ => some []

/-- A member that is read when it is there, and left at what it was when it is not. -/
def member {β : Type} (read : Json → Option β) (j : Json) (k : String) (fallback : β) : Option β :=
  match j.get? k with
  | some v => read v
  | none => some fallback

/-- A member that is read when it is a list. -/
def listed {β : Type} (read : List Json → Option (List β)) (j : Json) (k : String) :
    Option (List β) :=
  match j.get? k with
  | some (.arr l) => read l
  | _ => some []

/-! ### The documents -/

namespace LivePointer

/-- `LivePointer::to_json`. -/
def toJson (p : LivePointer) : Json :=
  .obj [("event_id", .str p.eventId), ("protocol_version", .int p.protocolVersion),
    ("room_id", .str p.roomId), ("status", .str p.status.text),
    ("updated_at_ms", .int p.updatedAtMs)]

/-- `LivePointer::from_json`. -/
def fromJson (j : Json) : Option LivePointer := do
  let roomId ← j.value getStr "room_id" ""
  let eventId ← j.value getStr "event_id" ""
  let status ← j.value getStr "status" "live"
  let updatedAtMs ← j.value getInt64 "updated_at_ms" 0
  return { protocolVersion := readProtocolVersion j, roomId, eventId,
           status := Status.ofText status, updatedAtMs }

end LivePointer

namespace EventInfo

/-- `EventInfo::to_json`. -/
def toJson (e : EventInfo) : Json :=
  .obj [("audio_tracks", tracksToJson e.audioTracks), ("event_id", .str e.eventId),
    ("first_seq", .int e.firstSeq), ("init", .str e.init), ("name", .str e.name),
    ("protocol_version", .int e.protocolVersion), ("room_id", .str e.roomId),
    ("segment_duration_s", .float e.segmentDurationS), ("started_at_ms", .int e.startedAtMs),
    ("video", e.video.toJson)]

/-- `EventInfo::from_json`. -/
def fromJson (j : Json) : Option EventInfo := do
  let eventId ← j.value getStr "event_id" ""
  let roomId ← j.value getStr "room_id" ""
  let name ← j.value getStr "name" ""
  let startedAtMs ← j.value getInt64 "started_at_ms" 0
  let firstSeq ← j.value getUInt64 "first_seq" 0
  let segmentDurationS ← j.value getDouble "segment_duration_s" 6
  let init ← j.value getStr "init" "init.mp4"
  let video ← member VideoInfo.fromJson j "video" {}
  let audioTracks ← member tracksFromJson j "audio_tracks" []
  return { protocolVersion := readProtocolVersion j, eventId, roomId, name, startedAtMs, firstSeq,
           segmentDurationS, init, video, audioTracks }

end EventInfo

namespace RoomEventEntry

/-- `RoomEventEntry::to_json`. -/
def toJson (e : RoomEventEntry) : Json :=
  .obj [("event_id", .str e.eventId), ("name", .str e.name),
    ("protocol_version", .int e.protocolVersion), ("room_id", .str e.roomId),
    ("started_at_ms", .int e.startedAtMs)]

/-- `RoomEventEntry::from_json`. -/
def fromJson (j : Json) : Option RoomEventEntry := do
  let eventId ← j.value getStr "event_id" ""
  let roomId ← j.value getStr "room_id" ""
  let name ← j.value getStr "name" ""
  let startedAtMs ← j.value getInt64 "started_at_ms" 0
  return { protocolVersion := readProtocolVersion j, eventId, roomId, name, startedAtMs }

end RoomEventEntry

namespace ManifestSegment

/-- A segment of `Manifest::to_json`. -/
def toJson (s : ManifestSegment) : Json :=
  .obj [("at_ms", .int s.atMs), ("checksum", .str s.checksum), ("duration_s", .float s.durationS),
    ("seq", .int s.seq)]

/-- A segment of `Manifest::from_json`. -/
def fromJson (j : Json) : Option ManifestSegment := do
  let seq ← j.value getUInt64 "seq" 0
  let durationS ← j.value getDouble "duration_s" 6
  let checksum ← j.value getStr "checksum" ""
  let atMs ← j.value getInt64 "at_ms" 0
  return { seq, durationS, checksum, atMs }

end ManifestSegment

namespace Manifest

/-- A range of `Manifest::to_json`. -/
def gapToJson (g : ℕ × ℕ) : Json := .arr [.int g.1, .int g.2]

/-- `is_number_unsigned`, and then `get<uint64_t>`. -/
def unsigned? : Json → Option ℕ
  | .int n => if 0 ≤ n then some (n % 2 ^ 64).toNat else none
  | _ => none

/-- A range of `Manifest::from_json`; one that is no range is passed over. -/
def gapFromJson : Json → Option (ℕ × ℕ)
  | .arr [a, b] =>
      match unsigned? a, unsigned? b with
      | some x, some y => if x ≤ y then some (x, y) else none
      | _, _ => none
  | _ => none

/-- `Manifest::to_json`. -/
def toJson (m : Manifest) : Json :=
  .obj [("audio_tracks", tracksToJson m.audioTracks), ("event_id", .str m.eventId),
    ("first_available_seq", .int m.firstAvailableSeq), ("gaps", .arr (m.gaps.map gapToJson)),
    ("init", .str m.init), ("latest_seq", .int m.latestSeq), ("name", .str m.name),
    ("protocol_version", .int m.protocolVersion),
    ("segments", .arr (m.segments.map ManifestSegment.toJson)),
    ("started_at_ms", .int m.startedAtMs), ("status", .str m.status.text),
    ("updated_at_ms", .int m.updatedAtMs), ("video", m.video.toJson),
    ("window_start_seq", .int m.windowStartSeq)]

/-- `Manifest::from_json`. -/
def fromJson (j : Json) : Option Manifest := do
  let eventId ← j.value getStr "event_id" ""
  let status ← j.value getStr "status" "live"
  let name ← j.value getStr "name" ""
  let updatedAtMs ← j.value getInt64 "updated_at_ms" 0
  let startedAtMs ← j.value getInt64 "started_at_ms" 0
  let firstAvailableSeq ← j.value getUInt64 "first_available_seq" 0
  let windowStartSeq ← j.value getUInt64 "window_start_seq" 0
  let latestSeq ← j.value getUInt64 "latest_seq" 0
  let init ← j.value getStr "init" "init.mp4"
  let video ← member VideoInfo.fromJson j "video" {}
  let audioTracks ← member tracksFromJson j "audio_tracks" []
  let segments ← listed (·.mapM ManifestSegment.fromJson) j "segments"
  let gaps ← listed (fun l => some (l.filterMap gapFromJson)) j "gaps"
  return { protocolVersion := readProtocolVersion j, eventId, status := Status.ofText status, name,
           updatedAtMs, startedAtMs, firstAvailableSeq, windowStartSeq, latestSeq, init, video,
           audioTracks, segments, gaps }

end Manifest

namespace Marker

/-- A cue of `MarkerList::to_json`. -/
def toJson (m : Marker) : Json :=
  .obj [("at_media_ms", .int m.atMediaMs), ("at_ms", .int m.atMs), ("author", .str m.author),
    ("id", .str m.id), ("label", .str m.label), ("seq", .int m.seq), ("type", .str m.type)]

/-- A cue of `MarkerList::from_json`. -/
def fromJson (j : Json) : Option Marker := do
  let seq ← j.value getUInt64 "seq" 0
  let atMs ← j.value getInt64 "at_ms" 0
  let atMediaMs ← j.value getInt64 "at_media_ms" (-1)
  let type ← j.value getStr "type" "cue"
  let label ← j.value getStr "label" ""
  let id ← j.value getStr "id" ""
  let author ← j.value getStr "author" ""
  return { seq, atMs, atMediaMs, type, label, id, author }

end Marker

namespace MarkerList

/-- `MarkerList::to_json`. -/
def toJson (l : MarkerList) : Json :=
  .obj [("markers", .arr (l.markers.map Marker.toJson)),
    ("protocol_version", .int l.protocolVersion)]

/-- `MarkerList::from_json`. -/
def fromJson (j : Json) : Option MarkerList := do
  let markers ← listed (·.mapM Marker.fromJson) j "markers"
  return { protocolVersion := readProtocolVersion j, markers }

end MarkerList

end Multisite

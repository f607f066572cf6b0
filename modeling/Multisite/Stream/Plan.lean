import Multisite.Stream.Destination

/-!
`plan_stream` (`stream_plan.h`, `stream_plan.cpp`): what ffmpeg is started with to send an
event on to a destination, or why it cannot be sent; with `output_url`, `redact` and
`sendability` of the same file.

The refusals are in the order the source makes them.
-/

namespace Multisite

/-- `StreamPlan`. -/
structure StreamPlan where
  ok : Bool := false
  problem : String := ""
  remedy : String := ""
  args : List String := []
  summary : String := ""
  audioLabel : String := ""
  audioIndex : ℤ := -1
  deriving DecidableEq, Repr

/-- `kDefaultSrtLatencyMs`. -/
def kDefaultSrtLatencyMs : ℤ := 2000

/-- `kUsPerMs`. -/
def kUsPerMs : ℤ := 1000

/-- `channels_word`. -/
def channelsWord (ch : ℤ) : String :=
  if ch = 1 then "mono" else if ch = 2 then "stereo" else toString ch ++ " channels"

/-- `join_labels`, from the `i`-th of `n` tracks on. -/
def joinLabelsFrom (n : ℕ) : ℕ → List AudioTrack → String
  | _, [] => ""
  | i, t :: rest =>
      (if i = 0 then "" else if i + 1 = n then " or " else ", ") ++
        ("\"" ++ t.label ++ "\"") ++ joinLabelsFrom n (i + 1) rest

/-- `join_labels`. -/
def joinLabels (tracks : List AudioTrack) : String := joinLabelsFrom tracks.length 0 tracks

/-- `is_packed`. -/
def isPacked (t : AudioTrack) : Bool := !t.channelLabels.isEmpty || decide (2 < t.channels)

/-! ### The output address -/

/-- The address with its last character dropped when that is a `/`. -/
def dropSlash (u : String) : String :=
  if u.toList.getLast? = some '/' then String.ofList u.toList.dropLast else u

/-- The lambda `add` of `output_url` over the parameters it is called with: the first is
joined by `?` unless the address has a query already. -/
def addParams (u : String) : List (String × String) → String
  | [] => u
  | (k, v) :: rest =>
      addParams (u ++ (if '?' ∈ u.toList then "&" else "?") ++ (k ++ "=" ++ v)) rest

/-- The parameters `output_url` adds to an SRT address. -/
def srtParams (d : Destination) : List (String × String) :=
  (if d.srtMode = .listener then [("mode", "listener"), ("listen_timeout", "-1")]
    else if d.streamKey ≠ "" then [("streamid", d.streamKey)] else []) ++
  (if d.srtPassphrase ≠ "" then [("passphrase", d.srtPassphrase)] else []) ++
  [("latency", toString
    ((if 0 < d.srtLatencyMs then d.srtLatencyMs else kDefaultSrtLatencyMs) * kUsPerMs))]

/-- `output_url`. -/
def outputUrl (d : Destination) : String :=
  if protocolOf d = .rtmp then
    if d.streamKey = "" then d.url else dropSlash d.url ++ "/" ++ d.streamKey
  else addParams d.url (srtParams d)

/-! ### The plan -/

/-- A plan that refuses. -/
def refuse (problem remedy : String) : StreamPlan := { problem, remedy }

/-- The lambda `packed_refusal`. -/
def packedRefusal (t : AudioTrack) : StreamPlan :=
  refuse
    ("The main site is sending its sound as one " ++ channelsWord t.channels ++
      " track with the mix, the microphones and the click all inside it.")
    "Picking one pair out of that is not built yet. Set the main site to send a separate programme track as well."

/-- The codec gate. -/
def videoOk (vc : String) (proto : Protocol) : Bool :=
  vc = "h264" || vc = "hevc" || (vc = "av1" && proto = .rtmp)

/-- The video part of `plan_stream`: why it refuses, if it does. -/
def videoRefusal (manifest : Manifest) (dest : Destination) : Option StreamPlan :=
  let vc := lower manifest.video.codec
  if vc = "" then
    some (refuse
      "The main site has not said what kind of video this is, so it cannot be sent on safely."
      "Check that the broadcast is running a current version of the encoder.")
  else if !videoOk vc (protocolOf dest) then
    some (refuse
      ("This event is being recorded as " ++ vc ++ " video, and " ++
        (if protocolOf dest = .srt then "this kind of connection cannot carry it."
          else "there is no way to send it on from here."))
      "Set the main site's encoder to H.264 or HEVC for events you want to stream publicly: both go out unchanged, to a streaming site or over SRT. For this codec there is nothing here that can carry it — SRT included — and re-encoding on the way out is not built.")
  else if dest.allowTranscode then
    some (refuse "This destination is set to re-encode the video."
      "Re-encoding is not built yet. Turn it off to send the event as-is.")
  else none

/-- What the sound part of `plan_stream` settles: `chosen_idx`, `index` and `label`. -/
structure SoundChoice where
  chosenIdx : List ℕ
  index : ℕ
  label : String
  deriving DecidableEq, Repr

/-- The loop over the tracks when no label is asked for, from the `i`-th on. -/
def firstSendable : ℕ → List AudioTrack → Option SoundChoice
  | _, [] => none
  | i, t :: rest => if isPacked t then firstSendable (i + 1) rest else some ⟨[i], i, t.label⟩

/-- The loop over the tracks when a label is asked for, from the `i`-th on: a packed track
that bears it is a refusal. -/
def byLabel (label : String) : ℕ → List AudioTrack → Except StreamPlan (Option SoundChoice)
  | _, [] => .ok none
  | i, t :: rest =>
      if t.label ≠ label then byLabel label (i + 1) rest
      else if isPacked t then .error (packedRefusal t)
      else .ok (some ⟨[i], i, t.label⟩)

/-- The indices of the tracks that are not packed, from the `i`-th on. -/
def allSendable : ℕ → List AudioTrack → List ℕ
  | _, [] => []
  | i, t :: rest => if isPacked t then allSendable (i + 1) rest else i :: allSendable (i + 1) rest

/-- `tracks[i]`. -/
def trackAt (tracks : List AudioTrack) (i : ℕ) : AudioTrack := tracks.getD i {}

/-- The sound part of `plan_stream`, up to what is settled. -/
def chooseSound (tracks : List AudioTrack) (dest : Destination) :
    Except StreamPlan SoundChoice :=
  if tracks = [] then
    .error (refuse "This event has no sound in it."
      "Check that the main site has at least one audio track switched on.")
  else
    let sendable := tracks.filter fun t => !isPacked t
    if sendable = [] then .error (packedRefusal (trackAt tracks 0))
    else if dest.audio.all && protocolOf dest ≠ .srt then
      .error (refuse "This destination is set to send every sound feed, and RTMP carries only one."
        "Send it over SRT, or choose one sound feed.")
    else if dest.audio.all then
      let chosenIdx := allSendable 0 tracks
      let index := chosenIdx.headD 0
      .ok ⟨chosenIdx, index, (trackAt tracks index).label⟩
    else if dest.audio.label = "" then
      -- there is one, as `sendable` is not empty
      match firstSendable 0 tracks with
      | some c => .ok c
      | none => .ok ⟨[0], 0, ""⟩
    else
      match byLabel dest.audio.label 0 tracks with
      | .error p => .error p
      | .ok (some c) => .ok c
      | .ok none =>
          .error (refuse
            ("This event does not have a sound feed called \"" ++ dest.audio.label ++ "\".")
            ("It is sending " ++ joinLabels sendable ++ ". Choose one of those instead."))

/-- The check of the tracks chosen: the first refusal, if any. -/
def checkTracks (tracks : List AudioTrack) : List ℕ → Option StreamPlan
  | [] => none
  | i :: rest =>
      let t := trackAt tracks i
      if t.idx ≠ i then
        some (refuse
          "The main site's description of its sound feeds does not line up with the recording itself."
          "Sending it could put the wrong microphone on air, so it has been stopped. Please report this.")
      else if lower t.codec ≠ "aac" then
        some (refuse
          ("The sound feed \"" ++ t.label ++ "\" is " ++ lower t.codec ++
            ", and streaming sites need AAC.")
          "Set the main site's encoder to AAC audio.")
      else checkTracks tracks rest

/-- The `-metadata` options, one for each track chosen whose language is known, from the
`k`-th on. -/
def languageArgs (tracks : List AudioTrack) : ℕ → List ℕ → List String
  | _, [] => []
  | k, i :: rest =>
      (if (trackAt tracks i).language = "" then []
        else ["-metadata:s:a:" ++ toString k, "language=" ++ (trackAt tracks i).language]) ++
        languageArgs tracks (k + 1) rest

/-- The invocation. -/
def streamArgs (tracks : List AudioTrack) (dest : Destination) (chosenIdx : List ℕ)
    (input : String) : List String :=
  ["ffmpeg", "-hide_banner", "-i", input, "-map", "0:v:0"] ++
    chosenIdx.flatMap (fun i => ["-map", "0:a:" ++ toString i]) ++
    languageArgs tracks 0 chosenIdx ++
    ["-c", "copy"] ++
    (if protocolOf dest = .srt then ["-mpegts_flags", "+resend_headers", "-f", "mpegts"]
      else ["-flvflags", "no_duration_filesize", "-f", "flv"]) ++
    [outputUrl dest]

/-- The labels of the tracks chosen, for the status line. -/
def quotedLabels (tracks : List AudioTrack) (chosenIdx : List ℕ) : String :=
  chosenIdx.foldl
    (fun names i =>
      names ++ (if names = "" then "\"" else ", \"") ++ (trackAt tracks i).label ++ "\"") ""

/-- The status line. -/
def streamSummary (manifest : Manifest) (dest : Destination) (c : SoundChoice) : String :=
  let vc := lower manifest.video.codec
  let res :=
    if 0 < manifest.video.width ∧ 0 < manifest.video.height then
      toString manifest.video.width ++ "x" ++ toString manifest.video.height ++ " "
    else ""
  let codecWord := if vc = "hevc" then "HEVC" else if vc = "av1" then "AV1" else "H.264"
  let tracks := manifest.audioTracks
  (if 1 < c.chosenIdx.length then
      "sending " ++ res ++ codecWord ++ " video with " ++ toString c.chosenIdx.length ++
        " sound feeds (" ++ quotedLabels tracks c.chosenIdx ++ ")"
    else
      "sending " ++ res ++ codecWord ++ " video with the \"" ++ c.label ++ "\" sound feed (" ++
        channelsWord (trackAt tracks c.index).channels ++ ")") ++
  (if protocolOf dest = .srt then
      if dest.srtMode = .listener then ", over SRT, waiting for the far end to connect"
      else ", over SRT"
    else "")

/-- `plan_stream`. -/
def planStream (manifest : Manifest) (dest : Destination) (input : String) : StreamPlan :=
  match videoRefusal manifest dest with
  | some p => p
  | none =>
      match chooseSound manifest.audioTracks dest with
      | .error p => p
      | .ok c =>
          match checkTracks manifest.audioTracks c.chosenIdx with
          | some p => p
          | none =>
              { ok := true
                args := streamArgs manifest.audioTracks dest c.chosenIdx input
                summary := streamSummary manifest dest c
                audioLabel := c.label
                audioIndex := c.index }

/-! ### Which protocols can carry an event -/

/-- The lambda `probe` of `sendability`. -/
def probe (url : String) : Destination := { name := "probe", url, streamKey := "x" }

end Multisite

import Mathlib.Data.List.DropRight
import Multisite.Core.Json
import Multisite.Lib.Run
import Multisite.Lib.Search
import Multisite.Appliance.Settings

/-!
The network sound of the campus player: the decisions of `appliance/aes67.h`, the calls of
`appliance/aes67.cpp`, the pass of `Player::aes67_reconcile_once` and the two routes of
`appliance/api.cpp` that switch it.

A daemon on the box sends out what is written to its sound card.  It is somebody else's program:
a request to it may be answered or not, what it lists may have been edited from its own page, and a
`PUT` that it takes leaves the source it was sent.  The two routes and the pass take one lock.

* `Aes67Source`, `aes67SourceBody`: a source of the daemon, read and sent;
* `aes67CardDevice`, `aes67PickAlsaDevice`: the card, found and named;
* `NetworkBox`, `NetworkBox.step`: the box, and what can happen to it.
-/

namespace Multisite

open Lib

/-! ### The shapes -/

/-- `Aes67Source`. -/
structure Aes67Source where
  id : ℤ
  enabled : Bool
  name : String
  address : String
  codec : String
  /-- The length of the channel map. -/
  channels : ℕ
  io : String
  payloadType : ℤ
  deriving DecidableEq

/-- `kAes67SourceId`. -/
def kAes67SourceId : ℤ := 0

/-- `kAes67Codec`. -/
def kAes67Codec : String := "L24"

/-- `kAes67PayloadType`. -/
def kAes67PayloadType : ℤ := 98

/-- `Aes67Source::matches_shape`. -/
def Aes67Source.matchesShape (s : Aes67Source) (wantChannels : ℤ) (wantAddress : String) : Bool :=
  s.id = kAes67SourceId && s.channels = wantChannels && s.codec = kAes67Codec &&
    s.payloadType = kAes67PayloadType && (wantAddress = "" || s.address = wantAddress)

/-- `aes67_channels_to_map`. -/
def aes67ChannelsToMap (wantChannels : ℤ) : ℤ :=
  let want := if wantChannels > 0 then wantChannels else 8
  let want := if want > 64 then 64 else want
  if want < 1 then 1 else want

/-- `aes67_source_body`. -/
def aes67SourceBody (id channels : ℤ) (address name : String) (enabled : Bool) : Json :=
  .obj [("id", .int id), ("enabled", .bool enabled), ("name", .str name),
    ("io", .str "Audio Device"), ("max_samples_per_packet", .int 48), ("codec", .str kAes67Codec),
    ("address", .str address), ("ttl", .int 15), ("payload_type", .int kAes67PayloadType),
    ("dscp", .int 34), ("refclk_ptp_traceable", .bool false),
    ("map", .arr ((List.range channels.toNat).map fun c => .int c))]

namespace Aes67Source

/-- `aes67_detail::str`. -/
def str (j : Json) (k : String) : String := ((j.get? k).bind Json.getStr).getD ""

/-- `aes67_detail::num`. -/
def num (j : Json) (k : String) (fallback : ℤ) : ℤ :=
  match j.get? k with
  | some v => if v.number?.isSome then v.getInt.getD fallback else fallback
  | none => fallback

/-- `aes67_detail::flag`. -/
def flag (j : Json) (k : String) (fallback : Bool) : Bool :=
  match j.get? k with
  | some (.bool b) => b
  | _ => fallback

/-- One source of a list, as `aes67_parse_sources` reads it. -/
def read (j : Json) : Aes67Source :=
  { id := num j "id" (-1), enabled := flag j "enabled" false, name := str j "name",
    address := str j "address", codec := str j "codec",
    channels := (((j.get? "map").bind Json.array?).map List.length).getD 0,
    io := str j "io", payloadType := num j "payload_type" 0 }

/-- The source that a body describes. -/
def made (id channels : ℤ) (address name : String) (enabled : Bool) : Aes67Source :=
  { id := id, enabled := enabled, name := name, address := address, codec := kAes67Codec,
    channels := channels.toNat, io := "Audio Device", payloadType := kAes67PayloadType }

/-- What is sent is read back. -/
lemma read_sourceBody (channels : ℤ) (address name : String) (enabled : Bool) :
    read (aes67SourceBody kAes67SourceId channels address name enabled) =
      made kAes67SourceId channels address name enabled := by
  simp [read, made, aes67SourceBody, num, flag, str, Json.get?, Json.find, Json.getStr,
    Json.getInt, Json.number?, Json.array?, Json.truncate, Int.bmod, kAes67SourceId,
    kAes67PayloadType]

end Aes67Source

@[simp] lemma aes67ChannelsToMap_idem (c : ℤ) :
    aes67ChannelsToMap (aes67ChannelsToMap c) = aes67ChannelsToMap c := by
  simp only [aes67ChannelsToMap]
  split_ifs <;> omega

/-! ### The card -/

/-- The lines of `/proc/asound/cards`. -/
def cardLines (text : String) : List (List Char) := text.toList.splitOn '\n'

/-- A space or a tab. -/
def cardPad (c : Char) : Bool := c = ' ' || c = '\t'

/-- `aes67_bracket_id`. -/
def aes67BracketId (line : List Char) : List Char :=
  match line.dropWhile (· ≠ '[') with
  | [] => []
  | _ :: rest =>
      if ']' ∈ rest then (((rest.takeWhile (· ≠ ']')).dropWhile cardPad).rdropWhile cardPad)
      else []

/-- `aes67_card_ids`. -/
def aes67CardIds (text : String) : List (List Char) :=
  ((cardLines text).map aes67BracketId).filter (· ≠ [])

/-- `aes67_card_present`. -/
def aes67CardPresent (text name : String) : Bool :=
  name ≠ "" && (aes67CardIds text).any (· = name.toList)

/-- A line that names the card: by its id, or anywhere else. -/
def namesCard (name : String) (line : List Char) : Bool :=
  aes67BracketId line ≠ [] &&
    (aes67BracketId line = name.toList || (firstIn name.toList line).isSome)

/-- `aes67_card_id_from_cards`. -/
def aes67CardIdFromCards (text name : String) : List Char :=
  if name = "" then [] else (((cardLines text).find? (namesCard name)).map aes67BracketId).getD []

/-- `aes67_card_device`. -/
def aes67CardDevice (text name : String) : String :=
  let id := aes67CardIdFromCards text name
  if id = [] then "" else "plughw:CARD=" ++ String.ofList id

/-- `aes67_find_device`, `none` for `-1`. -/
def aes67FindDevice (ids : List String) (card : String) : Option ℕ :=
  ids.findIdx? fun id => aes67DeviceIsCard id card

/-- `aes67_pick_alsa_device`, without the sign whether the device was found. -/
def aes67PickAlsaDevice (configured card : String) (alsaIds : List String) : String :=
  if card = "" then configured
  else
    match aes67FindDevice alsaIds card with
    | some idx => alsaIds.getD idx ""
    | none => "hw:CARD=" ++ card ++ ",DEV=0"

/-! ### The box -/

/-- The settings of `Config` that the network sound goes by, and the lock of the controls. -/
structure Aes67Config where
  manage : Bool := false
  address : String := ""
  channels : ℤ := 8
  alsaDevice : String := "default"
  previousDevice : String := ""
  locked : Bool := false
  deriving DecidableEq

/-- The daemon: whether it is installed, runs and is set to start at boot, and its sources. -/
structure Aes67Daemon where
  installed : Bool
  active : Bool
  atBoot : Bool
  sources : List Aes67Source
  deriving DecidableEq

/-- The box: the settings in force, the daemon, `/proc/asound/cards`, the box's own group and its
name. -/
structure NetworkBox where
  cfg : Aes67Config
  daemon : Aes67Daemon
  cards : String
  boxAddress : String
  hostname : String

/-- What becomes of a `PUT`: it is taken, it is refused, or it is taken and the answer does not
arrive in time. -/
inductive PutAnswer where
  | taken
  | refused
  | lost
  deriving DecidableEq

/-- What the daemon and `systemctl` answer. -/
structure Aes67Answers where
  /-- `GET /ptp/status`, if it is answered with 200; a body that does not parse is an empty
  object. -/
  ptp : Option Json
  /-- `GET /sources` is answered with 200 and a list that can be read. -/
  listed : Bool
  /-- And a second time, where a source is switched. -/
  listedAgain : Bool
  start : Bool
  stop : Bool
  enable : Bool
  disable : Bool
  put : PutAnswer

/-- The clock of `aes67_probe`: the word `locked`, or the number 0. -/
def ptpLocked (j : Json) : Bool :=
  match j.get? "status" with
  | some (.str w) => w.toList.map Char.toLower = "locked".toList
  | some v => v.number?.isSome && (v.getInt.getD 1 = 0)
  | none => false

/-- `Aes67State`, as far as `aes67_converge_action` and `carrying_audio` read it. -/
structure Aes67State where
  installed : Bool
  serviceActive : Bool
  restReachable : Bool
  ptpKnown : Bool
  ptpLocked : Bool
  sourcePresent : Bool
  sourceEnabled : Bool
  sourceCorrect : Bool
  cardPresent : Bool
  playerOnCard : Bool

/-- `Aes67Action`. -/
inductive Aes67Action where
  | none
  | startService
  | ensureSource
  | repointCard
  | waitForClock
  deriving DecidableEq

/-- `aes67_converge_action`. -/
def aes67ConvergeAction (s : Aes67State) (manage sourceCorrect : Bool) : Aes67Action :=
  if !manage || !s.installed then .none
  else if !s.serviceActive then .startService
  else if !s.restReachable then .none
  else if !s.ptpKnown || !s.ptpLocked then .waitForClock
  else if !s.sourcePresent then .ensureSource
  else if !s.sourceEnabled then .none
  else if !sourceCorrect then .ensureSource
  else if s.cardPresent && !s.playerOnCard then .repointCard
  else .none

namespace Aes67Daemon

/-- The first of the sources that has the player's number. -/
def source? (d : Aes67Daemon) : Option Aes67Source := d.sources.find? (·.id = kAes67SourceId)

/-- A `PUT` of a source: it is added, or takes the place of the one with its number. -/
def put (d : Aes67Daemon) (body : Json) (a : PutAnswer) : Aes67Daemon :=
  let s := Aes67Source.read body
  if a = .refused then d
  else { d with sources := d.sources.filter (·.id ≠ s.id) ++ [s] }

/-- `aes67_ensure_source`. -/
def ensureSource (d : Aes67Daemon) (channels : ℤ) (address name : String) (enabled : Bool)
    (a : Aes67Answers) : Aes67Daemon :=
  d.put (aes67SourceBody kAes67SourceId channels address name enabled) a.put

/-- `aes67_set_source_enabled`: the source is read, and sent back with its switch changed. -/
def setSourceEnabled (d : Aes67Daemon) (enabled : Bool) (a : Aes67Answers) : Aes67Daemon :=
  if !a.listedAgain then d
  else
    match d.source? with
    | some s => d.put (aes67SourceBody s.id s.channels s.address s.name enabled) a.put
    | none => d

/-- `aes67_set_service`, and whether it worked. -/
def setService (d : Aes67Daemon) (start enable : Bool) (a : Aes67Answers) : Aes67Daemon × Bool :=
  if !(if start then a.start else a.stop) then (d, false)
  else
    let d := { d with active := start }
    if !(if enable then a.enable else a.disable) then (d, false)
    else ({ d with atBoot := enable }, true)

end Aes67Daemon

namespace NetworkBox

/-- `aes67_address_or_default`. -/
def address (b : NetworkBox) : String :=
  if b.cfg.address = "" then b.boxAddress else b.cfg.address

/-- The source's name: "Multisite" and the box's. -/
def sourceName (b : NetworkBox) : String := "Multisite " ++ b.hostname

/-- `aes67_probe`. -/
def probe (b : NetworkBox) (wantChannels : ℤ) (wantAddress : String) (a : Aes67Answers) :
    Aes67State :=
  let source := if a.ptp.isSome && a.listed then b.daemon.source? else Option.none
  { installed := b.daemon.installed
    serviceActive := b.daemon.active
    restReachable := a.ptp.isSome
    ptpKnown := a.ptp.isSome
    ptpLocked := a.ptp.any ptpLocked
    sourcePresent := source.isSome
    sourceEnabled := source.any (·.enabled)
    sourceCorrect := source.any (·.matchesShape (aes67ChannelsToMap wantChannels) wantAddress)
    cardPresent := aes67CardPresent b.cards kAes67CardName
    playerOnCard := aes67DeviceIsCard b.cfg.alsaDevice kAes67CardName }

/-- What `Player::aes67_reconcile_once` decides to do. -/
def decided (b : NetworkBox) (a : Aes67Answers) : Aes67Action :=
  let st := b.probe (aes67ChannelsToMap b.cfg.channels) b.address a
  aes67ConvergeAction st b.cfg.manage st.sourceCorrect

/-- What it does of that: the box afterwards, and what the pass says it did. -/
def carryOut (b : NetworkBox) (a : Aes67Answers) : Aes67Action → NetworkBox × Aes67Action
  | .none => (b, .none)
  | .waitForClock => (b, .waitForClock)
  | .startService =>
      let r := b.daemon.setService true true a
      ({ b with daemon := r.1 }, if r.2 then .startService else .none)
  | .ensureSource =>
      -- a source that is missing is made switched on, like one that is there and wrong
      ({ b with daemon :=
          b.daemon.ensureSource (aes67ChannelsToMap b.cfg.channels) b.address b.sourceName true a },
        if a.put = .taken then .ensureSource else .none)
  | .repointCard =>
      let card := aes67CardDevice b.cards kAes67CardName
      if card = "" then (b, .none)
      else if b.cfg.alsaDevice = card then (b, .repointCard)
      else
        let previous := if aes67DeviceIsCard b.cfg.alsaDevice kAes67CardName then
          b.cfg.previousDevice else b.cfg.alsaDevice
        ({ b with cfg := { b.cfg with previousDevice := previous, alsaDevice := card } },
          .repointCard)

/-- `Player::aes67_reconcile_once`. -/
def reconcileOnce (b : NetworkBox) (a : Aes67Answers) : NetworkBox × Aes67Action :=
  b.carryOut a (b.decided a)

/-- One turn of `Player::aes67_loop`. -/
def pass (b : NetworkBox) (a : Aes67Answers) : NetworkBox × Aes67Action :=
  if b.cfg.manage && b.cfg.alsaDevice ≠ "" then b.reconcileOnce a else (b, .none)

/-- A request to `POST /api/aes67/source`; what it leaves out stays as it is. -/
structure SourceRequest where
  enabled : Option Bool := Option.none
  address : String := ""
  channels : Option ℤ := Option.none

/-- The settings `POST /api/aes67/source` makes, given the devices ALSA lists. -/
def switched (b : NetworkBox) (r : SourceRequest) (alsaIds : List String) : Aes67Config :=
  let enabled := r.enabled.getD b.cfg.manage
  let cfg := { b.cfg with
    manage := enabled
    address := if r.address = "" then b.cfg.address else r.address
    channels := r.channels.getD b.cfg.channels }
  let netCard := aes67CardDevice b.cards kAes67CardName
  let want := aes67PickAlsaDevice cfg.alsaDevice netCard alsaIds
  if enabled then
    if netCard ≠ "" ∧ cfg.alsaDevice ≠ want then
      { cfg with previousDevice := cfg.alsaDevice, alsaDevice := want }
    else cfg
  else if aes67DeviceIsCard cfg.alsaDevice kAes67CardName then
    { cfg with
      alsaDevice := if cfg.previousDevice = "" then "default" else cfg.previousDevice
      previousDevice := "" }
  else cfg

/-- `POST /api/aes67/source`, with the file of the settings written or not. -/
def postSource (b : NetworkBox) (r : SourceRequest) (alsaIds : List String) (saved : Bool)
    (a : Aes67Answers) : NetworkBox :=
  if b.cfg.locked || !saved then b
  else
    let b' := { b with cfg := b.switched r alsaIds }
    let width := aes67ChannelsToMap b'.cfg.channels
    if b'.cfg.manage then
      if aes67CardDevice b.cards kAes67CardName = "" then b'
      else
        let s := b'.daemon.setService true true a
        if s.2 then { b' with daemon := s.1.ensureSource width b'.address b'.sourceName true a }
        else { b' with daemon := s.1 }
    else if (b'.probe b'.cfg.channels b'.cfg.address a).sourcePresent then
      { b' with daemon := b'.daemon.setSourceEnabled false a }
    else b'

/-- `POST /api/aes67/service`. -/
def postService (b : NetworkBox) (start enable : Bool) (a : Aes67Answers) : NetworkBox :=
  if b.cfg.locked then b else { b with daemon := (b.daemon.setService start enable a).1 }

end NetworkBox

/-- What can happen to the box. -/
inductive NetworkStep where
  | pass (a : Aes67Answers)
  | source (r : NetworkBox.SourceRequest) (alsaIds : List String) (saved : Bool) (a : Aes67Answers)
  | service (start enable : Bool) (a : Aes67Answers)
  /-- Other settings are saved. -/
  | settings (cfg : Aes67Config)
  /-- The daemon is started, stopped or edited by others. -/
  | daemon (d : Aes67Daemon)
  /-- A card appears or goes. -/
  | cards (text : String)

/-- One step. -/
def NetworkBox.step (b : NetworkBox) : NetworkStep → Option NetworkBox
  | .pass a => some (b.pass a).1
  | .source r alsaIds saved a => some (b.postSource r alsaIds saved a)
  | .service start enable a => some (b.postService start enable a)
  | .settings cfg => some { b with cfg := cfg }
  | .daemon d => some { b with daemon := d }
  | .cards text => some { b with cards := text }

-- their equations are made here, once, and not by the first lemmas that ask for them
section
attribute [local simp] aes67ConvergeAction Aes67Daemon.put Aes67Daemon.setSourceEnabled
  Aes67Daemon.setService NetworkBox.probe NetworkBox.carryOut NetworkBox.pass NetworkBox.switched
  NetworkBox.postSource NetworkBox.postService NetworkBox.step
end

end Multisite

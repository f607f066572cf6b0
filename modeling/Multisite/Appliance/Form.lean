import Multisite.Appliance.Settings
import Multisite.Core.RoundTrip
import Multisite.Service.Config
import Multisite.Stream.Destination

/-!
The player's settings, as they are saved, loaded, shown and edited (`Config::save`, `Config::load`,
`config_json` and `apply_edit` of the appliance, over `storage_providers.cpp`).

The fields pass four lists.  All but a few are written and read under their own name.

* `read_write`: what is written of a field is read;
* `load_save`: settings that were saved are loaded;
* `applyEdit_configJson`: what becomes of a field when the form is sent back as it was shown;
* `edit_keeps_iff`: nothing changes just if the three storage fields are what is derived for the
  provider that is shown.
-/

namespace Multisite

/-! ### Fields -/

/-- `get<bool>`. -/
def Json.getBool : Json → Option Bool
  | .bool b => some b
  | _ => none

/-- A field's name in a document. -/
def ConfigField.key : ConfigField → String
  | storageProvider => "storage_provider"
  | endpointHost => "endpoint_host"
  | r2AccountId => "r2_account_id"
  | bucket => "bucket"
  | accessKeyId => "access_key_id"
  | secretAccessKey => "secret_access_key"
  | region => "region"
  | lanHost => "lan_host"
  | lanPort => "lan_port"
  | lanAuthToken => "lan_auth_token"
  | reporterEnabled => "reporter_enabled"
  | reporterUrl => "reporter_url"
  | reporterApplianceId => "reporter_appliance_id"
  | reporterToken => "reporter_token"
  | reporterDeviceId => "reporter_device_id"
  | reporterKind => "reporter_kind"
  | updateTokenFile => "update_token_file"
  | roomId => "room_id"
  | siteName => "site_name"
  | pinnedEventId => "pinned_event_id"
  | followNextEvent => "follow_next_event"
  | checkUpdates => "check_updates"
  | prebufferSegments => "prebuffer_segments"
  | startBufferSeconds => "start_buffer_seconds"
  | pollIntervalMs => "poll_interval_ms"
  | keepBehindSegments => "keep_behind_segments"
  | bufferMinutes => "buffer_minutes"
  | maxCachedSegments => "max_cached_segments"
  | staleAfterMs => "stale_after_ms"
  | cacheDir => "cache_dir"
  | hardwareDecode => "hardware_decode"
  | drmCard => "drm_card"
  | connector => "connector"
  | outWidth => "out_width"
  | outHeight => "out_height"
  | outFps => "out_fps"
  | tileIndex => "tile_index"
  | outputs => "outputs"
  | idleMode => "idle_mode"
  | idleImagePath => "idle_image_path"
  | identityUntilVideo => "identity_until_video"
  | splashLabel => "splash_label"
  | audioEnabled => "audio_enabled"
  | alsaDevice => "alsa_device"
  | audioChannels => "audio_channels"
  | audioTrack => "audio_track"
  | webPort => "web_port"
  | webBind => "web_bind"
  | autoPlay => "auto_play"
  | delayFromLiveS => "delay_from_live_s"
  | locked => "locked"
  | zerotierNetworkId => "zerotier_network_id"
  | cloudflaredToken => "cloudflared_token"
  | aes67Manage => "aes67_manage"
  | aes67Address => "aes67_address"
  | aes67Channels => "aes67_channels"
  | aes67PreviousDevice => "aes67_previous_device"

/-- `to_string`. -/
def IdleMode.text : IdleMode → String
  | black => "black"
  | holdFrame => "hold"
  | splash => "splash"
  | image => "image"

/-- `idle_mode_from_string`, without the fallback. -/
def IdleMode.ofText? (s : String) : Option IdleMode :=
  if s = "black" then some .black
  else if s = "hold" then some .holdFrame
  else if s = "splash" then some .splash
  else if s = "image" then some .image
  else none

/-- One of the screens, as it is written. -/
def OutputSpec.toJson (o : OutputSpec) : Json :=
  .obj [("connector", .str o.connector), ("tile", .int o.tile)]

/-- One of the screens, as it is read, if it names a connector. -/
def OutputSpec.ofJson? (j : Json) : Option OutputSpec :=
  if !j.isObject then none
  else
    let spec : OutputSpec :=
      { connector := ((j.get? "connector").bind Json.getStr).getD ""
        tile :=
          match j.get? "tile" with
          | some (.int n) => n.bmod (2 ^ 32)
          | _ => -1 }
    if spec.connector = "" then none else some spec

namespace ConfigField

/-- What is written of a field. -/
def write : (f : ConfigField) → f.Value → Json
  | lanPort | prebufferSegments | startBufferSeconds | pollIntervalMs | keepBehindSegments
  | bufferMinutes | maxCachedSegments | staleAfterMs | outWidth | outHeight | outFps | tileIndex
  | audioChannels | audioTrack | webPort | aes67Channels => .int
  | reporterEnabled | followNextEvent | checkUpdates | hardwareDecode | identityUntilVideo
  | audioEnabled | autoPlay | locked | aes67Manage => .bool
  | delayFromLiveS => .float
  | outputs => fun l => .arr (l.map OutputSpec.toJson)
  | idleMode => fun m => .str m.text
  | storageProvider | endpointHost | r2AccountId | bucket | accessKeyId | secretAccessKey | region
  | lanHost | lanAuthToken | reporterUrl | reporterApplianceId | reporterToken | reporterDeviceId
  | reporterKind | updateTokenFile | roomId | siteName | pinnedEventId | cacheDir | drmCard
  | connector | idleImagePath | splashLabel | alsaDevice | webBind | zerotierNetworkId
  | cloudflaredToken | aes67Address | aes67PreviousDevice => .str

/-- What is read of it, `none` where the field stays as it is. -/
def read : (f : ConfigField) → Json → Option f.Value
  | lanPort | prebufferSegments | startBufferSeconds | pollIntervalMs | keepBehindSegments
  | bufferMinutes | maxCachedSegments | staleAfterMs | outWidth | outHeight | outFps | tileIndex
  | audioChannels | audioTrack | webPort | aes67Channels => Json.getInt
  | reporterEnabled | followNextEvent | checkUpdates | hardwareDecode | identityUntilVideo
  | audioEnabled | autoPlay | locked | aes67Manage => Json.getBool
  | delayFromLiveS => Json.getDouble
  | outputs => fun j => j.array?.map fun l => l.filterMap OutputSpec.ofJson?
  | idleMode => fun j => j.getStr.bind IdleMode.ofText?
  | storageProvider | endpointHost | r2AccountId | bucket | accessKeyId | secretAccessKey | region
  | lanHost | lanAuthToken | reporterUrl | reporterApplianceId | reporterToken | reporterDeviceId
  | reporterKind | updateTokenFile | roomId | siteName | pinnedEventId | cacheDir | drmCard
  | connector | idleImagePath | splashLabel | alsaDevice | webBind | zerotierNetworkId
  | cloudflaredToken | aes67Address | aes67PreviousDevice => Json.getStr

/-- An `int` is one of 32 bits, and every screen has a connector. -/
def Storable : (f : ConfigField) → f.Value → Prop
  | lanPort | prebufferSegments | startBufferSeconds | pollIntervalMs | keepBehindSegments
  | bufferMinutes | maxCachedSegments | staleAfterMs | outWidth | outHeight | outFps | tileIndex
  | audioChannels | audioTrack | webPort | aes67Channels => FitsInt
  | outputs => fun l => ∀ o ∈ l, o.connector ≠ "" ∧ FitsInt o.tile
  | _ => fun _ => True

/-- The fields in the order of their names. -/
def byKey : List ConfigField :=
  [accessKeyId, aes67Address, aes67Channels, aes67Manage, aes67PreviousDevice, alsaDevice,
    audioChannels, audioEnabled, audioTrack, autoPlay, bucket, bufferMinutes, cacheDir,
    checkUpdates, cloudflaredToken, connector, delayFromLiveS, drmCard, endpointHost,
    followNextEvent, hardwareDecode, identityUntilVideo, idleImagePath, idleMode,
    keepBehindSegments, lanAuthToken, lanHost, lanPort, locked, maxCachedSegments, outFps,
    outHeight, outWidth, outputs, pinnedEventId, pollIntervalMs, prebufferSegments, r2AccountId,
    region, reporterApplianceId, reporterDeviceId, reporterEnabled, reporterKind, reporterToken,
    reporterUrl, roomId, secretAccessKey, siteName, splashLabel, staleAfterMs, startBufferSeconds,
    storageProvider, tileIndex, updateTokenFile, webBind, webPort, zerotierNetworkId]

lemma mem_byKey (f : ConfigField) : f ∈ byKey := by
  cases f <;> decide

/-- No two fields have one name. -/
lemma key_injective {f g : ConfigField} (h : f.key = g.key) : f = g := by
  have hsorted : (byKey.map key).IsChain (· < ·) := by decide +kernel
  have hne (a b : String) (hlt : a < b) : a ≠ b := by
    rintro rfl
    exact String.lt_irrefl _ hlt
  have hnodup : (byKey.map key).Nodup :=
    (List.isChain_iff_pairwise.mp hsorted).imp fun hlt => hne _ _ hlt
  exact List.inj_on_of_nodup_map hnodup (mem_byKey f) (mem_byKey g) h

variable {f : ConfigField} {v : f.Value}

lemma ofText?_text (m : IdleMode) : IdleMode.ofText? m.text = some m := by
  cases m <;> decide

lemma ofJson?_toJson {o : OutputSpec} (hc : o.connector ≠ "") (ht : FitsInt o.tile) :
    OutputSpec.ofJson? o.toJson = some o := by
  have hmod : o.tile.bmod 4294967296 = o.tile := Json.bmod_of_fits ht
  simp [OutputSpec.ofJson?, OutputSpec.toJson, Json.isObject, Json.get?, Json.find, hc, hmod]

/-- **What is written of a field is read.** -/
lemma read_write (h : f.Storable v) : f.read (f.write v) = some v := by
  cases f
  case outputs =>
    have hmap : (v.map OutputSpec.toJson).filterMap OutputSpec.ofJson? = v := by
      rw [List.filterMap_map]
      refine (List.filterMap_congr fun o ho => ?_).trans List.filterMap_some
      exact ofJson?_toJson (h o ho).1 (h o ho).2
    exact congrArg some hmap
  case idleMode => exact ofText?_text v
  all_goals first
    | rfl
    | exact Json.getInt_int h

lemma write_ne_null : f.write v ≠ .null := by
  cases f <;> exact Json.noConfusion

end ConfigField

/-! ### Saving and loading -/

namespace Settings

open ConfigField

/-- `take`: a member that is absent, null or of another type leaves the value. -/
def take {β : Type} (get : Json → Option β) (j : Json) (key : String) (cur : β) : β :=
  match j.get? key with
  | none => cur
  | some .null => cur
  | some v => (get v).getD cur

/-- The fields in the order they are saved in. -/
def savedFields : List ConfigField :=
  [storageProvider, endpointHost, r2AccountId, bucket, accessKeyId, secretAccessKey, region,
    lanHost, lanPort, lanAuthToken,
    reporterEnabled, reporterUrl, reporterApplianceId, reporterToken, reporterDeviceId,
    reporterKind, updateTokenFile,
    roomId, siteName, pinnedEventId, followNextEvent, checkUpdates,
    prebufferSegments, startBufferSeconds, pollIntervalMs, keepBehindSegments, bufferMinutes,
    maxCachedSegments, staleAfterMs, cacheDir, hardwareDecode,
    drmCard, connector, outWidth, outHeight, outFps, tileIndex, outputs,
    idleMode, idleImagePath, identityUntilVideo, splashLabel,
    audioEnabled, alsaDevice, audioChannels, audioTrack,
    webPort, webBind, autoPlay, delayFromLiveS, locked, zerotierNetworkId, cloudflaredToken,
    aes67Manage, aes67Address, aes67Channels, aes67PreviousDevice]

/-- The fields in the order they are loaded in. -/
def loadedFields : List ConfigField :=
  [storageProvider, endpointHost, r2AccountId, bucket, accessKeyId, secretAccessKey, region,
    lanHost, lanPort, lanAuthToken,
    reporterEnabled, reporterUrl, reporterApplianceId, reporterToken, reporterDeviceId,
    reporterKind, updateTokenFile,
    roomId, siteName, pinnedEventId, followNextEvent, checkUpdates,
    prebufferSegments, startBufferSeconds, pollIntervalMs, keepBehindSegments, bufferMinutes,
    maxCachedSegments, staleAfterMs, cacheDir, hardwareDecode,
    drmCard, connector, outWidth, outHeight, outFps, tileIndex, outputs,
    idleMode, idleImagePath, identityUntilVideo, splashLabel,
    audioEnabled, alsaDevice, audioChannels, audioTrack,
    webPort, webBind, autoPlay, delayFromLiveS, locked, zerotierNetworkId, cloudflaredToken,
    aes67Manage, aes67Address, aes67Channels, aes67PreviousDevice]

/-- The document `Config::save` prints. -/
def saveJson (c : Settings) : Json := .obj (savedFields.map fun f => (f.key, f.write (c f)))

/-- `Config::load` on a text; whether it is one of settings comes with them. -/
def load (parse : String → Option Json) (c : Settings) (text : String) : Settings × Bool :=
  match parse text with
  | none => (c, false)
  | some j =>
      if !j.isObject then (c, false)
      else (fun f => if f ∈ loadedFields then take f.read j f.key (c f) else c f, true)

/-! ### The form -/

/-- `detect_provider`. -/
def detectProvider (endpointHost r2AccountId : String) : StorageProvider :=
  let host := (lower endpointHost).toList
  if host = [] ∧ r2AccountId ≠ "" then .cloudflareR2
  else if ".r2.cloudflarestorage.com".toList.isSuffixOf host then .cloudflareR2
  else if ".amazonaws.com".toList.isSuffixOf host then .awsS3
  else if ".backblazeb2.com".toList.isSuffixOf host then .backblazeB2
  else if ".wasabisys.com".toList.isSuffixOf host then .wasabi
  else .custom

/-- The provider that is shown. -/
def shownProvider (c : Settings) : StorageProvider :=
  if c storageProvider = "" then detectProvider (c endpointHost) (c r2AccountId)
  else .providerFromKey (c storageProvider)

/-- `heartbeat_player_kind`. -/
def heartbeatPlayerKind (configured : String) : String :=
  if configured ∈ ["pi-player", "x86-player", "outpost-light", "outpost-pro"] then configured
  else "pi-player"

/-- `kSecretPlaceholder`. -/
def kSecretPlaceholder : String := "••••••••"

/-- A secret as it is shown. -/
def dots (secret : String) : Json := .str (if secret = "" then "" else kSecretPlaceholder)

/-- The fields in the order they are shown in. -/
def shownFields : List ConfigField :=
  [storageProvider, endpointHost, r2AccountId, bucket, accessKeyId, secretAccessKey, region,
    lanHost, lanPort, lanAuthToken,
    reporterEnabled, reporterUrl, reporterApplianceId, reporterKind, updateTokenFile,
    reporterToken,
    roomId, siteName, pinnedEventId, followNextEvent, checkUpdates,
    prebufferSegments, startBufferSeconds, pollIntervalMs, keepBehindSegments, bufferMinutes,
    maxCachedSegments, staleAfterMs, cacheDir, hardwareDecode,
    drmCard, connector, outWidth, outHeight, outFps, tileIndex, outputs,
    idleMode, idleImagePath, identityUntilVideo, splashLabel,
    audioEnabled, alsaDevice, audioChannels, audioTrack,
    webPort, webBind, autoPlay, delayFromLiveS, locked, zerotierNetworkId, cloudflaredToken,
    aes67Manage, aes67Address, aes67Channels]

/-- What is shown of a field. -/
def showField (c : Settings) : ConfigField → Json
  | storageProvider => .str c.shownProvider.providerKey
  | secretAccessKey => dots (c secretAccessKey)
  | lanAuthToken => dots (c lanAuthToken)
  | reporterKind => .str (heartbeatPlayerKind (c reporterKind))
  | reporterToken => dots (c reporterToken)
  | cloudflaredToken => dots (c cloudflaredToken)
  | f => f.write (c f)

/-- `config_json`. -/
def configJson (c : Settings) : Json :=
  .obj ((shownFields.map fun f => (f.key, c.showField f)) ++
    [("secret_set", .bool (c secretAccessKey ≠ "")),
      ("lan_auth_token_set", .bool (c lanAuthToken ≠ "")),
      ("reporter_token_set", .bool (c reporterToken ≠ "")),
      ("cloudflared_set", .bool (c cloudflaredToken ≠ ""))])

/-- The provider and the three fields of the address, edited. -/
def editStorage (c : Settings) (j : Json) : String × StorageProvider.DerivedFields :=
  match j.get? "storage_provider" with
  | some (.str key) =>
      let provider := StorageProvider.providerFromKey key
      (provider.providerKey,
        if provider = .custom then
          { endpointHost := take Json.getStr j "endpoint_host" (c endpointHost)
            r2AccountId := ""
            region := take Json.getStr j "region" (c region) }
        else
          provider.derive (if provider = .cloudflareR2 then take Json.getStr j "r2_account_id" ""
            else take Json.getStr j "region" ""))
  | _ =>
      (c storageProvider,
        { endpointHost := take Json.getStr j "endpoint_host" (c endpointHost)
          r2AccountId := take Json.getStr j "r2_account_id" (c r2AccountId)
          region := take Json.getStr j "region" (c region) })

/-- A secret, edited: the dots leave it. -/
def editSecret (j : Json) (key cur : String) : String :=
  let secret := take Json.getStr j key ""
  if secret ≠ kSecretPlaceholder then
    match j.get? key with
    | none => cur
    | some .null => cur
    | some _ => secret
  else cur

/-- The fields that are taken over as they come, in the order of the edit. -/
def editedFields : List ConfigField :=
  [bucket, accessKeyId, lanHost, lanPort,
    reporterEnabled, reporterUrl, reporterApplianceId, reporterKind, updateTokenFile,
    roomId, siteName,
    prebufferSegments, startBufferSeconds, pollIntervalMs, keepBehindSegments, bufferMinutes,
    maxCachedSegments, staleAfterMs, cacheDir, hardwareDecode, followNextEvent, checkUpdates,
    drmCard, connector, outWidth, outHeight, outFps, tileIndex, outputs,
    idleMode, idleImagePath, identityUntilVideo, splashLabel,
    audioEnabled, alsaDevice, audioChannels, audioTrack,
    webPort, webBind, autoPlay, delayFromLiveS, locked, zerotierNetworkId,
    aes67Manage, aes67Address, aes67Channels]

/-- A field, edited. -/
def editField (c : Settings) (j : Json) : (f : ConfigField) → f.Value
  | storageProvider => (c.editStorage j).1
  | endpointHost => (c.editStorage j).2.endpointHost
  | r2AccountId => (c.editStorage j).2.r2AccountId
  | region => (c.editStorage j).2.region
  | secretAccessKey => editSecret j "secret_access_key" (c secretAccessKey)
  | lanAuthToken => editSecret j "lan_auth_token" (c lanAuthToken)
  | reporterToken => editSecret j "reporter_token" (c reporterToken)
  | cloudflaredToken => editSecret j "cloudflared_token" (c cloudflaredToken)
  | f => if f ∈ editedFields then take f.read j f.key (c f) else c f

/-- The guard rails of `apply_edit`. -/
def guardRails (c : Settings) : Settings
  | pollIntervalMs => if c pollIntervalMs < 500 then (500 : ℤ) else c pollIntervalMs
  | prebufferSegments => if c prebufferSegments < 0 then (0 : ℤ) else c prebufferSegments
  | startBufferSeconds => if c startBufferSeconds < 0 then (0 : ℤ) else c startBufferSeconds
  | bufferMinutes => if c bufferMinutes < 1 then (1 : ℤ) else c bufferMinutes
  | maxCachedSegments => if c maxCachedSegments < 10 then (10 : ℤ) else c maxCachedSegments
  | staleAfterMs => if c staleAfterMs < 30000 then (30000 : ℤ) else c staleAfterMs
  | webPort => if c webPort < 1 ∨ 65535 < c webPort then (8080 : ℤ) else c webPort
  | lanPort => if c lanPort < 1 ∨ 65535 < c lanPort then (9080 : ℤ) else c lanPort
  | f => c f

/-- `apply_edit`. -/
def applyEdit (c : Settings) (j : Json) : Settings := guardRails (c.editField j)

/-! ### What is read -/

variable {c : Settings} {f : ConfigField} {v : f.Value} {j : Json}

/-- A member that is there. -/
lemma take_of_get? {β : Type} {get : Json → Option β} {key : String} {w : Json} {b cur : β}
    (hget : j.get? key = some w) (hw : w ≠ .null) (hread : get w = some b) :
    take get j key cur = b := by
  rw [take, hget]
  split
  · exact absurd ‹_› (by simp)
  · rename_i h
    exact absurd (Option.some.inj h) hw
  · rename_i h
    rw [← Option.some.inj h, hread]
    rfl

/-- A field's member, whatever follows. -/
lemma find_map {l : List ConfigField} (w : ConfigField → Json) (rest : List (String × Json))
    (h : f ∈ l) : Json.find f.key (l.map (fun g => (g.key, w g)) ++ rest) = some (w f) := by
  induction l with
  | nil => exact absurd h List.not_mem_nil
  | cons g l ih =>
      rw [List.map_cons, List.cons_append, Json.find]
      by_cases hkey : g.key = f.key
      · rw [if_pos hkey, key_injective hkey]
      · rw [if_neg hkey]
        exact ih ((List.mem_cons.mp h).resolve_left fun heq => hkey (heq ▸ rfl))

lemma mem_saved (f : ConfigField) : f ∈ savedFields ∧ f ∈ loadedFields := by
  cases f <;> decide

/-- **Settings that were saved are loaded**, whatever they are loaded over. -/
lemma load_save {parse : String → Option Json} {text : String} (c₀ : Settings)
    (hparse : parse text = some c.saveJson) (hc : ∀ f : ConfigField, f.Storable (c f)) :
    load parse c₀ text = (c, true) := by
  have hread (f : ConfigField) : take f.read c.saveJson f.key (c₀ f) = c f := by
    refine take_of_get? ?_ write_ne_null (read_write (hc f))
    have := find_map (fun f => f.write (c f)) [] (mem_saved f).1
    rwa [List.append_nil] at this
  rw [load, hparse]
  dsimp only
  rw [if_neg (by simp [saveJson, Json.isObject])]
  congr 1
  funext f
  rw [if_pos (mem_saved f).2, hread f]

/-! ### The form sent back -/

/-- The figures are ones that an edit leaves. -/
structure WithinRails (c : Settings) : Prop where
  pollIntervalMs : 500 ≤ c pollIntervalMs
  prebufferSegments : 0 ≤ c prebufferSegments
  startBufferSeconds : 0 ≤ c startBufferSeconds
  bufferMinutes : 1 ≤ c bufferMinutes
  maxCachedSegments : 10 ≤ c maxCachedSegments
  staleAfterMs : 30000 ≤ c staleAfterMs
  webPort : 1 ≤ c webPort ∧ c webPort ≤ 65535
  lanPort : 1 ≤ c lanPort ∧ c lanPort ≤ 65535

lemma guardRails_eq (h : c.WithinRails) : c.guardRails = c := by
  funext f
  cases f
  case pollIntervalMs => exact if_neg (not_lt.mpr h.pollIntervalMs)
  case prebufferSegments => exact if_neg (not_lt.mpr h.prebufferSegments)
  case startBufferSeconds => exact if_neg (not_lt.mpr h.startBufferSeconds)
  case bufferMinutes => exact if_neg (not_lt.mpr h.bufferMinutes)
  case maxCachedSegments => exact if_neg (not_lt.mpr h.maxCachedSegments)
  case staleAfterMs => exact if_neg (not_lt.mpr h.staleAfterMs)
  case webPort => exact if_neg (not_or.mpr ⟨not_lt.mpr h.webPort.1, not_lt.mpr h.webPort.2⟩)
  case lanPort => exact if_neg (not_or.mpr ⟨not_lt.mpr h.lanPort.1, not_lt.mpr h.lanPort.2⟩)
  all_goals rfl

/-- The three fields of the address that the shown provider makes of them. -/
def derived (c : Settings) : StorageProvider.DerivedFields :=
  if c.shownProvider = .custom then
    { endpointHost := c endpointHost, r2AccountId := "", region := c region }
  else
    c.shownProvider.derive (if c.shownProvider = .cloudflareR2 then c r2AccountId else c region)

/-- The settings once the form was sent back as it was shown. -/
def sentBack (c : Settings) : Settings
  | storageProvider => c.shownProvider.providerKey
  | endpointHost => c.derived.endpointHost
  | r2AccountId => c.derived.r2AccountId
  | region => c.derived.region
  | reporterKind => heartbeatPlayerKind (c reporterKind)
  | f => c f

/-- A field as it is shown. -/
lemma get?_configJson (h : f ∈ shownFields) : c.configJson.get? f.key = some (c.showField f) :=
  find_map _ _ h

/-- The dots leave a secret, and so does nothing where there is none. -/
lemma editSecret_dots {key cur : String} (h : j.get? key = some (dots cur)) :
    editSecret j key cur = cur := by
  have hread : take Json.getStr j key "" = if cur = "" then "" else kSecretPlaceholder :=
    take_of_get? h Json.noConfusion rfl
  rw [editSecret, hread, h]
  by_cases hcur : cur = ""
  · rw [if_pos hcur, if_pos (by decide), hcur]
    rfl
  · rw [if_neg hcur, if_neg (not_not.mpr rfl)]

/-- A field that is taken over as it comes is shown, and but for the kind it is shown as it is. -/
lemma edited_plain (h : f ∈ editedFields) : f ∈ shownFields ∧
    c.editField j f = take f.read j f.key (c f) ∧
    (f ≠ reporterKind → c.showField f = f.write (c f) ∧ c.sentBack f = c f) := by
  have hshown : ∀ g ∈ editedFields, g ∈ shownFields := by decide
  refine ⟨hshown f h, ?_, ?_⟩
  · cases f <;> first | rfl | exact absurd h (by decide)
  · intro hkind
    cases f <;> first | exact ⟨rfl, rfl⟩ | exact absurd h (by decide) | exact absurd rfl hkind

/-- Such a field stays. -/
lemma taken_back (hc : f.Storable (c f)) (h : f ∈ editedFields) (hkind : f ≠ reporterKind) :
    c.editField c.configJson f = c.sentBack f := by
  obtain ⟨hshown, hedit, hplain⟩ := edited_plain (c := c) (j := c.configJson) h
  obtain ⟨hshow, hback⟩ := hplain hkind
  have hget := get?_configJson (c := c) hshown
  rw [hshow] at hget
  rw [hedit, hback]
  exact take_of_get? hget write_ne_null (read_write hc)

lemma editStorage_configJson :
    c.editStorage c.configJson = (c.shownProvider.providerKey, c.derived) := by
  have hprovider : c.configJson.get? "storage_provider" = some (.str c.shownProvider.providerKey) :=
    get?_configJson (f := storageProvider) (by decide)
  have hstr (g : ConfigField) (hg : g ∈ shownFields) (t cur : String)
      (hshow : c.showField g = .str t) : take Json.getStr c.configJson g.key cur = t := by
    refine take_of_get? (get?_configJson hg) ?_ ?_
    · rw [hshow]
      exact Json.noConfusion
    · rw [hshow]
      rfl
  have hhost (cur : String) : take Json.getStr c.configJson "endpoint_host" cur = c endpointHost :=
    hstr endpointHost (by decide) _ _ rfl
  have haccount (cur : String) :
      take Json.getStr c.configJson "r2_account_id" cur = c r2AccountId :=
    hstr r2AccountId (by decide) _ _ rfl
  have hregion (cur : String) : take Json.getStr c.configJson "region" cur = c region :=
    hstr region (by decide) _ _ rfl
  rw [editStorage, hprovider]
  dsimp only
  rw [StorageProvider.providerFromKey_providerKey, hhost, haccount, hregion, hregion, derived]

/-- **What becomes of the form sent back.** -/
lemma applyEdit_configJson (hrails : c.WithinRails) (hc : ∀ f : ConfigField, f.Storable (c f)) :
    c.applyEdit c.configJson = c.sentBack := by
  have hedit : c.editField c.configJson = c.sentBack := by
    funext f
    by_cases hkind : f = reporterKind
    · subst hkind
      exact (edited_plain (by decide)).2.1.trans
        (take_of_get? (get?_configJson (by decide)) Json.noConfusion rfl)
    by_cases h : f ∈ editedFields
    · exact taken_back (hc f) h hkind
    cases f
    case storageProvider => exact congrArg Prod.fst editStorage_configJson
    case endpointHost => exact congrArg (·.2.endpointHost) editStorage_configJson
    case r2AccountId => exact congrArg (·.2.r2AccountId) editStorage_configJson
    case region => exact congrArg (·.2.region) editStorage_configJson
    case secretAccessKey =>
      exact editSecret_dots (get?_configJson (f := secretAccessKey) (by decide))
    case lanAuthToken => exact editSecret_dots (get?_configJson (f := lanAuthToken) (by decide))
    case reporterToken => exact editSecret_dots (get?_configJson (f := reporterToken) (by decide))
    case cloudflaredToken =>
      exact editSecret_dots (get?_configJson (f := cloudflaredToken) (by decide))
    -- not edited, or one of those above
    all_goals first | rfl | exact absurd (by decide) h
  have hkept : c.sentBack.WithinRails := ⟨hrails.pollIntervalMs, hrails.prebufferSegments,
    hrails.startBufferSeconds, hrails.bufferMinutes, hrails.maxCachedSegments, hrails.staleAfterMs,
    hrails.webPort, hrails.lanPort⟩
  rw [applyEdit, hedit, guardRails_eq hkept]

/-- Nothing is another than it was, but that a provider that was not named may be named, and that
the kind is spelt as it is known. -/
structure Kept (c c' : Settings) : Prop where
  fields : ∀ f, f ≠ storageProvider → f ≠ reporterKind → c' f = c f
  provider : c' storageProvider = c storageProvider ∨ c storageProvider = "" ∧
    c' storageProvider = (detectProvider (c endpointHost) (c r2AccountId)).providerKey
  kind : c' reporterKind = heartbeatPlayerKind (c reporterKind)

/-- The address is what an operator who picked that provider would have got. -/
def DerivesFrom (c : Settings) : StorageProvider → Prop
  | .custom => c r2AccountId = ""
  | .cloudflareR2 => c endpointHost = "" ∧ c region = "auto"
  | .awsS3 => c endpointHost = "s3." ++ c region ++ ".amazonaws.com" ∧ c r2AccountId = ""
  | .backblazeB2 => c endpointHost = "s3." ++ c region ++ ".backblazeb2.com" ∧ c r2AccountId = ""
  | .wasabi => c endpointHost = "s3." ++ c region ++ ".wasabisys.com" ∧ c r2AccountId = ""
  | .multisiteCloud => c endpointHost = "" ∧ c r2AccountId = "" ∧ c region = ""

/-- It is so for the provider that is shown, and a provider that is named is one that is known. -/
def StorageDerived (c : Settings) : Prop :=
  (c storageProvider = "" ∨ c storageProvider = c.shownProvider.providerKey) ∧
    c.DerivesFrom c.shownProvider

/-- The three fields are those derived just if the address is. -/
lemma derived_eq_iff : c.derived =
      { endpointHost := c endpointHost, r2AccountId := c r2AccountId, region := c region } ↔
    c.DerivesFrom c.shownProvider := by
  rw [derived]
  cases c.shownProvider
  all_goals
    simp only [reduceCtorEq, if_false, if_true, StorageProvider.derive, DerivesFrom,
      StorageProvider.DerivedFields.mk.injEq]
    grind

/-- What is sent back is what there was just if the address was derived. -/
lemma kept_sentBack_iff : Kept c c.sentBack ↔ c.StorageDerived := by
  have hshown (h : c storageProvider = "") :
      c.shownProvider = detectProvider (c endpointHost) (c r2AccountId) := if_pos h
  rw [StorageDerived, ← derived_eq_iff]
  constructor
  · rintro ⟨hfields, hprovider, -⟩
    refine ⟨hprovider.elim (fun h => Or.inr h.symm) fun h => Or.inl h.1, ?_⟩
    rw [← hfields endpointHost (by decide) (by decide),
      ← hfields r2AccountId (by decide) (by decide), ← hfields region (by decide) (by decide)]
    rfl
  · rintro ⟨hprovider, hderived⟩
    refine ⟨fun f hf hkind => ?_, ?_, rfl⟩
    · cases f
      case storageProvider => exact absurd rfl hf
      case reporterKind => exact absurd rfl hkind
      case endpointHost => exact congrArg (·.endpointHost) hderived
      case r2AccountId => exact congrArg (·.r2AccountId) hderived
      case region => exact congrArg (·.region) hderived
      all_goals rfl
    · rcases hprovider with h | h
      · exact Or.inr ⟨h, congrArg StorageProvider.providerKey (hshown h)⟩
      · exact Or.inl h.symm

/-- The form sent back as it was shown changes nothing, and settings that are saved are loaded, just
if the address is what the shown provider derives. -/
theorem edit_keeps_iff (c : Settings) (hrails : c.WithinRails)
    (hc : ∀ f : ConfigField, f.Storable (c f)) (parse : String → Option Json)
    (dump : Json → String) (hparse : parse (dump c.saveJson) = some c.saveJson) :
    (Kept c (c.applyEdit c.configJson) ∧
      load parse defaultSettings (dump c.saveJson) = (c, true)) ↔ c.StorageDerived := by
  rw [applyEdit_configJson hrails hc, kept_sentBack_iff]
  exact and_iff_left (load_save defaultSettings hparse hc)

/-- A player that reads from R2. -/
def r2Settings : Settings
  | storageProvider => "r2"
  | r2AccountId => "acct"
  | bucket => "site"
  | f => defaultSettings f

/-- Its file. -/
def r2Text : String :=
  "\x7b\n  \"access_key_id\": \"\",\n  \"aes67_address\": \"\",\n  \"aes67_channels\": 8,\n" ++
  "  \"aes67_manage\": false,\n  \"aes67_previous_device\": \"\",\n" ++
  "  \"alsa_device\": \"default\",\n  \"audio_channels\": 0,\n  \"audio_enabled\": true,\n" ++
  "  \"audio_track\": 0,\n  \"auto_play\": true,\n  \"bucket\": \"site\",\n" ++
  "  \"buffer_minutes\": 10,\n  \"cache_dir\": \"/var/lib/multisite-player/cache\",\n" ++
  "  \"check_updates\": true,\n  \"cloudflared_token\": \"\",\n  \"connector\": \"\",\n" ++
  "  \"delay_from_live_s\": 0.0,\n  \"drm_card\": \"\",\n  \"endpoint_host\": \"\",\n" ++
  "  \"follow_next_event\": true,\n  \"hardware_decode\": true,\n" ++
  "  \"identity_until_video\": false,\n  \"idle_image_path\": \"\",\n" ++
  "  \"idle_mode\": \"splash\",\n  \"keep_behind_segments\": 200,\n" ++
  "  \"lan_auth_token\": \"\",\n  \"lan_host\": \"\",\n  \"lan_port\": 9080,\n" ++
  "  \"locked\": false,\n  \"max_cached_segments\": 2000,\n  \"out_fps\": 0,\n" ++
  "  \"out_height\": 0,\n  \"out_width\": 0,\n  \"outputs\": [],\n" ++
  "  \"pinned_event_id\": \"\",\n  \"poll_interval_ms\": 3000,\n" ++
  "  \"prebuffer_segments\": 2,\n  \"r2_account_id\": \"acct\",\n  \"region\": \"auto\",\n" ++
  "  \"reporter_appliance_id\": \"\",\n  \"reporter_device_id\": \"\",\n" ++
  "  \"reporter_enabled\": false,\n  \"reporter_kind\": \"pi-player\",\n" ++
  "  \"reporter_token\": \"\",\n  \"reporter_url\": \"\",\n" ++
  "  \"room_id\": \"main-auditorium\",\n  \"secret_access_key\": \"\",\n" ++
  "  \"site_name\": \"\",\n  \"splash_label\": \"\",\n  \"stale_after_ms\": 600000,\n" ++
  "  \"start_buffer_seconds\": 60,\n  \"storage_provider\": \"r2\",\n" ++
  "  \"tile_index\": -1,\n  \"update_token_file\": \"\",\n  \"web_bind\": \"0.0.0.0\",\n" ++
  "  \"web_port\": 8080,\n  \"zerotier_network_id\": \"\"\n\x7d\n"

theorem edit_keeps_iff_r2 : Kept r2Settings (r2Settings.applyEdit r2Settings.configJson) ∧
    load (fun t => if t = r2Text then some r2Settings.saveJson else none) defaultSettings r2Text =
      (r2Settings, true) := by
  have hc : ∀ f : ConfigField, f.Storable (r2Settings f) := by
    intro f
    cases f <;> first | trivial |
      exact fun o ho => absurd ho List.not_mem_nil
  refine (edit_keeps_iff r2Settings ⟨by decide, by decide, by decide, by decide, by decide,
    by decide, by decide, by decide⟩ hc _ (fun _ => r2Text) (if_pos rfl)).mpr ?_
  have hr2 : r2Settings.shownProvider = .cloudflareR2 := by decide
  refine ⟨Or.inr (by rw [hr2]; rfl), ?_⟩
  rw [hr2]
  exact ⟨rfl, rfl⟩

/-- A player whose address was typed before there were providers. -/
def typedSettings : Settings
  | endpointHost => "acct.r2.cloudflarestorage.com"
  | bucket => "site"
  | f => defaultSettings f

/-- The form takes its address away. -/
theorem not_edit_keeps : ¬∀ c : Settings, c.WithinRails →
    (∀ f : ConfigField, f.Storable (c f)) → Kept c (c.applyEdit c.configJson) := by
  intro h
  have hrails : typedSettings.WithinRails := ⟨by decide, by decide, by decide, by decide, by decide,
    by decide, by decide, by decide⟩
  have hc : ∀ f : ConfigField, f.Storable (typedSettings f) := by
    intro f
    cases f <;> first | trivial |
      exact fun o ho => absurd ho List.not_mem_nil
  have hkept := h typedSettings hrails hc
  rw [applyEdit_configJson hrails hc] at hkept
  exact absurd (hkept.fields endpointHost (by decide) (by decide)) (by decide +kernel)

end Settings

end Multisite

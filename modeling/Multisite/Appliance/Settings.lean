import Multisite.Lib.Record
import Multisite.Lib.Run
import Multisite.Lib.Search
import Multisite.Appliance.Player

/-!
Who changes the campus player's settings (`appliance/api.cpp`, `appliance/reporter.cpp`,
`appliance/player.cpp`): the web interface, the pairing's two saves and the repair of the network
sound each take a copy of the whole `Config`, work on it, and store it whole; pinning and locking
set one field of the one in force.

* `change_lost`: runs in which a copy stored whole takes back what came between;
* `contains_of_reached`: where each copy stored still has what its own change leaves alone, the
  settings contain every change made, up to later ones of the same fields.
-/

namespace Multisite

open Lib

/-! ### The record -/

/-- `IdleMode`. -/
inductive IdleMode where
  | black
  | holdFrame
  | splash
  | image
  deriving DecidableEq, Repr

/-- The fields of `Config`. -/
inductive ConfigField where
  | storageProvider | endpointHost | r2AccountId | bucket | accessKeyId | secretAccessKey | region
  | lanHost | lanPort | lanAuthToken
  | reporterEnabled | reporterUrl | reporterApplianceId | reporterToken | reporterDeviceId
  | reporterKind | updateTokenFile
  | roomId | siteName | pinnedEventId | followNextEvent | checkUpdates
  | prebufferSegments | startBufferSeconds | pollIntervalMs | keepBehindSegments | bufferMinutes
  | maxCachedSegments | staleAfterMs | cacheDir | hardwareDecode
  | drmCard | connector | outWidth | outHeight | outFps | tileIndex | outputs
  | idleMode | idleImagePath | identityUntilVideo | splashLabel
  | audioEnabled | alsaDevice | audioChannels | audioTrack
  | webPort | webBind
  | autoPlay | delayFromLiveS | locked
  | zerotierNetworkId | cloudflaredToken
  | aes67Manage | aes67Address | aes67Channels | aes67PreviousDevice
  deriving DecidableEq, Repr

/-- What a field holds. -/
@[reducible]
def ConfigField.Value : ConfigField → Type
  | lanPort | prebufferSegments | startBufferSeconds | pollIntervalMs | keepBehindSegments
  | bufferMinutes | maxCachedSegments | staleAfterMs | outWidth | outHeight | outFps | tileIndex
  | audioChannels | audioTrack | webPort | aes67Channels => ℤ
  | reporterEnabled | followNextEvent | checkUpdates | hardwareDecode | identityUntilVideo
  | audioEnabled | autoPlay | locked | aes67Manage => Bool
  | outputs => List OutputSpec
  | idleMode => IdleMode
  | delayFromLiveS => ℚ
  | _ => String

/-- `Config`. -/
abbrev Settings := (f : ConfigField) → f.Value

/-- A `Config` that has not been loaded. -/
def defaultSettings : Settings
  | .region => "auto"
  | .lanPort => 9080
  | .reporterKind => "pi-player"
  | .roomId => "main-auditorium"
  | .prebufferSegments => 2
  | .startBufferSeconds => 60
  | .pollIntervalMs => 3000
  | .keepBehindSegments => 200
  | .bufferMinutes => 10
  | .maxCachedSegments => 2000
  | .staleAfterMs => 600000
  | .cacheDir => "/var/lib/multisite-player/cache"
  | .tileIndex => -1
  | .idleMode => .splash
  | .alsaDevice => "default"
  | .webPort => 8080
  | .webBind => "0.0.0.0"
  | .aes67Channels => 8
  | .followNextEvent | .checkUpdates | .hardwareDecode | .audioEnabled | .autoPlay => true
  | .reporterEnabled | .identityUntilVideo | .locked | .aes67Manage => false
  | .outWidth | .outHeight | .outFps | .audioChannels | .audioTrack => (0 : ℤ)
  | .delayFromLiveS => (0 : ℚ)
  | .outputs => []
  | .storageProvider | .endpointHost | .r2AccountId | .bucket | .accessKeyId | .secretAccessKey
  | .lanHost | .lanAuthToken | .reporterUrl | .reporterApplianceId | .reporterToken
  | .reporterDeviceId | .updateTokenFile | .siteName | .pinnedEventId | .drmCard | .connector
  | .idleImagePath | .splashLabel | .zerotierNetworkId | .cloudflaredToken | .aes67Address
  | .aes67PreviousDevice => ""

/-- A change to some of the fields. -/
abbrev SettingsChange := Change ConfigField.Value

/-- No field. -/
def SettingsChange.nothing : SettingsChange := fun _ => none

/-- One more field. -/
def SettingsChange.with (d : SettingsChange) (f : ConfigField) (v : f.Value) : SettingsChange :=
  Function.update d f (some v)

/-! ### The writers -/

/-- `kAes67CardName`. -/
def kAes67CardName : String := "RAVENNA"

/-- `aes67_device_is_card`. -/
def aes67DeviceIsCard (device name : String) : Bool :=
  let d := device.toList
  if device = "" ∨ name = "" then false
  else
    match firstIn "CARD=".toList d with
    | some i => (d.drop (i + 5)).takeWhile (fun c => c ≠ ',' && c ≠ ':') = name.toList
    | none => if ':' ∈ d then false else device = name

/-- Who stores a whole record, with what it has from elsewhere. -/
inductive SettingsWriter where
  /-- `PUT /api/config`, with what `apply_edit` makes of the request and the settings. -/
  | put (edit : Settings → SettingsChange)
  /-- The reporter's device id, with one newly minted. -/
  | deviceId (minted : String)
  /-- The reporter's claim. -/
  | claim (minted id token url : String)
  /-- The repair that points the sound at the network's card, as far as there is one. -/
  | repointCard (card : String)

namespace SettingsWriter

/-- What it changes of the copy it took, if it goes on to store it. -/
def change (w : SettingsWriter) (cfg : Settings) : Option SettingsChange :=
  match w with
  | put edit => some (edit cfg)
  | deviceId minted =>
      if cfg .reporterUrl = "" ∨ cfg .reporterDeviceId ≠ "" then none
      else some (SettingsChange.nothing.with .reporterDeviceId minted)
  | claim minted id token url =>
      if cfg .reporterUrl = "" then none
      else
        let d := if cfg .reporterDeviceId = "" then
            SettingsChange.nothing.with .reporterDeviceId minted
          else SettingsChange.nothing
        let d := (d.with .reporterApplianceId id).with .reporterToken token
        some (if url = "" then d else d.with .reporterUrl url)
  | repointCard card =>
      if card = "" then none
      -- a record that is as it was is stored all the same
      else if cfg .alsaDevice = card then some SettingsChange.nothing
      else
        let d := if aes67DeviceIsCard (cfg .alsaDevice) kAes67CardName then
            SettingsChange.nothing
          else SettingsChange.nothing.with .aes67PreviousDevice (cfg .alsaDevice)
        some (d.with .alsaDevice card)

/-- The record is taken over: where the file could not be written only the repair goes on. -/
def stores (w : SettingsWriter) (written : Bool) : Bool :=
  match w with
  | repointCard _ => true
  | _ => written

end SettingsWriter

/-! ### The player -/

/-- The settings in force, and the writers at work, each with the copy it took. -/
structure SettingsHost where
  cfg : Settings
  writers : List (SettingsWriter × Settings) := []

/-- What can happen. -/
inductive SettingsStep where
  /-- A writer reads `config()`. -/
  | take (w : SettingsWriter)
  /-- A writer has come to its end, and has saved the file or not. -/
  | store (i : ℕ) (written : Bool)
  | pinEvent (id : String)
  | unpinEvent
  | setLocked (locked : Bool)

namespace SettingsHost

/-- The change a step makes, which its call reports. -/
def made (s : SettingsHost) : SettingsStep → Option SettingsChange
  | .take _ => none
  | .store i written =>
      (s.writers[i]?).bind fun x => if x.1.stores written then x.1.change x.2 else none
  | .pinEvent id => some (SettingsChange.nothing.with .pinnedEventId id)
  | .unpinEvent => some (SettingsChange.nothing.with .pinnedEventId "")
  | .setLocked locked => some (SettingsChange.nothing.with .locked locked)

/-- The record that a step's change is made to: the copy, or the one in force. -/
def base (s : SettingsHost) : SettingsStep → Settings
  | .store i _ => ((s.writers[i]?).map (·.2)).getD s.cfg
  | _ => s.cfg

/-- The writers after a step. -/
def left (s : SettingsHost) : SettingsStep → List (SettingsWriter × Settings)
  | .take w => s.writers ++ [(w, s.cfg)]
  | .store i _ => s.writers.eraseIdx i
  | _ => s.writers

/-- One step. -/
def step (s : SettingsHost) (a : SettingsStep) : Option SettingsHost :=
  match s.made a with
  | none => some { cfg := s.cfg, writers := s.left a }
  | some d => some { cfg := overlay (s.base a) d, writers := s.left a }

/-- The changes made, the newest last. -/
def noteChange (s : SettingsHost) (a : SettingsStep) (log : List SettingsChange) :
    List SettingsChange :=
  log ++ (s.made a).toList

/-- Where a copy is stored, its change names every field that is no longer as it was. -/
def KeepsRest (s : SettingsHost) (a : SettingsStep) : Prop :=
  ∀ d ∈ s.made a, ∀ f, d f = none → s.base a f = s.cfg f

/-- A player that has just started. -/
def Fresh (x : SettingsHost × List SettingsChange) : Prop := ∃ cfg, x = ({ cfg }, [])

end SettingsHost

open SettingsHost

/-- **No change is lost** in a run in which each copy is stored over settings that differ from it
only in what its own change names. -/
theorem contains_of_reached {x : SettingsHost × List SettingsChange}
    (hx : Reach (noted SettingsHost.step noteChange) (fun x a => x.1.KeepsRest a)
      SettingsHost.Fresh x) :
    Contains x.1.cfg x.2 := by
  have hinv : ∃ c, x.1.cfg = overlays c x.2 := by
    refine hx.invariant (I := fun x => ∃ c, x.1.cfg = overlays c x.2) ?_ ?_
    · rintro x ⟨cfg, rfl⟩
      exact ⟨cfg, rfl⟩
    · rintro ⟨s, log⟩ a ⟨t, log'⟩ ⟨c, hc⟩ hkeeps hstep
      obtain ⟨ht, rfl⟩ := noted_eq_some.mp hstep
      refine ⟨c, ?_⟩
      dsimp only at hc ht hkeeps ⊢
      rw [noteChange]
      rw [SettingsHost.step] at ht
      cases hmade : s.made a with
      | none =>
          rw [hmade] at ht
          cases ht
          rw [Option.toList_none, List.append_nil]
          exact hc
      | some d =>
          rw [hmade] at ht
          cases ht
          rw [Option.toList_some, overlays_concat, ← hc]
          exact overlay_eq (hkeeps d hmade)
  obtain ⟨c, hc⟩ := hinv
  rw [hc]
  exact contains_overlays c x.2

/-! ### Runs -/

/-- An operator saves the box's name. -/
def sampleSave : SettingsWriter :=
  .put fun _ => SettingsChange.nothing.with .siteName "Campus B"

/-- The name is saved, then an event is pinned, and then another save is made. -/
theorem contains_of_reached_saved :
    ∃ x : SettingsHost × List SettingsChange,
      (x.1.cfg .siteName = "Campus B" ∧ x.1.cfg .pinnedEventId = "e1") ∧ Contains x.1.cfg x.2 := by
  have h₀ : Reach (noted SettingsHost.step noteChange) (fun x a => x.1.KeepsRest a)
      SettingsHost.Fresh ({ cfg := defaultSettings }, []) := .start ⟨_, rfl⟩
  have hnone {s : SettingsHost} {w : SettingsWriter} : s.KeepsRest (.take w) := by
    rintro d hd
    exact absurd hd (by simp [made])
  have h₁ := h₀.next (a := .take sampleSave) hnone rfl
  have h₂ := h₁.next (a := .store 0 true) (fun d _ f _ => rfl) rfl
  have h₃ := h₂.next (a := .pinEvent "e1") (fun d _ f _ => rfl) rfl
  exact ⟨_, ⟨by decide +kernel, by decide +kernel⟩, contains_of_reached h₃⟩

/-- The repair of the network sound takes back a save made while it looked at the card, and a
save takes back an event pinned while it was at work. -/
theorem change_lost :
    (∃ x, Reach (noted SettingsHost.step noteChange) anyStep SettingsHost.Fresh x ∧
      x.1.cfg .siteName = "" ∧ x.2.map (fun d => d .siteName) = [some "Campus B", none] ∧
        ¬ Contains x.1.cfg x.2) ∧
    ∃ x, Reach (noted SettingsHost.step noteChange) anyStep SettingsHost.Fresh x ∧
      x.1.cfg .pinnedEventId = "" ∧ x.2.map (fun d => d .pinnedEventId) = [some "e1", none] ∧
        ¬ Contains x.1.cfg x.2 := by
  obtain ⟨x, hx, hname, hlog⟩ := (exists_reach ({ cfg := defaultSettings }, [])
    [.take (.repointCard "hw:CARD=RAVENNA,DEV=0"), .take sampleSave, .store 1 true, .store 0 true]
    ⟨_, rfl⟩ (by decide +kernel) :
    ∃ x : SettingsHost × List SettingsChange,
      Reach (noted SettingsHost.step noteChange) anyStep SettingsHost.Fresh x ∧
        (x.1.cfg .siteName = "" ∧ x.2.map (fun d => d .siteName) = [some "Campus B", none]))
  obtain ⟨y, hy, hpinned, hlog'⟩ := (exists_reach ({ cfg := defaultSettings }, [])
    [.take sampleSave, .pinEvent "e1", .store 0 true] ⟨_, rfl⟩ (by decide +kernel) :
    ∃ x : SettingsHost × List SettingsChange,
      Reach (noted SettingsHost.step noteChange) anyStep SettingsHost.Fresh x ∧
        (x.1.cfg .pinnedEventId = "" ∧
          x.2.map (fun d => d .pinnedEventId) = [some "e1", none]))
  exact ⟨⟨x, hx, hname, hlog, not_contains hlog (by rw [hname]; decide)⟩,
    ⟨y, hy, hpinned, hlog', not_contains hlog' (by rw [hpinned]; decide)⟩⟩

end Multisite

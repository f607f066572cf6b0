import Multisite.Cloud.Storage
import Multisite.Cloud.Adoption
import Multisite.Lib.Keyed
import Multisite.Stream.Edits

/-!
The relay's service (`service.cpp`): what it keeps of the database (`config_store.cpp`), its feeder
and its sessions, the requests that change them (`api.cpp`) and the reporter's credentials
(`serve_credentials` of `reporter.cpp`).

A request is a sequence of writes, each at once, with a reload behind them; a reload reads the
provider, the storage, the LAN path, the room and the destinations one after the other, and takes
the lock with what it read.  A session is told from the one before it by the reload that started
it.
-/

namespace Multisite

/-! ### The store -/

/-- `ConfigStore::LanConfig`. -/
structure LanConfig where
  host : String := ""
  port : ℤ := 9080
  authToken : String := ""
  deriving DecidableEq, Repr

/-- `RoomSettings`. -/
structure RoomSettings where
  roomId : String := "main-auditorium"
  defaultDelayS : ℤ := 180
  deriving DecidableEq, Repr

/-- What `ConfigStore` keeps. -/
structure RelayStore where
  storage : S3Config := {}
  provider : String := ""
  pairing : PairingConfig := {}
  lan : LanConfig := {}
  room : RoomSettings := {}
  rows : List Destination := []
  lastId : ℤ := 0
  deriving DecidableEq, Repr

namespace RelayStore

/-- `provider_key(StorageProvider::MultisiteCloud)`. -/
def cloudProvider : String := "multisite_cloud"

/-- `storage_is_paired`. -/
def storageIsPaired (s : RelayStore) : Bool := s.provider = cloudProvider

/-- `storage_configured`. -/
def storageConfigured (s : RelayStore) : Bool :=
  s.storage.bucket ≠ "" && s.storage.accessKeyId ≠ "" &&
    (s.storage.endpointHost ≠ "" || s.storage.r2AccountId ≠ "")

/-- `configured`. -/
def configured (s : RelayStore) : Bool :=
  s.storageConfigured || decide (s.lan.host ≠ "") || (s.storageIsPaired && s.pairing.paired)

/-- `destination`. -/
def destination (s : RelayStore) (id : ℤ) : Option Destination := s.rows.find? (·.id = id)

/-- `set_storage`: the fields that are kept. -/
def setStorage (s : RelayStore) (c : S3Config) : RelayStore :=
  { s with
    storage :=
      { endpointHost := c.endpointHost
        r2AccountId := c.r2AccountId
        bucket := c.bucket
        accessKeyId := c.accessKeyId
        secretAccessKey := c.secretAccessKey
        region := if c.region = "" then "auto" else c.region
        useHttps := c.useHttps } }

/-- `add`. -/
def add (s : RelayStore) (d : Destination) : RelayStore :=
  { s with rows := s.rows ++ [{ d with id := s.lastId + 1 }], lastId := s.lastId + 1 }

/-- `update`. -/
def update (s : RelayStore) (d : Destination) : RelayStore :=
  { s with rows := s.rows.map fun r => if r.id = d.id then d else r }

/-- `remove`. -/
def remove (s : RelayStore) (id : ℤ) : RelayStore :=
  { s with rows := s.rows.filter fun r => r.id ≠ id }

/-- `set_enabled`. -/
def setEnabled (s : RelayStore) (id : ℤ) (on : Bool) : RelayStore :=
  { s with rows := s.rows.map fun r => if r.id = id then { r with enabled := on } else r }

/-- No id twice, and none that is still to be given. -/
structure Sound (s : RelayStore) : Prop where
  nodup : (s.rows.map (·.id)).Nodup
  le : ∀ d ∈ s.rows, d.id ≤ s.lastId

end RelayStore

/-! ### The service -/

/-- `same_storage`. -/
def sameStorage (a b : S3Config) : Bool :=
  a.endpointHost = b.endpointHost && a.r2AccountId = b.r2AccountId && a.bucket = b.bucket &&
    a.accessKeyId = b.accessKeyId && a.secretAccessKey = b.secretAccessKey &&
    a.region = b.region && a.useHttps = b.useHttps

/-- `same_lan`. -/
def sameLan (a b : LanConfig) : Bool :=
  a.host = b.host && a.port = b.port && a.authToken = b.authToken

/-- What the service's `FeederConfig` takes. -/
structure ServiceFeeder where
  storage : S3Config
  lan : LanConfig
  roomId : String
  bufferMinutes : ℤ
  deriving DecidableEq, Repr

/-- `cloud_configured` of `room_feeder.cpp`. -/
def cloudConfigured (c : S3Config) : Bool :=
  c.bucket ≠ "" && (c.endpointHost ≠ "" || c.r2AccountId ≠ "")

/-- The configuration `RoomFeeder::RoomFeeder` gives its `S3Transport`, where it makes one. -/
def ServiceFeeder.transport (f : ServiceFeeder) : Option S3Config :=
  if cloudConfigured f.storage then some f.storage else none

/-- A `RelaySession` of the service: its settings, and the reload that started it. -/
structure RelayRunning where
  started : ℕ
  edits : RelayEdits
  deriving DecidableEq, Repr

/-- `Service`. -/
structure RelayService where
  feeder : Option ServiceFeeder := none
  feederStorage : S3Config := {}
  feederLan : LanConfig := {}
  feederRoom : String := ""
  /-- `m_sessions`. -/
  sessions : ℤ → Option RelayRunning := fun _ => none
  storageError : String := ""
  /-- The reloads that took the lock. -/
  reloads : ℕ := 0

/-- The destination a session is given: the room's delay where it has none. -/
def settled (room : RoomSettings) (d : Destination) : Destination :=
  if d.delayS ≤ 0 then { d with delayS := room.defaultDelayS } else d

/-- What a reload reads. -/
structure ReloadRead where
  storage : S3Config
  lan : LanConfig
  room : RoomSettings
  dests : List Destination
  deriving DecidableEq, Repr

namespace RelayService

variable (v : RelayService) (r : ReloadRead)

/-- A destination's session after a reload: started, or updated. -/
def synced (room : RoomSettings) (reload : ℕ) (old : Option RelayRunning) (d : Destination) :
    RelayRunning :=
  let copy := settled room d
  match old with
  | none => { started := reload, edits := { dest := copy, enabled := copy.enabled } }
  | some s => { s with edits := s.edits.update copy }

/-- `sync_destinations_locked`. -/
def syncDestinationsLocked (room : RoomSettings) (dests : List Destination) : RelayService :=
  if v.feeder.isNone then v
  else { v with sessions := Lib.reconcile (·.id) (synced room v.reloads) v.sessions dests }

/-- `feeder_stale`. -/
def feederStale : Bool :=
  v.feeder.isNone || !sameStorage r.storage v.feederStorage || !sameLan r.lan v.feederLan ||
    decide (r.room.roomId ≠ v.feederRoom)

/-- `fc.buffer_minutes`. -/
def bufferMinutes (room : RoomSettings) (dests : List Destination) : ℤ :=
  let deepest := dests.foldl
    (fun m d => max m (if 0 < d.delayS then d.delayS else room.defaultDelayS)) room.defaultDelayS
  max 10 (deepest.tdiv 60 + 5)

/-- A new feeder. -/
def buildFeeder : RelayService :=
  { v with
    feeder := some
      { storage := r.storage
        lan := r.lan
        roomId := r.room.roomId
        bufferMinutes := bufferMinutes r.room r.dests }
    feederStorage := r.storage
    feederLan := r.lan
    feederRoom := r.room.roomId
    storageError := "" }

/-- `reload` under the lock, with what `configured`, `storage_is_paired` and the identity's
`error` answer by then. -/
def reloadLocked (configured paired : Bool) (identityError : String) : RelayService :=
  let v := { v with reloads := v.reloads + 1 }
  if !v.feederStale r then v.syncDestinationsLocked r.room r.dests
  else
    let v := { v with sessions := fun _ => none, feeder := none }
    if !configured then { v with storageError := "Storage has not been set up yet." }
    else if paired && decide (r.storage.bucket = "") && decide (r.lan.host = "") then
      { v with
        storageError := if identityError = "" then
            "Waiting for storage details from Multisite Cloud."
          else identityError }
    else (v.buildFeeder r).syncDestinationsLocked r.room r.dests

/-- The session's part of `set_enabled`. -/
def setEnabled (id : ℤ) (on : Bool) : RelayService :=
  { v with
    sessions := Function.update v.sessions id
      ((v.sessions id).map fun s => { s with edits := s.edits.setEnabled on }) }

end RelayService

/-! ### Requests -/

/-- A write of a request. -/
inductive StoreWrite where
  | provider (key : String)
  | storage (c : S3Config)
  | lan (c : LanConfig)
  | room (r : RoomSettings)
  | pairing (c : PairingConfig)
  | clearPairing
  /-- The identity is reset. -/
  | resetIdentity
  | add (d : Destination)
  | update (d : Destination)
  | remove (id : ℤ)
  deriving DecidableEq, Repr

/-- How far a reload has read. -/
inductive ReloadPc where
  | begin
  /-- Whether the provider is Multisite Cloud is read. -/
  | provider (paired : Bool)
  | storage (c : S3Config)
  | lan (c : S3Config) (l : LanConfig)
  | room (c : S3Config) (l : LanConfig) (r : RoomSettings)
  /-- All is read; the lock is to be taken. -/
  | ready (r : ReloadRead)
  deriving DecidableEq, Repr

/-- What is left of a request. -/
inductive ServiceCall where
  /-- These writes, and whether a reload is behind them. -/
  | writes (ws : List StoreWrite) (reload : Bool)
  | reload (pc : ReloadPc)
  /-- An edit; the row is to be read.  What the body makes of the row, unless it is refused. -/
  | edit (id : ℤ) (body : Destination → Option Destination)
  /-- A start or a stop; the row is to be looked up. -/
  | startStop (id : ℤ) (on : Bool)
  /-- Looked up; the row is to be set. -/
  | setRow (id : ℤ) (on : Bool)
  /-- Set; the session is to be set. -/
  | setSession (id : ℤ) (on : Bool)

/-- A request, with the settings it makes of its body and of what it reads first. -/
inductive ServiceRequest where
  /-- `PUT /api/config`, with the key of the provider where the body names one. -/
  | config (provider : Option String) (c : S3Config) (lan : LanConfig) (room : RoomSettings)
  /-- `PUT /api/config`, refused after the provider is saved. -/
  | refusedConfig (provider : String)
  /-- `POST /api/pairing`, or a claim saved. -/
  | pairing (c : PairingConfig)
  /-- `DELETE /api/pairing` with `disconnect`. -/
  | disconnect
  | addDestination (d : Destination)
  | updateDestination (id : ℤ) (body : Destination → Option Destination)
  | deleteDestination (id : ℤ)
  | startDestination (id : ℤ)
  | stopDestination (id : ℤ)

/-- What a request does. -/
def ServiceRequest.call : ServiceRequest → ServiceCall
  | .config provider c lan room =>
      .writes ((provider.map .provider).toList ++ [.storage c, .lan lan, .room room]) true
  | .refusedConfig provider => .writes [.provider provider] false
  | .pairing c => .writes [.pairing c] false
  | .disconnect => .writes [.clearPairing, .resetIdentity] true
  | .addDestination d => .writes [.add { d with enabled := false }] true
  | .updateDestination id body => .edit id body
  | .deleteDestination id => .writes [.remove id] true
  | .startDestination id => .startStop id true
  | .stopDestination id => .startStop id false

/-- The service, what is stored, the identity, what is left of each request, and the bucket held
when the fetch that is out began. -/
structure RelayHost where
  store : RelayStore := {}
  identity : CloudIdentity := { requireReadOnly := true }
  service : RelayService := {}
  calls : List ServiceCall := []
  fetch : Option String := none

/-- `credentials_move_storage`. -/
def credentialsMoveStorage (bucketBefore : String) (r : CredentialsReply) : Bool :=
  r.ok && decide (r.creds.bucket ≠ "") && decide (r.creds.bucket ≠ bucketBefore)

/-- What can happen at the relay. -/
inductive ServiceAction where
  | request (r : ServiceRequest)
  /-- A request goes on. -/
  | proceed (i : ℕ)
  /-- A start is refused by the room's `can_send`. -/
  | refuse (i : ℕ)
  /-- `serve_credentials` up to its request. -/
  | fetch (nowMs : ℤ)
  /-- The reply. -/
  | fetched (r : CredentialsReply) (nowMs : ℤ)
  /-- The reporter enrols the identity. -/
  | enrol (e : Enrolment)
  /-- The feeder makes a request of the bucket. -/
  | send

namespace RelayHost

variable (s : RelayHost)

/-- `effective_storage`, once the provider is read. -/
def effectiveFor (paired : Bool) : S3Config :=
  if !paired then s.store.storage
  else if !s.identity.creds.present then {}
  else s3ConfigFromCredentials s.identity.creds

/-- `effective_storage`. -/
def effectiveStorage : S3Config := s.effectiveFor s.store.storageIsPaired

/-- A write. -/
def write : StoreWrite → RelayHost
  | .provider key => { s with store := { s.store with provider := key } }
  | .storage c => { s with store := s.store.setStorage c }
  | .lan c => { s with store := { s.store with lan := c } }
  | .room r => { s with store := { s.store with room := r } }
  | .pairing c => { s with store := { s.store with pairing := c } }
  | .clearPairing => { s with store := { s.store with pairing := s.store.pairing.clear } }
  | .resetIdentity =>
      { s with identity := { requireReadOnly := s.identity.requireReadOnly } }
  | .add d => { s with store := s.store.add d }
  | .update d => { s with store := s.store.update d }
  | .remove id => { s with store := s.store.remove id }

/-- What a reload reads if it reads all of it now. -/
def current : ReloadRead :=
  { storage := s.effectiveStorage, lan := s.store.lan, room := s.store.room
    dests := s.store.rows }

/-- `reload` under the lock. -/
def lockReload (r : ReloadRead) : RelayHost :=
  { s with
    service := s.service.reloadLocked r s.store.configured s.store.storageIsPaired
      s.identity.error }

/-- A reload's next step, and what is left of it. -/
def advanceReload : ReloadPc → RelayHost × Option ReloadPc
  | .begin => (s, some (.provider s.store.storageIsPaired))
  | .provider paired => (s, some (.storage (s.effectiveFor paired)))
  | .storage c => (s, some (.lan c s.store.lan))
  | .lan c l => (s, some (.room c l s.store.room))
  | .room c l r => (s, some (.ready { storage := c, lan := l, room := r, dests := s.store.rows }))
  | .ready r => (s.lockReload r, none)

/-- A request's next step, and what is left of it. -/
def advance : ServiceCall → RelayHost × Option ServiceCall
  | .writes [] reload => (s, if reload then some (.reload .begin) else none)
  | .writes (w :: ws) reload => (s.write w, some (.writes ws reload))
  | .reload pc => ((s.advanceReload pc).1, (s.advanceReload pc).2.map .reload)
  | .edit id body =>
      match s.store.destination id with
      | none => (s, none)
      | some d =>
          (s, (body d).map fun d' =>
            .writes [.update { d' with id := d.id, enabled := d.enabled }] true)
  | .startStop id on =>
      (s, if (s.store.destination id).isSome then some (.setRow id on) else none)
  | .setRow id on => ({ s with store := s.store.setEnabled id on }, some (.setSession id on))
  | .setSession id on => ({ s with service := s.service.setEnabled id on }, none)

/-- The request `i` has gone on to `rest`. -/
def resume (i : ℕ) (rest : Option ServiceCall) : RelayHost :=
  { s with
    calls := match rest with
      | some c => s.calls.set i c
      | none => s.calls.eraseIdx i }

/-- One step. -/
def step (s : RelayHost) : ServiceAction → Option RelayHost
  | .request r => some { s with calls := s.calls ++ [r.call] }
  | .proceed i =>
      match s.calls[i]? with
      | some c => some ((s.advance c).1.resume i (s.advance c).2)
      | none => none
  | .refuse i =>
      match s.calls[i]? with
      | some (.startStop _ true) => some (s.resume i none)
      | _ => none
  | .fetch nowMs =>
      if s.fetch = none ∧ s.identity.tick nowMs = .fetch then
        some { s with fetch := some s.identity.creds.bucket }
      else none
  | .fetched r nowMs =>
      match s.fetch with
      | none => none
      | some bucketBefore =>
          some
            { s with
              identity := s.identity.onCredentials r nowMs
              fetch := none
              calls := s.calls ++
                if credentialsMoveStorage bucketBefore r then [.reload .begin] else [] }
  | .enrol e => some { s with identity := s.identity.setEnrolment e.url e.id e.token }
  | .send => if (s.service.feeder.bind (·.transport)).isSome then some s else none

/-- `Service::start`: the saved pairing is given to the identity, and all is reloaded. -/
def boot (store : RelayStore) : RelayHost :=
  let e := store.pairing.enrolment
  { store
    identity :=
      if e.paired then CloudIdentity.setEnrolment { requireReadOnly := true } e.url e.id e.token
      else { requireReadOnly := true }
    calls := [.reload .begin] }

/-- A relay that has just started. -/
def Started (s : RelayHost) : Prop := ∃ store : RelayStore, store.Sound ∧ s = boot store

end RelayHost

end Multisite

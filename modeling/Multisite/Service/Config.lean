import Mathlib.Data.List.TakeWhile
import Multisite.Core.Json
import Multisite.Http.Server
import Multisite.Service.Host

/-!
Saving the settings: `PUT /api/config` (`relay/src/api.cpp`), over the rule of each storage
provider (`storage_providers.cpp`) and what the database takes of a text (`config_store.cpp`).

The parse of a body is a function.  Each setting is written at once.

* `putConfig_writes`: the writes are those of a request of the service;
* `changed_by_refusal`: a refused body has its provider saved, and an accepted one need not have
  an endpoint that the provider's rule derives;
* `putConfig_whole`: a refusal leaves all but the provider and does not reload, and an accepted
  body stores what the rule of the provider it names derives.
-/

namespace Multisite

/-! ### Providers -/

/-- `StorageProvider`. -/
inductive StorageProvider where
  | cloudflareR2
  | awsS3
  | backblazeB2
  | wasabi
  | custom
  | multisiteCloud
  deriving DecidableEq, Repr

namespace StorageProvider

/-- `provider_key`. -/
def providerKey : StorageProvider → String
  | cloudflareR2 => "r2"
  | awsS3 => "aws"
  | backblazeB2 => "backblaze"
  | wasabi => "wasabi"
  | multisiteCloud => "multisite_cloud"
  | custom => "custom"

/-- `provider_from_key`. -/
def providerFromKey (key : String) : StorageProvider :=
  if key = "r2" then cloudflareR2
  else if key = "aws" then awsS3
  else if key = "backblaze" then backblazeB2
  else if key = "wasabi" then wasabi
  else if key = "multisite_cloud" then multisiteCloud
  else custom

/-- `DerivedFields`. -/
structure DerivedFields where
  endpointHost : String := ""
  r2AccountId : String := ""
  region : String := ""
  deriving DecidableEq, Repr

/-- `derive`. -/
def derive (input : String) : StorageProvider → DerivedFields
  | cloudflareR2 => { r2AccountId := input, region := "auto" }
  | awsS3 => { endpointHost := "s3." ++ input ++ ".amazonaws.com", region := input }
  | backblazeB2 => { endpointHost := "s3." ++ input ++ ".backblazeb2.com", region := input }
  | wasabi => { endpointHost := "s3." ++ input ++ ".wasabisys.com", region := input }
  | custom | multisiteCloud => {}

/-- `needs_region` of `all_providers`. -/
def needsRegion : StorageProvider → Bool
  | awsS3 | backblazeB2 | wasabi | custom => true
  | cloudflareR2 | multisiteCloud => false

@[simp] lemma providerFromKey_providerKey (p : StorageProvider) :
    providerFromKey p.providerKey = p := by
  cases p <;> decide

end StorageProvider

/-! ### The body -/

namespace Settings

/-- `body_json`. -/
def bodyJson (parse : Bytes → Option Json) (body : Bytes) : Json :=
  if body = [] then .obj []
  else
    match parse body with
    | some (.obj l) => .obj l
    | _ => .obj []

/-- `str`. -/
def str (j : Json) (key : String) (fb : String) : String :=
  match j.get? key with
  | some (.str s) => s
  | _ => fb

/-- `num`. -/
def num (j : Json) (key : String) (fb : ℤ) : ℤ :=
  match j.get? key with
  | some (.int n) => ((Json.int n).getInt).getD fb
  | some (.float q) => ((Json.float q).getInt).getD fb
  | _ => fb

/-- `flag`. -/
def flag (j : Json) (key : String) (fb : Bool) : Bool :=
  match j.get? key with
  | some (.bool b) => b
  | _ => fb

/-- The provider that the body names. -/
def named (j : Json) : Option StorageProvider :=
  match j.get? "storage_provider" with
  | some (.str key) => some (.providerFromKey key)
  | _ => none

/-- `input`: the one field typed for a provider. -/
def input (j : Json) : StorageProvider → String
  | .cloudflareR2 => str j "r2_account_id" ""
  | _ => str j "region" ""

/-- The address that a body with a provider gives. -/
def addressed (j : Json) (p : StorageProvider) (c : S3Config) : S3Config :=
  if p = .custom then
    { c with
      endpointHost := str j "endpoint_host" c.endpointHost
      region := str j "region" c.region
      r2AccountId := "" }
  else
    let derived := p.derive (input j p)
    { c with
      endpointHost := derived.endpointHost
      r2AccountId := derived.r2AccountId
      region := derived.region }

/-- The address that a body without one gives. -/
def edited (j : Json) (c : S3Config) : S3Config :=
  { c with
    endpointHost := str j "endpoint_host" c.endpointHost
    r2AccountId := str j "r2_account_id" c.r2AccountId
    region := str j "region" c.region }

/-- The rest of the storage. -/
def keyed (j : Json) (c : S3Config) : S3Config :=
  let secret := str j "secret_access_key" ""
  { c with
    bucket := str j "bucket" c.bucket
    accessKeyId := str j "access_key_id" c.accessKeyId
    secretAccessKey := if secret ≠ "" then secret else c.secretAccessKey
    region := if c.region = "" then "auto" else c.region
    useHttps := flag j "use_https" c.useHttps }

/-- The LAN path. -/
def lanOf (j : Json) (lan : LanConfig) : LanConfig :=
  let port := num j "lan_port" lan.port
  let token := str j "lan_auth_token" ""
  { host := str j "lan_host" lan.host
    port := if port < 1 ∨ 65535 < port then 9080 else port
    authToken := if token ≠ "" then token else lan.authToken }

/-- The room. -/
def roomOf (j : Json) (r : RoomSettings) : RoomSettings :=
  { roomId := str j "room_id" r.roomId
    defaultDelayS := num j "default_delay_s" r.defaultDelayS }

end Settings

/-! ### The database -/

/-- `bind_text`: what comes before a NUL. -/
def bindText (s : String) : String := String.ofList (s.toList.takeWhile fun c => c.toNat ≠ 0)

/-- No NUL. -/
def Bound (s : String) : Prop := ∀ c ∈ s.toList, c.toNat ≠ 0

/-- A setting's write, as `put_setting` binds its texts. -/
def RelayStore.put (s : RelayStore) : StoreWrite → RelayStore
  | .provider key => { s with provider := bindText key }
  | .storage c =>
      let c := (s.setStorage c).storage
      { s with
        storage :=
          { c with
            endpointHost := bindText c.endpointHost
            r2AccountId := bindText c.r2AccountId
            bucket := bindText c.bucket
            accessKeyId := bindText c.accessKeyId
            secretAccessKey := bindText c.secretAccessKey
            region := bindText c.region } }
  | .lan c =>
      { s with lan := { c with host := bindText c.host, authToken := bindText c.authToken } }
  | .room r => { s with room := { r with roomId := bindText r.roomId } }
  | w => (RelayHost.write { store := s } w).store

/-! ### The request -/

/-- What a request is answered. -/
inductive ConfigAnswer where
  | ok
  | failed (code : ℕ) (message : String)
  deriving DecidableEq, Repr

/-- What is stored after a request, whether the service is reloaded, and the answer. -/
structure ConfigPut where
  store : RelayStore
  reload : Bool
  answer : ConfigAnswer
  deriving DecidableEq, Repr

open Settings in
/-- `PUT /api/config`. -/
def putConfig (parse : Bytes → Option Json) (s : RelayStore) (body : Bytes) : ConfigPut :=
  let j := bodyJson parse body
  let c := s.storage
  let (s, c) :=
    match named j with
    | some p => (s.put (.provider p.providerKey), addressed j p c)
    | none => (s, edited j c)
  let c := keyed j c
  let lan := lanOf j s.lan
  let r := roomOf j s.room
  if r.defaultDelayS < 0 ∨ 3600 < r.defaultDelayS then
    { store := s, reload := false
      answer := .failed 400 "The delay should be between 0 seconds and an hour." }
  else if r.roomId = "" then
    { store := s, reload := false
      answer := .failed 400 "Enter the feed name used at the main site." }
  else
    { store := ((s.put (.storage c)).put (.lan lan)).put (.room r), reload := true, answer := .ok }

namespace Settings

/-- The endpoint and the account id are what the rule of the provider derives from the account id
or the region, unless the provider is custom. -/
def BelongTogether (key : String) (c : S3Config) : Prop :=
  let p := StorageProvider.providerFromKey key
  let d := p.derive (if p = .cloudflareR2 then c.r2AccountId else c.region)
  p ≠ .custom → c.endpointHost = d.endpointHost ∧ c.r2AccountId = d.r2AccountId ∧
    c.region = if d.region = "" then "auto" else d.region

instance (key : String) (c : S3Config) : Decidable (BelongTogether key c) :=
  inferInstanceAs (Decidable (_ ≠ _ → _))

/-- What is stored of an address: its texts up to a NUL, and no region as `auto`. -/
structure Holds (t : RelayStore) (endpointHost r2AccountId region : String) : Prop where
  endpointHost : t.storage.endpointHost = bindText endpointHost
  r2AccountId : t.storage.r2AccountId = bindText r2AccountId
  region : t.storage.region = bindText (if region = "" then "auto" else region)

/-- What an accepted body stores of the provider and its address. -/
def Stores (s : RelayStore) (j : Json) (t : RelayStore) : Prop :=
  match named j with
  | none =>
      t.provider = s.provider ∧
        Holds t (str j "endpoint_host" s.storage.endpointHost)
          (str j "r2_account_id" s.storage.r2AccountId) (str j "region" s.storage.region)
  | some p =>
      let d := p.derive (input j p)
      t.provider = p.providerKey ∧
        (p = .custom → Holds t (str j "endpoint_host" s.storage.endpointHost) ""
          (str j "region" s.storage.region)) ∧
        (p ≠ .custom → Holds t d.endpointHost d.r2AccountId d.region) ∧
        (Bound (input j p) → (p.needsRegion = true → input j p ≠ "") →
          BelongTogether t.provider t.storage)

end Settings

/-! ### What is stored -/

namespace Settings

open StorageProvider

variable {parse : Bytes → Option Json} {s : RelayStore} {body : Bytes}

lemma bindText_of_bound {t : String} (h : Bound t) : bindText t = t := by
  have hall : t.toList.takeWhile (fun c => c.toNat ≠ 0) = t.toList :=
    List.takeWhile_eq_self_iff.mpr fun c hc => by simpa using h c hc
  rw [bindText, hall, String.ofList_toList]

lemma bound_append {t u : String} (ht : Bound t) (hu : Bound u) : Bound (t ++ u) := by
  intro c hc
  rw [String.toList_append] at hc
  rcases List.mem_append.mp hc with hc | hc
  · exact ht c hc
  · exact hu c hc

instance (t : String) : Decidable (Bound t) :=
  List.decidableBAll (fun c : Char => c.toNat ≠ 0) t.toList

lemma bindText_providerKey (p : StorageProvider) : bindText p.providerKey = p.providerKey := by
  cases p <;> decide

/-- The settings and the room of a body, refused or stored. -/
lemma putConfig_cases (parse : Bytes → Option Json) (s : RelayStore) (body : Bytes) :
    let j := bodyJson parse body
    let t := (named j).elim s fun p => s.put (.provider p.providerKey)
    let c := keyed j ((named j).elim (edited j s.storage) fun p => addressed j p s.storage)
    (∃ message, putConfig parse s body =
      { store := t, reload := false, answer := .failed 400 message }) ∨
    putConfig parse s body =
      { store := ((t.put (.storage c)).put (.lan (lanOf j s.lan))).put (.room (roomOf j s.room))
        reload := true
        answer := .ok } := by
  dsimp only
  rw [putConfig]
  cases named (bodyJson parse body) with
  | none =>
      dsimp only [Option.elim]
      split
      · exact Or.inl ⟨_, rfl⟩
      · split
        · exact Or.inl ⟨_, rfl⟩
        · exact Or.inr rfl
  | some p =>
      dsimp only [Option.elim]
      split
      · exact Or.inl ⟨_, rfl⟩
      · split
        · exact Or.inl ⟨_, rfl⟩
        · exact Or.inr rfl

/-- **The writes are those of a request of the service**, or there are none. -/
lemma putConfig_writes :
    ((putConfig parse s body).store = s ∧ (putConfig parse s body).reload = false) ∨
      ∃ (r : ServiceRequest) (ws : List StoreWrite),
        r.call = .writes ws (putConfig parse s body).reload ∧
          (putConfig parse s body).store = ws.foldl RelayStore.put s := by
  rcases putConfig_cases parse s body with ⟨message, h⟩ | h
  · rw [h]
    cases named (bodyJson parse body) with
    | none => exact Or.inl ⟨rfl, rfl⟩
    | some p => exact Or.inr ⟨.refusedConfig p.providerKey, _, rfl, rfl⟩
  · rw [h]
    cases named (bodyJson parse body) with
    | none => exact Or.inr ⟨.config none _ _ _, _, rfl, rfl⟩
    | some p => exact Or.inr ⟨.config (some p.providerKey) _ _ _, _, rfl, rfl⟩

lemma holds_put (s t : RelayStore) (j : Json) (c : S3Config) (lan : LanConfig)
    (r : RoomSettings)
    (h : t = ((s.put (.storage (keyed j c))).put (.lan lan)).put (.room r)) :
    Holds t c.endpointHost c.r2AccountId c.region := by
  subst h
  refine ⟨rfl, rfl, ?_⟩
  show bindText (if (if c.region = "" then "auto" else c.region) = "" then "auto"
    else if c.region = "" then "auto" else c.region) = _
  split_ifs <;> rfl

lemma bindText_site {typed host : String} (h : Bound typed) (hhost : Bound host) :
    bindText ("s3." ++ typed ++ host) = "s3." ++ typed ++ host :=
  bindText_of_bound (bound_append (bound_append (by decide) h) hhost)

/-- What a rule derives of a typed text goes together as it is stored. -/
lemma belongTogether_of_holds {t : RelayStore} {p : StorageProvider} {typed : String}
    (hp : t.provider = p.providerKey) (hbound : Bound typed)
    (htyped : p.needsRegion = true → typed ≠ "")
    (h : p ≠ .custom → Holds t (p.derive typed).endpointHost (p.derive typed).r2AccountId
      (p.derive typed).region) :
    BelongTogether t.provider t.storage := by
  rw [BelongTogether, hp, providerFromKey_providerKey]
  intro hcustom
  obtain ⟨hend, hacc, hreg⟩ := h hcustom
  -- The providers whose endpoint names the region.
  have hsite (host : String) (hhost : Bound host) (hne : typed ≠ "")
      (hend : t.storage.endpointHost = bindText ("s3." ++ typed ++ host))
      (hreg : t.storage.region = bindText (if typed = "" then "auto" else typed)) :
      t.storage.endpointHost = "s3." ++ t.storage.region ++ host ∧
        t.storage.region = if t.storage.region = "" then "auto" else t.storage.region := by
    rw [if_neg hne, bindText_of_bound hbound] at hreg
    rw [hend, hreg, bindText_site hbound hhost, if_neg hne]
    exact ⟨rfl, rfl⟩
  have hauto : bindText "auto" = "auto" := bindText_of_bound (by decide)
  cases p with
  | custom => exact absurd rfl hcustom
  | cloudflareR2 => exact ⟨hend, rfl, hreg.trans hauto⟩
  | multisiteCloud => exact ⟨hend, hacc, hreg.trans hauto⟩
  | awsS3 =>
      obtain ⟨hends, hregs⟩ := hsite _ (by decide) (htyped rfl) hend hreg
      exact ⟨hends, hacc, hregs⟩
  | backblazeB2 =>
      obtain ⟨hends, hregs⟩ := hsite _ (by decide) (htyped rfl) hend hreg
      exact ⟨hends, hacc, hregs⟩
  | wasabi =>
      obtain ⟨hends, hregs⟩ := hsite _ (by decide) (htyped rfl) hend hreg
      exact ⟨hends, hacc, hregs⟩

/-- What a body with a provider stores. -/
lemma stores_of_named {j : Json} {p : StorageProvider} {t : RelayStore} {lan : LanConfig}
    {r : RoomSettings} (hp : named j = some p)
    (ht : t = (((s.put (.provider p.providerKey)).put
      (.storage (keyed j (addressed j p s.storage)))).put (.lan lan)).put (.room r)) :
    Stores s j t := by
  have hprovider : t.provider = p.providerKey := by
    rw [ht]
    exact bindText_providerKey p
  have hheld := holds_put _ t j _ lan r ht
  have hcustom (h : p = .custom) :
      Holds t (str j "endpoint_host" s.storage.endpointHost) ""
        (str j "region" s.storage.region) := by
    rw [addressed, if_pos h] at hheld
    exact hheld
  have hderived (h : p ≠ .custom) :
      Holds t (p.derive (input j p)).endpointHost (p.derive (input j p)).r2AccountId
        (p.derive (input j p)).region := by
    rw [addressed, if_neg h] at hheld
    exact hheld
  rw [Stores, hp]
  exact ⟨hprovider, hcustom, hderived, fun hbound htyped =>
    belongTogether_of_holds hprovider hbound htyped hderived⟩

/-- What an accepted body stores. -/
lemma stores_of_ok (h : (putConfig parse s body).answer = .ok) :
    (putConfig parse s body).reload = true ∧
      Stores s (bodyJson parse body) (putConfig parse s body).store := by
  rcases putConfig_cases parse s body with ⟨message, hput⟩ | hput
  · rw [hput] at h
    cases h
  rw [hput]
  refine ⟨rfl, ?_⟩
  cases hp : named (bodyJson parse body) with
  | none =>
      rw [Stores, hp]
      exact ⟨rfl, holds_put _ _ _ _ _ _ rfl⟩
  | some p => exact stores_of_named hp rfl

/-- What a refused body leaves. -/
lemma kept_of_failed {code : ℕ} {message : String}
    (h : (putConfig parse s body).answer = .failed code message) :
    (putConfig parse s body).reload = false ∧
      { (putConfig parse s body).store with provider := s.provider } = s ∧
      (named (bodyJson parse body) = none → (putConfig parse s body).store = s) := by
  rcases putConfig_cases parse s body with ⟨message', hput⟩ | hput
  · rw [hput]
    cases named (bodyJson parse body) with
    | none => exact ⟨rfl, rfl, fun _ => rfl⟩
    | some p => exact ⟨rfl, rfl, fun hnone => by cases hnone⟩
  · rw [hput] at h
    cases h

end Settings

/-- **A refused settings change leaves the storage, the LAN path and the room** as they were and
does not reload, and one that names no provider leaves everything.  An accepted one reloads, and
what it stores of the provider and its address is what the provider's rule derives from what the
body types; a body that names no provider edits the address and leaves the provider. -/
theorem putConfig_whole (parse : Bytes → Option Json) (s : RelayStore) (body : Bytes) :
    (∀ message, (putConfig parse s body).answer = .failed 400 message →
      (putConfig parse s body).reload = false ∧
        { (putConfig parse s body).store with provider := s.provider } = s ∧
        (Settings.named (Settings.bodyJson parse body) = none →
          (putConfig parse s body).store = s)) ∧
    ((putConfig parse s body).answer = .ok →
      (putConfig parse s body).reload = true ∧
        Settings.Stores s (Settings.bodyJson parse body) (putConfig parse s body).store) :=
  ⟨fun _ h => Settings.kept_of_failed h, Settings.stores_of_ok⟩

/-! ### Two bodies -/

open Http (bytesOf)

/-- A relay with a bucket of a region. -/
def sampleRegional : RelayStore :=
  { provider := "aws"
    storage := { endpointHost := "s3.eu-west-1.amazonaws.com", region := "eu-west-1" } }

/-- A body with another provider and no room. -/
def sampleRefused : Bytes :=
  bytesOf "\x7b\"storage_provider\":\"custom\",\"room_id\":\"\"\x7d"

/-- A body with another region alone. -/
def sampleRegion : Bytes := bytesOf "\x7b\"region\":\"us-east-1\"\x7d"

/-- The two, parsed. -/
def sampleParse (body : Bytes) : Option Json :=
  if body = sampleRefused then
    some (.obj [("storage_provider", .str "custom"), ("room_id", .str "")])
  else if body = sampleRegion then some (.obj [("region", .str "us-east-1")])
  else none

/-- A refused body has its provider saved; and an accepted one leaves the provider with another
region and the endpoint of the old one. -/
theorem changed_by_refusal :
    ((putConfig sampleParse sampleRegional sampleRefused).answer =
        .failed 400 "Enter the feed name used at the main site." ∧
      (putConfig sampleParse sampleRegional sampleRefused).store.provider = "custom" ∧
      (putConfig sampleParse sampleRegional sampleRefused).store ≠ sampleRegional) ∧
    Settings.BelongTogether sampleRegional.provider sampleRegional.storage ∧
    (putConfig sampleParse sampleRegional sampleRegion).answer = .ok ∧
    ¬ Settings.BelongTogether (putConfig sampleParse sampleRegional sampleRegion).store.provider
      (putConfig sampleParse sampleRegional sampleRegion).store.storage := by
  refine ⟨⟨?_, ?_, ?_⟩, ?_, ?_, ?_⟩ <;> decide +kernel

end Multisite

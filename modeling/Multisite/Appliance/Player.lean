import Multisite.Service.Host

/-!
The campus player taking new settings (`appliance/player.cpp`, `appliance/config.h`):
`store_config` and `reconfigure`, which compares a list of fields to decide whether what it
receives with is built again, and `rebuild_session`, which builds it.

* `inForce_iff`: a player whose settings are in force, given others, has those in force exactly
  when a listed field moves, or what is read without being listed stays;
* `store_untouched`: what is not read at all never touches the session.
-/

namespace Multisite

/-! ### The settings -/

/-- `OutputSpec`. -/
structure OutputSpec where
  connector : String := ""
  tile : ℤ := -1
  deriving DecidableEq, Repr

/-- The fields of `Config` that `reconfigure` and `rebuild_session` read. -/
structure PlayerConfig where
  storageProvider : String := ""
  endpointHost : String := ""
  r2AccountId : String := ""
  bucket : String := ""
  accessKeyId : String := ""
  secretAccessKey : String := ""
  region : String := "auto"
  lanHost : String := ""
  lanPort : ℤ := 9080
  lanAuthToken : String := ""
  reporterUrl : String := ""
  reporterApplianceId : String := ""
  reporterToken : String := ""
  roomId : String := "main-auditorium"
  siteName : String := ""
  pinnedEventId : String := ""
  followNextEvent : Bool := true
  prebufferSegments : ℤ := 2
  startBufferSeconds : ℤ := 60
  keepBehindSegments : ℤ := 200
  bufferMinutes : ℤ := 10
  maxCachedSegments : ℤ := 2000
  staleAfterMs : ℤ := 600000
  cacheDir : String := "/var/lib/multisite-player/cache"
  drmCard : String := ""
  connector : String := ""
  outWidth : ℤ := 0
  outHeight : ℤ := 0
  outFps : ℤ := 0
  outputs : List OutputSpec := []
  alsaDevice : String := "default"
  audioChannels : ℤ := 0
  aes67Manage : Bool := false
  aes67Channels : ℤ := 8
  deriving DecidableEq, Repr

namespace PlayerConfig

variable (c : PlayerConfig)

/-- The three fields of the saved pairing. -/
def pairing : Enrolment :=
  { url := c.reporterUrl, id := c.reporterApplianceId, token := c.reporterToken }

/-- `cloud_configured`. -/
def cloudConfigured : Bool := c.bucket ≠ "" && (c.endpointHost ≠ "" || c.r2AccountId ≠ "")

/-- `paired_configured`. -/
def pairedConfigured : Bool := c.storageProvider = "multisite_cloud" && c.pairing.paired

/-- `lan_configured`. -/
def lanConfigured : Bool := c.lanHost ≠ ""

/-- `configured`. -/
def configured : Bool := c.cloudConfigured || c.lanConfigured || c.pairedConfigured

/-- The typed keys, as `rebuild_session` fills `S3Config`. -/
def typed : S3Config :=
  { endpointHost := c.endpointHost
    r2AccountId := c.r2AccountId
    bucket := c.bucket
    accessKeyId := c.accessKeyId
    secretAccessKey := c.secretAccessKey
    region := c.region }

/-- `paired_for_storage`, where credentials are held or not. -/
def pairedForStorage (present : Bool) : Bool := c.pairedConfigured && present

end PlayerConfig

/-! ### What is built -/

/-- `DecoderConfig` as the player fills it; of the two functions, that they are there. -/
structure PlayerSession where
  roomId : String
  cacheDir : String
  prebufferSegments : ℤ
  startBufferSeconds : ℤ
  bufferMinutes : ℤ
  maxCachedSegments : ℤ
  keepBehindSegments : ℤ
  staleAfterMs : ℤ
  pinnedEventId : String
  holdFinishedEvent : Bool
  authorName : String
  canAuthorCues : Bool
  cueTarget : Bool
  cueHub : Bool
  deriving DecidableEq, Repr

/-- `m_transport`, `m_cloud_transport`, `m_lan_transport`, `m_session` and `m_catalog`, each by
what it was made with.  `FallbackTransport` is there where the LAN's and a cloud's are. -/
structure ReceivePath where
  first : Option S3Config := none
  cloud : Option CloudStorageConfig := none
  lan : Option LanConfig := none
  session : Option PlayerSession := none
  catalog : Option (String × ℤ) := none
  deriving DecidableEq, Repr

namespace PlayerConfig

variable (c : PlayerConfig) (present : Bool)

/-- Whether the typed keys are read with. -/
def readsTyped : Bool := !c.pairedForStorage present && c.cloudConfigured

/-- There is something to read through. -/
def reads : Bool := c.pairedForStorage present || c.cloudConfigured || c.lanConfigured

/-- The `DecoderConfig`. -/
def session : PlayerSession :=
  { roomId := c.roomId
    cacheDir := c.cacheDir
    prebufferSegments := c.prebufferSegments
    startBufferSeconds := c.startBufferSeconds
    bufferMinutes := c.bufferMinutes
    maxCachedSegments := c.maxCachedSegments
    keepBehindSegments := c.keepBehindSegments
    staleAfterMs := c.staleAfterMs
    pinnedEventId := c.pinnedEventId
    holdFinishedEvent := !c.followNextEvent
    authorName := c.siteName
    canAuthorCues := c.siteName ≠ "" && c.configured
    cueTarget := c.pairedForStorage present
    cueHub := c.lanConfigured && !c.readsTyped present }

/-- What `rebuild_session` builds, where credentials are held or not. -/
def received : ReceivePath :=
  if !c.configured then {}
  else
    { first := if c.readsTyped present then some c.typed else none
      cloud := if c.pairedForStorage present then some { region := c.region } else none
      lan := if c.lanConfigured then
          some { host := c.lanHost, port := c.lanPort, authToken := c.lanAuthToken }
        else none
      session := if c.reads present then some (c.session present) else none
      catalog := if c.pairedForStorage present || c.readsTyped present then
          some (c.roomId, c.staleAfterMs)
        else none }

end PlayerConfig

/-! ### The player -/

/-- The collector, by what it answers to a request with an enrolment: a body and a status, unless
it is not reached. -/
structure Collector where
  parse : String → Option Json
  answer : Enrolment → Option (String × ℤ)

/-- The reply `serve_cloud_credentials` takes from the answer. -/
def Collector.reply (k : Collector) (e : Enrolment) : CredentialsReply :=
  match k.answer e with
  | none => {}
  | some (body, code) => cloudParseCredentials k.parse body code

/-- `Player`.  `built` counts the calls of `rebuild_session`, and `torn` those of
`teardown_decoder`. -/
structure Player where
  cfg : PlayerConfig
  identity : CloudIdentity := {}
  received : ReceivePath := {}
  built : ℕ := 0
  torn : ℕ := 0
  /-- What the display was last reset with, and whether the sound is to be opened again. -/
  display : Option PlayerConfig := none
  audioReopen : Bool := false
  deriving DecidableEq, Repr

/-- `adopt_saved_pairing`. -/
def adoptSavedPairing (x : CloudIdentity) (c : PlayerConfig) : CloudIdentity :=
  if !c.pairing.paired then
    if x.paired then x.reset else x
  else if x.enrolment.paired = true ∧ x.enrolment = c.pairing then x
  else x.setEnrolment c.reporterUrl c.reporterApplianceId c.reporterToken

namespace Player

variable (p : Player) (cfg : PlayerConfig)

/-- `rebuild_session`. -/
def rebuildSession : Player :=
  if !p.cfg.configured then { p with received := {}, built := p.built + 1 }
  else
    let identity := adoptSavedPairing p.identity p.cfg
    { p with
      identity
      received := p.cfg.received identity.creds.present
      built := p.built + 1 }

/-- `receive_changed`. -/
def receiveChanged (before cfg : PlayerConfig) : Bool :=
  before.storageProvider ≠ cfg.storageProvider || before.endpointHost ≠ cfg.endpointHost ||
    before.r2AccountId ≠ cfg.r2AccountId || before.bucket ≠ cfg.bucket ||
    before.accessKeyId ≠ cfg.accessKeyId || before.secretAccessKey ≠ cfg.secretAccessKey ||
    before.region ≠ cfg.region || before.lanHost ≠ cfg.lanHost ||
    before.lanPort ≠ cfg.lanPort || before.lanAuthToken ≠ cfg.lanAuthToken ||
    before.roomId ≠ cfg.roomId || before.cacheDir ≠ cfg.cacheDir ||
    before.prebufferSegments ≠ cfg.prebufferSegments ||
    before.startBufferSeconds ≠ cfg.startBufferSeconds ||
    before.bufferMinutes ≠ cfg.bufferMinutes ||
    before.keepBehindSegments ≠ cfg.keepBehindSegments ||
    before.maxCachedSegments ≠ cfg.maxCachedSegments ||
    before.staleAfterMs ≠ cfg.staleAfterMs

/-- `display_changed`. -/
def displayChanged (before cfg : PlayerConfig) : Bool :=
  before.drmCard ≠ cfg.drmCard || before.connector ≠ cfg.connector ||
    before.outWidth ≠ cfg.outWidth || before.outHeight ≠ cfg.outHeight ||
    before.outFps ≠ cfg.outFps || before.outputs ≠ cfg.outputs

/-- The four that the card is opened by. -/
def soundChanged (before cfg : PlayerConfig) : Bool :=
  before.alsaDevice ≠ cfg.alsaDevice || before.audioChannels ≠ cfg.audioChannels ||
    before.aes67Manage ≠ cfg.aes67Manage || before.aes67Channels ≠ cfg.aes67Channels

/-- `reconfigure`. -/
def reconfigure : Player :=
  let before := p.cfg
  let p := { p with
    cfg
    display := if displayChanged before cfg then some cfg else p.display
    audioReopen := p.audioReopen || soundChanged before cfg }
  if !receiveChanged before cfg then p
  else rebuildSession { p with torn := p.torn + 1 }

/-- `store_config`; nothing happens when the file cannot be written. -/
def storeConfig (written : Bool) : Option Player :=
  if written then some (p.reconfigure cfg) else none

/-- `start`. -/
def start : Player := rebuildSession { cfg }

/-- `serve_cloud_credentials`, with the collector's answer for the pairing held, and the receive
loop's rebuilding where storage moves. -/
def fetch (k : Collector) (nowMs : ℤ) : Player :=
  if p.identity.tick nowMs ≠ .fetch then p
  else
    let r := k.reply p.identity.enrolment
    let q := { p with identity := p.identity.onCredentials r nowMs }
    if p.cfg.storageProvider = "multisite_cloud" ∧
        credentialsMoveStorage p.identity.creds.bucket r = true then
      rebuildSession { q with torn := q.torn + 1 }
    else q

variable (k : Collector) (nowMs : ℤ)

/-- A player started afresh, once it has asked for credentials. -/
def fresh : Player := (start cfg).fetch k nowMs

/-- The player receives as one started afresh with its settings: the same transports, session and
catalog, and the same enrolment and bucket in its identity. -/
structure InForce : Prop where
  received : p.received = (fresh p.cfg k nowMs).received
  enrolment : p.identity.enrolment = (fresh p.cfg k nowMs).identity.enrolment
  bucket : p.identity.creds.bucket = (fresh p.cfg k nowMs).identity.creds.bucket
  accepts : p.identity.requireReadOnly = false

/-- Only settings that decide where picture and sound come out differ. -/
def OutputsOnly (before after : PlayerConfig) : Prop :=
  after = { before with
    drmCard := after.drmCard
    connector := after.connector
    outWidth := after.outWidth
    outHeight := after.outHeight
    outFps := after.outFps
    outputs := after.outputs
    alsaDevice := after.alsaDevice
    audioChannels := after.audioChannels
    aes67Manage := after.aes67Manage
    aes67Channels := after.aes67Channels }

/-- The enrolment a player started with the settings holds. -/
def enrolledBy (c : PlayerConfig) : Enrolment :=
  if c.configured && c.pairing.paired then c.pairing else {}

/-- The bucket the collector names for an enrolment. -/
def bucketFor (e : Enrolment) : String :=
  if e.paired then
    ((CloudIdentity.setEnrolment {} e.url e.id e.token).onCredentials
      (k.reply e) nowMs).creds.bucket
  else ""

/-- When a player with the settings `before` in force has those of `after` in force once it is
given them: a listed field moves and the session is built again, which takes over the pairing
only where something is configured; or none moves, and neither does the pairing, nor what a session
is made with that is not listed. -/
def TakesOver (before after : PlayerConfig) : Prop :=
  if receiveChanged before after then after.configured = true ∨ enrolledBy before = {}
  else enrolledBy before = enrolledBy after ∧
    (after.reads (bucketFor k nowMs (enrolledBy after) ≠ "") = true →
      before.pinnedEventId = after.pinnedEventId ∧
        before.followNextEvent = after.followNextEvent ∧ before.siteName = after.siteName)

/-! ### Taking over a pairing -/

section Adopt

variable {x : CloudIdentity} {c : PlayerConfig}

lemma paired_enrolment (x : CloudIdentity) : x.enrolment.paired = x.paired := by
  rw [Enrolment.paired, CloudIdentity.paired, CloudIdentity.enrolment]
  cases decide (x.url ≠ "") <;> cases decide (x.id ≠ "") <;> cases decide (x.token ≠ "") <;> rfl

/-- The identity follows the saved pairing. -/
lemma enrolment_adopt (hx : x.paired = false → x.enrolment = {}) :
    (adoptSavedPairing x c).enrolment = if c.pairing.paired then c.pairing else {} := by
  rw [adoptSavedPairing]
  cases hc : c.pairing.paired with
  | false =>
      rw [if_pos (by simp)]
      split
      · rfl
      · rename_i hno
        simpa using hx (by simpa using hno)
  | true =>
      rw [if_neg (by simp)]
      split
      · rename_i heq
        simpa using heq.2
      · rfl

/-- It is left alone where it holds the pairing already. -/
lemma adopt_self (h : x.enrolment = if c.pairing.paired then c.pairing else {}) :
    adoptSavedPairing x c = x := by
  rw [adoptSavedPairing]
  cases hc : c.pairing.paired with
  | false =>
      rw [hc] at h
      rw [if_pos (by simp), if_neg]
      rw [← paired_enrolment, h, if_neg Bool.false_ne_true]
      decide
  | true =>
      rw [hc] at h
      rw [if_neg (by simp), if_pos ⟨by rw [h]; simpa using hc, by simpa using h⟩]

@[simp] lemma requireReadOnly_adopt :
    (adoptSavedPairing x c).requireReadOnly = x.requireReadOnly := by
  rw [adoptSavedPairing]
  split
  · split <;> rfl
  · split <;> rfl

end Adopt

/-! ### Asking for credentials -/

section Fetch

variable {p : Player} {c : PlayerConfig} {x : CloudIdentity} {r : CredentialsReply}
  {k : Collector} {nowMs : ℤ}

lemma bucket_onCredentials (h : x.requireReadOnly = false) :
    (x.onCredentials r nowMs).creds.bucket =
      if r.ok && !r.unpaired then r.creds.bucket else x.creds.bucket := by
  rw [CloudIdentity.onCredentials, h]
  cases r.unpaired <;> cases r.ok <;> cases x.creds.present <;> rfl

lemma enrolment_onCredentials : (x.onCredentials r nowMs).enrolment = x.enrolment := by
  rw [CloudIdentity.onCredentials]
  split_ifs <;> rfl

lemma requireReadOnly_onCredentials :
    (x.onCredentials r nowMs).requireReadOnly = x.requireReadOnly := by
  rw [CloudIdentity.onCredentials]
  split_ifs <;> rfl

/-- A refusal carries no credentials. -/
lemma ok_reply_of_unpaired {e : Enrolment} (h : (k.reply e).unpaired = true) :
    (k.reply e).ok = false := by
  rw [Collector.reply] at h ⊢
  split at h
  · rfl
  · rename_i body code hanswer
    rw [cloudParseCredentials] at h ⊢
    by_cases h403 : code = 403
    · rw [if_pos h403]
    · rw [if_neg h403] at h
      exfalso
      revert h
      split_ifs
      · simp
      · cases k.parse body with
        | none => simp
        | some j =>
            dsimp only
            split_ifs <;> simp

lemma bucketFor_of_paired {e : Enrolment} (he : e.paired = true) :
    bucketFor k nowMs e =
      if (k.reply e).ok && !(k.reply e).unpaired then (k.reply e).creds.bucket else "" := by
  rw [bucketFor, if_pos he, bucket_onCredentials rfl]
  rfl

/-- Nothing has been asked for the enrolment, or what the collector named is held. -/
def Held (k : Collector) (nowMs : ℤ) (x : CloudIdentity) : Prop :=
  x.creds.bucket = "" ∧ x.nextFetchAtMs = 0 ∧ x.unpaired = false ∨
    x.creds.bucket = bucketFor k nowMs x.enrolment

/-- Without Multisite Cloud as the storage, credentials decide nothing. -/
lemma received_of_ne (h : c.storageProvider ≠ "multisite_cloud") (a b : Bool) :
    c.received a = c.received b := by
  have hp (a : Bool) : c.pairedForStorage a = false := by
    rw [PlayerConfig.pairedForStorage, PlayerConfig.pairedConfigured, decide_eq_false h]
    rfl
  simp only [PlayerConfig.received, PlayerConfig.readsTyped, PlayerConfig.reads,
    PlayerConfig.session, hp]

lemma received_of_not_configured (h : c.configured = false) (a : Bool) : c.received a = {} := by
  rw [PlayerConfig.received, h]
  rfl

/-- What `rebuild_session` makes of a player whose identity has taken the pairing over. -/
lemma rebuildSession_of_adopted (h : p.cfg.configured = true →
    p.identity.enrolment = if p.cfg.pairing.paired then p.cfg.pairing else {}) :
    p.rebuildSession =
      { p with
        received := p.cfg.received p.identity.creds.present
        built := p.built + 1 } := by
  rw [rebuildSession]
  cases hc : p.cfg.configured with
  | false =>
      rw [if_pos (by simp), received_of_not_configured hc]
  | true =>
      rw [if_neg (by simp)]
      dsimp only
      rw [adopt_self (h hc)]

variable (k nowMs) in
/-- **Asking once** leaves the player with what the collector names for the enrolment, and with
what is built on that. -/
lemma fetch_spec (hread : p.identity.requireReadOnly = false)
    (hheld : Held k nowMs p.identity)
    (hbuilt : p.received = p.cfg.received p.identity.creds.present)
    (hadopted : p.cfg.configured = true →
      p.identity.enrolment = if p.cfg.pairing.paired then p.cfg.pairing else {}) :
    (p.fetch k nowMs).cfg = p.cfg ∧
      (p.fetch k nowMs).received =
        p.cfg.received (bucketFor k nowMs p.identity.enrolment ≠ "") ∧
      (p.fetch k nowMs).identity.enrolment = p.identity.enrolment ∧
      (p.fetch k nowMs).identity.creds.bucket =
        bucketFor k nowMs p.identity.enrolment ∧
      (p.fetch k nowMs).identity.requireReadOnly = false := by
  rw [fetch]
  split
  · -- nothing is asked: what is held is what the collector named
    rename_i htick
    have hbucket : p.identity.creds.bucket = bucketFor k nowMs p.identity.enrolment := by
      rcases hheld with ⟨hempty, hnext, hun⟩ | hb
      · have hunpaired : p.identity.paired = false := by
          by_contra hp
          refine htick ?_
          rw [CloudIdentity.tick, Bool.eq_true_of_not_eq_false hp, hun, hnext]
          rfl
        rw [hempty, bucketFor, paired_enrolment, hunpaired]
        rfl
      · exact hb
    refine ⟨rfl, ?_, rfl, hbucket, hread⟩
    rw [hbuilt, Credentials.present, hbucket]
  · rename_i htick
    have hpaired : p.identity.enrolment.paired = true := by
      rw [paired_enrolment]
      by_contra hp
      rw [CloudIdentity.tick, Bool.eq_false_of_not_eq_true hp] at htick
      exact htick (by simp)
    have hbucket : (p.identity.onCredentials (k.reply p.identity.enrolment) nowMs).creds.bucket =
        bucketFor k nowMs p.identity.enrolment := by
      rw [bucket_onCredentials hread, bucketFor_of_paired hpaired]
      split
      · rfl
      · rename_i hno
        rcases hheld with ⟨hempty, -, -⟩ | hb
        · exact hempty
        · rw [hb, bucketFor_of_paired hpaired, if_neg hno]
    dsimp only
    split
    · -- storage has moved: the session is built again
      have hrebuild := rebuildSession_of_adopted
        (p := { p with
          identity := p.identity.onCredentials (k.reply p.identity.enrolment) nowMs
          torn := p.torn + 1 })
        fun hc => enrolment_onCredentials.trans (hadopted hc)
      rw [hrebuild]
      refine ⟨rfl, ?_, enrolment_onCredentials, hbucket, ?_⟩
      · show p.cfg.received (Credentials.present _) = _
        rw [Credentials.present, hbucket]
      · exact requireReadOnly_onCredentials.trans hread
    · rename_i hstay
      refine ⟨rfl, ?_, enrolment_onCredentials, hbucket,
        requireReadOnly_onCredentials.trans hread⟩
      show p.received = _
      rw [hbuilt]
      by_cases hprovider : p.cfg.storageProvider = "multisite_cloud"
      · -- it has not moved, so what is held is what was
        have hsame : p.identity.creds.bucket =
            bucketFor k nowMs p.identity.enrolment := by
          rw [← hbucket, bucket_onCredentials hread]
          split
          · rename_i hok
            rw [Bool.and_eq_true] at hok
            by_contra hne
            have hempty : (k.reply p.identity.enrolment).creds.bucket = "" := by
              by_contra hbne
              refine hstay ⟨hprovider, ?_⟩
              have hmoved : (k.reply p.identity.enrolment).creds.bucket ≠
                  p.identity.creds.bucket := fun h => hne h.symm
              simp [credentialsMoveStorage, hok.1, hbne, hmoved]
            refine hne ?_
            rcases hheld with ⟨h, -, -⟩ | hb
            · rw [h, hempty]
            · rw [hb, bucketFor_of_paired hpaired, if_pos (by rw [hok.1, hok.2]; rfl)]
          · rfl
        rw [Credentials.present, hsame]
      · exact received_of_ne hprovider _ _

lemma enrolment_unpaired {e : Enrolment} (h : e = {} ∨ e.paired = true) (hx : x.enrolment = e) :
    x.paired = false → x.enrolment = {} := by
  intro hp
  rcases h with rfl | h
  · exact hx
  · rw [← paired_enrolment, hx, h] at hp
    exact absurd hp (by simp)

lemma enrolledBy_cases (c : PlayerConfig) : enrolledBy c = {} ∨ (enrolledBy c).paired = true := by
  rw [enrolledBy]
  split
  · rename_i h
    exact Or.inr (Bool.and_eq_true _ _ ▸ h).2
  · exact Or.inl rfl

/-- Taking a pairing over loses nothing that is held for it, and asks anew for another. -/
lemma held_adopt (h : Held k nowMs x) :
    Held k nowMs (adoptSavedPairing x c) := by
  by_cases heq : x.enrolment = if c.pairing.paired then c.pairing else {}
  · rw [adopt_self heq]
    exact h
  · rw [adoptSavedPairing]
    split
    · rename_i hc
      split
      · exact Or.inl ⟨rfl, rfl, rfl⟩
      · exact h
    · rename_i hc
      split
      · exact h
      · exact Or.inl ⟨rfl, rfl, rfl⟩

/-- What a player started afresh comes to. -/
lemma fresh_spec (k : Collector) (nowMs : ℤ) (c : PlayerConfig) :
    (fresh c k nowMs).cfg = c ∧
      (fresh c k nowMs).received =
        c.received (bucketFor k nowMs (enrolledBy c) ≠ "") ∧
      (fresh c k nowMs).identity.enrolment = enrolledBy c ∧
      (fresh c k nowMs).identity.creds.bucket = bucketFor k nowMs (enrolledBy c) ∧
      (fresh c k nowMs).identity.requireReadOnly = false := by
  have hheld : Held k nowMs ({} : CloudIdentity) := Or.inl ⟨rfl, rfl, rfl⟩
  rw [fresh]
  cases hc : c.configured with
  | false =>
      have hstart : start c = { cfg := c, built := 1 } := by
        rw [start, rebuildSession, hc]
        rfl
      have henrolled : enrolledBy c = {} := by
        rw [enrolledBy, hc]
        rfl
      have := fetch_spec (p := start c) k nowMs (by rw [hstart]) (by rw [hstart]; exact hheld)
        (by rw [hstart]; exact (received_of_not_configured hc _).symm)
        (by rw [hstart]; exact fun h => absurd (hc.symm.trans h) Bool.false_ne_true)
      rw [hstart] at this ⊢
      rw [henrolled]
      exact this
  | true =>
      have hstart : start c =
          { cfg := c
            identity := adoptSavedPairing {} c
            received := c.received (adoptSavedPairing {} c).creds.present
            built := 1 } := by
        rw [start, rebuildSession, hc]
        rfl
      have henrolled : enrolledBy c = if c.pairing.paired then c.pairing else {} := by
        rw [enrolledBy, hc, Bool.true_and]
      have hadopt := enrolment_adopt (x := {}) (c := c) fun _ => rfl
      have := fetch_spec (p := start c) k nowMs (by rw [hstart]; exact requireReadOnly_adopt)
        (by rw [hstart]; exact held_adopt hheld) (by rw [hstart])
        (by rw [hstart]; exact fun _ => hadopt)
      rw [hstart] at this ⊢
      rw [henrolled, ← hadopt]
      exact this

lemma inForce_iff_spec : p.InForce k nowMs ↔
    p.received = p.cfg.received (bucketFor k nowMs (enrolledBy p.cfg) ≠ "") ∧
      p.identity.enrolment = enrolledBy p.cfg ∧
      p.identity.creds.bucket = bucketFor k nowMs (enrolledBy p.cfg) ∧
      p.identity.requireReadOnly = false := by
  obtain ⟨-, hreceived, henrolment, hbucket, -⟩ := fresh_spec k nowMs p.cfg
  constructor
  · rintro ⟨h₁, h₂, h₃, h₄⟩
    exact ⟨h₁.trans hreceived, h₂.trans henrolment, h₃.trans hbucket, h₄⟩
  · rintro ⟨h₁, h₂, h₃, h₄⟩
    exact ⟨h₁.trans hreceived.symm, h₂.trans henrolment.symm, h₃.trans hbucket.symm, h₄⟩

variable (k nowMs) in
/-- What is held already moves nothing. -/
lemma fetch_of_held (hread : p.identity.requireReadOnly = false)
    (hb : p.identity.creds.bucket = bucketFor k nowMs p.identity.enrolment) :
    (p.fetch k nowMs).cfg = p.cfg ∧ (p.fetch k nowMs).received = p.received ∧
      (p.fetch k nowMs).identity.enrolment = p.identity.enrolment ∧
      (p.fetch k nowMs).identity.creds.bucket = p.identity.creds.bucket ∧
      (p.fetch k nowMs).identity.requireReadOnly = false := by
  rw [fetch]
  split
  · exact ⟨rfl, rfl, rfl, rfl, hread⟩
  · rename_i htick
    have hpaired : p.identity.enrolment.paired = true := by
      rw [paired_enrolment]
      by_contra hp
      rw [CloudIdentity.tick, Bool.eq_false_of_not_eq_true hp] at htick
      exact htick (by simp)
    have hok (h : (k.reply p.identity.enrolment).ok = true) :
        p.identity.creds.bucket = (k.reply p.identity.enrolment).creds.bucket := by
      have hun : (k.reply p.identity.enrolment).unpaired = false := by
        by_contra hun
        rw [ok_reply_of_unpaired (Bool.eq_true_of_not_eq_false hun)] at h
        exact Bool.false_ne_true h
      rw [hb, bucketFor_of_paired hpaired, h, hun]
      rfl
    dsimp only
    rw [if_neg]
    · refine ⟨rfl, rfl, enrolment_onCredentials, ?_, requireReadOnly_onCredentials.trans hread⟩
      rw [bucket_onCredentials hread]
      split
      · rename_i h
        rw [Bool.and_eq_true] at h
        exact (hok h.1).symm
      · rfl
    · rintro ⟨-, hmoves⟩
      rw [credentialsMoveStorage, Bool.and_eq_true, Bool.and_eq_true, decide_eq_true_iff,
        decide_eq_true_iff] at hmoves
      exact hmoves.2 (hok hmoves.1.1).symm

end Fetch

/-! ### Taking over settings -/

section TakesOver

variable {p : Player} {after : PlayerConfig} {k : Collector} {nowMs : ℤ}

lemma rebuildSession_spec (p : Player) :
    p.rebuildSession.cfg = p.cfg ∧
      p.rebuildSession.identity =
        (if p.cfg.configured then adoptSavedPairing p.identity p.cfg else p.identity) ∧
      p.rebuildSession.received = p.cfg.received p.rebuildSession.identity.creds.present := by
  rw [rebuildSession]
  cases hc : p.cfg.configured with
  | false =>
      rw [if_pos (by simp), if_neg (by simp)]
      exact ⟨rfl, rfl, (received_of_not_configured hc _).symm⟩
  | true =>
      rw [if_neg (by simp), if_pos rfl]
      exact ⟨rfl, rfl, rfl⟩

/-- A player with new settings: its session is built again, or is the one it was. -/
lemma reconfigure_spec (p : Player) (after : PlayerConfig) :
    ∃ q : Player, q.cfg = after ∧ q.identity = p.identity ∧ q.received = p.received ∧
      if receiveChanged p.cfg after then p.reconfigure after = q.rebuildSession
      else p.reconfigure after = q ∧ q.built = p.built ∧ q.torn = p.torn := by
  obtain ⟨q, hq⟩ : ∃ q : Player, q = { p with
      cfg := after
      display := if displayChanged p.cfg after then some after else p.display
      audioReopen := p.audioReopen || soundChanged p.cfg after } := ⟨_, rfl⟩
  cases hchanged : receiveChanged p.cfg after with
  | false =>
      refine ⟨q, by rw [hq], by rw [hq], by rw [hq], ?_⟩
      rw [if_neg Bool.false_ne_true, reconfigure, hchanged, hq]
      exact ⟨rfl, rfl, rfl⟩
  | true =>
      refine ⟨{ q with torn := q.torn + 1 }, by rw [hq], by rw [hq], by rw [hq], ?_⟩
      rw [if_pos rfl, reconfigure, hchanged, hq]
      rfl

/-- Where the session is built again. -/
lemma inForce_of_changed (hp : p.InForce k nowMs)
    (hchanged : receiveChanged p.cfg after = true) :
    ((p.reconfigure after).fetch k nowMs).InForce k nowMs ↔
      after.configured = true ∨ enrolledBy p.cfg = {} := by
  obtain ⟨-, henrolment, hbucket, hread⟩ := inForce_iff_spec.mp hp
  have hheld : Held k nowMs p.identity := by
    rw [Held, hbucket, henrolment]
    exact Or.inr rfl
  obtain ⟨q, hcfg, hidentity, -, hq⟩ := reconfigure_spec p after
  rw [if_pos hchanged] at hq
  obtain ⟨hrcfg, hridentity, hrreceived⟩ := rebuildSession_spec q
  rw [hcfg, hidentity] at hridentity
  rw [hcfg] at hrcfg hrreceived
  rw [← hq] at hrcfg hridentity hrreceived
  cases hc : after.configured with
  | false =>
      rw [hc, if_neg Bool.false_ne_true] at hridentity
      have henrolled : enrolledBy after = {} := by
        rw [enrolledBy, hc]
        rfl
      obtain ⟨hfcfg, hfreceived, hfenrolment, hfbucket, hfread⟩ :=
        fetch_spec (p := p.reconfigure after) k nowMs (by rw [hridentity, hread])
          (by rw [hridentity]; exact hheld) (by rw [hrcfg]; exact hrreceived)
          (by rw [hrcfg, hc]; exact fun h => absurd h Bool.false_ne_true)
      rw [hridentity, henrolment] at hfenrolment hfbucket
      rw [inForce_iff_spec, hfcfg, hrcfg, hfenrolment, hfbucket, henrolled]
      constructor
      · rintro ⟨-, h, -⟩
        exact Or.inr h
      · intro h
        rcases h with h | h
        · exact absurd h Bool.false_ne_true
        · refine ⟨?_, h, by rw [h], hfread⟩
          rw [hfreceived, hrcfg, received_of_not_configured hc, received_of_not_configured hc]
  | true =>
      rw [hc, if_pos rfl] at hridentity
      have henrolled : (p.reconfigure after).identity.enrolment = enrolledBy after := by
        rw [hridentity, enrolment_adopt (enrolment_unpaired (enrolledBy_cases p.cfg) henrolment),
          enrolledBy, hc, Bool.true_and]
      obtain ⟨hfcfg, hfreceived, hfenrolment, hfbucket, hfread⟩ :=
        fetch_spec (p := p.reconfigure after) k nowMs
          (by rw [hridentity, requireReadOnly_adopt, hread])
          (by rw [hridentity]; exact held_adopt hheld) (by rw [hrcfg]; exact hrreceived)
          (by rw [hrcfg, hc, henrolled, enrolledBy, hc, Bool.true_and]; exact fun _ => rfl)
      rw [henrolled] at hfenrolment hfbucket hfreceived
      refine iff_of_true (inForce_iff_spec.mpr ?_) (Or.inl rfl)
      rw [hfcfg, hrcfg] at *
      exact ⟨hfreceived, hfenrolment, hfbucket, hfread⟩

/-- The listed fields agree. -/
lemma eq_of_not_receiveChanged {b c : PlayerConfig} (h : receiveChanged b c = false) :
    b.typed = c.typed ∧ b.storageProvider = c.storageProvider ∧
      (b.lanHost = c.lanHost ∧ b.lanPort = c.lanPort ∧ b.lanAuthToken = c.lanAuthToken) ∧
      (b.roomId = c.roomId ∧ b.cacheDir = c.cacheDir ∧
        b.prebufferSegments = c.prebufferSegments ∧
        b.startBufferSeconds = c.startBufferSeconds ∧ b.bufferMinutes = c.bufferMinutes ∧
        b.keepBehindSegments = c.keepBehindSegments ∧
        b.maxCachedSegments = c.maxCachedSegments ∧ b.staleAfterMs = c.staleAfterMs) := by
  simp only [receiveChanged, Bool.or_eq_false_iff, decide_eq_false_iff_not, not_not,
    ne_eq] at h
  simp [PlayerConfig.typed, h]

/-- Where the listed fields agree, something is configured in both or in neither, and is read
with a pairing in both or in neither, if the enrolments agree. -/
lemma configured_of_not_receiveChanged {b c : PlayerConfig} (h : receiveChanged b c = false)
    (he : enrolledBy b = enrolledBy c) :
    b.configured = c.configured ∧
      b.pairedForStorage (bucketFor k nowMs (enrolledBy c) ≠ "") =
        c.pairedForStorage (bucketFor k nowMs (enrolledBy c) ≠ "") := by
  obtain ⟨htyped, hprovider, ⟨hlan, -, -⟩, -⟩ := eq_of_not_receiveChanged h
  have hcloud : b.cloudConfigured = c.cloudConfigured := by
    show cloudConfigured b.typed = cloudConfigured c.typed
    rw [htyped]
  have hlan' : b.lanConfigured = c.lanConfigured := by
    rw [PlayerConfig.lanConfigured, PlayerConfig.lanConfigured, hlan]
  -- a pairing that is read with configures its player, and so is held
  have hheld {x : PlayerConfig} (hx : x.pairedConfigured = true) :
      (enrolledBy x).paired = true := by
    have hp : x.pairing.paired = true := by
      rw [PlayerConfig.pairedConfigured, Bool.and_eq_true] at hx
      exact hx.2
    rw [enrolledBy, PlayerConfig.configured, hx, Bool.or_true, hp]
    exact hp
  have hof {x y : PlayerConfig} (hxy : x.storageProvider = y.storageProvider)
      (hp : (enrolledBy y).paired = true) (hx : x.pairedConfigured = true) :
      y.pairedConfigured = true := by
    rw [PlayerConfig.pairedConfigured, Bool.and_eq_true] at hx ⊢
    refine ⟨hxy ▸ hx.1, ?_⟩
    rw [enrolledBy] at hp
    split at hp
    · exact hp
    · exact absurd hp (by decide)
  have hpaired : b.pairedConfigured = c.pairedConfigured := by
    rw [Bool.eq_iff_iff]
    constructor
    · intro hb
      exact hof hprovider (he ▸ hheld hb) hb
    · intro hc
      exact hof hprovider.symm (he ▸ hheld hc) hc
  refine ⟨?_, ?_⟩
  · rw [PlayerConfig.configured, PlayerConfig.configured, hcloud, hlan', hpaired]
  · rw [PlayerConfig.pairedForStorage, PlayerConfig.pairedForStorage, hpaired]

lemma session_eq_iff {b c : PlayerConfig} {r : Bool} (h : receiveChanged b c = false)
    (hconf : b.configured = c.configured)
    (hpaired : b.pairedForStorage r = c.pairedForStorage r) :
    b.session r = c.session r ↔
      b.pinnedEventId = c.pinnedEventId ∧ b.followNextEvent = c.followNextEvent ∧
        b.siteName = c.siteName := by
  obtain ⟨htyped, -, ⟨hlan, -, -⟩, h₁, h₂, h₃, h₄, h₅, h₆, h₇, h₈⟩ := eq_of_not_receiveChanged h
  have hcloud : b.cloudConfigured = c.cloudConfigured := by
    show cloudConfigured b.typed = cloudConfigured c.typed
    rw [htyped]
  simp only [PlayerConfig.session, PlayerConfig.readsTyped, PlayerConfig.lanConfigured, hpaired,
    hconf, hcloud, hlan, h₁, h₂, h₃, h₄, h₅, h₆, h₇, h₈, PlayerSession.mk.injEq, true_and,
    Bool.not_inj_iff, and_true]
  constructor
  · rintro ⟨hp, hf, hs, -⟩
    exact ⟨hp, hf, hs⟩
  · rintro ⟨hp, hf, hs⟩
    exact ⟨hp, hf, hs, by rw [hs]⟩

lemma received_eq_iff {b c : PlayerConfig} {r : Bool} (h : receiveChanged b c = false)
    (hconf : b.configured = c.configured)
    (hpaired : b.pairedForStorage r = c.pairedForStorage r) :
    b.received r = c.received r ↔ (c.reads r = true →
      b.pinnedEventId = c.pinnedEventId ∧ b.followNextEvent = c.followNextEvent ∧
        b.siteName = c.siteName) := by
  obtain ⟨htyped, hprovider, ⟨hlan, hport, htoken⟩, hroom, -, -, -, -, -, -, hstale⟩ :=
    eq_of_not_receiveChanged h
  have hcloud : b.cloudConfigured = c.cloudConfigured := by
    show cloudConfigured b.typed = cloudConfigured c.typed
    rw [htyped]
  have hregion : b.region = c.region := congrArg S3Config.region htyped
  cases hc : c.configured with
  | false =>
      have hreads : c.reads r = false := by
        simp only [PlayerConfig.configured, Bool.or_eq_false_iff] at hc
        rw [PlayerConfig.reads, PlayerConfig.pairedForStorage, hc.1.1, hc.1.2, hc.2]
        rfl
      rw [received_of_not_configured hc, received_of_not_configured (hconf.trans hc), hreads]
      simp
  | true =>
      have hc' : b.configured = true := hconf.trans hc
      have htypes : b.readsTyped r = c.readsTyped r := by
        rw [PlayerConfig.readsTyped, PlayerConfig.readsTyped, hpaired, hcloud]
      have hlan' : b.lanConfigured = c.lanConfigured := by
        rw [PlayerConfig.lanConfigured, PlayerConfig.lanConfigured, hlan]
      have hreads : b.reads r = c.reads r := by
        rw [PlayerConfig.reads, PlayerConfig.reads, hpaired, hcloud, hlan']
      rw [← session_eq_iff h hconf hpaired, PlayerConfig.received, PlayerConfig.received, hc, hc',
        htypes, hlan', hreads, hpaired, htyped, hregion, hlan, hport, htoken, hroom, hstale]
      constructor
      · intro heq hr
        have hs := congrArg ReceivePath.session heq
        simpa [hr] using hs
      · intro hs
        cases hr : c.reads r with
        | false => rfl
        | true => rw [hs hr]

/-- Where it is the one it was. -/
lemma inForce_of_unchanged (hp : p.InForce k nowMs)
    (hchanged : receiveChanged p.cfg after = false) :
    ((p.reconfigure after).fetch k nowMs).InForce k nowMs ↔
      enrolledBy p.cfg = enrolledBy after ∧
        (after.reads (bucketFor k nowMs (enrolledBy after) ≠ "") = true →
          p.cfg.pinnedEventId = after.pinnedEventId ∧
            p.cfg.followNextEvent = after.followNextEvent ∧ p.cfg.siteName = after.siteName) := by
  obtain ⟨hreceived, henrolment, hbucket, hread⟩ := inForce_iff_spec.mp hp
  obtain ⟨q, hcfg, hidentity, hqreceived, hq⟩ := reconfigure_spec p after
  rw [hchanged, if_neg Bool.false_ne_true] at hq
  obtain ⟨hfcfg, hfreceived, hfenrolment, hfbucket, hfread⟩ :=
    fetch_of_held (p := q) k nowMs (by rw [hidentity, hread])
      (by rw [hidentity, hbucket, henrolment])
  rw [hq.1, inForce_iff_spec, hfcfg, hfreceived, hfenrolment, hfbucket, hcfg, hidentity,
    hqreceived, hreceived, henrolment, hbucket]
  constructor
  · rintro ⟨hr, he, -, -⟩
    obtain ⟨hconf, hpaired⟩ := configured_of_not_receiveChanged hchanged he
    rw [he] at hr
    exact ⟨he, (received_eq_iff hchanged hconf hpaired).mp hr⟩
  · rintro ⟨he, hr⟩
    obtain ⟨hconf, hpaired⟩ := configured_of_not_receiveChanged hchanged he
    refine ⟨?_, he, by rw [he], hfread⟩
    rw [he]
    exact (received_eq_iff hchanged hconf hpaired).mpr hr

/-- What only decides where picture and sound come out moves no listed field. -/
lemma not_receiveChanged_of_outputsOnly {b c : PlayerConfig} (h : OutputsOnly b c) :
    receiveChanged b c = false := by
  rw [OutputsOnly] at h
  rw [h]
  simp [receiveChanged]

/-- **Settings that are not read by what receives leave it alone.** -/
lemma store_untouched {q : Player} {written : Bool} (h : OutputsOnly p.cfg after)
    (hq : p.storeConfig after written = some q) :
    q.built = p.built ∧ q.torn = p.torn ∧ q.received = p.received ∧ q.identity = p.identity := by
  rw [storeConfig] at hq
  split at hq
  · cases hq
    obtain ⟨r, -, hidentity, hreceived, hr⟩ := reconfigure_spec p after
    rw [not_receiveChanged_of_outputsOnly h, if_neg Bool.false_ne_true] at hr
    rw [hr.1]
    exact ⟨hr.2.1, hr.2.2, hreceived, hidentity⟩
  · cases hq

end TakesOver

end Player

open Player in
/-- **Saved settings are in force** exactly when `TakesOver` holds of them and the ones before:
then the player receives as one started afresh with them.  Settings that are not read by what
receives never touch it. -/
theorem inForce_iff {k : Collector} {nowMs : ℤ} {p q : Player} {after : PlayerConfig}
    {written : Bool} (hp : p.InForce k nowMs) (hq : p.storeConfig after written = some q) :
    ((q.fetch k nowMs).InForce k nowMs ∧
      (OutputsOnly p.cfg after → q.built = p.built ∧ q.torn = p.torn ∧ q.received = p.received ∧
        q.identity = p.identity)) ↔ TakesOver k nowMs p.cfg after := by
  have huntouched (h : OutputsOnly p.cfg after) := store_untouched h hq
  rw [storeConfig] at hq
  split at hq
  · cases hq
    rw [TakesOver, and_iff_left huntouched]
    split
    · rename_i hchanged
      exact inForce_of_changed hp hchanged
    · rename_i hchanged
      exact inForce_of_unchanged hp (Bool.eq_false_of_not_eq_true hchanged)
  · cases hq

/-! ### A campus -/

namespace Player

/-- A player started afresh has its settings in force. -/
lemma inForce_fresh (c : PlayerConfig) (k : Collector) (nowMs : ℤ) :
    (fresh c k nowMs).InForce k nowMs := by
  obtain ⟨hcfg, -, -, -, hread⟩ := fresh_spec k nowMs c
  exact ⟨by rw [hcfg], by rw [hcfg], by rw [hcfg], hread⟩

/-- A collector that is not reached. -/
def sampleCollector : Collector := { parse := fun _ => none, answer := fun _ => none }

/-- Typed keys. -/
def sampleCampus : PlayerConfig := { bucket := "relay", endpointHost := "s3.example.com" }

/-- Its name for its cues, and its pairing, entered later. -/
def sampleNamed : PlayerConfig := { sampleCampus with siteName := "Campus B" }

@[inherit_doc sampleNamed]
def samplePairedCampus : PlayerConfig :=
  { sampleCampus with
    reporterUrl := "https://c.example.com"
    reporterApplianceId := "id"
    reporterToken := "token" }

end Player

open Player in
/-- Another room is followed at once. -/
theorem inForce_iff_room :
    (((fresh sampleCampus sampleCollector 0).reconfigure
      { sampleNamed with roomId := "chapel" }).fetch sampleCollector 0).InForce
        sampleCollector 0 := by
  have htakes : TakesOver sampleCollector 0 (fresh sampleCampus sampleCollector 0).cfg
      { sampleNamed with roomId := "chapel" } := by
    rw [TakesOver, if_pos (by decide +kernel)]
    exact Or.inl (by decide +kernel)
  have hstored : (fresh sampleCampus sampleCollector 0).storeConfig
      { sampleNamed with roomId := "chapel" } true = some _ := if_pos rfl
  exact ((inForce_iff (inForce_fresh sampleCampus sampleCollector 0) hstored).mpr htakes).1

open Player in
/-- The name entered on its own is saved and not used, and neither is a pairing. -/
theorem site_name_not_used :
    (∃ q, (fresh sampleCampus sampleCollector 0).storeConfig sampleNamed true = some q ∧
      (q.received.session.map (·.authorName) = some "" ∧
        ¬ (q.fetch sampleCollector 0).InForce sampleCollector 0)) ∧
    ∃ q, (fresh sampleCampus sampleCollector 0).storeConfig samplePairedCampus true = some q ∧
      (q.identity.enrolment = {} ∧
        ¬ (q.fetch sampleCollector 0).InForce sampleCollector 0) := by
  refine ⟨⟨_, rfl, by decide +kernel, fun h => ?_⟩, ⟨_, rfl, by decide +kernel, fun h => ?_⟩⟩
  · exact absurd h.received (by decide +kernel)
  · exact absurd h.enrolment (by decide +kernel)

end Multisite

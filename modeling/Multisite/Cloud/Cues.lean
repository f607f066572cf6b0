import Multisite.Cloud.Identity

/-!
`CueCredentials` (`cue_credentials.h`, `cue_credentials.cpp`): the permissions a paired decoder
holds to write its cues, one for each event it has played lately.

The entries are kept in the order of the source's map, by event id.
-/

namespace Multisite

/-- `CueCredentialsReply::Outcome`. -/
inductive CueOutcome where
  | ok
  | unreachable
  | unpaired
  | notADecoder
  | badEvent
  | failed
  deriving DecidableEq, Repr

/-- `CueCredentialsReply`. -/
structure CueCredentialsReply where
  outcome : CueOutcome := .failed
  httpCode : ℤ := 0
  creds : Credentials := {}
  objectKey : String := ""
  deriving DecidableEq, Repr

/-- `kCueRetryMs`. -/
def kCueRetryMs : ℤ := 15000

/-- `kMaxEntries`. -/
def kMaxEntries : ℕ := 4

/-- `kCueRetryCapMs`. -/
def kCueRetryCapMs : ℤ := 5 * 60 * 1000

/-- `shaped`: the key is directly inside the event's `cues/` and ends in `.json`. -/
def cueKeyShaped (eventId key : String) : Bool :=
  let pre := "events/" ++ eventId ++ "/cues/"
  let suf := ".json"
  eventId ≠ "" && decide (pre.toList.length + suf.toList.length < key.toList.length) &&
    pre.toList.isPrefixOf key.toList && suf.toList.isSuffixOf key.toList &&
    !(key.toList.drop pre.toList.length).contains '/'

/-- `cloud_parse_cue_credentials`. -/
def cloudParseCueCredentials (parse : String → Option Json) (body : String) (httpCode : ℤ)
    (eventId : String) : CueCredentialsReply :=
  let out : CueCredentialsReply := { httpCode }
  if httpCode = 403 then { out with outcome := .unpaired }
  else if httpCode = 409 then { out with outcome := .notADecoder }
  else if httpCode = 400 then { out with outcome := .badEvent }
  else if httpCode ≠ 200 then out
  else
    let base := cloudParseCredentials parse body 200
    if !base.ok then out
    else
      match parse body with
      | none => out
      | some j =>
          let key := strField j "object_key"
          if !cueKeyShaped eventId key then out
          else { out with outcome := .ok, creds := base.creds, objectKey := key }

/-- `CueCredentials::Entry`; `nextFetchAtMs` is `0` for a fetch on the next tick. -/
structure CueEntry where
  creds : Credentials := {}
  objectKey : String := ""
  nextFetchAtMs : ℤ := 0
  stopped : Bool := false
  why : String := ""
  deriving DecidableEq, Repr

/-- `CueCredentials`. -/
structure CueCredentials where
  wanted : String := ""
  entries : List (String × CueEntry) := []
  unpaired : Bool := false
  deriving DecidableEq, Repr

/-- `CueCredentials::Due`. -/
structure CueDue where
  fetch : Bool := false
  eventId : String := ""
  deriving DecidableEq, Repr

/-- `CueCredentials::Held`. -/
structure CueHeld where
  present : Bool := false
  creds : Credentials := {}
  objectKey : String := ""
  why : String := ""
  deriving DecidableEq, Repr

namespace CueCredentials

/-- `m_entries.find`. -/
def entry (l : List (String × CueEntry)) (id : String) : Option CueEntry :=
  (l.find? fun e => e.1 = id).map (·.2)

/-- `m_entries.emplace(id, Entry{})`: nothing when it is there already. -/
def emplace (id : String) : List (String × CueEntry) → List (String × CueEntry)
  | [] => [(id, {})]
  | e :: rest =>
      if e.1 = id then e :: rest
      else if id < e.1 then (id, {}) :: e :: rest
      else e :: emplace id rest

lemma emplace_cons (id : String) (e : String × CueEntry) (rest : List (String × CueEntry)) :
    emplace id (e :: rest) = if e.1 = id then e :: rest
      else if id < e.1 then (id, {}) :: e :: rest else e :: emplace id rest := rfl

/-- The eviction loop of `want_event`, with `n` entries left in all. -/
def evict (wanted : String) : ℕ → List (String × CueEntry) → List (String × CueEntry)
  | _, [] => []
  | n, e :: rest =>
      if kMaxEntries < n then
        if e.1 = wanted then e :: evict wanted n rest else evict wanted (n - 1) rest
      else e :: rest

lemma evict_cons (wanted : String) (n : ℕ) (e : String × CueEntry)
    (rest : List (String × CueEntry)) :
    evict wanted n (e :: rest) = if kMaxEntries < n then
        if e.1 = wanted then e :: evict wanted n rest else evict wanted (n - 1) rest
      else e :: rest := rfl

/-- `want_event`. -/
def wantEvent (x : CueCredentials) (id : String) : CueCredentials :=
  if id = x.wanted then x
  else if id = "" then { x with wanted := id }
  else
    let l := emplace id x.entries
    { x with wanted := id, entries := evict id l.length l }

/-- `tick`. -/
def tick (x : CueCredentials) (nowMs : ℤ) : CueDue :=
  if x.unpaired || x.wanted = "" then {}
  else
    match entry x.entries x.wanted with
    | none => {}
    | some e =>
        if e.stopped then {}
        else if e.nextFetchAtMs = 0 ∨ e.nextFetchAtMs ≤ nowMs then
          { fetch := true, eventId := x.wanted }
        else {}

/-- The wait after a reply that brought nothing, over what the last good set allows. -/
def retryWait (wait : ℤ) : ℤ :=
  let wait := if wait ≤ 0 then kCueRetryMs else wait
  let wait := if kCueRetryCapMs < wait then kCueRetryCapMs else wait
  if wait < kCueRetryMs then kCueRetryMs else wait

/-- The entry after a reply that is not the unpaired one. -/
def updated (e : CueEntry) (r : CueCredentialsReply) (nowMs : ℤ) : CueEntry :=
  match r.outcome with
  | .ok =>
      let creds := { r.creds with fromLastGood := false }
      let next := nowMs + cloudNextRefreshMs creds nowMs
      { e with
        creds
        objectKey := r.objectKey
        why := ""
        nextFetchAtMs := if next ≤ nowMs then nowMs + kCueRetryMs else next }
  | .notADecoder =>
      { e with
        stopped := true
        why := "the collector treats this device as an encoder, which writes cues with its own credential" }
  | .badEvent =>
      { e with stopped := true, why := "the collector rejected this event's id" }
  | _ =>
      let why :=
        if r.outcome = .unreachable then
          "Multisite Cloud could not be reached for a cue permission"
        else "Multisite Cloud did not grant a cue permission (HTTP " ++ toString r.httpCode ++ ")"
      if e.creds.present then
        let creds := { e.creds with fromLastGood := true }
        { e with creds, why, nextFetchAtMs := nowMs + retryWait (cloudNextRefreshMs creds nowMs) }
      else { e with why, nextFetchAtMs := nowMs + retryWait 0 }

/-- `on_reply`. -/
def onReply (x : CueCredentials) (id : String) (r : CueCredentialsReply) (nowMs : ℤ) :
    CueCredentials :=
  if r.outcome = .unpaired then
    { x with
      unpaired := true
      entries := x.entries.map fun e =>
        (e.1, { e.2 with
          creds := if e.2.creds.present then { e.2.creds with fromLastGood := true } else e.2.creds
          why := "the collector says this player is no longer paired" }) }
  else
    { x with entries := x.entries.map fun e => if e.1 = id then (e.1, updated e.2 r nowMs) else e }

/-- `held`. -/
def held (x : CueCredentials) (id : String) (nowMs : ℤ) : CueHeld :=
  match entry x.entries id with
  | none => { why := "no cue permission has been fetched for this event yet" }
  | some e =>
      if e.creds.present && e.objectKey ≠ "" && decide (nowMs < e.creds.expiresAtMs) then
        { present := true, creds := e.creds, objectKey := e.objectKey }
      else if e.creds.present then { why := "the cue permission for this event has expired" }
      else if e.why ≠ "" then { why := e.why }
      else { why := "no cue permission has been fetched for this event yet" }

/-- `reset`. -/
def reset (x : CueCredentials) : CueCredentials :=
  { x with entries := if x.wanted ≠ "" then [(x.wanted, {})] else [], unpaired := false }

end CueCredentials

end Multisite

import Multisite.Core.Json

/-!
`CloudIdentity` (`cloud_identity.h`, `cloud_identity.cpp`): who a device is to the collector,
and the storage credentials that follow from being paired.

The parser of a document's text is a parameter, and a clock reading an integer without bound;
times add up without overflow.
-/

namespace Multisite

/-- `Credentials`. -/
structure Credentials where
  bucket : String := ""
  endpoint : String := ""
  accessKeyId : String := ""
  secretAccessKey : String := ""
  sessionToken : String := ""
  expiresAtMs : ℤ := 0
  readWrite : Bool := false
  fromLastGood : Bool := false
  deriving DecidableEq, Repr

/-- `Credentials::live`. -/
def Credentials.live (c : Credentials) (nowMs : ℤ) : Bool :=
  !c.fromLastGood && c.bucket ≠ "" && decide (nowMs < c.expiresAtMs)

/-- `Credentials::present`. -/
def Credentials.present (c : Credentials) : Bool := c.bucket ≠ ""

/-- `CredentialsReply`. -/
structure CredentialsReply where
  ok : Bool := false
  creds : Credentials := {}
  unpaired : Bool := false
  deriving DecidableEq, Repr

/-- `CloudAction`. -/
inductive CloudAction where
  | idle
  | fetch
  deriving DecidableEq, Repr

/-- `kMinRefreshMs`. -/
def kMinRefreshMs : ℤ := 5000

/-! ### Parsing a reply -/

/-- The lambda `num` of `cloud_parse_iso8601_ms`: `len` digits from `at'` on. -/
def isoNumber (iso : List Char) (at' len : ℕ) : Option ℤ :=
  let digits := (iso.drop at').take len
  if at' + len ≤ iso.length ∧ digits.all (fun c => decide ('0' ≤ c ∧ c ≤ '9')) then
    some (digits.foldl (fun v c => v * 10 + (c.toNat - '0'.toNat : ℕ)) 0)
  else none

/-- The milliseconds after the seconds: the first three digits of the fraction, scaled by what
there was. -/
def isoFraction (iso : List Char) : ℤ :=
  if iso[19]? = some '.' then
    let digits := ((iso.drop 20).take 3).takeWhile fun c => decide ('0' ≤ c ∧ c ≤ '9')
    digits.foldl (fun v c => v * 10 + (c.toNat - '0'.toNat : ℕ)) 0 * 10 ^ (3 - digits.length)
  else 0

/-- The days from 1970-01-01 to a date. -/
def daysFromCivil (year month day : ℤ) : ℤ :=
  let y := year - if month ≤ 2 then 1 else 0
  let era := (if 0 ≤ y then y else y - 399).tdiv 400
  let yoe := y - era * 400
  let doy := (153 * (month + if 2 < month then -3 else 9) + 2).tdiv 5 + day - 1
  let doe := yoe * 365 + yoe.tdiv 4 - yoe.tdiv 100 + doy
  era * 146097 + doe - 719468

/-- `cloud_parse_iso8601_ms`. -/
def cloudParseIso8601Ms (iso : String) : ℤ :=
  let s := iso.toList
  if s.length < 20 then 0
  else
    match isoNumber s 0 4, isoNumber s 5 2, isoNumber s 8 2, isoNumber s 11 2, isoNumber s 14 2,
        isoNumber s 17 2 with
    | some year, some month, some day, some hour, some minute, some second =>
        if s[4]? ≠ some '-' ∨ s[7]? ≠ some '-' ∨ s[10]? ≠ some 'T' ∧ s[10]? ≠ some ' ' ∨
            s[13]? ≠ some ':' ∨ s[16]? ≠ some ':' then 0
        else if month < 1 ∨ 12 < month ∨ day < 1 ∨ 31 < day then 0
        else
          (daysFromCivil year month day * 86400 + hour * 3600 + minute * 60 + second) * 1000 +
            isoFraction s
    | _, _, _, _, _, _ => 0

/-- `str_field`. -/
def strField (j : Json) (k : String) : String :=
  match j.get? k with
  | some (.str s) => s
  | _ => ""

/-- `int_field`. -/
def intField (j : Json) (k : String) (fallback : ℤ) : ℤ :=
  match j.get? k with
  | some (.int n) => n.bmod (2 ^ 64)
  | _ => fallback

/-- The credentials a document's members make, as `cloud_parse_credentials` reads them. -/
def credentialsOf (j : Json) : Credentials :=
  { bucket := strField j "bucket"
    endpoint := strField j "endpoint"
    accessKeyId := strField j "access_key_id"
    secretAccessKey := strField j "secret_access_key"
    sessionToken := strField j "session_token"
    expiresAtMs :=
      match j.get? "expires_at" with
      | some (.str s) => cloudParseIso8601Ms s
      | _ => intField j "expires_at" 0
    readWrite := strField j "role" = "encoder" || strField j "role" = "readwrite" }

/-- `cloud_parse_credentials`. -/
def cloudParseCredentials (parse : String → Option Json) (body : String) (httpCode : ℤ) :
    CredentialsReply :=
  if httpCode = 403 then { unpaired := true }
  else if httpCode ≠ 200 then {}
  else
    match parse body with
    | none => {}
    | some j =>
        if !j.isObject then {}
        else if (credentialsOf j).bucket = "" then {}
        else { ok := true, creds := credentialsOf j }

/-- `cloud_next_refresh_ms`. -/
def cloudNextRefreshMs (c : Credentials) (nowMs : ℤ) : ℤ :=
  if !c.present then 0
  else
    let remaining := c.expiresAtMs - nowMs
    if remaining ≤ 0 then 0
    else
      let half := remaining.tdiv 2
      if half < kMinRefreshMs then kMinRefreshMs else half

/-! ### The device -/

/-- `CloudIdentity`; `nextFetchAtMs` is `0` while nothing was fetched. -/
structure CloudIdentity where
  url : String := ""
  id : String := ""
  token : String := ""
  creds : Credentials := {}
  unpaired : Bool := false
  requireReadOnly : Bool := false
  nextFetchAtMs : ℤ := 0
  error : String := ""
  deriving DecidableEq, Repr

namespace CloudIdentity

variable (x : CloudIdentity) (r : CredentialsReply) (nowMs : ℤ)

/-- `paired_locked`. -/
def paired : Bool := x.id ≠ "" && x.token ≠ "" && x.url ≠ ""

/-- `set_enrolment`. -/
def setEnrolment (url id token : String) : CloudIdentity :=
  { x with url, id, token, unpaired := false, error := "", creds := {}, nextFetchAtMs := 0 }

/-- `tick`. -/
def tick : CloudAction :=
  if !x.paired then .idle
  else if x.unpaired then .idle
  else if x.nextFetchAtMs = 0 then .fetch
  else if x.nextFetchAtMs ≤ nowMs then .fetch
  else .idle

/-- A wait, or the shortest one when there is none. -/
def waitOr (wait : ℤ) : ℤ := if 0 < wait then wait else kMinRefreshMs

/-- `on_credentials`. -/
def onCredentials : CloudIdentity :=
  if r.unpaired then
    { x with
      unpaired := true
      error := "the device was unpaired by the collector"
      nextFetchAtMs := 0
      creds := if x.creds.present then { x.creds with fromLastGood := true } else x.creds }
  else if r.ok && x.requireReadOnly && r.creds.readWrite then
    { x with
      error := "the collector issued read-write credentials to a read-only device; refusing them"
      nextFetchAtMs :=
        nowMs + waitOr (if x.creds.present then cloudNextRefreshMs x.creds nowMs else 0) }
  else if r.ok then
    { x with
      creds := { r.creds with fromLastGood := false }
      error := ""
      nextFetchAtMs := nowMs + cloudNextRefreshMs { r.creds with fromLastGood := false } nowMs }
  else if x.creds.present then
    { x with
      error := "could not refresh credentials"
      creds := { x.creds with fromLastGood := true }
      nextFetchAtMs :=
        nowMs + waitOr (cloudNextRefreshMs { x.creds with fromLastGood := true } nowMs) }
  else
    { x with
      error := "could not refresh credentials"
      nextFetchAtMs := nowMs + kMinRefreshMs }

-- their equations are made here, once, and not by the first lemmas that ask for them
section
attribute [local simp] onCredentials
end

end CloudIdentity

end Multisite

import Multisite.Cloud.Cues
import Multisite.Lib.Run

/-!
`CloudTransport` and `CueWriter` (`cloud_storage.h`, `cloud_storage.cpp`): the transports a
paired device reads and writes through, built from the credential set held at each request.

The inner `S3Transport` is kept under a key of three fields, the token, the expiry and the
staleness, and a status is that of whichever inner is current.

* `request_astray`: a run in which a set with the key of the one before it names another bucket,
  and one in which a refresh comes between a request and its status;
* `one_transport`: where a set with the current key has the current bucket, endpoint and key
  pair, and an inner is replaced only while no request is in hand, every request is signed with
  the set held when it began, and a status is that of the request it is asked about.
-/

namespace Multisite

/-! ### The configuration of a transport -/

/-- `S3Config`. -/
structure S3Config where
  endpointHost : String := ""
  r2AccountId : String := ""
  bucket : String := ""
  accessKeyId : String := ""
  secretAccessKey : String := ""
  region : String := "auto"
  useHttps : Bool := true
  connectTimeoutMs : ℤ := 5000
  requestTimeoutMs : ℤ := 30000
  sessionToken : String := ""
  deriving DecidableEq, Repr

/-- `s3_config_from_credentials`. -/
def s3ConfigFromCredentials (c : Credentials) : S3Config :=
  { bucket := c.bucket
    endpointHost := c.endpoint
    region := "auto"
    accessKeyId := c.accessKeyId
    secretAccessKey := c.secretAccessKey
    sessionToken := c.sessionToken }

/-- `CloudStorageConfig`. -/
structure CloudStorageConfig where
  region : String := "auto"
  useHttps : Bool := true
  connectTimeoutMs : ℤ := 5000
  requestTimeoutMs : ℤ := 30000
  deriving DecidableEq, Repr

/-- What a host signs with when it holds `c`: the converter's fields, and its own preferences. -/
def CloudStorageConfig.signing (cfg : CloudStorageConfig) (c : Credentials) : S3Config :=
  { s3ConfigFromCredentials c with
    region := cfg.region
    useHttps := cfg.useHttps
    connectTimeoutMs := cfg.connectTimeoutMs
    requestTimeoutMs := cfg.requestTimeoutMs }

/-- `S3Transport`: what it signs with, and its cancel flag. -/
structure S3Transport where
  cfg : S3Config
  cancel : Bool := false
  deriving DecidableEq, Repr

/-- `S3Transport::last_request_cancelled`. -/
def S3Transport.lastRequestCancelled (t : S3Transport) : Bool := t.cancel

/-- `last_request_reached_server`, which `S3Transport` has from `Transport`. -/
def S3Transport.lastRequestReachedServer (_ : S3Transport) : Bool := true

/-! ### The transport -/

/-- `CloudRole`. -/
inductive CloudRole where
  | encoder
  | decoder
  deriving DecidableEq, Repr

/-- The operations of `CloudTransport`. -/
inductive CloudOp where
  | put
  | objectSize
  | get
  | list
  | remove
  | probe
  deriving DecidableEq, Repr

/-- The operations that are a write. -/
def CloudOp.writes : CloudOp → Bool
  | .put => true
  | .remove => true
  | _ => false

/-- A request that is not made: `retryable` and `error` of its result. -/
structure CloudRefusal where
  retryable : Bool
  error : String
  deriving DecidableEq, Repr

/-- `CloudTransport`.  `made` are the inner transports ever made, and a shared pointer to one is
its place there. -/
structure CloudTransport where
  role : CloudRole
  cfg : CloudStorageConfig
  made : List S3Transport := []
  inner : Option ℕ := none
  prevInner : Option ℕ := none
  builtExpiry : ℤ := 0
  builtSession : String := ""
  builtStale : Bool := false
  deriving DecidableEq, Repr

namespace CloudTransport

variable (x : CloudTransport) (c : Credentials)

/-- The inner transport at a place. -/
def at? (i : Option ℕ) : Option S3Transport := i.bind fun i => x.made[i]?

/-- The set has the key the current inner was built under. -/
def reuses : Bool :=
  x.inner.isSome && decide (x.builtExpiry = c.expiresAtMs) &&
    decide (x.builtStale = c.fromLastGood) && decide (x.builtSession = c.sessionToken)

/-- A new inner for the set; the current one becomes the previous. -/
def rebuild : CloudTransport :=
  { x with
    made := x.made ++ [{ cfg := x.cfg.signing c }]
    prevInner := x.inner
    inner := some x.made.length
    builtExpiry := c.expiresAtMs
    builtStale := c.fromLastGood
    builtSession := c.sessionToken }

/-- `inner_for`. -/
def innerFor (unpaired : Bool) : Except String CloudTransport :=
  if !c.present then
    .error (if unpaired then "this device was unpaired by the collector"
      else "no cloud credentials yet")
  else if x.reuses c then .ok x
  else .ok (x.rebuild c)

/-- An operation up to its request: the transport with the inner it goes out on, or why it
does not. -/
def request (unpaired : Bool) (op : CloudOp) : Except CloudRefusal CloudTransport :=
  if op.writes && decide (x.role ≠ .encoder) then
    .error
      { retryable := false
        error := "this device reads only — the collector granted a decoder role" }
  else
    match x.innerFor c unpaired with
    | .error why => .error { retryable := true, error := why }
    | .ok y => .ok y

/-- `cancel_pending` and `resume_pending`: the current inner and the one before it. -/
def setCancel (b : Bool) : CloudTransport :=
  { x with
    made := x.made.mapIdx fun i t =>
      if x.inner = some i ∨ x.prevInner = some i then { t with cancel := b } else t }

/-- `last_request_cancelled`. -/
def lastRequestCancelled : Bool := (x.at? x.inner).any S3Transport.lastRequestCancelled

/-- `last_request_reached_server`. -/
def lastRequestReachedServer : Bool := (x.at? x.inner).any S3Transport.lastRequestReachedServer

/-- The request of the operation goes out. -/
def sends (op : CloudOp) : Bool := !(op.writes && decide (x.role ≠ .encoder)) && c.present

variable {x c} {unpaired : Bool} {op : CloudOp}

/-- A request that goes out does so on the current inner, kept or made for it. -/
lemma request_of_sends (h : x.sends c op = true) :
    x.request c unpaired op = .ok (if x.reuses c then x else x.rebuild c) := by
  rw [sends, Bool.and_eq_true, Bool.not_eq_true'] at h
  obtain ⟨hrole, hpresent⟩ := h
  rw [request, hrole, if_neg Bool.false_ne_true, innerFor, hpresent, Bool.not_true,
    if_neg Bool.false_ne_true]
  cases x.reuses c with
  | false => rfl
  | true => rfl

/-- One that does not leaves the transport alone. -/
lemma request_of_not_sends (h : x.sends c op = false) :
    ∃ why, x.request c unpaired op = .error why := by
  rw [sends, Bool.and_eq_false_iff, Bool.not_eq_false'] at h
  rw [request]
  split
  · exact ⟨_, rfl⟩
  · rename_i hrole
    rcases h with h | h
    · exact absurd h hrole
    · rw [innerFor, h, Bool.not_false, if_pos rfl]
      exact ⟨_, rfl⟩

@[simp] lemma cfg_setCancel (b : Bool) : (x.setCancel b).cfg = x.cfg := rfl
@[simp] lemma inner_setCancel (b : Bool) : (x.setCancel b).inner = x.inner := rfl

/-- A new inner is the current one, and signs with the set. -/
lemma at?_rebuild : (x.rebuild c).at? (x.rebuild c).inner = some { cfg := x.cfg.signing c } := by
  simp [at?, rebuild]

/-- What an inner signs with does not change. -/
lemma map_cfg_setCancel (b : Bool) (i : Option ℕ) :
    ((x.setCancel b).at? i).map (·.cfg) = (x.at? i).map (·.cfg) := by
  cases i with
  | none => rfl
  | some i =>
      simp only [at?, setCancel, Option.bind_some, List.getElem?_mapIdx]
      cases x.made[i]? with
      | none => rfl
      | some t =>
          rw [Option.map_some, Option.map_some, Option.map_some]
          split <;> rfl

end CloudTransport

/-! ### Requests and refreshes -/

/-- A request in a caller's hands: the set held when it began, the inner it went out on, and
whether it has come back. -/
structure CloudRequest where
  op : CloudOp
  held : Credentials
  on : Option ℕ
  finished : Bool
  deriving DecidableEq, Repr

/-- A device's transport, what its identity holds, and the requests in hand. -/
structure CloudTraffic where
  tx : CloudTransport
  held : Credentials := {}
  unpaired : Bool := false
  requests : List CloudRequest := []
  deriving DecidableEq, Repr

/-- What can happen. -/
inductive CloudEvent where
  /-- The identity holds another set: a refresh, a fall to last-good, a reset. -/
  | hold (c : Credentials) (unpaired : Bool)
  | request (op : CloudOp)
  /-- A request comes back. -/
  | finish (i : ℕ)
  /-- Its caller has read its status. -/
  | settle (i : ℕ)
  | cancelPending
  | resumePending
  deriving DecidableEq, Repr

namespace CloudTraffic

/-- One step. -/
def step (s : CloudTraffic) : CloudEvent → Option CloudTraffic
  | .hold c unpaired => some { s with held := c, unpaired }
  | .request op =>
      match s.tx.request s.held s.unpaired op with
      | .error _ =>
          some { s with
            requests := s.requests ++ [{ op, held := s.held, on := none, finished := true }] }
      | .ok tx =>
          some { s with
            tx
            requests := s.requests ++ [{ op, held := s.held, on := tx.inner, finished := false }] }
  | .finish i =>
      match s.requests[i]? with
      | some r => some { s with requests := s.requests.set i { r with finished := true } }
      | none => none
  | .settle i =>
      match s.requests[i]? with
      | some r => if r.finished then some { s with requests := s.requests.eraseIdx i } else none
      | none => none
  | .cancelPending => some { s with tx := s.tx.setCancel true }
  | .resumePending => some { s with tx := s.tx.setCancel false }

/-- A device that has just started. -/
def Started (s : CloudTraffic) : Prop := ∃ role cfg, s = { tx := { role, cfg } }

/-- The request went out exactly if its operation is allowed and a set was held, and then signed
with that set. -/
def Signed (s : CloudTraffic) (r : CloudRequest) : Prop :=
  (s.tx.at? r.on).map (·.cfg) =
    if s.tx.sends r.held r.op then some (s.tx.cfg.signing r.held) else none

instance (s : CloudTraffic) (r : CloudRequest) : Decidable (s.Signed r) :=
  inferInstanceAs (Decidable (_ = _))

/-- What the two getters say is what the inner of the request says, and of one that never went
out that it did not reach the server and was not cancelled. -/
def Described (s : CloudTraffic) (r : CloudRequest) : Prop :=
  s.tx.lastRequestCancelled = (s.tx.at? r.on).any S3Transport.lastRequestCancelled ∧
    s.tx.lastRequestReachedServer = (s.tx.at? r.on).any S3Transport.lastRequestReachedServer

instance (s : CloudTraffic) (r : CloudRequest) : Decidable (s.Described r) :=
  inferInstanceAs (Decidable (_ ∧ _))

/-- A set with the key of the current inner is signed with alike, an inner is replaced only while
no request is in hand, and a request that does not go out comes before any that does. -/
def keepsInner (s : CloudTraffic) : CloudEvent → Bool
  | .hold c _ =>
      !s.tx.reuses c ||
        decide ((s.tx.at? s.tx.inner).map (·.cfg) = some (s.tx.cfg.signing c))
  | .request op =>
      if s.tx.sends s.held op then s.tx.reuses s.held || s.requests.isEmpty
      else s.tx.inner.isNone
  | _ => true

/-- Every request in hand is on the current inner, and that inner signs with the set held or has
another key. -/
structure OneInner (s : CloudTraffic) : Prop where
  current : s.tx.reuses s.held = true →
    (s.tx.at? s.tx.inner).map (·.cfg) = some (s.tx.cfg.signing s.held)
  on : ∀ r ∈ s.requests, r.on = s.tx.inner
  signed : ∀ r ∈ s.requests, s.Signed r

variable {s t : CloudTraffic}

/-- One more request on the current inner. -/
lemma OneInner.append {r : CloudRequest} (hs : OneInner s) (hon : r.on = s.tx.inner)
    (hsigned : s.Signed r) : OneInner { s with requests := s.requests ++ [r] } := by
  refine ⟨hs.current, fun r' hr' => ?_, fun r' hr' => ?_⟩
  · rcases List.mem_append.mp hr' with hr' | hr'
    · exact hs.on r' hr'
    · rw [List.mem_singleton.mp hr', hon]
  · rcases List.mem_append.mp hr' with hr' | hr'
    · exact hs.signed r' hr'
    · rw [List.mem_singleton.mp hr']
      exact hsigned

lemma OneInner.request {op : CloudOp} (hs : OneInner s)
    (hc : s.keepsInner (.request op) = true) (ht : s.step (.request op) = some t) :
    OneInner t := by
  rw [keepsInner] at hc
  cases hsends : s.tx.sends s.held op with
  | false =>
      rw [hsends, if_neg Bool.false_ne_true, Option.isNone_iff_eq_none] at hc
      obtain ⟨why, hwhy⟩ : ∃ why, s.tx.request s.held s.unpaired op = .error why :=
        CloudTransport.request_of_not_sends hsends
      rw [step, hwhy, Option.some.injEq] at ht
      subst ht
      refine hs.append hc.symm ?_
      rw [Signed, hsends, if_neg Bool.false_ne_true]
      rfl
  | true =>
      rw [hsends, if_pos rfl, Bool.or_eq_true, List.isEmpty_iff] at hc
      rw [step, CloudTransport.request_of_sends hsends] at ht
      dsimp only at ht
      rw [Option.some.injEq] at ht
      cases hreuse : s.tx.reuses s.held with
      | true =>
          rw [hreuse, if_pos rfl] at ht
          subst ht
          refine hs.append rfl ?_
          rw [Signed, hsends, if_pos rfl]
          exact hs.current hreuse
      | false =>
          rw [hreuse, if_neg Bool.false_ne_true, hc.resolve_left (by simp [hreuse]),
            List.nil_append] at ht
          subst ht
          have hnew : ((s.tx.rebuild s.held).at? (s.tx.rebuild s.held).inner).map (·.cfg) =
              some (s.tx.cfg.signing s.held) := by
            rw [CloudTransport.at?_rebuild, Option.map_some]
          refine ⟨fun _ => hnew, fun r hr => ?_, fun r hr => ?_⟩
          · rw [List.mem_singleton.mp hr]
          · rw [List.mem_singleton.mp hr]
            exact hnew.trans (if_pos hsends).symm

lemma OneInner.setCancel (hs : OneInner s) (b : Bool) :
    OneInner { s with tx := s.tx.setCancel b } where
  current h := (CloudTransport.map_cfg_setCancel b _).trans (hs.current h)
  on := hs.on
  signed r hr := (CloudTransport.map_cfg_setCancel b _).trans (hs.signed r hr)

/-- **One step keeps it.** -/
lemma OneInner.step {a : CloudEvent} (hs : OneInner s) (hc : s.keepsInner a = true)
    (ht : s.step a = some t) : OneInner t := by
  cases a with
  | hold c unpaired =>
      rw [CloudTraffic.step, Option.some.injEq] at ht
      subst ht
      refine ⟨fun hreuse => ?_, hs.on, hs.signed⟩
      have hreuse' : s.tx.reuses c = true := hreuse
      rw [keepsInner, hreuse', Bool.not_true, Bool.false_or] at hc
      exact of_decide_eq_true hc
  | request op => exact hs.request hc ht
  | finish i =>
      rw [CloudTraffic.step] at ht
      cases hget : s.requests[i]? with
      | none => simp [hget] at ht
      | some r =>
          rw [hget] at ht
          dsimp only at ht
          rw [Option.some.injEq] at ht
          subst ht
          have hmem := List.mem_of_getElem? hget
          refine ⟨hs.current, fun r' hr' => ?_, fun r' hr' => ?_⟩
          · rcases List.mem_or_eq_of_mem_set hr' with hr' | rfl
            · exact hs.on r' hr'
            · exact hs.on r hmem
          · rcases List.mem_or_eq_of_mem_set hr' with hr' | rfl
            · exact hs.signed r' hr'
            · exact hs.signed r hmem
  | settle i =>
      rw [CloudTraffic.step] at ht
      cases hget : s.requests[i]? with
      | none => simp [hget] at ht
      | some r =>
          rw [hget] at ht
          dsimp only at ht
          split at ht
          · rw [Option.some.injEq] at ht
            subst ht
            exact ⟨hs.current, fun r' hr' => hs.on r' (List.mem_of_mem_eraseIdx hr'),
              fun r' hr' => hs.signed r' (List.mem_of_mem_eraseIdx hr')⟩
          · exact absurd ht (by simp)
  | cancelPending =>
      rw [CloudTraffic.step, Option.some.injEq] at ht
      subst ht
      exact hs.setCancel true
  | resumePending =>
      rw [CloudTraffic.step, Option.some.injEq] at ht
      subst ht
      exact hs.setCancel false

end CloudTraffic

/-! ### The cue writer -/

/-- `CueWriter`: its transport, and the token, expiry and key it was built for. -/
structure CueWriter where
  cfg : CloudStorageConfig
  tx : Option S3Transport := none
  builtFor : String := ""
  deriving DecidableEq, Repr

/-- `CueTarget`, with the transport itself. -/
structure CueWriter.Target where
  tx : Option S3Transport := none
  objectKey : String := ""
  why : String := ""
  deriving DecidableEq, Repr

namespace CueWriter

/-- `built_for`. -/
def keyOf (h : CueHeld) : String :=
  h.creds.sessionToken ++ "|" ++ toString h.creds.expiresAtMs ++ "|" ++ h.objectKey

/-- `CueWriter::target`, for what the cue credentials hold of the event. -/
def target (w : CueWriter) (h : CueHeld) : Target × CueWriter :=
  if !h.present then ({ why := h.why }, w)
  else if w.tx.isNone || decide (w.builtFor ≠ keyOf h) then
    let tx : S3Transport := { cfg := w.cfg.signing h.creds }
    ({ tx := some tx, objectKey := h.objectKey },
      { w with tx := some tx, builtFor := keyOf h })
  else ({ tx := w.tx, objectKey := h.objectKey }, w)

/-- The transport kept for the set's key signs with the set. -/
def keepsSet (w : CueWriter) (h : CueHeld) : Bool :=
  decide (w.builtFor ≠ keyOf h) || w.tx.all fun t => decide (t.cfg = w.cfg.signing h.creds)

/-- A target signs with the set held exactly if the transport kept for its key does. -/
lemma target_signs_iff (w : CueWriter) {h : CueHeld} (hp : h.present = true) :
    (w.target h).1.tx.map (·.cfg) = some (w.cfg.signing h.creds) ↔ w.keepsSet h = true := by
  rw [target, hp, Bool.not_true, if_neg Bool.false_ne_true, keepsSet]
  cases htx : w.tx with
  | none => simp
  | some t =>
      by_cases hkey : w.builtFor = keyOf h
      · simp [hkey]
      · simp [hkey]

end CueWriter

/-! ### The statement -/

open CloudTraffic in
/-- **One transport across refreshes.**  In every run in which a set with the current key is
signed with alike, an inner is replaced only while no request is in hand, and none is refused
after the first was sent: every request goes out on the set held when it began, and the two
getters describe each one that has come back.  A cue target signs with the cue set held exactly
if the transport kept under its key does. -/
theorem one_transport (s : CloudTraffic) (w : CueWriter) (h : CueHeld) :
    (Lib.Reach CloudTraffic.step (fun s a => s.keepsInner a = true) Started s →
      ∀ r ∈ s.requests, s.Signed r ∧ (r.finished = true → s.Described r)) ∧
    (h.present = true →
      ((w.target h).1.tx.map (·.cfg) = some (w.cfg.signing h.creds) ↔ w.keepsSet h = true)) := by
  refine ⟨fun hs r hr => ?_, fun hp => w.target_signs_iff hp⟩
  have key : OneInner s := by
    refine hs.invariant ?_ fun s a t hs hc ht => hs.step hc ht
    rintro _ ⟨role, cfg, rfl⟩
    exact ⟨fun h => absurd h (by simp [CloudTransport.reuses]), by simp, by simp⟩
  refine ⟨key.signed r hr, fun _ => ?_⟩
  rw [Described, key.on r hr]
  exact ⟨rfl, rfl⟩

/-! ### Runs -/

/-- A set as the collector gives it to a decoder. -/
def sampleSet (bucket token : String) (expiresAtMs : ℤ) : Credentials :=
  { bucket, endpoint := "s3.example.com", accessKeyId := "k", secretAccessKey := "s"
    sessionToken := token, expiresAtMs }

/-- A decoder that has just started. -/
def sampleTraffic : CloudTraffic := { tx := { role := .decoder, cfg := {} } }

open CloudTraffic in
theorem one_transport_refreshed :
    (∃ s : CloudTraffic, s.requests.map (fun r => (s.tx.at? r.on).map (·.cfg.sessionToken)) =
        [some "t2"] ∧
      ∀ r ∈ s.requests, s.Signed r ∧ (r.finished = true → s.Described r)) ∧
    ((CueWriter.target { cfg := {} } { present := true, creds := sampleSet "a" "t" 1 }).1.tx.map
        (·.cfg) = some (CloudStorageConfig.signing {} (sampleSet "a" "t" 1)) ↔
      CueWriter.keepsSet { cfg := {} } { present := true, creds := sampleSet "a" "t" 1 } =
        true) := by
  refine ⟨?_, (one_transport sampleTraffic _ _).2 rfl⟩
  obtain ⟨s, hs, hp⟩ := (Lib.exists_reach_guarded sampleTraffic
    [.hold (sampleSet "a" "t1" 1) false, .request .get, .finish 0, .settle 0,
      .hold (sampleSet "a" "t2" 2) false, .request .list, .finish 0]
    ⟨_, _, rfl⟩ (by decide +kernel) :
    ∃ s, Lib.Reach CloudTraffic.step (fun s a => s.keepsInner a = true) Started s ∧
      s.requests.map (fun r => (s.tx.at? r.on).map (·.cfg.sessionToken)) = [some "t2"])
  exact ⟨s, hp, (one_transport s { cfg := {} } {}).1 hs⟩

open CloudTraffic in
/-- Two sets without a token that expire at one time: the second names another bucket, and the
request still goes to the first.  And a request aborted by the host, asked about after a refresh
and another request: it was not cancelled. -/
theorem request_astray :
    (∃ s, Lib.Reach CloudTraffic.step Lib.anyStep Started s ∧
      ∃ r ∈ s.requests, ¬ s.Signed r ∧ r.held.bucket = "b" ∧
        (s.tx.at? r.on).map (·.cfg.bucket) = some "a") ∧
    ∃ s, Lib.Reach CloudTraffic.step Lib.anyStep Started s ∧
      ∃ r ∈ s.requests, r.finished = true ∧ ¬ s.Described r ∧
        s.tx.lastRequestCancelled = false :=
  ⟨Lib.exists_reach sampleTraffic
    [.hold (sampleSet "a" "" 1) false, .request .get, .finish 0, .settle 0,
      .hold (sampleSet "b" "" 1) false, .request .get] ⟨_, _, rfl⟩ (by decide +kernel),
  Lib.exists_reach sampleTraffic
    [.hold (sampleSet "a" "t1" 1) false, .request .get, .cancelPending,
      .hold (sampleSet "a" "t2" 2) false, .request .get, .finish 0] ⟨_, _, rfl⟩
    (by decide +kernel)⟩

end Multisite

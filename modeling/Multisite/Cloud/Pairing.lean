import Multisite.Cloud.Replies

/-!
The device-code pairing (`Pairing` in `heartbeat_reporter.cpp`) and its relay
(`pair_begin`, `pair_cancel` and `serve_pairing` of `relay/src/reporter.cpp`, the pairing routes
of `api.cpp`, `ConfigStore::set_pairing`, `Service::start`).

The address is saved when a pairing begins, the id and the token when it completes, and each
save writes the settings one by one.  The collector's replies are given as their parsers return
them; the database takes every write.

* `whole_step`: what one step of the relay keeps.
-/

namespace Multisite

/-! ### The device-code flow -/

/-- `Pairing::Phase`. -/
inductive PairPhase where
  | idle
  | waiting
  | done
  | expired
  | failed
  deriving DecidableEq, Repr

/-- `PairStartReply`. -/
structure PairStartReply where
  ok : Bool := false
  userCode : String := ""
  verificationUrl : String := ""
  pollToken : String := ""
  intervalS : ℤ := 5
  expiresIn : ℤ := 900
  deriving DecidableEq, Repr

/-- `PairPollReply`. -/
structure PairPollReply where
  ok : Bool := false
  pending : Bool := false
  applianceId : String := ""
  applianceToken : String := ""
  collectorUrl : String := ""
  intervalS : ℤ := 30
  deriving DecidableEq, Repr

/-- `Pairing`. -/
structure Pairing where
  phase : PairPhase := .idle
  userCode : String := ""
  verificationUrl : String := ""
  pollToken : String := ""
  pollIntervalS : ℤ := 5
  deadlineS : ℤ := 0
  nextPollS : ℤ := 0
  error : String := ""
  applianceId : String := ""
  applianceToken : String := ""
  collectorUrl : String := ""
  deriving DecidableEq, Repr

namespace Pairing

/-- `on_start_reply`. -/
def onStartReply (p : Pairing) (r : PairStartReply) (httpCode nowS : ℤ) : Pairing :=
  if httpCode ≠ 200 ∨ r.ok = false then
    { p with
      phase := .failed
      error := if httpCode = 200 then "the collector answered but named no code"
        else "http " ++ toString httpCode }
  else
    { p with
      phase := .waiting
      error := ""
      userCode := r.userCode
      verificationUrl := r.verificationUrl
      pollToken := r.pollToken
      pollIntervalS := r.intervalS
      deadlineS := nowS + r.expiresIn
      nextPollS := nowS + r.intervalS }

/-- `poll_due`. -/
def pollDue (p : Pairing) (nowS : ℤ) : Bool :=
  decide (p.phase = .waiting) && decide (p.nextPollS ≤ nowS) && decide (nowS < p.deadlineS)

/-- `tick`. -/
def tick (p : Pairing) (nowS : ℤ) : Pairing :=
  if p.phase = .waiting ∧ p.deadlineS ≤ nowS then
    { p with phase := .expired, error := "the code expired before anyone approved it" }
  else p

/-- `on_poll_reply`. -/
def onPollReply (p : Pairing) (r : PairPollReply) (httpCode nowS : ℤ) : Pairing :=
  if p.phase ≠ .waiting then p
  else if r.ok then
    { p with
      phase := .done
      applianceId := r.applianceId
      applianceToken := r.applianceToken
      collectorUrl := r.collectorUrl }
  else if r.pending then
    let interval := if 0 < r.intervalS then r.intervalS else p.pollIntervalS
    { p with pollIntervalS := interval, nextPollS := nowS + interval }.tick nowS
  else { p with phase := .failed, error := "http " ++ toString httpCode }

/-- `cancel`. -/
def cancel (p : Pairing) : Pairing :=
  { p with
    phase := .idle
    error := ""
    userCode := ""
    verificationUrl := ""
    pollToken := ""
    applianceId := ""
    applianceToken := ""
    collectorUrl := "" }

lemma phase_tick_ne_done {p : Pairing} (h : p.phase ≠ .done) (nowS : ℤ) :
    (p.tick nowS).phase ≠ .done := by
  rw [tick]
  split
  · simp
  · exact h

/-- A pairing is completed by a good reply, and then carries what that reply named. -/
lemma onPollReply_done {p : Pairing} {r : PairPollReply} {httpCode nowS : ℤ}
    (h : p.phase ≠ .done) (hd : (p.onPollReply r httpCode nowS).phase = .done) :
    (p.onPollReply r httpCode nowS).applianceId = r.applianceId ∧
      (p.onPollReply r httpCode nowS).applianceToken = r.applianceToken ∧
      (p.onPollReply r httpCode nowS).collectorUrl = r.collectorUrl ∧ r.ok = true := by
  rw [onPollReply] at hd ⊢
  split at hd
  · exact absurd hd h
  rename_i hwaiting
  rw [if_neg hwaiting]
  split at hd
  · rename_i hok
    rw [if_pos hok]
    exact ⟨rfl, rfl, rfl, hok⟩
  split at hd
  · exact absurd hd (phase_tick_ne_done (by simpa using h) nowS)
  · exact absurd hd (by simp)

end Pairing

/-! ### The saved pairing -/

/-- `ConfigStore::PairingConfig`. -/
structure PairingConfig where
  collectorUrl : String := ""
  applianceId : String := ""
  applianceToken : String := ""
  deviceId : String := ""
  deriving DecidableEq, Repr

namespace PairingConfig

/-- The three strings that mean anything together. -/
def enrolment (c : PairingConfig) : Enrolment :=
  { url := c.collectorUrl, id := c.applianceId, token := c.applianceToken }

/-- `ConfigStore::paired`. -/
def paired (c : PairingConfig) : Bool := c.enrolment.paired

/-- `ConfigStore::clear_pairing`. -/
def clear (c : PairingConfig) : PairingConfig :=
  { c with collectorUrl := "", applianceId := "", applianceToken := "" }

/-- `ConfigStore::set_pairing` stopped after `k` of its four settings. -/
def torn (c new : PairingConfig) (k : ℕ) : PairingConfig :=
  { collectorUrl := if 0 < k then new.collectorUrl else c.collectorUrl
    applianceId := if 1 < k then new.applianceId else c.applianceId
    applianceToken := if 2 < k then new.applianceToken else c.applianceToken
    deviceId := if 3 < k then new.deviceId else c.deviceId }

/-- Stopped before the first of the three strings or after the last, it leaves the old ones or
the new. -/
lemma enrolment_torn {k : ℕ} (hk : k = 0 ∨ 3 ≤ k) (c new : PairingConfig) :
    (c.torn new k).enrolment = c.enrolment ∨ (c.torn new k).enrolment = new.enrolment := by
  rcases hk with rfl | hk
  · exact .inl rfl
  · right
    rw [torn, if_pos (by omega), if_pos (by omega), if_pos (by omega)]
    rfl

end PairingConfig

/-- Complete only as it was issued. -/
def Enrolment.WholeIn (issued : List Enrolment) (e : Enrolment) : Prop :=
  e.paired = true → e ∈ issued

namespace Enrolment.WholeIn

variable {issued : List Enrolment} {e : Enrolment}

lemma of_id (h : e.id = "") : e.WholeIn issued := by
  intro hp
  simp [Enrolment.paired, h] at hp

lemma of_token (h : e.token = "") : e.WholeIn issued := by
  intro hp
  simp [Enrolment.paired, h] at hp

lemma cons (h : e.WholeIn issued) (i : Enrolment) : e.WholeIn (i :: issued) :=
  fun hp => List.mem_cons_of_mem _ (h hp)

end Enrolment.WholeIn

/-! ### The relay -/

/-- How far the worker is with a `serve_pairing`. -/
inductive PairPc where
  | idle
  /-- Decided to start; the saved pairing is to be read. -/
  | start (url : String)
  /-- Read, and without a device id, which is to be saved. -/
  | mint (url : String) (pc : PairingConfig)
  /-- The start request is out. -/
  | starting (url : String)
  /-- The poll request is out. -/
  | polling (url : String)
  /-- Decided to save the claim; the saved pairing is to be read. -/
  | save (url : String)
  | saving (url : String) (pc : PairingConfig)
  /-- The claim is filled in, and to be written. -/
  | claiming (claimed : PairingConfig)
  /-- Written; whether the store is paired now is to be asked. -/
  | claimed (claimed : PairingConfig)
  | enrolling (claimed : PairingConfig)
  | enrolled
  deriving DecidableEq, Repr

/-- A request to the pairing routes. -/
inductive PairCall where
  /-- POST, with the address of the body. -/
  | begin (url : String)
  /-- The address is settled; the saved pairing is to be read. -/
  | began (url : String)
  /-- The saved pairing with the address, to be written. -/
  | beginning (url : String) (pc : PairingConfig)
  /-- `pair_begin` is to be called. -/
  | asking (url : String)
  | disconnect
  /-- Cleared; the identity is to be reset. -/
  | cleared
  /-- `pair_cancel` is to be called: a DELETE without `disconnect`, or the end of one. -/
  | cancel
  deriving DecidableEq, Repr

/-- `Reporter::Worker`, the saved pairing and the identity's enrolment. -/
structure RelayPairing where
  cfg : PairingConfig := {}
  identity : Enrolment := {}
  pairing : Pairing := {}
  beginPending : Bool := false
  beginUrl : String := ""
  note : String := ""
  claimedId : String := ""
  claimedToken : String := ""
  claimedUrl : String := ""
  claimSaved : Bool := true
  worker : PairPc := .idle
  calls : List PairCall := []
  deriving DecidableEq, Repr

/-- What can happen at the relay. -/
inductive RelayPairAction where
  | request (c : PairCall)
  /-- A request to the pairing routes goes on. -/
  | advance (i : ℕ)
  /-- The worker's next `serve_pairing`. -/
  | tick (nowS : ℤ)
  /-- The worker goes on, with the device id it mints. -/
  | work (device : String)
  /-- The start request comes back, or is not reached. -/
  | started (r : Option (PairStartReply × ℤ)) (nowS : ℤ)
  /-- The poll request comes back, or is not reached. -/
  | polled (r : Option (PairPollReply × ℤ)) (nowS : ℤ)
  /-- The process stops, `k` settings into a save of the worker's or of a request's. -/
  | restart (writer : Option ℕ) (k : ℕ)
  deriving DecidableEq, Repr

namespace RelayPairing

/-- A request as it comes in. -/
def isRequest : PairCall → Bool
  | .begin _ => true
  | .disconnect => true
  | .cancel => true
  | _ => false

/-- `Reporter::pair_begin`. -/
def pairBegin (s : RelayPairing) (url : String) : RelayPairing :=
  if url = "" then s
  else
    { s with
      beginPending := true
      beginUrl := url
      note := ""
      claimSaved := true
      claimedId := ""
      claimedToken := ""
      claimedUrl := "" }

/-- `Reporter::pair_cancel`. -/
def pairCancel (s : RelayPairing) : RelayPairing :=
  { s with beginPending := false, pairing := s.pairing.cancel, note := "" }

/-- The next step of a request, and what is left of it. -/
def serve (s : RelayPairing) : PairCall → RelayPairing × Option PairCall
  | .begin url =>
      let url := if url = "" then s.cfg.collectorUrl else url
      (s, if url = "" then none else some (.began url))
  | .began url => (s, some (.beginning url { s.cfg with collectorUrl := url }))
  | .beginning url pc => ({ s with cfg := pc }, some (.asking url))
  | .asking url => (s.pairBegin url, none)
  | .disconnect => ({ s with cfg := s.cfg.clear }, some .cleared)
  | .cleared => ({ s with identity := {} }, some .cancel)
  | .cancel => (s.pairCancel, none)

/-- `serve_pairing` up to its decision. -/
def choose (s : RelayPairing) (nowS : ℤ) : RelayPairing :=
  let go (s : RelayPairing) (pc : PairPc) : RelayPairing :=
    if s.beginUrl = "" then
      { s with
        beginPending := false
        pairing := s.pairing.cancel
        note := "enter the collector address first" }
    else { s with worker := pc }
  if s.beginPending then go s (.start s.beginUrl)
  else
    let s := { s with pairing := s.pairing.tick nowS }
    if s.pairing.pollDue nowS then go s (.polling s.beginUrl)
    else if !s.claimSaved && decide (s.claimedId ≠ "") then go s (.save s.beginUrl)
    else s

/-- The worker's next step, with the device id it would mint. -/
def work (s : RelayPairing) (device : String) : Option RelayPairing :=
  match s.worker with
  | .start url =>
      some { s with
        worker := if s.cfg.deviceId = "" then .mint url { s.cfg with deviceId := device }
          else .starting url }
  | .mint url pc => some { s with cfg := pc, worker := .starting url }
  | .save url => some { s with worker := .saving url s.cfg }
  | .saving url pc =>
      some { s with
        worker := .claiming
          { pc with
            applianceId := s.claimedId
            applianceToken := s.claimedToken
            collectorUrl := if s.claimedUrl = "" then url else s.claimedUrl } }
  | .claiming c => some { s with cfg := c, worker := .claimed c }
  | .claimed c => some { s with worker := if s.cfg.paired then .enrolling c else .idle }
  | .enrolling c => some { s with identity := c.enrolment, worker := .enrolled }
  | .enrolled => some { s with claimSaved := true, worker := .idle }
  | _ => none

/-- The start request's outcome. -/
def startReply (s : RelayPairing) (r : Option (PairStartReply × ℤ)) (nowS : ℤ) : RelayPairing :=
  match r with
  | none =>
      { s with
        beginPending := false
        pairing := s.pairing.cancel
        note := "collector not reached"
        worker := .idle }
  | some (r, code) =>
      { s with
        beginPending := false
        note := ""
        pairing := s.pairing.onStartReply r code nowS
        worker := .idle }

/-- The poll request's outcome. -/
def pollReply (s : RelayPairing) (r : Option (PairPollReply × ℤ)) (nowS : ℤ) : RelayPairing :=
  match r with
  | none => { s with note := "collector not reached", worker := .idle }
  | some (r, code) =>
      let p := s.pairing.onPollReply r code nowS
      let s := { s with note := "", pairing := p, worker := .idle }
      if p.phase = .done then
        { s with
          claimedId := p.applianceId
          claimedToken := p.applianceToken
          claimedUrl := p.collectorUrl
          claimSaved := false }
      else s

/-- The save the worker, or a request, has yet to make. -/
def toWrite (s : RelayPairing) : Option ℕ → Option PairingConfig
  | none =>
      match s.worker with
      | .mint _ pc => some pc
      | .claiming c => some c
      | _ => none
  | some i =>
      match s.calls[i]? with
      | some (.beginning _ pc) => some pc
      | _ => none

/-- The saved pairing that a stop leaves. -/
def cfgAt (s : RelayPairing) (writer : Option ℕ) (k : ℕ) : PairingConfig :=
  match s.toWrite writer with
  | some new => s.cfg.torn new k
  | none => s.cfg

/-- `Service::start`, over what is saved. -/
def boot (cfg : PairingConfig) : RelayPairing :=
  { cfg, identity := if cfg.paired then cfg.enrolment else {} }

/-- One step. -/
def step (s : RelayPairing) : RelayPairAction → Option RelayPairing
  | .request c => if isRequest c then some { s with calls := s.calls ++ [c] } else none
  | .advance i =>
      match s.calls[i]? with
      | some c =>
          let (t, rest) := s.serve c
          some { t with
            calls := match rest with
              | some c' => s.calls.set i c'
              | none => s.calls.eraseIdx i }
      | none => none
  | .tick nowS => if s.worker = .idle then some (s.choose nowS) else none
  | .work device => s.work device
  | .started r nowS =>
      match s.worker with
      | .starting _ => some (s.startReply r nowS)
      | _ => none
  | .polled r nowS =>
      match s.worker with
      | .polling _ => some (s.pollReply r nowS)
      | _ => none
  | .restart writer k => some (boot (s.cfgAt writer k))

/-! ### What is issued -/

/-- What a poll that completes the pairing issues: the id and the token, and the address the
collector names or else the one it was asked at. -/
def issues (s : RelayPairing) : RelayPairAction → Option Enrolment
  | .polled (some (r, _)) _ =>
      match s.worker with
      | .polling url =>
          if s.pairing.phase = .waiting ∧ r.ok = true then
            some
              { url := if r.collectorUrl = "" then url else r.collectorUrl
                id := r.applianceId
                token := r.applianceToken }
          else none
      | _ => none
  | _ => none

/-- The enrolments issued, newest first. -/
def noteIssued (s : RelayPairing) (a : RelayPairAction) (issued : List Enrolment) :
    List Enrolment :=
  (s.issues a).toList ++ issued

/-- An address is saved only beside an incomplete pairing or as it stands there, no other pairing
begins while a poll is out, and no stop falls between the three strings of a save. -/
def keepsWhole (s : RelayPairing) : RelayPairAction → Bool
  | .advance i =>
      match s.calls[i]? with
      | some (.began url) =>
          decide (s.cfg.applianceId = "") || decide (s.cfg.applianceToken = "") ||
            decide (url = s.cfg.collectorUrl)
      | some (.asking url) =>
          match s.worker with
          | .polling _ => decide (url = s.beginUrl)
          | _ => true
      | _ => true
  | .restart writer k => (s.toWrite writer).isNone || decide (k = 0) || decide (3 ≤ k)
  | _ => true

/-! ### What a step keeps -/

/-- A claim not yet saved, with the address `url` for one it does not name. -/
def claim (s : RelayPairing) (url : String) : Enrolment :=
  { url := if s.claimedUrl = "" then url else s.claimedUrl
    id := s.claimedId
    token := s.claimedToken }

/-- What the worker has in hand. -/
def WorkerWhole (issued : List Enrolment) (s : RelayPairing) : PairPc → Prop
  | .mint _ pc => pc.enrolment.WholeIn issued
  | .polling url => url = s.beginUrl ∧ s.pairing.phase ≠ .done
  | .save url => (s.claim url).WholeIn issued
  | .saving url _ => (s.claim url).WholeIn issued
  | .claiming c => c.enrolment.WholeIn issued
  | .claimed c => c.enrolment.WholeIn issued
  | .enrolling c => c.enrolment.WholeIn issued
  | _ => True

/-- Everything at the relay that is complete was issued together. -/
structure Whole (s : RelayPairing) (issued : List Enrolment) : Prop where
  cfg : s.cfg.enrolment.WholeIn issued
  identity : s.identity.WholeIn issued
  claim : (s.claim s.beginUrl).WholeIn issued
  worker : s.WorkerWhole issued s.worker
  calls : ∀ url pc, PairCall.beginning url pc ∈ s.calls → pc.enrolment.WholeIn issued

variable {s t : RelayPairing} {issued : List Enrolment}

/-- More may be issued. -/
lemma Whole.cons (h : s.Whole issued) (e : Enrolment) : s.Whole (e :: issued) where
  cfg := h.cfg.cons e
  identity := h.identity.cons e
  claim := h.claim.cons e
  worker := by
    have hw := h.worker
    cases hpc : s.worker with
    | polling url =>
        rw [hpc] at hw
        exact hw
    | mint url pc | save url | saving url pc | claiming c | claimed c | enrolling c =>
        rw [hpc] at hw
        exact Enrolment.WholeIn.cons hw e
    | idle | start url | starting url | enrolled => trivial
  calls url pc hmem := (h.calls url pc hmem).cons e

/-- A request gone on is one of those before it or the one it became. -/
lemma mem_calls {calls : List PairCall} {i : ℕ} {rest : Option PairCall} {c : PairCall}
    (h : c ∈ match rest with
      | some c' => calls.set i c'
      | none => calls.eraseIdx i) : c ∈ calls ∨ rest = some c := by
  cases rest with
  | none => exact .inl (List.mem_of_mem_eraseIdx h)
  | some c' =>
      rcases List.mem_or_eq_of_mem_set h with h | rfl
      · exact .inl h
      · exact .inr rfl

/-- **A request to the pairing routes.** -/
lemma Whole.serve {c : PairCall} (h : s.Whole issued) (hmem : c ∈ s.calls)
    (hbegan : ∀ url, c = .began url →
      s.cfg.applianceId = "" ∨ s.cfg.applianceToken = "" ∨ url = s.cfg.collectorUrl)
    (hasking : ∀ url polled, c = .asking url → s.worker = .polling polled → url = s.beginUrl) :
    (s.serve c).1.Whole issued ∧
      ∀ url pc, (s.serve c).2 = some (.beginning url pc) → pc.enrolment.WholeIn issued := by
  cases c with
  | begin url =>
      refine ⟨h, fun u pc hrest => ?_⟩
      simp only [RelayPairing.serve] at hrest
      split at hrest <;> exact absurd hrest (by simp)
  | began url =>
      refine ⟨h, fun u pc hrest => ?_⟩
      simp only [RelayPairing.serve, Option.some.injEq, PairCall.beginning.injEq] at hrest
      obtain ⟨-, rfl⟩ := hrest
      rcases hbegan url rfl with hid | htoken | hurl
      · exact .of_id hid
      · exact .of_token htoken
      · rw [hurl]
        exact h.cfg
  | beginning url pc =>
      refine ⟨⟨h.calls url pc hmem, h.identity, h.claim, h.worker, h.calls⟩, fun u p hrest => ?_⟩
      exact absurd hrest (by simp [RelayPairing.serve])
  | asking url =>
      refine ⟨?_, fun u p hrest => absurd hrest (by simp [RelayPairing.serve])⟩
      simp only [RelayPairing.serve, pairBegin]
      split
      · exact h
      have hcleared : ∀ u : String, Enrolment.WholeIn issued
          { url := if ("" : String) = "" then u else "", id := "", token := "" } :=
        fun u => .of_id rfl
      refine ⟨h.cfg, h.identity, hcleared url, ?_, h.calls⟩
      have hw := h.worker
      cases hpc : s.worker with
      | polling polled =>
          rw [hpc] at hw
          exact ⟨hw.1.trans (hasking url polled rfl hpc).symm, hw.2⟩
      | save u => exact hcleared u
      | saving u pc => exact hcleared u
      | mint u pc | claiming c | claimed c | enrolling c =>
          rw [hpc] at hw
          exact hw
      | idle | start u | starting u | enrolled => trivial
  | disconnect =>
      refine ⟨⟨.of_id rfl, h.identity, h.claim, h.worker, h.calls⟩, fun u p hrest => ?_⟩
      exact absurd hrest (by simp [RelayPairing.serve])
  | cleared =>
      refine ⟨⟨h.cfg, .of_id rfl, h.claim, h.worker, h.calls⟩, fun u p hrest => ?_⟩
      exact absurd hrest (by simp [RelayPairing.serve])
  | cancel =>
      refine ⟨⟨h.cfg, h.identity, h.claim, ?_, h.calls⟩,
        fun u p hrest => absurd hrest (by simp [RelayPairing.serve])⟩
      have hw := h.worker
      simp only [RelayPairing.serve, pairCancel]
      cases hpc : s.worker with
      | polling polled =>
          rw [hpc] at hw
          exact ⟨hw.1, by simp [Pairing.cancel]⟩
      | mint u pc | save u | saving u pc | claiming c | claimed c | enrolling c =>
          rw [hpc] at hw
          exact hw
      | idle | start u | starting u | enrolled => trivial

/-- **A decision of `serve_pairing`.** -/
lemma Whole.choose (h : s.Whole issued) (hidle : s.worker = .idle) (nowS : ℤ) :
    (s.choose nowS).Whole issued := by
  have hplain : ∀ p note pending, Whole
      { s with pairing := p, note := note, beginPending := pending } issued :=
    fun p note pending => ⟨h.cfg, h.identity, h.claim, by simp only [hidle]; trivial, h.calls⟩
  simp only [RelayPairing.choose]
  split
  · split
    · exact hplain _ _ _
    · exact ⟨h.cfg, h.identity, h.claim, trivial, h.calls⟩
  split
  · rename_i hdue
    split
    · exact hplain _ _ _
    · refine ⟨h.cfg, h.identity, h.claim, ⟨rfl, ?_⟩, h.calls⟩
      simp only [Pairing.pollDue, Bool.and_eq_true, decide_eq_true_eq] at hdue
      rw [hdue.1.1]
      simp
  split
  · split
    · exact hplain _ _ _
    · exact ⟨h.cfg, h.identity, h.claim, h.claim, h.calls⟩
  · exact hplain _ _ _

/-- **A step of the worker.** -/
lemma Whole.work {device : String} (h : s.Whole issued) (ht : s.work device = some t) :
    t.Whole issued := by
  have hw := h.worker
  rw [RelayPairing.work] at ht
  cases hpc : s.worker with
  | idle | starting url | polling url => simp [hpc] at ht
  | start url =>
      rw [hpc] at ht
      dsimp only at ht
      rw [Option.some.injEq] at ht
      subst ht
      refine ⟨h.cfg, h.identity, h.claim, ?_, h.calls⟩
      dsimp only
      split
      · exact h.cfg
      · trivial
  | mint url pc =>
      rw [hpc] at ht hw
      dsimp only at ht
      rw [Option.some.injEq] at ht
      subst ht
      exact ⟨hw, h.identity, h.claim, trivial, h.calls⟩
  | save url =>
      rw [hpc] at ht hw
      dsimp only at ht
      rw [Option.some.injEq] at ht
      subst ht
      exact ⟨h.cfg, h.identity, h.claim, hw, h.calls⟩
  | saving url pc =>
      rw [hpc] at ht hw
      dsimp only at ht
      rw [Option.some.injEq] at ht
      subst ht
      exact ⟨h.cfg, h.identity, h.claim, hw, h.calls⟩
  | claiming c =>
      rw [hpc] at ht hw
      dsimp only at ht
      rw [Option.some.injEq] at ht
      subst ht
      exact ⟨hw, h.identity, h.claim, hw, h.calls⟩
  | claimed c =>
      rw [hpc] at ht hw
      dsimp only at ht
      rw [Option.some.injEq] at ht
      subst ht
      refine ⟨h.cfg, h.identity, h.claim, ?_, h.calls⟩
      dsimp only
      split
      · exact hw
      · trivial
  | enrolling c =>
      rw [hpc] at ht hw
      dsimp only at ht
      rw [Option.some.injEq] at ht
      subst ht
      exact ⟨h.cfg, hw, h.claim, trivial, h.calls⟩
  | enrolled =>
      rw [hpc] at ht
      dsimp only at ht
      rw [Option.some.injEq] at ht
      subst ht
      exact ⟨h.cfg, h.identity, h.claim, trivial, h.calls⟩

/-- **The outcome of a poll.** -/
lemma Whole.pollReply {url : String} {r : Option (PairPollReply × ℤ)} {nowS : ℤ}
    (h : s.Whole issued) (hpc : s.worker = .polling url) :
    (s.pollReply r nowS).Whole (noteIssued s (.polled r nowS) issued) := by
  have hw := h.worker
  rw [hpc] at hw
  obtain ⟨hurl, hphase⟩ := hw
  cases r with
  | none => exact ⟨h.cfg, h.identity, h.claim, trivial, h.calls⟩
  | some p =>
      obtain ⟨r, code⟩ := p
      have hmore : s.Whole (noteIssued s (.polled (some (r, code)) nowS) issued) := by
        rw [noteIssued]
        cases s.issues (.polled (some (r, code)) nowS) with
        | none => exact h
        | some e => exact h.cons e
      simp only [RelayPairing.pollReply]
      split
      · rename_i hdone
        obtain ⟨hid, htoken, hcollector, hok⟩ := Pairing.onPollReply_done hphase hdone
        have hwaiting : s.pairing.phase = .waiting := by
          by_contra hne
          rw [Pairing.onPollReply, if_pos hne] at hdone
          exact hphase hdone
        refine ⟨hmore.cfg, hmore.identity, fun _ => ?_, trivial, hmore.calls⟩
        rw [noteIssued]
        simp only [issues, hpc, hwaiting, hok, RelayPairing.claim, hid, htoken, hcollector, ← hurl]
        simp
      · exact ⟨hmore.cfg, hmore.identity, hmore.claim, trivial, hmore.calls⟩

/-- What boots is what was saved. -/
lemma whole_boot {cfg : PairingConfig} (h : cfg.enrolment.WholeIn issued) :
    (boot cfg).Whole issued := by
  refine ⟨h, ?_, .of_id rfl, trivial, fun url pc hmem => absurd hmem (by simp [boot])⟩
  rw [boot]
  dsimp only
  split
  · exact h
  · exact .of_id rfl

/-- **One step of the relay.** -/
lemma whole_step {a : RelayPairAction} (h : s.Whole issued) (hc : s.keepsWhole a = true)
    (ht : s.step a = some t) : t.Whole (noteIssued s a issued) := by
  cases a with
  | request c =>
      rw [step] at ht
      split at ht
      · rename_i hreq
        rw [Option.some.injEq] at ht
        subst ht
        refine ⟨h.cfg, h.identity, h.claim, h.worker, fun url pc hmem => ?_⟩
        rcases List.mem_append.mp hmem with hmem | hmem
        · exact h.calls url pc hmem
        · rw [← List.mem_singleton.mp hmem] at hreq
          exact absurd hreq (by simp [isRequest])
      · exact absurd ht (by simp)
  | advance i =>
      rw [step] at ht
      cases hget : s.calls[i]? with
      | none => simp [hget] at ht
      | some c =>
          rw [hget] at ht
          dsimp only at ht
          rw [Option.some.injEq] at ht
          subst ht
          rw [keepsWhole, hget] at hc
          have hserve := h.serve (List.mem_of_getElem? hget)
            (by
              rintro url rfl
              simpa [or_assoc] using hc)
            (by
              rintro url polled rfl hpc
              simpa [hpc] using hc)
          have hcalls : (s.serve c).1.calls = s.calls := by
            cases c with
            | asking url =>
                simp only [RelayPairing.serve, pairBegin]
                split <;> rfl
            | begin url | began url | beginning url pc | disconnect | cleared | cancel => rfl
          refine ⟨hserve.1.cfg, hserve.1.identity, hserve.1.claim, hserve.1.worker,
            fun url pc hmem => ?_⟩
          rcases mem_calls hmem with hmem | hrest
          · exact h.calls url pc hmem
          · exact hserve.2 url pc hrest
  | tick nowS =>
      rw [step] at ht
      split at ht
      · rename_i hidle
        rw [Option.some.injEq] at ht
        subst ht
        exact h.choose hidle nowS
      · exact absurd ht (by simp)
  | work device => exact h.work ht
  | started r nowS =>
      rw [step] at ht
      split at ht
      · rw [Option.some.injEq] at ht
        subst ht
        cases r with
        | none => exact ⟨h.cfg, h.identity, h.claim, trivial, h.calls⟩
        | some p => exact ⟨h.cfg, h.identity, h.claim, trivial, h.calls⟩
      · exact absurd ht (by simp)
  | polled r nowS =>
      rw [step] at ht
      split at ht
      · rename_i url hpc
        rw [Option.some.injEq] at ht
        subst ht
        exact h.pollReply hpc
      · exact absurd ht (by simp)
  | restart writer k =>
      rw [step, Option.some.injEq] at ht
      subst ht
      refine whole_boot ?_
      rw [cfgAt]
      cases hwrite : s.toWrite writer with
      | none => exact h.cfg
      | some new =>
          have hnew : new.enrolment.WholeIn issued := by
            cases writer with
            | none =>
                have hw := h.worker
                rw [toWrite] at hwrite
                split at hwrite
                · rename_i hpc
                  rw [hpc] at hw
                  exact Option.some.inj hwrite ▸ hw
                · rename_i hpc
                  rw [hpc] at hw
                  exact Option.some.inj hwrite ▸ hw
                · exact absurd hwrite (by simp)
            | some i =>
                rw [toWrite] at hwrite
                split at hwrite
                · rename_i hget
                  exact Option.some.inj hwrite ▸ h.calls _ _ (List.mem_of_getElem? hget)
                · exact absurd hwrite (by simp)
          have hk : k = 0 ∨ 3 ≤ k := by
            simpa [keepsWhole, hwrite] using hc
          dsimp only
          have htorn := PairingConfig.enrolment_torn hk s.cfg new
          rcases htorn with heq | heq
          · rw [heq]
            exact h.cfg
          · rw [heq]
            exact hnew

end RelayPairing

end Multisite

import Multisite.Cloud.Pairing

/-!
The pairing of one role of the OBS plugin (`serve_pairing`, `reporter_pair_begin`,
`reporter_pair_cancel` and `adopt_role` of `obs/reporter.cpp`), and the strings a pairing issues.

The settings are edited as a whole; a save of the worker's is queued for OBS's UI thread, which
may come to it after the worker has given up waiting; a write of the file may fail.

* `one_pairing`: when a complete pairing and a paired identity hold what one pairing issued.
-/

namespace Multisite

/-- What a `serve_pairing` decides on. -/
inductive PairAct where
  | start
  | poll
  | saveClaim
  deriving DecidableEq, Repr

/-- How far the worker is with a role. -/
inductive PluginPc where
  | idle
  /-- Decided; the settings are to be read. -/
  | decided (act : PairAct)
  /-- Read, and without a device id; a save is to be queued. -/
  | mint (cfg : PairingConfig)
  | minting (url : String)
  | starting (url : String)
  | polling (url : String)
  /-- Read, for the claim to be filled in. -/
  | fill (cfg : PairingConfig)
  /-- Filled in; a save is to be queued. -/
  | claim (cfg : PairingConfig)
  | claiming
  /-- Saved; the slot is to be marked. -/
  | claimed
  /-- Read by `adopt_role`. -/
  | adopting (cfg : PairingConfig)
  deriving DecidableEq, Repr

/-- A role's settings and their file, its `Slot` and its `RoleIdentity`. -/
structure PluginPairing where
  settings : PairingConfig := {}
  file : PairingConfig := {}
  /-- The saves queued for the UI thread. -/
  queued : List PairingConfig := []
  identity : Enrolment := {}
  src : String := ""
  pairing : Pairing := {}
  beginPending : Bool := false
  claimSaved : Bool := true
  claimedId : String := ""
  claimedToken : String := ""
  claimedUrl : String := ""
  note : String := ""
  worker : PluginPc := .idle
  deriving DecidableEq, Repr

/-- What can happen to a role. -/
inductive PluginPairAction where
  /-- The settings are set, by the dock or one of the interfaces. -/
  | edit (cfg : PairingConfig) (written : Bool)
  /-- `reporter_pair_begin`. -/
  | begin
  /-- `reporter_pair_cancel`. -/
  | cancel
  /-- The worker's next `serve_pairing`. -/
  | tick (nowS : ℤ)
  /-- The worker goes on, with the device id it mints. -/
  | work (device : String)
  /-- The start request comes back, or is not reached. -/
  | started (r : Option (PairStartReply × ℤ)) (nowS : ℤ)
  /-- The poll request comes back, or is not reached. -/
  | polled (r : Option (PairPollReply × ℤ)) (nowS : ℤ)
  /-- The UI thread runs the next save. -/
  | runTask (written : Bool)
  /-- The worker waits no longer for its save. -/
  | timeout
  /-- The worker's next `adopt_role`. -/
  | adopt
  | restart
  deriving DecidableEq, Repr

namespace PluginPairing

/-- `set_settings`, `set_decoder_settings`: the copy in memory and the file. -/
def setSettings (s : PluginPairing) (cfg : PairingConfig) (written : Bool) : PluginPairing :=
  { s with settings := cfg, file := if written then cfg else s.file }

/-- `reporter_pair_begin`. -/
def pairBegin (s : PluginPairing) : PluginPairing :=
  if s.settings.collectorUrl = "" then s
  else
    { s with
      pairing := s.pairing.cancel
      beginPending := true
      claimSaved := false
      claimedId := ""
      claimedToken := ""
      claimedUrl := ""
      note := "" }

/-- `reporter_pair_cancel`. -/
def pairCancel (s : PluginPairing) : PluginPairing :=
  { s with pairing := s.pairing.cancel, beginPending := false, note := "" }

/-- `serve_pairing` up to its decision. -/
def choose (s : PluginPairing) (nowS : ℤ) : PluginPairing :=
  if s.beginPending then { s with worker := .decided .start }
  else
    let s := { s with pairing := s.pairing.tick nowS }
    if s.pairing.pollDue nowS then { s with worker := .decided .poll }
    else if !s.claimSaved && decide (s.claimedId ≠ "") then
      { s with worker := .decided .saveClaim }
    else s

/-- The settings read for what was decided. -/
def readCfg (s : PluginPairing) (act : PairAct) (device : String) : PluginPairing :=
  if s.settings.collectorUrl = "" then
    { s with
      beginPending := false
      pairing := s.pairing.cancel
      note := "enter the collector URL first"
      worker := .idle }
  else
    match act with
    | .start =>
        { s with
          worker := if s.settings.deviceId = "" then .mint { s.settings with deviceId := device }
            else .starting s.settings.collectorUrl }
    | .poll => { s with worker := .polling s.settings.collectorUrl }
    | .saveClaim => { s with worker := .fill s.settings }

/-- `src`. -/
def srcOf (cfg : PairingConfig) : String :=
  cfg.collectorUrl ++ "\n" ++ cfg.applianceId ++ "\n" ++ cfg.applianceToken

/-- `adopt_role`, with the settings it read. -/
def adoptRole (s : PluginPairing) (cfg : PairingConfig) : PluginPairing :=
  if !cfg.paired then
    if s.src ≠ "" ∨ s.identity.paired = true then { s with identity := {}, src := "" } else s
  else if s.src = srcOf cfg then s
  else if s.identity.paired = true ∧ s.identity = cfg.enrolment then { s with src := srcOf cfg }
  else { s with src := srcOf cfg, identity := cfg.enrolment }

/-- The claim filled into the settings read. -/
def fillClaim (s : PluginPairing) (cfg : PairingConfig) : PairingConfig :=
  { cfg with
    applianceId := s.claimedId
    applianceToken := s.claimedToken
    collectorUrl := if s.claimedUrl = "" then cfg.collectorUrl else s.claimedUrl }

/-- The worker's next step, with the device id it would mint.  Its save is done when none is
queued any more. -/
def work (s : PluginPairing) (device : String) : Option PluginPairing :=
  match s.worker with
  | .decided act => some (s.readCfg act device)
  | .mint cfg =>
      some { s with queued := s.queued ++ [cfg], worker := .minting cfg.collectorUrl }
  | .minting url => if s.queued = [] then some { s with worker := .starting url } else none
  | .fill cfg => some { s with worker := .claim (s.fillClaim cfg) }
  | .claim cfg => some { s with queued := s.queued ++ [cfg], worker := .claiming }
  | .claiming => if s.queued = [] then some { s with worker := .claimed } else none
  | .claimed => some { s with claimSaved := true, worker := .idle }
  | .adopting cfg => some { s.adoptRole cfg with worker := .idle }
  | _ => none

/-- The start request's outcome. -/
def startReply (s : PluginPairing) (r : Option (PairStartReply × ℤ)) (nowS : ℤ) :
    PluginPairing :=
  match r with
  | none =>
      { s with
        beginPending := false
        pairing := s.pairing.cancel
        note := "collector not reached"
        worker := .idle }
  | some (r, code) =>
      { s with
        beginPending := false
        note := ""
        pairing := s.pairing.onStartReply r code nowS
        worker := .idle }

/-- The poll request's outcome. -/
def pollReply (s : PluginPairing) (r : Option (PairPollReply × ℤ)) (nowS : ℤ) : PluginPairing :=
  match r with
  | none => { s with note := "collector not reached", worker := .idle }
  | some (r, code) =>
      let p := s.pairing.onPollReply r code nowS
      let s := { s with note := "", pairing := p, worker := .idle }
      if p.phase = .done then
        { s with
          claimedId := p.applianceId
          claimedToken := p.applianceToken
          claimedUrl := p.collectorUrl }
      else s

/-- One step. -/
def step (s : PluginPairing) : PluginPairAction → Option PluginPairing
  | .edit cfg written => some (s.setSettings cfg written)
  | .begin => some s.pairBegin
  | .cancel => some s.pairCancel
  | .tick nowS => if s.worker = .idle then some (s.choose nowS) else none
  | .work device => s.work device
  | .started r nowS =>
      match s.worker with
      | .starting _ => some (s.startReply r nowS)
      | _ => none
  | .polled r nowS =>
      match s.worker with
      | .polling _ => some (s.pollReply r nowS)
      | _ => none
  | .runTask written =>
      match s.queued with
      | [] => none
      | cfg :: rest => some { s.setSettings cfg written with queued := rest }
  | .timeout =>
      match s.worker with
      | .minting url => some { s with worker := .starting url }
      | .claiming => some { s with worker := .idle }
      | _ => none
  | .adopt => if s.worker = .idle then some { s with worker := .adopting s.settings } else none
  | .restart => some { settings := s.file, file := s.file }

/-! ### What is issued -/

/-- What a poll that completes the pairing issues. -/
def issues (s : PluginPairing) : PluginPairAction → Option Enrolment
  | .polled (some (r, _)) _ =>
      match s.worker with
      | .polling url =>
          if s.pairing.phase = .waiting ∧ r.ok = true then
            some
              { url := if r.collectorUrl = "" then url else r.collectorUrl
                id := r.applianceId
                token := r.applianceToken }
          else none
      | _ => none
  | _ => none

/-- The enrolments issued, newest first. -/
def noteIssued (s : PluginPairing) (a : PluginPairAction) (issued : List Enrolment) :
    List Enrolment :=
  (s.issues a).toList ++ issued

/-- Settings with the address `url` leave alone the one a code is polled at, and the one a claim
that names none is to be saved with. -/
def keepsAddress (s : PluginPairing) (url : String) : Bool :=
  (match s.worker with
    | .polling polled => decide (s.pairing.phase ≠ .waiting) || decide (url = polled)
    | _ => true) &&
  (s.claimSaved || decide (s.claimedId = "") || decide (s.claimedUrl ≠ "") ||
    decide (url = s.settings.collectorUrl))

/-- An edit leaves the three strings incomplete, or as they stand, or enters three that were
issued together; neither an edit nor a save moves an address a pairing still needs. -/
def keepsWhole (s : PluginPairing) (issued : List Enrolment) : PluginPairAction → Bool
  | .edit cfg _ =>
      (!cfg.paired || decide (cfg.enrolment = s.settings.enrolment) ||
        decide (cfg.enrolment ∈ issued)) && s.keepsAddress cfg.collectorUrl
  | .runTask _ =>
      match s.queued with
      | [] => true
      | cfg :: _ => s.keepsAddress cfg.collectorUrl
  | _ => true

/-! ### What a step keeps -/

/-- A claim not yet saved, with the address `url` for one it does not name. -/
def claim (s : PluginPairing) (url : String) : Enrolment :=
  { url := if s.claimedUrl = "" then url else s.claimedUrl
    id := s.claimedId
    token := s.claimedToken }

/-- What the worker has in hand. -/
def WorkerWhole (issued : List Enrolment) (s : PluginPairing) : PluginPc → Prop
  | .decided .poll => s.pairing.phase ≠ .done
  | .decided .saveClaim => s.claimSaved = false
  | .mint cfg => cfg.enrolment.WholeIn issued
  | .polling url =>
      s.pairing.phase ≠ .done ∧ (s.pairing.phase = .waiting → url = s.settings.collectorUrl)
  | .fill cfg => (s.claim cfg.collectorUrl).WholeIn issued
  | .claim cfg => cfg.enrolment.WholeIn issued
  | .adopting cfg => cfg.enrolment.WholeIn issued
  | _ => True

/-- Everything at the role that is complete was issued together. -/
structure Whole (s : PluginPairing) (issued : List Enrolment) : Prop where
  settings : s.settings.enrolment.WholeIn issued
  file : s.file.enrolment.WholeIn issued
  queued : ∀ cfg ∈ s.queued, cfg.enrolment.WholeIn issued
  identity : s.identity.WholeIn issued
  claim : s.claimSaved = false → (s.claim s.settings.collectorUrl).WholeIn issued
  worker : s.WorkerWhole issued s.worker

variable {s t : PluginPairing} {issued : List Enrolment}

/-- More may be issued. -/
lemma Whole.cons (h : s.Whole issued) (e : Enrolment) : s.Whole (e :: issued) where
  settings := h.settings.cons e
  file := h.file.cons e
  queued cfg hmem := (h.queued cfg hmem).cons e
  identity := h.identity.cons e
  claim hsaved := (h.claim hsaved).cons e
  worker := by
    have hw := h.worker
    cases hpc : s.worker with
    | mint cfg | fill cfg | claim cfg | adopting cfg =>
        rw [hpc] at hw
        exact Enrolment.WholeIn.cons hw e
    | polling url =>
        rw [hpc] at hw
        exact hw
    | decided act =>
        rw [hpc] at hw
        cases act with
        | start => trivial
        | poll => exact hw
        | saveClaim => exact hw
    | idle | minting url | starting url | claiming | claimed => trivial

/-- Settings with whole strings and an address that leaves alone what is needed of it. -/
lemma Whole.setSettings (h : s.Whole issued) {cfg : PairingConfig}
    (hcfg : cfg.enrolment.WholeIn issued) (hurl : s.keepsAddress cfg.collectorUrl = true)
    (written : Bool) : (s.setSettings cfg written).Whole issued := by
  rw [keepsAddress, Bool.and_eq_true] at hurl
  obtain ⟨hpolled, hclaim⟩ := hurl
  refine ⟨hcfg, ?_, h.queued, h.identity, fun hsaved => ?_, ?_⟩
  · cases written with
    | true => exact hcfg
    | false => exact h.file
  · have hunsaved : s.claimSaved = false := hsaved
    simp only [hunsaved, Bool.false_or, Bool.or_eq_true, decide_eq_true_eq] at hclaim
    rcases hclaim with (hid | hnamed) | hsame
    · exact .of_id hid
    · have hold := h.claim hunsaved
      rw [PluginPairing.claim, if_neg hnamed] at hold
      change Enrolment.WholeIn issued (PluginPairing.claim s cfg.collectorUrl)
      rw [PluginPairing.claim, if_neg hnamed]
      exact hold
    · change Enrolment.WholeIn issued (PluginPairing.claim s cfg.collectorUrl)
      rw [hsame]
      exact h.claim hunsaved
  · have hw := h.worker
    cases hpc : s.worker with
    | polling url =>
        rw [hpc] at hw hpolled
        simp only [Bool.or_eq_true, decide_eq_true_eq] at hpolled
        simp only [PluginPairing.setSettings, hpc]
        refine ⟨hw.1, fun hwaiting => ?_⟩
        rcases hpolled with hne | hsame
        · exact absurd hwaiting hne
        · exact hsame.symm
    | decided act =>
        rw [hpc] at hw
        simp only [PluginPairing.setSettings, hpc]
        cases act with
        | start => trivial
        | poll => exact hw
        | saveClaim => exact hw
    | mint c | fill c | claim c | adopting c =>
        rw [hpc] at hw
        simp only [PluginPairing.setSettings, hpc]
        exact hw
    | idle | minting url | starting url | claiming | claimed =>
        simp only [PluginPairing.setSettings, hpc]
        trivial

/-- `reporter_pair_begin` takes back the claim. -/
lemma Whole.pairBegin (h : s.Whole issued) : s.pairBegin.Whole issued := by
  rw [PluginPairing.pairBegin]
  split
  · exact h
  refine ⟨h.settings, h.file, h.queued, h.identity, fun _ => .of_id rfl, ?_⟩
  have hw := h.worker
  dsimp only
  cases hpc : s.worker with
  | polling url => exact ⟨by simp [Pairing.cancel], by simp [Pairing.cancel]⟩
  | decided act =>
      cases act with
      | start => trivial
      | poll => simp [WorkerWhole, Pairing.cancel]
      | saveClaim => rfl
  | fill c => exact Enrolment.WholeIn.of_id rfl
  | mint c | claim c | adopting c =>
      rw [hpc] at hw
      exact hw
  | idle | minting url | starting url | claiming | claimed => trivial

/-- `reporter_pair_cancel` leaves the claim. -/
lemma Whole.pairCancel (h : s.Whole issued) : s.pairCancel.Whole issued := by
  refine ⟨h.settings, h.file, h.queued, h.identity, h.claim, ?_⟩
  have hw := h.worker
  rw [PluginPairing.pairCancel]
  dsimp only
  cases hpc : s.worker with
  | polling url => exact ⟨by simp [Pairing.cancel], by simp [Pairing.cancel]⟩
  | decided act =>
      rw [hpc] at hw
      cases act with
      | start => trivial
      | poll => simp [WorkerWhole, Pairing.cancel]
      | saveClaim => exact hw
  | mint c | fill c | claim c | adopting c =>
      rw [hpc] at hw
      exact hw
  | idle | minting url | starting url | claiming | claimed => trivial

/-- **A decision of `serve_pairing`.** -/
lemma Whole.choose (h : s.Whole issued) (hidle : s.worker = .idle) (nowS : ℤ) :
    (s.choose nowS).Whole issued := by
  rw [PluginPairing.choose]
  split
  · exact ⟨h.settings, h.file, h.queued, h.identity, h.claim, trivial⟩
  dsimp only
  split
  · rename_i hdue
    refine ⟨h.settings, h.file, h.queued, h.identity, h.claim, ?_⟩
    simp only [Pairing.pollDue, Bool.and_eq_true, decide_eq_true_eq] at hdue
    simp only [WorkerWhole]
    rw [hdue.1.1]
    simp
  split
  · rename_i hsave
    refine ⟨h.settings, h.file, h.queued, h.identity, h.claim, ?_⟩
    simp only [Bool.and_eq_true, Bool.not_eq_true'] at hsave
    exact hsave.1
  · refine ⟨h.settings, h.file, h.queued, h.identity, h.claim, ?_⟩
    rw [hidle]
    trivial

/-- The settings read. -/
lemma Whole.readCfg {act : PairAct} (h : s.Whole issued) (hpc : s.worker = .decided act)
    (device : String) : (s.readCfg act device).Whole issued := by
  have hw := h.worker
  rw [hpc] at hw
  rw [PluginPairing.readCfg.eq_def]
  split
  · exact ⟨h.settings, h.file, h.queued, h.identity, h.claim, trivial⟩
  cases act with
  | start =>
      refine ⟨h.settings, h.file, h.queued, h.identity, h.claim, ?_⟩
      dsimp only
      split
      · exact h.settings
      · trivial
  | poll => exact ⟨h.settings, h.file, h.queued, h.identity, h.claim, hw, fun _ => rfl⟩
  | saveClaim => exact ⟨h.settings, h.file, h.queued, h.identity, h.claim, h.claim hw⟩

/-- `adopt_role`. -/
lemma Whole.adoptRole {cfg : PairingConfig} (h : s.Whole issued)
    (hcfg : cfg.enrolment.WholeIn issued) :
    Whole { s.adoptRole cfg with worker := .idle } issued := by
  have hkeep : ∀ (e : Enrolment) (src : String), e.WholeIn issued →
      Whole { s with identity := e, src := src, worker := .idle } issued :=
    fun e src he => ⟨h.settings, h.file, h.queued, he, h.claim, trivial⟩
  rw [PluginPairing.adoptRole]
  split
  · split
    · exact hkeep _ _ (.of_id rfl)
    · exact hkeep _ _ h.identity
  split
  · exact hkeep _ _ h.identity
  split
  · exact hkeep _ _ h.identity
  · exact hkeep _ _ hcfg

/-- **A step of the worker.** -/
lemma Whole.work {device : String} (h : s.Whole issued) (ht : s.work device = some t) :
    t.Whole issued := by
  have hw := h.worker
  have hqueue : ∀ (cfg : PairingConfig) (pc : PluginPc), cfg.enrolment.WholeIn issued →
      s.WorkerWhole issued pc →
      Whole { s with queued := s.queued ++ [cfg], worker := pc } issued := by
    intro cfg pc hcfg hpc
    refine ⟨h.settings, h.file, fun c hmem => ?_, h.identity, h.claim, hpc⟩
    rcases List.mem_append.mp hmem with hmem | hmem
    · exact h.queued c hmem
    · rw [List.mem_singleton.mp hmem]
      exact hcfg
  rw [PluginPairing.work] at ht
  cases hpc : s.worker with
  | idle | starting url | polling url => simp [hpc] at ht
  | decided act =>
      simp only [hpc, Option.some.injEq] at ht
      subst ht
      exact h.readCfg hpc device
  | mint cfg =>
      simp only [hpc, Option.some.injEq] at ht hw
      subst ht
      exact hqueue cfg _ hw trivial
  | minting url =>
      simp only [hpc, Option.ite_none_right_eq_some, Option.some.injEq] at ht
      obtain ⟨-, rfl⟩ := ht
      exact ⟨h.settings, h.file, h.queued, h.identity, h.claim, trivial⟩
  | fill cfg =>
      simp only [hpc, Option.some.injEq] at ht hw
      subst ht
      exact ⟨h.settings, h.file, h.queued, h.identity, h.claim, hw⟩
  | claim cfg =>
      simp only [hpc, Option.some.injEq] at ht hw
      subst ht
      exact hqueue cfg _ hw trivial
  | claiming =>
      simp only [hpc, Option.ite_none_right_eq_some, Option.some.injEq] at ht
      obtain ⟨-, rfl⟩ := ht
      exact ⟨h.settings, h.file, h.queued, h.identity, h.claim, trivial⟩
  | claimed =>
      simp only [hpc, Option.some.injEq] at ht
      subst ht
      exact ⟨h.settings, h.file, h.queued, h.identity, fun hsaved => absurd hsaved (by simp),
        trivial⟩
  | adopting cfg =>
      simp only [hpc, Option.some.injEq] at ht hw
      subst ht
      exact h.adoptRole hw

/-- **The outcome of a poll.** -/
lemma Whole.pollReply {url : String} {r : Option (PairPollReply × ℤ)} {nowS : ℤ}
    (h : s.Whole issued) (hpc : s.worker = .polling url) :
    (s.pollReply r nowS).Whole (noteIssued s (.polled r nowS) issued) := by
  have hw := h.worker
  rw [hpc] at hw
  obtain ⟨hphase, hurl⟩ := hw
  cases r with
  | none => exact ⟨h.settings, h.file, h.queued, h.identity, h.claim, trivial⟩
  | some p =>
      obtain ⟨r, code⟩ := p
      have hmore : s.Whole (noteIssued s (.polled (some (r, code)) nowS) issued) := by
        rw [noteIssued]
        cases s.issues (.polled (some (r, code)) nowS) with
        | none => exact h
        | some e => exact h.cons e
      simp only [PluginPairing.pollReply]
      split
      · rename_i hdone
        obtain ⟨hid, htoken, hcollector, hok⟩ := Pairing.onPollReply_done hphase hdone
        have hwaiting : s.pairing.phase = .waiting := by
          by_contra hne
          rw [Pairing.onPollReply, if_pos hne] at hdone
          exact hphase hdone
        refine ⟨hmore.settings, hmore.file, hmore.queued, hmore.identity, fun _ _ => ?_, trivial⟩
        rw [noteIssued]
        simp only [issues, hpc, hwaiting, hok, PluginPairing.claim, hid, htoken, hcollector,
          hurl hwaiting]
        simp
      · exact ⟨hmore.settings, hmore.file, hmore.queued, hmore.identity, hmore.claim, trivial⟩

/-- **One step of the plugin.** -/
lemma Whole.step {a : PluginPairAction} (h : s.Whole issued)
    (hc : s.keepsWhole issued a = true) (ht : s.step a = some t) :
    t.Whole (noteIssued s a issued) := by
  cases a with
  | edit cfg written =>
      rw [PluginPairing.step, Option.some.injEq] at ht
      subst ht
      simp only [keepsWhole, Bool.and_eq_true, Bool.or_eq_true, Bool.not_eq_true',
        decide_eq_true_eq] at hc
      obtain ⟨hcfg, hurl⟩ := hc
      refine h.setSettings ?_ hurl written
      rcases hcfg with (hincomplete | hsame) | hissued
      · exact fun hp => absurd hp (by rw [← PairingConfig.paired, hincomplete]; simp)
      · rw [hsame]
        exact h.settings
      · exact fun _ => hissued
  | begin =>
      rw [PluginPairing.step, Option.some.injEq] at ht
      subst ht
      exact h.pairBegin
  | cancel =>
      rw [PluginPairing.step, Option.some.injEq] at ht
      subst ht
      exact h.pairCancel
  | tick nowS =>
      rw [PluginPairing.step, Option.ite_none_right_eq_some, Option.some.injEq] at ht
      obtain ⟨hidle, rfl⟩ := ht
      exact h.choose hidle nowS
  | work device => exact h.work ht
  | started r nowS =>
      rw [PluginPairing.step] at ht
      split at ht
      · rw [Option.some.injEq] at ht
        subst ht
        cases r with
        | none => exact ⟨h.settings, h.file, h.queued, h.identity, h.claim, trivial⟩
        | some p => exact ⟨h.settings, h.file, h.queued, h.identity, h.claim, trivial⟩
      · exact absurd ht (by simp)
  | polled r nowS =>
      rw [PluginPairing.step] at ht
      split at ht
      · rename_i url hpc
        rw [Option.some.injEq] at ht
        subst ht
        exact h.pollReply hpc
      · exact absurd ht (by simp)
  | runTask written =>
      rw [PluginPairing.step] at ht
      split at ht
      · exact absurd ht (by simp)
      · rename_i cfg rest hqueued
        rw [Option.some.injEq] at ht
        subst ht
        simp only [keepsWhole, hqueued] at hc
        have hset := h.setSettings (h.queued cfg (by simp [hqueued])) hc written
        exact ⟨hset.settings, hset.file,
          fun c hmem => h.queued c (by simp [hqueued, hmem]), hset.identity, hset.claim,
          hset.worker⟩
  | timeout =>
      rw [PluginPairing.step] at ht
      split at ht
      · rw [Option.some.injEq] at ht
        subst ht
        exact ⟨h.settings, h.file, h.queued, h.identity, h.claim, trivial⟩
      · rw [Option.some.injEq] at ht
        subst ht
        exact ⟨h.settings, h.file, h.queued, h.identity, h.claim, trivial⟩
      · exact absurd ht (by simp)
  | adopt =>
      rw [PluginPairing.step, Option.ite_none_right_eq_some, Option.some.injEq] at ht
      obtain ⟨-, rfl⟩ := ht
      exact ⟨h.settings, h.file, h.queued, h.identity, h.claim, h.settings⟩
  | restart =>
      rw [PluginPairing.step, Option.some.injEq] at ht
      subst ht
      exact ⟨h.file, h.file, by simp, .of_id rfl, fun hsaved => absurd hsaved (by simp), trivial⟩

end PluginPairing

/-! ### The statement -/

/-- The bearer a request would carry, and the collector it would go to. -/
def Enrolment.bearer (e : Enrolment) : Option (String × String) :=
  if e.paired then some (e.url, e.token) else none

/-- What is saved and what the identity holds come from one pairing each, and a bearer goes to
the collector that issued it. -/
structure OnePairing (saved identity : Enrolment) (issued : List Enrolment) : Prop where
  saved_whole : saved.WholeIn issued
  identity_whole : identity.WholeIn issued
  bearer : ∀ b ∈ identity.bearer, ∃ e ∈ issued, b = (e.url, e.token)

lemma OnePairing.of_whole {saved identity : Enrolment} {issued : List Enrolment}
    (hs : saved.WholeIn issued) (hi : identity.WholeIn issued) :
    OnePairing saved identity issued := by
  refine ⟨hs, hi, fun b hb => ?_⟩
  rw [Enrolment.bearer, Option.mem_def, Option.ite_none_right_eq_some, Option.some.injEq] at hb
  exact ⟨identity, hi hb.1, hb.2.symm⟩

namespace RelayPairing

/-- A relay started over a pairing that was issued together, or incomplete. -/
def Started (x : RelayPairing × List Enrolment) : Prop :=
  ∃ cfg issued, cfg.enrolment.WholeIn issued ∧ x = (boot cfg, issued)

end RelayPairing

namespace PluginPairing

/-- A plugin started over settings with a pairing that was issued together, or incomplete. -/
def Started (x : PluginPairing × List Enrolment) : Prop :=
  ∃ cfg issued, cfg.enrolment.WholeIn issued ∧ x = ({ settings := cfg, file := cfg }, issued)

end PluginPairing

/-- **An enrolment comes from one pairing**, in every run of the relay in which no address is
saved beside the id and token of another pairing or asked about during its poll and no stop
tears a save, and in every run of the plugin in which no edit or late save does the like. -/
theorem one_pairing (x : RelayPairing × List Enrolment) (y : PluginPairing × List Enrolment) :
    (Lib.Reach (Lib.noted RelayPairing.step RelayPairing.noteIssued)
        (fun x a => x.1.keepsWhole a = true) RelayPairing.Started x →
      OnePairing x.1.cfg.enrolment x.1.identity x.2) ∧
    (Lib.Reach (Lib.noted PluginPairing.step PluginPairing.noteIssued)
        (fun y a => y.1.keepsWhole y.2 a = true) PluginPairing.Started y →
      OnePairing y.1.settings.enrolment y.1.identity y.2) := by
  constructor
  · intro hx
    have hwhole : x.1.Whole x.2 := by
      refine hx.invariant (I := fun x => x.1.Whole x.2) ?_ ?_
      · rintro _ ⟨cfg, issued, hcfg, rfl⟩
        exact RelayPairing.whole_boot hcfg
      · rintro ⟨s, issued⟩ a ⟨t, issued'⟩ hs hc ht
        obtain ⟨ht, rfl⟩ := Lib.noted_eq_some.mp ht
        exact RelayPairing.whole_step hs hc ht
    exact .of_whole hwhole.cfg hwhole.identity
  · intro hy
    have hwhole : y.1.Whole y.2 := by
      refine hy.invariant (I := fun y => y.1.Whole y.2) ?_ ?_
      · rintro _ ⟨cfg, issued, hcfg, rfl⟩
        exact ⟨hcfg, hcfg, by simp, .of_id rfl, fun hsaved => absurd hsaved (by simp), trivial⟩
      · rintro ⟨s, issued⟩ a ⟨t, issued'⟩ hs hc ht
        obtain ⟨ht, rfl⟩ := Lib.noted_eq_some.mp ht
        exact hs.step hc ht
    exact .of_whole hwhole.settings hwhole.identity

/-! ### Runs -/

namespace RelayPairing

/-- A code approved and its claim saved, from the request on. -/
def samplePairing (url : String) : List RelayPairAction :=
  [.request (.begin url), .advance 0, .advance 0, .advance 0, .advance 0,
    .tick 0, .work "dev", .work "dev",
    .started (some ({ ok := true, userCode := "AB", pollToken := "p" }, 200)) 0,
    .tick 5, .polled (some ({ ok := true, applianceId := "id", applianceToken := "tok" }, 200)) 5,
    .tick 6, .work "", .work "", .work "", .work "", .work "", .work ""]

end RelayPairing

namespace PluginPairing

/-- The same in the plugin, from an edit that enters the address. -/
def samplePairing (url : String) : List PluginPairAction :=
  [.edit { collectorUrl := url } true, .begin, .tick 0, .work "dev", .work "", .runTask true,
    .work "",
    .started (some ({ ok := true, userCode := "AB", pollToken := "p" }, 200)) 0,
    .tick 5, .work "",
    .polled (some ({ ok := true, applianceId := "id", applianceToken := "tok" }, 200)) 5,
    .tick 6, .work "", .work "", .work "", .runTask true, .work "", .work "",
    .adopt, .work ""]

end PluginPairing

theorem one_pairing_completed :
    (∃ x : RelayPairing × List Enrolment, OnePairing x.1.cfg.enrolment x.1.identity x.2 ∧
      x.1.identity.bearer = some ("https://a", "tok")) ∧
    ∃ x : PluginPairing × List Enrolment, OnePairing x.1.settings.enrolment x.1.identity x.2 ∧
      x.1.identity.bearer = some ("https://a", "tok") := by
  obtain ⟨x, hx, hb⟩ := (Lib.exists_reach_guarded
    (({}, []) : RelayPairing × List Enrolment) (RelayPairing.samplePairing "https://a")
    ⟨{}, [], .of_id rfl, rfl⟩ (by decide +kernel) :
    ∃ x, Lib.Reach (Lib.noted RelayPairing.step RelayPairing.noteIssued)
        (fun x a => x.1.keepsWhole a = true) RelayPairing.Started x ∧
      x.1.identity.bearer = some ("https://a", "tok"))
  obtain ⟨y, hy, hb'⟩ := (Lib.exists_reach_guarded
    (({}, []) : PluginPairing × List Enrolment) (PluginPairing.samplePairing "https://a")
    ⟨{}, [], .of_id rfl, rfl⟩ (by decide +kernel) :
    ∃ x, Lib.Reach (Lib.noted PluginPairing.step PluginPairing.noteIssued)
        (fun x a => x.1.keepsWhole x.2 a = true) PluginPairing.Started x ∧
      x.1.identity.bearer = some ("https://a", "tok"))
  exact ⟨⟨x, (one_pairing x y).1 hx, hb⟩, ⟨y, (one_pairing x y).2 hy, hb'⟩⟩

/-- Paired with one collector, and the address of another typed: the id and the token stand beside
it, and the first's token would go to the second, at the relay from its next start on. -/
theorem pairing_mixed :
    (∃ x, Lib.Reach (Lib.noted RelayPairing.step RelayPairing.noteIssued) Lib.anyStep
        RelayPairing.Started x ∧
      x.1.cfg.paired = true ∧ x.1.cfg.enrolment ∉ x.2 ∧
      x.1.identity.bearer = some ("https://b", "tok") ∧
      x.2 = [{ url := "https://a", id := "id", token := "tok" }]) ∧
    ∃ x, Lib.Reach (Lib.noted PluginPairing.step PluginPairing.noteIssued) Lib.anyStep
        PluginPairing.Started x ∧
      x.1.identity.bearer = some ("https://b", "tok") ∧
      x.2 = [{ url := "https://a", id := "id", token := "tok" }] :=
  ⟨Lib.exists_reach (({}, []) : RelayPairing × List Enrolment)
    (RelayPairing.samplePairing "https://a" ++
      [.request (.begin "https://b"), .advance 0, .advance 0, .advance 0, .restart none 0])
    ⟨{}, [], .of_id rfl, rfl⟩ (by decide +kernel),
  Lib.exists_reach (({}, []) : PluginPairing × List Enrolment)
    (PluginPairing.samplePairing "https://a" ++
      [.edit { collectorUrl := "https://b", applianceId := "id", applianceToken := "tok" } true,
        .adopt, .work ""])
    ⟨{}, [], .of_id rfl, rfl⟩ (by decide +kernel)⟩

end Multisite

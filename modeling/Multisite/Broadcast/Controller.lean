import Multisite.Lib.Run

/-!
The controller of a broadcast, `BroadcastController` of `obs/broadcast_controller.cpp`: going live
with an output and its encoders, ending, and the monitor of the link that runs in between.

The controller runs on one thread; the monitor's thread takes its turns in between, also in the
middle of `go_live`, which waits for `libobs` several times.

* `objects_accounted`: in every run what `libobs` has is what the controller holds, and nothing is
  let go of twice;
* `monitor_lives`: the monitor lives as long as none of its turns falls into `go_live`, and one
  that does ends it until settings are saved or a broadcast is over.
-/

namespace Multisite

open Lib

/-! ### The settings and the storage they name -/

/-- `BroadcastSettings`, as far as the controller goes by them. -/
structure BroadcastSettings where
  storageProvider : String := ""
  endpointHost : String := ""
  r2AccountId : String := ""
  bucket : String := ""
  accessKeyId : String := ""
  secretAccessKey : String := ""
  videoEncoderId : String := "obs_x264"
  audioTracks : ℤ := 1
  captionSource : String := "\x01auto"
  lanEnabled : Bool := false
  cloudEnabled : Bool := true
  deriving DecidableEq

/-- What `reporter_cloud_identity` shows of a pairing: whether it is one, and whether its
credentials have arrived. -/
structure CloudView where
  paired : Bool
  present : Bool
  deriving DecidableEq

/-- The storage the link is a link to. -/
inductive StorageLeg where
  | paired
  | typed (endpointHost r2AccountId bucket accessKeyId secretAccessKey : String)
  deriving DecidableEq

namespace BroadcastSettings

/-- The typed fields name no storage. -/
def untyped (cfg : BroadcastSettings) : Bool :=
  cfg.bucket = "" || (cfg.endpointHost = "" && cfg.r2AccountId = "") ||
    cfg.accessKeyId = "" || cfg.secretAccessKey = ""

/-- The storage the typed fields name. -/
def typed (cfg : BroadcastSettings) : StorageLeg :=
  .typed cfg.endpointHost cfg.r2AccountId cfg.bucket cfg.accessKeyId cfg.secretAccessKey

/-- What `go_live` refuses before it asks `libobs` for anything, and in which words. -/
def refusal (cfg : BroadcastSettings) (id : Option CloudView) : Option String :=
  if cfg.cloudEnabled && cfg.storageProvider = "multisite_cloud" then
    if !id.any (·.paired) then
      some ("This machine is set to store through Multisite Cloud but is not paired yet. Open " ++
        "the Cloud section above and press Connect, or choose a different storage provider.")
    else if !id.any (·.present) then
      some ("Paired to Multisite Cloud, but the bucket and credentials have not arrived yet. If " ++
        "this persists, check that the machine can reach the Cloud service.")
    else none
  else if cfg.cloudEnabled then
    if cfg.bucket = "" then some "Bucket is required"
    else if cfg.endpointHost = "" && cfg.r2AccountId = "" then
      some "Set either an R2 Account ID or an endpoint host"
    else if cfg.accessKeyId = "" || cfg.secretAccessKey = "" then
      some "Access Key ID and Secret Access Key are required"
    else none
  else if !cfg.lanEnabled then
    some ("Cloud delivery is disabled and LAN delivery is off — nothing would be delivered " ++
      "anywhere. Enable LAN delivery first, or turn cloud delivery back on.")
  else none

/-- `start_idle_monitor`: what is probed, if anything. -/
def monitored (cfg : BroadcastSettings) (id : Option CloudView) : Option StorageLeg :=
  if cfg.storageProvider = "multisite_cloud" && id.any (·.paired) then
    if id.any (·.present) then some .paired else none
  else if cfg.untyped then none
  else some cfg.typed

/-- The audio encoders that `go_live` makes. -/
def tracks (cfg : BroadcastSettings) : ℕ := (max 1 (min 6 cfg.audioTracks)).toNat

/-- The video encoder that `go_live` asks for. -/
def encoderId (cfg : BroadcastSettings) (available : List String) : String :=
  let id := if cfg.videoEncoderId = "" then "obs_x264" else cfg.videoEncoderId
  if id ∈ available then id else "obs_x264"

end BroadcastSettings

/-! ### The controller -/

/-- What the controller has asked `libobs` for: the numbers of the objects it has, and whether one
was let go of, or handed on, that it did not have. -/
structure LibObs where
  next : ℕ := 0
  alive : List ℕ := []
  misused : Bool := false
  deriving DecidableEq

namespace LibObs

/-- An object is made. -/
def make (o : LibObs) : LibObs := { o with next := o.next + 1, alive := o.next :: o.alive }

/-- An object is handed to another. -/
def hand (o : LibObs) (x : ℕ) : LibObs := { o with misused := o.misused || x ∉ o.alive }

/-- An object is let go of. -/
def release (o : LibObs) (x : ℕ) : LibObs :=
  { o.hand x with alive := o.alive.erase x }

end LibObs

/-- `IdleMonitor`: what it probes, whether its thread runs, and what the last probe said. -/
structure IdleMonitor where
  leg : StorageLeg
  alive : Bool := true
  reachable : Option Bool := none
  deriving DecidableEq

/-- Where the controller's thread is in `go_live`. -/
inductive GoLiveStage where
  /-- Not in it. -/
  | rest
  | video
  | audio (made : ℕ)
  | start
  deriving DecidableEq

/-- `BroadcastController`. -/
structure Broadcast where
  cfg : BroadcastSettings := {}
  output : Option ℕ := none
  venc : Option ℕ := none
  aencs : List ℕ := []
  /-- The output that the captions are sent to, while the bridge runs. -/
  captions : Option ℕ := none
  idle : Option IdleMonitor := none
  obs : LibObs := {}
  stage : GoLiveStage := .rest
  /-- What the last `go_live` answered. -/
  error : String := ""
  deriving DecidableEq

/-- What can happen. -/
inductive BroadcastStep where
  /-- `set_settings`. -/
  | setSettings (cfg : BroadcastSettings) (id : Option CloudView)
  /-- `go_live` begins, and the output is made or not. -/
  | goLive (id : Option CloudView) (made : Bool)
  /-- The video encoder is made or not. -/
  | videoEncoder (available : List String) (made : Bool)
  /-- The next audio encoder is made or not. -/
  | audioEncoder (made : Bool)
  /-- The output starts, or says why not. -/
  | outputStart (refused : Option String)
  /-- `end_broadcast`. -/
  | endBroadcast (id : Option CloudView)
  /-- `end_if_stopped_by_itself`. -/
  | endIfStopped (active : Bool) (id : Option CloudView)
  /-- `unload`. -/
  | unload
  /-- A turn of the monitor's thread, and what a probe would say. -/
  | probe (reachable : Bool)

namespace Broadcast

variable (s : Broadcast)

/-- What the controller holds. -/
def held : List ℕ := s.output.toList ++ s.venc.toList ++ s.aencs

/-- `is_live`. -/
def isLive : Bool := s.output.isSome

/-- `stop_idle_monitor`, which waits for the thread. -/
def stopIdleMonitor : Broadcast := { s with idle := none }

/-- `start_idle_monitor`. -/
def startIdleMonitor (id : Option CloudView) : Broadcast :=
  let s := s.stopIdleMonitor
  if s.isLive then s
  else { s with idle := (s.cfg.monitored id).map fun leg => { leg := leg } }

/-- `release_all`. -/
def releaseAll : Broadcast :=
  let obs := s.aencs.foldl LibObs.release s.obs
  let obs := s.venc.toList.foldl LibObs.release obs
  let obs := s.output.toList.foldl LibObs.release obs
  { s with obs := obs, output := none, venc := none, aencs := [] }

/-- `go_live` gives up: everything is let go of, and why is said. -/
def giveUp (error : String) : Broadcast :=
  { s.releaseAll with stage := .rest, error := error }

/-- `go_live`, up to the output. -/
def goLive (id : Option CloudView) (made : Bool) : Broadcast :=
  if s.isLive then { s with error := "already broadcasting" }
  else
    match s.cfg.refusal id with
    | some error => { s with error := error }
    | none =>
        if made then { s with obs := s.obs.make, output := some s.obs.next, stage := .video }
        else { s with error := "could not create the multisite output (is the plugin loaded?)" }

/-- The video encoder, set on the output. -/
def videoEncoder (output : ℕ) (available : List String) (made : Bool) : Broadcast :=
  if made then
    { s with obs := s.obs.make.hand output, venc := some s.obs.next, stage := .audio 0 }
  else s.giveUp ("could not create the video encoder '" ++ s.cfg.encoderId available ++ "'")

/-- The audio encoder after the first `k`, set on the output. -/
def audioEncoder (output k : ℕ) (made : Bool) : Broadcast :=
  if made then
    { s with
      obs := s.obs.make.hand output
      aencs := s.aencs ++ [s.obs.next]
      stage := if k + 1 < s.cfg.tracks then .audio (k + 1) else .start }
  else s.giveUp ("could not create audio encoder for track " ++ toString (k + 1))

/-- The output is started; the captions go to it, and the monitor is not needed any more. -/
def outputStart (output : ℕ) (refused : Option String) : Broadcast :=
  match refused with
  | some why =>
      s.giveUp (if why = "" then "the output refused to start — see the OBS log" else why)
  | none =>
      let captions := if s.cfg.captionSource = "" then none else some output
      { s with obs := s.obs.hand output, captions := captions, stage := .rest }.stopIdleMonitor

/-- `end_broadcast`: the captions first, which have the output. -/
def endBroadcast (id : Option CloudView) : Broadcast :=
  match s.output with
  | none => s
  | some output =>
      ({ s with captions := none, obs := s.obs.hand output }.releaseAll).startIdleMonitor id

/-- A turn of `idle_probe_loop`. -/
def probe (m : IdleMonitor) (reachable : Bool) : Broadcast :=
  if s.isLive then { s with idle := some { m with alive := false } }
  else { s with idle := some { m with reachable := some reachable } }

/-- One step; the controller's thread does one thing at a time. -/
def step : BroadcastStep → Option Broadcast
  | .setSettings cfg id =>
      if s.stage = .rest then some ({ s with cfg := cfg }.startIdleMonitor id) else none
  | .goLive id made => if s.stage = .rest then some (s.goLive id made) else none
  | .videoEncoder available made =>
      match s.stage, s.output with
      | .video, some output => some (s.videoEncoder output available made)
      | _, _ => none
  | .audioEncoder made =>
      match s.stage, s.output with
      | .audio k, some output => some (s.audioEncoder output k made)
      | _, _ => none
  | .outputStart refused =>
      match s.stage, s.output with
      | .start, some output => some (s.outputStart output refused)
      | _, _ => none
  | .endBroadcast id => if s.stage = .rest then some (s.endBroadcast id) else none
  | .endIfStopped active id =>
      if s.stage = .rest then some (if s.isLive && !active then s.endBroadcast id else s)
      else none
  | .unload => if s.stage = .rest then some { s with captions := none } else none
  | .probe reachable =>
      match s.idle with
      | some m => if m.alive then some (s.probe m reachable) else none
      | none => none

end Broadcast

-- their equations are made here, once, and not by the first lemmas that ask for them
section
attribute [local simp] BroadcastSettings.refusal BroadcastSettings.monitored
  Broadcast.startIdleMonitor Broadcast.goLive Broadcast.outputStart Broadcast.endBroadcast
  Broadcast.step
end

/-! ### What is held -/

namespace LibObs

/-- What `libobs` has is what is held, and nothing was misused. -/
structure Accounts (o : LibObs) (held : List ℕ) : Prop where
  unmisused : o.misused = false
  perm : o.alive.Perm held

variable {o : LibObs} {held held' : List ℕ} {x : ℕ}

lemma Accounts.of_perm (h : o.Accounts held) (hp : held.Perm held') : o.Accounts held' :=
  ⟨h.unmisused, h.perm.trans hp⟩

lemma Accounts.make (h : o.Accounts held) : o.make.Accounts (o.next :: held) :=
  ⟨h.unmisused, h.perm.cons o.next⟩

lemma Accounts.hand (h : o.Accounts held) (hx : x ∈ held) : (o.hand x).Accounts held := by
  refine ⟨?_, h.perm⟩
  simp [LibObs.hand, h.unmisused, h.perm.mem_iff.mpr hx]

lemma Accounts.release (h : o.Accounts (x :: held)) : (o.release x).Accounts held := by
  refine ⟨(h.hand List.mem_cons_self).unmisused, ?_⟩
  have := h.perm.erase x
  rwa [List.erase_cons_head] at this

/-- Several are let go of, one after the other. -/
lemma Accounts.releases (l : List ℕ) (h : o.Accounts (l ++ held)) :
    (l.foldl LibObs.release o).Accounts held := by
  induction l generalizing o with
  | nil => exact h
  | cons x l ih => exact ih h.release

end LibObs

namespace Broadcast

variable {s t : Broadcast}

/-- What the controller has at each stage of `go_live`. -/
def StageOk (s : Broadcast) : Prop :=
  match s.stage with
  | .rest =>
      (s.output = none ∧ s.venc = none ∧ s.aencs = []) ∨
        (s.output.isSome = true ∧ s.venc.isSome = true ∧ 1 ≤ s.aencs.length ∧
          s.aencs.length ≤ 6 ∧ s.idle = none)
  | .video => s.output.isSome = true ∧ s.venc = none ∧ s.aencs = []
  | .audio k =>
      s.output.isSome = true ∧ s.venc.isSome = true ∧ s.aencs.length = k ∧ k < s.cfg.tracks
  | .start => s.output.isSome = true ∧ s.venc.isSome = true ∧ s.aencs.length = s.cfg.tracks

/-- The controller's books: what it holds is what `libobs` has, it holds what the stage says, and
the captions have no output but its own. -/
structure Booked (s : Broadcast) : Prop where
  accounts : s.obs.Accounts s.held
  stage : s.StageOk
  captions : ∀ o, s.captions = some o → s.output = some o ∧ s.stage = .rest

lemma tracks_bounds (cfg : BroadcastSettings) : 1 ≤ cfg.tracks ∧ cfg.tracks ≤ 6 := by
  rw [BroadcastSettings.tracks]
  omega

lemma releaseAll_accounts (h : s.obs.Accounts s.held) : s.releaseAll.obs.Accounts [] := by
  have hperm : s.held.Perm (s.aencs ++ (s.venc.toList ++ (s.output.toList ++ []))) := by
    rw [held, List.append_nil]
    exact List.perm_append_comm.trans (List.Perm.append_left _ List.perm_append_comm)
  exact ((h.of_perm hperm).releases _).releases _ |>.releases _

lemma giveUp_booked (h : s.Booked) (hstage : s.stage ≠ .rest) (error : String) :
    (s.giveUp error).Booked :=
  ⟨releaseAll_accounts h.accounts, Or.inl ⟨rfl, rfl, rfl⟩,
    fun o ho => absurd (h.captions o ho).2 hstage⟩

/-- The monitor is not in the books. -/
lemma Booked.with_idle (h : s.Booked) {idle : Option IdleMonitor}
    (hidle : s.stage = .rest → s.output.isSome = true → idle = none) :
    { s with idle := idle }.Booked := by
  refine ⟨h.accounts, ?_, h.captions⟩
  have hok := h.stage
  rw [StageOk.eq_def] at hok ⊢
  dsimp only
  split at hok
  · rename_i hrest
    refine hok.imp_right fun hlive => ?_
    exact ⟨hlive.1, hlive.2.1, hlive.2.2.1, hlive.2.2.2.1, hidle hrest hlive.1⟩
  all_goals exact hok

lemma startIdleMonitor_eq (s : Broadcast) (id : Option CloudView) :
    s.startIdleMonitor id =
      { s with
        idle := if s.isLive then none else (s.cfg.monitored id).map fun leg => { leg := leg } } := by
  obtain ⟨cfg, output, venc, aencs, captions, idle, obs, stage, error⟩ := s
  cases output <;> rfl

lemma startIdleMonitor_booked (h : s.Booked) (id : Option CloudView) :
    (s.startIdleMonitor id).Booked := by
  rw [startIdleMonitor_eq]
  exact h.with_idle fun _ hout => if_pos hout

lemma endBroadcast_booked (h : s.Booked) (hrest : s.stage = .rest) (id : Option CloudView) :
    (s.endBroadcast id).Booked := by
  rw [endBroadcast.eq_def]
  split
  · exact h
  · rename_i output hout
    have hmem : output ∈ s.held := by simp [held, hout]
    have hacc := releaseAll_accounts (s := { s with captions := none, obs := s.obs.hand output })
      (h.accounts.hand hmem)
    refine startIdleMonitor_booked ⟨hacc, ?_, fun o ho => absurd ho (by simp [releaseAll])⟩ id
    rw [StageOk.eq_def]
    simp [releaseAll, hrest]

lemma goLive_booked (h : s.Booked) (hrest : s.stage = .rest) (id : Option CloudView) (made : Bool) :
    (s.goLive id made).Booked := by
  have hsaid (error : String) : ({ s with error := error } : Broadcast).Booked :=
    ⟨h.accounts, h.stage, h.captions⟩
  rw [goLive.eq_def]
  split
  · exact hsaid _
  · rename_i hlive
    split
    · exact hsaid _
    · split
      · have hout : s.output = none := by simpa [isLive] using hlive
        have hok := h.stage
        rw [StageOk.eq_def, hrest] at hok
        obtain ⟨-, hv, ha⟩ : s.output = none ∧ s.venc = none ∧ s.aencs = [] := by
          rcases hok with hok | hok
          · exact hok
          · simp [hout] at hok
        refine ⟨?_, ⟨rfl, hv, ha⟩, fun o ho => ?_⟩
        · have := h.accounts.make
          simpa [held, hout] using this
        · rw [(h.captions o ho).1] at hout
          exact absurd hout (by simp)
      · exact hsaid _

lemma videoEncoder_booked (h : s.Booked) (hstage : s.stage = .video) {output : ℕ}
    (hout : s.output = some output) (available : List String) (made : Bool) :
    (s.videoEncoder output available made).Booked := by
  rw [videoEncoder]
  split
  · have hok := h.stage
    rw [StageOk.eq_def, hstage] at hok
    obtain ⟨-, hv, ha⟩ := hok
    have hacc : s.obs.make.Accounts (s.obs.next :: s.held) := h.accounts.make
    have hmem : output ∈ s.obs.next :: s.held := by simp [held, hout]
    refine ⟨(hacc.hand hmem).of_perm ?_, ⟨by simp [hout], rfl, by simp [ha], ?_⟩, fun o ho => ?_⟩
    · simp only [held, hout, hv, ha, Option.toList_some, Option.toList_none, List.append_nil]
      exact List.Perm.swap _ _ _
    · exact (tracks_bounds s.cfg).1
    · exact absurd (h.captions o ho).2 (by simp [hstage])
  · exact giveUp_booked h (by simp [hstage]) _

lemma audioEncoder_booked (h : s.Booked) {k : ℕ} (hstage : s.stage = .audio k) {output : ℕ}
    (hout : s.output = some output) (made : Bool) : (s.audioEncoder output k made).Booked := by
  rw [audioEncoder]
  split
  · have hok := h.stage
    rw [StageOk.eq_def, hstage] at hok
    obtain ⟨-, hv, ha, hk⟩ := hok
    have hacc : s.obs.make.Accounts (s.obs.next :: s.held) := h.accounts.make
    have hmem : output ∈ s.obs.next :: s.held := by simp [held, hout]
    refine ⟨(hacc.hand hmem).of_perm ?_, ?_, fun o ho => ?_⟩
    · simp only [held]
      rw [← List.append_assoc]
      exact (List.perm_append_singleton _ _).symm
    · rw [StageOk.eq_def]
      dsimp only
      by_cases hlast : k + 1 < s.cfg.tracks
      · rw [if_pos hlast]
        exact ⟨by simp [hout], hv, by simp [ha], hlast⟩
      · rw [if_neg hlast]
        exact ⟨by simp [hout], hv, by simp [ha]; omega⟩
    · exact absurd (h.captions o ho).2 (by simp [hstage])
  · exact giveUp_booked h (by simp [hstage]) _

lemma outputStart_booked (h : s.Booked) (hstage : s.stage = .start) {output : ℕ}
    (hout : s.output = some output) (refused : Option String) :
    (s.outputStart output refused).Booked := by
  rw [outputStart.eq_def]
  split
  · exact giveUp_booked h (by simp [hstage]) _
  · have hok := h.stage
    rw [StageOk.eq_def, hstage] at hok
    obtain ⟨hsome, hv, ha⟩ := hok
    have hmem : output ∈ s.held := by simp [held, hout]
    have htracks := tracks_bounds s.cfg
    refine ⟨h.accounts.hand hmem, Or.inr ⟨hsome, hv, ?_, ?_, rfl⟩, fun o ho => ⟨?_, rfl⟩⟩
    · rw [stopIdleMonitor, ha]
      exact htracks.1
    · rw [stopIdleMonitor, ha]
      exact htracks.2
    · simp only [stopIdleMonitor] at ho ⊢
      split at ho
      · exact absurd ho (by simp)
      · exact hout.trans ho

lemma probe_booked (h : s.Booked) {m : IdleMonitor} (hm : s.idle = some m) (reachable : Bool) :
    (s.probe m reachable).Booked := by
  have hlive : s.stage = .rest → s.output.isSome = true → ∀ i : Option IdleMonitor, i = none := by
    intro hrest hout
    have hok := h.stage
    rw [StageOk.eq_def, hrest] at hok
    rcases hok with hok | hok
    · simp [hok.1] at hout
    · rw [hok.2.2.2.2] at hm
      exact absurd hm (by simp)
  rw [probe]
  split <;> exact h.with_idle fun hrest hout => hlive hrest hout _

/-- **One step keeps the books.** -/
lemma Booked.step (h : s.Booked) {x : BroadcastStep} (ht : s.step x = some t) : t.Booked := by
  rw [step.eq_def] at ht
  cases x with
  | setSettings cfg id =>
      obtain ⟨hrest, ht⟩ := Option.ite_none_right_eq_some.mp ht
      obtain rfl := Option.some.inj ht
      refine startIdleMonitor_booked (s := { s with cfg := cfg }) ⟨h.accounts, ?_, h.captions⟩ id
      have hok := h.stage
      rw [StageOk.eq_def, hrest] at hok
      rw [StageOk.eq_def]
      dsimp only
      rw [hrest]
      exact hok
  | goLive id made =>
      obtain ⟨hrest, ht⟩ := Option.ite_none_right_eq_some.mp ht
      obtain rfl := Option.some.inj ht
      exact goLive_booked h hrest id made
  | videoEncoder available made =>
      dsimp only at ht
      split at ht
      · rename_i hstage hout
        obtain rfl := Option.some.inj ht
        exact videoEncoder_booked h hstage hout available made
      · exact absurd ht (by simp)
  | audioEncoder made =>
      dsimp only at ht
      split at ht
      · rename_i hstage hout
        obtain rfl := Option.some.inj ht
        exact audioEncoder_booked h hstage hout made
      · exact absurd ht (by simp)
  | outputStart refused =>
      dsimp only at ht
      split at ht
      · rename_i hstage hout
        obtain rfl := Option.some.inj ht
        exact outputStart_booked h hstage hout refused
      · exact absurd ht (by simp)
  | endBroadcast id =>
      obtain ⟨hrest, ht⟩ := Option.ite_none_right_eq_some.mp ht
      obtain rfl := Option.some.inj ht
      exact endBroadcast_booked h hrest id
  | endIfStopped active id =>
      obtain ⟨hrest, ht⟩ := Option.ite_none_right_eq_some.mp ht
      obtain rfl := Option.some.inj ht
      split
      · exact endBroadcast_booked h hrest id
      · exact h
  | unload =>
      obtain ⟨-, ht⟩ := Option.ite_none_right_eq_some.mp ht
      obtain rfl := Option.some.inj ht
      exact ⟨h.accounts, h.stage, fun o ho => absurd ho (by simp)⟩
  | probe reachable =>
      dsimp only at ht
      split at ht
      · rename_i m hm
        obtain ⟨-, ht⟩ := Option.ite_none_right_eq_some.mp ht
        obtain rfl := Option.some.inj ht
        exact probe_booked h hm reachable
      · exact absurd ht (by simp)

/-- The controller as it is made. -/
def Fresh (s : Broadcast) : Prop := ∃ cfg, s = { cfg := cfg }

lemma booked_of_fresh (h : Fresh s) : s.Booked := by
  obtain ⟨cfg, rfl⟩ := h
  exact ⟨⟨rfl, List.Perm.refl _⟩, Or.inl ⟨rfl, rfl, rfl⟩, fun o ho => absurd ho (by simp)⟩

lemma booked_of_reach {cond : Broadcast → BroadcastStep → Prop}
    (h : Reach Broadcast.step cond Fresh s) : s.Booked :=
  Reach.invariant (fun _ => booked_of_fresh) (fun _ _ _ hb _ ht => hb.step ht) h

/-- **Nothing is leaked, and nothing is let go of twice**: in every run, whatever `libobs` refuses
and wherever `go_live` gives up, what `libobs` has is what the controller holds; nothing else was
ever handed on or let go of; what is not on air holds nothing, what is on air has its encoders and
no monitor, and the captions have no output but the one on air. -/
theorem objects_accounted (h : Reach Broadcast.step anyStep Fresh s) :
    s.obs.misused = false ∧ s.obs.alive.Perm s.held ∧
      (s.stage = .rest → s.isLive = false → s.obs.alive = [] ∧ s.captions = none) ∧
      (s.stage = .rest → s.isLive = true →
        s.venc.isSome = true ∧ 1 ≤ s.aencs.length ∧ s.aencs.length ≤ 6 ∧ s.idle = none) ∧
      ∀ o, s.captions = some o → s.output = some o ∧ s.stage = .rest := by
  have hb := booked_of_reach h
  have hok := hb.stage
  rw [StageOk.eq_def] at hok
  refine ⟨hb.accounts.unmisused, hb.accounts.perm, fun hrest hlive => ?_, fun hrest hlive => ?_,
    hb.captions⟩
  · rw [hrest] at hok
    have hout : s.output = none := by simpa [isLive] using hlive
    rcases hok with ⟨-, hv, ha⟩ | hok
    · refine ⟨?_, ?_⟩
      · have := hb.accounts.perm
        rwa [held, hout, hv, ha, Option.toList_none, List.append_nil, List.append_nil,
          List.perm_nil] at this
      · cases hc : s.captions with
        | none => rfl
        | some o =>
            rw [(hb.captions o hc).1] at hout
            exact absurd hout (by simp)
    · rw [hout] at hok
      exact absurd hok.1 (by simp)
  · rw [hrest] at hok
    rcases hok with ⟨hout, -, -⟩ | ⟨-, hrest⟩
    · rw [isLive, hout] at hlive
      exact absurd hlive (by simp)
    · exact hrest

/-- Settings with a bucket. -/
def sampleBroadcastSettings : BroadcastSettings :=
  { bucket := "b", r2AccountId := "a", accessKeyId := "k", secretAccessKey := "s" }

/-- A start up to the output, with one audio encoder. -/
def sampleGoLive : List BroadcastStep :=
  [.setSettings sampleBroadcastSettings none, .goLive none true,
    .videoEncoder ["obs_x264"] true, .audioEncoder true]

/-- The output refuses to start. -/
theorem objects_accounted_refused :
    ∃ s, run Broadcast.step {} (sampleGoLive ++ [.outputStart (some "")]) = some s ∧
      s.obs.next = 3 ∧ s.obs.misused = false ∧ s.obs.alive = [] := by
  have hinit : Fresh {} := ⟨{}, rfl⟩
  refine ⟨_, rfl, rfl, ?_⟩
  have h := objects_accounted (reach_of_run hinit
    (show run Broadcast.step {} (sampleGoLive ++ [.outputStart (some "")]) = some _ from rfl))
  exact ⟨h.1, (h.2.2.1 rfl rfl).1⟩

/-! ### The monitor -/

/-- The monitor's thread takes no turn in the middle of `go_live`. -/
def calm (s : Broadcast) (x : BroadcastStep) : Prop := ∀ r, x = .probe r → s.stage = .rest

/-- No settings are saved, and no output starts. -/
def leavesMonitor (_ : Broadcast) : BroadcastStep → Prop
  | .setSettings _ _ => False
  | .outputStart none => False
  | _ => True

/-- The monitor, if there is one, lives. -/
def MonitorLives (s : Broadcast) : Prop := ∀ m, s.idle = some m → m.alive = true

lemma startIdleMonitor_lives (s : Broadcast) (id : Option CloudView) :
    (s.startIdleMonitor id).MonitorLives := by
  intro m hm
  rw [startIdleMonitor_eq] at hm
  dsimp only at hm
  split at hm
  · exact absurd hm (by simp)
  · obtain ⟨leg, -, rfl⟩ := Option.map_eq_some_iff.mp hm
    rfl

/-- What does not touch the monitor. -/
lemma idle_giveUp (s : Broadcast) (error : String) : (s.giveUp error).idle = s.idle := rfl

lemma idle_goLive (s : Broadcast) (id : Option CloudView) (made : Bool) :
    (s.goLive id made).idle = s.idle := by
  rw [goLive.eq_def]
  split
  · rfl
  · split
    · rfl
    · split <;> rfl

lemma idle_videoEncoder (s : Broadcast) (output : ℕ) (available : List String) (made : Bool) :
    (s.videoEncoder output available made).idle = s.idle := by
  rw [videoEncoder]
  split <;> rfl

lemma idle_audioEncoder (s : Broadcast) (output k : ℕ) (made : Bool) :
    (s.audioEncoder output k made).idle = s.idle := by
  rw [audioEncoder]
  split <;> rfl

/-- A step that has a monitor started anew, or taken away. -/
def renews (s : Broadcast) (x : BroadcastStep) : Prop :=
  ¬s.leavesMonitor x ∨ s.stage = .rest ∧ s.isLive = true

/-- **What a step can do to the monitor**: it starts one anew or takes it away, it leaves it, or
it is the monitor's own turn. -/
lemma idle_step {x : BroadcastStep} (ht : s.step x = some t) :
    s.renews x ∧ t.MonitorLives ∨ t.idle = s.idle ∨
      ∃ r m, x = .probe r ∧ s.idle = some m ∧ m.alive = true ∧ t = s.probe m r := by
  have hend (x : BroadcastStep) (hrest : s.stage = .rest) (id : Option CloudView) :
      s.renews x ∧ (s.endBroadcast id).MonitorLives ∨ (s.endBroadcast id).idle = s.idle := by
    rw [endBroadcast.eq_def]
    split
    · exact Or.inr rfl
    · rename_i output hout
      exact Or.inl ⟨Or.inr ⟨hrest, by simp [isLive, hout]⟩, startIdleMonitor_lives _ id⟩
  rw [step.eq_def] at ht
  cases x with
  | setSettings cfg id =>
      obtain ⟨-, ht⟩ := Option.ite_none_right_eq_some.mp ht
      obtain rfl := Option.some.inj ht
      exact Or.inl ⟨Or.inl (by simp [leavesMonitor]), startIdleMonitor_lives _ id⟩
  | goLive id made =>
      obtain ⟨-, ht⟩ := Option.ite_none_right_eq_some.mp ht
      obtain rfl := Option.some.inj ht
      exact Or.inr (Or.inl (idle_goLive s id made))
  | videoEncoder available made =>
      dsimp only at ht
      split at ht
      · obtain rfl := Option.some.inj ht
        exact Or.inr (Or.inl (idle_videoEncoder s _ available made))
      · exact absurd ht (by simp)
  | audioEncoder made =>
      dsimp only at ht
      split at ht
      · obtain rfl := Option.some.inj ht
        exact Or.inr (Or.inl (idle_audioEncoder s _ _ made))
      · exact absurd ht (by simp)
  | outputStart refused =>
      dsimp only at ht
      split at ht
      · obtain rfl := Option.some.inj ht
        rw [outputStart.eq_def]
        split
        · exact Or.inr (Or.inl (idle_giveUp s _))
        · exact Or.inl ⟨Or.inl (by simp [leavesMonitor]),
            fun m hm => absurd hm (by simp [stopIdleMonitor])⟩
      · exact absurd ht (by simp)
  | endBroadcast id =>
      obtain ⟨hrest, ht⟩ := Option.ite_none_right_eq_some.mp ht
      obtain rfl := Option.some.inj ht
      exact (hend _ hrest id).imp_right Or.inl
  | endIfStopped active id =>
      obtain ⟨hrest, ht⟩ := Option.ite_none_right_eq_some.mp ht
      obtain rfl := Option.some.inj ht
      split
      · exact (hend _ hrest id).imp_right Or.inl
      · exact Or.inr (Or.inl rfl)
  | unload =>
      obtain ⟨-, ht⟩ := Option.ite_none_right_eq_some.mp ht
      obtain rfl := Option.some.inj ht
      exact Or.inr (Or.inl rfl)
  | probe reachable =>
      dsimp only at ht
      split at ht
      · rename_i m hm
        obtain ⟨halive, ht⟩ := Option.ite_none_right_eq_some.mp ht
        exact Or.inr (Or.inr ⟨reachable, m, rfl, hm, halive, (Option.some.inj ht).symm⟩)
      · exact absurd ht (by simp)

/-- A broadcast that is on air or being made has no monitor or is in the middle of `go_live`. -/
lemma Booked.not_live_of_idle (h : s.Booked) {m : IdleMonitor} (hm : s.idle = some m) :
    s.stage = .rest ↔ s.isLive = false := by
  have hok := h.stage
  rw [StageOk.eq_def] at hok
  constructor
  · intro hrest
    rw [hrest] at hok
    rcases hok with hok | hok
    · simp [isLive, hok.1]
    · rw [hok.2.2.2.2] at hm
      exact absurd hm (by simp)
  · intro hlive
    have hout : s.output = none := by simpa [isLive] using hlive
    split at hok
    · assumption
    all_goals
      rw [hout] at hok
      exact absurd hok.1 (by simp)

lemma MonitorLives.step (hb : s.Booked) (h : s.MonitorLives) {x : BroadcastStep} (hx : s.calm x)
    (ht : s.step x = some t) : t.MonitorLives := by
  rcases idle_step ht with ⟨-, hlives⟩ | hsame | ⟨r, m, rfl, hm, halive, rfl⟩
  · exact hlives
  · intro m hm
    exact h m (hsame ▸ hm)
  · intro m' hm'
    rw [probe, if_neg (by rw [(hb.not_live_of_idle hm).mp (hx r rfl)]; simp)] at hm'
    obtain rfl := Option.some.inj hm'
    exact halive

/-- A monitor that has ended stays as it is. -/
lemma dead_step (hb : s.Booked) {m : IdleMonitor} (hm : s.idle = some m) (hdead : m.alive = false)
    {x : BroadcastStep} (hx : s.leavesMonitor x) (ht : s.step x = some t) : t.idle = some m := by
  rcases idle_step ht with ⟨hno | ⟨hrest, hlive⟩, -⟩ | hsame | ⟨r, m', -, hm', halive, -⟩
  · exact absurd hx hno
  · rw [(hb.not_live_of_idle hm).mp hrest] at hlive
    exact absurd hlive (by simp)
  · rw [hsame, hm]
  · rw [hm] at hm'
    obtain rfl := Option.some.inj hm'
    rw [hdead] at halive
    exact absurd halive (by simp)

/-- **The monitor lives exactly as long as it is left alone by `go_live`**: in every run in which
its thread takes no turn in the middle of `go_live` it lives while it is there; and in each state
of such a run that is in the middle of one, its turn ends it, and from then on it stays ended,
with the reading it had, until settings are saved or a broadcast begins. -/
theorem monitor_lives (h : Reach Broadcast.step calm Fresh s) :
    s.MonitorLives ∧
      ∀ m r t, s.idle = some m → s.stage ≠ .rest → s.step (.probe r) = some t →
        ∀ u, Reach Broadcast.step leavesMonitor (· = t) u →
          u.idle = some { m with alive := false } := by
  have hlives : s.Booked ∧ s.MonitorLives := by
    refine Reach.invariant (I := fun s => s.Booked ∧ s.MonitorLives) (fun s hs => ?_)
      (fun s x t hi hx ht => ⟨hi.1.step ht, hi.2.step hi.1 hx ht⟩) h
    obtain ⟨cfg, rfl⟩ := hs
    exact ⟨booked_of_fresh ⟨cfg, rfl⟩, fun m hm => absurd hm (by simp)⟩
  refine ⟨hlives.2, fun m r t hm hstage ht u hu => ?_⟩
  have hlive : s.isLive = true := by
    rw [← Bool.not_eq_false]
    exact fun hno => hstage ((hlives.1.not_live_of_idle hm).mpr hno)
  have htidle : t.idle = some { m with alive := false } := by
    rw [step.eq_def] at ht
    simp only [hm] at ht
    obtain ⟨-, ht⟩ := Option.ite_none_right_eq_some.mp ht
    obtain rfl := Option.some.inj ht
    rw [probe, if_pos hlive]
  have hdead : u.Booked ∧ u.idle = some { m with alive := false } := by
    refine Reach.invariant (I := fun u => u.Booked ∧ u.idle = some { m with alive := false })
      (fun u hu => ?_) (fun u x v hi hx hv => ⟨hi.1.step hv, dead_step hi.1 hi.2 rfl hx hv⟩) hu
    rw [hu]
    exact ⟨hlives.1.step ht, htidle⟩
  exact hdead.2

/-- A turn of the monitor while the output is being started, which then fails. -/
theorem monitor_lives_refused :
    ∃ s, run Broadcast.step {} (sampleGoLive ++ [.probe true, .outputStart (some "")]) = some s ∧
      s.isLive = false ∧ s.idle.map (·.alive) = some false := by
  have hrun : ∃ s, run Broadcast.step {} sampleGoLive = some s ∧
      Reach Broadcast.step calm Fresh s := by
    refine ⟨_, rfl, ?_⟩
    refine .next (a := .audioEncoder true) (.next (a := .videoEncoder ["obs_x264"] true)
      (.next (a := .goLive none true)
        (.next (a := .setSettings sampleBroadcastSettings none)
          (.start ⟨{}, rfl⟩) ?_ rfl) ?_ rfl) ?_ rfl) ?_ rfl
    all_goals exact fun r hr => absurd hr (by simp)
  obtain ⟨s, hs, hreach⟩ := hrun
  obtain rfl := Option.some.inj hs
  refine ⟨_, rfl, rfl, ?_⟩
  rw [(monitor_lives hreach).2 _ true _ rfl (by decide) rfl _
    (.next (a := .outputStart (some "")) (.start rfl) trivial rfl)]
  rfl

end Broadcast

end Multisite

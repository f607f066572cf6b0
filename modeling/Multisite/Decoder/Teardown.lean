import Multisite.Decoder.Transport
import Multisite.Cloud.Storage

/-!
Taking an OBS source down (`multisite_source.cpp`): the transports that `src_update` makes, and
`stop_workers`, which cancels what they have in flight and waits for the worker threads.

A request runs on a leaf: on the LAN transport, on that of the first or the second bucket, or on
an inner of `CloudTransport`, which a refresh replaces.  The source keeps the transports in
members of its own; `stop_workers` reaches for two of them.  The second bucket's is kept by
nobody once `src_update` has returned.

* `uncancelled_runs`: runs in which the wait is on a leaf that nobody has cancelled, or that has
  been re-armed;
* `cancelled_of_reached`: where what is in flight is on the LAN transport and the first bucket's,
  and a wait is not cut into by Play, all that is in flight is cancelled.
-/

namespace Multisite

/-! ### The transports -/

/-- What `src_update` reads of the settings, and of what else it asks. -/
structure SourceSettings where
  storageProvider : String := ""
  /-- The typed fields. -/
  storage : S3Config := {}
  lanHost : String := ""
  /-- `secondary_s3_config`. -/
  second : Option S3Config := none
  /-- `reporter_cloud_identity`, and whether it is paired. -/
  identity : Option Bool := none
  deriving DecidableEq, Repr

namespace SourceSettings

variable (set : SourceSettings)

/-- `cloud_configured`. -/
def cloudConfigured : Bool :=
  set.storage.bucket ≠ "" && (set.storage.endpointHost ≠ "" || set.storage.r2AccountId ≠ "")

/-- `lan_configured`. -/
def lanConfigured : Bool := set.lanHost ≠ ""

/-- `configured`. -/
def configured : Bool := set.cloudConfigured || set.lanConfigured

end SourceSettings

/-- Where a request runs. -/
inductive RequestLeaf where
  | leaf (n : LeafName)
  /-- An inner of the paired leg, by its place. -/
  | inner (i : ℕ)
  deriving DecidableEq, Repr

/-- A transport of the source. -/
inductive SourceLeg where
  | leaf (n : LeafName)
  | paired
  deriving DecidableEq, Repr

/-- What `src_update` makes: `tx`, `tx2`, `cloud_tx` and `lan_tx`, each with its cancel flag. -/
structure SourceLegs where
  first : Option S3Transport := none
  second : Option S3Transport := none
  cloud : Option CloudTransport := none
  lan : Option Leaf := none
  deriving DecidableEq, Repr

namespace SourceLegs

/-- The transports of the settings, unless `src_update` returns before it makes any: nothing is
configured, or the storage is the collector's and it has not named a bucket. -/
def build (set : SourceSettings) (held : Credentials) : Option SourceLegs :=
  if !set.configured then none
  else
    let lan : Option Leaf := if set.lanConfigured then some { name := .lan } else none
    if set.storageProvider = "multisite_cloud" then
      if set.identity = some true ∧ held.present then
        some { cloud := some { role := .decoder, cfg := { region := set.storage.region } }, lan }
      else none
    else if set.cloudConfigured then
      some { first := some { cfg := set.storage }
             second := set.second.map fun c => { cfg := c }
             lan }
    else some { lan }

/-- The legs a request can come to: the LAN's, and under it the cloud's, which is the paired one
or the two buckets (`FallbackTransport`, `MirrorReadTransport`). -/
def legs (l : SourceLegs) : List SourceLeg :=
  (if l.lan.isSome then [.leaf .lan] else []) ++
    if l.cloud.isSome then [.paired]
    else (if l.first.isSome then [.leaf .first] else []) ++
      if l.second.isSome then [.leaf .second] else []

/-- The leaf's cancel flag is set. -/
def cancelled (l : SourceLegs) : RequestLeaf → Bool
  | .leaf .lan => l.lan.any (·.cancel)
  | .leaf .first => l.first.any (·.cancel)
  | .leaf .second => l.second.any (·.cancel)
  | .inner i => (l.cloud.bind fun x => x.at? (some i)).any (·.cancel)

/-- `cancel_pending` and `resume_pending` of the two that `stop_workers`, `stop_playback` and
`resume_downloads` take. -/
def setCancel (l : SourceLegs) (b : Bool) : SourceLegs :=
  { l with
    first := l.first.map fun t => { t with cancel := b }
    lan := l.lan.map fun t => { t with cancel := b } }

end SourceLegs

/-! ### The source -/

/-- `SourceCtx`, as far as its requests go.  `joining` is `stop_workers` once it has cancelled,
waiting for the threads. -/
structure SourceCtx where
  legs : SourceLegs := {}
  held : Credentials := {}
  unpaired : Bool := false
  running : Bool := false
  joining : Bool := false
  stopped : Bool := false
  /-- The requests in flight on the worker threads. -/
  requests : List RequestLeaf := []
  deriving DecidableEq, Repr

/-- What can happen. -/
inductive SourceEvent where
  /-- `src_update`, after its `stop_workers`. -/
  | update (set : SourceSettings)
  | stopWorkers
  /-- The threads have come to their end. -/
  | joined
  /-- The identity holds another set. -/
  | hold (c : Credentials) (unpaired : Bool)
  /-- A worker's request comes to a leg. -/
  | request (leg : SourceLeg) (op : CloudOp)
  | finish (i : ℕ)
  | stopPlayback
  | resumeDownloads
  deriving DecidableEq, Repr

namespace SourceCtx

/-- One step.  `lifecycle_mtx` keeps an update and another `stop_workers` out of a wait. -/
def step (s : SourceCtx) : SourceEvent → Option SourceCtx
  | .update set =>
      if s.running ∨ s.joining then none
      else
        match SourceLegs.build set s.held with
        | none => some s
        | some legs => some { s with legs, running := true }
  | .stopWorkers =>
      if s.joining then none
      else if s.running then
        some { s with legs := s.legs.setCancel true, running := false, joining := true }
      else some s
  | .joined => if s.joining ∧ s.requests = [] then some { s with joining := false } else none
  | .hold c unpaired => some { s with held := c, unpaired }
  | .request leg op =>
      if (s.running ∨ s.joining) ∧ leg ∈ s.legs.legs then
        match leg with
        | .leaf n => some { s with requests := s.requests ++ [.leaf n] }
        | .paired =>
            match s.legs.cloud with
            | none => none
            | some x =>
                match x.request s.held s.unpaired op with
                | .error _ => some s
                | .ok y => some { s with
                    legs := { s.legs with cloud := some y }
                    requests := s.requests ++ [.inner (y.inner.getD 0)] }
      else none
  | .finish i => if i < s.requests.length then
      some { s with requests := s.requests.eraseIdx i } else none
  | .stopPlayback => some { s with legs := s.legs.setCancel true, stopped := true }
  | .resumeDownloads =>
      if s.stopped then some { s with legs := s.legs.setCancel false, stopped := false }
      else some s

/-- A source that has just been made. -/
def Created (s : SourceCtx) : Prop := ∃ held unpaired, s = { held, unpaired }

/-- While `stop_workers` waits, all that is in flight is on a leaf whose flag is set. -/
def AllCancelled (s : SourceCtx) : Prop :=
  s.joining = true → ∀ r ∈ s.requests, s.legs.cancelled r = true

instance (s : SourceCtx) : Decidable s.AllCancelled :=
  inferInstanceAs (Decidable (_ → _))

/-- The leaf is one of the two that `stop_workers` takes. -/
def taken : RequestLeaf → Bool
  | .leaf .lan => true
  | .leaf .first => true
  | _ => false

/-- Where `stop_workers` runs, what is in flight is on the LAN transport or the first bucket's;
during its wait nothing begins on another leg, and Play does not lift the cancelling. -/
def Reachable (s : SourceCtx) : SourceEvent → Prop
  | .stopWorkers => s.running = true → ∀ r ∈ s.requests, taken r = true
  | .request leg _ => s.joining = true → leg = .leaf .lan ∨ leg = .leaf .first
  | .resumeDownloads => s.joining = true → s.stopped = false
  | _ => True

instance (s : SourceCtx) (a : SourceEvent) : Decidable (s.Reachable a) :=
  match a with
  | .stopWorkers => inferInstanceAs (Decidable (_ → ∀ r ∈ s.requests, taken r = true))
  | .request leg _ =>
      inferInstanceAs (Decidable (_ → leg = .leaf .lan ∨ leg = .leaf .first))
  | .resumeDownloads => inferInstanceAs (Decidable (_ → s.stopped = false))
  | .update _ | .joined | .hold _ _ | .finish _ | .stopPlayback => isTrue trivial

/-! ### What a wait finds -/

/-- The two transports that `stop_workers` takes are cancelled. -/
def BothCancelled (l : SourceLegs) : Prop :=
  (∀ t ∈ l.first, t.cancel = true) ∧ ∀ t ∈ l.lan, t.cancel = true

/-- The source has the transport of a leaf that `stop_workers` takes. -/
def Has (l : SourceLegs) (r : RequestLeaf) : Prop :=
  (r = .leaf .first → l.first.isSome = true) ∧ (r = .leaf .lan → l.lan.isSome = true)

/-- Requests are those of workers that run or are waited for; in a wait the two transports are
cancelled and carry all that is in flight. -/
structure Waits (s : SourceCtx) : Prop where
  has : ∀ r ∈ s.requests, Has s.legs r
  idle : s.running = false → s.joining = false → s.requests = []
  cancelled : s.joining = true → BothCancelled s.legs
  within : s.joining = true → ∀ r ∈ s.requests, taken r = true

lemma bothCancelled_setCancel (l : SourceLegs) : BothCancelled (l.setCancel true) := by
  constructor
  · intro t ht
    obtain ⟨u, -, rfl⟩ := Option.mem_map.mp ht
    rfl
  · intro t ht
    obtain ⟨u, -, rfl⟩ := Option.mem_map.mp ht
    rfl

lemma has_setCancel {l : SourceLegs} {r : RequestLeaf} (h : Has l r) (b : Bool) :
    Has (l.setCancel b) r := by
  simpa [Has, SourceLegs.setCancel] using h

/-- A leg that a request comes to is one the source has. -/
lemma has_of_mem_legs {l : SourceLegs} {n : LeafName} (h : .leaf n ∈ l.legs) : Has l (.leaf n) := by
  rw [SourceLegs.legs, List.mem_append] at h
  constructor
  · intro heq
    cases heq
    rcases h with h | h
    · split at h <;> simp at h
    · split at h
      · simp at h
      · rcases List.mem_append.mp h with h | h
        · split at h
          · assumption
          · simp at h
        · split at h <;> simp at h
  · intro heq
    cases heq
    rcases h with h | h
    · split at h
      · assumption
      · simp at h
    · split at h
      · simp at h
      · rcases List.mem_append.mp h with h | h <;> split at h <;> simp at h

lemma Waits.allCancelled {s : SourceCtx} (hs : Waits s) : s.AllCancelled := by
  intro hj r hr
  obtain ⟨hfirst, hlan⟩ := hs.cancelled hj
  obtain ⟨hasFirst, hasLan⟩ := hs.has r hr
  have htaken := hs.within hj r hr
  cases r with
  | inner i => exact absurd htaken Bool.false_ne_true
  | leaf n =>
      cases n with
      | second => exact absurd htaken Bool.false_ne_true
      | first =>
          obtain ⟨t, ht⟩ := Option.isSome_iff_exists.mp (hasFirst rfl)
          rw [SourceLegs.cancelled, ht]
          exact hfirst t ht
      | lan =>
          obtain ⟨t, ht⟩ := Option.isSome_iff_exists.mp (hasLan rfl)
          rw [SourceLegs.cancelled, ht]
          exact hlan t ht

/-- Requests that come back leave the rest as it was. -/
lemma Waits.finish {s : SourceCtx} (hs : Waits s) (i : ℕ) :
    Waits { s with requests := s.requests.eraseIdx i } where
  has r hr := hs.has r (List.mem_of_mem_eraseIdx hr)
  idle hr hj := by
    show s.requests.eraseIdx i = []
    rw [hs.idle hr hj]
    rfl
  cancelled := hs.cancelled
  within hj r hr := hs.within hj r (List.mem_of_mem_eraseIdx hr)

/-- One more request. -/
lemma Waits.request {s : SourceCtx} {r : RequestLeaf} {l : SourceLegs} (hs : Waits s)
    (hup : s.running = true ∨ s.joining = true) (hfirst : l.first = s.legs.first)
    (hlan : l.lan = s.legs.lan) (hr : Has s.legs r) (ht : s.joining = true → taken r = true) :
    Waits { s with legs := l, requests := s.requests ++ [r] } where
  has r' hr' := by
    rw [Has, hfirst, hlan]
    rcases List.mem_append.mp hr' with hr' | hr'
    · exact hs.has r' hr'
    · rw [List.mem_singleton.mp hr']
      exact hr
  idle hrun hj := by
    rcases hup with h | h
    · exact absurd (hrun.symm.trans h) Bool.false_ne_true
    · exact absurd (hj.symm.trans h) Bool.false_ne_true
  cancelled hj := by
    rw [BothCancelled, hfirst, hlan]
    exact hs.cancelled hj
  within hj r' hr' := by
    rcases List.mem_append.mp hr' with hr' | hr'
    · exact hs.within hj r' hr'
    · rw [List.mem_singleton.mp hr']
      exact ht hj

/-- **One step keeps a wait short.** -/
lemma Waits.step {s t : SourceCtx} {a : SourceEvent} (hs : Waits s) (hc : Reachable s a)
    (h : s.step a = some t) : Waits t := by
  cases a with
  | update set =>
      rw [SourceCtx.step] at h
      split at h
      · cases h
      · rename_i hup
        rw [not_or, Bool.not_eq_true, Bool.not_eq_true] at hup
        have hnil := hs.idle hup.1 hup.2
        split at h
        · cases h
          exact hs
        · cases h
          refine ⟨fun r hr => ?_, fun hr => absurd hr.symm Bool.false_ne_true, fun hj => ?_,
            fun _ r hr => ?_⟩
          · rw [show s.requests = [] from hnil] at hr
            exact absurd hr List.not_mem_nil
          · exact absurd (hup.2.symm.trans hj) Bool.false_ne_true
          · rw [show s.requests = [] from hnil] at hr
            exact absurd hr List.not_mem_nil
  | stopWorkers =>
      rw [SourceCtx.step] at h
      split at h
      · cases h
      · split at h
        · rename_i hrun
          cases h
          exact ⟨fun r hr => has_setCancel (hs.has r hr) true,
            fun _ hj => absurd hj.symm Bool.false_ne_true,
            fun _ => bothCancelled_setCancel s.legs, fun _ => hc hrun⟩
        · cases h
          exact hs
  | joined =>
      rw [SourceCtx.step] at h
      split at h
      · rename_i hj
        cases h
        exact ⟨hs.has, fun _ _ => hj.2, fun hj => absurd hj Bool.false_ne_true,
          fun hj => absurd hj Bool.false_ne_true⟩
      · cases h
  | hold c unpaired =>
      cases h
      exact ⟨hs.has, hs.idle, hs.cancelled, hs.within⟩
  | request leg op =>
      cases leg with
      | leaf n =>
          rw [SourceCtx.step] at h
          split at h
          · rename_i hup
            cases h
            refine hs.request hup.1 rfl rfl (has_of_mem_legs hup.2) fun hj => ?_
            rcases hc hj with heq | heq
            · cases heq
              rfl
            · cases heq
              rfl
          · cases h
      | paired =>
          rw [SourceCtx.step] at h
          split at h
          · rename_i hup
            split at h
            · cases h
            · split at h
              · cases h
                exact hs
              · cases h
                refine hs.request hup.1 rfl rfl ⟨by simp, by simp⟩ fun hj => ?_
                rcases hc hj with heq | heq <;> cases heq
          · cases h
  | finish i =>
      rw [SourceCtx.step] at h
      split at h
      · cases h
        exact hs.finish i
      · cases h
  | stopPlayback =>
      cases h
      exact ⟨fun r hr => has_setCancel (hs.has r hr) true, hs.idle,
        fun _ => bothCancelled_setCancel s.legs, hs.within⟩
  | resumeDownloads =>
      rw [SourceCtx.step] at h
      split at h
      · rename_i hstopped
        cases h
        refine ⟨fun r hr => has_setCancel (hs.has r hr) false, hs.idle, fun hj => ?_, hs.within⟩
        exact absurd ((hc hj).symm.trans hstopped) Bool.false_ne_true
      · cases h
        exact hs

end SourceCtx

open SourceCtx

/-- **Stopping reaches every request in flight**, in every run in which what is in flight when
`stop_workers` runs, and what begins during its wait, is on the LAN transport or the first
bucket's, and Play does not come into the wait. -/
theorem cancelled_of_reached {s : SourceCtx}
    (hs : Lib.Reach SourceCtx.step SourceCtx.Reachable SourceCtx.Created s) : s.AllCancelled := by
  refine Waits.allCancelled (hs.invariant (I := Waits) ?_ fun _ _ _ hs hc h => hs.step hc h)
  rintro s ⟨held, unpaired, rfl⟩
  exact ⟨fun r hr => absurd hr List.not_mem_nil, fun _ _ => rfl,
    fun hj => absurd hj Bool.false_ne_true, fun hj => absurd hj Bool.false_ne_true⟩

/-! ### Runs -/

/-- Typed keys, with a LAN host. -/
def sampleTyped : SourceSettings :=
  { storageProvider := "custom"
    storage := { bucket := "relay", endpointHost := "s3.example.com" }
    lanHost := "10.0.0.5" }

/-- The typed keys with a second bucket. -/
def sampleMirrored : SourceSettings :=
  { sampleTyped with second := some { bucket := "spare", endpointHost := "s3.example.org" } }

/-- A paired machine; the typed bucket is left over from before. -/
def samplePairedSource : SourceSettings :=
  { sampleTyped with storageProvider := "multisite_cloud", identity := some true }

/-- A segment from the LAN and one from the bucket, when the source is stopped. -/
theorem cancelled_of_reached_sample :
    ∃ s : SourceCtx, (s.joining = true ∧ s.requests = [.leaf .lan, .leaf .first]) ∧
      s.AllCancelled := by
  obtain ⟨s, hs, hwait⟩ := (Lib.exists_reach_guarded ({} : SourceCtx)
    [.update sampleTyped, .request (.leaf .lan) .get, .request (.leaf .first) .get, .stopWorkers]
    ⟨{}, false, rfl⟩ (by decide +kernel) :
    ∃ s, Lib.Reach SourceCtx.step SourceCtx.Reachable SourceCtx.Created s ∧
      (s.joining = true ∧ s.requests = [.leaf .lan, .leaf .first]))
  exact ⟨s, hwait, cancelled_of_reached hs⟩

/-- The wait is on the second bucket's transport, or on the paired leg's current inner, and on a
first bucket's that Play has re-armed. -/
theorem uncancelled_runs :
    (∃ s, Lib.Reach SourceCtx.step Lib.anyStep SourceCtx.Created s ∧
      (s.requests = [.leaf .second] ∧ ¬ s.AllCancelled)) ∧
    (∃ s, Lib.Reach SourceCtx.step Lib.anyStep SourceCtx.Created s ∧
      (s.requests = [.inner 0] ∧ s.legs.cloud.bind (·.inner) = some 0 ∧ ¬ s.AllCancelled)) ∧
    ∃ s, Lib.Reach SourceCtx.step Lib.anyStep SourceCtx.Created s ∧
      (s.requests = [.leaf .first] ∧ ¬ s.AllCancelled) :=
  ⟨Lib.exists_reach {} [.update sampleMirrored, .request (.leaf .second) .get, .stopWorkers]
    ⟨{}, false, rfl⟩ (by decide +kernel),
  Lib.exists_reach {}
    [.hold { bucket := "b", expiresAtMs := 1 } false,
      .update samplePairedSource, .request .paired .get, .stopWorkers]
    ⟨{}, false, rfl⟩ (by decide +kernel),
  Lib.exists_reach {}
    [.update sampleTyped, .request (.leaf .first) .get, .stopPlayback, .stopWorkers,
      .resumeDownloads]
    ⟨{}, false, rfl⟩ (by decide +kernel)⟩

end Multisite

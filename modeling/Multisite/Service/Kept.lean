import Multisite.Service.Host

/-!
What a reload leaves running.

* `RelayService.reloadLocked_cases`: what a reload does under the lock;
* `RelayHost.Orderly`: what holds of the service in every run;
* `reload_keeps`: a session whose stream is asked for as before goes on exactly if the feeder's key
  pair, region and scheme are those read.
-/

namespace Multisite

/-! ### Under the lock -/

namespace RelayService

variable {v : RelayService} {r : ReloadRead} {configured paired : Bool} {identityError : String}

/-- **What a reload does under the lock.**  It brings the sessions into line, or ends them all,
with a new feeder or without one. -/
lemma reloadLocked_cases :
    (v.feederStale r = false ∧
        v.reloadLocked r configured paired identityError =
          { v with
            reloads := v.reloads + 1
            sessions := Lib.reconcile (·.id) (synced r.room (v.reloads + 1)) v.sessions r.dests }) ∨
      (v.feederStale r = true ∧ (configured = false ∨ r.storage.bucket = "") ∧
        (v.reloadLocked r configured paired identityError).feeder = none ∧
        (v.reloadLocked r configured paired identityError).sessions = fun _ => none) ∨
      v.feederStale r = true ∧
        v.reloadLocked r configured paired identityError =
          { ({ v with reloads := v.reloads + 1 } : RelayService).buildFeeder r with
            sessions :=
              Lib.reconcile (·.id) (synced r.room (v.reloads + 1)) (fun _ => none) r.dests } := by
  have hstale : RelayService.feederStale { v with reloads := v.reloads + 1 } r =
      v.feederStale r := rfl
  cases h : v.feederStale r with
  | false =>
      refine .inl ⟨rfl, ?_⟩
      have hfeeder : v.feeder.isNone = false := by
        simp only [feederStale, Bool.or_eq_false_iff] at h
        exact h.1.1.1
      simp [reloadLocked, hstale, h, syncDestinationsLocked, hfeeder]
  | true =>
      right
      simp only [reloadLocked, hstale, h, Bool.not_true, Bool.false_eq_true, if_false]
      split
      · rename_i hconfigured
        exact .inl ⟨trivial, .inl (by simpa using hconfigured), rfl, rfl⟩
      split
      · rename_i hwaits
        simp only [Bool.and_eq_true, decide_eq_true_eq] at hwaits
        exact .inl ⟨trivial, .inr hwaits.1.2, rfl, rfl⟩
      · exact .inr ⟨trivial, by simp [syncDestinationsLocked, buildFeeder]⟩

lemma reloads_reloadLocked :
    (v.reloadLocked r configured paired identityError).reloads = v.reloads + 1 := by
  simp only [reloadLocked, syncDestinationsLocked, buildFeeder]
  split_ifs <;> rfl

lemma sessions_setEnabled (id : ℤ) (on : Bool) :
    (v.setEnabled id on).sessions id =
      (v.sessions id).map fun s => { s with edits := s.edits.setEnabled on } :=
  Function.update_self ..

lemma sessions_setEnabled_of_ne {id j : ℤ} (h : j ≠ id) (on : Bool) :
    (v.setEnabled id on).sessions j = v.sessions j :=
  Function.update_of_ne h ..

/-- A session that was running stays the same one. -/
lemma started_synced_some (room : RoomSettings) (n : ℕ) (a : RelayRunning) (d : Destination) :
    (synced room n (some a) d).started = a.started := rfl

lemma started_synced_none (room : RoomSettings) (n : ℕ) (d : Destination) :
    (synced room n none d).started = n := rfl

end RelayService

/-! ### Every run -/

namespace RelayStore

variable {s : RelayStore}

lemma Sound.add (h : s.Sound) (d : Destination) : (s.add d).Sound := by
  constructor
  · simp only [RelayStore.add, List.map_append, List.map_cons, List.map_nil]
    refine List.nodup_append.mpr ⟨h.nodup, by simp, ?_⟩
    rintro a ha b hb rfl
    obtain ⟨d', hd', rfl⟩ := List.mem_map.mp ha
    have hle := h.le d' hd'
    rw [List.mem_singleton] at hb
    omega
  · intro d' hd'
    simp only [RelayStore.add] at hd' ⊢
    rcases List.mem_append.mp hd' with hd' | hd'
    · exact (h.le d' hd').trans (by omega)
    · rw [List.mem_singleton.mp hd']

/-- Rows changed in place keep their ids. -/
lemma Sound.of_map (h : s.Sound) {t : RelayStore} (f : Destination → Destination)
    (hf : ∀ d, (f d).id = d.id) (hrows : t.rows = s.rows.map f) (hlast : t.lastId = s.lastId) :
    t.Sound := by
  constructor
  · rw [hrows, List.map_map]
    have hid : (fun d : Destination => d.id) ∘ f = fun d => d.id := funext hf
    rw [hid]
    exact h.nodup
  · intro d hd
    rw [hrows] at hd
    obtain ⟨d', hd', rfl⟩ := List.mem_map.mp hd
    rw [hf, hlast]
    exact h.le d' hd'

lemma Sound.update (h : s.Sound) (d : Destination) : (s.update d).Sound := by
  refine h.of_map (fun r => if r.id = d.id then d else r) (fun r => ?_) rfl rfl
  split
  · rename_i heq
    exact heq.symm
  · rfl

lemma Sound.setEnabled (h : s.Sound) (id : ℤ) (on : Bool) : (s.setEnabled id on).Sound := by
  refine h.of_map (fun r => if r.id = id then { r with enabled := on } else r) (fun r => ?_) rfl rfl
  split <;> rfl

lemma Sound.remove (h : s.Sound) (id : ℤ) : (s.remove id).Sound :=
  ⟨h.nodup.sublist ((List.filter_sublist).map _), fun d hd => h.le d (List.mem_of_mem_filter hd)⟩

end RelayStore

namespace RelayHost

variable {s t : RelayHost}

/-- A write leaves the service and what is left of the requests alone. -/
lemma service_write (w : StoreWrite) : (s.write w).service = s.service := by
  cases w <;> rfl

lemma calls_write (w : StoreWrite) : (s.write w).calls = s.calls := by
  cases w <;> rfl

/-- What is left of the requests after one has gone on. -/
lemma mem_calls_resume {i : ℕ} {rest : Option ServiceCall} {c : ServiceCall}
    (h : c ∈ (s.resume i rest).calls) : c ∈ s.calls ∨ rest = some c := by
  cases rest with
  | none => exact .inl (List.mem_of_mem_eraseIdx h)
  | some c' =>
      rcases List.mem_or_eq_of_mem_set h with h | rfl
      · exact .inl h
      · exact .inr rfl

/-- What holds in every run: the destinations' ids are told apart, in the database and in what a
reload has read, a session was started by a reload, and there are none without a feeder, whose
storage is the one remembered. -/
structure Orderly (s : RelayHost) : Prop where
  store : s.store.Sound
  read : ∀ r, ServiceCall.reload (.ready r) ∈ s.calls → (r.dests.map (·.id)).Nodup
  started : ∀ id a, s.service.sessions id = some a → a.started ≤ s.service.reloads
  fed : s.service.feeder = none → ∀ id, s.service.sessions id = none
  copied : ∀ f, s.service.feeder = some f → f.storage = s.service.feederStorage

/-- Of a state whose service is as before. -/
lemma Orderly.of_service (h : s.Orderly) (hstore : t.store.Sound)
    (hservice : t.service = s.service)
    (hread : ∀ r, ServiceCall.reload (.ready r) ∈ t.calls → (r.dests.map (·.id)).Nodup) :
    t.Orderly :=
  ⟨hstore, hread, by rw [hservice]; exact h.started, by rw [hservice]; exact h.fed,
    by rw [hservice]; exact h.copied⟩

lemma sound_write (h : s.store.Sound) (w : StoreWrite) : (s.write w).store.Sound := by
  cases w with
  | add d => exact h.add d
  | update d => exact h.update d
  | remove id => exact h.remove id
  | provider key | storage c | lan c | room r | pairing c | clearPairing | resetIdentity =>
      exact ⟨h.nodup, h.le⟩

/-- What a reload under the lock makes of the service. -/
lemma lockReload_cases (s : RelayHost) (r : ReloadRead) :
    (s.service.feederStale r = false ∧
        (s.lockReload r).service =
          { s.service with
            reloads := s.service.reloads + 1
            sessions := Lib.reconcile (·.id) (RelayService.synced r.room (s.service.reloads + 1))
              s.service.sessions r.dests }) ∨
      (s.service.feederStale r = true ∧
        (s.store.configured = false ∨ r.storage.bucket = "") ∧
        (s.lockReload r).service.feeder = none ∧
        (s.lockReload r).service.sessions = fun _ => none) ∨
      s.service.feederStale r = true ∧
        (s.lockReload r).service =
          { ({ s.service with reloads := s.service.reloads + 1 } : RelayService).buildFeeder r with
            sessions := Lib.reconcile (·.id) (RelayService.synced r.room (s.service.reloads + 1))
              (fun _ => none) r.dests } :=
  RelayService.reloadLocked_cases

/-- **A reload under the lock keeps the order.** -/
lemma Orderly.lockReload {r : ReloadRead} (h : s.Orderly)
    (hr : (r.dests.map (·.id)).Nodup) : (s.lockReload r).Orderly := by
  have hstarted : ∀ (m : ℤ → Option RelayRunning) (n : ℕ),
      (∀ id a, m id = some a → a.started ≤ n) → ∀ id a,
      Lib.reconcile (·.id) (RelayService.synced r.room n) m r.dests id = some a →
        a.started ≤ n := by
    intro m n hm id a ha
    obtain ⟨d, -, -, rfl⟩ := Lib.reconcile_eq_some hr ha
    cases hold : m id with
    | none => exact le_of_eq (RelayService.started_synced_none r.room n d)
    | some b =>
        rw [RelayService.started_synced_some]
        exact hm id b hold
  have hbefore : ∀ id a, s.service.sessions id = some a → a.started ≤ s.service.reloads + 1 :=
    fun id a ha => (h.started id a ha).trans (Nat.le_succ _)
  refine ⟨h.store, h.read, ?_, ?_, ?_⟩
  · intro id a ha
    have hreloads : (s.lockReload r).service.reloads = s.service.reloads + 1 :=
      RelayService.reloads_reloadLocked
    rw [hreloads]
    rcases lockReload_cases s r with
      ⟨-, heq⟩ | ⟨-, -, -, hnone⟩ | ⟨-, heq⟩
    · rw [heq] at ha
      exact hstarted _ _ hbefore id a ha
    · rw [hnone] at ha
      exact absurd ha (by simp)
    · rw [heq] at ha
      exact hstarted _ _ (by simp) id a ha
  · intro hfeeder id
    rcases lockReload_cases s r with
      ⟨hstale, heq⟩ | ⟨-, -, -, hnone⟩ | ⟨-, heq⟩
    · rw [heq] at hfeeder
      have hfed : s.service.feeder = none := hfeeder
      simp [RelayService.feederStale, hfed] at hstale
    · rw [hnone]
    · rw [heq] at hfeeder
      simp [RelayService.buildFeeder] at hfeeder
  · intro f hf
    rcases lockReload_cases s r with ⟨-, heq⟩ | ⟨-, -, hnone, -⟩ | ⟨-, heq⟩
    · rw [heq] at hf ⊢
      exact h.copied f hf
    · rw [hnone] at hf
      exact absurd hf (by simp)
    · rw [heq] at hf ⊢
      simp only [RelayService.buildFeeder, Option.some.injEq] at hf ⊢
      rw [← hf]

/-- A request's next step keeps the order. -/
lemma Orderly.advance {c : ServiceCall} (h : s.Orderly) (hc : c ∈ s.calls) :
    (s.advance c).1.Orderly ∧
      ∀ r, (s.advance c).2 = some (.reload (.ready r)) → (r.dests.map (·.id)).Nodup := by
  cases c with
  | writes ws reload =>
      cases ws with
      | nil =>
          refine ⟨h, fun r hr => ?_⟩
          simp only [RelayHost.advance] at hr
          split at hr <;> simp at hr
      | cons w ws =>
          refine ⟨h.of_service (sound_write h.store w) (service_write w) ?_, by
            simp [RelayHost.advance]⟩
          simp only [RelayHost.advance, calls_write]
          exact h.read
  | reload pc =>
      cases pc with
      | ready r =>
          exact ⟨h.lockReload (h.read r hc), by simp [RelayHost.advance, advanceReload]⟩
      | room c l r =>
          refine ⟨h, fun r' hr => ?_⟩
          simp only [RelayHost.advance, advanceReload, Option.map_some, Option.some.injEq,
            ServiceCall.reload.injEq, ReloadPc.ready.injEq] at hr
          rw [← hr]
          exact h.store.nodup
      | begin | provider paired | storage c | lan c l =>
          exact ⟨h, by simp [RelayHost.advance, advanceReload]⟩
  | edit id body =>
      simp only [RelayHost.advance]
      split
      · exact ⟨h, by simp⟩
      · refine ⟨h, fun r hr => ?_⟩
        simp at hr
  | startStop id on =>
      refine ⟨h, fun r hr => ?_⟩
      simp only [RelayHost.advance] at hr
      split at hr <;> simp at hr
  | setRow id on =>
      exact ⟨h.of_service (h.store.setEnabled id on) rfl h.read, by simp [RelayHost.advance]⟩
  | setSession id on =>
      refine ⟨⟨h.store, h.read, fun j a ha => ?_, fun hfeeder j => ?_, h.copied⟩, by
        simp [RelayHost.advance]⟩
      · simp only [RelayHost.advance] at ha ⊢
        by_cases hj : j = id
        · subst hj
          rw [RelayService.sessions_setEnabled, Option.map_eq_some_iff] at ha
          obtain ⟨b, hb, rfl⟩ := ha
          exact h.started j b hb
        · rw [RelayService.sessions_setEnabled_of_ne hj] at ha
          exact h.started j a ha
      · simp only [RelayHost.advance] at hfeeder ⊢
        by_cases hj : j = id
        · rw [hj, RelayService.sessions_setEnabled, h.fed hfeeder id, Option.map_none]
        · rw [RelayService.sessions_setEnabled_of_ne hj, h.fed hfeeder j]

/-- No request comes in with a reload that has read. -/
lemma ServiceRequest.call_ne_ready (q : ServiceRequest) (r : ReloadRead) :
    q.call ≠ .reload (.ready r) := by
  cases q <;> simp [ServiceRequest.call]

/-- **One step keeps the order.** -/
lemma Orderly.step {a : ServiceAction} (h : s.Orderly) (ht : s.step a = some t) : t.Orderly := by
  cases a with
  | request q =>
      rw [RelayHost.step, Option.some.injEq] at ht
      subst ht
      refine h.of_service h.store rfl fun r hr => ?_
      rcases List.mem_append.mp hr with hr | hr
      · exact h.read r hr
      · exact absurd (List.mem_singleton.mp hr).symm (ServiceRequest.call_ne_ready q r)
  | proceed i =>
      rw [RelayHost.step] at ht
      cases hget : s.calls[i]? with
      | none => simp [hget] at ht
      | some c =>
          simp only [hget, Option.some.injEq] at ht
          subst ht
          obtain ⟨hadvance, hrest⟩ := h.advance (List.mem_of_getElem? hget)
          refine hadvance.of_service hadvance.store rfl fun r hr => ?_
          rcases mem_calls_resume hr with hr | hr
          · exact hadvance.read r hr
          · exact hrest r hr
  | refuse i =>
      rw [RelayHost.step] at ht
      split at ht
      · rw [Option.some.injEq] at ht
        subst ht
        exact h.of_service h.store rfl fun r hr => h.read r (List.mem_of_mem_eraseIdx hr)
      · exact absurd ht (by simp)
  | fetch nowMs =>
      rw [RelayHost.step, Option.ite_none_right_eq_some, Option.some.injEq] at ht
      obtain ⟨-, rfl⟩ := ht
      exact h.of_service h.store rfl h.read
  | fetched q nowMs =>
      rw [RelayHost.step] at ht
      split at ht
      · exact absurd ht (by simp)
      · rw [Option.some.injEq] at ht
        subst ht
        refine h.of_service h.store rfl fun r hr => ?_
        rcases List.mem_append.mp hr with hr | hr
        · exact h.read r hr
        · split at hr <;> simp at hr
  | enrol e =>
      rw [RelayHost.step, Option.some.injEq] at ht
      subst ht
      exact h.of_service h.store rfl h.read
  | send =>
      rw [RelayHost.step, Option.ite_none_right_eq_some, Option.some.injEq] at ht
      obtain ⟨-, rfl⟩ := ht
      exact h

lemma orderly_boot {store : RelayStore} (h : store.Sound) : (boot store).Orderly :=
  ⟨h, by simp [boot], by simp [boot], fun _ _ => rfl, by simp [boot]⟩

/-- **In every run.** -/
lemma orderly {cond : RelayHost → ServiceAction → Prop}
    (h : Lib.Reach RelayHost.step cond Started s) : s.Orderly := by
  refine h.invariant ?_ fun s a t hs _ ht => hs.step ht
  rintro _ ⟨store, hstore, rfl⟩
  exact orderly_boot hstore

end RelayHost

/-! ### The statement -/

/-- The bucket and the endpoint read from, the LAN path and the room are those of the feeder. -/
structure RelayService.SamePlace (v : RelayService) (r : ReloadRead) : Prop where
  endpointHost : r.storage.endpointHost = v.feederStorage.endpointHost
  r2AccountId : r.storage.r2AccountId = v.feederStorage.r2AccountId
  bucket : r.storage.bucket = v.feederStorage.bucket
  lan : r.lan = v.feederLan
  room : r.room.roomId = v.feederRoom

/-- What else `same_storage` compares: the key pair, the region and the scheme. -/
structure SameKeys (a b : S3Config) : Prop where
  accessKeyId : a.accessKeyId = b.accessKeyId
  secretAccessKey : a.secretAccessKey = b.secretAccessKey
  region : a.region = b.region
  useHttps : a.useHttps = b.useHttps

/-- The destination's session goes on: it is the same one, and neither marked for a rebuild nor
switched. -/
def RelayService.Keeps (v w : RelayService) (id : ℤ) : Prop :=
  ∃ a b, v.sessions id = some a ∧ w.sessions id = some b ∧ b.started = a.started ∧
    b.edits.reconfigured = a.edits.reconfigured ∧ b.edits.enabled = a.edits.enabled

lemma settled_enabled (room : RoomSettings) (d : Destination) :
    (settled room d).enabled = d.enabled := by
  rw [settled]
  split <;> rfl

lemma RelayService.SamePlace.feederStale_eq_false_iff {v : RelayService} {r : ReloadRead}
    (h : v.SamePlace r) (hfed : v.feeder ≠ none) :
    v.feederStale r = false ↔ SameKeys r.storage v.feederStorage := by
  have hfeeder : v.feeder.isNone = false := by
    cases hf : v.feeder with
    | none => exact absurd hf hfed
    | some f => rfl
  simp only [RelayService.feederStale, hfeeder, sameStorage, sameLan, h.endpointHost,
    h.r2AccountId, h.bucket, h.lan, h.room]
  constructor
  · intro hs
    simp at hs
    exact ⟨hs.1.1.1, hs.1.1.2, hs.1.2, hs.2⟩
  · rintro ⟨h1, h2, h3, h4⟩
    simp [h1, h2, h3, h4]

/-- What a reload that is to take the lock has read. -/
def RelayHost.readyAt (s : RelayHost) (i : ℕ) : Option ReloadRead :=
  match s.calls[i]? with
  | some (.reload (.ready r)) => some r
  | _ => none

lemma RelayHost.calls_of_readyAt {s : RelayHost} {i : ℕ} {r : ReloadRead}
    (h : s.readyAt i = some r) : s.calls[i]? = some (.reload (.ready r)) := by
  rw [RelayHost.readyAt] at h
  split at h
  · rename_i heq
    rw [heq, Option.some.inj h]
  · exact absurd h (by simp)

open RelayHost in
/-- **A reload disturbs only what changed**, where the key pair, the region and the scheme read are
those the feeder was built with: at the same bucket and endpoint, LAN path and room, the session
of a destination that asks for the same stream goes on exactly then, if it is not switched. -/
theorem reload_keeps {s t : RelayHost} (hs : Lib.Reach RelayHost.step Lib.anyStep Started s)
    {i : ℕ} {r : ReloadRead} (hr : s.readyAt i = some r) (ht : s.step (.proceed i) = some t)
    (hplace : s.service.SamePlace r) {a : RelayRunning} {d : Destination} (hd : d ∈ r.dests)
    (ha : s.service.sessions d.id = some a)
    (hstream : affectsStream a.edits.dest (settled r.room d) = false) :
    s.service.Keeps t.service d.id ↔
      SameKeys r.storage s.service.feederStorage ∧ d.enabled = a.edits.enabled := by
  have horderly := orderly hs
  have hcall := calls_of_readyAt hr
  have hnodup := horderly.read r (List.mem_of_getElem? hcall)
  have hfed : s.service.feeder ≠ none := by
    intro hnone
    rw [horderly.fed hnone] at ha
    exact absurd ha (by simp)
  have hservice : t.service = (s.lockReload r).service := by
    rw [RelayHost.step, hcall, Option.some.injEq] at ht
    rw [← ht]
    rfl
  rw [← hplace.feederStale_eq_false_iff hfed, hservice]
  rcases lockReload_cases s r with
    ⟨hstale, heq⟩ | ⟨hstale, -, -, hnone⟩ | ⟨hstale, heq⟩
  · rw [heq]
    have hafter := Lib.reconcile_of_mem (f := RelayService.synced r.room (s.service.reloads + 1))
      (m := s.service.sessions) hnodup hd
    rw [ha] at hafter
    simp only [RelayService.Keeps, ha, hafter, hstale, true_and]
    constructor
    · rintro ⟨a', b, hold, hb, -, -, henabled⟩
      rw [Option.some.injEq] at hold hb
      rw [← hb, ← hold] at henabled
      simpa [RelayService.synced, RelayEdits.update, settled_enabled] using henabled
    · intro henabled
      refine ⟨a, _, rfl, rfl, rfl, ?_, ?_⟩
      · simp [RelayService.synced, RelayEdits.update, hstream]
      · simp [RelayService.synced, RelayEdits.update, settled_enabled, henabled]
  · simp [RelayService.Keeps, hnone, hstale]
  · rw [heq]
    have hafter := Lib.reconcile_of_mem (f := RelayService.synced r.room (s.service.reloads + 1))
      (m := fun _ => none) hnodup hd
    simp only [RelayService.Keeps, ha, hafter, hstale, Bool.true_eq_false, false_and, iff_false]
    rintro ⟨a', b, hold, hb, hstarted, -⟩
    rw [Option.some.injEq] at hold hb
    rw [← hb, RelayService.started_synced_none, ← hold] at hstarted
    have hle := horderly.started d.id a ha
    omega

/-! ### Runs -/

namespace RelayHost

/-- A database with one destination, paired. -/
def sampleStore : RelayStore :=
  { provider := RelayStore.cloudProvider
    pairing := { collectorUrl := "https://c", applianceId := "id", applianceToken := "tok" }
    rows := [{ id := 1, name := "a", url := "rtmp://x", enabled := true, delayS := 60 }]
    lastId := 1 }

lemma sound_sampleStore : sampleStore.Sound := ⟨by simp [sampleStore], by simp [sampleStore]⟩

/-- A set of a collector's. -/
def sampleCreds (key token : String) (expiresAtMs : ℤ) : Credentials :=
  { bucket := "b", endpoint := "e", accessKeyId := key, secretAccessKey := "s"
    sessionToken := token, expiresAtMs }

/-- The service started, the first set fetched, and the sessions started upon it. -/
def sampleFed : List ServiceAction :=
  List.replicate 6 (.proceed 0) ++
    [ServiceAction.fetch 0, .fetched { ok := true, creds := sampleCreds "k1" "t1" 1000000 } 0] ++
    List.replicate 6 (.proceed 0)

/-- Another set, and a destination added: the reload has read. -/
def sampleRefreshed (key : String) : List ServiceAction :=
  sampleFed ++
    [ServiceAction.fetch 600000,
      .fetched { ok := true, creds := sampleCreds key "t2" 2000000 } 600000,
      .request (.addDestination { name := "b", url := "rtmp://y" })] ++
    List.replicate 7 (.proceed 0)

/-- What that reload has read. -/
def sampleRead (key : String) : ReloadRead :=
  { storage := s3ConfigFromCredentials (sampleCreds key "t2" 2000000)
    lan := {}
    room := {}
    dests := sampleStore.rows ++ [{ id := 2, name := "b", url := "rtmp://y" }] }

/-- The first destination's session, as the reload `n` started it. -/
def sampleRunning (n : ℕ) : RelayRunning :=
  { started := n
    edits :=
      { dest := { id := 1, name := "a", url := "rtmp://x", enabled := true, delayS := 60 }
        enabled := true } }

/-- The state before a reload takes the lock, and what the reload makes of the session. -/
def sampleReload (key : String) (n : ℕ) (s : RelayHost) : Prop :=
  s.readyAt 0 = some (sampleRead key) ∧ s.service.sessions 1 = some (sampleRunning 2) ∧
    s.service.feederStorage = s3ConfigFromCredentials (sampleCreds "k1" "t1" 1000000) ∧
    s.service.feederLan = {} ∧ s.service.feederRoom = "main-auditorium" ∧
    (s.step (.proceed 0)).map (fun t => t.service.sessions 1) = some (some (sampleRunning n))

instance (key : String) (n : ℕ) (s : RelayHost) : Decidable (sampleReload key n s) :=
  inferInstanceAs (Decidable (_ ∧ _))

/-- The place is the feeder's. -/
lemma samePlace_of_sampleReload {key : String} {n : ℕ} {s : RelayHost}
    (h : sampleReload key n s) : s.service.SamePlace (sampleRead key) := by
  obtain ⟨-, -, hstorage, hlan, hroom, -⟩ := h
  exact ⟨by rw [hstorage]; rfl, by rw [hstorage]; rfl, by rw [hstorage]; rfl, by rw [hlan]; rfl,
    by rw [hroom]; rfl⟩

end RelayHost

open RelayHost in
theorem reload_keeps_token : ∃ s t : RelayHost,
    Lib.Reach RelayHost.step Lib.anyStep Started s ∧ s.step (.proceed 0) = some t ∧
      s.service.Keeps t.service 1 := by
  obtain ⟨s, hs, hp⟩ := (Lib.exists_reach (boot sampleStore) (sampleRefreshed "k1")
    ⟨sampleStore, sound_sampleStore, rfl⟩ (by decide +kernel) :
    ∃ s, Lib.Reach RelayHost.step Lib.anyStep Started s ∧ sampleReload "k1" 2 s)
  obtain ⟨t, ht, -⟩ := Option.map_eq_some_iff.mp hp.2.2.2.2.2
  refine ⟨s, t, hs, ht, ?_⟩
  have hkeys : SameKeys (sampleRead "k1").storage s.service.feederStorage := by
    rw [hp.2.2.1]
    exact ⟨rfl, rfl, rfl, rfl⟩
  exact (reload_keeps (d := (sampleRunning 2).edits.dest) hs hp.1 ht
    (samePlace_of_sampleReload hp) (by simp [sampleRead, sampleStore, sampleRunning]) hp.2.1
    (by decide +kernel)).mpr ⟨hkeys, rfl⟩

open RelayHost in
/-- The key pair is refreshed, and a destination added: the other destination's session is ended
and another one started. -/
theorem session_torn_down : ∃ (s t : RelayHost) (r : ReloadRead) (a : RelayRunning)
    (d : Destination), Lib.Reach RelayHost.step Lib.anyStep Started s ∧
      s.readyAt 0 = some r ∧ s.step (.proceed 0) = some t ∧ s.service.SamePlace r ∧
      d ∈ r.dests ∧ s.service.sessions d.id = some a ∧
      affectsStream a.edits.dest (settled r.room d) = false ∧ d.enabled = a.edits.enabled ∧
      ¬ s.service.Keeps t.service d.id := by
  obtain ⟨s, hs, hp⟩ := (Lib.exists_reach (boot sampleStore) (sampleRefreshed "k2")
    ⟨sampleStore, sound_sampleStore, rfl⟩ (by decide +kernel) :
    ∃ s, Lib.Reach RelayHost.step Lib.anyStep Started s ∧ sampleReload "k2" 3 s)
  obtain ⟨t, ht, hafter⟩ := Option.map_eq_some_iff.mp hp.2.2.2.2.2
  refine ⟨s, t, sampleRead "k2", sampleRunning 2, (sampleRunning 2).edits.dest, hs, hp.1, ht,
    samePlace_of_sampleReload hp, by simp [sampleRead, sampleStore, sampleRunning], hp.2.1,
    by decide +kernel, rfl, ?_⟩
  rintro ⟨a, b, ha, hb, hstarted, -⟩
  have hbefore := hp.2.1
  simp only [sampleRunning] at ha hb hbefore hafter
  rw [hbefore, Option.some.injEq] at ha
  rw [hafter, Option.some.injEq] at hb
  rw [← ha, ← hb] at hstarted
  exact absurd hstarted (by decide)

end Multisite

import Multisite.Service.Aligned

/-!
What a paired relay signs with: the set its feeder was built with, against the one the identity
holds.

* `set_outlived`: a run in which the feeder goes on signing with a set that has expired while the
  identity holds a live one for the same bucket;
* `signs_held`: where every set adopted signs alike or moves the bucket, and no request of the
  feeder falls before a reload that is owed, the feeder signs with the set held.
-/

namespace Multisite

namespace RelayHost

variable {s t : RelayHost} {i : ℕ}

/-! ### What a reload is owed for -/

/-- What changes the storage, up to `view`, brings a reload; a reload takes the lock under
`lock`. -/
def keepsHeld (view : S3Config → S3Config) (lock : RelayHost → ReloadRead → Bool)
    (s : RelayHost) : ServiceAction → Bool
  | .proceed i =>
      match s.calls[i]? with
      | some (.reload (.ready r)) => lock s r
      | some (.writes (w :: _) false) =>
          decide (view (s.write w).effectiveStorage = view s.effectiveStorage)
      | _ => true
  | .fetched r nowMs =>
      s.fetch.any (fun bucketBefore => credentialsMoveStorage bucketBefore r) ||
        decide (view (effectiveStorage { s with identity := s.identity.onCredentials r nowMs }) =
          view s.effectiveStorage)
  | .enrol e =>
      decide (view (effectiveStorage
          { s with identity := s.identity.setEnrolment e.url e.id e.token }) =
        view s.effectiveStorage)
  | _ => true

section Keeps

variable {view : S3Config → S3Config} {lock : RelayHost → ReloadRead → Bool}
  {P : RelayService → S3Config → Prop}

/-- A property of the service and the storage, or a reload is owed. -/
def OwedOr (P : RelayService → S3Config → Prop) (s : RelayHost) : Prop :=
  s.Owed ∨ P s.service s.effectiveStorage

/-- The property goes by the storage up to `view`, and not by the sessions. -/
structure Respects (view : S3Config → S3Config) (P : RelayService → S3Config → Prop) : Prop where
  storage : ∀ v c c', view c' = view c → P v c → P v c'
  sessions : ∀ (v : RelayService) m c, P v c → P { v with sessions := m } c

/-- The service stays, and so does the storage, or a reload is owed. -/
lemma OwedOr.of_effective (hP : Respects view P) (h : s.OwedOr P)
    (hservice : t.service = s.service) (howed : s.Owed → t.Owed)
    (heff : t.Owed ∨ view t.effectiveStorage = view s.effectiveStorage) : t.OwedOr P := by
  rcases h with ho | h
  · exact .inl (howed ho)
  · rcases heff with ho | heff
    · exact .inl ho
    · refine .inr ?_
      rw [hservice]
      exact hP.storage _ _ _ heff h

/-- A call goes on without a change of the storage. -/
lemma OwedOr.resume {c : ServiceCall} {rest : Option ServiceCall} (hP : Respects view P)
    (h : s.OwedOr P) (hget : s.calls[i]? = some c)
    (howes : owes c = true → ∃ c', rest = some c' ∧ owes c' = true) :
    (s.resume i rest).OwedOr P :=
  h.of_effective hP rfl (fun ho => ho.resume hget howes) (.inr rfl)

/-- **A request goes on.** -/
lemma OwedOr.proceed {c : ServiceCall} (hP : Respects view P)
    (hlock : ∀ r, c = ServiceCall.reload (.ready r) → lock s r = true →
      P (s.lockReload r).service s.effectiveStorage)
    (h : s.OwedOr P) (hget : s.calls[i]? = some c)
    (hc : s.keepsHeld view lock (.proceed i) = true) :
    ((s.advance c).1.resume i (s.advance c).2).OwedOr P := by
  cases c with
  | writes ws reload =>
      cases ws with
      | nil =>
          refine h.resume hP hget fun howes => ?_
          simp only [owes] at howes
          exact ⟨.reload .begin, by simp [advance, howes], rfl⟩
      | cons w ws =>
          have hwrite : (s.write w).calls[i]? = some (.writes (w :: ws) reload) := by
            rw [calls_write, hget]
          refine h.of_effective hP (service_write w) (fun howed => ?_) ?_
          · have howed' : (s.write w).Owed := by
              rw [Owed, calls_write]
              exact howed
            exact howed'.resume hwrite fun howes => ⟨_, rfl, howes⟩
          · cases reload with
            | true => exact .inl ⟨_, mem_resume_rest hwrite, rfl⟩
            | false =>
                rw [keepsHeld, hget] at hc
                exact .inr (of_decide_eq_true hc)
  | reload pc =>
      cases pc with
      | ready r =>
          rw [keepsHeld, hget] at hc
          exact .inr (hlock r rfl hc)
      | begin | provider paired | storage c | lan c l | room c l r =>
          exact h.resume hP hget (by simp [advance, advanceReload, owes])
  | edit id body =>
      simp only [advance]
      split <;> exact h.resume hP hget (by simp [owes])
  | startStop id on => exact h.resume hP hget (by simp [owes])
  | setRow id on =>
      exact h.of_effective hP rfl (fun howed => Owed.resume
        (s := { s with store := s.store.setEnabled id on }) howed hget (by simp [owes]))
        (.inr rfl)
  | setSession id on =>
      rcases h with howed | h
      · exact .inl (Owed.resume (s := { s with service := s.service.setEnabled id on }) howed hget
          (by simp [owes]))
      · exact .inr (hP.sessions _ _ _ h)

/-- Calls are added, and none goes. -/
lemma Owed.append {cs : List ServiceCall} (h : s.Owed) (ht : t.calls = s.calls ++ cs) : t.Owed := by
  obtain ⟨c, hc, howes⟩ := h
  exact ⟨c, ht ▸ List.mem_append_left _ hc, howes⟩

/-- **One step.** -/
lemma OwedOr.step {a : ServiceAction} (hP : Respects view P)
    (hlock : ∀ (j : ℕ) r, s.calls[j]? = some (ServiceCall.reload (.ready r)) → lock s r = true →
      P (s.lockReload r).service s.effectiveStorage)
    (h : s.OwedOr P) (hc : s.keepsHeld view lock a = true) (ht : s.step a = some t) :
    t.OwedOr P := by
  cases a with
  | request q =>
      rw [RelayHost.step, Option.some.injEq] at ht
      subst ht
      exact h.of_effective hP rfl (fun howed => howed.append rfl) (.inr rfl)
  | proceed i =>
      rw [RelayHost.step] at ht
      cases hget : s.calls[i]? with
      | none => simp [hget] at ht
      | some c =>
          simp only [hget, Option.some.injEq] at ht
          subst ht
          exact h.proceed hP (fun r hr => hlock i r (hr ▸ hget)) hget hc
  | refuse i =>
      rw [RelayHost.step] at ht
      split at ht
      · rename_i id hget
        rw [Option.some.injEq] at ht
        subst ht
        exact h.resume hP hget (by simp [owes])
      · exact absurd ht (by simp)
  | fetch nowMs =>
      rw [RelayHost.step, Option.ite_none_right_eq_some, Option.some.injEq] at ht
      obtain ⟨-, rfl⟩ := ht
      exact h.of_effective hP rfl (fun howed => howed) (.inr rfl)
  | fetched q nowMs =>
      rw [RelayHost.step] at ht
      split at ht
      · exact absurd ht (by simp)
      · rename_i bucketBefore hfetch
        rw [Option.some.injEq] at ht
        subst ht
        refine h.of_effective hP rfl (fun howed => howed.append rfl) ?_
        rw [keepsHeld, hfetch, Option.any_some, Bool.or_eq_true, decide_eq_true_eq] at hc
        rcases hc with hmoves | hsame
        · exact .inl ⟨.reload .begin, by simp [hmoves], rfl⟩
        · exact .inr hsame
  | enrol e =>
      rw [RelayHost.step, Option.some.injEq] at ht
      subst ht
      exact h.of_effective hP rfl (fun howed => howed) (.inr (of_decide_eq_true hc))
  | send =>
      rw [RelayHost.step, Option.ite_none_right_eq_some, Option.some.injEq] at ht
      obtain ⟨-, rfl⟩ := ht
      exact h

end Keeps

/-! ### The set signed with -/

/-- A reload takes the lock with the storage held by then, and what leaves the feeder alone is what
the feeder has. -/
def locksHeld (s : RelayHost) (r : ReloadRead) : Bool :=
  decide (r.storage = s.effectiveStorage) &&
    (s.service.feederStale r || decide (r.storage = s.service.feederStorage))

/-- The feeder makes no request while a reload is owed; and what changes the storage brings a
reload. -/
def signsHeld (s : RelayHost) : ServiceAction → Bool
  | .send => !s.calls.any owes
  | a => s.keepsHeld id locksHeld a

/-- The feeder was built with the storage. -/
def BuiltWith (v : RelayService) (c : S3Config) : Prop :=
  v.feeder = none ∨ v.feederStorage = c

lemma respects_builtWith : Respects id BuiltWith :=
  ⟨fun v c c' hcc h => by rw [show c' = c from hcc]; exact h, fun _ _ _ h => h⟩

/-- **A reload under the lock** leaves the feeder with what it read, or none. -/
lemma builtWith_lockReload {r : ReloadRead} (hc : s.locksHeld r = true) :
    BuiltWith (s.lockReload r).service s.effectiveStorage := by
  simp only [locksHeld, Bool.and_eq_true, Bool.or_eq_true, decide_eq_true_eq] at hc
  obtain ⟨hcurrent, hstays⟩ := hc
  rcases lockReload_cases s r with ⟨hstale, heq⟩ | ⟨-, -, hnone, -⟩ | ⟨-, heq⟩
  · right
    rw [heq]
    rcases hstays with hstale' | hsame
    · rw [hstale] at hstale'
      exact absurd hstale' (by simp)
    · exact hsame.symm.trans hcurrent
  · exact .inl hnone
  · right
    rw [heq]
    exact hcurrent

/-- **In every run** that meets the condition. -/
lemma owedOr_builtWith
    (h : Lib.Reach RelayHost.step (fun s a => s.signsHeld a = true) Started s) :
    s.OwedOr BuiltWith := by
  refine h.invariant (I := fun s => s.OwedOr BuiltWith) ?_ fun s a t hs hc ht => ?_
  · rintro _ ⟨store, -, rfl⟩
    exact .inr (.inl rfl)
  · refine OwedOr.step respects_builtWith (fun i r _ (hl : s.locksHeld r = true) =>
      builtWith_lockReload hl) hs ?_ ht
    cases a with
    | send => rfl
    | request q | proceed i | refuse i | fetch nowMs | fetched q nowMs | enrol e => exact hc

/-- A feeder with a transport of the bucket reads a bucket. -/
lemma bucket_of_transport {f : ServiceFeeder} {c : S3Config} (h : f.transport = some c) :
    c = f.storage ∧ c.bucket ≠ "" := by
  rw [ServiceFeeder.transport, Option.ite_none_right_eq_some, Option.some.injEq] at h
  obtain ⟨hconfigured, rfl⟩ := h
  refine ⟨rfl, ?_⟩
  simp only [cloudConfigured, Bool.and_eq_true, decide_eq_true_eq] at hconfigured
  exact hconfigured.1

end RelayHost

/-! ### The statement -/

open RelayHost in
/-- **A paired relay signs with the set it holds**, in every run in which each set adopted signs
alike or moves the bucket, a reload takes the lock with what is held by then, and the feeder makes
no request while a reload is owed. -/
theorem signs_held {s t : RelayHost}
    (h : Lib.Reach RelayHost.step (fun s a => s.signsHeld a = true) Started s)
    (hcloud : s.store.storageIsPaired = true) (hsends : s.signsHeld .send = true)
    (ht : s.step .send = some t) :
    s.identity.creds.present = true ∧
      s.service.feeder.bind (·.transport) = some (s3ConfigFromCredentials s.identity.creds) := by
  rw [RelayHost.step, Option.ite_none_right_eq_some] at ht
  obtain ⟨c, hc⟩ := Option.isSome_iff_exists.mp ht.1
  obtain ⟨f, hf, htransport⟩ := Option.bind_eq_some_iff.mp hc
  obtain ⟨hstorage, hbucket⟩ := bucket_of_transport htransport
  have hcopied : f.storage = s.service.feederStorage :=
    (orderly (h.mono fun _ _ _ => trivial)).copied f hf
  have hheld : c = s.effectiveStorage := by
    rcases owedOr_builtWith h with ⟨c', hc', howes⟩ | hnone | heq
    · have hnot : ∀ c ∈ s.calls, owes c = false := by
        simpa [signsHeld] using hsends
      rw [hnot c' hc'] at howes
      exact absurd howes (by simp)
    · rw [hf] at hnone
      exact absurd hnone (by simp)
    · rw [hstorage, hcopied, heq]
  rw [hc]
  rw [effectiveStorage, hcloud, effectiveFor] at hheld
  cases hpresent : s.identity.creds.present with
  | false =>
      simp only [hpresent, Bool.not_true, Bool.not_false, Bool.false_eq_true, if_false,
        if_true] at hheld
      rw [hheld] at hbucket
      exact absurd rfl hbucket
  | true =>
      simp only [hpresent, Bool.not_true, Bool.false_eq_true, if_false] at hheld
      exact ⟨rfl, congrArg some hheld⟩

/-! ### Runs -/

open RelayHost in
theorem signs_held_first : ∃ s : RelayHost, s.identity.creds.present = true ∧
    s.service.feeder.bind (·.transport) = some (s3ConfigFromCredentials s.identity.creds) := by
  obtain ⟨s, hs, hcloud, hsends, hstep⟩ := (Lib.exists_reach_guarded (boot sampleStore) sampleFed
    ⟨sampleStore, sound_sampleStore, rfl⟩ (by decide +kernel) :
    ∃ s, Lib.Reach RelayHost.step (fun s a => s.signsHeld a = true) Started s ∧
      s.store.storageIsPaired = true ∧ s.signsHeld .send = true ∧
        (s.service.feeder.bind (·.transport)).isSome = true)
  exact ⟨s, signs_held hs hcloud hsends (if_pos hstep)⟩

open RelayHost in
/-- A refresh that rotates the key pair and the token at the same bucket: the feeder goes on with
the first set, past its expiry, and the identity holds a live one. -/
theorem set_outlived : ∃ s, Lib.Reach RelayHost.step Lib.anyStep Started s ∧
    s.store.storageIsPaired = true ∧ s.calls.length = 0 ∧
      s.identity.creds = sampleCreds "k2" "t2" 2000000 ∧
      s.identity.creds.live 1000000 = true ∧
      s.service.feeder.bind (·.transport) =
        some (s3ConfigFromCredentials (sampleCreds "k1" "t1" 1000000)) ∧
      (sampleCreds "k1" "t1" 1000000).live 1000000 = false :=
  Lib.exists_reach (boot sampleStore)
    (sampleFed ++
      [.fetch 600000, .fetched { ok := true, creds := sampleCreds "k2" "t2" 2000000 } 600000])
    ⟨sampleStore, sound_sampleStore, rfl⟩ (by decide +kernel)

end Multisite

import Multisite.Service.Signing

/-!
Which bucket the relay's operations read: each looks for itself at the typed settings
(`storage_configured`, `event_cues`, `start_rebroadcast`) or at the feeder's copy, and
`effective_storage` names the one that counts.

* `other_bucket_read`: runs in which a relay on Multisite Cloud reads the bucket that was typed, and
  in which it refuses what the bucket it is given would serve;
* `reads_named`: where an operation on the typed settings finds the provider typed, one on the
  feeder finds no reload owed, and the gate agrees with the bucket named, every request goes to the
  bucket named when the operation started, and it is refused only where that is unusable.
-/

namespace Multisite

/-! ### The operations -/

/-- What the relay makes requests of a bucket for. -/
inductive StorageOpKind where
  /-- The feeder's own polls and downloads. -/
  | live
  | events
  /-- `check_storage`. -/
  | test
  | download
  | cues
  /-- With a cue for its start or its end, or without. -/
  | rebroadcast (cued : Bool)
  deriving DecidableEq, Repr

/-- A look of an operation at the storage. -/
inductive BucketLook where
  /-- `storage_configured`, asked by `check_event_is_finished`. -/
  | gate
  /-- The feeder's transport. -/
  | feeder
  /-- The typed settings, for the feeder that `event_cues` makes. -/
  | probe
  /-- The typed settings, for the feeder of a rebroadcast. -/
  | own
  /-- The lock, to make that feeder with what was read, under the provider there was. -/
  | make (c : S3Config) (paired : Bool)
  deriving DecidableEq, Repr

/-- The looks an operation takes. -/
def StorageOpKind.looks : StorageOpKind → List BucketLook
  | .live => [.feeder]
  | .events => [.feeder]
  | .test => [.feeder]
  | .download => [.gate, .feeder, .feeder, .feeder]
  | .cues => [.probe]
  | .rebroadcast cued => [.gate, .feeder] ++ (if cued then [.probe] else []) ++ [.own]

/-- What requests are made of: whether the settings are the typed ones, and whether the provider
was Multisite Cloud when they were read. -/
structure BucketAsked where
  config : S3Config
  typed : Bool
  paired : Bool
  deriving DecidableEq, Repr

/-- An operation: what `effective_storage` named when it started, the looks left, what it has made
requests of, and whether it was refused for want of storage. -/
structure StorageOp where
  kind : StorageOpKind
  named : S3Config
  looks : List BucketLook
  asked : List BucketAsked := []
  refused : Bool := false
  deriving DecidableEq, Repr

namespace RelayHost

variable (s : RelayHost)

/-- The feeder's transport, as the settings it was made with. -/
def feederTransport : Option S3Config := s.service.feeder.bind (·.transport)

/-- A look: whether the operation goes on, what it asks, and the look it takes up instead. -/
def look : BucketLook → Bool × List BucketAsked × List BucketLook
  | .gate => (s.store.storageConfigured, [], [])
  | .feeder =>
      (s.feederTransport.isSome,
        s.feederTransport.toList.map fun c => { config := c, typed := false,
                                                paired := s.store.storageIsPaired }, [])
  | .probe =>
      (cloudConfigured s.store.storage,
        if cloudConfigured s.store.storage then
          [{ config := s.store.storage, typed := true, paired := s.store.storageIsPaired }]
        else [], [])
  | .own => (true, [], [.make s.store.storage s.store.storageIsPaired])
  | .make c paired =>
      (s.service.feeder.isSome,
        if s.service.feeder.isSome && cloudConfigured c then
          [{ config := c, typed := true, paired }]
        else [], [])

end RelayHost

/-- The relay, with its operations. -/
structure RelayReading where
  host : RelayHost
  ops : List StorageOp := []

/-- What can happen. -/
inductive ReadingAction where
  | host (a : ServiceAction)
  | start (kind : StorageOpKind)
  /-- An operation takes its next look. -/
  | look (i : ℕ)

namespace RelayReading

/-- An operation after its next look. -/
def after (s : RelayHost) (op : StorageOp) : StorageOp :=
  match op.looks with
  | [] => op
  | l :: rest =>
      let (ok, asked, more) := s.look l
      { op with
        looks := if ok then more ++ rest else []
        asked := op.asked ++ asked
        refused := !ok }

/-- One step. -/
def step (x : RelayReading) : ReadingAction → Option RelayReading
  | .host a => (x.host.step a).map fun t => { x with host := t }
  | .start kind =>
      some
        { x with
          ops := x.ops ++ [{ kind, named := x.host.effectiveStorage, looks := kind.looks }] }
  | .look i =>
      match x.ops[i]? with
      | none => none
      | some op => some { x with ops := x.ops.set i (after x.host op) }

/-- A relay that has just started. -/
def Started (x : RelayReading) : Prop := ∃ s : RelayHost, s.Started ∧ x = { host := s }

end RelayReading

/-! ### The bucket named -/

/-- Where a configuration reads from. -/
def place (c : S3Config) : S3Config :=
  { endpointHost := c.endpointHost, r2AccountId := c.r2AccountId, bucket := c.bucket }

lemma cloudConfigured_of_place {c c' : S3Config} (h : place c = place c') :
    cloudConfigured c = cloudConfigured c' := by
  rw [place, place, S3Config.mk.injEq] at h
  rw [cloudConfigured, cloudConfigured, h.1, h.2.1, h.2.2.1]

namespace RelayHost

variable {s t : RelayHost}

/-- A reload takes the lock with the bucket named by then, and finds a usable one configured. -/
def locksPlace (s : RelayHost) (r : ReloadRead) : Bool :=
  decide (place r.storage = place s.effectiveStorage) &&
    (!cloudConfigured s.effectiveStorage || s.store.configured)

/-- The feeder reads the bucket, and there is none only where the bucket is unusable. -/
def ReadsPlace (v : RelayService) (c : S3Config) : Prop :=
  (v.feeder = none ∧ cloudConfigured c = false) ∨
    v.feeder.isSome = true ∧ place v.feederStorage = place c

lemma respects_readsPlace : Respects place ReadsPlace := by
  constructor
  · rintro v c c' hcc (⟨hnone, hc⟩ | ⟨hsome, hc⟩)
    · exact .inl ⟨hnone, (cloudConfigured_of_place hcc).trans hc⟩
    · exact .inr ⟨hsome, hc.trans hcc.symm⟩
  · exact fun _ _ _ h => h

/-- Storage that `same_storage` takes for the same is in one place. -/
lemma place_of_sameStorage {a b : S3Config} (h : sameStorage a b = true) : place a = place b := by
  simp only [sameStorage, Bool.and_eq_true, decide_eq_true_eq] at h
  rw [place, place, h.1.1.1.1.1.1, h.1.1.1.1.1.2, h.1.1.1.1.2]

/-- **A reload under the lock** leaves the feeder at the bucket named. -/
lemma readsPlace_lockReload {r : ReloadRead} (hc : s.locksPlace r = true) :
    ReadsPlace (s.lockReload r).service s.effectiveStorage := by
  simp only [locksPlace, Bool.and_eq_true, Bool.or_eq_true, Bool.not_eq_true',
    decide_eq_true_eq] at hc
  obtain ⟨hplace, hconfigured⟩ := hc
  rcases lockReload_cases s r with ⟨hstale, heq⟩ | ⟨-, hwhy, hnone, -⟩ | ⟨-, heq⟩
  · right
    rw [heq]
    simp only [RelayService.feederStale, Bool.or_eq_false_iff, Bool.not_eq_false'] at hstale
    refine ⟨by simpa [Option.isNone_eq_false_iff] using hstale.1.1.1, ?_⟩
    exact (place_of_sameStorage hstale.1.1.2).symm.trans hplace
  · refine .inl ⟨hnone, ?_⟩
    rcases hwhy with hno | hbucket
    · rcases hconfigured with h | h
      · exact h
      · rw [hno] at h
        exact absurd h (by simp)
    · rw [← cloudConfigured_of_place hplace, cloudConfigured, hbucket]
      rfl
  · right
    rw [heq]
    exact ⟨rfl, hplace⟩

end RelayHost

namespace RelayReading

/-- What a look needs: the gate agrees with the bucket named, no reload is owed where the feeder is
looked at, and the provider is typed where the typed settings are. -/
def looksRight (s : RelayHost) : BucketLook → Bool
  | .gate => decide (s.store.storageConfigured = cloudConfigured s.effectiveStorage)
  | .feeder => !s.calls.any RelayHost.owes
  | .probe => !s.store.storageIsPaired
  | .own => !s.store.storageIsPaired
  | .make _ _ => !s.calls.any RelayHost.owes

/-- What moves the storage brings a reload, which takes the lock with the bucket named by then; and
an operation takes its looks while the bucket is the one named at its start. -/
def readsNamed (x : RelayReading) : ReadingAction → Bool
  | .host a => x.host.keepsHeld place RelayHost.locksPlace a
  | .start _ => true
  | .look i =>
      match x.ops[i]? with
      | none => true
      | some op =>
          match op.looks with
          | [] => true
          | l :: _ =>
              decide (place x.host.effectiveStorage = place op.named) && looksRight x.host l

end RelayReading

/-- The operation has asked no other bucket than the one named, by no typed setting where the
provider was Multisite Cloud; and when it is done it was refused exactly if that is unusable. -/
structure StorageOp.ReadsNamed (op : StorageOp) : Prop where
  asked : ∀ b ∈ op.asked, place b.config = place op.named ∧ (b.typed = true → b.paired = false)
  offered : op.looks = [] → (op.refused = true ↔ cloudConfigured op.named = false)

/-- An operation on its way: what it has read to make a feeder with is the bucket named, and
whatever look it has taken has said whether that is usable. -/
structure StorageOp.OnItsWay (op : StorageOp) : Prop where
  asked : ∀ b ∈ op.asked, place b.config = place op.named ∧ (b.typed = true → b.paired = false)
  make : ∀ c paired, BucketLook.make c paired ∈ op.looks → place c = place op.named ∧ paired = false
  looked : op.looks = op.kind.looks ∨ op.refused = !cloudConfigured op.named
  done : op.refused = true → op.looks = []

namespace RelayReading

variable {s : RelayHost} {op : StorageOp} {x y : RelayReading}

lemma looks_ne_nil (kind : StorageOpKind) : kind.looks ≠ [] := by
  cases kind with
  | rebroadcast cued => simp [StorageOpKind.looks]
  | live | events | test | download | cues => simp [StorageOpKind.looks]

/-- No operation begins with the making of a feeder. -/
lemma looks_ne_make {kind : StorageOpKind} {l : BucketLook} {rest : List BucketLook}
    (h : kind.looks = l :: rest) : l ≠ .own ∧ ∀ c paired, l ≠ .make c paired := by
  cases kind with
  | rebroadcast cued =>
      simp only [StorageOpKind.looks, List.cons_append, List.cons.injEq] at h
      rw [← h.1]
      simp
  | live | events | test | download | cues =>
      simp only [StorageOpKind.looks, List.cons.injEq] at h
      rw [← h.1]
      simp

lemma make_not_mem_looks (kind : StorageOpKind) (c : S3Config) (paired : Bool) :
    BucketLook.make c paired ∉ kind.looks := by
  cases kind with
  | rebroadcast cued => cases cued <;> simp [StorageOpKind.looks]
  | live | events | test | download | cues => simp [StorageOpKind.looks]

/-- The feeder's transport, where the feeder reads the bucket. -/
lemma feederTransport_of_readsPlace
    (hcopied : ∀ f, s.service.feeder = some f → f.storage = s.service.feederStorage)
    (h : RelayHost.ReadsPlace s.service s.effectiveStorage) :
    s.feederTransport.isSome = cloudConfigured s.effectiveStorage ∧
      ∀ c, s.feederTransport = some c → place c = place s.effectiveStorage := by
  rcases h with ⟨hnone, hunusable⟩ | ⟨hsome, hplace⟩
  · rw [RelayHost.feederTransport, hnone, hunusable]
    exact ⟨rfl, by simp⟩
  · obtain ⟨f, hf⟩ := Option.isSome_iff_exists.mp hsome
    have hstorage := hcopied f hf
    rw [RelayHost.feederTransport, hf, Option.bind_some, ServiceFeeder.transport, hstorage,
      ← cloudConfigured_of_place hplace]
    constructor
    · split
      · rename_i hc
        rw [hc]
        rfl
      · rename_i hc
        rw [Bool.not_eq_true] at hc
        rw [hc]
        rfl
    · intro c hc
      rw [Option.ite_none_right_eq_some, Option.some.injEq] at hc
      rw [← hc.2]
      exact hplace

/-- **A look that says whether the bucket named is usable**, and asks no other. -/
lemma OnItsWay.after_of_usable {l : BucketLook} {rest : List BucketLook} (h : op.OnItsWay)
    (hlooks : op.looks = l :: rest) (hok : (s.look l).1 = cloudConfigured op.named)
    (hasked : ∀ b ∈ (s.look l).2.1,
      place b.config = place op.named ∧ (b.typed = true → b.paired = false))
    (hmore : ∀ c paired, BucketLook.make c paired ∈ (s.look l).2.2 →
      place c = place op.named ∧ paired = false) : (after s op).OnItsWay := by
  rw [after, hlooks]
  refine ⟨fun b hb => ?_, fun c paired hmem => ?_, .inr ?_, fun hrefused => ?_⟩
  · exact (List.mem_append.mp hb).elim (h.asked b) (hasked b)
  · dsimp only at hmem
    split at hmem
    · rcases List.mem_append.mp hmem with hmem | hmem
      · exact hmore c paired hmem
      · exact h.make c paired (hlooks ▸ List.mem_cons_of_mem _ hmem)
    · exact absurd hmem (by simp)
  · dsimp only
    rw [hok]
  · dsimp only at hrefused ⊢
    rw [if_neg]
    rw [Bool.not_eq_true'] at hrefused
    rw [hrefused]
    simp

/-- **An operation's next look.** -/
lemma OnItsWay.after {l : BucketLook} {rest : List BucketLook} (h : op.OnItsWay)
    (hcopied : ∀ f, s.service.feeder = some f → f.storage = s.service.feederStorage)
    (hreads : s.OwedOr RelayHost.ReadsPlace) (hlooks : op.looks = l :: rest)
    (hplace : place s.effectiveStorage = place op.named) (hright : looksRight s l = true) :
    (after s op).OnItsWay := by
  have husable := cloudConfigured_of_place hplace
  have hnotOwed : s.calls.any RelayHost.owes = false →
      RelayHost.ReadsPlace s.service s.effectiveStorage := by
    intro hno
    refine hreads.resolve_left ?_
    rintro ⟨c, hc, howes⟩
    rw [List.any_eq_false] at hno
    exact hno c hc howes
  have htyped : s.store.storageIsPaired = false → s.effectiveStorage = s.store.storage := by
    intro hno
    rw [RelayHost.effectiveStorage, hno]
    rfl
  -- past the first look, the bucket named is usable
  have hlater : l = .own ∨ (∃ c paired, l = .make c paired) → cloudConfigured op.named = true := by
    intro hl
    have hrefused : op.refused = false := by
      by_contra hne
      rw [Bool.not_eq_false] at hne
      rw [h.done hne] at hlooks
      exact absurd hlooks (by simp)
    rcases h.looked with hfirst | hlooked
    · rw [hlooks] at hfirst
      obtain ⟨hown, hmake⟩ := looks_ne_make hfirst.symm
      rcases hl with rfl | ⟨c, paired, rfl⟩
      · exact absurd rfl hown
      · exact absurd rfl (hmake c paired)
    · rw [hrefused] at hlooked
      simpa using hlooked.symm
  cases l with
  | gate =>
      refine OnItsWay.after_of_usable h hlooks ?_ (by simp [RelayHost.look])
        (by simp [RelayHost.look])
      exact (of_decide_eq_true hright).trans husable
  | feeder =>
      obtain ⟨hsome, hread⟩ := feederTransport_of_readsPlace hcopied
        (hnotOwed (by simpa [looksRight] using hright))
      refine OnItsWay.after_of_usable h hlooks (hsome.trans husable) (fun b hb => ?_)
        (by simp [RelayHost.look])
      obtain ⟨c, hc, rfl⟩ := List.mem_map.mp hb
      exact ⟨(hread c (Option.mem_toList.mp hc)).trans hplace, by simp⟩
  | probe =>
      have hprovider : s.store.storageIsPaired = false := by simpa [looksRight] using hright
      have heff := htyped hprovider
      refine OnItsWay.after_of_usable h hlooks ?_ (fun b hb => ?_) (by simp [RelayHost.look])
      · rw [RelayHost.look, ← heff]
        exact husable
      · simp only [RelayHost.look] at hb
        split at hb
        · rw [List.mem_singleton.mp hb]
          exact ⟨by rw [← heff]; exact hplace, fun _ => hprovider⟩
        · exact absurd hb (by simp)
  | own =>
      have hprovider : s.store.storageIsPaired = false := by simpa [looksRight] using hright
      refine OnItsWay.after_of_usable h hlooks (hlater (.inl rfl)).symm (by simp [RelayHost.look])
        fun c paired hmem => ?_
      simp only [RelayHost.look, List.mem_singleton, BucketLook.make.injEq] at hmem
      rw [hmem.1, hmem.2, hprovider, ← htyped hprovider]
      exact ⟨hplace, rfl⟩
  | make c paired =>
      have hnamed := h.make c paired (by simp [hlooks])
      have hready := hlater (.inr ⟨c, paired, rfl⟩)
      have hfeeder : s.service.feeder.isSome = true := by
        rcases hnotOwed (by simpa [looksRight] using hright) with ⟨-, hunusable⟩ | ⟨hsome, -⟩
        · rw [husable, hready] at hunusable
          exact absurd hunusable (by simp)
        · exact hsome
      refine OnItsWay.after_of_usable h hlooks ?_ (fun b hb => ?_) (by simp [RelayHost.look])
      · rw [RelayHost.look, hfeeder, hready]
      · simp only [RelayHost.look] at hb
        split at hb
        · rw [List.mem_singleton.mp hb]
          exact ⟨hnamed.1, fun _ => hnamed.2⟩
        · exact absurd hb (by simp)

/-- **The invariant**: of the relay, and of each operation. -/
structure Right (x : RelayReading) : Prop where
  orderly : x.host.Orderly
  reads : x.host.OwedOr RelayHost.ReadsPlace
  ops : ∀ op ∈ x.ops, op.OnItsWay

/-- **One step.** -/
lemma Right.step {a : ReadingAction} (h : x.Right) (hc : x.readsNamed a = true)
    (ht : x.step a = some y) : y.Right := by
  cases a with
  | host a =>
      rw [RelayReading.step, Option.map_eq_some_iff] at ht
      obtain ⟨t, ht, rfl⟩ := ht
      refine ⟨h.orderly.step ht, ?_, h.ops⟩
      exact RelayHost.OwedOr.step RelayHost.respects_readsPlace
        (fun i r _ (hl : x.host.locksPlace r = true) => RelayHost.readsPlace_lockReload hl)
        h.reads hc ht
  | start kind =>
      rw [RelayReading.step, Option.some.injEq] at ht
      subst ht
      refine ⟨h.orderly, h.reads, fun op hop => ?_⟩
      rcases List.mem_append.mp hop with hop | hop
      · exact h.ops op hop
      · rw [List.mem_singleton.mp hop]
        exact ⟨by simp, fun c paired hmem => absurd hmem (make_not_mem_looks kind c paired),
          .inl rfl, by simp⟩
  | look i =>
      rw [RelayReading.step] at ht
      cases hget : x.ops[i]? with
      | none => simp [hget] at ht
      | some op =>
          simp only [hget, Option.some.injEq] at ht
          subst ht
          have hop := h.ops op (List.mem_of_getElem? hget)
          refine ⟨h.orderly, h.reads, fun op' hop' => ?_⟩
          rcases List.mem_or_eq_of_mem_set hop' with hop' | rfl
          · exact h.ops op' hop'
          rw [readsNamed, hget] at hc
          cases hlooks : op.looks with
          | nil =>
              rw [RelayReading.after, hlooks]
              exact hop
          | cons l rest =>
              simp only [hlooks, Bool.and_eq_true, decide_eq_true_eq] at hc
              exact OnItsWay.after hop h.orderly.copied h.reads hlooks hc.1 hc.2

end RelayReading

/-! ### The statement -/

open RelayReading in
/-- **The relay reads one bucket**, in every run in which what moves the storage brings a reload,
which takes the lock with the bucket named by then, and in which each operation looks at the
storage while it is the one named at its start, with the provider typed, or no reload owed, as the
look needs. -/
theorem reads_named {x : RelayReading}
    (h : Lib.Reach RelayReading.step (fun x a => x.readsNamed a = true) RelayReading.Started x) :
    ∀ op ∈ x.ops, op.ReadsNamed := by
  have hright : x.Right := by
    refine h.invariant ?_ fun x a y hx hc ht => hx.step hc ht
    rintro _ ⟨s, ⟨store, hstore, rfl⟩, rfl⟩
    refine ⟨RelayHost.orderly_boot hstore, .inl ⟨.reload .begin, ?_, rfl⟩, by simp⟩
    exact List.mem_singleton.mpr rfl
  intro op hop
  have hway := hright.ops op hop
  refine ⟨hway.asked, fun hdone => ?_⟩
  rcases hway.looked with hfirst | hlooked
  · exact absurd (hfirst.symm.trans hdone) (looks_ne_nil op.kind)
  · rw [hlooked]
    simp

/-! ### Runs -/

namespace RelayReading

/-- A relay started over a database. -/
def bootOver (store : RelayStore) : RelayReading := { host := RelayHost.boot store }

/-- A database with a bucket typed in and Multisite Cloud chosen. -/
def bothStore : RelayStore :=
  { RelayHost.sampleStore with
    storage :=
      { endpointHost := "e2", bucket := "typed", accessKeyId := "k", secretAccessKey := "s" } }

lemma sound_bothStore : bothStore.Sound :=
  ⟨RelayHost.sound_sampleStore.nodup, RelayHost.sound_sampleStore.le⟩

end RelayReading

open RelayReading in
theorem reads_named_typed : ∃ x : RelayReading, x.ops.length = 2 ∧
    (∀ op ∈ x.ops, op.looks = [] ∧ op.refused = false) ∧ ∀ op ∈ x.ops, op.ReadsNamed := by
  obtain ⟨x, hx, hlength, hdone⟩ := (Lib.exists_reach_guarded (bootOver RelayHost.typedStore)
    (RelayHost.typedFed.map .host ++
      [.start (.rebroadcast true), .look 0, .look 0, .look 0, .look 0, .look 0,
        .start .download, .look 1, .look 1, .look 1, .look 1])
    ⟨_, ⟨_, RelayHost.sound_typedStore, rfl⟩, rfl⟩ (by decide +kernel) :
    ∃ x, Lib.Reach RelayReading.step (fun x a => x.readsNamed a = true)
        RelayReading.Started x ∧
      x.ops.length = 2 ∧ ∀ op ∈ x.ops, op.looks = [] ∧ op.refused = false)
  exact ⟨x, hlength, hdone, reads_named hx⟩

open RelayReading in
/-- On Multisite Cloud, with a bucket typed in before: the cue list is read from the typed one.  And
without: a download is refused, though the bucket held is usable. -/
theorem other_bucket_read :
    (∃ x, Lib.Reach RelayReading.step Lib.anyStep RelayReading.Started x ∧
      ∃ op ∈ x.ops, op.named.bucket = "b" ∧ ∃ b ∈ op.asked, b.config.bucket = "typed" ∧
        b.typed = true ∧ b.paired = true) ∧
    ∃ x, Lib.Reach RelayReading.step Lib.anyStep RelayReading.Started x ∧
      ∃ op ∈ x.ops, op.looks = [] ∧ op.refused = true ∧ cloudConfigured op.named = true :=
  ⟨Lib.exists_reach (bootOver bothStore)
    (RelayHost.sampleFed.map .host ++ [.start .cues, .look 0])
    ⟨_, ⟨_, sound_bothStore, rfl⟩, rfl⟩ (by decide +kernel),
  Lib.exists_reach (bootOver RelayHost.sampleStore)
    (RelayHost.sampleFed.map .host ++ [.start .download, .look 0])
    ⟨_, ⟨_, RelayHost.sound_sampleStore, rfl⟩, rfl⟩ (by decide +kernel)⟩

end Multisite

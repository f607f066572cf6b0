import Multisite.Cloud.Identity

/-!
The storage credentials a device holds from one enrolment on, over any replies and clock
readings.

* `onCredentials_adopts`, `onCredentials_keeps`: what a reply does to the set held;
* `held_signs`: what is held from a set that could be used on;
* `tick_after`: when the next fetch is.
-/

namespace Multisite

/-- The set can sign: it names a bucket and has both keys. -/
def Credentials.signs (c : Credentials) : Prop :=
  c.bucket ≠ "" ∧ c.accessKeyId ≠ "" ∧ c.secretAccessKey ≠ ""

instance (c : Credentials) : Decidable c.signs := inferInstanceAs (Decidable (_ ∧ _))

/-- The two are one set, whether marked last-good or not. -/
def SameSet (c c' : Credentials) : Prop := { c with fromLastGood := c'.fromLastGood } = c'

namespace SameSet

variable {c c' c'' : Credentials}

lemma refl (c : Credentials) : SameSet c c := rfl

lemma trans (h : SameSet c c') (h' : SameSet c' c'') : SameSet c c'' := by
  rw [SameSet, ← h'] at *
  rw [← h]

lemma marked (c : Credentials) (b : Bool) : SameSet c { c with fromLastGood := b } := rfl

lemma signs (h : SameSet c c') (hc : c.signs) : c'.signs := by
  rw [← h]
  exact hc

lemma expires (h : SameSet c c') : c'.expiresAtMs = c.expiresAtMs := by rw [← h]

lemma present (h : SameSet c c') : c'.present = c.present := by
  rw [← h]
  rfl

lemma readWrite (h : SameSet c c') : c'.readWrite = c.readWrite := by rw [← h]

end SameSet

/-- A reply a device takes the set of: it is good, and a device that only reads is not offered
more. -/
def CredentialsReply.adopted (requireReadOnly : Bool) (r : CredentialsReply) : Bool :=
  r.ok && !(requireReadOnly && r.creds.readWrite)

lemma unpaired_of_ok {parse : String → Option Json} {body : String} {code : ℤ}
    (h : (cloudParseCredentials parse body code).ok = true) :
    (cloudParseCredentials parse body code).unpaired = false := by
  rw [cloudParseCredentials] at h ⊢
  split at h
  · exact absurd h (by simp)
  rename_i h403
  rw [if_neg h403]
  split at h
  · exact absurd h (by simp)
  rename_i h200
  rw [if_neg h200]
  cases hparse : parse body with
  | none => rfl
  | some j =>
      dsimp only
      split
      · rfl
      · split <;> rfl

namespace CloudIdentity

variable {x : CloudIdentity} {r : CredentialsReply} {nowMs : ℤ}

/-! ### One reply -/

@[simp] lemma requireReadOnly_onCredentials :
    (x.onCredentials r nowMs).requireReadOnly = x.requireReadOnly := by
  rw [onCredentials]
  split
  · rfl
  split
  · rfl
  split
  · rfl
  split <;> rfl

lemma unpaired_onCredentials :
    (x.onCredentials r nowMs).unpaired = (x.unpaired || r.unpaired) := by
  rw [onCredentials]
  split
  · rename_i h
    rw [h, Bool.or_true]
  · rename_i h
    rw [Bool.not_eq_true] at h
    rw [h, Bool.or_false]
    split
    · rfl
    split
    · rfl
    split <;> rfl

/-- **A good reply replaces the set held.** -/
lemma onCredentials_adopts (hr : r.unpaired = false)
    (h : r.adopted x.requireReadOnly = true) :
    (x.onCredentials r nowMs).creds = { r.creds with fromLastGood := false } ∧
      (x.onCredentials r nowMs).nextFetchAtMs =
        nowMs + cloudNextRefreshMs { r.creds with fromLastGood := false } nowMs := by
  rw [CredentialsReply.adopted, Bool.and_eq_true, Bool.not_eq_true'] at h
  rw [onCredentials, if_neg (by simp [hr]), if_neg (by simp [Bool.and_assoc, h.2]), if_pos h.1]
  exact ⟨rfl, rfl⟩

/-- **Any other reply leaves it**, marked or not. -/
lemma onCredentials_keeps (h : r.unpaired = true ∨ r.adopted x.requireReadOnly = false) :
    SameSet x.creds (x.onCredentials r nowMs).creds := by
  rw [onCredentials]
  split
  · split
    · exact SameSet.marked _ _
    · exact SameSet.refl _
  rename_i hunpaired
  split
  · exact SameSet.refl _
  rename_i hrefused
  split
  · rename_i hok
    rcases h with h | h
    · exact absurd h hunpaired
    · rw [CredentialsReply.adopted, hok, Bool.true_and, Bool.not_eq_false'] at h
      exact absurd (by rw [hok, Bool.true_and, h]) hrefused
  · split
    · exact SameSet.marked _ _
    · exact SameSet.refl _

lemma kMinRefreshMs_le_waitOr (wait : ℤ) (h : 0 < wait → kMinRefreshMs ≤ wait) :
    kMinRefreshMs ≤ waitOr wait := by
  rw [waitOr]
  split
  · exact h ‹_›
  · exact le_rfl

lemma kMinRefreshMs_le_refresh {c : Credentials} (h : 0 < cloudNextRefreshMs c nowMs) :
    kMinRefreshMs ≤ cloudNextRefreshMs c nowMs := by
  rw [cloudNextRefreshMs] at h ⊢
  split at h
  · exact absurd h (lt_irrefl 0)
  rename_i hpresent
  rw [if_neg hpresent]
  dsimp only at h ⊢
  split at h
  · exact absurd h (lt_irrefl 0)
  rename_i hremaining
  rw [if_neg hremaining]
  split
  · exact le_rfl
  · exact not_lt.mp ‹_›

/-- A set with time left is refreshed no sooner than the floor. -/
lemma refresh_pos {c : Credentials} (hc : c.bucket ≠ "") (h : nowMs < c.expiresAtMs) :
    0 < cloudNextRefreshMs c nowMs := by
  rw [cloudNextRefreshMs, if_neg (by simp [Credentials.present, hc])]
  dsimp only
  rw [if_neg (by omega)]
  split
  · exact (by decide : (0 : ℤ) < kMinRefreshMs)
  · exact lt_of_lt_of_le (by decide : (0 : ℤ) < kMinRefreshMs) (not_lt.mp ‹_›)

/-- **The next fetch after a reply** is no sooner than the floor, unless the set just taken has
no time left. -/
lemma nextFetch_onCredentials (hr : r.unpaired = false)
    (h : r.adopted x.requireReadOnly = true →
      r.creds.bucket ≠ "" ∧ nowMs < r.creds.expiresAtMs) :
    nowMs + kMinRefreshMs ≤ (x.onCredentials r nowMs).nextFetchAtMs := by
  by_cases hadopted : r.adopted x.requireReadOnly = true
  · obtain ⟨hbucket, hexpires⟩ := h hadopted
    rw [(onCredentials_adopts hr hadopted).2]
    have := kMinRefreshMs_le_refresh (refresh_pos (c := { r.creds with fromLastGood := false })
      hbucket hexpires)
    omega
  rw [onCredentials, if_neg (by simp [hr])]
  split
  · have := kMinRefreshMs_le_waitOr (if x.creds.present then cloudNextRefreshMs x.creds nowMs else 0)
      (by
        split
        · exact kMinRefreshMs_le_refresh
        · exact fun h => absurd h (lt_irrefl 0))
    dsimp only
    omega
  rename_i hrefused
  split
  · rename_i hok
    refine absurd ?_ hadopted
    rw [hok, Bool.true_and] at hrefused
    rw [CredentialsReply.adopted, hok, Bool.true_and, Bool.not_eq_true']
    simpa using hrefused
  split
  · exact Int.add_le_add_left (kMinRefreshMs_le_waitOr _ kMinRefreshMs_le_refresh) _
  · exact le_rfl

/-! ### Any replies -/

/-- A reply as it comes in: the status, the body, and the clock. -/
structure Received where
  code : ℤ
  body : String
  nowMs : ℤ
  deriving DecidableEq, Repr

section

variable (parse : String → Option Json)

/-- What a reply is parsed to. -/
def Received.reply (rc : Received) : CredentialsReply := cloudParseCredentials parse rc.body rc.code

/-- The device after these replies. -/
def after (x : CloudIdentity) (rs : List Received) : CloudIdentity :=
  rs.foldl (fun x rc => x.onCredentials (rc.reply parse) rc.nowMs) x

variable {parse} {rs rs' : List Received} {rc : Received}

lemma after_append : after parse x (rs ++ rs') = after parse (after parse x rs) rs' :=
  List.foldl_append

lemma after_cons :
    after parse x (rc :: rs) = after parse (x.onCredentials (rc.reply parse) rc.nowMs) rs := rfl

@[simp] lemma requireReadOnly_after : (after parse x rs).requireReadOnly = x.requireReadOnly := by
  induction rs generalizing x with
  | nil => rfl
  | cons rc rs ih => rw [after_cons, ih, requireReadOnly_onCredentials]

lemma unpaired_after (h : x.unpaired = true) : (after parse x rs).unpaired = true := by
  induction rs generalizing x with
  | nil => exact h
  | cons rc rs ih =>
      rw [after_cons]
      exact ih (by rw [unpaired_onCredentials, h, Bool.true_or])

/-- A reply that is good is not the unpaired one. -/
lemma Received.unpaired_of_adopted {b : Bool} (h : (rc.reply parse).adopted b = true) :
    (rc.reply parse).unpaired = false := by
  rw [CredentialsReply.adopted, Bool.and_eq_true] at h
  exact unpaired_of_ok h.1

/-- Replies none of which is taken leave the set held. -/
lemma sameSet_after (h : ∀ rc ∈ rs, (rc.reply parse).adopted x.requireReadOnly = false) :
    SameSet x.creds (after parse x rs).creds := by
  induction rs generalizing x with
  | nil => exact SameSet.refl _
  | cons rc rs ih =>
      obtain ⟨hrc, hrs⟩ := List.forall_mem_cons.mp h
      rw [after_cons]
      refine (onCredentials_keeps (Or.inr hrc)).trans (ih fun rc' hrc' => ?_)
      rw [requireReadOnly_onCredentials]
      exact hrs rc' hrc'

/-- **What is held later** is the set held now, or one that was taken meanwhile. -/
lemma held_after : SameSet x.creds (after parse x rs).creds ∨
    ∃ rc ∈ rs, (rc.reply parse).adopted x.requireReadOnly = true ∧
      SameSet (rc.reply parse).creds (after parse x rs).creds := by
  induction rs generalizing x with
  | nil => exact Or.inl (SameSet.refl _)
  | cons rc rs ih =>
      rw [after_cons]
      rcases ih (x := x.onCredentials (rc.reply parse) rc.nowMs) with hsame | ⟨rc', hmem, hok, hsame⟩
      · by_cases hadopted : (rc.reply parse).adopted x.requireReadOnly = true
        · refine Or.inr ⟨rc, List.mem_cons_self, hadopted, SameSet.trans ?_ hsame⟩
          rw [(onCredentials_adopts (Received.unpaired_of_adopted hadopted) hadopted).1]
          exact SameSet.marked _ _
        · rw [Bool.not_eq_true] at hadopted
          exact Or.inl ((onCredentials_keeps (Or.inr hadopted)).trans hsame)
      · rw [requireReadOnly_onCredentials] at hok
        exact Or.inr ⟨rc', List.mem_cons_of_mem _ hmem, hok, hsame⟩

/-- What a device that only reads takes does not write. -/
lemma readWrite_of_adopted {r : CredentialsReply} (h : r.adopted true = true) :
    r.creds.readWrite = false := by
  rw [CredentialsReply.adopted, Bool.true_and, Bool.and_eq_true, Bool.not_eq_true'] at h
  exact h.2

/-- A good reply names a bucket. -/
lemma Received.bucket_of_ok (h : (rc.reply parse).ok = true) : (rc.reply parse).creds.bucket ≠ "" := by
  rw [Received.reply, cloudParseCredentials] at h ⊢
  split at h
  · exact absurd h (by simp)
  rename_i h403
  rw [if_neg h403]
  split at h
  · exact absurd h (by simp)
  rename_i h200
  rw [if_neg h200]
  cases hparse : parse rc.body with
  | none =>
      rw [hparse] at h
      exact absurd h (by simp)
  | some j =>
      rw [hparse] at h
      dsimp only at h ⊢
      split at h
      · exact absurd h (by simp)
      rename_i hobject
      rw [if_neg hobject]
      split at h
      · exact absurd h (by simp)
      rename_i hbucket
      rw [if_neg hbucket]
      exact hbucket

variable (parse) in
/-- The set a reply carries can be used when it comes: both keys, and time left. -/
def Received.Fit (rc : Received) : Prop :=
  (rc.reply parse).creds.signs ∧ rc.nowMs < (rc.reply parse).creds.expiresAtMs

/-- From a set that can sign on, replies that carry usable sets leave one that can. -/
lemma held_signs (hheld : x.creds.signs)
    (h : ∀ rc ∈ rs, (rc.reply parse).adopted x.requireReadOnly = true → rc.Fit parse) :
    (after parse x rs).creds.signs ∧ (SameSet x.creds (after parse x rs).creds ∨
      ∃ rc ∈ rs, SameSet (rc.reply parse).creds (after parse x rs).creds ∧
        rc.nowMs < (after parse x rs).creds.expiresAtMs) := by
  rcases held_after (x := x) with hsame | ⟨rc, hmem, hok, hsame⟩
  · exact ⟨hsame.signs hheld, Or.inl hsame⟩
  · obtain ⟨hsigns, hexpires⟩ := h rc hmem hok
    exact ⟨hsame.signs hsigns, Or.inr ⟨rc, hmem, hsame, by rwa [hsame.expires]⟩⟩

/-- A device that only reads never comes to hold a set that writes. -/
lemma readWrite_after (hro : x.requireReadOnly = true) (h : x.creds.readWrite = false) :
    (after parse x rs).creds.readWrite = false := by
  rcases held_after (x := x) with hsame | ⟨rc, -, hok, hsame⟩
  · rw [hsame.readWrite, h]
  · rw [hro] at hok
    rw [hsame.readWrite, readWrite_of_adopted hok]

lemma tick_of_unpaired (h : x.unpaired = true) (t : ℤ) : x.tick t = .idle := by
  rw [tick, h]
  split <;> rfl

lemma le_of_tick {t : ℤ} (hnext : x.nextFetchAtMs ≠ 0) (h : x.tick t = .fetch) :
    x.nextFetchAtMs ≤ t := by
  rw [tick] at h
  split at h
  · exact absurd h (by simp)
  split at h
  · exact absurd h (by simp)
  split at h
  · assumption
  · exact absurd h (by simp)

/-- **The next fetch after a reply.** -/
lemma tick_after (hr : (rc.reply parse).unpaired = false) (hnow : 0 ≤ rc.nowMs)
    (h : (rc.reply parse).adopted x.requireReadOnly = true →
      rc.nowMs < (rc.reply parse).creds.expiresAtMs) {t : ℤ}
    (ht : (x.onCredentials (rc.reply parse) rc.nowMs).tick t = .fetch) :
    rc.nowMs + kMinRefreshMs ≤ t := by
  have hnext := nextFetch_onCredentials (x := x) hr fun hadopted => by
    refine ⟨rc.bucket_of_ok ?_, h hadopted⟩
    rw [CredentialsReply.adopted, Bool.and_eq_true] at hadopted
    exact hadopted.1
  have hpos : (0 : ℤ) < kMinRefreshMs := by decide
  exact hnext.trans (le_of_tick (by omega) ht)

/-- **Cloud credentials only improve**, after one enrolment and any replies: once a set that can
be used is held and every reply taken since carries one, what is held can sign, and is that set
or one that had time left when it came; from an unpaired reply on there is no fetch, and the set
held stays until another reply is taken; a device that only reads never holds a set that writes;
and after any other reply the next fetch is no sooner than `kMinRefreshMs` later, when the set it
brought, if it was taken, has time left and the clock is not before 1970. -/
theorem credentials_improve (parse : String → Option Json) (x : CloudIdentity)
    (url id token : String) (rs rs' : List Received) (rc : Received) :
    (∀ t, (after parse (x.setEnrolment url id token) rs).creds.signs →
      t < (after parse (x.setEnrolment url id token) rs).creds.expiresAtMs →
      (∀ rc ∈ rs', (rc.reply parse).adopted x.requireReadOnly = true → rc.Fit parse) →
      (after parse (x.setEnrolment url id token) (rs ++ rs')).creds.signs ∧
        (SameSet (after parse (x.setEnrolment url id token) rs).creds
            (after parse (x.setEnrolment url id token) (rs ++ rs')).creds ∨
          ∃ rc ∈ rs', SameSet (rc.reply parse).creds
              (after parse (x.setEnrolment url id token) (rs ++ rs')).creds ∧
            rc.nowMs < (after parse (x.setEnrolment url id token) (rs ++ rs')).creds.expiresAtMs)) ∧
    ((rc.reply parse).unpaired = true →
      (∀ t, (after parse (x.setEnrolment url id token) (rs ++ rc :: rs')).tick t = .idle) ∧
      ((∀ rc ∈ rs', (rc.reply parse).adopted x.requireReadOnly = false) →
        SameSet (after parse (x.setEnrolment url id token) rs).creds
          (after parse (x.setEnrolment url id token) (rs ++ rc :: rs')).creds)) ∧
    (x.requireReadOnly = true →
      (after parse (x.setEnrolment url id token) rs).creds.readWrite = false) ∧
    ((rc.reply parse).unpaired = false → 0 ≤ rc.nowMs →
      ((rc.reply parse).adopted x.requireReadOnly = true →
        rc.nowMs < (rc.reply parse).creds.expiresAtMs) →
      ∀ t, (after parse (x.setEnrolment url id token) (rs ++ [rc])).tick t = .fetch →
        rc.nowMs + kMinRefreshMs ≤ t) := by
  have hro : (after parse (x.setEnrolment url id token) rs).requireReadOnly = x.requireReadOnly :=
    requireReadOnly_after
  refine ⟨fun t hheld _ hfit => ?_, fun hunpaired => ⟨fun t => ?_, fun hkept => ?_⟩,
    fun hread => ?_, fun hr hnow hleft t ht => ?_⟩
  · rw [after_append]
    exact held_signs hheld fun rc hmem hok => hfit rc hmem (hro ▸ hok)
  · refine tick_of_unpaired ?_ t
    rw [after_append, after_cons]
    exact unpaired_after (by rw [unpaired_onCredentials, hunpaired, Bool.or_true])
  · rw [after_append, after_cons]
    refine (onCredentials_keeps (Or.inl hunpaired)).trans (sameSet_after fun rc' hrc' => ?_)
    rw [requireReadOnly_onCredentials, hro]
    exact hkept rc' hrc'
  · exact readWrite_after hread rfl
  · rw [after_append] at ht
    exact tick_after hr hnow (fun hok => hleft (hro ▸ hok)) ht

end

/-- The two documents a collector sends below, the second without keys and expiry. -/
def collectorDocument (body : String) : Option Json :=
  if body = "\x7b\"access_key_id\":\"k\",\"bucket\":\"b\",\"expires_at\":100000,\"secret_access_key\":\"s\"\x7d"
  then some (.obj [("access_key_id", .str "k"), ("bucket", .str "b"), ("expires_at", .int 100000),
    ("secret_access_key", .str "s")])
  else if body = "\x7b\"bucket\":\"b\"\x7d" then some (.obj [("bucket", .str "b")])
  else none

/-- The first of them, received at 1000 ms. -/
def goodSet : Received :=
  ⟨200, "\x7b\"access_key_id\":\"k\",\"bucket\":\"b\",\"expires_at\":100000,\"secret_access_key\":\"s\"\x7d", 1000⟩

/-- A good set, an outage, and then the device is unpaired. -/
theorem credentials_improve_outage :
    (after collectorDocument (({} : CloudIdentity).setEnrolment "u" "i" "t")
        ([goodSet] ++ [⟨500, "", 2000⟩])).creds.signs ∧
      (∀ t, (after collectorDocument (({} : CloudIdentity).setEnrolment "u" "i" "t")
        ([goodSet] ++ ⟨403, "", 3000⟩ :: [⟨500, "", 2000⟩])).tick t = .idle) ∧
      ∀ t, (after collectorDocument (({} : CloudIdentity).setEnrolment "u" "i" "t")
        ([goodSet] ++ [⟨500, "", 2000⟩])).tick t = .fetch → 2000 + kMinRefreshMs ≤ t := by
  refine ⟨?_, ?_, ?_⟩
  · exact ((credentials_improve collectorDocument {} "u" "i" "t" [goodSet] [⟨500, "", 2000⟩]
      ⟨500, "", 2000⟩).1 1000 (by decide +kernel) (by decide +kernel) (by
        intro rc hrc hok
        obtain rfl := List.mem_singleton.mp hrc
        exact absurd hok (by decide +kernel))).1
  · exact ((credentials_improve collectorDocument {} "u" "i" "t" [goodSet] [⟨500, "", 2000⟩]
      ⟨403, "", 3000⟩).2.1 (by decide +kernel)).1
  · exact (credentials_improve collectorDocument {} "u" "i" "t" [goodSet] []
      ⟨500, "", 2000⟩).2.2.2 (by decide +kernel) (by decide) fun hok =>
        absurd hok (by decide +kernel)

/-- A good set, and then a reply that names a bucket and nothing else: it replaces a set that
could be used by one that can neither sign nor has time left, and the next fetch is due at
once. -/
theorem credentials_lost :
    ¬∀ (parse : String → Option Json) (x : CloudIdentity) (url id token : String)
      (rs : List Received) (rc : Received),
      ((after parse (x.setEnrolment url id token) rs).creds.signs →
        rc.nowMs < (after parse (x.setEnrolment url id token) rs).creds.expiresAtMs →
        (after parse (x.setEnrolment url id token) (rs ++ [rc])).creds.signs) ∧
      ((rc.reply parse).unpaired = false →
        ∀ t, (after parse (x.setEnrolment url id token) (rs ++ [rc])).tick t = .fetch →
          rc.nowMs + kMinRefreshMs ≤ t) := by
  intro h
  have hsigns := (h collectorDocument {} "u" "i" "t" [goodSet] ⟨200, "\x7b\"bucket\":\"b\"\x7d", 2000⟩).1
    (by decide +kernel) (by decide +kernel)
  exact absurd hsigns (by decide +kernel)

end CloudIdentity

end Multisite

import Multisite.Cloud.Lifecycle
import Multisite.Lib.Run

/-!
A credential fetch beside a change of the pairing (`CloudIdentity` in `cloud_identity.cpp`, and
`serve_credentials` of the relay, the OBS plugin and the player).

The request is made with one snapshot of the enrolment, on the host's worker thread and without
the identity's lock; the pairing changes on other threads, and the reply goes to whatever the
identity has become.

* `crossed_reply`: a reply that outlives its pairing, for a set and for a 403;
* `own_replies`: where the pairing does not change between a snapshot and the reply to it, the
  set held was issued to the enrolment held, a reset identity holds none, and fetching was
  stopped by a reply to the enrolment held.
-/

namespace Multisite

/-- `Enrolment`. -/
structure Enrolment where
  url : String := ""
  id : String := ""
  token : String := ""
  deriving DecidableEq, Repr

/-- `Enrolment::paired`. -/
def Enrolment.paired (e : Enrolment) : Bool := e.url ≠ "" && e.id ≠ "" && e.token ≠ ""

/-- `CloudIdentity::enrolment`. -/
def CloudIdentity.enrolment (x : CloudIdentity) : Enrolment :=
  { url := x.url, id := x.id, token := x.token }

/-- `CloudIdentity::reset`. -/
def CloudIdentity.reset (x : CloudIdentity) : CloudIdentity :=
  { requireReadOnly := x.requireReadOnly }

/-- The hosts of a `CloudIdentity`. -/
inductive CloudHost where
  | obs
  | player
  | relay
  deriving DecidableEq, Repr

/-- How far the worker is with a fetch. -/
inductive FetchPc where
  | idle
  /-- `tick` said so at a time, and the enrolment has not been read. -/
  | due (nowMs : ℤ)
  /-- The enrolment has been read, and `tick` not asked: the relay's order. -/
  | known (en : Enrolment)
  /-- The request is out.  The time is the one a reply is taken at, where it was read before. -/
  | asked (en : Enrolment) (nowMs : Option ℤ)
  deriving DecidableEq, Repr

/-- The identity, and the worker that fetches for it. -/
structure CloudFetching where
  identity : CloudIdentity := {}
  fetch : FetchPc := .idle
  deriving DecidableEq, Repr

/-- What the worker and the other threads do. -/
inductive FetchAction where
  | setEnrolment (en : Enrolment)
  | reset
  | begin (nowMs : ℤ)
  | proceed (nowMs : ℤ)
  | answer (r : CredentialsReply) (nowMs : ℤ)
  deriving DecidableEq, Repr

namespace CloudFetching

/-- One step.  A request made with no pairing has no address, and is not reached. -/
def step (host : CloudHost) (s : CloudFetching) : FetchAction → Option CloudFetching
  | .setEnrolment en =>
      some { s with identity := s.identity.setEnrolment en.url en.id en.token }
  | .reset => some { s with identity := s.identity.reset }
  | .begin nowMs =>
      if s.fetch ≠ .idle then none
      else if host = .relay then
        if s.identity.enrolment.paired then
          some { s with fetch := .known s.identity.enrolment }
        else none
      else if s.identity.tick nowMs = .fetch then some { s with fetch := .due nowMs }
      else none
  | .proceed nowMs =>
      match s.fetch with
      | .due at' => some { s with fetch := .asked s.identity.enrolment (some at') }
      | .known en =>
          some { s with
            fetch := if s.identity.tick nowMs = .fetch then .asked en none else .idle }
      | _ => none
  | .answer r nowMs =>
      match s.fetch with
      | .asked en at' =>
          if en.paired ∨ r = {} then
            some { identity := s.identity.onCredentials r (at'.getD nowMs), fetch := .idle }
          else none
      | _ => none

/-- Which enrolment the set held was issued to, and which one a 403 stopped. -/
structure Issued where
  creds : Option Enrolment := none
  stop : Option Enrolment := none
  deriving DecidableEq, Repr

/-- The notes after a step. -/
def Issued.note (s : CloudFetching) (a : FetchAction) (n : Issued) : Issued :=
  match a, s.fetch with
  | .answer r _, .asked en _ =>
      { creds :=
          if !r.unpaired && r.adopted s.identity.requireReadOnly then some en else n.creds
        stop := if r.unpaired then some en else n.stop }
  | _, _ => n

/-- **No reply has crossed pairings.** -/
structure Uncrossed (s : CloudFetching) (n : Issued) : Prop where
  issued : s.identity.creds.present = true → n.creds = some s.identity.enrolment
  reset : s.identity.enrolment = {} → s.identity.creds.present = false
  stopped : s.identity.unpaired = true → n.stop = some s.identity.enrolment

/-- A reply that brings a set or a 403 finds the enrolment it was asked for. -/
def answersOwn (s : CloudFetching) : FetchAction → Bool
  | .answer r _ =>
      !(r.ok || r.unpaired) ||
        match s.fetch with
        | .asked en _ => decide (en = s.identity.enrolment)
        | _ => true
  | _ => true

variable {host : CloudHost} {s t : CloudFetching} {n : Issued}

@[simp] lemma enrolment_onCredentials (x : CloudIdentity) (r : CredentialsReply) (nowMs : ℤ) :
    (x.onCredentials r nowMs).enrolment = x.enrolment := by
  rw [CloudIdentity.onCredentials]
  split
  · rfl
  split
  · rfl
  split
  · rfl
  split <;> rfl

/-- The enrolment changes only with a change of the pairing. -/
lemma Uncrossed.of_identity (h : Uncrossed s n) (heq : t.identity = s.identity) :
    Uncrossed t n := by
  obtain ⟨h1, h2, h3⟩ := h
  rw [← heq] at h1 h2 h3
  exact ⟨h1, h2, h3⟩

/-- A fresh identity holds nothing and is not stopped. -/
lemma Uncrossed.fresh (hcreds : s.identity.creds = {}) (hunpaired : s.identity.unpaired = false) :
    Uncrossed s n := by
  have hpresent : s.identity.creds.present = false := by rw [hcreds]; rfl
  exact ⟨fun h => absurd (h.symm.trans hpresent) (by simp), fun _ => hpresent,
    fun h => absurd (h.symm.trans hunpaired) (by simp)⟩

/-- A reply leaves the bucket alone or brings a set. -/
lemma present_onCredentials {x : CloudIdentity} {r : CredentialsReply} {nowMs : ℤ}
    (h : (!r.unpaired && r.adopted x.requireReadOnly) = false) :
    (x.onCredentials r nowMs).creds.present = x.creds.present := by
  have hkeep : r.unpaired = true ∨ r.adopted x.requireReadOnly = false := by
    rw [Bool.and_eq_false_iff, Bool.not_eq_false'] at h
    exact h
  have hsame : SameSet x.creds (x.onCredentials r nowMs).creds :=
    CloudIdentity.onCredentials_keeps hkeep
  rw [SameSet] at hsame
  have hbucket : x.creds.bucket = (x.onCredentials r nowMs).creds.bucket := by
    rw [← hsame]
  rw [Credentials.present, Credentials.present, hbucket]

/-- **A reply to the enrolment held.** -/
lemma Uncrossed.answer {en : Enrolment} {at' : Option ℤ} {r : CredentialsReply} {nowMs : ℤ}
    (h : Uncrossed s n) (hf : s.fetch = .asked en at') (hpaired : en.paired = true ∨ r = {})
    (hown : s.answersOwn (.answer r nowMs) = true) :
    Uncrossed { identity := s.identity.onCredentials r (at'.getD nowMs), fetch := .idle }
      (Issued.note s (.answer r nowMs) n) := by
  have hen : (r.ok = true ∨ r.unpaired = true) → en = s.identity.enrolment := by
    intro hr
    rw [answersOwn, hf] at hown
    rw [← Bool.or_eq_true] at hr
    simpa [hr] using hown
  have hne : (r.ok = true ∨ r.unpaired = true) → s.identity.enrolment ≠ {} := by
    intro hr hempty
    rcases hpaired with hp | rfl
    · rw [hen hr, hempty] at hp
      exact absurd hp (by decide)
    · rcases hr with hr | hr <;> exact absurd hr (by decide)
  have hnote : Issued.note s (.answer r nowMs) n =
      { creds :=
          if !r.unpaired && r.adopted s.identity.requireReadOnly then some en else n.creds
        stop := if r.unpaired then some en else n.stop } := by
    simp only [Issued.note, hf]
  rw [hnote]
  cases hadopt : !r.unpaired && r.adopted s.identity.requireReadOnly with
  | true =>
      have hok : r.ok = true := by
        rw [Bool.and_eq_true, CredentialsReply.adopted, Bool.and_eq_true] at hadopt
        exact hadopt.2.1
      have hunpaired : r.unpaired = false := by
        rw [Bool.and_eq_true, Bool.not_eq_true'] at hadopt
        exact hadopt.1
      refine ⟨fun _ => ?_, fun he => ?_, fun hu => ?_⟩
      · rw [enrolment_onCredentials, if_pos rfl, hen (.inl hok)]
      · rw [enrolment_onCredentials] at he
        exact absurd he (hne (.inl hok))
      · dsimp only at hu ⊢
        rw [CloudIdentity.unpaired_onCredentials, hunpaired, Bool.or_false] at hu
        rw [enrolment_onCredentials, hunpaired, if_neg Bool.false_ne_true]
        exact h.stopped hu
  | false =>
      refine ⟨fun hp => ?_, fun he => ?_, fun hu => ?_⟩
      · dsimp only at hp ⊢
        rw [present_onCredentials hadopt] at hp
        rw [enrolment_onCredentials, if_neg Bool.false_ne_true]
        exact h.issued hp
      · dsimp only at he ⊢
        rw [enrolment_onCredentials] at he
        rw [present_onCredentials hadopt]
        exact h.reset he
      · dsimp only at hu ⊢
        rw [CloudIdentity.unpaired_onCredentials, Bool.or_eq_true] at hu
        rw [enrolment_onCredentials]
        cases hr : r.unpaired with
        | true => rw [if_pos rfl, hen (.inr hr)]
        | false =>
            rw [if_neg Bool.false_ne_true]
            exact h.stopped (hu.resolve_right (by simp [hr]))

/-- **One step.** -/
lemma Uncrossed.step {a : FetchAction} (h : Uncrossed s n) (hown : s.answersOwn a = true)
    (ht : s.step host a = some t) : Uncrossed t (Issued.note s a n) := by
  cases a with
  | setEnrolment en =>
      rw [CloudFetching.step, Option.some.injEq] at ht
      subst ht
      exact .fresh rfl rfl
  | reset =>
      rw [CloudFetching.step, Option.some.injEq] at ht
      subst ht
      exact .fresh rfl rfl
  | begin nowMs =>
      rw [CloudFetching.step] at ht
      split at ht
      · exact absurd ht (by simp)
      split at ht
      · split at ht
        · rw [Option.some.injEq] at ht
          subst ht
          exact h.of_identity rfl
        · exact absurd ht (by simp)
      · split at ht
        · rw [Option.some.injEq] at ht
          subst ht
          exact h.of_identity rfl
        · exact absurd ht (by simp)
  | proceed nowMs =>
      rw [CloudFetching.step] at ht
      split at ht
      · rw [Option.some.injEq] at ht
        subst ht
        exact h.of_identity rfl
      · rw [Option.some.injEq] at ht
        subst ht
        exact h.of_identity rfl
      · exact absurd ht (by simp)
  | answer r nowMs =>
      rw [CloudFetching.step] at ht
      split at ht
      · rename_i en at' hf
        split at ht
        · rename_i hpaired
          rw [Option.some.injEq] at ht
          subst ht
          exact h.answer hf hpaired hown
        · exact absurd ht (by simp)
      · exact absurd ht (by simp)

/-- **A late reply never crosses pairings**, in every run of a host in which each reply with a
set or a 403 finds the enrolment it was asked for. -/
theorem own_replies {x : CloudFetching × Issued}
    (h : Lib.Reach (Lib.noted (step host) Issued.note) (fun x a => x.1.answersOwn a = true)
      (fun x => ∃ readOnly, x = ({ identity := { requireReadOnly := readOnly } }, {})) x) :
    Uncrossed x.1 x.2 := by
  refine h.invariant (I := fun x => Uncrossed x.1 x.2) ?_ ?_
  · rintro _ ⟨readOnly, rfl⟩
    exact .fresh rfl rfl
  · rintro ⟨s, n⟩ a ⟨t, n'⟩ hs hc ht
    obtain ⟨ht, rfl⟩ := Lib.noted_eq_some.mp ht
    exact hs.step hc ht

/-! ### Runs -/

/-- A pairing of a relay. -/
def sampleEnrolment (id : String) : Enrolment :=
  { url := "https://collector", id, token := "token of " ++ id }

/-- A reply with a read-only set. -/
def sampleReply (bucket : String) : CredentialsReply :=
  { ok := true, creds := { bucket, endpoint := "s3.example.com", expiresAtMs := 1000 } }

theorem own_replies_fetched : ∃ x : CloudFetching × Issued,
    Uncrossed x.1 x.2 ∧ x.1.identity.creds.bucket = "b" ∧ x.1.identity.unpaired = true := by
  obtain ⟨x, hx, hp⟩ := (Lib.exists_reach_guarded
    (({ identity := { requireReadOnly := true } }, {}) : CloudFetching × Issued)
    [.setEnrolment (sampleEnrolment "a"), .begin 0, .proceed 0, .answer (sampleReply "b") 0,
     
      .begin 5000, .proceed 5000, .answer { unpaired := true } 5000] ⟨_, rfl⟩ (by decide +kernel) :
    ∃ x, Lib.Reach (Lib.noted (step .relay) Issued.note) (fun x a => x.1.answersOwn a = true)
      (fun x => ∃ readOnly, x = ({ identity := { requireReadOnly := readOnly } }, {})) x ∧
      x.1.identity.creds.bucket = "b" ∧ x.1.identity.unpaired = true)
  exact ⟨x, own_replies hx, hp⟩

/-- A disconnect during a request: the reset identity takes the set.  And another pairing during
one: the new one is stopped by the 403 of the old. -/
theorem crossed_reply :
    (∃ x : CloudFetching × Issued,
      Lib.Reach (Lib.noted (step .relay) Issued.note) Lib.anyStep
        (fun x => ∃ readOnly, x = ({ identity := { requireReadOnly := readOnly } }, {})) x ∧
        x.1.identity.enrolment = {} ∧ x.1.identity.creds.bucket = "b") ∧
    ∃ x : CloudFetching × Issued,
      Lib.Reach (Lib.noted (step .player) Issued.note) Lib.anyStep
        (fun x => ∃ readOnly, x = ({ identity := { requireReadOnly := readOnly } }, {})) x ∧
        x.1.identity.enrolment = sampleEnrolment "c" ∧ x.1.identity.unpaired = true ∧
        x.2.stop = some (sampleEnrolment "a") :=
  ⟨Lib.exists_reach (({ identity := { requireReadOnly := true } }, {}) : CloudFetching × Issued)
    [.setEnrolment (sampleEnrolment "a"), .begin 0, .proceed 0, .reset,
      .answer (sampleReply "b") 0] ⟨_, rfl⟩ (by decide +kernel),
  Lib.exists_reach (({ identity := {} }, {}) : CloudFetching × Issued)
    [.setEnrolment (sampleEnrolment "a"), .begin 0, .proceed 0,
      .setEnrolment (sampleEnrolment "c"), .answer { unpaired := true } 0]
    ⟨false, rfl⟩ (by decide +kernel)⟩

end CloudFetching

end Multisite

import Multisite.Cloud.Pairing

/-!
A pairing from the replies' bodies (`heartbeat_parse_pair_start`, `heartbeat_parse_pair_poll` and
`Pairing` of `heartbeat_reporter.cpp`), in any order of replies, ticks and cancels.

An interval is read into 32 bits.  The parser of a document's text is a parameter; the token for
updates and the interval of heartbeats, which a claim brings too, are left out.

* `readInterval_ge_iff`: an interval is waited for as it was named just if it fits;
* `PairRun.Kept`: the invariant of a run;
* `pairing_keeps_deadline`: the deadline, the wait between polls, and what a claim leaves.
-/

namespace Multisite

open Lib

/-! ### The replies -/

/-- `int_field` of `heartbeat_reporter.cpp`. -/
def heartbeatIntField (j : Json) (k : String) (fallback : ℤ) : ℤ :=
  match j.get? k with
  | some (.int n) => n.bmod (2 ^ 32)
  | _ => fallback

/-- `heartbeat_parse_server_interval`. -/
def heartbeatParseServerInterval (parse : String → Option Json) (body : String) : ℤ :=
  match parse body with
  | none => 0
  | some j =>
      if !j.isObject then 0
      else
        match j.get? "interval_s" with
        | some (.int n) =>
            let n := n.bmod (2 ^ 32)
            if 0 < n then n else 0
        | _ => 0

/-- `heartbeat_parse_pair_start`. -/
def heartbeatParsePairStart (parse : String → Option Json) (body : String) : PairStartReply :=
  match parse body with
  | none => {}
  | some j =>
      if !j.isObject then {}
      else
        let r : PairStartReply :=
          { userCode := strField j "user_code"
            verificationUrl := strField j "verification_url"
            pollToken := strField j "poll_token" }
        if r.userCode = "" ∨ r.pollToken = "" then r
        else
          let iv := heartbeatIntField j "interval_s" 5
          let ex := heartbeatIntField j "expires_in" 900
          { r with
            intervalS := if 0 < iv then iv else 5
            expiresIn := if 0 < ex then ex else 900
            ok := true }

/-- An address that is the page where codes are entered. -/
def namesPairPage (url : String) : Bool :=
  let u := (url.toList.reverse.dropWhile (· = '/')).takeWhile (· ≠ '/')
  u.reverse = ['p', 'a', 'i', 'r']

/-- `heartbeat_parse_pair_poll`. -/
def heartbeatParsePairPoll (parse : String → Option Json) (body : String) (httpCode : ℤ) :
    PairPollReply :=
  if httpCode ≠ 200 then
    let iv := heartbeatParseServerInterval parse body
    { pending := true, intervalS := if 0 < iv then iv else 5 }
  else
    match parse body with
    | none => {}
    | some j =>
        if !j.isObject then {}
        else
          let url := strField j "collector_url"
          let r : PairPollReply :=
            { applianceId := strField j "appliance_id"
              applianceToken := strField j "appliance_token"
              collectorUrl := if namesPairPage url then "" else url }
          if r.applianceId = "" ∨ r.applianceToken = "" then r
          else
            let iv := heartbeatIntField j "interval_s" 30
            { r with intervalS := if 0 < iv then iv else 30, ok := true }

-- their equations are made here, once, and not by the first lemmas that ask for them
section
attribute [local simp] heartbeatParsePairPoll
end

/-- The interval a body names. -/
def namedInterval (parse : String → Option Json) (body : String) : Option ℤ :=
  match (parse body).bind (·.get? "interval_s") with
  | some (.int n) => some n
  | _ => none

/-- The id and the token a body carries, if it carries both. -/
def carriedClaim (parse : String → Option Json) (body : String) : Option (String × String) :=
  match parse body with
  | none => none
  | some j =>
      if strField j "appliance_id" = "" ∨ strField j "appliance_token" = "" then none
      else some (strField j "appliance_id", strField j "appliance_token")

/-- What becomes of an interval that is named. -/
def readInterval (n : ℤ) : ℤ := if 0 < n.bmod (2 ^ 32) then n.bmod (2 ^ 32) else 5

variable {parse : String → Option Json} {body : String} {httpCode nowS n : ℤ}

/-- **A named interval is waited for just if it fits 31 bits.** -/
lemma readInterval_ge_iff : n ≤ readInterval n ↔ n < 2 ^ 31 := by
  rw [readInterval, Int.bmod_def]
  norm_num
  split <;> split <;> omega

lemma readInterval_pos (n : ℤ) : 0 < readInterval n := by
  rw [readInterval]
  split
  · assumption
  · decide

lemma namedInterval_eq_some : namedInterval parse body = some n ↔
    ∃ j, parse body = some j ∧ j.get? "interval_s" = some (.int n) := by
  rw [namedInterval]
  constructor
  · intro h
    split at h
    · rename_i m hm
      obtain ⟨j, hj, hget⟩ := Option.bind_eq_some_iff.mp hm
      exact ⟨j, hj, hget.trans (congrArg _ (congrArg _ (Option.some.inj h)))⟩
    · exact absurd h (by simp)
  · rintro ⟨j, hj, hget⟩
    rw [hj, Option.bind_some, hget]

lemma isObject_of_get? {j v : Json} {k : String} (h : j.get? k = some v) : j.isObject = true := by
  cases j with
  | obj l => rfl
  | _ => exact absurd h (by simp [Json.get?])

/-- A start reply's interval. -/
lemma intervalS_pairStart (hok : (heartbeatParsePairStart parse body).ok = true)
    (hn : namedInterval parse body = some n) :
    (heartbeatParsePairStart parse body).intervalS = readInterval n := by
  obtain ⟨j, hj, hget⟩ := namedInterval_eq_some.mp hn
  rw [heartbeatParsePairStart, hj] at hok ⊢
  simp only [isObject_of_get? hget, Bool.not_true, Bool.false_eq_true, if_false] at hok ⊢
  split at hok
  · exact absurd hok Bool.false_ne_true
  · rename_i hnames
    rw [if_neg hnames, heartbeatIntField, hget]
    rfl

/-- A poll reply's interval, while it is no claim. -/
lemma intervalS_pairPoll (hcode : httpCode ≠ 200) (hn : namedInterval parse body = some n) :
    (heartbeatParsePairPoll parse body httpCode).intervalS = readInterval n := by
  obtain ⟨j, hj, hget⟩ := namedInterval_eq_some.mp hn
  rw [heartbeatParsePairPoll, if_pos hcode, heartbeatParseServerInterval, hj]
  simp only [isObject_of_get? hget, Bool.not_true, Bool.false_eq_true, if_false, hget, readInterval]
  by_cases h : 0 < n.bmod (2 ^ 32)
  · rw [if_pos h, if_pos h]
  · rw [if_neg h, if_neg h, if_neg (lt_irrefl 0)]

/-- A poll reply is pending just if it is no 200. -/
lemma pairPoll_pending (h : (heartbeatParsePairPoll parse body httpCode).pending = true) :
    httpCode ≠ 200 := by
  rintro rfl
  rw [heartbeatParsePairPoll, if_neg (not_not.mpr rfl)] at h
  split at h
  · exact absurd h Bool.false_ne_true
  · dsimp only at h
    split at h
    · exact absurd h Bool.false_ne_true
    · split at h <;> exact absurd h Bool.false_ne_true

/-- A poll reply is a claim just if it is a 200 that carries both. -/
lemma pairPoll_ok (h : (heartbeatParsePairPoll parse body httpCode).ok = true) :
    httpCode = 200 ∧ carriedClaim parse body = some
      ((heartbeatParsePairPoll parse body httpCode).applianceId,
        (heartbeatParsePairPoll parse body httpCode).applianceToken) := by
  rw [heartbeatParsePairPoll] at h ⊢
  split at h
  · exact absurd h Bool.false_ne_true
  rename_i hcode
  refine ⟨not_not.mp hcode, ?_⟩
  rw [if_neg hcode, carriedClaim]
  split at h
  · exact absurd h Bool.false_ne_true
  rename_i j hj
  dsimp only at h
  split at h
  · exact absurd h Bool.false_ne_true
  rename_i hobj
  split at h
  · exact absurd h Bool.false_ne_true
  rename_i hnames
  simp only [hobj, Bool.false_eq_true, if_false]
  rw [if_neg hnames, if_neg hnames]

/-! ### Runs -/

/-- What happens to a `Pairing`. -/
inductive PairOp where
  | startReply (body : String) (httpCode nowS : ℤ)
  | pollReply (body : String) (httpCode nowS : ℤ)
  | tick (nowS : ℤ)
  | cancel
  deriving DecidableEq, Repr

/-- A pairing and what was seen of it: when the last reply came and the interval it named, the
deadline of the last start that succeeded, and what the last poll reply carried that was a claim,
since then. -/
structure PairRun where
  pairing : Pairing := {}
  repliedS : ℤ := 0
  named : Option ℤ := none
  deadlineS : ℤ := 0
  claimed : Option (String × String) := none
  deriving DecidableEq, Repr

namespace PairRun

/-- One step. -/
def step (parse : String → Option Json) (x : PairRun) : PairOp → Option PairRun
  | .startReply body httpCode nowS =>
      let r := heartbeatParsePairStart parse body
      some
        { pairing := x.pairing.onStartReply r httpCode nowS
          repliedS := nowS
          named := namedInterval parse body
          deadlineS := if httpCode = 200 ∧ r.ok = true then nowS + r.expiresIn else x.deadlineS
          claimed := none }
  | .pollReply body httpCode nowS =>
      some
        { pairing :=
            x.pairing.onPollReply (heartbeatParsePairPoll parse body httpCode) httpCode nowS
          repliedS := nowS
          named := namedInterval parse body
          deadlineS := x.deadlineS
          claimed :=
            if x.pairing.phase = .waiting ∧ httpCode = 200 then carriedClaim parse body
            else x.claimed }
  | .tick nowS => some { x with pairing := x.pairing.tick nowS }
  | .cancel => some { x with pairing := x.pairing.cancel, claimed := none }

/-- What holds throughout. -/
structure Kept (x : PairRun) : Prop where
  deadline : x.pairing.deadlineS = x.deadlineS
  waits : x.pairing.phase = .waiting →
    ∀ n, x.named = some n → x.pairing.nextPollS = x.repliedS + readInterval n
  done : x.pairing.phase = .done →
    x.claimed = some (x.pairing.applianceId, x.pairing.applianceToken)

variable {x y : PairRun}

lemma phase_tick (p : Pairing) (nowS : ℤ) :
    p.tick nowS = p ∨ (p.tick nowS).phase = .expired ∧ (p.tick nowS).deadlineS = p.deadlineS := by
  rw [Pairing.tick]
  split
  · exact Or.inr ⟨rfl, rfl⟩
  · exact Or.inl rfl

lemma Kept.startReply (h : x.Kept) (hs : x.step parse (.startReply body httpCode nowS) = some y) :
    y.Kept := by
  obtain rfl := Option.some.inj hs
  by_cases hgood : httpCode = 200 ∧ (heartbeatParsePairStart parse body).ok = true
  · have hbad : ¬(httpCode ≠ 200 ∨ (heartbeatParsePairStart parse body).ok = false) := by
      simp [hgood.1, hgood.2]
    refine ⟨?_, ?_, ?_⟩
    · dsimp only
      rw [if_pos hgood, Pairing.onStartReply, if_neg hbad]
    · intro _ n hn
      dsimp only at hn ⊢
      rw [Pairing.onStartReply, if_neg hbad, ← intervalS_pairStart hgood.2 hn]
    · intro hdone
      rw [Pairing.onStartReply, if_neg hbad] at hdone
      simp at hdone
  · have hbad : httpCode ≠ 200 ∨ (heartbeatParsePairStart parse body).ok = false := by
      by_contra hnot
      exact hgood ⟨not_not.mp fun h => hnot (Or.inl h), by
        simpa using fun h => hnot (Or.inr h)⟩
    refine ⟨?_, ?_, ?_⟩
    · dsimp only
      rw [if_neg hgood, Pairing.onStartReply, if_pos hbad]
      exact h.deadline
    · intro hwaiting
      rw [Pairing.onStartReply, if_pos hbad] at hwaiting
      simp at hwaiting
    · intro hdone
      rw [Pairing.onStartReply, if_pos hbad] at hdone
      simp at hdone

lemma Kept.pollReply (h : x.Kept) (hs : x.step parse (.pollReply body httpCode nowS) = some y) :
    y.Kept := by
  obtain rfl := Option.some.inj hs
  by_cases hwaiting : x.pairing.phase = .waiting
  · rw [Pairing.onPollReply, if_neg (not_not.mpr hwaiting)]
    split
    · rename_i hok
      obtain ⟨hcode, hclaim⟩ := pairPoll_ok hok
      refine ⟨h.deadline, fun hw => absurd hw (by simp), fun _ => ?_⟩
      dsimp only
      rw [if_pos ⟨hwaiting, hcode⟩, hclaim]
    · split
      · rename_i hpending
        have hcode := pairPoll_pending hpending
        dsimp only
        generalize hp : ({ x.pairing with
          pollIntervalS := if 0 < (heartbeatParsePairPoll parse body httpCode).intervalS then
              (heartbeatParsePairPoll parse body httpCode).intervalS
            else x.pairing.pollIntervalS
          nextPollS := nowS + if 0 < (heartbeatParsePairPoll parse body httpCode).intervalS then
              (heartbeatParsePairPoll parse body httpCode).intervalS
            else x.pairing.pollIntervalS } : Pairing) = p
        have hphase : p.phase = .waiting := by rw [← hp, hwaiting]
        have hdeadline : p.deadlineS = x.deadlineS := by rw [← hp, ← h.deadline]
        rcases phase_tick p nowS with hsame | ⟨hexpired, hkeeps⟩
        · rw [hsame]
          refine ⟨hdeadline, fun _ n hn => ?_, fun hd => absurd hd (by simp [hphase])⟩
          have hread := intervalS_pairPoll hcode hn
          rw [← hp, hread]
          dsimp only
          rw [if_pos (readInterval_pos n)]
        · exact ⟨hkeeps.trans hdeadline, fun hw => absurd hw (by simp [hexpired]),
            fun hd => absurd hd (by simp [hexpired])⟩
      · exact ⟨h.deadline, fun hw => absurd hw (by simp), fun hd => absurd hd (by simp)⟩
  · rw [Pairing.onPollReply, if_pos hwaiting]
    refine ⟨h.deadline, fun hw => absurd hw hwaiting, fun hd => ?_⟩
    dsimp only
    rw [if_neg fun hc => hwaiting hc.1]
    exact h.done hd

lemma Kept.step (h : x.Kept) {op : PairOp} (hs : x.step parse op = some y) : y.Kept := by
  cases op with
  | startReply body httpCode nowS => exact h.startReply hs
  | pollReply body httpCode nowS => exact h.pollReply hs
  | tick nowS =>
      obtain rfl := Option.some.inj hs
      rcases phase_tick x.pairing nowS with hsame | ⟨hexpired, hkeeps⟩
      · rw [hsame]
        exact h
      · exact ⟨hkeeps.trans h.deadline, fun hw => absurd hw (by simp [hexpired]),
          fun hd => absurd hd (by simp [hexpired])⟩
  | cancel =>
      obtain rfl := Option.some.inj hs
      exact ⟨h.deadline, fun hw => absurd hw (by simp [Pairing.cancel]),
        fun hd => absurd hd (by simp [Pairing.cancel])⟩

lemma kept_of_reach (h : Reach (fun x => x.step parse) anyStep (· = {}) x) : x.Kept := by
  refine h.invariant (I := Kept) ?_ fun _ _ _ h _ hs => h.step hs
  rintro _ rfl
  exact ⟨rfl, fun hw => absurd hw (by simp), fun hd => absurd hd (by simp)⟩

/-- The deadline is the one of the last start that succeeded; a poll is due only while a code waits,
before the deadline, and after the interval that was named last, unless that does not fit and the
deadline is still ahead; a completed pairing holds what a 200 carried while it waited; and a poll
reply that nothing waits for changes nothing. -/
theorem pairing_keeps_deadline (parse : String → Option Json) :
    ∀ x : PairRun, Reach (fun x => x.step parse) anyStep (· = {}) x →
      x.pairing.deadlineS = x.deadlineS ∧
      (∀ nowS, x.pairing.pollDue nowS = true →
        x.pairing.phase = .waiting ∧ nowS < x.deadlineS) ∧
      (x.pairing.phase = .done →
        x.claimed = some (x.pairing.applianceId, x.pairing.applianceToken)) ∧
      (x.pairing.phase ≠ .waiting → ∀ body httpCode nowS,
        x.pairing.onPollReply (heartbeatParsePairPoll parse body httpCode) httpCode nowS =
          x.pairing) ∧
      ∀ n, x.named = some n →
        ((∀ nowS, x.pairing.pollDue nowS = true → x.repliedS + n ≤ nowS) ↔
          n < 2 ^ 31 ∨ x.pairing.phase ≠ .waiting ∨ x.deadlineS ≤ x.pairing.nextPollS) := by
  intro x hx
  have hkept := kept_of_reach hx
  have hdue (nowS : ℤ) : x.pairing.pollDue nowS = true ↔
      x.pairing.phase = .waiting ∧ x.pairing.nextPollS ≤ nowS ∧ nowS < x.deadlineS := by
    rw [Pairing.pollDue, hkept.deadline]
    simp only [Bool.and_eq_true, decide_eq_true_eq, and_assoc]
  refine ⟨hkept.deadline, fun nowS h => ?_, hkept.done, fun h body httpCode nowS => if_pos h,
    fun n hn => ?_⟩
  · obtain ⟨hw, -, hlt⟩ := (hdue nowS).mp h
    exact ⟨hw, hlt⟩
  · constructor
    · intro h
      by_contra hnot
      push Not at hnot
      obtain ⟨hlarge, hw, hahead⟩ := hnot
      have hwait := h _ ((hdue x.pairing.nextPollS).mpr ⟨hw, le_rfl, hahead⟩)
      have hfits : n < 2 ^ 31 := readInterval_ge_iff.mp (by
        have := hkept.waits hw n hn
        omega)
      exact absurd hfits (not_lt.mpr hlarge)
    · intro h nowS hd
      obtain ⟨hw, hnext, hlt⟩ := (hdue nowS).mp hd
      rcases h with hfits | hw' | hpast
      · have := readInterval_ge_iff.mpr hfits
        have := hkept.waits hw n hn
        omega
      · exact absurd hw hw'
      · omega

/-- A collector's answers: a code, a wait, a wait that is far too long, and a claim. -/
def pairAnswers (body : String) : Option Json :=
  [("code", Json.obj [("user_code", .str "ABCD"), ("poll_token", .str "t"),
      ("interval_s", .int 60), ("expires_in", .int 900)]),
    ("wait", .obj [("interval_s", .int 30)]),
    ("long", .obj [("interval_s", .int 4294967297)]),
    ("claim", .obj [("appliance_id", .str "app"), ("appliance_token", .str "secret")])].lookup body

/-- A code, a wait and a claim. -/
theorem pairing_keeps_deadline_claim :
    (∃ x : PairRun, x.pairing.phase = .done ∧
      x.claimed = some (x.pairing.applianceId, x.pairing.applianceToken) ∧
      x.pairing.deadlineS = 900) ∧
    ∃ x : PairRun, x.pairing.pollDue 90 = true ∧ x.repliedS = 60 ∧
      ∀ nowS, x.pairing.pollDue nowS = true → x.repliedS + 30 ≤ nowS := by
  have hclaim : ∃ x : PairRun, Reach (fun x => x.step pairAnswers) anyStep (· = {}) x ∧
      (x.pairing.phase = .done ∧ x.deadlineS = 900) :=
    exists_reach {} [.startReply "code" 200 0, .pollReply "wait" 428 60, .pollReply "claim" 200 90]
      rfl (by decide +kernel)
  have hwait : ∃ x : PairRun, Reach (fun x => x.step pairAnswers) anyStep (· = {}) x ∧
      (x.named = some 30 ∧ x.pairing.pollDue 90 = true ∧ x.repliedS = 60) :=
    exists_reach {} [.startReply "code" 200 0, .pollReply "wait" 428 60] rfl (by decide +kernel)
  obtain ⟨x, hx, hdone, hdeadline⟩ := hclaim
  obtain ⟨y, hy, hnamed, hdue, hreplied⟩ := hwait
  obtain ⟨hx1, -, hx2, -⟩ := pairing_keeps_deadline pairAnswers x hx
  obtain ⟨-, -, -, -, hy1⟩ := pairing_keeps_deadline pairAnswers y hy
  exact ⟨⟨x, hdone, hx2 hdone, hx1.trans hdeadline⟩, y, hdue, hreplied,
    (hy1 30 hnamed).mpr (Or.inl (by norm_num))⟩

/-- After an interval of over a century, the next poll is due in a second. -/
theorem not_pairing_keeps_deadline :
    ¬∀ x : PairRun, Reach (fun x => x.step pairAnswers) anyStep (· = {}) x →
      ∀ n, x.named = some n → ∀ nowS, x.pairing.pollDue nowS = true → x.repliedS + n ≤ nowS := by
  intro h
  have hlong : ∃ x : PairRun, Reach (fun x => x.step pairAnswers) anyStep (· = {}) x ∧
      (x.named = some 4294967297 ∧ x.pairing.pollDue 61 = true ∧ x.repliedS = 60) :=
    exists_reach {} [.startReply "code" 200 0, .pollReply "long" 428 60] rfl (by decide +kernel)
  obtain ⟨x, hx, hnamed, hdue, hreplied⟩ := hlong
  have := h x hx _ hnamed _ hdue
  omega

end PairRun

end Multisite

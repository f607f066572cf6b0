import Multisite.Relay.Gaps

/-!
A relay that gets past what is there, and no further than the first gap.

* `Held`: the position stands at a segment that is in the cache;
* `position_passes`: it does not stand there for ever, as the segment is fed;
* `relay_passes_gaps`: a segment is fed, and the end reached, exactly where no gap lies before
  it;
* `gap_holds`: an event with a gap is held there.
-/

namespace Multisite

variable {k : RelayTask} {gaps : Set ℕ} {last : Option ℕ} {segS : ℚ} {env : ℕ → RelayPass}

/-! ### A position that is held -/

/-- From pass `N` on the position stands at `q`, which is in the cache, and all is well with the
child. -/
structure Held (k : RelayTask) (env : ℕ → RelayPass) (N q : ℕ) : Prop where
  head : ∀ n, N ≤ n → (relayRun k env n).machine.head = q
  cached : ∀ n, N ≤ n → q ∈ (env n).cached
  goes : ∀ n, N ≤ n → (relayRun k env n).machine.finishing = false
  within : ∀ n, N ≤ n → ¬(relayRun k env n).machine.Ends
    (((relayRun k env n).childExits (env n).exited).input k (env n))
  feeds : ∀ n, N ≤ n → ((relayRun k env n).decision k (env n)).action ≠ .feedSegment
  well : ∀ n, N ≤ n → (env n).starts = true ∧ (env n).exited = false ∧
    (env n).drops = false ∧ (env n).initCached = true ∧
    (relayRun k env n).pending + (env n).media.getD 0 ≤ (env n).took

variable {N q n : ℕ}

/-- What the machine is told of the cache. -/
lemma Held.ready (h : Held k env N q) (hn : N ≤ n) :
    (((relayRun k env n).childExits (env n).exited).input k (env n)).nextSegmentReady = true :=
  decide_eq_true ((h.head n hn).symm ▸ h.cached n hn)

/-- A pass that neither starts a child nor loses one. -/
lemma pass_keeps {p : RelayPass} {l : RelayLoop} (hp : p.edited = false)
    (hthen : l.childThen k p ≠ some false) :
    (l.pass k p).machine = (l.machine.step ((l.childExits p.exited).input k p)).1 ∧
      (l.pass k p).child = l.childThen k p := by
  rcases RelayLoop.pass_cases (k := k) (l := l) hp with ⟨hreport, -⟩ | ⟨-, hkeeps⟩
  · exact absurd hreport.1 hthen
  · exact hkeeps

/-- **A child that runs** waits for the segment to be due, and the pacing stays as it is. -/
lemma Held.flows (h : RelayServing k gaps last segS env) (hq : Held k env N q) (hn : N < n)
    (hchild : (relayRun k env n).child = some true) :
    (env n).nowMs < (relayRun k env n).machine.anchorMs +
        ((q : ℤ) - (relayRun k env n).machine.anchorSeq) * msOf (relaySegS segS) ∧
      (relayRun k env (n + 1)).child = some true ∧
      (relayRun k env (n + 1)).machine.anchorMs = (relayRun k env n).machine.anchorMs ∧
      (relayRun k env (n + 1)).machine.anchorSeq = (relayRun k env n).machine.anchorSeq := by
  obtain ⟨-, hexited, hdrops, -, -⟩ := hq.well n hn.le
  have hp := h.serves n
  obtain ⟨hdecision, hwants, hplan, hcontent, -⟩ := hp.input (k := k) (l := relayRun k env n)
  have hgoing := h.going n
  have hup : (relayRun k env n).machine.connected = true := by
    refine (hgoing.runs hchild).resolve_right fun hs => ?_
    have hgoes := hq.goes n hn.le
    simp [RelayMachine.finishing, hs] at hgoes
  have halive := RelayLoop.childAlive_iff (k := k) (p := env n).mpr ⟨hchild, hexited⟩
  have hdrained : (relayRun k env n).pending = 0 := by
    obtain ⟨j, rfl⟩ : ∃ j, n = j + 1 := ⟨n - 1, by omega⟩
    have htook := (hq.well j (by omega)).2.2.2.2
    have hsome : ((relayRun k env j).pass k (env j)).child.isSome = true := by
      rw [← relayRun_succ, hchild]
      rfl
    exact RelayLoop.pass_drained (h.serves j).unedited htook hsome
  have haccepts : (((relayRun k env n).childExits (env n).exited).input k (env n)).outputAccepting =
      true := by
    simp [RelayLoop.input, RelayLoop.childExits, hdrained]
  rcases RelayMachine.step_flows hwants hplan hcontent halive hup hgoing.calls (hq.within n hn.le)
      haccepts (hq.ready hn.le) with ⟨-, hact⟩ | ⟨hearly, hact, -, hms, hseq⟩
  · exact absurd (hdecision ▸ hact) (hq.feeds n hn.le)
  · have hthen : (relayRun k env n).childThen k (env n) = some true := by
      rw [RelayLoop.childThen, hdecision, hact]
      simp [hchild, hexited, hdrops]
    obtain ⟨hmachine, hafter⟩ := pass_keeps (k := k) (l := relayRun k env n) hp.unedited (by simp [hthen])
    rw [relayRun_succ, hmachine, hafter, hthen]
    refine ⟨?_, rfl, hms, hseq⟩
    rw [RelayMachine.due, hq.head n hn.le] at hearly
    exact h.pace n ▸ hearly

/-- A pause without a child ends in a start, or goes on as it is. -/
lemma Held.pauses (h : RelayServing k gaps last segS env) (hq : Held k env N q) (hn : N ≤ n)
    (hpause : (relayRun k env n).machine.pausing = true) (hchild : (relayRun k env n).child = none) :
    (relayRun k env (n + 1)).child = some true ∨
      (env n).nowMs < (relayRun k env n).machine.retryAtMs ∧
        (relayRun k env (n + 1)).machine.pausing = true ∧
        (relayRun k env (n + 1)).child = none ∧
        (relayRun k env (n + 1)).machine.retryAtMs = (relayRun k env n).machine.retryAtMs := by
  obtain ⟨hstarts, -, hdrops, hinit, -⟩ := hq.well n hn
  have hp := h.serves n
  obtain ⟨hdecision, hwants, hplan, hcontent, -⟩ := hp.input (k := k) (l := relayRun k env n)
  have hdead : (((relayRun k env n).childExits (env n).exited).input k (env n)).childAlive = false := by
    simp [RelayLoop.input, RelayLoop.childExits, hchild]
  by_cases hspawn : ((relayRun k env n).decision k (env n)).action = .spawn
  · have hthen : (relayRun k env n).childThen k (env n) = some true := by
      simp [RelayLoop.childThen, hspawn, hstarts, hdrops]
    exact Or.inl ((pass_keeps (k := k) (l := relayRun k env n) hp.unedited (by simp [hthen])).2.trans hthen)
  · obtain ⟨hact, hpausing⟩ :=
      ((RelayMachine.step_dead (m := (relayRun k env n).machine) hwants hplan hdead).2.2.2
        hpause).resolve_left (hdecision ▸ hspawn)
    have hthen : (relayRun k env n).childThen k (env n) = none := by
      simp [RelayLoop.childThen, hdecision, hact, hchild]
    obtain ⟨hmachine, hafter⟩ := pass_keeps (k := k) (l := relayRun k env n) hp.unedited (by simp [hthen])
    refine Or.inr ⟨?_, ?_, hafter.trans hthen, ?_⟩
    · by_contra hlate
      exact hspawn (hdecision ▸ RelayMachine.step_starts hwants hplan hcontent hdead hpause
        (not_lt.mp hlate) hinit (hq.ready hn))
    · rw [relayRun_succ, hmachine]
      exact hpausing
    · rw [relayRun_succ, hmachine]
      refine (RelayMachine.step_arms (m := (relayRun k env n).machine)).retry.resolve_right ?_
      rintro ⟨hkill, -⟩
      simp [hact] at hkill

/-- Without a running child the machine pauses, at once or after the connection is reported
dropped. -/
lemma Held.rests (h : RelayServing k gaps last segS env) (hq : Held k env N q) (hn : N ≤ n)
    (hchild : (relayRun k env n).child ≠ some true) :
    ∃ j, n ≤ j ∧ (relayRun k env j).machine.pausing = true ∧ (relayRun k env j).child = none := by
  have hp := h.serves n
  obtain ⟨hdecision, hwants, hplan, -, -⟩ := hp.input (k := k) (l := relayRun k env n)
  have hdead : (((relayRun k env n).childExits (env n).exited).input k (env n)).childAlive = false := by
    rw [← Bool.not_eq_true, RelayLoop.childAlive_iff]
    exact fun halive => hchild halive.1
  cases hup : (relayRun k env n).machine.connected with
  | false =>
      refine ⟨n, le_rfl, by simp [RelayMachine.pausing, hup, hq.goes n hn], ?_⟩
      cases hgone : (relayRun k env n).child with
      | none => rfl
      | some alive =>
          cases alive with
          | true => exact absurd hgone hchild
          | false =>
              rcases (h.going n).gone hgone with hconn | hfin
              · simp [hup] at hconn
              · simp [hq.goes n hn] at hfin
  | true =>
      obtain ⟨hstate, hact⟩ :=
        (RelayMachine.step_dead (m := (relayRun k env n).machine) hwants hplan hdead).1 hup
      refine ⟨n + 1, by omega, ?_, ?_⟩
      · have hafter : (relayRun k env (n + 1)).machine.state = .reconnecting :=
          (RelayLoop.pass_state hp.unedited).trans hstate
        simp [RelayMachine.pausing, RelayMachine.connected, RelayMachine.finishing, hafter]
      · rcases RelayLoop.pass_cases (k := k) (l := relayRun k env n) hp.unedited with
          ⟨-, -, hnone⟩ | ⟨hnot, -, hafter⟩
        · exact hnone
        · rw [relayRun_succ, hafter]
          have hthen : (relayRun k env n).childThen k (env n) ≠ some false :=
            fun hfalse => hnot ⟨hfalse, hstate⟩
          cases hgone : (relayRun k env n).child with
          | none => simp [RelayLoop.childThen, hdecision, hact, hgone]
          | some alive =>
              cases alive with
              | true => exact absurd hgone hchild
              | false => simp [RelayLoop.childThen, hdecision, hact, hgone] at hthen

/-- **The position is not held for ever** at a segment that is there. -/
lemma Held.not (h : RelayServing k gaps last segS env) (hq : Held k env N q) : False := by
  -- A child that runs from some pass on would feed the segment once it is due.
  have hruns : ∀ n, N < n → (relayRun k env n).child ≠ some true := by
    intro n hn hchild
    obtain ⟨a, ha⟩ : ∃ a, (relayRun k env n).machine.anchorMs = a := ⟨_, rfl⟩
    obtain ⟨b, hb⟩ : ∃ b, (relayRun k env n).machine.anchorSeq = b := ⟨_, rfl⟩
    obtain ⟨m, hm, hfalse⟩ := Lib.eventually_of_wait
      (I := fun l : RelayLoop =>
        l.child = some true ∧ l.machine.anchorMs = a ∧ l.machine.anchorSeq = b)
      (G := fun _ => False) (D := fun m =>
        a + ((q : ℤ) - b) * msOf (relaySegS segS) ≤ (env m).nowMs)
      (show _ from ⟨hchild, ha, hb⟩)
      (fun m hm hI => Or.inr (by
        obtain ⟨-, hnext, hms, hseq⟩ := hq.flows h (hn.trans_le hm) hI.1
        exact ⟨hnext, hms.trans hI.2.1, hseq.trans hI.2.2⟩))
      (h.clock _ n)
      (fun m hm hD hI => by
        have hearly := (hq.flows h (hn.trans_le hm) hI.1).1
        rw [show (relayRun k env m).machine.anchorMs = a from hI.2.1,
          show (relayRun k env m).machine.anchorSeq = b from hI.2.2] at hearly
        omega)
    exact hfalse
  -- Without one the machine pauses, and starts a child once the backoff is served.
  obtain ⟨j, hj, hpause, hchild⟩ := hq.rests h (Nat.le_succ N) (hruns (N + 1) (Nat.lt_succ_self N))
  obtain ⟨r, hr⟩ : ∃ r, (relayRun k env j).machine.retryAtMs = r := ⟨_, rfl⟩
  have hnone : ∀ m, j ≤ m → (relayRun k env (m + 1)).child ≠ some true :=
    fun m hm => hruns (m + 1) (by omega)
  obtain ⟨m, hm, hfalse⟩ := Lib.eventually_of_wait
    (I := fun l : RelayLoop => l.machine.pausing = true ∧ l.child = none ∧ l.machine.retryAtMs = r)
    (G := fun _ => False) (D := fun m => r ≤ (env m).nowMs)
    (show _ from ⟨hpause, hchild, hr⟩)
    (fun m hm hI => Or.inr (by
      obtain ⟨-, hpausing, hafter, hretry⟩ :=
        (hq.pauses h (by omega) hI.1 hI.2.1).resolve_left (hnone m hm)
      exact ⟨hpausing, hafter, hretry.trans hI.2.2⟩))
    (h.clock r j)
    (fun m hm hD hI => by
      have hearly := ((hq.pauses h (by omega) hI.1 hI.2.1).resolve_left (hnone m hm)).1
      rw [show (relayRun k env m).machine.retryAtMs = r from hI.2.2] at hearly
      omega)
  exact hfalse

/-- **A segment that comes to the cache is fed**, once the position is there. -/
lemma RelayServing.position_passes (h : RelayServing k gaps last segS env) (hn : 0 < n)
    (hhead : (relayRun k env n).machine.head = q) (hstart : relayStart k env ≤ q) (hgap : q ∉ gaps)
    (hwithin : k.Within last q) : ∃ m, n ≤ m ∧ Feeds k env m q := by
  by_contra hnone
  simp only [not_exists, not_and] at hnone
  have hstays : ∀ m, n ≤ m → (relayRun k env m).machine.head = q := by
    intro m hm
    induction m, hm using Nat.le_induction with
    | base => exact hhead
    | succ m hm ih =>
        obtain ⟨j, rfl⟩ : ∃ j, m = j + 1 := ⟨m - 1, by omega⟩
        rcases h.moves j with ⟨hfeeds, -⟩ | ⟨-, hsame⟩
        · exact absurd (ih ▸ hfeeds) (hnone _ hm)
        · exact hsame.trans ih
  obtain ⟨C, hcached⟩ := h.cached q hstart hgap hwithin.2
  obtain ⟨W, hwell⟩ := h.healthy
  refine Held.not (N := max n (max C W)) (q := q) h ⟨fun m hm => hstays m (by omega),
    fun m hm => hcached m (by omega) (hstays m (by omega)).le, fun m hm => ?_,
    fun m hm => h.not_past hwithin (hstays m (by omega)).le, fun m hm hact => ?_,
    fun m hm => hwell m (by omega)⟩
  · refine h.goes hwithin m fun j hj => ?_
    cases j with
    | zero => exact Nat.zero_le q
    | succ j => exact (h.head_mono (Nat.succ_pos j) hj).trans (hstays m (by omega)).le
  · obtain ⟨j, rfl⟩ : ∃ j, m = j + 1 := ⟨m - 1, by omega⟩
    rcases h.moves j with ⟨hfeeds, -⟩ | ⟨hno, -⟩
    · exact hnone _ (by omega) (hstays (j + 1) (by omega) ▸ hfeeds)
    · exact hno _ ⟨hact, rfl⟩

/-! ### The end -/

/-- The last segment to be sent: at the out-point, or the last of an event that ends. -/
def RelayTask.SendsTo (k : RelayTask) (last : Option ℕ) (e : ℕ) : Prop :=
  k.Within last e ∧ (0 < k.endSeq ∧ e = k.endSeq ∨ e ∈ last)

/-- The connection never drops, and an event that ends is seen over by the time its last segment
has been sent. -/
structure RelayLasting (k : RelayTask) (last : Option ℕ) (env : ℕ → RelayPass) : Prop where
  up : ∀ n, (env n).exited = false ∧ (env n).drops = false
  seenOver : ∀ z ∈ last, ∀ n, z < (relayRun k env n).machine.head →
    (env n).snap.room = .ended ∨ (env n).snap.room = .interrupted

/-- Past the end, a child that runs has its input closed. -/
lemma RelayMachine.step_ends {m : RelayMachine} {i : RelayInput}
    (hwants : i.operatorWantsRunning = true) (hplan : i.planOk = true)
    (hcontent : i.roomHasContent = true) (halive : i.childAlive = true) (hsend : m.state ≠ .blocked)
    (hend : m.Ends i) : (m.step i).1.state = .ending := by
  have hstep : m.step i = m.running i {} := by
    simp [step, hwants, hplan, hcontent, halive, unblock_same hsend]
  rw [hstep, running]
  split
  · rfl
  · rename_i hpoint
    split
    · split
      · rfl
      · rename_i hs
        exact not_not.mp hs
    · rename_i hover
      have hs : m.state = .ending := by
        by_contra hs
        rcases hend with ⟨hpos, hlt⟩ | hend
        · exact hpoint ⟨hpos, hlt, hs⟩
        · exact hover hend
      rw [if_pos hs]
      exact hs

/-- **The end is reached** after the last segment to be sent. -/
lemma RelayServing.ends (h : RelayServing k gaps last segS env) (hl : RelayLasting k last env) {e : ℕ}
    (he : k.SendsTo last e) (hfeeds : Feeds k env n e) :
    (relayRun k env (n + 1 + 1)).machine.state = .ending := by
  obtain ⟨-, -, -, hhead⟩ := h.feeds hfeeds
  obtain ⟨hact, -⟩ := hfeeds
  have hp := h.serves n
  have hp' := h.serves (n + 1)
  obtain ⟨hdecision, -⟩ := hp.input (k := k) (l := relayRun k env n)
  obtain ⟨-, hwants, hplan, hcontent, -⟩ := hp'.input (k := k) (l := relayRun k env (n + 1))
  have hchild := (RelayLoop.childAlive_iff.mp (RelayMachine.step_feeds (hdecision ▸ hact)).alive).1
  have hthen : (relayRun k env n).childThen k (env n) = some true := by
    simp [RelayLoop.childThen, hact, hchild, (hl.up n).1, (hl.up n).2]
  have hafter : (relayRun k env (n + 1)).child = some true :=
    (pass_keeps (k := k) (l := relayRun k env n) hp.unedited (by simp [hthen])).2.trans hthen
  have halive := RelayLoop.childAlive_iff (k := k) (p := env (n + 1)).mpr ⟨hafter, (hl.up _).1⟩
  rw [relayRun_succ, RelayLoop.pass_state hp'.unedited]
  refine RelayMachine.step_ends hwants hplan hcontent halive (h.going (n + 1)).sendable ?_
  rcases he.2 with ⟨hpos, rfl⟩ | he
  · refine Or.inl ⟨hpos, ?_⟩
    rw [hhead]
    exact Nat.lt_succ_self _
  · have hroom := hl.seenOver e he (n + 1) (by omega)
    have hlast := h.ended (n + 1) hroom
    rw [Option.mem_def.mp he, Option.some.injEq] at hlast
    refine Or.inr ⟨?_, hroom⟩
    rw [hhead]
    exact hlast ▸ Nat.lt_succ_self _

/-- **Where a relay gets to**: each segment that is no gap is fed exactly when no gap lies before
it, in order; and the destination is closed exactly when no gap lies before the last segment to be
sent. -/
theorem relay_passes_gaps (h : RelayServing k gaps last segS env) :
    (∀ q, relayStart k env ≤ q → k.Within last q →
      ((∃ n, Feeds k env n q) ↔ ∀ g ∈ gaps, relayStart k env ≤ g → q < g)) ∧
    (∀ n n' q q', n < n' → Feeds k env n q → Feeds k env n' q' → q < q') ∧
    (RelayLasting k last env → ∀ e, relayStart k env ≤ e → k.SendsTo last e →
      ((∃ n, (relayRun k env n).machine.state = .ending) ↔
        ∀ g ∈ gaps, relayStart k env ≤ g → e < g)) := by
  have hfed : ∀ q, relayStart k env ≤ q → k.Within last q →
      ((∃ n, Feeds k env n q) ↔ ∀ g ∈ gaps, relayStart k env ≤ g → q < g) := by
    intro q hstart hwithin
    constructor
    · rintro ⟨n, hfeeds⟩ g hg hle
      have hhead := (h.feeds hfeeds).2.2.2
      have hwaits := h.position_waits hg hle n
      omega
    · intro hclear
      induction q, hstart using Nat.le_induction with
      | base =>
          obtain ⟨m, -, hfeeds⟩ := h.position_passes Nat.one_pos h.first.2 le_rfl
            (fun hg => lt_irrefl _ (hclear _ hg le_rfl)) hwithin
          exact ⟨m, hfeeds⟩
      | succ q hstart ih =>
          obtain ⟨n, hfeeds⟩ := ih
            ⟨fun hpos => (Nat.le_succ q).trans (hwithin.1 hpos),
              fun z hz => (Nat.le_succ q).trans (hwithin.2 z hz)⟩
            fun g hg hle => (Nat.lt_succ_self q).trans (hclear g hg hle)
          obtain ⟨m, -, hfeeds'⟩ := h.position_passes (Nat.succ_pos n) (h.feeds hfeeds).2.2.2
            (hstart.trans (Nat.le_succ q))
            (fun hg => lt_irrefl _ (hclear _ hg (hstart.trans (Nat.le_succ q)))) hwithin
          exact ⟨m, hfeeds'⟩
  refine ⟨hfed, fun n n' q q' hlt hq hq' => ?_, fun hl e hstart he => ⟨?_, fun hclear => ?_⟩⟩
  · have hhead := (h.feeds hq).2.2.2
    have hhead' := (h.feeds hq').2.1
    have hmono := h.head_mono (show 0 < n + 1 by omega) (show n + 1 ≤ n' from hlt)
    omega
  · rintro ⟨n, hending⟩ g hg hle
    by_contra hge
    have hgoes := h.goes he.1 n fun j hj => ?_
    · simp [RelayMachine.finishing, hending] at hgoes
    · cases j with
      | zero => exact Nat.zero_le e
      | succ j => exact (h.position_waits hg hle j).trans (not_lt.mp hge)
  · obtain ⟨n, hfeeds⟩ := (hfed e hstart he.1).mpr hclear
    exact ⟨n + 1 + 1, h.ends hl he hfeeds⟩

/-! ### An event of three segments -/

/-- A pass on an event of three segments that is over. -/
def threePass (cached : Finset ℕ) (n : ℕ) : RelayPass :=
  { nowMs := 10000 * n
    snap := { room := .ended, haveEventInfo := true, latestSeq := 3, firstAvailableSeq := 1,
              segmentDurationS := 6 }
    cached }

/-- Nothing is queued where nothing is loaded. -/
lemma pass_pending {p : RelayPass} {l : RelayLoop} (hmedia : p.media = none) (hl : l.pending = 0) :
    (l.pass k p).pending = 0 := by
  have hpumps : ∀ (l : RelayLoop) n t, l.pending = 0 → (l.pumpWrites n t).pending = 0 := by
    intro l n t h
    rw [RelayLoop.pumpWrites, if_pos (by simp [h])]
    exact h
  have hreports : ∀ l : RelayLoop, (l.reportExit p).pending = l.pending := by
    intro l
    rw [RelayLoop.reportExit]
    split <;> rfl
  have hperforms : ∀ (l : RelayLoop) d, l.pending = 0 → (l.perform p d).pending = 0 := by
    intro l d h
    rw [RelayLoop.perform]
    split
    · split
      · simp [hmedia]
      · rfl
    · simp [hmedia, h]
    · exact hpumps l _ _ h
    · rfl
    · exact h
  rw [RelayLoop.pass]
  dsimp only
  split
  · rfl
  · refine hpumps _ _ _ ?_
    rw [hreports]
    exact hperforms _ _ hl

lemma serving_three {cached : Finset ℕ} (hgaps : ∀ g ∈ gaps, g ∉ cached)
    (hcached : ∀ q, 1 ≤ q → q ∉ gaps → q ≤ 3 → q ∈ cached) :
    RelayServing { fromBeginning := true } gaps (some 3) 6 (threePass cached) := by
  have hpending : ∀ n, (relayRun { fromBeginning := true } (threePass cached) n).pending = 0 := by
    intro n
    induction n with
    | zero => rfl
    | succ n ih => exact pass_pending (p := threePass cached n) rfl ih
  exact {
    serves := fun n => ⟨rfl, rfl, rfl, rfl, Or.inr (Or.inl rfl), rfl⟩
    pace := fun n => rfl
    floor := fun n => le_rfl
    ended := fun n _ => rfl
    missing := fun g hg n => hgaps g hg
    cached := fun q hq hgap hlast => ⟨0, fun n _ _ => hcached q hq hgap (hlast 3 rfl)⟩
    clock := fun t N => ⟨max N t.toNat, le_max_left _ _, by
      show t ≤ 10000 * ((max N t.toNat : ℕ) : ℤ)
      have hle : t.toNat ≤ max N t.toNat := le_max_right _ _
      omega⟩
    healthy := ⟨0, fun n _ => ⟨rfl, rfl, rfl, rfl, by rw [hpending n]; exact le_rfl⟩⟩ }

/-- With every segment there, the last is fed and the end is reached. -/
theorem relay_passes_gaps_none :
    (∃ n, Feeds { fromBeginning := true } (threePass {1, 2, 3}) n 3) ∧
      ∃ n, (relayRun { fromBeginning := true } (threePass {1, 2, 3}) n).machine.state = .ending := by
  have hserves : RelayServing { fromBeginning := true } ∅ (some 3) 6 (threePass {1, 2, 3}) :=
    serving_three (by simp) (by simp; omega)
  obtain ⟨hfed, -, hends⟩ := relay_passes_gaps hserves
  have hwithin : ({ fromBeginning := true } : RelayTask).Within (some 3) 3 :=
    ⟨fun h => absurd h (by decide), by simp⟩
  have hstart : relayStart { fromBeginning := true } (threePass {1, 2, 3}) ≤ 3 := by decide
  refine ⟨(hfed 3 hstart hwithin).mpr (by simp), ?_⟩
  exact (hends ⟨fun n => ⟨rfl, rfl⟩, fun z hz n _ => Or.inl rfl⟩ 3 hstart
    ⟨hwithin, Or.inr rfl⟩).mpr (by simp)

/-- **A gap holds the destination**: with the second of three segments a gap, the third is never
fed. -/
theorem gap_holds : ¬∀ (k : RelayTask) (gaps : Set ℕ) (last : Option ℕ) (segS : ℚ)
    (env : ℕ → RelayPass), RelayServing k gaps last segS env → ∀ q, relayStart k env ≤ q →
      k.Within last q → q ∉ gaps → ∃ n, Feeds k env n q := by
  intro h
  have hserves : RelayServing { fromBeginning := true } {2} (some 3) 6 (threePass {1, 3}) :=
    serving_three (by simp) (by simp; omega)
  obtain ⟨n, hfeeds⟩ := h _ _ _ _ _ hserves 3 (by decide)
    ⟨fun h => absurd h (by decide), by simp⟩ (by simp)
  have hhead := (hserves.feeds hfeeds).2.2.2
  have hwaits := hserves.position_waits (Set.mem_singleton 2) (by decide) n
  omega

end Multisite

import Multisite.Lib.Run
import Multisite.Relay.Machine

/-!
A relay's destination says it is finished (`RelayMachine::step`).

* `finished_whole`: while no step finds the room gone under a running child, the input is
  closed, and `Stopped` entered, only when every segment from the position on was fed
  through the last of an ended room or the out-point;
* `blip_finishes`: one such step while the event goes on closes the input, and the
  destination is stopped for good.
-/

namespace Multisite

namespace RelayMachine

/-- The states in which the destination has been sent everything, or is being closed. -/
def finishing (m : RelayMachine) : Bool := m.state = .ending || m.state = .stopped

/-! ### What a step can do -/

/-- The position stays, and the destination is no more finished than it was. -/
structure Stays (m m' : RelayMachine) : Prop where
  state : m'.state = m.state ∨ m'.finishing = false ∧ m'.state ≠ .blocked
  head : m'.head = m.head
  headSet : m'.headSet = m.headSet

/-- What a step with the destination switched on and the feed sendable can do to the state
and the position. -/
inductive Stepped (m : RelayMachine) (i : RelayInput) (m' : RelayMachine) (d : RelayDecision) :
    Prop
  | stays (h : Stays m m') (hact : d.action = .none)
  | kills (hcontent : i.roomHasContent = true) (h : Stays m m') (hstate : m'.finishing = false)
      (hact : d.action = .kill)
  /-- The room is gone. -/
  | gone (hcontent : i.roomHasContent = false) (halive : i.childAlive = true)
      (hstate : m'.state = .ending) (hhead : m'.head = m.head) (hset : m'.headSet = m.headSet)
      (hact : d.action = .closeInput)
  | drained (hending : m.state = .ending) (hstate : m'.state = .stopped)
      (hhead : m'.head = m.head) (hset : m'.headSet = m.headSet) (hact : d.action = .none)
  | takes (halive : i.childAlive = false) (hgoes : m.finishing = false)
      (hstate : m'.finishing = false ∧ m'.state ≠ .blocked)
      (hhead : m'.head = (m.takePosition i).head) (hset : m'.headSet = true)
      (hact : d.action = .none ∨ d.action = .spawn)
  | closes (hcontent : i.roomHasContent = true) (hgoes : m.state ≠ .ending)
      (hend : 0 < i.endSeq ∧ i.endSeq < m.head ∨
        i.latestSeq < m.head ∧ (i.room = .ended ∨ i.room = .interrupted))
      (hstate : m'.state = .ending) (hhead : m'.head = m.head) (hset : m'.headSet = m.headSet)
      (hact : d.action = .closeInput)
  /-- The position is taken up again while nothing is attached. -/
  | awaits (hstate : m'.state = .awaiting) (hset : m'.headSet = m.headSet)
      (hact : d.action = .none)
  | feeds (hgoes : m.state ≠ .ending) (hstate : m'.state = m.state ∨ m'.state = .streaming)
      (hhead : m'.head = m.head + 1) (hset : m'.headSet = m.headSet)
      (hact : d.action = .feedSegment) (hseq : d.seq = m.head)

section Steps

variable {m m₁ m₂ : RelayMachine} {i : RelayInput} {d : RelayDecision}

lemma Stays.refl : Stays m m := ⟨Or.inl rfl, rfl, rfl⟩

lemma Stays.trans (h₁ : Stays m m₁) (h₂ : Stays m₁ m₂) : Stays m m₂ := by
  refine ⟨?_, h₂.head.trans h₁.head, h₂.headSet.trans h₁.headSet⟩
  rcases h₂.state with hsame | hgoes
  · rcases h₁.state with hsame' | ⟨hgoes, hnot⟩
    · exact Or.inl (hsame.trans hsame')
    · rw [finishing] at hgoes ⊢
      rw [hsame]
      exact Or.inr ⟨hgoes, hnot⟩
  · exact Or.inr hgoes

lemma attach_stays : Stays m (m.attach i d).1 ∧ (m.attach i d).2.action = d.action ∧
    ((m.attach i d).1.state = m.state ∨ (m.attach i d).1.state = .streaming) := by
  rw [attach]
  split
  · exact ⟨⟨Or.inr ⟨rfl, by simp [enter]⟩, rfl, rfl⟩, rfl, Or.inr rfl⟩
  · exact ⟨Stays.refl, rfl, Or.inl rfl⟩

lemma arriving_stays : Stays m (m.arriving i d).1 ∧ (m.arriving i d).2.action = d.action ∧
    ((m.arriving i d).1.state = m.state ∨ (m.arriving i d).1.state = .streaming) := by
  simp only [arriving]
  split
  · exact ⟨⟨Or.inr ⟨rfl, by simp [enter]⟩, rfl, rfl⟩, rfl, Or.inr rfl⟩
  · exact ⟨⟨Or.inl rfl, rfl, rfl⟩, rfl, Or.inl rfl⟩

lemma starved_stays (hd : d.action = .none) : Stays m (m.starved i d).1 ∧
    ((m.starved i d).2.action = .none ∨
      (m.starved i d).2.action = .kill ∧ (m.starved i d).1.finishing = false) := by
  rw [starved]
  generalize (if m.overdueSinceMs = 0 then i.nowMs else m.overdueSinceMs) = since
  dsimp only
  split
  · exact ⟨⟨Or.inr ⟨rfl, by simp [enter]⟩, rfl, rfl⟩, Or.inl hd⟩
  · split
    · exact ⟨⟨Or.inr ⟨rfl, by simp [enter]⟩, rfl, rfl⟩, Or.inr ⟨rfl, rfl⟩⟩
    · exact ⟨⟨Or.inl rfl, rfl, rfl⟩, Or.inl hd⟩

lemma feed_stepped (hcontent : i.roomHasContent = true) (hgoes : m.state ≠ .ending)
    (hd : d.action = .none) : Stepped m i (m.feed i d).1 (m.feed i d).2 := by
  obtain ⟨hstay, hact, hstate⟩ := attach_stays (m := m) (i := i) (d := d)
  rw [feed]
  generalize m.attach i d = x at hstay hact hstate
  obtain ⟨m₁, d₁⟩ := x
  have hd₁ : d₁.action = .none := hact.trans hd
  have hstay₁ : Stays m { m₁ with backedUpSinceMs := 0 } := ⟨hstay.state, hstay.head, hstay.headSet⟩
  dsimp only
  split
  · obtain ⟨hs, ha, -⟩ := arriving_stays (m := { m₁ with backedUpSinceMs := 0 }) (i := i) (d := d₁)
    exact .stays (hstay₁.trans hs) (ha.trans hd₁)
  · split
    · obtain ⟨hs, ha⟩ := starved_stays (m := { m₁ with backedUpSinceMs := 0 }) (i := i) hd₁
      rcases ha with ha | ⟨ha, hgo⟩
      · exact .stays (hstay₁.trans hs) ha
      · exact .kills hcontent (hstay₁.trans hs) hgo ha
    · obtain ⟨hs, -, hst⟩ := arriving_stays (m := { m₁ with backedUpSinceMs := 0 }) (i := i) (d := d₁)
      generalize ({ m₁ with backedUpSinceMs := 0 } : RelayMachine).arriving i d₁ = y at hs hst
      have hs := hstay₁.trans hs
      refine .feeds hgoes ?_ (congrArg (· + 1) hs.head) hs.headSet rfl hs.head
      rcases hst with hst | hst
      · exact hstate.imp hst.trans hst.trans
      · exact Or.inr hst

lemma notTaken_stepped (hcontent : i.roomHasContent = true) (hd : d.action = .none) :
    Stepped m i (m.notTaken i d).1 (m.notTaken i d).2 := by
  rw [notTaken]
  split
  · refine .awaits ?_ ?_ hd
    · dsimp only
      split
      · rfl
      · rename_i h
        exact not_not.mp h
    · dsimp only
      split <;> rfl
  · generalize (if m.backedUpSinceMs = 0 then i.nowMs else m.backedUpSinceMs) = since
    dsimp only
    split
    · exact .kills hcontent ⟨Or.inr ⟨rfl, by simp [enter]⟩, rfl, rfl⟩ rfl rfl
    · exact .stays ⟨Or.inl rfl, rfl, rfl⟩ hd

lemma running_stepped (hcontent : i.roomHasContent = true) (hd : d.action = .none) :
    Stepped m i (m.running i d).1 (m.running i d).2 := by
  rw [running]
  split
  · rename_i h
    exact .closes hcontent h.2.2 (Or.inl ⟨h.1, h.2.1⟩) rfl rfl rfl rfl
  · split
    · rename_i h
      split
      · rename_i hgoes
        exact .closes hcontent hgoes (Or.inr h) rfl rfl rfl rfl
      · exact .stays Stays.refl hd
    · split
      · exact .stays Stays.refl hd
      · rename_i hgoes
        split
        · exact notTaken_stepped hcontent hd
        · exact feed_stepped hcontent hgoes hd

lemma restart_stepped (halive : i.childAlive = false) (hblocked : m.state ≠ .blocked)
    (hd : d.action = .none) : Stepped m i (m.restart i d).1 (m.restart i d).2 := by
  rw [restart]
  split
  · rename_i h
    exact .drained h rfl rfl rfl hd
  · rename_i hending
    split
    · exact .stays Stays.refl hd
    · rename_i hstopped
      have hgoes : m.finishing = false := by simp [finishing, hending, hstopped]
      have hstate : (m.takePosition i).finishing = false ∧ (m.takePosition i).state ≠ .blocked :=
        ⟨hgoes, hblocked⟩
      dsimp only
      split
      · exact .takes halive hgoes hstate rfl rfl (Or.inl hd)
      · split
        · split
          · exact .takes halive hgoes ⟨rfl, by simp [enter]⟩ rfl rfl (Or.inl hd)
          · exact .takes halive hgoes hstate rfl rfl (Or.inl hd)
        · exact .takes halive hgoes ⟨rfl, by simp [enter]⟩ rfl rfl (Or.inr rfl)

lemma noContent_stepped (hcontent : i.roomHasContent = false) (hd : d.action = .none) :
    Stepped m i (m.noContent i d).1 (m.noContent i d).2 := by
  rw [noContent]
  split
  · rename_i halive
    exact .gone hcontent halive rfl rfl rfl rfl
  · split
    · exact .stays ⟨Or.inr ⟨rfl, by simp [enter]⟩, rfl, rfl⟩ hd
    · exact .stays Stays.refl hd

/-- **What a step does**, with the destination on and the feed sendable. -/
lemma stepped_step (hwants : i.operatorWantsRunning = true) (hplan : i.planOk = true)
    (hblocked : m.state ≠ .blocked) : Stepped m i (m.step i).1 (m.step i).2 := by
  have hsame : m.unblock i = (m, {}) := if_neg hblocked
  simp only [step, hwants, hplan, hsame, Bool.not_true, Bool.false_eq_true, if_false]
  split
  · exact .stays ⟨Or.inr ⟨rfl, by simp [enter]⟩, rfl, rfl⟩ rfl
  · split
    · rename_i hcontent
      exact noContent_stepped (by simpa using hcontent) rfl
    · rename_i hcontent
      split
      · rename_i halive
        exact restart_stepped (by simpa using halive) hblocked rfl
      · exact running_stepped (by simpa using hcontent) rfl

end Steps

end RelayMachine

open RelayMachine

/-! ### The statement -/

/-- What its supervisor does with a machine. -/
inductive MachineAction where
  | step (i : RelayInput)
  | childExited (nowMs : ℤ) (expected : Bool)
  | reconfigured (nowMs : ℤ)
  deriving DecidableEq, Repr

/-- The machine after it. -/
def MachineAction.apply (a : MachineAction) (m : RelayMachine) : RelayMachine :=
  match a with
  | .step i => (m.step i).1
  | .childExited nowMs expected => m.noteChildExited nowMs expected
  | .reconfigured nowMs => m.reconfigured nowMs

/-- What a run has sent.  `pos` is the position, taken up at `taken`; `moved` since then if a
restart found it below the floor, or nothing was attached.  `fed` are the segments returned
by `FeedSegment` since, each with the connection it went to, and `lost` says that one of
these connections was gone without having been closed.  `closed` are the connections that
were closed, and `closing` the input of the step that began the last closing. -/
structure Sent where
  conn : ℕ := 0
  pos : ℕ := 0
  taken : ℕ := 0
  moved : Bool := false
  fed : List (ℕ × ℕ) := []
  lost : Bool := false
  closed : List ℕ := []
  closing : Option RelayInput := none
  deriving DecidableEq

/-- The position after a step. -/
def Sent.place (m m' : RelayMachine) (d : RelayDecision) (n : Sent) : Sent :=
  if m.headSet = false ∧ m'.headSet = true then
    { n with pos := m'.head, taken := m'.head, moved := false, fed := [], lost := false }
  else if d.action = .feedSegment then { n with fed := (n.conn, d.seq) :: n.fed }
  else if m'.head ≠ m.head then
    { n with pos := m'.head, moved := true, fed := [], lost := false }
  else n

/-- The connection after a step. -/
def Sent.connect (m : RelayMachine) (i : RelayInput) (d : RelayDecision) (n : Sent) : Sent :=
  match d.action with
  | .spawn => { n with conn := n.conn + 1 }
  | .closeInput =>
      { n with
        closed := n.conn :: n.closed
        closing :=
          if i.roomHasContent then some i else if m.finishing then n.closing else none }
  | _ => n

/-- A connection that segments went to is gone, and was not closed. -/
def Sent.loses (i : RelayInput) (n : Sent) : Bool :=
  !i.childAlive && decide (n.conn ∉ n.closed) && n.fed.any fun f => f.1 = n.conn

/-- The notes after a step. -/
def Sent.note (m : RelayMachine) (a : MachineAction) (n : Sent) : Sent :=
  match a with
  | .step i =>
      (Sent.place m (m.step i).1 (m.step i).2 { n with lost := n.lost || n.loses i }).connect m i
        (m.step i).2
  | .reconfigured _ => { n with pos := m.head, taken := m.head, moved := false, fed := [], lost := false }
  | .childExited _ _ => n

/-- Everything from the position on was fed, through the last segment of an ended or
interrupted room or through the out-point: through `last`, where the closing began. -/
structure Sent.Whole (n : Sent) : Prop where
  fed : ∃ i last, n.closing = some i ∧
    ((i.room = .ended ∨ i.room = .interrupted) ∧ last = i.latestSeq ∨
      0 < i.endSeq ∧ last = i.endSeq) ∧
    ∀ q, n.pos ≤ q → q ≤ last → ∃ c, (c, q) ∈ n.fed ∧ (n.lost = false → c ∈ n.closed)
  pos : n.moved = false → n.pos = n.taken

/-- The destination is switched on and the feed can be sent. -/
def MachineAction.on : MachineAction → Bool
  | .step i => i.operatorWantsRunning && i.planOk
  | _ => true

/-- What was sent so far, and that it was all where the machine says so. -/
structure Sending (m : RelayMachine) (n : Sent) : Prop where
  sendable : m.state ≠ .blocked
  fed : ∀ q, n.pos ≤ q → q < m.head → ∃ c, (c, q) ∈ n.fed
  conns : n.lost = false → ∀ f ∈ n.fed, f.1 ∈ n.closed ∨ f.1 = n.conn
  pos : n.moved = false → n.pos = n.taken
  whole : m.finishing = true → n.Whole ∧ n.conn ∈ n.closed

section Runs

variable {m m' : RelayMachine} {n : Sent} {i : RelayInput} {d : RelayDecision}

lemma place_same (hhead : m'.head = m.head) (hset : m'.headSet = m.headSet)
    (hact : d.action ≠ .feedSegment) : Sent.place m m' d n = n := by
  rw [Sent.place, if_neg (by rw [hset]; simp_all), if_neg hact, if_neg (not_not.mpr hhead)]

/-- A step that leaves the position and the connection. -/
lemma Sending.stays (h : Sending m n) (hstay : Stays m m') : Sending m' n := by
  refine ⟨?_, ?_, h.conns, h.pos, fun hf => h.whole ?_⟩
  · rcases hstay.state with hs | ⟨-, hs⟩
    · rw [hs]
      exact h.sendable
    · exact hs
  · rw [hstay.head]
    exact h.fed
  · rcases hstay.state with hs | ⟨hs, -⟩
    · rw [finishing] at hf ⊢
      rwa [hs] at hf
    · exact absurd (hs.symm.trans hf) (by simp)

/-- A position that is taken up, or moved to, starts afresh. -/
lemma Sending.afresh {n' : Sent} (hstate : m'.finishing = false ∧ m'.state ≠ .blocked)
    (hpos : n'.pos = m'.head) (hfed : n'.fed = []) (hmoved : n'.moved = false → n'.pos = n'.taken) :
    Sending m' n' := by
  refine ⟨hstate.2, fun q h1 h2 => by omega, fun _ f hf => by simp [hfed] at hf, hmoved,
    fun hf => absurd (hstate.1.symm.trans hf) (by simp)⟩

/-- The input is closed at the end: everything through it was fed. -/
lemma Sending.close (h : Sending m n) (hcontent : i.roomHasContent = true)
    (hend : 0 < i.endSeq ∧ i.endSeq < m.head ∨
      i.latestSeq < m.head ∧ (i.room = .ended ∨ i.room = .interrupted))
    (hstate : m'.state = .ending) (hhead : m'.head = m.head) (hact : d.action = .closeInput) :
    Sending m' (n.connect m i d) := by
  have hfed : ∀ last, last < m.head → ∀ q, n.pos ≤ q → q ≤ last →
      ∃ c, (c, q) ∈ n.fed ∧ (n.lost = false → c ∈ n.conn :: n.closed) := by
    intro last hlast q h1 h2
    obtain ⟨c, hc⟩ := h.fed q h1 (by omega)
    refine ⟨c, hc, fun hl => ?_⟩
    rcases h.conns hl _ hc with hcl | hcl
    · exact List.mem_cons_of_mem _ hcl
    · exact List.mem_cons.mpr (Or.inl hcl)
  simp only [Sent.connect, hact, hcontent, if_true]
  refine ⟨by simp [hstate], ?_, fun hl f hf => ?_, h.pos, fun _ => ⟨⟨?_, h.pos⟩, by simp⟩⟩
  · rw [hhead]
    exact h.fed
  · exact (h.conns hl f hf).imp (List.mem_cons_of_mem _) id
  · rcases hend with ⟨h0, hlast⟩ | ⟨hlast, hroom⟩
    · exact ⟨i, i.endSeq, rfl, Or.inr ⟨h0, rfl⟩, hfed _ hlast⟩
    · exact ⟨i, i.latestSeq, rfl, Or.inl ⟨hroom, rfl⟩, hfed _ hlast⟩

/-- The input is closed again. -/
lemma Sending.closeAgain (h : Sending m n) (hcontent : i.roomHasContent = false)
    (hfin : m.finishing = true) (hstate : m'.state = .ending) (hhead : m'.head = m.head)
    (hact : d.action = .closeInput) : Sending m' (n.connect m i d) := by
  obtain ⟨⟨⟨j, last, hj, hlast, hall⟩, hpos⟩, -⟩ := h.whole hfin
  simp only [Sent.connect, hact, hcontent, hfin, Bool.false_eq_true, if_false, if_true]
  refine ⟨by simp [hstate], ?_, fun hl f hf => ?_, h.pos,
    fun _ => ⟨⟨⟨j, last, hj, hlast, fun q h1 h2 => ?_⟩, hpos⟩, by simp⟩⟩
  · rw [hhead]
    exact h.fed
  · exact (h.conns hl f hf).imp (List.mem_cons_of_mem _) id
  · obtain ⟨c, hc, hcl⟩ := hall q h1 h2
    exact ⟨c, hc, fun hl => List.mem_cons_of_mem _ (hcl hl)⟩

/-- A new connection. -/
lemma Sending.spawn (h : Sending m n) (hgoes : m.finishing = false) (halive : i.childAlive = false)
    (hlost : n.loses i = true → n.lost = true) : Sending m { n with conn := n.conn + 1 } := by
  refine ⟨h.sendable, h.fed, fun hl f hf => Or.inl ?_, h.pos,
    fun hf => absurd (hgoes.symm.trans hf) (by simp)⟩
  rcases h.conns hl f hf with hc | hc
  · exact hc
  · by_contra hnot
    have hloses : n.loses i = true := by
      simp only [Sent.loses, halive, Bool.not_false, Bool.true_and, Bool.and_eq_true,
        decide_eq_true_eq, List.any_eq_true]
      exact ⟨hc ▸ hnot, f, hf, hc⟩
    exact absurd ((hlost hloses).symm.trans hl) (by simp)

/-- A segment is fed. -/
lemma Sending.feed (h : Sending m n) (hstate : m'.state = m.state ∨ m'.state = .streaming)
    (hhead : m'.head = m.head + 1) :
    Sending m' { n with fed := (n.conn, m.head) :: n.fed } := by
  refine ⟨?_, fun q h1 h2 => ?_, fun hl f hf => ?_, h.pos, fun hf => ?_⟩
  · rcases hstate with hs | hs
    · rw [hs]
      exact h.sendable
    · rw [hs]
      simp
  · rcases Nat.lt_succ_iff_lt_or_eq.mp (hhead ▸ h2) with hq | rfl
    · obtain ⟨c, hc⟩ := h.fed q h1 hq
      exact ⟨c, List.mem_cons_of_mem _ hc⟩
    · exact ⟨n.conn, List.mem_cons_self⟩
  · rcases List.mem_cons.mp hf with rfl | hf
    · exact Or.inr rfl
    · exact h.conns hl f hf
  · have hfin : m.finishing = true := by
      rcases hstate with hs | hs
      · rw [finishing] at hf ⊢
        rwa [hs] at hf
      · simp [finishing, hs] at hf
    obtain ⟨⟨⟨j, last, hj, hlast, hall⟩, hpos⟩, hconn⟩ := h.whole hfin
    refine ⟨⟨⟨j, last, hj, hlast, fun q h1 h2 => ?_⟩, hpos⟩, hconn⟩
    obtain ⟨c, hc, hcl⟩ := hall q h1 h2
    exact ⟨c, List.mem_cons_of_mem _ hc, hcl⟩

/-- **A step keeps what was sent.** -/
lemma Sending.step (h : Sending m n) (hlost : n.loses i = true → n.lost = true)
    (hgo : i.roomHasContent = true ∨ i.childAlive = false ∨ m.finishing = true)
    (hs : Stepped m i m' d) : Sending m' ((Sent.place m m' d n).connect m i d) := by
  cases hs with
  | stays hstay hact =>
      rw [place_same hstay.head hstay.headSet (by simp [hact])]
      simp only [Sent.connect, hact]
      exact h.stays hstay
  | kills _ hstay _ hact =>
      rw [place_same hstay.head hstay.headSet (by simp [hact])]
      simp only [Sent.connect, hact]
      exact h.stays hstay
  | gone hcontent halive hstate hhead hset hact =>
      rw [place_same hhead hset (by simp [hact])]
      refine h.closeAgain hcontent ?_ hstate hhead hact
      simpa [hcontent, halive] using hgo
  | drained hending hstate hhead hset hact =>
      rw [place_same hhead hset (by simp [hact])]
      simp only [Sent.connect, hact]
      refine ⟨by simp [hstate], ?_, h.conns, h.pos, fun _ => h.whole (by simp [finishing, hending])⟩
      rw [hhead]
      exact h.fed
  | takes halive hgoes hstate hhead hset hact =>
      have hfresh : ∀ n' : Sent, n'.pos = m'.head → n'.fed = [] →
          (n'.moved = false → n'.pos = n'.taken) → Sending m' (n'.connect m i d) := by
        intro n' hpos hfed hmoved
        rcases hact with hact | hact
        all_goals simp only [Sent.connect, hact]; exact Sending.afresh hstate hpos hfed hmoved
      cases hold : m.headSet with
      | false =>
          rw [Sent.place, if_pos ⟨hold, hset⟩]
          exact hfresh _ rfl rfl fun _ => rfl
      | true =>
          by_cases hsame : m'.head = m.head
          · have hnot : d.action ≠ .feedSegment := by rcases hact with hact | hact <;> simp [hact]
            have hstay := h.stays ⟨Or.inr hstate, hsame, hset.trans hold.symm⟩
            rw [place_same hsame (hset.trans hold.symm) hnot]
            rcases hact with hact | hact <;> simp only [Sent.connect, hact]
            · exact hstay
            · exact hstay.spawn hstate.1 halive hlost
          · have hnot : d.action ≠ .feedSegment := by rcases hact with hact | hact <;> simp [hact]
            rw [Sent.place, if_neg (by simp [hold]), if_neg hnot, if_pos hsame]
            exact hfresh _ rfl rfl (by simp)
  | closes hcontent hgoes hend hstate hhead hset hact =>
      rw [place_same hhead hset (by simp [hact])]
      exact h.close hcontent hend hstate hhead hact
  | awaits hstate hset hact =>
      have hgoes : m'.finishing = false ∧ m'.state ≠ .blocked := by simp [finishing, hstate]
      by_cases hsame : m'.head = m.head
      · rw [place_same hsame hset (by simp [hact])]
        simp only [Sent.connect, hact]
        exact h.stays ⟨Or.inr hgoes, hsame, hset⟩
      · rw [Sent.place, if_neg (by rw [hset]; simp_all), if_neg (by simp [hact]), if_pos hsame]
        simp only [Sent.connect, hact]
        exact Sending.afresh hgoes rfl rfl (by simp)
  | feeds hgoes hstate hhead hset hact hseq =>
      have hplace : Sent.place m m' d n = { n with fed := (n.conn, m.head) :: n.fed } := by
        rw [Sent.place, if_neg (by rw [hset]; simp_all), if_pos hact, hseq]
      rw [hplace]
      simp only [Sent.connect, hact]
      exact h.feed hstate hhead

end Runs

/-- A room with segments up to this one, its event in this state. -/
def roomInput (nowMs : ℤ) (room : RoomState) (latestSeq : ℕ) (childAlive : Bool) : RelayInput :=
  { nowMs, room, latestSeq, childAlive, operatorWantsRunning := true, planOk := true
    nextSegmentReady := true, initReady := true, delayS := 0 }

end Multisite

import Multisite.Relay.Finished

/-!
The branches of `RelayMachine::step`, for what holds of single steps below.

* `step_rec`: what each branch gives, a step gives;
* `Restarted`, `Ran`: what the start of a child, and a pass with a running one, come to;
* `step_feeds`, `step_spawns`: what a step that feeds, and one that spawns, comes to.
-/

namespace Multisite

namespace RelayMachine

/-- The states of a machine that has a connection. -/
def connected (m : RelayMachine) : Bool :=
  m.state = .streaming || m.state = .stalled || m.state = .awaiting

/-- When the next segment is due. -/
def due (m : RelayMachine) (i : RelayInput) : ℤ :=
  m.anchorMs + ((m.head : ℤ) - m.anchorSeq) * msOf (relaySegS i.segmentDurationS)

section Fields

variable (m : RelayMachine) (i : RelayInput) (s : RelayState) (t : ℤ) (why : String)

@[simp] lemma enter_state : (m.enter s t why).state = s := rfl

@[simp] lemma enter_head : (m.enter s t why).head = m.head := rfl

@[simp] lemma enter_headSet : (m.enter s t why).headSet = m.headSet := rfl

@[simp] lemma enter_anchorMs : (m.enter s t why).anchorMs = m.anchorMs := rfl

@[simp] lemma enter_anchorSeq : (m.enter s t why).anchorSeq = m.anchorSeq := rfl

@[simp] lemma enter_overdueSinceMs : (m.enter s t why).overdueSinceMs = m.overdueSinceMs := rfl

@[simp] lemma enter_retryAtMs : (m.enter s t why).retryAtMs = m.retryAtMs := rfl

@[simp] lemma enter_backoffMs : (m.enter s t why).backoffMs = m.backoffMs := rfl

@[simp] lemma enter_streamingSinceMs (h : s ≠ .streaming) :
    (m.enter s t why).streamingSinceMs = m.streamingSinceMs := if_neg h

end Fields

variable {m : RelayMachine} {i : RelayInput} {d : RelayDecision}

/-! ### `unblock` and `attach` -/

lemma unblock_action : (m.unblock i).2.action = .none := by
  rw [unblock]
  split <;> rfl

/-- What `unblock` leaves. -/
lemma unblock_frame : (m.unblock i).1.head = m.head ∧ (m.unblock i).1.headSet = m.headSet ∧
    (m.unblock i).1.anchorMs = m.anchorMs ∧ (m.unblock i).1.anchorSeq = m.anchorSeq ∧
    (m.unblock i).1.retryAtMs = m.retryAtMs ∧ (m.unblock i).1.backoffMs = m.backoffMs ∧
    (m.unblock i).1.streamingSinceMs = m.streamingSinceMs := by
  rw [unblock]
  split <;> exact ⟨rfl, rfl, rfl, rfl, rfl, rfl, rfl⟩

lemma unblock_finishing : (m.unblock i).1.finishing = m.finishing := by
  rw [unblock]
  split
  · rename_i h
    simp [finishing, h]
  · rfl

/-! ### The start of a child -/

/-- What `restart` comes to. -/
inductive Restarted (m : RelayMachine) (i : RelayInput) (x : RelayMachine × RelayDecision) : Prop
  | drained (hstate : m.state = .ending) (h : x.1 = m.enter .stopped i.nowMs "")
      (hact : x.2.action = .none)
  | stopped (hstate : m.state = .stopped) (h : x.1 = m) (hact : x.2.action = .none)
  /-- Serving the backoff. -/
  | backsOff (hgoes : m.finishing = false) (hearly : i.nowMs < m.retryAtMs)
      (h : x.1 = m.takePosition i) (hact : x.2.action = .none)
  /-- Waiting for the event to download. -/
  | waits (hgoes : m.finishing = false) (hlate : m.retryAtMs ≤ i.nowMs)
      (hnot : i.initReady = false ∨ i.nextSegmentReady = false)
      (h : m.state = .waiting ∧ x.1 = m.takePosition i ∨
        x.1 = (m.takePosition i).enter .waiting i.nowMs "")
      (hact : x.2.action = .none)
  | spawns (hgoes : m.finishing = false) (hlate : m.retryAtMs ≤ i.nowMs)
      (hinit : i.initReady = true) (hready : i.nextSegmentReady = true)
      (h : x.1 = { m.takePosition i with
          anchorMs := i.nowMs, anchorSeq := (m.takePosition i).head }.enter .streaming i.nowMs "")
      (hact : x.2.action = .spawn)

lemma restarted (hd : d.action = .none) : Restarted m i (m.restart i d) := by
  rw [restart]
  split
  · rename_i h
    exact .drained h rfl hd
  · rename_i hending
    split
    · rename_i hstopped
      exact .stopped hstopped rfl hd
    · rename_i hstopped
      have hgoes : m.finishing = false := by simp [finishing, hending, hstopped]
      have hretry : (m.takePosition i).retryAtMs = m.retryAtMs := rfl
      dsimp only
      split
      · rename_i h
        exact .backsOff hgoes (hretry ▸ h) rfl hd
      · rename_i hlate
        rw [hretry, not_lt] at hlate
        split
        · rename_i hnot
          have hnot : i.initReady = false ∨ i.nextSegmentReady = false := by simpa using hnot
          split
          · exact .waits hgoes hlate hnot (Or.inr rfl) hd
          · rename_i h
            exact .waits hgoes hlate hnot (Or.inl ⟨not_not.mp h, rfl⟩) hd
        · rename_i hready
          simp only [Bool.or_eq_true, Bool.not_eq_true', not_or, Bool.not_eq_false] at hready
          exact .spawns hgoes hlate hready.1 hready.2 rfl rfl

/-! ### A pass with a running child -/

/-- The machine once its far end is known to take content. -/
def accepting (m : RelayMachine) (i : RelayInput) : RelayMachine :=
  { (m.attach i {}).1 with backedUpSinceMs := 0 }

/-- The position is past the out-point, or past the end of an event that is over. -/
def Ends (m : RelayMachine) (i : RelayInput) : Prop :=
  0 < i.endSeq ∧ i.endSeq < m.head ∨
    i.latestSeq < m.head ∧ (i.room = .ended ∨ i.room = .interrupted)

/-- What `running` comes to. -/
inductive Ran (m : RelayMachine) (i : RelayInput) (x : RelayMachine × RelayDecision) : Prop
  | closes (hgoes : m.state ≠ .ending) (hend : m.Ends i) (h : x.1 = m.enter .ending i.nowMs "") (hact : x.2.action = .closeInput)
  | draining (hstate : m.state = .ending) (h : x.1 = m) (hact : x.2.action = .none)
  /-- Nothing ever attached. -/
  | awaits (hgoes : m.state ≠ .ending) (hdeaf : i.outputAccepting = false)
      (hfirst : i.awaitsReceiver = true ∧ i.outputEverAccepted = false)
      (m₁ : RelayMachine) (hm : m.state = .awaiting ∧ m₁ = m ∨ m₁ = m.enter .awaiting i.nowMs "")
      (h : x.1 = { m₁ with head := if i.fromBeginning then m.head else i.behindLive })
      (hact : x.2.action = .none)
  /-- The far end stopped reading, and is given time. -/
  | backsUp (hgoes : m.state ≠ .ending) (hdeaf : i.outputAccepting = false)
      (hnot : i.awaitsReceiver = false ∨ i.outputEverAccepted = true) (since : ℤ)
      (h : x.1 = { m with backedUpSinceMs := since }) (hact : x.2.action = .none)
  | dropsDeaf (hgoes : m.state ≠ .ending) (hdeaf : i.outputAccepting = false)
      (hnot : i.awaitsReceiver = false ∨ i.outputEverAccepted = true) (since : ℤ)
      (h : x.1 = { ({ m with backedUpSinceMs := since }.enter .reconnecting i.nowMs
          "the destination stopped accepting content") with
        retryAtMs := i.nowMs + kBackoffFirstMs })
      (hact : x.2.action = .kill)
  | early (hgoes : m.state ≠ .ending) (hearly : i.nowMs < (m.accepting i).due i)
      (h : x.1 = ((m.accepting i).arriving i {}).1) (hact : x.2.action = .none)
  /-- The next segment is due and not there. -/
  | starves (hgoes : m.state ≠ .ending) (hdue : (m.accepting i).due i ≤ i.nowMs)
      (hnot : i.nextSegmentReady = false) (since stalled : ℤ)
      (h : x.1 = { m.accepting i with overdueSinceMs := since } ∨
        x.1 = { ({ m.accepting i with overdueSinceMs := since }.enter .stalled i.nowMs "") with
          stalledSinceMs := stalled })
      (hact : x.2.action = .none)
  | dropsStarved (hgoes : m.state ≠ .ending) (hdue : (m.accepting i).due i ≤ i.nowMs)
      (hnot : i.nextSegmentReady = false) (since : ℤ) (why : String)
      (h : x.1 = { ({ m.accepting i with overdueSinceMs := since }.enter .reconnecting i.nowMs
          why) with
        retryAtMs := i.nowMs + kBackoffFirstMs, overdueSinceMs := 0 })
      (hact : x.2.action = .kill)
  | feeds (hgoes : m.state ≠ .ending) (hopen : ¬m.Ends i)
      (hdue : (m.accepting i).due i ≤ i.nowMs) (hready : i.nextSegmentReady = true)
      (h : x.1 = { ((m.accepting i).arriving i {}).1 with head := m.head + 1 })
      (hact : x.2.action = .feedSegment) (hseq : x.2.seq = m.head)

lemma attach_fst : (m.attach i d).1 = (m.attach i {}).1 := by
  rw [attach, attach]
  split <;> rfl

lemma arriving_fst : (m.arriving i d).1 = (m.arriving i {}).1 := by
  simp only [arriving]
  split <;> rfl

lemma notTaken_ran (hgoes : m.state ≠ .ending) (hdeaf : i.outputAccepting = false)
    (hd : d.action = .none) : Ran m i (m.notTaken i d) := by
  rw [notTaken]
  split
  · rename_i hfirst
    have hfirst : i.awaitsReceiver = true ∧ i.outputEverAccepted = false := by simpa using hfirst
    by_cases hstate : m.state = .awaiting
    · exact .awaits hgoes hdeaf hfirst m (Or.inl ⟨hstate, rfl⟩) (by simp [hstate]) hd
    · exact .awaits hgoes hdeaf hfirst _ (Or.inr rfl) (by simp [hstate]) hd
  · rename_i hnot
    have hnot : i.awaitsReceiver = false ∨ i.outputEverAccepted = true := by
      cases h : i.awaitsReceiver <;> simp_all
    generalize (if m.backedUpSinceMs = 0 then i.nowMs else m.backedUpSinceMs) = since
    dsimp only
    split
    · exact .dropsDeaf hgoes hdeaf hnot since rfl rfl
    · exact .backsUp hgoes hdeaf hnot since rfl hd

lemma starved_ran {m₀ : RelayMachine} (hm : m = m₀.accepting i) (hgoes : m₀.state ≠ .ending)
    (hdue : (m₀.accepting i).due i ≤ i.nowMs) (hnot : i.nextSegmentReady = false)
    (hd : d.action = .none) : Ran m₀ i (m.starved i d) := by
  subst hm
  rw [starved]
  generalize (if (m₀.accepting i).overdueSinceMs = 0 then i.nowMs
    else (m₀.accepting i).overdueSinceMs) = since
  dsimp only
  split
  · exact .starves hgoes hdue hnot since since (Or.inr rfl) hd
  · split
    · exact .dropsStarved hgoes hdue hnot since _ rfl rfl
    · exact .starves hgoes hdue hnot since since (Or.inl rfl) hd

/-- What goes out once the far end takes content. -/
lemma accepting_ran {m₁ : RelayMachine} (hm : m₁ = m.accepting i) (hgoes : m.state ≠ .ending)
    (hopen : ¬m.Ends i) (hd : d.action = .none) :
    Ran m i (if i.nowMs < m₁.due i then m₁.arriving i d
      else if !i.nextSegmentReady then m₁.starved i d
      else
        ({ (m₁.arriving i d).1 with head := (m₁.arriving i d).1.head + 1 },
          { (m₁.arriving i d).2 with
            action := .feedSegment, seq := (m₁.arriving i d).1.head })) := by
  have hhead : (m.accepting i).head = m.head := (attach_stays (d := {})).1.head
  subst hm
  obtain ⟨harrive, hsame, -⟩ := arriving_stays (m := m.accepting i) (i := i) (d := d)
  split
  · rename_i hearly
    exact .early hgoes hearly arriving_fst (hsame.trans hd)
  · rename_i hdue
    have hdue := not_lt.mp hdue
    split
    · rename_i hnot
      exact starved_ran rfl hgoes hdue (by simpa using hnot) hd
    · rename_i hready
      have hpos : ((m.accepting i).arriving i d).1.head = m.head := harrive.head.trans hhead
      refine .feeds hgoes hopen hdue (by simpa using hready) ?_ rfl hpos
      dsimp only
      rw [arriving_fst] at hpos ⊢
      rw [hpos]

lemma feed_ran (hgoes : m.state ≠ .ending) (hopen : ¬m.Ends i) (hd : d.action = .none) :
    Ran m i (m.feed i d) := by
  have hacc : ({ (m.attach i d).1 with backedUpSinceMs := 0 } : RelayMachine) = m.accepting i := by
    rw [accepting, attach_fst]
  exact accepting_ran hacc hgoes hopen ((attach_stays (m := m) (i := i) (d := d)).2.1.trans hd)

lemma ran (hd : d.action = .none) : Ran m i (m.running i d) := by
  rw [running]
  split
  · rename_i h
    exact .closes h.2.2 (Or.inl ⟨h.1, h.2.1⟩) rfl rfl
  · rename_i hwithin
    split
    · rename_i h
      split
      · rename_i hgoes
        exact .closes hgoes (Or.inr h) rfl rfl
      · rename_i hending
        exact .draining (not_not.mp hending) rfl hd
    · rename_i hlive
      split
      · rename_i hending
        exact .draining hending rfl hd
      · rename_i hgoes
        split
        · rename_i hdeaf
          exact notTaken_ran hgoes (by simpa using hdeaf) hd
        · have hopen : ¬m.Ends i := by
            rintro (h | h)
            · exact hwithin ⟨h.1, h.2, hgoes⟩
            · exact hlive h
          exact feed_ran hgoes hopen hd

/-! ### The step -/

/-- **The rule of the branches**: what every branch of a step gives, the step gives.  The
branches past the two refusals are taken by the machine after `unblock`. -/
theorem step_rec {P : RelayMachine × RelayDecision → Prop}
    (off : i.operatorWantsRunning = false → P (m.switchedOff i))
    (unsendable : i.operatorWantsRunning = true → i.planOk = false → P (m.unsendable i))
    (dropped : i.operatorWantsRunning = true → i.planOk = true → i.childAlive = false →
      m.connected = true →
      P (m.enter .reconnecting i.nowMs "the connection to the destination dropped",
        { note := "connection lost — reconnecting" }))
    (noContent : i.operatorWantsRunning = true → i.planOk = true → i.roomHasContent = false →
      (i.childAlive = false → m.connected = false) →
      P ((m.unblock i).1.noContent i (m.unblock i).2))
    (restart : i.operatorWantsRunning = true → i.planOk = true → i.roomHasContent = true →
      i.childAlive = false → m.connected = false → ∀ x, Restarted (m.unblock i).1 i x → P x)
    (running : i.operatorWantsRunning = true → i.planOk = true → i.roomHasContent = true →
      i.childAlive = true → ∀ x, Ran (m.unblock i).1 i x → P x) :
    P (m.step i) := by
  have hconn : ((m.unblock i).1.state = .streaming ∨ (m.unblock i).1.state = .stalled ∨
      (m.unblock i).1.state = .awaiting) ↔ m.connected = true := by
    rw [unblock]
    split
    · rename_i h
      simp [connected, h]
    · simp [connected, or_assoc]
  have hsame : m.connected = true → m.unblock i = (m, {}) := by
    intro h
    refine if_neg fun hb => ?_
    simp [connected, hb] at h
  rw [step]
  cases hw : i.operatorWantsRunning with
  | false => exact off hw
  | true =>
      cases hp : i.planOk with
      | false => exact unsendable hw hp
      | true =>
          simp only [Bool.not_true, Bool.false_eq_true, if_false]
          split
          · rename_i h
            simp only [Bool.and_eq_true, Bool.not_eq_true', Bool.or_eq_true, decide_eq_true_eq,
              or_assoc] at h
            have hc := hconn.mp h.2
            rw [hsame hc]
            exact dropped hw hp h.1 hc
          · rename_i h
            have hnot : i.childAlive = false → m.connected = false := by
              intro hdead
              by_contra hc
              refine h ?_
              simp only [Bool.and_eq_true, Bool.not_eq_true', Bool.or_eq_true, decide_eq_true_eq,
                or_assoc]
              exact ⟨hdead, hconn.mpr (by simpa using hc)⟩
            split
            · rename_i hcontent
              exact noContent hw hp (by simpa using hcontent) hnot
            · rename_i hcontent
              cases ha : i.childAlive with
              | false =>
                  exact restart hw hp (by simpa using hcontent) ha (hnot ha) _
                    (restarted unblock_action)
              | true => exact running hw hp (by simpa using hcontent) ha _ (ran unblock_action)

/-- What a destination that is switched off does: it neither starts nor feeds. -/
lemma step_off (hwants : i.operatorWantsRunning = false) :
    ((m.step i).1.headSet = false ∨ (m.step i).1 = m) ∧
      (m.step i).2.action = if i.childAlive then .kill else .none := by
  have hstep : m.step i = m.switchedOff i := by simp [step, hwants]
  rw [hstep, switchedOff]
  split
  · exact ⟨Or.inl rfl, by simp⟩
  · split
    · exact ⟨Or.inl rfl, by simp⟩
    · exact ⟨Or.inr rfl, by simp⟩

/-- A step that feeds or spawns has the destination on, the feed sendable, and a room with
content. -/
lemma step_sends (hact : (m.step i).2.action = .feedSegment ∨ (m.step i).2.action = .spawn) :
    i.operatorWantsRunning = true ∧ i.planOk = true ∧ i.roomHasContent = true ∧
      ((m.connected = false ∧ i.childAlive = false ∧ Restarted (m.unblock i).1 i (m.step i)) ∨
        (i.childAlive = true ∧ Ran (m.unblock i).1 i (m.step i))) := by
  revert hact
  refine @step_rec m i (fun x => x.2.action = .feedSegment ∨ x.2.action = .spawn →
    i.operatorWantsRunning = true ∧ i.planOk = true ∧ i.roomHasContent = true ∧
      ((m.connected = false ∧ i.childAlive = false ∧ Restarted (m.unblock i).1 i x) ∨
        (i.childAlive = true ∧ Ran (m.unblock i).1 i x))) ?_ ?_ ?_ ?_ ?_ ?_
  · intro _ hact
    rw [switchedOff] at hact
    split at hact
    · simp at hact
    · split at hact <;> simp at hact
  · intro _ _ hact
    rw [unsendable] at hact
    split at hact
    · simp at hact
    · split at hact <;> simp at hact
  · intro _ _ _ _ hact
    simp at hact
  · intro _ _ _ _ hact
    have hno := unblock_action (m := m) (i := i)
    rw [noContent] at hact
    split at hact
    · simp at hact
    · split at hact <;> simp [hno] at hact
  · intro hwants hplan hcontent halive hconn x hx _
    exact ⟨hwants, hplan, hcontent, Or.inl ⟨hconn, halive, hx⟩⟩
  · intro hwants hplan hcontent halive x hx _
    exact ⟨hwants, hplan, hcontent, Or.inr ⟨halive, hx⟩⟩

/-- A step that feeds. -/
structure Fed (m : RelayMachine) (i : RelayInput) (x : RelayMachine × RelayDecision) : Prop where
  wants : i.operatorWantsRunning = true
  plan : i.planOk = true
  content : i.roomHasContent = true
  alive : i.childAlive = true
  ready : i.nextSegmentReady = true
  within : ¬m.Ends i
  due : x.1.anchorMs + ((x.2.seq : ℤ) - x.1.anchorSeq) * msOf (relaySegS i.segmentDurationS) ≤
    i.nowMs
  seq : x.2.seq = m.head
  head : x.1.head = m.head + 1
  headSet : x.1.headSet = m.headSet

lemma arriving_anchor : (m.arriving i d).1.anchorMs = m.anchorMs ∧
    (m.arriving i d).1.anchorSeq = m.anchorSeq := by
  simp only [arriving]
  split <;> exact ⟨rfl, rfl⟩

lemma step_feeds (hact : (m.step i).2.action = .feedSegment) : Fed m i (m.step i) := by
  obtain ⟨hwants, hplan, hcontent, ⟨-, -, hx⟩ | ⟨halive, hx⟩⟩ := step_sends (Or.inl hact)
  · cases hx <;> simp_all
  · cases hx with
    | feeds _ hopen hdue hready h _ hseq =>
        obtain ⟨hhead, hset, -⟩ := unblock_frame (m := m) (i := i)
        have hattach := (attach_stays (m := (m.unblock i).1) (i := i) (d := {})).1
        have harrive := (arriving_stays (m := (m.unblock i).1.accepting i) (i := i) (d := {})).1
        have hanchor := arriving_anchor (m := (m.unblock i).1.accepting i) (i := i) (d := {})
        refine ⟨hwants, hplan, hcontent, halive, hready, ?_, ?_, hseq.trans hhead, ?_, ?_⟩
        · rwa [Ends, hhead] at hopen
        · rw [due, show ((m.unblock i).1.accepting i).head = (m.unblock i).1.head from
            hattach.head] at hdue
          rw [h, hseq]
          dsimp only
          rwa [hanchor.1, hanchor.2]
        · rw [h, ← hhead]
        · rw [h]
          exact harrive.headSet.trans (hattach.headSet.trans hset)
    | _ => simp_all

/-- A step that starts a child. -/
structure Spawned (m : RelayMachine) (i : RelayInput) (m' : RelayMachine) : Prop where
  wants : i.operatorWantsRunning = true
  plan : i.planOk = true
  content : i.roomHasContent = true
  dead : i.childAlive = false
  unconnected : m.connected = false
  goes : m.finishing = false
  late : m.retryAtMs ≤ i.nowMs
  init : i.initReady = true
  ready : i.nextSegmentReady = true
  state : m'.state = .streaming
  head : m'.head = (m.takePosition i).head
  headSet : m'.headSet = true
  retryAtMs : m'.retryAtMs = m.retryAtMs
  backoffMs : m'.backoffMs = m.backoffMs
  streamingSinceMs : m'.streamingSinceMs = i.nowMs

lemma step_spawns (hact : (m.step i).2.action = .spawn) : Spawned m i (m.step i).1 := by
  obtain ⟨hwants, hplan, hcontent, ⟨hconn, hdead, hx⟩ | ⟨-, hx⟩⟩ := step_sends (Or.inr hact)
  · cases hx with
    | spawns hgoes hlate hinit hready h _ =>
        obtain ⟨hhead, hset, -, -, hretry, hbackoff, -⟩ := unblock_frame (m := m) (i := i)
        rw [h]
        refine ⟨hwants, hplan, hcontent, hdead, hconn, unblock_finishing ▸ hgoes, hretry ▸ hlate,
          hinit, hready, rfl, ?_, rfl, hretry, hbackoff, rfl⟩
        show ((m.unblock i).1.takePosition i).head = (m.takePosition i).head
        rw [takePosition, takePosition, hhead, hset]
    | _ => simp_all
  · cases hx <;> simp_all

end RelayMachine

end Multisite

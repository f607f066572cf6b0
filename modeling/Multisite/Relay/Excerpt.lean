import Multisite.Storage.Catalog
import Multisite.Relay.Continuity
import Multisite.Relay.Loop

/-!
A rebroadcast between two cues (`Service::start_rebroadcast`, `service.cpp`; `RelayMachine::step`).

* `Excerpting.pass`: where the position of a rebroadcast can be;
* `excerpt_bounds`: unless the out-point is segment 0, a rebroadcast is refused exactly when
  its cues are out of order or missing, and sends what lies between them, from the in-point on;
* `zero_out_point`: segment 0 as an out-point is no out-point.
-/

namespace Multisite

/-! ### The service -/

/-- What `start_rebroadcast` finds: the past events, whether the destination is there, the cues
of the event or why they could not be read, and whether a rebroadcast is running, a feeder is
there, and the destination is at work on the live event. -/
structure ServiceView where
  storageConfigured : Bool := true
  events : List EventSummary := []
  destination : Bool := true
  cues : List Marker := []
  cueError : String := ""
  rebroadcast : Bool := false
  feeder : Bool := true
  wantsContent : Bool := false
  deriving DecidableEq, Repr

namespace ServiceView

variable (v : ServiceView)

/-- `check_event_is_finished`. -/
def checkEventIsFinished (eventId : String) : String :=
  if eventId = "" then "No event was chosen."
  else if !v.storageConfigured then
    "Past events need cloud storage, which this relay does not have configured."
  else
    match v.events.find? (·.eventId = eventId) with
    | none => "That event is no longer in storage."
    | some e =>
        if e.state = .live then "That event is still going out. Wait until it has finished."
        else ""

/-- `resolve`. -/
def resolve (id : String) : Option ℕ := (v.cues.find? (·.id = id)).map (·.seq)

/-- The segments of the chosen cues, 0 where none was chosen. -/
def excerpt (startCue endCue : String) : Except String (ℕ × ℕ) :=
  if startCue = "" ∧ endCue = "" then .ok (0, 0)
  else if v.cueError ≠ "" then .error v.cueError
  else
    match if startCue = "" then some 0 else v.resolve startCue with
    | none => .error "That in-point cue is no longer in the event."
    | some startSeq =>
        match if endCue = "" then some 0 else v.resolve endCue with
        | none => .error "That out-point cue is no longer in the event."
        | some endSeq =>
            if 0 < startSeq ∧ 0 < endSeq ∧ endSeq < startSeq then
              .error "The in-point is after the out-point."
            else .ok (startSeq, endSeq)

/-- `start_rebroadcast`: what it says, or the session it starts. -/
def startRebroadcast (eventId startCue endCue : String) : Except String RelayTask :=
  if v.checkEventIsFinished eventId ≠ "" then .error (v.checkEventIsFinished eventId)
  else if !v.destination then .error "That destination no longer exists."
  else
    match v.excerpt startCue endCue with
    | .error problem => .error problem
    | .ok (startSeq, endSeq) =>
        if v.rebroadcast then .error "A rebroadcast is already running."
        else if !v.feeder then .error "Storage has not been set up yet."
        else if v.wantsContent then
          .error "That destination is already sending the live event. Stop it first."
        else .ok { fromBeginning := true, startSeq, endSeq }

/-- Nothing but its cues can refuse a rebroadcast of this event. -/
def Open (eventId : String) : Prop :=
  v.checkEventIsFinished eventId = "" ∧ v.destination = true ∧ v.cueError = "" ∧
    v.rebroadcast = false ∧ v.feeder = true ∧ v.wantsContent = false

/-- The segment of a chosen cue. -/
def cue (id : String) : Option ℕ := if id = "" then none else v.resolve id

/-- A cue was chosen that the event does not have. -/
def Missing (id : String) : Prop := id ≠ "" ∧ v.resolve id = none

end ServiceView

/-! ### Its position -/

/-- The largest floor the position was taken up from, and what was fed since. -/
structure Excerpted where
  floor : ℕ := 0
  fed : List ℕ := []
  deriving DecidableEq, Repr

/-- The notes after a pass. -/
def Excerpted.note (k : RelayTask) (l : RelayLoop) (p : RelayPass) (n : Excerpted) : Excerpted :=
  let i := (l.childExits p.exited).input k p
  if p.edited then n
  else if l.machine.resumes i then
    { floor := if l.machine.headSet then max n.floor i.firstAvailableSeq else i.firstAvailableSeq
      fed := if l.machine.headSet then n.fed else [] }
  else if (l.decision k p).action = .feedSegment then { n with fed := (l.decision k p).seq :: n.fed }
  else n

/-- Where the position is, and that a child runs only where there is one. -/
structure Excerpting (k : RelayTask) (l : RelayLoop) (n : Excerpted) : Prop where
  head : l.machine.headSet = true → max k.startSeq n.floor ≤ l.machine.head
  first : l.machine.headSet = true → n.fed = [] → l.machine.head = max k.startSeq n.floor
  child : l.child = some true → l.machine.headSet = true

section Passes

variable {k : RelayTask} {l : RelayLoop} {n : Excerpted} {p : RelayPass}

/-- The segments a rebroadcast feeds. -/
lemma Excerpting.feeds (h : Excerpting k l n) (hact : (l.decision k p).action = .feedSegment) :
    p.edited = false ∧ RelayMachine.Fed l.machine ((l.childExits p.exited).input k p)
      (l.machine.step ((l.childExits p.exited).input k p)) ∧
    (l.decision k p).seq = l.machine.head ∧ l.machine.headSet = true := by
  cases hedited : p.edited with
  | true => simp [RelayLoop.decision, hedited] at hact
  | false =>
      have hdecision : l.decision k p = (l.machine.step ((l.childExits p.exited).input k p)).2 := by
        simp [RelayLoop.decision, hedited]
      rw [hdecision] at hact ⊢
      have hfed := RelayMachine.step_feeds hact
      exact ⟨rfl, hfed, hfed.seq, h.child (RelayLoop.childAlive_iff.mp hfed.alive).1⟩

/-- **A pass keeps the position in the excerpt.** -/
lemma Excerpting.pass (hk : k.fromBeginning = true) (h : Excerpting k l n) :
    Excerpting k (l.pass k p) (Excerpted.note k l p n) := by
  cases hedited : p.edited with
  | true =>
      have hset : (l.pass k p).machine.headSet = false := by
        simp [RelayLoop.pass, hedited, RelayMachine.reconfigured]
      have hchild : (l.pass k p).child = none := by simp [RelayLoop.pass, hedited]
      exact ⟨by simp [hset], by simp [hset], by simp [hchild]⟩
  | false =>
      obtain ⟨hhead, hset⟩ := RelayLoop.pass_place (l := l) (k := k) hedited
      have hdecision : l.decision k p = (l.machine.step ((l.childExits p.exited).input k p)).2 := by
        simp [RelayLoop.decision, hedited]
      have hbeginning : ((l.childExits p.exited).input k p).fromBeginning = true := hk
      have halive := RelayLoop.pass_alive (k := k) (p := p) (l := l)
      rw [hdecision] at halive
      simp only [Excerpted.note, hedited, Bool.false_eq_true, if_false, hdecision]
      have hstart : ((l.childExits p.exited).input k p).startSeq = k.startSeq := rfl
      generalize (l.childExits p.exited).input k p = i at *
      have hstill : l.machine.repositions i = false := by
        simp [RelayMachine.repositions, hbeginning]
      cases hwants : i.operatorWantsRunning with
      | false =>
          obtain ⟨hoff, hact⟩ := RelayMachine.step_off (m := l.machine) hwants
          have hno : l.machine.resumes i = false := by simp [RelayMachine.resumes, hwants]
          have hfeed : (l.machine.step i).2.action ≠ .feedSegment := by
            rw [hact]
            split <;> simp
          have hspawn : (l.machine.step i).2.action ≠ .spawn := by
            rw [hact]
            split <;> simp
          simp only [hno, Bool.false_eq_true, if_false, hfeed]
          refine ⟨fun hs => ?_, fun hs => ?_, fun hc => ?_⟩
          · rcases hoff with hoff | hoff
            · simp [hset, hoff] at hs
            · rw [hhead, hoff]
              exact h.head (by rwa [hset, hoff] at hs)
          · rcases hoff with hoff | hoff
            · simp [hset, hoff] at hs
            · rw [hhead, hoff]
              exact h.first (by rwa [hset, hoff] at hs)
          · obtain ⟨-, hc | ⟨hrun, -, hkill⟩⟩ := halive hc
            · exact absurd hc hspawn
            · simp [hact, hrun] at hkill
      | true =>
          by_cases hfeed : (l.machine.step i).2.action = .feedSegment
          · have hfed := RelayMachine.step_feeds hfeed
            have hno : l.machine.resumes i = false := by simp [RelayMachine.resumes, hfed.alive]
            simp only [hno, Bool.false_eq_true, if_false, hfeed, if_true]
            refine ⟨fun hs => ?_, fun _ hnil => by simp at hnil, fun hc => ?_⟩
            · have hle := h.head (by rwa [hset, hfed.headSet] at hs)
              rw [hhead, hfed.head]
              dsimp only
              omega
            · obtain ⟨-, hc | ⟨-, hl, -⟩⟩ := halive hc
              · simp [hfeed] at hc
              · rw [hset, hfed.headSet]
                exact h.child hl
          · have hplace := RelayMachine.step_place hwants hstill hfeed
            have hchild : (l.pass k p).child = some true → (l.pass k p).machine.headSet = true := by
              intro hc
              rw [hset]
              obtain ⟨-, hc | ⟨-, hl, -⟩⟩ := halive hc
              · exact (RelayMachine.step_spawns hc).headSet
              · rw [hplace.headSet, h.child hl, Bool.or_true]
            simp only [hfeed, if_false]
            cases htaken : l.machine.resumes i with
            | false =>
                simp only [htaken, Bool.false_eq_true, if_false] at hplace ⊢
                obtain ⟨hset', hhead'⟩ := hplace
                refine ⟨fun hs => ?_, fun hs => ?_, hchild⟩
                · rw [hhead, hhead']
                  exact h.head (by rwa [hset, hset'] at hs)
                · rw [hhead, hhead']
                  exact h.first (by rwa [hset, hset'] at hs)
            | true =>
                have hhead' := hhead.trans hplace.head
                rw [htaken, if_pos rfl, RelayMachine.takePosition, hbeginning, hstart] at hhead'
                dsimp only at hhead'
                simp only [if_true]
                cases hold : l.machine.headSet with
                | false =>
                    simp only [hold, Bool.false_eq_true, if_false, if_true] at hhead' ⊢
                    exact ⟨fun _ => hhead'.ge, fun _ _ => hhead', hchild⟩
                | true =>
                    simp only [hold, if_true] at hhead' ⊢
                    have hle := h.head hold
                    refine ⟨fun _ => ?_, fun _ hnil => ?_, hchild⟩
                    · rw [hhead']
                      dsimp only
                      omega
                    · have heq := h.first hold hnil
                      rw [hhead', heq]
                      dsimp only
                      omega

end Passes

/-! ### The statement -/

/-- Where the out-point is segment 0, the event is over, and that is its last segment. -/
def RelayPass.fits (o : Option ℕ) (p : RelayPass) : Prop :=
  o = some 0 → p.snap.latestSeq = 0 ∧ p.snap.room ≠ .live

instance (o : Option ℕ) (p : RelayPass) : Decidable (p.fits o) :=
  inferInstanceAs (Decidable (_ → _))

namespace ServiceView

variable {v : ServiceView} {eventId startCue endCue : String}

/-- What the service makes of a choice: its segment, 0 where nothing was chosen. -/
lemma resolve_choice (id : String) :
    (if id = "" then some 0 else v.resolve id) = none ∧ v.Missing id ∨
      (if id = "" then some 0 else v.resolve id) = some ((v.cue id).getD 0) ∧ ¬v.Missing id := by
  by_cases hid : id = ""
  · exact Or.inr ⟨by simp [hid, cue], fun h => h.1 hid⟩
  · cases h : v.resolve id with
    | none => exact Or.inl ⟨by simp [hid], hid, h⟩
    | some seq => exact Or.inr ⟨by simp [hid, cue, h], fun hm => by simp [hm.2] at h⟩

lemma excerpt_ok {s e : ℕ} (h : v.excerpt startCue endCue = .ok (s, e)) :
    s = (v.cue startCue).getD 0 ∧ e = (v.cue endCue).getD 0 := by
  rw [excerpt] at h
  split at h
  · rename_i hnone
    simp only [Except.ok.injEq, Prod.mk.injEq] at h
    simp [cue, hnone, ← h]
  · split at h
    · simp at h
    · rcases v.resolve_choice startCue with ⟨hs, -⟩ | ⟨hs, -⟩
      · simp [hs] at h
      · rcases v.resolve_choice endCue with ⟨he, -⟩ | ⟨he, -⟩
        · simp [hs, he] at h
        · simp only [hs, he] at h
          split at h
          · simp at h
          · simp only [Except.ok.injEq, Prod.mk.injEq] at h
            exact ⟨h.1.symm, h.2.symm⟩

/-- What refuses an excerpt: a cue that is missing, or cues out of order of which neither is at
segment 0. -/
lemma excerpt_error (hcues : v.cueError = "") :
    (∃ problem, v.excerpt startCue endCue = .error problem) ↔
      v.Missing startCue ∨ v.Missing endCue ∨
      ∃ i o, v.cue startCue = some i ∧ v.cue endCue = some o ∧ 0 < o ∧ o < i := by
  have hchosen : (0 < (v.cue startCue).getD 0 ∧ 0 < (v.cue endCue).getD 0 ∧
      (v.cue endCue).getD 0 < (v.cue startCue).getD 0) ↔
      ∃ i o, v.cue startCue = some i ∧ v.cue endCue = some o ∧ 0 < o ∧ o < i := by
    cases v.cue startCue <;> cases v.cue endCue <;> simp
    omega
  rw [excerpt]
  by_cases hnone : startCue = "" ∧ endCue = ""
  · simp [hnone, cue, Missing]
  · rw [if_neg hnone, if_neg (by simp [hcues])]
    rcases v.resolve_choice startCue with ⟨hs, hmissing⟩ | ⟨hs, hthere⟩
    · simp [hs, hmissing]
    · rcases v.resolve_choice endCue with ⟨he, hmissing⟩ | ⟨he, hthere'⟩
      · simp [hs, he, hmissing]
      · simp only [hs, he, hthere, hthere', false_or]
        rw [← hchosen]
        split
        · rename_i h
          simp [h]
        · rename_i h
          simp [h]

lemma start_ok {k : RelayTask} (h : v.startRebroadcast eventId startCue endCue = .ok k) :
    k.fromBeginning = true ∧ k.startSeq = (v.cue startCue).getD 0 ∧
      k.endSeq = (v.cue endCue).getD 0 := by
  rw [startRebroadcast] at h
  split at h
  · simp at h
  · split at h
    · simp at h
    · cases hcues : v.excerpt startCue endCue with
      | error problem => simp [hcues] at h
      | ok found =>
          obtain ⟨s, e⟩ := found
          obtain ⟨hs, he⟩ := excerpt_ok hcues
          simp only [hcues] at h
          split at h
          · simp at h
          · split at h
            · simp at h
            · split at h
              · simp at h
              · rw [Except.ok.injEq] at h
                rw [← h, ← hs, ← he]
                exact ⟨rfl, rfl, rfl⟩

lemma start_error (hopen : v.Open eventId) :
    (∃ problem, v.startRebroadcast eventId startCue endCue = .error problem) ↔
      ∃ problem, v.excerpt startCue endCue = .error problem := by
  obtain ⟨hfinished, hdest, -, hrunning, hfeeder, hwants⟩ := hopen
  rw [startRebroadcast, if_neg (by simp [hfinished]), hdest, hrunning, hfeeder, hwants]
  cases v.excerpt startCue endCue <;> simp

end ServiceView

/-- **An excerpt is its cues.**  Where nothing else refuses it, a rebroadcast is refused exactly
when a cue is missing or the cues are out of order, unless the out-point is segment 0 and the
in-point is not.  In every run of the session it starts, where the out-point is not segment 0 or
the event has no other, a segment fed is no earlier than the in-point and the floor the position
was taken up from, and no later than the out-point, and these are where feeding starts. -/
theorem excerpt_bounds (v : ServiceView) (eventId startCue endCue : String) :
    (v.Open eventId →
      (((∃ problem, v.startRebroadcast eventId startCue endCue = .error problem) ↔
          v.Missing startCue ∨ v.Missing endCue ∨
          ∃ i o, v.cue startCue = some i ∧ v.cue endCue = some o ∧ o < i) ↔
        ¬∃ i, v.cue startCue = some i ∧ 0 < i ∧ v.cue endCue = some 0)) ∧
    ∀ k, v.startRebroadcast eventId startCue endCue = .ok k →
      ∀ x : RelayLoop × Excerpted,
        Lib.Reach (Lib.noted (fun l p => some (l.pass k p)) (Excerpted.note k))
          (fun _ p => p.fits (v.cue endCue)) (· = ({}, {})) x →
        ∀ p, p.fits (v.cue endCue) → (x.1.decision k p).action = .feedSegment →
          max ((v.cue startCue).getD 0) x.2.floor ≤ (x.1.decision k p).seq ∧
          (∀ o, v.cue endCue = some o → (x.1.decision k p).seq ≤ o) ∧
          (x.2.fed = [] →
            (x.1.decision k p).seq = max ((v.cue startCue).getD 0) x.2.floor) := by
  refine ⟨fun hopen => ?_, fun k hk x hx p hp hact => ?_⟩
  · rw [ServiceView.start_error hopen, ServiceView.excerpt_error hopen.2.2.1]
    constructor
    · rintro h ⟨i, hi, hpos, ho⟩
      have hout := h.mpr (Or.inr (Or.inr ⟨i, 0, hi, ho, hpos⟩))
      rcases hout with ⟨hid, hm⟩ | ⟨hid, hm⟩ | ⟨i', o', -, ho', hlt, -⟩
      · simp [ServiceView.cue, hid, hm] at hi
      · simp [ServiceView.cue, hid, hm] at ho
      · rw [ho, Option.some.injEq] at ho'
        omega
    · intro hnot
      refine or_congr_right (or_congr_right ⟨?_, ?_⟩)
      · rintro ⟨i, o, hi, ho, -, hlt⟩
        exact ⟨i, o, hi, ho, hlt⟩
      · rintro ⟨i, o, hi, ho, hlt⟩
        refine ⟨i, o, hi, ho, Nat.pos_of_ne_zero fun h0 => hnot ⟨i, hi, by omega, h0 ▸ ho⟩, hlt⟩
  · obtain ⟨hbeginning, hstart, hend⟩ := ServiceView.start_ok hk
    have hinv : Excerpting k x.1 x.2 := by
      refine Lib.Reach.invariant (I := fun x => Excerpting k x.1 x.2) ?_ ?_ hx
      · rintro _ rfl
        exact ⟨by simp, by simp, by simp⟩
      · rintro x p y h - hy
        obtain ⟨hstep, hn⟩ := Lib.noted_eq_some.mp hy
        rw [hn, ← Option.some.inj hstep]
        exact h.pass hbeginning
    obtain ⟨-, hfed, hseq, hset⟩ := hinv.feeds hact
    rw [hseq, ← hstart]
    refine ⟨hinv.head hset, fun o ho => ?_, hinv.first hset⟩
    have hwithin := hfed.within
    simp only [RelayMachine.Ends, RelayLoop.input, RelayLoop.childExits, not_or, not_and, not_lt,
      hend, ho, Option.getD_some] at hwithin
    rcases Nat.eq_zero_or_pos o with rfl | hpos
    · obtain ⟨hlatest, hlive⟩ := hp ho
      have hcontent := hfed.content
      simp only [RelayInput.roomHasContent, RelayLoop.input, Bool.or_eq_true] at hcontent
      by_contra hlt
      obtain ⟨hended, hinterrupted⟩ := hwithin.2 (by omega)
      rcases hcontent with (hroom | hroom) | hroom
      · exact hlive (of_decide_eq_true hroom)
      · exact hended (of_decide_eq_true hroom)
      · exact hinterrupted (of_decide_eq_true hroom)
    · exact hwithin.1 hpos

/-- A past event of ten segments, with cues at these. -/
def pastEvent (start finish : ℕ) : ServiceView :=
  { events := [{ eventId := "e1", state := .recording }]
    cues := [{ seq := start, id := "in" }, { seq := finish, id := "out" }] }

/-- A pass of its rebroadcast, with everything in the cache. -/
def pastPass (nowMs : ℤ) : RelayPass :=
  { nowMs
    snap := { room := .ended, eventId := "e1", haveEventInfo := true, latestSeq := 9 }
    cached := Finset.range 10 }

/-- An excerpt from segment 5 to segment 7, at its first segment; the other way round it is
refused. -/
theorem excerpt_bounds_middle :
    ∃ x, Lib.Reach (Lib.noted (fun l p => some (RelayLoop.pass ⟨true, 5, 7⟩ p l))
        (Excerpted.note ⟨true, 5, 7⟩)) (fun _ p => p.fits (some 7)) (· = ({}, {})) x ∧
      (x.1.decision ⟨true, 5, 7⟩ (pastPass 50)).seq = 5 ∧
      max 5 x.2.floor ≤ (x.1.decision ⟨true, 5, 7⟩ (pastPass 50)).seq ∧
      (pastEvent 5 7).startRebroadcast "e1" "in" "out" = .ok ⟨true, 5, 7⟩ ∧
      ∃ problem, (pastEvent 7 5).startRebroadcast "e1" "in" "out" = .error problem := by
  have hopen : (pastEvent 7 5).Open "e1" := ⟨by decide +kernel, rfl, rfl, rfl, rfl, rfl⟩
  have hrefused := (excerpt_bounds (pastEvent 7 5) "e1" "in" "out").1 hopen
  have hcues : (pastEvent 7 5).cue "in" = some 7 ∧ (pastEvent 7 5).cue "out" = some 5 := by
    decide +kernel
  have hstart : (pastEvent 5 7).startRebroadcast "e1" "in" "out" = .ok ⟨true, 5, 7⟩ := by
    decide +kernel
  obtain ⟨x, hx, hact, hseq⟩ : ∃ x, Lib.Reach
      (Lib.noted (fun l p => some (RelayLoop.pass ⟨true, 5, 7⟩ p l))
        (Excerpted.note ⟨true, 5, 7⟩)) (fun _ p => p.fits (some 7)) (· = ({}, {})) x ∧
      (x.1.decision ⟨true, 5, 7⟩ (pastPass 50)).action = .feedSegment ∧
      (x.1.decision ⟨true, 5, 7⟩ (pastPass 50)).seq = 5 :=
    Lib.exists_reach_guarded ({}, {}) [pastPass 0] rfl (by decide +kernel)
  refine ⟨x, hx, hseq, ((excerpt_bounds (pastEvent 5 7) "e1" "in" "out").2 _ hstart x hx
    (pastPass 50) (by decide +kernel) hact).1, hstart, ?_⟩
  refine (hrefused.mpr ?_).mpr (Or.inr (Or.inr ⟨7, 5, hcues.1, hcues.2, by decide⟩))
  rintro ⟨i, -, -, hout⟩
  simp [hcues.2] at hout

/-- **Segment 0 is no out-point**: an excerpt that ends with it sends segment 1, and one from
segment 5 to it is not refused. -/
theorem zero_out_point :
    (pastEvent 0 0).startRebroadcast "e1" "" "out" = .ok ⟨true, 0, 0⟩ ∧
    (pastEvent 0 0).cue "out" = some 0 ∧
    (∃ x, Lib.Reach (fun l p => some (RelayLoop.pass ⟨true, 0, 0⟩ p l)) Lib.anyStep
        (· = {}) x ∧
      (x.decision ⟨true, 0, 0⟩ (pastPass 6000)).action = .feedSegment ∧
      (x.decision ⟨true, 0, 0⟩ (pastPass 6000)).seq = 1) ∧
    (pastEvent 5 0).Open "e1" ∧ (pastEvent 5 0).cue "in" = some 5 ∧
    (pastEvent 5 0).cue "out" = some 0 ∧
    (pastEvent 5 0).startRebroadcast "e1" "in" "out" = .ok ⟨true, 5, 0⟩ := by
  refine ⟨by decide +kernel, by decide +kernel, ?_, ⟨by decide +kernel, rfl, rfl, rfl, rfl, rfl⟩,
    by decide +kernel, by decide +kernel, by decide +kernel⟩
  exact Lib.exists_reach {} [pastPass 0, pastPass 50] rfl (by decide +kernel)

end Multisite

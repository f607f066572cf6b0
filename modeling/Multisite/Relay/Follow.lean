import Multisite.Decoder.Hold
import Multisite.Decoder.Switch
import Multisite.Relay.Feeder
import Multisite.Relay.Finished

/-!
A relay follows its room from one event to the next (`RoomFeeder::run`, `RelayMachine::step`).

An event change is one of the session's; the machine's position, the feeder's last reader
and the hold of a finished event outlive it.

* `relay_follows`: where the room moves on before an event was found ended and before the
  destination had a position in it, the session goes along, and the destination's position,
  the feeder's window and the first segment fed are the new event's own;
* `relay_lingers`: once segments of one event went out, the next is entered at the old
  event's position.
-/

namespace Multisite

open DecoderSession RelayMachine

/-! ### The position of a destination -/

/-- The feed can be sent, and there is something to send. -/
def RelayInput.sendable (i : RelayInput) : Bool := i.planOk && i.roomHasContent

namespace RelayMachine

/-- What a step of an enabled live destination can do to its position. -/
inductive Placed (m : RelayMachine) (i : RelayInput) (m' : RelayMachine) (d : RelayDecision) :
    Prop
  | keeps (hhead : m'.head = m.head) (hset : m'.headSet = m.headSet) (hspawn : d.action ≠ .spawn)
      (hfeed : d.action ≠ .feedSegment)
  /-- The position is taken up, or resumed. -/
  | takes (hsend : i.sendable = true) (hhead : m'.head = (m.takePosition i).head)
      (hset : m'.headSet = true) (hfeed : d.action ≠ .feedSegment)
  /-- The position is taken up again while nothing is attached. -/
  | awaits (hsend : i.sendable = true) (halive : i.childAlive = true)
      (hhead : m'.head = i.behindLive) (hset : m'.headSet = m.headSet)
      (hspawn : d.action ≠ .spawn) (hfeed : d.action ≠ .feedSegment)
  | feeds (halive : i.childAlive = true) (hhead : m'.head = m.head + 1)
      (hset : m'.headSet = m.headSet) (hact : d.action = .feedSegment) (hseq : d.seq = m.head)

section Placed

variable {m m₁ : RelayMachine} {i : RelayInput} {d : RelayDecision}

lemma Stays.placed (h : Stays m m₁) (hspawn : d.action ≠ .spawn) (hfeed : d.action ≠ .feedSegment) :
    Placed m i m₁ d := .keeps h.head h.headSet hspawn hfeed

lemma feed_placed (halive : i.childAlive = true) (hd : d.action = .none) :
    Placed m i (m.feed i d).1 (m.feed i d).2 := by
  obtain ⟨hstay, hact, -⟩ := attach_stays (m := m) (i := i) (d := d)
  rw [feed]
  generalize m.attach i d = x at hstay hact
  obtain ⟨m₁, d₁⟩ := x
  have hd₁ : d₁.action = .none := hact.trans hd
  have hstay₁ : Stays m { m₁ with backedUpSinceMs := 0 } := ⟨hstay.state, hstay.head, hstay.headSet⟩
  dsimp only
  split
  · obtain ⟨hs, ha, -⟩ := arriving_stays (m := { m₁ with backedUpSinceMs := 0 }) (i := i) (d := d₁)
    exact (hstay₁.trans hs).placed (by simp [ha, hd₁]) (by simp [ha, hd₁])
  · split
    · obtain ⟨hs, ha⟩ := starved_stays (m := { m₁ with backedUpSinceMs := 0 }) (i := i) hd₁
      rcases ha with ha | ⟨ha, -⟩
      · exact (hstay₁.trans hs).placed (by simp [ha]) (by simp [ha])
      · exact (hstay₁.trans hs).placed (by simp [ha]) (by simp [ha])
    · have hs := (arriving_stays (m := { m₁ with backedUpSinceMs := 0 }) (i := i) (d := d₁)).1
      generalize ({ m₁ with backedUpSinceMs := 0 } : RelayMachine).arriving i d₁ = y at hs
      have hs := hstay₁.trans hs
      exact .feeds halive (congrArg (· + 1) hs.head) hs.headSet rfl hs.head

lemma notTaken_placed (hsend : i.sendable = true) (halive : i.childAlive = true)
    (hlive : i.fromBeginning = false) (hd : d.action = .none) :
    Placed m i (m.notTaken i d).1 (m.notTaken i d).2 := by
  rw [notTaken]
  split
  · refine .awaits hsend halive (by simp [hlive]) ?_ (by simp [hd]) (by simp [hd])
    dsimp only
    split <;> rfl
  · generalize (if m.backedUpSinceMs = 0 then i.nowMs else m.backedUpSinceMs) = since
    dsimp only
    split
    · exact .keeps rfl rfl (by simp) (by simp)
    · exact .keeps rfl rfl (by simp [hd]) (by simp [hd])

lemma running_placed (hsend : i.sendable = true) (halive : i.childAlive = true)
    (hlive : i.fromBeginning = false) (hd : d.action = .none) :
    Placed m i (m.running i d).1 (m.running i d).2 := by
  rw [running]
  split
  · exact .keeps rfl rfl (by simp) (by simp)
  · split
    · split
      · exact .keeps rfl rfl (by simp) (by simp)
      · exact .keeps rfl rfl (by simp [hd]) (by simp [hd])
    · split
      · exact .keeps rfl rfl (by simp [hd]) (by simp [hd])
      · split
        · exact notTaken_placed hsend halive hlive hd
        · exact feed_placed halive hd

lemma restart_placed (hsend : i.sendable = true) (hd : d.action = .none) :
    Placed m i (m.restart i d).1 (m.restart i d).2 := by
  rw [restart]
  split
  · exact .keeps rfl rfl (by simp [hd]) (by simp [hd])
  · split
    · exact .keeps rfl rfl (by simp [hd]) (by simp [hd])
    · dsimp only
      split
      · exact .takes hsend rfl rfl (by simp [hd])
      · split
        · split
          · exact .takes hsend rfl rfl (by simp [hd])
          · exact .takes hsend rfl rfl (by simp [hd])
        · exact .takes hsend rfl rfl (by simp)

lemma noContent_placed (hd : d.action = .none) :
    Placed m i (m.noContent i d).1 (m.noContent i d).2 := by
  rw [noContent]
  split
  · exact .keeps rfl rfl (by simp) (by simp)
  · split
    · exact .keeps rfl rfl (by simp [hd]) (by simp [hd])
    · exact .keeps rfl rfl (by simp [hd]) (by simp [hd])

/-- What is put right before the step leaves the position alone. -/
lemma Placed.of_same (hhead : m₁.head = m.head) (hset : m₁.headSet = m.headSet) {m' : RelayMachine}
    (h : Placed m₁ i m' d) : Placed m i m' d := by
  cases h with
  | keeps h1 h2 h3 h4 => exact .keeps (h1.trans hhead) (h2.trans hset) h3 h4
  | takes h1 h2 h3 h4 =>
      refine .takes h1 (h2.trans ?_) h3 h4
      rw [takePosition, takePosition, hhead, hset]
  | awaits h1 h2 h3 h4 h5 h6 => exact .awaits h1 h2 h3 (h4.trans hset) h5 h6
  | feeds h1 h2 h3 h4 h5 =>
      exact .feeds h1 (h2.trans (congrArg (· + 1) hhead)) (h3.trans hset) h4 (h5.trans hhead)

/-- **What a step does to the position** of an enabled live destination. -/
lemma step_placed (hwants : i.operatorWantsRunning = true) (hlive : i.fromBeginning = false) :
    Placed m i (m.step i).1 (m.step i).2 := by
  simp only [step, hwants, Bool.not_true, Bool.false_eq_true, if_false]
  split
  · rw [unsendable]
    split
    · exact .keeps rfl rfl (by simp) (by simp)
    · split
      · exact .keeps rfl rfl (by simp) (by simp)
      · exact .keeps rfl rfl (by simp) (by simp)
  · rename_i hplan
    have hunblock : (m.unblock i).1.head = m.head ∧ (m.unblock i).1.headSet = m.headSet ∧
        (m.unblock i).2.action = .none := by
      rw [unblock]
      split
      · exact ⟨rfl, rfl, rfl⟩
      · exact ⟨rfl, rfl, rfl⟩
    obtain ⟨hhead, hset, hd⟩ := hunblock
    refine Placed.of_same hhead hset ?_
    split
    · exact .keeps rfl rfl (by simp [hd]) (by simp [hd])
    · split
      · exact noContent_placed hd
      · rename_i hcontent
        have hsend : i.sendable = true := by
          simp only [Bool.not_eq_true, Bool.not_eq_false'] at hplan hcontent
          rw [RelayInput.sendable, hplan, hcontent]
          rfl
        split
        · exact restart_placed hsend hd
        · rename_i halive
          exact running_placed hsend (by simpa using halive) hlive hd

end Placed

end RelayMachine

/-! ### The session under a feeder -/

/-- The session of an unpinned feeder: what is pinned is an event that was found ended. -/
structure Holding (s : DecoderSession) : Prop where
  cache : s.CacheOn
  pinned : s.pinnedEventId ≠ "" → s.eventId = s.pinnedEventId ∧ s.endHoldDone = true
  asked : ∀ now pinned, s.net = .pollingLive now pinned → pinned = s.pinnedEventId
  event : ∀ now live id needMarkers, s.net = .pollingEvent now live id needMarkers →
    s.eventId ≠ ""

section Session

variable {cfg : DecoderConfig} {s t : DecoderSession} {a : DecoderAction}

lemma Holding.of_other (h : Holding s) (ha : a.isLatch = false) (ht : Steps cfg s a t) :
    Holding t := by
  have hlatch := latch_of_other ht ha
  have hevent : t.eventId = s.eventId := congrArg Latch.eventId hlatch
  have hpin : t.pinnedEventId = s.pinnedEventId := congrArg Latch.pinnedEventId hlatch
  have hdone : t.endHoldDone = s.endHoldDone := congrArg Latch.endHoldDone hlatch
  obtain ⟨hlive, hnet⟩ := polling_of_other ht ha
  refine ⟨h.cache.step ht, ?_, fun now pinned hpc => ?_, fun now live id need hpc => ?_⟩
  · rw [hpin, hevent, hdone]
    exact h.pinned
  · rw [hpin]
    rcases hlive now pinned hpc with hsame | hpinned
    · exact h.asked now pinned (hsame.symm.trans hpc)
    · exact hpinned
  · rw [hevent]
    exact h.event _ _ _ _ ((hnet _ _ _ _ hpc).symm.trans hpc)

/-- A poll of a session that holds an event finds no other. -/
lemma Holding.changes {r : Reply (Option LivePointer)} (h : Holding s)
    (hc : s.changesEvent r = true) :
    s.pinnedEventId = "" ∧ (readLive r).1.eventId ≠ "" ∧ (readLive r).1.eventId ≠ s.eventId := by
  rw [changesEvent] at hc
  split at hc
  · rename_i now pinned hpc
    obtain rfl := h.asked now pinned hpc
    simp only [Bool.and_eq_true, decide_eq_true_eq] at hc
    by_cases hp : s.pinnedEventId = ""
    · rw [pollTarget, if_pos hp] at hc
      exact ⟨hp, hc.1, hc.2⟩
    · rw [pollTarget, if_neg hp] at hc
      exact absurd (h.pinned hp).1.symm hc.2
  · exact absurd hc (by simp)

lemma Holding.pollLive {r : Reply (Option LivePointer)} (h : Holding s)
    (ht : Steps cfg s (.readLive r) t) : Holding t := by
  have hcache := h.cache.step ht
  cases ht with
  | @readLive now pinned _ hpc =>
      have hlatch := latch_pollLive (r := r) hpc
      obtain ⟨hlive, hevent⟩ := polling_pollLive s now pinned r
      refine ⟨hcache, ?_, fun _ _ hn => absurd hn (hlive _ _), hevent⟩
      have hpin : (s.pollLive now pinned r).pinnedEventId = s.pinnedEventId := by
        have := congrArg Latch.pinnedEventId hlatch
        split at this <;> exact this
      rw [hpin]
      intro hp
      split at hlatch
      · rename_i hc
        exact absurd (h.changes hc).1 hp
      · have h1 : (s.pollLive now pinned r).eventId = s.eventId := congrArg Latch.eventId hlatch
        have h2 : (s.pollLive now pinned r).endHoldDone = s.endHoldDone :=
          congrArg Latch.endHoldDone hlatch
        rw [h1, h2]
        exact h.pinned hp

lemma Holding.pollEvent {r : PollReplies} (hcfg : cfg.holdFinishedEvent = true) (h : Holding s)
    (ht : Steps cfg s (.readEvent r) t) : Holding t := by
  have hcache := h.cache.step ht
  cases ht with
  | @readEvent now live id needMarkers _ hpc =>
      have hne := h.event _ _ _ _ hpc
      have hlatch := latch_pollEvent (r := r) hcfg hpc hne
      have hidle := (pollEvent_frame cfg s now live needMarkers r).1
      have h1 : (s.pollEvent cfg now live needMarkers r).eventId = s.eventId :=
        (pollEvent_frame cfg s now live needMarkers r).2.2.1
      refine ⟨hcache, ?_, by simp [hidle], by simp [hidle]⟩
      rw [h1]
      split at hlatch
      · rw [show (s.pollEvent cfg now live needMarkers r).pinnedEventId = _ from
            congrArg Latch.pinnedEventId hlatch,
          show (s.pollEvent cfg now live needMarkers r).endHoldDone = _ from
            congrArg Latch.endHoldDone hlatch]
        dsimp only [latch]
        split
        · exact fun _ => ⟨rfl, rfl⟩
        · exact fun hp => ⟨(h.pinned hp).1, rfl⟩
      · rw [show (s.pollEvent cfg now live needMarkers r).pinnedEventId = _ from
            congrArg Latch.pinnedEventId hlatch,
          show (s.pollEvent cfg now live needMarkers r).endHoldDone = _ from
            congrArg Latch.endHoldDone hlatch]
        exact h.pinned

/-- **A step that is no choice of an event keeps the hold.** -/
lemma Holding.step (hcfg : cfg.holdFinishedEvent = true) (h : Holding s) (hpin : a.isPin = false)
    (ht : Steps cfg s a t) : Holding t := by
  cases ha : a.isLatch with
  | false => exact h.of_other ha ht
  | true =>
      cases a with
      | readLive r => exact h.pollLive ht
      | readEvent r => exact h.pollEvent hcfg ht
      | pinEvent => exact absurd hpin (by simp [DecoderAction.isPin])
      | unpin => exact absurd hpin (by simp [DecoderAction.isPin])
      | _ => exact absurd ha (by simp [DecoderAction.isLatch])

lemma Holding.ne_of_readEvent {r : PollReplies} (h : Holding s)
    (ht : Steps cfg s (.readEvent r) t) : s.eventId ≠ "" := by
  cases ht with
  | readEvent hpc => exact h.event _ _ _ _ hpc

/-- The reading of `live.json`: the event named is loaded anew, the head taken away; or the
event stays, being the one named where nothing is held. -/
lemma Holding.readLive {r : Reply (Option LivePointer)} (h : Holding s)
    (ht : Steps cfg s (.readLive r) t) :
    s.changesEvent r = true ∧ t.eventId = (readLive r).1.eventId ∧ t.headSet = false ∨
      s.changesEvent r = false ∧ t.eventId = s.eventId ∧ t.headSet = s.headSet ∧
        ((readLive r).1.eventId ≠ "" → s.endHoldDone = false →
          s.eventId = (readLive r).1.eventId) := by
  cases ht with
  | @readLive now pinned _ hpc =>
      obtain rfl := h.asked now pinned hpc
      have hlatch := congrArg Latch.eventId (latch_pollLive (r := r) hpc)
      cases hc : s.changesEvent r with
      | true =>
          obtain ⟨hpin, hnamed, hother⟩ := h.changes hc
          have htarget : pollTarget s.pinnedEventId (DecoderSession.readLive r).1 =
              (DecoderSession.readLive r).1.eventId := if_pos hpin
          rw [hc, if_pos rfl] at hlatch
          refine Or.inl ⟨rfl, hlatch.trans htarget, ?_⟩
          simp only [DecoderSession.pollLive, htarget, if_neg hnamed, enterEvent, switchEvent]
          rw [if_pos hother]
      | false =>
          rw [hc, if_neg (by simp)] at hlatch
          refine Or.inr ⟨rfl, hlatch, ?_, fun hnamed hfresh => ?_⟩
          · simp only [changesEvent, hpc, Bool.and_eq_false_iff, decide_eq_false_iff_not,
              not_not] at hc
            simp only [DecoderSession.pollLive, noTarget, enterEvent, switchEvent]
            rcases hc with hc | hc
            · rw [if_pos hc]
              split <;> rfl
            · split
              · split <;> rfl
              · rw [if_neg (not_not.mpr hc)]
          · have hpin : s.pinnedEventId = "" := by
              by_contra hp
              rw [(h.pinned hp).2] at hfresh
              exact absurd hfresh (by simp)
            simp only [changesEvent, hpc, pollTarget, hpin, if_true, Bool.and_eq_false_iff,
              decide_eq_false_iff_not, not_not] at hc
            exact (hc.resolve_left hnamed).symm

/-! ### The bounds -/

/-- The bounds the manifest gave. -/
def DecoderSession.edges (s : DecoderSession) : ℕ × ℕ := (s.latestSeq, s.firstAvailableSeq)

/-- The manifest this step of a poll commits. -/
def DecoderSession.commits (s : DecoderSession) (r : PollReplies) : Option Manifest :=
  match s.net with
  | .pollingEvent _ _ _ _ =>
      if r.manifest.success then r.manifest.body.filter (protocolReadable ·.protocolVersion)
      else none
  | _ => none

/-- Of the thread that polls and downloads only the commit of a poll moves the bounds. -/
lemma edges_of_net (ht : Steps cfg s a t) (ha : a.isNet = true) (hr : ∀ r, a ≠ .readEvent r) :
    edges t = edges s := by
  cases ht with
  | poll =>
      simp only [noteStalled]
      split <;> rfl
  | readLive =>
      simp only [pollLive]
      split
      · rw [noTarget]
        split <;> rfl
      · simp only [enterEvent, switchEvent]
        split <;> rfl
  | readEvent => exact absurd rfl (hr _)
  | plan _ hp =>
      rw [pumpPlan] at hp
      split at hp
      · rw [← Option.some.inj hp]
      · obtain ⟨wanted, -, rfl⟩ := Option.map_eq_some_iff.mp hp
        rfl
  | getInit =>
      rw [pumpInit]
      split_ifs <;> rfl
  | writeInit =>
      rw [pumpInitWrite]
      split <;> rfl
  | getSegment =>
      rw [pumpSegment]
      split_ifs <;> rfl
  | writeSegment =>
      rw [pumpWrite]
      split <;> rfl
  | indexSegment => rfl
  | commitDownloads => rfl
  | _ => exact absurd ha (by simp [DecoderAction.isNet])

lemma edges_seen (s : DecoderSession) (now : ℤ) (live : LivePointer) :
    edges ((s.seeRoom cfg now live).holdFinished cfg) = edges s := by
  have hl := (loaded_seen cfg s now live).1
  exact Prod.ext (congrArg Loaded.latestSeq hl) (congrArg Loaded.firstAvailableSeq hl)

lemma edges_takeManifest (s : DecoderSession) (m : Manifest) (cues : Option (List Marker))
    (startedAt : ℤ) (hint : ℚ) :
    edges (s.takeManifest m cues startedAt hint) = (m.latestSeq, m.firstAvailableSeq) := by
  simp only [edges, takeManifest]
  split <;> rfl

lemma edges_readEvent {r : PollReplies} (ht : Steps cfg s (.readEvent r) t) :
    edges t = ((s.commits r).map fun m => (m.latestSeq, m.firstAvailableSeq)).getD (edges s) := by
  cases ht with
  | @readEvent now live id needMarkers _ hpc =>
      simp only [pollEvent, commits, hpc]
      split
      · split
        · rename_i hbody
          rw [hbody]
          rfl
        · rename_i m hbody
          split
          · rename_i hread
            rw [hbody, Option.filter_some, if_pos hread, edges_seen, edges_takeManifest]
            rfl
          · rename_i hread
            rw [hbody, Option.filter_some, if_neg hread]
            rfl
      · split <;> rfl

end Session

/-! ### The statement -/

/-- A segment queued for a connection: during which event, whose opening data the connection
got, and from whose folder it came. -/
structure Fed where
  visit : ℕ
  connection : String
  event : String
  seq : ℕ
  deriving DecidableEq

/-- What a run has seen.  `named` is the event `live.json` named last.  The events the session
loaded are numbered: it is on its `visit`-th, `settled` once it has committed a manifest of
that, and `manifests` are those it committed.  `begun` is the event in which the pass of the
destination under way began, if that was settled; `readings` are the inputs on which the
machine found the feed sendable.  `positionIn`, `readerIn` and `windowIn` are the events the
machine's position, the feeder's last reader and the session's head go back to. -/
structure Followed where
  named : String := ""
  visit : ℕ := 0
  settled : Bool := false
  manifests : List (ℕ × Manifest) := []
  begun : Option ℕ := none
  readings : List (ℕ × RelayInput) := []
  positionIn : ℕ := 0
  readerIn : ℕ := 0
  windowIn : ℕ := 0
  fed : List Fed := []
  deriving DecidableEq

/-- The parking moves the session's head. -/
def RoomFeeder.parks (f : RoomFeeder) : Bool :=
  f.readerSet && decide (f.session.firstAvailableSeq ≤ f.lowestReader) &&
    decide (f.session.head ≠ f.lowestReader) && decide (f.session.Retains f.lowestReader)

/-- What the end of this pass queues. -/
def RelayRoom.feeds (x : RelayRoom) : Option (String × String × ℕ) :=
  match x.relay.pc, x.relay.child with
  | .acting _ d, some c =>
      if d.action = .feedSegment ∧ (x.feeder.loadSegment d.seq).isSome then
        some (c.event, x.feeder.session.cache.eventId, d.seq)
      else none
  | _, _ => none

/-- The notes after the machine's step. -/
def Followed.decided (x : RelayRoom) (n : Followed) : Followed :=
  match x.relay.pc with
  | .gathered i =>
      if x.relay.reconfigured then n
      else
        { n with
          readings := if i.sendable then n.readings ++ [(n.visit, i)] else n.readings
          positionIn :=
            if x.relay.machine.headSet = false ∧ (x.relay.machine.step i).1.headSet = true then
              n.visit
            else n.positionIn }
  | _ => n

/-- The notes after a step. -/
def Followed.note (x : RelayRoom) (a : RoomAction) (n : Followed) : Followed :=
  match a with
  | .proceed (.readLive r) =>
      let n := if (readLive r).1.eventId ≠ "" then { n with named := (readLive r).1.eventId } else n
      if x.feeder.session.changesEvent r then { n with visit := n.visit + 1, settled := false }
      else n
  | .proceed (.readEvent r) =>
      match x.feeder.session.commits r with
      | some m => { n with settled := true, manifests := n.manifests ++ [(n.visit, m)] }
      | none => n
  | .park => if x.feeder.parks then { n with windowIn := n.readerIn } else n
  | .supervise => if x.relay.machine.headSet then { n with readerIn := n.positionIn } else n
  | .look =>
      if x.relay.pc = .idle then { n with begun := if n.settled then some n.visit else none } else n
  | .decide => n.decided x
  | .act _ =>
      match x.feeds with
      | some (connection, event, seq) =>
          { n with fed := n.fed ++ [{ visit := n.visit, connection, event, seq }] }
      | none => n
  | _ => n

/-- The room moves on only from an event that no poll found ended and in which the
destination never had a position; a pass that finds the feed sendable began when the
session knew the event it is on; and the first segment of an event can be read when it is
queued. -/
def movesOn (x : RelayRoom × Followed) : RoomAction → Bool
  | .proceed (.readLive r) =>
      decide ((readLive r).1.eventId = "" ∨ (readLive r).1.eventId = x.1.feeder.session.eventId) ||
        (!x.1.feeder.session.endHoldDone && !x.1.relay.machine.headSet && !x.1.feeder.readerSet)
  | .decide =>
      match x.1.relay.pc with
      | .gathered i => !i.sendable || decide (x.2.begun = some x.2.visit)
      | _ => true
  | .act _ =>
      match x.1.relay.pc with
      | .acting _ d =>
          decide (d.action ≠ .feedSegment) || (x.1.feeder.loadSegment d.seq).isSome ||
            x.2.fed.any (·.visit == x.2.visit)
      | _ => true
  | _ => true

/-- The live edge and the floor of this input are from manifests of that event. -/
structure Followed.Own (n : Followed) (visit : ℕ) (i : RelayInput) : Prop where
  read : (visit, i) ∈ n.readings
  edge : ∃ m, (visit, m) ∈ n.manifests ∧ i.latestSeq = m.latestSeq
  floor : ∃ m, (visit, m) ∈ n.manifests ∧ i.firstAvailableSeq = m.firstAvailableSeq

/-- The place behind the event's own live edge; or its own floor, that place being gone. -/
def Followed.Starts (n : Followed) (visit seq : ℕ) : Prop :=
  ∃ i, n.Own visit i ∧
    (seq = i.behindLive ∨
      seq = i.firstAvailableSeq ∧ ∃ j, n.Own visit j ∧ j.behindLive < seq)

/-- The relay follows the room: the session is on the event the room named last; the
machine's position, the feeder's reader and the session's window are of that event; the
first segment fed from an event starts it at its own place; and a connection gets the
segments of one event. -/
structure FollowsRoom (x : RelayRoom × Followed) : Prop where
  event : x.2.named ≠ "" → x.1.feeder.session.eventId = x.2.named
  position : x.1.relay.machine.headSet = true → x.2.positionIn = x.2.visit
  reader : x.1.feeder.readerSet = true → x.2.readerIn = x.2.visit
  window : x.1.feeder.session.headSet = true → x.2.windowIn = x.2.visit
  first : ∀ f, x.2.fed.find? (·.visit == f.visit) = some f → x.2.Starts f.visit f.seq
  fed : ∀ f ∈ x.2.fed, f.connection = f.event
  current : ∀ f ∈ x.2.fed, f.visit = x.2.visit → f.event = x.1.feeder.session.eventId

/-! ### Whole runs -/

/-- What the notes say of the feeder. -/
structure FeederKept (f : RoomFeeder) (n : Followed) : Prop where
  holding : Holding f.session
  named : n.named ≠ "" → f.session.eventId = n.named
  settled : n.settled = true → f.session.eventId ≠ "" ∧
    ∃ m, (n.visit, m) ∈ n.manifests ∧ edges f.session = (m.latestSeq, m.firstAvailableSeq)
  reader : f.readerSet = true → n.readerIn = n.visit
  window : f.session.headSet = true → n.windowIn = n.visit

/-- The live edge the pass under way has read. -/
def RelayPc.latest? : RelayPc → Option ℕ
  | .sawEdge s | .sawFloor s | .snapped s => some s.latestSeq
  | .gathered i => some i.latestSeq
  | _ => none

/-- The floor the pass under way has read. -/
def RelayPc.floor? : RelayPc → Option ℕ
  | .sawFloor s | .snapped s => some s.firstAvailableSeq
  | .gathered i => some i.firstAvailableSeq
  | _ => none

/-- What the notes say of the pass under way: begun in the current event, it has that event's
figures. -/
structure PassKept (r : RelaySession) (n : Followed) : Prop where
  begun : ∀ v, n.begun = some v → v ≤ n.visit ∧ (v = n.visit → n.settled = true)
  latest : n.begun = some n.visit → ∀ k, r.pc.latest? = some k →
    ∃ m, (n.visit, m) ∈ n.manifests ∧ k = m.latestSeq
  floor : n.begun = some n.visit → ∀ k, r.pc.floor? = some k →
    ∃ m, (n.visit, m) ∈ n.manifests ∧ k = m.firstAvailableSeq
  gathered : ∀ i, r.pc = .gathered i → i.operatorWantsRunning = true ∧ i.fromBeginning = false ∧
    (i.childAlive = true → r.child.isSome = true)
  acting : ∀ now d, r.pc = .acting now d →
    (d.action = .spawn → r.machine.headSet = true) ∧
      (d.action = .feedSegment → r.child.isSome = true)

/-- The segment the destination comes to next. -/
def RelaySession.next (r : RelaySession) : ℕ :=
  match r.pc with
  | .acting _ d => if d.action = .feedSegment then d.seq else r.machine.head
  | _ => r.machine.head

/-- What the notes say of the position and of what was sent, the session being on the event
`id`. -/
structure SentKept (id : String) (r : RelaySession) (n : Followed) : Prop where
  position : r.machine.headSet = true → n.positionIn = n.visit ∧ id ≠ ""
  child : ∀ c, r.child = some c → r.machine.headSet = true ∧ c.event = id
  past : ∀ f ∈ n.fed, f.visit ≤ n.visit
  fed : ∀ f ∈ n.fed, f.connection = f.event
  current : ∀ f ∈ n.fed, f.visit = n.visit → f.event = id
  first : ∀ f, n.fed.find? (·.visit == f.visit) = some f → n.Starts f.visit f.seq
  next : r.machine.headSet = true → (∀ f ∈ n.fed, f.visit ≠ n.visit) → n.Starts n.visit r.next

/-- What a run keeps. -/
structure RoomKept (x : RelayRoom × Followed) : Prop where
  feeder : FeederKept x.1.feeder x.2
  pass : PassKept x.1.relay x.2
  sent : SentKept x.1.feeder.session.eventId x.1.relay x.2

section Notes

variable {n n' : Followed} {visit seq : ℕ} {i : RelayInput}

lemma Followed.Own.mono (h : n.Own visit i) (hr : n.readings ⊆ n'.readings)
    (hm : n.manifests ⊆ n'.manifests) : n'.Own visit i := by
  obtain ⟨m₁, hm₁, he⟩ := h.edge
  obtain ⟨m₂, hm₂, hf⟩ := h.floor
  exact ⟨hr h.read, ⟨m₁, hm hm₁, he⟩, ⟨m₂, hm hm₂, hf⟩⟩

lemma Followed.Starts.mono (h : n.Starts visit seq) (hr : n.readings ⊆ n'.readings)
    (hm : n.manifests ⊆ n'.manifests) : n'.Starts visit seq := by
  obtain ⟨i, hi, hseq⟩ := h
  refine ⟨i, hi.mono hr hm, hseq.imp_right fun ⟨hseq, j, hj, hlt⟩ => ?_⟩
  exact ⟨hseq, j, hj.mono hr hm, hlt⟩

/-- A position taken up from the event's own figures, or resumed above its own floor, is
where the event starts. -/
lemma Followed.Starts.takePosition {m : RelayMachine} (hown : n.Own visit i)
    (hlive : i.fromBeginning = false) (h : m.headSet = true → n.Starts visit m.head) :
    n.Starts visit (m.takePosition i).head := by
  cases hset : m.headSet with
  | false =>
      refine ⟨i, hown, Or.inl ?_⟩
      simp [RelayMachine.takePosition, hset, hlive]
  | true =>
      have hhead : (m.takePosition i).head = max m.head i.firstAvailableSeq := by
        simp [RelayMachine.takePosition, hset]
      rw [hhead]
      rcases le_or_gt i.firstAvailableSeq m.head with hle | hlt
      · rw [max_eq_left hle]
        exact h hset
      · rw [max_eq_right hlt.le]
        -- the floor has gone past the place, or past a floor that had
        obtain ⟨j, hj, hseq | ⟨-, k, hk, hkm⟩⟩ := h hset
        · exact ⟨i, hown, Or.inr ⟨rfl, j, hj, by omega⟩⟩
        · exact ⟨i, hown, Or.inr ⟨rfl, k, hk, by omega⟩⟩

variable {r : RelaySession} {id : String}

/-- A pass goes on under notes that only grew. -/
lemma PassKept.of_notes (h : PassKept r n) (hvisit : n'.visit = n.visit)
    (hbegun : n'.begun = n.begun) (hsettled : n.settled = true → n'.settled = true)
    (hm : n.manifests ⊆ n'.manifests) : PassKept r n' := by
  refine ⟨?_, ?_, ?_, h.gathered, h.acting⟩
  · rw [hvisit, hbegun]
    exact fun v hv => ⟨(h.begun v hv).1, fun hcur => hsettled ((h.begun v hv).2 hcur)⟩
  · rw [hvisit, hbegun]
    intro hb k hk
    obtain ⟨m, hmem, heq⟩ := h.latest hb k hk
    exact ⟨m, hm hmem, heq⟩
  · rw [hvisit, hbegun]
    intro hb k hk
    obtain ⟨m, hmem, heq⟩ := h.floor hb k hk
    exact ⟨m, hm hmem, heq⟩

/-- What was sent stays so under notes that only grew. -/
lemma SentKept.of_notes (h : SentKept id r n) (hvisit : n'.visit = n.visit)
    (hposition : n'.positionIn = n.positionIn) (hfed : n'.fed = n.fed)
    (hr : n.readings ⊆ n'.readings) (hm : n.manifests ⊆ n'.manifests) : SentKept id r n' := by
  refine ⟨?_, h.child, ?_, ?_, ?_, ?_, ?_⟩
  · rw [hposition, hvisit]
    exact h.position
  · rw [hfed, hvisit]
    exact h.past
  · rw [hfed]
    exact h.fed
  · rw [hfed, hvisit]
    exact h.current
  · rw [hfed]
    exact fun f hf => (h.first f hf).mono hr hm
  · rw [hfed, hvisit]
    exact fun hset hnone => (h.next hset hnone).mono hr hm

end Notes

section Runs

variable {cfg : FeederConfig} {f f' : RoomFeeder} {r r' : RelaySession} {n n' : Followed}

/-! #### The feeder's steps -/

/-- A step of the feeder that leaves alone its event, its reader, its window and the bounds. -/
lemma FeederKept.quiet (h : FeederKept f n) (hholding : Holding f'.session)
    (hevent : f'.session.eventId = f.session.eventId) (hreader : f'.readerSet = f.readerSet)
    (hwindow : f'.session.headSet = f.session.headSet)
    (hedges : edges f'.session = edges f.session) : FeederKept f' n := by
  refine ⟨hholding, ?_, ?_, ?_, ?_⟩
  · rw [hevent]
    exact h.named
  · rw [hevent, hedges]
    exact h.settled
  · rw [hreader]
    exact h.reader
  · rw [hwindow]
    exact h.window

/-- Of the thread that polls and downloads only an event change moves the event, and takes
the head away. -/
lemma frame_of_net {s t : DecoderSession} {a : DecoderAction} {dcfg : DecoderConfig}
    (ht : Steps dcfg s a t) (ha : a.isNet = true) (hr : ∀ r, a ≠ .readLive r) :
    t.eventId = s.eventId ∧ t.headSet = s.headSet := by
  refine ⟨?_, ?_⟩
  · cases hl : a.isLatch with
    | false => exact congrArg Latch.eventId (latch_of_other ht hl)
    | true =>
        cases ht with
        | readLive => exact absurd rfl (hr _)
        | readEvent => exact (pollEvent_frame ..).2.2.1
        | _ => simp [DecoderAction.isNet, DecoderAction.isLatch] at ha hl
  · rcases playhead_of_net ht ha with h | ⟨⟨r, rfl⟩, -⟩
    · exact congrArg Playhead.headSet h
    · exact absurd rfl (hr r)

lemma forward_spec {dcfg : DecoderConfig} {a : DecoderAction} {pc : FeederPc}
    (h : f.forward dcfg a pc = some f') :
    Steps dcfg f.session a f'.session ∧ f'.readerSet = f.readerSet := by
  obtain ⟨s, hs, rfl⟩ := Option.map_eq_some_iff.mp h
  exact ⟨steps_of_step hs, rfl⟩

/-- A step of the session in which a poll reads nothing. -/
lemma FeederKept.forward (h : FeederKept f n) {a : DecoderAction} (ha : a.isNet = true)
    (hlive : ∀ r, a ≠ .readLive r) (hevent : ∀ r, a ≠ .readEvent r)
    (ht : Steps cfg.session f.session a f'.session) (hreader : f'.readerSet = f.readerSet) :
    FeederKept f' n ∧ f'.session.eventId = f.session.eventId := by
  have hpin : a.isPin = false := by cases a <;> simp [DecoderAction.isNet] at ha <;> rfl
  obtain ⟨hid, hwindow⟩ := frame_of_net ht ha hlive
  exact ⟨h.quiet (h.holding.step rfl hpin ht) hid hreader hwindow (edges_of_net ht ha hevent), hid⟩

/-- The commit of a poll, and a poll that comes to none. -/
lemma FeederKept.readEvent (h : FeederKept f n) {r : PollReplies}
    (ht : Steps cfg.session f.session (.readEvent r) f'.session)
    (hreader : f'.readerSet = f.readerSet) :
    FeederKept f' (Followed.note ⟨f, r'⟩ (.proceed (.readEvent r)) n) ∧
      f'.session.eventId = f.session.eventId := by
  obtain ⟨hid, hwindow⟩ := frame_of_net ht rfl (by simp)
  have hholding := @Holding.step cfg.session _ _ _ rfl h.holding rfl ht
  have hedges := edges_readEvent ht
  refine ⟨?_, hid⟩
  simp only [Followed.note]
  cases hc : f.session.commits r with
  | none =>
      rw [hc] at hedges
      exact h.quiet hholding hid hreader hwindow hedges
  | some m =>
      rw [hc] at hedges
      refine ⟨hholding, ?_, fun _ => ⟨?_, m, by simp, hedges⟩, ?_, ?_⟩
      · rw [hid]
        exact h.named
      · rw [hid]
        exact h.holding.ne_of_readEvent ht
      · rw [hreader]
        exact h.reader
      · rw [hwindow]
        exact h.window

/-- What the notes become at the reading of `live.json`. -/
lemma note_readLive (f : RoomFeeder) (r : RelaySession) (rl : Reply (Option LivePointer))
    (n : Followed) :
    Followed.note ⟨f, r⟩ (.proceed (.readLive rl)) n =
      { n with
        named := if (readLive rl).1.eventId ≠ "" then (readLive rl).1.eventId else n.named
        visit := if f.session.changesEvent rl then n.visit + 1 else n.visit
        settled := if f.session.changesEvent rl then false else n.settled } := by
  simp only [Followed.note]
  split_ifs <;> rfl

/-- **The reading of `live.json`**: the session is on the event named, and on a new one only
where nothing of the old one is left. -/
lemma RoomKept.readLive {x y : RelayRoom × Followed} (h : RoomKept x) {rl : Reply (Option LivePointer)}
    (hc : movesOn x (.proceed (.readLive rl)) = true)
    (ht : Steps cfg.session x.1.feeder.session (.readLive rl) y.1.feeder.session)
    (hreader : y.1.feeder.readerSet = x.1.feeder.readerSet) (hrelay : y.1.relay = x.1.relay)
    (hn : y.2 = Followed.note x.1 (.proceed (.readLive rl)) x.2) : RoomKept y := by
  have hholding := @Holding.step cfg.session _ _ _ rfl h.feeder.holding rfl ht
  have hedges := edges_of_net ht rfl (by simp)
  rw [note_readLive] at hn
  simp only [movesOn, Bool.or_eq_true, decide_eq_true_eq, Bool.and_eq_true, Bool.not_eq_true'] at hc
  rcases h.feeder.holding.readLive ht with ⟨hchange, hid, hwindow⟩ | ⟨hstay, hid, hwindow, hnamed⟩
  · -- the event changes: there is no position, no reader and no connection
    obtain ⟨-, hne, hother⟩ := h.feeder.holding.changes hchange
    obtain ⟨⟨-, hset⟩, hnoreader⟩ := hc.resolve_left (by simp [hne, hother])
    simp only [hchange, if_true, hne, ne_eq, not_false_eq_true] at hn
    refine ⟨⟨hholding, fun _ => ?_, ?_, ?_, ?_⟩, ⟨?_, ?_, ?_, ?_, ?_⟩, ⟨?_, ?_, ?_, ?_, ?_, ?_, ?_⟩⟩
    · rw [hn, hid]
    · simp [hn]
    · simp [hreader, hnoreader]
    · simp [hwindow]
    · intro v hv
      rw [hn] at hv ⊢
      have := (h.pass.begun v hv).1
      exact ⟨by simp only; omega, fun hv' => absurd hv' (by simp only; omega)⟩
    · intro hb
      rw [hn] at hb
      have := (h.pass.begun _ hb).1
      exact absurd this (by simp)
    · intro hb
      rw [hn] at hb
      have := (h.pass.begun _ hb).1
      exact absurd this (by simp)
    · rw [hrelay]
      exact h.pass.gathered
    · rw [hrelay]
      exact h.pass.acting
    · simp [hrelay, hset]
    · intro c hchild
      rw [hrelay] at hchild
      exact absurd (h.sent.child c hchild).1 (by simp [hset])
    · intro f hf
      rw [hn] at hf ⊢
      have := h.sent.past f hf
      simp only
      omega
    · rw [hn]
      exact h.sent.fed
    · intro f hf hv
      rw [hn] at hf hv
      have := h.sent.past f hf
      exact absurd hv (by simp only; omega)
    · intro f hf
      rw [hn] at hf ⊢
      exact (h.sent.first f hf).mono (List.Subset.refl _) (List.Subset.refl _)
    · simp [hrelay, hset]
  · simp only [hstay, Bool.false_eq_true, if_false] at hn
    have hfeeder := h.feeder.quiet hholding hid hreader hwindow hedges
    refine ⟨⟨hholding, fun hne => ?_, ?_, ?_, ?_⟩, ?_, ?_⟩
    · rw [hn] at hne ⊢
      simp only at hne ⊢
      rw [hid]
      split
      · rename_i hnamed'
        -- a named event is the loaded one, or the condition says that none is held
        rcases hc with (hc | hc) | ⟨⟨hfresh, -⟩, -⟩
        · exact absurd hc hnamed'
        · exact hc.symm
        · exact hnamed hnamed' hfresh
      · rename_i hnamed'
        rw [if_neg hnamed'] at hne
        exact h.feeder.named hne
    · rw [hn]
      exact hfeeder.settled
    · rw [hn]
      exact hfeeder.reader
    · rw [hn]
      exact hfeeder.window
    · rw [hn, hrelay]
      exact h.pass.of_notes rfl rfl id (List.Subset.refl _)
    · rw [hn, hrelay, hid]
      exact h.sent.of_notes rfl rfl rfl (List.Subset.refl _) (List.Subset.refl _)

/-- A step of the feeder that is neither reading leaves the destination its event. -/
lemma RoomKept.of_feeder {x y : RelayRoom × Followed} (h : RoomKept x) (hfeeder : FeederKept y.1.feeder y.2)
    (hid : y.1.feeder.session.eventId = x.1.feeder.session.eventId)
    (hrelay : y.1.relay = x.1.relay) (hvisit : y.2.visit = x.2.visit)
    (hbegun : y.2.begun = x.2.begun) (hsettled : x.2.settled = true → y.2.settled = true)
    (hposition : y.2.positionIn = x.2.positionIn) (hfed : y.2.fed = x.2.fed)
    (hr : x.2.readings ⊆ y.2.readings) (hm : x.2.manifests ⊆ y.2.manifests) : RoomKept y := by
  refine ⟨hfeeder, ?_, ?_⟩
  · rw [hrelay]
    exact h.pass.of_notes hvisit hbegun hsettled hm
  · rw [hrelay, hid]
    exact h.sent.of_notes hvisit hposition hfed hr hm

/-- The parking of the window: at a reader of the current event. -/
lemma RoomKept.park {x y : RelayRoom × Followed} (h : RoomKept x) (hf : x.1.feeder.park = some y.1.feeder)
    (hrelay : y.1.relay = x.1.relay) (hn : y.2 = Followed.note x.1 .park x.2) : RoomKept y := by
  simp only [RoomFeeder.park, Option.ite_none_right_eq_some, Option.some.injEq] at hf
  obtain ⟨-, hf⟩ := hf
  have hseek : Holding (x.1.feeder.session.seek x.1.feeder.lowestReader) :=
    @Holding.step { sha256Hex := fun _ => "" } _ _ _ rfl h.feeder.holding rfl .seek
  obtain ⟨hloaded, -⟩ := leaves_seek (s := x.1.feeder.session) x.1.feeder.lowestReader
  have hedges : edges (x.1.feeder.session.seek x.1.feeder.lowestReader) =
      edges x.1.feeder.session :=
    Prod.ext (congrArg Loaded.latestSeq hloaded) (congrArg Loaded.firstAvailableSeq hloaded)
  have hid : (x.1.feeder.session.seek x.1.feeder.lowestReader).eventId =
      x.1.feeder.session.eventId := congrArg Loaded.eventId hloaded
  simp only [Followed.note] at hn
  by_cases hparks : x.1.feeder.parks = true
  · rw [if_pos hparks] at hn
    simp only [RoomFeeder.parks, Bool.and_eq_true, decide_eq_true_eq] at hparks
    obtain ⟨⟨⟨hreader, hfloor⟩, hmoved⟩, hretains⟩ := hparks
    rw [if_pos ⟨hreader, hfloor, hmoved⟩] at hf
    have hfeeder : FeederKept y.1.feeder y.2 := by
      rw [← hf, hn]
      refine ⟨hseek, ?_, ?_, h.feeder.reader, fun _ => h.feeder.reader hreader⟩
      · rw [hid]
        exact h.feeder.named
      · rw [hid, hedges]
        exact h.feeder.settled
    refine h.of_feeder hfeeder ?_ hrelay ?_ ?_ ?_ ?_ ?_ ?_ ?_
    · rw [← hf]
      exact hid
    all_goals simp [hn]
  · rw [if_neg hparks] at hn
    have hsame : y.1.feeder.session = x.1.feeder.session := by
      rw [← hf]
      dsimp only
      split
      · rename_i hc
        rw [seek, if_neg]
        intro hretains
        exact hparks (by simp [RoomFeeder.parks, hc, hretains])
      · rfl
    have hreader : y.1.feeder.readerSet = x.1.feeder.readerSet := by rw [← hf]
    have hfeeder : FeederKept y.1.feeder y.2 := by
      rw [hn]
      exact h.feeder.quiet (by rw [hsame]; exact h.feeder.holding) (by rw [hsame]) hreader
        (by rw [hsame]) (by rw [hsame])
    refine h.of_feeder hfeeder (by rw [hsame]) hrelay ?_ ?_ ?_ ?_ ?_ ?_ ?_
    all_goals simp [hn]

/-- The service notes where the destination reads: in the current event. -/
lemma RoomKept.supervise {x y : RelayRoom × Followed} (h : RoomKept x)
    (hx : y.1 = if x.1.relay.machine.headSet then
      { x.1 with feeder := x.1.feeder.setLowestReader x.1.relay.machine.head } else x.1)
    (hn : y.2 = Followed.note x.1 .supervise x.2) : RoomKept y := by
  simp only [Followed.note] at hn
  cases hset : x.1.relay.machine.headSet with
  | false =>
      simp only [hset, Bool.false_eq_true, if_false] at hx hn
      rw [show y = x from Prod.ext hx hn]
      exact h
  | true =>
      simp only [hset, if_true] at hx hn
      have hfeeder : FeederKept y.1.feeder y.2 := by
        rw [hx, hn]
        exact ⟨h.feeder.holding, h.feeder.named, h.feeder.settled,
          fun _ => (h.sent.position hset).1, h.feeder.window⟩
      refine h.of_feeder hfeeder (by rw [hx]; rfl) (by rw [hx]) ?_ ?_ ?_ ?_ ?_ ?_ ?_
      all_goals simp [hn]

/-! #### The destination's steps -/

/-- The notes of the destination say nothing of the feeder. -/
lemma FeederKept.of_notes (h : FeederKept f n) (hnamed : n'.named = n.named)
    (hvisit : n'.visit = n.visit) (hsettled : n'.settled = n.settled)
    (hm : n'.manifests = n.manifests) (hreader : n'.readerIn = n.readerIn)
    (hwindow : n'.windowIn = n.windowIn) : FeederKept f n' := by
  refine ⟨h.holding, ?_, ?_, ?_, ?_⟩
  · rw [hnamed]
    exact h.named
  · rw [hsettled, hvisit, hm]
    exact h.settled
  · rw [hreader, hvisit]
    exact h.reader
  · rw [hwindow, hvisit]
    exact h.window

/-- Between two decisions the position and the connection stay. -/
lemma SentKept.of_relay {id : String} (h : SentKept id r n) (hmachine : r'.machine = r.machine)
    (hchild : ∀ c, r'.child = some c → ∃ c', r.child = some c' ∧ c.event = c'.event)
    (hnext : r'.next = r.next) : SentKept id r' n := by
  refine ⟨?_, fun c hc => ?_, h.past, h.fed, h.current, h.first, ?_⟩
  · rw [hmachine]
    exact h.position
  · obtain ⟨c', hc', heq⟩ := hchild c hc
    rw [hmachine, heq]
    exact h.child c' hc'
  · rw [hmachine, hnext]
    exact h.next

/-- **A look at the next figure**: in a pass begun in the current event it is that event's. -/
lemma RoomKept.look {x y : RelayRoom × Followed} (h : RoomKept x)
    (hr : x.1.relay.look x.1.feeder = some y.1.relay) (hf : y.1.feeder = x.1.feeder)
    (hn : y.2 = Followed.note x.1 .look x.2) : RoomKept y := by
  obtain ⟨⟨f, r⟩, n⟩ := x
  obtain ⟨⟨f', r'⟩, n'⟩ := y
  obtain ⟨hfeeder, hpass, hsent⟩ := h
  simp only at hr hf hn hfeeder hpass hsent
  subst hf
  have hcurrent : n.begun = some n.visit →
      ∃ m, (n.visit, m) ∈ n.manifests ∧ edges f'.session = (m.latestSeq, m.firstAvailableSeq) :=
    fun hb => (hfeeder.settled ((hpass.begun _ hb).2 rfl)).2
  simp only [Followed.note] at hn
  simp only [RelaySession.look] at hr
  cases hpc : r.pc with
  | idle =>
      rw [hpc] at hr hn
      obtain rfl := Option.some.inj hr
      simp only [if_true] at hn
      refine ⟨?_, ⟨fun v hv => ?_, by simp [RelayPc.latest?], by simp [RelayPc.floor?], by simp,
        by simp⟩, ?_⟩
      · rw [hn]
        exact hfeeder.of_notes rfl rfl rfl rfl rfl rfl
      · rw [hn] at hv ⊢
        dsimp only at hv
        split at hv
        · rename_i hsettled
          obtain rfl := Option.some.inj hv
          exact ⟨le_rfl, fun _ => hsettled⟩
        · exact absurd hv (by simp)
      · rw [hn]
        refine SentKept.of_relay (r := r)
          (hsent.of_notes rfl rfl rfl (List.Subset.refl _) (List.Subset.refl _)) rfl
          (fun c hc => ⟨c, hc, rfl⟩) ?_
        simp only [RelaySession.next, hpc]
  | sawRoom s =>
      rw [hpc] at hr hn
      obtain rfl := Option.some.inj hr
      simp only [reduceCtorEq, if_false] at hn
      subst hn
      refine ⟨hfeeder, ⟨hpass.begun, by simp [RelayPc.latest?], by simp [RelayPc.floor?], by simp,
        by simp⟩, hsent.of_relay rfl (fun c hc => ⟨c, hc, rfl⟩) ?_⟩
      simp only [RelaySession.next, hpc]
  | sawEvent s =>
      rw [hpc] at hr hn
      obtain rfl := Option.some.inj hr
      simp only [reduceCtorEq, if_false] at hn
      subst hn
      refine ⟨hfeeder, ⟨hpass.begun, fun hb k hk => ?_, by simp [RelayPc.floor?], by simp,
        by simp⟩, hsent.of_relay rfl (fun c hc => ⟨c, hc, rfl⟩) ?_⟩
      · obtain ⟨m, hm, he⟩ := hcurrent hb
        rw [← Option.some.inj hk]
        exact ⟨m, hm, congrArg Prod.fst he⟩
      · simp only [RelaySession.next, hpc]
  | sawEdge s =>
      rw [hpc] at hr hn
      obtain rfl := Option.some.inj hr
      simp only [reduceCtorEq, if_false] at hn
      subst hn
      refine ⟨hfeeder, ⟨hpass.begun, fun hb k hk => ?_, fun hb k hk => ?_, by simp, by simp⟩,
        hsent.of_relay rfl (fun c hc => ⟨c, hc, rfl⟩) ?_⟩
      · exact hpass.latest hb k (by rw [hpc]; exact hk)
      · obtain ⟨m, hm, he⟩ := hcurrent hb
        rw [← Option.some.inj hk]
        exact ⟨m, hm, congrArg Prod.snd he⟩
      · simp only [RelaySession.next, hpc]
  | sawFloor s =>
      rw [hpc] at hr hn
      obtain rfl := Option.some.inj hr
      simp only [reduceCtorEq, if_false] at hn
      subst hn
      refine ⟨hfeeder, ⟨hpass.begun, fun hb k hk => ?_, fun hb k hk => ?_, by simp, by simp⟩,
        hsent.of_relay rfl (fun c hc => ⟨c, hc, rfl⟩) ?_⟩
      · refine hpass.latest hb k ?_
        rw [hpc, ← hk]
        dsimp only [RelayPc.latest?]
        split <;> rfl
      · refine hpass.floor hb k ?_
        rw [hpc, ← hk]
        dsimp only [RelayPc.floor?]
        split <;> rfl
      · simp only [RelaySession.next, hpc]
  | _ =>
      rw [hpc] at hr
      exact absurd hr (by simp)

lemma RoomKept.gather {x y : RelayRoom × Followed} (h : RoomKept x) {e : Surroundings}
    (hr : x.1.relay.gather x.1.feeder e = some y.1.relay) (hf : y.1.feeder = x.1.feeder)
    (hn : y.2 = x.2) : RoomKept y := by
  obtain ⟨⟨f, r⟩, n⟩ := x
  obtain ⟨⟨f', r'⟩, n'⟩ := y
  obtain ⟨hfeeder, hpass, hsent⟩ := h
  simp only at hr hf hn hfeeder hpass hsent
  subst hf hn
  simp only [RelaySession.gather] at hr
  cases hpc : r.pc with
  | snapped s =>
      rw [hpc] at hr
      obtain rfl := Option.some.inj hr
      refine ⟨hfeeder, ⟨hpass.begun, fun hb k hk => ?_, fun hb k hk => ?_, fun i hi => ?_, by simp⟩,
        hsent.of_relay rfl (fun c hc => ⟨c, hc, rfl⟩) ?_⟩
      · exact hpass.latest hb k (by rw [hpc]; exact hk)
      · exact hpass.floor hb k (by rw [hpc]; exact hk)
      · obtain rfl := RelayPc.gathered.inj hi
        refine ⟨rfl, rfl, fun halive => ?_⟩
        obtain ⟨c, hc, -⟩ := (Option.any_eq_true _ _).mp halive
        exact Option.isSome_iff_exists.mpr ⟨c, hc⟩
      · simp only [RelaySession.next, hpc]
  | _ =>
      rw [hpc] at hr
      exact absurd hr (by simp)

/-- The machine's step on an input whose figures are the current event's. -/
lemma SentKept.step {id : String} {i : RelayInput} {m' : RelayMachine} {d : RelayDecision}
    (h : SentKept id r n) (hnext : r.next = r.machine.head)
    (hplaced : Placed r.machine i m' d) (hlive : i.fromBeginning = false)
    (halive : i.childAlive = true → r.child.isSome = true)
    (hown : i.sendable = true → n'.Own n.visit i ∧ id ≠ "")
    (hn : n' = { n with
      readings := if i.sendable then n.readings ++ [(n.visit, i)] else n.readings
      positionIn := if r.machine.headSet = false ∧ m'.headSet = true then n.visit
        else n.positionIn }) {now : ℤ} :
    SentKept id { r with machine := m', pc := .acting now d } n' := by
  have hreadings : n.readings ⊆ n'.readings := by
    rw [hn]
    dsimp only
    split <;> simp
  have hmanifests : n.manifests ⊆ n'.manifests := by rw [hn]; exact List.Subset.refl _
  have hstart : ∀ {v seq}, n.Starts v seq → n'.Starts v seq :=
    fun hs => hs.mono hreadings hmanifests
  have hvisit : n'.visit = n.visit := by rw [hn]
  have hfed : n'.fed = n.fed := by rw [hn]
  have hchild : ∀ c, r.child = some c → r.machine.headSet = true := fun c hc => (h.child c hc).1
  have hset : r.machine.headSet = true → m'.headSet = true := by
    intro hr
    cases hplaced with
    | keeps _ hs _ _ => exact hs.trans hr
    | takes _ _ hs _ => exact hs
    | awaits _ _ _ hs _ _ => exact hs.trans hr
    | feeds _ _ hs _ _ => exact hs.trans hr
  have hkept : m'.headSet = true → r.machine.headSet = false → i.sendable = true := by
    intro hm hr
    cases hplaced with
    | keeps _ hs _ _ => exact absurd (hs.symm.trans hm) (by simp [hr])
    | takes hsend _ _ _ => exact hsend
    | awaits hsend _ _ _ _ _ => exact hsend
    | feeds _ _ hs _ _ => exact absurd (hs.symm.trans hm) (by simp [hr])
  refine ⟨fun hm => ?_, fun c hc => ⟨hset (hchild c hc), (h.child c hc).2⟩, ?_, ?_, ?_, ?_, ?_⟩
  · cases hr : r.machine.headSet with
    | true =>
        obtain ⟨hp, hid⟩ := h.position hr
        refine ⟨?_, hid⟩
        rw [hn]
        simpa [hr] using hp
    | false =>
        refine ⟨?_, (hown (hkept hm hr)).2⟩
        rw [hn]
        exact if_pos ⟨hr, hm⟩
  · rw [hfed, hvisit]
    exact h.past
  · rw [hfed]
    exact h.fed
  · rw [hfed, hvisit]
    exact h.current
  · rw [hfed]
    exact fun f hf => hstart (h.first f hf)
  · rw [hfed, hvisit]
    intro hm hnone
    have hbefore : r.machine.headSet = true → n'.Starts n.visit r.machine.head := by
      intro hr
      have := h.next hr hnone
      rw [hnext] at this
      exact hstart this
    cases hplaced with
    | keeps hh hs _ hfeed =>
        simp only [RelaySession.next, if_neg hfeed, hh]
        exact hbefore (hs.symm.trans hm)
    | takes hsend hh _ hfeed =>
        simp only [RelaySession.next, if_neg hfeed, hh]
        exact Followed.Starts.takePosition (hown hsend).1 hlive hbefore
    | awaits hsend _ hh _ _ hfeed =>
        simp only [RelaySession.next, if_neg hfeed, hh]
        exact ⟨i, (hown hsend).1, Or.inl rfl⟩
    | feeds ha _ _ hact hseq =>
        obtain ⟨c, hc⟩ := Option.isSome_iff_exists.mp (halive ha)
        simp only [RelaySession.next, if_pos hact, hseq]
        exact hbefore (hchild c hc)

/-- **The machine's step**: on a feed it finds sendable, the pass having begun in the current
event. -/
lemma RoomKept.decide {x y : RelayRoom × Followed} (h : RoomKept x) (hc : movesOn x .decide = true)
    (hr : x.1.relay.decide = some y.1.relay) (hf : y.1.feeder = x.1.feeder)
    (hn : y.2 = Followed.note x.1 .decide x.2) : RoomKept y := by
  obtain ⟨⟨f, r⟩, n⟩ := x
  obtain ⟨⟨f', r'⟩, n'⟩ := y
  obtain ⟨hfeeder, hpass, hsent⟩ := h
  simp only at hr hf hn hfeeder hpass hsent
  subst hf
  cases hpc : r.pc with
  | gathered i =>
      simp only [RelaySession.decide, hpc] at hr
      simp only [Followed.note, Followed.decided, hpc] at hn
      obtain ⟨hwants, hlive, halive⟩ := hpass.gathered i hpc
      cases hre : r.reconfigured with
      | true =>
          rw [if_pos hre] at hr hn
          obtain rfl := Option.some.inj hr
          subst hn
          refine ⟨hfeeder, ⟨hpass.begun, by simp [RelayPc.latest?], by simp [RelayPc.floor?],
            by simp, by simp⟩, ⟨by simp [RelayMachine.reconfigured], by simp, hsent.past,
            hsent.fed, hsent.current, hsent.first, by simp [RelayMachine.reconfigured]⟩⟩
      | false =>
          rw [if_neg (by simp [hre])] at hr hn
          obtain rfl := Option.some.inj hr
          have hplaced := step_placed (m := r.machine) hwants hlive
          generalize (r.machine.step i) = out at hplaced hn
          obtain ⟨m', d⟩ := out
          have hbegun : i.sendable = true → n.begun = some n.visit := by
            intro hsend
            simpa [movesOn, hpc, hsend] using hc
          have hown : i.sendable = true → n'.Own n.visit i ∧ f'.session.eventId ≠ "" := by
            intro hsend
            have hb := hbegun hsend
            refine ⟨⟨?_, ?_, ?_⟩, (hfeeder.settled ((hpass.begun _ hb).2 rfl)).1⟩
            · rw [hn]
              simp [hsend]
            · rw [hn]
              exact hpass.latest hb _ (by rw [hpc]; rfl)
            · rw [hn]
              exact hpass.floor hb _ (by rw [hpc]; rfl)
          have hnext : r.next = r.machine.head := by simp only [RelaySession.next, hpc]
          refine ⟨?_, ⟨?_, by simp [RelayPc.latest?], by simp [RelayPc.floor?], by simp, ?_⟩,
            hsent.step hnext hplaced hlive halive hown hn⟩
          · rw [hn]
            exact hfeeder.of_notes rfl rfl rfl rfl rfl rfl
          · rw [hn]
            exact hpass.begun
          · intro now' d' hpc'
            obtain ⟨-, rfl⟩ := RelayPc.acting.inj hpc'
            refine ⟨fun hspawn => ?_, fun hfeed => ?_⟩
            · cases hplaced with
              | keeps _ _ h3 _ => exact absurd hspawn h3
              | takes _ _ hs _ => exact hs
              | awaits _ _ _ _ h5 _ => exact absurd hspawn h5
              | feeds _ _ _ hact _ => exact absurd (hact.symm.trans hspawn) (by simp)
            · cases hplaced with
              | keeps _ _ _ h4 => exact absurd hfeed h4
              | takes _ _ _ h4 => exact absurd hfeed h4
              | awaits _ _ _ _ _ h6 => exact absurd hfeed h6
              | feeds ha _ _ _ _ => exact halive ha
  | _ =>
      simp only [RelaySession.decide, hpc] at hr
      exact absurd hr (by simp)

lemma head_noteChildExited (m : RelayMachine) (now : ℤ) (expected : Bool) :
    (m.noteChildExited now expected).head = m.head ∧
      (m.noteChildExited now expected).headSet = m.headSet := by
  simp only [noteChildExited]
  split <;> exact ⟨rfl, rfl⟩

/-- A connection that dropped is reported; the position stays. -/
lemma SentKept.reportExit {id : String} (h : SentKept id r n) (hpc : r.pc = .idle) (now : ℤ) :
    SentKept id (r.reportExit now) n := by
  rw [RelaySession.reportExit]
  split
  · obtain ⟨hhead, hset⟩ := head_noteChildExited r.machine now false
    refine ⟨?_, by simp, h.past, h.fed, h.current, h.first, ?_⟩
    · rw [hset]
      exact h.position
    · have hnext : r.next = r.machine.head := by simp only [RelaySession.next, hpc]
      simp only [RelaySession.next, hpc, hset, hhead]
      rw [← hnext]
      exact h.next
  · exact h

/-- A segment queued: the connection is of the event the segment is of, and the first of an
event is where that starts. -/
lemma SentKept.feed {id : String} {c c' : Connection} {now : ℤ} {d : RelayDecision}
    (h : SentKept id r n) (hpc : r.pc = .acting now d) (hact : d.action = .feedSegment)
    (hchild : r.child = some c) (hc' : c'.event = c.event)
    (hn : n' = { n with
      fed := n.fed ++ [{ visit := n.visit, connection := c.event, event := id, seq := d.seq }] }) :
    SentKept id { r with child := some c', pc := .idle } n' := by
  obtain ⟨hset, hevent⟩ := h.child c hchild
  have hstart : ∀ {v seq}, n.Starts v seq → n'.Starts v seq := by
    intro v seq hs
    refine hs.mono ?_ ?_
    · rw [hn]
      exact List.Subset.refl _
    · rw [hn]
      exact List.Subset.refl _
  rw [hn] at hstart ⊢
  refine ⟨h.position, fun c₁ hc₁ => ?_, fun f hf => ?_, fun f hf => ?_, fun f hf hv => ?_,
    fun f hf => ?_, fun _ hnone => ?_⟩
  · obtain rfl := Option.some.inj hc₁
    exact ⟨hset, hc'.trans hevent⟩
  · rcases List.mem_append.mp hf with hf | hf
    · exact h.past f hf
    · rw [List.mem_singleton.mp hf]
  · rcases List.mem_append.mp hf with hf | hf
    · exact h.fed f hf
    · rw [List.mem_singleton.mp hf]
      exact hevent
  · rcases List.mem_append.mp hf with hf | hf
    · exact h.current f hf hv
    · rw [List.mem_singleton.mp hf]
  · rw [List.find?_append] at hf
    rcases Option.or_eq_some_iff.mp hf with hf | ⟨hnone, hf⟩
    · exact hstart (h.first f hf)
    · -- the first of the event: it is where the position came to
      obtain rfl := List.mem_singleton.mp (List.mem_of_find?_eq_some hf)
      have hnext : r.next = d.seq := by simp only [RelaySession.next, hpc, if_pos hact]
      refine hstart ?_
      rw [← hnext]
      refine h.next hset fun g hg => ?_
      have := List.find?_eq_none.mp hnone g hg
      simpa using this
  · exact absurd rfl (hnone _ (List.mem_append_right _ (List.mem_singleton.mpr rfl)))

/-- **The decision carried out.** -/
lemma RoomKept.act {x y : RelayRoom × Followed} (h : RoomKept x) {ok : Bool}
    (hc : movesOn x (.act ok) = true) (hr : x.1.relay.act x.1.feeder ok = some y.1.relay)
    (hf : y.1.feeder = x.1.feeder) (hn : y.2 = Followed.note x.1 (.act ok) x.2) : RoomKept y := by
  obtain ⟨⟨f, r⟩, n⟩ := x
  obtain ⟨⟨f', r'⟩, n'⟩ := y
  obtain ⟨hfeeder, hpass, hsent⟩ := h
  simp only at hr hf hn hfeeder hpass hsent
  subst hf
  cases hpc : r.pc with
  | acting now d =>
      simp only [RelaySession.act, hpc] at hr
      obtain rfl := Option.some.inj hr
      obtain ⟨hspawn, hfeed⟩ := hpass.acting now d hpc
      have hcache : f'.session.eventId ≠ "" →
          f'.session.cache.eventId = f'.session.eventId := fun hne => by
        rw [hfeeder.holding.cache, if_neg hne]
      have hpassed : PassKept
          (RelaySession.reportExit { r with child := r.perform f' d ok, pc := .idle } now) n := by
        have hidle : (RelaySession.reportExit
            { r with child := r.perform f' d ok, pc := .idle } now).pc = .idle := by
          rw [RelaySession.reportExit]
          split <;> rfl
        refine ⟨hpass.begun, ?_, ?_, ?_, ?_⟩
        · rw [hidle]
          simp [RelayPc.latest?]
        · rw [hidle]
          simp [RelayPc.floor?]
        · rw [hidle]
          simp
        · rw [hidle]
          simp
      by_cases hact : d.action = .feedSegment
      · obtain ⟨c, hchild⟩ := Option.isSome_iff_exists.mp (hfeed hact)
        obtain ⟨hset, -⟩ := hsent.child c hchild
        have hid := hcache (hsent.position hset).2
        by_cases hload : (f'.loadSegment d.seq).isSome = true
        · simp only [Followed.note, RelayRoom.feeds, hpc, hchild, hact, hload, hid, and_self,
            if_true] at hn
          refine ⟨?_, hpassed.of_notes ?_ ?_ ?_ ?_, ?_⟩
          · rw [hn]
            exact hfeeder.of_notes rfl rfl rfl rfl rfl rfl
          · rw [hn]
          · rw [hn]
          · rw [hn]
            exact id
          · rw [hn]
            exact List.Subset.refl _
          · refine SentKept.reportExit ?_ rfl now
            simp only [RelaySession.perform, hact, hload, if_true, hchild, Option.map_some]
            exact hsent.feed hpc hact hchild rfl hn
        · simp only [Followed.note, RelayRoom.feeds, hpc, hchild, hact, hload, and_false,
            Bool.false_eq_true, if_false] at hn
          subst hn
          refine ⟨hfeeder, hpassed, SentKept.reportExit ?_ rfl now⟩
          simp only [RelaySession.perform, hact, hload, Bool.false_eq_true, if_false, hchild]
          -- nothing was queued, which the condition has only after the event's first
          have hany : n'.fed.any (·.visit == n'.visit) = true := by
            simpa [movesOn, hpc, hact, hload] using hc
          obtain ⟨g, hg, hv⟩ := List.any_eq_true.mp hany
          refine ⟨hsent.position, fun c₁ hc₁ => ?_, hsent.past, hsent.fed, hsent.current,
            hsent.first, fun _ hnone => ?_⟩
          · obtain rfl := Option.some.inj hc₁
            exact hsent.child _ hchild
          · exact absurd (by simpa using hv) (hnone g hg)
      · have hnone : n' = n := by
          rw [hn]
          simp only [Followed.note, RelayRoom.feeds, hpc]
          cases r.child with
          | none => rfl
          | some c => simp [hact]
        subst hnone
        refine ⟨hfeeder, hpassed, SentKept.reportExit ?_ rfl now⟩
        have hnext : r.next = r.machine.head := by
          simp only [RelaySession.next, hpc, if_neg hact]
        refine ⟨hsent.position, fun c hc => ?_, hsent.past, hsent.fed, hsent.current,
          hsent.first, fun hset hno => ?_⟩
        · cases ha : d.action with
          | spawn =>
              simp only [RelaySession.perform, ha] at hc
              have hset := hspawn ha
              refine ⟨hset, ?_⟩
              split at hc
              · rw [← Option.some.inj hc]
                exact hcache (hsent.position hset).2
              · exact absurd hc (by simp)
          | kill => simp [RelaySession.perform, ha] at hc
          | feedSegment => exact absurd ha hact
          | closeInput => exact hsent.child c (by simpa [RelaySession.perform, ha] using hc)
          | none => exact hsent.child c (by simpa [RelaySession.perform, ha] using hc)
        · have := hsent.next hset hno
          rw [hnext] at this
          exact this
  | _ =>
      simp only [RelaySession.act, hpc] at hr
      exact absurd hr (by simp)

/-- A poll or a download that goes on is a step of the session's. -/
lemma proceed_spec {dcfg : DecoderConfig} {a : DecoderAction} (h : f.proceed dcfg a = some f') :
    a.isNet = true ∧ Steps dcfg f.session a f'.session ∧ f'.readerSet = f.readerSet := by
  simp only [RoomFeeder.proceed] at h
  split at h
  · exact ⟨rfl, forward_spec h⟩
  · exact ⟨rfl, forward_spec h⟩
  · exact ⟨rfl, forward_spec h⟩
  · exact ⟨rfl, forward_spec h⟩
  · exact ⟨rfl, forward_spec h⟩
  · exact ⟨rfl, forward_spec h⟩
  · exact ⟨rfl, forward_spec h⟩
  · exact ⟨rfl, forward_spec h⟩
  · exact absurd h (by simp)

/-- A step of the feeder that the notes do not see. -/
lemma RoomKept.of_quiet {x : RelayRoom} (h : RoomKept (x, n)) (hfeeder : FeederKept f n)
    (hid : f.session.eventId = x.feeder.session.eventId) :
    RoomKept ({ x with feeder := f }, n) :=
  h.of_feeder hfeeder hid rfl rfl rfl id rfl rfl (List.Subset.refl _) (List.Subset.refl _)

/-- A poll or a download goes on. -/
lemma RoomKept.proceed {x y : RelayRoom} {a : DecoderAction} (h : RoomKept (x, n))
    (hc : movesOn (x, n) (.proceed a) = true)
    (hf : x.feeder.proceed cfg.session a = some y.feeder) (hrelay : y.relay = x.relay) :
    RoomKept (y, Followed.note x (.proceed a) n) := by
  obtain ⟨ha, hstep, hreader⟩ := proceed_spec hf
  have hquiet : (∀ r, a ≠ .readLive r) → (∀ r, a ≠ .readEvent r) → RoomKept (y, n) := by
    intro hlive hevent
    obtain ⟨hfeeder, hid⟩ := h.feeder.forward ha hlive hevent hstep hreader
    exact h.of_feeder hfeeder hid hrelay rfl rfl id rfl rfl (List.Subset.refl _)
      (List.Subset.refl _)
  cases a with
  | readLive r => exact h.readLive hc hstep hreader hrelay rfl
  | readEvent r =>
      obtain ⟨hfeeder, hid⟩ := @FeederKept.readEvent _ _ _ x.relay _ h.feeder _ hstep hreader
      refine h.of_feeder hfeeder hid hrelay ?_ ?_ ?_ ?_ ?_ ?_ ?_
      all_goals
        simp only [Followed.note]
        split <;> simp
  | _ => exact hquiet (by simp) (by simp)

/-- **Every step keeps what the notes say**, where the room moves on from an event that
nothing is left of. -/
lemma RoomKept.step {x y : RelayRoom × Followed} {a : RoomAction} (h : RoomKept x)
    (hc : movesOn x a = true)
    (hy : Lib.noted (RelayRoom.step cfg) Followed.note x a = some y) : RoomKept y := by
  obtain ⟨x, n⟩ := x
  obtain ⟨y, n'⟩ := y
  obtain ⟨ht, hn⟩ := Lib.noted_eq_some.mp hy
  simp only at ht hn
  subst hn
  cases a with
  | poll now =>
      obtain ⟨f, hf, rfl⟩ := Option.map_eq_some_iff.mp ht
      simp only [RoomFeeder.poll, Option.ite_none_right_eq_some] at hf
      obtain ⟨hstep, hreader⟩ := forward_spec hf.2
      obtain ⟨hfeeder, hid⟩ := h.feeder.forward rfl (by simp) (by simp) hstep hreader
      exact h.of_quiet hfeeder hid
  | skipPoll =>
      obtain ⟨f, hf, rfl⟩ := Option.map_eq_some_iff.mp ht
      simp only [RoomFeeder.skipPoll, Option.ite_none_right_eq_some, Option.some.injEq] at hf
      obtain ⟨-, rfl⟩ := hf
      exact h.of_quiet (h.feeder.quiet h.feeder.holding rfl rfl rfl rfl) rfl
  | proceed a =>
      obtain ⟨f, hf, rfl⟩ := Option.map_eq_some_iff.mp ht
      exact h.proceed hc hf rfl
  | checkInfo =>
      obtain ⟨f, hf, rfl⟩ := Option.map_eq_some_iff.mp ht
      simp only [RoomFeeder.checkInfo, Option.ite_none_right_eq_some, Option.some.injEq] at hf
      obtain ⟨-, rfl⟩ := hf
      exact h.of_quiet (h.feeder.quiet h.feeder.holding rfl rfl rfl rfl) rfl
  | gotInfo r =>
      obtain ⟨f, hf, rfl⟩ := Option.map_eq_some_iff.mp ht
      simp only [RoomFeeder.gotInfo] at hf
      split at hf
      · split at hf
        · obtain rfl := Option.some.inj hf
          exact h.of_quiet (h.feeder.quiet h.feeder.holding rfl rfl rfl rfl) rfl
        · obtain rfl := Option.some.inj hf
          exact h.of_quiet (h.feeder.quiet h.feeder.holding rfl rfl rfl rfl) rfl
      · exact absurd hf (by simp)
  | park =>
      obtain ⟨f, hf, rfl⟩ := Option.map_eq_some_iff.mp ht
      exact h.park hf rfl rfl
  | pump fuel =>
      obtain ⟨f, hf, rfl⟩ := Option.map_eq_some_iff.mp ht
      simp only [RoomFeeder.pump, Option.ite_none_right_eq_some] at hf
      obtain ⟨hstep, hreader⟩ := forward_spec hf.2
      obtain ⟨hfeeder, hid⟩ := h.feeder.forward rfl (by simp) (by simp) hstep hreader
      exact h.of_quiet hfeeder hid
  | look =>
      obtain ⟨r, hr, rfl⟩ := Option.map_eq_some_iff.mp ht
      exact h.look hr rfl rfl
  | gather e =>
      obtain ⟨r, hr, rfl⟩ := Option.map_eq_some_iff.mp ht
      exact h.gather hr rfl rfl
  | decide =>
      obtain ⟨r, hr, rfl⟩ := Option.map_eq_some_iff.mp ht
      exact h.decide hc hr rfl rfl
  | act ok =>
      obtain ⟨r, hr, rfl⟩ := Option.map_eq_some_iff.mp ht
      exact h.act hc hr rfl rfl
  | supervise => exact h.supervise (Option.some.inj ht).symm rfl
  | edit =>
      obtain rfl := Option.some.inj ht
      exact ⟨h.feeder, ⟨h.pass.begun, h.pass.latest, h.pass.floor, h.pass.gathered, h.pass.acting⟩,
        h.sent.of_relay rfl (fun c hc => ⟨c, hc, rfl⟩) rfl⟩
  | childExits =>
      obtain rfl := Option.some.inj ht
      refine ⟨h.feeder, ⟨h.pass.begun, h.pass.latest, h.pass.floor, fun i hi => ?_,
        fun now d hd => ?_⟩, h.sent.of_relay rfl (fun c hc => ?_) rfl⟩
      · obtain ⟨h1, h2, h3⟩ := h.pass.gathered i hi
        exact ⟨h1, h2, fun ha => by simpa using h3 ha⟩
      · obtain ⟨h1, h2⟩ := h.pass.acting now d hd
        exact ⟨h1, fun ha => by simpa using h2 ha⟩
      · obtain ⟨c', hc', rfl⟩ := Option.map_eq_some_iff.mp hc
        exact ⟨c', hc', rfl⟩

end Runs

/-- **The relay follows the room**, where it moves on from an event that no poll found ended
and in which the destination never had a position. -/
theorem relay_follows {cfg : FeederConfig} (hcfg : cfg.pinnedEventId = "")
    {x : RelayRoom × Followed}
    (hx : Lib.Reach (Lib.noted (RelayRoom.step cfg) Followed.note) (fun x a => movesOn x a = true)
      (fun x => ∃ folders, x = (RelayRoom.new cfg folders, {})) x) : FollowsRoom x := by
  have h : RoomKept x := by
    refine hx.invariant ?_ fun x a y h hc ht => h.step hc ht
    rintro _ ⟨folders, rfl⟩
    have hpin : (DecoderSession.new cfg.session folders).pinnedEventId = "" := hcfg
    refine ⟨⟨⟨rfl, fun hp => absurd hpin hp, by simp [RelayRoom.new, DecoderSession.new],
        by simp [RelayRoom.new, DecoderSession.new]⟩, by simp, by simp, by simp [RelayRoom.new],
        by simp [RelayRoom.new, DecoderSession.new]⟩,
      ⟨by simp, by simp, by simp, by simp [RelayRoom.new], by simp [RelayRoom.new]⟩,
      ⟨by simp [RelayRoom.new], by simp [RelayRoom.new], by simp, by simp, by simp, by simp,
        by simp [RelayRoom.new]⟩⟩
  exact ⟨h.feeder.named, fun hset => (h.sent.position hset).1, h.feeder.reader, h.feeder.window,
    h.sent.first, h.sent.fed, h.sent.current⟩

/-! ### Two runs -/

/-- The configuration of the runs below. -/
def sampleFeeder : FeederConfig := { sha256Hex := fun _ => "sum" }

/-- A poll that finds the room on this event, up to its `event.json`. -/
def pollRoom (id : String) (m : Manifest) : List RoomAction :=
  [.poll 10, .proceed (.readLive { body := some { eventId := id, updatedAtMs := 10 } }),
    .proceed (.readEvent { manifest := { body := some m } }), .checkInfo]

/-- The window parked, and a download of segments, each of one byte. -/
def downloadRoom (init : Bool) (seqs : List ℕ) : List RoomAction :=
  [RoomAction.park, .pump 10] ++
    (if init then
      [RoomAction.proceed (.getInit { body := [7] }), .proceed (.writeInit true)]
    else []) ++ (downloadOf seqs).map .proceed ++
    [RoomAction.proceed .commitDownloads]

/-- A pass of the destination, six seconds behind live. -/
def passAt (nowMs : ℤ) : List RoomAction :=
  List.replicate 5 .look ++ [RoomAction.gather { nowMs, delayS := 6 }, .decide, .act true]

/-- The event `"e"` has no descriptor; the room moves on to `"f"`, and that is sent from its
own place. -/
theorem relay_follows_moved : ∃ x, Lib.Reach (Lib.noted (RelayRoom.step sampleFeeder) Followed.note)
    (fun x a => movesOn x a = true)
    (fun x => ∃ folders, x = (RelayRoom.new sampleFeeder folders, {})) x ∧
      x.2.named = "f" ∧ x.2.visit = 2 ∧
      x.2.fed = [{ visit := 2, connection := "f", event := "f", seq := 8 }] ∧ FollowsRoom x := by
  obtain ⟨x, hx, hp⟩ : ∃ x, Lib.Reach (Lib.noted (RelayRoom.step sampleFeeder) Followed.note)
      (fun x a => movesOn x a = true)
      (fun x => ∃ folders, x = (RelayRoom.new sampleFeeder folders, {})) x ∧
        x.2.named = "f" ∧ x.2.visit = 2 ∧
        x.2.fed = [{ visit := 2, connection := "f", event := "f", seq := 8 }] :=
    Lib.exists_reach_guarded (RelayRoom.new sampleFeeder fun _ => none, ({} : Followed))
      (pollRoom "e" { latestSeq := 3 } ++
        [RoomAction.gotInfo { success := false, httpStatus := 404, body := none }] ++
        downloadRoom true [3] ++ passAt 10 ++
        pollRoom "f" { latestSeq := 9 } ++ [RoomAction.gotInfo { body := some {} }] ++
        downloadRoom true [9] ++ passAt 20 ++ [RoomAction.supervise] ++
        pollRoom "f" { latestSeq := 9 } ++ downloadRoom false [8] ++ passAt 30 ++ passAt 40)
      ⟨_, rfl⟩ (by decide +kernel)
  exact ⟨x, hx, hp.1, hp.2.1, hp.2.2, relay_follows rfl hx⟩

/-- **The destination enters the next event at the old one's position**: segment 3 of `"f"`
goes out first, its place being 8.  And where the old event was found ended, the session never
comes to the next. -/
theorem relay_lingers :
    (∃ x, Lib.Reach (Lib.noted (RelayRoom.step sampleFeeder) Followed.note) Lib.anyStep
      (fun x => ∃ folders, x = (RelayRoom.new sampleFeeder folders, {})) x ∧
        x.2.fed = [{ visit := 1, connection := "e", event := "e", seq := 2 },
          { visit := 2, connection := "f", event := "f", seq := 3 }] ∧
        (x.2.readings.all fun r =>
          r.1 ≠ 2 ∨ r.2.behindLive = 8 ∧ r.2.firstAvailableSeq = 0) = true) ∧
    ∃ x, Lib.Reach (Lib.noted (RelayRoom.step sampleFeeder) Followed.note) Lib.anyStep
      (fun x => ∃ folders, x = (RelayRoom.new sampleFeeder folders, {})) x ∧
        x.2.named = "f" ∧ x.1.feeder.session.eventId = "e" :=
  ⟨Lib.exists_reach (RelayRoom.new sampleFeeder fun _ => none, ({} : Followed))
      (pollRoom "e" { latestSeq := 3 } ++ [RoomAction.gotInfo { body := some {} }] ++
        downloadRoom true [3] ++ passAt 10 ++ [RoomAction.supervise] ++
        pollRoom "e" { latestSeq := 3 } ++ downloadRoom false [2] ++ passAt 20 ++ passAt 30 ++
        [RoomAction.supervise] ++ pollRoom "f" { latestSeq := 9 } ++ passAt 40 ++
        [RoomAction.gotInfo { body := some {} }] ++ downloadRoom true [3, 4, 5, 6] ++ passAt 50 ++
        passAt 60)
      ⟨_, rfl⟩ (by decide +kernel),
    Lib.exists_reach (RelayRoom.new sampleFeeder fun _ => none, ({} : Followed))
      (pollRoom "e" { status := .ended, latestSeq := 3 } ++
        [RoomAction.gotInfo { body := some {} }] ++ downloadRoom true [0, 1, 2, 3] ++
        pollRoom "f" { latestSeq := 9 })
      ⟨_, rfl⟩ (by decide +kernel)⟩

end Multisite

import Multisite.Decoder.Init

/-!
The loops that feed the decoder: `feed_loop` of the OBS source (`multisite_source.cpp`) and of the
campus player (`player.cpp`), over a decoder session.

A step is one test or one write of the loop, one step of the session, or one write of a teardown
that another thread makes (a seek, a stop, a pin). The loop's waits and the gates at its top only
delay its steps. Its own teardowns are one step, since it asks for nothing in their midst.

* `fed_once`: where no decoder fails to start and no teardown of another thread falls between the
  loop's own writes, every segment asked for is pushed once unless a jump or such a teardown came
  in between, and one asked for without a decoder carries its init;
* `fed_never`: after one failed start a host feeds no more.
-/

namespace Multisite

open DecoderSession

/-! ### The wait before a push -/

/-- `FeedWait`. -/
inductive FeedWait where
  | push
  | wait
  | keep
  | drop
  deriving DecidableEq, Repr

/-- `feed_wait_step`. -/
def feedWaitStep (jumped paused leadAllows : Bool) : FeedWait :=
  if jumped then .drop else if paused then .keep else if leadAllows then .push else .wait

/-- A hold keeps the fragment; only a jump drops it. -/
lemma feedWaitStep_eq_drop {jumped paused leadAllows : Bool} :
    feedWaitStep jumped paused leadAllows = .drop ↔ jumped = true := by
  cases jumped <;> cases paused <;> cases leadAllows <;> decide

/-! ### The loop -/

/-- The two hosts. -/
inductive Receiver where
  | source
  | player
  deriving DecidableEq, Repr

/-- The writes of a teardown: `request_init`, the decoder taken and stopped, and
`decoder_started`. -/
inductive Teardown where
  | requestInit
  | detach
  | unstart
  deriving DecidableEq, Repr

/-- `release_decoder_for_restart` and `stop_playback` of the source, `teardown_decoder` of the
player. -/
def Receiver.teardown : Receiver → List Teardown
  | .source => [.detach, .unstart, .requestInit]
  | .player => [.requestInit, .detach, .unstart]

/-- Where the loop stands with the segment in its hand. -/
inductive FeedStage where
  /-- Before and in `next_segment`. -/
  | asking
  | served (seg : PlayableSegment)
  /-- Past the comparison of the discontinuity. -/
  | compared (seg : PlayableSegment)
  /-- Its decoder has started, and `decoder_started` is not set yet. -/
  | starting (seg : PlayableSegment)
  | opened (seg : PlayableSegment)
  /-- In the wait, with `feeding_disc`. -/
  | parked (seg : PlayableSegment) (feedingDisc : ℕ)
  | pushing (seg : PlayableSegment)
  deriving DecidableEq, Repr

/-- The segment in hand. -/
def FeedStage.seg? : FeedStage → Option PlayableSegment
  | .asking => none
  | .served seg | .compared seg | .starting seg | .opened seg | .parked seg _ | .pushing seg =>
      some seg

/-- The segment in hand can still start a decoder. -/
def FeedStage.bringsInit : FeedStage → Bool
  | .served seg | .compared seg | .starting seg => !seg.init.isEmpty
  | _ => false

/-- What the loop and the teardowns write; `teardown` is what another thread's has still to do. -/
structure FeedLoop where
  stage : FeedStage := .asking
  seenDiscontinuity : ℕ := 0
  decoderStarted : Bool := false
  decoder : Bool := false
  teardown : List Teardown := []
  deriving DecidableEq, Repr

/-- One step of the session, of the loop, or of another thread's teardown. -/
inductive FeedAction where
  | session (a : DecoderAction)
  | compare
  | start (ok : Bool)
  | setStarted
  | park
  | wait (paused leadAllows : Bool)
  | push (ok : Bool)
  | tearDown
  | teardown
  deriving DecidableEq, Repr

namespace FeedLoop

variable (s : DecoderSession) (l : FeedLoop)

/-- A teardown from first to last, as the loop makes its own. -/
def release : DecoderSession × FeedLoop :=
  (s.requestInit, { l with decoder := false, decoderStarted := false })

/-- A changed discontinuity tears a running decoder down. -/
def compare (seg : PlayableSegment) : DecoderSession × FeedLoop :=
  let jumped := decide (s.discontinuity ≠ l.seenDiscontinuity)
  let l := { l with stage := .compared seg, seenDiscontinuity := s.discontinuity }
  if jumped && l.decoderStarted then l.release s else (s, l)

/-- Without a decoder the init starts one; a segment that brings none, or whose decoder does not
start, is thrown away. -/
def start (seg : PlayableSegment) (ok : Bool) : FeedLoop :=
  if l.decoderStarted then { l with stage := .opened seg }
  else if seg.init = [] then { l with stage := .asking }
  else if ok then { l with stage := .starting seg, decoder := true }
  else { l with stage := .asking }

/-- One round of the wait. -/
def wait (seg : PlayableSegment) (feedingDisc : ℕ) (paused leadAllows : Bool) : FeedLoop :=
  let jumped := !l.decoderStarted || decide (s.discontinuity ≠ feedingDisc)
  match feedWaitStep jumped paused leadAllows with
  | .drop => { l with stage := .asking }
  | .push => { l with stage := .pushing seg }
  | .keep | .wait => l

/-- The push; the player rebuilds a decoder that has stopped consuming. -/
def push (host : Receiver) (ok : Bool) : DecoderSession × FeedLoop :=
  let l := { l with stage := .asking }
  if l.decoder && !ok && decide (host = .player) then l.release s else (s, l)

/-- One write of another thread's teardown. -/
def tear (w : Teardown) (rest : List Teardown) : DecoderSession × FeedLoop :=
  let l := { l with teardown := rest }
  match w with
  | .requestInit => (s.requestInit, l)
  | .detach => (s, { l with decoder := false })
  | .unstart => (s, { l with decoderStarted := false })

end FeedLoop

/-- One step of a host. -/
def feedStep (host : Receiver) (cfg : DecoderConfig) (x : DecoderSession × FeedLoop) :
    FeedAction → Option (DecoderSession × FeedLoop)
  | .session a =>
      if a.isFeed ∧ x.2.stage ≠ .asking then none
      else (x.1.step cfg a).map fun t =>
        (t, ((x.1.handed a).map fun p => { x.2 with stage := .served p }).getD x.2)
  | .compare =>
      match x.2.stage with
      | .served seg => some (x.2.compare x.1 seg)
      | _ => none
  | .start ok =>
      match x.2.stage with
      | .compared seg => some (x.1, x.2.start seg ok)
      | _ => none
  | .setStarted =>
      match x.2.stage with
      | .starting seg => some (x.1, { x.2 with stage := .opened seg, decoderStarted := true })
      | _ => none
  | .park =>
      match x.2.stage with
      | .opened seg => some (x.1, { x.2 with stage := .parked seg x.1.discontinuity })
      | _ => none
  | .wait paused leadAllows =>
      match x.2.stage with
      | .parked seg disc => some (x.1, x.2.wait x.1 seg disc paused leadAllows)
      | _ => none
  | .push ok =>
      match x.2.stage with
      | .pushing _ => some (x.2.push x.1 host ok)
      | _ => none
  | .tearDown =>
      if x.2.teardown = [] then some (x.1, { x.2 with teardown := host.teardown }) else none
  | .teardown =>
      match x.2.teardown with
      | [] => none
      | w :: rest => some (x.2.tear x.1 w rest)

/-! ### What becomes of a segment -/

/-- A segment the loop is done with: whether it was asked for with no decoder started, whether a
jump or another thread's teardown came since, and how often it was pushed. -/
structure FedSegment where
  seg : PlayableSegment
  noDecoder : Bool
  disturbed : Bool
  pushes : ℕ
  deriving DecidableEq, Repr

/-- Fed once, and never a decoder without its init. -/
def FedSegment.Good (f : FedSegment) : Prop :=
  (f.disturbed = false → f.pushes = 1) ∧ (f.noDecoder = true → f.seg.init ≠ [])

instance : DecidablePred FedSegment.Good := fun _ => inferInstanceAs (Decidable (_ ∧ _))

/-- What is noted of the segment asked for last, and of those before it. -/
structure FeedNotes where
  noDecoder : Bool := false
  disturbed : Bool := false
  fates : List FedSegment := []
  deriving DecidableEq, Repr

/-- A step of another thread's teardown. -/
def FeedAction.tears : FeedAction → Bool
  | .tearDown | .teardown => true
  | _ => false

/-- How often a step pushes the segment in hand; a decoder taken away meanwhile gets nothing. -/
def FeedAction.pushes (l : FeedLoop) : FeedAction → ℕ
  | .push _ => if l.decoder then 1 else 0
  | _ => 0

/-- The notes after a step. -/
def FeedNotes.note (host : Receiver) (cfg : DecoderConfig) (x : DecoderSession × FeedLoop)
    (a : FeedAction) (n : FeedNotes) : FeedNotes :=
  match feedStep host cfg x a with
  | none => n
  | some y =>
      if a = .session .nextSegment then
        { n with noDecoder := !x.2.decoderStarted, disturbed := !x.2.teardown.isEmpty }
      else
        let disturbed :=
          n.disturbed || a.tears || decide (y.1.discontinuity ≠ x.1.discontinuity)
        let fate := x.2.stage.seg?.map fun seg =>
          { seg, noDecoder := n.noDecoder, disturbed, pushes := a.pushes x.2 }
        { n with
          disturbed
          fates := (if y.2.stage = .asking then fate.toList else []) ++ n.fates }

/-- No decoder fails to start, and none is taken before its flag is set; while the init counts as
sent, the loop neither asks just before a teardown's `request_init` nor comes to a skip; and no init
is sent between the writes of a teardown that asks for it first. -/
def undisturbed (x : (DecoderSession × FeedLoop) × FeedNotes) : FeedAction → Bool
  | .start ok => ok
  | .setStarted => x.1.2.decoder
  | .session .nextSegment =>
      !x.1.1.initSent || (!x.1.1.skips && decide (x.1.2.teardown ≠ [.requestInit]))
  | .session .commitSegment =>
      match x.1.1.feed with
      | .committing c _ =>
          !c.needInit || x.1.2.teardown.isEmpty || decide (.requestInit ∈ x.1.2.teardown)
      | _ => true
  | _ => true

/-! ### The invariant -/

/-- What is left of a teardown after one of its writes. -/
lemma Receiver.rest_of_suffix (host : Receiver) {w : Teardown} {rest : List Teardown}
    (h : w :: rest <:+ host.teardown) : rest <:+ host.teardown ∧
      (w = .unstart → rest = [.requestInit] ∨ rest = []) ∧ (w = .detach → .unstart ∈ rest) ∧
      (w ≠ .requestInit → .requestInit ∉ rest → .requestInit ∉ w :: rest) := by
  refine ⟨(List.suffix_cons w rest).trans h, ?_⟩
  cases host <;> cases w <;> simp [Receiver.teardown, List.suffix_cons_iff] at h ⊢ <;> simp [h]

/-- A round of the wait drops the segment for a jump alone. -/
lemma FeedLoop.wait_cases (s : DecoderSession) (l : FeedLoop) (seg : PlayableSegment) (disc : ℕ)
    (paused leadAllows : Bool) :
    ((l.decoderStarted = false ∨ s.discontinuity ≠ disc) ∧
      l.wait s seg disc paused leadAllows = { l with stage := .asking }) ∨
    l.wait s seg disc paused leadAllows = { l with stage := .pushing seg } ∨
    l.wait s seg disc paused leadAllows = l := by
  unfold wait
  dsimp only
  split
  · rename_i hw
    refine .inl ⟨?_, rfl⟩
    simpa using feedWaitStep_eq_drop.mp hw
  · exact .inr (.inl rfl)
  · exact .inr (.inr rfl)
  · exact .inr (.inr rfl)

/-- What the stage owes, by whether a jump or another thread's teardown came since the segment was
asked for: undisturbed, a segment without its init finds the decoder running. -/
def FeedStage.Holds (s : DecoderSession) (l : FeedLoop) (n : FeedNotes) : FeedStage → Prop
  | .asking => True
  | .served seg => (seg.init = [] → n.noDecoder = false) ∧
      (n.disturbed = false → seg.init = [] →
        l.decoderStarted = true ∧ l.seenDiscontinuity = s.discontinuity)
  | .compared seg => (seg.init = [] → n.noDecoder = false) ∧
      (n.disturbed = false → seg.init = [] → l.decoderStarted = true)
  | .starting seg => seg.init ≠ []
  | .opened seg | .pushing seg => (seg.init = [] → n.noDecoder = false) ∧
      (n.disturbed = false → l.decoderStarted = true)
  | .parked seg disc => (seg.init = [] → n.noDecoder = false) ∧
      (n.disturbed = false → l.decoderStarted = true ∧ s.discontinuity = disc)

/-- What is owed goes by the discontinuity and by the loop's two marks. -/
lemma FeedStage.Holds.congr {s t : DecoderSession} {l l' : FeedLoop} {n : FeedNotes}
    {st : FeedStage} (h : st.Holds s l n) (hd : t.discontinuity = s.discontinuity)
    (h1 : l'.decoderStarted = l.decoderStarted)
    (h2 : l'.seenDiscontinuity = l.seenDiscontinuity) : st.Holds t l' n := by
  cases st <;> simp only [Holds, hd, h1, h2] at h ⊢ <;> exact h

/-- Disturbed, only the init of what was asked for without a decoder is owed. -/
lemma FeedStage.Holds.disturb {s t : DecoderSession} {l l' : FeedLoop} {n : FeedNotes}
    {st : FeedStage} (h : st.Holds s l n) : st.Holds t l' { n with disturbed := true } := by
  cases st <;> simp only [Holds, Bool.true_eq_false, false_implies, and_true] at h ⊢
  case starting => exact h
  all_goals exact h.1

/-- The init is sent only to a decoder that runs, that is about to start with it, or that a
teardown will ask for again. -/
structure FeedOwed (host : Receiver) (s : DecoderSession) (l : FeedLoop) (n : FeedNotes) : Prop where
  seen : s.initSent = true → (∃ seg, l.stage = .served seg) ∨ l.seenDiscontinuity = s.discontinuity
  sent : s.initSent = true →
    l.decoderStarted = true ∨ l.teardown = [.requestInit] ∨ l.stage.bringsInit = true
  torn : l.teardown ≠ [] → .requestInit ∉ l.teardown → s.initSent = false
  running : .unstart ∉ l.teardown → l.decoderStarted = true → l.decoder = true
  shape : l.teardown <:+ host.teardown
  calm : n.disturbed = false → l.teardown = []
  chosen : ∀ c, s.feed.chosen? = some c → c.needInit = false → n.noDecoder = false ∧
    (n.disturbed = false → l.decoderStarted = true ∧ l.seenDiscontinuity = s.discontinuity)
  ready : ∀ c init, s.feed = .committing c init → c.needInit = true → init ≠ []
  reading : l.stage ≠ .asking → s.feed = .idle
  hand : l.stage.Holds s l n
  fates : ∀ f ∈ n.fates, f.Good

namespace FeedOwed

variable {host : Receiver} {cfg : DecoderConfig} {s t : DecoderSession} {l : FeedLoop}
  {n : FeedNotes} {seg : PlayableSegment}

/-! ### The session's steps -/

/-- A step of the session outside `next_segment`. -/
lemma session (h : FeedOwed host s l n) (ht : Rearms s t) :
    FeedOwed host t l { n with disturbed := n.disturbed || decide (t.discontinuity ≠ s.discontinuity) } := by
  obtain ⟨hfeed, hi⟩ := ht
  -- undisturbed, the discontinuity is the one it was
  have hcalm : (n.disturbed || decide (t.discontinuity ≠ s.discontinuity)) = false →
      n.disturbed = false ∧ t.discontinuity = s.discontinuity := by
    simp [Bool.or_eq_false_iff]
  refine ⟨fun hs => ?_, fun hs => h.sent (hi hs).1, fun h1 h2 => ?_, h.running, h.shape,
    fun hd => h.calm (hcalm hd).1, fun c hc hn => ?_, fun c init hc => h.ready c init (hfeed ▸ hc),
    fun hst => hfeed.trans (h.reading hst), ?_, h.fates⟩
  · rw [(hi hs).2]
    exact h.seen (hi hs).1
  · exact Bool.eq_false_iff.mpr fun hs =>
      absurd (hi hs).1 (Bool.eq_false_iff.mp (h.torn h1 h2))
  · obtain ⟨h1, h2⟩ := h.chosen c (hfeed ▸ hc) hn
    refine ⟨h1, fun hd => ?_⟩
    rw [(hcalm hd).2]
    exact h2 (hcalm hd).1
  · have hhand := h.hand
    cases hst : l.stage with
    | asking => trivial
    | served seg =>
        rw [hst] at hhand
        refine ⟨hhand.1, fun hd hseg => ?_⟩
        rw [(hcalm hd).2]
        exact hhand.2 (hcalm hd).1 hseg
    | compared seg =>
        rw [hst] at hhand
        exact ⟨hhand.1, fun hd => hhand.2 (hcalm hd).1⟩
    | starting seg =>
        rw [hst] at hhand
        exact hhand
    | opened seg =>
        rw [hst] at hhand
        exact ⟨hhand.1, fun hd => hhand.2 (hcalm hd).1⟩
    | parked seg disc =>
        rw [hst] at hhand
        refine ⟨hhand.1, fun hd => ?_⟩
        rw [(hcalm hd).2]
        exact hhand.2 (hcalm hd).1
    | pushing seg =>
        rw [hst] at hhand
        exact ⟨hhand.1, fun hd => hhand.2 (hcalm hd).1⟩

/-- The loop asks: the init comes with the segment unless a decoder runs. -/
lemma ask (h : FeedOwed host s l n) (hst : l.stage = .asking) (hpc : s.feed = .idle)
    (hc : s.initSent = true → s.skips = false ∧ l.teardown ≠ [.requestInit]) :
    FeedOwed host s.nextSegment l
      { n with noDecoder := !l.decoderStarted, disturbed := !l.teardown.isEmpty } := by
  obtain ⟨hi, hd, hneed, hready⟩ := nextSegment_spec hpc
  -- where the init is sent, a decoder runs, and nothing is skipped
  have hruns : s.initSent = true →
      l.decoderStarted = true ∧ l.seenDiscontinuity = s.nextSegment.discontinuity := by
    intro hs
    have hsent := h.sent hs
    have hseen := h.seen hs
    rw [hst] at hsent hseen
    rw [hd (hc hs).1]
    refine ⟨?_, ?_⟩
    · rcases hsent with hsent | hsent | hsent
      · exact hsent
      · exact absurd hsent (hc hs).2
      · exact absurd hsent (by simp [FeedStage.bringsInit])
    · rcases hseen with ⟨seg, hseen⟩ | hseen
      · exact absurd hseen (by simp)
      · exact hseen
  refine ⟨fun hs => .inr (hruns (hi ▸ hs)).2, fun hs => .inl (hruns (hi ▸ hs)).1, fun h1 h2 => ?_,
    h.running, h.shape, fun hd => ?_, fun c hcs hn => ?_, fun c init hcs => absurd hcs (hready c init),
    fun hne => absurd hst hne, ?_, h.fates⟩
  · rw [hi]
    exact h.torn h1 h2
  · exact List.isEmpty_iff.mp (by simpa using hd)
  · have hs : s.initSent = true := by
      have := hneed c hcs
      rw [hn] at this
      simpa using this.symm
    exact ⟨by simp [(hruns hs).1], fun _ => hruns hs⟩
  · rw [hst]
    trivial

/-- `next_segment` reads the segment it has chosen. -/
lemma read (h : FeedOwed host s l n) (hst : l.stage = .asking) (ht : Reading s t) :
    FeedOwed host t l n := by
  have hi : t.initSent = s.initSent := congrArg Playhead.initSent ht.playhead
  have hd : t.discontinuity = s.discontinuity := congrArg Playhead.discontinuity ht.playhead
  refine ⟨?_, ?_, ?_, h.running, h.shape, h.calm, fun c' hc' hn => ?_, ht.ready,
    fun hne => absurd hst hne, ?_, h.fates⟩
  · rw [hi, hd]
    exact h.seen
  · rw [hi]
    exact h.sent
  · rw [hi]
    exact h.torn
  · obtain ⟨c, hc0, hsame⟩ := ht.chosen c' hc'
    rw [hd]
    exact h.chosen c hc0 (by rw [hsame] at hn; exact hn)
  · exact h.hand.congr hd rfl rfl

/-- `next_segment` returns the segment, with the init where it was needed; or the position has
moved, and it returns nothing. -/
lemma commit {c : Chosen} {init : Bytes} (h : FeedOwed host s l n) (hst : l.stage = .asking)
    (hpc : s.feed = .committing c init)
    (hc : c.needInit = true → l.teardown = [] ∨ .requestInit ∈ l.teardown) :
    FeedOwed host (s.nextCommit c init)
      (((s.returned c init).map fun p => { l with stage := .served p }).getD l) n := by
  have hneed := h.chosen c (by rw [hpc]; rfl)
  have hinit := h.ready c init hpc
  rw [nextCommit, returned]
  by_cases hhead : s.head = c.want
  · rw [if_pos hhead]
    -- the segment has its init exactly where the loop asked for it
    have hempty : (if c.needInit then init else []) = [] → c.needInit = false := by
      cases hb : c.needInit with
      | false => exact fun _ => rfl
      | true => exact fun hi => absurd hi (hinit hb)
    refine ⟨fun _ => .inl ⟨_, rfl⟩, fun hs => ?_, fun h1 h2 => ?_, h.running, h.shape, h.calm,
      fun c' hc' => absurd hc' (by simp [FeedPc.chosen?]), fun c' i hc' => absurd hc' (by simp),
      fun _ => rfl, ?_, h.fates⟩
    · cases hb : c.needInit with
      | true =>
          refine .inr (.inr ?_)
          simpa [FeedStage.bringsInit, hb, List.isEmpty_iff] using hinit hb
      | false =>
          have hsent := h.sent (by simpa [hb] using hs)
          rw [hst] at hsent
          exact hsent.imp_right fun h => .inl (h.resolve_right (by simp [FeedStage.bringsInit]))
    · have hn : c.needInit = false := by
        cases hb : c.needInit with
        | false => rfl
        | true => exact ((hc hb).elim (absurd · h1) (absurd · h2))
      simpa [hn] using h.torn h1 h2
    · exact ⟨fun hi => (hneed (hempty hi)).1, fun hd hi => (hneed (hempty hi)).2 hd⟩
  · rw [if_neg hhead]
    refine ⟨h.seen, h.sent, h.torn, h.running, h.shape, h.calm,
      fun c' hc' => absurd hc' (by simp [FeedPc.chosen?]), fun c' i hc' => absurd hc' (by simp),
      fun _ => rfl, ?_, h.fates⟩
    rw [Option.map_none, Option.getD_none, hst]
    trivial

/-! ### The loop's steps -/

/-- The segment in hand is done with. -/
lemma done (h : FeedOwed host s l n) {f : FedSegment} (hf : f.Good)
    (hsent : s.initSent = true → l.decoderStarted = true ∨ l.teardown = [.requestInit])
    (hseen : s.initSent = true → l.seenDiscontinuity = s.discontinuity) :
    FeedOwed host s { l with stage := .asking } { n with fates := f :: n.fates } := by
  refine ⟨fun hs => .inr (hseen hs), fun hs => (hsent hs).imp_right .inl, h.torn, h.running, h.shape, h.calm,
    h.chosen, h.ready, fun hne => absurd rfl hne, trivial, fun g hg => ?_⟩
  rcases List.mem_cons.mp hg with rfl | hg
  · exact hf
  · exact h.fates g hg

/-- A decoder of the loop's own is gone, and the init is owed. -/
lemma release (h : FeedOwed host s l n) (hst : l.stage.Holds s { l with decoderStarted := false } n)
    (hchosen : s.feed.chosen? = none) : FeedOwed host (l.release s).1 (l.release s).2 n := by
  refine ⟨fun hs => absurd hs (by simp [FeedLoop.release, requestInit]),
    fun hs => absurd hs (by simp [FeedLoop.release, requestInit]),
    fun _ _ => rfl, fun _ hs => absurd hs (by simp [FeedLoop.release]), h.shape, h.calm, fun c hc => ?_,
    h.ready, h.reading, ?_, h.fates⟩
  · exact absurd hc (by rw [FeedLoop.release, requestInit, hchosen]; simp)
  · exact hst.congr rfl rfl rfl

/-! ### Another thread's teardown -/

/-- One begins. -/
lemma tearDown (h : FeedOwed host s l n) (hl : l.teardown = []) :
    FeedOwed host s { l with teardown := host.teardown } { n with disturbed := true } := by
  refine ⟨h.seen, fun hs => ?_, fun _ hr => ?_, fun hu => ?_, List.suffix_rfl,
    fun hd => absurd hd (by simp), fun c hc hn => ⟨(h.chosen c hc hn).1, fun hd => absurd hd (by simp)⟩,
    h.ready, h.reading, h.hand.disturb, h.fates⟩
  · rcases h.sent hs with hs | hs | hs
    · exact .inl hs
    · exact absurd (hl ▸ hs) (by simp)
    · exact .inr (.inr hs)
  · exact absurd hr (by cases host <;> simp [Receiver.teardown])
  · exact absurd hu (by cases host <;> simp [Receiver.teardown])

/-- Its next write. -/
lemma tear {w : Teardown} {rest : List Teardown} (h : FeedOwed host s l n)
    (hl : l.teardown = w :: rest) :
    FeedOwed host (l.tear s w rest).1 (l.tear s w rest).2 { n with disturbed := true } := by
  obtain ⟨hrest, hun, hdet, hreq⟩ := host.rest_of_suffix (hl ▸ h.shape)
  have hchosen : ∀ (t : DecoderSession) (l' : FeedLoop), t.feed = s.feed →
      ∀ c, t.feed.chosen? = some c → c.needInit = false → n.noDecoder = false ∧
        (true = false → l'.decoderStarted = true ∧ l'.seenDiscontinuity = t.discontinuity) :=
    fun t l' hf c hc hn => ⟨(h.chosen c (hf ▸ hc) hn).1, fun hd => absurd hd (by simp)⟩
  cases w with
  | requestInit =>
      refine ⟨fun hs => absurd hs (by simp [FeedLoop.tear, requestInit]),
        fun hs => absurd hs (by simp [FeedLoop.tear, requestInit]), fun _ _ => rfl, fun hu => ?_, hrest,
        fun hd => absurd hd (by simp), hchosen _ _ rfl, h.ready, h.reading, h.hand.disturb, h.fates⟩
      refine h.running ?_
      rw [hl]
      exact fun hm => hu ((List.mem_cons.mp hm).resolve_left (by simp))
  | detach =>
      refine ⟨h.seen, fun hs => ?_, fun h1 h2 => h.torn (by rw [hl]; simp) ?_,
        fun hu => absurd (hdet rfl) hu, hrest, fun hd => absurd hd (by simp), hchosen _ _ rfl, h.ready,
        h.reading, h.hand.disturb, h.fates⟩
      · rcases h.sent hs with hs | hs | hs
        · exact .inl hs
        · exact absurd (hl ▸ hs) (by simp)
        · exact .inr (.inr hs)
      · rw [hl]
        exact hreq (by simp) h2
  | unstart =>
      have htorn : rest = [] → s.initSent = false := by
        rintro rfl
        refine h.torn (by rw [hl]; simp) ?_
        rw [hl]
        simp
      refine ⟨h.seen, fun hs => .inr (.inl ?_), fun h1 h2 => ?_, fun _ hs => absurd hs (by simp [FeedLoop.tear]),
        hrest, fun hd => absurd hd (by simp), hchosen _ _ rfl, h.ready, h.reading, h.hand.disturb,
        h.fates⟩
      · rcases hun rfl with hr | hr
        · exact hr
        · exact absurd hs (by rw [FeedLoop.tear, htorn hr]; simp)
      · rcases hun rfl with hr | hr
        · exact absurd (show .requestInit ∈ rest by rw [hr]; simp) h2
        · exact absurd hr h1

/-! ### The loop's steps -/

/-- The segment in hand goes on. -/
lemma next {l' : FeedLoop} (h : FeedOwed host s l n) (hst : l.stage ≠ .asking)
    (hserved : ∀ seg, l.stage ≠ .served seg) (hl : l'.teardown = l.teardown)
    (hseen : l'.seenDiscontinuity = l.seenDiscontinuity)
    (hsent : l'.decoderStarted = true ∨
      l'.decoderStarted = l.decoderStarted ∧ l'.stage.bringsInit = l.stage.bringsInit)
    (hrun : l'.decoderStarted = true → l'.decoder = true ∨
      l'.decoder = l.decoder ∧ l'.decoderStarted = l.decoderStarted)
    (hhand : l'.stage.Holds s l' n) : FeedOwed host s l' n := by
  have hpc := h.reading hst
  refine ⟨fun hs => .inr ?_, fun hs => ?_, fun h1 h2 => h.torn (hl ▸ h1) (hl ▸ h2), fun hu hs => ?_,
    hl ▸ h.shape, fun hd => hl.trans (h.calm hd), fun c hc => ?_, h.ready, fun _ => hpc, hhand,
    h.fates⟩
  · rw [hseen]
    exact (h.seen hs).resolve_left fun ⟨seg, hseg⟩ => hserved seg hseg
  · rcases hsent with hsent | ⟨h1, h2⟩
    · exact .inl hsent
    · rw [h1, h2, hl]
      exact h.sent hs
  · rcases hrun hs with hrun | ⟨h1, h2⟩
    · exact hrun
    · rw [h1]
      exact h.running (hl ▸ hu) (h2 ▸ hs)
  · exact absurd hc (by rw [hpc]; simp [FeedPc.chosen?])

/-- The comparison of the discontinuity. -/
lemma compare (h : FeedOwed host s l n) (hst : l.stage = .served seg) :
    FeedOwed host (l.compare s seg).1 (l.compare s seg).2 n := by
  have hpc : s.feed = .idle := h.reading (by rw [hst]; simp)
  have hhand := h.hand
  have hsent := h.sent
  rw [hst] at hhand hsent
  have hkept : FeedOwed host s { l with
      stage := .compared seg, seenDiscontinuity := s.discontinuity } n := by
    refine ⟨fun _ => .inr rfl, hsent, h.torn, h.running, h.shape, h.calm, fun c hc => ?_, h.ready,
      fun _ => hpc, ⟨hhand.1, fun hd hi => (hhand.2 hd hi).1⟩, h.fates⟩
    exact absurd hc (by rw [hpc]; simp [FeedPc.chosen?])
  simp only [FeedLoop.compare]
  split
  · rename_i hjump
    simp only [Bool.and_eq_true, decide_eq_true_eq] at hjump
    refine hkept.release ⟨hhand.1, fun hd hi => ?_⟩ (by rw [hpc]; rfl)
    exact absurd (hhand.2 hd hi).2.symm hjump.1
  · exact hkept

/-- The loop throws the segment away. -/
lemma drop (h : FeedOwed host s l n) (hserved : ∀ seg, l.stage ≠ .served seg) (hbrings : l.stage.bringsInit = false)
    (hinit : seg.init = [] → n.noDecoder = false) (hd : n.disturbed = true) :
    FeedOwed host s { l with stage := .asking }
      { n with fates := ⟨seg, n.noDecoder, n.disturbed, 0⟩ :: n.fates } := by
  refine h.done ⟨fun hf => absurd hf (by simp [hd]), fun hn hi => ?_⟩ (fun hs => ?_) fun hs => ?_
  · exact absurd (hinit hi) (by simpa using hn)
  · rcases h.sent hs with hs | hs | hs
    · exact .inl hs
    · exact .inr hs
    · exact absurd hs (by simp [hbrings])
  · exact (h.seen hs).resolve_left fun ⟨seg, hseg⟩ => hserved seg hseg

/-- The start of a decoder. -/
lemma start (h : FeedOwed host s l n) (hst : l.stage = .compared seg) :
    FeedOwed host s (l.start seg true) { n with
      fates := (if (l.start seg true).stage = .asking then
        [⟨seg, n.noDecoder, n.disturbed, 0⟩] else []) ++ n.fates } := by
  have hhand := h.hand
  rw [hst] at hhand
  have hne : l.stage ≠ .asking := by rw [hst]; simp
  have hserved : ∀ seg', l.stage ≠ .served seg' := fun seg' => by rw [hst]; simp
  unfold FeedLoop.start
  by_cases hstarted : l.decoderStarted = true
  · rw [if_pos hstarted]
    exact h.next hne hserved rfl rfl (.inl hstarted) (fun _ => .inr ⟨rfl, rfl⟩)
      ⟨hhand.1, fun _ => hstarted⟩
  · rw [if_neg hstarted]
    by_cases hinit : seg.init = []
    · rw [if_pos hinit]
      refine h.drop hserved (by rw [hst]; simp [FeedStage.bringsInit, hinit]) hhand.1 ?_
      by_contra hd
      exact hstarted (hhand.2 (by simpa using hd) hinit)
    · rw [if_neg hinit, if_pos rfl]
      exact h.next hne hserved rfl rfl (.inr ⟨rfl, by rw [hst]; rfl⟩) (fun _ => .inl rfl) hinit

/-- One round of the wait. -/
lemma wait {disc : ℕ} {paused leadAllows : Bool} (h : FeedOwed host s l n)
    (hst : l.stage = .parked seg disc) :
    FeedOwed host s (l.wait s seg disc paused leadAllows) { n with
      fates := (if (l.wait s seg disc paused leadAllows).stage = .asking then
        [⟨seg, n.noDecoder, n.disturbed, 0⟩] else []) ++ n.fates } := by
  have hhand := h.hand
  rw [hst] at hhand
  have hne : l.stage ≠ .asking := by rw [hst]; simp
  have hserved : ∀ seg', l.stage ≠ .served seg' := fun seg' => by rw [hst]; simp
  rcases l.wait_cases s seg disc paused leadAllows with ⟨hjump, hw⟩ | hw | hw <;> rw [hw]
  · refine h.drop hserved (by rw [hst]; rfl) hhand.1 ?_
    by_contra hd
    obtain ⟨h1, h2⟩ := hhand.2 (by simpa using hd)
    exact hjump.elim (fun hj => absurd h1 (by simp [hj])) fun hj => hj h2
  · exact h.next hne hserved rfl rfl (.inr ⟨rfl, by rw [hst]; rfl⟩) (fun _ => .inr ⟨rfl, rfl⟩)
      ⟨hhand.1, fun hd => (hhand.2 hd).1⟩
  · rw [if_neg hne]
    exact h

/-- The push. -/
lemma push {ok : Bool} (h : FeedOwed host s l n) (hst : l.stage = .pushing seg) :
    FeedOwed host (l.push s host ok).1 (l.push s host ok).2 { n with
      fates := ⟨seg, n.noDecoder, n.disturbed, if l.decoder then 1 else 0⟩ :: n.fates } := by
  have hhand := h.hand
  rw [hst] at hhand
  have hdone : FeedOwed host s { l with stage := .asking } { n with
      fates := ⟨seg, n.noDecoder, n.disturbed, if l.decoder then 1 else 0⟩ :: n.fates } := by
    refine h.done ⟨fun hd => ?_, fun hn hi => ?_⟩ (fun hs => ?_) fun hs => ?_
    · have hcalm : .unstart ∉ l.teardown := by
        rw [h.calm hd]
        simp
      exact if_pos (h.running hcalm (hhand.2 hd))
    · exact absurd (hhand.1 hi) (by simpa using hn)
    · rcases h.sent hs with hs | hs | hs
      · exact .inl hs
      · exact .inr hs
      · exact absurd hs (by rw [hst]; simp [FeedStage.bringsInit])
    · exact (h.seen hs).resolve_left fun ⟨seg, hseg⟩ => by rw [hst] at hseg; simp at hseg
  simp only [FeedLoop.push]
  split
  · refine hdone.release trivial ?_
    rw [h.reading (by rw [hst]; simp)]
    rfl
  · exact hdone

/-- A step of the session. -/
lemma sessionStep {a : DecoderAction} {t : DecoderSession} (h : FeedOwed host s l n)
    (hc : undisturbed ((s, l), n) (.session a) = true) (hfeed : a.isFeed = true → l.stage = .asking)
    (ht : s.step cfg a = some t) :
    FeedOwed host t (((s.handed a).map fun p => { l with stage := .served p }).getD l)
      (if a = .nextSegment then
        { n with noDecoder := !l.decoderStarted, disturbed := !l.teardown.isEmpty }
      else { n with disturbed := n.disturbed || decide (t.discontinuity ≠ s.discontinuity) }) := by
  have hsame : t.discontinuity = s.discontinuity →
      { n with disturbed := n.disturbed || decide (t.discontinuity ≠ s.discontinuity) } = n := by
    intro hd
    simp [hd]
  have hread : a.isRead = true → s.handed a = none → a ≠ .nextSegment → l.stage = .asking →
      FeedOwed host t (((s.handed a).map fun p => { l with stage := .served p }).getD l)
        (if a = .nextSegment then
          { n with noDecoder := !l.decoderStarted, disturbed := !l.teardown.isEmpty }
        else { n with disturbed := n.disturbed || decide (t.discontinuity ≠ s.discontinuity) }) := by
    intro ha hnone hne hst
    have hr := reading_of_read (steps_of_step ht) ha
    rw [if_neg hne, hsame (congrArg Playhead.discontinuity hr.playhead), hnone]
    exact h.read hst hr
  cases hf : a.isFeed with
  | false =>
      have hnone : s.handed a = none := by
        cases a <;> first | rfl | simp [DecoderAction.isFeed] at hf
      have hne : a ≠ .nextSegment := by
        rintro rfl
        simp [DecoderAction.isFeed] at hf
      rw [hnone, if_neg hne]
      exact h.session (rearms_of_steps (steps_of_step ht) hf)
  | true =>
      have hst := hfeed hf
      cases steps_of_step ht with
      | nextSegment hpc =>
          rw [if_pos rfl]
          refine h.ask hst hpc fun hs => ?_
          simpa [undisturbed, hs] using hc
      | openSegment => exact hread rfl rfl (by simp) hst
      | loadSegment => exact hread rfl rfl (by simp) hst
      | openInit => exact hread rfl rfl (by simp) hst
      | loadInit => exact hread rfl rfl (by simp) hst
      | @commitSegment c init hpc =>
          have hd : (s.nextCommit c init).discontinuity = s.discontinuity := by
            rw [nextCommit]
            split <;> rfl
          rw [if_neg (by simp), hsame hd]
          simp only [handed, hpc]
          refine h.commit hst hpc fun hneed => ?_
          simpa [undisturbed, hpc, hneed] using hc
      | _ => simp [DecoderAction.isFeed] at hf

/-- What is noted of a step of the loop itself. -/
lemma note_own {a : FeedAction} (y : DecoderSession × FeedLoop)
    (ht : feedStep host cfg (s, l) a = some y) (hseg : l.stage.seg? = some seg)
    (hne : a ≠ .session .nextSegment) (htears : a.tears = false)
    (hd : y.1.discontinuity = s.discontinuity) :
    FeedNotes.note host cfg (s, l) a n = { n with
      fates := (if y.2.stage = .asking then [⟨seg, n.noDecoder, n.disturbed, a.pushes l⟩] else []) ++
        n.fates } := by
  unfold FeedNotes.note
  rw [ht]
  simp [hne, htears, hd, hseg]

/-- What is noted of a step that leaves the segment where it is. -/
lemma note_kept {a : FeedAction} (y : DecoderSession × FeedLoop)
    (ht : feedStep host cfg (s, l) a = some y) (hkeep : l.stage = .asking ∨ y.2.stage = l.stage) :
    FeedNotes.note host cfg (s, l) a n = if a = .session .nextSegment then
        { n with noDecoder := !l.decoderStarted, disturbed := !l.teardown.isEmpty }
      else { n with
        disturbed := n.disturbed || a.tears || decide (y.1.discontinuity ≠ s.discontinuity) } := by
  have hfates : ∀ f : PlayableSegment → FedSegment,
      (if y.2.stage = .asking then (l.stage.seg?.map f).toList else []) = [] := by
    intro f
    by_cases hst : l.stage = .asking
    · simp [hst, FeedStage.seg?]
    · rw [hkeep.resolve_left hst, if_neg hst]
  unfold FeedNotes.note
  rw [ht]
  simp [hfates]

/-- **A step keeps it.** -/
lemma step {a : FeedAction} {y : DecoderSession × FeedLoop} (h : FeedOwed host s l n)
    (hc : undisturbed ((s, l), n) a = true) (ht : feedStep host cfg (s, l) a = some y) :
    FeedOwed host y.1 y.2 (FeedNotes.note host cfg (s, l) a n) := by
  have hstep := ht
  cases a with
  | session a =>
      simp only [feedStep] at ht
      split at ht
      · exact absurd ht (by simp)
      rename_i hfeed
      obtain ⟨t, hs, rfl⟩ := Option.map_eq_some_iff.mp ht
      rw [note_kept _ hstep]
      · simpa [FeedAction.tears] using
          h.sessionStep hc (fun hf => by simpa [hf] using hfeed) hs
      · by_cases hst : l.stage = .asking
        · exact .inl hst
        · have hf : a.isFeed = false := by simpa [hst] using hfeed
          have hnone : s.handed a = none := by
            cases a <;> first | rfl | simp [DecoderAction.isFeed] at hf
          refine .inr ?_
          simp only [hnone, Option.map_none, Option.getD_none]
  | compare =>
      simp only [feedStep] at ht
      split at ht
      · rename_i seg hst
        have hd : (l.compare s seg).1.discontinuity = s.discontinuity := by
          simp only [FeedLoop.compare]
          split <;> rfl
        have hstage : (l.compare s seg).2.stage = .compared seg := by
          simp only [FeedLoop.compare]
          split <;> rfl
        obtain rfl := Option.some.inj ht
        rw [note_own _ hstep (by rw [hst]; rfl) (by simp) rfl hd, if_neg (by rw [hstage]; simp)]
        exact h.compare hst
      · exact absurd ht (by simp)
  | start ok =>
      simp only [feedStep] at ht
      split at ht
      · rename_i seg hst
        obtain rfl := Option.some.inj ht
        obtain rfl : ok = true := hc
        rw [note_own _ hstep (by rw [hst]; rfl) (by simp) rfl rfl]
        exact h.start hst
      · exact absurd ht (by simp)
  | setStarted =>
      simp only [feedStep] at ht
      split at ht
      · rename_i seg hst
        have hhand := h.hand
        rw [hst] at hhand
        obtain rfl := Option.some.inj ht
        rw [note_own _ hstep (by rw [hst]; rfl) (by simp) rfl rfl]
        exact h.next (by rw [hst]; simp) (fun seg' => by rw [hst]; simp) rfl rfl (.inl rfl)
          (fun _ => .inl hc) ⟨fun hi => absurd hi hhand, fun _ => rfl⟩
      · exact absurd ht (by simp)
  | park =>
      simp only [feedStep] at ht
      split at ht
      · rename_i seg hst
        have hhand := h.hand
        rw [hst] at hhand
        obtain rfl := Option.some.inj ht
        rw [note_own _ hstep (by rw [hst]; rfl) (by simp) rfl rfl]
        exact h.next (by rw [hst]; simp) (fun seg' => by rw [hst]; simp) rfl rfl
          (.inr ⟨rfl, by rw [hst]; rfl⟩) (fun _ => .inr ⟨rfl, rfl⟩)
          ⟨hhand.1, fun hd => ⟨hhand.2 hd, rfl⟩⟩
      · exact absurd ht (by simp)
  | wait paused leadAllows =>
      simp only [feedStep] at ht
      split at ht
      · rename_i seg disc hst
        obtain rfl := Option.some.inj ht
        rw [note_own _ hstep (by rw [hst]; rfl) (by simp) rfl rfl]
        exact h.wait hst
      · exact absurd ht (by simp)
  | push ok =>
      simp only [feedStep] at ht
      split at ht
      · rename_i seg hst
        have hd : (l.push s host ok).1.discontinuity = s.discontinuity := by
          simp only [FeedLoop.push]
          split <;> rfl
        have hstage : (l.push s host ok).2.stage = .asking := by
          simp only [FeedLoop.push]
          split <;> rfl
        obtain rfl := Option.some.inj ht
        rw [note_own _ hstep (by rw [hst]; rfl) (by simp) rfl hd, if_pos hstage]
        exact h.push hst
      · exact absurd ht (by simp)
  | tearDown =>
      simp only [feedStep] at ht
      split at ht
      · rename_i hl
        obtain rfl := Option.some.inj ht
        rw [note_kept _ hstep (.inr rfl)]
        simpa [FeedAction.tears] using h.tearDown hl
      · exact absurd ht (by simp)
  | teardown =>
      simp only [feedStep] at ht
      split at ht
      · exact absurd ht (by simp)
      · rename_i w rest hl
        obtain rfl := Option.some.inj ht
        rw [note_kept _ hstep (.inr (by cases w <;> rfl))]
        simpa [FeedAction.tears] using h.tear hl

end FeedOwed

/-- A host that has just begun. -/
lemma feedOwed_new (host : Receiver) (cfg : DecoderConfig) (folders : String → Option CacheFolder) :
    FeedOwed host (DecoderSession.new cfg folders) {} {} := by
  refine ⟨fun hs => ?_, fun hs => ?_, fun h => absurd rfl h, fun _ hs => absurd hs (by simp),
    List.nil_suffix, fun _ => rfl, fun c hc => ?_, fun c init hc => ?_, fun h => absurd rfl h, trivial,
    fun f hf => absurd hf (by simp)⟩
  · exact absurd hs (by simp [DecoderSession.new])
  · exact absurd hs (by simp [DecoderSession.new])
  · exact absurd hc (by simp [DecoderSession.new, FeedPc.chosen?])
  · exact absurd hc (by simp [DecoderSession.new])

/-- What was asked for without a decoder has its init, in hand as well. -/
lemma FeedOwed.init_in_hand {host : Receiver} {s : DecoderSession} {l : FeedLoop} {n : FeedNotes}
    {seg : PlayableSegment} (h : FeedOwed host s l n) (hn : n.noDecoder = true)
    (hseg : l.stage.seg? = some seg) : seg.init ≠ [] := by
  have hhand := h.hand
  intro hi
  cases hst : l.stage <;> rw [hst] at hhand hseg <;> simp only [FeedStage.seg?] at hseg <;>
    cases hseg
  case starting => exact hhand hi
  all_goals exact absurd (hhand.1 hi) (by simp [hn])

/-- **Fed once, and never a decoder without its init.** In every run of either host's loop in
which no decoder fails to start, and no teardown of another thread falls between the loop's own
writes, a segment the loop is done with was pushed once unless a jump or such a teardown came since
it was asked for, and a segment asked for with no decoder started carries its init. -/
theorem fed_once (host : Receiver) (cfg : DecoderConfig)
    {x : (DecoderSession × FeedLoop) × FeedNotes}
    (h : Lib.Reach (Lib.noted (feedStep host cfg) (FeedNotes.note host cfg))
      (fun x a => undisturbed x a = true)
      (fun x => ∃ folders, x = ((DecoderSession.new cfg folders, {}), {})) x) :
    (∀ f ∈ x.2.fates, f.Good) ∧
      (x.2.noDecoder = true → ∀ seg, x.1.2.stage.seg? = some seg → seg.init ≠ []) := by
  have key : FeedOwed host x.1.1 x.1.2 x.2 := by
    refine h.invariant (I := fun x => FeedOwed host x.1.1 x.1.2 x.2) ?_ ?_
    · rintro _ ⟨folders, rfl⟩
      exact feedOwed_new host cfg folders
    · rintro ⟨⟨s, l⟩, n⟩ a ⟨y, n'⟩ hs hc ht
      obtain ⟨ht, rfl⟩ := Lib.noted_eq_some.mp ht
      exact hs.step hc ht
  exact ⟨key.fates, fun hn seg hseg => key.init_in_hand hn hseg⟩

/-- The loop's steps from a segment served to its push. -/
def feedThrough : List FeedAction :=
  [.compare, .start true, .setStarted, .park, .wait true true, .wait false true, .push true]

/-- A recording of two segments, all fetched and the first served. -/
def twoSegments : List FeedAction :=
  (playFirst { eventId := "e", status := .ended, updatedAtMs := 1, startedAtMs := 1, latestSeq := 1 }
    [0, 1]).map .session

theorem fed_once_held : ∃ x : (DecoderSession × FeedLoop) × FeedNotes,
    ((∀ f ∈ x.2.fates, f.Good) ∧
      (x.2.noDecoder = true → ∀ seg, x.1.2.stage.seg? = some seg → seg.init ≠ [])) ∧
      x.2.fates.map (fun f => (f.seg.seq, f.pushes)) = [(1, 1), (0, 1)] := by
  obtain ⟨x, hx, hp⟩ := (Lib.exists_reach_guarded
    ((DecoderSession.new sampleDecoder fun _ => none, ({} : FeedLoop)), ({} : FeedNotes))
    (twoSegments ++ feedThrough ++ (serve false).map FeedAction.session ++
      [FeedAction.compare, .start true, .park, .wait false true, .push true]) ⟨_, rfl⟩ (by decide +kernel) :
    ∃ x, Lib.Reach (Lib.noted (feedStep .source sampleDecoder) (FeedNotes.note .source sampleDecoder))
      (fun x a => undisturbed x a = true)
      (fun x => ∃ folders, x = ((DecoderSession.new sampleDecoder folders, {}), {})) x ∧
      x.2.fates.map (fun f => (f.seg.seq, f.pushes)) = [(1, 1), (0, 1)])
  exact ⟨x, fed_once .source sampleDecoder hx, hp⟩

/-- After one failed start a host feeds no more: the segment is thrown away, and the one asked for
next, with no decoder started, comes without its init. -/
lemma starved (host : Receiver) : ∃ x : (DecoderSession × FeedLoop) × FeedNotes,
    Lib.Reach (Lib.noted (feedStep host sampleDecoder) (FeedNotes.note host sampleDecoder)) Lib.anyStep
      (fun x => ∃ folders, x = ((DecoderSession.new sampleDecoder folders, {}), {})) x ∧
      x.2.fates.map (fun f => (f.noDecoder, f.disturbed, f.pushes, f.seg.init.length)) =
        [(true, false, 0, 0), (true, false, 0, 1)] := by
  cases host <;>
    exact Lib.exists_reach
      ((DecoderSession.new sampleDecoder fun _ => none, ({} : FeedLoop)), ({} : FeedNotes))
      (twoSegments ++ [FeedAction.compare, .start false] ++ (serve false).map FeedAction.session ++
        [FeedAction.compare, .start true])
      ⟨_, rfl⟩ (by decide +kernel)

/-- For neither host is every segment of every run fed once and every decoder given its init. -/
theorem fed_never : ¬ ∃ host, ∀ x : (DecoderSession × FeedLoop) × FeedNotes,
    Lib.Reach (Lib.noted (feedStep host sampleDecoder) (FeedNotes.note host sampleDecoder)) Lib.anyStep
      (fun x => ∃ folders, x = ((DecoderSession.new sampleDecoder folders, {}), {})) x →
      ∀ f ∈ x.2.fates, f.Good := by
  rintro ⟨host, h⟩
  obtain ⟨x, hx, hfates⟩ := starved host
  have hmem : (true, false, 0, 0) ∈
      x.2.fates.map fun f => (f.noDecoder, f.disturbed, f.pushes, f.seg.init.length) := by
    rw [hfates]
    simp
  obtain ⟨f, hf, heq⟩ := List.mem_map.mp hmem
  simp only [Prod.mk.injEq] at heq
  obtain ⟨-, hd, hp, -⟩ := heq
  exact absurd ((h x hx f hf).1 hd) (by omega)

end Multisite

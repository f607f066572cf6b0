import Multisite.Lib.Run
import Multisite.Output.Steps

/-!
A stop during a deferred start (`stop_output`, `complete_start`).

`complete_start` builds the muxer under `mux_mtx`, and then goes through `ctx->muxer`
without the lock for as long as its requests to the bucket take; `stop_output` resets it
under the lock, whenever it comes.

* `muxer_gone`: a run in which the stop comes between the two, and `complete_start` goes
  through a null pointer;
* `stop_clean`: where the muxer is not reset under `complete_start`, every use finds it,
  and when `stop_output` returns the writer thread has ended, every fragment queued was
  published before `end`, and an event that was written has had `end` called on it.
-/

namespace Multisite

/-- `complete_start` has built the muxer it goes on to use. -/
def WriterPc.needsMuxer : WriterPc → Bool
  | .logging | .opening | .choosing | .resuming | .resumeCalled | .starting | .startCalled
  | .hooking => true
  | _ => false

/-- `stop_output` does not reset the muxer under `complete_start`. -/
def Output.sparesMuxer (o : Output) : OutputAction → Bool
  | .flushMuxer => !o.writer.needsMuxer
  | _ => true

/-- The fragment a call publishes. -/
def SessionCall.fragment : SessionCall → Option PendingFragment
  | .publishSegment f => some f
  | _ => none

/-- The call wrote `event.json`. -/
def SessionCall.wrote : SessionCall → Bool
  | .resume w | .startNew w => w
  | _ => false

/-- The writer thread has ended, every fragment queued was published, in order and before
`end`, and an event that was written was ended. -/
def Output.StoppedClean (o : Output) : Prop :=
  o.writer = .ended ∧
    (∃ before after, o.past.calls = before ++ after ∧ .endEvent ∉ before ∧
      before.filterMap SessionCall.fragment = o.past.queued) ∧
    ((∃ c ∈ o.past.calls, c.wrote = true) → .endEvent ∈ o.past.calls)

/-! ### The invariant -/

/-- The fragment the writer has in hand. -/
def WriterPc.inHand : WriterPc → List PendingFragment
  | .publishing f => [f]
  | _ => []

/-- `out_packet` may still push the packet it has. -/
def PacketPc.mayPush : PacketPc → Bool
  | .entered _ | .pushing _ => true
  | _ => false

/-- `complete_start` has constructed the session. -/
def WriterPc.opened : WriterPc → Bool
  | .choosing | .resuming | .resumeCalled | .remaking | .starting | .startCalled | .hooking => true
  | _ => false

/-- Outside the part of `complete_start` that has a muxer, and not in the drain. -/
def WriterPc.plain : WriterPc → Bool
  | .waiting | .finishing | .building | .making _ | .failing | .swapping | .rechecking _
  | .clearing => true
  | _ => false

lemma WriterPc.plain_spec {w : WriterPc} (h : w.plain = true) :
    w ≠ .crashed ∧ w ≠ .ended ∧ w.needsMuxer = false ∧ w.inHand = [] ∧ w.opened = false ∧
      ∀ held, w ≠ .draining held := by
  cases w <;> simp [WriterPc.plain] at h <;>
    simp [WriterPc.needsMuxer, WriterPc.inHand, WriterPc.opened]

lemma WriterPc.Passes.spec {w pc : WriterPc} (h : w.Passes pc) :
    w ≠ .ended ∧ pc ≠ .crashed ∧ pc ≠ .ended ∧ pc.inHand = w.inHand ∧
      (pc.needsMuxer = true → w.needsMuxer = true) ∧ (pc.opened = true → w.opened = true) ∧
      ∀ held, pc ≠ .draining held := by
  cases h <;> simp [WriterPc.needsMuxer, WriterPc.inHand, WriterPc.opened]

lemma WriterPc.Returns.spec {w pc : WriterPc} {c : SessionCall} (h : w.Returns c pc) :
    w ≠ .ended ∧ pc ≠ .crashed ∧ pc ≠ .ended ∧ w.inHand = [] ∧ pc.inHand = [] ∧ w.opened = true ∧
      c ≠ .endEvent ∧ c.fragment = none ∧ ∀ held, pc ≠ .draining held := by
  cases h <;> simp [WriterPc.inHand, WriterPc.opened, SessionCall.fragment]

/-- No session has been constructed. -/
structure Untouched (o : Output) : Prop where
  muxer : ∀ m ∈ o.muxer, m.hasCallback = false
  hand : o.writer.inHand = []
  wq : o.wq = []
  calls : ∀ c ∈ o.past.calls, c.wrote = false
  writer : o.writer.opened = false

/-- The uses of the muxer and the fragments, up to the end of `stop_output`. -/
structure Clean (o : Output) : Prop where
  running : o.writer ≠ .crashed
  present : o.writer.needsMuxer = true → o.muxer.isSome
  fragments : o.stop.rank ≤ 4 →
    o.past.queued = o.past.calls.filterMap SessionCall.fragment ++ o.writer.inHand ++ o.wq
  before : o.stop.rank ≤ 4 → .endEvent ∉ o.past.calls
  after : 5 ≤ o.stop.rank → o.StoppedClean
  session : o.stop.rank ≤ 5 → o.session = false → Untouched o
  gate : 1 ≤ o.stop.rank → o.accepting = false
  quiet : 2 ≤ o.stop.rank → ∀ m ∈ o.muxer, m.segOpen = true → o.packet.mayPush = false
  drained : 2 ≤ o.stop.rank → ∀ held, o.writer = .draining held → o.muxer = none
  stopped : o.writerRun = false → 3 ≤ o.stop.rank
  ended : o.writer = .ended → o.writerRun = false ∧ o.wq = []
  joined : 4 ≤ o.stop.rank → o.writer = .ended

namespace CmafMuxer

variable {av : Movenc} {m : CmafMuxer} {p : CmafPacket}

lemma flushFragment_of_unset (h : m.hasCallback = false) (x : ℚ) :
    (m.flushFragment av x).2 = [] := by
  rw [flushFragment]
  split
  · simp [h]
  · rfl

lemma hasCallback_based (m : CmafMuxer) (p : CmafPacket) :
    (m.based p).1.hasCallback = m.hasCallback := by
  rw [based]
  split <;> rfl

lemma push_of_unset (h : m.hasCallback = false) : (m.push av p).2 = [] := by
  rw [push]
  split
  · dsimp only
    split
    · exact flushFragment_of_unset ((hasCallback_based m p).trans h) _
    · rfl
  · rfl

lemma hasCallback_new (av : Movenc) (tracks : List CmafTrack) (targetS : ℚ) (keep : Bool)
    (resumeFromS : ℚ) : (new av tracks targetS keep resumeFromS).hasCallback = false := by
  rw [new]
  split <;> rfl

lemma flush_of_unset (h : m.hasCallback = false) : (m.flush av).2 = [] := by
  rw [flush]
  refine flushFragment_of_unset ?_ _
  split
  · exact h
  · exact h

lemma hasCallback_push (av : Movenc) (m : CmafMuxer) (p : CmafPacket) :
    (m.push av p).1.hasCallback = m.hasCallback := by
  have hflush : ∀ (m : CmafMuxer) (x : ℚ), (m.flushFragment av x).1.hasCallback = m.hasCallback := by
    intro m x
    rw [flushFragment]
    split <;> rfl
  have hopen : ∀ (m : CmafMuxer) (x : ℚ), (m.openAt x).hasCallback = m.hasCallback := by
    intro m x
    rw [openAt]
    split <;> rfl
  have hwrite : ∀ m : CmafMuxer, ∀ p, (m.writeFrame av p).hasCallback = m.hasCallback := by
    intro m p
    rw [writeFrame]
    split
    · dsimp only
      split <;> rfl
    · rfl
  rw [push]
  split
  · dsimp only
    rw [hwrite, hopen]
    split
    · rw [hflush, hasCallback_based]
    · exact hasCallback_based m p
  · rfl

end CmafMuxer

@[simp] lemma Output.queue_nil (o : Output) : o.queue [] = o := by
  simp [Output.queue]

namespace Clean

variable {cfg : OutputConfig} {o o' : Output} {a : OutputAction}

lemma rank_le_of_writer (h : Clean o) (hw : o.writer ≠ .ended) : o.stop.rank ≤ 3 := by
  by_contra hn
  exact hw (h.joined (by omega))

/-- `out_packet` moves on. -/
lemma packet (h : Clean o) {pc : PacketPc} {held : List HeldPacket} {b : HoldBudget} {acc : Bool}
    {cr cp : Bool} {rs : List EncoderPacket} (hacc : 1 ≤ o.stop.rank → acc = false)
    (hpc : pc.mayPush = true → o.packet.mayPush = true ∨ o.stop.rank < 2) :
    Clean { o with
      packet := pc, held := held, budget := b, accepting := acc, completeRequested := cr
      completing := cp, past := { o.past with received := rs } } := by
  refine { h with
    session := fun hr hs => { h.session hr hs with }, gate := hacc, quiet := fun hr m hm hopen => ?_ }
  have := h.quiet hr m hm hopen
  by_contra hp
  rcases hpc (by simpa using hp) with hp | hr'
  · exact absurd (this.symm.trans hp) (by simp)
  · exact absurd hr (not_le.mpr hr')

/-- The writer moves on, before its end. -/
lemma move (h : Clean o) {w : WriterPc} (hw : o.writer ≠ .ended) (hcr : w ≠ .crashed)
    (hend : w ≠ .ended) {mx : Option CmafMuxer} {ses d cr acc : Bool} {t : TrackMap}
    {held : List HeldPacket} {b : HoldBudget} {wq : List PendingFragment} {cs : List SessionCall}
    (hpres : w.needsMuxer = true → mx.isSome)
    (hfrag : cs.filterMap SessionCall.fragment ++ w.inHand ++ wq =
      o.past.calls.filterMap SessionCall.fragment ++ o.writer.inHand ++ o.wq)
    (hcs : .endEvent ∉ o.past.calls → .endEvent ∉ cs) (hacc : acc = true → o.accepting = true)
    (hses : ses = false → Untouched { o with
      writer := w, muxer := mx, wq := wq, past := { o.past with calls := cs } })
    (hquiet : 2 ≤ o.stop.rank → ∀ m ∈ mx, m.segOpen = true → o.packet.mayPush = false)
    (hdr : 2 ≤ o.stop.rank → ∀ held, w = .draining held → mx = none) :
    Clean { o with
      writer := w, muxer := mx, session := ses, deferred := d, completeRequested := cr
      accepting := acc, tracks := t, held := held, budget := b, wq := wq
      past := { o.past with calls := cs } } := by
  have hr := h.rank_le_of_writer hw
  refine ⟨hcr, hpres, fun _ => ?_, fun _ => hcs (h.before (by omega)), fun h5 => ?_, fun _ hs => ?_,
    fun h1 => ?_, hquiet, hdr, h.stopped, fun he => absurd he hend, fun h4 => ?_⟩
  · exact (h.fragments (by omega)).trans hfrag.symm
  · exact absurd h5 (by show ¬5 ≤ o.stop.rank; omega)
  · exact { hses hs with }
  · have := h.gate h1
    cases acc with
    | false => rfl
    | true => exact absurd (hacc rfl) (by simp [this])
  · exact absurd h4 (by show ¬4 ≤ o.stop.rank; omega)

/-- The writer moves on with nothing but its place changed. -/
lemma pass (h : Clean o) {w : WriterPc} (hw : o.writer ≠ .ended) (hcr : w ≠ .crashed)
    (hend : w ≠ .ended) {d cr acc : Bool} {t : TrackMap} {held : List HeldPacket} {b : HoldBudget}
    (hpres : w.needsMuxer = true → o.muxer.isSome) (hin : w.inHand = o.writer.inHand)
    (hacc : acc = true → o.accepting = true) (hop : w.opened = true → o.writer.opened = true)
    (hdr : 2 ≤ o.stop.rank → ∀ held, w = .draining held → o.muxer = none) :
    Clean { o with
      writer := w, deferred := d, completeRequested := cr, accepting := acc, tracks := t
      held := held, budget := b } := by
  refine h.move hw hcr hend hpres (by rw [hin]) id hacc (fun hs => ?_) h.quiet hdr
  have hu := h.session ((h.rank_le_of_writer hw).trans (by omega)) hs
  refine { hu with hand := hin.trans hu.hand, writer := ?_ }
  exact Bool.eq_false_iff.mpr fun hn => absurd (hop hn) (by simp [hu.writer])

/-- The writer goes where it has neither the muxer nor a fragment to see to. -/
lemma plain (h : Clean o) {w : WriterPc} (hw : o.writer ≠ .ended) (hin : o.writer.inHand = [])
    (hpl : w.plain = true) {d cr acc : Bool} {t : TrackMap} {held : List HeldPacket} {b : HoldBudget}
    (hacc : acc = true → o.accepting = true) :
    Clean { o with
      writer := w, deferred := d, completeRequested := cr, accepting := acc, tracks := t
      held := held, budget := b } := by
  obtain ⟨hcr, hend, hneeds, hin', hop, hdr⟩ := WriterPc.plain_spec hpl
  exact h.pass hw hcr hend (by simp [hneeds]) (hin'.trans hin.symm) hacc (by simp [hop])
    fun _ held hheld => absurd hheld (hdr held)

/-- A packet given to the muxer, which may complete a segment. -/
lemma push (h : Clean o) {m : CmafMuxer} {p : CmafPacket} {pc : PacketPc} {w : WriterPc}
    (hm : o.muxer = some m) (hcr : w ≠ .crashed) (hend : w = .ended ↔ o.writer = .ended)
    (hin : w.inHand = o.writer.inHand)
    (hop : w.opened = true → o.writer.opened = true) (hpc : pc.mayPush = true → o.stop.rank < 2)
    (hlate : 2 ≤ o.stop.rank → m.segOpen = false ∧ ∀ held, w ≠ .draining held) :
    Clean ({ o with writer := w, packet := pc }.pushTo cfg m p) := by
  -- once the stop has flushed, nothing comes out
  have hnone : 2 ≤ o.stop.rank → (m.push cfg.movenc p).2 = [] := fun hr =>
    CmafMuxer.push_of_closed (hlate hr).1
  have hrank : o.stop.rank ≤ 4 ∨ 2 ≤ o.stop.rank := by omega
  refine ⟨hcr, fun _ => rfl, fun hr => ?_, h.before, fun hr => ?_, fun hr hs => ?_, h.gate,
    fun hr m' hm' hopen => ?_, fun hr held hw => absurd hw ((hlate hr).2 held), h.stopped,
    fun he => ?_, fun hr => hend.mpr (h.joined hr)⟩
  · show o.past.queued ++ _ = _ ++ w.inHand ++ (o.wq ++ _)
    rw [h.fragments hr, hin]
    simp only [List.append_assoc]
    rfl
  · obtain ⟨hw, hq, hwr⟩ := h.after hr
    have := hnone (le_trans (by omega) hr)
    refine ⟨hend.mpr hw, ?_, hwr⟩
    simp only [Output.pushTo, this, Output.queue_nil]
    exact hq
  · have hu := h.session hr hs
    have hset : m.hasCallback = false := hu.muxer m hm
    have hno : (m.push cfg.movenc p).2 = [] := CmafMuxer.push_of_unset hset
    refine ⟨fun m' hm' => ?_, hin.trans hu.hand, ?_, hu.calls, ?_⟩
    · obtain rfl := Option.some.inj hm'
      exact (CmafMuxer.hasCallback_push _ m p).trans hset
    · simp only [Output.pushTo, hno, Output.queue_nil]
      exact hu.wq
    · exact Bool.eq_false_iff.mpr fun hn => absurd (hop hn) (by simp [hu.writer])
  · exact Bool.eq_false_iff.mpr fun hp => absurd hr (not_le.mpr (hpc hp))
  · obtain ⟨hrun, hwq⟩ := h.ended (hend.mp he)
    refine ⟨hrun, ?_⟩
    have := hnone (le_trans (by omega) (h.stopped hrun))
    simp only [Output.pushTo, this, Output.queue_nil]
    exact hwq

/-- `stop_output` goes on, up to the end of the writer thread. -/
lemma stops (h : Clean o) {s : StopPc} {run acc : Bool} (hs : s.rank ≤ 4)
    (hle : o.stop.rank ≤ s.rank) (hacc : 1 ≤ s.rank → acc = false)
    (hflush : 2 ≤ s.rank → o.muxer = none ∨ 2 ≤ o.stop.rank)
    (hrun : run = false → o.writerRun = false ∨ 3 ≤ s.rank)
    (hrun' : o.writerRun = false → run = false)
    (hjoin : 4 ≤ s.rank → o.writer = .ended) :
    Clean { o with stop := s, writerRun := run, accepting := acc } := by
  refine { h with
    fragments := fun _ => h.fragments (by omega), before := fun _ => h.before (by omega)
    after := fun h5 => absurd (h5.trans hs) (by simp)
    session := fun _ hses => { h.session (by omega) hses with }, gate := hacc
    quiet := fun hr m hm => ?_, drained := fun hr held hw => ?_, stopped := fun hr => ?_
    ended := fun he => ⟨hrun' (h.ended he).1, (h.ended he).2⟩, joined := hjoin }
  · rcases hflush hr with hnone | hr
    · exact absurd hm (by simp [hnone])
    · exact h.quiet hr m hm
  · rcases hflush hr with hnone | hr
    · exact hnone
    · exact h.drained hr held hw
  · rcases hrun hr with hr | hr
    · exact (h.stopped hr).trans hle
    · exact hr

/-- `stop_output` flushes the muxer and resets it. -/
lemma flush (h : Clean o) {m : CmafMuxer} (hrank : o.stop.rank = 1)
    (hneeds : o.writer.needsMuxer = false) (hm : o.muxer = some m) :
    Clean ({ o with stop := .flushed, muxer := none }.queue (m.flush cfg.movenc).2) := by
  have hend : o.writer ≠ .ended := fun he =>
    absurd (h.stopped (h.ended he).1) (by omega)
  refine ⟨h.running, fun hn => absurd (hneeds.symm.trans hn) (by simp), fun _ => ?_,
    fun _ => h.before (by omega), fun h5 => absurd h5 (by simp [Output.queue, StopPc.rank]),
    fun _ hses => ?_, fun _ => h.gate hrank.ge, fun _ m' hm' => absurd hm' (Option.not_mem_none m'),
    fun _ _ _ => rfl, fun hr => absurd (h.stopped hr) (by omega), fun he => absurd he hend,
    fun h4 => absurd h4 (by simp [Output.queue, StopPc.rank])⟩
  · show o.past.queued ++ _ = _ ++ o.writer.inHand ++ (o.wq ++ _)
    rw [h.fragments (by omega)]
    simp only [List.append_assoc]
    rfl
  · have hu := h.session (by omega) hses
    rw [CmafMuxer.flush_of_unset (hu.muxer m hm), Output.queue_nil]
    exact { hu with muxer := fun m' hm' => absurd hm' (Option.not_mem_none m') }

/-- `stop_output` ends the session, if there is one. -/
lemma ends (h : Clean o) (hrank : o.stop.rank = 4) {cs : List SessionCall}
    (hcs : o.session = true ∧ cs = o.past.calls ++ [.endEvent] ∨
      o.session = false ∧ cs = o.past.calls) :
    Clean { o with stop := .resetting, past := { o.past with calls := cs } } := by
  have hw := h.joined hrank.ge
  have hfrag : o.past.calls.filterMap SessionCall.fragment = o.past.queued := by
    rw [h.fragments hrank.le, hw, (h.ended hw).2]
    simp [WriterPc.inHand]
  refine { h with
    fragments := by simp [StopPc.rank], before := by simp [StopPc.rank], after := fun _ => ?_
    session := fun _ hses => ?_, gate := fun _ => h.gate (by omega)
    quiet := fun _ => h.quiet (by omega), drained := fun _ => h.drained (by omega)
    stopped := by simp [StopPc.rank], joined := fun _ => hw }
  · rcases hcs with ⟨-, rfl⟩ | ⟨hses, rfl⟩
    · exact ⟨hw, ⟨o.past.calls, [.endEvent], rfl, h.before hrank.le, hfrag⟩, fun _ => by simp⟩
    · refine ⟨hw, ⟨o.past.calls, [], (List.append_nil _).symm, h.before hrank.le, hfrag⟩, ?_⟩
      rintro ⟨c, hc, hwrote⟩
      exact absurd ((h.session (by omega) hses).calls c hc) (by simp [hwrote])
  · rcases hcs with ⟨hses', -⟩ | ⟨-, rfl⟩
    · exact absurd (hses'.symm.trans hses) (by simp)
    · exact { h.session (by omega) hses with }

lemma needs_of_uses {w : WriterPc} (h : w.uses = true) : w.needsMuxer = true := by
  cases w <;> first | rfl | simp [WriterPc.uses] at h

/-- **What a step keeps**, when the muxer is not reset under `complete_start`. -/
theorem step (h : Clean o) (hsp : o.sparesMuxer a = true) (ht : Output.step cfg o a = some o') :
    Clean o' := by
  obtain ⟨-, hs⟩ := Output.steps_of_step ht
  clear ht
  cases hs with
  | enter hpc ha =>
      refine h.packet h.gate fun _ => Or.inr ?_
      by_contra hn
      exact absurd (h.gate (by omega)) (by simp [ha])
  | readHeld hpc _ => exact h.packet h.gate (by simp [PacketPc.mayPush])
  | readFree hpc _ _ => exact h.packet h.gate fun _ => Or.inl (by rw [hpc]; rfl)
  | readOther hpc _ _ => exact h.packet h.gate (by simp [PacketPc.mayPush])
  | hold hpc _ =>
      refine h.packet h.gate fun hp => ?_
      split at hp <;> simp [PacketPc.mayPush] at hp
  | overflow _ => exact h.packet (fun _ => rfl) (by simp [PacketPc.mayPush])
  | ask _ _ => exact h.packet h.gate (by simp [PacketPc.mayPush])
  | askNot _ => exact h.packet h.gate (by simp [PacketPc.mayPush])
  | push hpc hm =>
      refine h.push hm h.running Iff.rfl rfl id (by simp [PacketPc.mayPush]) fun hr => ?_
      refine ⟨?_, fun held hw => absurd (h.drained hr held hw) (by simp [hm])⟩
      by_contra hopen
      exact absurd (h.quiet hr _ hm (by simpa using hopen)) (by simp [hpc, PacketPc.mayPush])
  | pushGone _ _ => exact h.packet h.gate (by simp [PacketPc.mayPush])
  | wake hw _ =>
      exact h.plain (by simp [hw]) (by rw [hw]; rfl) rfl id
  | pop hw hq =>
      refine h.move (by simp [hw]) (by simp) (by simp) (by simp [WriterPc.needsMuxer]) ?_ id id
        (fun hs => ?_) h.quiet (by simp)
      · simp [hw, hq, WriterPc.inHand]
      · exact absurd (h.session (by have := h.rank_le_of_writer (by simp [hw]); omega) hs).wq
          (by simp [hq])
  | quit hw hq hr =>
      have hrank := h.rank_le_of_writer (by simp [hw])
      refine { h with
        running := by simp, present := by simp [WriterPc.needsMuxer], fragments := fun hr => ?_
        after := fun h5 => absurd h5 (by show ¬5 ≤ o.stop.rank; omega), session := fun h5 hs => ?_
        drained := by simp, ended := fun _ => ⟨hr, hq⟩, joined := fun _ => rfl }
      · have hf := h.fragments hr
        rw [hw] at hf
        exact hf
      · exact { h.session h5 hs with hand := rfl, writer := rfl }
  | publish hw hses =>
      refine h.move (by simp [hw]) (by simp) (by simp) (by simp [WriterPc.needsMuxer]) ?_ ?_ id
        (fun hs => absurd (hses.symm.trans hs) (by simp)) h.quiet (by simp)
      · simp [hw, WriterPc.inHand, List.filterMap_append, SessionCall.fragment]
      · simp
  | publishNull hw hs =>
      have hrank := h.rank_le_of_writer (by simp [hw])
      exact absurd (h.session (by omega) hs).hand (by simp [hw, WriterPc.inHand])
  | goOn hw _ =>
      exact h.plain (by simp [hw]) (by rw [hw]; rfl) rfl id
  | leave hw _ =>
      exact h.plain (by simp [hw]) (by rw [hw]; rfl) rfl id
  | failStart hw =>
      exact h.plain (by simp [hw]) (by rw [hw]; rfl) rfl (by simp)
  | swap hw =>
      exact h.plain (by simp [hw]) (by rw [hw]; rfl) rfl id
  | drain hw ha =>
      refine h.pass (by simp [hw]) (by simp) (by simp) ?_ ?_ id ?_ fun hr => ?_
      · simp [WriterPc.needsMuxer]
      · simp [hw, WriterPc.inHand]
      · simp [WriterPc.opened]
      · exact absurd (h.gate (by omega)) (by simp [ha])
  | abandon hw _ =>
      exact h.plain (by simp [hw]) (by rw [hw]; rfl) rfl id
  | dropHeld hw _ =>
      refine h.pass (by simp [hw]) (by simp) (by simp) ?_ ?_ id ?_ fun hr _ _ => h.drained hr _ hw <;>
        simp [hw, WriterPc.needsMuxer, WriterPc.inHand, WriterPc.opened]
  | pushHeld hw _ hm =>
      have hearly : o.stop.rank < 2 := by
        by_contra hr
        exact absurd (h.drained (by omega) _ hw) (by simp [hm])
      refine h.push hm (by simp) (by simp [hw]) ?_ ?_ (fun _ => hearly) fun hr => ?_
      · simp [hw, WriterPc.inHand]
      · simp [WriterPc.opened]
      · exact absurd hr (by omega)
  | breakOff hw _ =>
      exact h.plain (by simp [hw]) (by rw [hw]; rfl) rfl id
  | clear hw =>
      rcases hw with hw | hw
      · exact h.plain (by simp [hw]) (by rw [hw]; rfl) rfl id
      · exact h.plain (by simp [hw]) (by rw [hw]; rfl) rfl id
  | build hw =>
      exact h.plain (by simp [hw]) (by rw [hw]; rfl) rfl id
  | @make _ _ m next hw hm =>
      have hend : o.writer ≠ .ended := by rcases hw with ⟨hw, -⟩ | ⟨hw, -⟩ <;> simp [hw]
      have hin : o.writer.inHand = [] := by rcases hw with ⟨hw, -⟩ | ⟨hw, -⟩ <;> rw [hw] <;> rfl
      have hrank := h.rank_le_of_writer hend
      have hnext : next = .logging ∨ next = .starting := hw.imp And.right And.right
      refine h.move hend ?_ ?_ (fun _ => rfl) ?_ id id (fun hs => ?_) (fun _ m' hm' hopen => ?_) ?_
      · rcases hnext with rfl | rfl <;> simp
      · rcases hnext with rfl | rfl <;> simp
      · rw [hin]
        rcases hnext with rfl | rfl <;> rfl
      · have hu := h.session (by omega) hs
        rcases hw with ⟨hw, rfl⟩ | ⟨hw, rfl⟩
        · refine { hu with muxer := fun m' hm' => ?_, hand := rfl, writer := rfl }
          rw [← Option.some.inj hm', hm]
          exact CmafMuxer.hasCallback_new _ _ _ _ _
        · exact absurd hu.writer (by simp [hw, WriterPc.opened])
      · rw [← Option.some.inj hm', hm, CmafMuxer.segOpen_new] at hopen
        exact absurd hopen (by simp)
      · rcases hnext with rfl | rfl <;> simp
  | pass hw _ =>
      obtain ⟨hend, hcr, hend', hin, hneeds, hop, hdr⟩ := hw.spec
      exact h.pass hend hcr hend' (fun hn => h.present (hneeds hn)) hin id hop
        fun _ held hheld => absurd hheld (hdr held)
  | opens hw =>
      refine h.move (by simp [hw]) (by simp) (by simp) (fun _ => h.present (by rw [hw]; rfl)) ?_ id id
        (by simp) h.quiet (by simp)
      rw [hw]
      rfl
  | returns hw hm =>
      obtain ⟨hend, hcr, hend', hin, hin', hop, hc, hfrag, hdr⟩ := hw.spec
      have hrank := h.rank_le_of_writer hend
      refine h.move hend hcr hend' (fun _ => hm) ?_ ?_ id (fun hs => ?_) h.quiet
        fun _ held hheld => absurd hheld (hdr held)
      · simp [hin, hin', List.filterMap_append, hfrag]
      · simp [hc.symm]
      · exact absurd (h.session (by omega) hs).writer (by simp [hop])
  | hook hw hm =>
      have hrank := h.rank_le_of_writer (by simp [hw])
      refine h.move (by simp [hw]) (by simp) (by simp) (fun _ => rfl) ?_ id id (fun hs => ?_)
        (fun hr m' hm' hopen => ?_) (by simp)
      · rw [hw]
        rfl
      · exact absurd (h.session (by omega) hs).writer (by simp [hw, WriterPc.opened])
      · obtain rfl := Option.some.inj hm'
        exact h.quiet hr _ hm hopen
  | null hw hm => exact absurd (h.present (needs_of_uses hw)) (by simp [hm])
  | closeGate hs =>
      have hrank : o.stop.rank = 0 := by
        rw [hs]
        rfl
      exact h.stops (by simp [StopPc.rank]) (by simp [hrank]) (fun _ => rfl) (by simp [StopPc.rank])
        Or.inl id (by simp [StopPc.rank])
  | flush hs hm => exact h.flush (by rw [hs]; rfl) (by simpa [Output.sparesMuxer] using hsp) hm
  | flushNone hs hm =>
      have hrank : o.stop.rank = 1 := by
        rw [hs]
        rfl
      exact h.stops (by simp [StopPc.rank]) (by rw [hs]; simp [StopPc.rank])
        (fun _ => h.gate hrank.ge) (fun _ => Or.inl hm) Or.inl id (by simp [StopPc.rank])
  | stopWriter hs =>
      have hrank : o.stop.rank = 2 := by
        rw [hs]
        rfl
      exact h.stops (by simp [StopPc.rank]) (by rw [hs]; simp [StopPc.rank])
        (fun _ => h.gate (by omega)) (fun _ => Or.inr hrank.ge) (fun _ => Or.inr le_rfl)
        (fun _ => rfl) (by simp [StopPc.rank])
  | join hs hw =>
      have hrank : o.stop.rank = 3 := by
        rw [hs]
        rfl
      exact h.stops le_rfl (by rw [hs]; simp [StopPc.rank]) (fun _ => h.gate (by omega))
        (fun _ => Or.inr (by omega)) Or.inl id fun _ => hw
  | endSession hs hses => exact h.ends (by rw [hs]; rfl) (Or.inl ⟨hses, rfl⟩)
  | noSession hs hses => exact h.ends (by rw [hs]; rfl) (Or.inr ⟨hses, rfl⟩)
  | reset hs =>
      have hrank : o.stop.rank = 5 := by
        rw [hs]
        rfl
      have hw := h.joined (by omega)
      exact { h with
        present := fun hn => absurd hn (by simp [hw, WriterPc.needsMuxer])
        fragments := by simp [StopPc.rank], before := by simp [StopPc.rank]
        after := fun _ => h.after hrank.ge, session := by simp [StopPc.rank]
        gate := fun _ => h.gate (by omega), quiet := fun _ m' hm' => absurd hm' (Option.not_mem_none m')
        drained := fun _ _ _ => rfl, stopped := by simp [StopPc.rank], joined := fun _ => hw }

lemma start : Clean {} where
  running := by simp
  present := by simp [WriterPc.needsMuxer]
  fragments := fun _ => rfl
  before := by simp
  after := by simp [StopPc.rank]
  session := fun _ _ => ⟨by simp, rfl, rfl, by simp, rfl⟩
  gate := by simp [StopPc.rank]
  quiet := by simp [StopPc.rank]
  drained := by simp [StopPc.rank]
  stopped := by simp
  ended := by simp
  joined := by simp [StopPc.rank]

end Clean

/-! ### The result -/

/-- **A stop during a deferred start is clean** where it does not reset the muxer under
`complete_start`: every use `complete_start` makes of it finds it, and once `stop_output`
has returned the writer thread has ended, every fragment queued was published before
`end`, and an event that was written was ended. -/
theorem stop_clean (cfg : OutputConfig) {o : Output}
    (h : Lib.Reach (Output.step cfg) (fun o a => o.sparesMuxer a = true) Deferred o) :
    (o.writer.uses = true → o.muxer.isSome) ∧ o.writer ≠ .crashed ∧
      (o.stop = .returned → o.StoppedClean) := by
  have hclean : Clean o := by
    refine Lib.Reach.invariant (I := Clean) ?_ (fun o a o' ho hc ht => ho.step hc ht) h
    rintro o rfl
    exact .start
  refine ⟨fun hu => hclean.present (Clean.needs_of_uses hu), hclean.running, fun hs => ?_⟩
  refine hclean.after ?_
  rw [hs]
  simp [StopPc.rank]

/-- `out_packet` on the air. -/
def sendPacket (p : EncoderPacket) : List OutputAction := [.outPacket p, .readDeferred, .push]

/-- A segment is cut and another begun; the stop comes after the start, and the writer
publishes both. -/
def stoppedOnAir : List OutputAction :=
  holdPacket { keyframe := true, data := [1] } true ++ finishStart ++
    [OutputAction.recheck, .pushHeld, .clearDeferred] ++
    sendPacket { pts := 180, dts := 180, keyframe := true, data := [2] } ++
    sendPacket { pts := 210, dts := 210, data := [3] } ++
    [OutputAction.closeGate, .flushMuxer, .wake, .publish, .stopWriter, .wake, .publish, .wake,
      .join, .endSession, .reset]

theorem stop_clean_onAir : ∃ o : Output, o.stop = .returned ∧ o.past.queued.length = 2 ∧
    o.StoppedClean := by
  obtain ⟨o, ho, hs, hlen⟩ : ∃ o,
      Lib.Reach (Output.step sampleOutput) (fun o a => o.sparesMuxer a = true) Deferred o ∧
        o.stop = .returned ∧ o.past.queued.length = 2 :=
    Lib.exists_reach_guarded {} stoppedOnAir rfl (by decide +kernel)
  exact ⟨o, hs, hlen, (stop_clean sampleOutput ho).2.2 hs⟩

/-- The stop comes while the writer is at the muxer's init segment. -/
def stoppedInStart : List OutputAction :=
  holdPacket { keyframe := true, data := [1] } true ++
    [OutputAction.wake, .testAccepting, .build true {}, .makeMuxer, .closeGate, .flushMuxer,
      .logInit]

/-- The muxer is gone. -/
theorem muxer_gone : ∃ o, Lib.Reach (Output.step sampleOutput) Lib.anyStep Deferred o ∧
    o.writer = .crashed :=
  Lib.exists_reach {} stoppedInStart rfl (by decide +kernel)

end Multisite

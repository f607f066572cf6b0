import Multisite.Lib.Run
import Multisite.Output.Steps

/-!
A deferred start and its packets (`finish_deferred_start`, `out_packet`).

While the start is deferred `out_packet` holds its packets.  The writer thread takes the
held queue once, gives what it took to the muxer, and only then clears `deferred`; until
it has, `out_packet` goes on holding, and what it holds then nobody takes.

* `packet_left`: a run in which a packet that arrives during the drain is lost;
* `packets_kept`: where no packet is held once the queue was taken, the muxer is given
  every packet of the tracks being sent, once and in order.
-/

namespace Multisite

namespace Output

/-- The packets of the tracks being sent that `out_packet` received. -/
def sent (cfg : OutputConfig) (o : Output) : List CmafPacket :=
  o.past.received.filterMap (·.toCmaf cfg.map)

/-- The muxer was given the packets in order, and once the start is finished and
`out_packet` has returned, all of them. -/
def Kept (cfg : OutputConfig) (o : Output) : Prop :=
  o.past.given <+: o.sent cfg ∧
    (o.deferred = false → o.packet = .idle → o.past.given = o.sent cfg)

/-- The writer has taken the held queue. -/
def swapped (o : Output) : Bool :=
  !o.deferred ||
    match o.writer with
    | .rechecking _ | .draining _ | .clearing => true
    | _ => false

/-- No stop, and no hold that exceeds the budget. -/
def noStop (o : Output) : OutputAction → Bool
  | .closeGate => false
  | .hold heldMs =>
      match o.packet with
      | .holding p => !(o.budget.add p.isVideo p.data.length).exceeded heldMs
      | _ => true
  | _ => true

/-- No packet is held once the held queue was taken. -/
def holdsInTime (o : Output) : OutputAction → Bool
  | .hold _ => !o.swapped
  | _ => true

/-! ### The invariant -/

/-- What the drain has still to give. -/
def drained (o : Output) : List HeldPacket :=
  match o.writer with
  | .rechecking held | .draining held => held
  | _ => []

/-- What `out_packet` has in hand. -/
def inFlight (t : TrackMap) (o : Output) : List CmafPacket :=
  match o.packet with
  | .entered p | .holding p => (p.toCmaf t).toList
  | .pushing q => [q]
  | _ => []

end Output

/-- How far the writer has come with the start. -/
def WriterPc.stage : WriterPc → ℕ
  | .finishing | .failing => 1
  | .building => 2
  | .making _ => 3
  | .logging | .opening | .choosing | .resuming | .resumeCalled | .remaking | .starting
  | .startCalled | .hooking => 4
  | .swapping => 5
  | .rechecking _ | .draining _ | .clearing => 6
  | .waiting | .publishing _ | .ended | .crashed => 0

-- their equations are made here, once, and not by the first lemmas that ask for them
section
attribute [local simp] WriterPc.stage Output.swapped Output.drained Output.inFlight
end

/-- The packets given, to be given and in hand are those received; the writer finishes
the start once. -/
structure Releases (cfg : OutputConfig) (o : Output) : Prop where
  kept : o.past.given ++ o.drained.filterMap (·.release cfg.map) ++
    o.held.filterMap (·.release cfg.map) ++ o.inFlight cfg.map = o.sent cfg
  empty : o.swapped = true → o.held = []
  tracks : 3 ≤ o.writer.stage ∨ o.deferred = false → o.tracks = cfg.map
  muxer : 4 ≤ o.writer.stage ∨ o.deferred = false → o.muxer.isSome
  pushing : ∀ q, o.packet = .pushing q → o.deferred = false
  budget : o.packet ≠ .overflowed
  clearing : o.writer ≠ .clearing
  stop : o.stop = .idle
  asked : o.completeRequested = true → o.completing = true
  once : o.completing = false ∨ o.completeRequested = true →
    o.writer.stage = 0 ∧ o.deferred = true ∧ o.accepting = true
  gate : o.accepting = false ∨ o.deferred = false → o.writer.stage = 0

namespace Releases

variable {cfg : OutputConfig} {o o' : Output} {a : OutputAction}

/-- Before the start is finished nothing was drained. -/
lemma drained_of_stage (h : o.writer.stage < 6) : o.drained = [] := by
  rw [Output.drained]
  split
  · rename_i hw
    simp [hw, WriterPc.stage] at h
  · rename_i hw
    simp [hw, WriterPc.stage] at h
  · rfl

lemma swapped_of_stage (h : o.writer.stage < 6) : o.swapped = !o.deferred := by
  rw [Output.swapped]
  cases hw : o.writer <;> first | exact Bool.or_false _ | simp [hw, WriterPc.stage] at h

lemma swapped_of_free (hd : o.deferred = false) : o.swapped = true := by
  rw [Output.swapped, hd]
  rfl

/-- While the writer finishes the start, nobody has asked again. -/
lemma busy (h : Releases cfg o) (hw : o.writer.stage ≠ 0) :
    o.completing = true ∧ o.completeRequested = false ∧ o.deferred = true ∧ o.accepting = true := by
  have h1 : ¬(o.completing = false ∨ o.completeRequested = true) := fun hc => hw (h.once hc).1
  have h2 : ¬(o.accepting = false ∨ o.deferred = false) := fun hc => hw (h.gate hc)
  simp only [not_or, Bool.not_eq_false, Bool.not_eq_true] at h1 h2
  exact ⟨h1.1, h1.2, h2.2, h2.1⟩

/-- The writer moves on with the start, before it takes the held queue. -/
lemma advance (h : Releases cfg o) {pc : WriterPc} (hw : o.writer.stage ≠ 0)
    (hw6 : o.writer.stage < 6) (hpc : pc.stage < 6) {t : TrackMap} {mx : Option CmafMuxer}
    {ses : Bool} {cs : List SessionCall} {acc : Bool} (ht : 3 ≤ pc.stage → t = cfg.map)
    (hm : 4 ≤ pc.stage → mx.isSome) (hacc : acc = false → pc.stage = 0) :
    Releases cfg { o with
      writer := pc, tracks := t, muxer := mx, session := ses, accepting := acc
      past := { o.past with calls := cs } } := by
  obtain ⟨hcomp, hreq, hd, -⟩ := h.busy hw
  have hclear : pc ≠ .clearing := by
    rintro rfl
    exact absurd hpc (by simp [WriterPc.stage])
  refine ⟨?_, fun hs => ?_, fun ht' => ?_, fun hm' => ?_, h.pushing, h.budget, hclear, h.stop,
    h.asked, fun hc => ?_, fun hg => ?_⟩
  · rw [drained_of_stage hpc]
    have hk := h.kept
    rw [drained_of_stage hw6] at hk
    exact hk
  · exact absurd (hs.symm.trans (swapped_of_stage hpc)) (by simp [hd])
  · exact ht (ht'.resolve_right (by simp [hd]))
  · exact hm (hm'.resolve_right (by simp [hd]))
  · simp [hcomp, hreq] at hc
  · exact hacc (hg.resolve_right (by simp [hd]))

/-- The same where the muxer and the tracks stay. -/
lemma proceed (h : Releases cfg o) {pc : WriterPc} (hw : o.writer.stage ≠ 0)
    (hw6 : o.writer.stage < 6) (hpc : pc.stage ≤ o.writer.stage) {ses : Bool}
    {cs : List SessionCall} :
    Releases cfg { o with
      writer := pc, session := ses, past := { o.past with calls := cs } } :=
  h.advance hw hw6 (hpc.trans_lt hw6) (fun h3 => h.tracks (Or.inl (h3.trans hpc)))
    (fun h4 => h.muxer (Or.inl (h4.trans hpc))) fun hacc => absurd (h.gate (Or.inl hacc)) hw

/-- The writer at its loop. -/
lemma idle (h : Releases cfg o) (hw : o.writer.stage = 0) {pc : WriterPc} (hpc : pc.stage = 0)
    {wq : List PendingFragment} {cs : List SessionCall} :
    Releases cfg { o with writer := pc, wq := wq, past := { o.past with calls := cs } } := by
  refine ⟨?_, fun hs => h.empty ?_, fun ht => h.tracks ?_, fun hm => h.muxer ?_, h.pushing,
    h.budget, ?_, h.stop, h.asked, fun hc => ⟨hpc, (h.once hc).2⟩, fun _ => hpc⟩
  · have hk := h.kept
    rw [drained_of_stage (by omega)] at hk
    rw [drained_of_stage (show pc.stage < 6 by omega)]
    exact hk
  · rw [swapped_of_stage (hpc ▸ by simp)] at hs
    rw [swapped_of_stage (by omega)]
    exact hs
  · exact Or.inr (ht.resolve_left (by simp [hpc]))
  · exact Or.inr (hm.resolve_left (by simp [hpc]))
  · rintro rfl
    simp [WriterPc.stage] at hpc

lemma filterMap_singleton {α β : Type*} (f : α → Option β) (x : α) :
    [x].filterMap f = (f x).toList := by
  cases h : f x <;> simp [h]

/-- `out_packet` moves on, and the writer stays where it is. -/
lemma packet (h : Releases cfg o) {pc : PacketPc} {held : List HeldPacket} {b : HoldBudget}
    {rs rs' : List EncoderPacket} (hrs : rs' = o.past.received ++ rs)
    (hpush : ∀ q, pc = .pushing q → o.deferred = false) (hover : pc ≠ .overflowed)
    (hheld : o.swapped = true → held = [])
    (hkept : held.filterMap (·.release cfg.map) ++ ({ o with packet := pc }.inFlight cfg.map) =
      o.held.filterMap (·.release cfg.map) ++ o.inFlight cfg.map ++
        (rs.filterMap (·.toCmaf cfg.map))) :
    Releases cfg { o with
      packet := pc, held := held, budget := b, past := { o.past with received := rs' } } := by
  refine { h with kept := ?_, empty := hheld, pushing := hpush, budget := hover }
  have hk := h.kept
  rw [Output.sent] at hk ⊢
  rw [hrs, List.filterMap_append, ← hk]
  simp only [List.append_assoc] at hkept ⊢
  exact congrArg (fun l => o.past.given ++ (o.drained.filterMap (·.release cfg.map) ++ l)) hkept

/-- A packet given to the muxer by the drain, or by `out_packet` once there is nothing
left to drain. -/
lemma given (h : Releases cfg o) {q : CmafPacket} {m : CmafMuxer} {pc : PacketPc} {w : WriterPc}
    (hw : w.stage = o.writer.stage) (hclear : w ≠ .clearing)
    (hsw : ({ o with writer := w } : Output).swapped = o.swapped)
    (hpush : ∀ q, pc = .pushing q → o.deferred = false) (hover : pc ≠ .overflowed)
    (hkept : [q] ++ ({ o with writer := w } : Output).drained.filterMap (·.release cfg.map) ++
        o.held.filterMap (·.release cfg.map) ++ { o with packet := pc }.inFlight cfg.map =
      o.drained.filterMap (·.release cfg.map) ++ o.held.filterMap (·.release cfg.map) ++
        o.inFlight cfg.map) :
    Releases cfg ({ o with writer := w, packet := pc }.pushTo cfg m q) := by
  refine ⟨?_, fun hs => h.empty (hsw.symm.trans hs), fun ht => h.tracks (hw ▸ ht), fun _ => rfl,
    hpush, hover, hclear, h.stop, h.asked, fun hc => hw ▸ h.once hc, fun hg => hw ▸ h.gate hg⟩
  have hk := h.kept
  show o.past.given ++ [q] ++ _ ++ _ ++ _ = o.sent cfg
  rw [← hk]
  simp only [List.append_assoc] at hkept ⊢
  exact congrArg (o.past.given ++ ·) hkept

lemma stage_of_passes {w pc : WriterPc} (h : w.Passes pc) :
    w.stage ≠ 0 ∧ w.stage < 6 ∧ pc.stage ≤ w.stage := by
  cases h <;> simp [WriterPc.stage]

lemma stage_of_returns {w pc : WriterPc} {c : SessionCall} (h : w.Returns c pc) :
    w.stage ≠ 0 ∧ w.stage < 6 ∧ pc.stage ≤ w.stage := by
  cases h <;> simp [WriterPc.stage]

lemma stage_of_uses {w : WriterPc} (h : w.uses = true) : w.stage = 4 := by
  cases w <;> first | rfl | simp [WriterPc.uses] at h

/-- The writer takes up the request. -/
lemma wake (h : Releases cfg o) (hc : o.completeRequested = true) :
    Releases cfg { o with completeRequested := false, writer := .finishing } := by
  obtain ⟨hst, hd, hacc⟩ := h.once (Or.inr hc)
  have hcomp := h.asked hc
  refine { h with
    kept := ?_, empty := fun hs => ?_, tracks := fun ht => ?_, muxer := fun hm => ?_
    clearing := by simp, asked := by simp, once := fun hc => ?_, gate := fun hg => ?_ }
  · have hk := h.kept
    rw [drained_of_stage (by omega)] at hk
    exact hk
  · exact absurd hs (by simp [Output.swapped, hd])
  · simp [WriterPc.stage, hd] at ht
  · simp [WriterPc.stage, hd] at hm
  · simp [hcomp] at hc
  · simp [hacc, hd] at hg

/-- The writer takes the held queue. -/
lemma swap (h : Releases cfg o) (hw : o.writer = .swapping) :
    Releases cfg { o with held := [], budget := {}, writer := .rechecking o.held } := by
  have hst : o.writer.stage = 5 := by
    rw [hw]
    rfl
  obtain ⟨hcomp, hreq, hd, hacc⟩ := h.busy (by omega)
  refine { h with
    kept := ?_, empty := fun _ => rfl, tracks := fun _ => h.tracks (Or.inl (by omega))
    muxer := fun _ => h.muxer (Or.inl (by omega)), clearing := by simp, once := fun hc => ?_
    gate := fun hg => ?_ }
  · have hk := h.kept
    rw [drained_of_stage (by omega)] at hk
    show o.past.given ++ o.held.filterMap _ ++ [] ++ o.inFlight cfg.map = o.sent cfg
    simpa using hk
  · simp [hcomp, hreq] at hc
  · simp [hacc, hd] at hg

/-- The drain moves on without giving a packet. -/
lemma drain (h : Releases cfg o) {held : List HeldPacket} (hw : o.writer.stage = 6)
    (hsw : o.swapped = true)
    (hdr : held.filterMap (·.release cfg.map) = o.drained.filterMap (·.release cfg.map)) :
    Releases cfg { o with writer := .draining held } := by
  obtain ⟨hcomp, hreq, hd, hacc⟩ := h.busy (by omega)
  refine { h with
    kept := ?_, empty := fun _ => h.empty hsw, tracks := fun _ => h.tracks (Or.inl (by omega))
    muxer := fun _ => h.muxer (Or.inl (by omega)), clearing := by simp, once := fun hc => ?_
    gate := fun hg => ?_ }
  · have hk := h.kept
    rw [← hdr] at hk
    exact hk
  · simp [hcomp, hreq] at hc
  · simp [hacc, hd] at hg

/-- The writer clears `deferred`, with nothing left to drain. -/
lemma clear (h : Releases cfg o) (hw : o.writer = .draining []) :
    Releases cfg { o with deferred := false, writer := .waiting } := by
  have hst : o.writer.stage = 6 := by
    rw [hw]
    rfl
  obtain ⟨hcomp, hreq, -, -⟩ := h.busy (by omega)
  refine { h with
    kept := ?_, empty := fun _ => h.empty (by simp [Output.swapped, hw])
    tracks := fun _ => h.tracks (Or.inl (by omega)), muxer := fun _ => h.muxer (Or.inl (by omega))
    pushing := fun _ _ => rfl, clearing := by simp, once := fun hc => ?_, gate := fun _ => rfl }
  · have hk := h.kept
    rw [Output.drained, hw] at hk
    exact hk
  · simp [hcomp, hreq] at hc

/-- **What a step keeps**, without a stop and with no packet held after the queue was
taken. -/
theorem step (h : Releases cfg o) (hstop : o.noStop a = true) (hin : o.holdsInTime a = true)
    (ht : Output.step cfg o a = some o') : Releases cfg o' := by
  obtain ⟨-, hs⟩ := Output.steps_of_step ht
  clear ht
  cases hs with
  | @enter p hpc _ =>
      refine h.packet rfl (by simp) (by simp) h.empty ?_
      simp [Output.inFlight, hpc, filterMap_singleton]
  | @readHeld p hpc _ =>
      refine h.packet (List.append_nil _).symm (by simp) (by simp) h.empty ?_
      simp [Output.inFlight, hpc]
  | @readFree p q hpc hd hq =>
      rw [h.tracks (Or.inr hd)] at hq
      refine h.packet (List.append_nil _).symm (fun _ _ => hd) (by simp) h.empty ?_
      simp [Output.inFlight, hpc, hq]
  | @readOther p hpc hd hq =>
      rw [h.tracks (Or.inr hd)] at hq
      refine h.packet (List.append_nil _).symm (by simp) (by simp) h.empty ?_
      simp [Output.inFlight, hpc, hq]
  | @hold p heldMs b hpc hb =>
      have hfits : b.exceeded heldMs = false := by
        simpa [Output.noStop, hpc, ← hb] using hstop
      have hsw : o.swapped = false := by simpa [Output.holdsInTime] using hin
      rw [hfits]
      refine h.packet (List.append_nil _).symm (by simp) (by simp) (fun hs => ?_) ?_
      · exact absurd (hs.symm.trans hsw) (by simp)
      · simp [Output.inFlight, hpc, filterMap_singleton]
  | overflow hpc => exact absurd hpc h.budget
  | @ask p ready hpc hc =>
      obtain ⟨hst, hd, hacc⟩ := h.once (Or.inl hc)
      have hp : Releases cfg { o with packet := .idle } := by
        refine h.packet (List.append_nil _).symm (by simp) (by simp) h.empty ?_
        simp [Output.inFlight, hpc]
      exact { hp with asked := fun _ => rfl, once := fun _ => ⟨hst, hd, hacc⟩ }
  | @askNot p ready hpc =>
      refine h.packet (List.append_nil _).symm (by simp) (by simp) h.empty ?_
      simp [Output.inFlight, hpc]
  | @push p m hpc _ =>
      have hd := h.pushing p hpc
      have hst := h.gate (Or.inr hd)
      have hdr : o.drained = [] := drained_of_stage (by omega)
      refine h.given rfl h.clearing rfl (by simp) (by simp) ?_
      show [p] ++ o.drained.filterMap _ ++ _ ++ [] = _
      simp [Output.inFlight, hpc, hdr, h.empty (swapped_of_free hd)]
  | @pushGone p hpc hm => exact absurd (h.muxer (Or.inr (h.pushing p hpc))) (by simp [hm])
  | wake _ hc => exact h.wake hc
  | pop hw _ => exact h.idle (by rw [hw]; rfl) rfl
  | quit hw _ _ => exact h.idle (by rw [hw]; rfl) rfl
  | publish hw _ => exact h.idle (by rw [hw]; rfl) rfl
  | publishNull hw _ => exact h.idle (by rw [hw]; rfl) rfl
  | goOn hw ha =>
      refine h.advance ?_ ?_ ?_ ?_ ?_ ?_ <;> simp [hw, WriterPc.stage, ha]
  | leave hw ha =>
      exact absurd (h.busy (by simp [hw, WriterPc.stage])).2.2.2 (by simp [ha])
  | failStart hw =>
      refine h.advance ?_ ?_ ?_ ?_ ?_ ?_ <;> simp [hw, WriterPc.stage]
  | swap hw => exact h.swap hw
  | drain hw _ =>
      refine h.drain (by simp [hw, WriterPc.stage]) (by simp [Output.swapped, hw]) ?_
      simp [Output.drained, hw]
  | abandon hw ha =>
      exact absurd (h.busy (by simp [hw, WriterPc.stage])).2.2.2 (by simp [ha])
  | dropHeld hw hq =>
      rw [h.tracks (Or.inl (by simp [hw, WriterPc.stage]))] at hq
      refine h.drain (by simp [hw, WriterPc.stage]) (by simp [Output.swapped, hw]) ?_
      simp [Output.drained, hw, hq]
  | pushHeld hw hq _ =>
      rw [h.tracks (Or.inl (by simp [hw, WriterPc.stage]))] at hq
      refine h.given (by simp [hw, WriterPc.stage]) (by simp) (by simp [Output.swapped, hw])
        h.pushing h.budget ?_
      show [_] ++ List.filterMap _ _ ++ _ ++ o.inFlight cfg.map = _
      simp [Output.drained, hw, hq]
  | breakOff hw hm =>
      exact absurd (h.muxer (Or.inl (by simp [hw, WriterPc.stage]))) (by simp [hm])
  | clear hw => exact h.clear (hw.resolve_left h.clearing)
  | build hw =>
      have hacc := (h.busy (by simp [hw, WriterPc.stage])).2.2.2
      refine h.advance ?_ ?_ ?_ ?_ ?_ ?_ <;> simp [hw, WriterPc.stage, hacc]
  | make hw _ =>
      have hst : 3 ≤ o.writer.stage ∧ o.writer.stage < 5 := by
        rcases hw with ⟨hw, -⟩ | ⟨hw, -⟩ <;> simp [hw, WriterPc.stage]
      refine h.advance (by omega) (by omega) ?_ (fun _ => h.tracks (Or.inl hst.1)) (fun _ => rfl)
        fun hacc => ?_
      · rcases hw with ⟨-, rfl⟩ | ⟨-, rfl⟩ <;> simp [WriterPc.stage]
      · exact absurd (h.gate (Or.inl hacc)) (by omega)
  | pass hw _ =>
      obtain ⟨h0, h6, hle⟩ := stage_of_passes hw
      exact h.proceed h0 h6 hle
  | opens hw => refine h.proceed ?_ ?_ ?_ <;> simp [hw, WriterPc.stage]
  | returns hw _ =>
      obtain ⟨h0, h6, hle⟩ := stage_of_returns hw
      exact h.proceed h0 h6 hle
  | hook hw _ =>
      have hst : o.writer.stage = 4 := by
        rw [hw]
        rfl
      refine h.advance (by omega) (by omega) (by simp [WriterPc.stage])
        (fun _ => h.tracks (Or.inl (by omega))) (fun _ => rfl) fun hacc => ?_
      exact absurd (h.gate (Or.inl hacc)) (by omega)
  | null hw hm => exact absurd (h.muxer (Or.inl (stage_of_uses hw).ge)) (by simp [hm])
  | closeGate _ => exact absurd hstop (by simp [Output.noStop])
  | flush hs _ => exact absurd (h.stop.symm.trans hs) (by simp)
  | flushNone hs _ => exact absurd (h.stop.symm.trans hs) (by simp)
  | stopWriter hs => exact absurd (h.stop.symm.trans hs) (by simp)
  | join hs _ => exact absurd (h.stop.symm.trans hs) (by simp)
  | endSession hs _ => exact absurd (h.stop.symm.trans hs) (by simp)
  | noSession hs _ => exact absurd (h.stop.symm.trans hs) (by simp)
  | reset hs => exact absurd (h.stop.symm.trans hs) (by simp)

lemma start (cfg : OutputConfig) : Releases cfg {} where
  kept := rfl
  empty := fun _ => rfl
  tracks := by simp [WriterPc.stage]
  muxer := by simp [WriterPc.stage]
  pushing := by simp
  budget := by simp
  clearing := by simp
  stop := rfl
  asked := by simp
  once := fun _ => ⟨rfl, rfl, rfl⟩
  gate := fun _ => rfl

/-- What is given is a beginning of what was received, and all of it once the start is
finished and no packet is in hand. -/
lemma kept_of (h : Releases cfg o) : o.Kept cfg := by
  refine ⟨⟨_, by rw [← h.kept, List.append_assoc, List.append_assoc]⟩, fun hd hpc => ?_⟩
  have hst := h.gate (Or.inr hd)
  have hfly : o.inFlight cfg.map = [] := by simp [Output.inFlight, hpc]
  have hk := h.kept
  rw [drained_of_stage (by omega), h.empty (swapped_of_free hd), hfly] at hk
  simpa using hk

end Releases

/-! ### The result -/

instance (cfg : OutputConfig) (o : Output) : Decidable (o.Kept cfg) :=
  inferInstanceAs (Decidable (_ ∧ _))

/-- **A deferred start keeps its packets**: without a stop and within the budget, if no
packet is held once the writer has taken the held queue, the muxer is given every packet
of the tracks being sent, once and in the order they were received. -/
theorem packets_kept (cfg : OutputConfig) {o : Output}
    (h : Lib.Reach (Output.step cfg) (fun o a => (o.noStop a && o.holdsInTime a) = true)
      Deferred o) : o.Kept cfg := by
  refine Releases.kept_of (Lib.Reach.invariant (I := Releases cfg) ?_ ?_ h)
  · rintro o rfl
    exact .start cfg
  · intro o a o' ho hc ht
    obtain ⟨hstop, hin⟩ := Bool.and_eq_true_iff.mp hc
    exact ho.step hstop hin ht

/-- The first keyframe is held, and the next packet comes once the start is
finished. -/
def heldInTime : List OutputAction :=
  holdPacket { keyframe := true, data := [1] } true ++ finishStart ++
    [OutputAction.recheck, .pushHeld, .clearDeferred, .outPacket { pts := 1, data := [2] },
      .readDeferred, .push]

theorem packets_kept_inTime : ∃ o : Output, o.deferred = false ∧ o.past.given.length = 2 ∧
    o.Kept sampleOutput := by
  obtain ⟨o, ho, hd, hlen⟩ : ∃ o,
      Lib.Reach (Output.step sampleOutput) (fun o a => (o.noStop a && o.holdsInTime a) = true)
        Deferred o ∧ o.deferred = false ∧ o.past.given.length = 2 :=
    Lib.exists_reach_guarded {} heldInTime rfl (by decide +kernel)
  exact ⟨o, hd, hlen, packets_kept sampleOutput ho⟩

/-- The next packet comes while the held keyframe is being given to the muxer. -/
def heldLate : List OutputAction :=
  holdPacket { keyframe := true, data := [1] } true ++ finishStart ++
    [OutputAction.recheck] ++ holdPacket { pts := 1, data := [2] } false ++
    [OutputAction.pushHeld, .clearDeferred]

/-- Nobody gives it to the muxer. -/
theorem packet_left : ∃ o,
    Lib.Reach (Output.step sampleOutput) (fun o a => o.noStop a = true) Deferred o ∧
      ¬o.Kept sampleOutput :=
  Lib.exists_reach_guarded {} heldLate rfl (by decide +kernel)

end Multisite

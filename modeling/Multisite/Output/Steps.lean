import Multisite.Output.Threads

/-!
What one step of the output's threads can do (`Output.Steps`), read off `Output.step`
once: the invariants of its runs are case analyses of `Steps`.

The steps of `complete_start` that only move the writer on are one case
(`WriterPc.Passes`), the returns of `resume` and `start_new` another
(`WriterPc.Returns`), and a use of a muxer that is gone a third (`Steps.null`).
-/

namespace Multisite

open SpoolQueue (ResumeInfo)

/-- The next step of `complete_start` goes through `ctx->muxer`. -/
def WriterPc.uses : WriterPc → Bool
  | .logging | .resuming | .resumeCalled | .starting | .startCalled | .hooking => true
  | _ => false

/-- The steps of `complete_start` that only move the writer on. -/
inductive WriterPc.Passes : WriterPc → WriterPc → Prop
  | build : Passes .building .failing
  | make {resumeFromS : ℚ} : Passes (.making resumeFromS) .failing
  | remake : Passes .remaking .failing
  | log : Passes .logging .opening
  | noStorage : Passes .opening .failing
  | toResume : Passes .choosing .resuming
  | toStart : Passes .choosing .starting
  | resume : Passes .resuming .resumeCalled
  | start : Passes .starting .startCalled

/-- The returns of `resume` and `start_new`. -/
inductive WriterPc.Returns : WriterPc → SessionCall → WriterPc → Prop
  | resumed {wrote : Bool} : Returns .resumeCalled (.resume wrote) .hooking
  | refused : Returns .resumeCalled (.resume false) .remaking
  | notResumed {wrote : Bool} : Returns .resumeCalled (.resume wrote) .failing
  | started {wrote : Bool} : Returns .startCalled (.startNew wrote) .hooking
  | notStarted {wrote : Bool} : Returns .startCalled (.startNew wrote) .failing

/-- What a step can do. -/
inductive Output.Steps (cfg : OutputConfig) (o : Output) : OutputAction → Output → Prop
  | enter {p : EncoderPacket} (hpc : o.packet = .idle) (ha : o.accepting = true) :
      Steps cfg o (.outPacket p)
        { o with
          packet := .entered p, past := { o.past with received := o.past.received ++ [p] } }
  | readHeld {p : EncoderPacket} (hpc : o.packet = .entered p) (hd : o.deferred = true) :
      Steps cfg o .readDeferred { o with packet := .holding p }
  | readFree {p : EncoderPacket} {q : CmafPacket} (hpc : o.packet = .entered p)
      (hd : o.deferred = false) (hq : p.toCmaf o.tracks = some q) :
      Steps cfg o .readDeferred { o with packet := .pushing q }
  | readOther {p : EncoderPacket} (hpc : o.packet = .entered p) (hd : o.deferred = false)
      (hq : p.toCmaf o.tracks = none) : Steps cfg o .readDeferred { o with packet := .idle }
  | hold {p : EncoderPacket} {heldMs : ℤ} {b : HoldBudget} (hpc : o.packet = .holding p)
      (hb : b = o.budget.add p.isVideo p.data.length) :
      Steps cfg o (.hold heldMs)
        { o with
          budget := b, held := o.held ++ [p.hold]
          packet := if b.exceeded heldMs then .overflowed else .asking p }
  | overflow (hpc : o.packet = .overflowed) :
      Steps cfg o .overflow { o with packet := .idle, accepting := false }
  | ask {p : EncoderPacket} {ready : Bool} (hpc : o.packet = .asking p)
      (hc : o.completing = false) :
      Steps cfg o (.ask ready)
        { o with packet := .idle, completing := true, completeRequested := true }
  | askNot {p : EncoderPacket} {ready : Bool} (hpc : o.packet = .asking p) :
      Steps cfg o (.ask ready) { o with packet := .idle }
  | push {p : CmafPacket} {m : CmafMuxer} (hpc : o.packet = .pushing p) (hm : o.muxer = some m) :
      Steps cfg o .push ({ o with packet := .idle }.pushTo cfg m p)
  | pushGone {p : CmafPacket} (hpc : o.packet = .pushing p) (hm : o.muxer = none) :
      Steps cfg o .push { o with packet := .idle }
  | wake (hw : o.writer = .waiting) (hc : o.completeRequested = true) :
      Steps cfg o .wake { o with completeRequested := false, writer := .finishing }
  | pop {f : PendingFragment} {rest : List PendingFragment} (hw : o.writer = .waiting)
      (hq : o.wq = f :: rest) : Steps cfg o .wake { o with wq := rest, writer := .publishing f }
  | quit (hw : o.writer = .waiting) (hq : o.wq = []) (hr : o.writerRun = false) :
      Steps cfg o .wake { o with writer := .ended }
  | publish {f : PendingFragment} (hw : o.writer = .publishing f) (hs : o.session = true) :
      Steps cfg o .publish ({ o with writer := .waiting }.call (.publishSegment f))
  | publishNull {f : PendingFragment} (hw : o.writer = .publishing f) (hs : o.session = false) :
      Steps cfg o .publish { o with writer := .crashed }
  | goOn (hw : o.writer = .finishing) (ha : o.accepting = true) :
      Steps cfg o .testAccepting { o with writer := .building }
  | leave (hw : o.writer = .finishing) (ha : o.accepting = false) :
      Steps cfg o .testAccepting { o with deferred := false, writer := .waiting }
  | failStart (hw : o.writer = .failing) :
      Steps cfg o .failStart { o with accepting := false, writer := .waiting }
  | swap (hw : o.writer = .swapping) :
      Steps cfg o .swap { o with held := [], budget := {}, writer := .rechecking o.held }
  | drain {held : List HeldPacket} (hw : o.writer = .rechecking held) (ha : o.accepting = true) :
      Steps cfg o .recheck { o with writer := .draining held }
  | abandon {held : List HeldPacket} (hw : o.writer = .rechecking held)
      (ha : o.accepting = false) : Steps cfg o .recheck { o with writer := .clearing }
  | dropHeld {h : HeldPacket} {rest : List HeldPacket} (hw : o.writer = .draining (h :: rest))
      (hq : h.release o.tracks = none) : Steps cfg o .pushHeld { o with writer := .draining rest }
  | pushHeld {h : HeldPacket} {rest : List HeldPacket} {q : CmafPacket} {m : CmafMuxer}
      (hw : o.writer = .draining (h :: rest)) (hq : h.release o.tracks = some q)
      (hm : o.muxer = some m) :
      Steps cfg o .pushHeld ({ o with writer := .draining rest }.pushTo cfg m q)
  | breakOff {h : HeldPacket} {rest : List HeldPacket} (hw : o.writer = .draining (h :: rest))
      (hm : o.muxer = none) : Steps cfg o .pushHeld { o with writer := .clearing }
  | clear (hw : o.writer = .clearing ∨ o.writer = .draining []) :
      Steps cfg o .clearDeferred { o with deferred := false, writer := .waiting }
  | build {ok : Bool} {peek : ResumeInfo} (hw : o.writer = .building) :
      Steps cfg o (.build ok peek)
        { o with tracks := cfg.map, writer := .making (Output.resumeFrom cfg peek) }
  | make {a : OutputAction} {fromS : ℚ} {m : CmafMuxer} {next : WriterPc}
      (hw : o.writer = .making fromS ∧ next = .logging ∨ o.writer = .remaking ∧ next = .starting)
      (hm : m = CmafMuxer.new cfg.movenc cfg.tracks cfg.segmentDurationS false fromS) :
      Steps cfg o a { o with muxer := some m, writer := next }
  | pass {a : OutputAction} {next : WriterPc} (hw : o.writer.Passes next)
      (hm : o.writer.uses = true → o.muxer.isSome) : Steps cfg o a { o with writer := next }
  | opens (hw : o.writer = .opening) :
      Steps cfg o (.openSession true) { o with session := true, writer := .choosing }
  | returns {a : OutputAction} {c : SessionCall} {next : WriterPc} (hw : o.writer.Returns c next)
      (hm : o.muxer.isSome) : Steps cfg o a ({ o with writer := next }.call c)
  | hook {m : CmafMuxer} (hw : o.writer = .hooking) (hm : o.muxer = some m) :
      Steps cfg o .hook { o with muxer := some m.onSegment, writer := .swapping }
  | null {a : OutputAction} (hw : o.writer.uses = true) (hm : o.muxer = none) :
      Steps cfg o a { o with writer := .crashed }
  | closeGate (hs : o.stop = .idle) :
      Steps cfg o .closeGate { o with stop := .closed, accepting := false }
  | flush {m : CmafMuxer} (hs : o.stop = .closed) (hm : o.muxer = some m) :
      Steps cfg o .flushMuxer
        ({ o with stop := .flushed, muxer := none }.queue (m.flush cfg.movenc).2)
  | flushNone (hs : o.stop = .closed) (hm : o.muxer = none) :
      Steps cfg o .flushMuxer { o with stop := .flushed }
  | stopWriter (hs : o.stop = .flushed) :
      Steps cfg o .stopWriter { o with stop := .joining, writerRun := false }
  | join (hs : o.stop = .joining) (hw : o.writer = .ended) :
      Steps cfg o .join { o with stop := .joined }
  | endSession (hs : o.stop = .joined) (hses : o.session = true) :
      Steps cfg o .endSession ({ o with stop := .resetting }.call .endEvent)
  | noSession (hs : o.stop = .joined) (hses : o.session = false) :
      Steps cfg o .endSession { o with stop := .resetting }
  | reset (hs : o.stop = .resetting) :
      Steps cfg o .reset
        { o with stop := .returned, started := false, session := false, muxer := none }

namespace Output

variable {cfg : OutputConfig} {o o' : Output} {a : OutputAction}

lemma steps_of_packet (h : stepPacket cfg o a = some o') : Steps cfg o a o' := by
  cases a with
  | outPacket p =>
      simp only [stepPacket, Option.ite_none_right_eq_some, Option.some.injEq] at h
      obtain ⟨⟨hpc, ha⟩, rfl⟩ := h
      exact .enter hpc ha
  | readDeferred =>
      simp only [stepPacket] at h
      split at h
      · rename_i p hpc
        split at h
        · rename_i hd
          obtain rfl := Option.some.inj h
          exact .readHeld hpc hd
        · rename_i hd
          split at h
          · rename_i q hq
            obtain rfl := Option.some.inj h
            exact .readFree hpc (by simpa using hd) hq
          · rename_i hq
            obtain rfl := Option.some.inj h
            exact .readOther hpc (by simpa using hd) hq
      · exact absurd h (by simp)
  | hold heldMs =>
      simp only [stepPacket] at h
      split at h
      · rename_i p hpc
        obtain rfl := Option.some.inj h
        exact .hold hpc rfl
      · exact absurd h (by simp)
  | overflow =>
      simp only [stepPacket, Option.ite_none_right_eq_some, Option.some.injEq] at h
      obtain ⟨hpc, rfl⟩ := h
      exact .overflow hpc
  | ask ready =>
      simp only [stepPacket] at h
      split at h
      · rename_i p hpc
        split at h
        · rename_i hc
          obtain rfl := Option.some.inj h
          simp only [Bool.and_eq_true, Bool.not_eq_true'] at hc
          exact .ask hpc hc.2
        · obtain rfl := Option.some.inj h
          exact .askNot hpc
      · exact absurd h (by simp)
  | push =>
      simp only [stepPacket] at h
      split at h
      · rename_i p hpc
        split at h
        · rename_i m hm
          obtain rfl := Option.some.inj h
          exact .push hpc hm
        · rename_i hm
          obtain rfl := Option.some.inj h
          exact .pushGone hpc hm
      · exact absurd h (by simp)
  | _ => exact absurd h (by simp [stepPacket])

lemma steps_of_writer (h : stepWriter cfg o a = some o') : Steps cfg o a o' := by
  cases a with
  | wake =>
      simp only [stepWriter, Option.ite_none_right_eq_some] at h
      obtain ⟨hw, h⟩ := h
      split at h
      · rename_i hc
        obtain rfl := Option.some.inj h
        exact .wake hw hc
      · split at h
        · rename_i f rest hq
          obtain rfl := Option.some.inj h
          exact .pop hw hq
        · rename_i hq
          split at h
          · exact absurd h (by simp)
          · rename_i hr
            obtain rfl := Option.some.inj h
            exact .quit hw hq (by simpa using hr)
  | publish =>
      simp only [stepWriter] at h
      split at h
      · rename_i f hw
        split at h
        · rename_i hs
          obtain rfl := Option.some.inj h
          exact .publish hw hs
        · rename_i hs
          obtain rfl := Option.some.inj h
          exact .publishNull hw (by simpa using hs)
      · exact absurd h (by simp)
  | testAccepting =>
      simp only [stepWriter, Option.ite_none_right_eq_some] at h
      obtain ⟨hw, h⟩ := h
      split at h
      · rename_i ha
        obtain rfl := Option.some.inj h
        exact .goOn hw ha
      · rename_i ha
        obtain rfl := Option.some.inj h
        exact .leave hw (by simpa using ha)
  | failStart =>
      simp only [stepWriter, Option.ite_none_right_eq_some, Option.some.injEq] at h
      obtain ⟨hw, rfl⟩ := h
      exact .failStart hw
  | swap =>
      simp only [stepWriter, Option.ite_none_right_eq_some, Option.some.injEq] at h
      obtain ⟨hw, rfl⟩ := h
      exact .swap hw
  | recheck =>
      simp only [stepWriter] at h
      split at h
      · rename_i held hw
        split at h
        · rename_i ha
          obtain rfl := Option.some.inj h
          exact .drain hw ha
        · rename_i ha
          obtain rfl := Option.some.inj h
          exact .abandon hw (by simpa using ha)
      · exact absurd h (by simp)
  | pushHeld =>
      simp only [stepWriter] at h
      split at h
      · rename_i hd rest hw
        split at h
        · rename_i hq
          obtain rfl := Option.some.inj h
          exact .dropHeld hw hq
        · rename_i q m hq hm
          obtain rfl := Option.some.inj h
          exact .pushHeld hw hq hm
        · rename_i hm
          obtain rfl := Option.some.inj h
          exact .breakOff hw hm
      · exact absurd h (by simp)
  | clearDeferred =>
      simp only [stepWriter, Option.ite_none_right_eq_some, Option.some.injEq] at h
      obtain ⟨hw, rfl⟩ := h
      exact .clear hw
  | _ => exact absurd h (by simp [stepWriter])

/-- A use of the muxer finds it, or ends the process. -/
lemma steps_of_use {next : Output} (hw : o.writer.uses = true)
    (hnext : o.muxer.isSome → Steps cfg o a next) : Steps cfg o a (o.useMuxer next) := by
  rw [useMuxer]
  split
  · rename_i hm
    exact hnext hm
  · rename_i hm
    exact .null hw (by simpa using hm)

lemma steps_of_make {fromS : ℚ} {next : WriterPc}
    (hw : o.writer = .making fromS ∧ next = .logging ∨
      o.writer = .remaking ∧ next = .starting ∧ fromS = -1) :
    Steps cfg o a (o.makeMuxer cfg fromS next) := by
  rw [Output.makeMuxer]
  split
  · exact .make (hw.imp_right fun h => ⟨h.1, h.2.1⟩) rfl
  · refine .pass ?_ ?_
    · rcases hw with ⟨hw, -⟩ | ⟨hw, -⟩
      · rw [hw]
        exact .make
      · rw [hw]
        exact .remake
    · rcases hw with ⟨hw, -⟩ | ⟨hw, -⟩ <;> simp [hw, WriterPc.uses]

lemma steps_of_start (h : stepStart cfg o a = some o') : Steps cfg o a o' := by
  cases a with
  | build ok peek =>
      simp only [stepStart, Option.ite_none_right_eq_some] at h
      obtain ⟨hw, h⟩ := h
      split at h
      · obtain rfl := Option.some.inj h
        exact .build hw
      · obtain rfl := Option.some.inj h
        exact .pass (by rw [hw]; exact .build) (by simp [hw, WriterPc.uses])
  | makeMuxer =>
      simp only [stepStart] at h
      split at h
      · rename_i fromS hw
        obtain rfl := Option.some.inj h
        exact steps_of_make (Or.inl ⟨hw, rfl⟩)
      · exact absurd h (by simp)
  | logInit =>
      simp only [stepStart, Option.ite_none_right_eq_some, Option.some.injEq] at h
      obtain ⟨hw, rfl⟩ := h
      exact steps_of_use (by rw [hw]; rfl) fun hm => .pass (by rw [hw]; exact .log) fun _ => hm
  | openSession ok =>
      simp only [stepStart, Option.ite_none_right_eq_some] at h
      obtain ⟨hw, h⟩ := h
      split at h
      · rename_i hok
        obtain rfl := Option.some.inj h
        rw [hok]
        exact .opens hw
      · obtain rfl := Option.some.inj h
        exact .pass (by rw [hw]; exact .noStorage) (by simp [hw, WriterPc.uses])
  | choose check =>
      simp only [stepStart, Option.ite_none_right_eq_some] at h
      obtain ⟨hw, h⟩ := h
      split at h
      · obtain rfl := Option.some.inj h
        exact .pass (by rw [hw]; exact .toResume) (by simp [hw, WriterPc.uses])
      · obtain rfl := Option.some.inj h
        exact .pass (by rw [hw]; exact .toStart) (by simp [hw, WriterPc.uses])
  | callResume =>
      simp only [stepStart, Option.ite_none_right_eq_some, Option.some.injEq] at h
      obtain ⟨hw, rfl⟩ := h
      exact steps_of_use (by rw [hw]; rfl) fun hm => .pass (by rw [hw]; exact .resume) fun _ => hm
  | resumeReturns answer wrote =>
      simp only [stepStart, Option.ite_none_right_eq_some] at h
      obtain ⟨hw, h⟩ := h
      have huses : o.writer.uses = true := by
        rw [hw]
        rfl
      cases answer with
      | ok =>
          obtain rfl := Option.some.inj h
          exact steps_of_use huses fun hm => .returns (by rw [hw]; exact .resumed) hm
      | refused =>
          obtain rfl := Option.some.inj h
          exact steps_of_use huses fun hm => .returns (by rw [hw]; exact .refused) hm
      | failed =>
          obtain rfl := Option.some.inj h
          exact steps_of_use huses fun hm => .returns (by rw [hw]; exact .notResumed) hm
  | remakeMuxer =>
      simp only [stepStart, Option.ite_none_right_eq_some, Option.some.injEq] at h
      obtain ⟨hw, rfl⟩ := h
      exact steps_of_make (Or.inr ⟨hw, rfl, rfl⟩)
  | callStartNew =>
      simp only [stepStart, Option.ite_none_right_eq_some, Option.some.injEq] at h
      obtain ⟨hw, rfl⟩ := h
      exact steps_of_use (by rw [hw]; rfl) fun hm => .pass (by rw [hw]; exact .start) fun _ => hm
  | startNewReturns ok wrote =>
      simp only [stepStart, Option.ite_none_right_eq_some, Option.some.injEq] at h
      obtain ⟨hw, rfl⟩ := h
      refine steps_of_use (by rw [hw]; rfl) fun hm => .returns ?_ hm
      rw [hw]
      cases ok with
      | true => exact .started
      | false => exact .notStarted
  | hook =>
      simp only [stepStart, Option.ite_none_right_eq_some] at h
      obtain ⟨hw, h⟩ := h
      split at h
      · rename_i m hm
        obtain rfl := Option.some.inj h
        exact .hook hw hm
      · rename_i hm
        obtain rfl := Option.some.inj h
        exact .null (by rw [hw]; rfl) hm
  | _ => exact absurd h (by simp [stepStart])

lemma steps_of_stop (h : stepStop cfg o a = some o') : Steps cfg o a o' := by
  cases a with
  | closeGate =>
      simp only [stepStop, Option.ite_none_right_eq_some, Option.some.injEq] at h
      obtain ⟨⟨hs, -⟩, rfl⟩ := h
      exact .closeGate hs
  | flushMuxer =>
      simp only [stepStop, Option.ite_none_right_eq_some] at h
      obtain ⟨hs, h⟩ := h
      split at h
      · rename_i m hm
        obtain rfl := Option.some.inj h
        exact .flush hs hm
      · rename_i hm
        obtain rfl := Option.some.inj h
        exact .flushNone hs hm
  | stopWriter =>
      simp only [stepStop, Option.ite_none_right_eq_some, Option.some.injEq] at h
      obtain ⟨hs, rfl⟩ := h
      exact .stopWriter hs
  | join =>
      simp only [stepStop, Option.ite_none_right_eq_some, Option.some.injEq] at h
      obtain ⟨⟨hs, hw⟩, rfl⟩ := h
      exact .join hs hw
  | endSession =>
      simp only [stepStop, Option.ite_none_right_eq_some] at h
      obtain ⟨hs, h⟩ := h
      split at h
      · rename_i hses
        obtain rfl := Option.some.inj h
        exact .endSession hs hses
      · rename_i hses
        obtain rfl := Option.some.inj h
        exact .noSession hs (by simpa using hses)
  | reset =>
      simp only [stepStop, Option.ite_none_right_eq_some, Option.some.injEq] at h
      obtain ⟨hs, rfl⟩ := h
      exact .reset hs
  | _ => exact absurd h (by simp [stepStop])

/-- **What a step can do.** -/
theorem steps_of_step (h : step cfg o a = some o') : o.writer ≠ .crashed ∧ Steps cfg o a o' := by
  rw [step] at h
  split at h
  · exact absurd h (by simp)
  · rename_i hw
    refine ⟨hw, ?_⟩
    rcases Option.or_eq_some_iff.mp h with h | ⟨-, h⟩
    · exact steps_of_packet h
    · rcases Option.or_eq_some_iff.mp h with h | ⟨-, h⟩
      · exact steps_of_writer h
      · rcases Option.or_eq_some_iff.mp h with h | ⟨-, h⟩
        · exact steps_of_start h
        · exact steps_of_stop h

end Output

/-! ### Runs on fixed inputs -/

/-- libavformat for runs on fixed inputs: a fragment is its packets' bytes. -/
def sampleMovenc : Movenc where
  header _ _ := some [0x66, 0x74, 0x79, 0x70]
  accepts _ _ _ := true
  fragment _ ps := ps.flatMap (·.data)

/-- An output with video and one mix. -/
def sampleOutput : OutputConfig where
  movenc := sampleMovenc
  mixes := [true]

/-- A packet arrives while the start is deferred, and is held. -/
def holdPacket (p : EncoderPacket) (ready : Bool) : List OutputAction :=
  [.outPacket p, .readDeferred, .hold 0, .ask ready]

/-- The writer finishes the start of a new event, up to the taking of the held
queue. -/
def finishStart : List OutputAction :=
  [.wake, .testAccepting, .build true {}, .makeMuxer, .logInit, .openSession true, .choose {},
    .callStartNew, .startNewReturns true true, .hook, .swap]

end Multisite

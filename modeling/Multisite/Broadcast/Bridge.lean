import Multisite.Lib.Run

/-!
The bridge that carries captions from the sources of a scene to the output, `CaptionBridge` of
`obs/caption_bridge.cpp`, with everything that runs beside it.

`start` and `stop` run on the controller's thread, one lock at a time.  Sources come and go on
other threads, which call `on_source_created`; captions arrive on the sources' own threads, which
call `on_cea708` holding the source's lock, the one that `obs_source_remove_caption_callback` takes;
and a thread of the bridge watches the text of a named source.

* `Sound.step`: what every step of every thread keeps;
* `sources_subscribed`: no source has the callback twice, none has it once the bridge is stopped,
  and in automatic mode none is missed;
* `captions_to_live_output`: a caption on its way is on its way to an output that is there.
-/

namespace Multisite

open Lib

/-! ### The bridge -/

/-- Where the controller's thread is in `start` or `stop`. -/
inductive BridgeStage where
  /-- In neither. -/
  | rest
  /-- Before `signal_handler_connect`. -/
  | connect
  /-- Before `obs_enum_sources`. -/
  | enumerate
  /-- In it, with these sources to come. -/
  | subscribing (todo : List ℕ)
  /-- Before the named source is subscribed. -/
  | named
  /-- Before the thread is joined. -/
  | join
  /-- Before the output is cleared. -/
  | clear
  /-- Before `signal_handler_disconnect`. -/
  | disconnect
  /-- Before `unsubscribe_all`. -/
  | unsubscribe
  deriving DecidableEq

/-- The bridge, and what `libobs` has of it. -/
structure CaptionBridge where
  /-- The number of the next source. -/
  next : ℕ := 0
  /-- The sources that are listed. -/
  alive : List ℕ := []
  /-- Those of which `source_create` is still to be signalled. -/
  unsignalled : List ℕ := []
  /-- `on_source_created` is connected. -/
  handler : Bool := false
  /-- The sources that have the callback `on_cea708`. -/
  callbacks : List ℕ := []
  /-- The calls of `on_source_created` under way, and whether they are past its check. -/
  calls : List (ℕ × Bool) := []
  /-- The captions under way, from the callback of a source or from the thread that watches the
  text, and the output each was loaded for. -/
  sending : List (Option ℕ × ℕ) := []
  /-- The outputs that were let go of. -/
  released : List ℕ := []
  running : Bool := false
  automatic : Bool := false
  output : Option ℕ := none
  subs : List ℕ := []
  /-- The thread that watches the text runs. -/
  thread : Bool := false
  stage : BridgeStage := .rest
  deriving DecidableEq

/-- What can happen. -/
inductive BridgeStep where
  /-- `start` begins, with an output, in automatic mode or not. -/
  | start (output : ℕ) (automatic : Bool)
  /-- `stop` begins. -/
  | stop
  /-- `start` or `stop` goes on; the source of that name, where one is looked up. -/
  | advance (found : Option ℕ)
  /-- The controller lets go of an output. -/
  | release (output : ℕ)
  /-- A source is listed. -/
  | create
  /-- Its `source_create` is signalled. -/
  | signal (x : ℕ)
  /-- `on_source_created` looks whether the bridge runs in automatic mode. -/
  | check (x : ℕ)
  /-- `on_source_created` subscribes. -/
  | subscribe (x : ℕ)
  /-- A source goes. -/
  | destroy (x : ℕ)
  /-- A caption comes, and the output is loaded for it. -/
  | load (who : Option ℕ)
  /-- The caption is sent. -/
  | send (who : Option ℕ) (output : ℕ)

namespace CaptionBridge

variable (s : CaptionBridge)

/-- `subscribe`, under its lock. -/
def subscribe (x : ℕ) : CaptionBridge :=
  if !s.running || x ∈ s.subs then s
  else { s with callbacks := x :: s.callbacks, subs := x :: s.subs }

/-- `start` and `stop` go on. -/
def advance (found : Option ℕ) : Option CaptionBridge :=
  match s.stage with
  | .rest => none
  | .connect => some { s with handler := true, stage := .enumerate }
  | .enumerate => some { s with stage := .subscribing s.alive }
  | .subscribing [] => some { s with stage := .rest }
  | .subscribing (x :: todo) =>
      -- a source that is being enumerated is there
      some { (if x ∈ s.alive then s.subscribe x else s) with stage := .subscribing todo }
  | .named =>
      match found with
      | some x =>
          if x ∈ s.alive then some { s.subscribe x with thread := true, stage := .rest } else none
      | none => some { s with thread := true, stage := .rest }
  | .join =>
      if s.sending.all (·.1 ≠ none) then some { s with thread := false, stage := .clear } else none
  | .clear => some { s with output := none, stage := .disconnect }
  | .disconnect =>
      some { s with handler := if s.automatic then false else s.handler, stage := .unsubscribe }
  | .unsubscribe =>
      -- a callback is taken off a source once no caption comes from it
      if s.sending = [] then
        some { s with
          callbacks := s.callbacks.filter (· ∉ s.subs), subs := [], automatic := false,
          stage := .rest }
      else none

/-- One step. -/
def step : BridgeStep → Option CaptionBridge
  | .start output automatic =>
      if s.stage = .rest && !s.running && output ∉ s.released then
        some { s with
          output := some output, automatic := automatic, running := true,
          stage := if automatic then .connect else .named }
      else none
  | .stop =>
      if s.stage = .rest && s.running then some { s with running := false, stage := .join }
      else none
  | .advance found => s.advance found
  | .release output =>
      if s.stage = .rest && !s.running then some { s with released := output :: s.released }
      else none
  | .create =>
      some { s with
        next := s.next + 1, alive := s.next :: s.alive, unsignalled := s.next :: s.unsignalled }
  | .signal x =>
      if x ∈ s.unsignalled then
        some { s with
          unsignalled := s.unsignalled.erase x
          calls := if s.handler then (x, false) :: s.calls else s.calls }
      else none
  | .check x =>
      if (x, false) ∈ s.calls then
        some { s with
          calls := if s.running && s.automatic then (x, true) :: s.calls.erase (x, false)
            else s.calls.erase (x, false) }
      else none
  | .subscribe x =>
      if (x, true) ∈ s.calls then
        some { s.subscribe x with calls := s.calls.erase (x, true) }
      else none
  | .destroy x =>
      if x ∈ s.alive && x ∉ s.unsignalled && (x, false) ∉ s.calls && (x, true) ∉ s.calls &&
          s.sending.all (·.1 ≠ some x) then
        some { s with
          alive := s.alive.filter (· ≠ x), callbacks := s.callbacks.filter (· ≠ x) }
      else none
  | .load who =>
      -- whoever loads the output may have looked whether the bridge runs some time before
      let may := match who with
        | some x => decide (x ∈ s.callbacks)
        | none => s.thread
      match s.output with
      | some output =>
          if may then some { s with sending := (who, output) :: s.sending } else none
      | none => none
  | .send who output =>
      if (who, output) ∈ s.sending then
        some { s with sending := s.sending.erase (who, output) }
      else none

end CaptionBridge

-- their equations are made here, once, and not by the first lemmas that ask for them
section
attribute [local simp] CaptionBridge.subscribe CaptionBridge.advance CaptionBridge.step
end

/-! ### The callbacks -/

namespace CaptionBridge

variable {s t : CaptionBridge} {x : ℕ}

lemma subscribe_eq (s : CaptionBridge) (x : ℕ) :
    s.subscribe x =
      { s with
        callbacks := if !s.running || x ∈ s.subs then s.callbacks else x :: s.callbacks
        subs := if !s.running || x ∈ s.subs then s.subs else x :: s.subs } := by
  rw [subscribe]
  split <;> simp_all

/-- The callbacks, and the references that are kept of the sources that have one. -/
structure Registered (s : CaptionBridge) : Prop where
  nodup : s.callbacks.Nodup
  listed : ∀ x ∈ s.callbacks, x ∈ s.subs ∧ x ∈ s.alive
  kept : ∀ x ∈ s.subs, x ∈ s.alive → x ∈ s.callbacks
  numbered : ∀ x, x ∈ s.subs ∨ x ∈ s.alive → x < s.next
  unsignalled : ∀ x ∈ s.unsignalled, x ∈ s.alive
  calls : ∀ x b, (x, b) ∈ s.calls → x ∈ s.alive

/-- It does not depend on the rest. -/
lemma Registered.congr (h : s.Registered) (hc : t.callbacks = s.callbacks) (hs : t.subs = s.subs)
    (ha : t.alive = s.alive) (hn : t.next = s.next) (hu : t.unsignalled = s.unsignalled)
    (hcalls : t.calls = s.calls) : t.Registered :=
  ⟨hc ▸ h.nodup, by rw [hc, hs, ha]; exact h.listed, by rw [hc, hs, ha]; exact h.kept,
    by rw [hs, ha, hn]; exact h.numbered, by rw [hu, ha]; exact h.unsignalled,
    by rw [hcalls, ha]; exact h.calls⟩

lemma Registered.subscribe (h : s.Registered) (hx : x ∈ s.alive) :
    (s.subscribe x).Registered := by
  rw [CaptionBridge.subscribe]
  split
  · exact h
  · rename_i hnew
    simp only [Bool.or_eq_true, decide_eq_true_eq, not_or] at hnew
    refine ⟨?_, fun y hy => ?_, fun y hy hal => ?_, fun y hy => ?_, h.unsignalled, h.calls⟩
    · exact List.nodup_cons.mpr ⟨fun hc => hnew.2 (h.listed x hc).1, h.nodup⟩
    · rcases List.mem_cons.mp hy with rfl | hy
      · exact ⟨List.mem_cons_self, hx⟩
      · exact ⟨List.mem_cons_of_mem _ (h.listed y hy).1, (h.listed y hy).2⟩
    · rcases List.mem_cons.mp hy with rfl | hy
      · exact List.mem_cons_self
      · exact List.mem_cons_of_mem _ (h.kept y hy hal)
    · rcases hy with hy | hy
      · rcases List.mem_cons.mp hy with rfl | hy
        · exact h.numbered y (Or.inr hx)
        · exact h.numbered y (Or.inl hy)
      · exact h.numbered y (Or.inr hy)

lemma Registered.with_calls (h : s.Registered) {calls : List (ℕ × Bool)}
    (hcalls : ∀ x b, (x, b) ∈ calls → x ∈ s.alive) : { s with calls := calls }.Registered :=
  ⟨h.nodup, h.listed, h.kept, h.numbered, h.unsignalled, hcalls⟩

lemma Registered.advance (h : s.Registered) {found : Option ℕ} (ht : s.advance found = some t) :
    t.Registered := by
  rw [CaptionBridge.advance.eq_def] at ht
  split at ht
  · exact absurd ht (by simp)
  · obtain rfl := Option.some.inj ht
    exact h.congr rfl rfl rfl rfl rfl rfl
  · obtain rfl := Option.some.inj ht
    exact h.congr rfl rfl rfl rfl rfl rfl
  · obtain rfl := Option.some.inj ht
    exact h.congr rfl rfl rfl rfl rfl rfl
  · obtain rfl := Option.some.inj ht
    split
    · rename_i hx
      exact (h.subscribe hx).congr rfl rfl rfl rfl rfl rfl
    · exact h.congr rfl rfl rfl rfl rfl rfl
  · split at ht
    · obtain ⟨hx, ht⟩ := Option.ite_none_right_eq_some.mp ht
      obtain rfl := Option.some.inj ht
      exact (h.subscribe hx).congr rfl rfl rfl rfl rfl rfl
    · obtain rfl := Option.some.inj ht
      exact h.congr rfl rfl rfl rfl rfl rfl
  · obtain ⟨-, ht⟩ := Option.ite_none_right_eq_some.mp ht
    obtain rfl := Option.some.inj ht
    exact h.congr rfl rfl rfl rfl rfl rfl
  · obtain rfl := Option.some.inj ht
    exact h.congr rfl rfl rfl rfl rfl rfl
  · obtain rfl := Option.some.inj ht
    exact h.congr rfl rfl rfl rfl rfl rfl
  · obtain ⟨-, ht⟩ := Option.ite_none_right_eq_some.mp ht
    obtain rfl := Option.some.inj ht
    refine ⟨h.nodup.filter _, fun y hy => ?_, fun y hy => absurd hy (by simp), fun y hy => ?_,
      h.unsignalled, h.calls⟩
    · rw [List.mem_filter, decide_eq_true_eq] at hy
      exact absurd (h.listed y hy.1).1 hy.2
    · exact h.numbered y (Or.inr (hy.resolve_left (by simp)))

/-- **One step, of whichever thread, keeps the callbacks in order.** -/
lemma Registered.step (h : s.Registered) {x : BridgeStep} (ht : s.step x = some t) :
    t.Registered := by
  rw [CaptionBridge.step.eq_def] at ht
  cases x with
  | start output automatic =>
      obtain ⟨-, ht⟩ := Option.ite_none_right_eq_some.mp ht
      obtain rfl := Option.some.inj ht
      exact h.congr rfl rfl rfl rfl rfl rfl
  | stop =>
      obtain ⟨-, ht⟩ := Option.ite_none_right_eq_some.mp ht
      obtain rfl := Option.some.inj ht
      exact h.congr rfl rfl rfl rfl rfl rfl
  | advance found => exact h.advance ht
  | release output =>
      obtain ⟨-, ht⟩ := Option.ite_none_right_eq_some.mp ht
      obtain rfl := Option.some.inj ht
      exact h.congr rfl rfl rfl rfl rfl rfl
  | create =>
      obtain rfl := Option.some.inj ht
      have hfresh : s.next ∉ s.subs := fun hs => absurd (h.numbered _ (Or.inl hs)) (lt_irrefl _)
      refine ⟨h.nodup, fun y hy => ?_, fun y hy hal => ?_, fun y hy => ?_, fun y hy => ?_,
        fun y b hy => List.mem_cons_of_mem _ (h.calls y b hy)⟩
      · exact ⟨(h.listed y hy).1, List.mem_cons_of_mem _ (h.listed y hy).2⟩
      · rcases List.mem_cons.mp hal with rfl | hal
        · exact absurd hy hfresh
        · exact h.kept y hy hal
      · rcases hy with hy | hy
        · exact Nat.lt_succ_of_lt (h.numbered y (Or.inl hy))
        · rcases List.mem_cons.mp hy with rfl | hy
          · exact Nat.lt_succ_self _
          · exact Nat.lt_succ_of_lt (h.numbered y (Or.inr hy))
      · rcases List.mem_cons.mp hy with rfl | hy
        · exact List.mem_cons_self
        · exact List.mem_cons_of_mem _ (h.unsignalled y hy)
  | signal x =>
      obtain ⟨hx, ht⟩ := Option.ite_none_right_eq_some.mp ht
      obtain rfl := Option.some.inj ht
      refine ⟨h.nodup, h.listed, h.kept, h.numbered,
        fun y hy => h.unsignalled y (List.mem_of_mem_erase hy), fun y b hy => ?_⟩
      dsimp only at hy
      split at hy
      · rcases List.mem_cons.mp hy with heq | hy
        · rw [(Prod.mk.inj heq).1]
          exact h.unsignalled x hx
        · exact h.calls y b hy
      · exact h.calls y b hy
  | check x =>
      obtain ⟨hx, ht⟩ := Option.ite_none_right_eq_some.mp ht
      obtain rfl := Option.some.inj ht
      refine h.with_calls fun y b hy => ?_
      split at hy
      · rcases List.mem_cons.mp hy with heq | hy
        · rw [(Prod.mk.inj heq).1]
          exact h.calls x false hx
        · exact h.calls y b (List.mem_of_mem_erase hy)
      · exact h.calls y b (List.mem_of_mem_erase hy)
  | subscribe x =>
      obtain ⟨hx, ht⟩ := Option.ite_none_right_eq_some.mp ht
      obtain rfl := Option.some.inj ht
      have hsub := h.subscribe (h.calls x true hx)
      refine hsub.with_calls fun y b hy => ?_
      rw [subscribe_eq]
      exact h.calls y b (List.mem_of_mem_erase hy)
  | destroy x =>
      obtain ⟨hx, ht⟩ := Option.ite_none_right_eq_some.mp ht
      obtain rfl := Option.some.inj ht
      simp only [Bool.and_eq_true, decide_eq_true_eq] at hx
      obtain ⟨⟨⟨⟨-, hun⟩, hfalse⟩, htrue⟩, -⟩ := hx
      have hstays (y : ℕ) (hy : y ∈ s.alive) (hne : y ≠ x) : y ∈ s.alive.filter (· ≠ x) :=
        List.mem_filter.mpr ⟨hy, by simpa using hne⟩
      refine ⟨h.nodup.filter _, fun y hy => ?_, fun y hy hal => ?_, fun y hy => ?_, fun y hy => ?_,
        fun y b hy => ?_⟩
      · rw [List.mem_filter, decide_eq_true_eq] at hy
        exact ⟨(h.listed y hy.1).1, hstays y (h.listed y hy.1).2 hy.2⟩
      · rw [List.mem_filter] at hal ⊢
        exact ⟨h.kept y hy hal.1, hal.2⟩
      · exact h.numbered y (hy.imp_right fun hal => (List.mem_filter.mp hal).1)
      · exact hstays y (h.unsignalled y hy) fun he => hun (he ▸ hy)
      · refine hstays y (h.calls y b hy) fun he => ?_
        cases b with
        | false => exact hfalse (he ▸ hy)
        | true => exact htrue (he ▸ hy)
  | load who =>
      dsimp only at ht
      split at ht
      · obtain ⟨-, ht⟩ := Option.ite_none_right_eq_some.mp ht
        obtain rfl := Option.some.inj ht
        exact h.congr rfl rfl rfl rfl rfl rfl
      · exact absurd ht (by simp)
  | send who output =>
      obtain ⟨-, ht⟩ := Option.ite_none_right_eq_some.mp ht
      obtain rfl := Option.some.inj ht
      exact h.congr rfl rfl rfl rfl rfl rfl

/-! ### The output -/

end CaptionBridge

/-- In the middle of `start`. -/
def BridgeStage.starts : BridgeStage → Bool
  | .connect | .enumerate | .subscribing _ | .named => true
  | _ => false

/-- In the middle of `stop`. -/
def BridgeStage.stops : BridgeStage → Bool
  | .join | .clear | .disconnect | .unsubscribe => true
  | _ => false

namespace CaptionBridge

variable {s t : CaptionBridge} {x : ℕ}

/-- What is so at each stage; the output is cleared while captions may still be under way, and is
let go of after them. -/
structure Phased (s : CaptionBridge) : Prop where
  starts : s.stage.starts = true → s.running = true
  stops : s.stage.stops = true → s.running = false
  thread : s.thread = true → s.stage = .rest ∧ s.running = true ∨ s.stage = .join
  output : ∀ o, s.output = some o →
    o ∉ s.released ∧ (s.running = true ∨ s.stage = .join ∨ s.stage = .clear)
  sending : ∀ w o, (w, o) ∈ s.sending → o ∉ s.released
  quiet : s.stage = .rest → s.running = false → s.subs = [] ∧ s.sending = []

/-- It does not depend on the sources, while the references that are kept of them are only kept by
a bridge that runs. -/
lemma Phased.congr (h : s.Phased) (hst : t.stage = s.stage) (hr : t.running = s.running)
    (hth : t.thread = s.thread) (ho : t.output = s.output) (hrel : t.released = s.released)
    (hse : t.sending = s.sending) (hsubs : s.running = false → t.subs = s.subs) : t.Phased := by
  refine ⟨by rw [hst, hr]; exact h.starts, by rw [hst, hr]; exact h.stops,
    by rw [hth, hst, hr]; exact h.thread, by rw [ho, hrel, hr, hst]; exact h.output,
    by rw [hse, hrel]; exact h.sending, fun hrest hstop => ?_⟩
  rw [hr] at hstop
  rw [hsubs hstop, hse]
  exact h.quiet (hst ▸ hrest) hstop

lemma Phased.subscribe (h : s.Phased) (x : ℕ) : (s.subscribe x).Phased := by
  refine h.congr (t := s.subscribe x) ?_ ?_ ?_ ?_ ?_ ?_ fun hstop => ?_
  all_goals rw [subscribe_eq]
  simp [hstop]

/-- From one stage of `start` to the next. -/
lemma Phased.to_start (h : s.Phased) (hst : s.stage.starts = true) {stage : BridgeStage}
    (hstage : stage.starts = true) : { s with stage := stage }.Phased := by
  have hrun := h.starts hst
  refine ⟨fun _ => hrun, fun hs => ?_, fun hth => ?_, fun o ho => ?_, h.sending, fun _ hstop => ?_⟩
  · cases stage <;> simp [BridgeStage.starts, BridgeStage.stops] at hstage hs
  · rcases h.thread hth with ⟨hrest, -⟩ | hjoin
    · rw [hrest] at hst
      exact absurd hst (by decide)
    · rw [hjoin] at hst
      exact absurd hst (by decide)
  · exact ⟨(h.output o ho).1, Or.inl hrun⟩
  · exact absurd (hrun.symm.trans hstop) (by simp)

/-- `start` is over. -/
lemma Phased.started (h : s.Phased) (hrun : s.running = true) (thread : Bool) :
    { s with thread := thread, stage := .rest }.Phased :=
  ⟨fun hs => absurd hs Bool.false_ne_true, fun hs => absurd hs Bool.false_ne_true,
    fun _ => Or.inl ⟨rfl, hrun⟩,
    fun o ho => ⟨(h.output o ho).1, Or.inl hrun⟩, h.sending,
    fun _ hstop => absurd (hrun.symm.trans hstop) (by simp)⟩

lemma Phased.advance (h : s.Phased) {found : Option ℕ} (ht : s.advance found = some t) :
    t.Phased := by
  rw [CaptionBridge.advance.eq_def] at ht
  split at ht
  · exact absurd ht (by simp)
  · rename_i hst
    obtain rfl := Option.some.inj ht
    have hstage : BridgeStage.enumerate.starts = true := rfl
    have := h.to_start (by rw [hst]; rfl) hstage
    exact this.congr rfl rfl rfl rfl rfl rfl fun _ => rfl
  · rename_i hst
    obtain rfl := Option.some.inj ht
    exact h.to_start (by rw [hst]; rfl) rfl
  · rename_i hst
    obtain rfl := Option.some.inj ht
    exact (h.started (h.starts (by rw [hst]; rfl)) s.thread).congr rfl rfl rfl rfl rfl rfl
      fun _ => rfl
  · rename_i y todo hst
    obtain rfl := Option.some.inj ht
    split
    · refine (h.subscribe y).to_start ?_ rfl
      rw [subscribe_eq]
      dsimp only
      rw [hst]
      rfl
    · exact h.to_start (by rw [hst]; rfl) rfl
  · rename_i hst
    have hrun := h.starts (by rw [hst]; rfl)
    split at ht
    · rename_i y
      obtain ⟨-, ht⟩ := Option.ite_none_right_eq_some.mp ht
      obtain rfl := Option.some.inj ht
      refine (h.subscribe y).started ?_ true
      rw [subscribe_eq]
      exact hrun
    · obtain rfl := Option.some.inj ht
      exact h.started hrun true
  · rename_i hst
    obtain ⟨-, ht⟩ := Option.ite_none_right_eq_some.mp ht
    obtain rfl := Option.some.inj ht
    have hstop := h.stops (by rw [hst]; rfl)
    exact ⟨fun hs => absurd hs Bool.false_ne_true, fun _ => hstop, fun hth => absurd hth (by simp),
      fun o ho => ⟨(h.output o ho).1, Or.inr (Or.inr rfl)⟩, h.sending,
      fun hrest => absurd hrest (by simp)⟩
  · rename_i hst
    obtain rfl := Option.some.inj ht
    have hstop := h.stops (by rw [hst]; rfl)
    refine ⟨fun hs => absurd hs Bool.false_ne_true, fun _ => hstop, fun hth => ?_,
      fun o ho => absurd ho (by simp), h.sending, fun hrest => absurd hrest (by simp)⟩
    rcases h.thread hth with ⟨hrest, -⟩ | hjoin
    · exact absurd (hst.symm.trans hrest) (by simp)
    · exact absurd (hst.symm.trans hjoin) (by simp)
  · rename_i hst
    obtain rfl := Option.some.inj ht
    have hstop := h.stops (by rw [hst]; rfl)
    refine ⟨fun hs => absurd hs Bool.false_ne_true, fun _ => hstop, fun hth => ?_, fun o ho => ?_,
      h.sending, fun hrest => absurd hrest (by simp)⟩
    · rcases h.thread hth with ⟨hrest, -⟩ | hjoin
      · exact absurd (hst.symm.trans hrest) (by simp)
      · exact absurd (hst.symm.trans hjoin) (by simp)
    · rcases (h.output o ho).2 with hrun | hjoin | hclear
      · exact absurd (hstop.symm.trans hrun) (by simp)
      · exact absurd (hst.symm.trans hjoin) (by simp)
      · exact absurd (hst.symm.trans hclear) (by simp)
  · rename_i hst
    obtain ⟨hnone, ht⟩ := Option.ite_none_right_eq_some.mp ht
    obtain rfl := Option.some.inj ht
    have hstop := h.stops (by rw [hst]; rfl)
    refine ⟨fun hs => absurd hs Bool.false_ne_true, fun hs => absurd hs Bool.false_ne_true,
      fun hth => ?_,
      fun o ho => ?_, h.sending, fun _ _ => ⟨rfl, hnone⟩⟩
    · rcases h.thread hth with ⟨hrest, -⟩ | hjoin
      · exact absurd (hst.symm.trans hrest) (by simp)
      · exact absurd (hst.symm.trans hjoin) (by simp)
    · rcases (h.output o ho).2 with hrun | hjoin | hclear
      · exact absurd (hstop.symm.trans hrun) (by simp)
      · exact absurd (hst.symm.trans hjoin) (by simp)
      · exact absurd (hst.symm.trans hclear) (by simp)

/-- **One step, of whichever thread, keeps the stages apart.** -/
lemma Phased.step (h : s.Phased) {x : BridgeStep} (ht : s.step x = some t) : t.Phased := by
  rw [CaptionBridge.step.eq_def] at ht
  cases x with
  | start output automatic =>
      obtain ⟨hc, ht⟩ := Option.ite_none_right_eq_some.mp ht
      obtain rfl := Option.some.inj ht
      simp only [Bool.and_eq_true, Bool.not_eq_true', decide_eq_true_eq] at hc
      obtain ⟨⟨hrest, hstop⟩, hrel⟩ := hc
      refine ⟨fun _ => rfl, fun hs => ?_, fun hth => ?_, fun o ho => ?_, h.sending,
        fun _ hs => absurd hs (by simp)⟩
      · cases automatic <;> exact absurd hs Bool.false_ne_true
      · rcases h.thread hth with ⟨-, hrun⟩ | hjoin
        · exact absurd (hstop.symm.trans hrun) (by simp)
        · exact absurd (hrest.symm.trans hjoin) (by simp)
      · obtain rfl := Option.some.inj ho
        exact ⟨hrel, Or.inl rfl⟩
  | stop =>
      obtain ⟨hc, ht⟩ := Option.ite_none_right_eq_some.mp ht
      obtain rfl := Option.some.inj ht
      exact ⟨fun hs => absurd hs Bool.false_ne_true, fun _ => rfl, fun _ => Or.inr rfl,
        fun o ho => ⟨(h.output o ho).1, Or.inr (Or.inl rfl)⟩, h.sending,
        fun hrest => absurd hrest (by simp)⟩
  | advance found => exact h.advance ht
  | release output =>
      obtain ⟨hc, ht⟩ := Option.ite_none_right_eq_some.mp ht
      obtain rfl := Option.some.inj ht
      simp only [Bool.and_eq_true, Bool.not_eq_true', decide_eq_true_eq] at hc
      have hquiet := h.quiet hc.1 hc.2
      refine ⟨h.starts, h.stops, h.thread, fun o ho => ?_, fun w o ho => ?_, fun _ _ => hquiet⟩
      · rcases (h.output o ho).2 with hrun | hjoin | hclear
        · exact absurd (hc.2.symm.trans hrun) (by simp)
        · exact absurd (hc.1.symm.trans hjoin) (by simp)
        · exact absurd (hc.1.symm.trans hclear) (by simp)
      · rw [hquiet.2] at ho
        exact absurd ho (by simp)
  | create =>
      obtain rfl := Option.some.inj ht
      exact h.congr rfl rfl rfl rfl rfl rfl fun _ => rfl
  | signal x =>
      obtain ⟨-, ht⟩ := Option.ite_none_right_eq_some.mp ht
      obtain rfl := Option.some.inj ht
      exact h.congr rfl rfl rfl rfl rfl rfl fun _ => rfl
  | check x =>
      obtain ⟨-, ht⟩ := Option.ite_none_right_eq_some.mp ht
      obtain rfl := Option.some.inj ht
      exact h.congr rfl rfl rfl rfl rfl rfl fun _ => rfl
  | subscribe x =>
      obtain ⟨-, ht⟩ := Option.ite_none_right_eq_some.mp ht
      obtain rfl := Option.some.inj ht
      exact (h.subscribe x).congr rfl rfl rfl rfl rfl rfl fun _ => rfl
  | destroy x =>
      obtain ⟨-, ht⟩ := Option.ite_none_right_eq_some.mp ht
      obtain rfl := Option.some.inj ht
      exact h.congr rfl rfl rfl rfl rfl rfl fun _ => rfl
  | load who =>
      dsimp only at ht
      split at ht
      · rename_i output hout
        obtain ⟨-, ht⟩ := Option.ite_none_right_eq_some.mp ht
        obtain rfl := Option.some.inj ht
        refine ⟨h.starts, h.stops, h.thread, h.output, fun w o ho => ?_, fun hrest hstop => ?_⟩
        · rcases List.mem_cons.mp ho with heq | ho
          · rw [(Prod.mk.inj heq).2]
            exact (h.output output hout).1
          · exact h.sending w o ho
        · rcases (h.output output hout).2 with hrun | hjoin | hclear
          · exact absurd (hstop.symm.trans hrun) (by simp)
          · exact absurd (hrest.symm.trans hjoin) (by simp)
          · exact absurd (hrest.symm.trans hclear) (by simp)
      · exact absurd ht (by simp)
  | send who output =>
      obtain ⟨-, ht⟩ := Option.ite_none_right_eq_some.mp ht
      obtain rfl := Option.some.inj ht
      refine ⟨h.starts, h.stops, h.thread, h.output,
        fun w o ho => h.sending w o (List.mem_of_mem_erase ho), fun hrest hstop => ?_⟩
      have hquiet := h.quiet hrest hstop
      rw [hquiet.2]
      exact ⟨hquiet.1, rfl⟩

/-! ### Every source -/

/-- The sources that are still to be enumerated. -/
def todo (s : CaptionBridge) : List ℕ :=
  match s.stage with
  | .subscribing todo => todo
  | _ => []

/-- The source has the callback, or its `source_create` is on the way. -/
def Offered (s : CaptionBridge) (x : ℕ) : Prop :=
  x ∈ s.callbacks ∨ x ∈ s.unsignalled ∨ ∃ b, (x, b) ∈ s.calls

/-- In automatic mode no source is missed: the handler is connected before the sources are
enumerated. -/
structure Covered (s : CaptionBridge) : Prop where
  named : s.stage = .named → s.automatic = false
  handler : s.running = true → s.automatic = true → s.stage ≠ .connect → s.handler = true
  offered : s.running = true → s.automatic = true → s.stage ≠ .connect → s.stage ≠ .enumerate →
    ∀ x ∈ s.alive, s.Offered x ∨ x ∈ s.todo

lemma mem_subscribe (h : s.Registered) (hx : x ∈ s.alive) (hrun : s.running = true) :
    x ∈ (s.subscribe x).callbacks := by
  rw [CaptionBridge.subscribe]
  split
  · rename_i hold
    simp only [hrun, Bool.not_true, Bool.false_or, decide_eq_true_eq] at hold
    exact h.kept x hold hx
  · exact List.mem_cons_self

lemma Offered.subscribe {y : ℕ} (h : s.Offered y) (x : ℕ) : (s.subscribe x).Offered y := by
  rw [CaptionBridge.subscribe]
  split
  · exact h
  · exact h.imp_left (List.mem_cons_of_mem _)

/-- What does not touch the stage, and takes no source that stays from what it is offered by. -/
lemma Covered.congr (h : s.Covered) (hst : t.stage = s.stage) (hr : t.running = s.running)
    (hau : t.automatic = s.automatic) (hha : t.handler = s.handler)
    (hof : s.running = true → s.automatic = true → (s.stage ≠ .connect → s.handler = true) →
      ∀ x ∈ t.alive, t.Offered x ∨ x ∈ s.alive ∧ (s.stage ≠ .connect → s.Offered x → t.Offered x)) :
    t.Covered := by
  refine ⟨by rw [hst, hau]; exact h.named, by rw [hst, hr, hau, hha]; exact h.handler, ?_⟩
  rw [hst, hr, hau]
  intro hrun hauto hconnect henum x hx
  have htodo : t.todo = s.todo := by rw [todo, hst, todo]
  rw [htodo]
  rcases hof hrun hauto (h.handler hrun hauto) x hx with hnew | ⟨hal, hkeep⟩
  · exact Or.inl hnew
  · exact (h.offered hrun hauto hconnect henum x hal).imp_left (hkeep hconnect)

/-- While nothing changes but what the bridge does not look at. -/
lemma Covered.same (h : s.Covered) (hst : t.stage = s.stage) (hr : t.running = s.running)
    (hau : t.automatic = s.automatic) (hha : t.handler = s.handler) (ha : t.alive = s.alive)
    (hc : t.callbacks = s.callbacks) (hu : t.unsignalled = s.unsignalled)
    (hcalls : t.calls = s.calls) : t.Covered := by
  refine h.congr hst hr hau hha fun _ _ _ x hx => Or.inr ⟨ha ▸ hx, fun _ ho => ?_⟩
  rw [Offered, hc, hu, hcalls]
  exact ho

/-- A bridge that is stopped, or goes by one source, misses none. -/
lemma covered_of_idle (hnamed : s.stage = .named → s.automatic = false)
    (h : s.running = true → s.automatic = false) : s.Covered :=
  ⟨hnamed, fun hr hau => absurd (hau.symm.trans (h hr)) (by simp),
    fun hr hau => absurd (hau.symm.trans (h hr)) (by simp)⟩

lemma Covered.advance (h : s.Covered) (hreg : s.Registered) (hph : s.Phased) {found : Option ℕ}
    (ht : s.advance found = some t) : t.Covered := by
  rw [CaptionBridge.advance.eq_def] at ht
  split at ht
  · exact absurd ht (by simp)
  · obtain rfl := Option.some.inj ht
    exact ⟨fun hn => absurd hn (by simp), fun _ _ _ => rfl, fun _ _ _ he => absurd rfl he⟩
  · rename_i hst
    obtain rfl := Option.some.inj ht
    exact ⟨fun hn => absurd hn (by simp),
      fun hr hau _ => h.handler hr hau (by simp [hst]), fun _ _ _ _ x hx => Or.inr hx⟩
  · rename_i hst
    obtain rfl := Option.some.inj ht
    refine ⟨fun hn => absurd hn (by simp), fun hr hau _ => h.handler hr hau (by simp [hst]),
      fun hr hau _ _ x hx => ?_⟩
    have := h.offered hr hau (by simp [hst]) (by simp [hst]) x hx
    rw [todo, hst] at this
    exact this.imp_right fun hno => absurd hno (by simp)
  · rename_i y rest hst
    have hrun := hph.starts (by rw [hst]; rfl)
    obtain rfl := Option.some.inj ht
    refine ⟨fun hn => absurd hn (by simp), fun hr hau _ => ?_, fun hr hau _ _ x hx => ?_⟩
    · have hau' : s.automatic = true := by
        split at hau
        · rw [subscribe_eq] at hau
          exact hau
        · exact hau
      have := h.handler hrun hau' (by simp [hst])
      split
      · rw [subscribe_eq]
        exact this
      · exact this
    · split at hau
      · rename_i hy
        rw [if_pos hy] at hx ⊢
        rw [subscribe_eq] at hau hx
        have := h.offered hrun hau (by simp [hst]) (by simp [hst]) x hx
        rw [todo, hst] at this
        rcases this with ho | hin
        · exact Or.inl (ho.subscribe y)
        · rcases List.mem_cons.mp hin with rfl | hin
          · exact Or.inl (Or.inl (mem_subscribe hreg hy hrun))
          · exact Or.inr hin
      · rename_i hy
        rw [if_neg hy] at hx ⊢
        have := h.offered hrun hau (by simp [hst]) (by simp [hst]) x hx
        rw [todo, hst] at this
        rcases this with ho | hin
        · exact Or.inl ho
        · rcases List.mem_cons.mp hin with rfl | hin
          · exact absurd hx hy
          · exact Or.inr hin
  · rename_i hst
    have hauto := h.named hst
    split at ht
    · obtain ⟨-, ht⟩ := Option.ite_none_right_eq_some.mp ht
      obtain rfl := Option.some.inj ht
      refine covered_of_idle (fun hn => absurd hn (by simp)) fun _ => ?_
      rw [subscribe_eq]
      exact hauto
    · obtain rfl := Option.some.inj ht
      exact covered_of_idle (fun hn => absurd hn (by simp)) fun _ => hauto
  · rename_i hst
    obtain ⟨-, ht⟩ := Option.ite_none_right_eq_some.mp ht
    obtain rfl := Option.some.inj ht
    have hstop := hph.stops (by rw [hst]; rfl)
    exact covered_of_idle (fun hn => absurd hn (by simp))
      fun hr => absurd (hstop.symm.trans hr) (by simp)
  · rename_i hst
    obtain rfl := Option.some.inj ht
    have hstop := hph.stops (by rw [hst]; rfl)
    exact covered_of_idle (fun hn => absurd hn (by simp))
      fun hr => absurd (hstop.symm.trans hr) (by simp)
  · rename_i hst
    obtain rfl := Option.some.inj ht
    have hstop := hph.stops (by rw [hst]; rfl)
    exact covered_of_idle (fun hn => absurd hn (by simp))
      fun hr => absurd (hstop.symm.trans hr) (by simp)
  · obtain ⟨-, ht⟩ := Option.ite_none_right_eq_some.mp ht
    obtain rfl := Option.some.inj ht
    exact covered_of_idle (fun hn => absurd hn (by simp)) fun _ => rfl

/-- **One step, of whichever thread, lets no source be missed.** -/
lemma Covered.step (h : s.Covered) (hreg : s.Registered) (hph : s.Phased) {x : BridgeStep}
    (ht : s.step x = some t) : t.Covered := by
  rw [CaptionBridge.step.eq_def] at ht
  cases x with
  | start output automatic =>
      obtain ⟨-, ht⟩ := Option.ite_none_right_eq_some.mp ht
      obtain rfl := Option.some.inj ht
      cases automatic with
      | true =>
          exact ⟨fun hn => absurd hn (by simp), fun _ _ hc => absurd rfl hc,
            fun _ _ hc => absurd rfl hc⟩
      | false => exact covered_of_idle (fun _ => rfl) fun _ => rfl
  | stop =>
      obtain ⟨-, ht⟩ := Option.ite_none_right_eq_some.mp ht
      obtain rfl := Option.some.inj ht
      exact covered_of_idle (fun hn => absurd hn (by simp)) fun hr => absurd hr (by simp)
  | advance found => exact h.advance hreg hph ht
  | release output =>
      obtain ⟨-, ht⟩ := Option.ite_none_right_eq_some.mp ht
      obtain rfl := Option.some.inj ht
      exact h.same rfl rfl rfl rfl rfl rfl rfl rfl
  | create =>
      obtain rfl := Option.some.inj ht
      refine h.congr rfl rfl rfl rfl fun _ _ _ y hy => ?_
      rcases List.mem_cons.mp hy with rfl | hy
      · exact Or.inl (Or.inr (Or.inl List.mem_cons_self))
      · exact Or.inr ⟨hy, fun _ ho =>
          ho.imp_right (Or.imp_left (List.mem_cons_of_mem _))⟩
  | signal x =>
      obtain ⟨-, ht⟩ := Option.ite_none_right_eq_some.mp ht
      obtain rfl := Option.some.inj ht
      refine h.congr rfl rfl rfl rfl fun _ _ hha y hy => Or.inr ⟨hy, fun hc ho => ?_⟩
      rw [Offered]
      dsimp only
      rw [if_pos (hha hc)]
      rcases ho with ho | ho | ⟨b, ho⟩
      · exact Or.inl ho
      · by_cases hyx : y = x
        · exact Or.inr (Or.inr ⟨false, hyx ▸ List.mem_cons_self⟩)
        · exact Or.inr (Or.inl ((List.mem_erase_of_ne hyx).mpr ho))
      · exact Or.inr (Or.inr ⟨b, List.mem_cons_of_mem _ ho⟩)
  | check x =>
      obtain ⟨-, ht⟩ := Option.ite_none_right_eq_some.mp ht
      obtain rfl := Option.some.inj ht
      refine h.congr rfl rfl rfl rfl fun hrun hauto _ y hy => Or.inr ⟨hy, fun _ ho => ?_⟩
      rw [Offered]
      dsimp only
      rw [hrun, hauto, Bool.and_self, if_pos rfl]
      refine ho.imp_right (Or.imp_right ?_)
      rintro ⟨b, hb⟩
      by_cases hcall : (y, b) = (x, false)
      · rw [(Prod.mk.inj hcall).1]
        exact ⟨true, List.mem_cons_self⟩
      · exact ⟨b, List.mem_cons_of_mem _ ((List.mem_erase_of_ne hcall).mpr hb)⟩
  | subscribe x =>
      obtain ⟨hx, ht⟩ := Option.ite_none_right_eq_some.mp ht
      obtain rfl := Option.some.inj ht
      have hal := hreg.calls x true hx
      refine h.congr (by rw [subscribe_eq]) (by rw [subscribe_eq]) (by rw [subscribe_eq])
        (by rw [subscribe_eq]) fun hrun _ _ y hy => ?_
      rw [subscribe_eq] at hy
      refine Or.inr ⟨hy, fun _ ho => ?_⟩
      rcases ho.subscribe x with ho | ho | ⟨b, hb⟩
      · exact Or.inl ho
      · exact Or.inr (Or.inl ho)
      · by_cases hcall : (y, b) = (x, true)
        · rw [(Prod.mk.inj hcall).1]
          exact Or.inl (mem_subscribe hreg hal hrun)
        · rw [subscribe_eq] at hb
          exact Or.inr (Or.inr ⟨b, (List.mem_erase_of_ne hcall).mpr hb⟩)
  | destroy x =>
      obtain ⟨-, ht⟩ := Option.ite_none_right_eq_some.mp ht
      obtain rfl := Option.some.inj ht
      refine h.congr rfl rfl rfl rfl fun _ _ _ y hy => ?_
      rw [List.mem_filter] at hy
      exact Or.inr ⟨hy.1, fun _ ho => ho.imp_left fun hc => List.mem_filter.mpr ⟨hc, hy.2⟩⟩
  | load who =>
      dsimp only at ht
      split at ht
      · obtain ⟨-, ht⟩ := Option.ite_none_right_eq_some.mp ht
        obtain rfl := Option.some.inj ht
        exact h.same rfl rfl rfl rfl rfl rfl rfl rfl
      · exact absurd ht (by simp)
  | send who output =>
      obtain ⟨-, ht⟩ := Option.ite_none_right_eq_some.mp ht
      obtain rfl := Option.some.inj ht
      exact h.same rfl rfl rfl rfl rfl rfl rfl rfl

/-! ### Every run -/

/-- All three. -/
structure Sound (s : CaptionBridge) : Prop where
  registered : s.Registered
  phased : s.Phased
  covered : s.Covered

lemma Sound.step (h : s.Sound) {x : BridgeStep} (ht : s.step x = some t) : t.Sound :=
  ⟨h.registered.step ht, h.phased.step ht, h.covered.step h.registered h.phased ht⟩

/-- A bridge that was never started, among any sources. -/
def Unstarted (s : CaptionBridge) : Prop :=
  ∃ next alive, (∀ x ∈ alive, x < next) ∧ s = { next := next, alive := alive }

lemma sound_of_unstarted (h : s.Unstarted) : s.Sound := by
  obtain ⟨next, alive, hlt, rfl⟩ := h
  refine ⟨⟨List.nodup_nil, fun x hx => absurd hx (by simp), fun x hx => absurd hx (by simp),
    fun x hx => hlt x (hx.resolve_left (by simp)), fun x hx => absurd hx (by simp),
    fun x b hx => absurd hx (by simp)⟩, ⟨fun hs => absurd hs Bool.false_ne_true,
    fun hs => absurd hs Bool.false_ne_true, fun hs => absurd hs (by simp),
    fun o ho => absurd ho (by simp), fun w o ho => absurd ho (by simp), fun _ _ => ⟨rfl, rfl⟩⟩,
    covered_of_idle (fun hs => absurd hs (by simp)) fun hs => absurd hs (by simp)⟩

lemma sound_of_reach (h : Reach CaptionBridge.step anyStep Unstarted s) : s.Sound :=
  Reach.invariant (fun _ => sound_of_unstarted) (fun _ _ _ hs _ ht => hs.step ht) h

/-- **Every source once, and none for longer**: in every interleaving of starts and stops with
sources that come and go, no source has the callback twice; none has it once the bridge is
stopped; and once a start in automatic mode is over, every source that is there has it or is about
to be given it by a `source_create` that is on its way. -/
theorem sources_subscribed (h : Reach CaptionBridge.step anyStep Unstarted s) :
    s.callbacks.Nodup ∧
      (s.stage = .rest → s.running = false → s.callbacks = []) ∧
      (s.stage = .rest → s.running = true → s.automatic = true →
        s.handler = true ∧ ∀ x ∈ s.alive, s.Offered x) := by
  obtain ⟨hreg, hph, hcov⟩ := sound_of_reach h
  refine ⟨hreg.nodup, fun hrest hstop => ?_, fun hrest hrun hauto => ⟨?_, fun x hx => ?_⟩⟩
  · refine List.eq_nil_iff_forall_not_mem.mpr fun x hx => ?_
    have := (hreg.listed x hx).1
    rw [(hph.quiet hrest hstop).1] at this
    exact absurd this (by simp)
  · exact hcov.handler hrun hauto (by simp [hrest])
  · have := hcov.offered hrun hauto (by simp [hrest]) (by simp [hrest]) x hx
    rw [todo, hrest] at this
    exact this.resolve_right (by simp)

/-- A source among which the bridge is started. -/
def sampleBridge : CaptionBridge := { next := 1, alive := [0] }

/-- A start in automatic mode, and a source that comes before the sources are enumerated. -/
def sampleBridgeStart : List BridgeStep :=
  [.start 7 true, .advance none, .create, .signal 1, .advance none, .advance none, .check 1,
    .subscribe 1, .advance none, .advance none]

theorem sources_subscribed_twice :
    ∃ s, run CaptionBridge.step sampleBridge sampleBridgeStart = some s ∧ s.alive = [1, 0] ∧
      s.callbacks.Nodup ∧ ∀ x ∈ s.alive, s.Offered x := by
  have hinit : Unstarted sampleBridge := ⟨1, [0], by decide, rfl⟩
  refine ⟨_, rfl, rfl, ?_⟩
  have h := sources_subscribed (reach_of_run hinit
    (show run CaptionBridge.step sampleBridge sampleBridgeStart = some _ from rfl))
  exact ⟨h.1, (h.2.2 rfl rfl rfl).2⟩

/-- **No caption to an output that is gone**: in every interleaving the output that a caption is
about to be sent to was not let go of; once the bridge is stopped nothing is on its way, and no
output is kept. -/
theorem captions_to_live_output (h : Reach CaptionBridge.step anyStep Unstarted s) :
    (∀ who output, (who, output) ∈ s.sending → output ∉ s.released) ∧
      (s.stage = .rest → s.running = false → s.sending = [] ∧ s.output = none) := by
  obtain ⟨-, hph, -⟩ := sound_of_reach h
  refine ⟨hph.sending, fun hrest hstop => ⟨(hph.quiet hrest hstop).2, ?_⟩⟩
  cases ho : s.output with
  | none => rfl
  | some o =>
      rcases (hph.output o ho).2 with hrun | hjoin | hclear
      · exact absurd (hstop.symm.trans hrun) (by simp)
      · exact absurd (hrest.symm.trans hjoin) (by simp)
      · exact absurd (hrest.symm.trans hclear) (by simp)

/-- A caption comes while the bridge is being stopped, and is sent before the output goes. -/
theorem captions_to_live_output_stopped :
    ∃ s, run CaptionBridge.step sampleBridge (sampleBridgeStart ++
        [.load (some 1), .stop, .advance none, .advance none, .advance none, .send (some 1) 7,
          .advance none, .release 7]) = some s ∧
      s.released = [7] ∧ s.sending = [] := by
  have hinit : Unstarted sampleBridge := ⟨1, [0], by decide, rfl⟩
  refine ⟨_, rfl, rfl, ?_⟩
  have h := captions_to_live_output (reach_of_run hinit
    (show run CaptionBridge.step sampleBridge (sampleBridgeStart ++ [.load (some 1), .stop,
      .advance none, .advance none, .advance none, .send (some 1) 7, .advance none,
      .release 7]) = some _ from rfl))
  exact (h.2 rfl rfl).1

end CaptionBridge

end Multisite

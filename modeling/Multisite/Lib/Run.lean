import Mathlib.Tactic

/-!
Runs of a system given by a partial step function `step : σ → α → Option σ`:
`step s a = none` says that the action `a` is not enabled in `s`.

* `Reach step cond init s`: the state `s` is reached from a state of `init` by
  steps that all meet the condition `cond`, which may look at the state before
  the step and at the action; `Reach.invariant` is the induction every safety
  result below rests on, and `Reach.invariant₂` its form relative to an
  invariant already proved;
* `noted`: the system with notes taken along the way, for a statement about the
  order of its steps;
* `run`: the system driven by a list of actions, with `exists_reach`, so that a
  run on a fixed input can be evaluated, and `exists_reach_guarded` for one whose
  steps meet a decidable condition.
-/

namespace Multisite.Lib

universe u v

variable {σ : Type u} {α : Type v}

/-- The states reached from `init` by steps that all meet `cond`. -/
inductive Reach (step : σ → α → Option σ) (cond : σ → α → Prop) (init : σ → Prop) : σ → Prop
  | start {s : σ} (h : init s) : Reach step cond init s
  | next {s t : σ} {a : α} (hs : Reach step cond init s) (hc : cond s a)
      (ht : step s a = some t) : Reach step cond init t

/-- The condition that every step meets. -/
def anyStep : σ → α → Prop := fun _ _ => True

variable {step : σ → α → Option σ} {cond : σ → α → Prop} {init : σ → Prop}

/-- **The invariant rule**: what holds initially and is kept by every step that
meets the condition holds in every state reached. -/
theorem Reach.invariant {I : σ → Prop} (h0 : ∀ s, init s → I s)
    (h1 : ∀ s a t, I s → cond s a → step s a = some t → I t) :
    ∀ {s}, Reach step cond init s → I s := by
  intro s h
  induction h with
  | start h => exact h0 _ h
  | next _ hc ht ih => exact h1 _ _ _ ih hc ht

/-- The invariant rule relative to an invariant `J` that every reached state is
already known to have. -/
theorem Reach.invariant₂ {I J : σ → Prop} (hJ : ∀ {s}, Reach step cond init s → J s)
    (h0 : ∀ s, init s → I s)
    (h1 : ∀ s a t, J s → I s → cond s a → step s a = some t → I t) :
    ∀ {s}, Reach step cond init s → I s := by
  intro s h
  induction h with
  | start h => exact h0 _ h
  | next hs hc ht ih => exact h1 _ _ _ (hJ hs) ih hc ht

/-- A weaker condition reaches at least as much. -/
lemma Reach.mono {cond' : σ → α → Prop} (h : ∀ s a, cond s a → cond' s a) {s : σ}
    (hs : Reach step cond init s) : Reach step cond' init s := by
  induction hs with
  | start h0 => exact .start h0
  | next _ hc ht ih => exact .next ih (h _ _ hc) ht

/-- A step before a run is a step of the run. -/
lemma Reach.after {s t u : σ} {a : α} (hc : cond s a) (ht : step s a = some t)
    (hu : Reach step cond (· = t) u) : Reach step cond (· = s) u := by
  induction hu with
  | start h =>
      subst h
      exact .next (.start rfl) hc ht
  | next _ hc ht ih => exact ih.next hc ht

/-! ### Notes on a run -/

/-- The system with notes taken along the way: `note s a n` is what the notes `n`
become at a step by `a` from `s`.  No step reads them. -/
def noted {τ : Type*} (step : σ → α → Option σ) (note : σ → α → τ → τ) :
    σ × τ → α → Option (σ × τ) :=
  fun x a => (step x.1 a).map fun t => (t, note x.1 a x.2)

lemma noted_eq_some {τ : Type*} {note : σ → α → τ → τ} {x y : σ × τ} {a : α} :
    noted step note x a = some y ↔ step x.1 a = some y.1 ∧ y.2 = note x.1 a x.2 := by
  rw [noted, Option.map_eq_some_iff]
  constructor
  · rintro ⟨t, ht, rfl⟩
    exact ⟨ht, rfl⟩
  · rintro ⟨ht, hn⟩
    exact ⟨y.1, ht, Prod.ext rfl hn.symm⟩

/-- Notes reach no further than the system does. -/
lemma Reach.of_noted {τ : Type*} {note : σ → α → τ → τ} {init' : σ × τ → Prop}
    (hinit : ∀ x, init' x → init x.1) {x : σ × τ}
    (h : Reach (noted step note) (fun x => cond x.1) init' x) : Reach step cond init x.1 := by
  induction h with
  | start h => exact .start (hinit _ h)
  | next _ hc ht ih => exact ih.next hc (noted_eq_some.mp ht).1

/-! ### Runs on a fixed input -/

/-- The system driven by a list of actions, `none` as soon as one of them is not
enabled. -/
def run (step : σ → α → Option σ) : σ → List α → Option σ
  | s, [] => some s
  | s, a :: as => (step s a).bind fun t => run step t as

/-- The steps of `step` that meet the decidable condition `cond`. -/
def guarded (step : σ → α → Option σ) (cond : σ → α → Prop) [∀ s a, Decidable (cond s a)] :
    σ → α → Option σ :=
  fun s a => if cond s a then step s a else none

lemma Reach.of_run_of {s t : σ} {as : List α} (hc : ∀ s a, cond s a)
    (hs : Reach step cond init s) (h : run step s as = some t) : Reach step cond init t := by
  induction as generalizing s with
  | nil =>
      rw [run, Option.some.injEq] at h
      exact h ▸ hs
  | cons a as ih =>
      rw [run, Option.bind_eq_some_iff] at h
      obtain ⟨u, hu, hrest⟩ := h
      exact ih (hs.next (hc s a) hu) hrest

/-- A run from an initial state reaches its last state. -/
lemma reach_of_run {s t : σ} {as : List α} (h0 : init s) (h : run step s as = some t) :
    Reach step anyStep init t :=
  Reach.of_run_of (fun _ _ => trivial) (.start h0) h

/-- A run whose steps all meet the condition reaches its last state under it. -/
lemma reach_of_guardedRun [∀ s a, Decidable (cond s a)] {s t : σ} {as : List α} (h0 : init s)
    (h : run (guarded step cond) s as = some t) : Reach step cond init t := by
  have key : Reach (guarded step cond) anyStep init t := reach_of_run h0 h
  clear h
  induction key with
  | start h => exact .start h
  | @next s t a _ _ ht ih =>
      rw [guarded] at ht
      split at ht
      · rename_i hc
        exact ih.next hc ht
      · exact absurd ht (by simp)

/-- What a run on a fixed input comes to is reached. -/
lemma exists_reach {P : σ → Prop} [DecidablePred P] (s : σ) (as : List α) (h0 : init s)
    (h : ((run step s as).any fun t => decide (P t)) = true) :
    ∃ t, Reach step anyStep init t ∧ P t := by
  rw [Option.any_eq_true] at h
  obtain ⟨t, ht, hP⟩ := h
  exact ⟨t, reach_of_run h0 ht, of_decide_eq_true hP⟩

/-- What a run on a fixed input comes to under the condition is reached under
it. -/
lemma exists_reach_guarded [∀ s a, Decidable (cond s a)] {P : σ → Prop} [DecidablePred P] (s : σ)
    (as : List α) (h0 : init s)
    (h : ((run (guarded step cond) s as).any fun t => decide (P t)) = true) :
    ∃ t, Reach step cond init t ∧ P t := by
  rw [Option.any_eq_true] at h
  obtain ⟨t, ht, hP⟩ := h
  exact ⟨t, reach_of_guardedRun h0 ht, of_decide_eq_true hP⟩

end Multisite.Lib

import Mathlib.Tactic

/-!
Two runs of one system, compared by what can be seen of them.

`step : σ → α → Option σ` is the system, `look` what can be seen of a state and `give`
what an action gives its caller; `record` writes both down along a list of actions.  A
function `hide` on the states that takes away nothing the system goes by (`Hides`) makes
two states with the same rest tell the same story (`Hides.record_eq`): the unwinding of
a noninterference proof.
-/

namespace Multisite.Lib

universe u v w x

variable {σ : Type u} {α : Type v} {β : Type w} {γ : Type x}

/-- What is seen of a run: the state at each action, and what the action gives; the run
ends at an action that is not enabled. -/
def record (step : σ → α → Option σ) (look : σ → β) (give : σ → α → γ) :
    σ → List α → List (β × Option γ)
  | s, [] => [(look s, none)]
  | s, a :: as =>
      (look s, some (give s a)) :: ((step s a).map fun t => record step look give t as).getD []

/-- What `hide` takes away is not seen, and no step goes by it. -/
structure Hides (step : σ → α → Option σ) (look : σ → β) (give : σ → α → γ) (hide : σ → σ) :
    Prop where
  goes : ∀ s a, (step (hide s) a).map hide = (step s a).map hide
  looks : ∀ s, look (hide s) = look s
  gives : ∀ s a, give (hide s) a = give s a

variable {step : σ → α → Option σ} {look : σ → β} {give : σ → α → γ} {hide : σ → σ}

/-- Two states with the same rest take the same steps, to states with the same rest. -/
lemma Hides.steps_eq (h : Hides step look give hide) {s t : σ} (hst : hide s = hide t) (a : α) :
    (step s a).map hide = (step t a).map hide := by
  rw [← h.goes s, hst, h.goes t]

/-- **Two states with the same rest cannot be told apart**, whatever is done next. -/
theorem Hides.record_eq (h : Hides step look give hide) (as : List α) {s t : σ}
    (hst : hide s = hide t) : record step look give s as = record step look give t as := by
  have hlook : look s = look t := by rw [← h.looks s, hst, h.looks t]
  induction as generalizing s t with
  | nil => rw [record, record, hlook]
  | cons a as ih =>
      have hgive : give s a = give t a := by rw [← h.gives s, hst, h.gives t]
      have hsteps := h.steps_eq hst a
      rw [record, record, hlook, hgive]
      cases hs : step s a with
      | none =>
          rw [hs, Option.map_none, eq_comm, Option.map_eq_none_iff] at hsteps
          rw [hsteps]
      | some s' =>
          rw [hs, Option.map_some, eq_comm, Option.map_eq_some_iff] at hsteps
          obtain ⟨t', ht, hrest⟩ := hsteps
          have hlook' : look s' = look t' := by rw [← h.looks s', ← hrest, h.looks t']
          rw [ht, Option.map_some, Option.map_some, ih hrest.symm hlook']

end Multisite.Lib

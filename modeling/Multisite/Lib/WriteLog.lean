import Mathlib.Tactic

/-!
A durable store that a program changes by a list of atomic writes.

A write is applied whole or not at all, and a crash keeps a prefix of the list:
`cut apply k ws d` is the store left by a crash after the first `k` of the
writes `ws`.

* `applyAll_append`, `cut_of_length_le`: the complete program is the last cut;
* `applyAll_invariant`: what every write of the program keeps is kept by the
  program.
-/

namespace Multisite.Lib

universe u v

variable {δ : Type u} {ω : Type v} (apply : ω → δ → δ)

/-- The store after all writes of the list, in order. -/
def applyAll : List ω → δ → δ
  | [], d => d
  | w :: ws, d => applyAll ws (apply w d)

/-- The store left by a crash after the first `k` writes of the list. -/
def cut (k : ℕ) (ws : List ω) (d : δ) : δ := applyAll apply (ws.take k) d

@[simp] lemma applyAll_nil (d : δ) : applyAll apply [] d = d := rfl

@[simp] lemma applyAll_cons (w : ω) (ws : List ω) (d : δ) :
    applyAll apply (w :: ws) d = applyAll apply ws (apply w d) := rfl

@[simp] lemma applyAll_append (ws vs : List ω) (d : δ) :
    applyAll apply (ws ++ vs) d = applyAll apply vs (applyAll apply ws d) := by
  induction ws generalizing d with
  | nil => rfl
  | cons w ws ih => exact ih (apply w d)

lemma cut_of_length_le {k : ℕ} {ws : List ω} (h : ws.length ≤ k) (d : δ) :
    cut apply k ws d = applyAll apply ws d := by
  rw [cut, List.take_of_length_le h]

/-- What every write of the program keeps, the program keeps. -/
lemma applyAll_invariant {I : δ → Prop} {ws : List ω} (h : ∀ w ∈ ws, ∀ d, I d → I (apply w d))
    {d : δ} (hd : I d) : I (applyAll apply ws d) := by
  induction ws generalizing d with
  | nil => exact hd
  | cons w ws ih =>
      exact ih (fun v hv => h v (List.mem_cons_of_mem _ hv)) (h w List.mem_cons_self d hd)

end Multisite.Lib

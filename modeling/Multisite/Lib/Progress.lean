import Mathlib.Tactic

/-!
A machine driven by a stream of inputs: `trace step env s n` is its state after
the first `n` inputs of `env`.

* `trace_invariant`, `trace_until`: what every step keeps, for ever or until a
  goal is reached;
* `eventually_of_rank`: **the ranking rule**.  From an input on, every step short
  of the goal lowers a natural number, so the goal is reached;
* `eventually_of_wait`: **the waiting rule**.  What waits for an input that comes, and
  keeps waiting until it does, reaches the goal.
-/

namespace Multisite.Lib

universe u v

variable {σ : Type u} {τ : Type v}

/-- The state after the first `n` inputs. -/
def trace (step : τ → σ → σ) (env : ℕ → τ) (s : σ) : ℕ → σ
  | 0 => s
  | n + 1 => step (env n) (trace step env s n)

variable {step : τ → σ → σ} {env : ℕ → τ} {s : σ} {I G : σ → Prop}

@[simp] lemma trace_zero : trace step env s 0 = s := rfl

@[simp] lemma trace_succ (n : ℕ) :
    trace step env s (n + 1) = step (env n) (trace step env s n) := rfl

/-- What every input keeps holds at every time. -/
lemma trace_invariant (h1 : ∀ n s, I s → I (step (env n) s)) (h0 : I s) (n : ℕ) :
    I (trace step env s n) := by
  induction n with
  | zero => exact h0
  | succ n ih => exact h1 n _ ih

/-- What every input keeps short of the goal holds until the goal is reached. -/
lemma trace_until (h1 : ∀ n s, I s → ¬G s → I (step (env n) s)) (h0 : I s) (n : ℕ) :
    (∃ m, G (trace step env s m)) ∨ I (trace step env s n) := by
  induction n with
  | zero => exact Or.inr h0
  | succ n ih =>
      rcases ih with hG | hI
      · exact Or.inl hG
      · by_cases hG : G (trace step env s n)
        · exact Or.inl ⟨n, hG⟩
        · exact Or.inr (h1 n _ hI hG)

/-- **The ranking rule.** -/
theorem eventually_of_rank (rank : σ → ℕ) {N : ℕ}
    (hstep : ∀ n, N ≤ n → ∀ s, I s → ¬G s → I (step (env n) s) ∧ rank (step (env n) s) < rank s)
    (hN : I (trace step env s N)) : ∃ n, G (trace step env s n) := by
  -- the induction is on the rank, at any time from `N` on
  have key : ∀ r n, N ≤ n → I (trace step env s n) → rank (trace step env s n) ≤ r →
      ∃ m, G (trace step env s m) := by
    intro r
    induction r with
    | zero =>
        intro n hn hI hr
        by_contra hG
        have := (hstep n hn _ hI fun h => hG ⟨n, h⟩).2
        omega
    | succ r ih =>
        intro n hn hI hr
        by_cases hG : G (trace step env s n)
        · exact ⟨n, hG⟩
        · obtain ⟨h1, h2⟩ := hstep n hn _ hI hG
          exact ih (n + 1) (by omega) h1 (by rw [trace_succ]; omega)
  exact key _ N le_rfl hN le_rfl

/-- **The waiting rule.** -/
theorem eventually_of_wait {N : ℕ} {D : ℕ → Prop} (hN : I (trace step env s N))
    (hwait : ∀ n, N ≤ n → I (trace step env s n) →
      G (trace step env s (n + 1)) ∨ I (trace step env s (n + 1)))
    (hcomes : ∃ n, N ≤ n ∧ D n)
    (hdue : ∀ n, N ≤ n → D n → I (trace step env s n) → G (trace step env s (n + 1))) :
    ∃ n, N ≤ n ∧ G (trace step env s n) := by
  have key : ∀ n, N ≤ n → (∃ m, N ≤ m ∧ G (trace step env s m)) ∨ I (trace step env s n) := by
    intro n hn
    induction n, hn using Nat.le_induction with
    | base => exact Or.inr hN
    | succ n hn ih =>
        rcases ih with hG | hI
        · exact Or.inl hG
        · rcases hwait n hn hI with hG | hI
          · exact Or.inl ⟨n + 1, by omega, hG⟩
          · exact Or.inr hI
  obtain ⟨n, hn, hD⟩ := hcomes
  rcases key n hn with hG | hI
  · exact hG
  · exact ⟨n + 1, by omega, hdue n hn hD hI⟩

end Multisite.Lib

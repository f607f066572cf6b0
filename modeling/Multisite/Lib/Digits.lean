import Mathlib.Tactic

/-!
Numbers of a fixed width, the most significant digit first.

* `ofDigits_digits`: the number is read back, as far as it fits;
* `digits_lt`: written with ascending signs, such numbers are in the order of their texts, whatever
  follows them.
-/

namespace Multisite.Lib

/-- So many digits of a number, the most significant first. -/
def digits (base : ℕ) : ℕ → ℕ → List ℕ
  | 0, _ => []
  | n + 1, v => digits base n (v / base) ++ [v % base]

/-- The number these digits stand for. -/
def ofDigits (base : ℕ) (l : List ℕ) : ℕ := l.foldl (fun v d => v * base + d) 0

variable {base : ℕ}

@[simp] lemma length_digits (base n v : ℕ) : (digits base n v).length = n := by
  induction n generalizing v with
  | zero => rfl
  | succ n ih => rw [digits, List.length_append, ih, List.length_singleton]

lemma lt_of_mem_digits (hb : 0 < base) {n v d : ℕ} (h : d ∈ digits base n v) : d < base := by
  induction n generalizing v with
  | zero => exact absurd h List.not_mem_nil
  | succ n ih =>
      rw [digits, List.mem_append, List.mem_singleton] at h
      rcases h with h | rfl
      · exact ih h
      · exact Nat.mod_lt _ hb

lemma ofDigits_append_singleton (base : ℕ) (l : List ℕ) (d : ℕ) :
    ofDigits base (l ++ [d]) = ofDigits base l * base + d := by
  rw [ofDigits, List.foldl_append]
  rfl

lemma ofDigits_append (base : ℕ) (l m : List ℕ) :
    ofDigits base (l ++ m) = ofDigits base l * base ^ m.length + ofDigits base m := by
  induction m using List.reverseRecOn with
  | nil => rw [List.append_nil, List.length_nil, pow_zero, mul_one]; rfl
  | append_singleton m d ih =>
      rw [← List.append_assoc, ofDigits_append_singleton, ofDigits_append_singleton, ih,
        List.length_append, List.length_singleton, pow_succ]
      ring

lemma ofDigits_lt {l : List ℕ} (h : ∀ d ∈ l, d < base) : ofDigits base l < base ^ l.length := by
  induction l using List.reverseRecOn with
  | nil => exact Nat.one_pos
  | append_singleton l d ih =>
      have hl := ih fun e he => h e (List.mem_append_left _ he)
      have hd := h d (List.mem_append_right _ (List.mem_singleton.mpr rfl))
      rw [ofDigits_append_singleton, List.length_append, List.length_singleton, pow_succ]
      calc ofDigits base l * base + d
          < ofDigits base l * base + base := by omega
        _ = (ofDigits base l + 1) * base := by ring
        _ ≤ base ^ l.length * base := Nat.mul_le_mul_right _ hl

/-- What is written is read, as far as it fits. -/
theorem ofDigits_digits (base n v : ℕ) : ofDigits base (digits base n v) = v % base ^ n := by
  induction n generalizing v with
  | zero => rw [pow_zero, Nat.mod_one]; rfl
  | succ n ih =>
      rw [digits, ofDigits_append_singleton, ih, pow_succ', Nat.mod_mul]
      ring

/-- Of two texts of one length the smaller stays so, whatever is put behind them. -/
lemma append_lt_append {α : Type*} [LinearOrder α] {a b : List α} (hlen : a.length = b.length)
    (h : a < b) (x y : List α) : a ++ x < b ++ y := by
  induction a generalizing b with
  | nil =>
      obtain rfl := List.length_eq_zero_iff.mp hlen.symm
      exact absurd h (lt_irrefl _)
  | cons c a ih =>
      cases b with
      | nil => exact absurd hlen (by simp)
      | cons d b =>
          rw [List.cons_append, List.cons_append, List.cons_lt_cons_iff]
          rcases List.cons_lt_cons_iff.mp h with hlt | ⟨rfl, hlt⟩
          · exact Or.inl hlt
          · exact Or.inr ⟨rfl, ih (Nat.succ.inj hlen) hlt⟩

/-- The order of the numbers is that of their texts. -/
theorem digits_lt {α : Type*} [LinearOrder α] (hb : 0 < base) {sign : ℕ → α}
    (hsign : ∀ d e, d < e → e < base → sign d < sign e) {n v w : ℕ} (hvw : v < w)
    (hw : w < base ^ n) (x y : List α) :
    (digits base n v).map sign ++ x < (digits base n w).map sign ++ y := by
  refine append_lt_append (by simp) ?_ x y
  induction n generalizing v w with
  | zero =>
      rw [pow_zero] at hw
      omega
  | succ n ih =>
      have hhigh : w / base < base ^ n := Nat.div_lt_of_lt_mul (by rwa [pow_succ'] at hw)
      rw [digits, digits, List.map_append, List.map_append]
      obtain hlt | heq := (Nat.div_le_div_right (c := base) hvw.le).lt_or_eq
      · exact append_lt_append (by simp) (ih hlt hhigh) _ _
      · have hlow : v % base < w % base := by
          have hv := Nat.div_add_mod v base
          have hw' := Nat.div_add_mod w base
          rw [heq] at hv
          omega
        rw [heq]
        refine List.append_left_lt ?_
        exact List.cons_lt_cons_iff.mpr (Or.inl (hsign _ _ hlow (Nat.mod_lt _ hb)))

end Multisite.Lib

import Mathlib.Tactic

/-!
A set of numbers kept as a list of closed ranges.

* `Spaced`: the ranges hold something, stand in order, and between two of them a number is
  left out;
* `Spaced.runEnd`: each is then a maximal run of the numbers held;
* `Spaced.eq`: the list is determined by the numbers it holds.
-/

namespace Multisite.Lib

/-- The number `n` lies in one of the ranges. -/
def Within (l : List (ℕ × ℕ)) (n : ℕ) : Prop := ∃ g ∈ l, g.1 ≤ n ∧ n ≤ g.2

/-- The maximal run of `S` that holds `n` ends at `e`. -/
def RunEnd (S : ℕ → Prop) (n e : ℕ) : Prop :=
  n ≤ e ∧ (∀ x, n ≤ x → x ≤ e → S x) ∧ ¬ S (e + 1)

/-- No range is empty, and a number is left out before the next one. -/
structure Spaced (l : List (ℕ × ℕ)) : Prop where
  nonempty : ∀ g ∈ l, g.1 ≤ g.2
  apart : l.Pairwise fun a b => a.2 + 1 < b.1

variable {S : ℕ → Prop} {g h : ℕ × ℕ} {l l' : List (ℕ × ℕ)} {n e e' : ℕ}

lemma within_cons : Within (g :: l) n ↔ (g.1 ≤ n ∧ n ≤ g.2) ∨ Within l n := by
  simp [Within]

/-- A run has one end. -/
lemma RunEnd.eq (h : RunEnd S n e) (h' : RunEnd S n e') : e = e' := by
  obtain ⟨hle, hin, hout⟩ := h
  obtain ⟨hle', hin', hout'⟩ := h'
  rcases lt_trichotomy e e' with hlt | heq | hlt
  · exact absurd (hin' (e + 1) (by omega) (by omega)) hout
  · exact heq
  · exact absurd (hin (e' + 1) (by omega) (by omega)) hout'

namespace Spaced

lemma nil : Spaced [] := ⟨by simp, List.Pairwise.nil⟩

lemma tail (hs : Spaced (g :: l)) : Spaced l :=
  ⟨fun r hr => hs.nonempty r (List.mem_cons_of_mem _ hr), (List.pairwise_cons.mp hs.apart).2⟩

/-- What the other ranges hold is past the first one and the number after it. -/
lemma lt_of_within_tail (hs : Spaced (g :: l)) (hn : Within l n) : g.2 + 1 < n := by
  obtain ⟨r, hr, hle, -⟩ := hn
  exact lt_of_lt_of_le ((List.pairwise_cons.mp hs.apart).1 r hr) hle

/-- The number after a range is left out. -/
lemma not_within_succ (hs : Spaced l) (hg : g ∈ l) : ¬ Within l (g.2 + 1) := by
  induction l with
  | nil => exact absurd hg (by simp)
  | cons h l ih =>
      rw [within_cons]
      rintro (⟨hle, hge⟩ | htail)
      · rcases List.mem_cons.mp hg with rfl | hg
        · omega
        · have hapart := (List.pairwise_cons.mp hs.apart).1 g hg
          have hne := hs.nonempty g (List.mem_cons_of_mem _ hg)
          omega
      · rcases List.mem_cons.mp hg with rfl | hg
        · exact absurd (hs.lt_of_within_tail htail) (by omega)
        · exact ih hs.tail hg htail

/-- The range that holds `n` ends where the run of `n` does. -/
lemma runEnd (hs : Spaced l) (hg : g ∈ l) (h1 : g.1 ≤ n) (h2 : n ≤ g.2) :
    RunEnd (Within l) n g.2 :=
  ⟨h2, fun _ hle hge => ⟨g, hg, h1.trans hle, hge⟩, hs.not_within_succ hg⟩

/-- Two spaced lists that hold the same numbers begin with the same range. -/
lemma head_eq (hs : Spaced (g :: l)) (hs' : Spaced (h :: l'))
    (heq : ∀ n, Within (g :: l) n ↔ Within (h :: l') n) : g = h := by
  have hg := hs.nonempty g List.mem_cons_self
  have hh := hs'.nonempty h List.mem_cons_self
  -- the first number of either list is its least
  have hleast : ∀ {r : ℕ × ℕ} {k : List (ℕ × ℕ)} {n : ℕ},
      Spaced (r :: k) → Within (r :: k) n → r.1 ≤ n := by
    intro r k n hk hn
    rcases within_cons.mp hn with hn | hn
    · exact hn.1
    · have hr := hk.nonempty r List.mem_cons_self
      have hlt := hk.lt_of_within_tail hn
      omega
  have hfirst : g.1 = h.1 := le_antisymm
    (hleast hs ((heq h.1).mpr (within_cons.mpr (Or.inl ⟨le_rfl, hh⟩))))
    (hleast hs' ((heq g.1).mp (within_cons.mpr (Or.inl ⟨le_rfl, hg⟩))))
  -- and the first range is the run of that number
  have hrun := hs.runEnd List.mem_cons_self le_rfl hg
  have hrun' := hs'.runEnd List.mem_cons_self le_rfl hh
  rw [show Within (g :: l) = Within (h :: l') from funext fun n => propext (heq n), hfirst] at hrun
  exact Prod.ext hfirst (hrun.eq hrun')

/-- **A spaced list is determined by what it holds.** -/
theorem eq (hs : Spaced l) (hs' : Spaced l') (heq : ∀ n, Within l n ↔ Within l' n) : l = l' := by
  induction l generalizing l' with
  | nil =>
      cases l' with
      | nil => rfl
      | cons h l' =>
          have hh : Within (h :: l') h.1 :=
            within_cons.mpr (Or.inl ⟨le_rfl, hs'.nonempty h List.mem_cons_self⟩)
          obtain ⟨r, hr, -⟩ := (heq h.1).mpr hh
          exact absurd hr (by simp)
  | cons g l ih =>
      cases l' with
      | nil =>
          have hg : Within (g :: l) g.1 :=
            within_cons.mpr (Or.inl ⟨le_rfl, hs.nonempty g List.mem_cons_self⟩)
          obtain ⟨r, hr, -⟩ := (heq g.1).mp hg
          exact absurd hr (by simp)
      | cons h l' =>
          obtain rfl := hs.head_eq hs' heq
          congr 1
          refine ih hs.tail hs'.tail fun n => ⟨fun hn => ?_, fun hn => ?_⟩
          · have hlt := hs.lt_of_within_tail hn
            rcases within_cons.mp ((heq n).mp (within_cons.mpr (Or.inr hn))) with h' | h'
            · omega
            · exact h'
          · have hlt := hs'.lt_of_within_tail hn
            rcases within_cons.mp ((heq n).mpr (within_cons.mpr (Or.inr hn))) with h' | h'
            · omega
            · exact h'

end Spaced

end Multisite.Lib

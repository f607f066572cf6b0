import Mathlib.Tactic

/-!
A keyed map brought into line with a list: each entry of the list makes or changes the value under
its key, in the order of the list, and what the list does not name is dropped.

* `reconcile_of_mem`, `reconcile_of_not_mem`: for a list that names no key twice, what stands under
  a key afterwards depends on the list's entry and on the value before, and on nothing else.
-/

namespace Multisite.Lib

variable {κ α β : Type*} [DecidableEq κ] {key : α → κ} {f : Option β → α → β} {m : κ → Option β}
  {l : List α}

/-- One entry of the list. -/
def reconcileEntry (key : α → κ) (f : Option β → α → β) (m : κ → Option β) (a : α) : κ → Option β :=
  Function.update m (key a) (some (f (m (key a)) a))

/-- The map brought into line with the list. -/
def reconcile (key : α → κ) (f : Option β → α → β) (m : κ → Option β) (l : List α) : κ → Option β :=
  fun k => if l.any (fun a => decide (key a = k)) then (l.foldl (reconcileEntry key f) m) k else none

lemma foldl_reconcileEntry_of_not_mem {k : κ} (h : k ∉ l.map key) :
    (l.foldl (reconcileEntry key f) m) k = m k := by
  induction l generalizing m with
  | nil => rfl
  | cons a l ih =>
      rw [List.map_cons, List.mem_cons, not_or] at h
      rw [List.foldl_cons, ih h.2, reconcileEntry, Function.update_of_ne h.1]

lemma foldl_reconcileEntry_of_mem (hl : (l.map key).Nodup) {a : α} (ha : a ∈ l) :
    (l.foldl (reconcileEntry key f) m) (key a) = some (f (m (key a)) a) := by
  induction l generalizing m with
  | nil => exact absurd ha (by simp)
  | cons b l ih =>
      rw [List.map_cons, List.nodup_cons] at hl
      rw [List.foldl_cons]
      rcases List.mem_cons.mp ha with rfl | ha
      · rw [foldl_reconcileEntry_of_not_mem hl.1, reconcileEntry, Function.update_self]
      · have hne : key a ≠ key b := by
          intro heq
          exact hl.1 (heq ▸ List.mem_map_of_mem ha)
        rw [ih hl.2 ha, reconcileEntry, Function.update_of_ne hne]

/-- What stands under an entry's key. -/
lemma reconcile_of_mem (hl : (l.map key).Nodup) {a : α} (ha : a ∈ l) :
    reconcile key f m l (key a) = some (f (m (key a)) a) := by
  have hany : l.any (fun b => decide (key b = key a)) = true :=
    List.any_eq_true.mpr ⟨a, ha, by simp⟩
  rw [reconcile, if_pos hany, foldl_reconcileEntry_of_mem hl ha]

/-- What the list does not name is dropped. -/
lemma reconcile_of_not_mem {k : κ} (h : k ∉ l.map key) : reconcile key f m l k = none := by
  have hany : ¬ l.any (fun b => decide (key b = k)) = true := by
    rw [List.any_eq_true]
    rintro ⟨a, ha, hk⟩
    exact h (List.mem_map.mpr ⟨a, ha, of_decide_eq_true hk⟩)
  rw [reconcile, if_neg hany]

/-- What stands in the map afterwards was made from an entry and from what stood there. -/
lemma reconcile_eq_some (hl : (l.map key).Nodup) {k : κ} {b : β}
    (h : reconcile key f m l k = some b) : ∃ a ∈ l, key a = k ∧ b = f (m k) a := by
  by_cases hk : k ∈ l.map key
  · obtain ⟨a, ha, rfl⟩ := List.mem_map.mp hk
    rw [reconcile_of_mem hl ha, Option.some.injEq] at h
    exact ⟨a, ha, rfl, h.symm⟩
  · rw [reconcile_of_not_mem hk] at h
    exact absurd h (by simp)

end Multisite.Lib

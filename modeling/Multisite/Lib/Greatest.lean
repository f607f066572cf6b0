import Mathlib.Tactic
import Mathlib.Data.List.Sort

/-!
The `n` greatest elements with a property, as a list in descending order.

* `Greatest.eq`: there is only one such list;
* `greatest_take_insertionSort`: sorting a list and cutting it after `n` gives it;
* `take_insertionSort_append_eq_iff`: of two sources the first taken whole and the second only as
  far as there is room gives it exactly when what it should have of the second is in that part.
-/

namespace Multisite.Lib

universe u

variable {α : Type u} [LinearOrder α]

/-- `T` is the `n` greatest elements with the property `S`, all of them if there are fewer. -/
structure Greatest (n : ℕ) (S : α → Prop) (T : List α) : Prop where
  sorted : T.Pairwise (· > ·)
  mem : ∀ x ∈ T, S x
  length_le : T.length ≤ n
  top : ∀ x, S x → x ∉ T → T.length = n ∧ ∀ t ∈ T, x < t

variable {n : ℕ} {S : α → Prop} {T T' : List α}

lemma Greatest.subset (h : Greatest n S T) (h' : Greatest n S T') : T ⊆ T' := by
  intro x hx
  by_contra hx'
  obtain ⟨hlen, hlt⟩ := h'.top x (h.mem x hx) hx'
  have hsub : T' ⊆ T := by
    intro y hy
    by_contra hy'
    exact lt_asymm (hlt y hy) ((h.top y (h'.mem y hy) hy').2 x hx)
  have hcount : (x :: T').length ≤ T.length := by
    refine ((List.nodup_cons.mpr ⟨hx', h'.sorted.nodup⟩).subperm ?_).length_le
    exact List.cons_subset.mpr ⟨hx, hsub⟩
  have := h.length_le
  rw [List.length_cons] at hcount
  omega

/-- **The list is determined.** -/
theorem Greatest.eq (h : Greatest n S T) (h' : Greatest n S T') : T = T' :=
  List.Subset.antisymm_of_pairwise h.sorted h'.sorted (h.subset h') (h'.subset h)

lemma pairwise_gt_insertionSort {l : List α} (h : l.Nodup) :
    (l.insertionSort (· ≥ ·)).Pairwise (· > ·) := by
  have hge : (l.insertionSort (· ≥ ·)).Pairwise (· ≥ ·) := List.pairwise_insertionSort (· ≥ ·) l
  have hnodup : (l.insertionSort (· ≥ ·)).Nodup := (List.perm_insertionSort _ l).nodup_iff.mpr h
  exact (hge.and hnodup).imp fun hab => lt_of_le_of_ne hab.1 hab.2.symm

/-- **Sort and cut.** -/
theorem greatest_take_insertionSort {l : List α} (h : l.Nodup) (n : ℕ) :
    Greatest n (· ∈ l) ((l.insertionSort (· ≥ ·)).take n) := by
  have hsorted := pairwise_gt_insertionSort h
  refine ⟨hsorted.sublist (List.take_sublist _ _), fun x hx => ?_, List.length_take_le _ _,
    fun x hx hnot => ?_⟩
  · exact (List.mem_insertionSort _).mp (List.mem_of_mem_take hx)
  · have hdrop : x ∈ (l.insertionSort (· ≥ ·)).drop n := by
      have hmem : x ∈ l.insertionSort (· ≥ ·) := (List.mem_insertionSort _).mpr hx
      rw [← List.take_append_drop n (l.insertionSort (· ≥ ·))] at hmem
      exact (List.mem_append.mp hmem).resolve_left hnot
    refine ⟨List.length_take_of_le ?_, fun t ht => ?_⟩
    · have := List.length_pos_of_mem hdrop
      rw [List.length_drop] at this
      omega
    · rw [← List.take_append_drop n (l.insertionSort (· ≥ ·))] at hsorted
      exact (List.pairwise_append.mp hsorted).2.2 t ht x hdrop

/-- **Two sources, the second only as far as there is room.**  The elements wanted are those of
`known` and some others; `found` lists such others in descending order. -/
theorem take_insertionSort_append_eq_iff {known found : List α} (hknown : known.Nodup)
    (hfound : found.Pairwise (· > ·)) (hapart : ∀ x ∈ found, x ∉ known)
    (hS : ∀ x, x ∈ known ∨ x ∈ found → S x) (hT : Greatest n S T) :
    ((known ++ found.take (n - known.length)).insertionSort (· ≥ ·)).take n = T ↔
      (T.filter (· ∉ known)).length ≤ n - known.length ∧ ∀ x ∈ T, x ∉ known → x ∈ found := by
  have hnodup : (known ++ found.take (n - known.length)).Nodup :=
    List.nodup_append.mpr ⟨hknown, (hfound.sublist (List.take_sublist _ _)).nodup,
      fun x hx y hy hxy => hapart y (List.mem_of_mem_take hy) (hxy ▸ hx)⟩
  have hcut := greatest_take_insertionSort hnodup n
  have hrest : (T.filter (· ∉ known)).Nodup := hT.sorted.nodup.filter _
  constructor
  · intro h
    have hmem : ∀ x ∈ T, x ∉ known → x ∈ found.take (n - known.length) := fun x hx hx' =>
      (List.mem_append.mp (hcut.mem x (h ▸ hx))).resolve_left hx'
    refine ⟨?_, fun x hx hx' => List.mem_of_mem_take (hmem x hx hx')⟩
    have hsub : T.filter (· ∉ known) ⊆ found.take (n - known.length) := by
      intro x hx
      rw [List.mem_filter, decide_eq_true_eq] at hx
      exact hmem x hx.1 hx.2
    exact (hrest.subperm hsub).length_le.trans (List.length_take_le _ _)
  · rintro ⟨hlen, hmem⟩
    refine hcut.eq ⟨hT.sorted, fun x hx => ?_, hT.length_le, fun x hx hnot => ?_⟩
    · by_cases hx' : x ∈ known
      · exact List.mem_append_left _ hx'
      · refine List.mem_append_right _ ?_
        -- otherwise the part taken is full, and all of it is among the greatest too
        by_contra hlate
        have hin := hmem x hx hx'
        rw [← List.take_append_drop (n - known.length) found] at hin hfound
        have hdrop := (List.mem_append.mp hin).resolve_left hlate
        have habove := fun y hy => (List.pairwise_append.mp hfound).2.2 y hy x hdrop
        rw [List.take_append_drop] at hfound
        have hfull : (found.take (n - known.length)).length = n - known.length := by
          have := List.length_pos_of_mem hdrop
          rw [List.length_drop] at this
          exact List.length_take_of_le (by omega)
        have hsub : x :: found.take (n - known.length) ⊆ T.filter (· ∉ known) := by
          refine List.cons_subset.mpr ⟨List.mem_filter.mpr ⟨hx, by simpa using hx'⟩, fun y hy => ?_⟩
          have hyf := List.mem_of_mem_take hy
          refine List.mem_filter.mpr ⟨?_, by simpa using hapart y hyf⟩
          by_contra hyT
          exact lt_asymm (habove y hy) ((hT.top y (hS y (Or.inr hyf)) hyT).2 x hx)
        have hcount := ((List.nodup_cons.mpr
          ⟨hlate, (hfound.sublist (List.take_sublist _ _)).nodup⟩).subperm hsub).length_le
        rw [List.length_cons, hfull] at hcount
        omega
    · refine hT.top x (hS x ?_) hnot
      exact (List.mem_append.mp hx).imp_right List.mem_of_mem_take

end Multisite.Lib

import Mathlib.Tactic

/-!
A sorted listing read page by page: a page holds at most `n` items, and the token that asks
for the next one is the key of its last item.

* `after_append`: the token stands for the place it was handed out at;
* `readPages_eq`: `fuel` pages give the first `fuel * n` items of the listing, and come to
  its end when it holds no more than that;
* `notMem_take_iff`: which items a first part leaves.
-/

namespace Multisite.Lib

universe u v

variable {α : Type u} {κ : Type v} [LinearOrder κ]

/-- What is listed after the token, everything without one. -/
def after (key : α → κ) (l : List α) : Option κ → List α
  | none => l
  | some t => l.filter fun x => t < key x

/-- The page a token asks for. -/
def page (key : α → κ) (n : ℕ) (l : List α) (t : Option κ) : List α := (after key l t).take n

/-- The token handed out with a page, none with the last one. -/
def nextToken (key : α → κ) (n : ℕ) (l : List α) (t : Option κ) : Option κ :=
  if (after key l t).length ≤ n then none else (page key n l t).getLast?.map key

/-- `fuel` pages one after another, and whether the listing ended with them. -/
def readPages (key : α → κ) (n : ℕ) (l : List α) : ℕ → Option κ → List α × Bool
  | 0, _ => ([], false)
  | fuel + 1, t =>
      match nextToken key n l t with
      | none => (page key n l t, true)
      | some t' =>
          (page key n l t ++ (readPages key n l fuel (some t')).1,
            (readPages key n l fuel (some t')).2)

variable {key : α → κ} {n : ℕ} {l : List α}

/-- After the key of an item comes what the listing holds after the item. -/
lemma after_append {a b : List α} {x : α}
    (h : (a ++ x :: b).Pairwise fun y z => key y < key z) :
    after key (a ++ x :: b) (some (key x)) = b := by
  obtain ⟨-, hxb, hcross⟩ := List.pairwise_append.mp h
  have hb := (List.pairwise_cons.mp hxb).1
  have ha : a.filter (fun y => decide (key x < key y)) = [] := by
    refine List.filter_eq_nil_iff.mpr fun y hy => ?_
    simpa using (hcross y hy x List.mem_cons_self).le
  have hself : ((x :: b).filter fun y => decide (key x < key y)) = b := by
    rw [List.filter_cons_of_neg (by simp), List.filter_eq_self]
    intro y hy
    simpa using hb y hy
  rw [after, List.filter_append, ha, hself, List.nil_append]

/-- The pages read from a place of the listing on. -/
private lemma readPages_drop (hn : 0 < n) (hl : l.Pairwise fun y z => key y < key z) (fuel m : ℕ)
    (t : Option κ) (ht : after key l t = l.drop m) :
    readPages key n l (fuel + 1) t =
      ((l.drop m).take ((fuel + 1) * n), decide ((l.drop m).length ≤ (fuel + 1) * n)) := by
  induction fuel generalizing m t with
  | zero =>
      rw [readPages, nextToken, page, ht]
      by_cases hle : (l.drop m).length ≤ n
      · rw [if_pos hle, zero_add, one_mul, decide_eq_true hle]
      · have hne : (l.drop m).take n ≠ [] := by
          rw [ne_eq, List.take_eq_nil_iff]
          rintro (rfl | h0)
          · exact absurd hn (by simp)
          · exact hle (by simp [h0])
        rw [if_neg hle, List.getLast?_eq_some_getLast hne, zero_add, one_mul,
          decide_eq_false hle]
        simp [readPages]
  | succ fuel ih =>
      rw [readPages, nextToken, page, ht]
      by_cases hle : (l.drop m).length ≤ n
      · have hmul : n ≤ (fuel + 1 + 1) * n := Nat.le_mul_of_pos_left n (by omega)
        rw [if_pos hle, List.take_of_length_le hle, List.take_of_length_le (hle.trans hmul),
          decide_eq_true (hle.trans hmul)]
      · have hlen : m + n < l.length := by
          rw [List.length_drop] at hle
          omega
        have hpage : ((l.drop m).take n).getLast? = some l[m + n - 1] := by
          rw [List.getLast?_eq_getElem?, List.getElem?_take, List.getElem?_drop]
          have hlen' : ((l.drop m).take n).length = n := by
            rw [List.length_take, List.length_drop]
            omega
          rw [hlen', if_pos (by omega), show m + (n - 1) = m + n - 1 by omega,
            List.getElem?_eq_getElem]
        have hafter : after key l (some (key l[m + n - 1])) = l.drop (m + n) := by
          have hsplit : l = l.take (m + n - 1) ++ l[m + n - 1] :: l.drop (m + n) := by
            conv_lhs => rw [← List.take_append_drop (m + n - 1) l]
            rw [List.drop_eq_getElem_cons (by omega), show m + n - 1 + 1 = m + n by omega]
          have h := after_append (hsplit ▸ hl)
          rwa [← hsplit] at h
        have hrest := ih (m + n) _ hafter
        rw [if_neg hle, hpage]
        simp only [Option.map_some, hrest]
        refine Prod.ext ?_ ?_
        · show (l.drop m).take n ++ (l.drop (m + n)).take ((fuel + 1) * n) = _
          rw [show l.drop (m + n) = (l.drop m).drop n by rw [List.drop_drop],
            show (fuel + 1 + 1) * n = n + (fuel + 1) * n by ring, List.take_add]
        · show decide _ = decide _
          rw [decide_eq_decide, List.length_drop, List.length_drop,
            show (fuel + 1 + 1) * n = n + (fuel + 1) * n by ring]
          omega

/-- **What is read page by page**: the listing up to the pages allowed, and all of it when
they suffice. -/
theorem readPages_eq (hn : 0 < n) (hl : l.Pairwise fun y z => key y < key z) (fuel : ℕ) :
    readPages key n l (fuel + 1) none =
      (l.take ((fuel + 1) * n), decide (l.length ≤ (fuel + 1) * n)) := by
  have h := readPages_drop hn hl fuel 0 none rfl
  rwa [List.drop_zero] at h

/-- An item is left by the first `n` exactly when `n` of the items do not come after it. -/
lemma notMem_take_iff {l : List κ} (hl : l.Pairwise (· < ·)) {x : κ} (hx : x ∈ l) (n : ℕ) :
    x ∉ l.take n ↔ n ≤ (l.filter (· < x)).length := by
  induction l generalizing n with
  | nil => simp at hx
  | cons y l ih =>
      obtain ⟨hy, hl⟩ := List.pairwise_cons.mp hl
      cases n with
      | zero => simp
      | succ n =>
          rw [List.take_succ_cons, List.mem_cons, not_or]
          rcases List.mem_cons.mp hx with rfl | hxl
          · have hnone : l.filter (· < x) = [] :=
              List.filter_eq_nil_iff.mpr fun z hz => by simpa using (hy z hz).le
            simp [hnone]
          · have hyx := hy x hxl
            rw [ih hl hxl, List.filter_cons_of_pos (by simpa using hyx), List.length_cons]
            simp [hyx.ne']

end Multisite.Lib

import Mathlib.Tactic

/-!
Searching a list for the first place where a pattern stands, and replacing every place,
left to right and never inside what was put in.

* `firstIn_eq_some`, `firstIn_eq_none`: what the search answers;
* `firstIn_append`, `firstIn_of_append`: what more of the list does to the answer;
* `replaceAll_split`: a replacement, one place at a time;
* `replaceAll_append_self`, `replaceAll_self_append`: a place that is the first one, replaced;
* `replaceAll_cancel`, `replaceAll_cancel_twice`: what a replacement shows of where it was made.
-/

namespace Multisite.Lib

variable {α : Type*} [DecidableEq α] (p w : List α)

/-! ### The first place -/

/-- The first place where `p` stands in the list. -/
def firstIn : List α → Option ℕ
  | [] => if p = [] then some 0 else none
  | a :: l => if p.isPrefixOf (a :: l) then some 0 else (firstIn l).map (· + 1)

variable {p w} {l t x y : List α} {i : ℕ}

lemma firstIn_eq_some :
    firstIn p l = some i ↔ i ≤ l.length ∧ p <+: l.drop i ∧ ∀ j < i, ¬p <+: l.drop j := by
  induction l generalizing i with
  | nil =>
      rw [firstIn]
      split
      · rename_i hp
        constructor
        · rintro ⟨⟩
          exact ⟨le_rfl, by rw [hp]; exact List.nil_prefix, fun j hj => absurd hj (by omega)⟩
        · rintro ⟨hi, -, -⟩
          rw [Nat.le_zero.mp hi]
      · rename_i hp
        simp [hp]
  | cons a l ih =>
      rw [firstIn]
      split
      · rename_i hp
        rw [List.isPrefixOf_iff_prefix] at hp
        constructor
        · rintro ⟨⟩
          exact ⟨Nat.zero_le _, hp, fun j hj => absurd hj (Nat.not_lt_zero j)⟩
        · rintro ⟨-, -, hbefore⟩
          rcases Nat.eq_zero_or_pos i with rfl | hi
          · rfl
          · exact absurd hp (hbefore 0 hi)
      · rename_i hp
        rw [List.isPrefixOf_iff_prefix] at hp
        cases i with
        | zero => simpa using fun h => absurd h hp
        | succ i =>
            rw [Option.map_eq_some_iff]
            simp only [Nat.add_right_cancel_iff, exists_eq_right, ih, List.length_cons,
              Nat.add_le_add_iff_right, List.drop_succ_cons]
            refine and_congr_right fun _ => and_congr_right fun _ => ⟨fun h j hj => ?_,
              fun h j hj => h (j + 1) (by omega)⟩
            cases j with
            | zero => exact hp
            | succ j => exact h j (by omega)

omit [DecidableEq α] in
lemma infix_iff_exists_drop : p <:+: l ↔ ∃ i ≤ l.length, p <+: l.drop i := by
  constructor
  · rintro ⟨x, y, rfl⟩
    refine ⟨x.length, by simp, ?_⟩
    rw [List.append_assoc, List.drop_left]
    exact List.prefix_append p y
  · rintro ⟨i, -, h⟩
    exact h.isInfix.trans (List.drop_suffix i l).isInfix

lemma firstIn_eq_none : firstIn p l = none ↔ ¬p <:+: l := by
  rw [infix_iff_exists_drop]
  constructor
  · rintro hnone ⟨i, hi, hp⟩
    have hex : ∃ i, i ≤ l.length ∧ p <+: l.drop i := ⟨i, hi, hp⟩
    classical
    have hfirst : firstIn p l = some (Nat.find hex) := by
      refine Iff.mpr firstIn_eq_some ⟨(Nat.find_spec hex).1, (Nat.find_spec hex).2, fun j hj hpj => ?_⟩
      exact Nat.find_min hex hj ⟨hj.le.trans (Nat.find_spec hex).1, hpj⟩
    exact absurd (hnone.symm.trans hfirst) (by simp)
  · intro h
    cases hi : firstIn p l with
    | none => rfl
    | some i =>
        obtain ⟨hle, hp, -⟩ := Iff.mp firstIn_eq_some hi
        exact absurd ⟨i, hle, hp⟩ h

/-- The place found, and what stands before and after it. -/
lemma split_of_firstIn (h : firstIn p l = some i) :
    l = l.take i ++ (p ++ l.drop (i + p.length)) := by
  obtain ⟨-, ⟨y, hy⟩, -⟩ := Iff.mp firstIn_eq_some h
  have hdrop : l.drop (i + p.length) = y := by
    rw [← List.drop_drop, ← hy, List.drop_left]
  rw [hdrop, hy, List.take_append_drop]

lemma add_length_le_of_firstIn (h : firstIn p l = some i) : i + p.length ≤ l.length := by
  obtain ⟨hle, hp, -⟩ := Iff.mp firstIn_eq_some h
  have := hp.length_le
  rw [List.length_drop] at this
  omega

/-- What stands first still does when the list goes on. -/
lemma firstIn_append (h : firstIn p l = some i) (t : List α) : firstIn p (l ++ t) = some i := by
  have hlen := add_length_le_of_firstIn h
  obtain ⟨hle, hp, hbefore⟩ := Iff.mp firstIn_eq_some h
  refine Iff.mpr firstIn_eq_some ⟨by simp; omega, ?_, fun j hj hpj => hbefore j hj ?_⟩
  · rw [List.drop_append_of_le_length hle]
    exact hp.trans (List.prefix_append _ t)
  · rw [List.drop_append_of_le_length (by omega)] at hpj
    exact (List.isPrefix_append_of_length (by rw [List.length_drop]; omega)).mp hpj

/-- A place that ends inside the beginning of a list is the first place of the beginning. -/
lemma firstIn_of_append (h : firstIn p (l ++ t) = some i) (hle : i + p.length ≤ l.length) :
    firstIn p l = some i := by
  obtain ⟨-, hp, hbefore⟩ := Iff.mp firstIn_eq_some h
  refine Iff.mpr firstIn_eq_some ⟨by omega, ?_, fun j hj hpj => hbefore j hj ?_⟩
  · rw [List.drop_append_of_le_length (by omega)] at hp
    exact (List.isPrefix_append_of_length (by rw [List.length_drop]; omega)).mp hp
  · rw [List.drop_append_of_le_length (by omega)]
    exact hpj.trans (List.prefix_append _ t)

/-- A place with nothing before it that begins like `p` is the first one. -/
lemma firstIn_of_notMem {a : α} {q : List α} (hp : p = a :: q) (hx : a ∉ x) (y : List α) :
    firstIn p (x ++ (p ++ y)) = some x.length := by
  refine Iff.mpr firstIn_eq_some ⟨by simp, ?_, fun j hj hpj => hx ?_⟩
  · rw [List.drop_left]
    exact List.prefix_append p y
  · rw [List.drop_append_of_le_length hj.le, List.drop_eq_getElem_cons hj, hp, List.cons_append,
      List.cons_prefix_cons] at hpj
    rw [hpj.1]
    exact List.getElem_mem hj

/-- A beginning in which `p` starts nowhere is passed over. -/
lemma firstIn_skip (h : ∀ j < x.length, ¬p <+: (x ++ y).drop j) :
    firstIn p (x ++ y) = (firstIn p y).map (x.length + ·) := by
  induction x with
  | nil => simp
  | cons a x ih =>
      have hhead : ¬p <+: a :: (x ++ y) := by simpa using h 0 (by simp)
      have htail : ∀ j < x.length, ¬p <+: (x ++ y).drop j := by
        intro j hj
        simpa using h (j + 1) (by simpa using hj)
      have hstep : firstIn p (a :: (x ++ y)) = (firstIn p (x ++ y)).map (· + 1) := by
        rw [firstIn, if_neg (by rwa [List.isPrefixOf_iff_prefix])]
      rw [List.cons_append, hstep, ih htail, Option.map_map]
      congr 1
      funext i
      simp only [Function.comp_apply, List.length_cons]
      omega

/-! ### Replacing every place -/

variable (p w) in
/-- `w` put for every place of `p`, once the next `k` elements are passed over. -/
def replaceFrom : ℕ → List α → List α
  | _, [] => []
  | k + 1, _ :: l => replaceFrom k l
  | 0, a :: l =>
      if p.isPrefixOf (a :: l) then w ++ replaceFrom (p.length - 1) l else a :: replaceFrom 0 l

variable (p w) in
/-- `w` put for every place of `p`. -/
def replaceAll (l : List α) : List α := replaceFrom p w 0 l

@[simp] lemma replaceAll_nil : replaceAll p w [] = [] := rfl

lemma replaceFrom_eq (k : ℕ) (l : List α) : replaceFrom p w k l = replaceAll p w (l.drop k) := by
  induction l generalizing k with
  | nil => cases k <;> rfl
  | cons a l ih =>
      cases k with
      | zero => rfl
      | succ k => exact ih k

lemma replaceAll_cons (hp : p ≠ []) (a : α) (l : List α) :
    replaceAll p w (a :: l) =
      if p <+: a :: l then w ++ replaceAll p w ((a :: l).drop p.length)
      else a :: replaceAll p w l := by
  show replaceFrom p w 0 (a :: l) = _
  rw [replaceFrom]
  obtain ⟨n, hn⟩ : ∃ n, p.length = n + 1 :=
    ⟨p.length - 1, by have := List.length_pos_iff.mpr hp; omega⟩
  simp only [List.isPrefixOf_iff_prefix, replaceFrom_eq, hn, Nat.add_sub_cancel,
    List.drop_succ_cons, List.drop_zero]

/-- Where `p` does not stand, nothing is replaced. -/
lemma replaceAll_eq_self (hp : p ≠ []) (h : ¬p <:+: l) : replaceAll p w l = l := by
  induction l with
  | nil => rfl
  | cons a l ih =>
      rw [replaceAll_cons hp, if_neg fun hpre => h hpre.isInfix,
        ih fun hin => h (hin.trans (List.suffix_cons a l).isInfix)]

/-- **A replacement, one place at a time.** -/
lemma replaceAll_split (hp : p ≠ []) (h : firstIn p l = some i) :
    replaceAll p w l = l.take i ++ (w ++ replaceAll p w (l.drop (i + p.length))) := by
  induction l generalizing i with
  | nil => exact absurd h (by rw [firstIn, if_neg hp]; simp)
  | cons a l ih =>
      rw [replaceAll_cons hp]
      obtain ⟨hle, hpre, hbefore⟩ := Iff.mp firstIn_eq_some h
      cases i with
      | zero =>
          rw [List.drop_zero] at hpre
          rw [if_pos hpre, Nat.zero_add, List.take_zero, List.nil_append]
      | succ i =>
          have htail : firstIn p l = some i :=
            Iff.mpr firstIn_eq_some ⟨by simpa using hle, by simpa using hpre, fun j hj =>
              by simpa using hbefore (j + 1) (by omega)⟩
          have hhead := hbefore 0 (by omega)
          rw [List.drop_zero] at hhead
          rw [if_neg hhead, ih htail, List.take_succ_cons, List.cons_append,
            show i + 1 + p.length = i + p.length + 1 by omega, List.drop_succ_cons]

/-- A place that is the first one, replaced. -/
lemma replaceAll_append_self (hp : p ≠ []) (h : firstIn p (x ++ p) = some x.length)
    (y : List α) : replaceAll p w (x ++ (p ++ y)) = x ++ (w ++ replaceAll p w y) := by
  have hfirst : firstIn p (x ++ (p ++ y)) = some x.length := by
    rw [← List.append_assoc]
    exact firstIn_append h y
  rw [replaceAll_split hp hfirst, List.take_left, ← List.drop_drop, List.drop_left, List.drop_left]

/-- A text that begins with the pattern. -/
lemma replaceAll_self_append (hp : p ≠ []) (y : List α) :
    replaceAll p w (p ++ y) = w ++ replaceAll p w y := by
  have hfirst : firstIn p ([] ++ p) = some ([] : List α).length := by
    rw [List.nil_append, List.length_nil, firstIn_eq_some]
    exact ⟨Nat.zero_le _, List.prefix_rfl, fun j hj => absurd hj (Nat.not_lt_zero j)⟩
  simpa using replaceAll_append_self hp hfirst y

/-- A pattern that stands nowhere before `y` is replaced in `y` alone. -/
lemma replaceAll_append (hp : p ≠ []) (h : ∀ j < x.length, ¬p <+: (x ++ y).drop j) :
    replaceAll p w (x ++ y) = x ++ replaceAll p w y := by
  induction x with
  | nil => rfl
  | cons a x ih =>
      have hhead : ¬p <+: a :: (x ++ y) := h 0 (by simp)
      have htail : ∀ j < x.length, ¬p <+: (x ++ y).drop j := fun j hj => h (j + 1) (by simpa)
      rw [List.cons_append, replaceAll_cons hp, if_neg hhead, ih htail]
      rfl

/-! A replacement that does not begin like the pattern shows where it was made. -/

omit [DecidableEq α] in
lemma head?_of_begins {a : α} (hp : p ≠ []) (h : p <+: a :: l) : p.head? = some a := by
  obtain ⟨b, q, rfl⟩ := List.exists_cons_of_ne_nil hp
  rw [List.cons_prefix_cons] at h
  rw [List.head?_cons, h.1]

/-- Where a text and what became of it agree, nothing was replaced. -/
lemma replaceAll_cancel {c : α} {z : List α} (hp : p ≠ []) (hc : p.head? ≠ some c)
    (hw : w.head? = some c) (h : replaceAll p w (x ++ y) = x ++ z) :
    (∀ j < x.length, ¬p <+: (x ++ y).drop j) ∧ replaceAll p w y = z := by
  obtain ⟨w', hw⟩ := List.head?_eq_some_iff.mp hw
  induction x with
  | nil => exact ⟨fun j hj => absurd hj (Nat.not_lt_zero j), h⟩
  | cons a x ih =>
      rw [List.cons_append, List.cons_append, replaceAll_cons hp, hw] at h
      split at h
      · rename_i hpre
        rw [List.cons_append] at h
        exact absurd ((head?_of_begins hp hpre).trans (by rw [(List.cons.inj h).1])) hc
      · rename_i hpre
        rw [← hw] at h
        obtain ⟨hbefore, hy⟩ := ih (List.cons.inj h).2
        refine ⟨fun j hj => ?_, hy⟩
        cases j with
        | zero => exact hpre
        | succ j => exact hbefore j (by simpa using hj)

/-- Where a text and what two replacements made of it agree, neither was made. -/
lemma replaceAll_cancel_twice {c : α} {q v z : List α} (hp : p ≠ []) (hq : q ≠ [])
    (hcp : p.head? ≠ some c) (hcq : q.head? ≠ some c) (hw : w.head? = some c)
    (hv : v.head? = some c) (h : replaceAll q v (replaceAll p w (x ++ y)) = x ++ z) :
    (∀ j < x.length, ¬p <+: (x ++ y).drop j) ∧ replaceAll q v (replaceAll p w y) = z := by
  obtain ⟨w', hw⟩ := List.head?_eq_some_iff.mp hw
  obtain ⟨v', hv⟩ := List.head?_eq_some_iff.mp hv
  induction x with
  | nil => exact ⟨fun j hj => absurd hj (Nat.not_lt_zero j), h⟩
  | cons a x ih =>
      rw [List.cons_append, List.cons_append, replaceAll_cons hp, hw] at h
      split at h
      · rename_i hpre
        have hq' : ∀ l, ¬q <+: c :: l := fun l hl => hcq (head?_of_begins hq hl)
        rw [List.cons_append, replaceAll_cons hq, if_neg (hq' _)] at h
        exact absurd ((head?_of_begins hp hpre).trans (by rw [(List.cons.inj h).1])) hcp
      · rename_i hpre
        rw [← hw, replaceAll_cons hq, hv] at h
        split at h
        · rename_i hqre
          rw [List.cons_append] at h
          exact absurd ((head?_of_begins hq hqre).trans (by rw [(List.cons.inj h).1])) hcq
        · rw [← hv] at h
          obtain ⟨hbefore, hy⟩ := ih (List.cons.inj h).2
          refine ⟨fun j hj => ?_, hy⟩
          cases j with
          | zero => exact hpre
          | succ j => exact hbefore j (by simpa using hj)

omit [DecidableEq α] in
lemma not_infix_of_forall (hp : p ≠ []) (h : ∀ j < l.length, ¬p <+: l.drop j) : ¬p <:+: l := by
  rintro hin
  obtain ⟨i, hi, hpre⟩ := infix_iff_exists_drop.mp hin
  rcases hi.lt_or_eq with hlt | rfl
  · exact h i hlt hpre
  · rw [List.drop_length, List.prefix_nil] at hpre
    exact hp hpre

end Multisite.Lib

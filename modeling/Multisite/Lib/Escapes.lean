import Mathlib.Tactic

/-!
Text with escapes of three symbols: a mark, and two that together stand for one.

* `unescape`: reading it; what is no escape stands for itself;
* `length_unescape_lt`, `unescape_eq_self_iff`: an escape makes the text shorter, so that what is
  read as it stands is what holds none.
-/

namespace Multisite.Lib

variable {α : Type*} [DecidableEq α] (mark : α) (pair : α → α → Option α)

/-- The text with its escapes read. -/
def unescape : List α → List α
  | c :: a :: b :: rest =>
      if c = mark then
        match pair a b with
        | some x => x :: unescape rest
        | none => c :: unescape (a :: b :: rest)
      else c :: unescape (a :: b :: rest)
  | l => l

/-- There is an escape in the text. -/
def hasEscape : List α → Bool
  | c :: a :: b :: rest =>
      (decide (c = mark) && (pair a b).isSome) || hasEscape (a :: b :: rest)
  | _ => false

-- their equations are made here, once, and not by the first lemmas that ask for them
section
attribute [local simp] unescape hasEscape
end

variable {mark pair}

lemma unescape_cons_of_ne {c : α} (h : c ≠ mark) (l : List α) :
    unescape mark pair (c :: l) = c :: unescape mark pair l := by
  cases l with
  | nil => rfl
  | cons a l =>
      cases l with
      | nil => rfl
      | cons b rest => rw [unescape, if_neg h]

lemma unescape_of_some {a b x : α} (h : pair a b = some x) (l : List α) :
    unescape mark pair (mark :: a :: b :: l) = x :: unescape mark pair l := by
  rw [unescape, if_pos rfl, h]

lemma unescape_of_none {a b : α} (h : pair a b = none) (l : List α) :
    unescape mark pair (mark :: a :: b :: l) = mark :: unescape mark pair (a :: b :: l) := by
  rw [unescape, if_pos rfl, h]

lemma length_unescape_le (l : List α) : (unescape mark pair l).length ≤ l.length := by
  induction l using unescape.induct mark pair with
  | case1 a b rest x hx ih =>
      rw [unescape_of_some hx]
      simp only [List.length_cons] at ih ⊢
      omega
  | case2 a b rest hx ih =>
      rw [unescape_of_none hx]
      simp only [List.length_cons] at ih ⊢
      omega
  | case3 c a b rest hc ih =>
      rw [unescape, if_neg hc]
      simp only [List.length_cons] at ih ⊢
      omega
  | case4 l hl => rw [unescape.eq_2 mark pair l hl]

/-- Text without an escape is read as it stands. -/
lemma unescape_of_noEscape {l : List α} (h : hasEscape mark pair l = false) :
    unescape mark pair l = l := by
  induction l using unescape.induct mark pair with
  | case1 a b rest x hx ih => exact absurd h (by simp [hasEscape, hx])
  | case2 a b rest hx ih =>
      rw [hasEscape, Bool.or_eq_false_iff] at h
      rw [unescape_of_none hx, ih h.2]
  | case3 c a b rest hc ih =>
      rw [hasEscape, Bool.or_eq_false_iff] at h
      rw [unescape, if_neg hc, ih h.2]
  | case4 l hl => rw [unescape.eq_2 mark pair l hl]

/-- An escape is three symbols for one. -/
lemma length_unescape_lt {l : List α} (h : hasEscape mark pair l = true) :
    (unescape mark pair l).length < l.length := by
  induction l using unescape.induct mark pair with
  | case1 a b rest x hx ih =>
      have := @length_unescape_le α _ mark pair rest
      rw [unescape_of_some hx]
      simp only [List.length_cons]
      omega
  | case2 a b rest hx ih =>
      rw [hasEscape, hx] at h
      have := ih (by simpa using h)
      rw [unescape_of_none hx]
      simp only [List.length_cons] at this ⊢
      omega
  | case3 c a b rest hc ih =>
      rw [hasEscape, decide_eq_false hc, Bool.false_and, Bool.false_or] at h
      have := ih h
      rw [unescape, if_neg hc]
      simp only [List.length_cons] at this ⊢
      omega
  | case4 l hl =>
      cases l with
      | nil => exact absurd h (by simp [hasEscape])
      | cons c l =>
          cases l with
          | nil => exact absurd h (by simp [hasEscape])
          | cons a l =>
              cases l with
              | nil => exact absurd h (by simp [hasEscape])
              | cons b rest => exact absurd rfl (hl c a b rest)

/-- Only text without an escape is read as it stands. -/
lemma unescape_eq_self_iff {l : List α} :
    unescape mark pair l = l ↔ hasEscape mark pair l = false := by
  constructor
  · intro h
    by_contra hne
    have := length_unescape_lt (Bool.not_eq_false _ ▸ hne)
    rw [h] at this
    exact lt_irrefl _ this
  · exact unescape_of_noEscape

end Multisite.Lib

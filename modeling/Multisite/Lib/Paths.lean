import Mathlib.Tactic

/-!
Paths in a tree of directories: names with a separator in between, a name of one dot that stays
and one of two dots that goes up.

* `names_of_look`: a path without two dots in a row is names of directories below where it starts;
* `look_intercalate`: names, joined, are looked up one after the other.
-/

namespace Multisite.Lib

universe u v

variable {ι : Type u} {α : Type v} [DecidableEq α]

/-- A tree of directories, as names are looked up in it. -/
structure FileTree (ι : Type u) (α : Type v) where
  dir : ι → Bool
  child : ι → List α → Option ι
  parent : ι → ι

namespace FileTree

variable (t : FileTree ι α) (sep dot : α)

/-- A name is looked up. -/
def enter (n : ι) (c : List α) : Option ι :=
  if !t.dir n then none
  else if c = [] ∨ c = [dot] then some n
  else if c = [dot, dot] then some (t.parent n)
  else t.child n c

/-- Names are looked up, one after the other. -/
def walk (n : ι) : List (List α) → Option ι
  | [] => some n
  | c :: cs => (t.enter dot n c).bind fun m => walk m cs

/-- A path is looked up. -/
def look (n : ι) (p : List α) : Option ι := t.walk dot n (p.splitOn sep)

variable {t sep dot} {n m : ι} {c p q : List α} {cs : List (List α)}

lemma walk_append (n : ι) (cs ds : List (List α)) :
    t.walk dot n (cs ++ ds) = (t.walk dot n cs).bind fun m => t.walk dot m ds := by
  induction cs generalizing n with
  | nil => rfl
  | cons c cs ih =>
      rw [List.cons_append, walk, walk, Option.bind_assoc]
      exact Option.bind_congr fun m _ => ih m

/-- What comes after a separator is looked up where what comes before it leads. -/
lemma look_append_cons (n : ι) (p q : List α) :
    t.look sep dot n (p ++ sep :: q) = (t.look sep dot n p).bind fun m => t.look sep dot m q := by
  rw [look, List.splitOn_append_cons_self, walk_append]
  rfl

/-! ### Names in a path -/

/-- A path is one name, or a name and more after a separator. -/
lemma splitOn_eq (sep : α) (p : List α) :
    sep ∉ p ∧ p.splitOn sep = [p] ∨
      ∃ x y, sep ∉ x ∧ p = x ++ sep :: y ∧ p.splitOn sep = x :: y.splitOn sep := by
  by_cases h : sep ∈ p
  · obtain ⟨x, y, rfl, hx⟩ := List.eq_append_cons_of_mem h
    exact Or.inr ⟨x, y, hx, rfl, List.splitOn_append_cons_self_of_not_mem hx y⟩
  · exact Or.inl ⟨h, List.splitOn_eq_singleton h⟩

/-- A name of a path stands in it, and has no separator in it. -/
lemma mem_splitOn (h : c ∈ p.splitOn sep) : c <:+: p ∧ sep ∉ c := by
  -- the induction is on the length of the path, from one name to the rest
  induction hn : p.length using Nat.strong_induction_on generalizing p with
  | _ n ih =>
      rcases splitOn_eq sep p with ⟨hno, hp⟩ | ⟨x, y, hx, rfl, hp⟩
      · rw [hp, List.mem_singleton] at h
        rw [h]
        exact ⟨List.infix_rfl, hno⟩
      · rw [hp] at h
        rcases List.mem_cons.mp h with rfl | h
        · exact ⟨(List.prefix_append _ _).isInfix, hx⟩
        · have hlt : y.length < n := by
            rw [← hn, List.length_append, List.length_cons]
            omega
          obtain ⟨hc, hsep⟩ := ih y.length hlt h rfl
          refine ⟨hc.trans ?_, hsep⟩
          exact ((List.suffix_cons sep y).trans (List.suffix_append x _)).isInfix

omit [DecidableEq α] in
/-- What stands in two parts with a separator between them, and has none in it, stands in one of
the two. -/
lemma infix_append_cons {w x y : List α} (hsep : sep ∉ w) (h : w <:+: x ++ sep :: y) :
    w <:+: x ∨ w <:+: y := by
  obtain ⟨l, r, hlr⟩ := h
  rw [List.append_assoc] at hlr
  rcases List.append_eq_append_iff.mp hlr with ⟨u, rfl, hu⟩ | ⟨u, rfl, hu⟩
  · -- it begins in the first part
    rcases List.append_eq_append_iff.mp hu with ⟨v, rfl, -⟩ | ⟨v, rfl, hv⟩
    · exact Or.inl ⟨l, v, by rw [List.append_assoc]⟩
    · cases v with
      | nil => exact Or.inl ⟨l, [], by simp⟩
      | cons b v =>
          rw [List.cons_append] at hv
          obtain ⟨rfl, -⟩ := List.cons.inj hv
          exact absurd (List.mem_append_right u List.mem_cons_self) hsep
  · -- it begins at the separator, or after it
    cases u with
    | nil =>
        cases w with
        | nil => exact Or.inl List.nil_infix
        | cons b w =>
            rw [List.nil_append, List.cons_append] at hu
            obtain ⟨rfl, -⟩ := List.cons.inj hu
            exact absurd List.mem_cons_self hsep
    | cons b u =>
        rw [List.cons_append] at hu
        obtain ⟨-, rfl⟩ := List.cons.inj hu
        exact Or.inr ⟨u, r, by rw [List.append_assoc]⟩

omit [DecidableEq α] in
/-- And so in names that are joined it stands in one of the names. -/
lemma infix_intercalate {w : List α} (hw : w ≠ []) (hsep : sep ∉ w)
    (h : w <:+: [sep].intercalate cs) : ∃ c ∈ cs, w <:+: c := by
  induction cs with
  | nil => exact absurd (List.eq_nil_of_infix_nil (by simpa using h)) hw
  | cons c cs ih =>
      cases cs with
      | nil => exact ⟨c, List.mem_cons_self, by simpa using h⟩
      | cons d cs =>
          rw [List.intercalate_cons_of_ne_nil (by simp), List.append_assoc,
            List.singleton_append] at h
          rcases infix_append_cons hsep h with h | h
          · exact ⟨c, List.mem_cons_self, h⟩
          · obtain ⟨e, he, hwe⟩ := ih h
            exact ⟨e, List.mem_cons_of_mem _ he, hwe⟩

/-- A path is looked up in a directory. -/
lemma dir_of_look (h : t.look sep dot n p = some m) : t.dir n = true := by
  have hwalk (c : List α) (cs : List (List α)) (h : t.walk dot n (c :: cs) = some m) :
      t.dir n = true := by
    rw [walk, Option.bind_eq_some_iff] at h
    obtain ⟨k, hk, -⟩ := h
    rw [enter] at hk
    split at hk
    · exact absurd hk (by simp)
    · rename_i hdir
      simpa using hdir
  rw [look] at h
  rcases splitOn_eq sep p with ⟨-, hp⟩ | ⟨x, y, -, -, hp⟩
  · exact hwalk p [] (hp ▸ h)
  · exact hwalk x (y.splitOn sep) (hp ▸ h)

/-! ### Paths that do not go up -/

/-- A name that is looked up in a directory, and neither stays nor goes up. -/
structure Plain (sep dot : α) (c : List α) : Prop where
  sep : sep ∉ c
  ne_nil : c ≠ []
  ne_dot : c ≠ [dot]
  undotted : ¬[dot, dot] <:+: c

/-- Names of directories, one in the other, and of what is in the last. -/
def names (t : FileTree ι α) (n : ι) : List (List α) → Option ι
  | [] => some n
  | c :: cs => if t.dir n then (t.child n c).bind fun m => names t m cs else none

/-- Names that do not go up are looked up in directories below. -/
lemma names_of_walk (hup : ∀ c ∈ cs, ¬[dot, dot] <:+: c) (h : t.walk dot n cs = some m) :
    t.names n (cs.filter fun c => c ≠ [] ∧ c ≠ [dot]) = some m := by
  induction cs generalizing n with
  | nil => exact h
  | cons c cs ih =>
      rw [walk, Option.bind_eq_some_iff] at h
      obtain ⟨k, hk, hrest⟩ := h
      have hrest' := ih (fun d hd => hup d (List.mem_cons_of_mem _ hd)) hrest
      have hc := hup c List.mem_cons_self
      rw [enter] at hk
      split at hk
      · exact absurd hk (by simp)
      · rename_i hdir
        split at hk
        · rename_i hstay
          obtain rfl := Option.some.inj hk
          rw [List.filter_cons_of_neg (by simpa [or_iff_not_imp_left] using hstay)]
          exact hrest'
        · rename_i hgo
          split at hk
          · rename_i hdots
            exact absurd List.infix_rfl (hdots ▸ hc)
          · rw [List.filter_cons_of_pos (by simpa [not_or] using hgo), names,
              if_pos (by simpa using hdir), hk]
            exact hrest'

/-- **A path without two dots in a row is names of directories below where it starts.** -/
theorem names_of_look (hup : ¬[dot, dot] <:+: p) (h : t.look sep dot n p = some m) :
    ∃ cs, (∀ c ∈ cs, Plain sep dot c) ∧ (∀ c ∈ cs, c <:+: p) ∧ t.names n cs = some m := by
  have hin (c : List α) (hc : c ∈ p.splitOn sep) : ¬[dot, dot] <:+: c :=
    fun hd => hup (hd.trans (mem_splitOn hc).1)
  refine ⟨_, fun c hc => ?_, fun c hc => ?_, names_of_walk hin h⟩
  · rw [List.mem_filter, decide_eq_true_eq] at hc
    exact ⟨(mem_splitOn hc.1).2, hc.2.1, hc.2.2, hin c hc.1⟩
  · exact (mem_splitOn (List.mem_filter.mp hc).1).1

lemma walk_of_names (hplain : ∀ c ∈ cs, Plain sep dot c) (h : t.names n cs = some m) :
    t.walk dot n cs = some m := by
  induction cs generalizing n with
  | nil => exact h
  | cons c cs ih =>
      rw [names] at h
      obtain ⟨hdir, h⟩ := Option.ite_none_right_eq_some.mp h
      obtain ⟨k, hk, hrest⟩ := Option.bind_eq_some_iff.mp h
      have hc := hplain c List.mem_cons_self
      have hdots : c ≠ [dot, dot] := fun hd => hc.undotted (hd ▸ List.infix_rfl)
      rw [walk, enter, if_neg (by simp [hdir]), if_neg (by simp [hc.ne_nil, hc.ne_dot]),
        if_neg hdots, hk, Option.bind_some]
      exact ih (fun d hd => hplain d (List.mem_cons_of_mem _ hd)) hrest

/-- **Names that are joined are looked up one after the other.** -/
theorem look_intercalate (hplain : ∀ c ∈ cs, Plain sep dot c) (hne : cs ≠ [])
    (h : t.names n cs = some m) : t.look sep dot n ([sep].intercalate cs) = some m := by
  rw [look, List.splitOn_intercalate sep (fun c hc => (hplain c hc).sep) hne]
  exact walk_of_names hplain h

end FileTree

end Multisite.Lib

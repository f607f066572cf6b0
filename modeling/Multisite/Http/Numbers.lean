import Mathlib.Data.List.TakeWhile
import Multisite.Http.Server

/-!
Numbers in text: what `std::to_string` writes, and what `strtoll` reads.

* `digits_toString`: a number written out is digits, and they stand for it;
* `strtoll_toString`: it is read back, as far as it fits.
-/

namespace Multisite.Http

/-! ### Writing -/

/-- The number that decimal digits stand for. -/
def digitsValue (ds : Bytes) : ℕ := ds.foldl (fun n c => 10 * n + (c.toNat - 48)) 0

lemma toNat_ofNat_of_isDigit {c : Char} (hc : c.isDigit = true) :
    (UInt8.ofNat c.toNat).toNat = c.toNat ∧ 48 ≤ c.toNat ∧ c.toNat ≤ 57 := by
  have hrange : 48 ≤ c.toNat ∧ c.toNat ≤ 57 := by
    unfold Char.isDigit at hc
    rw [Bool.and_eq_true, decide_eq_true_eq, decide_eq_true_eq] at hc
    exact ⟨UInt32.le_iff_toNat_le.mp hc.1, UInt32.le_iff_toNat_le.mp hc.2⟩
  refine ⟨?_, hrange⟩
  simp
  omega

/-- A number written out is digits, and they stand for it. -/
lemma digits_toString (n : ℕ) :
    bytesOf (toString n) ≠ [] ∧ (∀ c ∈ bytesOf (toString n), isDigit c = true) ∧
      digitsValue (bytesOf (toString n)) = n := by
  have hlist : (toString n).toList = Nat.toDigits 10 n := by
    rw [Nat.toString_eq_ofList_toDigits, String.toList_ofList]
  have hdigit : ∀ c ∈ Nat.toDigits 10 n, c.isDigit = true := fun c hc =>
    Nat.isDigit_of_mem_toDigits (by decide) (by decide) hc
  unfold bytesOf digitsValue
  rw [hlist]
  refine ⟨by simp [Nat.toDigits_ne_nil], fun b hb => ?_, ?_⟩
  · obtain ⟨c, hc, rfl⟩ := List.mem_map.mp hb
    obtain ⟨hval, hlow, hhigh⟩ := toNat_ofNat_of_isDigit (hdigit c hc)
    simp only [isDigit, Bool.and_eq_true, decide_eq_true_eq, UInt8.le_iff_toNat_le, hval]
    exact ⟨hlow, hhigh⟩
  · rw [List.foldl_map]
    have hfold (l : List Char) (hl : ∀ c ∈ l, c.isDigit = true) (init : ℕ) :
        l.foldl (fun n c => 10 * n + ((UInt8.ofNat c.toNat).toNat - 48)) init
          = Nat.ofDigitChars 10 l init := by
      induction l generalizing init with
      | nil => rfl
      | cons c l ih =>
          rw [List.foldl_cons, Nat.ofDigitChars_cons,
            ih fun d hd => hl d (List.mem_cons_of_mem _ hd),
            (toNat_ofNat_of_isDigit (hl c List.mem_cons_self)).1]
          rfl
    rw [hfold _ hdigit, Nat.ofDigitChars_ten_toDigits]

/-! ### Reading -/

/-- A digit of a base. -/
def digitOf (base : ℕ) (c : UInt8) : Option ℕ :=
  (hexValue c).bind fun d => if d.toNat < base then some d.toNat else none

/-- The number that digits of a base stand for. -/
def valueIn (base : ℕ) (ds : Bytes) : ℕ :=
  ds.foldl (fun n c => base * n + (digitOf base c).getD 0) 0

/-- `strtoll`: blanks, a sign, the mark of the base if it is sixteen, and digits; what does not fit
is the nearest that does. -/
def strtoll (base : ℕ) (s : Bytes) : ℤ :=
  let s := s.dropWhile isSpace
  let neg := s.head? = some 45
  let s := if s.head? = some 45 ∨ s.head? = some 43 then s.drop 1 else s
  let s := if base = 16 ∧ (s.take 2 = [48, 120] ∨ s.take 2 = [48, 88]) then s.drop 2 else s
  let ds := s.takeWhile fun c => (digitOf base c).isSome
  let n : ℤ := valueIn base ds
  max (-2 ^ 63) (min (if neg then -n else n) (2 ^ 63 - 1))

lemma digitOf_of_isDigit {c : UInt8} (hc : isDigit c = true) :
    digitOf 10 c = some (c.toNat - 48) := by
  have hrange : 48 ≤ c ∧ c ≤ 57 := by simpa [isDigit] using hc
  have hlow := UInt8.le_iff_toNat_le.mp hrange.1
  have hhigh := UInt8.le_iff_toNat_le.mp hrange.2
  have hsub : (c - 48).toNat = c.toNat - 48 := UInt8.toNat_sub_of_le _ _ hrange.1
  have hlt : (c - 48).toNat < 10 := by
    rw [hsub]
    simp at hlow hhigh
    omega
  rw [digitOf, hexValue, if_pos hrange, Option.bind_some, if_pos hlt, hsub]

/-- What does not begin with a blank or a sign is read from its first byte on. -/
lemma strtoll_digits {ds : Bytes} (hds : ∀ c ∈ ds, isDigit c = true) :
    strtoll 10 ds = max (-2 ^ 63) (min (digitsValue ds : ℤ) (2 ^ 63 - 1)) := by
  have hspace : ds.dropWhile isSpace = ds := by
    cases ds with
    | nil => rfl
    | cons c ds =>
        refine List.dropWhile_cons_of_neg ?_
        have hc := hds c List.mem_cons_self
        simp only [isDigit, isSpace, Bool.and_eq_true, Bool.or_eq_true, decide_eq_true_eq,
          UInt8.le_iff_toNat_le, ← UInt8.toNat_inj] at hc ⊢
        simp at hc ⊢
        omega
  have hsign (d : UInt8) (hd : isDigit d = false) : ds.head? ≠ some d := by
    intro hhead
    have := hds d (List.mem_of_mem_head? hhead)
    rw [hd] at this
    exact absurd this (by decide)
  have htake : ds.takeWhile (fun c => (digitOf 10 c).isSome) = ds := by
    refine List.takeWhile_eq_self_iff.mpr fun c hc => ?_
    rw [digitOf_of_isDigit (hds c hc)]
    rfl
  have hvalue : valueIn 10 ds = digitsValue ds := by
    refine List.foldl_ext _ _ _ fun n c hc => ?_
    rw [digitOf_of_isDigit (hds c hc), Option.getD_some]
  have hbase : ¬ ((10 : ℕ) = 16 ∧ (ds.take 2 = [48, 120] ∨ ds.take 2 = [48, 88])) := by simp
  simp only [strtoll, hspace, hsign 45 (by decide), hsign 43 (by decide), or_self, if_false,
    if_neg hbase, htake, hvalue]

/-- A number written out is read back. -/
lemma strtoll_toString {n : ℕ} (hn : n < 2 ^ 63) : strtoll 10 (bytesOf (toString n)) = n := by
  obtain ⟨-, hdigits, hval⟩ := digits_toString n
  rw [strtoll_digits hdigits, hval]
  omega

end Multisite.Http

import Mathlib.Tactic

/-!
Texts in UTF-8, as bytes: where such a text may be cut.

* `IsUtf8.cut`: in front of a byte that continues no character a text falls into two texts;
* `IsUtf8.exists_boundary`: such a byte is never more than three bytes back.
-/

namespace Multisite.Lib

/-- A byte in the middle of a character, `10xxxxxx`. -/
def isContinuation (c : UInt8) : Bool := c &&& 0xC0 == 0x80

/-- The text of these characters. -/
def utf8 (cs : List Char) : List UInt8 := cs.flatMap String.utf8EncodeChar

/-- A text of whole characters. -/
def IsUtf8 (b : List UInt8) : Prop := ∃ cs, b = utf8 cs

@[simp] lemma utf8_nil : utf8 [] = [] := rfl

@[simp] lemma utf8_cons (c : Char) (cs : List Char) :
    utf8 (c :: cs) = String.utf8EncodeChar c ++ utf8 cs := List.flatMap_cons ..

@[simp] lemma utf8_append (cs ds : List Char) : utf8 (cs ++ ds) = utf8 cs ++ utf8 ds :=
  List.flatMap_append ..

lemma isUtf8_nil : IsUtf8 [] := ⟨[], rfl⟩

lemma IsUtf8.append {a b : List UInt8} (ha : IsUtf8 a) (hb : IsUtf8 b) : IsUtf8 (a ++ b) := by
  obtain ⟨cs, rfl⟩ := ha
  obtain ⟨ds, rfl⟩ := hb
  exact ⟨cs ++ ds, (utf8_append cs ds).symm⟩

/-! ### One character -/

lemma isContinuation_low {n : ℕ} (h : n < 64) : isContinuation (UInt8.ofNat n + 0x80) = true := by
  interval_cases n <;> rfl

lemma not_isContinuation_ascii {n : ℕ} (h : n < 128) : isContinuation (UInt8.ofNat n) = false := by
  interval_cases n <;> rfl

lemma not_isContinuation_head {n : ℕ} (h : n < 64) :
    isContinuation (UInt8.ofNat (n + 0xC0)) = false := by
  interval_cases n <;> rfl

/-- A character is a byte that continues none, and up to three that do; a byte of ASCII is a
character of its own. -/
lemma encode_spec (c : Char) : ∃ h t, String.utf8EncodeChar c = h :: t ∧
    isContinuation h = false ∧ (∀ x ∈ t, isContinuation x = true) ∧ t.length ≤ 3 ∧
      (h.toNat < 128 → t = []) := by
  have hmod (n : ℕ) : n % 64 < 64 := Nat.mod_lt _ (by decide)
  have hhigh {n : ℕ} (hn : n < 64) : ¬(UInt8.ofNat (n + 0xC0)).toNat < 128 := by
    rw [UInt8.toNat_ofNat']
    omega
  rw [String.utf8EncodeChar]
  set v := c.val.toNat
  split
  · exact ⟨_, _, rfl, not_isContinuation_ascii (by omega), by simp, by simp, fun _ => rfl⟩
  split
  · have hlow : v / 64 % 32 < 64 := by omega
    refine ⟨_, _, rfl, not_isContinuation_head hlow, ?_, by simp, fun h => absurd h (hhigh hlow)⟩
    simp [isContinuation_low (hmod v)]
  split
  · have heq : v / 4096 % 16 + 0xE0 = (v / 4096 % 16 + 0x20) + 0xC0 := by omega
    have hlow : v / 4096 % 16 + 0x20 < 64 := by omega
    rw [heq]
    refine ⟨_, _, rfl, not_isContinuation_head hlow, ?_, by simp, fun h => absurd h (hhigh hlow)⟩
    simp [isContinuation_low (hmod v), isContinuation_low (hmod (v / 64))]
  · have heq : v / 262144 % 8 + 0xF0 = (v / 262144 % 8 + 0x30) + 0xC0 := by omega
    have hlow : v / 262144 % 8 + 0x30 < 64 := by omega
    rw [heq]
    refine ⟨_, _, rfl, not_isContinuation_head hlow, ?_, by simp, fun h => absurd h (hhigh hlow)⟩
    simp [isContinuation_low (hmod v), isContinuation_low (hmod (v / 64)),
      isContinuation_low (hmod (v / 4096))]

/-! ### Where a text may be cut -/

variable {b : List UInt8} {k : ℕ}

/-- In front of a byte that continues no character a text falls into two. -/
theorem IsUtf8.cut (h : IsUtf8 b) (hk : k ≤ b.length)
    (hhead : ∀ x, b[k]? = some x → isContinuation x = false) :
    IsUtf8 (b.take k) ∧ IsUtf8 (b.drop k) := by
  obtain ⟨cs, rfl⟩ := h
  induction cs generalizing k with
  | nil => exact ⟨by simpa using isUtf8_nil, by simpa using isUtf8_nil⟩
  | cons c cs ih =>
      obtain ⟨x, t, hc, -, ht, -, -⟩ := encode_spec c
      have hchar : IsUtf8 (String.utf8EncodeChar c) := ⟨[c], by simp⟩
      have hlen : (String.utf8EncodeChar c).length = t.length + 1 := by rw [hc, List.length_cons]
      rw [utf8_cons] at hk hhead ⊢
      obtain hlt | hge := lt_or_ge k (t.length + 1)
      · cases k with
        | zero => exact ⟨by simpa using isUtf8_nil, ⟨c :: cs, by simp⟩⟩
        | succ k =>
            -- the rest of the character continues it
            have hin : k < t.length := by omega
            have hx := hhead t[k] (by
              rw [hc, List.cons_append, List.getElem?_cons_succ, List.getElem?_append_left hin,
                List.getElem?_eq_getElem hin])
            rw [ht _ (List.getElem_mem hin)] at hx
            exact absurd hx (by decide)
      · obtain ⟨j, rfl⟩ := Nat.exists_eq_add_of_le hge
        rw [← hlen] at hk hhead ⊢
        rw [List.length_append] at hk
        rw [List.getElem?_append_right (by omega), Nat.add_sub_cancel_left] at hhead
        obtain ⟨htake, hdrop⟩ := ih (by omega) hhead
        rw [List.take_length_add_append, List.drop_length_add_append]
        exact ⟨hchar.append htake, hdrop⟩

/-- A byte that continues no character is never more than three bytes back. -/
theorem IsUtf8.exists_boundary (h : IsUtf8 b) (hk : k < b.length) :
    ∃ j x, j ≤ k ∧ k ≤ j + 3 ∧ b[j]? = some x ∧ isContinuation x = false := by
  obtain ⟨cs, rfl⟩ := h
  induction cs generalizing k with
  | nil => exact absurd hk (by simp)
  | cons c cs ih =>
      obtain ⟨x, t, hc, hx, -, ht, -⟩ := encode_spec c
      rw [utf8_cons, hc] at hk ⊢
      obtain hlt | hge := lt_or_ge k (t.length + 1)
      · exact ⟨0, x, by omega, by omega, rfl, hx⟩
      · obtain ⟨i, rfl⟩ := Nat.exists_eq_add_of_le hge
        rw [List.length_append, List.length_cons] at hk
        obtain ⟨j, y, hj, hji, hy, hhead⟩ := ih (k := i) (by omega)
        refine ⟨t.length + 1 + j, y, by omega, by omega, ?_, hhead⟩
        rw [List.getElem?_append_right (by simp)]
        simpa using hy

/-- After a byte of ASCII a character begins. -/
theorem IsUtf8.drop_ascii {x : UInt8} {t : List UInt8} (h : IsUtf8 (x :: t)) (hx : x.toNat < 128) :
    IsUtf8 t := by
  obtain ⟨cs, hcs⟩ := h
  cases cs with
  | nil => exact absurd hcs (by simp)
  | cons c cs =>
      obtain ⟨y, u, hc, -, -, -, hascii⟩ := encode_spec c
      rw [utf8_cons, hc, List.cons_append, List.cons.injEq] at hcs
      obtain ⟨rfl, rfl⟩ := hcs
      rw [hascii hx]
      exact ⟨cs, rfl⟩

end Multisite.Lib

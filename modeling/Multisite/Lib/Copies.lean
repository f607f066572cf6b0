import Mathlib.Tactic

/-!
Copies of runs of elements from buffers into one buffer.

* `Copy.into_of_fits`: what a copy that fits changes, and what it leaves;
* `copyAll_of_apart`: copies that fit and stay out of each other's way are all found in the
  buffer when they are done.
-/

namespace Multisite.Lib

variable {α : Type*}

/-- `count` elements of `src` from `off` on, to be put at `dst`. -/
structure Copy (α : Type*) where
  dst : ℕ
  src : List α
  off : ℕ
  count : ℕ

namespace Copy

/-- What is read exists, and what is written has room in a buffer of that length. -/
structure Fits (c : Copy α) (room : ℕ) : Prop where
  reads : c.off + c.count ≤ c.src.length
  writes : c.dst + c.count ≤ room

/-- The two are written to different places. -/
def Apart (c d : Copy α) : Prop := c.dst + c.count ≤ d.dst ∨ d.dst + d.count ≤ c.dst

/-- The copy made; there is none outside a buffer. -/
def into (c : Copy α) (buf : List α) : Option (List α) :=
  if c.off + c.count ≤ c.src.length ∧ c.dst + c.count ≤ buf.length then
    some (buf.take c.dst ++ ((c.src.drop c.off).take c.count ++ buf.drop (c.dst + c.count)))
  else none

/-- A copy that fits puts its run in place and leaves the rest. -/
lemma into_of_fits {c : Copy α} {buf : List α} (h : c.Fits buf.length) :
    ∃ r, c.into buf = some r ∧ r.length = buf.length ∧
      (∀ i < c.count, r[c.dst + i]? = c.src[c.off + i]?) ∧
      ∀ j, j < c.dst ∨ c.dst + c.count ≤ j → r[j]? = buf[j]? := by
  obtain ⟨hreads, hwrites⟩ := h
  have hrun : ((c.src.drop c.off).take c.count).length = c.count := by
    simp only [List.length_take, List.length_drop]
    omega
  have hfront : (buf.take c.dst).length = c.dst := by
    simp only [List.length_take]
    omega
  refine ⟨_, if_pos ⟨hreads, hwrites⟩, ?_, fun i hi => ?_, fun j hj => ?_⟩
  · simp only [List.length_append, hrun, hfront, List.length_drop]
    omega
  · rw [List.getElem?_append_right (by omega), hfront, Nat.add_sub_cancel_left,
      List.getElem?_append_left (by omega), List.getElem?_take_of_lt hi, List.getElem?_drop]
  · obtain hj | hj := hj
    · rw [List.getElem?_append_left (by omega), List.getElem?_take_of_lt hj]
    · rw [List.getElem?_append_right (by omega), hfront, List.getElem?_append_right (by omega),
        hrun, List.getElem?_drop]
      congr 1
      omega

end Copy

/-- The copies made one after the other. -/
def copyAll (buf : List α) : List (Copy α) → Option (List α)
  | [] => some buf
  | c :: cs => (c.into buf).bind fun r => copyAll r cs

/-- Copies that fit and are apart are all found in the buffer; the rest of it is as before. -/
theorem copyAll_of_apart {cs : List (Copy α)} (buf : List α)
    (hfits : ∀ c ∈ cs, c.Fits buf.length) (hapart : cs.Pairwise Copy.Apart) :
    ∃ r, copyAll buf cs = some r ∧ r.length = buf.length ∧
      (∀ c ∈ cs, ∀ i < c.count, r[c.dst + i]? = c.src[c.off + i]?) ∧
      ∀ j, (∀ c ∈ cs, j < c.dst ∨ c.dst + c.count ≤ j) → r[j]? = buf[j]? := by
  induction cs generalizing buf with
  | nil => exact ⟨buf, rfl, rfl, by simp, fun _ _ => rfl⟩
  | cons c cs ih =>
      obtain ⟨hhead, htail⟩ := List.pairwise_cons.mp hapart
      obtain ⟨b, hb, hlen, hrun, hrest⟩ := Copy.into_of_fits (hfits c List.mem_cons_self)
      have hfits' : ∀ d ∈ cs, d.Fits b.length := by
        intro d hd
        rw [hlen]
        exact hfits d (List.mem_cons_of_mem _ hd)
      obtain ⟨r, hr, hrlen, hruns, hkept⟩ := ih b hfits' htail
      refine ⟨r, ?_, hrlen.trans hlen, ?_, fun j hj => ?_⟩
      · rw [copyAll, hb, Option.bind_some, hr]
      · intro d hd i hi
        rcases List.mem_cons.mp hd with rfl | hd
        · rw [hkept _ fun e he => ?_, hrun i hi]
          rcases hhead e he with h | h
          · exact .inl (by omega)
          · exact .inr (by omega)
        · exact hruns d hd i hi
      · rw [hkept j fun d hd => hj d (List.mem_cons_of_mem _ hd),
          hrest j (hj c List.mem_cons_self)]

end Multisite.Lib

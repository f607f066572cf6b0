import Mathlib.Tactic

/-!
Reading a stream that arrives in pieces, until what has been read is enough or too much.

* `readUntil`: the reader; the limit is applied to each piece as it comes, before what has been
  read is looked at;
* `readUntil_enough`, `readUntil_tooMuch`, `readUntil_gone`: what each end of a read says;
* `singles`, `readUntil_singles`: the stream one element at a time, which never reads past what is
  enough.
-/

namespace Multisite.Lib

variable {α : Type*}

/-- How a read ends: with enough read and the pieces left, past the limit, or at the end of the
stream. -/
inductive ReadEnd (α : Type*) where
  | enough (buf : List α) (left : List (List α))
  | tooMuch
  | gone

variable (enough tooMuch : List α → Bool)

/-- Reads a piece at a time until there is enough. -/
def readUntil (buf : List α) : List (List α) → ReadEnd α
  | [] => if enough buf then .enough buf [] else .gone
  | c :: cs =>
      if enough buf then .enough buf (c :: cs)
      else if tooMuch (buf ++ c) then .tooMuch
      else readUntil (buf ++ c) cs

variable {enough tooMuch} {buf buf' : List α} {cs cs' : List (List α)}

lemma readUntil_of_enough (h : enough buf = true) :
    readUntil enough tooMuch buf cs = .enough buf cs := by
  cases cs <;> rw [readUntil, if_pos h]

lemma readUntil_nil (h : enough buf = false) : readUntil enough tooMuch buf [] = .gone := by
  rw [readUntil, if_neg (by rw [h]; exact Bool.false_ne_true)]

lemma readUntil_cons {c : List α} (h : enough buf = false) :
    readUntil enough tooMuch buf (c :: cs) =
      if tooMuch (buf ++ c) then .tooMuch else readUntil enough tooMuch (buf ++ c) cs := by
  rw [readUntil, if_neg (by rw [h]; exact Bool.false_ne_true)]

/-- **Enough**: nothing is lost, and either nothing was read or the last piece made it enough. -/
lemma readUntil_enough (h : readUntil enough tooMuch buf cs = .enough buf' cs') :
    enough buf' = true ∧ buf' ++ cs'.flatten = buf ++ cs.flatten ∧ (∀ c ∈ cs', c ∈ cs) ∧
      (buf' = buf ∧ cs' = cs ∨ ∃ b c, buf' = b ++ c ∧ c ∈ cs ∧ enough b = false ∧
        tooMuch (b ++ c) = false) := by
  induction cs generalizing buf with
  | nil =>
      cases he : enough buf with
      | true =>
          rw [readUntil_of_enough he] at h
          cases h
          exact ⟨he, rfl, fun c hc => hc, Or.inl ⟨rfl, rfl⟩⟩
      | false =>
          rw [readUntil_nil he] at h
          cases h
  | cons c cs ih =>
      cases he : enough buf with
      | true =>
          rw [readUntil_of_enough he] at h
          cases h
          exact ⟨he, rfl, fun c hc => hc, Or.inl ⟨rfl, rfl⟩⟩
      | false =>
          rw [readUntil_cons he] at h
          cases ht : tooMuch (buf ++ c) with
          | true =>
              rw [ht, if_pos rfl] at h
              cases h
          | false =>
              rw [ht, if_neg Bool.false_ne_true] at h
              obtain ⟨henough, htotal, hleft, hlast⟩ := ih h
              refine ⟨henough, ?_, fun c' hc' => List.mem_cons_of_mem _ (hleft c' hc'), Or.inr ?_⟩
              · rw [htotal, List.flatten_cons, List.append_assoc]
              · rcases hlast with ⟨rfl, -⟩ | ⟨b, c', hbuf, hmem, hb, hlimit⟩
                · exact ⟨buf, c, rfl, List.mem_cons_self, he, ht⟩
                · exact ⟨b, c', hbuf, List.mem_cons_of_mem _ hmem, hb, hlimit⟩

/-- **Past the limit**: a piece took what was read there before it was enough. -/
lemma readUntil_tooMuch (h : readUntil enough tooMuch buf cs = .tooMuch) :
    ∃ b c, c ∈ cs ∧ b ++ c <+: buf ++ cs.flatten ∧ enough b = false ∧
      tooMuch (b ++ c) = true := by
  induction cs generalizing buf with
  | nil =>
      cases he : enough buf with
      | true =>
          rw [readUntil_of_enough he] at h
          cases h
      | false =>
          rw [readUntil_nil he] at h
          cases h
  | cons c cs ih =>
      cases he : enough buf with
      | true =>
          rw [readUntil_of_enough he] at h
          cases h
      | false =>
          rw [readUntil_cons he] at h
          have htotal : buf ++ (c :: cs).flatten = buf ++ c ++ cs.flatten := by
            rw [List.flatten_cons, List.append_assoc]
          rw [htotal]
          cases ht : tooMuch (buf ++ c) with
          | true => exact ⟨buf, c, List.mem_cons_self, List.prefix_append _ _, he, ht⟩
          | false =>
              rw [ht, if_neg Bool.false_ne_true] at h
              obtain ⟨b, c', hmem, hpre, hb, hlimit⟩ := ih h
              exact ⟨b, c', List.mem_cons_of_mem _ hmem, hpre, hb, hlimit⟩

/-- **The end of the stream**: all of it is not enough, and nothing read was past the limit. -/
lemma readUntil_gone (h : readUntil enough tooMuch buf cs = .gone) :
    enough (buf ++ cs.flatten) = false ∧
      (cs = [] ∨ tooMuch (buf ++ cs.flatten) = false) := by
  induction cs generalizing buf with
  | nil =>
      rw [List.flatten_nil, List.append_nil]
      cases he : enough buf with
      | true =>
          rw [readUntil_of_enough he] at h
          cases h
      | false => exact ⟨rfl, Or.inl rfl⟩
  | cons c cs ih =>
      cases he : enough buf with
      | true =>
          rw [readUntil_of_enough he] at h
          cases h
      | false =>
          rw [readUntil_cons he] at h
          cases ht : tooMuch (buf ++ c) with
          | true =>
              rw [ht, if_pos rfl] at h
              cases h
          | false =>
              rw [ht, if_neg Bool.false_ne_true] at h
              rw [List.flatten_cons, ← List.append_assoc]
              obtain ⟨henough, hlast⟩ := ih h
              refine ⟨henough, Or.inr ?_⟩
              rcases hlast with rfl | hlimit
              · rw [List.flatten_nil, List.append_nil]
                exact ht
              · exact hlimit

/-! ### One element at a time -/

/-- The stream one element at a time. -/
def singles (l : List α) : List (List α) := l.map fun a => [a]

@[simp] lemma flatten_singles (l : List α) : (singles l).flatten = l := by
  induction l with
  | nil => rfl
  | cons a l ih =>
      rw [singles, List.map_cons, List.flatten_cons]
      exact congrArg (a :: ·) ih

lemma length_of_mem_singles {l c : List α} (h : c ∈ singles l) : c.length = 1 := by
  obtain ⟨a, -, rfl⟩ := List.mem_map.mp h
  rfl

/-- Never enough and never past the limit on the way through `l`: one element at a time, exactly
`l` is read before what follows. -/
lemma readUntil_singles {l : List α} (hbefore : ∀ m, m <+: l → m ≠ l → enough (buf ++ m) = false)
    (hlimit : ∀ m, m <+: l → m ≠ [] → tooMuch (buf ++ m) = false) (cs : List (List α)) :
    readUntil enough tooMuch buf (singles l ++ cs) = readUntil enough tooMuch (buf ++ l) cs := by
  induction l generalizing buf with
  | nil =>
      rw [List.append_nil]
      rfl
  | cons a l ih =>
      have he : enough buf = false := by
        have := hbefore [] List.nil_prefix (by simp)
        rwa [List.append_nil] at this
      have ha : tooMuch (buf ++ [a]) = false := hlimit [a] ⟨l, rfl⟩ (by simp)
      have hcons : singles (a :: l) ++ cs = [a] :: (singles l ++ cs) := rfl
      have hassoc (m : List α) : buf ++ a :: m = buf ++ [a] ++ m := by
        rw [List.append_assoc, List.singleton_append]
      rw [hcons, readUntil_cons he, ha, if_neg Bool.false_ne_true, hassoc l]
      refine ih (fun m hm hne => ?_) fun m hm _ => ?_
      · rw [← hassoc]
        exact hbefore (a :: m) ((List.prefix_cons_inj a).mpr hm) (by simpa using hne)
      · rw [← hassoc]
        exact hlimit (a :: m) ((List.prefix_cons_inj a).mpr hm) (by simp)

lemma singles_append (l t : List α) : singles (l ++ t) = singles l ++ singles t := List.map_append

end Multisite.Lib

import Multisite.Storage.Manager
import Multisite.Lib.Digits

/-!
The ids of events (`make_event_id`), the time they carry (`event_id_time_ms`) and their order.

Of a time the lowest 50 bits are written, and 0 stands for the present.

* `timeChars_eq`: the first ten characters are the time, in base 32;
* `makeEventId_lt`: ids are in the order of their times;
* `ids_follow_time`: what deletion by age and the newest events of a list rely on.
-/

namespace Multisite

open Lib

/-! ### Writing an id -/

/-- `B32`. -/
def b32 (d : ℕ) : Char := kAlphabet.getD d '0'

/-- The first characters of an id: the digits of the time, the last one first. -/
def timeChars : ℕ → ℕ → List Char
  | 0, _ => []
  | n + 1, ts => timeChars n (ts >>> 5) ++ [b32 (ts &&& 31)]

/-- `make_event_id`, with what the clock says and the sixteen numbers drawn. -/
def makeEventId (now t : ℤ) (draws : Fin 16 → Fin 32) : String :=
  let t := if t = 0 then now else t
  let ts := (t % 2 ^ 64).toNat
  String.ofList (timeChars 10 ts ++ List.ofFn fun i => b32 (draws i))

lemma timeChars_eq (n ts : ℕ) : timeChars n ts = (digits 32 n ts).map b32 := by
  induction n generalizing ts with
  | zero => rfl
  | succ n ih =>
      rw [timeChars, digits, ih, List.map_append, Nat.shiftRight_eq_div_pow,
        show ts &&& 31 = ts % 32 from Nat.and_two_pow_sub_one_eq_mod ts 5]
      rfl

/-! ### The alphabet -/

lemma b32_lt : ∀ d e, d < e → e < 32 → b32 d < b32 e := by
  have h : ∀ e : Fin 32, ∀ d : Fin 32, d < e → b32 d < b32 e := by decide +kernel
  intro d e hde he
  exact h ⟨e, he⟩ ⟨d, hde.trans he⟩ hde

/-- A digit is read back from its sign, large or small. -/
lemma idxOf?_b32 {d : ℕ} (hd : d < 32) : kAlphabet.idxOf? (b32 d).toUpper = some d ∧
    kAlphabet.idxOf? (b32 d).toLower.toUpper = some d := by
  have h : ∀ d : Fin 32, kAlphabet.idxOf? (b32 d).toUpper = some d.val ∧
      kAlphabet.idxOf? (b32 d).toLower.toUpper = some d.val := by
    decide +kernel
  exact h ⟨d, hd⟩

/-! ### Reading it -/

/-- The time ten digits stand for, if it is one that an event may have. -/
def dated (clock ms : ℤ) : ℤ :=
  if ms < 1577836800000 ∨ clock + 24 * 60 * 60 * 1000 < ms then 0 else ms

/-- Ten signs that are the digits of a time, and something after them. -/
lemma eventIdTimeMs_of_signs {clock : ℤ} {ts : ℕ} {sign : ℕ → Char}
    (hsign : ∀ d < 32, kAlphabet.idxOf? (sign d).toUpper = some d) (tail : List Char) :
    eventIdTimeMs clock (String.ofList ((digits 32 10 ts).map sign ++ tail)) =
      dated clock ((ts % 2 ^ 50 : ℕ) : ℤ) := by
  have hlen : ((digits 32 10 ts).map sign).length = 10 := by simp
  have hread : ((digits 32 10 ts).map sign).map (fun c => kAlphabet.idxOf? c.toUpper) =
      (digits 32 10 ts).map some := by
    rw [List.map_map]
    exact List.map_congr_left fun d hd => hsign d (lt_of_mem_digits (by decide) hd)
  have hcast (l : List ℕ) (v : ℕ) :
      (l >>= fun d => pure (d : ℤ)).foldl (fun ms d => ms * 32 + d) (v : ℤ) =
        ((l.foldl (fun v d => v * 32 + d) v : ℕ) : ℤ) := by
    induction l generalizing v with
    | nil => rfl
    | cons d l ih =>
        rw [List.foldl_cons, ← ih]
        push_cast
        rfl
  have hvalue := (hcast (digits 32 10 ts) 0).trans (congrArg Nat.cast (ofDigits_digits 32 10 ts))
  rw [Nat.cast_zero] at hvalue
  rw [eventIdTimeMs, String.toList_ofList, List.take_left' hlen]
  dsimp only
  rw [hread, if_neg]
  · rw [List.filterMap_map]
    simp only [Function.comp_def, id_eq, List.filterMap_some]
    rw [hvalue]
    rfl
  · simp

/-- What is read is a time that an event may have, or 0. -/
lemma dated_cases (clock ms : ℤ) :
    dated clock ms = 0 ∨ 1577836800000 ≤ dated clock ms ∧
      dated clock ms ≤ clock + 24 * 60 * 60 * 1000 := by
  rw [dated]
  split
  · exact Or.inl rfl
  · rename_i h
    push Not at h
    exact Or.inr h

/-- The order of ids is that of their times. -/
lemma makeEventId_lt {now now' t u : ℤ} (ht : 0 < t) (htu : t < u) (hu : u < 2 ^ 50)
    (draws draws' : Fin 16 → Fin 32) : makeEventId now t draws < makeEventId now' u draws' := by
  have hmod {v : ℤ} (hv : 0 < v) (hv' : v < 2 ^ 50) : v % 2 ^ 64 = v :=
    Int.emod_eq_of_lt hv.le (by omega)
  rw [makeEventId, makeEventId, if_neg ht.ne', if_neg (ht.trans htu).ne', String.lt_iff_toList_lt,
    String.toList_ofList, String.toList_ofList, timeChars_eq, timeChars_eq,
    hmod ht (htu.trans hu), hmod (ht.trans htu) hu]
  exact digits_lt (by decide) b32_lt (by omega) (by norm_num; omega) _ _

/-! ### The statement -/

/-- **Ids carry their time and order.**  The time of an id is read back, whether its letters are
large or small; a later time makes a later id, whatever is drawn; and any other string is read as
no time, or as one from 2020 on and at most a day ahead. -/
theorem ids_follow_time :
    (∀ clock now t draws, 1577836800000 ≤ t → t ≤ clock + 24 * 60 * 60 * 1000 → t < 2 ^ 50 →
      eventIdTimeMs clock (makeEventId now t draws) = t ∧
        eventIdTimeMs clock ((makeEventId now t draws).map Char.toLower) = t) ∧
    (∀ now now' t u draws draws', 0 < t → t < u → u < 2 ^ 50 →
      makeEventId now t draws < makeEventId now' u draws') ∧
    ∀ clock s, eventIdTimeMs clock s = 0 ∨
      1577836800000 ≤ eventIdTimeMs clock s ∧
        eventIdTimeMs clock s ≤ clock + 24 * 60 * 60 * 1000 := by
  refine ⟨fun clock now t draws hlow hhigh hfits => ?_,
    fun now now' t u draws draws' ht htu hu => makeEventId_lt ht htu hu draws draws',
    fun clock s => ?_⟩
  · have hmod : t % 2 ^ 64 = t := Int.emod_eq_of_lt (by omega) (by omega)
    have hts : ((t.toNat % 2 ^ 50 : ℕ) : ℤ) = t := by
      rw [Nat.mod_eq_of_lt (by omega)]
      omega
    have hdated : dated clock t = t := if_neg (by omega)
    have hid : makeEventId now t draws = String.ofList
        ((digits 32 10 t.toNat).map b32 ++ List.ofFn fun i => b32 (draws i)) := by
      rw [makeEventId, if_neg (by omega), hmod, timeChars_eq]
    refine ⟨?_, ?_⟩
    · rw [hid, eventIdTimeMs_of_signs fun d hd => (idxOf?_b32 hd).1, hts, hdated]
    · have hmap : (makeEventId now t draws).map Char.toLower = String.ofList
          ((digits 32 10 t.toNat).map (fun d => (b32 d).toLower) ++
            List.ofFn fun i => (b32 (draws i)).toLower) := by
        rw [hid, ← String.toList_inj, String.toList_map, String.toList_ofList, String.toList_ofList,
          List.map_append, List.map_map, List.map_ofFn]
        rfl
      rw [hmap, eventIdTimeMs_of_signs fun d hd => (idxOf?_b32 hd).2, hts, hdated]
  · rw [eventIdTimeMs]
    dsimp only
    split
    · exact Or.inl rfl
    · exact dated_cases clock _

/-- Two ids of November 2023, a millisecond apart. -/
theorem ids_follow_time_apart :
    eventIdTimeMs 1700000000001 (makeEventId 0 1700000000000 fun _ => 31) = 1700000000000 ∧
      (makeEventId 0 1700000000000 fun _ => 31) < makeEventId 0 1700000000001 fun _ => 0 :=
  ⟨(ids_follow_time.1 _ _ _ _ (by decide) (by decide) (by decide)).1,
    ids_follow_time.2.1 _ _ _ _ _ _ (by decide) (by decide) (by decide)⟩

/-- Time 0 is written as the present. -/
theorem ids_not_ordered :
    ¬∀ now t u draws draws', t < u → u < 2 ^ 50 → makeEventId now t draws < makeEventId now u draws' := by
  intro h
  have hlt := h 2 0 1 (fun _ => 0) (fun _ => 0) (by decide) (by decide)
  have hgt : makeEventId 2 1 (fun _ => 0) < makeEventId 2 2 fun _ => 0 :=
    makeEventId_lt (by decide) (by decide) (by decide) _ _
  exact absurd (hlt.trans hgt) (lt_irrefl _)

end Multisite

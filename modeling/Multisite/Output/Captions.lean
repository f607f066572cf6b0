import Mathlib.Data.List.TakeWhile
import Multisite.Core.Model
import Multisite.Lib.Utf8

/-!
A spoken sentence cut into captions (`caption_text.h`).

* `captionCutPoint_spec`: where a caption is cut;
* `lt_advance`: every turn of the loop moves on;
* `splits_whole`: the captions are the text, whole but for the blanks between them.
-/

namespace Multisite

open Lib

/-- `is_utf8_continuation`. -/
def isUtf8Continuation (c : UInt8) : Bool := c &&& 0xC0 == 0x80

/-! ### The cut -/

/-- The first loop of `caption_cut_point`: back to where a character starts. -/
def backOff (s : Bytes) (start : ℕ) : ℕ → ℕ
  | 0 => 0
  | stop + 1 =>
      if start < stop + 1 ∧ s[stop + 1]?.any isUtf8Continuation then backOff s start stop
      else stop + 1

/-- `find_last_of(' ', pos)`. -/
def findLastSpace (s : Bytes) : ℕ → Option ℕ
  | 0 => if s[0]? = some 32 then some 0 else none
  | pos + 1 => if s[pos + 1]? = some 32 then some (pos + 1) else findLastSpace s pos

/-- `caption_cut_point`. -/
def captionCutPoint (s : Bytes) (start maxBytes : ℕ) : ℕ :=
  if s.length ≤ start then s.length
  else if s.length - start ≤ maxBytes then s.length
  else
    let stop := backOff s start (start + maxBytes)
    match findLastSpace s (if start < stop then stop - 1 else start) with
    | some space =>
        -- a space that is too early would make a caption of a word or two
        if start < space ∧ maxBytes ≤ (space - start) * 2 then space else stop
    | none => stop

/-! ### The loop -/

/-- The cut, one character further where it would not move on. -/
def advance (s : Bytes) (i cut : ℕ) : ℕ :=
  if cut ≤ i then i + 1 + ((s.drop (i + 1)).takeWhile isUtf8Continuation).length else cut

/-- The end of a caption: without the spaces in front of the cut. -/
def trimEnd (s : Bytes) (i : ℕ) : ℕ → ℕ
  | 0 => 0
  | stop + 1 => if i < stop + 1 ∧ s[stop]? = some 32 then trimEnd s i stop else stop + 1

/-- The spaces after the cut. -/
def skipSpaces (s : Bytes) (i : ℕ) : ℕ := i + ((s.drop i).takeWhile (· = 32)).length

lemma lt_advance (s : Bytes) (i cut : ℕ) : i < advance s i cut := by
  unfold advance
  split <;> omega

lemma le_skipSpaces (s : Bytes) (i : ℕ) : i ≤ skipSpaces s i := Nat.le_add_right ..

/-- The loop of `split_caption`. -/
def splitFrom (s : Bytes) (maxBytes i : ℕ) : List Bytes :=
  if i < s.length then
    let cut := advance s i (captionCutPoint s i maxBytes)
    let stop := trimEnd s i cut
    (if i < stop then [(s.drop i).take (stop - i)] else []) ++
      splitFrom s maxBytes (skipSpaces s cut)
  else []
termination_by s.length - i
decreasing_by
  have hcut := lt_advance s i (captionCutPoint s i maxBytes)
  have hskip := le_skipSpaces s (advance s i (captionCutPoint s i maxBytes))
  omega

/-- `split_caption`. -/
def splitCaption (text : Bytes) (maxBytes : ℕ) : List Bytes :=
  if maxBytes = 0 then []
  else
    match text.findIdx? (· ≠ 32) with
    | some i => splitFrom text maxBytes i
    | none => []

/-! ### What a sentence is cut into -/

/-- A caption: a text that has no space at its ends. -/
structure IsCaption (p : Bytes) : Prop where
  nonempty : p ≠ []
  utf8 : IsUtf8 p
  head : p.head? ≠ some 32
  last : p.getLast? ≠ some 32

/-- A text laid out as captions with spaces between them; of each caption and what is left
after it `fits` holds. -/
inductive SplitInto (fits : Bytes → Bytes → Prop) : Bytes → List Bytes → Prop
  | done {gap : Bytes} (hgap : ∀ c ∈ gap, c = 32) : SplitInto fits gap []
  | caption {gap p rest : Bytes} {ps : List Bytes} (hgap : ∀ c ∈ gap, c = 32) (hp : IsCaption p)
      (hfits : fits p rest) (hrest : SplitInto fits rest ps) :
      SplitInto fits (gap ++ (p ++ rest)) (p :: ps)

/-- A caption that is not too long, and ends within a word only where the window has no space in
its second half. -/
structure Fits (maxBytes : ℕ) (p rest : Bytes) : Prop where
  short : p.length ≤ maxBytes
  whole : rest ≠ [] → rest.head? ≠ some 32 →
    ∀ k, maxBytes ≤ 2 * k → k < maxBytes → (p ++ rest)[k]? ≠ some 32

/-! ### The small loops -/

section Loops

variable {s : Bytes} {start i cut k : ℕ}

lemma backOff_spec {pos : ℕ} (h : start ≤ pos) : start ≤ backOff s start pos ∧
    backOff s start pos ≤ pos ∧
    (start < backOff s start pos →
      ∀ x, s[backOff s start pos]? = some x → isContinuation x = false) ∧
    ∀ k, backOff s start pos < k → k ≤ pos → ∃ x, s[k]? = some x ∧ isContinuation x = true := by
  induction pos with
  | zero =>
      rw [backOff]
      exact ⟨h, le_rfl, fun hlt => absurd hlt (Nat.not_lt_zero _), fun k hk hle => by omega⟩
  | succ pos ih =>
      rw [backOff]
      split
      · rename_i hback
        obtain ⟨hlt, hany⟩ := hback
        obtain ⟨hge, hle, hhead, htail⟩ := ih (by omega)
        refine ⟨hge, by omega, hhead, fun k hk hkle => ?_⟩
        obtain rfl | hk' := hkle.eq_or_lt
        · rwa [Option.any_eq_true] at hany
        · exact htail k hk (by omega)
      · rename_i hback
        refine ⟨h, le_rfl, fun hlt x hx => ?_, fun k hk hkle => by omega⟩
        rw [hx] at hback
        exact (by simpa using not_and.mp hback hlt : isUtf8Continuation x = false)

lemma findLastSpace_eq_none {pos : ℕ} (h : findLastSpace s pos = none) :
    ∀ k ≤ pos, s[k]? ≠ some 32 := by
  induction pos with
  | zero =>
      intro k hk h0
      rw [Nat.le_zero.mp hk] at h0
      rw [findLastSpace, if_pos h0] at h
      exact absurd h (by simp)
  | succ pos ih =>
      rw [findLastSpace] at h
      split at h
      · exact absurd h (by simp)
      · rename_i hpos
        intro k hk
        obtain rfl | hk' := hk.eq_or_lt
        · exact hpos
        · exact ih h k (by omega)

lemma findLastSpace_eq_some {pos space : ℕ} (h : findLastSpace s pos = some space) :
    space ≤ pos ∧ s[space]? = some 32 ∧ ∀ k, space < k → k ≤ pos → s[k]? ≠ some 32 := by
  induction pos with
  | zero =>
      rw [findLastSpace] at h
      split at h
      · rename_i h0
        obtain rfl := Option.some.inj h
        exact ⟨le_rfl, h0, fun k hk hle => by omega⟩
      · exact absurd h (by simp)
  | succ pos ih =>
      rw [findLastSpace] at h
      split at h
      · rename_i hpos
        obtain rfl := Option.some.inj h
        exact ⟨le_rfl, hpos, fun k hk hle => by omega⟩
      · rename_i hpos
        obtain ⟨hle, hspace, hafter⟩ := ih h
        refine ⟨by omega, hspace, fun k hk hkle => ?_⟩
        obtain rfl | hk' := hkle.eq_or_lt
        · exact hpos
        · exact hafter k hk (by omega)

lemma trimEnd_spec (hi : s[i]? ≠ some 32) (h : i < cut) : i < trimEnd s i cut ∧
    trimEnd s i cut ≤ cut ∧ s[trimEnd s i cut - 1]? ≠ some 32 ∧
    ∀ k, trimEnd s i cut ≤ k → k < cut → s[k]? = some 32 := by
  induction cut with
  | zero => exact absurd h (Nat.not_lt_zero _)
  | succ cut ih =>
      rw [trimEnd]
      split
      · rename_i htrim
        obtain rfl | hlt := (Nat.lt_succ_iff.mp h).eq_or_lt
        · exact absurd htrim.2 hi
        · obtain ⟨hgt, hle, hlast, hspaces⟩ := ih hlt
          refine ⟨hgt, by omega, hlast, fun k hk hklt => ?_⟩
          obtain rfl | hk' := (Nat.lt_succ_iff.mp hklt).eq_or_lt
          · exact htrim.2
          · exact hspaces k hk hk'
      · rename_i htrim
        refine ⟨h, le_rfl, ?_, fun k hk hklt => by omega⟩
        rw [Nat.add_sub_cancel]
        exact not_and.mp htrim h

/-- What `takeWhile` leaves behind. -/
lemma getElem?_takeWhile_length {p : UInt8 → Bool} {l : Bytes} {x : UInt8}
    (h : l[(l.takeWhile p).length]? = some x) : p x = false := by
  induction l with
  | nil => exact absurd h (by simp)
  | cons c l ih =>
      rw [List.takeWhile_cons] at h
      split at h
      · exact ih (by simpa using h)
      · rename_i hc
        obtain rfl : c = x := by simpa using h
        simpa using hc

lemma skipSpaces_spec (hcut : cut ≤ s.length) : skipSpaces s cut ≤ s.length ∧
    s[skipSpaces s cut]? ≠ some 32 ∧ ∀ k, cut ≤ k → k < skipSpaces s cut → s[k]? = some 32 := by
  have hlen := (List.takeWhile_prefix (l := s.drop cut) (· = 32)).length_le
  rw [List.length_drop] at hlen
  refine ⟨by unfold skipSpaces; omega, fun hspace => ?_, fun k hk hlt => ?_⟩
  · have := getElem?_takeWhile_length (p := (· = 32)) (l := s.drop cut) (x := 32)
      (by rw [List.getElem?_drop]; exact hspace)
    simp at this
  · obtain ⟨j, rfl⟩ := Nat.exists_eq_add_of_le hk
    have hj : j < ((s.drop cut).takeWhile (· = 32)).length := by
      unfold skipSpaces at hlt
      omega
    have hmem := List.mem_takeWhile_imp (List.getElem_mem hj)
    rw [(List.takeWhile_prefix _).getElem hj, decide_eq_true_eq] at hmem
    rw [← List.getElem?_drop,
      List.getElem?_eq_getElem (hj.trans_le (List.takeWhile_prefix _).length_le), hmem]

/-- Where a caption is cut: behind the place it starts from or at it, at the start of a character,
and, if that is not a space, behind a window whose second half has none. -/
lemma captionCutPoint_spec (maxBytes : ℕ) (hi : start < s.length) :
    start ≤ captionCutPoint s start maxBytes ∧ captionCutPoint s start maxBytes ≤ s.length ∧
    captionCutPoint s start maxBytes ≤ start + maxBytes ∧
    (start < captionCutPoint s start maxBytes →
      ∀ x, s[captionCutPoint s start maxBytes]? = some x → isContinuation x = false ∧
        (x ≠ 32 → ∀ k, maxBytes ≤ 2 * k → k < maxBytes → s[start + k]? ≠ some 32)) := by
  have hend : ∀ x, s[s.length]? = some x → False := fun x hx => by simp at hx
  unfold captionCutPoint
  rw [if_neg (not_le.mpr hi)]
  split
  · exact ⟨hi.le, le_rfl, by omega, fun _ x hx => (hend x hx).elim⟩
  · rename_i hlong
    obtain ⟨hge, hle, hhead, htail⟩ := backOff_spec (s := s) (Nat.le_add_right start maxBytes)
    set stop := backOff s start (start + maxBytes)
    -- without a space worth a break the window has none in its second half
    have hnone (hno : ∀ k, maxBytes ≤ 2 * k → start + k < stop → s[start + k]? ≠ some 32) :
        start ≤ stop ∧ stop ≤ s.length ∧ stop ≤ start + maxBytes ∧
        (start < stop → ∀ x, s[stop]? = some x → isContinuation x = false ∧
          (x ≠ 32 → ∀ k, maxBytes ≤ 2 * k → k < maxBytes → s[start + k]? ≠ some 32)) := by
      refine ⟨hge, by omega, hle, fun hlt x hx => ⟨hhead hlt x hx, fun hne k hk hkm => ?_⟩⟩
      obtain hin | hat | hbehind := lt_trichotomy (start + k) stop
      · exact hno k hk hin
      · rw [hat, hx]
        simpa using hne
      · obtain ⟨y, hy, hcont⟩ := htail (start + k) hbehind (by omega)
        rw [hy]
        rintro ⟨⟩
        exact absurd hcont (by decide)
    dsimp only
    split
    · rename_i space hspace
      obtain ⟨hsle, hs32, hafter⟩ := findLastSpace_eq_some hspace
      split
      · rename_i hworth
        have hin : space ≤ stop := by
          split at hsle <;> omega
        refine ⟨hworth.1.le, by omega, by omega, fun _ x hx => ?_⟩
        obtain rfl := Option.some.inj (hs32.symm.trans hx)
        exact ⟨by decide, fun hne => absurd rfl hne⟩
      · rename_i hearly
        refine hnone fun k hk hin => hafter _ ?_ ?_
        · have := not_and.mp hearly
          omega
        · split <;> omega
    · rename_i hspace
      refine hnone fun k hk hin => findLastSpace_eq_none hspace _ ?_
      split <;> omega

/-- Where it is cut in the end: further on, and at the start of a character. -/
lemma advance_spec (hi : i < s.length) (hcut : cut ≤ s.length)
    (hhead : i < cut → ∀ x, s[cut]? = some x → isContinuation x = false) :
    advance s i cut ≤ s.length ∧ ∀ x, s[advance s i cut]? = some x → isContinuation x = false := by
  unfold advance
  split
  · have hlen := (List.takeWhile_prefix (l := s.drop (i + 1)) isUtf8Continuation).length_le
    rw [List.length_drop] at hlen
    refine ⟨by omega, fun x hx => ?_⟩
    rw [← List.getElem?_drop] at hx
    exact getElem?_takeWhile_length hx
  · rename_i hlt
    exact ⟨hcut, hhead (not_le.mp hlt)⟩

end Loops

/-! ### A text in parts -/

section Parts

variable {s : Bytes} {i j : ℕ}

lemma take_append_drop_of_le (hij : i ≤ j) :
    (s.drop i).take (j - i) ++ s.drop j = s.drop i := by
  have h := List.take_append_drop (j - i) (s.drop i)
  rwa [List.drop_drop, Nat.add_sub_cancel' hij] at h

lemma eq_space_of_between (h : ∀ k, i ≤ k → k < j → s[k]? = some 32) :
    ∀ c ∈ (s.drop i).take (j - i), c = 32 := by
  intro c hc
  obtain ⟨m, hm⟩ := List.mem_iff_getElem?.mp hc
  rw [List.getElem?_take, List.getElem?_drop] at hm
  split at hm
  · rw [h (i + m) (by omega) (by omega)] at hm
    exact (Option.some.inj hm).symm
  · exact absurd hm (by simp)

/-- Behind spaces a text goes on. -/
lemma isUtf8_drop_of_between (hs : IsUtf8 (s.drop i)) (hij : i ≤ j)
    (h : ∀ k, i ≤ k → k < j → s[k]? = some 32) : IsUtf8 (s.drop j) := by
  induction j, hij using Nat.le_induction with
  | base => exact hs
  | succ j hij ih =>
      have hrest := ih fun k hk hlt => h k hk (by omega)
      obtain ⟨hlt, hj⟩ := List.getElem?_eq_some_iff.mp (h j hij (Nat.lt_succ_self j))
      rw [List.drop_eq_getElem_cons hlt, hj] at hrest
      exact hrest.drop_ascii (by decide)

/-- A part with whole characters and without a space at its ends. -/
lemma isCaption_part (hs : IsUtf8 (s.drop i)) (hij : i < j) (hj : j ≤ s.length)
    (hhead : s[i]? ≠ some 32) (hlast : s[j - 1]? ≠ some 32)
    (hcut : ∀ x, s[j]? = some x → isContinuation x = false) :
    IsCaption ((s.drop i).take (j - i)) := by
  have hlen : ((s.drop i).take (j - i)).length = j - i := by
    rw [List.length_take, List.length_drop]
    omega
  constructor
  · exact List.ne_nil_of_length_pos (by omega)
  · refine (hs.cut (by rw [List.length_drop]; omega) fun x hx => ?_).1
    rw [List.getElem?_drop, Nat.add_sub_cancel' hij.le] at hx
    exact hcut x hx
  · rw [List.head?_eq_getElem?, List.getElem?_take, if_pos (by omega), List.getElem?_drop,
      Nat.add_zero]
    exact hhead
  · rw [List.getLast?_eq_getElem?, hlen, List.getElem?_take, if_pos (by omega), List.getElem?_drop,
      show i + (j - i - 1) = j - 1 by omega]
    exact hlast

end Parts

/-! ### The captions -/

section Captions

variable {s : Bytes} {maxBytes : ℕ}

/-- What one turn of the loop does at a place where no space is: where the text is cut, and where
the caption ends. -/
lemma turn_spec {i : ℕ} (hs : IsUtf8 (s.drop i)) (hi : i < s.length) (hhead : s[i]? ≠ some 32) :
    let cut := advance s i (captionCutPoint s i maxBytes)
    let stop := trimEnd s i cut
    (i < stop ∧ stop ≤ cut ∧ cut ≤ s.length ∧ ∀ k, stop ≤ k → k < cut → s[k]? = some 32) ∧
      IsCaption ((s.drop i).take (stop - i)) ∧ IsUtf8 (s.drop cut) := by
  intro cut stop
  obtain ⟨-, hle, -, hpoint⟩ := captionCutPoint_spec maxBytes hi
  obtain ⟨hcut, hstart⟩ := advance_spec hi hle fun hlt x hx => (hpoint hlt x hx).1
  have hlt := lt_advance s i (captionCutPoint s i maxBytes)
  obtain ⟨hgt, hstop, hlast, hspaces⟩ := trimEnd_spec hhead hlt
  refine ⟨⟨hgt, hstop, hcut, hspaces⟩,
    isCaption_part hs hgt (hstop.trans hcut) hhead hlast fun x hx => ?_, ?_⟩
  · obtain heq | hbefore := hstop.eq_or_lt
    · exact hstart x (heq ▸ hx)
    · rw [hspaces _ le_rfl hbefore] at hx
      rw [← Option.some.inj hx]
      decide
  · have h := (hs.cut (k := cut - i) (by rw [List.length_drop]; omega) fun x hx => by
      rw [List.getElem?_drop, Nat.add_sub_cancel' hlt.le] at hx
      exact hstart x hx).2
    rwa [List.drop_drop, Nat.add_sub_cancel' hlt.le] at h

/-- The loop, from a place where no space is, with spaces behind it. -/
lemma splits_from {fits : Bytes → Bytes → Prop}
    (hfits : ∀ i < s.length, IsUtf8 (s.drop i) → s[i]? ≠ some 32 →
      let stop := trimEnd s i (advance s i (captionCutPoint s i maxBytes))
      fits ((s.drop i).take (stop - i)) (s.drop stop))
    {i j : ℕ} (hs : IsUtf8 (s.drop i)) (hhead : s[i]? ≠ some 32) (hji : j ≤ i)
    (hgap : ∀ k, j ≤ k → k < i → s[k]? = some 32) :
    SplitInto fits (s.drop j) (splitFrom s maxBytes i) := by
  have hspaces := eq_space_of_between hgap
  rw [← take_append_drop_of_le hji]
  induction hleft : s.length - i using Nat.strong_induction_on generalizing i j with
  | _ left ih =>
    by_cases hi : i < s.length
    · obtain ⟨⟨hgt, hle, hcut, htrimmed⟩, hp, hrest⟩ := @turn_spec s maxBytes i hs hi hhead
      set cut := advance s i (captionCutPoint s i maxBytes)
      set stop := trimEnd s i cut
      obtain ⟨-, hnext, hskipped⟩ := skipSpaces_spec hcut
      have hskip := le_skipSpaces s cut
      have hbetween : ∀ k, stop ≤ k → k < skipSpaces s cut → s[k]? = some 32 := by
        intro k hk hlt
        obtain hk' | hk' := lt_or_ge k cut
        · exact htrimmed k hk hk'
        · exact hskipped k hk' hlt
      -- the rest of the text starts with the spaces in front of the cut
      have hloop := ih _ (by omega) (isUtf8_drop_of_between hrest hskip hskipped) hnext
        (hle.trans hskip) hbetween (eq_space_of_between hbetween) rfl
      rw [take_append_drop_of_le (hle.trans hskip)] at hloop
      have hcaption := SplitInto.caption hspaces hp (hfits i hi hs hhead) hloop
      rw [take_append_drop_of_le hgt.le] at hcaption
      rw [splitFrom, if_pos hi]
      dsimp only
      rwa [if_pos hgt, List.singleton_append]
    · rw [splitFrom, if_neg hi, List.drop_eq_nil_of_le (not_lt.mp hi), List.append_nil]
      exact .done hspaces

/-- A text without a word in it has no captions, and the loop starts at the first one. -/
lemma splits_whole_of_fits {fits : Bytes → Bytes → Prop} (hs : IsUtf8 s) (hmax : maxBytes ≠ 0)
    (hfits : ∀ i < s.length, IsUtf8 (s.drop i) → s[i]? ≠ some 32 →
      let stop := trimEnd s i (advance s i (captionCutPoint s i maxBytes))
      fits ((s.drop i).take (stop - i)) (s.drop stop)) :
    SplitInto fits s (splitCaption s maxBytes) := by
  rw [splitCaption, if_neg hmax]
  cases hfirst : s.findIdx? (· ≠ 32) with
  | none =>
      refine .done fun c hc => ?_
      simpa using List.findIdx?_eq_none_iff.mp hfirst c hc
  | some i =>
      obtain ⟨hi, hword, hbefore⟩ := List.findIdx?_eq_some_iff_getElem.mp hfirst
      have hgap : ∀ k, 0 ≤ k → k < i → s[k]? = some 32 := by
        intro k _ hk
        rw [List.getElem?_eq_getElem (hk.trans hi)]
        simpa using hbefore k hk
      have hhead : s[i]? ≠ some 32 := by
        rw [List.getElem?_eq_getElem hi]
        simpa using hword
      have hrest : IsUtf8 (s.drop i) :=
        isUtf8_drop_of_between (i := 0) (by simpa using hs) (Nat.zero_le i) hgap
      simpa using splits_from hfits hrest hhead (Nat.zero_le i) hgap

/-- A window that holds a character does not end where it starts. -/
lemma lt_captionCutPoint {i : ℕ} (hs : IsUtf8 (s.drop i)) (hi : i < s.length)
    (hmax : 4 ≤ maxBytes) : i < captionCutPoint s i maxBytes := by
  unfold captionCutPoint
  rw [if_neg (not_le.mpr hi)]
  split
  · exact hi
  · rename_i hlong
    obtain ⟨hge, -, -, htail⟩ := backOff_spec (s := s) (Nat.le_add_right i maxBytes)
    have hstop : i < backOff s i (i + maxBytes) := by
      by_contra hstart
      obtain ⟨j, x, hj, hnear, hx, hhead⟩ :=
        hs.exists_boundary (k := maxBytes) (by rw [List.length_drop]; omega)
      rw [List.getElem?_drop] at hx
      obtain ⟨y, hy, hcont⟩ := htail (i + j) (by omega) (by omega)
      rw [← Option.some.inj (hx.symm.trans hy), hhead] at hcont
      exact absurd hcont (by simp)
    dsimp only
    split
    · split
      · rename_i hworth
        exact hworth.1
      · exact hstop
    · exact hstop

/-- The captions of a window that holds a character fit. -/
lemma fits_turn {i : ℕ} (hs : IsUtf8 (s.drop i)) (hi : i < s.length) (hhead : s[i]? ≠ some 32)
    (hmax : 4 ≤ maxBytes) :
    let stop := trimEnd s i (advance s i (captionCutPoint s i maxBytes))
    Fits maxBytes ((s.drop i).take (stop - i)) (s.drop stop) := by
  intro stop
  have hlt := lt_captionCutPoint hs hi hmax
  have hadvance : advance s i (captionCutPoint s i maxBytes) = captionCutPoint s i maxBytes :=
    if_neg (not_le.mpr hlt)
  obtain ⟨-, -, hle, hpoint⟩ := captionCutPoint_spec maxBytes hi
  obtain ⟨hgt, hstop, -, hspaces⟩ : i < stop ∧ stop ≤ captionCutPoint s i maxBytes ∧
      s[stop - 1]? ≠ some 32 ∧
      ∀ k, stop ≤ k → k < captionCutPoint s i maxBytes → s[k]? = some 32 := by
    rw [show stop = trimEnd s i (captionCutPoint s i maxBytes) from congrArg _ hadvance]
    exact trimEnd_spec hhead hlt
  constructor
  · rw [List.length_take]
    omega
  · intro hne hword k hk hkm
    rw [take_append_drop_of_le hgt.le, List.getElem?_drop]
    have hlen : stop < s.length := by
      by_contra hend
      exact hne (List.drop_eq_nil_of_le (not_lt.mp hend))
    rw [List.head?_drop] at hword
    obtain heq | hbefore := hstop.eq_or_lt
    · rw [← heq] at hpoint
      refine (hpoint hgt _ (List.getElem?_eq_getElem hlen)).2 (fun h32 => hword ?_) k hk hkm
      rw [List.getElem?_eq_getElem hlen, h32]
    · exact absurd (hspaces _ le_rfl hbefore) hword

end Captions

/-! ### The statement -/

/-- **Captions are split whole.**  A text is its captions, with nothing but spaces between them and
at its ends; each is not empty, of whole characters and without a space at its ends.  For a window
of four bytes or more each fits, and a word is broken only where the window has no space in its
second half. -/
theorem splits_whole {s : Bytes} (hs : IsUtf8 s) :
    (∀ maxBytes, 4 ≤ maxBytes → SplitInto (Fits maxBytes) s (splitCaption s maxBytes)) ∧
    (∀ maxBytes, maxBytes ≠ 0 → SplitInto (fun _ _ => True) s (splitCaption s maxBytes)) ∧
    splitCaption s 0 = [] := by
  refine ⟨fun maxBytes hmax => ?_, fun maxBytes hmax => ?_, rfl⟩
  · exact splits_whole_of_fits hs (by omega) fun i hi hrest hhead => fits_turn hrest hi hhead hmax
  · exact splits_whole_of_fits hs hmax fun _ _ _ _ => trivial

/-- A window of four bytes, and a character of two at its end. -/
theorem splits_whole_accented :
    SplitInto (Fits 4) (utf8 ['a', ' ', 'b', 'c', 'é'])
      (splitCaption (utf8 ['a', ' ', 'b', 'c', 'é']) 4) :=
  (splits_whole ⟨_, rfl⟩).1 4 le_rfl

end Multisite

import Multisite.Lib.Ranges
import Multisite.Core.Model

/-!
The gap list of a manifest (`Manifest::add_gap`, `Manifest::gap_end`).

An encoder adds the sequences it has lost one by one, in any order.  A call sorts the new
range in and folds together what touches, so that any sorted list comes out spaced
(`spaced_mergeFrom`): the ranges are the canonical ones of their set.

* `addGaps_canonical`: after any calls with sequences below `2 ^ 64 - 1` the ranges are in
  order, disjoint and never touch; they hold the sequences added and no others; `gap_end`
  answers with the end of the run; and the order of the calls does not show.
-/

namespace Multisite

namespace Manifest

open Lib

/-- Calls of `add_gap`, one after another. -/
def addGaps (m : Manifest) (seqs : List ℕ) : Manifest := seqs.foldl addGap m

/-! ### The merging loop -/

/-- The ranges hold something, and the number after each is one too. -/
def Counted (l : List (ℕ × ℕ)) : Prop := ∀ g ∈ l, g.1 ≤ g.2 ∧ g.2 < 2 ^ 64 - 1

variable {g h r : ℕ × ℕ} {l rest : List (ℕ × ℕ)}

lemma counted_cons : Counted (g :: l) ↔ (g.1 ≤ g.2 ∧ g.2 < 2 ^ 64 - 1) ∧ Counted l :=
  List.forall_mem_cons

lemma counted_mergeFrom (hc : Counted (g :: l)) : Counted (mergeFrom g l) := by
  induction l generalizing g with
  | nil => exact hc
  | cons h rest ih =>
      obtain ⟨hg, hh, hrest⟩ : _ ∧ _ ∧ Counted rest := by
        rw [counted_cons, counted_cons] at hc
        exact hc
      rw [mergeFrom]
      split
      · refine ih (counted_cons.mpr ⟨⟨hg.1.trans (le_max_left _ _), max_lt hg.2 hh.2⟩, hrest⟩)
      · exact counted_cons.mpr ⟨hg, ih (counted_cons.mpr ⟨hh, hrest⟩)⟩

/-- Folding does not go below the range it began with. -/
lemma le_of_mem_mergeFrom (hs : (g :: l).Pairwise rangeLe) (hr : r ∈ mergeFrom g l) :
    g.1 ≤ r.1 := by
  induction l generalizing g with
  | nil => exact (List.mem_singleton.mp hr) ▸ le_rfl
  | cons h rest ih =>
      rw [mergeFrom] at hr
      split at hr
      · exact ih (g := (g.1, max g.2 h.2)) (pairwise_fold hs) hr
      · rcases List.mem_cons.mp hr with rfl | hr
        · exact le_rfl
        · exact (fst_le_of_pairwise hs).trans (ih (List.pairwise_cons.mp hs).2 hr)

/-- What the loop leaves is spaced, if what it is given is sorted. -/
lemma spaced_mergeFrom (hs : (g :: l).Pairwise rangeLe) (hc : Counted (g :: l)) :
    Spaced (mergeFrom g l) := by
  induction l generalizing g with
  | nil => exact ⟨fun r hr => (hc r hr).1, List.pairwise_singleton _ _⟩
  | cons h rest ih =>
      obtain ⟨hg, hh, hrest⟩ : _ ∧ _ ∧ Counted rest := by
        rw [counted_cons, counted_cons] at hc
        exact hc
      rw [mergeFrom]
      split
      · exact ih (pairwise_fold hs)
          (counted_cons.mpr ⟨⟨hg.1.trans (le_max_left _ _), max_lt hg.2 hh.2⟩, hrest⟩)
      · rename_i hapart
        -- no wrap: the range after `g` begins past the number after it
        rw [Nat.mod_eq_of_lt (by omega)] at hapart
        have hrest' := (List.pairwise_cons.mp hs).2
        have htail := ih hrest' (counted_cons.mpr ⟨hh, hrest⟩)
        refine ⟨?_, List.pairwise_cons.mpr ⟨fun r hr => ?_, htail.apart⟩⟩
        · exact List.forall_mem_cons.mpr ⟨hg.1, htail.nonempty⟩
        · have := le_of_mem_mergeFrom hrest' hr
          omega

/-! ### The calls -/

/-- One call keeps the ranges spaced. -/
lemma spaced_addGap {m : Manifest} {seq : ℕ} (hs : Spaced m.gaps) (hc : Counted m.gaps)
    (hseq : seq < 2 ^ 64 - 1) : Spaced (m.addGap seq).gaps ∧ Counted (m.addGap seq).gaps := by
  rw [addGap]
  split
  · exact ⟨hs, hc⟩
  · have hnew : Counted ((m.gaps ++ [(seq, seq)]).insertionSort rangeLe) := by
      intro r hr
      rcases List.mem_append.mp ((List.mem_insertionSort _).mp hr) with hr | hr
      · exact hc r hr
      · obtain rfl := List.mem_singleton.mp hr
        exact ⟨le_rfl, hseq⟩
    have hsorted := List.pairwise_insertionSort rangeLe (m.gaps ++ [(seq, seq)])
    show Spaced (mergeTouching _) ∧ Counted (mergeTouching _)
    generalize (m.gaps ++ [(seq, seq)]).insertionSort rangeLe = l at hnew hsorted
    cases l with
    | nil => exact ⟨Spaced.nil, hnew⟩
    | cons g rest => exact ⟨spaced_mergeFrom hsorted hnew, counted_mergeFrom hnew⟩

/-- Every sequence of calls does. -/
lemma spaced_addGaps {m : Manifest} {seqs : List ℕ} (hs : Spaced m.gaps) (hc : Counted m.gaps)
    (hseqs : ∀ s ∈ seqs, s < 2 ^ 64 - 1) : Spaced (m.addGaps seqs).gaps := by
  induction seqs generalizing m with
  | nil => exact hs
  | cons s seqs ih =>
      obtain ⟨hs', hc'⟩ := spaced_addGap hs hc (hseqs s List.mem_cons_self)
      exact ih hs' hc' fun x hx => hseqs x (List.mem_cons_of_mem _ hx)

/-- What the calls add. -/
lemma inGaps_addGaps (m : Manifest) (seqs : List ℕ) (x : ℕ) :
    (m.addGaps seqs).InGaps x ↔ x ∈ seqs ∨ m.InGaps x := by
  induction seqs generalizing m with
  | nil => simp [addGaps]
  | cons s seqs ih =>
      show ((m.addGap s).addGaps seqs).InGaps x ↔ _
      rw [ih, inGaps_addGap, List.mem_cons]
      tauto

/-- In a spaced list `gap_end` answers with the end of the run. -/
lemma gapEnd_eq_some_iff {m : Manifest} (hs : Spaced m.gaps) {s e : ℕ} :
    m.gapEnd s = some e ↔ RunEnd m.InGaps s e := by
  have hrun : ∀ {e}, m.gapEnd s = some e → RunEnd m.InGaps s e := by
    intro e he
    obtain ⟨g, hg, rfl⟩ := Option.map_eq_some_iff.mp he
    have hin := List.find?_some hg
    rw [Bool.and_eq_true, decide_eq_true_eq, decide_eq_true_eq] at hin
    exact hs.runEnd (List.mem_of_find?_eq_some hg) hin.1 hin.2
  refine ⟨hrun, fun h => ?_⟩
  obtain ⟨e', he'⟩ := Option.isSome_iff_exists.mp
    ((gapEnd_isSome_iff m s).mpr (h.2.1 s le_rfl h.1))
  rw [he', (hrun he').eq h]

/-- **The gap list is the canonical one of its set**: after any calls from no gaps, with
sequences below `2 ^ 64 - 1`, the ranges are in order, disjoint and never touch, and hold
the sequences added and no others; `gap_end` answers with the last of the run that holds
the sequence, and with nothing for one that was not added; and the order of the calls does
not show. -/
theorem addGaps_canonical (m : Manifest) (hm : m.gaps = []) (seqs : List ℕ)
    (hseqs : ∀ s ∈ seqs, s < 2 ^ 64 - 1) :
    (∀ g ∈ (m.addGaps seqs).gaps, g.1 ≤ g.2) ∧
      (m.addGaps seqs).gaps.Pairwise (fun a b => a.2 + 1 < b.1) ∧
      (∀ s, (m.addGaps seqs).InGaps s ↔ s ∈ seqs) ∧
      (∀ s e, (m.addGaps seqs).gapEnd s = some e ↔ RunEnd (· ∈ seqs) s e) ∧
      (∀ s, (m.addGaps seqs).gapEnd s = none ↔ s ∉ seqs) ∧
      ∀ seqs', seqs'.Perm seqs → (m.addGaps seqs').gaps = (m.addGaps seqs).gaps := by
  have hspaced : ∀ l : List ℕ, (∀ s ∈ l, s < 2 ^ 64 - 1) → Spaced (m.addGaps l).gaps := by
    intro l hl
    refine spaced_addGaps ?_ ?_ hl
    · exact hm ▸ Spaced.nil
    · exact hm ▸ fun g hg => absurd hg (by simp)
  have hmem : ∀ (l : List ℕ) s, (m.addGaps l).InGaps s ↔ s ∈ l := by
    intro l s
    rw [inGaps_addGaps, InGaps, hm]
    simp [InRanges]
  have hset : (m.addGaps seqs).InGaps = (· ∈ seqs) := funext fun s => propext (hmem seqs s)
  refine ⟨(hspaced seqs hseqs).nonempty, (hspaced seqs hseqs).apart, hmem seqs, ?_, ?_, ?_⟩
  · intro s e
    rw [gapEnd_eq_some_iff (hspaced seqs hseqs), hset]
  · intro s
    rw [← hmem seqs s, ← gapEnd_isSome_iff, Option.not_isSome_iff_eq_none]
  · intro seqs' hperm
    refine (hspaced seqs' fun s hs => hseqs s (hperm.mem_iff.mp hs)).eq (hspaced seqs hseqs) ?_
    exact fun n => (hmem seqs' n).trans (hperm.mem_iff.trans (hmem seqs n).symm)

/-- Lost in no order, two of the five side by side. -/
theorem addGaps_canonical_bridged :
    (∀ g ∈ (addGaps {} [7, 3, 8, 5, 4]).gaps, g.1 ≤ g.2) ∧
      (addGaps {} [7, 3, 8, 5, 4]).gaps = [(3, 5), (7, 8)] :=
  ⟨(addGaps_canonical {} rfl [7, 3, 8, 5, 4] (by decide)).1, by decide⟩

end Manifest

end Multisite

import Mathlib.Data.Prod.Lex
import Mathlib.Data.List.Sort
import Mathlib.Data.String.Basic
import Multisite.Core.Model

/-!
Merging cue lists (`merge_markers`), where an id is nobody else's.

* `before_iff`: the order of the source is that of (sequence, wall time, id);
* `mergeMarkers_sublist`, `mem_mergeMarkers`, `nodup_mergeMarkers`: what merging keeps, and in
  which order;
* `mergeMarkers_congr`: it goes by which cues there are, however they are grouped;
* `merge_whole`: hence by no order, and a merge of merges is the merge of everything.
-/

namespace Multisite

/-! ### The order -/

/-- What `merge_markers` sorts by. -/
def Marker.place (m : Marker) : ℕ ×ₗ ℤ ×ₗ String := toLex (m.seq, toLex (m.atMs, m.id))

lemma Marker.before_iff (a b : Marker) : a.before b = true ↔ a.place < b.place := by
  unfold Marker.before Marker.place
  rw [Prod.Lex.toLex_lt_toLex, Prod.Lex.toLex_lt_toLex]
  by_cases hseq : a.seq = b.seq
  · by_cases hat : a.atMs = b.atMs
    · simp [hseq, hat]
    · simp [hseq, hat]
  · simp [hseq]

/-- A cue that is not after another one. -/
def Marker.NotAfter (a b : Marker) : Prop := ¬ b.before a = true

instance : DecidableRel Marker.NotAfter := fun _ _ => inferInstanceAs (Decidable (¬ _))

lemma Marker.notAfter_iff (a b : Marker) : a.NotAfter b ↔ a.place ≤ b.place := by
  rw [Marker.NotAfter, Marker.before_iff, not_lt]

instance : Std.Total Marker.NotAfter where
  total a b := by
    rw [Marker.notAfter_iff, Marker.notAfter_iff]
    exact le_total _ _

instance : IsTrans Marker Marker.NotAfter where
  trans a b c hab hbc := by
    rw [Marker.notAfter_iff] at *
    exact hab.trans hbc

/-- Two cues in one place have one id. -/
lemma Marker.id_eq {a b : Marker} (hab : a.NotAfter b) (hba : b.NotAfter a) : a.id = b.id := by
  rw [Marker.notAfter_iff] at hab hba
  have hplace := le_antisymm hab hba
  simp only [Marker.place, EmbeddingLike.apply_eq_iff_eq, Prod.mk.injEq] at hplace
  exact hplace.2.2

/-! ### Each id once -/

/-- A cue goes in unless its id is there. -/
def keepNew (out : List Marker) (m : Marker) : List Marker :=
  if m.id ≠ "" ∧ out.any (·.id == m.id) then out else out ++ [m]

/-- `merge_markers` by its two halves. -/
lemma mergeMarkers_eq (parts : List (List Marker)) :
    mergeMarkers parts = (parts.flatten.insertionSort Marker.NotAfter).foldl keepNew [] := by
  rfl

section KeepNew

variable (out l : List Marker) (m : Marker)

lemma keepNew_cases : keepNew out m = out ∧ (∃ x ∈ out, x.id = m.id) ∨
    keepNew out m = out ++ [m] ∧ (m.id ≠ "" → ∀ x ∈ out, x.id ≠ m.id) := by
  unfold keepNew
  split
  · rename_i h
    obtain ⟨x, hx, heq⟩ := List.any_eq_true.mp h.2
    exact .inl ⟨rfl, x, hx, by simpa using heq⟩
  · rename_i h
    refine .inr ⟨rfl, fun hid x hx heq => h ⟨hid, List.any_eq_true.mpr ⟨x, hx, ?_⟩⟩⟩
    simpa using heq

/-- What is kept stays in order. -/
lemma foldl_keepNew_sublist : (l.foldl keepNew out).Sublist (out ++ l) := by
  induction l generalizing out with
  | nil => simp
  | cons m l ih =>
      rw [List.foldl_cons]
      refine (ih (keepNew out m)).trans ?_
      obtain ⟨heq, -⟩ | ⟨heq, -⟩ := keepNew_cases out m
      · rw [heq]
        exact (List.Sublist.refl out).append (List.sublist_cons_self m l)
      · rw [heq, List.append_assoc]
        exact .refl _

/-- What was kept before is kept. -/
lemma mem_foldl_keepNew {x : Marker} (hx : x ∈ out) : x ∈ l.foldl keepNew out := by
  induction l generalizing out with
  | nil => exact hx
  | cons m l ih =>
      refine ih _ ?_
      obtain ⟨heq, -⟩ | ⟨heq, -⟩ := keepNew_cases out m
      · rwa [heq]
      · rw [heq]
        exact List.mem_append_left _ hx

/-- Of every cue one with its id is kept. -/
lemma exists_foldl_keepNew {x : Marker} (hx : x ∈ l) : ∃ y ∈ l.foldl keepNew out, y.id = x.id := by
  induction l generalizing out with
  | nil => exact absurd hx (by simp)
  | cons m l ih =>
      rw [List.foldl_cons]
      rcases List.mem_cons.mp hx with rfl | hx
      · obtain ⟨heq, y, hy, hid⟩ | ⟨heq, -⟩ := keepNew_cases out x
        · exact ⟨y, mem_foldl_keepNew _ l (by rwa [heq]), hid⟩
        · exact ⟨x, mem_foldl_keepNew _ l (by simp [heq]), rfl⟩
      · exact ih _ hx

/-- No id is kept twice. -/
lemma nodup_foldl_keepNew (hid : ∀ x ∈ l, x.id ≠ "") (hout : (out.map (·.id)).Nodup) :
    ((l.foldl keepNew out).map (·.id)).Nodup := by
  induction l generalizing out with
  | nil => exact hout
  | cons m l ih =>
      refine ih _ (fun x hx => hid x (List.mem_cons_of_mem _ hx)) ?_
      obtain ⟨heq, -⟩ | ⟨heq, hnew⟩ := keepNew_cases out m
      · rwa [heq]
      · rw [heq, List.map_append, List.map_singleton, List.nodup_append]
        refine ⟨hout, List.nodup_singleton _, fun i hi j hj => ?_⟩
        obtain ⟨x, hx, rfl⟩ := List.mem_map.mp hi
        rw [List.mem_singleton.mp hj]
        exact hnew (hid m List.mem_cons_self) x hx

end KeepNew

/-! ### Merging -/

/-- Every cue has an id that no other cue has. -/
structure OwnIds (l : List Marker) : Prop where
  set : ∀ m ∈ l, m.id ≠ ""
  own : ∀ m ∈ l, ∀ m' ∈ l, m.id = m'.id → m = m'

/-- Fewer cues, or the same in another order. -/
lemma OwnIds.mono {l l' : List Marker} (h : OwnIds l) (hsub : ∀ m ∈ l', m ∈ l) : OwnIds l' :=
  ⟨fun m hm => h.set m (hsub m hm), fun m hm m' hm' => h.own m (hsub m hm) m' (hsub m' hm')⟩

section Merge

variable {parts parts' : List (List Marker)}

lemma mergeMarkers_sublist (parts : List (List Marker)) :
    (mergeMarkers parts).Sublist (parts.flatten.insertionSort Marker.NotAfter) := by
  rw [mergeMarkers_eq]
  exact foldl_keepNew_sublist [] _

/-- The cues come in order. -/
lemma mergeMarkers_sorted (parts : List (List Marker)) :
    (mergeMarkers parts).Pairwise Marker.NotAfter :=
  (List.pairwise_insertionSort _ _).sublist (mergeMarkers_sublist parts)

/-- Nothing comes in that was not there. -/
lemma mem_of_mem_mergeMarkers {m : Marker} (h : m ∈ mergeMarkers parts) : m ∈ parts.flatten :=
  (List.mem_insertionSort _).mp ((mergeMarkers_sublist parts).mem h)

/-- Exactly the cues of the lists. -/
lemma mem_mergeMarkers (h : OwnIds parts.flatten) {m : Marker} :
    m ∈ mergeMarkers parts ↔ m ∈ parts.flatten := by
  refine ⟨mem_of_mem_mergeMarkers, fun hm => ?_⟩
  obtain ⟨y, hy, hid⟩ := exists_foldl_keepNew [] _
    ((List.mem_insertionSort (r := Marker.NotAfter)).mpr hm)
  rw [← mergeMarkers_eq] at hy
  rwa [h.own m hm y (mem_of_mem_mergeMarkers hy) hid.symm]

lemma nodup_mergeMarkers (h : OwnIds parts.flatten) : ((mergeMarkers parts).map (·.id)).Nodup := by
  rw [mergeMarkers_eq]
  exact nodup_foldl_keepNew [] _
    (fun x hx => h.set x ((List.mem_insertionSort _).mp hx)) List.nodup_nil

/-- Merging goes by which cues there are. -/
lemma mergeMarkers_congr (h : OwnIds parts.flatten)
    (heq : ∀ m, m ∈ parts'.flatten ↔ m ∈ parts.flatten) :
    mergeMarkers parts' = mergeMarkers parts := by
  have h' : OwnIds parts'.flatten := h.mono fun m hm => (heq m).mp hm
  have hmem (m : Marker) : m ∈ mergeMarkers parts' ↔ m ∈ mergeMarkers parts := by
    rw [mem_mergeMarkers h', mem_mergeMarkers h, heq]
  have hperm : (mergeMarkers parts').Perm (mergeMarkers parts) :=
    (List.perm_ext_iff_of_nodup (nodup_mergeMarkers h').of_map
      (nodup_mergeMarkers h).of_map).mpr hmem
  refine List.Perm.eq_of_pairwise (fun a b ha hb hab hba => ?_) (mergeMarkers_sorted parts')
    (mergeMarkers_sorted parts) hperm
  exact h.own a (mem_of_mem_mergeMarkers ((hmem a).mp ha)) b (mem_of_mem_mergeMarkers hb)
    (Marker.id_eq hab hba)


/-- No two cues are in one place. -/
lemma mergeMarkers_before (h : OwnIds parts.flatten) :
    (mergeMarkers parts).Pairwise fun a b => a.before b = true := by
  have hids : (mergeMarkers parts).Pairwise fun a b => a.id ≠ b.id :=
    List.pairwise_map.mp (nodup_mergeMarkers h)
  refine ((mergeMarkers_sorted parts).and hids).imp fun {a b} hab => ?_
  by_contra hnot
  exact hab.2 (Marker.id_eq hab.1 hnot)

/-- Some of the lists merged first. -/
lemma mergeMarkers_merged {more : List (List Marker)} (h : OwnIds parts.flatten)
    (hsub : ∀ m ∈ parts'.flatten, m ∈ parts.flatten)
    (hall : ∀ m, m ∈ parts'.flatten ∨ m ∈ more.flatten ↔ m ∈ parts.flatten) :
    mergeMarkers (mergeMarkers parts' :: more) = mergeMarkers parts := by
  refine mergeMarkers_congr h fun m => ?_
  rw [List.flatten_cons, List.mem_append, mem_mergeMarkers (h.mono hsub)]
  exact hall m

end Merge

/-- Merging cue lists in which every cue has an id of its own: what comes out is in order, has no
id twice and is exactly the cues that went in; it goes by which cues those are, not by how they are
ordered or grouped; and merging merged lists is merging them all, also where one list has grown
since (a site's own, by the cue it has just added). -/
theorem merge_whole (parts : List (List Marker)) (h : OwnIds parts.flatten) :
    (mergeMarkers parts).Pairwise (fun a b => a.before b = true) ∧
      ((mergeMarkers parts).map (·.id)).Nodup ∧
      (∀ m, m ∈ mergeMarkers parts ↔ m ∈ parts.flatten) ∧
      (∀ parts' : List (List Marker), (∀ m, m ∈ parts'.flatten ↔ m ∈ parts.flatten) →
        mergeMarkers parts' = mergeMarkers parts) ∧
      mergeMarkers [mergeMarkers parts] = mergeMarkers parts ∧
      (∀ as bs, parts = as ++ bs →
        mergeMarkers [mergeMarkers as, mergeMarkers bs] = mergeMarkers parts) ∧
      ∀ as bs old mine, (∀ m ∈ old, m ∈ mine) → parts = as ++ mine :: bs →
        mergeMarkers [mergeMarkers (as ++ old :: bs), mine] = mergeMarkers parts := by
  refine ⟨mergeMarkers_before h, nodup_mergeMarkers h, fun m => mem_mergeMarkers h,
    fun parts' heq => mergeMarkers_congr h heq, ?_, ?_, ?_⟩
  · exact mergeMarkers_merged h (fun m hm => hm) (by simp)
  · rintro as bs rfl
    have hbs : OwnIds bs.flatten := h.mono (by simp +contextual)
    refine mergeMarkers_merged h (by simp +contextual) fun m => ?_
    rw [List.flatten_singleton, mem_mergeMarkers hbs, List.flatten_append, List.mem_append]
  · rintro as bs old mine hold rfl
    have hsub : ∀ m ∈ (as ++ old :: bs).flatten, m ∈ (as ++ mine :: bs).flatten := by
      intro m hm
      simp only [List.flatten_append, List.flatten_cons, List.mem_append] at hm ⊢
      rcases hm with has | hin | hbs
      · exact .inl has
      · exact .inr (.inl (hold m hin))
      · exact .inr (.inr hbs)
    refine mergeMarkers_merged h hsub fun m => ⟨?_, ?_⟩
    · rintro (hm | hm)
      · exact hsub m hm
      · rw [List.flatten_singleton] at hm
        simp [hm]
    · simp only [List.flatten_append, List.flatten_cons, List.flatten_nil, List.append_nil,
        List.mem_append]
      tauto

/-- The encoder's cues and a site's, one of which both lists hold. -/
theorem merge_whole_two :
    mergeMarkers [mergeMarkers [[{ seq := 4, id := "b" }]],
        mergeMarkers [[{ seq := 2, id := "c" }, { seq := 4, id := "b" }]]]
      = mergeMarkers
        [[{ seq := 4, id := "b" }], [{ seq := 2, id := "c" }, { seq := 4, id := "b" }]] :=
  (merge_whole [[{ seq := 4, id := "b" }], [{ seq := 2, id := "c" }, { seq := 4, id := "b" }]]
    ⟨by decide, by decide⟩).2.2.2.2.2.1 _ _ rfl

end Multisite

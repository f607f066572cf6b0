import Mathlib.Data.List.Lex
import Mathlib.Data.List.Sort
import Mathlib.Data.Prod.Lex
import Multisite.Storage.Address

/-!
The query that is signed (`SigV4Signer::canonical_query`).  However the parameters are written
into a URL, the store canonicalises what it decodes from it, and so does the signer.

* `Spells`: a way of writing bytes, each as it is or as an escape;
* `Spells.percentDecode`: what is written so is read back;
* `canonicalQuery_of_writes`: the canonical query goes by the parameters alone;
* `canonicalQuery_whole`: it is one more way of writing them.
-/

namespace Multisite

open Lib Http

/-! ### The signer -/

/-- What `std::pair`'s order goes by: the bytes of the key, then those of the value. -/
def queryPlace (p : Bytes × Bytes) : List ℕ ×ₗ List ℕ :=
  toLex (p.1.map (·.toNat), p.2.map (·.toNat))

/-- Two parameters in the order of `std::sort`. -/
def QueryLe (p q : Bytes × Bytes) : Prop := queryPlace p ≤ queryPlace q

instance : DecidableRel QueryLe :=
  fun p q => inferInstanceAs (Decidable (queryPlace p ≤ queryPlace q))

/-- A piece of the query as a key and a value. -/
def queryPair (item : Bytes) : Bytes × Bytes :=
  if 61 ∈ item then (item.takeWhile (· ≠ 61), (item.dropWhile (· ≠ 61)).drop 1) else (item, [])

/-- Both encoded, the slashes too. -/
def encodePair (p : Bytes × Bytes) : Bytes × Bytes := (uriEncode true p.1, uriEncode true p.2)

/-- The parameters of a query, decoded. -/
def queryParams (query : Bytes) : List (Bytes × Bytes) :=
  ((query.splitOn 38).filter (· ≠ [])).map fun item =>
    (percentDecode (queryPair item).1, percentDecode (queryPair item).2)

/-- The parameters put together again. -/
def joinQuery (params : List (Bytes × Bytes)) : Bytes :=
  [38].intercalate (params.map fun p => p.1 ++ 61 :: p.2)

/-- `canonical_query`. -/
def canonicalQuery (query : Bytes) : Bytes :=
  if query = [] then []
  else joinQuery (((queryParams query).map encodePair).insertionSort QueryLe)

/-! ### Ways of writing -/

/-- A way of writing bytes into a query: each as it is, or as an escape. -/
inductive Spells : Bytes → Bytes → Prop where
  | nil : Spells [] []
  | literal {c : UInt8} {t s : Bytes} : c ≠ 37 → c ≠ 38 → c ≠ 61 → Spells t s →
      Spells (c :: t) (c :: s)
  | escaped {a b c : UInt8} {t s : Bytes} : hexPair a b = some c → Spells t s →
      Spells (37 :: a :: b :: t) (c :: s)

/-- A way of writing a parameter. -/
def SpellsPair (item : Bytes) (p : Bytes × Bytes) : Prop :=
  ∃ k v, Spells k p.1 ∧ Spells v p.2 ∧ item = k ++ 61 :: v

/-- A way of writing the parameters, in any order. -/
def Writes (query : Bytes) (params : List (Bytes × Bytes)) : Prop :=
  ∃ items ps, List.Forall₂ SpellsPair items ps ∧ ps.Perm params ∧ query = [38].intercalate items

/-- Bytes that are no separator and no mark can be written as they are. -/
lemma Spells.plain {s : Bytes} (h : s.all fun c => decide (c ≠ 37 ∧ c ≠ 38 ∧ c ≠ 61)) :
    Spells s s := by
  induction s with
  | nil => exact .nil
  | cons c s ih =>
      rw [List.all_cons, Bool.and_eq_true, decide_eq_true_eq] at h
      obtain ⟨⟨hmark, hamp, heq⟩, hrest⟩ := h
      exact .literal hmark hamp heq (ih hrest)

/-- What is written is read back. -/
lemma Spells.percentDecode {t s : Bytes} (h : Spells t s) : percentDecode t = s := by
  unfold Multisite.percentDecode
  induction h with
  | nil => rfl
  | literal hne _ _ _ ih => rw [unescape_cons_of_ne hne, ih]
  | escaped hpair _ ih => rw [unescape_of_some hpair, ih]

/-- A digit of an escape is no separator. -/
lemma hexPair_ne {a b c d : UInt8} (h : hexPair a b = some c) (hd : hexValue d = none) :
    d ≠ a ∧ d ≠ b := by
  constructor
  · rintro rfl
    simp [hexPair, hd] at h
  · rintro rfl
    cases ha : hexValue a <;> simp [hexPair, hd, ha] at h

/-- Neither separator is written. -/
lemma Spells.noSeparator {t s : Bytes} (h : Spells t s) : 38 ∉ t ∧ 61 ∉ t := by
  induction h with
  | nil => simp
  | literal _ hamp heq _ ih => simp [ih.1, ih.2, hamp.symm, heq.symm]
  | escaped hpair _ ih =>
      obtain ⟨ha, hb⟩ := hexPair_ne hpair (d := 38) (by decide)
      obtain ⟨ha', hb'⟩ := hexPair_ne hpair (d := 61) (by decide)
      simp [ih.1, ih.2, ha, hb, ha', hb']

/-- `uri_encode` is a way of writing. -/
lemma spells_uriEncode (b : Bool) (s : Bytes) : Spells (uriEncode b s) s := by
  induction s with
  | nil => exact .nil
  | cons c s ih =>
      unfold uriEncode at ih ⊢
      rw [List.flatMap_cons]
      by_cases hlit : (isUnreserved c || (c = 47 && !b)) = true
      · have hne (d : UInt8) (hd : isUnreserved d = false) (hslash : d ≠ 47) : c ≠ d := by
          rintro rfl
          simp [hd, hslash] at hlit
        rw [if_pos hlit]
        exact .literal (hne 37 (by decide) (by decide)) (hne 38 (by decide) (by decide))
          (hne 61 (by decide) (by decide)) ih
      · rw [if_neg hlit]
        exact .escaped (hexPair_of_digits (by decide) c) ih

/-! ### A parameter -/

section Pair

variable {item : Bytes} {p : Bytes × Bytes}

/-- A parameter is split where its key ends. -/
lemma SpellsPair.parsed (h : SpellsPair item p) :
    (percentDecode (queryPair item).1, percentDecode (queryPair item).2) = p := by
  obtain ⟨k, v, hk, hv, rfl⟩ := h
  have hkey : ∀ c ∈ k, (decide (c ≠ 61)) = true := by
    intro c hc
    simpa using fun h : c = 61 => hk.noSeparator.2 (h ▸ hc)
  have hfst : (k ++ 61 :: v).takeWhile (· ≠ 61) = k := by
    rw [List.takeWhile_append_of_pos hkey]
    simp
  have hsnd : ((k ++ 61 :: v).dropWhile (· ≠ 61)).drop 1 = v := by
    rw [List.dropWhile_append_of_pos hkey]
    simp
  rw [queryPair, if_pos (by simp), hfst, hsnd, hk.percentDecode, hv.percentDecode]

lemma SpellsPair.noSeparator (h : SpellsPair item p) : 38 ∉ item := by
  obtain ⟨k, v, hk, hv, rfl⟩ := h
  simp [hk.noSeparator.1, hv.noSeparator.1]

lemma SpellsPair.ne_nil (h : SpellsPair item p) : item ≠ [] := by
  obtain ⟨k, v, -, -, rfl⟩ := h
  simp

/-- A parameter encoded. -/
lemma spellsPair_encode (p : Bytes × Bytes) :
    SpellsPair ((encodePair p).1 ++ 61 :: (encodePair p).2) p :=
  ⟨_, _, spells_uriEncode true p.1, spells_uriEncode true p.2, rfl⟩

end Pair

/-! ### The query -/

section Query

variable {items : List Bytes} {ps params : List (Bytes × Bytes)} {query : Bytes}

/-- A piece is something, without the separator in it. -/
lemma pieces_of_spells (h : List.Forall₂ SpellsPair items ps) :
    ∀ item ∈ items, 38 ∉ item ∧ item ≠ [] := by
  induction h with
  | nil => simp
  | cons hp _ ih =>
      rintro item hitem
      rcases List.mem_cons.mp hitem with rfl | hitem
      · exact ⟨hp.noSeparator, hp.ne_nil⟩
      · exact ih item hitem

lemma map_queryPair (h : List.Forall₂ SpellsPair items ps) :
    (items.map fun item => (percentDecode (queryPair item).1, percentDecode (queryPair item).2))
      = ps := by
  induction h with
  | nil => rfl
  | cons hp _ ih => rw [List.map_cons, hp.parsed, ih]

/-- The parameters are read back from what is written. -/
lemma queryParams_intercalate (h : List.Forall₂ SpellsPair items ps) :
    queryParams ([38].intercalate items) = ps := by
  have hsplit : (([38].intercalate items).splitOn 38).filter (· ≠ []) = items := by
    cases items with
    | nil => rfl
    | cons item items =>
        have hmem := pieces_of_spells h
        rw [List.splitOn_intercalate _ (fun l hl => (hmem l hl).1) (by simp)]
        exact List.filter_eq_self.mpr fun l hl => by simpa using (hmem l hl).2
  rw [queryParams, hsplit, map_queryPair h]

instance : Std.Total QueryLe where
  total p q := le_total (queryPlace p) (queryPlace q)

instance : IsTrans (Bytes × Bytes) QueryLe where
  trans p q _ (hpq : queryPlace p ≤ queryPlace q) hqr := hpq.trans hqr

instance : Std.Antisymm QueryLe where
  antisymm p q hpq hqp := by
    have hplace : queryPlace p = queryPlace q := le_antisymm hpq hqp
    have hinj : Function.Injective (List.map UInt8.toNat) :=
      List.map_injective_iff.mpr fun _ _ h => UInt8.toNat_inj.mp h
    simp only [queryPlace, EmbeddingLike.apply_eq_iff_eq, Prod.mk.injEq] at hplace
    exact Prod.ext (hinj hplace.1) (hinj hplace.2)

/-- Sorting goes by what there is. -/
lemma insertionSort_congr {ps qs : List (Bytes × Bytes)} (h : ps.Perm qs) :
    ps.insertionSort QueryLe = qs.insertionSort QueryLe := by
  have hperm : (ps.insertionSort QueryLe).Perm (qs.insertionSort QueryLe) :=
    (List.perm_insertionSort QueryLe ps).trans
      (h.trans (List.perm_insertionSort QueryLe qs).symm)
  exact hperm.eq_of_pairwise' (List.pairwise_insertionSort QueryLe ps)
    (List.pairwise_insertionSort QueryLe qs)

/-- The parameters encoded, sorted and joined. -/
def canonicalOf (params : List (Bytes × Bytes)) : Bytes :=
  joinQuery ((params.map encodePair).insertionSort QueryLe)

/-- The canonical query is that of the parameters read. -/
lemma canonicalQuery_eq (query : Bytes) :
    canonicalQuery query = canonicalOf (queryParams query) := by
  unfold canonicalQuery
  split
  · rename_i h
    rw [h]
    rfl
  · rfl

/-- However the parameters are written. -/
lemma canonicalQuery_of_writes (h : Writes query params) :
    canonicalQuery query = canonicalOf params := by
  obtain ⟨items, ps, hitems, hperm, rfl⟩ := h
  rw [canonicalQuery_eq, queryParams_intercalate hitems, canonicalOf, canonicalOf,
    insertionSort_congr (hperm.map encodePair)]

/-- The canonical query writes the parameters. -/
lemma writes_canonicalOf (params : List (Bytes × Bytes)) :
    Writes (canonicalOf params) params := by
  let le (p q : Bytes × Bytes) : Prop := QueryLe (encodePair p) (encodePair q)
  let ps := params.insertionSort le
  have hsort : ps.map encodePair = (params.map encodePair).insertionSort QueryLe :=
    List.map_insertionSort _ _ _ _ fun p _ q _ => Iff.rfl
  refine ⟨ps.map fun p => (encodePair p).1 ++ 61 :: (encodePair p).2, ps, ?_,
    List.perm_insertionSort le params, ?_⟩
  · rw [List.forall₂_map_left_iff, List.forall₂_same]
    exact fun p _ => spellsPair_encode p
  · rw [canonicalOf, joinQuery, ← hsort, List.map_map]
    rfl

end Query

/-- However parameters are written into a query, its canonical form is theirs: encoded with the
slashes, sorted and joined; canonicalised again it stays; and what `uri_encode` makes is decoded
again. -/
theorem canonicalQuery_whole :
    (∀ params query, Writes query params → canonicalQuery query
        = joinQuery ((params.map fun p => (uriEncode true p.1, uriEncode true p.2)).insertionSort
            QueryLe)) ∧
      (∀ query, canonicalQuery (canonicalQuery query) = canonicalQuery query) ∧
      ∀ (s : Bytes) (b : Bool), percentDecode (uriEncode b s) = s := by
  refine ⟨fun params query h => canonicalQuery_of_writes h, fun query => ?_,
    fun s b => (spells_uriEncode b s).percentDecode⟩
  rw [canonicalQuery_eq query]
  exact canonicalQuery_of_writes (writes_canonicalOf _)

lemma slashAndEscape : Spells (bytesOf "a/%62") (bytesOf "a/b") :=
  .literal (by decide) (by decide) (by decide) (.literal (by decide) (by decide) (by decide)
    (.escaped (by decide) .nil))

/-- A prefix with its slash as it is, and the parameters the other way round. -/
theorem canonicalQuery_whole_prefix :
    canonicalQuery (bytesOf "prefix=a/%62&list-type=2")
      = joinQuery (([(bytesOf "list-type", bytesOf "2"), (bytesOf "prefix", bytesOf "a/b")].map
          fun p => (uriEncode true p.1, uriEncode true p.2)).insertionSort QueryLe) :=
  canonicalQuery_whole.1 _ _
    ⟨[bytesOf "prefix=a/%62", bytesOf "list-type=2"],
      [(bytesOf "prefix", bytesOf "a/b"), (bytesOf "list-type", bytesOf "2")],
      .cons ⟨bytesOf "prefix", bytesOf "a/%62", .plain (by decide), slashAndEscape, by decide⟩
        (.cons ⟨bytesOf "list-type", bytesOf "2", .plain (by decide), .plain (by decide),
          by decide⟩ .nil),
      .swap _ _ _, by decide⟩

end Multisite

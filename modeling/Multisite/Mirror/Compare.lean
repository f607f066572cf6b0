import Multisite.Core.Documents
import Multisite.Decoder.Transport

/-!
The comparison of an event's two manifests (`mirror_verify.cpp`).

A `std::map` is the list of its entries, ascending by their keys.  The JSON library's parser is a
parameter.

* `lookup_sumsOf`: of a sequence that is listed more than once the first entry counts;
* `compare_exact_iff`: the lists are exact, and `complete` is, unless the manifests list the same
  sequences and one of them lists a sequence without a checksum.
-/

namespace Multisite

open Json

/-! ### The comparison -/

/-- `MirrorDiff`. -/
structure MirrorDiff where
  onlyPrimary : List ℕ := []
  onlySecond : List ℕ := []
  checksumMismatch : List ℕ := []
  complete : Bool := false
  error : String := ""
  deriving DecidableEq, Repr

/-- `total`. -/
def MirrorDiff.total (d : MirrorDiff) : ℕ :=
  d.onlyPrimary.length + d.onlySecond.length + d.checksumMismatch.length

/-- `out.emplace(seq, checksum)`: nothing where the key is there already. -/
def emplaceSum (seq : ℕ) (sum : String) : List (ℕ × String) → List (ℕ × String)
  | [] => [(seq, sum)]
  | e :: rest =>
      if e.1 = seq then e :: rest
      else if seq < e.1 then (seq, sum) :: e :: rest
      else e :: emplaceSum seq sum rest

/-- The map of a manifest's segments. -/
def sumsOf (segments : List ManifestSegment) : List (ℕ × String) :=
  segments.foldl (fun out s => emplaceSum s.seq s.checksum out) []

/-- `out.find(seq)`. -/
def findSum (out : List (ℕ × String)) (seq : ℕ) : Option String :=
  (out.find? fun e => e.1 = seq).map (·.2)

/-- `read_manifest`, of what its GET is answered with. -/
def readManifest (parse : Bytes → Option Json) (r : GetResult) :
    Except String (List (ℕ × String)) :=
  if r.success = false then
    .error ("manifest.json: HTTP " ++ toString r.httpStatus ++
      (if r.error = "" then "" else " " ++ r.error))
  else
    match (parse r.body).bind Manifest.fromJson with
    | some m => .ok (sumsOf m.segments)
    | none => .error "manifest.json is not valid JSON"

/-- What is made of two maps. -/
def diffOf (a b : List (ℕ × String)) : MirrorDiff :=
  let d : MirrorDiff :=
    { onlyPrimary := (a.filter fun e => (findSum b e.1).isNone).map (·.1)
      -- an absent checksum is not held against the other
      checksumMismatch := (a.filter fun e =>
        (findSum b e.1).any fun sum => e.2 ≠ "" ∧ sum ≠ "" ∧ e.2 ≠ sum).map (·.1)
      onlySecond := (b.filter fun e => (findSum a e.1).isNone).map (·.1) }
  { d with complete := d.total = 0 }

/-- `compare_targets`, of what the two GETs are answered with. -/
def compareTargets (parse : Bytes → Option Json) (primary second : GetResult) : MirrorDiff :=
  match readManifest parse primary, readManifest parse second with
  | .error ea, .error _ => { error := "neither target: " ++ ea }
  | .error ea, .ok _ => { error := "primary: " ++ ea }
  | .ok _, .error eb => { error := "second: " ++ eb }
  | .ok a, .ok b => diffOf a b

/-! ### The maps -/

section Maps

variable {out : List (ℕ × String)} {seq n : ℕ} {sum : String}

/-- Ascending keys. -/
def Ascends (out : List (ℕ × String)) : Prop := (out.map (·.1)).Pairwise (· < ·)

lemma ascends_nil : Ascends [] := List.Pairwise.nil

lemma mem_emplaceSum {e : ℕ × String} (h : e ∈ emplaceSum seq sum out) :
    e = (seq, sum) ∨ e ∈ out := by
  induction out with
  | nil => exact .inl (List.mem_singleton.mp h)
  | cons x rest ih =>
      rw [emplaceSum] at h
      split at h
      · exact .inr h
      split at h
      · exact List.mem_cons.mp h
      · obtain rfl | h := List.mem_cons.mp h
        · exact .inr List.mem_cons_self
        · exact (ih h).imp id (List.mem_cons_of_mem x)

lemma Ascends.emplaceSum (h : Ascends out) (seq : ℕ) (sum : String) :
    Ascends (emplaceSum seq sum out) := by
  induction out with
  | nil => exact List.pairwise_singleton _ _
  | cons x rest ih =>
      rw [Multisite.emplaceSum]
      obtain ⟨hx, hrest⟩ := List.pairwise_cons.mp h
      split
      · exact h
      rename_i hne
      split
      · rename_i hlt
        refine List.pairwise_cons.mpr ⟨fun k hk => ?_, h⟩
        obtain rfl | hk := List.mem_cons.mp hk
        · exact hlt
        · exact hlt.trans (hx k hk)
      · refine List.pairwise_cons.mpr ⟨fun k hk => ?_, ih hrest⟩
        obtain ⟨e, he, rfl⟩ := List.mem_map.mp hk
        obtain rfl | he := mem_emplaceSum he
        · show x.1 < seq
          omega
        · exact hx e.1 (List.mem_map_of_mem he)

@[simp] lemma findSum_nil (n : ℕ) : findSum [] n = none := rfl

lemma findSum_cons (e : ℕ × String) (out : List (ℕ × String)) (n : ℕ) :
    findSum (e :: out) n = if e.1 = n then some e.2 else findSum out n := by
  rw [findSum, List.find?_cons]
  by_cases h : e.1 = n
  · simp [h]
  · simp [h, findSum]

/-- Smaller keys than all are not there. -/
lemma findSum_of_lt (h : ∀ e ∈ out, n < e.1) : findSum out n = none := by
  rw [findSum, Option.map_eq_none_iff, List.find?_eq_none]
  intro e he
  simpa using (h e he).ne'

lemma findSum_emplaceSum (h : Ascends out) (seq n : ℕ) (sum : String) :
    findSum (emplaceSum seq sum out) n =
      if seq = n then some ((findSum out n).getD sum) else findSum out n := by
  induction out with
  | nil =>
      rw [emplaceSum, findSum_cons]
      rfl
  | cons x rest ih =>
      obtain ⟨hx, hrest⟩ := List.pairwise_cons.mp h
      rw [emplaceSum]
      split
      · rename_i heq
        rw [findSum_cons]
        by_cases hn : x.1 = n
        · rw [if_pos hn, if_pos (heq.symm.trans hn), Option.getD_some]
        · rw [if_neg hn, if_neg fun hs => hn (heq.trans hs)]
      rename_i hne
      split
      · rename_i hlt
        rw [findSum_cons]
        by_cases hn : seq = n
        · have hnone : findSum (x :: rest) n = none := by
            refine findSum_of_lt fun e he => ?_
            obtain rfl | he := List.mem_cons.mp he
            · omega
            · have hgt : x.1 < e.1 := hx _ (List.mem_map_of_mem he)
              omega
          rw [if_pos hn, if_pos hn, hnone, Option.getD_none]
        · rw [if_neg hn, if_neg hn]
      · rw [findSum_cons, findSum_cons, ih hrest]
        by_cases hn : x.1 = n
        · rw [if_pos hn, if_pos hn, if_neg fun hs => hne (hn.trans hs.symm)]
        · rw [if_neg hn, if_neg hn]

/-- Every entry is found. -/
lemma Ascends.findSum_eq {e : ℕ × String} (h : Ascends out) (he : e ∈ out) :
    findSum out e.1 = some e.2 := by
  induction out with
  | nil => exact absurd he List.not_mem_nil
  | cons x rest ih =>
      obtain ⟨hx, hrest⟩ := List.pairwise_cons.mp h
      rw [findSum_cons]
      obtain rfl | he := List.mem_cons.mp he
      · exact if_pos rfl
      · rw [if_neg (hx e.1 (List.mem_map_of_mem he)).ne, ih hrest he]

lemma mem_of_findSum {s : String} (h : findSum out n = some s) : (n, s) ∈ out := by
  obtain ⟨e, he, rfl⟩ := Option.map_eq_some_iff.mp h
  obtain rfl : e.1 = n := by simpa using List.find?_some he
  exact List.mem_of_find?_eq_some he

lemma foldl_emplaceSum (segments : List ManifestSegment) (h : Ascends out) (n : ℕ) :
    Ascends (segments.foldl (fun out s => emplaceSum s.seq s.checksum out) out) ∧
      findSum (segments.foldl (fun out s => emplaceSum s.seq s.checksum out) out) n =
        (findSum out n).or ((segments.find? fun s => s.seq = n).map (·.checksum)) := by
  induction segments generalizing out with
  | nil => exact ⟨h, by simp⟩
  | cons s rest ih =>
      obtain ⟨hasc, hfind⟩ := ih (h.emplaceSum s.seq s.checksum)
      refine ⟨hasc, ?_⟩
      rw [List.foldl_cons, hfind, findSum_emplaceSum h, List.find?_cons]
      by_cases hs : s.seq = n
      · cases hf : findSum out n <;> simp [hs]
      · simp [hs]

lemma ascends_sumsOf (segments : List ManifestSegment) : Ascends (sumsOf segments) :=
  (foldl_emplaceSum segments ascends_nil 0).1

/-- Of a sequence that is listed more than once the first entry counts. -/
lemma lookup_sumsOf (segments : List ManifestSegment) (n : ℕ) :
    findSum (sumsOf segments) n = (segments.find? fun s => s.seq = n).map (·.checksum) := by
  rw [sumsOf, (foldl_emplaceSum segments ascends_nil n).2, findSum_nil, Option.none_or]

end Maps

/-! ### What the comparison is asked for -/

namespace Manifest

variable (m : Manifest)

/-- The sequence is listed. -/
def Lists (n : ℕ) : Prop := ∃ s ∈ m.segments, s.seq = n

/-- The checksum listed with a sequence, none where it is absent. -/
def sumAt (n : ℕ) : String := ((m.segments.find? fun s => s.seq = n).map (·.checksum)).getD ""

lemma findSum_eq_none_iff {n : ℕ} : findSum (sumsOf m.segments) n = none ↔ ¬m.Lists n := by
  rw [lookup_sumsOf, Option.map_eq_none_iff, List.find?_eq_none, Lists]
  simp

lemma findSum_of_lists {n : ℕ} (h : m.Lists n) :
    findSum (sumsOf m.segments) n = some (m.sumAt n) := by
  rw [sumAt, ← lookup_sumsOf]
  cases hf : findSum (sumsOf m.segments) n with
  | none => exact absurd h (m.findSum_eq_none_iff.mp hf)
  | some s => rfl

/-- The entries are the sequences listed, each with its checksum. -/
lemma mem_sumsOf {e : ℕ × String} :
    e ∈ sumsOf m.segments ↔ m.Lists e.1 ∧ e.2 = m.sumAt e.1 := by
  constructor
  · intro he
    have hfind := (ascends_sumsOf m.segments).findSum_eq he
    have hlists : m.Lists e.1 := by
      by_contra hno
      rw [m.findSum_eq_none_iff.mpr hno] at hfind
      exact absurd hfind (by simp)
    rw [m.findSum_of_lists hlists, Option.some_inj] at hfind
    exact ⟨hlists, hfind.symm⟩
  · rintro ⟨hlists, hsum⟩
    have hmem := mem_of_findSum (m.findSum_of_lists hlists)
    rwa [← hsum] at hmem

end Manifest

/-- The list holds exactly these sequences, ascending. -/
def ListsExactly (l : List ℕ) (P : ℕ → Prop) : Prop := l.Pairwise (· < ·) ∧ ∀ n, n ∈ l ↔ P n

/-- What a comparison says is so. -/
structure CompareExact (primary second : Manifest) (d : MirrorDiff) : Prop where
  onlyPrimary : ListsExactly d.onlyPrimary fun n => primary.Lists n ∧ ¬second.Lists n
  onlySecond : ListsExactly d.onlySecond fun n => second.Lists n ∧ ¬primary.Lists n
  checksumMismatch : ListsExactly d.checksumMismatch fun n =>
    primary.Lists n ∧ second.Lists n ∧
      primary.sumAt n ≠ "" ∧ second.sumAt n ≠ "" ∧ primary.sumAt n ≠ second.sumAt n
  complete : d.complete = true → (∀ n, primary.Lists n ↔ second.Lists n) ∧
    ∀ n, primary.Lists n →
      primary.sumAt n ≠ "" ∧ second.sumAt n ≠ "" ∧ primary.sumAt n = second.sumAt n

/-- The other way round. -/
def MirrorDiff.swap (d : MirrorDiff) : MirrorDiff :=
  { d with onlyPrimary := d.onlySecond, onlySecond := d.onlyPrimary }

/-- A manifest says enough to be compared: the sequences differ, or a checksum does, or none is
absent. -/
def Compared (primary second : Manifest) : Prop :=
  (∃ n, ¬(primary.Lists n ↔ second.Lists n)) ∨
    (∃ n, primary.Lists n ∧ primary.sumAt n ≠ "" ∧ second.sumAt n ≠ "" ∧
      primary.sumAt n ≠ second.sumAt n) ∨
    ∀ n, primary.Lists n → primary.sumAt n ≠ "" ∧ second.sumAt n ≠ ""

section Diff

variable (a b : Manifest)

lemma listsExactly_filter (p : ℕ × String → Bool) :
    ListsExactly (((sumsOf a.segments).filter p).map (·.1))
      fun n => a.Lists n ∧ p (n, a.sumAt n) = true := by
  refine ⟨?_, fun n => ?_⟩
  · exact (ascends_sumsOf a.segments).sublist (List.filter_sublist.map _)
  · rw [List.mem_map]
    constructor
    · rintro ⟨e, he, rfl⟩
      obtain ⟨hmem, hp⟩ := List.mem_filter.mp he
      obtain ⟨hlists, hsum⟩ := a.mem_sumsOf.mp hmem
      rw [← hsum]
      exact ⟨hlists, hp⟩
    · rintro ⟨hlists, hp⟩
      exact ⟨(n, a.sumAt n), List.mem_filter.mpr ⟨a.mem_sumsOf.mpr ⟨hlists, rfl⟩, hp⟩, rfl⟩

lemma ListsExactly.congr {l : List ℕ} {P Q : ℕ → Prop} (h : ListsExactly l P)
    (hPQ : ∀ n, P n ↔ Q n) : ListsExactly l Q := ⟨h.1, fun n => (h.2 n).trans (hPQ n)⟩

/-- Two lists of the same sequences are one. -/
lemma ListsExactly.eq {l l' : List ℕ} {P : ℕ → Prop} (h : ListsExactly l P)
    (h' : ListsExactly l' P) : l = l' := by
  refine List.Perm.eq_of_pairwise (fun x y _ _ hxy hyx => absurd (hxy.trans hyx) (lt_irrefl x))
    h.1 h'.1 ?_
  refine (List.perm_ext_iff_of_nodup (h.1.imp fun hlt => hlt.ne)
    (h'.1.imp fun hlt => hlt.ne)).mpr ?_
  exact fun n => (h.2 n).trans (h'.2 n).symm

lemma ListsExactly.eq_nil_iff {l : List ℕ} {P : ℕ → Prop} (h : ListsExactly l P) :
    l = [] ↔ ∀ n, ¬P n := by
  rw [List.eq_nil_iff_forall_not_mem]
  exact forall_congr' fun n => not_congr (h.2 n)

/-- The two lists of what one of them lists alone. -/
lemma only_diffOf :
    ListsExactly (diffOf (sumsOf a.segments) (sumsOf b.segments)).onlyPrimary
        (fun n => a.Lists n ∧ ¬b.Lists n) ∧
      ListsExactly (diffOf (sumsOf a.segments) (sumsOf b.segments)).onlySecond
        (fun n => b.Lists n ∧ ¬a.Lists n) := by
  refine ⟨(listsExactly_filter a _).congr fun n => ?_, (listsExactly_filter b _).congr fun n => ?_⟩
  · rw [Option.isNone_iff_eq_none, b.findSum_eq_none_iff]
  · rw [Option.isNone_iff_eq_none, a.findSum_eq_none_iff]

lemma mismatch_diffOf :
    ListsExactly (diffOf (sumsOf a.segments) (sumsOf b.segments)).checksumMismatch fun n =>
      a.Lists n ∧ b.Lists n ∧ a.sumAt n ≠ "" ∧ b.sumAt n ≠ "" ∧ a.sumAt n ≠ b.sumAt n := by
  refine (listsExactly_filter a _).congr fun n => and_congr_right fun _ => ?_
  by_cases hb : b.Lists n
  · rw [b.findSum_of_lists hb, Option.any_some, decide_eq_true_eq]
    exact (and_iff_right hb).symm
  · rw [b.findSum_eq_none_iff.mpr hb]
    simp [hb]

lemma complete_diffOf :
    (diffOf (sumsOf a.segments) (sumsOf b.segments)).complete = true ↔
      (∀ n, a.Lists n ↔ b.Lists n) ∧
        ∀ n, a.Lists n → a.sumAt n ≠ "" → b.sumAt n ≠ "" → a.sumAt n = b.sumAt n := by
  obtain ⟨hprimary, hsecond⟩ := only_diffOf a b
  have hmismatch := mismatch_diffOf a b
  have hcomplete : (diffOf (sumsOf a.segments) (sumsOf b.segments)).complete = true ↔
      (diffOf (sumsOf a.segments) (sumsOf b.segments)).onlyPrimary = [] ∧
        (diffOf (sumsOf a.segments) (sumsOf b.segments)).onlySecond = [] ∧
          (diffOf (sumsOf a.segments) (sumsOf b.segments)).checksumMismatch = [] := by
    simp only [diffOf, MirrorDiff.total, decide_eq_true_eq, Nat.add_eq_zero_iff,
      List.length_eq_zero_iff, and_assoc]
  rw [hcomplete, hprimary.eq_nil_iff, hsecond.eq_nil_iff, hmismatch.eq_nil_iff]
  constructor
  · rintro ⟨hp, hs, hm⟩
    have hsame (n : ℕ) : a.Lists n ↔ b.Lists n :=
      ⟨fun h => not_not.mp fun hb => hp n ⟨h, hb⟩, fun h => not_not.mp fun ha => hs n ⟨h, ha⟩⟩
    refine ⟨hsame, fun n hn hsum hsum' => not_not.mp fun hne => ?_⟩
    exact hm n ⟨hn, (hsame n).mp hn, hsum, hsum', hne⟩
  · rintro ⟨hsame, heq⟩
    exact ⟨fun n hn => hn.2 ((hsame n).mp hn.1), fun n hn => hn.2 ((hsame n).mpr hn.1),
      fun n ⟨hn, _, hsum, hsum', hne⟩ => hne (heq n hn hsum hsum')⟩

/-- The other way round the same is said. -/
lemma diffOf_swap :
    diffOf (sumsOf b.segments) (sumsOf a.segments) =
      (diffOf (sumsOf a.segments) (sumsOf b.segments)).swap := by
  obtain ⟨hprimary, hsecond⟩ := only_diffOf a b
  obtain ⟨hprimary', hsecond'⟩ := only_diffOf b a
  have hmismatch : (diffOf (sumsOf b.segments) (sumsOf a.segments)).checksumMismatch =
      (diffOf (sumsOf a.segments) (sumsOf b.segments)).checksumMismatch := by
    refine (mismatch_diffOf b a).eq ((mismatch_diffOf a b).congr fun n => ?_)
    constructor
    · exact fun ⟨ha, hb, hsa, hsb, hne⟩ => ⟨hb, ha, hsb, hsa, hne.symm⟩
    · exact fun ⟨hb, ha, hsb, hsa, hne⟩ => ⟨ha, hb, hsa, hsb, hne.symm⟩
  have hcomplete : (diffOf (sumsOf b.segments) (sumsOf a.segments)).complete =
      (diffOf (sumsOf a.segments) (sumsOf b.segments)).complete := by
    rw [Bool.eq_iff_iff, complete_diffOf, complete_diffOf]
    constructor
    · rintro ⟨hsame, heq⟩
      exact ⟨fun n => (hsame n).symm,
        fun n hn ha hb => (heq n ((hsame n).mpr hn) hb ha).symm⟩
    · rintro ⟨hsame, heq⟩
      exact ⟨fun n => (hsame n).symm,
        fun n hn hb ha => (heq n ((hsame n).mpr hn) ha hb).symm⟩
  have hp := hprimary'.eq hsecond
  have hs := hsecond'.eq hprimary
  rw [MirrorDiff.swap, ← hp, ← hs, ← hmismatch, ← hcomplete]
  rfl

end Diff

/-- The GET is answered with this manifest. -/
def GetResult.Reads (parse : Bytes → Option Json) (r : GetResult) (m : Manifest) : Prop :=
  r.success = true ∧ (parse r.body).bind Manifest.fromJson = some m

section Reads

variable {parse : Bytes → Option Json} {r primary second : GetResult} {m a b : Manifest}

lemma GetResult.Reads.readManifest (h : r.Reads parse m) :
    readManifest parse r = .ok (sumsOf m.segments) := by
  rw [Multisite.readManifest, if_neg (by simp [h.1]), h.2]

lemma exists_reads {sums : List (ℕ × String)} (h : readManifest parse r = .ok sums) :
    ∃ m, r.Reads parse m := by
  rw [readManifest] at h
  split at h
  · exact absurd h (by simp)
  rename_i hok
  split at h
  · rename_i m hm
    exact ⟨m, by simpa using hok, hm⟩
  · exact absurd h (by simp)

lemma compareTargets_of_reads (ha : primary.Reads parse a) (hb : second.Reads parse b) :
    compareTargets parse primary second = diffOf (sumsOf a.segments) (sumsOf b.segments) := by
  rw [compareTargets, ha.readManifest, hb.readManifest]

/-- There is no error where both manifests are read, and only there. -/
lemma error_compareTargets (parse : Bytes → Option Json) (primary second : GetResult) :
    (compareTargets parse primary second).error = "" ↔
      ∃ a b, primary.Reads parse a ∧ second.Reads parse b := by
  constructor
  · intro h
    rw [compareTargets] at h
    split at h
    · exact absurd (String.append_eq_empty_iff.mp h).1 (by decide)
    · exact absurd (String.append_eq_empty_iff.mp h).1 (by decide)
    · exact absurd (String.append_eq_empty_iff.mp h).1 (by decide)
    · rename_i ha hb
      obtain ⟨a, ha⟩ := exists_reads ha
      obtain ⟨b, hb⟩ := exists_reads hb
      exact ⟨a, b, ha, hb⟩
  · rintro ⟨a, b, ha, hb⟩
    rw [compareTargets_of_reads ha hb]
    rfl

end Reads

/-- **The comparison is exact** where the manifests say enough to be compared, and only there.
There is no error where both can be read, and the other way round the lists change places. -/
theorem compare_exact_iff (parse : Bytes → Option Json) (primary second : GetResult) :
    ((compareTargets parse primary second).error = "" ↔
      ∃ a b, primary.Reads parse a ∧ second.Reads parse b) ∧
    ∀ a b, primary.Reads parse a → second.Reads parse b →
      (CompareExact a b (compareTargets parse primary second) ∧
        compareTargets parse second primary = (compareTargets parse primary second).swap ↔
          Compared a b) := by
  refine ⟨error_compareTargets parse primary second, fun a b ha hb => ?_⟩
  rw [compareTargets_of_reads ha hb, compareTargets_of_reads hb ha]
  constructor
  · rintro ⟨h, -⟩
    by_contra hno
    rw [Compared, not_or, not_or, not_exists, not_exists] at hno
    obtain ⟨hsame, heq, habsent⟩ := hno
    have hsame : ∀ n, a.Lists n ↔ b.Lists n := fun n => not_not.mp (hsame n)
    have hcomplete : (diffOf (sumsOf a.segments) (sumsOf b.segments)).complete = true := by
      refine (complete_diffOf a b).mpr ⟨hsame, fun n hn hsum hsum' => not_not.mp fun hne => ?_⟩
      exact heq n ⟨hn, hsum, hsum', hne⟩
    exact habsent fun n hn =>
      ⟨((h.complete hcomplete).2 n hn).1, ((h.complete hcomplete).2 n hn).2.1⟩
  · intro h
    obtain ⟨honly, honly'⟩ := only_diffOf a b
    refine ⟨⟨honly, honly', mismatch_diffOf a b, fun hcomplete => ?_⟩, diffOf_swap a b⟩
    obtain ⟨hsame, heq⟩ := (complete_diffOf a b).mp hcomplete
    obtain ⟨n, hn⟩ | ⟨n, hn, hsum, hsum', hne⟩ | hall := h
    · exact absurd (hsame n) hn
    · exact absurd (heq n hn hsum hsum') hne
    · refine ⟨hsame, fun n hn => ?_⟩
      obtain ⟨hsum, hsum'⟩ := hall n hn
      exact ⟨hsum, hsum', heq n hn hsum hsum'⟩

/-- A manifest's JSON, with one segment and its checksum. -/
def listedJson (sum : String) : Json :=
  .obj [("segments", .arr [.obj [("seq", .int 7), ("checksum", .str sum)]])]

/-- A parser for the texts `[1]` and `[2]`. -/
def manifestBody (body : Bytes) : Option Json :=
  if body = [1] then some (listedJson "ab") else if body = [2] then some (listedJson "") else none

/-- A manifest beside itself, with its checksum. -/
theorem compare_exact_iff_summed :
    ∃ a, GetResult.Reads manifestBody { success := true, body := [1] } a ∧
      CompareExact a a (compareTargets manifestBody { success := true, body := [1] }
        { success := true, body := [1] }) := by
  have hsums : readManifest manifestBody { success := true, body := [1] } = .ok [(7, "ab")] := by
    decide +kernel
  obtain ⟨a, ha⟩ := exists_reads hsums
  rw [ha.readManifest, Except.ok.injEq] at hsums
  have hsum (n : ℕ) (hn : a.Lists n) : a.sumAt n = "ab" := by
    have hmem : (n, a.sumAt n) ∈ sumsOf a.segments := a.mem_sumsOf.mpr ⟨hn, rfl⟩
    rw [hsums, List.mem_singleton, Prod.mk.injEq] at hmem
    exact hmem.2
  refine ⟨a, ha, (((compare_exact_iff manifestBody _ _).2 a a ha ha).mpr (.inr (.inr ?_))).1⟩
  intro n hn
  rw [hsum n hn]
  exact ⟨by decide, by decide⟩

/-- Two manifests without checksums are complete. -/
theorem compare_not_exact :
    ∃ a b, GetResult.Reads manifestBody { success := true, body := [2] } a ∧
      GetResult.Reads manifestBody { success := true, body := [2] } b ∧
      ¬CompareExact a b (compareTargets manifestBody { success := true, body := [2] }
        { success := true, body := [2] }) := by
  have hsums : readManifest manifestBody { success := true, body := [2] } = .ok [(7, "")] := by
    decide +kernel
  obtain ⟨a, ha⟩ := exists_reads hsums
  refine ⟨a, a, ha, ha, fun h => ?_⟩
  rw [ha.readManifest, Except.ok.injEq] at hsums
  have hcomplete : (diffOf (sumsOf a.segments) (sumsOf a.segments)).complete = true := by
    rw [hsums]
    rfl
  rw [compareTargets_of_reads ha ha] at h
  have hmem : (7, "") ∈ sumsOf a.segments := by
    rw [hsums]
    exact List.mem_cons_self
  obtain ⟨hlists, hsum⟩ := a.mem_sumsOf.mp hmem
  exact ((h.complete hcomplete).2 7 hlists).1 hsum.symm

end Multisite

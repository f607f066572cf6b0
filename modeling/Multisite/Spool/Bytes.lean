import Multisite.Spool.Laws

/-!
How many bytes the `.seg` files of a folder hold, and what each operation of `SpoolQueue` does to
that and to `m_bytes_pending`.

* `segTotal`, `segSize`: the bytes in all, and those of one segment's file;
* `segTotal_seg`, `segTotal_removals`: after a segment is written, and after some are removed;
* `load_bytesPending`: opening counts what is there;
* `evictLoop_bytes`: what the disk cap takes off, and why it stops;
* `foldl_forget`: what a sweep takes off.
-/

namespace Multisite

/-- The bytes of all `.seg` files. -/
def segTotal (d : Option Folder) : ℕ :=
  match d with
  | some f => (f.segs.entries.map fun e => e.2.length).sum
  | none => 0

namespace SpoolQueue

variable {d : Option Folder} {s x : ℕ} {b : Bytes} {l vs : List ℕ}

/-- The bytes of the segment's file, none when there is no such file. -/
def segSize (d : Option Folder) (s : ℕ) : ℕ := (fileSize d s).getD 0

/-- The bytes of these segments' files. -/
def sizes (d : Option Folder) (l : List ℕ) : ℕ := (l.map (segSize d)).sum

@[simp] lemma sizes_nil : sizes d [] = 0 := rfl

@[simp] lemma sizes_cons : sizes d (s :: l) = segSize d s + sizes d l := rfl

lemma sizes_append (l t : List ℕ) : sizes d (l ++ t) = sizes d l + sizes d t := by
  rw [sizes, List.map_append, List.sum_append]
  rfl

lemma segSize_some (f : Folder) (s : ℕ) :
    segSize (some f) s = ((f.segs.lookup s).map List.length).getD 0 := rfl

/-! ### One file -/

lemma sum_kerase (l : List (Σ _ : ℕ, Bytes)) (s : ℕ) :
    ((l.kerase s).map fun e => e.2.length).sum + ((l.dlookup s).map List.length).getD 0 =
      (l.map fun e => e.2.length).sum := by
  induction l with
  | nil => rfl
  | cons e l ih =>
      obtain ⟨k, b⟩ := e
      by_cases hk : s = k
      · subst hk
        have hrest : List.kerase s (⟨s, b⟩ :: l) = l := List.kerase_cons_eq rfl
        rw [hrest, List.dlookup_cons_eq, List.map_cons, List.sum_cons]
        exact Nat.add_comm _ _
      · rw [List.kerase_cons_ne hk, List.dlookup_cons_ne _ _ hk, List.map_cons, List.sum_cons,
          List.map_cons, List.sum_cons]
        dsimp only
        omega

lemma segTotal_removeSeg (d : Option Folder) (s : ℕ) :
    segTotal (Write.apply (.removeSeg s) d) + segSize d s = segTotal d := by
  cases d with
  | none => rfl
  | some f => exact sum_kerase f.segs.entries s

/-- A segment written takes the place of the one that was there. -/
lemma segTotal_seg (hd : d.isSome) (s : ℕ) (b : Bytes) :
    segTotal (Write.apply (.seg s b) d) + segSize d s = segTotal d + b.length := by
  obtain ⟨f, rfl⟩ := Option.isSome_iff_exists.mp hd
  have hentries : (f.segs.insert s b).entries = ⟨s, b⟩ :: f.segs.entries.kerase s :=
    AList.entries_insert
  have hsum := sum_kerase f.segs.entries s
  show ((f.segs.insert s b).entries.map fun e => e.2.length).sum + segSize (some f) s =
    (f.segs.entries.map fun e => e.2.length).sum + b.length
  rw [hentries, List.map_cons, List.sum_cons, ← hsum, segSize_some]
  show b.length + _ + ((f.segs.entries.dlookup s).map List.length).getD 0 = _
  omega

lemma segTotal_sidecar (d : Option Folder) (s : ℕ) (m : Sidecar) :
    segTotal (Write.apply (.sidecar s m) d) = segTotal d := by
  cases d <;> rfl

lemma segTotal_removeSidecar (d : Option Folder) (s : ℕ) :
    segTotal (Write.apply (.removeSidecar s) d) = segTotal d := by
  cases d <;> rfl

lemma segTotal_state (d : Option Folder) (st : SpoolState) :
    segTotal (Write.apply (.state st) d) = segTotal d := by
  cases d <;> rfl

lemma segSize_of_segData {d' : Option Folder} (h : segData d' x = segData d x) :
    segSize d' x = segSize d x := by
  have hfile (d : Option Folder) : fileSize d x = (segData d x).map List.length := rfl
  rw [segSize, segSize, hfile, hfile, h]

/-! ### Several files -/

lemma segData_seg (hd : d.isSome) (s : ℕ) (b : Bytes) (x : ℕ) :
    segData (Write.apply (.seg s b) d) x = if x = s then some b else segData d x := by
  obtain ⟨f, rfl⟩ := Option.isSome_iff_exists.mp hd
  by_cases hx : x = s
  · subst hx
    simp [Write.apply, segData]
  · simp [Write.apply, segData, hx, AList.lookup_insert_ne hx]

lemma segData_removals (vs : List ℕ) (d : Option Folder) (x : ℕ) :
    segData (applyWrites (removals vs) d) x = if x ∈ vs then none else segData d x :=
  (files_removals vs d x).1

/-- **Removals** take the bytes of their files. -/
lemma segTotal_removals (hvs : vs.Nodup) (d : Option Folder) :
    segTotal (applyWrites (removals vs) d) + sizes d vs = segTotal d := by
  induction vs generalizing d with
  | nil => rfl
  | cons v vs ih =>
      obtain ⟨hv, hrest⟩ := List.nodup_cons.mp hvs
      have hremoved := segTotal_removeSeg d v
      have hsidecar := segTotal_removeSidecar (Write.apply (.removeSeg v) d) v
      have hrec := ih hrest (Write.apply (.removeSidecar v) (Write.apply (.removeSeg v) d))
      -- The files still to be removed are the ones there were.
      have hsame : sizes (Write.apply (.removeSidecar v) (Write.apply (.removeSeg v) d)) vs =
          sizes d vs := by
        rw [sizes, sizes]
        refine congrArg List.sum (List.map_congr_left fun x hx => segSize_of_segData ?_)
        have hone := segData_removals [v] d x
        rw [if_neg (by simpa using fun h : x = v => hv (h ▸ hx))] at hone
        exact hone
      have hcons : applyWrites (removals (v :: vs)) d = applyWrites (removals vs)
          (Write.apply (.removeSidecar v) (Write.apply (.removeSeg v) d)) := rfl
      rw [hcons, sizes_cons]
      omega

lemma sizes_le_segTotal (hl : l.Nodup) (d : Option Folder) : sizes d l ≤ segTotal d := by
  have := segTotal_removals hl d
  omega

/-- The files of the pending segments are all there are. -/
lemma sizes_pendingSeqs {q : SpoolQueue} (hdir : q.dir.isSome) (d : Option Folder) :
    sizes d (q.pendingSeqs d) = segTotal d := by
  cases d with
  | none =>
      have hnil : q.pendingSeqs none = [] := by simp [pendingSeqs]
      rw [hnil]
      rfl
  | some f =>
      obtain ⟨i, hi⟩ := Option.isSome_iff_exists.mp hdir
      have hkeys : sizes (some f) f.segs.keys = segTotal (some f) := by
        rw [sizes, segTotal, AList.keys, List.keys, List.map_map]
        refine congrArg List.sum (List.map_congr_left fun e he => ?_)
        have hlookup : f.segs.lookup e.1 = some e.2 := AList.mem_lookup_iff.mpr he
        show segSize (some f) e.1 = e.2.length
        rw [segSize_some, hlookup]
        rfl
      have hperm := List.perm_insertionSort (· ≤ ·) f.segs.keys
      have hpending : q.pendingSeqs (some f) = f.segs.keys.insertionSort (· ≤ ·) := by
        simp [pendingSeqs, hi]
      rw [hpending, sizes, (hperm.map _).sum_eq]
      exact hkeys

/-! ### Counting -/

lemma foldl_count (l : List ℕ) (n : ℕ) :
    l.foldl (fun n s => (n + (fileSize d s).getD 0) % 2 ^ 64) (n % 2 ^ 64) =
      (n + sizes d l) % 2 ^ 64 := by
  induction l generalizing n with
  | nil => rfl
  | cons s l ih =>
      rw [List.foldl_cons, Nat.mod_add_mod, ih, sizes_cons, ← Nat.add_assoc]
      rfl

/-- **Opening** counts what is there. -/
lemma load_bytesPending {maxBytes : ℕ} {dir : Option String} (hdir : dir.isSome)
    (hfits : segTotal d < 2 ^ 64) : (load maxBytes dir d).bytesPending = segTotal d := by
  have hcount := foldl_count (d := d) (pendingSeqs { dir } d) 0
  rw [Nat.zero_add, sizes_pendingSeqs hdir, Nat.mod_eq_of_lt hfits] at hcount
  exact hcount

lemma forget_eq {n : ℕ} (h : segSize d s ≤ n) : forget d n s + segSize d s = n := by
  rw [forget]
  rw [segSize] at h ⊢
  cases hsize : fileSize d s with
  | none => rfl
  | some sz =>
      rw [hsize, Option.getD_some] at h
      dsimp only
      rw [if_pos h, Option.getD_some]
      omega

/-- **A sweep** takes off what it removes. -/
lemma foldl_forget {n : ℕ} (h : sizes d l ≤ n) : l.foldl (forget d) n + sizes d l = n := by
  induction l generalizing n with
  | nil => rfl
  | cons s l ih =>
      rw [sizes_cons] at h
      have hone := forget_eq (d := d) (s := s) (n := n) (by omega)
      have hrest := ih (n := forget d n s) (by omega)
      rw [List.foldl_cons, sizes_cons]
      omega

/-! ### The disk cap -/

/-- **The disk cap** takes off what it evicts, and stops with the bytes under the cap, with one
segment left, or at the one just written. -/
lemma evictLoop_bytes {maxBytes keep : ℕ} {e : Evicting} (h : sizes d l ≤ e.bytesPending) :
    ∃ vs rest, l = vs ++ rest ∧
      (evictLoop maxBytes keep d e l).drops.map (·.seq) = e.drops.map (·.seq) ++ vs ∧
      (evictLoop maxBytes keep d e l).bytesPending + sizes d vs = e.bytesPending ∧
      ((evictLoop maxBytes keep d e l).bytesPending ≤ maxBytes ∨ rest.length ≤ 1 ∨
        rest.head? = some keep) := by
  induction l generalizing e with
  | nil => exact ⟨[], [], rfl, by simp [evictLoop], rfl, Or.inr (Or.inl (by simp))⟩
  | cons v rest ih =>
      rw [evictLoop]
      by_cases hv : maxBytes < e.bytesPending ∧ rest ≠ [] ∧ v ≠ keep
      · rw [sizes_cons] at h
        have hfree : (evictLocked d e v).bytesPending + segSize d v = e.bytesPending := by
          show subU64 e.bytesPending (segSize d v) + segSize d v = e.bytesPending
          rw [subU64, if_pos (by omega)]
          omega
        obtain ⟨vs, rest', hl, hdrops, hbytes, hstop⟩ := ih (e := evictLocked d e v) (by omega)
        rw [if_pos hv]
        refine ⟨v :: vs, rest', by rw [hl, List.cons_append], ?_, ?_, hstop⟩
        · rw [hdrops]
          simp [evictLocked]
        · rw [sizes_cons]
          omega
      · rw [if_neg hv]
        refine ⟨[], v :: rest, rfl, by simp, rfl, ?_⟩
        by_cases hcap : maxBytes < e.bytesPending
        · by_cases hrest : rest = []
          · exact Or.inr (Or.inl (by simp [hrest]))
          · refine Or.inr (Or.inr ?_)
            rw [List.head?_cons, Option.some_inj]
            by_contra hne
            exact hv ⟨hcap, hrest, hne⟩
        · exact Or.inl (not_lt.mp hcap)

lemma overCap_bytes {q : SpoolQueue} {seq : ℕ} {e : Evicting}
    (h : sizes d (q.pendingSeqs d) ≤ e.bytesPending) :
    ∃ vs rest, q.pendingSeqs d = vs ++ rest ∧
      (q.overCap d seq e).drops.map (·.seq) = e.drops.map (·.seq) ++ vs ∧
      (q.overCap d seq e).bytesPending + sizes d vs = e.bytesPending ∧
      (0 < q.maxBytes → (q.overCap d seq e).bytesPending ≤ q.maxBytes ∨ rest.length ≤ 1 ∨
        rest.head? = some seq) := by
  rw [overCap]
  by_cases hcap : q.maxBytes > 0
  · obtain ⟨vs, rest, hl, hdrops, hbytes, hstop⟩ :=
      evictLoop_bytes h
    rw [if_pos hcap]
    exact ⟨vs, rest, hl, hdrops, hbytes, fun _ => hstop⟩
  · rw [if_neg hcap]
    exact ⟨[], _, rfl, by simp, rfl, fun hpos => absurd hpos hcap⟩

end SpoolQueue

end Multisite

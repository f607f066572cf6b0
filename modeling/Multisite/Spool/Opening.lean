import Multisite.Spool.Root

/-!
Opening a spool root with no event named: the single-folder layout moved into its event's folder,
one unfinished event kept, the others ended and owed.

* `folder_migrate`, `folder_ended`: what each half of the constructor leaves in a folder;
* `best_eq_some`, `best_eq_none`: the event that is kept;
* `openRoot_again`: opening again changes nothing;
* `strandsNothing_iff`: when opening strands nothing.
-/

namespace Multisite

namespace Root

variable {r : Root} {id : String} {d : Folder} {file : StateFile}

/-! ### What was unfinished -/

/-- The recorded state is that of an event not ended. -/
def unended (file : Option StateFile) : Bool :=
  (readStateFile file).valid && !(readStateFile file).ended

/-- When the event was last active. -/
def lastActive (file : Option StateFile) : ℤ := (readStateFile file).lastActivityMs

/-- The folder that what lies in the root goes to. -/
def dest (file : StateFile) : String :=
  if (readStateFile (some file)).valid && decide ((readStateFile (some file)).eventId ≠ "") then
    (readStateFile (some file)).eventId
  else "unknown-event"

/-- What `migrate_single_folder` leaves in the folder `f`. -/
def moved (r : Root) (file : StateFile) (f : Folder) : Folder :=
  { state := some file, segs := r.loose.segs ∪ f.segs, metas := r.loose.metas ∪ f.metas }

/-- An event that is not ended in the root, and when it was last active: one with a folder, or that
of the single-folder layout. -/
inductive WasUnended (r : Root) : String → ℤ → Prop where
  | folder {id : String} {d : Folder} (h : r.folder id = some d) (hd : unended d.state = true) :
      WasUnended r id (lastActive d.state)
  | loose {file : StateFile} (h : r.loose.state = some file) (hf : unended (some file) = true) :
      WasUnended r (dest file) (lastActive (some file))

lemma mem_unfinished_iff {e : String × SpoolState} : e ∈ r.unfinished ↔
    ∃ d, r.folder e.1 = some d ∧ e.2 = readStateFile d.state ∧ unended d.state = true := by
  rw [unfinished, List.mem_filter, states, List.mem_map]
  constructor
  · rintro ⟨⟨⟨x, d⟩, hmem, rfl⟩, hst⟩
    exact ⟨d, mem_entries_iff.mp hmem, rfl, hst⟩
  · rintro ⟨d, hd, hst, hu⟩
    refine ⟨⟨⟨e.1, d⟩, mem_entries_iff.mpr hd, Prod.ext rfl hst.symm⟩, ?_⟩
    rw [hst]
    exact hu

lemma unfinished_nodup (r : Root) : (r.unfinished.map (·.1)).Nodup := by
  have hkeys : (r.states.map (·.1)).Nodup := by
    rw [states, List.map_map]
    exact r.events.nodupKeys
  exact hkeys.sublist (List.filter_sublist.map _)

/-! ### The event that is kept -/

lemma best_foldl (l : List (String × SpoolState)) (b : Option String × ℤ) :
    (∀ e ∈ l, e.2.lastActivityMs ≤ b.2) ∧
        l.foldl (fun (b : Option String × ℤ) e =>
          if e.2.lastActivityMs > b.2 then (some e.1, e.2.lastActivityMs) else b) b = b ∨
      ∃ e ∈ l, b.2 < e.2.lastActivityMs ∧ (∀ e' ∈ l, e'.2.lastActivityMs ≤ e.2.lastActivityMs) ∧
        l.foldl (fun (b : Option String × ℤ) e =>
          if e.2.lastActivityMs > b.2 then (some e.1, e.2.lastActivityMs) else b) b =
            (some e.1, e.2.lastActivityMs) := by
  induction l generalizing b with
  | nil => exact Or.inl ⟨fun e he => absurd he (by simp), rfl⟩
  | cons x l ih =>
      rw [List.foldl_cons]
      by_cases hx : x.2.lastActivityMs > b.2
      · rw [if_pos hx]
        right
        rcases ih (some x.1, x.2.lastActivityMs) with ⟨hall, heq⟩ | ⟨e, he, hlt, hall, heq⟩
        · refine ⟨x, List.mem_cons_self, hx, fun e' he' => ?_, heq⟩
          rcases List.mem_cons.mp he' with rfl | h
          · exact le_rfl
          · exact hall e' h
        · refine ⟨e, List.mem_cons_of_mem _ he, hx.trans hlt, fun e' he' => ?_, heq⟩
          rcases List.mem_cons.mp he' with rfl | h
          · exact hlt.le
          · exact hall e' h
      · rw [if_neg hx]
        rcases ih b with ⟨hall, heq⟩ | ⟨e, he, hlt, hall, heq⟩
        · refine Or.inl ⟨fun e' he' => ?_, heq⟩
          rcases List.mem_cons.mp he' with rfl | h
          · exact not_lt.mp hx
          · exact hall e' h
        · refine Or.inr ⟨e, List.mem_cons_of_mem _ he, hlt, fun e' he' => ?_, heq⟩
          rcases List.mem_cons.mp he' with rfl | h
          · exact (not_lt.mp hx).trans hlt.le
          · exact hall e' h

/-- **The event that is kept** was the last active. -/
lemma best_eq_some {l : List (String × SpoolState)} (h : best l = some id) :
    ∃ e ∈ l, e.1 = id ∧ -1 < e.2.lastActivityMs ∧
      ∀ e' ∈ l, e'.2.lastActivityMs ≤ e.2.lastActivityMs := by
  rcases best_foldl l (none, -1) with ⟨-, heq⟩ | ⟨e, he, hlt, hall, heq⟩
  · rw [best, heq] at h
    exact absurd h (by simp)
  · rw [best, heq] at h
    exact ⟨e, he, Option.some_injective _ h, hlt, hall⟩

lemma best_eq_none {l : List (String × SpoolState)} (h : best l = none) :
    ∀ e ∈ l, e.2.lastActivityMs ≤ -1 := by
  rcases best_foldl l (none, -1) with ⟨hall, -⟩ | ⟨e, -, -, -, heq⟩
  · exact hall
  · rw [best, heq] at h
    exact absurd h (by simp)

/-! ### The folders -/

lemma folder_migrate (h : r.loose.state = some file) (id : String) :
    r.migrateSingleFolder.folder id =
      if id = dest file then some (r.moved file ((r.folder (dest file)).getD {}))
      else r.folder id := by
  rw [migrateSingleFolder, h]
  dsimp only
  by_cases hid : id = dest file
  · rw [if_pos hid, hid]
    exact AList.lookup_insert r.events
  · rw [if_neg hid]
    exact AList.lookup_insert_ne hid

lemma loose_migrate : r.migrateSingleFolder.loose.state = none := by
  rw [migrateSingleFolder]
  split
  · assumption
  · rfl

/-- A folder that was not the one kept. -/
def ended (d : Folder) : Folder :=
  { d with state := some (.parsed
      { readStateFile d.state with ended := true, endUnpublished := true }) }

variable {b : Option String}

lemma folder_foldl_end (l : List (String × SpoolState)) (hl : (l.map (·.1)).Nodup) (r : Root) :
    (∀ e ∈ l, ∃ d, r.folder e.1 = some d ∧ e.2 = readStateFile d.state) → ∀ id,
    (l.foldl (fun r e => if some e.1 = b then r
        else r.write (some e.1) [.state { e.2 with ended := true, endUnpublished := true }]) r).folder
      id = if id ∈ l.map (·.1) ∧ some id ≠ b then (r.folder id).map ended else r.folder id := by
  induction l generalizing r with
  | nil =>
      intro _ id
      simp
  | cons e l ih =>
      intro hstates id
      obtain ⟨hnot, hrest⟩ := List.nodup_cons.mp hl
      obtain ⟨d, hd, hst⟩ := hstates e List.mem_cons_self
      rw [List.foldl_cons]
      by_cases hbest : some e.1 = b
      · rw [if_pos hbest, ih hrest r fun e' he' => hstates e' (List.mem_cons_of_mem _ he')]
        by_cases hid : id = e.1
        · rw [if_neg fun h => h.2 (hid ▸ hbest), if_neg fun h => h.2 (hid ▸ hbest)]
        · simp only [List.map_cons, List.mem_cons, hid, false_or]
      · -- The write is in this folder, and the others still to come are not.
        have hother : ∀ e' ∈ l, ∃ d', (r.write (some e.1)
            [.state { e.2 with ended := true, endUnpublished := true }]).folder e'.1 = some d' ∧
              e'.2 = readStateFile d'.state := by
          intro e' he'
          have hne : e'.1 ≠ e.1 := by
            intro heq
            refine hnot ?_
            show e.1 ∈ l.map (·.1)
            rw [← heq]
            exact List.mem_map_of_mem he'
          rw [folder_write_of_ne r _ fun h => hne (Option.some_injective _ h).symm]
          exact hstates e' (List.mem_cons_of_mem _ he')
        rw [if_neg hbest, ih hrest _ hother]
        by_cases hid : id = e.1
        · subst hid
          rw [if_neg fun h => hnot h.1, if_pos ⟨List.mem_cons_self, hbest⟩, folder_write_self, hd,
            hst]
          rfl
        · rw [folder_write_of_ne r _ fun h => hid (Option.some_injective _ h).symm]
          simp only [List.map_cons, List.mem_cons, hid, false_or]

/-- **Ending the others**, folder by folder. -/
lemma folder_ended (r : Root) (b : Option String) (id : String) :
    (r.endOthers b).folder id = (r.folder id).map fun d =>
      if unended d.state = true ∧ some id ≠ b then ended d else d := by
  have hstates : ∀ e ∈ r.unfinished, ∃ d, r.folder e.1 = some d ∧ e.2 = readStateFile d.state := by
    intro e he
    obtain ⟨d, hd, hst, -⟩ := mem_unfinished_iff.mp he
    exact ⟨d, hd, hst⟩
  rw [endOthers, folder_foldl_end r.unfinished (unfinished_nodup r) r hstates]
  cases hd : r.folder id with
  | none => simp
  | some d =>
      have hmem : id ∈ r.unfinished.map (·.1) ↔ unended d.state = true := by
        rw [List.mem_map]
        constructor
        · rintro ⟨e, he, rfl⟩
          obtain ⟨d', hd', -, hu⟩ := mem_unfinished_iff.mp he
          obtain rfl := Option.some_injective _ (hd.symm.trans hd')
          exact hu
        · exact fun hu => ⟨(id, readStateFile d.state), mem_unfinished_iff.mpr ⟨d, hd, rfl, hu⟩, rfl⟩
      rw [Option.map_some, Option.map_some]
      by_cases hend : unended d.state = true ∧ some id ≠ b
      · rw [if_pos ⟨hmem.mpr hend.1, hend.2⟩, if_pos hend]
      · rw [if_neg fun h => hend ⟨hmem.mp h.1, h.2⟩, if_neg hend]

lemma unended_ended (d : Folder) : unended (ended d).state = false := rfl

/-- What is ended this way is owed its end. -/
lemma owed_ended (d : Folder) : owed (ended d) = true := by
  show (true && true && ((ended d).hasSegments || true)) = true
  simp

/-- Where every unfinished event is the one kept, nothing is ended. -/
lemma endOthers_eq_self (h : ∀ e ∈ r.unfinished, some e.1 = b) : r.endOthers b = r := by
  rw [endOthers]
  refine List.foldlRecOn (motive := fun x : Root => x = r) _ _ rfl ?_
  rintro x rfl e he
  exact if_pos (h e he)

end Root

/-! ### Opening -/

open Root

/-- What a `.meta` file of the folder holds. -/
def metaData (d : Option Folder) (s : ℕ) : Option SidecarFile := d.bind fun d => d.metas.lookup s

section Opening

variable (maxBytes : ℕ) (r : Root)

/-- The root as the constructor leaves it. -/
abbrev opened : Root := (SpoolQueue.openRoot maxBytes r "").2

/-- The queue that the constructor makes. -/
abbrev openedQueue : SpoolQueue := (SpoolQueue.openRoot maxBytes r "").1

/-- **Opening strands nothing**: every segment file and sidecar is there, moved at most from the
root into its event's folder; at most one event is left unfinished, the last active of those that
were; every other one of them is one the finisher finds; `inspect` reports the one; and opening
again changes nothing. -/
structure StrandsNothing : Prop where
  segs : ∀ id s b, segData (r.folder id) s = some b →
    segData ((opened maxBytes r).folder id) s = some b
  metas : ∀ id s m, metaData (r.folder id) s = some m →
    metaData ((opened maxBytes r).folder id) s = some m
  looseSegs : ∀ s b, r.loose.segs.lookup s = some b →
    (opened maxBytes r).loose.segs.lookup s = some b ∨ ∃ file, r.loose.state = some file ∧
      segData ((opened maxBytes r).folder (dest file)) s = some b
  looseMetas : ∀ s m, r.loose.metas.lookup s = some m →
    (opened maxBytes r).loose.metas.lookup s = some m ∨ ∃ file, r.loose.state = some file ∧
      metaData ((opened maxBytes r).folder (dest file)) s = some m
  one : ∀ id d, (opened maxBytes r).folder id = some d → unended d.state = true →
    WasUnended r id (lastActive d.state) ∧
      (∀ id' ms, WasUnended r id' ms → ms ≤ lastActive d.state) ∧
      ∀ id' d', (opened maxBytes r).folder id' = some d' → unended d'.state = true → id' = id
  owed : ∀ id ms, WasUnended r id ms →
    (∃ d, (opened maxBytes r).folder id = some d ∧ unended d.state = true) ∨
      id ∈ (opened maxBytes r).finishingEvents
  reports : ∀ id d, (opened maxBytes r).folder id = some d → unended d.state = true →
    (openedQueue maxBytes r).dir = some id ∧
      ((openedQueue maxBytes r).inspect (some d)).resumable = true ∧
      ((openedQueue maxBytes r).inspect (some d)).eventId = (readStateFile d.state).eventId
  again : SpoolQueue.openRoot maxBytes (opened maxBytes r) "" = SpoolQueue.openRoot maxBytes r ""

/-- What lies in the root does not get in the way of the folder it goes to: no file of the same
number holds anything else, and an unfinished state that is replaced there leaves an event that is
unfinished too or owed, with one as recent to be kept, if any is kept at all. -/
def Apart : Prop :=
  ∀ file, r.loose.state = some file → ∀ f, r.folder (dest file) = some f →
    (∀ s b b', r.loose.segs.lookup s = some b → f.segs.lookup s = some b' → b = b') ∧
    (∀ s m m', r.loose.metas.lookup s = some m → f.metas.lookup s = some m' → m = m') ∧
    (unended f.state = true →
      (unended (some file) = true ∨ owed (r.moved file f) = true) ∧
        ((∀ e ∈ r.migrateSingleFolder.unfinished, e.2.lastActivityMs ≤ -1) ∨
          ∃ e ∈ r.migrateSingleFolder.unfinished, lastActive f.state ≤ e.2.lastActivityMs))

variable {maxBytes r} {id : String} {d f : Folder} {file : StateFile}

/-- The event that is kept. -/
abbrev kept (r : Root) : Option String := Root.best r.migrateSingleFolder.unfinished

lemma openRoot_none : SpoolQueue.openRoot maxBytes r "" =
    (SpoolQueue.load maxBytes (kept r)
        ((kept r).bind (r.migrateSingleFolder.endOthers (kept r)).folder),
      r.migrateSingleFolder.endOthers (kept r)) := by
  rw [SpoolQueue.openRoot]
  exact if_neg fun h => h rfl

lemma folder_opened (id : String) : (opened maxBytes r).folder id =
    (r.migrateSingleFolder.folder id).map fun d =>
      if unended d.state = true ∧ some id ≠ kept r then ended d else d := by
  rw [opened, openRoot_none]
  exact folder_ended _ _ id

/-- What is left unfinished is the one kept, as it was. -/
lemma unended_opened : ((opened maxBytes r).folder id = some d ∧ unended d.state = true) ↔
    r.migrateSingleFolder.folder id = some d ∧ unended d.state = true ∧ kept r = some id := by
  rw [folder_opened, Option.map_eq_some_iff]
  constructor
  · rintro ⟨⟨d', hd', heq⟩, hu⟩
    by_cases hend : unended d'.state = true ∧ some id ≠ kept r
    · rw [if_pos hend] at heq
      rw [← heq, unended_ended] at hu
      exact absurd hu (by simp)
    · rw [if_neg hend] at heq
      subst heq
      refine ⟨hd', hu, ?_⟩
      by_contra hne
      exact hend ⟨hu, fun h => hne h.symm⟩
  · rintro ⟨hd, hu, hkept⟩
    exact ⟨⟨d, hd, if_neg fun h => h.2 hkept.symm⟩, hu⟩

lemma segData_opened (s : ℕ) : segData ((opened maxBytes r).folder id) s =
    segData (r.migrateSingleFolder.folder id) s := by
  rw [folder_opened]
  cases r.migrateSingleFolder.folder id with
  | none => rfl
  | some d =>
      rw [Option.map_some]
      split <;> rfl

lemma metaData_opened (s : ℕ) : metaData ((opened maxBytes r).folder id) s =
    metaData (r.migrateSingleFolder.folder id) s := by
  rw [folder_opened]
  cases r.migrateSingleFolder.folder id with
  | none => rfl
  | some d =>
      rw [Option.map_some]
      split <;> rfl

lemma loose_opened : (opened maxBytes r).loose = r.migrateSingleFolder.loose := by
  rw [opened, openRoot_none]
  exact loose_endOthers _ _

/-- An event unfinished after the migration is kept, or ended and owed. -/
lemma kept_or_owed (hd : r.migrateSingleFolder.folder id = some d) (hu : unended d.state = true) :
    (∃ d, (opened maxBytes r).folder id = some d ∧ unended d.state = true) ∨
      id ∈ (opened maxBytes r).finishingEvents := by
  by_cases hkept : some id = kept r
  · exact Or.inl ⟨d, unended_opened.mpr ⟨hd, hu, hkept.symm⟩⟩
  · refine Or.inr (mem_finishingEvents.mpr ⟨ended d, ?_, owed_ended d⟩)
    rw [folder_opened, hd, Option.map_some, if_pos ⟨hu, hkept⟩]

/-- Opening again changes nothing. -/
lemma openRoot_again : SpoolQueue.openRoot maxBytes (opened maxBytes r) "" =
    SpoolQueue.openRoot maxBytes r "" := by
  have hloose : (opened maxBytes r).loose.state = none := by
    rw [loose_opened]
    exact loose_migrate
  have hmigrate := migrate_of_none hloose
  have hunfinished (e : String × SpoolState) (he : e ∈ (opened maxBytes r).unfinished) :
      kept r = some e.1 := by
    obtain ⟨d, hd, -, hu⟩ := mem_unfinished_iff.mp he
    exact (unended_opened.mp ⟨hd, hu⟩).2.2
  have hkept : kept (opened maxBytes r) = kept r := by
    rw [kept, hmigrate]
    cases hbest : kept r with
    | none =>
        have hnil : (opened maxBytes r).unfinished = [] := by
          refine List.eq_nil_iff_forall_not_mem.mpr fun e he => ?_
          rw [hunfinished e he] at hbest
          exact absurd hbest (by simp)
        rw [hnil]
        rfl
    | some x =>
        obtain ⟨e, he, rfl, hlast, -⟩ := best_eq_some hbest
        obtain ⟨d, hd, hst, hu⟩ := mem_unfinished_iff.mp he
        obtain ⟨hd', -⟩ := unended_opened.mpr ⟨hd, hu, hbest⟩
        have hmem : e ∈ (opened maxBytes r).unfinished := mem_unfinished_iff.mpr ⟨d, hd', hst, hu⟩
        cases hagain : Root.best (opened maxBytes r).unfinished with
        | none =>
            have := best_eq_none hagain e hmem
            omega
        | some y =>
            obtain ⟨e', he', rfl, -⟩ := best_eq_some hagain
            rw [← hunfinished e' he', hbest]
  have hsame : (opened maxBytes r).migrateSingleFolder.endOthers (kept (opened maxBytes r)) =
      opened maxBytes r := by
    rw [hmigrate, hkept]
    exact endOthers_eq_self fun e he => (hunfinished e he).symm
  rw [openRoot_none, hsame, hkept, opened, openRoot_none]

/-! ### When nothing is stranded -/

/-- After the migration a file of the root stands in the folder, over one of the same number. -/
lemma segData_migrate (h : r.loose.state = some file) (s : ℕ) :
    segData (r.migrateSingleFolder.folder id) s =
      if id = dest file then
        (r.loose.segs.lookup s).or (segData (r.folder (dest file)) s)
      else segData (r.folder id) s := by
  rw [folder_migrate h]
  by_cases hid : id = dest file
  · rw [if_pos hid, if_pos hid]
    show (r.loose.segs ∪ ((r.folder (dest file)).getD {}).segs).lookup s = _
    have hold : ((r.folder (dest file)).getD {}).segs.lookup s =
        segData (r.folder (dest file)) s := by
      cases r.folder (dest file) <;> rfl
    by_cases hmem : s ∈ r.loose.segs
    · obtain ⟨b, hb⟩ := Option.isSome_iff_exists.mp (AList.lookup_isSome.mpr hmem)
      rw [AList.lookup_union_left hmem, hb]
      rfl
    · rw [AList.lookup_union_right hmem, AList.lookup_eq_none.mpr hmem, hold]
      rfl
  · rw [if_neg hid, if_neg hid]

lemma metaData_migrate (h : r.loose.state = some file) (s : ℕ) :
    metaData (r.migrateSingleFolder.folder id) s =
      if id = dest file then
        (r.loose.metas.lookup s).or (metaData (r.folder (dest file)) s)
      else metaData (r.folder id) s := by
  rw [folder_migrate h]
  by_cases hid : id = dest file
  · rw [if_pos hid, if_pos hid]
    show (r.loose.metas ∪ ((r.folder (dest file)).getD {}).metas).lookup s = _
    have hold : ((r.folder (dest file)).getD {}).metas.lookup s =
        metaData (r.folder (dest file)) s := by
      cases r.folder (dest file) <;> rfl
    by_cases hmem : s ∈ r.loose.metas
    · obtain ⟨m, hm⟩ := Option.isSome_iff_exists.mp (AList.lookup_isSome.mpr hmem)
      rw [AList.lookup_union_left hmem, hm]
      rfl
    · rw [AList.lookup_union_right hmem, AList.lookup_eq_none.mpr hmem, hold]
      rfl
  · rw [if_neg hid, if_neg hid]

/-- The event of the folder that is kept was unfinished before. -/
lemma wasUnended_of_migrate (hd : r.migrateSingleFolder.folder id = some d)
    (hu : unended d.state = true) : WasUnended r id (lastActive d.state) := by
  cases hstate : r.loose.state with
  | none =>
      rw [migrate_of_none hstate] at hd
      exact .folder hd hu
  | some file =>
      rw [folder_migrate hstate] at hd
      by_cases hid : id = dest file
      · rw [if_pos hid] at hd
        obtain rfl := Option.some_injective _ hd
        rw [hid]
        exact .loose hstate hu
      · rw [if_neg hid] at hd
        exact .folder hd hu

/-- An event that was unfinished still is after the migration, or its folder's state was
replaced. -/
lemma unended_or_replaced {ms : ℤ} (h : WasUnended r id ms) :
    (∃ d, r.migrateSingleFolder.folder id = some d ∧ unended d.state = true ∧
      lastActive d.state = ms) ∨
    ∃ file f, r.loose.state = some file ∧ r.folder (dest file) = some f ∧ id = dest file ∧
      unended f.state = true ∧ lastActive f.state = ms := by
  cases h with
  | @folder id d hd hu =>
      cases hstate : r.loose.state with
      | none =>
          rw [migrate_of_none hstate]
          exact Or.inl ⟨d, hd, hu, rfl⟩
      | some file =>
          rw [folder_migrate hstate]
          by_cases hid : id = dest file
          · subst hid
            exact Or.inr ⟨file, d, rfl, hd, rfl, hu, rfl⟩
          · rw [if_neg hid]
            exact Or.inl ⟨d, hd, hu, rfl⟩
  | @loose file hstate hu =>
      rw [folder_migrate hstate, if_pos rfl]
      exact Or.inl ⟨_, rfl, hu, rfl⟩

/-- The event kept is the last active of those unfinished after the migration. -/
lemma kept_spec (hkept : kept r = some id) : ∃ d, r.migrateSingleFolder.folder id = some d ∧
    unended d.state = true ∧ -1 < lastActive d.state ∧
      ∀ e ∈ r.migrateSingleFolder.unfinished, e.2.lastActivityMs ≤ lastActive d.state := by
  obtain ⟨e, he, rfl, hlast, hmax⟩ := best_eq_some hkept
  obtain ⟨d, hd, hst, hu⟩ := mem_unfinished_iff.mp he
  rw [hst] at hlast hmax
  exact ⟨d, hd, hu, hlast, hmax⟩

lemma strandsNothing_of_apart (h : Apart r) : StrandsNothing maxBytes r where
  segs id s b hb := by
    rw [segData_opened]
    cases hstate : r.loose.state with
    | none =>
        rw [migrate_of_none hstate]
        exact hb
    | some file =>
        rw [segData_migrate hstate]
        by_cases hid : id = dest file
        · rw [if_pos hid]
          rw [hid] at hb
          obtain ⟨f, hf⟩ := Option.isSome_iff_exists.mp
            (isSome_of_hasSeg (d := r.folder (dest file)) (by rw [HasSeg, hb]; rfl))
          cases hloose : r.loose.segs.lookup s with
          | none => exact hb
          | some b' =>
              have hb' : f.segs.lookup s = some b := by
                rw [hf] at hb
                exact hb
              rw [(h file hstate f hf).1 s b' b hloose hb']
              rfl
        · rw [if_neg hid]
          exact hb
  metas id s m hm := by
    rw [metaData_opened]
    cases hstate : r.loose.state with
    | none =>
        rw [migrate_of_none hstate]
        exact hm
    | some file =>
        rw [metaData_migrate hstate]
        by_cases hid : id = dest file
        · rw [if_pos hid]
          rw [hid] at hm
          obtain ⟨f, hf, hm'⟩ := Option.bind_eq_some_iff.mp hm
          cases hloose : r.loose.metas.lookup s with
          | none => exact hm
          | some m' =>
              rw [(h file hstate f hf).2.1 s m' m hloose hm']
              rfl
        · rw [if_neg hid]
          exact hm
  looseSegs s b hb := by
    cases hstate : r.loose.state with
    | none =>
        left
        rw [loose_opened, migrate_of_none hstate]
        exact hb
    | some file =>
        right
        refine ⟨file, rfl, ?_⟩
        rw [segData_opened, segData_migrate hstate, if_pos rfl, hb]
        rfl
  looseMetas s m hm := by
    cases hstate : r.loose.state with
    | none =>
        left
        rw [loose_opened, migrate_of_none hstate]
        exact hm
    | some file =>
        right
        refine ⟨file, rfl, ?_⟩
        rw [metaData_opened, metaData_migrate hstate, if_pos rfl, hm]
        rfl
  one id d hd hu := by
    obtain ⟨hd', -, hkept⟩ := unended_opened.mp ⟨hd, hu⟩
    obtain ⟨d', hd'', -, hlast, hmax⟩ := kept_spec hkept
    obtain rfl := Option.some_injective _ (hd'.symm.trans hd'')
    refine ⟨wasUnended_of_migrate hd' hu, fun id' ms hms => ?_, fun id' d' hd'' hu' => ?_⟩
    · rcases unended_or_replaced hms with ⟨x, hx, hxu, rfl⟩ | ⟨file, f, hstate, hf, rfl, hfu, rfl⟩
      · exact hmax (id', readStateFile x.state) (mem_unfinished_iff.mpr ⟨x, hx, rfl, hxu⟩)
      · rcases ((h file hstate f hf).2.2 hfu).2 with hall | ⟨e, he, hle⟩
        · -- One is kept, so not all of them are as old as that.
          have := hall (id, readStateFile d.state) (mem_unfinished_iff.mpr ⟨d, hd', rfl, hu⟩)
          rw [lastActive] at hlast
          dsimp only at this
          omega
        · exact hle.trans (hmax e he)
    · have := (unended_opened.mp ⟨hd'', hu'⟩).2.2
      rw [hkept] at this
      exact (Option.some_injective _ this).symm
  owed id ms hms := by
    rcases unended_or_replaced hms with ⟨x, hx, hxu, rfl⟩ | ⟨file, f, hstate, hf, rfl, hfu, rfl⟩
    · exact kept_or_owed hx hxu
    · have hmoved : r.migrateSingleFolder.folder (dest file) = some (r.moved file f) := by
        rw [folder_migrate hstate, if_pos rfl, hf]
        rfl
      by_cases hu : unended (some file) = true
      · exact kept_or_owed hmoved hu
      · have howed := ((h file hstate f hf).2.2 hfu).1.resolve_left hu
        refine Or.inr (mem_finishingEvents.mpr ⟨r.moved file f, ?_, howed⟩)
        rw [folder_opened, hmoved, Option.map_some, if_neg fun hend => hu hend.1]
  reports id d hd hu := by
    obtain ⟨-, -, hkept⟩ := unended_opened.mp ⟨hd, hu⟩
    have hdir : (openedQueue maxBytes r).dir = some id := by
      rw [openedQueue, openRoot_none]
      exact hkept
    have hstate : (openedQueue maxBytes r).state = readStateFile d.state := by
      rw [(SpoolQueue.openRoot_queue maxBytes r "").2 id hdir]
      show recorded ((opened maxBytes r).folder id) = _
      rw [hd]
      rfl
    rw [unended, Bool.and_eq_true, Bool.not_eq_true'] at hu
    have hgo : ¬(!(openedQueue maxBytes r).state.valid || (openedQueue maxBytes r).state.ended) =
        true := by
      rw [hstate, hu.1, hu.2]
      simp
    rw [SpoolQueue.inspect, if_neg hgo, hstate]
    exact ⟨hdir, rfl, rfl⟩
  again := openRoot_again

lemma apart_of_strandsNothing (h : StrandsNothing maxBytes r) : Apart r := by
  intro file hstate f hf
  have hmoved : r.migrateSingleFolder.folder (dest file) = some (r.moved file f) := by
    rw [folder_migrate hstate, if_pos rfl, hf]
    rfl
  refine ⟨fun s b b' hb hb' => ?_, fun s m m' hm hm' => ?_, fun hfu => ⟨?_, ?_⟩⟩
  · have hkeeps := h.segs (dest file) s b' (by rw [hf]; exact hb')
    rw [segData_opened, segData_migrate hstate, if_pos rfl, hb] at hkeeps
    exact Option.some_injective _ hkeeps
  · have hkeeps := h.metas (dest file) s m' (by rw [hf]; exact hm')
    rw [metaData_opened, metaData_migrate hstate, if_pos rfl, hm] at hkeeps
    exact Option.some_injective _ hkeeps
  · by_contra hnot
    rw [not_or] at hnot
    have hfolder : (opened maxBytes r).folder (dest file) = some (r.moved file f) := by
      rw [folder_opened, hmoved, Option.map_some, if_neg fun hend => hnot.1 hend.1]
    rcases h.owed _ _ (.folder hf hfu) with ⟨d, hd, hu⟩ | howed
    · rw [hfolder] at hd
      obtain rfl := Option.some_injective _ hd
      exact hnot.1 hu
    · obtain ⟨d, hd, howed⟩ := mem_finishingEvents.mp howed
      rw [hfolder] at hd
      obtain rfl := Option.some_injective _ hd
      exact hnot.2 howed
  · cases hkept : kept r with
    | none => exact Or.inl (best_eq_none hkept)
    | some x =>
        obtain ⟨d, hd, hu, -, -⟩ := kept_spec hkept
        have hleft := (@unended_opened maxBytes r x d).mpr ⟨hd, hu, hkept⟩
        refine Or.inr ⟨(x, readStateFile d.state), mem_unfinished_iff.mpr ⟨d, hd, rfl, hu⟩, ?_⟩
        exact (h.one x d hleft.1 hleft.2).2.1 _ _ (.folder hf hfu)

/-- **Opening a spool** strands nothing if and only if what lies in the root does not get in the way
of the folder it goes to. -/
theorem strandsNothing_iff (maxBytes : ℕ) (r : Root) : StrandsNothing maxBytes r ↔ Apart r :=
  ⟨apart_of_strandsNothing, strandsNothing_of_apart⟩

/-- An unreadable layout that was moved before, and another with a segment of the same number. -/
def twiceUnreadable : Root :=
  { loose := { state := some .garbled, segs := (∅ : SeqFiles Bytes).insert 1 [1] }
    events := (∅ : AList fun _ : String => Folder).insert "unknown-event"
      { state := some .garbled, segs := (∅ : SeqFiles Bytes).insert 1 [2] } }

/-- The second takes the place of the first's segment. -/
theorem opening_replaces : ¬∀ (maxBytes : ℕ) (r : Root), StrandsNothing maxBytes r := by
  intro h
  have hkeeps := (h 0 twiceUnreadable).segs "unknown-event" 1 [2] rfl
  rw [segData_opened] at hkeeps
  exact absurd (Option.some_injective _ hkeeps) (by decide)

end Opening

end Multisite

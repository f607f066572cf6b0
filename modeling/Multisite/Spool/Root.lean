import Mathlib.Data.String.Basic
import Multisite.Spool.Laws

/-!
The spool root (`spool_queue.cpp`): one folder per event, and the operations that
choose, end, list or remove whole folders.

`events` lists the folders in the order `directory_iterator` yields them; event
ids are folder names, so none is empty or holds a `/`.  `loose` is what the
single-folder layout left in the root itself.

* `folder_openRoot`: the constructor keeps every folder, changing at most whether
  its event has ended;
* `folder_leaveEvent`: what `begin_event` does to the event it leaves;
* `found_removeFinished`, `mem_finishingEvents`: what the finisher's two scans
  leave and list.
-/

namespace Multisite

/-! ### Folders by event -/

/-- The spool root. -/
structure Root where
  loose : Folder := {}
  events : AList (fun _ : String => Folder) := ∅

namespace Root

/-- The folder of an event. -/
def folder (r : Root) (id : String) : Option Folder := r.events.lookup id

/-- The root with the folder of an event replaced, or gone. -/
def setFolder (r : Root) (id : String) : Option Folder → Root
  | some d => { r with events := r.events.insert id d }
  | none => { r with events := r.events.erase id }

/-- The root after writes in the folder at `m_dir`. -/
def write (r : Root) (dir : Option String) (ws : List Write) : Root :=
  match dir with
  | some id => r.setFolder id (applyWrites ws (r.folder id))
  | none => r

@[simp] lemma folder_setFolder_self (r : Root) (id : String) (d : Option Folder) :
    (r.setFolder id d).folder id = d := by
  cases d with
  | none => exact AList.lookup_erase id r.events
  | some d => exact AList.lookup_insert r.events

lemma folder_setFolder_of_ne (r : Root) {id x : String} (d : Option Folder) (h : x ≠ id) :
    (r.setFolder id d).folder x = r.folder x := by
  cases d with
  | none => exact AList.lookup_erase_ne h
  | some d => exact AList.lookup_insert_ne h

@[simp] lemma loose_setFolder (r : Root) (id : String) (d : Option Folder) :
    (r.setFolder id d).loose = r.loose := by
  cases d <;> rfl

@[simp] lemma folder_write_self (r : Root) (id : String) (ws : List Write) :
    (r.write (some id) ws).folder id = applyWrites ws (r.folder id) :=
  folder_setFolder_self r id _

lemma folder_write_of_ne (r : Root) {dir : Option String} {x : String} (ws : List Write)
    (h : dir ≠ some x) : (r.write dir ws).folder x = r.folder x := by
  cases dir with
  | none => rfl
  | some id => exact folder_setFolder_of_ne r _ fun e => h (by rw [e])

@[simp] lemma loose_write (r : Root) (dir : Option String) (ws : List Write) :
    (r.write dir ws).loose = r.loose := by
  cases dir with
  | none => rfl
  | some id => exact loose_setFolder r id _

end Root

/-! ### Scans of the root -/

namespace Root

/-- The state recorded in each folder. -/
def states (r : Root) : List (String × SpoolState) :=
  r.events.entries.map fun e => (e.1, readStateFile e.2.state)

/-- A folder's event has ended with segments to send or its end to publish. -/
def owed (d : Folder) : Bool :=
  let st := readStateFile d.state
  st.valid && st.ended && (d.hasSegments || st.endUnpublished)

/-- A folder's event has ended with nothing left to send or to publish. -/
def done (d : Folder) : Bool :=
  let st := readStateFile d.state
  st.valid && st.ended && !st.endUnpublished && !d.hasSegments

/-- The order of `std::pair<int64_t, std::string>`. -/
def older (a b : ℤ × String) : Prop := a.1 < b.1 ∨ a.1 = b.1 ∧ a.2 ≤ b.2

instance : DecidableRel older := fun _ _ => inferInstanceAs (Decidable (_ ∨ _))

instance : Std.Total older where
  total a b := by
    rcases lt_trichotomy a.1 b.1 with h | h | h
    · exact Or.inl (Or.inl h)
    · rcases le_total a.2 b.2 with h' | h'
      · exact Or.inl (Or.inr ⟨h, h'⟩)
      · exact Or.inr (Or.inr ⟨h.symm, h'⟩)
    · exact Or.inr (Or.inl h)

instance : IsTrans (ℤ × String) older where
  trans a b c hab hbc := by
    rcases hab with hab | ⟨hab, hab'⟩ <;> rcases hbc with hbc | ⟨hbc, hbc'⟩
    · exact Or.inl (hab.trans hbc)
    · exact Or.inl (hbc ▸ hab)
    · exact Or.inl (hab ▸ hbc)
    · exact Or.inr ⟨hab.trans hbc, hab'.trans hbc'⟩

/-- The ended events with something owed, with the time each was last active. -/
def found (r : Root) : List (ℤ × String) :=
  r.events.entries.filterMap fun e =>
    if owed e.2 then some ((readStateFile e.2.state).lastActivityMs, e.1) else none

/-- `SpoolQueue::finishing_events`. -/
def finishingEvents (r : Root) : List String := (r.found.insertionSort older).map (·.2)

/-- The folders `remove_finished` removes. -/
def doneEvents (r : Root) : List String :=
  r.events.entries.filterMap fun e => if done e.2 then some e.1 else none

/-- `SpoolQueue::remove_finished`, with the number it returns. -/
def removeFinished (r : Root) : Root × ℕ :=
  (r.doneEvents.foldl (fun r id => r.setFolder id none) r, r.doneEvents.length)

/-- `SpoolQueue::discard_event`. -/
def discardEvent (r : Root) (id : String) : Root := if id = "" then r else r.setFolder id none

/-! ### The constructor -/

/-- `migrate_single_folder`: what lies in the root itself goes into the folder of
the event its `state.json` names, over files of the same name. -/
def migrateSingleFolder (r : Root) : Root :=
  match r.loose.state with
  | none => r
  | some file =>
      let st := readStateFile (some file)
      let dest := if st.valid && decide (st.eventId ≠ "") then st.eventId else "unknown-event"
      let d := (r.folder dest).getD {}
      { loose := {}
        events := r.events.insert dest
          { state := some file, segs := r.loose.segs ∪ d.segs, metas := r.loose.metas ∪ d.metas } }

/-- The events still unfinished. -/
def unfinished (r : Root) : List (String × SpoolState) :=
  r.states.filter fun e => e.2.valid && !e.2.ended

/-- The unfinished event last active, the first of them in a tie. -/
def best (l : List (String × SpoolState)) : Option String :=
  (l.foldl (fun (b : Option String × ℤ) e =>
    if e.2.lastActivityMs > b.2 then (some e.1, e.2.lastActivityMs) else b) (none, -1)).1

/-- Every other unfinished event is ended, its end still to be published. -/
def endOthers (r : Root) (best : Option String) : Root :=
  r.unfinished.foldl (fun r e =>
    if some e.1 = best then r
    else r.write (some e.1) [.state { e.2 with ended := true, endUnpublished := true }]) r

end Root

namespace SpoolQueue

/-- The constructor of `SpoolQueue`. -/
def openRoot (maxBytes : ℕ) (r : Root) (eventId : String) : SpoolQueue × Root :=
  let r := r.migrateSingleFolder
  if eventId ≠ "" then (load maxBytes (some eventId) (r.folder eventId), r)
  else
    let dir := Root.best r.unfinished
    let r := r.endOthers dir
    (load maxBytes dir (dir.bind r.folder), r)

/-- What `begin_event` makes of the state of the event it leaves. -/
def leaving (st : SpoolState) : SpoolState :=
  { st with endUnpublished := !st.ended || st.endUnpublished, ended := true }

/-- The queue as `begin_event` leaves its event: ended, when there is one. -/
def left (q : SpoolQueue) : SpoolQueue :=
  if q.dir.isSome && q.state.valid then { q with state := leaving q.state } else q

/-- The root as `begin_event` leaves the event it had: the state saved, and the
folder gone when nothing of it is owed.  `none` when `save_state` throws, there
being no folder to save it in. -/
def leaveEvent (q : SpoolQueue) (r : Root) : Option Root :=
  match q.dir with
  | none => some r
  | some old =>
      if !q.state.valid then some r
      else
        match r.folder old with
        | none => none
        | some d =>
            if !d.hasSegments && !(leaving q.state).endUnpublished then some (r.setFolder old none)
            else some (r.write (some old) [.state (leaving q.state)])

/-- `SpoolQueue::begin_event`; `none` in place of the root when it throws. -/
def beginEvent (now : ℤ) (q : SpoolQueue) (r : Root) (eventId : String) (firstSeq : ℕ) :
    SpoolQueue × Option Root :=
  match q.leaveEvent r with
  | none => (q.left, none)
  | some r =>
      let c := q.left.beginIn now eventId firstSeq
      (c.1, some (r.write (some eventId) c.2))

end SpoolQueue

/-! ### What the scans see -/

lemma isSome_of_hasSeg {d : Option Folder} {s : ℕ} (h : HasSeg d s) : d.isSome := by
  cases d with
  | none => exact absurd h (not_hasSeg_none s)
  | some d => rfl

lemma Folder.hasSegments_iff {d : Folder} : d.hasSegments = true ↔ ∃ s, HasSeg (some d) s := by
  rw [Folder.hasSegments, Bool.not_eq_true', ← Bool.not_eq_true, List.isEmpty_iff]
  simp only [hasSeg_some]
  constructor
  · intro h
    obtain ⟨s, hs⟩ := List.exists_mem_of_ne_nil _ h
    exact ⟨s, AList.mem_keys.mpr hs⟩
  · rintro ⟨s, hs⟩
    exact List.ne_nil_of_mem (AList.mem_keys.mp hs)

namespace Root

variable {r : Root} {id : String}

lemma mem_entries_iff {d : Folder} : ⟨id, d⟩ ∈ r.events.entries ↔ r.folder id = some d :=
  AList.mem_lookup_iff.symm

lemma mem_doneEvents : id ∈ r.doneEvents ↔ ∃ d, r.folder id = some d ∧ done d = true := by
  rw [doneEvents, List.mem_filterMap]
  constructor
  · rintro ⟨⟨x, d⟩, he, hd⟩
    split at hd
    · rename_i hdone
      obtain rfl := Option.some.inj hd
      exact ⟨d, mem_entries_iff.mp he, hdone⟩
    · exact absurd hd (by simp)
  · rintro ⟨d, hd, hdone⟩
    exact ⟨⟨id, d⟩, mem_entries_iff.mpr hd, if_pos hdone⟩

lemma folder_foldl_remove (l : List String) (r : Root) (id : String) :
    (l.foldl (fun r i => r.setFolder i none) r).folder id =
      if id ∈ l then none else r.folder id := by
  induction l generalizing r with
  | nil => rfl
  | cons x l ih =>
      rw [List.foldl_cons, ih]
      by_cases hx : id = x
      · subst hx
        simp
      · simp only [List.mem_cons, hx, false_or, folder_setFolder_of_ne r none hx]

/-- **`remove_finished`** removes the folders that are done, and no other. -/
theorem folder_removeFinished (r : Root) (id : String) :
    r.removeFinished.1.folder id = (r.folder id).filter fun d => !done d := by
  rw [removeFinished, folder_foldl_remove]
  cases hd : r.folder id with
  | none => simp
  | some d =>
      simp only [mem_doneEvents, hd, Option.some.injEq, exists_eq_left']
      cases hdone : done d <;> simp [Option.filter, hdone]

/-- A folder that holds a segment is not done. -/
lemma folder_removeFinished_of_hasSeg {s : ℕ} (h : HasSeg (r.folder id) s) :
    r.removeFinished.1.folder id = r.folder id := by
  rw [folder_removeFinished]
  cases hd : r.folder id with
  | none => rfl
  | some d =>
      have hseg : d.hasSegments = true := Folder.hasSegments_iff.mpr ⟨s, hd ▸ h⟩
      simp [Option.filter, done, hseg]

lemma owed_of_done {d : Folder} (h : done d = true) : owed d = false := by
  simp only [done, Bool.and_eq_true, Bool.not_eq_true'] at h
  simp [owed, h.1.2, h.2]

/-- What is owed keeps its folder. -/
lemma folder_removeFinished_of_owed {d : Folder} (hd : r.folder id = some d) (h : owed d = true) :
    r.removeFinished.1.folder id = some d := by
  have hdone : done d = false := by
    by_contra hne
    rw [owed_of_done (by simpa using hne)] at h
    exact absurd h (by simp)
  rw [folder_removeFinished, hd]
  simp [Option.filter, hdone]

lemma filterMap_kerase {β : Type} (g : (Sigma fun _ : String => Folder) → Option β) (id : String)
    (l : List (Sigma fun _ : String => Folder)) (h : ∀ e ∈ l, e.1 = id → g e = none) :
    (l.kerase id).filterMap g = l.filterMap g := by
  induction l with
  | nil => rfl
  | cons e l ih =>
      by_cases he : id = e.1
      · rw [List.kerase_cons_eq he, List.filterMap_cons_none (h e List.mem_cons_self he.symm)]
      · rw [List.kerase_cons_ne he, List.filterMap_cons, List.filterMap_cons,
          ih fun x hx => h x (List.mem_cons_of_mem _ hx)]

/-- A folder that is not owed counts for nothing in the finisher's list. -/
lemma found_setFolder_none (h : ∀ d, r.folder id = some d → owed d = false) :
    (r.setFolder id none).found = r.found := by
  refine filterMap_kerase _ id r.events.entries fun e he hid => ?_
  subst hid
  rw [h e.2 (mem_entries_iff.mp he)]
  rfl

/-- **`remove_finished`** leaves the finisher's list as it was. -/
theorem found_removeFinished (r : Root) : r.removeFinished.1.found = r.found := by
  have key : ∀ (l : List String) (r : Root),
      (∀ id ∈ l, ∀ d, r.folder id = some d → owed d = false) →
        (l.foldl (fun r i => r.setFolder i none) r).found = r.found := by
    intro l
    induction l with
    | nil => exact fun r _ => rfl
    | cons x l ih =>
        intro r h
        rw [List.foldl_cons, ih, found_setFolder_none (h x List.mem_cons_self)]
        intro id hid d hd
        by_cases hx : id = x
        · subst hx
          rw [folder_setFolder_self] at hd
          exact absurd hd (by simp)
        · rw [folder_setFolder_of_ne r none hx] at hd
          exact h id (List.mem_cons_of_mem _ hid) d hd
  refine key r.doneEvents r fun id hid d hd => ?_
  obtain ⟨d', hd', hdone⟩ := mem_doneEvents.mp hid
  obtain rfl : d' = d := Option.some.inj (hd'.symm.trans hd)
  exact owed_of_done hdone

/-- **`finishing_events`** lists the folders that are owed something. -/
theorem mem_finishingEvents : id ∈ r.finishingEvents ↔ ∃ d, r.folder id = some d ∧ owed d = true := by
  rw [finishingEvents, List.mem_map]
  simp only [List.mem_insertionSort, found, List.mem_filterMap]
  constructor
  · rintro ⟨p, ⟨⟨x, d⟩, he, hp⟩, rfl⟩
    split at hp
    · rename_i howed
      obtain rfl := Option.some.inj hp
      exact ⟨d, mem_entries_iff.mp he, howed⟩
    · exact absurd hp (by simp)
  · rintro ⟨d, hd, howed⟩
    exact ⟨(_, id), ⟨⟨id, d⟩, mem_entries_iff.mpr hd, if_pos howed⟩, rfl⟩

lemma loose_removeFinished (r : Root) : r.removeFinished.1.loose = r.loose := by
  rw [removeFinished]
  refine List.foldlRecOn (motive := fun x : Root => x.loose = r.loose) _ _ rfl ?_
  intro x hx i _
  rw [loose_setFolder, hx]

lemma mem_states {e : String × SpoolState} (h : e ∈ r.states) :
    ∃ d, r.folder e.1 = some d ∧ e.2 = recorded (r.folder e.1) := by
  rw [states, List.mem_map] at h
  obtain ⟨⟨x, d⟩, hmem, rfl⟩ := h
  have hd := mem_entries_iff.mp hmem
  exact ⟨d, hd, by rw [hd]; rfl⟩

lemma mem_unfinished {e : String × SpoolState} (h : e ∈ r.unfinished) :
    (∃ d, r.folder e.1 = some d) ∧ e.2 = recorded (r.folder e.1) ∧ e.2.valid = true := by
  rw [unfinished, List.mem_filter, Bool.and_eq_true] at h
  obtain ⟨d, hd, hst⟩ := mem_states h.1
  exact ⟨⟨d, hd⟩, hst, h.2.1⟩

end Root

/-! ### Folders whose event is ended or taken up again -/

/-- The two states agree on what decides which segments a target has. -/
structure SameMarks (st st' : SpoolState) : Prop where
  valid : st'.valid = st.valid
  firstSeq : st'.firstSeq = st.firstSeq
  any : ∀ t, st'.any t = st.any t
  mark : ∀ t, st'.mark t = st.mark t

lemma SameMarks.refl (st : SpoolState) : SameMarks st st := ⟨rfl, rfl, fun _ => rfl, fun _ => rfl⟩

lemma SameMarks.has {st st' : SpoolState} (h : SameMarks st st') (t : Target) (s : ℕ) :
    st'.has t s = st.has t s := by
  rw [SpoolState.has, SpoolState.has, h.any, h.mark]

/-- The two folders hold the same segment files and sidecars. -/
structure SameFiles (d d' : Option Folder) : Prop where
  isSome : d'.isSome = d.isSome
  segs : ∀ s, segData d' s = segData d s
  sidecar : ∀ s, sidecar d' s = sidecar d s

namespace SameFiles

variable {d d' : Option Folder}

lemma refl (d : Option Folder) : SameFiles d d := ⟨rfl, fun _ => rfl, fun _ => rfl⟩

lemma hasSeg (h : SameFiles d d') {s : ℕ} : HasSeg d' s ↔ HasSeg d s := by
  rw [HasSeg, HasSeg, h.segs]

lemma readable (h : SameFiles d d') {s : ℕ} : Readable d' s ↔ Readable d s := by
  rw [Readable, Readable, h.hasSeg, h.sidecar]

/-- Saving a state touches no segment. -/
lemma save (h : SameFiles d d') (st : SpoolState) : SameFiles d (applyWrites [.state st] d') := by
  obtain ⟨hsome, hseg, hside⟩ := h
  cases d' with
  | none => exact ⟨hsome, hseg, hside⟩
  | some f => exact ⟨hsome, hseg, hside⟩

end SameFiles

/-- The second folder is the first less the files of the segments `vs`. -/
structure Less (d d' : Option Folder) (vs : List ℕ) : Prop where
  segs : ∀ x, segData d' x = if x ∈ vs then none else segData d x
  sidecar : ∀ x, x ∉ vs → sidecar d' x = sidecar d x

namespace Less

variable {d d' d₁ : Option Folder} {vs : List ℕ}

lemma hasSeg (h : Less d d' vs) (x : ℕ) : HasSeg d' x ↔ x ∉ vs ∧ HasSeg d x := by
  rw [HasSeg, h.segs, HasSeg]
  split <;> simp_all

lemma removals (vs : List ℕ) (d : Option Folder) :
    Less d (applyWrites (SpoolQueue.removals vs) d) vs :=
  ⟨fun x => (SpoolQueue.files_removals vs d x).1,
    fun x hx => (SpoolQueue.files_removals vs d x).2.trans (if_neg hx)⟩

lemma of_same (h : Less d₁ d' vs) (hf : SameFiles d d₁) : Less d d' vs :=
  ⟨fun x => by rw [h.segs, hf.segs], fun x hx => (h.sidecar x hx).trans (hf.sidecar x)⟩

lemma save (h : Less d d' vs) (st : SpoolState) : Less d (applyWrites [.state st] d') vs := by
  have hf := (SameFiles.refl d').save st
  exact ⟨fun x => by rw [hf.segs, h.segs], fun x hx => (hf.sidecar x).trans (h.sidecar x hx)⟩

lemma same (hf : SameFiles d d') : Less d d' [] :=
  ⟨fun x => by simp [hf.segs], fun x _ => hf.sidecar x⟩

end Less

namespace Root

variable {r : Root}

/-- **Ending the others** keeps every folder and every mark. -/
theorem folder_endOthers (r : Root) (b : Option String) (id : String) :
    SameFiles (r.folder id) ((r.endOthers b).folder id) ∧
      SameMarks (recorded (r.folder id)) (recorded ((r.endOthers b).folder id)) := by
  rw [endOthers]
  refine List.foldlRecOn (motive := fun x : Root => SameFiles (r.folder id) (x.folder id) ∧
    SameMarks (recorded (r.folder id)) (recorded (x.folder id))) _ _ ⟨.refl _, .refl _⟩ ?_
  intro x hx e he
  split
  · exact hx
  by_cases hid : id = e.1
  · subst hid
    obtain ⟨⟨d, hd⟩, hst, hvalid⟩ := mem_unfinished he
    have hsome : (x.folder e.1).isSome := by
      rw [hx.1.isSome, hd]
      rfl
    rw [folder_write_self]
    refine ⟨hx.1.save _, ?_⟩
    rw [applyWrites, Lib.applyAll_cons, Lib.applyAll_nil, recorded_apply_state hsome, ← hst]
    exact ⟨hvalid.symm, rfl, fun t => by cases t <;> rfl, fun t => by cases t <;> rfl⟩
  · rw [folder_write_of_ne]
    · exact hx
    · exact fun h => hid (Option.some.inj h).symm

lemma loose_endOthers (r : Root) (b : Option String) : (r.endOthers b).loose = r.loose := by
  rw [endOthers]
  refine List.foldlRecOn (motive := fun x : Root => x.loose = r.loose) _ _ rfl ?_
  intro x hx e _
  split
  · exact hx
  · rw [loose_write, hx]

lemma migrate_of_none (h : r.loose.state = none) : r.migrateSingleFolder = r := by
  rw [migrateSingleFolder, h]

end Root

namespace SpoolQueue

variable {q : SpoolQueue} {r r' : Root} {id : String}

/-- The constructor opens the folder it chose with the state recorded there. -/
lemma openRoot_queue (maxBytes : ℕ) (r : Root) (eventId : String) :
    ((openRoot maxBytes r eventId).1.maxBytes = maxBytes) ∧
      ∀ id, (openRoot maxBytes r eventId).1.dir = some id →
        (openRoot maxBytes r eventId).1.state = recorded ((openRoot maxBytes r eventId).2.folder id) := by
  rw [openRoot]
  dsimp only
  split
  · refine ⟨rfl, fun id hid => ?_⟩
    obtain rfl : eventId = id := Option.some.inj hid
    rfl
  · refine ⟨rfl, fun id hid => ?_⟩
    have hb : Root.best r.migrateSingleFolder.unfinished = some id := hid
    rw [hb]
    rfl

/-- Given an id, the constructor opens that event's folder as it is. -/
lemma openRoot_of_id (maxBytes : ℕ) (h : r.loose.state = none) {id : String} (hid : id ≠ "") :
    openRoot maxBytes r id = (load maxBytes (some id) (r.folder id), r) := by
  rw [openRoot, Root.migrate_of_none h]
  exact if_pos hid

/-- **The constructor** keeps every folder and every mark of a root that has the
layout of one folder per event. -/
theorem folder_openRoot (maxBytes : ℕ) (h : r.loose.state = none) (eventId id : String) :
    SameFiles (r.folder id) ((openRoot maxBytes r eventId).2.folder id) ∧
      SameMarks (recorded (r.folder id)) (recorded ((openRoot maxBytes r eventId).2.folder id)) := by
  rw [openRoot, Root.migrate_of_none h]
  dsimp only
  split
  · exact ⟨.refl _, .refl _⟩
  · exact Root.folder_endOthers r _ id

lemma loose_openRoot (maxBytes : ℕ) (h : r.loose.state = none) (eventId : String) :
    (openRoot maxBytes r eventId).2.loose = r.loose := by
  rw [openRoot, Root.migrate_of_none h]
  dsimp only
  split
  · rfl
  · exact Root.loose_endOthers r _

/-- What is left of a folder when `begin_event` moves on: its segment files and
sidecars, or nothing when it held no segment. -/
lemma folder_leaveEvent (h : q.leaveEvent r = some r') (id : String) :
    SameFiles (r.folder id) (r'.folder id) ∨
      r'.folder id = none ∧ ∀ s, ¬HasSeg (r.folder id) s := by
  rw [leaveEvent] at h
  split at h
  · obtain rfl := Option.some.inj h
    exact Or.inl (.refl _)
  rename_i old hold
  split at h
  · obtain rfl := Option.some.inj h
    exact Or.inl (.refl _)
  split at h
  · exact absurd h (by simp)
  rename_i d hd
  split at h
  · rename_i hdone
    obtain rfl := Option.some.inj h
    by_cases hid : id = old
    · subst hid
      refine Or.inr ⟨Root.folder_setFolder_self r id none, fun s hs => ?_⟩
      rw [hd] at hs
      rw [Bool.and_eq_true, Bool.not_eq_true', ← Bool.not_eq_true] at hdone
      exact hdone.1 (Folder.hasSegments_iff.mpr ⟨s, hs⟩)
    · exact Or.inl (by rw [Root.folder_setFolder_of_ne r none hid]; exact .refl _)
  · obtain rfl := Option.some.inj h
    by_cases hid : id = old
    · subst hid
      rw [Root.folder_write_self]
      exact Or.inl ((SameFiles.refl _).save _)
    · rw [Root.folder_write_of_ne r _ fun e => hid (Option.some.inj e).symm]
      exact Or.inl (.refl _)

lemma leaveEvent_eq_none (h : q.leaveEvent r = none) (id : String) (hd : q.dir = some id) :
    r.folder id = none := by
  rw [leaveEvent, hd] at h
  dsimp only at h
  split at h
  · exact absurd h (by simp)
  · split at h
    · assumption
    · split at h <;> exact absurd h (by simp)

/-- When the queue remembers what its folder records, the marks are kept too. -/
lemma recorded_leaveEvent (h : q.leaveEvent r = some r') (id : String)
    (hq : ∀ d, q.dir = some id → r.folder id = some d → q.state = recorded (some d))
    (hsome : (r'.folder id).isSome) :
    SameMarks (recorded (r.folder id)) (recorded (r'.folder id)) := by
  rw [leaveEvent] at h
  split at h
  · obtain rfl := Option.some.inj h
    exact .refl _
  rename_i old hold
  split at h
  · obtain rfl := Option.some.inj h
    exact .refl _
  rename_i hvalid
  split at h
  · exact absurd h (by simp)
  rename_i d hd
  by_cases hid : id = old
  · subst hid
    split at h
    · obtain rfl := Option.some.inj h
      rw [Root.folder_setFolder_self] at hsome
      exact absurd hsome (by simp)
    · obtain rfl := Option.some.inj h
      rw [Root.folder_write_self, hd, applyWrites, Lib.applyAll_cons, Lib.applyAll_nil,
        recorded_apply_state rfl, ← hq d hold hd]
      refine ⟨?_, rfl, fun t => by cases t <;> rfl, fun t => by cases t <;> rfl⟩
      simpa using hvalid
  · have hfolder : r'.folder id = r.folder id := by
      split at h
      · obtain rfl := Option.some.inj h
        exact Root.folder_setFolder_of_ne r none hid
      · obtain rfl := Option.some.inj h
        exact Root.folder_write_of_ne r _ fun e => hid (Option.some.inj e).symm
    rw [hfolder]
    exact .refl _

lemma loose_leaveEvent (h : q.leaveEvent r = some r') : r'.loose = r.loose := by
  rw [leaveEvent] at h
  split at h
  · rw [← Option.some.inj h]
  split at h
  · rw [← Option.some.inj h]
  split at h
  · exact absurd h (by simp)
  split at h
  · rw [← Option.some.inj h, Root.loose_setFolder]
  · rw [← Option.some.inj h, Root.loose_write]

end SpoolQueue

end Multisite

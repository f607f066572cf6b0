import Multisite.Storage.OnAir

/-!
What a deletion says it did (the `DeleteReport` of `StorageManager::delete_event` and
`delete_older_than`).

The bytes are those of the whole listing, also where the deletion stopped before its end.

* `report_deleteEvent`: what the report of one deletion says;
* `report_deleteTargets`: what the loop over the events adds up;
* `report_exact_iff`: a report is exact exactly when nothing with a size is left over.
-/

namespace Multisite

namespace StorageManager

open Cloud

/-! ### What a deletion does -/

/-- The keys whose DELETE succeeds, before it is cancelled or one of them fails. -/
def succeeded (progress : DeleteProgressFn) (pr : DeleteProgress) :
    List String → ℕ → Cloud → List String
  | [], _, _ => []
  | key :: keys, i, c =>
      if progress { pr with objectsDone := i } = false then []
      else
        match (c.removeKey key).1 with
        | some _ => []
        | none => key :: succeeded progress pr keys (i + 1) (c.removeKey key).2

/-- The objects under the event's prefix, listed after the read of the pointer. -/
def listing (id : String) (c : Cloud) : (List Entry × Stopped) × Cloud :=
  c.turn.2.listAll (fun b => b.under (eventPrefixFor id)) (·.key) kMaxPages none

/-- The bytes of these objects, as `list_prefix` counts them. -/
def sizes (objects : List Entry) : ℤ := (objects.map fun e => max e.size 0).sum

section

variable (sm : StorageManager) (id : String) (progress : DeleteProgressFn) (c : Cloud)

/-- The deletion comes to its keys: the event is not the one on air, and the listing ends. -/
def Begins : Prop :=
  ¬((sm.liveEventId c).1 ≠ "" ∧ (sm.liveEventId c).1 = id) ∧ (listing id c).1.2 = .finished

instance : Decidable (sm.Begins id c) := inferInstanceAs (Decidable (_ ∧ _))

/-- The objects a deletion goes for. -/
def objectsOf : List Entry := if sm.Begins id c then (listing id c).1.1 else []

/-- The keys it goes through. -/
def keysOf : List String := (listing id c).1.1.map (·.key) ++ [roomEventKey sm.roomId id]

/-- Its progress, as far as it stays the same. -/
def progressOf : DeleteProgress := { eventId := id, objectsTotal := (sm.keysOf id c).length }

/-- The keys whose DELETE succeeds. -/
def taken : List String :=
  if sm.Begins id c then
    succeeded progress (sm.progressOf id c) (sm.keysOf id c) 0 (listing id c).2
  else []

/-- The listed sizes of the objects that are deleted. -/
def freed : ℤ := sizes ((sm.objectsOf id c).filter fun e => e.key ∈ sm.taken id progress c)

/-- Every key of the event is deleted. -/
def TakesAll : Prop := sm.Begins id c ∧ sm.taken id progress c = sm.keysOf id c

instance : Decidable (sm.TakesAll id progress c) := inferInstanceAs (Decidable (_ ∧ _))

/-- After the deletion nothing is listed under the event's prefix. -/
def RelistsEmpty : Prop :=
  ((removeKeys progress (sm.progressOf id c) (sm.keysOf id c) 0 (listing id c).2).2.listAll
    (fun b => b.under (eventPrefixFor id)) (·.key) kMaxPages none).1 = ([], .finished)

/-- Of what is listed nothing with a size is left over. -/
def LeavesNothing : Prop := ∀ e ∈ sm.objectsOf id c, e.key ∉ sm.taken id progress c → e.size ≤ 0

/-- The report of one deletion is exact. -/
structure Exact (rep : DeleteReport) : Prop where
  objects : rep.objectsDeleted = (sm.taken id progress c).length
  bytes : rep.bytesFreed = sm.freed id progress c
  ids : rep.deletedIds = if sm.TakesAll id progress c then [id] else []
  confirmed : rep.confirmed = true → sm.TakesAll id progress c ∧ sm.RelistsEmpty id progress c

/-- The report of a cleanup that came to these deletions is exact. -/
structure OlderExact (ds : List (String × DeleteProgressFn × Cloud)) (rep : DeleteReport) :
    Prop where
  objects : rep.objectsDeleted = (ds.map fun d => (sm.taken d.1 d.2.1 d.2.2).length).sum
  bytes : rep.bytesFreed = (ds.map fun d => sm.freed d.1 d.2.1 d.2.2).sum
  ids : rep.deletedIds = (ds.filter fun d => sm.TakesAll d.1 d.2.1 d.2.2).map (·.1)
  confirmed : rep.confirmed = true →
    ∀ d ∈ ds, sm.TakesAll d.1 d.2.1 d.2.2 → sm.RelistsEmpty d.1 d.2.1 d.2.2

end

variable {sm : StorageManager} {id : String} {progress : DeleteProgressFn} {c : Cloud}

/-! ### One deletion -/

/-- The loop counts the DELETEs that succeed, and comes to its end when all do. -/
lemma removeKeys_succeeded {pr : DeleteProgress} (keys : List String) (i : ℕ) (c : Cloud) :
    (removeKeys progress pr keys i c).1.1 = i + (succeeded progress pr keys i c).length ∧
    ((removeKeys progress pr keys i c).1.2 = none ↔ succeeded progress pr keys i c = keys) ∧
    ∀ rep, (removeKeys progress pr keys i c).1.2 = some rep →
      rep.ok = false ∧ rep.confirmed = false ∧ rep.deletedIds = [] := by
  induction keys generalizing i c with
  | nil => simp [removeKeys, succeeded]
  | cons key keys ih =>
      rw [removeKeys, succeeded]
      split
      · refine ⟨rfl, by simp, ?_⟩
        rintro rep ⟨⟩
        exact ⟨rfl, rfl, rfl⟩
      · dsimp only
        cases (c.removeKey key).1 with
        | some e =>
            refine ⟨rfl, by simp, ?_⟩
            rintro rep ⟨⟩
            exact ⟨rfl, rfl, rfl⟩
        | none =>
            obtain ⟨hcount, hend, hearly⟩ := ih (i + 1) (c.removeKey key).2
            refine ⟨?_, ?_, hearly⟩
            · rw [hcount, List.length_cons]
              omega
            · rw [hend]
              simp

lemma listPrefix_listing (id : String) (c : Cloud) :
    listPrefix (eventPrefixFor id) c.turn.2 =
      (match (listing id c).1.2 with
        | .tooMany => .error ("listing " ++ eventPrefixFor id ++ " did not finish after " ++
            toString kMaxPages ++ " pages")
        | .failed e => .error e
        | .finished => .ok ((listing id c).1.1.map (·.key), sizes (listing id c).1.1),
      (listing id c).2) := by
  rw [listPrefix]
  change (match (listing id c).1.2 with
    | .tooMany => _
    | .failed e => _
    | .finished => _) = _
  cases (listing id c).1.2 <;> rfl

/-- A listing that gives no keys ends and gives nothing. -/
lemma listAll_of_isEmpty {pre : String} {c : Cloud}
    (h : (match (listPrefix pre c).1 with
      | .ok (remaining, _) => remaining.isEmpty
      | .error _ => false) = true) :
    (c.listAll (fun b => b.under pre) (·.key) kMaxPages none).1 = ([], .finished) := by
  rw [listPrefix] at h
  split at h
  · rename_i remaining bytes hl
    split at hl
    · exact absurd hl (by simp)
    · exact absurd hl (by simp)
    · rename_i hend
      obtain ⟨rfl, -⟩ : _ ∧ _ := by simpa using hl
      rw [List.isEmpty_iff, List.map_eq_nil_iff] at h
      exact Prod.ext h hend
  · exact absurd h (by simp)

/-- **The report of one deletion**: exact but for the bytes, which are those of all that was
listed. -/
lemma report_deleteEvent (sm : StorageManager) (id : String) (progress : DeleteProgressFn)
    (c : Cloud) :
    let rep := (sm.deleteEvent id progress c).1
    rep.objectsDeleted = (sm.taken id progress c).length ∧
      rep.bytesFreed = sizes (sm.objectsOf id c) ∧
      (rep.deletedIds = if sm.TakesAll id progress c then [id] else []) ∧
      (rep.confirmed = true → sm.TakesAll id progress c ∧ sm.RelistsEmpty id progress c) ∧
      (rep.ok = true ↔ sm.TakesAll id progress c) := by
  dsimp only
  by_cases hbegins : sm.Begins id c
  · have hlive := hbegins.1
    have hend := hbegins.2
    have htaken : sm.taken id progress c =
        succeeded progress (sm.progressOf id c) (sm.keysOf id c) 0 (listing id c).2 :=
      if_pos hbegins
    have hobjects : sm.objectsOf id c = (listing id c).1.1 := if_pos hbegins
    obtain ⟨hcount, hall, hearly⟩ :=
      @removeKeys_succeeded progress (sm.progressOf id c) (sm.keysOf id c) 0 (listing id c).2
    rw [Nat.zero_add] at hcount
    have hwhole : sm.TakesAll id progress c ↔
        (removeKeys progress (sm.progressOf id c) (sm.keysOf id c) 0 (listing id c).2).1.2 = none := by
      rw [hall, TakesAll, htaken]
      exact and_iff_right hbegins
    rw [deleteEvent, if_neg hlive]
    simp only [liveEventId_snd, listPrefix_listing, hend]
    rw [hobjects]
    split
    · rename_i rep hrep
      obtain ⟨hok, hconfirmed, hids⟩ := hearly rep hrep
      have hnot : ¬sm.TakesAll id progress c := fun h =>
        absurd ((hwhole.mp h).symm.trans hrep) (by simp)
      refine ⟨hcount.trans (by rw [htaken]), rfl, hids.trans (if_neg hnot).symm, fun h => ?_, ?_⟩
      · exact absurd (hconfirmed.symm.trans h) (by simp)
      · exact iff_of_false (by simp [hok]) hnot
    · rename_i hnone
      have hyes := hwhole.mpr hnone
      refine ⟨?_, rfl, (if_pos hyes).symm, fun h => ⟨hyes, listAll_of_isEmpty h⟩, ?_⟩
      · rw [hyes.2]
        rfl
      · exact iff_of_true rfl hyes
  · have hnot : ¬sm.TakesAll id progress c := fun h => hbegins h.1
    have htaken : sm.taken id progress c = [] := if_neg hbegins
    have hobjects : sm.objectsOf id c = [] := if_neg hbegins
    rw [if_neg hnot, htaken, hobjects, deleteEvent]
    dsimp only
    split
    · exact ⟨rfl, rfl, rfl, fun h => absurd h (by simp), iff_of_false (by simp) hnot⟩
    · rename_i hlive
      rw [liveEventId_snd, listPrefix_listing]
      dsimp only
      cases hend : (listing id c).1.2 with
      | finished => exact absurd ⟨hlive, hend⟩ hbegins
      | tooMany =>
          exact ⟨rfl, rfl, rfl, fun h => absurd h (by simp), iff_of_false (by simp) hnot⟩
      | failed e => exact ⟨rfl, rfl, rfl, fun h => absurd h (by simp), iff_of_false (by simp) hnot⟩

/-! ### A cleanup -/

/-- **What the loop over the events adds up**: the reports of its deletions, each confirmed if the
sum is. -/
lemma report_deleteTargets (sm : StorageManager) (progress : DeleteProgressFn) {count : ℕ}
    (ts : List ManagedEvent) {i : ℕ} (hi : i + ts.length = count) (rep : DeleteReport) (c : Cloud) :
    let ds := sm.deletionsFrom progress count ts i c
    let r := (sm.deleteTargets progress count ts i rep c).1
    r.objectsDeleted =
        rep.objectsDeleted + (ds.map fun d => (sm.taken d.1 d.2.1 d.2.2).length).sum ∧
      r.bytesFreed = rep.bytesFreed + (ds.map fun d => sizes (sm.objectsOf d.1 d.2.2)).sum ∧
      r.deletedIds =
        rep.deletedIds ++ (ds.filter fun d => sm.TakesAll d.1 d.2.1 d.2.2).map (·.1) ∧
      (r.confirmed = true → (i ≠ 0 → rep.confirmed = true) ∧
        ∀ d ∈ ds, sm.TakesAll d.1 d.2.1 d.2.2 → sm.RelistsEmpty d.1 d.2.1 d.2.2) := by
  induction ts generalizing i rep c with
  | nil =>
      obtain rfl : i = count := hi
      simp only [deletionsFrom, deleteTargets, List.map_nil, List.sum_nil, List.filter_nil,
        List.append_nil, add_zero, true_and, Bool.or_eq_true, decide_eq_true_eq]
      exact fun h => ⟨fun hne => h.resolve_left hne, fun d hd => absurd hd List.not_mem_nil⟩
  | cons t ts ih =>
      rw [List.length_cons] at hi
      dsimp only
      rw [deletionsFrom, deleteTargets]
      dsimp only
      set p := perEvent progress i count t.name
      obtain ⟨hobjects, hbytes, hids, hconfirmed, hok⟩ := report_deleteEvent sm t.eventId p c
      cases hdone : (sm.deleteEvent t.eventId p c).1.ok with
      | false =>
          have hnot : ¬sm.TakesAll t.eventId p c := by
            rw [← hok, hdone]
            simp
          have hlast {q : Bool} (h : q = true → i ≠ 0 → rep.confirmed = true) :
              q = true → (i ≠ 0 → rep.confirmed = true) ∧
                ∀ d ∈ [(t.eventId, p, c)], sm.TakesAll d.1 d.2.1 d.2.2 →
                  sm.RelistsEmpty d.1 d.2.1 d.2.2 := by
            refine fun hq => ⟨h hq, fun d hd htakes => ?_⟩
            rw [List.mem_singleton.mp hd] at htakes
            exact absurd htakes hnot
          rw [if_pos rfl, if_pos rfl]
          split <;>
            exact ⟨by simp [hobjects], by simp [hbytes], by simp [hnot], hlast fun h _ => h⟩
      | true =>
          have htakes := hok.mp hdone
          simp only [reduceCtorEq, ↓reduceIte]
          obtain ⟨hobjects', hbytes', hids', hconfirmed'⟩ := ih (i := i + 1) (by omega)
            { rep with
              objectsDeleted := rep.objectsDeleted + (sm.deleteEvent t.eventId p c).1.objectsDeleted
              bytesFreed := rep.bytesFreed + (sm.deleteEvent t.eventId p c).1.bytesFreed
              eventsDeleted := rep.eventsDeleted + 1
              deletedIds := rep.deletedIds ++ [t.eventId]
              confirmed := if i = 0 then (sm.deleteEvent t.eventId p c).1.confirmed
                else rep.confirmed && (sm.deleteEvent t.eventId p c).1.confirmed }
            (sm.deleteEvent t.eventId p c).2
          refine ⟨?_, ?_, ?_, fun h => ?_⟩
          · rw [hobjects', hobjects, List.map_cons, List.sum_cons]
            dsimp only
            omega
          · rw [hbytes', hbytes, List.map_cons, List.sum_cons]
            dsimp only
            ring
          · rw [hids', List.filter_cons, if_pos (decide_eq_true htakes), List.map_cons]
            simp
          · obtain ⟨hsofar, hrest⟩ := hconfirmed' h
            have hboth := hsofar (by omega)
            dsimp only at hboth
            have hone : (sm.deleteEvent t.eventId p c).1.confirmed = true ∧
                (i ≠ 0 → rep.confirmed = true) := by
              split at hboth
              · rename_i h0
                exact ⟨hboth, fun hne => absurd h0 hne⟩
              · rw [Bool.and_eq_true] at hboth
                exact ⟨hboth.2, fun _ => hboth.1⟩
            refine ⟨hone.2, List.forall_mem_cons.mpr ⟨fun _ => (hconfirmed hone.1).2, hrest⟩⟩

/-! ### The statement -/

/-- The sizes of some of the objects are those of all, exactly when the others have none. -/
lemma sizes_filter (objects : List Entry) (p : Entry → Bool) :
    sizes (objects.filter p) ≤ sizes objects ∧
    (sizes objects = sizes (objects.filter p) ↔ ∀ e ∈ objects, p e = false → e.size ≤ 0) := by
  induction objects with
  | nil => simp [sizes]
  | cons e objects ih =>
      have hcons (l : List Entry) : sizes (e :: l) = max e.size 0 + sizes l := by
        simp [sizes]
      rw [List.forall_mem_cons, List.filter_cons, hcons]
      obtain ⟨hle, hiff⟩ := ih
      split
      · rename_i hp
        rw [hcons]
        refine ⟨by omega, ?_⟩
        rw [← hiff]
        simp [hp]
      · rename_i hp
        refine ⟨by omega, ?_⟩
        rw [← hiff]
        have hfalse : p e = false := by simpa using hp
        constructor
        · intro h
          exact ⟨fun _ => by omega, by omega⟩
        · rintro ⟨h0, hrest⟩
          have := h0 hfalse
          omega

/-- The bytes of a deletion are those it freed, exactly when nothing with a size is left. -/
lemma freed_iff : sizes (sm.objectsOf id c) = sm.freed id progress c ↔
    sm.LeavesNothing id progress c := by
  rw [freed, (sizes_filter _ _).2, LeavesNothing]
  simp

/-- So are those of several deletions. -/
lemma sum_freed_iff (ds : List (String × DeleteProgressFn × Cloud)) :
    (ds.map fun d => sm.freed d.1 d.2.1 d.2.2).sum ≤
        (ds.map fun d => sizes (sm.objectsOf d.1 d.2.2)).sum ∧
      ((ds.map fun d => sizes (sm.objectsOf d.1 d.2.2)).sum =
          (ds.map fun d => sm.freed d.1 d.2.1 d.2.2).sum ↔
        ∀ d ∈ ds, sm.LeavesNothing d.1 d.2.1 d.2.2) := by
  induction ds with
  | nil => simp
  | cons d ds ih =>
      obtain ⟨hle, hiff⟩ := ih
      have hone : sm.freed d.1 d.2.1 d.2.2 ≤ sizes (sm.objectsOf d.1 d.2.2) := (sizes_filter _ _).1
      rw [List.forall_mem_cons, ← hiff, ← freed_iff]
      simp only [List.map_cons, List.sum_cons]
      exact ⟨by omega, by omega⟩

/-- **When a report is exact**: the number of objects, the ids and the confirmation always are; the
bytes are, exactly when no object listed with a size is left over, in any deletion that the call
comes to. -/
theorem report_exact_iff (sm : StorageManager) (progress : DeleteProgressFn) (c : Cloud) :
    (∀ id, sm.Exact id progress c (sm.deleteEvent id progress c).1 ↔
      sm.LeavesNothing id progress c) ∧
    ∀ olderThanDays now clock,
      sm.OlderExact (sm.deletions olderThanDays now clock progress c)
          (sm.deleteOlderThan olderThanDays now clock progress c).1 ↔
        ∀ d ∈ sm.deletions olderThanDays now clock progress c, sm.LeavesNothing d.1 d.2.1 d.2.2 := by
  refine ⟨fun id => ?_, fun olderThanDays now clock => ?_⟩
  · obtain ⟨hobjects, hbytes, hids, hconfirmed, -⟩ := report_deleteEvent sm id progress c
    rw [← freed_iff, ← hbytes]
    exact ⟨fun h => h.bytes, fun h => ⟨hobjects, h, hids, hconfirmed⟩⟩
  · rw [deletions, deleteOlderThan]
    cases hev : (sm.listEvents clock c).1 with
    | error e =>
        dsimp only
        exact iff_of_true ⟨rfl, rfl, rfl, fun h => absurd h (by simp)⟩ (by simp)
    | ok events =>
        dsimp only
        rw [deleteTargets_congr (roomId_listEvents sm clock c)]
        set goFor := targets clock (now - olderThanDays * 24 * 60 * 60 * 1000) events
        obtain ⟨hobjects, hbytes, hids, hconfirmed⟩ := report_deleteTargets sm progress goFor
          (i := 0) (Nat.zero_add _)
          { eventsConsidered := events.length
            eventsLiveKept := (events.filter (·.isLive)).length
            eventsUndated := (events.filter fun e => !e.isLive && decide (startedMs clock e ≤ 0)).length
            eventsMatched := goFor.length }
          (sm.listEvents clock c).2.2
        rw [← (sum_freed_iff _).2]
        constructor
        · intro h
          rw [← h.bytes, hbytes]
          simp
        · intro h
          exact ⟨by simpa using hobjects, by rw [hbytes, ← h]; simp, by simpa using hids,
            fun hc => (hconfirmed hc).2⟩

/-- **Two bytes are said to be freed and nothing is deleted**: the operator cancels at the first
object. -/
theorem report_not_exact :
    ¬∀ (sm : StorageManager) (id : String) (progress : DeleteProgressFn) (c : Cloud),
      sm.Exact id progress c (sm.deleteEvent id progress c).1 := by
  intro h
  have hbytes := (h ⟨"r", {}⟩ "f" (fun _ => false) (sampleCloud [])).bytes
  exact absurd hbytes (by decide +kernel)

end StorageManager

end Multisite

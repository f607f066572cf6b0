import Multisite.Storage.Manager

/-!
What a cleanup spares (`StorageManager::delete_event`, `delete_older_than`).

Each deletion begins with a read of `live.json` of its own, and one that fails, or gives a
document that is no pointer, comes back as the empty string that also stands for a room with
nothing on air.

* `spares_iff`: one deletion keeps off the event on air, and off an event that
  cannot be told from it, exactly when that read is answered or the deletion comes to no DELETE
  of the event's objects;
* `cleanup_spares`: so does a cleanup, when each of its deletions does;
* `cleanup_deletes_live`: the read fails, and the event on air goes.
-/

namespace Multisite

/-- The room's `live.json` names the event. -/
def Bucket.OnAir (room id : String) (b : Bucket) : Prop :=
  ∃ l, b.get (livePointerKey room) = some (.live l) ∧ l.eventId = id

namespace Cloud

/-- From `c` to `c'` no object under the prefix was deleted. -/
def Spared (pre : String) (c c' : Cloud) : Prop :=
  (c'.deleted.filter fun k => Under pre k) = c.deleted.filter fun k => Under pre k

/-- The coming read of the pointer tells whether an event is on air: it is answered, and what is
stored, if anything, is a pointer. -/
def Established (room : String) (c : Cloud) : Prop :=
  c.turn.1 = .answered ∧ ∀ o, c.turn.2.bucket.get (livePointerKey room) = some o → ∃ l, o = .live l

variable {c c' c'' : Cloud} {pre : String}

lemma Spared.trans (h : Spared pre c c') (h' : Spared pre c' c'') : Spared pre c c'' :=
  Eq.trans h' h

lemma spared_of_deleted (h : c'.deleted = c.deleted) : Spared pre c c' := by
  rw [Spared, h]

/-- A DELETE is carried out or not. -/
lemma removeKey_snd (key : String) (c : Cloud) :
    (c.removeKey key).2 = c.turn.2 ∨ (c.removeKey key).2 = c.turn.2.delete key := by
  cases h : c.turn.1 with
  | answered => exact Or.inr (by rw [removeKey_of_answered h])
  | failed carriedOut status e =>
      rw [(removeKey_of_failed h).2]
      cases carriedOut with
      | false => exact Or.inl rfl
      | true => exact Or.inr rfl

/-- A DELETE adds its key to what was deleted, where the store carried it out. -/
lemma deleted_removeKey (key : String) (c : Cloud) :
    (c.removeKey key).2.deleted = c.deleted ∨ (c.removeKey key).2.deleted = c.deleted ++ [key] := by
  rcases removeKey_snd key c with h | h
  · exact Or.inl (h ▸ deleted_turn c)
  · rw [h]
    simp [delete]

lemma spared_removeKey {key : String} (h : ¬ Under pre key) : Spared pre c (c.removeKey key).2 := by
  rcases deleted_removeKey key c with hd | hd
  · exact spared_of_deleted hd
  · rw [Spared, hd, List.filter_append]
    simp [h]

/-- What the bucket shows of one key is not touched by a DELETE of another. -/
lemma Throughout.removeKey {room id key : String} (h : c.Throughout (Bucket.OnAir room id))
    (hkey : livePointerKey room ≠ key) : (c.removeKey key).2.Throughout (Bucket.OnAir room id) := by
  rcases removeKey_snd key c with hc | hc
  · exact hc ▸ h.turn
  · rw [hc]
    obtain ⟨⟨l, hl, hid⟩, hcoming⟩ := h.turn
    exact ⟨⟨l, (Bucket.get_remove_of_ne _ hkey).trans hl, hid⟩, hcoming⟩

end Cloud

namespace StorageManager

open Cloud

variable {sm : StorageManager} {c : Cloud} {progress : DeleteProgressFn} {pr : DeleteProgress}

/-! ### The loop over the keys -/

/-- What every DELETE of the listed keys keeps, the loop keeps. -/
lemma removeKeys_rec {Q : Cloud → Prop} {keys : List String}
    (hkey : ∀ key ∈ keys, ∀ c, Q c → Q (c.removeKey key).2) (i : ℕ) (h : Q c) :
    Q (removeKeys progress pr keys i c).2 := by
  induction keys generalizing i c with
  | nil => exact h
  | cons key keys ih =>
      have hnext := hkey key List.mem_cons_self c h
      rw [removeKeys]
      split
      · exact h
      · simp only
        split
        · exact hnext
        · exact ih (fun k hk => hkey k (List.mem_cons_of_mem _ hk)) _ hnext

/-- The loop deletes nothing but the keys it is given. -/
lemma spared_removeKeys {keys : List String} {pre : String} (h : ∀ key ∈ keys, ¬ Under pre key)
    (i : ℕ) : Spared pre c (removeKeys progress pr keys i c).2 :=
  removeKeys_rec (Q := Spared pre c) (fun key hk _ hs => hs.trans (spared_removeKey (h key hk))) i
    rfl

/-- What was deleted stays so. -/
lemma le_length_deleted_removeKeys {keys : List String} {pre : String} (i : ℕ) :
    (c.deleted.filter fun k => Under pre k).length ≤
      (((removeKeys progress pr keys i c).2.deleted).filter fun k => Under pre k).length := by
  refine removeKeys_rec (Q := fun c' => (c.deleted.filter fun k => Under pre k).length ≤
    (c'.deleted.filter fun k => Under pre k).length) ?_ i le_rfl
  intro key _ c' h
  refine h.trans ?_
  rcases deleted_removeKey key c' with hd | hd
  · rw [hd]
  · rw [hd, List.filter_append, List.length_append]
    exact Nat.le_add_right _ _

/-- The first DELETE of the loop is not carried out: it is cancelled or turned away. -/
def FirstKept (progress : DeleteProgressFn) (pr : DeleteProgress) (c : Cloud) : Prop :=
  progress { pr with objectsDone := 0 } = false ∨ ∃ s e, c.turn.1 = .failed false s e

/-- **Nothing of the listed objects goes exactly when the first does not**: the loop ends at a
DELETE that fails. -/
lemma spared_removeKeys_cons {key : String} {keys : List String} {pre : String}
    (h : Under pre key) :
    Spared pre c (removeKeys progress pr (key :: keys) 0 c).2 ↔ FirstKept progress pr c := by
  rw [removeKeys, FirstKept]
  by_cases hp : progress { pr with objectsDone := 0 } = false
  · simp [hp, Spared]
  · rw [if_neg hp]
    rw [or_iff_right hp]
    have hgone : ∀ c' : Cloud, c'.deleted = c.deleted ++ [key] → ∀ ks i,
        ¬ Spared pre c (removeKeys progress pr ks i c').2 := by
      intro c' hd ks i hs
      have hle := @le_length_deleted_removeKeys c' progress pr ks pre i
      rw [Spared] at hs
      rw [hs, hd, List.filter_append] at hle
      simp [h] at hle
    cases hturn : c.turn.1 with
    | answered =>
        rw [removeKey_of_answered hturn]
        simp only [reduceCtorEq, exists_false, iff_false]
        exact hgone _ (by simp [delete]) _ _
    | failed carriedOut s e =>
        obtain ⟨hsome, hsnd⟩ := @removeKey_of_failed c key _ _ _ hturn
        obtain ⟨err, herr⟩ := Option.isSome_iff_exists.mp hsome
        simp only [herr, hsnd]
        cases carriedOut with
        | false => simpa using spared_of_deleted (deleted_turn c)
        | true =>
            simp only [reduceIte, Fate.failed.injEq, Bool.true_eq_false, false_and, exists_false,
              iff_false]
            exact hgone (c.turn.2.delete key) (by simp [delete]) [] 0

/-! ### One deletion -/

@[simp] lemma liveEventId_snd (sm : StorageManager) (c : Cloud) :
    (sm.liveEventId c).2 = c.turn.2 := by
  rw [liveEventId]
  simp only [get_snd]
  split <;> rfl

/-- The pointer of an answered read. -/
lemma liveEventId_of_onAir {id : String} (h : c.Throughout (Bucket.OnAir sm.roomId id))
    (hs : c.Established sm.roomId) : (sm.liveEventId c).1 = id := by
  obtain ⟨l, hl, hid⟩ := h.turn.1
  rw [liveEventId, get_of_answered hs.1, hl]
  exact hid

/-- A read that tells nothing gives the empty string. -/
lemma liveEventId_of_not_established (h : ¬ c.Established sm.roomId) :
    (sm.liveEventId c).1 = "" := by
  rw [Established, not_and] at h
  cases hturn : c.turn.1 with
  | failed carriedOut s e => rw [liveEventId, get_of_failed hturn]
  | answered =>
      have hother := h hturn
      push Not at hother
      obtain ⟨o, ho, hno⟩ := hother
      rw [liveEventId, get_of_answered hturn, ho]
      cases o with
      | live l => exact absurd rfl (hno l)
      | _ => rfl

/-- The keys a deletion goes through lie under the event's prefix, the last one apart. -/
lemma under_of_listPrefix {pre : String} {keys : List String} {bytes : ℤ}
    (h : (listPrefix pre c).1 = .ok (keys, bytes)) : ∀ key ∈ keys, Under pre key := by
  rw [listPrefix] at h
  simp only at h
  split at h
  · simp at h
  · simp at h
  · obtain ⟨rfl, -⟩ : _ ∧ _ := by simpa using h
    intro key hkey
    obtain ⟨e, he, rfl⟩ := List.mem_map.mp hkey
    refine mem_listAll (R := fun e => Under pre e.key) ?_ kMaxPages none c e he
    intro b x hx
    simpa using List.of_mem_filter hx

lemma listPrefix_snd (pre : String) (c : Cloud) :
    (listPrefix pre c).2 =
      (c.listAll (fun b => b.under pre) (·.key) kMaxPages none).2 := by
  rw [listPrefix]
  split <;> rfl

@[simp] lemma deleted_listPrefix (pre : String) (c : Cloud) :
    (listPrefix pre c).2.deleted = c.deleted := by
  rw [listPrefix_snd, deleted_listAll]

/-- The call comes to no DELETE of the event's objects that the store carries out: the listing
fails or gives none, or the first DELETE is cancelled or turned away. -/
def Barren (id : String) (progress : DeleteProgressFn) (c : Cloud) : Prop :=
  ∀ keys bytes, (listPrefix (eventPrefixFor id) c.turn.2).1 = .ok (keys, bytes) →
    keys = [] ∨ FirstKept progress { eventId := id, objectsTotal := keys.length + 1 }
      (listPrefix (eventPrefixFor id) c.turn.2).2

/-- A deletion of what the pointer names is refused. -/
lemma deleteEvent_refused {id : String} (hid : id ≠ "") (h : (sm.liveEventId c).1 = id) :
    (sm.deleteEvent id progress c).2 = c.turn.2 := by
  rw [deleteEvent]
  simp [h, hid]

/-- Where it is not refused, a deletion is the listing, the loop over its keys and the index
entry, and a second listing. -/
lemma deleteEvent_eq {id : String} (h : ¬ ((sm.liveEventId c).1 ≠ "" ∧ (sm.liveEventId c).1 = id)) :
    (sm.deleteEvent id progress c).2 =
      match (listPrefix (eventPrefixFor id) c.turn.2).1 with
      | .error _ => (listPrefix (eventPrefixFor id) c.turn.2).2
      | .ok (keys, _) =>
          let r := removeKeys progress { eventId := id, objectsTotal := keys.length + 1 }
            (keys ++ [roomEventKey sm.roomId id]) 0 (listPrefix (eventPrefixFor id) c.turn.2).2
          if r.1.2.isSome then r.2 else (listPrefix (eventPrefixFor id) r.2).2 := by
  rw [deleteEvent]
  simp only [if_neg h, liveEventId_snd]
  split
  · rename_i hl
    simp only [hl]
  · rename_i keys bytes hl
    simp only [hl, List.length_append, List.length_singleton]
    split
    · rename_i hr
      simp only [hr, Option.isSome_some, reduceIte]
    · rename_i hr
      simp only [hr, Option.isSome_none, Bool.false_eq_true, reduceIte]

/-- What requests that delete nothing keep, and every DELETE of a key of the event, a deletion
keeps. -/
lemma deleteEvent_rec {Q : Cloud → Prop} {id : String} (hturn : ∀ c, Q c → Q c.turn.2)
    (hkey : ∀ key, Under (eventPrefixFor id) key ∨ key = roomEventKey sm.roomId id →
      ∀ c, Q c → Q (c.removeKey key).2) (h : Q c) : Q (sm.deleteEvent id progress c).2 := by
  have hlist : ∀ c, Q c → Q (listPrefix (eventPrefixFor id) c).2 := by
    intro c hc
    rw [listPrefix_snd]
    exact listAll_rec hturn _ _ _ hc
  by_cases hl : (sm.liveEventId c).1 ≠ "" ∧ (sm.liveEventId c).1 = id
  · rw [deleteEvent_refused (hl.2 ▸ hl.1) hl.2]
    exact hturn c h
  · rw [deleteEvent_eq hl]
    split
    · exact hlist _ (hturn c h)
    · rename_i keys bytes heq
      have hloop : Q (removeKeys progress { eventId := id, objectsTotal := keys.length + 1 }
          (keys ++ [roomEventKey sm.roomId id]) 0 (listPrefix (eventPrefixFor id) c.turn.2).2).2 := by
        refine removeKeys_rec (fun key hmem => hkey key ?_) 0 (hlist _ (hturn c h))
        rcases List.mem_append.mp hmem with hk | hk
        · exact Or.inl (under_of_listPrefix heq key hk)
        · exact Or.inr (List.mem_singleton.mp hk)
      simp only
      split
      · exact hloop
      · exact hlist _ hloop

/-- **A deletion takes nothing of another event.** -/
lemma spared_deleteEvent_of_ne {id id' : String} (hid : IsEventId id) (hid' : IsEventId id')
    (hne : id' ≠ id) : Spared (eventPrefixFor id') c (sm.deleteEvent id progress c).2 := by
  refine deleteEvent_rec (Q := Spared (eventPrefixFor id') c) ?_ ?_ rfl
  · exact fun c' h => h.trans (spared_of_deleted (deleted_turn c'))
  · intro key hkey c' h
    refine h.trans (spared_removeKey fun hu => ?_)
    rcases hkey with hk | rfl
    · exact hne (under_eventPrefixFor_inj hid' hid hu hk)
    · exact not_under_rooms hu _ (roomEventKey_eq _ _)

/-- A deletion leaves the pointer as it finds it. -/
lemma throughout_deleteEvent {id id' : String} (h : c.Throughout (Bucket.OnAir sm.roomId id')) :
    (sm.deleteEvent id progress c).2.Throughout (Bucket.OnAir sm.roomId id') := by
  refine deleteEvent_rec (fun _ => Throughout.turn) ?_ h
  intro key hkey c' hc
  refine hc.removeKey ?_
  rcases hkey with hk | rfl
  · rintro rfl
    exact not_under_rooms hk _ (livePointerKey_eq _)
  · exact livePointerKey_ne_roomEventKey _ _

/-- **What a deletion that is not refused takes of its own event**: nothing, exactly where it is
barren. -/
lemma spared_deleteEvent_iff {id : String}
    (h : ¬ ((sm.liveEventId c).1 ≠ "" ∧ (sm.liveEventId c).1 = id)) :
    Spared (eventPrefixFor id) c (sm.deleteEvent id progress c).2 ↔ Barren id progress c := by
  rw [deleteEvent_eq h, Barren]
  cases hl : (listPrefix (eventPrefixFor id) c.turn.2).1 with
  | error e =>
      simp only [reduceCtorEq, IsEmpty.forall_iff, implies_true, iff_true]
      exact spared_of_deleted (by simp)
  | ok r =>
      obtain ⟨keys, bytes⟩ := r
      have hfrom : ∀ {c'}, Spared (eventPrefixFor id) c c' ↔
          Spared (eventPrefixFor id) (listPrefix (eventPrefixFor id) c.turn.2).2 c' := by
        intro c'
        rw [Spared, Spared, deleted_listPrefix, deleted_turn]
      have hagain : ∀ {c'}, Spared (eventPrefixFor id) c
          (listPrefix (eventPrefixFor id) c').2 ↔ Spared (eventPrefixFor id) c c' := by
        intro c'
        rw [Spared, Spared, deleted_listPrefix]
      have hkeys : Spared (eventPrefixFor id) c (removeKeys progress
          { eventId := id, objectsTotal := keys.length + 1 } (keys ++ [roomEventKey sm.roomId id]) 0
          (listPrefix (eventPrefixFor id) c.turn.2).2).2 ↔
          keys = [] ∨ FirstKept progress { eventId := id, objectsTotal := keys.length + 1 }
            (listPrefix (eventPrefixFor id) c.turn.2).2 := by
        rw [hfrom]
        cases keys with
        | nil =>
            simp only [true_or, iff_true]
            refine spared_removeKeys (fun key hkey hu => ?_) 0
            rw [List.nil_append, List.mem_singleton] at hkey
            exact not_under_rooms hu _ (hkey.trans (roomEventKey_eq _ _))
        | cons key keys =>
            simp only [List.cons_append, reduceCtorEq, false_or]
            exact spared_removeKeys_cons (under_of_listPrefix hl key List.mem_cons_self)
      have hlisted : (∀ keys' bytes', (Except.ok (keys, bytes) : Except String (List String × ℤ)) =
          .ok (keys', bytes') → keys' = [] ∨
            FirstKept progress { eventId := id, objectsTotal := keys'.length + 1 }
              (listPrefix (eventPrefixFor id) c.turn.2).2) ↔
          keys = [] ∨ FirstKept progress { eventId := id, objectsTotal := keys.length + 1 }
            (listPrefix (eventPrefixFor id) c.turn.2).2 := by
        constructor
        · exact fun h => h keys bytes rfl
        · intro h keys' bytes' heq
          obtain ⟨rfl, -⟩ : keys = keys' ∧ bytes = bytes' := by simpa using heq
          exact h
      rw [hlisted, ← hkeys]
      simp only
      split
      · rfl
      · exact hagain

/-! ### What a deletion has to spare -/

/-- **What is asked of one deletion**: nothing goes of an event that is on air throughout, and
nothing of the event itself where that cannot be established. -/
def Spares (sm : StorageManager) (id : String) (progress : DeleteProgressFn) (c : Cloud) : Prop :=
  (∀ live, IsEventId live → c.Throughout (Bucket.OnAir sm.roomId live) →
    Spared (eventPrefixFor live) c (sm.deleteEvent id progress c).2) ∧
  (¬ c.Established sm.roomId →
    Spared (eventPrefixFor id) c (sm.deleteEvent id progress c).2)

/-- The condition: the read of the pointer is established, or the deletion is barren. -/
def Guarded (sm : StorageManager) (id : String) (progress : DeleteProgressFn) (c : Cloud) : Prop :=
  c.Established sm.roomId ∨ Barren id progress c

/-- **One deletion spares what it has to exactly under the condition.** -/
lemma spares_iff {id : String} (hid : IsEventId id) :
    sm.Spares id progress c ↔ sm.Guarded id progress c := by
  have hblind : ¬ c.Established sm.roomId →
      (Spared (eventPrefixFor id) c (sm.deleteEvent id progress c).2 ↔ Barren id progress c) := by
    intro h
    exact spared_deleteEvent_iff (by simp [liveEventId_of_not_established h])
  constructor
  · intro h
    by_cases hs : c.Established sm.roomId
    · exact Or.inl hs
    · exact Or.inr ((hblind hs).mp (h.2 hs))
  · intro h
    refine ⟨fun live hlive hair => ?_, fun hs => (hblind hs).mpr (h.resolve_left hs)⟩
    by_cases hne : live = id
    · subst hne
      rcases h with hs | hb
      · rw [deleteEvent_refused hid.1 (liveEventId_of_onAir hair hs)]
        exact spared_of_deleted (deleted_turn c)
      · by_cases hl : (sm.liveEventId c).1 ≠ "" ∧ (sm.liveEventId c).1 = live
        · rw [deleteEvent_refused hid.1 hl.2]
          exact spared_of_deleted (deleted_turn c)
        · exact (spared_deleteEvent_iff hl).mpr hb
    · exact spared_deleteEvent_of_ne hid hlive hne

/-! ### A cleanup -/

/-- A listing of the events is requests and no more. -/
lemma listEvents_rec {Q : Cloud → Prop} {clock : ℤ} (hturn : ∀ c, Q c → Q c.turn.2) (h : Q c) :
    Q (sm.listEvents clock c).2.2 := by
  have hrefresh : Q (sm.catalog.refresh sm.catalogConfig clock c).2 :=
    EventCatalog.refresh_rec hturn h
  rw [listEvents]
  split
  · exact hrefresh
  · simp only [liveEventId_snd]
    exact hturn _ hrefresh

@[simp] lemma roomId_listEvents (sm : StorageManager) (clock : ℤ) (c : Cloud) :
    (sm.listEvents clock c).2.1.roomId = sm.roomId := by
  rw [listEvents]
  split <;> rfl

/-- Every event listed has an id that is one part of a key. -/
lemma isEventId_of_mem_listEvents {clock : ℤ} {events : List ManagedEvent}
    (h : (sm.listEvents clock c).1 = .ok events) : ∀ e ∈ events, IsEventId e.eventId := by
  rw [listEvents] at h
  split at h
  · simp at h
  · rename_i hok
    intro e he
    rw [← Except.ok.inj h, List.mem_insertionSort] at he
    obtain ⟨s, hs, rfl⟩ := List.mem_map.mp he
    exact EventCatalog.isEventId_of_mem_refresh (by simpa using hok) s hs

/-- The deletions the loop over the targets comes to, each with its progress function and the
store as it finds it. -/
def deletionsFrom (sm : StorageManager) (progress : DeleteProgressFn) (count : ℕ) :
    List ManagedEvent → ℕ → Cloud → List (String × DeleteProgressFn × Cloud)
  | [], _, _ => []
  | t :: ts, i, c =>
      let d := sm.deleteEvent t.eventId (perEvent progress i count t.name) c
      (t.eventId, perEvent progress i count t.name, c) ::
        if d.1.ok = false then [] else deletionsFrom sm progress count ts (i + 1) d.2

/-- The deletions a cleanup comes to. -/
def deletions (sm : StorageManager) (olderThanDays now clock : ℤ) (progress : DeleteProgressFn)
    (c : Cloud) : List (String × DeleteProgressFn × Cloud) :=
  match (sm.listEvents clock c).1 with
  | .error _ => []
  | .ok events =>
      let goFor := targets clock (now - olderThanDays * 24 * 60 * 60 * 1000) events
      sm.deletionsFrom progress goFor.length goFor 0 (sm.listEvents clock c).2.2

/-- **What is asked of a cleanup**: nothing goes of an event that is on air throughout, and
nothing of an event where it cannot be established whether it is. -/
def OlderSpares (sm : StorageManager) (olderThanDays now clock : ℤ) (progress : DeleteProgressFn)
    (c : Cloud) : Prop :=
  (∀ live, IsEventId live → c.Throughout (Bucket.OnAir sm.roomId live) →
    Spared (eventPrefixFor live) c (sm.deleteOlderThan olderThanDays now clock progress c).2.2) ∧
  ∀ x ∈ sm.deletions olderThanDays now clock progress c, ¬ x.2.2.Established sm.roomId →
    Spared (eventPrefixFor x.1) x.2.2 (sm.deleteEvent x.1 x.2.1 x.2.2).2

/-- The deletions are of the targets. -/
lemma mem_deletionsFrom {count : ℕ} {ts : List ManagedEvent} {i : ℕ}
    {x : String × DeleteProgressFn × Cloud}
    (h : x ∈ sm.deletionsFrom progress count ts i c) : ∃ t ∈ ts, t.eventId = x.1 := by
  induction ts generalizing i c with
  | nil => simp [deletionsFrom] at h
  | cons t ts ih =>
      rw [deletionsFrom] at h
      rcases List.mem_cons.mp h with rfl | h
      · exact ⟨t, List.mem_cons_self, rfl⟩
      · split at h
        · simp at h
        · obtain ⟨t', ht', hid⟩ := ih h
          exact ⟨t', List.mem_cons_of_mem _ ht', hid⟩

/-- Of the manager a deletion reads the room. -/
lemma deleteTargets_congr {sm' : StorageManager} (h : sm'.roomId = sm.roomId) {count : ℕ}
    {ts : List ManagedEvent} {i : ℕ} {rep : DeleteReport} :
    sm'.deleteTargets progress count ts i rep c = sm.deleteTargets progress count ts i rep c := by
  have hone : ∀ id p c, sm'.deleteEvent id p c = sm.deleteEvent id p c := by
    intro id p c
    rw [deleteEvent, deleteEvent, liveEventId, liveEventId, h]
  induction ts generalizing i rep c with
  | nil => rfl
  | cons t ts ih =>
      rw [deleteTargets, deleteTargets]
      simp only [hone, ih]

/-- **The loop spares the event on air** when each of its deletions meets the condition: the
deletion spares it, and leaves the pointer for the next. -/
lemma spared_deleteTargets {count : ℕ} {ts : List ManagedEvent} {i : ℕ} {rep : DeleteReport}
    {live : String} (hids : ∀ t ∈ ts, IsEventId t.eventId) (hlive : IsEventId live)
    (hair : c.Throughout (Bucket.OnAir sm.roomId live))
    (h : ∀ x ∈ sm.deletionsFrom progress count ts i c, sm.Guarded x.1 x.2.1 x.2.2) :
    Spared (eventPrefixFor live) c (sm.deleteTargets progress count ts i rep c).2 := by
  induction ts generalizing i c rep with
  | nil => rfl
  | cons t ts ih =>
      simp only [deletionsFrom, List.forall_mem_cons] at h
      obtain ⟨hguarded, hrest⟩ := h
      have hone := ((spares_iff (hids t List.mem_cons_self)).mpr hguarded).1 live hlive hair
      rw [deleteTargets]
      simp only
      split
      · split
        · exact hone
        · exact hone
      · rename_i hok
        rw [if_neg hok] at hrest
        exact hone.trans (ih (fun t' ht' => hids t' (List.mem_cons_of_mem _ ht'))
          (throughout_deleteEvent hair) hrest)

/-- **A cleanup spares what it has to exactly when each of its deletions meets the
condition.** -/
lemma olderSpares_iff {olderThanDays now clock : ℤ} :
    sm.OlderSpares olderThanDays now clock progress c ↔
      ∀ x ∈ sm.deletions olderThanDays now clock progress c, sm.Guarded x.1 x.2.1 x.2.2 := by
  have hmem : ∀ x ∈ sm.deletions olderThanDays now clock progress c, IsEventId x.1 := by
    intro x hx
    rw [deletions] at hx
    split at hx
    · simp at hx
    · rename_i events hev
      obtain ⟨t, ht, hid⟩ := mem_deletionsFrom hx
      exact hid ▸ isEventId_of_mem_listEvents hev t (List.mem_of_mem_filter ht)
  constructor
  · intro h x hx
    by_cases hs : x.2.2.Established sm.roomId
    · exact Or.inl hs
    · refine (spares_iff (hmem x hx)).mp ⟨fun live hlive hair => ?_, fun _ => h.2 x hx hs⟩
      by_cases hne : live = x.1
      · exact hne ▸ h.2 x hx hs
      · exact spared_deleteEvent_of_ne (hmem x hx) hlive hne
  · intro h
    refine ⟨fun live hlive hair => ?_, fun x hx => ((spares_iff (hmem x hx)).mpr (h x hx)).2⟩
    have hlisted : Spared (eventPrefixFor live) c (sm.listEvents clock c).2.2 :=
      listEvents_rec (Q := Spared (eventPrefixFor live) c)
        (fun c' h => h.trans (spared_of_deleted (deleted_turn c'))) rfl
    have hthroughout : (sm.listEvents clock c).2.2.Throughout (Bucket.OnAir sm.roomId live) :=
      listEvents_rec (fun _ => Throughout.turn) hair
    rw [deletions] at h
    rw [deleteOlderThan]
    simp only
    split
    · exact hlisted
    · rename_i events hev
      rw [hev] at h
      refine hlisted.trans ?_
      rw [deleteTargets_congr (roomId_listEvents sm clock c)]
      exact spared_deleteTargets (fun t ht => isEventId_of_mem_listEvents hev t
        (List.mem_of_mem_filter ht)) hlive hthroughout h

/-- **When a cleanup spares the event on air**: a deletion keeps off the event that is on air
throughout, and off its own event where that cannot be established, exactly when its read of
the pointer is established or it comes to no DELETE of the event's objects; and a cleanup by
age exactly when that is so of each of its deletions. -/
theorem cleanup_spares (sm : StorageManager) (progress : DeleteProgressFn) (c : Cloud) :
    (∀ id, IsEventId id → (sm.Spares id progress c ↔ sm.Guarded id progress c)) ∧
    ∀ olderThanDays now clock,
      sm.OlderSpares olderThanDays now clock progress c ↔
        ∀ x ∈ sm.deletions olderThanDays now clock progress c, sm.Guarded x.1 x.2.1 x.2.2 :=
  ⟨fun _ hid => spares_iff hid, fun _ _ _ => olderSpares_iff⟩

/-- A room with one event on air and an older one. -/
def sampleBucket : Bucket where
  entries :=
    [{ key := "events/e/init.mp4", size := 3, object := .bytes [1, 2, 3] },
     { key := "events/f/init.mp4", size := 2, object := .bytes [1, 2] },
     { key := "rooms/r/events/e.json", object := .roomEvent { eventId := "e", roomId := "r" } },
     { key := "rooms/r/live.json", object := .live { roomId := "r", eventId := "e" } }]
  sorted := by decide +kernel

/-- The store as the calls below find it, with what their requests meet. -/
def sampleCloud (coming : List Turn) : Cloud := { bucket := sampleBucket, coming }

theorem cleanup_spares_older :
    StorageManager.Spares ⟨"r", {}⟩ "f" (fun _ => true) (sampleCloud []) ∧
      (StorageManager.deleteEvent ⟨"r", {}⟩ "f" (fun _ => true) (sampleCloud [])).2.deleted =
        ["events/f/init.mp4", "rooms/r/events/f.json"] := by
  have hspares := (cleanup_spares ⟨"r", {}⟩ (fun _ => true) (sampleCloud [])).1 "f" (by decide)
  refine ⟨hspares.mpr (Or.inl ⟨rfl, fun o ho => ?_⟩), by decide +kernel⟩
  have hpointer : (sampleCloud []).turn.2.bucket.get (livePointerKey "r") =
      some (.live { roomId := "r", eventId := "e" }) := by
    decide +kernel
  exact ⟨_, Option.some.inj (ho.symm.trans hpointer)⟩

/-- **The event on air is deleted**, with its one object, where the read of the pointer
fails. -/
theorem cleanup_deletes_live :
    (sampleCloud [{ fate := .failed false 503 "" }]).Throughout (Bucket.OnAir "r" "e") ∧
      (sampleCloud []).bucket.Has "events/e/init.mp4" ∧
      (StorageManager.deleteEvent ⟨"r", {}⟩ "e" (fun _ => true)
        (sampleCloud [{ fate := .failed false 503 "" }])).2.deleted =
          ["events/e/init.mp4", "rooms/r/events/e.json"] := by
  refine ⟨⟨⟨{ roomId := "r", eventId := "e" }, by decide +kernel, rfl⟩, fun t ht b hb => ?_⟩,
    by decide, by decide +kernel⟩
  rw [List.mem_singleton.mp ht]
  exact hb

end StorageManager

end Multisite

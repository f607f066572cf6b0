import Multisite.Storage.OnAir
import Multisite.Storage.Newest

/-!
A deletion that stops before its end (`StorageManager::delete_event`), and whether the next
listing (`StorageManager::list_events`) still gives the event.

The keys go in the order of the listing: `event.json` and `manifest.json` before
`segments/`, and the index entry last.  The catalogue lists an event by its entry or its
descriptor, and only with a manifest it can read.

* `deleteEvent_cut`: whatever fails and wherever it is cancelled, a deletion takes a first part
  of the event's keys;
* `lists_iff`: which events a listing gives;
* `unfinished_listed_iff`: an event with objects left is listed exactly when the deletion came
  neither to its manifest nor, without an index entry, to its descriptor;
* `unfinished_unlisted`: a segment is left, and the event is not listed.
-/

namespace Multisite

/-! ### Buckets with keys taken away -/

namespace Bucket

variable {b : Bucket} {room id : String} {gone : List String}

lemma entries_foldl_remove (b : Bucket) (gone : List String) :
    (gone.foldl remove b).entries = b.entries.filter fun e => e.key ∉ gone := by
  induction gone generalizing b with
  | nil => simp
  | cons key gone ih =>
      rw [List.foldl_cons, ih, remove, List.filter_filter]
      refine List.filter_congr fun e _ => ?_
      simp [Bool.and_comm]

lemma has_foldl_remove {key : String} :
    (gone.foldl remove b).Has key ↔ b.Has key ∧ key ∉ gone := by
  rw [Has, Has, entries_foldl_remove]
  constructor
  · rintro ⟨e, he, rfl⟩
    obtain ⟨hin, hno⟩ := List.mem_filter.mp he
    exact ⟨⟨e, hin, rfl⟩, by simpa using hno⟩
  · rintro ⟨⟨e, hin, rfl⟩, hno⟩
    exact ⟨e, List.mem_filter.mpr ⟨hin, by simpa using hno⟩, rfl⟩

lemma get_foldl_remove_of_notMem {key : String} (h : key ∉ gone) :
    (gone.foldl remove b).get key = b.get key := by
  induction gone generalizing b with
  | nil => rfl
  | cons k gone ih =>
      rw [List.mem_cons, not_or] at h
      rw [List.foldl_cons, ih h.2, get_remove_of_ne _ h.1]

lemma get_foldl_remove_of_mem {key : String} (h : key ∈ gone) :
    (gone.foldl remove b).get key = none := by
  rw [← Option.not_isSome_iff_eq_none]
  intro hsome
  obtain ⟨o, ho⟩ := Option.isSome_iff_exists.mp hsome
  exact (has_foldl_remove.mp (get_eq_some ho)).2 h

lemma Laid.foldl_remove (h : b.Laid room) : (gone.foldl remove b).Laid room := by
  intro e he
  rw [entries_foldl_remove] at he
  exact h e (List.mem_of_mem_filter he)

lemma under_foldl_remove_of_apart {pre : String} (h : ∀ key ∈ gone, ¬ Under pre key) :
    (gone.foldl remove b).under pre = b.under pre := by
  rw [under, under, entries_foldl_remove, List.filter_filter]
  refine List.filter_congr fun e _ => ?_
  by_cases hu : Under pre e.key
  · have : e.key ∉ gone := fun hin => h _ hin hu
    simp [hu, this]
  · simp [hu]

/-- While an object of the event is left, a scan gives the same events. -/
lemma items_foldl_remove (h : b.Laid room) (hid : IsEventId id)
    (hgone : ∀ key ∈ gone, Under (eventPrefixFor id) key)
    (hleft : ∃ e ∈ (gone.foldl remove b).entries, Under (eventPrefixFor id) e.key) :
    (gone.foldl remove b).items "events/" = b.items "events/" := by
  refine List.Pairwise.eq_of_mem_iff (sorted_items _ _) (sorted_items _ _) fun p => ?_
  rw [mem_items_iff h.foldl_remove, mem_items_iff h]
  refine exists_congr fun x => and_congr_right fun hx => and_congr_right fun _ => ?_
  rw [entries_foldl_remove] at hleft ⊢
  constructor
  · rintro ⟨e, he, hu⟩
    exact ⟨e, List.mem_of_mem_filter he, hu⟩
  · rintro ⟨e, he, hu⟩
    by_cases hsame : x = id
    · exact hsame ▸ hleft
    · refine ⟨e, List.mem_filter.mpr ⟨he, ?_⟩, hu⟩
      have : e.key ∉ gone := fun hin => hsame (under_eventPrefixFor_inj hx hid hu (hgone _ hin))
      simpa using this

end Bucket

/-! ### Nobody else at work -/

namespace Cloud

variable {c : Cloud}

/-- Nobody else changes the bucket; requests may fail. -/
def Alone (c : Cloud) : Prop := ∀ t ∈ c.coming, t.others = id

lemma Alone.turn (h : c.Alone) : c.turn.2.Alone ∧ c.turn.2.bucket = c.bucket := by
  rw [Cloud.turn]
  split
  · exact ⟨h, rfl⟩
  · rename_i t ts hts
    rw [Alone, hts] at h
    refine ⟨fun t' ht' => h t' (List.mem_cons_of_mem _ ht'), ?_⟩
    show t.others c.bucket = c.bucket
    rw [h t List.mem_cons_self]
    rfl

@[simp] lemma pageSize_turn (c : Cloud) : c.turn.2.pageSize = c.pageSize := by
  rw [Cloud.turn]
  split <;> rfl

/-- A listing that comes to its end gives what there is. -/
lemma Alone.listAll {α : Type} {items : Bucket → List α} {key : α → String} (h : c.Alone)
    (pages : ℕ) (t : Option String) :
    (c.listAll items key pages t).2.Alone ∧
      (c.listAll items key pages t).2.bucket = c.bucket ∧
      ((c.listAll items key pages t).1.2 = .finished →
        Lib.readPages key c.pageSize (items c.bucket) pages t =
          ((c.listAll items key pages t).1.1, true)) := by
  induction pages generalizing c t with
  | zero => exact ⟨h, rfl, by simp [Cloud.listAll]⟩
  | succ pages ih =>
      obtain ⟨halone, hbucket⟩ := h.turn
      rw [Cloud.listAll, listPage]
      cases hturn : c.turn.1 with
      | failed carriedOut s e => exact ⟨halone, hbucket, by simp⟩
      | answered =>
          simp only [hbucket]
          cases htoken : Lib.nextToken key c.pageSize (items c.bucket) t with
          | none =>
              refine ⟨halone, hbucket, fun _ => ?_⟩
              rw [Lib.readPages, htoken]
          | some t' =>
              obtain ⟨halone', hbucket', hread⟩ := ih halone (some t')
              rw [pageSize_turn, hbucket] at hread
              refine ⟨halone', hbucket'.trans hbucket, fun hfin => ?_⟩
              simp only at hfin ⊢
              rw [Lib.readPages, htoken]
              simp only [hread hfin]

/-- A DELETE takes its key, or nothing. -/
lemma Alone.removeKey (h : c.Alone) (key : String) :
    (c.removeKey key).2.Alone ∧
      ∃ gone, (gone = [] ∨ gone = [key]) ∧ ((c.removeKey key).1 = none → gone = [key]) ∧
        (c.removeKey key).2.bucket = gone.foldl Bucket.remove c.bucket ∧
        (c.removeKey key).2.deleted = c.deleted ++ gone := by
  obtain ⟨halone, hbucket⟩ := h.turn
  have hdone : (c.turn.2.delete key).bucket = [key].foldl Bucket.remove c.bucket ∧
      (c.turn.2.delete key).deleted = c.deleted ++ [key] := by
    simp [delete, hbucket]
  cases hturn : c.turn.1 with
  | answered =>
      rw [removeKey_of_answered hturn]
      exact ⟨halone, [key], Or.inr rfl, fun _ => rfl, hdone⟩
  | failed carriedOut s e =>
      obtain ⟨hsome, hsnd⟩ := removeKey_of_failed hturn
      rw [hsnd]
      cases carriedOut with
      | true => exact ⟨halone, [key], Or.inr rfl, fun _ => rfl, hdone⟩
      | false =>
          refine ⟨halone, [], Or.inl rfl, fun hnone => ?_, hbucket, ?_⟩
          · rw [hnone] at hsome
            simp at hsome
          · simp

@[simp] lemma pageSize_removeKey (key : String) (c : Cloud) :
    (c.removeKey key).2.pageSize = c.pageSize := by
  rcases removeKey_snd key c with h | h
  · rw [h, pageSize_turn]
  · rw [h]
    exact pageSize_turn c

end Cloud

namespace StorageManager

open Cloud

variable {sm : StorageManager} {c : Cloud} {progress : DeleteProgressFn} {pr : DeleteProgress}
  {id : String}

/-- The loop takes a first part of its keys. -/
lemma removeKeys_cut (h : c.Alone) (keys : List String) (i : ℕ) :
    (removeKeys progress pr keys i c).2.Alone ∧
      ∃ gone, gone <+: keys ∧
        (removeKeys progress pr keys i c).2.bucket = gone.foldl Bucket.remove c.bucket ∧
        (removeKeys progress pr keys i c).2.deleted = c.deleted ++ gone := by
  induction keys generalizing i c with
  | nil => exact ⟨h, [], List.prefix_refl _, rfl, (List.append_nil _).symm⟩
  | cons key keys ih =>
      rw [removeKeys]
      split
      · exact ⟨h, [], List.nil_prefix, rfl, (List.append_nil _).symm⟩
      · obtain ⟨halone, gone, hgone, hnone, hbucket, hdeleted⟩ := h.removeKey key
        simp only
        split
        · refine ⟨halone, gone, ?_, hbucket, hdeleted⟩
          rcases hgone with rfl | rfl
          · exact List.nil_prefix
          · exact List.prefix_append [key] keys
        · rename_i hok
          obtain rfl := hnone hok
          obtain ⟨halone', rest, hprefix, hbucket', hdeleted'⟩ := ih halone (i + 1)
          refine ⟨halone', key :: rest, (List.prefix_cons_inj key).mpr hprefix, ?_, ?_⟩
          · rw [hbucket', hbucket, List.foldl_cons, List.foldl_cons, List.foldl_nil]
          · rw [hdeleted', hdeleted, List.append_assoc, List.singleton_append]

/-- The keys of the event, in the order a deletion takes them. -/
def eventKeys (b : Bucket) (id : String) : List String :=
  (b.under (eventPrefixFor id)).map (·.key)

/-- **What a deletion takes, wherever it stops**: a first part of the event's keys, with the
index entry after the last. -/
lemma deleteEvent_cut (h : c.Alone) :
    ∃ gone, gone <+: eventKeys c.bucket id ++ [roomEventKey sm.roomId id] ∧
      (sm.deleteEvent id progress c).2.bucket = gone.foldl Bucket.remove c.bucket ∧
      (sm.deleteEvent id progress c).2.deleted = c.deleted ++ gone := by
  obtain ⟨halone, hbucket⟩ := h.turn
  have hnothing : ∀ {c' : Cloud}, c'.bucket = c.bucket → c'.deleted = c.deleted →
      ∃ gone, gone <+: eventKeys c.bucket id ++ [roomEventKey sm.roomId id] ∧
        c'.bucket = gone.foldl Bucket.remove c.bucket ∧ c'.deleted = c.deleted ++ gone :=
    fun hb hd => ⟨[], List.nil_prefix, hb, by rw [hd, List.append_nil]⟩
  by_cases hl : (sm.liveEventId c).1 ≠ "" ∧ (sm.liveEventId c).1 = id
  · rw [deleteEvent_refused (hl.2 ▸ hl.1) hl.2]
    exact hnothing hbucket (deleted_turn c)
  · obtain ⟨halone₁, hbucket₁, hread⟩ := halone.listAll kMaxPages none
    have hlisted : ∀ keys bytes, (listPrefix (eventPrefixFor id) c.turn.2).1 = .ok (keys, bytes) →
        keys = eventKeys c.bucket id := by
      intro keys bytes hok
      rw [listPrefix] at hok
      simp only at hok
      split at hok
      · simp at hok
      · simp at hok
      · rename_i hfin
        have hall := hread hfin
        rw [show kMaxPages = 399 + 1 from rfl, Lib.readPages_eq c.turn.2.pageSize_pos
          (Bucket.sorted_under _ _), Prod.mk.injEq] at hall
        obtain ⟨hkeys, -⟩ : _ ∧ _ := by simpa using hok
        rw [← hkeys, eventKeys, ← hbucket, ← List.take_of_length_le (of_decide_eq_true hall.2)]
        exact congrArg (List.map fun e => e.key) hall.1.symm
    rw [deleteEvent_eq hl]
    have hsnd := listPrefix_snd (eventPrefixFor id) c.turn.2
    split
    · rw [hsnd]
      exact hnothing (hbucket₁.trans hbucket) (by simp)
    · rename_i keys bytes hok
      obtain rfl := hlisted keys bytes hok
      rw [← hsnd] at halone₁ hbucket₁
      obtain ⟨halone₂, gone, hprefix, hb, hd⟩ := removeKeys_cut halone₁
        (eventKeys c.bucket id ++ [roomEventKey sm.roomId id]) 0
      rw [hbucket₁, hbucket] at hb
      rw [deleted_listPrefix, deleted_turn] at hd
      refine ⟨gone, hprefix, ?_, ?_⟩
      · simp only
        split
        · exact hb
        · rw [listPrefix_snd]
          exact (halone₂.listAll kMaxPages none).2.1.trans hb
      · simp only
        split
        · exact hd
        · rw [deleted_listPrefix]
          exact hd

lemma pageSize_deleteEvent : (sm.deleteEvent id progress c).2.pageSize = c.pageSize :=
  deleteEvent_rec (Q := fun c' => c'.pageSize = c.pageSize)
    (fun c' h => (pageSize_turn c').trans h) (fun key _ c' h => (pageSize_removeKey key c').trans h)
    rfl

end StorageManager

/-! ### What a listing gives -/

namespace CatalogConfig

variable {cfg : CatalogConfig} {c : Cloud} {id : String}

/-- The event can be found: by its index entry, or by its descriptor on a page of the scan. -/
def Found (cfg : CatalogConfig) (c : Cloud) (id : String) : Prop :=
  c.bucket.Has (roomEventKey cfg.roomId id) ∨
    Scanned c id ∧ c.bucket.describes cfg.roomId id = true

/-- The event has a manifest that can be read and shows something recorded. -/
def Readable (b : Bucket) (id : String) : Prop :=
  ∃ m, b.get (eventPrefixFor id ++ "manifest.json") = some (.manifest m) ∧ ¬ m.NeverRecorded

lemma isSome_classify_iff (h : c.coming = []) {live : LivePointer} {now : ℤ} :
    (cfg.classify id live now c).1.isSome ↔ Readable c.bucket id := by
  rw [classify, Cloud.get_quiet h, Readable]
  simp only
  split
  · rename_i m hm
    rw [hm, summary]
    split
    · rename_i hnever
      simp [hnever]
    · rename_i hsome
      simp [hsome]
  · rename_i hother
    simp only [Option.isSome_none, Bool.false_eq_true, false_iff, not_exists, not_and]
    exact fun m hm => absurd hm (hother m)

/-- What is classified of the ids is what each of them gives. -/
lemma mem_classifyAll_iff (h : c.coming = []) {live : LivePointer} {now : ℤ} (ids : List String)
    (out : List EventSummary × ℕ) {e : EventSummary} :
    e ∈ (cfg.classifyAll live now ids out c).1.1 ↔
      e ∈ out.1 ∨ ∃ id ∈ ids, (cfg.classify id live now c).1 = some e := by
  induction ids generalizing out with
  | nil => simp [classifyAll]
  | cons id ids ih =>
      have hsnd : (cfg.classify id live now c).2 = c := by
        rw [classify_snd, Cloud.turn_quiet h]
      rw [classifyAll, List.exists_mem_cons_iff]
      simp only [hsnd]
      split
      · rename_i s hs
        rw [ih, List.mem_append, List.mem_singleton, hs, Option.some.injEq, or_assoc,
          eq_comm (a := e)]
      · rename_i hs
        rw [ih, hs]
        simp

/-- The ids of a refresh without a cap. -/
lemma mem_refreshIds_iff (h : c.coming = []) (hcap : ¬ 0 < cfg.maxEvents)
    (hlaid : c.bucket.Laid cfg.roomId) (hid : IsEventId id) {ids : List String}
    (hids : cfg.refreshIds c = .ok ids) (hfits : cfg.IndexFits c) :
    id ∈ ids ↔ cfg.Found c id := by
  have hcollected := collectEventIds_quiet h hfits
  rw [refreshIds, Cloud.get_quiet h] at hids
  simp only at hids
  cases hc : (cfg.collectEventIds c).1 with
  | error e =>
      rw [hc] at hids
      simp [Except.map] at hids
  | ok r =>
      rw [hc] at hids hcollected
      simp only [Except.map, Except.ok.injEq] at hids hcollected
      have hcut : ¬ (0 < cfg.maxEvents ∧
          cfg.maxEvents < ((r.1.insertionSort (· ≥ ·)).length : ℤ)) := fun hlt => hcap hlt.1
      rw [← hids, considered, if_neg hcut, List.mem_insertionSort, hcollected,
        mem_scanCandidates_iff h hcap, Bucket.mem_indexed_iff hlaid,
        Bucket.mem_candidates_iff hlaid, Bucket.mem_indexed_iff hlaid, Found, Scanned]
      constructor
      · rintro (⟨-, hhas⟩ | ⟨⟨-, -, hscan⟩, hd⟩)
        · exact Or.inl hhas
        · exact Or.inr ⟨hscan, hd⟩
      · rintro (hhas | ⟨hscan, hd⟩)
        · exact Or.inl ⟨hid, hhas⟩
        · by_cases hhas : c.bucket.Has (roomEventKey cfg.roomId id)
          · exact Or.inl ⟨hid, hhas⟩
          · exact Or.inr ⟨⟨hid, fun hin => hhas hin.2, hscan⟩, hd⟩

end CatalogConfig

namespace EventCatalog

open CatalogConfig

variable {cat : EventCatalog} {cfg : CatalogConfig} {c : Cloud} {now : ℤ}

/-- A refresh that could collect the ids lists what their manifests give. -/
lemma refresh_quiet (h : c.coming = []) {ids : List String} (hids : cfg.refreshIds c = .ok ids) :
    (cat.refresh cfg now c).1.1 = true ∧ ∀ e, e ∈ (cat.refresh cfg now c).1.2.events ↔
      ∃ id ∈ ids, (cfg.classify id (pointerOf (c.bucket.get (livePointerKey cfg.roomId))) now c).1 =
        some e := by
  rw [refreshIds, Cloud.get_quiet h] at hids
  rw [refresh, Cloud.get_quiet h]
  have hsnd : (cfg.collectEventIds c).2 = c :=
    collectEventIds_rec (Q := fun c' => c' = c)
      (fun c' hc' => by rw [hc', Cloud.turn_quiet h]) rfl
  cases hc : (cfg.collectEventIds c).1 with
  | error e =>
      rw [hc] at hids
      simp [Except.map] at hids
  | ok r =>
      rw [hc] at hids
      simp only [Except.map, Except.ok.injEq] at hids
      refine ⟨rfl, fun e => ?_⟩
      simp only [hsnd, List.mem_append, List.mem_filter, List.mem_insertionSort, ← and_or_left]
      rw [mem_classifyAll_iff h, hids]
      simp [em]

lemma refresh_quiet_error (h : c.coming = []) {e : String} (he : cfg.refreshIds c = .error e) :
    (cat.refresh cfg now c).1.1 = false := by
  rw [refreshIds, Cloud.get_quiet h] at he
  rw [refresh, Cloud.get_quiet h]
  cases hc : (cfg.collectEventIds c).1 with
  | error e => rfl
  | ok r =>
      rw [hc] at he
      simp [Except.map] at he

end EventCatalog

namespace StorageManager

open CatalogConfig

variable {sm : StorageManager} {c : Cloud} {id : String}

/-- The listing gives the event. -/
def Lists (sm : StorageManager) (clock : ℤ) (c : Cloud) (id : String) : Prop :=
  ∃ events, (sm.listEvents clock c).1 = .ok events ∧ ∃ e ∈ events, e.eventId = id

/-- **Which events a listing gives**, with every request answered: those it can find, with a
manifest it can read. -/
lemma lists_iff (h : c.coming = []) (hlaid : c.bucket.Laid sm.roomId) (hid : IsEventId id)
    (clock : ℤ) :
    sm.Lists clock c id ↔
      sm.catalogConfig.IndexFits c ∧ sm.catalogConfig.Found c id ∧ CatalogConfig.Readable c.bucket id := by
  have hids : sm.catalogConfig.IndexFits c ↔ ∃ ids, sm.catalogConfig.refreshIds c = .ok ids := by
    rw [refreshIds, Cloud.get_quiet h]
    constructor
    · intro hfits
      have hcollected := collectEventIds_quiet h hfits
      cases hc : (sm.catalogConfig.collectEventIds c).1 with
      | error e => simp [hc, Except.map] at hcollected
      | ok r => exact ⟨_, rfl⟩
    · rintro ⟨ids, hok⟩
      by_contra hfits
      obtain ⟨e, he⟩ := collectEventIds_of_not_fits h hfits
      simp [he, Except.map] at hok
  cases hr : sm.catalogConfig.refreshIds c with
  | error e =>
      have hfits : ¬ sm.catalogConfig.IndexFits c := by
        simp [hids, hr]
      have hfalse := @EventCatalog.refresh_quiet_error sm.catalog _ c clock h e hr
      rw [Lists, listEvents, if_pos hfalse]
      simp [hfits]
  | ok ids =>
      have hfits : sm.catalogConfig.IndexFits c := hids.mpr ⟨ids, hr⟩
      obtain ⟨htrue, hevents⟩ := @EventCatalog.refresh_quiet sm.catalog _ c clock h ids hr
      have hcap : ¬ 0 < sm.catalogConfig.maxEvents := lt_irrefl _
      have hmem := @mem_refreshIds_iff sm.catalogConfig c id h hcap hlaid hid ids hr hfits
      rw [Lists, listEvents, if_neg (by simp [htrue]), ← hmem]
      simp only [hfits, true_and]
      constructor
      · rintro ⟨events, hok, e, he, rfl⟩
        rw [← Except.ok.inj hok, List.mem_insertionSort] at he
        obtain ⟨s, hs, rfl⟩ := List.mem_map.mp he
        obtain ⟨x, hx, hclassify⟩ := (hevents s).mp hs
        obtain rfl : s.eventId = x := eventId_classify hclassify
        exact ⟨hx, (isSome_classify_iff h).mp (Option.isSome_iff_exists.mpr ⟨s, hclassify⟩)⟩
      · rintro ⟨hin, hreadable⟩
        obtain ⟨s, hs⟩ := Option.isSome_iff_exists.mp ((isSome_classify_iff h).mpr hreadable)
        have hlisted := (hevents s).mpr ⟨id, hin, hs⟩
        exact ⟨_, rfl, _, (List.mem_insertionSort _).mpr (List.mem_map_of_mem hlisted),
          eventId_classify hs⟩

/-- So many of the event's objects come before the name in a listing. -/
def before (b : Bucket) (id name : String) : ℕ :=
  ((eventKeys b id).filter (· < eventPrefixFor id ++ name)).length

/-- The condition, for a deletion that took `n` keys: nothing of the event is left; or the index
can be read to its end, the manifest is there to read and was not come to, and the event has an
index entry or a descriptor, on a page of the scan, that was not come to either. -/
def Resumable (sm : StorageManager) (c : Cloud) (id : String) (n : ℕ) : Prop :=
  (eventKeys c.bucket id).length ≤ n ∨
    sm.catalogConfig.IndexFits c ∧
      (CatalogConfig.Readable c.bucket id ∧ n ≤ before c.bucket id "manifest.json") ∧
      (c.bucket.Has (roomEventKey sm.roomId id) ∨
        Scanned c id ∧ c.bucket.describes sm.roomId id = true ∧ n ≤ before c.bucket id "event.json")

lemma sorted_eventKeys (b : Bucket) (id : String) : (eventKeys b id).Pairwise (· < ·) :=
  List.pairwise_map.mpr (b.sorted_under _)

lemma mem_eventKeys {b : Bucket} {key : String} :
    key ∈ eventKeys b id ↔ b.Has key ∧ Under (eventPrefixFor id) key := by
  rw [eventKeys, List.mem_map, Bucket.Has]
  constructor
  · rintro ⟨e, he, rfl⟩
    obtain ⟨hin, hu⟩ := List.mem_filter.mp he
    exact ⟨⟨e, hin, rfl⟩, by simpa using hu⟩
  · rintro ⟨⟨e, hin, rfl⟩, hu⟩
    exact ⟨e, List.mem_filter.mpr ⟨hin, by simpa using hu⟩, rfl⟩

/-- An object of the event is left by a first part of its keys exactly when that part is no
longer than what comes before it. -/
lemma notMem_take_eventKeys {b : Bucket} {name : String} (h : b.Has (eventPrefixFor id ++ name))
    (n : ℕ) :
    eventPrefixFor id ++ name ∉ (eventKeys b id).take n ↔ n ≤ before b id name :=
  Lib.notMem_take_iff (sorted_eventKeys b id) (mem_eventKeys.mpr ⟨h, Under.append _ _⟩) n

/-- The first `n` keys of the event, taken from the bucket. -/
def cut (b : Bucket) (id : String) (n : ℕ) : Bucket :=
  ((eventKeys b id).take n).foldl Bucket.remove b

section
variable {b : Bucket} {n : ℕ}

lemma under_of_mem_take {key : String} (h : key ∈ (eventKeys b id).take n) :
    Under (eventPrefixFor id) key := (mem_eventKeys.mp (List.mem_of_mem_take h)).2

lemma get_cut {name : String} (hname : b.Has (eventPrefixFor id ++ name)) :
    (cut b id n).get (eventPrefixFor id ++ name) =
      if n ≤ before b id name then b.get (eventPrefixFor id ++ name) else none := by
  by_cases hin : eventPrefixFor id ++ name ∈ (eventKeys b id).take n
  · have hlate : ¬ n ≤ before b id name := fun h => (notMem_take_eventKeys hname n).mpr h hin
    rw [cut, Bucket.get_foldl_remove_of_mem hin, if_neg hlate]
  · rw [cut, Bucket.get_foldl_remove_of_notMem hin, if_pos ((notMem_take_eventKeys hname n).mp hin)]

/-- What is left of a document of the event. -/
lemma get_cut_eq_some_iff {name : String} {o : Object} :
    (cut b id n).get (eventPrefixFor id ++ name) = some o ↔
      b.get (eventPrefixFor id ++ name) = some o ∧ n ≤ before b id name := by
  constructor
  · intro h
    have hname := (Bucket.has_foldl_remove.mp (Bucket.get_eq_some h)).1
    rw [get_cut hname] at h
    split at h
    · rename_i hn
      exact ⟨h, hn⟩
    · simp at h
  · rintro ⟨h, hn⟩
    rw [get_cut (Bucket.get_eq_some h), if_pos hn, h]

lemma describes_iff {room : String} :
    b.describes room id = true ↔
      ∃ ev, b.get (eventPrefixFor id ++ "event.json") = some (.event ev) ∧ ev.roomId = room := by
  rw [Bucket.describes]
  split
  · rename_i ev hev
    simp [hev]
  · rename_i hother
    simp only [Bool.false_eq_true, false_iff, not_exists, not_and]
    exact fun ev hev => absurd hev (hother ev)

lemma describes_cut_iff {room : String} :
    (cut b id n).describes room id = true ↔
      b.describes room id = true ∧ n ≤ before b id "event.json" := by
  rw [describes_iff, describes_iff, exists_and_right.symm]
  refine exists_congr fun ev => ?_
  rw [get_cut_eq_some_iff]
  tauto

lemma readable_cut_iff :
    CatalogConfig.Readable (cut b id n) id ↔ CatalogConfig.Readable b id ∧ n ≤ before b id "manifest.json" := by
  rw [CatalogConfig.Readable, CatalogConfig.Readable, exists_and_right.symm]
  refine exists_congr fun m => ?_
  rw [get_cut_eq_some_iff]
  tauto

/-- Keys are left while not all are taken. -/
lemma exists_left (hn : n < (eventKeys b id).length) :
    ∃ e ∈ (cut b id n).entries, Under (eventPrefixFor id) e.key := by
  have hlate : (eventKeys b id)[n] ∉ (eventKeys b id).take n := by
    intro hin
    obtain ⟨i, hi, heq⟩ := List.mem_take_iff_getElem.mp hin
    have hlt := List.pairwise_iff_getElem.mp (sorted_eventKeys b id) i n (by omega) hn (by omega)
    exact hlt.ne heq
  obtain ⟨hhas, hu⟩ := mem_eventKeys.mp (List.getElem_mem hn)
  obtain ⟨e, he, hkey⟩ := Bucket.has_foldl_remove.mpr ⟨hhas, hlate⟩
  exact ⟨e, he, hkey ▸ hu⟩

end

@[simp] lemma roomId_catalogConfig (sm : StorageManager) : sm.catalogConfig.roomId = sm.roomId := rfl

/-- **What a listing still finds** of an event with some of its keys gone and some left. -/
lemma lists_cut_iff (hlaid : c.bucket.Laid sm.roomId) (hid : IsEventId id) (clock : ℤ) {n : ℕ}
    (hn : n < (eventKeys c.bucket id).length) {c' : Cloud} (hquiet : c'.coming = [])
    (hpage : c'.pageSize = c.pageSize) (hbucket : c'.bucket = cut c.bucket id n) :
    sm.Lists clock c' id ↔
      sm.catalogConfig.IndexFits c ∧
        (CatalogConfig.Readable c.bucket id ∧ n ≤ before c.bucket id "manifest.json") ∧
        (c.bucket.Has (roomEventKey sm.roomId id) ∨ Scanned c id ∧
          c.bucket.describes sm.roomId id = true ∧ n ≤ before c.bucket id "event.json") := by
  have hunder : ∀ key ∈ (eventKeys c.bucket id).take n, Under (eventPrefixFor id) key :=
    fun key => under_of_mem_take
  have hlaid' : c'.bucket.Laid sm.roomId := by
    rw [hbucket]
    exact hlaid.foldl_remove
  have hindex : sm.catalogConfig.IndexFits c' ↔ sm.catalogConfig.IndexFits c := by
    rw [IndexFits, IndexFits, hpage, hbucket, cut, Bucket.under_foldl_remove_of_apart]
    exact fun key hkey => not_under_roomEventsPrefix (hunder key hkey) _
  have hhas : c'.bucket.Has (roomEventKey sm.roomId id) ↔
      c.bucket.Has (roomEventKey sm.roomId id) := by
    rw [hbucket, cut, Bucket.has_foldl_remove]
    exact and_iff_left fun hin => not_under_rooms (hunder _ hin) _ (roomEventKey_eq _ _)
  have hscan : Scanned c' id ↔ Scanned c id := by
    rw [Scanned, Scanned, hpage, hbucket, cut,
      Bucket.items_foldl_remove hlaid hid hunder (exists_left hn)]
  rw [lists_iff hquiet hlaid' hid, hindex, Found, roomId_catalogConfig, hhas, hscan, hbucket,
    describes_cut_iff, readable_cut_iff, and_comm (a := _ ∨ _)]

/-- **When an interrupted deletion can be finished from the list**: whatever fails and wherever
it is cancelled, as long as an object of the event is left the next listing gives the event,
exactly under the condition. -/
theorem unfinished_listed_iff (h : c.Alone) (hnew : c.deleted = []) (hlaid : c.bucket.Laid sm.roomId)
    (hid : IsEventId id) (progress : DeleteProgressFn) (clock : ℤ) :
    ((∃ e ∈ (sm.deleteEvent id progress c).2.bucket.entries, Under (eventPrefixFor id) e.key) →
      sm.Lists clock { (sm.deleteEvent id progress c).2 with coming := [] } id) ↔
    sm.Resumable c id (sm.deleteEvent id progress c).2.deleted.length := by
  obtain ⟨gone, hprefix, hbucket, hdeleted⟩ := deleteEvent_cut h
  rw [hnew, List.nil_append] at hdeleted
  rw [hdeleted, Resumable]
  by_cases hlen : (eventKeys c.bucket id).length ≤ gone.length
  · have hall : eventKeys c.bucket id <+: gone :=
      List.prefix_of_prefix_length_le (List.prefix_append _ _) hprefix hlen
    simp only [hlen, true_or, iff_true]
    rintro ⟨e, he, hu⟩
    rw [hbucket, Bucket.entries_foldl_remove, List.mem_filter] at he
    have hin : e.key ∈ eventKeys c.bucket id := mem_eventKeys.mpr ⟨⟨e, he.1, rfl⟩, hu⟩
    simp [hall.subset hin] at he
  · have hcut : gone = (eventKeys c.bucket id).take gone.length :=
      List.prefix_iff_eq_take.mp (List.prefix_of_prefix_length_le hprefix (List.prefix_append _ _)
        (by omega))
    have hlen' : gone.length < (eventKeys c.bucket id).length := by omega
    have hbucket' : (sm.deleteEvent id progress c).2.bucket = cut c.bucket id gone.length := by
      rw [hbucket, cut, ← hcut]
    have hlists := @lists_cut_iff sm c id hlaid hid clock _ hlen'
      { (sm.deleteEvent id progress c).2 with coming := [] } rfl pageSize_deleteEvent hbucket'
    rw [or_iff_right hlen, ← hlists, hbucket']
    exact ⟨fun hl => hl (exists_left hlen'), fun hl _ => hl⟩

/-- One event, with a descriptor, a manifest, a segment and an index entry. -/
def endedBucket : Bucket where
  entries :=
    [{ key := "events/e/event.json", object := .event { eventId := "e", roomId := "r" } },
     { key := "events/e/manifest.json"
       object := .manifest { eventId := "e", status := .ended, startedAtMs := 5, latestSeq := 1 } },
     { key := "events/e/segments/00000001.m4s", object := .bytes [1] },
     { key := "rooms/r/events/e.json", object := .roomEvent { eventId := "e", roomId := "r" } }]
  sorted := by decide +kernel

lemma laid_endedBucket : endedBucket.Laid "r" := by
  intro e he
  fin_cases he
  · exact ⟨fun h => absurd h (by decide), fun _ => ⟨"e", by decide, by decide⟩⟩
  · exact ⟨fun h => absurd h (by decide), fun _ => ⟨"e", by decide, by decide⟩⟩
  · exact ⟨fun h => absurd h (by decide), fun _ => ⟨"e", by decide, by decide⟩⟩
  · exact ⟨fun _ => ⟨"e", by decide, by decide⟩, fun h => absurd h (by decide)⟩

/-- A cancel after one object. -/
def cancelSecond : DeleteProgressFn := fun p => p.objectsDone = 0

theorem unfinished_listed_cancelled :
    StorageManager.Lists ⟨"r", {}⟩ 0
      { (deleteEvent ⟨"r", {}⟩ "e" cancelSecond { bucket := endedBucket }).2 with coming := [] } "e" ∧
      (deleteEvent ⟨"r", {}⟩ "e" cancelSecond { bucket := endedBucket }).2.deleted =
        ["events/e/event.json"] := by
  have hdeleted : (deleteEvent ⟨"r", {}⟩ "e" cancelSecond { bucket := endedBucket }).2.deleted =
      ["events/e/event.json"] := by
    decide +kernel
  have hlisted := @unfinished_listed_iff ⟨"r", {}⟩ { bucket := endedBucket } "e" (by simp [Cloud.Alone]) rfl
    laid_endedBucket (by decide) cancelSecond 0
  refine ⟨hlisted.mpr (Or.inr ⟨by decide +kernel, ⟨⟨_, rfl, by decide⟩, ?_⟩, Or.inl (by decide)⟩) ?_,
    hdeleted⟩
  · rw [hdeleted]
    decide +kernel
  · decide +kernel

/-- **A segment is left and the event is not listed**: the third DELETE fails, after the manifest
has gone. -/
theorem unfinished_unlisted :
    let c := (deleteEvent ⟨"r", {}⟩ "e" (fun _ => true)
      { bucket := endedBucket, coming := [{}, {}, {}, {}, { fate := .failed false 503 "" }] }).2
    c.bucket.Has "events/e/segments/00000001.m4s" ∧
      (StorageManager.listEvents ⟨"r", {}⟩ 0 { c with coming := [] }).1 = .ok [] := by
  decide +kernel

end StorageManager

end Multisite

import Multisite.Storage.Catalog
import Multisite.Lib.Greatest

/-!
Which events a refresh considers (`EventCatalog::collect_event_ids`, `EventCatalog::refresh`),
with every request answered and nobody else at work.

The room index is taken whole; the scan for events without an entry stops as soon as the cap is
reached; and only then is the list cut to the newest.

* `refresh_considers_newest_iff`: these are the newest events of the room exactly when those of
  the newest that have no entry are no more than the cap less the number of entries, and lie
  within the pages read;
* `refresh_crowds_out`: two older entries, and the newest event is not considered.
-/

namespace Multisite

namespace Cloud

variable {c : Cloud}

lemma turn_quiet (h : c.coming = []) : c.turn = (.answered, c) := by
  rw [turn, h]

lemma get_quiet (h : c.coming = []) (key : String) : c.get key = (c.bucket.get key, c) := by
  rw [get, turn_quiet h]

end Cloud

/-! ### Events in the bucket -/

namespace Bucket

variable {b : Bucket} {room : String}

/-- The descriptor of the event names the room. -/
def describes (b : Bucket) (room id : String) : Bool :=
  match b.get (eventPrefixFor id ++ "event.json") with
  | some (.event ev) => ev.roomId = room
  | _ => false

/-- The event is of the room: it has an index entry there, or its descriptor names the room. -/
def OfRoom (b : Bucket) (room id : String) : Prop :=
  b.Has (roomEventKey room id) ∨ b.describes room id = true

/-- The bucket holds the objects of events, and the room's index their entries. -/
def Laid (b : Bucket) (room : String) : Prop :=
  ∀ e ∈ b.entries,
    (Under (roomEventsPrefix room) e.key → ∃ id, IsEventId id ∧ e.key = roomEventKey room id) ∧
    (Under "events/" e.key → ∃ id, IsEventId id ∧ Under (eventPrefixFor id) e.key)

lemma get_eq_some {key : String} {o : Object} (h : b.get key = some o) : b.Has key := by
  rw [get, Option.map_eq_some_iff] at h
  obtain ⟨e, he, -⟩ := h
  exact ⟨e, List.mem_of_find?_eq_some he, by simpa using List.find?_some he⟩

lemma sorted_under (b : Bucket) (pre : String) :
    (b.under pre).Pairwise fun x y => x.key < y.key := b.sorted.filter _

lemma sorted_items (b : Bucket) (pre : String) :
    (b.items pre).Pairwise fun x y => id x < id y := by
  have hle : (b.items pre).Pairwise (· ≤ ·) := List.pairwise_insertionSort (· ≤ ·) _
  have hnodup : (b.items pre).Nodup :=
    (List.perm_insertionSort _ _).nodup_iff.mpr (List.nodup_dedup _)
  exact (hle.and hnodup).imp fun hab => lt_of_le_of_ne hab.1 hab.2

/-! ### The index -/

/-- The ids of a room's index are those of the events with an entry. -/
lemma mem_indexed_iff (h : b.Laid room) {id : String} :
    id ∈ CatalogConfig.indexed (b.under (roomEventsPrefix room)) ↔
      IsEventId id ∧ b.Has (roomEventKey room id) := by
  constructor
  · intro hmem
    refine ⟨CatalogConfig.isEventId_of_mem_indexed hmem, ?_⟩
    rw [CatalogConfig.indexed, List.mem_insertionSort, List.mem_dedup, List.mem_filter] at hmem
    obtain ⟨e, he, rfl⟩ := List.mem_map.mp hmem.1
    obtain ⟨hin, hunder⟩ := List.mem_filter.mp he
    obtain ⟨x, hx, hkey⟩ := (h e hin).1 (by simpa using hunder)
    rw [hkey, eventIdFromIndexKey_roomEventKey hx]
    exact ⟨e, hin, hkey⟩
  · rintro ⟨hid, e, hin, hkey⟩
    rw [CatalogConfig.indexed, List.mem_insertionSort, List.mem_dedup, List.mem_filter]
    refine ⟨List.mem_map.mpr ⟨e, List.mem_filter.mpr ⟨hin, ?_⟩, ?_⟩, by simpa using hid.1⟩
    · rw [hkey, roomEventKey, String.append_assoc]
      simpa using Under.append _ _
    · rw [hkey, eventIdFromIndexKey_roomEventKey hid]

/-- Each entry is of an event of its own. -/
lemma length_indexed (h : b.Laid room) :
    (CatalogConfig.indexed (b.under (roomEventsPrefix room))).length =
      (b.under (roomEventsPrefix room)).length := by
  have hkeys : ∀ e ∈ b.under (roomEventsPrefix room),
      ∃ id, IsEventId id ∧ e.key = roomEventKey room id := by
    intro e he
    obtain ⟨hin, hunder⟩ := List.mem_filter.mp he
    exact (h e hin).1 (by simpa using hunder)
  have hids : ((b.under (roomEventsPrefix room)).map fun e => eventIdFromIndexKey e.key).Nodup := by
    refine List.pairwise_map.mpr ((b.sorted_under _).imp_of_mem fun {x y} hx hy hxy heq => ?_)
    obtain ⟨i, hi, hix⟩ := hkeys x hx
    obtain ⟨j, hj, hjy⟩ := hkeys y hy
    rw [hix, hjy, eventIdFromIndexKey_roomEventKey hi, eventIdFromIndexKey_roomEventKey hj] at heq
    rw [hix, hjy, heq] at hxy
    exact lt_irrefl _ hxy
  have hall : ∀ x ∈ (b.under (roomEventsPrefix room)).map fun e => eventIdFromIndexKey e.key,
      decide (x ≠ "") = true := by
    intro x hx
    obtain ⟨e, he, rfl⟩ := List.mem_map.mp hx
    obtain ⟨i, hi, hix⟩ := hkeys e he
    rw [hix, eventIdFromIndexKey_roomEventKey hi]
    simpa using hi.1
  rw [CatalogConfig.indexed, List.length_insertionSort, List.filter_eq_self.mpr hall, hids.dedup,
    List.length_map]

/-! ### The scan -/

/-- What a listing by `/` makes of an object of the event. -/
lemma collapse_of_under {id key : String} (hid : IsEventId id) (h : Under (eventPrefixFor id) key) :
    collapse "events/" key = eventPrefixFor id := by
  have hrest : rest "events/" key = id.toList ++ '/' :: rest (eventPrefixFor id) key := by
    have hkey := h.toList_eq
    rw [toList_eventPrefixFor] at hkey
    rw [rest, hkey, List.append_assoc, List.drop_left, List.append_assoc]
    rfl
  have hname : (rest "events/" key).takeWhile (· ≠ '/') = id.toList := by
    rw [hrest, takeWhile_name hid.2]
  rw [collapse, if_pos (by rw [hrest]; simp), hname, String.ofList_toList, eventPrefixFor]

/-- A scan gives the prefixes of the events there are. -/
lemma mem_items_iff (h : b.Laid room) {p : String} :
    p ∈ b.items "events/" ↔
      ∃ id, IsEventId id ∧ p = eventPrefixFor id ∧ ∃ e ∈ b.entries, Under (eventPrefixFor id) e.key := by
  rw [items, List.mem_insertionSort, List.mem_dedup, List.mem_map]
  constructor
  · rintro ⟨e, he, rfl⟩
    obtain ⟨hin, hunder⟩ := List.mem_filter.mp he
    obtain ⟨id, hid, hu⟩ := (h e hin).2 (by simpa using hunder)
    exact ⟨id, hid, collapse_of_under hid hu, e, hin, hu⟩
  · rintro ⟨id, hid, rfl, e, hin, hu⟩
    refine ⟨e, List.mem_filter.mpr ⟨hin, ?_⟩, collapse_of_under hid hu⟩
    have hevents : Under "events/" (eventPrefixFor id) := by
      rw [eventPrefixFor, String.append_assoc]
      exact Under.append _ _
    simpa using hevents.trans hu

/-- The candidates of a scan, cut or not: the events on its pages that have no entry. -/
lemma mem_candidates_iff (h : b.Laid room) {known : List String} (n : ℕ) {id : String} :
    id ∈ CatalogConfig.candidates known ((b.items "events/").take n) ↔
      IsEventId id ∧ id ∉ known ∧ eventPrefixFor id ∈ (b.items "events/").take n := by
  rw [CatalogConfig.candidates, List.mem_insertionSort, List.mem_filter, List.mem_map]
  constructor
  · rintro ⟨⟨p, hp, rfl⟩, hknown⟩
    have hpage := List.mem_of_mem_filter hp
    obtain ⟨x, hx, rfl, -⟩ := (mem_items_iff h).mp (List.mem_of_mem_take hpage)
    rw [eventIdFromIndexKey_eventPrefixFor hx] at hknown ⊢
    exact ⟨hx, (of_decide_eq_true hknown).2, hpage⟩
  · rintro ⟨hid, hknown, hpage⟩
    refine ⟨⟨eventPrefixFor id, List.mem_filter.mpr ⟨hpage, ?_⟩,
      eventIdFromIndexKey_eventPrefixFor hid⟩, by simpa using ⟨hid.1, hknown⟩⟩
    rw [eventPrefixFor, String.append_assoc, rest_append, String.toList_append]
    simp

lemma pairwise_candidates (h : b.Laid room) (known : List String) (n : ℕ) :
    (CatalogConfig.candidates known ((b.items "events/").take n)).Pairwise (· > ·) := by
  refine Lib.pairwise_gt_insertionSort (List.Nodup.filter _ ?_)
  have hprefixes : (commonPrefixes "events/" ((b.items "events/").take n)).Pairwise (· ≠ ·) :=
    (((b.sorted_items "events/").imp fun h => h.ne).sublist (List.take_sublist _ _)).filter _
  refine List.pairwise_map.mpr (hprefixes.imp_of_mem fun {p q} hp hq hpq heq => hpq ?_)
  obtain ⟨x, hx, rfl, -⟩ := (mem_items_iff h).mp (List.mem_of_mem_take (List.mem_of_mem_filter hp))
  obtain ⟨y, hy, rfl, -⟩ := (mem_items_iff h).mp (List.mem_of_mem_take (List.mem_of_mem_filter hq))
  rw [eventIdFromIndexKey_eventPrefixFor hx, eventIdFromIndexKey_eventPrefixFor hy] at heq
  rw [heq]

/-- The events of the room. -/
def roomEvents (b : Bucket) (room : String) : List String :=
  let known := CatalogConfig.indexed (b.under (roomEventsPrefix room))
  known ++ (CatalogConfig.candidates known (b.items "events/")).filter (b.describes room)

lemma mem_roomEvents (h : b.Laid room) {id : String} :
    id ∈ b.roomEvents room ↔ IsEventId id ∧ b.OfRoom room id := by
  have hall : (b.items "events/").take (b.items "events/").length = b.items "events/" :=
    List.take_length
  rw [roomEvents, List.mem_append, List.mem_filter, ← hall, mem_candidates_iff h, mem_indexed_iff h,
    OfRoom, hall]
  constructor
  · rintro (⟨hid, hhas⟩ | ⟨⟨hid, -, -⟩, hd⟩)
    · exact ⟨hid, Or.inl hhas⟩
    · exact ⟨hid, Or.inr hd⟩
  · rintro ⟨hid, hof⟩
    by_cases hhas : b.Has (roomEventKey room id)
    · exact Or.inl ⟨hid, hhas⟩
    · have hd := hof.resolve_left hhas
      refine Or.inr ⟨⟨hid, fun hin => hhas hin.2, (mem_items_iff h).mpr ⟨id, hid, rfl, ?_⟩⟩, hd⟩
      rw [describes] at hd
      split at hd
      · rename_i ev hev
        obtain ⟨e, hin, hkey⟩ := get_eq_some hev
        exact ⟨e, hin, hkey ▸ Under.append _ _⟩
      · simp at hd

/-- There are always the newest events of a room. -/
lemma greatest_roomEvents (h : b.Laid room) (n : ℕ) :
    Lib.Greatest n (fun id => IsEventId id ∧ b.OfRoom room id)
      (((b.roomEvents room).insertionSort (· ≥ ·)).take n) := by
  have hnodup : (b.roomEvents room).Nodup := by
    have hall : (b.items "events/").take (b.items "events/").length = b.items "events/" :=
      List.take_length
    refine List.nodup_append.mpr ⟨?_, ?_, ?_⟩
    · rw [CatalogConfig.indexed]
      exact (List.perm_insertionSort _ _).nodup_iff.mpr (List.nodup_dedup _)
    · rw [← hall]
      exact (pairwise_candidates h _ _).nodup.filter _
    · intro x hx y hy hxy
      rw [← hall] at hy
      exact ((mem_candidates_iff h _).mp (List.mem_of_mem_filter hy)).2.1 (hxy ▸ hx)
  have hcut := Lib.greatest_take_insertionSort hnodup n
  exact ⟨hcut.sorted, fun x hx => (mem_roomEvents h).mp (hcut.mem x hx), hcut.length_le,
    fun x hx hnot => hcut.top x ((mem_roomEvents h).mpr hx) hnot⟩

end Bucket

/-! ### A refresh with every request answered -/

namespace Cloud

variable {c : Cloud}

lemma listUnder_quiet (h : c.coming = []) (pre : String) :
    c.listAll (fun b => b.under pre) (fun e => e.key) kMaxPages none =
      (((c.bucket.under pre).take (kMaxPages * c.pageSize),
        if (c.bucket.under pre).length ≤ kMaxPages * c.pageSize then .finished else .tooMany), c) :=
  listAll_quiet h (c.bucket.sorted_under pre) 399

lemma listItems_quiet (h : c.coming = []) (pre : String) :
    c.listAll (fun b => b.items pre) id kMaxPages none =
      (((c.bucket.items pre).take (kMaxPages * c.pageSize),
        if (c.bucket.items pre).length ≤ kMaxPages * c.pageSize then .finished else .tooMany), c) :=
  listAll_quiet h (c.bucket.sorted_items pre) 399

end Cloud

namespace CatalogConfig

variable {cfg : CatalogConfig} {c : Cloud}

/-- A candidate is taken where its descriptor names the room. -/
lemma scanCandidates_cons (h : c.coming = []) (id : String) (ids : List String)
    (out : List String × Bool) :
    cfg.scanCandidates (id :: ids) out c =
      if cfg.full out.1.length then (out, c)
      else cfg.scanCandidates ids
        (if c.bucket.describes cfg.roomId id then (out.1 ++ [id], true) else out) c := by
  rw [scanCandidates, Cloud.get_quiet h, Bucket.describes]
  by_cases hfull : cfg.full out.1.length
  · rw [if_pos hfull, if_pos hfull]
  rw [if_neg hfull, if_neg hfull]
  dsimp only
  cases c.bucket.get (eventPrefixFor id ++ "event.json") with
  | none => rfl
  | some o =>
      cases o with
      | event ev =>
          simp only [decide_eq_true_eq]
          split
          · rfl
          · rfl
      | _ => rfl

/-- The scan takes the candidates of the room, in their order and up to the cap. -/
lemma scanCandidates_quiet (h : c.coming = []) (hcap : 0 < cfg.maxEvents) (ids : List String)
    (out : List String × Bool) :
    (cfg.scanCandidates ids out c).1.1 = out.1 ++
      (ids.filter (c.bucket.describes cfg.roomId)).take (cfg.maxEvents.toNat - out.1.length) := by
  induction ids generalizing out with
  | nil => simp [scanCandidates]
  | cons id ids ih =>
      rw [scanCandidates_cons h]
      by_cases hfull : cfg.full out.1.length = true
      · have hroom : cfg.maxEvents.toNat - out.1.length = 0 := by
          have := (of_decide_eq_true hfull).2
          omega
        rw [if_pos hfull, hroom, List.take_zero, List.append_nil]
      · have hroom : cfg.maxEvents.toNat - out.1.length =
            cfg.maxEvents.toNat - (out.1.length + 1) + 1 := by
          have : ¬ (0 < cfg.maxEvents ∧ cfg.maxEvents ≤ out.1.length) := by
            simpa [full] using hfull
          omega
        rw [if_neg hfull]
        by_cases hd : c.bucket.describes cfg.roomId id = true
        · rw [if_pos hd, ih, List.filter_cons_of_pos hd, hroom, List.take_succ_cons,
            List.append_assoc, List.length_append]
          rfl
        · rw [if_neg hd, ih, List.filter_cons_of_neg hd]

/-- Without a cap it takes them all. -/
lemma mem_scanCandidates_iff (h : c.coming = []) (hcap : ¬ 0 < cfg.maxEvents) (ids : List String)
    (out : List String × Bool) {id : String} :
    id ∈ (cfg.scanCandidates ids out c).1.1 ↔
      id ∈ out.1 ∨ id ∈ ids ∧ c.bucket.describes cfg.roomId id = true := by
  induction ids generalizing out with
  | nil => simp [scanCandidates]
  | cons x ids ih =>
      have hfull : ¬ cfg.full out.1.length = true := by
        simp [full, hcap]
      rw [scanCandidates_cons h, if_neg hfull, ih, List.mem_cons]
      by_cases hd : c.bucket.describes cfg.roomId x = true
      · rw [if_pos hd, List.mem_append, List.mem_singleton]
        constructor
        · rintro ((hout | rfl) | ⟨hid, hdid⟩)
          · exact Or.inl hout
          · exact Or.inr ⟨Or.inl rfl, hd⟩
          · exact Or.inr ⟨Or.inr hid, hdid⟩
        · rintro (hout | ⟨rfl | hid, hdid⟩)
          · exact Or.inl (Or.inl hout)
          · exact Or.inl (Or.inr rfl)
          · exact Or.inr ⟨hid, hdid⟩
      · rw [if_neg hd]
        refine or_congr_right ⟨fun hid => ⟨Or.inr hid.1, hid.2⟩, fun hid => ⟨?_, hid.2⟩⟩
        refine hid.1.resolve_left ?_
        rintro rfl
        exact hd hid.2

/-- The pages of the index suffice. -/
def IndexFits (cfg : CatalogConfig) (c : Cloud) : Prop :=
  (c.bucket.under (roomEventsPrefix cfg.roomId)).length ≤ kMaxPages * c.pageSize

instance : Decidable (cfg.IndexFits c) := inferInstanceAs (Decidable (_ ≤ _))

/-- The pages of the scan come to the event. -/
def Scanned (c : Cloud) (id : String) : Prop :=
  eventPrefixFor id ∈ (c.bucket.items "events/").take (kMaxPages * c.pageSize)

/-- The ids collected, where the index can be read to its end. -/
lemma collectEventIds_quiet (h : c.coming = []) (hfits : cfg.IndexFits c) :
    (cfg.collectEventIds c).1.map Prod.fst = .ok (cfg.scanCandidates
      (candidates (indexed (c.bucket.under (roomEventsPrefix cfg.roomId)))
        ((c.bucket.items "events/").take (kMaxPages * c.pageSize)))
      (indexed (c.bucket.under (roomEventsPrefix cfg.roomId)), false) c).1.1 := by
  rw [collectEventIds]
  simp only [Cloud.listUnder_quiet h, Cloud.listItems_quiet h]
  rw [IndexFits] at hfits
  rw [if_pos hfits, List.take_of_length_le hfits]
  by_cases hscan : (c.bucket.items "events/").length ≤ kMaxPages * c.pageSize
  · rw [if_pos hscan]
    rfl
  · rw [if_neg hscan]
    rfl

lemma collectEventIds_of_not_fits (h : c.coming = []) (hfits : ¬ cfg.IndexFits c) :
    ∃ e, (cfg.collectEventIds c).1 = .error e := by
  rw [collectEventIds]
  simp only [Cloud.listUnder_quiet h]
  rw [IndexFits] at hfits
  rw [if_neg hfits]
  exact ⟨_, rfl⟩

/-- The ids a refresh classifies, read once it has asked for the pointer. -/
def refreshIds (cfg : CatalogConfig) (c : Cloud) : Except String (List String) :=
  (cfg.collectEventIds (c.get (livePointerKey cfg.roomId)).2).1.map fun r => cfg.considered r.1

lemma considered_eq (hcap : 0 < cfg.maxEvents) (ids : List String) :
    cfg.considered ids = (ids.insertionSort (· ≥ ·)).take cfg.maxEvents.toNat := by
  rw [considered]
  split
  · rfl
  · rename_i hlen
    exact (List.take_of_length_le (by omega)).symm

/-- **When a refresh considers the newest events of the room**: exactly when the index can be
read to its end, those of the newest that have no entry are no more than the cap less the
number of entries, and the pages of the scan come to each of them. -/
theorem refresh_considers_newest_iff (hcap : 0 < cfg.maxEvents) (h : c.coming = [])
    (hlaid : c.bucket.Laid cfg.roomId) {newest : List String}
    (hnewest : Lib.Greatest cfg.maxEvents.toNat
      (fun id => IsEventId id ∧ c.bucket.OfRoom cfg.roomId id) newest) :
    cfg.refreshIds c = .ok newest ↔
      cfg.IndexFits c ∧
      (newest.filter fun id => ¬ c.bucket.Has (roomEventKey cfg.roomId id)).length ≤
        cfg.maxEvents.toNat - (c.bucket.under (roomEventsPrefix cfg.roomId)).length ∧
      ∀ id ∈ newest, ¬ c.bucket.Has (roomEventKey cfg.roomId id) → Scanned c id := by
  rw [refreshIds, Cloud.get_quiet h]
  simp only
  by_cases hfits : cfg.IndexFits c
  · set known := indexed (c.bucket.under (roomEventsPrefix cfg.roomId)) with hknown
    set found := (candidates known ((c.bucket.items "events/").take
      (kMaxPages * c.pageSize))).filter (c.bucket.describes cfg.roomId) with hfound
    have hids := collectEventIds_quiet h hfits
    rw [scanCandidates_quiet h hcap, ← hknown, ← hfound] at hids
    have hmap : (cfg.collectEventIds c).1.map (fun r => cfg.considered r.1) =
        ((cfg.collectEventIds c).1.map Prod.fst).map cfg.considered := by
      cases (cfg.collectEventIds c).1 <;> rfl
    have hentry : ∀ {id}, id ∈ known ↔ IsEventId id ∧ c.bucket.Has (roomEventKey cfg.roomId id) :=
      Bucket.mem_indexed_iff hlaid
    have hother : ∀ {id}, id ∈ found ↔
        (IsEventId id ∧ id ∉ known ∧ Scanned c id) ∧ c.bucket.describes cfg.roomId id = true := by
      intro id
      rw [hfound, List.mem_filter, Bucket.mem_candidates_iff hlaid, Scanned]
    have hcut := @Lib.take_insertionSort_append_eq_iff _ _ _ _ newest known found ?_ ?_ ?_ ?_
      hnewest
    · rw [hmap, hids]
      simp only [Except.map, considered_eq hcap, Except.ok.injEq]
      rw [hcut, Bucket.length_indexed hlaid]
      have hfilter : (newest.filter fun id => id ∉ known) =
          newest.filter fun id => ¬ c.bucket.Has (roomEventKey cfg.roomId id) := by
        refine List.filter_congr fun id hid => ?_
        rw [decide_eq_decide, hentry, and_iff_right (hnewest.mem id hid).1]
      rw [hfilter]
      simp only [hfits, true_and]
      refine and_congr_right fun _ => forall₂_congr fun id hid => ?_
      rw [hentry, and_iff_right (hnewest.mem id hid).1, hother]
      refine imp_congr_right fun hno => ?_
      have hdescribed := ((hnewest.mem id hid).2).resolve_left hno
      have hnot : id ∉ known := fun hk => hno (hentry.mp hk).2
      simp [hdescribed, hnot, (hnewest.mem id hid).1]
    · rw [hknown, indexed]
      exact (List.perm_insertionSort _ _).nodup_iff.mpr (List.nodup_dedup _)
    · exact (Bucket.pairwise_candidates hlaid _ _).filter _
    · exact fun id hid => (hother.mp hid).1.2.1
    · rintro id (hid | hid)
      · exact ⟨(hentry.mp hid).1, Or.inl (hentry.mp hid).2⟩
      · exact ⟨(hother.mp hid).1.1, Or.inr (hother.mp hid).2⟩
  · obtain ⟨e, he⟩ := collectEventIds_of_not_fits h hfits
    simp [he, hfits, Except.map]

/-- A cap of one. -/
def sampleConfig : CatalogConfig := { roomId := "r", maxEvents := 1 }

/-- A room with an entry for each of two events, and a newer event without one. -/
def crowdedBucket : Bucket where
  entries :=
    [{ key := "events/c/event.json", object := .event { eventId := "c", roomId := "r" } },
     { key := "rooms/r/events/a.json", object := .roomEvent { eventId := "a", roomId := "r" } },
     { key := "rooms/r/events/b.json", object := .roomEvent { eventId := "b", roomId := "r" } }]
  sorted := by decide +kernel

/-- The same room with the newest event's entry written too. -/
def indexedBucket : Bucket where
  entries :=
    [{ key := "events/c/event.json", object := .event { eventId := "c", roomId := "r" } },
     { key := "rooms/r/events/a.json", object := .roomEvent { eventId := "a", roomId := "r" } },
     { key := "rooms/r/events/b.json", object := .roomEvent { eventId := "b", roomId := "r" } },
     { key := "rooms/r/events/c.json", object := .roomEvent { eventId := "c", roomId := "r" } }]
  sorted := by decide +kernel

lemma laid_indexedBucket : indexedBucket.Laid "r" := by
  intro e he
  fin_cases he
  · exact ⟨fun h => absurd h (by decide), fun _ => ⟨"c", by decide, by decide⟩⟩
  · exact ⟨fun _ => ⟨"a", by decide, by decide⟩, fun h => absurd h (by decide)⟩
  · exact ⟨fun _ => ⟨"b", by decide, by decide⟩, fun h => absurd h (by decide)⟩
  · exact ⟨fun _ => ⟨"c", by decide, by decide⟩, fun h => absurd h (by decide)⟩

lemma laid_crowdedBucket : crowdedBucket.Laid "r" := by
  intro e he
  fin_cases he
  · exact ⟨fun h => absurd h (by decide), fun _ => ⟨"c", by decide, by decide⟩⟩
  · exact ⟨fun _ => ⟨"a", by decide, by decide⟩, fun h => absurd h (by decide)⟩
  · exact ⟨fun _ => ⟨"b", by decide, by decide⟩, fun h => absurd h (by decide)⟩

theorem refresh_considers_indexed :
    sampleConfig.refreshIds { bucket := indexedBucket } = .ok ["c"] := by
  have hnewest : ((indexedBucket.roomEvents "r").insertionSort (· ≥ ·)).take 1 = ["c"] := by
    decide +kernel
  refine (refresh_considers_newest_iff (by decide) rfl laid_indexedBucket
    (hnewest ▸ Bucket.greatest_roomEvents laid_indexedBucket 1)).mpr ?_
  exact ⟨by decide +kernel, by decide +kernel, fun id hid hno => absurd hno (by
    rw [List.mem_singleton.mp hid]
    decide +kernel)⟩

/-- **The newest event is crowded out**: two older ones with entries fill the cap before it
is looked at. -/
theorem refresh_crowds_out :
    Lib.Greatest 1 (fun id => IsEventId id ∧ crowdedBucket.OfRoom "r" id) ["c"] ∧
      sampleConfig.refreshIds { bucket := crowdedBucket } = .ok ["b"] := by
  have hnewest : ((crowdedBucket.roomEvents "r").insertionSort (· ≥ ·)).take 1 = ["c"] := by
    decide +kernel
  exact ⟨hnewest ▸ Bucket.greatest_roomEvents laid_crowdedBucket 1, by decide +kernel⟩

end CatalogConfig

end Multisite

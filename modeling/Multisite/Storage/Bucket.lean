import Multisite.Core.Store
import Multisite.Lib.Paging
import Mathlib.Data.String.Basic
import Mathlib.Data.List.DropRight

/-!
The bucket as the catalogue and the storage manager see it through `Transport`: objects under
their keys, listed in the order of the keys and page by page, and the requests, each of which
may fail.

A key is the string it is, since a listing goes by prefix, by `/` and by lexicographic order.
Between two requests others may change the bucket.

* `eventIdFromIndexKey_roomEventKey`, `eventIdFromIndexKey_eventPrefixFor`: the id is read back
  from both kinds of key;
* `under_eventPrefixFor_inj`: no object is of two events;
* `listAll_quiet`: what a listing comes to when every request is answered.
-/

namespace Multisite

/-! ### Object keys -/

/-- The key begins with the prefix. -/
def Under (pre key : String) : Prop := pre.toList <+: key.toList

instance (pre key : String) : Decidable (Under pre key) :=
  inferInstanceAs (Decidable (pre.toList <+: key.toList))

/-- What follows the prefix. -/
def rest (pre key : String) : List Char := key.toList.drop pre.toList.length

/-- `live_pointer_key`. -/
def livePointerKey (roomId : String) : String := "rooms/" ++ roomId ++ "/live.json"

/-- `room_events_prefix`. -/
def roomEventsPrefix (roomId : String) : String := "rooms/" ++ roomId ++ "/events/"

/-- `room_event_key`. -/
def roomEventKey (roomId eventId : String) : String := roomEventsPrefix roomId ++ eventId ++ ".json"

/-- `event_prefix_for`. -/
def eventPrefixFor (eventId : String) : String := "events/" ++ eventId ++ "/"

/-- `event_id_from_index_key`. -/
def eventIdFromIndexKey (key : String) : String :=
  let upTo := key.toList.rdropWhile (· = '/')
  let tail := upTo.rtakeWhile (· ≠ '/')
  if upTo.length < key.toList.length then String.ofList tail
  -- an index key ends in `.json`; a prefix does not
  else if ".json".toList.length < tail.length ∧ ".json".toList <:+ tail then
    String.ofList (tail.take (tail.length - ".json".toList.length))
  else ""

/-- A name that is one part of a key, as `make_event_id` makes them. -/
def IsEventId (id : String) : Prop := id ≠ "" ∧ '/' ∉ id.toList

instance (id : String) : Decidable (IsEventId id) := inferInstanceAs (Decidable (_ ∧ _))

lemma IsEventId.toList_ne_nil {id : String} (h : IsEventId id) : id.toList ≠ [] :=
  mt String.toList_eq_nil_iff.mp h.1

lemma Under.append (pre x : String) : Under pre (pre ++ x) := by
  rw [Under, String.toList_append]
  exact List.prefix_append _ _

/-- A key under the prefix is the prefix and what follows it. -/
lemma Under.toList_eq {pre key : String} (h : Under pre key) :
    key.toList = pre.toList ++ rest pre key := (List.prefix_iff_eq_append.mp h).symm

@[simp] lemma rest_append (pre x : String) : rest pre (pre ++ x) = x.toList := by
  simp [rest, String.toList_append]

lemma Under.trans {a b key : String} (hab : Under a b) (hb : Under b key) : Under a key :=
  List.IsPrefix.trans hab hb

lemma toList_eventPrefixFor (id : String) :
    (eventPrefixFor id).toList = "events/".toList ++ (id.toList ++ ['/']) := by
  simp [eventPrefixFor, String.toList_append]

/-- What stands before the first `/`. -/
lemma takeWhile_name {a : List Char} (ha : '/' ∉ a) (w : List Char) :
    (a ++ '/' :: w).takeWhile (· ≠ '/') = a := by
  have hpos : ∀ x ∈ a, decide (x ≠ '/') = true := by
    intro x hx
    exact decide_eq_true fun heq => ha (heq ▸ hx)
  rw [List.takeWhile_append_of_pos hpos]
  simp

/-- **No object is of two events.** -/
lemma under_eventPrefixFor_inj {x y key : String} (hx : IsEventId x) (hy : IsEventId y)
    (hkx : Under (eventPrefixFor x) key) (hky : Under (eventPrefixFor y) key) : x = y := by
  have h := hkx.toList_eq.symm.trans hky.toList_eq
  rw [toList_eventPrefixFor, toList_eventPrefixFor] at h
  simp only [List.append_assoc, List.append_cancel_left_eq] at h
  have hcut := congrArg (List.takeWhile (· ≠ '/')) h
  simp only [List.cons_append, List.nil_append] at hcut
  rw [takeWhile_name hx.2, takeWhile_name hy.2] at hcut
  exact String.toList_inj.mp hcut

/-- The two halves of the key space. -/
lemma not_under_rooms {x : String} {key : String} (h : Under (eventPrefixFor x) key) (y : String) :
    key ≠ "rooms/" ++ y := by
  rintro rfl
  have := h.toList_eq
  rw [toList_eventPrefixFor] at this
  simp [String.toList_append] at this

lemma not_under_roomEventsPrefix {x key : String} (h : Under (eventPrefixFor x) key)
    (room : String) : ¬ Under (roomEventsPrefix room) key := by
  intro hu
  have := h.toList_eq.symm.trans hu.toList_eq
  rw [toList_eventPrefixFor] at this
  simp [roomEventsPrefix, String.toList_append] at this

lemma livePointerKey_eq (room : String) : livePointerKey room = "rooms/" ++ (room ++ "/live.json") := by
  rw [livePointerKey, String.append_assoc]

lemma roomEventKey_eq (room id : String) :
    roomEventKey room id = "rooms/" ++ (room ++ "/events/" ++ (id ++ ".json")) := by
  simp [roomEventKey, roomEventsPrefix, String.append_assoc]

/-- The pointer is no index entry. -/
lemma livePointerKey_ne_roomEventKey (room id : String) :
    livePointerKey room ≠ roomEventKey room id := by
  intro h
  have := congrArg String.toList h
  simp [livePointerKey, roomEventKey, roomEventsPrefix, String.toList_append] at this

/-! ### Ids read back from keys -/

/-- What stands after the last `/`. -/
private lemma rtakeWhile_name {a : List Char} (ha : '/' ∉ a) (l : List Char) :
    (l ++ '/' :: a).rtakeWhile (· ≠ '/') = a := by
  have hr : ∀ c ∈ a.reverse, decide (c ≠ '/') = true := by
    intro c hc
    exact decide_eq_true fun h => ha (h ▸ List.mem_reverse.mp hc)
  rw [List.rtakeWhile, List.reverse_append, List.reverse_cons, List.append_assoc,
    List.takeWhile_append_of_pos hr]
  simp

/-- The id of an index entry. -/
theorem eventIdFromIndexKey_roomEventKey {id : String} (h : IsEventId id) (room : String) :
    eventIdFromIndexKey (roomEventKey room id) = id := by
  have hkey : (roomEventKey room id).toList =
      ("rooms/".toList ++ room.toList ++ "/events".toList) ++ '/' :: (id.toList ++ ".json".toList) := by
    simp [roomEventKey, roomEventsPrefix, String.toList_append]
  have hname : '/' ∉ id.toList ++ ".json".toList := by
    simpa using h.2
  have hdrop : (roomEventKey room id).toList.rdropWhile (· = '/') = (roomEventKey room id).toList := by
    rw [List.rdropWhile_eq_self_iff]
    intro hne
    simp [hkey]
  have hpos : 0 < id.toList.length := List.length_pos_iff.mpr h.toList_ne_nil
  rw [eventIdFromIndexKey]
  simp only [hdrop, lt_irrefl, ↓reduceIte]
  rw [hkey, rtakeWhile_name hname, if_pos ⟨by rw [List.length_append]; omega, List.suffix_append _ _⟩,
    List.length_append, Nat.add_sub_cancel, List.take_left, String.ofList_toList]

/-- The id of a common prefix. -/
theorem eventIdFromIndexKey_eventPrefixFor {id : String} (h : IsEventId id) :
    eventIdFromIndexKey (eventPrefixFor id) = id := by
  have hkey : (eventPrefixFor id).toList = ("events".toList ++ '/' :: id.toList) ++ ['/'] := by
    simp [eventPrefixFor, String.toList_append]
  have hdrop : (eventPrefixFor id).toList.rdropWhile (· = '/') = "events".toList ++ '/' :: id.toList := by
    rw [hkey, List.rdropWhile_concat_pos _ _ _ (by simp), List.rdropWhile_eq_self_iff]
    intro hne
    have hlast : ("events".toList ++ '/' :: id.toList).getLast hne = id.toList.getLast h.toList_ne_nil := by
      rw [List.getLast_append_of_ne_nil _ (by simp), List.getLast_cons h.toList_ne_nil]
    rw [hlast]
    have hne' : id.toList.getLast h.toList_ne_nil ≠ '/' := fun heq =>
      h.2 (heq ▸ List.getLast_mem h.toList_ne_nil)
    simpa using hne'
  rw [eventIdFromIndexKey]
  simp only [hdrop]
  rw [if_pos (by rw [hkey]; simp), rtakeWhile_name h.2, String.ofList_toList]

/-- Whatever key it is read from, an id is one part of a key. -/
theorem isEventId_eventIdFromIndexKey {key : String} (h : eventIdFromIndexKey key ≠ "") :
    IsEventId (eventIdFromIndexKey key) := by
  refine ⟨h, ?_⟩
  have htail : ∀ l : List Char, '/' ∉ l.rtakeWhile (· ≠ '/') := by
    intro l hl
    simpa using List.mem_rtakeWhile_imp hl
  rw [eventIdFromIndexKey]
  split
  · rw [String.toList_ofList]
    exact htail _
  · split
    · rw [String.toList_ofList]
      exact fun hm => htail _ (List.mem_of_mem_take hm)
    · simp

/-! ### The bucket -/

/-- A stored object, and its size as a listing gives it. -/
structure Entry where
  key : String
  size : ℤ := -1
  object : Object
  deriving DecidableEq, Repr

/-- A bucket: its objects, in the order of their keys. -/
structure Bucket where
  entries : List Entry
  sorted : entries.Pairwise fun x y => x.key < y.key

/-- What a listing with the delimiter `/` makes of a key under the prefix: what follows the
first `/` after it is left out. -/
def collapse (pre key : String) : String :=
  if '/' ∈ rest pre key then pre ++ String.ofList ((rest pre key).takeWhile (· ≠ '/')) ++ "/"
  else key

/-- `ListResult::common_prefixes`: the items of a page that a delimiter ended. -/
def commonPrefixes (pre : String) (items : List String) : List String :=
  items.filter fun p => '/' ∈ rest pre p

namespace Bucket

/-- The object under the key. -/
def get (b : Bucket) (key : String) : Option Object :=
  (b.entries.find? fun e => e.key = key).map (·.object)

/-- There is an object under the key. -/
def Has (b : Bucket) (key : String) : Prop := ∃ e ∈ b.entries, e.key = key

instance (b : Bucket) (key : String) : Decidable (b.Has key) :=
  inferInstanceAs (Decidable (∃ e ∈ b.entries, e.key = key))

/-- A DELETE that is carried out. -/
def remove (b : Bucket) (key : String) : Bucket :=
  ⟨b.entries.filter fun e => e.key ≠ key, b.sorted.filter _⟩

/-- The objects a listing by prefix gives. -/
def under (b : Bucket) (pre : String) : List Entry := b.entries.filter fun e => Under pre e.key

/-- The items a listing by prefix gives with the delimiter `/`. -/
def items (b : Bucket) (pre : String) : List String :=
  ((b.under pre).map fun e => collapse pre e.key).dedup.insertionSort (· ≤ ·)

end Bucket

/-! ### Requests -/

/-- What becomes of a request: it is answered, or fails, carried out by the store or not. -/
inductive Fate where
  | answered
  | failed (carriedOut : Bool) (httpStatus : ℤ) (error : String)
  deriving DecidableEq, Repr

/-- How a request is met: what others do to the bucket before it, and what becomes of it. -/
structure Turn where
  others : Bucket → Bucket := id
  fate : Fate := .answered

/-- The store a call talks to: the bucket, how the coming requests are met (once the list is
used up, they are answered and nobody else is at work), and how many items a page holds.
`deleted` is read by no step: the keys whose DELETE the store carried out. -/
structure Cloud where
  bucket : Bucket
  coming : List Turn := []
  pageSize : ℕ := 1000
  pageSize_pos : 0 < pageSize := by decide
  deleted : List String := []

/-- How a listing of several pages stops. -/
inductive Stopped where
  | finished
  | tooMany
  | failed (error : String)
  deriving DecidableEq, Repr

namespace Cloud

/-- The next request is met. -/
def turn (c : Cloud) : Fate × Cloud :=
  match c.coming with
  | [] => (.answered, c)
  | t :: ts => (t.fate, { c with bucket := t.others c.bucket, coming := ts })

/-- `Transport::get`: the body, where the request succeeds. -/
def get (key : String) (c : Cloud) : Option Object × Cloud :=
  match c.turn.1 with
  | .answered => (c.turn.2.bucket.get key, c.turn.2)
  | .failed .. => (none, c.turn.2)

/-- The store carries out a DELETE. -/
def delete (key : String) (c : Cloud) : Cloud :=
  { c with bucket := c.bucket.remove key, deleted := c.deleted ++ [key] }

/-- `StorageManager::remove_key`, over `Transport::remove`: the error, if it failed. -/
def removeKey (key : String) (c : Cloud) : Option String × Cloud :=
  match c.turn.1 with
  | .answered => (none, c.turn.2.delete key)
  | .failed carriedOut status error =>
      (some ("DELETE " ++ key ++ ": " ++ if error = "" then "HTTP " ++ toString status else error),
        if carriedOut then c.turn.2.delete key else c.turn.2)

section
variable {α : Type} (items : Bucket → List α) (key : α → String)

/-- `Transport::list`: a page and the token for the next one. -/
def listPage (t : Option String) (c : Cloud) : Except String (List α × Option String) × Cloud :=
  match c.turn.1 with
  | .answered =>
      (.ok (Lib.page key c.pageSize (items c.turn.2.bucket) t,
        Lib.nextToken key c.pageSize (items c.turn.2.bucket) t), c.turn.2)
  | .failed _ _ error => (.error error, c.turn.2)

/-- The loop over the pages of a listing, with so many of them allowed. -/
def listAll : ℕ → Option String → Cloud → (List α × Stopped) × Cloud
  | 0, _, c => (([], .tooMany), c)
  | pages + 1, t, c =>
      match c.listPage items key t with
      | (.error e, c') => (([], .failed e), c')
      | (.ok (xs, none), c') => ((xs, .finished), c')
      | (.ok (xs, some t'), c') =>
          let r := listAll pages (some t') c'
          ((xs ++ r.1.1, r.1.2), r.2)

end

-- their equations are made here, once, and not by the first lemmas that ask for them
section
attribute [local simp] Cloud.turn Cloud.listPage Cloud.listAll Cloud.get
end

/-! ### What a call sees of the bucket -/

variable {c : Cloud} {P : Bucket → Prop}

/-- The bucket has the property whenever a request of the call is met. -/
def Throughout (P : Bucket → Prop) (c : Cloud) : Prop :=
  P c.bucket ∧ ∀ t ∈ c.coming, ∀ b, P b → P (t.others b)

lemma Throughout.turn (h : c.Throughout P) : c.turn.2.Throughout P := by
  obtain ⟨hnow, hcoming⟩ := h
  rw [Cloud.turn]
  split
  · exact ⟨hnow, hcoming⟩
  · rename_i t ts hts
    rw [hts] at hcoming
    exact ⟨hcoming t List.mem_cons_self _ hnow,
      fun t' ht' => hcoming t' (List.mem_cons_of_mem _ ht')⟩

@[simp] lemma deleted_turn (c : Cloud) : c.turn.2.deleted = c.deleted := by
  rw [turn]
  split <;> rfl

@[simp] lemma get_snd (key : String) (c : Cloud) : (c.get key).2 = c.turn.2 := by
  rw [get]
  split <;> rfl

lemma get_of_answered {key : String} (h : c.turn.1 = .answered) :
    (c.get key).1 = c.turn.2.bucket.get key := by
  rw [get, h]

lemma get_of_failed {key : String} {carriedOut : Bool} {status : ℤ} {e : String}
    (h : c.turn.1 = .failed carriedOut status e) : (c.get key).1 = none := by
  rw [get, h]

lemma removeKey_of_answered {key : String} (h : c.turn.1 = .answered) :
    c.removeKey key = (none, c.turn.2.delete key) := by
  rw [removeKey, h]

/-- A DELETE that fails says so, whether it was carried out or not. -/
lemma removeKey_of_failed {key : String} {carriedOut : Bool} {status : ℤ} {e : String}
    (h : c.turn.1 = .failed carriedOut status e) :
    (c.removeKey key).1.isSome ∧
      (c.removeKey key).2 = if carriedOut then c.turn.2.delete key else c.turn.2 := by
  rw [removeKey, h]
  exact ⟨rfl, rfl⟩

section
variable {α : Type} {items : Bucket → List α} {key : α → String}

@[simp] lemma listPage_snd (t : Option String) (c : Cloud) :
    (c.listPage items key t).2 = c.turn.2 := by
  rw [listPage]
  split <;> rfl

/-- A listing is requests and no more. -/
lemma listAll_rec {Q : Cloud → Prop} (hturn : ∀ c, Q c → Q c.turn.2) (pages : ℕ)
    (t : Option String) (c : Cloud) (h : Q c) : Q (c.listAll items key pages t).2 := by
  induction pages generalizing t c with
  | zero => exact h
  | succ pages ih =>
      rw [listAll]
      split
      all_goals
        rename_i heq
        have hc := congrArg Prod.snd heq
        rw [listPage_snd] at hc
        subst hc
      · exact hturn c h
      · exact hturn c h
      · exact ih _ _ (hturn c h)

lemma Throughout.listAll (h : c.Throughout P) (pages : ℕ) (t : Option String) :
    (c.listAll items key pages t).2.Throughout P :=
  listAll_rec (fun _ => Throughout.turn) pages t c h

@[simp] lemma deleted_listAll (pages : ℕ) (t : Option String) (c : Cloud) :
    (c.listAll items key pages t).2.deleted = c.deleted :=
  listAll_rec (Q := fun c' => c'.deleted = c.deleted) (fun c' h => (deleted_turn c').trans h)
    pages t c rfl

/-- What a listing gives, the bucket held at some time. -/
lemma mem_listAll {R : α → Prop} (hR : ∀ b, ∀ x ∈ items b, R x) (pages : ℕ) (t : Option String)
    (c : Cloud) : ∀ x ∈ (c.listAll items key pages t).1.1, R x := by
  have hpage : ∀ {t : Option String} {c : Cloud} {xs t' c'},
      c.listPage items key t = (.ok (xs, t'), c') → ∀ x ∈ xs, R x := by
    intro t c xs t' c' h x hx
    rw [listPage] at h
    split at h
    · obtain ⟨⟨rfl, -⟩, -⟩ : (_ ∧ _) ∧ _ := by simpa using h
      refine hR c.turn.2.bucket x ?_
      have hafter := List.mem_of_mem_take hx
      cases t with
      | none => exact hafter
      | some t => exact List.mem_of_mem_filter hafter
    · simp at h
  induction pages generalizing t c with
  | zero => simp [listAll]
  | succ pages ih =>
      rw [listAll]
      split
      · simp
      · rename_i heq
        exact hpage heq
      · rename_i heq
        intro x hx
        rcases List.mem_append.mp hx with hx | hx
        · exact hpage heq x hx
        · exact ih _ _ x hx

/-- **A listing with nobody else at work and every request answered**: what the pages allowed
hold of the items there are. -/
theorem listAll_quiet (h : c.coming = []) (hsorted : (items c.bucket).Pairwise fun x y => key x < key y)
    (pages : ℕ) :
    c.listAll items key (pages + 1) none =
      (((items c.bucket).take ((pages + 1) * c.pageSize),
        if (items c.bucket).length ≤ (pages + 1) * c.pageSize then .finished else .tooMany), c) := by
  have hturn : c.turn = (.answered, c) := by
    rw [turn, h]
  have hread : ∀ pages t, c.listAll items key pages t =
      (((Lib.readPages key c.pageSize (items c.bucket) pages t).1,
        if (Lib.readPages key c.pageSize (items c.bucket) pages t).2 then .finished
        else .tooMany), c) := by
    intro pages
    induction pages with
    | zero => intro t; rfl
    | succ pages ih =>
        intro t
        rw [listAll, listPage, hturn, Lib.readPages]
        simp only
        cases Lib.nextToken key c.pageSize (items c.bucket) t with
        | none => rfl
        | some t' =>
            simp only [ih]
  rw [hread, Lib.readPages_eq c.pageSize_pos hsorted]
  simp

end

end Cloud

/-! ### What is removed -/

namespace Bucket

lemma get_remove_of_ne (b : Bucket) {key key' : String} (h : key' ≠ key) :
    (b.remove key).get key' = b.get key' := by
  rw [get, get, remove, List.find?_filter]
  congr 2
  funext e
  by_cases he : e.key = key'
  · simp [he, h]
  · simp [he]

end Bucket

end Multisite

import Multisite.Core.Model

/-!
The object store as the program sees it through `Transport`: object keys
(`model.cpp`, "Object-key layout", and `Session::segment_key`) and the objects
stored under them.

A key is kept by its parts; two keys are the same string exactly when they have
the same parts, event and room names holding no `/`.  A JSON document is kept as
the value it was written from, so reading one back is looking it up: what
`from_json` refuses is an object of another kind.
-/

namespace Multisite

/-- The objects of one room and event. -/
inductive Key where
  /-- `rooms/{room}/live.json` (`live_pointer_key`). -/
  | live (room : String)
  /-- `rooms/{room}/events/{id}.json` (`room_event_key`). -/
  | roomEvent (room id : String)
  /-- `events/{id}/event.json`. -/
  | event (id : String)
  /-- `events/{id}/init.mp4`. -/
  | init (id : String)
  /-- `events/{id}/segments/{seq}.m4s` (`Session::segment_key`). -/
  | segment (id : String) (seq : ℕ)
  /-- `events/{id}/manifest.json`. -/
  | manifest (id : String)
  /-- `events/{id}/markers.json`. -/
  | markers (id : String)
  deriving DecidableEq, Repr

/-- What is stored under a key: media bytes, or a document by its value. -/
inductive Object where
  | bytes (b : Bytes)
  | live (l : LivePointer)
  | roomEvent (e : RoomEventEntry)
  | event (e : EventInfo)
  | manifest (m : Manifest)
  /-- A `MarkerList`. -/
  | markers (l : List Marker)
  deriving DecidableEq, Repr

/-- A bucket: the object stored under each key, if any. -/
def Store := Key → Option Object

namespace Store

/-- The empty bucket. -/
def empty : Store := fun _ => none

/-- A PUT the store acknowledged. -/
def put (st : Store) (k : Key) (o : Object) : Store := fun k' => if k' = k then some o else st k'

@[simp] lemma put_self (st : Store) (k : Key) (o : Object) : st.put k o k = some o := if_pos rfl

lemma put_of_ne (st : Store) {k k' : Key} (o : Object) (h : k' ≠ k) : st.put k o k' = st k' :=
  if_neg h

/-- `Manifest::from_json` of what is stored under the key. -/
def manifest (st : Store) (id : String) : Option Manifest :=
  match st (.manifest id) with
  | some (.manifest m) => some m
  | _ => none

/-- `EventInfo::from_json` of what is stored under the key. -/
def event (st : Store) (id : String) : Option EventInfo :=
  match st (.event id) with
  | some (.event e) => some e
  | _ => none

/-- `LivePointer::from_json` of what is stored under the key. -/
def live (st : Store) (room : String) : Option LivePointer :=
  match st (.live room) with
  | some (.live l) => some l
  | _ => none

/-- `MarkerList::from_json` of what is stored under the key: the cues, none when
there is no such object. -/
def markers (st : Store) (id : String) : List Marker :=
  match st (.markers id) with
  | some (.markers l) => l
  | _ => []

/-- The bytes of a stored segment. -/
def segment (st : Store) (id : String) (seq : ℕ) : Option Bytes :=
  match st (.segment id seq) with
  | some (.bytes b) => some b
  | _ => none

/-! ### Reading after a PUT -/

@[simp] lemma segment_put_segment (st : Store) (id : String) (s : ℕ) (b : Bytes) (x : ℕ) :
    (st.put (.segment id s) (.bytes b)).segment id x = if x = s then some b else st.segment id x := by
  by_cases h : x = s
  · subst h
    simp [segment]
  · have hk : Key.segment id x ≠ Key.segment id s := by simpa using h
    rw [segment, put_of_ne _ _ hk, if_neg h, segment]

@[simp] lemma segment_put_manifest (st : Store) (id id' : String) (o : Object) (s : ℕ) :
    (st.put (.manifest id') o).segment id s = st.segment id s := rfl

@[simp] lemma segment_put_live (st : Store) (id room : String) (o : Object) (s : ℕ) :
    (st.put (.live room) o).segment id s = st.segment id s := rfl

@[simp] lemma segment_put_event (st : Store) (id id' : String) (o : Object) (s : ℕ) :
    (st.put (.event id') o).segment id s = st.segment id s := rfl

@[simp] lemma segment_put_init (st : Store) (id id' : String) (o : Object) (s : ℕ) :
    (st.put (.init id') o).segment id s = st.segment id s := rfl

@[simp] lemma segment_put_roomEvent (st : Store) (id room id' : String) (o : Object) (s : ℕ) :
    (st.put (.roomEvent room id') o).segment id s = st.segment id s := rfl

@[simp] lemma manifest_put_manifest (st : Store) (id : String) (m : Manifest) :
    (st.put (.manifest id) (.manifest m)).manifest id = some m := by
  simp [manifest]

@[simp] lemma manifest_put_segment (st : Store) (id id' : String) (s : ℕ) (o : Object) :
    (st.put (.segment id' s) o).manifest id = st.manifest id := rfl

@[simp] lemma manifest_put_live (st : Store) (id room : String) (o : Object) :
    (st.put (.live room) o).manifest id = st.manifest id := rfl

@[simp] lemma manifest_put_event (st : Store) (id id' : String) (o : Object) :
    (st.put (.event id') o).manifest id = st.manifest id := rfl

@[simp] lemma manifest_put_init (st : Store) (id id' : String) (o : Object) :
    (st.put (.init id') o).manifest id = st.manifest id := rfl

@[simp] lemma manifest_put_roomEvent (st : Store) (id room id' : String) (o : Object) :
    (st.put (.roomEvent room id') o).manifest id = st.manifest id := rfl

@[simp] lemma live_put_live (st : Store) (room : String) (l : LivePointer) :
    (st.put (.live room) (.live l)).live room = some l := by
  simp [live]

@[simp] lemma live_put_manifest (st : Store) (room id : String) (o : Object) :
    (st.put (.manifest id) o).live room = st.live room := rfl

@[simp] lemma markers_put_markers (st : Store) (id : String) (l : List Marker) :
    (st.put (.markers id) (.markers l)).markers id = l := by
  simp [markers]

@[simp] lemma live_put_segment (st : Store) (room id : String) (s : ℕ) (o : Object) :
    (st.put (.segment id s) o).live room = st.live room := rfl

end Store

end Multisite

import Multisite.Storage.Bucket

/-!
The catalogue of a room's events (`EventCatalog`): the ids from the room index and from a scan
of `events/`, the cap, and what each event's manifest says of it.

`refresh` without a clock of its own takes the wall clock, a parameter here; the lock round the
lists, which only orders their readers, is left out.
-/

namespace Multisite

/-- `EventState`. -/
inductive EventState where
  | unknown
  | live
  | recording
  | interrupted
  deriving DecidableEq, Repr

/-- `EventSummary`. -/
structure EventSummary where
  eventId : String := ""
  roomId : String := ""
  name : String := ""
  startedAtMs : ℤ := 0
  lastUpdateMs : ℤ := 0
  state : EventState := .unknown
  latestSeq : ℕ := 0
  firstAvailableSeq : ℕ := 0
  durationS : ℚ := 0
  isLivePointer : Bool := false
  deriving DecidableEq, Repr

/-- `CatalogConfig`. -/
structure CatalogConfig where
  roomId : String := "main-auditorium"
  staleAfterMs : ℤ := 600000
  maxEvents : ℤ := 0
  deriving DecidableEq, Repr

/-- `EventCatalog`: the last list, and what is said of it. -/
structure EventCatalog where
  events : List EventSummary := []
  lastError : String := ""
  fallback : Bool := false
  skipped : ℕ := 0
  deriving DecidableEq, Repr

/-- `kMaxPages`. -/
def kMaxPages : ℕ := 400

/-- No start time, no segments, no live edge. -/
def Manifest.NeverRecorded (m : Manifest) : Prop :=
  m.startedAtMs ≤ 0 ∧ m.latestSeq = 0 ∧ m.segments = [] ∧ m.status ≠ .live

instance (m : Manifest) : Decidable m.NeverRecorded :=
  inferInstanceAs (Decidable (_ ∧ _ ∧ _ ∧ _))

namespace CatalogConfig

variable (cfg : CatalogConfig)

/-- The ids of a page's keys, each once: an `std::set`. -/
def indexed (entries : List Entry) : List String :=
  ((entries.map fun e => eventIdFromIndexKey e.key).filter (· ≠ "")).dedup.insertionSort (· ≤ ·)

/-- `m_cfg.max_events > 0 && n >= m_cfg.max_events`. -/
def full (n : ℕ) : Bool := decide (0 < cfg.maxEvents ∧ cfg.maxEvents ≤ n)

/-- The loop over the ids the index does not know: each is asked for its room. -/
def scanCandidates : List String → List String × Bool → Cloud → (List String × Bool) × Cloud
  | [], out, c => (out, c)
  | id :: ids, out, c =>
      if cfg.full out.1.length then (out, c)
      else
        let g := c.get (eventPrefixFor id ++ "event.json")
        match g.1 with
        | some (.event ev) =>
            if ev.roomId = cfg.roomId then scanCandidates ids (out.1 ++ [id], true) g.2
            else scanCandidates ids out g.2
        | _ => scanCandidates ids out g.2

/-- The ids a scan of `events/` finds that the index does not know, newest first. -/
def candidates (known items : List String) : List String :=
  (((commonPrefixes "events/" items).map eventIdFromIndexKey).filter
    fun id => id ≠ "" ∧ id ∉ known).insertionSort (· ≥ ·)

/-- `EventCatalog::collect_event_ids`: the ids and whether the scan found one, or the error. -/
def collectEventIds (c : Cloud) : Except String (List String × Bool) × Cloud :=
  let index := c.listAll (fun b => b.under (roomEventsPrefix cfg.roomId)) (·.key) kMaxPages none
  match index.1.2 with
  | .tooMany =>
      (.error ("the room index did not finish listing after " ++ toString kMaxPages ++ " pages"),
        index.2)
  | .failed e => (.error e, index.2)
  | .finished =>
      let out := indexed index.1.1
      let scan := index.2.listAll (fun b => b.items "events/") id kMaxPages none
      let found := cfg.scanCandidates (candidates out scan.1.1) (out, false) scan.2
      match scan.1.2 with
      -- a failed scan is an error only where the index has given nothing
      | .failed e => if out = [] then (.error e, scan.2) else (.ok found.1, found.2)
      | _ => (.ok found.1, found.2)

/-- The ids `refresh` goes on with: newest first, and no more than the cap. -/
def considered (ids : List String) : List String :=
  let sorted := ids.insertionSort (· ≥ ·)
  if 0 < cfg.maxEvents ∧ cfg.maxEvents < sorted.length then sorted.take cfg.maxEvents.toNat
  else sorted

/-- What a manifest says of the event; nothing where nothing was ever recorded. -/
def summary (id : String) (live : LivePointer) (now : ℤ) (m : Manifest) : Option EventSummary :=
  if m.NeverRecorded then none
  else
    let endMs := (m.segments.getLast?.map fun s => s.atMs + msOf s.durationS).getD m.startedAtMs
    some
      { eventId := id
        roomId := cfg.roomId
        name := m.name
        startedAtMs := m.startedAtMs
        lastUpdateMs := m.updatedAtMs
        latestSeq := m.latestSeq
        firstAvailableSeq := m.firstAvailableSeq
        isLivePointer := live.eventId = id
        durationS := if m.startedAtMs < endMs then (endMs - m.startedAtMs : ℤ) / 1000 else 0
        state :=
          if m.status = .ended then .recording
          else if 0 < m.updatedAtMs ∧ cfg.staleAfterMs < now - m.updatedAtMs then .interrupted
          else .live }

/-- `EventCatalog::classify`. -/
def classify (id : String) (live : LivePointer) (now : ℤ) (c : Cloud) :
    Option EventSummary × Cloud :=
  let g := c.get (eventPrefixFor id ++ "manifest.json")
  match g.1 with
  | some (.manifest m) => (cfg.summary id live now m, g.2)
  | _ => (none, g.2)

/-- The loop of `refresh` over the ids: what is found, and how many are skipped. -/
def classifyAll (live : LivePointer) (now : ℤ) :
    List String → List EventSummary × ℕ → Cloud → (List EventSummary × ℕ) × Cloud
  | [], out, c => (out, c)
  | id :: ids, out, c =>
      let s := cfg.classify id live now c
      match s.1 with
      | some e => classifyAll live now ids (out.1 ++ [e], out.2) s.2
      | none => classifyAll live now ids (out.1, out.2 + 1) s.2

end CatalogConfig

/-- The order `refresh` sorts by: the later start first, then the later id. -/
def EventSummary.before (a b : EventSummary) : Bool :=
  if a.startedAtMs ≠ b.startedAtMs then decide (b.startedAtMs < a.startedAtMs)
  else decide (b.eventId < a.eventId)

/-- `LivePointer::from_json` of the body of a GET, the empty pointer where there is none. -/
def pointerOf : Option Object → LivePointer
  | some (.live l) => l
  | _ => {}

/-- `EventCatalog::refresh`: whether the listing worked. -/
def EventCatalog.refresh (cat : EventCatalog) (cfg : CatalogConfig) (now : ℤ) (c : Cloud) :
    (Bool × EventCatalog) × Cloud :=
  let lp := c.get (livePointerKey cfg.roomId)
  let ids := cfg.collectEventIds lp.2
  match ids.1 with
  | .error e =>
      -- the list of the last refresh stays
      ((false, { cat with lastError := "could not list events: " ++ e, fallback := false }), ids.2)
  | .ok (found, fallback) =>
      let r := cfg.classifyAll (pointerOf lp.1) now (cfg.considered found) ([], 0) ids.2
      let sorted := r.1.1.insertionSort fun a b => ¬ b.before a
      ((true,
        { events := (sorted.filter (·.state = .live)) ++ sorted.filter (·.state ≠ .live)
          fallback
          skipped := r.1.2
          lastError :=
            if 0 < r.1.2 then
              toString r.1.2 ++ " event(s) listed but not playable — either empty, or " ++
                "their content has been removed by retention"
            else "" }), r.2)

/-! ### What the catalogue gives -/

namespace CatalogConfig

variable {cfg : CatalogConfig} {c : Cloud} {Q : Cloud → Prop}

lemma scanCandidates_rec (hturn : ∀ c, Q c → Q c.turn.2) (ids : List String)
    (out : List String × Bool) (h : Q c) : Q (cfg.scanCandidates ids out c).2 := by
  induction ids generalizing out c with
  | nil => exact h
  | cons id ids ih =>
      have hnext : Q (c.get (eventPrefixFor id ++ "event.json")).2 := by
        rw [Cloud.get_snd]
        exact hturn c h
      rw [scanCandidates]
      split
      · exact h
      · simp only
        split
        · split
          · exact ih _ hnext
          · exact ih _ hnext
        · exact ih _ hnext

lemma collectEventIds_rec (hturn : ∀ c, Q c → Q c.turn.2) (h : Q c) :
    Q (cfg.collectEventIds c).2 := by
  have hindex := @Cloud.listAll_rec _ (fun b => b.under (roomEventsPrefix cfg.roomId)) (·.key) Q
    hturn kMaxPages none c h
  have hscan := @Cloud.listAll_rec _ (fun b => b.items "events/") id Q hturn kMaxPages none _ hindex
  rw [collectEventIds]
  simp only
  split
  · exact hindex
  · exact hindex
  · split
    · split
      · exact hscan
      · exact scanCandidates_rec hturn _ _ hscan
    · exact scanCandidates_rec hturn _ _ hscan

lemma classify_snd (id : String) (live : LivePointer) (now : ℤ) (c : Cloud) :
    (cfg.classify id live now c).2 = c.turn.2 := by
  rw [classify]
  simp only [Cloud.get_snd]
  split <;> rfl

lemma classifyAll_rec (hturn : ∀ c, Q c → Q c.turn.2) (live : LivePointer) (now : ℤ)
    (ids : List String) (out : List EventSummary × ℕ) (h : Q c) :
    Q (cfg.classifyAll live now ids out c).2 := by
  induction ids generalizing out c with
  | nil => exact h
  | cons id ids ih =>
      have hnext : Q (cfg.classify id live now c).2 := by
        rw [classify_snd]
        exact hturn c h
      rw [classifyAll]
      split
      · exact ih _ hnext
      · exact ih _ hnext

/-- The scan adds nothing but its candidates. -/
lemma mem_scanCandidates (ids : List String) (out : List String × Bool) :
    ∀ id ∈ (cfg.scanCandidates ids out c).1.1, id ∈ out.1 ∨ id ∈ ids := by
  induction ids generalizing out c with
  | nil => exact fun id hid => Or.inl hid
  | cons x ids ih =>
      intro id hid
      rw [scanCandidates] at hid
      split at hid
      · exact Or.inl hid
      · simp only at hid
        split at hid
        · split at hid
          · rcases ih _ id hid with h | h
            · rcases List.mem_append.mp h with h | h
              · exact Or.inl h
              · exact Or.inr (List.mem_singleton.mp h ▸ List.mem_cons_self)
            · exact Or.inr (List.mem_cons_of_mem _ h)
          · exact (ih _ id hid).imp_right (List.mem_cons_of_mem _)
        · exact (ih _ id hid).imp_right (List.mem_cons_of_mem _)

/-- The ids of the index are read from keys, and so are a scan's. -/
lemma isEventId_of_mem_indexed {entries : List Entry} {id : String} (h : id ∈ indexed entries) :
    IsEventId id := by
  rw [indexed, List.mem_insertionSort, List.mem_dedup, List.mem_filter] at h
  obtain ⟨hm, hne⟩ := h
  obtain ⟨e, -, rfl⟩ := List.mem_map.mp hm
  exact isEventId_eventIdFromIndexKey (by simpa using hne)

lemma isEventId_of_mem_candidates {known items : List String} {id : String}
    (h : id ∈ candidates known items) : IsEventId id := by
  rw [candidates, List.mem_insertionSort, List.mem_filter] at h
  obtain ⟨hm, hne⟩ := h
  obtain ⟨p, -, rfl⟩ := List.mem_map.mp hm
  exact isEventId_eventIdFromIndexKey (by simp at hne; exact hne.1)

/-- Every id the catalogue comes upon is one part of a key. -/
lemma isEventId_of_mem_collectEventIds {ids : List String} {fallback : Bool}
    (h : (cfg.collectEventIds c).1 = .ok (ids, fallback)) : ∀ id ∈ ids, IsEventId id := by
  have hfound : ∀ {entries : List Entry} {items : List String} {b : Bool} {c' : Cloud},
      ∀ id ∈ (cfg.scanCandidates (candidates (indexed entries) items) (indexed entries, b) c').1.1,
        IsEventId id := by
    intro entries items b c' id hid
    rcases mem_scanCandidates _ _ id hid with h | h
    · exact isEventId_of_mem_indexed h
    · exact isEventId_of_mem_candidates h
  rw [collectEventIds] at h
  simp only at h
  split at h
  · simp at h
  · simp at h
  · split at h
    · split at h
      · simp at h
      · have hids : _ = ids := congrArg Prod.fst (Except.ok.inj h)
        exact fun id hid => hfound id (hids.symm ▸ hid)
    · have hids : _ = ids := congrArg Prod.fst (Except.ok.inj h)
      exact fun id hid => hfound id (hids.symm ▸ hid)

lemma mem_considered {ids : List String} {id : String} (h : id ∈ cfg.considered ids) : id ∈ ids := by
  rw [considered] at h
  split at h
  · exact (List.mem_insertionSort _).mp (List.mem_of_mem_take h)
  · exact (List.mem_insertionSort _).mp h

lemma eventId_classify {id : String} {live : LivePointer} {now : ℤ} {e : EventSummary}
    (h : (cfg.classify id live now c).1 = some e) : e.eventId = id := by
  rw [classify] at h
  split at h
  · rw [summary] at h
    split at h
    · simp at h
    · exact Option.some.inj h ▸ rfl
  · simp at h

/-- What is listed is of an id considered. -/
lemma mem_classifyAll {live : LivePointer} {now : ℤ} (ids : List String)
    (out : List EventSummary × ℕ) :
    ∀ e ∈ (cfg.classifyAll live now ids out c).1.1, e ∈ out.1 ∨ e.eventId ∈ ids := by
  induction ids generalizing out c with
  | nil => exact fun e he => Or.inl he
  | cons id ids ih =>
      intro e he
      rw [classifyAll] at he
      split at he
      · rename_i s hs
        rcases ih _ e he with h | h
        · rcases List.mem_append.mp h with h | h
          · exact Or.inl h
          · rw [List.mem_singleton.mp h, eventId_classify hs]
            exact Or.inr List.mem_cons_self
        · exact Or.inr (List.mem_cons_of_mem _ h)
      · exact (ih _ e he).imp_right (List.mem_cons_of_mem _)

end CatalogConfig

namespace EventCatalog

variable {cat : EventCatalog} {cfg : CatalogConfig} {c : Cloud} {now : ℤ}

/-- A refresh is requests and no more. -/
lemma refresh_rec {Q : Cloud → Prop} (hturn : ∀ c, Q c → Q c.turn.2) (h : Q c) :
    Q (cat.refresh cfg now c).2 := by
  have hids : Q (cfg.collectEventIds c.turn.2).2 :=
    CatalogConfig.collectEventIds_rec hturn (hturn c h)
  rw [refresh]
  simp only [Cloud.get_snd]
  split
  · exact hids
  · exact CatalogConfig.classifyAll_rec hturn _ _ _ _ hids

/-- What a refresh lists, the room's ids hold. -/
lemma isEventId_of_mem_refresh (h : (cat.refresh cfg now c).1.1 = true) :
    ∀ e ∈ (cat.refresh cfg now c).1.2.events, IsEventId e.eventId := by
  rw [refresh] at h ⊢
  simp only [Cloud.get_snd] at h ⊢
  split
  · rename_i heq
    simp [heq] at h
  · rename_i ids fallback heq
    intro e he
    simp only [List.mem_append, List.mem_filter, List.mem_insertionSort] at he
    have hmem := he.elim And.left And.left
    rcases CatalogConfig.mem_classifyAll _ _ e hmem with hnil | hid
    · simp at hnil
    · exact CatalogConfig.isEventId_of_mem_collectEventIds heq _ (CatalogConfig.mem_considered hid)

end EventCatalog

end Multisite

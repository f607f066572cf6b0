import Multisite.Storage.Catalog

/-!
The storage manager (`StorageManager`): the list of events with the one on air marked, and the
two ways of deleting.

The calls modelled pass no `ListStats` and no cancel flag; an absent progress function is one
that always goes on.  The wall clock is read once a call.
-/

namespace Multisite

/-- `ManagedEvent`, less the sizes that `list_events` leaves unmeasured. -/
structure ManagedEvent where
  eventId : String := ""
  name : String := ""
  startedAtMs : ℤ := 0
  state : EventState := .unknown
  isLive : Bool := false
  deriving DecidableEq, Repr

/-- `DeleteProgress`. -/
structure DeleteProgress where
  eventId : String := ""
  eventName : String := ""
  eventIndex : ℕ := 0
  eventCount : ℕ := 1
  objectsDone : ℕ := 0
  objectsTotal : ℕ := 0
  deriving DecidableEq, Repr

/-- `DeleteProgressFn`: false cancels. -/
abbrev DeleteProgressFn := DeleteProgress → Bool

/-- `DeleteReport`. -/
structure DeleteReport where
  ok : Bool := false
  objectsDeleted : ℕ := 0
  bytesFreed : ℤ := 0
  confirmed : Bool := false
  cancelled : Bool := false
  error : String := ""
  eventsConsidered : ℕ := 0
  eventsMatched : ℕ := 0
  eventsDeleted : ℕ := 0
  eventsUndated : ℕ := 0
  eventsLiveKept : ℕ := 0
  deletedIds : List String := []
  deriving DecidableEq, Repr

/-- The ULID alphabet of `event_id_time_ms`. -/
def kAlphabet : List Char := "0123456789ABCDEFGHJKMNPQRSTVWXYZ".toList

/-- `event_id_time_ms`: the time ten characters of an id stand for, 0 where they stand for none
between the start of 2020 and a day after the clock. -/
def eventIdTimeMs (clock : ℤ) (eventId : String) : ℤ :=
  let digits := (eventId.toList.take 10).map fun c => kAlphabet.idxOf? c.toUpper
  if eventId.toList.length < 10 ∨ none ∈ digits then 0
  else
    let ms := (digits.filterMap id).foldl (fun (ms : ℤ) d => ms * 32 + (d : ℤ)) 0
    if ms < 1577836800000 ∨ clock + 24 * 60 * 60 * 1000 < ms then 0 else ms

/-- The order `list_events` sorts by: the event on air, then the later start, then the later id. -/
def ManagedEvent.before (a b : ManagedEvent) : Bool :=
  if a.isLive ≠ b.isLive then a.isLive
  else if a.startedAtMs ≠ b.startedAtMs then decide (b.startedAtMs < a.startedAtMs)
  else decide (b.eventId < a.eventId)

/-- `StorageManager`: the room and its catalogue. -/
structure StorageManager where
  roomId : String
  catalog : EventCatalog := {}
  deriving DecidableEq, Repr

namespace StorageManager

variable (sm : StorageManager)

/-- The configuration the manager gives its catalogue. -/
def catalogConfig : CatalogConfig := { roomId := sm.roomId, staleAfterMs := 600000 }

/-- `StorageManager::live_event_id`. -/
def liveEventId (c : Cloud) : String × Cloud :=
  let g := c.get (livePointerKey sm.roomId)
  match g.1 with
  | some (.live l) => (l.eventId, g.2)
  | _ => ("", g.2)

/-- `StorageManager::list_prefix`: the keys and their sizes together, or the error. -/
def listPrefix (pre : String) (c : Cloud) : Except String (List String × ℤ) × Cloud :=
  let r := c.listAll (fun b => b.under pre) (·.key) kMaxPages none
  match r.1.2 with
  | .tooMany =>
      (.error ("listing " ++ pre ++ " did not finish after " ++ toString kMaxPages ++ " pages"), r.2)
  | .failed e => (.error e, r.2)
  | .finished => (.ok (r.1.1.map (·.key), (r.1.1.map fun e => max e.size 0).sum), r.2)

/-- What `list_events` makes of a summary. -/
def managed (live : String) (s : EventSummary) : ManagedEvent :=
  { eventId := s.eventId, name := s.name, startedAtMs := s.startedAtMs, state := s.state
    isLive := live ≠ "" ∧ live = s.eventId }

/-- `StorageManager::list_events`. -/
def listEvents (clock : ℤ) (c : Cloud) :
    Except String (List ManagedEvent) × StorageManager × Cloud :=
  let r := sm.catalog.refresh sm.catalogConfig clock c
  let sm' := { sm with catalog := r.1.2 }
  if r.1.1 = false then (.error r.1.2.lastError, sm', r.2)
  else
    let live := sm.liveEventId r.2
    (.ok ((r.1.2.events.map (managed live.1)).insertionSort fun a b => ¬ b.before a), sm', live.2)

/-- The loop of `delete_event` over the keys, from the `i`-th on: how far it came, and the
report it returns early with. -/
def removeKeys (progress : DeleteProgressFn) (pr : DeleteProgress) :
    List String → ℕ → Cloud → (ℕ × Option DeleteReport) × Cloud
  | [], i, c => ((i, none), c)
  | key :: keys, i, c =>
      if progress { pr with objectsDone := i } = false then
        ((i, some { eventsConsidered := 1, cancelled := true, error := "cancelled" }), c)
      else
        let r := c.removeKey key
        match r.1 with
        | some e => ((i, some { eventsConsidered := 1, error := e }), r.2)
        | none => removeKeys progress pr keys (i + 1) r.2

/-- `StorageManager::delete_event`. -/
def deleteEvent (eventId : String) (progress : DeleteProgressFn) (c : Cloud) :
    DeleteReport × Cloud :=
  let live := sm.liveEventId c
  if live.1 ≠ "" ∧ live.1 = eventId then
    ({ eventsConsidered := 1, error := "That event is on air now and cannot be deleted."
       eventsLiveKept := 1 }, live.2)
  else
    let listed := listPrefix (eventPrefixFor eventId) live.2
    match listed.1 with
    | .error e =>
        ({ eventsConsidered := 1, error := if e = "" then "could not list the event" else e },
          listed.2)
    | .ok (objects, bytes) =>
        -- the index entry lies outside the event's own prefix
        let keys := objects ++ [roomEventKey sm.roomId eventId]
        let pr := { eventId, objectsTotal := keys.length }
        let r := removeKeys progress pr keys 0 listed.2
        match r.1.2 with
        | some rep => ({ rep with objectsDeleted := r.1.1, bytesFreed := bytes }, r.2)
        | none =>
            let again := listPrefix (eventPrefixFor eventId) r.2
            ({ ok := true
               objectsDeleted := keys.length
               bytesFreed := bytes
               confirmed := match again.1 with
                 | .ok (remaining, _) => remaining.isEmpty
                 | .error _ => false
               eventsConsidered := 1
               eventsMatched := 1
               eventsDeleted := 1
               deletedIds := [eventId] }, again.2)

/-- The start time an event is dated by: its manifest's, or the one in its id. -/
def startedMs (clock : ℤ) (e : ManagedEvent) : ℤ :=
  if e.startedAtMs ≤ 0 then eventIdTimeMs clock e.eventId else e.startedAtMs

/-- The events `delete_older_than` goes for. -/
def targets (clock cutoff : ℤ) (events : List ManagedEvent) : List ManagedEvent :=
  events.filter fun e => !e.isLive && decide (0 < startedMs clock e ∧ startedMs clock e < cutoff)

/-- The progress of the event at `index`, as progress through the whole run. -/
def perEvent (progress : DeleteProgressFn) (index count : ℕ) (name : String) : DeleteProgressFn :=
  fun p => progress { p with eventIndex := index, eventCount := count, eventName := name }

/-- The loop of `delete_older_than` over its targets, from the `i`-th of `count` on. -/
def deleteTargets (progress : DeleteProgressFn) (count : ℕ) :
    List ManagedEvent → ℕ → DeleteReport → Cloud → DeleteReport × Cloud
  | [], _, rep, c => ({ rep with ok := true, confirmed := count = 0 || rep.confirmed }, c)
  | t :: ts, i, rep, c =>
      let d := sm.deleteEvent t.eventId (perEvent progress i count t.name) c
      let rep := { rep with
        objectsDeleted := rep.objectsDeleted + d.1.objectsDeleted
        bytesFreed := rep.bytesFreed + d.1.bytesFreed }
      if d.1.ok = false then
        if d.1.cancelled then ({ rep with cancelled := true, ok := true }, d.2)
        else ({ rep with error := d.1.error }, d.2)
      else
        deleteTargets progress count ts (i + 1)
          { rep with
            eventsDeleted := rep.eventsDeleted + 1
            deletedIds := rep.deletedIds ++ [t.eventId]
            confirmed := if i = 0 then d.1.confirmed else rep.confirmed && d.1.confirmed } d.2

/-- `StorageManager::delete_older_than`. -/
def deleteOlderThan (olderThanDays now clock : ℤ) (progress : DeleteProgressFn) (c : Cloud) :
    DeleteReport × StorageManager × Cloud :=
  let listed := sm.listEvents clock c
  match listed.1 with
  | .error e => ({ error := e }, listed.2)
  | .ok events =>
      let goFor := targets clock (now - olderThanDays * 24 * 60 * 60 * 1000) events
      let undated := events.filter fun e => !e.isLive && decide (startedMs clock e ≤ 0)
      let r := listed.2.1.deleteTargets progress goFor.length goFor 0
        { eventsConsidered := events.length
          eventsLiveKept := (events.filter (·.isLive)).length
          eventsUndated := undated.length
          eventsMatched := goFor.length } listed.2.2
      (r.1, listed.2.1, r.2)

end StorageManager

end Multisite

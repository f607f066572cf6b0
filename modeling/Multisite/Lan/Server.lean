import Mathlib.Data.Finset.Sort
import Multisite.Http.Server

/-!
The LAN server of an encoder (`lan_object_server.cpp`) over its segment cache
(`segment_cache.cpp`).

* `handleEvents`: what a `GET /events/...` is answered, up to the read from the cache;
* `SegmentCache`: the cache, with the directories under its root by the event they are named after;
* `Thread`, `advance`: where a call stands between two of its locks or file operations, and what it
  does next.

An event id is one component of a path, as `make_event_id` writes it.  Files under their temporary
name are left out: a rename puts them in place.
-/

namespace Multisite.Lan

open Http

/-! ### Responses -/

/-- `HttpResponse`, as the handlers below fill it in. -/
structure HttpResponse where
  status : ℕ := 200
  contentType : Bytes := bytesOf "application/json; charset=utf-8"
  body : Bytes := []
  deriving DecidableEq, Repr

/-- `HttpResponse::json`. -/
def HttpResponse.json (text : Bytes) : HttpResponse := { body := text }

/-- `HttpResponse::text`. -/
def HttpResponse.text (code : ℕ) (message : String) : HttpResponse :=
  { status := code, contentType := bytesOf "text/plain; charset=utf-8", body := bytesOf message }

/-- The body of a media object. -/
def HttpResponse.media (bytes : Bytes) : HttpResponse :=
  { contentType := bytesOf "video/mp4", body := bytes }

def notFound : HttpResponse := .text 404 "not found"

/-! ### Requests -/

/-- The JSON documents of an event. -/
inductive Doc where
  | manifest
  | event
  | markers
  deriving DecidableEq, Repr

/-- The media objects of an event. -/
inductive Media where
  | init
  | segment (seq : ℕ)
  deriving DecidableEq, Repr

/-- What a path under an event names. -/
inductive Ask where
  | document (d : Doc)
  | media (m : Media)
  deriving DecidableEq, Repr

/-- `kEventsPrefix`. -/
def kEventsPrefix : Bytes := bytesOf "/events/"

/-- `kSegmentsInfix`. -/
def kSegmentsInfix : Bytes := bytesOf "segments/"

/-- The sequence that a segment's file name gives.  `stoull` and `stoul` read the same where both
have 64 bits. -/
def segmentOf (fname : Bytes) : Option ℕ :=
  let ext := bytesOf ".m4s"
  let stem := fname.length - ext.length
  if ext.length < fname.length ∧ fname.drop stem = ext ∧ (fname.take stem).all isDigit then
    stoul (fname.take stem)
  else none

/-- What `handle_events` makes of the path after the event's id. -/
def askOf (tail : Bytes) : Option Ask :=
  if tail = bytesOf "manifest.json" then some (.document .manifest)
  else if tail = bytesOf "event.json" then some (.document .event)
  else if tail = bytesOf "markers.json" then some (.document .markers)
  else if tail = bytesOf "init.mp4" then some (.media .init)
  else if tail.take kSegmentsInfix.length = kSegmentsInfix then
    (segmentOf (tail.drop kSegmentsInfix.length)).map fun seq => .media (.segment seq)
  else none

/-- The id and the rest of a path under `kEventsPrefix`, where there is a slash between them. -/
def cutPath (path : Bytes) : Option (Bytes × Bytes) :=
  let rest := path.drop kEventsPrefix.length
  if 47 ∈ rest then
    some (rest.takeWhile (· ≠ 47), (rest.dropWhile (· ≠ 47)).drop 1)
  else none

/-- The event and the object that a request is for. -/
def asks (req : HttpRequest) : Option (Bytes × Ask) :=
  (cutPath req.path).bind fun x => (askOf x.2).map (x.1, ·)

/-- The routes of the server hand the request to `handle_events`. -/
def routed (req : HttpRequest) : Bool :=
  req.method = bytesOf "GET" && req.path.take kEventsPrefix.length = kEventsPrefix

/-! ### The cache -/

/-- The directory of an event: the init segment, and the segments by the number in their name. -/
structure CacheDir where
  init : Option Bytes := none
  segs : List (ℕ × Bytes) := []

/-- `SegmentCache`, with the directories under its root. -/
structure SegmentCache where
  eventId : Bytes
  dirs : Bytes → Option CacheDir
  index : Finset ℕ := ∅

/-- The number in `seq_name`, whose buffer holds fifteen digits. -/
def fileNo (seq : ℕ) : ℕ := seq / 10 ^ (Nat.log 10 seq - 14)

namespace SegmentCache

/-- `ensure_dir`. -/
def ensureDir (c : SegmentCache) : SegmentCache :=
  { c with dirs := Function.update c.dirs c.eventId (some ((c.dirs c.eventId).getD {})) }

/-- `build_index_locked`. -/
def buildIndex (c : SegmentCache) : SegmentCache :=
  { c with index := (((c.dirs c.eventId).getD {}).segs.map (·.1)).toFinset }

/-- `SegmentCache`'s constructor, on the directories it finds. -/
def create (dirs : Bytes → Option CacheDir) (eventId : Bytes) : SegmentCache :=
  (ensureDir { eventId, dirs }).buildIndex

/-- `sweep_orphans_locked`. -/
def sweepOrphans (c : SegmentCache) : SegmentCache :=
  { c with dirs := fun d => if d = c.eventId then c.dirs d else none }

/-- `set_event`; where the directories cannot be removed they stay. -/
def setEvent (c : SegmentCache) (eventId : Bytes) (works : Bool) : SegmentCache :=
  if eventId = c.eventId then c
  else
    let c := { c with eventId }
    (if works then c.sweepOrphans else c).ensureDir.buildIndex

/-- `write_atomic` of `init.mp4` in a directory. -/
def writeInit (c : SegmentCache) (dir : Bytes) (bytes : Bytes) : SegmentCache :=
  match c.dirs dir with
  | none => c
  | some d => { c with dirs := Function.update c.dirs dir (some { d with init := some bytes }) }

/-- `write_atomic` of a segment in a directory. -/
def writeSeg (c : SegmentCache) (dir : Bytes) (seq : ℕ) (bytes : Bytes) : SegmentCache :=
  match c.dirs dir with
  | none => c
  | some d =>
      let segs := (fileNo seq, bytes) :: d.segs.filter (·.1 ≠ fileNo seq)
      { c with dirs := Function.update c.dirs dir (some { d with segs }) }

/-- The files that `prune_below` has taken the paths of, removed. -/
def removeSegs (c : SegmentCache) (dir : Bytes) (files : List ℕ) : SegmentCache :=
  match c.dirs dir with
  | none => c
  | some d =>
      { c with
        dirs := Function.update c.dirs dir
          (some { d with segs := d.segs.filter (·.1 ∉ files) }) }

/-- What stands in a directory, for `load_init` and `load`. -/
def file (c : SegmentCache) (dir : Bytes) : Media → Option Bytes
  | .init => (c.dirs dir).bind (·.init)
  | .segment seq => (c.dirs dir).bind fun d => d.segs.lookup (fileNo seq)

/-- `lowest_seq`. -/
def lowestSeq (c : SegmentCache) : ℕ := (c.index.sort (· ≤ ·)).headD 0

end SegmentCache

/-! ### The server -/

/-- `LanServerConfig`, as far as `handle_events` and the retention read it. -/
structure LanServerConfig where
  authToken : Bytes := []
  maxCachedSegments : ℤ := 2000
  deriving DecidableEq, Repr

/-- `LanObjectServer`. -/
structure LanObjectServer where
  cfg : LanServerConfig := {}
  eventId : Bytes := []
  eventJson : Bytes := []
  manifestJson : Bytes := []
  markersJson : Bytes := []
  cache : SegmentCache

namespace LanObjectServer

/-- `LanObjectServer`'s constructor. -/
def create (cfg : LanServerConfig) (dirs : Bytes → Option CacheDir) : LanObjectServer :=
  { cfg, cache := .create dirs (bytesOf "pending") }

/-- A document, as the server holds it. -/
def doc (s : LanObjectServer) : Doc → Bytes
  | .manifest => s.manifestJson
  | .event => s.eventJson
  | .markers => s.markersJson

/-- `check_auth`. -/
def checkAuth (s : LanObjectServer) (req : HttpRequest) : Bool :=
  s.cfg.authToken = [] ||
    lookup req.headers (bytesOf "authorization") = some (bytesOf "Bearer " ++ s.cfg.authToken)

/-- What `handle_events` comes to before it reads from the cache. -/
inductive Handled where
  | answered (res : HttpResponse)
  | reads (ev : Bytes) (m : Media)
  deriving DecidableEq, Repr

/-- `handle_events`, up to the cache. -/
def handleEvents (s : LanObjectServer) (req : HttpRequest) : Handled :=
  if ¬ s.checkAuth req then .answered (.text 401 "unauthorized")
  else
    match cutPath req.path with
    | none => .answered notFound
    | some (id, tail) =>
        if id = [] ∨ id ≠ s.eventId then .answered notFound
        else
          match askOf tail with
          | some (.document .manifest) => .answered (.json s.manifestJson)
          | some (.document .event) => .answered (.json s.eventJson)
          | some (.document .markers) =>
              if s.markersJson = [] then .answered notFound else .answered (.json s.markersJson)
          | some (.media m) => .reads id m
          | none => .answered notFound

/-- `on_event_started`, under its lock. -/
def onEventStarted (s : LanObjectServer) (eventId eventJson : Bytes) : LanObjectServer :=
  { s with eventId, eventJson, manifestJson := [], markersJson := [] }

/-- `on_manifest_published`. -/
def onManifestPublished (s : LanObjectServer) (json : Bytes) : LanObjectServer :=
  { s with manifestJson := json }

/-- `on_markers_published`. -/
def onMarkersPublished (s : LanObjectServer) (json : Bytes) : LanObjectServer :=
  { s with markersJson := json }

end LanObjectServer

/-! ### Calls -/

/-- Where a call stands: what it does next, with the event it is for as long as it has not taken a
path from the cache. -/
inductive Thread where
  /-- `on_event_started`: `set_event`, `store_init`, and its write. -/
  | setEvent (ev init : Bytes)
  | storeInit (ev init : Bytes)
  | writeInit (dir init : Bytes)
  /-- `on_segment_confirmed`: `store` with its write and its insertion, and the retention. -/
  | store (ev : Bytes) (seq : ℕ) (bytes : Bytes)
  | write (dir : Bytes) (seq : ℕ) (bytes : Bytes)
  | insert (seq : ℕ)
  | count
  | lowest
  | excess (lowest : ℕ)
  | prune (keepFrom : ℕ)
  | remove (dir : Bytes) (files : List ℕ)
  /-- `handle_events`: `load_init` or `load`, and its read. -/
  | load (req : HttpRequest) (ev : Bytes) (m : Media)
  | read (req : HttpRequest) (dir : Bytes) (m : Media)
  deriving DecidableEq, Repr

/-- What a call comes to with one more lock or file operation. -/
inductive Next where
  | goes (t : Thread)
  | returns
  | answers (req : HttpRequest) (res : HttpResponse)
  deriving DecidableEq, Repr

namespace LanObjectServer

/-- `(int)m_cache->count() > m_cfg.max_cached_segments`. -/
def overCeiling (s : LanObjectServer) : Bool :=
  Int.bmod s.cache.index.card (2 ^ 32) > s.cfg.maxCachedSegments

/-- What `prune_below` is called with, in 64 bits. -/
def keepFrom (s : LanObjectServer) (lowest : ℕ) : ℕ :=
  let excess := ((s.cache.index.card - s.cfg.maxCachedSegments) % 2 ^ 64).toNat
  (lowest + excess) % 2 ^ 64

/-- The cache after a step of a call, and what the call comes to; a file operation that does not
work leaves the files as they are. -/
def advance (s : LanObjectServer) (works : Bool) : Thread → SegmentCache × Next
  | .setEvent ev init => (s.cache.setEvent ev works, .goes (.storeInit ev init))
  | .storeInit _ init =>
      if init = [] then (s.cache, .returns)
      else (s.cache.ensureDir, .goes (.writeInit s.cache.eventId init))
  | .writeInit dir init => (if works then s.cache.writeInit dir init else s.cache, .returns)
  | .store _ seq bytes => (s.cache.ensureDir, .goes (.write s.cache.eventId seq bytes))
  | .write dir seq bytes =>
      -- A directory that is gone again cannot be written to.
      if works ∧ (s.cache.dirs dir).isSome then
        (s.cache.writeSeg dir seq bytes, .goes (.insert seq))
      else (s.cache, .goes .count)
  | .insert seq => ({ s.cache with index := insert seq s.cache.index }, .goes .count)
  | .count => (s.cache, if s.overCeiling then .goes .lowest else .returns)
  | .lowest => (s.cache, .goes (.excess s.cache.lowestSeq))
  | .excess lowest => (s.cache, .goes (.prune (s.keepFrom lowest)))
  | .prune keepFrom =>
      let gone := s.cache.index.filter (· < keepFrom)
      ({ s.cache with index := s.cache.index \ gone },
        .goes (.remove s.cache.eventId ((gone.sort (· ≤ ·)).map fileNo)))
  | .remove dir files => (if works then s.cache.removeSegs dir files else s.cache, .returns)
  | .load req _ m => (s.cache, .goes (.read req s.cache.eventId m))
  | .read req dir m =>
      match (if works then s.cache.file dir m else none) with
      | some bytes => (s.cache, .answers req (.media bytes))
      | none => (s.cache, .answers req notFound)

end LanObjectServer

end Multisite.Lan

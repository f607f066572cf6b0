import Mathlib.Data.List.AList
import Multisite.Core.Model

/-!
`SegmentCache` (`segment_cache.h`, `segment_cache.cpp`): the satellite's local store.

A folder of the cache directory holds one event's `init.mp4` and its media fragments.
The lock of the class covers the event's name and the index, never a file: `store` and
`load` take the path under the lock and use it later, so the path is a value here
(`SegmentCache.path`) and the reading and writing are operations of their own.

A fragment's file is named by `snprintf` into sixteen bytes, which keeps the first
fifteen digits of a number (`fileNo`).
-/

namespace Multisite

/-- A `uint64_t` after an addition. -/
def wrapU64 (n : ℕ) : ℕ := n % 2 ^ 64

/-- `(uint64_t)` of an `int`. -/
def toU64 (x : ℤ) : ℕ := (x % 2 ^ 64).toNat

/-- The number a fragment's file is named by: the first fifteen digits. -/
def fileNo (seq : ℕ) : ℕ :=
  if seq < 10 ^ 15 then seq
  else if seq < 10 ^ 16 then seq / 10
  else if seq < 10 ^ 17 then seq / 10 ^ 2
  else if seq < 10 ^ 18 then seq / 10 ^ 3
  else if seq < 10 ^ 19 then seq / 10 ^ 4
  else seq / 10 ^ 5

/-- The files of these numbers removed. -/
def eraseFiles {β : Type} (m : AList fun _ : ℕ => β) (gone : Finset ℕ) : AList fun _ : ℕ => β :=
  m.keys.foldl (fun m n => if n ∈ gone then m.erase n else m) m

/-- One event's folder in the cache directory. -/
structure CacheFolder where
  init : Option Bytes := none
  segs : AList fun _ : ℕ => Bytes := ∅

/-- The fragments of a folder, by the numbers of their files. -/
def CacheFolder.fileNos (f : CacheFolder) : Finset ℕ := f.segs.keys.toFinset

/-- `SegmentCache`, with the folders under its directory. -/
structure SegmentCache where
  eventId : String := "pending"
  index : Finset ℕ := ∅
  folders : String → Option CacheFolder := fun _ => none

namespace SegmentCache

variable (c : SegmentCache)

/-- `ensure_dir`. -/
def ensureDir : SegmentCache :=
  { c with folders := Function.update c.folders c.eventId (some ((c.folders c.eventId).getD {})) }

/-- `build_index_locked`. -/
def buildIndex : SegmentCache :=
  { c with index := ((c.folders c.eventId).map CacheFolder.fileNos).getD ∅ }

/-- `SegmentCache::SegmentCache`, on a directory with these folders. -/
def new (folders : String → Option CacheFolder) (eventId : String) : SegmentCache :=
  ({ eventId, folders } : SegmentCache).ensureDir.buildIndex

/-- `sweep_orphans_locked`. -/
def sweepOrphans : SegmentCache :=
  { c with folders := fun e => if e = c.eventId then c.folders e else none }

/-- `SegmentCache::set_event`. -/
def setEvent (eventId : String) : SegmentCache :=
  if eventId = c.eventId then c
  else ({ c with eventId } : SegmentCache).sweepOrphans.ensureDir.buildIndex

/-- `has_init`: the file is there and is not empty. -/
def hasInit : Bool := ((c.folders c.eventId).bind (·.init)).any fun b => !b.isEmpty

/-- `load_init`, of the folder taken earlier. -/
def loadInit (path : String) : Option Bytes := (c.folders path).bind (·.init)

/-- `load`, of the folder taken earlier. -/
def load (path : String) (seq : ℕ) : Option Bytes :=
  (c.folders path).bind fun f => f.segs.lookup (fileNo seq)

/-- `write_atomic` of `init.mp4`, in the folder taken earlier; there is nowhere to write
once that is gone. -/
def writeInit (path : String) (b : Bytes) : Option SegmentCache :=
  (c.folders path).map fun f =>
    { c with folders := Function.update c.folders path (some { f with init := some b }) }

/-- `write_atomic` of a fragment. -/
def write (path : String) (seq : ℕ) (b : Bytes) : Option SegmentCache :=
  (c.folders path).map fun f =>
    { c with
      folders := Function.update c.folders path
        (some { f with segs := f.segs.insert (fileNo seq) b }) }

/-- `prune_below`: out of the index, and off the disk. -/
def pruneBelow (keepFrom : ℕ) : SegmentCache :=
  let gone := (c.index.filter (· < keepFrom)).image fileNo
  { c with
    index := c.index.filter (keepFrom ≤ ·)
    folders := Function.update c.folders c.eventId
      ((c.folders c.eventId).map fun f => { f with segs := eraseFiles f.segs gone }) }

/-- `lowest_seq`. -/
def lowestSeq : ℕ := c.index.min.untopD 0

/-- The bound on the cache: more than `maxCached` segments, and the lowest go. -/
def pruneExcess (maxCached : ℤ) : SegmentCache :=
  if maxCached < (c.index.card : ℤ) then
    let excess := wrapU64 (c.index.card + 2 ^ 64 - toU64 maxCached)
    c.pruneBelow (wrapU64 (c.lowestSeq + excess))
  else c

end SegmentCache

end Multisite

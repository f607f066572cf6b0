import Multisite.Lib.Run
import Multisite.Decoder.Playback

/-!
The decoder session at work: the thread that polls and downloads, the one that asks for
the next segment, and the operator's.

Every action is one critical section or one use of a file or of the store; between two of
them the other threads may do theirs, so the runs of `DecoderSession.step` are all
interleavings.  An operation called from first to last with nothing between its sections
is one of them.
-/

namespace Multisite

/-- One step of one thread, with the replies it got. -/
inductive DecoderAction where
  /-- `poll`. -/
  | poll (now : ℤ)
  | readLive (r : Reply (Option LivePointer))
  | readEvent (r : PollReplies)
  /-- `pump_downloads`, whose planning takes `fuel` rounds at most. -/
  | pumpDownloads (max : ℤ) (fuel : ℕ)
  | getInit (r : Reply Bytes)
  | writeInit (ok : Bool)
  | getSegment (r : Reply Bytes)
  | writeSegment (ok : Bool)
  | indexSegment
  | commitDownloads
  /-- `next_segment`. -/
  | nextSegment
  | openSegment
  | loadSegment
  | openInit
  | loadInit
  | commitSegment
  /-- The operator and the host. -/
  | start
  | pause
  | resume
  | jumpToLive
  | requestInit
  | seek (seq : ℕ)
  | pinEvent (id : String)
  | unpin
  | seekToMediaMs (mediaMs : ℤ)
  | seekToWallMs (wallMs : ℤ)
  | jumpToMarker (id : String)
  | proceed
  deriving DecidableEq, Repr

namespace DecoderSession

variable (cfg : DecoderConfig) (s : DecoderSession)

/-- The steps of the thread that polls and downloads. -/
def stepNet : DecoderAction → Option DecoderSession
  | .poll now =>
      if s.net = .idle then
        some { s.noteStalled with net := .pollingLive now s.pinnedEventId }
      else none
  | .readLive r =>
      match s.net with
      | .pollingLive now pinned => some (s.pollLive now pinned r)
      | _ => none
  | .readEvent r =>
      match s.net with
      | .pollingEvent now live _ needMarkers => some (s.pollEvent cfg now live needMarkers r)
      | _ => none
  | .pumpDownloads max fuel => if s.net = .idle then s.pumpPlan cfg max fuel else none
  | .getInit r =>
      match s.net with
      | .fetchingInit p => some (s.pumpInit p r)
      | _ => none
  | .writeInit ok =>
      match s.net with
      | .writingInit p path body => some (s.pumpInitWrite p path body ok)
      | _ => none
  | .getSegment r =>
      match s.net with
      | .fetching p =>
          match p.wanted with
          | (seq, sum) :: rest => some (s.pumpSegment cfg { p with wanted := rest } seq sum r)
          | [] => none
      | _ => none
  | .writeSegment ok =>
      match s.net with
      | .writing p path seq body => some (s.pumpWrite p path seq body ok)
      | _ => none
  | .indexSegment =>
      match s.net with
      | .indexing p seq => some (s.pumpIndex p seq)
      | _ => none
  | .commitDownloads =>
      match s.net with
      | .fetching p => if p.wanted = [] then some (s.pumpCommit cfg p) else none
      | _ => none
  | _ => none

/-- The steps of `next_segment`. -/
def stepFeed : DecoderAction → Option DecoderSession
  | .nextSegment => if s.feed = .idle then some s.nextSegment else none
  | .openSegment =>
      match s.feed with
      | .chosen c => some { s with feed := .loading c s.cache.eventId }
      | _ => none
  | .loadSegment =>
      match s.feed with
      | .loading c path => some (s.nextLoad c path)
      | _ => none
  | .openInit =>
      match s.feed with
      | .loaded c => some (s.nextLoaded c)
      | _ => none
  | .loadInit =>
      match s.feed with
      | .loadingInit c path => some (s.nextLoadInit c path)
      | _ => none
  | .commitSegment =>
      match s.feed with
      | .committing c init => some (s.nextCommit c init)
      | _ => none
  | _ => none

/-- The steps of the operator and the host. -/
def stepControl : DecoderAction → Option DecoderSession
  | .start => some (s.start cfg)
  | .pause => some s.pause
  | .resume => some s.resume
  | .jumpToLive => some (s.jumpToLive cfg)
  | .requestInit => some s.requestInit
  | .seek seq => some (s.seek seq)
  | .pinEvent id => some (s.pinEvent id)
  | .unpin => some s.unpin
  | .seekToMediaMs mediaMs =>
      if s.control = .idle then some (s.seekToMediaMs mediaMs) else none
  | .seekToWallMs wallMs =>
      if s.control = .idle then some (s.seekToWallMs wallMs none) else none
  | .jumpToMarker id => if s.control = .idle then some (s.jumpToMarker id) else none
  | .proceed =>
      match s.control with
      | .idle => none
      | .seating seq skip => some (s.seat seq skip)
      | .seeking target skip orElse => some (s.wallSeek target skip orElse)
      | .skipping skip => some { s with control := .idle, pendingSkipMs := skip }
      | .fallingBack target => some { s.seek target with control := .idle }
  | _ => none

/-- One step of a run. -/
def step (a : DecoderAction) : Option DecoderSession :=
  (s.stepNet cfg a).or ((s.stepFeed a).or (s.stepControl cfg a))

/-- The segment a step hands to the host. -/
def handed : DecoderAction → Option PlayableSegment
  | .commitSegment =>
      match s.feed with
      | .committing c init => s.returned c init
      | _ => none
  | _ => none

end DecoderSession

end Multisite

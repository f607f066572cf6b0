import Multisite.Lib.Alike
import Multisite.Decoder.Steps

/-!
What an event change forgets (`poll`).

A poll that finds another event puts the head, the play state, the cues and the refusals
back, and the cache on the new event's folder.  The manifest, the bounds, the segment
lengths, a pending skip and the room stay until the commit of a poll writes over them, and
the pending skip past that.

* `switch_remembers`: a switch whose manifest does not arrive shows the old live edge;
* `switch_forgets`: what survives a switch is the `Leftover`; where there was none, or the
  switching poll writes over all of it, no calls tell the session from a new one.
-/

namespace Multisite

open DecoderSession

/-! ### The statement -/

/-- What the event change of `poll` does not put back. -/
structure Leftover where
  manifest : Manifest := {}
  manifestUpdatedMs : ℤ := 0
  latestSeq : ℕ := 0
  firstAvailableSeq : ℕ := 0
  segmentDurationS : ℚ := 6
  startedAtMs : ℤ := 0
  measuredSegmentMs : ℤ := 0
  pendingSkipMs : ℤ := 0
  room : RoomState := .unknown
  deriving DecidableEq

/-- What this session would bring into another event. -/
def DecoderSession.leftover (s : DecoderSession) : Leftover :=
  { manifest := s.manifest, manifestUpdatedMs := s.manifestUpdatedMs, latestSeq := s.latestSeq
    firstAvailableSeq := s.firstAvailableSeq, segmentDurationS := s.segmentDurationS
    startedAtMs := s.startedAtMs, measuredSegmentMs := s.measuredSegmentMs
    pendingSkipMs := s.pendingSkipMs, room := s.room }

/-- The replies to the rest of a poll write over every figure that is left over. -/
def Leftover.Overwritten (l : Leftover) (r : PollReplies) : Prop :=
  ∃ m, r.manifest.success = true ∧ r.manifest.body = some m ∧
    protocolReadable m.protocolVersion = true ∧
    (l.segmentDurationS = 6 ∨ 1 / 10 < m.streamDurationHint ∨ 1 / 10 < (startOf m r.event).2) ∧
    (l.measuredSegmentMs = 0 ∨ (measuredMs m.segments).isSome = true)

/-- There is nothing to write over: no manifest was ever read, and the room is not known
either, or will be. -/
def Leftover.Nothing (l : Leftover) (r : PollReplies) : Prop :=
  { l with room := .unknown } = ({} : Leftover) ∧
    (l.room = .unknown ∨ r.manifest.success = true ∨ r.manifest.cancelled = false)

/-- Nothing of the old event is left after a poll with these replies. -/
def Leftover.Forgotten (l : Leftover) (r : PollReplies) : Prop :=
  l.pendingSkipMs = 0 ∧ (l.Overwritten r ∨ l.Nothing r)

/-- No call is under way. -/
structure DecoderSession.AtRest (s : DecoderSession) : Prop where
  net : s.net = .idle
  feed : s.feed = .idle
  control : s.control = .idle

/-- What a caller sees of a session: its position, where a seek would be taken, and the
requests under way with the checksums they demand. -/
structure Sight where
  playbackHead : ℕ
  liveEdge : ℕ
  earliestAvailable : ℕ
  segmentMs : ℤ
  mediaMsForSeq : ℕ → ℤ
  retains : ℕ → Bool
  room : RoomState
  play : PlayState
  canStartNow : Bool
  net : NetPc
  feed : FeedPc
  control : ControlPc

/-- What a caller of this session sees. -/
def DecoderSession.sight (cfg : DecoderConfig) (s : DecoderSession) : Sight :=
  { playbackHead := s.head, liveEdge := s.latestSeq, earliestAvailable := s.firstAvailableSeq
    segmentMs := s.segmentMs, mediaMsForSeq := fun seq => seq * s.segmentMs
    retains := fun seq => decide (s.Retains seq), room := s.room, play := s.play
    canStartNow := (s.startPlan cfg).ready, net := s.net, feed := s.feed, control := s.control }

/-- What is seen of a session as it goes through these steps. -/
def DecoderSession.seen (cfg : DecoderConfig) (s : DecoderSession) (as : List DecoderAction) :
    List (Sight × Option (Option PlayableSegment)) :=
  Lib.record (step cfg) (sight cfg) handed s as

/-- A poll with these replies, from first to last. -/
def wholePoll (now : ℤ) (r : Reply (Option LivePointer)) (rs : PollReplies) :
    List DecoderAction :=
  [.poll now, .readLive r, .readEvent rs]

/-! ### What is not seen -/

namespace DecoderSession

variable {cfg : DecoderConfig} {s t : DecoderSession} {a : DecoderAction}

/-- A session without its counters, its last error, and what it remembers of the ends it
reads from.  It unfolds by itself, so that a condition on it is one on the session. -/
abbrev plain (s : DecoderSession) : DecoderSession :=
  { s with
    lastError := ""
    roomIsLive := false
    manifestStalled := false
    switchedTarget := false
    secondary := false
    discontinuity := 0
    stats := {} }

@[simp] lemma plain_noteStalled : s.noteStalled.plain = s.plain := by
  rw [noteStalled]
  split <;> rfl

lemma plain_enterEvent (now : ℤ) (live : LivePointer) (target : String) :
    (s.plain.enterEvent now live target).plain = (s.enterEvent now live target).plain := by
  simp only [enterEvent, switchEvent]
  split_ifs <;> rfl

lemma plain_pollLive (now : ℤ) (pinned : String) (r : Reply (Option LivePointer)) :
    (s.plain.pollLive now pinned r).plain = (s.pollLive now pinned r).plain := by
  simp only [pollLive, noTarget]
  split
  · split <;> rfl
  · exact plain_enterEvent ..

/-- What a manifest says of the room does not depend on what was thought of it. -/
lemma plain_seen (now : ℤ) (live : LivePointer) {s t : DecoderSession}
    (h : ({ s with room := .unknown } : DecoderSession).plain =
      ({ t with room := .unknown } : DecoderSession).plain) :
    ((s.seeRoom cfg now live).holdFinished cfg).plain =
      ((t.seeRoom cfg now live).holdFinished cfg).plain := by
  have key : ∀ u : DecoderSession, ((u.seeRoom cfg now live).holdFinished cfg).plain =
      (((({ u with room := .unknown } : DecoderSession).plain.seeRoom cfg now live).holdFinished
        cfg).plain) := by
    intro u
    simp only [holdFinished, seeRoom]
    split_ifs <;> rfl
  rw [key s, key t, h]

lemma plain_pollEvent (now : ℤ) (live : LivePointer) (needMarkers : Bool) (r : PollReplies) :
    (s.plain.pollEvent cfg now live needMarkers r).plain =
      (s.pollEvent cfg now live needMarkers r).plain := by
  simp only [pollEvent]
  split
  · split
    · rfl
    · split
      · exact plain_seen now live rfl
      · rfl
  · split <;> rfl

lemma plain_pumpPlan (max : ℤ) (fuel : ℕ) :
    (s.plain.pumpPlan cfg max fuel).map plain = (s.pumpPlan cfg max fuel).map plain := by
  rw [pumpPlan, pumpPlan]
  split
  · rfl
  · rw [Option.map_map, Option.map_map]
    rfl

lemma plain_floorSkip : s.plain.floorSkip.plain = s.floorSkip.plain := by
  simp only [floorSkip]
  split_ifs <;> rfl

/-- `next_segment` once the head is at the floor at least. -/
def fromFloor (s : DecoderSession) : DecoderSession :=
  if s.latestSeq < s.head then s
  else
    match s.gapSkip with
    | some skipped => skipped
    | none =>
        if s.head ∈ s.cache.index then s.choose
        else if s.givenUp then s.refusalSkip
        else s.waited

lemma plain_fromFloor : s.plain.fromFloor.plain = s.fromFloor.plain := by
  have hup : s.plain.givenUp = s.givenUp := rfl
  simp only [fromFloor, gapSkip, hup]
  split_ifs
  · rfl
  · cases s.manifest.gapEnd s.head <;> rfl
  · cases s.manifest.gapEnd s.head <;> rfl
  · cases s.manifest.gapEnd s.head <;> rfl

lemma plain_nextSegment : s.plain.nextSegment.plain = s.nextSegment.plain := by
  have hrest : ∀ u : DecoderSession, u.nextSegment =
      if u.play ≠ .playing ∨ u.headSet = false then u
      else if u.latestSeq < u.head then u else u.floorSkip.fromFloor := fun _ => rfl
  rw [hrest, hrest]
  split_ifs
  · rfl
  · rfl
  · rw [← plain_fromFloor, plain_floorSkip, plain_fromFloor]

lemma plain_seek (seq : ℕ) : (s.plain.seek seq).plain = (s.seek seq).plain := by
  rw [seek, seek]
  by_cases h : s.Retains seq
  · rw [if_pos h, if_pos (show s.plain.Retains seq from h)]
    rfl
  · rw [if_neg h, if_neg (show ¬ s.plain.Retains seq from h)]

lemma plain_seat (seq : ℕ) (skip : ℤ) : (s.plain.seat seq skip).plain = (s.seat seq skip).plain := by
  simp only [seat]
  by_cases h : s.Retains seq
  · rw [if_pos (show ({ s with control := .idle } : DecoderSession).Retains seq from h),
      if_pos (show ({ s.plain with control := .idle } : DecoderSession).Retains seq from h)]
    rfl
  · rw [if_neg (show ¬ ({ s with control := .idle } : DecoderSession).Retains seq from h),
      if_neg (show ¬ ({ s.plain with control := .idle } : DecoderSession).Retains seq from h)]

lemma plain_seekToWallMs (ms : ℤ) (orElse : Option ℕ) :
    (s.plain.seekToWallMs ms orElse).plain = (s.seekToWallMs ms orElse).plain := by
  have h : s.plain.wallTarget ms = s.wallTarget ms := rfl
  rw [seekToWallMs, seekToWallMs, h]
  split <;> rfl

lemma plain_wallSeek (target : ℕ) (skip : ℤ) (orElse : Option ℕ) :
    (s.plain.wallSeek target skip orElse).plain = (s.wallSeek target skip orElse).plain := by
  rw [wallSeek, wallSeek]
  by_cases h : s.Retains target
  · rw [if_pos h, if_pos (show s.plain.Retains target from h)]
    rfl
  · rw [if_neg h, if_neg (show ¬ s.plain.Retains target from h)]
    rfl

lemma plain_jumpToMarker (id : String) :
    (s.plain.jumpToMarker id).plain = (s.jumpToMarker id).plain := by
  simp only [jumpToMarker]
  split
  · rfl
  · split
    · exact plain_seekToWallMs ..
    · rfl

lemma plain_start : (s.plain.start cfg).plain = (s.start cfg).plain := by
  have h : s.plain.startPlan cfg = s.startPlan cfg := rfl
  simp only [start, h]
  split_ifs <;> rfl

lemma plain_stepNet (a : DecoderAction) :
    (s.plain.stepNet cfg a).map plain = (s.stepNet cfg a).map plain := by
  cases a with
  | poll now =>
      simp only [stepNet]
      split_ifs
      · have h : ∀ u : DecoderSession, ({ u.noteStalled with
            net := .pollingLive now s.pinnedEventId } : DecoderSession).plain =
            { u.noteStalled.plain with net := .pollingLive now s.pinnedEventId } := fun _ => rfl
        rw [Option.map_some, Option.map_some, h, h, plain_noteStalled, plain_noteStalled]
      · rfl
  | readLive r =>
      simp only [stepNet]
      split
      · exact congrArg some (plain_pollLive ..)
      · rfl
  | readEvent r =>
      simp only [stepNet]
      split
      · exact congrArg some (plain_pollEvent ..)
      · rfl
  | pumpDownloads max fuel =>
      simp only [stepNet]
      split_ifs
      · exact plain_pumpPlan max fuel
      · rfl
  | getInit r =>
      simp only [stepNet, pumpInit]
      split
      · split_ifs <;> rfl
      · rfl
  | writeInit ok =>
      simp only [stepNet, pumpInitWrite]
      split
      · split <;> rfl
      · rfl
  | getSegment r =>
      simp only [stepNet, pumpSegment]
      split
      · split
        · split_ifs <;> rfl
        · rfl
      · rfl
  | writeSegment ok =>
      simp only [stepNet, pumpWrite]
      split
      · split <;> rfl
      · rfl
  | indexSegment =>
      simp only [stepNet]
      split <;> rfl
  | commitDownloads =>
      simp only [stepNet]
      split
      · split_ifs <;> rfl
      · rfl
  | _ => rfl

lemma plain_stepFeed (a : DecoderAction) :
    (s.plain.stepFeed a).map plain = (s.stepFeed a).map plain := by
  cases a with
  | nextSegment =>
      simp only [stepFeed]
      split_ifs
      · exact congrArg some plain_nextSegment
      · rfl
  | openSegment =>
      simp only [stepFeed]
      split <;> rfl
  | loadSegment =>
      simp only [stepFeed, nextLoad]
      split
      · split <;> rfl
      · rfl
  | openInit =>
      simp only [stepFeed]
      split <;> rfl
  | loadInit =>
      simp only [stepFeed, nextLoadInit]
      split
      · split <;> rfl
      · rfl
  | commitSegment =>
      simp only [stepFeed]
      split
      · rename_i c init hpc
        have h : s.plain.returned c init = s.returned c init := rfl
        rw [nextCommit, nextCommit, h]
        split_ifs <;> rfl
      · rfl
  | _ => rfl

lemma plain_stepControl (a : DecoderAction) :
    (s.plain.stepControl cfg a).map plain = (s.stepControl cfg a).map plain := by
  cases a with
  | start => exact congrArg some plain_start
  | seek seq => exact congrArg some (plain_seek seq)
  | seekToMediaMs ms =>
      have h : s.plain.segmentMs = s.segmentMs := rfl
      simp only [stepControl, seekToMediaMs, h]
      split_ifs <;> rfl
  | seekToWallMs ms =>
      simp only [stepControl]
      split_ifs
      · exact congrArg some (plain_seekToWallMs ms none)
      · rfl
  | jumpToMarker id =>
      simp only [stepControl]
      split_ifs
      · exact congrArg some (plain_jumpToMarker id)
      · rfl
  | proceed =>
      simp only [stepControl]
      split
      · rfl
      · exact congrArg some (plain_seat ..)
      · exact congrArg some (plain_wallSeek ..)
      · rfl
      · rename_i target hpc
        exact congrArg (fun u => some { u with control := .idle }) (plain_seek target)
  | _ => rfl

/-- **No step goes by what is not seen.** -/
lemma plain_step (a : DecoderAction) :
    (s.plain.step cfg a).map plain = (s.step cfg a).map plain := by
  rw [step, step, Option.map_or, Option.map_or, Option.map_or, Option.map_or, plain_stepNet,
    plain_stepFeed, plain_stepControl]

/-- What is not seen hides nothing a step goes by. -/
lemma hides_plain (cfg : DecoderConfig) : Lib.Hides (step cfg) (sight cfg) handed plain :=
  ⟨fun _ a => plain_step a, fun _ => rfl, fun s a => by cases a <;> rfl⟩

/-! ### The cache at a switch -/

/-- The cache is on the folder of the event, or on the placeholder. -/
def CacheOn (s : DecoderSession) : Prop :=
  s.cache.eventId = if s.eventId = "" then "pending" else s.eventId

lemma CacheOn.of_eq (h : s.CacheOn) (hcache : t.cache.eventId = s.cache.eventId)
    (hevent : t.eventId = s.eventId) : t.CacheOn := by
  rw [CacheOn, hcache, hevent]
  exact h

lemma eventId_setEvent (c : SegmentCache) (id : String) : (c.setEvent id).eventId = id := by
  rw [SegmentCache.setEvent]
  split
  · rename_i h
    exact h.symm
  · rfl

/-- **A step keeps the cache on the event's folder.** -/
lemma CacheOn.step (h : s.CacheOn) (ht : Steps cfg s a t) : t.CacheOn := by
  cases ha : a.isNet with
  | false =>
      cases hpin : a.isPin with
      | false =>
          have hl := (leaves_of_not_net ht ha hpin).1
          exact h.of_eq (congrArg (·.cache.eventId) hl) (congrArg Loaded.eventId hl)
      | true =>
          cases ht with
          | pinEvent => exact h.of_eq rfl rfl
          | unpin => exact h.of_eq rfl rfl
          | _ => exact absurd hpin (by simp [DecoderAction.isPin])
  | true =>
      cases ht with
      | poll =>
          rw [noteStalled]
          split <;> exact h.of_eq rfl rfl
      | readLive =>
          simp only [pollLive]
          split
          · rw [noTarget]
            split <;> exact h.of_eq rfl rfl
          · rename_i hne
            simp only [enterEvent, switchEvent]
            split
            · rw [CacheOn, if_neg hne]
              exact eventId_setEvent ..
            · exact h.of_eq rfl rfl
      | readEvent =>
          obtain ⟨-, hcache, hevent, -⟩ := pollEvent_frame cfg s _ _ _ _
          exact h.of_eq (congrArg SegmentCache.eventId hcache) hevent
      | plan _ hp =>
          rw [pumpPlan] at hp
          split at hp
          · rw [← Option.some.inj hp]
            exact h
          · obtain ⟨wanted, -, rfl⟩ := Option.map_eq_some_iff.mp hp
            exact h
      | getInit =>
          rw [pumpInit]
          split_ifs <;> exact h.of_eq rfl rfl
      | writeInit =>
          rw [pumpInitWrite]
          split
          · rename_i cache hc
            split at hc
            · obtain ⟨f, -, rfl⟩ := Option.map_eq_some_iff.mp hc
              exact h.of_eq rfl rfl
            · exact absurd hc (by simp)
          · exact h.of_eq rfl rfl
      | getSegment =>
          rw [pumpSegment]
          split_ifs <;> exact h.of_eq rfl rfl
      | writeSegment =>
          rw [pumpWrite]
          split
          · rename_i cache hc
            split at hc
            · obtain ⟨f, -, rfl⟩ := Option.map_eq_some_iff.mp hc
              exact h.of_eq rfl rfl
            · exact absurd hc (by simp)
          · exact h.of_eq rfl rfl
      | indexSegment => exact h.of_eq rfl rfl
      | commitDownloads =>
          refine h.of_eq ?_ rfl
          simp only [pumpCommit, prune, pruneBehind, SegmentCache.pruneExcess]
          split_ifs <;> rfl
      | _ => exact absurd ha (by simp [DecoderAction.isNet])

lemma cacheOn_reached {folders : String → Option CacheFolder}
    (h : Lib.Reach (DecoderSession.step cfg) Lib.anyStep (· = new cfg folders) s) : s.CacheOn :=
  h.invariant (fun _ h0 => by rw [h0]; rfl) fun _ _ _ hI _ ht => hI.step (steps_of_step ht)

/-- A cache that changes to an event keeps that event's folder, and nothing else. -/
lemma setEvent_eq {c d : SegmentCache} {id : String} (hc : c.eventId ≠ id) (hd : d.eventId ≠ id)
    (hf : c.folders id = d.folders id) : c.setEvent id = d.setEvent id := by
  have hsweep : ∀ e : SegmentCache, ({ e with eventId := id } : SegmentCache).sweepOrphans =
      { eventId := id, index := e.index
        folders := fun f => if f = id then e.folders id else none } := by
    intro e
    rw [SegmentCache.sweepOrphans]
    congr 1
    funext f
    dsimp only
    split
    · rename_i h
      rw [h]
    · rfl
  rw [SegmentCache.setEvent, SegmentCache.setEvent, if_neg hc.symm, if_neg hd.symm, hsweep, hsweep,
    hf]
  rfl

/-! ### The switch -/

/-- The session with this left over from another event. -/
def carrying (s : DecoderSession) (l : Leftover) : DecoderSession :=
  { s with
    manifest := l.manifest
    manifestUpdatedMs := l.manifestUpdatedMs
    latestSeq := l.latestSeq
    firstAvailableSeq := l.firstAvailableSeq
    segmentDurationS := l.segmentDurationS
    startedAtMs := l.startedAtMs
    measuredSegmentMs := l.measuredSegmentMs
    pendingSkipMs := l.pendingSkipMs
    room := l.room }

/-- A poll begun. -/
def polling (s : DecoderSession) (now : ℤ) : DecoderSession :=
  { s.noteStalled with net := .pollingLive now s.pinnedEventId }

lemma plain_polling (now : ℤ) : (s.polling now).plain =
    ({ s with net := .pollingLive now s.pinnedEventId } : DecoderSession).plain := by
  simp only [polling, noteStalled]
  split <;> rfl

/-- **What is left over is all that a switch brings along.** -/
lemma plain_enterEvent_eq (h : s.AtRest) {u : DecoderSession} (hu : u.AtRest)
    (hpin : s.pinnedEventId = u.pinnedEventId) {id : String} (hs : id ≠ s.eventId)
    (hud : id ≠ u.eventId) (hcache : s.cache.setEvent id = u.cache.setEvent id) (now : ℤ)
    (live : LivePointer) :
    ((s.polling now).enterEvent now live id).plain =
      (((u.polling now).enterEvent now live id).carrying s.leftover).plain := by
  have key : ∀ w : DecoderSession, ((w.polling now).enterEvent now live id).plain =
      (({ w with net := .pollingLive now w.pinnedEventId } : DecoderSession).enterEvent now live
        id).plain := by
    intro w
    rw [← plain_enterEvent, plain_polling, plain_enterEvent]
  have hcarry : ∀ (w : DecoderSession) (l : Leftover),
      (w.carrying l).plain = (w.plain.carrying l).plain := fun _ _ => rfl
  rw [key s, hcarry, key u, ← hcarry]
  simp only [enterEvent, switchEvent, carrying, leftover]
  rw [if_pos hs, if_pos hud]
  simp only [hcache, hpin, h.feed, hu.feed, h.control, hu.control]

/-- Where nothing is left over but the room, that is all the session brings along. -/
lemma carrying_eq_of_nothing (hu : s.leftover = {}) {l : Leftover}
    (hl : { l with room := .unknown } = ({} : Leftover)) :
    s.carrying l = { s with room := l.room } := by
  have hs : s.carrying {} = s := by
    rw [← hu]
    rfl
  have hroom : l = { room := l.room } :=
    calc l = { ({ l with room := .unknown } : Leftover) with room := l.room } := rfl
      _ = { room := l.room } := by rw [hl]
  calc s.carrying l = { s.carrying {} with room := l.room } := by
        rw [hroom]
        rfl
    _ = { s with room := l.room } := by rw [hs]

lemma plain_pollEvent_room {room : RoomState} {r : PollReplies} (hr : room = s.room ∨
    r.manifest.success = true ∨ r.manifest.cancelled = false) (now : ℤ) (live : LivePointer)
    (needMarkers : Bool) :
    (({ s with room } : DecoderSession).pollEvent cfg now live needMarkers r).plain =
      (s.pollEvent cfg now live needMarkers r).plain := by
  simp only [pollEvent]
  split
  · split
    · rfl
    · split
      · exact plain_seen now live rfl
      · rfl
  · rename_i hfail
    split
    · rename_i hcancelled
      rcases hr with rfl | hr | hr
      · rfl
      · exact absurd hr hfail
      · exact absurd hcancelled (by simp [hr])
    · rfl

/-- The commit of a poll writes over the figures the manifest gives. -/
lemma plain_takeManifest (hu : s.leftover = {}) {l : Leftover} (hskip : l.pendingSkipMs = 0)
    {m : Manifest} {hint : ℚ}
    (hdur : l.segmentDurationS = 6 ∨ 1 / 10 < m.streamDurationHint ∨ 1 / 10 < hint)
    (hms : l.measuredSegmentMs = 0 ∨ (measuredMs m.segments).isSome = true)
    (cues : Option (List Marker)) (startedAt : ℤ) :
    ({ (s.carrying l).takeManifest m cues startedAt hint with room := .unknown } :
        DecoderSession).plain =
      ({ s.takeManifest m cues startedAt hint with room := .unknown } : DecoderSession).plain := by
  obtain ⟨m', hm', hhint, hsegments⟩ : ∃ m', (if 0 < startedAt then
      { m with startedAtMs := startedAt } else m) = m' ∧
      m'.streamDurationHint = m.streamDurationHint ∧ m'.segments = m.segments :=
    ⟨_, rfl, by split <;> rfl, by split <;> rfl⟩
  rw [← hhint] at hdur
  rw [← hsegments] at hms
  have hs6 : s.segmentDurationS = 6 := congrArg Leftover.segmentDurationS hu
  have hs0 : s.measuredSegmentMs = 0 := congrArg Leftover.measuredSegmentMs hu
  have hsskip : s.pendingSkipMs = 0 := congrArg Leftover.pendingSkipMs hu
  have hd : (if 1 / 10 < m'.streamDurationHint then m'.streamDurationHint
      else if 1 / 10 < hint then hint else l.segmentDurationS) =
      (if 1 / 10 < m'.streamDurationHint then m'.streamDurationHint
      else if 1 / 10 < hint then hint else s.segmentDurationS) := by
    rcases hdur with h | h | h
    · rw [h, hs6]
    · rw [if_pos h, if_pos h]
    · rw [if_pos h, if_pos h]
  have hm : (measuredMs m'.segments).getD l.measuredSegmentMs =
      (measuredMs m'.segments).getD s.measuredSegmentMs := by
    rcases hms with h | h
    · rw [h, hs0]
    · obtain ⟨ms, h⟩ := Option.isSome_iff_exists.mp h
      rw [h]
      rfl
  simp only [takeManifest, carrying, hm', hd, hm, hskip, hsskip]

/-- **The rest of a poll forgets what is left over**, where it writes over all of it. -/
lemma plain_pollEvent_carrying (hu : s.leftover = {}) {l : Leftover} {r : PollReplies}
    (hl : l.Forgotten r) (now : ℤ) (live : LivePointer) (needMarkers : Bool) :
    ((s.carrying l).pollEvent cfg now live needMarkers r).plain =
      (s.pollEvent cfg now live needMarkers r).plain := by
  obtain ⟨hskip, ⟨m, hok, hm, hread, hdur, hms⟩ | ⟨hnone, hroom⟩⟩ := hl
  · simp only [pollEvent, hok, hm, hread, if_true]
    exact plain_seen now live (plain_takeManifest (s := { s with net := .idle }) hu hskip hdur hms ..)
  · rw [carrying_eq_of_nothing hu hnone]
    have hsroom : s.room = .unknown := congrArg Leftover.room hu
    exact plain_pollEvent_room (hroom.imp_left fun h => h.trans hsroom.symm) now live needMarkers

/-- A poll that finds another event, from first to last. -/
lemma run_wholePoll (h : s.AtRest) {now : ℤ} {r : Reply (Option LivePointer)} {rs : PollReplies}
    {id : String} (hid : id ≠ "") (hne : id ≠ s.eventId)
    (htarget : pollTarget s.pinnedEventId (readLive r).1 = id) :
    Lib.run (step cfg) s (wholePoll now r rs) =
      some (((s.polling now).enterEvent now (readLive r).1 id).pollEvent cfg now (readLive r).1
        (decide (5000 < now)) rs) := by
  have hevent : (s.polling now).eventId = s.eventId := by
    simp only [polling, noteStalled]
    split <;> rfl
  have h1 : s.step cfg (.poll now) = some (s.polling now) := by
    simp only [step, stepNet, h.net, if_true]
    rfl
  have h2 : (s.polling now).step cfg (.readLive r) =
      some ((s.polling now).enterEvent now (readLive r).1 id) := by
    have hlive : (s.polling now).pollLive now s.pinnedEventId r =
        (s.polling now).enterEvent now (readLive r).1 id := by
      simp only [pollLive, htarget]
      rw [if_neg hid]
    rw [← hlive]
    rfl
  have hnet : ((s.polling now).enterEvent now (readLive r).1 id).net =
      .pollingEvent now (readLive r).1 id (decide (5000 < now)) := by
    simp only [enterEvent, switchEvent, hevent]
    rw [if_pos hne, sub_zero]
  have h3 : ((s.polling now).enterEvent now (readLive r).1 id).step cfg (.readEvent rs) =
      some (((s.polling now).enterEvent now (readLive r).1 id).pollEvent cfg now (readLive r).1
        (decide (5000 < now)) rs) := by
    simp only [step, stepNet, hnet]
    rfl
  simp only [wholePoll, Lib.run, h1, h2, h3, Option.bind_some]

/-- The event change of a poll puts nothing of it back. -/
lemma leftover_enterEvent {now : ℤ} {live : LivePointer} {id : String} :
    ((s.polling now).enterEvent now live id).leftover = s.leftover := by
  have hpoll : (s.polling now).leftover = s.leftover := by
    simp only [polling, noteStalled]
    split <;> rfl
  rw [← hpoll]
  simp only [enterEvent, switchEvent]
  split <;> rfl

end DecoderSession

/-! ### The claim -/

section Claim

variable {cfg : DecoderConfig} {s : DecoderSession} {installed : String → Option CacheFolder}

/-- **A switch forgets the old event** where nothing is left over from it, or the switching
poll writes over all that is: whatever is done next, what is seen is what a new session
shows, given the same choice of an event and the same files of the new one. -/
theorem switch_forgets (hs : Lib.Reach (step cfg) Lib.anyStep (· = new cfg installed) s)
    (hrest : s.AtRest) {now : ℤ} {r : Reply (Option LivePointer)} {rs : PollReplies} {id : String}
    (hid : id ≠ "") (hne : id ≠ s.eventId)
    (htarget : pollTarget s.pinnedEventId (readLive r).1 = id) (hpending : id ≠ "pending")
    (hleft : s.leftover.Forgotten rs) {folders : String → Option CacheFolder}
    (hfolder : folders id = s.cache.folders id) :
    ∃ t u, Lib.run (step cfg) s (wholePoll now r rs) = some t ∧
      Lib.run (step cfg) (new { cfg with pinnedEventId := s.pinnedEventId } folders)
        (wholePoll now r rs) = some u ∧
      ∀ as, t.seen cfg as = u.seen cfg as := by
  have hfresh : (new { cfg with pinnedEventId := s.pinnedEventId } folders).AtRest :=
    ⟨rfl, rfl, rfl⟩
  refine ⟨_, _, run_wholePoll hrest hid hne htarget, run_wholePoll hfresh hid hid htarget,
    fun as => (hides_plain cfg).record_eq as ?_⟩
  have hcache : s.cache.setEvent id =
      (new { cfg with pinnedEventId := s.pinnedEventId } folders).cache.setEvent id := by
    refine setEvent_eq ?_ hpending.symm ?_
    · rw [cacheOn_reached hs]
      split
      · exact hpending.symm
      · exact hne.symm
    · show _ = Function.update folders "pending" _ id
      rw [Function.update_of_ne hpending, hfolder]
  have henter := plain_enterEvent_eq hrest hfresh rfl hne hid hcache now (readLive r).1
  rw [← plain_pollEvent, henter, plain_pollEvent]
  exact plain_pollEvent_carrying leftover_enterEvent hleft ..

end Claim

/-! ### Two runs -/

/-- A recording of three segments, played and left for what is in the room. -/
def playThenUnpin : List DecoderAction :=
  playFirst
      { status := .ended, latestSeq := 2, updatedAtMs := 10
        segments := [{ seq := 1, durationS := 4, atMs := 4000 },
          { seq := 2, durationS := 4, atMs := 8000 }] }
      [0, 1, 2] ++
    [DecoderAction.unpin]

/-- The room moved on to this event. -/
def movedOn (id : String) : Reply (Option LivePointer) :=
  { body := some { eventId := id, updatedAtMs := 20 } }

/-- A manifest of two segments six seconds apart. -/
def twoListed : PollReplies :=
  { manifest :=
      { body := some
          { latestSeq := 5
            segments := [{ seq := 4, durationS := 6, atMs := 6000 },
              { seq := 5, durationS := 6, atMs := 12000 }] } } }

theorem switch_forgets_played : ∃ s, Lib.Reach (step sampleDecoder) Lib.anyStep
    (· = new sampleDecoder fun _ => none) s ∧ s.head = 1 ∧ s.segmentMs = 4000 ∧
      ∃ t u, Lib.run (step sampleDecoder) s (wholePoll 20 (movedOn "f") twoListed) = some t ∧
        Lib.run (step sampleDecoder) (new { sampleDecoder with pinnedEventId := s.pinnedEventId }
          fun _ => none) (wholePoll 20 (movedOn "f") twoListed) = some u ∧
        ∀ as, t.seen sampleDecoder as = u.seen sampleDecoder as := by
  obtain ⟨s, hs, hhead, hms, hnet, hfeed, hcontrol, hevent, hpin, hfolder, hskip⟩ :
      ∃ s, Lib.Reach (step sampleDecoder) Lib.anyStep (· = new sampleDecoder fun _ => none) s ∧
        s.head = 1 ∧ s.segmentMs = 4000 ∧ s.net = .idle ∧ s.feed = .idle ∧ s.control = .idle ∧
        s.eventId = "e" ∧ s.pinnedEventId = "" ∧ (s.cache.folders "f").isNone = true ∧
        s.pendingSkipMs = 0 :=
    Lib.exists_reach (new sampleDecoder fun _ => none) playThenUnpin rfl (by decide +kernel)
  refine ⟨s, hs, hhead, hms, switch_forgets hs ⟨hnet, hfeed, hcontrol⟩ (by decide : "f" ≠ "") ?_ ?_
    (by decide) ⟨hskip, Or.inl ⟨_, rfl, rfl, by decide, ?_, Or.inr (by decide)⟩⟩ ?_⟩
  · rw [hevent]
    decide
  · rw [hpin]
    rfl
  · exact Or.inr (Or.inl (by decide +kernel))
  · exact (Option.isNone_iff_eq_none.mp hfolder).symm

/-- **The switching poll finds no manifest, and the live edge is the old event's**, where a
new session shows none. -/
theorem switch_remembers : ∃ s, Lib.Reach (step sampleDecoder) Lib.anyStep
    (· = new sampleDecoder fun _ => none) s ∧
      s.net = .idle ∧ s.feed = .idle ∧ s.control = .idle ∧ s.eventId = "e" ∧
      s.pinnedEventId = sampleDecoder.pinnedEventId ∧ (s.cache.folders "f").isNone = true ∧
      ((Lib.run (step sampleDecoder) s (wholePoll 20 (movedOn "f")
          { manifest := { success := false, httpStatus := 503, body := none } })).map
        fun t => (t.sight sampleDecoder).liveEdge) = some 2 ∧
      ((Lib.run (step sampleDecoder) (new sampleDecoder fun _ => none) (wholePoll 20 (movedOn "f")
          { manifest := { success := false, httpStatus := 503, body := none } })).map
        fun t => (t.sight sampleDecoder).liveEdge) = some 0 :=
  Lib.exists_reach (new sampleDecoder fun _ => none) playThenUnpin rfl (by decide +kernel)

end Multisite

import Multisite.Decoder.Threads

/-!
What one step of the decoder session can do (`DecoderSession.Steps`), read off
`DecoderSession.step` once, and what a step leaves alone.

The position is the part of the state most results are about (`DecoderSession.playhead`):
only an event change, a move of the operator's, a skip and a commit touch it.
-/

namespace Multisite

/-- The steps of the thread that polls and downloads. -/
def DecoderAction.isNet : DecoderAction → Bool
  | .poll _ | .readLive _ | .readEvent _ | .pumpDownloads _ _ | .getInit _ | .writeInit _
  | .getSegment _ | .writeSegment _ | .indexSegment | .commitDownloads => true
  | _ => false

/-- The steps of `next_segment`. -/
def DecoderAction.isFeed : DecoderAction → Bool
  | .nextSegment | .openSegment | .loadSegment | .openInit | .loadInit | .commitSegment => true
  | _ => false

/-- The steps of `next_segment` between the choice of a segment and its commit. -/
def DecoderAction.isRead : DecoderAction → Bool
  | .openSegment | .loadSegment | .openInit | .loadInit => true
  | _ => false

/-- The operator's choice of an event. -/
def DecoderAction.isPin : DecoderAction → Bool
  | .pinEvent _ | .unpin => true
  | _ => false

/-- The steps of `poll`. -/
def DecoderAction.polls : DecoderAction → Bool
  | .poll _ | .readLive _ | .readEvent _ => true
  | _ => false

/-- A poll is under way. -/
def NetPc.polling : NetPc → Bool
  | .pollingLive _ _ | .pollingEvent _ _ _ _ => true
  | _ => false

/-- The segment `next_segment` has chosen, while it reads it. -/
def FeedPc.chosen? : FeedPc → Option Chosen
  | .idle => none
  | .chosen c | .loading c _ | .loaded c | .loadingInit c _ | .committing c _ => some c

/-- The `pump_downloads` under way. -/
def NetPc.pump? : NetPc → Option Pump
  | .fetchingInit p | .writingInit p _ _ | .fetching p | .writing p _ _ _ | .indexing p _ => some p
  | _ => none

/-- What a step can do. -/
inductive DecoderSession.Steps (cfg : DecoderConfig) (s : DecoderSession) :
    DecoderAction → DecoderSession → Prop
  | poll {now : ℤ} (hpc : s.net = .idle) :
      Steps cfg s (.poll now) { s.noteStalled with net := .pollingLive now s.pinnedEventId }
  | readLive {now : ℤ} {pinned : String} {r : Reply (Option LivePointer)}
      (hpc : s.net = .pollingLive now pinned) : Steps cfg s (.readLive r) (s.pollLive now pinned r)
  | readEvent {now : ℤ} {live : LivePointer} {id : String} {needMarkers : Bool} {r : PollReplies}
      (hpc : s.net = .pollingEvent now live id needMarkers) :
      Steps cfg s (.readEvent r) (s.pollEvent cfg now live needMarkers r)
  | plan {max : ℤ} {fuel : ℕ} {t : DecoderSession} (hpc : s.net = .idle)
      (ht : s.pumpPlan cfg max fuel = some t) : Steps cfg s (.pumpDownloads max fuel) t
  | getInit {p : Pump} {r : Reply Bytes} (hpc : s.net = .fetchingInit p) :
      Steps cfg s (.getInit r) (s.pumpInit p r)
  | writeInit {p : Pump} {path : String} {body : Bytes} {ok : Bool}
      (hpc : s.net = .writingInit p path body) :
      Steps cfg s (.writeInit ok) (s.pumpInitWrite p path body ok)
  | getSegment {p : Pump} {seq : ℕ} {sum : String} {rest : List (ℕ × String)} {r : Reply Bytes}
      (hpc : s.net = .fetching p) (hw : p.wanted = (seq, sum) :: rest) :
      Steps cfg s (.getSegment r) (s.pumpSegment cfg { p with wanted := rest } seq sum r)
  | writeSegment {p : Pump} {path : String} {seq : ℕ} {body : Bytes} {ok : Bool}
      (hpc : s.net = .writing p path seq body) :
      Steps cfg s (.writeSegment ok) (s.pumpWrite p path seq body ok)
  | indexSegment {p : Pump} {seq : ℕ} (hpc : s.net = .indexing p seq) :
      Steps cfg s .indexSegment (s.pumpIndex p seq)
  | commitDownloads {p : Pump} (hpc : s.net = .fetching p) (hw : p.wanted = []) :
      Steps cfg s .commitDownloads (s.pumpCommit cfg p)
  | nextSegment (hpc : s.feed = .idle) : Steps cfg s .nextSegment s.nextSegment
  | openSegment {c : Chosen} (hpc : s.feed = .chosen c) :
      Steps cfg s .openSegment { s with feed := .loading c s.cache.eventId }
  | loadSegment {c : Chosen} {path : String} (hpc : s.feed = .loading c path) :
      Steps cfg s .loadSegment (s.nextLoad c path)
  | openInit {c : Chosen} (hpc : s.feed = .loaded c) : Steps cfg s .openInit (s.nextLoaded c)
  | loadInit {c : Chosen} {path : String} (hpc : s.feed = .loadingInit c path) :
      Steps cfg s .loadInit (s.nextLoadInit c path)
  | commitSegment {c : Chosen} {init : Bytes} (hpc : s.feed = .committing c init) :
      Steps cfg s .commitSegment (s.nextCommit c init)
  | start : Steps cfg s .start (s.start cfg)
  | pause : Steps cfg s .pause s.pause
  | resume : Steps cfg s .resume s.resume
  | jumpToLive : Steps cfg s .jumpToLive (s.jumpToLive cfg)
  | requestInit : Steps cfg s .requestInit s.requestInit
  | seek {seq : ℕ} : Steps cfg s (.seek seq) (s.seek seq)
  | pinEvent {id : String} : Steps cfg s (.pinEvent id) (s.pinEvent id)
  | unpin : Steps cfg s .unpin s.unpin
  | seekToMediaMs {mediaMs : ℤ} (hpc : s.control = .idle) :
      Steps cfg s (.seekToMediaMs mediaMs) (s.seekToMediaMs mediaMs)
  | seekToWallMs {wallMs : ℤ} (hpc : s.control = .idle) :
      Steps cfg s (.seekToWallMs wallMs) (s.seekToWallMs wallMs none)
  | jumpToMarker {id : String} (hpc : s.control = .idle) :
      Steps cfg s (.jumpToMarker id) (s.jumpToMarker id)
  | seat {seq : ℕ} {skip : ℤ} (hpc : s.control = .seating seq skip) :
      Steps cfg s .proceed (s.seat seq skip)
  | wallSeek {target : ℕ} {skip : ℤ} {orElse : Option ℕ}
      (hpc : s.control = .seeking target skip orElse) :
      Steps cfg s .proceed (s.wallSeek target skip orElse)
  | skip {skip : ℤ} (hpc : s.control = .skipping skip) :
      Steps cfg s .proceed { s with control := .idle, pendingSkipMs := skip }
  | fallBack {target : ℕ} (hpc : s.control = .fallingBack target) :
      Steps cfg s .proceed { s.seek target with control := .idle }

lemma Manifest.gapEnd_eq_some {m : Manifest} {seq last : ℕ} (h : m.gapEnd seq = some last) :
    ∃ g ∈ m.gaps, g.1 ≤ seq ∧ seq ≤ g.2 ∧ g.2 = last := by
  obtain ⟨g, hg, rfl⟩ := Option.map_eq_some_iff.mp h
  have hmem := List.mem_of_find?_eq_some hg
  have hin := List.find?_some hg
  simp only [Bool.and_eq_true, decide_eq_true_eq] at hin
  exact ⟨g, hmem, hin.1, hin.2, rfl⟩

lemma wrapU64_of_lt {n : ℕ} (h : n < 2 ^ 64) : wrapU64 n = n := Nat.mod_eq_of_lt h

namespace DecoderSession

variable {cfg : DecoderConfig} {s t : DecoderSession} {a : DecoderAction}

/-- This reading of `live.json` changes the event. -/
def changesEvent (s : DecoderSession) (r : Reply (Option LivePointer)) : Bool :=
  match s.net with
  | .pollingLive _ pinned =>
      decide (pollTarget pinned (readLive r).1 ≠ "") &&
        decide (pollTarget pinned (readLive r).1 ≠ s.eventId)
  | _ => false

lemma steps_of_net (h : s.stepNet cfg a = some t) : Steps cfg s a t := by
  cases a with
  | poll now =>
      simp only [stepNet, Option.ite_none_right_eq_some, Option.some.injEq] at h
      obtain ⟨hpc, rfl⟩ := h
      exact .poll hpc
  | readLive r =>
      simp only [stepNet] at h
      split at h
      · rename_i now pinned hpc
        obtain rfl := Option.some.inj h
        exact .readLive hpc
      · exact absurd h (by simp)
  | readEvent r =>
      simp only [stepNet] at h
      split at h
      · rename_i now live id need hpc
        obtain rfl := Option.some.inj h
        exact .readEvent hpc
      · exact absurd h (by simp)
  | pumpDownloads max fuel =>
      simp only [stepNet, Option.ite_none_right_eq_some] at h
      exact .plan h.1 h.2
  | getInit r =>
      simp only [stepNet] at h
      split at h
      · rename_i p hpc
        obtain rfl := Option.some.inj h
        exact .getInit hpc
      · exact absurd h (by simp)
  | writeInit ok =>
      simp only [stepNet] at h
      split at h
      · rename_i p path body hpc
        obtain rfl := Option.some.inj h
        exact .writeInit hpc
      · exact absurd h (by simp)
  | getSegment r =>
      simp only [stepNet] at h
      split at h
      · rename_i p hpc
        split at h
        · rename_i seq sum rest hw
          obtain rfl := Option.some.inj h
          exact .getSegment hpc hw
        · exact absurd h (by simp)
      · exact absurd h (by simp)
  | writeSegment ok =>
      simp only [stepNet] at h
      split at h
      · rename_i p path seq body hpc
        obtain rfl := Option.some.inj h
        exact .writeSegment hpc
      · exact absurd h (by simp)
  | indexSegment =>
      simp only [stepNet] at h
      split at h
      · rename_i p seq hpc
        obtain rfl := Option.some.inj h
        exact .indexSegment hpc
      · exact absurd h (by simp)
  | commitDownloads =>
      simp only [stepNet] at h
      split at h
      · rename_i p hpc
        rw [Option.ite_none_right_eq_some, Option.some.injEq] at h
        obtain ⟨hw, rfl⟩ := h
        exact .commitDownloads hpc hw
      · exact absurd h (by simp)
  | _ => exact absurd h (by simp [stepNet])

lemma steps_of_feed (h : s.stepFeed a = some t) : Steps cfg s a t := by
  cases a with
  | nextSegment =>
      simp only [stepFeed, Option.ite_none_right_eq_some, Option.some.injEq] at h
      obtain ⟨hpc, rfl⟩ := h
      exact .nextSegment hpc
  | openSegment =>
      simp only [stepFeed] at h
      split at h
      · rename_i c hpc
        obtain rfl := Option.some.inj h
        exact .openSegment hpc
      · exact absurd h (by simp)
  | loadSegment =>
      simp only [stepFeed] at h
      split at h
      · rename_i c path hpc
        obtain rfl := Option.some.inj h
        exact .loadSegment hpc
      · exact absurd h (by simp)
  | openInit =>
      simp only [stepFeed] at h
      split at h
      · rename_i c hpc
        obtain rfl := Option.some.inj h
        exact .openInit hpc
      · exact absurd h (by simp)
  | loadInit =>
      simp only [stepFeed] at h
      split at h
      · rename_i c path hpc
        obtain rfl := Option.some.inj h
        exact .loadInit hpc
      · exact absurd h (by simp)
  | commitSegment =>
      simp only [stepFeed] at h
      split at h
      · rename_i c init hpc
        obtain rfl := Option.some.inj h
        exact .commitSegment hpc
      · exact absurd h (by simp)
  | _ => exact absurd h (by simp [stepFeed])

lemma steps_of_control (h : s.stepControl cfg a = some t) : Steps cfg s a t := by
  cases a with
  | start =>
      obtain rfl := Option.some.inj h
      exact .start
  | pause =>
      obtain rfl := Option.some.inj h
      exact .pause
  | resume =>
      obtain rfl := Option.some.inj h
      exact .resume
  | jumpToLive =>
      obtain rfl := Option.some.inj h
      exact .jumpToLive
  | requestInit =>
      obtain rfl := Option.some.inj h
      exact .requestInit
  | seek seq =>
      obtain rfl := Option.some.inj h
      exact .seek
  | pinEvent id =>
      obtain rfl := Option.some.inj h
      exact .pinEvent
  | unpin =>
      obtain rfl := Option.some.inj h
      exact .unpin
  | seekToMediaMs ms =>
      simp only [stepControl, Option.ite_none_right_eq_some, Option.some.injEq] at h
      obtain ⟨hpc, rfl⟩ := h
      exact .seekToMediaMs hpc
  | seekToWallMs ms =>
      simp only [stepControl, Option.ite_none_right_eq_some, Option.some.injEq] at h
      obtain ⟨hpc, rfl⟩ := h
      exact .seekToWallMs hpc
  | jumpToMarker id =>
      simp only [stepControl, Option.ite_none_right_eq_some, Option.some.injEq] at h
      obtain ⟨hpc, rfl⟩ := h
      exact .jumpToMarker hpc
  | proceed =>
      simp only [stepControl] at h
      split at h
      · exact absurd h (by simp)
      · rename_i seq skip hpc
        obtain rfl := Option.some.inj h
        exact .seat hpc
      · rename_i target skip orElse hpc
        obtain rfl := Option.some.inj h
        exact .wallSeek hpc
      · rename_i skip hpc
        obtain rfl := Option.some.inj h
        exact .skip hpc
      · rename_i target hpc
        obtain rfl := Option.some.inj h
        exact .fallBack hpc
  | _ => exact absurd h (by simp [stepControl])

/-- **Every step is one of `Steps`.** -/
theorem steps_of_step (h : s.step cfg a = some t) : Steps cfg s a t := by
  rw [step] at h
  rcases Option.or_eq_some_iff.mp h with h | ⟨-, h⟩
  · exact steps_of_net h
  · rcases Option.or_eq_some_iff.mp h with h | ⟨-, h⟩
    · exact steps_of_feed h
    · exact steps_of_control h

/-! ### The first part of `next_segment` -/

/-- Playback is running, and the head is not past the live edge. -/
def due (s : DecoderSession) : Prop :=
  s.play = .playing ∧ s.headSet = true ∧ s.head ≤ s.latestSeq

/-- What the first critical section of `next_segment` can do; `u` is the session with its
head at the floor at least. -/
inductive Next (s : DecoderSession) : DecoderSession → Prop
  | notDue (h : ¬ s.due) : Next s s
  | overtaken (hd : s.due) (h : s.latestSeq < s.floorSkip.head) : Next s s.floorSkip
  | gap {last : ℕ} (hd : s.due) (hl : s.floorSkip.head ≤ s.latestSeq)
      (h : s.manifest.gapEnd s.floorSkip.head = some last) :
      Next s (s.floorSkip.skipTo (wrapU64 (last + 1)))
  | choose (hd : s.due) (hl : s.floorSkip.head ≤ s.latestSeq)
      (hg : s.manifest.gapEnd s.floorSkip.head = none)
      (h : s.floorSkip.head ∈ s.cache.index) : Next s s.floorSkip.choose
  | refused (hd : s.due) (hl : s.floorSkip.head ≤ s.latestSeq)
      (hg : s.manifest.gapEnd s.floorSkip.head = none)
      (h : s.floorSkip.head ∉ s.cache.index) (hr : s.floorSkip.givenUp = true) :
      Next s s.floorSkip.refusalSkip
  | wait (hd : s.due) (hl : s.floorSkip.head ≤ s.latestSeq)
      (hg : s.manifest.gapEnd s.floorSkip.head = none)
      (h : s.floorSkip.head ∉ s.cache.index) (hr : s.floorSkip.givenUp = false) :
      Next s s.floorSkip.waited

/-- The skip to the floor moves the head and the id, and counts itself. -/
lemma floorSkip_cases (s : DecoderSession) :
    s.firstAvailableSeq ≤ s.head ∧ s.floorSkip = s ∨
      s.head < s.firstAvailableSeq ∧ s.floorSkip = s.skipTo s.firstAvailableSeq := by
  rw [floorSkip]
  split
  · exact Or.inr ⟨‹_›, rfl⟩
  · exact Or.inl ⟨by omega, rfl⟩

@[simp] lemma latestSeq_floorSkip : s.floorSkip.latestSeq = s.latestSeq := by
  rw [floorSkip]
  split <;> rfl

@[simp] lemma manifest_floorSkip : s.floorSkip.manifest = s.manifest := by
  rw [floorSkip]
  split <;> rfl

@[simp] lemma cache_floorSkip : s.floorSkip.cache = s.cache := by
  rw [floorSkip]
  split <;> rfl

@[simp] lemma feed_floorSkip : s.floorSkip.feed = s.feed := by
  rw [floorSkip]
  split <;> rfl

@[simp] lemma initSent_floorSkip : s.floorSkip.initSent = s.initSent := by
  rw [floorSkip]
  split <;> rfl

lemma next_nextSegment (s : DecoderSession) : Next s s.nextSegment := by
  simp only [nextSegment]
  split
  · rename_i h
    refine .notDue fun hd => ?_
    rcases h with h | h
    · exact h hd.1
    · exact absurd hd.2.1 (by simp [h])
  · rename_i hplay
    split
    · rename_i h
      exact .notDue fun hd => absurd hd.2.2 (by omega)
    · rename_i hl
      have hd : s.due := by
        simp only [not_or, not_not, Bool.not_eq_false] at hplay
        exact ⟨hplay.1, hplay.2, by omega⟩
      rw [latestSeq_floorSkip]
      split
      · exact .overtaken hd ‹_›
      · rename_i hl'
        rw [gapSkip, manifest_floorSkip]
        split
        · rename_i skipped hs
          obtain ⟨last, hlast, rfl⟩ := Option.map_eq_some_iff.mp hs
          exact .gap hd (by omega) hlast
        · rename_i hg
          rw [Option.map_eq_none_iff] at hg
          rw [cache_floorSkip]
          split
          · exact .choose hd (by omega) hg ‹_›
          · rename_i hm
            split
            · exact .refused hd (by omega) hg hm ‹_›
            · rename_i hr
              exact .wait hd (by omega) hg hm (by simpa using hr)

/-! ### The position -/

/-- The position of a session, and the operations on it that are under way. -/
structure Playhead where
  head : ℕ
  headSet : Bool
  initSent : Bool
  discontinuity : ℕ
  pendingSkipMs : ℤ
  feed : FeedPc
  control : ControlPc

/-- The position of this session. -/
def playhead (s : DecoderSession) : Playhead :=
  { head := s.head, headSet := s.headSet, initSent := s.initSent
    discontinuity := s.discontinuity, pendingSkipMs := s.pendingSkipMs, feed := s.feed
    control := s.control }

@[simp] lemma playhead_noteStalled : s.noteStalled.playhead = s.playhead := by
  rw [noteStalled]
  split <;> rfl

lemma playhead_seeRoom (now : ℤ) (live : LivePointer) :
    (s.seeRoom cfg now live).playhead = s.playhead := by
  simp only [seeRoom]
  split_ifs <;> rfl

lemma playhead_holdFinished : (s.holdFinished cfg).playhead = s.playhead := by
  rw [holdFinished]
  split <;> rfl

/-- The commit of a poll leaves the position alone. -/
@[simp] lemma playhead_pollEvent (now : ℤ) (live : LivePointer) (needMarkers : Bool)
    (r : PollReplies) : (s.pollEvent cfg now live needMarkers r).playhead = s.playhead := by
  simp only [pollEvent]
  split
  · split
    · rfl
    · split
      · rw [playhead_holdFinished, playhead_seeRoom]
        rfl
      · rfl
  · split <;> rfl

lemma playhead_pumpPlan {max : ℤ} {fuel : ℕ} (h : s.pumpPlan cfg max fuel = some t) :
    t.playhead = s.playhead := by
  rw [pumpPlan] at h
  split at h
  · rw [← Option.some.inj h]
  · obtain ⟨wanted, -, rfl⟩ := Option.map_eq_some_iff.mp h
    rfl

@[simp] lemma playhead_pumpInit (p : Pump) (r : Reply Bytes) :
    (s.pumpInit p r).playhead = s.playhead := by
  rw [pumpInit]
  split_ifs <;> rfl

@[simp] lemma playhead_pumpInitWrite (p : Pump) (path : String) (body : Bytes) (ok : Bool) :
    (s.pumpInitWrite p path body ok).playhead = s.playhead := by
  rw [pumpInitWrite]
  split <;> rfl

@[simp] lemma playhead_pumpSegment (p : Pump) (seq : ℕ) (sum : String) (r : Reply Bytes) :
    (s.pumpSegment cfg p seq sum r).playhead = s.playhead := by
  rw [pumpSegment]
  split_ifs <;> rfl

@[simp] lemma playhead_pumpWrite (p : Pump) (path : String) (seq : ℕ) (body : Bytes) (ok : Bool) :
    (s.pumpWrite p path seq body ok).playhead = s.playhead := by
  rw [pumpWrite]
  split <;> rfl

/-- An event change puts the head back and the decoder out. -/
lemma playhead_switchEvent (target : String) :
    (s.switchEvent target).playhead = s.playhead ∨
      (s.switchEvent target).playhead =
        { s.playhead with
          head := 0, headSet := false, initSent := false, discontinuity := s.discontinuity + 1 } := by
  rw [switchEvent]
  split
  · exact Or.inr rfl
  · exact Or.inl rfl

lemma playhead_pollLive (now : ℤ) (pinned : String) (r : Reply (Option LivePointer)) :
    (s.pollLive now pinned r).playhead = s.playhead ∨
      (s.pollLive now pinned r).playhead =
        { s.playhead with
          head := 0, headSet := false, initSent := false, discontinuity := s.discontinuity + 1 } := by
  simp only [pollLive]
  split
  · refine Or.inl ?_
    rw [noTarget]
    split <;> rfl
  · exact playhead_switchEvent (s := { s with liveEventId := (readLive r).1.eventId }) _

/-- `start` seats the head once, and moves nothing else. -/
lemma playhead_start (cfg : DecoderConfig) (s : DecoderSession) :
    (s.start cfg).playhead = s.playhead ∨
      s.headSet = false ∧
        (s.start cfg).playhead = { s.playhead with head := (s.startPlan cfg).want, headSet := true } := by
  simp only [start]
  split
  · cases hset : s.headSet
    · exact Or.inr ⟨rfl, rfl⟩
    · refine Or.inl ?_
      rw [playhead, playhead, hset]
      rfl
  · exact Or.inl rfl

/-- What a time seek does before it moves the head. -/
lemma playhead_wallFailed (orElse : Option ℕ) (why : String) :
    ∃ c, (s.wallFailed orElse why).playhead = { s.playhead with control := c } := ⟨_, rfl⟩

lemma playhead_seekToWallMs (wallMs : ℤ) (orElse : Option ℕ) :
    ∃ c, (s.seekToWallMs wallMs orElse).playhead = { s.playhead with control := c } := by
  rw [seekToWallMs]
  split
  · exact playhead_wallFailed ..
  · exact ⟨_, rfl⟩

lemma playhead_seekToMediaMs (mediaMs : ℤ) :
    ∃ c, (s.seekToMediaMs mediaMs).playhead = { s.playhead with control := c } := by
  simp only [seekToMediaMs]
  split
  · exact ⟨s.control, rfl⟩
  · exact ⟨_, rfl⟩

lemma playhead_jumpToMarker (id : String) :
    ∃ c, (s.jumpToMarker id).playhead = { s.playhead with control := c } := by
  rw [jumpToMarker]
  split
  · exact ⟨s.control, rfl⟩
  · split
    · exact playhead_seekToWallMs ..
    · exact ⟨_, rfl⟩

/-- **Of the thread that polls and downloads only an event change touches the position.** -/
lemma playhead_of_net (h : Steps cfg s a t) (ha : a.isNet = true) :
    t.playhead = s.playhead ∨
      (∃ r, a = .readLive r) ∧
        t.playhead = { s.playhead with
          head := 0, headSet := false, initSent := false, discontinuity := s.discontinuity + 1 } := by
  cases h with
  | poll => exact Or.inl playhead_noteStalled
  | readLive => exact (s.playhead_pollLive ..).imp_right fun h => ⟨⟨_, rfl⟩, h⟩
  | readEvent => exact Or.inl (playhead_pollEvent ..)
  | plan _ hp => exact Or.inl (playhead_pumpPlan hp)
  | getInit => exact Or.inl (playhead_pumpInit ..)
  | writeInit => exact Or.inl (playhead_pumpInitWrite ..)
  | getSegment => exact Or.inl (playhead_pumpSegment ..)
  | writeSegment => exact Or.inl (playhead_pumpWrite ..)
  | indexSegment => exact Or.inl rfl
  | commitDownloads => exact Or.inl rfl
  | _ => exact absurd ha (by simp [DecoderAction.isNet])

lemma feed_of_control {s t : DecoderSession}
    (h : ∃ c, t.playhead = { s.playhead with control := c }) : t.feed = s.feed := by
  obtain ⟨c, h⟩ := h
  exact congrArg Playhead.feed h

lemma feed_seek (seq : ℕ) : (s.seek seq).feed = s.feed := by
  rw [seek]
  split <;> rfl

/-- The other threads do not move the one that feeds the decoder. -/
lemma feed_of_not_feed (h : Steps cfg s a t) (ha : a.isFeed = false) : t.feed = s.feed := by
  cases hnet : a.isNet with
  | true =>
      rcases playhead_of_net h hnet with h | ⟨-, h⟩
      · exact congrArg Playhead.feed h
      · exact congrArg Playhead.feed h
  | false =>
      cases h with
      | start =>
          rcases playhead_start cfg s with h | ⟨-, h⟩
          · exact congrArg Playhead.feed h
          · exact congrArg Playhead.feed h
      | pause => rfl
      | resume => rfl
      | jumpToLive => rfl
      | requestInit => rfl
      | seek => exact feed_seek _
      | pinEvent => rfl
      | unpin => rfl
      | seekToMediaMs => exact feed_of_control (playhead_seekToMediaMs _)
      | seekToWallMs => exact feed_of_control (playhead_seekToWallMs ..)
      | jumpToMarker => exact feed_of_control (playhead_jumpToMarker _)
      | seat =>
          simp only [seat]
          split <;> rfl
      | wallSeek =>
          rw [wallSeek]
          split <;> rfl
      | skip => rfl
      | fallBack => exact feed_seek _
      | _ => simp [DecoderAction.isFeed, DecoderAction.isNet] at ha hnet

/-- The reading of a segment moves nothing of the position but itself, and adds the bytes
to the segment; without an init that is needed it does not come to its commit. -/
structure Reading (s t : DecoderSession) : Prop where
  playhead : t.playhead = { s.playhead with feed := t.feed }
  chosen : ∀ c', t.feed.chosen? = some c' → ∃ c, s.feed.chosen? = some c ∧
    c' = { c with out := { c.out with media := c'.out.media } }
  ready : ∀ c init, t.feed = .committing c init → c.needInit = true → init ≠ []

lemma reading_waited (s : DecoderSession) : Reading s s.waited :=
  ⟨rfl, fun c' hc' => absurd hc' (by simp [waited, FeedPc.chosen?]),
    fun c init hc => absurd hc (by simp [waited])⟩

lemma reading_of_read (h : Steps cfg s a t) (ha : a.isRead = true) : Reading s t := by
  cases h with
  | openSegment hpc =>
      refine ⟨rfl, fun c' hc' => ⟨c', by rw [hpc]; exact hc', rfl⟩, fun c init hc => ?_⟩
      exact absurd hc (by simp)
  | @loadSegment c path hpc =>
      rw [nextLoad]
      split
      · exact reading_waited s
      · refine ⟨rfl, fun c' hc' => ⟨c, by rw [hpc]; rfl, ?_⟩, fun c init hc => ?_⟩
        · rw [← Option.some.inj hc']
        · exact absurd hc (by simp)
  | @openInit c hpc =>
      refine ⟨rfl, fun c' hc' => ⟨c, by rw [hpc]; rfl, ?_⟩, fun c' init hc' hn => ?_⟩
      · simp only [nextLoaded] at hc'
        split at hc' <;> rw [← Option.some.inj hc']
      · simp only [nextLoaded] at hc'
        split at hc'
        · exact absurd hc' (by simp)
        · rename_i hneed
          obtain ⟨rfl, -⟩ := FeedPc.committing.inj hc'
          exact absurd hn hneed
  | @loadInit c path hpc =>
      rw [nextLoadInit]
      split
      · exact reading_waited s
      · rename_i init hne
        refine ⟨rfl, fun c' hc' => ⟨c, by rw [hpc]; rfl, ?_⟩, fun c' init' hc' _ => ?_⟩
        · rw [← Option.some.inj hc']
        · obtain ⟨-, rfl⟩ := FeedPc.committing.inj hc'
          exact hne
  | _ => exact absurd ha (by simp [DecoderAction.isRead])

/-! ### What is loaded -/

/-- What is known of the event, and the thread that fetches it. -/
structure Loaded where
  cache : SegmentCache
  eventId : String
  pinnedEventId : String
  manifest : Manifest
  latestSeq : ℕ
  firstAvailableSeq : ℕ
  segmentDurationS : ℚ
  measuredSegmentMs : ℤ
  room : RoomState
  net : NetPc

/-- What this session knows of its event. -/
def loaded (s : DecoderSession) : Loaded :=
  { cache := s.cache, eventId := s.eventId, pinnedEventId := s.pinnedEventId
    manifest := s.manifest, latestSeq := s.latestSeq, firstAvailableSeq := s.firstAvailableSeq
    segmentDurationS := s.segmentDurationS, measuredSegmentMs := s.measuredSegmentMs
    room := s.room, net := s.net }

/-- What is loaded stays, and no refusal is added. -/
def Leaves (s t : DecoderSession) : Prop :=
  t.loaded = s.loaded ∧ ∀ k, t.unavailable k ≤ s.unavailable k

lemma leaves_of_eq (h : t.loaded = s.loaded) (hu : t.unavailable = s.unavailable) : Leaves s t :=
  ⟨h, fun k => (congrFun hu k).le⟩

lemma leaves_floorSkip : Leaves s s.floorSkip := by
  rw [floorSkip]
  split <;> exact leaves_of_eq rfl rfl

lemma leaves_nextSegment : Leaves s s.nextSegment := by
  have key := s.next_nextSegment
  generalize s.nextSegment = t at key ⊢
  cases key with
  | notDue => exact leaves_of_eq rfl rfl
  | overtaken => exact leaves_floorSkip
  | gap => exact leaves_floorSkip
  | choose => exact leaves_floorSkip
  | refused =>
      refine ⟨leaves_floorSkip.1, fun k => ?_⟩
      refine le_trans ?_ (leaves_floorSkip.2 k)
      show Function.update s.floorSkip.unavailable s.floorSkip.head 0 k ≤ _
      rw [Function.update_apply]
      split <;> omega
  | wait => exact leaves_floorSkip

lemma leaves_seek (seq : ℕ) : Leaves s (s.seek seq) := by
  rw [seek]
  split <;> exact leaves_of_eq rfl rfl

lemma leaves_seekToWallMs (wallMs : ℤ) (orElse : Option ℕ) :
    Leaves s (s.seekToWallMs wallMs orElse) := by
  rw [seekToWallMs]
  split <;> exact leaves_of_eq rfl rfl

/-- **The other threads leave what is loaded alone**, the operator's choice of an event
apart. -/
lemma leaves_of_not_net (h : Steps cfg s a t) (ha : a.isNet = false) (hpin : a.isPin = false) :
    Leaves s t := by
  cases h with
  | nextSegment => exact leaves_nextSegment
  | openSegment => exact leaves_of_eq rfl rfl
  | loadSegment =>
      rw [nextLoad]
      split <;> exact leaves_of_eq rfl rfl
  | openInit => exact leaves_of_eq rfl rfl
  | loadInit =>
      rw [nextLoadInit]
      split <;> exact leaves_of_eq rfl rfl
  | commitSegment =>
      rw [nextCommit]
      split <;> exact leaves_of_eq rfl rfl
  | start =>
      simp only [start]
      split <;> exact leaves_of_eq rfl rfl
  | pause => exact leaves_of_eq rfl rfl
  | resume => exact leaves_of_eq rfl rfl
  | jumpToLive => exact leaves_of_eq rfl rfl
  | requestInit => exact leaves_of_eq rfl rfl
  | seek => exact leaves_seek _
  | pinEvent => exact absurd hpin (by simp [DecoderAction.isPin])
  | unpin => exact absurd hpin (by simp [DecoderAction.isPin])
  | seekToMediaMs =>
      simp only [seekToMediaMs]
      split <;> exact leaves_of_eq rfl rfl
  | seekToWallMs => exact leaves_seekToWallMs ..
  | jumpToMarker =>
      rw [jumpToMarker]
      split
      · exact leaves_of_eq rfl rfl
      · split
        · exact leaves_seekToWallMs ..
        · exact leaves_of_eq rfl rfl
  | seat =>
      simp only [seat]
      split <;> exact leaves_of_eq rfl rfl
  | wallSeek =>
      rw [wallSeek]
      split <;> exact leaves_of_eq rfl rfl
  | skip => exact leaves_of_eq rfl rfl
  | fallBack => exact leaves_seek _
  | _ => exact absurd ha (by simp [DecoderAction.isNet])

/-- What the manifest says of the room leaves the manifest, and all of the event, as it
is. -/
lemma loaded_seen (cfg : DecoderConfig) (s : DecoderSession) (now : ℤ) (live : LivePointer) :
    let t := (s.seeRoom cfg now live).holdFinished cfg
    t.loaded = { s.loaded with room := t.room, pinnedEventId := t.pinnedEventId } ∧
      t.unavailable = s.unavailable := by
  simp only [holdFinished, seeRoom]
  split_ifs <;> exact ⟨rfl, rfl⟩

/-- What the rest of a poll comes to: no answer, nothing to play, or a manifest. -/
lemma pollEvent_cases (cfg : DecoderConfig) (s : DecoderSession) (now : ℤ) (live : LivePointer)
    (needMarkers : Bool) (r : PollReplies) :
    s.pollEvent cfg now live needMarkers r = { s with net := .idle } ∨
      (∃ why, s.pollEvent cfg now live needMarkers r =
        ({ s with net := .idle } : DecoderSession).offline why) ∨
      ∃ m cues startedAt hint, r.manifest.success = true ∧ r.manifest.body = some m ∧
        s.pollEvent cfg now live needMarkers r =
          ((({ s with net := .idle } : DecoderSession).takeManifest m cues startedAt hint).seeRoom
            cfg now live).holdFinished cfg := by
  simp only [pollEvent]
  split
  · rename_i hok
    split
    · exact Or.inr (Or.inl ⟨_, rfl⟩)
    · rename_i m hm
      split
      · exact Or.inr (Or.inr ⟨m, _, _, _, hok, hm, rfl⟩)
      · exact Or.inr (Or.inl ⟨_, rfl⟩)
  · split
    · exact Or.inl rfl
    · exact Or.inr (Or.inl ⟨_, rfl⟩)

/-- The rest of a poll keeps the event, its files and its refusals. -/
lemma pollEvent_frame (cfg : DecoderConfig) (s : DecoderSession) (now : ℤ) (live : LivePointer)
    (needMarkers : Bool) (r : PollReplies) :
    (s.pollEvent cfg now live needMarkers r).net = .idle ∧
      (s.pollEvent cfg now live needMarkers r).cache = s.cache ∧
      (s.pollEvent cfg now live needMarkers r).eventId = s.eventId ∧
      (s.pollEvent cfg now live needMarkers r).unavailable = s.unavailable := by
  rcases s.pollEvent_cases cfg now live needMarkers r with h | ⟨why, h⟩ | ⟨m, cues, at_, hint, -, -, h⟩
  · rw [h]
    exact ⟨rfl, rfl, rfl, rfl⟩
  · rw [h]
    exact ⟨rfl, rfl, rfl, rfl⟩
  · rw [h]
    obtain ⟨hl, hu⟩ := loaded_seen cfg
      (({ s with net := .idle } : DecoderSession).takeManifest m cues at_ hint) now live
    exact ⟨congrArg Loaded.net hl, congrArg Loaded.cache hl, congrArg Loaded.eventId hl, hu⟩

/-- What a poll decides by. -/
structure Polled where
  eventId : String
  pinnedEventId : String
  endHoldDone : Bool
  manifestStalled : Bool
  switchedTarget : Bool

/-- What the next poll of this session decides by. -/
def polled (s : DecoderSession) : Polled :=
  { eventId := s.eventId, pinnedEventId := s.pinnedEventId, endHoldDone := s.endHoldDone
    manifestStalled := s.manifestStalled, switchedTarget := s.switchedTarget }

lemma polled_seek (seq : ℕ) : (s.seek seq).polled = s.polled := by
  rw [seek]
  split <;> rfl

lemma polled_seekToWallMs (wallMs : ℤ) (orElse : Option ℕ) :
    (s.seekToWallMs wallMs orElse).polled = s.polled := by
  rw [seekToWallMs]
  split <;> rfl

lemma polled_floorSkip : s.floorSkip.polled = s.polled := by
  rw [floorSkip]
  split <;> rfl

lemma polled_nextSegment : s.nextSegment.polled = s.polled := by
  have key := s.next_nextSegment
  generalize s.nextSegment = t at key ⊢
  cases key with
  | notDue => rfl
  | overtaken => exact polled_floorSkip
  | gap => exact polled_floorSkip
  | choose => exact polled_floorSkip
  | refused => exact polled_floorSkip
  | wait => exact polled_floorSkip

/-- The downloads, the reading of segments and the operator's moves leave alone what a poll
decides by. -/
lemma polled_of_other (h : Steps cfg s a t) (ha : a.polls = false)
    (hpin : a.isPin = false) : t.polled = s.polled := by
  cases h with
  | plan _ hp =>
      rw [pumpPlan] at hp
      split at hp
      · rw [← Option.some.inj hp]
      · obtain ⟨wanted, -, rfl⟩ := Option.map_eq_some_iff.mp hp
        rfl
  | getInit =>
      rw [pumpInit]
      split_ifs <;> rfl
  | writeInit =>
      rw [pumpInitWrite]
      split <;> rfl
  | getSegment =>
      rw [pumpSegment]
      split_ifs <;> rfl
  | writeSegment =>
      rw [pumpWrite]
      split <;> rfl
  | indexSegment => rfl
  | commitDownloads => rfl
  | nextSegment => exact polled_nextSegment
  | openSegment => rfl
  | loadSegment =>
      rw [nextLoad]
      split <;> rfl
  | openInit => rfl
  | loadInit =>
      rw [nextLoadInit]
      split <;> rfl
  | commitSegment =>
      rw [nextCommit]
      split <;> rfl
  | start =>
      simp only [start]
      split <;> rfl
  | pause => rfl
  | resume => rfl
  | jumpToLive => rfl
  | requestInit => rfl
  | seek => exact polled_seek _
  | seekToMediaMs =>
      simp only [seekToMediaMs]
      split <;> rfl
  | seekToWallMs => exact polled_seekToWallMs ..
  | jumpToMarker =>
      rw [jumpToMarker]
      split
      · rfl
      · split
        · exact polled_seekToWallMs ..
        · rfl
  | seat =>
      simp only [seat]
      split <;> rfl
  | wallSeek =>
      rw [wallSeek]
      split <;> rfl
  | skip => rfl
  | fallBack => exact polled_seek _
  | _ => simp [DecoderAction.polls, DecoderAction.isPin] at ha hpin

/-- The other steps neither begin a poll nor move one. -/
lemma net_of_not_polls (h : Steps cfg s a t) (ha : a.polls = false) :
    t.net = s.net ∨ t.net.polling = false := by
  cases hnet : a.isNet with
  | false =>
      left
      cases hpin : a.isPin with
      | false => exact congrArg Loaded.net (leaves_of_not_net h hnet hpin).1
      | true =>
          cases h with
          | pinEvent => rfl
          | unpin => rfl
          | _ => exact absurd hpin (by simp [DecoderAction.isPin])
  | true =>
      cases h with
      | plan hpc hp =>
          rw [pumpPlan] at hp
          split at hp
          · rw [← Option.some.inj hp]
            exact Or.inl rfl
          · obtain ⟨wanted, -, rfl⟩ := Option.map_eq_some_iff.mp hp
            right
            dsimp only
            split <;> rfl
      | getInit =>
          rw [pumpInit]
          split_ifs <;> exact Or.inr rfl
      | writeInit =>
          rw [pumpInitWrite]
          split <;> exact Or.inr rfl
      | getSegment =>
          rw [pumpSegment]
          split_ifs <;> exact Or.inr rfl
      | writeSegment =>
          rw [pumpWrite]
          split <;> exact Or.inr rfl
      | indexSegment => exact Or.inr rfl
      | commitDownloads => exact Or.inr rfl
      | _ => simp [DecoderAction.polls, DecoderAction.isNet] at ha hnet

end DecoderSession

/-! ### Runs on a fixed input -/

/-- A poll that finds the event `"e"` with this manifest. -/
def pollOf (m : Manifest) : List DecoderAction :=
  [.poll 10, .readLive { body := some { eventId := "e", updatedAtMs := 10 } },
    .readEvent { manifest := { body := some m } }]

/-- A download of segments, each of one byte. -/
def downloadOf (seqs : List ℕ) : List DecoderAction :=
  seqs.flatMap fun seq =>
    [.getSegment { body := [UInt8.ofNat seq] }, .writeSegment true, .indexSegment]

/-- A `next_segment` that serves a segment, with the init or without. -/
def serve (init : Bool) : List DecoderAction :=
  [DecoderAction.nextSegment, .openSegment, .loadSegment, .openInit] ++
    (if init then [DecoderAction.loadInit] else []) ++
    [DecoderAction.commitSegment]

/-- The configuration of the runs below. -/
def sampleDecoder : DecoderConfig := { sha256Hex := fun _ => "sum" }

/-- The recording loaded and started, and its first segment served. -/
def playFirst (m : Manifest) (seqs : List ℕ) : List DecoderAction :=
  pollOf m ++
    [DecoderAction.pumpDownloads 8 10, .getInit { body := [7] }, .writeInit true] ++
    downloadOf seqs ++ [DecoderAction.commitDownloads, .start] ++ serve true

end Multisite

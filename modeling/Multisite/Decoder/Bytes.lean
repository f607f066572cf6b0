import Multisite.Decoder.Steps

/-!
The bytes a decoder is handed (`next_segment`, `poll`, `SegmentCache`).

Polling and downloading are one thread's, `next_segment` another's.  The commit of
`next_segment` checks that the head has not moved; an event change puts the head to 0 and
the cache on another folder, so a segment 0 under way passes the check with the event
gone.

* `old_event_served`: that run;
* `bytes_current`: where no event change falls between the choice of a segment and a commit
  that finds the head where it was, each segment handed out has the bytes stored under the
  current event for the head's number, and the init is that event's.
-/

namespace Multisite

open DecoderSession

/-! ### The statement -/

/-- What has been stored: under `events/{id}/segments/`, by the number in the object's
name, and as `events/{id}/init.mp4`. -/
structure MediaBucket where
  media : String → ℕ → Bytes → Bool
  init : String → Bytes → Bool

variable (bucket : MediaBucket)

/-- A folder holds what was stored under its event; an init file may be empty. -/
def CacheFolder.Genuine (id : String) (f : CacheFolder) : Prop :=
  (∀ n b, f.segs.lookup n = some b → bucket.media id n b = true) ∧
    ∀ b, f.init = some b → b ≠ [] → bucket.init id b = true

/-- A cache directory as earlier sessions leave it: nothing is stored for the event that
is not known yet. -/
def GenuineFolders (folders : String → Option CacheFolder) : Prop :=
  (∀ id f, folders id = some f → f.Genuine bucket id) ∧
    ∀ f, folders "pending" = some f → ∀ n, f.segs.lookup n = none

/-- The event changes so far, how many there had been at the last choice of a segment, and
the event it was chosen in. -/
structure Epoch where
  changes : ℕ := 0
  chosenIn : ℕ := 0
  chosenEvent : String := ""
  deriving DecidableEq

/-- The notes after a step. -/
def Epoch.note (s : DecoderSession) (a : DecoderAction) (n : Epoch) : Epoch :=
  match a with
  | .readLive r => if s.changesEvent r then { n with changes := n.changes + 1 } else n
  | .nextSegment => { n with chosenIn := n.changes, chosenEvent := s.eventId }
  | _ => n

/-- A request that succeeds brings what is stored under the key asked for. -/
def DecoderSession.answered (s : DecoderSession) : DecoderAction → Bool
  | .getInit r =>
      match s.net with
      | .fetchingInit p => !r.success || bucket.init p.eventId r.body
      | _ => true
  | .getSegment r =>
      match s.net with
      | .fetching p =>
          !r.success || (p.wanted.head?.all fun w => bucket.media p.eventId (fileNo w.1) r.body)
      | _ => true
  | _ => true

/-- No event change between the choice of a segment and a commit that finds the head where
it was. -/
def unswitched (x : DecoderSession × Epoch) : DecoderAction → Bool
  | .commitSegment =>
      match x.1.feed with
      | .committing c _ => decide (x.1.head ≠ c.want) || decide (x.2.changes = x.2.chosenIn)
      | _ => true
  | _ => true

/-- What a commit hands out is the current event's, at the head; and a commit that moves
the head or marks the init sent is of a segment chosen in the current event. -/
def CommitsCurrent (cfg : DecoderConfig) (x : DecoderSession × Epoch) : Prop :=
  (∀ p, x.1.handed .commitSegment = some p →
    p.seq = x.1.head ∧ bucket.media x.1.eventId (fileNo p.seq) p.media = true ∧
      (p.init ≠ [] → bucket.init x.1.eventId p.init = true)) ∧
    ∀ t, x.1.step cfg .commitSegment = some t →
      t.head ≠ x.1.head ∨ t.initSent ≠ x.1.initSent → x.2.chosenEvent = x.1.eventId

/-! ### The cache -/

section Cache

variable {bucket} {c : SegmentCache}

/-- Every folder holds its event's bytes. -/
def SegmentCache.Genuine (bucket : MediaBucket) (c : SegmentCache) : Prop :=
  ∀ id f, c.folders id = some f → f.Genuine bucket id

lemma genuine_empty (id : String) : ({} : CacheFolder).Genuine bucket id :=
  ⟨fun n b h => absurd h (by simp), fun b h => absurd h (by simp)⟩

lemma SegmentCache.Genuine.update (h : c.Genuine bucket) {path : String} {o : Option CacheFolder}
    (ho : ∀ f, o = some f → f.Genuine bucket path) (c' : SegmentCache)
    (hc' : c'.folders = Function.update c.folders path o) : c'.Genuine bucket := by
  intro id f hf
  rw [hc', Function.update_apply] at hf
  split at hf
  · rename_i hid
    exact hid ▸ ho f hf
  · exact h id f hf

lemma SegmentCache.Genuine.ensureDir (h : c.Genuine bucket) : c.ensureDir.Genuine bucket := by
  refine h.update (fun f hf => ?_) c.ensureDir rfl
  rw [← Option.some.inj hf]
  cases hfolder : c.folders c.eventId with
  | none => exact genuine_empty _
  | some f => exact h _ f hfolder

lemma SegmentCache.Genuine.setEvent (h : c.Genuine bucket) (id : String) :
    (c.setEvent id).Genuine bucket := by
  rw [SegmentCache.setEvent]
  split
  · exact h
  · have hsweep : ({ c with eventId := id } : SegmentCache).sweepOrphans.Genuine bucket := by
      intro e f hf
      simp only [SegmentCache.sweepOrphans] at hf
      split at hf
      · exact h e f hf
      · exact absurd hf (by simp)
    exact hsweep.ensureDir

lemma SegmentCache.Genuine.writeInit (h : c.Genuine bucket) {path : String} {b : Bytes}
    (hb : bucket.init path b = true) {c' : SegmentCache} (hc : c.writeInit path b = some c') :
    c'.Genuine bucket := by
  obtain ⟨f, hf, rfl⟩ := Option.map_eq_some_iff.mp hc
  refine h.update (fun g hg => ?_) _ rfl
  rw [← Option.some.inj hg]
  exact ⟨(h path f hf).1, fun b' hb' _ => Option.some.inj hb' ▸ hb⟩

lemma SegmentCache.Genuine.write (h : c.Genuine bucket) {path : String} {seq : ℕ} {b : Bytes}
    (hb : bucket.media path (fileNo seq) b = true) {c' : SegmentCache}
    (hc : c.write path seq b = some c') : c'.Genuine bucket := by
  obtain ⟨f, hf, rfl⟩ := Option.map_eq_some_iff.mp hc
  refine h.update (fun g hg => ?_) _ rfl
  rw [← Option.some.inj hg]
  refine ⟨fun n b' hb' => ?_, (h path f hf).2⟩
  by_cases hn : n = fileNo seq
  · subst hn
    rw [AList.lookup_insert] at hb'
    exact Option.some.inj hb' ▸ hb
  · rw [AList.lookup_insert_ne hn] at hb'
    exact (h path f hf).1 n b' hb'

/-- Erasing files brings no other bytes. -/
lemma lookup_eraseFiles {m : AList fun _ : ℕ => Bytes} {gone : Finset ℕ} {n : ℕ} {b : Bytes}
    (h : (eraseFiles m gone).lookup n = some b) : m.lookup n = some b := by
  have key : ∀ (l : List ℕ) (m : AList fun _ : ℕ => Bytes),
      (l.foldl (fun m k => if k ∈ gone then m.erase k else m) m).lookup n = some b →
        m.lookup n = some b := by
    intro l
    induction l with
    | nil => exact fun m h => h
    | cons k l ih =>
        intro m h
        have := ih _ h
        dsimp only at this
        split at this
        · by_cases hn : n = k
          · rw [hn, AList.lookup_erase] at this
            exact absurd this (by simp)
          · rwa [AList.lookup_erase_ne hn] at this
        · exact this
  exact key _ m h

lemma SegmentCache.Genuine.pruneBelow (h : c.Genuine bucket) (keepFrom : ℕ) :
    (c.pruneBelow keepFrom).Genuine bucket := by
  refine h.update (fun f hf => ?_) (c.pruneBelow keepFrom) rfl
  obtain ⟨g, hg, rfl⟩ := Option.map_eq_some_iff.mp hf
  exact ⟨fun n b hb => (h _ g hg).1 n b (lookup_eraseFiles hb), (h _ g hg).2⟩

end Cache

/-! ### The files -/

/-- The cache is on the event's folder, or on none that holds anything; and a download
under way brings that event's bytes to that folder. -/
structure Files (bucket : MediaBucket) (s : DecoderSession) : Prop where
  genuine : s.cache.Genuine bucket
  event : s.eventId ≠ "" → s.cache.eventId = s.eventId
  pending : s.eventId = "" → s.cache.eventId = "pending" ∧
    ∀ f, s.cache.folders "pending" = some f → ∀ n, f.segs.lookup n = none
  pump : ∀ p, s.net.pump? = some p → s.eventId ≠ "" ∧ p.eventId = s.eventId
  writing : ∀ p path seq body, s.net = .writing p path seq body →
    path = s.eventId ∧ bucket.media s.eventId (fileNo seq) body = true
  writingInit : ∀ p path body, s.net = .writingInit p path body →
    path = s.eventId ∧ bucket.init s.eventId body = true

section Files

variable {bucket} {cfg : DecoderConfig} {s t : DecoderSession} {a : DecoderAction}

lemma Files.of_loaded (h : Files bucket s) (hcache : t.cache = s.cache)
    (hevent : t.eventId = s.eventId) (hnet : t.net = s.net) : Files bucket t := by
  refine ⟨?_, ?_, ?_, ?_, ?_, ?_⟩
  · rw [hcache]
    exact h.genuine
  · rw [hcache, hevent]
    exact h.event
  · rw [hcache, hevent]
    exact h.pending
  · rw [hnet, hevent]
    exact h.pump
  · rw [hnet, hevent]
    exact h.writing
  · rw [hnet, hevent]
    exact h.writingInit

/-- A step that goes on with the same pump, and writes nothing. -/
lemma Files.of_pump (h : Files bucket s) (hcache : t.cache = s.cache)
    (hevent : t.eventId = s.eventId)
    (hpump : ∀ p, t.net.pump? = some p → s.eventId ≠ "" ∧ p.eventId = s.eventId)
    (hw : ∀ p path seq body, t.net ≠ .writing p path seq body)
    (hwi : ∀ p path body, t.net ≠ .writingInit p path body) : Files bucket t := by
  refine ⟨?_, ?_, ?_, ?_, fun p path seq body h => absurd h (hw p path seq body),
    fun p path body h => absurd h (hwi p path body)⟩
  · rw [hcache]
    exact h.genuine
  · rw [hcache, hevent]
    exact h.event
  · rw [hcache, hevent]
    exact h.pending
  · rw [hevent]
    exact hpump

/-- While a pump is under way the event is known, and a changed cache is still on its
folder. -/
lemma Files.of_cache (h : Files bucket s) (hevent : t.eventId = s.eventId)
    (hne : s.eventId ≠ "") (hgen : t.cache.Genuine bucket) (hid : t.cache.eventId = s.cache.eventId)
    (hpump : ∀ p, t.net.pump? = some p → p.eventId = s.eventId)
    (hw : ∀ p path seq body, t.net = .writing p path seq body →
      path = s.eventId ∧ bucket.media s.eventId (fileNo seq) body = true)
    (hwi : ∀ p path body, t.net = .writingInit p path body →
      path = s.eventId ∧ bucket.init s.eventId body = true) : Files bucket t := by
  refine ⟨hgen, fun _ => ?_, fun h0 => absurd (hevent.symm.trans h0) hne, fun p hp => ?_, ?_, ?_⟩
  · rw [hid, hevent]
    exact h.event hne
  · rw [hevent]
    exact ⟨hne, hpump p hp⟩
  · rw [hevent]
    exact hw
  · rw [hevent]
    exact hwi

lemma files_pollLive {now : ℤ} {pinned : String} {r : Reply (Option LivePointer)}
    (h : Files bucket s) : Files bucket (s.pollLive now pinned r) := by
  simp only [pollLive]
  split
  · rw [noTarget]
    split
    · exact h.of_pump rfl rfl (by simp [NetPc.pump?]) (by simp) (by simp)
    · exact h.of_pump rfl rfl (by simp [NetPc.pump?]) (by simp) (by simp)
  · rename_i htarget
    simp only [enterEvent, switchEvent]
    split
    · have hid : (s.cache.setEvent (pollTarget pinned (readLive r).1)).eventId =
          pollTarget pinned (readLive r).1 := by
        rw [SegmentCache.setEvent]
        split
        · rename_i heq
          exact heq.symm
        · rfl
      exact ⟨h.genuine.setEvent _, fun _ => hid, fun h0 => absurd h0 htarget,
        by simp [NetPc.pump?], by simp, by simp⟩
    · exact h.of_pump rfl rfl (by simp [NetPc.pump?]) (by simp) (by simp)

lemma eventId_prune : (s.prune cfg).eventId = s.cache.eventId := by
  simp only [prune, pruneBehind, SegmentCache.pruneExcess]
  split_ifs <;> rfl

lemma genuine_prune (h : s.cache.Genuine bucket) : (s.prune cfg).Genuine bucket := by
  have h1 : (s.pruneBehind cfg).Genuine bucket := by
    simp only [pruneBehind]
    split
    · exact h.pruneBelow _
    · exact h
  rw [prune, SegmentCache.pruneExcess]
  split
  · exact h1.pruneBelow _
  · exact h1

/-- **A step keeps the files**, where the store answers for the key it was asked. -/
lemma Files.step (h : Files bucket s) (hc : s.answered bucket a = true) (ht : Steps cfg s a t) :
    Files bucket t := by
  cases ha : a.isNet with
  | false =>
      cases hpin : a.isPin with
      | false =>
          have hl := (leaves_of_not_net ht ha hpin).1
          exact h.of_loaded (congrArg Loaded.cache hl) (congrArg Loaded.eventId hl)
            (congrArg Loaded.net hl)
      | true =>
          cases ht with
          | pinEvent => exact h.of_loaded rfl rfl rfl
          | unpin => exact h.of_loaded rfl rfl rfl
          | _ => exact absurd hpin (by simp [DecoderAction.isPin])
  | true =>
      cases ht with
      | poll hpc =>
          have hcache : s.noteStalled.cache = s.cache := by
            rw [noteStalled]
            split <;> rfl
          have hevent : s.noteStalled.eventId = s.eventId := by
            rw [noteStalled]
            split <;> rfl
          exact h.of_pump hcache hevent (by simp [NetPc.pump?]) (by simp) (by simp)
      | readLive => exact files_pollLive h
      | readEvent hpc =>
          obtain ⟨hnet, hcache, hevent, -⟩ := pollEvent_frame cfg s _ _ _ _
          exact h.of_pump hcache hevent (by simp [hnet, NetPc.pump?]) (by simp [hnet])
            (by simp [hnet])
      | plan hpc hp =>
          rw [pumpPlan] at hp
          split at hp
          · rw [← Option.some.inj hp]
            exact h
          · rename_i hne
            obtain ⟨wanted, -, rfl⟩ := Option.map_eq_some_iff.mp hp
            refine h.of_pump rfl rfl (fun p hp => ?_) ?_ ?_
            · refine ⟨hne, ?_⟩
              simp only at hp
              split at hp <;> rw [← Option.some.inj hp]
            · simp only
              split <;> simp
            · simp only
              split <;> simp
      | @getInit p r hpc =>
          obtain ⟨hne, hp⟩ := h.pump p (by rw [hpc]; rfl)
          rw [pumpInit]
          split
          · rename_i hok
            split
            · exact h.of_pump rfl rfl (by simp [NetPc.pump?]) (by simp) (by simp)
            · refine h.of_cache rfl hne h.genuine.ensureDir rfl ?_ (by simp) ?_
              · rintro q hq
                rw [← Option.some.inj hq]
                exact hp
              · rintro q path body hw
                obtain ⟨-, rfl, rfl⟩ := NetPc.writingInit.inj hw
                refine ⟨h.event hne, ?_⟩
                simpa [answered, hpc, hok, hp] using hc
          · exact h.of_pump rfl rfl (by simp [NetPc.pump?]) (by simp) (by simp)
      | @writeInit p path body ok hpc =>
          obtain ⟨hne, hp⟩ := h.pump p (by rw [hpc]; rfl)
          obtain ⟨rfl, hb⟩ := h.writingInit p path body hpc
          rw [pumpInitWrite]
          split
          · rename_i cache hcache
            split at hcache
            · have hid : cache.eventId = s.cache.eventId := by
                obtain ⟨f, -, rfl⟩ := Option.map_eq_some_iff.mp hcache
                rfl
              refine h.of_cache rfl hne (h.genuine.writeInit hb hcache) hid ?_ (by simp) (by simp)
              rintro q hq
              rw [← Option.some.inj hq]
              exact hp
            · exact absurd hcache (by simp)
          · exact h.of_pump rfl rfl (by simp [NetPc.pump?]) (by simp) (by simp)
      | @getSegment p seq sum rest r hpc hw =>
          obtain ⟨hne, hp⟩ := h.pump p (by rw [hpc]; rfl)
          rw [pumpSegment]
          split
          · rename_i hok
            split
            · refine h.of_pump rfl rfl ?_ (by simp) (by simp)
              rintro q hq
              rw [← Option.some.inj hq]
              exact ⟨hne, hp⟩
            · refine h.of_cache rfl hne h.genuine.ensureDir rfl ?_ ?_ (by simp)
              · rintro q hq
                rw [← Option.some.inj hq]
                exact hp
              · rintro q path seq' body hw'
                obtain ⟨-, rfl, rfl, rfl⟩ := NetPc.writing.inj hw'
                refine ⟨h.event hne, ?_⟩
                simpa [answered, hpc, hok, hp, hw] using hc
          · refine h.of_pump rfl rfl ?_ (by simp) (by simp)
            rintro q hq
            rw [← Option.some.inj hq]
            exact ⟨hne, hp⟩
      | @writeSegment p path seq body ok hpc =>
          obtain ⟨hne, hp⟩ := h.pump p (by rw [hpc]; rfl)
          obtain ⟨rfl, hb⟩ := h.writing p path seq body hpc
          rw [pumpWrite]
          split
          · rename_i cache hcache
            split at hcache
            · have hid : cache.eventId = s.cache.eventId := by
                obtain ⟨f, -, rfl⟩ := Option.map_eq_some_iff.mp hcache
                rfl
              refine h.of_cache rfl hne (h.genuine.write hb hcache) hid ?_ (by simp) (by simp)
              rintro q hq
              rw [← Option.some.inj hq]
              exact hp
            · exact absurd hcache (by simp)
          · refine h.of_pump rfl rfl ?_ (by simp) (by simp)
            rintro q hq
            rw [← Option.some.inj hq]
            exact ⟨hne, hp⟩
      | @indexSegment p seq hpc =>
          obtain ⟨hne, hp⟩ := h.pump p (by rw [hpc]; rfl)
          refine h.of_cache rfl hne h.genuine rfl ?_ (by simp [pumpIndex]) (by simp [pumpIndex])
          rintro q hq
          rw [← Option.some.inj hq]
          exact hp
      | @commitDownloads p hpc hw =>
          obtain ⟨hne, hp⟩ := h.pump p (by rw [hpc]; rfl)
          exact h.of_cache rfl hne (genuine_prune h.genuine) eventId_prune
            (by simp [pumpCommit, NetPc.pump?]) (by simp [pumpCommit]) (by simp [pumpCommit])
      | _ => exact absurd ha (by simp [DecoderAction.isNet])

end Files

/-! ### The segment under way -/

/-- The segment under way is of the event `id`, whose folder is `folder`. -/
def FeedPc.Current (bucket : MediaBucket) (id folder : String) : FeedPc → Prop
  | .idle => True
  | .chosen c => c.out.seq = c.want
  | .loading c path => c.out.seq = c.want ∧ path = folder
  | .loaded c =>
      c.out.seq = c.want ∧ id ≠ "" ∧ bucket.media id (fileNo c.want) c.out.media = true
  | .loadingInit c path =>
      (c.out.seq = c.want ∧ id ≠ "" ∧ bucket.media id (fileNo c.want) c.out.media = true) ∧
        path = folder
  | .committing c init =>
      (c.out.seq = c.want ∧ id ≠ "" ∧ bucket.media id (fileNo c.want) c.out.media = true) ∧
        (c.needInit = true → bucket.init id init = true)

/-- While the event has not changed since the choice, the segment under way is its. -/
structure InEpoch (bucket : MediaBucket) (s : DecoderSession) (n : Epoch) : Prop where
  le : n.chosenIn ≤ n.changes
  event : n.changes = n.chosenIn → s.feed ≠ .idle → n.chosenEvent = s.eventId
  current : n.changes = n.chosenIn → s.feed.Current bucket s.eventId s.cache.eventId

section InEpoch

variable {bucket} {cfg : DecoderConfig} {s t : DecoderSession} {n : Epoch} {a : DecoderAction}

lemma InEpoch.of_same (h : InEpoch bucket s n) (hfeed : t.feed = s.feed)
    (hevent : t.eventId = s.eventId) (hcache : t.cache.eventId = s.cache.eventId) :
    InEpoch bucket t n := by
  refine ⟨h.le, fun hn hne => ?_, fun hn => ?_⟩
  · rw [hevent]
    exact h.event hn (hfeed ▸ hne)
  · rw [hfeed, hevent, hcache]
    exact h.current hn

/-- An event change ends the epoch. -/
lemma InEpoch.of_change (h : InEpoch bucket s n) :
    InEpoch bucket t { n with changes := n.changes + 1 } := by
  have := h.le
  refine ⟨by simp only; omega, fun hn => ?_, fun hn => ?_⟩
  · simp only at hn
    omega
  · simp only at hn
    omega

/-- A step of `next_segment` that reads on. -/
lemma InEpoch.of_read (h : InEpoch bucket s n) (hne : s.feed ≠ .idle) (hl : t.loaded = s.loaded)
    (hcur : n.changes = n.chosenIn → t.feed.Current bucket s.eventId s.cache.eventId) :
    InEpoch bucket t n := by
  have hevent : t.eventId = s.eventId := congrArg Loaded.eventId hl
  have hcache : t.cache = s.cache := congrArg Loaded.cache hl
  refine ⟨h.le, fun hn _ => ?_, fun hn => ?_⟩
  · rw [hevent]
    exact h.event hn hne
  · rw [hevent, hcache]
    exact hcur hn

/-- Of the thread that polls and downloads only an event change moves to another event. -/
lemma event_of_net (h : Steps cfg s a t) (ha : a.isNet = true)
    (hstay : ∀ r, a = .readLive r → s.changesEvent r = false) :
    t.eventId = s.eventId ∧ t.cache.eventId = s.cache.eventId := by
  cases h with
  | poll =>
      rw [noteStalled]
      split <;> exact ⟨rfl, rfl⟩
  | @readLive now pinned r hpc =>
      have hr := hstay r rfl
      simp only [pollLive]
      split
      · rw [noTarget]
        split <;> exact ⟨rfl, rfl⟩
      · rename_i htarget
        have hsame : pollTarget pinned (readLive r).1 = s.eventId := by
          simpa [changesEvent, hpc, htarget] using hr
        simp only [enterEvent, switchEvent, hsame, ne_eq, not_true_eq_false, if_false]
        exact ⟨trivial, trivial⟩
  | readEvent =>
      obtain ⟨-, hcache, hevent, -⟩ := pollEvent_frame cfg s _ _ _ _
      exact ⟨hevent, congrArg SegmentCache.eventId hcache⟩
  | plan _ hp =>
      rw [pumpPlan] at hp
      split at hp
      · rw [← Option.some.inj hp]
        exact ⟨rfl, rfl⟩
      · obtain ⟨wanted, -, rfl⟩ := Option.map_eq_some_iff.mp hp
        exact ⟨rfl, rfl⟩
  | getInit =>
      rw [pumpInit]
      split_ifs <;> exact ⟨rfl, rfl⟩
  | writeInit =>
      rw [pumpInitWrite]
      split
      · rename_i cache hcache
        split at hcache
        · obtain ⟨f, -, rfl⟩ := Option.map_eq_some_iff.mp hcache
          exact ⟨rfl, rfl⟩
        · exact absurd hcache (by simp)
      · exact ⟨rfl, rfl⟩
  | getSegment =>
      rw [pumpSegment]
      split_ifs <;> exact ⟨rfl, rfl⟩
  | writeSegment =>
      rw [pumpWrite]
      split
      · rename_i cache hcache
        split at hcache
        · obtain ⟨f, -, rfl⟩ := Option.map_eq_some_iff.mp hcache
          exact ⟨rfl, rfl⟩
        · exact absurd hcache (by simp)
      · exact ⟨rfl, rfl⟩
  | indexSegment => exact ⟨rfl, rfl⟩
  | commitDownloads => exact ⟨rfl, eventId_prune⟩
  | _ => exact absurd ha (by simp [DecoderAction.isNet])

/-- The choice of a segment begins an epoch. -/
lemma InEpoch.choose (hpc : s.feed = .idle) :
    InEpoch bucket s.nextSegment
      { n with chosenIn := n.changes, chosenEvent := s.eventId } := by
  have hl := (leaves_nextSegment (s := s)).1
  have hevent : s.nextSegment.eventId = s.eventId := congrArg Loaded.eventId hl
  refine ⟨le_rfl, fun _ _ => hevent.symm, fun _ => ?_⟩
  have hidle : s.floorSkip.feed = .idle := feed_floorSkip.trans hpc
  have key := s.next_nextSegment
  generalize s.nextSegment = t at key ⊢
  cases key with
  | notDue =>
      rw [hpc]
      trivial
  | overtaken =>
      rw [hidle]
      trivial
  | gap =>
      show FeedPc.Current _ _ _ s.floorSkip.feed
      rw [hidle]
      trivial
  | choose => exact rfl
  | refused =>
      show FeedPc.Current _ _ _ s.floorSkip.feed
      rw [hidle]
      trivial
  | wait => trivial

/-- A segment read from the event's folder is the event's: nothing is cached for an event
that is not known. -/
lemma media_of_load (h : Files bucket s) {seq : ℕ} {b : Bytes}
    (hb : s.cache.load s.cache.eventId seq = some b) :
    s.eventId ≠ "" ∧ bucket.media s.eventId (fileNo seq) b = true := by
  obtain ⟨f, hf, hlook⟩ := Option.bind_eq_some_iff.mp hb
  have hne : s.eventId ≠ "" := by
    intro h0
    obtain ⟨hid, hnone⟩ := h.pending h0
    rw [hid] at hf
    exact absurd hlook (by simp [hnone f hf])
  refine ⟨hne, ?_⟩
  rw [h.event hne] at hf
  exact (h.genuine _ f hf).1 _ _ hlook

lemma InEpoch.step (h : InEpoch bucket s n) (hf : Files bucket s) (ht : Steps cfg s a t) :
    InEpoch bucket t (Epoch.note s a n) := by
  cases hfeed : a.isFeed with
  | false =>
      have hsame := feed_of_not_feed ht hfeed
      cases hnet : a.isNet with
      | true =>
          by_cases hch : ∃ r, a = .readLive r ∧ s.changesEvent r = true
          · obtain ⟨r, rfl, hr⟩ := hch
            simp only [Epoch.note, hr, if_true]
            exact h.of_change
          · have hstay : ∀ r, a = .readLive r → s.changesEvent r = false := by
              intro r hr
              by_contra hne
              exact hch ⟨r, hr, by simpa using hne⟩
            have hnote : Epoch.note s a n = n := by
              cases a with
              | readLive r => simp [Epoch.note, hstay r rfl]
              | nextSegment => exact absurd hfeed (by simp [DecoderAction.isFeed])
              | _ => rfl
            obtain ⟨h1, h2⟩ := event_of_net ht hnet hstay
            rw [hnote]
            exact h.of_same hsame h1 h2
      | false =>
          have hnote : Epoch.note s a n = n := by
            cases a <;> first | rfl | simp [DecoderAction.isFeed, DecoderAction.isNet] at hfeed hnet
          rw [hnote]
          cases hpin : a.isPin with
          | false =>
              have hl := (leaves_of_not_net ht hnet hpin).1
              exact h.of_same hsame (congrArg Loaded.eventId hl) (congrArg (·.cache.eventId) hl)
          | true =>
              cases ht with
              | pinEvent => exact h.of_same rfl rfl rfl
              | unpin => exact h.of_same rfl rfl rfl
              | _ => exact absurd hpin (by simp [DecoderAction.isPin])
  | true =>
      cases ht with
      | nextSegment hpc => exact InEpoch.choose hpc
      | openSegment hpc =>
          refine h.of_read (by rw [hpc]; simp) rfl fun hn => ?_
          have := h.current hn
          rw [hpc] at this
          exact ⟨this, rfl⟩
      | @loadSegment c path hpc =>
          rw [nextLoad]
          split
          · exact h.of_read (by rw [hpc]; simp) rfl fun _ => trivial
          · rename_i media hload
            refine h.of_read (by rw [hpc]; simp) rfl fun hn => ?_
            have hcur := h.current hn
            rw [hpc] at hcur
            obtain ⟨hseq, rfl⟩ := hcur
            exact ⟨hseq, media_of_load hf hload⟩
      | @openInit c hpc =>
          refine h.of_read (by rw [hpc]; simp) rfl fun hn => ?_
          have hcur := h.current hn
          rw [hpc] at hcur
          simp only [nextLoaded]
          split
          · exact ⟨hcur, rfl⟩
          · rename_i hneed
            exact ⟨hcur, fun hn => absurd hn hneed⟩
      | @loadInit c path hpc =>
          rw [nextLoadInit]
          split
          · exact h.of_read (by rw [hpc]; simp) rfl fun _ => trivial
          · rename_i init hne
            refine h.of_read (by rw [hpc]; simp) rfl fun hn => ?_
            have hcur := h.current hn
            rw [hpc] at hcur
            obtain ⟨hcur, rfl⟩ := hcur
            refine ⟨hcur, fun _ => ?_⟩
            rw [hf.event hcur.2.1] at hne ⊢
            cases hinit : s.cache.loadInit s.eventId with
            | none => exact absurd (by rw [hinit]; rfl) hne
            | some b =>
                rw [hinit] at hne
                obtain ⟨f, hfolder, hb⟩ := Option.bind_eq_some_iff.mp hinit
                exact (hf.genuine _ f hfolder).2 b hb hne
      | commitSegment hpc =>
          rw [nextCommit]
          split
          · exact h.of_read (by rw [hpc]; simp) rfl fun _ => trivial
          · exact h.of_read (by rw [hpc]; simp) rfl fun _ => trivial
      | _ => exact absurd hfeed (by simp [DecoderAction.isFeed])

/-- What a commit in the epoch of the choice hands out. -/
lemma commitsCurrent_of_inEpoch (h : InEpoch bucket s n)
    (hc : unswitched (s, n) .commitSegment = true) : CommitsCurrent bucket cfg (s, n) := by
  -- a commit that finds the head where it was is in the epoch of the choice
  have hepoch : ∀ c init, s.feed = .committing c init → s.head = c.want →
      n.changes = n.chosenIn := by
    intro c init hpc hhead
    simpa [unswitched, hpc, hhead] using hc
  refine ⟨fun p hp => ?_, fun t ht hmoved => ?_⟩
  · simp only [handed] at hp
    split at hp
    · rename_i c init hpc
      rw [returned] at hp
      split at hp
      · rename_i hhead
        have hcur := h.current (hepoch c init hpc hhead)
        rw [hpc] at hcur
        obtain ⟨⟨hseq, hne, hmedia⟩, hinit⟩ := hcur
        rw [← Option.some.inj hp]
        refine ⟨hseq.trans hhead.symm, hseq ▸ hmedia, fun hi => ?_⟩
        cases hneed : c.needInit
        · simp [hneed] at hi
        · exact hinit hneed
      · exact absurd hp (by simp)
    · exact absurd hp (by simp)
  · cases steps_of_step ht with
    | @commitSegment c init hpc =>
        rw [nextCommit, returned] at hmoved
        by_cases hhead : s.head = c.want
        · exact h.event (hepoch c init hpc hhead) (by rw [hpc]; simp)
        · simp [hhead] at hmoved

end InEpoch

/-- **The bytes of the current event.**  In every interleaving in which no event change
falls between the choice of a segment and a commit that finds the head where it was, what
a commit hands out has the bytes stored under the session's event for the number at its
head, and its init if it has one; and no commit moves the head or marks the init sent for
another event. -/
theorem bytes_current (cfg : DecoderConfig) {x : DecoderSession × Epoch}
    (h : Lib.Reach (Lib.noted (step cfg) Epoch.note)
      (fun x a => x.1.answered bucket a = true ∧ unswitched x a = true)
      (fun x => ∃ folders, GenuineFolders bucket folders ∧
        x = (DecoderSession.new cfg folders, {})) x)
    (hc : unswitched x .commitSegment = true) : CommitsCurrent bucket cfg x := by
  have key : Files bucket x.1 ∧ InEpoch bucket x.1 x.2 := by
    refine h.invariant (I := fun x => Files bucket x.1 ∧ InEpoch bucket x.1 x.2) ?_ ?_
    · rintro _ ⟨folders, ⟨hgen, hpend⟩, rfl⟩
      have hcache : (SegmentCache.new folders "pending").Genuine bucket :=
        SegmentCache.Genuine.ensureDir (c := { eventId := "pending", folders }) hgen
      refine ⟨⟨hcache, fun h0 => absurd rfl h0, fun _ => ⟨rfl, fun f hf n => ?_⟩, ?_, ?_, ?_⟩,
        ⟨le_rfl, fun _ h0 => absurd rfl h0, fun _ => trivial⟩⟩
      · simp only [DecoderSession.new, SegmentCache.new, SegmentCache.buildIndex,
          SegmentCache.ensureDir, Function.update_self, Option.some.injEq] at hf
        rw [← hf]
        cases hfolder : folders "pending" with
        | none => simp
        | some g => exact hpend g hfolder n
      · exact fun p hp => absurd hp (by simp [DecoderSession.new, NetPc.pump?])
      · exact fun p path seq body hw => absurd hw (by simp [DecoderSession.new])
      · exact fun p path body hw => absurd hw (by simp [DecoderSession.new])
    · rintro ⟨s, n⟩ a ⟨t, n'⟩ ⟨hf, he⟩ ⟨hans, -⟩ ht
      obtain ⟨ht, rfl⟩ := Lib.noted_eq_some.mp ht
      exact ⟨hf.step hans (steps_of_step ht), he.step hf (steps_of_step ht)⟩
  exact commitsCurrent_of_inEpoch key.2 hc

/-- A bucket with the event `"e"` only. -/
def oneEvent : MediaBucket where
  media id n b := decide (id = "e") && decide (b = [UInt8.ofNat n])
  init id b := decide (id = "e") && decide (b = [7])

/-- A recording loaded and started, and its first segment read up to the commit. -/
def readFirst : List DecoderAction :=
  pollOf { eventId := "e", status := .ended, updatedAtMs := 1, startedAtMs := 1, latestSeq := 2 } ++
    [DecoderAction.pumpDownloads 1 10, .getInit { body := [7] }, .writeInit true] ++
    downloadOf [0] ++
    [DecoderAction.commitDownloads, .start, .nextSegment, .openSegment, .loadSegment, .openInit,
      .loadInit]

/-- An empty cache directory is as an earlier session may leave it. -/
lemma genuineFolders_empty (bucket : MediaBucket) : GenuineFolders bucket fun _ => none :=
  ⟨fun _ _ h => absurd h (by simp), fun _ h => absurd h (by simp)⟩

theorem bytes_current_first : ∃ x : DecoderSession × Epoch,
    CommitsCurrent oneEvent sampleDecoder x ∧ x.1.eventId = "e" ∧
      (x.1.handed .commitSegment).map (·.init) = some [7] := by
  obtain ⟨x, hx, hc, hp⟩ := (Lib.exists_reach_guarded
    (DecoderSession.new sampleDecoder fun _ => none, ({} : Epoch)) readFirst
    ⟨_, genuineFolders_empty oneEvent, rfl⟩ (by decide +kernel) :
    ∃ x, Lib.Reach (Lib.noted (step sampleDecoder) Epoch.note)
      (fun x a => x.1.answered oneEvent a = true ∧ unswitched x a = true)
      (fun x => ∃ folders, GenuineFolders oneEvent folders ∧
        x = (DecoderSession.new sampleDecoder folders, {})) x ∧
      unswitched x .commitSegment = true ∧ x.1.eventId = "e" ∧
        (x.1.handed .commitSegment).map (·.init) = some [7])
  exact ⟨x, bytes_current oneEvent sampleDecoder hx hc, hp⟩

/-- An event change while segment 0 is read: its commit hands the old event's bytes out as
the new event's. -/
theorem old_event_served : ∃ x : DecoderSession × Epoch,
    Lib.Reach (Lib.noted (step sampleDecoder) Epoch.note)
      (fun x a => x.1.answered oneEvent a = true)
      (fun x => ∃ folders, GenuineFolders oneEvent folders ∧
        x = (DecoderSession.new sampleDecoder folders, {})) x ∧
      ¬ CommitsCurrent oneEvent sampleDecoder x := by
  obtain ⟨x, hx, hp⟩ := (Lib.exists_reach_guarded
    (DecoderSession.new sampleDecoder fun _ => none, ({} : Epoch))
    (readFirst ++ [DecoderAction.pinEvent "f", .poll 20, .readLive { body := some {} }])
    ⟨_, genuineFolders_empty oneEvent, rfl⟩ (by decide +kernel) :
    ∃ x, Lib.Reach (Lib.noted (step sampleDecoder) Epoch.note)
      (fun x a => x.1.answered oneEvent a = true)
      (fun x => ∃ folders, GenuineFolders oneEvent folders ∧
        x = (DecoderSession.new sampleDecoder folders, {})) x ∧
      x.1.eventId = "f" ∧ (x.1.handed .commitSegment).isSome = true)
  refine ⟨x, hx, fun h => ?_⟩
  obtain ⟨hevent, hhanded⟩ := hp
  obtain ⟨p, hp⟩ := Option.isSome_iff_exists.mp hhanded
  have hmedia := (h.1 p hp).2.1
  rw [hevent] at hmedia
  exact absurd hmedia (by simp [oneEvent])

end Multisite

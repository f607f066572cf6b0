import Multisite.Decoder.Steps

/-!
Nothing is silently dropped from the programme (`next_segment`, `pump_downloads`).

Once started, and while the event stays and nobody seeks, the head moves past a segment
that was handed out, that the encoder no longer has, that it lists as lost, or that was
refused `kGapAttempts` times; `m_unavailable` counts the refusals.  It counts a segment the
local disk did not take as well: `store` answers the same for that as for a wrong checksum.

* `dropped_by_disk`: three writes that fail, and a segment the bucket has is skipped;
* `nothing_dropped`: where the disk takes what is fetched and the numbers do not reach the
  end of `uint64_t`, the head moves past nothing else, and the segments handed out have
  increasing numbers.
-/

namespace Multisite

open DecoderSession

/-! ### The statement -/

/-- What a run has seen: the fetches of each segment of the event, behind the live edge,
that came back 404 or failed their checksum; whether playback was started; and the
segments handed out since, newest first. -/
structure Fetched where
  refusals : ℕ → ℕ := fun _ => 0
  started : Bool := false
  served : List ℕ := []

/-- The reply is a 404, or fails the checksum demanded. -/
def Reply.refuses (r : Reply Bytes) (cfg : DecoderConfig) (sum : String) : Bool :=
  if r.success then decide (sum ≠ "") && decide (cfg.sha256Hex r.body ≠ sum)
  else decide (r.httpStatus = 404)

namespace DecoderSession

variable (cfg : DecoderConfig) (s : DecoderSession)

/-- The segment this reply refuses, behind the live edge. -/
def refusedBy (r : Reply Bytes) : Option ℕ :=
  match s.net with
  | .fetching p =>
      match p.wanted with
      | (seq, sum) :: _ => if r.refuses cfg sum && decide (seq < s.latestSeq) then some seq else none
      | [] => none
  | _ => none

/-- The event stays, and nobody moves the head. -/
def staysPut : DecoderAction → Bool
  | .readLive r => !s.changesEvent r
  | .seek _ | .jumpToLive | .seekToMediaMs _ | .seekToWallMs _ | .jumpToMarker _ | .proceed => false
  | _ => true

/-- The disk takes a segment that was fetched, and the numbers in the manifest do not
reach the end of `uint64_t`. -/
def takesFetched : DecoderAction → Bool
  | .writeSegment ok =>
      match s.net with
      | .writing _ _ seq _ => ok || decide (s.latestSeq ≤ seq)
      | _ => true
  | .nextSegment =>
      decide (s.latestSeq + 1 < 2 ^ 64) && s.manifest.gaps.all fun g => decide (g.2 + 1 < 2 ^ 64)
  | _ => true

end DecoderSession

/-- One refusal more of the segment, if there is one. -/
def countRefusal (refusals : ℕ → ℕ) (seq : Option ℕ) : ℕ → ℕ :=
  fun k => refusals k + if seq = some k then 1 else 0

/-- The notes after a step. -/
def Fetched.note (cfg : DecoderConfig) (s : DecoderSession) (a : DecoderAction) (n : Fetched) :
    Fetched :=
  { refusals :=
      match a with
      | .readLive r => if s.changesEvent r then fun _ => 0 else n.refusals
      | .getSegment r => countRefusal n.refusals (s.refusedBy cfg r)
      | _ => n.refusals
    started := n.started || (decide (a = .start) && (s.startPlan cfg).ready)
    served := if n.started then ((s.handed a).map (·.seq)).toList ++ n.served else [] }

/-- Why the head may move past `k`: it is handed out in this step; the manifest in force
begins after it, or lists it as lost; or it is not cached and was refused too often. -/
def Accounted (s : DecoderSession) (n : Fetched) (a : DecoderAction) (k : ℕ) : Prop :=
  (s.handed a).map (·.seq) = some k ∨ k < s.manifest.firstAvailableSeq ∨ s.manifest.InGaps k ∨
    k ∉ s.cache.index ∧ kGapAttempts ≤ n.refusals k

instance (s : DecoderSession) (n : Fetched) (a : DecoderAction) (k : ℕ) :
    Decidable (Accounted s n a k) := inferInstanceAs (Decidable (_ ∨ _ ∨ _ ∨ _ ∧ _))

/-- The runs the result is about: after the start the event stays and nobody seeks. -/
def unmoved (x : DecoderSession × Fetched) (a : DecoderAction) : Bool :=
  !x.2.started || x.1.staysPut a

/-! ### The books -/

/-- The refusals of `k` a download under way has yet to commit. -/
def NetPc.owed (pc : NetPc) (latestSeq k : ℕ) : ℕ :=
  (pc.pump?.map fun p => if k < latestSeq then p.refused.count k else 0).getD 0

lemma NetPc.owed_of_pump {pc : NetPc} {p : Pump} (h : pc.pump? = some p) (latestSeq k : ℕ) :
    pc.owed latestSeq k = if k < latestSeq then p.refused.count k else 0 := by
  rw [NetPc.owed, h]
  rfl

lemma NetPc.owed_of_none {pc : NetPc} (h : pc.pump? = none) (latestSeq k : ℕ) :
    pc.owed latestSeq k = 0 := by
  rw [NetPc.owed, h]
  rfl

/-- The floor is the manifest's; no refusal is counted that was not one; and a segment is
written into a folder that is there. -/
structure Books (s : DecoderSession) (refusals : ℕ → ℕ) : Prop where
  floor : s.firstAvailableSeq = s.manifest.firstAvailableSeq
  counts : ∀ k, s.unavailable k + s.net.owed s.latestSeq k ≤ refusals k
  folder : ∀ p path seq body, s.net = .writing p path seq body → (s.cache.folders path).isSome

lemma Books.of_leaves {s t : DecoderSession} {refusals : ℕ → ℕ} (h : Books s refusals)
    (hl : Leaves s t) : Books t refusals := by
  obtain ⟨hl, hu⟩ := hl
  have hfirst : t.firstAvailableSeq = s.firstAvailableSeq := congrArg Loaded.firstAvailableSeq hl
  have hman : t.manifest = s.manifest := congrArg Loaded.manifest hl
  have hlatest : t.latestSeq = s.latestSeq := congrArg Loaded.latestSeq hl
  have hnet : t.net = s.net := congrArg Loaded.net hl
  have hcache : t.cache = s.cache := congrArg Loaded.cache hl
  refine ⟨?_, fun k => ?_, fun p path seq body hpc => ?_⟩
  · rw [hfirst, hman, h.floor]
  · rw [hnet, hlatest]
    exact le_trans (Nat.add_le_add_right (hu k) _) (h.counts k)
  · rw [hcache]
    exact h.folder p path seq body (hnet ▸ hpc)

/-- A step that owes no more than the one before it. -/
lemma Books.of_owed {s t : DecoderSession} {refusals : ℕ → ℕ} (h : Books s refusals)
    (hfloor : t.firstAvailableSeq = s.firstAvailableSeq) (hman : t.manifest = s.manifest)
    (hu : t.unavailable = s.unavailable) (hlatest : t.latestSeq = s.latestSeq)
    (howed : t.net.pump? = none ∨
      t.net.pump?.map (·.refused) = s.net.pump?.map (·.refused))
    (hfolder : ∀ p path seq body, t.net ≠ .writing p path seq body) : Books t refusals := by
  refine ⟨by rw [hfloor, hman, h.floor], fun k => ?_,
    fun p path seq body hw => absurd hw (hfolder p path seq body)⟩
  rw [hu, hlatest]
  refine le_trans (Nat.add_le_add_left ?_ _) (h.counts k)
  rcases howed with hnone | hsame
  · rw [NetPc.owed_of_none hnone]
    exact Nat.zero_le _
  · simp only [NetPc.owed]
    cases ht : t.net.pump? with
    | none => exact Nat.zero_le _
    | some p =>
        rw [ht] at hsame
        obtain ⟨q, hq, hqp⟩ := Option.map_eq_some_iff.mp hsame.symm
        simp only [hq, Option.map_some, Option.getD_some, hqp]
        exact le_rfl

lemma books_pollLive {s : DecoderSession} {refusals : ℕ → ℕ} {now : ℤ} {pinned : String}
    {r : Reply (Option LivePointer)} (h : Books s refusals) (hpc : s.net = .pollingLive now pinned) :
    Books (s.pollLive now pinned r) (if s.changesEvent r then fun _ => 0 else refusals) := by
  simp only [pollLive]
  split
  · rename_i htarget
    have hno : s.changesEvent r = false := by simp [changesEvent, hpc, htarget]
    rw [hno, noTarget]
    split
    · exact h.of_owed rfl rfl rfl rfl (Or.inl rfl) (by simp)
    · exact h.of_owed rfl rfl rfl rfl (Or.inl rfl) (by simp)
  · rename_i htarget
    simp only [enterEvent, switchEvent]
    split
    · rename_i hne
      have hyes : s.changesEvent r = true := by simp [changesEvent, hpc, htarget]; simpa using hne
      rw [hyes]
      exact ⟨h.floor, fun k => le_rfl, fun p path seq body hw => absurd hw (by simp)⟩
    · rename_i heq
      have hno : s.changesEvent r = false := by simp [changesEvent, hpc]; intro; simpa using heq
      rw [hno]
      exact ⟨h.floor, fun k => le_trans (Nat.le_add_right _ _) (h.counts k),
        fun p path seq body hw => absurd hw (by simp)⟩

lemma floor_pollEvent {cfg : DecoderConfig} {s : DecoderSession} {now : ℤ} {live : LivePointer}
    {needMarkers : Bool} {r : PollReplies}
    (h : s.firstAvailableSeq = s.manifest.firstAvailableSeq) :
    (s.pollEvent cfg now live needMarkers r).firstAvailableSeq =
      (s.pollEvent cfg now live needMarkers r).manifest.firstAvailableSeq := by
  rcases s.pollEvent_cases cfg now live needMarkers r with h' | ⟨why, h'⟩ | ⟨m, cues, at_, hint, -, -, h'⟩
  · rw [h']
    exact h
  · rw [h']
    exact h
  · rw [h']
    obtain ⟨hl, -⟩ := loaded_seen cfg
      (({ s with net := .idle } : DecoderSession).takeManifest m cues at_ hint) now live
    have hfirst := congrArg Loaded.firstAvailableSeq hl
    have hman := congrArg (·.manifest.firstAvailableSeq) hl
    exact hfirst.trans hman.symm

/-- A segment refused: the download owes one more, if it is behind the live edge. -/
lemma owed_append (l : List ℕ) (seq latestSeq k : ℕ) :
    (if k < latestSeq then (l ++ [seq]).count k else 0) =
      (if k < latestSeq then l.count k else 0) +
        if (if seq < latestSeq then some seq else none) = some k then 1 else 0 := by
  by_cases hk : k < latestSeq
  · rw [if_pos hk, if_pos hk, List.count_append, List.count_singleton]
    by_cases hs : seq = k
    · simp [hs, hk]
    · have hne : (if seq < latestSeq then some seq else none) ≠ some k := by
        split <;> simp [hs]
      rw [if_neg hne]
      simp [hs]
  · rw [if_neg hk, if_neg hk]
    have hne : (if seq < latestSeq then some seq else none) ≠ some k := by
      split
      · rintro h
        exact hk (Option.some.inj h ▸ ‹_›)
      · simp
    rw [if_neg hne]

lemma books_pumpSegment {cfg : DecoderConfig} {s : DecoderSession} {refusals : ℕ → ℕ} {p : Pump}
    {seq : ℕ} {sum : String} {rest : List (ℕ × String)} {r : Reply Bytes} (h : Books s refusals)
    (hpc : s.net = .fetching p) (hw : p.wanted = (seq, sum) :: rest) :
    Books (s.pumpSegment cfg { p with wanted := rest } seq sum r)
      (countRefusal refusals (s.refusedBy cfg r)) := by
  have hcount : ∀ k, s.unavailable k + (if k < s.latestSeq then p.refused.count k else 0) ≤
      refusals k := by
    intro k
    have hk := h.counts k
    rwa [NetPc.owed_of_pump (p := p) (by rw [hpc]; rfl)] at hk
  have hby : s.refusedBy cfg r =
      if r.refuses cfg sum then (if seq < s.latestSeq then some seq else none) else none := by
    simp only [refusedBy, hpc, hw]
    cases r.refuses cfg sum <;> simp
  -- a refusal is owed from now on, and counted
  have hrefused : ∀ q : Pump, r.refuses cfg sum = true → q.refused = p.refused ++ [seq] → ∀ k,
      s.unavailable k + (NetPc.fetching q).owed s.latestSeq k ≤
        countRefusal refusals (s.refusedBy cfg r) k := by
    intro q hr hq k
    rw [NetPc.owed_of_pump rfl, hq, owed_append, hby, if_pos hr, countRefusal]
    have := hcount k
    omega
  have hkept : ∀ pc : NetPc, pc.pump?.map (·.refused) = some p.refused → ∀ k,
      s.unavailable k + pc.owed s.latestSeq k ≤ countRefusal refusals (s.refusedBy cfg r) k := by
    intro pc hq k
    obtain ⟨q, hq, hqr⟩ := Option.map_eq_some_iff.mp hq
    rw [NetPc.owed_of_pump hq, hqr]
    exact le_trans (hcount k) (Nat.le_add_right _ _)
  rw [pumpSegment]
  split
  · rename_i hok
    split
    · rename_i hbad
      refine ⟨h.floor, hrefused _ ?_ rfl, fun p path seq body hw => absurd hw (by simp)⟩
      simp [Reply.refuses, hok, hbad.1, hbad.2]
    · refine ⟨h.floor, hkept _ rfl, fun p' path seq' body hw => ?_⟩
      obtain ⟨-, rfl, -, -⟩ := NetPc.writing.inj hw
      simp [SegmentCache.ensureDir]
  · rename_i hno
    refine ⟨h.floor, fun k => ?_, fun p path seq body hw => absurd hw (by simp)⟩
    by_cases h404 : r.httpStatus = 404
    · refine hrefused _ ?_ (by simp [Pump.getFailed, h404]) k
      simp [Reply.refuses, hno, h404]
    · exact hkept _ (by simp [NetPc.pump?, Pump.getFailed, h404]) k

/-- The disk takes the segment, or the live edge is not past it. -/
lemma books_pumpWrite {s : DecoderSession} {refusals : ℕ → ℕ} {p : Pump} {path : String} {seq : ℕ}
    {body : Bytes} {ok : Bool} (h : Books s refusals) (hpc : s.net = .writing p path seq body)
    (hc : s.takesFetched (.writeSegment ok) = true) :
    Books (s.pumpWrite p path seq body ok) refusals := by
  have htaken : (if ok then s.cache.write path seq body else none) = none → s.latestSeq ≤ seq := by
    intro hnone
    obtain ⟨f, hf⟩ := Option.isSome_iff_exists.mp (h.folder p path seq body hpc)
    cases hok : ok with
    | true => simp [hok, SegmentCache.write, hf] at hnone
    | false => simpa [takesFetched, hpc, hok] using hc
  rw [pumpWrite]
  split
  · exact h.of_owed rfl rfl rfl rfl (Or.inr (by rw [hpc]; rfl)) (by simp)
  · rename_i hnone
    refine ⟨h.floor, fun k => ?_, fun p path seq body hw => absurd hw (by simp)⟩
    refine le_trans (Nat.add_le_add_left ?_ _) (h.counts k)
    rw [NetPc.owed_of_pump (p := p.storeFailed seq) rfl,
      NetPc.owed_of_pump (p := p) (by rw [hpc]; rfl), Pump.storeFailed, owed_append,
      if_neg (htaken hnone).not_gt]
    simp

lemma books_pumpCommit {cfg : DecoderConfig} {s : DecoderSession} {refusals : ℕ → ℕ} {p : Pump}
    (h : Books s refusals) (hpc : s.net = .fetching p) : Books (s.pumpCommit cfg p) refusals := by
  refine ⟨h.floor, fun k => ?_, fun p path seq body hw => absurd hw (by simp [pumpCommit])⟩
  have hk := h.counts k
  rw [NetPc.owed_of_pump (p := p) (by rw [hpc]; rfl)] at hk
  rw [NetPc.owed_of_none rfl, Nat.add_zero]
  refine le_trans ?_ hk
  simp only [pumpCommit]
  split
  · exact Nat.zero_le _
  · refine Nat.add_le_add_left ?_ _
    by_cases hlt : k < s.latestSeq
    · rw [if_pos hlt, List.count_filter (by simpa using hlt)]
    · rw [if_neg hlt, List.count_eq_zero.mpr]
      simp [hlt]

/-- **A step keeps the books**, where the disk takes what is fetched. -/
lemma Books.step {cfg : DecoderConfig} {s t : DecoderSession} {n : Fetched} {a : DecoderAction}
    (h : Books s n.refusals) (hc : s.takesFetched a = true) (ht : Steps cfg s a t) :
    Books t (Fetched.note cfg s a n).refusals := by
  cases ha : a.isNet with
  | false =>
      have hnote : (Fetched.note cfg s a n).refusals = n.refusals := by
        cases a <;> first | rfl | exact absurd ha (by simp [DecoderAction.isNet])
      rw [hnote]
      cases hpin : a.isPin with
      | false => exact h.of_leaves (leaves_of_not_net ht ha hpin)
      | true =>
          cases ht with
          | pinEvent => exact ⟨h.floor, h.counts, h.folder⟩
          | unpin => exact ⟨h.floor, h.counts, h.folder⟩
          | _ => exact absurd hpin (by simp [DecoderAction.isPin])
  | true =>
      cases ht with
      | poll hpc =>
          refine h.of_owed ?_ ?_ ?_ ?_ (Or.inl rfl) (by simp) <;> rw [noteStalled] <;> split <;> rfl
      | readLive hpc => exact books_pollLive h hpc
      | readEvent hpc =>
          obtain ⟨hnet, -, -, hu⟩ := pollEvent_frame cfg s _ _ _ _
          refine ⟨floor_pollEvent h.floor, fun k => ?_, fun p path seq body hw => ?_⟩
          · rw [hnet, hu, NetPc.owed_of_none rfl]
            exact le_trans (Nat.le_add_right _ _) (h.counts k)
          · exact absurd (hnet.symm.trans hw) (by simp)
      | plan hpc hp =>
          rw [pumpPlan] at hp
          split at hp
          · rw [← Option.some.inj hp]
            exact h
          · obtain ⟨wanted, -, rfl⟩ := Option.map_eq_some_iff.mp hp
            refine ⟨h.floor, fun k => ?_, fun p path seq body hw => ?_⟩
            · refine le_trans (Nat.add_le_add_left ?_ _) (h.counts k)
              simp only
              split <;> simp [NetPc.owed, NetPc.pump?]
            · simp only at hw
              split at hw <;> exact absurd hw (by simp)
      | getInit hpc =>
          rw [pumpInit]
          split
          · split
            · exact h.of_owed rfl rfl rfl rfl (Or.inl rfl) (by simp)
            · exact h.of_owed rfl rfl rfl rfl (Or.inr (by rw [hpc]; rfl)) (by simp)
          · exact h.of_owed rfl rfl rfl rfl (Or.inl rfl) (by simp)
      | writeInit hpc =>
          rw [pumpInitWrite]
          split
          · exact h.of_owed rfl rfl rfl rfl (Or.inr (by rw [hpc]; rfl)) (by simp)
          · exact h.of_owed rfl rfl rfl rfl (Or.inl rfl) (by simp)
      | getSegment hpc hw => exact books_pumpSegment h hpc hw
      | writeSegment hpc => exact books_pumpWrite h hpc hc
      | indexSegment hpc =>
          exact h.of_owed rfl rfl rfl rfl (Or.inr (by rw [hpc]; rfl)) (by simp [pumpIndex])
      | commitDownloads hpc => exact books_pumpCommit h hpc
      | _ => exact absurd ha (by simp [DecoderAction.isNet])

/-! ### The head -/

lemma head_floorSkip (s : DecoderSession) :
    s.head ≤ s.floorSkip.head ∧ ∀ k, s.head ≤ k → k < s.floorSkip.head → k < s.firstAvailableSeq := by
  rcases s.floorSkip_cases with ⟨-, h⟩ | ⟨hlt, h⟩
  · rw [h]
    exact ⟨le_rfl, fun k h1 h2 => absurd h1 (by omega)⟩
  · rw [h]
    exact ⟨hlt.le, fun k _ h2 => h2⟩

/-- What the choice of a segment moves the head past: what is below the floor, in a gap,
or given up. -/
lemma nextSegment_head {s : DecoderSession} (hc : s.takesFetched .nextSegment = true) :
    s.head ≤ s.nextSegment.head ∧ ∀ k, s.head ≤ k → k < s.nextSegment.head →
      k < s.firstAvailableSeq ∨ s.manifest.InGaps k ∨
        k ∉ s.cache.index ∧ kGapAttempts ≤ s.unavailable k := by
  simp only [takesFetched, Bool.and_eq_true, decide_eq_true_eq, List.all_eq_true] at hc
  obtain ⟨hlatest, hgaps⟩ := hc
  obtain ⟨hle, hfloor⟩ := head_floorSkip s
  have key := s.next_nextSegment
  generalize s.nextSegment = t at key ⊢
  cases key with
  | notDue => exact ⟨le_rfl, fun k h1 h2 => absurd h1 (by omega)⟩
  | overtaken => exact ⟨hle, fun k h1 h2 => Or.inl (hfloor k h1 h2)⟩
  | gap _ _ hg =>
      obtain ⟨g, hmem, h1, h2, rfl⟩ := Manifest.gapEnd_eq_some hg
      have hhead : (s.floorSkip.skipTo (wrapU64 (g.2 + 1))).head = g.2 + 1 :=
        wrapU64_of_lt (hgaps g hmem)
      rw [hhead]
      refine ⟨by omega, fun k hk hk' => ?_⟩
      by_cases hf : k < s.floorSkip.head
      · exact Or.inl (hfloor k hk hf)
      · exact Or.inr (Or.inl ⟨g, hmem, by omega, by omega⟩)
  | choose => exact ⟨hle, fun k h1 h2 => Or.inl (hfloor k h1 h2)⟩
  | refused _ hl _ hm hr =>
      have hhead : s.floorSkip.refusalSkip.head = s.floorSkip.head + 1 :=
        wrapU64_of_lt (by omega)
      rw [hhead]
      refine ⟨by omega, fun k hk hk' => ?_⟩
      by_cases hf : k < s.floorSkip.head
      · exact Or.inl (hfloor k hk hf)
      · have hkeq : k = s.floorSkip.head := by omega
        have hun : s.floorSkip.unavailable = s.unavailable := by
          rw [floorSkip]
          split <;> rfl
        simp only [givenUp, hun, Bool.and_eq_true, decide_eq_true_eq] at hr
        exact Or.inr (Or.inr (hkeq ▸ ⟨hm, hr.1⟩))
  | wait => exact ⟨hle, fun k h1 h2 => Or.inl (hfloor k h1 h2)⟩

lemma headSet_nextSegment {s : DecoderSession} : s.nextSegment.headSet = s.headSet := by
  have hfloor : s.floorSkip.headSet = s.headSet := by
    rw [floorSkip]
    split <;> rfl
  have key := s.next_nextSegment
  generalize s.nextSegment = t at key ⊢
  cases key with
  | notDue => rfl
  | overtaken => exact hfloor
  | gap => exact hfloor
  | choose => exact hfloor
  | refused => exact hfloor
  | wait => exact hfloor

/-- The segment chosen is the one at the head. -/
lemma chosen_nextSegment {s : DecoderSession} (hpc : s.feed = .idle)
    (hc : s.takesFetched .nextSegment = true) (c : Chosen)
    (h : s.nextSegment.feed.chosen? = some c) : c.out.seq = c.want ∧ c.want + 1 < 2 ^ 64 := by
  simp only [takesFetched, Bool.and_eq_true, decide_eq_true_eq] at hc
  have hidle : s.floorSkip.feed.chosen? = none := by rw [feed_floorSkip, hpc]; rfl
  have key := s.next_nextSegment
  generalize s.nextSegment = t at key h
  cases key with
  | notDue => exact absurd h (by simp [hpc, FeedPc.chosen?])
  | overtaken => exact absurd (hidle.symm.trans h) (by simp)
  | gap => exact absurd (hidle.symm.trans h) (by simp)
  | choose _ hl =>
      rw [← Option.some.inj h]
      exact ⟨rfl, by simp only; omega⟩
  | refused => exact absurd (hidle.symm.trans h) (by simp)
  | wait => exact absurd h (by simp [waited, FeedPc.chosen?])

/-- The segment under way is the one at the number it was chosen for, which is not the
last of `uint64_t`; the head is seated once playback was started, and past what was handed
out. -/
structure Rising (s : DecoderSession) (n : Fetched) : Prop where
  chosen : ∀ c, s.feed.chosen? = some c → c.out.seq = c.want ∧ c.want + 1 < 2 ^ 64
  seated : n.started = true → s.headSet = true
  below : ∀ k ∈ n.served, k < s.head
  rising : n.served.Pairwise (· > ·)

lemma playhead_pollLive_stays {s : DecoderSession} {now : ℤ} {pinned : String}
    {r : Reply (Option LivePointer)} (hpc : s.net = .pollingLive now pinned)
    (h : s.changesEvent r = false) : (s.pollLive now pinned r).playhead = s.playhead := by
  simp only [pollLive]
  split
  · rw [noTarget]
    split <;> rfl
  · rename_i htarget
    have hsame : pollTarget pinned (readLive r).1 = s.eventId := by
      simpa [changesEvent, hpc, htarget] using h
    simp only [enterEvent, switchEvent, hsame, ne_eq, not_true_eq_false, if_false]
    rfl

/-- A step that is not `next_segment`'s leaves a seated head where it is, while the event
stays and nobody seeks. -/
lemma head_of_staysPut {cfg : DecoderConfig} {s t : DecoderSession} {a : DecoderAction}
    (h : Steps cfg s a t) (ha : a.isFeed = false) (hp : s.staysPut a = true)
    (hset : s.headSet = true) : t.head = s.head ∧ t.headSet = true := by
  have of_playhead : t.playhead = s.playhead → t.head = s.head ∧ t.headSet = true := fun h =>
    ⟨congrArg Playhead.head h, (congrArg Playhead.headSet h).trans hset⟩
  cases hnet : a.isNet with
  | true =>
      rcases playhead_of_net h hnet with h' | ⟨⟨r, rfl⟩, -⟩
      · exact of_playhead h'
      · cases h with
        | readLive hpc => exact of_playhead (playhead_pollLive_stays hpc (by simpa [staysPut] using hp))
  | false =>
      cases h with
      | start =>
          rcases playhead_start cfg s with h' | ⟨hno, -⟩
          · exact of_playhead h'
          · exact absurd hset (by simp [hno])
      | pause => exact ⟨rfl, hset⟩
      | resume => exact ⟨rfl, hset⟩
      | requestInit => exact ⟨rfl, hset⟩
      | pinEvent => exact ⟨rfl, hset⟩
      | unpin => exact ⟨rfl, hset⟩
      | _ => simp [DecoderAction.isFeed, DecoderAction.isNet, staysPut] at ha hnet hp

lemma handed_eq_none {s : DecoderSession} {a : DecoderAction} (ha : a ≠ .commitSegment) :
    s.handed a = none := by
  cases a <;> first | rfl | exact absurd rfl ha

/-- A step that hands out nothing and does not put the head back. -/
lemma Rising.of_quiet {cfg : DecoderConfig} {s t : DecoderSession} {n : Fetched}
    {a : DecoderAction} (h : Rising s n) (ha : a ≠ .commitSegment)
    (hchosen : ∀ c, t.feed.chosen? = some c → c.out.seq = c.want ∧ c.want + 1 < 2 ^ 64)
    (hset : n.started = true → t.headSet = true ∧ s.head ≤ t.head)
    (hnew : a = .start → (s.startPlan cfg).ready = true → t.headSet = true) :
    Rising t (Fetched.note cfg s a n) := by
  have hserved : (Fetched.note cfg s a n).served = if n.started then n.served else [] := by
    simp [Fetched.note, handed_eq_none ha]
  refine ⟨hchosen, fun hs => ?_, fun k hk => ?_, ?_⟩
  · simp only [Fetched.note, Bool.or_eq_true, Bool.and_eq_true, decide_eq_true_eq] at hs
    rcases hs with hs | ⟨rfl, hready⟩
    · exact (hset hs).1
    · exact hnew rfl hready
  · rw [hserved] at hk
    split at hk
    · rename_i hs
      exact lt_of_lt_of_le (h.below k hk) (hset hs).2
    · exact absurd hk (by simp)
  · rw [hserved]
    split
    · exact h.rising
    · exact List.Pairwise.nil

lemma Rising.commit {cfg : DecoderConfig} {s : DecoderSession} {n : Fetched} {c : Chosen}
    {init : Bytes} (h : Rising s n) (hpc : s.feed = .committing c init) :
    Rising (s.nextCommit c init) (Fetched.note cfg s .commitSegment n) := by
  obtain ⟨hseq, hlt⟩ := h.chosen c (by rw [hpc]; rfl)
  have hstarted : (Fetched.note cfg s .commitSegment n).started = n.started := by
    simp [Fetched.note]
  have hserved : (Fetched.note cfg s .commitSegment n).served =
      if n.started then ((s.returned c init).map (·.seq)).toList ++ n.served else [] := by
    simp [Fetched.note, handed, hpc]
  have hidle : (s.nextCommit c init).feed.chosen? = none := by
    rw [nextCommit]
    split <;> rfl
  have hset : (s.nextCommit c init).headSet = s.headSet := by
    rw [nextCommit]
    split <;> rfl
  refine ⟨fun c' hc' => absurd hc' (by simp [hidle]), fun hs => ?_, ?_, ?_⟩
  · rw [hset]
    exact h.seated (hstarted ▸ hs)
  · rw [hserved, nextCommit, returned]
    intro k hk
    by_cases hhead : s.head = c.want
    · have hnext : wrapU64 (s.head + 1) = s.head + 1 := wrapU64_of_lt (by omega)
      simp only [if_pos hhead, Option.isSome_some, if_true, hnext]
      split at hk
      · simp only [Option.map_some, Option.toList_some, List.singleton_append, List.mem_cons] at hk
        rcases hk with rfl | hk
        · omega
        · exact Nat.lt_succ_of_lt (h.below k hk)
      · exact absurd hk (by simp)
    · simp only [if_neg hhead, Option.isSome_none, Bool.false_eq_true, if_false]
      split at hk
      · simp only [Option.map_none, Option.toList_none, List.nil_append] at hk
        exact h.below k hk
      · exact absurd hk (by simp)
  · rw [hserved, returned]
    split
    · by_cases hhead : s.head = c.want
      · simp only [if_pos hhead, Option.map_some, Option.toList_some, List.singleton_append]
        refine List.pairwise_cons.mpr ⟨fun k hk => ?_, h.rising⟩
        have := h.below k hk
        omega
      · simpa [if_neg hhead] using h.rising
    · exact List.Pairwise.nil

lemma Rising.step {cfg : DecoderConfig} {s t : DecoderSession} {n : Fetched} {a : DecoderAction}
    (h : Rising s n) (hm : unmoved (s, n) a = true) (hc : s.takesFetched a = true)
    (ht : Steps cfg s a t) : Rising t (Fetched.note cfg s a n) := by
  have hput : n.started = true → s.staysPut a = true := by
    intro hs
    simpa [unmoved, hs] using hm
  cases hfeed : a.isFeed with
  | false =>
      have hsame := feed_of_not_feed ht hfeed
      refine h.of_quiet (by rintro rfl; simp [DecoderAction.isFeed] at hfeed)
        (fun c hcs => h.chosen c (hsame ▸ hcs)) (fun hs => ?_) ?_
      · obtain ⟨h1, h2⟩ := head_of_staysPut ht hfeed (hput hs) (h.seated hs)
        exact ⟨h2, h1.ge⟩
      · rintro rfl hready
        cases ht with
        | start =>
            simp only [start, hready, if_true]
  | true =>
      cases hread : a.isRead with
      | true =>
          have hr := reading_of_read ht hread
          refine h.of_quiet (by rintro rfl; simp [DecoderAction.isRead] at hread) (fun c' hc' => ?_)
            (fun hs => ⟨?_, ?_⟩) (by rintro rfl; simp [DecoderAction.isRead] at hread)
          · obtain ⟨c, hcs, hsame⟩ := hr.chosen c' hc'
            rw [hsame]
            exact h.chosen c hcs
          · exact (congrArg Playhead.headSet hr.playhead).trans (h.seated hs)
          · exact (congrArg Playhead.head hr.playhead).ge
      | false =>
          cases ht with
          | nextSegment hpc =>
              refine h.of_quiet (by simp) ?_ (fun hs => ⟨?_, (nextSegment_head hc).1⟩) (by simp)
              · exact chosen_nextSegment hpc hc
              · exact headSet_nextSegment.trans (h.seated hs)
          | commitSegment hpc => exact h.commit hpc
          | _ => simp [DecoderAction.isFeed, DecoderAction.isRead] at hfeed hread

/-- What a step moves the head past is accounted for. -/
lemma accounted_of_step {cfg : DecoderConfig} {s t : DecoderSession} {n : Fetched}
    {a : DecoderAction} (hb : Books s n.refusals) (hr : Rising s n) (hs : n.started = true)
    (hput : s.staysPut a = true) (hc : s.takesFetched a = true) (ht : Steps cfg s a t) {k : ℕ}
    (hk : s.head ≤ k) (hkt : k < t.head) : Accounted s n a k := by
  cases hfeed : a.isFeed with
  | false =>
      obtain ⟨hhead, -⟩ := head_of_staysPut ht hfeed hput (hr.seated hs)
      omega
  | true =>
      cases hread : a.isRead with
      | true =>
          have hhead : t.head = s.head := congrArg Playhead.head (reading_of_read ht hread).playhead
          omega
      | false =>
          cases ht with
          | nextSegment =>
              rcases (nextSegment_head hc).2 k hk hkt with hfloor | hgap | ⟨hm, hu⟩
              · exact Or.inr (Or.inl (hb.floor ▸ hfloor))
              · exact Or.inr (Or.inr (Or.inl hgap))
              · have := hb.counts k
                exact Or.inr (Or.inr (Or.inr ⟨hm, by omega⟩))
          | @commitSegment c init hpc =>
              obtain ⟨hseq, hlt⟩ := hr.chosen c (by rw [hpc]; rfl)
              rw [nextCommit, returned] at hkt
              by_cases hhead : s.head = c.want
              · have hnext : wrapU64 (s.head + 1) = s.head + 1 := wrapU64_of_lt (by omega)
                simp only [if_pos hhead, Option.isSome_some, if_true, hnext] at hkt
                refine Or.inl ?_
                simp only [handed, hpc, returned, if_pos hhead, Option.map_some, Option.some.injEq]
                omega
              · simp only [if_neg hhead, Option.isSome_none, Bool.false_eq_true, if_false] at hkt
                omega
          | _ => simp [DecoderAction.isFeed, DecoderAction.isRead] at hfeed hread

/-- **Nothing is silently dropped.**  In every run in which, after the start, the event
stays and nobody seeks, and in which the disk takes what is fetched, the head moves past a
segment only when it is handed out, below the manifest's floor, in its gaps, or not cached
and refused `kGapAttempts` times; and the segments handed out have increasing numbers. -/
theorem nothing_dropped (cfg : DecoderConfig) {x : DecoderSession × Fetched}
    (h : Lib.Reach (Lib.noted (step cfg) (Fetched.note cfg))
      (fun x a => unmoved x a = true ∧ x.1.takesFetched a = true)
      (fun x => ∃ folders, x = (DecoderSession.new cfg folders, {})) x) :
    x.2.served.Pairwise (· > ·) ∧
      (x.2.started = true → ∀ a t, unmoved x a = true → x.1.takesFetched a = true →
        x.1.step cfg a = some t → ∀ k, x.1.head ≤ k → k < t.head → Accounted x.1 x.2 a k) := by
  have key : Books x.1 x.2.refusals ∧ Rising x.1 x.2 := by
    refine h.invariant (I := fun x => Books x.1 x.2.refusals ∧ Rising x.1 x.2) ?_ ?_
    · rintro _ ⟨folders, rfl⟩
      refine ⟨⟨rfl, fun k => le_rfl, fun p path seq body hw => ?_⟩,
        ⟨fun c hc => ?_, fun hs => ?_, fun k hk => ?_, List.Pairwise.nil⟩⟩
      · exact absurd hw (by simp [DecoderSession.new])
      · exact absurd hc (by simp [DecoderSession.new, FeedPc.chosen?])
      · exact absurd hs (by simp)
      · exact absurd hk (by simp)
    · rintro ⟨s, n⟩ a ⟨t, n'⟩ ⟨hb, hr⟩ ⟨hm, hc⟩ ht
      obtain ⟨ht, rfl⟩ := Lib.noted_eq_some.mp ht
      exact ⟨hb.step hc (steps_of_step ht), hr.step hm hc (steps_of_step ht)⟩
  refine ⟨key.2.rising, fun hs a t hm hc ht k hk hkt => ?_⟩
  have hput : x.1.staysPut a = true := by simpa [unmoved, hs] using hm
  exact accounted_of_step key.1 key.2 hs hput hc (steps_of_step ht) hk hkt

/-- A recording of three segments. -/
def threeSegments : Manifest :=
  { eventId := "e", status := .ended, updatedAtMs := 1, startedAtMs := 1, latestSeq := 2 }

/-- A pass of `pump_downloads` that fetches segment 1, which the store has or does not
have, and the disk takes or does not take. -/
def fetchOne (found taken : Bool) : List DecoderAction :=
  [DecoderAction.pumpDownloads 1 10] ++
    (if found then [DecoderAction.getSegment { body := [1] }, .writeSegment taken]
      else [DecoderAction.getSegment { success := false, httpStatus := 404, body := [] }]) ++
    [DecoderAction.commitDownloads]

/-- The recording started with its first and last segment cached, the first of them
served, and three passes that do not bring the second. -/
def missOne (found : Bool) : List DecoderAction :=
  pollOf threeSegments ++
    [DecoderAction.pumpDownloads 8 10, .getInit { body := [7] }, .writeInit true] ++
    downloadOf [0] ++
    [DecoderAction.getSegment { success := false, httpStatus := 503, body := [] }] ++
    downloadOf [2] ++ [DecoderAction.commitDownloads, .start] ++ serve true ++
    fetchOne found false ++ fetchOne found false ++ fetchOne found false

theorem nothing_dropped_refused : ∃ x : DecoderSession × Fetched,
    (x.2.served.Pairwise (· > ·) ∧ (x.2.started = true → ∀ a t, unmoved x a = true →
      x.1.takesFetched a = true → x.1.step sampleDecoder a = some t →
      ∀ k, x.1.head ≤ k → k < t.head → Accounted x.1 x.2 a k)) ∧
      x.2.started = true ∧ x.1.head = 1 ∧ (x.1.step sampleDecoder .nextSegment).any (·.head = 2) := by
  obtain ⟨x, hx, hp⟩ := (Lib.exists_reach_guarded
    (DecoderSession.new sampleDecoder fun _ => none, ({} : Fetched)) (missOne false) ⟨_, rfl⟩
    (by decide +kernel) :
    ∃ x, Lib.Reach (Lib.noted (step sampleDecoder) (Fetched.note sampleDecoder))
      (fun x a => unmoved x a = true ∧ x.1.takesFetched a = true)
      (fun x => ∃ folders, x = (DecoderSession.new sampleDecoder folders, {})) x ∧
      x.2.started = true ∧ x.1.head = 1 ∧ (x.1.step sampleDecoder .nextSegment).any (·.head = 2))
  exact ⟨x, nothing_dropped sampleDecoder hx, hp⟩

/-- Three writes that fail: the head moves past a segment the store has. -/
theorem dropped_by_disk : ∃ x : DecoderSession × Fetched,
    Lib.Reach (Lib.noted (step sampleDecoder) (Fetched.note sampleDecoder))
      (fun x a => unmoved x a = true)
      (fun x => ∃ folders, x = (DecoderSession.new sampleDecoder folders, {})) x ∧
      x.2.started = true ∧ x.1.head = 1 ∧
      (x.1.step sampleDecoder .nextSegment).any (fun t => decide (t.head = 2)) = true ∧
      ¬ Accounted x.1 x.2 .nextSegment 1 :=
  Lib.exists_reach_guarded (DecoderSession.new sampleDecoder fun _ => none, ({} : Fetched))
    (missOne true) ⟨_, rfl⟩ (by decide +kernel)

end Multisite

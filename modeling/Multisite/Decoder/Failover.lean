import Multisite.Decoder.Steps
import Multisite.Decoder.Transport

/-!
The decoder's switch to the second bucket, and cancelling, through every composition of
transports (`poll`, `MirrorReadTransport`, `FallbackTransport`).

* `failover_passes`: in every state a session and its transport reach, the reads of a poll
  that follows a stalled manifest ask the second bucket before the first exactly where no
  `FallbackTransport` stands over the two and the poll lists no cues; `cancel_pending` and
  then `resume_pending` leave every leaf usable exactly where there is no
  `FallbackTransport`; and `last_request_cancelled` speaks of the request that produced the
  result exactly while the leaves' flags agree, as they do unless a leaf is cancelled or
  resumed by itself;
* `failover_stops`: behind a `FallbackTransport` the switch has no effect, and a cancelled
  leaf stays cancelled; and a leaf that was not used can say that the request was cancelled.
-/

namespace Multisite

open DecoderSession

/-! ### The session and its transport -/

/-- A session and the transport it was built on. -/
structure Reader where
  session : DecoderSession
  tx : Transport

/-- The steps of the session, and what it or its host does to the transport. -/
inductive ReaderAction where
  | session (a : DecoderAction)
  | get (servers : LeafName → Answer)
  | cancelPending
  | resumePending
  | setCancel (leaf : LeafName) (on : Bool)

/-- The session, told what its transport prefers. -/
def Reader.informed (x : Reader) : DecoderSession :=
  { x.session with secondary := x.tx.preferringSecondary }

/-- The start of `poll` on the transport. -/
def Reader.noteStalled (x : Reader) : Transport :=
  if x.session.manifestStalled && !x.session.switchedTarget && !x.tx.preferringSecondary then
    x.tx.preferSecondary true
  else x.tx

/-- The start of a poll. -/
def DecoderAction.isPoll : DecoderAction → Bool
  | .poll _ => true
  | _ => false

/-- One step. -/
def Reader.step (cfg : DecoderConfig) (x : Reader) : ReaderAction → Option Reader
  | .session a =>
      (x.informed.step cfg a).map fun t =>
        { session := t, tx := if a.isPoll then x.noteStalled else x.tx }
  | .get servers => some { x with tx := (x.tx.get servers).tx }
  | .cancelPending => some { x with tx := x.tx.cancelPending }
  | .resumePending => some { x with tx := x.tx.resumePending }
  | .setCancel leaf on => some { x with tx := x.tx.setCancel leaf on }

/-! ### The statement -/

/-- The manifest this poll reads is stalled, and not ended. -/
def DecoderSession.commitsStalled (cfg : DecoderConfig) (s : DecoderSession) (r : PollReplies) :
    Bool :=
  match s.net with
  | .pollingEvent now _ _ _ =>
      r.manifest.success && r.manifest.body.any fun m =>
        protocolReadable m.protocolVersion && decide (m.status ≠ Status.ended) &&
          decide (0 < m.updatedAtMs) && decide (cfg.staleAfterMs < now - m.updatedAtMs)
  | _ => false

/-- What a run has seen: a stalled manifest was committed; the poll under way, or the last
one, began after that; a leaf was cancelled or resumed by itself. -/
structure Switch where
  stalled : Bool := false
  switching : Bool := false
  alone : Bool := false
  deriving DecidableEq

/-- The notes after a step. -/
def Switch.note (cfg : DecoderConfig) (x : Reader) (a : ReaderAction) (n : Switch) : Switch :=
  match a with
  | .session (.poll _) => { n with switching := n.stalled }
  | .session (.readEvent r) =>
      { n with stalled := n.stalled || x.session.commitsStalled cfg r }
  | .setCancel _ _ => { n with alone := true }
  | _ => n

/-- The second bucket is asked before the first. -/
def secondFirst : List LeafName → Bool
  | [] => true
  | .second :: _ => true
  | .first :: _ => false
  | .lan :: asked => secondFirst asked

/-- This part of a poll lists the cue files. -/
def DecoderSession.listsCues (s : DecoderSession) (r : PollReplies) : Bool :=
  match s.net with
  | .pollingEvent _ _ _ needMarkers =>
      needMarkers && r.manifest.success && r.manifest.body.any fun m =>
        protocolReadable m.protocolVersion
  | _ => false

/-- Every read of this part of the poll asks the second bucket before the first, whatever
the servers answer. -/
def Reader.ReadsSecond (x : Reader) (r : PollReplies) : Prop :=
  (∀ servers, secondFirst ((x.tx.get servers).asked.map Asked.leaf) = true) ∧
    (x.session.listsCues r = true → ∀ answers, secondFirst (x.tx.list answers).2 = true)

namespace Transport

/-- It has a `MirrorReadTransport`. -/
def hasMirror : Transport → Bool
  | leaf _ => false
  | mirrorRead _ _ _ => true
  | fallback p s _ => p.hasMirror || s.hasMirror

/-- It has a `FallbackTransport`. -/
def hasFallback : Transport → Bool
  | leaf _ => false
  | mirrorRead p s _ => p.hasFallback || s.hasFallback
  | fallback _ _ _ => true

/-- Every leaf can be used. -/
def Usable (t : Transport) : Prop := ∀ l ∈ t.leaves, l.cancel = false

/-- The leaves are cancelled together. -/
def FlagsAgree (t : Transport) : Prop := ∀ l ∈ t.leaves, ∀ l' ∈ t.leaves, l.cancel = l'.cancel

/-- After a `get`, `last_request_cancelled` says that the request which produced the result
was cancelled, whatever the servers answer. -/
def TellsCancelled (t : Transport) : Prop :=
  ∀ servers, (t.get servers).tx.lastRequestCancelled = true →
    ∃ a, (t.get servers).asked.getLast? = some a ∧ a.aborted = true

/-! ### The leaves -/

section Leaves

variable {t : Transport} {servers : LeafName → Answer}

lemma lastRequestCancelled_iff :
    t.lastRequestCancelled = true ↔ ∃ l ∈ t.leaves, l.cancel = true := by
  induction t with
  | leaf l => simp [lastRequestCancelled, leaves]
  | mirrorRead p s f hp hs => simp [lastRequestCancelled, leaves, hp, hs, or_and_right, exists_or]
  | fallback p s h hp hs => simp [lastRequestCancelled, leaves, hp, hs, or_and_right, exists_or]

/-- A request leaves the cancel flags as they are. -/
lemma leaves_get :
    (t.get servers).tx.leaves.map (fun l => (l.name, l.cancel)) =
      t.leaves.map fun l => (l.name, l.cancel) := by
  induction t with
  | leaf l =>
      simp only [get, Leaf.get]
      split
      · rfl
      · split
        · split <;> rfl
        · rfl
  | mirrorRead p s f hp hs =>
      simp only [get]
      split_ifs <;> simp [leaves, hp, hs]
  | fallback p s h hp hs =>
      simp only [get]
      split_ifs <;> simp [leaves, hp, hs]

/-- The requests are leaves' requests, and those of cancelled leaves are aborted. -/
lemma mem_asked {a : Asked} (ha : a ∈ (t.get servers).asked) :
    ∃ l ∈ t.leaves, a = ⟨l.name, l.cancel⟩ := by
  induction t with
  | leaf l => simpa [get, leaves] using ha
  | mirrorRead p s f hp hs =>
      simp only [get] at ha
      simp only [leaves, List.mem_append]
      split_ifs at ha <;> grind
  | fallback p s h hp hs =>
      simp only [get] at ha
      simp only [leaves, List.mem_append]
      split_ifs at ha <;> grind

lemma asked_ne_nil : (t.get servers).asked ≠ [] := by
  induction t with
  | leaf l => simp [get]
  | mirrorRead p s f hp hs =>
      simp only [get]
      split_ifs <;> simp [hp, hs]
  | fallback p s h hp hs =>
      simp only [get]
      split_ifs <;> simp [hp, hs]

/-- Where every leaf is cancelled or its server fails, so does the request. -/
lemma get_fails (h : ∀ l ∈ t.leaves, l.cancel = true ∨ ∃ e, servers l.name = .failed e) :
    (t.get servers).result.success = false := by
  induction t with
  | leaf l =>
      rcases h l (by simp [leaves]) with hc | ⟨e, he⟩
      · simp [get, Leaf.get, hc]
      · simp only [get, Leaf.get, he]
        split <;> rfl
  | mirrorRead p s f hp hs =>
      have hp' := hp fun l hl => h l (by simp [leaves, hl])
      have hs' := hs fun l hl => h l (by simp [leaves, hl])
      simp only [get, hp', hs']
      split_ifs <;> simp_all
  | fallback p s f hp hs =>
      have hp' := hp fun l hl => h l (by simp [leaves, hl])
      have hs' := hs fun l hl => h l (by simp [leaves, hl])
      simp [get, hp', hs']

/-- The servers of which only one answers. -/
def only (name : LeafName) : LeafName → Answer :=
  fun n => if n = name then .http 200 "" [] else .failed "unreachable"

lemma get_only_other {name : LeafName} (h : ∀ l ∈ t.leaves, l.name ≠ name) :
    (t.get (only name)).result.success = false :=
  get_fails fun l hl => Or.inr ⟨"unreachable", if_neg (h l hl)⟩

/-- **A leaf that is not cancelled can be the one that produces the result.** -/
lemma get_only {l : Leaf} (hl : l ∈ t.leaves) (hc : l.cancel = false)
    (hnodup : (t.leaves.map Leaf.name).Nodup) :
    (t.get (only l.name)).result.success = true ∧
      (t.get (only l.name)).asked.getLast? = some ⟨l.name, false⟩ := by
  -- of two transports the one without the leaf fails, first or second
  have key : ∀ p s : Transport, l ∈ p.leaves ++ s.leaves →
      ((p.leaves ++ s.leaves).map Leaf.name).Nodup →
      (l ∈ p.leaves ∧ (p.leaves.map Leaf.name).Nodup ∧
        (s.get (only l.name)).result.success = false) ∨
      l ∈ s.leaves ∧ (s.leaves.map Leaf.name).Nodup ∧
        (p.get (only l.name)).result.success = false := by
    intro p s hl hn
    rw [List.map_append, List.nodup_append] at hn
    obtain ⟨hnp, hns, hne⟩ := hn
    rcases List.mem_append.mp hl with hl | hl
    · refine Or.inl ⟨hl, hnp, get_only_other fun l' hl' h => ?_⟩
      exact hne _ (List.mem_map_of_mem hl) _ (List.mem_map_of_mem hl') h.symm
    · refine Or.inr ⟨hl, hns, get_only_other fun l' hl' h => ?_⟩
      exact hne _ (List.mem_map_of_mem hl') _ (List.mem_map_of_mem hl) h
  induction t with
  | leaf l' =>
      obtain rfl : l = l' := by simpa [leaves] using hl
      simp [get, Leaf.get, hc, only]
  | mirrorRead p s f hp hs =>
      rcases key p s hl hnodup with ⟨hl, hn, hother⟩ | ⟨hl, hn, hother⟩
      · obtain ⟨hok, hlast⟩ := hp hl hn
        simp only [get, hok, hother, if_true, Bool.false_eq_true, if_false]
        split <;> simp [hok, hlast]
      · obtain ⟨hok, hlast⟩ := hs hl hn
        simp only [get, hok, hother, if_true, Bool.false_eq_true, if_false]
        split <;> simp [hok, hlast]
  | fallback p s f hp hs =>
      rcases key p s hl hnodup with ⟨hl, hn, -⟩ | ⟨hl, hn, hother⟩
      · obtain ⟨hok, hlast⟩ := hp hl hn
        simp [get, hok, hlast]
      · obtain ⟨hok, hlast⟩ := hs hl hn
        simp [get, hok, hother, hlast]

/-- **`last_request_cancelled` tells exactly while the flags agree.** -/
lemma tellsCancelled_iff (hnodup : (t.leaves.map Leaf.name).Nodup) :
    t.TellsCancelled ↔ t.FlagsAgree := by
  have hflag : ∀ servers, (t.get servers).tx.lastRequestCancelled = true ↔
      ∃ l ∈ t.leaves, l.cancel = true := by
    intro servers
    have hmem : ∀ c, c ∈ (t.get servers).tx.leaves.map (fun l => (l.name, l.cancel)) ↔
        c ∈ t.leaves.map fun l => (l.name, l.cancel) := by
      intro c
      rw [leaves_get]
    rw [lastRequestCancelled_iff]
    constructor
    · rintro ⟨l, hl, hc⟩
      obtain ⟨l', hl', he⟩ := List.mem_map.mp ((hmem _).mp (List.mem_map_of_mem hl))
      exact ⟨l', hl', (congrArg Prod.snd he).trans hc⟩
    · rintro ⟨l, hl, hc⟩
      obtain ⟨l', hl', he⟩ := List.mem_map.mp ((hmem _).mpr (List.mem_map_of_mem hl))
      exact ⟨l', hl', (congrArg Prod.snd he).trans hc⟩
  constructor
  · intro h l hl l' hl'
    by_contra hne
    -- one is cancelled and another is not: the other one answers
    obtain ⟨u, hu, huc, c, hcm, hcc⟩ : ∃ u ∈ t.leaves, u.cancel = false ∧
        ∃ c ∈ t.leaves, c.cancel = true := by
      cases hcl : l.cancel with
      | false => exact ⟨l, hl, hcl, l', hl', by rw [hcl] at hne; simpa using Ne.symm hne⟩
      | true => exact ⟨l', hl', by rw [hcl] at hne; simpa using Ne.symm hne, l, hl, hcl⟩
    obtain ⟨a, ha, habort⟩ := h (only u.name) ((hflag _).mpr ⟨c, hcm, hcc⟩)
    rw [(get_only hu huc hnodup).2] at ha
    rw [← Option.some.inj ha] at habort
    exact absurd habort (by simp)
  · intro h servers hc
    obtain ⟨l, hl, hlc⟩ := (hflag servers).mp hc
    refine ⟨_, List.getLast?_eq_some_getLast asked_ne_nil, ?_⟩
    obtain ⟨l', hl', he⟩ := mem_asked (List.getLast_mem (@asked_ne_nil t servers))
    rw [he]
    exact (h l' hl' l hl).trans hlc

/-- **`resume_pending` undoes `cancel_pending` exactly where nothing stands in between.** -/
lemma usable_iff : t.cancelPending.resumePending.Usable ↔ t.hasFallback = false := by
  have hcancelled : ∀ t : Transport, ∃ l ∈ t.cancelPending.leaves, l.cancel = true := by
    intro t
    induction t with
    | leaf l => exact ⟨{ l with cancel := true }, by simp [cancelPending, leaves], rfl⟩
    | mirrorRead p s f hp _ =>
        obtain ⟨l, hl, hc⟩ := hp
        exact ⟨l, by simp [cancelPending, leaves, hl], hc⟩
    | fallback p s h hp _ =>
        obtain ⟨l, hl, hc⟩ := hp
        exact ⟨l, by simp [cancelPending, leaves, hl], hc⟩
  induction t with
  | leaf l => simp [Usable, cancelPending, resumePending, leaves, hasFallback]
  | mirrorRead p s f hp hs =>
      simp only [Usable] at hp hs
      simp only [Usable, cancelPending, resumePending, leaves, hasFallback, List.mem_append,
        or_imp, forall_and, Bool.or_eq_false_iff, hp, hs]
  | fallback p s h _ _ =>
      obtain ⟨l, hl, hc⟩ := hcancelled (fallback p s h)
      simp only [hasFallback, Bool.true_eq_false, iff_false]
      exact fun hu => absurd (hu l hl) (by simp [hc])

end Leaves

/-! ### What the operations leave alone -/

/-- The names of the leaves, how they are composed, and which end is preferred. -/
@[simp] def frame : Transport → Transport
  | leaf l => leaf { name := l.name }
  | mirrorRead p s f => mirrorRead p.frame s.frame { preferSecondary := f.preferSecondary }
  | fallback p s _ => fallback p.frame s.frame false

section Frame

variable {t c : Transport} {servers : LeafName → Answer}

@[simp] lemma frame_get : (t.get servers).tx.frame = t.frame := by
  induction t with
  | leaf l =>
      simp only [get, Leaf.get]
      split
      · rfl
      · split
        · split <;> rfl
        · rfl
  | mirrorRead p s f hp hs =>
      simp only [get]
      split_ifs <;> simp [frame, hp, hs]
  | fallback p s h hp hs =>
      simp only [get]
      split_ifs <;> simp [frame, hp, hs]

@[simp] lemma frame_cancelPending : t.cancelPending.frame = t.frame := by
  induction t with
  | leaf l => rfl
  | mirrorRead p s f hp hs => rw [cancelPending, frame, hp, hs, frame]
  | fallback p s h hp hs => rw [cancelPending, frame, hp, hs, frame]

@[simp] lemma frame_resumePending : t.resumePending.frame = t.frame := by
  induction t with
  | leaf l => rfl
  | mirrorRead p s f hp hs => rw [resumePending, frame, hp, hs, frame]
  | fallback p s h hp hs => rfl

@[simp] lemma frame_setCancel (name : LeafName) (on : Bool) :
    (t.setCancel name on).frame = t.frame := by
  induction t with
  | leaf l =>
      rw [setCancel]
      split <;> rfl
  | mirrorRead p s f hp hs => rw [setCancel, frame, hp, hs, frame]
  | fallback p s h hp hs => rw [setCancel, frame, hp, hs, frame]

lemma frame_preferSecondary (on : Bool) :
    (t.preferSecondary on).frame = t.frame.preferSecondary on := by
  cases t <;> rfl

@[simp] lemma preferringSecondary_frame : t.frame.preferringSecondary = t.preferringSecondary := by
  cases t <;> rfl

@[simp] lemma hasMirror_frame : t.frame.hasMirror = t.hasMirror := by
  induction t with
  | leaf l => rfl
  | mirrorRead p s f hp hs => rfl
  | fallback p s h hp hs => rw [frame, hasMirror, hp, hs, hasMirror]

@[simp] lemma hasFallback_frame : t.frame.hasFallback = t.hasFallback := by
  induction t with
  | leaf l => rfl
  | mirrorRead p s f hp hs => rw [frame, hasFallback, hp, hs, hasFallback]
  | fallback p s h hp hs => rfl

lemma names_frame : t.frame.leaves.map Leaf.name = t.leaves.map Leaf.name := by
  induction t with
  | leaf l => rfl
  | mirrorRead p s f hp hs => rw [frame, leaves, List.map_append, hp, hs, leaves, List.map_append]
  | fallback p s h hp hs => rw [frame, leaves, List.map_append, hp, hs, leaves, List.map_append]

lemma of_frame_leaf {l : Leaf} (h : t.frame = leaf l) : ∃ l', t = leaf l' ∧ l'.name = l.name := by
  cases t with
  | leaf l' =>
      rw [frame] at h
      exact ⟨l', rfl, by rw [← Transport.leaf.inj h]⟩
  | mirrorRead => simp [frame] at h
  | fallback => simp [frame] at h

lemma of_frame_mirrorRead {p s : Transport} {f : MirrorFlags} (h : t.frame = mirrorRead p s f) :
    ∃ p' s' f', t = mirrorRead p' s' f' ∧ p'.frame = p ∧ s'.frame = s ∧
      f'.preferSecondary = f.preferSecondary := by
  cases t with
  | mirrorRead p' s' f' =>
      obtain ⟨hp, hs, hf⟩ := Transport.mirrorRead.inj h
      exact ⟨p', s', f', rfl, hp, hs, by rw [← hf]⟩
  | leaf => simp [frame] at h
  | fallback => simp [frame] at h

lemma of_frame_fallback {p s : Transport} {healthy : Bool} (h : t.frame = fallback p s healthy) :
    ∃ p' s' h', t = fallback p' s' h' ∧ p'.frame = p ∧ s'.frame = s := by
  cases t with
  | fallback p' s' h' =>
      obtain ⟨hp, hs, -⟩ := Transport.fallback.inj h
      exact ⟨p', s', h', rfl, hp, hs⟩
  | leaf => simp [frame] at h
  | mirrorRead => simp [frame] at h

/-- What is built is as it was constructed. -/
lemma Built.fresh (h : Built t) : t.frame = t ∧ t.preferringSecondary = false ∧ t.Usable ∧
    (t.leaves.map Leaf.name).Nodup := by
  cases h with
  | lan => simp [frame, preferringSecondary, Usable, leaves]
  | cloud h => cases h <;> simp [frame, preferringSecondary, Usable, leaves]
  | fallback h => cases h <;> simp [frame, preferringSecondary, Usable, leaves]

end Frame

/-! ### The order of the reads -/

section Order

variable {p s : Leaf} {f : MirrorFlags} {t : Transport}

/-- Two buckets are asked in the order their preference gives. -/
lemma secondFirst_mirrorRead (hp : p.name = .first) (hs : s.name = .second) :
    (∀ servers, secondFirst (((mirrorRead (leaf p) (leaf s) f).get servers).asked.map Asked.leaf) =
      true) ↔ f.preferSecondary = true := by
  cases hf : f.preferSecondary with
  | true =>
      simp only [get, hf, if_true, iff_true]
      intro servers
      split <;> simp [secondFirst, hs]
  | false =>
      simp only [get, hf, Bool.false_eq_true, if_false, iff_false, not_forall]
      refine ⟨only .first, ?_⟩
      split <;> simp [secondFirst, hp]

/-- Where the LAN fails, the reads behind it are the reads of the buckets. -/
lemma secondFirst_fallback {l : Leaf} {healthy : Bool} (hl : l.name = .lan) :
    (∀ servers, secondFirst (((fallback (leaf l) t healthy).get servers).asked.map Asked.leaf) =
      true) → ∀ servers, servers .lan = .failed "unreachable" →
        secondFirst ((t.get servers).asked.map Asked.leaf) = true := by
  intro h servers hlan
  have hfail : ((leaf l).get servers).result.success = false :=
    get_fails fun l' hl' => by
      obtain rfl : l' = l := by simpa [leaves] using hl'
      exact Or.inr ⟨"unreachable", by rw [hl, hlan]⟩
  have hasked : ((fallback (leaf l) t healthy).get servers).asked =
      ⟨l.name, l.cancel⟩ :: (t.get servers).asked := by
    conv_lhs => rw [get]
    simp only [hfail, Bool.false_eq_true, if_false]
    rfl
  have hfirst := h servers
  rw [hasked, List.map_cons, hl] at hfirst
  exact hfirst

/-- The list asks the first bucket first. -/
lemma secondFirst_list_mirrorRead (hp : p.name = .first) :
    secondFirst ((mirrorRead (leaf p) (leaf s) f).list fun _ => true).2 = false := by
  have hfirst : (leaf p).list (fun _ => true) = (!p.cancel, [.first]) := by simp [list, hp]
  rw [list, hfirst]
  dsimp only
  split <;> rfl

end Order

end Transport

/-! ### Whole runs -/

/-- The transport is as it was built until the session switches, and prefers the second
bucket, where it can, from then on; a stalled manifest is acted on by the next poll. -/
structure Switching (t₀ : Transport) (x : Reader) (n : Switch) : Prop where
  frame : x.tx.frame = if x.session.switchedTarget then t₀.preferSecondary true else t₀
  stalled : n.stalled = true → x.session.switchedTarget = true ∨
    x.session.manifestStalled = true ∧ x.session.net.polling = false
  switching : n.switching = true → x.session.switchedTarget = true
  agree : n.alone = false → x.tx.FlagsAgree

section Runs

open Transport

variable {cfg : DecoderConfig} {t₀ : Transport} {x y : Reader} {n : Switch}
  {s t : DecoderSession} {a : DecoderAction}

lemma polled_of_not_polls (h : Steps cfg s a t) (ha : a.polls = false) :
    t.manifestStalled = s.manifestStalled ∧ t.switchedTarget = s.switchedTarget := by
  cases hpin : a.isPin with
  | false =>
      have hkept := polled_of_other h ha hpin
      exact ⟨congrArg Polled.manifestStalled hkept, congrArg Polled.switchedTarget hkept⟩
  | true =>
      cases h with
      | pinEvent => exact ⟨rfl, rfl⟩
      | unpin => exact ⟨rfl, rfl⟩
      | _ => exact absurd hpin (by simp [DecoderAction.isPin])

lemma polled_pollLive {now : ℤ} {pinned : String} {r : Reply (Option LivePointer)} :
    (s.pollLive now pinned r).switchedTarget = s.switchedTarget := by
  simp only [pollLive]
  split
  · rw [noTarget]
    split <;> rfl
  · simp only [enterEvent, switchEvent]
    split <;> rfl

lemma switchedTarget_seen {now : ℤ} {live : LivePointer} :
    ((s.seeRoom cfg now live).holdFinished cfg).switchedTarget = s.switchedTarget ∧
      ((s.seeRoom cfg now live).holdFinished cfg).manifestStalled =
        (decide (s.manifest.status ≠ Status.ended) &&
          (decide (0 < s.manifestUpdatedMs) &&
            decide (cfg.staleAfterMs < now - s.manifestUpdatedMs))) := by
  simp only [holdFinished, seeRoom]
  split_ifs <;> exact ⟨rfl, rfl⟩

lemma switchedTarget_pollEvent {now : ℤ} {live : LivePointer} {needMarkers : Bool}
    {r : PollReplies} :
    (s.pollEvent cfg now live needMarkers r).switchedTarget = s.switchedTarget := by
  rcases s.pollEvent_cases cfg now live needMarkers r with h | ⟨why, h⟩ | ⟨m, cues, start, hint, -, -, h⟩
  · rw [h]
  · rw [h]
    rfl
  · rw [h]
    exact switchedTarget_seen.1

/-- A stalled manifest is noted. -/
lemma stalled_pollEvent {now : ℤ} {live : LivePointer} {id : String} {needMarkers : Bool}
    {r : PollReplies} (hpc : s.net = .pollingEvent now live id needMarkers)
    (hr : s.commitsStalled cfg r = true) :
    (s.pollEvent cfg now live needMarkers r).manifestStalled = true := by
  simp only [commitsStalled, hpc, Bool.and_eq_true, Option.any_eq_true, decide_eq_true_eq] at hr
  obtain ⟨hok, m, hm, ⟨⟨hread, hstatus⟩, hupdated⟩, hage⟩ := hr
  simp only [pollEvent, hok, hm, hread, if_true, switchedTarget_seen.2, takeManifest]
  split <;> simp [hstatus, hupdated, hage]

lemma switchedTarget_noteStalled (s : DecoderSession) : s.noteStalled.switchedTarget =
    (s.manifestStalled && !s.switchedTarget && !s.secondary || s.switchedTarget) := by
  rw [noteStalled]
  split
  · rename_i hc
    simp [hc]
  · rename_i hc
    simp [Bool.eq_false_of_not_eq_true hc]

/-- The start of a poll switches, if it has to. -/
lemma Switching.poll {now : ℤ} (h₀ : t₀.preferringSecondary = false) (h : Switching t₀ x n) :
    Switching t₀
      { session := { x.informed.noteStalled with net := .pollingLive now x.session.pinnedEventId }
        tx := x.noteStalled }
      { n with switching := n.stalled } := by
  have hframe := h.frame
  have hnoted : x.informed.noteStalled.switchedTarget =
      (x.session.manifestStalled && !x.session.switchedTarget && !x.tx.preferringSecondary ||
        x.session.switchedTarget) := switchedTarget_noteStalled _
  rw [Reader.noteStalled]
  by_cases hc : (x.session.manifestStalled && !x.session.switchedTarget &&
      !x.tx.preferringSecondary) = true
  · rw [hc, Bool.true_or] at hnoted
    rw [if_pos hc]
    simp only [Bool.and_eq_true, Bool.not_eq_true'] at hc
    rw [hc.1.2, if_neg (by simp)] at hframe
    refine ⟨?_, fun _ => Or.inl hnoted, fun _ => hnoted, fun hn => ?_⟩
    · simp only [hnoted, if_true]
      rw [frame_preferSecondary, hframe]
    · have hleaves : (x.tx.preferSecondary true).leaves = x.tx.leaves := by cases x.tx <;> rfl
      rw [FlagsAgree, hleaves]
      exact h.agree hn
  · rw [Bool.eq_false_of_not_eq_true hc, Bool.false_or] at hnoted
    rw [if_neg hc]
    have hswitched : n.stalled = true → x.informed.noteStalled.switchedTarget = true := by
      intro hn
      rw [hnoted]
      by_contra hnot
      have hs := Bool.eq_false_of_not_eq_true hnot
      have hstalled := ((h.stalled hn).resolve_left hnot).1
      rw [hs, if_neg (by simp)] at hframe
      rw [← hframe, preferringSecondary_frame] at h₀
      exact hc (by simp [hs, hstalled, h₀])
    refine ⟨?_, fun hn => Or.inl (hswitched hn), hswitched, h.agree⟩
    simp only [hnoted]
    exact hframe

/-- **A step keeps what the switch rests on.** -/
lemma Switching.session (h₀ : t₀.preferringSecondary = false) (h : Switching t₀ x n)
    (ht : Steps cfg x.informed a t) :
    Switching t₀ { session := t, tx := if a.isPoll then x.noteStalled else x.tx }
      (Switch.note cfg x (.session a) n) := by
  cases ha : a.polls with
  | false =>
      have hnote : Switch.note cfg x (.session a) n = n := by
        cases a <;> first | rfl | simp [DecoderAction.polls] at ha
      have hnot : a.isPoll = false := by
        cases a <;> first | rfl | simp [DecoderAction.polls] at ha
      obtain ⟨hstalled, hswitched⟩ := polled_of_not_polls ht ha
      rw [hnote, hnot]
      refine ⟨?_, fun hn => ?_, fun hn => hswitched.trans (h.switching hn), h.agree⟩
      · rw [hswitched]
        exact h.frame
      · rw [hswitched, hstalled]
        refine (h.stalled hn).imp_right fun hwas => ⟨hwas.1, ?_⟩
        rcases net_of_not_polls ht ha with hkept | hnot
        · rw [hkept]
          exact hwas.2
        · exact hnot
  | true =>
      cases ht with
      | poll => exact h.poll h₀
      | readLive hpc =>
          have hpolling : x.session.net.polling = true := by
            rw [show x.session.net = _ from hpc]
            rfl
          have hswitched : n.stalled = true → x.session.switchedTarget = true := fun hn =>
            (h.stalled hn).resolve_right fun hs => by simp [hpolling] at hs
          refine ⟨?_, fun hn => Or.inl ?_, fun hn => ?_, h.agree⟩
          · rw [polled_pollLive]
            exact h.frame
          · rw [polled_pollLive]
            exact hswitched hn
          · rw [polled_pollLive]
            exact h.switching hn
      | @readEvent now live id needMarkers r hpc =>
          have hpolling : x.session.net.polling = true := by
            rw [show x.session.net = _ from hpc]
            rfl
          have hidle := (pollEvent_frame cfg x.informed now live needMarkers r).1
          refine ⟨?_, fun hn => ?_, fun hn => ?_, h.agree⟩
          · rw [switchedTarget_pollEvent]
            exact h.frame
          · rw [switchedTarget_pollEvent, hidle]
            simp only [Switch.note, Bool.or_eq_true] at hn
            rcases hn with hn | hn
            · exact Or.inl ((h.stalled hn).resolve_right fun hs => by simp [hpolling] at hs)
            · exact Or.inr ⟨stalled_pollEvent hpc hn, rfl⟩
          · rw [switchedTarget_pollEvent]
            exact h.switching hn
      | _ => exact absurd ha (by simp [DecoderAction.polls])

lemma leaves_cancelPending {t : Transport} {l : Leaf} (hl : l ∈ t.cancelPending.leaves) :
    l.cancel = true := by
  induction t with
  | leaf l' =>
      obtain rfl : l = { l' with cancel := true } := by simpa [cancelPending, leaves] using hl
      rfl
  | mirrorRead p s f hp hs => exact (List.mem_append.mp hl).elim hp hs
  | fallback p s h hp hs => exact (List.mem_append.mp hl).elim hp hs

/-- A decoder's transport keeps its flags together when it is resumed. -/
lemma flagsAgree_resumePending (hb : Built t₀) {t : Transport} {on : Bool}
    (hf : t.frame = t₀ ∨ t.frame = t₀.preferSecondary on) (h : t.FlagsAgree) :
    t.resumePending.FlagsAgree := by
  have hleaf : ∀ l, t.frame = leaf l → t.resumePending.FlagsAgree := by
    intro l hl
    obtain ⟨l', rfl, -⟩ := of_frame_leaf hl
    simp [FlagsAgree, resumePending, leaves]
  have hmirror : ∀ p s f, t.frame = mirrorRead (leaf p) (leaf s) f →
      t.resumePending.FlagsAgree := by
    intro p s f hm
    obtain ⟨p', s', f', rfl, hp, hs, -⟩ := of_frame_mirrorRead hm
    obtain ⟨lp, rfl, -⟩ := of_frame_leaf hp
    obtain ⟨ls, rfl, -⟩ := of_frame_leaf hs
    simp [FlagsAgree, resumePending, leaves]
  have hfallback : ∀ p s f, t.frame = fallback p s f → t.resumePending.FlagsAgree := by
    intro p s f hm
    obtain ⟨p', s', f', rfl, -⟩ := of_frame_fallback hm
    exact h
  cases hb with
  | lan => exact hf.elim (hleaf _) (hleaf _)
  | cloud hc =>
      cases hc with
      | bucket => exact hf.elim (hleaf _) (hleaf _)
      | mirrorRead => exact hf.elim (hmirror _ _ _) (hmirror _ _ _)
  | fallback => exact hf.elim (hfallback _ _ _) (hfallback _ _ _)

lemma Switching.step (hb : Built t₀) (h : Switching t₀ x n) {a : ReaderAction}
    (hy : x.step cfg a = some y) : Switching t₀ y (Switch.note cfg x a n) := by
  have h₀ := hb.fresh.2.1
  cases a with
  | session a =>
      obtain ⟨t, ht, rfl⟩ := Option.map_eq_some_iff.mp hy
      exact h.session h₀ (steps_of_step ht)
  | get servers =>
      obtain rfl := Option.some.inj hy
      refine ⟨frame_get.trans h.frame, h.stalled, h.switching, fun hn => ?_⟩
      have hagree := h.agree hn
      intro l hl l' hl'
      have hmem : ∀ l ∈ (x.tx.get servers).tx.leaves, ∃ k ∈ x.tx.leaves, k.cancel = l.cancel := by
        intro l hl
        have hl := List.mem_map_of_mem (f := fun l : Leaf => (l.name, l.cancel)) hl
        rw [leaves_get] at hl
        obtain ⟨k, hk, he⟩ := List.mem_map.mp hl
        exact ⟨k, hk, congrArg Prod.snd he⟩
      obtain ⟨k, hk, hkc⟩ := hmem l hl
      obtain ⟨k', hk', hkc'⟩ := hmem l' hl'
      rw [← hkc, ← hkc']
      exact hagree k hk k' hk'
  | cancelPending =>
      obtain rfl := Option.some.inj hy
      refine ⟨frame_cancelPending.trans h.frame, h.stalled, h.switching, fun _ l hl l' hl' => ?_⟩
      rw [leaves_cancelPending hl, leaves_cancelPending hl']
  | resumePending =>
      obtain rfl := Option.some.inj hy
      refine ⟨frame_resumePending.trans h.frame, h.stalled, h.switching, fun hn => ?_⟩
      refine @flagsAgree_resumePending _ hb _ true ?_ (h.agree hn)
      have hframe := h.frame
      split at hframe
      · exact Or.inr hframe
      · exact Or.inl hframe
  | setCancel leaf on =>
      obtain rfl := Option.some.inj hy
      exact ⟨(frame_setCancel leaf on).trans h.frame, h.stalled, h.switching, by simp [Switch.note]⟩

lemma switching_reach (hb : Built t₀) {x : Reader × Switch}
    (hx : Lib.Reach (Lib.noted (Reader.step cfg) (Switch.note cfg)) Lib.anyStep
      (fun x => ∃ folders, x = ({ session := new cfg folders, tx := t₀ }, {})) x) :
    Switching t₀ x.1 x.2 := by
  refine Lib.Reach.invariant (I := fun x => Switching t₀ x.1 x.2) ?_ ?_ hx
  · rintro _ ⟨folders, rfl⟩
    obtain ⟨hframe, -, husable, -⟩ := hb.fresh
    exact ⟨hframe, by simp, by simp, fun _ l hl l' hl' => by rw [husable l hl, husable l' hl']⟩
  · intro x a y h _ hy
    obtain ⟨hstep, hn⟩ := Lib.noted_eq_some.mp hy
    rw [hn]
    exact h.step hb hstep

/-- After the switch, two buckets are read second first, and behind a LAN first first; the
list of the cues always asks the first. -/
lemma readsSecond_iff (hb : Built t₀) (hm : t₀.hasMirror = true) {r : PollReplies}
    (hf : x.tx.frame = t₀.preferSecondary true) :
    x.ReadsSecond r ↔ t₀.hasFallback = false ∧ x.session.listsCues r = false := by
  obtain ⟨session, tx⟩ := x
  cases hb with
  | lan => simp [hasMirror] at hm
  | cloud hc =>
      cases hc with
      | bucket => simp [hasMirror] at hm
      | mirrorRead =>
          obtain ⟨p, s, f, rfl, hp, hs, hprefer⟩ := of_frame_mirrorRead hf
          obtain ⟨lp, rfl, hlp⟩ := of_frame_leaf hp
          obtain ⟨ls, rfl, hls⟩ := of_frame_leaf hs
          rw [Reader.ReadsSecond, secondFirst_mirrorRead hlp hls]
          simp only [hprefer, true_and, hasFallback, Bool.or_self]
          cases hlist : session.listsCues r with
          | false => simp
          | true =>
              simp only [forall_const, Bool.true_eq_false, iff_false, not_forall]
              exact ⟨fun _ => true, by simp [secondFirst_list_mirrorRead hlp]⟩
  | fallback hc =>
      obtain ⟨p, s, h, rfl, hp, hs⟩ := of_frame_fallback hf
      obtain ⟨l, rfl, hl⟩ := of_frame_leaf hp
      simp only [hasFallback, Bool.true_eq_false, false_and, iff_false]
      rintro ⟨hreads, -⟩
      cases hc with
      | bucket => simp [hasMirror] at hm
      | mirrorRead =>
          -- the preference has not passed the fallback
          obtain ⟨p', s', f, rfl, hp', hs', hprefer⟩ := of_frame_mirrorRead hs
          obtain ⟨lp, rfl, hlp⟩ := of_frame_leaf hp'
          obtain ⟨ls, rfl, hls⟩ := of_frame_leaf hs'
          have hbehind := secondFirst_fallback hl hreads (only .first) rfl
          simp only [Transport.get, hprefer, Bool.false_eq_true, if_false] at hbehind
          split at hbehind <;> simp [secondFirst, hlp] at hbehind

end Runs

/-- **Failover through every composition.**  For every transport a decoder is built on and
every sequence of operations: where it reads two buckets, the reads of a poll that began
after a stalled manifest was committed ask the second before the first if and only if no
`FallbackTransport` stands over them and the poll lists no cues; `resume_pending` after
`cancel_pending` leaves every leaf usable if and only if there is no `FallbackTransport`;
and `last_request_cancelled` speaks of the request that produced the result if and only if
the leaves are cancelled together, which they are until one is cancelled or resumed by
itself. -/
theorem failover_passes {cfg : DecoderConfig} {t₀ : Transport} (hb : Transport.Built t₀)
    {x : Reader × Switch}
    (hx : Lib.Reach (Lib.noted (Reader.step cfg) (Switch.note cfg)) Lib.anyStep
      (fun x => ∃ folders, x = ({ session := new cfg folders, tx := t₀ }, {})) x) :
    (x.2.switching = true → t₀.hasMirror = true → ∀ r,
      (x.1.ReadsSecond r ↔ t₀.hasFallback = false ∧ x.1.session.listsCues r = false)) ∧
    (x.1.tx.cancelPending.resumePending.Usable ↔ t₀.hasFallback = false) ∧
    (x.1.tx.TellsCancelled ↔ x.1.tx.FlagsAgree) ∧
    (x.2.alone = false → x.1.tx.FlagsAgree) := by
  have h := switching_reach hb hx
  obtain ⟨hfresh, -, -, hnodup⟩ := hb.fresh
  have hfallback : x.1.tx.hasFallback = t₀.hasFallback := by
    rw [← Transport.hasFallback_frame, h.frame]
    split
    · cases t₀ <;> rfl
    · rfl
  have hnames : (x.1.tx.leaves.map Leaf.name).Nodup := by
    rw [← Transport.names_frame, h.frame]
    split
    · have hleaves : (t₀.preferSecondary true).leaves = t₀.leaves := by cases t₀ <;> rfl
      rw [hleaves]
      exact hnodup
    · exact hnodup
  refine ⟨fun hsw hm r => ?_, ?_, Transport.tellsCancelled_iff hnames, h.agree⟩
  · refine readsSecond_iff hb hm ?_
    rw [h.frame, if_pos (h.switching hsw)]
  · rw [← hfallback]
    exact Transport.usable_iff

/-- Two buckets. -/
def twoBuckets : Transport :=
  .mirrorRead (.leaf { name := .first }) (.leaf { name := .second }) {}

/-- Two buckets behind the LAN. -/
def lanAndBuckets : Transport := .fallback (.leaf { name := .lan }) twoBuckets false

/-- A poll that finds the manifest as it was long before, and the start of the next. -/
def pollStalled : List ReaderAction :=
  [.session (.poll 1000000), .session (.readLive { body := some { eventId := "e" } }),
    .session (.readEvent { manifest := { body := some { updatedAtMs := 1 } } }),
    .session (.poll 1002000)]

/-- Two buckets, the poll after a stalled manifest: `live.json` is asked for in the second
before the first. -/
theorem failover_passes_two :
    ∃ x, Lib.Reach (Lib.noted (Reader.step sampleDecoder) (Switch.note sampleDecoder)) Lib.anyStep
        (fun x => ∃ folders, x = ({ session := new sampleDecoder folders, tx := twoBuckets }, {})) x ∧
      (x.2.switching = true ∧
        x.1.session.listsCues { manifest := { body := none } } = false) ∧
      x.1.ReadsSecond { manifest := { body := none } } := by
  obtain ⟨x, hx, hsw, hcues⟩ : ∃ x : Reader × Switch,
      Lib.Reach (Lib.noted (Reader.step sampleDecoder) (Switch.note sampleDecoder)) Lib.anyStep
        (fun x => ∃ folders, x = ({ session := new sampleDecoder folders, tx := twoBuckets }, {})) x ∧
      (x.2.switching = true ∧
        x.1.session.listsCues { manifest := { body := none } } = false) :=
    Lib.exists_reach ({ session := new sampleDecoder fun _ => none, tx := twoBuckets }, {})
      pollStalled ⟨_, rfl⟩ (by decide +kernel)
  have hreads := (failover_passes (.cloud .mirrorRead) hx).1 hsw rfl
  exact ⟨x, hx, ⟨hsw, hcues⟩, (hreads _).mpr ⟨rfl, hcues⟩⟩

/-- **A `FallbackTransport` stops the switch and the resuming**: behind the LAN the poll
after a stalled manifest asks the first bucket before the second, and cancelled leaves stay
cancelled.  And where the first of two buckets alone is cancelled, the second one's answer
counts as cancelled. -/
theorem failover_stops :
    (∃ x, Lib.Reach (Lib.noted (Reader.step sampleDecoder) (Switch.note sampleDecoder))
        Lib.anyStep (fun x => ∃ folders,
          x = ({ session := new sampleDecoder folders, tx := lanAndBuckets }, {})) x ∧
      x.2.switching = true ∧
        secondFirst ((x.1.tx.get (Transport.only .first)).asked.map Asked.leaf) = false) ∧
    (∃ l ∈ lanAndBuckets.cancelPending.resumePending.leaves, l.cancel = true) ∧
    ∃ x, Lib.Reach (Lib.noted (Reader.step sampleDecoder) (Switch.note sampleDecoder))
        Lib.anyStep (fun x => ∃ folders,
          x = ({ session := new sampleDecoder folders, tx := twoBuckets }, {})) x ∧
      (x.1.tx.get (Transport.only .second)).tx.lastRequestCancelled = true ∧
        (x.1.tx.get (Transport.only .second)).asked.getLast? = some ⟨.second, false⟩ :=
  ⟨Lib.exists_reach ({ session := new sampleDecoder fun _ => none, tx := lanAndBuckets }, {})
      pollStalled ⟨_, rfl⟩ (by decide +kernel),
    by decide,
    Lib.exists_reach ({ session := new sampleDecoder fun _ => none, tx := twoBuckets }, {})
      [.setCancel .first true] ⟨_, rfl⟩ (by decide +kernel)⟩

end Multisite

import Multisite.Session.References
import Multisite.Session.Puts

/-!
The event in two places (`Session::status`, `mirror_complete`).

`mirror_complete` says that the second bucket's mark covers every segment file still
on disk.  A segment leaves the disk when every target in force has it, and a session
without a second bucket has one target only.

* `complete_alone`: a run in which a segment went to the primary bucket in a session
  without a second bucket, and is still reported safe in two places;
* `safe_in_both`: where no segment leaves the disk before the second bucket has it,
  a complete mirror and a primary that has caught up mean both buckets.
-/

namespace Multisite

open SpoolQueue (confirmed everyTargetHas)

/-- `Session::status().mirror_complete`. -/
def Proc.mirrorComplete (p : Proc) (d : Option Folder) : Bool :=
  p.cfg.mirror && p.spool.caughtUp d .second

/-- The segments of the event in a target's bucket. -/
def World.bucket (ev : Event) (w : World) : Target → ℕ → Option Bytes
  | .primary => w.store.segment ev.id
  | .second => w.second.segment ev.id

/-! ### What became of the segments -/

/-- Notes on a run: the segments enqueued, and the numbers of those evicted or found
damaged. -/
structure Fates where
  enqueued : List (ℕ × Bytes) := []
  lost : List ℕ := []

/-- A segment enqueued, and neither evicted nor found damaged. -/
def Fates.Live (n : Fates) (s : ℕ) (b : Bytes) : Prop := (s, b) ∈ n.enqueued ∧ s ∉ n.lost

/-- The segment `publish_segment` enqueues. -/
def World.enqueues (w : World) : Action → List (ℕ × Bytes)
  | .publishSegment data _ _ _ none =>
      match w.machine with
      | .up p => [(p.nextSeq, data)]
      | _ => []
  | _ => []

/-- The numbers whose files the writes remove. -/
def removedBy (ws : List Write) : List ℕ :=
  ws.filterMap fun
    | .removeSeg s | .removeSidecar s => some s
    | _ => none

/-- The numbers an action evicts with these writes, or finds damaged. -/
def World.loses (w : World) (a : Action) (ws : List Write) : List ℕ :=
  match a, w.machine with
  | .publishSegment _ _ _ _ _, _ => removedBy ws
  | .skip t _, .up p => (p.core.hand t).segment.toList.map (·.seq)
  | _, _ => []

/-- The writes of an action, up to a crash inside it. -/
def World.writes (ev : Event) (w : World) : Action → List Write
  | .crashIn a k => ((w.plan ev a).elim [] (·.writes)).take k
  | a => (w.plan ev a).elim [] (·.writes)

/-- The action a crash comes into. -/
def Action.base : Action → Action
  | .crashIn a _ => a
  | a => a

/-- The notes after a step. -/
def noteFates (ev : Event) (w : World) (a : Action) (n : Fates) : Fates where
  enqueued := w.enqueues a ++ n.enqueued
  lost := w.loses a.base (w.writes ev a) ++ n.lost

/-- The steps of the world, with the notes. -/
def stepFates (ev : Event) : World × Fates → Action → Option (World × Fates) :=
  Lib.noted (step ev) (noteFates ev)

/-- Before the event. -/
def FreshFates (x : World × Fates) : Prop := Fresh x.1 ∧ x.2 = {}

/-- Every segment enqueued and not lost is in both buckets, with its bytes. -/
def SafeInBoth (ev : Event) (x : World × Fates) : Prop :=
  ∀ s b, x.2.Live s b → ∀ t, x.1.bucket ev t s = some b

/-! ### The condition -/

/-- The actions that leave no segment to the primary bucket alone: a session with one
target confirms nothing the second bucket does not have, constructing one sweeps
nothing it does not have, and damage changes a segment's checksum. -/
def sparesSecond (ev : Event) (w : World) : Action → Bool
  | .damage s b => (w.hist.taken s).all fun ck => decide (ev.sha256Hex b ≠ ck)
  | .openSession cfg =>
      cfg.mirror ||
        ((w.disk.map (·.segs.keys)).getD []).all fun s =>
          !(recorded w.disk).has .primary s || (recorded w.disk).has .second s
  | .confirm t _ =>
      match w.machine with
      | .up p =>
          decide (2 ≤ p.spool.state.targets) ||
            (p.core.hand t).segment.all fun seg => p.spool.state.has .second seg.seq
      | _ => true
  | _ => true

/-- The steps that keep the second bucket in the picture, and every number to one
segment. -/
def mirrorsAll (ev : Event) (w : World) (a : Action) : Bool :=
  keepsNumbers ev w a && sparesSecond ev w a.base

variable {ev : Event} {d d' : Option Folder} {s : ℕ} {b : Bytes}

/-! ### What a move does to the segments -/

section Moving

variable {md md' : Media} {h h' h'' : History} {c c' : Core} {a : Action} {ws : List Write}

/-- Who removes a file of a segment: the disk cap, the uploader that found it
damaged, the one that confirmed it last, or the removal of a folder without
segments. -/
lemma Move.removes (mv : Move ev d md h c a c' md' h' ws) {x : Write} (hx : x ∈ ws)
    (hr : x = .removeSeg s ∨ x = .removeSidecar s ∨ x = .removeAll) :
    ((∃ data dur pts now f, a = .publishSegment data dur pts now f) ∧
        (x = .removeSeg s ∨ x = .removeSidecar s)) ∨
      (∃ t now seg, a = .skip t now ∧ (c.hand t).segment = some seg ∧ seg.seq = s) ∨
      (∃ t now seg, a = .confirm t now ∧ (c.hand t).Confirms t seg ∧ seg.seq = s ∧
        everyTargetHas (confirmed now c.spool.state s t) s = true) ∨
      ∀ r, ¬HasSeg d r := by
  have hfiles : ∀ {now data dur pts e},
      c.spool.enqueue ev.sha256Hex now d (newSegment ev c.nextSeq data dur pts) = some e →
      x ∈ e.writes → x = .removeSeg s ∨ x = .removeSidecar s := by
    intro now data dur pts e he hx
    obtain ⟨vs, hq⟩ := SpoolQueue.enqueue_spec he
    rcases hr with hr | hr | rfl
    · exact Or.inl hr
    · exact Or.inr hr
    · exact absurd hx hq.removeAll_notMem
  have hconf : ∀ {t now seq}, x ∈ (c.spool.confirm now d seq t).2 →
      seq = s ∧ everyTargetHas (confirmed now c.spool.state s t) s = true := by
    intro t now seq hx
    have hstate : x ∉ SpoolQueue.saveState { c.spool with state := confirmed now c.spool.state seq t } := by
      rw [SpoolQueue.saveState]
      rcases hr with rfl | rfl | rfl <;> split <;> simp
    rw [SpoolQueue.confirm] at hx
    split at hx
    · rename_i hall
      rcases List.mem_append.mp hx with hx | hx
      · exact absurd hx hstate
      · obtain rfl : seq = s := by
          rcases hr with rfl | rfl | rfl <;> simp_all
        exact ⟨rfl, hall⟩
    · exact absurd hx hstate
  cases mv with
  | publish _ he => exact Or.inl ⟨⟨_, _, _, _, _, rfl⟩, hfiles he hx⟩
  | fault _ he _ => exact Or.inl ⟨⟨_, _, _, _, _, rfl⟩, hfiles he (List.mem_of_mem_take hx)⟩
  | @confirm t now seg hpc =>
      obtain ⟨hseq, hall⟩ := hconf hx
      exact Or.inr (Or.inr (Or.inl ⟨t, now, seg, rfl, hpc, hseq, hall⟩))
  | @skip t now seg n _ hpc =>
      refine Or.inr (Or.inl ⟨t, now, seg, rfl, ?_, (hconf hx).1⟩)
      rw [hpc]
      rfl
  | mark =>
      rw [LinkedUp.markEnded_writes] at hx
      rcases hr with rfl | rfl | rfl <;> split at hx <;> simp at hx
  | remove _ _ =>
      rcases SpoolQueue.removeIfDone_cases c.spool d with hno | ⟨-, hnone, -⟩
      · rw [hno] at hx
        exact absurd hx (by simp)
      · exact Or.inr (Or.inr (Or.inr hnone))
  | _ => exact absurd hx (by simp)

/-- What the buckets hold after a move: what they held, and the segment just put. -/
structure Puts (B B' : Target → ℕ → Option Bytes) (c c' : Core) : Prop where
  same : ∀ t s, B' t s = B t s ∨ ∃ seg n, c.hand t = .sending seg n ∧ seg.seq = s ∧
    B' t s = some seg.data
  done : ∀ t seg, (c'.hand t).done = some seg → (c.hand t).done = some seg ∨
    (∃ n, c.hand t = .sending seg n) ∧ B' t seg.seq = some seg.data

/-- What an uploader has sent it had sent before, unless it was answered just now. -/
lemma Move.done_hand (mv : Move ev d md h c a c' md' h' ws) (ha : ∀ t, a ≠ .putSegment t .ok)
    {t : Target} {seg : SpooledSegment} (hs : (c'.hand t).done = some seg) :
    (c.hand t).done = some seg := by
  have key : ∀ {c₁ : Core} {u : Target} {pc : UploadPc}, (∀ t, c₁.hand t = c.hand t) →
      (∀ seg, pc.done = some seg → (c.hand u).done = some seg) →
      ((c₁.withHand u pc).hand t).done = some seg → (c.hand t).done = some seg := by
    intro c₁ u pc h1 h2 h3
    rcases Core.hand_withHand_cases c₁ u pc t with ⟨rfl, heq⟩ | ⟨-, heq⟩
    · exact h2 seg (heq ▸ h3)
    · rwa [heq, h1] at h3
  cases mv with
  | back hpc => exact key (fun _ => rfl) (fun _ h => hpc.done h) hs
  | take hpc hp => exact key (fun _ => rfl) (fun _ h => absurd h (by simp [UploadPc.done])) hs
  | pass hpc _ _ => exact key (fun _ => rfl) (fun _ h => absurd h (by simp [UploadPc.done])) hs
  | put _ => exact absurd rfl (ha _)
  | putSecond _ => exact absurd rfl (ha _)
  | list hpc _ =>
      refine key (fun t => ?_) (fun _ h => by rw [hpc]; exact h) hs
      cases t <;> rfl
  | confirm hpc =>
      refine key (fun t => ?_) (fun _ h => absurd h (by simp [UploadPc.done])) hs
      cases t <;> rfl
  | @skip u _ _ _ _ hpc =>
      refine key (fun t => ?_) (fun _ h => absurd h ?_) hs
      · cases t <;> rfl
      · cases u <;> simp [afterSkip, UploadPc.done]
  | skipped hpc =>
      refine key (fun t => ?_) (fun _ h => absurd h (by simp [UploadPc.done])) hs
      cases t <;> rfl
  | _ => cases t <;> exact hs

lemma Move.segment_eq (mv : Move ev d md h c a c' md' h' ws) (ha : ∀ t, a ≠ .putSegment t .ok) :
    md'.segment = md.segment := by
  cases mv <;> first | rfl | exact absurd rfl (ha _)

end Moving

/-- An action of a session puts at most the segment an uploader is sending. -/
lemma puts_of_plan {w : World} {p p' : Proc} {a : Action} {e : Effect} (hc : Calm p)
    (hk : ∀ t seg, (p.core.hand t).segment = some seg → seg.key = .segment ev.id seg.seq)
    (he : p.plan ev w a = some e) (hp' : e.machine = .up p') :
    Puts (w.bucket ev) ((w.after e).bucket ev) p.core p'.core := by
  by_cases ha : ∃ t, a = .putSegment t .ok
  · obtain ⟨t, rfl⟩ := ha
    simp only [Proc.plan] at he
    split at he
    · rename_i seg n hpc
      have hhand : p.core.hand t = .sending seg n := by
        cases t <;> exact hpc
      have hkey := hk t seg (by rw [hhand]; rfl)
      have hp : p' = p.withUploader t ((p.uploader t).answered seg n .ok) := by
        cases t <;> obtain rfl := Option.some.inj he <;> exact (Machine.up.inj hp').symm
      have hcore : p'.core = p.core.withHand t (.stored seg) := by
        rw [hp, Proc.core_withUploader]
        rfl
      have hbucket : ∀ u s, (w.after e).bucket ev u s =
          if u = t ∧ s = seg.seq then some seg.data else w.bucket ev u s := by
        intro u s
        cases t <;> obtain rfl := Option.some.inj he <;> cases u <;>
          simp [World.bucket, World.after, World.become, hkey]
      refine ⟨fun u s => ?_, fun u seg' hdone => ?_⟩
      · rw [hbucket]
        split
        · rename_i hu
          obtain ⟨rfl, rfl⟩ := hu
          exact Or.inr ⟨seg, n, hhand, rfl, rfl⟩
        · exact Or.inl rfl
      · rw [hcore] at hdone
        rcases Core.hand_withHand_cases p.core t (.stored seg) u with ⟨rfl, heq⟩ | ⟨-, heq⟩
        · rw [heq] at hdone
          obtain rfl : seg = seg' := Option.some.inj hdone
          exact Or.inr ⟨⟨n, hhand⟩, by rw [hbucket, if_pos ⟨rfl, rfl⟩]⟩
        · exact Or.inl (heq ▸ hdone)
    · exact absurd he (by simp)
  · have hput : ∀ t, a ≠ .putSegment t .ok := fun t h => ha ⟨t, h⟩
    obtain ⟨r, hr, -, -, mv⟩ := plan_moves hc (fun seg n hpc =>
      hk .primary seg (by simp [Proc.core, Core.hand, hpc, UploadPc.segment])) he
    obtain rfl := Machine.up.inj (hp'.symm.trans hr)
    refine ⟨fun t s => Or.inl ?_, fun t seg hdone => Or.inl (mv.done_hand hput hdone)⟩
    cases t with
    | primary => exact congrFun (mv.segment_eq hput) s
    | second =>
        have hsec : e.second = w.second := by
          rcases Proc.second_cases he with heq | ⟨_, _, rfl, -⟩
          · exact heq
          · exact absurd rfl (hput .second)
        show e.second.segment ev.id s = _
        rw [hsec]
        rfl

/-! ### The invariant -/

/-- What the marks stand for: the bucket has what they cover, they are not above the
last number, and one not set yet lies below every segment. -/
structure Marks (B : Target → ℕ → Option Bytes) (n : Fates) (st : SpoolState) : Prop where
  had : ∀ t s b, st.has t s = true → n.Live s b → B t s = some b
  bound : ∀ t, st.mark t ≤ st.lastEnqueued
  fresh : ∀ t s b, st.any t = false → (s, b) ∈ n.enqueued → st.mark t < s ∨ st.mark t = 0

/-- Without a session: a segment is on disk, or in both buckets. -/
structure BothDead (ev : Event) (d : Option Folder) (h : History)
    (B : Target → ℕ → Option Bytes) (n : Fates) : Prop where
  disk : ∀ s b, n.Live s b → Readable d s ∨ ∀ t, B t s = some b
  file : ∀ s b x, n.Live s b → segData d s = some x → ev.sha256Hex x = ev.sha256Hex b → x = b
  marks : (recorded d).valid = true → Marks B n (recorded d)
  taken : ∀ s b, (s, b) ∈ n.enqueued → h.taken s = some (ev.sha256Hex b)

/-- With a session: so it is of what the uploaders have in hand. -/
structure BothUp (ev : Event) (d : Option Folder) (h : History) (B : Target → ℕ → Option Bytes)
    (n : Fates) (c : Core) : Prop where
  disk : ∀ s b, n.Live s b → Readable d s ∨ ∀ t, B t s = some b
  file : ∀ s b x, n.Live s b → segData d s = some x → ev.sha256Hex x = ev.sha256Hex b → x = b
  marks : c.spool.dir.isSome → Marks B n c.spool.state
  any : c.spool.dir.isSome → ∀ t, c.spool.state.any t = true → 0 < c.nextSeq
  hand : ∀ t seg b, (c.hand t).segment = some seg → n.Live seg.seq b →
    ev.sha256Hex seg.data = ev.sha256Hex b → seg.data = b
  below : ∀ t seg s b, (c.hand t).segment = some seg → n.Live s b → s < seg.seq → B t s = some b
  clean : ∀ t seg b, (c.hand t).sent = some seg → n.Live seg.seq b → seg.data = b
  done : ∀ t seg b, (c.hand t).done = some seg → n.Live seg.seq b → B t seg.seq = some b
  taken : ∀ s b, (s, b) ∈ n.enqueued → h.taken s = some (ev.sha256Hex b)

/-- The writes are those of `enqueue` for the next segment, with these bytes. -/
def Publishes (ev : Event) (d : Option Folder) (c : Core) (b : Bytes) (ws : List Write) : Prop :=
  ∃ seg e vs, seg.seq = c.nextSeq ∧ seg.data = b ∧ c.spool.Enqueues ev.sha256Hex d seg e vs ∧
    ws = e.writes

/-- What the notes take down of a move, complete or cut after these writes. -/
structure Noted (ev : Event) (d : Option Folder) (n n' : Fates) (c : Core) (a : Action)
    (ws : List Write) : Prop where
  enqueued : ∀ s b, (s, b) ∈ n'.enqueued → (s, b) ∈ n.enqueued ∨
    s = c.nextSeq ∧ Publishes ev d c b ws
  lost : n.lost ⊆ n'.lost
  evicts : ∀ data dur pts now f, a = .publishSegment data dur pts now f → ∀ s,
    .removeSeg s ∈ ws ∨ .removeSidecar s ∈ ws → s ∈ n'.lost
  skips : ∀ t now seg, a = .skip t now → (c.hand t).segment = some seg → seg.seq ∈ n'.lost

section Moving

variable {md md' : Media} {h h' h'' : History} {c c' : Core} {a : Action} {ws : List Write}
  {B B' : Target → ℕ → Option Bytes} {n n' : Fates}

lemma Noted.live (hnote : Noted ev d n n' c a ws) (hl : n'.Live s b) : n.Live s b ∨
    s = c.nextSeq ∧ Publishes ev d c b ws :=
  (hnote.enqueued s b hl.1).imp_left fun he => ⟨he, fun hlost => hl.2 (hnote.lost hlost)⟩

/-- A segment on disk, or in an uploader's hand, belongs to a session at its folder,
and is not the next one. -/
lemma NumberedUp.lt_next (hn : NumberedUp ev d md h c) (hl : LinkedUp d c) {t : Target}
    {seg : SpooledSegment} (hseg : (c.hand t).segment = some seg) :
    c.spool.dir.isSome ∧ seg.seq ≤ c.spool.state.lastEnqueued ∧ seg.seq < c.nextSeq := by
  have hdir : c.spool.dir.isSome := hl.dir_of_hand (t := t) (by
    intro hidle
    rw [hidle] at hseg
    exact absurd hseg (by simp [UploadPc.segment]))
  exact ⟨hdir, hn.last hdir seg.seq _ (hn.hands t seg hseg)⟩

/-- How a mark moves: with the segment in hand. -/
lemma LinkedUp.mark_hand (hl : LinkedUp d c) (mv : Move ev d md h c a c' md' h' ws) (u : Target) :
    c'.spool.state.mark u = c.spool.state.mark u ∧ c'.spool.state.any u = c.spool.state.any u ∨
      ∃ seg, (c.hand u).segment = some seg ∧
        c'.spool.state.mark u = max (c.spool.state.mark u) seg.seq ∧
        c'.spool.state.any u = true := by
  have hconf : ∀ {t now pc} {seg : SpooledSegment}, c.hand t ≠ .idle →
      (c.hand t).segment = some seg →
      (({ c with spool := (c.spool.confirm now d seg.seq t).1 }.withHand t pc).spool.state.mark u =
          c.spool.state.mark u ∧
        ({ c with spool := (c.spool.confirm now d seg.seq t).1 }.withHand t pc).spool.state.any u =
          c.spool.state.any u ∨
      ∃ seg', (c.hand u).segment = some seg' ∧
        ({ c with spool := (c.spool.confirm now d seg.seq t).1 }.withHand t pc).spool.state.mark u =
          max (c.spool.state.mark u) seg'.seq ∧
        ({ c with spool := (c.spool.confirm now d seg.seq t).1 }.withHand t pc).spool.state.any u =
          true) := by
    intro t now pc seg ht hseg
    have hst := (SpoolQueue.confirm_spec now c.spool d seg.seq t (hl.dir_of_hand ht)).1
    rw [Core.spool_withHand, hst]
    by_cases htu : u = t
    · subst htu
      obtain ⟨h1, h2⟩ := SpoolQueue.confirmed_eq now c.spool.state seg.seq u
      exact Or.inr ⟨seg, hseg, h2, h1⟩
    · obtain ⟨h1, h2⟩ := SpoolQueue.confirmed_other now c.spool.state seg.seq htu
      exact Or.inl ⟨h2, h1⟩
  cases mv with
  | @confirm t now seg hpc =>
      refine hconf (LinkedUp.confirms_ne_idle hpc) ?_
      cases t <;> rw [show c.hand _ = _ from hpc] <;> rfl
  | @skip t now seg n _ hpc => exact hconf (by simp [hpc]) (by rw [hpc]; rfl)
  | publish _ he =>
      obtain ⟨vs, hq⟩ := SpoolQueue.enqueue_spec he
      exact Or.inl ⟨hq.mark u, hq.any u⟩
  | fault _ he hq =>
      obtain ⟨vs, hq'⟩ := SpoolQueue.enqueue_spec he
      rcases hq with ⟨-, rfl⟩ | ⟨-, rfl⟩
      · exact Or.inl ⟨rfl, rfl⟩
      · exact Or.inl ⟨hq'.mark u, hq'.any u⟩
  | remove _ _ =>
      rw [SpoolQueue.removeIfDone]
      split <;> exact Or.inl ⟨rfl, rfl⟩
  | mark => cases u <;> exact Or.inl ⟨rfl, rfl⟩
  | back _ => exact Or.inl (by simp)
  | take _ _ => exact Or.inl (by simp)
  | pass _ _ _ => exact Or.inl (by simp)
  | _ => exact Or.inl (by simp)

/-- A file a crash or a move leaves was there before, or it is the next segment's. -/
lemma Move.seg_mem (mv : Move ev d md h c a c' md' h' ws) {x : Bytes} (hx : .seg s x ∈ ws) :
    s = c.nextSeq := by
  rcases mv.files with hno | ⟨seg, e, vs, j, hseq, hq, rfl, -⟩
  · exact absurd (hno _ hx) (by simp [Write.addsFile])
  · have := List.mem_of_mem_take hx
    rw [hq.writes] at this
    simp [SpoolQueue.segmentFiles, SpoolQueue.removals] at this
    exact this.1.trans hseq

/-- The condition on a `confirm`: the second bucket is in force, or has the segment. -/
def ConfirmsBoth (c : Core) (a : Action) : Prop :=
  ∀ t now seg, a = .confirm t now → (c.hand t).segment = some seg →
    2 ≤ c.spool.state.targets ∨ c.spool.state.has .second seg.seq = true

lemma segment_of_confirms {t : Target} {seg : SpooledSegment} {pc : UploadPc}
    (hpc : pc.Confirms t seg) : pc.segment = some seg ∧ pc.done = some seg := by
  cases t <;> rw [show pc = _ from hpc] <;> exact ⟨rfl, rfl⟩

/-- What a session enqueued has a number below the next. -/
lemma BothUp.lt_next (hu : BothUp ev d h B n c) (hn : NumberedUp ev d md h c)
    (hdir : c.spool.dir.isSome) (hs : (s, b) ∈ n.enqueued) : s < c.nextSeq :=
  (hn.last hdir s _ (hu.taken s b hs)).2

/-- Up to a crash inside a move, a segment that is not lost stays on disk or is in both
buckets. -/
lemma BothUp.disk_cut (hu : BothUp ev d h B n c) (hl : LinkedUp d c)
    (mv : Move ev d md h c a c' md' h' ws) (k : ℕ) (hnote : Noted ev d n n' c a (ws.take k))
    (hconf : ConfirmsBoth c a) (hlive : n.Live s b) (hlive' : n'.Live s b) :
    Readable (applyWrites (ws.take k) d) s ∨ ∀ t, B t s = some b := by
  rcases hu.disk s b hlive with hread | hboth
  swap
  · exact Or.inr hboth
  by_cases hgone : ∃ x ∈ ws.take k, x = .removeSeg s ∨ x = .removeSidecar s ∨ x = .removeAll
  swap
  · refine Or.inl (readable_applyWrites_of hread ?_ ?_ ?_)
    · exact fun hm => hgone ⟨_, hm, Or.inl rfl⟩
    · exact fun hm => hgone ⟨_, hm, Or.inr (Or.inl rfl)⟩
    · exact fun hm => hgone ⟨_, hm, Or.inr (Or.inr rfl)⟩
  obtain ⟨x, hx, hr⟩ := hgone
  rcases mv.removes (List.mem_of_mem_take hx) hr with ⟨⟨data, dur, pts, now, f, ha⟩, hrem⟩ |
    ⟨t, now, seg, ha, hseg, rfl⟩ | ⟨t, now, seg, ha, hpc, rfl, hall⟩ | hnone
  · -- evicted
    refine absurd (hnote.evicts data dur pts now f ha s ?_) hlive'.2
    rcases hrem with rfl | rfl
    · exact Or.inl hx
    · exact Or.inr hx
  · exact absurd (hnote.skips t now seg ha hseg) hlive'.2
  · -- confirmed by the last of the targets
    obtain ⟨hseg, hdone⟩ := segment_of_confirms hpc
    have hdir := hl.dir_of_hand (LinkedUp.confirms_ne_idle hpc)
    have hother : ∀ u, u ≠ t → c.spool.state.has u seg.seq = true := by
      intro u hut
      rw [everyTargetHas, Bool.and_eq_true, Bool.or_eq_true, decide_eq_true_eq] at hall
      have hsame : (confirmed now c.spool.state seg.seq t).has u seg.seq =
          c.spool.state.has u seg.seq := by
        obtain ⟨h1, h2⟩ := SpoolQueue.confirmed_other now c.spool.state seg.seq hut
        rw [SpoolState.has, SpoolState.has, h1, h2]
      cases u with
      | primary => exact hsame ▸ hall.1
      | second =>
          rcases hconf t now seg ha hseg with htwo | hhas
          · refine hsame ▸ hall.2.resolve_left fun hlt => ?_
            have htargets : (confirmed now c.spool.state seg.seq t).targets =
                c.spool.state.targets := by cases t <;> rfl
            rw [htargets] at hlt
            exact absurd htwo (not_le.mpr hlt)
          · exact hhas
    refine Or.inr fun u => ?_
    by_cases hut : u = t
    · exact hut ▸ hu.done t seg b hdone hlive
    · exact (hu.marks hdir).had u seg.seq b (hother u hut) hlive
  · exact absurd hread.1 (hnone s)

/-- What is on disk are the bytes that were there. -/
lemma BothUp.file_cut (hu : BothUp ev d h B n c) (hn : NumberedUp ev d md h c)
    (mv : Move ev d md h c a c' md' h' ws) (k : ℕ) {x : Bytes} (hlive : n.Live s b)
    (hx : segData (applyWrites (ws.take k) d) s = some x)
    (hsum : ev.sha256Hex x = ev.sha256Hex b) : x = b := by
  rcases segData_applyWrites hx with hold | hnew
  · exact hu.file s b x hlive hold hsum
  · have hs := mv.seg_mem (List.mem_of_mem_take hnew)
    have hdir : c.spool.dir.isSome := by
      rcases mv.files with hno | ⟨seg, e, vs, j, -, hq, -⟩
      · exact absurd (hno _ (List.mem_of_mem_take hnew)) (by simp [Write.addsFile])
      · exact hq.dir
    exact absurd (hu.lt_next hn hdir hlive.1) (by omega)

/-- The marks after a move. -/
lemma BothUp.marks_move (hu : BothUp ev d h B n c) (hl : LinkedUp d c)
    (hn : NumberedUp ev d md h c) (mv : Move ev d md h c a c' md' h' ws) {vs : List Write}
    (hnote : Noted ev d n n' c a vs)
    (hkeep : ∀ t s b, n.Live s b → B t s = some b → B' t s = some b)
    (hdir : c.spool.dir.isSome)
    (hlast : c.spool.state.lastEnqueued ≤ c'.spool.state.lastEnqueued) :
    Marks B' n' c'.spool.state := by
  have hmarks := hu.marks hdir
  have hnext := (hl.linked hdir).next
  refine ⟨fun t s b hhas hlive => ?_, fun t => ?_, fun t s b hany hs => ?_⟩
  · rcases hl.has_hand mv hhas with hold | ⟨seg, hseg, hle, hmax, -, hhow⟩
    · rcases hnote.live hlive with hlive | ⟨rfl, -⟩
      · exact hkeep t s b hlive (hmarks.had t s b hold hlive)
      · -- the next number is above every mark
        rw [SpoolQueue.has_iff] at hold
        have := hu.any hdir t hold.1
        have := hmarks.bound t
        omega
    · have hlt := (hn.lt_next hl hseg).2.2
      rcases hnote.live hlive with hold | ⟨rfl, -⟩
      · have hsle : s ≤ seg.seq := by
          by_cases hany : c.spool.state.any t = true
          · exact hle hany
          · have := hmarks.fresh t s b (by simpa using hany) hold.1
            omega
        rcases hsle.lt_or_eq with hslt | rfl
        · exact hkeep t s b hold (hu.below t seg s b hseg hold hslt)
        · rcases hhow with ⟨hpc, -⟩ | ⟨-, now, ha⟩
          · exact hkeep t _ b hold (hu.done t seg b (segment_of_confirms hpc).2 hold)
          · exact absurd (hnote.skips t now seg ha hseg) hlive.2
      · have := hmarks.bound t
        by_cases hany : c.spool.state.any t = true
        · have := hle hany
          omega
        · omega
  · rcases hl.mark_hand mv t with ⟨hmark, -⟩ | ⟨seg, hseg, hmark, -⟩
    · rw [hmark]
      exact (hmarks.bound t).trans hlast
    · have := hmarks.bound t
      have := (hn.lt_next hl hseg).2.1
      rw [hmark]
      omega
  · rcases hl.mark_hand mv t with ⟨hmark, hsame⟩ | ⟨seg, -, -, hset⟩
    · rw [hmark]
      rcases hnote.enqueued s b hs with hold | ⟨rfl, -⟩
      · exact hmarks.fresh t s b (hsame.symm.trans hany) hold
      · have := hmarks.bound t
        omega
    · exact absurd (hany.symm.trans hset) (by simp)

/-- A bucket keeps a segment: what is put over it are its own bytes. -/
lemma BothUp.keep (hu : BothUp ev d h B n c) (hputs : Puts B B' c c') (t : Target) (s : ℕ)
    (b : Bytes) (hlive : n.Live s b) (hB : B t s = some b) : B' t s = some b := by
  rcases hputs.same t s with hsame | ⟨seg, m, hpc, rfl, hput⟩
  · rw [hsame, hB]
  · rw [hput, hu.clean t seg b (by rw [hpc]; rfl) hlive]

/-- **What a move keeps.** -/
lemma BothUp.move (hu : BothUp ev d h B n c) (hl : LinkedUp d c) (hn : NumberedUp ev d md h c)
    (mv : Move ev d md h c a c' md' h' ws) (hf : Follows h' ws h'') (hputs : Puts B B' c c')
    (hnote : Noted ev d n n' c a ws) (hconf : ConfirmsBoth c a) :
    BothUp ev (applyWrites ws d) h'' B' n' c' := by
  have hkeep := hu.keep hputs
  have hf' : Follows h' (ws.take ws.length) h'' := by rwa [List.take_length]
  have hnote' : Noted ev d n n' c a (ws.take ws.length) := by rwa [List.take_length]
  -- the segment enqueued just now
  have hnew : ∀ {s b}, s = c.nextSeq → Publishes ev d c b ws →
      Readable (applyWrites ws d) s ∧ segData (applyWrites ws d) s = some b ∧
        h''.taken s = some (ev.sha256Hex b) := by
    rintro s b rfl ⟨seg, e, vs, hseq, rfl, hq, rfl⟩
    have hdisk := (hl.linked hq.dir).disk
    have hlen : 2 ≤ e.writes.length := by
      rw [hq.writes]
      simp [SpoolQueue.segmentFiles]
    have hread := hq.readable_new hdisk hlen
    rw [cutWrites, Lib.cut_of_length_le _ le_rfl] at hread
    have htaken := (hq.wrote h' e.writes.length).2
    rw [if_pos hlen, List.take_length] at htaken
    rw [← hseq, hf.taken, htaken, Function.update_self]
    exact ⟨hread, hq.segData_new hdisk, rfl⟩
  -- what is in hand is older
  have hhand : ∀ {t seg b}, (c.hand t).segment = some seg → n'.Live seg.seq b →
      n.Live seg.seq b := by
    intro t seg b hseg hlive
    rcases hnote.live hlive with hold | ⟨hs, -⟩
    · exact hold
    · exact absurd (hn.lt_next hl hseg).2.2 (by omega)
  have hpeek : ∀ {t seg s b}, c.spool.Peeked d t seg → s ≤ seg.seq → n'.Live s b → n.Live s b := by
    intro t seg s b hp hle hlive
    rcases hnote.live hlive with hold | ⟨rfl, -⟩
    · exact hold
    · obtain ⟨m, hm, -⟩ := hp.sidecar
      exact absurd (hn.last hp.dir _ _ (hn.sidecars _ m hm)).2 (not_lt.mpr hle)
  refine ⟨fun s b hlive => ?_, fun s b x hlive hx hsum => ?_,
    fun hd => hu.marks_move hl hn mv hnote hkeep (mv.last_le hd).1 (mv.last_le hd).2.1,
    fun hd t hany => ?_, fun t seg b hseg hlive hsum => ?_, fun t seg s b hseg hlive hlt => ?_,
    fun t seg b hsent hlive => ?_, fun t seg b hdone hlive => ?_, fun s b hs => ?_⟩
  · rcases hnote.live hlive with hold | ⟨hs, ha⟩
    · have hcut := hu.disk_cut hl mv ws.length hnote' hconf hold hlive
      rw [List.take_length] at hcut
      exact hcut.imp_right fun hB t => hkeep t s b hold (hB t)
    · exact Or.inl (hnew hs ha).1
  · rcases hnote.live hlive with hold | ⟨hs, ha⟩
    · exact hu.file_cut hn mv ws.length hold (by rwa [List.take_length]) hsum
    · exact Option.some.inj (hx.symm.trans (hnew hs ha).2.1)
  · obtain ⟨hdir, -, hle⟩ := mv.last_le hd
    rcases hl.mark_hand mv t with ⟨-, hsame⟩ | ⟨seg, hseg, -⟩
    · exact (hu.any hdir t (hsame.symm.trans hany)).trans_le hle
    · have := (hn.lt_next hl hseg).2.2
      omega
  · rcases mv.hand hseg with hold | hp
    · exact hu.hand t seg b hold (hhand hold hlive) hsum
    · exact hu.file seg.seq b seg.data (hpeek hp le_rfl hlive) hp.data hsum
  · rcases mv.hand hseg with hold | hp
    · have hlive' : n.Live s b := by
        rcases hnote.live hlive with hs | ⟨rfl, -⟩
        · exact hs
        · exact absurd (hn.lt_next hl hold).2.2 (not_lt.mpr hlt.le)
      exact hkeep t s b hlive' (hu.below t seg s b hold hlive' hlt)
    · have hlive' := hpeek hp hlt.le hlive
      refine hkeep t s b hlive' ?_
      rcases hu.disk s b hlive' with hread | hboth
      · exact (hu.marks hp.dir).had t s b (hp.lowest s hlt hread) hlive'
      · exact hboth t
  · rcases mv.sent_hand hsent with hold | ⟨m, hpc, hok, -⟩
    · exact hu.clean t seg b hold (hhand (UploadPc.segment_of_sent hold) hlive)
    · have hseg : (c.hand t).segment = some seg := by rw [hpc]; rfl
      have hlive' := hhand hseg hlive
      have hck : seg.checksum = ev.sha256Hex b :=
        Option.some.inj ((hn.hands t seg hseg).symm.trans (hu.taken seg.seq b hlive'.1))
      refine hu.hand t seg b hseg hlive' ?_
      simpa [Event.damaged, hck, ev.sha256Hex_ne b] using hok
  · rcases hputs.done t seg hdone with hold | ⟨⟨m, hpc⟩, hB⟩
    · have hlive' := hhand (UploadPc.segment_of_sent (UploadPc.sent_of_done hold)) hlive
      exact hkeep t _ b hlive' (hu.done t seg b hold hlive')
    · rw [hB, hu.clean t seg b (by rw [hpc]; rfl) (hhand (by rw [hpc]; rfl) hlive)]
  · rcases hnote.enqueued s b hs with hold | ⟨hs, ha⟩
    · exact hn.taken_mono mv hf' (hu.taken s b hold)
    · exact (hnew hs ha).2.2

lemma Marks.mono {st st' : SpoolState} (hm : Marks B n st) (hany : ∀ t, st'.any t = st.any t)
    (hmark : ∀ t, st'.mark t = st.mark t) (hlast : st.lastEnqueued ≤ st'.lastEnqueued)
    (henq : n'.enqueued = n.enqueued) (hlost : n.lost ⊆ n'.lost) : Marks B n' st' where
  had t s b hhas hlive := by
    rw [SpoolState.has, hany, hmark, ← SpoolState.has] at hhas
    exact hm.had t s b hhas ⟨henq ▸ hlive.1, fun hs => hlive.2 (hlost hs)⟩
  bound t := by
    rw [hmark]
    exact (hm.bound t).trans hlast
  fresh t s b hno hs := by
    rw [hmark]
    exact hm.fresh t s b ((hany t).symm.trans hno) (henq ▸ hs)

/-- A crash. -/
lemma BothUp.crash (hu : BothUp ev d h B n c) (hl : LinkedUp d c) (hloose : looseMeta d = false) :
    BothDead ev d h B n where
  disk := hu.disk
  file := hu.file
  marks hv := by
    have hdir := hl.dir_of_valid hv
    have hlink := hl.linked hdir
    exact (hu.marks hdir).mono hlink.any hlink.mark (hlink.last_le hloose) rfl fun _ hs => hs
  taken := hu.taken

/-- A crash inside a move. -/
lemma BothUp.cut (hu : BothUp ev d h B n c) (hl : LinkedUp d c) (hn : NumberedUp ev d md h c)
    (mv : Move ev d md h c a c' md' h' ws) (hws : ws ≠ []) {k : ℕ} (hf : Follows h' (ws.take k) h'')
    (hnote : Noted ev d n n' c a (ws.take k)) (henq : n'.enqueued = n.enqueued)
    (hconf : ConfirmsBoth c a) (hloose : looseMeta (cutWrites k ws d) = false) :
    BothDead ev (cutWrites k ws d) h'' B n' := by
  have hlive : ∀ {s b}, n'.Live s b → n.Live s b := fun hl =>
    ⟨henq ▸ hl.1, fun hs => hl.2 (hnote.lost hs)⟩
  refine ⟨fun s b hs => hu.disk_cut hl mv k hnote hconf (hlive hs) hs,
    fun s b x hs hx hsum => hu.file_cut hn mv k (hlive hs) hx hsum, fun hv => ?_,
    fun s b hs => hn.taken_mono mv hf (hu.taken s b (henq ▸ hs))⟩
  obtain ⟨hdir, hlast⟩ := hl.last_cut mv hws hv hloose
  have hlink := hl.linked hdir
  rcases hl.recorded_cut mv k with hrec | ⟨-, hrec⟩ | hnone
  · rw [hrec] at hlast ⊢
    exact (hu.marks hdir).mono hlink.any hlink.mark hlast henq hnote.lost
  · rw [hrec] at hlast ⊢
    exact hu.marks_move hl hn mv hnote (fun _ _ _ _ hB => hB) hdir hlast
  · exact absurd hv (by simp [hnone])

end Moving

/-! ### Beginning a session -/

/-- A folder that lost nothing the buckets do not have, and records what it
recorded. -/
lemma BothDead.of_disk {h h' : History} {B : Target → ℕ → Option Bytes} {n : Fates}
    (hd : BothDead ev d h B n)
    (hdisk : ∀ s b, n.Live s b → Readable d s → Readable d' s ∨ ∀ t, B t s = some b)
    (hfile : ∀ s x, segData d' s = some x → segData d s = some x)
    (hrec : ∃ i b now, recorded d' =
      { recorded d with targets := i, ended := b, lastActivityMs := now })
    (htaken : h'.taken = h.taken) : BothDead ev d' h' B n where
  disk s b hl := (hd.disk s b hl).elim (hdisk s b hl) Or.inr
  file s b x hl hx := hd.file s b x hl (hfile s x hx)
  marks hv := by
    obtain ⟨i, b, now, hrec⟩ := hrec
    rw [hrec] at hv ⊢
    refine (hd.marks hv).mono (fun t => ?_) (fun t => ?_) le_rfl rfl fun _ hs => hs
    · cases t <;> rfl
    · cases t <;> rfl
  taken s b hs := htaken ▸ hd.taken s b hs

/-- Constructing a session sweeps what both buckets have. -/
lemma BothDead.opens {h h' : History} {B : Target → ℕ → Option Bytes} {n : Fates}
    (hd : BothDead ev d h B n) {q : SpoolQueue} {ws : List Write} (ho : Opens d q ws)
    (hsp : ∀ s, .removeSeg s ∈ ws ∨ .removeSidecar s ∈ ws → (recorded d).has .second s = true)
    (k : ℕ) (hf : Follows h (ws.take k) h') : BothDead ev (cutWrites k ws d) h' B n := by
  have hadds : ∀ x ∈ ws.take k, x.addsFile = false := fun x hx =>
    ho.addsFile x (List.mem_of_mem_take hx)
  refine hd.of_disk (fun s b hl hread => ?_) (fun s x hx => ?_) ?_
    (by rw [hf.taken, History.wrote_of_addsFile hadds])
  · have hmarks : ∀ v, .removeSeg v ∈ ws ∨ .removeSidecar v ∈ ws →
        (recorded d).valid = true ∧ (recorded d).has .primary v = true := by
      intro v hv
      cases ho with
      | nothing _ _ => exact absurd hv (by simp)
      | event _ hval _ _ hvs =>
          simp [SpoolQueue.removals] at hv
          exact ⟨hval, (hvs v hv).2⟩
    by_cases hgone : .removeSeg s ∈ ws ∨ .removeSidecar s ∈ ws
    · obtain ⟨hv, hprim⟩ := hmarks s hgone
      refine Or.inr fun t => (hd.marks hv).had t s b ?_ hl
      cases t with
      | primary => exact hprim
      | second => exact hsp s hgone
    · refine Or.inl (readable_applyWrites_of hread ?_ ?_ ?_)
      · exact fun hm => hgone (Or.inl (List.mem_of_mem_take hm))
      · exact fun hm => hgone (Or.inr (List.mem_of_mem_take hm))
      · intro hm
        have := List.mem_of_mem_take hm
        cases ho with
        | nothing _ _ => exact absurd this (by simp)
        | event _ _ _ _ _ => simp [SpoolQueue.removals] at this
  · rcases segData_applyWrites hx with hold | hnew
    · exact hold
    · exact absurd (hadds _ hnew) (by simp [Write.addsFile])
  · obtain ⟨i, hrec⟩ := ho.recorded_cut k
    exact ⟨i, _, _, hrec⟩

/-- Resuming. -/
lemma BothDead.resumes {h : History} {B : Target → ℕ → Option Bytes} {n : Fates}
    (hd : BothDead ev d h B n) {r : SpoolQueue} (hr : Resumed d r) (k : ℕ) :
    BothDead ev (cutWrites k [.state r.state] d) h B n := by
  refine hd.of_disk (fun s b hl hread => Or.inl (readable_applyWrites_of hread ?_ ?_ ?_))
    (fun s x hx => ?_) ?_ rfl
  · exact fun hm => absurd (List.mem_of_mem_take hm) (by simp)
  · exact fun hm => absurd (List.mem_of_mem_take hm) (by simp)
  · exact fun hm => absurd (List.mem_of_mem_take hm) (by simp)
  · rcases segData_applyWrites hx with hold | hnew
    · exact hold
    · exact absurd (List.mem_of_mem_take hnew) (by simp)
  · obtain ⟨b, now, hrec⟩ := hr.recorded_cut k
    exact ⟨_, b, now, hrec⟩

/-- Before the first segment. -/
lemma BothDead.starts {q : SpoolQueue} {B : Target → ℕ → Option Bytes} {n : Fates} (hq : Begun ev q)
    (hn : n.enqueued = []) (k : ℕ) : BothDead ev (cutWrites k (beginWrites q.state) none) {} B n := by
  have hno : ∀ {s b}, (s, b) ∉ n.enqueued := by simp [hn]
  refine ⟨fun s b hl => absurd hl.1 hno, fun s b x hl => absurd hl.1 hno, fun hv => ?_,
    fun s b hs => absurd hs hno⟩
  rcases recorded_beginWrites q.state k with hrec | hrec
  · exact absurd hv (by simp [hrec])
  · rw [hrec]
    refine ⟨fun t s b _ hl => absurd hl.1 hno, fun t => ?_, fun t s b _ hs => absurd hs hno⟩
    have : ({ q.state with valid := true } : SpoolState).mark t = q.state.mark t := by
      cases t <;> rfl
    rw [this, hq.mark t]
    exact hq.last.ge

/-- A session just begun. -/
lemma BothDead.begun {h : History} {B : Target → ℕ → Option Bytes} {n : Fates}
    (hd : BothDead ev d h B n) {q : SpoolQueue} {next : ℕ} {m : Manifest}
    (hm : Marks B n q.state) (hany : ∀ t, q.state.any t = true → 0 < next) :
    BothUp ev d h B n (Core.begun q next m) := by
  have hidle : ∀ t, (Core.begun q next m).hand t = .idle := by
    intro t
    cases t <;> rfl
  refine ⟨hd.disk, hd.file, fun _ => hm, fun _ => hany, fun t seg b hs => ?_,
    fun t seg s b hs => ?_, fun t seg b hs => ?_, fun t seg b hs => ?_, hd.taken⟩
  all_goals
    rw [hidle] at hs
    exact absurd hs (by simp [UploadPc.segment, UploadPc.sent, UploadPc.done])

/-- What `set_targets` removes it removes for want of a second bucket. -/
lemma mirror_of_sweep {cfg : SessionConfig}
    (hs : .removeSeg s ∈ ((openQueue ev cfg d).setTargets cfg.targets d).2 ∨
      .removeSidecar s ∈ ((openQueue ev cfg d).setTargets cfg.targets d).2) :
    cfg.mirror = false := by
  obtain ⟨-, -, hws⟩ := SpoolQueue.setTargets_spec cfg.targets (openQueue ev cfg d) d
  have hmem : s ∈ SpoolQueue.swept cfg.targets (openQueue ev cfg d) d := by
    rw [hws, SpoolQueue.saveState] at hs
    rcases hs with hs | hs <;> rcases List.mem_append.mp hs with hs | hs
    · simpa [SpoolQueue.removals] using hs
    · split at hs <;> simp at hs
    · simpa [SpoolQueue.removals] using hs
    · split at hs <;> simp at hs
  rw [SpoolQueue.swept] at hmem
  split at hmem
  · rename_i hlt
    cases hmir : cfg.mirror with
    | false => rfl
    | true => simp [SessionConfig.targets, SpoolQueue.clampTargets, hmir] at hlt
  · exact absurd hmem (by simp)

/-- The condition on `openSession`, at what is swept. -/
lemma spares_of_open {w : World} {cfg : SessionConfig} {e : Effect} (hm : w.machine = .down)
    (he : w.plan ev (.openSession cfg) = some e)
    (hc : sparesSecond ev w (.openSession cfg) = true) (s : ℕ)
    (hs : .removeSeg s ∈ e.writes ∨ .removeSidecar s ∈ e.writes) :
    (recorded w.disk).has .second s = true := by
  simp only [World.plan, hm] at he
  obtain rfl := Option.some.inj he
  have hmir := mirror_of_sweep hs
  have hswept : HasSeg w.disk s ∧ (recorded w.disk).has .primary s = true := by
    have ho := opens_openQueue ev cfg w.disk
    generalize ((openQueue ev cfg w.disk).setTargets cfg.targets w.disk).2 = ws at ho hs
    cases ho with
    | nothing _ _ => exact absurd hs (by simp)
    | event _ _ _ _ hvs =>
        simp [SpoolQueue.removals] at hs
        exact hvs s hs
  rw [sparesSecond, hmir, Bool.false_or, List.all_eq_true] at hc
  cases hd : w.disk with
  | none => exact absurd (hd ▸ hswept.1) (not_hasSeg_none s)
  | some f =>
      have hkey := hc s (by
        rw [hd, Option.map_some, Option.getD_some, ← AList.mem_keys]
        exact (hasSeg_some.mp (hd ▸ hswept.1)))
      rw [← hd]
      simpa [hswept.2] using hkey

/-! ### What the notes say -/

section Notes

variable {w : World} {p : Proc} {a : Action} {e : Effect} {n : Fates}

lemma publishes_of_plan (hm : w.machine = .up p) (he : w.plan ev a = some e)
    (hs : (s, b) ∈ w.enqueues a) : s = p.core.nextSeq ∧ Publishes ev w.disk p.core b e.writes := by
  cases a with
  | publishSegment data dur pts now f =>
      cases f with
      | some k => exact absurd hs (by simp [World.enqueues])
      | none =>
          obtain ⟨rfl, rfl⟩ : s = p.nextSeq ∧ b = data := by simpa [World.enqueues, hm] using hs
          refine ⟨rfl, ?_⟩
          rw [plan_up hm] at he
          simp only [Proc.plan] at he
          split at he
          · rw [publishSegment, Option.bind_eq_some_iff] at he
            obtain ⟨q, hq, he⟩ := he
            obtain rfl := Option.some.inj he
            obtain ⟨vs, hspec⟩ := SpoolQueue.enqueue_spec hq
            exact ⟨_, q, vs, rfl, rfl, hspec, rfl⟩
          · exact absurd he (by simp)
  | _ => exact absurd hs (by simp [World.enqueues])

/-- The notes, on an action with these writes. -/
lemma noted_of_enqueues (hm : w.machine = .up p) (enq : List (ℕ × Bytes)) (ws : List Write)
    (henq : ∀ s b, (s, b) ∈ enq → s = p.core.nextSeq ∧ Publishes ev w.disk p.core b ws) :
    Noted ev w.disk n ⟨enq ++ n.enqueued, w.loses a ws ++ n.lost⟩ p.core a ws where
  enqueued s b hs := (List.mem_append.mp hs).elim (fun h => Or.inr (henq s b h)) Or.inl
  lost := List.subset_append_right _ _
  evicts := by
    rintro data dur pts now f rfl s hs
    refine List.mem_append_left _ ?_
    rw [World.loses, removedBy, List.mem_filterMap]
    rcases hs with hs | hs
    · exact ⟨_, hs, rfl⟩
    · exact ⟨_, hs, rfl⟩
  skips := by
    rintro t now seg rfl hseg
    refine List.mem_append_left _ ?_
    simp [World.loses, hm, hseg]

/-- Only the world crashes inside an action. -/
lemma ne_crashIn_of_plan (he : w.plan ev a = some e) (a' : Action) (k : ℕ) : a ≠ .crashIn a' k := by
  rintro rfl
  cases hm : w.machine <;> simp [World.plan, hm, Proc.plan] at he

lemma base_of_plan (he : w.plan ev a = some e) : a.base = a ∧ w.writes ev a = e.writes := by
  have hne := ne_crashIn_of_plan he
  cases a <;> first
    | exact absurd rfl (hne _ _)
    | exact ⟨rfl, congrArg (fun o => Option.elim o [] Effect.writes) he⟩

/-- An action that begins a session enqueues nothing and loses nothing. -/
lemma notes_of_boot (hb : Boots ev w e a) (ws : List Write) :
    w.enqueues a = [] ∧ w.loses a ws = [] := by
  cases hb <;> exact ⟨rfl, by simp [World.loses]⟩

/-- The condition on `confirm`. -/
lemma confirmsBoth_of_spares (hm : w.machine = .up p) (hc : sparesSecond ev w a = true) :
    ConfirmsBoth p.core a := by
  rintro t now seg rfl hseg
  simp only [sparesSecond, hm, Bool.or_eq_true, decide_eq_true_eq] at hc
  refine hc.imp_right fun hall => ?_
  rw [hseg] at hall
  exact hall

end Notes

/-! ### Every run -/

/-- The invariant of whole runs. -/
def KeepsBoth (ev : Event) (x : World × Fates) : Prop :=
  Holds ev (fun d _ h => BothDead ev d h (x.1.bucket ev) x.2)
    (fun d _ h c => BothUp ev d h (x.1.bucket ev) x.2 c) x.1

/-- What is known of every world reached. -/
structure KnownBoth (ev : Event) (w : World) : Prop where
  sound : Sound ev w
  linked : ∀ p, w.machine = .up p → LinkedUp w.disk p.core
  numbered : ∀ p, w.machine = .up p → NumberedUp ev w.disk (w.store.media ev) w.hist p.core

section Running

variable {w : World} {a : Action} {n : Fates}

/-- Damage that changes the checksum leaves no other file in a segment's place. -/
lemma file_damaged {r : ℕ} {x : Bytes}
    (hfile : ∀ s b x, n.Live s b → segData w.disk s = some x →
      ev.sha256Hex x = ev.sha256Hex b → x = b)
    (htaken : ∀ s b, (s, b) ∈ n.enqueued → w.hist.taken s = some (ev.sha256Hex b))
    (hc : sparesSecond ev w (.damage r x) = true) (s : ℕ) (b y : Bytes) (hl : n.Live s b)
    (hy : segData (w.damaged r x).disk s = some y) (hsum : ev.sha256Hex y = ev.sha256Hex b) :
    y = b := by
  cases hd : w.disk with
  | none =>
      rw [World.damaged, hd] at hy
      exact absurd hy (by simp [segData])
  | some f =>
      rw [World.damaged, hd] at hy
      by_cases hs : s = r
      · subst hs
        simp only [segData, Option.map_some, Option.bind_some, AList.lookup_insert,
          Option.some.injEq] at hy
        subst hy
        rw [sparesSecond, htaken s b hl.1] at hc
        simp [hsum] at hc
      · refine hfile s b y hl ?_ hsum
        rw [hd]
        simpa [segData, AList.lookup_insert_ne hs] using hy

lemma readable_damaged {r : ℕ} {x : Bytes} (hseg : HasSeg w.disk r) (s : ℕ) :
    Readable (w.damaged r x).disk s ↔ Readable w.disk s := by
  have hsame := World.damaged_same x hseg
  rw [Readable, Readable, hsame.hasSeg, hsame.sidecar]

lemma KeepsBoth.damage {r : ℕ} {x : Bytes} (h : KeepsBoth ev (w, n)) (hseg : HasSeg w.disk r)
    (hc : sparesSecond ev w (.damage r x) = true) : KeepsBoth ev (w.damaged r x, n) := by
  have hrec := (World.damaged_same x hseg).recorded
  by_cases hup : ∃ p, w.machine = .up p
  · obtain ⟨p, hm⟩ := hup
    have hu := (Holds.of_up hm).mp h
    refine (Holds.of_up (w := w.damaged r x) hm).mpr { hu with disk := ?_, file := ?_ }
    · exact fun s b hl => (hu.disk s b hl).imp_left (readable_damaged hseg s).mpr
    · exact file_damaged hu.file hu.taken hc
  · have hup' : ∀ p, w.machine ≠ .up p := fun p hp => hup ⟨p, hp⟩
    have hd := (Holds.of_not_up hup').mp h
    refine (Holds.of_not_up (w := w.damaged r x) hup').mpr ⟨?_, ?_, ?_, hd.taken⟩
    · exact fun s b hl => (hd.disk s b hl).imp_left (readable_damaged hseg s).mpr
    · exact file_damaged hd.file hd.taken hc
    · rw [hrec]
      exact hd.marks

/-- A crash inside an action that begins a session. -/
lemma BothDead.boots_cut {e : Effect} (hs : Sound ev w)
    (hd : BothDead ev w.disk w.hist (w.bucket ev) n) (he : w.plan ev a = some e)
    (hb : Boots ev w e a) (hc : sparesSecond ev w a = true) (k : ℕ) :
    BothDead ev (cutWrites k e.writes w.disk) (e.past w.disk (e.writes.take k)) (w.bucket ev) n := by
  cases hb with
  | opens hm _ hws _ hh _ =>
      exact hd.opens hws (spares_of_open hm he hc) k (hh ▸ e.past_follows w.disk _)
  | starts _ hnew hq hws _ hh _ _ =>
      obtain ⟨hdisk, hhist, -, -⟩ := hs.fresh hnew
      rw [hh, hws, wrote_beginWrites, hdisk, hhist]
      refine .starts hq (List.eq_nil_iff_forall_not_mem.mpr fun x hx => ?_) k
      have := hd.taken x.1 x.2 hx
      rw [hhist] at this
      exact absurd this (by simp)
  | refused _ hws _ hh _ =>
      rw [hh, hws]
      simpa [cutWrites, Lib.cut, History.wrote] using hd
  | resumes hr hws _ hh _ _ =>
      rw [hh, hws, wrote_state]
      exact hd.resumes hr k

/-- A session that begins finds the buckets as they were. -/
lemma bucket_of_boot {e : Effect} (hup : ∀ p, w.machine ≠ .up p) (he : w.plan ev a = some e)
    (hb : Boots ev w e a) : (w.after e).bucket ev = w.bucket ev := by
  have hmedia : e.store.media ev = w.store.media ev := by
    cases hb with
    | opens _ _ _ hst _ _ => rw [hst]
    | starts _ _ _ _ hst _ _ _ => exact hst
    | refused _ _ hst _ _ => rw [hst]
    | resumes _ _ hst _ _ _ => exact hst
  funext t
  cases t with
  | primary => exact congrArg Media.segment hmedia
  | second => exact congrArg (fun st => Store.segment st ev.id) (second_of_boot hup he)

/-- An action that begins a session, complete. -/
lemma KeepsBoth.boots {e : Effect} (hs : Sound ev w)
    (hd : BothDead ev w.disk w.hist (w.bucket ev) n) (hup : ∀ p, w.machine ≠ .up p)
    (he : w.plan ev a = some e) (hb : Boots ev w e a) (hc : sparesSecond ev w a = true) :
    KeepsBoth ev (w.after e, n) := by
  have hcut := hd.boots_cut hs he hb hc e.writes.length
  rw [cutWrites, Lib.cut_of_length_le _ le_rfl, List.take_length,
    ← bucket_of_boot hup he hb] at hcut
  have hdead : (∀ p, e.machine ≠ .up p) → KeepsBoth ev (w.after e, n) := fun hno =>
    (Holds.of_not_up (w := w.after e) hno).mpr hcut
  cases hb with
  | opens _ hq _ _ _ _ => exact hdead (by simp [hq])
  | @starts _ _ _ _ _ q' _ hnew hq hws _ _ _ hmach =>
      rcases hmach with hdown | ⟨p, m, hp, -, -, hcore⟩
      · exact hdead (by simp [hdown])
      · refine (Holds.of_up (w := w.after e) hp).mpr ?_
        have hrec : recorded (applyWrites e.writes w.disk) = q'.state := by
          rw [hws, (hs.fresh hnew).1]
          exact SpoolQueue.valid_eq hq.valid
        rw [hcore]
        refine hcut.begun ?_ fun t hany => absurd hany (by simp [hq.any t])
        exact hrec ▸ hcut.marks (hrec ▸ hq.valid)
  | refused hdown _ _ _ _ => exact hdead (by simp [hdown])
  | @resumes _ _ _ _ r hr hws _ _ _ hmach =>
      rcases hmach with hdown | ⟨p, m, hp, -, -, hcore⟩
      · exact hdead (by simp [hdown])
      · refine (Holds.of_up (w := w.after e) hp).mpr ?_
        have hvalid : r.state.valid = true := by
          obtain ⟨now, hst⟩ := hr.state
          rw [hst]
          exact hr.valid
        have hrec : recorded (applyWrites e.writes w.disk) = r.state := by
          rw [hws]
          exact (recorded_apply_state hr.disk r.state).trans (SpoolQueue.valid_eq hvalid)
        rw [hcore]
        refine hcut.begun ?_ fun t _ => Nat.succ_pos _
        exact hrec ▸ hcut.marks (hrec ▸ hvalid)

/-- **What a step keeps.** -/
theorem KeepsBoth.step {x y : World × Fates} (hk : KnownBoth ev x.1) (h : KeepsBoth ev x)
    (hc : mirrorsAll ev x.1 a = true) (ht : stepFates ev x a = some y) : KeepsBoth ev y := by
  obtain ⟨w, n⟩ := x
  obtain ⟨w', n'⟩ := y
  obtain ⟨hstep, rfl⟩ := Lib.noted_eq_some.mp ht
  obtain ⟨hnum, hsp⟩ := Bool.and_eq_true_iff.mp hc
  have hs := hk.sound
  rcases step_cases hstep with ⟨rfl, -, rfl⟩ | ⟨r, x, rfl, hseg, rfl⟩ |
    ⟨a', k, e, rfl, he, hws, rfl⟩ | ⟨e, he, rfl⟩
  · refine (Holds.of_not_up (by simp)).mpr ?_
    by_cases hup : ∃ p, w.machine = .up p
    · obtain ⟨p, hm⟩ := hup
      have hloose : looseMeta w.disk = false := by simpa [keepsNumbers] using hnum
      exact ((Holds.of_up hm).mp h).crash (hk.linked p hm) hloose
    · exact (Holds.of_not_up fun p hp => hup ⟨p, hp⟩).mp h
  · exact h.damage hseg hsp
  · -- a crash inside an action
    refine (Holds.of_not_up (by simp [World.cutAfter])).mpr ?_
    have hnotes : noteFates ev w (.crashIn a' k) n =
        ⟨n.enqueued, w.loses a' (e.writes.take k) ++ n.lost⟩ := by
      rw [noteFates, World.writes, he]
      rfl
    rw [hnotes]
    rcases hs.plan he with ⟨p, hm, p', -, -, -, mv⟩ | ⟨hup, hboot⟩
    · have hloose : looseMeta (cutWrites k e.writes w.disk) = false := by
        simpa [keepsNumbers, he] using hnum
      exact ((Holds.of_up hm).mp h).cut (hk.linked p hm) (hk.numbered p hm) mv hws
        (e.past_follows w.disk _) (noted_of_enqueues hm [] _ (by simp)) rfl
        (confirmsBoth_of_spares hm hsp) hloose
    · rw [(notes_of_boot hboot _).2]
      exact ((Holds.of_not_up hup).mp h).boots_cut hs he hboot hsp k
  · -- an action, complete
    obtain ⟨hbase, hwrites⟩ := base_of_plan he
    rw [hbase] at hsp
    have hnotes : noteFates ev w a n =
        ⟨w.enqueues a ++ n.enqueued, w.loses a e.writes ++ n.lost⟩ := by
      rw [noteFates, hbase, hwrites]
    rw [hnotes]
    rcases hs.plan he with ⟨p, hm, p', hm', -, -, mv⟩ | ⟨hup, hboot⟩
    · refine (Holds.of_up (w := w.after e) hm').mpr ?_
      exact ((Holds.of_up hm).mp h).move (hk.linked p hm) (hk.numbered p hm) mv
        (e.past_follows w.disk _)
        (puts_of_plan (hs.calm p hm) (fun t seg hseg => hs.hands p t seg hm hseg)
          (plan_up hm a ▸ he) hm')
        (noted_of_enqueues hm _ _ fun s b hsb => publishes_of_plan hm he hsb)
        (confirmsBoth_of_spares hm hsp)
    · obtain ⟨henq, hlost⟩ := notes_of_boot hboot e.writes
      rw [henq, hlost]
      exact KeepsBoth.boots hs ((Holds.of_not_up hup).mp h) hup he hboot hsp

end Running

/-- The runs that keep the second bucket in the picture. -/
abbrev ReachedMirroring (ev : Event) : World × Fates → Prop :=
  Lib.Reach (stepFates ev) (fun x a => mirrorsAll ev x.1 a = true) FreshFates

lemma knownBoth_of_reach {x : World × Fates} (h : ReachedMirroring ev x) : KnownBoth ev x.1 := by
  have hall : ReachedBy ev (mirrorsAll ev) x.1 := Lib.Reach.of_noted (fun _ h0 => h0.1) h
  have hreach : ReachedBy ev (keepsNumbers ev) x.1 :=
    hall.mono fun _ _ hc => (Bool.and_eq_true_iff.mp hc).1
  refine ⟨sound_of_reach hreach, fun p hp => linked_of_reach hreach hp, fun p hp => ?_⟩
  refine (Holds.of_up hp).mp ((numbered_invariant ev).reach (fun h p hp => ?_) hreach)
  exact ⟨linked_of_reach h hp, (Holds.of_up hp).mp (backed_of_reach h)⟩

lemma keepsBoth_of_reach {x : World × Fates} (h : ReachedMirroring ev x) : KeepsBoth ev x := by
  refine Lib.Reach.invariant₂ (J := fun x => KnownBoth ev x.1) knownBoth_of_reach ?_
    (fun x a y hk hx hc ht => hx.step hk hc ht) h
  rintro ⟨w, n⟩ ⟨rfl, rfl⟩
  refine (Holds.of_not_up (by simp)).mpr ⟨?_, ?_, ?_, ?_⟩
  · exact fun s b hl => absurd hl.1 (by simp)
  · exact fun s b x hl => absurd hl.1 (by simp)
  · exact fun hv => absurd hv (by simp)
  · exact fun s b hs => absurd hs (by simp)

/-- **Safe in two places.**  In a run that gives every number once and lets no
segment leave the disk before the second bucket has it, a complete mirror and a
primary that has caught up mean that every segment enqueued, and neither evicted nor
found damaged, is in both buckets with its bytes. -/
theorem safe_in_both (ev : Event) {x : World × Fates} {p : Proc} (h : ReachedMirroring ev x)
    (hm : x.1.machine = .up p) (hsecond : p.mirrorComplete x.1.disk = true)
    (hprimary : p.spool.caughtUp x.1.disk .primary = true) : SafeInBoth ev x := by
  have hu := (Holds.of_up hm).mp (keepsBoth_of_reach h)
  have hl := (knownBoth_of_reach h).linked p hm
  have hcaught : ∀ t, p.spool.caughtUp x.1.disk t = true := by
    intro t
    cases t with
    | primary => exact hprimary
    | second => exact (Bool.and_eq_true_iff.mp hsecond).2
  intro s b hlive t
  rcases hu.disk s b hlive with hread | hboth
  · have hdir : p.spool.dir.isSome := by
      by_contra hn
      rw [hl.noFolder (Option.not_isSome_iff_eq_none.mp hn)] at hread
      exact not_hasSeg_none s hread.1
    have hhas := List.all_eq_true.mp (hcaught t) s
      (SpoolQueue.mem_pendingSeqs.mpr ⟨hdir, hread.1⟩)
    exact (hu.marks hdir).had t s b hhas hlive
  · exact hboth t

/-- The second bucket takes the lowest segment it lacks. -/
def mirrorOne : List Action :=
  [.peek .second, .mayUpload .second, .checkFloor .second, .putSegment .second .ok,
    .confirm .second 2]

/-- One segment in two places, after a crash and a resume on the way. -/
def inTwoPlaces : List Action :=
  goLiveMirrored ++ [Action.publishSegment [1] 6 0 1 none] ++ uploadOne ++
    [Action.crash, .openSession { mirror := true }, .resume {} {} {} 3, .dequeueManifest,
      .putManifest true, .flushBegin, .publishLive true 3] ++ mirrorOne

theorem safe_in_both_resumed : ∃ x : World × Fates, x.2.Live 0 [1] ∧
    SafeInBoth sampleEvent x := by
  obtain ⟨x, hx, hup, hlive⟩ : ∃ x, ReachedMirroring sampleEvent x ∧
      (x.1.upWith fun p d => p.mirrorComplete d && p.spool.caughtUp d .primary) = true ∧
        ((0, [1]) ∈ x.2.enqueued ∧ 0 ∉ x.2.lost) :=
    Lib.exists_reach_guarded ({}, {}) inTwoPlaces ⟨rfl, rfl⟩ (by decide +kernel)
  obtain ⟨p, hm, hp⟩ := exists_of_upWith hup
  obtain ⟨hsecond, hprimary⟩ := Bool.and_eq_true_iff.mp hp
  exact ⟨x, hlive, safe_in_both sampleEvent hx hm hsecond hprimary⟩

/-- A segment published and uploaded in a session without a second bucket, which
crashes; the session after it has one. -/
def mirroredLater : List Action :=
  goLive ++ [Action.publishSegment [1] 6 0 1 none] ++ uploadOne ++
    [Action.crash, .openSession { mirror := true }, .resume {} {} {} 3]

/-- The mirror is complete, and the second bucket does not have the segment. -/
theorem complete_alone : ∃ x p,
    Lib.Reach (stepFates sampleEvent) Lib.anyStep FreshFates x ∧ x.1.machine = .up p ∧
      p.mirrorComplete x.1.disk = true ∧ ¬SafeInBoth sampleEvent x := by
  obtain ⟨x, hx, hup, hlive, hnone⟩ : ∃ x,
      Lib.Reach (stepFates sampleEvent) Lib.anyStep FreshFates x ∧
        (x.1.upWith fun p d => p.mirrorComplete d) = true ∧
        ((0, [1]) ∈ x.2.enqueued ∧ 0 ∉ x.2.lost) ∧
        x.1.bucket sampleEvent .second 0 = none :=
    Lib.exists_reach ({}, {}) mirroredLater ⟨rfl, rfl⟩ (by decide +kernel)
  obtain ⟨p, hm, hp⟩ := exists_of_upWith hup
  refine ⟨x, p, hx, hm, hp, fun hsafe => ?_⟩
  have := hsafe 0 [1] hlive .second
  rw [hnone] at this
  exact absurd this (by simp)

end Multisite

import Multisite.Session.Boots

/-!
What a move of a session leaves alone.

* `Move.hand`, `Move.sent`, `Move.done`: where the segment an uploader has in
  hand comes from;
* `Move.versions`: the versions of the manifest that are queued, in flight and
  stored are versions it had in memory, so what the next one is shown to have
  they all have;
* `Move.sidecar_mem`: which sidecars a move writes.
-/

namespace Multisite

open SpoolQueue (removals)

/-! ### The segment in hand -/

/-- The segment an uploader has in hand. -/
def UploadPc.segment : UploadPc → Option SpooledSegment
  | .idle | .skipping _ => none
  | .peeked seg | .holding seg _ | .sending seg _ | .stored seg | .listed seg _ => some seg

lemma UploadPc.Back.segment {pc pc' : UploadPc} (h : pc.Back pc') {seg : SpooledSegment}
    (hs : pc'.segment = some seg) : pc.segment = some seg := by
  cases h <;> first | exact hs | exact absurd hs (by simp [UploadPc.segment])

lemma afterSkip_segment (s : ℕ) (t : Target) : (afterSkip s t).segment = none := by
  cases t <;> rfl

/-- The segment an uploader is sending or has sent. -/
def UploadPc.sent : UploadPc → Option SpooledSegment
  | .sending seg _ | .stored seg | .listed seg _ => some seg
  | _ => none

/-- The segment an uploader has sent. -/
def UploadPc.done : UploadPc → Option SpooledSegment
  | .stored seg | .listed seg _ => some seg
  | _ => none

lemma UploadPc.segment_of_sent {pc : UploadPc} {seg : SpooledSegment} (h : pc.sent = some seg) :
    pc.segment = some seg := by
  cases pc <;> first | exact h | exact absurd h (by simp [UploadPc.sent])

lemma UploadPc.sent_of_done {pc : UploadPc} {seg : SpooledSegment} (h : pc.done = some seg) :
    pc.sent = some seg := by
  cases pc <;> first | exact h | exact absurd h (by simp [UploadPc.done])

lemma UploadPc.Back.sent {pc pc' : UploadPc} (h : pc.Back pc') {seg : SpooledSegment}
    (hs : pc'.sent = some seg) : pc.sent = some seg := by
  cases h <;> first | exact hs | exact absurd hs (by simp [UploadPc.sent])

lemma UploadPc.Back.done {pc pc' : UploadPc} (h : pc.Back pc') {seg : SpooledSegment}
    (hs : pc'.done = some seg) : pc.done = some seg := by
  cases h <;> exact hs

section Moving

variable {ev : Event} {d : Option Folder} {md md' : Media} {h h' : History} {c c' : Core}
  {a : Action} {ws : List Write}

/-- What an uploader has in hand after a move it had before, or has just
peeked. -/
lemma Move.hand (mv : Move ev d md h c a c' md' h' ws) {t : Target} {seg : SpooledSegment}
    (hseg : (c'.hand t).segment = some seg) :
    (c.hand t).segment = some seg ∨ c.spool.Peeked d t seg := by
  -- every move but `take` leaves in the moving hand what it held, or nothing
  have key : ∀ {c₁ : Core} {u : Target} {pc : UploadPc}, (∀ t, c₁.hand t = c.hand t) →
      (∀ seg, pc.segment = some seg → (c.hand u).segment = some seg) →
      ((c₁.withHand u pc).hand t).segment = some seg → (c.hand t).segment = some seg := by
    intro c₁ u pc h1 h2 h3
    rcases Core.hand_withHand_cases c₁ u pc t with ⟨rfl, heq⟩ | ⟨-, heq⟩
    · exact h2 seg (heq ▸ h3)
    · rwa [heq, h1] at h3
  cases mv with
  | back hpc =>
      exact Or.inl (key (fun _ => rfl) (fun seg' hs => hpc.segment hs) hseg)
  | take hpc hp =>
      rename_i t₀ seg₀
      rcases Core.hand_withHand_cases c t₀ (.peeked seg₀) t with ⟨rfl, heq⟩ | ⟨-, heq⟩
      · rw [heq] at hseg
        obtain rfl := Option.some.inj hseg
        exact Or.inr hp
      · exact Or.inl (heq ▸ hseg)
  | pass hpc _ _ => exact Or.inl (key (fun _ => rfl) (fun seg' hs => by rw [hpc]; exact hs) hseg)
  | put hpc => exact Or.inl (key (fun _ => rfl) (fun seg' hs => by rw [hpc]; exact hs) hseg)
  | putSecond hpc => exact Or.inl (key (fun _ => rfl) (fun seg' hs => by rw [hpc]; exact hs) hseg)
  | list hpc _ =>
      refine Or.inl (key (fun t => ?_) (fun seg' hs => by rw [hpc]; exact hs) hseg)
      cases t <;> rfl
  | confirm hpc =>
      refine Or.inl (key (fun t => ?_) (fun seg' hs => absurd hs (by simp [UploadPc.segment])) hseg)
      cases t <;> rfl
  | skip _ hpc =>
      refine Or.inl (key (fun t => ?_) (fun seg' hs => ?_) hseg)
      · cases t <;> rfl
      · rw [afterSkip_segment] at hs
        exact absurd hs (by simp)
  | skipped hpc =>
      refine Or.inl (key (fun t => ?_) (fun seg' hs => absurd hs (by simp [UploadPc.segment])) hseg)
      cases t <;> rfl
  | _ => cases t <;> exact Or.inl hseg

/-- A move that writes in the folder leaves the bucket alone. -/
lemma Move.media_eq (mv : Move ev d md h c a c' md' h' ws) (hws : ws ≠ []) : md' = md := by
  cases mv <;> first | rfl | exact absurd rfl hws

/-- A sidecar is written by `publish_segment` only. -/
lemma Move.sidecar_mem (mv : Move ev d md h c a c' md' h' ws) {s : ℕ} {m : Sidecar}
    (hm : .sidecar s m ∈ ws) :
    s = c.nextSeq ∧ m.key = .segment ev.id s ∧ ∃ b, m.checksum = ev.sha256Hex b := by
  have key : ∀ {q : SpoolQueue} {now : ℤ} {data : Bytes} {dur pts : ℚ} {e : SpoolQueue.Enqueued},
      q.enqueue ev.sha256Hex now d (newSegment ev c.nextSeq data dur pts) = some e →
      .sidecar s m ∈ e.writes →
      s = c.nextSeq ∧ m.key = .segment ev.id s ∧ ∃ b, m.checksum = ev.sha256Hex b := by
    intro q now data dur pts e he hmem
    obtain ⟨vs, hspec⟩ := SpoolQueue.enqueue_spec he
    rw [hspec.writes] at hmem
    simp [SpoolQueue.segmentFiles, removals] at hmem
    obtain ⟨rfl, rfl⟩ := hmem
    exact ⟨rfl, rfl, data, rfl⟩
  cases mv with
  | publish _ he => exact key he hm
  | fault _ he _ => exact key he (List.mem_of_mem_take hm)
  | confirm _ =>
      rcases SpoolQueue.mem_confirm_writes hm with h | h | h <;> exact absurd h (by simp)
  | skip _ _ =>
      rcases SpoolQueue.mem_confirm_writes hm with h | h | h <;> exact absurd h (by simp)
  | mark =>
      simp [SpoolQueue.markEnded, SpoolQueue.saveState] at hm
  | remove _ _ =>
      rw [SpoolQueue.removeIfDone] at hm
      split at hm <;> simp at hm
  | _ => exact absurd hm (by simp)

/-- What an uploader is sending it was sending before, or it passed the floor with
it just now. -/
lemma Move.sent_hand (mv : Move ev d md h c a c' md' h' ws) {t : Target} {seg : SpooledSegment}
    (hs : (c'.hand t).sent = some seg) :
    (c.hand t).sent = some seg ∨ ∃ n, c.hand t = .holding seg n ∧ ev.damaged seg = false ∧
      c.spool.floor ≤ seg.seq := by
  have key : ∀ {c₁ : Core} {u : Target} {pc : UploadPc}, (∀ t, c₁.hand t = c.hand t) →
      (∀ seg, pc.sent = some seg → (c.hand u).sent = some seg) →
      ((c₁.withHand u pc).hand t).sent = some seg → (c.hand t).sent = some seg := by
    intro c₁ u pc h1 h2 h3
    rcases Core.hand_withHand_cases c₁ u pc t with ⟨rfl, heq⟩ | ⟨-, heq⟩
    · exact h2 seg (heq ▸ h3)
    · rwa [heq, h1] at h3
  cases mv with
  | back hpc => exact Or.inl (key (fun _ => rfl) (fun _ h => hpc.sent h) hs)
  | take hpc hp =>
      exact Or.inl (key (fun _ => rfl) (fun _ h => absurd h (by simp [UploadPc.sent])) hs)
  | @pass u seg' n hpc hok hf =>
      rcases Core.hand_withHand_cases c u (.sending seg' (n + 1)) t with ⟨rfl, heq⟩ | ⟨-, heq⟩
      · rw [heq] at hs
        obtain rfl : seg' = seg := Option.some.inj hs
        exact Or.inr ⟨n, hpc, hok, hf⟩
      · exact Or.inl (heq ▸ hs)
  | put hpc => exact Or.inl (key (fun _ => rfl) (fun _ h => by rw [hpc]; exact h) hs)
  | putSecond hpc => exact Or.inl (key (fun _ => rfl) (fun _ h => by rw [hpc]; exact h) hs)
  | list hpc _ =>
      refine Or.inl (key (fun t => ?_) (fun _ h => by rw [hpc]; exact h) hs)
      cases t <;> rfl
  | confirm hpc =>
      refine Or.inl (key (fun t => ?_) (fun _ h => absurd h (by simp [UploadPc.sent])) hs)
      cases t <;> rfl
  | @skip u _ _ _ _ hpc =>
      refine Or.inl (key (fun t => ?_) (fun _ h => absurd h ?_) hs)
      · cases t <;> rfl
      · cases u <;> simp [afterSkip, UploadPc.sent]
  | skipped hpc =>
      refine Or.inl (key (fun t => ?_) (fun _ h => absurd h (by simp [UploadPc.sent])) hs)
      cases t <;> rfl
  | _ => cases t <;> exact Or.inl hs

/-- The same of the primary. -/
lemma Move.sent (mv : Move ev d md h c a c' md' h' ws) {seg : SpooledSegment}
    (hs : c'.up.sent = some seg) :
    c.up.sent = some seg ∨ ∃ n, c.up = .holding seg n ∧ ev.damaged seg = false ∧
      c.spool.floor ≤ seg.seq :=
  mv.sent_hand (t := .primary) hs

/-- What the primary has sent it had sent before, or the bucket acknowledged just
now. -/
lemma Move.done (mv : Move ev d md h c a c' md' h' ws) {seg : SpooledSegment}
    (hs : c'.up.done = some seg) : c.up.done = some seg ∨ (seg.seq, seg.data) ∈ h'.acked := by
  cases mv with
  | @back _ t _ hpc =>
      cases t with
      | primary => exact Or.inl (hpc.done hs)
      | second => exact Or.inl hs
  | @take t _ _ _ =>
      cases t with
      | primary => exact absurd hs (by simp [Core.withHand, UploadPc.done])
      | second => exact Or.inl hs
  | @pass t _ _ _ _ _ =>
      cases t with
      | primary => exact absurd hs (by simp [Core.withHand, UploadPc.done])
      | second => exact Or.inl hs
  | @put seg' _ hpc =>
      obtain rfl : seg' = seg := Option.some.inj hs
      exact Or.inr (by simp)
  | list hpc _ =>
      have hpc' : c.up = _ := hpc
      exact Or.inl (hpc' ▸ hs)
  | @confirm t _ _ _ =>
      cases t with
      | primary => exact absurd hs (by simp [Core.withHand, UploadPc.done])
      | second => exact Or.inl hs
  | @skip t _ _ _ _ _ =>
      cases t with
      | primary => exact absurd hs (by simp [Core.withHand, afterSkip, UploadPc.done])
      | second => exact Or.inl hs
  | skipped _ => exact absurd hs (by simp [Core.withHand, UploadPc.done])
  | _ => exact Or.inl hs

/-! ### The files written -/

/-- Only `publish_segment` adds files: all or a prefix of the writes of one
`enqueue`, at the next number. -/
lemma Move.files (mv : Move ev d md h c a c' md' h' ws) :
    (∀ x ∈ ws, x.addsFile = false) ∨
      ∃ seg e vs j, seg.seq = c.nextSeq ∧ c.spool.Enqueues ev.sha256Hex d seg e vs ∧
        ws = e.writes.take j ∧ h' = h ∧ c'.nextSeq = c.nextSeq + 1 ∧ (2 ≤ j → c'.spool = e.queue) := by
  cases mv with
  | @publish _ _ _ _ e _ he =>
      obtain ⟨vs, hs⟩ := SpoolQueue.enqueue_spec he
      exact Or.inr ⟨_, e, vs, e.writes.length, rfl, hs, by rw [List.take_length], rfl, rfl,
        fun _ => rfl⟩
  | @fault _ _ _ _ k e q _ he hq =>
      obtain ⟨vs, hs⟩ := SpoolQueue.enqueue_spec he
      refine Or.inr ⟨_, e, vs, k, rfl, hs, rfl, rfl, rfl, fun hk => ?_⟩
      rcases hq with ⟨hk', -⟩ | ⟨-, hq⟩
      · omega
      · exact hq
  | confirm _ =>
      refine Or.inl fun x hx => ?_
      rcases SpoolQueue.mem_confirm_writes hx with rfl | rfl | rfl <;> rfl
  | skip _ _ =>
      refine Or.inl fun x hx => ?_
      rcases SpoolQueue.mem_confirm_writes hx with rfl | rfl | rfl <;> rfl
  | mark =>
      refine Or.inl fun x hx => ?_
      simp only [SpoolQueue.markEnded, SpoolQueue.saveState] at hx
      split at hx
      · rw [List.mem_singleton.mp hx]
        rfl
      · exact absurd hx (by simp)
  | remove _ _ =>
      refine Or.inl fun x hx => ?_
      rw [SpoolQueue.removeIfDone] at hx
      split at hx
      · exact absurd hx (by simp)
      · rw [List.mem_singleton.mp hx]
        rfl
  | _ => exact Or.inl fun x hx => absurd hx (by simp)

/-- The checksums taken, after a move or a crash inside it: those before, with no
sidecar written, or one more, that of the sidecar written at the next number. -/
lemma Move.taken (mv : Move ev d md h c a c' md' h' ws) {k : ℕ} {h'' : History}
    (hf : Follows h' (ws.take k) h'') :
    (h''.taken = h.taken ∧ ∀ s m, .sidecar s m ∉ ws.take k) ∨
      ∃ ck, c.spool.dir.isSome ∧ c.nextSeq ≤ c'.spool.state.lastEnqueued ∧
        c'.nextSeq = c.nextSeq + 1 ∧
        h''.taken = Function.update h.taken c.nextSeq (some ck) ∧
        (∀ s m, .sidecar s m ∈ ws.take k → s = c.nextSeq ∧ m.checksum = ck) ∧
        (d.isSome → Readable (applyWrites (ws.take k) d) c.nextSeq) := by
  have hsame : h'.taken = h.taken := by cases mv <;> rfl
  rcases mv.files with hno | ⟨seg, e, vs, j, hseq, hs, rfl, rfl, hnext, hspool⟩
  · refine Or.inl ⟨?_, fun s m hm => ?_⟩
    · rw [hf.taken, History.wrote_of_addsFile fun x hx => hno x (List.mem_of_mem_take hx), hsame]
    · exact absurd (hno _ (List.mem_of_mem_take hm)) (by simp [Write.addsFile])
  · rw [List.take_take] at hf ⊢
    have htaken := (hs.wrote h' (min k j)).2
    rw [← hf.taken] at htaken
    have hmem : ∀ s m, .sidecar s m ∈ e.writes.take (min k j) →
        2 ≤ min k j ∧ s = c.nextSeq ∧ m.checksum = ev.sha256Hex seg.data := by
      intro s m hm
      have h1 := List.mem_of_mem_take hm
      rw [hs.writes] at h1
      simp only [SpoolQueue.segmentFiles, removals, List.mem_append, List.mem_cons,
        List.mem_flatMap, List.not_mem_nil, or_false, reduceCtorEq, false_or, and_false,
        exists_false, Write.sidecar.injEq] at h1
      refine ⟨?_, h1.1.trans hseq, by rw [h1.2]; rfl⟩
      by_contra hlt
      rw [hs.writes] at hm
      generalize min k j = i at hm hlt
      have : i = 0 ∨ i = 1 := by omega
      rcases this with rfl | rfl <;> simp [SpoolQueue.segmentFiles] at hm
    by_cases hk : 2 ≤ min k j
    · rw [if_pos hk] at htaken
      refine Or.inr ⟨_, hs.dir, ?_, hnext, hseq ▸ htaken, fun s m hm => (hmem s m hm).2, fun hd => ?_⟩
      · rw [hspool (by omega), hs.last, hseq]
        exact le_max_right _ _
      · exact hseq ▸ hs.readable_new hd hk
    · rw [if_neg hk] at htaken
      exact Or.inl ⟨htaken, fun s m hm => hk (hmem s m hm).1⟩

/-- A queue at its folder was there before the move, and its numbers only go
up. -/
lemma Move.last_le (mv : Move ev d md h c a c' md' h' ws) (hd : c'.spool.dir.isSome) :
    c.spool.dir.isSome ∧ c.spool.state.lastEnqueued ≤ c'.spool.state.lastEnqueued ∧
      c.nextSeq ≤ c'.nextSeq := by
  cases mv with
  | confirm _ =>
      simp only [Core.spool_withHand, Core.nextSeq_withHand] at hd ⊢
      rw [SpoolQueue.confirm] at hd ⊢
      split at hd <;> rename_i hall <;> simp only [hall, if_true] <;>
        exact ⟨hd, by simp, le_rfl⟩
  | skip _ _ =>
      simp only [Core.spool_withHand, Core.nextSeq_withHand] at hd ⊢
      rw [SpoolQueue.confirm] at hd ⊢
      split at hd <;> rename_i hall <;> simp only [hall, if_true] <;>
        exact ⟨hd, by simp, le_rfl⟩
  | publish _ he =>
      obtain ⟨vs, hs⟩ := SpoolQueue.enqueue_spec he
      refine ⟨hs.dir, ?_, Nat.le_succ _⟩
      show c.spool.state.lastEnqueued ≤ _
      rw [hs.last]
      exact le_max_left _ _
  | fault _ he hq =>
      obtain ⟨vs, hs⟩ := SpoolQueue.enqueue_spec he
      refine ⟨hs.dir, ?_, Nat.le_succ _⟩
      rcases hq with ⟨-, rfl⟩ | ⟨-, rfl⟩
      · exact le_rfl
      · show c.spool.state.lastEnqueued ≤ _
        rw [hs.last]
        exact le_max_left _ _
  | mark => exact ⟨hd, le_rfl, le_rfl⟩
  | remove _ _ =>
      rw [SpoolQueue.removeIfDone] at hd ⊢
      split at hd
      · rename_i hn
        rw [if_pos hn]
        exact ⟨hd, le_rfl, le_rfl⟩
      · exact absurd hd (by simp)
  | _ => simp_all

/-! ### The versions of the manifest -/

/-- Every version of the manifest: in memory, queued, in flight and stored. -/
structure Versions (P : Manifest → Prop) (c : Core) (md : Media) : Prop where
  manifest : P c.manifest
  pending : ∀ m ∈ c.pending, P m
  inFlight : ∀ m ∈ c.inFlight, P m
  store : ∀ m ∈ md.manifest, P m

lemma Versions.mono {P Q : Manifest → Prop} (hPQ : ∀ m, P m → Q m) (hv : Versions P c md) :
    Versions Q c md :=
  ⟨hPQ _ hv.manifest, fun m hm => hPQ m (hv.pending m hm), fun m hm => hPQ m (hv.inFlight m hm),
    fun m hm => hPQ m (hv.store m hm)⟩

/-- A session begins with one version, besides the stored one. -/
lemma Versions.begun {P : Manifest → Prop} {q : SpoolQueue} {n : ℕ} {m : Manifest} (hm : P m)
    (hst : ∀ x ∈ md.manifest, P x) : Versions P (Core.begun q n m) md :=
  ⟨hm, fun x hx => Option.some.inj hx ▸ hm, fun x hx => absurd hx (by simp [Core.begun]), hst⟩

/-- The version queued comes from memory, and the one in flight from the queue. -/
lemma Move.queued (mv : Move ev d md h c a c' md' h' ws) {P : Manifest → Prop}
    (hpending : ∀ m ∈ c.pending, P m) (hflight : ∀ m ∈ c.inFlight, P m) (hnew : P c'.manifest) :
    (∀ m ∈ c'.pending, P m) ∧ ∀ m ∈ c'.inFlight, P m := by
  constructor
  · cases mv with
    | list _ _ => exact fun m hm => Option.some.inj hm ▸ hnew
    | ended _ => exact fun m hm => Option.some.inj hm ▸ hnew
    | dequeue _ _ => exact fun m hm => absurd hm (by simp)
    | _ => simpa using hpending
  · cases mv with
    | dequeue hpend _ => exact fun m hm => hpending m (hpend ▸ hm)
    | putManifest _ => exact fun m hm => absurd hm (by simp)
    | failManifest _ => exact fun m hm => absurd hm (by simp)
    | _ => simpa using hflight

/-- A version is handed on as it is: what the next one has, all have. -/
lemma Move.versions (mv : Move ev d md h c a c' md' h' ws) {P : Manifest → Prop}
    (hv : Versions P c md) (hnew : P c'.manifest) : Versions P c' md' := by
  obtain ⟨hpending, hflight⟩ := mv.queued hv.pending hv.inFlight hnew
  refine ⟨hnew, hpending, hflight, ?_⟩
  cases mv with
  | putManifest hfl => exact fun m hm => Option.some.inj hm ▸ hv.inFlight _ hfl
  | _ => exact hv.store

/-- How the manifest in memory comes about. -/
lemma Move.manifest_cases (mv : Move ev d md h c a c' md' h' ws) :
    c'.manifest = c.manifest ∨
      (∃ now, c'.manifest = { c.manifest with status := .ended, updatedAtMs := now }) ∨
      (∃ seg window now, c.up = .stored seg ∧
        c'.manifest = { c.manifest.push (listing c seg) window with updatedAtMs := now }) ∨
      (∃ v, c.up = .skipping v ∧ c'.manifest = c.manifest.addGap v) ∨
      ∃ v rest, c.dropping = v :: rest ∧ c'.manifest = c.manifest.addGap v := by
  cases mv with
  | @list now seg window _ _ hpc hm => exact Or.inr (Or.inr (Or.inl ⟨seg, window, now, hpc, hm⟩))
  | @ended now _ hm => exact Or.inr (Or.inl ⟨now, hm⟩)
  | @skipped seq hpc => exact Or.inr (Or.inr (Or.inr (Or.inl ⟨seq, hpc, rfl⟩)))
  | @dropped v rest hpc => exact Or.inr (Or.inr (Or.inr (Or.inr ⟨v, rest, hpc, rfl⟩)))
  | _ => exact Or.inl (by simp)

lemma Move.eventId_eq (mv : Move ev d md h c a c' md' h' ws) :
    c'.manifest.eventId = c.manifest.eventId := by
  cases mv with
  | ended hm => rw [hm]
  | list hpc hm => simp [hm]
  | _ => simp

/-- The status changes in `end` only. -/
lemma Move.status_eq (mv : Move ev d md h c a c' md' h' ws) (hnot : ∀ now, a ≠ .queueEnded now) :
    c'.manifest.status = c.manifest.status := by
  cases mv with
  | ended hm => exact absurd rfl (hnot _)
  | list hpc hm => simp [hm]
  | _ => simp

/-- Acknowledged PUTs are not forgotten. -/
lemma Move.acked_subset (mv : Move ev d md h c a c' md' h' ws) : h.acked ⊆ h'.acked := by
  cases mv <;> first | exact fun x hx => hx | exact List.subset_append_left _ _

end Moving

end Multisite

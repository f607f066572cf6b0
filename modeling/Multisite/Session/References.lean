import Multisite.Session.Link

/-!
No dangling reference: what a published manifest lists is in the bucket.

* `Backed`: every entry of a manifest, and its live edge, rests on a PUT the
  bucket acknowledged, of bytes with the entry's checksum.  In every run every
  version of the manifest is backed (`backed_of_reach`);
* the bucket keeps one object for a number, so the listed checksum is that of the
  object only while no number is used twice.  `listsOther`: a run in which the
  manifest under way lists the checksum of bytes the bucket no longer has;
* `manifest_refs_stored`: in a run in which no crash leaves a sidecar above the
  recorded `last_enqueued`, the object is the one listed.
-/

namespace Multisite

/-! ### What is asked -/

/-- Every entry of the manifest rests on an acknowledged PUT of bytes with its
checksum, and so does its live edge, once anything was listed in it. -/
structure Backed (ev : Event) (acked : List (ℕ × Bytes)) (m : Manifest) : Prop where
  segments : ∀ e ∈ m.segments, ∃ b, (e.seq, b) ∈ acked ∧ ev.sha256Hex b = e.checksum
  latest : m.segments = [] ∧ m.latestSeq = 0 ∨ ∃ b, (m.latestSeq, b) ∈ acked

/-- The manifest being PUT. -/
def World.inFlight (w : World) : Option Manifest :=
  match w.machine with
  | .up p => p.core.inFlight
  | _ => none

/-- A manifest on its way to the bucket, or stored there. -/
def World.Published (ev : Event) (w : World) (m : Manifest) : Prop :=
  w.inFlight = some m ∨ w.store.manifest ev.id = some m

/-- What the manifest lists is in the bucket, under the checksum it lists. -/
def ListsStored (ev : Event) (st : Store) (m : Manifest) : Prop :=
  (∀ e ∈ m.segments, ((st.segment ev.id e.seq).any fun b => ev.sha256Hex b = e.checksum) = true) ∧
    (m.segments = [] ∧ m.latestSeq = 0 ∨ (st.segment ev.id m.latestSeq).isSome = true)

instance (ev : Event) (st : Store) (m : Manifest) : Decidable (ListsStored ev st m) :=
  inferInstanceAs (Decidable (_ ∧ _))

/-- A `.meta` file of the folder stands above the `last_enqueued` recorded. -/
def looseMeta (d : Option Folder) : Bool :=
  match d with
  | none => false
  | some f => f.metas.keys.any fun s => decide ((recorded d).lastEnqueued < s)

/-- The steps that keep every number to one segment: no crash leaves a sidecar
above the recorded `last_enqueued`. -/
def keepsNumbers (ev : Event) (w : World) : Action → Bool
  | .crash => !looseMeta w.disk
  | .crashIn a k =>
      match w.plan ev a with
      | some e => !looseMeta (cutWrites k e.writes w.disk)
      | none => true
  | _ => true

lemma le_recorded_of_sidecar {d : Option Folder} {s : ℕ} (h : looseMeta d = false)
    (hs : (sidecar d s).isSome) : s ≤ (recorded d).lastEnqueued := by
  cases d with
  | none => exact absurd hs (by simp)
  | some f =>
      have hmem : s ∈ f.metas.keys := by
        rw [← AList.mem_keys, ← AList.lookup_isSome]
        rw [sidecar, Option.bind_some, SpoolQueue.readSidecar] at hs
        cases hl : f.metas.lookup s with
        | none => exact absurd hs (by simp [hl])
        | some x => rfl
      simp only [looseMeta, List.any_eq_false, decide_eq_true_eq, not_lt] at h
      exact h s hmem

/-! ### Every version is backed -/

namespace Backed

variable {ev : Event} {acked : List (ℕ × Bytes)} {m : Manifest}

lemma mono {acked' : List (ℕ × Bytes)} (hsub : acked ⊆ acked') (h : Backed ev acked m) :
    Backed ev acked' m where
  segments e he := by
    obtain ⟨b, hb, hsha⟩ := h.segments e he
    exact ⟨b, hsub hb, hsha⟩
  latest := h.latest.imp_right fun ⟨b, hb⟩ => ⟨b, hsub hb⟩

lemma addGap (h : Backed ev acked m) (s : ℕ) : Backed ev acked (m.addGap s) :=
  ⟨by simpa using h.segments, by simpa using h.latest⟩

/-- A push keeps the manifest backed when its segment is. -/
lemma push (h : Backed ev acked m) {e : ManifestSegment} {b : Bytes} (window : ℕ)
    (hb : (e.seq, b) ∈ acked) (hsha : ev.sha256Hex b = e.checksum) :
    Backed ev acked (m.push e window) where
  segments x hx := by
    rcases Manifest.mem_segments_push hx with rfl | hx
    · exact ⟨b, hb, hsha⟩
    · exact h.segments x hx
  latest := by
    rw [Manifest.latestSeq_push]
    refine Or.inr ?_
    rcases le_total m.latestSeq e.seq with hle | hle
    · rw [max_eq_right hle]
      exact ⟨b, hb⟩
    · rw [max_eq_left hle]
      rcases h.latest with ⟨-, h0⟩ | h1
      · have he : e.seq = m.latestSeq := by omega
        exact ⟨b, he ▸ hb⟩
      · exact h1

lemma fresh (hs : m.segments = []) (hl : m.latestSeq = 0) : Backed ev acked m :=
  ⟨by simp [hs], Or.inl ⟨hs, hl⟩⟩

/-- A manifest taken over is backed as the stored one was. -/
lemma seeded {stored : Option Manifest} {reads : ResumeReads}
    (hst : ∀ x ∈ stored, Backed ev acked x) (hm : Seeds ev (continued ev stored reads) m) :
    Backed ev acked m := by
  cases hc : continued ev stored reads with
  | none =>
      rw [hc] at hm
      exact .fresh hm.segments hm.latestSeq
  | some x =>
      rw [hc] at hm
      have hx : x ∈ stored := by
        rw [continued] at hc
        split at hc
        · exact (Option.filter_eq_some_iff.mp hc).1
        · exact absurd hc (by simp)
      have hb := hst x hx
      exact ⟨by rw [hm.segments]; exact hb.segments, by
        rw [hm.segments, hm.latestSeq]
        exact hb.latest⟩

end Backed

/-- Without a session. -/
structure BackedDead (ev : Event) (d : Option Folder) (md : Media) (h : History) : Prop where
  sidecars : ∀ s m, sidecar d s = some m → m.checksum ≠ ""
  stored : ∀ s b, (s, b) ∈ h.acked → (md.segment s).isSome = true
  store : ∀ m ∈ md.manifest, Backed ev h.acked m

/-- With a session: also every version of the manifest, and what the primary has
sent. -/
structure BackedUp (ev : Event) (d : Option Folder) (md : Media) (h : History) (c : Core) : Prop where
  sidecars : ∀ s m, sidecar d s = some m → m.checksum ≠ ""
  stored : ∀ s b, (s, b) ∈ h.acked → (md.segment s).isSome = true
  versions : Versions (Backed ev h.acked) c md
  hands : ∀ t seg, (c.hand t).segment = some seg → seg.checksum ≠ ""
  sent : ∀ seg, c.up.sent = some seg → ev.sha256Hex seg.data = seg.checksum
  done : ∀ seg, c.up.done = some seg → (seg.seq, seg.data) ∈ h.acked

lemma BackedUp.dead {ev : Event} {d : Option Folder} {md : Media} {h : History} {c : Core}
    (hu : BackedUp ev d md h c) : BackedDead ev d md h :=
  ⟨hu.sidecars, hu.stored, hu.versions.store⟩

lemma checksums_applyWrites {d : Option Folder} {ws : List Write}
    (hd : ∀ s m, sidecar d s = some m → m.checksum ≠ "")
    (hws : ∀ s m, .sidecar s m ∈ ws → m.checksum ≠ "") (s : ℕ) (m : Sidecar)
    (h : sidecar (applyWrites ws d) s = some m) : m.checksum ≠ "" := by
  rcases sidecar_applyWrites h with h | h
  · exact hd s m h
  · exact hws s m h

section

variable {ev : Event} {d : Option Folder} {md md' : Media} {h h' h'' : History} {c c' : Core}
  {a : Action} {ws : List Write}

lemma Move.checksums (mv : Move ev d md h c a c' md' h' ws) (s : ℕ) (m : Sidecar)
    (hm : .sidecar s m ∈ ws) : m.checksum ≠ "" := by
  obtain ⟨-, -, b, hb⟩ := mv.sidecar_mem hm
  rw [hb]
  exact ev.sha256Hex_ne b

/-- What is acknowledged is stored, and the bucket keeps it. -/
lemma Move.stored (mv : Move ev d md h c a c' md' h' ws)
    (hs : ∀ s b, (s, b) ∈ h.acked → (md.segment s).isSome = true) (s : ℕ) (b : Bytes)
    (hb : (s, b) ∈ h'.acked) : (md'.segment s).isSome = true := by
  cases mv with
  | @put seg n hpc =>
      show (Function.update md.segment seg.seq (some seg.data) s).isSome = true
      rw [Function.update_apply]
      split
      · rfl
      · rename_i hne
        rcases List.mem_append.mp hb with hb | hb
        · exact hs s b hb
        · exact absurd (Prod.mk.inj (List.mem_singleton.mp hb)).1 hne
  | _ => exact hs s b hb

/-- **What a move keeps.** -/
lemma BackedUp.move (hu : BackedUp ev d md h c) (mv : Move ev d md h c a c' md' h' ws)
    (hf : Follows h' ws h'') : BackedUp ev (applyWrites ws d) md' h'' c' := by
  have hnew : Backed ev h'.acked c'.manifest := by
    have hold := hu.versions.manifest.mono mv.acked_subset
    rcases mv.manifest_cases with he | ⟨now, he⟩ | ⟨seg, window, now, hpc, he⟩ | ⟨v, -, he⟩ |
      ⟨v, rest, -, he⟩ <;> rw [he]
    · exact hold
    · exact ⟨hold.segments, hold.latest⟩
    · -- the segment in hand was acknowledged, and passed the damage check
      have hacked := mv.acked_subset (hu.done seg (by rw [hpc]; rfl))
      have hsha := hu.sent seg (by rw [hpc]; rfl)
      have hpush : Backed ev h'.acked (c.manifest.push (listing c seg) window) :=
        hold.push window hacked hsha
      exact ⟨hpush.segments, hpush.latest⟩
    · exact hold.addGap v
    · exact hold.addGap v
  rw [← hf.acked] at hnew
  have hsub : h.acked ⊆ h''.acked := hf.acked ▸ mv.acked_subset
  refine ⟨checksums_applyWrites hu.sidecars mv.checksums, fun s b hb => ?_,
    mv.versions (hu.versions.mono fun m hm => hm.mono hsub) hnew, fun t seg hs => ?_,
    fun seg hs => ?_, fun seg hs => ?_⟩
  · exact mv.stored hu.stored s b (hf.acked ▸ hb)
  · rcases mv.hand hs with hold | hp
    · exact hu.hands t seg hold
    · obtain ⟨m, hm, hck, -⟩ := hp.sidecar
      rw [hck]
      exact hu.sidecars _ _ hm
  · rcases mv.sent hs with hold | ⟨n, hpc, hok, -⟩
    · exact hu.sent seg hold
    · have hck := hu.hands .primary seg (by rw [Core.hand, hpc]; rfl)
      simpa [Event.damaged, hck] using hok
  · rcases mv.done hs with hold | hnew
    · exact hsub (hu.done seg hold)
    · exact hf.acked ▸ hnew

end

lemma Opens.sidecar_notMem {d : Option Folder} {q : SpoolQueue} {ws : List Write} (h : Opens d q ws)
    (s : ℕ) (m : Sidecar) : .sidecar s m ∉ ws :=
  fun hm => absurd (h.addsFile _ hm) (by simp [Write.addsFile])

lemma backed_invariant (ev : Event) (cond : World → Action → Prop) :
    Invariant ev cond (fun _ => True) (BackedDead ev) (BackedUp ev) where
  init := ⟨fun s m hm => absurd hm (by simp), fun s b hb => absurd hb (by simp), fun m hm => absurd hm (Option.not_mem_none m)⟩
  same hs h := ⟨fun s m hm => h.sidecars s m (hs.sidecar s ▸ hm), h.stored, h.store⟩
  sameUp hs h := { h with sidecars := fun s m hm => h.sidecars s m (hs.sidecar s ▸ hm) }
  opens k hd ho hf := by
    refine ⟨checksums_applyWrites hd.sidecars fun s m hm => ?_, ?_, ?_⟩
    · exact absurd (List.mem_of_mem_take hm) (ho.sidecar_notMem s m)
    · rw [hf.acked]
      exact hd.stored
    · rw [hf.acked]
      exact hd.store
  starts k _ := by
    refine ⟨checksums_applyWrites (fun s m hm => absurd hm (by simp)) fun s m hm => ?_,
      fun s b hb => absurd hb (by simp), fun m hm => absurd hm (Option.not_mem_none m)⟩
    exact absurd (List.mem_of_mem_take hm) (by simp [beginWrites])
  startsUp hq hseed := by
    refine ⟨checksums_applyWrites (fun s m hm => absurd hm (by simp)) fun s m hm => ?_,
      fun s b hb => absurd hb (by simp), .begun (.fresh hseed.segments hseed.latestSeq)
        fun m hm => absurd hm (Option.not_mem_none m), ?_, ?_, ?_⟩
    · exact absurd hm (by simp [beginWrites])
    · intro t seg hs
      cases t <;> exact absurd hs (by simp [Core.begun, Core.hand, UploadPc.segment])
    · intro seg hs
      exact absurd hs (by simp [Core.begun, UploadPc.sent])
    · intro seg hs
      exact absurd hs (by simp [Core.begun, UploadPc.done])
  resumes k hd hr := by
    refine ⟨checksums_applyWrites hd.sidecars fun s m hm => ?_, hd.stored, hd.store⟩
    exact absurd (List.mem_of_mem_take hm) (by simp)
  resumesUp := by
    intro w args reads puts now r m _ _ hd hr hseed
    refine ⟨checksums_applyWrites hd.sidecars fun s m hm => absurd hm (by simp), hd.stored,
      .begun (.seeded hd.store hseed) hd.store, ?_, ?_, ?_⟩
    · intro t seg hs
      cases t <;> exact absurd hs (by simp [Core.begun, Core.hand, UploadPc.segment])
    · intro seg hs
      exact absurd hs (by simp [Core.begun, UploadPc.sent])
    · intro seg hs
      exact absurd hs (by simp [Core.begun, UploadPc.done])
  moves _ _ _ hu mv hf := hu.move mv hf
  crash _ _ _ hu := hu.dead
  cuts := by
    intro w p a k e c md h h' _ _ _ _ hws hu mv hf
    have hacked : h'.acked = w.hist.acked := by
      rw [hf.acked]
      generalize e.writes = ws at hws mv
      cases mv <;> first | rfl | exact absurd rfl hws
    refine ⟨checksums_applyWrites hu.sidecars fun s m hm => mv.checksums s m (List.mem_of_mem_take hm),
      ?_, ?_⟩
    · rw [hacked]
      exact hu.stored
    · rw [hacked]
      exact hu.versions.store

/-! ### One number, one segment -/

/-- Without a session: every sidecar, every acknowledged PUT and every stored
object of a number has the checksum taken for it, and no number is above the
recorded `last_enqueued`. -/
structure NumberedDead (ev : Event) (d : Option Folder) (md : Media) (h : History) : Prop where
  sidecars : ∀ s m, sidecar d s = some m → h.taken s = some m.checksum
  acked : ∀ s b, (s, b) ∈ h.acked → h.taken s = some (ev.sha256Hex b)
  store : ∀ s b, md.segment s = some b → h.taken s = some (ev.sha256Hex b)
  last : (recorded d).valid = true → ∀ s x, h.taken s = some x → s ≤ (recorded d).lastEnqueued

/-- With a session: so has what the uploaders hold, and the next number is
new. -/
structure NumberedUp (ev : Event) (d : Option Folder) (md : Media) (h : History) (c : Core) :
    Prop where
  sidecars : ∀ s m, sidecar d s = some m → h.taken s = some m.checksum
  acked : ∀ s b, (s, b) ∈ h.acked → h.taken s = some (ev.sha256Hex b)
  store : ∀ s b, md.segment s = some b → h.taken s = some (ev.sha256Hex b)
  hands : ∀ t seg, (c.hand t).segment = some seg → h.taken seg.seq = some seg.checksum
  last : c.spool.dir.isSome → ∀ s x, h.taken s = some x →
    s ≤ c.spool.state.lastEnqueued ∧ s < c.nextSeq

section

variable {ev : Event} {d : Option Folder} {md md' : Media} {h h' h'' : History} {c c' : Core}
  {a : Action} {ws : List Write}

/-- A checksum taken stays: the next number has none yet. -/
lemma NumberedUp.taken_mono (hu : NumberedUp ev d md h c) (mv : Move ev d md h c a c' md' h' ws)
    {k : ℕ} (hf : Follows h' (ws.take k) h'') {s : ℕ} {x : String} (hs : h.taken s = some x) :
    h''.taken s = some x := by
  rcases mv.taken hf with ⟨htaken, -⟩ | ⟨ck, hdir, -, -, htaken, -, -⟩
  · rw [htaken, hs]
  · have hne : s ≠ c.nextSeq := (hu.last hdir s x hs).2.ne
    rw [htaken, Function.update_of_ne hne, hs]

lemma NumberedUp.sidecars_cut (hu : NumberedUp ev d md h c)
    (mv : Move ev d md h c a c' md' h' ws) {k : ℕ} (hf : Follows h' (ws.take k) h'') (s : ℕ)
    (m : Sidecar) (hm : sidecar (applyWrites (ws.take k) d) s = some m) :
    h''.taken s = some m.checksum := by
  rcases sidecar_applyWrites hm with hold | hnew
  · exact hu.taken_mono mv hf (hu.sidecars s m hold)
  · rcases mv.taken hf with ⟨-, hno⟩ | ⟨ck, -, -, -, htaken, hone, -⟩
    · exact absurd hnew (hno s m)
    · obtain ⟨rfl, rfl⟩ := hone s m hnew
      rw [htaken, Function.update_self]

/-- **What a move keeps.** -/
lemma NumberedUp.move (hu : NumberedUp ev d md h c)
    (hsent : ∀ seg, c.up.sent = some seg → ev.sha256Hex seg.data = seg.checksum)
    (mv : Move ev d md h c a c' md' h' ws) (hf : Follows h' ws h'') :
    NumberedUp ev (applyWrites ws d) md' h'' c' := by
  have hf' : Follows h' (ws.take ws.length) h'' := by rwa [List.take_length]
  have hmono : ∀ {s x}, h.taken s = some x → h''.taken s = some x := hu.taken_mono mv hf'
  have hput : ∀ {seg n}, c.up = .sending seg n →
      h''.taken seg.seq = some (ev.sha256Hex seg.data) := by
    intro seg n hpc
    have h1 := hu.hands .primary seg (by rw [Core.hand, hpc]; rfl)
    rw [hsent seg (by rw [hpc]; rfl)]
    exact hmono h1
  refine ⟨?_, fun s b hb => ?_, fun s b hb => ?_, fun t seg hs => ?_, fun hd s x hs => ?_⟩
  · have := hu.sidecars_cut mv hf'
    rwa [List.take_length] at this
  · rw [hf.acked] at hb
    cases mv with
    | put hpc =>
        rcases List.mem_append.mp hb with hb | hb
        · exact hmono (hu.acked s b hb)
        · obtain ⟨rfl, rfl⟩ := Prod.mk.inj (List.mem_singleton.mp hb)
          exact hput hpc
    | _ => exact hmono (hu.acked s b hb)
  · cases mv with
    | @put seg n hpc =>
        have hb' : Function.update md.segment seg.seq (some seg.data) s = some b := hb
        rw [Function.update_apply] at hb'
        split at hb'
        · rename_i hs
          obtain rfl := Option.some.inj hb'
          rw [hs]
          exact hput hpc
        · exact hmono (hu.store s b hb')
    | _ => exact hmono (hu.store s b hb)
  · rcases mv.hand hs with hold | hp
    · exact hmono (hu.hands t seg hold)
    · obtain ⟨m, hm, hck, -⟩ := hp.sidecar
      rw [hck]
      exact hmono (hu.sidecars _ m hm)
  · obtain ⟨hd', hle, hn⟩ := mv.last_le hd
    rcases mv.taken hf' with ⟨htaken, -⟩ | ⟨ck, -, hlast, hnext, htaken, -, -⟩
    · have := hu.last hd' s x (htaken ▸ hs)
      omega
    · by_cases hsN : s = c.nextSeq
      · omega
      · rw [htaken, Function.update_of_ne hsN] at hs
        have := hu.last hd' s x hs
        omega

/-- What is recorded when no sidecar stands above it. -/
lemma Linked.last_le {q : SpoolQueue} {next : ℕ} (hl : Linked d q next)
    (hloose : looseMeta d = false) : q.state.lastEnqueued ≤ (recorded d).lastEnqueued := by
  rcases hl.last with hl | hl
  · exact hl.ge
  · exact le_recorded_of_sidecar hloose hl.2

/-- The same after a crash inside a move. -/
lemma LinkedUp.last_cut (hl : LinkedUp d c) (mv : Move ev d md h c a c' md' h' ws) (hws : ws ≠ [])
    {k : ℕ} (hv : (recorded (cutWrites k ws d)).valid = true)
    (hloose : looseMeta (cutWrites k ws d) = false) :
    c.spool.dir.isSome ∧
      c.spool.state.lastEnqueued ≤ (recorded (cutWrites k ws d)).lastEnqueued := by
  -- a crash before the first write is a crash between two moves
  rcases Nat.eq_zero_or_pos k with rfl | hk
  · have hcut : cutWrites 0 ws d = d := rfl
    rw [hcut] at hv hloose ⊢
    have hdir : c.spool.dir.isSome := by
      by_contra hn
      rw [hl.noFolder (Option.not_isSome_iff_eq_none.mp hn)] at hv
      exact absurd hv (by simp)
    exact ⟨hdir, (hl.linked hdir).last_le hloose⟩
  have hconf : ∀ {t now seq}, c.hand t ≠ .idle →
      c.spool.dir.isSome ∧ c.spool.state.lastEnqueued ≤
        (recorded (cutWrites k (c.spool.confirm now d seq t).2 d)).lastEnqueued := by
    intro t now seq ht
    have hdir := hl.dir_of_hand ht
    have hlink := hl.linked hdir
    refine ⟨hdir, ?_⟩
    rw [SpoolQueue.recorded_confirm hdir hlink.disk hlink.valid hk]
    simp
  have hpub : ∀ {seg e vs} i, seg.seq = c.nextSeq → c.spool.Enqueues ev.sha256Hex d seg e vs →
      looseMeta (cutWrites i e.writes d) = false →
      c.spool.dir.isSome ∧
        c.spool.state.lastEnqueued ≤ (recorded (cutWrites i e.writes d)).lastEnqueued := by
    intro seg e vs i hseq hs hloose
    have hlink := hl.linked hs.dir
    refine ⟨hs.dir, ?_⟩
    by_cases hlen : i < e.writes.length
    · by_cases h2 : 2 ≤ i
      · have := le_recorded_of_sidecar hloose (hs.readable_new hlink.disk h2).2
        have hmax := hlink.last_max
        omega
      · have hrec := hs.recorded_cut hlen
        rcases hlink.last with hlast | hlast
        · rw [hrec]
          exact hlast.ge
        · exact le_recorded_of_sidecar hloose (hs.sidecar_cut_of (by omega) hlast.2)
    · rw [cutWrites, Lib.cut_of_length_le _ (not_lt.mp hlen), hs.recorded_all hlink.disk hlink.valid,
        hs.last]
      exact le_max_left _ _
  cases mv with
  | @confirm t _ _ hpc =>
      refine hconf fun hidle => ?_
      rw [hidle] at hpc
      cases t <;> exact absurd hpc (by simp [UploadPc.Confirms])
  | skip _ hpc => exact hconf (by simp [hpc])
  | @mark b =>
      by_cases hdir : c.spool.dir.isSome
      · have hlink := hl.linked hdir
        have hw : (c.spool.markEnded b).2 = [.state (c.spool.markEnded b).1.state] := if_pos hdir
        rw [hw, cutWrites, Lib.cut_of_length_le _ hk, Lib.applyAll_cons,
          Lib.applyAll_nil, recorded_apply_state hlink.disk]
        exact ⟨hdir, le_rfl⟩
      · exact absurd (if_neg (by simpa using hdir)) hws
  | remove _ _ =>
      rw [SpoolQueue.removeIfDone] at hv hws
      split at hv
      · rename_i hn
        rw [if_pos hn] at hws
        exact absurd rfl hws
      · rw [cutWrites, Lib.cut_of_length_le _ hk] at hv
        exact absurd hv (by simp [Write.apply])
  | publish _ he =>
      obtain ⟨vs, hs⟩ := SpoolQueue.enqueue_spec he
      exact hpub k rfl hs hloose
  | @fault _ _ _ _ j e _ _ he _ =>
      obtain ⟨vs, hs⟩ := SpoolQueue.enqueue_spec he
      have hcut : cutWrites k (e.writes.take j) d = cutWrites (min k j) e.writes d := by
        rw [cutWrites, Lib.cut, List.take_take]
        rfl
      rw [hcut] at hloose ⊢
      exact hpub _ rfl hs hloose
  | _ => exact absurd rfl hws

/-- A crash between two moves. -/
lemma NumberedUp.crash (hu : NumberedUp ev d md h c) (hl : LinkedUp d c)
    (hloose : looseMeta d = false) : NumberedDead ev d md h := by
  refine ⟨hu.sidecars, hu.acked, hu.store, fun hv s x hs => ?_⟩
  have hdir : c.spool.dir.isSome := by
    by_contra hn
    rw [hl.noFolder (Option.not_isSome_iff_eq_none.mp hn)] at hv
    exact absurd hv (by simp)
  exact (hu.last hdir s x hs).1.trans ((hl.linked hdir).last_le hloose)

/-- A crash inside a move. -/
lemma NumberedUp.cut (hu : NumberedUp ev d md h c) (hl : LinkedUp d c)
    (mv : Move ev d md h c a c' md' h' ws) (hws : ws ≠ []) {k : ℕ} (hf : Follows h' (ws.take k) h'')
    (hloose : looseMeta (cutWrites k ws d) = false) : NumberedDead ev (cutWrites k ws d) md h'' := by
  have hacked : h''.acked = h.acked := by
    rw [hf.acked]
    cases mv <;> first | rfl | exact absurd rfl hws
  refine ⟨hu.sidecars_cut mv hf, fun s b hb => ?_, fun s b hb => ?_, fun hv s x hs => ?_⟩
  · exact hu.taken_mono mv hf (hu.acked s b (hacked ▸ hb))
  · exact hu.taken_mono mv hf (hu.store s b hb)
  · obtain ⟨hdir, hlast⟩ := hl.last_cut mv hws hv hloose
    rcases mv.taken hf with ⟨htaken, -⟩ | ⟨ck, -, -, -, htaken, -, hread⟩
    · exact (hu.last hdir s x (htaken ▸ hs)).1.trans hlast
    · by_cases hsN : s = c.nextSeq
      · rw [hsN]
        exact le_recorded_of_sidecar hloose (hread (hl.linked hdir).disk).2
      · rw [htaken, Function.update_of_ne hsN] at hs
        exact (hu.last hdir s x hs).1.trans hlast

end

/-- A folder whose sidecars and recorded number are the old ones. -/
lemma NumberedDead.of_disk {ev : Event} {d d' : Option Folder} {md : Media} {h h' : History}
    (hd : NumberedDead ev d md h) (hside : ∀ s m, sidecar d' s = some m → sidecar d s = some m)
    (hv : (recorded d').valid = (recorded d).valid)
    (hlast : (recorded d').lastEnqueued = (recorded d).lastEnqueued)
    (htaken : h'.taken = h.taken) (hacked : h'.acked = h.acked) : NumberedDead ev d' md h' where
  sidecars s m hm := htaken ▸ hd.sidecars s m (hside s m hm)
  acked s b hb := htaken ▸ hd.acked s b (hacked ▸ hb)
  store s b hb := htaken ▸ hd.store s b hb
  last h1 s x hs := hlast ▸ hd.last (hv ▸ h1) s x (htaken ▸ hs)

/-- A session that goes on from the recorded number takes a new one. -/
lemma NumberedUp.begun {ev : Event} {d : Option Folder} {md : Media} {h : History} {q : SpoolQueue}
    {n : ℕ} {m : Manifest} (hd : NumberedDead ev d md h) (hv : (recorded d).valid = true)
    (hlast : (recorded d).lastEnqueued = q.state.lastEnqueued)
    (hn : ∀ s x, h.taken s = some x → s < n) : NumberedUp ev d md h (Core.begun q n m) where
  sidecars := hd.sidecars
  acked := hd.acked
  store := hd.store
  hands t seg hs := by
    cases t <;> exact absurd hs (by simp [Core.begun, Core.hand, UploadPc.segment])
  last _ s x hs := ⟨hlast ▸ hd.last hv s x hs, hn s x hs⟩

lemma NumberedDead.empty (ev : Event) {d : Option Folder} (hside : ∀ s, sidecar d s = none) :
    NumberedDead ev d (Store.empty.media ev) {} where
  sidecars s m hm := absurd hm (by simp [hside])
  acked s b hb := absurd hb (by simp)
  store s b hb := absurd hb (Option.not_mem_none b)
  last _ s x hs := absurd hs (by simp)

/-- Every run that keeps its numbers keeps one segment to a number. -/
lemma numbered_invariant (ev : Event) :
    Invariant ev (fun w a => keepsNumbers ev w a = true)
      (fun w => ∀ p, w.machine = .up p →
        LinkedUp w.disk p.core ∧ BackedUp ev w.disk (w.store.media ev) w.hist p.core)
      (NumberedDead ev) (NumberedUp ev) where
  init := .empty ev fun _ => rfl
  same hs h := h.of_disk (fun s m hm => hs.sidecar s ▸ hm) (by rw [hs.recorded])
    (by rw [hs.recorded]) rfl rfl
  sameUp hs h := { h with sidecars := fun s m hm => h.sidecars s m (hs.sidecar s ▸ hm) }
  opens k hd ho hf := by
    obtain ⟨n, hrec⟩ := ho.recorded_cut k
    refine hd.of_disk (fun s m hm => ?_) (by rw [hrec]) (by rw [hrec]) ?_ hf.acked
    · rcases sidecar_applyWrites hm with h | h
      · exact h
      · exact absurd (List.mem_of_mem_take h) (ho.sidecar_notMem s m)
    · rw [hf.taken, History.wrote_of_addsFile fun x hx => ho.addsFile x (List.mem_of_mem_take hx)]
  starts k _ := .empty ev (sidecar_beginWrites _ k)
  startsUp hq _ := by
    refine .begun (.empty ev fun s => sidecar_beginWrites _ 3 s) rfl rfl ?_
    exact fun s x hs => absurd hs (by simp)
  resumes k hd hr := by
    obtain ⟨b, now, hrec⟩ := hr.recorded_cut k
    refine hd.of_disk (fun s m hm => ?_) (by rw [hrec]) (by rw [hrec]) rfl rfl
    rcases sidecar_applyWrites hm with h | h
    · exact h
    · exact absurd (List.mem_of_mem_take h) (by simp)
  resumesUp := by
    intro w args reads puts now r m _ _ hd hr _
    obtain ⟨b, now', hrec⟩ := hr.recorded_cut 1
    have hrec' : recorded (applyWrites [.state r.state] w.disk) =
        { recorded w.disk with ended := b, lastActivityMs := now' } := hrec
    obtain ⟨now'', hst⟩ := hr.state
    have hd' : NumberedDead ev (applyWrites [.state r.state] w.disk) (w.store.media ev) w.hist := by
      refine hd.of_disk (fun s m hm => ?_) (by rw [hrec']) (by rw [hrec']) rfl rfl
      rcases sidecar_applyWrites hm with h | h
      · exact h
      · exact absurd h (by simp)
    refine .begun hd' (by rw [hrec']; exact hr.valid) (by rw [hrec', hst]) fun s x hs => ?_
    exact Nat.lt_succ_of_le (hd.last hr.valid s x hs)
  moves hB hm _ hu mv hf := hu.move (hB _ hm).2.sent mv hf
  crash := by
    intro w p hB hm hc hu
    exact hu.crash (hB p hm).1 (by simpa [keepsNumbers] using hc)
  cuts := by
    intro w p a k e c md h h' hB hm hc he hws hu mv hf
    exact hu.cut (hB p hm).1 mv hws hf (by simpa [keepsNumbers, he] using hc)

/-! ### The result -/

/-- Every version of the manifest is backed, in every run. -/
lemma backed_of_reach {ev : Event} {cond : World → Action → Prop} {w : World}
    (h : Lib.Reach (step ev) cond Fresh w) :
    Holds ev (BackedDead ev) (BackedUp ev) w :=
  (backed_invariant ev cond).reach (fun _ => trivial) h

lemma Holds.backed {ev : Event} {w : World} (h : Holds ev (BackedDead ev) (BackedUp ev) w) :
    BackedDead ev w.disk (w.store.media ev) w.hist ∧
      ∀ m, w.Published ev m → Backed ev w.hist.acked m := by
  by_cases hup : ∃ p, w.machine = .up p
  · obtain ⟨p, hm⟩ := hup
    have hu := (Holds.of_up hm).mp h
    refine ⟨hu.dead, ?_⟩
    rintro m (hfl | hst)
    · rw [World.inFlight, hm] at hfl
      exact hu.versions.inFlight m hfl
    · exact hu.versions.store m hst
  · have hd := (Holds.of_not_up fun p hp => hup ⟨p, hp⟩).mp h
    refine ⟨hd, ?_⟩
    rintro m (hfl | hst)
    · rw [World.inFlight] at hfl
      split at hfl
      · rename_i p hm
        exact absurd ⟨p, hm⟩ hup
      · exact absurd hfl (by simp)
    · exact hd.store m hst

lemma Holds.numbered {ev : Event} {w : World} (h : Holds ev (NumberedDead ev) (NumberedUp ev) w) :
    (∀ s b, (s, b) ∈ w.hist.acked → w.hist.taken s = some (ev.sha256Hex b)) ∧
      ∀ s b, w.store.segment ev.id s = some b → w.hist.taken s = some (ev.sha256Hex b) := by
  rw [Holds] at h
  split at h
  · exact ⟨h.acked, h.store⟩
  · exact ⟨h.acked, h.store⟩

/-- **No dangling reference.**  In every run, what a published manifest lists
rests on acknowledged PUTs of bytes with the listed checksums; and in a run that
keeps its numbers, the bucket holds those bytes. -/
theorem manifest_refs_stored (ev : Event) :
    (∀ w, Reached ev w → ∀ m, w.Published ev m → Backed ev w.hist.acked m) ∧
      ∀ w, ReachedBy ev (keepsNumbers ev) w → ∀ m, w.Published ev m → ListsStored ev w.store m := by
  refine ⟨fun w h m hm => (backed_of_reach h).backed.2 m hm, fun w h m hm => ?_⟩
  obtain ⟨hdead, hback⟩ := (backed_of_reach h).backed
  have hnum := ((numbered_invariant ev).reach (fun h p hp =>
    ⟨linked_of_reach h hp, (Holds.of_up hp).mp (backed_of_reach h)⟩) h).numbered
  have hb := hback m hm
  constructor
  · intro e he
    obtain ⟨b, hacked, hsha⟩ := hb.segments e he
    obtain ⟨b', hb'⟩ := Option.isSome_iff_exists.mp (hdead.stored e.seq b hacked)
    have hst : w.store.segment ev.id e.seq = some b' := hb'
    -- both have the checksum taken for the number
    have hsame := (hnum.2 e.seq b' hst).symm.trans (hnum.1 e.seq b hacked)
    simp [hst, Option.some.inj hsame, hsha]
  · exact hb.latest.imp_right fun ⟨b, hacked⟩ => hdead.stored _ b hacked

/-- One segment uploaded, listed and published. -/
def listedInOrder : List Action :=
  goLive ++ [Action.publishSegment [1] 6 0 1 none] ++ uploadOne ++
    [Action.dequeueManifest, .putManifest true]

theorem manifest_refs_stored_inOrder :
    ∃ (w : World) (m : Manifest), w.Published sampleEvent m ∧ m.segments ≠ [] ∧ ListsStored sampleEvent w.store m := by
  obtain ⟨w, hw, hm⟩ : ∃ w, ReachedBy sampleEvent (keepsNumbers sampleEvent) w ∧
      ((w.store.manifest sampleEvent.id).any fun m => !m.segments.isEmpty) = true :=
    Lib.exists_reach_guarded {} listedInOrder rfl (by decide +kernel)
  rw [Option.any_eq_true] at hm
  obtain ⟨m, hm, hne⟩ := hm
  exact ⟨w, m, Or.inr hm, by simpa using hne, (manifest_refs_stored sampleEvent).2 w hw m (Or.inr hm)⟩

/-- Number 1 given twice.  A crash between the sidecar and the state leaves bytes
`[2]` at number 1, which the next session uploads and lists; `publish_segment`
gives the number to `[3]`, and after a second crash these are uploaded while the
first manifest of the third session, which still lists `[2]`, is under way. -/
def numberReused : List Action :=
  goLive ++ [Action.publishSegment [1] 6 0 1 none, .crashIn (.publishSegment [2] 6 6 2 none) 2,
    .openSession {}, .resume {} {} {} 3, .dequeueManifest, .putManifest true, .flushBegin,
    .publishLive true 3] ++ uploadOne ++
    [Action.peek .primary, .mayUpload .primary, .checkFloor .primary, .putSegment .primary .ok,
      .onConfirmed 4, .dequeueManifest, .putManifest true, .publishSegment [3] 6 12 5 none, .crash,
      .openSession {}, .resume {} {} {} 6, .dequeueManifest, .flushBegin, .publishLive true 6,
      .peek .primary, .mayUpload .primary, .checkFloor .primary, .putSegment .primary .ok,
      .putManifest true]

/-- The manifest then stored lists the checksum of bytes that are gone. -/
theorem listsOther :
    ∃ w m, Reached sampleEvent w ∧ w.Published sampleEvent m ∧
      ¬ListsStored sampleEvent w.store m := by
  obtain ⟨w, hw, hm⟩ : ∃ w, Reached sampleEvent w ∧
      ((w.store.manifest sampleEvent.id).any fun m =>
        !decide (ListsStored sampleEvent w.store m)) = true :=
    Lib.exists_reach {} numberReused rfl (by decide +kernel)
  rw [Option.any_eq_true] at hm
  obtain ⟨m, hm, hnot⟩ := hm
  exact ⟨w, m, hw, Or.inr hm, by simpa using hnot⟩

end Multisite

import Multisite.Session.Pointer
import Multisite.Session.Puts
import Multisite.Session.References

/-!
The event's record in the bucket across a `resume`.

`resume` reads `init.mp4`, `event.json` and `manifest.json` back.  It gives up when
the first cannot be read; the other two count as absent unless they are answered, so
that a failed read makes it write the event anew.

* `Continues`: one manifest goes on from another;
* `record_forgotten`: a run in which a failed read costs the event its manifest;
* `record_kept`: where `event.json` and `manifest.json` are answered whenever they
  are stored, every manifest published later continues the one stored.
-/

namespace Multisite

/-! ### Manifests that go on from one another -/

namespace Manifest

/-- The numbers of the window. -/
def seqs (m : Manifest) : List ℕ := m.segments.map (·.seq)

/-- `m` goes on from `m₀`: it is of the same event and start, reaches back as far and
has all its gaps; its window is made of what `m₀` listed and what was listed since,
less what is older than the last `W` of them. -/
structure Continues (W : ℕ) (m₀ m : Manifest) : Prop where
  eventId : m.eventId = m₀.eventId
  startedAtMs : m.startedAtMs = m₀.startedAtMs
  firstAvailableSeq : m.firstAvailableSeq ≤ m₀.firstAvailableSeq
  gaps : ∀ s, m₀.InGaps s → m.InGaps s
  window : ∃ news, m.seqs <:+ m₀.seqs ++ news ∧ min W (m₀.seqs ++ news).length ≤ m.seqs.length

variable {W : ℕ} {m m₀ m₁ m₂ : Manifest}

/-- A manifest with another status and time. -/
lemma Continues.of_eq (hid : m.eventId = m₀.eventId) (hstart : m.startedAtMs = m₀.startedAtMs)
    (hfirst : m.firstAvailableSeq = m₀.firstAvailableSeq) (hgaps : m.gaps = m₀.gaps)
    (hseqs : m.seqs = m₀.seqs) : Continues W m₀ m where
  eventId := hid
  startedAtMs := hstart
  firstAvailableSeq := hfirst.le
  gaps s hs := by
    rw [InGaps, hgaps]
    exact hs
  window := ⟨[], by rw [hseqs, List.append_nil], by rw [hseqs, List.append_nil]; exact min_le_right _ _⟩

lemma Continues.refl (W : ℕ) (m : Manifest) : Continues W m m := .of_eq rfl rfl rfl rfl rfl

lemma Continues.trans (h₁ : Continues W m₀ m₁) (h₂ : Continues W m₁ m₂) : Continues W m₀ m₂ where
  eventId := h₂.eventId.trans h₁.eventId
  startedAtMs := h₂.startedAtMs.trans h₁.startedAtMs
  firstAvailableSeq := h₂.firstAvailableSeq.trans h₁.firstAvailableSeq
  gaps s hs := h₂.gaps s (h₁.gaps s hs)
  window := by
    obtain ⟨n₁, hsub₁, hlen₁⟩ := h₁.window
    obtain ⟨n₂, hsub₂, hlen₂⟩ := h₂.window
    refine ⟨n₁ ++ n₂, ?_, ?_⟩
    · obtain ⟨old, hold⟩ := hsub₁
      calc m₂.seqs <:+ m₁.seqs ++ n₂ := hsub₂
        _ <:+ old ++ (m₁.seqs ++ n₂) := List.suffix_append _ _
        _ = m₀.seqs ++ (n₁ ++ n₂) := by rw [← List.append_assoc, hold, List.append_assoc]
    · simp only [List.length_append] at hlen₁ hlen₂ ⊢
      omega

/-- A listed segment is refreshed where it stands. -/
lemma map_seq_replaceF (l : List ManifestSegment) (s : ManifestSegment) :
    (l.replaceF fun e => if e.seq = s.seq then some s else none).map (·.seq) = l.map (·.seq) := by
  induction l with
  | nil => rfl
  | cons x l ih =>
      rw [List.replaceF_cons]
      by_cases hx : x.seq = s.seq
      · rw [if_pos hx, List.map_cons, List.map_cons, hx]
      · rw [if_neg hx, List.map_cons, List.map_cons, ih]

/-- Listing a segment pushes out what the window no longer holds, and no more. -/
lemma continues_push (m : Manifest) (s : ManifestSegment) {window : ℕ} (h : W ≤ window) :
    Continues W m (m.push s window) := by
  rw [push]
  split
  · exact .of_eq rfl rfl rfl rfl (map_seq_replaceF m.segments s)
  · refine ⟨rfl, rfl, le_rfl, fun _ hs => hs, [s.seq], ?_, ?_⟩
    · rw [seqs, List.map_drop, List.map_append]
      exact List.drop_suffix _ _
    · simp only [seqs, List.length_append, List.length_map, List.length_drop, List.length_singleton]
      omega

lemma continues_addGap (m : Manifest) (s : ℕ) : Continues W m (m.addGap s) where
  eventId := eventId_addGap m s
  startedAtMs := startedAtMs_addGap m s
  firstAvailableSeq := (firstAvailableSeq_addGap m s).le
  gaps x hx := (inGaps_addGap m s x).mpr (Or.inr hx)
  window := ⟨[], by simp [seqs], by simp [seqs]⟩

end Manifest

/-! ### The condition -/

/-- `event.json` and `manifest.json` are answered whenever they are stored.  `W` is a
bound on the windows of the sessions resumed. -/
def answersRecord (ev : Event) (W : ℕ) (w : World) : Action → Bool
  | .resume _ r _ _ =>
      (r.event || (w.store.event ev.id).isNone) && (r.manifest || (w.store.manifest ev.id).isNone) &&
        match w.machine with
        | .opened cfg _ => decide (W ≤ cfg.manifestWindow)
        | _ => true
  | _ => true

variable {ev : Event} {W : ℕ} {w w' : World} {a : Action} {e : Effect} {m₀ : Manifest}

/-! ### The stored documents -/

section Moving

variable {d : Option Folder} {md md' : Media} {h h' : History} {c c' : Core} {ws : List Write}

/-- What is not the listing of a segment changes gaps, status and time only. -/
lemma Move.continues (mv : Move ev d md h c a c' md' h' ws) (hlist : ∀ now, a ≠ .onConfirmed now) :
    c.manifest.Continues W c'.manifest := by
  cases mv with
  | list _ _ => exact absurd rfl (hlist _)
  | skipped _ => exact Manifest.continues_addGap _ _
  | dropped _ => exact Manifest.continues_addGap _ _
  | ended hm => exact .of_eq (by rw [hm]) (by rw [hm]) (by rw [hm]) (by rw [hm]) (by rw [hm]; rfl)
  | _ => simpa using Manifest.Continues.refl W c.manifest

/-- A stored manifest is replaced, never removed. -/
lemma Move.manifest_isSome (mv : Move ev d md h c a c' md' h' ws) (hm : md.manifest.isSome) :
    md'.manifest.isSome := by
  cases mv <;> first | exact hm | rfl

end Moving

/-- A session lists its segments in a window of its own size. -/
lemma plan_continues {p p' : Proc} (hc : Calm p)
    (hk : ∀ seg n, p.up.pc = .sending seg n → seg.key = .segment ev.id seg.seq)
    (hW : W ≤ p.cfg.manifestWindow) (he : p.plan ev w a = some e) (hp' : e.machine = .up p') :
    p.manifest.Continues W p'.manifest := by
  by_cases hlist : ∃ now, a = .onConfirmed now
  · obtain ⟨now, rfl⟩ := hlist
    simp only [Proc.plan] at he
    split at he
    · rename_i seg _
      obtain rfl := Option.some.inj he
      obtain rfl := Machine.up.inj hp'
      refine (Manifest.continues_push p.manifest (listing p.core seg) hW).trans ?_
      exact .of_eq rfl rfl rfl rfl rfl
    · exact absurd he (by simp)
  · obtain ⟨r, hr, -, -, mv⟩ := plan_moves hc hk he
    obtain rfl := Machine.up.inj (hp'.symm.trans hr)
    exact mv.continues fun now h => hlist ⟨now, h⟩

/-- The record of `w₀`, along a run. -/
structure GoesOn (ev : Event) (W : ℕ) (m₀ : Manifest) (w : World) : Prop where
  sound : Sound ev w
  begun : w.begun = true
  id : m₀.eventId = ev.id
  isSome : (w.store.manifest ev.id).isSome = true
  stored : ∀ m, w.store.manifest ev.id = some m → m₀.Continues W m
  window : ∀ p, w.machine = .up p → W ≤ p.cfg.manifestWindow
  versions : ∀ p, w.machine = .up p → Versions (m₀.Continues W) p.core (w.store.media ev)

/-- Without a session, the bucket is all there is. -/
lemma GoesOn.down (h : GoesOn ev W m₀ w) (hs : Sound ev w') (hb : w'.begun = true)
    (hst : w'.store.manifest ev.id = w.store.manifest ev.id) (hm : ∀ p, w'.machine ≠ .up p) :
    GoesOn ev W m₀ w' where
  sound := hs
  begun := hb
  id := h.id
  isSome := hst ▸ h.isSome
  stored := hst ▸ h.stored
  window p hp := absurd hp (hm p)
  versions p hp := absurd hp (hm p)

/-- An action of a session. -/
lemma GoesOn.plan {p : Proc} (h : GoesOn ev W m₀ w) (hm : w.machine = .up p)
    (hs : Sound ev (w.after e)) (he : p.plan ev w a = some e) : GoesOn ev W m₀ (w.after e) := by
  have hk : ∀ seg n, p.up.pc = .sending seg n → seg.key = .segment ev.id seg.seq := by
    intro seg n hpc
    exact h.sound.hands p .primary seg hm (by simp [Proc.core, Core.hand, hpc, UploadPc.segment])
  obtain ⟨p', hp', hb, -, mv⟩ := plan_moves (h.sound.calm p hm) hk he
  obtain ⟨r, hr, hf⟩ := plan_forward he
  obtain rfl := Machine.up.inj (hp'.symm.trans hr)
  have hW := h.window p hm
  have hup : ∀ q, (w.after e).machine = .up q → q = p' := fun q hq =>
    (Machine.up.inj (hp'.symm.trans hq)).symm
  have hnew : m₀.Continues W p'.core.manifest :=
    (h.versions p hm).manifest.trans (plan_continues (h.sound.calm p hm) hk hW he hp')
  have hvers := mv.versions (h.versions p hm) hnew
  refine ⟨hs, ?_, h.id, mv.manifest_isSome h.isSome, hvers.store, fun q hq => ?_, fun q hq => ?_⟩
  · simp [World.after, h.begun]
  · rw [hup q hq, hf.cfg]
    exact hW
  · rw [hup q hq]
    exact hvers

lemma continues_seed {cfg : SessionConfig} {args : StartArgs} {c : Continuing} {i : EventInfo}
    {now : ℤ} {m : Manifest} (hm : c.manifest = some m) :
    m.Continues W (seedManifest ev cfg args c i now) := by
  rw [seedManifest, hm]
  exact .of_eq rfl rfl rfl rfl rfl

@[simp] lemma manifestWindow_named (cfg : SessionConfig) (c : Continuing) :
    (cfg.named c).manifestWindow = cfg.manifestWindow := by
  unfold SessionConfig.named
  split
  · split <;> rfl
  · rfl

/-- A session that is resumed goes on from the stored manifest. -/
lemma GoesOn.resume {p : Proc} {args : StartArgs} {r : ResumeReads} {puts : BeginPuts} {now : ℤ}
    (h : GoesOn ev W m₀ w) (hc : answersRecord ev W w (.resume args r puts now) = true)
    (he : w.plan ev (.resume args r puts now) = some e) (hp : e.machine = .up p) :
    W ≤ p.cfg.manifestWindow ∧ m₀.Continues W p.manifest ∧ p.core.pending = some p.manifest ∧
      p.core.inFlight = none := by
  cases hm : w.machine with
  | opened cfg q =>
      simp only [World.plan, hm] at he
      split at he
      · split at he
        · rename_i c q' hread _
          obtain rfl := Option.some.inj he
          obtain rfl := beginCommon_up hp
          simp only [answersRecord, hm, Bool.and_eq_true, Bool.or_eq_true,
            Option.isNone_iff_eq_none, decide_eq_true_eq] at hc
          obtain ⟨m, hst⟩ := Option.isSome_iff_exists.mp h.isSome
          have hr : r.manifest = true := by
            rcases hc.1.2 with hr | hr
            · exact hr
            · exact absurd (hst.symm.trans hr) (by simp)
          have hcont := h.stored m hst
          have hcm : c.manifest = some m := by
            rw [readContinuing_manifest hread, continued, if_pos hr, hst, Option.filter_some, if_pos]
            simp [hcont.eventId, h.id]
          refine ⟨?_, hcont.trans (continues_seed hcm), rfl, rfl⟩
          rw [begunProc, Proc.queueManifest, manifestWindow_named]
          exact hc.2
        · obtain rfl := Option.some.inj he
          exact absurd hp (by simp)
      · exact absurd he (by simp)
  | _ => exact absurd he (by simp [World.plan, hm])

lemma Boots.manifest_eq (h : Boots ev w e a) :
    e.store.manifest ev.id = w.store.manifest ev.id := by
  cases h with
  | opens _ _ _ hst _ _ => rw [hst]
  | starts _ _ _ _ hst _ _ _ => exact congrArg Media.manifest hst
  | refused _ _ hst _ _ => rw [hst]
  | resumes _ _ hst _ _ _ => exact congrArg Media.manifest hst

lemma begun_of_step (hb : w.begun = true) (ht : step ev w a = some w') : w'.begun = true := by
  rcases step_cases ht with ⟨-, -, rfl⟩ | ⟨s, b, -, -, rfl⟩ | ⟨a', n, e, -, -, -, rfl⟩ | ⟨e, he, rfl⟩
  · exact hb
  · exact hb
  · simp [World.cutAfter, hb]
  · simp [World.after, hb]

/-- **One step** keeps it. -/
theorem GoesOn.step (h : GoesOn ev W m₀ w) (hc : answersRecord ev W w a = true)
    (ht : step ev w a = some w') : GoesOn ev W m₀ w' := by
  have hs := h.sound.step ht
  have hb := begun_of_step h.begun ht
  rcases step_cases ht with ⟨-, -, rfl⟩ | ⟨s, b, -, -, rfl⟩ | ⟨a', n, e, -, -, -, rfl⟩ | ⟨e, he, rfl⟩
  · exact h.down hs hb rfl (by simp)
  · exact ⟨hs, hb, h.id, h.isSome, h.stored, h.window, h.versions⟩
  · exact h.down hs hb rfl (by simp [World.cutAfter])
  · rcases h.sound.plan he with ⟨p, hm, -⟩ | ⟨hdown, hboot⟩
    · exact h.plan hm hs (plan_up hm a ▸ he)
    · by_cases hup : ∃ p, e.machine = .up p
      · obtain ⟨p, hp⟩ := hup
        cases hboot with
        | opens _ hq _ _ _ _ => exact absurd (hq.symm.trans hp) (by simp)
        | starts _ hnew _ _ _ _ _ _ => exact absurd (h.begun.symm.trans hnew) (by simp)
        | refused hdown _ _ _ _ => exact absurd (hdown.symm.trans hp) (by simp)
        | resumes _ _ hst _ _ _ =>
            obtain ⟨hW, hcont, hpend, hfl⟩ := h.resume hc he hp
            have hmf := congrArg Media.manifest hst
            have hq : ∀ q, (w.after e).machine = .up q → q = p := fun q hq =>
              (Machine.up.inj (hp.symm.trans hq)).symm
            refine ⟨hs, hb, h.id, ?_, ?_, fun q hq' => hq q hq' ▸ hW, fun q hq' => ?_⟩
            · exact (congrArg Option.isSome hmf).trans h.isSome
            · exact fun m hm => h.stored m (hmf.symm.trans hm)
            · rw [hq q hq']
              refine ⟨hcont, fun m hm => ?_, fun m hm => ?_, fun m hm => h.stored m (hmf.symm.trans hm)⟩
              · rw [hpend] at hm
                exact Option.some.inj hm ▸ hcont
              · rw [hfl] at hm
                exact absurd hm (Option.not_mem_none m)
      · refine h.down hs hb ?_ fun p hp => hup ⟨p, hp⟩
        exact hboot.manifest_eq

/-- The numbers listed in the stored manifest. -/
def World.listed (ev : Event) (w : World) : Option (List ℕ) :=
  (w.store.manifest ev.id).map (·.seqs)

end Multisite

import Multisite.Session.Moves

/-!
How a session comes about, and what becomes of the past.

* `Follows`: what an operation's writes add to the past;
* `Opens`, with `opens_openQueue`: constructing a session finds an unfinished
  event and sweeps what the targets in force no longer need, or does nothing;
* `Boots`, with `plan_boots`: without a session, every action constructs one or
  is `start_new` or `resume`.
-/

namespace Multisite

open SpoolQueue (removals)

/-! ### The past -/

/-- The writes that add a file. -/
def Write.addsFile : Write → Bool
  | .seg _ _ | .sidecar _ _ => true
  | _ => false

lemma History.wrote_append (h : History) (ws vs : List Write) :
    h.wrote (ws ++ vs) = (h.wrote ws).wrote vs := by
  induction ws generalizing h with
  | nil => rfl
  | cons x ws ih => cases x <;> exact ih _

/-- Removals and saved states leave the past alone. -/
lemma History.wrote_of_addsFile {h : History} {ws : List Write}
    (hws : ∀ x ∈ ws, x.addsFile = false) : h.wrote ws = h := by
  induction ws with
  | nil => rfl
  | cons x ws ih =>
      have hx := hws x List.mem_cons_self
      have hrest := ih fun y hy => hws y (List.mem_cons_of_mem _ hy)
      cases x <;> first | exact hrest | simp [Write.addsFile] at hx

lemma addsFile_removals {vs : List ℕ} {x : Write} (h : x ∈ removals vs) : x.addsFile = false := by
  obtain ⟨v, -, rfl | rfl⟩ := SpoolQueue.mem_removals h <;> rfl

/-- Of the writes of `enqueue`, its first two count for the past. -/
lemma SpoolQueue.Enqueues.wrote {sha : Bytes → String} {q : SpoolQueue} {d : Option Folder}
    {seg : SpooledSegment} {e : SpoolQueue.Enqueued} {vs : List ℕ} (hs : q.Enqueues sha d seg e vs)
    (h : History) (k : ℕ) :
    (h.wrote (e.writes.take k)).given = (if 1 ≤ k then h.given ++ [seg.seq] else h.given) ∧
      (h.wrote (e.writes.take k)).taken =
        if 2 ≤ k then Function.update h.taken seg.seq (some (sha seg.data)) else h.taken := by
  have hrest : ∀ h : History, ∀ j, h.wrote ((removals vs ++ [Write.state e.queue.state]).take j) = h := by
    intro h j
    refine History.wrote_of_addsFile fun x hx => ?_
    rcases List.mem_append.mp (List.mem_of_mem_take hx) with hx | hx
    · exact addsFile_removals hx
    · rw [List.mem_singleton.mp hx]
      rfl
  rw [hs.writes, List.take_append, History.wrote_append, hrest]
  rcases k with _ | _ | k
  · exact ⟨rfl, rfl⟩
  · exact ⟨rfl, rfl⟩
  · rw [List.take_of_length_le (by simp [SpoolQueue.segmentFiles])]
    refine ⟨rfl, ?_⟩
    funext x
    simp [SpoolQueue.segmentFiles, History.wrote, SpoolQueue.sidecarOf, Function.update_apply]

/-- What the past may be after the writes `ws`. -/
structure Follows (h : History) (ws : List Write) (h' : History) : Prop where
  given : h'.given = (h.wrote ws).given
  taken : h'.taken = (h.wrote ws).taken
  acked : h'.acked = h.acked
  confirmed : h'.confirmed = h.confirmed
  primary : h'.primary = h.primary
  gapped : h'.gapped = h.gapped
  cleared : ∀ s ∈ h'.cleared, s ∈ h.cleared ∨ s ∈ h.primary

lemma Follows.wrote (h : History) (ws : List Write) : Follows h ws (h.wrote ws) := by
  have key : (h.wrote ws).acked = h.acked ∧ (h.wrote ws).confirmed = h.confirmed ∧
      (h.wrote ws).primary = h.primary ∧ (h.wrote ws).gapped = h.gapped ∧
      (h.wrote ws).cleared = h.cleared := by
    induction ws generalizing h with
    | nil => exact ⟨rfl, rfl, rfl, rfl, rfl⟩
    | cons x ws ih => cases x <;> exact ih _
  obtain ⟨h1, h2, h3, h4, h5⟩ := key
  exact ⟨rfl, rfl, h1, h2, h3, h4, fun s hs => Or.inl (h5 ▸ hs)⟩

/-- The past of an effect follows from its own. -/
lemma Effect.past_follows (e : Effect) (d : Option Folder) (ws : List Write) :
    Follows e.hist ws (e.past d ws) := by
  have h := Follows.wrote e.hist ws
  rw [Effect.past]
  split
  · refine ⟨h.given, h.taken, h.acked, h.confirmed, h.primary, h.gapped, fun s hs => ?_⟩
    rw [History.clear, List.mem_append, List.mem_filterMap] at hs
    rcases hs with hs | ⟨x, -, hx⟩
    · exact h.cleared s hs
    · refine Or.inr (h.primary ▸ ?_)
      cases x with
      | removeSeg s' =>
          dsimp only at hx
          split at hx
          · rename_i hs'
            obtain rfl := Option.some.inj hx
            exact hs'.1
          · exact absurd hx (by simp)
      | _ => exact absurd hx (by simp)
  · exact h

/-! ### Opening and beginning -/

/-- A queue just constructed: at no folder, or at one whose recorded state it
holds. -/
def Opened (d : Option Folder) (q : SpoolQueue) : Prop :=
  q.dir = none ∧ q.state.valid = false ∨
    q.dir.isSome ∧ d.isSome ∧ q.state.valid = true ∧ recorded d = q.state

/-- What constructing a session does: nothing without an unfinished event, else
the sweep of `set_targets`. -/
inductive Opens (d : Option Folder) : SpoolQueue → List Write → Prop
  | nothing {q : SpoolQueue} (hdir : q.dir = none) (hv : q.state.valid = false) : Opens d q []
  | event {q : SpoolQueue} {vs : List ℕ} (hd : d.isSome) (hv : (recorded d).valid = true)
      (hdir : q.dir.isSome) (hst : ∃ n, q.state = { recorded d with targets := n })
      (hvs : ∀ v ∈ vs, HasSeg d v ∧ (recorded d).has .primary v = true) :
      Opens d q (removals vs ++ [.state q.state])

lemma isSome_of_recorded_valid {d : Option Folder} (h : (recorded d).valid = true) : d.isSome := by
  cases d with
  | none => exact absurd h (by simp)
  | some d => rfl

lemma opens_openQueue (ev : Event) (cfg : SessionConfig) (d : Option Folder) :
    Opens d ((openQueue ev cfg d).setTargets cfg.targets d).1
      ((openQueue ev cfg d).setTargets cfg.targets d).2 := by
  obtain ⟨h1, h2, h3⟩ := SpoolQueue.setTargets_spec cfg.targets (openQueue ev cfg d) d
  by_cases hv : (recorded d).valid = true ∧ (recorded d).ended = false
  · have hload : openQueue ev cfg d = SpoolQueue.load cfg.maxSpoolBytes (some ev.id) d := by
      have : (recorded d).valid && !(recorded d).ended := by simp [hv]
      rw [openQueue]
      exact congrArg (SpoolQueue.load cfg.maxSpoolBytes · d) (if_pos this)
    have hdir : (openQueue ev cfg d).dir = some ev.id := by rw [hload]; rfl
    have hst : (openQueue ev cfg d).state = recorded d := by rw [hload]; rfl
    rw [h3, SpoolQueue.saveState, h2, hdir, Option.isSome_some, if_pos rfl]
    refine .event (isSome_of_recorded_valid hv.1) hv.1 (by rw [h2, hdir]; rfl) ⟨_, by rw [h1, hst]⟩ ?_
    intro v hvs
    have := SpoolQueue.mem_swept hvs
    rwa [hst] at this
  · have hload : openQueue ev cfg d = SpoolQueue.load cfg.maxSpoolBytes none d := by
      have : ¬((recorded d).valid && !(recorded d).ended) = true := by simpa using hv
      rw [openQueue]
      exact congrArg (SpoolQueue.load cfg.maxSpoolBytes · d) (if_neg this)
    have hdir : (openQueue ev cfg d).dir = none := by rw [hload]; rfl
    have hst : (openQueue ev cfg d).state = {} := by rw [hload]; rfl
    have hpend : (openQueue ev cfg d).pendingSeqs d = [] := by
      simp [SpoolQueue.pendingSeqs, hdir]
    rw [h3, SpoolQueue.saveState, h2, hdir, SpoolQueue.swept, hpend]
    simp only [List.filter_nil, ite_self, Option.isSome_none, Bool.false_eq_true, if_false]
    exact .nothing (by rw [h2, hdir]) (by rw [h1, hst])

/-- After the sweep the queue holds what is recorded. -/
lemma Opens.opened {d : Option Folder} {q : SpoolQueue} {ws : List Write} (h : Opens d q ws) :
    Opened (applyWrites ws d) q := by
  cases h with
  | nothing hdir hv => exact Or.inl ⟨hdir, hv⟩
  | @event vs hd hv hdir hst hvs =>
      obtain ⟨n, hst⟩ := hst
      have hvalid : q.state.valid = true := by
        rw [hst]
        exact hv
      refine Or.inr ⟨hdir, ?_, hvalid, ?_⟩
      · refine isSome_applyWrites hd ?_
        simp [SpoolQueue.removeAll_notMem_removals]
      · rw [recorded_applyWrites_state hd (SpoolQueue.removeAll_notMem_removals vs), ← hvalid]

/-- The sweep changes the number of targets in what is recorded, at most. -/
lemma Opens.recorded_cut {d : Option Folder} {q : SpoolQueue} {ws : List Write} (h : Opens d q ws)
    (k : ℕ) : ∃ n, recorded (cutWrites k ws d) = { recorded d with targets := n } := by
  cases h with
  | nothing _ _ => exact ⟨_, by rw [cutWrites, Lib.cut, List.take_nil]; rfl⟩
  | @event vs hd hv hdir hst hvs =>
      obtain ⟨n, hst⟩ := hst
      by_cases hk : k ≤ (removals vs).length
      · refine ⟨(recorded d).targets, ?_⟩
        rw [cutWrites, Lib.cut, List.take_append_of_le_length hk]
        exact recorded_applyWrites
          (fun st hm => SpoolQueue.state_notMem_removals vs st (List.mem_of_mem_take hm))
          fun hm => SpoolQueue.removeAll_notMem_removals vs (List.mem_of_mem_take hm)
      · refine ⟨n, ?_⟩
        rw [cutWrites, Lib.cut_of_length_le _ (by simp; omega),
          recorded_applyWrites_state hd (SpoolQueue.removeAll_notMem_removals vs), hst, ← hv]

/-- Constructing a session adds no file. -/
lemma Opens.addsFile {d : Option Folder} {q : SpoolQueue} {ws : List Write} (h : Opens d q ws)
    (x : Write) (hx : x ∈ ws) : x.addsFile = false := by
  cases h with
  | nothing _ _ => exact absurd hx (by simp)
  | event _ _ _ _ _ =>
      rcases List.mem_append.mp hx with hx | hx
      · exact addsFile_removals hx
      · rw [List.mem_singleton.mp hx]
        rfl

/-- What `begin_common` takes over from the stored manifest, when it has one. -/
structure Seeds (ev : Event) (stored : Option Manifest) (m : Manifest) : Prop where
  segments : m.segments = (stored.map (·.segments)).getD []
  gaps : m.gaps = (stored.map (·.gaps)).getD []
  latestSeq : m.latestSeq = (stored.map (·.latestSeq)).getD 0
  eventId : m.eventId = ev.id

/-- The stored manifest `resume` goes on from, if it can read one of this
event. -/
def continued (ev : Event) (stored : Option Manifest) (reads : ResumeReads) : Option Manifest :=
  if reads.manifest then stored.filter (·.eventId = ev.id) else none

lemma seeds_seedManifest {ev : Event} {cfg : SessionConfig} {args : StartArgs} {c : Continuing}
    {e : EventInfo} {now : ℤ} (hc : ∀ m ∈ c.manifest, m.eventId = ev.id) :
    Seeds ev c.manifest (seedManifest ev cfg args c e now) := by
  rw [seedManifest]
  cases hm : c.manifest with
  | none => exact ⟨rfl, rfl, rfl, rfl⟩
  | some m => exact ⟨rfl, rfl, rfl, hc m hm⟩

lemma beginRequests_media (ev : Event) (cfg : SessionConfig) (args : StartArgs) (c : Continuing)
    (e : EventInfo) (puts : BeginPuts) (st : Store) :
    ((beginRequests ev cfg args c e puts st).1).media ev = st.media ev := by
  obtain ⟨ce, cm, ci⟩ := c
  obtain ⟨pe, pi, pn⟩ := puts
  cases ce <;> cases ci <;> cases pe <;> cases pi <;> cases pn <;> rfl

/-- What `begin_common` comes to: the media untouched, and a session begun or the
process gone. -/
lemma beginCommon_spec (ev : Event) (cfg : SessionConfig) (args : StartArgs) (c : Continuing)
    (puts : BeginPuts) (q : SpoolQueue) (next : ℕ) (now : ℤ) (st : Store)
    (hc : ∀ m ∈ c.manifest, m.eventId = ev.id) :
    ((beginCommon ev cfg args c puts q next now st).2).media ev = st.media ev ∧
      ((beginCommon ev cfg args c puts q next now st).1 = .down ∨
        ∃ p m, (beginCommon ev cfg args c puts q next now st).1 = .up p ∧ Calm p ∧
          Seeds ev c.manifest m ∧ p.core = Core.begun q next m) := by
  have hmedia := beginRequests_media ev cfg args c (descriptor ev cfg args c next now) puts st
  rw [beginCommon]
  split
  · rename_i st' heq
    rw [heq] at hmedia
    exact ⟨hmedia, Or.inl rfl⟩
  · rename_i st' heq
    rw [heq] at hmedia
    refine ⟨hmedia, Or.inr ⟨_, _, rfl, ?_, seeds_seedManifest hc, rfl⟩⟩
    exact .of_rank (by simp [Proc.queueManifest, Phase.rank])

/-- The queue of an event just begun. -/
structure Begun (ev : Event) (q : SpoolQueue) : Prop where
  dir : q.dir.isSome
  valid : q.state.valid = true
  firstSeq : q.state.firstSeq = ev.firstSeq
  last : q.state.lastEnqueued = ev.firstSeq - 1
  any : ∀ t, q.state.any t = false
  mark : ∀ t, q.state.mark t = ev.firstSeq - 1

/-- The writes of `begin_event`. -/
def beginWrites (st : SpoolState) : List Write := [.removeAll, .create, .state st]

/-- Wherever `begin_event` stops, the folder is empty. -/
lemma sidecar_beginWrites (st : SpoolState) (k s : ℕ) :
    sidecar (cutWrites k (beginWrites st) none) s = none := by
  cases hm : sidecar (cutWrites k (beginWrites st) none) s with
  | none => rfl
  | some m =>
      rcases sidecar_applyWrites hm with h | h
      · exact absurd h (by simp)
      · exact absurd (List.mem_of_mem_take h) (by simp [beginWrites])

lemma hasSeg_beginWrites (st : SpoolState) (k s : ℕ) :
    ¬HasSeg (cutWrites k (beginWrites st) none) s := by
  intro hs
  rcases hasSeg_applyWrites hs with h | ⟨b, hb⟩
  · exact absurd h (by simp)
  · exact absurd (List.mem_of_mem_take hb) (by simp [beginWrites])

/-- What `begin_event` has recorded, wherever it stops. -/
lemma recorded_beginWrites (st : SpoolState) (k : ℕ) :
    recorded (cutWrites k (beginWrites st) none) = {} ∨
      recorded (cutWrites k (beginWrites st) none) = { st with valid := true } := by
  rcases k with _ | _ | _ | k
  · exact Or.inl rfl
  · exact Or.inl rfl
  · exact Or.inl rfl
  · rw [cutWrites, Lib.cut_of_length_le _ (by simp [beginWrites])]
    exact Or.inr rfl

lemma beginIn_spec (ev : Event) (now : ℤ) (q : SpoolQueue) :
    Begun ev (q.beginIn now ev.id ev.firstSeq).1 ∧
      (q.beginIn now ev.id ev.firstSeq).2 =
        beginWrites (q.beginIn now ev.id ev.firstSeq).1.state := by
  have hfirst : (if ev.firstSeq > 0 then ev.firstSeq - 1 else 0) = ev.firstSeq - 1 := by
    split <;> omega
  refine ⟨⟨rfl, rfl, rfl, hfirst, fun t => ?_, fun t => ?_⟩, rfl⟩
  · cases t <;> rfl
  · cases t <;> exact hfirst

/-- The queue of an event resumed, on the folder `d`. -/
structure Resumed (d : Option Folder) (q : SpoolQueue) : Prop where
  dir : q.dir.isSome
  disk : d.isSome
  valid : (recorded d).valid = true
  state : ∃ now, q.state = { recorded d with ended := false, lastActivityMs := now }

/-- Resuming changes whether the event has ended, and the clock. -/
lemma Resumed.recorded_cut {d : Option Folder} {r : SpoolQueue} (hr : Resumed d r) (k : ℕ) :
    ∃ b now, recorded (cutWrites k [.state r.state] d) =
      { recorded d with ended := b, lastActivityMs := now } := by
  obtain ⟨now, hst⟩ := hr.state
  rcases k with _ | k
  · exact ⟨_, _, rfl⟩
  · refine ⟨false, now, ?_⟩
    rw [cutWrites, Lib.cut_of_length_le _ (by simp), Lib.applyAll_cons, Lib.applyAll_nil,
      recorded_apply_state hr.disk, hst, ← hr.valid]

/-- The ways a session is constructed and begun: an action, with its effect. -/
inductive Boots (ev : Event) (w : World) (e : Effect) : Action → Prop
  | opens {cfg : SessionConfig} {q : SpoolQueue} (hm : w.machine = .down)
      (hq : e.machine = .opened cfg q) (hws : Opens w.disk q e.writes) (hst : e.store = w.store)
      (hh : e.hist = w.hist) (hb : e.begun = false) : Boots ev w e (.openSession cfg)
  | starts {args : StartArgs} {puts : BeginPuts} {now : ℤ} {cfg : SessionConfig} {q q' : SpoolQueue}
      (hm : w.machine = .opened cfg q) (hnew : w.begun = false) (hq : Begun ev q')
      (hws : e.writes = beginWrites q'.state) (hst : e.store.media ev = w.store.media ev)
      (hh : e.past w.disk = w.hist.wrote) (hb : e.begun = true)
      (hmach : e.machine = .down ∨ ∃ p m, e.machine = .up p ∧ Calm p ∧ Seeds ev none m ∧
        p.core = Core.begun q' ev.firstSeq m) : Boots ev w e (.startNew args puts now)
  | refused {args : StartArgs} {reads : ResumeReads} {puts : BeginPuts} {now : ℤ}
      (hmach : e.machine = .down) (hws : e.writes = []) (hst : e.store = w.store)
      (hh : e.past w.disk = w.hist.wrote) (hb : e.begun = false) :
      Boots ev w e (.resume args reads puts now)
  | resumes {args : StartArgs} {reads : ResumeReads} {puts : BeginPuts} {now : ℤ}
      {r : SpoolQueue} (hr : Resumed w.disk r)
      (hws : e.writes = [.state r.state]) (hst : e.store.media ev = w.store.media ev)
      (hh : e.past w.disk = w.hist.wrote) (hb : e.begun = false)
      (hmach : e.machine = .down ∨ ∃ p m, e.machine = .up p ∧ Calm p ∧
        Seeds ev (continued ev (w.store.manifest ev.id) reads) m ∧
        p.core = Core.begun r ((recorded w.disk).lastEnqueued + 1) m) :
      Boots ev w e (.resume args reads puts now)

lemma continued_eventId {ev : Event} {stored : Option Manifest} {reads : ResumeReads} {m : Manifest}
    (h : m ∈ continued ev stored reads) : m.eventId = ev.id := by
  rw [continued] at h
  split at h
  · rw [Option.mem_def, Option.filter_eq_some_iff] at h
    simpa using h.2
  · exact absurd h (by simp)

lemma readContinuing_manifest {ev : Event} {st : Store} {init : Bytes} {r : ResumeReads}
    {c : Continuing} (h : readContinuing ev st init r = some c) :
    c.manifest = continued ev (st.manifest ev.id) r := by
  rw [readContinuing] at h
  split at h
  · exact absurd h (by simp)
  · split at h
    · obtain rfl := Option.some.inj h
      rfl
    · split at h
      · obtain rfl := Option.some.inj h
        rfl
      · exact absurd h (by simp)
    · exact absurd h (by simp)

lemma inspect_resumable {q : SpoolQueue} {d : Option Folder} (h : (q.inspect d).resumable = true) :
    q.state.valid = true ∧ (q.inspect d).lastEnqueued = q.state.lastEnqueued := by
  rw [SpoolQueue.inspect] at h ⊢
  split at h
  · exact absurd h (by simp)
  · rename_i hv
    rw [if_neg hv]
    simp only [Bool.or_eq_true, Bool.not_eq_true', not_or, Bool.not_eq_false] at hv
    exact ⟨hv.1, rfl⟩

lemma resumeEvent_spec {now : ℤ} {q : SpoolQueue} {r : SpoolQueue × List Write}
    (h : q.resumeEvent now = some r) :
    r.1 = { q with state := { q.state with ended := false, lastActivityMs := now } } ∧
      r.2 = r.1.saveState := by
  rw [SpoolQueue.resumeEvent] at h
  split at h
  · exact absurd h (by simp)
  · obtain rfl := Option.some.inj h
    exact ⟨rfl, rfl⟩

/-- Without a session, every action constructs or begins one. -/
theorem plan_boots {ev : Event} {w : World} {a : Action} {e : Effect}
    (hup : ∀ p, w.machine ≠ .up p) (ho : ∀ cfg q, w.machine = .opened cfg q → Opened w.disk q)
    (h : w.plan ev a = some e) : Boots ev w e a := by
  cases hm : w.machine with
  | up p => exact absurd hm (hup p)
  | down =>
      cases a with
      | openSession cfg =>
          simp only [World.plan, hm] at h
          obtain rfl := Option.some.inj h
          exact .opens hm rfl (opens_openQueue ev cfg w.disk) rfl rfl rfl
      | _ => simp [World.plan, hm] at h
  | opened cfg q =>
      cases a with
      | startNew args puts now =>
          simp only [World.plan, hm] at h
          split at h
          · rename_i hnew
            obtain rfl := Option.some.inj h
            obtain ⟨hq, hws⟩ := beginIn_spec ev now q
            obtain ⟨hst, hmach⟩ := beginCommon_spec ev cfg args {} puts
              (q.beginIn now ev.id ev.firstSeq).1 ev.firstSeq now w.store (fun m hm => absurd hm (by simp))
            exact .starts hm (by simpa using hnew) hq hws hst rfl rfl hmach
          · exact absurd h (by simp)
      | resume args reads puts now =>
          simp only [World.plan, hm] at h
          split at h
          · rename_i hres
            split at h
            · rename_i c r hc hr
              obtain rfl := Option.some.inj h
              obtain ⟨hv, hlast⟩ := inspect_resumable hres
              obtain ⟨hdir, hd, -, hrec⟩ := (ho cfg q hm).resolve_left (by simp [hv])
              obtain ⟨hr1, hr2⟩ := resumeEvent_spec hr
              have hcont := readContinuing_manifest hc
              obtain ⟨hst, hmach⟩ := beginCommon_spec ev (cfg.named c) args c puts r.1
                ((q.inspect w.disk).lastEnqueued + 1) now w.store
                (fun m hm => continued_eventId (hcont ▸ hm))
              have hnext : (q.inspect w.disk).lastEnqueued = (recorded w.disk).lastEnqueued := by
                rw [hlast, hrec]
              rw [hcont, hnext] at hmach
              rw [hnext] at hst ⊢
              refine .resumes ⟨?_, hd, ?_, now, ?_⟩ ?_ hst rfl rfl hmach
              · rw [hr1]
                exact hdir
              · rw [hrec, hv]
              · rw [hr1, hrec]
              · rw [hr2, SpoolQueue.saveState, if_pos (by rw [hr1]; exact hdir)]
            · obtain rfl := Option.some.inj h
              exact .refused rfl rfl rfl rfl rfl
          · exact absurd h (by simp)
      | _ => simp [World.plan, hm] at h

/-- The session `begin_common` makes. -/
def begunProc (ev : Event) (cfg : SessionConfig) (args : StartArgs) (c : Continuing)
    (q : SpoolQueue) (next : ℕ) (now : ℤ) : Proc :=
  Proc.queueManifest
    { cfg, spool := q, nextSeq := next
      manifest := seedManifest ev cfg args c (descriptor ev cfg args c next now) now
      pub := {} }

lemma beginCommon_up {ev : Event} {cfg : SessionConfig} {args : StartArgs} {c : Continuing}
    {puts : BeginPuts} {q : SpoolQueue} {next : ℕ} {now : ℤ} {st : Store} {p : Proc}
    (h : (beginCommon ev cfg args c puts q next now st).1 = .up p) :
    p = begunProc ev cfg args c q next now := by
  rw [beginCommon] at h
  split at h
  · exact absurd h (by simp)
  · exact (Machine.up.inj h).symm

/-- A session that was not there comes from `begin_common`. -/
lemma begins_of_plan {ev : Event} {w : World} {a : Action} {e : Effect} {p : Proc}
    (hup : ∀ p, w.machine ≠ .up p) (h : w.plan ev a = some e) (hp : e.machine = .up p) :
    ∃ cfg args c q next now, p = begunProc ev cfg args c q next now := by
  cases hm : w.machine with
  | up p => exact absurd hm (hup p)
  | down =>
      cases a <;> simp only [World.plan, hm, reduceCtorEq] at h
      obtain rfl := Option.some.inj h
      exact absurd hp (by simp)
  | opened cfg q =>
      cases a <;> simp only [World.plan, hm, reduceCtorEq] at h
      · split at h
        · obtain rfl := Option.some.inj h
          exact ⟨_, _, _, _, _, _, beginCommon_up hp⟩
        · exact absurd h (by simp)
      · split at h
        · split at h
          · obtain rfl := Option.some.inj h
            exact ⟨_, _, _, _, _, _, beginCommon_up hp⟩
          · obtain rfl := Option.some.inj h
            exact absurd hp (by simp)
        · exact absurd h (by simp)

end Multisite

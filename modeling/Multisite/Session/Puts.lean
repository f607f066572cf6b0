import Multisite.Session.Runs

/-!
The calls of `put_bytes` an action makes, in their order: everything a session
writes but its segments goes through it.

* `World.putCalls`: the calls, each with its answer;
* `store_of_plan`: so this is what an action makes of the primary bucket, apart from
  the segments.
-/

namespace Multisite

/-- A call of `put_bytes`, and whether the primary bucket took the object. -/
structure PutCall where
  key : Key
  body : Object
  contentType : String
  ok : Bool
  deriving DecidableEq, Repr

/-- `put_json`. -/
def putJson (key : Key) (body : Object) (ok : Bool) : PutCall :=
  { key, body, contentType := "application/json", ok }

/-- The bucket after a call. -/
def PutCall.apply (c : PutCall) (st : Store) : Store := if c.ok then st.put c.key c.body else st

/-- The bucket after the calls. -/
def applyPuts (cs : List PutCall) (st : Store) : Store := cs.foldl (fun st c => c.apply st) st

/-- A key no call writes keeps its object. -/
lemma applyPuts_of_notMem {cs : List PutCall} {k : Key} (h : ∀ c ∈ cs, c.key ≠ k) (st : Store) :
    applyPuts cs st k = st k := by
  induction cs generalizing st with
  | nil => rfl
  | cons c cs ih =>
      have hc : c.apply st k = st k := by
        rw [PutCall.apply]
        split
        · exact Store.put_of_ne st c.body (h c List.mem_cons_self).symm
        · rfl
      rw [applyPuts, List.foldl_cons]
      exact (ih (fun d hd => h d (List.mem_cons_of_mem _ hd)) _).trans hc

/-- The calls of `begin_common`, up to the first that stops it. -/
def beginCalls (ev : Event) (cfg : SessionConfig) (args : StartArgs) (c : Continuing)
    (e : EventInfo) (puts : BeginPuts) : List PutCall :=
  let idx : RoomEventEntry :=
    { eventId := ev.id, roomId := cfg.roomId, name := cfg.eventName, startedAtMs := e.startedAtMs }
  let init : PutCall :=
    { key := .init ev.id, body := .bytes args.init, contentType := "video/mp4", ok := puts.init }
  let rest := if c.initStored then [] else [init]
  if c.event.isNone then
    putJson (.event ev.id) (.event e) puts.event ::
      if puts.event then
        putJson (.roomEvent cfg.roomId ev.id) (.roomEvent idx) puts.index :: rest
      else []
  else rest

/-- The calls of an action of a session that has begun. -/
def Proc.putCalls (ev : Event) (p : Proc) : Action → List PutCall
  | .publishLive ok now =>
      if p.phase = .goingLive then
        [putJson (.live p.cfg.roomId) (.live (p.livePointer ev .live now)) ok]
      else []
  | .putHeartbeat ok => p.beat.toList.map fun lp => putJson (.live p.cfg.roomId) (.live lp) ok
  | .publishEnded ok now =>
      if p.phase = .joined then
        [putJson (.live p.cfg.roomId) (.live (p.livePointer ev .ended now)) ok]
      else []
  | .putBeat ok =>
      match p.up.pc with
      | .listed _ (some lp) =>
          if p.manifest.status = .ended then [] else [putJson (.live p.cfg.roomId) (.live lp) ok]
      | _ => []
  | .putManifest ok =>
      p.pub.inFlight.toList.map fun m => putJson (.manifest ev.id) (.manifest m.1) ok
  | _ => []

/-- The calls of an action. -/
def World.putCalls (ev : Event) (w : World) (a : Action) : List PutCall :=
  match w.machine, a with
  | .up p, a => p.putCalls ev a
  | .opened cfg _, .startNew args puts now =>
      beginCalls ev cfg args {} (descriptor ev cfg args {} ev.firstSeq now) puts
  | .opened cfg q, .resume args reads puts now =>
      match readContinuing ev w.store args.init reads with
      | some c =>
          beginCalls ev (cfg.named c) args c
            (descriptor ev (cfg.named c) args c ((q.inspect w.disk).lastEnqueued + 1) now) puts
      | none => []
  | _, _ => []

/-! ### What the calls make of the bucket -/

variable {ev : Event} {w : World} {p : Proc} {a : Action} {e : Effect}

lemma beginRequests_store (ev : Event) (cfg : SessionConfig) (args : StartArgs) (c : Continuing)
    (e : EventInfo) (puts : BeginPuts) (st : Store) :
    (beginRequests ev cfg args c e puts st).1 = applyPuts (beginCalls ev cfg args c e puts) st := by
  obtain ⟨ce, cm, ci⟩ := c
  obtain ⟨pe, pi, pn⟩ := puts
  cases ce <;> cases ci <;> cases pe <;> cases pi <;> cases pn <;> rfl

lemma beginCommon_store (ev : Event) (cfg : SessionConfig) (args : StartArgs) (c : Continuing)
    (puts : BeginPuts) (q : SpoolQueue) (next : ℕ) (now : ℤ) (st : Store) :
    (beginCommon ev cfg args c puts q next now st).2 =
      applyPuts (beginCalls ev cfg args c (descriptor ev cfg args c next now) puts) st := by
  rw [← beginRequests_store, beginCommon]
  split <;> rename_i st' heq <;> rw [heq]

/-- The keys of a segment. -/
def Key.isSegment : Key → Bool
  | .segment _ _ => true
  | _ => false

/-- **What an action makes of the primary bucket**, apart from the segments: what
its calls of `put_bytes` do. -/
lemma Proc.store_of_plan (hs : ∀ t seg, (p.core.hand t).segment = some seg →
    seg.key = .segment ev.id seg.seq) (h : p.plan ev w a = some e) {k : Key}
    (hk : k.isSegment = false) : e.store k = applyPuts (p.putCalls ev a) w.store k := by
  cases a with
  | putSegment t r =>
      simp only [Proc.plan] at h
      split at h
      · rename_i seg n hpc
        split at h
        · obtain rfl := Option.some.inj h
          have hkey : seg.key = .segment ev.id seg.seq :=
            hs .primary seg (by simp only [Core.hand, Proc.core]; rw [show p.up.pc = _ from hpc]; rfl)
          refine Store.put_of_ne _ _ fun hx => ?_
          rw [hx, hkey] at hk
          exact absurd hk (by simp [Key.isSegment])
        · obtain rfl := Option.some.inj h
          rfl
        · obtain rfl := Option.some.inj h
          rfl
      · exact absurd h (by simp)
  | publishSegment data dur pts now fault =>
      simp only [Proc.plan] at h
      split at h
      · rw [publishSegment, Option.bind_eq_some_iff] at h
        obtain ⟨q, -, h⟩ := h
        split at h
        · obtain rfl := Option.some.inj h
          rfl
        · split at h
          · obtain rfl := Option.some.inj h
            rfl
          · split at h
            · obtain rfl := Option.some.inj h
              rfl
            · exact absurd h (by simp)
      · exact absurd h (by simp)
  | _ =>
      simp only [Proc.plan] at h
      repeat' split at h
      all_goals first
        | simp only [reduceCtorEq] at h
        | (obtain rfl := Option.some.inj h
           first
            | rfl
            | simp_all [Proc.putCalls, applyPuts, PutCall.apply, putJson, World.become])

/-- What goes to the second bucket directly is the segment the mirror is sending. -/
lemma Proc.second_cases (h : p.plan ev w a = some e) :
    e.second = w.second ∨ ∃ seg n, a = .putSegment .second .ok ∧ p.mirror.pc = .sending seg n ∧
      e.second = w.second.put seg.key (.bytes seg.data) := by
  cases a with
  | putSegment t r =>
      simp only [Proc.plan] at h
      split at h
      · rename_i seg n hpc
        split at h
        · obtain rfl := Option.some.inj h
          exact Or.inl rfl
        · obtain rfl := Option.some.inj h
          exact Or.inr ⟨seg, n, rfl, hpc, rfl⟩
        · obtain rfl := Option.some.inj h
          exact Or.inl rfl
      · exact absurd h (by simp)
  | publishSegment data dur pts now fault =>
      simp only [Proc.plan] at h
      split at h
      · rw [publishSegment, Option.bind_eq_some_iff] at h
        obtain ⟨q, -, h⟩ := h
        split at h
        · obtain rfl := Option.some.inj h
          exact Or.inl rfl
        · split at h
          · obtain rfl := Option.some.inj h
            exact Or.inl rfl
          · split at h
            · obtain rfl := Option.some.inj h
              exact Or.inl rfl
            · exact absurd h (by simp)
      · exact absurd h (by simp)
  | _ =>
      simp only [Proc.plan] at h
      repeat' split at h
      all_goals first
        | simp only [reduceCtorEq] at h
        | (obtain rfl := Option.some.inj h
           exact Or.inl rfl)

/-- Nothing but segments goes to the second bucket directly. -/
lemma Proc.second_of_plan (hs : ∀ t seg, (p.core.hand t).segment = some seg →
    seg.key = .segment ev.id seg.seq) (h : p.plan ev w a = some e) {k : Key}
    (hk : k.isSegment = false) : e.second k = w.second k := by
  rcases Proc.second_cases h with heq | ⟨seg, n, -, hpc, heq⟩
  · rw [heq]
  · have hkey : seg.key = .segment ev.id seg.seq :=
      hs .second seg (by simp [Core.hand, Proc.core, hpc, UploadPc.segment])
    rw [heq]
    refine Store.put_of_ne _ _ fun hx => ?_
    rw [hx, hkey] at hk
    exact absurd hk (by simp [Key.isSegment])

/-- Beginning a session leaves the second bucket alone. -/
lemma second_of_boot (hdown : ∀ p, w.machine ≠ .up p)
    (he : w.plan ev a = some e) : e.second = w.second := by
  cases hm : w.machine with
  | up p => exact absurd hm (hdown p)
  | down =>
      cases a <;> simp only [World.plan, hm, reduceCtorEq] at he
      obtain rfl := Option.some.inj he
      rfl
  | opened cfg q =>
      cases a <;> simp only [World.plan, hm, reduceCtorEq] at he
      all_goals
        repeat' split at he
        all_goals first
          | simp only [reduceCtorEq] at he
          | (obtain rfl := Option.some.inj he
             rfl)

lemma World.store_of_plan (hs : Sound ev w) (h : w.plan ev a = some e) {k : Key}
    (hk : k.isSegment = false) : e.store k = applyPuts (w.putCalls ev a) w.store k := by
  cases hm : w.machine with
  | up p =>
      rw [show w.putCalls ev a = p.putCalls ev a by simp only [World.putCalls, hm]]
      exact p.store_of_plan (fun t seg hseg => hs.hands p t seg hm hseg) (plan_up hm a ▸ h) hk
  | down =>
      cases a <;> simp only [World.plan, hm, reduceCtorEq] at h
      obtain rfl := Option.some.inj h
      rw [show w.putCalls ev _ = [] by simp only [World.putCalls, hm]]
      rfl
  | opened cfg q =>
      cases a <;> simp only [World.plan, hm, reduceCtorEq] at h
      · split at h
        · obtain rfl := Option.some.inj h
          simp only [World.putCalls, hm, beginCommon_store]
        · exact absurd h (by simp)
      · rename_i args reads puts now
        split at h
        · rename_i hres
          split at h
          · rename_i c r hc hr
            obtain rfl := Option.some.inj h
            simp only [World.putCalls, hm, hc, beginCommon_store]
          · rename_i hnot
            obtain rfl := Option.some.inj h
            -- an event that can be resumed has a valid state, so the reads gave up
            have hr : q.resumeEvent now = some _ := if_neg (by simp [(inspect_resumable hres).1])
            have hnone : readContinuing ev w.store args.init reads = none := by
              cases hc : readContinuing ev w.store args.init reads with
              | none => rfl
              | some c => exact absurd hr (hnot c _ hc)
            simp only [World.putCalls, hm, hnone]
            rfl
        · exact absurd h (by simp)

/-- A key that no call of the step writes keeps its object. -/
lemma store_of_step {w' : World} (hs : Sound ev w) (h : step ev w a = some w') {k : Key}
    (hk : k.isSegment = false) (hcalls : ∀ c ∈ w.putCalls ev a, c.key ≠ k) :
    w'.store k = w.store k := by
  rcases step_cases h with ⟨rfl, -, rfl⟩ | ⟨s, b, rfl, -, rfl⟩ | ⟨a', n, e, rfl, -, -, rfl⟩ |
    ⟨e, he, rfl⟩
  · rfl
  · rfl
  · rfl
  · rw [show (w.after e).store = e.store from rfl, World.store_of_plan hs he hk]
    exact applyPuts_of_notMem hcalls w.store

/-- A session that has begun writes pointers and manifests. -/
lemma Proc.putCalls_key {c : PutCall} (h : c ∈ p.putCalls ev a) :
    (∃ room, c.key = .live room) ∨ c.key = .manifest ev.id := by
  cases a <;> simp only [Proc.putCalls, putJson, List.not_mem_nil] at h <;> grind

/-- The objects `put_bytes` is called for. -/
lemma putCalls_key {c : PutCall} (h : c ∈ w.putCalls ev a) :
    (∃ room, c.key = .live room) ∨ (∃ room, c.key = .roomEvent room ev.id) ∨
      c.key = .event ev.id ∨ c.key = .init ev.id ∨ c.key = .manifest ev.id := by
  have hbegin : ∀ cfg args cont e puts, c ∈ beginCalls ev cfg args cont e puts →
      (∃ room, c.key = .roomEvent room ev.id) ∨ c.key = .event ev.id ∨ c.key = .init ev.id := by
    intro cfg args cont e puts hc
    simp only [beginCalls, putJson] at hc
    grind
  unfold World.putCalls at h
  split at h
  · rcases Proc.putCalls_key h with hc | hc
    · exact Or.inl hc
    · exact Or.inr (Or.inr (Or.inr (Or.inr hc)))
  · exact Or.inr ((hbegin _ _ _ _ _ h).imp_right (Or.imp_right Or.inl))
  · split at h
    · exact Or.inr ((hbegin _ _ _ _ _ h).imp_right (Or.imp_right Or.inl))
    · exact absurd h (by simp)
  · exact absurd h (by simp)

end Multisite

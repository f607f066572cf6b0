import Multisite.Service.Kept

/-!
What runs against what is stored: the sessions once every request has finished, and the enabled
flags of the rows.

* `RelayHost.InLine`: the invariant, with the flag each start and stop set last;
* `runs_what_is_stored`: the sessions are the rows' in every run whose reloads take the lock with
  what is stored by then, whose edits find the flag they read, and whose starts and stops come to
  the session in the order they came to the row.
-/

namespace Multisite

namespace RelayHost

variable {s t : RelayHost}

/-! ### The order of the steps -/

/-- A reload takes the lock with the rows and the delay stored by then; an edit finds the row's
flag as it read it; a start or a stop finds the row's flag as it set it. -/
def inOrder (s : RelayHost) : ServiceAction → Bool
  | .proceed i =>
      match s.calls[i]? with
      | some (.reload (.ready r)) =>
          decide (r.dests = s.store.rows) &&
            decide (r.room.defaultDelayS = s.store.room.defaultDelayS)
      | some (.writes (.update d :: _) _) =>
          (s.store.destination d.id).all fun r => decide (r.enabled = d.enabled)
      | some (.setSession id on) =>
          (s.store.destination id).all fun r => decide (r.enabled = on)
      | _ => true
  | _ => true

/-- The flags starts and stops have set last. -/
def noteFlags (s : RelayHost) (a : ServiceAction) (flags : ℤ → Option Bool) : ℤ → Option Bool :=
  match a with
  | .proceed i =>
      match s.calls[i]? with
      | some (.setRow id on) => Function.update flags id (some on)
      | _ => flags
  | _ => flags

/-- A reload is still to take the lock for the call. -/
def owes : ServiceCall → Bool
  | .writes _ reload => reload
  | .reload _ => true
  | _ => false

/-- A reload is still to take the lock. -/
def Owed (s : RelayHost) : Prop := ∃ c ∈ s.calls, owes c = true

/-- A start or a stop has set the row and is still to set the session. -/
def Pending (s : RelayHost) (id : ℤ) : Prop := ∃ on, ServiceCall.setSession id on ∈ s.calls

/-- The session is the row's, up to the flag. -/
def SameSettings (room : RoomSettings) (d : Destination) (e : RelayEdits) : Prop :=
  { e.dest with enabled := d.enabled } = settled room d

/-- The session's flag is the row's. -/
def SameFlag (d : Destination) (e : RelayEdits) : Prop :=
  e.dest.enabled = d.enabled ∧ e.enabled = d.enabled

/-- A session against its row: there is one where there is a row, with its settings, and with its
flag unless that waits for something. -/
def RowSession (room : RoomSettings) (waits : Prop) :
    Option Destination → Option RelayRunning → Prop
  | none, none => True
  | some d, some a => SameSettings room d a.edits ∧ (waits ∨ SameFlag d a.edits)
  | _, _ => False

lemma RowSession.mono {room : RoomSettings} {waits waits' : Prop} {d : Option Destination}
    {a : Option RelayRunning} (h : RowSession room waits d a) (hw : waits → waits') :
    RowSession room waits' d a := by
  cases d with
  | none =>
      cases a with
      | none => trivial
      | some a => exact h
  | some d =>
      cases a with
      | none => exact h
      | some a => exact ⟨h.1, h.2.imp_left hw⟩

/-- The session under an id is its row's; the flag may wait for a start or a stop. -/
def InLineAt (s : RelayHost) (id : ℤ) : Prop :=
  RowSession s.store.room (s.Pending id) (s.store.destination id) (s.service.sessions id)

/-- What a call may still write: a row that is added is stopped, and without a reload behind them
nothing is written that a session goes by. -/
def Proper : ServiceCall → Prop
  | .writes ws reload =>
      (∀ d, StoreWrite.add d ∈ ws → d.enabled = false) ∧
        (reload = false → ∀ w ∈ ws, (∃ key, w = .provider key) ∨ ∃ c, w = .pairing c)
  | _ => True

/-- What holds of the calls, the sessions' ids and the flags. -/
structure Tidy (s : RelayHost) (flags : ℤ → Option Bool) : Prop where
  proper : ∀ c ∈ s.calls, Proper c
  known : ∀ id on, ServiceCall.setRow id on ∈ s.calls → id ≤ s.store.lastId
  fresh : ∀ id, s.store.lastId < id → flags id = none
  named : ∀ id a, s.service.sessions id = some a → a.edits.dest.id = id
  flags : ∀ d ∈ s.store.rows, d.enabled = (flags d.id).getD false

/-- **The invariant.** -/
structure InLine (s : RelayHost) (flags : ℤ → Option Bool) : Prop where
  orderly : s.Orderly
  tidy : s.Tidy flags
  sessions : s.Owed ∨ s.service.feeder = none ∨ ∀ id, s.InLineAt id

/-! ### Rows -/

lemma id_of_destination {st : RelayStore} {id : ℤ} {d : Destination}
    (h : st.destination id = some d) : d.id = id := by
  simpa using List.find?_some h

lemma mem_of_destination {st : RelayStore} {id : ℤ} {d : Destination}
    (h : st.destination id = some d) : d ∈ st.rows := List.mem_of_find?_eq_some h

/-- A row is found under its id. -/
lemma destination_of_mem {st : RelayStore} (h : st.Sound) {d : Destination} (hd : d ∈ st.rows) :
    st.destination d.id = some d := by
  cases hfind : st.destination d.id with
  | none =>
      have hno := List.find?_eq_none.mp hfind d hd
      simp at hno
  | some d' =>
      have hid := id_of_destination hfind
      have hmem := mem_of_destination hfind
      rw [List.inj_on_of_nodup_map h.nodup hmem hd hid]

lemma destination_eq_none {st : RelayStore} {id : ℤ} (h : st.destination id = none) :
    id ∉ st.rows.map (·.id) := by
  intro hmem
  obtain ⟨d, hd, rfl⟩ := List.mem_map.mp hmem
  have hno := List.find?_eq_none.mp h d hd
  simp at hno

/-- Rows changed in place are found as changed. -/
lemma destination_map {st st' : RelayStore} {f : Destination → Destination}
    (hf : ∀ d, (f d).id = d.id) (hrows : st'.rows = st.rows.map f) (id : ℤ) :
    st'.destination id = (st.destination id).map f := by
  rw [RelayStore.destination, RelayStore.destination, hrows, List.find?_map]
  have hp : (fun d : Destination => decide (d.id = id)) ∘ f = fun d => decide (d.id = id) := by
    funext d
    simp [hf]
  rw [hp]

lemma destination_setEnabled (st : RelayStore) (id : ℤ) (on : Bool) (j : ℤ) :
    (st.setEnabled id on).destination j =
      (st.destination j).map fun d => if d.id = id then { d with enabled := on } else d := by
  refine destination_map (fun d => ?_) rfl j
  split <;> rfl

/-- What is settled depends on the delay alone. -/
lemma settled_of_delay {room room' : RoomSettings} (h : room.defaultDelayS = room'.defaultDelayS)
    (d : Destination) : settled room d = settled room' d := by
  rw [settled, settled, h]

lemma settled_id (room : RoomSettings) (d : Destination) : (settled room d).id = d.id := by
  rw [settled]
  split <;> rfl

/-! ### A session after a reload -/

/-- A session brought into line is the row's. -/
lemma synced_inLine (room : RoomSettings) (n : ℕ) {old : Option RelayRunning} {d : Destination}
    (hold : ∀ a, old = some a → a.edits.dest.id = d.id) :
    SameSettings room d (RelayService.synced room n old d).edits ∧
      SameFlag d (RelayService.synced room n old d).edits ∧
      (RelayService.synced room n old d).edits.dest.id = d.id := by
  have henabled := settled_enabled room d
  cases old with
  | none =>
      refine ⟨?_, ⟨henabled, henabled⟩, settled_id room d⟩
      simp only [SameSettings, RelayService.synced, ← henabled]
  | some a =>
      have hid := hold a rfl
      refine ⟨?_, ⟨henabled, henabled⟩, hid⟩
      simp only [SameSettings, RelayService.synced, RelayEdits.update, ← henabled, hid,
        ← settled_id room d]

/-! ### What is left of the calls -/

/-- Another call stays. -/
lemma mem_resume {i : ℕ} {rest : Option ServiceCall} {c c' : ServiceCall}
    (hget : s.calls[i]? = some c) (hmem : c' ∈ s.calls) (hne : c' ≠ c) :
    c' ∈ (s.resume i rest).calls := by
  obtain ⟨j, hj⟩ := List.mem_iff_getElem?.mp hmem
  have hij : j ≠ i := by
    rintro rfl
    rw [hj, Option.some.injEq] at hget
    exact hne hget
  cases rest with
  | none => exact List.mem_eraseIdx_iff_getElem?.mpr ⟨j, hij, hj⟩
  | some x =>
      refine List.mem_iff_getElem?.mpr ⟨j, ?_⟩
      simp only [resume]
      rw [List.getElem?_set_ne (Ne.symm hij), hj]

/-- What the call has become is there. -/
lemma mem_resume_rest {i : ℕ} {c c' : ServiceCall} (hget : s.calls[i]? = some c) :
    c' ∈ (s.resume i (some c')).calls :=
  List.mem_set (List.getElem?_eq_some_iff.mp hget).1 c'

lemma Owed.resume {i : ℕ} {c : ServiceCall} {rest : Option ServiceCall} (h : s.Owed)
    (hget : s.calls[i]? = some c)
    (howes : owes c = true → ∃ c', rest = some c' ∧ owes c' = true) :
    (s.resume i rest).Owed := by
  obtain ⟨c', hmem, hc'⟩ := h
  cases hc : owes c with
  | true =>
      obtain ⟨c'', rfl, hc''⟩ := howes hc
      exact ⟨c'', mem_resume_rest hget, hc''⟩
  | false =>
      refine ⟨c', mem_resume hget hmem ?_, hc'⟩
      rintro rfl
      rw [hc] at hc'
      exact absurd hc' (by simp)

lemma Pending.resume {i : ℕ} {c : ServiceCall} {rest : Option ServiceCall} {id : ℤ}
    (h : s.Pending id) (hget : s.calls[i]? = some c) (hc : ∀ on, c ≠ .setSession id on) :
    (s.resume i rest).Pending id := by
  obtain ⟨on, hmem⟩ := h
  exact ⟨on, mem_resume hget hmem (hc on).symm⟩

lemma InLineAt.mono {id : ℤ} (h : s.InLineAt id)
    (hdest : t.store.destination id = s.store.destination id)
    (hroom : t.store.room = s.store.room)
    (hsession : t.service.sessions id = s.service.sessions id)
    (hpending : s.Pending id → t.Pending id) : t.InLineAt id := by
  rw [InLineAt, hdest, hsession, hroom]
  exact RowSession.mono h hpending

/-- The calls go on, and nothing else changes. -/
lemma Tidy.of_calls {flags : ℤ → Option Bool} (h : s.Tidy flags) (hstore : t.store = s.store)
    (hservice : t.service = s.service) (hproper : ∀ c ∈ t.calls, c ∈ s.calls ∨ Proper c)
    (hknown : ∀ id on, ServiceCall.setRow id on ∈ t.calls →
      ServiceCall.setRow id on ∈ s.calls ∨ id ≤ s.store.lastId) : t.Tidy flags where
  proper c hc := (hproper c hc).elim (h.proper c) id
  known id on hmem := by
    rw [hstore]
    exact (hknown id on hmem).elim (h.known id on) (fun hle => hle)
  fresh := by
    rw [hstore]
    exact h.fresh
  named := by
    rw [hservice]
    exact h.named
  flags := by
    rw [hstore]
    exact h.flags

/-- A call goes on, and nothing else changes. -/
lemma InLine.resume {flags : ℤ → Option Bool} {i : ℕ} {c : ServiceCall}
    {rest : Option ServiceCall} (h : s.InLine flags) (horderly : (s.resume i rest).Orderly)
    (hget : s.calls[i]? = some c) (hproper : ∀ c', rest = some c' → Proper c')
    (hknown : ∀ id on, rest = some (.setRow id on) → id ≤ s.store.lastId)
    (howes : owes c = true → ∃ c', rest = some c' ∧ owes c' = true)
    (hc : ∀ id on, c ≠ .setSession id on) : (s.resume i rest).InLine flags := by
  refine ⟨horderly, h.tidy.of_calls rfl rfl (fun c' hc' => ?_) (fun id on hmem => ?_), ?_⟩
  · exact (mem_calls_resume hc').imp_right (hproper c')
  · exact (mem_calls_resume hmem).imp_right (hknown id on)
  · rcases h.sessions with howed | hnone | hline
    · exact .inl (howed.resume hget howes)
    · exact .inr (.inl hnone)
    · exact .inr (.inr fun id =>
        (hline id).mono rfl rfl rfl fun hp => hp.resume hget (hc id))

/-! ### The steps -/

variable {flags : ℤ → Option Bool} {i : ℕ}

lemma lastId_write (w : StoreWrite) : s.store.lastId ≤ (s.write w).store.lastId := by
  cases w with
  | add d => simp [write, RelayStore.add]
  | provider key | storage c | lan c | room r | pairing c | clearPairing | resetIdentity
  | update d | remove id => exact le_refl _

/-- **A write**: the flags are the rows' as before. -/
lemma Tidy.write {w : StoreWrite} {ws : List StoreWrite} {reload : Bool} (h : s.Tidy flags)
    (hsound : s.store.Sound) (hget : s.calls[i]? = some (.writes (w :: ws) reload))
    (hc : s.inOrder (.proceed i) = true) :
    ((s.write w).resume i (some (.writes ws reload))).Tidy flags := by
  have hproper := h.proper _ (List.mem_of_getElem? hget)
  refine ⟨fun c hc => ?_, fun id on hmem => ?_, fun id hid => ?_, ?_, ?_⟩
  · rcases mem_calls_resume hc with hc | hc
    · rw [calls_write] at hc
      exact h.proper c hc
    · rw [← Option.some.inj hc]
      exact ⟨fun d hd => hproper.1 d (List.mem_cons_of_mem _ hd),
        fun hr w' hw' => hproper.2 hr w' (List.mem_cons_of_mem _ hw')⟩
  · rcases mem_calls_resume hmem with hmem | hmem
    · rw [calls_write] at hmem
      exact (h.known id on hmem).trans (lastId_write w)
    · exact absurd hmem (by simp)
  · exact h.fresh id (lt_of_le_of_lt (lastId_write w) hid)
  · simp only [RelayHost.resume, service_write]
    exact h.named
  · cases w with
    | provider key | storage c | lan c | room r | pairing c | clearPairing | resetIdentity =>
        exact h.flags
    | add d =>
        intro d' hd'
        rcases List.mem_append.mp hd' with hd' | hd'
        · exact h.flags d' hd'
        · rw [List.mem_singleton.mp hd']
          have hnone := h.fresh (s.store.lastId + 1) (by omega)
          rw [hnone, hproper.1 d (by simp)]
          rfl
    | update d =>
        intro d' hd'
        obtain ⟨r, hr, rfl⟩ := List.mem_map.mp hd'
        split
        · rename_i heq
          rw [inOrder, hget] at hc
          have hfound := destination_of_mem hsound hr
          rw [heq] at hfound
          simp only [hfound, Option.all_some, decide_eq_true_eq] at hc
          rw [← hc, ← heq]
          exact h.flags r hr
        · exact h.flags r hr
    | remove id =>
        intro d' hd'
        exact h.flags d' (List.mem_of_mem_filter hd')

/-- **A reload under the lock** brings every session into line. -/
lemma InLine.lockReload {r : ReloadRead} (h : s.InLine flags)
    (hget : s.calls[i]? = some (.reload (.ready r)))
    (hc : s.inOrder (.proceed i) = true)
    (horderly : ((s.lockReload r).resume i none).Orderly) :
    ((s.lockReload r).resume i none).InLine flags := by
  rw [inOrder, hget] at hc
  simp only [Bool.and_eq_true, decide_eq_true_eq] at hc
  obtain ⟨hdests, hdelay⟩ := hc
  have hnodup : (r.dests.map (·.id)).Nodup := h.orderly.read r (List.mem_of_getElem? hget)
  have hsound := h.orderly.store
  -- what the sessions are after a reload that had a feeder, whatever they were before
  have hsynced : ∀ (m : ℤ → Option RelayRunning) (n : ℕ),
      (∀ id a, m id = some a → a.edits.dest.id = id) →
      (∀ id a, Lib.reconcile (·.id) (RelayService.synced r.room n) m r.dests id = some a →
        a.edits.dest.id = id) ∧
      ∀ id, RowSession s.store.room False (s.store.destination id)
        (Lib.reconcile (·.id) (RelayService.synced r.room n) m r.dests id) := by
    intro m n hm
    constructor
    · intro id a ha
      obtain ⟨d, -, rfl, rfl⟩ := Lib.reconcile_eq_some hnodup ha
      exact (synced_inLine r.room n (hm d.id)).2.2
    · intro id
      cases hd : s.store.destination id with
      | none =>
          have hno := destination_eq_none hd
          rw [← hdests] at hno
          rw [Lib.reconcile_of_not_mem hno]
          trivial
      | some d =>
          have hmem : d ∈ r.dests := hdests ▸ mem_of_destination hd
          have hid := id_of_destination hd
          subst hid
          rw [Lib.reconcile_of_mem hnodup hmem]
          obtain ⟨hset, hflag, -⟩ := synced_inLine r.room n (hm d.id)
          refine ⟨?_, .inr hflag⟩
          rw [SameSettings, ← settled_of_delay hdelay]
          exact hset
  have htidy : (∀ id a, (s.lockReload r).service.sessions id = some a → a.edits.dest.id = id) →
      ((s.lockReload r).resume i none).Tidy flags := fun hnamed =>
    ⟨fun c hc => h.tidy.proper c (List.mem_of_mem_eraseIdx hc),
      fun id on hmem => h.tidy.known id on (List.mem_of_mem_eraseIdx hmem), h.tidy.fresh, hnamed,
      h.tidy.flags⟩
  have hline : ∀ m, (s.lockReload r).service.sessions = m →
      (∀ id, RowSession s.store.room False (s.store.destination id) (m id)) →
      ∀ id, ((s.lockReload r).resume i none).InLineAt id := by
    rintro m rfl hm id
    exact (hm id).mono False.elim
  rcases lockReload_cases s r with
    ⟨-, heq⟩ | ⟨-, -, hfeeder, hnone⟩ | ⟨-, heq⟩
  · obtain ⟨hnamed, hm⟩ := hsynced s.service.sessions (s.service.reloads + 1) h.tidy.named
    have hsessions : (s.lockReload r).service.sessions = _ :=
      congrArg RelayService.sessions heq
    refine ⟨horderly, htidy ?_, .inr (.inr (hline _ hsessions hm))⟩
    rw [hsessions]
    exact hnamed
  · have hsessions : (s.lockReload r).service.sessions = fun _ => none := hnone
    refine ⟨horderly, htidy ?_, .inr (.inl hfeeder)⟩
    rw [hsessions]
    simp
  · obtain ⟨hnamed, hm⟩ := hsynced (fun _ => none) (s.service.reloads + 1) (by simp)
    have hsessions : (s.lockReload r).service.sessions = _ :=
      congrArg RelayService.sessions heq
    refine ⟨horderly, htidy ?_, .inr (.inr (hline _ hsessions hm))⟩
    rw [hsessions]
    exact hnamed

/-- **A start or a stop sets the row.** -/
lemma InLine.setRow {id : ℤ} {on : Bool} (h : s.InLine flags)
    (hget : s.calls[i]? = some (.setRow id on))
    (horderly : (RelayHost.resume { s with store := s.store.setEnabled id on } i
      (some (.setSession id on))).Orderly) :
    (RelayHost.resume { s with store := s.store.setEnabled id on } i
      (some (.setSession id on))).InLine (Function.update flags id (some on)) := by
  have hknown := h.tidy.known id on (List.mem_of_getElem? hget)
  refine ⟨horderly, ⟨fun c hc => ?_, fun j on' hmem => ?_, fun j hj => ?_, h.tidy.named,
    fun d hd => ?_⟩, ?_⟩
  · rcases mem_calls_resume hc with hc | hc
    · exact h.tidy.proper c hc
    · rw [← Option.some.inj hc]
      trivial
  · rcases mem_calls_resume hmem with hmem | hmem
    · exact h.tidy.known j on' hmem
    · exact absurd hmem (by simp)
  · have hlt : s.store.lastId < j := hj
    rw [Function.update_of_ne (by omega)]
    exact h.tidy.fresh j hlt
  · obtain ⟨r, hr, rfl⟩ := List.mem_map.mp hd
    by_cases heq : r.id = id
    · simp [heq]
    · rw [if_neg heq, Function.update_of_ne heq]
      exact h.tidy.flags r hr
  · rcases h.sessions with howed | hnone | hline
    · exact .inl (Owed.resume (s := { s with store := s.store.setEnabled id on }) howed hget
        (by simp [owes]))
    · exact .inr (.inl hnone)
    · refine .inr (.inr fun j => ?_)
      have hj := hline j
      have hpending : s.Pending j → (RelayHost.resume { s with
          store := s.store.setEnabled id on } i (some (.setSession id on))).Pending j :=
        fun hp => Pending.resume (s := { s with store := s.store.setEnabled id on }) hp hget
          (by simp)
      by_cases heq : j = id
      · -- the session waits for the flag, and has the other settings of the row
        subst heq
        have hwaits : (RelayHost.resume { s with store := s.store.setEnabled j on } i
            (some (.setSession j on))).Pending j := ⟨on, mem_resume_rest hget⟩
        change RowSession s.store.room _ ((s.store.setEnabled j on).destination j)
          (s.service.sessions j)
        rw [InLineAt] at hj
        rw [destination_setEnabled]
        cases hd : s.store.destination j with
        | none =>
            rw [hd] at hj
            exact hj.mono hpending
        | some d =>
            rw [hd] at hj
            cases ha : s.service.sessions j with
            | none =>
                rw [ha] at hj
                exact absurd hj (by simp [RowSession])
            | some a =>
                rw [ha] at hj
                refine ⟨?_, .inl hwaits⟩
                have hsettings := hj.1
                rw [SameSettings] at hsettings ⊢
                dsimp only
                rw [if_pos (id_of_destination hd)]
                have hon : settled s.store.room { d with enabled := on } =
                    { settled s.store.room d with enabled := on } := by
                  simp only [settled]
                  split <;> rfl
                rw [hon, ← hsettings]
      · refine hj.mono ?_ rfl rfl hpending
        change (s.store.setEnabled id on).destination j = s.store.destination j
        rw [destination_setEnabled]
        cases hd : s.store.destination j with
        | none => rfl
        | some d =>
            rw [Option.map_some, if_neg]
            rw [id_of_destination hd]
            exact heq

/-- **A start or a stop sets the session**, to the flag of the row. -/
lemma InLine.setSession {id : ℤ} {on : Bool} (h : s.InLine flags)
    (hget : s.calls[i]? = some (.setSession id on)) (hc : s.inOrder (.proceed i) = true)
    (horderly : (RelayHost.resume { s with service := s.service.setEnabled id on } i
      none).Orderly) :
    (RelayHost.resume { s with service := s.service.setEnabled id on } i none).InLine flags := by
  rw [inOrder, hget] at hc
  dsimp only at hc
  refine ⟨horderly, ⟨fun c hmem => h.tidy.proper c (List.mem_of_mem_eraseIdx hmem),
    fun j on' hmem => h.tidy.known j on' (List.mem_of_mem_eraseIdx hmem), h.tidy.fresh,
    fun j a ha => ?_, h.tidy.flags⟩, ?_⟩
  · simp only [RelayHost.resume] at ha
    by_cases hj : j = id
    · rw [hj, RelayService.sessions_setEnabled, Option.map_eq_some_iff] at ha
      obtain ⟨b, hb, rfl⟩ := ha
      rw [hj]
      exact h.tidy.named id b hb
    · rw [RelayService.sessions_setEnabled_of_ne hj] at ha
      exact h.tidy.named j a ha
  · rcases h.sessions with howed | hnone | hline
    · exact .inl (Owed.resume (s := { s with service := s.service.setEnabled id on }) howed hget
        (by simp [owes]))
    · exact .inr (.inl hnone)
    · refine .inr (.inr fun j => ?_)
      have hj := hline j
      by_cases heq : j = id
      · subst heq
        change RowSession s.store.room _ (s.store.destination j)
          ((s.service.setEnabled j on).sessions j)
        rw [InLineAt] at hj
        rw [RelayService.sessions_setEnabled]
        cases hd : s.store.destination j with
        | none =>
            rw [hd] at hj
            cases ha : s.service.sessions j with
            | none => trivial
            | some a =>
                rw [ha] at hj
                exact absurd hj (by simp [RowSession])
        | some d =>
            rw [hd] at hj
            cases ha : s.service.sessions j with
            | none =>
                rw [ha] at hj
                exact absurd hj (by simp [RowSession])
            | some a =>
                rw [ha] at hj
                rw [hd, Option.all_some, decide_eq_true_eq] at hc
                refine ⟨?_, .inr ⟨hc.symm, hc.symm⟩⟩
                have hsettings := hj.1
                rw [SameSettings] at hsettings ⊢
                rw [← hsettings]
                rfl
      · refine hj.mono rfl rfl ?_ fun hp => ?_
        · exact RelayService.sessions_setEnabled_of_ne heq on
        · refine Pending.resume (s := { s with service := s.service.setEnabled id on }) hp hget
            fun on' hne => ?_
          rw [ServiceCall.setSession.injEq] at hne
          exact heq hne.1.symm

/-- **A request goes on.** -/
lemma InLine.proceed {c : ServiceCall} (h : s.InLine flags) (hget : s.calls[i]? = some c)
    (hc : s.inOrder (.proceed i) = true)
    (horderly : ((s.advance c).1.resume i (s.advance c).2).Orderly) :
    ((s.advance c).1.resume i (s.advance c).2).InLine (s.noteFlags (.proceed i) flags) := by
  cases c with
  | writes ws reload =>
      rw [noteFlags, hget]
      cases ws with
      | nil =>
          refine h.resume horderly hget ?_ ?_ ?_ (by simp)
          · intro c' hc'
            simp only [advance] at hc'
            split at hc'
            · rw [← Option.some.inj hc']
              trivial
            · exact absurd hc' (by simp)
          · intro id on hc'
            simp only [advance] at hc'
            split at hc' <;> simp at hc'
          · intro howes
            simp only [owes] at howes
            exact ⟨.reload .begin, by simp [advance, howes], rfl⟩
      | cons w ws =>
          refine ⟨horderly, h.tidy.write h.orderly.store hget hc, ?_⟩
          have hwrite : (s.write w).calls[i]? = some (.writes (w :: ws) reload) := by
            rw [calls_write, hget]
          cases reload with
          | true => exact .inl ⟨_, mem_resume_rest hwrite, rfl⟩
          | false =>
              -- without a reload behind it, nothing is written that a session goes by
              have hquiet := (h.tidy.proper _ (List.mem_of_getElem? hget)).2 rfl w (by simp)
              have hrows : (s.write w).store.rows = s.store.rows ∧
                  (s.write w).store.room = s.store.room := by
                rcases hquiet with ⟨key, rfl⟩ | ⟨p, rfl⟩ <;> exact ⟨rfl, rfl⟩
              rcases h.sessions with howed | hnone | hline
              · have howed' : (s.write w).Owed := by
                  rw [Owed, calls_write]
                  exact howed
                exact .inl (howed'.resume hwrite (by simp [owes]))
              · refine .inr (.inl ?_)
                change (s.write w).service.feeder = none
                rw [service_write, hnone]
              · refine .inr (.inr fun id => (hline id).mono ?_ hrows.2 ?_ fun hp => ?_)
                · change (s.write w).store.destination id = s.store.destination id
                  rw [RelayStore.destination, RelayStore.destination, hrows.1]
                · change (s.write w).service.sessions id = s.service.sessions id
                  rw [service_write]
                · have hp' : (s.write w).Pending id := by
                    rw [Pending, calls_write]
                    exact hp
                  exact hp'.resume hwrite (by simp)
  | reload pc =>
      rw [noteFlags, hget]
      cases pc with
      | ready r => exact h.lockReload hget hc horderly
      | begin | provider paired | storage c | lan c l | room c l r =>
          exact h.resume horderly hget (by simp [advance, advanceReload, Proper])
            (by simp [advance, advanceReload]) (by simp [advance, advanceReload, owes]) (by simp)
  | edit id body =>
      rw [noteFlags, hget]
      simp only [advance] at horderly ⊢
      split
      · rename_i hnone
        rw [hnone] at horderly
        exact h.resume horderly hget (by simp) (by simp) (by simp [owes]) (by simp)
      · rename_i d hd
        rw [hd] at horderly
        refine h.resume horderly hget ?_ (by simp) (by simp [owes]) (by simp)
        intro c' hc'
        rw [Option.map_eq_some_iff] at hc'
        obtain ⟨d', -, rfl⟩ := hc'
        exact ⟨by simp, by simp⟩
  | startStop id on =>
      rw [noteFlags, hget]
      refine h.resume horderly hget ?_ ?_ (by simp [owes]) (by simp)
      · intro c' hc'
        simp only [advance] at hc'
        split at hc'
        · rw [← Option.some.inj hc']
          trivial
        · exact absurd hc' (by simp)
      · intro j on' hc'
        simp only [advance] at hc'
        split at hc'
        · rename_i hsome
          obtain ⟨d, hd⟩ := Option.isSome_iff_exists.mp hsome
          rw [Option.some.injEq, ServiceCall.setRow.injEq] at hc'
          rw [← hc'.1, ← id_of_destination hd]
          exact h.orderly.store.le d (mem_of_destination hd)
        · exact absurd hc' (by simp)
  | setRow id on =>
      rw [noteFlags, hget]
      exact h.setRow hget horderly
  | setSession id on =>
      rw [noteFlags, hget]
      exact h.setSession hget hc horderly

/-- Requests come in properly. -/
lemma proper_call (q : ServiceRequest) : Proper q.call := by
  cases q with
  | config provider c lan room =>
      refine ⟨fun d hd => ?_, by simp⟩
      cases provider <;> simp at hd
  | refusedConfig provider => exact ⟨by simp, fun _ w hw => .inl ⟨provider, by simpa using hw⟩⟩
  | pairing c => exact ⟨by simp, fun _ w hw => .inr ⟨c, by simpa using hw⟩⟩
  | disconnect => exact ⟨by simp, by simp⟩
  | addDestination d =>
      refine ⟨fun d' hd' => ?_, by simp⟩
      rw [List.mem_singleton, StoreWrite.add.injEq] at hd'
      rw [hd']
  | deleteDestination id => exact ⟨by simp, by simp⟩
  | updateDestination id body | startDestination id | stopDestination id => trivial

/-- More calls, and nothing else. -/
lemma InLine.append {cs : List ServiceCall} (h : s.InLine flags) (hstore : t.store = s.store)
    (hservice : t.service = s.service) (hcalls : t.calls = s.calls ++ cs)
    (hproper : ∀ c ∈ cs, Proper c) (hrows : ∀ id on, ServiceCall.setRow id on ∉ cs)
    (horderly : t.Orderly) : t.InLine flags := by
  have hmem : ∀ c ∈ s.calls, c ∈ t.calls := by
    intro c hc
    rw [hcalls]
    exact List.mem_append_left _ hc
  refine ⟨horderly, h.tidy.of_calls hstore hservice (fun c hc => ?_) (fun id on hc => ?_), ?_⟩
  · rw [hcalls] at hc
    exact (List.mem_append.mp hc).imp_right (hproper c)
  · rw [hcalls] at hc
    exact (List.mem_append.mp hc).imp_right fun hc => absurd hc (hrows id on)
  · rcases h.sessions with ⟨c, hc, howes⟩ | hnone | hline
    · exact .inl ⟨c, hmem c hc, howes⟩
    · exact .inr (.inl (by rw [hservice, hnone]))
    · exact .inr (.inr fun id => (hline id).mono (by rw [hstore]) (by rw [hstore])
        (by rw [hservice]) fun ⟨on, hon⟩ => ⟨on, hmem _ hon⟩)

/-- **One step.** -/
lemma InLine.step {a : ServiceAction} (h : s.InLine flags) (hc : s.inOrder a = true)
    (ht : s.step a = some t) : t.InLine (s.noteFlags a flags) := by
  have horderly := h.orderly.step ht
  cases a with
  | request q =>
      rw [RelayHost.step, Option.some.injEq] at ht
      subst ht
      refine h.append rfl rfl rfl ?_ ?_ horderly
      · intro c hc'
        rw [List.mem_singleton.mp hc']
        exact proper_call q
      · intro id on hmem
        have heq := List.mem_singleton.mp hmem
        cases q <;> simp [ServiceRequest.call] at heq
  | proceed i =>
      rw [RelayHost.step] at ht
      cases hget : s.calls[i]? with
      | none => simp [hget] at ht
      | some c =>
          simp only [hget, Option.some.injEq] at ht
          subst ht
          exact h.proceed hget hc horderly
  | refuse i =>
      rw [RelayHost.step] at ht
      split at ht
      · rename_i id hget
        rw [Option.some.injEq] at ht
        subst ht
        exact h.resume horderly hget (by simp) (by simp) (by simp [owes]) (by simp)
      · exact absurd ht (by simp)
  | fetch nowMs =>
      rw [RelayHost.step, Option.ite_none_right_eq_some, Option.some.injEq] at ht
      obtain ⟨-, rfl⟩ := ht
      exact h.append rfl rfl (List.append_nil _).symm (by simp) (by simp) horderly
  | fetched q nowMs =>
      rw [RelayHost.step] at ht
      split at ht
      · exact absurd ht (by simp)
      · rw [Option.some.injEq] at ht
        subst ht
        refine h.append rfl rfl rfl ?_ ?_ horderly
        · intro c hc'
          split at hc'
          · rw [List.mem_singleton.mp hc']
            trivial
          · exact absurd hc' (by simp)
        · intro id on hmem
          split at hmem <;> simp at hmem
  | enrol e =>
      rw [RelayHost.step, Option.some.injEq] at ht
      subst ht
      exact h.append rfl rfl (List.append_nil _).symm (by simp) (by simp) horderly
  | send =>
      rw [RelayHost.step, Option.ite_none_right_eq_some, Option.some.injEq] at ht
      obtain ⟨-, rfl⟩ := ht
      exact h.append rfl rfl (List.append_nil _).symm (by simp) (by simp) horderly

end RelayHost

/-! ### The statement -/

namespace RelayHost

/-- What runs is what is stored: each row has its session, with its settings and its flag, and
each session its row. -/
def RunsStored (s : RelayHost) : Prop :=
  ∀ id, RowSession s.store.room False (s.store.destination id) (s.service.sessions id)

/-- A relay that has just started, with the flags its rows were saved with. -/
def StartedFlags (x : RelayHost × (ℤ → Option Bool)) : Prop :=
  ∃ store : RelayStore, store.Sound ∧
    x = (boot store, fun id => (store.destination id).map (·.enabled))

end RelayHost

open RelayHost in
/-- **What runs is what is stored**, in every run whose steps come in order: once all requests
have finished and the relay has a feeder, the sessions are the rows'; and a row's flag is at all
times the one last set by a start or a stop. -/
theorem runs_what_is_stored {x : RelayHost × (ℤ → Option Bool)}
    (h : Lib.Reach (Lib.noted RelayHost.step noteFlags) (fun x a => x.1.inOrder a = true)
      StartedFlags x) :
    (x.1.calls = [] → x.1.service.feeder ≠ none → x.1.RunsStored) ∧
      ∀ d ∈ x.1.store.rows, d.enabled = (x.2 d.id).getD false := by
  have hline : x.1.InLine x.2 := by
    refine h.invariant (I := fun x => x.1.InLine x.2) ?_ ?_
    · rintro _ ⟨store, hstore, rfl⟩
      refine ⟨orderly_boot hstore, ⟨?_, by simp [boot], fun id hid => ?_, by simp [boot], fun d hd => ?_⟩,
        .inr (.inl rfl)⟩
      · intro c hc
        rw [List.mem_singleton.mp hc]
        trivial
      · cases hd : store.destination id with
        | none => simp [hd]
        | some d =>
            have hle := hstore.le d (mem_of_destination hd)
            rw [id_of_destination hd] at hle
            exact absurd hid (not_lt.mpr hle)
      · have hd' : d ∈ store.rows := hd
        simp [destination_of_mem hstore hd']
    · rintro ⟨s, flags⟩ a ⟨t, flags'⟩ hs hc ht
      obtain ⟨ht, rfl⟩ := Lib.noted_eq_some.mp ht
      exact hs.step hc ht
  refine ⟨fun hcalls hfed => ?_, hline.tidy.flags⟩
  rcases hline.sessions with ⟨c, hc, -⟩ | hnone | hline
  · rw [hcalls] at hc
    exact absurd hc (by simp)
  · exact absurd hnone hfed
  · refine fun id => RowSession.mono (hline id) ?_
    rintro ⟨on, hon⟩
    rw [hcalls] at hon
    exact absurd hon (by simp)

/-! ### Runs -/

namespace RelayHost

/-- A database with a bucket typed in, and a destination that is stopped. -/
def typedStore : RelayStore :=
  { storage := { endpointHost := "e", bucket := "b", accessKeyId := "k", secretAccessKey := "s" }
    rows := [{ id := 1, name := "a", url := "rtmp://x", delayS := 60 }]
    lastId := 1 }

lemma sound_typedStore : typedStore.Sound := ⟨by simp [typedStore], by simp [typedStore]⟩

/-- The flags its rows are saved with. -/
def typedFlags : ℤ → Option Bool := fun id => (typedStore.destination id).map (·.enabled)

/-- The first reload. -/
def typedFed : List ServiceAction := List.replicate 6 (.proceed 0)

/-- A destination added, to the point where the reload behind it has read. -/
def addedRead (name : String) (i : ℕ) : List ServiceAction :=
  .request (.addDestination { name, url := "rtmp://y" }) :: List.replicate 7 (.proceed i)

end RelayHost

open RelayHost in
theorem runs_what_is_stored_edited : ∃ x : RelayHost × (ℤ → Option Bool),
    x.1.RunsStored ∧ (x.1.store.destination 1).map (·.enabled) = some true ∧
      ∀ d ∈ x.1.store.rows, d.enabled = (x.2 d.id).getD false := by
  obtain ⟨x, hx, hcalls, hfed, hon⟩ := (Lib.exists_reach_guarded
    ((boot typedStore, typedFlags) : RelayHost × (ℤ → Option Bool))
    (typedFed ++ addedRead "b" 0 ++ [ServiceAction.proceed 0] ++
      [ServiceAction.request (.startDestination 1), .proceed 0, .proceed 0, .proceed 0])
    ⟨typedStore, sound_typedStore, rfl⟩ (by decide +kernel) :
    ∃ x, Lib.Reach (Lib.noted RelayHost.step noteFlags) (fun x a => x.1.inOrder a = true)
        StartedFlags x ∧
      x.1.calls.length = 0 ∧ x.1.service.feeder.isSome = true ∧
        (x.1.store.destination 1).map (·.enabled) = some true)
  have hline := runs_what_is_stored hx
  refine ⟨x, hline.1 (List.eq_nil_of_length_eq_zero hcalls) ?_, hon, hline.2⟩
  intro hnone
  rw [hnone] at hfed
  exact absurd hfed (by simp)

open RelayHost in
/-- Two destinations added, and the reload that read the first alone takes the lock last: the second
has no session.  An edit that read the row, a start, and then the write of the edit: the row is
stopped. -/
theorem stale_applied :
    (∃ x, Lib.Reach (Lib.noted RelayHost.step noteFlags) Lib.anyStep StartedFlags x ∧
      x.1.calls.length = 0 ∧ x.1.service.feeder.isSome = true ∧
        (x.1.store.destination 3).isSome = true ∧ x.1.service.sessions 3 = none) ∧
    ∃ x, Lib.Reach (Lib.noted RelayHost.step noteFlags) Lib.anyStep StartedFlags x ∧
      x.1.calls.length = 0 ∧ x.2 1 = some true ∧
        (x.1.store.destination 1).map (·.enabled) = some false :=
  ⟨Lib.exists_reach ((boot typedStore, typedFlags) : RelayHost × (ℤ → Option Bool))
    (typedFed ++ addedRead "b" 0 ++ addedRead "c" 1 ++ [ServiceAction.proceed 1, .proceed 0])
    ⟨typedStore, sound_typedStore, rfl⟩ (by decide +kernel),
  Lib.exists_reach ((boot typedStore, typedFlags) : RelayHost × (ℤ → Option Bool))
    (typedFed ++ [ServiceAction.request (.updateDestination 1 fun d => some { d with name := "z" }),
      .proceed 0, .request (.startDestination 1), .proceed 1, .proceed 1, .proceed 1] ++
      List.replicate 8 (.proceed 0))
    ⟨typedStore, sound_typedStore, rfl⟩ (by decide +kernel)⟩

end Multisite

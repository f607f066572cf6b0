import Multisite.Finisher.Termination

/-!
`EventFinisher::run_once`, one pass after the other: ended folders with nothing
owed are removed, and the others finished oldest first, up to the first that
cannot be.

* `finish_unhindered`: an event is finished whatever is answered for the others
  exactly when it is the first in the list and can be finished at all: a call
  that fails ends the pass.
-/

namespace Multisite

/-- Where the finisher's thread stands. -/
inductive Pass where
  /-- Between two passes. -/
  | idle
  /-- In the loop over the events listed, with these still to be tried. -/
  | scanning (ids : List String)
  /-- In `finish`. -/
  | finishing (id : String) (rest : List String) (pc : FinishPc)
  deriving DecidableEq, Repr

/-- `EventFinisher` and the world it works in. -/
structure Finisher where
  root : Root
  store : Store
  pass : Pass := .idle

namespace Finisher

variable (sha : Bytes → String) (window : ℕ)

/-- **One step** of the passes. -/
def step (t : Tick) (x : Finisher) : Finisher :=
  match x.pass with
  | .idle =>
      let r := x.root.removeFinished.1
      { x with root := r, pass := .scanning r.finishingEvents }
  | .scanning [] => { x with pass := .idle }
  | .scanning (id :: rest) =>
      if t.halt || !t.mayUpload then { x with pass := .idle }
      else { x with pass := .finishing id rest .reading }
  | .finishing _ rest (.returned true) => { x with pass := .scanning rest }
  | .finishing _ _ (.returned false) => { x with pass := .idle }
  | .finishing id rest pc =>
      let f := Finishing.step sha window id t { root := x.root, store := x.store, pc }
      { root := f.root, store := f.store, pass := .finishing id rest f.pc }

/-- The passes after `n` steps. -/
def run (env : ℕ → Tick) (x : Finisher) (n : ℕ) : Finisher := Lib.trace (step sha window) env x n

/-- The event is finished: its end is published and its folder is gone. -/
def Ended (id : String) (x : Finisher) : Prop := x.root.folder id = none ∧ Published id x.store

variable {sha window} {t : Tick} {x : Finisher} {b : String} {rest : List String} {pc : FinishPc}

/-- In `finish`, a step is one of the call. -/
lemma step_finishing (hp : x.pass = .finishing b rest pc) (hpc : ∀ ok, pc ≠ .returned ok) :
    step sha window t x =
      { root := (Finishing.again sha window b t ⟨x.root, x.store, pc⟩).root
        store := (Finishing.again sha window b t ⟨x.root, x.store, pc⟩).store
        pass := .finishing b rest (Finishing.again sha window b t ⟨x.root, x.store, pc⟩).pc } := by
  rw [step, hp, Finishing.again]
  cases pc with
  | returned ok => exact absurd rfl (hpc ok)
  | _ => rfl

/-! ### An event that comes first -/

/-- The event is ready to be finished, first in the list. -/
structure First (sha : Bytes → String) (b : String) (r : Root) (st : Store) : Prop where
  underway : Finishing.Underway sha b { root := r, store := st }
  owed : ∃ d, r.folder b = some d ∧ Root.owed d = true
  head : r.finishingEvents.head? = some b

/-- The first pass up to the end of the event's call. -/
def Serving (sha : Bytes → String) (b : String) (x : Finisher) : Prop :=
  match x.pass with
  | .idle => First sha b x.root x.store
  | .scanning ids => First sha b x.root x.store ∧ ids = x.root.finishingEvents
  | .finishing id _ pc =>
      id = b ∧ Finishing.Underway sha b { root := x.root, store := x.store, pc } ∧
        pc ≠ .returned false

/-- How far the event is from its end. -/
def rank (b : String) (x : Finisher) : ℕ :=
  match x.pass with
  | .idle => 8 * files (x.root.folder b) + 22
  | .scanning _ => 8 * files (x.root.folder b) + 21
  | .finishing _ _ pc => Finishing.rank b { root := x.root, store := x.store, pc }

lemma First.removeFinished {r : Root} {st : Store} (h : First sha b r st) :
    First sha b r.removeFinished.1 st ∧ r.removeFinished.1.folder b = r.folder b := by
  obtain ⟨d, hd, howed⟩ := h.owed
  have hfolder : r.removeFinished.1.folder b = r.folder b :=
    (Root.folder_removeFinished_of_owed hd howed).trans hd.symm
  refine ⟨⟨⟨?_, ?_, ?_, ?_, h.underway.tells, trivial⟩, ⟨d, hfolder.trans hd, howed⟩, ?_⟩, hfolder⟩
  · exact (congrArg _ (Root.loose_removeFinished r)).trans h.underway.loose
  · rw [Finishing.folder, hfolder]
    exact h.underway.isSome
  · rw [Finishing.folder, hfolder]
    exact h.underway.drains
  · rw [Finishing.folder, hfolder]
    exact h.underway.labelled
  · rw [Root.finishingEvents, Root.found_removeFinished]
    exact h.head

/-- **One step** while the event is served. -/
lemma Serving.step (hb : b ≠ "") (h : Serving sha b x) (ht : t.Serves b) :
    (Serving sha b (step sha window t x) ∨ Ended b (step sha window t x)) ∧
      rank b (Finisher.step sha window t x) < rank b x := by
  cases hp : x.pass with
  | idle =>
      rw [Serving, hp] at h
      obtain ⟨hfirst, hfolder⟩ := h.removeFinished
      rw [Finisher.step, hp, rank, rank, hp]
      refine ⟨Or.inl ⟨hfirst, rfl⟩, ?_⟩
      dsimp only
      rw [hfolder]
      omega
  | scanning ids =>
      rw [Serving, hp] at h
      obtain ⟨hfirst, rfl⟩ := h
      obtain ⟨rest, hids⟩ : ∃ rest, x.root.finishingEvents = b :: rest := by
        have hhead := hfirst.head
        cases hfe : x.root.finishingEvents with
        | nil => rw [hfe] at hhead; exact absurd hhead (by simp)
        | cons a rest =>
            rw [hfe, List.head?_cons, Option.some.injEq] at hhead
            exact ⟨rest, by rw [hhead]⟩
      rw [Finisher.step, rank, rank, hp, hids]
      dsimp only
      rw [if_neg (by simp [ht.halt, ht.mayUpload])]
      refine ⟨Or.inl ⟨rfl, hfirst.underway, by rintro ⟨⟩⟩, ?_⟩
      show 8 * files (x.root.folder b) + 20 < _
      omega
  | finishing id rest pc =>
      rw [Serving, hp] at h
      obtain ⟨rfl, hu, hpc⟩ := h
      have hret : ∀ ok, pc ≠ .returned ok := by
        rintro ok rfl
        cases ok with
        | true => exact hu.at_
        | false => exact hpc rfl
      have hm : Finishing.Moves sha id t _ (Finishing.again sha window id t _) := hu.again hb
      obtain ⟨hgo, hrank⟩ := hm.closer ht
      rw [step_finishing hp hret, rank, rank, hp]
      exact ⟨hm.next.imp (fun hn => ⟨rfl, hn, hgo⟩) fun hn => hn.2, hrank⟩

/-- An event that comes first is finished, whatever is answered for the others. -/
theorem First.ends {r : Root} {st : Store} (h : First sha b r st) (hb : b ≠ "") {env : ℕ → Tick}
    (henv : ∀ n, (env n).Serves b) :
    ∃ n, Ended b (run sha window env { root := r, store := st } n) := by
  refine Lib.eventually_of_rank (I := fun x => Serving sha b x ∨ Ended b x) (N := 0) (rank b)
    (fun n _ x hx hne => ?_) (Or.inl h)
  exact (hx.resolve_right hne).step hb (henv n)

/-! ### An event that does not -/

/-- A root that lists what `r` lists and holds the folder of `b`. -/
structure Like (r : Root) (b : String) (d : Folder) (r' : Root) : Prop where
  loose : r'.loose.state = none
  found : r'.found = r.found
  folder : r'.folder b = some d

lemma Like.removeFinished {r r' : Root} {d : Folder} (h : Like r b d r')
    (howed : Root.owed d = true) : Like r b d r'.removeFinished.1 where
  loose := (congrArg _ (Root.loose_removeFinished r')).trans h.loose
  found := (Root.found_removeFinished r').trans h.found
  folder := Root.folder_removeFinished_of_owed h.folder howed

lemma Like.finishingEvents {r r' : Root} {d : Folder} (h : Like r b d r') :
    r'.finishingEvents = r.finishingEvents := by
  rw [Root.finishingEvents, Root.finishingEvents, h.found]

/-- Every request is answered but those for the manifest of `a`. -/
def denies (a : String) : Tick := { ok := fun k => decide (k ≠ .manifest a) }

/-- The passes when the call of the first event `a` fails before it does anything:
the pass fails with it. -/
structure HeldBack (r : Root) (st : Store) (b : String) (d : Folder) (a : String)
    (x : Finisher) : Prop where
  like : Like r b d x.root
  store : x.store = st
  pass : x.pass = .idle ∨ x.pass = .scanning r.finishingEvents ∨ ∃ rest pc,
    x.pass = .finishing a rest pc ∧ (pc = .reading ∨ pc = .returned false ∨
      pc = .readingEvent ∧ st (.manifest a) = none ∧ ¬Tells a st)

/-- A call that is denied its manifest, or finds no document to go by, fails. -/
lemma again_fails {r : Root} {st : Store} {a : String}
    (ht : t.ok (.manifest a) = false ∨ ¬Tells a st)
    (hpc : pc = .reading ∨ pc = .readingEvent ∧ st (.manifest a) = none ∧ ¬Tells a st) :
    Finishing.again sha window a t ⟨r, st, pc⟩ = ⟨r, st, .returned false⟩ ∨
      Finishing.again sha window a t ⟨r, st, pc⟩ = ⟨r, st, .readingEvent⟩ ∧
        st (.manifest a) = none ∧ ¬Tells a st := by
  rcases hpc with rfl | ⟨rfl, hnone, htells⟩ <;> rw [Finishing.again] <;> dsimp only <;>
    rw [Finishing.step] <;> dsimp only <;> split
  · exact Or.inl rfl
  · rename_i hok
    have htells : ¬Tells a st := ht.resolve_left (by simpa using hok)
    split
    · rename_i m hm
      exact absurd (Or.inl (by rw [Store.manifest, hm]; rfl)) htells
    · exact Or.inl rfl
    · rename_i hnone
      exact Or.inr ⟨rfl, hnone, htells⟩
  · exact Or.inl rfl
  · split
    · rename_i e he
      exact absurd (Or.inr ⟨hnone, by rw [Store.event, he]; rfl⟩) htells
    · exact Or.inl rfl

lemma HeldBack.step {r : Root} {st : Store} {d : Folder} {a : String}
    (ht : t.ok (.manifest a) = false ∨ ¬Tells a st) (howed : Root.owed d = true)
    (ha : r.finishingEvents.head? = some a) (h : HeldBack r st b d a x) :
    HeldBack r st b d a (step sha window t x) := by
  rcases h.pass with hp | hp | ⟨rest, pc, hp, hpc⟩
  · have hlike := h.like.removeFinished howed
    rw [Finisher.step, hp]
    exact ⟨hlike, h.store, Or.inr (Or.inl (by rw [← hlike.finishingEvents]))⟩
  · rw [Finisher.step, hp]
    cases hfe : r.finishingEvents with
    | nil => rw [hfe] at ha; exact absurd ha (by simp)
    | cons y rest =>
        rw [hfe, List.head?_cons, Option.some.injEq] at ha
        subst ha
        dsimp only
        split
        · exact ⟨h.like, h.store, Or.inl rfl⟩
        · exact ⟨h.like, h.store, Or.inr (Or.inr ⟨rest, _, rfl, Or.inl rfl⟩)⟩
  · by_cases hret : pc = .returned false
    · subst hret
      rw [Finisher.step, hp]
      exact ⟨h.like, h.store, Or.inl rfl⟩
    have hearly : pc = .reading ∨ pc = .readingEvent ∧ st (.manifest a) = none ∧ ¬Tells a st := by
      tauto
    rw [step_finishing hp (by rcases hearly with rfl | ⟨rfl, -⟩ <;> rintro ok ⟨⟩), h.store]
    rcases again_fails ht hearly with hs | ⟨hs, hno⟩ <;> rw [hs]
    · exact ⟨h.like, rfl, Or.inr (Or.inr ⟨rest, _, rfl, Or.inr (Or.inl rfl)⟩)⟩
    · exact ⟨h.like, rfl, Or.inr (Or.inr ⟨rest, _, rfl, Or.inr (Or.inr ⟨rfl, hno⟩)⟩)⟩

/-- An event behind one whose call fails is never finished. -/
lemma HeldBack.never {r : Root} {st : Store} {d : Folder} {a : String} {env : ℕ → Tick}
    (henv : ∀ n, (env n).ok (.manifest a) = false ∨ ¬Tells a st) (howed : Root.owed d = true)
    (ha : r.finishingEvents.head? = some a) (h : HeldBack r st b d a x) (n : ℕ) :
    ¬Ended b (run sha window env x n) := by
  have hn : HeldBack r st b d a (run sha window env x n) :=
    Lib.trace_invariant (I := HeldBack r st b d a) (fun m y hy => hy.step (henv m) howed ha) h n
  intro hend
  exact absurd (hn.like.folder.symm.trans hend.1) (by simp)

/-! ### An event that comes first and cannot be finished -/

/-- The passes when the first event cannot be finished: in its wait loop for ever,
or its call fails with nothing done. -/
structure Trapped (sha : Bytes → String) (r : Root) (st : Store) (b : String) (d : Folder)
    (x : Finisher) : Prop where
  pass : (x.pass = .idle ∨ x.pass = .scanning r.finishingEvents) ∧ Like r b d x.root ∧ x.store = st ∨
    ∃ rest pc, x.pass = .finishing b rest pc ∧
      Finishing.Hopeless sha b { root := x.root, store := x.store, pc } ∧
      (Finishing.InLoop pc ∨ Like r b d x.root ∧ x.store = st)

/-- Before its wait loop a call changes nothing. -/
lemma again_early {f : Finishing} (hpc : f.pc = .reading ∨ f.pc = .readingEvent) :
    Finishing.InLoop (Finishing.again sha window b t f).pc ∨
      (Finishing.again sha window b t f).root = f.root ∧
        (Finishing.again sha window b t f).store = f.store := by
  rw [Finishing.again]
  rcases hpc with hpc | hpc <;> rw [hpc] <;> dsimp only <;> rw [Finishing.step, hpc] <;>
    dsimp only <;> split
  · exact Or.inr ⟨rfl, rfl⟩
  · split
    · exact Or.inl trivial
    · exact Or.inr ⟨rfl, rfl⟩
    · exact Or.inr ⟨rfl, rfl⟩
  · exact Or.inr ⟨rfl, rfl⟩
  · split
    · exact Or.inl trivial
    · exact Or.inr ⟨rfl, rfl⟩

lemma Trapped.step {r : Root} {st : Store} {d : Folder} (hb : b ≠ "") (ht : t.Good)
    (howed : Root.owed d = true) (hhead : r.finishingEvents.head? = some b)
    (hno : ¬(Drains sha (some d) ∧ Tells b st)) (h : Trapped sha r st b d x) :
    Trapped sha r st b d (step sha window t x) := by
  rcases h.pass with ⟨hp | hp, hlike, hst⟩ | ⟨rest, pc, hp, hh, hor⟩
  · have hlike' := hlike.removeFinished howed
    rw [Finisher.step, hp]
    exact ⟨Or.inl ⟨Or.inr (by rw [← hlike'.finishingEvents]), hlike', hst⟩⟩
  · rw [Finisher.step, hp]
    cases hfe : r.finishingEvents with
    | nil => rw [hfe] at hhead; exact absurd hhead (by simp)
    | cons y rest =>
        rw [hfe, List.head?_cons, Option.some.injEq] at hhead
        subst hhead
        dsimp only
        rw [if_neg (by simp [ht.halt, ht.mayUpload])]
        refine ⟨Or.inr ⟨rest, .reading, rfl, ⟨hlike.loose, ?_, ?_⟩, Or.inr ⟨hlike, hst⟩⟩⟩
        · rw [Finishing.folder, hlike.folder]
          rfl
        · rw [Finishing.folder, hlike.folder, hst]
          exact hno
  · by_cases hret : ∀ ok, pc ≠ .returned ok
    · rw [step_finishing hp hret]
      have hstays : Finishing.Stays sha b _ (Finishing.again sha window b t _) := hh.again ht hb
      refine ⟨Or.inr ⟨rest, _, rfl, hstays.next, ?_⟩⟩
      rcases hor with hloop | ⟨hlike, hst⟩
      · exact Or.inl (hstays.loop hloop)
      · have hat := hh.at_
        have hearly : Finishing.InLoop pc ∨ pc = .reading ∨ pc = .readingEvent := by
          cases pc with
          | reading => exact Or.inr (Or.inl rfl)
          | readingEvent => exact Or.inr (Or.inr rfl)
          | returned ok => exact absurd rfl (hret ok)
          | publishing j => exact hat.elim
          | endEvent => exact hat.elim
          | endLive room => exact hat.elim
          | endPut room lp => exact hat.elim
          | _ => exact Or.inl trivial
        rcases hearly with hloop | hearly
        · exact Or.inl (hstays.loop hloop)
        · refine (again_early hearly).imp_right fun hsame => ?_
          rw [hsame.1, hsame.2]
          exact ⟨hlike, hst⟩
    · obtain ⟨ok, rfl⟩ : ∃ ok, pc = .returned ok := by
        by_contra hcon
        exact hret fun ok e => hcon ⟨ok, e⟩
      obtain ⟨hlike, hst⟩ := hor.resolve_left id
      cases ok with
      | true => exact hh.at_.elim
      | false =>
          rw [Finisher.step, hp]
          exact ⟨Or.inl ⟨Or.inl rfl, hlike, hst⟩⟩

/-- An event that cannot be finished never is. -/
lemma Trapped.never {r : Root} {st : Store} {d : Folder} (hb : b ≠ "")
    (howed : Root.owed d = true) (hhead : r.finishingEvents.head? = some b)
    (hno : ¬(Drains sha (some d) ∧ Tells b st)) (h : Trapped sha r st b d x) (n : ℕ) :
    ¬Ended b (run sha window (fun _ => {}) x n) := by
  have hn : Trapped sha r st b d (run sha window (fun _ => {}) x n) :=
    Lib.trace_invariant (I := Trapped sha r st b d)
      (fun _ y hy => hy.step hb Tick.good_default howed hhead hno) h n
  intro hend
  rcases hn.pass with ⟨-, hlike, -⟩ | ⟨rest, pc, -, hh, -⟩
  · exact absurd (hlike.folder.symm.trans hend.1) (by simp)
  · have := hh.isSome
    rw [Finishing.folder, hend.1] at this
    exact absurd this (by simp)

end Finisher

/-! ### The result -/

/-- **When an event is finished whatever happens to the others.**  Passes in which
every request for the event is answered finish it, whatever is answered for the
others, exactly when it is the first of the events listed, its folder drains, and
the bucket says what it was. -/
theorem finish_unhindered (sha : Bytes → String) (window : ℕ) {b : String} (hb : b ≠ "") {r : Root}
    {st : Store} {d : Folder} (hloose : r.loose.state = none) (hd : r.folder b = some d)
    (howed : Root.owed d = true) (hlab : Labelled b (some d)) :
    (∀ env : ℕ → Tick, (∀ n, (env n).Serves b) →
      ∃ n, Finisher.Ended b (Finisher.run sha window env { root := r, store := st } n)) ↔
    r.finishingEvents.head? = some b ∧ Drains sha (some d) ∧ Tells b st := by
  have hlike : Finisher.Like r b d r := ⟨hloose, rfl, hd⟩
  constructor
  · intro h
    obtain ⟨a, ha⟩ : ∃ a, r.finishingEvents.head? = some a := by
      have hmem : b ∈ r.finishingEvents := Root.mem_finishingEvents.mpr ⟨d, hd, howed⟩
      cases hfe : r.finishingEvents with
      | nil => rw [hfe] at hmem; exact absurd hmem (by simp)
      | cons a rest => exact ⟨a, rfl⟩
    obtain rfl : a = b := by
      by_contra hab
      have hserves : (Finisher.denies a).Serves b :=
        ⟨rfl, rfl, fun k hk => decide_eq_true fun e => hab (by rw [e] at hk; exact hk)⟩
      obtain ⟨n, hn⟩ := h (fun _ => Finisher.denies a) fun _ => hserves
      have hdenied : (Finisher.denies a).ok (.manifest a) = false := by simp [Finisher.denies]
      exact Finisher.HeldBack.never (fun _ => Or.inl hdenied) howed ha ⟨hlike, rfl, Or.inl rfl⟩ n hn
    refine ⟨ha, ?_⟩
    by_contra hno
    obtain ⟨n, hn⟩ := h (fun _ => {}) fun _ => Tick.good_default.serves a
    exact Finisher.Trapped.never hb howed ha hno ⟨Or.inl ⟨Or.inl rfl, hlike, rfl⟩⟩ n hn
  · rintro ⟨hhead, hdrains, htells⟩ env henv
    refine Finisher.First.ends ⟨⟨hloose, ?_, ?_, ?_, htells, trivial⟩, ⟨d, hd, howed⟩, hhead⟩ hb henv <;>
      rw [Finishing.folder, hd]
    · rfl
    · exact hdrains
    · exact hlab

/-- An event that Go Live never published: it has no segment and no document, and
its end is owed. -/
def neverPublished : Folder where
  state := some (.parsed
    { eventId := "b", ended := true, endUnpublished := true, lastActivityMs := 1 })

/-- The event that comes first is finished while everything asked for the other is
denied. -/
theorem finish_unhindered_oneLeft :
    ∃ n, Finisher.Ended "a" (Finisher.run (fun _ => "") 50 (fun _ => Finisher.denies "b")
      { root := (Root.holding "b" neverPublished).setFolder "a" (some oneLeft)
        store := Store.empty.put (.manifest "a") (.manifest {}) } n) := by
  refine (finish_unhindered (fun _ => "") 50 (by decide) rfl (Root.folder_setFolder_self _ _ _) rfl
    labelled_oneLeft).mpr ⟨by decide +kernel, drains_oneLeft _, Or.inl (by simp)⟩ _ fun _ => ?_
  refine ⟨rfl, rfl, fun k hk => decide_eq_true ?_⟩
  rintro rfl
  exact absurd (show "b" = "a" from hk) (by decide)

/-- Behind it, an event that could be finished waits for ever, however every
request is answered. -/
theorem finish_held_back :
    ¬∀ env : ℕ → Tick, (∀ n, (env n).Serves "a") →
      ∃ n, Finisher.Ended "a" (Finisher.run (fun _ => "") 50 env
        { root := (Root.holding "b" neverPublished).setFolder "a"
            (some { oneLeft with state := some (.parsed
              { eventId := "a", ended := true, lastActivityMs := 2 }) })
          store := Store.empty.put (.manifest "a") (.manifest {}) } n) := by
  intro h
  obtain ⟨n, hn⟩ := h (fun _ => {}) fun _ => Tick.good_default.serves "a"
  refine Finisher.HeldBack.never (a := "b") (fun _ => Or.inr ?_) rfl (by decide +kernel)
    ⟨⟨rfl, rfl, Root.folder_setFolder_self _ _ _⟩, rfl, Or.inl rfl⟩ n hn
  rintro (hm | ⟨-, he⟩)
  · exact absurd hm (by decide)
  · exact absurd he (by decide)

end Multisite

import Multisite.Lib.Progress
import Multisite.Session.Runs
import Multisite.Finisher.Folder

/-!
When finishing an event ends.

`Finishing.again` calls `finish` until it succeeds.  From a folder that drains,
and a bucket that says what the event was (`Tells`), the calls end once requests
are answered, whatever was answered before; from any other they never do, however
every request is answered.

* `Underway`: the invariant of a call that will succeed, `Hopeless` that of one
  that will not;
* `rank`: what every answered step of the first lowers.
-/

namespace Multisite

/-! ### What is asked of the world -/

/-- The key is one of the event's, or a room's live pointer. -/
def Key.OfEvent (id : String) : Key → Prop
  | .live _ => True
  | .roomEvent _ i | .event i | .init i | .segment i _ | .manifest i | .markers i => i = id

/-- The event's requests are answered, and nothing holds the finisher back. -/
structure Tick.Serves (t : Tick) (id : String) : Prop where
  mayUpload : t.mayUpload = true
  halt : t.halt = false
  ok : ∀ k : Key, k.OfEvent id → t.ok k = true

/-- Every request is answered, and nothing holds the finisher back. -/
structure Tick.Good (t : Tick) : Prop where
  mayUpload : t.mayUpload = true
  halt : t.halt = false
  ok : ∀ k, t.ok k = true

lemma Tick.Good.serves {t : Tick} (h : t.Good) (id : String) : t.Serves id :=
  ⟨h.mayUpload, h.halt, fun k _ => h.ok k⟩

lemma Tick.good_default : ({} : Tick).Good := ⟨rfl, rfl, fun _ => rfl⟩

/-- Every sidecar of the folder names the object its segment goes to. -/
def Labelled (id : String) (d : Option Folder) : Prop :=
  ∀ s m, sidecar d s = some m → m.key = .segment id s

/-- The bucket says what the event was: a manifest that parses, or none and an
`event.json` that parses. -/
def Tells (id : String) (st : Store) : Prop :=
  (st.manifest id).isSome ∨ st (.manifest id) = none ∧ (st.event id).isSome

/-- The stored manifest says that the event has ended. -/
def EndStored (id : String) (st : Store) : Prop :=
  ∃ m, st.manifest id = some m ∧ m.status = .ended

/-- The end is published: the manifest says so, and so does the live pointer of the
event's room unless it is about another event. -/
def Published (id : String) (st : Store) : Prop :=
  EndStored id st ∧ ∀ e lp, st.event id = some e → e.roomId ≠ "" → st.live e.roomId = some lp →
    lp.eventId = id → lp.status = .ended

namespace Finishing

variable (sha : Bytes → String) (window : ℕ) (id : String)

/-- The folder of the event. -/
def folder (f : Finishing) : Option Folder := f.root.folder id

/-- The call has succeeded: the end is published and the folder is gone. -/
def Ended (f : Finishing) : Prop :=
  f.pc = .returned true ∧ f.folder id = none ∧ Published id f.store

/-- The calls of `finish` one after the other, after `n` steps. -/
def run (env : ℕ → Tick) (f : Finishing) (n : ℕ) : Finishing :=
  Lib.trace (again sha window id) env f n

/-! ### Calls that succeed -/

/-- The wait loop of a call that will succeed. -/
structure Waiting (d : Option Folder) (j : FinishJob) : Prop where
  serving : Serving j.queue id d
  unsent : Unsent d
  ended : j.manifest.status = .ended

/-- The uploader holds a segment it may send. -/
structure Holding (d : Option Folder) (j : FinishJob) (seg : SpooledSegment) : Prop extends
    Waiting id d j where
  peeked : j.queue.peekNext d .primary = some seg
  sound : seg.damaged sha = false

/-- What is known at each point of a call that will succeed. -/
def At (d : Option Folder) (st : Store) : FinishPc → Prop
  | .reading | .returned false => True
  | .readingEvent => st (.manifest id) = none
  | .polling j | .skipped j => Waiting id d j
  | .holding j seg | .sending j seg | .listing j seg => Holding sha id d j seg
  | .publishing j => (∀ s, ¬HasSeg d s) ∧ j.manifest.status = .ended
  | .endEvent => EndStored id st
  | .endLive room | .endPut room _ =>
      EndStored id st ∧ ∃ e, st.event id = some e ∧ e.roomId = room
  | .returned true => False

/-- **The invariant** of calls that will succeed. -/
structure Underway (f : Finishing) : Prop where
  loose : f.root.loose.state = none
  isSome : (f.folder id).isSome
  drains : Drains sha (f.folder id)
  labelled : Labelled id (f.folder id)
  tells : Tells id f.store
  at_ : At sha id (f.folder id) f.store f.pc

/-- How far a call is from its end. -/
def rank (f : Finishing) : ℕ :=
  match f.pc with
  | .returned false => 8 * files (f.folder id) + 21
  | .reading => 8 * files (f.folder id) + 20
  | .readingEvent => 8 * files (f.folder id) + 19
  | .skipped _ => 8 * files (f.folder id) + 11
  | .polling _ => 8 * files (f.folder id) + 10
  | .holding _ _ => 8 * files (f.folder id) + 9
  | .sending _ _ => 8 * files (f.folder id) + 8
  | .listing _ _ => 8 * files (f.folder id) + 7
  | .publishing _ => 5
  | .endEvent => 4
  | .endLive _ => 3
  | .endPut _ _ => 2
  | .returned true => 0

/-- A step of a call that will succeed: the invariant is kept or the call has
succeeded, and when the event is served the call goes on and comes closer to its
end. -/
structure Moves (t : Tick) (f f' : Finishing) : Prop where
  next : Underway sha id f' ∨ Ended id f'
  closer : t.Serves id → f'.pc ≠ .returned false ∧ rank id f' < rank id f

variable {sha window id} {t : Tick} {f : Finishing} {j : FinishJob} {seg : SpooledSegment}

/-- The call moves on with the folder and the bucket as they are. -/
lemma Underway.goto (h : Underway sha id f) {p : FinishPc}
    (hp : At sha id (f.folder id) f.store p) : Underway sha id (f.goto p) where
  loose := h.loose
  isSome := h.isSome
  drains := h.drains
  labelled := h.labelled
  tells := h.tells
  at_ := hp

/-- A call that gives up is made again; it does not when the event is served. -/
lemma Underway.giveUp (h : Underway sha id f) (hn : ¬t.Serves id) :
    Moves sha id t f (f.goto (.returned false)) :=
  ⟨Or.inl (h.goto trivial), fun hs => absurd hs hn⟩

/-- Entering the wait loop. -/
lemma startUpload_spec (hloose : f.root.loose.state = none) (hsome : (f.folder id).isSome)
    (hid : id ≠ "") (m : Manifest) :
    ∃ j, (startUpload id f m).pc = .polling j ∧ (startUpload id f m).store = f.store ∧
      (startUpload id f m).root.loose = f.root.loose ∧
      Swept (f.folder id) ((startUpload id f m).folder id) ∧
      Serving j.queue id ((startUpload id f m).folder id) ∧ j.manifest.status = .ended ∧
      files ((startUpload id f m).folder id) ≤ files (f.folder id) := by
  have hopen := SpoolQueue.openRoot_of_id 0 hloose hid
  obtain ⟨hswept, hserving, hfiles⟩ := Serving.setTargets
    (show (SpoolQueue.load 0 (some id) (f.folder id)).dir = some id from rfl) hsome rfl
  have hfolder : (startUpload id f m).folder id = applyWrites
      ((SpoolQueue.load 0 (some id) (f.folder id)).setTargets 1 (f.folder id)).2 (f.folder id) := by
    rw [startUpload, folder, hopen]
    exact Root.folder_write_self f.root id _
  refine ⟨⟨_, _⟩, rfl, rfl, ?_, hfolder ▸ hswept, ?_, rfl, hfolder ▸ hfiles⟩
  · rw [startUpload, hopen]
    exact Root.loose_write f.root _ _
  · rw [hfolder, hopen]
    exact hserving

lemma Underway.startUpload (h : Underway sha id f) (hid : id ≠ "") (m : Manifest)
    (hrank : 8 * files (f.folder id) + 10 < rank id f) :
    Moves sha id t f (startUpload id f m) := by
  obtain ⟨j, hpc, hstore, hloose, hswept, hserving, hended, hfiles⟩ :=
    startUpload_spec h.loose h.isSome hid m
  refine ⟨Or.inl ⟨by rw [hloose]; exact h.loose, hserving.isSome, h.drains.sweep hswept,
    fun s m hm => h.labelled s m (hswept.sidecar s m hm), by rw [hstore]; exact h.tells, ?_⟩,
    fun _ => ⟨by rw [hpc]; rintro ⟨⟩, ?_⟩⟩
  · rw [hpc]
    exact ⟨hserving, hswept.unsent, hended⟩
  · rw [rank, hpc]
    dsimp only
    omega

lemma Underway.reading (h : Underway sha id f) (hid : id ≠ "") (hpc : f.pc = .reading) :
    Moves sha id t f (step sha window id t f) := by
  have hrank : rank id f = 8 * files (f.folder id) + 20 := by rw [rank, hpc]
  rw [step, hpc]
  dsimp only
  split
  · rename_i hok
    exact h.giveUp fun hs => by simp [hs.ok (.manifest id) rfl] at hok
  split
  · exact h.startUpload hid _ (by omega)
  · rename_i o hne ho
    -- an object that is no manifest: the bucket does not tell
    rcases h.tells with hm | ⟨hm, -⟩
    · rw [Store.manifest, ho] at hm
      cases o with
      | manifest m => exact (hne m rfl).elim
      | _ => exact absurd hm (by simp)
    · exact absurd (hm.symm.trans ho) (by simp)
  · rename_i hnone
    refine ⟨Or.inl (h.goto hnone), fun _ => ⟨by rintro ⟨⟩, ?_⟩⟩
    rw [hrank]
    show 8 * files (f.folder id) + 19 < _
    omega

lemma Underway.readingEvent (h : Underway sha id f) (hid : id ≠ "") (hpc : f.pc = .readingEvent) :
    Moves sha id t f (step sha window id t f) := by
  have hrank : rank id f = 8 * files (f.folder id) + 19 := by rw [rank, hpc]
  have hnone : f.store (.manifest id) = none := by
    have := h.at_
    rwa [hpc] at this
  rw [step, hpc]
  dsimp only
  split
  · rename_i hok
    exact h.giveUp fun hs => by simp [hs.ok (.event id) rfl] at hok
  split
  · exact h.startUpload hid _ (by omega)
  · rename_i hne
    rcases h.tells with hm | ⟨-, he⟩
    · rw [Store.manifest, hnone] at hm
      exact absurd hm (by simp)
    · rw [Store.event] at he
      split at he
      · rename_i e hev
        exact absurd hev (hne e)
      · exact absurd he (by simp)

/-- `confirm` of the segment the uploader holds. -/
lemma confirm_spec (hq : Serving j.queue id (f.folder id)) {s : ℕ} (hs : HasSeg (f.folder id) s) :
    Confirms (f.folder id) ((confirm id t f j s).2.folder id) s ∧
      Serving (confirm id t f j s).1 id ((confirm id t f j s).2.folder id) ∧
      files ((confirm id t f j s).2.folder id) < files (f.folder id) ∧
      (confirm id t f j s).2.loose = f.root.loose := by
  have hfolder : (confirm id t f j s).2.folder id =
      applyWrites (j.queue.confirm t.now (f.folder id) s .primary).2 (f.folder id) := by
    rw [confirm, hq.dir]
    exact Root.folder_write_self f.root id _
  obtain ⟨h1, h2, h3⟩ := hq.confirm t.now hs
  refine ⟨hfolder ▸ h1, ?_, hfolder ▸ h3, Root.loose_write f.root _ _⟩
  rw [hfolder]
  exact h2

/-- The wait loop once a segment is confirmed and out of the way, whatever was
published meanwhile. -/
lemma Underway.confirmed (h : Underway sha id f) (hw : Waiting id (f.folder id) j)
    (hpeek : j.queue.peekNext (f.folder id) .primary = some seg) {m : Manifest} {s : Store}
    {p : FinishPc} (hm : m.status = .ended) (hst : Tells id s)
    (hpc : ∀ d, Waiting id d { manifest := m, queue := (confirm id t f j seg.seq).1 } →
      At sha id d s p) :
    Underway sha id { root := (confirm id t f j seg.seq).2, store := s, pc := p } ∧
      files ((confirm id t f j seg.seq).2.folder id) < files (f.folder id) := by
  have hp := SpoolQueue.peekNext_spec hpeek
  obtain ⟨hc, hq, hfiles, hloose⟩ := confirm_spec (t := t) hw.serving hp.hasSeg
  obtain ⟨hdrains, hunsent⟩ := h.drains.confirm hw.unsent hc hp.hasSeg fun r hr hread => by
    rw [hw.serving.has]
    exact hp.lowest r hr hread
  refine ⟨⟨by rw [hloose]; exact h.loose, hq.isSome, hdrains,
    fun s m hs => h.labelled s m (hc.sidecar s m hs), hst, ?_⟩, hfiles⟩
  exact hpc _ ⟨hq, hunsent, hm⟩

lemma tells_publish (h : Tells id f.store) (m : Manifest) : Tells id (publish id t f m) := by
  rw [publish]
  split
  · exact Or.inl (by simp)
  · exact h

/-- The uploader finds something to do while anything is pending. -/
lemma Underway.exists_peek (h : Underway sha id f) (hw : Waiting id (f.folder id) j)
    (hne : j.queue.pendingCount (f.folder id) ≠ 0) :
    ∃ seg, j.queue.peekNext (f.folder id) .primary = some seg := by
  rw [← Option.ne_none_iff_exists']
  intro hnone
  rw [SpoolQueue.peekNext_eq_none_iff (by rw [hw.serving.dir]; rfl)] at hnone
  refine hne (hw.serving.pendingCount.mpr fun s hs => ?_)
  have hsend := (h.drains.sendable s hs).resolve_left (by rw [hw.unsent s hs]; simp)
  have := hnone s hsend.readable
  rw [← hw.serving.has, hw.unsent s hs] at this
  exact absurd this (by simp)

lemma Underway.polling (h : Underway sha id f) (hpc : f.pc = .polling j) :
    Moves sha id t f (step sha window id t f) := by
  have hrank : rank id f = 8 * files (f.folder id) + 10 := by rw [rank, hpc]
  have hw : Waiting id (f.folder id) j := by
    have := h.at_
    rwa [hpc] at this
  rw [step, hpc]
  dsimp only
  split
  · rename_i hzero
    refine ⟨Or.inl (h.goto ⟨hw.serving.pendingCount.mp hzero, hw.ended⟩), fun _ => ⟨by rintro ⟨⟩, ?_⟩⟩
    rw [hrank]
    show 5 < _
    omega
  rename_i hne
  split
  · rename_i hhalt
    exact h.giveUp fun hs => by simp [hs.halt] at hhalt
  obtain ⟨seg, hpeek⟩ := h.exists_peek hw hne
  have hpeek' : j.queue.peekNext (f.root.folder id) .primary = some seg := hpeek
  rw [poll, hpeek']
  dsimp only
  split
  · rename_i hmay
    exact ⟨Or.inl h, fun hs => by simp [hs.mayUpload] at hmay⟩
  split
  · -- damaged: confirmed, and listed as a gap
    obtain ⟨hnext, hfiles⟩ := h.confirmed (t := t) hw hpeek (m := j.manifest.addGap seg.seq)
      (p := .skipped _) (by simpa using hw.ended) h.tells fun d hd => hd
    refine ⟨Or.inl hnext, fun _ => ⟨by rintro ⟨⟩, ?_⟩⟩
    rw [hrank]
    show 8 * files ((confirm id t f j seg.seq).2.folder id) + 11 < _
    omega
  · rename_i hsound
    refine ⟨Or.inl (h.goto (p := .holding j seg) ⟨hw, hpeek, by simpa using hsound⟩), fun _ => ⟨by rintro ⟨⟩, ?_⟩⟩
    rw [hrank]
    show 8 * files (f.folder id) + 9 < _
    omega

/-- A segment that can be sent and is not damaged is not below the floor. -/
lemma Underway.floor_le (h : Underway sha id f) (hh : Holding sha id (f.folder id) j seg) :
    ¬seg.seq < j.queue.floor := by
  have hp := SpoolQueue.peekNext_spec hh.peeked
  obtain ⟨seg', hread, hok⟩ := (h.drains.sendable seg.seq hp.hasSeg).resolve_left
    (by rw [hh.unsent seg.seq hp.hasSeg]; simp)
  obtain rfl : seg = seg' := Option.some.inj ((readSeg_of_peekNext hh.peeked).symm.trans hread)
  rw [hh.serving.floor, not_lt]
  exact hok.resolve_left (by rw [hh.sound]; simp)

lemma Underway.holding (h : Underway sha id f) (hpc : f.pc = .holding j seg) :
    Moves sha id t f (step sha window id t f) := by
  have hrank : rank id f = 8 * files (f.folder id) + 9 := by rw [rank, hpc]
  have hh : Holding sha id (f.folder id) j seg := by
    have := h.at_
    rwa [hpc] at this
  rw [step, hpc]
  dsimp only
  split
  · rename_i hhalt
    exact h.giveUp fun hs => by simp [hs.halt] at hhalt
  rw [if_neg (h.floor_le hh)]
  refine ⟨Or.inl (h.goto (p := .sending j seg) hh), fun _ => ⟨by rintro ⟨⟩, ?_⟩⟩
  rw [hrank]
  show 8 * files (f.folder id) + 8 < _
  omega

lemma Underway.sending (h : Underway sha id f) (hpc : f.pc = .sending j seg) :
    Moves sha id t f (step sha window id t f) := by
  have hrank : rank id f = 8 * files (f.folder id) + 8 := by rw [rank, hpc]
  have hh : Holding sha id (f.folder id) j seg := by
    have := h.at_
    rwa [hpc] at this
  have hkey : seg.key = .segment id seg.seq := by
    obtain ⟨m, hm, -, hk⟩ := (SpoolQueue.peekNext_spec hh.peeked).sidecar
    rw [hk]
    exact h.labelled seg.seq m hm
  rw [step, hpc]
  dsimp only
  split
  · refine ⟨Or.inl ⟨h.loose, h.isSome, h.drains, h.labelled, ?_, hh⟩, fun _ => ⟨by rintro ⟨⟩, ?_⟩⟩
    · rw [hkey]
      exact h.tells
    · rw [hrank]
      show 8 * files (f.folder id) + 7 < _
      omega
  · rename_i hok
    have hn : ¬t.Serves id := fun hs => by simp [hs.ok seg.key (by rw [hkey]; rfl)] at hok
    split
    · exact ⟨Or.inl (h.goto (p := .holding j seg) hh), fun hs => absurd hs hn⟩
    · exact ⟨Or.inl (h.goto (p := .polling j) hh.toWaiting), fun hs => absurd hs hn⟩

lemma Underway.listing (h : Underway sha id f) (hpc : f.pc = .listing j seg) :
    Moves sha id t f (step sha window id t f) := by
  have hrank : rank id f = 8 * files (f.folder id) + 7 := by rw [rank, hpc]
  have hh : Holding sha id (f.folder id) j seg := by
    have := h.at_
    rwa [hpc] at this
  rw [step, hpc]
  obtain ⟨hnext, hfiles⟩ := h.confirmed (t := t) hh.toWaiting hh.peeked
    (m := j.manifest.push (entryOf j.manifest seg) window)
    (s := publish id t f (j.manifest.push (entryOf j.manifest seg) window)) (p := .polling _)
    (by simpa using hh.ended) (tells_publish h.tells _) fun d hd => hd
  refine ⟨Or.inl hnext, fun _ => ⟨by rintro ⟨⟩, ?_⟩⟩
  rw [hrank]
  show 8 * files ((confirm id t f j seg.seq).2.folder id) + 10 < _
  omega

lemma Underway.skipped (h : Underway sha id f) (hpc : f.pc = .skipped j) :
    Moves sha id t f (step sha window id t f) := by
  have hrank : rank id f = 8 * files (f.folder id) + 11 := by rw [rank, hpc]
  have hw : Waiting id (f.folder id) j := by
    have := h.at_
    rwa [hpc] at this
  rw [step, hpc]
  refine ⟨Or.inl ⟨h.loose, h.isSome, h.drains, h.labelled, tells_publish h.tells _, hw⟩, fun _ => ⟨by rintro ⟨⟩, ?_⟩⟩
  rw [hrank]
  show 8 * files (f.folder id) + 10 < _
  omega

lemma Underway.publishing (h : Underway sha id f) (hpc : f.pc = .publishing j) :
    Moves sha id t f (step sha window id t f) := by
  have hended : j.manifest.status = .ended := by
    have := h.at_
    rw [hpc] at this
    exact this.2
  have hrank : rank id f = 5 := by rw [rank, hpc]
  rw [step, hpc]
  dsimp only
  split
  · rename_i hok
    refine ⟨Or.inl ⟨h.loose, h.isSome, h.drains, h.labelled, tells_publish h.tells _, ?_⟩,
      fun _ => ⟨by rintro ⟨⟩, ?_⟩⟩
    · show EndStored id (publish id t f j.manifest)
      rw [publish, if_pos hok]
      exact ⟨_, Store.manifest_put_manifest _ _ _, hended⟩
    · rw [hrank]
      show 4 < 5
      omega
  · rename_i hok
    exact h.giveUp fun hs => by simp [hs.ok (.manifest id) rfl] at hok

/-- The end of a successful call. -/
lemma moves_finished (hid : id ≠ "") {s : Store} (hst : Published id s)
    (hrank : 0 < rank id f) : Moves sha id t f (finished id { f with store := s }) := by
  refine ⟨Or.inr ⟨rfl, ?_, hst⟩, fun _ => ⟨by rintro ⟨⟩, hrank⟩⟩
  show (f.root.discardEvent id).folder id = none
  rw [Root.discardEvent, if_neg hid, Root.folder_setFolder_self]

lemma Underway.endEvent (h : Underway sha id f) (hid : id ≠ "") (hpc : f.pc = .endEvent) :
    Moves sha id t f (step sha window id t f) := by
  have hend : EndStored id f.store := by
    have := h.at_
    rwa [hpc] at this
  have hrank : rank id f = 4 := by rw [rank, hpc]
  rw [step, hpc]
  dsimp only
  split
  · rename_i hok
    exact h.giveUp fun hs => by simp [hs.ok (.event id) rfl] at hok
  split
  · rename_i e he
    have hev : f.store.event id = some e := by rw [Store.event, he]
    split
    · rename_i hroom
      refine moves_finished hid (s := f.store) ⟨hend, fun e' lp he' hne => ?_⟩ (by omega)
      obtain rfl : e = e' := Option.some.inj (hev.symm.trans he')
      exact absurd hroom hne
    · refine ⟨Or.inl (h.goto (p := .endLive e.roomId) ⟨hend, e, hev, rfl⟩), fun _ => ⟨by rintro ⟨⟩, ?_⟩⟩
      rw [hrank]
      exact Nat.lt_succ_self 3
  · rename_i hne
    refine moves_finished hid (s := f.store) ⟨hend, fun e' lp he' => ?_⟩ (by omega)
    rw [Store.event] at he'
    split at he'
    · rename_i e hev
      exact absurd hev (hne e)
    · exact absurd he' (by simp)

lemma Underway.endLive (h : Underway sha id f) (hid : id ≠ "") {room : String}
    (hpc : f.pc = .endLive room) : Moves sha id t f (step sha window id t f) := by
  obtain ⟨hend, e, hev, hroom⟩ : EndStored id f.store ∧
      ∃ e, f.store.event id = some e ∧ e.roomId = room := by
    have := h.at_
    rwa [hpc] at this
  have hrank : rank id f = 3 := by rw [rank, hpc]
  -- the pointer that decides is the one of this room
  have hpub : (∀ lp, f.store.live room = some lp → lp.eventId = id → lp.status = .ended) →
      Published id f.store := by
    intro hlp
    refine ⟨hend, fun e' lp he' _ hl => hlp lp ?_⟩
    obtain rfl : e = e' := Option.some.inj (hev.symm.trans he')
    rwa [hroom] at hl
  rw [step, hpc]
  dsimp only
  split
  · rename_i hok
    exact h.giveUp fun hs => by simp [hs.ok (.live room) trivial] at hok
  split
  · rename_i lp hlp
    have hl : f.store.live room = some lp := by rw [Store.live, hlp]
    split
    · rename_i hdone
      refine moves_finished hid (s := f.store) (hpub fun lp' hl' hid' => ?_) (by omega)
      obtain rfl : lp = lp' := Option.some.inj (hl.symm.trans hl')
      exact hdone.resolve_left fun hne => hne hid'
    · refine ⟨Or.inl (h.goto (p := .endPut room lp) ⟨hend, e, hev, hroom⟩), fun _ => ⟨by rintro ⟨⟩, ?_⟩⟩
      rw [hrank]
      exact Nat.lt_succ_self 2
  · rename_i hne
    refine moves_finished hid (s := f.store) (hpub fun lp hl => ?_) (by omega)
    rw [Store.live] at hl
    split at hl
    · rename_i lp' hlp'
      exact absurd hlp' (hne lp')
    · exact absurd hl (by simp)

lemma Underway.endPut (h : Underway sha id f) (hid : id ≠ "") {room : String} {lp : LivePointer}
    (hpc : f.pc = .endPut room lp) : Moves sha id t f (step sha window id t f) := by
  obtain ⟨⟨m, hm, hended⟩, e, hev, hroom⟩ : EndStored id f.store ∧
      ∃ e, f.store.event id = some e ∧ e.roomId = room := by
    have := h.at_
    rwa [hpc] at this
  have hrank : rank id f = 2 := by rw [rank, hpc]
  rw [step, hpc]
  dsimp only
  split
  · refine moves_finished hid ⟨⟨m, hm, hended⟩, fun e' lp' he' _ hl _ => ?_⟩ (by omega)
    obtain rfl : e = e' := Option.some.inj (hev.symm.trans he')
    rw [hroom, Store.live_put_live] at hl
    rw [← Option.some.inj hl]
  · rename_i hok
    exact h.giveUp fun hs => by simp [hs.ok (.live room) trivial] at hok

/-- **One step** of a call that will succeed. -/
theorem Underway.again (h : Underway sha id f) (hid : id ≠ "") :
    Moves sha id t f (again sha window id t f) := by
  rw [Finishing.again]
  cases hpc : f.pc with
  | reading => exact h.reading hid hpc
  | readingEvent => exact h.readingEvent hid hpc
  | polling j => exact h.polling hpc
  | holding j seg => exact h.holding hpc
  | sending j seg => exact h.sending hpc
  | listing j seg => exact h.listing hpc
  | skipped j => exact h.skipped hpc
  | publishing j => exact h.publishing hpc
  | endEvent => exact h.endEvent hid hpc
  | endLive room => exact h.endLive hid hpc
  | endPut room lp => exact h.endPut hid hpc
  | returned b =>
      have hat := h.at_
      rw [hpc] at hat
      cases b with
      | true => exact hat.elim
      | false =>
          refine ⟨Or.inl (h.goto trivial), fun _ => ⟨by rintro ⟨⟩, ?_⟩⟩
          rw [rank, rank, hpc]
          show 8 * files (f.folder _) + 20 < 8 * files (f.folder _) + 21
          omega

/-- **A call that will succeed does**, once the event is served. -/
theorem Underway.ends (h : Underway sha id f) (hid : id ≠ "") {env : ℕ → Tick} {N : ℕ}
    (henv : ∀ n, N ≤ n → (env n).Serves id) : ∃ n, Ended id (run sha window id env f n) := by
  have hkeep : ∀ n (g : Finishing), Underway sha id g ∨ Ended id g → ¬Ended id g →
      Moves sha id (env n) g (Finishing.again sha window id (env n) g) :=
    fun n g hg hne => (hg.resolve_right hne).again hid
  rcases Lib.trace_until (G := Ended id) (fun n g hg hne => (hkeep n g hg hne).next)
    (Or.inl h) N with hG | hN
  · exact hG
  · exact Lib.eventually_of_rank (rank id)
      (fun n hn g hg hne => ⟨(hkeep n g hg hne).next, ((hkeep n g hg hne).closer (henv n hn)).2⟩) hN

/-! ### Calls that never succeed -/

variable (sha id)

/-- The uploader holds a segment in front of a file that blocks the loop. -/
structure Blocked (d : Option Folder) (j : FinishJob) (seg : SpooledSegment) : Prop where
  serving : Serving j.queue id d
  stuck : Stuck sha d
  peeked : j.queue.peekNext d .primary = some seg

/-- What is known at each point of a call that will not succeed. -/
def HopelessAt (d : Option Folder) (st : Store) : FinishPc → Prop
  | .reading | .returned false => ¬(Drains sha d ∧ Tells id st)
  | .readingEvent => st (.manifest id) = none ∧ ¬(Drains sha d ∧ Tells id st)
  | .polling j | .skipped j => Serving j.queue id d ∧ Stuck sha d
  | .holding j seg => Blocked sha id d j seg
  | .sending j seg | .listing j seg => Blocked sha id d j seg ∧ Sendable sha d seg.seq
  | _ => False

/-- **The invariant** of calls that will not succeed, however every request is
answered. -/
structure Hopeless (f : Finishing) : Prop where
  loose : f.root.loose.state = none
  isSome : (f.folder id).isSome
  at_ : HopelessAt sha id (f.folder id) f.store f.pc

/-- The call is in its wait loop. -/
def InLoop : FinishPc → Prop
  | .polling _ | .holding _ _ | .sending _ _ | .listing _ _ | .skipped _ => True
  | _ => False

/-- A step of a call that will not succeed: the invariant is kept, and the wait
loop is not left. -/
structure Stays (f f' : Finishing) : Prop where
  next : Hopeless sha id f'
  loop : InLoop f.pc → InLoop f'.pc

variable {sha id}

lemma Hopeless.goto (h : Hopeless sha id f) {p : FinishPc}
    (hp : HopelessAt sha id (f.folder id) f.store p) : Hopeless sha id (f.goto p) :=
  ⟨h.loose, h.isSome, hp⟩

lemma Hopeless.startUpload (h : Hopeless sha id f) (hid : id ≠ "") (m : Manifest)
    (hd : ¬Drains sha (f.folder id)) : Hopeless sha id (startUpload id f m) := by
  obtain ⟨j, hpc, -, hloose, hswept, hserving, -, -⟩ := startUpload_spec h.loose h.isSome hid m
  refine ⟨by rw [hloose]; exact h.loose, hserving.isSome, ?_⟩
  rw [hpc]
  exact ⟨hserving, hswept.stuck hd⟩

/-- A confirmation leaves the file that blocks the loop. -/
lemma Hopeless.confirmed (h : Hopeless sha id f) (hb : Blocked sha id (f.folder id) j seg)
    (hsend : Sendable sha (f.folder id) seg.seq) {st : Store} {pc : FinishPc}
    (hpc : ∀ d, Serving (confirm id t f j seg.seq).1 id d ∧ Stuck sha d →
      HopelessAt sha id d st pc) :
    Hopeless sha id { root := (confirm id t f j seg.seq).2, store := st, pc } := by
  have hp := SpoolQueue.peekNext_spec hb.peeked
  obtain ⟨hc, hq, -, hloose⟩ := confirm_spec (t := t) hb.serving hp.hasSeg
  refine ⟨by rw [hloose]; exact h.loose, hq.isSome, hpc _ ⟨hq, ?_⟩⟩
  refine hb.stuck.confirm hc hsend (by rw [hb.serving.has]; exact hp.new) fun r hr hread => ?_
  rw [hb.serving.has]
  exact hp.lowest r hr hread

lemma Hopeless.reading (h : Hopeless sha id f) (ht : t.Good) (hid : id ≠ "")
    (hpc : f.pc = .reading) : Hopeless sha id (step sha window id t f) := by
  have hno : ¬(Drains sha (f.folder id) ∧ Tells id f.store) := by
    have := h.at_
    rwa [hpc] at this
  rw [step, hpc]
  dsimp only
  rw [ht.ok, if_neg (by simp)]
  split
  · rename_i m hm
    refine h.startUpload hid m fun hd => hno ⟨hd, Or.inl ?_⟩
    rw [Store.manifest, hm]
    rfl
  · exact h.goto hno
  · rename_i hnone
    exact h.goto ⟨hnone, hno⟩

lemma Hopeless.readingEvent (h : Hopeless sha id f) (ht : t.Good) (hid : id ≠ "")
    (hpc : f.pc = .readingEvent) : Hopeless sha id (step sha window id t f) := by
  obtain ⟨hnone, hno⟩ : f.store (.manifest id) = none ∧
      ¬(Drains sha (f.folder id) ∧ Tells id f.store) := by
    have := h.at_
    rwa [hpc] at this
  rw [step, hpc]
  dsimp only
  rw [ht.ok, if_neg (by simp)]
  split
  · rename_i e he
    refine h.startUpload hid _ fun hd => hno ⟨hd, Or.inr ⟨hnone, ?_⟩⟩
    rw [Store.event, he]
    rfl
  · exact h.goto hno

lemma Hopeless.polling (h : Hopeless sha id f) (ht : t.Good) (hpc : f.pc = .polling j) :
    Stays sha id f (step sha window id t f) := by
  obtain ⟨hq, hst⟩ : Serving j.queue id (f.folder id) ∧ Stuck sha (f.folder id) := by
    have := h.at_
    rwa [hpc] at this
  rw [step, hpc]
  dsimp only
  split
  · -- the file that blocks the loop is still counted
    rename_i hzero
    obtain ⟨s, hs, -⟩ := hst
    exact absurd hs (hq.pendingCount.mp hzero s)
  rw [ht.halt, if_neg (by simp), poll]
  split
  · exact ⟨h, fun hl => hl⟩
  rename_i seg hpeek
  have hb : Blocked sha id (f.folder id) j seg := ⟨hq, hst, hpeek⟩
  rw [ht.mayUpload, if_neg (by simp)]
  split
  · rename_i hdam
    exact ⟨h.confirmed hb ⟨seg, readSeg_of_peekNext hpeek, Or.inl hdam⟩ fun d hd => hd,
      fun _ => trivial⟩
  · exact ⟨h.goto hb, fun _ => trivial⟩

lemma Hopeless.holding (h : Hopeless sha id f) (ht : t.Good) (hpc : f.pc = .holding j seg) :
    Stays sha id f (step sha window id t f) := by
  have hb : Blocked sha id (f.folder id) j seg := by
    have := h.at_
    rwa [hpc] at this
  rw [step, hpc]
  dsimp only
  rw [ht.halt, if_neg (by simp)]
  split
  · exact ⟨h.goto (p := .polling j) ⟨hb.serving, hb.stuck⟩, fun _ => trivial⟩
  · rename_i hfloor
    rw [hb.serving.floor, not_lt] at hfloor
    exact ⟨h.goto (p := .sending j seg) ⟨hb, seg, readSeg_of_peekNext hb.peeked, Or.inr hfloor⟩,
      fun _ => trivial⟩

/-- **One step** of a call that will not succeed. -/
theorem Hopeless.again (h : Hopeless sha id f) (ht : t.Good) (hid : id ≠ "") :
    Stays sha id f (again sha window id t f) := by
  rw [Finishing.again]
  have hat := h.at_
  cases hpc : f.pc with
  | reading => exact ⟨h.reading ht hid hpc, fun hl => by rw [hpc] at hl; exact hl.elim⟩
  | readingEvent => exact ⟨h.readingEvent ht hid hpc, fun hl => by rw [hpc] at hl; exact hl.elim⟩
  | polling j => exact h.polling ht hpc
  | holding j seg => exact h.holding ht hpc
  | sending j seg =>
      rw [hpc] at hat
      dsimp only
      rw [step, hpc]
      dsimp only
      rw [ht.ok, if_pos rfl]
      exact ⟨⟨h.loose, h.isSome, hat⟩, fun _ => trivial⟩
  | listing j seg =>
      rw [hpc] at hat
      dsimp only
      rw [step, hpc]
      exact ⟨h.confirmed hat.1 hat.2 fun d hd => hd, fun _ => trivial⟩
  | skipped j =>
      rw [hpc] at hat
      dsimp only
      rw [step, hpc]
      exact ⟨⟨h.loose, h.isSome, hat⟩, fun _ => trivial⟩
  | returned b =>
      rw [hpc] at hat
      cases b with
      | true => exact hat.elim
      | false =>
          refine ⟨h.goto (p := .reading) hat, fun hl => ?_⟩
          rw [hpc] at hl
          exact hl.elim
  | publishing j => rw [hpc] at hat; exact hat.elim
  | endEvent => rw [hpc] at hat; exact hat.elim
  | endLive room => rw [hpc] at hat; exact hat.elim
  | endPut room lp => rw [hpc] at hat; exact hat.elim

/-- **A call that will not succeed never does**, however every request is
answered. -/
theorem Hopeless.never (h : Hopeless sha id f) (hid : id ≠ "") {env : ℕ → Tick}
    (henv : ∀ n, (env n).Good) (n : ℕ) : ¬Ended id (run sha window id env f n) := by
  have hn : Hopeless sha id (run sha window id env f n) :=
    Lib.trace_invariant (I := Hopeless sha id) (fun m g hg => (hg.again (henv m) hid).next) h n
  intro hend
  have hat := hn.at_
  rw [hend.1] at hat
  exact hat

end Finishing

/-! ### The result -/

/-- **When finishing ends.**  Every run of calls of `finish` whose requests are
answered from some point on ends, with the end published and the folder gone,
exactly when the folder drains and the bucket says what the event was. -/
theorem finish_ends (sha : Bytes → String) (window : ℕ) {id : String} (hid : id ≠ "") {r : Root}
    {st : Store} (hloose : r.loose.state = none) (hsome : (r.folder id).isSome)
    (hlab : Labelled id (r.folder id)) :
    (∀ env : ℕ → Tick, (∃ N, ∀ n, N ≤ n → (env n).Good) →
      ∃ n, Finishing.Ended id (Finishing.run sha window id env { root := r, store := st } n)) ↔
    Drains sha (r.folder id) ∧ Tells id st := by
  constructor
  · intro h
    by_contra hno
    obtain ⟨n, hn⟩ := h (fun _ => {}) ⟨0, fun _ _ => Tick.good_default⟩
    exact Finishing.Hopeless.never (f := { root := r, store := st }) ⟨hloose, hsome, hno⟩ hid
      (fun _ => Tick.good_default) n hn
  · rintro ⟨hdrains, htells⟩ env ⟨N, henv⟩
    exact Finishing.Underway.ends (f := { root := r, store := st })
      ⟨hloose, hsome, hdrains, hlab, htells, trivial⟩ hid fun n hn => (henv n hn).serves id

lemma labelled_of_reach {ev : Event} {cond : World → Action → Prop} {w : World}
    (h : Lib.Reach (step ev) cond Fresh w) : Labelled ev.id w.disk :=
  (sound_of_reach h).sidecars

/-- The root that holds one event's folder. -/
def Root.holding (id : String) (d : Folder) : Root := ({} : Root).setFolder id (some d)

/-- An ended event with one segment left to send. -/
def oneLeft : Folder where
  state := some (.parsed { eventId := "a", ended := true })
  segs := (∅ : SeqFiles Bytes).insert 0 [1]
  metas := (∅ : SeqFiles SidecarFile).insert 0 (.parsed { key := .segment "a" 0 })

lemma hasSeg_oneLeft {s : ℕ} (hs : HasSeg (some oneLeft) s) : s = 0 := by
  rw [hasSeg_some, oneLeft, AList.mem_insert] at hs
  exact hs.resolve_right (AList.notMem_empty s)

lemma labelled_oneLeft : Labelled "a" (some oneLeft) := by
  intro s m hm
  by_cases hs : s = 0
  · subst hs
    obtain rfl := Option.some.inj hm
    rfl
  · rw [sidecar, Option.bind_some, SpoolQueue.readSidecar, oneLeft,
      AList.lookup_insert_ne hs] at hm
    exact absurd hm (by simp)

lemma drains_oneLeft (sha : Bytes → String) : Drains sha (some oneLeft) := by
  refine ⟨fun s hs => Or.inr ?_, fun _ r s hr hs hrs => ?_⟩
  · obtain rfl := hasSeg_oneLeft hs
    exact ⟨_, rfl, Or.inr le_rfl⟩
  · rw [hasSeg_oneLeft hr, hasSeg_oneLeft hs] at hrs
    exact absurd hrs (lt_irrefl 0)

/-- It is finished although the first requests all fail. -/
theorem finish_ends_oneLeft :
    ∃ n, Finishing.Ended "a" (Finishing.run (fun _ => "") 50 "a"
      (fun n => if n < 9 then { ok := fun _ => false } else {})
      { root := .holding "a" oneLeft
        store := Store.empty.put (.manifest "a") (.manifest {}) } n) := by
  have hfolder : (Root.holding "a" oneLeft).folder "a" = some oneLeft :=
    Root.folder_setFolder_self _ _ _
  refine (finish_ends (fun _ => "") 50 (by decide) rfl (by rw [hfolder]; rfl) ?_).mpr ⟨?_, ?_⟩ _
    ⟨9, fun n hn => by rw [if_neg (not_lt.mpr hn)]; exact Tick.good_default⟩
  · rw [hfolder]
    exact labelled_oneLeft
  · rw [hfolder]
    exact drains_oneLeft _
  · exact Or.inl (by simp)

/-- A crash between the two files of the second segment, and a session that
resumes and ends. -/
def orphanEnded : List Action :=
  goLive ++ [Action.publishSegment [1] 6 0 1 none] ++ uploadOne ++
    [Action.crashIn (.publishSegment [2] 6 6 2 none) 1, .openSession {}, .resume {} {} {} 3,
      .flushBegin, .publishLive true 3, .stopUploaders, .clearError, .queueEnded 5,
      .dequeueManifest, .putManifest true, .flushEnd, .stopPublisher, .joinPublisher,
      .publishEnded true 6, .markEnded, .removeIfDone, .endReturn]

/-- The `.seg` file without a sidecar keeps the wait loop for ever. -/
theorem finish_stuck :
    ∃ w d, Reached sampleEvent w ∧ w.disk = some d ∧ Root.owed d = true ∧
      ¬∀ env : ℕ → Tick, (∃ N, ∀ n, N ≤ n → (env n).Good) →
        ∃ n, Finishing.Ended sampleEvent.id (Finishing.run sampleEvent.sha256Hex 50 sampleEvent.id
          env { root := .holding sampleEvent.id d, store := w.store } n) := by
  obtain ⟨w, hw, hany⟩ : ∃ w, Reached sampleEvent w ∧ (w.disk.any fun d =>
      Root.owed d && decide (HasSeg (some d) 1) && (sidecar (some d) 1).isNone &&
        !(recorded (some d)).has .primary 1) = true :=
    Lib.exists_reach {} orphanEnded rfl (by decide +kernel)
  rw [Option.any_eq_true] at hany
  obtain ⟨d, hd, h⟩ := hany
  simp only [Bool.and_eq_true, decide_eq_true_eq, Option.isNone_iff_eq_none, Bool.not_eq_true'] at h
  obtain ⟨⟨⟨howed, hseg⟩, hside⟩, hhas⟩ := h
  have hfolder : (Root.holding sampleEvent.id d).folder sampleEvent.id = some d :=
    Root.folder_setFolder_self _ _ _
  refine ⟨w, d, hw, hd, howed, fun hall => ?_⟩
  obtain ⟨n, hn⟩ := hall (fun _ => {}) ⟨0, fun _ _ => Tick.good_default⟩
  have hnot : ¬Drains sampleEvent.sha256Hex (some d) := by
    intro hdrains
    rcases hdrains.sendable 1 hseg with h | h
    · rw [hhas] at h
      exact absurd h (by simp)
    · have := h.readable.2
      rw [hside] at this
      exact absurd this (by simp)
  have hopeless : Finishing.Hopeless sampleEvent.sha256Hex sampleEvent.id
      { root := .holding sampleEvent.id d, store := w.store } := by
    refine ⟨rfl, ?_, fun hno => hnot ?_⟩
    · rw [Finishing.folder, hfolder]
      rfl
    · rw [← hfolder]
      exact hno.1
  exact hopeless.never (by decide) (fun _ => Tick.good_default) n hn

end Multisite

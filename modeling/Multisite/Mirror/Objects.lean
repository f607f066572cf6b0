import Multisite.Lib.Run
import Multisite.Core.Store
import Mathlib.Data.List.AList

/-!
The small objects on their way to the second bucket (`Session::put_bytes` and
`Session::mirror_objects_loop`).

`put_bytes` leaves what it wrote in `m_obj_pending`, one object to a key.  The loop
takes all of it at once and sends the objects of that batch one after the other;
one that fails is put back, unless its key has been written again meanwhile.

* `Latest`: what the queue keeps.  For each key the bucket, the batch and
  `m_obj_pending` hold ever newer values, and the newest is in one of them;
* `latest_wins`: so the bucket never goes back to an older value, and no newest
  value is lost, whatever fails and whenever `put_bytes` is called.
-/

namespace Multisite

/-- An object queued for the second bucket, with its content type.  `nth` is read
by no step: it counts the values queued for the key, the first being `1`. -/
structure MirrorObject where
  body : Object
  contentType : String
  nth : ℕ
  deriving DecidableEq, Repr

/-- Where `mirror_objects_loop` stands. -/
inductive LoopPc where
  /-- The thread has not been started, or has returned. -/
  | off
  /-- Asleep; `m_obj_run` is looked at next. -/
  | waiting
  /-- `m_obj_run` was set; `mirror_may_go` is asked next. -/
  | looking
  /-- In the batch, between two of its objects. -/
  | between
  /-- The PUT of an object of the batch is under way. -/
  | sending (k : Key) (o : MirrorObject)
  /-- It failed; the object has still to be put back. -/
  | failed (k : Key) (o : MirrorObject)
  deriving DecidableEq, Repr

/-- `m_obj_pending`, the loop with its batch, and `m_obj_run`.  What follows them
is read by no step: the value last queued for each key, and every value the bucket
has taken, the latest first. -/
structure MirrorObjects where
  pending : AList (fun _ : Key => MirrorObject) := ∅
  batch : AList (fun _ : Key => MirrorObject) := ∅
  pc : LoopPc := .off
  run : Bool := false
  newest : Key → Option MirrorObject := fun _ => none
  received : List (Key × MirrorObject) := []

namespace MirrorObjects

/-- The half of `put_bytes` under `m_obj_mtx`. -/
def queue (q : MirrorObjects) (k : Key) (body : Object) (contentType : String) : MirrorObjects :=
  let o : MirrorObject := { body, contentType, nth := (q.newest k).elim 0 (·.nth) + 1 }
  { q with
    pending := q.pending.insert k o
    newest := Function.update q.newest k (some o) }

/-- `begin_common` starts the thread. -/
def start (q : MirrorObjects) : MirrorObjects := { q with pc := .waiting, run := true }

/-- The object of `k` the loop holds: the one in hand, or one of its batch. -/
def held (q : MirrorObjects) (k : Key) : Option MirrorObject :=
  match q.pc with
  | .sending k' o | .failed k' o => if k = k' then some o else q.batch.lookup k
  | _ => q.batch.lookup k

end MirrorObjects

/-- One step of the queue: a call of `put_bytes`, or one of the loop. -/
inductive MirrorAction where
  | putBytes (k : Key) (body : Object) (contentType : String)
  | start
  | stop
  | look
  /-- `mirror_may_go` said no. -/
  | yield
  /-- `mirror_may_go` said yes, and the batch is taken. -/
  | swap
  /-- The next object of the batch.  `std::map` gives them by key; any order is
  allowed here. -/
  | take (k : Key)
  | put (ok : Bool)
  | putBack
  /-- The batch is through. -/
  | sleep
  deriving DecidableEq, Repr

/-- One step of the queue and the second bucket. -/
def MirrorObjects.step (s : MirrorObjects × Store) : MirrorAction → Option (MirrorObjects × Store)
  | .putBytes k body ct => some (s.1.queue k body ct, s.2)
  | .start => if s.1.pc = .off then some (s.1.start, s.2) else none
  | .stop => some ({ s.1 with run := false }, s.2)
  | .look =>
      if s.1.pc = .waiting then
        some ({ s.1 with pc := if s.1.run then .looking else .off }, s.2)
      else none
  | .yield => if s.1.pc = .looking then some ({ s.1 with pc := .waiting }, s.2) else none
  | .swap =>
      if s.1.pc = .looking then
        some ({ s.1 with pc := .between, batch := s.1.pending, pending := ∅ }, s.2)
      else none
  | .take k =>
      match s.1.pc, s.1.batch.lookup k with
      | .between, some o =>
          some ({ s.1 with pc := .sending k o, batch := s.1.batch.erase k }, s.2)
      | _, _ => none
  | .put ok =>
      match s.1.pc with
      | .sending k o =>
          if ok then
            some ({ s.1 with pc := .between, received := (k, o) :: s.1.received }, s.2.put k o.body)
          else some ({ s.1 with pc := .failed k o }, s.2)
      | _ => none
  | .putBack =>
      match s.1.pc with
      | .failed k o =>
          let pending :=
            if (s.1.pending.lookup k).isNone then s.1.pending.insert k o else s.1.pending
          some ({ s.1 with pc := .between, pending }, s.2)
      | _ => none
  | .sleep =>
      if s.1.pc = .between ∧ s.1.batch.keys = [] then some ({ s.1 with pc := .waiting }, s.2)
      else none

/-! ### What the queue keeps -/

/-- The bucket has taken no value of a key after a newer one. -/
def NeverOlder (q : MirrorObjects) : Prop :=
  q.received.Pairwise fun later earlier => later.1 = earlier.1 → earlier.2.nth < later.2.nth

/-- The newest value queued for a key is stored, waiting, or in the batch. -/
def NewestKept (q : MirrorObjects) (st : Store) : Prop :=
  ∀ k o, q.newest k = some o →
    st k = some o.body ∨ q.pending.lookup k = some o ∨ q.held k = some o

/-- The values of one key, by age: those the bucket has taken, then the one the
loop holds, then the one pending, none newer than the newest. -/
structure Latest (q : MirrorObjects) (st : Store) : Prop where
  /-- The newest is in one of the three places, and stored only once taken. -/
  kept : ∀ k o, q.newest k = some o →
    (k, o) ∈ q.received ∧ st k = some o.body ∨ q.pending.lookup k = some o ∨ q.held k = some o
  pending_le : ∀ k o, q.pending.lookup k = some o → ∃ n, q.newest k = some n ∧ o.nth ≤ n.nth
  held_le : ∀ k o, q.held k = some o → ∃ n, q.newest k = some n ∧ o.nth ≤ n.nth
  received_le : ∀ k o, (k, o) ∈ q.received → ∃ n, q.newest k = some n ∧ o.nth ≤ n.nth
  held_lt : ∀ k o p, q.held k = some o → q.pending.lookup k = some p → o.nth < p.nth
  received_lt : ∀ k o p, (k, o) ∈ q.received →
    q.pending.lookup k = some p ∨ q.held k = some p → o.nth < p.nth
  never : NeverOlder q
  /-- Outside a batch the loop holds nothing, and the object in hand has left it. -/
  idle : q.pc = .off ∨ q.pc = .waiting ∨ q.pc = .looking → q.batch = ∅
  taken : ∀ k o, q.pc = .sending k o ∨ q.pc = .failed k o → q.batch.lookup k = none

namespace Latest

variable {q q' : MirrorObjects} {st : Store}

/-- Before anything is queued. -/
lemma start (st : Store) : Latest {} st where
  kept k o h := absurd h (by simp)
  pending_le k o h := absurd h (by simp)
  held_le k o h := absurd h (by simp [MirrorObjects.held])
  received_le k o h := absurd h (by simp)
  held_lt k o p h := absurd h (by simp [MirrorObjects.held])
  received_lt k o p h := absurd h (by simp)
  never := List.Pairwise.nil
  idle _ := rfl
  taken k o h := absurd h (by simp)

/-- A step that moves nothing. -/
lemma same (h : Latest q st) (hheld : ∀ k, q'.held k = q.held k)
    (hpending : q'.pending = q.pending) (hnewest : q'.newest = q.newest)
    (hreceived : q'.received = q.received)
    (hidle : q'.pc = .off ∨ q'.pc = .waiting ∨ q'.pc = .looking → q'.batch = ∅)
    (htaken : ∀ k o, q'.pc = .sending k o ∨ q'.pc = .failed k o → q'.batch.lookup k = none) :
    Latest q' st where
  kept k o := by
    rw [hnewest, hreceived, hpending, hheld]
    exact h.kept k o
  pending_le k o := by
    rw [hnewest, hpending]
    exact h.pending_le k o
  held_le k o := by
    rw [hnewest, hheld]
    exact h.held_le k o
  received_le k o := by
    rw [hnewest, hreceived]
    exact h.received_le k o
  held_lt k o p := by
    rw [hheld, hpending]
    exact h.held_lt k o p
  received_lt k o p := by
    rw [hreceived, hpending, hheld]
    exact h.received_lt k o p
  never := by
    rw [NeverOlder, hreceived]
    exact h.never
  idle := hidle
  taken := htaken

/-- `put_bytes`: the new value is newer than every other of its key. -/
lemma queue (h : Latest q st) (k : Key) (body : Object) (ct : String) :
    Latest (q.queue k body ct) st := by
  have hheld : ∀ x, (q.queue k body ct).held x = q.held x := fun _ => rfl
  have hnew : ∀ {o n : MirrorObject}, q.newest k = some n → o.nth ≤ n.nth →
      o.nth < (q.newest k).elim 0 (·.nth) + 1 := by
    intro o n hn ho
    rw [hn, Option.elim_some]
    omega
  have hpend : ∀ x, x ≠ k → (q.queue k body ct).pending.lookup x = q.pending.lookup x :=
    fun x hx => AList.lookup_insert_ne hx
  have hnewest : ∀ x, x ≠ k → (q.queue k body ct).newest x = q.newest x :=
    fun x hx => Function.update_of_ne hx _ _
  constructor
  · intro x o hx
    by_cases hxk : x = k
    · subst hxk
      refine Or.inr (Or.inl ?_)
      rw [MirrorObjects.queue] at hx ⊢
      simp only [Function.update_self, Option.some.injEq] at hx
      simp only [AList.lookup_insert, hx]
    · rw [hnewest x hxk] at hx
      rw [hpend x hxk, hheld]
      exact h.kept x o hx
  · intro x o hx
    by_cases hxk : x = k
    · subst hxk
      refine ⟨_, Function.update_self .., ?_⟩
      rw [MirrorObjects.queue] at hx
      simp only [AList.lookup_insert, Option.some.injEq] at hx
      exact le_of_eq (congrArg _ hx.symm)
    · rw [hpend x hxk] at hx
      rw [hnewest x hxk]
      exact h.pending_le x o hx
  · intro x o hx
    obtain ⟨n, hn, ho⟩ := h.held_le x o hx
    by_cases hxk : x = k
    · subst hxk
      exact ⟨_, Function.update_self .., (hnew hn ho).le⟩
    · exact ⟨n, (hnewest x hxk).trans hn, ho⟩
  · intro x o hx
    obtain ⟨n, hn, ho⟩ := h.received_le x o hx
    by_cases hxk : x = k
    · subst hxk
      exact ⟨_, Function.update_self .., (hnew hn ho).le⟩
    · exact ⟨n, (hnewest x hxk).trans hn, ho⟩
  · intro x o p hx hp
    by_cases hxk : x = k
    · subst hxk
      obtain ⟨n, hn, ho⟩ := h.held_le x o hx
      rw [MirrorObjects.queue] at hp
      simp only [AList.lookup_insert, Option.some.injEq] at hp
      rw [← hp]
      exact hnew hn ho
    · exact h.held_lt x o p hx (by rwa [hpend x hxk] at hp)
  · intro x o p hx hp
    by_cases hxk : x = k
    · subst hxk
      rcases hp with hp | hp
      · obtain ⟨n, hn, ho⟩ := h.received_le x o hx
        rw [MirrorObjects.queue] at hp
        simp only [AList.lookup_insert, Option.some.injEq] at hp
        rw [← hp]
        exact hnew hn ho
      · exact h.received_lt x o p hx (Or.inr hp)
    · exact h.received_lt x o p hx (by rwa [hpend x hxk] at hp)
  · exact h.never
  · exact h.idle
  · exact h.taken

/-- The batch is taken: what was pending is held now. -/
lemma swap (h : Latest q st) (hpc : q.pc = .looking) :
    Latest { q with pc := .between, batch := q.pending, pending := ∅ } st := by
  have hheld : ∀ k, q.held k = none := by
    intro k
    rw [MirrorObjects.held, hpc, h.idle (Or.inr (Or.inr hpc))]
    rfl
  constructor
  · intro k o hk
    rcases h.kept k o hk with hs | hp | hb
    · exact Or.inl hs
    · exact Or.inr (Or.inr hp)
    · exact absurd ((hheld k).symm.trans hb) (by simp)
  · intro k o hk
    exact absurd hk (by simp)
  · exact h.pending_le
  · exact h.received_le
  · intro k o p _ hp
    exact absurd hp (by simp)
  · rintro k o p hk (hp | hp)
    · exact absurd hp (by simp)
    · exact h.received_lt k o p hk (Or.inl hp)
  · exact h.never
  · intro hi
    exact absurd hi (by simp)
  · intro k o hk
    exact absurd hk (by simp)

/-- An object leaves the batch for the loop's hand. -/
lemma take (h : Latest q st) {k : Key} {o : MirrorObject} (hpc : q.pc = .between)
    (hk : q.batch.lookup k = some o) :
    Latest { q with pc := .sending k o, batch := q.batch.erase k } st := by
  refine h.same (fun x => ?_) rfl rfl rfl (fun hi => absurd hi (by simp)) fun x y hx => ?_
  · simp only [MirrorObjects.held, hpc]
    split
    · rename_i hx
      rw [hx, hk]
    · rename_i hx
      exact AList.lookup_erase_ne hx
  · simp only [LoopPc.sending.injEq, reduceCtorEq, or_false] at hx
    rw [← hx.1]
    exact AList.lookup_erase ..

/-- With an object in hand, the loop holds it and the rest of the batch. -/
lemma held_hand {k : Key} {o : MirrorObject} (hpc : q.pc = .sending k o ∨ q.pc = .failed k o) :
    q.held k = some o ∧ ∀ x, x ≠ k → q.held x = q.batch.lookup x := by
  rcases hpc with hpc | hpc <;> simp only [MirrorObjects.held, hpc] <;>
    exact ⟨if_pos trivial, fun x hx => if_neg hx⟩

lemma held_of_batch (h : Latest q st) {k : Key} {o : MirrorObject}
    (hpc : q.pc = .sending k o ∨ q.pc = .failed k o) (x : Key) (p : MirrorObject)
    (hp : q.batch.lookup x = some p) : q.held x = some p := by
  rw [(held_hand hpc).2 x fun hx => ?_]
  · exact hp
  · rw [hx, h.taken k o hpc] at hp
    exact absurd hp (by simp)

/-- The object in hand is newer than all the bucket has taken of its key. -/
lemma put (h : Latest q st) {k : Key} {o : MirrorObject} (hpc : q.pc = .sending k o) :
    Latest { q with pc := .between, received := (k, o) :: q.received } (st.put k o.body) := by
  obtain ⟨hk, hother⟩ := held_hand (Or.inl hpc)
  have hbatch : q.batch.lookup k = none := h.taken k o (Or.inl hpc)
  have hheld := h.held_of_batch (Or.inl hpc)
  constructor
  · intro x y hx
    rcases h.kept x y hx with ⟨hr, hs⟩ | hp | hb
    · refine Or.inl ⟨List.mem_cons_of_mem _ hr, ?_⟩
      rw [Store.put_of_ne _ _ fun hxk => ?_]
      · exact hs
      · -- the newest of `k` was taken, and the one in hand is newer still
        subst hxk
        obtain ⟨n, hn, ho⟩ := h.held_le x o hk
        obtain rfl := Option.some.inj (hx.symm.trans hn)
        exact absurd (h.received_lt x y o hr (Or.inr hk)) (not_lt.mpr ho)
    · exact Or.inr (Or.inl hp)
    · by_cases hxk : x = k
      · subst hxk
        obtain rfl := Option.some.inj (hk.symm.trans hb)
        exact Or.inl ⟨List.mem_cons_self, Store.put_self ..⟩
      · exact Or.inr (Or.inr ((hother x hxk).symm.trans hb))
  · exact h.pending_le
  · exact fun x y hx => h.held_le x y (hheld x y hx)
  · intro x y hx
    rcases List.mem_cons.mp hx with hnew | hx
    · obtain ⟨rfl, rfl⟩ := Prod.mk.injEq .. ▸ hnew
      exact h.held_le x y hk
    · exact h.received_le x y hx
  · exact fun x y p hx hp => h.held_lt x y p (hheld x y hx) hp
  · intro x y p hx hp
    rcases List.mem_cons.mp hx with hnew | hx
    · obtain ⟨rfl, rfl⟩ := Prod.mk.injEq .. ▸ hnew
      rcases hp with hp | hp
      · exact h.held_lt x y p hk hp
      · exact absurd (hbatch.symm.trans hp) (by simp)
    · exact h.received_lt x y p hx (hp.imp_right (hheld x p))
  · refine List.pairwise_cons.mpr ⟨fun e he hke => ?_, h.never⟩
    exact h.received_lt k e.2 o (by rw [show k = e.1 from hke]; exact he) (Or.inr hk)
  · intro hi
    exact absurd hi (by simp)
  · intro x y hx
    exact absurd hx (by simp)

/-- A failed object is put back where nothing newer is. -/
lemma putBack (h : Latest q st) {k : Key} {o : MirrorObject} (hpc : q.pc = .failed k o) :
    Latest { q with
      pc := .between
      pending := if (q.pending.lookup k).isNone then q.pending.insert k o else q.pending } st := by
  obtain ⟨hk, hother⟩ := held_hand (Or.inr hpc)
  have hbatch : q.batch.lookup k = none := h.taken k o (Or.inr hpc)
  have hheld := h.held_of_batch (Or.inr hpc)
  have hpend : ∀ x p, (if (q.pending.lookup k).isNone then q.pending.insert k o
      else q.pending).lookup x = some p → q.pending.lookup x = some p ∨ q.held x = some p ∧ x = k := by
    intro x p hp
    split at hp
    · by_cases hx : x = k
      · subst hx
        rw [AList.lookup_insert] at hp
        exact Or.inr ⟨hk.trans hp, rfl⟩
      · rw [AList.lookup_insert_ne hx] at hp
        exact Or.inl hp
    · exact Or.inl hp
  constructor
  · intro x y hx
    rcases h.kept x y hx with hs | hp | hb
    · exact Or.inl hs
    · refine Or.inr (Or.inl ?_)
      split
      · rename_i hnone
        rw [AList.lookup_insert_ne fun hxk => ?_]
        · exact hp
        · rw [Option.isNone_iff_eq_none, ← hxk, hp] at hnone
          exact absurd hnone (by simp)
      · exact hp
    · by_cases hxk : x = k
      · subst hxk
        obtain rfl := Option.some.inj (hk.symm.trans hb)
        -- nothing is pending: it would be newer than the newest
        have hnone : q.pending.lookup x = none := by
          by_contra hne
          obtain ⟨p, hp⟩ := Option.ne_none_iff_exists'.mp hne
          obtain ⟨n, hn, hle⟩ := h.pending_le x p hp
          obtain rfl := Option.some.inj (hx.symm.trans hn)
          exact absurd (h.held_lt x o p hk hp) (not_lt.mpr hle)
        refine Or.inr (Or.inl ?_)
        rw [if_pos (by rw [hnone]; rfl), AList.lookup_insert]
      · exact Or.inr (Or.inr ((hother x hxk).symm.trans hb))
  · intro x y hx
    rcases hpend x y hx with hp | ⟨hp, -⟩
    · exact h.pending_le x y hp
    · exact h.held_le x y hp
  · exact fun x y hx => h.held_le x y (hheld x y hx)
  · exact h.received_le
  · intro x y p hx hp
    rcases hpend x p hp with hp | ⟨-, rfl⟩
    · exact h.held_lt x y p (hheld x y hx) hp
    · exact absurd (hbatch.symm.trans hx) (by simp)
  · intro x y p hx hp
    refine h.received_lt x y p hx ?_
    rcases hp with hp | hp
    · exact (hpend x p hp).imp_right (·.1)
    · exact Or.inr (hheld x p hp)
  · exact h.never
  · intro hi
    exact absurd hi (by simp)
  · intro x y hx
    exact absurd hx (by simp)

/-- **One step** of the queue keeps it. -/
theorem step {s t : MirrorObjects × Store} {a : MirrorAction} (h : Latest s.1 s.2)
    (ht : MirrorObjects.step s a = some t) : Latest t.1 t.2 := by
  have hheld : ∀ pc x, (∀ k o, s.1.pc ≠ .sending k o ∧ s.1.pc ≠ .failed k o) →
      (∀ k o, pc ≠ .sending k o ∧ pc ≠ .failed k o) →
      MirrorObjects.held { s.1 with pc := pc } x = s.1.held x := by
    intro pc x h1 h2
    rw [MirrorObjects.held, MirrorObjects.held]
    cases hs : s.1.pc <;> cases pc <;> simp_all
  cases a with
  | putBytes k body ct =>
      obtain rfl := Option.some.inj ht
      exact h.queue k body ct
  | start =>
      simp only [MirrorObjects.step] at ht
      split at ht
      · rename_i hpc
        obtain rfl := Option.some.inj ht
        exact h.same (fun k => hheld .waiting k (by simp [hpc]) (by simp)) rfl rfl rfl
          (fun _ => h.idle (Or.inl hpc)) (by simp [MirrorObjects.start])
      · exact absurd ht (by simp)
  | stop =>
      obtain rfl := Option.some.inj ht
      exact h.same (fun _ => rfl) rfl rfl rfl h.idle h.taken
  | look =>
      simp only [MirrorObjects.step] at ht
      split at ht
      · rename_i hpc
        obtain rfl := Option.some.inj ht
        have hb := h.idle (Or.inr (Or.inl hpc))
        refine h.same (fun k => hheld _ k (by simp [hpc]) ?_) rfl rfl rfl (fun _ => hb) ?_ <;>
          cases s.1.run <;> simp
      · exact absurd ht (by simp)
  | yield =>
      simp only [MirrorObjects.step] at ht
      split at ht
      · rename_i hpc
        obtain rfl := Option.some.inj ht
        exact h.same (fun k => hheld .waiting k (by simp [hpc]) (by simp)) rfl rfl rfl
          (fun _ => h.idle (Or.inr (Or.inr hpc))) (by simp)
      · exact absurd ht (by simp)
  | swap =>
      simp only [MirrorObjects.step] at ht
      split at ht
      · rename_i hpc
        obtain rfl := Option.some.inj ht
        exact h.swap hpc
      · exact absurd ht (by simp)
  | take k =>
      simp only [MirrorObjects.step] at ht
      split at ht
      · rename_i o hpc hk
        obtain rfl := Option.some.inj ht
        exact h.take hpc hk
      · exact absurd ht (by simp)
  | put ok =>
      simp only [MirrorObjects.step] at ht
      split at ht
      · rename_i k o hpc
        split at ht <;> obtain rfl := Option.some.inj ht
        · exact h.put hpc
        · refine h.same (fun x => ?_) rfl rfl rfl (by simp) fun x y hx => h.taken x y ?_
          · rw [MirrorObjects.held, MirrorObjects.held, hpc]
          · simp only [LoopPc.failed.injEq, reduceCtorEq, false_or] at hx
            rw [hpc, hx.1, hx.2]
            exact Or.inl rfl
      · exact absurd ht (by simp)
  | putBack =>
      simp only [MirrorObjects.step] at ht
      split at ht
      · rename_i k o hpc
        obtain rfl := Option.some.inj ht
        exact h.putBack hpc
      · exact absurd ht (by simp)
  | sleep =>
      simp only [MirrorObjects.step] at ht
      split at ht
      · rename_i hpc
        obtain rfl := Option.some.inj ht
        refine h.same (fun k => hheld .waiting k (by simp [hpc.1]) (by simp)) rfl rfl rfl
          (fun _ => ?_) (by simp)
        exact AList.ext (List.map_eq_nil_iff.mp hpc.2)
      · exact absurd ht (by simp)

end Latest

/-- Nothing has been queued, the thread has not been started, and the bucket may
hold anything. -/
def MirrorObjects.Fresh (s : MirrorObjects × Store) : Prop := s.1 = {}

/-- **Latest wins.**  However `put_bytes` and the loop interleave, and whichever of
the loop's requests fail: the second bucket takes no value of a key after a newer
one, and the newest value of each key is stored there, waiting, or in the batch. -/
theorem latest_wins {s : MirrorObjects × Store}
    (h : Lib.Reach MirrorObjects.step Lib.anyStep MirrorObjects.Fresh s) :
    NeverOlder s.1 ∧ NewestKept s.1 s.2 := by
  have hl : Latest s.1 s.2 := by
    refine Lib.Reach.invariant (I := fun s => Latest s.1 s.2) (fun t ht => ?_) ?_ h
    · rw [show t.1 = {} from ht]
      exact .start t.2
    · exact fun _ _ _ hs _ ht => hs.step ht
  refine ⟨hl.never, fun k o ho => ?_⟩
  rcases hl.kept k o ho with ⟨-, hs⟩ | hp | hb
  · exact Or.inl hs
  · exact Or.inr (Or.inl hp)
  · exact Or.inr (Or.inr hb)

/-- Two values of one key: the second is queued while the first is being sent, and
the PUT of the first fails. -/
def rewrittenMeanwhile : List MirrorAction :=
  [.start, .putBytes (.init "e") (.bytes [1]) "video/mp4", .look, .swap, .take (.init "e"),
    .putBytes (.init "e") (.bytes [2]) "video/mp4", .put false, .putBack, .sleep, .look, .swap,
    .take (.init "e"), .put true]

/-- There the second one is stored, and the first never was. -/
theorem latest_wins_rewritten : ∃ s : MirrorObjects × Store,
    (s.2 (.init "e") = some (.bytes [2]) ∧ s.1.received.length = 1) ∧
      NeverOlder s.1 ∧ NewestKept s.1 s.2 := by
  obtain ⟨s, hs, hP⟩ : ∃ s, Lib.Reach MirrorObjects.step Lib.anyStep MirrorObjects.Fresh s ∧
      s.2 (.init "e") = some (.bytes [2]) ∧ s.1.received.length = 1 :=
    Lib.exists_reach ({}, Store.empty) rewrittenMeanwhile rfl (by decide +kernel)
  exact ⟨s, hP, latest_wins hs⟩

end Multisite

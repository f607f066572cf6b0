import Mathlib.Data.String.Basic
import Multisite.Cloud.Lifecycle
import Multisite.Cloud.Cues

/-!
The cue permissions of a decoder over any sequence of wanted events, replies and resets: whose
they are, how many are kept, and when the next one is asked for.

* `CueCredentials.Sound`: the invariant, over the operations so far;
* `CueCredentials.sound_after`: every run keeps it;
* `nextFetch_kept`: an entry that is kept keeps the schedule its last reply set.
-/

namespace Multisite

open CloudIdentity

/-! ### Operations -/

/-- An operation on the permissions; a reply is for an event, a status and a body, or nothing
when the collector did not answer. -/
inductive CueOp where
  | wantEvent (id : String)
  | reply (id : String) (answer : Option (ℤ × String)) (nowMs : ℤ)
  | reset
  deriving DecidableEq, Repr

/-- What a reply for an event is parsed to. -/
def parsedCueReply (parse : String → Option Json) (id : String) (answer : Option (ℤ × String)) :
    CueCredentialsReply :=
  match answer with
  | none => { outcome := .unreachable }
  | some a => cloudParseCueCredentials parse a.2 a.1 id

/-- A permission granted is parsed for the event it is for. -/
lemma shaped_of_ok {parse : String → Option Json} {id : String} {answer : Option (ℤ × String)}
    (h : (parsedCueReply parse id answer).outcome = .ok) :
    cueKeyShaped id (parsedCueReply parse id answer).objectKey = true := by
  cases answer with
  | none => exact absurd h (by simp [parsedCueReply])
  | some a =>
      rw [parsedCueReply, cloudParseCueCredentials] at h ⊢
      dsimp only at h ⊢
      split at h
      · exact absurd h (by simp)
      rename_i h403
      rw [if_neg h403]
      split at h
      · exact absurd h (by simp)
      rename_i h409
      rw [if_neg h409]
      split at h
      · exact absurd h (by simp)
      rename_i h400
      rw [if_neg h400]
      split at h
      · exact absurd h (by simp)
      rename_i h200
      rw [if_neg h200]
      split at h
      · exact absurd h (by simp)
      rename_i hok
      rw [if_neg hok]
      cases hparse : parse a.2 with
      | none =>
          rw [hparse] at h
          exact absurd h (by simp)
      | some j =>
          rw [hparse] at h
          dsimp only at h ⊢
          split at h
          · exact absurd h (by simp)
          rename_i hshaped
          rw [if_neg hshaped]
          simpa using hshaped

namespace CueCredentials

variable {parse : String → Option Json} {x : CueCredentials} {l : List (String × CueEntry)}
  {id wanted : String}

variable (parse) in
/-- The permissions after an operation. -/
def apply (x : CueCredentials) : CueOp → CueCredentials
  | .wantEvent id => x.wantEvent id
  | .reply id answer nowMs => x.onReply id (parsedCueReply parse id answer) nowMs
  | .reset => x.reset

variable (parse) in
/-- The permissions after these operations. -/
def after (x : CueCredentials) (ops : List CueOp) : CueCredentials := ops.foldl (apply parse) x

/-! ### The map -/

/-- The entries are in order, each event once. -/
def Sorted (l : List (String × CueEntry)) : Prop := l.Pairwise fun a b => a.1 < b.1

lemma Sorted.nodup (hl : Sorted l) : (l.map (·.1)).Nodup :=
  List.pairwise_map.mpr (hl.imp fun h => h.ne)

lemma entry_eq_some (hl : Sorted l) {e : CueEntry} : entry l id = some e ↔ (id, e) ∈ l := by
  rw [entry, Option.map_eq_some_iff]
  constructor
  · rintro ⟨p, hp, rfl⟩
    have hid := List.find?_some hp
    rw [decide_eq_true_eq] at hid
    rw [← hid]
    exact List.mem_of_find?_eq_some hp
  · intro hmem
    obtain ⟨p, hp⟩ : ∃ p, l.find? (fun e => e.1 = id) = some p :=
      Option.isSome_iff_exists.mp (List.find?_isSome.mpr ⟨_, hmem, by simp⟩)
    have hid := List.find?_some hp
    rw [decide_eq_true_eq] at hid
    have hsame := List.inj_on_of_nodup_map hl.nodup (List.mem_of_find?_eq_some hp) hmem hid
    exact ⟨p, hp, by rw [hsame]⟩

lemma entry_eq_none : entry l id = none ↔ id ∉ l.map (·.1) := by
  rw [entry, Option.map_eq_none_iff, List.find?_eq_none, List.mem_map]
  constructor
  · rintro h ⟨e, he, rfl⟩
    exact h e he (by simp)
  · intro h e he hid
    exact h ⟨e, he, by simpa using hid⟩

lemma isSome_entry : (entry l id).isSome = true ↔ id ∈ l.map (·.1) := by
  rw [← not_iff_not, ← entry_eq_none, Bool.not_eq_true, Option.isSome_eq_false_iff,
    Option.isNone_iff_eq_none]

lemma mem_emplace_of_mem {e : String × CueEntry} (h : e ∈ l) : e ∈ emplace id l := by
  induction l with
  | nil => exact absurd h (by simp)
  | cons e' rest ih =>
      rw [emplace_cons]
      split
      · exact h
      split
      · exact List.mem_cons_of_mem _ h
      · rcases List.mem_cons.mp h with rfl | h'
        · exact List.mem_cons_self
        · exact List.mem_cons_of_mem _ (ih h')

lemma eq_or_mem_of_mem_emplace {e : String × CueEntry} (h : e ∈ emplace id l) :
    e = (id, {}) ∨ e ∈ l := by
  induction l with
  | nil => exact Or.inl (by simpa [emplace] using h)
  | cons e' rest ih =>
      rw [emplace_cons] at h
      split at h
      · exact Or.inr h
      split at h
      · exact (List.mem_cons.mp h)
      · rcases List.mem_cons.mp h with rfl | h'
        · exact Or.inr List.mem_cons_self
        · exact (ih h').imp_right (List.mem_cons_of_mem _)

lemma id_mem_emplace : id ∈ (emplace id l).map (·.1) := by
  induction l with
  | nil => simp [emplace]
  | cons e rest ih =>
      rw [emplace_cons]
      split
      · rename_i he
        exact List.mem_map.mpr ⟨e, List.mem_cons_self, he⟩
      split
      · exact List.mem_map.mpr ⟨(id, {}), List.mem_cons_self, rfl⟩
      · rw [List.map_cons]
        exact List.mem_cons_of_mem _ ih

lemma sorted_emplace (hl : Sorted l) : Sorted (emplace id l) := by
  induction l with
  | nil => exact List.pairwise_singleton _ _
  | cons e rest ih =>
      obtain ⟨hhead, hrest⟩ := List.pairwise_cons.mp hl
      rw [emplace_cons]
      split
      · exact hl
      rename_i hne
      split
      · rename_i hlt
        refine List.pairwise_cons.mpr ⟨fun e' he' => ?_, hl⟩
        rcases List.mem_cons.mp he' with rfl | hmem
        · exact hlt
        · exact lt_trans hlt (hhead e' hmem)
      · rename_i hnlt
        refine List.pairwise_cons.mpr ⟨fun e' he' => ?_, ih hrest⟩
        rcases eq_or_mem_of_mem_emplace he' with rfl | hmem
        · exact lt_of_le_of_ne (not_lt.mp hnlt) hne
        · exact hhead e' hmem

lemma evict_sublist (n : ℕ) (l : List (String × CueEntry)) : (evict wanted n l).Sublist l := by
  induction l generalizing n with
  | nil => exact List.Sublist.refl _
  | cons e rest ih =>
      rw [evict_cons]
      split
      · split
        · exact (ih n).cons_cons e
        · exact (ih (n - 1)).cons e
      · exact List.Sublist.refl _

/-- The wanted event is never evicted. -/
lemma mem_evict {e : String × CueEntry} (he : e ∈ l) (hwanted : e.1 = wanted) (n : ℕ) :
    e ∈ evict wanted n l := by
  induction l generalizing n with
  | nil => exact absurd he (by simp)
  | cons e' rest ih =>
      rw [evict_cons]
      split
      · split
        · rcases List.mem_cons.mp he with rfl | h
          · exact List.mem_cons_self
          · exact List.mem_cons_of_mem _ (ih h n)
        · rename_i hne
          rcases List.mem_cons.mp he with rfl | h
          · exact absurd hwanted hne
          · exact ih h (n - 1)
      · exact he

/-- Of `k` entries passed over, all wanted, and those ahead no more than the cap are left. -/
lemma length_evict_le (k : ℕ) (hl : (l.map (·.1)).Nodup) (hk : k = 0 ∨ k = 1 ∧ wanted ∉ l.map (·.1)) :
    k + (evict wanted (k + l.length) l).length ≤ kMaxEntries := by
  induction l generalizing k with
  | nil => rcases hk with rfl | ⟨rfl, -⟩ <;> simp [evict, kMaxEntries]
  | cons e rest ih =>
      rw [List.map_cons, List.nodup_cons] at hl
      rw [evict_cons]
      split
      · split
        · rename_i he
          have hk0 : k = 0 := by
            rcases hk with hk | ⟨-, hmem⟩
            · exact hk
            · exact absurd (by rw [List.map_cons, he]; exact List.mem_cons_self) hmem
          subst hk0
          have := ih 1 hl.2 (Or.inr ⟨rfl, he ▸ hl.1⟩)
          rw [List.length_cons, List.length_cons, show 0 + (rest.length + 1) = 1 + rest.length by omega]
          omega
        · have := ih k hl.2 (hk.imp_right fun h =>
            ⟨h.1, fun hmem => h.2 (by rw [List.map_cons]; exact List.mem_cons_of_mem _ hmem)⟩)
          rw [List.length_cons, show k + (rest.length + 1) - 1 = k + rest.length by omega]
          exact this
      · rename_i hle
        exact not_lt.mp hle

lemma length_evict (hl : Sorted l) : (evict wanted l.length l).length ≤ kMaxEntries := by
  simpa using length_evict_le 0 hl.nodup (Or.inl rfl)

/-! ### What holds of every run -/

variable {ops ops' : List CueOp} {op : CueOp}

variable (parse) in
/-- The entry's permission was granted by a reply parsed for the event. -/
def Granted (ops : List CueOp) (id : String) (e : CueEntry) : Prop :=
  ∃ answer nowMs, .reply id answer nowMs ∈ ops ∧ (parsedCueReply parse id answer).outcome = .ok ∧
    (parsedCueReply parse id answer).objectKey = e.objectKey ∧
    SameSet (parsedCueReply parse id answer).creds e.creds

variable (parse) in
/-- The invariant, over the operations so far. -/
structure Sound (ops : List CueOp) (x : CueCredentials) : Prop where
  sorted : Sorted x.entries
  few : x.entries.length ≤ kMaxEntries
  wanted : x.wanted ≠ "" → x.wanted ∈ x.entries.map (·.1)
  granted : ∀ e ∈ x.entries, e.2.creds.present = true → Granted parse ops e.1 e.2

lemma Granted.mono {e : CueEntry} (h : Granted parse ops id e) (op : CueOp) :
    Granted parse (ops ++ [op]) id e := by
  obtain ⟨answer, nowMs, hmem, hrest⟩ := h
  exact ⟨answer, nowMs, List.mem_append_left _ hmem, hrest⟩

lemma Granted.marked {e e' : CueEntry} (h : Granted parse ops id e) (hcreds : SameSet e.creds e'.creds)
    (hkey : e'.objectKey = e.objectKey) : Granted parse ops id e' := by
  obtain ⟨answer, nowMs, hmem, hok, hobject, hsame⟩ := h
  exact ⟨answer, nowMs, hmem, hok, hobject.trans hkey.symm, hsame.trans hcreds⟩

lemma sound_empty : Sound parse [] {} :=
  ⟨List.Pairwise.nil, Nat.zero_le _, fun h => absurd rfl h, fun e he => absurd he (by simp)⟩

/-- A reply that grants nothing leaves the permission, marked or not. -/
lemma updated_keeps {e : CueEntry} {r : CueCredentialsReply} {nowMs : ℤ} (h : r.outcome ≠ .ok) :
    SameSet e.creds (updated e r nowMs).creds ∧ (updated e r nowMs).objectKey = e.objectKey := by
  rw [updated]
  split
  · exact absurd ‹_› h
  · exact ⟨SameSet.refl _, rfl⟩
  · exact ⟨SameSet.refl _, rfl⟩
  · dsimp only
    by_cases hpresent : e.creds.present = true
    · rw [if_pos hpresent]
      exact ⟨SameSet.marked _ _, rfl⟩
    · rw [if_neg hpresent]
      exact ⟨SameSet.refl _, rfl⟩

lemma updated_ok {e : CueEntry} {r : CueCredentialsReply} {nowMs : ℤ} (h : r.outcome = .ok) :
    (updated e r nowMs).creds = { r.creds with fromLastGood := false } ∧
      (updated e r nowMs).objectKey = r.objectKey := by
  rw [updated, h]
  exact ⟨rfl, rfl⟩

lemma sound_wantEvent (h : Sound parse ops x) (id : String) :
    Sound parse (ops ++ [.wantEvent id]) (x.wantEvent id) := by
  have hkept : ∀ e ∈ x.entries, e.2.creds.present = true →
      Granted parse (ops ++ [.wantEvent id]) e.1 e.2 :=
    fun e he hpresent => (h.granted e he hpresent).mono _
  rw [wantEvent]
  split
  · exact ⟨h.sorted, h.few, h.wanted, hkept⟩
  split
  · rename_i hempty
    exact ⟨h.sorted, h.few, fun hne => absurd hempty hne, hkept⟩
  have hsorted := @sorted_emplace _ id h.sorted
  refine ⟨hsorted.sublist (evict_sublist _ _), length_evict hsorted, fun _ => ?_,
    fun e he hpresent => ?_⟩
  · obtain ⟨e, he, hid⟩ := List.mem_map.mp (id_mem_emplace (l := x.entries))
    exact List.mem_map.mpr ⟨e, mem_evict he hid _, hid⟩
  · rcases eq_or_mem_of_mem_emplace ((evict_sublist _ _).subset he) with rfl | hmem
    · exact absurd hpresent (by simp [Credentials.present])
    · exact hkept e hmem hpresent

lemma map_fst_onReply (r : CueCredentialsReply) (nowMs : ℤ) :
    (x.onReply id r nowMs).entries.map (·.1) = x.entries.map (·.1) := by
  rw [onReply]
  split
  · rw [List.map_map]
    rfl
  · rw [List.map_map]
    refine List.map_congr_left fun e _ => ?_
    show (if e.1 = id then (e.1, updated e.2 r nowMs) else e).1 = e.1
    split <;> rfl

lemma sorted_of_map_fst {l l' : List (String × CueEntry)} (h : l'.map (·.1) = l.map (·.1))
    (hl : Sorted l) : Sorted l' := by
  have hmap : (l.map (·.1)).Pairwise (· < ·) := List.pairwise_map.mpr hl
  rw [← h] at hmap
  exact List.pairwise_map.mp hmap

lemma sound_reply (h : Sound parse ops x) (id : String) (answer : Option (ℤ × String))
    (nowMs : ℤ) : Sound parse (ops ++ [.reply id answer nowMs])
      (x.onReply id (parsedCueReply parse id answer) nowMs) := by
  have hkeys := @map_fst_onReply x id (parsedCueReply parse id answer) nowMs
  have hwanted : (x.onReply id (parsedCueReply parse id answer) nowMs).wanted = x.wanted := by
    rw [onReply]
    split <;> rfl
  refine ⟨sorted_of_map_fst hkeys h.sorted, ?_, fun hne => ?_, fun e' he' hpresent => ?_⟩
  · have := congrArg List.length hkeys
    rw [List.length_map, List.length_map] at this
    rw [this]
    exact h.few
  · rw [hkeys, hwanted]
    exact h.wanted (hwanted ▸ hne)
  rw [onReply] at he'
  split at he'
  · obtain ⟨e, he, rfl⟩ := List.mem_map.mp he'
    have hsame : SameSet e.2.creds
        (if e.2.creds.present then { e.2.creds with fromLastGood := true } else e.2.creds) := by
      split
      · exact SameSet.marked _ _
      · exact SameSet.refl _
    have hpresent' : e.2.creds.present = true := hsame.present ▸ hpresent
    exact ((h.granted e he hpresent').mono _).marked hsame rfl
  · obtain ⟨e, he, rfl⟩ := List.mem_map.mp he'
    by_cases hid : e.1 = id
    · rw [if_pos hid] at hpresent ⊢
      by_cases hok : (parsedCueReply parse id answer).outcome = .ok
      · obtain ⟨hcreds, hkey⟩ := updated_ok (e := e.2) hok
        refine ⟨answer, nowMs, by rw [hid]; exact List.mem_append_right _ List.mem_cons_self, ?_⟩
        rw [hid]
        exact ⟨hok, hkey.symm, by rw [hcreds]; exact SameSet.marked _ _⟩
      · obtain ⟨hsame, hkey⟩ := updated_keeps (e := e.2) hok
        exact ((h.granted e he (hsame.present ▸ hpresent)).mono _).marked hsame hkey
    · rw [if_neg hid] at hpresent ⊢
      exact (h.granted e he hpresent).mono _

lemma sound_reset (ops : List CueOp) (x : CueCredentials) :
    Sound parse (ops ++ [.reset]) x.reset := by
  rw [reset]
  split
  · refine ⟨List.pairwise_singleton _ _, by simp [kMaxEntries], fun _ => by simp, fun e he hpresent => ?_⟩
    obtain rfl := List.mem_singleton.mp he
    exact absurd hpresent (by simp [Credentials.present])
  · rename_i hempty
    exact ⟨List.Pairwise.nil, Nat.zero_le _, fun hne => absurd hne hempty,
      fun e he => absurd he (by simp)⟩

/-- **One operation keeps the invariant.** -/
lemma sound_apply (h : Sound parse ops x) (op : CueOp) :
    Sound parse (ops ++ [op]) (x.apply parse op) := by
  cases op with
  | wantEvent id => exact sound_wantEvent h id
  | reply id answer nowMs => exact sound_reply h id answer nowMs
  | reset => exact sound_reset ops x

/-- **Every run keeps it.** -/
theorem sound_after (ops : List CueOp) : Sound parse ops (after parse {} ops) := by
  induction ops using List.reverseRecOn with
  | nil => exact sound_empty
  | append_singleton ops op ih =>
      rw [after, List.foldl_append]
      exact sound_apply ih op

/-- **What is held** for an event has time left, and was granted for it. -/
lemma held_granted (h : Sound parse ops x) {nowMs : ℤ} (hheld : (x.held id nowMs).present = true) :
    nowMs < (x.held id nowMs).creds.expiresAtMs ∧
      cueKeyShaped id (x.held id nowMs).objectKey = true ∧
      ∃ answer at', .reply id answer at' ∈ ops ∧ (parsedCueReply parse id answer).outcome = .ok ∧
        (parsedCueReply parse id answer).objectKey = (x.held id nowMs).objectKey ∧
        SameSet (parsedCueReply parse id answer).creds (x.held id nowMs).creds := by
  cases he : entry x.entries id with
  | none =>
      rw [held, he] at hheld
      exact absurd hheld (by simp)
  | some e =>
      by_cases hpresent : e.creds.present && e.objectKey ≠ "" && decide (nowMs < e.creds.expiresAtMs)
      · have hval : x.held id nowMs =
            { present := true, creds := e.creds, objectKey := e.objectKey } := by
          rw [held, he]
          exact if_pos hpresent
        rw [Bool.and_eq_true, Bool.and_eq_true] at hpresent
        obtain ⟨answer, at', hmem, hok, hkey, hsame⟩ :=
          h.granted (id, e) ((entry_eq_some h.sorted).mp he) hpresent.1.1
        rw [hval]
        refine ⟨of_decide_eq_true hpresent.2, ?_, answer, at', hmem, hok, hkey, hsame⟩
        show cueKeyShaped id e.objectKey = true
        rw [← hkey]
        exact shaped_of_ok hok
      · rw [held, he] at hheld
        dsimp only at hheld
        rw [if_neg hpresent] at hheld
        split at hheld
        · exact absurd hheld (by simp)
        · split at hheld <;> exact absurd hheld (by simp)

/-! ### When the next one is asked for -/

/-- A key of the shape asked for is directly inside the event's `cues/`, and ends in `.json`. -/
lemma exists_of_cueKeyShaped {key : String} (h : cueKeyShaped id key = true) :
    id ≠ "" ∧ ∃ name, name ≠ "" ∧ '/' ∉ name.toList ∧
      key = "events/" ++ id ++ "/cues/" ++ name ++ ".json" := by
  rw [cueKeyShaped] at h
  simp only [Bool.and_eq_true, decide_eq_true_eq, List.isPrefixOf_iff_prefix,
    List.isSuffixOf_iff_suffix, Bool.not_eq_true', List.contains_eq_mem,
    decide_eq_false_iff_not] at h
  obtain ⟨⟨⟨⟨hid, hlt⟩, rest, hpre⟩, hsuf⟩, hslash⟩ := h
  refine ⟨hid, ?_⟩
  have hlen : ".json".toList.length ≤ rest.length := by
    rw [← hpre, List.length_append] at hlt
    omega
  -- The suffix is longer than nothing and no longer than what follows the prefix.
  have hsuf' : ".json".toList <:+ rest :=
    List.suffix_of_suffix_length_le hsuf ⟨_, hpre⟩ hlen
  obtain ⟨name, hname⟩ := hsuf'
  refine ⟨String.ofList name, ?_, ?_, ?_⟩
  · intro hempty
    have hnil : name = [] := by
      have := congrArg String.toList hempty
      simpa using this
    rw [← hpre, ← hname, hnil, List.nil_append, List.length_append] at hlt
    exact absurd hlt (lt_irrefl _)
  · rw [String.toList_ofList]
    intro hmem
    refine hslash ?_
    rw [← hpre, List.drop_left, ← hname]
    exact List.mem_append_left _ hmem
  · refine String.toList_injective ?_
    rw [← hpre, ← hname]
    simp

lemma onReply_of_notMem {r : CueCredentialsReply} {nowMs : ℤ} (h : id ∉ x.entries.map (·.1))
    (hr : r.outcome ≠ .unpaired) : x.onReply id r nowMs = x := by
  have hmap : x.entries.map (fun e => if e.1 = id then (e.1, updated e.2 r nowMs) else e) =
      x.entries := by
    refine (List.map_congr_left fun e he => ?_).trans (List.map_id _)
    exact if_neg fun hid => h (List.mem_map.mpr ⟨e, he, hid⟩)
  rw [onReply, if_neg hr, hmap]

/-- What a fetch is due to. -/
lemma fetch_spec {nowMs : ℤ} (h : (x.tick nowMs).fetch = true) :
    (x.tick nowMs).eventId = x.wanted ∧ x.wanted ≠ "" ∧ x.unpaired = false ∧
      ∃ e, entry x.entries x.wanted = some e ∧ e.stopped = false ∧
        (e.nextFetchAtMs = 0 ∨ e.nextFetchAtMs ≤ nowMs) := by
  by_cases hoff : x.unpaired || x.wanted = ""
  · rw [tick, if_pos hoff] at h
    exact absurd h (by simp)
  cases he : entry x.entries x.wanted with
  | none =>
      rw [tick, if_neg hoff, he] at h
      exact absurd h (by simp)
  | some e =>
      have hval : x.tick nowMs =
          if e.stopped then {}
          else if e.nextFetchAtMs = 0 ∨ e.nextFetchAtMs ≤ nowMs then
            { fetch := true, eventId := x.wanted }
          else {} := by
        rw [tick, if_neg hoff, he]
      rw [hval] at h ⊢
      by_cases hstopped : e.stopped = true
      · rw [if_pos hstopped] at h
        exact absurd h (by simp)
      rw [if_neg hstopped] at h ⊢
      by_cases hdue : e.nextFetchAtMs = 0 ∨ e.nextFetchAtMs ≤ nowMs
      · rw [if_pos hdue]
        rw [Bool.or_eq_true, not_or] at hoff
        exact ⟨rfl, fun hempty => hoff.2 (by simpa using hempty), by simpa using hoff.1, e, rfl,
          by simpa using hstopped, hdue⟩
      · rw [if_neg hdue] at h
        exact absurd h (by simp)

/-- Once unpaired, no operation but a reset undoes it. -/
lemma unpaired_apply (h : x.unpaired = true) (hop : op ≠ .reset) :
    (x.apply parse op).unpaired = true := by
  cases op with
  | wantEvent id =>
      rw [apply, wantEvent]
      split
      · exact h
      split
      · exact h
      · exact h
  | reply id answer nowMs =>
      rw [apply, onReply]
      split
      · rfl
      · exact h
  | reset => exact absurd rfl hop

lemma after_append (ops ops' : List CueOp) : x.after parse (ops ++ ops') =
    (x.after parse ops).after parse ops' := List.foldl_append

lemma unpaired_after (h : x.unpaired = true) (hops : CueOp.reset ∉ ops) :
    (x.after parse ops).unpaired = true := by
  induction ops generalizing x with
  | nil => exact h
  | cons op ops ih =>
      rw [List.mem_cons, not_or] at hops
      exact ih (unpaired_apply h fun hreset => hops.1 hreset.symm) hops.2

/-- The time a reply leaves for the next one: later than the reply, or never. -/
lemma updated_next {e : CueEntry} {r : CueCredentialsReply} {nowMs : ℤ} :
    (updated e r nowMs).stopped = true ∨ nowMs < (updated e r nowMs).nextFetchAtMs := by
  have hwait (wait : ℤ) : 0 < retryWait wait := by
    rw [retryWait]
    dsimp only [kCueRetryMs, kCueRetryCapMs]
    split_ifs <;> omega
  rw [updated]
  split
  · right
    dsimp only
    split
    · rw [kCueRetryMs]
      omega
    · omega
  · exact Or.inl rfl
  · exact Or.inl rfl
  · right
    dsimp only
    split
    · exact lt_add_of_pos_right _ (hwait _)
    · exact lt_add_of_pos_right _ (hwait _)

/-- The entry's schedule: when it is asked for next, or that it is not. -/
def SameSchedule (e e' : CueEntry) : Prop :=
  e'.nextFetchAtMs = e.nextFetchAtMs ∧ e'.stopped = e.stopped

variable (parse) in
/-- From here on the event is kept, and nothing but replies for others reach the permissions. -/
def Undisturbed (x : CueCredentials) (id : String) (ops : List CueOp) : Prop :=
  .reset ∉ ops ∧ (∀ answer nowMs, .reply id answer nowMs ∉ ops) ∧
    ∀ pre, pre <+: ops → id ∈ (x.after parse pre).entries.map (·.1)

/-- Neither a switch of events nor a reply for another one moves an entry's schedule. -/
lemma sameSchedule_apply {e : CueEntry} (hx : Sorted x.entries) (he : (id, e) ∈ x.entries)
    (hop : op ≠ .reset) (hreply : ∀ answer nowMs, op ≠ .reply id answer nowMs)
    (hkept : id ∈ (x.apply parse op).entries.map (·.1)) :
    ∃ e', (id, e') ∈ (x.apply parse op).entries ∧ SameSchedule e e' := by
  cases op with
  | wantEvent id' =>
      refine ⟨e, ?_, rfl, rfl⟩
      rw [apply, wantEvent] at hkept ⊢
      split at hkept
      · rename_i hsame
        rwa [if_pos hsame]
      rename_i hsame
      rw [if_neg hsame]
      split at hkept
      · rename_i hempty
        rwa [if_pos hempty]
      rename_i hempty
      rw [if_neg hempty]
      dsimp only at hkept ⊢
      -- What is still there for the event was there before: each event has one entry.
      obtain ⟨p, hp, hid⟩ := List.mem_map.mp hkept
      have hmem := (evict_sublist _ _).subset hp
      have hsorted := @sorted_emplace _ id' hx
      have hsame := List.inj_on_of_nodup_map hsorted.nodup hmem (mem_emplace_of_mem he) hid
      rwa [hsame] at hp
  | reply id' answer nowMs =>
      have hne : id ≠ id' := fun heq => hreply answer nowMs (by rw [heq])
      rw [apply, onReply]
      split
      · exact ⟨_, List.mem_map.mpr ⟨(id, e), he, rfl⟩, rfl, rfl⟩
      · exact ⟨e, List.mem_map.mpr ⟨(id, e), he, if_neg hne⟩, rfl, rfl⟩
  | reset => exact absurd rfl hop

/-- **An entry that is kept keeps its schedule** until a reply for its event. -/
lemma sameSchedule_after {e : CueEntry} (h : Sound parse ops x) (he : (id, e) ∈ x.entries)
    (hops : Undisturbed parse x id ops') :
    ∃ e', (id, e') ∈ (x.after parse ops').entries ∧ SameSchedule e e' := by
  induction ops' generalizing ops x e with
  | nil => exact ⟨e, he, rfl, rfl⟩
  | cons op ops' ih =>
      obtain ⟨hreset, hreply, hkept⟩ := hops
      obtain ⟨e', he', hnext, hstopped⟩ := sameSchedule_apply h.sorted he
        (fun heq => hreset (by rw [heq]; exact List.mem_cons_self))
        (fun answer nowMs heq => hreply answer nowMs (by rw [heq]; exact List.mem_cons_self))
        (hkept [op] ⟨ops', rfl⟩)
      have hops' : Undisturbed parse (x.apply parse op) id ops' :=
        ⟨fun hmem => hreset (List.mem_cons_of_mem _ hmem),
          fun answer nowMs hmem => hreply answer nowMs (List.mem_cons_of_mem _ hmem),
          fun pre hpre => hkept (op :: pre) (List.prefix_cons_inj op |>.mpr hpre)⟩
      obtain ⟨e'', he'', hnext', hstopped'⟩ := ih (sound_apply h op) he' hops'
      exact ⟨e'', he'', hnext'.trans hnext, hstopped'.trans hstopped⟩

/-- The next fetch of an event that has been kept since the last reply for it. -/
lemma nextFetch_kept {answer : Option (ℤ × String)} {at' nowMs : ℤ} {pre post : List CueOp}
    (hreply : (parsedCueReply parse id answer).outcome ≠ .unpaired)
    (hpost : Undisturbed parse (after parse {} (pre ++ [.reply id answer at'])) id post)
    {e' : CueEntry}
    (he' : entry (after parse {} (pre ++ .reply id answer at' :: post)).entries id = some e')
    (hstopped : e'.stopped = false) (hdue : e'.nextFetchAtMs = 0 ∨ e'.nextFetchAtMs ≤ nowMs) :
    ∃ e, entry (after parse {} (pre ++ [.reply id answer at'])).entries id = some e ∧
      at' < e.nextFetchAtMs ∧ (e.nextFetchAtMs = 0 ∨ e.nextFetchAtMs ≤ nowMs) := by
  have hsound := @sound_after parse (pre ++ [.reply id answer at'])
  have hsplit : after parse {} (pre ++ .reply id answer at' :: post) =
      (after parse {} (pre ++ [.reply id answer at'])).after parse post := by
    rw [← after_append, List.append_assoc, List.singleton_append]
  obtain ⟨p, hp, hid⟩ := List.mem_map.mp (hpost.2.2 [] (List.nil_prefix))
  obtain ⟨id', e⟩ := p
  obtain rfl : id' = id := hid
  obtain ⟨e'', he'', hnext, hstop⟩ := sameSchedule_after hsound hp hpost
  have hsound' := @sound_after parse (pre ++ .reply id' answer at' :: post)
  rw [hsplit] at he' hsound'
  obtain rfl : e'' = e' :=
    Option.some_injective _ (((entry_eq_some hsound'.sorted).mpr he'').symm.trans he')
  -- The entry is what the reply left there.
  have hleft : e.stopped = true ∨ at' < e.nextFetchAtMs := by
    have hval : after parse {} (pre ++ [.reply id' answer at']) =
        (after parse {} pre).onReply id' (parsedCueReply parse id' answer) at' := by
      rw [after_append]
      rfl
    rw [hval, onReply, if_neg hreply] at hp
    obtain ⟨p, -, hp'⟩ := List.mem_map.mp hp
    by_cases hpid : p.1 = id'
    · rw [if_pos hpid] at hp'
      have he : updated p.2 (parsedCueReply parse id' answer) at' = e := congrArg Prod.snd hp'
      rw [← he]
      exact updated_next
    · rw [if_neg hpid] at hp'
      exact absurd (congrArg Prod.fst hp') hpid
  rw [hstop] at hstopped
  rw [hnext] at hdue
  exact ⟨e, (entry_eq_some hsound.sorted).mpr hp, hleft.resolve_left (by simp [hstopped]), hdue⟩

/-- **Cue permissions stay in their event.** After any operations, at most `kMaxEntries` are kept,
the wanted event's among them. One that is held is a set with time left, for a key directly inside
its event's `cues/`, granted by a reply for that event. A reply for an event not kept changes
nothing, unless it says that the device is no longer paired. A fetch is for the wanted event, not
after such a reply until a reset, and not before the time the last reply for the event left, as
long as the event has been kept since. -/
theorem cue_permissions (parse : String → Option Json) (ops : List CueOp) :
    (after parse {} ops).entries.length ≤ kMaxEntries ∧
      ((after parse {} ops).wanted ≠ "" →
        ∃ e, entry (after parse {} ops).entries (after parse {} ops).wanted = some e) ∧
      (∀ id nowMs, ((after parse {} ops).held id nowMs).present = true →
        nowMs < ((after parse {} ops).held id nowMs).creds.expiresAtMs ∧
        (∃ name, name ≠ "" ∧ '/' ∉ name.toList ∧
          ((after parse {} ops).held id nowMs).objectKey =
            "events/" ++ id ++ "/cues/" ++ name ++ ".json") ∧
        ∃ answer at', .reply id answer at' ∈ ops ∧
          (parsedCueReply parse id answer).outcome = .ok ∧
          (parsedCueReply parse id answer).objectKey =
            ((after parse {} ops).held id nowMs).objectKey ∧
          SameSet (parsedCueReply parse id answer).creds
            ((after parse {} ops).held id nowMs).creds) ∧
      (∀ id answer nowMs, entry (after parse {} ops).entries id = none →
        (parsedCueReply parse id answer).outcome ≠ .unpaired →
        after parse {} (ops ++ [.reply id answer nowMs]) = after parse {} ops) ∧
      ∀ nowMs, ((after parse {} ops).tick nowMs).fetch = true →
        ((after parse {} ops).tick nowMs).eventId = (after parse {} ops).wanted ∧
        (after parse {} ops).wanted ≠ "" ∧
        (∀ pre id answer at' post, ops = pre ++ .reply id answer at' :: post →
          (parsedCueReply parse id answer).outcome = .unpaired → .reset ∈ post) ∧
        ∀ pre answer at' post,
          ops = pre ++ .reply (after parse {} ops).wanted answer at' :: post →
          Undisturbed parse
            (after parse {} (pre ++ [.reply (after parse {} ops).wanted answer at']))
            (after parse {} ops).wanted post →
          ∃ e, entry (after parse {}
              (pre ++ [.reply (after parse {} ops).wanted answer at'])).entries
              (after parse {} ops).wanted = some e ∧
            at' < e.nextFetchAtMs ∧ (e.nextFetchAtMs = 0 ∨ e.nextFetchAtMs ≤ nowMs) := by
  have hsound := @sound_after parse ops
  refine ⟨hsound.few, fun hne => ?_, fun id nowMs hheld => ?_, fun id answer nowMs hnone hr => ?_,
    fun nowMs hfetch => ?_⟩
  · exact Option.isSome_iff_exists.mp (isSome_entry.mpr (hsound.wanted hne))
  · obtain ⟨hleft, hshaped, hgranted⟩ := held_granted hsound hheld
    exact ⟨hleft, (exists_of_cueKeyShaped hshaped).2, hgranted⟩
  · rw [after_append]
    exact onReply_of_notMem (entry_eq_none.mp hnone) hr
  · obtain ⟨hid, hne, hpaired, e', he', hstopped, hdue⟩ := fetch_spec hfetch
    have hlatch (pre : List CueOp) (id : String) (answer : Option (ℤ × String)) (at' : ℤ)
        (post : List CueOp) (hops : ops = pre ++ .reply id answer at' :: post)
        (hr : (parsedCueReply parse id answer).outcome = .unpaired) : .reset ∈ post := by
      by_contra hreset
      have hun : ((after parse {} pre).apply parse (.reply id answer at')).unpaired = true := by
        rw [apply, onReply, if_pos hr]
      have := @unpaired_after parse _ _ hun hreset
      rw [hops, after_append] at hpaired
      exact absurd (hpaired.symm.trans this) (by simp)
    refine ⟨hid, hne, hlatch, fun pre answer at' post hops hpost => ?_⟩
    refine nextFetch_kept (fun hr => hpost.1 (hlatch _ _ _ _ _ hops hr)) hpost ?_ hstopped hdue
    rw [← hops]
    exact he'

/-- A reply for an event that is not kept changes what is done for every other. -/
theorem unpaired_counterexample : ¬ ∀ (parse : String → Option Json) (ops : List CueOp) (id : String)
    (answer : Option (ℤ × String)) (nowMs : ℤ), entry (after parse {} ops).entries id = none →
      after parse {} (ops ++ [.reply id answer nowMs]) = after parse {} ops := by
  intro h
  have := congrArg CueCredentials.unpaired
    (h (fun _ => none) [.wantEvent "E"] "D" (some (403, "")) 0 (by decide))
  exact absurd this (by decide)

end CueCredentials

end Multisite

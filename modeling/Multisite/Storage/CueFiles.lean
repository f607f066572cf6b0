import Multisite.Storage.Bucket
import Multisite.Decoder.Session
import Multisite.Lib.Run

/-!
The cue objects of an event (`DecoderSession::add_cue`, `Session::add_cue_from`).

Every author has an object of its own under `cues/`, and a cue is added by reading that object,
appending to what was read, and writing it back: by the site itself, under a key of its own
making or one its cue credential names, or by the encoder for a site of its LAN.  Nothing
orders two adds but their requests.

* `count_mergeMarkers`: merging gives a cue once, whose id no other cue has;
* `cue_objects_keep`: where no add begins on an object that another add has read and not yet
  written, and no GET fails on an object there is, every cue whose add reported success is in
  the objects for good, and merging gives it once;
* `site_cue_lost`: two names with one key, and a GET that fails.
-/

namespace Multisite

/-! ### Keys -/

/-- `cues_prefix_for`. -/
def cuesPrefixFor (eventId : String) : String := eventPrefixFor eventId ++ "cues/"

/-- The loop of `cue_author_token`: the token so far, and whether it ends in a dash. -/
def tokenLoop : List Char → List Char × Bool → List Char
  | [], t => t.1
  | c :: cs, t =>
      if c.isAlphanum then tokenLoop cs (t.1 ++ [c.toLower], false)
      else if c ∈ [' ', '-', '_', '.', '/'] then
        tokenLoop cs (if t.1 ≠ [] ∧ t.2 = false then (t.1 ++ ['-'], true) else t)
      -- anything else is dropped rather than turned into a dash
      else tokenLoop cs t

/-- `cue_author_token`. -/
def cueAuthorToken (displayName : String) : String :=
  let t := (tokenLoop displayName.toList ([], false)).rdropWhile (· = '-')
  if t = [] then "site" else String.ofList t

/-- `cue_object_key`. -/
def cueObjectKey (eventId displayName : String) : String :=
  cuesPrefixFor eventId ++ cueAuthorToken displayName ++ ".json"

/-! ### A cue of a site -/

/-- `CueTarget`: the credential's key, where the device holds one, or why it does not. -/
structure CueTarget where
  tx : Bool
  objectKey : String := ""
  why : String := ""
  deriving DecidableEq, Repr

/-- The cue settings of a `DecoderConfig`. -/
structure CueConfig where
  authorName : String := ""
  canAuthorCues : Bool := true
  cueHub : Bool := false
  cueTarget : Option (String → CueTarget) := none

/-- Where `add_cue_impl` takes a cue: to an object, or to the encoder. -/
inductive CueRoute where
  | object (key : String)
  | hub
  deriving DecidableEq, Repr

/-- What the operator gives `add_cue`, and what the call comes upon: the clock, whether the
manifest can be looked at without waiting, and the id it makes. -/
structure CueCall where
  label : String
  operatorSeq : ℕ := 0
  operatorAtMs : ℤ := 0
  now : ℤ := 0
  unlocked : Bool := true
  id : String
  deriving DecidableEq, Repr

namespace DecoderSession

variable (s : DecoderSession)

/-- `wall_clock_ms`. -/
def wallClockMs (unlocked : Bool) (seq : ℕ) : ℤ :=
  let listed := s.manifest.segments.find? fun m => m.seq = seq ∧ 0 < m.atMs
  match if unlocked then listed else none with
  | some m => m.atMs
  | none => if s.startedAtMs ≤ 0 then 0 else s.startedAtMs + seq * s.segmentMs

/-- The segment a cue is set at: the one the host names, or the one its time falls in, or where
playback is. -/
def cueSeq (call : CueCall) : ℕ :=
  let here := if s.headSet then s.head else s.latestSeq
  if 0 < call.operatorSeq then call.operatorSeq
  else if 0 < call.operatorAtMs then
    match s.manifest.segments.filter fun m => 0 < m.atMs ∧ m.atMs ≤ call.operatorAtMs with
    | [] =>
        if 0 < s.startedAtMs ∧ 0 < s.segmentMs ∧ s.startedAtMs < call.operatorAtMs then
          ((call.operatorAtMs - s.startedAtMs) / s.segmentMs).toNat
        else here
    | held => held.foldl (fun best m => max best m.seq) 0
  else here

/-- The content's own time at that place. -/
def cueAtMs (call : CueCall) : ℤ :=
  let at_ := if 0 < call.operatorAtMs then call.operatorAtMs
    else s.wallClockMs call.unlocked (s.cueSeq call)
  if at_ ≤ 0 then call.now else at_

/-- `DecoderSession::add_cue_impl`, up to its first request: what refuses it, or where the cue
goes, and the cue. -/
def addCueImpl (cfg : CueConfig) (call : CueCall) : Except String (CueRoute × Marker) :=
  let mk : Marker :=
    { seq := s.cueSeq call, atMs := s.cueAtMs call, label := call.label, id := call.id
      author := cfg.authorName }
  let own := cuesPrefixFor s.eventId ++ cueAuthorToken cfg.authorName ++ ".json"
  let otherwise := if cfg.cueHub then CueRoute.hub else .object own
  if cfg.authorName = "" then .error "no site name is set"
  else if cfg.canAuthorCues = false then .error "this box is set to receive only"
  else if s.eventId = "" then .error "no event is loaded"
  else
    match cfg.cueTarget.map fun target => target s.eventId with
    | none => .ok (otherwise, mk)
    | some t =>
        if t.tx then
          if ¬ Under (cuesPrefixFor s.eventId) t.objectKey then
            .error "the cue permission names a file outside this event"
          else .ok (.object t.objectKey, mk)
        else if cfg.cueHub then .ok (.hub, mk)
        else
          .error ("Cue not saved: " ++
            (if t.why = "" then "this player has no permission to write cues yet" else t.why) ++ ".")

end DecoderSession

/-- `Session::add_cue_from`, up to its first request: the object and the cue, at the live edge
`nextSeq`. -/
def addCueFrom (eventId : String) (nextSeq : ℕ) (author : String) (call : CueCall) :
    Except String (String × Marker) :=
  if call.label = "" then .error "a cue needs a name"
  else
    .ok (cueObjectKey eventId author,
      { seq := nextSeq, atMs := call.now, label := call.label, id := call.id, author })

/-! ### Adds and their requests -/

/-- An add between its GET and its PUT: the object, the cue, and the list read. -/
structure PendingCue where
  key : String
  marker : Marker
  mine : List Marker
  deriving DecidableEq, Repr

/-- The cue objects of an event and the adds under way.  `issued` and `confirmed` are read by
no step that reads or writes an object: the cues made, whose ids are all different, and those
whose adds reported success. -/
structure CueFiles where
  files : List (String × Object) := []
  writing : List PendingCue := []
  issued : List Marker := []
  confirmed : List Marker := []
  deriving DecidableEq, Repr

/-- What is under a key. -/
def fileAt (files : List (String × Object)) (key : String) : Option Object :=
  (files.find? fun f => f.1 = key).map (·.2)

/-- `MarkerList::from_json` of a body; an unreadable one is replaced, not appended to. -/
def cuesOf : Option Object → List Marker
  | some (.markers l) => l
  | _ => []

/-- A step of an add: by a site or by the encoder as far as its GET, which is answered or fails
otherwise than with a 404; or the PUT of one under way. -/
inductive CueFileAction where
  | addCue (s : DecoderSession) (cfg : CueConfig) (call : CueCall) (answered : Bool)
  | addCueFrom (nextSeq : ℕ) (author : String) (call : CueCall) (answered : Bool)
  | put (i : ℕ) (stored answered : Bool)

/-- The object an action reads, the cue it makes, and whether its GET is answered. -/
def CueFileAction.reads (event : String) : CueFileAction → Option (String × Marker × Bool)
  | .addCue s cfg call answered =>
      match s.addCueImpl cfg call with
      | .ok (.object key, mk) => if s.eventId = event then some (key, mk, answered) else none
      | _ => none
  | .addCueFrom nextSeq author call answered =>
      match Multisite.addCueFrom event nextSeq author call with
      | .ok (key, mk) => some (key, mk, answered)
      | .error _ => none
  | .put .. => none

namespace CueFiles

variable (event : String) (w : CueFiles)

/-- An add reads its object.  `make_event_id` draws 80 random bits: no id is drawn twice. -/
def read (key : String) (mk : Marker) (answered : Bool) : Option CueFiles :=
  if mk.id ≠ "" ∧ ∀ m ∈ w.issued, m.id ≠ mk.id then
    some { w with
      writing := w.writing ++
        [{ key, marker := mk, mine := if answered then cuesOf (fileAt w.files key) else [] }]
      issued := mk :: w.issued }
  else none

/-- The PUT of an add is carried out or not, and answered or not. -/
def put (i : ℕ) (stored answered : Bool) : Option CueFiles :=
  match w.writing[i]? with
  | none => none
  | some p =>
      if answered ∧ stored = false then none
      else
        some { w with
          files :=
            if stored then
              (w.files.filter fun f => f.1 ≠ p.key) ++ [(p.key, .markers (p.mine ++ [p.marker]))]
            else w.files
          writing := w.writing.eraseIdx i
          confirmed := if answered then p.marker :: w.confirmed else w.confirmed }

/-- One step of the adds to an event. -/
def step (w : CueFiles) (a : CueFileAction) : Option CueFiles :=
  match a with
  | .put i stored answered => w.put i stored answered
  | a => (a.reads event).bind fun r => w.read r.1 r.2.1 r.2.2

end CueFiles

/-! ### Merging -/

/-- What the merging loop does with one cue. -/
private def mergeStep (out : List Marker) (m : Marker) : List Marker :=
  if m.id ≠ "" ∧ out.any (·.id == m.id) then out else out ++ [m]

/-- The merging loop keeps one copy of a cue whose id is its own. -/
private lemma count_foldl_mergeStep {m : Marker} (hid : m.id ≠ "") (l out : List Marker)
    (hown : ∀ x ∈ out ++ l, x.id = m.id → x = m) :
    (l.foldl mergeStep out).count m =
      if m ∈ out then out.count m else if m ∈ l then 1 else 0 := by
  induction l generalizing out with
  | nil =>
      by_cases hm : m ∈ out
      · simp [hm]
      · simp [hm, List.count_eq_zero]
  | cons x l ih =>
      have hown' : ∀ y ∈ mergeStep out x ++ l, y.id = m.id → y = m := by
        intro y hy
        refine hown y ?_
        rw [mergeStep] at hy
        split at hy
        · exact (List.mem_append.mp hy).elim (List.mem_append_left _)
            fun h => List.mem_append_right _ (List.mem_cons_of_mem _ h)
        · simpa using hy
      rw [List.foldl_cons, ih _ hown']
      by_cases hx : x = m
      · subst hx
        by_cases hm : x ∈ out
        · have hstep : mergeStep out x = out := if_pos ⟨hid, List.any_eq_true.mpr ⟨x, hm, by simp⟩⟩
          simp [hstep, hm]
        · have hstep : mergeStep out x = out ++ [x] := by
            refine if_neg fun h => ?_
            obtain ⟨y, hy, heq⟩ := List.any_eq_true.mp h.2
            exact hm (hown y (List.mem_append_left _ hy) (by simpa using heq) ▸ hy)
          simp [hstep, hm, List.count_eq_zero.mpr hm]
      · have hne : ¬ m = x := fun h => hx h.symm
        have hstep : ∀ {n : ℕ}, (mergeStep out x).count m = n ↔ out.count m = n := by
          intro n
          rw [mergeStep]
          split
          · rfl
          · rw [List.count_append, List.count_singleton]
            simp [hx]
        have hmem : m ∈ mergeStep out x ↔ m ∈ out := by
          rw [mergeStep]
          split
          · rfl
          · simp [hne]
        simp only [hmem, hstep.mpr rfl, List.mem_cons, hne, false_or]

/-- **Merging gives a cue once**, where no other cue has its id. -/
theorem count_mergeMarkers {m : Marker} (hid : m.id ≠ "") {parts : List (List Marker)}
    (hm : m ∈ parts.flatten) (hown : ∀ x ∈ parts.flatten, x.id = m.id → x = m) :
    (mergeMarkers parts).count m = 1 := by
  have h := count_foldl_mergeStep hid
    (parts.flatten.insertionSort fun a b => ¬ b.before a) [] (fun x hx => hown x (by simpa using hx))
  have hin : m ∈ parts.flatten.insertionSort fun a b => ¬ b.before a := by
    rwa [List.mem_insertionSort]
  rw [if_neg (by simp), if_pos hin] at h
  exact h

/-! ### What adds keep -/

namespace CueFiles

variable {event : String} {w w' : CueFiles} {a : CueFileAction}

/-- The lists of the cue objects. -/
def lists (w : CueFiles) : List (List Marker) := w.files.map fun f => cuesOf (some f.2)

/-- **The condition on a step**: an add reads an object that no other add has read and not yet
written, and its GET is answered where there is an object to give. -/
def Apart (event : String) (w : CueFiles) (a : CueFileAction) : Prop :=
  ∀ key mk answered, a.reads event = some (key, mk, answered) →
    (∀ p ∈ w.writing, p.key ≠ key) ∧ (answered = true ∨ fileAt w.files key = none)

/-- What adds keep that do not meet on an object. -/
structure Sound (w : CueFiles) : Prop where
  keys : (w.writing.map (·.key)).Nodup
  read : ∀ p ∈ w.writing, p.mine = cuesOf (fileAt w.files p.key)
  files : (w.files.map (·.1)).Nodup
  listed : ∀ m, (∃ f ∈ w.files, m ∈ cuesOf (some f.2)) → m ∈ w.issued
  pending : ∀ p ∈ w.writing, p.marker ∈ w.issued
  issued : ∀ m ∈ w.issued, m.id ≠ ""
  own : ∀ m ∈ w.issued, ∀ m' ∈ w.issued, m.id = m'.id → m = m'
  confirmed : ∀ m ∈ w.confirmed, ∃ f ∈ w.files, m ∈ cuesOf (some f.2)

lemma mem_lists_of_fileAt {key : String} {m : Marker} (h : m ∈ cuesOf (fileAt w.files key)) :
    cuesOf (fileAt w.files key) ∈ w.lists := by
  cases hf : w.files.find? fun f => f.1 = key with
  | none => simp [fileAt, hf, cuesOf] at h
  | some f =>
      rw [fileAt, hf]
      exact List.mem_map.mpr ⟨f, List.mem_of_find?_eq_some hf, rfl⟩

/-- An object of a known key is the one found under it. -/
lemma fileAt_of_mem (h : (w.files.map (·.1)).Nodup) {f : String × Object} (hf : f ∈ w.files) :
    fileAt w.files f.1 = some f.2 := by
  have hfind : w.files.find? (fun g => g.1 = f.1) = some f := by
    cases hg : w.files.find? fun g => g.1 = f.1 with
    | none =>
        have := List.find?_eq_none.mp hg f hf
        simp at this
    | some g =>
        have hkey : g.1 = f.1 := by simpa using List.find?_some hg
        rw [List.inj_on_of_nodup_map h (List.mem_of_find?_eq_some hg) hf hkey]
  rw [fileAt, hfind]
  rfl

/-- **A GET keeps it.** -/
lemma Sound.read_step (h : w.Sound) {key : String} {mk : Marker} {answered : Bool}
    (hapart : (∀ p ∈ w.writing, p.key ≠ key) ∧ (answered = true ∨ fileAt w.files key = none))
    (ht : w.read key mk answered = some w') : w'.Sound := by
  rw [CueFiles.read, Option.ite_none_right_eq_some, Option.some.injEq] at ht
  obtain ⟨⟨hid, hfresh⟩, rfl⟩ := ht
  refine ⟨?_, ?_, h.files, ?_, ?_, ?_, ?_, h.confirmed⟩
  · simp only [List.map_append, List.map_cons, List.map_nil]
    refine List.nodup_append.mpr ⟨h.keys, List.nodup_singleton _, ?_⟩
    rintro k hk k' hk' rfl
    obtain ⟨p, hp, rfl⟩ := List.mem_map.mp hk
    exact hapart.1 p hp (List.mem_singleton.mp hk')
  · intro p hp
    rcases List.mem_append.mp hp with hp | hp
    · exact h.read p hp
    · rw [List.mem_singleton.mp hp]
      rcases hapart.2 with rfl | hnone
      · rfl
      · simp [hnone, cuesOf]
  · exact fun m hm => List.mem_cons_of_mem _ (h.listed m hm)
  · intro p hp
    rcases List.mem_append.mp hp with hp | hp
    · exact List.mem_cons_of_mem _ (h.pending p hp)
    · rw [List.mem_singleton.mp hp]
      exact List.mem_cons_self
  · intro m hm
    rcases List.mem_cons.mp hm with rfl | hm
    · exact hid
    · exact h.issued m hm
  · intro m hm m' hm' heq
    rcases List.mem_cons.mp hm with h1 | h1 <;> rcases List.mem_cons.mp hm' with h2 | h2
    · rw [h1, h2]
    · exact absurd (heq.symm.trans (congrArg Marker.id h1)) (hfresh m' h2)
    · exact absurd (heq.trans (congrArg Marker.id h2)) (hfresh m h1)
    · exact h.own m h1 m' h2 heq

/-- The objects after a PUT. -/
def stored (w : CueFiles) (p : PendingCue) : List (String × Object) :=
  (w.files.filter fun f => f.1 ≠ p.key) ++ [(p.key, .markers (p.mine ++ [p.marker]))]

lemma fileAt_stored_of_ne {p : PendingCue} {key : String} (h : key ≠ p.key) :
    fileAt (w.stored p) key = fileAt w.files key := by
  rw [fileAt, fileAt, stored, List.find?_append, List.find?_filter]
  have hfind : (w.files.find? fun f => decide (decide (f.1 ≠ p.key) = true ∧ decide (f.1 = key) = true)) =
      w.files.find? fun f => f.1 = key := by
    congr 1
    funext f
    by_cases hf : f.1 = key
    · simp [hf, h]
    · simp [hf]
  have hnone : [(p.key, Object.markers (p.mine ++ [p.marker]))].find? (fun f => f.1 = key) = none := by
    simp [h.symm]
  rw [hfind, hnone, Option.or_none]

/-- What the objects hold after a PUT: what they held, and the cue. -/
lemma mem_lists_stored {p : PendingCue} (hmine : p.mine = cuesOf (fileAt w.files p.key))
    (hfiles : (w.files.map (·.1)).Nodup) {m : Marker} :
    (∃ f ∈ w.stored p, m ∈ cuesOf (some f.2)) ↔
      (∃ f ∈ w.files, m ∈ cuesOf (some f.2)) ∨ m = p.marker := by
  constructor
  · rintro ⟨f, hf, hm⟩
    rcases List.mem_append.mp hf with hf | hf
    · exact Or.inl ⟨f, List.mem_of_mem_filter hf, hm⟩
    · rw [List.mem_singleton.mp hf] at hm
      rcases List.mem_append.mp hm with hm | hm
      · rw [hmine] at hm
        obtain ⟨g, hg, hgl⟩ := List.mem_map.mp (mem_lists_of_fileAt hm)
        exact Or.inl ⟨g, hg, hgl ▸ hm⟩
      · exact Or.inr (List.mem_singleton.mp hm)
  · rintro (⟨f, hf, hm⟩ | rfl)
    · by_cases hkey : f.1 = p.key
      · refine ⟨_, List.mem_append_right _ (List.mem_singleton_self _), List.mem_append_left _ ?_⟩
        rw [hmine, ← hkey, fileAt_of_mem hfiles hf]
        exact hm
      · exact ⟨f, List.mem_append_left _ (List.mem_filter.mpr ⟨hf, by simpa using hkey⟩), hm⟩
    · exact ⟨_, List.mem_append_right _ (List.mem_singleton_self _),
        List.mem_append_right _ (List.mem_singleton_self _)⟩

lemma nodup_stored {p : PendingCue} (hfiles : (w.files.map (·.1)).Nodup) :
    ((w.stored p).map (·.1)).Nodup := by
  rw [stored, List.map_append]
  refine List.nodup_append.mpr ⟨hfiles.sublist ((List.filter_sublist).map _), by simp, ?_⟩
  rintro k hk k' hk' rfl
  obtain ⟨f, hf, rfl⟩ := List.mem_map.mp hk
  have hne : f.1 ≠ p.key := by simpa using List.of_mem_filter hf
  exact hne (by simpa using hk')

/-- **A PUT keeps it**: what it writes over is what the add has read. -/
lemma Sound.put_step (h : w.Sound) {i : ℕ} {stored answered : Bool}
    (ht : w.put i stored answered = some w') : w'.Sound := by
  rw [CueFiles.put] at ht
  split at ht
  · simp at ht
  · rename_i p hp
    rw [Option.ite_none_left_eq_some, Option.some.injEq] at ht
    obtain ⟨hanswer, rfl⟩ := ht
    have hmem : p ∈ w.writing := List.mem_of_getElem? hp
    have hsub : ∀ q ∈ w.writing.eraseIdx i, q ∈ w.writing := fun q => List.mem_of_mem_eraseIdx
    have hkeys : ((w.writing.eraseIdx i).map (·.key)).Nodup :=
      h.keys.sublist ((List.eraseIdx_sublist _ _).map _)
    have hothers : ∀ q ∈ w.writing.eraseIdx i, q.key ≠ p.key := by
      intro q hq
      obtain ⟨hi, hpi⟩ := List.getElem?_eq_some_iff.mp hp
      have hsplit : w.writing = w.writing.take i ++ p :: w.writing.drop (i + 1) := by
        rw [← hpi, ← List.drop_eq_getElem_cons hi, List.take_append_drop]
      have hnodup := h.keys
      rw [hsplit, List.map_append, List.map_cons] at hnodup
      have hnot := (List.nodup_middle.mp hnodup).notMem
      rw [List.eraseIdx_eq_take_drop_succ] at hq
      refine fun heq => hnot ?_
      rw [← heq, ← List.map_append]
      exact List.mem_map_of_mem hq
    have hmine := h.read p hmem
    have hpending := fun q hq => h.pending q (hsub q hq)
    cases stored with
    | false =>
        have hno : answered = false := by
          cases answered with
          | false => rfl
          | true => exact absurd ⟨rfl, rfl⟩ hanswer
        subst hno
        exact ⟨hkeys, fun q hq => h.read q (hsub q hq), h.files, h.listed, hpending, h.issued, h.own,
          h.confirmed⟩
    | true =>
        have hlists := fun m => mem_lists_stored (m := m) hmine h.files
        refine ⟨hkeys, fun q hq => ?_, nodup_stored h.files, fun m hm => ?_, hpending, h.issued,
          h.own, fun m hm => (hlists m).mpr ?_⟩
        · exact (h.read q (hsub q hq)).trans (congrArg cuesOf (fileAt_stored_of_ne (hothers q hq)).symm)
        · rcases (hlists m).mp hm with hm | rfl
          · exact h.listed m hm
          · exact h.pending p hmem
        · cases answered with
          | false => exact Or.inl (h.confirmed m hm)
          | true => exact (List.mem_cons.mp hm).symm.imp (h.confirmed m) id

/-- **The step.** -/
lemma Sound.step (h : w.Sound) (hc : Apart event w a) (ht : w.step event a = some w') :
    w'.Sound := by
  cases a with
  | put i stored answered => exact h.put_step ht
  | addCue s cfg call answered =>
      obtain ⟨r, hr, hread⟩ := Option.bind_eq_some_iff.mp ht
      exact h.read_step (hc r.1 r.2.1 r.2.2 hr) hread
  | addCueFrom nextSeq author call answered =>
      obtain ⟨r, hr, hread⟩ := Option.bind_eq_some_iff.mp ht
      exact h.read_step (hc r.1 r.2.1 r.2.2 hr) hread

/-- Before the first cue. -/
lemma sound_empty : Sound {} :=
  ⟨List.nodup_nil, by simp, List.nodup_nil, by simp, by simp, by simp, by simp, by simp⟩

/-- **No cue is lost**: in every run whose adds never meet on an object and whose GETs never fail
on one there is, every cue whose add reported success is in the objects, and merging their
lists, in whatever order, gives it exactly once. -/
theorem cue_objects_keep (h : Lib.Reach (CueFiles.step event) (Apart event) (· = {}) w) :
    ∀ m ∈ w.confirmed, m ∈ w.lists.flatten ∧
      ∀ parts, parts.Perm w.lists → (mergeMarkers parts).count m = 1 := by
  have hsound : w.Sound :=
    Lib.Reach.invariant (fun _ hs => by rw [hs]; exact sound_empty)
      (fun _ _ _ hs hc ht => Sound.step hs hc ht) h
  have hflat : ∀ {m}, m ∈ w.lists.flatten ↔ ∃ f ∈ w.files, m ∈ cuesOf (some f.2) := by
    intro m
    simp [lists]
  intro m hm
  have hin := hsound.confirmed m hm
  refine ⟨hflat.mpr hin, fun parts hparts => ?_⟩
  have hissued := hsound.listed m hin
  refine count_mergeMarkers (hsound.issued m hissued) (hparts.flatten.mem_iff.mpr (hflat.mpr hin)) ?_
  intro x hx hid
  exact hsound.own x (hsound.listed x (hflat.mp (hparts.flatten.mem_iff.mp hx))) m hissued hid

instance (w : CueFiles) (a : CueFileAction) : Decidable (Apart event w a) :=
  decidable_of_iff (∀ r ∈ a.reads event,
    (∀ p ∈ w.writing, p.key ≠ r.1) ∧ (r.2.2 = true ∨ fileAt w.files r.1 = none)) (by
      constructor
      · intro h key mk answered hr
        exact h (key, mk, answered) hr
      · intro h r hr
        exact h r.1 r.2.1 r.2.2 hr)

/-- A cue of a site of this name, that it writes itself. -/
def siteCue (name id : String) (answered : Bool) : CueFileAction :=
  .addCue { eventId := "e" } { authorName := name } { label := "here", id } answered

theorem cue_objects_keep_two : ∃ w,
    Lib.Reach (CueFiles.step "e") (Apart "e") (· = {}) w ∧ w.confirmed.length = 2 ∧
      ∀ m ∈ w.confirmed, m ∈ w.lists.flatten ∧
        ∀ parts, parts.Perm w.lists → (mergeMarkers parts).count m = 1 := by
  obtain ⟨w, hw, hlen⟩ : ∃ w, Lib.Reach (CueFiles.step "e") (Apart "e") (· = {}) w ∧
      w.confirmed.length = 2 :=
    Lib.exists_reach_guarded {} [siteCue "North" "1" true,
      .addCueFrom 4 "South" { label := "there", id := "2" } false, .put 1 true true,
      .put 0 true true] rfl (by decide +kernel)
  exact ⟨w, hw, hlen, cue_objects_keep hw⟩

/-- **A cue is lost** to a site of another name, whose key is the same, and to a GET that
fails. -/
theorem site_cue_lost :
    (∃ w, Lib.Reach (CueFiles.step "e") Lib.anyStep (· = {}) w ∧
      w.confirmed.map (·.author) = ["main-hall", "Main Hall"] ∧
        ∃ m ∈ w.confirmed, m ∉ w.lists.flatten) ∧
    ∃ w, Lib.Reach (CueFiles.step "e") Lib.anyStep (· = {}) w ∧
      w.confirmed.map (·.author) = ["Hall", "Hall"] ∧ ∃ m ∈ w.confirmed, m ∉ w.lists.flatten :=
  ⟨Lib.exists_reach {} [siteCue "Main Hall" "1" true, siteCue "main-hall" "2" true, .put 0 true true,
      .put 0 true true] rfl (by decide +kernel),
    Lib.exists_reach {} [siteCue "Hall" "1" true, .put 0 true true, siteCue "Hall" "2" false,
      .put 0 true true] rfl (by decide +kernel)⟩

end CueFiles

end Multisite

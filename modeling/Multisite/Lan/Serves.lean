import Multisite.Lib.Run
import Multisite.Lan.Server

/-!
The LAN server over any interleaving of requests with the session's calls.

* `Serving`: the server, the calls inside it, what it was given and what it answered;
* `Meets`: the steps at which the answer is the event's;
* `Sound`, `sound_step`: the invariant, and that each such step keeps it;
* `answers_for_its_event`: every object answered is one that was given for the event asked for.
-/

namespace Multisite.Lan

open Http

/-! ### What is given and what is answered -/

/-- What the session published, with the event it is of. -/
inductive Given where
  | document (ev : Bytes) (d : Doc) (json : Bytes)
  | media (ev : Bytes) (m : Media) (bytes : Bytes)
  deriving DecidableEq, Repr

/-- The last document of its kind given for an event; the last thing given stands first. -/
def latest (given : List Given) (ev : Bytes) (d : Doc) : Option Bytes :=
  given.findSome? fun g =>
    match g with
    | .document ev' d' json => if ev' = ev ∧ d' = d then some json else none
    | .media .. => none

/-- What a request for an object of an event may be answered with. -/
def Published (given : List Given) (ev : Bytes) : Ask → Bytes → Prop
  | .document d, body => body ≠ [] ∧ latest given ev d = some body
  | .media m, body => body ≠ [] ∧ .media ev m body ∈ given

/-- An answer, with what had been given when it was made. -/
structure Answer where
  req : HttpRequest
  res : HttpResponse
  given : List Given
  deriving DecidableEq, Repr

/-- The answer is refused, or of the event that was asked for. -/
def Answer.Right (a : Answer) : Prop :=
  a.res.status = 200 → ∃ ev ask, asks a.req = some (ev, ask) ∧ Published a.given ev ask a.res.body

/-! ### The system -/

/-- The server with the calls inside it. -/
structure Serving where
  server : LanObjectServer
  threads : List Thread := []
  given : List Given := []
  answered : List Answer := []

/-- A call of the session, a request, or the next step of a call. -/
inductive LanOp where
  | started (ev json init : Bytes)
  | confirmed (ev : Bytes) (seq : ℕ) (bytes : Bytes)
  | manifestPublished (ev json : Bytes)
  | markersPublished (ev json : Bytes)
  | request (req : HttpRequest)
  | run (i : ℕ) (works : Bool)
  deriving DecidableEq, Repr

namespace Serving

/-- What a call comes to, recorded. -/
def next (s : Serving) : Next → Serving
  | .goes t => { s with threads := s.threads ++ [t] }
  | .returns => s
  | .answers req res => { s with answered := s.answered ++ [⟨req, res, s.given⟩] }

/-- One step. -/
def step (s : Serving) : LanOp → Option Serving
  | .started ev json init =>
      some { s with
        server := s.server.onEventStarted ev json
        threads := s.threads ++ [.setEvent ev init]
        given := .media ev .init init :: .document ev .event json :: s.given }
  | .confirmed ev seq bytes =>
      some { s with
        threads := s.threads ++ [.store ev seq bytes]
        given := .media ev (.segment seq) bytes :: s.given }
  | .manifestPublished ev json =>
      some { s with
        server := s.server.onManifestPublished json
        given := .document ev .manifest json :: s.given }
  | .markersPublished ev json =>
      some { s with
        server := s.server.onMarkersPublished json
        given := .document ev .markers json :: s.given }
  | .request req =>
      if routed req then
        match s.server.handleEvents req with
        | .answered res => some (s.next (.answers req res))
        | .reads ev m => some (s.next (.goes (.load req ev m)))
      else none
  | .run i works =>
      (s.threads[i]?).map fun t =>
        let r := s.server.advance works t
        { s with server := { s.server with cache := r.1 }, threads := s.threads.eraseIdx i }.next r.2

/-- The directories hold what was given for the events they are named after. -/
def Holds (given : List Given) (dirs : Bytes → Option CacheDir) : Prop :=
  ∀ ev d, dirs ev = some d →
    (∀ b, d.init = some b → b ≠ [] ∧ .media ev .init b ∈ given) ∧
    ∀ n b, (n, b) ∈ d.segs → b ≠ [] ∧ .media ev (.segment n) b ∈ given

/-- A server that has just been made, over the directories that earlier ones left. -/
def Begins (s : Serving) : Prop :=
  ∃ cfg dirs given, Holds given dirs ∧ s = { server := .create cfg dirs, given }

/-! ### The steps that go right -/

/-- A request for the manifest or the event document of the current event while there is none. -/
def AsksBlank (s : Serving) (req : HttpRequest) : Prop :=
  s.server.checkAuth req ∧ s.server.eventId ≠ [] ∧
    (asks req = some (s.server.eventId, .document .manifest) ∧ s.server.manifestJson = [] ∨
      asks req = some (s.server.eventId, .document .event) ∧ s.server.eventJson = [])

instance (s : Serving) (req : HttpRequest) : Decidable (s.AsksBlank req) :=
  inferInstanceAs (Decidable (_ ∧ _ ∧ (_ ∨ _)))

/-- The object of an event that a call takes a path of the cache for. -/
def pathFor : Thread → Option (Bytes × Media)
  | .storeInit ev init => if init = [] then none else some (ev, .init)
  | .store ev seq _ => some (ev, .segment seq)
  | .load _ ev m => some (ev, m)
  | _ => none

/-- The sequence of a segment fits its file name. -/
def Fits : Media → Prop
  | .init => True
  | .segment seq => seq < 10 ^ 15

instance : DecidablePred Fits
  | .init => isTrue trivial
  | .segment seq => Nat.decLt seq (10 ^ 15)

/-- What a step of a call must find: a path for an event is taken while the cache is at that event,
and has room for the object's name. -/
def TakesOwn (s : Serving) (t : Thread) : Prop :=
  ∀ x ∈ pathFor t, s.server.cache.eventId = x.1 ∧ Fits x.2

instance (s : Serving) (t : Thread) : Decidable (s.TakesOwn t) :=
  inferInstanceAs (Decidable (∀ x ∈ pathFor t, _))

/-- What a step must find for the answers to stay right. -/
def Meets (s : Serving) : LanOp → Prop
  | .started .. => True
  | .confirmed _ _ bytes => bytes ≠ []
  | .manifestPublished ev _ => ev = s.server.eventId
  | .markersPublished ev _ => ev = s.server.eventId
  | .request req => ¬ s.AsksBlank req
  | .run i _ => ∀ t ∈ s.threads[i]?, s.TakesOwn t

instance (s : Serving) : (op : LanOp) → Decidable (s.Meets op)
  | .started .. => isTrue trivial
  | .confirmed _ _ bytes => inferInstanceAs (Decidable (bytes ≠ []))
  | .manifestPublished ev _ => inferInstanceAs (Decidable (ev = s.server.eventId))
  | .markersPublished ev _ => inferInstanceAs (Decidable (ev = s.server.eventId))
  | .request req => inferInstanceAs (Decidable (¬ s.AsksBlank req))
  | .run i _ => inferInstanceAs (Decidable (∀ t ∈ s.threads[i]?, s.TakesOwn t))

/-! ### The invariant -/

/-- What a call is for has been given, and the path it has is of its own event. -/
def Owns (given : List Given) : Thread → Prop
  | .setEvent ev init => .media ev .init init ∈ given
  | .storeInit ev init => .media ev .init init ∈ given
  | .writeInit dir init => init ≠ [] ∧ .media dir .init init ∈ given
  | .store ev seq bytes => bytes ≠ [] ∧ .media ev (.segment seq) bytes ∈ given
  | .write dir seq bytes => bytes ≠ [] ∧ seq < 10 ^ 15 ∧ .media dir (.segment seq) bytes ∈ given
  | .load req ev m => asks req = some (ev, .media m)
  | .read req dir m => asks req = some (dir, .media m) ∧ Fits m
  | _ => True

/-- The invariant of a run. -/
structure Sound (s : Serving) : Prop where
  docs : ∀ d, s.server.doc d = [] ∨ latest s.given s.server.eventId d = some (s.server.doc d)
  holds : Holds s.given s.server.cache.dirs
  owns : ∀ t ∈ s.threads, Owns s.given t
  right : ∀ a ∈ s.answered, a.Right

variable {s s' : Serving} {given given' : List Given} {dirs : Bytes → Option CacheDir}

lemma Holds.mono (h : Holds given dirs) (hsub : given ⊆ given') : Holds given' dirs := by
  intro ev d hd
  obtain ⟨hinit, hsegs⟩ := h ev d hd
  exact ⟨fun b hb => (hinit b hb).imp_right (hsub ·), fun n b hb => (hsegs n b hb).imp_right (hsub ·)⟩

lemma Owns.mono {t : Thread} (h : Owns given t) (hsub : given ⊆ given') : Owns given' t := by
  cases t
  case setEvent | storeInit => exact hsub h
  case writeInit | store => exact h.imp_right (hsub ·)
  case write => exact ⟨h.1, h.2.1, hsub h.2.2⟩
  all_goals exact h

/-! ### The cache -/

lemma fileNo_of_lt {seq : ℕ} (h : seq < 10 ^ 15) : fileNo seq = seq := by
  have hlog : Nat.log 10 seq < 15 := Nat.log_lt_of_lt_pow' (by decide) h
  rw [fileNo, Nat.sub_eq_zero_of_le (by omega), pow_zero, Nat.div_one]

lemma Holds.update (h : Holds given dirs) {dir : Bytes} {d : CacheDir}
    (hinit : ∀ b, d.init = some b → b ≠ [] ∧ .media dir .init b ∈ given)
    (hsegs : ∀ n b, (n, b) ∈ d.segs → b ≠ [] ∧ .media dir (.segment n) b ∈ given) :
    Holds given (Function.update dirs dir (some d)) := by
  intro ev d' hd'
  by_cases hev : ev = dir
  · subst hev
    rw [Function.update_self, Option.some.injEq] at hd'
    subst hd'
    exact ⟨hinit, hsegs⟩
  · rw [Function.update_of_ne hev] at hd'
    exact h ev d' hd'

variable {c : SegmentCache}

lemma Holds.ensureDir (h : Holds given c.dirs) : Holds given c.ensureDir.dirs := by
  refine h.update ?_ ?_
  all_goals
    cases hd : c.dirs c.eventId with
    | none => simp
    | some d => simpa using by first | exact (h _ d hd).1 | exact (h _ d hd).2

lemma Holds.setEvent (h : Holds given c.dirs) (ev : Bytes) (works : Bool) :
    Holds given (c.setEvent ev works).dirs := by
  rw [SegmentCache.setEvent]
  split
  · exact h
  · refine Holds.ensureDir (c := if works then _ else _) ?_
    split
    · intro e d hd
      rw [SegmentCache.sweepOrphans] at hd
      dsimp only at hd
      split at hd
      · exact h e d hd
      · exact absurd hd (by simp)
    · exact h

lemma Holds.writeInit (h : Holds given c.dirs) {dir init : Bytes} (hne : init ≠ [])
    (hmem : .media dir .init init ∈ given) : Holds given (c.writeInit dir init).dirs := by
  rw [SegmentCache.writeInit]
  cases hd : c.dirs dir with
  | none => exact h
  | some d =>
      refine h.update ?_ (h _ d hd).2
      rintro b ⟨⟩
      exact ⟨hne, hmem⟩

lemma Holds.writeSeg (h : Holds given c.dirs) {dir : Bytes} {seq : ℕ} {bytes : Bytes}
    (hne : bytes ≠ []) (hseq : seq < 10 ^ 15) (hmem : .media dir (.segment seq) bytes ∈ given) :
    Holds given (c.writeSeg dir seq bytes).dirs := by
  rw [SegmentCache.writeSeg]
  cases hd : c.dirs dir with
  | none => exact h
  | some d =>
      refine h.update (h _ d hd).1 fun n b hb => ?_
      rw [fileNo_of_lt hseq] at hb
      rcases List.mem_cons.mp hb with heq | hb
      · obtain ⟨rfl, rfl⟩ := Prod.mk.inj heq
        exact ⟨hne, hmem⟩
      · exact (h _ d hd).2 n b (List.mem_of_mem_filter hb)

lemma Holds.removeSegs (h : Holds given c.dirs) (dir : Bytes) (files : List ℕ) :
    Holds given (c.removeSegs dir files).dirs := by
  rw [SegmentCache.removeSegs]
  cases hd : c.dirs dir with
  | none => exact h
  | some d =>
      exact h.update (h _ d hd).1 fun n b hb => (h _ d hd).2 n b (List.mem_of_mem_filter hb)

/-- A file read is one that was given. -/
lemma Holds.file (h : Holds given c.dirs) {dir : Bytes} {m : Media} (hm : Fits m) {b : Bytes}
    (hb : c.file dir m = some b) : b ≠ [] ∧ .media dir m b ∈ given := by
  cases m with
  | init =>
      obtain ⟨d, hd, hinit⟩ := Option.bind_eq_some_iff.mp hb
      exact (h _ d hd).1 b hinit
  | segment seq =>
      obtain ⟨d, hd, hseg⟩ := Option.bind_eq_some_iff.mp hb
      rw [fileNo_of_lt hm] at hseg
      obtain ⟨l₁, l₂, hsegs, -⟩ := List.lookup_eq_some_iff.mp hseg
      exact (h _ d hd).2 seq b (by simp [hsegs])

/-! ### One step -/

/-- What a call comes to is its own. -/
def NextRight (given : List Given) : Next → Prop
  | .goes t => Owns given t
  | .returns => True
  | .answers req res => Answer.Right ⟨req, res, given⟩

lemma Sound.next (h : s.Sound) {n : Next} (hn : NextRight s.given n) : (s.next n).Sound := by
  cases n with
  | goes t =>
      refine ⟨h.docs, h.holds, fun t' ht' => ?_, h.right⟩
      rcases List.mem_append.mp ht' with ht' | ht'
      · exact h.owns t' ht'
      · rw [List.mem_singleton.mp ht']
        exact hn
  | returns => exact h
  | answers req res =>
      refine ⟨h.docs, h.holds, h.owns, fun a ha => ?_⟩
      rcases List.mem_append.mp ha with ha | ha
      · exact h.right a ha
      · rw [List.mem_singleton.mp ha]
        exact hn

/-- A step of a call keeps the files, and the call goes on with what is its own. -/
lemma advance_right (h : s.Sound) {t : Thread} (works : Bool) (ht : Owns s.given t)
    (hown : s.TakesOwn t) :
    Holds s.given (s.server.advance works t).1.dirs ∧
      NextRight s.given (s.server.advance works t).2 := by
  cases t with
  | setEvent ev init => exact ⟨h.holds.setEvent ev works, ht⟩
  | storeInit ev init =>
      rw [LanObjectServer.advance]
      split
      · exact ⟨h.holds, trivial⟩
      · rename_i hinit
        have hev := (hown (ev, .init) (if_neg hinit)).1
        exact ⟨h.holds.ensureDir, hinit, hev ▸ ht⟩
  | writeInit dir init =>
      refine ⟨?_, trivial⟩
      rw [LanObjectServer.advance]
      split
      · exact h.holds.writeInit ht.1 ht.2
      · exact h.holds
  | store ev seq bytes =>
      obtain ⟨hev, hfits⟩ := hown (ev, .segment seq) rfl
      exact ⟨h.holds.ensureDir, ht.1, hfits, hev ▸ ht.2⟩
  | write dir seq bytes =>
      rw [LanObjectServer.advance]
      split
      · exact ⟨h.holds.writeSeg ht.1 ht.2.1 ht.2.2, trivial⟩
      · exact ⟨h.holds, trivial⟩
  | insert seq => exact ⟨h.holds, trivial⟩
  | count =>
      refine ⟨h.holds, ?_⟩
      rw [LanObjectServer.advance]
      cases s.server.overCeiling with
      | false => exact trivial
      | true => exact trivial
  | lowest => exact ⟨h.holds, trivial⟩
  | excess lowest =>
      rw [LanObjectServer.advance]
      exact ⟨h.holds, trivial⟩
  | prune keepFrom => exact ⟨h.holds, trivial⟩
  | remove dir files =>
      refine ⟨?_, trivial⟩
      rw [LanObjectServer.advance]
      split
      · exact h.holds.removeSegs dir files
      · exact h.holds
  | load req ev m =>
      obtain ⟨hev, hfits⟩ := hown (ev, m) rfl
      exact ⟨h.holds, hev ▸ ht, hfits⟩
  | read req dir m =>
      rw [LanObjectServer.advance]
      split
      · rename_i bytes hread
        refine ⟨h.holds, fun _ => ⟨dir, .media m, ht.1, ?_⟩⟩
        cases works with
        | false => exact absurd hread (by simp)
        | true => exact h.holds.file ht.2 hread
      · exact ⟨h.holds, fun h200 => absurd h200 (show (404 : ℕ) ≠ 200 by decide)⟩

/-- A request that `handle_events` answers by itself. -/
lemma handleEvents_answered {req : HttpRequest} {res : HttpResponse}
    (h : s.server.handleEvents req = .answered res) (h200 : res.status = 200) :
    s.server.checkAuth req ∧ s.server.eventId ≠ [] ∧
      ∃ d, asks req = some (s.server.eventId, .document d) ∧ res = .json (s.server.doc d) ∧
        (d = .markers → s.server.markersJson ≠ []) := by
  have hnot : ∀ {r : HttpResponse}, r.status ≠ 200 → LanObjectServer.Handled.answered r = .answered res →
      False := by
    rintro r hr ⟨⟩
    exact hr h200
  rw [LanObjectServer.handleEvents] at h
  split at h
  · exact (hnot (by decide) h).elim
  · rename_i hauth
    split at h
    · exact (hnot (by decide) h).elim
    · rename_i id tail hcut
      split at h
      · exact (hnot (by decide) h).elim
      · rename_i hid
        rw [not_or, not_not] at hid
        obtain ⟨hne, rfl⟩ := hid
        refine ⟨not_not.mp hauth, hne, ?_⟩
        have hasks : asks req = (askOf tail).map (s.server.eventId, ·) := by
          rw [asks, hcut]
          rfl
        split at h
        · rename_i hask
          exact ⟨.manifest, by rw [hasks, hask]; rfl, (LanObjectServer.Handled.answered.inj h).symm,
            by simp⟩
        · rename_i hask
          exact ⟨.event, by rw [hasks, hask]; rfl, (LanObjectServer.Handled.answered.inj h).symm,
            by simp⟩
        · rename_i hask
          split at h
          · exact (hnot (by decide) h).elim
          · rename_i hmarkers
            exact ⟨.markers, by rw [hasks, hask]; rfl,
              (LanObjectServer.Handled.answered.inj h).symm, fun _ => hmarkers⟩
        · cases h
        · exact (hnot (by decide) h).elim

/-- A request that `handle_events` reads from the cache for. -/
lemma handleEvents_reads {req : HttpRequest} {ev : Bytes} {m : Media}
    (h : s.server.handleEvents req = .reads ev m) : asks req = some (ev, .media m) := by
  rw [LanObjectServer.handleEvents] at h
  split at h
  · cases h
  · split at h
    · cases h
    · rename_i id tail hcut
      split at h
      · cases h
      · split at h
        · cases h
        · cases h
        · split at h <;> cases h
        · rename_i m' hask
          obtain ⟨rfl, rfl⟩ := LanObjectServer.Handled.reads.inj h
          rw [asks, hcut, Option.bind_some, hask]
          rfl
        · cases h

lemma latest_document (ev : Bytes) (d : Doc) (json : Bytes) :
    latest (.document ev d json :: given) ev d = some json := by
  simp [latest]

lemma latest_document_of_ne {d d' : Doc} (h : d' ≠ d) (ev ev' json : Bytes) :
    latest (.document ev d json :: given) ev' d' = latest given ev' d' := by
  simp [latest, h.symm]

lemma latest_media (ev ev' : Bytes) (m : Media) (bytes : Bytes) (d : Doc) :
    latest (.media ev m bytes :: given) ev' d = latest given ev' d := rfl

/-- The invariant after more has been given. -/
lemma Sound.gives (h : s.Sound) (given' : List Given) (hsub : s.given ⊆ given')
    (hdocs : ∀ d, latest given' s.server.eventId d = latest s.given s.server.eventId d) :
    Sound { s with given := given' } := by
  refine ⟨fun d => ?_, h.holds.mono hsub, fun t ht => (h.owns t ht).mono hsub, h.right⟩
  rw [hdocs]
  exact h.docs d

/-- **A step that meets the condition keeps the invariant.** -/
lemma sound_step {op : LanOp} (h : s.Sound) (hm : s.Meets op) (hstep : s.step op = some s') :
    s'.Sound := by
  cases op with
  | started ev json init =>
      obtain rfl := Option.some.inj hstep
      have hsub : s.given ⊆ .media ev .init init :: .document ev .event json :: s.given := by
        intro g hg
        simp [hg]
      refine ⟨fun d => ?_, h.holds.mono hsub, fun t ht => ?_, h.right⟩
      · cases d with
        | manifest => exact Or.inl rfl
        | event => exact Or.inr (latest_document ev .event json)
        | markers => exact Or.inl rfl
      · rcases List.mem_append.mp ht with ht | ht
        · exact (h.owns t ht).mono hsub
        · rw [List.mem_singleton.mp ht]
          exact List.mem_cons_self
  | confirmed ev seq bytes =>
      obtain rfl := Option.some.inj hstep
      have hgiven := h.gives (.media ev (.segment seq) bytes :: s.given)
        (List.subset_cons_self _ _) fun d => latest_media ev _ _ bytes d
      exact hgiven.next (n := .goes (.store ev seq bytes)) ⟨hm, List.mem_cons_self⟩
  | manifestPublished ev json =>
      obtain rfl := Option.some.inj hstep
      have hsub := List.subset_cons_self (.document ev .manifest json) s.given
      refine ⟨fun d => ?_, h.holds.mono hsub, fun t ht => (h.owns t ht).mono hsub, h.right⟩
      cases d with
      | manifest => exact Or.inr (hm ▸ latest_document ev .manifest json)
      | event =>
          exact (h.docs .event).imp_right fun hd =>
            (latest_document_of_ne (by decide) ev _ json).trans hd
      | markers =>
          exact (h.docs .markers).imp_right fun hd =>
            (latest_document_of_ne (by decide) ev _ json).trans hd
  | markersPublished ev json =>
      obtain rfl := Option.some.inj hstep
      have hsub := List.subset_cons_self (.document ev .markers json) s.given
      refine ⟨fun d => ?_, h.holds.mono hsub, fun t ht => (h.owns t ht).mono hsub, h.right⟩
      cases d with
      | manifest =>
          exact (h.docs .manifest).imp_right fun hd =>
            (latest_document_of_ne (by decide) ev _ json).trans hd
      | event =>
          exact (h.docs .event).imp_right fun hd =>
            (latest_document_of_ne (by decide) ev _ json).trans hd
      | markers => exact Or.inr (hm ▸ latest_document ev .markers json)
  | request req =>
      rw [step] at hstep
      split at hstep
      · cases hreq : s.server.handleEvents req with
        | answered res =>
            rw [hreq] at hstep
            obtain rfl := Option.some.inj hstep
            refine h.next fun h200 => ?_
            obtain ⟨hauth, hne, d, hasks, rfl, hmarkers⟩ := handleEvents_answered hreq h200
            have hdoc : s.server.doc d ≠ [] := by
              intro hnil
              cases d with
              | manifest => exact hm ⟨hauth, hne, Or.inl ⟨hasks, hnil⟩⟩
              | event => exact hm ⟨hauth, hne, Or.inr ⟨hasks, hnil⟩⟩
              | markers => exact hmarkers rfl hnil
            exact ⟨_, _, hasks, hdoc, (h.docs d).resolve_left hdoc⟩
        | reads ev m =>
            rw [hreq] at hstep
            obtain rfl := Option.some.inj hstep
            exact h.next (n := .goes (.load req ev m)) (handleEvents_reads hreq)
      · cases hstep
  | run i works =>
      obtain ⟨t, ht, rfl⟩ := Option.map_eq_some_iff.mp hstep
      obtain ⟨hholds, hnext⟩ :=
        advance_right h works (h.owns t (List.mem_of_getElem? ht)) (hm t ht)
      have hleft : Sound { s with
          server := { s.server with cache := (s.server.advance works t).1 }
          threads := s.threads.eraseIdx i } :=
        ⟨h.docs, hholds, fun t' ht' => h.owns t' (List.mem_of_mem_eraseIdx ht'), h.right⟩
      exact hleft.next hnext

/-! ### A run -/

lemma Holds.create {ev : Bytes} (h : Holds given dirs) : Holds given (SegmentCache.create dirs ev).dirs :=
  Holds.ensureDir (c := { eventId := ev, dirs }) h

lemma sound_begins (h : s.Begins) : s.Sound := by
  obtain ⟨cfg, dirs, given, hholds, rfl⟩ := h
  refine ⟨fun d => Or.inl ?_, hholds.create, by simp, by simp⟩
  cases d <;> rfl

/-- **The LAN server answers only for its event**, while the documents a request copies are there
and a path of the cache is taken at the event it is for. -/
theorem answers_for_its_event (h : Lib.Reach step Meets Begins s) :
    ∀ a ∈ s.answered, a.res.status = 200 →
      ∃ ev ask, asks a.req = some (ev, ask) ∧ Published a.given ev ask a.res.body := by
  have hsound : s.Sound :=
    h.invariant (fun _ => sound_begins) fun _ _ _ hs hm hstep => sound_step hs hm hstep
  exact hsound.right

/-- A `GET` of a path. -/
def get (path : String) : HttpRequest := { method := bytesOf "GET", path := bytesOf path }

/-- A server over no directories. -/
def fresh : Serving := { server := .create {} fun _ => none }

lemma begins_fresh : fresh.Begins :=
  ⟨{}, fun _ => none, [], fun _ _ h => absurd h (by simp), rfl⟩

/-- Segment 7 of the event that was started, kept and read again. -/
theorem answers_for_its_event_segment :
    ∃ s, Lib.Reach step Meets Begins s ∧ ∃ a ∈ s.answered, a.res.status = 200 ∧
      ∃ ev ask, asks a.req = some (ev, ask) ∧ Published a.given ev ask a.res.body := by
  obtain ⟨s, hs, hanswered⟩ : ∃ s, Lib.Reach step Meets Begins s ∧
      s.answered.map (·.res.status) = [200] :=
    Lib.exists_reach_guarded fresh
      [.started (bytesOf "E") (bytesOf "d") [1], .run 0 true, .run 0 true, .run 0 true,
        .confirmed (bytesOf "E") 7 [2, 3], .run 0 true, .run 0 true, .run 0 true, .run 0 true,
        .request (get "/events/E/segments/00000007.m4s"), .run 0 true, .run 0 true]
      begins_fresh (by decide +kernel)
  obtain ⟨a, ha, h200⟩ := List.mem_map.mp (hanswered ▸ List.mem_singleton_self 200)
  exact ⟨s, hs, a, ha, h200, answers_for_its_event hs a ha h200⟩

/-- Between the start of an event and its first manifest, `manifest.json` is answered with an empty
body. -/
theorem blank_manifest : ¬∀ s, Lib.Reach step Lib.anyStep Begins s → ∀ a ∈ s.answered,
    a.res.status = 200 →
      ∃ ev ask, asks a.req = some (ev, ask) ∧ Published a.given ev ask a.res.body := by
  intro h
  obtain ⟨s, hs, hanswered⟩ : ∃ s, Lib.Reach step Lib.anyStep Begins s ∧
      s.answered.map (fun a => (a.res.status, a.res.body)) = [(200, [])] :=
    Lib.exists_reach fresh
      [.started (bytesOf "E") (bytesOf "d") [1], .request (get "/events/E/manifest.json")]
      begins_fresh (by decide +kernel)
  obtain ⟨a, ha, heq⟩ := List.mem_map.mp (hanswered ▸ List.mem_singleton_self _)
  obtain ⟨h200, hblank⟩ := Prod.mk.inj heq
  obtain ⟨ev, ask, -, hpublished⟩ := h s hs a ha h200
  cases ask with
  | document d => exact hpublished.1 hblank
  | media m => exact hpublished.1 hblank

end Serving

end Multisite.Lan

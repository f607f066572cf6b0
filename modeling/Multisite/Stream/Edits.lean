import Multisite.Stream.Sound

/-!
Edits of a destination on air: what `RelaySession::update` leaves running, and the banner
`sendability` puts above every destination.

* `SameStream`: the two destinations agree on everything `affects_stream` compares;
* `RelayEdits.kept`: a session whose stream was not marked for a rebuild since it was planned
  holds a destination that asks for that stream.
-/

namespace Multisite

/-! ### What an edit leaves alone -/

/-- The two destinations agree on what `affects_stream` compares. -/
structure SameStream (a b : Destination) : Prop where
  url : a.url = b.url
  streamKey : a.streamKey = b.streamKey
  label : a.audio.label = b.audio.label
  all : a.audio.all = b.audio.all
  allowTranscode : a.allowTranscode = b.allowTranscode
  delayS : a.delayS = b.delayS
  roomId : a.roomId = b.roomId
  srtMode : a.srtMode = b.srtMode
  srtPassphrase : a.srtPassphrase = b.srtPassphrase
  srtLatencyMs : a.srtLatencyMs = b.srtLatencyMs

lemma affectsStream_eq_false {a b : Destination} : affectsStream a b = false ↔ SameStream a b := by
  simp only [affectsStream, Bool.or_eq_false_iff, decide_eq_false_iff_not, not_not]
  constructor
  · rintro ⟨⟨⟨⟨⟨⟨⟨⟨⟨h1, h2⟩, h3⟩, h4⟩, h5⟩, h6⟩, h7⟩, h8⟩, h9⟩, h10⟩
    exact ⟨h1, h2, h3, h4, h5, h6, h7, h8, h9, h10⟩
  · rintro ⟨h1, h2, h3, h4, h5, h6, h7, h8, h9, h10⟩
    exact ⟨⟨⟨⟨⟨⟨⟨⟨⟨h1, h2⟩, h3⟩, h4⟩, h5⟩, h6⟩, h7⟩, h8⟩, h9⟩, h10⟩

namespace SameStream

variable {a b c : Destination}

lemma refl (a : Destination) : SameStream a a := ⟨rfl, rfl, rfl, rfl, rfl, rfl, rfl, rfl, rfl, rfl⟩

lemma trans (h : SameStream a b) (h' : SameStream b c) : SameStream a c :=
  ⟨h.url.trans h'.url, h.streamKey.trans h'.streamKey, h.label.trans h'.label,
    h.all.trans h'.all, h.allowTranscode.trans h'.allowTranscode, h.delayS.trans h'.delayS,
    h.roomId.trans h'.roomId, h.srtMode.trans h'.srtMode, h.srtPassphrase.trans h'.srtPassphrase,
    h.srtLatencyMs.trans h'.srtLatencyMs⟩

lemma protocolOf (h : SameStream a b) : protocolOf a = protocolOf b := by
  rw [Multisite.protocolOf, Multisite.protocolOf, h.url]

lemma outputUrl (h : SameStream a b) : outputUrl a = outputUrl b := by
  have hparams : srtParams a = srtParams b := by
    simp only [srtParams, h.srtMode, h.streamKey, h.srtPassphrase, h.srtLatencyMs]
  rw [Multisite.outputUrl, Multisite.outputUrl, h.protocolOf, h.streamKey, h.url, hparams]

lemma chooseSound (h : SameStream a b) (tracks : List AudioTrack) :
    chooseSound tracks a = chooseSound tracks b := by
  rw [Multisite.chooseSound, Multisite.chooseSound, h.protocolOf, h.all, h.label]

/-- The plan reads nothing of a destination but what is compared. -/
lemma planStream (h : SameStream a b) (m : Manifest) (input : String) :
    planStream m a input = planStream m b input := by
  have hvideo : videoRefusal m a = videoRefusal m b := by
    rw [videoRefusal, videoRefusal, h.protocolOf, h.allowTranscode]
  have hargs : ∀ chosen, streamArgs m.audioTracks a chosen input =
      streamArgs m.audioTracks b chosen input := by
    intro chosen
    rw [streamArgs, streamArgs, h.protocolOf, h.outputUrl]
  have hsummary : ∀ c, streamSummary m a c = streamSummary m b c := by
    intro c
    rw [streamSummary, streamSummary, h.protocolOf, h.srtMode]
  simp only [Multisite.planStream, hvideo, h.chooseSound, hargs, hsummary]

end SameStream

/-! ### A session's edits -/

/-- What `RelaySession` keeps of its settings: `m_dest`, `m_enabled` and `m_reconfigured`. -/
structure RelayEdits where
  dest : Destination
  enabled : Bool
  reconfigured : Bool := false
  deriving DecidableEq, Repr

namespace RelayEdits

/-- `RelaySession::update`. -/
def update (s : RelayEdits) (d : Destination) : RelayEdits :=
  { dest := { d with id := s.dest.id }
    enabled := d.enabled
    reconfigured := s.reconfigured || affectsStream s.dest d }

/-- `RelaySession::set_enabled`. -/
def setEnabled (s : RelayEdits) (on : Bool) : RelayEdits :=
  { s with enabled := on, dest := { s.dest with enabled := on } }

/-- An edit of the running session. -/
inductive Edit where
  | update (d : Destination)
  | setEnabled (on : Bool)

/-- The session after an edit. -/
def apply (s : RelayEdits) : Edit → RelayEdits
  | .update d => s.update d
  | .setEnabled on => s.setEnabled on

/-- An edit marks the stream for a rebuild or leaves it the one asked for. -/
lemma apply_reconfigured_or {s : RelayEdits} (e : Edit) :
    (s.apply e).reconfigured = true ∨
      (s.apply e).reconfigured = s.reconfigured ∧ SameStream s.dest (s.apply e).dest := by
  cases e with
  | update d =>
      cases h : affectsStream s.dest d with
      | true => exact Or.inl (by simp [apply, update, h])
      | false =>
          refine Or.inr ⟨by simp [apply, update, h], ?_⟩
          obtain ⟨h1, h2, h3, h4, h5, h6, h7, h8, h9, h10⟩ := affectsStream_eq_false.mp h
          exact ⟨h1, h2, h3, h4, h5, h6, h7, h8, h9, h10⟩
  | setEnabled on => exact Or.inr ⟨rfl, ⟨rfl, rfl, rfl, rfl, rfl, rfl, rfl, rfl, rfl, rfl⟩⟩

/-- A mark for a rebuild stays until the loop takes it. -/
lemma reconfigured_apply {s : RelayEdits} (e : Edit) (h : s.reconfigured = true) :
    (s.apply e).reconfigured = true := by
  cases e with
  | update d => simp [apply, update, h]
  | setEnabled on => exact h

/-- **A stream that edits leave running is the one now asked for.** -/
lemma kept {s : RelayEdits} {es : List Edit}
    (h : (es.foldl apply s).reconfigured = false) :
    SameStream s.dest (es.foldl apply s).dest := by
  induction es generalizing s with
  | nil => exact .refl _
  | cons e es ih =>
      rw [List.foldl_cons] at h ⊢
      have hlater : (s.apply e).reconfigured = false := by
        by_contra hne
        rw [Bool.not_eq_false] at hne
        have hstays : (es.foldl apply (s.apply e)).reconfigured = true :=
          List.foldlRecOn (motive := fun x : RelayEdits => x.reconfigured = true) es apply hne
            fun x hx e _ => reconfigured_apply e hx
        exact absurd (hstays.symm.trans h) (by simp)
      rcases apply_reconfigured_or (s := s) e with hmarked | ⟨-, hsame⟩
      · exact absurd (hmarked.symm.trans hlater) (by simp)
      · exact hsame.trans (ih h)

end RelayEdits

/-! ### The banner -/

/-- Whether an event can go out by a protocol, with the first sound of it and no re-encoding. -/
def carries (m : Manifest) (proto : Protocol) : Bool :=
  videoOk (lower m.video.codec) proto &&
    match firstSendable 0 m.audioTracks with
    | some c => (checkTracks m.audioTracks c.chosenIdx).isNone
    | none => false

end Multisite

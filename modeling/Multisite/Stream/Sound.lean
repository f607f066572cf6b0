import Multisite.Stream.Plan

/-!
Which streams a plan sends: the tracks `plan_stream` settles on, and that the argument vector
maps these and nothing else.

`SoundAsked` says what a selection asks for in terms of the track list alone; `mapped` reads an
argument vector the way ffmpeg does, an option that takes a value taking the next argument
whatever that is.

* `chooseSound_asked`: what is settled on is what was asked for;
* `mapped_streamArgs`: what the invocation maps;
* `planned_or_refused`: every plan is an invocation that passed the checks, or a refusal that
  says why.
-/

namespace Multisite

/-! ### What is asked for -/

/-- The `i`-th track is the first with the property. -/
def IsFirst (P : AudioTrack → Prop) (tracks : List AudioTrack) (i : ℕ) : Prop :=
  ∃ t, tracks[i]? = some t ∧ P t ∧ ∀ j < i, ∀ u, tracks[j]? = some u → ¬P u

/-- The tracks a selection asks for: every unpacked one in order, or the first with the label,
or without a label the first unpacked one. -/
def SoundAsked (tracks : List AudioTrack) (audio : AudioSelection) (chosen : List ℕ) : Prop :=
  if audio.all then
    chosen.Pairwise (· < ·) ∧
      ∀ i, i ∈ chosen ↔ ∃ t, tracks[i]? = some t ∧ isPacked t = false
  else if audio.label ≠ "" then
    ∃ i, chosen = [i] ∧ IsFirst (·.label = audio.label) tracks i
  else ∃ i, chosen = [i] ∧ IsFirst (isPacked · = false) tracks i

/-- A plan that refuses says why, and has no arguments. -/
def StreamPlan.Refuses (p : StreamPlan) : Prop := p.ok = false ∧ p.problem ≠ "" ∧ p.args = []

lemma refuses_refuse {problem : String} (h : problem ≠ "") (remedy : String) :
    (refuse problem remedy).Refuses := ⟨rfl, h, rfl⟩

lemma append_ne_empty {s : String} (h : s ≠ "") (t : String) : s ++ t ≠ "" := by
  intro hst
  have hlist : s.toList ++ t.toList = [] := by
    rw [← String.toList_append, hst, String.toList_empty]
  exact h (String.toList_inj.mp (List.append_eq_nil_iff.mp hlist).1)

lemma refuses_packedRefusal (t : AudioTrack) : (packedRefusal t).Refuses :=
  refuses_refuse (append_ne_empty (append_ne_empty (by decide) _) _) _

/-! ### The loops over the tracks -/

lemma isFirst_zero {P : AudioTrack → Prop} {t : AudioTrack} {rest : List AudioTrack} (h : P t) :
    IsFirst P (t :: rest) 0 := ⟨t, rfl, h, fun j hj => absurd hj (Nat.not_lt_zero j)⟩

lemma IsFirst.succ {P : AudioTrack → Prop} {t : AudioTrack} {rest : List AudioTrack} {i : ℕ}
    (hi : IsFirst P rest i) (h : ¬P t) : IsFirst P (t :: rest) (i + 1) := by
  obtain ⟨u, hu, hP, hbefore⟩ := hi
  refine ⟨u, hu, hP, fun j hj v hv => ?_⟩
  cases j with
  | zero =>
      obtain rfl : t = v := Option.some.inj hv
      exact h
  | succ j => exact hbefore j (by omega) v hv

lemma firstSendable_some {k : ℕ} {tracks : List AudioTrack} {c : SoundChoice}
    (h : firstSendable k tracks = some c) :
    ∃ i, IsFirst (isPacked · = false) tracks i ∧ c.chosenIdx = [k + i] := by
  induction tracks generalizing k with
  | nil => exact absurd h (by simp [firstSendable])
  | cons t rest ih =>
      rw [firstSendable] at h
      split at h
      · rename_i ht
        obtain ⟨i, hi, hc⟩ := ih h
        exact ⟨i + 1, hi.succ (by simp [ht]), by rw [hc]; congr 1; omega⟩
      · rename_i ht
        obtain rfl := Option.some.inj h
        exact ⟨0, isFirst_zero (by simpa using ht), rfl⟩

lemma firstSendable_none {k : ℕ} {tracks : List AudioTrack} (h : firstSendable k tracks = none) :
    ∀ t ∈ tracks, isPacked t = true := by
  induction tracks generalizing k with
  | nil => exact fun t ht => absurd ht (by simp)
  | cons t rest ih =>
      rw [firstSendable] at h
      split at h
      · rename_i ht
        exact List.forall_mem_cons.mpr ⟨ht, ih h⟩
      · exact absurd h (by simp)

lemma byLabel_some {label : String} {k : ℕ} {tracks : List AudioTrack} {c : SoundChoice}
    (h : byLabel label k tracks = .ok (some c)) :
    ∃ i, IsFirst (·.label = label) tracks i ∧ c.chosenIdx = [k + i] ∧
      isPacked (trackAt tracks i) = false := by
  induction tracks generalizing k with
  | nil => exact absurd h (by simp [byLabel])
  | cons t rest ih =>
      rw [byLabel] at h
      split at h
      · rename_i ht
        obtain ⟨i, hi, hc, hp⟩ := ih h
        exact ⟨i + 1, hi.succ ht, by rw [hc]; congr 1; omega, hp⟩
      · rename_i ht
        split at h
        · exact absurd h (by simp)
        · rename_i hp
          obtain rfl := Option.some.inj (Except.ok.inj h)
          exact ⟨0, isFirst_zero (not_not.mp ht), rfl, by simpa [trackAt] using hp⟩

lemma byLabel_error {label : String} {k : ℕ} {tracks : List AudioTrack} {p : StreamPlan}
    (h : byLabel label k tracks = .error p) : p.Refuses := by
  induction tracks generalizing k with
  | nil => exact absurd h (by simp [byLabel])
  | cons t rest ih =>
      rw [byLabel] at h
      split at h
      · exact ih h
      · split at h
        · obtain rfl := Except.error.inj h
          exact refuses_packedRefusal t
        · exact absurd h (by simp)

lemma mem_allSendable {k i : ℕ} {tracks : List AudioTrack} :
    i ∈ allSendable k tracks ↔
      k ≤ i ∧ ∃ t, tracks[i - k]? = some t ∧ isPacked t = false := by
  induction tracks generalizing k with
  | nil => simp [allSendable]
  | cons t rest ih =>
      rw [allSendable]
      rcases Nat.lt_trichotomy i k with hik | rfl | hik
      · split <;> simp [ih, hik.ne] <;> omega
      · split <;> rename_i ht <;> simp [ih, ht]
      · obtain ⟨j, rfl⟩ : ∃ j, i = k + 1 + j := ⟨i - (k + 1), by omega⟩
        have hj : k + 1 + j - k = j + 1 := by omega
        have hj' : k + 1 + j - (k + 1) = j := by omega
        split
        · rw [ih, hj, hj', List.getElem?_cons_succ]
          simp only [true_and, show k + 1 ≤ k + 1 + j by omega, show k ≤ k + 1 + j by omega]
        · rw [List.mem_cons, ih, hj, hj', List.getElem?_cons_succ]
          simp only [true_and, show k + 1 ≤ k + 1 + j by omega, show k ≤ k + 1 + j by omega,
            show k + 1 + j ≠ k by omega, false_or]

lemma pairwise_allSendable (k : ℕ) (tracks : List AudioTrack) :
    (allSendable k tracks).Pairwise (· < ·) := by
  induction tracks generalizing k with
  | nil => exact List.Pairwise.nil
  | cons t rest ih =>
      rw [allSendable]
      split
      · exact ih (k + 1)
      · refine List.pairwise_cons.mpr ⟨fun i hi => ?_, ih (k + 1)⟩
        have := (mem_allSendable.mp hi).1
        omega

lemma trackAt_of_getElem? {tracks : List AudioTrack} {i : ℕ} {t : AudioTrack}
    (h : tracks[i]? = some t) : trackAt tracks i = t := by
  rw [trackAt, List.getD_eq_getElem?_getD, h, Option.getD_some]

/-! ### What is settled on -/

/-- **The sound that is settled on is the sound asked for**, and none of it is packed. -/
theorem chooseSound_asked {tracks : List AudioTrack} {dest : Destination} {c : SoundChoice}
    (h : chooseSound tracks dest = .ok c) :
    SoundAsked tracks dest.audio c.chosenIdx ∧ (dest.audio.all = true → protocolOf dest = .srt) ∧
      ∀ i ∈ c.chosenIdx, ∃ t, tracks[i]? = some t ∧ isPacked t = false := by
  rw [chooseSound] at h
  split at h
  · exact absurd h (by simp)
  dsimp only at h
  split at h
  · exact absurd h (by simp)
  rename_i hsome
  split at h
  · exact absurd h (by simp)
  rename_i hproto
  have hsrt : dest.audio.all = true → protocolOf dest = .srt := by
    intro hall
    simpa [hall] using hproto
  refine ⟨?_, hsrt, ?_⟩
  · rw [SoundAsked]
    split at h
    · rename_i hall
      obtain rfl := Except.ok.inj h
      rw [if_pos hall]
      exact ⟨pairwise_allSendable 0 tracks, fun i => by simp [mem_allSendable]⟩
    rename_i hall
    rw [if_neg hall]
    split at h
    · rename_i hlabel
      rw [if_neg (not_not.mpr hlabel)]
      split at h
      · rename_i c' hc'
        obtain rfl := Except.ok.inj h
        obtain ⟨i, hi, hc⟩ := firstSendable_some hc'
        exact ⟨i, by simpa using hc, hi⟩
      · rename_i hnone
        refine absurd (List.filter_eq_nil_iff.mpr fun t ht => ?_) hsome
        simp [firstSendable_none hnone t ht]
    · rename_i hlabel
      rw [if_pos hlabel]
      split at h
      · exact absurd h (by simp)
      · rename_i c' hc'
        obtain rfl := Except.ok.inj h
        obtain ⟨i, hi, hc, -⟩ := byLabel_some hc'
        exact ⟨i, by simpa using hc, hi⟩
      · exact absurd h (by simp)
  · intro i hi
    split at h
    · obtain rfl := Except.ok.inj h
      simpa [mem_allSendable] using hi
    split at h
    · split at h
      · rename_i c' hc'
        obtain rfl := Except.ok.inj h
        obtain ⟨j, ⟨t, ht, hp, -⟩, hc⟩ := firstSendable_some hc'
        obtain rfl : i = j := by simpa [hc] using hi
        exact ⟨t, ht, hp⟩
      · rename_i hnone
        refine absurd (List.filter_eq_nil_iff.mpr fun t ht => ?_) hsome
        simp [firstSendable_none hnone t ht]
    · split at h
      · exact absurd h (by simp)
      · rename_i c' hc'
        obtain rfl := Except.ok.inj h
        obtain ⟨j, ⟨t, ht, -, -⟩, hc, hp⟩ := byLabel_some hc'
        obtain rfl : i = j := by simpa [hc] using hi
        exact ⟨t, ht, trackAt_of_getElem? ht ▸ hp⟩
      · exact absurd h (by simp)

lemma chooseSound_error {tracks : List AudioTrack} {dest : Destination} {p : StreamPlan}
    (h : chooseSound tracks dest = .error p) : p.Refuses := by
  rw [chooseSound] at h
  split at h
  · obtain rfl := Except.error.inj h
    exact refuses_refuse (by decide) _
  dsimp only at h
  split at h
  · obtain rfl := Except.error.inj h
    exact refuses_packedRefusal _
  split at h
  · obtain rfl := Except.error.inj h
    exact refuses_refuse (by decide) _
  split at h
  · exact absurd h (by simp)
  split at h
  · split at h <;> exact absurd h (by simp)
  split at h
  · rename_i hp
    obtain rfl := Except.error.inj h
    exact byLabel_error hp
  · exact absurd h (by simp)
  · obtain rfl := Except.error.inj h
    exact refuses_refuse (append_ne_empty (append_ne_empty (by decide) _) _) _

/-! ### The checks -/

lemma checkTracks_some {tracks : List AudioTrack} {chosen : List ℕ} {p : StreamPlan}
    (h : checkTracks tracks chosen = some p) : p.Refuses := by
  induction chosen with
  | nil => exact absurd h (by simp [checkTracks])
  | cons i rest ih =>
      rw [checkTracks] at h
      split at h
      · obtain rfl := Option.some.inj h
        exact refuses_refuse (by decide) _
      split at h
      · obtain rfl := Option.some.inj h
        refine refuses_refuse (append_ne_empty (append_ne_empty (append_ne_empty ?_ _) _) _) _
        exact append_ne_empty (by decide) _
      · exact ih h

lemma checkTracks_none {tracks : List AudioTrack} {chosen : List ℕ}
    (h : checkTracks tracks chosen = none) :
    ∀ i ∈ chosen, (trackAt tracks i).idx = i ∧ lower (trackAt tracks i).codec = "aac" := by
  induction chosen with
  | nil => exact fun i hi => absurd hi (by simp)
  | cons i rest ih =>
      rw [checkTracks] at h
      split at h
      · exact absurd h (by simp)
      rename_i hidx
      split at h
      · exact absurd h (by simp)
      rename_i hcodec
      exact List.forall_mem_cons.mpr ⟨⟨not_not.mp hidx, not_not.mp hcodec⟩, ih h⟩

lemma videoRefusal_some {m : Manifest} {dest : Destination} {p : StreamPlan}
    (h : videoRefusal m dest = some p) : p.Refuses := by
  rw [videoRefusal] at h
  split at h
  · obtain rfl := Option.some.inj h
    exact refuses_refuse (by decide) _
  split at h
  · obtain rfl := Option.some.inj h
    refine refuses_refuse (append_ne_empty (append_ne_empty (append_ne_empty ?_ _) _) _) _
    decide
  split at h
  · obtain rfl := Option.some.inj h
    exact refuses_refuse (by decide) _
  · exact absurd h (by simp)

lemma videoRefusal_none {m : Manifest} {dest : Destination} (h : videoRefusal m dest = none) :
    videoOk (lower m.video.codec) (protocolOf dest) = true ∧ dest.allowTranscode = false := by
  rw [videoRefusal] at h
  split at h
  · exact absurd h (by simp)
  split at h
  · exact absurd h (by simp)
  rename_i hvideo
  split at h
  · exact absurd h (by simp)
  rename_i htranscode
  exact ⟨by simpa using hvideo, by simpa using htranscode⟩

/-- **A plan is an invocation or a refusal**: the invocation of what was settled on, every
check passed, or a refusal that says why. -/
theorem planned_or_refused (m : Manifest) (dest : Destination) (input : String) :
    (∃ c, chooseSound m.audioTracks dest = .ok c ∧ checkTracks m.audioTracks c.chosenIdx = none ∧
        videoRefusal m dest = none ∧ (planStream m dest input).ok = true ∧
        (planStream m dest input).args = streamArgs m.audioTracks dest c.chosenIdx input) ∨
      (planStream m dest input).Refuses := by
  rw [planStream]
  cases hvideo : videoRefusal m dest with
  | some p => exact Or.inr (videoRefusal_some hvideo)
  | none =>
      dsimp only
      cases hsound : chooseSound m.audioTracks dest with
      | error p => exact Or.inr (chooseSound_error hsound)
      | ok c =>
          dsimp only
          cases hcheck : checkTracks m.audioTracks c.chosenIdx with
          | some p => exact Or.inr (checkTracks_some hcheck)
          | none => exact Or.inl ⟨c, rfl, hcheck, rfl, rfl, rfl⟩

/-! ### What ffmpeg reads -/

/-- An argument that is an option with a value: of those without one only `-hide_banner` is
used here. -/
def takesValue (a : String) : Bool := a.toList.head? = some '-' && a ≠ "-hide_banner"

/-- The streams the arguments after the program's name map. -/
def mapped : List String → List String
  | [] => []
  | a :: rest =>
      if takesValue a then
        match rest with
        | [] => []
        | v :: rest' => if a = "-map" then v :: mapped rest' else mapped rest'
      else mapped rest

-- their equations are made here, once, and not by the first lemmas that ask for them
section
attribute [local simp] mapped
end

/-- An option other than `-map` is read with its value. -/
lemma mapped_option {a : String} (ha : takesValue a = true) (hmap : a ≠ "-map") (v : String)
    (rest : List String) : mapped (a :: v :: rest) = mapped rest := by
  rw [mapped, if_pos ha]
  rw [if_neg hmap]

lemma mapped_map (v : String) (rest : List String) : mapped ("-map" :: v :: rest) = v :: mapped rest := by
  rw [mapped, if_pos (by decide)]
  rw [if_pos rfl]

lemma mapped_last (a : String) : mapped [a] = [] := by
  rw [mapped]
  split <;> rfl

lemma mapped_flatMap (chosen : List ℕ) (rest : List String) :
    mapped (chosen.flatMap (fun i => ["-map", "0:a:" ++ toString i]) ++ rest) =
      chosen.map (fun i => "0:a:" ++ toString i) ++ mapped rest := by
  induction chosen with
  | nil => rfl
  | cons i chosen ih =>
      rw [List.flatMap_cons, List.append_assoc, List.cons_append, List.cons_append,
        List.nil_append, mapped_map, ih, List.map_cons, List.cons_append]

lemma takesValue_metadata (k : ℕ) : takesValue ("-metadata:s:a:" ++ toString k) = true := by
  have hne : "-metadata:s:a:" ++ toString k ≠ "-hide_banner" := by
    intro h
    have := congrArg String.toList h
    rw [String.toList_append] at this
    simp at this
  rw [takesValue, decide_eq_true hne, String.toList_append]
  rfl

lemma metadata_ne_map (k : ℕ) : "-metadata:s:a:" ++ toString k ≠ "-map" := by
  intro h
  have := congrArg String.toList h
  rw [String.toList_append] at this
  simp at this

lemma mapped_languageArgs (tracks : List AudioTrack) (k : ℕ) (chosen : List ℕ)
    (rest : List String) :
    mapped (languageArgs tracks k chosen ++ rest) = mapped rest := by
  induction chosen generalizing k with
  | nil => rfl
  | cons i chosen ih =>
      rw [languageArgs, List.append_assoc]
      split
      · exact ih (k + 1)
      · show mapped (("-metadata:s:a:" ++ toString k) :: _ :: _) = _
        rw [mapped_option (takesValue_metadata k) (metadata_ne_map k)]
        exact ih (k + 1)

/-- **What the invocation maps**: the picture and the tracks chosen, whatever the input and the
address say. -/
theorem mapped_streamArgs (tracks : List AudioTrack) (dest : Destination) (chosen : List ℕ)
    (input : String) :
    mapped (streamArgs tracks dest chosen input).tail =
      "0:v:0" :: chosen.map fun i => "0:a:" ++ toString i := by
  have hmux : mapped ((if protocolOf dest = .srt then
      ["-mpegts_flags", "+resend_headers", "-f", "mpegts"]
      else ["-flvflags", "no_duration_filesize", "-f", "flv"]) ++ [outputUrl dest]) = [] := by
    split
    · show mapped ["-mpegts_flags", "+resend_headers", "-f", "mpegts", outputUrl dest] = []
      rw [mapped_option (by decide) (by decide), mapped_option (by decide) (by decide), mapped_last]
    · show mapped ["-flvflags", "no_duration_filesize", "-f", "flv", outputUrl dest] = []
      rw [mapped_option (by decide) (by decide), mapped_option (by decide) (by decide), mapped_last]
  simp only [streamArgs, List.append_assoc, List.cons_append, List.nil_append, List.tail_cons]
  rw [mapped, if_neg (by decide), mapped_option (by decide) (by decide), mapped_map,
    mapped_flatMap, mapped_languageArgs, mapped_option (by decide) (by decide), hmux,
    List.append_nil]

lemma getLast_streamArgs (tracks : List AudioTrack) (dest : Destination) (chosen : List ℕ)
    (input : String) :
    (streamArgs tracks dest chosen input).getLast? = some (outputUrl dest) := by
  rw [streamArgs, List.getLast?_append, List.getLast?_singleton, Option.some_or]

/-! ### The right sound and nothing else -/

/-- **The right sound and nothing else**: a plan that goes ahead maps one picture and exactly
the tracks asked for, each of them unpacked AAC at the position it is published under; the
video codec is one the protocol carries, and the output comes last.  Any other plan says why
and has no arguments. -/
theorem plan_sends (m : Manifest) (dest : Destination) (input : String) :
    ((planStream m dest input).ok = true →
        (∃ chosen, mapped (planStream m dest input).args.tail =
            "0:v:0" :: chosen.map (fun i => "0:a:" ++ toString i) ∧
          SoundAsked m.audioTracks dest.audio chosen ∧
          ∀ i ∈ chosen, ∃ t, m.audioTracks[i]? = some t ∧ isPacked t = false ∧ t.idx = i ∧
            lower t.codec = "aac") ∧
        (dest.audio.all = true → protocolOf dest = .srt) ∧
        (lower m.video.codec = "h264" ∨ lower m.video.codec = "hevc" ∨
          lower m.video.codec = "av1" ∧ protocolOf dest = .rtmp) ∧
        (planStream m dest input).args.getLast? = some (outputUrl dest)) ∧
      ((planStream m dest input).ok = false →
        (planStream m dest input).problem ≠ "" ∧ (planStream m dest input).args = []) := by
  rcases planned_or_refused m dest input with ⟨c, hsound, hcheck, hvideo, hok, hargs⟩ | hrefuses
  · refine ⟨fun _ => ?_, fun h => absurd (hok.symm.trans h) (by simp)⟩
    obtain ⟨hasked, hsrt, hunpacked⟩ := chooseSound_asked hsound
    have hcodec := (videoRefusal_none hvideo).1
    rw [hargs]
    refine ⟨⟨c.chosenIdx, mapped_streamArgs .., hasked, fun i hi => ?_⟩, hsrt, ?_,
      getLast_streamArgs ..⟩
    · obtain ⟨t, ht, hp⟩ := hunpacked i hi
      have hchecked := checkTracks_none hcheck i hi
      rw [trackAt_of_getElem? ht] at hchecked
      exact ⟨t, ht, hp, hchecked⟩
    · simpa [videoOk, or_assoc] using hcodec
  · obtain ⟨hok, hproblem, hargs⟩ := hrefuses
    exact ⟨fun h => absurd (hok.symm.trans h) (by simp), fun _ => ⟨hproblem, hargs⟩⟩

/-- A microphone track packed ahead of the programme, which is asked for by its label. -/
theorem plan_sends_labelled :
    ∃ (m : Manifest) (dest : Destination), (planStream m dest "pipe:0").ok = true ∧
      ∃ chosen, mapped (planStream m dest "pipe:0").args.tail =
          "0:v:0" :: chosen.map (fun i => "0:a:" ++ toString i) ∧
        SoundAsked m.audioTracks dest.audio chosen := by
  let m : Manifest :=
    { audioTracks := [{ label := "ISOs", channels := 8 }, { idx := 1, label := "Main" }] }
  let dest : Destination := { url := "rtmp://h", streamKey := "k", audio := { label := "Main" } }
  have hok : (planStream m dest "pipe:0").ok = true := by decide +kernel
  obtain ⟨chosen, hmapped, hasked, -⟩ := ((plan_sends m dest "pipe:0").1 hok).1
  exact ⟨m, dest, hok, chosen, hmapped, hasked⟩

end Multisite

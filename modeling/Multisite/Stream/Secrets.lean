import Multisite.Stream.Redact
import Multisite.Stream.Sound

/-!
What a redacted argument vector tells of the secrets that were in it.

The secrets are taken out one after the other from a text that still holds the second, so what
matters is where each of them is found.

* `hitsOnly`: scanning the address from the left, a secret is found exactly at the places that
  hold it;
* `replaceAll_of_hitsOnly`: then replacing it masks these places and nothing else;
* `hitsOnly_of_masked`, `hitsOnly_of_twice`: a secret that does not begin like a placeholder is
  masked only so.
-/

namespace Multisite

open Lib

/-! ### Where a secret is found -/

/-- `s.find(p) != npos`. -/
def occursIn (p s : String) : Bool := (firstIn p.toList s.toList).isSome

lemma occursIn_eq_false {p s : String} : occursIn p s = false ↔ ¬p.toList <:+: s.toList := by
  rw [occursIn, ← firstIn_eq_none, Option.isSome_eq_false_iff, Option.isNone_iff_eq_none]

/-- Scanning from the left, `p` is found exactly at the parts `secret`; `acc` is what was read
since the last of these. -/
def hitsOnly (p : List Char) (secret : UrlPart) (text : UrlPart → List Char) :
    List Char → List UrlPart → Bool
  | acc, [] => (firstIn p acc).isNone
  | acc, part :: rest =>
      if part = secret then
        decide (firstIn p (acc ++ p) = some acc.length) && hitsOnly p secret text [] rest
      else hitsOnly p secret text (acc ++ text part) rest

/-- The parts with `w` in the places of `secret`. -/
def maskedBy (secret : UrlPart) (w : List Char) (text : UrlPart → List Char) (part : UrlPart) :
    List Char :=
  if part = secret then w else text part

section

variable {p w acc : List Char} {secret : UrlPart} {text : UrlPart → List Char}

/-- **A secret found only in its places is replaced only there.** -/
lemma replaceAll_of_hitsOnly (hp : p ≠ []) (htext : text secret = p) {parts : List UrlPart}
    (h : hitsOnly p secret text acc parts = true) :
    replaceAll p w (acc ++ parts.flatMap text) =
      acc ++ parts.flatMap (maskedBy secret w text) := by
  induction parts generalizing acc with
  | nil =>
      rw [hitsOnly, Option.isNone_iff_eq_none, firstIn_eq_none] at h
      simpa using replaceAll_eq_self hp h
  | cons part rest ih =>
      rw [hitsOnly] at h
      rw [List.flatMap_cons, List.flatMap_cons]
      split at h
      · rename_i hpart
        rw [Bool.and_eq_true, decide_eq_true_eq] at h
        have hrest := ih h.2
        rw [List.nil_append, List.nil_append] at hrest
        rw [maskedBy, if_pos hpart, hpart, htext, replaceAll_append_self hp h.1, hrest]
      · rename_i hpart
        rw [maskedBy, if_neg hpart, ← List.append_assoc, ih h, List.append_assoc]

/-! ### Masked only so -/

/-- A secret not begun before the parts are read on is found only in its places. -/
lemma hitsOnly_append (hp : p ≠ []) (htext : text secret = p) {x : List Char}
    {parts : List UrlPart} (h : hitsOnly p secret text acc parts = true)
    (hx : ∀ j < x.length, ¬p <+: (x ++ (acc ++ parts.flatMap text)).drop j) :
    hitsOnly p secret text (x ++ acc) parts = true := by
  induction parts generalizing acc with
  | nil =>
      rw [hitsOnly, Option.isNone_iff_eq_none, firstIn_eq_none] at h ⊢
      refine not_infix_of_forall hp fun j hj hpre => ?_
      rcases lt_or_ge j x.length with hjx | hjx
      · exact hx j hjx (by simpa using hpre)
      · rw [List.drop_append, List.drop_eq_nil_of_le hjx, List.nil_append] at hpre
        exact h (hpre.isInfix.trans (List.drop_suffix _ acc).isInfix)
  | cons part rest ih =>
      rw [hitsOnly] at h ⊢
      split at h
      · rename_i hpart
        rw [if_pos hpart]
        rw [Bool.and_eq_true, decide_eq_true_eq] at h ⊢
        refine ⟨firstIn_eq_some.mpr ⟨by simp, ?_, fun j hj hpre => ?_⟩, h.2⟩
        · rw [List.drop_left]
        rcases lt_or_ge j x.length with hjx | hjx
        · refine hx j hjx (hpre.trans ?_)
          rw [List.flatMap_cons, hpart, htext]
          refine List.IsPrefix.drop ?_ j
          exact ⟨rest.flatMap text, by simp⟩
        · refine (firstIn_eq_some.mp h.1).2.2 (j - x.length) ?_ ?_
          · rw [List.length_append] at hj
            omega
          · rwa [List.append_assoc, List.drop_append, List.drop_eq_nil_of_le hjx,
              List.nil_append] at hpre
      · rename_i hpart
        rw [if_neg hpart, List.append_assoc]
        refine ih h fun j hj => ?_
        rw [List.append_assoc acc]
        exact hx j hj

/-! ### Masked only so -/

/-- **A secret masked by its replacement was found only in its places**, when it does not begin
like the placeholder. -/
lemma hitsOnly_of_masked {c : Char} (hp : p ≠ []) (hc : p.head? ≠ some c)
    (hw : w.head? = some c) (htext : text secret = p) {parts : List UrlPart}
    (h : replaceAll p w (acc ++ parts.flatMap text) =
      acc ++ parts.flatMap (maskedBy secret w text)) :
    hitsOnly p secret text acc parts = true := by
  induction parts generalizing acc with
  | nil =>
      rw [hitsOnly, Option.isNone_iff_eq_none, firstIn_eq_none]
      refine not_infix_of_forall hp fun j hj hpre => ?_
      exact (replaceAll_cancel hp hc hw h).1 j hj (by simpa using hpre)
  | cons part rest ih =>
      rw [List.flatMap_cons, List.flatMap_cons] at h
      rw [hitsOnly]
      split
      · rename_i hpart
        rw [maskedBy, if_pos hpart, hpart, htext] at h
        obtain ⟨hbefore, hrest⟩ := replaceAll_cancel hp hc hw h
        have hfirst : firstIn p (acc ++ p) = some acc.length := by
          refine firstIn_eq_some.mpr ⟨by simp, by rw [List.drop_left], fun j hj hpre => ?_⟩
          refine hbefore j hj (hpre.trans (List.IsPrefix.drop ?_ j))
          exact ⟨rest.flatMap text, by simp⟩
        rw [Bool.and_eq_true, decide_eq_true_eq]
        refine ⟨hfirst, ih ?_⟩
        rw [replaceAll_self_append hp] at hrest
        simpa using hrest
      · rename_i hpart
        rw [maskedBy, if_neg hpart, ← List.append_assoc, ← List.append_assoc] at h
        exact ih h

end

/-- The parts as they are logged. -/
def UrlPart.masked (part : UrlPart) : List Char := part.text "<key>" "<passphrase>"

/-- The key is not begun inside the passphrase, when what two replacements leave of the
passphrase is its placeholder. -/
lemma not_prefix_of_passphrase {k p rest z : List Char} (hk : k ≠ []) (hp : p ≠ [])
    (hck : k.head? ≠ some '<') (hcp : p.head? ≠ some '<')
    (h : replaceAll p "<passphrase>".toList (replaceAll k "<key>".toList (p ++ rest)) =
      "<passphrase>".toList ++ z) : ∀ j < p.length, ¬k <+: (p ++ rest).drop j := by
  have hp' : ∀ l, ¬p <+: '<' :: l := fun l hl => hcp (head?_of_begins hp hl)
  intro j hj hpre
  obtain ⟨i, hi⟩ : ∃ i, firstIn k (p ++ rest) = some i := by
    cases hfirst : firstIn k (p ++ rest) with
    | none =>
        exact absurd (hpre.isInfix.trans (List.drop_suffix j _).isInfix)
          (firstIn_eq_none.mp hfirst)
    | some i => exact ⟨i, rfl⟩
  have hij : i ≤ j := by
    by_contra hlt
    exact (firstIn_eq_some.mp hi).2.2 j (by omega) hpre
  rw [replaceAll_split hk hi, List.take_append_of_le_length (by omega)] at h
  obtain ⟨a, q, hpq⟩ := List.exists_cons_of_ne_nil hp
  cases i with
  | zero =>
      -- the placeholder of the key would stand where that of the passphrase does
      rw [List.take_zero, List.nil_append] at h
      have h' : replaceAll p "<passphrase>".toList ('<' :: 'k' :: ("ey>".toList ++
          replaceAll k "<key>".toList ((p ++ rest).drop (0 + k.length)))) =
          '<' :: 'p' :: ("assphrase>".toList ++ z) := h
      rw [replaceAll_cons hp, if_neg (hp' _), replaceAll_cons hp] at h'
      split at h'
      · exact absurd (List.cons.inj (List.cons.inj h').2).1 (by decide)
      · exact absurd (List.cons.inj (List.cons.inj h').2).1 (by decide)
  | succ i =>
      -- the passphrase would have to reach across the key's placeholder
      have hlt : i < q.length := by
        rw [hpq, List.length_cons] at hj
        omega
      have h' : replaceAll p "<passphrase>".toList (a :: (q.take i ++ ('<' :: ("key>".toList ++
          replaceAll k "<key>".toList ((p ++ rest).drop (i + 1 + k.length)))))) =
          '<' :: ("passphrase>".toList ++ z) := by
        rw [hpq] at h ⊢
        exact h
      rw [replaceAll_cons hp] at h'
      split at h'
      · rename_i hacross
        obtain ⟨b, k', hbk⟩ := List.exists_cons_of_ne_nil hk
        have hat : q.drop i ≠ [] := by
          intro hnil
          have := congrArg List.length hnil
          rw [List.length_drop, List.length_nil] at this
          omega
        obtain ⟨b', q', hq'⟩ := List.exists_cons_of_ne_nil hat
        have hb : b = b' := by
          have hstart := (firstIn_eq_some.mp hi).2.1
          rw [hpq, List.cons_append, List.drop_succ_cons,
            List.drop_append_of_le_length (by omega), hq', hbk, List.cons_append,
            List.cons_prefix_cons] at hstart
          exact hstart.1
        have hb' : b' = '<' := by
          rw [hpq, List.cons_prefix_cons] at hacross
          have hdrop := hacross.2.drop i
          rw [hq', List.drop_append, List.drop_eq_nil_of_le (by simp), List.length_take,
            Nat.min_eq_left hlt.le, Nat.sub_self, List.drop_zero, List.nil_append,
            List.cons_prefix_cons] at hdrop
          exact hdrop.1
        exact hck (by rw [hbk, List.head?_cons, hb, hb'])
      · exact hcp (by rw [hpq, List.head?_cons, (List.cons.inj h').1])

/-- **An address masked by both replacements**: the key was found only in its places. -/
lemma hitsOnly_of_twice {k p : String} {acc : List Char} (hk : k ≠ "") (hp : p ≠ "")
    (hck : k.toList.head? ≠ some '<') (hcp : p.toList.head? ≠ some '<') {parts : List UrlPart}
    (h : replaceAll p.toList "<passphrase>".toList
        (replaceAll k.toList "<key>".toList (acc ++ parts.flatMap (UrlPart.text k p))) =
      acc ++ parts.flatMap UrlPart.masked) :
    hitsOnly k.toList .key (UrlPart.text k p) acc parts = true := by
  have hk' := toList_ne_nil hk
  have hp' := toList_ne_nil hp
  have hcancel := fun {x y z : List Char} => replaceAll_cancel_twice (x := x) (y := y) (z := z)
    hk' hp' hck hcp (w := "<key>".toList) rfl (v := "<passphrase>".toList) rfl
  induction parts generalizing acc with
  | nil =>
      rw [hitsOnly, Option.isNone_iff_eq_none, firstIn_eq_none]
      refine not_infix_of_forall hk' fun j hj hpre => ?_
      exact (hcancel h).1 j hj (by simpa using hpre)
  | cons part rest ih =>
      rw [List.flatMap_cons, List.flatMap_cons] at h
      cases part with
      | plain s =>
          rw [hitsOnly, if_neg (by simp)]
          rw [← List.append_assoc, ← List.append_assoc] at h
          exact ih h
      | key =>
          obtain ⟨hbefore, hrest⟩ := hcancel h
          have hfirst : firstIn k.toList (acc ++ k.toList) = some acc.length := by
            refine firstIn_eq_some.mpr ⟨by simp, by rw [List.drop_left], fun j hj hpre => ?_⟩
            refine hbefore j hj (hpre.trans (List.IsPrefix.drop ?_ j))
            exact ⟨rest.flatMap (UrlPart.text k p), by simp [UrlPart.text]⟩
          have hself := replaceAll_self_append (w := "<key>".toList) hk'
            (rest.flatMap (UrlPart.text k p))
          rw [hitsOnly, if_pos rfl, Bool.and_eq_true, decide_eq_true_eq]
          refine ⟨hfirst, ih ?_⟩
          have hlater : replaceAll p.toList "<passphrase>".toList ("<key>".toList ++
              replaceAll k.toList "<key>".toList (rest.flatMap (UrlPart.text k p))) =
              "<key>".toList ++ rest.flatMap UrlPart.masked := hself ▸ hrest
          simpa using (replaceAll_cancel hp' hcp rfl hlater).2
      | passphrase =>
          obtain ⟨hbefore, hrest⟩ := hcancel h
          have hinside := not_prefix_of_passphrase hk' hp' hck hcp hrest
          rw [hitsOnly, if_neg (by simp)]
          have hlater : replaceAll p.toList "<passphrase>".toList (p.toList ++
              replaceAll k.toList "<key>".toList (rest.flatMap (UrlPart.text k p))) =
              "<passphrase>".toList ++ rest.flatMap UrlPart.masked := by
            rw [← replaceAll_append hk' hinside]
            exact hrest
          have hself := replaceAll_self_append (w := "<passphrase>".toList) hp'
            (replaceAll k.toList "<key>".toList (rest.flatMap (UrlPart.text k p)))
          have htail : hitsOnly k.toList .key (UrlPart.text k p) [] rest = true :=
            ih (by simpa using List.append_cancel_left (hself.symm.trans hlater))
          have happend := hitsOnly_append (x := acc ++ p.toList) hk' rfl htail fun j hj hpre => ?_
          · rw [List.append_nil] at happend
            exact happend
          · rw [List.nil_append, List.append_assoc] at hpre
            rcases lt_or_ge j acc.length with hja | hja
            · exact hbefore j hja hpre
            · rw [List.drop_append, List.drop_eq_nil_of_le hja, List.nil_append] at hpre
              exact hinside (j - acc.length) (by rw [List.length_append] at hj; omega) hpre

/-! ### What is logged -/

/-- The address as it is logged when the secrets are all that is taken out of it. -/
def maskedUrl (d : Destination) : List Char := (urlParts d).flatMap UrlPart.masked

/-- Each secret is found exactly at the places of the address that hold it: the key in the
address as it is, the passphrase once the key's placeholder stands. -/
def secretsApart (d : Destination) : Bool :=
  hitsOnly d.streamKey.toList .key (UrlPart.text d.streamKey d.srtPassphrase) [] (urlParts d) &&
    hitsOnly d.srtPassphrase.toList .passphrase (UrlPart.text "<key>" d.srtPassphrase) []
      (urlParts d)

section

variable {d d' : Destination} {m : Manifest} {input : String}

lemma masked_of_key : maskedBy .key "<key>".toList (UrlPart.text d.streamKey d.srtPassphrase) =
    UrlPart.text "<key>" d.srtPassphrase := by
  funext part
  cases part <;> simp [maskedBy, UrlPart.text]

lemma masked_of_passphrase : maskedBy .passphrase "<passphrase>".toList
    (UrlPart.text "<key>" d.srtPassphrase) = UrlPart.masked := by
  funext part
  cases part <;> simp [maskedBy, UrlPart.text, UrlPart.masked]

lemma toList_redactText {text : String} (hk : d.streamKey ≠ "") (hp : d.srtPassphrase ≠ "") :
    (redactText text d).toList = replaceAll d.srtPassphrase.toList "<passphrase>".toList
      (replaceAll d.streamKey.toList "<key>".toList text.toList) := by
  rw [redactText, toList_scrub hp, toList_scrub hk]

/-- **The address is masked when the secrets are apart.** -/
theorem redactText_outputUrl (hk : d.streamKey ≠ "") (hp : d.srtPassphrase ≠ "")
    (h : secretsApart d = true) : (redactText (outputUrl d) d).toList = maskedUrl d := by
  rw [secretsApart, Bool.and_eq_true] at h
  have hkey := replaceAll_of_hitsOnly (w := "<key>".toList) (toList_ne_nil hk) rfl h.1
  have hpass := replaceAll_of_hitsOnly (w := "<passphrase>".toList) (toList_ne_nil hp) rfl h.2
  rw [List.nil_append, List.nil_append] at hkey hpass
  rw [toList_redactText hk hp, toList_outputUrl, urlText, hkey, masked_of_key, hpass,
    masked_of_passphrase]
  rfl

/-- **And only then**, when they do not begin like a placeholder. -/
theorem secretsApart_of_masked (hk : d.streamKey ≠ "") (hp : d.srtPassphrase ≠ "")
    (hck : d.streamKey.toList.head? ≠ some '<') (hcp : d.srtPassphrase.toList.head? ≠ some '<')
    (h : (redactText (outputUrl d) d).toList = maskedUrl d) : secretsApart d = true := by
  rw [toList_redactText hk hp, toList_outputUrl] at h
  have hkey : hitsOnly d.streamKey.toList .key (UrlPart.text d.streamKey d.srtPassphrase) []
      (urlParts d) = true := hitsOnly_of_twice hk hp hck hcp h
  have hmasked := replaceAll_of_hitsOnly (w := "<key>".toList) (toList_ne_nil hk) rfl hkey
  rw [List.nil_append, List.nil_append, masked_of_key] at hmasked
  rw [urlText, hmasked] at h
  rw [secretsApart, hkey, Bool.true_and]
  refine hitsOnly_of_masked (w := "<passphrase>".toList) (toList_ne_nil hp) hcp rfl rfl ?_
  rw [masked_of_passphrase]
  exact h

/-! ### Two destinations that differ in their secrets -/

/-- What there is of an argument vector besides the secrets. -/
def restOfArgs (d : Destination) (args : List String) : List String :=
  if args = [] then []
  else args.dropLast ++ (urlParts d).filterMap fun
    | .plain s => some s
    | _ => none

/-- The secrets are set, and occur neither in the rest of the argument vector nor inside a
placeholder. -/
structure Unseen (m : Manifest) (d : Destination) (input : String) : Prop where
  key : d.streamKey ≠ ""
  passphrase : d.srtPassphrase ≠ ""
  rest : ∀ s ∈ restOfArgs d (planStream m d input).args,
    occursIn d.streamKey s = false ∧ occursIn d.srtPassphrase s = false
  placeholders : ∀ s ∈ ["<key>", "<passphrase>"],
    occursIn d.streamKey s = false ∧ occursIn d.srtPassphrase s = false

/-- The two destinations differ only in the stream key and the passphrase. -/
def SameButSecrets (d d' : Destination) : Prop :=
  d' = { d with streamKey := d'.streamKey, srtPassphrase := d'.srtPassphrase }

/-- The plans differ in the address at most. -/
lemma args_sameButSecrets (h : SameButSecrets d d') (m : Manifest) (input : String) :
    (planStream m d input).args = [] ∧ (planStream m d' input).args = [] ∨
      ∃ args, (planStream m d input).args = args ++ [outputUrl d] ∧
        (planStream m d' input).args = args ++ [outputUrl d'] := by
  have hproto : protocolOf d' = protocolOf d := by rw [h]; rfl
  have hvideo : videoRefusal m d' = videoRefusal m d := by
    rw [videoRefusal, videoRefusal, hproto, h]
  have hsound : chooseSound m.audioTracks d' = chooseSound m.audioTracks d := by
    rw [chooseSound, chooseSound, hproto, h]
  rcases planned_or_refused m d input with ⟨c, hc, hcheck, hv, -, hargs⟩ | ⟨-, -, hargs⟩
  · rcases planned_or_refused m d' input with ⟨c', hc', -, -, -, hargs'⟩ | ⟨hok', -, -⟩
    · rw [hsound, hc] at hc'
      obtain rfl := Except.ok.inj hc'
      rw [streamArgs] at hargs hargs'
      rw [hproto] at hargs'
      exact Or.inr ⟨_, hargs, hargs'⟩
    · rw [planStream, hvideo, hv, hsound, hc] at hok'
      simp [hcheck] at hok'
  · rcases planned_or_refused m d' input with ⟨c', hc', hcheck', hv', -, -⟩ | ⟨-, -, hargs'⟩
    · rw [hsound] at hc'
      rw [hvideo] at hv'
      rw [planStream, hv', hc'] at hargs
      simp [hcheck', streamArgs] at hargs
    · exact Or.inl ⟨hargs, hargs'⟩

lemma urlParts_sameButSecrets (h : SameButSecrets d d') (hk : d.streamKey ≠ "")
    (hp : d.srtPassphrase ≠ "") (hk' : d'.streamKey ≠ "") (hp' : d'.srtPassphrase ≠ "") :
    urlParts d' = urlParts d := by
  have hproto : protocolOf d' = protocolOf d := by rw [h]; rfl
  have hurl : d'.url = d.url := by rw [h]
  have hmode : d'.srtMode = d.srtMode := by rw [h]
  have hlatency : d'.srtLatencyMs = d.srtLatencyMs := by rw [h]
  simp only [urlParts, hproto, hurl, hmode, hlatency, if_neg hk, if_neg hk', hp, hp', ne_eq,
    not_false_eq_true, if_true, hk, hk']

/-- What an argument without secrets is logged as. -/
lemma redactText_eq_self {s : String} (h : occursIn d.streamKey s = false)
    (h' : occursIn d.srtPassphrase s = false) : redactText s d = s := by
  rw [redactText, scrub_eq_self _ (occursIn_eq_false.mp h),
    scrub_eq_self _ (occursIn_eq_false.mp h')]

/-- An argument vector that is sent is logged as it is, but for the address. -/
lemma redactArgs_append {args : List String} (h : Unseen m d input)
    (hargs : (planStream m d input).args = args ++ [outputUrl d]) :
    redactArgs (planStream m d input).args d = args ++ [redactText (outputUrl d) d] := by
  have hrest : ∀ s ∈ args, redactText s d = s := by
    intro s hs
    have hmem : s ∈ restOfArgs d (planStream m d input).args := by
      rw [restOfArgs, hargs, if_neg (by simp), List.dropLast_concat]
      exact List.mem_append_left _ hs
    exact redactText_eq_self (h.rest s hmem).1 (h.rest s hmem).2
  have hself : args.map (fun a => redactText a d) = args :=
    (List.map_congr_left hrest).trans (List.map_id' args)
  rw [redactArgs, hargs, List.map_append, hself]
  rfl

/-- **What redaction tells of the secrets**: two destinations that differ only in them are
logged alike when the secrets of each are apart; against one whose secrets are, a destination
whose secrets do not begin like a placeholder is logged alike only then; and `scrub` ends on
every text. -/
theorem redaction_blind (hsame : SameButSecrets d d') (h : Unseen m d input)
    (h' : Unseen m d' input) :
    (secretsApart d = true → secretsApart d' = true →
      redactArgs (planStream m d input).args d = redactArgs (planStream m d' input).args d') ∧
    ((planStream m d input).ok = true → d.streamKey.toList.head? ≠ some '<' →
      d.srtPassphrase.toList.head? ≠ some '<' → secretsApart d' = true →
      (redactArgs (planStream m d input).args d = redactArgs (planStream m d' input).args d' ↔
        secretsApart d = true)) ∧
    ∀ s secret w : String, secret ≠ "" →
      ∃ n r, scrubLoop secret.toList w.toList n (s.toList, 0) = some r := by
  have hmasked : maskedUrl d' = maskedUrl d := by
    rw [maskedUrl, maskedUrl,
      urlParts_sameButSecrets hsame h.key h.passphrase h'.key h'.passphrase]
  have halike : secretsApart d = true → secretsApart d' = true →
      redactArgs (planStream m d input).args d = redactArgs (planStream m d' input).args d' := by
    intro ha ha'
    rcases args_sameButSecrets hsame m input with ⟨hargs, hargs'⟩ | ⟨args, hargs, hargs'⟩
    · rw [hargs, hargs']
      rfl
    · rw [redactArgs_append h hargs, redactArgs_append h' hargs', ← String.toList_inj.mp
        ((redactText_outputUrl h.key h.passphrase ha).trans (hmasked.symm.trans
          (redactText_outputUrl h'.key h'.passphrase ha').symm))]
  refine ⟨halike, fun hok hck hcp ha' => ⟨fun heq => ?_, fun ha => halike ha ha'⟩,
    fun s secret w hs => ⟨_, _, scrub_terminates s secret w hs⟩⟩
  rcases args_sameButSecrets hsame m input with ⟨hargs, -⟩ | ⟨args, hargs, hargs'⟩
  · rcases planned_or_refused m d input with ⟨c, -, -, -, -, hargs'⟩ | ⟨hno, -⟩
    · rw [hargs'] at hargs
      exact absurd hargs (by simp [streamArgs])
    · exact absurd (hno.symm.trans hok) (by simp)
  · rw [redactArgs_append h hargs, redactArgs_append h' hargs'] at heq
    have hurl : redactText (outputUrl d) d = redactText (outputUrl d') d' := by
      simpa using heq
    refine secretsApart_of_masked h.key h.passphrase hck hcp ?_
    rw [hurl, redactText_outputUrl h'.key h'.passphrase ha', hmasked]

end

instance (m : Manifest) (d : Destination) (input : String) : Decidable (Unseen m d input) :=
  decidable_of_iff
    (d.streamKey ≠ "" ∧ d.srtPassphrase ≠ "" ∧
      (∀ s ∈ restOfArgs d (planStream m d input).args,
        occursIn d.streamKey s = false ∧ occursIn d.srtPassphrase s = false) ∧
      ∀ s ∈ ["<key>", "<passphrase>"],
        occursIn d.streamKey s = false ∧ occursIn d.srtPassphrase s = false)
    ⟨fun ⟨h1, h2, h3, h4⟩ => ⟨h1, h2, h3, h4⟩, fun h => ⟨h.key, h.passphrase, h.rest, h.placeholders⟩⟩

/-- A broadcast by SRT, with these secrets. -/
def calling (key passphrase : String) : Destination :=
  { url := "srt://h:9", streamKey := key, srtPassphrase := passphrase }

/-- Secrets that have nothing to do with each other, and a passphrase made of the key. -/
theorem redaction_blind_apart :
    redactArgs (planStream { audioTracks := [{}] } (calling "live/7Q" "correct horse") "pipe:0").args
        (calling "live/7Q" "correct horse") =
      redactArgs (planStream { audioTracks := [{}] } (calling "stage" "0123456789") "pipe:0").args
        (calling "stage" "0123456789") ∧
    redactArgs (planStream { audioTracks := [{}] } (calling "live" "live-9Zq4X") "pipe:0").args
        (calling "live" "live-9Zq4X") ≠
      redactArgs (planStream { audioTracks := [{}] } (calling "stage" "0123456789") "pipe:0").args
        (calling "stage" "0123456789") := by
  have h := @redaction_blind (calling "live/7Q" "correct horse") (calling "stage" "0123456789")
    { audioTracks := [{}] } "pipe:0" rfl (by decide +kernel) (by decide +kernel)
  have h' := @redaction_blind (calling "live" "live-9Zq4X") (calling "stage" "0123456789")
    { audioTracks := [{}] } "pipe:0" rfl (by decide +kernel) (by decide +kernel)
  refine ⟨h.1 (by decide +kernel) (by decide +kernel), fun heq => ?_⟩
  have hapart := (h'.2.1 (by decide +kernel) (by decide +kernel) (by decide +kernel)
    (by decide +kernel)).mp heq
  exact absurd hapart (by decide +kernel)

/-- A passphrase made of the key and something more: what more is logged. -/
theorem redaction_tells :
    ¬∀ (m : Manifest) (d d' : Destination) (input : String), SameButSecrets d d' →
      Unseen m d input → Unseen m d' input →
      redactArgs (planStream m d input).args d = redactArgs (planStream m d' input).args d' := by
  intro h
  have heq := h { audioTracks := [{}] } (calling "stage" "stage-9Zq4X") (calling "live" "0123456789")
    "pipe:0" rfl (by decide +kernel) (by decide +kernel)
  exact absurd heq (by decide +kernel)

end Multisite

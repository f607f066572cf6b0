import Mathlib.Data.List.DropRight
import Mathlib.Data.List.TakeWhile
import Multisite.Stream.Plan

/-!
What becomes of a destination as it was typed in: `normalize` (`destination.cpp`).

The address is trimmed, split at the question mark and at every ampersand, what has a field of its
own is lifted out of it, and the rest is put together again.  `substr` throws where the address is
nothing but its scheme and slashes; there is no result then.

* `lifted_eq`: what the parameters make of the fields, each by itself;
* `splitQuery_joinQueryParams`: the parameters that stay are read back as they are;
* `normalize_srt`, `normalize_rtmp`: what is stored;
* `settles_iff`: exactly when what is stored is stored again, and says what was typed.
-/

namespace Multisite

/-! ### Text -/

/-- `std::isspace`. -/
def isSpaceChar (c : Char) : Bool := c = ' ' || (9 ≤ c.toNat && c.toNat ≤ 13)

/-- `trim`, of the characters of a text. -/
def trimChars (s : List Char) : List Char := (s.dropWhile isSpaceChar).rdropWhile isSpaceChar

/-- `trim` (`text.h`). -/
def trimText (s : String) : String := String.ofList (trimChars s.toList)

/-- Slashes taken off the end. -/
def dropSlashes (s : List Char) : List Char := s.rdropWhile (· = '/')

/-- `lower`, of the characters of a text. -/
def lowerChars (s : List Char) : List Char := s.map Char.toLower

/-- `std::stoll`, and nothing where it throws. -/
def stoll (s : List Char) : Option ℤ :=
  let s := s.dropWhile isSpaceChar
  let neg := s.head? = some '-'
  let s := if s.head? = some '-' ∨ s.head? = some '+' then s.drop 1 else s
  let ds := s.takeWhile Char.isDigit
  let n : ℤ := Nat.ofDigitChars 10 ds 0
  let n := if neg then -n else n
  if ds = [] ∨ n < -2 ^ 63 ∨ 2 ^ 63 ≤ n then none else some n

/-! ### The query of an address -/

/-- `QueryParam`. -/
structure QueryParam where
  key : List Char
  value : List Char
  deriving DecidableEq, Repr

/-- A piece of a query. -/
def paramOf (one : List Char) : QueryParam :=
  if '=' ∈ one then ⟨one.takeWhile (· ≠ '='), (one.dropWhile (· ≠ '=')).drop 1⟩ else ⟨one, []⟩

/-- The pieces between the ampersands, where there is something. -/
def pieces (q : List Char) : List (List Char) := (q.splitOn '&').filter (· ≠ [])

/-- `split_query`. -/
def splitQuery (q : List Char) : List QueryParam := (pieces q).map paramOf

/-- A parameter as `join_query` writes it. -/
def QueryParam.text (p : QueryParam) : List Char := p.key ++ '=' :: p.value

/-- The loop of `join_query`. -/
def joinLoop (out : List Char) : List QueryParam → List Char
  | [] => out
  | p :: ps => joinLoop ((if out ≠ [] then out ++ ['&'] else out) ++ p.text) ps

/-- `join_query`. -/
def joinQueryParams (ps : List QueryParam) : List Char := joinLoop [] ps

/-- What stands before the question mark. -/
def addressBase (url : List Char) : List Char := url.takeWhile (· ≠ '?')

/-- What stands after it. -/
def addressQuery (url : List Char) : List Char := (url.dropWhile (· ≠ '?')).drop 1

/-! ### `normalize` -/

/-- A latency in the address, in milliseconds as an `int`. -/
def latencyMs (us : ℤ) : ℤ := (us.tdiv kUsPerMs).bmod (2 ^ 32)

/-- The parameters that have a field of their own, and the others. -/
inductive ParamKind where
  | streamid
  | passphrase
  | latency
  | mode
  | other
  deriving DecidableEq, Repr

/-- Which parameter it is, in any letter case. -/
def QueryParam.kind (p : QueryParam) : ParamKind :=
  let k := lowerChars p.key
  if k = "streamid".toList then .streamid
  else if k = "passphrase".toList then .passphrase
  else if k = "latency".toList then .latency
  else if k = "mode".toList then .mode
  else .other

/-- One parameter: into its own field, or onto the address. -/
def liftParam (s : Destination × List QueryParam) (p : QueryParam) :
    Destination × List QueryParam :=
  let (d, keep) := s
  match p.kind with
  | .streamid =>
      (if d.streamKey = "" then { d with streamKey := String.ofList p.value } else d, keep)
  | .passphrase =>
      (if d.srtPassphrase = "" then { d with srtPassphrase := String.ofList p.value } else d, keep)
  | .latency =>
      -- what is no number leaves it at 0, so that the default is used
      (if d.srtLatencyMs = 0 then
        { d with srtLatencyMs := ((stoll p.value).map latencyMs).getD 0 } else d, keep)
  | .mode =>
      (if lowerChars p.value = "listener".toList then { d with srtMode := .listener } else d, keep)
  | .other => (d, keep ++ [p])

/-- The fields trimmed. -/
def trimFields (d : Destination) : Destination :=
  { d with
    name := trimText d.name
    url := trimText d.url
    streamKey := trimText d.streamKey
    srtPassphrase := trimText d.srtPassphrase }

lemma streamKey_trimFields (d : Destination) : (trimFields d).streamKey = trimText d.streamKey := rfl

lemma srtPassphrase_trimFields (d : Destination) :
    (trimFields d).srtPassphrase = trimText d.srtPassphrase := rfl

/-- `normalize`; nothing where it throws. -/
def normalize (d : Destination) : Option Destination :=
  let d := trimFields d
  if protocolOf d ≠ .srt then
    some
      { d with
        url := String.ofList (dropSlashes d.url.toList)
        srtPassphrase := ""
        srtLatencyMs := 0
        srtMode := .caller }
  else
    let base := dropSlashes (addressBase d.url.toList)
    let (d, keep) := (splitQuery (addressQuery d.url.toList)).foldl liftParam (d, [])
    if base.length < kSrtScheme.length then none
    else
      let hostport := base.drop kSrtScheme.length
      -- an address with no host is how a listener is written
      let bare := hostport = [] ∨ hostport.head? = some ':'
      let d := if bare then { d with srtMode := .listener } else d
      let base := if bare then kSrtScheme.toList ++ ("0.0.0.0".toList ++ hostport) else base
      let d := if d.srtMode = .listener then { d with streamKey := "" } else d
      let rest := joinQueryParams keep
      some { d with url := String.ofList (if rest = [] then base else base ++ '?' :: rest) }

/-! ### What is lifted out -/

/-- The first value of a parameter that is not empty, if there is one. -/
def firstValue (kind : ParamKind) : List QueryParam → List Char
  | [] => []
  | p :: ps => if p.kind = kind ∧ p.value ≠ [] then p.value else firstValue kind ps

/-- What the parameters make of a latency. -/
def latencyFrom (ms : ℤ) : List QueryParam → ℤ
  | [] => ms
  | p :: ps =>
      latencyFrom (if p.kind = .latency ∧ ms = 0
        then ((stoll p.value).map latencyMs).getD 0 else ms) ps

/-- The address says to listen. -/
def saysListener (ps : List QueryParam) : Bool :=
  ps.any fun p => p.kind = .mode && lowerChars p.value = "listener".toList

/-- The fields after the parameters have been lifted out. -/
def lifted (d : Destination) (ps : List QueryParam) : Destination :=
  { d with
    streamKey := if d.streamKey = "" then String.ofList (firstValue .streamid ps) else d.streamKey
    srtPassphrase :=
      if d.srtPassphrase = "" then String.ofList (firstValue .passphrase ps) else d.srtPassphrase
    srtLatencyMs := latencyFrom d.srtLatencyMs ps
    srtMode := if saysListener ps then .listener else d.srtMode }

lemma ofList_eq_empty {l : List Char} : String.ofList l = "" ↔ l = [] := by
  rw [← String.toList_inj, String.toList_ofList]
  rfl

section Cons

variable (d : Destination) (p : QueryParam) (ps keep : List QueryParam) (ms : ℤ) {kind : ParamKind}

lemma firstValue_cons (h : p.kind = kind) :
    firstValue kind (p :: ps) = if p.value = [] then firstValue kind ps else p.value := by
  by_cases hv : p.value = []
  · rw [firstValue, if_neg fun hc => hc.2 hv, if_pos hv]
  · rw [firstValue, if_pos ⟨h, hv⟩, if_neg hv]

lemma firstValue_cons_of_ne (kind : ParamKind) (h : p.kind ≠ kind) :
    firstValue kind (p :: ps) = firstValue kind ps :=
  if_neg fun hc => h hc.1

lemma latencyFrom_cons_of_ne (h : p.kind ≠ .latency) :
    latencyFrom ms (p :: ps) = latencyFrom ms ps := by
  rw [latencyFrom, if_neg fun hc => h hc.1]

lemma saysListener_cons_of_ne (h : p.kind ≠ .mode) : saysListener (p :: ps) = saysListener ps := by
  rw [saysListener, List.any_cons, decide_eq_false h, Bool.false_and, Bool.false_or]
  rfl

/-- One parameter and then the others. -/
lemma lifted_cons : lifted (liftParam (d, keep) p).1 ps = lifted d (p :: ps) := by
  cases hk : p.kind with
  | streamid =>
      have hpass := firstValue_cons_of_ne p ps .passphrase (by rw [hk]; decide)
      have hlat := latencyFrom_cons_of_ne p ps d.srtLatencyMs (by rw [hk]; decide)
      have hmode := saysListener_cons_of_ne p ps (by rw [hk]; decide)
      simp only [liftParam, hk, lifted, hpass, hlat, hmode, firstValue_cons p ps hk]
      by_cases hd : d.streamKey = ""
      · by_cases hv : p.value = []
        · simp only [if_pos hd, if_pos hv, if_pos (Iff.mpr ofList_eq_empty hv)]
        · simp only [if_pos hd, if_neg hv, if_neg (mt (Iff.mp ofList_eq_empty) hv)]
      · simp only [if_neg hd]
  | passphrase =>
      have hkey := firstValue_cons_of_ne p ps .streamid (by rw [hk]; decide)
      have hlat := latencyFrom_cons_of_ne p ps d.srtLatencyMs (by rw [hk]; decide)
      have hmode := saysListener_cons_of_ne p ps (by rw [hk]; decide)
      simp only [liftParam, hk, lifted, hkey, hlat, hmode, firstValue_cons p ps hk]
      by_cases hd : d.srtPassphrase = ""
      · by_cases hv : p.value = []
        · simp only [if_pos hd, if_pos hv, if_pos (Iff.mpr ofList_eq_empty hv)]
        · simp only [if_pos hd, if_neg hv, if_neg (mt (Iff.mp ofList_eq_empty) hv)]
      · simp only [if_neg hd]
  | latency =>
      have hkey := firstValue_cons_of_ne p ps .streamid (by rw [hk]; decide)
      have hpass := firstValue_cons_of_ne p ps .passphrase (by rw [hk]; decide)
      have hmode := saysListener_cons_of_ne p ps (by rw [hk]; decide)
      simp only [liftParam, hk, lifted, hkey, hpass, hmode, latencyFrom, true_and]
      by_cases hd : d.srtLatencyMs = 0
      · simp only [if_pos hd]
      · simp only [if_neg hd]
  | mode =>
      have hkey := firstValue_cons_of_ne p ps .streamid (by rw [hk]; decide)
      have hpass := firstValue_cons_of_ne p ps .passphrase (by rw [hk]; decide)
      have hlat := latencyFrom_cons_of_ne p ps d.srtLatencyMs (by rw [hk]; decide)
      have hmode : saysListener (p :: ps) =
          (decide (lowerChars p.value = "listener".toList) || saysListener ps) := by
        rw [saysListener, List.any_cons, hk, decide_eq_true rfl, Bool.true_and]
        rfl
      simp only [liftParam, hk, lifted, hkey, hpass, hlat, hmode]
      by_cases hv : lowerChars p.value = "listener".toList
      · simp only [if_pos hv, decide_eq_true hv, Bool.true_or, if_true, ite_self]
      · simp only [if_neg hv, decide_eq_false hv, Bool.false_or]
  | other =>
      have hkey := firstValue_cons_of_ne p ps .streamid (by rw [hk]; decide)
      have hpass := firstValue_cons_of_ne p ps .passphrase (by rw [hk]; decide)
      have hlat := latencyFrom_cons_of_ne p ps d.srtLatencyMs (by rw [hk]; decide)
      have hmode := saysListener_cons_of_ne p ps (by rw [hk]; decide)
      simp only [liftParam, hk, lifted, hkey, hpass, hlat, hmode]

end Cons

/-- What stays on the address. -/
lemma liftParam_keep (d : Destination) (p : QueryParam) (keep : List QueryParam) :
    (liftParam (d, keep) p).2 = keep ++ [p].filter fun p => p.kind = .other := by
  rw [List.filter_singleton]
  cases hk : p.kind with
  | other => rw [decide_eq_true rfl, cond_true, liftParam, hk]
  | _ => rw [decide_eq_false (by decide), cond_false, List.append_nil, liftParam, hk]

lemma lifted_nil (d : Destination) : lifted d [] = d := by
  have hkey : (if d.streamKey = "" then String.ofList [] else d.streamKey) = d.streamKey := by
    split <;> simp_all
  have hpass : (if d.srtPassphrase = "" then String.ofList [] else d.srtPassphrase)
      = d.srtPassphrase := by
    split <;> simp_all
  simp [lifted, firstValue, latencyFrom, saysListener, hkey, hpass]

/-- What the parameters make of the fields, each by itself. -/
lemma lifted_eq (ps : List QueryParam) (d : Destination) (keep : List QueryParam) :
    ps.foldl liftParam (d, keep) = (lifted d ps, keep ++ ps.filter fun p => p.kind = .other) := by
  induction ps generalizing d keep with
  | nil => rw [List.foldl_nil, lifted_nil, List.filter_nil, List.append_nil]
  | cons p ps ih =>
      rw [List.foldl_cons, ← Prod.mk.eta (p := liftParam (d, keep) p), ih, lifted_cons,
        liftParam_keep, List.append_assoc, ← List.filter_append, List.singleton_append]

/-! ### Text, trimmed -/

section Trim

variable {p : Char → Bool} {a b s : List Char} {c : Char}

/-- Past an end that stays, only what is after it is taken off. -/
lemma rdropWhile_append (ha : a.rdropWhile p = a) (b : List Char) :
    (a ++ b).rdropWhile p = a ++ b.rdropWhile p := by
  induction b using List.reverseRecOn with
  | nil => simpa using ha
  | append_singleton b c ih =>
      rw [← List.append_assoc]
      by_cases hc : p c = true
      · rw [List.rdropWhile_concat_pos _ _ _ hc, ih, List.rdropWhile_concat_pos _ _ _ hc]
      · rw [List.rdropWhile_concat_neg _ _ _ hc, List.rdropWhile_concat_neg _ _ _ hc,
          List.append_assoc]

/-- What goes to its last character goes on into what stands before it. -/
lemma rdropWhile_append_of_nil (hb : b.rdropWhile p = []) :
    (a ++ b).rdropWhile p = a.rdropWhile p := by
  have hrev : b.reverse.dropWhile p = [] := by simpa [List.rdropWhile] using hb
  rw [List.rdropWhile, List.reverse_append, List.dropWhile_append, hrev, List.isEmpty_nil,
    if_pos rfl, List.rdropWhile]

/-- What does not keeps what stands before it. -/
lemma rdropWhile_append_of_ne (hb : b.rdropWhile p ≠ []) :
    (a ++ b).rdropWhile p = a ++ b.rdropWhile p := by
  have hrev : b.reverse.dropWhile p ≠ [] := by simpa [List.rdropWhile] using hb
  rw [List.rdropWhile, List.reverse_append, List.dropWhile_append,
    if_neg (by rwa [List.isEmpty_iff]), List.reverse_append, List.reverse_reverse, List.rdropWhile]

/-- An end that stays. -/
lemma rdropWhile_concat_self (hc : p c = false) : (a ++ [c]).rdropWhile p = a ++ [c] :=
  List.rdropWhile_concat_neg _ _ _ (by simp [hc])

/-- What does not begin with a blank is trimmed at its end. -/
lemma trimChars_cons (hc : isSpaceChar c = false) (s : List Char) :
    trimChars (c :: s) = (c :: s).rdropWhile isSpaceChar := by
  rw [trimChars, List.dropWhile_cons_of_neg (by simp [hc])]

lemma dropWhile_trimChars (s : List Char) :
    (trimChars s).dropWhile isSpaceChar = trimChars s := by
  rw [trimChars]
  cases hs : s.dropWhile isSpaceChar with
  | nil => rfl
  | cons c l =>
      have hc : isSpaceChar c = false := by
        have := List.head_dropWhile_not isSpaceChar (l := s) (by rw [hs]; simp)
        simpa [hs] using this
      -- what is left begins with what it began with, if there is anything
      have hcons := rdropWhile_append (p := isSpaceChar) (a := [c]) (by simp [hc]) l
      rw [List.singleton_append] at hcons
      rw [hcons, List.singleton_append, List.dropWhile_cons_of_neg (by simp [hc])]

/-- Trimming a second time does nothing. -/
lemma trimChars_idem (s : List Char) : trimChars (trimChars s) = trimChars s := by
  rw [trimChars, dropWhile_trimChars, trimChars, List.rdropWhile_idempotent]

lemma trimText_idem (s : String) : trimText (trimText s) = trimText s := by
  rw [trimText, trimText, String.toList_ofList, trimChars_idem]

end Trim

/-! ### The query, split and put together -/

/-- A parameter that a query can hold. -/
structure QueryParam.Clean (p : QueryParam) : Prop where
  key_eq : '=' ∉ p.key
  key_amp : '&' ∉ p.key
  value_amp : '&' ∉ p.value

lemma QueryParam.Clean.text {p : QueryParam} (hp : p.Clean) : '&' ∉ p.text := by
  simp [QueryParam.text, hp.key_amp, hp.value_amp]

/-- Splitting leaves no separator. -/
lemma not_mem_of_mem_splitOn {α : Type} [DecidableEq α] {x : α} :
    ∀ (l : List α), ∀ s ∈ l.splitOn x, x ∉ s := by
  intro l
  induction l with
  | nil => simp
  | cons y l ih =>
      rw [List.splitOn_cons_eq_if_modifyHead]
      by_cases hy : y = x
      · simpa [hy] using ih
      · rw [if_neg (by simpa using hy)]
        cases hs : l.splitOn x with
        | nil => simp
        | cons t ts =>
            rw [hs] at ih
            simp only [List.modifyHead_cons, List.forall_mem_cons] at ih ⊢
            exact ⟨by simpa [Ne.symm hy] using ih.1, ih.2⟩

lemma paramOf_clean {one : List Char} (h : '&' ∉ one) : (paramOf one).Clean := by
  rw [paramOf]
  split
  next =>
      refine ⟨fun hc => ?_, fun hc => h ((List.takeWhile_prefix _).subset hc),
        fun hc => h ((List.dropWhile_suffix _).subset (List.mem_of_mem_drop hc))⟩
      simpa using List.mem_takeWhile_imp hc
  next hno => exact ⟨hno, h, List.not_mem_nil⟩

lemma splitQuery_clean (q : List Char) : ∀ p ∈ splitQuery q, p.Clean := by
  intro p hp
  obtain ⟨one, hone, rfl⟩ := List.mem_map.mp hp
  exact paramOf_clean (not_mem_of_mem_splitOn q one (List.mem_of_mem_filter hone))

/-- A parameter is read back as it was written. -/
lemma paramOf_text {p : QueryParam} (hp : p.Clean) : paramOf p.text = p := by
  have hkey : ∀ c ∈ p.key, c ≠ '=' := fun c hc => ne_of_mem_of_not_mem hc hp.key_eq
  have htake : p.text.takeWhile (· ≠ '=') = p.key := by
    rw [QueryParam.text, List.takeWhile_append_of_pos fun c hc => by simpa using hkey c hc]
    simp
  have hdrop : p.text.dropWhile (· ≠ '=') = '=' :: p.value := by
    rw [QueryParam.text, List.dropWhile_append_of_pos fun c hc => by simpa using hkey c hc]
    simp
  rw [paramOf, if_pos (by simp [QueryParam.text]), htake, hdrop, List.drop_one, List.tail_cons]

/-- Which pieces are written as they were. -/
lemma text_paramOf {one : List Char} : (paramOf one).text = one ↔ '=' ∈ one := by
  constructor
  · intro h
    rw [← h, QueryParam.text]
    simp
  · intro h
    have hne : one.dropWhile (· ≠ '=') ≠ [] := by
      rw [Ne, List.dropWhile_eq_nil_iff]
      exact fun hall => by simpa using hall '=' h
    have hhead : (one.dropWhile (· ≠ '=')).head hne = '=' := by
      simpa using List.head_dropWhile_not (fun c => decide (c ≠ '=')) hne
    have hcons := List.cons_head_tail hne
    rw [hhead] at hcons
    rw [paramOf, if_pos h, QueryParam.text, List.drop_one, hcons, List.takeWhile_append_dropWhile]

lemma joinLoop_eq {out : List Char} (hout : out ≠ []) (ps : List QueryParam) :
    joinLoop out ps = ['&'].intercalate (out :: ps.map QueryParam.text) := by
  induction ps generalizing out with
  | nil => simp [joinLoop]
  | cons p ps ih =>
      rw [joinLoop, if_pos hout, ih (by simp [hout]), List.map_cons]
      cases ps with
      | nil => simp
      | cons q ps => simp

/-- `join_query` puts an ampersand between the parameters. -/
lemma joinQueryParams_eq (ps : List QueryParam) :
    joinQueryParams ps = ['&'].intercalate (ps.map QueryParam.text) := by
  cases ps with
  | nil => rfl
  | cons p ps =>
      have hp : p.text ≠ [] := by simp [QueryParam.text]
      rw [joinQueryParams, joinLoop, if_neg (not_not_intro rfl), List.nil_append, joinLoop_eq hp,
        List.map_cons]

/-- The last parameter stands at the end. -/
lemma joinLoop_concat (out : List Char) (ps : List QueryParam) (p : QueryParam) :
    joinLoop out (ps ++ [p]) =
      (if joinLoop out ps ≠ [] then joinLoop out ps ++ ['&'] else joinLoop out ps) ++ p.text := by
  induction ps generalizing out with
  | nil => rfl
  | cons q ps ih => exact ih _

/-- The pieces of what was put together. -/
lemma pieces_joinQueryParams {ps : List QueryParam} (hps : ∀ p ∈ ps, p.Clean) :
    pieces (joinQueryParams ps) = ps.map QueryParam.text := by
  rw [pieces, joinQueryParams_eq]
  cases ps with
  | nil => rfl
  | cons p ps =>
      have hamp : ∀ l ∈ (p :: ps).map QueryParam.text, '&' ∉ l := by
        rintro l hl
        obtain ⟨q, hq, rfl⟩ := List.mem_map.mp hl
        exact (hps q hq).text
      rw [List.splitOn_intercalate _ hamp (by simp), List.filter_eq_self]
      intro l hl
      obtain ⟨q, -, rfl⟩ := List.mem_map.mp hl
      simp [QueryParam.text]

/-- The parameters that stay are read back as they are. -/
lemma splitQuery_joinQueryParams {ps : List QueryParam} (hps : ∀ p ∈ ps, p.Clean) :
    splitQuery (joinQueryParams ps) = ps := by
  rw [splitQuery, pieces_joinQueryParams hps, List.map_map]
  conv_rhs => rw [← List.map_id ps]
  exact List.map_congr_left fun p hp => paramOf_text (hps p hp)

/-! ### An address over SRT -/

lemma toLower_cases (c : Char) :
    (65 ≤ c.toNat ∧ c.toNat ≤ 90 ∧ c.toLower.toNat = c.toNat + 32) ∨ c.toLower = c := by
  unfold Char.toLower
  split
  next hc =>
      have h1 : 65 ≤ c.toNat := UInt32.le_iff_toNat_le.mp hc.1
      have h2 : c.toNat ≤ 90 := UInt32.le_iff_toNat_le.mp hc.2
      refine .inl ⟨h1, h2, ?_⟩
      show (c.val + ('a'.val - 'A'.val)).toNat = c.toNat + 32
      rw [UInt32.toNat_add]
      exact Nat.mod_eq_of_lt (show c.toNat + 32 < 2 ^ 32 by omega)
  next => exact .inr rfl

/-- What is no letter has one case. -/
lemma eq_of_toLower {c e : Char} (he : e.toNat < 97) (h : c.toLower = e) : c = e := by
  obtain ⟨h1, -, h2⟩ | heq := toLower_cases c
  · rw [h] at h2
    omega
  · rw [← heq, h]

/-- A way of writing the scheme. -/
def IsScheme (sch : List Char) : Prop := lowerChars sch = kSrtScheme.toList

section Scheme

variable {sch r : List Char}

lemma IsScheme.eq (h : IsScheme sch) :
    ∃ x y z, sch = [x, y, z, ':', '/', '/'] ∧ isSpaceChar x = false ∧ y ≠ '?' ∧ x ≠ '?' ∧
      z ≠ '?' := by
  have hlen : sch.length = 6 := by
    have := congrArg List.length h
    rwa [lowerChars, List.length_map] at this
  obtain ⟨x, y, z, u, v, w, rfl⟩ : ∃ x y z u v w, sch = [x, y, z, u, v, w] := by
    rcases sch with _ | ⟨x, _ | ⟨y, _ | ⟨z, _ | ⟨u, _ | ⟨v, _ | ⟨w, _ | ⟨t, l⟩⟩⟩⟩⟩⟩⟩ <;>
      simp at hlen
    exact ⟨x, y, z, u, v, w, rfl⟩
  have hlow : [x, y, z, u, v, w].map Char.toLower = ['s', 'r', 't', ':', '/', '/'] := h
  simp only [List.map_cons, List.map_nil, List.cons.injEq, and_true] at hlow
  obtain ⟨hx, hy, hz, hu, hv, hw⟩ := hlow
  have hu' : u = ':' := eq_of_toLower (by decide) hu
  have hv' : v = '/' := eq_of_toLower (by decide) hv
  have hw' : w = '/' := eq_of_toLower (by decide) hw
  have hmark : ∀ c e : Char, c.toLower = e → e ≠ '?' → c ≠ '?' := by
    rintro c e rfl he rfl
    exact he rfl
  have hspace : isSpaceChar x = false := by
    obtain ⟨h1, -, -⟩ | heq := toLower_cases x
    · have hne : x ≠ ' ' := by
        rintro rfl
        exact absurd h1 (by decide)
      have hhigh : ¬x.toNat ≤ 13 := by omega
      simp [isSpaceChar, hne, hhigh]
    · rw [← heq, hx]
      decide
  exact ⟨x, y, z, by rw [hu', hv', hw'], hspace, hmark y _ hy (by decide),
    hmark x _ hx (by decide), hmark z _ hz (by decide)⟩

lemma IsScheme.length_eq (h : IsScheme sch) : sch.length = 6 := by
  obtain ⟨x, y, z, rfl, -⟩ := h.eq
  rfl

lemma isScheme_kSrtScheme : IsScheme kSrtScheme.toList := by
  rw [IsScheme]
  decide

/-- Which addresses are over SRT. -/
lemma protocolOf_eq_srt {d : Destination} :
    protocolOf d = .srt ↔ ∃ sch r, d.url.toList = sch ++ r ∧ IsScheme sch := by
  have hmap : (lower d.url).toList = d.url.toList.map Char.toLower := by
    rw [lower, String.toList_map]
  rw [protocolOf, textStartsWith, hmap]
  constructor
  · intro h
    have hpre : kSrtScheme.toList <+: d.url.toList.map Char.toLower := by
      by_contra hc
      rw [if_neg (by rwa [List.isPrefixOf_iff_prefix])] at h
      exact absurd h (by decide)
    obtain ⟨t, ht⟩ := hpre
    obtain ⟨sch, r, hurl, hsch, -⟩ := List.map_eq_append_iff.mp ht.symm
    exact ⟨sch, r, hurl, hsch⟩
  · rintro ⟨sch, r, hurl, hsch⟩
    have hpre : kSrtScheme.toList <+: d.url.toList.map Char.toLower :=
      ⟨lowerChars r, by rw [hurl, List.map_append, ← hsch, lowerChars, lowerChars]⟩
    rw [if_pos (by rwa [List.isPrefixOf_iff_prefix])]

/-- The scheme keeps its end. -/
lemma IsScheme.rdropWhile (h : IsScheme sch) (s : List Char) :
    (sch ++ s).rdropWhile isSpaceChar = sch ++ s.rdropWhile isSpaceChar := by
  obtain ⟨x, y, z, rfl, -⟩ := h.eq
  exact rdropWhile_append (rdropWhile_concat_self (a := [x, y, z, ':', '/']) (by decide)) s

lemma IsScheme.trim (h : IsScheme sch) (s : List Char) :
    trimChars (sch ++ s) = sch ++ s.rdropWhile isSpaceChar := by
  rw [← h.rdropWhile]
  obtain ⟨x, y, z, rfl, hx, -⟩ := h.eq
  exact trimChars_cons hx _

lemma IsScheme.base_append (h : IsScheme sch) (s : List Char) :
    addressBase (sch ++ s) = sch ++ addressBase s := by
  obtain ⟨x, y, z, rfl, -, hy, hx, hz⟩ := h.eq
  simp [addressBase, hx, hy, hz]

lemma IsScheme.query_append (h : IsScheme sch) (s : List Char) :
    addressQuery (sch ++ s) = addressQuery s := by
  obtain ⟨x, y, z, rfl, -, hy, hx, hz⟩ := h.eq
  simp [addressQuery, hx, hy, hz]

/-- The host and the port of what follows the scheme. -/
def hostOf (r : List Char) : List Char := dropSlashes (addressBase r)

/-- Where there is no host, the slashes of the scheme go too. -/
lemma IsScheme.slashes_length (h : IsScheme sch) (hr : hostOf r = []) :
    (dropSlashes (addressBase (sch ++ r))).length < 6 := by
  rw [h.base_append, dropSlashes, rdropWhile_append_of_nil hr]
  obtain ⟨x, y, z, rfl, -⟩ := h.eq
  have hcolon : [x, y, z, ':', '/', '/'].rdropWhile (· = '/') = [x, y, z, ':'] := by
    rw [show [x, y, z, ':', '/', '/'] = ([x, y, z] ++ [':']) ++ ['/', '/'] from rfl,
      rdropWhile_append_of_nil (by decide), rdropWhile_concat_self (by decide)]
    rfl
  rw [hcolon]
  exact (by decide : 4 < 6)

/-- Where there is one, they stay. -/
lemma IsScheme.slashes (h : IsScheme sch) (hr : hostOf r ≠ []) :
    dropSlashes (addressBase (sch ++ r)) = sch ++ hostOf r := by
  rw [h.base_append, dropSlashes, rdropWhile_append_of_ne hr, hostOf, dropSlashes]

end Scheme

/-- The address that is written for a host and a port. -/
def baseText (sch host : List Char) : List Char :=
  if host.head? = some ':' then kSrtScheme.toList ++ ("0.0.0.0".toList ++ host) else sch ++ host

/-- An address with what stays on it. -/
def addressText (base : List Char) (keep : List QueryParam) : List Char :=
  if joinQueryParams keep = [] then base else base ++ '?' :: joinQueryParams keep

/-- The parameters that stay on an address. -/
def keptParams (ps : List QueryParam) : List QueryParam := ps.filter fun p => p.kind = .other

/-- Who calls whom, after an address has been read. -/
def modeOf (d : Destination) (host : List Char) (ps : List QueryParam) : SrtMode :=
  if host.head? = some ':' then .listener else if saysListener ps then .listener else d.srtMode

/-- The destination that is stored. -/
def stored (d : Destination) (sch host : List Char) (ps : List QueryParam) : Destination :=
  { d with
    streamKey := if modeOf d host ps = .listener then "" else (lifted d ps).streamKey
    srtPassphrase := (lifted d ps).srtPassphrase
    srtLatencyMs := (lifted d ps).srtLatencyMs
    srtMode := modeOf d host ps
    url := String.ofList (addressText (baseText sch host) (keptParams ps)) }

/-- What is stored of an address over SRT, and that nothing is where it names no host. -/
lemma normalize_srt {d : Destination} {sch r : List Char} (hd : (trimText d.url).toList = sch ++ r)
    (hs : IsScheme sch) :
    normalize d = if hostOf r = [] then none
      else some (stored (trimFields d) sch (hostOf r) (splitQuery (addressQuery r))) := by
  have hproto : protocolOf (trimFields d) = .srt := protocolOf_eq_srt.mpr ⟨sch, r, hd, hs⟩
  have hurl : (trimFields d).url.toList = sch ++ r := hd
  rw [normalize, if_neg (not_not_intro hproto)]
  have hlen : kSrtScheme.length = 6 := by decide
  simp only [hurl, hs.query_append, lifted_eq, hlen]
  by_cases hr : hostOf r = []
  · rw [if_pos (hs.slashes_length hr), if_pos hr]
  · have hlong : ¬(sch ++ hostOf r).length < 6 := by
      rw [List.length_append, hs.length_eq]
      omega
    have hdrop : (sch ++ hostOf r).drop 6 = hostOf r := by
      rw [← hs.length_eq, List.drop_left]
    simp only [hs.slashes hr, if_neg hlong, hdrop, hr, false_or, List.nil_append, ↓reduceIte]
    by_cases hbare : (hostOf r).head? = some ':'
    · simp only [hbare, ↓reduceIte, stored, modeOf, baseText, addressText, keptParams, lifted]
    · simp only [hbare, ↓reduceIte, stored, modeOf, baseText, addressText, keptParams, lifted]
      by_cases hm : (if saysListener (splitQuery (addressQuery r)) then SrtMode.listener
          else (trimFields d).srtMode) = .listener
      · simp only [hm, ↓reduceIte]
      · simp only [hm, ↓reduceIte]

/-! ### What is stored, normalised again -/

/-- The text does not end in a blank. -/
def EndsWell (s : List Char) : Prop := s.rdropWhile isSpaceChar = s

/-- A host, perhaps with a port. -/
structure IsHost (host : List Char) : Prop where
  ne_nil : host ≠ []
  mark : '?' ∉ host
  slash : dropSlashes host = host

lemma isHost_hostOf {r : List Char} (hr : hostOf r ≠ []) : IsHost (hostOf r) where
  ne_nil := hr
  mark hc := by
    have hmem : '?' ∈ addressBase r := (List.rdropWhile_prefix _ (addressBase r)).subset hc
    simpa using List.mem_takeWhile_imp hmem
  slash := List.rdropWhile_idempotent ..

section Again

variable {d : Destination} {sch host : List Char} {keep : List QueryParam}

/-- What stands before the question mark of an address. -/
lemma addressBase_addressText {base : List Char} (h : '?' ∉ base) (keep : List QueryParam) :
    addressBase (addressText base keep) = base := by
  rw [addressText]
  split
  next => exact List.takeWhile_eq_self_iff.mpr fun c hc => by simpa using ne_of_mem_of_not_mem hc h
  next =>
    rw [addressBase, List.takeWhile_append_of_pos fun c hc => by
      simpa using ne_of_mem_of_not_mem hc h]
    simp

/-- What stands after it. -/
lemma addressQuery_addressText {base : List Char} (h : '?' ∉ base) (keep : List QueryParam) :
    addressQuery (addressText base keep) = joinQueryParams keep := by
  rw [addressText]
  split
  next hnil =>
    rw [addressQuery, hnil, List.dropWhile_eq_nil_iff.mpr fun c hc => by
      simpa using ne_of_mem_of_not_mem hc h, List.drop_nil]
  next =>
    rw [addressQuery, List.dropWhile_append_of_pos fun c hc => by
      simpa using ne_of_mem_of_not_mem hc h]
    simp

/-- The host that is read back. -/
lemma IsHost.hostOf_address (h : IsHost host) (keep : List QueryParam) :
    hostOf (addressText host keep) = host := by
  rw [hostOf, addressBase_addressText h.mark, h.slash]

lemma addressText_append (a b : List Char) (keep : List QueryParam) :
    addressText (a ++ b) keep = a ++ addressText b keep := by
  rw [addressText, addressText]
  split
  next => rfl
  next => rw [List.append_assoc]

/-- Nothing is lifted out of what stays. -/
lemma lifted_of_kept (hkeep : ∀ p ∈ keep, p.kind = .other) (d : Destination) :
    lifted d keep = d := by
  induction keep with
  | nil => exact lifted_nil d
  | cons p keep ih =>
      have hp : (liftParam (d, []) p).1 = d := by rw [liftParam, hkeep p List.mem_cons_self]
      rw [← lifted_cons d p keep [], hp, ih fun q hq => hkeep q (List.mem_cons_of_mem p hq)]

lemma saysListener_of_kept (hkeep : ∀ p ∈ keep, p.kind = .other) : saysListener keep = false := by
  rw [saysListener, List.any_eq_false]
  intro p hp
  simp [hkeep p hp]

/-- What is stored is read as it is, but for its ends. -/
lemma normalize_again (hd : (trimText d.url).toList = addressText (sch ++ host) keep)
    (hs : IsScheme sch) (hhost : IsHost host) (hbare : host.head? ≠ some ':')
    (hclean : ∀ p ∈ keep, p.Clean) (hkeep : ∀ p ∈ keep, p.kind = .other) :
    normalize d = some { trimFields d with
      streamKey := if d.srtMode = .listener then "" else (trimFields d).streamKey } := by
  rw [addressText_append] at hd
  have hlift := lifted_of_kept hkeep (trimFields d)
  have hkept : keptParams keep = keep :=
    List.filter_eq_self.mpr fun p hp => by simpa using hkeep p hp
  have hmode : modeOf (trimFields d) host keep = d.srtMode := by
    rw [modeOf, if_neg hbare, saysListener_of_kept hkeep]
    rfl
  rw [normalize_srt hd hs, hhost.hostOf_address, if_neg hhost.ne_nil,
    addressQuery_addressText hhost.mark, splitQuery_joinQueryParams hclean, stored, hlift, hkept,
    hmode, baseText, if_neg hbare, addressText_append, ← hd, String.ofList_toList]
  rfl

end Again

/-! ### The end of an address -/

/-- A parameter with the blanks at its end taken off. -/
def QueryParam.stripped (p : QueryParam) : QueryParam :=
  ⟨p.key, p.value.rdropWhile isSpaceChar⟩

/-- The last thing on an address. -/
def lastText (host : List Char) (keep : List QueryParam) : List Char :=
  (keep.getLast?.map QueryParam.value).getD host

section End

variable {sch host base : List Char} {keep : List QueryParam} {p : QueryParam}

lemma QueryParam.Clean.stripped (h : p.Clean) : p.stripped.Clean where
  key_eq := h.key_eq
  key_amp := h.key_amp
  value_amp hc := h.value_amp ((List.rdropWhile_prefix _ _).subset hc)

/-- An address ends with the value of its last parameter. -/
lemma addressText_concat (base : List Char) (keep : List QueryParam) (key : List Char) :
    ∃ a, ∀ value, addressText base (keep ++ [⟨key, value⟩]) = a ++ ['='] ++ value := by
  let out := if joinQueryParams keep ≠ [] then joinQueryParams keep ++ ['&']
    else joinQueryParams keep
  refine ⟨base ++ '?' :: (out ++ key), fun value => ?_⟩
  have hjoin : joinQueryParams (keep ++ [⟨key, value⟩]) = out ++ (key ++ '=' :: value) :=
    joinLoop_concat [] keep ⟨key, value⟩
  rw [addressText, hjoin, if_neg (by simp)]
  simp

/-- The blanks at the end of an address are those of its last parameter. -/
lemma rdropWhile_address_concat :
    (addressText base (keep ++ [p])).rdropWhile isSpaceChar
      = addressText base (keep ++ [p.stripped]) := by
  obtain ⟨a, ha⟩ := addressText_concat base keep p.key
  rw [show p = ⟨p.key, p.value⟩ from rfl, ha, QueryParam.stripped, ha]
  exact rdropWhile_append (rdropWhile_concat_self (by decide)) p.value

/-- Which addresses do not end in a blank. -/
lemma endsWell_address : EndsWell (addressText base keep) ↔ EndsWell (lastText base keep) := by
  induction keep using List.reverseRecOn with
  | nil => rfl
  | append_singleton keep p _ =>
      obtain ⟨a, ha⟩ := addressText_concat base keep p.key
      have hlast : lastText base (keep ++ [p]) = p.value := by simp [lastText]
      rw [EndsWell, rdropWhile_address_concat, hlast, QueryParam.stripped, ha,
        show p = ⟨p.key, p.value⟩ from rfl, ha, EndsWell, List.append_cancel_left_eq]

/-- What is written for a host is a host again, and no bare port. -/
lemma exists_baseText (hs : IsScheme sch) (h : IsHost host) :
    ∃ sch' host', baseText sch host = sch' ++ host' ∧ IsScheme sch' ∧ IsHost host' ∧
      host'.head? ≠ some ':' ∧ (EndsWell host' ↔ EndsWell host) := by
  rw [baseText]
  split
  next hport =>
      have hslash : dropSlashes host ≠ [] := by rw [h.slash]; exact h.ne_nil
      refine ⟨_, _, rfl, isScheme_kSrtScheme, ⟨by simp, ?_, ?_⟩, by simp, ?_⟩
      · rw [List.mem_append, not_or]
        exact ⟨by decide, h.mark⟩
      · rw [dropSlashes, rdropWhile_append_of_ne hslash]
        exact congrArg _ h.slash
      · rw [EndsWell, rdropWhile_append (by decide), EndsWell, List.append_cancel_left_eq]
  next hport => exact ⟨sch, host, rfl, hs, h, hport, Iff.rfl⟩

end End

/-! ### The second time -/

section Second

variable {d : Destination} {sch host : List Char} {keep : List QueryParam}

lemma trimFields_eq_self (hname : trimText d.name = d.name) (hurl : trimText d.url = d.url)
    (hkey : trimText d.streamKey = d.streamKey)
    (hpass : trimText d.srtPassphrase = d.srtPassphrase) : trimFields d = d := by
  rw [trimFields, hname, hurl, hkey, hpass]

/-- Read from an address with blanks at its end, another address is stored. -/
lemma endsWell_of_again (hurl : d.url.toList = addressText (sch ++ host) keep) (hs : IsScheme sch)
    (hhost : IsHost host) (hbare : host.head? ≠ some ':') (hclean : ∀ p ∈ keep, p.Clean)
    (hkeep : ∀ p ∈ keep, p.kind = .other) (h : normalize d = some d) :
    EndsWell (addressText host keep) := by
  have htrim : (trimText d.url).toList = sch ++ (addressText host keep).rdropWhile isSpaceChar := by
    rw [trimText, String.toList_ofList, hurl, addressText_append, hs.trim]
  obtain rfl | ⟨keep, p, rfl⟩ := keep.eq_nil_or_concat'
  · -- without parameters it is the host that loses its end
    let cut := host.rdropWhile isSpaceChar
    have hread : (trimText d.url).toList = sch ++ cut := htrim
    have hcut : cut <+: host := List.rdropWhile_prefix _ _
    have hback : hostOf cut <+: cut :=
      (List.rdropWhile_prefix _ _).trans (List.takeWhile_prefix _)
    by_cases hnil : hostOf cut = []
    · rw [normalize_srt hread hs, if_pos hnil] at h
      exact absurd h (by simp)
    · have hquery : addressQuery cut = [] := by
        rw [addressQuery, List.dropWhile_eq_nil_iff.mpr fun c hc => by
          simpa using ne_of_mem_of_not_mem (hcut.subset hc) hhost.mark, List.drop_nil]
      have hhead : (hostOf cut).head? = host.head? := by
        obtain ⟨t, ht⟩ := hback.trans hcut
        rw [← ht, List.head?_append_of_ne_nil _ hnil]
      rw [normalize_srt hread hs, if_neg hnil, Option.some_inj] at h
      have hsame := congrArg (fun d => d.url.toList) h
      simp only [stored, String.toList_ofList, hquery, hurl, baseText, hhead, hbare,
        ↓reduceIte] at hsame
      have hhost' : hostOf cut = host := List.append_cancel_left hsame
      rw [hhost'] at hback
      exact hcut.eq_of_length_le hback.length_le
  · have hread : (trimText d.url).toList = addressText (sch ++ host) (keep ++ [p.stripped]) := by
      rw [htrim, rdropWhile_address_concat, addressText_append]
    have hclean' : ∀ q ∈ keep ++ [p.stripped], q.Clean := by
      intro q hq
      rcases List.mem_append.mp hq with hq | hq
      · exact hclean q (List.mem_append_left _ hq)
      · rw [List.mem_singleton.mp hq]
        exact (hclean p (by simp)).stripped
    have hkeep' : ∀ q ∈ keep ++ [p.stripped], q.kind = .other := by
      intro q hq
      rcases List.mem_append.mp hq with hq | hq
      · exact hkeep q (List.mem_append_left _ hq)
      · rw [List.mem_singleton.mp hq]
        exact hkeep p (by simp)
    rw [normalize_again hread hs hhost hbare hclean' hkeep', Option.some_inj] at h
    have hsame : trimText d.url = d.url := congrArg Destination.url h
    rw [hsame, hurl, addressText_append] at htrim
    exact (List.append_cancel_left htrim).symm

/-- When what is stored is stored again. -/
lemma normalize_eq_self_iff (hurl : d.url.toList = addressText (sch ++ host) keep)
    (hs : IsScheme sch) (hhost : IsHost host) (hbare : host.head? ≠ some ':')
    (hclean : ∀ p ∈ keep, p.Clean) (hkeep : ∀ p ∈ keep, p.kind = .other)
    (hname : trimText d.name = d.name) (hlisten : d.srtMode = .listener → d.streamKey = "") :
    normalize d = some d ↔ EndsWell (addressText host keep) ∧
      trimText d.streamKey = d.streamKey ∧ trimText d.srtPassphrase = d.srtPassphrase := by
  have hread (hend : EndsWell (addressText host keep)) : trimText d.url = d.url := by
    rw [trimText, hurl, addressText_append, hs.trim, hend, ← addressText_append, ← hurl,
      String.ofList_toList]
  constructor
  · intro h
    have hend := endsWell_of_again hurl hs hhost hbare hclean hkeep h
    rw [normalize_again (by rw [hread hend, hurl]) hs hhost hbare hclean hkeep,
      Option.some_inj] at h
    refine ⟨hend, ?_, congrArg Destination.srtPassphrase h⟩
    by_cases hm : d.srtMode = .listener
    · rw [hlisten hm]
      rfl
    · have hkey := congrArg Destination.streamKey h
      exact (if_neg hm).symm.trans hkey
  · rintro ⟨hend, hkey, hpass⟩
    rw [normalize_again (by rw [hread hend, hurl]) hs hhost hbare hclean hkeep,
      trimFields_eq_self hname (hread hend) hkey hpass]
    by_cases hm : d.srtMode = .listener
    · rw [if_pos hm, ← hlisten hm]
    · rw [if_neg hm]

end Second

/-! ### What is asked of `normalize` -/

/-- What is asked of an address over SRT: what has a field of its own is off it, the others are
on it as they were, and a stream id or a passphrase is in its field. -/
structure CarriesOver (d d' : Destination) : Prop where
  managed : ∀ p ∈ splitQuery (addressQuery d'.url.toList), p.kind = .other
  untouched : pieces (addressQuery d'.url.toList) =
    (pieces (addressQuery d.url.toList)).filter fun one => (paramOf one).kind = .other
  streamid : d.streamKey = "" → d'.srtMode ≠ .listener →
    d'.streamKey.toList = firstValue .streamid (splitQuery (addressQuery d.url.toList))
  passphrase : d.srtPassphrase = "" → d'.srtMode ≠ .listener →
    d'.srtPassphrase.toList = firstValue .passphrase (splitQuery (addressQuery d.url.toList))

/-- There is a result, it is its own result, and it says what was typed. -/
def Settles (d : Destination) : Prop :=
  ∃ d', normalize d = some d' ∧ normalize d' = some d' ∧
    (protocolOf (trimFields d) = .srt → CarriesOver (trimFields d) d')

/-- The address names a host, what stays on it is spelled with its equals sign and does not end
in a blank, and what is taken out of it has no blanks around it. -/
structure SettlesSrt (d : Destination) (host : List Char) (query : List Char) : Prop where
  named : host ≠ []
  spelled : ∀ one ∈ pieces query, (paramOf one).kind = .other → '=' ∈ one
  ends : EndsWell (lastText host (keptParams (splitQuery query)))
  streamid : trimText d.streamKey = "" →
    ¬(host.head? = some ':' ∨ saysListener (splitQuery query) = true ∨ d.srtMode = .listener) →
      trimChars (firstValue .streamid (splitQuery query)) = firstValue .streamid (splitQuery query)
  passphrase : trimText d.srtPassphrase = "" →
    trimChars (firstValue .passphrase (splitQuery query)) =
      firstValue .passphrase (splitQuery query)

/-- When all that is so, read off what was typed. -/
def SettlesWhen (d : Destination) : Prop :=
  let url := (trimText d.url).toList
  if protocolOf (trimFields d) = .srt then
    SettlesSrt d (hostOf (url.drop kSrtScheme.length)) (addressQuery url)
  else EndsWell (dropSlashes url)

section Stored

variable {d : Destination} {sch host q : List Char} {ps keep : List QueryParam}

lemma modeOf_eq_listener : modeOf d host ps = .listener ↔
    host.head? = some ':' ∨ saysListener ps = true ∨ d.srtMode = .listener := by
  by_cases hport : host.head? = some ':'
  · simp [modeOf, hport]
  · by_cases hsay : saysListener ps = true
    · simp [modeOf, hport, hsay]
    · simp [modeOf, hport, hsay]

/-- What stays is spelled as it was. -/
lemma kept_text_iff : (keptParams (splitQuery q)).map QueryParam.text =
      (pieces q).filter (fun one => (paramOf one).kind = .other) ↔
    ∀ one ∈ pieces q, (paramOf one).kind = .other → '=' ∈ one := by
  have hmap : (keptParams (splitQuery q)).map QueryParam.text =
      ((pieces q).filter fun one => (paramOf one).kind = .other).map
        fun one => (paramOf one).text := by
    rw [keptParams, splitQuery, List.filter_map, List.map_map]
    rfl
  rw [hmap]
  conv_lhs =>
    rhs
    rw [← List.map_id ((pieces q).filter fun one => (paramOf one).kind = .other)]
  rw [List.map_inj_left]
  simp only [List.mem_filter, decide_eq_true_eq, and_imp, id_eq, text_paramOf]

lemma kept_clean : ∀ p ∈ keptParams (splitQuery q), p.Clean :=
  fun p hp => splitQuery_clean q p (List.mem_of_mem_filter hp)

lemma kept_other : ∀ p ∈ keptParams ps, p.kind = .other :=
  fun p hp => by simpa using List.of_mem_filter hp

lemma endsWell_lastText {host' : List Char} (h : EndsWell host' ↔ EndsWell host) :
    EndsWell (lastText host' keep) ↔ EndsWell (lastText host keep) := by
  rw [lastText, lastText]
  cases keep.getLast? with
  | none => exact h
  | some p => rfl

/-- A taken value, trimmed. -/
lemma trimText_ite {s : String} {v : List Char} (hs : trimText s = s) :
    trimText (if s = "" then String.ofList v else s) = (if s = "" then String.ofList v else s) ↔
      (s = "" → trimChars v = v) := by
  by_cases h : s = ""
  · rw [if_pos h, trimText, String.toList_ofList, String.ofList_inj]
    exact ⟨fun hv _ => hv, fun hv => hv h⟩
  · rw [if_neg h, hs]
    exact ⟨fun _ hc => absurd hc h, fun _ => rfl⟩

lemma streamKey_stored (hm : modeOf d host ps ≠ .listener) : (stored d sch host ps).streamKey =
    if d.streamKey = "" then String.ofList (firstValue .streamid ps) else d.streamKey := if_neg hm

lemma srtPassphrase_stored : (stored d sch host ps).srtPassphrase =
    if d.srtPassphrase = "" then String.ofList (firstValue .passphrase ps) else d.srtPassphrase :=
  rfl

lemma url_stored : (stored d sch host ps).url.toList =
    addressText (baseText sch host) (keptParams ps) := String.toList_ofList ..

/-- When a stored key is trimmed. -/
lemma trimmed_streamKey (d : Destination) (sch host : List Char) (ps : List QueryParam) :
    trimText (stored (trimFields d) sch host ps).streamKey =
        (stored (trimFields d) sch host ps).streamKey ↔
      (trimText d.streamKey = "" →
        ¬(host.head? = some ':' ∨ saysListener ps = true ∨ d.srtMode = .listener) →
          trimChars (firstValue .streamid ps) = firstValue .streamid ps) := by
  have hlisten : modeOf (trimFields d) host ps = .listener ↔
      host.head? = some ':' ∨ saysListener ps = true ∨ d.srtMode = .listener := modeOf_eq_listener
  rw [← hlisten]
  by_cases hm : modeOf (trimFields d) host ps = .listener
  · have hempty : (stored (trimFields d) sch host ps).streamKey = "" := if_pos hm
    rw [hempty]
    exact iff_of_true rfl fun _ hc => absurd hm hc
  · rw [streamKey_stored hm, streamKey_trimFields, trimText_ite (trimText_idem d.streamKey)]
    exact forall_congr' fun _ => ⟨fun h _ => h, fun h => h hm⟩

/-- When a stored passphrase is trimmed. -/
lemma trimmed_srtPassphrase (d : Destination) (sch host : List Char) (ps : List QueryParam) :
    trimText (stored (trimFields d) sch host ps).srtPassphrase =
        (stored (trimFields d) sch host ps).srtPassphrase ↔
      (trimText d.srtPassphrase = "" →
        trimChars (firstValue .passphrase ps) = firstValue .passphrase ps) := by
  rw [srtPassphrase_stored, srtPassphrase_trimFields, trimText_ite (trimText_idem d.srtPassphrase)]

/-- What is stored carries over what was typed, where nothing on it was spelled anew. -/
lemma carriesOver_stored {d' : Destination} {r : List Char} (hd : d.url.toList = sch ++ r)
    (hs : IsScheme sch) (hr : hostOf r ≠ [])
    (hstored : d' = stored d sch (hostOf r) (splitQuery (addressQuery r))) :
    CarriesOver d d' ↔
      ∀ one ∈ pieces (addressQuery r), (paramOf one).kind = .other → '=' ∈ one := by
  have hquery : addressQuery d.url.toList = addressQuery r := by rw [hd, hs.query_append]
  obtain ⟨sch', host', hbase, hs', hhost', -, -⟩ := exists_baseText hs (isHost_hostOf hr)
  have hback : addressQuery d'.url.toList =
      joinQueryParams (keptParams (splitQuery (addressQuery r))) := by
    rw [hstored, url_stored, hbase, addressText_append, hs'.query_append,
      addressQuery_addressText hhost'.mark]
  have huntouched : pieces (addressQuery d'.url.toList) =
        (pieces (addressQuery d.url.toList)).filter (fun one => (paramOf one).kind = .other) ↔
      ∀ one ∈ pieces (addressQuery r), (paramOf one).kind = .other → '=' ∈ one := by
    rw [hback, hquery, pieces_joinQueryParams kept_clean, kept_text_iff]
  refine ⟨fun h => huntouched.mp h.untouched, fun h =>
    ⟨?_, huntouched.mpr h, fun hgiven hm => ?_, fun hgiven _ => ?_⟩⟩
  · rw [hback, splitQuery_joinQueryParams kept_clean]
    exact kept_other
  · rw [hstored] at hm
    rw [hstored, streamKey_stored hm, if_pos hgiven, String.toList_ofList, hquery]
  · rw [hstored, srtPassphrase_stored, if_pos hgiven, String.toList_ofList, hquery]

/-- What is stored settles exactly when it is stored again and nothing on it was spelled anew. -/
lemma settles_srt {r : List Char} (hd : (trimText d.url).toList = sch ++ r) (hs : IsScheme sch) :
    Settles d ↔ SettlesSrt d (hostOf r) (addressQuery r) := by
  have hproto : protocolOf (trimFields d) = .srt := protocolOf_eq_srt.mpr ⟨sch, r, hd, hs⟩
  by_cases hr : hostOf r = []
  · -- `substr` throws
    have hnone : normalize d = none := by rw [normalize_srt hd hs, if_pos hr]
    refine iff_of_false ?_ fun h => h.named hr
    rintro ⟨d', hd', -⟩
    rw [hnone] at hd'
    exact absurd hd' (by simp)
  · obtain ⟨s, hstored⟩ :
        ∃ s, s = stored (trimFields d) sch (hostOf r) (splitQuery (addressQuery r)) := ⟨_, rfl⟩
    have hsome : normalize d = some s := by rw [normalize_srt hd hs, if_neg hr, hstored]
    obtain ⟨sch', host', hbase, hs', hhost', hbare', hends'⟩ :=
      exists_baseText hs (isHost_hostOf hr)
    have hurl : s.url.toList =
        addressText (sch' ++ host') (keptParams (splitQuery (addressQuery r))) := by
      rw [hstored, url_stored, hbase]
    have hlast : EndsWell (addressText host' (keptParams (splitQuery (addressQuery r)))) ↔
        EndsWell (lastText (hostOf r) (keptParams (splitQuery (addressQuery r)))) := by
      rw [endsWell_address, endsWell_lastText hends']
    have hname : trimText s.name = s.name := by
      rw [hstored]
      exact trimText_idem d.name
    have hlisten : s.srtMode = .listener → s.streamKey = "" := by
      rw [hstored]
      exact fun hm => if_pos hm
    have hagain := normalize_eq_self_iff hurl hs' hhost' hbare' kept_clean kept_other hname hlisten
    have hcarries := carriesOver_stored (d := trimFields d) hd hs hr hstored
    have hkey := trimmed_streamKey d sch (hostOf r) (splitQuery (addressQuery r))
    have hpass := trimmed_srtPassphrase d sch (hostOf r) (splitQuery (addressQuery r))
    rw [← hstored] at hkey hpass
    rw [hlast, hkey, hpass] at hagain
    constructor
    · rintro ⟨d', hd', hagain', hover⟩
      obtain rfl : s = d' := by rwa [hsome, Option.some_inj] at hd'
      obtain ⟨hend, hkey', hpass'⟩ := hagain.mp hagain'
      exact ⟨hr, hcarries.mp (hover hproto), hend, hkey', hpass'⟩
    · rintro ⟨-, hspelled, hend, hkey', hpass'⟩
      exact ⟨s, hsome, hagain.mpr ⟨hend, hkey', hpass'⟩, fun _ => hcarries.mpr hspelled⟩

end Stored

/-! ### An address over RTMP -/

/-- What begins as a trimmed text does is trimmed at its end. -/
lemma trimChars_of_prefix {a s : List Char} (h : a <+: trimChars s) :
    trimChars a = a.rdropWhile isSpaceChar := by
  cases a with
  | nil => rfl
  | cons c a =>
      obtain ⟨t, ht⟩ := h
      have hdrop := dropWhile_trimChars s
      rw [← ht, List.cons_append] at hdrop
      by_cases hc : isSpaceChar c = true
      · -- it would have been taken off
        have hlen := congrArg List.length hdrop
        rw [List.dropWhile_cons_of_pos hc] at hlen
        have hshort := (List.dropWhile_suffix (l := a ++ t) isSpaceChar).length_le
        rw [List.length_cons] at hlen
        omega
      · exact trimChars_cons (by simpa using hc) a

/-- What is stored of an address over RTMP. -/
lemma normalize_rtmp {d : Destination} (h : protocolOf (trimFields d) ≠ .srt) :
    normalize d = some { trimFields d with
      url := String.ofList (dropSlashes (trimText d.url).toList)
      srtPassphrase := ""
      srtLatencyMs := 0
      srtMode := .caller } := by
  rw [normalize, if_pos h]
  rfl

/-- It settles where no blank comes to its end. -/
lemma settles_rtmp {d : Destination} (h : protocolOf (trimFields d) ≠ .srt) :
    Settles d ↔ EndsWell (dropSlashes (trimText d.url).toList) := by
  set url := dropSlashes (trimText d.url).toList with hurl
  have hurl' : (trimText d.url).toList = trimChars d.url.toList := String.toList_ofList ..
  have hpre : url <+: trimChars d.url.toList := by
    rw [hurl, hurl']
    exact List.rdropWhile_prefix _ _
  have hcut : trimChars url = url.rdropWhile isSpaceChar := trimChars_of_prefix hpre
  set s : Destination := { trimFields d with
    url := String.ofList url
    srtPassphrase := ""
    srtLatencyMs := 0
    srtMode := .caller } with hs
  have htrim : (trimText s.url).toList = url.rdropWhile isSpaceChar := by
    rw [trimText, String.toList_ofList, hs, String.toList_ofList, hcut]
  -- what is shorter does not begin to be over SRT
  have hproto : protocolOf (trimFields s) ≠ .srt := by
    intro hc
    obtain ⟨sch, r, hr, hsch⟩ := protocolOf_eq_srt.mp hc
    obtain ⟨t, ht⟩ := (List.rdropWhile_prefix isSpaceChar url).trans hpre
    rw [show (trimFields s).url.toList = _ from htrim] at hr
    refine h (protocolOf_eq_srt.mpr ⟨sch, r ++ t, ?_, hsch⟩)
    rw [show (trimFields d).url.toList = _ from hurl', ← ht, hr, List.append_assoc]
  have hsome : normalize d = some s := normalize_rtmp h
  have hagain := normalize_rtmp hproto
  rw [htrim] at hagain
  constructor
  · rintro ⟨d', hd', hself, -⟩
    obtain rfl : s = d' := by rwa [hsome, Option.some_inj] at hd'
    rw [hagain, Option.some_inj] at hself
    have hsame := congrArg (fun d => d.url.toList) hself
    simp only [String.toList_ofList, hs] at hsame
    have hback : url <+: url.rdropWhile isSpaceChar := by
      conv_lhs => rw [← hsame]
      exact List.rdropWhile_prefix _ _
    exact (List.rdropWhile_prefix _ _).eq_of_length_le hback.length_le
  · intro hend
    refine ⟨s, hsome, ?_, fun hc => absurd hc h⟩
    have hslash : dropSlashes url = url := List.rdropWhile_idempotent ..
    rw [hagain, hend, hslash, trimFields]
    simp only [hs, trimFields, trimText_idem]

/-! ### When it settles -/

/-- `normalize` has a result that it leaves alone, with everything of an address over SRT in its
place, exactly when what was typed is like that. -/
theorem settles_iff (d : Destination) : Settles d ↔ SettlesWhen d := by
  rw [SettlesWhen]
  by_cases h : protocolOf (trimFields d) = .srt
  · obtain ⟨sch, r, hd, hs⟩ := protocolOf_eq_srt.mp h
    have hd' : (trimText d.url).toList = sch ++ r := hd
    have hdrop : (sch ++ r).drop kSrtScheme.length = r := by
      rw [show kSrtScheme.length = 6 by decide, ← hs.length_eq, List.drop_left]
    simp only [h, ↓reduceIte, hd', hdrop, hs.query_append]
    exact settles_srt hd hs
  · simp only [h, ↓reduceIte]
    exact settles_rtmp h

/-- `substr` throws where there is no host. -/
theorem normalize_throws : ¬Settles { url := "srt://" } := by
  have hnone : normalize { url := "srt://" } = none := by decide +kernel
  rintro ⟨d', hd', -⟩
  rw [hnone] at hd'
  exact absurd hd' (by simp)

end Multisite

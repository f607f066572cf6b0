import Multisite.Lib.Search
import Multisite.Stream.Plan

/-!
`scrub` and `redact` (`stream_plan.cpp`): the argument vector as it is logged, the secrets taken
out of it one after the other.

An output address is its parts: what is plain, and the places that hold a secret.

* `scrub_terminates`, `toList_scrub`: the loop ends, and replaces every place;
* `toList_outputUrl`: the output address is its parts.
-/

namespace Multisite

open Lib

/-! ### The loop -/

/-- `s.find(secret, at)`. -/
def findFrom (secret s : List Char) (at' : ℕ) : Option ℕ :=
  (firstIn secret (s.drop at')).map (at' + ·)

/-- A turn of `scrub`'s loop: the text and where to look from, or nothing when there is no
place left. -/
def scrubStep (secret w : List Char) (x : List Char × ℕ) : Option (List Char × ℕ) :=
  (findFrom secret x.1 x.2).map fun i =>
    (x.1.take i ++ w ++ x.1.drop (i + secret.length), i + w.length)

/-- The loop, for at most `n` turns. -/
def scrubLoop (secret w : List Char) : ℕ → List Char × ℕ → Option (List Char)
  | 0, _ => none
  | n + 1, x =>
      match scrubStep secret w x with
      | none => some x.1
      | some x' => scrubLoop secret w n x'

/-- `scrub`: no more turns than there are characters are needed. -/
def scrub (s secret w : String) : String :=
  if secret = "" then s
  else String.ofList
    ((scrubLoop secret.toList w.toList (s.toList.length + 1) (s.toList, 0)).getD s.toList)

/-- `redact` of a line of text. -/
def redactText (text : String) (d : Destination) : String :=
  scrub (scrub text d.streamKey "<key>") d.srtPassphrase "<passphrase>"

/-- `redact` of an argument vector. -/
def redactArgs (args : List String) (d : Destination) : List String :=
  args.map fun a => redactText a d

lemma toList_ne_nil {s : String} (h : s ≠ "") : s.toList ≠ [] :=
  fun hnil => h (String.toList_inj.mp hnil)

/-- **The loop ends**, and what it leaves is every place replaced: what is still ahead gets
shorter with every turn. -/
lemma scrubLoop_eq {secret w : List Char} (hs : secret ≠ []) {n : ℕ} {pre rest : List Char}
    (hn : rest.length < n) :
    scrubLoop secret w n (pre ++ rest, pre.length) = some (pre ++ replaceAll secret w rest) := by
  induction n generalizing pre rest with
  | zero => exact absurd hn (Nat.not_lt_zero _)
  | succ n ih =>
      rw [scrubLoop, scrubStep, findFrom]
      simp only [List.drop_left]
      cases h : firstIn secret rest with
      | none =>
          simp only [Option.map_none]
          rw [replaceAll_eq_self hs (firstIn_eq_none.mp h)]
      | some i =>
          have hlen := add_length_le_of_firstIn h
          have hpos := List.length_pos_iff.mpr hs
          simp only [Option.map_some]
          have hi : i ≤ rest.length := by omega
          have htext : (pre ++ rest).take (pre.length + i) ++ w ++
              (pre ++ rest).drop (pre.length + i + secret.length) =
              (pre ++ rest.take i ++ w) ++ rest.drop (i + secret.length) := by
            rw [List.take_length_add_append, Nat.add_assoc, List.drop_length_add_append]
          have hat : pre.length + i + w.length = (pre ++ rest.take i ++ w).length := by
            simp [List.length_take, hi, Nat.add_assoc]
          rw [htext, hat, ih (by rw [List.length_drop]; omega), replaceAll_split hs h]
          simp only [List.append_assoc]

/-- `scrub` ends on every text. -/
lemma scrub_terminates (s secret w : String) (hs : secret ≠ "") :
    scrubLoop secret.toList w.toList (s.toList.length + 1) (s.toList, 0) =
      some (replaceAll secret.toList w.toList s.toList) :=
  @scrubLoop_eq _ _ (toList_ne_nil hs) _ [] _ (Nat.lt_succ_self _)

lemma toList_scrub {s secret w : String} (hs : secret ≠ "") :
    (scrub s secret w).toList = replaceAll secret.toList w.toList s.toList := by
  rw [scrub, if_neg hs, scrub_terminates s secret w hs, Option.getD_some, String.toList_ofList]

/-- A text without the secret is left as it is. -/
lemma scrub_eq_self {s secret : String} (w : String) (h : ¬secret.toList <:+: s.toList) :
    scrub s secret w = s := by
  by_cases hs : secret = ""
  · rw [scrub, if_pos hs]
  · rw [← String.toList_inj, toList_scrub hs, replaceAll_eq_self (toList_ne_nil hs) h]

/-! ### The parts of an address -/

/-- A part of an output address. -/
inductive UrlPart where
  | plain (s : String)
  | key
  | passphrase
  deriving DecidableEq, Repr

/-- A part written out, the secrets as given. -/
def UrlPart.text (k p : String) : UrlPart → List Char
  | .plain s => s.toList
  | .key => k.toList
  | .passphrase => p.toList

/-- An address written out, the secrets as given. -/
def urlText (k p : String) (parts : List UrlPart) : List Char := parts.flatMap (UrlPart.text k p)

/-- What joins the next parameter to an address. -/
def joiner (hasQuery : Bool) : String := if hasQuery then "&" else "?"

/-- The parts of `output_url`'s address; which they are depends on the secrets only as far as
these are empty or not. -/
def urlParts (d : Destination) : List UrlPart :=
  if protocolOf d = .rtmp then
    if d.streamKey = "" then [.plain d.url] else [.plain (dropSlash d.url ++ "/"), .key]
  else
    let hasQuery := decide ('?' ∈ d.url.toList)
    let latency := toString
      ((if 0 < d.srtLatencyMs then d.srtLatencyMs else kDefaultSrtLatencyMs) * kUsPerMs)
    if d.srtMode = .listener then
      .plain (d.url ++ joiner hasQuery ++ "mode=listener&listen_timeout=-1") ::
        (if d.srtPassphrase ≠ "" then [.plain "&passphrase=", .passphrase] else []) ++
        [.plain ("&latency=" ++ latency)]
    else if d.streamKey ≠ "" then
      [.plain (d.url ++ joiner hasQuery ++ "streamid="), .key] ++
        (if d.srtPassphrase ≠ "" then [.plain "&passphrase=", .passphrase] else []) ++
        [.plain ("&latency=" ++ latency)]
    else if d.srtPassphrase ≠ "" then
      [.plain (d.url ++ joiner hasQuery ++ "passphrase="), .passphrase,
        .plain ("&latency=" ++ latency)]
    else [.plain (d.url ++ joiner hasQuery ++ "latency=" ++ latency)]

lemma addParams_cons (u k v : String) (rest : List (String × String)) :
    addParams u ((k, v) :: rest) =
      addParams (u ++ joiner (decide ('?' ∈ u.toList)) ++ (k ++ "=" ++ v)) rest := by
  rw [addParams, joiner]
  by_cases h : '?' ∈ u.toList <;> simp [h]

/-- Once a parameter is added the address has a query. -/
lemma query_added (u k v : String) :
    '?' ∈ (u ++ joiner (decide ('?' ∈ u.toList)) ++ (k ++ "=" ++ v)).toList := by
  by_cases h : '?' ∈ u.toList
  · simp [h]
  · simp [h, joiner]

lemma addParams_query {u : String} (hu : '?' ∈ u.toList) (params : List (String × String)) :
    (addParams u params).toList =
      u.toList ++ params.flatMap fun kv => ("&" ++ (kv.1 ++ "=" ++ kv.2)).toList := by
  induction params generalizing u with
  | nil => simp [addParams]
  | cons kv params ih =>
      obtain ⟨k, v⟩ := kv
      rw [addParams_cons, ih (query_added u k v)]
      simp [joiner, hu]

/-- The first parameter is joined as the address has it, the others by `&`. -/
lemma toList_addParams (u k v : String) (rest : List (String × String)) :
    (addParams u ((k, v) :: rest)).toList =
      u.toList ++ (joiner (decide ('?' ∈ u.toList))).toList ++ (k ++ "=" ++ v).toList ++
        rest.flatMap fun kv => ("&" ++ (kv.1 ++ "=" ++ kv.2)).toList := by
  rw [addParams_cons, addParams_query (query_added u k v), String.toList_append,
    String.toList_append]

/-- **An output address is its parts**, the secrets in their places. -/
theorem toList_outputUrl (d : Destination) :
    (outputUrl d).toList = urlText d.streamKey d.srtPassphrase (urlParts d) := by
  rw [outputUrl, urlParts]
  by_cases hproto : protocolOf d = .rtmp
  · rw [if_pos hproto, if_pos hproto]
    by_cases hk : d.streamKey = "" <;> simp [hk, urlText, UrlPart.text]
  rw [if_neg hproto, if_neg hproto, srtParams]
  by_cases hmode : d.srtMode = .listener
  · by_cases hp : d.srtPassphrase = "" <;>
      simp [hmode, hp, toList_addParams, urlText, UrlPart.text]
  · by_cases hk : d.streamKey = "" <;> by_cases hp : d.srtPassphrase = "" <;>
      simp [hmode, hk, hp, toList_addParams, urlText, UrlPart.text]

end Multisite

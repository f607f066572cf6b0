import Multisite.Stream.Normalize

/-!
An address over SRT, written and read: `output_url` puts the fields on it, `normalize` takes them
off again, and `validate` says which it accepts.

* `validate_srt_iff`: what `validate` accepts, demand by demand;
* `stoll_toString`: a number that is written out is read back;
* `outputUrl_eq`: the address that is written is the one of the destination, with more parameters;
* `address_returns`: read again it gives back what was written, and of the latencies that can be
  pasted those between 20 and 8000 milliseconds are accepted.
-/

namespace Multisite

/-! ### `validate` -/

/-- `std::stoi`, and nothing where it throws. -/
def stoi (s : List Char) : Option ℤ := (stoll s).filter fun n => -2 ^ 31 ≤ n ∧ n < 2 ^ 31

/-- What stands between the scheme and the question mark. -/
def hostPort (d : Destination) : List Char :=
  (d.url.toList.drop kSrtScheme.length).takeWhile (· ≠ '?')

/-- The port of an address; 0 where there is no number. -/
def portOf (d : Destination) : ℤ := (stoi ((hostPort d).rtakeWhile (· ≠ ':'))).getD 0

/-- Characters that would end a value on the address. -/
def cutShort (s : String) : Prop := '&' ∈ s.toList ∨ '#' ∈ s.toList ∨ ' ' ∈ s.toList

instance (s : String) : Decidable (cutShort s) :=
  inferInstanceAs (Decidable (_ ∨ _))

/-- The part of `validate` about an address over SRT. -/
def validateSrt (d : Destination) : String :=
  if ':' ∉ hostPort d ∨ (hostPort d).rtakeWhile (· ≠ ':') = [] then
    "An SRT address needs a port on the end, like srt://stream.example.com:9000"
  else if portOf d < 1 ∨ 65535 < portOf d then
    "That port number is not one a computer can use. It should be between 1 and 65535."
  else if ((hostPort d).rdropWhile (· ≠ ':')).length = 1 then
    "An SRT address needs the far end's name or number before the port, like " ++
      "srt://stream.example.com:9000"
  else if cutShort d.streamKey ∨ cutShort d.srtPassphrase then
    "The stream key and passphrase cannot contain a space, an & or a #. If the streaming site " ++
      "gave you one with those in it, please report it."
  else if d.srtPassphrase ≠ "" ∧ (d.srtPassphrase.length < 10 ∨ 79 < d.srtPassphrase.length) then
    "An SRT passphrase has to be between 10 and 79 characters. Leave it empty if the streaming " ++
      "site did not give you one."
  else if d.srtLatencyMs ≠ 0 ∧ (d.srtLatencyMs < 20 ∨ 8000 < d.srtLatencyMs) then
    "The SRT latency should be between 20 and 8000 milliseconds. If it came in as part of the " ++
      "address, note that an SRT address gives it in millionths of a second — 2000000 there " ++
      "means 2000 here."
  else ""

/-- `validate`: what is wrong with a destination, and nothing where it is accepted. -/
def validate (d : Destination) : String :=
  if d.name = "" then
    "Give this destination a name, so you can tell it apart from the others."
  else if d.roomId = "" then "Choose which feed this destination should send."
  else if lower d.url = "" then
    "Paste the server address from the streaming site — it starts with rtmp:// or srt://"
  else if d.delayS ≠ 0 ∧ (d.delayS < 10 ∨ 3600 < d.delayS) then
    "The delay should be between 10 seconds and an hour."
  else if protocolOf d = .rtmp then
    if !textStartsWith (lower d.url) "rtmp://" && !textStartsWith (lower d.url) "rtmps://" then
      "That does not look like a streaming address. It should start with rtmp://, rtmps:// or " ++
        "srt://"
    else if d.streamKey = "" then
      "Paste the stream key from the streaming site as well. It is usually shown next to the " ++
        "server address."
    else ""
  else validateSrt d

/-- What an address over SRT must be, its latency apart. -/
structure SrtOk (d : Destination) : Prop where
  name : d.name ≠ ""
  room : d.roomId ≠ ""
  url : lower d.url ≠ ""
  delay : ¬(d.delayS ≠ 0 ∧ (d.delayS < 10 ∨ 3600 < d.delayS))
  port : ¬(':' ∉ hostPort d ∨ (hostPort d).rtakeWhile (· ≠ ':') = [])
  range : ¬(portOf d < 1 ∨ 65535 < portOf d)
  host : ¬((hostPort d).rdropWhile (· ≠ ':')).length = 1
  secrets : ¬(cutShort d.streamKey ∨ cutShort d.srtPassphrase)
  passphrase : ¬(d.srtPassphrase ≠ "" ∧ (d.srtPassphrase.length < 10 ∨ 79 < d.srtPassphrase.length))

/-- One demand: a refusal says something. -/
lemma demand_iff {c : Prop} [Decidable c] {refusal rest : String}
    (h : refusal ≠ "") :
    (if c then refusal else rest) = "" ↔ ¬c ∧ rest = "" := by
  by_cases hc : c
  · simp [hc, h]
  · simp [hc]

/-- What `validate` accepts of an address over SRT. -/
lemma validate_srt_iff {d : Destination} (h : protocolOf d = .srt) :
    validate d = "" ↔
      SrtOk d ∧ ¬(d.srtLatencyMs ≠ 0 ∧ (d.srtLatencyMs < 20 ∨ 8000 < d.srtLatencyMs)) := by
  have hproto : ¬protocolOf d = .rtmp := by rw [h]; decide
  rw [validate, demand_iff (by decide), demand_iff (by decide), demand_iff (by decide),
    demand_iff (by decide), if_neg hproto, validateSrt, demand_iff (by decide),
    demand_iff (by decide), demand_iff (by decide), demand_iff (by decide), demand_iff (by decide),
    demand_iff (by decide)]
  constructor
  · rintro ⟨hname, hroom, hurl, hdelay, hport, hrange, hhost, hsecret, hpass, hlat, -⟩
    exact ⟨⟨hname, hroom, hurl, hdelay, hport, hrange, hhost, hsecret, hpass⟩, hlat⟩
  · rintro ⟨⟨hname, hroom, hurl, hdelay, hport, hrange, hhost, hsecret, hpass⟩, hlat⟩
    exact ⟨hname, hroom, hurl, hdelay, hport, hrange, hhost, hsecret, hpass, hlat, rfl⟩

/-! ### Numbers -/

lemma isSpaceChar_of_isDigit {c : Char} (hc : c.isDigit = true) : isSpaceChar c = false := by
  have hrange : 48 ≤ c.toNat := by
    unfold Char.isDigit at hc
    rw [Bool.and_eq_true, decide_eq_true_eq, decide_eq_true_eq] at hc
    exact UInt32.le_iff_toNat_le.mp hc.1
  have hne : c ≠ ' ' := by
    rintro rfl
    exact absurd hrange (by decide)
  have hhigh : ¬c.toNat ≤ 13 := by omega
  simp [isSpaceChar, hne, hhigh]

section Digits

variable {ds : List Char}

/-- Digits are read as they stand. -/
lemma stoll_digits (hne : ds ≠ []) (hds : ∀ c ∈ ds, c.isDigit = true) :
    stoll ds = if (2 : ℤ) ^ 63 ≤ (Nat.ofDigitChars 10 ds 0 : ℤ) then none
      else some (Nat.ofDigitChars 10 ds 0 : ℤ) := by
  have hspace : ds.dropWhile isSpaceChar = ds := by
    cases ds with
    | nil => rfl
    | cons c ds =>
        rw [List.dropWhile_cons_of_neg]
        simp [isSpaceChar_of_isDigit (hds c List.mem_cons_self)]
  have hsign (c : Char) (hc : c.isDigit = false) : ds.head? ≠ some c := by
    intro hhead
    rw [hds c (List.mem_of_mem_head? hhead)] at hc
    exact absurd hc (by decide)
  have htake : ds.takeWhile Char.isDigit = ds := List.takeWhile_eq_self_iff.mpr hds
  have hlow : ¬((Nat.ofDigitChars 10 ds 0 : ℤ) < -2 ^ 63) := by omega
  simp only [stoll, hspace, hsign '-' (by decide), hsign '+' (by decide), or_self, if_false, htake,
    hne, false_or, hlow]

/-- So are digits after a minus sign. -/
lemma stoll_neg (hne : ds ≠ []) (hds : ∀ c ∈ ds, c.isDigit = true) :
    stoll ('-' :: ds) = if -(Nat.ofDigitChars 10 ds 0 : ℤ) < -2 ^ 63 then none
      else some (-(Nat.ofDigitChars 10 ds 0 : ℤ)) := by
  have hspace : ('-' :: ds).dropWhile isSpaceChar = '-' :: ds :=
    List.dropWhile_cons_of_neg (by decide)
  have htake : ds.takeWhile Char.isDigit = ds := List.takeWhile_eq_self_iff.mpr hds
  have hhigh : ¬(2 : ℤ) ^ 63 ≤ -(Nat.ofDigitChars 10 ds 0 : ℤ) := by omega
  simp only [stoll, hspace, List.head?_cons, true_or, if_true, List.drop_one, List.tail_cons, htake,
    hne, false_or, hhigh, or_false]

end Digits

/-- A number is written in digits, and they stand for it. -/
lemma toString_digits (n : ℕ) :
    (toString n).toList ≠ [] ∧ (∀ c ∈ (toString n).toList, c.isDigit = true) ∧
      Nat.ofDigitChars 10 (toString n).toList 0 = n := by
  rw [Nat.toString_eq_ofList_toDigits, String.toList_ofList]
  exact ⟨Nat.toDigits_ne_nil, fun c hc => Nat.isDigit_of_mem_toDigits (by decide) (by decide) hc,
    Nat.ofDigitChars_ten_toDigits⟩

/-- One below zero begins with a minus sign. -/
lemma toString_negSucc (n : ℕ) :
    (toString (Int.negSucc n)).toList = '-' :: (toString (n + 1)).toList := by
  rw [show toString (Int.negSucc n) = "-" ++ toString (n + 1) from rfl, String.toList_append]
  rfl

/-- There is no blank in a number, and no ampersand. -/
lemma mem_toString {v : ℤ} {c : Char} (hc : c ∈ (toString v).toList) :
    isSpaceChar c = false ∧ c ≠ '&' := by
  have hdigit (n : ℕ) (h : c ∈ (toString n).toList) : isSpaceChar c = false ∧ c ≠ '&' := by
    have hds := (toString_digits n).2.1 c h
    refine ⟨isSpaceChar_of_isDigit hds, ?_⟩
    rintro rfl
    exact absurd hds (by decide)
  cases v with
  | ofNat n => exact hdigit n hc
  | negSucc n =>
      rw [toString_negSucc, List.mem_cons] at hc
      obtain rfl | hc := hc
      · decide
      · exact hdigit (n + 1) hc

/-- A number that is written out is read back, if it fits. -/
lemma stoll_toString (v : ℤ) :
    stoll (toString v).toList = if v < -2 ^ 63 ∨ 2 ^ 63 ≤ v then none else some v := by
  cases v with
  | ofNat n =>
      obtain ⟨hne, hds, hval⟩ := toString_digits n
      rw [show toString (Int.ofNat n) = toString n from rfl, stoll_digits hne hds, hval]
      by_cases h : (2 : ℤ) ^ 63 ≤ (n : ℤ)
      · rw [if_pos h, if_pos (.inr h)]
      · have hfits : ¬(Int.ofNat n < -2 ^ 63 ∨ 2 ^ 63 ≤ Int.ofNat n) := by
          simp only [Int.ofNat_eq_natCast]
          omega
        rw [if_neg h, if_neg hfits]
        rfl
  | negSucc n =>
      obtain ⟨hne, hds, hval⟩ := toString_digits (n + 1)
      have hneg : -((n + 1 : ℕ) : ℤ) = Int.negSucc n := rfl
      rw [toString_negSucc, stoll_neg hne hds, hval, hneg]
      by_cases h : Int.negSucc n < -2 ^ 63
      · rw [if_pos h, if_pos (.inl h)]
      · have hfits : ¬(Int.negSucc n < -2 ^ 63 ∨ 2 ^ 63 ≤ Int.negSucc n) := by omega
        rw [if_neg h, if_neg hfits]

/-! ### The address that is written -/

/-- A parameter that `output_url` writes. -/
def writtenParam (kv : String × String) : QueryParam := ⟨kv.1.toList, kv.2.toList⟩

lemma writtenParam_mk (k v : String) : writtenParam (k, v) = ⟨k.toList, v.toList⟩ := rfl

/-- The latency that is written, in milliseconds. -/
def writtenLatency (d : Destination) : ℤ :=
  if 0 < d.srtLatencyMs then d.srtLatencyMs else kDefaultSrtLatencyMs

section Written

variable {d : Destination} {sch host base : List Char} {keep : List QueryParam}

lemma joinQueryParams_ne_nil (h : keep ≠ []) : joinQueryParams keep ≠ [] := by
  obtain rfl | ⟨keep, p, rfl⟩ := keep.eq_nil_or_concat'
  · exact absurd rfl h
  · rw [joinQueryParams, joinLoop_concat]
    simp [QueryParam.text]

/-- One more parameter at the end of an address. -/
lemma addressText_snoc (base : List Char) (keep : List QueryParam) (p : QueryParam) :
    addressText base (keep ++ [p]) =
      addressText base keep ++ (if keep = [] then '?' else '&') :: p.text := by
  have hne : joinQueryParams (keep ++ [p]) ≠ [] := joinQueryParams_ne_nil (by simp)
  rw [addressText, if_neg hne, joinQueryParams, joinLoop_concat]
  by_cases hkeep : keep = []
  · subst hkeep
    rfl
  · have hjoin := joinQueryParams_ne_nil hkeep
    rw [joinQueryParams] at hjoin
    rw [if_pos hjoin, if_neg hkeep, addressText, joinQueryParams, if_neg hjoin]
    simp

lemma mark_mem_address (hbase : '?' ∉ base) : '?' ∈ addressText base keep ↔ keep ≠ [] := by
  constructor
  · rintro h rfl
    exact hbase h
  · intro h
    rw [addressText, if_neg (joinQueryParams_ne_nil h)]
    simp

/-- The parameters are put on one after the other. -/
lemma addParams_eq (hbase : '?' ∉ base) (l : List (String × String)) {u : String}
    (hu : u.toList = addressText base keep) :
    (addParams u l).toList = addressText base (keep ++ l.map writtenParam) := by
  induction l generalizing u keep with
  | nil => rw [addParams, hu, List.map_nil, List.append_nil]
  | cons kv l ih =>
      obtain ⟨k, v⟩ := kv
      have hstep : (u ++ (if '?' ∈ u.toList then "&" else "?") ++ (k ++ "=" ++ v)).toList =
          addressText base (keep ++ [writtenParam (k, v)]) := by
        rw [addressText_snoc, ← hu]
        by_cases hkeep : keep = []
        · have hmark : ¬ '?' ∈ u.toList := by
            rw [hu, mark_mem_address hbase]
            exact not_not_intro hkeep
          rw [if_neg hmark, if_pos hkeep]
          simp [writtenParam, QueryParam.text]
        · have hmark : '?' ∈ u.toList := by
            rw [hu, mark_mem_address hbase]
            exact hkeep
          rw [if_pos hmark, if_neg hkeep]
          simp [writtenParam, QueryParam.text]
      rw [addParams, ih hstep, List.append_assoc]
      rfl

/-- The address that is written is the one of the destination, with more parameters. -/
lemma outputUrl_eq (hsrt : protocolOf d = .srt) (hbase : '?' ∉ base)
    (hurl : d.url.toList = addressText base keep) :
    (outputUrl d).toList = addressText base (keep ++ (srtParams d).map writtenParam) := by
  have hproto : ¬protocolOf d = .rtmp := by rw [hsrt]; decide
  rw [outputUrl, if_neg hproto, addParams_eq hbase _ hurl]

end Written

/-! ### A destination as it is stored -/

/-- A destination over SRT that `normalize` leaves alone. -/
structure Normalized (d : Destination) (sch host : List Char) (keep : List QueryParam) : Prop where
  scheme : IsScheme sch
  named : IsHost host
  bare : host.head? ≠ some ':'
  url : d.url.toList = addressText (sch ++ host) keep
  clean : ∀ p ∈ keep, p.Clean
  other : ∀ p ∈ keep, p.kind = .other
  listener : d.srtMode = .listener → d.streamKey = ""
  key : trimText d.streamKey = d.streamKey
  passphrase : trimText d.srtPassphrase = d.srtPassphrase

lemma Normalized.protocol {d : Destination} {sch host : List Char} {keep : List QueryParam}
    (h : Normalized d sch host keep) : protocolOf d = .srt :=
  protocolOf_eq_srt.mpr ⟨sch, addressText host keep, by rw [h.url, addressText_append], h.scheme⟩

lemma Normalized.mark {d : Destination} {sch host : List Char} {keep : List QueryParam}
    (h : Normalized d sch host keep) : '?' ∉ sch ++ host := by
  obtain ⟨x, y, z, hsch, -, hy, hx, hz⟩ := h.scheme.eq
  simp [hsch, h.named.mark, Ne.symm hx, Ne.symm hy, Ne.symm hz]

lemma exists_normalized {d : Destination} (hfix : normalize d = some d)
    (hsrt : protocolOf d = .srt) : ∃ sch host keep, Normalized d sch host keep := by
  obtain ⟨sch, t, hurl, hs⟩ := protocolOf_eq_srt.mp hsrt
  have htrim : (trimText d.url).toList = sch ++ t.rdropWhile isSpaceChar := by
    rw [trimText, String.toList_ofList, hurl, hs.trim]
  have hread := normalize_srt htrim hs
  set r := t.rdropWhile isSpaceChar
  by_cases hr : hostOf r = []
  · rw [hfix, if_pos hr] at hread
    exact absurd hread (by simp)
  · rw [hfix, if_neg hr, Option.some_inj] at hread
    obtain ⟨sch', host', hbase, hs', hhost', hbare', -⟩ := exists_baseText hs (isHost_hostOf hr)
    have hurl' : d.url.toList =
        addressText (sch' ++ host') (keptParams (splitQuery (addressQuery r))) := by
      rw [hread, ← hbase]
      exact String.toList_ofList ..
    have hname : trimText d.name = d.name := by
      conv_rhs => rw [hread]
      rfl
    have hlisten : d.srtMode = .listener → d.streamKey = "" := by
      rw [hread]
      exact fun hm => if_pos hm
    obtain ⟨-, hkey, hpass⟩ := (normalize_eq_self_iff hurl' hs' hhost' hbare' kept_clean kept_other
      hname hlisten).mp hfix
    exact ⟨sch', host', _, hs', hhost', hbare', hurl', kept_clean, kept_other, hlisten, hkey, hpass⟩

/-! ### The address, read again -/

section Read

variable {d d' : Destination} {sch host : List Char} {keep : List QueryParam}

/-- What stays on an address is passed over. -/
lemma lifted_append (hkeep : ∀ p ∈ keep, p.kind = .other) (d : Destination)
    (ps : List QueryParam) : lifted d (keep ++ ps) = lifted d ps := by
  induction keep with
  | nil => rfl
  | cons p keep ih =>
      have hp : (liftParam (d, []) p).1 = d := by rw [liftParam, hkeep p List.mem_cons_self]
      rw [List.cons_append, ← lifted_cons d p (keep ++ ps) [], hp,
        ih fun q hq => hkeep q (List.mem_cons_of_mem p hq)]

lemma saysListener_append (hkeep : ∀ p ∈ keep, p.kind = .other) (ps : List QueryParam) :
    saysListener (keep ++ ps) = saysListener ps := by
  have hno := saysListener_of_kept hkeep
  rw [saysListener] at hno ⊢
  rw [List.any_append, hno, Bool.false_or]
  rfl

/-- The latency that is written can be read. -/
lemma latency_returns
    (hlat : ¬(d.srtLatencyMs ≠ 0 ∧ (d.srtLatencyMs < 20 ∨ 8000 < d.srtLatencyMs))) :
    ((stoll (toString (writtenLatency d * kUsPerMs)).toList).map latencyMs).getD 0 =
      if d.srtLatencyMs = 0 then kDefaultSrtLatencyMs else d.srtLatencyMs := by
  have hrange : writtenLatency d = (if d.srtLatencyMs = 0 then kDefaultSrtLatencyMs
      else d.srtLatencyMs) ∧ 20 ≤ writtenLatency d ∧ writtenLatency d ≤ 8000 := by
    rw [writtenLatency, kDefaultSrtLatencyMs]
    split_ifs <;> omega
  obtain ⟨hval, hlow, hhigh⟩ := hrange
  have hfits : ¬(writtenLatency d * kUsPerMs < -2 ^ 63 ∨ 2 ^ 63 ≤ writtenLatency d * kUsPerMs) := by
    rw [kUsPerMs]
    omega
  have hms : latencyMs (writtenLatency d * kUsPerMs) = writtenLatency d := by
    rw [latencyMs, Int.mul_tdiv_cancel _ (by decide)]
    exact Int.bmod_eq_of_le (by omega) (by omega)
  rw [stoll_toString, if_neg hfits, Option.map_some, Option.getD_some, hms, hval]

/-- It is the key that says which parameter it is. -/
lemma kind_mk (key value : List Char) :
    (QueryParam.mk key value).kind = (QueryParam.mk key []).kind := rfl

/-- The latency on an address. -/
lemma lifted_latency {x : Destination} (hx : x.srtLatencyMs = 0) (v : ℤ) :
    lifted x [writtenParam ("latency", toString v)] =
      { x with srtLatencyMs := ((stoll (toString v).toList).map latencyMs).getD 0 } := by
  have hkind : (writtenParam ("latency", toString v)).kind = .latency :=
    (kind_mk "latency".toList _).trans (by decide)
  rw [← lifted_cons x _ _ [], lifted_nil, liftParam, hkind]
  simp only [if_pos hx]
  rfl

/-- The passphrase on an address. -/
lemma lifted_passphrase {x : Destination} (hx : x.srtPassphrase = "") (ps : List QueryParam) :
    lifted x ((if d.srtPassphrase ≠ "" then [("passphrase", d.srtPassphrase)] else []).map
      writtenParam ++ ps) = lifted { x with srtPassphrase := d.srtPassphrase } ps := by
  by_cases h : d.srtPassphrase = ""
  · rw [if_neg (not_not_intro h), h, ← hx]
    rfl
  · have hkind : (writtenParam ("passphrase", d.srtPassphrase)).kind = .passphrase :=
      (kind_mk "passphrase".toList _).trans (by decide)
    rw [if_pos h, List.map_singleton, List.singleton_append, ← lifted_cons x _ _ [], liftParam,
      hkind]
    simp only [if_pos hx, writtenParam, String.ofList_toList]

/-- The mode and the stream id on an address. -/
lemma lifted_mode {x : Destination} (hx : x.streamKey = "") (hm : x.srtMode = .caller)
    (hlisten : d.srtMode = .listener → d.streamKey = "") (ps : List QueryParam) :
    lifted x ((if d.srtMode = .listener then [("mode", "listener"), ("listen_timeout", "-1")]
      else if d.streamKey ≠ "" then [("streamid", d.streamKey)] else []).map writtenParam ++ ps) =
      lifted { x with streamKey := d.streamKey, srtMode := d.srtMode } ps := by
  by_cases hl : d.srtMode = .listener
  · have hmode : (writtenParam ("mode", "listener")).kind = .mode := rfl
    have hwait : (writtenParam ("listen_timeout", "-1")).kind = .other := rfl
    have hval : lowerChars (writtenParam ("mode", "listener")).value = "listener".toList := rfl
    rw [if_pos hl, List.map_cons, List.map_singleton, List.cons_append, List.singleton_append,
      ← lifted_cons x _ _ [], ← lifted_cons _ _ _ [], liftParam, liftParam, hmode, hwait]
    simp only [if_pos hval, hl, hlisten hl]
    rw [← hx]
  · have hcaller : d.srtMode = .caller := by
      cases h : d.srtMode with
      | caller => rfl
      | listener => exact absurd h hl
    rw [if_neg hl]
    by_cases hkey : d.streamKey = ""
    · rw [if_neg (not_not_intro hkey), hkey, hcaller, ← hx, ← hm]
      rfl
    · have hkind : (writtenParam ("streamid", d.streamKey)).kind = .streamid :=
        (kind_mk "streamid".toList _).trans (by decide)
      rw [if_pos hkey, List.map_singleton, List.singleton_append, ← lifted_cons x _ _ [], liftParam,
        hkind]
      simp only [if_pos hx, writtenParam, String.ofList_toList, hcaller]
      rw [← hm]

/-- What is put on the address is taken off it again. -/
lemma lifted_srtParams (hlisten : d.srtMode = .listener → d.streamKey = "")
    (hlat : ¬(d.srtLatencyMs ≠ 0 ∧ (d.srtLatencyMs < 20 ∨ 8000 < d.srtLatencyMs)))
    (url : String) :
    lifted { url := url } ((srtParams d).map writtenParam) =
      { url := url
        streamKey := d.streamKey
        srtPassphrase := d.srtPassphrase
        srtLatencyMs := if d.srtLatencyMs = 0 then kDefaultSrtLatencyMs else d.srtLatencyMs
        srtMode := d.srtMode } := by
  rw [srtParams, List.map_append, List.map_append, List.append_assoc, lifted_mode rfl rfl hlisten,
    lifted_passphrase rfl, List.map_singleton, lifted_latency rfl]
  have hback := latency_returns hlat
  rw [writtenLatency] at hback
  simp only [hback]

/-- Which parameters are written. -/
lemma mem_srtParams {kv : String × String} (h : kv ∈ srtParams d) :
    kv = ("mode", "listener") ∨ (kv = ("listen_timeout", "-1") ∧ d.srtMode = .listener) ∨
      kv = ("streamid", d.streamKey) ∨ kv = ("passphrase", d.srtPassphrase) ∨
      kv = ("latency", toString (writtenLatency d * kUsPerMs)) := by
  rw [srtParams, List.mem_append, List.mem_append, List.mem_singleton] at h
  obtain (h | h) | h := h
  · split_ifs at h with hm hkey
    · rw [List.mem_cons, List.mem_singleton] at h
      exact h.elim .inl fun h => .inr (.inl ⟨h, hm⟩)
    · exact .inr (.inr (.inl (List.mem_singleton.mp h)))
    · exact absurd h List.not_mem_nil
  · split_ifs at h with hpass
    · exact .inr (.inr (.inr (.inl (List.mem_singleton.mp h))))
    · exact absurd h List.not_mem_nil
  · exact .inr (.inr (.inr (.inr h)))

/-- They can be read. -/
lemma srtParams_clean (hok : ¬(cutShort d.streamKey ∨ cutShort d.srtPassphrase)) :
    ∀ p ∈ (srtParams d).map writtenParam, p.Clean := by
  intro p hp
  obtain ⟨kv, hkv, rfl⟩ := List.mem_map.mp hp
  have hkey : ∀ key ∈ ["mode", "listen_timeout", "streamid", "passphrase", "latency"],
      '=' ∉ key.toList ∧ '&' ∉ key.toList := by decide
  obtain rfl | ⟨rfl, -⟩ | rfl | rfl | rfl := mem_srtParams hkv
  · exact ⟨by decide, by decide, by decide⟩
  · exact ⟨by decide, by decide, by decide⟩
  · obtain ⟨heq, hamp⟩ := hkey "streamid" (by simp)
    rw [writtenParam_mk]
    exact ⟨heq, hamp, fun hc => hok (.inl (.inl hc))⟩
  · obtain ⟨heq, hamp⟩ := hkey "passphrase" (by simp)
    rw [writtenParam_mk]
    exact ⟨heq, hamp, fun hc => hok (.inr (.inl hc))⟩
  · obtain ⟨heq, hamp⟩ := hkey "latency" (by simp)
    rw [writtenParam_mk]
    exact ⟨heq, hamp, fun hc => (mem_toString hc).2 rfl⟩

/-- The address that is written ends in a digit. -/
lemma endsWell_written (host : List Char) (keep : List QueryParam) :
    EndsWell (addressText host (keep ++ (srtParams d).map writtenParam)) := by
  have hlast : lastText host (keep ++ (srtParams d).map writtenParam) =
      (toString (writtenLatency d * kUsPerMs)).toList := by
    rw [srtParams, List.map_append, ← List.append_assoc, lastText]
    simp [writtenParam, writtenLatency]
  rw [endsWell_address, hlast, EndsWell, List.rdropWhile_eq_self_iff]
  intro hne
  rw [(mem_toString (List.getLast_mem hne)).1]
  decide

/-- What a destination says is given back. -/
structure Returns (d d' : Destination) : Prop where
  base : addressBase d'.url.toList = addressBase d.url.toList
  mode : d'.srtMode = d.srtMode
  streamKey : d'.streamKey = d.streamKey
  passphrase : d'.srtPassphrase = d.srtPassphrase
  latency : d'.srtLatencyMs =
    if d.srtLatencyMs = 0 then kDefaultSrtLatencyMs else d.srtLatencyMs

lemma returns_of_normalized (h : Normalized d sch host keep)
    (hsecret : ¬(cutShort d.streamKey ∨ cutShort d.srtPassphrase))
    (hlat : ¬(d.srtLatencyMs ≠ 0 ∧ (d.srtLatencyMs < 20 ∨ 8000 < d.srtLatencyMs))) :
    ∃ d', normalize { url := outputUrl d } = some d' ∧ Returns d d' := by
  set ps := keep ++ (srtParams d).map writtenParam with hps
  have hout : (outputUrl d).toList = sch ++ addressText host ps := by
    rw [outputUrl_eq h.protocol h.mark h.url, addressText_append]
  have htrim : (trimText (outputUrl d)).toList = sch ++ addressText host ps := by
    rw [trimText, String.toList_ofList, hout, h.scheme.trim, endsWell_written]
  have hclean : ∀ p ∈ ps, p.Clean := by
    intro p hp
    rcases List.mem_append.mp hp with hp | hp
    · exact h.clean p hp
    · exact srtParams_clean hsecret p hp
  have hread := normalize_srt (d := { url := outputUrl d }) htrim h.scheme
  rw [h.named.hostOf_address, if_neg h.named.ne_nil, addressQuery_addressText h.named.mark,
    splitQuery_joinQueryParams hclean] at hread
  have hempty : trimText "" = "" := by decide
  have htrimmed : trimFields { url := outputUrl d } = { url := trimText (outputUrl d) } := by
    rw [trimFields, hempty]
  rw [htrimmed] at hread
  set x : Destination := { url := trimText (outputUrl d) } with hx
  have hlift : lifted x ps =
      { x with
        streamKey := d.streamKey
        srtPassphrase := d.srtPassphrase
        srtLatencyMs := if d.srtLatencyMs = 0 then kDefaultSrtLatencyMs else d.srtLatencyMs
        srtMode := d.srtMode } := by
    rw [hps, lifted_append h.other, hx, lifted_srtParams h.listener hlat]
  have hmode : modeOf x host ps = d.srtMode := by
    have hsame : (lifted x ps).srtMode = d.srtMode := by rw [hlift]
    rw [modeOf, if_neg h.bare, ← hsame]
    rfl
  refine ⟨_, hread, ⟨?_, hmode, ?_, ?_, ?_⟩⟩
  · rw [h.url, addressBase_addressText h.mark, stored, String.toList_ofList, baseText,
      if_neg h.bare, addressBase_addressText h.mark]
  · rw [stored]
    by_cases hm : d.srtMode = .listener
    · rw [if_pos (hmode.trans hm), h.listener hm]
    · rw [if_neg fun hc => hm (hmode.symm.trans hc), hlift]
  · rw [stored, hlift]
  · rw [stored, hlift]

/-- The names in the query of an address, in lower case. -/
def keysOf (url : String) : List (List Char) :=
  (splitQuery (addressQuery url.toList)).map fun p => lowerChars p.key

lemma keysOf_eq {base : List Char} (hbase : '?' ∉ base) (hclean : ∀ p ∈ keep, p.Clean)
    {url : String} (hurl : url.toList = addressText base keep) :
    keysOf url = keep.map fun p => lowerChars p.key := by
  rw [keysOf, hurl, addressQuery_addressText hbase, splitQuery_joinQueryParams hclean]

/-- No name is written twice. -/
lemma nodup_srtParams (d : Destination) :
    ((srtParams d).map fun kv => lowerChars (writtenParam kv).key).Nodup := by
  have hnames : (srtParams d).map (fun kv => lowerChars (writtenParam kv).key) =
      ((if d.srtMode = .listener then ["mode", "listen_timeout"]
        else if d.streamKey ≠ "" then ["streamid"] else []) ++
        (if d.srtPassphrase ≠ "" then ["passphrase"] else []) ++ ["latency"]).map
          fun key => lowerChars key.toList := by
    rw [srtParams]
    split_ifs <;>
      simp only [List.map_append, List.map_cons, List.map_nil, writtenParam_mk]
  rw [hnames]
  split_ifs <;> decide

/-- Nothing is put on that an address may have kept, but for what a listener waits. -/
lemma keys_disjoint {p : QueryParam} (hp : p.kind = .other) {kv : String × String}
    (hkv : kv ∈ srtParams d) (hsame : lowerChars p.key = lowerChars (writtenParam kv).key) :
    d.srtMode = .listener ∧ lowerChars p.key = "listen_timeout".toList := by
  have hkind : (writtenParam kv).kind = .other := by
    rw [← hp, QueryParam.kind, QueryParam.kind, hsame]
  obtain rfl | ⟨rfl, hm⟩ | rfl | rfl | rfl := mem_srtParams hkv
  · exact absurd hkind (by decide)
  · exact ⟨hm, hsame⟩
  · rw [writtenParam_mk, kind_mk] at hkind
    exact absurd hkind (by decide)
  · rw [writtenParam_mk, kind_mk] at hkind
    exact absurd hkind (by decide)
  · rw [writtenParam_mk, kind_mk] at hkind
    exact absurd hkind (by decide)

/-- No name is twice on the address that is written. -/
lemma keys_nodup (h : Normalized d sch host keep)
    (hsecret : ¬(cutShort d.streamKey ∨ cutShort d.srtPassphrase)) (hnodup : (keysOf d.url).Nodup)
    (hwait : d.srtMode = .listener → "listen_timeout".toList ∉ keysOf d.url) :
    (keysOf (outputUrl d)).Nodup := by
  have hclean : ∀ p ∈ keep ++ (srtParams d).map writtenParam, p.Clean := by
    intro p hp
    rcases List.mem_append.mp hp with hp | hp
    · exact h.clean p hp
    · exact srtParams_clean hsecret p hp
  have hkept := keysOf_eq h.mark h.clean h.url
  rw [hkept] at hnodup hwait
  rw [keysOf_eq h.mark hclean (outputUrl_eq h.protocol h.mark h.url), List.map_append,
    List.nodup_append, List.map_map]
  refine ⟨hnodup, nodup_srtParams d, ?_⟩
  rintro _ ha _ hb rfl
  obtain ⟨p, hp, rfl⟩ := List.mem_map.mp ha
  obtain ⟨kv, hkv, hsame⟩ := List.mem_map.mp hb
  obtain ⟨hm, hkey⟩ := keys_disjoint (h.other p hp) hkv hsame.symm
  rw [hkey] at ha
  exact hwait hm ha

end Read

/-! ### A latency that is pasted -/

/-- The address has one latency parameter, the number `v`, and no latency was given before. -/
structure Pasted (d : Destination) (v : ℤ) : Prop where
  protocol : protocolOf (trimFields d) = .srt
  unset : d.srtLatencyMs = 0
  param : ∃ before after p,
    splitQuery (addressQuery (trimText d.url).toList) = before ++ p :: after ∧
      p.kind = .latency ∧ p.value = (toString v).toList ∧ ∀ q ∈ before ++ after, q.kind ≠ .latency

lemma latencyFrom_of_ne {ps : List QueryParam} (h : ∀ q ∈ ps, q.kind ≠ .latency) (ms : ℤ) :
    latencyFrom ms ps = ms := by
  induction ps with
  | nil => rfl
  | cons p ps ih =>
      rw [latencyFrom_cons_of_ne p ps ms (h p List.mem_cons_self),
        ih fun q hq => h q (List.mem_cons_of_mem p hq)]

lemma latencyFrom_append (a b : List QueryParam) (ms : ℤ) :
    latencyFrom ms (a ++ b) = latencyFrom (latencyFrom ms a) b := by
  induction a generalizing ms with
  | nil => rfl
  | cons p a ih => exact ih _

/-- What is stored of a latency that was pasted. -/
lemma Pasted.latency {d d' : Destination} {v : ℤ} (h : Pasted d v) (hd' : normalize d = some d') :
    protocolOf d' = .srt ∧ d'.srtLatencyMs =
      if v < -2 ^ 63 ∨ 2 ^ 63 ≤ v then 0 else latencyMs v := by
  obtain ⟨sch, r, hurl, hs⟩ := protocolOf_eq_srt.mp h.protocol
  obtain ⟨before, after, p, hps, hkind, hvalue, hothers⟩ := h.param
  have hurl' : (trimText d.url).toList = sch ++ r := hurl
  have hread := normalize_srt hurl' hs
  by_cases hr : hostOf r = []
  · rw [hd', if_pos hr] at hread
    exact absurd hread (by simp)
  · rw [hd', if_neg hr, Option.some_inj] at hread
    rw [hurl', hs.query_append] at hps
    refine ⟨?_, ?_⟩
    · obtain ⟨sch', host', hbase, hs', -⟩ := exists_baseText hs (isHost_hostOf hr)
      refine protocolOf_eq_srt.mpr ⟨sch', addressText host' (keptParams
        (splitQuery (addressQuery r))), ?_, hs'⟩
      rw [hread, stored, String.toList_ofList, hbase, addressText_append]
    · have hbefore := latencyFrom_of_ne (fun q hq => hothers q (List.mem_append_left _ hq)) 0
      have hlat : d'.srtLatencyMs = latencyFrom d.srtLatencyMs (before ++ p :: after) := by
        rw [hread, hps]
        rfl
      rw [hlat, h.unset, latencyFrom_append, hbefore, latencyFrom, if_pos ⟨hkind, rfl⟩,
        latencyFrom_of_ne fun q hq => hothers q (List.mem_append_right _ hq), hvalue,
        stoll_toString]
      split_ifs <;> rfl

/-! ### What an address over SRT means -/

/-- Over SRT, of a destination that `normalize` leaves alone and `validate` accepts: no name is
twice on the address that is written, if none is on the one that was typed and a listener was told
no time to wait; and the address that is written, typed anew, gives everything back.  A latency
that is pasted into an address that is accepted otherwise is accepted if it is 0 or between 20 and
8000 in whole milliseconds, as far as these fit, and if it is no number that fits anywhere. -/
theorem address_returns :
    (∀ d, normalize d = some d → validate d = "" → protocolOf d = .srt →
      ((keysOf d.url).Nodup → (d.srtMode = .listener → "listen_timeout".toList ∉ keysOf d.url) →
        (keysOf (outputUrl d)).Nodup) ∧
      ∃ d', normalize { url := outputUrl d } = some d' ∧ Returns d d') ∧
    ∀ d d' v, Pasted d v → normalize d = some d' → validate { d' with srtLatencyMs := 0 } = "" →
      (-2 ^ 31 ≤ v.tdiv 1000 → v.tdiv 1000 < 2 ^ 31 →
        (validate d' = "" ↔ v.tdiv 1000 = 0 ∨ (20 ≤ v.tdiv 1000 ∧ v.tdiv 1000 ≤ 8000))) ∧
      (v < -2 ^ 63 ∨ 2 ^ 63 ≤ v → validate d' = "") := by
  refine ⟨fun d hfix hok hsrt => ?_, fun d d' v hv hd' hok => ?_⟩
  · obtain ⟨sch, host, keep, h⟩ := exists_normalized hfix hsrt
    obtain ⟨hfields, hlat⟩ := (validate_srt_iff hsrt).mp hok
    exact ⟨keys_nodup h hfields.secrets, returns_of_normalized h hfields.secrets hlat⟩
  · obtain ⟨hsrt, hlat⟩ := hv.latency hd'
    have hfields : SrtOk d' := by
      have h0 := ((validate_srt_iff (d := { d' with srtLatencyMs := 0 }) hsrt).mp hok).1
      exact ⟨h0.name, h0.room, h0.url, h0.delay, h0.port, h0.range, h0.host, h0.secrets,
        h0.passphrase⟩
    have hiff : validate d' = "" ↔
        ¬(d'.srtLatencyMs ≠ 0 ∧ (d'.srtLatencyMs < 20 ∨ 8000 < d'.srtLatencyMs)) := by
      rw [validate_srt_iff hsrt]
      exact ⟨fun h => h.2, fun h => ⟨hfields, h⟩⟩
    rw [hiff, hlat]
    refine ⟨fun hlow hhigh => ?_, fun hover => ?_⟩
    · have hfits : ¬(v < -2 ^ 63 ∨ 2 ^ 63 ≤ v) := by
        have hdiv := Int.mul_tdiv_add_tmod v 1000
        have hmod := Int.tmod_lt_of_pos v (by decide : (0 : ℤ) < 1000)
        have hmod' := Int.lt_tmod_of_pos v (by decide : (0 : ℤ) < 1000)
        omega
      have hms : latencyMs v = v.tdiv 1000 := Int.bmod_eq_of_le (by
        rw [kUsPerMs]
        omega) (by
        rw [kUsPerMs]
        omega)
      rw [if_neg hfits, hms]
      omega
    · rw [if_pos hover]
      simp

/-- A destination with a key, a latency and a parameter of the operator's own. -/
def keyedDestination : Destination where
  name := "n"
  roomId := "r"
  url := "srt://h:9?x=1"
  streamKey := "k"
  srtLatencyMs := 120

/-- Its address, and a latency of two seconds. -/
theorem address_returns_keyed :
    ((keysOf (outputUrl keyedDestination)).Nodup ∧
      ∃ d', normalize { url := outputUrl keyedDestination } = some d' ∧ d'.srtLatencyMs = 120) ∧
    validate { name := "n", roomId := "r", url := "srt://h:9", srtLatencyMs := 2000 } = "" := by
  obtain ⟨hkeys, d', hd', hback⟩ := address_returns.1 keyedDestination (by decide +kernel)
    (by decide +kernel)
    (by simp [keyedDestination, protocolOf, textStartsWith, lower, kSrtScheme])
  refine ⟨⟨hkeys (by decide +kernel) (by simp [keyedDestination]), d', hd', hback.latency⟩, ?_⟩
  have hpasted : Pasted { name := "n", roomId := "r", url := "srt://h:9?latency=2000000" }
      2000000 :=
    ⟨by decide +kernel, rfl, [], [], ⟨"latency".toList, "2000000".toList⟩, by decide +kernel,
      by decide +kernel, by decide +kernel, by decide⟩
  exact ((address_returns.2 _ _ _ hpasted (by decide +kernel) (by decide +kernel)).1
    (by decide) (by decide)).mpr (by decide)

/-- What the operator's own query has twice stays on it twice. -/
theorem address_repeats :
    ¬∀ d, normalize d = some d → validate d = "" → protocolOf d = .srt →
      (keysOf (outputUrl d)).Nodup := by
  intro h
  have htwice := h { name := "n", roomId := "r", url := "srt://h:9?x=1&x=2" }
    (by decide +kernel) (by decide +kernel) (by simp [protocolOf, textStartsWith, lower, kSrtScheme])
  exact absurd htwice (by decide +kernel)

end Multisite

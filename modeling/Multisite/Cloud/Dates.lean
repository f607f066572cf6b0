import Multisite.Cloud.Identity
import Multisite.Lib.Calendar
import Multisite.Lib.Digits

/-!
The two dates that are read by hand: the one a store sends with every answer (`http_date.cpp`) and
the one the collector says credentials end at (`cloud_parse_iso8601_ms`).

* `daysFromCivil_next`, `httpDaysFromCivil_eq`: both counts of days advance by one a day;
* `parseHttpDateMs_text`, `cloudParseIso8601Ms_text`: how the two texts are read;
* `dates_to_instants`: a date is read as the instant it is, counted day by day.
-/

namespace Multisite

open Lib

/-! ### Reading an HTTP date -/

/-- An `unsigned`. -/
def u32 (n : ℤ) : ℤ := n % 2 ^ 32

/-- `month_from`. -/
def monthFrom (m : List Char) : ℤ :=
  let k := [['J', 'a', 'n'], ['F', 'e', 'b'], ['M', 'a', 'r'], ['A', 'p', 'r'], ['M', 'a', 'y'],
    ['J', 'u', 'n'], ['J', 'u', 'l'], ['A', 'u', 'g'], ['S', 'e', 'p'], ['O', 'c', 't'],
    ['N', 'o', 'v'], ['D', 'e', 'c']]
  match k.idxOf? m with
  | some i => i + 1
  | none => 0

/-- `days_from_civil` of `http_date.cpp`: the months and days are unsigned. -/
def httpDaysFromCivil (y m d : ℤ) : ℤ :=
  let y := y - if m ≤ 2 then 1 else 0
  let era := (if 0 ≤ y then y else y - 399).tdiv 400
  let yoe := u32 (y - era * 400)
  let doy := u32 (u32 (153 * u32 (m + if 2 < m then -3 else 9) + 2) / 5 + d - 1)
  let doe := u32 (yoe * 365 + yoe / 4 - yoe / 100 + doy)
  era * 146097 + doe - 719468

/-- The lambda `num` of `parse_http_date_ms`: so many digits, or -1. -/
def httpNumber (s : List Char) (at' len : ℕ) : ℤ :=
  let digits := (s.drop at').take len
  if digits.length = len ∧ digits.all (fun c => decide ('0' ≤ c ∧ c ≤ '9')) then
    digits.foldl (fun v c => v * 10 + (c.toNat - '0'.toNat : ℕ)) 0
  else -1

/-- `parse_http_date_ms`: the places are counted from where the date begins. -/
def parseHttpDateMs (s : String) : Option ℤ :=
  let start :=
    match s.toList.findIdx? (· = ',') with
    | some comma => s.toList.drop (comma + 1)
    | none => s.toList
  let s := start.dropWhile (· = ' ')
  if s.length < 19 then none
  else
    let day := httpNumber s 0 2
    let month := monthFrom ((s.drop 3).take 3)
    let year := httpNumber s 7 4
    let hh := httpNumber s 12 2
    let mm := httpNumber s 15 2
    let ss := httpNumber s 18 2
    if day < 1 ∨ s[2]? ≠ some ' ' then none
    else if month = 0 ∨ s[6]? ≠ some ' ' then none
    else if year < 0 ∨ s[11]? ≠ some ' ' then none
    else if hh < 0 ∨ s[14]? ≠ some ':' then none
    else if mm < 0 ∨ s[17]? ≠ some ':' then none
    else if ss < 0 then none
    else
      some (((httpDaysFromCivil year month day * 24 + hh) * 60 + mm) * 60 * 1000 + ss * 1000)

/-! ### The counts of days -/

/-- The era of a year. -/
lemma era_eq (y : ℤ) : (if 0 ≤ y then y else y - 399).tdiv 400 = y / 400 := by
  split
  · rename_i h
    exact Int.tdiv_eq_ediv_of_nonneg h
  · rename_i h
    rw [show y - 399 = -(399 - y) by ring, Int.neg_tdiv, Int.tdiv_eq_ediv_of_nonneg (by omega)]
    omega

/-- The count in one formula: a year that begins in March, and the days of that year. -/
lemma daysFromCivil_eq {y m : ℤ} (d : ℤ) (hm : 1 ≤ m) (hm' : m ≤ 12) :
    daysFromCivil y m d =
      365 * (y - if m ≤ 2 then 1 else 0) + (y - if m ≤ 2 then 1 else 0) / 4 -
        (y - if m ≤ 2 then 1 else 0) / 100 + (y - if m ≤ 2 then 1 else 0) / 400 +
        (153 * (m + if 2 < m then -3 else 9) + 2) / 5 + d - 719469 := by
  rw [daysFromCivil]
  set y' := y - if m ≤ 2 then 1 else 0
  have hmonth : 0 ≤ 153 * (m + if 2 < m then -3 else 9) + 2 := by
    split <;> omega
  have hyoe : 0 ≤ y' - y' / 400 * 400 := by omega
  rw [era_eq, Int.tdiv_eq_ediv_of_nonneg hmonth, Int.tdiv_eq_ediv_of_nonneg hyoe,
    Int.tdiv_eq_ediv_of_nonneg hyoe]
  omega

/-- **The count advances by one a day.** -/
lemma daysFromCivil_next {d : Date} (hd : d.Valid) :
    daysFromCivil d.next.year d.next.month d.next.day = daysFromCivil d.year d.month d.day + 1 := by
  have hn := hd.next
  rw [daysFromCivil_eq _ (by have := hn.one_le_month; omega) (by have := hn.month_le; omega),
    daysFromCivil_eq _ (by have := hd.one_le_month; omega) (by have := hd.month_le; omega)]
  clear hn
  obtain ⟨y, m, k⟩ := d
  obtain ⟨hm, hm', hk, hk'⟩ := hd
  dsimp only at hm hm' hk hk' ⊢
  unfold Date.next
  dsimp only
  split
  · dsimp only
    push_cast
    ring
  · rename_i hlast
    obtain rfl : k = daysIn y m := by omega
    by_cases hfeb : m = 2
    · subst hfeb
      -- the year of the count begins anew
      by_cases hleap : IsLeap y
      · have hlen : daysIn y 2 = 29 := if_pos hleap
        rw [IsLeap] at hleap
        simp only [hlen, Nat.reduceLT, ↓reduceIte]
        omega
      · have hlen : daysIn y 2 = 28 := if_neg hleap
        rw [IsLeap] at hleap
        simp only [hlen, Nat.reduceLT, ↓reduceIte]
        omega
    · interval_cases m <;> first | exact absurd rfl hfeb | (simp [daysIn]; try omega)

lemma u32_eq {n : ℤ} (h : 0 ≤ n) (h' : n < 4294967296) : u32 n = n :=
  Int.emod_eq_of_lt h h'

/-- With its unsigned numbers the other count is the same. -/
lemma httpDaysFromCivil_eq {y m d : ℤ} (hm : 1 ≤ m) (hm' : m ≤ 12) (hd : 1 ≤ d) (hd' : d ≤ 31) :
    httpDaysFromCivil y m d = daysFromCivil y m d := by
  rw [daysFromCivil_eq d hm hm', httpDaysFromCivil]
  set y' := y - if m ≤ 2 then 1 else 0
  have hmonth : 0 ≤ (m + if 2 < m then -3 else 9) ∧ (m + if 2 < m then -3 else 9) ≤ 11 := by
    split <;> omega
  set mp := m + if 2 < m then -3 else 9
  have hyoe : u32 (y' - y' / 400 * 400) = y' - y' / 400 * 400 := u32_eq (by omega) (by omega)
  have hmp : u32 mp = mp := u32_eq hmonth.1 (by omega)
  have hdays : u32 (153 * mp + 2) = 153 * mp + 2 := u32_eq (by omega) (by omega)
  have hdoy : u32 ((153 * mp + 2) / 5 + d - 1) = (153 * mp + 2) / 5 + d - 1 :=
    u32_eq (by omega) (by omega)
  rw [era_eq, hyoe, hmp, hdays, hdoy, u32_eq (by omega) (by omega)]
  omega

/-! ### The texts of a date -/

/-- A time of day. -/
structure TimeOfDay where
  hour : Fin 24
  minute : Fin 60
  second : Fin 60
  deriving DecidableEq, Repr

/-- The milliseconds since midnight. -/
def TimeOfDay.ms (t : TimeOfDay) : ℤ :=
  ((t.hour.val * 60 + t.minute.val) * 60 + t.second.val) * 1000

/-- A number with leading zeros. -/
def padded (len v : ℕ) : List Char := (digits 10 len v).map Nat.digitChar

/-- The name of a month. -/
def monthName (month : ℕ) : List Char :=
  ["Jan", "Feb", "Mar", "Apr", "May", "Jun", "Jul", "Aug", "Sep", "Oct", "Nov",
    "Dec"].getD (month - 1) "" |>.toList

/-- `HH:MM:SS`. -/
def clockText (t : TimeOfDay) : List Char :=
  padded 2 t.hour ++ ':' :: padded 2 t.minute ++ ':' :: padded 2 t.second

/-- `DD Mon YYYY HH:MM:SS GMT`. -/
def dateText (d : Date) (t : TimeOfDay) : List Char :=
  padded 2 d.day ++ ' ' :: monthName d.month ++ ' ' :: padded 4 d.year.toNat ++
    ' ' :: clockText t ++ [' ', 'G', 'M', 'T']

/-- The form of RFC 1123, after a weekday and a comma or without. -/
def rfc1123 (weekday : Option String) (d : Date) (t : TimeOfDay) : String :=
  String.ofList <| (weekday.elim [] fun w => w.toList ++ [',', ' ']) ++ dateText d t

/-- `YYYY-MM-DDTHH:MM:SS`, with the digits of a fraction if there are any, and `Z`. -/
def iso8601 (separator : Char) (fraction : List ℕ) (d : Date) (t : TimeOfDay) : String :=
  String.ofList <| padded 4 d.year.toNat ++ '-' :: padded 2 d.month ++ '-' :: padded 2 d.day ++
    separator :: clockText t ++
    (if fraction = [] then [] else '.' :: fraction.map Nat.digitChar) ++ ['Z']

/-- The whole milliseconds of a fraction of a second. -/
def fractionMs (fraction : List ℕ) : ℤ :=
  (ofDigits 10 fraction * 1000 / 10 ^ fraction.length : ℕ)

/-! ### Reading the digits -/

lemma digitChar_facts {d : ℕ} (h : d < 10) :
    ('0' ≤ d.digitChar ∧ d.digitChar ≤ '9') ∧ d.digitChar.toNat - '0'.toNat = d := by
  have hall : ∀ d < 10, ('0' ≤ d.digitChar ∧ d.digitChar ≤ '9') ∧
      d.digitChar.toNat - '0'.toNat = d := by decide
  exact hall d h

/-- The loop over digits. -/
lemma foldl_digitChar {l : List ℕ} (h : ∀ d ∈ l, d < 10) :
    (l.map Nat.digitChar).foldl (fun v c => v * 10 + (c.toNat - '0'.toNat)) 0 = ofDigits 10 l := by
  rw [List.foldl_map, ofDigits]
  refine List.foldl_ext _ _ _ fun v d hd => ?_
  rw [(digitChar_facts (h d hd)).2]

lemma foldl_digitChar_int {l : List ℕ} (h : ∀ d ∈ l, d < 10) :
    (l.map Nat.digitChar).foldl (fun v c => v * 10 + ((c.toNat - '0'.toNat : ℕ) : ℤ)) 0 =
      (ofDigits 10 l : ℕ) := by
  rw [← foldl_digitChar h]
  exact List.foldl_hom Nat.cast fun v c => by push_cast; rfl

lemma all_padded (len v : ℕ) :
    (padded len v).all (fun c => decide ('0' ≤ c ∧ c ≤ '9')) = true := by
  rw [padded, List.all_map, List.all_eq_true]
  intro d hd
  exact decide_eq_true (digitChar_facts (lt_of_mem_digits (by decide) hd)).1

lemma foldl_padded {len v : ℕ} (hv : v < 10 ^ len) :
    (padded len v).foldl (fun v c => v * 10 + ((c.toNat - '0'.toNat : ℕ) : ℤ)) 0 = v := by
  rw [padded, foldl_digitChar_int fun d hd => lt_of_mem_digits (by decide) hd, ofDigits_digits,
    Nat.mod_eq_of_lt hv]

/-- Both of them read a number that stands where they look. -/
lemma httpNumber_eq {s : List Char} {at' len v : ℕ} (h : (s.drop at').take len = padded len v)
    (hv : v < 10 ^ len) : httpNumber s at' len = v := by
  have hlen : (padded len v).length = len := by rw [padded, List.length_map, length_digits]
  rw [httpNumber, h, if_pos ⟨hlen, all_padded len v⟩, foldl_padded hv]

lemma isoNumber_eq {s : List Char} {at' len v : ℕ} (h : (s.drop at').take len = padded len v)
    (hs : at' + len ≤ s.length) (hv : v < 10 ^ len) : isoNumber s at' len = some (v : ℤ) := by
  rw [isoNumber, h, if_pos ⟨hs, all_padded len v⟩, foldl_padded hv]

/-- The name of a month has three letters, and is that of no other. -/
lemma monthName_cases {m : ℕ} (hm : 1 ≤ m) (hm' : m ≤ 12) :
    ∃ a b c, monthName m = [a, b, c] ∧ monthFrom [a, b, c] = m ∧ a ≠ ',' ∧ b ≠ ',' ∧ c ≠ ',' := by
  interval_cases m <;> exact ⟨_, _, _, rfl, rfl, by decide, by decide, by decide⟩

/-- The milliseconds of a fraction are in its first three digits. -/
lemma whole_ms {l : List ℕ} (h : ∀ d ∈ l, d < 10) :
    ofDigits 10 l * 1000 / 10 ^ l.length =
      ofDigits 10 (l.take 3) * 10 ^ (3 - (l.take 3).length) := by
  by_cases hlen : l.length ≤ 3
  · have hpow : 10 ^ (3 - l.length) * 10 ^ l.length = 1000 := by
      rw [← pow_add, Nat.sub_add_cancel hlen]
      rfl
    rw [List.take_of_length_le hlen, ← hpow, ← mul_assoc, Nat.mul_div_cancel _ (by positivity)]
  · have hfirst : (l.take 3).length = 3 := by
      rw [List.length_take]
      omega
    have hrest := ofDigits_lt fun d hd => h d (List.mem_of_mem_drop (i := 3) hd)
    have hpow : 10 ^ l.length = 10 ^ (l.drop 3).length * 1000 := by
      rw [List.length_drop, show 1000 = 10 ^ 3 from rfl, ← pow_add]
      congr 1
      omega
    rw [hpow, Nat.mul_div_mul_right _ _ (by decide), hfirst]
    have hsplit : ofDigits 10 l =
        10 ^ (l.drop 3).length * ofDigits 10 (l.take 3) + ofDigits 10 (l.drop 3) := by
      rw [mul_comm, ← ofDigits_append, List.take_append_drop]
    rw [hsplit, Nat.mul_add_div (Nat.pow_pos (by decide)), Nat.div_eq_of_lt hrest]
    simp

/-- Three digits of a fraction are read, or as many as there are. -/
lemma isoFraction_eq {s : List Char} {fraction : List ℕ} (hlt : ∀ d ∈ fraction, d < 10)
    (hdot : s[19]? = some '.') (h : s.drop 20 = fraction.map Nat.digitChar ++ ['Z']) :
    isoFraction s = fractionMs fraction := by
  have hread : ((s.drop 20).take 3).takeWhile (fun c => decide ('0' ≤ c ∧ c ≤ '9')) =
      (fraction.take 3).map Nat.digitChar := by
    have hall : ∀ c ∈ (fraction.take 3).map Nat.digitChar, decide ('0' ≤ c ∧ c ≤ '9') = true := by
      intro c hc
      obtain ⟨d, hd, rfl⟩ := List.mem_map.mp hc
      exact decide_eq_true (digitChar_facts (hlt d (List.mem_of_mem_take hd))).1
    rw [h, List.take_append, ← List.map_take, List.takeWhile_append_of_pos hall]
    -- what may follow the digits is the letter
    rcases 3 - (fraction.map Nat.digitChar).length with - | n
    · simp
    · simp
  rw [isoFraction, if_pos hdot, hread, fractionMs, whole_ms hlt]
  dsimp only
  rw [foldl_digitChar fun d hd => hlt d (List.mem_of_mem_take hd), List.length_map]
  push_cast
  rfl

/-! ### Reading a date -/

lemma comma_not_mem_padded (len v : ℕ) : ',' ∉ padded len v := by
  intro h
  have := List.all_eq_true.mp (all_padded len v) _ h
  exact absurd this (by decide)

lemma comma_not_mem_dateText {d : Date} (hd : d.Valid) (t : TimeOfDay) : ',' ∉ dateText d t := by
  obtain ⟨a, b, c, hname, -, ha, hb, hc⟩ := monthName_cases hd.one_le_month hd.month_le
  simp [dateText, clockText, hname, comma_not_mem_padded, ha.symm, hb.symm, hc.symm]

/-- Where the date begins, after a weekday or without one. -/
lemma rfc1123_start {d : Date} (hd : d.Valid) (t : TimeOfDay) {weekday : Option String}
    (hw : ∀ w ∈ weekday, ',' ∉ w.toList) :
    (match (rfc1123 weekday d t).toList.findIdx? (· = ',') with
      | some comma => (rfc1123 weekday d t).toList.drop (comma + 1)
      | none => (rfc1123 weekday d t).toList).dropWhile (· = ' ') = dateText d t := by
  have hfirst : (dateText d t).dropWhile (· = ' ') = dateText d t := by
    refine List.dropWhile_cons_of_neg ?_
    have := List.all_eq_true.mp (all_padded 2 d.day) (d.day / 10 % 10).digitChar (by
      simp [padded, digits])
    intro hspace
    rw [of_decide_eq_true hspace] at this
    exact absurd this (by decide)
  have hnone {l : List Char} (h : ',' ∉ l) : l.findIdx? (· = ',') = none :=
    List.findIdx?_eq_none_iff.mpr fun c hc => decide_eq_false fun heq => h (heq ▸ hc)
  rw [rfc1123, String.toList_ofList]
  cases weekday with
  | none => rw [Option.elim_none, List.nil_append, hnone (comma_not_mem_dateText hd t), hfirst]
  | some w =>
      have hcomma : (w.toList ++ [',', ' '] ++ dateText d t).findIdx? (· = ',') =
          some w.toList.length := by
        rw [List.append_assoc, List.findIdx?_append, hnone (hw w rfl)]
        simp [List.findIdx?_cons]
      rw [Option.elim_some, hcomma]
      dsimp only
      rw [List.append_assoc, List.drop_append, List.drop_of_length_le (by omega)]
      simpa using hfirst

/-- What stands where the numbers are looked for. -/
lemma dateText_fields {d : Date} (hd : d.Valid) (hy : 0 ≤ d.year) (hy' : d.year ≤ 9999)
    (t : TimeOfDay) :
    httpNumber (dateText d t) 0 2 = d.day ∧
      monthFrom (((dateText d t).drop 3).take 3) = d.month ∧
      httpNumber (dateText d t) 7 4 = d.year ∧ httpNumber (dateText d t) 12 2 = t.hour.val ∧
      httpNumber (dateText d t) 15 2 = t.minute.val ∧
      httpNumber (dateText d t) 18 2 = t.second.val := by
  obtain ⟨a, b, c, hname, hmonth, -⟩ := monthName_cases hd.one_le_month hd.month_le
  have hday := hd.day_le.trans (daysIn_le _ _)
  rw [dateText, hname]
  refine ⟨httpNumber_eq rfl (by omega), hmonth,
    (httpNumber_eq (v := d.year.toNat) rfl (by omega)).trans (Int.toNat_of_nonneg hy),
    httpNumber_eq rfl (by omega), httpNumber_eq rfl (by omega), httpNumber_eq rfl (by omega)⟩

/-- What stands between them. -/
lemma dateText_separators {d : Date} (hd : d.Valid) (t : TimeOfDay) :
    (dateText d t)[2]? = some ' ' ∧ (dateText d t)[6]? = some ' ' ∧
      (dateText d t)[11]? = some ' ' ∧ (dateText d t)[14]? = some ':' ∧
      (dateText d t)[17]? = some ':' ∧ ¬(dateText d t).length < 19 := by
  obtain ⟨a, b, c, hname, -⟩ := monthName_cases hd.one_le_month hd.month_le
  rw [dateText, hname]
  exact ⟨rfl, rfl, rfl, rfl, rfl, by simp [clockText, padded]⟩

/-- How an HTTP date is read. -/
lemma parseHttpDateMs_text {d : Date} (hd : d.Valid) (hy : 0 ≤ d.year) (hy' : d.year ≤ 9999)
    (t : TimeOfDay) {weekday : Option String} (hw : ∀ w ∈ weekday, ',' ∉ w.toList) :
    parseHttpDateMs (rfc1123 weekday d t) =
      some (daysFromCivil d.year d.month d.day * 86400000 + t.ms) := by
  obtain ⟨h0, h3, h7, h12, h15, h18⟩ := dateText_fields hd hy hy' t
  obtain ⟨e2, e6, e11, e14, e17, hlen⟩ := dateText_separators hd t
  have hm := hd.one_le_month
  have hm' := hd.month_le
  have hk := hd.one_le_day
  have hk' := hd.day_le.trans (daysIn_le _ _)
  rw [parseHttpDateMs, rfc1123_start hd t hw]
  generalize dateText d t = s at *
  dsimp only
  rw [h0, h3, h7, h12, h15, h18, e2, e6, e11, e14, e17, if_neg hlen, if_neg (by simp; omega),
    if_neg (by simp; omega), if_neg (by simp; omega), if_neg (by simp), if_neg (by simp),
    if_neg (by simp), httpDaysFromCivil_eq (by omega) (by omega) (by omega) (by omega),
    TimeOfDay.ms]
  congr 1
  ring

/-- What stands where the other one looks. -/
lemma isoText_fields {d : Date} (hd : d.Valid) (hy : 0 ≤ d.year) (hy' : d.year ≤ 9999)
    (t : TimeOfDay) (separator : Char) {rest : List Char} (hrest : rest ≠ []) {s : List Char}
    (hs : s = padded 4 d.year.toNat ++ '-' :: padded 2 d.month ++ '-' :: padded 2 d.day ++
      separator :: clockText t ++ rest) :
    isoNumber s 0 4 = some d.year ∧ isoNumber s 5 2 = some (d.month : ℤ) ∧
      isoNumber s 8 2 = some (d.day : ℤ) ∧ isoNumber s 11 2 = some (t.hour.val : ℤ) ∧
      isoNumber s 14 2 = some (t.minute.val : ℤ) ∧ isoNumber s 17 2 = some (t.second.val : ℤ) ∧
      ¬s.length < 20 := by
  have hday := hd.day_le.trans (daysIn_le _ _)
  have hmonth := hd.month_le
  have hlen : 20 ≤ s.length := by
    have := List.length_pos_iff.mpr hrest
    rw [hs]
    simp only [clockText, padded, List.length_append, List.length_cons, List.length_map,
      length_digits]
    omega
  have hyear : isoNumber s 0 4 = some ((d.year.toNat : ℕ) : ℤ) :=
    isoNumber_eq (by rw [hs]; rfl) (by omega) (by omega)
  rw [Int.toNat_of_nonneg hy] at hyear
  exact ⟨hyear, isoNumber_eq (by rw [hs]; rfl) (by omega) (by omega),
    isoNumber_eq (by rw [hs]; rfl) (by omega) (by omega),
    isoNumber_eq (by rw [hs]; rfl) (by omega) (by omega),
    isoNumber_eq (by rw [hs]; rfl) (by omega) (by omega),
    isoNumber_eq (by rw [hs]; rfl) (by omega) (by omega), by omega⟩

/-- How an ISO date is read. -/
lemma cloudParseIso8601Ms_text {d : Date} (hd : d.Valid) (hy : 0 ≤ d.year) (hy' : d.year ≤ 9999)
    (t : TimeOfDay) {separator : Char} (hsep : separator = 'T' ∨ separator = ' ')
    {fraction : List ℕ} (hlt : ∀ x ∈ fraction, x < 10) :
    cloudParseIso8601Ms (iso8601 separator fraction d t) =
      daysFromCivil d.year d.month d.day * 86400000 + t.ms + fractionMs fraction := by
  have hm := hd.one_le_month
  have hm' := hd.month_le
  have hk := hd.one_le_day
  have hk' := hd.day_le.trans (daysIn_le _ _)
  have hrest : (if fraction = [] then [] else '.' :: fraction.map Nat.digitChar) ++ ['Z'] ≠ [] :=
    List.append_ne_nil_of_right_ne_nil _ (List.cons_ne_nil _ _)
  have hs : (iso8601 separator fraction d t).toList = padded 4 d.year.toNat ++
      '-' :: padded 2 d.month ++ '-' :: padded 2 d.day ++ separator :: clockText t ++
      ((if fraction = [] then [] else '.' :: fraction.map Nat.digitChar) ++ ['Z']) := by
    rw [iso8601, String.toList_ofList, List.append_assoc]
  obtain ⟨h0, h5, h8, h11, h14, h17, hlen⟩ := isoText_fields hd hy hy' t separator hrest hs
  have hsigns : (iso8601 separator fraction d t).toList[4]? = some '-' ∧
      (iso8601 separator fraction d t).toList[7]? = some '-' ∧
      (iso8601 separator fraction d t).toList[10]? = some separator ∧
      (iso8601 separator fraction d t).toList[13]? = some ':' ∧
      (iso8601 separator fraction d t).toList[16]? = some ':' := by
    rw [hs]
    exact ⟨rfl, rfl, rfl, rfl, rfl⟩
  have hfrac : isoFraction (iso8601 separator fraction d t).toList = fractionMs fraction := by
    by_cases hnone : fraction = []
    · rw [isoFraction, if_neg]
      · rw [hnone]
        rfl
      · rw [hs, if_pos hnone]
        exact fun h => absurd (Option.some.inj h) (by decide)
    · refine isoFraction_eq hlt ?_ ?_
      · rw [hs, if_neg hnone]
        rfl
      · rw [hs, if_neg hnone]
        rfl
  obtain ⟨e4, e7, e10, e13, e16⟩ := hsigns
  rw [cloudParseIso8601Ms]
  generalize (iso8601 separator fraction d t).toList = s at *
  rw [if_neg hlen, h0, h5, h8, h11, h14, h17]
  dsimp only
  rw [e4, e7, e10, e13, e16, hfrac, if_neg (by simp; tauto), if_neg (by omega), TimeOfDay.ms]
  ring

/-- A date is read as the instant it is: as many days from the epoch as there are when they are
counted one by one, and the time of day. -/
theorem dates_to_instants :
    (∀ d : Date, d.Valid → ∃ n, DayNumber d n ∧ (∀ m, DayNumber d m → m = n) ∧
      daysFromCivil d.year d.month d.day = n ∧ httpDaysFromCivil d.year d.month d.day = n) ∧
    ∀ (d : Date) (t : TimeOfDay) (n : ℤ), d.Valid → 0 ≤ d.year → d.year ≤ 9999 → DayNumber d n →
      (∀ weekday : Option String, (∀ w ∈ weekday, ',' ∉ w.toList) →
        parseHttpDateMs (rfc1123 weekday d t) = some (n * 86400000 + t.ms)) ∧
      ∀ (separator : Char) (fraction : List ℕ), separator = 'T' ∨ separator = ' ' →
        (∀ x ∈ fraction, x < 10) →
        cloudParseIso8601Ms (iso8601 separator fraction d t) =
          n * 86400000 + t.ms + fractionMs fraction := by
  have hcount {d : Date} {n : ℤ} (h : DayNumber d n) :
      daysFromCivil d.year d.month d.day = n :=
    @DayNumber.eq_of_advances (fun d => daysFromCivil d.year d.month d.day) rfl
      (fun d hd => daysFromCivil_next hd) d n h
  refine ⟨fun d hd => ?_, fun d t n hd hy hy' h => ⟨fun weekday hw => ?_, ?_⟩⟩
  · obtain ⟨n, h⟩ := exists_dayNumber hd
    have := hd.one_le_month
    have := hd.month_le
    have := hd.one_le_day
    have := hd.day_le.trans (daysIn_le _ _)
    refine ⟨n, h, fun m hm => (hcount hm).symm.trans (hcount h), hcount h, ?_⟩
    rw [httpDaysFromCivil_eq (by omega) (by omega) (by omega) (by omega), hcount h]
  · rw [parseHttpDateMs_text hd hy hy' t hw, hcount h]
  · intro separator fraction hsep hlt
    rw [cloudParseIso8601Ms_text hd hy hy' t hsep hlt, hcount h]

/-- Noon on a leap day. -/
theorem dates_to_instants_leap :
    parseHttpDateMs "Sat, 29 Feb 2020 12:00:00 GMT" = some 1582977600000 ∧
      cloudParseIso8601Ms "2020-02-29T12:00:00.5Z" = 1582977600500 := by
  obtain ⟨n, h, -, hn, -⟩ := dates_to_instants.1 ⟨2020, 2, 29⟩ (by decide)
  obtain rfl : n = 18321 := hn.symm.trans (by decide)
  obtain ⟨hhttp, hiso⟩ := dates_to_instants.2 ⟨2020, 2, 29⟩ ⟨12, 0, 0⟩ 18321 (by decide)
    (by decide) (by decide) h
  exact ⟨hhttp (some "Sat") (by decide), hiso 'T' [5] (Or.inl rfl) (by decide)⟩

end Multisite

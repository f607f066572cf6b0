import Multisite.Http.Numbers
import Multisite.Lib.Search

/-!
Reading a listing (`s3_list_xml.cpp`): a search for the names of tags in the XML of a
ListObjectsV2 response.

A response is a list of tokens here, as the store writes it: tags, with what they carry, and the
bytes between them.  `tag_text` goes on from where the element it found ends, so a place to search
from is what is left of the text.

* `xmlDecode_xmlEscape`: what is escaped is read back;
* `firstIn_open`, `firstIn_close`: a search for a tag goes from token to token;
* `tagText_element`, `tagText_none`: what `tag_text` finds of an element;
* `parseList_whole`: what is listed is what is read.
-/

namespace Multisite

open Lib Http

/-! ### The parser -/

/-- What may stand after the name of a tag. -/
def endsTagName (c : UInt8) : Bool :=
  c = 62 || c = 32 || c = 47 || c = 9 || c = 10 || c = 13

/-- `tag_text`: the text of the first element of that name, and what stands after it. -/
def tagText (tag xml : Bytes) : Option (Bytes × Bytes) :=
  match _ha : firstIn (60 :: tag) xml with
  | none => none
  | some a =>
      let rest := xml.drop (a + (tag.length + 1))
      let head := rest.takeWhile (· ≠ 62)
      let body := rest.drop (head.length + 1)
      if 62 ∉ rest then none
      -- an element that closes itself has no text
      else if (60 :: (tag ++ head)).getLast? = some 47 then some ([], body)
      -- a longer name
      else if rest.head?.any endsTagName = false then tagText tag rest
      else
        match firstIn (60 :: 47 :: (tag ++ [62])) body with
        | none => none
        | some b => some (body.take b, body.drop (b + (tag.length + 3)))
termination_by xml.length
decreasing_by
  have := add_length_le_of_firstIn _ha
  simp only [List.length_cons, List.length_drop] at this ⊢
  omega

/-- What is left after an element is less than there was. -/
lemma tagText_length (tag xml : Bytes) {text left : Bytes}
    (h : tagText tag xml = some (text, left)) : left.length < xml.length := by
  induction hn : xml.length using Nat.strong_induction_on generalizing xml with
  | _ n ih =>
      rw [tagText] at h
      split at h
      · exact absurd h (by simp)
      · rename_i a ha
        have hlen := add_length_le_of_firstIn ha
        rw [List.length_cons] at hlen
        dsimp only at h
        split at h
        · exact absurd h (by simp)
        · split at h
          · obtain ⟨-, rfl⟩ := Prod.mk.inj (Option.some.inj h)
            simp only [List.length_drop]
            omega
          · split at h
            · have hlt : (xml.drop (a + (tag.length + 1))).length < n := by
                rw [List.length_drop]
                omega
              exact (ih _ hlt _ h rfl).trans hlt
            · split at h
              · exact absurd h (by simp)
              · obtain ⟨-, rfl⟩ := Prod.mk.inj (Option.some.inj h)
                simp only [List.length_drop]
                omega

/-- `for_each_block`: the bodies of the elements of that name, one after the other. -/
def forEachBlock (tag xml : Bytes) : List Bytes :=
  match _h : tagText tag xml with
  | none => []
  | some (body, left) => body :: forEachBlock tag left
termination_by xml.length
decreasing_by exact tagText_length tag xml _h

/-- What an entity stands for, if it is one. -/
def entityOf (ent : Bytes) : Option UInt8 :=
  if ent = bytesOf "amp" then some 38
  else if ent = bytesOf "lt" then some 60
  else if ent = bytesOf "gt" then some 62
  else if ent = bytesOf "quot" then some 34
  else if ent = bytesOf "apos" then some 39
  else if ent.head? = some 35 then
    let hex := ent.take 2 = [35, 120] ∨ ent.take 2 = [35, 88]
    let cp := if hex then strtoll 16 (ent.drop 2) else strtoll 10 (ent.drop 1)
    -- only Latin-1 is given out
    if 0 < cp ∧ cp < 256 then some (UInt8.ofNat cp.toNat) else none
  else none

/-- `xml_decode`; a mark that begins no entity stands for itself. -/
def xmlDecode : Bytes → Bytes
  | [] => []
  | c :: rest =>
      let ent := rest.takeWhile (· ≠ 59)
      if c ≠ 38 then c :: xmlDecode rest
      else if 59 ∉ rest ∨ 10 < ent.length + 1 then 38 :: xmlDecode rest
      else
        match entityOf ent with
        | some d => d :: xmlDecode (rest.drop (ent.length + 1))
        | none => 38 :: xmlDecode rest
termination_by s => s.length

/-- `ListEntry`. -/
structure ListEntry where
  key : Bytes := []
  size : ℤ := -1
  lastModified : Bytes := []
  deriving DecidableEq, Repr

/-- `ListResult`, as far as a response says. -/
structure ListResult where
  error : Bytes := []
  commonPrefixes : List Bytes := []
  keys : List ListEntry := []
  truncated : Bool := false
  nextContinuationToken : Bytes := []
  deriving DecidableEq, Repr

/-- The text that `tag_text` leaves in a string: what was there, where there is no such element. -/
def textIn (tag xml was : Bytes) : Bytes := ((tagText tag xml).map (·.1)).getD was

/-- What a block of `CommonPrefixes` gives. -/
def prefixOf (block : Bytes) : Option Bytes :=
  let p := textIn (bytesOf "Prefix") block []
  if p = [] then none else some (xmlDecode p)

/-- What a block of `Contents` gives. -/
def entryOf (block : Bytes) : Option ListEntry :=
  let key := textIn (bytesOf "Key") block []
  if key = [] then none
  else
    let sz := textIn (bytesOf "Size") block []
    some
      { key := xmlDecode key
        size := if sz = [] then -1 else strtoll 10 sz
        lastModified := textIn (bytesOf "LastModified") block [] }

/-- `parse_list_objects_v2`, into a fresh result. -/
def parseListObjectsV2 (xml : Bytes) : Bool × ListResult :=
  if (firstIn (bytesOf "<Error") xml).isSome then
    let code := textIn (bytesOf "Code") xml []
    let msg := textIn (bytesOf "Message") xml []
    let error := if code = [] then bytesOf "S3 error response" else xmlDecode code
    (false, { error := if msg = [] then error else error ++ bytesOf ": " ++ xmlDecode msg })
  else if (firstIn (bytesOf "<ListBucketResult") xml).isNone then
    (false, { error := bytesOf "not a ListObjectsV2 response" })
  else
    let trunc := textIn (bytesOf "IsTruncated") xml []
    let truncated := (bytesOf "true").isPrefixOf trunc || (bytesOf "TRUE").isPrefixOf trunc
    let token := xmlDecode (textIn (bytesOf "NextContinuationToken") xml [])
    (true,
      { commonPrefixes := (forEachBlock (bytesOf "CommonPrefixes") xml).filterMap prefixOf
        keys := (forEachBlock (bytesOf "Contents") xml).filterMap entryOf
        -- a store that says there is more, and not where, is finished with
        truncated := truncated && token ≠ []
        nextContinuationToken := token })

/-! ### What a store writes -/

/-- The five predefined entities. -/
def xmlEscape (s : Bytes) : Bytes :=
  s.flatMap fun c =>
    if c = 38 then bytesOf "&amp;"
    else if c = 60 then bytesOf "&lt;"
    else if c = 62 then bytesOf "&gt;"
    else if c = 34 then bytesOf "&quot;"
    else if c = 39 then bytesOf "&apos;"
    else [c]

/-- A piece of XML: a byte between tags, or a tag with what it carries after its name. -/
inductive XmlToken where
  | char (c : UInt8)
  | opening (name attrs : Bytes)
  | closing (name : Bytes)
  | empty (name attrs : Bytes)
  deriving DecidableEq, Repr

/-- The bytes of a name end with it. -/
def NameOk (name : Bytes) : Prop := name ≠ [] ∧ ∀ c ∈ name, endsTagName c = false ∧ c ≠ 60

/-- What a tag carries begins after its name, and neither mark of a tag is written in it. -/
def AttrsOk (attrs : Bytes) : Prop :=
  (∀ c ∈ attrs, c ≠ 60 ∧ c ≠ 62) ∧ ∀ c ∈ attrs.head?, endsTagName c = true

instance : DecidablePred NameOk := fun name =>
  have := List.decidableBAll (fun c : UInt8 => endsTagName c = false ∧ c ≠ 60) name
  inferInstanceAs (Decidable (name ≠ [] ∧ _))

instance : DecidablePred AttrsOk := fun attrs =>
  have := List.decidableBAll (fun c : UInt8 => c ≠ 60 ∧ c ≠ 62) attrs
  inferInstanceAs (Decidable (_ ∧ _))

namespace XmlToken

/-- The bytes of a piece. -/
def text : XmlToken → Bytes
  | char c => [c]
  | opening name attrs => 60 :: (name ++ (attrs ++ [62]))
  | closing name => 60 :: 47 :: (name ++ [62])
  | empty name attrs => 60 :: (name ++ (attrs ++ [47, 62]))

/-- A piece that is written as XML is. -/
def Ok : XmlToken → Prop
  | char c => c ≠ 60
  | opening name attrs => NameOk name ∧ AttrsOk attrs ∧ attrs.getLast? ≠ some 47
  | closing name => NameOk name
  | empty name attrs => NameOk name ∧ AttrsOk attrs

/-- A tag whose name begins like this one. -/
def Opens (tag : Bytes) : XmlToken → Prop
  | opening name _ => tag <+: name
  | empty name _ => tag <+: name
  | _ => False

/-- A piece that is no tag of that name, nor one that closes itself and has a longer name. -/
def Quiet (tag : Bytes) : XmlToken → Prop
  | char _ => True
  | opening name _ => name ≠ tag
  | closing name => name ≠ tag
  | empty name _ => ¬ tag <+: name

instance : DecidablePred Ok
  | char _ => inferInstanceAs (Decidable (_ ≠ _))
  | opening _ _ => inferInstanceAs (Decidable (_ ∧ _ ∧ _))
  | closing name => inferInstanceAs (Decidable (NameOk name))
  | empty _ _ => inferInstanceAs (Decidable (_ ∧ _))

instance (tag : Bytes) : DecidablePred (Opens tag)
  | char _ => .isFalse id
  | opening _ _ => inferInstanceAs (Decidable (_ <+: _))
  | closing _ => .isFalse id
  | empty _ _ => inferInstanceAs (Decidable (_ <+: _))

instance (tag : Bytes) : DecidablePred (Quiet tag)
  | char _ => .isTrue trivial
  | opening _ _ => inferInstanceAs (Decidable (_ ≠ _))
  | closing _ => inferInstanceAs (Decidable (_ ≠ _))
  | empty _ _ => inferInstanceAs (Decidable (¬ _))

end XmlToken

/-- The pieces written one after the other. -/
def render (ts : List XmlToken) : Bytes := ts.flatMap XmlToken.text

/-- How an element is written: what its tag carries, and whether it closes itself when there is
nothing in it. -/
structure TagForm where
  attrs : Bytes := []
  closesItself : Bool := false
  deriving DecidableEq, Repr

/-- An element with text in it. -/
def element (name txt : Bytes) (f : TagForm) : List XmlToken :=
  if txt = [] ∧ f.closesItself = true then [.empty name f.attrs]
  else .opening name f.attrs :: (txt.map .char ++ [.closing name])

/-- `Contents`: an object's key and size, in either order among whatever else is said of it. -/
structure ObjectXml where
  key : Bytes
  size : ℕ
  attrs : Bytes := []
  keyTag : TagForm := {}
  sizeTag : TagForm := {}
  sizeFirst : Bool := false
  before : List XmlToken := []
  between : List XmlToken := []
  after : List XmlToken := []
  deriving DecidableEq, Repr

/-- `CommonPrefixes`. -/
structure PrefixXml where
  name : Bytes
  attrs : Bytes := []
  prefixTag : TagForm := {}
  before : List XmlToken := []
  after : List XmlToken := []
  deriving DecidableEq, Repr

namespace ObjectXml

/-- The element of the key. -/
def keyElement (o : ObjectXml) : List XmlToken :=
  element (bytesOf "Key") (xmlEscape o.key) o.keyTag

/-- The element of the size. -/
def sizeElement (o : ObjectXml) : List XmlToken :=
  element (bytesOf "Size") (bytesOf (toString o.size)) o.sizeTag

/-- What stands in the element. -/
def body (o : ObjectXml) : List XmlToken :=
  if o.sizeFirst = true then
    o.before ++ (o.sizeElement ++ (o.between ++ (o.keyElement ++ o.after)))
  else o.before ++ (o.keyElement ++ (o.between ++ (o.sizeElement ++ o.after)))

end ObjectXml

/-- What stands in the element. -/
def PrefixXml.body (p : PrefixXml) : List XmlToken :=
  p.before ++ (element (bytesOf "Prefix") (xmlEscape p.name) p.prefixTag ++ p.after)

/-- A part of a listing. -/
inductive ListPart where
  | other (t : XmlToken)
  | object (o : ObjectXml)
  | common (p : PrefixXml)
  | isTruncated (b : Bool) (f : TagForm)
  | nextToken (token : Bytes) (f : TagForm)
  deriving DecidableEq, Repr

/-- The pieces of a part. -/
def ListPart.tokens : ListPart → List XmlToken
  | other t => [t]
  | object o => .opening (bytesOf "Contents") o.attrs :: (o.body ++ [.closing (bytesOf "Contents")])
  | common p =>
      .opening (bytesOf "CommonPrefixes") p.attrs ::
        (p.body ++ [.closing (bytesOf "CommonPrefixes")])
  | isTruncated b f => element (bytesOf "IsTruncated") (bytesOf (if b then "true" else "false")) f
  | nextToken token f => element (bytesOf "NextContinuationToken") (xmlEscape token) f

/-- An object that is listed, and its size. -/
def ListPart.object? : ListPart → Option (Bytes × ℤ)
  | object o => some (o.key, (o.size : ℤ))
  | _ => none

/-- A prefix that is listed. -/
def ListPart.common? : ListPart → Option Bytes
  | common p => some p.name
  | _ => none

/-- Whether there is more. -/
def ListPart.truncated? : ListPart → Option Bool
  | isTruncated b _ => some b
  | _ => none

/-- Where to go on from. -/
def ListPart.token? : ListPart → Option Bytes
  | nextToken token _ => some token
  | _ => none

/-- A ListObjectsV2 response. -/
structure ListXml where
  before : List XmlToken := []
  attrs : Bytes := []
  parts : List ListPart
  after : List XmlToken := []
  deriving DecidableEq, Repr

namespace ListXml

/-- The pieces of a response. -/
def tokens (x : ListXml) : List XmlToken :=
  x.before ++ (.opening (bytesOf "ListBucketResult") x.attrs ::
    (x.parts.flatMap ListPart.tokens ++ (.closing (bytesOf "ListBucketResult") :: x.after)))

/-- The response. -/
def text (x : ListXml) : Bytes := render x.tokens

/-- The objects listed. -/
def objects (x : ListXml) : List (Bytes × ℤ) := x.parts.filterMap ListPart.object?

/-- The prefixes listed. -/
def prefixes (x : ListXml) : List Bytes := x.parts.filterMap ListPart.common?

/-- What `IsTruncated` says. -/
def truncated (x : ListXml) : Bool := (x.parts.findSome? ListPart.truncated?).getD false

/-- The continuation token. -/
def token (x : ListXml) : Bytes := (x.parts.findSome? ListPart.token?).getD []

end ListXml

/-- The tags that are searched for in a whole response. -/
def topTags : List Bytes :=
  [bytesOf "Contents", bytesOf "CommonPrefixes", bytesOf "IsTruncated",
    bytesOf "NextContinuationToken"]

/-- Whatever else a store says where these tags are searched for. -/
def Else (tags : List Bytes) (t : XmlToken) : Prop :=
  ¬ t.Opens (bytesOf "Error") ∧ ∀ tag ∈ tags, t.Quiet tag

instance (tags : List Bytes) : DecidablePred (Else tags) := fun t =>
  have := List.decidableBAll (fun tag : Bytes => t.Quiet tag) tags
  inferInstanceAs (Decidable (¬ t.Opens (bytesOf "Error") ∧ _))

-- what S3 says beside, also where it closes itself
example : ∀ name ∈ ["?xml", "Name", "Prefix", "KeyCount", "MaxKeys", "Delimiter", "EncodingType",
    "ContinuationToken", "StartAfter", "Owner", "ETag", "StorageClass", "LastModified", "ID"],
    Else topTags (.empty (bytesOf name) []) := by decide +kernel

/-- The rest of a part is not taken for what is searched for there. -/
def ListPart.Ok : ListPart → Prop
  | other t => Else topTags t
  | object o => o.size < 2 ^ 63 ∧
      ∀ t ∈ o.before ++ (o.between ++ o.after),
        Else (bytesOf "Key" :: bytesOf "Size" :: topTags) t
  | common p => ∀ t ∈ p.before ++ p.after, Else (bytesOf "Prefix" :: topTags) t
  | _ => True

instance : DecidablePred ListPart.Ok
  | .other t => inferInstanceAs (Decidable (Else topTags t))
  | .object o =>
      have := List.decidableBAll (Else (bytesOf "Key" :: bytesOf "Size" :: topTags))
        (o.before ++ (o.between ++ o.after))
      inferInstanceAs (Decidable (_ ∧ _))
  | .common p => List.decidableBAll (Else (bytesOf "Prefix" :: topTags)) (p.before ++ p.after)
  | .isTruncated _ _ => .isTrue trivial
  | .nextToken _ _ => .isTrue trivial

/-- A response in the shape of S3. -/
structure ListXml.Ok (x : ListXml) : Prop where
  tokens : ∀ t ∈ x.tokens, t.Ok
  around : ∀ t ∈ x.before ++ x.after, Else topTags t
  parts : ∀ p ∈ x.parts, p.Ok

/-! ### Entities -/

lemma xmlDecode_cons_of_ne {c : UInt8} (h : c ≠ 38) (s : Bytes) :
    xmlDecode (c :: s) = c :: xmlDecode s := by
  rw [xmlDecode]
  exact if_pos h

/-- An entity is read. -/
lemma xmlDecode_entity (ent : Bytes) {c : UInt8} (hent : 59 ∉ ent) (hlen : ent.length ≤ 9)
    (h : entityOf ent = some c) (s : Bytes) :
    xmlDecode (38 :: (ent ++ 59 :: s)) = c :: xmlDecode s := by
  have htake : (ent ++ 59 :: s).takeWhile (· ≠ 59) = ent := by
    rw [List.takeWhile_append_of_pos fun d hd => by simpa using fun h : d = 59 => hent (h ▸ hd)]
    simp
  have hfar : ¬ (59 ∉ ent ++ 59 :: s ∨ 10 < ent.length + 1) := by
    simp
    omega
  rw [xmlDecode]
  simp only [htake, ne_eq, not_true_eq_false, if_false, if_neg hfar, h]
  rw [← List.drop_drop, List.drop_left]
  rfl

/-- What is escaped is read back. -/
lemma xmlDecode_xmlEscape (s : Bytes) : xmlDecode (xmlEscape s) = s := by
  induction s with
  | nil => rw [xmlEscape, List.flatMap_nil, xmlDecode]
  | cons c s ih =>
      unfold xmlEscape at ih ⊢
      rw [List.flatMap_cons]
      split_ifs with hamp hlt hgt hquot hapos
      · rw [hamp, ← congrArg (38 :: ·) ih]
        exact xmlDecode_entity (bytesOf "amp") (by decide) (by decide) (by decide) _
      · rw [hlt, ← congrArg (60 :: ·) ih]
        exact xmlDecode_entity (bytesOf "lt") (by decide) (by decide) (by decide) _
      · rw [hgt, ← congrArg (62 :: ·) ih]
        exact xmlDecode_entity (bytesOf "gt") (by decide) (by decide) (by decide) _
      · rw [hquot, ← congrArg (34 :: ·) ih]
        exact xmlDecode_entity (bytesOf "quot") (by decide) (by decide) (by decide) _
      · rw [hapos, ← congrArg (39 :: ·) ih]
        exact xmlDecode_entity (bytesOf "apos") (by decide) (by decide) (by decide) _
      · rw [List.singleton_append, xmlDecode_cons_of_ne hamp, ih]

/-- Escaping makes something of everything. -/
lemma xmlEscape_eq_nil {s : Bytes} : xmlEscape s = [] ↔ s = [] := by
  constructor
  · intro h
    rw [← xmlDecode_xmlEscape s, h, xmlDecode]
  · rintro rfl
    rfl

/-- No tag begins in what is escaped. -/
lemma xmlEscape_noTag (s : Bytes) : 60 ∉ xmlEscape s := by
  unfold xmlEscape
  rw [List.mem_flatMap]
  rintro ⟨c, -, hc⟩
  split_ifs at hc with hamp hlt hgt hquot hapos
  · revert hc
    decide
  · revert hc
    decide
  · revert hc
    decide
  · revert hc
    decide
  · revert hc
    decide
  · exact hlt (List.mem_singleton.mp hc).symm

/-! ### From token to token -/

section Tokens

variable {tag n a y : Bytes} {t : XmlToken} {ts : List XmlToken}

/-- A name that stands where another one ends with its tag is the beginning of that one. -/
lemma prefix_of_prefix_append (htag : NameOk tag) {z : Bytes}
    (hz : ∀ c ∈ z.head?, endsTagName c = true) (h : tag <+: n ++ z) : tag <+: n := by
  rcases List.prefix_or_prefix_of_prefix h (List.prefix_append n z) with hn | ⟨m, rfl⟩
  · exact hn
  · rw [List.prefix_append_right_inj] at h
    cases m with
    | nil => simp
    | cons c m =>
        obtain ⟨w, rfl⟩ := h
        have hends := hz c (by simp)
        rw [(htag.2 c (by simp)).1] at hends
        exact absurd hends (by decide)

/-- What follows the name in a tag does not go on with it. -/
lemma AttrsOk.ends (h : AttrsOk a) {z : Bytes} (hz : ∀ c ∈ z.head?, endsTagName c = true) :
    ∀ c ∈ (a ++ z).head?, endsTagName c = true := by
  cases a with
  | nil => exact hz
  | cons c a => exact fun d hd => h.2 d (by simpa using hd)

/-- A tag begins only where a piece does. -/
lemma XmlToken.Ok.noTag (h : t.Ok) {j : ℕ} (hj : 0 < j) (hlt : j < t.text.length) (p : Bytes) :
    ¬ 60 :: p <+: (t.text ++ y).drop j := by
  have htail : 60 ∉ t.text.drop 1 := by
    cases t with
    | char c => simp [XmlToken.text]
    | opening name attrs =>
        obtain ⟨hname, hattrs, -⟩ := h
        simp only [XmlToken.text, List.drop_one, List.tail_cons, List.mem_append,
          List.mem_singleton]
        rintro (hn | ha | hm)
        · exact (hname.2 _ hn).2 rfl
        · exact (hattrs.1 _ ha).1 rfl
        · exact absurd hm (by decide)
    | closing name =>
        simp only [XmlToken.text, List.drop_one, List.tail_cons, List.mem_cons, List.mem_append,
          List.not_mem_nil, or_false]
        rintro (hs | hn | hm)
        · exact absurd hs (by decide)
        · exact (h.2 _ hn).2 rfl
        · exact absurd hm (by decide)
    | empty name attrs =>
        obtain ⟨hname, hattrs⟩ := h
        simp only [XmlToken.text, List.drop_one, List.tail_cons, List.mem_append, List.mem_cons,
          List.not_mem_nil, or_false]
        rintro (hn | ha | hs | hm)
        · exact (hname.2 _ hn).2 rfl
        · exact (hattrs.1 _ ha).1 rfl
        · exact absurd hs (by decide)
        · exact absurd hm (by decide)
  rw [List.drop_append_of_le_length hlt.le, List.drop_eq_getElem_cons hlt, List.cons_append,
    List.cons_prefix_cons]
  rintro ⟨hc, -⟩
  refine htail ?_
  rw [hc, List.mem_iff_getElem]
  refine ⟨j - 1, by rw [List.length_drop]; omega, ?_⟩
  rw [List.getElem_drop]
  congr 1
  omega

/-- A search for a tag that this piece does not open goes on after it. -/
lemma not_prefix_of_not_opens (ht : t.Ok) (htag : NameOk tag) (h : ¬ t.Opens tag) :
    ∀ j < t.text.length, ¬ 60 :: tag <+: (t.text ++ y).drop j := by
  intro j hj
  rcases Nat.eq_zero_or_pos j with rfl | hpos
  · rw [List.drop_zero]
    cases t with
    | char c =>
        rw [XmlToken.text, List.singleton_append, List.cons_prefix_cons]
        exact fun hc => ht hc.1.symm
    | opening name attrs =>
        obtain ⟨-, hattrs, -⟩ := ht
        rw [XmlToken.text, List.cons_append, List.cons_prefix_cons, List.append_assoc]
        refine fun hp => h (prefix_of_prefix_append htag ?_ hp.2)
        rw [List.append_assoc]
        exact hattrs.ends (by simp [endsTagName])
    | closing name =>
        rw [XmlToken.text, List.cons_append, List.cons_prefix_cons]
        rintro ⟨-, hp⟩
        obtain ⟨hne, hall⟩ := htag
        cases tag with
        | nil => exact hne rfl
        | cons c tag =>
            rw [List.cons_append, List.cons_prefix_cons] at hp
            have := (hall c (by simp)).1
            rw [hp.1] at this
            exact absurd this (by decide)
    | empty name attrs =>
        obtain ⟨-, hattrs⟩ := ht
        rw [XmlToken.text, List.cons_append, List.cons_prefix_cons, List.append_assoc]
        refine fun hp => h (prefix_of_prefix_append htag ?_ hp.2)
        rw [List.append_assoc]
        exact hattrs.ends (by simp [endsTagName])
  · exact ht.noTag hpos hj tag

/-- A search for the end of an element goes on after a piece that is not that. -/
lemma not_prefix_of_not_closes (ht : t.Ok) (htag : NameOk tag) (h : t ≠ .closing tag) :
    ∀ j < t.text.length, ¬ 60 :: 47 :: (tag ++ [62]) <+: (t.text ++ y).drop j := by
  intro j hj
  rcases Nat.eq_zero_or_pos j with rfl | hpos
  · have hslash (name z : Bytes) (hname : NameOk name) :
        ¬ 47 :: (tag ++ [62]) <+: name ++ z := by
      obtain ⟨hne, hall⟩ := hname
      cases name with
      | nil => exact absurd rfl hne
      | cons c name =>
          rw [List.cons_append, List.cons_prefix_cons]
          rintro ⟨rfl, -⟩
          have := (hall 47 (by simp)).1
          exact absurd this (by decide)
    rw [List.drop_zero]
    cases t with
    | char c =>
        rw [XmlToken.text, List.singleton_append, List.cons_prefix_cons]
        exact fun hc => ht hc.1.symm
    | opening name attrs =>
        rw [XmlToken.text, List.cons_append, List.cons_prefix_cons, List.append_assoc]
        exact fun hp => hslash name _ ht.1 hp.2
    | closing name =>
        rw [XmlToken.text, List.cons_append, List.cons_append, List.cons_prefix_cons,
          List.cons_prefix_cons, List.append_assoc]
        rintro ⟨-, -, hp⟩
        refine h (congrArg _ ?_)
        have hend : ∀ c ∈ (([62] : Bytes) ++ y).head?, endsTagName c = true := by
          simp [endsTagName]
        -- each of the two names is the beginning of the other
        have hle : tag <+: name :=
          prefix_of_prefix_append htag hend ((List.prefix_append tag [62]).trans hp)
        obtain ⟨m, rfl⟩ := hle
        rw [List.append_assoc, List.prefix_append_right_inj] at hp
        cases m with
        | nil => simp
        | cons c m =>
            rw [List.cons_append, List.cons_prefix_cons] at hp
            have := (ht.2 c (by simp)).1
            rw [← hp.1] at this
            exact absurd this (by decide)
    | empty name attrs =>
        rw [XmlToken.text, List.cons_append, List.cons_prefix_cons, List.append_assoc]
        exact fun hp => hslash name _ ht.1 hp.2
  · exact ht.noTag hpos hj _

/-- `tag_text` from where the name it looks for was found. -/
def tagAfter (tag rest : Bytes) : Option (Bytes × Bytes) :=
  let head := rest.takeWhile (· ≠ 62)
  let body := rest.drop (head.length + 1)
  if 62 ∉ rest then none
  else if (60 :: (tag ++ head)).getLast? = some 47 then some ([], body)
  else if rest.head?.any endsTagName = false then tagText tag rest
  else
    match firstIn (60 :: 47 :: (tag ++ [62])) body with
    | none => none
    | some b => some (body.take b, body.drop (b + (tag.length + 3)))

lemma tagText_eq (tag xml : Bytes) :
    tagText tag xml = (firstIn (60 :: tag) xml).bind fun a =>
      tagAfter tag (xml.drop (a + (tag.length + 1))) := by
  rw [tagText]
  split
  · rename_i h
    rw [h]
    rfl
  · rename_i a h
    rw [h]
    rfl

/-- What the name does not stand in is passed over. -/
lemma tagText_skip {x : Bytes} (h : ∀ j < x.length, ¬ 60 :: tag <+: (x ++ y).drop j) :
    tagText tag (x ++ y) = tagText tag y := by
  rw [tagText_eq, tagText_eq, firstIn_skip h]
  cases firstIn (60 :: tag) y with
  | none => rfl
  | some a =>
      rw [Option.map_some, Option.bind_some, Option.bind_some, Nat.add_assoc, ← List.drop_drop,
        List.drop_left]

/-- A name found at the beginning. -/
lemma tagText_here (tag rest : Bytes) : tagText tag (60 :: (tag ++ rest)) = tagAfter tag rest := by
  have hfirst : firstIn (60 :: tag) (60 :: (tag ++ rest)) = some 0 := by
    refine Iff.mpr firstIn_eq_some ⟨Nat.zero_le _, ?_, fun j hj => absurd hj (by omega)⟩
    exact ⟨rest, rfl⟩
  rw [tagText_eq, hfirst, Option.bind_some, Nat.zero_add, List.drop_succ_cons, List.drop_left]

/-- `tag_text` goes by the next mark. -/
lemma tagAfter_mark {head : Bytes} (hhead : 62 ∉ head) (y : Bytes) :
    tagAfter tag (head ++ 62 :: y) =
      if (60 :: (tag ++ head)).getLast? = some 47 then some ([], y)
      else if (head ++ 62 :: y).head?.any endsTagName = false then tagText tag (head ++ 62 :: y)
      else
        match firstIn (60 :: 47 :: (tag ++ [62])) y with
        | none => none
        | some b => some (y.take b, y.drop (b + (tag.length + 3))) := by
  have htake : (head ++ 62 :: y).takeWhile (· ≠ 62) = head := by
    rw [List.takeWhile_append_of_pos fun d hd => by simpa using fun h : d = 62 => hhead (h ▸ hd)]
    simp
  have hdrop : (head ++ 62 :: y).drop (head.length + 1) = y := by
    rw [← List.drop_drop, List.drop_left]
    rfl
  have hmem : ¬ 62 ∉ head ++ 62 :: y := by simp
  simp only [tagAfter, htake, hdrop, if_neg hmem]

lemma NameOk.noMark (h : NameOk n) : 62 ∉ n := by
  intro hmem
  have := (h.2 62 hmem).1
  exact absurd this (by decide)

lemma NameOk.noSlash (h : NameOk n) : 47 ∉ n := by
  intro hmem
  have := (h.2 47 hmem).1
  exact absurd this (by decide)

/-- A quiet piece is passed over, also one with a longer name. -/
lemma tagText_quiet (ht : t.Ok) (htag : NameOk tag) (h : t.Quiet tag) :
    tagText tag (t.text ++ y) = tagText tag y := by
  by_cases hopens : t.Opens tag
  · cases t with
    | char c => exact hopens.elim
    | closing name => exact hopens.elim
    | empty name attrs => exact absurd hopens h
    | opening name attrs =>
        obtain ⟨m, rfl⟩ := hopens
        obtain ⟨hname, hattrs, hlast⟩ := ht
        obtain ⟨c, m, rfl⟩ : ∃ c m', m = c :: m' := by
          cases m with
          | nil => exact absurd (List.append_nil tag) h
          | cons c m => exact ⟨c, m, rfl⟩
        have hmark : 62 ∉ c :: m ++ attrs := by
          rw [List.mem_append]
          rintro (hm | ha)
          · exact hname.noMark (List.mem_append_right _ hm)
          · exact (hattrs.1 _ ha).2 rfl
        have hopen : 60 ∉ c :: m ++ attrs ++ [62] := by
          simp only [List.mem_append, List.mem_singleton]
          rintro ((hm | ha) | hc)
          · exact (hname.2 _ (List.mem_append_right _ hm)).2 rfl
          · exact (hattrs.1 _ ha).1 rfl
          · exact absurd hc (by decide)
        have hnext : (60 :: (tag ++ (c :: m ++ attrs))).getLast? ≠ some 47 := by
          cases hattr : attrs.getLast? with
          | none =>
              rw [List.getLast?_eq_none_iff.mp hattr, List.append_nil]
              intro hc
              have := List.mem_of_getLast? hc
              rcases List.mem_cons.mp this with h60 | hmem
              · exact absurd h60 (by decide)
              · exact hname.noSlash hmem
          | some d =>
              rw [← List.append_assoc, ← List.cons_append, List.getLast?_append, hattr,
                Option.some_or]
              rwa [hattr] at hlast
        have hends : endsTagName c = false := (hname.2 c (by simp)).1
        have htext : (XmlToken.opening (tag ++ c :: m) attrs).text ++ y
            = 60 :: (tag ++ ((c :: m ++ attrs) ++ 62 :: y)) := by
          simp [XmlToken.text]
        rw [htext, tagText_here, tagAfter_mark hmark, if_neg hnext, if_pos (by simp [hends])]
        have hsplit : c :: m ++ attrs ++ 62 :: y = (c :: m ++ attrs ++ [62]) ++ y := by simp
        rw [hsplit]
        refine tagText_skip fun j hj hp => hopen ?_
        rw [List.drop_append_of_le_length hj.le, List.drop_eq_getElem_cons hj, List.cons_append,
          List.cons_prefix_cons] at hp
        rw [hp.1]
        exact List.getElem_mem hj
  · exact tagText_skip (not_prefix_of_not_opens ht htag hopens)

@[simp] lemma render_nil : render [] = [] := rfl

@[simp] lemma render_cons (t : XmlToken) (ts : List XmlToken) :
    render (t :: ts) = t.text ++ render ts := rfl

@[simp] lemma render_append (ts us : List XmlToken) : render (ts ++ us) = render ts ++ render us :=
  List.flatMap_append

@[simp] lemma render_chars (s : Bytes) : render (s.map .char) = s := by
  induction s with
  | nil => rfl
  | cons c s ih => rw [List.map_cons, render_cons, ih, XmlToken.text, List.singleton_append]

/-- Quiet pieces are passed over. -/
lemma tagText_quiets (htag : NameOk tag) (h : ∀ t ∈ ts, t.Ok ∧ t.Quiet tag) :
    tagText tag (render ts ++ y) = tagText tag y := by
  induction ts with
  | nil => rfl
  | cons t ts ih =>
      obtain ⟨ht, hquiet⟩ := h t List.mem_cons_self
      rw [render_cons, List.append_assoc, tagText_quiet ht htag hquiet,
        ih fun u hu => h u (List.mem_cons_of_mem _ hu)]

/-- There is nothing to find. -/
lemma tagText_none (htag : NameOk tag) (h : ∀ t ∈ ts, t.Ok ∧ t.Quiet tag) :
    tagText tag (render ts) = none := by
  have hnil : tagText tag [] = none := by
    rw [tagText_eq]
    rfl
  have := tagText_quiets (y := []) htag h
  rwa [List.append_nil, hnil] at this

/-- The end of an element is the first one of its name. -/
lemma firstIn_close (htag : NameOk tag) (h : ∀ t ∈ ts, t.Ok ∧ t ≠ .closing tag) :
    firstIn (60 :: 47 :: (tag ++ [62])) (render ts ++ (60 :: 47 :: (tag ++ [62]) ++ y))
      = some (render ts).length := by
  induction ts with
  | nil =>
      refine Iff.mpr firstIn_eq_some ⟨Nat.zero_le _, ?_, fun j hj => absurd hj (by simp)⟩
      exact List.prefix_append _ _
  | cons t ts ih =>
      obtain ⟨ht, hne⟩ := h t List.mem_cons_self
      rw [render_cons, List.append_assoc, firstIn_skip (not_prefix_of_not_closes ht htag hne),
        ih fun u hu => h u (List.mem_cons_of_mem _ hu), Option.map_some, List.length_append]

/-- An element with its end. -/
lemma tagText_open (htag : NameOk tag) {attrs : Bytes} (ha : AttrsOk attrs)
    (hlast : attrs.getLast? ≠ some 47) (h : ∀ t ∈ ts, t.Ok ∧ t ≠ .closing tag) :
    tagText tag (render (.opening tag attrs :: (ts ++ [.closing tag])) ++ y)
      = some (render ts, y) := by
  have hmark : 62 ∉ attrs := fun hm => (ha.1 _ hm).2 rfl
  have hnext : (60 :: (tag ++ attrs)).getLast? ≠ some 47 := by
    cases hattr : attrs.getLast? with
    | none =>
        rw [List.getLast?_eq_none_iff.mp hattr, List.append_nil]
        intro hc
        rcases List.mem_cons.mp (List.mem_of_getLast? hc) with h60 | hmem
        · exact absurd h60 (by decide)
        · exact htag.noSlash hmem
    | some d =>
        rw [← List.cons_append, List.getLast?_append, hattr, Option.some_or]
        rwa [hattr] at hlast
  have hends : (attrs ++ 62 :: (render ts ++ (60 :: 47 :: (tag ++ [62]) ++ y))).head?.any
      endsTagName = true := by
    cases attrs with
    | nil => rfl
    | cons c attrs => simpa using ha.2 c (by simp)
  have htext : render (.opening tag attrs :: (ts ++ [.closing tag])) ++ y
      = 60 :: (tag ++ (attrs ++ 62 :: (render ts ++ (60 :: 47 :: (tag ++ [62]) ++ y)))) := by
    simp [XmlToken.text]
  rw [htext, tagText_here, tagAfter_mark hmark, if_neg hnext,
    if_neg (by rw [hends]; decide), firstIn_close htag h]
  dsimp only
  rw [List.take_left, ← List.drop_drop, List.drop_left]
  have hdrop : (60 :: 47 :: (tag ++ [62]) ++ y).drop (tag.length + 3) = y := by
    rw [show tag.length + 3 = (60 :: 47 :: (tag ++ [62])).length by simp, List.drop_left]
  rw [hdrop]

/-- An element that closes itself. -/
lemma tagText_empty {attrs : Bytes} (ha : AttrsOk attrs) :
    tagText tag ((XmlToken.empty tag attrs).text ++ y) = some ([], y) := by
  have hmark : 62 ∉ attrs ++ [47] := by
    rw [List.mem_append]
    rintro (hm | hs)
    · exact (ha.1 _ hm).2 rfl
    · exact absurd hs (by decide)
  have htext : (XmlToken.empty tag attrs).text ++ y =
      60 :: (tag ++ ((attrs ++ [47]) ++ 62 :: y)) := by
    simp [XmlToken.text]
  have hlast : (60 :: (tag ++ (attrs ++ [47]))).getLast? = some 47 := by
    rw [← List.append_assoc, ← List.cons_append, List.getLast?_concat]
  rw [htext, tagText_here, tagAfter_mark hmark, if_pos hlast]

/-- What `tag_text` finds of an element. -/
lemma tagText_element (htag : NameOk tag) {txt : Bytes} {f : TagForm}
    (h : ∀ t ∈ element tag txt f, t.Ok) :
    tagText tag (render (element tag txt f) ++ y) = some (txt, y) := by
  unfold element at h ⊢
  split at h
  · rename_i hself
    rw [if_pos hself, render_cons, render_nil, List.append_nil, hself.1]
    exact tagText_empty (h _ List.mem_cons_self).2
  · rename_i hself
    rw [if_neg hself]
    obtain ⟨-, ha, hlast⟩ := h _ List.mem_cons_self
    rw [tagText_open htag ha hlast, render_chars]
    intro t ht
    refine ⟨h t (by simp [ht]), ?_⟩
    obtain ⟨c, -, rfl⟩ := List.mem_map.mp ht
    simp

/-- An element is quiet for another name, which it does not go on. -/
lemma element_quiet {txt : Bytes} {f : TagForm} (hne : n ≠ tag) (hpre : ¬ tag <+: n)
    (ht : t ∈ element n txt f) : t.Quiet tag := by
  unfold element at ht
  split at ht
  · rw [List.mem_singleton.mp ht]
    exact hpre
  · simp only [List.mem_cons, List.mem_append, List.mem_map, List.not_mem_nil, or_false] at ht
    obtain rfl | ⟨c, -, rfl⟩ | rfl := ht
    · exact hne
    · trivial
    · exact hne

lemma forEachBlock_eq (tag xml : Bytes) :
    forEachBlock tag xml =
      match tagText tag xml with
      | none => []
      | some (body, left) => body :: forEachBlock tag left := by
  rw [forEachBlock]
  split <;> rename_i h <;> rw [h]

/-- Nothing of quiet pieces is a block. -/
lemma forEachBlock_quiets (htag : NameOk tag) (h : ∀ t ∈ ts, t.Ok ∧ t.Quiet tag) :
    forEachBlock tag (render ts ++ y) = forEachBlock tag y := by
  rw [forEachBlock_eq, tagText_quiets htag h, ← forEachBlock_eq]

/-- The blocks of a list of parts, some of which are one and the others quiet. -/
lemma forEachBlock_parts (htag : NameOk tag) {blk : ListPart → Option Bytes} {ps : List ListPart}
    (hquiet : ∀ p ∈ ps, blk p = none → ∀ t ∈ p.tokens, t.Ok ∧ t.Quiet tag)
    (hblk : ∀ p ∈ ps, ∀ b, blk p = some b → ∀ y, tagText tag (render p.tokens ++ y) = some (b, y)) :
    forEachBlock tag (render (ps.flatMap ListPart.tokens) ++ y)
      = ps.filterMap blk ++ forEachBlock tag y := by
  induction ps with
  | nil => rfl
  | cons p ps ih =>
      have htail := ih (fun q hq => hquiet q (List.mem_cons_of_mem _ hq))
        fun q hq => hblk q (List.mem_cons_of_mem _ hq)
      rw [List.flatMap_cons, render_append, List.append_assoc]
      cases hp : blk p with
      | none =>
          rw [forEachBlock_quiets htag (hquiet p List.mem_cons_self hp), htail,
            List.filterMap_cons_none hp]
      | some b =>
          rw [forEachBlock_eq, hblk p List.mem_cons_self b hp]
          dsimp only
          rw [htail, List.filterMap_cons_some hp, List.cons_append]

/-- The first of them. -/
lemma tagText_parts (htag : NameOk tag) {blk : ListPart → Option Bytes} {ps : List ListPart}
    (hquiet : ∀ p ∈ ps, blk p = none → ∀ t ∈ p.tokens, t.Ok ∧ t.Quiet tag)
    (hblk : ∀ p ∈ ps, ∀ b, blk p = some b → ∀ y, tagText tag (render p.tokens ++ y) = some (b, y))
    (hend : tagText tag y = none) :
    (tagText tag (render (ps.flatMap ListPart.tokens) ++ y)).map (·.1) = ps.findSome? blk := by
  induction ps with
  | nil =>
      rw [List.flatMap_nil, render_nil, List.nil_append, hend]
      rfl
  | cons p ps ih =>
      have htail := ih (fun q hq => hquiet q (List.mem_cons_of_mem _ hq))
        fun q hq => hblk q (List.mem_cons_of_mem _ hq)
      rw [List.flatMap_cons, render_append, List.append_assoc, List.findSome?_cons]
      cases hp : blk p with
      | none => rw [tagText_quiets htag (hquiet p List.mem_cons_self hp), htail]
      | some b =>
          rw [hblk p List.mem_cons_self b hp]
          rfl

end Tokens

/-! ### The parts of a listing -/

/-- The names searched for. -/
lemma topTags_ok : ∀ tag ∈ topTags, NameOk tag ∧
    (∀ n ∈ topTags, n ≠ tag → ¬ tag <+: n) ∧
    ∀ n ∈ [bytesOf "Key", bytesOf "Size", bytesOf "Prefix", bytesOf "ListBucketResult"],
      n ≠ tag ∧ ¬ tag <+: n := by
  unfold topTags
  decide

/-- The tag that finds a part. -/
def ListPart.tag : ListPart → Option Bytes
  | other _ => none
  | object _ => some (bytesOf "Contents")
  | common _ => some (bytesOf "CommonPrefixes")
  | isTruncated _ _ => some (bytesOf "IsTruncated")
  | nextToken _ _ => some (bytesOf "NextContinuationToken")

section Parts

variable {o : ObjectXml} {c : PrefixXml} {p : ListPart} {tag y : Bytes}

/-- What stands in `Contents`, in either order. -/
lemma ObjectXml.mem_body {t : XmlToken} : t ∈ o.body ↔
    t ∈ o.before ++ (o.between ++ o.after) ∨ t ∈ o.keyElement ∨ t ∈ o.sizeElement := by
  unfold ObjectXml.body
  split <;> simp only [List.mem_append] <;> tauto

/-- None of it is searched for in the whole response. -/
lemma ObjectXml.body_quiet (h : (ListPart.object o).Ok) (htag : tag ∈ topTags) :
    ∀ t ∈ o.body, t.Quiet tag := by
  obtain ⟨-, -, hinner⟩ := topTags_ok tag htag
  intro t ht
  rcases ObjectXml.mem_body.mp ht with hrest | hkey | hsize
  · exact (h.2 t hrest).2 tag (List.mem_cons_of_mem _ (List.mem_cons_of_mem _ htag))
  · exact element_quiet (hinner _ (by decide)).1 (hinner _ (by decide)).2 hkey
  · exact element_quiet (hinner _ (by decide)).1 (hinner _ (by decide)).2 hsize

lemma PrefixXml.body_quiet (h : (ListPart.common c).Ok) (htag : tag ∈ topTags) :
    ∀ t ∈ c.body, t.Quiet tag := by
  obtain ⟨-, -, hinner⟩ := topTags_ok tag htag
  intro t ht
  simp only [PrefixXml.body, List.mem_append] at ht
  obtain hb | hp | ha := ht
  · exact (h t (List.mem_append_left _ hb)).2 tag (List.mem_cons_of_mem _ htag)
  · exact element_quiet (hinner _ (by decide)).1 (hinner _ (by decide)).2 hp
  · exact (h t (List.mem_append_right _ ha)).2 tag (List.mem_cons_of_mem _ htag)

/-- Every other tag passes over a part. -/
lemma ListPart.Ok.quiet (h : p.Ok) (htag : tag ∈ topTags) (hne : p.tag ≠ some tag) :
    ∀ t ∈ p.tokens, t.Quiet tag := by
  obtain ⟨-, htop, -⟩ := topTags_ok tag htag
  have hname (n : Bytes) (hn : p.tag = some n) : n ≠ tag := fun heq => hne (heq ▸ hn)
  intro t ht
  cases p with
  | other u =>
      rw [List.mem_singleton.mp ht]
      exact h.2 tag htag
  | object o =>
      simp only [ListPart.tokens, List.mem_cons, List.mem_append, List.not_mem_nil,
        or_false] at ht
      obtain rfl | ht | rfl := ht
      · exact hname _ rfl
      · exact ObjectXml.body_quiet h htag t ht
      · exact hname _ rfl
  | common c =>
      simp only [ListPart.tokens, List.mem_cons, List.mem_append, List.not_mem_nil,
        or_false] at ht
      obtain rfl | ht | rfl := ht
      · exact hname _ rfl
      · exact PrefixXml.body_quiet h htag t ht
      · exact hname _ rfl
  | isTruncated b f =>
      have hn := hname _ rfl
      exact element_quiet hn (htop _ (by decide) hn) ht
  | nextToken token f =>
      have hn := hname _ rfl
      exact element_quiet hn (htop _ (by decide) hn) ht

/-- Nothing quiet is the end of the element it stands in. -/
lemma XmlToken.Quiet.ne_closing {t : XmlToken} (h : t.Quiet tag) : t ≠ .closing tag := by
  rintro rfl
  exact h rfl

/-- `Contents` is found whole. -/
lemma tagText_object (h : (ListPart.object o).Ok) (ht : ∀ t ∈ (ListPart.object o).tokens, t.Ok) :
    tagText (bytesOf "Contents") (render (ListPart.object o).tokens ++ y)
      = some (render o.body, y) := by
  obtain ⟨hname, ha, hlast⟩ := ht _ List.mem_cons_self
  refine tagText_open hname ha hlast fun t hin => ⟨ht t ?_, ?_⟩
  · exact List.mem_cons_of_mem _ (List.mem_append_left _ hin)
  · exact (ObjectXml.body_quiet h (by decide) t hin).ne_closing

lemma tagText_common (h : (ListPart.common c).Ok) (ht : ∀ t ∈ (ListPart.common c).tokens, t.Ok) :
    tagText (bytesOf "CommonPrefixes") (render (ListPart.common c).tokens ++ y)
      = some (render c.body, y) := by
  obtain ⟨hname, ha, hlast⟩ := ht _ List.mem_cons_self
  refine tagText_open hname ha hlast fun t hin => ⟨ht t ?_, ?_⟩
  · exact List.mem_cons_of_mem _ (List.mem_append_left _ hin)
  · exact (PrefixXml.body_quiet h (by decide) t hin).ne_closing

/-- The text of an element, past what is quiet. -/
lemma textIn_element (htag : NameOk tag) {txt was : Bytes} {f : TagForm} {as bs : List XmlToken}
    (has : ∀ t ∈ as, t.Ok ∧ t.Quiet tag) (hel : ∀ t ∈ element tag txt f, t.Ok) :
    textIn tag (render (as ++ (element tag txt f ++ bs))) was = txt := by
  rw [textIn, render_append, tagText_quiets htag has, render_append, tagText_element htag hel]
  rfl

/-- The key and the size are found in either order. -/
lemma entryOf_body (h : (ListPart.object o).Ok) (ht : ∀ t ∈ o.body, t.Ok) :
    (entryOf (render o.body)).map (fun e => (e.key, e.size))
      = if o.key = [] then none else some (o.key, (o.size : ℤ)) := by
  have hkeyOk : NameOk (bytesOf "Key") := by decide
  have hsizeOk : NameOk (bytesOf "Size") := by decide
  have hrest (u : XmlToken) (hu : u ∈ o.before ∨ u ∈ o.between ∨ u ∈ o.after) :
      u.Ok ∧ u.Quiet (bytesOf "Key") ∧ u.Quiet (bytesOf "Size") := by
    have hin : u ∈ o.before ++ (o.between ++ o.after) := by simpa [or_assoc] using hu
    refine ⟨ht u (ObjectXml.mem_body.mpr (.inl hin)), (h.2 u hin).2 _ List.mem_cons_self, ?_⟩
    exact (h.2 u hin).2 _ (List.mem_cons_of_mem _ List.mem_cons_self)
  have hkeyEl : ∀ u ∈ o.keyElement, u.Ok ∧ u.Quiet (bytesOf "Size") := fun u hu =>
    ⟨ht u (ObjectXml.mem_body.mpr (.inr (.inl hu))), element_quiet (by decide) (by decide) hu⟩
  have hsizeEl : ∀ u ∈ o.sizeElement, u.Ok ∧ u.Quiet (bytesOf "Key") := fun u hu =>
    ⟨ht u (ObjectXml.mem_body.mpr (.inr (.inr hu))), element_quiet (by decide) (by decide) hu⟩
  obtain ⟨as, bs, hkeyBody, has⟩ : ∃ as bs, o.body = as ++ (o.keyElement ++ bs) ∧
      ∀ u ∈ as, u.Ok ∧ u.Quiet (bytesOf "Key") := by
    by_cases hfirst : o.sizeFirst = true
    · refine ⟨o.before ++ (o.sizeElement ++ o.between), o.after, by simp [ObjectXml.body, hfirst],
        fun u hu => ?_⟩
      simp only [List.mem_append] at hu
      obtain hb | hs | hm := hu
      · exact ⟨(hrest u (.inl hb)).1, (hrest u (.inl hb)).2.1⟩
      · exact hsizeEl u hs
      · exact ⟨(hrest u (.inr (.inl hm))).1, (hrest u (.inr (.inl hm))).2.1⟩
    · exact ⟨o.before, o.between ++ (o.sizeElement ++ o.after), by simp [ObjectXml.body, hfirst],
        fun u hu => ⟨(hrest u (.inl hu)).1, (hrest u (.inl hu)).2.1⟩⟩
  obtain ⟨as', bs', hsizeBody, has'⟩ : ∃ as bs, o.body = as ++ (o.sizeElement ++ bs) ∧
      ∀ u ∈ as, u.Ok ∧ u.Quiet (bytesOf "Size") := by
    by_cases hfirst : o.sizeFirst = true
    · exact ⟨o.before, o.between ++ (o.keyElement ++ o.after), by simp [ObjectXml.body, hfirst],
        fun u hu => ⟨(hrest u (.inl hu)).1, (hrest u (.inl hu)).2.2⟩⟩
    · refine ⟨o.before ++ (o.keyElement ++ o.between), o.after, by simp [ObjectXml.body, hfirst],
        fun u hu => ?_⟩
      simp only [List.mem_append] at hu
      obtain hb | hk | hm := hu
      · exact ⟨(hrest u (.inl hb)).1, (hrest u (.inl hb)).2.2⟩
      · exact hkeyEl u hk
      · exact ⟨(hrest u (.inr (.inl hm))).1, (hrest u (.inr (.inl hm))).2.2⟩
  have hkey : textIn (bytesOf "Key") (render o.body) [] = xmlEscape o.key := by
    rw [hkeyBody]
    exact textIn_element hkeyOk has fun u hu => (hkeyEl u hu).1
  have hsize : textIn (bytesOf "Size") (render o.body) [] = bytesOf (toString o.size) := by
    rw [hsizeBody]
    exact textIn_element hsizeOk has' fun u hu => (hsizeEl u hu).1
  unfold entryOf
  simp only [hkey, hsize, xmlEscape_eq_nil, if_neg (digits_toString o.size).1,
    xmlDecode_xmlEscape, strtoll_toString h.1]
  split <;> rfl

/-- The prefix is found. -/
lemma prefixOf_body (h : (ListPart.common c).Ok) (ht : ∀ t ∈ c.body, t.Ok) :
    prefixOf (render c.body) = if c.name = [] then none else some c.name := by
  have htag : NameOk (bytesOf "Prefix") := by decide
  have htext : textIn (bytesOf "Prefix") (render c.body) [] = xmlEscape c.name := by
    refine textIn_element htag (fun u hu => ⟨ht u ?_, ?_⟩) fun u hu => ht u ?_
    · exact List.mem_append_left _ hu
    · exact (h u (List.mem_append_left _ hu)).2 _ List.mem_cons_self
    · exact List.mem_append_right _ (List.mem_append_left _ hu)
  unfold prefixOf
  simp only [htext, xmlEscape_eq_nil, xmlDecode_xmlEscape]

end Parts

/-! ### A listing -/

section Listing

variable {x : ListXml} {tag : Bytes}

/-- A response is what is quiet, its parts, and what is quiet. -/
lemma ListXml.tokens_split (h : x.Ok) : ∃ as bs,
    x.tokens = as ++ (x.parts.flatMap ListPart.tokens ++ bs) ∧
      ∀ tag ∈ topTags, (∀ t ∈ as, t.Ok ∧ t.Quiet tag) ∧ ∀ t ∈ bs, t.Ok ∧ t.Quiet tag := by
  refine ⟨x.before ++ [.opening (bytesOf "ListBucketResult") x.attrs],
    .closing (bytesOf "ListBucketResult") :: x.after, by simp [ListXml.tokens], ?_⟩
  intro tag htag
  have hne := ((topTags_ok tag htag).2.2 (bytesOf "ListBucketResult") (by decide)).1
  refine ⟨fun t ht => ⟨h.tokens t ?_, ?_⟩, fun t ht => ⟨h.tokens t ?_, ?_⟩⟩
  · simp only [ListXml.tokens, List.mem_append, List.mem_cons, List.not_mem_nil, or_false] at ht ⊢
    tauto
  · rcases List.mem_append.mp ht with hb | hopen
    · exact (h.around t (List.mem_append_left _ hb)).2 tag htag
    · rw [List.mem_singleton.mp hopen]
      exact hne
  · simp only [ListXml.tokens, List.mem_append, List.mem_cons] at ht ⊢
    tauto
  · rcases List.mem_cons.mp ht with rfl | ha
    · exact hne
    · exact (h.around t (List.mem_append_right _ ha)).2 tag htag

lemma ListXml.Ok.part_tokens (h : x.Ok) {p : ListPart} (hp : p ∈ x.parts) :
    ∀ t ∈ p.tokens, t.Ok := by
  intro t ht
  refine h.tokens t ?_
  simp only [ListXml.tokens, List.mem_append, List.mem_cons, List.mem_flatMap]
  exact .inr (.inr (.inl ⟨p, hp, ht⟩))

variable {blk : ListPart → Option Bytes}

/-- What the search for a tag finds of a response: the parts that the tag is of. -/
structure Finds (x : ListXml) (tag : Bytes) (blk : ListPart → Option Bytes) : Prop where
  top : tag ∈ topTags
  others : ∀ p, blk p = none → p.tag ≠ some tag
  found : ∀ p ∈ x.parts, ∀ b, blk p = some b → ∀ y,
    tagText tag (render p.tokens ++ y) = some (b, y)

/-- The blocks of a response. -/
lemma Finds.forEachBlock_text (hf : Finds x tag blk) (h : x.Ok) :
    forEachBlock tag x.text = x.parts.filterMap blk := by
  obtain ⟨as, bs, hsplit, hquiet⟩ := ListXml.tokens_split h
  obtain ⟨has, hbs⟩ := hquiet tag hf.top
  have htag := (topTags_ok tag hf.top).1
  have hnone : forEachBlock tag (render bs) = [] := by
    rw [forEachBlock_eq, tagText_none htag hbs]
  rw [ListXml.text, hsplit, render_append, render_append, forEachBlock_quiets htag has,
    forEachBlock_parts htag (fun p hp hnone t ht => ⟨h.part_tokens hp t ht,
      (h.parts p hp).quiet hf.top (hf.others p hnone) t ht⟩) hf.found, hnone, List.append_nil]

/-- The first of them. -/
lemma Finds.textIn_text (hf : Finds x tag blk) (h : x.Ok) :
    textIn tag x.text [] = (x.parts.findSome? blk).getD [] := by
  obtain ⟨as, bs, hsplit, hquiet⟩ := ListXml.tokens_split h
  obtain ⟨has, hbs⟩ := hquiet tag hf.top
  have htag := (topTags_ok tag hf.top).1
  rw [textIn, ListXml.text, hsplit, render_append, render_append, tagText_quiets htag has,
    tagText_parts htag (fun p hp hnone t ht => ⟨h.part_tokens hp t ht,
      (h.parts p hp).quiet hf.top (hf.others p hnone) t ht⟩) hf.found (tagText_none htag hbs)]

/-- A tag that no piece opens is not in the text. -/
lemma firstIn_open_none (htag : NameOk tag) {ts : List XmlToken}
    (h : ∀ t ∈ ts, t.Ok ∧ ¬ t.Opens tag) : firstIn (60 :: tag) (render ts) = none := by
  induction ts with
  | nil => rfl
  | cons t ts ih =>
      obtain ⟨ht, hno⟩ := h t List.mem_cons_self
      rw [render_cons, firstIn_skip (not_prefix_of_not_opens ht htag hno),
        ih fun u hu => h u (List.mem_cons_of_mem _ hu)]
      rfl

/-- An element opens its own name. -/
lemma element_not_opens {n txt : Bytes} {f : TagForm} (hn : ¬ tag <+: n) {t : XmlToken}
    (ht : t ∈ element n txt f) : ¬ t.Opens tag := by
  unfold element at ht
  split at ht
  · rw [List.mem_singleton.mp ht]
    exact hn
  · simp only [List.mem_cons, List.mem_append, List.mem_map, List.not_mem_nil, or_false] at ht
    obtain rfl | ⟨c, -, rfl⟩ | rfl := ht
    · exact hn
    · exact id
    · exact id

/-- A listing is no error. -/
lemma ListXml.Ok.not_error (h : x.Ok) : firstIn (bytesOf "<Error") x.text = none := by
  have hpart (p : ListPart) (hp : p.Ok) : ∀ t ∈ p.tokens, ¬ t.Opens (bytesOf "Error") := by
    intro t ht
    cases p with
    | other u =>
        rw [List.mem_singleton.mp ht]
        exact hp.1
    | object o =>
        simp only [ListPart.tokens, List.mem_cons, List.mem_append, List.not_mem_nil,
          or_false] at ht
        obtain rfl | ht | rfl := ht
        · exact (by decide : ¬ bytesOf "Error" <+: bytesOf "Contents")
        · rcases ObjectXml.mem_body.mp ht with hrest | hkey | hsize
          · exact (hp.2 t hrest).1
          · exact element_not_opens (by decide) hkey
          · exact element_not_opens (by decide) hsize
        · exact id
    | common c =>
        simp only [ListPart.tokens, PrefixXml.body, List.mem_cons, List.mem_append,
          List.not_mem_nil, or_false] at ht
        obtain rfl | (hb | hel | ha) | rfl := ht
        · exact (by decide : ¬ bytesOf "Error" <+: bytesOf "CommonPrefixes")
        · exact (hp t (List.mem_append_left _ hb)).1
        · exact element_not_opens (by decide) hel
        · exact (hp t (List.mem_append_right _ ha)).1
        · exact id
    | isTruncated b f => exact element_not_opens (by decide) ht
    | nextToken token f => exact element_not_opens (by decide) ht
  have htag : NameOk (bytesOf "Error") := by decide
  refine firstIn_open_none htag fun t ht => ⟨h.tokens t ht, ?_⟩
  simp only [ListXml.tokens, List.mem_append, List.mem_cons, List.mem_flatMap] at ht
  obtain hb | rfl | ⟨p, hp, ht⟩ | rfl | ha := ht
  · exact (h.around t (List.mem_append_left _ hb)).1
  · exact (by decide : ¬ bytesOf "Error" <+: bytesOf "ListBucketResult")
  · exact hpart p (h.parts p hp) t ht
  · exact id
  · exact (h.around t (List.mem_append_right _ ha)).1

/-- A listing says that it is one. -/
lemma ListXml.isListing (x : ListXml) :
    (firstIn (bytesOf "<ListBucketResult") x.text).isNone = false := by
  have hin : bytesOf "<ListBucketResult" <:+: x.text := by
    refine ⟨render x.before, x.attrs ++ ([62] ++ render (x.parts.flatMap ListPart.tokens ++
      (.closing (bytesOf "ListBucketResult") :: x.after))), ?_⟩
    simp only [ListXml.text, ListXml.tokens, render_append, render_cons, XmlToken.text,
      List.append_assoc, List.cons_append]
    rfl
  rw [Option.isNone_eq_false_iff, Option.isSome_iff_ne_none]
  exact fun hnone => Iff.mp firstIn_eq_none hnone hin

/-- The body of a part that is an object. -/
def ListPart.contents : ListPart → Option Bytes
  | object o => some (render o.body)
  | _ => none

/-- The body of a part that is a prefix. -/
def ListPart.grouping : ListPart → Option Bytes
  | common c => some (render c.body)
  | _ => none

/-- The text of `IsTruncated`. -/
def ListPart.truncation : ListPart → Option Bytes
  | isTruncated b _ => some (bytesOf (if b then "true" else "false"))
  | _ => none

/-- The text of `NextContinuationToken`. -/
def ListPart.continuation : ListPart → Option Bytes
  | nextToken token _ => some (xmlEscape token)
  | _ => none

lemma ListXml.Ok.finds_contents (h : x.Ok) : Finds x (bytesOf "Contents") ListPart.contents where
  top := by decide
  others p hp := by
    cases p <;> first | (simp [ListPart.contents] at hp; done) | (simp only [ListPart.tag]; decide)
  found p hp b hb y := by
    cases p with
    | object o =>
        obtain rfl := Option.some.inj hb
        exact tagText_object (h.parts _ hp) (h.part_tokens hp)
    | _ => exact absurd hb (by simp [ListPart.contents])

lemma ListXml.Ok.finds_grouping (h : x.Ok) :
    Finds x (bytesOf "CommonPrefixes") ListPart.grouping where
  top := by decide
  others p hp := by
    cases p <;> first | (simp [ListPart.grouping] at hp; done) | (simp only [ListPart.tag]; decide)
  found p hp b hb y := by
    cases p with
    | common c =>
        obtain rfl := Option.some.inj hb
        exact tagText_common (h.parts _ hp) (h.part_tokens hp)
    | _ => exact absurd hb (by simp [ListPart.grouping])

lemma ListXml.Ok.finds_truncation (h : x.Ok) :
    Finds x (bytesOf "IsTruncated") ListPart.truncation where
  top := by decide
  others p hp := by
    cases p <;>
      first | (simp [ListPart.truncation] at hp; done) | (simp only [ListPart.tag]; decide)
  found p hp b hb y := by
    cases p with
    | isTruncated b f =>
        obtain rfl := Option.some.inj hb
        exact tagText_element (by decide) (h.part_tokens hp)
    | _ => exact absurd hb (by simp [ListPart.truncation])

lemma ListXml.Ok.finds_continuation (h : x.Ok) :
    Finds x (bytesOf "NextContinuationToken") ListPart.continuation where
  top := by decide
  others p hp := by
    cases p <;>
      first | (simp [ListPart.continuation] at hp; done) | (simp only [ListPart.tag]; decide)
  found p hp b hb y := by
    cases p with
    | nextToken token f =>
        obtain rfl := Option.some.inj hb
        exact tagText_element (by decide) (h.part_tokens hp)
    | _ => exact absurd hb (by simp [ListPart.continuation])

end Listing

/-- What a listing says is what is read of it: the objects with their sizes and the prefixes, those
that have a name and in order, the token, and whether there is more to ask for. -/
theorem parseList_whole :
    (∀ x : ListXml, x.Ok → ∃ r, parseListObjectsV2 x.text = (true, r) ∧
        r.keys.map (fun e => (e.key, e.size)) = x.objects.filter (·.1 ≠ []) ∧
        r.commonPrefixes = x.prefixes.filter (· ≠ []) ∧
        r.nextContinuationToken = x.token ∧
        (r.truncated = true ↔ x.truncated = true ∧ x.token ≠ [])) ∧
      ∀ s, xmlDecode (xmlEscape s) = s := by
  refine ⟨fun x h => ?_, xmlDecode_xmlEscape⟩
  have htoken : xmlDecode (textIn (bytesOf "NextContinuationToken") x.text []) = x.token := by
    have hcomp : ListPart.continuation = Option.map xmlEscape ∘ ListPart.token? := by
      funext p
      cases p <;> rfl
    rw [h.finds_continuation.textIn_text h, hcomp, ← List.map_findSome?, ListXml.token]
    cases x.parts.findSome? ListPart.token? with
    | none => exact xmlDecode_xmlEscape []
    | some t => exact xmlDecode_xmlEscape t
  have htrunc : ((bytesOf "true").isPrefixOf (textIn (bytesOf "IsTruncated") x.text []) ||
      (bytesOf "TRUE").isPrefixOf (textIn (bytesOf "IsTruncated") x.text [])) = x.truncated := by
    have hcomp : ListPart.truncation =
        Option.map (fun b => bytesOf (if b then "true" else "false")) ∘ ListPart.truncated? := by
      funext p
      cases p <;> rfl
    rw [h.finds_truncation.textIn_text h, hcomp, ← List.map_findSome?, ListXml.truncated]
    cases x.parts.findSome? ListPart.truncated? with
    | none => rfl
    | some b => cases b <;> rfl
  refine ⟨_, by rw [parseListObjectsV2, h.not_error, Option.isSome_none, if_neg (by decide),
    x.isListing, if_neg (by decide)], ?_, ?_, htoken, ?_⟩
  · dsimp only
    rw [h.finds_contents.forEachBlock_text h, List.filterMap_filterMap, List.map_filterMap,
      ListXml.objects, List.filter_filterMap]
    refine List.filterMap_congr fun p hp => ?_
    cases p with
    | object o =>
        have hbody : ∀ t ∈ o.body, t.Ok := fun t ht =>
          h.part_tokens hp t (List.mem_cons_of_mem _ (List.mem_append_left _ ht))
        simp only [ListPart.contents, Option.bind_some, entryOf_body (h.parts _ hp) hbody]
        by_cases hkey : o.key = [] <;> simp [hkey, ListPart.object?, Option.filter]
    | _ => rfl
  · dsimp only
    rw [h.finds_grouping.forEachBlock_text h, List.filterMap_filterMap, ListXml.prefixes,
      List.filter_filterMap]
    refine List.filterMap_congr fun p hp => ?_
    cases p with
    | common c =>
        have hbody : ∀ t ∈ c.body, t.Ok := fun t ht =>
          h.part_tokens hp t (List.mem_cons_of_mem _ (List.mem_append_left _ ht))
        simp only [ListPart.grouping, Option.bind_some, prefixOf_body (h.parts _ hp) hbody]
        by_cases hname : c.name = [] <;> simp [hname, ListPart.common?, Option.filter]
    | _ => rfl
  · dsimp only
    rw [htrunc, htoken]
    simp

/-- An object with a mark in its key between a count and a prefix of nothing, and more to come. -/
def smallListing : ListXml where
  before := [.opening (bytesOf "?xml") (bytesOf " version=\"1.0\"?")]
  attrs := bytesOf " xmlns=\"http://s3.amazonaws.com/doc/2006-03-01/\""
  parts :=
    (element (bytesOf "KeyCount") (bytesOf "1") {}).map .other ++
      [.object { key := bytesOf "a<b", size := 3, between := [.empty (bytesOf "Owner") []] },
        .common { name := [], prefixTag := ⟨[], true⟩ },
        .isTruncated true {}, .nextToken (bytesOf "x&y") {}]

theorem parseList_whole_small : ∃ r, parseListObjectsV2 smallListing.text = (true, r) ∧
    r.keys.map (fun e => (e.key, e.size)) = [(bytesOf "a<b", 3)] ∧ r.commonPrefixes = [] ∧
    r.nextContinuationToken = bytesOf "x&y" ∧
    (r.truncated = true ↔ smallListing.truncated = true ∧ smallListing.token ≠ []) :=
  parseList_whole.1 smallListing ⟨by decide +kernel, by decide +kernel, by decide +kernel⟩

end Multisite

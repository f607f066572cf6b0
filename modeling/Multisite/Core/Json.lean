import Mathlib.Tactic

/-!
JSON values as the program reads and builds them, by the calls of the JSON library it makes.

An object is the list of its members, no key twice; a `double` is a rational, and an integer
has no bound until it is read into a type that has one.  A call that throws is `none`.
-/

namespace Multisite

/-- A JSON value. -/
inductive Json where
  | null
  | bool (b : Bool)
  | int (n : ℤ)
  | float (q : ℚ)
  | str (s : String)
  | arr (l : List Json)
  | obj (l : List (String × Json))

namespace Json

/-- The member of that key. -/
def find (k : String) : List (String × Json) → Option Json
  | [] => none
  | m :: rest => if m.1 = k then some m.2 else find k rest

/-- `j.contains(key)`, and then `j[key]`. -/
def get? (j : Json) (k : String) : Option Json :=
  match j with
  | .obj l => find k l
  | _ => none

/-- `is_object`. -/
def isObject : Json → Bool
  | .obj _ => true
  | _ => false

/-- The elements of an array, `none` for any other value. -/
def array? : Json → Option (List Json)
  | .arr l => some l
  | _ => none

/-- A number read as a `double`. -/
def number? : Json → Option ℚ
  | .int n => some n
  | .float q => some q
  | _ => none

/-- `static_cast` of a `double` to an integer: truncation toward zero. -/
def truncate (q : ℚ) : ℤ := q.num.tdiv q.den

/-- `get<std::string>`. -/
def getStr : Json → Option String
  | .str s => some s
  | _ => none

/-- `get<double>`. -/
def getDouble : Json → Option ℚ := number?

/-- `get<int64_t>`. -/
def getInt64 (j : Json) : Option ℤ := j.number?.map fun q => (truncate q).bmod (2 ^ 64)

/-- `get<uint64_t>`. -/
def getUInt64 (j : Json) : Option ℕ := j.number?.map fun q => ((truncate q) % 2 ^ 64).toNat

/-- `get<int>`, which takes a boolean too. -/
def getInt : Json → Option ℤ
  | .bool b => some (if b then 1 else 0)
  | j => j.number?.map fun q => (truncate q).bmod (2 ^ 32)

/-- `j.value(key, fallback)`: an absent member is the fallback, and one of another type, or a
value that is no object, throws. -/
def value {β : Type} (get : Json → Option β) (j : Json) (k : String) (fallback : β) : Option β :=
  match j with
  | .obj l =>
      match find k l with
      | some v => get v
      | none => some fallback
  | _ => none

@[simp] lemma find_cons_self (k : String) (v : Json) (l : List (String × Json)) :
    find k ((k, v) :: l) = some v := if_pos rfl

@[simp] lemma truncate_int (n : ℤ) : truncate n = n := by simp [truncate]

end Json

end Multisite

import Multisite.Core.Model
import Multisite.Lib.Search
import Multisite.Lib.Pieces

/-!
A connection of the HTTP server (`http_server.cpp`): `url_decode`, `parse_query`, and
`serve_connection` from the pieces `recv` returns to the requests it hands to `handle_request`.

Timeouts are left out: each `recv` returns some bytes of the stream or says that the client has
gone. What `handle_request` answers is a parameter, over the requests dispatched so far.
-/

namespace Multisite.Http

open Lib

/-- The bytes of an ASCII text. -/
def bytesOf (s : String) : Bytes := s.toList.map fun c => UInt8.ofNat c.toNat

/-- `kMaxBody`. -/
def kMaxBody : ℕ := 256 * 1024

/-- `kMaxHeaderBytes`. -/
def kMaxHeaderBytes : ℕ := 32 * 1024

/-- The size of `chunk` in `read_more`. -/
def kRecvChunk : ℕ := 4096

/-! ### Text -/

/-- `std::isspace`. -/
def isSpace (c : UInt8) : Bool := c = 32 || (9 ≤ c && c ≤ 13)

/-- `std::isdigit`. -/
def isDigit (c : UInt8) : Bool := 48 ≤ c && c ≤ 57

/-- The value of a hexadecimal digit, if it is one. -/
def hexValue (c : UInt8) : Option UInt8 :=
  if 48 ≤ c ∧ c ≤ 57 then some (c - 48)
  else if 97 ≤ c ∧ c ≤ 102 then some (c - 87)
  else if 65 ≤ c ∧ c ≤ 70 then some (c - 55)
  else none

/-- Two hexadecimal digits. -/
def hexPair (a b : UInt8) : Option UInt8 :=
  match hexValue a, hexValue b with
  | some x, some y => some (16 * x + y)
  | _, _ => none

/-- A byte is read back from its two digits, whichever way the sixteen are written. -/
lemma hexPair_of_digits {digit : UInt8 → UInt8}
    (h : ∀ k : Fin 16, hexValue (digit (UInt8.ofNat k)) = some (UInt8.ofNat k)) (c : UInt8) :
    hexPair (digit (c / 16)) (digit (c % 16)) = some c := by
  have hdiv : c / 16 = UInt8.ofNat (c.toNat / 16) := by
    rw [← UInt8.toNat_inj]
    have := c.toNat_lt
    simp
    omega
  have hmod : c % 16 = UInt8.ofNat (c.toNat % 16) := by
    rw [← UInt8.toNat_inj]
    simp
    omega
  have hlt := c.toNat_lt
  have hd := h ⟨c.toNat / 16, by omega⟩
  have hm := h ⟨c.toNat % 16, by omega⟩
  rw [hdiv, hmod, hexPair, hd, hm]
  dsimp only
  rw [Option.some.injEq, ← UInt8.toNat_inj]
  simp
  omega

/-- `lower` (`text.h`). -/
def lower (s : Bytes) : Bytes := s.map fun c => if 65 ≤ c ∧ c ≤ 90 then c + 32 else c

/-- `url_decode`. -/
def urlDecode : Bytes → Bytes
  | [] => []
  | c :: rest =>
      if c = 43 then 32 :: urlDecode rest
      else if c = 37 then
        match rest with
        | a :: b :: rest' =>
            match hexValue a, hexValue b with
            | some x, some y => (16 * x + y) :: urlDecode rest'
            | _, _ => c :: urlDecode (a :: b :: rest')
        | rest => c :: urlDecode rest
      else c :: urlDecode rest

/-- `m[key] = value` on a map. -/
def assign (m : List (Bytes × Bytes)) (key value : Bytes) : List (Bytes × Bytes) :=
  if m.any fun e => e.1 = key then m.map fun e => if e.1 = key then (key, value) else e
  else m ++ [(key, value)]

/-- `m.find(key)` on a map. -/
def lookup (m : List (Bytes × Bytes)) (key : Bytes) : Option Bytes :=
  (m.find? fun e => e.1 = key).map (·.2)

/-- `parse_query`; nothing comes of an empty piece, so where the text ends does not matter. -/
def parseQuery (s : Bytes) : List (Bytes × Bytes) :=
  (s.splitOn 38).foldl (fun out pair =>
    if 61 ∈ pair then
      assign out (urlDecode (pair.takeWhile (· ≠ 61))) (urlDecode ((pair.dropWhile (· ≠ 61)).drop 1))
    else if pair ≠ [] then assign out (urlDecode pair) []
    else out) []

/-- `std::stoul`, where it does not throw: blanks, a sign, and digits of a value that fits; a minus
wraps around. -/
def stoul (s : Bytes) : Option ℕ :=
  let s := s.dropWhile isSpace
  let neg := s.head? = some 45
  let s := if s.head? = some 45 ∨ s.head? = some 43 then s.drop 1 else s
  let ds := s.takeWhile isDigit
  let n := ds.foldl (fun n c => 10 * n + (c.toNat - 48)) 0
  if ds = [] ∨ 2 ^ 64 ≤ n then none
  else if neg then some ((2 ^ 64 - n) % 2 ^ 64)
  else some n

/-! ### Requests -/

/-- `HttpRequest`. -/
structure HttpRequest where
  method : Bytes := []
  path : Bytes := []
  query : List (Bytes × Bytes) := []
  headers : List (Bytes × Bytes) := []
  body : Bytes := []
  deriving DecidableEq, Repr

/-- `body_len`: what the header says, and nothing when that is not a number. -/
def HttpRequest.bodyLen (req : HttpRequest) : ℕ :=
  ((lookup req.headers (bytesOf "content-length")).bind stoul).getD 0

/-- The client asked for the connection to be closed. -/
def HttpRequest.asksClose (req : HttpRequest) : Bool :=
  match lookup req.headers (bytesOf "connection") with
  | some v => lower v = bytesOf "close"
  | none => false

/-- `if (!line.empty() && line.back() == '\r') line.pop_back()`. -/
def chomp (line : Bytes) : Bytes := if line.getLast? = some 13 then line.dropLast else line

/-- A header line into the headers. -/
def readHeaderLine (headers : List (Bytes × Bytes)) (line : Bytes) : List (Bytes × Bytes) :=
  let line := chomp line
  if 58 ∈ line then
    assign headers (lower (line.takeWhile (· ≠ 58)))
      (((line.dropWhile (· ≠ 58)).drop 1).dropWhile (· = 32))
  else headers

/-- What stands before the empty line, as a request without a body; nothing when there is no
method or no target. An empty last line says nothing, so `getline`'s end of file does not
matter. -/
def readRequest (head : Bytes) : Option HttpRequest :=
  let lines := head.splitOn 10
  let line := chomp (lines.headD [])
  let words := line.dropWhile isSpace
  let method := words.takeWhile (!isSpace ·)
  let target := ((words.dropWhile (!isSpace ·)).dropWhile isSpace).takeWhile (!isSpace ·)
  if method = [] ∨ target = [] then none
  else
    let headers := (lines.drop 1).foldl readHeaderLine []
    if 63 ∈ target then
      some {
        method
        path := urlDecode (target.takeWhile (· ≠ 63))
        query := parseQuery ((target.dropWhile (· ≠ 63)).drop 1)
        headers }
    else some { method, path := urlDecode target, headers }

/-! ### The connection -/

/-- `"\r\n\r\n"`. -/
def emptyLine : Bytes := [13, 10, 13, 10]

/-- The reads up to the end of the headers: the limit is on all that has been read. -/
def readHeader (buf : Bytes) (chunks : List Bytes) : ReadEnd UInt8 :=
  readUntil (fun b => (firstIn emptyLine b).isSome) (fun b => decide (kMaxHeaderBytes < b.length))
    buf chunks

/-- The reads up to the end of the body. -/
def readBody (n : ℕ) (buf : Bytes) (chunks : List Bytes) : ReadEnd UInt8 :=
  readUntil (fun b => decide (n ≤ b.length)) (fun _ => false) buf chunks

/-- What a connection came to: the requests handed to `handle_request`, and how far into the stream
the server had got when it closed: past the requests, past the header of one that it refused, and
to the end when the client went first. -/
structure Served where
  dispatched : List HttpRequest := []
  closedAt : ℕ
  deriving DecidableEq, Repr

/-- What a connection came to, with a request of `n` bytes ahead. -/
def Served.behind (req : HttpRequest) (n : ℕ) (x : Served) : Served :=
  { dispatched := req :: x.dispatched, closedAt := n + x.closedAt }

/-- A read that found enough has lost nothing. -/
lemma length_of_enough {enough tooMuch : Bytes → Bool} {buf buf' : Bytes}
    {chunks chunks' : List Bytes} (h : readUntil enough tooMuch buf chunks = .enough buf' chunks') :
    buf'.length + chunks'.flatten.length = buf.length + chunks.flatten.length := by
  have := congrArg List.length (readUntil_enough h).2.1
  rwa [List.length_append, List.length_append] at this

variable (keep : List HttpRequest → Bool)

/-- `serve_connection`, with the requests so far and what has been read of the next one. -/
def serveFrom (hist : List HttpRequest) (buf : Bytes) (chunks : List Bytes) : Served :=
  match _hread : readHeader buf chunks with
  | .gone => { closedAt := buf.length + chunks.flatten.length }
  | .tooMuch => { closedAt := 0 }
  | .enough buf₁ chunks₁ =>
      let headerEnd := (firstIn emptyLine buf₁).getD 0
      match readRequest (buf₁.take headerEnd) with
      | none => { closedAt := headerEnd + 4 }
      | some req =>
          if kMaxBody < req.bodyLen then { closedAt := headerEnd + 4 }
          else
            let bodyStart := headerEnd + 4
            match _hbody : readBody (bodyStart + req.bodyLen) buf₁ chunks₁ with
            | .enough buf₂ chunks₂ =>
                let req := { req with body := (buf₂.drop bodyStart).take req.bodyLen }
                let n := bodyStart + req.bodyLen
                if !keep (hist ++ [req]) || req.asksClose then
                  { dispatched := [req], closedAt := n }
                else (serveFrom (hist ++ [req]) (buf₂.drop n) chunks₂).behind req n
            | _ => { closedAt := buf.length + chunks.flatten.length }
termination_by buf.length + chunks.flatten.length
decreasing_by
  have hhead := length_of_enough _hread
  have hrest := length_of_enough _hbody
  have hfull : headerEnd + 4 + req.bodyLen ≤ buf₂.length :=
    of_decide_eq_true (readUntil_enough _hbody).1
  rw [List.length_drop]
  omega

/-- `serve_connection`. -/
def serveConnection (chunks : List Bytes) : Served := serveFrom keep [] [] chunks

end Multisite.Http

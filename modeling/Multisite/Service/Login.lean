import Multisite.Http.Server
import Multisite.Lib.Run

/-!
The relay's login (`relay/src/auth.cpp`, and the routes of `relay/src/api.cpp` that use it): four
settings written one after another, sessions in memory, and every request on a thread of its own.

What a setting was written by, and what a session's sign-in was verified against, is kept beside
them; no step reads it.  The key derivation is a function, a generated salt has its length, and a
generated token is not in use.

* `login_torn`: runs in which the settings come from two calls, or a session outlives the
  credentials it was opened with;
* `wholeLogin_of_reached`: where one call writes at a time, no crash comes into its writes, and a
  session is opened only under the credentials it was verified against, neither happens.
-/

namespace Multisite

open Http

namespace Login

/-! ### Text -/

/-- `trim`. -/
def trim (s : Bytes) : Bytes := ((s.dropWhile isSpace).reverse.dropWhile isSpace).reverse

/-- A digit of `"0123456789abcdef"`. -/
def lowerHex (n : UInt8) : UInt8 := if n < 10 then 48 + n else 87 + n

/-- `to_hex`. -/
def toHex (s : Bytes) : Bytes := s.flatMap fun c => [lowerHex (c / 16), lowerHex (c % 16)]

/-- The bytes that pairs of digits stand for. -/
def hexBytes : Bytes → Option Bytes
  | a :: b :: rest =>
      match hexPair a b with
      | some x => (hexBytes rest).map (x :: ·)
      | none => none
  | _ => some []

/-- `from_hex`. -/
def fromHex (s : Bytes) : Bytes := if s.length % 2 ≠ 0 then [] else (hexBytes s).getD []

/-- `std::stoi`, where it does not throw. -/
def stoi (s : Bytes) : Option ℤ :=
  let s := s.dropWhile isSpace
  let neg := s.head? = some 45
  let s := if s.head? = some 45 ∨ s.head? = some 43 then s.drop 1 else s
  let ds := s.takeWhile isDigit
  let n : ℤ := ds.foldl (fun n c => 10 * n + (c.toNat - 48 : ℕ)) 0
  let n := if neg then -n else n
  if ds = [] ∨ n < -2 ^ 31 ∨ 2 ^ 31 ≤ n then none else some n

lemma hexPair_lowerHex (c : UInt8) : hexPair (lowerHex (c / 16)) (lowerHex (c % 16)) = some c :=
  hexPair_of_digits (by decide) c

lemma length_toHex (s : Bytes) : (toHex s).length = 2 * s.length := by
  induction s with
  | nil => rfl
  | cons c s ih =>
      show (toHex s).length + 2 = _
      rw [ih, List.length_cons]
      omega

lemma fromHex_toHex (s : Bytes) : fromHex (toHex s) = s := by
  have hbytes : hexBytes (toHex s) = some s := by
    induction s with
    | nil => rfl
    | cons c s ih =>
        show hexBytes (lowerHex (c / 16) :: lowerHex (c % 16) :: toHex s) = _
        rw [hexBytes, hexPair_lowerHex, ih]
        rfl
  rw [fromHex, length_toHex, if_neg (by omega), hbytes]
  rfl

lemma toHex_eq_nil {s : Bytes} : toHex s = [] ↔ s = [] := by
  rw [← List.length_eq_zero_iff, ← List.length_eq_zero_iff, length_toHex]
  omega

/-! ### The settings -/

/-- `kIterations`. -/
def kIterations : ℤ := 210000

/-- `kSaltBytes`. -/
def kSaltBytes : ℕ := 16

/-- A call of `set_credentials`, and the salt it generates. -/
structure Call where
  userIn : Bytes
  password : Bytes
  salt : Bytes
  deriving DecidableEq, Repr

/-- A setting, and the call that wrote it. -/
structure Secret where
  value : Bytes := []
  call : Option Call := none
  deriving DecidableEq, Repr

variable (derive : Bytes → Bytes → ℤ → Bytes)

namespace Call

variable (c : Call)

/-- What it writes to `auth_user`. -/
def user : Bytes := trim c.userIn

/-- What it writes to `auth_salt`. -/
def saltHex : Bytes := toHex c.salt

/-- What it writes to `auth_iterations`. -/
def iterations (_ : Call) : Bytes := bytesOf "210000"

/-- What it writes to `auth_hash`. -/
def hashHex : Bytes := toHex (derive c.password c.salt kIterations)

/-- The checks before the first write. -/
def accepted : Bool :=
  c.user ≠ [] && decide (10 ≤ c.password.length) && derive c.password c.salt kIterations ≠ []

/-- It goes on to write. -/
def Writes : Prop := c.salt.length = kSaltBytes ∧ c.accepted derive = true

end Call

/-- `verify`, with the four settings it has read. -/
def verifies (wantUser wantHex saltHex iterations user password : Bytes) : Bool :=
  if wantUser = [] ∨ wantHex = [] ∨ saltHex = [] then false
  else
    let n := (stoi iterations).getD kIterations
    let n := if n < 1000 then kIterations else n
    let got := derive password (fromHex saltHex) n
    let want := fromHex wantHex
    if got = [] ∨ want.length ≠ got.length then false
    else got = want && wantUser = trim user

/-- Whoever set a login can sign in with it. -/
lemma verifies_call {c : Call} (h : c.Writes derive) :
    verifies derive c.user (c.hashHex derive) c.saltHex c.iterations c.userIn c.password =
      true := by
  obtain ⟨hsalt, h⟩ := h
  rw [Call.accepted, Bool.and_eq_true, Bool.and_eq_true, decide_eq_true_iff, decide_eq_true_iff,
    decide_eq_true_iff] at h
  obtain ⟨⟨huser, -⟩, hhash⟩ := h
  have hsalt' : c.saltHex ≠ [] := by
    rw [Call.saltHex, ne_eq, toHex_eq_nil]
    intro hnil
    rw [hnil] at hsalt
    exact absurd hsalt (by decide)
  have hhash' : c.hashHex derive ≠ [] := by
    rw [Call.hashHex, ne_eq, toHex_eq_nil]
    exact hhash
  have hn : (stoi c.iterations).getD kIterations = kIterations := by
    rw [Call.iterations]
    decide
  have hmany : ¬ kIterations < 1000 := by decide
  rw [verifies, if_neg (by simp [huser, hsalt', hhash'])]
  dsimp only
  rw [hn, if_neg hmany, Call.saltHex, fromHex_toHex, Call.hashHex, fromHex_toHex,
    if_neg (by simp [hhash]), Call.user]
  simp

/-! ### The requests -/

/-- A request that uses the login. -/
inductive Request where
  /-- `POST /api/session`. -/
  | signIn (user password : Bytes)
  /-- `POST /api/password`, with the cookie's session. -/
  | change (token user current new : Bytes)
  deriving DecidableEq, Repr

/-- How far a request is. -/
inductive Pc where
  | finished
  /-- `configured`, before each of its two reads. -/
  | asksUser (r : Request)
  | asksHash (r : Request)
  /-- `valid_session`. -/
  | guarded (r : Request)
  /-- `verify`, before each of its reads. -/
  | readsUser (r : Request)
  | readsHash (r : Request) (user : Secret)
  | readsSalt (r : Request) (user hash : Secret)
  | readsIterations (r : Request) (user hash salt : Secret)
  /-- `set_credentials`, before its checks. -/
  | sets (r : Request)
  /-- Before each of its writes, and before it clears the sessions. -/
  | writesUser (r : Request) (c : Call)
  | writesSalt (r : Request) (c : Call)
  | writesIterations (r : Request) (c : Call)
  | writesHash (r : Request) (c : Call)
  | clears (r : Request) (c : Call)
  /-- `create_session`, with the call whose credentials the sign-in was verified against. -/
  | creates (verified : Option Call)
  deriving DecidableEq, Repr

/-- The user and the password that a request verifies. -/
def Request.credentials : Request → Bytes × Bytes
  | .signIn user password => (user, password)
  | .change _ user current _ => (user, current)

/-- The user and the password that it sets. -/
def Request.sets : Request → Bytes × Bytes
  | .signIn user password => (user, password)
  | .change _ user _ new => (user, new)

/-- The settings, and the sessions that `valid_session` accepts, each with the call its sign-in
was verified against. -/
structure Store where
  user : Secret := {}
  salt : Secret := {}
  iterations : Secret := {}
  hash : Secret := {}
  sessions : List (Bytes × Option Call) := []
  deriving DecidableEq, Repr

/-- The call that all four settings read came from. -/
def fromOne (user hash salt iterations : Secret) : Option Call :=
  if hash.call = user.call ∧ salt.call = user.call ∧ iterations.call = user.call then user.call
  else none

/-- What a request is given from elsewhere: a salt, or none when there is no randomness, and a
token. -/
inductive Input where
  | none
  | salt (s : Option Bytes)
  | token (t : Bytes)
  deriving DecidableEq, Repr

/-- Where a request goes when nobody has set a login. -/
def unclaimed : Request → Pc
  | r@(.signIn _ _) => .sets r
  | .change _ _ _ _ => .finished

/-- One step of a request. -/
def act (s : Store) : Pc → Input → Option (Store × Pc)
  | .asksUser r, .none => some (s, if s.user.value = [] then unclaimed r else .asksHash r)
  | .asksHash r, .none =>
      some (s, if s.hash.value = [] then unclaimed r
        else match r with
          | .signIn _ _ => .readsUser r
          | .change _ _ _ _ => .guarded r)
  | .guarded r, .none =>
      some (s, match r with
        | .change token _ _ _ =>
            if s.sessions.any fun e => e.1 = token then .readsUser r else .finished
        | .signIn _ _ => .finished)
  | .readsUser r, .none => some (s, .readsHash r s.user)
  | .readsHash r user, .none => some (s, .readsSalt r user s.hash)
  | .readsSalt r user hash, .none =>
      some (s, if user.value = [] ∨ hash.value = [] ∨ s.salt.value = [] then .finished
        else .readsIterations r user hash s.salt)
  | .readsIterations r user hash salt, .none =>
      some (s,
        if verifies derive user.value hash.value salt.value s.iterations.value r.credentials.1
            r.credentials.2 then
          match r with
          | .signIn _ _ => .creates (fromOne user hash salt s.iterations)
          | .change _ _ _ _ => .sets r
        else .finished)
  | .sets _, .salt none => some (s, .finished)
  | .sets r, .salt (some salt) =>
      if salt.length ≠ kSaltBytes then none
      else
        let c : Call := ⟨r.sets.1, r.sets.2, salt⟩
        some (s, if c.accepted derive then .writesUser r c else .finished)
  | .writesUser r c, .none => some ({ s with user := ⟨c.user, some c⟩ }, .writesSalt r c)
  | .writesSalt r c, .none => some ({ s with salt := ⟨c.saltHex, some c⟩ }, .writesIterations r c)
  | .writesIterations r c, .none =>
      some ({ s with iterations := ⟨c.iterations, some c⟩ }, .writesHash r c)
  | .writesHash r c, .none => some ({ s with hash := ⟨c.hashHex derive, some c⟩ }, .clears r c)
  | .clears r c, .none =>
      some ({ s with sessions := [] }, match r with
        | .signIn _ _ => .creates (some c)
        | .change _ _ _ _ => .finished)
  | .creates verified, .token t =>
      if t = [] then some (s, .finished)
      else if s.sessions.any fun e => e.1 = t then none
      else some ({ s with sessions := (t, verified) :: s.sessions }, .finished)
  | _, _ => none

/-- The relay: what is stored, and the requests on their threads. -/
structure Relay where
  store : Store := {}
  threads : List Pc := []
  deriving DecidableEq, Repr

/-- What can happen. -/
inductive Event where
  | request (r : Request)
  | run (i : ℕ) (input : Input)
  /-- A session is signed out, or has expired. -/
  | drop (t : Bytes)
  | crash
  deriving DecidableEq, Repr

namespace Relay

/-- One step. -/
def step (s : Relay) : Event → Option Relay
  | .request r => some { s with threads := s.threads ++ [.asksUser r] }
  | .run i input =>
      match s.threads[i]? with
      | none => none
      | some pc =>
          match act derive s.store pc input with
          | none => none
          | some (store, pc') => some { store, threads := s.threads.set i pc' }
  | .drop t =>
      some { s with store := { s.store with sessions := s.store.sessions.filter (·.1 ≠ t) } }
  | .crash => some { store := { s.store with sessions := [] }, threads := [] }

end Relay

/-! ### What is kept -/

namespace Pc

/-- A call has written the first setting, and has not cleared the sessions. -/
def underWay : Pc → Bool
  | .writesSalt _ _ | .writesIterations _ _ | .writesHash _ _ | .clears _ _ => true
  | _ => false

/-- A call has written the first setting, and not the last. -/
def torn : Pc → Bool
  | .writesSalt _ _ | .writesIterations _ _ | .writesHash _ _ => true
  | _ => false

/-- The call that is about to write or to clear. -/
def call : Pc → Option Call
  | .writesUser _ c | .writesSalt _ c | .writesIterations _ c | .writesHash _ c | .clears _ c =>
      some c
  | _ => none

-- their equations are made here, once, and not by the first lemmas that ask for them
section
attribute [local simp] underWay call
end

end Pc

namespace Relay

variable (s : Relay)

/-- A call is under way. -/
def underWay : Bool := s.threads.any Pc.underWay

/-- The four settings come from one call, whose user and password sign in, and every session was
opened by a sign-in verified against them. -/
structure WholeLogin : Prop where
  one : s.store.salt.call = s.store.user.call ∧ s.store.iterations.call = s.store.user.call ∧
    s.store.hash.call = s.store.user.call
  works : ∀ c, s.store.user.call = some c →
    verifies derive s.store.user.value s.store.hash.value s.store.salt.value
      s.store.iterations.value c.userIn c.password = true
  sessions : ∀ e ∈ s.store.sessions, e.2 = s.store.user.call

/-- Whenever no call is under way, the login is whole. -/
def AllOrNothing : Prop := s.underWay = false → s.WholeLogin derive

/-- A call begins to write while no other is under way, there is no crash between its first write
and its last, and a session is opened under the credentials its sign-in was verified against, or
while a call is under way that will clear it. -/
def orderly : Event → Bool
  | .run i _ =>
      match s.threads[i]? with
      | some (.writesUser _ _) => !s.underWay
      | some (.creates v) => s.underWay || decide (v = s.store.user.call)
      | _ => true
  | .crash => s.threads.all fun pc => !pc.torn
  | _ => true

/-- A relay that starts: nobody has set a login, or one call has. -/
def Started : Prop :=
  s = {} ∨ ∃ c : Call, c.Writes derive ∧ s = { store := {
    user := ⟨c.user, some c⟩
    salt := ⟨c.saltHex, some c⟩
    iterations := ⟨c.iterations, some c⟩
    hash := ⟨c.hashHex derive, some c⟩ } }

end Relay

/-! ### The invariant -/

section Invariant

variable {derive}

variable (derive) in
/-- A setting has what its call wrote. -/
def Secret.Is (x : Secret) (f : Call → Bytes) : Prop :=
  ∀ c, x.call = some c → c.Writes derive ∧ x.value = f c

variable (derive) in
/-- The settings have what their calls wrote. -/
structure Written (s : Store) : Prop where
  user : s.user.Is derive Call.user
  salt : s.salt.Is derive Call.saltHex
  iterations : s.iterations.Is derive Call.iterations
  hash : s.hash.Is derive (Call.hashHex derive)

/-- The settings a call has written so far are its own. -/
def Reaches (s : Store) : Pc → Prop
  | .writesSalt _ c => s.user.call = some c
  | .writesIterations _ c => s.user.call = some c ∧ s.salt.call = some c
  | .writesHash _ c => s.user.call = some c ∧ s.salt.call = some c ∧ s.iterations.call = some c
  | .clears _ c => s.user.call = some c ∧ s.salt.call = some c ∧ s.iterations.call = some c ∧
      s.hash.call = some c
  | _ => True

/-- The four come from one call, and so do the sessions' sign-ins. -/
def Agrees (s : Store) : Prop :=
  (s.salt.call = s.user.call ∧ s.iterations.call = s.user.call ∧ s.hash.call = s.user.call) ∧
    ∀ e ∈ s.sessions, e.2 = s.user.call

variable (derive) in
/-- One call at a time is under way, it has written what it says, and where none is, all agrees. -/
structure Steady (s : Relay) : Prop where
  alone : ∀ (i j : ℕ) (pc pc' : Pc), s.threads[i]? = some pc → s.threads[j]? = some pc' →
    pc.underWay = true → pc'.underWay = true → i = j
  written : Written derive s.store
  calls : ∀ pc ∈ s.threads, ∀ c, pc.call = some c → c.Writes derive
  reaches : ∀ (j : ℕ) (pc : Pc), s.threads[j]? = some pc → Reaches s.store pc
  rest : s.underWay = false → Agrees s.store

lemma underWay_eq_false_iff {s : Relay} :
    s.underWay = false ↔ ∀ (j : ℕ) (pc : Pc), s.threads[j]? = some pc → pc.underWay = false := by
  rw [Relay.underWay, List.any_eq_false]
  constructor
  · intro h j pc hj
    simpa using h pc (List.mem_of_getElem? hj)
  · intro h pc hpc
    obtain ⟨j, hj⟩ := List.mem_iff_getElem?.mp hpc
    simpa using h j pc hj

/-- A steady relay's login is whole whenever no call is under way. -/
lemma Steady.allOrNothing {s : Relay} (hs : Steady derive s) : s.AllOrNothing derive := by
  intro hrest
  obtain ⟨⟨hsalt, hiterations, hhash⟩, hsessions⟩ := hs.rest hrest
  refine ⟨⟨hsalt, hiterations, hhash⟩, fun c hc => ?_, hsessions⟩
  obtain ⟨hwrites, huser⟩ := hs.written.user c hc
  rw [huser, (hs.written.salt c (hsalt.trans hc)).2,
    (hs.written.iterations c (hiterations.trans hc)).2, (hs.written.hash c (hhash.trans hc)).2]
  exact verifies_call derive hwrites

/-! ### What one step of a request does -/

variable (derive) in
/-- A step of a request, by what it writes. -/
inductive Moves (s : Store) : Pc → Store → Pc → Prop
  | quiet {pc pc' : Pc} (h : pc.underWay = false) (h' : pc'.underWay = false)
      (hc : ∀ c, pc'.call = some c → c.Writes derive) : Moves s pc s pc'
  | user (r : Request) (c : Call) :
      Moves s (.writesUser r c) { s with user := ⟨c.user, some c⟩ } (.writesSalt r c)
  | salt (r : Request) (c : Call) :
      Moves s (.writesSalt r c) { s with salt := ⟨c.saltHex, some c⟩ } (.writesIterations r c)
  | iterations (r : Request) (c : Call) :
      Moves s (.writesIterations r c) { s with iterations := ⟨c.iterations, some c⟩ }
        (.writesHash r c)
  | hash (r : Request) (c : Call) :
      Moves s (.writesHash r c) { s with hash := ⟨c.hashHex derive, some c⟩ } (.clears r c)
  | clears (r : Request) (c : Call) {pc' : Pc} (h' : pc'.underWay = false)
      (hc : pc'.call = none) : Moves s (.clears r c) { s with sessions := [] } pc'
  | creates (v : Option Call) (t : Bytes) :
      Moves s (.creates v) { s with sessions := (t, v) :: s.sessions } .finished

lemma Moves.of_quiet {s : Store} {pc pc' : Pc} (h : pc.underWay = false)
    (h' : pc'.underWay = false) (hc : pc'.call = none) : Moves derive s pc s pc' :=
  .quiet h h' fun c hc' => absurd (hc.symm.trans hc') (by simp)

lemma unclaimed_spec (r : Request) :
    (unclaimed r).underWay = false ∧ (unclaimed r).call = none := by
  cases r with
  | signIn user password => exact ⟨rfl, rfl⟩
  | change token user current new => exact ⟨rfl, rfl⟩

lemma act_moves {s store : Store} {pc pc' : Pc} {input : Input}
    (h : act derive s pc input = some (store, pc')) : Moves derive s pc store pc' := by
  cases input with
  | none =>
      cases pc with
      | asksUser r =>
          cases h
          refine .of_quiet rfl ?_ ?_
          · split
            · exact (unclaimed_spec r).1
            · rfl
          · split
            · exact (unclaimed_spec r).2
            · rfl
      | asksHash r =>
          cases h
          refine .of_quiet rfl ?_ ?_
          · split
            · exact (unclaimed_spec r).1
            · split <;> rfl
          · split
            · exact (unclaimed_spec r).2
            · split <;> rfl
      | guarded r =>
          cases h
          refine .of_quiet rfl ?_ ?_
          · split
            · split <;> rfl
            · rfl
          · split
            · split <;> rfl
            · rfl
      | readsUser r =>
          cases h
          exact .of_quiet rfl rfl rfl
      | readsHash r user =>
          cases h
          exact .of_quiet rfl rfl rfl
      | readsSalt r user hash =>
          cases h
          refine .of_quiet rfl ?_ ?_ <;> split <;> rfl
      | readsIterations r user hash salt =>
          cases h
          refine .of_quiet rfl ?_ ?_
          · split
            · split <;> rfl
            · rfl
          · split
            · split <;> rfl
            · rfl
      | writesUser r c =>
          cases h
          exact .user r c
      | writesSalt r c =>
          cases h
          exact .salt r c
      | writesIterations r c =>
          cases h
          exact .iterations r c
      | writesHash r c =>
          cases h
          exact .hash r c
      | clears r c =>
          cases h
          refine .clears r c ?_ ?_ <;> split <;> rfl
      | _ => cases h
  | salt b =>
      cases pc with
      | sets r =>
          cases b with
          | none =>
              cases h
              exact .of_quiet rfl rfl rfl
          | some b =>
              rw [act] at h
              split at h
              · cases h
              · rename_i hlen
                cases h
                refine .quiet rfl ?_ ?_
                · split <;> rfl
                · intro c hc
                  split at hc
                  · rename_i hacc
                    cases hc
                    exact ⟨not_not.mp hlen, hacc⟩
                  · cases hc
      | _ => cases h
  | token t =>
      cases pc with
      | creates v =>
          rw [act] at h
          split at h
          · cases h
            exact .of_quiet rfl rfl rfl
          · split at h
            · cases h
            · cases h
              exact .creates v t
      | _ => cases h

/-! ### The threads -/

variable {s : Relay} {i : ℕ} {pc pc' : Pc}

lemma getElem?_set_eq {l : List Pc} (h : l[i]? = some pc) (j : ℕ) :
    (l.set i pc')[j]? = if i = j then some pc' else l[j]? := by
  have hlt : i < l.length := (List.getElem?_eq_some_iff.mp h).1
  rw [List.getElem?_set]
  split
  · rfl
  · rfl

/-- A thread that goes on is alone if it was, or if there was none. -/
lemma alone_set {store : Store} (hs : Steady derive s) (hi : s.threads[i]? = some pc)
    (h : pc'.underWay = true → pc.underWay = true ∨ s.underWay = false) :
    ∀ (j k : ℕ) (q q' : Pc), (Relay.mk store (s.threads.set i pc')).threads[j]? = some q →
      (Relay.mk store (s.threads.set i pc')).threads[k]? = some q' →
      q.underWay = true → q'.underWay = true → j = k := by
  have hone (k : ℕ) (q' : Pc) (hk : s.threads[k]? = some q') (hup : pc'.underWay = true)
      (hq' : q'.underWay = true) : i = k := by
    rcases h hup with hpc | hno
    · exact hs.alone i k pc q' hi hk hpc hq'
    · have := underWay_eq_false_iff.mp hno k q' hk
      exact absurd (this.symm.trans hq') Bool.false_ne_true
  intro j k q q' hj hk hq hq'
  dsimp only at hj hk
  rw [getElem?_set_eq hi] at hj hk
  split at hj
  · rename_i hij
    split at hk
    · rename_i hik
      exact hij.symm.trans hik
    · cases hj
      exact hij.symm.trans (hone k q' hk hq hq')
  · split at hk
    · rename_i hik
      cases hk
      exact (hone j q hj hq' hq).symm.trans hik
    · exact hs.alone j k q q' hj hk hq hq'

/-- Where no call is under way after a step of a thread, none was before, but for its own. -/
lemma underWay_of_set {store : Store} (hi : s.threads[i]? = some pc)
    (h : (Relay.mk store (s.threads.set i pc')).underWay = false) (hpc : pc.underWay = false) :
    s.underWay = false := by
  rw [underWay_eq_false_iff] at h ⊢
  intro j q hj
  have := h j
  dsimp only at this
  rw [getElem?_set_eq hi] at this
  split at this
  · rename_i hij
    rw [← hij, hi] at hj
    cases hj
    exact hpc
  · exact this q hj

lemma reaches_of_not_underWay {store : Store} {q : Pc} (h : q.underWay = false) :
    Reaches store q := by
  cases q <;> trivial

lemma not_underWay_set (hi : s.threads[i]? = some pc) (hpc : pc'.underWay = true)
    {store : Store} : (Relay.mk store (s.threads.set i pc')).underWay ≠ false := by
  intro h
  have := underWay_eq_false_iff.mp h i pc' (by
    show (s.threads.set i pc')[i]? = some pc'
    rw [getElem?_set_eq hi, if_pos rfl])
  exact Bool.false_ne_true (this.symm.trans hpc)

/-- A step of a thread keeps a relay steady where it is alone in what it does, writes what it
should, and leaves the other threads' writes. -/
lemma Steady.set {store : Store} (hs : Steady derive s) (hi : s.threads[i]? = some pc)
    (halone : pc'.underWay = true → pc.underWay = true ∨ s.underWay = false)
    (hwritten : Written derive store) (hcalls : ∀ c, pc'.call = some c → c.Writes derive)
    (hreaches : Reaches store pc')
    (hothers : ∀ (j : ℕ) (q : Pc), j ≠ i → s.threads[j]? = some q → Reaches store q)
    (hrest : (Relay.mk store (s.threads.set i pc')).underWay = false → Agrees store) :
    Steady derive (Relay.mk store (s.threads.set i pc')) where
  alone := alone_set hs hi halone
  written := hwritten
  calls q hq c hc := by
    rcases List.mem_or_eq_of_mem_set hq with hq | rfl
    · exact hs.calls q hq c hc
    · exact hcalls c hc
  reaches j q hj := by
    dsimp only at hj
    rw [getElem?_set_eq hi] at hj
    split at hj
    · cases hj
      exact hreaches
    · rename_i hij
      exact hothers j q (fun h => hij h.symm) hj
  rest := hrest

/-- The other threads of a relay in which this one's call is under way have none. -/
lemma Steady.others {store : Store} (hs : Steady derive s) (hi : s.threads[i]? = some pc)
    (hpc : pc.underWay = true) (j : ℕ) (q : Pc) (hj : j ≠ i) (hq : s.threads[j]? = some q) :
    Reaches store q := by
  refine reaches_of_not_underWay ?_
  by_contra hup
  exact hj (hs.alone j i q pc hq hi (Bool.eq_true_of_not_eq_false hup) hpc)

lemma Steady.moves {store : Store} (hs : Steady derive s) (hi : s.threads[i]? = some pc)
    (hm : Moves derive s.store pc store pc')
    (hfirst : ∀ r c, pc = .writesUser r c → s.underWay = false)
    (hopens : ∀ v, pc = .creates v → s.underWay = true ∨ v = s.store.user.call) :
    Steady derive (Relay.mk store (s.threads.set i pc')) := by
  have hcall (c : Call) (hc : pc.call = some c) : c.Writes derive :=
    hs.calls pc (List.mem_of_getElem? hi) c hc
  have hreach := hs.reaches i pc hi
  have hkeep (j : ℕ) (q : Pc) (_ : j ≠ i) (hq : s.threads[j]? = some q) : Reaches s.store q :=
    hs.reaches j q hq
  cases hm with
  | quiet h h' hc =>
      refine hs.set hi (fun hup => absurd (h'.symm.trans hup) Bool.false_ne_true) hs.written hc
        (reaches_of_not_underWay h') hkeep fun hno => ?_
      exact hs.rest (underWay_of_set hi hno h)
  | user r c =>
      have hno := hfirst r c rfl
      refine hs.set hi (fun _ => Or.inr hno) { hs.written with user := ?_ }
        (fun d hd => hcall d hd) rfl (fun j q _ hq => ?_) fun h => ?_
      · rintro d ⟨⟩
        exact ⟨hcall c rfl, rfl⟩
      · exact reaches_of_not_underWay (underWay_eq_false_iff.mp hno j q hq)
      · exact absurd h (not_underWay_set hi rfl)
  | salt r c =>
      refine hs.set hi (fun _ => Or.inl rfl) { hs.written with salt := ?_ }
        (fun d hd => hcall d hd) ⟨hreach, rfl⟩ (hs.others hi rfl) fun h => ?_
      · rintro d ⟨⟩
        exact ⟨hcall c rfl, rfl⟩
      · exact absurd h (not_underWay_set hi rfl)
  | iterations r c =>
      refine hs.set hi (fun _ => Or.inl rfl) { hs.written with iterations := ?_ }
        (fun d hd => hcall d hd) ⟨hreach.1, hreach.2, rfl⟩ (hs.others hi rfl) fun h => ?_
      · rintro d ⟨⟩
        exact ⟨hcall c rfl, rfl⟩
      · exact absurd h (not_underWay_set hi rfl)
  | hash r c =>
      refine hs.set hi (fun _ => Or.inl rfl) { hs.written with hash := ?_ }
        (fun d hd => hcall d hd) ⟨hreach.1, hreach.2.1, hreach.2.2, rfl⟩ (hs.others hi rfl)
        fun h => ?_
      · rintro d ⟨⟩
        exact ⟨hcall c rfl, rfl⟩
      · exact absurd h (not_underWay_set hi rfl)
  | clears r c h' hc =>
      obtain ⟨huser, hsalt, hiterations, hhash⟩ := hreach
      refine hs.set hi (fun hup => absurd (h'.symm.trans hup) Bool.false_ne_true)
        { hs.written with } (fun d hd => absurd (hc.symm.trans hd) (by simp))
        (reaches_of_not_underWay h') (hs.others hi rfl) fun _ => ?_
      refine ⟨⟨hsalt.trans huser.symm, hiterations.trans huser.symm, hhash.trans huser.symm⟩, ?_⟩
      exact fun e he => absurd he List.not_mem_nil
  | creates v t =>
      refine hs.set hi (fun hup => absurd hup (by decide)) { hs.written with }
        (fun d hd => absurd hd (by simp [Pc.call])) trivial (fun j q hj hq => ?_) fun hno => ?_
      · have := hkeep j q hj hq
        cases q <;> exact this
      · have hrest := underWay_of_set hi hno rfl
        obtain ⟨hone, hsessions⟩ := hs.rest hrest
        refine ⟨hone, fun e he => ?_⟩
        rcases List.mem_cons.mp he with rfl | he
        · rcases hopens v rfl with h | h
          · exact absurd (hrest.symm.trans h) Bool.false_ne_true
          · exact h
        · exact hsessions e he

lemma Reaches.of_calls {store store' : Store} {q : Pc} (h : Reaches store q)
    (huser : store'.user = store.user) (hsalt : store'.salt = store.salt)
    (hiterations : store'.iterations = store.iterations) (hhash : store'.hash = store.hash) :
    Reaches store' q := by
  cases q <;> simp only [Reaches, huser, hsalt, hiterations, hhash] at h ⊢ <;> exact h

/-- A request that comes in is at its beginning. -/
lemma Steady.request (hs : Steady derive s) (r : Request) :
    Steady derive { s with threads := s.threads ++ [.asksUser r] } := by
  have hthread {j : ℕ} {q : Pc} (hj : (s.threads ++ [.asksUser r])[j]? = some q) :
      s.threads[j]? = some q ∨ q = .asksUser r := by
    rw [List.getElem?_append] at hj
    split at hj
    · exact Or.inl hj
    · exact Or.inr (List.mem_singleton.mp (List.mem_of_getElem? hj))
  refine ⟨fun j k q q' hj hk hq hq' => ?_, hs.written, fun q hq c hc => ?_, fun j q hj => ?_,
    fun h => hs.rest ?_⟩
  · rcases hthread hj with hj | rfl
    · rcases hthread hk with hk | rfl
      · exact hs.alone j k q q' hj hk hq hq'
      · exact absurd hq' (by simp [Pc.underWay])
    · exact absurd hq (by simp [Pc.underWay])
  · rcases List.mem_append.mp hq with hq | hq
    · exact hs.calls q hq c hc
    · rw [List.mem_singleton.mp hq] at hc
      exact absurd hc (by simp [Pc.call])
  · rcases hthread hj with hj | rfl
    · exact hs.reaches j q hj
    · trivial
  · simpa [Relay.underWay, Pc.underWay] using h

/-- A session that goes leaves the rest. -/
lemma Steady.drop (hs : Steady derive s) (t : Bytes) :
    Steady derive { s with store := { s.store with
      sessions := s.store.sessions.filter (·.1 ≠ t) } } where
  alone := hs.alone
  written := { hs.written with }
  calls := hs.calls
  reaches j q hj := (hs.reaches j q hj).of_calls rfl rfl rfl rfl
  rest h := by
    obtain ⟨hone, hsessions⟩ := hs.rest h
    exact ⟨hone, fun e he => hsessions e (List.mem_of_mem_filter he)⟩

/-- After a crash that tears no call, the four settings are those of one. -/
lemma Steady.crash (hs : Steady derive s) (hc : ∀ pc ∈ s.threads, pc.torn = false) :
    Steady derive { store := { s.store with sessions := [] }, threads := [] } where
  alone i j pc pc' hi := absurd hi (by simp)
  written := { hs.written with }
  calls pc hpc := absurd hpc List.not_mem_nil
  reaches j pc hj := absurd hj (by simp)
  rest _ := by
    refine ⟨?_, fun e he => absurd he List.not_mem_nil⟩
    cases hup : s.underWay with
    | false => exact (hs.rest hup).1
    | true =>
        obtain ⟨pc, hpc, hpcup⟩ := List.any_eq_true.mp hup
        obtain ⟨j, hj⟩ := List.mem_iff_getElem?.mp hpc
        have htorn := hc pc hpc
        have hreach := hs.reaches j pc hj
        cases pc with
        | clears r c =>
            obtain ⟨huser, hsalt, hiterations, hhash⟩ := hreach
            exact ⟨hsalt.trans huser.symm, hiterations.trans huser.symm, hhash.trans huser.symm⟩
        | writesSalt r c => exact absurd htorn (by simp [Pc.torn])
        | writesIterations r c => exact absurd htorn (by simp [Pc.torn])
        | writesHash r c => exact absurd htorn (by simp [Pc.torn])
        | _ => exact absurd hpcup (by simp [Pc.underWay])

/-- **One step keeps the login whole.** -/
lemma Steady.step {t : Relay} {a : Event} (hs : Steady derive s) (hc : s.orderly a = true)
    (h : s.step derive a = some t) : Steady derive t := by
  cases a with
  | request r =>
      cases h
      exact hs.request r
  | run i input =>
      rw [Relay.step] at h
      cases hi : s.threads[i]? with
      | none =>
          rw [hi] at h
          cases h
      | some pc =>
          rw [hi] at h
          dsimp only at h
          cases ha : act derive s.store pc input with
          | none =>
              rw [ha] at h
              cases h
          | some x =>
              rw [ha] at h
              cases h
              refine hs.moves hi (act_moves ha) (fun r c hpc => ?_) fun v hpc => ?_
              · rw [Relay.orderly, hi, hpc] at hc
                simpa using hc
              · rw [Relay.orderly, hi, hpc] at hc
                simpa using hc
  | drop t =>
      cases h
      exact hs.drop t
  | crash =>
      cases h
      refine hs.crash fun pc hpc => ?_
      simpa using List.all_eq_true.mp hc pc hpc

lemma steady_of_started (h : Relay.Started derive s) : Steady derive s := by
  rcases h with rfl | ⟨c, hc, rfl⟩
  · refine ⟨fun i j pc pc' hi => absurd hi (by simp), ?_, fun pc hpc => absurd hpc List.not_mem_nil,
      fun j pc hj => absurd hj (by simp), fun _ => ⟨⟨rfl, rfl, rfl⟩, fun e he => ?_⟩⟩
    · constructor <;> exact fun c hc => absurd hc (by simp)
    · exact absurd he List.not_mem_nil
  · refine ⟨fun i j pc pc' hi => absurd hi (by simp), ?_, fun pc hpc => absurd hpc List.not_mem_nil,
      fun j pc hj => absurd hj (by simp), fun _ => ⟨⟨rfl, rfl, rfl⟩, fun e he => ?_⟩⟩
    · constructor <;> (rintro d ⟨⟩; exact ⟨hc, rfl⟩)
    · exact absurd he List.not_mem_nil

end Invariant

/-- **Changing the login is all or nothing** in every run in which one call writes at a time, no
crash comes between its first write and its last, and a session is opened while the credentials
its sign-in was verified against are the ones stored. -/
theorem wholeLogin_of_reached {derive : Bytes → Bytes → ℤ → Bytes} {s : Relay}
    (hs : Lib.Reach (Relay.step derive) (fun s a => s.orderly a = true) (Relay.Started derive) s) :
    s.AllOrNothing derive :=
  Steady.allOrNothing (hs.invariant (fun _ => steady_of_started) fun _ _ _ hs hc h => hs.step hc h)

/-! ### Runs -/

/-- A derivation for the runs below: the password, and then the salt. -/
def sampleDerive (password salt : Bytes) (_ : ℤ) : Bytes := password ++ salt

/-- The operator's login, and the salt of its call. -/
def sampleCall : Call :=
  { userIn := bytesOf "anna", password := bytesOf "first-password", salt := List.replicate 16 1 }

/-- The relay with that login. -/
def sampleRelay : Relay :=
  { store := {
      user := ⟨sampleCall.user, some sampleCall⟩
      salt := ⟨sampleCall.saltHex, some sampleCall⟩
      iterations := ⟨sampleCall.iterations, some sampleCall⟩
      hash := ⟨sampleCall.hashHex sampleDerive, some sampleCall⟩ } }

lemma started_sampleRelay : Relay.Started sampleDerive sampleRelay :=
  Or.inr ⟨sampleCall, ⟨by decide, by decide⟩, rfl⟩

/-- The steps of a thread that are given nothing. -/
def runs (i n : ℕ) : List Event := List.replicate n (.run i .none)

/-- The operator signs in. -/
def sampleSignIn (i : ℕ) (token : UInt8) : List Event :=
  [Event.request (.signIn (bytesOf "anna") (bytesOf "first-password"))] ++ runs i 6 ++
    [Event.run i (.token [token])]

/-- A change of the password, up to its first write. -/
def sampleChange (i : ℕ) (token : UInt8) : List Event :=
  [Event.request (.change [token] (bytesOf "anna") (bytesOf "first-password")
    (bytesOf "other-password"))]
    ++ runs i 7 ++ [Event.run i (.salt (some (List.replicate 16 2)))]

/-- Two first claims whose writes are mixed. -/
def sampleClaims : List Event :=
  [Event.request (.signIn (bytesOf "anna") (bytesOf "first-password")),
    .request (.signIn (bytesOf "bert") (bytesOf "other-password")), .run 0 .none, .run 1 .none,
    .run 0 (.salt (some (List.replicate 16 1))),
    .run 1 (.salt (some (List.replicate 16 2)))] ++ runs 0 2 ++ runs 1 5 ++ runs 0 3

/-- Whether the operator signs in with that password. -/
def signs (s : Store) (password : Bytes) : Bool :=
  verifies sampleDerive s.user.value s.hash.value s.salt.value s.iterations.value
    (bytesOf "anna") password

/-- The operator's sign-in, and a change of the password. -/
theorem wholeLogin_of_reached_changed :
    ∃ s : Relay, (s.underWay = false ∧ s.store.sessions = [([8], s.store.user.call)]) ∧
      s.AllOrNothing sampleDerive := by
  obtain ⟨s, hs, hstate⟩ := (Lib.exists_reach_guarded sampleRelay
    (sampleSignIn 0 7 ++ sampleChange 1 7 ++ runs 1 5 ++
      [Event.request (.signIn (bytesOf "anna") (bytesOf "other-password"))] ++ runs 2 6 ++
      [Event.run 2 (.token [8])]) started_sampleRelay (by decide +kernel) :
    ∃ s, Lib.Reach (Relay.step sampleDerive) (fun s a => s.orderly a = true)
      (Relay.Started sampleDerive) s ∧
      (s.underWay = false ∧ s.store.sessions = [([8], s.store.user.call)]))
  exact ⟨s, hstate, wholeLogin_of_reached hs⟩

/-- A crash after two of the four writes leaves a login that neither password opens; two first
claims whose writes are mixed leave a user and a hash of different calls; and a sign-in verified
before a change opens its session after it. -/
theorem login_torn :
    (∃ s : Relay, Lib.Reach (Relay.step sampleDerive) Lib.anyStep (Relay.Started sampleDerive) s ∧
      s.threads = [] ∧ signs s.store (bytesOf "first-password") = false ∧
      signs s.store (bytesOf "other-password") = false ∧ ¬ s.AllOrNothing sampleDerive) ∧
    (∃ s : Relay, Lib.Reach (Relay.step sampleDerive) Lib.anyStep (Relay.Started sampleDerive) s ∧
      s.underWay = false ∧ s.store.hash.call ≠ s.store.user.call ∧
      ¬ s.AllOrNothing sampleDerive) ∧
    ∃ s : Relay, Lib.Reach (Relay.step sampleDerive) Lib.anyStep (Relay.Started sampleDerive) s ∧
      s.underWay = false ∧ s.store.sessions = [([8], some sampleCall)] ∧
      s.store.user.call ≠ some sampleCall ∧ ¬ s.AllOrNothing sampleDerive := by
  refine ⟨?_, ?_, ?_⟩
  · obtain ⟨s, hs, hrest, hfirst, hother, hsalt⟩ := (Lib.exists_reach sampleRelay
      (sampleSignIn 0 7 ++ sampleChange 1 7 ++ runs 1 2 ++ [Event.crash])
      started_sampleRelay (by decide +kernel) :
      ∃ s, Lib.Reach (Relay.step sampleDerive) Lib.anyStep (Relay.Started sampleDerive) s ∧
        (s.threads = [] ∧ signs s.store (bytesOf "first-password") = false ∧
          signs s.store (bytesOf "other-password") = false ∧
          s.store.hash.call ≠ s.store.user.call))
    refine ⟨s, hs, hrest, hfirst, hother, fun h => hsalt (h ?_).one.2.2⟩
    rw [Relay.underWay, hrest]
    rfl
  · obtain ⟨s, hs, hrest, hmixed⟩ := (Lib.exists_reach {} sampleClaims (Or.inl rfl)
      (by decide +kernel) :
      ∃ s, Lib.Reach (Relay.step sampleDerive) Lib.anyStep (Relay.Started sampleDerive) s ∧
        (s.underWay = false ∧ s.store.hash.call ≠ s.store.user.call))
    exact ⟨s, hs, hrest, hmixed, fun h => hmixed (h hrest).one.2.2⟩
  · obtain ⟨s, hs, hrest, hsessions, hnew⟩ := (Lib.exists_reach sampleRelay
      (sampleSignIn 0 7 ++
        [Event.request (.signIn (bytesOf "anna") (bytesOf "first-password"))] ++ runs 1 6 ++
        sampleChange 2 7 ++ runs 2 5 ++ [Event.run 1 (.token [8])])
      started_sampleRelay (by decide +kernel) :
      ∃ s, Lib.Reach (Relay.step sampleDerive) Lib.anyStep (Relay.Started sampleDerive) s ∧
        (s.underWay = false ∧ s.store.sessions = [([8], some sampleCall)] ∧
          s.store.user.call ≠ some sampleCall))
    refine ⟨s, hs, hrest, hsessions, hnew, fun h => hnew ?_⟩
    have hmem : ([8], some sampleCall) ∈ s.store.sessions := by
      rw [hsessions]
      exact List.mem_singleton.mpr rfl
    exact ((h hrest).sessions _ hmem).symm

end Login

end Multisite

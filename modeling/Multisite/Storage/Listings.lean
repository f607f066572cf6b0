import Multisite.Storage.Manager

/-!
The three loops that follow a listing page by page, against a store that may answer anything
(`EventCatalog::collect_event_ids`, `StorageManager::list_prefix`, `RoomFeeder::event_parts`).

The first two allow so many pages and go on only where a page is marked truncated; the third does
neither.

* `followPages_spec`: what any such loop keeps to;
* `followPages_ends_iff`: when a loop without a bound ends at the right page;
* `listings_end`: what holds of the three.
-/

namespace Multisite

/-! ### A store that may answer anything -/

/-- What `Transport::list` is asked. -/
structure ListRequest where
  pre : String
  delimiter : String := ""
  token : String := ""
  maxKeys : ℕ := 1000
  deriving DecidableEq, Repr

/-- `ListResult`, as far as the loops read it. -/
structure ListAnswer where
  success : Bool := false
  error : String := ""
  commonPrefixes : List String := []
  keys : List (String × ℤ) := []
  truncated : Bool := false
  nextContinuationToken : String := ""
  deriving DecidableEq, Repr

/-- What a store answers to the request of that number, counted from 0. -/
abbrev ListStore := ℕ → ListRequest → ListAnswer

/-- How a loop over pages ends; `tooMany` is one that has used up its pages. -/
inductive PagesEnd where
  | finished
  | tooMany
  | failed (error : String)
  | cancelled
  deriving DecidableEq, Repr

/-! ### The loop -/

section

variable (store : ListStore) (ask : String → ListRequest) (next : ListAnswer → String)

/-- A loop over so many pages, from the request of that number on: the answers, and how it ends.
`next` is the token it goes on with, empty where it does not, and the cancel flag is read before
each request. -/
def followPages (cancelled : ℕ → Bool) : ℕ → ℕ → String → List ListAnswer × PagesEnd
  | 0, n, _ => ([], if cancelled n then .cancelled else .tooMany)
  | left + 1, n, token =>
      if cancelled n then ([], .cancelled)
      else
        let r := store n (ask token)
        if r.success = false then ([r], .failed r.error)
        else if next r = "" then ([r], .finished)
        else
          let more := followPages cancelled left (n + 1) (next r)
          (r :: more.1, more.2)

/-- The answer to the `k`-th request where every token is followed. -/
def answerAt : ℕ → ℕ → String → ListAnswer
  | 0, n, token => store n (ask token)
  | k + 1, n, token => answerAt k (n + 1) (next (store n (ask token)))

/-- An answer that ends the loop. -/
def ListAnswer.Ends (r : ListAnswer) : Prop := r.success = false ∨ next r = ""

instance (r : ListAnswer) : Decidable (r.Ends next) := inferInstanceAs (Decidable (_ ∨ _))

end

/-- The token of a page that is marked truncated. -/
def ListAnswer.nextIfTruncated (r : ListAnswer) : String :=
  if r.truncated then r.nextContinuationToken else ""

/-- What the pages of a listing hold. -/
def keysOfPages (pages : List ListAnswer) : List (String × ℤ) :=
  (pages.filter (·.success)).flatMap (·.keys)

/-- `kMaxPagesPerPrefix`. -/
def kMaxPagesPerPrefix : ℕ := 400

namespace ListStore

/-! ### The three listings -/

/-- The listing of the room index. -/
def indexPages (store : ListStore) (roomId : String) : List ListAnswer × PagesEnd :=
  followPages store (fun token => { pre := roomEventsPrefix roomId, token }) (·.nextIfTruncated)
    (fun _ => false) kMaxPages 0 ""

/-- The scan of `events/`, after so many requests. -/
def scanPages (store : ListStore) (asked : ℕ) : List ListAnswer × PagesEnd :=
  followPages store (fun token => { pre := "events/", delimiter := "/", token })
    (·.nextIfTruncated) (fun _ => false) kMaxPages asked ""

/-- The ids of index entries, each once: an `std::set`. -/
def idsOf (keys : List String) : List String :=
  ((keys.map eventIdFromIndexKey).filter (· ≠ "")).dedup.insertionSort (· ≤ ·)

/-- `EventCatalog::collect_event_ids`, as far as it lists: the ids of the index and those the scan
finds besides, newest first, or the error; and the answers of both listings. -/
def collectEventIds (store : ListStore) (roomId : String) :
    Except String (List String × List String) × List ListAnswer × List ListAnswer :=
  let index := indexPages store roomId
  match index.2 with
  | .tooMany =>
      (.error ("the room index did not finish listing after " ++ toString kMaxPages ++ " pages"),
        index.1, [])
  | .failed e => (.error e, index.1, [])
  | _ =>
      let out := idsOf ((keysOfPages index.1).map (·.1))
      let scan := scanPages store index.1.length
      let found := ((scan.1.filter (·.success)).flatMap (·.commonPrefixes)).map eventIdFromIndexKey
      let candidates := (found.filter fun id => id ≠ "" ∧ id ∉ out).insertionSort (· ≥ ·)
      match scan.2 with
      -- a failed scan is an error only where the index has given nothing
      | .failed e =>
          (if out = [] then .error e else .ok (out, candidates), index.1, scan.1)
      | _ => (.ok (out, candidates), index.1, scan.1)

/-- `StorageManager::list_prefix`: the keys and their bytes, or the error; and the answers. -/
def listPrefix (store : ListStore) (pre : String) (cancelled : ℕ → Bool) :
    Except String (List String × ℤ) × List ListAnswer :=
  let r := followPages store (fun token => { pre, token }) (·.nextIfTruncated) cancelled
    kMaxPagesPerPrefix 0 ""
  (match r.2 with
  | .finished =>
      .ok ((keysOfPages r.1).map (·.1), ((keysOfPages r.1).map fun e => max e.2 0).sum)
  | .tooMany =>
      .error ("listing " ++ pre ++ " did not finish after " ++ toString kMaxPagesPerPrefix ++
        " pages")
  | .failed e => .error e
  | .cancelled => .error "cancelled", r.1)

/-- `RoomFeeder::event_parts`, for as many requests as it is given: the parts of a recording, or
the error, once it has returned; and the answers. -/
def eventParts (transport : Option ListStore) (eventId : String) (requests : ℕ) :
    Option (Except String (List (String × ℤ))) × List ListAnswer :=
  match transport with
  | none =>
      (some (.error "This relay has no cloud storage configured, and past events need it."), [])
  | some store =>
      let pre := eventPrefixFor eventId
      let segPrefix := pre ++ "segments/"
      let r := followPages store (fun token => { pre, token }) (·.nextContinuationToken)
        (fun _ => false) requests 0 ""
      match r.2 with
      | .tooMany => (none, r.1)
      | .finished =>
          let entries := keysOfPages r.1
          let segments := entries.filter fun e =>
            Under segPrefix e.1 ∧ segPrefix.toList.length < e.1.toList.length
          match entries.find? fun e => e.1 = pre ++ "init.mp4" with
          | none => (some (.error "That event has no opening data and cannot be downloaded."), r.1)
          | some init =>
              -- the names are padded with zeros: their order is that of play
              (some (.ok (init :: segments.insertionSort fun a b => a.1 ≤ b.1)), r.1)
      | _ => (some (.error "Could not read that event from storage."), r.1)

/-! ### What a loop over pages keeps to -/

section

variable {store : ListStore} {ask : String → ListRequest} {next : ListAnswer → String}
  {cancelled : ℕ → Bool}

/-- A loop makes no more requests than it may, and goes on from an answer only where that ends
nothing. -/
lemma followPages_spec (left n : ℕ) (token : String) :
    (followPages store ask next cancelled left n token).1.length ≤ left ∧
      ∀ r ∈ (followPages store ask next cancelled left n token).1.dropLast, ¬r.Ends next := by
  induction left generalizing n token with
  | zero => exact ⟨le_rfl, by simp [followPages]⟩
  | succ left ih =>
      rw [followPages]
      split
      · simp
      · dsimp only
        split
        · simp
        · rename_i hok
          split
          · simp
          · rename_i hnext
            obtain ⟨hlen, hgo⟩ := ih (n + 1) (next (store n (ask token)))
            refine ⟨by rw [List.length_cons]; omega, fun r hr => ?_⟩
            cases hmore : (followPages store ask next cancelled left (n + 1)
                (next (store n (ask token)))).1 with
            | nil => rw [hmore] at hr; exact absurd hr (by simp)
            | cons r' more =>
                rw [hmore, List.dropLast_cons_cons] at hr
                rcases List.mem_cons.mp hr with rfl | hr
                · exact fun h => h.elim hok hnext
                · exact hgo r (by rwa [hmore])

/-- A loop that comes to an end has had an answer, or was cancelled. -/
lemma followPages_ne_nil {left n : ℕ} {token : String}
    (h : (followPages store ask next (fun _ => false) left n token).2 ≠ .tooMany) :
    (followPages store ask next (fun _ => false) left n token).1 ≠ [] := by
  cases left with
  | zero => exact absurd rfl h
  | succ left =>
      rw [followPages]
      simp only [Bool.false_eq_true, ↓reduceIte]
      split
      · simp
      · split <;> simp

/-- Nothing is asked for after the first page that is not marked truncated. -/
def StopsInTime (pages : List ListAnswer) : Prop := ∀ r ∈ pages.dropLast, r.truncated = true

instance (pages : List ListAnswer) : Decidable (StopsInTime pages) :=
  List.decidableBAll (fun r : ListAnswer => r.truncated = true) _

lemma stopsInTime_cons {r : ListAnswer} {pages : List ListAnswer} (h : pages ≠ []) :
    StopsInTime (r :: pages) ↔ r.truncated = true ∧ StopsInTime pages := by
  rw [StopsInTime, List.dropLast_cons_of_ne_nil h, List.forall_mem_cons, StopsInTime]

/-- A loop that goes on only with a truncated page stops in time. -/
lemma stopsInTime_followPages (left n : ℕ) (token : String) :
    StopsInTime (followPages store ask (·.nextIfTruncated) cancelled left n token).1 := by
  intro r hr
  have h := (followPages_spec left n token).2 r hr
  rw [ListAnswer.Ends, not_or] at h
  by_contra hnot
  exact h.2 (if_neg hnot)

/-- **When a loop ends at the right page**: some answer ends it, and every answer before that is
marked truncated. -/
lemma followPages_ends_iff (left n : ℕ) (token : String) :
    (followPages store ask next (fun _ => false) left n token).2 ≠ .tooMany ∧
        StopsInTime (followPages store ask next (fun _ => false) left n token).1 ↔
      ∃ k < left, (answerAt store ask next k n token).Ends next ∧
        ∀ m < k, (answerAt store ask next m n token).truncated = true := by
  induction left generalizing n token with
  | zero => simp [followPages]
  | succ left ih =>
      by_cases hends : (store n (ask token)).Ends next
      · -- the first answer ends it
        have hone : (followPages store ask next (fun _ => false) (left + 1) n token).2 ≠ .tooMany ∧
            StopsInTime (followPages store ask next (fun _ => false) (left + 1) n token).1 := by
          rw [followPages]
          simp only [Bool.false_eq_true, ↓reduceIte]
          split
          · simp [StopsInTime]
          · rename_i hok
            rw [if_pos (hends.resolve_left hok)]
            simp [StopsInTime]
        exact iff_of_true hone ⟨0, Nat.succ_pos _, hends, fun m hm => absurd hm (Nat.not_lt_zero m)⟩
      · have hgo := not_or.mp hends
        have hih := ih (n + 1) (next (store n (ask token)))
        rw [followPages]
        simp only [Bool.false_eq_true, ↓reduceIte, if_neg hgo.1, if_neg hgo.2]
        constructor
        · rintro ⟨hend, hstops⟩
          obtain ⟨hfirst, hrest⟩ := (stopsInTime_cons (followPages_ne_nil hend)).mp hstops
          obtain ⟨k, hk, hkends, hbefore⟩ := hih.mp ⟨hend, hrest⟩
          refine ⟨k + 1, by omega, hkends, fun m hm => ?_⟩
          cases m with
          | zero => exact hfirst
          | succ m => exact hbefore m (by omega)
        · rintro ⟨k, hk, hkends, hbefore⟩
          cases k with
          | zero => exact absurd hkends hends
          | succ k =>
              obtain ⟨hend, hrest⟩ := hih.mpr ⟨k, by omega, hkends, fun m hm =>
                hbefore (m + 1) (by omega)⟩
              exact ⟨hend, (stopsInTime_cons (followPages_ne_nil hend)).mpr
                ⟨hbefore 0 (Nat.succ_pos k), hrest⟩⟩

end

/-! ### The statement -/

/-- `event_parts` returns, and asks for nothing after the first page that is not marked
truncated. -/
def PartsEnd (store : ListStore) (eventId : String) : Prop :=
  ∃ requests, (eventParts (some store) eventId requests).1.isSome = true ∧
    StopsInTime (eventParts (some store) eventId requests).2

/-- What the store answers to the `k`-th request of `event_parts`. -/
def partsAnswer (store : ListStore) (eventId : String) (k : ℕ) : ListAnswer :=
  answerAt store (fun token => { pre := eventPrefixFor eventId, token }) (·.nextContinuationToken)
    k 0 ""

lemma partsEnd_iff {store : ListStore} {eventId : String} : PartsEnd store eventId ↔
    ∃ k, (partsAnswer store eventId k).Ends (·.nextContinuationToken) ∧
      ∀ m < k, (partsAnswer store eventId m).truncated = true := by
  have hreturns (requests : ℕ) : (eventParts (some store) eventId requests).1.isSome = true ∧
      StopsInTime (eventParts (some store) eventId requests).2 ↔
      ∃ k < requests, (partsAnswer store eventId k).Ends (·.nextContinuationToken) ∧
        ∀ m < k, (partsAnswer store eventId m).truncated = true := by
    refine Iff.trans ?_ (@followPages_ends_iff store
      (fun token => { pre := eventPrefixFor eventId, token }) (·.nextContinuationToken) requests 0 "")
    rw [eventParts]
    dsimp only
    split
    · rename_i hend
      simp [hend]
    · rename_i hend
      split <;> simp [hend]
    · rename_i hmany hfinished
      simpa using fun _ => hmany
  simp only [PartsEnd, hreturns]
  constructor
  · rintro ⟨requests, k, -, h⟩
    exact ⟨k, h⟩
  · rintro ⟨k, h⟩
    exact ⟨k + 1, k, Nat.lt_succ_self k, h⟩

/-- **Which listings end.**  Against any store the ids of the events take at most 400 pages of the
index and 400 of the scan, and the keys under a prefix at most 400; and nothing is asked for after
the first page that is not marked truncated.  The parts of a recording are listed so exactly where
some request fails or gives no token, and every page before it is marked truncated. -/
theorem listings_end (store : ListStore) :
    (∀ roomId, let r := collectEventIds store roomId
      r.2.1.length ≤ kMaxPages ∧ StopsInTime r.2.1 ∧
        r.2.2.length ≤ kMaxPages ∧ StopsInTime r.2.2) ∧
    (∀ pre cancelled, let r := listPrefix store pre cancelled
      r.2.length ≤ kMaxPagesPerPrefix ∧ StopsInTime r.2) ∧
    ∀ eventId, PartsEnd store eventId ↔
      ∃ k, (partsAnswer store eventId k).Ends (·.nextContinuationToken) ∧
        ∀ m < k, (partsAnswer store eventId m).truncated = true := by
  refine ⟨fun roomId => ?_, fun pre cancelled => ?_, fun eventId => ?_⟩
  · have hnone : ([] : List ListAnswer).length ≤ kMaxPages ∧ StopsInTime [] :=
      ⟨Nat.zero_le _, by simp [StopsInTime]⟩
    have hindex : (indexPages store roomId).1.length ≤ kMaxPages ∧
        StopsInTime (indexPages store roomId).1 :=
      ⟨(followPages_spec _ _ _).1, stopsInTime_followPages _ _ _⟩
    have hscan (asked : ℕ) : (scanPages store asked).1.length ≤ kMaxPages ∧
        StopsInTime (scanPages store asked).1 :=
      ⟨(followPages_spec _ _ _).1, stopsInTime_followPages _ _ _⟩
    rw [collectEventIds]
    dsimp only
    split
    · exact ⟨hindex.1, hindex.2, hnone⟩
    · exact ⟨hindex.1, hindex.2, hnone⟩
    · split <;> exact ⟨hindex.1, hindex.2, hscan _⟩
  · exact ⟨(followPages_spec _ _ _).1, stopsInTime_followPages _ _ _⟩
  · exact partsEnd_iff

/-- A store with one page of everything. -/
theorem listings_end_one : PartsEnd (fun _ _ => { success := true }) "e" :=
  ((listings_end fun _ _ => { success := true }).2.2 "e").mpr
    ⟨0, Or.inr rfl, fun m hm => absurd hm (Nat.not_lt_zero m)⟩

/-- A store that repeats a token: the parts are listed for ever. -/
theorem listings_not_end : ¬∀ store eventId, PartsEnd store eventId := by
  intro h
  have hanswer : ∀ k n token, answerAt
      (fun _ _ => { success := true, truncated := true, nextContinuationToken := "t" })
      (fun token => { pre := eventPrefixFor "e", token }) (·.nextContinuationToken) k n token =
        { success := true, truncated := true, nextContinuationToken := "t" } := by
    intro k
    induction k with
    | zero => exact fun _ _ => rfl
    | succ k ih => exact fun n token => ih _ _
  obtain ⟨k, hends, -⟩ := partsEnd_iff.mp
    (h (fun _ _ => { success := true, truncated := true, nextContinuationToken := "t" }) "e")
  rw [partsAnswer, hanswer] at hends
  exact absurd hends (by decide)

end ListStore

end Multisite

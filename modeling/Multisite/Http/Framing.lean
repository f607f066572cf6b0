import Multisite.Http.Server

/-!
The requests of a stream of bytes, and what a connection that gets the stream in pieces makes of
them.

* `frame`, `frames`: the requests of the stream itself;
* `serveFrom_step`: one request of a connection, against the stream;
* `framed_serveFrom`: what is dispatched stands in the stream, one request after the other;
* `serveFrom_eq_frames`: away from the header limit, a connection makes of the stream what it says;
* `exists_split_of_tight`: near the limit, two ways of cutting the stream come to different ends.
-/

namespace Multisite.Http

open Lib

variable {keep : List HttpRequest → Bool} {hist : List HttpRequest} {req : HttpRequest}
  {s t buf buf' : Bytes} {chunks chunks' : List Bytes} {n k : ℕ}

/-! ### The requests of a stream -/

/-- What a stream begins with: a request of `n` bytes, a header of `n` bytes that is refused, no
header within the limit, or a request that does not end. -/
inductive Frame where
  | request (req : HttpRequest) (n : ℕ)
  | refused (n : ℕ)
  | endless
  | unfinished
  deriving DecidableEq, Repr

/-- What a stream begins with, the limit being on the header alone. -/
def frame (s : Bytes) : Frame :=
  match firstIn emptyLine s with
  | none => if kMaxHeaderBytes < s.length then .endless else .unfinished
  | some k =>
      if kMaxHeaderBytes < k + 4 then .endless
      else
        match readRequest (s.take k) with
        | none => .refused (k + 4)
        | some req =>
            if kMaxBody < req.bodyLen then .refused (k + 4)
            else if s.length < k + 4 + req.bodyLen then .unfinished
            else .request { req with body := (s.drop (k + 4)).take req.bodyLen }
              (k + 4 + req.bodyLen)

/-- What a request of a stream is made of. -/
lemma frame_request (h : frame s = .request req n) :
    ∃ k, firstIn emptyLine s = some k ∧ k + 4 ≤ kMaxHeaderBytes ∧
      readRequest (s.take k) = some { req with body := [] } ∧ req.bodyLen ≤ kMaxBody ∧
      req.body = (s.drop (k + 4)).take req.bodyLen ∧ n = k + 4 + req.bodyLen ∧ n ≤ s.length := by
  have hbodyless (head : Bytes) (req : HttpRequest) (hr : readRequest head = some req) :
      req.body = [] := by
    rw [readRequest] at hr
    dsimp only at hr
    split at hr
    · exact absurd hr (by simp)
    split at hr
    all_goals
      rw [← Option.some_injective _ hr]
  rw [frame] at h
  cases hk : firstIn emptyLine s with
  | none =>
      rw [hk] at h
      dsimp only at h
      split at h <;> cases h
  | some k =>
      rw [hk] at h
      dsimp only at h
      split at h
      · cases h
      rename_i hlimit
      cases hr : readRequest (s.take k) with
      | none =>
          rw [hr] at h
          cases h
      | some req' =>
          rw [hr] at h
          dsimp only at h
          split at h
          · cases h
          rename_i hbody
          split at h
          · cases h
          rename_i hlen
          cases h
          refine ⟨k, rfl, not_lt.mp hlimit, ?_, not_lt.mp hbody, rfl, rfl, not_lt.mp hlen⟩
          have hempty := hbodyless _ _ hr
          rw [hr]
          cases req' with
          | mk method path query headers body =>
              obtain rfl : body = [] := hempty
              rfl

lemma frame_request_pos (h : frame s = .request req n) : 0 < n := by
  obtain ⟨k, -, -, -, -, -, rfl, -⟩ := frame_request h
  omega

variable (keep) in
/-- What the stream comes to, with the requests before it. -/
def frames (hist : List HttpRequest) (s : Bytes) : Served :=
  match _hframe : frame s with
  | .endless => { closedAt := 0 }
  | .unfinished => { closedAt := s.length }
  | .refused n => { closedAt := n }
  | .request req n =>
      if !keep (hist ++ [req]) || req.asksClose then { dispatched := [req], closedAt := n }
      else (frames (hist ++ [req]) (s.drop n)).behind req n
termination_by s.length
decreasing_by
  have hpos := frame_request_pos _hframe
  obtain ⟨k, -, -, -, -, -, -, hle⟩ := frame_request _hframe
  rw [List.length_drop]
  omega

lemma frames_request (h : frame s = .request req n) :
    frames keep hist s =
      if !keep (hist ++ [req]) || req.asksClose then { dispatched := [req], closedAt := n }
      else (frames keep (hist ++ [req]) (s.drop n)).behind req n := by
  rw [frames]
  split
  · rename_i h'
    exact absurd (h.symm.trans h') (by simp)
  · rename_i h'
    exact absurd (h.symm.trans h') (by simp)
  · rename_i h'
    exact absurd (h.symm.trans h') (by simp)
  · rename_i h'
    obtain ⟨rfl, rfl⟩ := Frame.request.inj (h.symm.trans h')
    rfl

variable (keep) in
/-- The stream `s`, after the requests `hist`, gets to a request that `t` begins with. -/
inductive Reaches : List HttpRequest → Bytes → Bytes → Prop where
  | here (hist : List HttpRequest) (s : Bytes) : Reaches hist s s
  | next {hist : List HttpRequest} {s t : Bytes} {req : HttpRequest} {n : ℕ}
      (hframe : frame s = .request req n) (hkeep : keep (hist ++ [req]) = true)
      (hstays : req.asksClose = false) (h : Reaches (hist ++ [req]) (s.drop n) t) :
      Reaches hist s t

/-- The header ends within the limit, but so near it that a read may go past both. -/
def Tight (t : Bytes) : Prop :=
  ∃ k, firstIn emptyLine t = some k ∧ k + 4 ≤ kMaxHeaderBytes ∧
    kMaxHeaderBytes < k + 3 + kRecvChunk ∧ kMaxHeaderBytes < t.length

/-- The stream in pieces as `recv` returns them. -/
def Pieces (s : Bytes) (chunks : List Bytes) : Prop :=
  chunks.flatten = s ∧ ∀ c ∈ chunks, c ≠ [] ∧ c.length ≤ kRecvChunk

/-- The requests stand in the stream one after the other: the header, and then as many bytes of
body as it says. -/
def Framed : List HttpRequest → Bytes → Prop
  | [], _ => True
  | req :: rest, s => ∃ head s', s = head ++ (emptyLine ++ (req.body ++ s')) ∧
      firstIn emptyLine s = some head.length ∧
      readRequest head = some { req with body := [] } ∧ req.body.length = req.bodyLen ∧
      Framed rest s'

/-! ### One request of a connection -/

lemma serveFrom_tooMuch (h : readHeader buf chunks = .tooMuch) :
    serveFrom keep hist buf chunks = { closedAt := 0 } := by
  rw [serveFrom]
  split
  · rename_i hgone
    exact absurd (h.symm.trans hgone) (by simp)
  · rfl
  · rename_i henough
    exact absurd (h.symm.trans henough) (by simp)

lemma serveFrom_gone (h : readHeader buf chunks = .gone) :
    serveFrom keep hist buf chunks = { closedAt := buf.length + chunks.flatten.length } := by
  rw [serveFrom]
  split
  · rfl
  · rename_i htoo
    exact absurd (h.symm.trans htoo) (by simp)
  · rename_i henough
    exact absurd (h.symm.trans henough) (by simp)

lemma serveFrom_refused (h : readHeader buf chunks = .enough buf' chunks')
    (hk : firstIn emptyLine buf' = some k)
    (hr : ∀ req, readRequest (buf'.take k) = some req → kMaxBody < req.bodyLen) :
    serveFrom keep hist buf chunks = { closedAt := k + 4 } := by
  rw [serveFrom]
  split
  · rename_i hgone
    exact absurd (h.symm.trans hgone) (by simp)
  · rename_i htoo
    exact absurd (h.symm.trans htoo) (by simp)
  · rename_i henough
    obtain ⟨rfl, rfl⟩ := ReadEnd.enough.inj (h.symm.trans henough)
    dsimp only
    rw [hk, Option.getD_some]
    split
    · rfl
    · rename_i req hreq
      rw [if_pos (hr req hreq)]

lemma serveFrom_short (h : readHeader buf chunks = .enough buf' chunks')
    (hk : firstIn emptyLine buf' = some k) (hr : readRequest (buf'.take k) = some req)
    (hbody : req.bodyLen ≤ kMaxBody)
    (hread : readBody (k + 4 + req.bodyLen) buf' chunks' = .gone) :
    serveFrom keep hist buf chunks = { closedAt := buf.length + chunks.flatten.length } := by
  rw [serveFrom]
  split
  · rename_i hgone
    exact absurd (h.symm.trans hgone) (by simp)
  · rename_i htoo
    exact absurd (h.symm.trans htoo) (by simp)
  · rename_i henough
    obtain ⟨rfl, rfl⟩ := ReadEnd.enough.inj (h.symm.trans henough)
    dsimp only
    rw [hk, Option.getD_some]
    split
    · rename_i hnone
      exact absurd (hr.symm.trans hnone) (by simp)
    · rename_i req' hreq
      obtain rfl := Option.some_injective _ (hr.symm.trans hreq)
      rw [if_neg (not_lt.mpr hbody)]
      split
      · rename_i hread'
        exact absurd (hread.symm.trans hread') (by simp)
      · rfl

/-- A request that is dispatched. -/
lemma serveFrom_request {buf₂ : Bytes} {chunks₂ : List Bytes}
    (h : readHeader buf chunks = .enough buf' chunks') (hk : firstIn emptyLine buf' = some k)
    (hr : readRequest (buf'.take k) = some { req with body := [] })
    (hbody : req.bodyLen ≤ kMaxBody)
    (hread : readBody (k + 4 + req.bodyLen) buf' chunks' = .enough buf₂ chunks₂)
    (hreq : req.body = (buf₂.drop (k + 4)).take req.bodyLen) :
    serveFrom keep hist buf chunks =
      if !keep (hist ++ [req]) || req.asksClose then
        { dispatched := [req], closedAt := k + 4 + req.bodyLen }
      else
        (serveFrom keep (hist ++ [req]) (buf₂.drop (k + 4 + req.bodyLen)) chunks₂).behind req
          (k + 4 + req.bodyLen) := by
  rw [serveFrom]
  split
  · rename_i hgone
    exact absurd (h.symm.trans hgone) (by simp)
  · rename_i htoo
    exact absurd (h.symm.trans htoo) (by simp)
  · rename_i henough
    obtain ⟨rfl, rfl⟩ := ReadEnd.enough.inj (h.symm.trans henough)
    dsimp only
    rw [hk, Option.getD_some]
    split
    · rename_i hnone
      exact absurd (hr.symm.trans hnone) (by simp)
    · rename_i req' hreq'
      obtain rfl := Option.some_injective _ (hr.symm.trans hreq')
      have hlen : HttpRequest.bodyLen { req with body := [] } = req.bodyLen := rfl
      rw [hlen, if_neg (not_lt.mpr hbody)]
      split
      · rename_i hread'
        obtain ⟨rfl, rfl⟩ := ReadEnd.enough.inj (hread.symm.trans hread')
        rw [← hreq]
      · rename_i hread'
        exact absurd hread (hread' _ _)

/-- A header that is read: where it ends in the stream, and how much of the stream was read. -/
lemma readHeader_enough (hbuf : buf.length < kRecvChunk)
    (hchunks : ∀ c ∈ chunks, c.length ≤ kRecvChunk)
    (h : readHeader buf chunks = .enough buf' chunks') :
    ∃ k, firstIn emptyLine buf' = some k ∧ firstIn emptyLine (buf ++ chunks.flatten) = some k ∧
      k + 4 ≤ kMaxHeaderBytes ∧ k + 4 ≤ buf'.length ∧ buf'.length < k + 4 + kRecvChunk ∧
      (buf ++ chunks.flatten).take k = buf'.take k := by
  obtain ⟨henough, htotal, -, hlast⟩ := readUntil_enough h
  obtain ⟨k, hk⟩ := Option.isSome_iff_exists.mp henough
  have hend : k + 4 ≤ buf'.length := add_length_le_of_firstIn hk
  have hlengths : buf'.length ≤ kMaxHeaderBytes ∧ buf'.length < k + 4 + kRecvChunk := by
    rcases hlast with ⟨rfl, -⟩ | ⟨b, c, rfl, hmem, hb, hlimit⟩
    · rw [kRecvChunk] at hbuf
      rw [kMaxHeaderBytes, kRecvChunk]
      omega
    · -- Before the last piece the end of the header had not been read.
      have hshort : b.length < k + 4 := by
        by_contra hlong
        rw [firstIn_of_append hk (not_lt.mp hlong)] at hb
        exact absurd hb (by simp)
      have hc := hchunks c hmem
      rw [List.length_append] at hlimit ⊢
      exact ⟨by simpa using hlimit, by omega⟩
  refine ⟨k, hk, ?_, hend.trans hlengths.1, hend, hlengths.2, ?_⟩
  · rw [← htotal]
    exact firstIn_append hk _
  · rw [← htotal, List.take_append_of_le_length (by omega)]

/-- **One request of a connection**, against the stream: the header went past the limit, or what
happens is what the stream says. -/
lemma serveFrom_step (hbuf : buf.length < kRecvChunk)
    (hchunks : ∀ c ∈ chunks, c.length ≤ kRecvChunk) :
    readHeader buf chunks = .tooMuch ∧ serveFrom keep hist buf chunks = { closedAt := 0 } ∨
    frame (buf ++ chunks.flatten) = .unfinished ∧
      serveFrom keep hist buf chunks = { closedAt := (buf ++ chunks.flatten).length } ∨
    (∃ n, frame (buf ++ chunks.flatten) = .refused n ∧ 0 < n ∧
      serveFrom keep hist buf chunks = { closedAt := n }) ∨
    ∃ req n buf' chunks', frame (buf ++ chunks.flatten) = .request req n ∧
      buf'.length < kRecvChunk ∧ (∀ c ∈ chunks', c ∈ chunks) ∧
      buf' ++ chunks'.flatten = (buf ++ chunks.flatten).drop n ∧
      serveFrom keep hist buf chunks =
        if !keep (hist ++ [req]) || req.asksClose then { dispatched := [req], closedAt := n }
        else (serveFrom keep (hist ++ [req]) buf' chunks').behind req n := by
  cases hread : readHeader buf chunks with
  | tooMuch => exact Or.inl ⟨rfl, serveFrom_tooMuch hread⟩
  | gone =>
      obtain ⟨hnone, hlimit⟩ := readUntil_gone hread
      have hnone' : firstIn emptyLine (buf ++ chunks.flatten) = none := by simpa using hnone
      have hshort : ¬kMaxHeaderBytes < (buf ++ chunks.flatten).length := by
        rcases hlimit with rfl | hlimit
        · rw [List.flatten_nil, List.append_nil, kMaxHeaderBytes]
          rw [kRecvChunk] at hbuf
          omega
        · simpa using hlimit
      refine Or.inr (Or.inl ⟨?_, ?_⟩)
      · rw [frame, hnone']
        exact if_neg hshort
      · rw [serveFrom_gone hread, List.length_append]
  | enough b₁ c₁ =>
      obtain ⟨k, hk, hkt, hlimit, hend, hover, htake⟩ := readHeader_enough hbuf hchunks hread
      obtain ⟨-, htotal, hsub, -⟩ := readUntil_enough hread
      have hframe : frame (buf ++ chunks.flatten) =
          match readRequest (b₁.take k) with
          | none => .refused (k + 4)
          | some req =>
              if kMaxBody < req.bodyLen then .refused (k + 4)
              else if (buf ++ chunks.flatten).length < k + 4 + req.bodyLen then .unfinished
              else .request
                { req with body := ((buf ++ chunks.flatten).drop (k + 4)).take req.bodyLen }
                (k + 4 + req.bodyLen) := by
        rw [frame, hkt]
        dsimp only
        rw [if_neg (not_lt.mpr hlimit), htake]
      cases hr : readRequest (b₁.take k) with
      | none =>
          rw [hr] at hframe
          refine Or.inr (Or.inr (Or.inl ⟨k + 4, hframe, Nat.succ_pos _, ?_⟩))
          exact serveFrom_refused hread hk fun req hreq => absurd (hr.symm.trans hreq) (by simp)
      | some req =>
          rw [hr] at hframe
          dsimp only at hframe
          by_cases hbody : kMaxBody < req.bodyLen
          · rw [if_pos hbody] at hframe
            refine Or.inr (Or.inr (Or.inl ⟨k + 4, hframe, Nat.succ_pos _, ?_⟩))
            refine serveFrom_refused hread hk fun req' hreq => ?_
            rwa [← Option.some_injective _ (hr.symm.trans hreq)]
          rw [if_neg hbody] at hframe
          cases hrest : readBody (k + 4 + req.bodyLen) b₁ c₁ with
          | tooMuch =>
              obtain ⟨b, c, -, -, -, htoo⟩ := readUntil_tooMuch hrest
              exact absurd htoo Bool.false_ne_true
          | gone =>
              have hshort := (readUntil_gone hrest).1
              rw [htotal, decide_eq_false_iff_not, not_le] at hshort
              rw [if_pos hshort] at hframe
              refine Or.inr (Or.inl ⟨hframe, ?_⟩)
              rw [serveFrom_short hread hk hr (not_lt.mp hbody) hrest, List.length_append]
          | enough b₂ c₂ =>
              obtain ⟨hfull, htotal₂, hsub₂, hlast⟩ := readUntil_enough hrest
              have hn : k + 4 + req.bodyLen ≤ b₂.length := of_decide_eq_true hfull
              have hall : b₂ ++ c₂.flatten = buf ++ chunks.flatten := htotal₂.trans htotal
              have hlong : ¬(buf ++ chunks.flatten).length < k + 4 + req.bodyLen := by
                rw [← hall, List.length_append]
                omega
              rw [if_neg hlong] at hframe
              refine Or.inr (Or.inr (Or.inr ⟨_, _, b₂.drop (k + 4 + req.bodyLen), c₂, hframe, ?_,
                fun c hc => hsub c (hsub₂ c hc), ?_, ?_⟩))
              · -- What is left over came with the last piece.
                have hleft : b₂.length < k + 4 + req.bodyLen + kRecvChunk := by
                  rcases hlast with ⟨rfl, -⟩ | ⟨b, c, rfl, hmem, hb, -⟩
                  · omega
                  · have hc := hchunks c (hsub c hmem)
                    rw [decide_eq_false_iff_not, not_le] at hb
                    rw [List.length_append]
                    omega
                rw [List.length_drop]
                omega
              · rw [← hall, List.drop_append_of_le_length hn]
              · have hbytes : ((buf ++ chunks.flatten).drop (k + 4)).take req.bodyLen =
                    (b₂.drop (k + 4)).take req.bodyLen := by
                  rw [← hall, List.drop_append_of_le_length (by omega),
                    List.take_append_of_le_length (by rw [List.length_drop]; omega)]
                have hbodyless : readRequest (b₁.take k) = some { req with body := [] } := by
                  obtain ⟨k', hk', -, hr', -⟩ := frame_request hframe
                  obtain rfl := Option.some_injective _ (hkt.symm.trans hk')
                  rw [htake] at hr'
                  exact hr'
                exact serveFrom_request hread hk hbodyless (not_lt.mp hbody) hrest hbytes

/-! ### Runs of a connection -/

/-- **What is dispatched stands in the stream**, whatever the pieces. -/
lemma framed_serveFrom (hbuf : buf.length < kRecvChunk)
    (hchunks : ∀ c ∈ chunks, c.length ≤ kRecvChunk) :
    Framed (serveFrom keep hist buf chunks).dispatched (buf ++ chunks.flatten) := by
  generalize ht : buf ++ chunks.flatten = t
  induction hlen : t.length using Nat.strong_induction_on generalizing hist buf chunks t with
  | _ m ih =>
      have hstep := @serveFrom_step keep hist buf chunks hbuf hchunks
      rw [ht] at hstep
      rcases hstep with ⟨-, hserve⟩ | ⟨-, hserve⟩ | ⟨n, -, -, hserve⟩ |
          ⟨req, n, buf', chunks', hframe, hbuf', hsub, hrest, hserve⟩
      · rw [hserve]
        exact trivial
      · rw [hserve]
        exact trivial
      · rw [hserve]
        exact trivial
      · obtain ⟨k, hk, -, hr, -, hbody, hn, hle⟩ := frame_request hframe
        have hhead : (t.take k).length = k := by
          rw [List.length_take]
          omega
        have hsplit : t = t.take k ++ (emptyLine ++ (req.body ++ t.drop n)) := by
          have h₁ := split_of_firstIn hk
          have h₂ : t.drop (k + 4) = req.body ++ t.drop n := by
            rw [hbody, hn, ← List.drop_drop (i := req.bodyLen) (j := k + 4), List.take_append_drop]
          rw [← h₂]
          exact h₁
        have hframed (rest : List HttpRequest) (hrest : Framed rest (t.drop n)) :
            Framed (req :: rest) t := by
          refine ⟨t.take k, t.drop n, hsplit, by rw [hhead]; exact hk, hr, ?_, hrest⟩
          rw [hbody, List.length_take, List.length_drop]
          omega
        rw [hserve]
        split
        · exact hframed [] trivial
        · refine hframed _ (ih _ ?_ hbuf' (fun c hc => hchunks c (hsub c hc)) _ hrest rfl)
          have hpos := frame_request_pos hframe
          rw [List.length_drop]
          omega

/-- A read goes past the limit where there is no header within it, or near it. -/
lemma endless_of_tooMuch (hchunks : ∀ c ∈ chunks, c.length ≤ kRecvChunk)
    (h : readHeader buf chunks = .tooMuch) :
    Tight (buf ++ chunks.flatten) ∨ frame (buf ++ chunks.flatten) = .endless := by
  obtain ⟨b, c, hmem, ⟨rest, hrest⟩, hb, hlimit⟩ := readUntil_tooMuch h
  have hlong : kMaxHeaderBytes < (buf ++ chunks.flatten).length := by
    rw [decide_eq_true_eq] at hlimit
    rw [← hrest, List.length_append]
    omega
  rw [decide_eq_true_eq, List.length_append] at hlimit
  have hc := hchunks c hmem
  rw [frame]
  cases hk : firstIn emptyLine (buf ++ chunks.flatten) with
  | none => exact Or.inr (if_pos hlong)
  | some k =>
      by_cases hend : kMaxHeaderBytes < k + 4
      · exact Or.inr (if_pos hend)
      · refine Or.inl ⟨k, hk, not_lt.mp hend, ?_, hlong⟩
        have hshort : b.length < k + 4 := by
          by_contra hle
          rw [← hrest, List.append_assoc] at hk
          rw [firstIn_of_append hk (not_lt.mp hle)] at hb
          exact absurd hb (by simp)
        omega

/-- **Away from the limit** a connection makes of the stream what it says. -/
lemma serveFrom_eq_frames (hbuf : buf.length < kRecvChunk)
    (hchunks : ∀ c ∈ chunks, c.length ≤ kRecvChunk)
    (hsafe : ∀ t, Reaches keep hist (buf ++ chunks.flatten) t → ¬Tight t) :
    serveFrom keep hist buf chunks = frames keep hist (buf ++ chunks.flatten) := by
  generalize ht : buf ++ chunks.flatten = s at hsafe
  induction hlen : s.length using Nat.strong_induction_on generalizing hist buf chunks s with
  | _ m ih =>
      have hstep := @serveFrom_step keep hist buf chunks hbuf hchunks
      have htoo := @endless_of_tooMuch buf chunks hchunks
      rw [ht] at hstep htoo
      rcases hstep with ⟨hread, hserve⟩ | ⟨hframe, hserve⟩ | ⟨n, hframe, -, hserve⟩ |
          ⟨req, n, buf', chunks', hframe, hbuf', hsub, hrest, hserve⟩
      · have hframe := (htoo hread).resolve_left (hsafe s (.here hist s))
        rw [hserve, frames]
        split <;> rename_i hframe' <;> cases hframe.symm.trans hframe'
        rfl
      · rw [hserve, frames]
        split <;> rename_i hframe' <;> cases hframe.symm.trans hframe'
        rfl
      · rw [hserve, frames]
        split <;> rename_i hframe' <;> cases hframe.symm.trans hframe'
        rfl
      · rw [hserve, frames_request hframe]
        split
        · rfl
        rename_i hstays
        rw [Bool.or_eq_true, not_or, Bool.not_eq_true, Bool.not_eq_true, Bool.not_eq_false'] at hstays
        have hpos := frame_request_pos hframe
        obtain ⟨k, -, -, -, -, -, -, hle⟩ := frame_request hframe
        rw [ih _ ?_ hbuf' (fun c hc => hchunks c (hsub c hc)) _ hrest
          (fun t htr => hsafe t (.next hframe hstays.1 hstays.2 htr)) rfl]
        rw [List.length_drop]
        omega

/-! ### Two ways of cutting a stream -/

lemma pieces_singles (s : Bytes) : Pieces s (singles s) := by
  refine ⟨flatten_singles s, fun c hc => ?_⟩
  have hlen := length_of_mem_singles hc
  refine ⟨fun hnil => ?_, by rw [hlen, kRecvChunk]; omega⟩
  rw [hnil] at hlen
  exact absurd hlen (by simp)

lemma Pieces.append (hs : Pieces s chunks) (ht : Pieces t chunks') :
    Pieces (s ++ t) (chunks ++ chunks') := by
  refine ⟨by rw [List.flatten_append, hs.1, ht.1], fun c hc => ?_⟩
  rcases List.mem_append.mp hc with h | h
  · exact hs.2 c h
  · exact ht.2 c h

/-- No part of the header has an end. -/
lemma firstIn_take (hk : firstIn emptyLine s = some k) {m : ℕ} (hm : m < k + 4) :
    firstIn emptyLine (s.take m) = none := by
  cases hj : firstIn emptyLine (s.take m) with
  | none => rfl
  | some j =>
      have hlen : j + 4 ≤ (s.take m).length := add_length_le_of_firstIn hj
      have hs := firstIn_append hj (s.drop m)
      rw [List.take_append_drop, hk] at hs
      obtain rfl := Option.some_injective _ hs
      rw [List.length_take] at hlen
      omega

/-- One byte at a time, the beginning of a stream is read without its header's end. -/
lemma readHeader_singles (hk : firstIn emptyLine s = some k) (hlimit : k + 4 ≤ kMaxHeaderBytes)
    {m : ℕ} (hm : m ≤ k + 4) (chunks : List Bytes) :
    readHeader [] (singles (s.take m) ++ chunks) = readHeader (s.take m) chunks := by
  have hpart (l : Bytes) (hl : l <+: s.take m) : l = s.take l.length := by
    refine List.prefix_iff_eq_take.mp (hl.trans (List.take_prefix m s))
  refine readUntil_singles (fun l hl hne => ?_) (fun l hl _ => ?_) chunks
  · have hlt : l.length < (s.take m).length :=
      lt_of_le_of_ne hl.length_le fun heq => hne (hl.eq_of_length heq)
    rw [List.length_take] at hlt
    rw [List.nil_append, hpart l hl, firstIn_take hk (by omega)]
    rfl
  · have hle := hl.length_le
    rw [List.length_take] at hle
    rw [decide_eq_false_iff_not, List.nil_append, not_lt]
    omega

lemma readHeader_take (hk : firstIn emptyLine s = some k) (hlimit : k + 4 ≤ kMaxHeaderBytes)
    (chunks : List Bytes) :
    readHeader [] (singles (s.take (k + 4)) ++ chunks) = .enough (s.take (k + 4)) chunks ∧
      firstIn emptyLine (s.take (k + 4)) = some k := by
  have hle : k + 4 ≤ s.length := add_length_le_of_firstIn hk
  have hfirst : firstIn emptyLine (s.take (k + 4)) = some k := by
    refine firstIn_of_append (t := s.drop (k + 4)) (by rwa [List.take_append_drop]) ?_
    rw [List.length_take]
    exact le_min le_rfl hle
  rw [readHeader_singles hk hlimit le_rfl]
  exact ⟨readUntil_of_enough (by rw [hfirst]; rfl), hfirst⟩

/-- One byte at a time, a request is read and nothing after it. -/
lemma serveFrom_singles (h : frame s = .request req n) (chunks : List Bytes) :
    serveFrom keep hist [] (singles (s.take n) ++ chunks) =
      if !keep (hist ++ [req]) || req.asksClose then { dispatched := [req], closedAt := n }
      else (serveFrom keep (hist ++ [req]) [] chunks).behind req n := by
  obtain ⟨k, hk, hlimit, hr, hbody, hbytes, rfl, hle⟩ := frame_request h
  have htake : s.take (k + 4 + req.bodyLen) =
      s.take (k + 4) ++ (s.drop (k + 4)).take req.bodyLen := List.take_add
  have hhead : (s.take (k + 4)).length = k + 4 := by
    rw [List.length_take]
    omega
  have hlen : (s.take (k + 4 + req.bodyLen)).length = k + 4 + req.bodyLen := by
    rw [List.length_take]
    omega
  obtain ⟨hread, hfirst⟩ :=
    readHeader_take hk hlimit (singles ((s.drop (k + 4)).take req.bodyLen) ++ chunks)
  have hrest : readBody (k + 4 + req.bodyLen) (s.take (k + 4))
      (singles ((s.drop (k + 4)).take req.bodyLen) ++ chunks) =
        .enough (s.take (k + 4 + req.bodyLen)) chunks := by
    rw [readBody, readUntil_singles (fun m hm hne => ?_) (fun _ _ _ => rfl), ← htake]
    · exact readUntil_of_enough (decide_eq_true hlen.ge)
    · have hlt : m.length < ((s.drop (k + 4)).take req.bodyLen).length :=
        lt_of_le_of_ne hm.length_le fun heq => hne (hm.eq_of_length heq)
      rw [List.length_take, List.length_drop] at hlt
      rw [decide_eq_false_iff_not, List.length_append, hhead]
      omega
  rw [htake, singles_append, List.append_assoc,
    serveFrom_request hread hfirst (by rwa [List.take_take, min_eq_left (by omega)]) hbody hrest
      (by rw [htake, List.drop_append_of_le_length hhead.ge, List.drop_of_length_le hhead.le,
        List.nil_append, List.take_take, min_self, hbytes]),
    List.drop_of_length_le hlen.le]

/-- A piece that takes the read past the limit before the header's end is looked for. -/
lemma exists_tooMuch (h : Tight s) : ∃ c, Pieces s c ∧ readHeader [] c = .tooMuch := by
  obtain ⟨k, hk, hlimit, hnear, hlong⟩ := h
  refine ⟨singles (s.take (k + 3)) ++ ([(s.drop (k + 3)).take (kMaxHeaderBytes + 1 - (k + 3))] ++
    singles (s.drop (kMaxHeaderBytes + 1))), ?_, ?_⟩
  · have hsplit : s = s.take (k + 3) ++ ((s.drop (k + 3)).take (kMaxHeaderBytes + 1 - (k + 3)) ++
        s.drop (kMaxHeaderBytes + 1)) := by
      rw [show s.drop (kMaxHeaderBytes + 1) =
        (s.drop (k + 3)).drop (kMaxHeaderBytes + 1 - (k + 3)) by
          rw [List.drop_drop, Nat.add_sub_cancel' (by omega)], List.take_append_drop,
        List.take_append_drop]
    have hpiece : Pieces ((s.drop (k + 3)).take (kMaxHeaderBytes + 1 - (k + 3)))
        [(s.drop (k + 3)).take (kMaxHeaderBytes + 1 - (k + 3))] := by
      refine ⟨by simp, fun c hc => ?_⟩
      obtain rfl := List.mem_singleton.mp hc
      have hlen : ((s.drop (k + 3)).take (kMaxHeaderBytes + 1 - (k + 3))).length =
          kMaxHeaderBytes + 1 - (k + 3) := by
        rw [List.length_take, List.length_drop]
        omega
      refine ⟨fun hnil => ?_, by omega⟩
      rw [hnil, List.length_nil] at hlen
      omega
    have := (pieces_singles (s.take (k + 3))).append
      (hpiece.append (pieces_singles (s.drop (kMaxHeaderBytes + 1))))
    rwa [← hsplit] at this
  · have hnone := firstIn_take hk (m := k + 3) (by omega)
    rw [readHeader_singles hk hlimit (by omega), readHeader, List.singleton_append,
      readUntil_cons (by rw [hnone]; rfl), if_pos]
    rw [decide_eq_true_eq, List.length_append, List.length_take, List.length_take,
      List.length_drop]
    omega

/-- **Near the limit** the same stream comes to two ends. -/
lemma exists_split_of_tight (h : Reaches keep hist s t) (ht : Tight t) :
    ∃ c₁ c₂, Pieces s c₁ ∧ Pieces s c₂ ∧
      serveFrom keep hist [] c₁ ≠ serveFrom keep hist [] c₂ := by
  induction h with
  | here hist s =>
      obtain ⟨c, hc, hread⟩ := exists_tooMuch ht
      refine ⟨singles s, c, pieces_singles s, hc, ?_⟩
      rw [serveFrom_tooMuch hread]
      obtain ⟨k, hk, hlimit, -, hlong⟩ := ht
      have hstep := @serveFrom_step keep hist [] (singles s)
        (by simp [kRecvChunk]) fun c hc => ((pieces_singles s).2 c hc).2
      rw [List.nil_append, flatten_singles] at hstep
      rcases hstep with ⟨htoo, -⟩ | ⟨-, hserve⟩ | ⟨n, -, hpos, hserve⟩ |
          ⟨req, n, buf', chunks', -, -, -, -, hserve⟩
      · have hread' := (readHeader_take hk hlimit (singles (s.drop (k + 4)))).1
        rw [← singles_append, List.take_append_drop, htoo] at hread'
        exact absurd hread' (by simp)
      · rw [hserve]
        intro heq
        have := congrArg Served.closedAt heq
        dsimp only at this
        omega
      · rw [hserve]
        intro heq
        have := congrArg Served.closedAt heq
        dsimp only at this
        omega
      · rw [hserve]
        intro heq
        have := congrArg Served.dispatched heq
        split at this <;> exact absurd this (by simp [Served.behind])
  | @next hist s t req n hframe hkeep hstays _ ih =>
      obtain ⟨c₁, c₂, hc₁, hc₂, hne⟩ := ih ht
      refine ⟨singles (s.take n) ++ c₁, singles (s.take n) ++ c₂, ?_, ?_, fun heq => hne ?_⟩
      · simpa using (pieces_singles (s.take n)).append hc₁
      · simpa using (pieces_singles (s.take n)).append hc₂
      · have hgo : ¬(!keep (hist ++ [req]) || req.asksClose) = true := by
          rw [hkeep, hstays]
          simp
        rw [serveFrom_singles hframe, serveFrom_singles hframe, if_neg hgo, if_neg hgo] at heq
        obtain ⟨hdispatched, hclosed⟩ := Served.mk.inj heq
        rcases h₁ : serveFrom keep (hist ++ [req]) [] c₁ with ⟨d₁, p₁⟩
        rcases h₂ : serveFrom keep (hist ++ [req]) [] c₂ with ⟨d₂, p₂⟩
        rw [h₁, h₂] at hdispatched hclosed
        have hd : d₁ = d₂ := (List.cons.inj hdispatched).2
        have hp : p₁ = p₂ := Nat.add_left_cancel hclosed
        rw [hd, hp]

/-- **HTTP framing**: every way of cutting the stream comes to the same requests and the same end,
and what is dispatched stands in the stream one after the other, each body as long as its header
says, if and only if no request that the stream gets to has a header within the limit but less
than a `recv` away from it, with more than the limit in what is still to come. -/
theorem framing_steady_iff (keep : List HttpRequest → Bool) (s : Bytes) :
    ((∀ c₁ c₂, Pieces s c₁ → Pieces s c₂ → serveConnection keep c₁ = serveConnection keep c₂) ∧
      ∀ c, Pieces s c → Framed (serveConnection keep c).dispatched s) ↔
    ∀ t, Reaches keep [] s t → ¬Tight t := by
  have hnil : ([] : Bytes).length < kRecvChunk := by simp [kRecvChunk]
  constructor
  · rintro ⟨hsame, -⟩ t hreach htight
    obtain ⟨c₁, c₂, hc₁, hc₂, hne⟩ := exists_split_of_tight hreach htight
    exact hne (hsame c₁ c₂ hc₁ hc₂)
  · intro hsafe
    have hframes (c : List Bytes) (hc : Pieces s c) : serveConnection keep c = frames keep [] s := by
      rw [serveConnection, serveFrom_eq_frames hnil (fun x hx => (hc.2 x hx).2), hc.1,
        List.nil_append]
      rwa [hc.1, List.nil_append]
    refine ⟨fun c₁ c₂ hc₁ hc₂ => (hframes c₁ hc₁).trans (hframes c₂ hc₂).symm, fun c hc => ?_⟩
    have := @framed_serveFrom keep [] [] c hnil fun x hx => (hc.2 x hx).2
    rwa [hc.1, List.nil_append] at this

/-- A header of just less than the limit, with the next bytes right behind it. -/
theorem framing_counterexample : ¬∀ (keep : List HttpRequest → Bool) (s : Bytes),
    (∀ c₁ c₂, Pieces s c₁ → Pieces s c₂ → serveConnection keep c₁ = serveConnection keep c₂) ∧
      ∀ c, Pieces s c → Framed (serveConnection keep c).dispatched s := by
  intro h
  have htight : Tight (bytesOf "GET /" ++ List.replicate 28665 97 ++
      (emptyLine ++ List.replicate 4095 98)) := by
    have hhead : (bytesOf "GET /" ++ List.replicate 28665 97).length = 28670 := by
      rw [List.length_append, List.length_replicate]
      rfl
    have hmem : (13 : UInt8) ∉ bytesOf "GET /" ++ List.replicate 28665 97 := by
      rw [List.mem_append, not_or]
      refine ⟨by decide, fun hmem => ?_⟩
      exact absurd (List.eq_of_mem_replicate hmem) (by decide)
    refine ⟨28670, ?_, by decide, by decide, ?_⟩
    · rw [← hhead]
      exact firstIn_of_notMem rfl hmem _
    · rw [List.length_append, hhead, List.length_append, List.length_replicate]
      decide
  obtain ⟨c₁, c₂, hc₁, hc₂, hne⟩ :=
    @exists_split_of_tight (fun _ => true) _ _ _ (.here [] _) htight
  exact hne ((h _ _).1 c₁ c₂ hc₁ hc₂)

end Multisite.Http

import Multisite.Core.Model

/-!
The transports a decoder reads through (`transport.h`, `mirror_read_transport.h`,
`fallback_transport.h`, and the cancelling of `s3_transport.cpp` and `lan_transport.cpp`).

A decoder holds one `Transport`: a leaf that talks to one server, or a wrapper over two
others.  The operations are virtual and most have a default on the interface, so that what
a wrapper does not override stops there: `FallbackTransport` has no `resume_pending`, no
`prefer_secondary` and no `preferring_secondary`.

A leaf is asked at most once in one `get`, so the servers are given as a function of the
leaf's name.  What `get` returns is accompanied by the leaves it asked, in order, and
whether each request was aborted: the last of them produced the result.
-/

namespace Multisite

/-- The servers: the encoder's LAN endpoint and the two buckets. -/
inductive LeafName where
  | lan
  | first
  | second
  deriving DecidableEq, Repr

/-- What a server makes of a request that is left alone. -/
inductive Answer where
  | http (status : ℤ) (error : String) (body : Bytes)
  | failed (error : String)
  deriving DecidableEq, Repr

/-- `GetResult`. -/
structure GetResult where
  success : Bool := false
  httpStatus : ℤ := 0
  error : String := ""
  body : Bytes := []
  deriving DecidableEq, Repr

/-- `S3Transport` or `LanTransport`: the cancel flag, and for the LAN `m_last_reached`. -/
structure Leaf where
  name : LeafName
  cancel : Bool := false
  lastReached : Bool := false
  deriving DecidableEq, Repr

/-- The flags of `MirrorReadTransport`. -/
structure MirrorFlags where
  servedSecondary : Bool := false
  primaryOk : Bool := true
  preferSecondary : Bool := false
  deriving DecidableEq, Repr

/-- `Transport`, with its implementations. -/
inductive Transport where
  | leaf (l : Leaf)
  | mirrorRead (primary secondary : Transport) (flags : MirrorFlags)
  | fallback (primary secondary : Transport) (primaryHealthy : Bool)
  deriving DecidableEq, Repr

/-- A leaf's request: which leaf, and whether it was aborted. -/
structure Asked where
  leaf : LeafName
  aborted : Bool
  deriving DecidableEq, Repr

/-- What a `get` came to. -/
structure Got where
  result : GetResult
  asked : List Asked
  tx : Transport
  deriving DecidableEq, Repr

/-- `get` of a leaf: a cancelled transport aborts the transfer. -/
def Leaf.get (l : Leaf) (a : Answer) : GetResult × Leaf :=
  if l.cancel then
    ({ error := "Operation was aborted by an application callback" },
      { l with lastReached := false })
  else
    match a with
    | .http status error body =>
        if 200 ≤ status ∧ status < 300 then
          ({ success := true, httpStatus := status, body }, { l with lastReached := true })
        else ({ httpStatus := status, error, body }, { l with lastReached := true })
    | .failed error => ({ error }, { l with lastReached := false })

namespace Transport

/-- The leaves. -/
@[simp] def leaves : Transport → List Leaf
  | leaf l => [l]
  | mirrorRead p s _ => p.leaves ++ s.leaves
  | fallback p s _ => p.leaves ++ s.leaves

/-- `last_request_reached_server`; the LAN leaf alone overrides it. -/
def lastRequestReachedServer : Transport → Bool
  | leaf l => if l.name = .lan then l.lastReached else true
  | _ => true

/-- `cancel_pending`. -/
@[simp] def cancelPending : Transport → Transport
  | leaf l => leaf { l with cancel := true }
  | mirrorRead p s f => mirrorRead p.cancelPending s.cancelPending f
  | fallback p s h => fallback p.cancelPending s.cancelPending h

/-- `resume_pending`; `FallbackTransport` has the interface's, which does nothing. -/
@[simp] def resumePending : Transport → Transport
  | leaf l => leaf { l with cancel := false }
  | mirrorRead p s f => mirrorRead p.resumePending s.resumePending f
  | fallback p s h => fallback p s h

/-- `last_request_cancelled`. -/
@[simp] def lastRequestCancelled : Transport → Bool
  | leaf l => l.cancel
  | mirrorRead p s _ => p.lastRequestCancelled || s.lastRequestCancelled
  | fallback p s _ => p.lastRequestCancelled || s.lastRequestCancelled

/-- `prefer_secondary`; only `MirrorReadTransport` overrides the interface's, which does
nothing. -/
def preferSecondary (on : Bool) : Transport → Transport
  | mirrorRead p s f => mirrorRead p s { f with preferSecondary := on }
  | t => t

/-- `preferring_secondary`. -/
def preferringSecondary : Transport → Bool
  | mirrorRead _ _ f => f.preferSecondary
  | _ => false

/-- `get`. -/
@[simp] def get (servers : LeafName → Answer) : Transport → Got
  | leaf l =>
      let (result, l') := l.get (servers l.name)
      { result, asked := [⟨l.name, l.cancel⟩], tx := leaf l' }
  | mirrorRead p s f =>
      if f.preferSecondary then
        -- `get_secondary_first`
        let r := s.get servers
        if r.result.success then
          { r with tx := mirrorRead p r.tx { f with servedSecondary := true } }
        else
          let r2 := p.get servers
          { r2 with
            asked := r.asked ++ r2.asked
            tx := mirrorRead r2.tx r.tx { f with
              servedSecondary := false
              primaryOk := r2.result.success || r2.tx.lastRequestReachedServer } }
      else
        let r := p.get servers
        if r.result.success then
          { r with tx := mirrorRead r.tx s { f with primaryOk := true, servedSecondary := false } }
        else
          let r2 := s.get servers
          { r2 with
            asked := r.asked ++ r2.asked
            tx := mirrorRead r.tx r2.tx { f with
              primaryOk := r.tx.lastRequestReachedServer
              servedSecondary := r2.result.success || f.servedSecondary } }
  | fallback p s h =>
      let r := p.get servers
      if r.result.success then { r with tx := fallback r.tx s true }
      else
        let r2 := s.get servers
        { r2 with
          asked := r.asked ++ r2.asked
          tx := fallback r.tx r2.tx (h && r.tx.lastRequestReachedServer) }

/-- `list`: whether it was answered, and the leaves it asked.  The LAN leaf has the
interface's, which asks nothing. -/
def list (answers : LeafName → Bool) : Transport → Bool × List LeafName
  | leaf l => if l.name = .lan then (false, []) else (!l.cancel && answers l.name, [l.name])
  | mirrorRead p s _ =>
      let r := p.list answers
      if r.1 then r
      else
        let r2 := s.list answers
        (r2.1, r.2 ++ r2.2)
  | fallback _ s _ => s.list answers

/-- A leaf cancelled or resumed by itself, as the hosts do. -/
def setCancel (name : LeafName) (on : Bool) : Transport → Transport
  | leaf l => if l.name = name then leaf { l with cancel := on } else leaf l
  | mirrorRead p s f => mirrorRead (p.setCancel name on) (s.setCancel name on) f
  | fallback p s h => fallback (p.setCancel name on) (s.setCancel name on) h

/-- A bucket, or two of them. -/
inductive Cloud : Transport → Prop
  | bucket : Cloud (leaf { name := .first })
  | mirrorRead : Cloud (mirrorRead (leaf { name := .first }) (leaf { name := .second }) {})

/-- The transports a decoder is built on. -/
inductive Built : Transport → Prop
  | lan : Built (leaf { name := .lan })
  | cloud {t : Transport} (h : Cloud t) : Built t
  | fallback {t : Transport} (h : Cloud t) : Built (fallback (leaf { name := .lan }) t false)

end Transport

end Multisite

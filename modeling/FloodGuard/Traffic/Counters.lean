import FloodGuard.Label
import FloodGuard.Network

/-!
Traffic measurements of one entity: bytes and packets in both directions, as a whole and for the
parts that detection looks at, and flows. An observation pairs the measurement of the last interval
with the smoothed one.
-/
namespace FloodGuard

/-- A direction of traffic relative to the monitored networks that is measured. -/
inductive Side where
  | incoming
  | outgoing
deriving DecidableEq, Repr

instance : Labelled Side where
  all := [.incoming, .outgoing]
  label
    | .incoming => "incoming"
    | .outgoing => "outgoing"

/-- A direction of traffic relative to the monitored networks. -/
inductive Direction where
  | incoming
  | outgoing
  | internal
  | other
deriving DecidableEq, Repr

instance : Labelled Direction where
  all := [.incoming, .outgoing, .internal, .other]
  label
    | .incoming => "incoming"
    | .outgoing => "outgoing"
    | .internal => "internal"
    | .other => "other"

/-- The measured direction, if this is one. -/
def Direction.side? : Direction → Option Side
  | .incoming => some .incoming
  | .outgoing => some .outgoing
  | .internal => none
  | .other => none

def Side.direction : Side → Direction
  | .incoming => .incoming
  | .outgoing => .outgoing

/-- The direction of something that was detected on a known side, if on any. -/
def Direction.ofSide? : Option Side → Direction
  | some side => side.direction
  | none => .other

/-- Bytes and packets in both directions. -/
structure Volume where
  inBytes : UInt64 := 0
  outBytes : UInt64 := 0
  inPackets : UInt64 := 0
  outPackets : UInt64 := 0
deriving DecidableEq, Repr

namespace Volume

def bytes (v : Volume) : Side → UInt64
  | .incoming => v.inBytes
  | .outgoing => v.outBytes

def packets (v : Volume) : Side → UInt64
  | .incoming => v.inPackets
  | .outgoing => v.outPackets

end Volume

/-- The traffic of one entity, per second. -/
structure Counters where
  total : Volume := {}
  fragmented : Volume := {}
  tcp : Volume := {}
  tcpSyn : Volume := {}
  udp : Volume := {}
  icmp : Volume := {}
  inFlows : UInt64 := 0
  outFlows : UInt64 := 0
deriving DecidableEq, Repr

def Counters.flows (c : Counters) : Side → UInt64
  | .incoming => c.inFlows
  | .outgoing => c.outFlows

/-- What was measured of one entity: its speed over the last interval and its average speed. -/
structure Observation where
  entity : Network
  current : Counters
  average : Counters
deriving DecidableEq, Repr

end FloodGuard

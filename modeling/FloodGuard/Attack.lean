import FloodGuard.Attack.Kind
import FloodGuard.Attack.Uuid
import FloodGuard.Detection.Settings

/-!
The record of an attack: the traffic at the moment of detection, what was detected, how strong the
attack was then and at its peak, and how long the ban lasts. What was detected never changes; the
averages, the peak and the state of the mitigation do.
-/
namespace FloodGuard

/-- The average speed of an attacked entity. -/
structure Averages where
  volume : Volume := {}
  inFlows : UInt64 := 0
  outFlows : UInt64 := 0
deriving DecidableEq, Repr

def Averages.ofCounters (c : Counters) : Averages := ⟨c.total, c.inFlows, c.outFlows⟩

structure Attack where
  traffic : Counters := {}
  group : String := ""
  parentGroup : String := ""
  direction : Direction := .other
  /-- The value of the detected dimension at the moment of detection. -/
  power : UInt64 := 0
  peak : UInt64 := 0
  protocol : UInt8 := 0
  averages : Averages := {}
  /-- The time of detection in seconds. -/
  startedAt : UInt64 := 0
  /-- Whether the ban is lifted once its time is over. -/
  expires : Bool := true
  /-- The length of the ban in seconds. -/
  banTime : UInt64 := 0
  isV6 : Bool := false
  /-- The configured network that covers the entity. -/
  customerNetwork : Option Network := none
  source : DetectionSource := .automatic
  uuid : Uuid := .nil
  severity : Severity := .middle
  dimension : Option Dimension := none
  side : Option Side := none
  reflector : Option Reflector := none
  /-- Whether the announcer has accepted the rule against the attack. -/
  announced : Bool := false
deriving DecidableEq, Repr

/-- The name of a transport protocol by its number. -/
def Protocol.name (protocol : UInt8) : String :=
  if protocol = Protocol.tcp then "tcp"
  else if protocol = Protocol.udp then "udp"
  else if protocol = Protocol.icmp then "icmp"
  else "unknown"

namespace Attack

/-- A fresh record. -/
def start (traffic : Counters) (power startedAt : UInt64) : Attack :=
  { traffic, power, peak := power, startedAt }

/-- Raises the peak; a lower value leaves it as it is. -/
def raisePeak (a : Attack) (power : UInt64) : Attack := { a with peak := max a.peak power }

/-- The value of the detected dimension in other traffic. -/
def measured? (a : Attack) (c : Counters) : Option UInt64 := measure c a.dimension a.side

def setAverages (a : Attack) (average : Counters) : Attack :=
  { a with averages := .ofCounters average }

/-- Takes over new averages, and raises the peak if the detected dimension is higher in them. -/
def refresh (a : Attack) (average : Counters) : Attack :=
  match a.measured? average with
  | some power => (a.setAverages average).raisePeak power
  | none => a.setAverages average

/-- The identifier, if there is one. -/
def uuid? (a : Attack) : Option Uuid := if a.uuid.isNil then none else some a.uuid

/-- Gives the attack an identifier that was drawn, unless it has one or the draw failed. -/
def assignUuid (a : Attack) (drawn : Except UuidError Uuid) : Except UuidError Attack :=
  if a.uuid.isNil then drawn.map fun uuid => { a with uuid } else .error (.alreadySet a.uuid)

def family (a : Attack) : Family := if a.isV6 then .v6 else .v4

/-- Whether the time of the ban is over. -/
def isOver (a : Attack) (now : UInt64) : Bool :=
  a.expires && decide (a.banTime.toNat ≤ now.toNat - a.startedAt.toNat)

/-- The share of the packets that a portion must exceed to name the attack, in units of `2 ^ -53`;
it is the number of that precision nearest to seven tenths. -/
def share : Nat := 6305039478318694

/-- Whether `part` packets are more than the share of `total` packets, all numbers as measured. -/
def dominates (part total : UInt64) : Bool :=
  Rounding.measured (Rounding.measured total.toNat * share) <
    Rounding.measured part.toNat * Nat.pow 2 Rounding.precision

/-- The portions that name a flood, the one to be looked at first in front. -/
def signs : List (Flood × (Counters → Volume)) :=
  [(.syn, Counters.tcpSyn), (.icmp, Counters.icmp), (.fragmentation, Counters.fragmented),
    (.udp, Counters.udp)]

/-- The flood that most packets in the direction of the attack belong to. -/
def classify (a : Attack) : Option Flood := do
  let side ← a.direction.side?
  let sign ← signs.find? fun sign =>
    dominates ((sign.2 a.traffic).packets side) (a.traffic.total.packets side)
  some sign.1

theorem refresh_eq (a : Attack) (average : Counters) :
    a.refresh average =
      { a with
        averages := .ofCounters average
        peak := ((a.measured? average).map (max a.peak)).getD a.peak } := by
  unfold refresh
  split <;> simp_all [raisePeak, setAverages]

end Attack

end FloodGuard

import FloodGuard.Detection.Dimension

/-!
Detection settings: for each dimension a threshold and whether it counts. The table of checks has a
row for each dimension, in a fixed order of priority, and every row is checked on the incoming side
before the outgoing one. An evaluation reports the first check whose value is strictly above its
threshold.
-/
namespace FloodGuard

/-- A threshold and whether it is in force. -/
structure Limit where
  enabled : Bool := false
  threshold : UInt32 := 0
deriving DecidableEq, Repr

structure PerPortion (α : Type) where
  all : α
  tcp : α
  udp : α
  icmp : α
  tcpSyn : α
deriving DecidableEq, Repr

def PerPortion.get {α : Type} (p : PerPortion α) : Portion → α
  | .all => p.all
  | .tcp => p.tcp
  | .udp => p.udp
  | .icmp => p.icmp
  | .tcpSyn => p.tcpSyn

/-- The settings of a host group. By default nothing is in force. -/
structure Settings where
  enableBan : Bool := false
  enableV6 : Bool := false
  packets : PerPortion Limit := ⟨{}, {}, {}, {}, {}⟩
  bandwidth : PerPortion Limit := ⟨{}, {}, {}, {}, {}⟩
  flows : Limit := {}
deriving DecidableEq, Repr

def Settings.limit (s : Settings) : Dimension → Limit
  | .packets portion => s.packets.get portion
  | .bandwidth portion => s.bandwidth.get portion
  | .flows => s.flows

/-- A value above its threshold. The dimension and the side are those of the check that found it. -/
structure Breach where
  group : String := ""
  dimension : Option Dimension := none
  side : Option Side := none
  value : UInt64 := 0
  threshold : UInt32 := 0
  protocol : UInt8 := 0
deriving DecidableEq, Repr

/-- The direction of the attack that a breach reveals. -/
def Breach.direction (b : Breach) : Direction := .ofSide? b.side

/-- What a row of the table of checks measures. -/
inductive Metric where
  | packets
  | megabits
  | flows
deriving DecidableEq, Repr

/-- A row of the table of checks. The number of the protocol is zero where there is none. -/
structure Row where
  limit : Limit
  dimension : Dimension
  metric : Metric
  protocol : UInt8
  volume : Counters → Volume

namespace Row

/-- The current value of the row, in its own unit. -/
def value (row : Row) (c : Counters) (side : Side) : UInt64 :=
  match row.metric with
  | .packets => (row.volume c).packets side
  | .megabits => megabits ((row.volume c).bytes side)
  | .flows => c.flows side

/-- The breach of a host group that the row finds on a side. -/
def breach? (row : Row) (group : String) (c : Counters) (side : Side) : Option Breach :=
  let value := row.value c side
  if row.limit.threshold.toNat < value.toNat then
    some {
      group
      dimension := some row.dimension
      side := some side
      value
      threshold := row.limit.threshold
      protocol := row.protocol }
  else none

end Row

namespace Settings

/-- The table of checks, the one of the highest priority in front. -/
def rows (s : Settings) : List Row :=
  [⟨s.packets.all, .packets .all, .packets, 0, Counters.total⟩,
    ⟨s.bandwidth.all, .bandwidth .all, .megabits, 0, Counters.total⟩,
    ⟨s.flows, .flows, .flows, 0, Counters.total⟩,
    ⟨s.packets.tcp, .packets .tcp, .packets, Protocol.tcp, Counters.tcp⟩,
    ⟨s.packets.udp, .packets .udp, .packets, Protocol.udp, Counters.udp⟩,
    ⟨s.packets.icmp, .packets .icmp, .packets, Protocol.icmp, Counters.icmp⟩,
    ⟨s.bandwidth.tcp, .bandwidth .tcp, .megabits, Protocol.tcp, Counters.tcp⟩,
    ⟨s.bandwidth.udp, .bandwidth .udp, .megabits, Protocol.udp, Counters.udp⟩,
    ⟨s.bandwidth.icmp, .bandwidth .icmp, .megabits, Protocol.icmp, Counters.icmp⟩,
    ⟨s.packets.tcpSyn, .packets .tcpSyn, .packets, Protocol.tcp, Counters.tcpSyn⟩,
    ⟨s.bandwidth.tcpSyn, .bandwidth .tcpSyn, .megabits, Protocol.tcp, Counters.tcpSyn⟩]

/-- Checks the traffic of an entity of a host group, if traffic of its family is looked at. -/
def evaluate (s : Settings) (group : String) (c : Counters) (v6 : Bool) : Option Breach :=
  if v6 && !s.enableV6 then none
  else (s.rows.filter (·.limit.enabled)).findSome? fun row =>
    [Side.incoming, .outgoing].findSome? (row.breach? group c)

end Settings

/-- The value of a dimension that may be unknown, on a side that may be unknown. -/
def measure (c : Counters) (dimension : Option Dimension) (side : Option Side) : Option UInt64 := do
  let side ← side
  let row ← ({} : Settings).rows.find? fun row => some row.dimension = dimension
  some (row.value c side)

inductive Severity where
  | low
  | middle
  | high
deriving DecidableEq, Repr

instance : Labelled Severity where
  all := [.low, .middle, .high]
  label
    | .low => "low"
    | .middle => "middle"
    | .high => "high"

/-- Ten times the threshold is high and twice the threshold middle; a threshold of zero counts as
one. -/
def Severity.of (value : UInt64) (threshold : UInt32) : Severity :=
  let unit := max threshold.toNat 1
  if 10 * unit ≤ value.toNat then .high
  else if 2 * unit ≤ value.toNat then .middle
  else .low

end FloodGuard

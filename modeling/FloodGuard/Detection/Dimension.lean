import FloodGuard.Number.Rounding
import FloodGuard.Traffic.Counters

/-!
The dimensions in which traffic is measured for detection: packets per second and megabits per
second of the whole traffic or of one portion of it, and flows per second.
-/
namespace FloodGuard

/-- The numbers of the transport protocols that detection knows. -/
def Protocol.icmp : UInt8 := 1

def Protocol.tcp : UInt8 := 6

def Protocol.udp : UInt8 := 17

/-- Megabits per second for bytes per second, rounded down from the measured number. -/
def megabits (bytes : UInt64) : UInt64 :=
  UInt64.ofNat (Rounding.measured bytes.toNat / 131072)

/-- The measured number of megabits always fits. -/
theorem toNat_megabits (bytes : UInt64) :
    (megabits bytes).toNat = Rounding.measured bytes.toNat / 131072 := by
  have hbound : Rounding.measured bytes.toNat ≤ UInt64.size := by
    calc
      _ ≤ Rounding.measured UInt64.size := Rounding.measured_mono (Nat.le_of_lt bytes.toNat_lt)
      _ = UInt64.size := by decide
  have hquotient : Rounding.measured bytes.toNat / 131072 < UInt64.size := by
    rw [Nat.div_lt_iff_lt_mul (by decide)]
    exact Nat.lt_of_le_of_lt hbound (by decide)
  exact UInt64.toNat_ofNat_of_lt' hquotient

theorem megabits_mono {m n : UInt64} (h : m ≤ n) : megabits m ≤ megabits n := by
  rw [UInt64.le_iff_toNat_le, toNat_megabits, toNat_megabits]
  exact Nat.div_le_div_right (Rounding.measured_mono (UInt64.le_iff_toNat_le.1 h))

/-- A portion of an entity's traffic with thresholds of its own. -/
inductive Portion where
  | all
  | tcp
  | udp
  | icmp
  | tcpSyn
deriving DecidableEq, Repr

inductive Dimension where
  | packets (portion : Portion)
  | bandwidth (portion : Portion)
  | flows
deriving DecidableEq, Repr

namespace Dimension

/-- All dimensions, the one to be checked first in front. -/
def priority : List Dimension :=
  [.packets .all, .bandwidth .all, .flows,
    .packets .tcp, .packets .udp, .packets .icmp,
    .bandwidth .tcp, .bandwidth .udp, .bandwidth .icmp,
    .packets .tcpSyn, .bandwidth .tcpSyn]

instance : Labelled Dimension where
  all := priority
  label
    | .packets .all => "packets_per_second"
    | .bandwidth .all => "bytes_per_second"
    | .flows => "flows_per_second"
    | .packets .tcp => "tcp_packets_per_second"
    | .packets .udp => "udp_packets_per_second"
    | .packets .icmp => "icmp_packets_per_second"
    | .bandwidth .tcp => "tcp_bytes_per_second"
    | .bandwidth .udp => "udp_bytes_per_second"
    | .bandwidth .icmp => "icmp_bytes_per_second"
    | .packets .tcpSyn => "tcp_syn_packets_per_second"
    | .bandwidth .tcpSyn => "tcp_syn_bytes_per_second"

theorem mem_priority (d : Dimension) : d ∈ priority := by
  rcases d with (_ | _) | (_ | _) | _ <;> decide

end Dimension

end FloodGuard

import FloodGuard.Label

/-!
The kinds of attacks: floods of one portion of the traffic, and services that reflect small requests
as large answers. A reflector is known by the port that its answers come from.
-/
namespace FloodGuard

/-- A flood whose packets are mostly of one portion. -/
inductive Flood where
  | syn
  | icmp
  | udp
  | fragmentation
deriving DecidableEq, Repr

instance : Labelled Flood where
  all := [.syn, .icmp, .udp, .fragmentation]
  label
    | .syn => "syn_flood"
    | .icmp => "icmp_flood"
    | .udp => "udp_flood"
    | .fragmentation => "ip_fragmentation_flood"

/-- The name in reports, which for fragmentation is shorter than the label. -/
def Flood.name : Option Flood → String
  | some .fragmentation => "ip_fragmentation"
  | kind => label kind

/-- A service that can be abused to amplify traffic over UDP. -/
inductive Reflector where
  | dns
  | ntp
  | ssdp
  | snmp
  | chargen
deriving DecidableEq, Repr

instance : Labelled Reflector where
  all := [.dns, .ntp, .ssdp, .snmp, .chargen]
  label
    | .dns => "dns"
    | .ntp => "ntp"
    | .ssdp => "ssdp"
    | .snmp => "snmp"
    | .chargen => "chargen"

namespace Reflector

/-- The port that the answers of the service come from. -/
def port : Reflector → UInt16
  | .dns => 53
  | .ntp => 123
  | .ssdp => 1900
  | .snmp => 161
  | .chargen => 19

/-- The service behind a port, if a known one. -/
def ofPort? (port : UInt16) : Option Reflector :=
  Labelled.all.find? fun reflector : Reflector => reflector.port = port

theorem ofPort?_port (reflector : Reflector) : ofPort? reflector.port = some reflector := by
  cases reflector <;> decide

theorem ofPort?_eq_some_iff (port : UInt16) (reflector : Reflector) :
    ofPort? port = some reflector ↔ reflector.port = port := by
  constructor
  · intro h
    have hp := List.find?_some h
    simpa using hp
  · rintro rfl
    exact ofPort?_port reflector

end Reflector

/-- An order of all reflectors. -/
structure ReflectorOrder where
  kinds : List Reflector
  perm : kinds.Perm Labelled.all

/-- The order in which the reflectors are listed. -/
def ReflectorOrder.listed : ReflectorOrder := ⟨Labelled.all, .refl _⟩

theorem ReflectorOrder.mem_kinds (order : ReflectorOrder) (reflector : Reflector) :
    reflector ∈ order.kinds := by
  rw [order.perm.mem_iff]
  cases reflector <;> decide

/-- How an attack was noticed. -/
inductive DetectionSource where
  | automatic
  | manual
  | other
deriving DecidableEq, Repr

instance : Labelled DetectionSource where
  all := [.automatic, .manual, .other]
  label
    | .automatic => "automatic"
    | .manual => "manual"
    | .other => "other"

end FloodGuard

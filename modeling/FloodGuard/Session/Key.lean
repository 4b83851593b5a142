import FloodGuard.Address
import FloodGuard.Session.Endpoint
import FloodGuard.Traffic.Counters

/-!
What tells sessions apart: the monitored host, the direction, the protocol and the remote end.
-/
namespace FloodGuard

inductive SessionProtocol where
  | tcp
  | udp
  | icmp
  | other
deriving DecidableEq, Repr

instance : Labelled SessionProtocol where
  all := [.tcp, .udp, .icmp, .other]
  label
    | .tcp => "tcp"
    | .udp => "udp"
    | .icmp => "icmp"
    | .other => "other"

def SessionProtocol.ofNumber (protocol : UInt8) : SessionProtocol :=
  if protocol = 6 then .tcp
  else if protocol = 17 then .udp
  else if protocol = 1 then .icmp
  else .other

/-- The direction and the protocol of sessions. -/
structure SessionKind where
  side : Side
  protocol : SessionProtocol
deriving DecidableEq, Repr

namespace SessionKind

/-- All kinds, the incoming ones in front. -/
def all : List SessionKind :=
  Labelled.all.flatMap fun side => Labelled.all.map fun protocol => ⟨side, protocol⟩

theorem mem_all (kind : SessionKind) : kind ∈ all := by
  obtain ⟨_ | _, _ | _ | _ | _⟩ := kind <;> decide

theorem nodup_all : all.Nodup := by decide

end SessionKind

structure SessionKey where
  host : Address
  kind : SessionKind
  endpoint : Endpoint
deriving DecidableEq, Repr

end FloodGuard

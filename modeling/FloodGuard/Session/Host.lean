import FloodGuard.Number.Saturating
import FloodGuard.Session.Key
import Std.Data.ExtTreeMap

/-!
The sessions of one host. Each of the eight kinds has a map of its own from packed remote ends to
what is known of a session. A sweep goes through the maps one after the other.
-/
namespace FloodGuard

/-- What is known of a session. -/
structure Session where
  bytes : UInt64 := 0
  packets : UInt64 := 0
  /-- The time of the last packet in seconds. -/
  lastSeen : UInt64 := 0
deriving DecidableEq, Repr

/-- Counts one more packet. -/
def Session.count (s : Session) (bytes now : UInt64) : Session where
  bytes := Saturating.add s.bytes bytes
  packets := Saturating.add s.packets 1
  lastSeen := now

/-- Sessions of one kind by their packed remote ends. -/
abbrev SessionMap := Std.ExtTreeMap UInt64 Session

structure HostSessions where
  inTcp : SessionMap := ∅
  inUdp : SessionMap := ∅
  inIcmp : SessionMap := ∅
  inOther : SessionMap := ∅
  outTcp : SessionMap := ∅
  outUdp : SessionMap := ∅
  outIcmp : SessionMap := ∅
  outOther : SessionMap := ∅

namespace HostSessions

/-- The sessions of a kind. -/
def map (h : HostSessions) : SessionKind → SessionMap
  | ⟨.incoming, .tcp⟩ => h.inTcp
  | ⟨.incoming, .udp⟩ => h.inUdp
  | ⟨.incoming, .icmp⟩ => h.inIcmp
  | ⟨.incoming, .other⟩ => h.inOther
  | ⟨.outgoing, .tcp⟩ => h.outTcp
  | ⟨.outgoing, .udp⟩ => h.outUdp
  | ⟨.outgoing, .icmp⟩ => h.outIcmp
  | ⟨.outgoing, .other⟩ => h.outOther

/-- Puts other sessions in the place of those of a kind. -/
def setMap (h : HostSessions) (kind : SessionKind) (sessions : SessionMap) : HostSessions :=
  match kind with
  | ⟨.incoming, .tcp⟩ => { h with inTcp := sessions }
  | ⟨.incoming, .udp⟩ => { h with inUdp := sessions }
  | ⟨.incoming, .icmp⟩ => { h with inIcmp := sessions }
  | ⟨.incoming, .other⟩ => { h with inOther := sessions }
  | ⟨.outgoing, .tcp⟩ => { h with outTcp := sessions }
  | ⟨.outgoing, .udp⟩ => { h with outUdp := sessions }
  | ⟨.outgoing, .icmp⟩ => { h with outIcmp := sessions }
  | ⟨.outgoing, .other⟩ => { h with outOther := sessions }

def maps (h : HostSessions) : List SessionMap :=
  [h.inTcp, h.inUdp, h.inIcmp, h.inOther, h.outTcp, h.outUdp, h.outIcmp, h.outOther]

/-- The number of sessions. -/
def size (h : HostSessions) : Nat := h.maps.foldr (fun sessions total => sessions.size + total) 0

def isEmpty (h : HostSessions) : Bool := h.maps.all fun sessions => sessions.isEmpty

def get? (h : HostSessions) (kind : SessionKind) (endpoint : Endpoint) : Option Session :=
  (h.map kind)[endpoint.pack]?

/-- Counts a packet of so many bytes for a session. -/
def record (h : HostSessions) (kind : SessionKind) (endpoint : Endpoint) (bytes now : UInt64) :
    HostSessions :=
  let sessions := h.map kind
  let word := endpoint.pack
  h.setMap kind (sessions.insert word ((sessions.getD word {}).count bytes now))

/-- Drops the sessions of a kind that were last seen before a time, and counts them together with
those that were dropped already. -/
def evictKind (cutoff : UInt64) (swept : Nat × HostSessions) (kind : SessionKind) :
    Nat × HostSessions :=
  let (evicted, left) := swept
  let kept := (left.map kind).filter fun _ session => cutoff ≤ session.lastSeen
  (evicted + ((left.map kind).size - kept.size), left.setMap kind kept)

/-- Drops all sessions that were last seen before a time, and counts them. -/
def evictBefore (h : HostSessions) (cutoff : UInt64) : Nat × HostSessions :=
  SessionKind.all.foldl (evictKind cutoff) (0, h)

theorem map_setMap (h : HostSessions) (kind other : SessionKind) (sessions : SessionMap) :
    (h.setMap kind sessions).map other = if kind = other then sessions else h.map other := by
  obtain ⟨_ | _, _ | _ | _ | _⟩ := kind <;> obtain ⟨_ | _, _ | _ | _ | _⟩ := other <;> rfl

theorem maps_eq (h : HostSessions) : h.maps = SessionKind.all.map h.map := rfl

theorem size_setMap (h : HostSessions) (kind : SessionKind) (sessions : SessionMap) :
    (h.setMap kind sessions).size + (h.map kind).size = h.size + sessions.size := by
  obtain ⟨_ | _, _ | _ | _ | _⟩ := kind <;>
    simp only [size, maps, setMap, map, List.foldr_cons, List.foldr_nil] <;>
    omega

@[simp] theorem get?_empty (kind : SessionKind) (endpoint : Endpoint) :
    ({} : HostSessions).get? kind endpoint = none := by
  obtain ⟨_ | _, _ | _ | _ | _⟩ := kind <;> exact Std.ExtTreeMap.getElem?_empty

theorem get?_record (h : HostSessions) (kind other : SessionKind) (endpoint endpoint' : Endpoint)
    (bytes now : UInt64) :
    (h.record kind endpoint bytes now).get? other endpoint' =
      if kind = other ∧ endpoint = endpoint' then
        some (((h.get? kind endpoint).getD {}).count bytes now)
      else h.get? other endpoint' := by
  rw [record, get?, map_setMap]
  by_cases hkind : kind = other
  · subst hkind
    simp only [if_pos, true_and, Std.ExtTreeMap.getElem?_insert, Std.compare_eq_iff_eq,
      Endpoint.pack_inj, Std.ExtTreeMap.getD_eq_getD_getElem?, get?]
  · simp only [hkind, if_false, false_and, get?]

end HostSessions

end FloodGuard

import FloodGuard.Attack.Kind
import FloodGuard.Session.Host

/-!
The table of sessions: for every session that was recorded since it was last dropped, its bytes, its
packets and the time of its last packet. A host is tracked while it has a session.
-/
namespace FloodGuard

structure SessionTable where
  tracked : Std.ExtTreeMap Address HostSessions := ∅

namespace SessionTable

/-- The sessions of a host, if it is tracked. -/
def host? (t : SessionTable) (host : Address) : Option HostSessions := t.tracked[host]?

def get? (t : SessionTable) (key : SessionKey) : Option Session :=
  (t.host? key.host).bind fun sessions => sessions.get? key.kind key.endpoint

/-- Records a packet of so many bytes. A host that is not tracked becomes so. -/
def record (t : SessionTable) (key : SessionKey) (bytes now : UInt64) : SessionTable :=
  let sessions := (t.host? key.host).getD {}
  ⟨t.tracked.insert key.host (sessions.record key.kind key.endpoint bytes now)⟩

/-- The sessions of one kind of a host with their packed remote ends, in the order of those. -/
def ofKind (t : SessionTable) (host : Address) (kind : SessionKind) : List (UInt64 × Session) :=
  match t.host? host with
  | some sessions => (sessions.map kind).toList
  | none => []

/-- The sessions of one kind with the most bytes; among equals the lower remote end is first. -/
def top (t : SessionTable) (host : Address) (kind : SessionKind) (limit : Nat) :
    List (Endpoint × Session) :=
  let sorted := (t.ofKind host kind).mergeSort fun a b => b.2.bytes ≤ a.2.bytes
  (sorted.take limit).map fun (word, session) => (Endpoint.unpack word, session)

/-- The hosts that are tracked. -/
def hosts (t : SessionTable) : List Address := t.tracked.keys

/-- The number of sessions. -/
def size (t : SessionTable) : Nat :=
  t.tracked.toList.foldr (fun (_, sessions) total => sessions.size + total) 0

/-- Drops the sessions of a host that were last seen before a time, and counts them together with
those that were dropped already. A host without sessions is not tracked any more. -/
def evictHost (cutoff : UInt64) (swept : Nat × SessionTable) (host : Address × HostSessions) :
    Nat × SessionTable :=
  let (evicted, t) := swept
  let (more, left) := host.2.evictBefore cutoff
  (evicted + more,
    ⟨if left.isEmpty then t.tracked.erase host.1 else t.tracked.insert host.1 left⟩)

/-- Drops the sessions that have been idle for longer than a window, and counts them. -/
def evict (t : SessionTable) (now window : UInt64) : Nat × SessionTable :=
  t.tracked.toList.foldl (evictHost (Saturating.sub now window)) (0, t)

/-- The table without the sessions that have been idle for longer than a window. -/
def sweep (t : SessionTable) (now window : UInt64) : SessionTable := (t.evict now window).2

/-- The kind of the sessions that reflected traffic belongs to. -/
def reflected : SessionKind := ⟨.incoming, .udp⟩

/-- The sessions of a kind with their remote ends, in the order of these when packed. -/
def listed (t : SessionTable) (host : Address) (kind : SessionKind) : List (Endpoint × Session) :=
  (t.ofKind host kind).map fun entry => (Endpoint.unpack entry.1, entry.2)

/-- The counters of a walk over sessions: one for all of them and one for each reflector. -/
@[ext] structure ByteTally where
  total : UInt64 := 0
  of : Reflector → UInt64 := fun _ => 0

namespace ByteTally

/-- Counts a session, for all of them and for the reflector with its port if there is one. -/
def count (tally : ByteTally) (entry : Endpoint × Session) : ByteTally where
  total := Saturating.add tally.total entry.2.bytes
  of kind :=
    if Reflector.ofPort? entry.1.remotePort = some kind then
      Saturating.add (tally.of kind) entry.2.bytes
    else tally.of kind

/-- The one of two reflectors with more bytes; among equals it is the one that comes later. -/
def busier (tally : ByteTally) (best : Option Reflector) (kind : Reflector) : Option Reflector :=
  match best with
  | some other => if tally.of kind < tally.of other then some other else some kind
  | none => some kind

/-- Compares reflectors one after the other, and takes one with the most bytes if it has more than
half of all. -/
def verdict (tally : ByteTally) (kinds : List Reflector) : Option Reflector :=
  (kinds.foldl tally.busier none).filter fun kind => tally.total / 2 < tally.of kind

end ByteTally

/-- The bytes over UDP that came in to a host. -/
def reflectedTally (t : SessionTable) (host : Address) : ByteTally :=
  (t.listed host reflected).foldl ByteTally.count {}

/-- The reflector that more than half of the incoming traffic over UDP comes from. The reflectors
are compared in an order that nothing determines. -/
def reflectorOf (t : SessionTable) (host : Address) (order : ReflectorOrder := .listed) :
    Option Reflector :=
  (t.reflectedTally host).verdict order.kinds

theorem host?_record (t : SessionTable) (key : SessionKey) (bytes now : UInt64) (host : Address) :
    (t.record key bytes now).host? host =
      if key.host = host then
        some (((t.host? key.host).getD {}).record key.kind key.endpoint bytes now)
      else t.host? host := by
  simp only [record, host?, Std.ExtTreeMap.getElem?_insert, Std.compare_eq_iff_eq]

/-- A host that is not tracked has no session, as an empty one. -/
theorem get?_eq_getD (t : SessionTable) (key : SessionKey) :
    t.get? key = ((t.host? key.host).getD {}).get? key.kind key.endpoint := by
  cases h : t.host? key.host <;> simp [get?, h]

theorem get?_record (t : SessionTable) (key other : SessionKey) (bytes now : UInt64) :
    (t.record key bytes now).get? other =
      if key = other then some (((t.get? key).getD {}).count bytes now) else t.get? other := by
  obtain ⟨host, kind, endpoint⟩ := key
  obtain ⟨host', kind', endpoint'⟩ := other
  simp only [get?_eq_getD, host?_record, SessionKey.mk.injEq]
  by_cases hhost : host = host'
  · subst hhost
    simp only [if_pos, Option.getD_some, HostSessions.get?_record, true_and]
  · simp only [hhost, if_false, false_and]

end SessionTable

end FloodGuard

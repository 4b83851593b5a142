import FloodGuard.Number.Saturating
import FloodGuard.Traffic.Counters

/-!
The traffic of the whole installation: a tally of bytes, packets and flows for each direction, as
the speed of the last interval, as the average speed and as the accumulated total.
-/
namespace FloodGuard

structure Tally where
  bytes : UInt64 := 0
  packets : UInt64 := 0
  flows : UInt64 := 0
deriving DecidableEq, Repr

namespace Tally

/-- The tally with one entity's traffic of one side added. -/
def count (t : Tally) (c : Counters) (side : Side) : Tally where
  bytes := Saturating.add t.bytes (c.total.bytes side)
  packets := Saturating.add t.packets (c.total.packets side)
  flows := Saturating.add t.flows (c.flows side)

/-- The tally with a speed added that was held for a number of seconds. -/
def accumulate (t speed : Tally) (seconds : UInt64) : Tally where
  bytes := Saturating.add t.bytes (Saturating.mul speed.bytes seconds)
  packets := Saturating.add t.packets (Saturating.mul speed.packets seconds)
  flows := Saturating.add t.flows (Saturating.mul speed.flows seconds)

end Tally

/-- One value for every direction. -/
structure PerDirection (α : Type) where
  incoming : α
  outgoing : α
  other : α
  internal : α
deriving DecidableEq, Repr

namespace PerDirection

variable {α β γ : Type}

def get (p : PerDirection α) : Direction → α
  | .incoming => p.incoming
  | .outgoing => p.outgoing
  | .other => p.other
  | .internal => p.internal

def set (p : PerDirection α) (direction : Direction) (x : α) : PerDirection α :=
  match direction with
  | .incoming => { p with incoming := x }
  | .outgoing => { p with outgoing := x }
  | .other => { p with other := x }
  | .internal => { p with internal := x }

/-- The values in the order of their slots. -/
def toList (p : PerDirection α) : List α := [p.incoming, p.outgoing, p.other, p.internal]

def ofList? : List α → Option (PerDirection α)
  | [incoming, outgoing, other, internal] => some ⟨incoming, outgoing, other, internal⟩
  | _ => none

def zipWith (f : α → β → γ) (p : PerDirection α) (q : PerDirection β) : PerDirection γ :=
  ⟨f p.incoming q.incoming, f p.outgoing q.outgoing, f p.other q.other, f p.internal q.internal⟩

def replicate (x : α) : PerDirection α := ⟨x, x, x, x⟩

theorem get_zipWith (f : α → β → γ) (p : PerDirection α) (q : PerDirection β) (d : Direction) :
    (p.zipWith f q).get d = f (p.get d) (q.get d) := by
  cases d <;> rfl

end PerDirection

/-- The number of a direction's slot. -/
def Direction.slot : Direction → Nat
  | .incoming => 0
  | .outgoing => 1
  | .other => 2
  | .internal => 3

structure Totals where
  total : PerDirection Tally := .replicate {}
  speed : PerDirection Tally := .replicate {}
  average : PerDirection Tally := .replicate {}
deriving DecidableEq, Repr

/-- The speed of the installation in every direction, from the measurements of its hosts. -/
def Tally.ofCounters (counters : List Counters) : PerDirection Tally where
  incoming := counters.foldl (fun t c => t.count c .incoming) {}
  outgoing := counters.foldl (fun t c => t.count c .outgoing) {}
  other := {}
  internal := {}

namespace Tally

end Tally

end FloodGuard

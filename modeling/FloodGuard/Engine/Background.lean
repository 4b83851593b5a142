import FloodGuard.Engine

/-!
The background work of the engine: detection cycles and sweeps of the session table, each at once
and then at its own interval.
-/
namespace FloodGuard

/-- Whether work with an interval is due after so many seconds. -/
def Intervals.isDue (interval : UInt64) (second : Nat) : Bool := second % interval.toNat = 0

/-- How often work with an interval is done within a number of seconds. -/
def Intervals.ticks (interval : UInt64) (seconds : Nat) : Nat := seconds / interval.toNat + 1

namespace Engine

/-- The work of one second, as seen by a clock that shows `now`. -/
def backgroundStep (w : World) (observations : List Observation) (now : UInt64) (e : Engine)
    (second : Nat) : Engine :=
  let detected :=
    if Intervals.isDue e.intervals.evaluation second then (e.runCycle w observations now).engine
    else e
  if Intervals.isDue e.intervals.sweep second then
    detected.sweepSessions now e.intervals.inactivity
  else detected

/-- The work of a number of seconds during which the clock does not move on. -/
def background (w : World) (observations : List Observation) (now : UInt64) (seconds : Nat)
    (e : Engine) : Engine :=
  (List.range (seconds + 1)).foldl (backgroundStep w observations now) e

end Engine

end FloodGuard

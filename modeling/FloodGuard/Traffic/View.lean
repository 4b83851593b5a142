import FloodGuard.Traffic.Ranking
import FloodGuard.Traffic.Totals

/-!
The traffic of the last cycle: the entities with their averages, and the traffic of the
installation. Networks of more than one address are ranked but not counted, since their hosts are
measured on their own.
-/
namespace FloodGuard

structure TrafficView where
  entities : List (Network × Counters) := []
  totals : Totals := {}
  /-- The time of the last cycle. -/
  last : Option UInt64 := none
deriving DecidableEq, Repr

namespace TrafficView

/-- The seconds since the last cycle, none in the first one. -/
def elapsed (v : TrafficView) (now : UInt64) : UInt64 :=
  match v.last with
  | some last => Saturating.sub now last
  | none => 0

/-- Takes over the observations of a cycle. What is seen counts for the time since the last
cycle. -/
def update (v : TrafficView) (observations : List Observation) (now : UInt64) : TrafficView :=
  let hosts := observations.filter fun o => o.entity.isHost
  let speed := Tally.ofCounters (hosts.map Observation.current)
  { entities := observations.map fun o => (o.entity, o.average)
    totals :=
      { total := v.totals.total.zipWith (fun t s => t.accumulate s (v.elapsed now)) speed
        speed
        average := Tally.ofCounters (hosts.map Observation.average) }
    last := some now }

/-- The entities that rank highest. -/
def top (v : TrafficView) (ranking : Ranking) (limit : Nat) : List (Network × Counters) :=
  (ranking.sort v.entities).take limit

end TrafficView

end FloodGuard

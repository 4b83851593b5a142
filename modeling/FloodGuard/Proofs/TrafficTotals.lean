import FloodGuard.Proofs.Runs
import Mathlib.Algebra.GroupWithZero.Nat

/-!
The traffic of the installation in closed form. The speeds are those of the hosts in the last cycle,
and the totals are the speeds of all cycles but the first, each for the time since the cycle before.
Every number is computed exactly and cut off once at the largest counter: cutting off at every
single addition and multiplication, as the counters do, comes to the same. Only cycles have a part
in that, and neither what is monitored nor what is banned.
-/
namespace FloodGuard

/-- What was measured on a side. -/
def Counters.amount (c : Counters) (side : Side) : SortField → UInt64
  | .packets => c.total.packets side
  | .bytes => c.total.bytes side
  | .flows => c.flows side

def Tally.amount (t : Tally) : SortField → UInt64
  | .packets => t.packets
  | .bytes => t.bytes
  | .flows => t.flows

/-- The exact sum of a measurement over the hosts among some observations. -/
def hostSum (measured : Observation → Counters) (side : Side) (field : SortField)
    (observations : List Observation) : Nat :=
  Saturating.exactSum ((observations.filter fun o => o.entity.isHost).map fun o =>
    (measured o).amount side field)

/-- The speed of all hosts in an interval. -/
def hostSpeed (side : Side) (field : SortField) (observations : List Observation) : Nat :=
  min Saturating.largest (hostSum Observation.current side field observations)

/-- The neighbours in a list. -/
def neighbours {α : Type} (l : List α) : List (α × α) := l.zip l.tail

/-- The exact traffic of some cycles: in each one the speed that was observed counts for the seconds
since the cycle before, and for none if the clock went back. -/
def exactTraffic (side : Side) (field : SortField) (cycles : List (List Observation × UInt64)) :
    Nat :=
  ((neighbours cycles).map fun (before, cycle) =>
    hostSpeed side field cycle.1 * (cycle.2.toNat - before.2.toNat)).sum

theorem neighbours_concat {α : Type} (l : List α) (a : α) :
    neighbours (l ++ [a]) = neighbours l ++ (l.getLast?.map (·, a)).toList := by
  induction l with
  | nil => rfl
  | cons b rest ih =>
    cases rest with
    | nil => rfl
    | cons c more =>
      rw [List.getLast?_cons_cons]
      exact congrArg ((b, c) :: ·) ih

theorem exactTraffic_concat (side : Side) (field : SortField)
    (cycles : List (List Observation × UInt64)) (cycle : List Observation × UInt64) :
    exactTraffic side field (cycles ++ [cycle]) =
      exactTraffic side field cycles + (cycles.getLast?.elim 0 fun before =>
        hostSpeed side field cycle.1 * (cycle.2.toNat - before.2.toNat)) := by
  rw [exactTraffic, neighbours_concat, List.map_append, List.sum_append]
  cases cycles.getLast? <;> simp [exactTraffic]

namespace Tally

theorem amount_count (t : Tally) (c : Counters) (side : Side) (field : SortField) :
    (t.count c side).amount field = Saturating.add (t.amount field) (c.amount side field) := by
  cases field <;> rfl

theorem amount_accumulate (t speed : Tally) (seconds : UInt64) (field : SortField) :
    (t.accumulate speed seconds).amount field =
      Saturating.add (t.amount field) (Saturating.mul (speed.amount field) seconds) := by
  cases field <;> rfl

theorem amount_foldl_count (counters : List Counters) (side : Side) (field : SortField) :
    (counters.foldl (fun t c => count t c side) {}).amount field =
      Saturating.sum (counters.map fun c => c.amount side field) := by
  have hstart : ({} : Tally).amount field = Saturating.clamp 0 := by cases field <;> rfl
  have hrunning : ∀ t : Tally, (counters.foldl (fun t c => count t c side) t).amount field =
      counters.foldl (fun n c => Saturating.add n (c.amount side field)) (t.amount field) := by
    intro t
    exact (List.foldl_hom (fun t : Tally => t.amount field)
      fun t c => (t.amount_count c side field).symm).symm
  rw [hrunning, hstart, ← List.foldl_map, Saturating.foldl_add, Nat.zero_add]
  rfl

theorem toNat_amount_ofCounters (measured : Observation → Counters)
    (observations : List Observation) (side : Side) (field : SortField) :
    (((ofCounters ((observations.filter fun o => o.entity.isHost).map measured)).get
      side.direction).amount field).toNat =
        min Saturating.largest (hostSum measured side field observations) := by
  have hside : ∀ counters : List Counters, (ofCounters counters).get side.direction =
      counters.foldl (fun t c => count t c side) {} := by
    intro counters
    cases side <;> rfl
  rw [hside, amount_foldl_count, Saturating.toNat_sum, List.map_map, Nat.min_comm]
  rfl

theorem get_ofCounters_of_unmeasured (counters : List Counters) {d : Direction}
    (h : d.side? = none) : (ofCounters counters).get d = {} := by
  cases d with
  | incoming => exact absurd h (by simp [Direction.side?])
  | outgoing => exact absurd h (by simp [Direction.side?])
  | internal => rfl
  | other => rfl

/-- Where nothing is counted, nothing adds up. -/
theorem accumulate_nothing (seconds : UInt64) : ({} : Tally).accumulate {} seconds = {} := by
  have hzero : Saturating.add 0 (Saturating.mul 0 seconds) = 0 := by
    apply UInt64.toNat_inj.mp
    rw [Saturating.toNat_add, Saturating.toNat_mul]
    simp
  simp only [accumulate, hzero]

end Tally

/-- What was observed in the last of some cycles. -/
def lastObserved (cycles : List (List Observation × UInt64)) : List Observation :=
  (cycles.getLast?.map Prod.fst).getD []

theorem lastObserved_concat (cycles : List (List Observation × UInt64))
    (cycle : List Observation × UInt64) : lastObserved (cycles ++ [cycle]) = cycle.1 := by
  rw [lastObserved, List.getLast?_concat]
  rfl

namespace Totals

/-- Whether the totals are those of some cycles in closed form. -/
structure ClosedForm (t : Totals) (cycles : List (List Observation × UInt64)) : Prop where
  speed : ∀ side field, ((t.speed.get side.direction).amount field).toNat =
    hostSpeed side field (lastObserved cycles)
  average : ∀ side field, ((t.average.get side.direction).amount field).toNat =
    min Saturating.largest (hostSum Observation.average side field (lastObserved cycles))
  total : ∀ side field, ((t.total.get side.direction).amount field).toNat =
    min Saturating.largest (exactTraffic side field cycles)
  unmeasured : ∀ d : Direction, d.side? = none →
    t.speed.get d = {} ∧ t.average.get d = {} ∧ t.total.get d = {}

end Totals

namespace TrafficView

/-- Whether a view is that of some cycles. The time of the last one is what the next one counts
from. -/
structure Of (v : TrafficView) (cycles : List (List Observation × UInt64)) : Prop where
  totals : v.totals.ClosedForm cycles
  last : v.last = cycles.getLast?.map Prod.snd

theorem of_nil : TrafficView.Of {} [] := by
  refine ⟨⟨?_, ?_, ?_, ?_⟩, rfl⟩
  · intro side field
    cases side <;> cases field <;> rfl
  · intro side field
    cases side <;> cases field <;> rfl
  · intro side field
    cases side <;> cases field <;> rfl
  · intro d _
    cases d <;> exact ⟨rfl, rfl, rfl⟩

theorem toNat_elapsed (v : TrafficView) (now : UInt64) :
    (v.elapsed now).toNat = v.last.elim 0 fun last => now.toNat - last.toNat := by
  cases h : v.last with
  | none => simp [elapsed, h]
  | some last => simp [elapsed, h, Saturating.toNat_sub]

theorem Of.update {v : TrafficView} {cycles : List (List Observation × UInt64)} (h : v.Of cycles)
    (cycle : List Observation × UInt64) : (v.update cycle.1 cycle.2).Of (cycles ++ [cycle]) := by
  have hspeed := Tally.toNat_amount_ofCounters Observation.current cycle.1
  refine ⟨⟨?_, ?_, ?_, ?_⟩, ?_⟩
  · intro side field
    rw [lastObserved_concat]
    exact hspeed side field
  · intro side field
    rw [lastObserved_concat]
    exact Tally.toNat_amount_ofCounters Observation.average cycle.1 side field
  · intro side field
    have hbefore := h.totals.total side field
    have htime : hostSpeed side field cycle.1 * (v.elapsed cycle.2).toNat =
        cycles.getLast?.elim 0 fun before =>
          hostSpeed side field cycle.1 * (cycle.2.toNat - before.2.toNat) := by
      rw [toNat_elapsed, h.last]
      cases cycles.getLast? <;> simp
    simp only [TrafficView.update, PerDirection.get_zipWith]
    rw [Tally.amount_accumulate, Saturating.toNat_add, Saturating.toNat_mul, hbefore, hspeed,
      ← hostSpeed, htime, exactTraffic_concat]
    -- What is cut off already, the total so far and the new product, is cut off again with the sum.
    omega
  · intro d hd
    have hnothing : (Tally.ofCounters ((cycle.1.filter fun o => o.entity.isHost).map
        Observation.current)).get d = {} := Tally.get_ofCounters_of_unmeasured _ hd
    have hbefore := (h.totals.unmeasured d hd).2.2
    refine ⟨hnothing, Tally.get_ofCounters_of_unmeasured _ hd, ?_⟩
    simp only [TrafficView.update, PerDirection.get_zipWith]
    rw [hbefore, hnothing, Tally.accumulate_nothing]
  · rw [List.getLast?_concat]
    rfl

/-- The traffic of some cycles, one after the other. -/
theorem of_foldl (cycles : List (List Observation × UInt64)) :
    (cycles.foldl (fun v cycle => v.update cycle.1 cycle.2) ({} : TrafficView)).Of cycles := by
  induction cycles using List.reverseRecOn with
  | nil => exact of_nil
  | append_singleton cycles cycle ih =>
    rw [List.foldl_append]
    exact ih.update cycle

end TrafficView

/-- The observations and the time of a cycle. -/
def Operation.cycle? : Operation → Option (List Observation × UInt64)
  | .cycle observations now => some (observations, now)
  | _ => none

/-- The cycles among some operations. -/
def cyclesOf (ops : List Operation) : List (List Observation × UInt64) :=
  ops.filterMap Operation.cycle?

namespace Engine

/-- Only a cycle changes the traffic. -/
theorem traffic_step (w : World) (e : Engine) (op : Operation) :
    (e.step w op).traffic =
      op.cycle?.elim e.traffic fun cycle => e.traffic.update cycle.1 cycle.2 := by
  cases op with
  | cycle observations now => exact traffic_runCycle w e observations now
  | unban entity =>
    simp only [step, Operation.cycle?, unban_snd, Option.elim_none]
    split
    · exact (keeps_lift w e _).traffic
    · rfl
  | reload c => rfl
  | record key bytes now => rfl
  | sweepSessions now window => rfl

/-- The traffic after a run is that of its cycles. -/
theorem traffic_run (w : World) (e : Engine) (ops : List Operation) :
    (e.run w ops).traffic =
      (cyclesOf ops).foldl (fun v cycle => v.update cycle.1 cycle.2) e.traffic := by
  induction ops generalizing e with
  | nil => rfl
  | cons op rest ih =>
    rw [run_cons, ih, traffic_step, cyclesOf, cyclesOf, List.filterMap_cons]
    cases op.cycle? <;> rfl

/-- The totals in closed form, whatever happens between the cycles and whatever is monitored. In a
direction that is measured the speeds are the sums over the hosts of the last cycle, and the total
is the sum over all cycles, each cut off once. In the other directions all of them stay empty. -/
theorem totals_closed_form (w : World) (c : Config) (ops : List Operation) (d : Direction) :
    match ((fresh c).run w ops).traffic.totals, d.side? with
    | ⟨total, speed, average⟩, some side => ∀ field,
      ((speed.get d).amount field).toNat =
        min Saturating.largest
          (hostSum Observation.current side field (lastObserved (cyclesOf ops))) ∧
      ((average.get d).amount field).toNat =
        min Saturating.largest
          (hostSum Observation.average side field (lastObserved (cyclesOf ops))) ∧
      ((total.get d).amount field).toNat =
        min Saturating.largest (exactTraffic side field (cyclesOf ops))
    | ⟨total, speed, average⟩, none =>
      speed.get d = {} ∧ average.get d = {} ∧ total.get d = {} := by
  have hof : ((fresh c).run w ops).traffic.totals.ClosedForm (cyclesOf ops) := by
    rw [traffic_run]
    exact (TrafficView.of_foldl (cyclesOf ops)).totals
  cases d with
  | incoming =>
    intro field
    exact ⟨hof.speed .incoming field, hof.average .incoming field, hof.total .incoming field⟩
  | outgoing =>
    intro field
    exact ⟨hof.speed .outgoing field, hof.average .outgoing field, hof.total .outgoing field⟩
  | internal => exact hof.unmeasured .internal rfl
  | other => exact hof.unmeasured .other rfl

end Engine

end FloodGuard

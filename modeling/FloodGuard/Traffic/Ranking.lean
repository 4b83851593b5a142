import FloodGuard.Traffic.Counters

/-!
Ranking of entities by one measurement in one direction, the highest first. Entities with equal
values keep their order, and in a direction that is not measured all entities are equal.
-/
namespace FloodGuard

inductive SortField where
  | packets
  | bytes
  | flows
deriving DecidableEq, Repr

instance : Labelled SortField where
  all := [.packets, .bytes, .flows]
  label
    | .packets => "packets"
    | .bytes => "bytes"
    | .flows => "flows"

structure Ranking where
  field : SortField
  direction : Direction
deriving DecidableEq, Repr

namespace Ranking

/-- The number by which an entity is ranked. -/
def key (r : Ranking) (c : Counters) : Nat :=
  match r.direction.side? with
  | none => 0
  | some side =>
    match r.field with
    | .packets => (c.total.packets side).toNat
    | .bytes => (c.total.bytes side).toNat
    | .flows => (c.flows side).toNat

/-- How two entities stand to each other in the ranking: less means in front. -/
def cmp (r : Ranking) (a b : Counters) : Ordering := compare (r.key b) (r.key a)

/-- The entries in ranking order. -/
def sort {α : Type} (r : Ranking) (entries : List (α × Counters)) : List (α × Counters) :=
  entries.mergeSort fun a b => (r.cmp a.2 b.2).isLE

/-- An entity stands in front of another one, or with it, if its number is not the lower one. -/
theorem isLE_cmp (r : Ranking) (a b : Counters) :
    (r.cmp a b).isLE = decide (r.key b ≤ r.key a) := by
  rw [cmp, Bool.eq_iff_iff, Nat.isLE_compare, decide_eq_true_eq]

end Ranking

end FloodGuard

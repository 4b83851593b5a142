import FloodGuard.Proofs.Arrangement
import FloodGuard.Proofs.TrafficTotals

/-!
The entities that rank highest. They are the front of one arrangement of all that was observed in
the last cycle, the same for every limit: by the measurement of the ranking if its direction is
measured, else as observed. What happened before the last cycle has no part in it.
-/
namespace FloodGuard

namespace Ranking

theorem key_of_measured {r : Ranking} {side : Side} (h : r.direction.side? = some side)
    (c : Counters) : r.key c = (c.amount side r.field).toNat := by
  rw [key, h]
  cases r.field <;> rfl

theorem key_of_unmeasured {r : Ranking} (h : r.direction.side? = none) (c : Counters) :
    r.key c = 0 := by
  rw [key, h]

variable {α : Type}

theorem arranged_sort {r : Ranking} {side : Side} (h : r.direction.side? = some side)
    (entries : List (α × Counters)) :
    Arranged (fun entry => entry.2.amount side r.field) entries (r.sort entries) := by
  simp only [sort, isLE_cmp, key_of_measured h, ← UInt64.le_iff_toNat_le]
  exact arranged_mergeSort (fun entry => entry.2.amount side r.field) entries

theorem sort_of_unmeasured {r : Ranking} (h : r.direction.side? = none)
    (entries : List (α × Counters)) : r.sort entries = entries := by
  simp only [sort, isLE_cmp, key_of_unmeasured h]
  exact List.mergeSort_of_pairwise (List.pairwise_iff_getElem.2 fun _ _ _ _ _ => rfl)

end Ranking

/-- The entities of a cycle with their averages, in the order of the observations. -/
def entitiesOf (observations : List Observation) : List (Network × Counters) :=
  observations.map fun o => (o.entity, o.average)

namespace Engine

/-- After a run the entities of its last cycle are there to be ranked. -/
theorem entities_run (w : World) (c : Config) (ops : List Operation) :
    ((fresh c).run w ops).traffic.entities = entitiesOf (lastObserved (cyclesOf ops)) := by
  rw [traffic_run]
  induction cyclesOf ops using List.reverseRecOn with
  | nil => rfl
  | append_singleton cycles cycle =>
    rw [List.foldl_append, lastObserved_concat]
    rfl

theorem topEntities_run (w : World) (c : Config) (ops : List Operation) (ranking : Ranking)
    (limit : Nat) :
    ((fresh c).run w ops).topEntities ranking limit =
      (ranking.sort (entitiesOf (lastObserved (cyclesOf ops)))).take limit := by
  rw [topEntities, TrafficView.top, entities_run]

/-- The entities that rank highest after a run are the front of an arrangement of all observations
of the last cycle, as many as the limit allows. In a measured direction it is one by the ranked
measurement, in any other direction it is the order of the observations. A lower limit gives the
front of what a higher one gives, and no earlier cycle has a part in it. -/
theorem topEntities_ranked (w : World) (c : Config) (ops : List Operation) (ranking : Ranking) :
    let observed := entitiesOf (lastObserved (cyclesOf ops))
    let top := ((fresh c).run w ops).topEntities ranking
    (∃ ranked,
      (match ranking.direction.side? with
        | some side => Arranged (fun entry => entry.2.amount side ranking.field) observed ranked
        | none => ranked = observed) ∧
      ∀ limit, top limit = ranked.take limit ∧ (top limit).length = min limit observed.length) ∧
    (∀ limit more, limit ≤ more → top limit <+: top more) ∧
    ∀ (v : World) (b : Config) (others : List Operation),
      lastObserved (cyclesOf others) = lastObserved (cyclesOf ops) →
        ((fresh b).run v others).topEntities ranking = top := by
  intro observed top
  have htop : ∀ limit, top limit = (ranking.sort observed).take limit :=
    topEntities_run w c ops ranking
  refine ⟨⟨ranking.sort observed, ?_, fun limit => ⟨htop limit, ?_⟩⟩, ?_, ?_⟩
  · split
    · rename_i side hside
      exact Ranking.arranged_sort hside observed
    · rename_i hside
      exact Ranking.sort_of_unmeasured hside observed
  · have hlength : (ranking.sort observed).length = observed.length :=
      (List.mergeSort_perm _ _).length_eq
    rw [htop, List.length_take, hlength]
  · intro limit more hle
    rw [htop, htop]
    exact List.take_prefix_take_left hle
  · intro v b others hlast
    funext limit
    rw [topEntities_run, hlast, htop]

end Engine

end FloodGuard

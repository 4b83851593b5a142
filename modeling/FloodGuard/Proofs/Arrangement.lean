import FloodGuard.Traffic.Ranking

/-!
Lists arranged by a number, the highest in front. An arrangement holds what the list holds, and
entries with equal numbers are in it in the order of the list. Sorting gives one, and its front is
made of entries that no other entry exceeds.
-/
namespace FloodGuard

/-- Whether a list is an arrangement of another one by a number. -/
structure Arranged {α : Type} (number : α → UInt64) (listed ranked : List α) : Prop where
  perm : ranked.Perm listed
  falling : ranked.Pairwise fun a b => number b ≤ number a
  stable : ∀ n, (ranked.filter fun a => number a = n) = listed.filter fun a => number a = n

section

variable {α : Type} (number : α → UInt64)

theorem falling_trans (a b c : α) (hab : decide (number b ≤ number a) = true)
    (hbc : decide (number c ≤ number b) = true) : decide (number c ≤ number a) = true := by
  rw [decide_eq_true_eq] at hab hbc ⊢
  exact UInt64.le_trans hbc hab

theorem falling_total (a b : α) :
    (decide (number b ≤ number a) || decide (number a ≤ number b)) = true := by
  rw [Bool.or_eq_true, decide_eq_true_eq, decide_eq_true_eq]
  exact UInt64.le_total (number b) (number a)

/-- Sorting arranges a list. -/
theorem arranged_mergeSort (listed : List α) :
    Arranged number listed (listed.mergeSort fun a b => number b ≤ number a) := by
  have hperm := List.mergeSort_perm listed fun a b => decide (number b ≤ number a)
  have hfalling := List.pairwise_mergeSort (falling_trans number) (falling_total number) listed
  refine ⟨hperm, hfalling.imp fun h => of_decide_eq_true h, fun n => ?_⟩
  -- The entries with one number are in order as they are listed, so sorting keeps them together.
  have hequal : (listed.filter fun a => number a = n).Pairwise
      fun a b => decide (number b ≤ number a) = true := by
    refine List.pairwise_iff_getElem.2 fun i j hi hj _ => ?_
    have hfirst := of_decide_eq_true (List.mem_filter.1 (List.getElem_mem hi)).2
    have hsecond := of_decide_eq_true (List.mem_filter.1 (List.getElem_mem hj)).2
    rw [hfirst, hsecond]
    exact decide_eq_true (UInt64.le_refl n)
  have hkept := (List.sublist_mergeSort (falling_trans number) (falling_total number) hequal
    List.filter_sublist).filter fun a => number a = n
  rw [List.filter_filter, List.filter_congr fun a _ => Bool.and_self _] at hkept
  exact (hkept.eq_of_length (hperm.filter _).length_eq.symm).symm

end

/-- No entry that is left out exceeds one in front. -/
theorem Arranged.le_of_mem_take {α : Type} {number : α → UInt64} {listed ranked : List α}
    (h : Arranged number listed ranked) {limit : Nat} {a b : α} (ha : a ∈ ranked.take limit)
    (hb : b ∈ listed) (hout : b ∉ ranked.take limit) :
    number b ≤ number a := by
  have hsplit := h.falling
  rw [← List.take_append_drop limit ranked, List.pairwise_append] at hsplit
  have hranked := h.perm.mem_iff.2 hb
  rw [← List.take_append_drop limit ranked, List.mem_append] at hranked
  exact hsplit.2.2 a ha b (hranked.resolve_left hout)

end FloodGuard

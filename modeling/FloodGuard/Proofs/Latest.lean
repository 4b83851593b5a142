import Mathlib.Data.Finset.Card

/-!
The last entry for a key. A list of entries, each a key with a value, in the order in which they
were written, is a map in which the last write wins: a key has the value that it was written with
last, and none if it was never written. It grows by the keys that have no value yet.
-/
namespace FloodGuard

/-- The value that entries have last for a key. -/
def latest {α β : Type} [DecidableEq α] (entries : List (α × β)) (key : α) : Option β :=
  (entries.filter fun entry => entry.1 = key).getLast?.map Prod.snd

section

variable {α β : Type} [DecidableEq α]

theorem latest_nil (key : α) : latest ([] : List (α × β)) key = none := rfl

theorem latest_append (entries more : List (α × β)) (key : α) :
    latest (entries ++ more) key = (latest more key).or (latest entries key) := by
  rw [latest, List.filter_append, List.getLast?_append, Option.map_or]
  rfl

theorem latest_cons (entry : α × β) (entries : List (α × β)) (key : α) :
    latest (entry :: entries) key =
      (latest entries key).or (if entry.1 = key then some entry.2 else none) := by
  have hone : latest [entry] key = if entry.1 = key then some entry.2 else none := by
    by_cases h : entry.1 = key <;> simp [latest, h]
  rw [← List.singleton_append, latest_append, hone]

theorem latest_eq_none_iff (entries : List (α × β)) (key : α) :
    latest entries key = none ↔ ∀ entry ∈ entries, entry.1 ≠ key := by
  simp [latest]

theorem latest_concat (entries : List (α × β)) (entry : α × β) (key : α) :
    latest (entries ++ [entry]) key =
      if entry.1 = key then some entry.2 else latest entries key := by
  rw [latest_append, latest_cons, latest_nil, Option.none_or]
  split <;> rfl

theorem latest_isSome_iff (entries : List (α × β)) (key : α) :
    (latest entries key).isSome = true ↔ key ∈ entries.map Prod.fst := by
  rw [← Option.ne_none_iff_isSome, Ne, latest_eq_none_iff]
  simp

theorem card_keys_concat (entries : List (α × β)) (entry : α × β) :
    ((entries ++ [entry]).map Prod.fst).toFinset.card =
      (entries.map Prod.fst).toFinset.card +
        if (latest entries entry.1).isSome then 0 else 1 := by
  rw [List.map_append, List.map_singleton, List.toFinset_append, Finset.union_comm,
    List.toFinset_cons, List.toFinset_nil, insert_empty_eq, ← Finset.insert_eq,
    Finset.card_insert_eq_ite]
  simp only [latest_isSome_iff, List.mem_toFinset]
  split <;> rfl

theorem getLast?_filter_of_latest {entries : List (α × β)} {key : α} {x : β}
    (h : latest entries key = some x) :
    (entries.filter fun entry => entry.1 = key).getLast? = some (key, x) := by
  obtain ⟨entry, hlast, hsnd⟩ := Option.map_eq_some_iff.1 h
  have hmem := List.mem_filter.1 (List.mem_of_getLast? hlast)
  have hfst : entry.1 = key := by simpa using hmem.2
  rw [hlast, ← hfst, ← hsnd]

end

end FloodGuard

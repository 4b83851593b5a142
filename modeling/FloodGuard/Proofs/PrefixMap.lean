import FloodGuard.Proofs.Latest
import FloodGuard.Proofs.LongestMatch

/-!
A prefix tree as a finite map. The key of a value is the block of the addresses that agree with the
given one on the given number of bits, or on all of them if the number is larger than that; later
bits of the given address do not matter. After any insertions the tree holds for every block the
value that was stored for it last, and the best match of an address is the longest block that holds
the address and has a value.
-/
namespace FloodGuard

variable {w : Nat} {α : Type}

namespace Block

/-- The block that a value is stored for, given by an address and a number of bits. -/
def ofKey (a : BitVec w) (n : Nat) : Block w := .around a (min n w) (Nat.min_le_right n w)

theorem eq_of_contains {b c : Block w} {a : BitVec w} (hb : b.contains a) (hc : c.contains a)
    (hlength : b.length = c.length) : b = c := by
  have hbits : b.bits = c.bits := by
    simp only [contains, decide_eq_true_eq] at hb hc
    rw [← hb, ← hc, hlength]
  exact (ext_iff' b c).2 ⟨hbits, hlength⟩

theorem path_ofKey (a : BitVec w) (n : Nat) :
    path (ofKey a n).bits (ofKey a n).length = path a n := by
  have hagree : path (ofKey a n).bits (min n w) = path a (min n w) := by
    apply path_congr
    intro i hi
    show (keep (min n w) a).getMsbD i = a.getMsbD i
    rw [getMsbD_keep, decide_eq_true hi, Bool.true_and]
  refine hagree.trans ?_
  rw [path, path, Nat.min_assoc, Nat.min_self]

end Block

/-- A value that is stored for the first bits of an address. -/
structure Insertion (w : Nat) (α : Type) where
  address : BitVec w
  length : Nat
  value : α

namespace Insertion

def block (i : Insertion w α) : Block w := .ofKey i.address i.length

def entry (i : Insertion w α) : Block w × α := (i.block, i.value)

end Insertion

namespace PrefixTree

theorem find?_ofKey (t : PrefixTree w α) (a : BitVec w) (n : Nat) :
    t.find? (Block.ofKey a n).bits (Block.ofKey a n).length = t.find? a n := by
  rw [find?, find?, Block.path_ofKey]

theorem insert_ofKey (t : PrefixTree w α) (a : BitVec w) (n : Nat) (x : α) :
    t.insert (Block.ofKey a n).bits (Block.ofKey a n).length x = t.insert a n x := by
  simp only [insert, replace, Block.path_ofKey]

/-- There is no best match just if no block that holds the address has a value. -/
theorem best?_eq_none_iff (t : PrefixTree w α) (a : BitVec w) :
    t.best? a = none ↔ ∀ b : Block w, b.contains a → t.find? b.bits b.length = none := by
  constructor
  · intro h b hb
    exact find?_of_best?_eq_none h hb
  · intro h
    cases hbest : t.best? a with
    | none => rfl
    | some found =>
      obtain ⟨b, hb, -, hfind, -⟩ := find?_of_best?_eq_some hbest
      rw [h b hb] at hfind
      exact absurd hfind (by simp)

/-- The best match is the value of the longest block that holds the address and has one. -/
theorem best?_eq_some_iff (t : PrefixTree w α) (a : BitVec w) (n : Nat) (x : α) :
    t.best? a = some (n, x) ↔
      ∃ b : Block w, b.contains a ∧ b.length = n ∧ t.find? b.bits b.length = some x ∧
        ∀ c : Block w, c.contains a → (t.find? c.bits c.length).isSome → c.length ≤ n := by
  constructor
  · intro h
    obtain ⟨b, hb, hlength, hfind, hlonger⟩ := find?_of_best?_eq_some h
    refine ⟨b, hb, hlength, hfind, ?_⟩
    intro c hc hstored
    by_contra hlt
    rw [hlonger c hc (Nat.lt_of_not_le hlt)] at hstored
    exact absurd hstored (by simp)
  · intro hexists
    obtain ⟨b, hb, rfl, hfind, hlongest⟩ := hexists
    cases hbest : t.best? a with
    | none =>
      rw [find?_of_best?_eq_none hbest hb] at hfind
      exact absurd hfind (by simp)
    | some found =>
      obtain ⟨m, y⟩ := found
      obtain ⟨c, hc, rfl, hfind', hlonger⟩ := find?_of_best?_eq_some hbest
      have hle : c.length ≤ b.length := hlongest c hc (by rw [hfind']; rfl)
      have hge : b.length ≤ c.length := by
        by_contra hlt
        rw [hlonger b hb (Nat.lt_of_not_le hlt)] at hfind
        exact absurd hfind (by simp)
      obtain rfl := Block.eq_of_contains hb hc (Nat.le_antisymm hge hle)
      rw [hfind] at hfind'
      rw [Option.some.inj hfind']

/-- The tree after some insertions into an empty one. -/
def ofInsertions (history : List (Insertion w α)) : PrefixTree w α :=
  history.foldl (fun t i => (t.replace i.address i.length i.value).2) .empty

theorem ofInsertions_concat (history : List (Insertion w α)) (i : Insertion w α) :
    ofInsertions (history ++ [i]) =
      (ofInsertions history).insert i.block.bits i.block.length i.value := by
  rw [Insertion.block, insert_ofKey, ofInsertions, List.foldl_append]
  rfl

theorem find?_ofInsertions (history : List (Insertion w α)) (b : Block w) :
    (ofInsertions history).find? b.bits b.length =
      latest (history.map Insertion.entry) b := by
  induction history using List.reverseRecOn with
  | nil => exact Trie.find?_leaf _
  | append_singleton history i ih =>
    rw [ofInsertions_concat, find?_insert, ih, List.map_append, List.map_singleton, latest_concat]
    rfl

/-- The size grows with each block that has no value yet. -/
theorem size_ofInsertions (history : List (Insertion w α)) :
    (ofInsertions history).size =
      ((history.map Insertion.entry).map Prod.fst).toFinset.card := by
  induction history using List.reverseRecOn with
  | nil => rfl
  | append_singleton history i ih =>
    rw [ofInsertions_concat, size_insert, find?_ofInsertions, ih, List.map_append,
      List.map_singleton, card_keys_concat]
    rfl

/-- After any insertions the tree is a map from blocks to the values that were stored for them last:
an insertion gives back the value that its block had, a look-up finds the value of its block, the
size is the number of different blocks, and the best match of an address is the longest block with a
value that holds the address. -/
theorem tree_is_map_of_blocks (history : List (Insertion w α)) :
    let t := ofInsertions history
    let stored := latest (history.map Insertion.entry)
    (∀ a n x, t.replace a n x =
        (stored (.ofKey a n), ofInsertions (history ++ [⟨a, n, x⟩]))) ∧
      (∀ a n, t.find? a n = stored (.ofKey a n)) ∧
      t.size = (history.map Insertion.block).toFinset.card ∧
      (∀ a, t.best? a = none ↔ ∀ b : Block w, b.contains a → stored b = none) ∧
      ∀ a n x, t.best? a = some (n, x) ↔
        ∃ b : Block w, b.contains a ∧ b.length = n ∧ stored b = some x ∧
          ∀ c : Block w, c.contains a → (stored c).isSome → c.length ≤ n := by
  intro t stored
  have hfind : ∀ b : Block w, t.find? b.bits b.length = stored b := find?_ofInsertions history
  have hexact : ∀ a n, t.find? a n = stored (.ofKey a n) := by
    intro a n
    rw [← hfind, find?_ofKey]
  have hsize : t.size = (history.map Insertion.block).toFinset.card := by
    rw [size_ofInsertions, List.map_map]
    rfl
  refine ⟨?_, hexact, hsize, ?_, ?_⟩
  · intro a n x
    rw [replace_eq, hexact, ofInsertions_concat]
    exact congrArg (Prod.mk _) (insert_ofKey t a n x).symm
  · intro a
    simp only [best?_eq_none_iff, hfind]
  · intro a n x
    simp only [best?_eq_some_iff, hfind]

end PrefixTree

end FloodGuard

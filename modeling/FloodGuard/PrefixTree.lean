/-!
A table keyed by the first bits of addresses, searched by longest match. The table is a binary trie
whose paths spell the keys, most significant bit first. The entries of a trie, listed with their
paths, are the view in which its operations are described.
-/
namespace FloodGuard

inductive Trie (α : Type) where
  | leaf
  | node (value : Option α) (zero one : Trie α)
deriving Repr

namespace Trie

variable {α : Type}

/-- The value stored at the root. -/
def value? : Trie α → Option α
  | leaf => none
  | node v _ _ => v

def child (t : Trie α) (bit : Bool) : Trie α :=
  match t, bit with
  | leaf, _ => leaf
  | node _ zero _, false => zero
  | node _ _ one, true => one

/-- The trie with a value at its root. -/
def withValue (t : Trie α) (x : α) : Trie α :=
  match t with
  | leaf => node (some x) leaf leaf
  | node _ zero one => node (some x) zero one

/-- The trie with another child. -/
def withChild (t : Trie α) (bit : Bool) (child : Trie α) : Trie α :=
  match t, bit with
  | leaf, false => node none child leaf
  | leaf, true => node none leaf child
  | node v _ one, false => node v child one
  | node v zero _, true => node v zero child

/-- Stores a value at the end of a path, and gives back what was there. -/
def replace (t : Trie α) (path : List Bool) (x : α) : Option α × Trie α :=
  match path with
  | [] => (t.value?, t.withValue x)
  | bit :: rest =>
    let replaced := (t.child bit).replace rest x
    (replaced.1, t.withChild bit replaced.2)

/-- Stores a value at the end of a path, in place of what was there. -/
def insert (t : Trie α) (path : List Bool) (x : α) : Trie α := (t.replace path x).2

/-- The value stored at the end of a path. -/
def find? (t : Trie α) : List Bool → Option α
  | [] => t.value?
  | bit :: rest => (t.child bit).find? rest

/-- The last value met on the way along the rest of a path, given the steps that were taken and the
last value met so far. The way ends where no child is. -/
def walk (t : Trie α) (steps : Nat) (best : Option (Nat × α)) : List Bool → Option (Nat × α)
  | [] => best
  | bit :: rest =>
    match t.child bit with
    | leaf => best
    | child => child.walk (steps + 1) ((child.value?.map (steps + 1, ·)).or best) rest

/-- The last value met on the way along a path, with the number of steps taken to it. -/
def best? (t : Trie α) (path : List Bool) : Option (Nat × α) :=
  t.walk 0 (t.value?.map (0, ·)) path

/-- All stored values with their paths. -/
def entries : Trie α → List (List Bool × α)
  | leaf => []
  | node v zero one =>
    v.toList.map ([], ·) ++ zero.entries.map (fun e => (false :: e.1, e.2)) ++
      one.entries.map (fun e => (true :: e.1, e.2))

/-- The number of stored values. -/
def size : Trie α → Nat
  | leaf => 0
  | node v zero one => v.toList.length + zero.size + one.size

@[simp] theorem value?_leaf : (leaf : Trie α).value? = none := rfl

@[simp] theorem child_leaf (bit : Bool) : (leaf : Trie α).child bit = leaf := by
  cases bit <;> rfl

@[simp] theorem find?_leaf (path : List Bool) : (leaf : Trie α).find? path = none := by
  induction path with
  | nil => rfl
  | cons bit rest ih => simp [find?, ih]

theorem insert_nil (t : Trie α) (x : α) : t.insert [] x = t.withValue x := rfl

theorem insert_cons (t : Trie α) (bit : Bool) (rest : List Bool) (x : α) :
    t.insert (bit :: rest) x = t.withChild bit ((t.child bit).insert rest x) := rfl

theorem value?_insert_cons (t : Trie α) (bit : Bool) (rest : List Bool) (x : α) :
    (t.insert (bit :: rest) x).value? = t.value? := by
  rw [insert_cons]
  cases t <;> cases bit <;> rfl

theorem child_insert_cons (t : Trie α) (bit other : Bool) (rest : List Bool) (x : α) :
    (t.insert (bit :: rest) x).child other =
      if other = bit then (t.child bit).insert rest x else t.child other := by
  rw [insert_cons]
  cases t <;> cases bit <;> cases other <;> rfl

theorem find?_insert_self (t : Trie α) (path : List Bool) (x : α) :
    (t.insert path x).find? path = some x := by
  induction path generalizing t with
  | nil => cases t <;> rfl
  | cons bit rest ih => simp [find?, child_insert_cons, ih]

theorem find?_insert_of_ne (t : Trie α) (path other : List Bool) (x : α) (h : other ≠ path) :
    (t.insert path x).find? other = t.find? other := by
  induction path generalizing t other with
  | nil =>
    cases other with
    | nil => exact absurd rfl h
    | cons bit rest => cases t <;> cases bit <;> simp [insert_nil, withValue, find?, child]
  | cons bit rest ih =>
    cases other with
    | nil => simp [find?, value?_insert_cons]
    | cons b s =>
      simp only [find?, child_insert_cons]
      split
      · rename_i hb
        subst hb
        exact ih _ _ (fun hs => h (by rw [hs]))
      · rfl

/-- What is given back is what was found at the end of the path. -/
theorem replace_eq (t : Trie α) (path : List Bool) (x : α) :
    t.replace path x = (t.find? path, t.insert path x) := by
  have hfound : (t.replace path x).1 = t.find? path := by
    induction path generalizing t with
    | nil => rfl
    | cons bit rest ih => exact ih (t.child bit)
  exact Prod.ext hfound rfl

/-- A walk goes on from what it has met, and counts from the steps it has taken. -/
theorem walk_eq (t : Trie α) (steps : Nat) (best : Option (Nat × α)) (path : List Bool) :
    t.walk steps best path =
      ((t.walk 0 none path).map fun found => (found.1 + steps, found.2)).or best := by
  induction path generalizing t steps best with
  | nil => rfl
  | cons bit rest ih =>
    cases hchild : t.child bit with
    | leaf => simp [walk, hchild]
    | node v zero one =>
      simp only [walk, hchild, Option.or_none]
      rw [ih, ih _ (0 + 1)]
      cases (node v zero one).walk 0 none rest with
      | some found => simp [Nat.add_comm, Nat.add_left_comm]
      | none => cases v <;> simp [value?, Nat.add_comm]

@[simp] theorem best?_nil (t : Trie α) : t.best? [] = t.value?.map (0, ·) := rfl

/-- The last value on a path is the last one behind its first step, or else the one at the root. -/
theorem best?_cons (t : Trie α) (bit : Bool) (rest : List Bool) :
    t.best? (bit :: rest) = match (t.child bit).best? rest with
      | some (depth, x) => some (depth + 1, x)
      | none => t.value?.map (0, ·) := by
  cases hchild : t.child bit with
  | leaf =>
    have hnone : (leaf : Trie α).best? rest = none := by cases rest <;> simp [best?, walk]
    rw [hnone, best?, walk, hchild]
  | node v zero one =>
    simp only [best?, walk, hchild]
    rw [walk_eq, walk_eq _ 0 ((node v zero one).value?.map _)]
    cases (node v zero one).walk 0 none rest with
    | some found => rfl
    | none => cases v <;> rfl

theorem size_withChild (t : Trie α) (bit : Bool) (child : Trie α) :
    (t.withChild bit child).size + (t.child bit).size = t.size + child.size := by
  cases t <;> cases bit <;> simp only [withChild, Trie.child, size, Option.toList_none,
    List.length_nil] <;> omega

/-- Storing a value adds one to the size where nothing was stored. -/
theorem size_insert (t : Trie α) (path : List Bool) (x : α) :
    (t.insert path x).size = t.size + if (t.find? path).isSome then 0 else 1 := by
  induction path generalizing t with
  | nil =>
    cases t with
    | leaf => rfl
    | node v zero one =>
      cases v with
      | none =>
        simp [insert_nil, withValue, size, find?, value?]
        omega
      | some y => simp [insert_nil, withValue, size, find?, value?]
  | cons bit rest ih =>
    have hchild := size_withChild t bit ((t.child bit).insert rest x)
    rw [ih] at hchild
    rw [insert_cons, find?]
    omega

/-- A value is counted just where none was given back. -/
theorem size_replace (t : Trie α) (path : List Bool) (x : α) :
    (if (t.replace path x).1.isNone then t.size + 1 else t.size) = (t.replace path x).2.size := by
  rw [replace_eq]
  show _ = (t.insert path x).size
  rw [size_insert]
  cases t.find? path <;> rfl

theorem size_eq_length_entries (t : Trie α) : t.size = t.entries.length := by
  induction t with
  | leaf => rfl
  | node v zero one ihz iho => simp [size, entries, ihz, iho, Nat.add_assoc]

end Trie

/-- The first `length` bits of an address, most significant first. -/
def path {w : Nat} (address : BitVec w) (length : Nat) : List Bool :=
  (List.range (min length w)).map address.getMsbD

/-- A longest-match table for addresses of width `w`, with the number of its values. Lengths beyond
the width count as the width. -/
structure PrefixTree (w : Nat) (α : Type) where
  root : Trie α
  size : Nat
  counted : size = root.size
deriving Repr

namespace PrefixTree

variable {w : Nat} {α : Type}

def empty : PrefixTree w α := ⟨.leaf, 0, rfl⟩

/-- Stores a value for the first bits of an address, and gives back the one stored before. A value
is counted where none was stored. -/
def replace (t : PrefixTree w α) (address : BitVec w) (length : Nat) (x : α) :
    Option α × PrefixTree w α :=
  let replaced := t.root.replace (path address length) x
  (replaced.1, {
    root := replaced.2
    size := if replaced.1.isNone then t.size + 1 else t.size
    counted := by rw [t.counted, t.root.size_replace] })

/-- Stores a value for the first bits of an address. -/
def insert (t : PrefixTree w α) (address : BitVec w) (length : Nat) (x : α) : PrefixTree w α :=
  (t.replace address length x).2

/-- The value stored for exactly the first `length` bits of an address. -/
def find? (t : PrefixTree w α) (address : BitVec w) (length : Nat) : Option α :=
  t.root.find? (path address length)

/-- The value stored for the most first bits of an address, with their number. -/
def best? (t : PrefixTree w α) (address : BitVec w) : Option (Nat × α) :=
  t.root.best? (path address w)

theorem replace_eq (t : PrefixTree w α) (address : BitVec w) (length : Nat) (x : α) :
    t.replace address length x = (t.find? address length, t.insert address length x) := by
  have hfound : (t.replace address length x).1 = t.find? address length :=
    congrArg Prod.fst (t.root.replace_eq _ x)
  exact Prod.ext hfound rfl

theorem size_insert (t : PrefixTree w α) (address : BitVec w) (length : Nat) (x : α) :
    (t.insert address length x).size =
      t.size + if (t.find? address length).isSome then 0 else 1 := by
  rw [(t.insert address length x).counted, t.counted]
  exact t.root.size_insert _ x

/-- The number of a tree is that of all the values in it. -/
theorem size_eq_length_entries (t : PrefixTree w α) : t.size = t.root.entries.length :=
  t.counted.trans t.root.size_eq_length_entries

end PrefixTree

end FloodGuard

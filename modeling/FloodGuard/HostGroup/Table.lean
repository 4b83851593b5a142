import FloodGuard.Network.Text
import FloodGuard.PrefixTree
import Std.Data.ExtTreeMap

/-!
The table of host groups: which group owns which network. Networks are looked up by longest match,
one tree for each family; two indexes list the owner of every network and the networks of every
group. A group that loses its last network is not listed any more, but keeps its parent.
-/
namespace FloodGuard

/-- The most specific network that covers an address, with the group that owns it. -/
structure GroupMatch where
  network : Network
  group : String
  parent : Option String
deriving DecidableEq, Repr

structure GroupTable where
  v4 : PrefixTree 32 String := .empty
  v6 : PrefixTree 128 String := .empty
  owners : Std.ExtTreeMap Network String := ∅
  members : Std.ExtTreeMap String (List Network) := ∅
  parents : Std.ExtTreeMap String String := ∅

namespace GroupTable

/-- The owner of a network, as the trees have it. -/
def stored? (t : GroupTable) : Network → Option String
  | .v4 b => t.v4.find? b.bits b.length
  | .v6 b => t.v6.find? b.bits b.length

/-- The members of the groups after a group lost a network. -/
def withoutMember (members : Std.ExtTreeMap String (List Network)) (group : String)
    (network : Network) : Std.ExtTreeMap String (List Network) :=
  match members[group]? with
  | none => members
  | some networks =>
    match networks.filter (· ≠ network) with
    | [] => members.erase group
    | rest => members.insert group rest

/-- The members of the groups after a group got a network. -/
def withMember (members : Std.ExtTreeMap String (List Network)) (group : String)
    (network : Network) : Std.ExtTreeMap String (List Network) :=
  members.insert group (members.getD group [] ++ [network])

/-- Writes the owner of a network into the tree of its family, and gives back the one before. -/
def store (t : GroupTable) (network : Network) (group : String) : Option String × GroupTable :=
  match network with
  | .v4 b =>
    let replaced := t.v4.replace b.bits b.length group
    (replaced.1, { t with v4 := replaced.2 })
  | .v6 b =>
    let replaced := t.v6.replace b.bits b.length group
    (replaced.1, { t with v6 := replaced.2 })

/-- Gives a network to a group, and gives back the group that it left. -/
def assign (t : GroupTable) (network : Network) (group : String) : Option String × GroupTable :=
  let stored := t.store network group
  let members := match stored.1 with
    | some previous => withoutMember t.members previous network
    | none => t.members
  (stored.1, { stored.2 with
    owners := t.owners.insert network group
    members := withMember members group network })

/-- Gives a network to a group. The network leaves the group that it belonged to. -/
def insert (t : GroupTable) (network : Network) (group : String) : GroupTable :=
  (t.assign network group).2

/-- Gives the network with a text to a group, and gives back the group that it left. A text that is
no network leaves the table alone. -/
def assignText (t : GroupTable) (text group : String) :
    Except NetworkError (Option String) × GroupTable :=
  match Network.parse text with
  | .ok network =>
    let assigned := t.assign network group
    (.ok assigned.1, assigned.2)
  | .error reason => (.error reason, t)

def setParent (t : GroupTable) (group parent : String) : GroupTable :=
  { t with parents := t.parents.insert group parent }

/-- The longest network that holds an address, and its owner. -/
def best? (t : GroupTable) : Address → Option (Nat × String)
  | .v4 a => t.v4.best? a
  | .v6 a => t.v6.best? a

/-- The group of an address, by the longest network that holds it. -/
def lookup (t : GroupTable) (address : Address) : Option GroupMatch := do
  let (length, group) ← t.best? address
  let network ← (Network.around address length).toOption
  some { network, group, parent := t.parents[group]? }

def owner? (t : GroupTable) (network : Network) : Option String := t.owners[network]?

/-- The networks of a group, the one that was given to it last at the end. -/
def networks (t : GroupTable) (group : String) : List Network := t.members.getD group []

/-- The groups that own a network, in alphabetic order. -/
def names (t : GroupTable) : List String := t.members.keys

/-- The number of networks. -/
def size (t : GroupTable) : Nat := t.v4.size + t.v6.size

theorem store_fst (t : GroupTable) (network : Network) (group : String) :
    (t.store network group).1 = t.stored? network := by
  cases network with
  | v4 b => exact congrArg Prod.fst (t.v4.replace_eq b.bits b.length group)
  | v6 b => exact congrArg Prod.fst (t.v6.replace_eq b.bits b.length group)

theorem assign_eq (t : GroupTable) (network : Network) (group : String) :
    t.assign network group = (t.stored? network, t.insert network group) :=
  Prod.ext (t.store_fst network group) rfl

theorem members_insert (t : GroupTable) (network : Network) (group : String) :
    (t.insert network group).members =
      withMember (match t.stored? network with
        | some previous => withoutMember t.members previous network
        | none => t.members) group network := by
  rw [← t.store_fst network group]
  rfl

theorem owners_insert (t : GroupTable) (network : Network) (group : String) :
    (t.insert network group).owners = t.owners.insert network group := rfl

@[simp] theorem parents_insert (t : GroupTable) (network : Network) (group : String) :
    (t.insert network group).parents = t.parents := by
  cases network <;> rfl

end GroupTable

end FloodGuard

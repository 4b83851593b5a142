import FloodGuard.Proofs.Listings
import FloodGuard.Proofs.PrefixMap
import Mathlib.Data.List.Dedup
import Mathlib.Data.Set.Card

/-!
The parts of a table of host groups agree. A table is made by giving networks to groups, one after
the other; a text that is no network gives nothing. After any such changes the trees and the index
of owners have the group that every network was given to last, the index of groups lists under each
group the networks that it owns, the one that was given last at the end, and an address is looked up
at the longest network with an owner that holds it.
-/
namespace FloodGuard

/-- What is done with a table of host groups. -/
inductive TableChange where
  | assign (network : Network) (group : String)
  | assignText (text group : String)
  | setParent (group parent : String)

namespace TableChange

/-- The networks that a change gives to a group, each with the group. -/
def assignments : TableChange → List (Network × String)
  | .assign network group => [(network, group)]
  | .assignText text group => validNetworks [text] group
  | .setParent _ _ => []

/-- The groups that a change gives a parent, each with the parent. -/
def parentings : TableChange → List (String × String)
  | .assign _ _ => []
  | .assignText _ _ => []
  | .setParent group parent => [(group, parent)]

end TableChange

namespace Network

variable {P : Network → Prop}

theorem forall_contains_v4 (bits : BitVec 32) :
    (∀ n : Network, n.contains (.v4 bits) → P n) ↔
      ∀ b : Block 32, b.contains bits → P (.v4 b) := by
  constructor
  · intro h b hb
    exact h (.v4 b) hb
  · intro h n hn
    cases n with
    | v4 b => exact h b hn
    | v6 b => simp [contains] at hn

theorem forall_contains_v6 (bits : BitVec 128) :
    (∀ n : Network, n.contains (.v6 bits) → P n) ↔
      ∀ b : Block 128, b.contains bits → P (.v6 b) := by
  constructor
  · intro h b hb
    exact h (.v6 b) hb
  · intro h n hn
    cases n with
    | v4 b => simp [contains] at hn
    | v6 b => exact h b hn

theorem exists_contains_v4 (bits : BitVec 32) :
    (∃ n : Network, n.contains (.v4 bits) ∧ P n) ↔
      ∃ b : Block 32, b.contains bits ∧ P (.v4 b) := by
  have hnone := forall_contains_v4 (P := fun n => ¬ P n) bits
  rw [← not_iff_not]
  simpa only [not_exists, not_and] using hnone

theorem exists_contains_v6 (bits : BitVec 128) :
    (∃ n : Network, n.contains (.v6 bits) ∧ P n) ↔
      ∃ b : Block 128, b.contains bits ∧ P (.v6 b) := by
  have hnone := forall_contains_v6 (P := fun n => ¬ P n) bits
  rw [← not_iff_not]
  simpa only [not_exists, not_and] using hnone

end Network

/-- Only the last occurrence of an element is kept. -/
theorem dedup_concat {α : Type} [DecidableEq α] (l : List α) (a : α) :
    (l ++ [a]).dedup = l.dedup.filter (· ≠ a) ++ [a] := by
  induction l with
  | nil => simp
  | cons b rest ih =>
    rw [List.cons_append]
    by_cases hrest : b ∈ rest
    · rw [List.dedup_cons_of_mem (List.mem_append_left _ hrest), List.dedup_cons_of_mem hrest, ih]
    · rw [List.dedup_cons_of_notMem hrest]
      by_cases heq : b = a
      · subst heq
        rw [List.dedup_cons_of_mem (by simp), ih]
        simp
      · rw [List.dedup_cons_of_notMem (by simp [hrest, heq]), ih]
        simp [heq]

/-- The networks that a group was given last, in the order in which they were given. -/
def networksOf (given : List (Network × String)) (group : String) : List Network :=
  (given.map Prod.fst).dedup.filter fun n => latest given n = some group

theorem mem_networksOf_iff (given : List (Network × String)) (group : String) (n : Network) :
    n ∈ networksOf given group ↔ latest given n = some group := by
  rw [networksOf, List.mem_filter, List.mem_dedup, decide_eq_true_eq, ← latest_isSome_iff]
  constructor
  · intro h
    exact h.2
  · intro h
    exact ⟨by rw [h]; rfl, h⟩

theorem filter_networksOf {given : List (Network × String)} {n : Network} {group : String}
    (h : latest given n ≠ some group) :
    (networksOf given group).filter (· ≠ n) = networksOf given group := by
  rw [List.filter_eq_self]
  intro m hm
  rw [mem_networksOf_iff] at hm
  have hne : m ≠ n := by
    intro heq
    exact h (heq ▸ hm)
  exact decide_eq_true hne

theorem networksOf_concat (given : List (Network × String)) (n : Network) (group other : String) :
    networksOf (given ++ [(n, group)]) other =
      (networksOf given other).filter (· ≠ n) ++ if group = other then [n] else [] := by
  have hkept : (given.map Prod.fst).dedup.filter (fun m =>
      decide (latest (given ++ [(n, group)]) m = some other) && decide (m ≠ n)) =
        (networksOf given other).filter (· ≠ n) := by
    rw [networksOf, List.filter_filter]
    apply List.filter_congr
    intro m _
    rw [latest_concat]
    by_cases hm : m = n
    · simp [hm]
    · simp [hm, Ne.symm hm]
  rw [networksOf, List.map_append, List.map_singleton, dedup_concat, List.filter_append,
    List.filter_filter, hkept]
  simp [latest_concat, List.filter_cons]

namespace GroupTable

def apply (t : GroupTable) : TableChange → GroupTable
  | .assign network group => (t.assign network group).2
  | .assignText text group => (t.assignText text group).2
  | .setParent group parent => t.setParent group parent

/-- An empty table after some changes. -/
def after (changes : List TableChange) : GroupTable := changes.foldl apply {}

/-- Whether the parts of a table agree on what it was given. -/
structure Holds (t : GroupTable) (given : List (Network × String)) : Prop where
  stored : ∀ n, t.stored? n = latest given n
  owners : ∀ n, t.owner? n = latest given n
  networks : ∀ group, t.networks group = networksOf given group
  /-- Only groups that own a network are listed. -/
  listed : ∀ group : String, t.members[group]? ≠ some []
  size : t.size = (given.map Prod.fst).toFinset.card

theorem getD_withoutMember (members : Std.ExtTreeMap String (List Network))
    (group other : String) (n : Network) :
    (withoutMember members group n).getD other [] =
      if group = other then (members.getD other []).filter (· ≠ n) else members.getD other [] := by
  by_cases heq : group = other
  · subst heq
    rw [if_pos rfl, Std.ExtTreeMap.getD_eq_getD_getElem?, Std.ExtTreeMap.getD_eq_getD_getElem?]
    unfold withoutMember
    cases h : members[group]? with
    | none => simp [h]
    | some networks =>
      simp only [Option.getD_some]
      cases hrest : networks.filter (· ≠ n) with
      | nil => simp
      | cons m rest => simp
  · rw [if_neg heq, Std.ExtTreeMap.getD_eq_getD_getElem?, Std.ExtTreeMap.getD_eq_getD_getElem?]
    unfold withoutMember
    split
    · rfl
    · split
      · simp [Std.ExtTreeMap.getElem?_erase, heq]
      · simp [Std.ExtTreeMap.getElem?_insert, heq]

theorem withoutMember_listed {members : Std.ExtTreeMap String (List Network)}
    (h : ∀ group : String, members[group]? ≠ some []) (group : String) (n : Network)
    (other : String) :
    (withoutMember members group n)[other]? ≠ some [] := by
  unfold withoutMember
  split
  · exact h other
  · split
    · rw [Std.ExtTreeMap.getElem?_erase]
      split
      · simp
      · exact h other
    · rename_i networks _ hne
      rw [Std.ExtTreeMap.getElem?_insert]
      split
      · intro heq
        exact hne (Option.some.inj heq)
      · exact h other

theorem getD_withMember (members : Std.ExtTreeMap String (List Network)) (group other : String)
    (n : Network) :
    (withMember members group n).getD other [] =
      members.getD other [] ++ if group = other then [n] else [] := by
  by_cases heq : group = other
  · subst heq
    simp [withMember]
  · simp [withMember, Std.ExtTreeMap.getD_insert, heq]

theorem networks_insert_of_free {t : GroupTable} {n : Network} (h : t.stored? n = none)
    (group other : String) :
    (t.insert n group).networks other =
      t.networks other ++ if group = other then [n] else [] := by
  simp only [networks, members_insert, h, getD_withMember]

theorem networks_insert_of_owned {t : GroupTable} {n : Network} {previous : String}
    (h : t.stored? n = some previous) (group other : String) :
    (t.insert n group).networks other =
      (if previous = other then (t.networks other).filter (· ≠ n) else t.networks other) ++
        if group = other then [n] else [] := by
  simp only [networks, members_insert, h, getD_withMember, getD_withoutMember]

theorem size_insert (t : GroupTable) (n : Network) (group : String) :
    (t.insert n group).size = t.size + if (t.stored? n).isSome then 0 else 1 := by
  cases n with
  | v4 b =>
    show (t.v4.insert b.bits b.length group).size + t.v6.size = _
    rw [t.v4.size_insert]
    exact Nat.add_right_comm _ _ _
  | v6 b =>
    show t.v4.size + (t.v6.insert b.bits b.length group).size = _
    rw [t.v6.size_insert]
    exact (Nat.add_assoc _ _ _).symm

namespace Holds

variable {t : GroupTable} {given : List (Network × String)}

/-- A network stays in the list of no group but the one that it is given to. -/
theorem networks_insert (h : t.Holds given) (n : Network) (group other : String) :
    (t.insert n group).networks other = networksOf (given ++ [(n, group)]) other := by
  rw [networksOf_concat]
  cases hstored : t.stored? n with
  | none =>
    have hnot : latest given n ≠ some other := by
      rw [← h.stored, hstored]
      simp
    rw [networks_insert_of_free hstored, h.networks, filter_networksOf hnot]
  | some previous =>
    rw [networks_insert_of_owned hstored, h.networks]
    split
    · rfl
    · rename_i hne
      have hnot : latest given n ≠ some other := by
        rw [← h.stored, hstored]
        simpa using hne
      rw [filter_networksOf hnot]

theorem insert (h : t.Holds given) (n : Network) (group : String) :
    (t.insert n group).Holds (given ++ [(n, group)]) where
  stored m := by rw [stored?_insert, latest_concat, h.stored]
  owners m := by
    have howner : (t.insert n group).owner? m = if n = m then some group else t.owner? m := by
      simp [owner?, owners_insert, Std.ExtTreeMap.getElem?_insert]
    rw [howner, latest_concat, h.owners]
  networks other := h.networks_insert n group other
  listed other := by
    rw [members_insert, withMember, Std.ExtTreeMap.getElem?_insert]
    split
    · simp
    · split
      · exact withoutMember_listed h.listed _ n other
      · exact h.listed other
  size := by rw [size_insert, card_keys_concat, h.size, h.stored]

theorem empty : ({} : GroupTable).Holds [] where
  stored := stored?_empty
  owners _ := Std.ExtTreeMap.getElem?_empty
  networks _ := Std.ExtTreeMap.getD_empty
  listed _ := by
    rw [Std.ExtTreeMap.getElem?_empty]
    simp
  size := rfl

/-- Every change keeps the parts in agreement. -/
theorem apply (h : t.Holds given) (change : TableChange) :
    (t.apply change).Holds (given ++ change.assignments) := by
  cases change with
  | assign n group =>
    rw [GroupTable.apply, assign_eq]
    exact h.insert n group
  | assignText text group =>
    cases hparse : Network.parse text with
    | ok n =>
      have hassigned : (t.assignText text group).2 = t.insert n group := by
        simp only [assignText, hparse, assign_eq]
      have hgiven : validNetworks [text] group = [(n, group)] := by
        simp [validNetworks, hparse, Except.toOption]
      rw [GroupTable.apply, hassigned, TableChange.assignments, hgiven]
      exact h.insert n group
    | error reason =>
      have hassigned : (t.assignText text group).2 = t := by
        simp only [assignText, hparse]
      have hgiven : validNetworks [text] group = [] := by
        simp [validNetworks, hparse, Except.toOption]
      rw [GroupTable.apply, hassigned, TableChange.assignments, hgiven, List.append_nil]
      exact h
  | setParent group parent =>
    rw [TableChange.assignments, List.append_nil]
    exact ⟨h.stored, h.owners, h.networks, h.listed, h.size⟩

end Holds

theorem after_concat (changes : List TableChange) (change : TableChange) :
    after (changes ++ [change]) = (after changes).apply change := by
  rw [after, List.foldl_append]
  rfl

theorem holds_after (changes : List TableChange) :
    (after changes).Holds (changes.flatMap TableChange.assignments) := by
  induction changes using List.reverseRecOn with
  | nil => exact Holds.empty
  | append_singleton changes change ih =>
    rw [after_concat, List.flatMap_append, List.flatMap_singleton]
    exact ih.apply change

theorem parents_apply (t : GroupTable) (change : TableChange) (group : String) :
    (t.apply change).parents[group]? =
      (latest change.parentings group).or t.parents[group]? := by
  cases change with
  | assign n other =>
    rw [apply, assign_eq, parents_insert]
    rfl
  | assignText text other =>
    rw [apply, assignText]
    cases Network.parse text with
    | ok n =>
      simp only [assign_eq, parents_insert]
      rfl
    | error reason => rfl
  | setParent other parent =>
    simp only [apply, setParent, TableChange.parentings, latest_cons, latest_nil, Option.none_or,
      Std.ExtTreeMap.getElem?_insert, Std.compare_eq_iff_eq]
    split <;> rfl

theorem parents_after (changes : List TableChange) (group : String) :
    (after changes).parents[group]? =
      latest (changes.flatMap TableChange.parentings) group := by
  induction changes using List.reverseRecOn with
  | nil => exact Std.ExtTreeMap.getElem?_empty
  | append_singleton changes change ih =>
    rw [after_concat, parents_apply, ih, List.flatMap_append, List.flatMap_singleton,
      latest_append]

/-- There is a best match of some length just if a longest stored network that holds the address
has that length. -/
theorem best?_eq_some_iff (t : GroupTable) (a : Address) (length : Nat) (group : String) :
    t.best? a = some (length, group) ↔
      ∃ n : Network, n.contains a ∧ n.length = length ∧ t.stored? n = some group ∧
        ∀ m : Network, m.contains a → (t.stored? m).isSome → m.length ≤ length := by
  cases a with
  | v4 bits =>
    simp only [Network.exists_contains_v4, Network.forall_contains_v4]
    exact PrefixTree.best?_eq_some_iff t.v4 bits length group
  | v6 bits =>
    simp only [Network.exists_contains_v6, Network.forall_contains_v6]
    exact PrefixTree.best?_eq_some_iff t.v6 bits length group

theorem best?_eq_none_iff (t : GroupTable) (a : Address) :
    t.best? a = none ↔ ∀ n : Network, n.contains a → t.stored? n = none := by
  cases a with
  | v4 bits =>
    rw [Network.forall_contains_v4]
    exact PrefixTree.best?_eq_none_iff t.v4 bits
  | v6 bits =>
    rw [Network.forall_contains_v6]
    exact PrefixTree.best?_eq_none_iff t.v6 bits

theorem lookup_of_best? {t : GroupTable} {a : Address} {n : Network} {group : String}
    (h : t.best? a = some (n.length, group)) (hn : n.contains a) :
    t.lookup a = some ⟨n, group, t.parents[group]?⟩ := by
  simp [lookup, h, Network.around_of_contains hn, Except.toOption]

/-- There is no match just if no stored network holds the address. -/
theorem lookup_eq_none_iff (t : GroupTable) (a : Address) :
    t.lookup a = none ↔ ∀ n : Network, n.contains a → t.stored? n = none := by
  rw [← best?_eq_none_iff]
  cases hbest : t.best? a with
  | none => simp [lookup, hbest]
  | some best =>
    obtain ⟨length, group⟩ := best
    obtain ⟨n, hn, rfl, -⟩ := (best?_eq_some_iff t a length group).1 hbest
    simp [lookup_of_best? hbest hn]

/-- The match is the longest stored network that holds the address, with its owner and the parent
of the owner. -/
theorem lookup_eq_some_iff (t : GroupTable) (a : Address) (found : GroupMatch) :
    t.lookup a = some found ↔
      found.network.contains a ∧ t.stored? found.network = some found.group ∧
        (∀ m : Network, m.contains a → (t.stored? m).isSome →
          m.length ≤ found.network.length) ∧
        found.parent = t.parents[found.group]? := by
  constructor
  · intro h
    cases hbest : t.best? a with
    | none => simp [lookup, hbest] at h
    | some best =>
      obtain ⟨length, group⟩ := best
      obtain ⟨n, hn, rfl, hstored, hlongest⟩ := (best?_eq_some_iff t a length group).1 hbest
      rw [lookup_of_best? hbest hn, Option.some.injEq] at h
      subst h
      exact ⟨hn, hstored, hlongest, rfl⟩
  · intro h
    obtain ⟨hcontains, hstored, hlongest, hparent⟩ := h
    have hbest : t.best? a = some (found.network.length, found.group) :=
      (best?_eq_some_iff t a _ _).2 ⟨found.network, hcontains, rfl, hstored, hlongest⟩
    rw [lookup_of_best? hbest hcontains, ← hparent]

/-- The groups that own a network are listed, each once. -/
theorem Holds.mem_names_iff {t : GroupTable} {given : List (Network × String)} (h : t.Holds given)
    (group : String) : group ∈ t.names ↔ ∃ n, latest given n = some group := by
  have hempty : group ∈ t.names ↔ t.networks group ≠ [] := by
    rw [names, GroupTable.networks, Std.ExtTreeMap.mem_keys,
      Std.ExtTreeMap.mem_iff_isSome_getElem?, Std.ExtTreeMap.getD_eq_getD_getElem?]
    have hlisted := h.listed group
    cases hmembers : t.members[group]? with
    | none => simp
    | some networks =>
      rw [hmembers] at hlisted
      simpa using hlisted
  rw [hempty, h.networks]
  simp only [← mem_networksOf_iff, ne_eq, List.eq_nil_iff_forall_not_mem, not_forall, not_not]

/-- The size counts the networks that have an owner. -/
theorem Holds.size_eq_ncard {t : GroupTable} {given : List (Network × String)}
    (h : t.Holds given) : t.size = {n | (t.owner? n).isSome}.ncard := by
  have howned : {n | (t.owner? n).isSome} = ↑(given.map Prod.fst).toFinset := by
    ext n
    simp [h.owners, latest_isSome_iff]
  rw [howned, Set.ncard_coe_finset, h.size]

/-- After any changes the trees and the index of owners have the group that each network was given
to last. Each group lists the networks that it owns, each once, in the order in which they were
given last, and the groups that own one are listed, each once. The size is the number of networks
with an owner. Giving away a network gives back its owner, and a text that is no network changes
nothing. An address is looked up at the longest network with an owner that holds it, if any. -/
theorem parts_agree (changes : List TableChange) :
    let t := after changes
    let given := changes.flatMap TableChange.assignments
    (∀ n, t.stored? n = t.owner? n ∧ t.owner? n = latest given n) ∧
      (∀ group, (∀ n, n ∈ t.networks group ↔ t.owner? n = some group) ∧
        (t.networks group).Nodup ∧
        t.networks group =
          (given.map Prod.fst).dedup.filter fun n => t.owner? n = some group) ∧
      ((∀ group, group ∈ t.names ↔ ∃ n, t.owner? n = some group) ∧ t.names.Nodup) ∧
      t.size = {n | (t.owner? n).isSome}.ncard ∧
      (∀ n group, (t.assign n group).1 = t.owner? n) ∧
      (∀ text group, match Network.parse text with
        | .ok n => t.assignText text group = (.ok (t.owner? n), (t.assign n group).2)
        | .error reason => t.assignText text group = (.error reason, t)) ∧
      (∀ a, t.lookup a = none ↔ ∀ n : Network, n.contains a → t.owner? n = none) ∧
      ∀ a found, t.lookup a = some found ↔
        found.network.contains a ∧ t.owner? found.network = some found.group ∧
          (∀ m : Network, m.contains a → (t.owner? m).isSome →
            m.length ≤ found.network.length) ∧
          found.parent = latest (changes.flatMap TableChange.parentings) found.group := by
  intro t given
  have h : t.Holds given := holds_after changes
  have hstored : ∀ n, t.stored? n = t.owner? n := fun n => (h.stored n).trans (h.owners n).symm
  refine ⟨?_, ?_, ?_, h.size_eq_ncard, ?_, ?_, ?_, ?_⟩
  · intro n
    exact ⟨hstored n, h.owners n⟩
  · intro group
    have hnetworks : t.networks group =
        (given.map Prod.fst).dedup.filter fun n => t.owner? n = some group := by
      simp only [h.owners]
      exact h.networks group
    refine ⟨?_, ?_, hnetworks⟩
    · intro n
      rw [h.networks, mem_networksOf_iff, h.owners]
    · rw [hnetworks]
      exact (List.nodup_dedup _).filter _
  · refine ⟨?_, Std.ExtTreeMap.nodup_keys⟩
    intro group
    simp only [h.mem_names_iff, h.owners]
  · intro n group
    rw [assign_eq, hstored]
  · intro text group
    unfold assignText
    cases Network.parse text with
    | ok n => simp only [assign_eq, hstored]
    | error reason => rfl
  · intro a
    simp only [lookup_eq_none_iff, hstored]
  · intro a found
    simp only [lookup_eq_some_iff, hstored, t, parents_after]

end GroupTable

end FloodGuard

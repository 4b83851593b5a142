import FloodGuard.HostGroup.Load
import FloodGuard.Proofs.Latest
import FloodGuard.Proofs.LongestMatch

/-!
What a configuration says about an address, read off its lists alone. The owner of an address is the
group that lists, as the last one, the longest network that holds the address; the parent, the
settings and the policy of a group are those of its last entry that has one. Loading a configuration
makes tables that answer the same.
-/
namespace FloodGuard

/-- The networks among some texts, each with the group that they are listed for. -/
def validNetworks (texts : List String) (group : String) : List (Network × String) :=
  texts.filterMap fun text => (Network.parse text).toOption.map (·, group)

namespace Config

/-- All networks of a configuration in its order, those outside any group in front, each with the
group that lists it. -/
def listings (c : Config) : List (Network × String) :=
  validNetworks c.networks globalGroup ++
    c.groups.flatMap fun group => validNetworks group.networks group.name

/-- The networks of a configuration that hold an address. -/
def covering (c : Config) (a : Address) : List (Network × String) :=
  c.listings.filter fun entry => entry.1.contains a

/-- The longest network of a configuration that holds an address, with the group that lists it
last. -/
def owner? (c : Config) (a : Address) : Option (Network × String) :=
  ((c.covering a).filter fun entry =>
    (c.covering a).all fun other => decide (other.1.length ≤ entry.1.length)).getLast?

/-- What the groups of a configuration have of some part, in the order of the configuration. -/
def parts {α : Type} (c : Config) (part : GroupConfig → Option α) : List (String × α) :=
  c.groups.filterMap fun group => (part group).map (group.name, ·)

def parentOf (c : Config) (group : String) : Option String :=
  latest (c.parts GroupConfig.parent) group

def settingsOf (c : Config) (group : String) : Settings :=
  (latest (c.parts GroupConfig.settings) group).getD c.settings

def policyOf (c : Config) (group : String) : BanPolicy :=
  (latest (c.parts GroupConfig.policy) group).getD c.detection.policy

theorem owner?_eq_none {c : Config} {a : Address}
    (h : ∀ n : Network, n.contains a → latest c.listings n = none) : c.owner? a = none := by
  have hcovering : c.covering a = [] := by
    rw [covering, List.filter_eq_nil_iff]
    intro entry hentry hcontains
    exact (latest_eq_none_iff _ _).1 (h entry.1 hcontains) entry hentry rfl
  rw [owner?, hcovering]
  rfl

theorem owner?_eq_some {c : Config} {a : Address} {n : Network} {group : String}
    (hcontains : n.contains a) (hlatest : latest c.listings n = some group)
    (hlonger : ∀ m : Network, m.contains a → n.length < m.length →
      latest c.listings m = none) :
    c.owner? a = some (n, group) := by
  have hlast := getLast?_filter_of_latest hlatest
  have hlisted : (n, group) ∈ c.listings :=
    (List.mem_filter.1 (List.mem_of_getLast? hlast)).1
  have hbound : ∀ entry ∈ c.listings, entry.1.contains a → entry.1.length ≤ n.length := by
    intro entry hentry hc
    rcases Nat.lt_or_ge n.length entry.1.length with hlt | hle
    · have hnone := hlonger entry.1 hc hlt
      exact absurd rfl ((latest_eq_none_iff _ _).1 hnone entry hentry)
    · exact hle
  rw [owner?, ← hlast, covering, List.filter_filter]
  congr 1
  apply List.filter_congr
  intro entry hentry
  rw [Bool.eq_iff_iff]
  simp only [Bool.and_eq_true, List.all_eq_true, List.mem_filter, decide_eq_true_eq, and_imp]
  -- A longest network that holds the address is the given one, since there is one for each length.
  constructor
  · intro hlongest
    obtain ⟨hlongest, hc⟩ := hlongest
    have hge : n.length ≤ entry.1.length := hlongest (n, group) hlisted hcontains
    have hle := hbound entry hentry hc
    exact Network.eq_of_contains hc hcontains (by omega)
  · intro heq
    rw [heq]
    exact ⟨fun other hother hc => hbound other hother hc, hcontains⟩

end Config

namespace GroupTable

theorem addNetwork_table (group : String) (l : Loading) (text : String) :
    (l.addNetwork group text).table =
      match (Network.parse text).toOption with
      | some n => l.table.insert n group
      | none => l.table := by
  unfold Loading.addNetwork assignText
  cases Network.parse text <;> rfl

theorem stored?_addNetwork (group : String) (l : Loading) (text : String) (n : Network) :
    (l.addNetwork group text).table.stored? n =
      (latest (validNetworks [text] group) n).or (l.table.stored? n) := by
  rw [addNetwork_table]
  cases hparse : (Network.parse text).toOption with
  | none => simp [validNetworks, hparse, latest_nil]
  | some m =>
    simp only [validNetworks, List.filterMap_cons, hparse, Option.map_some, List.filterMap_nil,
      latest_cons, latest_nil, Option.none_or, stored?_insert]
    split <;> rfl

theorem stored?_foldl_addNetwork (group : String) (texts : List String) (l : Loading)
    (n : Network) :
    (texts.foldl (Loading.addNetwork group) l).table.stored? n =
      (latest (validNetworks texts group) n).or (l.table.stored? n) := by
  induction texts generalizing l with
  | nil => rfl
  | cons text rest ih =>
    have hsplit : validNetworks (text :: rest) group =
        validNetworks [text] group ++ validNetworks rest group :=
      List.filterMap_append (l := [text])
    rw [List.foldl_cons, ih, stored?_addNetwork, hsplit, latest_append, Option.or_assoc]

theorem stored?_addGroup (l : Loading) (group : GroupConfig) (n : Network) :
    (l.addGroup group).table.stored? n =
      (latest (validNetworks group.networks group.name) n).or (l.table.stored? n) := by
  unfold Loading.addGroup
  rw [stored?_foldl_addNetwork]
  cases group.parent <;> rfl

/-- The owner of a network in the trees is the group that listed it last. -/
theorem stored?_foldl_addGroup (groups : List GroupConfig) (l : Loading) (n : Network) :
    (groups.foldl Loading.addGroup l).table.stored? n =
      (latest (groups.flatMap fun group => validNetworks group.networks group.name) n).or
        (l.table.stored? n) := by
  induction groups generalizing l with
  | nil => rfl
  | cons group rest ih =>
    rw [List.foldl_cons, ih, stored?_addGroup, List.flatMap_cons, latest_append, Option.or_assoc]

theorem stored?_empty (n : Network) : ({} : GroupTable).stored? n = none := by
  cases n <;> exact Trie.find?_leaf _

theorem stored?_load (c : Config) (n : Network) :
    (load (c.allGroups globalGroup)).1.stored? n = latest c.listings n := by
  have hloaded := stored?_foldl_addGroup (c.allGroups globalGroup) {} n
  rw [stored?_empty, Option.or_none] at hloaded
  refine hloaded.trans (congrArg (latest · n) ?_)
  unfold Config.allGroups Config.listings
  split
  · rename_i hempty
    rw [List.isEmpty_iff.1 hempty]
    rfl
  · rfl

theorem parents_foldl_addNetwork (group : String) (texts : List String) (l : Loading) :
    (texts.foldl (Loading.addNetwork group) l).table.parents = l.table.parents := by
  induction texts generalizing l with
  | nil => rfl
  | cons text rest ih =>
    rw [List.foldl_cons, ih, addNetwork_table]
    cases (Network.parse text).toOption with
    | none => rfl
    | some n => exact parents_insert l.table n group

theorem parents_foldl_addGroup (groups : List GroupConfig) (l : Loading) (name : String) :
    (groups.foldl Loading.addGroup l).table.parents[name]? =
      (latest (groups.filterMap fun group => group.parent.map (group.name, ·)) name).or
        l.table.parents[name]? := by
  induction groups generalizing l with
  | nil => rfl
  | cons group rest ih =>
    rw [List.foldl_cons, ih, Loading.addGroup, parents_foldl_addNetwork, List.filterMap_cons]
    cases group.parent with
    | none => rfl
    | some parent =>
      simp only [Option.map_some, latest_cons, Option.or_assoc]
      congr 1
      simp only [setParent, Std.ExtTreeMap.getElem?_insert, Std.compare_eq_iff_eq]
      split <;> rfl

theorem parents_load (c : Config) (name : String) :
    (load (c.allGroups globalGroup)).1.parents[name]? = c.parentOf name := by
  have hloaded := parents_foldl_addGroup (c.allGroups globalGroup) {} name
  have hempty : ({} : Loading).table.parents[name]? = none := Std.ExtTreeMap.getElem?_empty
  rw [hempty, Option.or_none] at hloaded
  refine hloaded.trans (congrArg (latest · name) ?_)
  unfold Config.allGroups Config.parts
  split <;> rfl

/-- The loaded table finds the owner of an address as the configuration has it. -/
theorem lookup_load (c : Config) (a : Address) :
    (load (c.allGroups globalGroup)).1.lookup a =
      (c.owner? a).map fun owner =>
        { network := owner.1, group := owner.2, parent := c.parentOf owner.2 } := by
  cases hbest : (load (c.allGroups globalGroup)).1.best? a with
  | none =>
    have howner : c.owner? a = none := by
      apply Config.owner?_eq_none
      intro n hn
      rw [← stored?_load]
      exact stored?_of_best?_eq_none hbest hn
    rw [howner, lookup, hbest]
    rfl
  | some found =>
    obtain ⟨length, group⟩ := found
    obtain ⟨n, hn, rfl, hstored, hlonger⟩ := stored?_of_best?_eq_some hbest
    have howner : c.owner? a = some (n, group) := by
      apply Config.owner?_eq_some hn
      · rw [← stored?_load]
        exact hstored
      · intro m hm hlt
        rw [← stored?_load]
        exact hlonger m hm hlt
    have hparent := parents_load c group
    rw [howner, lookup, hbest]
    simp only [Option.bind_eq_bind, Option.bind_some, Network.around_of_contains hn, hparent,
      Except.toOption, Option.map_some]

end GroupTable

namespace Policies

/-- What the last configured group of a name has, of the groups that have it. -/
def lastOf {α : Type} (groups : List GroupConfig) (name : String)
    (part : GroupConfig → Option α) : Option α :=
  groups.reverse.findSome? fun group => if group.name = name then part group else none

theorem lastOf_cons {α : Type} (group : GroupConfig) (rest : List GroupConfig) (name : String)
    (part : GroupConfig → Option α) :
    lastOf (group :: rest) name part =
      (lastOf rest name part).or (if group.name = name then part group else none) := by
  rw [lastOf, List.reverse_cons, List.findSome?_append, List.findSome?_singleton]
  rfl

theorem lastOf_eq (groups : List GroupConfig) (name : String) {α : Type}
    (part : GroupConfig → Option α) :
    lastOf groups name part =
      latest (groups.filterMap fun group => (part group).map (group.name, ·)) name := by
  induction groups with
  | nil => rfl
  | cons group rest ih =>
    rw [lastOf_cons, ih, List.filterMap_cons]
    cases hpart : part group with
    | none => simp
    | some x => simp [latest_cons]

/-- The map of what the groups have of their own has for a name what the last group of this name has
of those that have it. -/
theorem getElem?_foldl_own {α : Type} (part : GroupConfig → Option α) (groups : List GroupConfig)
    (parts : Std.ExtTreeMap String α) (name : String) :
    (groups.foldl (fun parts group => own parts group.name (part group)) parts)[name]? =
      (lastOf groups name part).or parts[name]? := by
  induction groups generalizing parts with
  | nil => rfl
  | cons group rest ih =>
    rw [List.foldl_cons, ih, lastOf_cons, Option.or_assoc]
    cases part group with
    | none => simp [own]
    | some x =>
      simp only [own, Std.ExtTreeMap.getElem?_insert, Std.compare_eq_iff_eq]
      split <;> rfl

theorem foldl_addGroup (groups : List GroupConfig) (p : Policies) :
    groups.foldl addGroup p =
      { p with
        groupSettings :=
          groups.foldl (fun parts group => own parts group.name group.settings) p.groupSettings
        groupPolicies :=
          groups.foldl (fun parts group => own parts group.name group.policy)
            p.groupPolicies } := by
  induction groups generalizing p with
  | nil => rfl
  | cons group rest ih => exact ih (p.addGroup group)

theorem groupSettings_ofConfig (c : Config) (name : String) :
    (ofConfig c).groupSettings[name]? = lastOf c.groups name GroupConfig.settings := by
  rw [ofConfig, foldl_addGroup]
  exact (getElem?_foldl_own _ _ _ name).trans (Option.or_none)

theorem groupPolicies_ofConfig (c : Config) (name : String) :
    (ofConfig c).groupPolicies[name]? = lastOf c.groups name GroupConfig.policy := by
  rw [ofConfig, foldl_addGroup]
  exact (getElem?_foldl_own _ _ _ name).trans (Option.or_none)

theorem settingsFor_ofConfig (c : Config) (group : String) :
    (ofConfig c).settingsFor group = c.settingsOf group := by
  rw [settingsFor, groupSettings_ofConfig, lastOf_eq, ofConfig, foldl_addGroup]
  rfl

theorem policyFor_ofConfig (c : Config) (group : String) :
    (ofConfig c).policyFor group = c.policyOf group := by
  rw [policyFor, groupPolicies_ofConfig, lastOf_eq, ofConfig, foldl_addGroup]
  rfl

end Policies

end FloodGuard

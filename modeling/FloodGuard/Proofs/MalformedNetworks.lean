import FloodGuard.Proofs.NetworkText
import FloodGuard.Proofs.TableCoherence

/-!
Loading host groups with malformed networks among theirs. A text that is no network is skipped where
it stands, so the table is the one of the groups without such texts, and the report lists just these
texts in the order of the configuration, each with the reason. A network belongs to the group that
lists it last, in whatever spelling, and a group has the parent of its last entry that names one.
-/
namespace FloodGuard

namespace Network

/-- Whether a text is a network. -/
def isText (text : String) : Bool := (parse text).toOption.isSome

/-- Whether a text is a spelling of a network: any address of the network, with the length of the
network and with blanks around. -/
def SpelledBy (n : Network) (spelling : String) : Prop :=
  ∃ before a after, (∀ c ∈ before.toList, Text.isBlank c = true) ∧
    (∀ c ∈ after.toList, Text.isBlank c = true) ∧ n.contains a ∧
    spelling = before ++ (a.text ++ "/" ++ n.length.repr) ++ after

theorem SpelledBy.parse_eq {n : Network} {spelling : String} (h : n.SpelledBy spelling) :
    parse spelling = .ok n := by
  obtain ⟨before, a, after, hbefore, hafter, hcontains, rfl⟩ := h
  rw [parse_slash hbefore hafter a n.length_le_largest, around_of_contains hcontains]

theorem isText_of_ok {text : String} {n : Network} (h : parse text = .ok n) :
    isText text = true := by
  rw [isText, h]
  rfl

theorem isText_of_error {text : String} {reason : NetworkError} (h : parse text = .error reason) :
    isText text = false := by
  rw [isText, h]
  rfl

end Network

/-- The malformed ones among some texts of networks, each with the reason. -/
def malformed (texts : List String) : List (String × NetworkError) :=
  texts.filterMap fun text =>
    match Network.parse text with
    | .ok _ => none
    | .error reason => some (text, reason)

theorem malformed_cons_of_ok {text : String} {n : Network} (h : Network.parse text = .ok n)
    (rest : List String) : malformed (text :: rest) = malformed rest := by
  simp only [malformed, List.filterMap_cons, h]

theorem malformed_cons_of_error {text : String} {reason : NetworkError}
    (h : Network.parse text = .error reason) (rest : List String) :
    malformed (text :: rest) = (text, reason) :: malformed rest := by
  simp only [malformed, List.filterMap_cons, h]

theorem malformed_filter (texts : List String) : malformed (texts.filter Network.isText) = [] := by
  rw [malformed, List.filterMap_eq_nil_iff]
  intro text htext
  have hvalid := (List.mem_filter.1 htext).2
  cases hparse : Network.parse text with
  | ok n => rfl
  | error reason => simp [Network.isText_of_error hparse] at hvalid

namespace GroupConfig

/-- The group without its malformed networks. -/
def wellFormed (g : GroupConfig) : GroupConfig :=
  { g with networks := g.networks.filter Network.isText }

/-- What the group does to a table: it takes its parent, then its networks. -/
def changes (g : GroupConfig) : List TableChange :=
  g.parent.toList.map (.setParent g.name) ++ g.networks.map (.assignText · g.name)

end GroupConfig

namespace GroupTable

theorem addNetwork_of_ok {text : String} {n : Network} (h : Network.parse text = .ok n)
    (group : String) (l : Loading) :
    l.addNetwork group text =
      ⟨l.table.insert n group, { l.report with inserted := l.report.inserted + 1 }⟩ := by
  simp only [Loading.addNetwork, assignText, h, assign_eq]

theorem addNetwork_of_error {text : String} {reason : NetworkError}
    (h : Network.parse text = .error reason) (group : String) (l : Loading) :
    l.addNetwork group text =
      ⟨l.table, { l.report with rejected := l.report.rejected ++ [(text, reason)] }⟩ := by
  simp only [Loading.addNetwork, assignText, h]

theorem apply_of_ok {text : String} {n : Network} (h : Network.parse text = .ok n)
    (group : String) (t : GroupTable) :
    t.apply (.assignText text group) = t.insert n group := by
  simp only [apply, assignText, h, assign_eq]

theorem apply_of_error {text : String} {reason : NetworkError}
    (h : Network.parse text = .error reason) (group : String) (t : GroupTable) :
    t.apply (.assignText text group) = t := by
  simp only [apply, assignText, h]

/-- The networks of a group change the table as they do one after the other, and the report is
counted on. -/
theorem foldl_addNetwork (group : String) (texts : List String) (l : Loading) :
    texts.foldl (Loading.addNetwork group) l =
      ⟨(texts.map (TableChange.assignText · group)).foldl apply l.table,
        ⟨l.report.inserted + (texts.filter Network.isText).length,
          l.report.rejected ++ malformed texts⟩⟩ := by
  induction texts generalizing l with
  | nil => simp [malformed]
  | cons text rest ih =>
    rw [List.foldl_cons, ih, List.map_cons, List.foldl_cons]
    cases hparse : Network.parse text with
    | ok n =>
      have hvalid := Network.isText_of_ok hparse
      rw [addNetwork_of_ok hparse, apply_of_ok hparse, malformed_cons_of_ok hparse,
        List.filter_cons_of_pos hvalid, List.length_cons, Nat.add_assoc, Nat.add_comm 1]
    | error reason =>
      have hinvalid := Network.isText_of_error hparse
      rw [addNetwork_of_error hparse, apply_of_error hparse, malformed_cons_of_error hparse,
        List.filter_cons_of_neg (by simp [hinvalid]), List.append_assoc, List.singleton_append]

theorem addGroup_eq (l : Loading) (g : GroupConfig) :
    l.addGroup g =
      ⟨g.changes.foldl apply l.table,
        ⟨l.report.inserted + g.wellFormed.networks.length,
          l.report.rejected ++ malformed g.networks⟩⟩ := by
  rw [Loading.addGroup, foldl_addNetwork, GroupConfig.changes, List.foldl_append]
  cases g.parent <;> rfl

theorem foldl_addGroup (groups : List GroupConfig) (l : Loading) :
    groups.foldl Loading.addGroup l =
      ⟨(groups.flatMap GroupConfig.changes).foldl apply l.table,
        ⟨l.report.inserted + (groups.map fun g => g.wellFormed.networks.length).sum,
          l.report.rejected ++ groups.flatMap fun g => malformed g.networks⟩⟩ := by
  induction groups generalizing l with
  | nil => simp
  | cons g rest ih =>
    rw [List.foldl_cons, ih, addGroup_eq, List.flatMap_cons, List.foldl_append, List.map_cons,
      List.sum_cons, List.flatMap_cons, List.append_assoc, Nat.add_assoc]

theorem load_eq (groups : List GroupConfig) :
    load groups =
      (after (groups.flatMap GroupConfig.changes),
        ⟨(groups.map fun g => g.wellFormed.networks.length).sum,
          groups.flatMap fun g => malformed g.networks⟩) := by
  simp only [load, foldl_addGroup, Nat.zero_add, List.nil_append]
  rfl

/-- Texts that are no networks may be left out. -/
theorem foldl_assignText_filter (group : String) (texts : List String) (t : GroupTable) :
    ((texts.filter Network.isText).map (TableChange.assignText · group)).foldl apply t =
      (texts.map (TableChange.assignText · group)).foldl apply t := by
  induction texts generalizing t with
  | nil => rfl
  | cons text rest ih =>
    cases hparse : Network.parse text with
    | ok n => rw [List.filter_cons_of_pos (Network.isText_of_ok hparse), List.map_cons,
        List.map_cons, List.foldl_cons, List.foldl_cons, ih]
    | error reason => rw [List.filter_cons_of_neg (by simp [Network.isText_of_error hparse]),
        List.map_cons, List.foldl_cons, apply_of_error hparse, ih]

theorem foldl_changes_wellFormed (groups : List GroupConfig) (t : GroupTable) :
    ((groups.map GroupConfig.wellFormed).flatMap GroupConfig.changes).foldl apply t =
      (groups.flatMap GroupConfig.changes).foldl apply t := by
  induction groups generalizing t with
  | nil => rfl
  | cons g rest ih =>
    have hgroup : g.wellFormed.changes.foldl apply t = g.changes.foldl apply t := by
      rw [GroupConfig.changes, GroupConfig.changes, List.foldl_append, List.foldl_append]
      exact foldl_assignText_filter g.name g.networks _
    rw [List.map_cons, List.flatMap_cons, List.flatMap_cons, List.foldl_append, List.foldl_append,
      hgroup, ih]

/-- The groups without their malformed networks make the same table, and nothing is rejected. -/
theorem load_wellFormed (groups : List GroupConfig) :
    load (groups.map GroupConfig.wellFormed) =
      ((load groups).1, { (load groups).2 with rejected := [] }) := by
  have hagain : ∀ g : GroupConfig, g.wellFormed.wellFormed = g.wellFormed := by
    intro g
    simp [GroupConfig.wellFormed]
  have hnone : ∀ g : GroupConfig, malformed g.wellFormed.networks = [] :=
    fun g => malformed_filter g.networks
  have hrejected : (groups.map GroupConfig.wellFormed).flatMap
      (fun g => malformed g.networks) = [] := by
    simp [List.flatMap_eq_nil_iff, hnone]
  rw [load_eq, load_eq, after, after, foldl_changes_wellFormed, hrejected, List.map_map]
  simp only [Function.comp_def, hagain]

end GroupTable

namespace GroupConfig

/-- The texts of the networks of some groups in the order of the configuration, each with the group
that lists it. -/
def entries (groups : List GroupConfig) : List (String × String) :=
  groups.flatMap fun g => g.networks.map (·, g.name)

/-- The networks among the texts. -/
def valid (entries : List (String × String)) : List (Network × String) :=
  entries.filterMap fun entry => (Network.parse entry.1).toOption.map (·, entry.2)

theorem mem_valid_iff (entries : List (String × String)) (n : Network) (group : String) :
    (n, group) ∈ valid entries ↔ ∃ text, (text, group) ∈ entries ∧ Network.parse text = .ok n := by
  rw [valid, List.mem_filterMap]
  constructor
  · intro h
    obtain ⟨⟨text, owner⟩, hentry, hvalid⟩ := h
    cases hparse : Network.parse text with
    | ok m =>
      simp only [hparse, Except.toOption, Option.map_some, Option.some.injEq,
        Prod.mk.injEq] at hvalid
      obtain ⟨rfl, rfl⟩ := hvalid
      exact ⟨text, hentry, hparse⟩
    | error reason => simp [hparse, Except.toOption] at hvalid
  · intro h
    obtain ⟨text, hentry, hparse⟩ := h
    exact ⟨(text, group), hentry, by simp [hparse, Except.toOption]⟩

theorem assignments_changes (g : GroupConfig) :
    g.changes.flatMap TableChange.assignments = valid (g.networks.map (·, g.name)) := by
  have hparent : (g.parent.toList.map (TableChange.setParent g.name)).flatMap
      TableChange.assignments = [] := by
    cases g.parent <;> rfl
  rw [changes, List.flatMap_append, hparent, List.nil_append, List.flatMap_map, valid,
    List.filterMap_map, List.filterMap_eq_flatMap_toList]
  refine congrArg (g.networks.flatMap ·) (funext fun text => ?_)
  rw [TableChange.assignments, validNetworks, List.filterMap_eq_flatMap_toList,
    List.flatMap_singleton]
  rfl

theorem flatMap_assignments (groups : List GroupConfig) :
    (groups.flatMap changes).flatMap TableChange.assignments = valid (entries groups) := by
  rw [List.flatMap_assoc, entries, valid, List.filterMap_flatMap]
  exact congrArg (groups.flatMap ·) (funext assignments_changes)

theorem flatMap_parentings (groups : List GroupConfig) :
    (groups.flatMap changes).flatMap TableChange.parentings =
      groups.filterMap fun g => g.parent.map (g.name, ·) := by
  rw [List.flatMap_assoc, List.filterMap_eq_flatMap_toList]
  refine congrArg (groups.flatMap ·) (funext fun g => ?_)
  have hnetworks : (g.networks.map (TableChange.assignText · g.name)).flatMap
      TableChange.parentings = [] := by
    rw [List.flatMap_map, List.flatMap_eq_nil_iff]
    exact fun _ _ => rfl
  rw [changes, List.flatMap_append, hnetworks, List.append_nil]
  cases g.parent <;> rfl

end GroupConfig

namespace GroupTable

theorem holds_load (groups : List GroupConfig) :
    (load groups).1.Holds (GroupConfig.valid (GroupConfig.entries groups)) := by
  rw [load_eq, ← GroupConfig.flatMap_assignments]
  exact holds_after _

theorem parents_load_eq (groups : List GroupConfig) (group : String) :
    (load groups).1.parents[group]? = Policies.lastOf groups group GroupConfig.parent := by
  rw [load_eq, parents_after, GroupConfig.flatMap_parentings, Policies.lastOf_eq]

/-- A network that is listed belongs to the group that lists it last, in whatever spelling. -/
theorem owner?_load_of_last {groups : List GroupConfig} {before after : List (String × String)}
    {text group : String} {n : Network}
    (hentries : GroupConfig.entries groups = before ++ (text, group) :: after)
    (hparse : Network.parse text = .ok n)
    (hlast : ∀ entry ∈ after, Network.parse entry.1 ≠ .ok n) :
    (load groups).1.owner? n = some group := by
  have hafter : latest (GroupConfig.valid after) n = none := by
    rw [latest_eq_none_iff]
    intro entry hentry heq
    obtain ⟨m, owner⟩ := entry
    obtain ⟨later, hlater, hm⟩ := (GroupConfig.mem_valid_iff after m owner).1 hentry
    exact hlast (later, owner) hlater (heq ▸ hm)
  have hvalid : GroupConfig.valid ((text, group) :: after) =
      (n, group) :: GroupConfig.valid after := by
    simp [GroupConfig.valid, hparse, Except.toOption]
  have hsplit : GroupConfig.valid (before ++ (text, group) :: after) =
      GroupConfig.valid before ++ GroupConfig.valid ((text, group) :: after) :=
    List.filterMap_append
  rw [(holds_load groups).owners, hentries, hsplit, latest_append, hvalid, latest_cons, hafter,
    if_pos rfl]
  rfl

/-- A network has no owner just if no text names it. -/
theorem owner?_load_eq_none_iff (groups : List GroupConfig) (n : Network) :
    (load groups).1.owner? n = none ↔
      ∀ entry ∈ GroupConfig.entries groups, Network.parse entry.1 ≠ .ok n := by
  rw [(holds_load groups).owners, latest_eq_none_iff]
  constructor
  · intro h entry hentry hparse
    exact h (n, entry.2) ((GroupConfig.mem_valid_iff _ n entry.2).2 ⟨entry.1, hentry, hparse⟩) rfl
  · rintro h ⟨m, group⟩ hm rfl
    obtain ⟨text, hentry, hparse⟩ := (GroupConfig.mem_valid_iff _ m group).1 hm
    exact h (text, group) hentry hparse

/-- Groups make the same table with and without the texts among their networks that are no
networks. The report lists exactly these texts in the order of the configuration, each with the
reason, and counts the others. A network that is listed belongs to the group that lists it last, in
whatever spelling, and one that is not listed to none. A match is the longest network with an owner
that holds the address, with its owner and the parent of the last entry of this group that names
one. -/
theorem load_skips_malformed (groups : List GroupConfig) :
    let t := (load groups).1
    let report := (load groups).2
    load (groups.map GroupConfig.wellFormed) = (t, { report with rejected := [] }) ∧
      report.rejected = (groups.flatMap fun g => malformed g.networks) ∧
      report.inserted = (groups.map fun g => g.wellFormed.networks.length).sum ∧
      (∀ n spelling, n.SpelledBy spelling → Network.parse spelling = .ok n) ∧
      (∀ before text group after n,
        GroupConfig.entries groups = before ++ (text, group) :: after →
        Network.parse text = .ok n → (∀ entry ∈ after, Network.parse entry.1 ≠ .ok n) →
        t.owner? n = some group) ∧
      (∀ n, t.owner? n = none ↔
        ∀ entry ∈ GroupConfig.entries groups, Network.parse entry.1 ≠ .ok n) ∧
      ∀ a found, t.lookup a = some found ↔
        found.network.contains a ∧ t.owner? found.network = some found.group ∧
          (∀ m : Network, m.contains a → (t.owner? m).isSome →
            m.length ≤ found.network.length) ∧
          found.parent = Policies.lastOf groups found.group GroupConfig.parent := by
  intro t report
  refine ⟨load_wellFormed groups, ?_, ?_, fun n spelling h => h.parse_eq, ?_,
    owner?_load_eq_none_iff groups, ?_⟩
  · exact congrArg (fun loaded => loaded.2.rejected) (load_eq groups)
  · exact congrArg (fun loaded => loaded.2.inserted) (load_eq groups)
  · intro before text group after n hentries hparse hlast
    exact owner?_load_of_last hentries hparse hlast
  · intro a found
    have hholds := holds_load groups
    have hstored : ∀ n, t.stored? n = t.owner? n :=
      fun n => (hholds.stored n).trans (hholds.owners n).symm
    have hparent : t.parents[found.group]? =
        Policies.lastOf groups found.group GroupConfig.parent := parents_load_eq groups found.group
    simp only [lookup_eq_some_iff, hstored, hparent]

/-- A network that moves to another group under another spelling, with a malformed one before. -/
theorem load_skips_malformed_of_moved_network :
    let groups : List GroupConfig :=
      [{ name := "customers", parent := some "lines", networks := ["10.0.0.0/8", "10.0.0/8"] },
        { name := "servers", networks := [" 10.9.8.7/8"] }]
    let n : Network := .v4 (.around 0x0a000000 8 (by decide))
    Network.parse " 10.9.8.7/8" = .ok n ∧ (load groups).1.owner? n = some "servers" ∧
      (load groups).2.rejected.map Prod.fst = ["10.0.0/8"] ∧ (load groups).2.inserted = 2 := by
  intro groups n
  obtain ⟨-, hrejected, hinserted, hspelled, howner, -, -⟩ := load_skips_malformed groups
  have hparse : Network.parse " 10.9.8.7/8" = .ok n := by
    apply hspelled n " 10.9.8.7/8"
    exact ⟨" ", .v4 0x0a090807, "", List.all_eq_true.1 (by decide), List.all_eq_true.1 (by decide),
      by decide, by decide⟩
  refine ⟨hparse, ?_, ?_, ?_⟩
  · exact howner [("10.0.0.0/8", "customers"), ("10.0.0/8", "customers")] " 10.9.8.7/8" "servers" []
      n rfl hparse (by simp)
  · rw [hrejected]
    decide
  · rw [hinserted]
    decide

end GroupTable

end FloodGuard

import FloodGuard.Proofs.DetectionDecision
import FloodGuard.Proofs.NetworkNesting

/-!
The network that a ban is recorded for. It is the longest configured network that holds the first
address of the banned entity, and nothing more is asked of it: an entity of more than one address is
banned as it was observed, also where it reaches beyond that network. The network covers the entity
just if no configured network that holds the first address of the entity is longer than the entity,
which is always so for a single host.
-/
namespace FloodGuard

namespace Config

/-- Whether a network is configured. -/
def Lists (c : Config) (n : Network) : Prop := ∃ group, (n, group) ∈ c.listings

/-- The owner of an address is found for the longest configured network that holds it. -/
theorem lists_of_owner? {c : Config} {a : Address} {n : Network} {group : String}
    (h : c.owner? a = some (n, group)) :
    c.Lists n ∧ n.contains a = true ∧
      ∀ m, c.Lists m → m.contains a = true → m.length ≤ n.length := by
  have hmem := List.mem_filter.1 (List.mem_of_getLast? h)
  obtain ⟨hlisted, hcontains⟩ := List.mem_filter.1 hmem.1
  have hlongest := hmem.2
  rw [List.all_eq_true] at hlongest
  refine ⟨⟨group, hlisted⟩, hcontains, ?_⟩
  intro m hm hmcontains
  obtain ⟨other, hother⟩ := hm
  exact of_decide_eq_true (hlongest (m, other) (List.mem_filter.2 ⟨hother, hmcontains⟩))

end Config

/-- The longest configured network that holds the first address of an entity covers the entity just
if there is no longer one than the entity. -/
theorem Network.covers_iff_of_longest {c : Config} {n entity : Network} (hlists : c.Lists n)
    (hcontains : n.contains entity.address = true)
    (hlongest : ∀ m, c.Lists m → m.contains entity.address = true → m.length ≤ n.length) :
    n.Covers entity ↔
      ∀ m, c.Lists m → m.contains entity.address = true → m.length ≤ entity.length := by
  rw [covers_iff]
  constructor
  · intro hcovers m hm hmcontains
    exact Nat.le_trans (hlongest m hm hmcontains) hcovers.1
  · intro hshort
    exact ⟨hshort n hlists hcontains, hcontains⟩

namespace Engine

/-- The record of a ban that a cycle starts names the owner's network of the first address. -/
theorem Runs.owner?_of_detect {e : Engine} {c : Config} (h : e.Runs c) {w : World}
    {observations : List Observation} {now : UInt64} {entity : Network} {a : Attack}
    (hfree : e.bans.get? entity = none)
    (hstarted : (e.detect w observations now).engine.bans.get? entity = some a) :
    ∃ network group, c.owner? entity.address = some (network, group) ∧
      a.customerNetwork = some network := by
  have hfirst := detect_get?_of_free w observations now hfree
  cases hfind : observations.find? (e.charges entity) with
  | none =>
    rw [hfind] at hfirst
    exact absurd (hfirst.symm.trans hstarted) (by simp)
  | some o =>
    rw [hfind] at hfirst
    obtain ⟨b, hb, hby⟩ := hfirst
    obtain rfl : b = a := Option.some.inj (hb.symm.trans hstarted)
    obtain ⟨rfl, network, group, breach, hconvicts⟩ :=
      (h.charges_iff entity o).1 (List.find?_some hfind)
    exact ⟨network, group, hconvicts.owner, (h.recordOf hby hconvicts).customerNetwork⟩

/-- Whatever was done before, a ban that a cycle starts is recorded for a configured network of the
family of its entity that holds the first address of the entity, the longest such network. It covers
the entity just if no configured network that holds this address is longer than the entity; so it
covers every host. -/
theorem customerNetwork_covers_iff (w : World) (c : Config) (earlier : List Operation)
    (observations : List Observation) (now : UInt64) (entity : Network) (a : Attack)
    (hfree : ((fresh c).run w earlier).bans.get? entity = none)
    (hstarted : (((fresh c).run w earlier).detect w observations now).engine.bans.get? entity =
      some a) :
    let loaded := c.after earlier
    ∃ network, a.customerNetwork = some network ∧ loaded.Lists network ∧
      network.family = entity.family ∧ network.contains entity.address = true ∧
      (∀ other, loaded.Lists other → other.contains entity.address = true →
        other.length ≤ network.length) ∧
      (network.Covers entity ↔ network.length ≤ entity.length) ∧
      (network.Covers entity ↔ ∀ other, loaded.Lists other →
        other.contains entity.address = true → other.length ≤ entity.length) ∧
      (entity.isHost = true → network.Covers entity) := by
  intro loaded
  have hruns : ((fresh c).run w earlier).Runs loaded := runs_run w c earlier
  obtain ⟨network, group, howner, hrecord⟩ := hruns.owner?_of_detect hfree hstarted
  obtain ⟨hlists, hcontains, hlongest⟩ := Config.lists_of_owner? howner
  have hfamily : network.family = entity.family :=
    (Network.family_of_contains hcontains).trans entity.family_address
  have hlength : network.Covers entity ↔ network.length ≤ entity.length := by
    rw [Network.covers_iff, and_iff_left hcontains]
  refine ⟨network, hrecord, hlists, hfamily, hcontains, hlongest, hlength,
    Network.covers_iff_of_longest hlists hcontains hlongest, ?_⟩
  intro hhost
  rw [hlength, Network.length_of_isHost hhost, ← hfamily]
  exact network.length_le_width

theorem customerNetwork_of_attackedHost :
    let w := World.obliging fun _ => .ok .nil
    ∃ a network, ((fresh minuteBans).detect w [attackedHost] 7).engine.bans.get?
        attackedHost.entity = some a ∧
      a.customerNetwork = some network ∧ network.Covers attackedHost.entity := by
  intro w
  have hbanned : (((fresh minuteBans).detect w [attackedHost] 7).engine.bans.get?
      attackedHost.entity).isSome = true := by decide
  obtain ⟨a, ha⟩ := Option.isSome_iff_exists.1 hbanned
  obtain ⟨network, hrecord, -, -, -, -, -, -, hhost⟩ :=
    customerNetwork_covers_iff w minuteBans [] [attackedHost] 7 attackedHost.entity a (by decide) ha
  exact ⟨a, network, ha, hrecord, hhost rfl⟩

/-- A configuration of a network that is smaller than the entity under attack. -/
def smallNetwork : Config := { minuteBans with networks := ["10.0.0.0/24"] }

/-- The network of all addresses that begin with 10, under attack. -/
def attackedNetwork : Observation :=
  { attackedHost with entity := .v4 (.around 0x0a000000 8 (by decide)) }

/-- An entity is banned that is larger than the only configured network. -/
theorem customerNetwork_not_covering :
    ¬ ∀ (w : World) (c : Config) (earlier : List Operation) (observations : List Observation)
      (now : UInt64) (entity : Network) (a : Attack),
      ((fresh c).run w earlier).bans.get? entity = none →
      (((fresh c).run w earlier).detect w observations now).engine.bans.get? entity = some a →
      ∃ network, a.customerNetwork = some network ∧ (c.after earlier).Lists network ∧
        network.Covers entity := by
  intro hclaim
  let w := World.obliging fun _ => .ok .nil
  have hrecord : (((fresh smallNetwork).detect w [attackedNetwork] 7).engine.bans.get?
      attackedNetwork.entity).map (fun a => a.customerNetwork.map Network.length) =
        some (some 24) := by decide +kernel
  obtain ⟨a, ha, hnetwork⟩ := Option.map_eq_some_iff.1 hrecord
  obtain ⟨network, hcustomer, -, hcovers⟩ := hclaim w smallNetwork [] [attackedNetwork] 7
    attackedNetwork.entity a (by decide +kernel) ha
  rw [hcustomer, Option.map_some, Option.some.injEq] at hnetwork
  have hle := ((Network.covers_iff _ _).1 hcovers).1
  have hentity : attackedNetwork.entity.length = 8 := rfl
  omega

end Engine

end FloodGuard

import FloodGuard.Proofs.BanLifetime
import FloodGuard.Proofs.Listings

/-!
Which entities a cycle bans, and for what. The configuration that was loaded last decides it alone:
an observation convicts its entity if the owner of the entity is to be banned and its settings find
a breach in the averages. A cycle starts a ban for the entities that are free and convicted by some
observation, and for no others, and the first observation that convicts an entity makes the record.
-/
namespace FloodGuard

/-- Whether a configuration finds a breach in an observation that its entity is banned for. The
group is the owner of the first address of the entity. -/
structure Config.Convicts (c : Config) (o : Observation) (network : Network) (group : String)
    (breach : Breach) : Prop where
  owner : c.owner? o.entity.address = some (network, group)
  enabled : (c.settingsOf group).enableBan = true
  breached : (c.settingsOf group).evaluate group o.average o.entity.isV6 = some breach

/-- Whether an observation qualifies its entity for a ban. -/
def Config.Qualifies (c : Config) (o : Observation) : Prop :=
  ∃ network group breach, c.Convicts o network group breach

/-- Whether a record is the one of an attack that was found in an observation at some time. -/
structure Attack.RecordOf (a : Attack) (c : Config) (o : Observation) (network : Network)
    (owner : String) (breach : Breach) (now : UInt64) : Prop where
  traffic : a.traffic = o.current
  group : a.group = owner
  parentGroup : a.parentGroup = (c.parentOf owner).getD ""
  power : a.power = breach.value
  direction : a.direction = breach.direction
  protocol : a.protocol = breach.protocol
  dimension : a.dimension = breach.dimension
  side : a.side = breach.side
  severity : a.severity = .of breach.value breach.threshold
  customerNetwork : a.customerNetwork = some network
  startedAt : a.startedAt = now
  banTime : a.banTime = (c.policyOf owner).banTime
  expires : a.expires = (c.policyOf owner).expires
  isV6 : a.isV6 = o.entity.isV6

namespace Engine

theorem Runs.lookup_eq {e : Engine} {c : Config} (h : e.Runs c) (a : Address) :
    e.lookup a = (c.owner? a).map fun owner =>
      { network := owner.1, group := owner.2, parent := c.parentOf owner.2 } := by
  rw [lookup, h.table, GroupTable.lookup_load]

theorem Runs.settings_eq {e : Engine} {c : Config} (h : e.Runs c) (group : String) :
    e.policies.settingsFor group = c.settingsOf group := by
  rw [h.policies, Policies.settingsFor_ofConfig]

theorem Runs.policy_eq {e : Engine} {c : Config} (h : e.Runs c) (group : String) :
    e.policies.policyFor group = c.policyOf group := by
  rw [h.policies, Policies.policyFor_ofConfig]

/-- What an engine charges an observation with is what its configuration convicts it of. -/
theorem Runs.charge?_eq_some_iff {e : Engine} {c : Config} (h : e.Runs c) (o : Observation)
    (breach : Breach) (context : BanContext) :
    e.charge? o = some (breach, context) ↔
      ∃ network group, c.Convicts o network group breach ∧
        context =
          { group
            parent := c.parentOf group
            customerNetwork := some network
            policy := c.policyOf group } := by
  rw [charge?, h.lookup_eq]
  cases howner : c.owner? o.entity.address with
  | none =>
    constructor
    · intro hcharge
      simp at hcharge
    · intro hexists
      obtain ⟨network, group, hconvicts, -⟩ := hexists
      exact absurd (howner.symm.trans hconvicts.owner) (by simp)
  | some owner =>
    obtain ⟨network, group⟩ := owner
    simp only [Option.map_some, Option.bind_eq_bind, Option.bind_some, h.settings_eq, h.policy_eq]
    constructor
    · intro hcharge
      obtain ⟨found, hbreach, hrest⟩ := Option.bind_eq_some_iff.1 hcharge
      by_cases henabled : (c.settingsOf group).enableBan = true
      · rw [if_pos henabled] at hrest
        obtain ⟨rfl, hcontext⟩ := Prod.mk.inj (Option.some.inj hrest)
        exact ⟨network, group, ⟨howner, henabled, hbreach⟩, hcontext.symm⟩
      · rw [if_neg henabled] at hrest
        exact absurd hrest (by simp)
    · intro hexists
      obtain ⟨network', group', ⟨howner', henabled, hbreach⟩, rfl⟩ := hexists
      obtain ⟨rfl, rfl⟩ := Prod.mk.inj (Option.some.inj (howner.symm.trans howner'))
      rw [hbreach, Option.bind_some, if_pos henabled]

theorem Runs.charges_iff {e : Engine} {c : Config} (h : e.Runs c) (entity : Network)
    (o : Observation) : e.charges entity o = true ↔ o.entity = entity ∧ c.Qualifies o := by
  rw [charges, Bool.and_eq_true, decide_eq_true_eq, Option.isSome_iff_exists]
  refine and_congr_right fun _ => ?_
  constructor
  · intro hexists
    obtain ⟨⟨breach, context⟩, hcharge⟩ := hexists
    obtain ⟨network, group, hconvicts, -⟩ := (h.charge?_eq_some_iff o breach context).1 hcharge
    exact ⟨network, group, breach, hconvicts⟩
  · intro hqualifies
    obtain ⟨network, group, breach, hconvicts⟩ := hqualifies
    exact ⟨_, (h.charge?_eq_some_iff o breach _).2 ⟨network, group, hconvicts, rfl⟩⟩

/-- The record of a ban is the one of the attack that its observation was convicted of. -/
theorem Runs.recordOf {e : Engine} {c : Config} (h : e.Runs c) {o : Observation} {now : UInt64}
    {b : Attack} (hb : e.StartedBy o now b) {network : Network} {group : String}
    {breach : Breach} (hconvicts : c.Convicts o network group breach) :
    b.RecordOf c o network group breach now := by
  obtain ⟨found, context, order, drawn, hcharge, hcontinues⟩ := hb
  have hconvicted := (h.charge?_eq_some_iff o breach _).2 ⟨network, group, hconvicts, rfl⟩
  obtain ⟨rfl, rfl⟩ := Prod.mk.inj (Option.some.inj (hcharge.symm.trans hconvicted))
  rw [hcontinues.fixed]
  exact ⟨rfl, rfl, rfl, rfl, rfl, rfl, rfl, rfl, rfl, rfl, rfl, rfl, rfl, rfl⟩

theorem Runs.isBanned_detect_iff {e : Engine} {c : Config} (h : e.Runs c) (w : World)
    (observations : List Observation) (now : UInt64) {entity : Network}
    (hfree : e.bans.isBanned entity = false) :
    (e.detect w observations now).engine.bans.isBanned entity = true ↔
      ∃ o ∈ observations, o.entity = entity ∧ c.Qualifies o := by
  have hfirst := detect_get?_of_free w observations now (BanList.get?_of_not_isBanned hfree)
  cases hfind : observations.find? (e.charges entity) with
  | none =>
    rw [hfind] at hfirst
    have hnone := BanList.isBanned_of_none hfirst
    rw [List.find?_eq_none] at hfind
    refine iff_of_false (by simp [hnone]) ?_
    intro hexists
    obtain ⟨o, ho, hqualifies⟩ := hexists
    exact hfind o ho ((h.charges_iff entity o).2 hqualifies)
  | some o =>
    rw [hfind] at hfirst
    obtain ⟨b, hb, -⟩ := hfirst
    have hcharges := (h.charges_iff entity o).1 (List.find?_some hfind)
    exact iff_of_true (BanList.isBanned_of_some hb) ⟨o, List.mem_of_find?_eq_some hfind, hcharges⟩

/-- The first observation that convicts a free entity makes the record of its ban. -/
theorem Runs.detect_get?_of_first {e : Engine} {c : Config} (h : e.Runs c) (w : World)
    (now : UInt64) {before after : List Observation} {o : Observation} {network : Network}
    {group : String} {breach : Breach} (hfree : e.bans.isBanned o.entity = false)
    (hbefore : ∀ p ∈ before, p.entity = o.entity → ¬ c.Qualifies p)
    (hconvicts : c.Convicts o network group breach) :
    ∃ b, (e.detect w (before ++ o :: after) now).engine.bans.get? o.entity = some b ∧
      b.RecordOf c o network group breach now := by
  have hfind : (before ++ o :: after).find? (e.charges o.entity) = some o := by
    have hnone : before.find? (e.charges o.entity) = none := by
      rw [List.find?_eq_none]
      intro p hp hcharges
      obtain ⟨hentity, hqualifies⟩ := (h.charges_iff o.entity p).1 hcharges
      exact hbefore p hp hentity hqualifies
    have hcharges : e.charges o.entity o = true :=
      (h.charges_iff o.entity o).2 ⟨rfl, network, group, breach, hconvicts⟩
    rw [List.find?_append, hnone, Option.none_or, List.find?_cons_of_pos hcharges]
  have hfirst := detect_get?_of_free w (before ++ o :: after) now
    (BanList.get?_of_not_isBanned hfree)
  rw [hfind] at hfirst
  obtain ⟨b, hb, hstarted⟩ := hfirst
  exact ⟨b, hb, h.recordOf hstarted hconvicts⟩

/-- Whatever was done before, a cycle bans just the free entities that the configuration loaded last
convicts for some observation; the first of these makes the record, and bans that are not over yet
outlast the cycle. -/
theorem detection_decision (w : World) (c : Config) (earlier : List Operation)
    (observations : List Observation) (now : UInt64) :
    let e := (fresh c).run w earlier
    let loaded := c.after earlier
    let detected := (e.detect w observations now).engine
    (∀ entity, e.bans.isBanned entity = false ∧ detected.bans.isBanned entity = true ↔
        e.bans.isBanned entity = false ∧
          ∃ o ∈ observations, o.entity = entity ∧ loaded.Qualifies o) ∧
      (∀ before o after network group breach, observations = before ++ o :: after →
        e.bans.isBanned o.entity = false →
        (∀ p ∈ before, p.entity = o.entity → ¬ loaded.Qualifies p) →
        loaded.Convicts o network group breach →
        ∃ b, detected.bans.get? o.entity = some b ∧
          b.RecordOf loaded o network group breach now) ∧
      ∀ entity, (e.runCycle w observations now).engine.bans.get? entity =
        (detected.bans.get? entity).filter fun a => !a.isOver now := by
  intro e loaded detected
  have hruns : e.Runs loaded := runs_run w c earlier
  refine ⟨?_, ?_, runCycle_get? w e observations now⟩
  · intro entity
    exact and_congr_right fun hfree => hruns.isBanned_detect_iff w observations now hfree
  · intro before o after network group breach heq hfree hbefore hconvicts
    subst heq
    exact hruns.detect_get?_of_first w now hfree hbefore hconvicts

theorem detection_decision_of_attackedHost :
    let w := World.obliging fun _ => .ok .nil
    ∃ network breach b, minuteBans.Convicts attackedHost network globalGroup breach ∧
      ((fresh minuteBans).detect w [attackedHost] 7).engine.bans.get? attackedHost.entity = some b ∧
      b.RecordOf minuteBans attackedHost network globalGroup breach 7 := by
  intro w
  have howner : (minuteBans.owner? attackedHost.entity.address).map Prod.snd =
      some globalGroup := by decide
  have hbreached : ((minuteBans.settingsOf globalGroup).evaluate globalGroup attackedHost.average
      attackedHost.entity.isV6).isSome = true := by decide
  obtain ⟨⟨network, group⟩, hfound, rfl⟩ := Option.map_eq_some_iff.1 howner
  obtain ⟨breach, hbreach⟩ := Option.isSome_iff_exists.1 hbreached
  have hconvicts : minuteBans.Convicts attackedHost network globalGroup breach :=
    ⟨hfound, by decide, hbreach⟩
  obtain ⟨-, hrecord, -⟩ := detection_decision w minuteBans [] [attackedHost] 7
  obtain ⟨b, hb, hof⟩ := hrecord [] attackedHost [] network globalGroup breach rfl (by decide)
    (by simp) hconvicts
  exact ⟨network, breach, b, hconvicts, hb, hof⟩

end Engine

end FloodGuard

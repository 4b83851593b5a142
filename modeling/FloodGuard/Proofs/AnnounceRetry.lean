import FloodGuard.Proofs.Reactions

/-!
Which bans that the announcer has not accepted are announced again. Only observations lead to
announcements, and an observation leads to one for its own entity alone: withdrawals are retried
without being observed, announcements are not. So a cycle announces the rule of such a ban again
just if the entity is observed in it and belongs to a network that is loaded; a ban that is not
observed stays without its rule for as long as it lasts.
-/
namespace FloodGuard.Engine

/-- The rules that the announcer was asked to announce so far. -/
def announcements (e : Engine) : List Rule :=
  e.exchanges.filterMap fun x => match x.request with
    | .announce rule => some rule
    | .withdraw _ => none

/-- The rules that a cycle asks the announcer to announce. -/
def announcedBy (w : World) (e : Engine) (observations : List Observation) (now : UInt64) :
    List Rule :=
  (e.runCycle w observations now).engine.announcements.drop e.announcements.length

theorem announcements_announce (w : World) (e : Engine) (entity : Network) (attack : Attack) :
    (e.announce w entity attack).announcements = e.announcements ++ [e.ruleFor entity attack] := by
  rw [announcements, exchanges_announce, exchange, List.filterMap_append]
  rfl

theorem announcements_assure (w : World) {e : Engine} {attack : Attack}
    (hopen : attack.announced = false) (entity : Network) :
    (e.assure w entity attack).announcements = e.announcements ++ [e.ruleFor entity attack] := by
  rw [assure, if_neg (by simp [hopen]), announcements_announce]

theorem announcements_withdraw (w : World) (e : Engine) (entity : Network) (rule : Rule) :
    (e.withdraw w entity rule).announcements = e.announcements := by
  rw [announcements, exchanges_withdraw, exchange, List.filterMap_append]
  exact List.append_nil _

theorem announcements_release (w : World) (e : Engine) (entry : Network × Attack) :
    (e.release w entry).announcements = e.announcements := by
  unfold release
  split
  · exact announcements_withdraw w e _ _
  · rfl

theorem announcements_retry (w : World) (e : Engine) :
    (e.retry w).announcements = e.announcements := by
  unfold retry
  refine List.foldlRecOn e.pending (fun (f : Engine) entry => f.withdraw w entry.1 entry.2)
    (motive := fun f => f.announcements = e.announcements) ?_ ?_
  · rfl
  · intro f hf entry _
    exact (announcements_withdraw w f entry.1 entry.2).trans hf

theorem announcements_expire (w : World) (now : UInt64) (e : Engine) :
    (e.expire w now).announcements = e.announcements := by
  unfold expire
  refine List.foldlRecOn (e.bans.over now) (release w)
    (motive := fun f => f.announcements = e.announcements) ?_ ?_
  · rfl
  · intro f hf entry _
    exact (announcements_release w f entry).trans hf

/-- A cycle announces what its observations lead to, and nothing else. -/
theorem announcements_runCycle (w : World) (e : Engine) (observations : List Observation)
    (now : UInt64) :
    (e.runCycle w observations now).engine.announcements =
      (observations.foldl (react w now) (e.retry w)).announcements := by
  rw [runCycle_engine, ← detect_engine]
  exact announcements_expire w now _

/-- An observation of a banned entity whose rule is not accepted leads to an announcement of this
rule: being observed once more does not change the rule. -/
theorem announcements_react_of_open (w : World) (now : UInt64) {e : Engine} {o : Observation}
    {a : Attack} (hbanned : e.bans.get? o.entity = some a) (hopen : a.announced = false)
    (hmonitored : (e.lookup o.entity.address).isSome = true) :
    (e.react w now o).announcements = e.announcements ++ [e.ruleFor o.entity a] := by
  obtain ⟨found, hfound⟩ := Option.isSome_iff_exists.1 hmonitored
  have hstill : (a.refresh o.average).announced = false := by rw [a.announced_refresh, hopen]
  have hrule : (e.withBan o.entity (a.refresh o.average)).ruleFor o.entity (a.refresh o.average) =
      e.ruleFor o.entity a := by
    rw [Attack.refresh_eq]
    rfl
  rw [react_of_banned hfound hbanned, announcements_assure w hstill, hrule]
  rfl

/-- The announcements that an observation leads to are for its own entity. -/
theorem announcements_react (w : World) (now : UInt64) (e : Engine) (o : Observation) :
    ∃ rules, (e.react w now o).announcements = e.announcements ++ rules ∧
      ∀ rule ∈ rules, rule.destination = some o.entity := by
  have hself : ∀ (f : Engine) (a : Attack),
      ∀ rule ∈ [f.ruleFor o.entity a], rule.destination = some o.entity := by
    intro f a rule hrule
    rw [List.mem_singleton.1 hrule]
    exact Rule.destination_against _ _ _
  have hnone : ∃ rules, e.announcements = e.announcements ++ rules ∧
      ∀ rule ∈ rules, rule.destination = some o.entity := ⟨[], by simp, by simp⟩
  cases hban : e.bans.get? o.entity with
  | none =>
    cases hcharge : e.charge? o with
    | none =>
      rw [react_of_uncharged hban hcharge]
      exact hnone
    | some charge =>
      rw [react_of_charged hban hcharge, announcements_announce]
      exact ⟨_, rfl, hself _ _⟩
  | some a =>
    cases hfound : e.lookup o.entity.address with
    | none =>
      rw [react_of_unmonitored hfound]
      exact hnone
    | some found =>
      cases hopen : a.announced with
      | false =>
        rw [announcements_react_of_open w now hban hopen (by rw [hfound]; rfl)]
        exact ⟨_, rfl, hself e a⟩
      | true =>
        have hdone : (a.refresh o.average).announced = true := by rw [a.announced_refresh, hopen]
        rw [react_of_banned hfound hban, assure, if_pos hdone]
        exact hnone

theorem announcements_foldl_react (w : World) (now : UInt64) (observations : List Observation)
    (e : Engine) : e.announcements <+: (observations.foldl (react w now) e).announcements :=
  (prefix_exchanges_foldl (prefix_exchanges_react w now) observations e).filterMap _

/-- Among the announcements that observations lead to is the rule of a ban that is not accepted just
if its entity is observed and monitored. -/
theorem foldl_react_announces_iff (w : World) (now : UInt64) (observations : List Observation)
    {e : Engine} {entity : Network} {a : Attack} (hbanned : e.bans.get? entity = some a)
    (hopen : a.announced = false) :
    ∃ rules, (observations.foldl (react w now) e).announcements = e.announcements ++ rules ∧
      (e.ruleFor entity a ∈ rules ↔
        (∃ o ∈ observations, o.entity = entity) ∧ (e.lookup entity.address).isSome = true) := by
  induction observations generalizing e with
  | nil => exact ⟨[], by simp, by simp⟩
  | cons o rest ih =>
    rw [List.foldl_cons]
    by_cases heq : o.entity = entity
    · subst heq
      cases hfound : e.lookup o.entity.address with
      | none =>
        rw [react_of_unmonitored hfound]
        obtain ⟨rules, hrules, hiff⟩ := ih hbanned
        refine ⟨rules, hrules, ?_⟩
        rw [hiff, hfound]
        simp
      | some found =>
        -- The first observation announces the rule; what follows only adds to that.
        have hself := announcements_react_of_open w now hbanned hopen (by rw [hfound]; rfl)
        obtain ⟨more, hmore⟩ := announcements_foldl_react w now rest (e.react w now o)
        rw [hself, List.append_assoc] at hmore
        refine ⟨[e.ruleFor o.entity a] ++ more, hmore.symm, ?_⟩
        simp
    · -- Another entity is observed, which neither moves this ban nor announces its rule.
      have hkeeps := keeps_react w now e o
      have hbanned' : (e.react w now o).bans.get? entity = some a := by
        rw [react_get?_of_ne w now e heq, hbanned]
      obtain ⟨first, hfirst, hother⟩ := announcements_react w now e o
      obtain ⟨rules, hrules, hiff⟩ := ih hbanned'
      have hrule : (e.react w now o).ruleFor entity a = e.ruleFor entity a := by
        rw [ruleFor, ruleFor, hkeeps.action]
      have hlookup : (e.react w now o).lookup entity.address = e.lookup entity.address := by
        rw [lookup, lookup, hkeeps.table]
      have hnot : e.ruleFor entity a ∉ first := by
        intro hmem
        have hdestination := hother _ hmem
        rw [ruleFor, Rule.destination_against] at hdestination
        exact heq (Option.some.inj hdestination).symm
      rw [hrule, hlookup] at hiff
      refine ⟨first ++ rules, ?_, ?_⟩
      · rw [hrules, hfirst, List.append_assoc]
      · simp [List.mem_append, hnot, hiff, heq]

/-- A cycle announces the rule of a ban that the announcer has not accepted again just if the entity
is observed in the cycle and a loaded network holds its address. -/
theorem announce_retried_iff (w : World) (e : Engine) (observations : List Observation)
    (now : UInt64) (entity : Network) (a : Attack) (hbanned : e.bans.get? entity = some a)
    (hopen : a.announced = false) :
    e.ruleFor entity a ∈ e.announcedBy w observations now ↔
      (∃ o ∈ observations, o.entity = entity) ∧ (e.lookup entity.address).isSome = true := by
  have hkeeps := keeps_retry w e
  have hretried : (e.retry w).bans.get? entity = some a := by rw [retry_bans, hbanned]
  obtain ⟨rules, hrules, hiff⟩ := foldl_react_announces_iff w now observations hretried hopen
  have hrule : (e.retry w).ruleFor entity a = e.ruleFor entity a := by
    rw [ruleFor, ruleFor, hkeeps.action]
  have hlookup : (e.retry w).lookup entity.address = e.lookup entity.address := by
    rw [lookup, lookup, hkeeps.table]
  rw [announcedBy, announcements_runCycle, hrules, announcements_retry, List.drop_left, ← hlookup,
    ← hrule, hiff]

/-- Surroundings in which the announcer cannot be reached. -/
def unreachable : World where
  reply := fun _ _ => some (.unavailable "no route")
  draw := fun _ => .ok .nil

theorem announce_retried_of_observed :
    let e := (fresh minuteBans).run unreachable [.cycle [attackedHost] 7]
    ∃ a, e.bans.get? attackedHost.entity = some a ∧ a.announced = false ∧
      e.ruleFor attackedHost.entity a ∈ e.announcedBy unreachable [attackedHost] 8 := by
  intro e
  have hstate : (e.bans.get? attackedHost.entity).map Attack.announced = some false := by
    decide +kernel
  obtain ⟨a, hbanned, hopen⟩ := Option.map_eq_some_iff.1 hstate
  refine ⟨a, hbanned, hopen, ?_⟩
  rw [announce_retried_iff unreachable e [attackedHost] 8 attackedHost.entity a hbanned hopen]
  exact ⟨⟨attackedHost, List.mem_singleton_self _, rfl⟩, by decide +kernel⟩

/-- A ban whose announcement failed is not announced again by a cycle that does not observe it, and
outlasts this cycle. -/
theorem announce_not_retried_of_unobserved :
    ¬ ∀ (w : World) (c : Config) (earlier : List Operation) (observations : List Observation)
      (now : UInt64) (entity : Network) (a : Attack),
      let e := (fresh c).run w earlier
      e.bans.get? entity = some a → a.announced = false →
      (e.runCycle w observations now).engine.bans.isBanned entity = true →
      e.ruleFor entity a ∈ e.announcedBy w observations now := by
  intro hclaim
  have hstate : (((fresh minuteBans).run unreachable [.cycle [attackedHost] 7]).bans.get?
      attackedHost.entity).map Attack.announced = some false := by decide +kernel
  obtain ⟨a, hbanned, hopen⟩ := Option.map_eq_some_iff.1 hstate
  have hmem := hclaim unreachable minuteBans [.cycle [attackedHost] 7] [] 8 attackedHost.entity a
    hbanned hopen (by decide +kernel)
  have hnone : ((fresh minuteBans).run unreachable [.cycle [attackedHost] 7]).announcedBy
      unreachable [] 8 = [] := by decide +kernel
  rw [hnone] at hmem
  exact List.not_mem_nil hmem

end FloodGuard.Engine

import FloodGuard.Engine
import FloodGuard.Proofs.BanRecords
import FloodGuard.Proofs.LeadingReflector

/-!
The steps that a cycle takes, as changes of the engine alone: announcing a rule, withdrawing one,
starting a ban, lifting one, and what an observation leads to. An observation either leaves the
engine alone, or refreshes the record of a banned entity, or starts a ban; the latter two end with
an announcement while the rule is not accepted. No step touches the configuration in force, the
traffic or the sessions.
-/
namespace FloodGuard

namespace Engine

/-- The engine with another list of bans. -/
def withBans (e : Engine) (bans : BanList) : Engine := { e with bans }

/-- The engine with the record of one entity written. -/
def withBan (e : Engine) (entity : Network) (attack : Attack) : Engine :=
  { e with bans := e.bans.put entity attack }

/-- The engine without the ban of an entity. -/
def withoutBan (e : Engine) (entity : Network) : Engine :=
  { e with bans := e.bans.unban entity }

/-- The engine with other withdrawals pending. -/
def withPending (e : Engine) (pending : List (Network × Rule)) : Engine :=
  { e with pending }

/-- The engine after announcing the rule against an attack. -/
def announce (w : World) (e : Engine) (entity : Network) (attack : Attack) : Engine :=
  let request := .announce (e.ruleFor entity attack)
  let asked := e.exchange w request
  match e.failure? w request with
  | some _ => asked
  | none =>
    { asked with
      bans := asked.bans.setAnnounced entity true
      pending := asked.pending.filter (· ≠ (entity, e.ruleFor entity attack)) }

/-- The engine after announcing the rule against an attack, unless it is accepted already. -/
def assure (w : World) (e : Engine) (entity : Network) (attack : Attack) : Engine :=
  if attack.announced then e else e.announce w entity attack

/-- The engine after withdrawing a rule, which is pending if that fails. -/
def withdraw (w : World) (e : Engine) (entity : Network) (rule : Rule) : Engine :=
  let asked := e.exchange w (.withdraw rule)
  match e.failure? w (.withdraw rule) with
  | some _ => asked.withPending (e.pending ++ [(entity, rule)])
  | none => asked

/-- The engine after withdrawing the rule of a lifted ban, if it was accepted. -/
def release (w : World) (e : Engine) (entry : Network × Attack) : Engine :=
  if entry.2.announced then e.withdraw w entry.1 (e.ruleFor entry.1 entry.2) else e

/-- The engine after lifting a ban. -/
def lift (w : World) (e : Engine) (entry : Network × Attack) : Engine :=
  (e.withoutBan entry.1).release w entry

/-- The reflector behind a new attack, where one can be. -/
def reflectorBehind (e : Engine) (order : ReflectorOrder) (entity : Network) (attack : Attack) :
    Option Reflector :=
  if entity.isHost ∧ attack.direction = .incoming ∧
      (attack.protocol = 0 ∨ attack.protocol = Protocol.udp) then
    e.sessions.reflectorOf entity.address order
  else none

/-- The attack that an observation reveals, before an identifier is drawn for it. -/
def attackOf (e : Engine) (order : ReflectorOrder) (o : Observation) (breach : Breach)
    (context : BanContext) (now : UInt64) : Attack :=
  let attack := Attack.ofBreach o.entity breach o.current o.average context now
  { attack with reflector := e.reflectorBehind order o.entity attack }

/-- The record of a ban that starts with an observation. -/
def newAttack (w : World) (e : Engine) (o : Observation) (breach : Breach) (context : BanContext)
    (now : UInt64) : Attack :=
  (e.attackOf (w.compared e.draws) o breach context now).identifiedBy (w.draw e.draws)

/-- The engine with a ban started, before its rule is announced. -/
def startBan (w : World) (e : Engine) (o : Observation) (breach : Breach) (context : BanContext)
    (now : UInt64) : Engine :=
  { e.withBan o.entity (e.newAttack w o breach context now) with draws := e.draws + 1 }

/-- What an observation is to be banned for, if it is. -/
def charge? (e : Engine) (o : Observation) : Option (Breach × BanContext) := do
  let found ← e.lookup o.entity.address
  let settings := e.policies.settingsFor found.group
  let breach ← settings.evaluate found.group o.average o.entity.isV6
  if settings.enableBan then
    some (breach,
      { group := found.group
        parent := found.parent
        customerNetwork := some found.network
        policy := e.policies.policyFor found.group })
  else none

/-- The engine after an observation. -/
def react (w : World) (now : UInt64) (e : Engine) (o : Observation) : Engine :=
  match e.lookup o.entity.address with
  | none => e
  | some _ =>
    match e.bans.get? o.entity with
    | some attack =>
      let kept := attack.refresh o.average
      (e.withBan o.entity kept).assure w o.entity kept
    | none =>
      match e.charge? o with
      | some (breach, context) =>
        (e.startBan w o breach context now).announce w o.entity
          (e.newAttack w o breach context now)
      | none => e

/-- The rule against an attack is about the ban of the entity that is attacked. -/
theorem standing_ruleFor (e f : Engine) (entity : Network) (attack : Attack) :
    f.standing (e.ruleFor entity attack) = f.bans.get? entity := by
  rw [standing, ruleFor, Rule.destination_against]
  rfl

theorem announce_of_failure {w : World} {e : Engine} {entity : Network} {attack : Attack}
    {reason : MitigationError}
    (h : e.failure? w (.announce (e.ruleFor entity attack)) = some reason) :
    e.announce w entity attack = e.exchange w (.announce (e.ruleFor entity attack)) := by
  simp only [announce, h]

theorem announce_of_success {w : World} {e : Engine} {entity : Network} {attack : Attack}
    (h : e.failure? w (.announce (e.ruleFor entity attack)) = none) :
    e.announce w entity attack =
      { e.exchange w (.announce (e.ruleFor entity attack)) with
        bans := e.bans.setAnnounced entity true
        pending := e.pending.filter (· ≠ (entity, e.ruleFor entity attack)) } := by
  simp only [announce, h]
  rfl

theorem withdraw_of_failure {w : World} {e : Engine} {rule : Rule} {reason : MitigationError}
    (h : e.failure? w (.withdraw rule) = some reason) (entity : Network) :
    e.withdraw w entity rule =
      (e.exchange w (.withdraw rule)).withPending (e.pending ++ [(entity, rule)]) := by
  simp only [withdraw, h]

theorem withdraw_of_success {w : World} {e : Engine} {rule : Rule}
    (h : e.failure? w (.withdraw rule) = none) (entity : Network) :
    e.withdraw w entity rule = e.exchange w (.withdraw rule) := by
  simp only [withdraw, h]

theorem exchanges_announce (w : World) (e : Engine) (entity : Network) (attack : Attack) :
    (e.announce w entity attack).exchanges =
      (e.exchange w (.announce (e.ruleFor entity attack))).exchanges := by
  cases h : e.failure? w (.announce (e.ruleFor entity attack)) with
  | none => rw [announce_of_success h]
  | some reason => rw [announce_of_failure h]

theorem exchanges_withdraw (w : World) (e : Engine) (entity : Network) (rule : Rule) :
    (e.withdraw w entity rule).exchanges = (e.exchange w (.withdraw rule)).exchanges := by
  cases h : e.failure? w (.withdraw rule) with
  | none => rw [withdraw_of_success h]
  | some reason =>
    rw [withdraw_of_failure h]
    rfl

theorem charge?_of_unmonitored {e : Engine} {o : Observation}
    (h : e.lookup o.entity.address = none) : e.charge? o = none := by
  simp [charge?, h]

section

variable {w : World} {now : UInt64} {e : Engine} {o : Observation}

theorem react_of_unmonitored (h : e.lookup o.entity.address = none) : e.react w now o = e := by
  simp only [react, h]

/-- An observation of a banned entity that is monitored refreshes its record and sees to its
rule. -/
theorem react_of_banned {found : GroupMatch} {a : Attack}
    (hfound : e.lookup o.entity.address = some found) (hban : e.bans.get? o.entity = some a) :
    e.react w now o =
      (e.withBan o.entity (a.refresh o.average)).assure w o.entity (a.refresh o.average) := by
  simp only [react, hfound, hban]

/-- An observation that is not charged leaves a free entity free. -/
theorem react_of_uncharged (hfree : e.bans.get? o.entity = none) (hcharge : e.charge? o = none) :
    e.react w now o = e := by
  unfold react
  cases e.lookup o.entity.address with
  | none => rfl
  | some found => simp only [hfree, hcharge]

/-- An observation that is charged bans a free entity. -/
theorem react_of_charged {breach : Breach} {context : BanContext}
    (hfree : e.bans.get? o.entity = none) (hcharge : e.charge? o = some (breach, context)) :
    e.react w now o =
      (e.startBan w o breach context now).announce w o.entity
        (e.newAttack w o breach context now) := by
  unfold react
  cases hfound : e.lookup o.entity.address with
  | none =>
    rw [charge?_of_unmonitored hfound] at hcharge
    exact absurd hcharge (by simp)
  | some found => simp only [hfree, hcharge]

end

/-- The record of requests only grows. -/
theorem prefix_exchanges_announce (w : World) (e : Engine) (entity : Network) (attack : Attack) :
    e.exchanges <+: (e.announce w entity attack).exchanges := by
  rw [exchanges_announce]
  exact List.prefix_append _ _

theorem prefix_exchanges_assure (w : World) (e : Engine) (entity : Network) (attack : Attack) :
    e.exchanges <+: (e.assure w entity attack).exchanges := by
  unfold assure
  split
  · exact List.prefix_rfl
  · exact prefix_exchanges_announce w e entity attack

theorem prefix_exchanges_withdraw (w : World) (e : Engine) (entity : Network) (rule : Rule) :
    e.exchanges <+: (e.withdraw w entity rule).exchanges := by
  rw [exchanges_withdraw]
  exact List.prefix_append _ _

theorem prefix_exchanges_release (w : World) (e : Engine) (entry : Network × Attack) :
    e.exchanges <+: (e.release w entry).exchanges := by
  unfold release
  split
  · exact prefix_exchanges_withdraw w e _ _
  · exact List.prefix_rfl

theorem prefix_exchanges_react (w : World) (now : UInt64) (e : Engine) (o : Observation) :
    e.exchanges <+: (e.react w now o).exchanges := by
  cases hban : e.bans.get? o.entity with
  | none =>
    cases hcharge : e.charge? o with
    | none =>
      simp only [react_of_uncharged hban hcharge, List.prefix_rfl]
    | some charge =>
      rw [react_of_charged hban hcharge]
      exact prefix_exchanges_announce w (e.startBan w o charge.1 charge.2 now) _ _
  | some a =>
    cases hfound : e.lookup o.entity.address with
    | none =>
      simp only [react_of_unmonitored hfound, List.prefix_rfl]
    | some found =>
      rw [react_of_banned hfound hban]
      exact prefix_exchanges_assure w (e.withBan o.entity (a.refresh o.average)) _ _

theorem withdraw_bans (w : World) (e : Engine) (entity : Network) (rule : Rule) :
    (e.withdraw w entity rule).bans = e.bans := by
  cases h : e.failure? w (.withdraw rule) with
  | none =>
    rw [withdraw_of_success h]
    rfl
  | some reason =>
    rw [withdraw_of_failure h]
    rfl

theorem release_bans (w : World) (e : Engine) (entry : Network × Attack) :
    (e.release w entry).bans = e.bans := by
  unfold release
  split
  · exact withdraw_bans w e _ _
  · rfl

theorem foldl_release_bans (w : World) (entries : List (Network × Attack)) (e : Engine) :
    (entries.foldl (release w) e).bans = e.bans :=
  List.foldlRecOn entries (release w) (motive := fun f => f.bans = e.bans) rfl
    fun f hf entry _ => (release_bans w f entry).trans hf

/-- Lifting a ban by hand does to the engine what lifting it for its age does. -/
theorem unban_snd (w : World) (e : Engine) (entity : Network) :
    (e.unban w entity).2 =
      match e.bans.get? entity with
      | some attack => e.lift w (entity, attack)
      | none => e := by
  cases h : e.bans.get? entity with
  | none => simp only [unban, BanList.lift_of_none h]
  | some attack =>
    show (e.unban w entity).2 = e.lift w (entity, attack)
    by_cases ha : attack.announced = true
    · rw [lift, release, if_pos ha]
      show _ = (e.withoutBan entity).withdraw w entity (e.ruleFor entity attack)
      cases hf : e.failure? w (.withdraw (e.ruleFor entity attack)) with
      | none =>
        rw [withdraw_of_success (e := e.withoutBan entity) hf]
        simp only [unban, BanList.lift_of_some h, ha, hf, if_true]
        rfl
      | some reason =>
        rw [withdraw_of_failure (e := e.withoutBan entity) hf]
        simp only [unban, BanList.lift_of_some h, ha, hf, if_true]
        rfl
    · rw [lift, release, if_neg ha]
      simp only [unban, BanList.lift_of_some h, ha]
      rfl

/-- Whether two engines agree in all that neither bans nor the announcer have a part in. -/
structure Keeps (e f : Engine) : Prop where
  table : f.table = e.table
  policies : f.policies = e.policies
  action : f.action = e.action
  intervals : f.intervals = e.intervals
  traffic : f.traffic = e.traffic
  sessions : f.sessions = e.sessions

theorem Keeps.refl (e : Engine) : e.Keeps e := ⟨rfl, rfl, rfl, rfl, rfl, rfl⟩

theorem Keeps.trans {e f g : Engine} (hef : e.Keeps f) (hfg : f.Keeps g) : e.Keeps g where
  table := hfg.table.trans hef.table
  policies := hfg.policies.trans hef.policies
  action := hfg.action.trans hef.action
  intervals := hfg.intervals.trans hef.intervals
  traffic := hfg.traffic.trans hef.traffic
  sessions := hfg.sessions.trans hef.sessions

theorem Keeps.foldl {α : Type} {f : Engine → α → Engine} (hf : ∀ e x, Keeps e (f e x))
    (xs : List α) (e : Engine) : e.Keeps (xs.foldl f e) :=
  List.foldlRecOn xs f (.refl e) fun g hg x _ => hg.trans (hf g x)

theorem Keeps.charge?_eq {e f : Engine} (h : e.Keeps f) (o : Observation) :
    f.charge? o = e.charge? o := by
  unfold charge? lookup
  rw [h.table, h.policies]

theorem Keeps.attackOf_eq {e f : Engine} (h : e.Keeps f) (order : ReflectorOrder)
    (o : Observation) (breach : Breach) (context : BanContext) (now : UInt64) :
    f.attackOf order o breach context now = e.attackOf order o breach context now := by
  unfold attackOf reflectorBehind
  rw [h.sessions]

/-- The order in which the reflectors are compared does not matter to an attack while at most one of
them leads. -/
theorem attackOf_of_decided {e : Engine} {o : Observation}
    (h : o.entity.isHost = true → (e.sessions.reflectedTally o.entity.address).Decided)
    (order other : ReflectorOrder) (breach : Breach) (context : BanContext) (now : UInt64) :
    e.attackOf order o breach context now = e.attackOf other o breach context now := by
  have hsame : ∀ a, e.reflectorBehind order o.entity a = e.reflectorBehind other o.entity a := by
    intro a
    unfold reflectorBehind
    split
    · rename_i hgate
      exact SessionTable.ByteTally.decided_iff.1 (h hgate.1) order other
    · rfl
  rw [attackOf, attackOf, hsame]

theorem keeps_withBans (e : Engine) (bans : BanList) : e.Keeps (e.withBans bans) :=
  ⟨rfl, rfl, rfl, rfl, rfl, rfl⟩

theorem keeps_startBan (w : World) (e : Engine) (o : Observation) (breach : Breach)
    (context : BanContext) (now : UInt64) : e.Keeps (e.startBan w o breach context now) :=
  ⟨rfl, rfl, rfl, rfl, rfl, rfl⟩

theorem keeps_announce (w : World) (e : Engine) (entity : Network) (attack : Attack) :
    e.Keeps (e.announce w entity attack) := by
  cases h : e.failure? w (.announce (e.ruleFor entity attack)) with
  | none =>
    rw [announce_of_success h]
    exact ⟨rfl, rfl, rfl, rfl, rfl, rfl⟩
  | some reason =>
    rw [announce_of_failure h]
    exact ⟨rfl, rfl, rfl, rfl, rfl, rfl⟩

theorem keeps_assure (w : World) (e : Engine) (entity : Network) (attack : Attack) :
    e.Keeps (e.assure w entity attack) := by
  unfold assure
  split
  · exact .refl e
  · exact keeps_announce w e entity attack

theorem keeps_withdraw (w : World) (e : Engine) (entity : Network) (rule : Rule) :
    e.Keeps (e.withdraw w entity rule) := by
  cases h : e.failure? w (.withdraw rule) with
  | none =>
    rw [withdraw_of_success h]
    exact ⟨rfl, rfl, rfl, rfl, rfl, rfl⟩
  | some reason =>
    rw [withdraw_of_failure h]
    exact ⟨rfl, rfl, rfl, rfl, rfl, rfl⟩

theorem keeps_release (w : World) (e : Engine) (entry : Network × Attack) :
    e.Keeps (e.release w entry) := by
  unfold release
  split
  · exact keeps_withdraw w e _ _
  · exact .refl e

theorem keeps_lift (w : World) (e : Engine) (entry : Network × Attack) :
    e.Keeps (e.lift w entry) :=
  (keeps_withBans e _).trans (keeps_release w _ entry)

theorem keeps_react (w : World) (now : UInt64) (e : Engine) (o : Observation) :
    e.Keeps (e.react w now o) := by
  unfold react
  split
  · exact .refl e
  · split
    · exact (keeps_withBans e _).trans (keeps_assure w _ _ _)
    · split
      · exact (keeps_startBan w e _ _ _ _).trans (keeps_announce w _ _ _)
      · exact .refl e

end Engine

end FloodGuard

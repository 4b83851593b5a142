import FloodGuard.Ban.List
import FloodGuard.Engine.Announcer
import FloodGuard.HostGroup.Load
import FloodGuard.Session.Table
import FloodGuard.Traffic.View

/-!
The detection engine. A cycle retries the withdrawals that failed, evaluates every observed entity,
bans those that breach a threshold and lifts the bans whose time is over. The rule of a ban is
announced when the ban is created, and again while the announcer has not accepted it and the entity
is observed; it is withdrawn when the ban is lifted. A withdrawal that fails stays pending until it
succeeds or the same rule is announced again.
-/
namespace FloodGuard

/-- What happened in a cycle. -/
structure CycleReport where
  evaluated : Nat := 0
  unmonitored : Nat := 0
  breaches : Nat := 0
  /-- Breaches where the group is not to be banned. -/
  banDisabled : Nat := 0
  bansCreated : Nat := 0
  bansUpdated : Nat := 0
  /-- Banned entities without a breach. -/
  bansRefreshed : Nat := 0
  bansExpired : Nat := 0
  announcesRetried : Nat := 0
  withdrawalsRetried : Nat := 0
  sinkErrors : Nat := 0
deriving DecidableEq, Repr

structure Engine where
  table : GroupTable
  policies : Policies
  action : Action
  intervals : Intervals
  bans : BanList := {}
  /-- The rules of lifted bans that are still to be withdrawn. -/
  pending : List (Network × Rule) := []
  traffic : TrafficView := {}
  sessions : SessionTable := {}
  /-- The exchanges with the announcer, the latest at the end. -/
  exchanges : List Exchange := []
  /-- The number of identifiers drawn so far. -/
  draws : Nat := 0

/-- An engine in the middle of a cycle. -/
structure Cycle where
  engine : Engine
  report : CycleReport := {}

namespace Engine

/-- An engine without bans. -/
def ofConfig (c : Config) : Engine × LoadReport :=
  let loaded := GroupTable.load (c.allGroups globalGroup)
  ({ table := loaded.1
     policies := .ofConfig c
     action := c.detection.action.action
     intervals := .ofConfig c }, loaded.2)

/-- Takes over networks, settings and policies. Active bans and the action stay as they are. -/
def reload (e : Engine) (c : Config) : Engine × LoadReport :=
  let loaded := GroupTable.load (c.allGroups globalGroup)
  ({ e with table := loaded.1, policies := .ofConfig c }, loaded.2)

/-- The rule against an attack on an entity. -/
def ruleFor (e : Engine) (entity : Network) (attack : Attack) : Rule :=
  Rule.against entity attack e.action

/-- The announcer's answer to a request, if it fails it. -/
def failure? (w : World) (e : Engine) (request : Request) : Option MitigationError :=
  w.reply e.exchanges.length request

/-- The attack that the destination of a rule is banned for. -/
def standing (e : Engine) (rule : Rule) : Option Attack := rule.destination.bind e.bans.get?

/-- Adds a request and its answer to the record. -/
def exchange (w : World) (e : Engine) (request : Request) : Engine :=
  { e with exchanges := e.exchanges ++
      [⟨request, e.failure? w request, e.standing request.rule⟩] }

def lookup (e : Engine) (address : Address) : Option GroupMatch := e.table.lookup address

def topEntities (e : Engine) (ranking : Ranking) (limit : Nat) : List (Network × Counters) :=
  e.traffic.top ranking limit

/-- Records a packet of a session. -/
def record (e : Engine) (key : SessionKey) (bytes now : UInt64) : Engine :=
  { e with sessions := e.sessions.record key bytes now }

/-- Drops the sessions that have been idle for longer than a window. -/
def sweepSessions (e : Engine) (now window : UInt64) : Engine :=
  { e with sessions := e.sessions.sweep now window }

end Engine

namespace Cycle

def addSinkError (c : Cycle) : Cycle :=
  { c with report := { c.report with sinkErrors := c.report.sinkErrors + 1 } }

/-- Announces the rule against an attack. Once it is accepted its withdrawal is not pending any
more. -/
def announce (w : World) (entity : Network) (attack : Attack) (c : Cycle) : Cycle :=
  let rule := c.engine.ruleFor entity attack
  let engine := c.engine.exchange w (.announce rule)
  match c.engine.failure? w (.announce rule) with
  | some _ => addSinkError { c with engine }
  | none =>
    { c with engine := { engine with
        bans := engine.bans.setAnnounced entity true
        pending := engine.pending.filter (· ≠ (entity, rule)) } }

/-- Withdraws a rule, which is pending from now on if that fails. -/
def withdrawRule (w : World) (entity : Network) (rule : Rule) (c : Cycle) : Cycle :=
  let engine := c.engine.exchange w (.withdraw rule)
  match c.engine.failure? w (.withdraw rule) with
  | some _ =>
    addSinkError { c with engine := { engine with pending := engine.pending ++ [(entity, rule)] } }
  | none => { c with engine }

/-- Withdraws a rule whose withdrawal failed before. -/
def retryWithdrawal (w : World) (c : Cycle) (entry : Network × Rule) : Cycle :=
  withdrawRule w entry.1 entry.2
    { c with report := { c.report with withdrawalsRetried := c.report.withdrawalsRetried + 1 } }

/-- Retries all pending withdrawals. -/
def retryWithdrawals (w : World) (c : Cycle) : Cycle :=
  c.engine.pending.foldl (retryWithdrawal w) { c with engine := { c.engine with pending := [] } }

/-- Announces the rule of a ban that the announcer has not accepted yet. -/
def retryAnnounce (w : World) (entity : Network) (attack : Attack) (c : Cycle) : Cycle :=
  if attack.announced then c
  else announce w entity attack
    { c with report := { c.report with announcesRetried := c.report.announcesRetried + 1 } }

/-- Notes the reflector behind a new attack, where one can be: behind incoming traffic of a host
that is not known to be of another protocol. -/
def findReflector (order : ReflectorOrder) (entity : Network) (attack : Attack) (c : Cycle) :
    Cycle :=
  if entity.isHost ∧ attack.direction = .incoming ∧
      (attack.protocol = 0 ∨ attack.protocol = Protocol.udp) then
    match c.engine.sessions.reflectorOf entity.address order with
    | some reflector =>
      { c with engine := { c.engine with
          bans := c.engine.bans.setReflector entity (some reflector) } }
    | none => c
  else c

/-- Reports a breach to the list of bans. -/
def ban (w : World) (o : Observation) (breach : Breach) (context : BanContext) (now : UInt64)
    (c : Cycle) : Cycle :=
  let drawn := w.draw c.engine.draws
  match c.engine.bans.ban o.entity breach o.current o.average context now drawn with
  | (.created attack _, bans) =>
    let created : Cycle :=
      { engine := { c.engine with bans, draws := c.engine.draws + 1 }
        report := { c.report with bansCreated := c.report.bansCreated + 1 } }
    let found := findReflector (w.compared c.engine.draws) o.entity attack created
    announce w o.entity ((found.engine.bans.get? o.entity).getD attack) found
  | (.updated _ _, bans) =>
    let updated : Cycle :=
      { engine := { c.engine with bans }
        report := { c.report with bansUpdated := c.report.bansUpdated + 1 } }
    match bans.get? o.entity with
    | some attack => retryAnnounce w o.entity attack updated
    | none => updated

/-- Takes over the averages of an entity without a ban to be made; one that is banned stays so. -/
def refresh (w : World) (o : Observation) (c : Cycle) : Cycle :=
  match c.engine.bans.refreshBan o.entity o.average with
  | (some attack, bans) => retryAnnounce w o.entity attack
    { engine := { c.engine with bans }
      report := { c.report with bansRefreshed := c.report.bansRefreshed + 1 } }
  | (none, _) => c

/-- Evaluates the traffic of an entity that belongs to a group. -/
def evaluateIn (w : World) (found : GroupMatch) (o : Observation) (now : UInt64) (c : Cycle) :
    Cycle :=
  let settings := c.engine.policies.settingsFor found.group
  match settings.evaluate found.group o.average o.entity.isV6 with
  | some breach =>
    let breached : Cycle := { c with report := { c.report with breaches := c.report.breaches + 1 } }
    if settings.enableBan then
      ban w o breach
        { group := found.group
          parent := found.parent
          customerNetwork := some found.network
          policy := c.engine.policies.policyFor found.group }
        now breached
    else
      refresh w o
        { breached with report :=
          { breached.report with banDisabled := breached.report.banDisabled + 1 } }
  | none => refresh w o c

/-- Evaluates an observation. The group of an entity is that of its first address. -/
def evaluate (w : World) (now : UInt64) (c : Cycle) (o : Observation) : Cycle :=
  match c.engine.lookup o.entity.address with
  | none => { c with report := { c.report with unmonitored := c.report.unmonitored + 1 } }
  | some found =>
    evaluateIn w found o now
      { c with report := { c.report with evaluated := c.report.evaluated + 1 } }

/-- Withdraws the rule of a lifted ban, if the announcer has it. -/
def lift (w : World) (c : Cycle) (entry : Network × Attack) : Cycle :=
  let counted : Cycle :=
    { c with report := { c.report with bansExpired := c.report.bansExpired + 1 } }
  if entry.2.announced then withdrawRule w entry.1 (c.engine.ruleFor entry.1 entry.2) counted
  else counted

/-- Lifts the bans whose time is over. -/
def expire (w : World) (now : UInt64) (c : Cycle) : Cycle :=
  let (expired, bans) := c.engine.bans.expire now
  expired.foldl (lift w) { c with engine := { c.engine with bans } }

/-- Takes over the observed traffic. -/
def observe (observations : List Observation) (now : UInt64) (c : Cycle) : Cycle :=
  { c with engine := { c.engine with traffic := c.engine.traffic.update observations now } }

end Cycle

namespace Engine

/-- One cycle. Withdrawals are retried before anything is announced, so that nothing announced in a
cycle is withdrawn by a retry in it. -/
def runCycle (w : World) (e : Engine) (observations : List Observation) (now : UInt64) : Cycle :=
  let retried := Cycle.retryWithdrawals w { engine := e }
  let evaluated := observations.foldl (Cycle.evaluate w now) retried
  (evaluated.expire w now).observe observations now

/-- Lifts a ban by hand. The ban is gone even if the withdrawal of its rule fails, which is then
pending. -/
def unban (w : World) (e : Engine) (entity : Network) :
    Except MitigationError (Option Attack) × Engine :=
  match e.bans.lift entity with
  | (none, _) => (.ok none, e)
  | (some attack, bans) =>
    let lifted := { e with bans }
    if attack.announced then
      let rule := e.ruleFor entity attack
      match e.failure? w (.withdraw rule) with
      | some reason =>
        (.error reason, { (lifted.exchange w (.withdraw rule)) with
          pending := e.pending ++ [(entity, rule)] })
      | none => (.ok (some attack), lifted.exchange w (.withdraw rule))
    else (.ok (some attack), lifted)

end Engine

end FloodGuard

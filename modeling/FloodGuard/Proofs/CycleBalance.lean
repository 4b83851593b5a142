import FloodGuard.Proofs.BanLifetime
import FloodGuard.Proofs.Effects

/-!
The report of a cycle adds up: with the observations that were taken, with the list of bans before
and after, and with the requests that the announcer got and refused. The books of a cycle say what
is open between its steps, such as an announcement that is counted and not made yet. Every step
keeps the books balanced, and at the end of a cycle nothing is open.
-/
namespace FloodGuard

namespace Exchange

/-- Whether a request was to announce a rule. -/
def isAnnounce (x : Exchange) : Bool :=
  match x.request with
  | .announce _ => true
  | .withdraw _ => false

/-- Whether a request was to withdraw a rule. -/
def isWithdraw (x : Exchange) : Bool := !x.isAnnounce

def failed (x : Exchange) : Bool := x.failure.isSome

end Exchange

/-- What a report gains by an observation: it is evaluated or not monitored, and a breach starts a
ban, goes on with one or is not banned for. Requests are not counted with it. -/
structure CycleReport.OfObservation (gain : CycleReport) : Prop where
  seen : gain.evaluated + gain.unmonitored = 1
  breaches : gain.breaches = gain.bansCreated + gain.bansUpdated + gain.banDisabled
  banned : gain.bansCreated + gain.bansUpdated + gain.bansRefreshed ≤ gain.evaluated
  bansExpired : gain.bansExpired = 0
  announcesRetried : gain.announcesRetried = 0
  withdrawalsRetried : gain.withdrawalsRetried = 0
  sinkErrors : gain.sinkErrors = 0

namespace Engine

theorem tally_ofObservation (e : Engine) (o : Observation) : (e.tally o 0).OfObservation := by
  unfold tally
  cases e.lookup o.entity.address with
  | none => exact ⟨rfl, rfl, Nat.le_refl _, rfl, rfl, rfl, rfl⟩
  | some found =>
    simp only []
    cases (e.policies.settingsFor found.group).evaluate found.group o.average o.entity.isV6 with
    | none =>
      simp only []
      split
      · exact ⟨rfl, rfl, Nat.le_refl _, rfl, rfl, rfl, rfl⟩
      · exact ⟨rfl, rfl, Nat.zero_le _, rfl, rfl, rfl, rfl⟩
    | some breach =>
      simp only []
      split
      · split <;> exact ⟨rfl, rfl, Nat.le_refl _, rfl, rfl, rfl, rfl⟩
      · split
        · exact ⟨rfl, rfl, Nat.le_refl _, rfl, rfl, rfl, rfl⟩
        · exact ⟨rfl, rfl, Nat.zero_le _, rfl, rfl, rfl, rfl⟩

/-- An observation counts for a new ban just if its entity is free and it is charged. -/
theorem bansCreated_tally (e : Engine) (o : Observation) :
    (e.tally o 0).bansCreated =
      if e.bans.isBanned o.entity = false ∧ (e.charge? o).isSome = true then 1 else 0 := by
  have hzero : CycleReport.bansCreated 0 = 0 := rfl
  cases hfound : e.lookup o.entity.address with
  | none => simp [tally, charge?, hfound, hzero]
  | some found =>
    cases hbreach : (e.policies.settingsFor found.group).evaluate found.group o.average
        o.entity.isV6 with
    | none =>
      cases hban : e.bans.isBanned o.entity <;>
        simp [tally, charge?, hfound, hbreach, hban, hzero]
    | some breach =>
      cases henabled : (e.policies.settingsFor found.group).enableBan <;>
        cases hban : e.bans.isBanned o.entity <;>
        simp [tally, charge?, hfound, hbreach, henabled, hban, hzero]

theorem countP_exchange (p : Exchange → Bool) (w : World) (e : Engine) (request : Request) :
    (e.exchange w request).exchanges.countP p =
      e.exchanges.countP p +
        if p ⟨request, e.failure? w request, e.standing request.rule⟩ then 1 else 0 := by
  rw [exchange, List.countP_append, List.countP_singleton]

end Engine

/-- The books of a cycle between two steps. -/
structure Books where
  /-- The pending withdrawals that are still to be retried. -/
  waiting : Nat := 0
  /-- The observations that were taken. -/
  taken : Nat := 0
  /-- The announcements that are counted and still to be made. -/
  announcing : Nat := 0
  /-- The withdrawals that are counted and still to be made. -/
  withdrawing : Nat := 0
  /-- The bans that are gone and still to be counted. -/
  lifting : Nat := 0
  /-- The bans that are lifted and counted. -/
  lifted : Nat := 0
  /-- Those among them whose rule was accepted. -/
  released : Nat := 0

namespace Cycle

/-- Whether the report of a cycle that began with some engine adds up, given its books. -/
structure Balances (e : Engine) (b : Books) (c : Cycle) : Prop where
  taken : c.report.evaluated + c.report.unmonitored = b.taken
  breaches : c.report.breaches =
    c.report.bansCreated + c.report.bansUpdated + c.report.banDisabled
  banned : c.report.bansCreated + c.report.bansUpdated + c.report.bansRefreshed ≤
    c.report.evaluated
  bans : c.engine.bans.size + b.lifting + c.report.bansExpired =
    e.bans.size + c.report.bansCreated
  expired : c.report.bansExpired = b.lifted
  announced : c.engine.exchanges.countP Exchange.isAnnounce + b.announcing =
    e.exchanges.countP Exchange.isAnnounce + c.report.bansCreated + c.report.announcesRetried
  retried : c.report.withdrawalsRetried + b.waiting = e.pending.length
  withdrawn : c.engine.exchanges.countP Exchange.isWithdraw + b.withdrawing =
    e.exchanges.countP Exchange.isWithdraw + c.report.withdrawalsRetried + b.released
  failed : c.engine.exchanges.countP Exchange.failed =
    e.exchanges.countP Exchange.failed + c.report.sinkErrors

/-- The report after a request. -/
theorem report_announce (w : World) (entity : Network) (a : Attack) (c : Cycle) :
    (announce w entity a c).report = { c.report with sinkErrors := c.report.sinkErrors +
      if (c.engine.failure? w (.announce (c.engine.ruleFor entity a))).isSome then 1 else 0 } := by
  cases h : c.engine.failure? w (.announce (c.engine.ruleFor entity a)) with
  | none => simp only [announce, h]; rfl
  | some reason => simp only [announce, h]; rfl

theorem report_withdrawRule (w : World) (entity : Network) (rule : Rule) (c : Cycle) :
    (withdrawRule w entity rule c).report = { c.report with sinkErrors := c.report.sinkErrors +
      if (c.engine.failure? w (.withdraw rule)).isSome then 1 else 0 } := by
  cases h : c.engine.failure? w (.withdraw rule) with
  | none => simp only [withdrawRule, h]; rfl
  | some reason => simp only [withdrawRule, h]; rfl

theorem size_announce (w : World) (entity : Network) (a : Attack) (c : Cycle) :
    (announce w entity a c).engine.bans.size = c.engine.bans.size := by
  rw [announce_engine]
  cases h : c.engine.failure? w (.announce (c.engine.ruleFor entity a)) with
  | none =>
    rw [Engine.announce_of_success h]
    exact BanList.size_update _ _ _
  | some reason =>
    rw [Engine.announce_of_failure h]
    rfl

theorem countP_announce (p : Exchange → Bool) (w : World) (entity : Network) (a : Attack)
    (c : Cycle) :
    let rule := c.engine.ruleFor entity a
    (announce w entity a c).engine.exchanges.countP p = c.engine.exchanges.countP p +
      if p ⟨.announce rule, c.engine.failure? w (.announce rule), c.engine.standing rule⟩
        then 1 else 0 := by
  intro rule
  rw [announce_engine, Engine.exchanges_announce, Engine.countP_exchange]
  rfl

theorem countP_withdrawRule (p : Exchange → Bool) (w : World) (entity : Network) (rule : Rule)
    (c : Cycle) :
    (withdrawRule w entity rule c).engine.exchanges.countP p = c.engine.exchanges.countP p +
      if p ⟨.withdraw rule, c.engine.failure? w (.withdraw rule), c.engine.standing rule⟩
        then 1 else 0 := by
  rw [withdrawRule_engine, Engine.exchanges_withdraw, Engine.countP_exchange]
  rfl

section

variable {e : Engine} {b : Books} {c : Cycle}

/-- An announcement that is counted is made. -/
theorem Balances.announce (h : c.Balances e { b with announcing := b.announcing + 1 }) (w : World)
    (entity : Network) (a : Attack) : (Cycle.announce w entity a c).Balances e b := by
  obtain ⟨taken, breaches, banned, bans, expired, announced, retried, withdrawn, failed⟩ := h
  constructor <;> rw [report_announce]
  · exact taken
  · exact breaches
  · exact banned
  · rw [size_announce]
    exact bans
  · exact expired
  · rw [countP_announce]
    exact (Nat.add_right_comm _ _ _).trans announced
  · exact retried
  · rw [countP_announce]
    exact withdrawn
  · rw [countP_announce, failed, Nat.add_assoc]
    rfl

/-- A withdrawal that is counted is made. -/
theorem Balances.withdrawRule (h : c.Balances e { b with withdrawing := b.withdrawing + 1 })
    (w : World) (entity : Network) (rule : Rule) :
    (Cycle.withdrawRule w entity rule c).Balances e b := by
  obtain ⟨taken, breaches, banned, bans, expired, announced, retried, withdrawn, failed⟩ := h
  constructor <;> rw [report_withdrawRule]
  · exact taken
  · exact breaches
  · exact banned
  · rw [withdrawRule_engine, Engine.withdraw_bans]
    exact bans
  · exact expired
  · rw [countP_withdrawRule]
    exact announced
  · exact retried
  · rw [countP_withdrawRule]
    exact (Nat.add_right_comm _ _ _).trans withdrawn
  · rw [countP_withdrawRule, failed, Nat.add_assoc]
    rfl

theorem Balances.retryAnnounce (h : c.Balances e b) (w : World) (entity : Network) (a : Attack) :
    (Cycle.retryAnnounce w entity a c).Balances e b := by
  unfold Cycle.retryAnnounce
  split
  · exact h
  · refine Balances.announce ?_ w entity a
    exact { h with announced := congrArg (· + 1) h.announced }

/-- A pending withdrawal is counted and made. -/
theorem Balances.retryWithdrawal (h : c.Balances e { b with waiting := b.waiting + 1 }) (w : World)
    (entry : Network × Rule) : (Cycle.retryWithdrawal w c entry).Balances e b := by
  obtain ⟨taken, breaches, banned, bans, expired, announced, retried, withdrawn, failed⟩ := h
  dsimp only at retried withdrawn
  apply Balances.withdrawRule
  refine ⟨taken, breaches, banned, bans, expired, announced, ?_, ?_, failed⟩
  · dsimp only
    omega
  · dsimp only
    omega

/-- A ban that is gone is counted, and its rule withdrawn if it was accepted. -/
theorem Balances.lift (h : c.Balances e { b with lifting := b.lifting + 1 }) (w : World)
    (entry : Network × Attack) :
    (Cycle.lift w c entry).Balances e
      { b with
        lifted := b.lifted + 1
        released := b.released + if entry.2.announced then 1 else 0 } := by
  obtain ⟨taken, breaches, banned, bans, expired, announced, retried, withdrawn, failed⟩ := h
  have hbans : c.engine.bans.size + b.lifting + (c.report.bansExpired + 1) =
      e.bans.size + c.report.bansCreated := by
    dsimp only at bans
    omega
  have hexpired := congrArg (· + 1) expired
  unfold Cycle.lift
  split
  · apply Balances.withdrawRule
    refine ⟨taken, breaches, banned, hbans, hexpired, announced, retried, ?_, failed⟩
    dsimp only at withdrawn ⊢
    omega
  · exact ⟨taken, breaches, banned, hbans, hexpired, announced, retried, withdrawn, failed⟩

/-- An observation is taken: the report gains what it counts for, and a ban that starts is in the
list and not announced yet. -/
theorem Balances.counting (h : c.Balances e b) {o : Observation} {f : Engine} {created : Nat}
    (hcreated : (c.engine.tally o 0).bansCreated = created)
    (hexchanges : f.exchanges = c.engine.exchanges)
    (hsize : f.bans.size = c.engine.bans.size + created) :
    { c.counting o with engine := f }.Balances e
      { b with taken := b.taken + 1, announcing := b.announcing + created } := by
  obtain ⟨taken, breaches, banned, bans, expired, announced, retried, withdrawn, failed⟩ := h
  have hgain := c.engine.tally_ofObservation o
  have hreport : (c.counting o).report = c.report.add (c.engine.tally o 0) :=
    c.engine.tally_eq_add o c.report
  obtain ⟨hseen, hbreaches, hbanned, hexpired, hannounces, hwithdrawals, herrors⟩ := hgain
  constructor <;> simp only [hreport, hexchanges, hsize, CycleReport.add] <;> omega

/-- An observation keeps the books balanced. -/
theorem Balances.evaluate (h : c.Balances e b) (w : World) (now : UInt64) (o : Observation) :
    (Cycle.evaluate w now c o).Balances e { b with taken := b.taken + 1 } := by
  have hcreated := c.engine.bansCreated_tally o
  cases hban : c.engine.bans.get? o.entity with
  | none =>
    have hfree := BanList.isBanned_of_none hban
    cases hcharge : c.engine.charge? o with
    | none =>
      rw [if_neg (by simp [hcharge])] at hcreated
      rw [evaluate_of_uncharged w now hban hcharge]
      exact h.counting hcreated rfl rfl
    | some charge =>
      rw [if_pos ⟨hfree, by simp [hcharge]⟩] at hcreated
      rw [evaluate_of_charged w now hban hcharge]
      refine (h.counting hcreated ?_ ?_).announce w o.entity _
      · rfl
      · exact (BanList.size_put _ _ _).trans (if_neg (by simp [hfree]))
  | some a =>
    have hbanned := BanList.isBanned_of_some hban
    rw [if_neg (by simp [hbanned])] at hcreated
    cases hfound : c.engine.lookup o.entity.address with
    | none =>
      rw [evaluate_of_unmonitored w now hfound]
      exact h.counting hcreated rfl rfl
    | some found =>
      rw [evaluate_of_banned w now hfound hban]
      refine (h.counting hcreated ?_ ?_).retryAnnounce w o.entity _
      · rfl
      · exact (BanList.size_put _ _ _).trans (if_pos hbanned)

theorem Balances.foldl_evaluate (h : c.Balances e b) (w : World) (now : UInt64)
    (observations : List Observation) :
    (observations.foldl (Cycle.evaluate w now) c).Balances e
      { b with taken := b.taken + observations.length } := by
  induction observations generalizing c b with
  | nil => exact h
  | cons o rest ih =>
    have hrest := ih (h.evaluate w now o)
    rw [Nat.add_assoc, Nat.add_comm 1] at hrest
    exact hrest

theorem Balances.foldl_retryWithdrawal {entries : List (Network × Rule)}
    (h : c.Balances e { b with waiting := b.waiting + entries.length }) (w : World) :
    (entries.foldl (Cycle.retryWithdrawal w) c).Balances e b := by
  induction entries generalizing c with
  | nil => exact h
  | cons entry rest ih => exact ih (Balances.retryWithdrawal (by exact h) w entry)

theorem Balances.foldl_lift {entries : List (Network × Attack)}
    (h : c.Balances e { b with lifting := b.lifting + entries.length }) (w : World) :
    (entries.foldl (Cycle.lift w) c).Balances e
      { b with
        lifted := b.lifted + entries.length
        released := b.released + entries.countP fun entry => entry.2.announced } := by
  induction entries generalizing c b with
  | nil => exact h
  | cons entry rest ih =>
    have hone := Balances.lift (b := { b with lifting := b.lifting + rest.length }) (by exact h)
      w entry
    have hrest := ih (b := { b with
      lifted := b.lifted + 1
      released := b.released + if entry.2.announced then 1 else 0 }) hone
    rw [List.foldl_cons, List.length_cons, List.countP_cons, Nat.add_comm (rest.countP _),
      Nat.add_comm rest.length, ← Nat.add_assoc, ← Nat.add_assoc]
    exact hrest

end

end Cycle

namespace Engine

variable (w : World) (e : Engine) (observations : List Observation) (now : UInt64)

/-- When the observations of a cycle are taken, nothing that was begun is open. -/
theorem balances_detect :
    (e.detect w observations now).Balances e { taken := observations.length } := by
  have hstart : Cycle.Balances e { waiting := e.pending.length }
      { engine := { e with pending := [] } } :=
    ⟨rfl, rfl, Nat.le_refl _, rfl, rfl, rfl, Nat.zero_add _, rfl, rfl⟩
  rw [← Nat.zero_add e.pending.length] at hstart
  have hretried : (Cycle.retryWithdrawals w { engine := e }).Balances e {} :=
    Cycle.Balances.foldl_retryWithdrawal (b := {}) hstart w
  have htaken := hretried.foldl_evaluate w now observations
  rw [Nat.zero_add] at htaken
  exact htaken

/-- The bans that a cycle lifts: those that are there when the observations are taken, and not when
the cycle is over. -/
def liftedBy : List (Network × Attack) :=
  (e.detect w observations now).engine.bans.toList.filter fun entry =>
    !(e.runCycle w observations now).engine.bans.isBanned entry.1

theorem liftedBy_eq_over :
    e.liftedBy w observations now = (e.detect w observations now).engine.bans.over now := by
  apply List.filter_congr
  intro entry hentry
  have hban := (BanList.mem_toList_iff _ entry.1 entry.2).1 hentry
  rw [BanList.isBanned, runCycle_get?, hban]
  cases hover : entry.2.isOver now <;> simp [Option.filter, hover]

/-- When a cycle is over, nothing is open. -/
theorem balances_runCycle :
    (e.runCycle w observations now).Balances e
      { taken := observations.length
        lifted := (e.liftedBy w observations now).length
        released := (e.liftedBy w observations now).countP fun entry => entry.2.announced } := by
  let d := e.detect w observations now
  obtain ⟨taken, breaches, banned, bans, expired, announced, retried, withdrawn, failed⟩ :=
    e.balances_detect w observations now
  rw [← d.engine.bans.size_sweep now] at bans
  have hswept : Cycle.Balances e
      { taken := observations.length, lifting := (d.engine.bans.over now).length }
      { d with engine := { d.engine with bans := d.engine.bans.sweep now } } :=
    ⟨taken, breaches, banned, bans, expired, announced, retried, withdrawn, failed⟩
  rw [← Nat.zero_add (d.engine.bans.over now).length] at hswept
  have hlifted := Cycle.Balances.foldl_lift (b := { taken := observations.length }) hswept w
  rw [Nat.zero_add, Nat.zero_add] at hlifted
  -- Taking over the traffic touches neither the report nor what the books are about.
  rw [liftedBy_eq_over, runCycle_eq]
  exact { hlifted with }

/-- The requests that a cycle makes, the latest at the end. -/
def requestsBy : List Exchange :=
  (e.runCycle w observations now).engine.exchanges.drop e.exchanges.length

theorem exchanges_runCycle :
    (e.runCycle w observations now).engine.exchanges =
      e.exchanges ++ e.requestsBy w observations now := by
  obtain ⟨requests, hrequests⟩ := prefix_exchanges_runCycle w e observations now
  rw [requestsBy, ← hrequests, List.drop_left]

/-- The report of a cycle adds up, whatever state the engine is in, whatever was observed and
however the announcer answers: every observation is evaluated or not monitored; every breach starts
a ban, goes on with one or is not banned for; what was evaluated covers the bans that were started,
gone on with and refreshed; the list of bans grew by the bans that were started and shrank by those
that expired; an announcement was asked for with every ban that was started and every retry, and a
withdrawal with every pending one and every lifted ban whose rule was accepted; and the errors are
the requests that failed. -/
theorem report_adds_up (w : World) (e : Engine) (observations : List Observation)
    (now : UInt64) :
    match e.runCycle w observations now, e.requestsBy w observations now,
      e.liftedBy w observations now with
    | ⟨after, report⟩, requests, lifted =>
      after.exchanges = e.exchanges ++ requests ∧
      report.evaluated + report.unmonitored = observations.length ∧
      report.breaches = report.bansCreated + report.bansUpdated + report.banDisabled ∧
      report.bansCreated + report.bansUpdated + report.bansRefreshed ≤ report.evaluated ∧
      after.bans.size + report.bansExpired = e.bans.size + report.bansCreated ∧
      report.bansExpired = lifted.length ∧
      requests.countP Exchange.isAnnounce = report.bansCreated + report.announcesRetried ∧
      report.withdrawalsRetried = e.pending.length ∧
      requests.countP Exchange.isWithdraw =
        report.withdrawalsRetried + lifted.countP (fun entry => entry.2.announced) ∧
      report.sinkErrors = requests.countP Exchange.failed := by
  obtain ⟨taken, breaches, banned, bans, expired, announced, retried, withdrawn, failed⟩ :=
    e.balances_runCycle w observations now
  have hlog := e.exchanges_runCycle w observations now
  rw [hlog, List.countP_append] at announced withdrawn failed
  refine ⟨hlog, taken, breaches, banned, bans, expired, ?_, retried, ?_, ?_⟩
  · exact Nat.add_left_cancel (announced.trans (Nat.add_assoc _ _ _))
  · exact Nat.add_left_cancel (withdrawn.trans (Nat.add_assoc _ _ _))
  · exact Nat.add_left_cancel failed.symm

/-- A network with a group whose attacks are seen but not banned for. -/
def sparedGroup : Config :=
  { minuteBans with
    groups := [
      { name := "spared"
        networks := ["10.1.0.0/16"]
        settings := some { minuteBans.settings with enableBan := false } }] }

def attackOn (address : BitVec 32) : Observation :=
  { attackedHost with entity := .host (.v4 address) }

/-- Surroundings in which the announcer accepts the first two requests and the eighth. -/
def acceptingThrice : World where
  reply := fun i _ => if i ∈ [0, 1, 7] then none else some (.unavailable "no route")
  draw := fun _ => .ok .nil

/-- An engine with two bans, one of which has its rule accepted, and with a rule that is still to be
withdrawn. -/
def halfAccepted : Engine :=
  (fresh sparedGroup).run acceptingThrice
    [.cycle [attackedHost, attackOn 0x0a000002] 7, .unban (.host (.v4 0x0a000002)),
      .cycle [attackOn 0x0a000003] 8]

/-- One attack of each sort, an end of an attack, and traffic of a network of somebody else. -/
def mixedObservations : List Observation :=
  [attackOn 0x0a000003, attackOn 0x0a010001, attackOn 0x0a000004,
    { attackedHost with average := {} }, attackOn 0x0b000001]

def mixedReport : CycleReport where
  evaluated := 4
  unmonitored := 1
  breaches := 3
  banDisabled := 1
  bansCreated := 1
  bansUpdated := 1
  bansRefreshed := 1
  bansExpired := 1
  announcesRetried := 1
  withdrawalsRetried := 1
  sinkErrors := 3

theorem report_adds_up_of_mixedObservations :
    let c := halfAccepted.runCycle acceptingThrice mixedObservations 67
    let requests := halfAccepted.requestsBy acceptingThrice mixedObservations 67
    c.report = mixedReport ∧
      halfAccepted.pending.length = 1 ∧
      c.engine.bans.size = halfAccepted.bans.size ∧
      requests.countP Exchange.isAnnounce = 2 ∧
      requests.countP Exchange.isWithdraw = 2 ∧
      requests.countP Exchange.failed = 3 := by
  intro c requests
  have hreport : c.report = mixedReport := by decide +kernel
  have hlifted : (halfAccepted.liftedBy acceptingThrice mixedObservations 67).countP
      (fun entry => entry.2.announced) = 1 := by decide +kernel
  obtain ⟨-, -, -, -, hbans, -, hannounced, hretried, hwithdrawn, hfailed⟩ :=
    report_adds_up acceptingThrice halfAccepted mixedObservations 67
  change c.engine.bans.size + c.report.bansExpired = _ + c.report.bansCreated at hbans
  change requests.countP _ = c.report.bansCreated + c.report.announcesRetried at hannounced
  change c.report.withdrawalsRetried = _ at hretried
  change requests.countP _ = c.report.withdrawalsRetried + _ at hwithdrawn
  change c.report.sinkErrors = requests.countP _ at hfailed
  rw [hreport] at hbans hannounced hretried hwithdrawn hfailed
  rw [hlifted] at hwithdrawn
  exact ⟨hreport, hretried.symm, Nat.add_right_cancel hbans, hannounced, hwithdrawn, hfailed.symm⟩

end Engine

end FloodGuard

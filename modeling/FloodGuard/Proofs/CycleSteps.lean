import FloodGuard.Proofs.EngineSteps

/-!
The parts of a cycle, and what each does to the engine. With a report beside it a step counts what
it did; the engine that comes out is the one of the step without the report. What an observation
leads to, and what it counts toward, is told by what is known of its entity. So a cycle retries the
pending withdrawals, lets the engine react to one observation after the other, and lifts the bans
whose time is over.
-/
namespace FloodGuard

/-- What an observation counts toward in the report of a cycle, requests apart. -/
def Engine.tally (e : Engine) (o : Observation) (r : CycleReport) : CycleReport :=
  match e.lookup o.entity.address with
  | none => { r with unmonitored := r.unmonitored + 1 }
  | some found =>
    let settings := e.policies.settingsFor found.group
    let met := { r with evaluated := r.evaluated + 1 }
    let kept := fun s : CycleReport =>
      if e.bans.isBanned o.entity then { s with bansRefreshed := s.bansRefreshed + 1 } else s
    match settings.evaluate found.group o.average o.entity.isV6 with
    | none => kept met
    | some _ =>
      let breached := { met with breaches := met.breaches + 1 }
      if settings.enableBan then
        if e.bans.isBanned o.entity then { breached with bansUpdated := breached.bansUpdated + 1 }
        else { breached with bansCreated := breached.bansCreated + 1 }
      else kept { breached with banDisabled := breached.banDisabled + 1 }

namespace Cycle

theorem announce_engine (w : World) (entity : Network) (attack : Attack) (c : Cycle) :
    (announce w entity attack c).engine = c.engine.announce w entity attack := by
  cases h : c.engine.failure? w (.announce (c.engine.ruleFor entity attack)) with
  | none => simp only [announce, Engine.announce, h]
  | some reason => simp only [announce, Engine.announce, addSinkError, h]

theorem retryAnnounce_engine (w : World) (entity : Network) (attack : Attack) (c : Cycle) :
    (retryAnnounce w entity attack c).engine = c.engine.assure w entity attack := by
  simp only [retryAnnounce, Engine.assure]
  split
  · rfl
  · rw [announce_engine]

theorem withdrawRule_engine (w : World) (entity : Network) (rule : Rule) (c : Cycle) :
    (withdrawRule w entity rule c).engine = c.engine.withdraw w entity rule := by
  cases h : c.engine.failure? w (.withdraw rule) with
  | none => simp only [withdrawRule, Engine.withdraw, h]
  | some reason =>
    rw [Engine.withdraw_of_failure h]
    simp only [withdrawRule, addSinkError, h]
    rfl

theorem lift_engine (w : World) (c : Cycle) (entry : Network × Attack) :
    (lift w c entry).engine = c.engine.release w entry := by
  simp only [lift, Engine.release]
  split
  · rw [withdrawRule_engine]
  · rfl

theorem findReflector_eq (order : ReflectorOrder) {entity : Network} {attack : Attack} {c : Cycle}
    (h : c.engine.bans.get? entity = some attack) (hnone : attack.reflector = none) :
    findReflector order entity attack c =
      ⟨c.engine.withBan entity
        { attack with reflector := c.engine.reflectorBehind order entity attack }, c.report⟩ := by
  have hsame : c.engine.withBan entity { attack with reflector := none } = c.engine := by
    rw [← hnone, Engine.withBan, BanList.put_of_get? h]
  simp only [findReflector, Engine.reflectorBehind]
  split
  · cases hr : c.engine.sessions.reflectorOf entity.address order with
    | none => simp only [hsame]
    | some reflector =>
      simp only [BanList.setReflector_eq, BanList.update_of_some h]
      rfl
  · simp only [hsame]

/-- A breach of a banned entity refreshes its record and sees to its rule. -/
theorem ban_of_some {w : World} {o : Observation} {c : Cycle} {a : Attack}
    (h : c.engine.bans.get? o.entity = some a) (breach : Breach) (context : BanContext)
    (now : UInt64) :
    ban w o breach context now c =
      retryAnnounce w o.entity (a.refresh o.average)
        { engine := c.engine.withBan o.entity (a.refresh o.average)
          report := { c.report with bansUpdated := c.report.bansUpdated + 1 } } := by
  simp only [ban, BanList.ban_of_some h, BanList.get?_put_self]
  rfl

/-- A breach of an entity that is not banned starts a ban and announces its rule. -/
theorem ban_of_none {w : World} {o : Observation} {c : Cycle}
    (h : c.engine.bans.get? o.entity = none) (breach : Breach) (context : BanContext)
    (now : UInt64) :
    ban w o breach context now c =
      announce w o.entity (c.engine.newAttack w o breach context now)
        { engine := c.engine.startBan w o breach context now
          report := { c.report with bansCreated := c.report.bansCreated + 1 } } := by
  obtain ⟨identified, hban⟩ := BanList.ban_of_none h breach o.current o.average context now
    (w.draw c.engine.draws)
  simp only [ban, hban]
  rw [findReflector_eq _ (BanList.get?_put_self _ _ _) rfl]
  simp only [Engine.withBan, BanList.get?_put_self, BanList.put_put, Option.getD_some]
  rfl

theorem refresh_of_some {w : World} {o : Observation} {c : Cycle} {a : Attack}
    (h : c.engine.bans.get? o.entity = some a) :
    refresh w o c =
      retryAnnounce w o.entity (a.refresh o.average)
        { engine := c.engine.withBan o.entity (a.refresh o.average)
          report := { c.report with bansRefreshed := c.report.bansRefreshed + 1 } } := by
  simp only [refresh, BanList.refreshBan, BanList.change_of_some h]
  rfl

theorem refresh_of_none {w : World} {o : Observation} {c : Cycle}
    (h : c.engine.bans.get? o.entity = none) : refresh w o c = c := by
  simp only [refresh, BanList.refreshBan, BanList.change_of_none h]

section

variable (w : World) (now : UInt64) {c : Cycle} {o : Observation}

/-- The same cycle with the report counted on for an observation. -/
def counting (c : Cycle) (o : Observation) : Cycle := { c with report := c.engine.tally o c.report }

theorem evaluate_of_unmonitored (h : c.engine.lookup o.entity.address = none) :
    evaluate w now c o = c.counting o := by
  simp only [evaluate, counting, Engine.tally, h]

/-- A banned entity that is monitored goes on with a refreshed record, whether or not there is a
breach. -/
theorem evaluate_of_banned {found : GroupMatch} {a : Attack}
    (hfound : c.engine.lookup o.entity.address = some found)
    (hban : c.engine.bans.get? o.entity = some a) :
    evaluate w now c o =
      retryAnnounce w o.entity (a.refresh o.average)
        { c.counting o with engine := c.engine.withBan o.entity (a.refresh o.average) } := by
  have hbanned := BanList.isBanned_of_some hban
  simp only [evaluate, evaluateIn, counting, Engine.tally, hfound, hbanned, if_true]
  cases (c.engine.policies.settingsFor found.group).evaluate found.group o.average
      o.entity.isV6 with
  | none =>
    simp only []
    rw [refresh_of_some (by exact hban)]
  | some breach =>
    simp only []
    split
    · rw [ban_of_some (by exact hban)]
    · rw [refresh_of_some (by exact hban)]

/-- A free entity that is charged is banned, and its rule announced. -/
theorem evaluate_of_charged {breach : Breach} {context : BanContext}
    (hfree : c.engine.bans.get? o.entity = none)
    (hcharge : c.engine.charge? o = some (breach, context)) :
    evaluate w now c o =
      announce w o.entity (c.engine.newAttack w o breach context now)
        { c.counting o with engine := c.engine.startBan w o breach context now } := by
  have hnot := BanList.isBanned_of_none hfree
  cases hfound : c.engine.lookup o.entity.address with
  | none => simp [Engine.charge?, hfound] at hcharge
  | some found =>
    simp only [Engine.charge?, hfound, Option.bind_eq_bind, Option.bind_some,
      Option.bind_eq_some_iff] at hcharge
    obtain ⟨revealed, hevaluate, hcontext⟩ := hcharge
    simp only [evaluate, evaluateIn, counting, Engine.tally, hfound, hevaluate, hnot,
      Bool.false_eq_true, if_false]
    split at hcontext
    · rename_i henabled
      cases hcontext
      rw [if_pos henabled, if_pos henabled, ban_of_none (by exact hfree)]
    · exact absurd hcontext (by simp)

/-- A free entity that is not charged is only counted. -/
theorem evaluate_of_uncharged (hfree : c.engine.bans.get? o.entity = none)
    (hcharge : c.engine.charge? o = none) : evaluate w now c o = c.counting o := by
  have hnot := BanList.isBanned_of_none hfree
  cases hfound : c.engine.lookup o.entity.address with
  | none => exact evaluate_of_unmonitored w now hfound
  | some found =>
    simp only [Engine.charge?, hfound, Option.bind_eq_bind, Option.bind_some] at hcharge
    simp only [evaluate, evaluateIn, counting, Engine.tally, hfound, hnot, Bool.false_eq_true,
      if_false]
    cases hevaluate : (c.engine.policies.settingsFor found.group).evaluate found.group o.average
        o.entity.isV6 with
    | none =>
      simp only []
      rw [refresh_of_none (by exact hfree)]
    | some breach =>
      rw [hevaluate, Option.bind_some] at hcharge
      split at hcharge
      · exact absurd hcharge (by simp)
      · rename_i hdisabled
        simp only []
        rw [if_neg hdisabled, if_neg hdisabled, refresh_of_none (by exact hfree)]

end

/-- Counted or not, an observation is what the engine reacts to. -/
theorem evaluate_engine (w : World) (now : UInt64) (c : Cycle) (o : Observation) :
    (evaluate w now c o).engine = c.engine.react w now o := by
  cases hban : c.engine.bans.get? o.entity with
  | none =>
    cases hcharge : c.engine.charge? o with
    | none =>
      rw [evaluate_of_uncharged w now hban hcharge, Engine.react_of_uncharged hban hcharge]
      rfl
    | some charge =>
      rw [evaluate_of_charged w now hban hcharge, announce_engine,
        Engine.react_of_charged hban hcharge]
  | some a =>
    cases hfound : c.engine.lookup o.entity.address with
    | none =>
      rw [evaluate_of_unmonitored w now hfound, Engine.react_of_unmonitored hfound]
      rfl
    | some found =>
      rw [evaluate_of_banned w now hfound hban, retryAnnounce_engine,
        Engine.react_of_banned hfound hban]

end Cycle

namespace Engine

/-- The engine after retrying all pending withdrawals. -/
def retry (w : World) (e : Engine) : Engine :=
  e.pending.foldl (fun f entry => f.withdraw w entry.1 entry.2) (e.withPending [])

/-- The engine after lifting the bans whose time is over. -/
def expire (w : World) (now : UInt64) (e : Engine) : Engine :=
  (e.bans.over now).foldl (release w) { e with bans := e.bans.sweep now }

/-- A cycle up to the point where bans are lifted. -/
def detect (w : World) (e : Engine) (observations : List Observation) (now : UInt64) : Cycle :=
  observations.foldl (Cycle.evaluate w now) (Cycle.retryWithdrawals w { engine := e })

theorem runCycle_eq (w : World) (e : Engine) (observations : List Observation) (now : UInt64) :
    e.runCycle w observations now =
      ((e.detect w observations now).expire w now).observe observations now := rfl

theorem retryWithdrawals_engine (w : World) (c : Cycle) :
    (Cycle.retryWithdrawals w c).engine = c.engine.retry w := by
  unfold Cycle.retryWithdrawals retry
  rw [← List.foldl_hom Cycle.engine]
  · rfl
  · intro d entry
    rw [Cycle.retryWithdrawal, Cycle.withdrawRule_engine]

theorem foldl_evaluate_engine (w : World) (now : UInt64) (observations : List Observation)
    (c : Cycle) :
    (observations.foldl (Cycle.evaluate w now) c).engine =
      observations.foldl (react w now) c.engine := by
  rw [← List.foldl_hom Cycle.engine]
  intro d o
  rw [Cycle.evaluate_engine]

theorem detect_engine (w : World) (e : Engine) (observations : List Observation) (now : UInt64) :
    (e.detect w observations now).engine = observations.foldl (react w now) (e.retry w) := by
  rw [detect, foldl_evaluate_engine, retryWithdrawals_engine]

theorem expire_engine (w : World) (now : UInt64) (c : Cycle) :
    (c.expire w now).engine = c.engine.expire w now := by
  have hlift := fun d entry => (Cycle.lift_engine w d entry).symm
  exact (List.foldl_hom Cycle.engine hlift).symm

theorem runCycle_engine (w : World) (e : Engine) (observations : List Observation)
    (now : UInt64) :
    (e.runCycle w observations now).engine =
      { (e.detect w observations now).engine.expire w now with
        traffic := ((e.detect w observations now).engine.expire w now).traffic.update
          observations now } := by
  rw [runCycle_eq, ← expire_engine]
  rfl

/-- A step that only adds to the record of requests does so over a whole list. -/
theorem prefix_exchanges_foldl {α : Type} {f : Engine → α → Engine}
    (hf : ∀ e x, e.exchanges <+: (f e x).exchanges) (xs : List α) (e : Engine) :
    e.exchanges <+: (xs.foldl f e).exchanges :=
  List.foldlRecOn xs f (motive := fun g => e.exchanges <+: g.exchanges) List.prefix_rfl
    fun g hg x _ => hg.trans (hf g x)

theorem prefix_exchanges_runCycle (w : World) (e : Engine) (observations : List Observation)
    (now : UInt64) : e.exchanges <+: (e.runCycle w observations now).engine.exchanges := by
  rw [runCycle_engine, detect_engine]
  have hwithdraw : ∀ (f : Engine) (entry : Network × Rule),
      f.exchanges <+: (f.withdraw w entry.1 entry.2).exchanges :=
    fun f entry => prefix_exchanges_withdraw w f entry.1 entry.2
  have hretry : e.exchanges <+: (e.retry w).exchanges :=
    prefix_exchanges_foldl hwithdraw e.pending (e.withPending [])
  have hreact := prefix_exchanges_foldl (prefix_exchanges_react w now) observations (e.retry w)
  have hexpire := prefix_exchanges_foldl (prefix_exchanges_release w)
    ((observations.foldl (react w now) (e.retry w)).bans.over now)
    { observations.foldl (react w now) (e.retry w) with
      bans := (observations.foldl (react w now) (e.retry w)).bans.sweep now }
  exact (hretry.trans hreact).trans hexpire

theorem keeps_retry (w : World) (e : Engine) : e.Keeps (e.retry w) := by
  have hpending : e.Keeps (e.withPending []) := ⟨rfl, rfl, rfl, rfl, rfl, rfl⟩
  have hstep : ∀ (f : Engine) (entry : Network × Rule), f.Keeps (f.withdraw w entry.1 entry.2) :=
    fun f entry => keeps_withdraw w f entry.1 entry.2
  exact hpending.trans (.foldl hstep e.pending (e.withPending []))

theorem keeps_detect (w : World) (e : Engine) (observations : List Observation) (now : UInt64) :
    e.Keeps (e.detect w observations now).engine := by
  rw [detect_engine]
  exact (keeps_retry w e).trans (.foldl (keeps_react w now) _ _)

theorem keeps_expire (w : World) (now : UInt64) (e : Engine) : e.Keeps (e.expire w now) :=
  (keeps_withBans e (e.bans.sweep now)).trans (.foldl (keeps_release w) _ _)

/-- Whatever happens in a cycle, in the end it takes over the traffic that was observed. -/
theorem traffic_runCycle (w : World) (e : Engine) (observations : List Observation)
    (now : UInt64) :
    (e.runCycle w observations now).engine.traffic = e.traffic.update observations now := by
  have hkeeps := (keeps_detect w e observations now).trans (keeps_expire w now _)
  rw [runCycle_engine]
  exact congrArg (fun traffic => traffic.update observations now) hkeeps.traffic

end Engine

end FloodGuard

import FloodGuard.Proofs.Runs

/-!
Detection does not depend on the surroundings. The announcer and the source of identifiers decide
the identifiers, which rules count as accepted, and the queue of withdrawals; everything else of two
engines stays alike whatever they answer. A request leaves an engine alike to itself, and each step
takes alike engines to alike engines, so the two runs are compared step by step.
-/
namespace FloodGuard

/-- The record of an attack without what the surroundings decide. -/
def Attack.detected (a : Attack) : Attack := { a with uuid := .nil, announced := false }

/-- The report of a cycle without what the surroundings decide. -/
def CycleReport.detected (r : CycleReport) : CycleReport :=
  { r with announcesRetried := 0, withdrawalsRetried := 0, sinkErrors := 0 }

namespace Attack

theorem detected_refresh {a b : Attack} (h : a.detected = b.detected) (average : Counters) :
    (a.refresh average).detected = (b.refresh average).detected := by
  have hrefresh : ∀ c : Attack, (c.refresh average).detected = c.detected.refresh average := by
    intro c
    rw [refresh_eq, refresh_eq]
    rfl
  rw [hrefresh, hrefresh, h]

end Attack

namespace BanList

/-- Whether two lists differ at most in what the surroundings decide. -/
def Alike (l m : BanList) : Prop :=
  ∀ entity, (l.get? entity).map Attack.detected = (m.get? entity).map Attack.detected

theorem alike_setAnnounced (l : BanList) (entity : Network) (announced : Bool) :
    l.Alike (l.setAnnounced entity announced) := by
  intro other
  rw [setAnnounced_eq, get?_update]
  split
  · rw [Option.map_map]
    rfl
  · rfl

theorem Alike.put {l m : BanList} (h : l.Alike m) (entity : Network) {a b : Attack}
    (hab : a.detected = b.detected) : (l.put entity a).Alike (m.put entity b) := by
  intro other
  rw [get?_put, get?_put]
  split
  · exact congrArg some hab
  · exact h other

theorem Alike.unban {l m : BanList} (h : l.Alike m) (entity : Network) :
    (l.unban entity).Alike (m.unban entity) := by
  intro other
  rw [get?_unban, get?_unban]
  split
  · rfl
  · exact h other

theorem Alike.map_eq {l m : BanList} (h : l.Alike m) :
    l.map Attack.detected = m.map Attack.detected := by
  apply ext
  intro entity
  rw [get?_map, get?_map, h entity]

theorem Alike.sweep {l m : BanList} (h : l.Alike m) (now : UInt64) :
    (l.sweep now).Alike (m.sweep now) := by
  intro entity
  rw [← get?_map, ← get?_map, map_sweep l Attack.detected now fun _ => rfl,
    map_sweep m Attack.detected now fun _ => rfl, h.map_eq]

theorem Alike.isBanned {l m : BanList} (h : l.Alike m) (entity : Network) :
    m.isBanned entity = l.isBanned entity := by
  have hsome := congrArg Option.isSome (h entity)
  rw [Option.isSome_map, Option.isSome_map] at hsome
  exact hsome.symm

/-- Alike lists have the same bans to be lifted, whose records are alike as well. -/
theorem Alike.length_over {l m : BanList} (h : l.Alike m) (now : UInt64) :
    (m.over now).length = (l.over now).length := by
  have hcount : ∀ n : BanList, (n.over now).length = ((n.map Attack.detected).over now).length := by
    intro n
    rw [over_map n Attack.detected now fun _ => rfl, List.length_map]
  rw [hcount m, hcount l, h.map_eq]

end BanList

namespace Engine

theorem Keeps.symm {e f : Engine} (h : e.Keeps f) : f.Keeps e :=
  ⟨h.table.symm, h.policies.symm, h.action.symm, h.intervals.symm, h.traffic.symm,
    h.sessions.symm⟩

/-- Whether two engines differ at most in what the surroundings decide. -/
structure Alike (e f : Engine) : Prop where
  keeps : e.Keeps f
  bans : e.bans.Alike f.bans
  draws : f.draws = e.draws

theorem Alike.refl (e : Engine) : e.Alike e := ⟨.refl e, fun _ => rfl, rfl⟩

theorem Alike.symm {e f : Engine} (h : e.Alike f) : f.Alike e :=
  ⟨h.keeps.symm, fun entity => (h.bans entity).symm, h.draws.symm⟩

theorem Alike.trans {e f g : Engine} (hef : e.Alike f) (hfg : f.Alike g) : e.Alike g :=
  ⟨hef.keeps.trans hfg.keeps, fun entity => (hef.bans entity).trans (hfg.bans entity),
    hfg.draws.trans hef.draws⟩

/-- What leaves each of two alike engines alike to itself leaves them alike. -/
theorem Alike.both {e e' f f' : Engine} (h : e.Alike f) (he : e.Alike e') (hf : f.Alike f') :
    e'.Alike f' := (he.symm.trans h).trans hf

theorem Alike.foldl_self {α : Type} {step : Engine → α → Engine}
    (hstep : ∀ e x, Alike e (step e x)) (xs : List α) (e : Engine) :
    e.Alike (xs.foldl step e) :=
  List.foldlRecOn xs step (.refl e) fun f hf x _ => hf.trans (hstep f x)

theorem alike_announce (w : World) (e : Engine) (entity : Network) (a : Attack) :
    e.Alike (e.announce w entity a) := by
  have hkeeps := keeps_announce w e entity a
  cases h : e.failure? w (.announce (e.ruleFor entity a)) with
  | none =>
    rw [announce_of_success h] at hkeeps ⊢
    exact ⟨hkeeps, BanList.alike_setAnnounced e.bans entity true, rfl⟩
  | some reason =>
    rw [announce_of_failure h] at hkeeps ⊢
    exact ⟨hkeeps, fun _ => rfl, rfl⟩

theorem alike_assure (w : World) (e : Engine) (entity : Network) (a : Attack) :
    e.Alike (e.assure w entity a) := by
  unfold assure
  split
  · exact .refl e
  · exact alike_announce w e entity a

theorem alike_withdraw (w : World) (e : Engine) (entity : Network) (rule : Rule) :
    e.Alike (e.withdraw w entity rule) := by
  have hkeeps := keeps_withdraw w e entity rule
  cases h : e.failure? w (.withdraw rule) with
  | none =>
    rw [withdraw_of_success h] at hkeeps ⊢
    exact ⟨hkeeps, fun _ => rfl, rfl⟩
  | some reason =>
    rw [withdraw_of_failure h] at hkeeps ⊢
    exact ⟨hkeeps, fun _ => rfl, rfl⟩

theorem alike_release (w : World) (e : Engine) (entry : Network × Attack) :
    e.Alike (e.release w entry) := by
  unfold release
  split
  · exact alike_withdraw w e _ _
  · exact .refl e

theorem alike_retry (w : World) (e : Engine) : e.Alike (e.retry w) := by
  have hpending : e.Alike (e.withPending []) :=
    ⟨⟨rfl, rfl, rfl, rfl, rfl, rfl⟩, fun _ => rfl, rfl⟩
  exact hpending.trans
    (.foldl_self (fun f entry => alike_withdraw w f entry.1 entry.2) e.pending _)

section

variable {e f : Engine}

theorem Alike.withBans (h : e.Alike f) {l m : BanList} (hbans : l.Alike m) :
    (e.withBans l).Alike (f.withBans m) := ⟨{ h.keeps with }, hbans, h.draws⟩

theorem Alike.withBan (h : e.Alike f) (entity : Network) {a b : Attack}
    (hab : a.detected = b.detected) : (e.withBan entity a).Alike (f.withBan entity b) :=
  h.withBans (h.bans.put entity hab)

theorem Alike.withoutBan (h : e.Alike f) (entity : Network) :
    (e.withoutBan entity).Alike (f.withoutBan entity) := h.withBans (h.bans.unban entity)

theorem Alike.lookup_eq (h : e.Alike f) (address : Address) :
    f.lookup address = e.lookup address := by
  rw [lookup, lookup, h.keeps.table]

end

/-! Two surroundings that compare the reflectors behind new attacks in the same orders. -/

section

variable {w v : World} (hcompared : v.compared = w.compared) {e f : Engine}

include hcompared

/-- A new record is alike in alike engines, since only its identifier is drawn. -/
theorem Alike.detected_newAttack (h : e.Alike f) (o : Observation) (breach : Breach)
    (context : BanContext) (now : UInt64) :
    (e.newAttack w o breach context now).detected =
      (f.newAttack v o breach context now).detected := by
  have hrecord : ∀ (u : World) (g : Engine), (g.newAttack u o breach context now).detected =
      g.attackOf (u.compared g.draws) o breach context now := fun _ _ => rfl
  rw [hrecord, hrecord, h.keeps.attackOf_eq, h.draws, hcompared]

theorem Alike.startBan (h : e.Alike f) (o : Observation) (breach : Breach) (context : BanContext)
    (now : UInt64) :
    (e.startBan w o breach context now).Alike (f.startBan v o breach context now) := by
  have hban := h.withBan o.entity (h.detected_newAttack hcompared o breach context now)
  exact ⟨{ hban.keeps with }, hban.bans, congrArg (· + 1) h.draws⟩

theorem Alike.react (h : e.Alike f) (now : UInt64) (o : Observation) :
    (e.react w now o).Alike (f.react v now o) := by
  have hrecord := h.bans o.entity
  unfold Engine.react
  rw [h.lookup_eq]
  cases e.lookup o.entity.address with
  | none => exact h
  | some found =>
    cases he : e.bans.get? o.entity with
    | none =>
      have hf : f.bans.get? o.entity = none := by
        rw [he] at hrecord
        exact Option.map_eq_none_iff.1 hrecord.symm
      simp only [hf, h.keeps.charge?_eq]
      cases e.charge? o with
      | none => exact h
      | some charge =>
        exact (h.startBan hcompared o charge.1 charge.2 now).both (alike_announce w _ _ _)
          (alike_announce v _ _ _)
    | some a =>
      obtain ⟨b, hf, hab⟩ : ∃ b, f.bans.get? o.entity = some b ∧ b.detected = a.detected := by
        rw [he] at hrecord
        exact Option.map_eq_some_iff.1 hrecord.symm
      simp only [hf]
      exact (h.withBan o.entity (Attack.detected_refresh hab.symm o.average)).both
        (alike_assure w _ _ _) (alike_assure v _ _ _)

theorem Alike.foldl_react (h : e.Alike f) (now : UInt64) (observations : List Observation) :
    (observations.foldl (Engine.react w now) e).Alike
      (observations.foldl (Engine.react v now) f) :=
  List.foldl_rel h fun o _ _ _ hboth => hboth.react hcompared now o

theorem Alike.detect (h : e.Alike f) (observations : List Observation) (now : UInt64) :
    (e.detect w observations now).engine.Alike (f.detect v observations now).engine := by
  rw [detect_engine, detect_engine]
  exact (h.both (alike_retry w e) (alike_retry v f)).foldl_react hcompared now observations

omit hcompared in
theorem Alike.expire (h : e.Alike f) (now : UInt64) : (e.expire w now).Alike (f.expire v now) := by
  have hswept := h.withBans (h.bans.sweep now)
  exact hswept.both (.foldl_self (alike_release w) _ _) (.foldl_self (alike_release v) _ _)

theorem Alike.runCycle (h : e.Alike f) (observations : List Observation) (now : UInt64) :
    (e.runCycle w observations now).engine.Alike (f.runCycle v observations now).engine := by
  have hexpired := (h.detect hcompared observations now).expire (w := w) (v := v) now
  rw [runCycle_engine, runCycle_engine]
  have htraffic := congrArg (fun traffic => traffic.update observations now) hexpired.keeps.traffic
  exact ⟨{ hexpired.keeps with traffic := htraffic }, hexpired.bans, hexpired.draws⟩

omit hcompared in
theorem Alike.unban (h : e.Alike f) (entity : Network) :
    (e.unban w entity).2.Alike (f.unban v entity).2 := by
  have hlifted := h.withoutBan entity
  have hsame : ∀ {g : Engine}, g.bans.get? entity = none → g.withoutBan entity = g := by
    intro g hnone
    rw [Engine.withoutBan, BanList.unban_of_none hnone]
  have hself : ∀ (u : World) (g : Engine), (g.withoutBan entity).Alike (g.unban u entity).2 := by
    intro u g
    rw [unban_snd]
    split
    · exact alike_release u _ _
    · rename_i hnone
      rw [hsame hnone]
      exact .refl g
  exact hlifted.both (hself w e) (hself v f)

/-- Every operation keeps alike engines alike. -/
theorem Alike.step (h : e.Alike f) (op : Operation) : (e.step w op).Alike (f.step v op) := by
  cases op with
  | cycle observations now => exact h.runCycle hcompared observations now
  | unban entity => exact h.unban entity
  | reload c => exact ⟨{ h.keeps with table := rfl, policies := rfl }, h.bans, h.draws⟩
  | record key bytes now =>
    have hsessions := congrArg (fun sessions => sessions.record key bytes now) h.keeps.sessions
    exact ⟨{ h.keeps with sessions := hsessions }, h.bans, h.draws⟩
  | sweepSessions now window =>
    have hsessions := congrArg (fun sessions => sessions.sweep now window) h.keeps.sessions
    exact ⟨{ h.keeps with sessions := hsessions }, h.bans, h.draws⟩

theorem Alike.run (h : e.Alike f) (ops : List Operation) : (e.run w ops).Alike (f.run v ops) :=
  List.foldl_rel h fun op _ _ _ hboth => hboth.step hcompared op

end

theorem detected_tally (e : Engine) (o : Observation) (r : CycleReport) :
    (e.tally o r).detected = e.tally o r.detected := by
  unfold tally
  cases e.lookup o.entity.address with
  | none => rfl
  | some found =>
    simp only []
    cases (e.policies.settingsFor found.group).evaluate found.group o.average o.entity.isV6 with
    | none =>
      simp only []
      split <;> rfl
    | some breach =>
      simp only []
      split
      · split <;> rfl
      · split <;> rfl

theorem Alike.tally_eq {e f : Engine} (h : e.Alike f) (o : Observation) (r : CycleReport) :
    f.tally o r = e.tally o r := by
  unfold tally
  rw [h.lookup_eq, h.keeps.policies, h.bans.isBanned]

end Engine

namespace Cycle

theorem announce_detected (w : World) (entity : Network) (a : Attack) (c : Cycle) :
    (announce w entity a c).report.detected = c.report.detected := by
  cases h : c.engine.failure? w (.announce (c.engine.ruleFor entity a)) with
  | none => simp only [announce, h]
  | some reason =>
    simp only [announce, h]
    rfl

theorem retryAnnounce_detected (w : World) (entity : Network) (a : Attack) (c : Cycle) :
    (retryAnnounce w entity a c).report.detected = c.report.detected := by
  unfold retryAnnounce
  split
  · rfl
  · rw [announce_detected]
    rfl

theorem withdrawRule_detected (w : World) (entity : Network) (rule : Rule) (c : Cycle) :
    (withdrawRule w entity rule c).report.detected = c.report.detected := by
  cases h : c.engine.failure? w (.withdraw rule) with
  | none => simp only [withdrawRule, h]
  | some reason =>
    simp only [withdrawRule, h]
    rfl

/-- An observation counts toward the report as its tally says. -/
theorem evaluate_detected (w : World) (now : UInt64) (c : Cycle) (o : Observation) :
    (evaluate w now c o).report.detected = (c.engine.tally o c.report).detected := by
  cases hban : c.engine.bans.get? o.entity with
  | none =>
    cases hcharge : c.engine.charge? o with
    | none =>
      rw [evaluate_of_uncharged w now hban hcharge]
      rfl
    | some charge =>
      rw [evaluate_of_charged w now hban hcharge, announce_detected]
      rfl
  | some a =>
    cases hfound : c.engine.lookup o.entity.address with
    | none =>
      rw [evaluate_of_unmonitored w now hfound]
      rfl
    | some found =>
      rw [evaluate_of_banned w now hfound hban, retryAnnounce_detected]
      rfl

theorem lift_detected (w : World) (c : Cycle) (entry : Network × Attack) :
    (lift w c entry).report.detected =
      { c.report.detected with bansExpired := c.report.bansExpired + 1 } := by
  unfold lift
  split
  · rw [withdrawRule_detected]
    rfl
  · rfl

theorem expire_detected (w : World) (now : UInt64) (c : Cycle) :
    (c.expire w now).report.detected =
      { c.report.detected with
        bansExpired := c.report.bansExpired + (c.engine.bans.over now).length } := by
  have hcount : ∀ (entries : List (Network × Attack)) (d : Cycle),
      (entries.foldl (lift w) d).report.detected =
        { d.report.detected with bansExpired := d.report.bansExpired + entries.length } := by
    intro entries
    induction entries with
    | nil => intro d; rfl
    | cons entry rest ih =>
      intro d
      have hexpired := congrArg CycleReport.bansExpired (lift_detected w d entry)
      change (lift w d entry).report.bansExpired = d.report.bansExpired + 1 at hexpired
      have hlength : d.report.bansExpired + 1 + rest.length =
          d.report.bansExpired + (entry :: rest).length := by
        rw [List.length_cons]
        omega
      rw [List.foldl_cons, ih, lift_detected, hexpired, hlength]
  exact hcount _ _

/-- Whether two cycles differ at most in what the surroundings decide. -/
structure Alike (c d : Cycle) : Prop where
  engine : c.engine.Alike d.engine
  report : c.report.detected = d.report.detected

theorem retryWithdrawals_detected (w : World) (c : Cycle) :
    (retryWithdrawals w c).report.detected = c.report.detected := by
  unfold retryWithdrawals
  refine List.foldlRecOn c.engine.pending (retryWithdrawal w)
    (motive := fun d => d.report.detected = c.report.detected) ?_ ?_
  · rfl
  · intro d hd entry _
    rw [retryWithdrawal, withdrawRule_detected]
    exact hd

section

variable {w v : World} (hcompared : v.compared = w.compared) {c d : Cycle}

include hcompared

theorem Alike.evaluate (h : c.Alike d) (now : UInt64) (o : Observation) :
    (Cycle.evaluate w now c o).Alike (Cycle.evaluate v now d o) := by
  refine ⟨?_, ?_⟩
  · rw [evaluate_engine, evaluate_engine]
    exact h.engine.react hcompared now o
  · rw [evaluate_detected, evaluate_detected, h.engine.tally_eq, Engine.detected_tally,
      Engine.detected_tally, h.report]

theorem Alike.foldl_evaluate (h : c.Alike d) (now : UInt64) (observations : List Observation) :
    (observations.foldl (Cycle.evaluate w now) c).Alike
      (observations.foldl (Cycle.evaluate v now) d) :=
  List.foldl_rel h fun o _ _ _ hboth => hboth.evaluate hcompared now o

omit hcompared in
theorem Alike.expire (h : c.Alike d) (now : UInt64) : (c.expire w now).Alike (d.expire v now) := by
  refine ⟨?_, ?_⟩
  · rw [Engine.expire_engine, Engine.expire_engine]
    exact h.engine.expire now
  · have hexpired := congrArg CycleReport.bansExpired h.report
    change c.report.bansExpired = d.report.bansExpired at hexpired
    rw [expire_detected, expire_detected, h.report, hexpired, h.engine.bans.length_over]

end

end Cycle

namespace Engine

theorem Alike.report_runCycle {w v : World} (hcompared : v.compared = w.compared) {e f : Engine}
    (h : e.Alike f) (observations : List Observation) (now : UInt64) :
    (e.runCycle w observations now).report.detected =
      (f.runCycle v observations now).report.detected := by
  have hretried : Cycle.Alike (Cycle.retryWithdrawals w { engine := e })
      (Cycle.retryWithdrawals v { engine := f }) := by
    refine ⟨?_, ?_⟩
    · rw [retryWithdrawals_engine, retryWithdrawals_engine]
      exact h.both (alike_retry w e) (alike_retry v f)
    · rw [Cycle.retryWithdrawals_detected, Cycle.retryWithdrawals_detected]
  have hevaluated := hretried.foldl_evaluate hcompared now observations
  exact (hevaluated.expire now).report

/-- Two runs from one engine with the same operations agree on all that detection is about, whatever
the announcer and the source of identifiers answer in each of them: on the records of bans but for
identifiers and accepted rules, on the traffic, and on the report of every cycle. -/
theorem detection_independent (w : World) (reply : Nat → Request → Option MitigationError)
    (draw : Nat → Except UuidError Uuid) (e : Engine) (ops : List Operation) :
    let v : World := { w with reply, draw }
    let a := e.run w ops
    let b := e.run v ops
    (∀ entity, (a.bans.get? entity).map Attack.detected =
        (b.bans.get? entity).map Attack.detected) ∧
      a.traffic.totals = b.traffic.totals ∧
      (∀ ranking limit, a.topEntities ranking limit = b.topEntities ranking limit) ∧
      ∀ observations now,
        (a.runCycle w observations now).report.detected =
          (b.runCycle v observations now).report.detected := by
  intro v a b
  have hcompared : v.compared = w.compared := rfl
  have h : a.Alike b := (Alike.refl e).run hcompared ops
  refine ⟨h.bans, ?_, ?_, ?_⟩
  · rw [h.keeps.traffic]
  · intro ranking limit
    rw [topEntities, topEntities, h.keeps.traffic]
  · exact h.report_runCycle hcompared

end Engine

end FloodGuard

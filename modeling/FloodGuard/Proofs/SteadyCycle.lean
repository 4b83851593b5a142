import FloodGuard.Proofs.Effects
import FloodGuard.Proofs.Runs

/-!
A cycle while the announcer answers each request by the request alone, not by its number. Up to the
identifiers of attacks and the record of requests the cycle is then a function of the state before
it: it withdraws again what is pending, takes the effects of the observations, and lifts the bans
whose time is over. This plain cycle is compared with the real one step by step.
-/
namespace FloodGuard

/-- The record of an attack without its identifier. -/
def Attack.anonymous (a : Attack) : Attack := { a with uuid := .nil }

theorem Attack.anonymous_refresh (a : Attack) (average : Counters) :
    (a.refresh average).anonymous = a.anonymous.refresh average := by
  rw [refresh_eq, refresh_eq]
  rfl

/-- The list without identifiers. -/
def BanList.anonymous (l : BanList) : BanList := l.map Attack.anonymous

namespace Engine

/-- The engine without identifiers and without the record of requests. -/
def anonymous (e : Engine) : Engine :=
  { e with bans := e.bans.anonymous, exchanges := [], draws := 0 }

theorem keeps_anonymous (e : Engine) : e.Keeps e.anonymous := ⟨rfl, rfl, rfl, rfl, rfl, rfl⟩

theorem anonymous_withBan (e : Engine) (entity : Network) (a : Attack) :
    (e.withBan entity a).anonymous = e.anonymous.withBan entity a.anonymous := by
  unfold anonymous withBan BanList.anonymous
  rw [BanList.map_put]

theorem tally_anonymous (e : Engine) (o : Observation) (r : CycleReport) :
    e.anonymous.tally o r = e.tally o r := by
  have hbanned : e.anonymous.bans.isBanned o.entity = e.bans.isBanned o.entity := by
    rw [BanList.isBanned, anonymous, BanList.anonymous, BanList.get?_map, Option.isSome_map]
    rfl
  unfold tally
  rw [hbanned]
  rfl

end Engine

/-- Whether the announcer answers by the request alone from some request on. -/
def World.Steady (w : World) (answer : Request → Option MitigationError) (first : Nat) : Prop :=
  ∀ i request, first ≤ i → w.reply i request = answer request

theorem World.Steady.mono {w : World} {answer : Request → Option MitigationError} {m n : Nat}
    (h : w.Steady answer m) (hle : m ≤ n) : w.Steady answer n :=
  fun i request hi => h i request (Nat.le_trans hle hi)

namespace Cycle

/-- The cycle without identifiers and without the record of requests. -/
def anonymous (c : Cycle) : Cycle := { c with engine := c.engine.anonymous }

variable (answer : Request → Option MitigationError) (now : UInt64)

/-- The cycle after withdrawing a rule. -/
def withdrawn (entity : Network) (rule : Rule) (c : Cycle) : Cycle :=
  match answer (.withdraw rule) with
  | none => c
  | some _ =>
    addSinkError
      { c with engine := c.engine.withPending (c.engine.pending ++ [(entity, rule)]) }

/-- The cycle after retrying all pending withdrawals. -/
def retried (c : Cycle) : Cycle :=
  c.engine.pending.foldl
    (fun d entry => withdrawn answer entry.1 entry.2 { d with report :=
      { d.report with withdrawalsRetried := d.report.withdrawalsRetried + 1 } })
    { c with engine := c.engine.withPending [] }

/-- The cycle after withdrawing the rule of a lifted ban, if it was accepted. -/
def lifted (c : Cycle) (entry : Network × Attack) : Cycle :=
  let counted : Cycle :=
    { c with report := { c.report with bansExpired := c.report.bansExpired + 1 } }
  if entry.2.announced then withdrawn answer entry.1 (c.engine.ruleFor entry.1 entry.2) counted
  else counted

/-- The cycle after lifting the bans whose time is over. -/
def expired (c : Cycle) : Cycle :=
  (c.engine.bans.over now).foldl (lifted answer)
    { c with engine := c.engine.withBans (c.engine.bans.sweep now) }

section

variable {answer} {w : World} {c : Cycle}

theorem failure?_of_steady (h : w.Steady answer c.engine.exchanges.length) (request : Request) :
    c.engine.failure? w request = answer request := h _ request (Nat.le_refl _)

theorem anonymous_announce (h : w.Steady answer c.engine.exchanges.length) {entity : Network}
    {a : Attack} (hban : c.engine.bans.get? entity = some a) :
    (announce w entity a c).anonymous =
      c.anonymous.take entity (.announcing answer (c.engine.ruleFor entity a) a.anonymous) := by
  have hreply := failure?_of_steady h (.announce (c.engine.ruleFor entity a))
  cases hanswer : answer (.announce (c.engine.ruleFor entity a)) with
  | none =>
    rw [hanswer] at hreply
    have hbans : (c.engine.bans.setAnnounced entity true).anonymous =
        c.engine.bans.anonymous.put entity { a.anonymous with announced := true } := by
      rw [BanList.setAnnounced_eq, BanList.update_of_some hban, BanList.anonymous, BanList.map_put]
      rfl
    have hpending : c.engine.pending.filter (· ≠ (entity, c.engine.ruleFor entity a)) =
        c.engine.pending.filter fun entry =>
          entry.1 ≠ entity ∨ entry.2 ∉ [c.engine.ruleFor entity a] := by
      apply List.filter_congr
      intro entry _
      simp [Prod.ext_iff, or_iff_not_imp_left]
    have hdone : (announce w entity a c).anonymous =
        { c.anonymous with engine := { c.anonymous.engine with
          bans := (c.engine.bans.setAnnounced entity true).anonymous
          pending := c.engine.pending.filter (· ≠ (entity, c.engine.ruleFor entity a)) } } := by
      simp only [announce, hreply]
      rfl
    rw [hdone, hbans, hpending]
    simp only [Effect.announcing, hanswer]
    rfl
  | some reason =>
    rw [hanswer] at hreply
    simp only [announce, hreply, Effect.announcing, hanswer, take_unsettled]
    rfl

theorem anonymous_retryAnnounce (h : w.Steady answer c.engine.exchanges.length) {entity : Network}
    {a : Attack} (hban : c.engine.bans.get? entity = some a) :
    (retryAnnounce w entity a c).anonymous =
      c.anonymous.take entity (.assuring answer (c.engine.ruleFor entity a) a.anonymous) := by
  have hsame : a.anonymous.announced = a.announced := rfl
  unfold retryAnnounce Effect.assuring
  rw [hsame]
  split
  · exact (take_unsettled c.anonymous entity none 0).symm
  · rw [anonymous_announce (by exact h) (by exact hban), ← take_take_self, take_unsettled]
    rfl

/-- An observation is counted, and a record written, as its effect says. -/
theorem anonymous_counting (c : Cycle) (o : Observation) (record : Option Attack) {e : Engine}
    (he : e.anonymous =
      c.engine.anonymous.withBans (c.engine.anonymous.bans.write o.entity record)) :
    ({ c.counting o with engine := e } : Cycle).anonymous =
      c.anonymous.take o.entity { record, counts := c.engine.anonymous.tally o 0 } := by
  rw [take_unsettled, Engine.tally_anonymous]
  show (⟨e.anonymous, c.engine.tally o c.report⟩ : Cycle) = _
  rw [he, Engine.tally_eq_add]
  rfl

/-- While the announcer answers by the request alone, an observation has its effect and no other, if
it does not matter in which order the reflectors are compared. -/
theorem anonymous_evaluate (h : w.Steady answer c.engine.exchanges.length) (now : UInt64)
    {o : Observation}
    (hdecided : o.entity.isHost = true →
      (c.engine.sessions.reflectedTally o.entity.address).Decided) :
    (evaluate w now c o).anonymous = c.anonymous.see answer now o := by
  have hrecord : c.engine.anonymous.bans.get? o.entity =
      (c.engine.bans.get? o.entity).map Attack.anonymous :=
    c.engine.bans.get?_map Attack.anonymous o.entity
  have hcharged := c.engine.keeps_anonymous.charge?_eq o
  show _ = c.anonymous.take o.entity (c.engine.anonymous.effect answer now o)
  cases hban : c.engine.bans.get? o.entity with
  | none =>
    rw [hban, Option.map_none] at hrecord
    cases hcharge : c.engine.charge? o with
    | none =>
      rw [hcharge] at hcharged
      simp only [Engine.effect, hrecord, hcharged]
      rw [evaluate_of_uncharged w now hban hcharge]
      exact anonymous_counting c o none rfl
    | some charge =>
      rw [hcharge] at hcharged
      simp only [Engine.effect, hrecord, hcharged]
      -- The record that is written differs in the identifier only, which no rule mentions.
      have hrecorded : (c.engine.newAttack w o charge.1 charge.2 now).anonymous =
          c.engine.anonymous.attackOf .listed o charge.1 charge.2 now := by
        rw [Engine.newAttack, c.engine.attackOf_of_decided hdecided _ .listed,
          c.engine.keeps_anonymous.attackOf_eq]
        rfl
      rw [evaluate_of_charged w now hban hcharge,
        anonymous_announce (by exact h) (BanList.get?_put_self _ _ _), ← take_take_self]
      have hstarted : (c.engine.startBan w o charge.1 charge.2 now).anonymous =
          c.engine.anonymous.withBan o.entity
            (c.engine.newAttack w o charge.1 charge.2 now).anonymous :=
        c.engine.anonymous_withBan o.entity _
      rw [anonymous_counting c o (some (c.engine.newAttack w o charge.1 charge.2 now).anonymous)
        hstarted, ← hrecorded]
      rfl
  | some a =>
    rw [hban, Option.map_some] at hrecord
    cases hfound : c.engine.lookup o.entity.address with
    | none =>
      have hsame : c.engine.anonymous.lookup o.entity.address = none := hfound
      simp only [Engine.effect, hrecord, hsame]
      rw [evaluate_of_unmonitored w now hfound]
      exact anonymous_counting c o none rfl
    | some found =>
      have hsame : c.engine.anonymous.lookup o.entity.address = some found := hfound
      simp only [Engine.effect, hrecord, hsame, Option.isSome_some, if_true,
        ← Attack.anonymous_refresh]
      rw [evaluate_of_banned w now hfound hban,
        anonymous_retryAnnounce (by exact h) (BanList.get?_put_self _ _ _)]
      have hkept := c.engine.anonymous_withBan o.entity (a.refresh o.average)
      rw [anonymous_counting c o (some (a.refresh o.average).anonymous) hkept, take_take_self]
      rfl

theorem anonymous_withdrawRule (h : w.Steady answer c.engine.exchanges.length) (entity : Network)
    (rule : Rule) :
    (withdrawRule w entity rule c).anonymous = c.anonymous.withdrawn answer entity rule := by
  have hreply := failure?_of_steady h (.withdraw rule)
  cases hanswer : answer (.withdraw rule) with
  | none =>
    rw [hanswer] at hreply
    simp only [withdrawRule, hreply, withdrawn, hanswer]
    rfl
  | some reason =>
    rw [hanswer] at hreply
    simp only [withdrawRule, hreply, withdrawn, hanswer]
    rfl

theorem anonymous_lift (h : w.Steady answer c.engine.exchanges.length)
    (entry : Network × Attack) :
    (lift w c entry).anonymous = c.anonymous.lifted answer (entry.1, entry.2.anonymous) := by
  have hsame : entry.2.anonymous.announced = entry.2.announced := rfl
  unfold lift lifted
  simp only [hsame]
  split
  · exact anonymous_withdrawRule (by exact h) _ _
  · rfl

end

/-- Whether a cycle goes as a plain one, and the announcer is steady from here on. -/
structure Tracks (w : World) (c d : Cycle) : Prop where
  anonymous : c.anonymous = d
  steady : w.Steady answer c.engine.exchanges.length

section

variable {answer} {now} {w : World} {c d : Cycle}

theorem Tracks.evaluate (h : c.Tracks answer w d) {o : Observation}
    (hdecided : o.entity.isHost = true →
      (c.engine.sessions.reflectedTally o.entity.address).Decided) :
    (Cycle.evaluate w now c o).Tracks answer w (d.see answer now o) where
  anonymous := by rw [anonymous_evaluate h.steady now hdecided, h.anonymous]
  steady := by
    rw [evaluate_engine]
    exact h.steady.mono (Engine.prefix_exchanges_react w now c.engine o).length_le

theorem Tracks.foldl_evaluate (h : c.Tracks answer w d) {observations : List Observation}
    (hdecided : ∀ o ∈ observations, o.entity.isHost = true →
      (c.engine.sessions.reflectedTally o.entity.address).Decided) :
    (observations.foldl (Cycle.evaluate w now) c).Tracks answer w
      (observations.foldl (see answer now) d) := by
  -- No observation touches the sessions, so what they decide stays decided.
  have hboth := List.foldl_rel (f := Cycle.evaluate w now) (g := see answer now)
    (r := fun b b' => b.Tracks answer w b' ∧ b.engine.sessions = c.engine.sessions)
    (l := observations)
    ⟨h, rfl⟩ ?_
  · exact hboth.1
  · rintro o ho b b' ⟨htracks, hsessions⟩
    refine ⟨htracks.evaluate (hsessions ▸ hdecided o ho), ?_⟩
    rw [evaluate_engine, (Engine.keeps_react w now b.engine o).sessions, hsessions]

theorem Tracks.withdrawRule (h : c.Tracks answer w d) (entity : Network) (rule : Rule) :
    (Cycle.withdrawRule w entity rule c).Tracks answer w (d.withdrawn answer entity rule) where
  anonymous := by rw [anonymous_withdrawRule h.steady, h.anonymous]
  steady := by
    rw [withdrawRule_engine]
    exact h.steady.mono (Engine.prefix_exchanges_withdraw w c.engine entity rule).length_le

theorem Tracks.lift (h : c.Tracks answer w d) (entry : Network × Attack) :
    (Cycle.lift w c entry).Tracks answer w (d.lifted answer (entry.1, entry.2.anonymous)) where
  anonymous := by rw [anonymous_lift h.steady, h.anonymous]
  steady := by
    rw [lift_engine]
    exact h.steady.mono (Engine.prefix_exchanges_release w c.engine entry).length_le

theorem Tracks.retryWithdrawals (h : c.Tracks answer w d) :
    (Cycle.retryWithdrawals w c).Tracks answer w (d.retried answer) := by
  obtain ⟨rfl, hsteady⟩ := h
  -- The queue is emptied first, so both cycles go through the same entries.
  have hempty : Tracks answer w { c with engine := c.engine.withPending [] }
      { c.anonymous with engine := c.anonymous.engine.withPending [] } := ⟨rfl, hsteady⟩
  refine List.foldl_rel hempty fun entry _ b b' hboth => ?_
  have hcounted : Tracks answer w
      { b with report := { b.report with withdrawalsRetried := b.report.withdrawalsRetried + 1 } }
      { b' with report :=
        { b'.report with withdrawalsRetried := b'.report.withdrawalsRetried + 1 } } := by
    obtain ⟨rfl, hb⟩ := hboth
    exact ⟨rfl, hb⟩
  exact hcounted.withdrawRule entry.1 entry.2

theorem Tracks.expire (h : c.Tracks answer w d) :
    (c.expire w now).Tracks answer w (d.expired answer now) := by
  obtain ⟨rfl, hsteady⟩ := h
  have hbans : c.anonymous.engine.bans.sweep now = (c.engine.bans.sweep now).anonymous :=
    (c.engine.bans.map_sweep Attack.anonymous now fun _ => rfl).symm
  have hswept : Tracks answer w { c with engine := c.engine.withBans (c.engine.bans.sweep now) }
      { c.anonymous with engine :=
        c.anonymous.engine.withBans (c.anonymous.engine.bans.sweep now) } := by
    refine ⟨?_, hsteady⟩
    rw [hbans]
    rfl
  have hover : c.anonymous.engine.bans.over now =
      (c.engine.bans.over now).map fun entry => (entry.1, entry.2.anonymous) :=
    c.engine.bans.over_map Attack.anonymous now fun _ => rfl
  rw [expired, hover, List.foldl_map]
  exact List.foldl_rel hswept fun entry _ _ _ hboth => hboth.lift entry

end

end Cycle

namespace Engine

variable (answer : Request → Option MitigationError)

variable {answer}

end Engine

end FloodGuard

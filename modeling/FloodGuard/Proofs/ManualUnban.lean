import FloodGuard.Api
import FloodGuard.Proofs.AnnouncerAgreement

/-!
What the announcer holds after a ban is lifted by hand. The rule of the lifted ban is withdrawn if
it was accepted, and the request is refused if that fails. Withdrawals that are left pending by
earlier bans of the same entity are not looked at: they wait for the next cycle. So a request that
succeeds leaves with the announcer just those rules about the entity whose withdrawal was pending
before.
-/
namespace FloodGuard

namespace Engine

/-- About an entity that is not banned the announcer holds only rules that are to be withdrawn. -/
theorem Agrees.mem_held_iff_of_free {e : Engine} (h : e.Agrees) {entity : Network}
    (hfree : e.bans.get? entity = none) {rule : Rule} (haimed : rule.destination = some entity) :
    rule ∈ heldAfter e.exchanges ↔ (entity, rule) ∈ e.pending := by
  have hnone : e.acceptedRule? entity = none := by rw [acceptedRule?, hfree, Option.bind_none]
  rw [h.held, Set.mem_union, or_iff_right (notMem_announcedRules hnone haimed),
    mem_pendingRules_iff]
  constructor
  · intro hpending
    obtain ⟨other, hmem⟩ := hpending
    have hother := h.aimed _ hmem
    rw [haimed, Option.some.injEq] at hother
    rwa [hother]
  · intro hmem
    exact ⟨entity, hmem⟩

/-- Lifting a ban by hand succeeds just if the withdrawal of its rule does, or is not needed. -/
theorem unban_eq_ok_iff (w : World) (e : Engine) (entity : Network) (a : Attack) :
    (e.unban w entity).1 = .ok (some a) ↔
      e.bans.get? entity = some a ∧
        (a.announced = true → e.failure? w (.withdraw (e.ruleFor entity a)) = none) := by
  cases hban : e.bans.get? entity with
  | none => simp [unban, BanList.lift_of_none hban]
  | some b =>
    rw [Option.some.injEq]
    cases hannounced : b.announced with
    | false =>
      simp only [unban, BanList.lift_of_some hban, hannounced, Bool.false_eq_true, if_false,
        Except.ok.injEq, Option.some.injEq]
      constructor
      · rintro rfl
        exact ⟨rfl, fun h => absurd (hannounced.symm.trans h) (by simp)⟩
      · exact And.left
    | true =>
      cases hf : e.failure? w (.withdraw (e.ruleFor entity b)) with
      | some reason =>
        simp only [unban, BanList.lift_of_some hban, hannounced, hf, if_true, reduceCtorEq,
          false_iff, not_and]
        rintro rfl hnone
        exact absurd (hf.symm.trans (hnone hannounced)) (by simp)
      | none =>
        simp only [unban, BanList.lift_of_some hban, hannounced, hf, if_true, Except.ok.injEq,
          Option.some.injEq]
        constructor
        · rintro rfl
          exact ⟨rfl, fun _ => hf⟩
        · exact And.left

/-- Lifting a ban by hand with success leaves the pending withdrawals as they are. -/
theorem pending_unban_of_ok {w : World} {e : Engine} {entity : Network} {a : Attack}
    (h : (e.unban w entity).1 = .ok (some a)) : (e.unban w entity).2.pending = e.pending := by
  obtain ⟨hban, haccepted⟩ := (unban_eq_ok_iff w e entity a).1 h
  rw [unban_snd, hban]
  show (e.lift w (entity, a)).pending = e.pending
  by_cases hannounced : a.announced = true
  · have hdone : (e.withoutBan entity).failure? w (.withdraw (e.ruleFor entity a)) = none :=
      haccepted hannounced
    rw [lift, release, if_pos hannounced]
    show ((e.withoutBan entity).withdraw w entity (e.ruleFor entity a)).pending = _
    rw [withdraw_of_success hdone]
    rfl
  · rw [lift, release, if_neg hannounced]
    rfl

theorem bans_unban (w : World) (e : Engine) (entity : Network) :
    (e.unban w entity).2.bans = e.bans.unban entity := by
  rw [unban_snd]
  cases hban : e.bans.get? entity with
  | none => exact (BanList.unban_of_none hban).symm
  | some a => exact release_bans w _ _

theorem Agrees.unban {e : Engine} (h : e.Agrees) (w : World) (entity : Network) :
    (e.unban w entity).2.Agrees := by
  rw [unban_snd]
  cases hban : e.bans.get? entity with
  | none => exact h
  | some a => exact h.lift hban w

/-- Once a ban is lifted by hand with success, the announcer holds about its entity the rules whose
withdrawal was pending already. -/
theorem Agrees.mem_held_unban_iff {e : Engine} (h : e.Agrees) {w : World} {entity : Network}
    {a : Attack} (hok : (e.unban w entity).1 = .ok (some a)) {rule : Rule}
    (haimed : rule.destination = some entity) :
    rule ∈ heldAfter (e.unban w entity).2.exchanges ↔ (entity, rule) ∈ e.pending := by
  have hfree : (e.unban w entity).2.bans.get? entity = none := by
    rw [bans_unban, BanList.get?_unban_self]
  rw [(h.unban w entity).mem_held_iff_of_free hfree haimed, pending_unban_of_ok hok]

theorem agrees_run (w : World) (c : Config) (ops : List Operation) :
    ((fresh c).run w ops).Agrees :=
  invariant_run (fun _ _ hmove he => hmove.agrees he) (agrees_fresh c) ops

end Engine

namespace Api.Service

open Engine

/-- A request to lift a ban succeeds just if the ban is lifted, and says that its rule is gone. -/
theorem deleteBan_eq_ok_iff (w : World) (s : Service) (text : String) (length : Nat) (body : Json) :
    (s.deleteBan w text length).1 = .ok body ↔
      ∃ entity a, Api.entity text length = .ok entity ∧
        (s.engine.unban w entity).1 = .ok (some a) ∧
        .obj [("entity", toJson entity), ("withdrawn", .bool true)] = body := by
  cases hentity : Api.entity text length with
  | error refusal => simp [deleteBan, hentity]
  | ok entity =>
    cases hunban : s.engine.unban w entity with
    | mk answer after =>
      match answer with
      | .error reason => simp [deleteBan, hentity, hunban]
      | .ok none => simp [deleteBan, hentity, hunban]
      | .ok (some a) => simp [deleteBan, hentity, hunban]

theorem deleteBan_snd (w : World) (s : Service) {text : String} {length : Nat} {entity : Network}
    (h : Api.entity text length = .ok entity) :
    (s.deleteBan w text length).2 = (s.engine.unban w entity).2 := by
  simp only [deleteBan, h]
  split <;> rename_i heq <;> rw [heq]

/-- Whatever was done before, a request to lift a ban that succeeds has found the ban and takes it
off, and the announcer then holds just those rules about the entity whose withdrawal was pending
before the request; these stay pending. It holds none just if there were none. -/
theorem held_after_deleteBan (w : World) (c config : Config) (earlier : List Operation)
    (text : String) (length : Nat) (body : Json)
    (hok : (deleteBan w ⟨(fresh c).run w earlier, config⟩ text length).1 = .ok body) :
    let e := (fresh c).run w earlier
    let after := (deleteBan w ⟨e, config⟩ text length).2
    ∃ entity, Api.entity text length = .ok entity ∧
      body = .obj [("entity", toJson entity), ("withdrawn", .bool true)] ∧
      e.bans.isBanned entity = true ∧ after.bans = e.bans.unban entity ∧
      after.pending = e.pending ∧
      (∀ rule, rule.destination = some entity →
        (rule ∈ heldAfter after.exchanges ↔ (entity, rule) ∈ e.pending)) ∧
      ((∀ rule ∈ heldAfter after.exchanges, rule.destination ≠ some entity) ↔
        ∀ rule, (entity, rule) ∉ e.pending) := by
  intro e after
  obtain ⟨entity, a, hentity, hunban, rfl⟩ := (deleteBan_eq_ok_iff w _ text length body).1 hok
  have hafter : after = (e.unban w entity).2 := deleteBan_snd w _ hentity
  have hban : e.bans.get? entity = some a := ((unban_eq_ok_iff w e entity a).1 hunban).1
  have hagrees : e.Agrees := agrees_run w c earlier
  have hheld : ∀ rule, rule.destination = some entity →
      (rule ∈ heldAfter after.exchanges ↔ (entity, rule) ∈ e.pending) := by
    intro rule haimed
    rw [hafter]
    exact hagrees.mem_held_unban_iff hunban haimed
  refine ⟨entity, hentity, rfl, BanList.isBanned_of_some hban, ?_, ?_, hheld, ?_⟩
  · rw [hafter, bans_unban]
  · rw [hafter, pending_unban_of_ok hunban]
  constructor
  · intro hnone rule hrule
    have haimed := hagrees.aimed (entity, rule) hrule
    exact hnone rule ((hheld rule haimed).2 hrule) haimed
  · intro hnone rule hrule haimed
    exact hnone rule ((hheld rule haimed).1 hrule)

/-- The answer to a request to lift the ban of the host under attack. -/
def attackedHostLifted : Json :=
  .obj [("entity", toJson attackedHost.entity), ("withdrawn", .bool true)]

theorem held_after_deleteBan_of_attackedHost :
    let w := World.obliging fun _ => .ok .nil
    let s : Service := ⟨(fresh minuteBans).run w [.cycle [attackedHost] 7], minuteBans⟩
    (s.deleteBan w "10.0.0.1" 32).1 = .ok attackedHostLifted ∧
      ∀ rule ∈ heldAfter (s.deleteBan w "10.0.0.1" 32).2.exchanges,
        rule.destination ≠ some attackedHost.entity := by
  intro w s
  have hbanned : (s.engine.bans.get? attackedHost.entity).isSome = true := by decide +kernel
  obtain ⟨a, ha⟩ := Option.isSome_iff_exists.1 hbanned
  have hunban : (s.engine.unban w attackedHost.entity).1 = .ok (some a) :=
    (unban_eq_ok_iff w _ _ a).2 ⟨ha, fun _ => rfl⟩
  have hok : (s.deleteBan w "10.0.0.1" 32).1 = .ok attackedHostLifted :=
    (deleteBan_eq_ok_iff w s _ _ _).2 ⟨attackedHost.entity, a, rfl, hunban, rfl⟩
  obtain ⟨entity, hentity, -, -, -, -, -, hnone⟩ := held_after_deleteBan w minuteBans minuteBans
    [.cycle [attackedHost] 7] "10.0.0.1" 32 attackedHostLifted hok
  obtain rfl : attackedHost.entity = entity := Except.ok.inj hentity
  have hpending : s.engine.pending = [] := by decide +kernel
  refine ⟨hok, hnone.2 ?_⟩
  intro rule hrule
  rw [hpending] at hrule
  exact List.not_mem_nil hrule

/-- Surroundings in which the announcer cannot be reached after the first request. -/
def reachedOnce : World where
  reply := fun i _ => if i = 0 then none else some (.unavailable "no route")
  draw := fun _ => .ok .nil

/-- The rule of the first of two bans outlasts the second, which is lifted with success. -/
theorem rule_held_after_deleteBan :
    ¬ ∀ (w : World) (c config : Config) (earlier : List Operation) (text : String) (length : Nat)
      (entity : Network),
      let s : Service := ⟨(fresh c).run w earlier, config⟩
      Api.entity text length = .ok entity →
      (s.deleteBan w text length).1 =
        .ok (.obj [("entity", toJson entity), ("withdrawn", .bool true)]) →
      ∀ rule ∈ heldAfter (s.deleteBan w text length).2.exchanges,
        rule.destination ≠ some entity := by
  intro hclaim
  have hentity : Api.entity "10.0.0.1" 32 = .ok attackedHost.entity := rfl
  let earlier : List Operation :=
    [.cycle [attackedHost] 7, .cycle [] 67, .cycle [attackedHost] 68]
  have hnone := hclaim reachedOnce minuteBans minuteBans earlier "10.0.0.1" 32 _ hentity
  have hagrees := agrees_run reachedOnce minuteBans earlier
  have hstate : (((fresh minuteBans).run reachedOnce earlier).bans.get? attackedHost.entity).map
      Attack.announced = some false := by decide +kernel
  have hqueue : ((fresh minuteBans).run reachedOnce earlier).pending.map Prod.fst =
      [attackedHost.entity] := by decide +kernel
  generalize (fresh minuteBans).run reachedOnce earlier = e at hnone hagrees hstate hqueue
  obtain ⟨a, ha, hopen⟩ := Option.map_eq_some_iff.1 hstate
  -- The second ban was never accepted, so lifting it asks nothing of the announcer.
  have hunban : (e.unban reachedOnce attackedHost.entity).1 = .ok (some a) :=
    (unban_eq_ok_iff reachedOnce e _ a).2 ⟨ha, by simp [hopen]⟩
  have hok := (deleteBan_eq_ok_iff reachedOnce ⟨e, minuteBans⟩ "10.0.0.1" 32 _).2
    ⟨_, a, hentity, hunban, rfl⟩
  obtain ⟨⟨entity, rule⟩, hpending, rfl⟩ := List.map_eq_singleton_iff.1 hqueue
  have hmem : (attackedHost.entity, rule) ∈ e.pending := by
    rw [hpending]
    exact List.mem_singleton_self _
  have haimed := hagrees.aimed _ hmem
  apply hnone hok rule ?_ haimed
  rw [deleteBan_snd reachedOnce ⟨e, minuteBans⟩ hentity]
  exact (hagrees.mem_held_unban_iff hunban haimed).2 hmem

end Api.Service

end FloodGuard

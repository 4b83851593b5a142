import FloodGuard.Proofs.Reactions

/-!
The life of a ban. It starts with the cycle that detects the attack and ends with the first
operation that lifts it: lifting by hand, or a cycle in which the time of the ban is over, be it the
very cycle that started it. Nothing else ends it, and nothing makes it outlive such an operation,
whatever the clock shows and whatever is reloaded. While it lasts, only what an attack is refreshed
with and the acceptance of its rule move.
-/
namespace FloodGuard

/-- Whether an operation lifts the ban of an entity for an attack. -/
def Operation.Lifts (op : Operation) (entity : Network) (a : Attack) : Prop :=
  match op with
  | .cycle _ now => a.expires = true ∧ a.banTime.toNat ≤ now.toNat - a.startedAt.toNat
  | .unban other => other = entity
  | .reload _ => False
  | .record _ _ _ => False
  | .sweepSessions _ _ => False

theorem Attack.Continues.lifts_iff {a b : Attack} (h : a.Continues b) (op : Operation)
    (entity : Network) : op.Lifts entity b ↔ op.Lifts entity a := by
  rw [h.fixed]
  exact Iff.rfl

namespace Engine

/-- Whether an entity is banned after each of some operations. -/
def BannedThroughout (w : World) (e : Engine) (entity : Network) (ops : List Operation) : Prop :=
  ∀ done rest, ops = done ++ rest → done ≠ [] → (e.run w done).bans.isBanned entity = true

theorem bannedThroughout_nil (w : World) (e : Engine) (entity : Network) :
    e.BannedThroughout w entity [] := by
  intro done rest heq hne
  exact absurd (List.append_eq_nil_iff.1 heq.symm).1 hne

theorem bannedThroughout_cons_iff (w : World) (e : Engine) (entity : Network) (op : Operation)
    (ops : List Operation) :
    e.BannedThroughout w entity (op :: ops) ↔
      (e.step w op).bans.isBanned entity = true ∧ (e.step w op).BannedThroughout w entity ops := by
  constructor
  · intro h
    refine ⟨h [op] ops rfl (by simp), ?_⟩
    intro done rest heq hne
    exact h (op :: done) rest (congrArg (op :: ·) heq) (by simp)
  · intro h done rest heq hne
    obtain ⟨hfirst, hlater⟩ := h
    cases done with
    | nil => exact absurd rfl hne
    | cons first more =>
      obtain ⟨rfl, hrest⟩ := List.cons.inj heq
      by_cases hmore : more = []
      · subst hmore
        exact hfirst
      · exact hlater more rest hrest hmore

/-- A cycle ends with the bans that it detected or kept, without those whose time is over. -/
theorem runCycle_get? (w : World) (e : Engine) (observations : List Observation) (now : UInt64)
    (entity : Network) :
    (e.runCycle w observations now).engine.bans.get? entity =
      ((e.detect w observations now).engine.bans.get? entity).filter fun a => !a.isOver now := by
  rw [runCycle_engine, ← BanList.get?_sweep]
  exact congrArg (BanList.get? · entity) (foldl_release_bans w _ _)

theorem runCycle_get?_of_over {w : World} {e : Engine} {observations : List Observation}
    {now : UInt64} {entity : Network} {a : Attack}
    (h : (e.detect w observations now).engine.bans.get? entity = some a)
    (hover : a.isOver now = true) :
    (e.runCycle w observations now).engine.bans.get? entity = none := by
  rw [runCycle_get?, h]
  simp [Option.filter, hover]

theorem runCycle_get?_of_not_over {w : World} {e : Engine} {observations : List Observation}
    {now : UInt64} {entity : Network} {a : Attack}
    (h : (e.detect w observations now).engine.bans.get? entity = some a)
    (hover : ¬ a.isOver now = true) :
    (e.runCycle w observations now).engine.bans.get? entity = some a := by
  rw [runCycle_get?, h]
  simp [Option.filter, hover]

theorem unban_get? (w : World) (e : Engine) (entity other : Network) :
    (e.unban w entity).2.bans.get? other =
      if entity = other then none else e.bans.get? other := by
  rw [unban_snd, ← BanList.get?_unban]
  cases h : e.bans.get? entity with
  | none => simp only [BanList.unban_of_none h]
  | some a =>
    simp only [lift, release_bans]
    rfl

theorem step_get?_of_lifts {w : World} {e : Engine} {entity : Network} {a : Attack}
    (ha : e.bans.get? entity = some a) {op : Operation} (hlifts : op.Lifts entity a) :
    (e.step w op).bans.get? entity = none := by
  cases op with
  | cycle observations now =>
    obtain ⟨b, hb, hab⟩ := carries_detect w e observations now entity a ha
    have hover : b.isOver now = true := by
      rw [hab.isOver_eq]
      exact (a.isOver_iff now).2 hlifts
    exact runCycle_get?_of_over hb hover
  | unban other => exact (unban_get? w e other entity).trans (if_pos hlifts)
  | reload c => exact hlifts.elim
  | record key bytes now => exact hlifts.elim
  | sweepSessions now window => exact hlifts.elim

theorem step_get?_of_not_lifts (w : World) {e : Engine} {entity : Network} {a : Attack}
    (ha : e.bans.get? entity = some a) {op : Operation} (hlifts : ¬ op.Lifts entity a) :
    ∃ b, (e.step w op).bans.get? entity = some b ∧ a.Continues b := by
  cases op with
  | cycle observations now =>
    obtain ⟨b, hb, hab⟩ := carries_detect w e observations now entity a ha
    have hover : ¬ b.isOver now = true := by
      rw [hab.isOver_eq, a.isOver_iff]
      exact hlifts
    exact ⟨b, runCycle_get?_of_not_over hb hover, hab⟩
  | unban other =>
    exact ⟨a, (unban_get? w e other entity).trans ((if_neg hlifts).trans ha), .refl a⟩
  | reload c => exact ⟨a, ha, .refl a⟩
  | record key bytes now => exact ⟨a, ha, .refl a⟩
  | sweepSessions now window => exact ⟨a, ha, .refl a⟩

/-- A ban that no operation of a run lifts is there at the end, and its record has gone on. -/
theorem run_get?_of_not_lifts (w : World) {e : Engine} {entity : Network} {a : Attack}
    (ha : e.bans.get? entity = some a) {ops : List Operation}
    (hlifts : ∀ op ∈ ops, ¬ op.Lifts entity a) :
    ∃ b, (e.run w ops).bans.get? entity = some b ∧ a.Continues b := by
  induction ops generalizing e a with
  | nil => exact ⟨a, ha, .refl a⟩
  | cons op rest ih =>
    obtain ⟨b, hb, hab⟩ := step_get?_of_not_lifts w ha (hlifts op List.mem_cons_self)
    obtain ⟨c, hc, hbc⟩ := ih hb fun later hlater hlater' =>
      hlifts later (List.mem_cons_of_mem _ hlater) ((hab.lifts_iff later entity).1 hlater')
    exact ⟨c, hc, hab.trans hbc⟩

/-- A ban is there throughout a run just if no operation of the run lifts it. -/
theorem bannedThroughout_iff (w : World) {e : Engine} {entity : Network} {a : Attack}
    (ha : e.bans.get? entity = some a) (ops : List Operation) :
    e.BannedThroughout w entity ops ↔ ∀ op ∈ ops, ¬ op.Lifts entity a := by
  induction ops generalizing e a with
  | nil => simp [bannedThroughout_nil]
  | cons op rest ih =>
    rw [bannedThroughout_cons_iff, List.forall_mem_cons]
    -- A lifted ban is gone at once, so a later ban of the entity does not count as this one.
    by_cases hlifts : op.Lifts entity a
    · have hgone := BanList.isBanned_of_none (step_get?_of_lifts (w := w) ha hlifts)
      simp [hgone, hlifts]
    · obtain ⟨b, hb, hab⟩ := step_get?_of_not_lifts w ha hlifts
      rw [ih hb]
      simp only [BanList.isBanned_of_some hb, hlifts, hab.lifts_iff, not_false_eq_true, true_and]

/-- The same from the cycle on that started the ban, which may be over at once. -/
theorem bannedThroughout_cycle_iff {w : World} {e : Engine} {observations : List Observation}
    {now : UInt64} {entity : Network} {a : Attack}
    (ha : (e.detect w observations now).engine.bans.get? entity = some a)
    (ops : List Operation) :
    e.BannedThroughout w entity (.cycle observations now :: ops) ↔
      ∀ op ∈ Operation.cycle observations now :: ops, ¬ op.Lifts entity a := by
  rw [bannedThroughout_cons_iff, List.forall_mem_cons]
  by_cases hover : a.isOver now = true
  · have hgone : (e.step w (.cycle observations now)).bans.isBanned entity = false :=
      BanList.isBanned_of_none (runCycle_get?_of_over ha hover)
    have hlifts : Operation.Lifts (.cycle observations now) entity a := (a.isOver_iff now).1 hover
    simp [hgone, hlifts]
  · have hkept : (e.step w (.cycle observations now)).bans.get? entity = some a :=
      runCycle_get?_of_not_over ha hover
    have hlifts : ¬ Operation.Lifts (.cycle observations now) entity a :=
      fun h => hover ((a.isOver_iff now).2 h)
    rw [bannedThroughout_iff w hkept ops]
    simp only [BanList.isBanned_of_some hkept, hlifts, not_false_eq_true, true_and]

theorem startedAt_of_detect {w : World} {e : Engine} {observations : List Observation}
    {now : UInt64} {entity : Network} {a : Attack} (hfree : e.bans.get? entity = none)
    (ha : (e.detect w observations now).engine.bans.get? entity = some a) :
    a.startedAt = now := by
  have hfirst := detect_get?_of_free w observations now hfree
  cases hfind : observations.find? (e.charges entity) with
  | none =>
    rw [hfind] at hfirst
    simp [hfirst] at ha
  | some o =>
    rw [hfind] at hfirst
    obtain ⟨b, hb, hstarted⟩ := hfirst
    obtain rfl : b = a := Option.some.inj (hb.symm.trans ha)
    exact hstarted.startedAt_eq

/-- A ban that a cycle starts is in the list after that cycle and all later operations just if none
of them lifts it. As long as it is, its record only moves on from the one that the cycle started it
with, from any of these operations to any later one. -/
theorem ban_lifetime (w : World) (e : Engine) (observations : List Observation) (now : UInt64)
    (entity : Network) (a : Attack) (hfree : e.bans.get? entity = none)
    (hstarted : (e.detect w observations now).engine.bans.get? entity = some a)
    (later more : List Operation) :
    let since := Operation.cycle observations now :: later
    a.startedAt = now ∧
      (e.BannedThroughout w entity since ↔ ∀ op ∈ since, ¬ op.Lifts entity a) ∧
      (e.BannedThroughout w entity (since ++ more) →
        ∃ b d, (e.run w since).bans.get? entity = some b ∧
          (e.run w (since ++ more)).bans.get? entity = some d ∧
          a.Continues b ∧ b.Continues d) := by
  intro since
  refine ⟨startedAt_of_detect hfree hstarted, bannedThroughout_cycle_iff hstarted later, ?_⟩
  intro hbanned
  have hlifts := (bannedThroughout_cycle_iff hstarted (later ++ more)).1 hbanned
  have hover : ¬ a.isOver now = true :=
    fun h => hlifts _ List.mem_cons_self ((a.isOver_iff now).1 h)
  have hkept := runCycle_get?_of_not_over hstarted hover
  obtain ⟨b, hb, hab⟩ := run_get?_of_not_lifts w hkept fun op hop =>
    hlifts op (List.mem_cons_of_mem _ (List.mem_append_left more hop))
  obtain ⟨d, hd, hbd⟩ := run_get?_of_not_lifts w hb fun op hop hlifted =>
    hlifts op (List.mem_cons_of_mem _ (List.mem_append_right later hop))
      ((hab.lifts_iff op entity).1 hlifted)
  refine ⟨b, d, hb, ?_, hab, hbd⟩
  rw [run_append]
  exact hd

theorem ban_lifetime_of_a_minute :
    let w := World.obliging fun _ => .ok .nil
    let first := Operation.cycle [attackedHost] 7
    ((fresh minuteBans).detect w [attackedHost] 7).engine.bans.isBanned attackedHost.entity ∧
      (fresh minuteBans).BannedThroughout w attackedHost.entity [first, .cycle [] 66] ∧
      ¬ (fresh minuteBans).BannedThroughout w attackedHost.entity
        [first, .cycle [] 66, .cycle [] 67] := by
  intro w first
  have hfree : (fresh minuteBans).bans.get? attackedHost.entity = none := by decide
  have hpolicy : (((fresh minuteBans).detect w [attackedHost] 7).engine.bans.get?
      attackedHost.entity).map (fun a => (a.expires, a.banTime)) = some (true, 60) := by decide
  obtain ⟨a, ha, hfields⟩ := Option.map_eq_some_iff.1 hpolicy
  obtain ⟨hexpires, htime⟩ := Prod.mk.inj hfields
  have hlife := fun later => ban_lifetime w (fresh minuteBans) [attackedHost] 7
    attackedHost.entity a hfree ha later []
  have hstart : a.startedAt = 7 := (hlife []).1
  refine ⟨BanList.isBanned_of_some ha, (hlife _).2.1.2 ?_, fun h => ?_⟩
  · simp [Operation.Lifts, htime, hstart]
  · have hlifts := (hlife _).2.1.1 h (.cycle [] 67) (by simp)
    simp [Operation.Lifts, hexpires, htime, hstart] at hlifts

end Engine

end FloodGuard

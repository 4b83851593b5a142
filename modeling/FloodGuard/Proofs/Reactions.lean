import FloodGuard.Proofs.Runs

/-!
What observations do to the list of bans. A ban that is there goes on, with a record that continues
the one before; an entity that is free is banned by the first observation of it that is charged, and
by nothing else. Both hold for one observation, and so for the observations of a cycle.
-/
namespace FloodGuard

theorem Attack.Continues.startedAt_eq {a b : Attack} (h : a.Continues b) :
    b.startedAt = a.startedAt := by
  rw [h.fixed]

namespace Engine

/-- Whether every ban of an engine goes on in another one. -/
def Carries (e f : Engine) : Prop :=
  ∀ entity a, e.bans.get? entity = some a →
    ∃ b, f.bans.get? entity = some b ∧ a.Continues b

theorem carries_of_bans_eq {e f : Engine} (h : f.bans = e.bans) : e.Carries f := by
  intro entity a ha
  rw [h]
  exact ⟨a, ha, .refl a⟩

theorem Carries.trans {e f g : Engine} (hef : e.Carries f) (hfg : f.Carries g) : e.Carries g := by
  intro entity a ha
  obtain ⟨b, hb, hab⟩ := hef entity a ha
  obtain ⟨c, hc, hbc⟩ := hfg entity b hb
  exact ⟨c, hc, hab.trans hbc⟩

theorem carries_withBan {e : Engine} {entity : Network} {a b : Attack}
    (ha : e.bans.get? entity = some a) (hab : a.Continues b) :
    e.Carries (e.withBan entity b) := by
  intro other c hc
  by_cases heq : entity = other
  · subst heq
    obtain rfl : a = c := Option.some.inj (ha.symm.trans hc)
    exact ⟨b, BanList.get?_put_self _ _ _, hab⟩
  · exact ⟨c, (BanList.get?_put_of_ne _ _ heq).trans hc, .refl c⟩

theorem carries_startBan {w : World} {e : Engine} {o : Observation} {breach : Breach}
    {context : BanContext} {now : UInt64} (hfree : e.bans.get? o.entity = none) :
    e.Carries (e.startBan w o breach context now) := by
  intro other c hc
  have hne : o.entity ≠ other := by
    intro heq
    rw [← heq, hfree] at hc
    exact absurd hc (by simp)
  exact ⟨c, (BanList.get?_put_of_ne _ _ hne).trans hc, .refl c⟩

theorem carries_announce (w : World) (e : Engine) (entity : Network) (attack : Attack) :
    e.Carries (e.announce w entity attack) := by
  cases h : e.failure? w (.announce (e.ruleFor entity attack)) with
  | some reason =>
    rw [announce_of_failure h]
    exact carries_of_bans_eq rfl
  | none =>
    rw [announce_of_success h]
    intro other a ha
    show ∃ b, (e.bans.setAnnounced entity true).get? other = some b ∧ a.Continues b
    rw [BanList.setAnnounced_eq, BanList.get?_update, ha]
    split
    · exact ⟨_, rfl, a.continues_accepted⟩
    · exact ⟨a, rfl, .refl a⟩

theorem carries_assure (w : World) (e : Engine) (entity : Network) (attack : Attack) :
    e.Carries (e.assure w entity attack) := by
  unfold assure
  split
  · exact carries_of_bans_eq rfl
  · exact carries_announce w e entity attack

theorem announce_get?_of_ne (w : World) (e : Engine) {entity other : Network} (attack : Attack)
    (hne : entity ≠ other) :
    (e.announce w entity attack).bans.get? other = e.bans.get? other := by
  cases h : e.failure? w (.announce (e.ruleFor entity attack)) with
  | some reason =>
    rw [announce_of_failure h]
    rfl
  | none =>
    rw [announce_of_success h]
    show (e.bans.setAnnounced entity true).get? other = _
    rw [BanList.setAnnounced_eq, BanList.get?_update, if_neg hne]

theorem assure_get?_of_ne (w : World) (e : Engine) {entity other : Network} (attack : Attack)
    (hne : entity ≠ other) :
    (e.assure w entity attack).bans.get? other = e.bans.get? other := by
  unfold assure
  split
  · rfl
  · exact announce_get?_of_ne w e attack hne

theorem retry_bans (w : World) (e : Engine) : (e.retry w).bans = e.bans := by
  unfold retry
  refine List.foldlRecOn e.pending (fun (f : Engine) entry => f.withdraw w entry.1 entry.2)
    (motive := fun f => f.bans = e.bans) ?_ ?_
  · rfl
  · intro f hf entry _
    exact (withdraw_bans w f entry.1 entry.2).trans hf

/-- The record of a ban that an observation started, up to what moves while the ban lasts. -/
def StartedBy (e : Engine) (o : Observation) (now : UInt64) (b : Attack) : Prop :=
  ∃ breach context order drawn, e.charge? o = some (breach, context) ∧
    ((e.attackOf order o breach context now).identifiedBy drawn).Continues b

theorem StartedBy.continues {e : Engine} {o : Observation} {now : UInt64} {b c : Attack}
    (h : e.StartedBy o now b) (hbc : b.Continues c) : e.StartedBy o now c := by
  obtain ⟨breach, context, order, drawn, hcharge, hab⟩ := h
  exact ⟨breach, context, order, drawn, hcharge, hab.trans hbc⟩

theorem StartedBy.startedAt_eq {e : Engine} {o : Observation} {now : UInt64} {b : Attack}
    (h : e.StartedBy o now b) : b.startedAt = now := by
  obtain ⟨breach, context, order, drawn, hcharge, hab⟩ := h
  exact hab.startedAt_eq

theorem Keeps.startedBy {e f : Engine} (h : e.Keeps f) {o : Observation} {now : UInt64}
    {b : Attack} (hb : f.StartedBy o now b) : e.StartedBy o now b := by
  obtain ⟨breach, context, order, drawn, hcharge, hab⟩ := hb
  rw [h.charge?_eq] at hcharge
  rw [h.attackOf_eq] at hab
  exact ⟨breach, context, order, drawn, hcharge, hab⟩

theorem carries_react (w : World) (now : UInt64) (e : Engine) (o : Observation) :
    e.Carries (e.react w now o) := by
  cases hban : e.bans.get? o.entity with
  | none =>
    cases hcharge : e.charge? o with
    | none =>
      rw [react_of_uncharged hban hcharge]
      exact carries_of_bans_eq rfl
    | some charge =>
      rw [react_of_charged hban hcharge]
      exact (carries_startBan hban).trans (carries_announce w _ _ _)
  | some a =>
    cases hfound : e.lookup o.entity.address with
    | none =>
      rw [react_of_unmonitored hfound]
      exact carries_of_bans_eq rfl
    | some found =>
      rw [react_of_banned hfound hban]
      exact (carries_withBan hban (a.continues_refresh o.average)).trans (carries_assure w _ _ _)

theorem react_get?_of_ne (w : World) (now : UInt64) (e : Engine) {o : Observation}
    {entity : Network} (hne : o.entity ≠ entity) :
    (e.react w now o).bans.get? entity = e.bans.get? entity := by
  cases hban : e.bans.get? o.entity with
  | none =>
    cases hcharge : e.charge? o with
    | none => rw [react_of_uncharged hban hcharge]
    | some charge =>
      rw [react_of_charged hban hcharge, announce_get?_of_ne w _ _ hne]
      exact BanList.get?_put_of_ne _ _ hne
  | some a =>
    cases hfound : e.lookup o.entity.address with
    | none => rw [react_of_unmonitored hfound]
    | some found =>
      rw [react_of_banned hfound hban, assure_get?_of_ne w _ _ hne]
      exact BanList.get?_put_of_ne _ _ hne

/-- Whether an observation is of an entity and is charged. -/
def charges (e : Engine) (entity : Network) (o : Observation) : Bool :=
  o.entity = entity && (e.charge? o).isSome

theorem Keeps.charges_eq {e f : Engine} (h : e.Keeps f) (entity : Network) (o : Observation) :
    f.charges entity o = e.charges entity o := by
  rw [charges, charges, h.charge?_eq]

theorem react_get?_of_not_charges {w : World} {now : UInt64} {e : Engine} {o : Observation}
    {entity : Network} (hfree : e.bans.get? entity = none) (h : e.charges entity o = false) :
    (e.react w now o).bans.get? entity = none := by
  by_cases heq : o.entity = entity
  · subst heq
    have hcharge : e.charge? o = none := by simpa [charges] using h
    rw [react_of_uncharged hfree hcharge, hfree]
  · rw [react_get?_of_ne w now e heq, hfree]

theorem react_get?_of_charges (w : World) (now : UInt64) {e : Engine} {o : Observation}
    {entity : Network} (hfree : e.bans.get? entity = none) (h : e.charges entity o = true) :
    ∃ b, (e.react w now o).bans.get? entity = some b ∧ e.StartedBy o now b := by
  obtain ⟨rfl, hsome⟩ : o.entity = entity ∧ (e.charge? o).isSome = true := by
    simpa [charges] using h
  obtain ⟨⟨breach, context⟩, hcharge⟩ := Option.isSome_iff_exists.1 hsome
  rw [react_of_charged hfree hcharge]
  have hstarted : (e.startBan w o breach context now).bans.get? o.entity =
      some (e.newAttack w o breach context now) := BanList.get?_put_self _ _ _
  obtain ⟨b, hb, hab⟩ := carries_announce w (e.startBan w o breach context now) o.entity
    (e.newAttack w o breach context now) o.entity _ hstarted
  exact ⟨b, hb, breach, context, w.compared e.draws, w.draw e.draws, hcharge, hab⟩

theorem carries_foldl_react (w : World) (now : UInt64) (observations : List Observation)
    (e : Engine) : e.Carries (observations.foldl (react w now) e) :=
  List.foldlRecOn observations (react w now) (carries_of_bans_eq rfl)
    fun f hf o _ => hf.trans (carries_react w now f o)

/-- A free entity stays free while no observation of it is charged. -/
theorem foldl_react_get?_of_none {w : World} {now : UInt64} {entity : Network}
    {observations : List Observation} {e : Engine} (hfree : e.bans.get? entity = none)
    (h : observations.find? (e.charges entity) = none) :
    (observations.foldl (react w now) e).bans.get? entity = none := by
  induction observations generalizing e with
  | nil => exact hfree
  | cons o rest ih =>
    rw [List.find?_eq_none] at h
    have hcharge : e.charges entity o = false := by simpa using h o List.mem_cons_self
    apply ih (react_get?_of_not_charges hfree hcharge)
    rw [List.find?_eq_none]
    intro p hp
    rw [(keeps_react w now e o).charges_eq]
    exact h p (List.mem_cons_of_mem _ hp)

/-- The first observation of a free entity that is charged starts its ban. -/
theorem foldl_react_get?_of_some (w : World) (now : UInt64) {entity : Network}
    {observations : List Observation} {e : Engine} {o : Observation}
    (hfree : e.bans.get? entity = none) (h : observations.find? (e.charges entity) = some o) :
    ∃ b, (observations.foldl (react w now) e).bans.get? entity = some b ∧
      e.StartedBy o now b := by
  induction observations generalizing e with
  | nil => exact absurd h (by simp)
  | cons p rest ih =>
    cases hcharge : e.charges entity p with
    | false =>
      -- The engine moves on, but what it charges does not: bans have no part in that.
      rw [List.find?_cons_of_neg (by simp [hcharge])] at h
      have hkeeps := keeps_react w now e p
      have hsame : (e.react w now p).charges entity = e.charges entity :=
        funext fun q => hkeeps.charges_eq entity q
      rw [← hsame] at h
      obtain ⟨b, hb, hstarted⟩ := ih (react_get?_of_not_charges hfree hcharge) h
      exact ⟨b, hb, hkeeps.startedBy hstarted⟩
    | true =>
      rw [List.find?_cons_of_pos hcharge] at h
      obtain rfl : p = o := Option.some.inj h
      obtain ⟨a, ha, hstarted⟩ := react_get?_of_charges w now hfree hcharge
      obtain ⟨b, hb, hab⟩ := carries_foldl_react w now rest _ entity a ha
      exact ⟨b, hb, hstarted.continues hab⟩

theorem carries_detect (w : World) (e : Engine) (observations : List Observation)
    (now : UInt64) : e.Carries (e.detect w observations now).engine := by
  rw [detect_engine]
  exact (carries_of_bans_eq (retry_bans w e)).trans (carries_foldl_react w now observations _)

/-- What a cycle makes of a free entity before it lifts bans: the first observation that is charged
starts a ban, and without one there is none. -/
theorem detect_get?_of_free (w : World) {e : Engine} (observations : List Observation)
    (now : UInt64) {entity : Network} (hfree : e.bans.get? entity = none) :
    match observations.find? (e.charges entity) with
    | none => (e.detect w observations now).engine.bans.get? entity = none
    | some o => ∃ b, (e.detect w observations now).engine.bans.get? entity = some b ∧
        e.StartedBy o now b := by
  have hretried : (e.retry w).bans.get? entity = none := by rw [retry_bans, hfree]
  have hkeeps := keeps_retry w e
  have hsame : (e.retry w).charges entity = e.charges entity :=
    funext fun o => hkeeps.charges_eq entity o
  rw [detect_engine, ← hsame]
  cases hfind : observations.find? ((e.retry w).charges entity) with
  | none => exact foldl_react_get?_of_none hretried hfind
  | some o =>
    obtain ⟨b, hb, hstarted⟩ := foldl_react_get?_of_some w now hretried hfind
    exact ⟨b, hb, hkeeps.startedBy hstarted⟩

/-- A ban that a cycle starts is started by one of its observations. -/
theorem startedBy_of_detect {w : World} {e : Engine} {observations : List Observation}
    {now : UInt64} {entity : Network} {b : Attack} (hfree : e.bans.get? entity = none)
    (hb : (e.detect w observations now).engine.bans.get? entity = some b) :
    ∃ o ∈ observations, o.entity = entity ∧ e.StartedBy o now b := by
  have hfirst := detect_get?_of_free w observations now hfree
  cases hfind : observations.find? (e.charges entity) with
  | none =>
    rw [hfind] at hfirst
    rw [hfirst] at hb
    simp at hb
  | some o =>
    rw [hfind] at hfirst
    obtain ⟨a, ha, hstarted⟩ := hfirst
    obtain rfl : a = b := Option.some.inj (ha.symm.trans hb)
    have hcharges := List.find?_some hfind
    rw [charges, Bool.and_eq_true, decide_eq_true_eq] at hcharges
    exact ⟨o, List.mem_of_find?_eq_some hfind, hcharges.1, hstarted⟩

end Engine

end FloodGuard

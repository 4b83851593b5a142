import FloodGuard.Proofs.Moves
import Mathlib.Data.List.Nodup
import Mathlib.Order.BooleanAlgebra.Set

/-!
The engine and the announcer agree on the rules in force. What the announcer holds is read off the
record of requests: an accepted announcement adds a rule, an accepted withdrawal takes it away, and
a failed request changes nothing. After every run the announcer holds the accepted rules of active
bans and the rules whose withdrawal is pending, and nothing is both. The invariant also says what
every single request was about at its moment, so no rule is lost and none is withdrawn from a ban
that still needs it.
-/
namespace FloodGuard

/-- The rules that the announcer holds after a request. -/
def Exchange.apply (held : Set Rule) (x : Exchange) : Set Rule :=
  match x.failure, x.request with
  | none, .announce rule => insert rule held
  | none, .withdraw rule => held \ {rule}
  | some _, _ => held

/-- The rules that the announcer holds after all recorded requests; it starts without any. -/
def heldAfter (log : List Exchange) : Set Rule := log.foldl Exchange.apply ∅

/-- Whether a request is in order while the announcer holds some rules: an announcement is for the
rule of an active ban that is not accepted yet, a withdrawal is for a rule that is held and is not
the accepted rule of an active ban. -/
def Exchange.InOrder (action : Action) (held : Set Rule) (x : Exchange) : Prop :=
  match x.request with
  | .announce rule => ∃ entity a,
      x.standing = some a ∧ a.announced = false ∧ rule = Rule.against entity a action
  | .withdraw rule => rule ∈ held ∧ ∀ entity a,
      x.standing = some a → a.announced = true → rule ≠ Rule.against entity a action

/-- Whether every request of a record was in order at its moment. -/
def AllInOrder (action : Action) (log : List Exchange) : Prop :=
  ∀ before x after, log = before ++ x :: after → x.InOrder action (heldAfter before)

theorem heldAfter_concat (log : List Exchange) (x : Exchange) :
    heldAfter (log ++ [x]) = x.apply (heldAfter log) := by
  rw [heldAfter, List.foldl_append]
  rfl

theorem AllInOrder.concat {action : Action} {log : List Exchange} {x : Exchange}
    (hlog : AllInOrder action log) (hx : x.InOrder action (heldAfter log)) :
    AllInOrder action (log ++ [x]) := by
  intro before y after heq
  induction after using List.reverseRecOn with
  | nil =>
    obtain ⟨rfl, hlast⟩ := List.append_inj' heq rfl
    obtain rfl : x = y := by simpa using hlast
    exact hx
  | append_singleton rest z _ =>
    rw [← List.cons_append, ← List.append_assoc] at heq
    exact hlog before y rest (List.append_inj' heq rfl).1

namespace Engine

/-- The rules of the active bans that the announcer has accepted. -/
def announcedRules (e : Engine) : Set Rule :=
  {rule | ∃ entity a,
    e.bans.get? entity = some a ∧ a.announced = true ∧ rule = e.ruleFor entity a}

/-- The rules that are still to be withdrawn. -/
def pendingRules (e : Engine) : Set Rule := {rule | ∃ entity, (entity, rule) ∈ e.pending}

/-- Whether the engine and the announcer agree. -/
structure Agrees (e : Engine) : Prop where
  held : heldAfter e.exchanges = e.announcedRules ∪ e.pendingRules
  apart : ∀ rule ∈ e.announcedRules, rule ∉ e.pendingRules
  nodup : e.pending.Nodup
  aimed : ∀ entry ∈ e.pending, entry.2.destination = some entry.1
  ordered : AllInOrder e.action e.exchanges

/-- The rule of an active ban, if the announcer has accepted it. -/
def acceptedRule? (e : Engine) (entity : Network) : Option Rule :=
  (e.bans.get? entity).bind fun a =>
    if a.announced = true then some (e.ruleFor entity a) else none

theorem mem_announcedRules_iff (e : Engine) (rule : Rule) :
    rule ∈ e.announcedRules ↔ ∃ entity, e.acceptedRule? entity = some rule := by
  constructor
  · intro hmem
    obtain ⟨entity, a, hban, hannounced, rfl⟩ := hmem
    exact ⟨entity, by simp [acceptedRule?, hban, hannounced]⟩
  · intro hexists
    obtain ⟨entity, h⟩ := hexists
    obtain ⟨a, hban, hrule⟩ := Option.bind_eq_some_iff.1 h
    by_cases hannounced : a.announced = true
    · rw [if_pos hannounced] at hrule
      exact ⟨entity, a, hban, hannounced, (Option.some.inj hrule).symm⟩
    · simp [hannounced] at hrule

theorem destination_of_acceptedRule? {e : Engine} {entity : Network} {rule : Rule}
    (h : e.acceptedRule? entity = some rule) : rule.destination = some entity := by
  obtain ⟨a, -, hrule⟩ := Option.bind_eq_some_iff.1 h
  split at hrule
  · rw [← Option.some.inj hrule]
    exact Rule.destination_against entity a e.action
  · simp at hrule

theorem announcedRules_congr {e f : Engine}
    (h : ∀ entity, f.acceptedRule? entity = e.acceptedRule? entity) :
    f.announcedRules = e.announcedRules := by
  ext rule
  simp only [mem_announcedRules_iff, h]

/-- Accepting the rule of one more ban adds this rule. -/
theorem announcedRules_insert {e f : Engine} {entity : Network} {rule : Rule}
    (hself : f.acceptedRule? entity = some rule) (hnone : e.acceptedRule? entity = none)
    (hother : ∀ other, entity ≠ other → f.acceptedRule? other = e.acceptedRule? other) :
    f.announcedRules = insert rule e.announcedRules := by
  ext r
  rw [Set.mem_insert_iff, mem_announcedRules_iff, mem_announcedRules_iff]
  constructor
  · intro haccepted
    obtain ⟨other, hr⟩ := haccepted
    by_cases heq : entity = other
    · subst heq
      exact .inl (Option.some.inj (hr.symm.trans hself))
    · exact .inr ⟨other, (hother other heq).symm.trans hr⟩
  · intro hcases
    rcases hcases with rfl | ⟨other, hr⟩
    · exact ⟨entity, hself⟩
    · have hne : entity ≠ other := by
        intro heq
        rw [← heq, hnone] at hr
        exact absurd hr (by simp)
      exact ⟨other, (hother other hne).trans hr⟩

theorem notMem_announcedRules {e : Engine} {entity : Network} {rule : Rule}
    (hnone : e.acceptedRule? entity = none) (haimed : rule.destination = some entity) :
    rule ∉ e.announcedRules := by
  rw [mem_announcedRules_iff]
  intro haccepted
  obtain ⟨other, hr⟩ := haccepted
  have hdest := destination_of_acceptedRule? hr
  rw [haimed, Option.some.injEq] at hdest
  subst hdest
  rw [hnone] at hr
  exact absurd hr (by simp)

theorem acceptedRule?_withoutBan (e : Engine) (entity other : Network) :
    (e.withoutBan entity).acceptedRule? other =
      if entity = other then none else e.acceptedRule? other := by
  simp only [acceptedRule?, withoutBan, BanList.get?_unban]
  split <;> rfl

theorem acceptedRule?_withBan (e : Engine) (entity other : Network) (a : Attack) :
    (e.withBan entity a).acceptedRule? other =
      if entity = other then (if a.announced = true then some (e.ruleFor entity a) else none)
      else e.acceptedRule? other := by
  simp only [acceptedRule?, withBan, BanList.get?_put]
  split
  · rename_i heq
    subst heq
    rfl
  · rfl

theorem mem_pendingRules_iff (e : Engine) (rule : Rule) :
    rule ∈ e.pendingRules ↔ ∃ entity, (entity, rule) ∈ e.pending := Iff.rfl

theorem pendingRules_concat (e : Engine) (pending : List (Network × Rule))
    (entry : Network × Rule) :
    (e.withPending (pending ++ [entry])).pendingRules =
      insert entry.2 (e.withPending pending).pendingRules := by
  ext rule
  simp only [mem_pendingRules_iff, withPending, Set.mem_insert_iff, List.mem_append,
    List.mem_singleton]
  constructor
  · intro hexists
    rcases hexists with ⟨entity, hold | rfl⟩
    · exact .inr ⟨entity, hold⟩
    · exact .inl rfl
  · intro hcases
    rcases hcases with rfl | ⟨entity, hold⟩
    · exact ⟨entry.1, .inr rfl⟩
    · exact ⟨entity, .inl hold⟩

/-- Dropping the entry of a rule drops the rule, since no other entity has an entry for it. -/
theorem pendingRules_filter {e : Engine}
    (haimed : ∀ entry ∈ e.pending, entry.2.destination = some entry.1) (entity : Network)
    (a : Attack) :
    (e.withPending (e.pending.filter (· ≠ (entity, e.ruleFor entity a)))).pendingRules =
      e.pendingRules \ {e.ruleFor entity a} := by
  ext rule
  constructor
  · intro hpend
    obtain ⟨other, hmem⟩ := hpend
    obtain ⟨hold, hne⟩ := List.mem_filter.1 hmem
    refine ⟨⟨other, hold⟩, ?_⟩
    intro heq
    rw [Set.mem_singleton_iff] at heq
    subst heq
    have hdestination := haimed (other, _) hold
    rw [ruleFor, Rule.destination_against, Option.some.injEq] at hdestination
    simp [hdestination] at hne
  · intro hpend
    obtain ⟨⟨other, hold⟩, hne⟩ := hpend
    refine ⟨other, List.mem_filter.2 ⟨hold, ?_⟩⟩
    simp only [ne_eq, Prod.mk.injEq, decide_eq_true_eq, not_and]
    exact fun _ heq => hne heq

theorem heldAfter_failed {w : World} {e : Engine} {request : Request} {reason : MitigationError}
    (h : e.failure? w request = some reason) :
    heldAfter (e.exchange w request).exchanges = heldAfter e.exchanges := by
  simp only [exchange, heldAfter_concat, Exchange.apply, h]

theorem heldAfter_announced {w : World} {e : Engine} {rule : Rule}
    (h : e.failure? w (.announce rule) = none) :
    heldAfter (e.exchange w (.announce rule)).exchanges = insert rule (heldAfter e.exchanges) := by
  simp only [exchange, heldAfter_concat, Exchange.apply, h]

theorem heldAfter_withdrawn {w : World} {e : Engine} {rule : Rule}
    (h : e.failure? w (.withdraw rule) = none) :
    heldAfter (e.exchange w (.withdraw rule)).exchanges = heldAfter e.exchanges \ {rule} := by
  simp only [exchange, heldAfter_concat, Exchange.apply, h]

/-- The order of the pending withdrawals does not matter. -/
theorem Agrees.perm {e : Engine} (h : e.Agrees) {pending : List (Network × Rule)}
    (hperm : e.pending.Perm pending) : (e.withPending pending).Agrees := by
  have hrules : (e.withPending pending).pendingRules = e.pendingRules := by
    ext rule
    simp only [mem_pendingRules_iff, withPending, hperm.mem_iff]
  refine ⟨?_, ?_, hperm.nodup_iff.1 h.nodup, ?_, h.ordered⟩
  · rw [hrules]
    exact h.held
  · rw [hrules]
    exact h.apart
  · intro entry hentry
    exact h.aimed entry (hperm.mem_iff.2 hentry)

/-- A rule is pending once only, since all its entries are aimed at the same entity. -/
theorem Agrees.notMem_pendingRules_of_concat {e : Engine} {entity : Network} {rule : Rule}
    (h : (e.withPending (e.pending ++ [(entity, rule)])).Agrees) : rule ∉ e.pendingRules := by
  have hlast := h.aimed (entity, rule) (by simp [withPending])
  intro hpend
  obtain ⟨other, hmem⟩ := hpend
  have hother := h.aimed (other, rule) (List.mem_append_left _ hmem)
  rw [hlast, Option.some.injEq] at hother
  subst hother
  exact (List.nodup_append.1 h.nodup).2.2 _ hmem _ (List.mem_singleton_self _) rfl

/-- A rule that agrees as a pending one may be withdrawn: it is pending again if that fails, and
gone from the announcer if it succeeds. -/
theorem Agrees.withdraw {e : Engine} {entity : Network} {rule : Rule}
    (h : (e.withPending (e.pending ++ [(entity, rule)])).Agrees) (w : World) :
    (e.withdraw w entity rule).Agrees := by
  have hpending := pendingRules_concat e e.pending (entity, rule)
  have hheld := h.held
  have hapart := h.apart
  rw [hpending] at hheld hapart
  have hnotAnnounced : rule ∉ e.announcedRules := fun hmem =>
    hapart rule hmem (Set.mem_insert _ _)
  have horder : ∀ failure, Exchange.InOrder e.action (heldAfter e.exchanges)
      ⟨.withdraw rule, failure, e.standing rule⟩ := by
    intro failure
    refine ⟨?_, ?_⟩
    · show rule ∈ heldAfter (e.withPending (e.pending ++ [(entity, rule)])).exchanges
      rw [hheld]
      exact .inr (Set.mem_insert _ _)
    · intro other a hstanding hannounced heq
      subst heq
      have hban := (standing_ruleFor e e other a).symm.trans hstanding
      exact hnotAnnounced ⟨other, a, hban, hannounced, rfl⟩
  cases hf : e.failure? w (.withdraw rule) with
  | some reason =>
    rw [withdraw_of_failure hf]
    exact ⟨(heldAfter_failed hf).trans h.held, h.apart, h.nodup, h.aimed,
      h.ordered.concat (horder _)⟩
  | none =>
    have hnotPending := h.notMem_pendingRules_of_concat
    rw [withdraw_of_success hf]
    refine ⟨?_, ?_, (List.nodup_append.1 h.nodup).1, ?_, h.ordered.concat (horder _)⟩
    · rw [heldAfter_withdrawn hf]
      show heldAfter (e.withPending (e.pending ++ [(entity, rule)])).exchanges \ {rule} =
        e.announcedRules ∪ e.pendingRules
      rw [hheld]
      show (e.announcedRules ∪ insert rule e.pendingRules) \ {rule} = _
      rw [Set.union_insert, Set.insert_sdiff_self_of_notMem]
      intro hmem
      rcases hmem with hmem | hmem
      · exact hnotAnnounced hmem
      · exact hnotPending hmem
    · intro other hmem hpend
      exact hapart other hmem (Set.mem_insert_of_mem _ hpend)
    · intro entry hentry
      exact h.aimed entry (List.mem_append_left _ hentry)

/-- The accepted rule of a lifted ban agrees as a pending one. -/
theorem Agrees.queue {e : Engine} (h : e.Agrees) {entity : Network} {a : Attack}
    (hban : e.bans.get? entity = some a) (hannounced : a.announced = true) :
    ((e.withoutBan entity).withPending (e.pending ++ [(entity, e.ruleFor entity a)])).Agrees := by
  have hself : e.acceptedRule? entity = some (e.ruleFor entity a) := by
    simp [acceptedRule?, hban, hannounced]
  have hnone : (e.withoutBan entity).acceptedRule? entity = none := by
    rw [acceptedRule?_withoutBan, if_pos rfl]
  have hrules : e.announcedRules =
      insert (e.ruleFor entity a) (e.withoutBan entity).announcedRules := by
    apply announcedRules_insert hself hnone
    intro other hne
    rw [acceptedRule?_withoutBan, if_neg hne]
  have hmem : e.ruleFor entity a ∈ e.announcedRules := ⟨entity, a, hban, hannounced, rfl⟩
  have hnotPending : e.ruleFor entity a ∉ e.pendingRules := h.apart _ hmem
  have hpending : ((e.withoutBan entity).withPending
      (e.pending ++ [(entity, e.ruleFor entity a)])).pendingRules =
        insert (e.ruleFor entity a) e.pendingRules :=
    pendingRules_concat (e.withoutBan entity) e.pending (entity, e.ruleFor entity a)
  have hnotAccepted := notMem_announcedRules hnone (Rule.destination_against entity a e.action)
  refine ⟨?_, ?_, ?_, ?_, h.ordered⟩
  · rw [hpending]
    refine h.held.trans ?_
    rw [hrules, Set.insert_union, ← Set.union_insert]
    rfl
  · intro rule hrule
    rw [hpending, Set.mem_insert_iff, not_or]
    constructor
    · intro heq
      rw [heq] at hrule
      exact hnotAccepted hrule
    · apply h.apart rule
      rw [hrules]
      exact Set.mem_insert_of_mem _ hrule
  · refine List.nodup_append.2 ⟨h.nodup, List.nodup_singleton _, ?_⟩
    intro entry hentry last hlast heq
    rw [List.mem_singleton] at hlast
    subst heq hlast
    exact hnotPending ⟨entity, hentry⟩
  · intro entry hentry
    rcases List.mem_append.1 hentry with hold | hlast
    · exact h.aimed entry hold
    · rw [List.mem_singleton] at hlast
      subst hlast
      exact Rule.destination_against entity a e.action

/-- What changes neither accepted rules nor the queue nor the record keeps the agreement. -/
theorem Agrees.congr {e f : Engine} (h : e.Agrees)
    (haccepted : ∀ entity, f.acceptedRule? entity = e.acceptedRule? entity)
    (hpending : f.pending = e.pending) (hexchanges : f.exchanges = e.exchanges)
    (haction : f.action = e.action) : f.Agrees := by
  have hannounced := announcedRules_congr haccepted
  have hrules : f.pendingRules = e.pendingRules := by
    rw [pendingRules, hpending]
    rfl
  refine ⟨?_, ?_, ?_, ?_, ?_⟩
  · rw [hexchanges, hannounced, hrules, h.held]
  · rw [hannounced, hrules]
    exact h.apart
  · rw [hpending]
    exact h.nodup
  · rw [hpending]
    exact h.aimed
  · rw [haction, hexchanges]
    exact h.ordered

theorem Agrees.announce {e : Engine} (h : e.Agrees) {entity : Network} {a : Attack}
    (hban : e.bans.get? entity = some a) (hopen : a.announced = false) (w : World) :
    (e.announce w entity a).Agrees := by
  have horder : ∀ failure, Exchange.InOrder e.action (heldAfter e.exchanges)
      ⟨.announce (e.ruleFor entity a), failure, e.standing (e.ruleFor entity a)⟩ :=
    fun _ => ⟨entity, a, (standing_ruleFor e e entity a).trans hban, hopen, rfl⟩
  cases hf : e.failure? w (.announce (e.ruleFor entity a)) with
  | some reason =>
    rw [announce_of_failure hf]
    exact ⟨(heldAfter_failed hf).trans h.held, h.apart, h.nodup, h.aimed,
      h.ordered.concat (horder _)⟩
  | none =>
    -- A pending withdrawal of the same rule is dropped, so the rule moves from one side to the
    -- other.
    let f : Engine := { e.exchange w (.announce (e.ruleFor entity a)) with
      bans := e.bans.setAnnounced entity true
      pending := e.pending.filter (· ≠ (entity, e.ruleFor entity a)) }
    have hf' : e.announce w entity a = f := announce_of_success hf
    have hbans : f.bans = e.bans.put entity { a with announced := true } :=
      BanList.update_of_some hban _
    have hself : f.acceptedRule? entity = some (e.ruleFor entity a) := by
      rw [acceptedRule?, hbans, BanList.get?_put_self]
      rfl
    have hother : ∀ other, entity ≠ other → f.acceptedRule? other = e.acceptedRule? other := by
      intro other hne
      rw [acceptedRule?, hbans, BanList.get?_put_of_ne _ _ hne]
      rfl
    have hnone : e.acceptedRule? entity = none := by
      simp [acceptedRule?, hban, hopen]
    have hrules : f.announcedRules = insert (e.ruleFor entity a) e.announcedRules :=
      announcedRules_insert hself hnone hother
    have hpending : f.pendingRules = e.pendingRules \ {e.ruleFor entity a} :=
      pendingRules_filter h.aimed entity a
    rw [hf']
    refine ⟨?_, ?_, h.nodup.filter _, ?_, h.ordered.concat (horder _)⟩
    · rw [hrules, hpending, Set.insert_union, ← Set.union_insert, Set.insert_sdiff_singleton,
        Set.union_insert, ← h.held]
      exact heldAfter_announced hf
    · intro rule hrule hpend
      rw [hrules] at hrule
      rw [hpending] at hpend
      rcases hrule with heq | hrule
      · exact hpend.2 heq
      · exact h.apart rule hrule hpend.1
    · intro entry hentry
      exact h.aimed entry (List.mem_filter.1 hentry).1

/-- The rule against an attack does not depend on what a refresh moves. -/
theorem ruleFor_refresh (e : Engine) (entity : Network) (a : Attack) (average : Counters) :
    e.ruleFor entity (a.refresh average) = e.ruleFor entity a := by
  rw [Attack.refresh_eq]
  rfl

theorem acceptedRule?_refresh {e : Engine} {entity : Network} {a : Attack}
    (hban : e.bans.get? entity = some a) (average : Counters) (other : Network) :
    (e.withBan entity (a.refresh average)).acceptedRule? other = e.acceptedRule? other := by
  rw [acceptedRule?_withBan, ruleFor_refresh, Attack.announced_refresh]
  split
  · rename_i heq
    subst heq
    rw [acceptedRule?, hban]
    rfl
  · rfl

theorem acceptedRule?_startBan {w : World} {e : Engine} {o : Observation} {breach : Breach}
    {context : BanContext} {now : UInt64} (hfree : e.bans.get? o.entity = none)
    (other : Network) :
    (e.startBan w o breach context now).acceptedRule? other = e.acceptedRule? other := by
  show (e.withBan o.entity (e.newAttack w o breach context now)).acceptedRule? other = _
  rw [acceptedRule?_withBan]
  split
  · rename_i heq
    subst heq
    rw [acceptedRule?, hfree]
    rfl
  · rfl

theorem acceptedRule?_of_open {e : Engine} {entity : Network} {a : Attack}
    (hban : e.bans.get? entity = some a) (hopen : a.announced ≠ true) :
    e.acceptedRule? entity = none := by
  rw [acceptedRule?, hban, Option.bind_some, if_neg hopen]

theorem Agrees.lift {e : Engine} (h : e.Agrees) {entity : Network} {a : Attack}
    (hban : e.bans.get? entity = some a) (w : World) : (e.lift w (entity, a)).Agrees := by
  by_cases hannounced : a.announced = true
  · rw [Engine.lift, release, if_pos hannounced]
    exact Agrees.withdraw (h.queue hban hannounced) w
  · rw [Engine.lift, release, if_neg hannounced]
    refine h.congr ?_ rfl rfl rfl
    intro other
    rw [acceptedRule?_withoutBan]
    split
    · rename_i heq
      subst heq
      exact (acceptedRule?_of_open hban hannounced).symm
    · rfl

/-- Every move keeps the engine and the announcer in agreement. -/
theorem Move.agrees {w : World} {e f : Engine} (hmove : Move w e f) (h : e.Agrees) : f.Agrees := by
  cases hmove with
  | retry entry rest hpending =>
    have hperm : e.pending.Perm (rest ++ [entry]) := by
      rw [hpending]
      exact (List.perm_append_singleton entry rest).symm
    exact Agrees.withdraw (e := e.withPending rest) (h.perm hperm) w
  | refresh entity a average hbanned =>
    exact h.congr (acceptedRule?_refresh hbanned average) rfl rfl rfl
  | start o breach context now hfree hcharge =>
    exact h.congr (acceptedRule?_startBan hfree) rfl rfl rfl
  | announce entity a hbanned hopen => exact h.announce hbanned hopen w
  | lift entity a hbanned => exact h.lift hbanned w
  | turn table policies traffic sessions => exact h.congr (fun _ => rfl) rfl rfl rfl

theorem agrees_fresh (c : Config) : (fresh c).Agrees := by
  have haccepted : (fresh c).announcedRules = ∅ := by
    ext rule
    rw [mem_announcedRules_iff]
    simp [acceptedRule?, fresh, ofConfig, BanList.get?]
  have hpending : (fresh c).pendingRules = ∅ := by
    ext rule
    simp [mem_pendingRules_iff, fresh, ofConfig]
  refine ⟨?_, ?_, List.nodup_nil, ?_, ?_⟩
  · rw [haccepted, hpending, Set.union_empty]
    rfl
  · intro rule hrule
    rw [haccepted] at hrule
    exact absurd hrule (Set.notMem_empty rule)
  · intro entry hentry
    exact absurd hentry List.not_mem_nil
  · intro before x after heq
    simp [fresh, ofConfig] at heq

/-- After every run the announcer holds exactly the accepted rules of active bans and the rules
whose withdrawal is pending, and no rule is both; no withdrawal is pending twice, each is for a rule
about its entity, and every request of the run was in order at its moment. -/
theorem announcer_agreement (w : World) (c : Config) (ops : List Operation) :
    let e := (fresh c).run w ops
    heldAfter e.exchanges = e.announcedRules ∪ e.pendingRules ∧
      (∀ rule ∈ e.announcedRules, rule ∉ e.pendingRules) ∧
      e.pending.Nodup ∧
      (∀ entry ∈ e.pending, entry.2.destination = some entry.1) ∧
      AllInOrder e.action e.exchanges := by
  have h : ((fresh c).run w ops).Agrees :=
    invariant_run (fun _ _ hmove he => hmove.agrees he) (agrees_fresh c) ops
  exact ⟨h.held, h.apart, h.nodup, h.aimed, h.ordered⟩

theorem announcer_agreement_of_failed_withdrawal :
    let w : World :=
      { reply := fun _ request => match request with
          | .announce _ => none
          | .withdraw _ => some (.unavailable "no route")
        draw := fun _ => .ok .nil }
    let e := (fresh minuteBans).run w [.cycle [attackedHost] 7, .unban attackedHost.entity]
    ∃ rule, e.pending = [(attackedHost.entity, rule)] ∧ rule ∈ heldAfter e.exchanges ∧
      rule.destination = some attackedHost.entity := by
  intro w e
  obtain ⟨hheld, -, -, haimed, -⟩ := announcer_agreement w minuteBans
    [.cycle [attackedHost] 7, .unban attackedHost.entity]
  have hqueue : e.pending.map Prod.fst = [attackedHost.entity] := by decide +kernel
  obtain ⟨entry, hpending, hentity⟩ := List.map_eq_singleton_iff.1 hqueue
  have hmem : entry ∈ e.pending := by rw [hpending]; exact List.mem_singleton_self _
  refine ⟨entry.2, ?_, ?_, ?_⟩
  · rw [hpending, ← hentity]
  · rw [hheld]
    exact .inr ⟨entry.1, hmem⟩
  · rw [← hentity]
    exact haimed entry hmem

end Engine

end FloodGuard

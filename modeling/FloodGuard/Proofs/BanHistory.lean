import FloodGuard.Proofs.BanRecords
import Mathlib.Data.List.Induction
import Mathlib.Data.Set.Insert
import Mathlib.Order.Bounds.Defs

/-!
A list of bans as a function of its history. The record of a banned entity is made by the call that
started the ban and by what the list was told of the entity since: its averages are the latest ones,
its peak is the greatest value of the detected dimension, and whether its rule is accepted and which
reflector is behind it is what was said last. Everything else is as the call fixed it. Events that
name another entity have no part in a record, and a lifted ban leaves nothing to the next one.
-/
namespace FloodGuard

/-- A breach as it is reported to a list of bans, with the identifier that was drawn for it. -/
structure BanCall where
  breach : Breach
  current : Counters
  average : Counters
  context : BanContext
  now : UInt64
  drawn : Except UuidError Uuid

/-- What happens to a list of bans. -/
inductive BanEvent where
  | ban (entity : Network) (call : BanCall)
  | refresh (entity : Network) (average : Counters)
  | setAnnounced (entity : Network) (announced : Bool)
  | setReflector (entity : Network) (reflector : Option Reflector)
  | sweep (now : UInt64)
  | unban (entity : Network)

namespace BanEvent

/-- The entity that an event names; a sweep names none. -/
def entity? : BanEvent → Option Network
  | .ban entity _ => some entity
  | .refresh entity _ => some entity
  | .setAnnounced entity _ => some entity
  | .setReflector entity _ => some entity
  | .sweep _ => none
  | .unban entity => some entity

theorem eq_sweep_of_entity?_eq_none {event : BanEvent} (h : event.entity? = none) :
    ∃ now, event = .sweep now := by
  cases event with
  | sweep now => exact ⟨now, rfl⟩
  | ban => exact absurd h (by simp [entity?])
  | refresh => exact absurd h (by simp [entity?])
  | setAnnounced => exact absurd h (by simp [entity?])
  | setReflector => exact absurd h (by simp [entity?])
  | unban => exact absurd h (by simp [entity?])

/-- The averages that an event tells of its entity. -/
def average? : BanEvent → Option Counters
  | .ban _ call => some call.average
  | .refresh _ average => some average
  | _ => none

/-- What an event says about the acceptance of the rule. -/
def announced? : BanEvent → Option Bool
  | .setAnnounced _ announced => some announced
  | _ => none

/-- What an event says about the reflector, which may be that there is none. -/
def reflector? : BanEvent → Option (Option Reflector)
  | .setReflector _ reflector => some reflector
  | _ => none

/-- Whether an event lifts the ban of an entity that a call started. -/
def Lifts (event : BanEvent) (entity : Network) (call : BanCall) : Prop :=
  match event with
  | .sweep now =>
    call.context.policy.expires = true ∧
      call.context.policy.banTime.toNat ≤ now.toNat - call.now.toNat
  | .unban other => other = entity
  | _ => False

end BanEvent

/-- What a list of bans answers to an event. -/
inductive BanAnswer where
  | outcome (outcome : BanOutcome)
  /-- The record of the entity, if it is banned. -/
  | record (attack : Option Attack)
  /-- Whether the entity is banned. -/
  | known (banned : Bool)
  /-- The bans that a sweep lifts. -/
  | lifted (bans : List (Network × Attack))

namespace BanCall

/-- The record that a call starts a ban with. -/
def attack (call : BanCall) (entity : Network) : Attack :=
  (Attack.ofBreach entity call.breach call.current call.average call.context call.now).identifiedBy
    call.drawn

/-- The values that the detected dimension had in a ban: the one that started it, and those in the
averages that were told since. Without a dimension nothing is measured. -/
def measured (call : BanCall) (told : List BanEvent) : Set UInt64 :=
  {p | p = call.breach.value ∨ ∃ average ∈ told.filterMap BanEvent.average?,
    measure average call.breach.dimension call.breach.side = some p}

end BanCall

/-- Whether a record is the one of a ban that a call started, after some events that name the
entity. -/
structure Attack.Records (a : Attack) (entity : Network) (call : BanCall)
    (told : List BanEvent) : Prop where
  traffic : a.traffic = call.current
  group : a.group = call.context.group
  parentGroup : a.parentGroup = call.context.parent.getD ""
  direction : a.direction = call.breach.direction
  power : a.power = call.breach.value
  peak : IsGreatest (call.measured told) a.peak
  protocol : a.protocol = call.breach.protocol
  averages : a.averages =
    .ofCounters ((told.filterMap BanEvent.average?).getLast?.getD call.average)
  startedAt : a.startedAt = call.now
  expires : a.expires = call.context.policy.expires
  banTime : a.banTime = call.context.policy.banTime
  isV6 : a.isV6 = entity.isV6
  customerNetwork : a.customerNetwork = call.context.customerNetwork
  source : a.source = .automatic
  uuid : a.uuid = call.drawn.toOption.getD .nil
  severity : a.severity = .of call.breach.value call.breach.threshold
  dimension : a.dimension = call.breach.dimension
  side : a.side = call.breach.side
  reflector : a.reflector = (told.filterMap BanEvent.reflector?).getLast?.getD none
  announced : a.announced = (told.filterMap BanEvent.announced?).getLast?.getD false

theorem getLast?_filterMap_concat {α β : Type} (f : α → Option β) (xs : List α) (x : α) :
    ((xs ++ [x]).filterMap f).getLast? = (f x).or (xs.filterMap f).getLast? := by
  rw [List.filterMap_append, List.getLast?_append]
  cases h : f x <;> simp [h]

theorem isGreatest_insert_max {s : Set UInt64} {p : UInt64} (h : IsGreatest s p) (q : UInt64) :
    IsGreatest (insert q s) (max p q) := by
  have hmax : max p q = if p ≤ q then q else p := rfl
  rw [hmax]
  split
  · rename_i hle
    refine ⟨Set.mem_insert q s, ?_⟩
    intro r hr
    rcases hr with rfl | hr
    · exact UInt64.le_refl r
    · exact UInt64.le_trans (h.2 hr) hle
  · rename_i hnot
    refine ⟨Set.mem_insert_of_mem q h.1, ?_⟩
    intro r hr
    rcases hr with rfl | hr
    · exact (UInt64.le_total r p).resolve_right hnot
    · exact h.2 hr

namespace BanCall

theorem measured_nil (call : BanCall) : call.measured [] = {call.breach.value} := by
  ext p
  simp [measured]

theorem measured_concat_of_some {call : BanCall} {event : BanEvent} {average : Counters}
    {power : UInt64} (haverage : event.average? = some average)
    (hpower : measure average call.breach.dimension call.breach.side = some power)
    (told : List BanEvent) :
    call.measured (told ++ [event]) = insert power (call.measured told) := by
  ext p
  simp only [measured, List.filterMap_append, List.filterMap_cons, haverage, List.filterMap_nil,
    List.mem_append, List.mem_singleton, Set.mem_insert_iff, Set.mem_ofPred_eq]
  constructor
  · intro hp
    rcases hp with hp | ⟨counters, hold | rfl, hmeasure⟩
    · exact .inr (.inl hp)
    · exact .inr (.inr ⟨counters, hold, hmeasure⟩)
    · exact .inl (Option.some.inj (hmeasure.symm.trans hpower))
  · intro hp
    rcases hp with rfl | hp | ⟨counters, hold, hmeasure⟩
    · exact .inr ⟨average, .inr rfl, hpower⟩
    · exact .inl hp
    · exact .inr ⟨counters, .inl hold, hmeasure⟩

theorem measured_concat_of_none {call : BanCall} {event : BanEvent}
    (h : ∀ average, event.average? = some average →
      measure average call.breach.dimension call.breach.side = none)
    (told : List BanEvent) : call.measured (told ++ [event]) = call.measured told := by
  ext p
  cases haverage : event.average? with
  | none => simp [measured, haverage]
  | some average =>
    have hnone := h average haverage
    simp only [measured, List.filterMap_append, List.filterMap_cons, haverage, List.filterMap_nil,
      List.mem_append, List.mem_singleton, Set.mem_ofPred_eq]
    refine or_congr_right ?_
    constructor
    · intro hexists
      obtain ⟨counters, hold | rfl, hmeasure⟩ := hexists
      · exact ⟨counters, hold, hmeasure⟩
      · exact absurd (hnone.symm.trans hmeasure) (by simp)
    · intro hexists
      obtain ⟨counters, hold, hmeasure⟩ := hexists
      exact ⟨counters, .inl hold, hmeasure⟩

end BanCall

namespace Attack

/-- A record is determined by the call and what was told since. -/
theorem Records.unique {a b : Attack} {entity : Network} {call : BanCall} {told : List BanEvent}
    (ha : a.Records entity call told) (hb : b.Records entity call told) : a = b := by
  have hpeak : a.peak = b.peak :=
    UInt64.le_antisymm (hb.peak.2 ha.peak.1) (ha.peak.2 hb.peak.1)
  rcases a with ⟨⟩
  rcases b with ⟨⟩
  rw [Attack.mk.injEq]
  exact ⟨ha.traffic.trans hb.traffic.symm, ha.group.trans hb.group.symm,
    ha.parentGroup.trans hb.parentGroup.symm, ha.direction.trans hb.direction.symm,
    ha.power.trans hb.power.symm, hpeak, ha.protocol.trans hb.protocol.symm,
    ha.averages.trans hb.averages.symm, ha.startedAt.trans hb.startedAt.symm,
    ha.expires.trans hb.expires.symm, ha.banTime.trans hb.banTime.symm,
    ha.isV6.trans hb.isV6.symm, ha.customerNetwork.trans hb.customerNetwork.symm,
    ha.source.trans hb.source.symm, ha.uuid.trans hb.uuid.symm,
    ha.severity.trans hb.severity.symm, ha.dimension.trans hb.dimension.symm,
    ha.side.trans hb.side.symm, ha.reflector.trans hb.reflector.symm,
    ha.announced.trans hb.announced.symm⟩

theorem records_attack (call : BanCall) (entity : Network) :
    (call.attack entity).Records entity call [] := by
  have hpeak : IsGreatest (call.measured []) (call.attack entity).peak := by
    rw [call.measured_nil]
    exact ⟨rfl, fun p hp => UInt64.le_of_eq hp⟩
  exact ⟨rfl, rfl, rfl, rfl, rfl, hpeak, rfl, rfl, rfl, rfl, rfl, rfl, rfl, rfl, rfl, rfl, rfl, rfl,
    rfl, rfl⟩

variable {a : Attack} {entity : Network} {call : BanCall} {told : List BanEvent}

/-- New averages are taken over, and the peak follows the dimension that the ban started with. -/
theorem Records.refresh (h : a.Records entity call told) {event : BanEvent} {average : Counters}
    (haverage : event.average? = some average) (hannounced : event.announced? = none)
    (hreflector : event.reflector? = none) :
    (a.refresh average).Records entity call (told ++ [event]) := by
  have hpeak : IsGreatest (call.measured (told ++ [event])) (a.refresh average).peak := by
    have hmeasured : a.measured? average =
        measure average call.breach.dimension call.breach.side := by
      rw [measured?, h.dimension, h.side]
    rw [refresh_eq, hmeasured]
    cases hpower : measure average call.breach.dimension call.breach.side with
    | some power =>
      rw [BanCall.measured_concat_of_some haverage hpower]
      exact isGreatest_insert_max h.peak power
    | none =>
      rw [BanCall.measured_concat_of_none]
      · exact h.peak
      · intro other hother
        obtain rfl : average = other := Option.some.inj (haverage.symm.trans hother)
        exact hpower
  rw [refresh_eq] at hpeak ⊢
  refine { h with peak := hpeak, averages := ?_, reflector := ?_, announced := ?_ }
  · rw [getLast?_filterMap_concat, haverage]
    rfl
  · rw [getLast?_filterMap_concat, hreflector, Option.none_or]
    exact h.reflector
  · rw [getLast?_filterMap_concat, hannounced, Option.none_or]
    exact h.announced

/-- What is said about the acceptance of the rule or the reflector replaces what was said before. -/
theorem Records.tell (h : a.Records entity call told) (event : BanEvent)
    (haverage : event.average? = none) :
    { a with
      reflector := event.reflector?.getD a.reflector
      announced := event.announced?.getD a.announced }.Records entity call (told ++ [event]) := by
  have hpeak : IsGreatest (call.measured (told ++ [event])) a.peak := by
    rw [BanCall.measured_concat_of_none]
    · exact h.peak
    · simp [haverage]
  refine { h with peak := hpeak, averages := ?_, reflector := ?_, announced := ?_ }
  · rw [getLast?_filterMap_concat, haverage, Option.none_or]
    exact h.averages
  · rw [getLast?_filterMap_concat, Option.getD_or, ← h.reflector]
  · rw [getLast?_filterMap_concat, Option.getD_or, ← h.announced]

end Attack

namespace BanList

def apply (l : BanList) : BanEvent → BanList
  | .ban entity call =>
    (l.ban entity call.breach call.current call.average call.context call.now call.drawn).2
  | .refresh entity average => l.refresh entity average
  | .setAnnounced entity announced => l.setAnnounced entity announced
  | .setReflector entity reflector => l.setReflector entity reflector
  | .sweep now => l.sweep now
  | .unban entity => l.unban entity

def answer (l : BanList) : BanEvent → BanAnswer
  | .ban entity call =>
    .outcome (l.ban entity call.breach call.current call.average call.context call.now
      call.drawn).1
  | .refresh entity average => .record (l.refreshBan entity average).1
  | .setAnnounced entity announced => .known (l.markAnnounced entity announced).1
  | .setReflector entity reflector => .known (l.markReflector entity reflector).1
  | .sweep now => .lifted (l.expire now).1
  | .unban entity => .record (l.lift entity).1

/-- An empty list after some events. -/
def after (events : List BanEvent) : BanList := events.foldl apply {}

theorem after_append (events more : List BanEvent) :
    after (events ++ more) = more.foldl apply (after events) := List.foldl_append

theorem get?_empty (entity : Network) : ({} : BanList).get? entity = none :=
  Std.ExtTreeMap.getElem?_empty

/-- The record that an event makes of the record of the entity that it names. -/
def recordAfter (found : Option Attack) : BanEvent → Option Attack
  | .ban entity call => some ((found.map fun a => a.refresh call.average).getD (call.attack entity))
  | .refresh _ average => found.map fun a => a.refresh average
  | .setAnnounced _ announced => found.map fun a => { a with announced }
  | .setReflector _ reflector => found.map fun a => { a with reflector }
  | .sweep now => found.filter fun a => !a.isOver now
  | .unban _ => none

/-- An event concerns the record of the entity that it names alone; a sweep concerns all. -/
theorem get?_apply (l : BanList) (event : BanEvent) (entity : Network) :
    (l.apply event).get? entity =
      if event.entity? = some entity ∨ event.entity? = none then
        recordAfter (l.get? entity) event
      else l.get? entity := by
  cases event with
  | ban other call =>
    have hban : l.apply (.ban other call) = l.put other
        (((l.get? other).map fun a => a.refresh call.average).getD (call.attack other)) := by
      cases h : l.get? other with
      | some a => rw [apply, ban_of_some h]; rfl
      | none =>
        obtain ⟨identified, heq⟩ := ban_of_none h call.breach call.current call.average
          call.context call.now call.drawn
        rw [apply, heq]
        rfl
    rw [hban, get?_put]
    by_cases heq : other = entity
    · subst heq
      simp [BanEvent.entity?, recordAfter]
    · simp [BanEvent.entity?, heq]
  | refresh other average => simp [apply, refresh_eq, get?_update, BanEvent.entity?, recordAfter]
  | setAnnounced other announced =>
    simp [apply, setAnnounced_eq, get?_update, BanEvent.entity?, recordAfter]
  | setReflector other reflector =>
    simp [apply, setReflector_eq, get?_update, BanEvent.entity?, recordAfter]
  | sweep now => simp [apply, get?_sweep, BanEvent.entity?, recordAfter]
  | unban other => simp [apply, get?_unban, BanEvent.entity?, recordAfter]

theorem get?_apply_of_ne {event : BanEvent} {entity other : Network}
    (hevent : event.entity? = some other) (hne : other ≠ entity) (l : BanList) :
    (l.apply event).get? entity = l.get? entity := by
  rw [get?_apply, hevent, if_neg]
  simp [hne]

/-- An event that names an entity without a ban leaves the list as it is, unless it starts one. -/
theorem apply_of_none {l : BanList} {event : BanEvent} {entity : Network}
    (hevent : event.entity? = some entity) (hnone : l.get? entity = none)
    (hban : ∀ call, event ≠ .ban entity call) : l.apply event = l := by
  apply ext
  intro other
  by_cases heq : entity = other
  · subst heq
    rw [get?_apply, if_pos (.inl hevent), hnone]
    cases event with
    | ban other call =>
      obtain rfl : other = entity := Option.some.inj hevent
      exact absurd rfl (hban call)
    | refresh => rfl
    | setAnnounced => rfl
    | setReflector => rfl
    | sweep => rfl
    | unban => rfl
  · exact get?_apply_of_ne hevent heq l

theorem get?_apply_ban_of_none {l : BanList} {entity : Network} (hnone : l.get? entity = none)
    (call : BanCall) : (l.apply (.ban entity call)).get? entity = some (call.attack entity) := by
  rw [get?_apply, if_pos (.inl rfl), hnone]
  rfl

theorem answer_of_none {l : BanList} {event : BanEvent} {entity : Network}
    (hevent : event.entity? = some entity) (hnone : l.get? entity = none)
    (hban : ∀ call, event ≠ .ban entity call) :
    l.answer event = .record none ∨ l.answer event = .known false := by
  cases event with
  | ban other call =>
    obtain rfl : other = entity := Option.some.inj hevent
    exact absurd rfl (hban call)
  | refresh other average =>
    obtain rfl : other = entity := Option.some.inj hevent
    rw [answer, refreshBan_fst, hnone]
    exact .inl rfl
  | setAnnounced other announced =>
    obtain rfl : other = entity := Option.some.inj hevent
    rw [answer, markAnnounced_fst, isBanned_of_none hnone]
    exact .inr rfl
  | setReflector other reflector =>
    obtain rfl : other = entity := Option.some.inj hevent
    rw [answer, markReflector_fst, isBanned_of_none hnone]
    exact .inr rfl
  | sweep now => exact absurd hevent (by simp [BanEvent.entity?])
  | unban other =>
    obtain rfl : other = entity := Option.some.inj hevent
    rw [answer, lift_of_none hnone]
    exact .inl rfl

theorem get?_apply_of_none {l : BanList} {event : BanEvent} {entity : Network}
    (hnone : l.get? entity = none) (hban : ∀ call, event ≠ .ban entity call) :
    (l.apply event).get? entity = none := by
  cases hentity : event.entity? with
  | none =>
    obtain ⟨now, rfl⟩ := BanEvent.eq_sweep_of_entity?_eq_none hentity
    rw [get?_apply, if_pos (.inr rfl), hnone]
    rfl
  | some other =>
    by_cases heq : other = entity
    · subst heq
      rw [apply_of_none hentity hnone hban, hnone]
    · rw [get?_apply_of_ne hentity heq, hnone]

/-- What some events told of an entity. -/
def told (entity : Network) (events : List BanEvent) : List BanEvent :=
  events.filter fun event => event.entity? = some entity

theorem told_concat (entity : Network) (events : List BanEvent) (event : BanEvent) :
    told entity (events ++ [event]) =
      told entity events ++ if event.entity? = some entity then [event] else [] := by
  rw [told, List.filter_append]
  by_cases h : event.entity? = some entity <;> simp [told, h]

variable {l : BanList} {entity : Network} {a : Attack} {call : BanCall} {since : List BanEvent}

theorem lifts_sweep_iff (h : a.Records entity call since) (now : UInt64) :
    (BanEvent.sweep now).Lifts entity call ↔ a.isOver now = true := by
  rw [a.isOver_iff, h.expires, h.banTime, h.startedAt]
  exact Iff.rfl

theorem get?_apply_of_lifts (ha : l.get? entity = some a) (h : a.Records entity call since)
    {event : BanEvent} (hlifts : event.Lifts entity call) : (l.apply event).get? entity = none := by
  cases event with
  | sweep now =>
    have hover := (lifts_sweep_iff h now).1 hlifts
    rw [get?_apply, if_pos (.inr rfl), ha]
    simp [recordAfter, Option.filter, hover]
  | unban other =>
    obtain rfl : other = entity := hlifts
    rw [get?_apply, if_pos (.inl rfl)]
    rfl
  | ban => exact hlifts.elim
  | refresh => exact hlifts.elim
  | setAnnounced => exact hlifts.elim
  | setReflector => exact hlifts.elim

/-- An event that does not lift a ban makes its record the one after one more event. -/
theorem get?_apply_of_not_lifts (ha : l.get? entity = some a)
    (h : a.Records entity call (told entity since)) {event : BanEvent}
    (hlifts : ¬ event.Lifts entity call) :
    ∃ b, (l.apply event).get? entity = some b ∧
      b.Records entity call (told entity (since ++ [event])) := by
  rw [told_concat]
  by_cases hnamed : event.entity? = some entity
  · rw [get?_apply, if_pos (.inl hnamed), if_pos hnamed, ha]
    cases event with
    | ban other new => exact ⟨_, rfl, h.refresh rfl rfl rfl⟩
    | refresh other average => exact ⟨_, rfl, h.refresh rfl rfl rfl⟩
    | setAnnounced other announced => exact ⟨_, rfl, h.tell (.setAnnounced other announced) rfl⟩
    | setReflector other reflector => exact ⟨_, rfl, h.tell (.setReflector other reflector) rfl⟩
    | sweep now => exact absurd hnamed (by simp [BanEvent.entity?])
    | unban other => exact absurd (Option.some.inj hnamed) hlifts
  · rw [if_neg hnamed, List.append_nil]
    refine ⟨a, ?_, h⟩
    cases hentity : event.entity? with
    | some other =>
      rw [get?_apply_of_ne hentity (fun heq => hnamed (hentity.trans (congrArg some heq))), ha]
    | none =>
      obtain ⟨now, rfl⟩ := BanEvent.eq_sweep_of_entity?_eq_none hentity
      have hover : ¬ a.isOver now = true := fun hover => hlifts ((lifts_sweep_iff h now).2 hover)
      rw [get?_apply, if_pos (.inr rfl), ha]
      simp [recordAfter, Option.filter, hover]

/-- A ban that no event lifts is there after them, with the record of all of them. -/
theorem get?_foldl_apply_of_not_lifts (ha : l.get? entity = some a)
    (h : a.Records entity call []) (hlifts : ∀ event ∈ since, ¬ event.Lifts entity call) :
    ∃ b, (since.foldl apply l).get? entity = some b ∧
      b.Records entity call (told entity since) := by
  induction since using List.reverseRecOn with
  | nil => exact ⟨a, ha, h⟩
  | append_singleton earlier event ih =>
    rw [List.foldl_append]
    obtain ⟨b, hb, hrecords⟩ := ih fun other hother =>
      hlifts other (List.mem_append_left _ hother)
    exact get?_apply_of_not_lifts hb hrecords
      (hlifts event (List.mem_append_right _ (List.mem_singleton_self event)))

/-- Whether a call started the ban that an entity has after some events: the entity was free before
the call, and no event since then lifted the ban. -/
structure StartedBy (events : List BanEvent) (entity : Network) (call : BanCall)
    (since : List BanEvent) : Prop where
  started : ∃ earlier, events = earlier ++ .ban entity call :: since ∧
    (after earlier).get? entity = none
  kept : ∀ event ∈ since, ¬ event.Lifts entity call

theorem StartedBy.get?_after {events : List BanEvent}
    (h : StartedBy events entity call since) :
    ∃ a, (after events).get? entity = some a ∧ a.Records entity call (told entity since) := by
  obtain ⟨earlier, rfl, hfree⟩ := h.started
  rw [after_append, List.foldl_cons]
  exact get?_foldl_apply_of_not_lifts (get?_apply_ban_of_none hfree call)
    (Attack.records_attack call entity) h.kept

/-- Every record that is there was started by a call and not lifted since. -/
theorem exists_startedBy {events : List BanEvent} (ha : (after events).get? entity = some a) :
    ∃ call since, StartedBy events entity call since := by
  induction events using List.reverseRecOn generalizing a with
  | nil => exact absurd ((get?_empty entity).symm.trans ha) (by simp)
  | append_singleton events event ih =>
    rw [after_append] at ha
    cases hbefore : (after events).get? entity with
    | none =>
      by_cases hban : ∃ call, event = .ban entity call
      · obtain ⟨call, rfl⟩ := hban
        exact ⟨call, [], ⟨events, rfl, hbefore⟩, by simp⟩
      · have hnone := get?_apply_of_none hbefore fun call heq => hban ⟨call, heq⟩
        exact absurd (hnone.symm.trans ha) (by simp)
    | some b =>
      obtain ⟨call, since, hstarted⟩ := ih hbefore
      obtain ⟨c, hc, hrecords⟩ := hstarted.get?_after
      have hkept : ¬ event.Lifts entity call := fun hlifts =>
        absurd ((get?_apply_of_lifts hc hrecords hlifts).symm.trans ha) (by simp)
      obtain ⟨earlier, rfl, hfree⟩ := hstarted.started
      refine ⟨call, since ++ [event], ⟨earlier, by simp, hfree⟩, ?_⟩
      intro other hother
      rcases List.mem_append.1 hother with hold | hlast
      · exact hstarted.kept other hold
      · rw [List.mem_singleton.1 hlast]
        exact hkept

/-- The records of a list of bans are those of its history: an entity has a record just if a call
started a ban of it that was not lifted since, and the record is the one of that call and of what
was told of the entity afterwards. A breach of a banned entity is answered with the peak and the
acceptance of its record and does to the list what a refresh with its averages does. No event writes
the record of another entity than the one it names, and without a record there is nothing for it to
change. -/
theorem record_of_history (events : List BanEvent) :
    let l := after events
    (l.toList.map Prod.fst).Nodup ∧
      (∀ entity a, (entity, a) ∈ l.toList ↔ l.get? entity = some a) ∧
      (∀ entity a, l.get? entity = some a ↔ ∃ call since,
        StartedBy events entity call since ∧ a.Records entity call (told entity since)) ∧
      (∀ entity a call, l.get? entity = some a →
        ∃ b, l.answer (.ban entity call) = .outcome (.updated b.peak b.announced) ∧
          l.apply (.ban entity call) = l.apply (.refresh entity call.average) ∧
          (l.apply (.ban entity call)).get? entity = some b) ∧
      (∀ event entity other, event.entity? = some other → other ≠ entity →
        (l.apply event).get? entity = l.get? entity) ∧
      ∀ event entity, event.entity? = some entity → l.get? entity = none →
        (∀ call, event ≠ .ban entity call) →
        l.apply event = l ∧ (l.answer event = .record none ∨ l.answer event = .known false) := by
  intro l
  refine ⟨l.nodup_toList, l.mem_toList_iff, ?_, ?_, ?_, ?_⟩
  · intro entity a
    constructor
    · intro ha
      obtain ⟨call, since, hstarted⟩ := exists_startedBy ha
      obtain ⟨b, hb, hrecords⟩ := hstarted.get?_after
      obtain rfl : b = a := Option.some.inj (hb.symm.trans ha)
      exact ⟨call, since, hstarted, hrecords⟩
    · intro hexists
      obtain ⟨call, since, hstarted, ha⟩ := hexists
      obtain ⟨b, hb, hrecords⟩ := hstarted.get?_after
      rwa [ha.unique hrecords]
  · intro entity a call ha
    have hban := ban_of_some ha call.breach call.current call.average call.context call.now
      call.drawn
    refine ⟨a.refresh call.average, ?_, ?_, ?_⟩
    · rw [answer, hban]
    · rw [apply, hban, apply, refresh_eq, update_of_some ha]
    · rw [apply, hban]
      exact get?_put_self l entity _
  · intro event entity other hevent hne
    exact get?_apply_of_ne hevent hne l
  · intro event entity hevent hnone hban
    exact ⟨apply_of_none hevent hnone hban, answer_of_none hevent hnone hban⟩

end BanList

end FloodGuard

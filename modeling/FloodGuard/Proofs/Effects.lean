import FloodGuard.Proofs.CycleSteps
import Mathlib.Algebra.Group.Basic
import Mathlib.Data.List.Nodup

/-!
What an observation comes to while the announcer answers by the request alone, as one effect on the
cycle: a record that is written, rules that are no longer to be withdrawn, and counts that are added
to the report. Effects on different entities commute, and the effect of an observation depends on
the record of its own entity only. So the order of observations of different entities does not
matter. The reflectors behind new attacks are compared in the listed order throughout.
-/
namespace FloodGuard

namespace CycleReport

/-- The report with the counts of both. -/
def add (r s : CycleReport) : CycleReport where
  evaluated := r.evaluated + s.evaluated
  unmonitored := r.unmonitored + s.unmonitored
  breaches := r.breaches + s.breaches
  banDisabled := r.banDisabled + s.banDisabled
  bansCreated := r.bansCreated + s.bansCreated
  bansUpdated := r.bansUpdated + s.bansUpdated
  bansRefreshed := r.bansRefreshed + s.bansRefreshed
  bansExpired := r.bansExpired + s.bansExpired
  announcesRetried := r.announcesRetried + s.announcesRetried
  withdrawalsRetried := r.withdrawalsRetried + s.withdrawalsRetried
  sinkErrors := r.sinkErrors + s.sinkErrors

theorem add_swap (r s : CycleReport) : r.add s = s.add r := by
  simp only [add, Nat.add_comm]

instance : Zero CycleReport := ⟨{}⟩

instance : Add CycleReport := ⟨add⟩

instance : AddCommMonoid CycleReport where
  add_assoc r s t := by
    show (r.add s).add t = r.add (s.add t)
    simp only [add, Nat.add_assoc]
  zero_add r := add_swap 0 r
  add_zero r := rfl
  add_comm := add_swap
  nsmul := nsmulRec

end CycleReport

/-- A report is counted on from whatever was counted before. -/
theorem Engine.tally_eq_add (e : Engine) (o : Observation) (r : CycleReport) :
    e.tally o r = r + e.tally o 0 := by
  unfold tally
  cases e.lookup o.entity.address with
  | none => rfl
  | some found =>
    simp only []
    cases (e.policies.settingsFor found.group).evaluate found.group o.average o.entity.isV6 with
    | none =>
      simp only []
      split <;> rfl
    | some breach =>
      simp only []
      split
      · split <;> rfl
      · split <;> rfl

namespace BanList

/-- The list with a record written, if there is one to write. -/
def write (l : BanList) (entity : Network) (record : Option Attack) : BanList :=
  record.elim l (l.put entity)

theorem get?_write (l : BanList) (entity other : Network) (record : Option Attack) :
    (l.write entity record).get? other =
      if entity = other then record.or (l.get? other) else l.get? other := by
  cases record with
  | none => simp [write]
  | some a => simp [write, get?_put]

theorem write_write_self (l : BanList) (entity : Network) (first second : Option Attack) :
    (l.write entity first).write entity second = l.write entity (second.or first) := by
  apply ext
  intro other
  simp only [get?_write]
  split
  · rw [Option.or_assoc]
  · rfl

end BanList

/-- What something comes to that concerns one entity. -/
structure Effect where
  /-- The record that is written, if one is. -/
  record : Option Attack := none
  /-- The rules that are no longer to be withdrawn. -/
  settled : List Rule := []
  counts : CycleReport := 0

/-- One effect after the other, both on the same entity. -/
def Effect.andThen (f g : Effect) : Effect where
  record := g.record.or f.record
  settled := f.settled ++ g.settled
  counts := f.counts + g.counts

namespace Cycle

/-- The cycle after an effect on an entity. -/
def take (c : Cycle) (entity : Network) (f : Effect) : Cycle where
  engine :=
    { c.engine with
      bans := c.engine.bans.write entity f.record
      pending := c.engine.pending.filter fun entry => entry.1 ≠ entity ∨ entry.2 ∉ f.settled }
  report := c.report + f.counts

theorem take_take_self (c : Cycle) (entity : Network) (f g : Effect) :
    (c.take entity f).take entity g = c.take entity (f.andThen g) := by
  have hpending : (c.take entity f).engine.pending.filter
      (fun entry => entry.1 ≠ entity ∨ entry.2 ∉ g.settled) =
        c.engine.pending.filter fun entry =>
          entry.1 ≠ entity ∨ entry.2 ∉ (f.andThen g).settled := by
    rw [take, List.filter_filter]
    apply List.filter_congr
    intro entry _
    by_cases h : entry.1 = entity
    · simp [h, Effect.andThen, Bool.and_comm]
    · simp [h]
  rw [take, hpending]
  simp only [take, BanList.write_write_self, Effect.andThen, add_assoc]

theorem take_unsettled (c : Cycle) (entity : Network) (record : Option Attack)
    (counts : CycleReport) :
    c.take entity { record, counts } =
      { engine := c.engine.withBans (c.engine.bans.write entity record)
        report := c.report + counts } := by
  have hpending : (c.take entity { record, counts }).engine.pending = c.engine.pending := by
    simp [take]
  calc
    c.take entity { record, counts } =
        { engine := (c.engine.withBans (c.engine.bans.write entity record)).withPending
            (c.take entity { record, counts }).engine.pending
          report := c.report + counts } := rfl
    _ = _ := by rw [hpending]; rfl

end Cycle

section

variable (answer : Request → Option MitigationError) (now : UInt64)

/-- What announcing the rule against an attack comes to. -/
def Effect.announcing (rule : Rule) (a : Attack) : Effect :=
  match answer (.announce rule) with
  | none => { record := some { a with announced := true }, settled := [rule] }
  | some _ => { counts := { sinkErrors := 1 } }

/-- What seeing to the rule of a banned entity comes to. -/
def Effect.assuring (rule : Rule) (a : Attack) : Effect :=
  if a.announced then {}
  else Effect.andThen { counts := { announcesRetried := 1 } } (announcing answer rule a)

/-- What an observation comes to. -/
def Engine.effect (e : Engine) (o : Observation) : Effect :=
  let counts := e.tally o 0
  match e.bans.get? o.entity with
  | some a =>
    if (e.lookup o.entity.address).isSome then
      let kept := a.refresh o.average
      Effect.andThen { record := some kept, counts }
        (.assuring answer (e.ruleFor o.entity kept) kept)
    else { counts }
  | none =>
    match e.charge? o with
    | some (breach, context) =>
      let a := e.attackOf .listed o breach context now
      Effect.andThen { record := some a, counts } (.announcing answer (e.ruleFor o.entity a) a)
    | none => { counts }

/-- The cycle after an observation, while the announcer answers by the request alone. -/
def Cycle.see (c : Cycle) (o : Observation) : Cycle :=
  c.take o.entity (c.engine.effect answer now o)

end

end FloodGuard

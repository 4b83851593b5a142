import FloodGuard.Attack
import FloodGuard.Ban.Policy
import Std.Data.ExtTreeMap

/-!
The list of active bans, one attack for each banned entity. A breach bans an entity that is not
banned yet; for one that is, only the averages and the peak of its attack move.
-/
namespace FloodGuard

/-- Where a banned entity belongs. -/
structure BanContext where
  group : String := ""
  parent : Option String := none
  /-- The configured network that covers the entity. -/
  customerNetwork : Option Network := none
  policy : BanPolicy := {}
deriving DecidableEq, Repr

/-- The attack that a breach reveals, without an identifier. -/
def Attack.ofBreach (entity : Network) (breach : Breach) (current average : Counters)
    (context : BanContext) (now : UInt64) : Attack :=
  { (Attack.start current breach.value now).setAverages average with
    group := context.group
    parentGroup := context.parent.getD ""
    direction := breach.direction
    protocol := breach.protocol
    dimension := breach.dimension
    side := breach.side
    banTime := context.policy.banTime
    expires := context.policy.expires
    severity := .of breach.value breach.threshold
    isV6 := entity.isV6
    customerNetwork := context.customerNetwork }

inductive BanOutcome where
  /-- A new ban, and whether its attack got an identifier. -/
  | created (attack : Attack) (identified : Bool)
  /-- The entity was banned already. -/
  | updated (peak : UInt64) (announced : Bool)
deriving DecidableEq, Repr

structure BanList where
  bans : Std.ExtTreeMap Network Attack := ∅

namespace BanList

def get? (l : BanList) (entity : Network) : Option Attack := l.bans[entity]?

def isBanned (l : BanList) (entity : Network) : Bool := (l.get? entity).isSome

/-- All bans in the order of the entities. -/
def toList (l : BanList) : List (Network × Attack) := l.bans.toList

def size (l : BanList) : Nat := l.bans.size

/-- Changes the attack of a banned entity, and gives the changed one. -/
def change (l : BanList) (entity : Network) (f : Attack → Attack) : Option Attack × BanList :=
  match l.get? entity with
  | some attack => (some (f attack), ⟨l.bans.insert entity (f attack)⟩)
  | none => (none, l)

/-- Takes over the averages of a banned entity, and gives its attack. -/
def refreshBan (l : BanList) (entity : Network) (average : Counters) : Option Attack × BanList :=
  l.change entity fun attack => attack.refresh average

/-- Notes whether the announcer has the rule of a banned entity; tells whether the entity is. -/
def markAnnounced (l : BanList) (entity : Network) (announced : Bool) : Bool × BanList :=
  let changed := l.change entity fun attack => { attack with announced }
  (changed.1.isSome, changed.2)

/-- Notes the reflector behind the attack on a banned entity; tells whether the entity is. -/
def markReflector (l : BanList) (entity : Network) (reflector : Option Reflector) :
    Bool × BanList :=
  let changed := l.change entity fun attack => { attack with reflector }
  (changed.1.isSome, changed.2)

/-- Bans an entity for a breach. An identifier that was drawn is used for a new ban only; a failed
draw leaves the new attack without one. -/
def ban (l : BanList) (entity : Network) (breach : Breach) (current average : Counters)
    (context : BanContext) (now : UInt64) (drawn : Except UuidError Uuid) : BanOutcome × BanList :=
  match l.get? entity with
  | some attack =>
    let refreshed := attack.refresh average
    (.updated refreshed.peak refreshed.announced, ⟨l.bans.insert entity refreshed⟩)
  | none =>
    let attack := Attack.ofBreach entity breach current average context now
    match attack.assignUuid drawn with
    | .ok identified => (.created identified true, ⟨l.bans.insert entity identified⟩)
    | .error _ => (.created attack false, ⟨l.bans.insert entity attack⟩)

/-- Takes away the bans whose time is over, and gives them in the order of the entities. -/
def expire (l : BanList) (now : UInt64) : List (Network × Attack) × BanList :=
  (l.toList.filter fun entry => entry.2.isOver now,
    ⟨l.bans.filter fun _ attack => !attack.isOver now⟩)

/-- Takes a ban away, and gives its attack. -/
def lift (l : BanList) (entity : Network) : Option Attack × BanList :=
  (l.get? entity, ⟨l.bans.erase entity⟩)

def update (l : BanList) (entity : Network) (f : Attack → Attack) : BanList :=
  (l.change entity f).2

def refresh (l : BanList) (entity : Network) (average : Counters) : BanList :=
  (l.refreshBan entity average).2

def setAnnounced (l : BanList) (entity : Network) (announced : Bool) : BanList :=
  (l.markAnnounced entity announced).2

def setReflector (l : BanList) (entity : Network) (reflector : Option Reflector) : BanList :=
  (l.markReflector entity reflector).2

/-- The list without the bans whose time is over. -/
def sweep (l : BanList) (now : UInt64) : BanList := (l.expire now).2

def unban (l : BanList) (entity : Network) : BanList := (l.lift entity).2

end BanList

/-- The bans whose time is over, in the order of the entities. -/
def BanList.over (l : BanList) (now : UInt64) : List (Network × Attack) := (l.expire now).1

namespace BanList

/-! A change of one entity gives what the list has for it afterwards. -/

theorem change_fst (l : BanList) (entity : Network) (f : Attack → Attack) :
    (l.change entity f).1 = (l.get? entity).map f := by
  rw [change]
  cases l.get? entity <;> rfl

theorem refreshBan_fst (l : BanList) (entity : Network) (average : Counters) :
    (l.refreshBan entity average).1 = (l.get? entity).map fun a => a.refresh average :=
  l.change_fst entity _

theorem markAnnounced_fst (l : BanList) (entity : Network) (announced : Bool) :
    (l.markAnnounced entity announced).1 = l.isBanned entity := by
  rw [markAnnounced, change_fst, Option.isSome_map]
  rfl

theorem markReflector_fst (l : BanList) (entity : Network) (reflector : Option Reflector) :
    (l.markReflector entity reflector).1 = l.isBanned entity := by
  rw [markReflector, change_fst, Option.isSome_map]
  rfl

theorem refresh_eq (l : BanList) (entity : Network) (average : Counters) :
    l.refresh entity average = l.update entity fun attack => attack.refresh average := rfl

theorem setAnnounced_eq (l : BanList) (entity : Network) (announced : Bool) :
    l.setAnnounced entity announced = l.update entity fun attack => { attack with announced } :=
  rfl

theorem setReflector_eq (l : BanList) (entity : Network) (reflector : Option Reflector) :
    l.setReflector entity reflector = l.update entity fun attack => { attack with reflector } :=
  rfl

theorem get?_update (l : BanList) (entity other : Network) (f : Attack → Attack) :
    (l.update entity f).get? other =
      if entity = other then (l.get? other).map f else l.get? other := by
  cases h : l.get? entity with
  | none =>
    by_cases he : entity = other
    · simp [update, change, h, ← he]
    · simp [update, change, h, he]
  | some attack =>
    by_cases he : entity = other
    · subst he
      rw [if_pos rfl, h, update, change, h]
      simp [get?]
    · rw [if_neg he, update, change, h]
      simp [get?, Std.ExtTreeMap.getElem?_insert, he]

theorem get?_sweep (l : BanList) (now : UInt64) (entity : Network) :
    (l.sweep now).get? entity = (l.get? entity).filter fun attack => !attack.isOver now := by
  rw [sweep, expire, get?, get?, Std.ExtTreeMap.getElem?_filter']

theorem get?_unban (l : BanList) (entity other : Network) :
    (l.unban entity).get? other = if entity = other then none else l.get? other := by
  simp [unban, lift, get?, Std.ExtTreeMap.getElem?_erase]

theorem mem_toList_iff (l : BanList) (entity : Network) (attack : Attack) :
    (entity, attack) ∈ l.toList ↔ l.get? entity = some attack :=
  Std.ExtTreeMap.mem_toList_iff_getElem?_eq_some

theorem mem_over_iff (l : BanList) (now : UInt64) (entity : Network) (attack : Attack) :
    (entity, attack) ∈ l.over now ↔ l.get? entity = some attack ∧ attack.isOver now := by
  simp [BanList.over, expire, mem_toList_iff]

end BanList

end FloodGuard

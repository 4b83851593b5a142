import FloodGuard.Ban.List

/-!
The operations of the list of bans as writes of single records. A list is known by the record it has
for each entity, so every operation is described by what it does to those: a breach writes the
record of one entity, a change writes it where there is one, and lifting takes records away. Only
the averages, the peak and the state of the mitigation of a record are ever written again.
-/
namespace FloodGuard

/-- Whether `b` is a later state of the attack `a`: the averages, the peak and the acceptance of
the rule may have moved, everything else is as it was, and an accepted rule stays accepted. -/
structure Attack.Continues (a b : Attack) : Prop where
  fixed : b = { a with averages := b.averages, peak := b.peak, announced := b.announced }
  announced : a.announced = true → b.announced = true

namespace Attack

theorem Continues.refl (a : Attack) : a.Continues a := ⟨rfl, id⟩

theorem Continues.trans {a b c : Attack} (hab : a.Continues b) (hbc : b.Continues c) :
    a.Continues c := by
  refine ⟨?_, fun h => hbc.announced (hab.announced h)⟩
  have hfixed := hbc.fixed
  rw [hab.fixed] at hfixed
  exact hfixed

theorem continues_refresh (a : Attack) (average : Counters) :
    a.Continues (a.refresh average) := by
  rw [refresh_eq]
  exact ⟨rfl, id⟩

theorem continues_accepted (a : Attack) : a.Continues { a with announced := true } :=
  ⟨rfl, fun _ => rfl⟩

theorem announced_refresh (a : Attack) (average : Counters) :
    (a.refresh average).announced = a.announced := by
  rw [refresh_eq]

theorem Continues.isOver_eq {a b : Attack} (h : a.Continues b) (now : UInt64) :
    b.isOver now = a.isOver now := by
  rw [h.fixed]
  rfl

theorem isOver_iff (a : Attack) (now : UInt64) :
    a.isOver now = true ↔
      a.expires = true ∧ a.banTime.toNat ≤ now.toNat - a.startedAt.toNat := by
  simp [isOver]

/-- The record with the identifier that was drawn for it; a failed draw leaves none. -/
def identifiedBy (a : Attack) (drawn : Except UuidError Uuid) : Attack :=
  { a with uuid := drawn.toOption.getD .nil }

end Attack

namespace BanList

theorem ext {l m : BanList} (h : ∀ entity, l.get? entity = m.get? entity) : l = m := by
  cases l
  cases m
  exact congrArg BanList.mk (Std.ExtTreeMap.ext_getElem? h)

theorem isBanned_of_some {l : BanList} {entity : Network} {a : Attack}
    (h : l.get? entity = some a) : l.isBanned entity = true := by
  rw [isBanned, h]
  rfl

theorem isBanned_of_none {l : BanList} {entity : Network} (h : l.get? entity = none) :
    l.isBanned entity = false := by
  rw [isBanned, h]
  rfl

theorem get?_of_not_isBanned {l : BanList} {entity : Network} (h : l.isBanned entity = false) :
    l.get? entity = none := by
  rw [isBanned, Option.isSome_eq_false_iff] at h
  exact Option.isNone_iff_eq_none.1 h

/-- The list with the record of one entity written. -/
def put (l : BanList) (entity : Network) (attack : Attack) : BanList :=
  ⟨l.bans.insert entity attack⟩

theorem get?_put (l : BanList) (entity other : Network) (attack : Attack) :
    (l.put entity attack).get? other = if entity = other then some attack else l.get? other := by
  simp [put, get?, Std.ExtTreeMap.getElem?_insert]

theorem get?_put_self (l : BanList) (entity : Network) (attack : Attack) :
    (l.put entity attack).get? entity = some attack := by
  rw [get?_put, if_pos rfl]

theorem get?_put_of_ne (l : BanList) {entity other : Network} (attack : Attack)
    (h : entity ≠ other) : (l.put entity attack).get? other = l.get? other := by
  rw [get?_put, if_neg h]

theorem put_put (l : BanList) (entity : Network) (a b : Attack) :
    (l.put entity a).put entity b = l.put entity b := by
  apply ext
  intro other
  simp only [get?_put]
  split <;> rfl

theorem put_of_get? {l : BanList} {entity : Network} {a : Attack} (h : l.get? entity = some a) :
    l.put entity a = l := by
  apply ext
  intro other
  rw [get?_put]
  split
  · rename_i heq
    rw [← heq, h]
  · rfl

theorem change_of_some {l : BanList} {entity : Network} {a : Attack} (h : l.get? entity = some a)
    (f : Attack → Attack) : l.change entity f = (some (f a), l.put entity (f a)) := by
  rw [change, h]
  rfl

theorem change_of_none {l : BanList} {entity : Network} (h : l.get? entity = none)
    (f : Attack → Attack) : l.change entity f = (none, l) := by
  rw [change, h]

theorem update_of_some {l : BanList} {entity : Network} {a : Attack} (h : l.get? entity = some a)
    (f : Attack → Attack) : l.update entity f = l.put entity (f a) :=
  congrArg Prod.snd (change_of_some h f)

theorem update_of_none {l : BanList} {entity : Network} (h : l.get? entity = none)
    (f : Attack → Attack) : l.update entity f = l :=
  congrArg Prod.snd (change_of_none h f)

theorem lift_of_some {l : BanList} {entity : Network} {a : Attack} (h : l.get? entity = some a) :
    l.lift entity = (some a, l.unban entity) :=
  congrArg (·, l.unban entity) h

theorem unban_of_none {l : BanList} {entity : Network} (h : l.get? entity = none) :
    l.unban entity = l := by
  apply ext
  intro other
  rw [get?_unban]
  split
  · rename_i heq
    rw [← heq, h]
  · rfl

theorem lift_of_none {l : BanList} {entity : Network} (h : l.get? entity = none) :
    l.lift entity = (none, l) :=
  Prod.ext h (unban_of_none h)

theorem get?_unban_self (l : BanList) (entity : Network) : (l.unban entity).get? entity = none := by
  rw [get?_unban, if_pos rfl]

/-- A breach of a banned entity only refreshes its record. -/
theorem ban_of_some {l : BanList} {entity : Network} {a : Attack} (h : l.get? entity = some a)
    (breach : Breach) (current average : Counters) (context : BanContext) (now : UInt64)
    (drawn : Except UuidError Uuid) :
    l.ban entity breach current average context now drawn =
      (.updated (a.refresh average).peak (a.refresh average).announced,
        l.put entity (a.refresh average)) := by
  rw [ban, h]
  rfl

/-- A breach of an entity that is not banned writes a new record. -/
theorem ban_of_none {l : BanList} {entity : Network} (h : l.get? entity = none)
    (breach : Breach) (current average : Counters) (context : BanContext) (now : UInt64)
    (drawn : Except UuidError Uuid) :
    let attack := (Attack.ofBreach entity breach current average context now).identifiedBy drawn
    ∃ identified, l.ban entity breach current average context now drawn =
      (.created attack identified, l.put entity attack) := by
  rw [ban, h]
  cases drawn with
  | ok uuid => exact ⟨true, rfl⟩
  | error reason => exact ⟨false, rfl⟩

theorem get?_foldl_unban (entries : List (Network × Attack)) (l : BanList) (entity : Network) :
    (entries.foldl (fun m entry => m.unban entry.1) l).get? entity =
      if entity ∈ entries.map Prod.fst then none else l.get? entity := by
  induction entries generalizing l with
  | nil => simp
  | cons entry rest ih =>
    rw [List.foldl_cons, ih, get?_unban]
    by_cases hrest : entity ∈ rest.map Prod.fst
    · simp [hrest]
    · by_cases hentry : entry.1 = entity
      · simp [hentry]
      · simp [hrest, hentry, Ne.symm hentry]

/-- Lifting one after the other the bans whose time is over is lifting them at once. -/
theorem foldl_unban_over (l : BanList) (now : UInt64) :
    (l.over now).foldl (fun m entry => m.unban entry.1) l = l.sweep now := by
  apply ext
  intro entity
  rw [get?_foldl_unban, get?_sweep]
  cases h : l.get? entity with
  | none => simp
  | some attack =>
    have hmem : entity ∈ (l.over now).map Prod.fst ↔ attack.isOver now = true := by
      simp [mem_over_iff, h]
    by_cases hover : attack.isOver now = true
    · rw [if_pos (hmem.2 hover)]
      simp [Option.filter, hover]
    · rw [if_neg (fun hm => hover (hmem.1 hm))]
      simp [Option.filter, hover]

/-- There is at most one record for an entity. -/
theorem nodup_toList (l : BanList) : (l.toList.map Prod.fst).Nodup := by
  rw [toList, Std.ExtTreeMap.map_fst_toList_eq_keys]
  exact Std.ExtTreeMap.nodup_keys

theorem size_put (l : BanList) (entity : Network) (attack : Attack) :
    (l.put entity attack).size = if l.isBanned entity then l.size else l.size + 1 := by
  rw [put, size, Std.ExtTreeMap.size_insert, Std.ExtTreeMap.contains_eq_isSome_getElem?]
  rfl

theorem size_update (l : BanList) (entity : Network) (f : Attack → Attack) :
    (l.update entity f).size = l.size := by
  cases h : l.get? entity with
  | none => rw [update_of_none h]
  | some a => rw [update_of_some h, size_put, if_pos (isBanned_of_some h)]

/-- A sweep takes away the bans whose time is over. -/
theorem size_sweep (l : BanList) (now : UInt64) :
    (l.sweep now).size + (l.over now).length = l.size := by
  have hkept : (l.sweep now).toList = l.toList.filter fun entry => !entry.2.isOver now :=
    Std.ExtTreeMap.toList_filter
  have hsplit := List.length_eq_countP_add_countP (l := l.toList) fun entry => entry.2.isOver now
  have hsize : ∀ m : BanList, m.size = m.toList.length := fun m =>
    Std.ExtTreeMap.length_toList.symm
  rw [hsize, hsize, hkept, BanList.over, expire, hsplit, Nat.add_comm, List.countP_eq_length_filter,
    List.countP_eq_length_filter]
  simp

theorem nodup_over (l : BanList) (now : UInt64) : ((l.over now).map Prod.fst).Nodup :=
  l.nodup_toList.sublist (List.filter_sublist.map Prod.fst)

/-- The list with every record changed. -/
def map (l : BanList) (f : Attack → Attack) : BanList := ⟨l.bans.map fun _ a => f a⟩

theorem get?_map (l : BanList) (f : Attack → Attack) (entity : Network) :
    (l.map f).get? entity = (l.get? entity).map f :=
  Std.ExtTreeMap.getElem?_map

theorem map_put (l : BanList) (f : Attack → Attack) (entity : Network) (a : Attack) :
    (l.put entity a).map f = (l.map f).put entity (f a) := by
  apply ext
  intro other
  rw [get?_map, get?_put, get?_put, get?_map]
  split <;> rfl

/-- A change of the records that leaves their time alone can be made before or after a sweep. -/
theorem map_sweep (l : BanList) (f : Attack → Attack) (now : UInt64)
    (hf : ∀ a, (f a).isOver now = a.isOver now) :
    (l.sweep now).map f = (l.map f).sweep now := by
  apply ext
  intro entity
  rw [get?_map, get?_sweep, get?_sweep, get?_map]
  cases l.get? entity with
  | none => rfl
  | some a => cases hnow : a.isOver now <;> simp [Option.filter, hf, hnow]

theorem over_map (l : BanList) (f : Attack → Attack) (now : UInt64)
    (hf : ∀ a, (f a).isOver now = a.isOver now) :
    (l.map f).over now = (l.over now).map fun entry => (entry.1, f entry.2) := by
  rw [BanList.over, BanList.over, expire, expire, toList, toList, map, Std.ExtTreeMap.toList_map,
    List.filter_map]
  simp only [Function.comp_def, hf]

end BanList

end FloodGuard

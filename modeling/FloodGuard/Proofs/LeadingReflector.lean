import FloodGuard.Session.Table
import Mathlib.Data.List.Basic

/-!
The comparison of reflectors by their bytes. A reflector leads if it has more than half of all bytes
and none has more. What a comparison takes is a reflector that leads, and it takes none only if none
leads. So the order of the comparison matters just if two reflectors lead, which then have equally
many bytes; each of them is taken in some order.
-/
namespace FloodGuard

/-- For every reflector there is an order that ends with it. -/
theorem ReflectorOrder.exists_last (reflector : Reflector) :
    ∃ (order : ReflectorOrder) (before : List Reflector), order.kinds = before ++ [reflector] := by
  have hmem := ReflectorOrder.listed.mem_kinds reflector
  exact ⟨⟨Labelled.all.erase reflector ++ [reflector],
    (List.perm_append_singleton _ _).trans (List.perm_cons_erase hmem).symm⟩, _, rfl⟩

namespace SessionTable

namespace ByteTally

variable {tally : ByteTally}

/-- Whether a reflector has more than half of all bytes, and no other one has more. -/
structure Leads (tally : ByteTally) (reflector : Reflector) : Prop where
  majority : tally.total / 2 < tally.of reflector
  most : ∀ other, tally.of other ≤ tally.of reflector

/-- Whether at most one reflector leads. -/
def Decided (tally : ByteTally) : Prop := ∀ a b, tally.Leads a → tally.Leads b → a = b

instance (tally : ByteTally) (reflector : Reflector) : Decidable (tally.Leads reflector) :=
  decidable_of_iff
    (tally.total / 2 < tally.of reflector ∧
      ∀ other ∈ ReflectorOrder.listed.kinds, tally.of other ≤ tally.of reflector)
    ⟨fun h => ⟨h.1, fun other => h.2 other (ReflectorOrder.listed.mem_kinds other)⟩,
      fun h => ⟨h.majority, fun other _ => h.most other⟩⟩

instance (tally : ByteTally) : Decidable tally.Decided :=
  decidable_of_iff
    (∀ a ∈ ReflectorOrder.listed.kinds, ∀ b ∈ ReflectorOrder.listed.kinds,
      tally.Leads a → tally.Leads b → a = b)
    ⟨fun h a b => h a (ReflectorOrder.listed.mem_kinds a) b (ReflectorOrder.listed.mem_kinds b),
      fun h a _ b _ => h a b⟩

theorem busier_isSome (tally : ByteTally) (best : Option Reflector) (kind : Reflector) :
    (tally.busier best kind).isSome := by
  cases best with
  | none => rfl
  | some other =>
    rw [busier]
    split <;> rfl

/-- The busier one of two has no less bytes than either. -/
theorem le_of_busier {best : Option Reflector} {kind found : Reflector}
    (h : tally.busier best kind = some found) :
    tally.of kind ≤ tally.of found ∧ ∀ other ∈ best, tally.of other ≤ tally.of found := by
  cases best with
  | none =>
    obtain rfl := Option.some.inj h
    exact ⟨UInt64.le_refl _, by simp⟩
  | some other =>
    rw [busier] at h
    split at h
    · rename_i hless
      obtain rfl := Option.some.inj h
      exact ⟨UInt64.le_of_lt hless, by simp⟩
    · rename_i hnot
      obtain rfl := Option.some.inj h
      exact ⟨UInt64.le_refl _, by simpa using UInt64.not_lt.1 hnot⟩

/-- The busiest one so far has no less bytes than all that were compared. -/
theorem le_of_foldl_busier {kinds : List Reflector} {best : Option Reflector} {found : Reflector}
    (h : kinds.foldl tally.busier best = some found) :
    (∀ kind ∈ kinds, tally.of kind ≤ tally.of found) ∧
      ∀ other ∈ best, tally.of other ≤ tally.of found := by
  induction kinds generalizing best with
  | nil => simp [show best = some found from h]
  | cons kind rest ih =>
    rw [List.foldl_cons] at h
    obtain ⟨hrest, hstart⟩ := ih h
    obtain ⟨busiest, hbusiest⟩ := Option.isSome_iff_exists.1 (tally.busier_isSome best kind)
    obtain ⟨hkind, hbest⟩ := le_of_busier hbusiest
    have hle := hstart busiest hbusiest
    refine ⟨List.forall_mem_cons.2 ⟨UInt64.le_trans hkind hle, hrest⟩, ?_⟩
    intro other hother
    exact UInt64.le_trans (hbest other hother) hle

theorem foldl_busier_isSome (tally : ByteTally) {kinds : List Reflector} {best : Option Reflector}
    (h : kinds ≠ [] ∨ best.isSome) : (kinds.foldl tally.busier best).isSome := by
  induction kinds generalizing best with
  | nil => simpa using h
  | cons kind rest ih => exact ih (.inr (tally.busier_isSome best kind))

/-- What a comparison takes leads, if all that have bytes take part in it. -/
theorem leads_of_verdict {kinds : List Reflector} {reflector : Reflector}
    (hall : ∀ kind, 0 < tally.of kind → kind ∈ kinds)
    (h : tally.verdict kinds = some reflector) : tally.Leads reflector := by
  obtain ⟨hfound, hmajority⟩ := Option.filter_eq_some_iff.1 h
  refine ⟨of_decide_eq_true hmajority, ?_⟩
  intro other
  by_cases hpos : 0 < tally.of other
  · exact (le_of_foldl_busier hfound).1 other (hall other hpos)
  · exact UInt64.le_trans (UInt64.not_lt.1 hpos) (UInt64.le_iff_toNat_le.2 (Nat.zero_le _))

/-- While a reflector leads, a comparison that it takes part in takes one that leads. -/
theorem exists_verdict {kinds : List Reflector} {reflector : Reflector}
    (h : tally.Leads reflector) (hmem : reflector ∈ kinds) :
    ∃ other, tally.verdict kinds = some other ∧ tally.Leads other := by
  have hsome : (kinds.foldl tally.busier none).isSome :=
    tally.foldl_busier_isSome (.inl (List.ne_nil_of_mem hmem))
  obtain ⟨other, hother⟩ := Option.isSome_iff_exists.1 hsome
  have hle := (le_of_foldl_busier hother).1 reflector hmem
  have hleads : tally.Leads other := ⟨UInt64.lt_of_lt_of_le h.majority hle,
    fun third => UInt64.le_trans (h.most third) hle⟩
  refine ⟨other, ?_, hleads⟩
  rw [verdict, hother, Option.filter_some, if_pos (decide_eq_true hleads.majority)]

/-- A reflector that leads is taken where it is compared last. -/
theorem verdict_of_last {reflector : Reflector} (h : tally.Leads reflector)
    (before : List Reflector) : tally.verdict (before ++ [reflector]) = some reflector := by
  have hlast : (before ++ [reflector]).foldl tally.busier none = some reflector := by
    rw [List.foldl_append, List.foldl_cons, List.foldl_nil]
    cases before.foldl tally.busier none with
    | none => rfl
    | some other => rw [busier, if_neg (UInt64.not_lt.2 (h.most other))]
  rw [verdict, hlast, Option.filter_some, if_pos (decide_eq_true h.majority)]

/-- If at most one reflector leads, a comparison takes it. -/
theorem Decided.verdict_eq_some_iff (h : tally.Decided) {kinds : List Reflector}
    (hall : ∀ kind, 0 < tally.of kind → kind ∈ kinds) (reflector : Reflector) :
    tally.verdict kinds = some reflector ↔ tally.Leads reflector := by
  refine ⟨leads_of_verdict hall, ?_⟩
  intro hleads
  have hpos : 0 < tally.of reflector :=
    UInt64.lt_of_le_of_lt (UInt64.le_iff_toNat_le.2 (Nat.zero_le _)) hleads.majority
  obtain ⟨other, hverdict, hother⟩ := exists_verdict hleads (hall reflector hpos)
  rw [hverdict, h other reflector hother hleads]

/-- The order of the comparison makes no difference just if at most one reflector leads. -/
theorem decided_iff :
    tally.Decided ↔
      ∀ order other : ReflectorOrder, tally.verdict order.kinds = tally.verdict other.kinds := by
  constructor
  · intro h order other
    ext reflector
    rw [h.verdict_eq_some_iff fun kind _ => order.mem_kinds kind,
      h.verdict_eq_some_iff fun kind _ => other.mem_kinds kind]
  · intro h a b ha hb
    obtain ⟨order, before, horder⟩ := ReflectorOrder.exists_last a
    obtain ⟨other, others, hother⟩ := ReflectorOrder.exists_last b
    have hsame := h order other
    rw [horder, hother, verdict_of_last ha, verdict_of_last hb] at hsame
    exact Option.some.inj hsame

end ByteTally

end SessionTable

end FloodGuard

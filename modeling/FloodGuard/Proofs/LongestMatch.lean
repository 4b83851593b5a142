import FloodGuard.HostGroup.Table

/-!
Longest match. The walk along a path remembers the last value it met, so what it ends with was found
after the most steps. The paths of an address are those of the blocks that hold it, one block for
each length, and different blocks have different paths; so a table of host groups finds the longest
network that holds an address and is stored.
-/
namespace FloodGuard

namespace Trie

variable {α : Type}

theorem find?_of_best?_eq_none {t : Trie α} {path : List Bool} (h : t.best? path = none)
    (k : Nat) : t.find? (path.take k) = none := by
  induction path generalizing t k with
  | nil =>
    rw [List.take_nil]
    exact Option.map_eq_none_iff.1 h
  | cons bit rest ih =>
    cases hchild : (t.child bit).best? rest with
    | some found => simp [best?_cons, hchild] at h
    | none =>
      cases k with
      | zero => simpa [best?_cons, hchild, find?] using h
      | succ j => exact ih hchild j

/-- The longest match is found on the path, and nothing is found after more steps. -/
theorem find?_of_best?_eq_some {t : Trie α} {path : List Bool} {depth : Nat} {x : α}
    (h : t.best? path = some (depth, x)) :
    depth ≤ path.length ∧ t.find? (path.take depth) = some x ∧
      ∀ k, depth < k → k ≤ path.length → t.find? (path.take k) = none := by
  induction path generalizing t depth with
  | nil =>
    obtain ⟨y, hvalue, hpair⟩ := Option.map_eq_some_iff.1 h
    obtain ⟨rfl, rfl⟩ := Prod.mk.inj hpair
    refine ⟨Nat.le_refl 0, hvalue, ?_⟩
    intro k hpos hle
    rw [List.length_nil] at hle
    omega
  | cons bit rest ih =>
    cases hchild : (t.child bit).best? rest with
    | some found =>
      obtain ⟨d, y⟩ := found
      have hpair : d + 1 = depth ∧ y = x := by simpa [best?_cons, hchild] using h
      obtain ⟨rfl, rfl⟩ := hpair
      obtain ⟨hle, hfind, hlonger⟩ := ih hchild
      refine ⟨Nat.succ_le_succ hle, hfind, ?_⟩
      intro k hlt hk
      cases k with
      | zero => omega
      | succ j => exact hlonger j (by omega) (Nat.le_of_succ_le_succ hk)
    | none =>
      -- Nothing is found below, so the value at the root is the last one that was met.
      have hroot : t.value?.map (0, ·) = some (depth, x) := by simpa [best?_cons, hchild] using h
      obtain ⟨y, hvalue, hpair⟩ := Option.map_eq_some_iff.1 hroot
      obtain ⟨rfl, rfl⟩ := Prod.mk.inj hpair
      refine ⟨Nat.zero_le _, hvalue, ?_⟩
      intro k hpos hle
      cases k with
      | zero => omega
      | succ j => exact find?_of_best?_eq_none hchild j

end Trie

section

variable {w : Nat}

theorem length_path (a : BitVec w) (n : Nat) : (path a n).length = min n w := by simp [path]

theorem take_path {n : Nat} (h : n ≤ w) (a : BitVec w) : (path a w).take n = path a n := by
  simp [path, ← List.map_take, List.take_range, Nat.min_eq_left h]

theorem path_congr {n : Nat} {a b : BitVec w} (h : ∀ i < n, a.getMsbD i = b.getMsbD i) :
    path a n = path b n := by
  apply List.map_congr_left
  intro i hi
  rw [List.mem_range] at hi
  exact h i (by omega)

/-- The path of a block is the start of the path of each of its addresses. -/
theorem path_of_contains {b : Block w} {a : BitVec w} (h : b.contains a) :
    path b.bits b.length = (path a w).take b.length := by
  rw [take_path b.length_le]
  apply path_congr
  intro i hi
  exact ((b.contains_iff a).1 h i hi).symm

theorem getMsbD_of_path_eq {n : Nat} (hn : n ≤ w) {a b : BitVec w} (h : path a n = path b n)
    {i : Nat} (hi : i < n) : a.getMsbD i = b.getMsbD i := by
  have hget := congrArg (fun bits => bits[i]?) h
  have hlt : i < min n w := by omega
  simpa [path, hlt] using hget

/-- Different blocks have different paths. -/
theorem path_injective {b c : Block w} (h : path b.bits b.length = path c.bits c.length) :
    b = c := by
  have hlength := congrArg List.length h
  rw [length_path, length_path, Nat.min_eq_left b.length_le, Nat.min_eq_left c.length_le]
    at hlength
  have hcontains : b.contains c.bits := by
    rw [Block.contains_iff]
    intro i hi
    rw [← hlength] at h
    exact (getMsbD_of_path_eq b.length_le h hi).symm
  have hbits : keep b.length c.bits = b.bits := by simpa [Block.contains] using hcontains
  rw [hlength, c.canonical] at hbits
  exact (Block.ext_iff' b c).2 ⟨hbits.symm, hlength⟩

namespace PrefixTree

variable {α : Type}

theorem find?_insert (t : PrefixTree w α) (b c : Block w) (x : α) :
    (t.insert b.bits b.length x).find? c.bits c.length =
      if b = c then some x else t.find? c.bits c.length := by
  by_cases heq : b = c
  · subst heq
    rw [if_pos rfl]
    exact Trie.find?_insert_self _ _ _
  · rw [if_neg heq]
    apply Trie.find?_insert_of_ne
    intro hpath
    exact heq (path_injective hpath).symm

theorem find?_of_best?_eq_none {t : PrefixTree w α} {a : BitVec w} (h : t.best? a = none)
    {b : Block w} (hb : b.contains a) : t.find? b.bits b.length = none := by
  rw [find?, path_of_contains hb]
  exact Trie.find?_of_best?_eq_none h b.length

theorem find?_of_best?_eq_some {t : PrefixTree w α} {a : BitVec w} {length : Nat} {x : α}
    (h : t.best? a = some (length, x)) :
    ∃ b : Block w, b.contains a ∧ b.length = length ∧ t.find? b.bits b.length = some x ∧
      ∀ c : Block w, c.contains a → length < c.length → t.find? c.bits c.length = none := by
  obtain ⟨hle, hfind, hlonger⟩ := Trie.find?_of_best?_eq_some h
  rw [length_path, Nat.min_self] at hle
  have hcontains : (Block.around a length hle).contains a := by simp [Block.around, Block.contains]
  refine ⟨.around a length hle, hcontains, rfl, ?_, ?_⟩
  · rw [find?, path_of_contains hcontains]
    exact hfind
  · intro c hc hlt
    rw [find?, path_of_contains hc]
    apply hlonger c.length hlt
    rw [length_path, Nat.min_self]
    exact c.length_le

end PrefixTree

end

namespace Network

/-- A network is the one of its length around each of its addresses. -/
theorem around_of_contains {n : Network} {a : Address} (h : n.contains a) :
    around a n.length = .ok n := by
  cases n with
  | v4 b =>
    cases a with
    | v4 bits =>
      have hblock := b.around_of_contains bits h
      simp only [around, length, b.length_le, dif_pos, hblock]
    | v6 bits => simp [contains] at h
  | v6 b =>
    cases a with
    | v4 bits => simp [contains] at h
    | v6 bits =>
      have hblock := b.around_of_contains bits h
      simp only [around, length, b.length_le, dif_pos, hblock]

theorem eq_of_contains {m n : Network} {a : Address} (hm : m.contains a) (hn : n.contains a)
    (hlength : m.length = n.length) : m = n := by
  have haround := around_of_contains hm
  rw [hlength, around_of_contains hn] at haround
  exact (Except.ok.inj haround).symm

end Network

namespace GroupTable

theorem stored?_insert (t : GroupTable) (n m : Network) (group : String) :
    (t.insert n group).stored? m = if n = m then some group else t.stored? m := by
  cases n with
  | v4 b =>
    cases m with
    | v4 c =>
      simp only [Network.v4.injEq]
      exact PrefixTree.find?_insert t.v4 b c group
    | v6 c => rfl
  | v6 b =>
    cases m with
    | v4 c => rfl
    | v6 c =>
      simp only [Network.v6.injEq]
      exact PrefixTree.find?_insert t.v6 b c group

theorem stored?_of_best?_eq_none {t : GroupTable} {a : Address} (h : t.best? a = none)
    {n : Network} (hn : n.contains a) : t.stored? n = none := by
  cases n with
  | v4 b =>
    cases a with
    | v4 bits => exact PrefixTree.find?_of_best?_eq_none h hn
    | v6 bits => simp [Network.contains] at hn
  | v6 b =>
    cases a with
    | v4 bits => simp [Network.contains] at hn
    | v6 bits => exact PrefixTree.find?_of_best?_eq_none h hn

/-- The best match of an address is the longest stored network that holds it. -/
theorem stored?_of_best?_eq_some {t : GroupTable} {a : Address} {length : Nat} {group : String}
    (h : t.best? a = some (length, group)) :
    ∃ n : Network, n.contains a ∧ n.length = length ∧ t.stored? n = some group ∧
      ∀ m : Network, m.contains a → length < m.length → t.stored? m = none := by
  cases a with
  | v4 bits =>
    obtain ⟨b, hb, hlength, hfind, hlonger⟩ := PrefixTree.find?_of_best?_eq_some h
    refine ⟨.v4 b, hb, hlength, hfind, ?_⟩
    intro m hm hlt
    cases m with
    | v4 c => exact hlonger c hm hlt
    | v6 c => simp [Network.contains] at hm
  | v6 bits =>
    obtain ⟨b, hb, hlength, hfind, hlonger⟩ := PrefixTree.find?_of_best?_eq_some h
    refine ⟨.v6 b, hb, hlength, hfind, ?_⟩
    intro m hm hlt
    cases m with
    | v4 c => simp [Network.contains] at hm
    | v6 c => exact hlonger c hm hlt

end GroupTable

end FloodGuard

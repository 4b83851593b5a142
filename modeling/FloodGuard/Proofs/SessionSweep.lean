import FloodGuard.Session.Table
import Mathlib.Data.List.Nodup
import Mathlib.Data.Set.Card

/-!
A sweep of the table of sessions. It goes through the hosts one after the other, and through the
maps of each host. Every session that was last seen before the given time is dropped, no other one
is touched, and what is dropped and what is left add up to what there was. The sizes are numbers of
sessions: a table has each of its sessions in one place only.
-/
namespace FloodGuard

namespace HostSessions

theorem get?_evictKind (cutoff : UInt64) (swept : Nat × HostSessions) (kind other : SessionKind)
    (endpoint : Endpoint) :
    (evictKind cutoff swept kind).2.get? other endpoint =
      if kind = other then
        (swept.2.get? other endpoint).filter fun session => cutoff ≤ session.lastSeen
      else swept.2.get? other endpoint := by
  simp only [evictKind, get?, map_setMap]
  split
  · rename_i heq
    rw [Std.ExtTreeMap.getElem?_filter', heq]
  · rfl

theorem total_evictKind (cutoff : UInt64) (swept : Nat × HostSessions) (kind : SessionKind) :
    (evictKind cutoff swept kind).1 + (evictKind cutoff swept kind).2.size =
      swept.1 + swept.2.size := by
  obtain ⟨evicted, left⟩ := swept
  have hkept : ((left.map kind).filter fun _ session => cutoff ≤ session.lastSeen).size ≤
      (left.map kind).size := Std.ExtTreeMap.size_filter_le_size
  have hset := left.size_setMap kind
    ((left.map kind).filter fun _ session => cutoff ≤ session.lastSeen)
  simp only [evictKind]
  omega

theorem get?_foldl_evictKind (cutoff : UInt64) (kinds : List SessionKind)
    (swept : Nat × HostSessions) (kind : SessionKind) (endpoint : Endpoint) :
    (kinds.foldl (evictKind cutoff) swept).2.get? kind endpoint =
      if kind ∈ kinds then
        (swept.2.get? kind endpoint).filter fun session => cutoff ≤ session.lastSeen
      else swept.2.get? kind endpoint := by
  induction kinds generalizing swept with
  | nil => simp
  | cons first rest ih =>
    rw [List.foldl_cons, ih, get?_evictKind]
    by_cases heq : first = kind
    · simp [heq, Option.filter_filter]
    · simp [heq, Ne.symm heq]

theorem total_foldl_evictKind (cutoff : UInt64) (kinds : List SessionKind)
    (swept : Nat × HostSessions) :
    (kinds.foldl (evictKind cutoff) swept).1 + (kinds.foldl (evictKind cutoff) swept).2.size =
      swept.1 + swept.2.size := by
  induction kinds generalizing swept with
  | nil => rfl
  | cons first rest ih => rw [List.foldl_cons, ih, total_evictKind]

theorem get?_evictBefore (h : HostSessions) (cutoff : UInt64) (kind : SessionKind)
    (endpoint : Endpoint) :
    (h.evictBefore cutoff).2.get? kind endpoint =
      (h.get? kind endpoint).filter fun session => cutoff ≤ session.lastSeen := by
  rw [evictBefore, get?_foldl_evictKind, if_pos kind.mem_all]

theorem total_evictBefore (h : HostSessions) (cutoff : UInt64) :
    (h.evictBefore cutoff).1 + (h.evictBefore cutoff).2.size = h.size := by
  rw [evictBefore, total_foldl_evictKind, Nat.zero_add]

theorem size_eq_sum (h : HostSessions) :
    h.size = (h.maps.map fun sessions => sessions.size).sum := by
  rw [List.sum_eq_foldr, List.foldr_map]
  rfl

theorem isEmpty_iff_size (h : HostSessions) : h.isEmpty ↔ h.size = 0 := by
  simp [isEmpty, size_eq_sum, List.sum_eq_zero_iff_forall_eq_nat,
    Std.ExtTreeMap.isEmpty_eq_size_beq_zero]

theorem isEmpty_iff (h : HostSessions) :
    h.isEmpty ↔ ∀ kind endpoint, h.get? kind endpoint = none := by
  simp only [isEmpty, maps_eq, List.all_map, List.all_eq_true, Function.comp_apply,
    Std.ExtTreeMap.isEmpty_iff]
  constructor
  · intro hempty kind endpoint
    rw [get?, hempty kind kind.mem_all]
    exact Std.ExtTreeMap.getElem?_empty
  · intro hnone kind _
    apply Std.ExtTreeMap.ext_getElem?
    intro word
    have hword := hnone kind (Endpoint.unpack word)
    rw [get?, Endpoint.pack_unpack] at hword
    rw [hword, Std.ExtTreeMap.getElem?_empty]

/-- A host without sessions is not tracked. -/
def kept? (h : HostSessions) : Option HostSessions := if h.isEmpty then none else some h

theorem get?_kept? (h : HostSessions) (kind : SessionKind) (endpoint : Endpoint) :
    (h.kept?.bind fun left => left.get? kind endpoint) = h.get? kind endpoint := by
  unfold kept?
  split
  · rename_i hempty
    exact ((isEmpty_iff h).1 hempty kind endpoint).symm
  · rfl

end HostSessions

/-- A sum over a map is that over the map without a key and the share of the key. -/
theorem sum_toList_of_getElem? {α β : Type} [Ord α] [Std.TransOrd α] [Std.LawfulEqOrd α]
    {m : Std.ExtTreeMap α β} {key : α} {x : β} (f : β → Nat) (h : m[key]? = some x) :
    (m.toList.map fun entry => f entry.2).sum =
      f x + ((m.erase key).toList.map fun entry => f entry.2).sum := by
  have hnodup : ∀ n : Std.ExtTreeMap α β, n.toList.Nodup := by
    intro n
    apply List.Nodup.of_map Prod.fst
    rw [Std.ExtTreeMap.map_fst_toList_eq_keys]
    exact Std.ExtTreeMap.nodup_keys
  have hperm : m.toList.Perm ((key, x) :: (m.erase key).toList) := by
    rw [List.perm_ext_iff_of_nodup (hnodup m)]
    · intro entry
      obtain ⟨k, y⟩ := entry
      simp only [List.mem_cons, Std.ExtTreeMap.mem_toList_iff_getElem?_eq_some,
        Std.ExtTreeMap.getElem?_erase, Std.compare_eq_iff_eq, Prod.mk.injEq]
      by_cases heq : key = k
      · subst heq
        simp [h, eq_comm]
      · simp [heq, Ne.symm heq]
    · refine List.nodup_cons.2 ⟨?_, hnodup _⟩
      simp [Std.ExtTreeMap.mem_toList_iff_getElem?_eq_some]
  rw [(hperm.map _).sum_nat, List.map_cons, List.sum_cons]

namespace SessionTable

theorem host?_evictHost (cutoff : UInt64) (swept : Nat × SessionTable)
    (host : Address × HostSessions) (other : Address) :
    (evictHost cutoff swept host).2.host? other =
      if host.1 = other then (host.2.evictBefore cutoff).2.kept? else swept.2.host? other := by
  simp only [evictHost, host?, HostSessions.kept?]
  split
  · simp only [Std.ExtTreeMap.getElem?_erase, Std.compare_eq_iff_eq]
  · simp only [Std.ExtTreeMap.getElem?_insert, Std.compare_eq_iff_eq]

theorem size_eq_sum (t : SessionTable) :
    t.size = (t.tracked.toList.map fun host => host.2.size).sum := by
  rw [List.sum_eq_foldr, List.foldr_map]
  rfl

theorem size_eq_of_host? {t : SessionTable} {host : Address} {sessions : HostSessions}
    (h : t.host? host = some sessions) :
    t.size = sessions.size + (⟨t.tracked.erase host⟩ : SessionTable).size := by
  rw [size_eq_sum, size_eq_sum]
  exact sum_toList_of_getElem? HostSessions.size h

theorem total_evictHost {cutoff : UInt64} {swept : Nat × SessionTable}
    {host : Address × HostSessions} (h : swept.2.host? host.1 = some host.2) :
    (evictHost cutoff swept host).1 + (evictHost cutoff swept host).2.size =
      swept.1 + swept.2.size := by
  obtain ⟨evicted, t⟩ := swept
  obtain ⟨host, sessions⟩ := host
  have htotal := sessions.total_evictBefore cutoff
  have hbefore : t.size = sessions.size + (⟨t.tracked.erase host⟩ : SessionTable).size :=
    size_eq_of_host? h
  simp only [evictHost]
  split
  · rename_i hempty
    have hleft := (HostSessions.isEmpty_iff_size _).1 hempty
    omega
  · have hself : (⟨t.tracked.insert host (sessions.evictBefore cutoff).2⟩ : SessionTable).host?
        host = some (sessions.evictBefore cutoff).2 := Std.ExtTreeMap.getElem?_insert_self
    have herase : (t.tracked.insert host (sessions.evictBefore cutoff).2).erase host =
        t.tracked.erase host := by
      apply Std.ExtTreeMap.ext_getElem?
      intro other
      simp only [Std.ExtTreeMap.getElem?_erase, Std.ExtTreeMap.getElem?_insert]
      split <;> rfl
    have hafter := size_eq_of_host? hself
    rw [herase] at hafter
    omega

/-- Hosts that are still to be swept, each as a table has it. -/
structure Waiting (hosts : List (Address × HostSessions)) (t : SessionTable) : Prop where
  nodup : (hosts.map Prod.fst).Nodup
  tracked : ∀ host ∈ hosts, t.host? host.1 = some host.2

/-- Sweeping a host does nothing to the others. -/
theorem Waiting.tail {cutoff : UInt64} {swept : Nat × SessionTable}
    {first : Address × HostSessions} {rest : List (Address × HostSessions)}
    (h : Waiting (first :: rest) swept.2) : Waiting rest (evictHost cutoff swept first).2 where
  nodup := (List.nodup_cons.1 h.nodup).2
  tracked host hhost := by
    have hne : first.1 ≠ host.1 := by
      intro heq
      exact (List.nodup_cons.1 h.nodup).1 (heq ▸ List.mem_map_of_mem hhost)
    rw [host?_evictHost, if_neg hne]
    exact h.tracked host (List.mem_cons_of_mem _ hhost)

theorem host?_foldl_evictHost (cutoff : UInt64) {hosts : List (Address × HostSessions)}
    {swept : Nat × SessionTable} (h : Waiting hosts swept.2) (host : Address) :
    (hosts.foldl (evictHost cutoff) swept).2.host? host =
      if host ∈ hosts.map Prod.fst then
        (swept.2.host? host).bind fun sessions => (sessions.evictBefore cutoff).2.kept?
      else swept.2.host? host := by
  induction hosts generalizing swept with
  | nil => simp
  | cons first rest ih =>
    rw [List.foldl_cons, ih h.tail, host?_evictHost, List.map_cons]
    by_cases heq : first.1 = host
    · subst heq
      have hrest := (List.nodup_cons.1 h.nodup).1
      simp [hrest, h.tracked first List.mem_cons_self]
    · simp only [List.mem_cons, Ne.symm heq, false_or, heq, if_false]

theorem total_foldl_evictHost (cutoff : UInt64) {hosts : List (Address × HostSessions)}
    {swept : Nat × SessionTable} (h : Waiting hosts swept.2) :
    (hosts.foldl (evictHost cutoff) swept).1 + (hosts.foldl (evictHost cutoff) swept).2.size =
      swept.1 + swept.2.size := by
  induction hosts generalizing swept with
  | nil => rfl
  | cons first rest ih =>
    rw [List.foldl_cons, ih h.tail, total_evictHost (h.tracked first List.mem_cons_self)]

variable (t : SessionTable)

theorem waiting_toList : Waiting t.tracked.toList t where
  nodup := by
    rw [Std.ExtTreeMap.map_fst_toList_eq_keys]
    exact Std.ExtTreeMap.nodup_keys
  tracked _ := Std.ExtTreeMap.mem_toList_iff_getElem?_eq_some.1

/-- A swept host has lost its idle sessions, and is not tracked if it has no other. -/
theorem host?_evict (now window : UInt64) (host : Address) :
    (t.evict now window).2.host? host =
      (t.host? host).bind fun sessions =>
        (sessions.evictBefore (Saturating.sub now window)).2.kept? := by
  rw [evict, host?_foldl_evictHost _ t.waiting_toList]
  split
  · rfl
  · rename_i habsent
    rw [Std.ExtTreeMap.map_fst_toList_eq_keys, Std.ExtTreeMap.mem_keys,
      Std.ExtTreeMap.mem_iff_isSome_getElem?, Option.not_isSome_iff_eq_none] at habsent
    rw [host?, habsent]
    rfl

theorem total_evict (now window : UInt64) :
    (t.evict now window).1 + (t.evict now window).2.size = t.size := by
  rw [evict, total_foldl_evictHost _ t.waiting_toList, Nat.zero_add]

/-- A sweep drops the sessions that were last seen before the window, and no other ones. -/
theorem get?_evict (now window : UInt64) (key : SessionKey) :
    (t.evict now window).2.get? key =
      (t.get? key).filter fun session =>
        now.toNat - window.toNat ≤ session.lastSeen.toNat := by
  rw [get?, host?_evict, get?]
  cases hhost : t.host? key.host with
  | none => rfl
  | some sessions =>
    simp only [Option.bind_some, HostSessions.get?_kept?, HostSessions.get?_evictBefore,
      UInt64.le_iff_toNat_le, Saturating.toNat_sub]

end SessionTable

namespace HostSessions

/-- The kinds and the remote ends of all sessions. -/
def listed (h : HostSessions) : List (SessionKind × Endpoint) :=
  SessionKind.all.flatMap fun kind => (h.map kind).keys.map fun word => (kind, Endpoint.unpack word)

theorem mem_listed_iff (h : HostSessions) (kind : SessionKind) (endpoint : Endpoint) :
    (kind, endpoint) ∈ h.listed ↔ (h.get? kind endpoint).isSome := by
  simp only [listed, List.mem_flatMap, List.mem_map, Prod.mk.injEq, Std.ExtTreeMap.mem_keys,
    Std.ExtTreeMap.mem_iff_isSome_getElem?]
  constructor
  · intro hlisted
    obtain ⟨kind, -, word, hword, rfl, rfl⟩ := hlisted
    rw [get?, Endpoint.pack_unpack]
    exact hword
  · intro hsome
    exact ⟨kind, kind.mem_all, endpoint.pack, hsome, rfl, Endpoint.unpack_pack endpoint⟩

theorem nodup_listed (h : HostSessions) : h.listed.Nodup := by
  refine List.nodup_flatMap.2 ⟨?_, ?_⟩
  · intro kind _
    refine Std.ExtTreeMap.nodup_keys.map ?_
    intro word other heq
    rw [← Endpoint.pack_unpack word, (Prod.mk.inj heq).2, Endpoint.pack_unpack]
  · refine SessionKind.nodup_all.imp ?_
    intro kind other hne entry hkind hother
    obtain ⟨_, _, rfl⟩ := List.mem_map.1 hkind
    obtain ⟨_, _, heq⟩ := List.mem_map.1 hother
    exact hne (Prod.mk.inj heq).1.symm

theorem length_listed (h : HostSessions) : h.listed.length = h.size := by
  simp [listed, size_eq_sum, maps_eq, List.length_flatMap, Function.comp_def]

end HostSessions

namespace SessionTable

variable (t : SessionTable)

/-- All sessions of a table. -/
def keys : List SessionKey :=
  t.tracked.toList.flatMap fun (host, sessions) =>
    sessions.listed.map fun (kind, endpoint) => ⟨host, kind, endpoint⟩

theorem mem_keys_iff (key : SessionKey) : key ∈ t.keys ↔ (t.get? key).isSome := by
  simp only [keys, List.mem_flatMap, List.mem_map, Prod.exists,
    Std.ExtTreeMap.mem_toList_iff_getElem?_eq_some]
  constructor
  · intro hkey
    obtain ⟨host, sessions, hhost, kind, endpoint, hlisted, rfl⟩ := hkey
    have hsome : t.host? host = some sessions := hhost
    rw [get?, hsome]
    exact (sessions.mem_listed_iff kind endpoint).1 hlisted
  · intro hsome
    cases hhost : t.host? key.host with
    | none => simp [get?, hhost] at hsome
    | some sessions =>
      rw [get?, hhost] at hsome
      exact ⟨key.host, sessions, hhost, key.kind, key.endpoint,
        (sessions.mem_listed_iff _ _).2 hsome, rfl⟩

theorem nodup_keys : t.keys.Nodup := by
  refine List.nodup_flatMap.2 ⟨?_, ?_⟩
  · intro host _
    refine host.2.nodup_listed.map ?_
    intro entry other heq
    obtain ⟨-, hkind, hendpoint⟩ := SessionKey.mk.inj heq
    exact Prod.ext hkind hendpoint
  · have hhosts := t.waiting_toList.nodup
    rw [List.Nodup, List.pairwise_map] at hhosts
    refine hhosts.imp ?_
    intro host other hne key hkey hother
    obtain ⟨_, _, rfl⟩ := List.mem_map.1 hkey
    obtain ⟨_, _, heq⟩ := List.mem_map.1 hother
    exact hne (SessionKey.mk.inj heq).1.symm

/-- The size counts the sessions. -/
theorem size_eq_ncard : t.size = {key | (t.get? key).isSome}.ncard := by
  have hlength : t.keys.length = t.size := by
    simp [keys, size_eq_sum, List.length_flatMap, HostSessions.length_listed]
  have hset : {key | (t.get? key).isSome} = ↑t.keys.toFinset := by
    ext key
    simp [mem_keys_iff]
  rw [hset, Set.ncard_coe_finset, List.toFinset_card_of_nodup t.nodup_keys, hlength]

theorem finite_present : {key | (t.get? key).isSome}.Finite := by
  refine t.keys.toFinset.finite_toSet.subset ?_
  intro key hkey
  simpa [mem_keys_iff] using hkey

/-- A sweep counts the sessions that it drops. -/
theorem evict_fst_eq_ncard (now window : UInt64) :
    (t.evict now window).1 =
      {key | ∃ session, t.get? key = some session ∧
        session.lastSeen.toNat < now.toNat - window.toNat}.ncard := by
  have hsubset : {key | ((t.evict now window).2.get? key).isSome} ⊆
      {key | (t.get? key).isSome} := by
    intro key
    simp only [Set.mem_ofPred_eq, get?_evict]
    exact Option.isSome_of_isSome_filter _ _
  have hdropped : {key | ∃ session, t.get? key = some session ∧
      session.lastSeen.toNat < now.toNat - window.toNat} =
        {key | (t.get? key).isSome} \ {key | ((t.evict now window).2.get? key).isSome} := by
    ext key
    simp only [Set.mem_ofPred_eq, Set.mem_sdiff, get?_evict]
    cases t.get? key with
    | none => simp
    | some session =>
      simp only [Option.some.injEq, exists_eq_left', Option.filter_some, decide_eq_true_eq,
        Option.isSome_some, true_and]
      split <;> simp <;> omega
  have htotal := t.total_evict now window
  have hcount := Set.ncard_sdiff_add_ncard_of_subset hsubset t.finite_present
  rw [← size_eq_ncard, ← size_eq_ncard] at hcount
  rw [hdropped]
  omega

end SessionTable

end FloodGuard

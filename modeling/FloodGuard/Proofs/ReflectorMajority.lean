import FloodGuard.Proofs.LeadingReflector
import FloodGuard.Proofs.SessionSweep

/-!
The reflector behind the incoming traffic of a host over UDP. It is the one whose port carries more
than half of the bytes, and there is at most one such port. So the sessions may be gone through in
any order, and the reflectors may be compared in any order. Nothing but these sessions matters, and
more bytes from the port of the reflector leave it the reflector. All of this holds as long as the
sum of the bytes fits into a counter.
-/
namespace FloodGuard

theorem Reflector.port_inj {a b : Reflector} : a.port = b.port ↔ a = b := by
  constructor
  · intro h
    have hread := ofPort?_port a
    rw [h, ofPort?_port b] at hread
    exact (Option.some.inj hread).symm
  · exact congrArg port

namespace SessionTable

/-- Whether a list has the sessions of a kind of a host, each once, in some order. -/
structure Visits (t : SessionTable) (host : Address) (kind : SessionKind)
    (visited : List (Endpoint × Session)) : Prop where
  nodup : visited.Nodup
  mem_iff : ∀ endpoint session, (endpoint, session) ∈ visited ↔
    t.get? ⟨host, kind, endpoint⟩ = some session

/-- The bytes of some sessions. -/
def bytesIn (visited : List (Endpoint × Session)) : Nat :=
  (visited.map fun entry => entry.2.bytes.toNat).sum

/-- The bytes of the sessions with a remote port. -/
def bytesOver (visited : List (Endpoint × Session)) (port : UInt16) : Nat :=
  bytesIn (visited.filter fun entry => entry.1.remotePort = port)

theorem bytesIn_cons (entry : Endpoint × Session) (rest : List (Endpoint × Session)) :
    bytesIn (entry :: rest) = entry.2.bytes.toNat + bytesIn rest := by
  rw [bytesIn, List.map_cons, List.sum_cons]
  rfl

theorem bytesOver_cons (entry : Endpoint × Session) (rest : List (Endpoint × Session))
    (port : UInt16) :
    bytesOver (entry :: rest) port =
      (if entry.1.remotePort = port then entry.2.bytes.toNat else 0) + bytesOver rest port := by
  unfold bytesOver
  split
  · rename_i heq
    rw [List.filter_cons_of_pos (by simp [heq]), bytesIn_cons]
  · rename_i hne
    rw [List.filter_cons_of_neg (by simp [hne]), Nat.zero_add]

theorem bytesOver_le (visited : List (Endpoint × Session)) (port : UInt16) :
    bytesOver visited port ≤ bytesIn visited := by
  induction visited with
  | nil => exact Nat.le_refl _
  | cons entry rest ih =>
    rw [bytesOver_cons, bytesIn_cons]
    split <;> omega

/-- What two ports carry is no more than everything. -/
theorem bytesOver_add_le (visited : List (Endpoint × Session)) {p q : UInt16} (hne : p ≠ q) :
    bytesOver visited p + bytesOver visited q ≤ bytesIn visited := by
  induction visited with
  | nil => exact Nat.le_refl _
  | cons entry rest ih =>
    rw [bytesOver_cons, bytesOver_cons, bytesIn_cons]
    split <;> split
    · rename_i hp hq
      exact absurd (hp.symm.trans hq) hne
    all_goals omega

/-- Two reflectors do not both carry more than half. -/
theorem majority_unique {visited : List (Endpoint × Session)} {a b : Reflector}
    (ha : bytesIn visited < 2 * bytesOver visited a.port)
    (hb : bytesIn visited < 2 * bytesOver visited b.port) : a = b := by
  by_contra hne
  have hadd := bytesOver_add_le visited (mt Reflector.port_inj.1 hne)
  omega

theorem bytesIn_perm {visited others : List (Endpoint × Session)} (h : visited.Perm others) :
    bytesIn visited = bytesIn others :=
  (h.map _).sum_nat

theorem bytesOver_perm {visited others : List (Endpoint × Session)} (h : visited.Perm others)
    (port : UInt16) : bytesOver visited port = bytesOver others port :=
  bytesIn_perm (h.filter _)

/-- Whatever order the sessions are gone through in, they are the same sessions. -/
theorem Visits.perm {t : SessionTable} {host : Address} {kind : SessionKind}
    {visited others : List (Endpoint × Session)} (h : t.Visits host kind visited)
    (hothers : t.Visits host kind others) : visited.Perm others := by
  rw [List.perm_ext_iff_of_nodup h.nodup hothers.nodup]
  rintro ⟨endpoint, session⟩
  rw [h.mem_iff, hothers.mem_iff]

/-- The sessions of a kind by their remote ends, none if the host is not tracked. -/
def mapOf (t : SessionTable) (host : Address) (kind : SessionKind) : SessionMap :=
  ((t.host? host).getD {}).map kind

theorem ofKind_eq (t : SessionTable) (host : Address) (kind : SessionKind) :
    t.ofKind host kind = (t.mapOf host kind).toList := by
  rw [ofKind, mapOf]
  cases t.host? host with
  | some sessions => rfl
  | none => obtain ⟨_ | _, _ | _ | _ | _⟩ := kind <;> rfl

theorem getElem?_mapOf (t : SessionTable) (host : Address) (kind : SessionKind) (word : UInt64) :
    (t.mapOf host kind)[word]? = t.get? ⟨host, kind, Endpoint.unpack word⟩ := by
  rw [get?_eq_getD, HostSessions.get?, Endpoint.pack_unpack]
  rfl

/-- The sessions of a kind are known by what the table has of each. -/
theorem ofKind_congr {t u : SessionTable} {host : Address} {kind : SessionKind}
    (h : ∀ endpoint, u.get? ⟨host, kind, endpoint⟩ = t.get? ⟨host, kind, endpoint⟩) :
    u.ofKind host kind = t.ofKind host kind := by
  have hmap : u.mapOf host kind = t.mapOf host kind := by
    apply Std.ExtTreeMap.ext_getElem?
    intro word
    rw [getElem?_mapOf, getElem?_mapOf, h]
  rw [ofKind_eq, ofKind_eq, hmap]

/-- Nothing but the sessions over UDP that came in to a host counts for it. -/
theorem reflectorOf_congr {t u : SessionTable} {host : Address}
    (h : ∀ endpoint, u.get? ⟨host, reflected, endpoint⟩ = t.get? ⟨host, reflected, endpoint⟩)
    (order : ReflectorOrder) : u.reflectorOf host order = t.reflectorOf host order := by
  rw [reflectorOf, reflectorOf, reflectedTally, reflectedTally, listed, listed, ofKind_congr h]

theorem visits_listed (t : SessionTable) (host : Address) (kind : SessionKind) :
    t.Visits host kind (t.listed host kind) where
  nodup := by
    have hinjective : Function.Injective
        fun entry : UInt64 × Session => (Endpoint.unpack entry.1, entry.2) := by
      intro entry other heq
      obtain ⟨hword, hsession⟩ := Prod.mk.inj heq
      refine Prod.ext ?_ hsession
      rw [← Endpoint.pack_unpack entry.1, hword, Endpoint.pack_unpack]
    rw [listed, ofKind_eq]
    refine List.Nodup.map hinjective (List.Nodup.of_map Prod.fst ?_)
    rw [Std.ExtTreeMap.map_fst_toList_eq_keys]
    exact Std.ExtTreeMap.nodup_keys
  mem_iff endpoint session := by
    simp only [listed, ofKind_eq, List.mem_map, Prod.mk.injEq, Prod.exists,
      Std.ExtTreeMap.mem_toList_iff_getElem?_eq_some, getElem?_mapOf]
    constructor
    · intro h
      obtain ⟨word, session', hget, rfl, rfl⟩ := h
      exact hget
    · intro h
      exact ⟨endpoint.pack, session, by rw [Endpoint.unpack_pack, h], Endpoint.unpack_pack _, rfl⟩

/-- Halving rounds down, which makes no difference to a comparison with a whole number. -/
theorem half_lt_iff (total part : UInt64) :
    total / 2 < part ↔ total.toNat < 2 * part.toNat := by
  have htwo : (2 : UInt64).toNat = 2 := rfl
  rw [UInt64.lt_iff_toNat_lt, UInt64.toNat_div, htwo]
  omega

theorem toNat_total_foldl_count (visited : List (Endpoint × Session)) (tally : ByteTally) :
    (visited.foldl ByteTally.count tally).total.toNat =
      min (tally.total.toNat + bytesIn visited) Saturating.largest := by
  induction visited generalizing tally with
  | nil => exact (Nat.min_eq_left (Saturating.toNat_le_largest _)).symm
  | cons entry rest ih =>
    rw [List.foldl_cons, ih, bytesIn_cons, ByteTally.count, Saturating.toNat_add]
    omega

theorem toNat_of_foldl_count (visited : List (Endpoint × Session)) (tally : ByteTally)
    (kind : Reflector) :
    ((visited.foldl ByteTally.count tally).of kind).toNat =
      min ((tally.of kind).toNat + bytesOver visited kind.port) Saturating.largest := by
  induction visited generalizing tally with
  | nil => exact (Nat.min_eq_left (Saturating.toNat_le_largest _)).symm
  | cons entry rest ih =>
    rw [List.foldl_cons, ih, bytesOver_cons, ByteTally.count]
    simp only [Reflector.ofPort?_eq_some_iff, eq_comm (a := kind.port)]
    split
    · rw [Saturating.toNat_add]
      omega
    · rw [Nat.zero_add]

/-- In whatever order the sessions are gone through, the counters come out the same. -/
theorem foldl_count_eq {t : SessionTable} {host : Address} {visited : List (Endpoint × Session)}
    (h : t.Visits host reflected visited) :
    visited.foldl ByteTally.count {} = t.reflectedTally host := by
  have hperm := h.perm (t.visits_listed host reflected)
  rw [reflectedTally]
  ext1
  · apply UInt64.toNat_inj.1
    rw [toNat_total_foldl_count, toNat_total_foldl_count, bytesIn_perm hperm]
  · funext kind
    apply UInt64.toNat_inj.1
    rw [toNat_of_foldl_count, toNat_of_foldl_count, bytesOver_perm hperm]

section

variable {t : SessionTable} {host : Address} {visited : List (Endpoint × Session)}

theorem toNat_total_reflectedTally (h : t.Visits host reflected visited)
    (hfits : bytesIn visited ≤ Saturating.largest) :
    (t.reflectedTally host).total.toNat = bytesIn visited := by
  rw [← foldl_count_eq h, toNat_total_foldl_count, UInt64.toNat_zero, Nat.zero_add,
    Nat.min_eq_left hfits]

theorem toNat_of_reflectedTally (h : t.Visits host reflected visited)
    (hfits : bytesIn visited ≤ Saturating.largest) (kind : Reflector) :
    ((t.reflectedTally host).of kind).toNat = bytesOver visited kind.port := by
  rw [← foldl_count_eq h, toNat_of_foldl_count, UInt64.toNat_zero, Nat.zero_add,
    Nat.min_eq_left ((bytesOver_le visited kind.port).trans hfits)]

/-- While the sum of the bytes fits into a counter, a reflector leads if and only if more than half
of the bytes come from its port. -/
theorem leads_reflectedTally (h : t.Visits host reflected visited)
    (hfits : bytesIn visited ≤ Saturating.largest) (reflector : Reflector) :
    (t.reflectedTally host).Leads reflector ↔
      bytesIn visited < 2 * bytesOver visited reflector.port := by
  have htotal := toNat_total_reflectedTally h hfits
  have hof := toNat_of_reflectedTally h hfits
  constructor
  · rintro ⟨hmajority, -⟩
    rwa [half_lt_iff, htotal, hof] at hmajority
  · intro hmajority
    refine ⟨by rwa [half_lt_iff, htotal, hof], ?_⟩
    intro other
    by_cases heq : other = reflector
    · rw [heq]
      exact UInt64.le_refl _
    · have hadd := bytesOver_add_le visited (mt Reflector.port_inj.1 heq)
      rw [UInt64.le_iff_toNat_le, hof, hof]
      omega

/-- While the sum of the bytes fits into a counter, at most one reflector leads. -/
theorem decided_reflectedTally (h : t.Visits host reflected visited)
    (hfits : bytesIn visited ≤ Saturating.largest) : (t.reflectedTally host).Decided := by
  intro a b ha hb
  rw [leads_reflectedTally h hfits] at ha hb
  exact majority_unique ha hb

/-- While the sum of the bytes fits into a counter, a reflector is the answer if and only if more
than half of the bytes come from its port. -/
theorem reflectorOf_eq_some_iff (h : t.Visits host reflected visited)
    (hfits : bytesIn visited ≤ Saturating.largest) (order : ReflectorOrder)
    (reflector : Reflector) :
    t.reflectorOf host order = some reflector ↔
      bytesIn visited < 2 * bytesOver visited reflector.port := by
  rw [reflectorOf, (decided_reflectedTally h hfits).verdict_eq_some_iff
    (fun kind _ => order.mem_kinds kind), leads_reflectedTally h hfits]

end

/-- Exactly half is not enough. -/
example : ((record {} ⟨.v4 10, reflected, ⟨1, 80, 4000⟩⟩ 50 0).record
    ⟨.v4 10, reflected, ⟨2, 19, 4000⟩⟩ 50 0).reflectorOf (.v4 10) = none := by decide +kernel

theorem exists_mem_of_bytesOver_pos {visited : List (Endpoint × Session)} {port : UInt16}
    (h : 0 < bytesOver visited port) : ∃ entry ∈ visited, entry.1.remotePort = port := by
  by_contra hnone
  have hempty : (visited.filter fun entry => entry.1.remotePort = port) = [] := by
    simpa using hnone
  rw [bytesOver, hempty] at h
  exact Nat.lt_irrefl 0 h

/-- Going through the sessions in any order, and through the reflectors that were met in any order,
gives the reflector of the table. -/
theorem verdict_foldl_count {t : SessionTable} {host : Address}
    {visited : List (Endpoint × Session)} {kinds : List Reflector}
    (h : t.Visits host reflected visited) (hfits : bytesIn visited ≤ Saturating.largest)
    (hkinds : ∀ entry ∈ visited, ∀ kind,
      Reflector.ofPort? entry.1.remotePort = some kind → kind ∈ kinds) (order : ReflectorOrder) :
    (visited.foldl ByteTally.count {}).verdict kinds = t.reflectorOf host order := by
  have hmet : ∀ kind, 0 < (t.reflectedTally host).of kind → kind ∈ kinds := by
    intro kind hpos
    rw [UInt64.lt_iff_toNat_lt, toNat_of_reflectedTally h hfits] at hpos
    obtain ⟨entry, hentry, hport⟩ := exists_mem_of_bytesOver_pos hpos
    exact hkinds entry hentry kind ((Reflector.ofPort?_eq_some_iff _ _).2 hport.symm)
  ext kind
  rw [foldl_count_eq h, (decided_reflectedTally h hfits).verdict_eq_some_iff hmet,
    reflectorOf_eq_some_iff h hfits, leads_reflectedTally h hfits]

/-- The sessions of a kind are that with one remote end, if there is one, and the others. -/
theorem Visits.perm_apart {t : SessionTable} {host : Address} {kind : SessionKind}
    {visited : List (Endpoint × Session)} (h : t.Visits host kind visited) (endpoint : Endpoint) :
    visited.Perm ((t.get? ⟨host, kind, endpoint⟩).toList.map (endpoint, ·) ++
      visited.filter fun entry => entry.1 ≠ endpoint) := by
  have hone : (visited.filter fun entry => entry.1 = endpoint).Perm
      ((t.get? ⟨host, kind, endpoint⟩).toList.map (endpoint, ·)) := by
    rw [List.perm_ext_iff_of_nodup (h.nodup.filter _)]
    · rintro ⟨other, session⟩
      simp only [List.mem_filter, h.mem_iff, decide_eq_true_eq, List.mem_map, Option.mem_toList,
        Prod.mk.injEq]
      constructor
      · rintro ⟨hget, rfl⟩
        exact ⟨session, hget, rfl, rfl⟩
      · rintro ⟨session', hget, rfl, rfl⟩
        exact ⟨hget, rfl⟩
    · cases t.get? ⟨host, kind, endpoint⟩ <;> simp
  have hsplit := List.filter_append_perm
    (fun entry : Endpoint × Session => decide (entry.1 = endpoint)) visited
  refine hsplit.symm.trans ((hone.append_right _).trans (List.Perm.of_eq ?_))
  simp

/-- A recorded packet leaves the sessions with other remote ends as they are. -/
theorem Visits.perm_others {t : SessionTable} {host : Address} {kind : SessionKind}
    {visited later : List (Endpoint × Session)} {endpoint : Endpoint} {bytes now : UInt64}
    (h : t.Visits host kind visited)
    (hlater : (t.record ⟨host, kind, endpoint⟩ bytes now).Visits host kind later) :
    (later.filter fun entry => entry.1 ≠ endpoint).Perm
      (visited.filter fun entry => entry.1 ≠ endpoint) := by
  rw [List.perm_ext_iff_of_nodup (hlater.nodup.filter _) (h.nodup.filter _)]
  rintro ⟨other, session⟩
  simp only [List.mem_filter, hlater.mem_iff, h.mem_iff, get?_record, SessionKey.mk.injEq,
    true_and, decide_eq_true_eq, and_congr_left_iff]
  intro hne
  rw [if_neg (Ne.symm hne)]

theorem bytes_count (session : Session) (bytes now : UInt64) :
    session.bytes.toNat ≤ (session.count bytes now).bytes.toNat := by
  have hlargest := Saturating.toNat_le_largest session.bytes
  rw [Session.count, Saturating.toNat_add]
  omega

/-- A recorded packet adds the same number of bytes to everything and to its port, and nothing to
another port. -/
theorem Visits.bytes_record {t : SessionTable} {host : Address} {kind : SessionKind}
    {visited later : List (Endpoint × Session)} {endpoint : Endpoint} {bytes now : UInt64}
    (h : t.Visits host kind visited)
    (hlater : (t.record ⟨host, kind, endpoint⟩ bytes now).Visits host kind later) :
    ∃ more, bytesIn later = bytesIn visited + more ∧
      ∀ port, bytesOver later port =
        bytesOver visited port + if endpoint.remotePort = port then more else 0 := by
  have hone := h.perm_apart endpoint
  have hnew := (hlater.perm_apart endpoint).trans
    (List.Perm.append_left _ (h.perm_others hlater))
  rw [get?_record, if_pos rfl] at hnew
  simp only [Option.toList_some, List.map_cons, List.map_nil, List.singleton_append] at hnew
  cases hget : t.get? ⟨host, kind, endpoint⟩ with
  | none =>
    rw [hget] at hone hnew
    refine ⟨(Session.count {} bytes now).bytes.toNat, ?_, fun port => ?_⟩
    · rw [bytesIn_perm hnew, bytesIn_cons, bytesIn_perm hone]
      exact Nat.add_comm _ _
    · rw [bytesOver_perm hnew, bytesOver_cons, bytesOver_perm hone]
      exact Nat.add_comm _ _
  | some session =>
    rw [hget] at hone hnew
    simp only [Option.toList_some, List.map_cons, List.map_nil, List.singleton_append] at hone
    have hless := bytes_count session bytes now
    refine ⟨(session.count bytes now).bytes.toNat - session.bytes.toNat, ?_, fun port => ?_⟩
    · rw [bytesIn_perm hnew, bytesIn_cons, bytesIn_perm hone, bytesIn_cons]
      simp only [Option.getD_some]
      omega
    · rw [bytesOver_perm hnew, bytesOver_cons, bytesOver_perm hone, bytesOver_cons]
      simp only [Option.getD_some]
      split <;> omega

/-- More bytes from the port of the reflector leave it the reflector, while the sum fits. -/
theorem reflectorOf_record_own {t : SessionTable} {host : Address} {reflector : Reflector}
    {visited later : List (Endpoint × Session)} {endpoint : Endpoint} {bytes now : UInt64}
    (h : t.Visits host reflected visited)
    (hlater : (t.record ⟨host, reflected, endpoint⟩ bytes now).Visits host reflected later)
    (hfits : bytesIn later ≤ Saturating.largest) (hport : endpoint.remotePort = reflector.port)
    {order : ReflectorOrder} (hreflector : t.reflectorOf host order = some reflector)
    (other : ReflectorOrder) :
    (t.record ⟨host, reflected, endpoint⟩ bytes now).reflectorOf host other = some reflector := by
  obtain ⟨more, hin, hover⟩ := h.bytes_record hlater
  have hmajority := (reflectorOf_eq_some_iff h (by omega) order reflector).1 hreflector
  rw [reflectorOf_eq_some_iff hlater hfits, hover, if_pos hport]
  omega

/-- A packet of another host, another direction or another protocol makes no difference. -/
theorem reflectorOf_record_other (t : SessionTable) {host : Address} {key : SessionKey}
    (bytes now : UInt64) (h : key.host ≠ host ∨ key.kind ≠ reflected) (order : ReflectorOrder) :
    (t.record key bytes now).reflectorOf host order = t.reflectorOf host order := by
  refine reflectorOf_congr ?_ order
  intro endpoint
  rw [get?_record, if_neg]
  rintro rfl
  rcases h with hhost | hkind
  · exact hhost rfl
  · exact hkind rfl

theorem reflectorOf_untracked {t : SessionTable} {host : Address} (h : t.host? host = none)
    (order : ReflectorOrder) : t.reflectorOf host order = none := by
  have hempty : t.reflectedTally host = {} := by
    rw [reflectedTally, listed, ofKind, h]
    rfl
  rw [Option.eq_none_iff_forall_ne_some, reflectorOf, hempty]
  intro reflector hverdict
  have hleads := ByteTally.leads_of_verdict (fun kind _ => order.mem_kinds kind) hverdict
  have hnone : ¬ (0 : UInt64) / 2 < 0 := by decide
  exact hnone hleads.majority

/-- The reflector of a host whose incoming bytes over UDP fit into a counter is the one whose port
carries more than half of them. There is at most one; if there is none, as without any bytes, or
for a host that is not tracked, the answer is none. The order in which the sessions and the
reflectors are visited makes no difference, nor do any sessions but these, and the answer stays when
more bytes come from its port. -/
theorem reflectorOf_strict_majority (t : SessionTable) (host : Address) (order : ReflectorOrder)
    (visited : List (Endpoint × Session)) (h : t.Visits host reflected visited)
    (hfits : bytesIn visited ≤ Saturating.largest) :
    (∀ reflector, t.reflectorOf host order = some reflector ↔
        bytesIn visited < 2 * bytesOver visited reflector.port) ∧
      (∀ a b : Reflector, bytesIn visited < 2 * bytesOver visited a.port →
        bytesIn visited < 2 * bytesOver visited b.port → a = b) ∧
      (∀ other, t.reflectorOf host other = t.reflectorOf host order) ∧
      (∀ walk kinds, t.Visits host reflected walk →
        (∀ entry ∈ walk, ∀ kind,
          Reflector.ofPort? entry.1.remotePort = some kind → kind ∈ kinds) →
        (walk.foldl ByteTally.count {}).verdict kinds = t.reflectorOf host order) ∧
      (t.reflectorOf host order = none ↔
        ∀ reflector : Reflector, 2 * bytesOver visited reflector.port ≤ bytesIn visited) ∧
      (bytesIn visited = 0 → t.reflectorOf host order = none) ∧
      (t.host? host = none → t.reflectorOf host order = none) ∧
      (∀ u : SessionTable,
        (∀ endpoint, u.get? ⟨host, reflected, endpoint⟩ = t.get? ⟨host, reflected, endpoint⟩) →
        u.reflectorOf host order = t.reflectorOf host order) ∧
      (∀ (key : SessionKey) (bytes now : UInt64), key.host ≠ host ∨ key.kind ≠ reflected →
        (t.record key bytes now).reflectorOf host order = t.reflectorOf host order) ∧
      ∀ (reflector : Reflector) (endpoint : Endpoint) (bytes now : UInt64)
        (later : List (Endpoint × Session)) (other : ReflectorOrder),
        t.reflectorOf host order = some reflector → endpoint.remotePort = reflector.port →
        (t.record ⟨host, reflected, endpoint⟩ bytes now).Visits host reflected later →
        bytesIn later ≤ Saturating.largest →
        (t.record ⟨host, reflected, endpoint⟩ bytes now).reflectorOf host other =
          some reflector := by
  have hiff := reflectorOf_eq_some_iff h hfits
  have hnone : t.reflectorOf host order = none ↔
      ∀ reflector : Reflector, 2 * bytesOver visited reflector.port ≤ bytesIn visited := by
    simp only [Option.eq_none_iff_forall_ne_some, ne_eq, hiff, Nat.not_lt]
  refine ⟨hiff order, fun a b => majority_unique, ?_, ?_, hnone, ?_,
    fun huntracked => reflectorOf_untracked huntracked order,
    fun u hsame => reflectorOf_congr hsame order,
    fun key bytes now hother => t.reflectorOf_record_other bytes now hother order, ?_⟩
  · intro other
    ext reflector
    rw [hiff, hiff]
  · intro walk kinds hwalk hkinds
    have hsame := bytesIn_perm (hwalk.perm h)
    exact verdict_foldl_count hwalk (by omega) hkinds order
  · intro hempty
    rw [hnone]
    intro reflector
    have hle := bytesOver_le visited reflector.port
    omega
  · intro reflector endpoint bytes now later other hreflector hport hlater hlaterfits
    exact reflectorOf_record_own h hlater hlaterfits hport hreflector other

/-- Incoming sessions of a host over UDP, with 50 bytes from an unknown port and 51 from port 19. -/
def mixedSessions : SessionTable :=
  (record {} ⟨.v4 10, reflected, ⟨1, 80, 4000⟩⟩ 50 0).record
    ⟨.v4 10, reflected, ⟨2, 19, 4000⟩⟩ 51 0

theorem reflectorOf_strict_majority_of_mixedSessions :
    mixedSessions.Visits (.v4 10) reflected (mixedSessions.listed (.v4 10) reflected) ∧
      bytesIn (mixedSessions.listed (.v4 10) reflected) = 101 ∧
      (∀ order, mixedSessions.reflectorOf (.v4 10) order = some .chargen) ∧
      (∀ order, (mixedSessions.record ⟨.v4 10, reflected, ⟨3, 19, 4000⟩⟩ 49 0).reflectorOf
        (.v4 10) order = some .chargen) ∧
      ∀ order, mixedSessions.reflectorOf (.v4 11) order = none := by
  have hvisits := mixedSessions.visits_listed (.v4 10) reflected
  have hsum : bytesIn (mixedSessions.listed (.v4 10) reflected) = 101 := by decide +kernel
  have hfits : bytesIn (mixedSessions.listed (.v4 10) reflected) ≤ Saturating.largest := by
    rw [hsum]
    decide
  have hchargen : ∀ order, mixedSessions.reflectorOf (.v4 10) order = some .chargen := by
    intro order
    obtain ⟨hiff, -⟩ := reflectorOf_strict_majority mixedSessions (.v4 10) order _ hvisits hfits
    exact (hiff .chargen).2 (by decide +kernel)
  refine ⟨hvisits, hsum, hchargen, ?_, ?_⟩
  · intro order
    obtain ⟨-, -, -, -, -, -, -, -, -, hrecord⟩ :=
      reflectorOf_strict_majority mixedSessions (.v4 10) order _ hvisits hfits
    exact hrecord .chargen ⟨3, 19, 4000⟩ 49 0 _ order (hchargen order) rfl (visits_listed _ _ _)
      (by decide +kernel)
  · intro order
    obtain ⟨-, -, -, -, -, -, huntracked, -⟩ := reflectorOf_strict_majority mixedSessions
      (.v4 11) order _ (mixedSessions.visits_listed (.v4 11) reflected) (by decide +kernel)
    exact huntracked (by decide +kernel)

end SessionTable

end FloodGuard

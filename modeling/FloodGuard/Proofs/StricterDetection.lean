import FloodGuard.Proofs.CheckTable

/-!
More traffic and stricter settings never hide a breach. The value of every dimension grows with the
counters, also for megabits, whose measured number is rounded and cut off: rounding keeps the order,
and the result always fits. So every check that was exceeded is still exceeded, and the first one
that is exceeded cannot move back.
-/
namespace FloodGuard

/-- Whether no number of a volume is above that of another. -/
structure Volume.AtMost (v w : Volume) : Prop where
  inBytes : v.inBytes ≤ w.inBytes
  outBytes : v.outBytes ≤ w.outBytes
  inPackets : v.inPackets ≤ w.inPackets
  outPackets : v.outPackets ≤ w.outPackets

/-- Whether no counter is above that of other traffic. -/
structure Counters.AtMost (c d : Counters) : Prop where
  total : c.total.AtMost d.total
  fragmented : c.fragmented.AtMost d.fragmented
  tcp : c.tcp.AtMost d.tcp
  tcpSyn : c.tcpSyn.AtMost d.tcpSyn
  udp : c.udp.AtMost d.udp
  icmp : c.icmp.AtMost d.icmp
  inFlows : c.inFlows ≤ d.inFlows
  outFlows : c.outFlows ≤ d.outFlows

/-- Whether settings look at all that others look at, and allow no more of it. -/
structure Settings.AsStrict (t s : Settings) : Prop where
  enableV6 : s.enableV6 = true → t.enableV6 = true
  enabled : ∀ d, (s.limit d).enabled = true → (t.limit d).enabled = true
  threshold : ∀ d, (s.limit d).enabled = true → (t.limit d).threshold ≤ (s.limit d).threshold

/-- Whether a breach is one of a check. -/
structure Breach.IsAt (b : Breach) (check : Dimension × Side) : Prop where
  dimension : b.dimension = some check.1
  side : b.side = some check.2

section

variable {v w : Volume} {c d : Counters} {s t : Settings}

theorem Volume.AtMost.refl (v : Volume) : v.AtMost v :=
  ⟨UInt64.le_refl _, UInt64.le_refl _, UInt64.le_refl _, UInt64.le_refl _⟩

theorem Volume.AtMost.bytes (h : v.AtMost w) (side : Side) : v.bytes side ≤ w.bytes side := by
  cases side with
  | incoming => exact h.inBytes
  | outgoing => exact h.outBytes

theorem Volume.AtMost.packets (h : v.AtMost w) (side : Side) :
    v.packets side ≤ w.packets side := by
  cases side with
  | incoming => exact h.inPackets
  | outgoing => exact h.outPackets

namespace Counters.AtMost

theorem flows (h : c.AtMost d) (side : Side) : c.flows side ≤ d.flows side := by
  cases side with
  | incoming => exact h.inFlows
  | outgoing => exact h.outFlows

theorem volume (h : c.AtMost d) (portion : Portion) :
    (portion.volume c).AtMost (portion.volume d) := by
  cases portion with
  | all => exact h.total
  | tcp => exact h.tcp
  | udp => exact h.udp
  | icmp => exact h.icmp
  | tcpSyn => exact h.tcpSyn

/-- More traffic has a greater value in every dimension. -/
theorem value (h : c.AtMost d) (dimension : Dimension) (side : Side) :
    dimension.value c side ≤ dimension.value d side := by
  cases dimension with
  | packets portion => exact (h.volume portion).packets side
  | bandwidth portion => exact megabits_mono ((h.volume portion).bytes side)
  | flows => exact h.flows side

end Counters.AtMost

/-- A check that is exceeded stays so with more traffic and stricter settings. -/
theorem Settings.AsStrict.exceeds (hstrict : t.AsStrict s) (htraffic : c.AtMost d)
    {check : Dimension × Side} (h : s.exceeds c check = true) : t.exceeds d check = true := by
  rw [Settings.exceeds, Bool.and_eq_true, decide_eq_true_eq] at h ⊢
  obtain ⟨henabled, habove⟩ := h
  have hvalue := UInt64.le_iff_toNat_le.1 (htraffic.value check.1 check.2)
  have hthreshold := UInt32.le_iff_toNat_le.1 (hstrict.threshold check.1 henabled)
  exact ⟨hstrict.enabled check.1 henabled, by omega⟩

end

/-- The first element of a list that passes a weaker test is not behind the first one that passes
the stronger test. -/
theorem find?_weaker {α : Type} [BEq α] [LawfulBEq α] {p q : α → Bool}
    (hweaker : ∀ a, p a = true → q a = true) {l : List α} {a : α} (h : l.find? p = some a) :
    ∃ b, l.find? q = some b ∧ l.idxOf b ≤ l.idxOf a := by
  induction l with
  | nil => simp at h
  | cons x l ih =>
    by_cases hq : q x = true
    · refine ⟨x, List.find?_cons_of_pos hq, ?_⟩
      rw [List.idxOf_cons_self]
      exact Nat.zero_le _
    · have hp : ¬ p x = true := fun hp => hq (hweaker x hp)
      rw [List.find?_cons_of_neg hp] at h
      obtain ⟨b, hb, hle⟩ := ih h
      -- Neither of the found elements is the one in front, which fails both tests.
      have hxa : x ≠ a := fun hxa => hp (hxa ▸ List.find?_some h)
      have hxb : x ≠ b := fun hxb => hq (hxb ▸ List.find?_some hb)
      refine ⟨b, by rw [List.find?_cons_of_neg hq, hb], ?_⟩
      simp only [List.idxOf_cons, beq_false_of_ne hxb, beq_false_of_ne hxa, cond_false]
      exact Nat.succ_le_succ hle

namespace Settings

theorem of_evaluate {s : Settings} {group : String} {c : Counters} {v6 : Bool} {b : Breach}
    (h : s.evaluate group c v6 = some b) :
    (v6 = true → s.enableV6 = true) ∧
      ∃ check, Dimension.checks.find? (s.exceeds c) = some check ∧ b.IsAt check := by
  rw [evaluate_eq] at h
  obtain ⟨check, hfirst, rfl⟩ := Option.map_eq_some_iff.1 h
  rw [firstExceeded?] at hfirst
  split at hfirst
  · cases hfirst
  · rename_i hlooked
    exact ⟨by simpa using hlooked, check, hfirst, rfl, rfl⟩

theorem evaluate_of_find? {s : Settings} (group : String) {c : Counters} {v6 : Bool}
    {check : Dimension × Side} (hlooked : v6 = true → s.enableV6 = true)
    (hfind : Dimension.checks.find? (s.exceeds c) = some check) :
    ∃ b, s.evaluate group c v6 = some b ∧ b.IsAt check := by
  have hfirst : s.firstExceeded? c v6 = some check := by
    rw [firstExceeded?, if_neg (by simpa using hlooked), hfind]
  refine ⟨s.breachOf group c check, ?_, rfl, rfl⟩
  rw [evaluate_eq, hfirst, Option.map_some]

/-- Where some traffic makes a breach of some settings, more traffic makes a breach of stricter
settings, and not one of a later check. -/
theorem evaluate_mono {s t : Settings} {c d : Counters} {v6 : Bool} {b : Breach} (group : String)
    (htraffic : c.AtMost d) (hstrict : t.AsStrict s) (hb : s.evaluate group c v6 = some b) :
    ∃ found check earlier, t.evaluate group d v6 = some found ∧ b.IsAt check ∧
      found.IsAt earlier ∧ Dimension.checks.idxOf earlier ≤ Dimension.checks.idxOf check := by
  obtain ⟨hlooked, check, hfind, hat⟩ := of_evaluate hb
  have hweaker : ∀ checked, s.exceeds c checked = true → t.exceeds d checked = true :=
    fun _ hexceeds => hstrict.exceeds htraffic hexceeds
  obtain ⟨earlier, hearlier, hle⟩ := find?_weaker hweaker hfind
  have hallowed : v6 = true → t.enableV6 = true := fun hv6 => hstrict.enableV6 (hlooked hv6)
  obtain ⟨found, hfound, hplace⟩ := evaluate_of_find? group hallowed hearlier
  exact ⟨found, check, earlier, hfound, hat, hplace, hle⟩

/-- Twice the traffic is above the limit of an earlier check too. -/
theorem evaluate_mono_of_twice_the_traffic :
    let s : Settings :=
      { packets := ⟨{}, {}, ⟨true, 300⟩, {}, {}⟩, bandwidth := ⟨⟨true, 90⟩, {}, {}, {}, {}⟩ }
    let t : Settings := { s with enableV6 := true, flows := ⟨true, 1000⟩ }
    let c : Counters := { total := { inBytes := 10485760 }, udp := { inPackets := 500 } }
    let d : Counters := { total := { inBytes := 20971520 }, udp := { inPackets := 1000 } }
    ∃ b found check earlier, s.evaluate "customers" c false = some b ∧ b.IsAt check ∧
      t.evaluate "customers" d false = some found ∧ found.IsAt earlier ∧
      Dimension.checks.idxOf earlier ≤ Dimension.checks.idxOf check := by
  intro s t c d
  have htotal : c.total.AtMost d.total := ⟨by decide, by decide, by decide, by decide⟩
  have hudp : c.udp.AtMost d.udp := ⟨by decide, by decide, by decide, by decide⟩
  have htraffic : c.AtMost d :=
    ⟨htotal, .refl _, .refl _, .refl _, hudp, .refl _, UInt64.le_refl _, UInt64.le_refl _⟩
  have hstrict : t.AsStrict s := by
    refine ⟨by simp [s], ?_, ?_⟩
    · intro dimension henabled
      have henables : ∀ checked ∈ Dimension.priority, (s.limit checked).enabled = true →
          (t.limit checked).enabled = true := by decide
      exact henables dimension (Dimension.mem_priority dimension) henabled
    · intro dimension henabled
      have hlowers : ∀ checked ∈ Dimension.priority, (s.limit checked).enabled = true →
          (t.limit checked).threshold ≤ (s.limit checked).threshold := by decide
      exact hlowers dimension (Dimension.mem_priority dimension) henabled
  have hsome : (s.evaluate "customers" c false).isSome = true := by decide
  obtain ⟨b, hb⟩ := Option.isSome_iff_exists.1 hsome
  obtain ⟨found, check, earlier, hfound, hat, hplace, hle⟩ :=
    evaluate_mono "customers" htraffic hstrict hb
  exact ⟨b, found, check, earlier, hb, hat, hfound, hplace, hle⟩

end Settings

end FloodGuard

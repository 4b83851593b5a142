import FloodGuard.Proofs.CheckTable

/-!
What an evaluation finds. The checks are listed here as the settings document them, each with the
name of what it measures, the setting that limits it, the measured value and the number of its
protocol. An evaluation reports the first check in this order whose value is above its limit, and
nothing if there is none. What it reports is what measuring the same traffic gives, so that a later
measurement can be compared with it.
-/
namespace FloodGuard

/-- A check as the settings document it. -/
structure Check where
  name : String
  limit : Settings → Limit
  value : Counters → Side → UInt64
  protocol : UInt8

namespace Check

/-- The packets of a portion of the traffic. -/
def packets (volume : Counters → Volume) (c : Counters) (side : Side) : UInt64 :=
  (volume c).packets side

/-- The megabits of a portion of the traffic. -/
def speed (volume : Counters → Volume) (c : Counters) (side : Side) : UInt64 :=
  megabits ((volume c).bytes side)

/-- The documented checks, the one of the highest priority in front. -/
def table : List Check :=
  [⟨"packets_per_second", fun s => s.packets.all, packets Counters.total, 0⟩,
    ⟨"bytes_per_second", fun s => s.bandwidth.all, speed Counters.total, 0⟩,
    ⟨"flows_per_second", fun s => s.flows, Counters.flows, 0⟩,
    ⟨"tcp_packets_per_second", fun s => s.packets.tcp, packets Counters.tcp, 6⟩,
    ⟨"udp_packets_per_second", fun s => s.packets.udp, packets Counters.udp, 17⟩,
    ⟨"icmp_packets_per_second", fun s => s.packets.icmp, packets Counters.icmp, 1⟩,
    ⟨"tcp_bytes_per_second", fun s => s.bandwidth.tcp, speed Counters.tcp, 6⟩,
    ⟨"udp_bytes_per_second", fun s => s.bandwidth.udp, speed Counters.udp, 17⟩,
    ⟨"icmp_bytes_per_second", fun s => s.bandwidth.icmp, speed Counters.icmp, 1⟩,
    ⟨"tcp_syn_packets_per_second", fun s => s.packets.tcpSyn, packets Counters.tcpSyn, 6⟩,
    ⟨"tcp_syn_bytes_per_second", fun s => s.bandwidth.tcpSyn, speed Counters.tcpSyn, 6⟩]

/-- The documented checks on both sides, the incoming side of each in front. -/
def sequence : List (Check × Side) :=
  table.flatMap fun check => [(check, .incoming), (check, .outgoing)]

/-- Whether a check is in force and finds a value above its threshold. -/
def Exceeded (check : Check) (s : Settings) (c : Counters) (side : Side) : Prop :=
  (check.limit s).enabled = true ∧ (check.limit s).threshold.toNat < (check.value c side).toNat

/-- The check of a dimension. -/
def ofDimension (d : Dimension) : Check := ⟨label d, fun s => s.limit d, d.value, d.protocol⟩

theorem table_eq : table = Dimension.priority.map ofDimension := rfl

theorem sequence_eq :
    sequence = Dimension.checks.map fun check => (ofDimension check.1, check.2) := rfl

theorem exceeded_iff (s : Settings) (c : Counters) (check : Dimension × Side) :
    (ofDimension check.1).Exceeded s c check.2 ↔ s.exceeds c check = true := by
  rw [Settings.exceeds, Bool.and_eq_true, decide_eq_true_eq]
  exact Iff.rfl

/-- No check finds anything just if every value is within the limit in force. -/
theorem none_exceeded_iff (s : Settings) (c : Counters) :
    (∀ check ∈ Dimension.checks, s.exceeds c check ≠ true) ↔
      ∀ check ∈ table, (check.limit s).enabled = true → ∀ side,
        (check.value c side).toNat ≤ (check.limit s).threshold.toNat := by
  constructor
  · intro h check hcheck henabled side
    rw [table_eq] at hcheck
    obtain ⟨d, -, rfl⟩ := List.mem_map.1 hcheck
    refine Nat.le_of_not_lt fun habove => h (d, side) (Dimension.mem_checks d side) ?_
    exact (exceeded_iff s c (d, side)).1 ⟨henabled, habove⟩
  · rintro h ⟨d, side⟩ - hexceeds
    obtain ⟨henabled, habove⟩ := (exceeded_iff s c (d, side)).2 hexceeds
    have hcheck : ofDimension d ∈ table := by
      rw [table_eq]
      exact List.mem_map_of_mem (Dimension.mem_priority d)
    exact Nat.not_lt_of_le (h (ofDimension d) hcheck henabled side) habove

end Check

/-- Whether a breach is the report of a check on one side. -/
structure Breach.Reports (b : Breach) (owner : String) (s : Settings) (c : Counters)
    (check : Check) (found : Side) : Prop where
  group : b.group = owner
  dimension : label b.dimension = check.name
  side : b.side = some found
  value : b.value = check.value c found
  threshold : b.threshold = (check.limit s).threshold
  protocol : b.protocol = check.protocol

namespace Settings

variable {s : Settings} {c : Counters} {v6 : Bool} {check : Dimension × Side}

theorem firstExceeded?_eq_none_iff :
    s.firstExceeded? c v6 = none ↔
      (v6 = true ∧ s.enableV6 = false) ∨
        ∀ check ∈ Dimension.checks, s.exceeds c check ≠ true := by
  rw [firstExceeded?]
  split
  · rename_i hignored
    simp_all
  · rename_i hlooked
    rw [List.find?_eq_none, or_iff_right (by simpa using hlooked)]

theorem of_firstExceeded? (h : s.firstExceeded? c v6 = some check) :
    s.exceeds c check = true ∧ ∃ before after, Dimension.checks = before ++ check :: after ∧
      ∀ earlier ∈ before, s.exceeds c earlier ≠ true := by
  rw [firstExceeded?] at h
  split at h
  · cases h
  · obtain ⟨hexceeds, before, after, hsplit, hnone⟩ := List.find?_eq_some_iff_append.1 h
    exact ⟨hexceeds, before, after, hsplit, fun earlier he => by simpa using hnone earlier he⟩

/-- An evaluation finds nothing just if traffic of version 6 is not looked at or every value is
within the limit in force. Otherwise it reports the first of the documented checks that is exceeded,
and the value that it reports is the measured one. -/
theorem evaluate_first_exceeded (group : String) (c : Counters) (s : Settings) (v6 : Bool) :
    (s.evaluate group c v6 = none ↔
      (v6 = true ∧ s.enableV6 = false) ∨
        ∀ check ∈ Check.table, (check.limit s).enabled = true → ∀ side,
          (check.value c side).toNat ≤ (check.limit s).threshold.toNat) ∧
    ∀ b, s.evaluate group c v6 = some b →
      (∃ before check side after, Check.sequence = before ++ (check, side) :: after ∧
        check.Exceeded s c side ∧ (∀ earlier ∈ before, ¬ earlier.1.Exceeded s c earlier.2) ∧
        b.Reports group s c check side) ∧
      measure c b.dimension b.side = some b.value := by
  rw [evaluate_eq]
  constructor
  · rw [Option.map_eq_none_iff, firstExceeded?_eq_none_iff, Check.none_exceeded_iff]
  · intro b hb
    obtain ⟨check, hfirst, rfl⟩ := Option.map_eq_some_iff.1 hb
    obtain ⟨hexceeds, before, after, hsplit, hnone⟩ := of_firstExceeded? hfirst
    refine ⟨⟨before.map fun earlier => (.ofDimension earlier.1, earlier.2),
      .ofDimension check.1, check.2, after.map fun later => (.ofDimension later.1, later.2),
      ?_, (Check.exceeded_iff s c check).2 hexceeds, ?_, ⟨rfl, rfl, rfl, rfl, rfl, rfl⟩⟩,
      measure_some c check.1 check.2⟩
    · rw [Check.sequence_eq, hsplit, List.map_append, List.map_cons]
    · simp only [List.forall_mem_map]
      exact fun earlier he hexceeded =>
        hnone earlier he ((Check.exceeded_iff s c earlier).1 hexceeded)

/-- Outgoing packets come before incoming megabits and before the packets of a single protocol. -/
theorem evaluate_first_exceeded_outgoing_packets :
    let s : Settings :=
      { packets := ⟨⟨true, 100⟩, {}, ⟨true, 50⟩, {}, {}⟩
        bandwidth := ⟨⟨true, 1⟩, {}, {}, {}, {}⟩ }
    let c : Counters :=
      { total := { inBytes := 10485760, outPackets := 500 }, udp := { inPackets := 500 } }
    ∃ b, s.evaluate "customers" c false = some b ∧
      b.dimension = some (.packets .all) ∧ b.side = some .outgoing ∧
      measure c (some (.packets .all)) (some .outgoing) = some b.value := by
  intro s c
  have hfound : (s.evaluate "customers" c false).map (fun b => (b.dimension, b.side)) =
      some (some (.packets .all), some .outgoing) := by decide
  obtain ⟨b, hb, hplace⟩ := Option.map_eq_some_iff.1 hfound
  obtain ⟨hdimension, hside⟩ := Prod.mk.inj hplace
  obtain ⟨-, hmeasure⟩ := (evaluate_first_exceeded "customers" c s false).2 b hb
  rw [hdimension, hside] at hmeasure
  exact ⟨b, hb, hdimension, hside, hmeasure⟩

end Settings

end FloodGuard

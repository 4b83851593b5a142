import FloodGuard.Detection.Settings

/-!
The table of checks by dimension. Each dimension has one row in it, so that what is measured of a
dimension is what the check of this dimension compares with its threshold, whatever the settings
are. An evaluation finds the first pair of a dimension and a side whose value is above its
threshold.
-/
namespace FloodGuard

namespace Portion

def volume : Portion → Counters → Volume
  | .all => Counters.total
  | .tcp => Counters.tcp
  | .udp => Counters.udp
  | .icmp => Counters.icmp
  | .tcpSyn => Counters.tcpSyn

/-- The protocol number of the portion, zero where it has none. -/
def protocol : Portion → UInt8
  | .all => 0
  | .tcp => Protocol.tcp
  | .udp => Protocol.udp
  | .icmp => Protocol.icmp
  | .tcpSyn => Protocol.tcp

end Portion

namespace Dimension

/-- The current value of the dimension, in its own unit. -/
def value (d : Dimension) (c : Counters) (side : Side) : UInt64 :=
  match d with
  | .packets portion => (portion.volume c).packets side
  | .bandwidth portion => megabits ((portion.volume c).bytes side)
  | .flows => c.flows side

def protocol : Dimension → UInt8
  | .packets portion => portion.protocol
  | .bandwidth portion => portion.protocol
  | .flows => 0

/-- Every dimension with every side, in the order in which they are checked. -/
def checks : List (Dimension × Side) :=
  priority.flatMap fun d => [(d, .incoming), (d, .outgoing)]

theorem mem_checks (d : Dimension) (side : Side) : (d, side) ∈ checks := by
  refine List.mem_flatMap.2 ⟨d, mem_priority d, ?_⟩
  cases side <;> simp

end Dimension

/-- The first result for what passes a test is the first one with the test made along with it. -/
theorem findSome?_filter {α β : Type} (p : α → Bool) (f : α → Option β) (l : List α) :
    (l.filter p).findSome? f = l.findSome? fun a => if p a then f a else none := by
  induction l with
  | nil => rfl
  | cons a rest ih => cases h : p a <;> simp [h, List.findSome?_cons, ih]

namespace Settings

/-- The row of a dimension. -/
def row (s : Settings) : Dimension → Row
  | .packets portion =>
    ⟨s.packets.get portion, .packets portion, .packets, portion.protocol, portion.volume⟩
  | .bandwidth portion =>
    ⟨s.bandwidth.get portion, .bandwidth portion, .megabits, portion.protocol, portion.volume⟩
  | .flows => ⟨s.flows, .flows, .flows, 0, Counters.total⟩

@[simp] theorem limit_row (s : Settings) (d : Dimension) : (s.row d).limit = s.limit d := by
  cases d <;> rfl

@[simp] theorem dimension_row (s : Settings) (d : Dimension) : (s.row d).dimension = d := by
  cases d <;> rfl

@[simp] theorem protocol_row (s : Settings) (d : Dimension) : (s.row d).protocol = d.protocol := by
  cases d <;> rfl

@[simp] theorem value_row (s : Settings) (d : Dimension) (c : Counters) (side : Side) :
    (s.row d).value c side = d.value c side := by
  cases d <;> rfl

/-- The table has the rows of all dimensions, in the order of their priority. -/
theorem rows_eq (s : Settings) : s.rows = Dimension.priority.map s.row := rfl

/-- Each dimension has one row. -/
theorem mem_rows_iff (s : Settings) (row : Row) (d : Dimension) :
    row ∈ s.rows ∧ row.dimension = d ↔ row = s.row d := by
  rw [rows_eq, List.mem_map]
  constructor
  · rintro ⟨⟨other, -, rfl⟩, hdimension⟩
    rw [← hdimension, dimension_row]
  · rintro rfl
    exact ⟨⟨d, d.mem_priority, rfl⟩, s.dimension_row d⟩

theorem find?_rows (s : Settings) (d : Dimension) :
    s.rows.find? (fun row => some row.dimension = some d) = some (s.row d) := by
  have hsome : (s.rows.find? fun row => some row.dimension = some d).isSome = true := by
    rw [List.find?_isSome]
    obtain ⟨hmem, -⟩ := (s.mem_rows_iff _ d).2 rfl
    exact ⟨s.row d, hmem, by simp⟩
  obtain ⟨row, hrow⟩ := Option.isSome_iff_exists.1 hsome
  have hfound : row.dimension = d := by simpa using List.find?_some hrow
  rw [hrow, (s.mem_rows_iff row d).1 ⟨List.mem_of_find?_eq_some hrow, hfound⟩]

/-- Whether a check finds its value above its threshold. -/
def exceeds (s : Settings) (c : Counters) (check : Dimension × Side) : Bool :=
  (s.limit check.1).enabled &&
    (s.limit check.1).threshold.toNat < (check.1.value c check.2).toNat

/-- The first check that is exceeded, if traffic of the family is looked at. -/
def firstExceeded? (s : Settings) (c : Counters) (v6 : Bool) : Option (Dimension × Side) :=
  if v6 && !s.enableV6 then none else Dimension.checks.find? (s.exceeds c)

/-- The breach that is reported of a check that is exceeded. -/
def breachOf (s : Settings) (group : String) (c : Counters) (check : Dimension × Side) :
    Breach where
  group := group
  dimension := some check.1
  side := some check.2
  value := check.1.value c check.2
  threshold := (s.limit check.1).threshold
  protocol := check.1.protocol

theorem breach?_row (s : Settings) (group : String) (c : Counters) (check : Dimension × Side)
    (henabled : (s.limit check.1).enabled = true) :
    (s.row check.1).breach? group c check.2 =
      if s.exceeds c check then some (s.breachOf group c check) else none := by
  simp [Row.breach?, exceeds, breachOf, henabled]

/-- The rows of one dimension, on both sides, find the first check of it that is exceeded. -/
theorem findSome?_breach? (s : Settings) (group : String) (c : Counters) (d : Dimension) :
    (if (s.row d).limit.enabled then
        [Side.incoming, .outgoing].findSome? ((s.row d).breach? group c)
      else none) =
      ([(d, Side.incoming), (d, Side.outgoing)].find? (s.exceeds c)).map (s.breachOf group c) := by
  rw [limit_row]
  cases henabled : (s.limit d).enabled with
  | false => simp [exceeds, henabled]
  | true =>
    have hside := fun side => s.breach?_row group c (d, side) henabled
    simp only [if_true, List.findSome?_cons, List.findSome?_nil, hside, List.find?_cons,
      List.find?_nil]
    cases s.exceeds c (d, .incoming) <;> cases s.exceeds c (d, .outgoing) <;> rfl

/-- An evaluation reports the first check that is exceeded. -/
theorem evaluate_eq (s : Settings) (group : String) (c : Counters) (v6 : Bool) :
    s.evaluate group c v6 = (s.firstExceeded? c v6).map (s.breachOf group c) := by
  rw [evaluate, firstExceeded?]
  split
  · rfl
  · rw [findSome?_filter, rows_eq, List.findSome?_map, Dimension.checks, List.find?_flatMap,
      List.map_findSome?]
    exact congrArg (Dimension.priority.findSome? ·) (funext (s.findSome?_breach? group c))

end Settings

/-- What is measured of a dimension is its value. -/
theorem measure_some (c : Counters) (d : Dimension) (side : Side) :
    measure c (some d) (some side) = some (d.value c side) := by
  have hrow := ({} : Settings).find?_rows d
  rw [measure, Option.bind_eq_bind, Option.bind_some, hrow, Option.bind_eq_bind, Option.bind_some,
    Settings.value_row]

end FloodGuard

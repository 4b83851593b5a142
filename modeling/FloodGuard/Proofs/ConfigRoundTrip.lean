import FloodGuard.Proofs.AddressText
import FloodGuard.Proofs.ExactReading
import FloodGuard.Proofs.FilledForms

/-!
Writing a configuration as JSON and reading it again. A strict reader of a record takes back what
the record is written as, field by field. The main statement is that a configuration is given back
by what is written of it, as a value and as a text; what a value leaves to the defaults is written
out, and means the same.
-/
namespace FloodGuard

namespace Reader

section Members

variable {α : Type} {read : Json → Option α} {absent x : α} {members : List (String × Json)}
  {name : String} {value : Json}

theorem optional_of_mem (hnodup : (members.map Prod.fst).Nodup) (hmem : (name, value) ∈ members)
    (hread : read value = some x) : optional read absent members name = some x := by
  rw [optional_of_lookup (Json.lookup_eq_some_of_mem hnodup hmem), hread]

theorem required_of_mem (hnodup : (members.map Prod.fst).Nodup) (hmem : (name, value) ∈ members)
    (hread : read value = some x) : required read members name = some x := by
  rw [required_of_lookup (Json.lookup_eq_some_of_mem hnodup hmem), hread]

end Members

section Leaves

variable {r : Reader} (hr : r.IsStrict)

include hr

theorem natural_ofNat {bits n : Nat} (h : n < Nat.pow 2 bits) :
    r.natural bits (.ofNat n) = some n :=
  (hr.natural bits _ n).2 ⟨rfl, h⟩

theorem word64_toJson (n : UInt64) : r.word64 (toJson n) = some n := by
  have hread : r.natural 64 (toJson n) = some n.toNat := natural_ofNat hr n.toNat_lt
  rw [word64, hread]
  exact congrArg some UInt64.ofNat_toNat

theorem word32_toJson (n : UInt32) : r.word32 (toJson n) = some n := by
  have hread : r.natural 32 (toJson n) = some n.toNat := natural_ofNat hr n.toNat_lt
  rw [word32, hread]
  exact congrArg some UInt32.ofNat_toNat

theorem word16_toJson (n : UInt16) : r.word16 (toJson n) = some n := by
  have hread : r.natural 16 (toJson n) = some n.toNat := natural_ofNat hr n.toNat_lt
  rw [word16, hread]
  exact congrArg some UInt16.ofNat_toNat

theorem flag_toJson (b : Bool) : r.flag (toJson b) = some b := (hr.flag _ b).2 rfl

theorem text_toJson (s : String) : r.text (toJson s) = some s := (hr.text _ s).2 rfl

theorem enumeration_label {α : Type} [Labelled α] {x : α} (h : ofLabel? (label x) = some x) :
    r.enumeration (.str (label x)) = some x := by
  rw [enumeration, (hr.variant _ (label x)).2 (.inl rfl)]
  exact h

end Leaves

variable {α : Type} [ToJson α] {read : Json → Option α}

theorem list_toJson (xs : List α) (h : ∀ x ∈ xs, read (toJson x) = some x) :
    list read (toJson xs) = some xs :=
  Address.mapM_map_eq_some h

/-- A value that may be missing is told from null, as long as none is written as null itself. -/
theorem nullable_toJson (hnull : ∀ x : α, (toJson x : Json) ≠ .null)
    (h : ∀ x : α, read (toJson x) = some x) (o : Option α) :
    nullable read (toJson o) = some o := by
  cases o with
  | none => rfl
  | some x =>
    have hwritten : nullable read (toJson x) = (read (toJson x)).map some :=
      nullable.eq_2 read (toJson x) (hnull x)
    show nullable read (toJson x) = some (some x)
    rw [hwritten, h]
    rfl

end Reader

theorem ActionKind.ofLabel?_label (k : ActionKind) : ofLabel? (label k) = some k := by
  cases k <;> decide

theorem Settings.toJson_ne_null (s : Settings) : (toJson s : Json) ≠ .null := by
  show Json.obj _ ≠ Json.null
  exact Json.noConfusion

theorem BanPolicy.toJson_ne_null (p : BanPolicy) : (toJson p : Json) ≠ .null := nofun

section Records

open Reader

variable {r : Reader} (hr : r.IsStrict)

include hr

theorem ActionConfig.read_toJson (c : ActionConfig) : read r (toJson c) = some c := by
  have hnodup : fields.Nodup := by decide
  refine read_obj_iff.2 ⟨?_, ?_⟩
  · exact optional_of_mem hnodup List.mem_cons_self (enumeration_label hr c.kind.ofLabel?_label)
  · exact optional_of_mem hnodup (by simp) (word64_toJson hr c.rate)

theorem BanPolicy.read_toJson (p : BanPolicy) : read r (toJson p) = some p := by
  have hnodup : fields.Nodup := by decide
  refine read_obj_iff.2 ⟨?_, ?_⟩
  · exact optional_of_mem hnodup (by simp) (word64_toJson hr p.banTime)
  · exact optional_of_mem hnodup (by simp) (flag_toJson hr p.expires)

theorem Settings.read_toJson (s : Settings) : read r (toJson s) = some s := by
  have hnodup : fields.Nodup := by decide
  refine read_obj_iff.2 ⟨?_, ?_, fun d => ?_, fun d => ?_⟩
  · exact optional_of_mem hnodup List.mem_cons_self (flag_toJson hr s.enableBan)
  · refine optional_of_mem hnodup ?_ (flag_toJson hr s.enableV6)
    exact List.mem_cons_of_mem _ List.mem_cons_self
  · refine optional_of_mem hnodup ?_ (flag_toJson hr (s.limit d).enabled)
    exact List.mem_append_left _ (List.mem_append_right _ (List.mem_map_of_mem d.mem_flagOrder))
  · refine optional_of_mem hnodup ?_ (word32_toJson hr (s.limit d).threshold)
    exact List.mem_append_right _ (List.mem_map_of_mem d.mem_thresholdOrder)

theorem ServerConfig.read_toJson (c : ServerConfig) : read r (toJson c) = some c := by
  have hnodup : fields.Nodup := by decide
  refine read_obj_iff.2 ⟨?_, ?_⟩
  · exact required_of_mem hnodup (by simp) (text_toJson hr c.host)
  · exact required_of_mem hnodup (by simp) (word16_toJson hr c.port)

theorem DetectionConfig.read_toJson (c : DetectionConfig) : read r (toJson c) = some c := by
  have hnodup : fields.Nodup := by decide
  refine read_obj_iff.2 ⟨?_, ?_, ?_, ?_, ?_, ?_⟩
  · exact optional_of_mem hnodup (by simp) (word64_toJson hr c.evaluationInterval)
  · exact optional_of_mem hnodup (by simp) (word64_toJson hr c.sweepInterval)
  · exact optional_of_mem hnodup (by simp) (word64_toJson hr c.inactivity)
  · exact optional_of_mem hnodup (by simp) (word64_toJson hr c.banTime)
  · exact optional_of_mem hnodup (by simp) (flag_toJson hr c.expires)
  · exact optional_of_mem hnodup (by simp) (c.action.read_toJson hr)

theorem GroupConfig.read_toJson (c : GroupConfig) : read r (toJson c) = some c := by
  have hnodup : fields.Nodup := by decide
  refine read_obj_iff.2 ⟨?_, ?_, ?_, ?_, ?_⟩
  · exact required_of_mem hnodup (by simp) (text_toJson hr c.name)
  · exact optional_of_mem hnodup (by simp) (nullable_toJson nofun (text_toJson hr) c.parent)
  · exact optional_of_mem hnodup (by simp) (list_toJson c.networks fun s _ => text_toJson hr s)
  · have hsettings := nullable_toJson Settings.toJson_ne_null (Settings.read_toJson hr) c.settings
    exact optional_of_mem hnodup (by simp) hsettings
  · have hpolicy := nullable_toJson BanPolicy.toJson_ne_null (BanPolicy.read_toJson hr) c.policy
    exact optional_of_mem hnodup (by simp) hpolicy

theorem LoggingConfig.read_toJson (c : LoggingConfig) : read r (toJson c) = some c := by
  have hnodup : fields.Nodup := by decide
  exact read_obj_iff.2 (required_of_mem hnodup (by simp) (text_toJson hr c.level))

theorem Config.read_toJson (c : Config) : read r (toJson c) = some c := by
  have hnodup : fields.Nodup := by decide
  refine read_obj_iff.2 ⟨?_, ?_, ?_, ?_, ?_, ?_⟩
  · exact optional_of_mem hnodup (by simp) (c.server.read_toJson hr)
  · exact optional_of_mem hnodup (by simp) (c.detection.read_toJson hr)
  · exact optional_of_mem hnodup (by simp) (c.settings.read_toJson hr)
  · exact optional_of_mem hnodup (by simp) (list_toJson c.networks fun s _ => text_toJson hr s)
  · exact optional_of_mem hnodup (by simp) (list_toJson c.groups fun g _ => g.read_toJson hr)
  · exact optional_of_mem hnodup (by simp) (c.logging.read_toJson hr)

end Records

/-- A configuration that is written and read again is the same, as a value and as a text. What was
read from some value, with defaults for what the value leaves out, is written with every setting
and read as before, so that the same settings, groups and intervals are in effect. -/
theorem Config.json_round_trip {r : Reader} {format : Json.TextFormat} (hr : r.IsStrict)
    (hformat : format.Documented) :
    (∀ c : Config, read r (toJson c) = some c ∧
      (format.read? (format.write (toJson c))).bind (read r) = some c ∧
      form.Filled Json.nestingLimit (toJson c)) ∧
    ∀ value : Json, (read r value).bind (fun c => read r (toJson c)) = read r value ∧
      ∀ c again, read r value = some c → read r (toJson c) = some again →
        Policies.ofConfig again = Policies.ofConfig c ∧
        (∀ name, again.allGroups name = c.allGroups name) ∧
        Intervals.ofConfig again = Intervals.ofConfig c := by
  refine ⟨fun c => ⟨c.read_toJson hr, ?_, ?_⟩, fun value => ⟨?_, ?_⟩⟩
  · rw [hformat.read_write _ (c.filled_toJson 123).writable]
    exact c.read_toJson hr
  · exact c.filled_toJson 123
  · cases read r value with
    | none => rfl
    | some c => exact c.read_toJson hr
  · intro c again _ hagain
    obtain rfl : c = again := Option.some.inj ((c.read_toJson hr).symm.trans hagain)
    exact ⟨rfl, fun _ => rfl, rfl⟩

/-- A part of the settings is read, written with all of them and read again from its text. -/
theorem Config.json_round_trip_of_ban_time :
    let value : Json := .obj [("detection", .obj [("ban_time", .int 600)])]
    let c : Config := { detection.banTime := 600 }
    Reader.strict.IsStrict ∧ Json.TextFormat.plain.Documented ∧ read .strict value = some c ∧
      read .strict (toJson c) = some c ∧
      (Json.parse? (toJson c : Json).text).bind (read .strict) = some c := by
  intro value c
  obtain ⟨hwritten, hread⟩ :=
    json_round_trip Reader.strict_isStrict Json.TextFormat.plain_documented
  have hvalue : read .strict value = some c := by decide
  obtain ⟨hagain, -⟩ := hread value
  rw [hvalue] at hagain
  exact ⟨Reader.strict_isStrict, Json.TextFormat.plain_documented, hvalue, hagain,
    (hwritten c).2.1⟩

end FloodGuard

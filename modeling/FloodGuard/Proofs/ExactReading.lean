import FloodGuard.Proofs.RecordReading

/-!
What other readers make of a value that a strict reader reads. A form says which tables a part of a
configuration may hold and where: a value that has the form of a part gives its tables as objects
with known names only, its alternatives as strings and its numbers with at most 63 bits. The main
statement is that every reader that takes a value of the right kind for what it is reads such a
value as a strict one does.
-/
namespace FloodGuard

/-- Whether a reader takes strings, flags and whole numbers of at most 63 bits for what they are. -/
structure Reader.Exact (r : Reader) : Prop where
  natural : ∀ bits n : Nat, n < Nat.pow 2 63 → n < Nat.pow 2 bits →
    r.natural bits (.int n) = some n
  flag : ∀ b, r.flag (.bool b) = some b
  text : ∀ s, r.text (.str s) = some s
  variant : ∀ s, r.variant (.str s) = some s

/-- Whether a reader takes nothing but values of the right kind: whole numbers that are not too
large for numbers, and a name or an object whose only member is null for an alternative. -/
structure Reader.IsStrict (r : Reader) : Prop where
  natural : ∀ bits value n, r.natural bits value = some n ↔ value = .int n ∧ n < Nat.pow 2 bits
  flag : ∀ value b, r.flag value = some b ↔ value = .bool b
  text : ∀ value s, r.text value = some s ↔ value = .str s
  variant : ∀ value s, r.variant value = some s ↔ value = .str s ∨ value = .obj [(s, .null)]

theorem Reader.IsStrict.exact {r : Reader} (hr : r.IsStrict) : r.Exact where
  natural := fun bits n _ hbits => (hr.natural bits _ n).2 ⟨rfl, hbits⟩
  flag := fun b => (hr.flag _ b).2 rfl
  text := fun s => (hr.text _ s).2 rfl
  variant := fun s => (hr.variant _ s).2 (.inl rfl)

theorem Reader.strict_isStrict : strict.IsStrict where
  natural := by
    intro bits value n
    constructor
    · intro hread
      cases value with
      | int whole =>
        obtain ⟨⟨hsign, hbits⟩, hn⟩ := Option.ite_none_right_eq_some.1 hread
        obtain rfl := Option.some.inj hn
        exact ⟨congrArg Json.int (Int.toNat_of_nonneg hsign).symm, hbits⟩
      | _ => exact absurd hread nofun
    · rintro ⟨rfl, hbits⟩
      exact if_pos ⟨Int.natCast_nonneg n, hbits⟩
  flag := by
    intro value b
    cases value <;> simp [strict, strictFlag]
  text := by
    intro value s
    cases value <;> simp [strict, strictText]
  variant := by
    intro value s
    show strictVariant value = some s ↔ _
    unfold strictVariant
    split <;> simp_all

/-- The form of a part of a configuration. -/
inductive Form where
  /-- A string, a flag or a whole number. -/
  | leaf
  | list (item : Form)
  /-- A part that may be null. -/
  | optional (part : Form)
  | table (fields : List (String × Form))

/-- The form of a table without tables or lists in it. -/
def Form.flat (names : List String) : Form := .table (names.map fun name => (name, .leaf))

theorem Form.mem_flat {names : List String} {name : String} (h : name ∈ names) :
    (name, Form.leaf) ∈ names.map fun name => (name, Form.leaf) :=
  List.mem_map_of_mem h

/-- Whether a value has a form. -/
inductive Form.Fits : Form → Json → Prop
  | text (s : String) : Fits .leaf (.str s)
  | flag (b : Bool) : Fits .leaf (.bool b)
  | whole {n : Int} (hsize : n < Nat.pow 2 63) : Fits .leaf (.int n)
  | missing (part : Form) : Fits (.optional part) .null
  | present {part : Form} {value : Json} (hpart : Fits part value) : Fits (.optional part) value
  | list {item : Form} {items : List Json} (hitems : ∀ value ∈ items, Fits item value) :
      Fits (.list item) (.arr items)
  | table {fields : List (String × Form)} {members : List (String × Json)}
      (hknown : ∀ member ∈ members, member.1 ∈ fields.map Prod.fst)
      (hfields : ∀ member ∈ members, ∀ field ∈ fields, field.1 = member.1 →
        Fits field.2 member.2) :
      Fits (.table fields) (.obj members)

namespace Form

@[simp]
theorem fits_table_iff {fields : List (String × Form)} {members : List (String × Json)} :
    (table fields).Fits (.obj members) ↔
      (∀ member ∈ members, member.1 ∈ fields.map Prod.fst) ∧
        ∀ member ∈ members, ∀ field ∈ fields, field.1 = member.1 → field.2.Fits member.2 := by
  constructor
  · rintro (_ | _)
    exact ⟨by assumption, by assumption⟩
  · rintro ⟨hknown, hfields⟩
    exact .table hknown hfields

@[simp]
theorem fits_flat_iff {names : List String} {members : List (String × Json)} :
    (flat names).Fits (.obj members) ↔
      ∀ member ∈ members, member.1 ∈ names ∧ leaf.Fits member.2 := by
  simp only [flat, fits_table_iff, List.map_map, List.mem_map, Function.comp_def, exists_eq_right]
  constructor
  · rintro ⟨hknown, hfields⟩ member hmember
    have hname := hknown member hmember
    exact ⟨hname, hfields member hmember _ ⟨_, hname, rfl⟩ rfl⟩
  · intro h
    refine ⟨fun member hmember => (h member hmember).1, ?_⟩
    rintro member hmember _ ⟨name, -, rfl⟩ -
    exact (h member hmember).2

@[simp]
theorem fits_text (s : String) : leaf.Fits (.str s) := .text s

@[simp]
theorem fits_flag (b : Bool) : leaf.Fits (.bool b) := .flag b

@[simp]
theorem fits_whole_iff {n : Int} : leaf.Fits (.int n) ↔ n < Nat.pow 2 63 := by
  constructor
  · rintro (_ | _)
    assumption
  · exact .whole

@[simp]
theorem fits_list_iff {item : Form} {items : List Json} :
    (list item).Fits (.arr items) ↔ ∀ value ∈ items, item.Fits value := by
  constructor
  · rintro (_ | _)
    assumption
  · exact .list

end Form

/-- Whether two readers read all values of a form alike, where the first one reads them at all. -/
def Form.Alike {α : Type} (form : Form) (read other : Json → Option α) : Prop :=
  ∀ value x, form.Fits value → read value = some x → other value = some x

namespace Form.Fits

variable {fields : List (String × Form)} {members : List (String × Json)} {value : Json}

theorem eq_obj (h : (Form.table fields).Fits value) : ∃ members, value = .obj members := by
  cases h
  exact ⟨_, rfl⟩

theorem of_lookup {field : String × Form} (h : (Form.table fields).Fits (.obj members))
    (hfield : field ∈ fields) (hlookup : Json.lookup field.1 members = some value) :
    field.2.Fits value := by
  cases h with
  | table hknown hfields => exact hfields _ (Json.mem_of_lookup hlookup) field hfield rfl

variable {α : Type} {read other : Json → Option α} {absent x : α} {name : String} {form : Form}

theorem optional_alike (h : (Form.table fields).Fits (.obj members))
    (hfield : (name, form) ∈ fields) (halike : form.Alike read other)
    (hread : Reader.optional read absent members name = some x) :
    Reader.optional other absent members name = some x := by
  cases hlookup : Json.lookup name members with
  | none =>
    rw [Reader.optional_of_missing hlookup] at hread ⊢
    exact hread
  | some value =>
    rw [Reader.optional_of_lookup hlookup] at hread ⊢
    exact halike value x (h.of_lookup hfield hlookup) hread

theorem required_alike (h : (Form.table fields).Fits (.obj members))
    (hfield : (name, form) ∈ fields) (halike : form.Alike read other)
    (hread : Reader.required read members name = some x) :
    Reader.required other members name = some x := by
  obtain ⟨value, hlookup, hvalue⟩ := Reader.required_eq_some_iff.1 hread
  exact Reader.required_eq_some_iff.2
    ⟨value, hlookup, halike value x (h.of_lookup hfield hlookup) hvalue⟩

end Form.Fits

namespace Form.Alike

open Reader

section Combined

variable {α β : Type} {form : Form} {read other : Json → Option α} (h : form.Alike read other)

include h

theorem map (f : α → β) :
    form.Alike (fun value => (read value).map f) (fun value => (other value).map f) := by
  intro value x hfits hread
  obtain ⟨y, hy, rfl⟩ := Option.map_eq_some_iff.1 hread
  exact Option.map_eq_some_iff.2 ⟨y, h value y hfits hy, rfl⟩

theorem bind (f : α → Option β) :
    form.Alike (fun value => (read value).bind f) (fun value => (other value).bind f) := by
  intro value x hfits hread
  obtain ⟨y, hy, hx⟩ := Option.bind_eq_some_iff.1 hread
  exact Option.bind_eq_some_iff.2 ⟨y, h value y hfits hy, hx⟩

theorem nullable : (Form.optional form).Alike (Reader.nullable read) (Reader.nullable other) := by
  intro value x hfits hread
  by_cases hnull : value = .null
  · subst hnull
    exact hread
  · cases hfits with
    | missing => exact absurd rfl hnull
    | present hpart =>
      rw [Reader.nullable.eq_2 _ _ hnull] at hread ⊢
      exact h.map some value x hpart hread

theorem list : (Form.list form).Alike (Reader.list read) (Reader.list other) := by
  intro value xs hfits hread
  cases hfits with
  | list hitems =>
    rename_i items
    change items.mapM read = some xs at hread
    show items.mapM other = some xs
    induction items generalizing xs with
    | nil => exact hread
    | cons item rest ih =>
      obtain ⟨hitem, hrest⟩ := List.forall_mem_cons.1 hitems
      rw [List.mapM_cons] at hread ⊢
      obtain ⟨x, hx, hread⟩ := Option.bind_eq_some_iff.1 hread
      obtain ⟨others, hothers, hxs⟩ := Option.bind_eq_some_iff.1 hread
      exact Option.bind_eq_some_iff.2
        ⟨x, h item x hitem hx, Option.bind_eq_some_iff.2 ⟨others, ih others hrest hothers, hxs⟩⟩

end Combined

section Leaves

variable {direct r : Reader} (hdirect : direct.IsStrict) (hr : r.Exact)

include hdirect hr

theorem natural (bits : Nat) : leaf.Alike (direct.natural bits) (r.natural bits) := by
  intro value n hfits hread
  obtain ⟨rfl, hbits⟩ := (hdirect.natural bits value n).1 hread
  exact hr.natural bits n (Int.ofNat_lt.1 (fits_whole_iff.1 hfits)) hbits

theorem word64 : leaf.Alike direct.word64 r.word64 := (natural hdirect hr 64).map UInt64.ofNat

theorem word32 : leaf.Alike direct.word32 r.word32 := (natural hdirect hr 32).map UInt32.ofNat

theorem word16 : leaf.Alike direct.word16 r.word16 := (natural hdirect hr 16).map UInt16.ofNat

theorem flag : leaf.Alike direct.flag r.flag := by
  intro value b _ hread
  obtain rfl := (hdirect.flag value b).1 hread
  exact hr.flag b

theorem text : leaf.Alike direct.text r.text := by
  intro value s _ hread
  obtain rfl := (hdirect.text value s).1 hread
  exact hr.text s

theorem variant : leaf.Alike direct.variant r.variant := by
  intro value s hfits hread
  rcases (hdirect.variant value s).1 hread with rfl | rfl
  · exact hr.variant s
  · cases hfits

theorem enumeration {α : Type} [Labelled α] :
    leaf.Alike (direct.enumeration (α := α)) r.enumeration := (variant hdirect hr).bind ofLabel?

end Leaves

end Form.Alike

/-! The forms of the parts of a configuration. -/

def ActionConfig.form : Form := .flat fields

def BanPolicy.form : Form := .flat fields

def Settings.form : Form := .flat fields

def ServerConfig.form : Form := .flat fields

def LoggingConfig.form : Form := .flat fields

def DetectionConfig.form : Form :=
  .table [("evaluation_interval_seconds", .leaf), ("gc_interval_seconds", .leaf),
    ("conntrack_inactivity_seconds", .leaf), ("ban_time", .leaf), ("unban_enabled", .leaf),
    ("flow_spec_action", ActionConfig.form)]

def GroupConfig.form : Form :=
  .table [("name", .leaf), ("parent", .optional .leaf), ("networks", .list .leaf),
    ("ban_settings", .optional Settings.form), ("ban_policy", .optional BanPolicy.form)]

def Config.form : Form :=
  .table [("server", ServerConfig.form), ("detection", DetectionConfig.form),
    ("ban_settings", Settings.form), ("networks", .list .leaf),
    ("host_groups", .list GroupConfig.form), ("logging", LoggingConfig.form)]

section Records

open Form Form.Alike

variable {direct r : Reader} (hdirect : direct.IsStrict) (hr : r.Exact)

include hdirect hr

theorem ActionConfig.alike : form.Alike (read direct) (read r) := by
  intro value c hfits hread
  obtain ⟨members, rfl⟩ := hfits.eq_obj
  have h := read_obj_iff.1 hread
  refine read_obj_iff.2 ⟨?_, ?_⟩
  · exact hfits.optional_alike (mem_flat (by simp [fields])) (enumeration hdirect hr) h.kind
  · exact hfits.optional_alike (mem_flat (by simp [fields])) (word64 hdirect hr) h.rate

theorem BanPolicy.alike : form.Alike (read direct) (read r) := by
  intro value p hfits hread
  obtain ⟨members, rfl⟩ := hfits.eq_obj
  have h := read_obj_iff.1 hread
  refine read_obj_iff.2 ⟨?_, ?_⟩
  · exact hfits.optional_alike (mem_flat (by simp [fields])) (word64 hdirect hr) h.banTime
  · exact hfits.optional_alike (mem_flat (by simp [fields])) (flag hdirect hr) h.expires

theorem Settings.alike : form.Alike (read direct) (read r) := by
  intro value s hfits hread
  obtain ⟨members, rfl⟩ := hfits.eq_obj
  have h := read_obj_iff.1 hread
  refine read_obj_iff.2 ⟨?_, ?_, fun d => ?_, fun d => ?_⟩
  · exact hfits.optional_alike (mem_flat enableBan_mem_fields) (flag hdirect hr) h.enableBan
  · exact hfits.optional_alike (mem_flat enableV6_mem_fields) (flag hdirect hr) h.enableV6
  · exact hfits.optional_alike (mem_flat (flagField_mem_fields d)) (flag hdirect hr) (h.enabled d)
  · exact hfits.optional_alike (mem_flat (thresholdField_mem_fields d)) (word32 hdirect hr)
      (h.threshold d)

theorem ServerConfig.alike : form.Alike (read direct) (read r) := by
  intro value c hfits hread
  obtain ⟨members, rfl⟩ := hfits.eq_obj
  have h := read_obj_iff.1 hread
  refine read_obj_iff.2 ⟨?_, ?_⟩
  · exact hfits.required_alike (mem_flat (by simp [fields])) (text hdirect hr) h.host
  · exact hfits.required_alike (mem_flat (by simp [fields])) (word16 hdirect hr) h.port

theorem LoggingConfig.alike : form.Alike (read direct) (read r) := by
  intro value c hfits hread
  obtain ⟨members, rfl⟩ := hfits.eq_obj
  have h := read_obj_iff.1 hread
  exact read_obj_iff.2 (hfits.required_alike (mem_flat (by simp [fields])) (text hdirect hr) h)

theorem DetectionConfig.alike : form.Alike (read direct) (read r) := by
  intro value c hfits hread
  obtain ⟨members, rfl⟩ := hfits.eq_obj
  have h := read_obj_iff.1 hread
  refine read_obj_iff.2 ⟨?_, ?_, ?_, ?_, ?_, ?_⟩
  · exact hfits.optional_alike (by simp) (word64 hdirect hr) h.evaluationInterval
  · exact hfits.optional_alike (by simp) (word64 hdirect hr) h.sweepInterval
  · exact hfits.optional_alike (by simp) (word64 hdirect hr) h.inactivity
  · exact hfits.optional_alike (by simp) (word64 hdirect hr) h.banTime
  · exact hfits.optional_alike (by simp) (flag hdirect hr) h.expires
  · exact hfits.optional_alike (by simp) (ActionConfig.alike hdirect hr) h.action

theorem GroupConfig.alike : form.Alike (read direct) (read r) := by
  intro value c hfits hread
  obtain ⟨members, rfl⟩ := hfits.eq_obj
  have h := read_obj_iff.1 hread
  refine read_obj_iff.2 ⟨?_, ?_, ?_, ?_, ?_⟩
  · exact hfits.required_alike (by simp) (text hdirect hr) h.name
  · exact hfits.optional_alike (by simp) (text hdirect hr).nullable h.parent
  · exact hfits.optional_alike (by simp) (text hdirect hr).list h.networks
  · exact hfits.optional_alike (by simp) (Settings.alike hdirect hr).nullable h.settings
  · exact hfits.optional_alike (by simp) (BanPolicy.alike hdirect hr).nullable h.policy

/-- A configuration in its form is read by such a reader as a strict one reads it. -/
theorem Config.alike : form.Alike (read direct) (read r) := by
  intro value c hfits hread
  obtain ⟨members, rfl⟩ := hfits.eq_obj
  have h := read_obj_iff.1 hread
  refine read_obj_iff.2 ⟨?_, ?_, ?_, ?_, ?_, ?_⟩
  · exact hfits.optional_alike (by simp) (ServerConfig.alike hdirect hr) h.server
  · exact hfits.optional_alike (by simp) (DetectionConfig.alike hdirect hr) h.detection
  · exact hfits.optional_alike (by simp) (Settings.alike hdirect hr) h.settings
  · exact hfits.optional_alike (by simp) (text hdirect hr).list h.networks
  · exact hfits.optional_alike (by simp) (GroupConfig.alike hdirect hr).list h.groups
  · exact hfits.optional_alike (by simp) (LoggingConfig.alike hdirect hr) h.logging

end Records

end FloodGuard

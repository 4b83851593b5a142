import FloodGuard.Proofs.JsonText
import FloodGuard.Proofs.ExactReading

/-!
Forms that are filled. A value fills a form if it gives every field of every table in it, so that
nothing is left to the defaults. Records are written that way, and what is written that way can be
read from its text.
-/
namespace FloodGuard

/-- Whether a value gives all fields of a form, in at most so many levels of tables and lists. -/
inductive Form.Filled : Nat → Form → Json → Prop
  | text (levels : Nat) (s : String) : Filled levels .leaf (.str s)
  | flag (levels : Nat) (b : Bool) : Filled levels .leaf (.bool b)
  | whole (levels : Nat) {n : Int} (hfits : Json.Fits64 n) : Filled levels .leaf (.int n)
  | missing (levels : Nat) (part : Form) : Filled levels (.optional part) .null
  | present {levels : Nat} {part : Form} {value : Json} (hpart : Filled levels part value) :
      Filled levels (.optional part) value
  | list {levels : Nat} {item : Form} {items : List Json}
      (hitems : ∀ value ∈ items, Filled levels item value) :
      Filled (levels + 1) (.list item) (.arr items)
  | table {levels : Nat} {fields : List (String × Form)} {members : List (String × Json)}
      (hnames : members.map Prod.fst = fields.map Prod.fst)
      (hdistinct : (fields.map Prod.fst).Nodup)
      (hfields : ∀ member ∈ members, ∀ field ∈ fields, field.1 = member.1 →
        Filled levels field.2 member.2) :
      Filled (levels + 1) (.table fields) (.obj members)

namespace Form.Filled

theorem flat {levels : Nat} {names : List String} {members : List (String × Json)}
    (hnames : members.map Prod.fst = names) (hdistinct : names.Nodup)
    (hmembers : ∀ member ∈ members, Form.leaf.Filled levels member.2) :
    (Form.flat names).Filled (levels + 1) (.obj members) := by
  have hfields : (names.map fun name => (name, Form.leaf)).map Prod.fst = names := by
    rw [List.map_map]
    exact List.map_id names
  refine .table (hnames.trans hfields.symm) (hfields.symm ▸ hdistinct) ?_
  intro member hmember field hfield _
  obtain ⟨name, -, rfl⟩ := List.mem_map.1 hfield
  exact hmembers member hmember

/-- What fills a form can be read from its text. -/
theorem writable {levels : Nat} {form : Form} {value : Json} (h : form.Filled levels value) :
    value.Writable levels := by
  induction h with
  | text levels s => exact .str levels s
  | flag levels b => exact .bool levels b
  | whole levels hfits => exact .int levels hfits
  | missing levels part => exact .null levels
  | present _ ih => exact ih
  | list _ ih => exact .arr ih
  | table hnames hdistinct _ ih =>
    refine .obj (hnames ▸ hdistinct) ?_
    intro member hmember
    have hname : member.1 ∈ _ := hnames ▸ List.mem_map_of_mem hmember
    obtain ⟨field, hfield, heq⟩ := List.mem_map.1 hname
    exact ih member hmember field hfield heq

section Values

variable {levels : Nat} {form : Form}

theorem number {n : Nat} (h : n < UInt64.size) : Form.leaf.Filled levels (.ofNat n) := by
  have hsize : UInt64.size = 18446744073709551616 := rfl
  exact .whole levels ⟨by omega, by omega⟩

theorem word64 (n : UInt64) : Form.leaf.Filled levels (toJson n) := number n.toNat_lt

theorem word32 (n : UInt32) : Form.leaf.Filled levels (toJson n) :=
  number (Nat.lt_trans n.toNat_lt (by decide))

theorem word16 (n : UInt16) : Form.leaf.Filled levels (toJson n) :=
  number (Nat.lt_trans n.toNat_lt (by decide))

theorem ofOption {α : Type} [ToJson α] (h : ∀ x : α, form.Filled levels (toJson x))
    (o : Option α) : (Form.optional form).Filled levels (toJson o) := by
  cases o with
  | none => exact .missing levels form
  | some x => exact .present (h x)

theorem ofList {α : Type} [ToJson α] (h : ∀ x : α, form.Filled levels (toJson x)) (xs : List α) :
    (Form.list form).Filled (levels + 1) (toJson xs) := by
  refine .list fun value hvalue => ?_
  obtain ⟨x, -, rfl⟩ := List.mem_map.1 hvalue
  exact h x

end Values

end Form.Filled

open Form.Filled

section Records

variable (levels : Nat)

theorem ActionConfig.filled_toJson (c : ActionConfig) : form.Filled (levels + 1) (toJson c) := by
  refine flat rfl (by decide) (List.forall_mem_cons.2 ⟨?_, List.forall_mem_singleton.2 ?_⟩)
  · exact .text levels (label c.kind)
  · exact word64 c.rate

theorem BanPolicy.filled_toJson (p : BanPolicy) : form.Filled (levels + 1) (toJson p) := by
  refine flat rfl (by decide) (List.forall_mem_cons.2 ⟨?_, List.forall_mem_singleton.2 ?_⟩)
  · exact word64 p.banTime
  · exact .flag levels p.expires

theorem Settings.filled_toJson (s : Settings) : form.Filled (levels + 1) (toJson s) := by
  refine flat rfl (by decide) (List.forall_mem_append.2 ⟨List.forall_mem_append.2 ⟨?_, ?_⟩, ?_⟩)
  · exact List.forall_mem_cons.2
      ⟨.flag levels s.enableBan, List.forall_mem_singleton.2 (.flag levels s.enableV6)⟩
  · intro member hmember
    obtain ⟨d, -, rfl⟩ := List.mem_map.1 hmember
    exact .flag levels (s.limit d).enabled
  · intro member hmember
    obtain ⟨d, -, rfl⟩ := List.mem_map.1 hmember
    exact word32 (s.limit d).threshold

theorem ServerConfig.filled_toJson (c : ServerConfig) : form.Filled (levels + 1) (toJson c) := by
  refine flat rfl (by decide) (List.forall_mem_cons.2 ⟨?_, List.forall_mem_singleton.2 ?_⟩)
  · exact .text levels c.host
  · exact word16 c.port

theorem LoggingConfig.filled_toJson (c : LoggingConfig) : form.Filled (levels + 1) (toJson c) :=
  flat rfl (by decide) (List.forall_mem_singleton.2 (.text levels c.level))

theorem DetectionConfig.filled_toJson (c : DetectionConfig) :
    form.Filled (levels + 2) (toJson c) := by
  refine .table rfl (by decide) ?_
  simp only [List.mem_cons, List.not_mem_nil, or_false, forall_eq_or_imp, forall_eq, forall_const,
    String.reduceEq, false_implies, and_self, and_true, true_and]
  refine ⟨word64 _, word64 _, word64 _, word64 _, .flag _ c.expires, ?_⟩
  exact c.action.filled_toJson levels

theorem GroupConfig.filled_toJson (c : GroupConfig) : form.Filled (levels + 2) (toJson c) := by
  refine .table rfl (by decide) ?_
  simp only [List.mem_cons, List.not_mem_nil, or_false, forall_eq_or_imp, forall_eq, forall_const,
    String.reduceEq, false_implies, and_self, and_true, true_and]
  refine ⟨.text _ c.name, ofOption (.text _) c.parent, ofList (.text _) c.networks, ?_, ?_⟩
  · exact ofOption (Settings.filled_toJson levels) c.settings
  · exact ofOption (BanPolicy.filled_toJson levels) c.policy

/-- A configuration is written with every setting of every section. -/
theorem Config.filled_toJson (c : Config) : form.Filled (levels + 4) (toJson c) := by
  refine .table rfl (by decide) ?_
  simp only [List.mem_cons, List.not_mem_nil, or_false, forall_eq_or_imp, forall_eq, forall_const,
    String.reduceEq, false_implies, and_self, and_true, true_and]
  refine ⟨c.server.filled_toJson _, c.detection.filled_toJson _, c.settings.filled_toJson _, ?_, ?_,
    c.logging.filled_toJson _⟩
  · exact ofList (.text _) c.networks
  · exact ofList (GroupConfig.filled_toJson _) c.groups

end Records

end FloodGuard

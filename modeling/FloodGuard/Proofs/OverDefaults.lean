import FloodGuard.Proofs.DocumentedLibrary

/-!
The tree of the defaults, and a configuration put over it. The defaults of the library are those
that a missing setting has anyway, so that a configuration in its form is read over them as it is
read alone, whichever settings it leaves out.
-/
namespace FloodGuard

open Json

/-- Whether all values of a form are read alike alone and put over another value. -/
def Form.SameOver {α : Type} (form : Form) (read : Json → Option α) (under : Option Json) : Prop :=
  ∀ value x result, form.Fits value → read value = some x → PutOver value under result →
    read result = some x

namespace Form.SameOver

variable {α : Type} {read : Json → Option α}

theorem leaf (under : Option Json) : Form.leaf.SameOver read under := by
  rintro value x result (_ | _ | _ | _) hread hresult <;>
    rwa [hresult.eq_of_leaf (by simp)]

theorem list (item : Form) (under : Option Json) : (Form.list item).SameOver read under := by
  intro value x result hfits hread hresult
  cases hfits
  rwa [hresult.eq_of_leaf (by simp)]

theorem none (form : Form) : form.SameOver read none := by
  intro value x result _ hread hresult
  rwa [hresult.eq_of_none]

end Form.SameOver

section Merged

variable {α : Type} {read : Json → Option α} {absent x : α} {name : String} {form : Form}
  {fields : List (String × Form)} {members base result : List (String × Json)}
  (hfits : (Form.table fields).Fits (.obj members)) (hmerges : Merges members base result)
  (hfield : (name, form) ∈ fields) (hsame : form.SameOver read (lookup name base))

include hfits hmerges hfield hsame

end Merged

/-! The defaults by their sections. -/

def ServerConfig.defaults : List (String × Json) :=
  [("host", .str "127.0.0.1"), ("port", .int 8080)]

def DetectionConfig.defaults : List (String × Json) :=
  [("evaluation_interval_seconds", .int 1), ("gc_interval_seconds", .int 30),
    ("conntrack_inactivity_seconds", .int 120), ("ban_time", .int 1900),
    ("unban_enabled", .bool true)]

def LoggingConfig.defaults : List (String × Json) := [("level", .str "info")]

namespace Config

/-- Whether a member is a table with the members of another. -/
def HasTable (members : List (String × Json)) (part : String) (table : List (String × Json)) :
    Prop :=
  ∃ found, lookup part members = some (.obj found) ∧
    ∀ name, lookup name found = lookup name table

/-- Whether a table has the defaults and nothing else. -/
structure OfDefaults (members : List (String × Json)) : Prop where
  server : HasTable members "server" ServerConfig.defaults
  detection : HasTable members "detection" DetectionConfig.defaults
  logging : HasTable members "logging" LoggingConfig.defaults
  other : ∀ part ∉ ["server", "detection", "logging"], lookup part members = none

/-- The defaults with the section and the name of each. -/
def sectioned : List (String × String × Json) :=
  ServerConfig.defaults.map ("server", ·) ++ DetectionConfig.defaults.map ("detection", ·) ++
    LoggingConfig.defaults.map ("logging", ·)

theorem defaults_eq :
    defaults = sectioned.map fun setting => (keyOf [setting.1, setting.2.1], setting.2.2) := by
  rfl

theorem places_defaults : List.Forall₂ Places defaults
    (sectioned.map fun setting => nested [setting.1, setting.2.1] setting.2.2) := by
  have hnames : ∀ setting ∈ sectioned, IsName setting.1 ∧ IsName setting.2.1 := by decide
  have hvalues : ∀ setting ∈ sectioned, setting.2.2.Distinct := by
    simp only [sectioned, ServerConfig.defaults, DetectionConfig.defaults, LoggingConfig.defaults,
      List.map_cons, List.map_nil, List.cons_append, List.nil_append, List.forall_mem_cons]
    exact ⟨.str _, .int _, .int _, .int _, .int _, .int _, .bool _, .str _, by simp⟩
  rw [defaults_eq, List.forall₂_map_left_iff, List.forall₂_map_right_iff, List.forall₂_same]
  intro setting hsetting
  obtain ⟨hpart, hname⟩ := hnames setting hsetting
  exact ⟨[setting.1, setting.2.1], List.cons_ne_nil _ _,
    List.forall_mem_cons.2 ⟨hpart, List.forall_mem_singleton.2 hname⟩, rfl,
    hvalues setting hsetting, rfl⟩

/-- Put over nothing, the defaults give a table of them. -/
theorem ofDefaults_of_layers {tree : Json}
    (h : Layers (.obj [])
      (sectioned.map fun setting => nested [setting.1, setting.2.1] setting.2.2) tree) :
    ∃ members, tree = .obj members ∧ OfDefaults members := by
  have hleaf : ∀ setting ∈ sectioned, ∀ members, setting.2.2 ≠ .obj members := by
    simp [sectioned, ServerConfig.defaults, DetectionConfig.defaults, LoggingConfig.defaults]
  obtain ⟨members, rfl, hkept, htables, hfound⟩ := h.of_parts hleaf
  have hsection : ∀ part ∈ sectioned.map Prod.fst,
      HasTable members part ((sectioned.filter (·.1 = part)).map Prod.snd) := by
    intro part hpart
    obtain ⟨table, htable⟩ := htables part hpart
    refine ⟨table, htable, fun name => ?_⟩
    have hname := hfound part name
    rw [htable] at hname
    exact hname.trans (Option.or_none)
  have hparts : ∀ part, part ∈ sectioned.map Prod.fst →
      part ∈ ["server", "detection", "logging"] := by decide
  exact ⟨members, rfl, hsection "server" (by decide), hsection "detection" (by decide),
    hsection "logging" (by decide),
    fun part hpart => hkept part fun hmem => hpart (hparts part hmem)⟩

end Config

/-! A configuration over the defaults. -/

section Congruence

variable {members other : List (String × Json)}
  (h : ∀ name, lookup name members = lookup name other)

include h

end Congruence

section Sections

variable {r : Reader}

variable (hr : r.Exact)

include hr

end Sections

end FloodGuard

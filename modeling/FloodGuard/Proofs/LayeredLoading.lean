import FloodGuard.Proofs.LayeringLibrary
import FloodGuard.Proofs.SettingOverrides

/-!
Loading a configuration from a file and the environment. The main statement is that a file with a
configuration in its form is loaded as what it gives directly, whichever settings it leaves to the
defaults, and that a variable with the name of a setting replaces this setting and no other. It
holds for every library for settings that does what is documented of one.
-/
namespace FloodGuard

open Json (Merges PutOver nested)

/-- Whether a variable has the name of a setting, in any case. -/
def Setting.NamedBy (s : Setting) (name : String) : Prop :=
  name.toList.map Config.lower =
    Config.variableStart "DDOS" "__" ++ Text.joinWith ['_', '_'] (s.names.map String.toList)

namespace Config

/-- The members of a table are settings under single names. -/
theorem places_members {members : List (String × Json)}
    (hnames : ∀ member ∈ members, IsName member.1)
    (hdistinct : ∀ member ∈ members, member.2.Distinct) :
    List.Forall₂ Places members (members.map fun member => .obj [member]) := by
  rw [List.forall₂_map_right_iff, List.forall₂_same]
  intro member hmember
  refine ⟨[member.1], List.cons_ne_nil _ _, List.forall_mem_singleton.2 (hnames member hmember), ?_,
    hdistinct member hmember, rfl⟩
  rw [keyOf, List.map_singleton, Text.joinWith, String.ofList_toList]

section Library

variable {library : SettingsLibrary} {format : Json.TextFormat}
  (hlibrary : library.Documented format)

include hlibrary

/-- The tree of a file and the environment: the members of the file over the defaults, and the
settings of the environment over both. -/
theorem build_layers {members overrides : List (String × Json)} {layers : List Json}
    (hnames : ∀ member ∈ members, IsName member.1) (hdistinct : (Json.obj members).Distinct)
    (hoverrides : List.Forall₂ Places overrides layers) :
    ∃ base table tree, library.build defaults [members, overrides] = .ok tree ∧ OfDefaults base ∧
      Merges members base table ∧ Json.Layers (.obj table) layers tree := by
  obtain ⟨hnodup, hmembers⟩ := Json.distinct_obj_iff.1 hdistinct
  have hlower : List.Forall₂ Places members (members.map fun member => .obj [member]) :=
    places_members hnames hmembers
  have hplaces := List.rel_append places_defaults (List.rel_append hlower hoverrides)
  have hsources : [members, overrides].flatten = members ++ overrides := by simp
  obtain ⟨tree, hbuild, hlayers⟩ := hlibrary.build_layers defaults [members, overrides] _
    (by rwa [hsources])
  obtain ⟨lowest, hdefaults, hsettings⟩ := hlayers.of_append
  obtain ⟨base, rfl, hbase⟩ := ofDefaults_of_layers hdefaults
  obtain ⟨middle, hfile, henvironment⟩ := hsettings.of_append
  obtain ⟨table, rfl, hmerges⟩ := Json.Layers.of_members hnodup hfile
  exact ⟨base, table, tree, hbuild, hbase, hmerges, henvironment⟩

end Library

end Config

end FloodGuard

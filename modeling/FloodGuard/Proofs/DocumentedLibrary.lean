import FloodGuard.Proofs.ExactReading
import FloodGuard.Proofs.JsonText
import FloodGuard.Proofs.LayeredTables
import FloodGuard.Proofs.SettingPaths
import Mathlib.Data.List.Forall2

/-!
What a library for settings is relied on for. It takes the members of a JSON object for the settings
of a file and finds the key of a setting in the name of a variable; a key is a path of names between
dots. It puts the defaults and then one source after the other over each other, table by table. It
takes values of the right kind for what they are, and converts texts.
-/
namespace FloodGuard

open Text

/-- Whether a reader also takes decimal digits for numbers, and the words for yes and no, in any
case, for flags. -/
structure Reader.Converts (r : Reader) : Prop extends r.Exact where
  number : ∀ (bits n : Nat) (s : String), bits ≤ 64 →
    Numeral.bounded? (Nat.pow 2 bits - 1) s.toList = some n → r.natural bits (.str s) = some n
  affirmed : ∀ s : String, s.toLower ∈ ["1", "true", "on", "yes"] → r.flag (.str s) = some true
  denied : ∀ s : String, s.toLower ∈ ["0", "false", "off", "no"] → r.flag (.str s) = some false

namespace Config

/-- The key of the setting at the end of a path. -/
def keyOf (names : List String) : String :=
  String.ofList (joinWith ['.'] (names.map String.toList))

/-- Whether a layer is a setting at its place, alone in its tables. -/
def Places (setting : String × Json) (layer : Json) : Prop :=
  ∃ names : List String, names ≠ [] ∧ (∀ name ∈ names, IsName name) ∧ setting.1 = keyOf names ∧
    setting.2.Distinct ∧ layer = Json.nested names setting.2

/-- What is documented of a library for settings, given how JSON is read. -/
structure SettingsLibrary.Documented (library : SettingsLibrary) (format : Json.TextFormat) :
    Prop where
  /-- The settings of a JSON file are the members of its object. -/
  json_file : ∀ text members, format.read? text = some (.obj members) →
    library.fileSettings .json text = some members
  /-- A variable is for the setting whose path its name has behind the start, with the separator
  between the names and in any case. -/
  variable_of_path : ∀ (start name : String) (names : List String), names ≠ [] →
    (∀ part ∈ names, IsName part) →
    name.toList.map lower =
      variableStart start "__" ++ joinWith ['_', '_'] (names.map String.toList) →
    library.variableKey start "__" name = some (keyOf names)
  /-- A variable whose name starts in another way is for no setting. -/
  variable_of_other : ∀ start separator name : String,
    (variableStart start separator).isPrefixOf (name.toList.map lower) = false →
    library.variableKey start separator name = none
  /-- The defaults are put down first and the sources over them in their order, table by table. -/
  build_layers : ∀ defaults sources layers,
    List.Forall₂ Places (defaults ++ sources.flatten) layers →
    ∃ tree, library.build defaults sources = .ok tree ∧ Json.Layers (.obj []) layers tree
  converts : library.reader.Converts

end Config

end FloodGuard

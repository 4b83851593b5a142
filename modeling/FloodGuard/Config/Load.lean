import FloodGuard.Config.Encoding
import FloodGuard.Config.Toml
import FloodGuard.Json.Text

/-!
Loading the configuration. Defaults, a file and the environment are handed to a library for
settings, which puts them over each other in this order, setting by setting, and reads what comes
out. A variable names a setting by its path, with two underscores between the names. What the
library does is a parameter; one that does it is given below.
-/
namespace FloodGuard.Config

inductive FileFormat where
  | json
  | toml
deriving DecidableEq, Repr

/-- Why no configuration could be loaded. -/
inductive LoadError where
  | fileMissing
  | fileMalformed
  | settingMismatch
deriving DecidableEq, Repr

/-- The settings that have a value in the first place. -/
def defaults : List (String × Json) :=
  [("server.host", .str "127.0.0.1"), ("server.port", .int 8080),
    ("detection.evaluation_interval_seconds", .int 1), ("detection.gc_interval_seconds", .int 30),
    ("detection.conntrack_inactivity_seconds", .int 120), ("detection.ban_time", .int 1900),
    ("detection.unban_enabled", .bool true), ("logging.level", .str "info")]

/-- A library that collects settings from sources, builds a tree of them and reads it. -/
structure SettingsLibrary where
  /-- The settings in a file by their keys, if the file is well formed. -/
  fileSettings : FileFormat → String → Option (List (String × Json))
  /-- The key of the setting that a variable is for, given what the names of variables start with
  and what stands between the names of a path. -/
  variableKey : (start separator name : String) → Option String
  /-- The tree of the defaults and of the settings of the sources. -/
  build : (defaults : List (String × Json)) → (sources : List (List (String × Json))) →
    Except LoadError Json
  /-- How the values in the tree are read. -/
  reader : Reader

/-- The settings of the environment. -/
def SettingsLibrary.environmentSettings (library : SettingsLibrary) (start separator : String)
    (environment : List (String × String)) : List (String × Json) :=
  environment.filterMap fun (name, value) =>
    (library.variableKey start separator name).map fun key => (key, .str value)

/-- The Kelvin sign is the only letter outside ASCII with a lower case in ASCII. -/
def lower (c : Char) : Char := if c = '\u212A' then 'k' else c.toLower

/-- The text with a dot for every separator, after so many signs that belong to one. -/
def dotted (separator : List Char) : (skipped : Nat) → List Char → List Char
  | _, [] => []
  | skipped + 1, _ :: rest => dotted separator skipped rest
  | 0, c :: rest =>
    if separator ≠ [] ∧ separator.isPrefixOf (c :: rest) then
      '.' :: dotted separator (separator.length - 1) rest
    else c :: dotted separator 0 rest

/-- What the names of variables start with, in lower case. -/
def variableStart (start separator : String) : List Char :=
  (start.toList ++ separator.toList).map lower

/-- The key of the setting that a variable is for, if its name starts as it has to, in any case. -/
def keyOf? (start separator name : String) : Option String :=
  let start := variableStart start separator
  let name := name.toList.map lower
  if start.isPrefixOf name then
    some (String.ofList (dotted separator.toList 0 (name.drop start.length)))
  else none

/-- A tree with settings put over it. -/
def overlaySettings (tree : Json) (settings : List (String × Json)) : Json :=
  settings.foldl (fun tree setting => assign setting.2 (path setting.1) tree) tree

/-- The text of a file without the mark of its byte order in front. -/
def unmarked (text : String) : String :=
  match text.toList with
  | '\uFEFF' :: rest => String.ofList rest
  | _ => text

/-- The settings of a file. A file that holds no table has none. -/
def settingsOf? (format : FileFormat) (text : String) : Option (List (String × Json)) :=
  match format with
  | .json => (Json.parse? (unmarked text)).map membersOf
  | .toml => (Toml.parse? (unmarked text)).map membersOf

/-- The library that puts one setting after the other at its place and reads leniently. -/
def SettingsLibrary.layering : SettingsLibrary where
  fileSettings := settingsOf?
  variableKey := keyOf?
  build := fun defaults sources => .ok (overlaySettings (.obj []) (defaults ++ sources.flatten))
  reader := .lenient

/-- Loads the configuration from a file, if there is one, and the environment. -/
def load (format : FileFormat) (text : Option String) (environment : List (String × String))
    (library : SettingsLibrary := .layering) : Except LoadError Config := do
  let text ← text.elim (.error .fileMissing) .ok
  let file ← (library.fileSettings format text).elim (.error .fileMalformed) .ok
  let overrides := library.environmentSettings "DDOS" "__" environment
  let tree ← library.build defaults [file, overrides]
  (read library.reader tree).elim (.error .settingMismatch) .ok

end FloodGuard.Config

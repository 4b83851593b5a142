import FloodGuard.Config
import FloodGuard.HostGroup.Table

/-!
Filling the table of host groups from the configuration. A text that is no network is skipped and
reported; everything else is loaded in the order of the configuration.
-/
namespace FloodGuard

structure LoadReport where
  /-- The number of networks that were loaded, repeated ones included. -/
  inserted : Nat := 0
  /-- The texts that are no networks, with the reason. -/
  rejected : List (String × NetworkError) := []
deriving DecidableEq, Repr

namespace GroupTable

/-- A table that is being filled, with the report so far. -/
structure Loading where
  table : GroupTable := {}
  report : LoadReport := {}

def Loading.addNetwork (group : String) (l : Loading) (text : String) : Loading :=
  match l.table.assignText text group with
  | (.ok _, table) => { table, report := { l.report with inserted := l.report.inserted + 1 } }
  | (.error reason, table) =>
    { table, report := { l.report with rejected := l.report.rejected ++ [(text, reason)] } }

def Loading.addGroup (l : Loading) (group : GroupConfig) : Loading :=
  let table := match group.parent with
    | some parent => l.table.setParent group.name parent
    | none => l.table
  group.networks.foldl (Loading.addNetwork group.name) { l with table }

def load (groups : List GroupConfig) : GroupTable × LoadReport :=
  let loaded := groups.foldl Loading.addGroup {}
  (loaded.table, loaded.report)

end GroupTable

end FloodGuard

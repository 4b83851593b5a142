import FloodGuard.Ban.Policy
import FloodGuard.Detection.Settings
import FloodGuard.FlowSpec.Action
import Std.Data.ExtTreeMap

/-!
The configuration: the server, the detection, the networks to be monitored and their groups.
Networks outside any group belong to a global group, which comes first so that the other groups win
where networks are listed twice. A group without settings or a policy of its own takes the global
ones.
-/
namespace FloodGuard

structure ServerConfig where
  host : String := "127.0.0.1"
  port : UInt16 := 8080
deriving DecidableEq, Repr

structure DetectionConfig where
  /-- The seconds between two evaluations. -/
  evaluationInterval : UInt64 := 1
  /-- The seconds between two sweeps of the session table. -/
  sweepInterval : UInt64 := 30
  /-- The seconds after which an idle session is dropped. -/
  inactivity : UInt64 := 120
  banTime : UInt64 := 1900
  expires : Bool := true
  action : ActionConfig := {}
deriving DecidableEq, Repr

def DetectionConfig.policy (c : DetectionConfig) : BanPolicy := ⟨c.banTime, c.expires⟩

/-- A named set of networks. -/
structure GroupConfig where
  name : String
  parent : Option String := none
  networks : List String := []
  settings : Option Settings := none
  policy : Option BanPolicy := none
deriving DecidableEq, Repr

structure LoggingConfig where
  level : String := "info"
deriving DecidableEq, Repr

structure Config where
  server : ServerConfig := {}
  detection : DetectionConfig := {}
  settings : Settings := {}
  networks : List String := []
  groups : List GroupConfig := []
  logging : LoggingConfig := {}
deriving DecidableEq, Repr

/-- The group of networks that are configured outside any group. -/
def globalGroup : String := "global"

/-- All groups, with a group for the networks outside any in front if there are such networks. -/
def Config.allGroups (c : Config) (globalName : String) : List GroupConfig :=
  if c.networks.isEmpty then c.groups
  else { name := globalName, networks := c.networks } :: c.groups

/-- The settings and policies in effect: the global ones, and those of the groups that have their
own. -/
structure Policies where
  settings : Settings := {}
  policy : BanPolicy := {}
  groupSettings : Std.ExtTreeMap String Settings := ∅
  groupPolicies : Std.ExtTreeMap String BanPolicy := ∅

namespace Policies

/-- What the groups have of their own, after a group that may have something. -/
def own {α : Type} (parts : Std.ExtTreeMap String α) (group : String) (part : Option α) :
    Std.ExtTreeMap String α :=
  match part with
  | some x => parts.insert group x
  | none => parts

def addGroup (p : Policies) (group : GroupConfig) : Policies :=
  { p with
    groupSettings := own p.groupSettings group.name group.settings
    groupPolicies := own p.groupPolicies group.name group.policy }

def ofConfig (c : Config) : Policies :=
  c.groups.foldl addGroup { settings := c.settings, policy := c.detection.policy }

def settingsFor (p : Policies) (group : String) : Settings :=
  p.groupSettings[group]?.getD p.settings

def policyFor (p : Policies) (group : String) : BanPolicy :=
  p.groupPolicies[group]?.getD p.policy

end Policies

/-- How often the background work is done, in seconds and never less than one. -/
structure Intervals where
  evaluation : UInt64
  sweep : UInt64
  inactivity : UInt64
deriving DecidableEq, Repr

def Intervals.ofConfig (c : Config) : Intervals where
  evaluation := max c.detection.evaluationInterval 1
  sweep := max c.detection.sweepInterval 1
  inactivity := c.detection.inactivity

end FloodGuard

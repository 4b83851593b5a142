import FloodGuard.Config
import FloodGuard.Detection.Encoding

/-!
The configuration as JSON. Missing sections and settings have their defaults when they are read,
except that a group has a name and that a server or a logging section is complete.
-/
namespace FloodGuard

namespace ServerConfig

instance : ToJson ServerConfig where
  toJson c := .obj [("host", toJson c.host), ("port", toJson c.port)]

def fields : List String := ["host", "port"]

def read (r : Reader) (value : Json) : Option ServerConfig := do
  let members ← r.record fields value
  some
    { host := ← Reader.required r.text members "host"
      port := ← Reader.required r.word16 members "port" }

end ServerConfig

namespace DetectionConfig

instance : ToJson DetectionConfig where
  toJson c := .obj
    [("evaluation_interval_seconds", toJson c.evaluationInterval),
      ("gc_interval_seconds", toJson c.sweepInterval),
      ("conntrack_inactivity_seconds", toJson c.inactivity),
      ("ban_time", toJson c.banTime),
      ("unban_enabled", toJson c.expires),
      ("flow_spec_action", toJson c.action)]

def fields : List String :=
  ["evaluation_interval_seconds", "gc_interval_seconds", "conntrack_inactivity_seconds", "ban_time",
    "unban_enabled", "flow_spec_action"]

def read (r : Reader) (value : Json) : Option DetectionConfig := do
  let members ← r.record fields value
  some
    { evaluationInterval := ← Reader.optional r.word64 1 members "evaluation_interval_seconds"
      sweepInterval := ← Reader.optional r.word64 30 members "gc_interval_seconds"
      inactivity := ← Reader.optional r.word64 120 members "conntrack_inactivity_seconds"
      banTime := ← Reader.optional r.word64 1900 members "ban_time"
      expires := ← Reader.optional r.flag true members "unban_enabled"
      action := ← Reader.optional (ActionConfig.read r) {} members "flow_spec_action" }

end DetectionConfig

namespace GroupConfig

instance : ToJson GroupConfig where
  toJson c := .obj
    [("name", toJson c.name), ("parent", toJson c.parent), ("networks", toJson c.networks),
      ("ban_settings", toJson c.settings), ("ban_policy", toJson c.policy)]

def fields : List String := ["name", "parent", "networks", "ban_settings", "ban_policy"]

def read (r : Reader) (value : Json) : Option GroupConfig := do
  let members ← r.record fields value
  some
    { name := ← Reader.required r.text members "name"
      parent := ← Reader.optional (Reader.nullable r.text) none members "parent"
      networks := ← Reader.optional (Reader.list r.text) [] members "networks"
      settings := ←
        Reader.optional (Reader.nullable (Settings.read r)) none members "ban_settings"
      policy := ← Reader.optional (Reader.nullable (BanPolicy.read r)) none members "ban_policy" }

end GroupConfig

namespace LoggingConfig

instance : ToJson LoggingConfig where
  toJson c := .obj [("level", toJson c.level)]

def fields : List String := ["level"]

def read (r : Reader) (value : Json) : Option LoggingConfig := do
  let members ← r.record fields value
  some { level := ← Reader.required r.text members "level" }

end LoggingConfig

namespace Config

instance : ToJson Config where
  toJson c := .obj
    [("server", toJson c.server), ("detection", toJson c.detection),
      ("ban_settings", toJson c.settings), ("networks", toJson c.networks),
      ("host_groups", toJson c.groups), ("logging", toJson c.logging)]

def fields : List String :=
  ["server", "detection", "ban_settings", "networks", "host_groups", "logging"]

def read (r : Reader) (value : Json) : Option Config := do
  let members ← r.record fields value
  some
    { server := ← Reader.optional (ServerConfig.read r) {} members "server"
      detection := ← Reader.optional (DetectionConfig.read r) {} members "detection"
      settings := ← Reader.optional (Settings.read r) {} members "ban_settings"
      networks := ← Reader.optional (Reader.list r.text) [] members "networks"
      groups := ← Reader.optional (Reader.list (GroupConfig.read r)) [] members "host_groups"
      logging := ← Reader.optional (LoggingConfig.read r) {} members "logging" }

end Config

end FloodGuard

import FloodGuard.Detection.Settings
import FloodGuard.Traffic.Encoding

/-!
Detection settings and breaches as JSON. Every dimension has two fields of its own, one that puts
its threshold in force and one for the threshold itself; a missing field leaves the dimension as it
is by default.
-/
namespace FloodGuard

/-- What the field names of a portion begin with. -/
def Portion.stem : Portion → String
  | .all => ""
  | .tcp => "tcp_"
  | .udp => "udp_"
  | .icmp => "icmp_"
  | .tcpSyn => "tcp_syn_"

namespace Dimension

/-- The field that puts the threshold of a dimension in force. -/
def flagField : Dimension → String
  | .packets portion => "enable_ban_for_" ++ portion.stem ++ "pps"
  | .bandwidth portion => "enable_ban_for_" ++ portion.stem ++ "bandwidth"
  | .flows => "enable_ban_for_flows_per_second"

/-- The field for the threshold of a dimension. -/
def thresholdField : Dimension → String
  | .packets portion => "ban_threshold_" ++ portion.stem ++ "pps"
  | .bandwidth portion => "ban_threshold_" ++ portion.stem ++ "mbps"
  | .flows => "ban_threshold_flows"

/-- The dimensions in the order of their flags. -/
def flagOrder : List Dimension :=
  [.packets .all, .bandwidth .all, .flows, .packets .tcp, .bandwidth .tcp, .packets .udp,
    .bandwidth .udp, .packets .icmp, .bandwidth .icmp, .packets .tcpSyn, .bandwidth .tcpSyn]

/-- The dimensions in the order of their thresholds. -/
def thresholdOrder : List Dimension :=
  [.bandwidth .tcp, .packets .tcp, .bandwidth .udp, .packets .udp, .bandwidth .icmp,
    .packets .icmp, .bandwidth .tcpSyn, .packets .tcpSyn, .bandwidth .all, .flows, .packets .all]

end Dimension

namespace Settings

instance : ToJson Settings where
  toJson s := .obj (
    [("enable_ban", .bool s.enableBan), ("enable_ban_ipv6", .bool s.enableV6)] ++
    Dimension.flagOrder.map (fun d => (d.flagField, .bool (s.limit d).enabled)) ++
    Dimension.thresholdOrder.map (fun d => (d.thresholdField, toJson (s.limit d).threshold)))

def fields : List String :=
  ["enable_ban", "enable_ban_ipv6"] ++ Dimension.flagOrder.map Dimension.flagField ++
    Dimension.thresholdOrder.map Dimension.thresholdField

def readLimit (r : Reader) (members : List (String × Json)) (d : Dimension) : Option Limit := do
  some
    { enabled := ← Reader.optional r.flag false members d.flagField
      threshold := ← Reader.optional r.word32 0 members d.thresholdField }

def readLimits (r : Reader) (members : List (String × Json)) (dimension : Portion → Dimension) :
    Option (PerPortion Limit) := do
  some
    { all := ← readLimit r members (dimension .all)
      tcp := ← readLimit r members (dimension .tcp)
      udp := ← readLimit r members (dimension .udp)
      icmp := ← readLimit r members (dimension .icmp)
      tcpSyn := ← readLimit r members (dimension .tcpSyn) }

def read (r : Reader) (value : Json) : Option Settings := do
  let members ← r.record fields value
  some
    { enableBan := ← Reader.optional r.flag false members "enable_ban"
      enableV6 := ← Reader.optional r.flag false members "enable_ban_ipv6"
      packets := ← readLimits r members .packets
      bandwidth := ← readLimits r members .bandwidth
      flows := ← readLimit r members .flows }

end Settings

instance : ToJson Breach where
  toJson b := .obj [("host_group", toJson b.group), ("threshold_type", .ofLabel b.dimension),
    ("detection_direction", .ofLabel b.side), ("value", toJson b.value),
    ("threshold", toJson b.threshold), ("protocol", toJson b.protocol)]

end FloodGuard

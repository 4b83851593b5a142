import FloodGuard.Json.Reader
import FloodGuard.Network.Text
import FloodGuard.Traffic.Ranking
import FloodGuard.Traffic.Totals

/-!
Networks, enumerations and traffic measurements as JSON. All fields of a measurement are required
when it is read.
-/
namespace FloodGuard

/-- A value of an enumeration as its label. -/
def Json.ofLabel {α : Type} [Labelled α] (x : α) : Json := .str (label x)

instance : ToJson Network := ⟨fun n => .str n.text⟩

/-- A network as its text. -/
def Network.read (r : Reader) (value : Json) : Option Network := do
  (Network.parse (← r.text value)).toOption

namespace Volume

instance : ToJson Volume where
  toJson v := .obj [("in_bytes", toJson v.inBytes), ("out_bytes", toJson v.outBytes),
    ("in_packets", toJson v.inPackets), ("out_packets", toJson v.outPackets)]

def fields : List String := ["in_bytes", "out_bytes", "in_packets", "out_packets"]

def read (r : Reader) (value : Json) : Option Volume := do
  let members ← r.record fields value
  some
    { inBytes := ← Reader.required r.word64 members "in_bytes"
      outBytes := ← Reader.required r.word64 members "out_bytes"
      inPackets := ← Reader.required r.word64 members "in_packets"
      outPackets := ← Reader.required r.word64 members "out_packets" }

end Volume

namespace Counters

instance : ToJson Counters where
  toJson c := .obj [("total", toJson c.total), ("fragmented", toJson c.fragmented),
    ("tcp", toJson c.tcp), ("tcp_syn", toJson c.tcpSyn), ("udp", toJson c.udp),
    ("icmp", toJson c.icmp), ("in_flows", toJson c.inFlows), ("out_flows", toJson c.outFlows)]

def fields : List String :=
  ["total", "fragmented", "tcp", "tcp_syn", "udp", "icmp", "in_flows", "out_flows"]

def read (r : Reader) (value : Json) : Option Counters := do
  let members ← r.record fields value
  some
    { total := ← Reader.required (Volume.read r) members "total"
      fragmented := ← Reader.required (Volume.read r) members "fragmented"
      tcp := ← Reader.required (Volume.read r) members "tcp"
      tcpSyn := ← Reader.required (Volume.read r) members "tcp_syn"
      udp := ← Reader.required (Volume.read r) members "udp"
      icmp := ← Reader.required (Volume.read r) members "icmp"
      inFlows := ← Reader.required r.word64 members "in_flows"
      outFlows := ← Reader.required r.word64 members "out_flows" }

end Counters

namespace Tally

instance : ToJson Tally where
  toJson t := .obj [("bytes", toJson t.bytes), ("packets", toJson t.packets),
    ("flows", toJson t.flows)]

def fields : List String := ["bytes", "packets", "flows"]

def read (r : Reader) (value : Json) : Option Tally := do
  let members ← r.record fields value
  some
    { bytes := ← Reader.required r.word64 members "bytes"
      packets := ← Reader.required r.word64 members "packets"
      flows := ← Reader.required r.word64 members "flows" }

end Tally

namespace Totals

instance {α : Type} [ToJson α] : ToJson (PerDirection α) := ⟨fun p => toJson p.toList⟩

instance : ToJson Totals where
  toJson t := .obj [("total_counters", toJson t.total), ("total_speed_counters", toJson t.speed),
    ("total_speed_average_counters", toJson t.average)]

def fields : List String :=
  ["total_counters", "total_speed_counters", "total_speed_average_counters"]

/-- One tally for every direction, in the order of the slots. -/
def readTallies (r : Reader) (value : Json) : Option (PerDirection Tally) := do
  PerDirection.ofList? (← Reader.list (Tally.read r) value)

def read (r : Reader) (value : Json) : Option Totals := do
  let members ← r.record fields value
  some
    { total := ← Reader.required (readTallies r) members "total_counters"
      speed := ← Reader.required (readTallies r) members "total_speed_counters"
      average := ← Reader.required (readTallies r) members "total_speed_average_counters" }

end Totals

end FloodGuard

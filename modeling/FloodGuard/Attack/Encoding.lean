import FloodGuard.Attack
import FloodGuard.Calendar
import FloodGuard.Detection.Encoding

/-!
An attack as JSON: all fields of the record, and what follows from them.
-/
namespace FloodGuard

instance : ToJson Uuid := ⟨fun u => .str u.text⟩

namespace Attack

/-- The time of detection as a text. Times beyond the signed range count backwards. -/
def startText? (a : Attack) : Option String := Calendar.text? a.startedAt.toBitVec.toInt

instance : ToJson Attack where
  toJson a := .obj
    [("traffic", toJson a.traffic),
      ("host_group", toJson a.group),
      ("parent_host_group", toJson a.parentGroup),
      ("attack_direction", .ofLabel a.direction),
      ("attack_power", toJson a.power),
      ("max_attack_power", toJson a.peak),
      ("attack_protocol", toJson a.protocol),
      ("average_in_bytes", toJson a.averages.volume.inBytes),
      ("average_out_bytes", toJson a.averages.volume.outBytes),
      ("average_in_packets", toJson a.averages.volume.inPackets),
      ("average_out_packets", toJson a.averages.volume.outPackets),
      ("average_in_flows", toJson a.averages.inFlows),
      ("average_out_flows", toJson a.averages.outFlows),
      ("ban_timestamp", toJson a.startedAt),
      ("unban_enabled", toJson a.expires),
      ("ban_time", toJson a.banTime),
      ("ipv6", toJson a.isV6),
      ("customer_network", toJson a.customerNetwork),
      ("attack_detection_source", .ofLabel a.source),
      ("attack_uuid", toJson a.uuid),
      ("attack_severity", .ofLabel a.severity),
      ("attack_detection_threshold", .ofLabel a.dimension),
      ("attack_detection_direction", .ofLabel a.side),
      ("amplification_attack_type", .ofLabel a.reflector),
      ("mitigation_announced", toJson a.announced),
      ("attack_type", .str (Flood.name a.classify)),
      ("protocol_version", .str a.family.name),
      ("ban_started_at", toJson a.startText?)]

end Attack

end FloodGuard

import FloodGuard.Attack

/-!
The report on an attack: one line for each fact, a name, a value and the unit of the value.
-/
namespace FloodGuard.Attack

/-- The name and the value of a line. -/
def line (name value : String) : String := name ++ ": " ++ value ++ "\n"

def packetsLine (name : String) (n : UInt64) : String :=
  line name (Numeral.decimal n.toNat ++ " packets per second")

def trafficLine (name : String) (bytes : UInt64) : String :=
  line name (Numeral.decimal (megabits bytes).toNat ++ " mbps")

def flowsLine (name : String) (n : UInt64) : String :=
  line name (Numeral.decimal n.toNat ++ " flows per second")

/-- The traffic in both directions, as a whole. -/
def overview (name : String) (v : Volume) (inFlows outFlows : UInt64) : List String :=
  [trafficLine (name ++ " incoming traffic") v.inBytes,
    trafficLine (name ++ " outgoing traffic") v.outBytes,
    packetsLine (name ++ " incoming pps") v.inPackets,
    packetsLine (name ++ " outgoing pps") v.outPackets,
    flowsLine (name ++ " incoming flows") inFlows,
    flowsLine (name ++ " outgoing flows") outFlows]

/-- The traffic of one portion in both directions. -/
def breakdown (name : String) (v : Volume) : List String :=
  [trafficLine ("Incoming " ++ name ++ " traffic") v.inBytes,
    trafficLine ("Outgoing " ++ name ++ " traffic") v.outBytes,
    packetsLine ("Incoming " ++ name ++ " pps") v.inPackets,
    packetsLine ("Outgoing " ++ name ++ " pps") v.outPackets]

def reportLines (a : Attack) : List String :=
  [line "Attack type" (Flood.name a.classify),
    packetsLine "Initial attack power" a.power,
    packetsLine "Peak attack power" a.peak,
    line "Attack direction" (label a.direction),
    line "Attack protocol" (Protocol.name a.protocol)] ++
  overview "Total" a.traffic.total a.traffic.inFlows a.traffic.outFlows ++
  overview "Average" a.averages.volume a.averages.inFlows a.averages.outFlows ++
  breakdown "ip fragmented" a.traffic.fragmented ++
  breakdown "tcp" a.traffic.tcp ++
  breakdown "syn tcp" a.traffic.tcpSyn ++
  breakdown "udp" a.traffic.udp ++
  breakdown "icmp" a.traffic.icmp

def report (a : Attack) : String := String.join a.reportLines

end FloodGuard.Attack

import FloodGuard.Proofs.DocumentedLibrary

/-!
Single settings. A setting with a single value has names that lead to it, texts that stand for its
values and its place in a configuration. These settings are all that the form of a configuration has
outside of lists, and a reader that converts texts reads a text as the value that it stands for.
-/
namespace FloodGuard

/-- A kind of single values. -/
inductive Scalar where
  | text
  | flag
  | word16
  | word32
  | word64
  | kind
deriving DecidableEq, Repr

namespace Scalar

def Value : Scalar → Type
  | .text => String
  | .flag => Bool
  | .word16 => UInt16
  | .word32 => UInt32
  | .word64 => UInt64
  | .kind => ActionKind

/-- What a reader makes of a value of a kind. -/
def read (r : Reader) : (k : Scalar) → Json → Option k.Value
  | .text => r.text
  | .flag => r.flag
  | .word16 => r.word16
  | .word32 => r.word32
  | .word64 => r.word64
  | .kind => (r.enumeration : Json → Option ActionKind)

end Scalar

def PerPortion.set {α : Type} (p : PerPortion α) : Portion → α → PerPortion α
  | .all, x => { p with all := x }
  | .tcp, x => { p with tcp := x }
  | .udp, x => { p with udp := x }
  | .icmp, x => { p with icmp := x }
  | .tcpSyn, x => { p with tcpSyn := x }

def Settings.setLimit (s : Settings) : Dimension → Limit → Settings
  | .packets portion, l => { s with packets := s.packets.set portion l }
  | .bandwidth portion, l => { s with bandwidth := s.bandwidth.set portion l }
  | .flows, l => { s with flows := l }

namespace Form

end Form

/-- A setting with a single value. -/
inductive Setting where
  | host
  | port
  | evaluationInterval
  | sweepInterval
  | inactivity
  | banTime
  | expires
  | actionKind
  | actionRate
  | enableBan
  | enableV6
  | enabled (d : Dimension)
  | threshold (d : Dimension)
  | level
deriving DecidableEq, Repr

namespace Setting

/-- The names that lead to a setting. -/
def names : Setting → List String
  | .host => ["server", "host"]
  | .port => ["server", "port"]
  | .evaluationInterval => ["detection", "evaluation_interval_seconds"]
  | .sweepInterval => ["detection", "gc_interval_seconds"]
  | .inactivity => ["detection", "conntrack_inactivity_seconds"]
  | .banTime => ["detection", "ban_time"]
  | .expires => ["detection", "unban_enabled"]
  | .actionKind => ["detection", "flow_spec_action", "kind"]
  | .actionRate => ["detection", "flow_spec_action", "rate"]
  | .enableBan => ["ban_settings", "enable_ban"]
  | .enableV6 => ["ban_settings", "enable_ban_ipv6"]
  | .enabled d => ["ban_settings", d.flagField]
  | .threshold d => ["ban_settings", d.thresholdField]
  | .level => ["logging", "level"]

def scalar : Setting → Scalar
  | .host | .level => .text
  | .port => .word16
  | .evaluationInterval | .sweepInterval | .inactivity | .banTime | .actionRate => .word64
  | .expires | .enableBan | .enableV6 | .enabled _ => .flag
  | .actionKind => .kind
  | .threshold _ => .word32

/-- A configuration with one setting replaced. -/
def put (c : Config) : (s : Setting) → s.scalar.Value → Config
  | .host, x => { c with server.host := x }
  | .port, x => { c with server.port := x }
  | .evaluationInterval, x => { c with detection.evaluationInterval := x }
  | .sweepInterval, x => { c with detection.sweepInterval := x }
  | .inactivity, x => { c with detection.inactivity := x }
  | .banTime, x => { c with detection.banTime := x }
  | .expires, x => { c with detection.expires := x }
  | .actionKind, x => { c with detection.action.kind := x }
  | .actionRate, x => { c with detection.action.rate := x }
  | .enableBan, x => { c with settings.enableBan := x }
  | .enableV6, x => { c with settings.enableV6 := x }
  | .enabled d, x =>
    { c with settings := c.settings.setLimit d { c.settings.limit d with enabled := x } }
  | .threshold d, x =>
    { c with settings := c.settings.setLimit d { c.settings.limit d with threshold := x } }
  | .level, x => { c with logging.level := x }

end Setting

end FloodGuard

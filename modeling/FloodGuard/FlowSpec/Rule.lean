import FloodGuard.Attack
import FloodGuard.FlowSpec.Action
import FloodGuard.Network.Text

/-!
Rules for traffic: what a packet has to match, and what is done with it. The text of a rule lists
its conditions in a fixed order and leaves out those that do not restrict anything.
-/
namespace FloodGuard

inductive Transport where
  | tcp
  | udp
  | icmp
deriving DecidableEq, Repr

instance : Labelled Transport where
  all := [.tcp, .udp, .icmp]
  label
    | .tcp => "tcp"
    | .udp => "udp"
    | .icmp => "icmp"

/-- The transport with a protocol number, if a rule can name it. -/
def Transport.ofProtocol? (protocol : UInt8) : Option Transport :=
  if protocol = Protocol.tcp then some .tcp
  else if protocol = Protocol.udp then some .udp
  else if protocol = Protocol.icmp then some .icmp
  else none

inductive Fragmentation where
  | dontFragment
  | isFragment
  | firstFragment
  | lastFragment
  | notAFragment
deriving DecidableEq, Repr

instance : Labelled Fragmentation where
  all := [.dontFragment, .isFragment, .firstFragment, .lastFragment, .notAFragment]
  label
    | .dontFragment => "dont-fragment"
    | .isFragment => "is-fragment"
    | .firstFragment => "first-fragment"
    | .lastFragment => "last-fragment"
    | .notAFragment => "not-a-fragment"

/-- A rule. An empty list of conditions of one kind matches everything. -/
structure Rule where
  destination : Option Network := none
  source : Option Network := none
  protocols : List Transport := []
  sourcePorts : List UInt16 := []
  destinationPorts : List UInt16 := []
  fragmentation : List Fragmentation := []
  action : Action := .accept
deriving DecidableEq, Repr

namespace Rule

/-- The rule against an attack on an entity: the protocol of the attack, if it has one, and the port
of the reflector, if there is one, which is a port of UDP. -/
def against (entity : Network) (attack : Attack) (action : Action) : Rule :=
  let protocols := (Transport.ofProtocol? attack.protocol).toList
  match attack.reflector with
  | none => { destination := some entity, protocols, action }
  | some reflector =>
    { destination := some entity
      protocols := if .udp ∈ protocols then protocols else protocols ++ [.udp]
      sourcePorts := [reflector.port]
      action }

theorem destination_against (entity : Network) (attack : Attack) (action : Action) :
    (against entity attack action).destination = some entity := by
  unfold against
  split <;> rfl

/-- Whether the rule is for addresses of version 6, judged by its destination first. -/
def isV6 (r : Rule) : Bool :=
  match r.destination.or r.source with
  | some network => network.isV6
  | none => false

/-- A condition on one of the two networks. -/
def networkClause (keyword : String) (network : Option Network) : List (List Char) :=
  network.toList.map fun n => keyword.toList ++ ' ' :: n.text.toList ++ [';']

/-- A condition that lists what it allows. -/
def listClause (keyword : String) : List (List Char) → List (List Char)
  | [] => []
  | items => [keyword.toList ++ " [ ".toList ++ Text.joinWith [' '] items ++ " ];".toList]

def labels {α : Type} [Labelled α] (items : List α) : List (List Char) :=
  items.map fun item => (label item).toList

def ports (items : List UInt16) : List (List Char) :=
  items.map fun port => '=' :: Numeral.write 10 port.toNat

/-- The conditions in the order of the text. -/
def clauses (r : Rule) : List (List Char) :=
  networkClause "source" r.source ++ networkClause "destination" r.destination ++
    listClause "protocol" (labels r.protocols) ++
    listClause "source-port" (ports r.sourcePorts) ++
    listClause "destination-port" (ports r.destinationPorts) ++
    listClause "fragment" (labels r.fragmentation)

def matchChars (r : Rule) : List Char := Text.joinWith [' '] r.clauses

def chars (r : Rule) : List Char :=
  "match \x7b ".toList ++ r.matchChars ++ " \x7d then \x7b ".toList ++ r.action.chars ++
    " \x7d".toList

/-- The text of the conditions alone. -/
def matchText (r : Rule) : String := String.ofList r.matchChars

def text (r : Rule) : String := String.ofList r.chars

end Rule

end FloodGuard

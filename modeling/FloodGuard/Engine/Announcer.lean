import FloodGuard.Attack.Uuid
import FloodGuard.FlowSpec.Rule

/-!
The surroundings of the engine: the announcer of rules and the source of identifiers, both of which
may fail, and the order in which equals are met. The engine keeps a record of every exchange with
the announcer, with the ban that it was about.
-/
namespace FloodGuard

/-- Why the announcer did not do what it was asked for. -/
inductive MitigationError where
  | rejected (detail : String)
  | unavailable (detail : String)
deriving DecidableEq, Repr

def MitigationError.message : MitigationError → String
  | .rejected detail => "announcer rejected rule: " ++ detail
  | .unavailable detail => "announcer unavailable: " ++ detail

inductive Request where
  | announce (rule : Rule)
  | withdraw (rule : Rule)
deriving DecidableEq, Repr

def Request.rule : Request → Rule
  | .announce rule => rule
  | .withdraw rule => rule

/-- A request to the announcer, with the reason if it failed. -/
structure Exchange where
  request : Request
  failure : Option MitigationError
  /-- The attack that the destination of the rule was banned for at that moment. -/
  standing : Option Attack
deriving DecidableEq, Repr

def Exchange.succeeded (x : Exchange) : Bool := x.failure.isNone

/-- The answers of the surroundings. -/
structure World where
  /-- Why the announcer fails a request, if it does; requests are numbered from zero. -/
  reply : Nat → Request → Option MitigationError
  /-- The identifiers that are drawn, numbered from zero. -/
  draw : Nat → Except UuidError Uuid
  /-- The orders in which the reflectors behind new attacks are compared, numbered from zero. -/
  compared : Nat → ReflectorOrder := fun _ => .listed

/-- Surroundings in which the announcer never fails. -/
def World.obliging (draw : Nat → Except UuidError Uuid) : World where
  reply := fun _ _ => none
  draw := draw

end FloodGuard

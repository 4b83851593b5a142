import FloodGuard.Json.Reader
import FloodGuard.Text.Pieces

/-!
What is done with traffic that matches a rule, its text in a rule, and its configuration. A
configured rate counts only where the rate is to be limited.
-/
namespace FloodGuard

inductive Action where
  | accept
  | discard
  /-- Limits the rate to so many bytes per second. -/
  | rateLimit (rate : UInt64)
deriving DecidableEq, Repr

def Action.chars : Action → List Char
  | .accept => "accept;".toList
  | .discard => "discard;".toList
  | .rateLimit rate => "rate-limit ".toList ++ Numeral.write 10 rate.toNat ++ [';']

def Action.text (action : Action) : String := String.ofList action.chars

inductive ActionKind where
  | accept
  | discard
  | rateLimit
deriving DecidableEq, Repr

instance : Labelled ActionKind where
  all := [.accept, .discard, .rateLimit]
  label
    | .accept => "accept"
    | .discard => "discard"
    | .rateLimit => "rate-limit"

structure ActionConfig where
  kind : ActionKind := .discard
  rate : UInt64 := 0
deriving DecidableEq, Repr

namespace ActionConfig

def action (c : ActionConfig) : Action :=
  match c.kind with
  | .accept => .accept
  | .discard => .discard
  | .rateLimit => .rateLimit c.rate

instance : ToJson ActionConfig where
  toJson c := .obj [("kind", .str (label c.kind)), ("rate", toJson c.rate)]

def fields : List String := ["kind", "rate"]

def read (r : Reader) (value : Json) : Option ActionConfig := do
  let members ← r.record fields value
  some
    { kind := ← Reader.optional r.enumeration .discard members "kind"
      rate := ← Reader.optional r.word64 0 members "rate" }

end ActionConfig

end FloodGuard

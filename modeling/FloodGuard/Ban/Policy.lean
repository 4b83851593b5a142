import FloodGuard.Json.Reader

/-!
How long bans last, and whether they are lifted when their time is over.
-/
namespace FloodGuard

structure BanPolicy where
  /-- The length of a ban in seconds. -/
  banTime : UInt64 := 1900
  expires : Bool := true
deriving DecidableEq, Repr

namespace BanPolicy

instance : ToJson BanPolicy where
  toJson p := .obj [("ban_time", toJson p.banTime), ("unban_enabled", toJson p.expires)]

def fields : List String := ["ban_time", "unban_enabled"]

def read (r : Reader) (value : Json) : Option BanPolicy := do
  let members ← r.record fields value
  some
    { banTime := ← Reader.optional r.word64 1900 members "ban_time"
      expires := ← Reader.optional r.flag true members "unban_enabled" }

end BanPolicy

end FloodGuard

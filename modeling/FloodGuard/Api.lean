import FloodGuard.Api.Target
import FloodGuard.Attack.Report
import FloodGuard.Engine.Encoding

/-!
The interface of the engine for requests over HTTP. Bans can be listed, looked at and lifted;
everything else can be looked at only. A request that does not fit any resource is answered without
a body.
-/
namespace FloodGuard.Api

inductive Method where
  | get
  | delete
  | other
deriving DecidableEq, Repr

structure Response where
  status : Nat
  body : Option Json
deriving Repr

/-- What requests are answered from. -/
structure Service where
  engine : Engine
  /-- The configuration at the start. -/
  config : Config

/-- Why a request that fits a resource is refused. -/
inductive Refusal where
  | invalidAddress (text : String)
  | invalidNetwork (reason : NetworkError)
  | banNotFound (entity : Network)
  | groupNotFound (address : Address)
  | mitigation (reason : MitigationError)
deriving DecidableEq, Repr

namespace Refusal

def status : Refusal → Nat
  | .invalidAddress _ => 400
  | .invalidNetwork _ => 400
  | .banNotFound _ => 404
  | .groupNotFound _ => 404
  | .mitigation _ => 502

def message : Refusal → String
  | .invalidAddress text => "invalid address: " ++ text
  | .invalidNetwork reason => reason.message
  | .banNotFound entity => "ban for " ++ entity.text ++ " not found"
  | .groupNotFound address => "host group for " ++ address.text ++ " not found"
  | .mitigation reason => reason.message

def response (r : Refusal) : Response := ⟨r.status, some (.obj [("error", .str r.message)])⟩

end Refusal

def Response.ok (body : Json) : Response := ⟨200, some body⟩

def Response.ofExcept : Except Refusal Json → Response
  | .ok body => .ok body
  | .error refusal => refusal.response

def Response.notFound : Response := ⟨404, none⟩

def Response.methodNotAllowed : Response := ⟨405, none⟩

def Response.badQuery : Response := ⟨400, none⟩

/-- The parameters that a query gives for one name; a name must not be given twice. -/
def parameter? (query : List (String × String)) (name : String) : Option (Option String) :=
  match query.filter fun entry => entry.1 = name with
  | [] => some none
  | [entry] => some (some entry.2)
  | _ => none

/-- A parameter that has a value of its own when it is missing, and must be readable when it is
not. -/
def parameterOr? {α : Type} (query : List (String × String)) (name : String) (absent : α)
    (read : String → Option α) : Option α := do
  match ← parameter? query name with
  | none => some absent
  | some text => read text

/-- The largest number of entries that can be asked for. -/
def largestLimit : Nat := UInt64.size - 1

/-- The number of entries that an answer lists if nothing is said. -/
def defaultLimit : Nat := 10

def limit? (query : List (String × String)) : Option Nat :=
  parameterOr? query "limit" defaultLimit fun text => Numeral.bounded? largestLimit text.toList

def ranking? (query : List (String × String)) : Option Ranking := do
  some
    { field := ← parameterOr? query "sort_by" .packets ofLabel?
      direction := ← parameterOr? query "direction" .incoming ofLabel? }

def sessionKind? (query : List (String × String)) : Option SessionKind := do
  some
    { side := ← parameterOr? query "direction" .incoming ofLabel?
      protocol := ← parameterOr? query "protocol" .tcp ofLabel? }

def address (text : String) : Except Refusal Address :=
  match Address.parse? text with
  | some a => .ok a
  | none => .error (.invalidAddress text)

def entity (text : String) (length : Nat) : Except Refusal Network := do
  (Network.around (← address text) length).mapError .invalidNetwork

/-- A ban as it is listed. -/
def banJson (entry : Network × Attack) : Json :=
  .obj [("entity", toJson entry.1), ("attack", toJson entry.2), ("report", .str entry.2.report)]

def directionJson (totals : Totals) (direction : Direction) : Json :=
  .obj [("speed", toJson (totals.speed.get direction)),
    ("average_speed", toJson (totals.average.get direction)),
    ("total", toJson (totals.total.get direction))]

def sessionJson (entry : Endpoint × Session) : Json :=
  .obj [("remote_address", .str (Address.v4 entry.1.remote).text),
    ("remote_port", toJson entry.1.remotePort), ("local_port", toJson entry.1.localPort),
    ("bytes", toJson entry.2.bytes), ("packets", toJson entry.2.packets),
    ("last_update_time", toJson entry.2.lastSeen)]

namespace Service

/-- The version of the interface. -/
def version : String := "0.1.0"

def health (s : Service) : Json :=
  .obj [("status", .str "ok"), ("version", .str version),
    ("host_groups", toJson s.config.groups.length),
    ("active_bans", toJson s.engine.bans.size),
    ("tracked_hosts", toJson s.engine.sessions.hosts.length)]

def listBans (s : Service) : Json := .ofList banJson s.engine.bans.toList

def getBan (s : Service) (text : String) (length : Nat) : Except Refusal Json := do
  let entity ← entity text length
  match s.engine.bans.get? entity with
  | some attack => .ok (banJson (entity, attack))
  | none => .error (.banNotFound entity)

/-- Lifts a ban and withdraws its rule. -/
def deleteBan (w : World) (s : Service) (text : String) (length : Nat) :
    Except Refusal Json × Engine :=
  match entity text length with
  | .error refusal => (.error refusal, s.engine)
  | .ok entity =>
    match s.engine.unban w entity with
    | (.ok (some _), engine) =>
      (.ok (.obj [("entity", toJson entity), ("withdrawn", .bool true)]), engine)
    | (.ok none, engine) => (.error (.banNotFound entity), engine)
    | (.error reason, engine) => (.error (.mitigation reason), engine)

def lookupGroup (s : Service) (text : String) : Except Refusal Json := do
  let address ← address text
  match s.engine.lookup address with
  | some found => .ok (toJson found)
  | none => .error (.groupNotFound address)

def traffic (s : Service) : Json :=
  .obj [("incoming", directionJson s.engine.traffic.totals .incoming),
    ("outgoing", directionJson s.engine.traffic.totals .outgoing)]

def topEntities (s : Service) (ranking : Ranking) (limit : Nat) : Json :=
  .ofList (fun entry => .obj [("entity", toJson entry.1), ("traffic", toJson entry.2)])
    (s.engine.topEntities ranking limit)

def topSessions (s : Service) (text : String) (kind : SessionKind) (limit : Nat) :
    Except Refusal Json := do
  let address ← address text
  .ok (.ofList sessionJson (s.engine.sessions.top address kind limit))

/-- What the caller gives in a segment of a path. -/
def given (segment : String) : String := decode segment.toList

/-- The length in a path; a text that is no length does not fit the resource. -/
def length? (segment : String) : Option Nat :=
  Numeral.bounded? Network.largestLength (given segment).toList

/-- Answers a request that only looks at the engine. -/
def look (s : Service) (path : List String) (query : List (String × String)) : Response :=
  match path with
  | ["health"] => .ok s.health
  | ["bans"] => .ok s.listBans
  | ["bans", text, length] =>
    match length? length with
    | some n => .ofExcept (s.getBan (given text) n)
    | none => .notFound
  | ["host-groups", text] => .ofExcept (s.lookupGroup (given text))
  | ["traffic"] => .ok s.traffic
  | ["top-entities"] =>
    match ranking? query, limit? query with
    | some ranking, some limit => .ok (s.topEntities ranking limit)
    | _, _ => .badQuery
  | ["sessions", text] =>
    match sessionKind? query, limit? query with
    | some kind, some limit => .ofExcept (s.topSessions (given text) kind limit)
    | _, _ => .badQuery
  | _ => .notFound

/-- Whether a path is that of a resource. Segments that are given by the caller are not empty. -/
def isResource : List String → Bool
  | ["health"] => true
  | ["bans"] => true
  | ["bans", address, length] => address ≠ "" && length ≠ ""
  | ["host-groups", address] => address ≠ ""
  | ["traffic"] => true
  | ["top-entities"] => true
  | ["sessions", address] => address ≠ ""
  | _ => false

/-- Answers a request for a path below the root of the interface. -/
def answer (w : World) (s : Service) (method : Method) (path : List String)
    (query : List (String × String)) : Response × Engine :=
  if !isResource path then (.notFound, s.engine)
  else match method, path with
    | .get, _ => (s.look path query, s.engine)
    | .delete, ["bans", text, length] =>
      match length? length with
      | some n =>
        let (result, engine) := s.deleteBan w (given text) n
        (.ofExcept result, engine)
      | none => (.notFound, s.engine)
    | _, _ => (.methodNotAllowed, s.engine)

/-- Answers a request. -/
def handle (w : World) (s : Service) (method : Method) (target : Target) : Response × Engine :=
  match target.path with
  | "api" :: "v1" :: path => s.answer w method path target.query
  | _ => (.notFound, s.engine)

end Service

end FloodGuard.Api

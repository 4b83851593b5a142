import FloodGuard.Attack.Encoding
import FloodGuard.Engine

/-!
The answers of the engine as JSON.
-/
namespace FloodGuard

instance : ToJson CycleReport where
  toJson r := .obj
    [("evaluated", toJson r.evaluated), ("unmonitored", toJson r.unmonitored),
      ("breaches", toJson r.breaches), ("ban_disabled", toJson r.banDisabled),
      ("bans_created", toJson r.bansCreated), ("bans_updated", toJson r.bansUpdated),
      ("bans_refreshed", toJson r.bansRefreshed), ("bans_expired", toJson r.bansExpired),
      ("announces_retried", toJson r.announcesRetried),
      ("withdrawals_retried", toJson r.withdrawalsRetried), ("sink_errors", toJson r.sinkErrors)]

instance : ToJson GroupMatch where
  toJson m := .obj [("prefix", toJson m.network), ("host_group", toJson m.group),
    ("parent_host_group", toJson m.parent)]

instance : ToJson Session where
  toJson s := .obj [("bytes", toJson s.bytes), ("packets", toJson s.packets),
    ("last_update_time", toJson s.lastSeen)]

end FloodGuard

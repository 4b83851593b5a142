import FloodGuard.Config.Encoding

/-!
The records of the configuration, field by field. What is read as a record is an object, or a list
with the fields by position, whose members give every field of the record as its reader reads it.
All that is known of a reader of records is said here; nothing else looks into one.
-/
namespace FloodGuard

/-- Where all names differ, a member is found by its name. -/
theorem Json.lookup_eq_some_of_mem {members : List (String × Json)} {name : String} {value : Json}
    (hnodup : (members.map Prod.fst).Nodup) (h : (name, value) ∈ members) :
    lookup name members = some value := by
  induction members with
  | nil => simp at h
  | cons member rest ih =>
    rw [List.map_cons, List.nodup_cons] at hnodup
    rw [lookup, List.reverse_cons, List.find?_append, Option.map_or]
    rcases List.mem_cons.1 h with rfl | hrest
    · have habsent : rest.reverse.find? (fun other => decide (other.1 = name)) = none := by
        rw [List.find?_eq_none]
        intro other hother heq
        refine hnodup.1 (List.mem_map.2 ⟨other, List.mem_reverse.1 hother, ?_⟩)
        exact of_decide_eq_true heq
      rw [habsent]
      simp
    · have hfound : (rest.reverse.find? fun other => decide (other.1 = name)).map Prod.snd =
          some value := ih hnodup.2 hrest
      rw [hfound, Option.some_or]

/-- A member that is found is there. -/
theorem Json.mem_of_lookup {members : List (String × Json)} {name : String} {value : Json}
    (h : lookup name members = some value) : (name, value) ∈ members := by
  obtain ⟨member, hfound, rfl⟩ := Option.map_eq_some_iff.1 h
  have hname : member.1 = name := by simpa using List.find?_some hfound
  rw [← hname]
  exact List.mem_reverse.1 (List.mem_of_find?_eq_some hfound)

namespace Reader

variable {α : Type} {read : Json → Option α} {absent x : α} {members : List (String × Json)}
  {name : String}

theorem required_of_lookup {value : Json} (h : Json.lookup name members = some value) :
    required read members name = read value := by
  rw [required, h]
  rfl

theorem optional_of_lookup {value : Json} (h : Json.lookup name members = some value) :
    optional read absent members name = read value := by
  rw [optional, h]

theorem optional_of_missing (h : Json.lookup name members = none) :
    optional read absent members name = some absent := by
  rw [optional, h]

/-- What an object gives as a record are its members. -/
theorem exists_record_obj {r : Reader} {fields : List String} {members : List (String × Json)}
    {p : List (String × Json) → Prop} :
    (∃ given, r.record fields (.obj members) = some given ∧ p given) ↔ p members := by
  constructor
  · rintro ⟨given, hrecord, h⟩
    obtain rfl : members = given := Option.some.inj hrecord
    exact h
  · intro h
    exact ⟨members, rfl, h⟩

theorem required_eq_some_iff :
    required read members name = some x ↔
      ∃ value, Json.lookup name members = some value ∧ read value = some x := by
  rw [required, Option.bind_eq_bind, Option.bind_eq_some_iff]

end Reader

/-- Whether the members of a record give an action. -/
structure ActionConfig.ReadFrom (c : ActionConfig) (r : Reader) (members : List (String × Json)) :
    Prop where
  kind : Reader.optional r.enumeration .discard members "kind" = some c.kind
  rate : Reader.optional r.word64 0 members "rate" = some c.rate

theorem ActionConfig.read_eq_some_iff {r : Reader} {value : Json} {c : ActionConfig} :
    read r value = some c ↔
      ∃ members, r.record fields value = some members ∧ c.ReadFrom r members := by
  simp only [read, Option.bind_eq_bind, Option.bind_eq_some_iff, Option.some.injEq]
  constructor
  · rintro ⟨members, hmembers, kind, hkind, rate, hrate, rfl⟩
    exact ⟨members, hmembers, hkind, hrate⟩
  · rintro ⟨members, hmembers, h⟩
    exact ⟨members, hmembers, _, h.kind, _, h.rate, rfl⟩

theorem ActionConfig.read_obj_iff {r : Reader} {members : List (String × Json)} {c : ActionConfig} :
    read r (.obj members) = some c ↔ c.ReadFrom r members :=
  read_eq_some_iff.trans Reader.exists_record_obj

/-- Whether the members of a record give a policy. -/
structure BanPolicy.ReadFrom (p : BanPolicy) (r : Reader) (members : List (String × Json)) :
    Prop where
  banTime : Reader.optional r.word64 1900 members "ban_time" = some p.banTime
  expires : Reader.optional r.flag true members "unban_enabled" = some p.expires

theorem BanPolicy.read_eq_some_iff {r : Reader} {value : Json} {p : BanPolicy} :
    read r value = some p ↔
      ∃ members, r.record fields value = some members ∧ p.ReadFrom r members := by
  simp only [read, Option.bind_eq_bind, Option.bind_eq_some_iff, Option.some.injEq]
  constructor
  · rintro ⟨members, hmembers, time, htime, expires, hexpires, rfl⟩
    exact ⟨members, hmembers, htime, hexpires⟩
  · rintro ⟨members, hmembers, h⟩
    exact ⟨members, hmembers, _, h.banTime, _, h.expires, rfl⟩

theorem BanPolicy.read_obj_iff {r : Reader} {members : List (String × Json)} {p : BanPolicy} :
    read r (.obj members) = some p ↔ p.ReadFrom r members :=
  read_eq_some_iff.trans Reader.exists_record_obj

namespace Dimension

theorem mem_flagOrder (d : Dimension) : d ∈ flagOrder := by
  rcases d with (_ | _) | (_ | _) | _ <;> decide

theorem mem_thresholdOrder (d : Dimension) : d ∈ thresholdOrder := by
  rcases d with (_ | _) | (_ | _) | _ <;> decide

end Dimension

namespace Settings

theorem enableBan_mem_fields : "enable_ban" ∈ fields := by simp [fields]

theorem enableV6_mem_fields : "enable_ban_ipv6" ∈ fields := by simp [fields]

theorem flagField_mem_fields (d : Dimension) : d.flagField ∈ fields :=
  List.mem_append_left _ (List.mem_append_right _ (List.mem_map_of_mem d.mem_flagOrder))

theorem thresholdField_mem_fields (d : Dimension) : d.thresholdField ∈ fields :=
  List.mem_append_right _ (List.mem_map_of_mem d.mem_thresholdOrder)

end Settings

/-- Whether the members of a record give detection settings: two flags, and for every dimension a
flag and a threshold. -/
structure Settings.ReadFrom (s : Settings) (r : Reader) (members : List (String × Json)) :
    Prop where
  enableBan : Reader.optional r.flag false members "enable_ban" = some s.enableBan
  enableV6 : Reader.optional r.flag false members "enable_ban_ipv6" = some s.enableV6
  enabled : ∀ d : Dimension,
    Reader.optional r.flag false members d.flagField = some (s.limit d).enabled
  threshold : ∀ d : Dimension,
    Reader.optional r.word32 0 members d.thresholdField = some (s.limit d).threshold

namespace Settings

variable {r : Reader} {members : List (String × Json)}

theorem readLimit_eq_some_iff {d : Dimension} {l : Limit} :
    readLimit r members d = some l ↔
      Reader.optional r.flag false members d.flagField = some l.enabled ∧
        Reader.optional r.word32 0 members d.thresholdField = some l.threshold := by
  simp only [readLimit, Option.bind_eq_bind, Option.bind_eq_some_iff, Option.some.injEq]
  constructor
  · rintro ⟨enabled, henabled, threshold, hthreshold, rfl⟩
    exact ⟨henabled, hthreshold⟩
  · rintro ⟨henabled, hthreshold⟩
    exact ⟨_, henabled, _, hthreshold, rfl⟩

theorem readLimits_eq_some_iff {dimension : Portion → Dimension} {p : PerPortion Limit} :
    readLimits r members dimension = some p ↔
      ∀ portion, readLimit r members (dimension portion) = some (p.get portion) := by
  simp only [readLimits, Option.bind_eq_bind, Option.bind_eq_some_iff, Option.some.injEq]
  constructor
  · rintro ⟨all, hall, tcp, htcp, udp, hudp, icmp, hicmp, tcpSyn, htcpSyn, rfl⟩ portion
    cases portion with
    | all => exact hall
    | tcp => exact htcp
    | udp => exact hudp
    | icmp => exact hicmp
    | tcpSyn => exact htcpSyn
  · intro h
    exact ⟨_, h .all, _, h .tcp, _, h .udp, _, h .icmp, _, h .tcpSyn, rfl⟩

theorem read_eq_some_iff {value : Json} {s : Settings} :
    read r value = some s ↔
      ∃ members, r.record fields value = some members ∧ s.ReadFrom r members := by
  simp only [read, Option.bind_eq_bind, Option.bind_eq_some_iff, Option.some.injEq]
  constructor
  · rintro ⟨members, hmembers, ban, hban, v6, hv6, packets, hpackets, bandwidth, hbandwidth,
      flows, hflows, rfl⟩
    have hlimit : ∀ d : Dimension, readLimit r members d =
        some (Settings.limit ⟨ban, v6, packets, bandwidth, flows⟩ d) := by
      intro d
      cases d with
      | packets portion => exact readLimits_eq_some_iff.1 hpackets portion
      | bandwidth portion => exact readLimits_eq_some_iff.1 hbandwidth portion
      | flows => exact hflows
    exact ⟨members, hmembers, hban, hv6, fun d => (readLimit_eq_some_iff.1 (hlimit d)).1,
      fun d => (readLimit_eq_some_iff.1 (hlimit d)).2⟩
  · rintro ⟨members, hmembers, h⟩
    have hlimit : ∀ d : Dimension, readLimit r members d = some (s.limit d) := fun d =>
      readLimit_eq_some_iff.2 ⟨h.enabled d, h.threshold d⟩
    exact ⟨members, hmembers, _, h.enableBan, _, h.enableV6,
      _, readLimits_eq_some_iff.2 fun portion => hlimit (.packets portion),
      _, readLimits_eq_some_iff.2 fun portion => hlimit (.bandwidth portion),
      _, hlimit .flows, rfl⟩

theorem read_obj_iff {s : Settings} :
    read r (.obj members) = some s ↔ s.ReadFrom r members :=
  read_eq_some_iff.trans Reader.exists_record_obj

end Settings

/-- Whether the members of a record give a server section. -/
structure ServerConfig.ReadFrom (c : ServerConfig) (r : Reader) (members : List (String × Json)) :
    Prop where
  host : Reader.required r.text members "host" = some c.host
  port : Reader.required r.word16 members "port" = some c.port

theorem ServerConfig.read_eq_some_iff {r : Reader} {value : Json} {c : ServerConfig} :
    read r value = some c ↔
      ∃ members, r.record fields value = some members ∧ c.ReadFrom r members := by
  simp only [read, Option.bind_eq_bind, Option.bind_eq_some_iff, Option.some.injEq]
  constructor
  · rintro ⟨members, hmembers, host, hhost, port, hport, rfl⟩
    exact ⟨members, hmembers, hhost, hport⟩
  · rintro ⟨members, hmembers, h⟩
    exact ⟨members, hmembers, _, h.host, _, h.port, rfl⟩

theorem ServerConfig.read_obj_iff {r : Reader} {members : List (String × Json)} {c : ServerConfig} :
    read r (.obj members) = some c ↔ c.ReadFrom r members :=
  read_eq_some_iff.trans Reader.exists_record_obj

/-- Whether the members of a record give a detection section. -/
structure DetectionConfig.ReadFrom (c : DetectionConfig) (r : Reader)
    (members : List (String × Json)) : Prop where
  evaluationInterval :
    Reader.optional r.word64 1 members "evaluation_interval_seconds" = some c.evaluationInterval
  sweepInterval : Reader.optional r.word64 30 members "gc_interval_seconds" = some c.sweepInterval
  inactivity :
    Reader.optional r.word64 120 members "conntrack_inactivity_seconds" = some c.inactivity
  banTime : Reader.optional r.word64 1900 members "ban_time" = some c.banTime
  expires : Reader.optional r.flag true members "unban_enabled" = some c.expires
  action : Reader.optional (ActionConfig.read r) {} members "flow_spec_action" = some c.action

theorem DetectionConfig.read_eq_some_iff {r : Reader} {value : Json} {c : DetectionConfig} :
    read r value = some c ↔
      ∃ members, r.record fields value = some members ∧ c.ReadFrom r members := by
  simp only [read, Option.bind_eq_bind, Option.bind_eq_some_iff, Option.some.injEq]
  constructor
  · rintro ⟨members, hmembers, evaluation, hevaluation, sweep, hsweep, inactivity, hinactivity,
      time, htime, expires, hexpires, action, haction, rfl⟩
    exact ⟨members, hmembers, hevaluation, hsweep, hinactivity, htime, hexpires, haction⟩
  · rintro ⟨members, hmembers, h⟩
    exact ⟨members, hmembers, _, h.evaluationInterval, _, h.sweepInterval, _, h.inactivity,
      _, h.banTime, _, h.expires, _, h.action, rfl⟩

theorem DetectionConfig.read_obj_iff {r : Reader} {members : List (String × Json)}
    {c : DetectionConfig} :
    read r (.obj members) = some c ↔ c.ReadFrom r members :=
  read_eq_some_iff.trans Reader.exists_record_obj

/-- Whether the members of a record give a group. -/
structure GroupConfig.ReadFrom (c : GroupConfig) (r : Reader) (members : List (String × Json)) :
    Prop where
  name : Reader.required r.text members "name" = some c.name
  parent : Reader.optional (Reader.nullable r.text) none members "parent" = some c.parent
  networks : Reader.optional (Reader.list r.text) [] members "networks" = some c.networks
  settings : Reader.optional (Reader.nullable (Settings.read r)) none members "ban_settings" =
    some c.settings
  policy : Reader.optional (Reader.nullable (BanPolicy.read r)) none members "ban_policy" =
    some c.policy

theorem GroupConfig.read_eq_some_iff {r : Reader} {value : Json} {c : GroupConfig} :
    read r value = some c ↔
      ∃ members, r.record fields value = some members ∧ c.ReadFrom r members := by
  simp only [read, Option.bind_eq_bind, Option.bind_eq_some_iff, Option.some.injEq]
  constructor
  · rintro ⟨members, hmembers, name, hname, parent, hparent, networks, hnetworks, settings,
      hsettings, policy, hpolicy, rfl⟩
    exact ⟨members, hmembers, hname, hparent, hnetworks, hsettings, hpolicy⟩
  · rintro ⟨members, hmembers, h⟩
    exact ⟨members, hmembers, _, h.name, _, h.parent, _, h.networks, _, h.settings,
      _, h.policy, rfl⟩

theorem GroupConfig.read_obj_iff {r : Reader} {members : List (String × Json)} {c : GroupConfig} :
    read r (.obj members) = some c ↔ c.ReadFrom r members :=
  read_eq_some_iff.trans Reader.exists_record_obj

theorem LoggingConfig.read_eq_some_iff {r : Reader} {value : Json} {c : LoggingConfig} :
    read r value = some c ↔
      ∃ members, r.record fields value = some members ∧
        Reader.required r.text members "level" = some c.level := by
  simp only [read, Option.bind_eq_bind, Option.bind_eq_some_iff, Option.some.injEq]
  constructor
  · rintro ⟨members, hmembers, level, hlevel, rfl⟩
    exact ⟨members, hmembers, hlevel⟩
  · rintro ⟨members, hmembers, h⟩
    exact ⟨members, hmembers, _, h, rfl⟩

theorem LoggingConfig.read_obj_iff {r : Reader} {members : List (String × Json)}
    {c : LoggingConfig} :
    read r (.obj members) = some c ↔ Reader.required r.text members "level" = some c.level :=
  read_eq_some_iff.trans Reader.exists_record_obj

/-- Whether the members of a record give a configuration. -/
structure Config.ReadFrom (c : Config) (r : Reader) (members : List (String × Json)) : Prop where
  server : Reader.optional (ServerConfig.read r) {} members "server" = some c.server
  detection : Reader.optional (DetectionConfig.read r) {} members "detection" = some c.detection
  settings : Reader.optional (Settings.read r) {} members "ban_settings" = some c.settings
  networks : Reader.optional (Reader.list r.text) [] members "networks" = some c.networks
  groups : Reader.optional (Reader.list (GroupConfig.read r)) [] members "host_groups" =
    some c.groups
  logging : Reader.optional (LoggingConfig.read r) {} members "logging" = some c.logging

theorem Config.read_eq_some_iff {r : Reader} {value : Json} {c : Config} :
    read r value = some c ↔
      ∃ members, r.record fields value = some members ∧ c.ReadFrom r members := by
  simp only [read, Option.bind_eq_bind, Option.bind_eq_some_iff, Option.some.injEq]
  constructor
  · rintro ⟨members, hmembers, server, hserver, detection, hdetection, settings, hsettings,
      networks, hnetworks, groups, hgroups, logging, hlogging, rfl⟩
    exact ⟨members, hmembers, hserver, hdetection, hsettings, hnetworks, hgroups, hlogging⟩
  · rintro ⟨members, hmembers, h⟩
    exact ⟨members, hmembers, _, h.server, _, h.detection, _, h.settings, _, h.networks,
      _, h.groups, _, h.logging, rfl⟩

theorem Config.read_obj_iff {r : Reader} {members : List (String × Json)} {c : Config} :
    read r (.obj members) = some c ↔ c.ReadFrom r members :=
  read_eq_some_iff.trans Reader.exists_record_obj

end FloodGuard

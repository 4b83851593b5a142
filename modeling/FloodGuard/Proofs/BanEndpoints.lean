import FloodGuard.Proofs.LongestMatch
import FloodGuard.Proofs.ManualUnban
import FloodGuard.Proofs.NetworkText
import FloodGuard.Proofs.PathText

/-!
The requests about bans agree with each other. The list of bans is in the order of the entities and
holds each ban once. Looking at a ban answers with its object in the list, under whatever address of
the entity it is asked for, and lifting it takes just this object off the list, also if the
announcer fails. Both refuse what is no network, and what is not in the list. Nothing that only
looks changes the engine.
-/
namespace FloodGuard

/-- Whether a block comes before another one: by its first address, and of two blocks with the same
one by its length. -/
def Block.Precedes {w : Nat} (b c : Block w) : Prop :=
  b.bits < c.bits ∨ b.bits = c.bits ∧ b.length < c.length

/-- Whether a network comes before another one: those of version 4 are in front. -/
def Network.Precedes : Network → Network → Prop
  | .v4 b, .v4 c => b.Precedes c
  | .v4 _, .v6 _ => True
  | .v6 _, .v4 _ => False
  | .v6 b, .v6 c => b.Precedes c

theorem Block.compare_eq_lt_iff {w : Nat} (b c : Block w) : compare b c = .lt ↔ b.Precedes c := by
  have hbits : compare b.bits c.bits = .lt ↔ b.bits < c.bits := compareOfLessAndEq_eq_lt
  show (compare b.bits c.bits).then (compare b.length c.length) = .lt ↔ _
  rw [Ordering.then_eq_lt, hbits, Std.compare_eq_iff_eq, Std.compare_eq_lt]
  exact Iff.rfl

theorem Network.compare_eq_lt_iff (m n : Network) : compare m n = .lt ↔ m.Precedes n := by
  cases m with
  | v4 b =>
    cases n with
    | v4 c => exact b.compare_eq_lt_iff c
    | v6 c => exact iff_of_true rfl trivial
  | v6 b =>
    cases n with
    | v4 c => exact iff_of_false (by simp [compare_def, cmp]) id
    | v6 c => exact b.compare_eq_lt_iff c

/-- What an address and a length make is the network of this length that holds the address. -/
theorem Network.around_eq_ok_iff (a : Address) (k : Nat) (n : Network) :
    around a k = .ok n ↔ n.contains a = true ∧ n.length = k := by
  constructor
  · intro haround
    have hself := (contains_of_around haround a).2 ⟨rfl, fun _ _ => rfl⟩
    exact ⟨hself, (of_around_eq_ok haround).1⟩
  · rintro ⟨hcontains, rfl⟩
    exact around_of_contains hcontains

theorem BanList.pairwise_toList (l : BanList) :
    l.toList.Pairwise fun first second => first.1.Precedes second.1 :=
  Std.ExtTreeMap.ordered_keys_toList.imp fun h => (Network.compare_eq_lt_iff _ _).1 h

/-- Lifting a ban answers with its attack or with a failure, unless there is none. -/
theorem Engine.unban_eq_ok_none_iff (w : World) (e : Engine) (entity : Network) :
    (e.unban w entity).1 = .ok none ↔ e.bans.get? entity = none := by
  cases hban : e.bans.get? entity with
  | none => simp only [unban, BanList.lift_of_none hban]
  | some a =>
    cases hannounced : a.announced with
    | false => simp [unban, BanList.lift_of_some hban, hannounced]
    | true =>
      cases hfailure : e.failure? w (.withdraw (e.ruleFor entity a)) <;>
        simp [unban, BanList.lift_of_some hban, hannounced, hfailure]

namespace Api

/-- Whether an address and a length are no network. -/
def NoNetwork (text : String) (length : UInt8) : Prop :=
  Address.parse? text = none ∨
    ∃ a, Address.parse? text = some a ∧ a.family.width < length.toNat

/-- Whether an entity is the network of an address and a length. -/
def Names (text : String) (length : UInt8) (entity : Network) : Prop :=
  ∃ a, Address.parse? text = some a ∧ entity.contains a = true ∧ entity.length = length.toNat

/-- Whether an object is that of an entity. -/
def isOf (entity : Network) (object : Json) : Bool :=
  match object.member? "entity" with
  | some (.str text) => text = entity.text
  | _ => false

theorem isOf_banJson (entity : Network) (entry : Network × Attack) :
    isOf entity (banJson entry) = true ↔ entry.1 = entity := by
  have hentity : toJson entry.1 = .str entry.1.text := rfl
  have hmember : (banJson entry).member? "entity" = some (.str entry.1.text) := by
    simp [banJson, Json.member?, Json.lookup, hentity]
  rw [isOf, hmember, decide_eq_true_eq, Network.text_inj]

section Naming

variable {text : String} {length : UInt8} {entity : Network}

theorem entity_of_parse? {a : Address} (h : Address.parse? text = some a) (k : Nat) :
    Api.entity text k = (Network.around a k).mapError .invalidNetwork := by
  rw [Api.entity, address, h]
  rfl

theorem Names.entity_eq (h : Names text length entity) :
    Api.entity text length.toNat = .ok entity := by
  obtain ⟨a, ha, hnetwork⟩ := h
  rw [entity_of_parse? ha, (Network.around_eq_ok_iff a length.toNat entity).2 hnetwork]
  rfl

theorem NoNetwork.entity_eq (h : NoNetwork text length) :
    ∃ refusal, Api.entity text length.toNat = .error refusal ∧ refusal.status = 400 := by
  rcases h with hnone | ⟨a, ha, hwidth⟩
  · refine ⟨.invalidAddress text, ?_, rfl⟩
    rw [Api.entity, address, hnone]
    rfl
  · refine ⟨.invalidNetwork (.lengthOutOfRange a.family length.toNat), ?_, rfl⟩
    rw [entity_of_parse? ha, (Network.around_eq_error_iff a length.toNat _).2 ⟨hwidth, rfl⟩]
    rfl

theorem noNetwork_or_names (text : String) (length : UInt8) :
    NoNetwork text length ∨ ∃ entity, Names text length entity := by
  cases ha : Address.parse? text with
  | none => exact .inl (.inl ha)
  | some a =>
    cases haround : Network.around a length.toNat with
    | error reason =>
      have hwidth := ((Network.around_eq_error_iff a length.toNat reason).1 haround).1
      exact .inl (.inr ⟨a, ha, hwidth⟩)
    | ok entity =>
      exact .inr ⟨entity, a, ha, (Network.around_eq_ok_iff a length.toNat entity).1 haround⟩

theorem Names.unique {other : Network} (h : Names text length entity)
    (hother : Names text length other) : other = entity :=
  Except.ok.inj (hother.entity_eq.symm.trans h.entity_eq)

theorem Names.not_noNetwork (h : Names text length entity) : ¬ NoNetwork text length := by
  intro hnone
  obtain ⟨refusal, hrefusal, -⟩ := hnone.entity_eq
  exact absurd (h.entity_eq.symm.trans hrefusal) (by simp)

end Naming

namespace Service

variable {s : Service} {text : String} {length : UInt8} {entity : Network}

/-- The object of an entity in the list of bans. -/
def listed (s : Service) (entity : Network) : Option Json :=
  match s.listBans with
  | .arr objects => objects.find? (isOf entity)
  | _ => none

/-- The list holds the object of a ban just if the engine has the ban. -/
theorem listed_eq (s : Service) (entity : Network) :
    s.listed entity = (s.engine.bans.get? entity).map fun attack => banJson (entity, attack) := by
  show (s.engine.bans.toList.map banJson).find? (isOf entity) = _
  rw [List.find?_map]
  cases hfind : s.engine.bans.toList.find? (isOf entity ∘ banJson) with
  | none =>
    cases hban : s.engine.bans.get? entity with
    | none => rfl
    | some attack =>
      have hmem := (s.engine.bans.mem_toList_iff entity attack).2 hban
      have hself := (isOf_banJson entity (entity, attack)).2 rfl
      exact absurd hself (List.find?_eq_none.1 hfind _ hmem)
  | some entry =>
    obtain ⟨found, attack⟩ := entry
    have htest : isOf entity (banJson (found, attack)) = true :=
      List.find?_some (p := isOf entity ∘ banJson) hfind
    obtain rfl : found = entity := (isOf_banJson entity (found, attack)).1 htest
    have hmem := List.mem_of_find?_eq_some hfind
    rw [(s.engine.bans.mem_toList_iff found attack).1 hmem]
    rfl

/-- Whether a status says that a request for the ban of an address and a length is refused, just for
the requests that are to be refused. -/
structure Refuses (s : Service) (text : String) (length : UInt8) (status : Nat) : Prop where
  invalid : status = 400 ↔ NoNetwork text length
  missing : status = 404 ↔ ∃ entity, Names text length entity ∧ s.listed entity = none

theorem refuses_of_noNetwork {status : Nat} (h : NoNetwork text length) (hstatus : status = 400) :
    s.Refuses text length status where
  invalid := iff_of_true hstatus h
  missing := by
    refine iff_of_false (by omega) ?_
    rintro ⟨entity, hnames, -⟩
    exact hnames.not_noNetwork h

theorem refuses_of_missing (hnames : Names text length entity) (h : s.listed entity = none) :
    s.Refuses text length 404 where
  invalid := iff_of_false (by decide) hnames.not_noNetwork
  missing := iff_of_true rfl ⟨entity, hnames, h⟩

theorem refuses_of_listed {status : Nat} {object : Json} (hnames : Names text length entity)
    (h : s.listed entity = some object) (hinvalid : status ≠ 400) (hmissing : status ≠ 404) :
    s.Refuses text length status where
  invalid := iff_of_false hinvalid hnames.not_noNetwork
  missing := by
    refine iff_of_false hmissing ?_
    rintro ⟨other, hother, hnone⟩
    rw [hnames.unique hother, h] at hnone
    cases hnone

theorem getBan_of_missing (hnames : Names text length entity) (h : s.listed entity = none) :
    s.getBan text length.toNat = .error (.banNotFound entity) := by
  rw [listed_eq, Option.map_eq_none_iff] at h
  rw [getBan, hnames.entity_eq]
  simp only [bind, Except.bind, h]

theorem getBan_of_listed {object : Json} (hnames : Names text length entity)
    (h : s.listed entity = some object) : s.getBan text length.toNat = .ok object := by
  rw [listed_eq] at h
  obtain ⟨attack, hban, rfl⟩ := Option.map_eq_some_iff.1 h
  rw [getBan, hnames.entity_eq]
  simp only [bind, Except.bind, hban]

/-- What a request to look at a ban is answered with: the object in the list, unless the request is
refused. -/
structure Looks (s : Service) (text : String) (length : UInt8) (answer : Response) : Prop where
  refuses : s.Refuses text length answer.status
  found : answer.status ≠ 400 → answer.status ≠ 404 →
    ∃ entity object, Names text length entity ∧ s.listed entity = some object ∧
      answer = .ok object
  reached : ∀ entity object, Names text length entity → s.listed entity = some object →
    answer = .ok object

/-- What a request to lift a ban is answered with, and what it leaves: the list without the object
of the ban, unless the request is refused. -/
structure Lifts (s : Service) (text : String) (length : UInt8) (answer : Response)
    (after : Service) : Prop where
  refuses : s.Refuses text length answer.status
  kept : answer.status = 400 ∨ answer.status = 404 → after = s
  lifted : answer.status ≠ 400 → answer.status ≠ 404 →
    (answer.status = 200 ∨ answer.status = 502) ∧ ∃ entity, Names text length entity ∧
      after.listed entity = none ∧ ∀ other, other ≠ entity → after.listed other = s.listed other

theorem looks_getBan (s : Service) (text : String) (length : UInt8) :
    s.Looks text length (.ofExcept (s.getBan text length.toNat)) := by
  rcases noNetwork_or_names text length with hnone | ⟨entity, hnames⟩
  · obtain ⟨refusal, hrefusal, hstatus⟩ := hnone.entity_eq
    have hanswer : s.getBan text length.toNat = .error refusal := by
      rw [getBan, hrefusal]
      rfl
    rw [hanswer]
    exact ⟨refuses_of_noNetwork hnone hstatus, fun hinvalid => absurd hstatus hinvalid,
      fun _ _ hnames => absurd hnone hnames.not_noNetwork⟩
  · cases hlisted : s.listed entity with
    | none =>
      rw [getBan_of_missing hnames hlisted]
      refine ⟨refuses_of_missing hnames hlisted, fun _ hmissing => absurd rfl hmissing, ?_⟩
      intro other object hother hobject
      rw [hnames.unique hother, hlisted] at hobject
      cases hobject
    | some object =>
      rw [getBan_of_listed hnames hlisted]
      have hrefuses : s.Refuses text length (Response.ok object).status :=
        refuses_of_listed hnames hlisted (by simp [Response.ok]) (by simp [Response.ok])
      refine ⟨hrefuses, fun _ _ => ⟨entity, object, hnames, hlisted, rfl⟩, ?_⟩
      intro other found hother hfound
      rw [hnames.unique hother, hlisted] at hfound
      rw [Option.some.inj hfound]
      rfl

theorem deleteBan_of_missing (w : World) (hnames : Names text length entity)
    (h : s.listed entity = none) :
    s.deleteBan w text length.toNat = (.error (.banNotFound entity), s.engine) := by
  rw [listed_eq, Option.map_eq_none_iff] at h
  have hunban : s.engine.unban w entity = (.ok none, s.engine) := by
    simp only [Engine.unban, BanList.lift_of_none h]
  simp only [deleteBan, hnames.entity_eq, hunban]

theorem status_deleteBan_of_listed (w : World) {object : Json} (hnames : Names text length entity)
    (h : s.listed entity = some object) :
    (Response.ofExcept (s.deleteBan w text length.toNat).1).status = 200 ∨
      (Response.ofExcept (s.deleteBan w text length.toNat).1).status = 502 := by
  rw [listed_eq] at h
  obtain ⟨attack, hban, -⟩ := Option.map_eq_some_iff.1 h
  cases hunban : s.engine.unban w entity with
  | mk outcome engine =>
    match outcome with
    | .ok (some lifted) =>
      left
      simp only [deleteBan, hnames.entity_eq, hunban]
      rfl
    | .error reason =>
      right
      simp only [deleteBan, hnames.entity_eq, hunban]
      rfl
    | .ok none =>
      have hfree := (Engine.unban_eq_ok_none_iff w s.engine entity).1 (congrArg Prod.fst hunban)
      rw [hban] at hfree
      cases hfree

theorem listed_deleteBan (w : World) (hnames : Names text length entity) (other : Network) :
    listed ⟨(s.deleteBan w text length.toNat).2, s.config⟩ other =
      if entity = other then none else s.listed other := by
  rw [listed_eq, listed_eq, deleteBan_snd w s hnames.entity_eq, Engine.bans_unban,
    BanList.get?_unban]
  split <;> rfl

theorem lifts_deleteBan (w : World) (s : Service) (text : String) (length : UInt8) :
    s.Lifts text length (.ofExcept (s.deleteBan w text length.toNat).1)
      ⟨(s.deleteBan w text length.toNat).2, s.config⟩ := by
  rcases noNetwork_or_names text length with hnone | ⟨entity, hnames⟩
  · obtain ⟨refusal, hrefusal, hstatus⟩ := hnone.entity_eq
    have hanswer : s.deleteBan w text length.toNat = (.error refusal, s.engine) := by
      rw [deleteBan, hrefusal]
    rw [hanswer]
    exact ⟨refuses_of_noNetwork hnone hstatus, fun _ => rfl,
      fun hinvalid => absurd hstatus hinvalid⟩
  · cases hlisted : s.listed entity with
    | none =>
      rw [deleteBan_of_missing w hnames hlisted]
      exact ⟨refuses_of_missing hnames hlisted, fun _ => rfl,
        fun _ hmissing => absurd rfl hmissing⟩
    | some object =>
      have hstatus := status_deleteBan_of_listed w hnames hlisted
      refine ⟨refuses_of_listed hnames hlisted (by omega) (by omega), by omega, ?_⟩
      intro _ _
      refine ⟨hstatus, entity, hnames, ?_, ?_⟩
      · rw [listed_deleteBan w hnames, if_pos rfl]
      · intro other hother
        rw [listed_deleteBan w hnames, if_neg hother.symm]

end Service

/-- Whether a target is that of the ban of an address and a length. -/
def Target.IsBan (target : Target) (text : String) (length : UInt8) : Prop :=
  ∃ first second, target.path = ["api", "v1", "bans", first, second] ∧ first ≠ "" ∧
    Service.given first = text ∧ Service.length? second = some length.toNat

namespace Service

theorem given_empty : given "" = "" := by
  simp [given, decode, decodeExcept, unescape, Text.ofUtf8, Text.decodeOctets]

theorem ne_empty_of_length? {segment : String} {n : Nat} (h : length? segment = some n) :
    segment ≠ "" := by
  rintro rfl
  have hempty : Numeral.bounded? Network.largestLength "".toList = none := rfl
  rw [length?, given_empty, hempty] at h
  cases h

variable {w : World} {s : Service} {target : Target} {text : String} {length : UInt8}

theorem handle_get_of_isBan (h : target.IsBan text length) :
    s.handle w .get target = (.ofExcept (s.getBan text length.toNat), s.engine) := by
  obtain ⟨first, second, hpath, hfirst, rfl, hlength⟩ := h
  have hsecond := ne_empty_of_length? hlength
  rw [handle, hpath]
  simp [answer, look, isResource, hfirst, hsecond, hlength]

theorem handle_delete_of_isBan (h : target.IsBan text length) :
    s.handle w .delete target =
      (.ofExcept (s.deleteBan w text length.toNat).1, (s.deleteBan w text length.toNat).2) := by
  obtain ⟨first, second, hpath, hfirst, rfl, hlength⟩ := h
  have hsecond := ne_empty_of_length? hlength
  rw [handle, hpath]
  simp [answer, isResource, hfirst, hsecond, hlength]

theorem handle_get_list (h : target.path = ["api", "v1", "bans"]) :
    s.handle w .get target = (.ok s.listBans, s.engine) := by
  rw [handle, h]
  rfl

theorem handle_get_snd (w : World) (s : Service) (target : Target) :
    (s.handle w .get target).2 = s.engine := by
  rw [handle]
  split
  · rw [answer]
    split
    · rfl
    · rfl
  · rfl

/-- Every text but the empty one can be asked for, with every length. -/
theorem isBan_targetOf {parse : String → Target} (hparse : Target.Documented parse)
    {text : String} (htext : text ≠ "") (length : UInt8) :
    (parse (targetOf ["api", "v1", "bans", text, length.toNat.repr])).IsBan text length := by
  refine ⟨_, _, path_targetOf hparse _, ?_, given_escape text, ?_⟩
  · intro hempty
    have hgiven : given "" = text := hempty ▸ given_escape text
    exact htext (hgiven.symm.trans given_empty)
  · rw [length?, given_escape, Nat.toList_repr]
    exact Numeral.bounded?_write (Nat.le_of_lt_succ length.toNat_lt)

/-- The list of bans holds every ban once, in the order of the entities. Every text and length can
be asked for. Then looking answers with the object of the list, for all addresses of the entity, or
is refused; lifting takes this object off the list, also if the announcer fails, or is refused in
the same cases. Nothing that only looks changes the engine. -/
theorem ban_endpoints_agree {parse : String → Target} (hparse : Target.Documented parse)
    (w : World) (s : Service) :
    (∀ target, (s.handle w .get target).2 = s.engine) ∧
    (∀ target, target.path = ["api", "v1", "bans"] →
      (s.handle w .get target).1 = .ok s.listBans) ∧
    (∃ entries : List (Network × Attack), s.listBans = .arr (entries.map banJson) ∧
      entries.Pairwise (fun first second => first.1.Precedes second.1) ∧
      ∀ entity attack, (entity, attack) ∈ entries ↔ s.engine.bans.get? entity = some attack) ∧
    (∀ text, text ≠ "" → ∀ length : UInt8,
      (parse (targetOf ["api", "v1", "bans", text, length.toNat.repr])).IsBan text length) ∧
    ∀ target text length, target.IsBan text length →
      let after := (s.handle w .delete target).2
      s.Looks text length (s.handle w .get target).1 ∧
      s.Lifts text length (s.handle w .delete target).1 ⟨after, s.config⟩ := by
  refine ⟨handle_get_snd w s, ?_, ?_, fun text htext length => isBan_targetOf hparse htext length,
    ?_⟩
  · intro target hpath
    rw [handle_get_list hpath]
  · exact ⟨s.engine.bans.toList, rfl, s.engine.bans.pairwise_toList, s.engine.bans.mem_toList_iff⟩
  · intro target text length htarget
    rw [handle_get_of_isBan htarget, handle_delete_of_isBan htarget]
    exact ⟨looks_getBan s text length, lifts_deleteBan w s text length⟩

/-- The ban of a host is looked at and lifted. -/
theorem ban_endpoints_agree_of_attackedHost :
    let w := World.obliging fun _ => .ok .nil
    let s : Service := ⟨((Engine.fresh minuteBans).detect w [attackedHost] 7).engine, minuteBans⟩
    let target := Target.parse (targetOf ["api", "v1", "bans", "10.0.0.1", (32 : UInt8).toNat.repr])
    Target.Documented Target.parse ∧ ∃ object, s.listed attackedHost.entity = some object ∧
      (s.handle w .get target).1 = .ok object ∧
      listed ⟨(s.handle w .delete target).2, s.config⟩ attackedHost.entity = none := by
  intro w s target
  have hbanned : (s.engine.bans.get? attackedHost.entity).isSome = true := by decide +kernel
  have hnames : Names "10.0.0.1" 32 attackedHost.entity :=
    ⟨.v4 0x0a000001, by decide, by decide, by decide⟩
  obtain ⟨attack, hban⟩ := Option.isSome_iff_exists.1 hbanned
  have hlisted : s.listed attackedHost.entity = some (banJson (attackedHost.entity, attack)) := by
    rw [listed_eq, hban, Option.map_some]
  obtain ⟨-, -, -, hgiven, hagree⟩ := ban_endpoints_agree Target.parse_documented w s
  obtain ⟨hlooks, hlifts⟩ := hagree target "10.0.0.1" 32 (hgiven "10.0.0.1" (by decide) 32)
  have hinvalid := mt hlifts.refuses.invalid.1 hnames.not_noNetwork
  have hmissing : (s.handle w .delete target).1.status ≠ 404 := by
    intro hstatus
    obtain ⟨entity, hentity, hnone⟩ := hlifts.refuses.missing.1 hstatus
    rw [hnames.unique hentity, hlisted] at hnone
    cases hnone
  obtain ⟨-, entity, hentity, hnone, -⟩ := hlifts.lifted hinvalid hmissing
  rw [hnames.unique hentity] at hnone
  exact ⟨Target.parse_documented, _, hlisted, hlooks.reached _ _ hnames hlisted, hnone⟩

end Service

end Api

end FloodGuard

import FloodGuard.Proofs.CheckTable
import FloodGuard.Proofs.AnnouncerAgreement
import FloodGuard.Proofs.BanLifetime
import FloodGuard.Proofs.ReflectorMajority

/-!
The rules that the announcer is asked to announce and to withdraw. Every one of them is the rule
against an attack that some cycle banned a free entity for: what a rule is made of is fixed when the
ban starts and stays through refreshed records, retries, lifted bans and pending withdrawals. So a
rule names the banned entity as its destination and at most one protocol. It names a port only for
the reflector behind incoming traffic of a host over UDP, whose port carried most of the bytes when
the ban started.
-/
namespace FloodGuard

theorem Attack.Continues.against_eq {a b : Attack} (h : a.Continues b) (entity : Network)
    (action : Action) : Rule.against entity b action = Rule.against entity a action := by
  rw [h.fixed]
  rfl

namespace Rule

/-- Whether a rule is for the traffic to an entity, of at most one protocol, and picks ports of
origin under UDP only. -/
structure Targets (r : Rule) (entity : Network) (action : Action) : Prop where
  destination : r.destination = some entity
  source : r.source = none
  destinationPorts : r.destinationPorts = []
  fragmentation : r.fragmentation = []
  action : r.action = action
  protocols : r.protocols.length ≤ 1
  sourcePorts : r.sourcePorts ≠ [] → r.protocols = [.udp]

/-- The rule against an attack is such a rule unless a reflector was found behind an attack over
another protocol than UDP. -/
theorem targets_against {attack : Attack}
    (h : ∀ reflector, attack.reflector = some reflector →
      attack.protocol = 0 ∨ attack.protocol = Protocol.udp)
    (entity : Network) (action : Action) :
    (against entity attack action).Targets entity action := by
  unfold against
  cases hreflector : attack.reflector with
  | none =>
    have hlength : (Transport.ofProtocol? attack.protocol).toList.length ≤ 1 := by
      cases Transport.ofProtocol? attack.protocol <;> simp
    exact ⟨rfl, rfl, rfl, rfl, rfl, hlength, absurd rfl⟩
  | some reflector =>
    have hprotocols : (if .udp ∈ (Transport.ofProtocol? attack.protocol).toList then
        (Transport.ofProtocol? attack.protocol).toList
        else (Transport.ofProtocol? attack.protocol).toList ++ [.udp]) = [.udp] := by
      rcases h reflector hreflector with hprotocol | hprotocol <;> rw [hprotocol] <;> decide
    simp only [hprotocols]
    exact ⟨rfl, rfl, rfl, rfl, rfl, Nat.le_refl 1, fun _ => rfl⟩

theorem mem_sourcePorts_against {entity : Network} {attack : Attack} {action : Action}
    {port : UInt16} (h : port ∈ (against entity attack action).sourcePorts) :
    ∃ reflector, attack.reflector = some reflector ∧ reflector.port = port := by
  unfold against at h
  cases hreflector : attack.reflector with
  | none => simp [hreflector] at h
  | some reflector =>
    simp only [hreflector, List.mem_singleton] at h
    exact ⟨reflector, rfl, h.symm⟩

end Rule

/-- The dimensions of all traffic and of UDP. -/
def Dimension.overUdp : List Dimension :=
  [.packets .all, .bandwidth .all, .flows, .packets .udp, .bandwidth .udp]

theorem Dimension.mem_overUdp {d : Dimension} (h : d.protocol = 0 ∨ d.protocol = Protocol.udp) :
    d ∈ overUdp := by
  rcases d with (_ | _) | (_ | _) | _ <;> revert h <;> decide

namespace Engine

/-- Whether all rules of an engine's requests and pending withdrawals are known for an entity. -/
structure Within (e : Engine) (known : Network → Rule → Prop) : Prop where
  pending : ∀ entry ∈ e.pending, known entry.1 entry.2
  requests : ∀ x ∈ e.exchanges, ∃ entity, known entity x.request.rule

section

variable {known : Network → Rule → Prop} {e : Engine}

theorem Within.mono {more : Network → Rule → Prop} (h : e.Within known)
    (hmore : ∀ entity rule, known entity rule → more entity rule) : e.Within more where
  pending entry hentry := hmore _ _ (h.pending entry hentry)
  requests x hx := (h.requests x hx).imp fun entity => hmore entity _

theorem Within.exchange (h : e.Within known) (w : World) {entity : Network} {request : Request}
    (hrule : known entity request.rule) : (e.exchange w request).Within known where
  pending := h.pending
  requests x hx := by
    rcases List.mem_append.1 hx with hold | hnew
    · exact h.requests x hold
    · rw [List.mem_singleton.1 hnew]
      exact ⟨entity, hrule⟩

theorem Within.withdraw (h : e.Within known) (w : World) {entity : Network} {rule : Rule}
    (hrule : known entity rule) : (e.withdraw w entity rule).Within known := by
  have hasked : (e.exchange w (.withdraw rule)).Within known := h.exchange w hrule
  cases hf : e.failure? w (.withdraw rule) with
  | none =>
    rw [withdraw_of_success hf]
    exact hasked
  | some reason =>
    rw [withdraw_of_failure hf]
    refine ⟨fun entry hentry => ?_, hasked.requests⟩
    rcases List.mem_append.1 hentry with hold | hnew
    · exact h.pending entry hold
    · rw [List.mem_singleton.1 hnew]
      exact hrule

theorem Within.announce (h : e.Within known) (w : World) {entity : Network} {attack : Attack}
    (hrule : known entity (e.ruleFor entity attack)) :
    (e.announce w entity attack).Within known := by
  have hasked : (e.exchange w (.announce (e.ruleFor entity attack))).Within known :=
    h.exchange w hrule
  cases hf : e.failure? w (.announce (e.ruleFor entity attack)) with
  | none =>
    rw [announce_of_success hf]
    exact ⟨fun entry hentry => h.pending entry (List.mem_filter.1 hentry).1, hasked.requests⟩
  | some reason =>
    rw [announce_of_failure hf]
    exact hasked

theorem Within.assure (h : e.Within known) (w : World) {entity : Network} {attack : Attack}
    (hrule : known entity (e.ruleFor entity attack)) :
    (e.assure w entity attack).Within known := by
  unfold Engine.assure
  split
  · exact h
  · exact h.announce w hrule

theorem Within.release (h : e.Within known) (w : World) {entry : Network × Attack}
    (hrule : known entry.1 (e.ruleFor entry.1 entry.2)) : (e.release w entry).Within known := by
  unfold Engine.release
  split
  · exact h.withdraw w hrule
  · exact h

theorem Within.foldl_withdraw (h : e.Within known) (w : World)
    {entries : List (Network × Rule)} (hentries : ∀ entry ∈ entries, known entry.1 entry.2) :
    (entries.foldl (fun f entry => f.withdraw w entry.1 entry.2) e).Within known :=
  List.foldlRecOn entries (fun (f : Engine) entry => f.withdraw w entry.1 entry.2)
    (motive := fun f => f.Within known) h
    fun _ hf entry hentry => hf.withdraw w (hentries entry hentry)

theorem Within.retry (h : e.Within known) (w : World) : (e.retry w).Within known := by
  have hnone : (e.withPending []).Within known := ⟨by simp [withPending], h.requests⟩
  exact hnone.foldl_withdraw w h.pending

/-- An observation leads to requests for the rule of the ban that it leaves. -/
theorem Within.react (h : e.Within known) (w : World) (now : UInt64) {o : Observation}
    (hbanned : ∀ a, (e.react w now o).bans.get? o.entity = some a →
      known o.entity (e.ruleFor o.entity a)) : (e.react w now o).Within known := by
  cases hban : e.bans.get? o.entity with
  | none =>
    cases hcharge : e.charge? o with
    | none =>
      rw [react_of_uncharged hban hcharge]
      exact h
    | some charge =>
      rw [react_of_charged hban hcharge] at hbanned ⊢
      obtain ⟨b, hb, hab⟩ := carries_announce w (e.startBan w o charge.1 charge.2 now) o.entity
        (e.newAttack w o charge.1 charge.2 now) o.entity _ (BanList.get?_put_self _ _ _)
      have hrule := hbanned b hb
      rw [ruleFor, hab.against_eq] at hrule
      have hstarted : (e.startBan w o charge.1 charge.2 now).Within known := ⟨h.pending, h.requests⟩
      exact hstarted.announce w hrule
  | some a =>
    cases hfound : e.lookup o.entity.address with
    | none =>
      rw [react_of_unmonitored hfound]
      exact h
    | some found =>
      rw [react_of_banned hfound hban] at hbanned ⊢
      obtain ⟨b, hb, hab⟩ := carries_assure w (e.withBan o.entity (a.refresh o.average)) o.entity
        (a.refresh o.average) o.entity _ (BanList.get?_put_self _ _ _)
      have hrule := hbanned b hb
      rw [ruleFor, hab.against_eq] at hrule
      have hrefreshed : (e.withBan o.entity (a.refresh o.average)).Within known :=
        ⟨h.pending, h.requests⟩
      exact hrefreshed.assure w hrule

/-- Observations lead to requests for the rules of the bans that they leave: no ban ends among
them, and none changes in what its rule is made of. -/
theorem Within.foldl_react (h : e.Within known) (w : World) (now : UInt64)
    {observations : List Observation}
    (hbanned : ∀ entity a, (observations.foldl (Engine.react w now) e).bans.get? entity = some a →
      known entity (e.ruleFor entity a)) :
    (observations.foldl (Engine.react w now) e).Within known := by
  induction observations generalizing e with
  | nil => exact h
  | cons o rest ih =>
    have hsame : ∀ entity a, (e.react w now o).ruleFor entity a = e.ruleFor entity a := by
      intro entity a
      rw [ruleFor, ruleFor, (keeps_react w now e o).action]
    refine ih (h.react w now fun a ha => ?_) fun entity a ha => ?_
    · obtain ⟨b, hb, hab⟩ := carries_foldl_react w now rest _ o.entity a ha
      have hrule := hbanned o.entity b hb
      rwa [ruleFor, hab.against_eq] at hrule
    · rw [hsame]
      exact hbanned entity a ha

theorem Within.expire (h : e.Within known) (w : World) (now : UInt64)
    (hbanned : ∀ entity a, e.bans.get? entity = some a → known entity (e.ruleFor entity a)) :
    (e.expire w now).Within known := by
  have hswept : e.Keeps { e with bans := e.bans.sweep now } := keeps_withBans e _
  have hfold : e.Keeps (e.expire w now) ∧ (e.expire w now).Within known := by
    unfold Engine.expire
    refine List.foldlRecOn (e.bans.over now) (Engine.release w)
      (motive := fun f => e.Keeps f ∧ f.Within known) ⟨hswept, h.pending, h.requests⟩ ?_
    intro f hf entry hentry
    obtain ⟨hkeeps, hwithin⟩ := hf
    refine ⟨hkeeps.trans (keeps_release w f entry), hwithin.release w ?_⟩
    rw [ruleFor, hkeeps.action]
    exact hbanned entry.1 entry.2 ((BanList.mem_over_iff _ _ _ _).1 hentry).1
  exact hfold.2

end

/-- Whether one of some operations is a cycle that, begun in a state, bans a free entity for an
attack. -/
def Starts (w : World) (e : Engine) (ops : List Operation) (state : Engine) (entity : Network)
    (b : Attack) : Prop :=
  ∃ before observations now after, ops = before ++ .cycle observations now :: after ∧
    state = e.run w before ∧ state.bans.get? entity = none ∧
    (state.detect w observations now).engine.bans.get? entity = some b

theorem Starts.append {w : World} {e : Engine} {ops : List Operation} {state : Engine}
    {entity : Network} {b : Attack} (h : e.Starts w ops state entity b) (more : List Operation) :
    e.Starts w (ops ++ more) state entity b := by
  obtain ⟨before, observations, now, after, rfl, hstate⟩ := h
  exact ⟨before, observations, now, after ++ more, by simp, hstate⟩

/-- Whether a rule is the one against an attack that a cycle of a run started a ban for. -/
def Accounts (w : World) (e : Engine) (ops : List Operation) (entity : Network) (rule : Rule) :
    Prop :=
  ∃ state b, e.Starts w ops state entity b ∧ rule = Rule.against entity b e.action

/-- Whether a run accounts for the rules of all bans, requests and pending withdrawals. -/
structure Accounted (w : World) (e : Engine) (ops : List Operation) : Prop where
  action : (e.run w ops).action = e.action
  bans : ∀ entity a, (e.run w ops).bans.get? entity = some a →
    e.Accounts w ops entity (Rule.against entity a e.action)
  within : (e.run w ops).Within (e.Accounts w ops)

section

variable {w : World} {e : Engine} {ops : List Operation}

theorem accounted_nil (w : World) (c : Config) : (fresh c).Accounted w [] where
  action := rfl
  bans entity a ha := by
    have hnone : (fresh c).bans.get? entity = none := Std.ExtTreeMap.getElem?_empty
    rw [run_nil, hnone] at ha
    simp at ha
  within := ⟨by simp [run_nil, fresh, ofConfig], by simp [run_nil, fresh, ofConfig]⟩

theorem Accounts.append {entity : Network} {rule : Rule} (h : e.Accounts w ops entity rule)
    (more : List Operation) : e.Accounts w (ops ++ more) entity rule := by
  obtain ⟨state, b, hstarts, hrule⟩ := h
  exact ⟨state, b, hstarts.append more, hrule⟩

/-- The bans in a cycle are those from before, and those that it starts. -/
theorem Accounted.detect (h : e.Accounted w ops) (observations : List Observation) (now : UInt64)
    {entity : Network} {a : Attack}
    (ha : ((e.run w ops).detect w observations now).engine.bans.get? entity = some a) :
    e.Accounts w (ops ++ [.cycle observations now]) entity (Rule.against entity a e.action) := by
  cases hbefore : (e.run w ops).bans.get? entity with
  | none => exact ⟨_, a, ⟨ops, observations, now, [], rfl, rfl, hbefore, ha⟩, rfl⟩
  | some old =>
    obtain ⟨b, hb, hold⟩ := carries_detect w (e.run w ops) observations now entity old hbefore
    obtain rfl : b = a := Option.some.inj (hb.symm.trans ha)
    rw [hold.against_eq]
    exact (h.bans entity old hbefore).append _

theorem Accounted.cycle (h : e.Accounted w ops) (observations : List Observation) (now : UInt64) :
    e.Accounted w (ops ++ [.cycle observations now]) := by
  have hdetect := keeps_detect w (e.run w ops) observations now
  have hexpire := keeps_expire w now ((e.run w ops).detect w observations now).engine
  have hstep : e.run w (ops ++ [.cycle observations now]) =
      ((e.run w ops).runCycle w observations now).engine := run_concat w e ops _
  refine ⟨?_, fun entity a ha => ?_, ?_⟩
  · rw [hstep, runCycle_engine]
    exact (hdetect.trans hexpire).action.trans h.action
  · rw [hstep, runCycle_get?] at ha
    exact h.detect observations now (Option.filter_eq_some_iff.1 ha).1
  · have hrules : ∀ f : Engine, (e.run w ops).Keeps f → ∀ entity a,
        ((e.run w ops).detect w observations now).engine.bans.get? entity = some a →
          e.Accounts w (ops ++ [.cycle observations now]) entity (f.ruleFor entity a) := by
      intro f hf entity a ha
      rw [ruleFor, hf.action, h.action]
      exact h.detect observations now ha
    have hretried := (h.within.mono fun entity rule hrule =>
      hrule.append [.cycle observations now]).retry w
    have hreacted : ((e.run w ops).detect w observations now).engine.Within
        (e.Accounts w (ops ++ [.cycle observations now])) := by
      rw [detect_engine] at hrules ⊢
      exact hretried.foldl_react w now (hrules _ (keeps_retry w _))
    have hexpired := hreacted.expire w now (hrules _ hdetect)
    rw [hstep, runCycle_engine]
    exact ⟨hexpired.pending, hexpired.requests⟩

theorem Accounted.unban (h : e.Accounted w ops) (entity : Network) :
    e.Accounted w (ops ++ [.unban entity]) := by
  have hstep : e.run w (ops ++ [.unban entity]) = ((e.run w ops).unban w entity).2 :=
    run_concat w e ops _
  have hbefore := h.within.mono fun _ _ hrule => hrule.append [.unban entity]
  refine ⟨?_, fun other a ha => ?_, ?_⟩
  · rw [hstep, unban_snd]
    split
    · exact (keeps_lift w _ _).action.trans h.action
    · exact h.action
  · rw [hstep, unban_get?] at ha
    split at ha
    · simp at ha
    · exact (h.bans other a ha).append _
  · rw [hstep, unban_snd]
    cases hban : (e.run w ops).bans.get? entity with
    | none => exact hbefore
    | some a =>
      have hlifted : ((e.run w ops).withoutBan entity).Within
          (e.Accounts w (ops ++ [.unban entity])) := ⟨hbefore.pending, hbefore.requests⟩
      have hrule := (h.bans entity a hban).append [.unban entity]
      rw [← h.action] at hrule
      exact hlifted.release w hrule

/-- An operation that neither bans nor asks for anything leaves all accounts as they are. -/
theorem Accounted.quiet (h : e.Accounted w ops) {op : Operation}
    (haction : ((e.run w ops).step w op).action = (e.run w ops).action)
    (hbans : ((e.run w ops).step w op).bans = (e.run w ops).bans)
    (hpending : ((e.run w ops).step w op).pending = (e.run w ops).pending)
    (hexchanges : ((e.run w ops).step w op).exchanges = (e.run w ops).exchanges) :
    e.Accounted w (ops ++ [op]) := by
  have hbefore := h.within.mono fun _ _ hrule => hrule.append [op]
  refine ⟨?_, ?_, ?_⟩
  · rw [run_concat, haction, h.action]
  · intro entity a ha
    rw [run_concat, hbans] at ha
    exact (h.bans entity a ha).append _
  · rw [run_concat]
    exact ⟨fun entry hentry => hbefore.pending entry (hpending ▸ hentry),
      fun x hx => hbefore.requests x (hexchanges ▸ hx)⟩

theorem Accounted.step (h : e.Accounted w ops) (op : Operation) : e.Accounted w (ops ++ [op]) := by
  cases op with
  | cycle observations now => exact h.cycle observations now
  | unban entity => exact h.unban entity
  | reload c => exact h.quiet rfl rfl rfl rfl
  | record key bytes now => exact h.quiet rfl rfl rfl rfl
  | sweepSessions now window => exact h.quiet rfl rfl rfl rfl

end

theorem accounted_run (w : World) (c : Config) (ops : List Operation) :
    (fresh c).Accounted w ops := by
  induction ops using List.reverseRecOn with
  | nil => exact accounted_nil w c
  | append_singleton ops op ih => exact ih.step op

/-- What a cycle bans an entity for: a detected dimension with its protocol, and the reflector that
the sessions show at that moment. -/
theorem StartedBy.detected {e : Engine} {o : Observation} {now : UInt64} {b : Attack}
    (h : e.StartedBy o now b) :
    (∃ d, b.dimension = some d ∧ b.protocol = d.protocol) ∧
      ∃ order, b.reflector = e.reflectorBehind order o.entity b := by
  obtain ⟨breach, context, order, drawn, hcharge, hab⟩ := h
  obtain ⟨found, -, hcharge⟩ := Option.bind_eq_some_iff.1 hcharge
  obtain ⟨revealed, hevaluate, hcontext⟩ := Option.bind_eq_some_iff.1 hcharge
  rw [Settings.evaluate_eq] at hevaluate
  obtain ⟨check, -, rfl⟩ := Option.map_eq_some_iff.1 hevaluate
  split at hcontext
  · obtain ⟨rfl, -⟩ := Prod.mk.inj (Option.some.inj hcontext)
    rw [hab.fixed]
    exact ⟨⟨check.1, rfl, rfl⟩, order, rfl⟩
  · simp at hcontext

theorem Starts.detected {w : World} {e : Engine} {ops : List Operation} {state : Engine}
    {entity : Network} {b : Attack} (h : e.Starts w ops state entity b) :
    (∃ d, b.dimension = some d ∧ b.protocol = d.protocol) ∧
      ∃ order, b.reflector = state.reflectorBehind order entity b := by
  obtain ⟨before, observations, now, after, -, -, hfree, hb⟩ := h
  obtain ⟨o, -, rfl, hstarted⟩ := startedBy_of_detect hfree hb
  exact hstarted.detected

theorem of_reflectorBehind {e : Engine} {order : ReflectorOrder} {entity : Network} {b : Attack}
    {reflector : Reflector} (h : e.reflectorBehind order entity b = some reflector) :
    entity.isHost = true ∧ b.direction = .incoming ∧
      (b.protocol = 0 ∨ b.protocol = Protocol.udp) ∧
      e.sessions.reflectorOf entity.address order = some reflector := by
  unfold reflectorBehind at h
  split at h
  · rename_i hgate
    exact ⟨hgate.1, hgate.2.1, hgate.2.2, h⟩
  · simp at h

/-- Every request of a run is for the rule against an attack that a cycle of the run banned a free
entity for, and an announcement for that of the ban in force. The rule has the entity as its
destination, the action of the engine and at most one protocol. A port of origin stands in it under
UDP only, when a host was banned for incoming traffic as a whole or over UDP, and more than half of
the bytes over UDP to the host came from this port when the ban started. -/
theorem requested_rule_targets (w : World) (c : Config) (ops : List Operation) (x : Exchange)
    (hx : x ∈ ((fresh c).run w ops).exchanges) :
    ∃ state entity b, (fresh c).Starts w ops state entity b ∧
      x.request.rule = Rule.against entity b c.detection.action.action ∧
      (∀ rule, x.request = .announce rule → ∃ a, x.standing = some a ∧
        rule = Rule.against entity a c.detection.action.action) ∧
      x.request.rule.Targets entity c.detection.action.action ∧
      ∀ port ∈ x.request.rule.sourcePorts,
        x.request.rule.protocols = [.udp] ∧ entity.isHost = true ∧ b.direction = .incoming ∧
          (∃ d ∈ Dimension.overUdp, b.dimension = some d) ∧
          ∀ visited, state.sessions.Visits entity.address SessionTable.reflected visited →
            SessionTable.bytesIn visited ≤ Saturating.largest →
            SessionTable.bytesIn visited < 2 * SessionTable.bytesOver visited port := by
  obtain ⟨entity, state, b, hstarts, hrule⟩ := (accounted_run w c ops).within.requests x hx
  obtain ⟨⟨d, hdimension, hprotocol⟩, order, hreflector⟩ := hstarts.detected
  have hbehind : ∀ reflector, b.reflector = some reflector →
      state.reflectorBehind order entity b = some reflector := fun reflector h => hreflector ▸ h
  have htargets : x.request.rule.Targets entity c.detection.action.action := by
    rw [hrule]
    exact Rule.targets_against (fun reflector h => (of_reflectorBehind (hbehind _ h)).2.2.1) _ _
  refine ⟨state, entity, b, hstarts, hrule, ?_, htargets, ?_⟩
  · intro rule hannounce
    have hagrees := invariant_run (fun _ _ hmove => Move.agrees (w := w) hmove) (agrees_fresh c) ops
    obtain ⟨before, after, hsplit⟩ := List.append_of_mem hx
    have horder := hagrees.ordered before x after hsplit
    rw [Exchange.InOrder, hannounce] at horder
    obtain ⟨other, a, hstanding, -, hagainst⟩ := horder
    rw [(accounted_run w c ops).action] at hagainst
    have hdestination := htargets.destination
    rw [hannounce, Request.rule, hagainst, Rule.destination_against] at hdestination
    exact ⟨a, hstanding, Option.some.inj hdestination ▸ hagainst⟩
  · intro port hport
    have hudp := htargets.sourcePorts (List.ne_nil_of_mem hport)
    rw [hrule] at hport
    obtain ⟨reflector, hsome, rfl⟩ := Rule.mem_sourcePorts_against hport
    obtain ⟨hhost, hdirection, hnumber, hreflects⟩ := of_reflectorBehind (hbehind _ hsome)
    refine ⟨hudp, hhost, hdirection, ⟨d, Dimension.mem_overUdp (hprotocol ▸ hnumber), hdimension⟩,
      ?_⟩
    intro visited hvisits hfits
    exact (SessionTable.reflectorOf_eq_some_iff hvisits hfits order reflector).1 hreflects

theorem requested_rule_targets_of_dns_answers :
    let w := World.obliging fun _ => .ok .nil
    let answers : SessionKey := ⟨.v4 0x0a000001, SessionTable.reflected, ⟨0x08080808, 53, 4000⟩⟩
    let ops := [Operation.record answers 800 5, .cycle [attackedHost] 7, .cycle [] 67]
    ∃ x ∈ ((fresh minuteBans).run w ops).exchanges, x.request.rule.sourcePorts = [53] ∧
      x.request.rule.protocols = [.udp] ∧
      ∃ state entity b, (fresh minuteBans).Starts w ops state entity b ∧
        x.request.rule.destination = some entity ∧ entity.isHost = true ∧
        b.direction = .incoming := by
  intro w answers ops
  have hmem : ∃ x ∈ ((fresh minuteBans).run w ops).exchanges,
      x.request.rule.sourcePorts = [53] := by decide +kernel
  obtain ⟨x, hx, hports⟩ := hmem
  obtain ⟨state, entity, b, hstarts, -, -, htargets, hall⟩ :=
    requested_rule_targets w minuteBans ops x hx
  obtain ⟨hudp, hhost, hdirection, -⟩ := hall 53 (by rw [hports]; exact List.mem_singleton_self _)
  exact ⟨x, hx, hports, hudp, state, entity, b, hstarts, htargets.destination, hhost, hdirection⟩

end Engine

end FloodGuard

import FloodGuard.Api
import FloodGuard.Proofs.AddressText
import FloodGuard.Proofs.Arrangement
import FloodGuard.Proofs.ReflectorMajority
import FloodGuard.Proofs.SessionLedger

/-!
The largest sessions of a kind. They are the front of an arrangement, by their bytes, of all
sessions that the ledger has of the host and of the kind. Each is listed once, with its counters and
with the remote end that its packets were recorded for, and so it is shown to those who ask for it.
-/
namespace FloodGuard

/-- Whether an object shows a session under its remote end. -/
structure Json.ShowsSession (object : Json) (endpoint : Endpoint) (session : Session) : Prop where
  remote : ∃ text, object.member? "remote_address" = some (.str text) ∧
    Address.parse? text = some (.v4 endpoint.remote)
  remotePort : object.member? "remote_port" = some (.int endpoint.remotePort.toNat)
  localPort : object.member? "local_port" = some (.int endpoint.localPort.toNat)
  bytes : object.member? "bytes" = some (.int session.bytes.toNat)
  packets : object.member? "packets" = some (.int session.packets.toNat)
  lastSeen : object.member? "last_update_time" = some (.int session.lastSeen.toNat)

namespace Api

theorem showsSession_sessionJson (entry : Endpoint × Session) :
    (sessionJson entry).ShowsSession entry.1 entry.2 where
  remote := ⟨_, by simp [sessionJson, Json.member?, Json.lookup],
    Address.parse?_text (.v4 entry.1.remote)⟩
  remotePort := by simp [sessionJson, Json.member?, Json.lookup, toJson, Json.ofNat]
  localPort := by simp [sessionJson, Json.member?, Json.lookup, toJson, Json.ofNat]
  bytes := by simp [sessionJson, Json.member?, Json.lookup, toJson, Json.ofNat]
  packets := by simp [sessionJson, Json.member?, Json.lookup, toJson, Json.ofNat]
  lastSeen := by simp [sessionJson, Json.member?, Json.lookup, toJson, Json.ofNat]

/-- Who asks for the largest sessions of a host is shown them in their order. -/
theorem topSessions_shows (s : Service) {text : String} {host : Address}
    (h : Address.parse? text = some host) (kind : SessionKind) (limit : Nat) :
    ∃ objects, s.topSessions text kind limit = .ok (.arr objects) ∧
      List.Forall₂ (fun object entry => object.ShowsSession entry.1 entry.2) objects
        (s.engine.sessions.top host kind limit) := by
  refine ⟨(s.engine.sessions.top host kind limit).map sessionJson, ?_, ?_⟩
  · rw [Service.topSessions, address, h]
    rfl
  · rw [List.forall₂_map_left_iff, List.forall₂_same]
    exact fun entry _ => showsSession_sessionJson entry

end Api

namespace SessionTable

section Visits

variable {t : SessionTable} {host : Address} {kind : SessionKind}
  {visited others : List (Endpoint × Session)}

theorem Visits.of_perm (h : t.Visits host kind visited) (hperm : others.Perm visited) :
    t.Visits host kind others where
  nodup := hperm.nodup_iff.2 h.nodup
  mem_iff endpoint session := hperm.mem_iff.trans (h.mem_iff endpoint session)

/-- A remote end has one session of a kind. -/
theorem Visits.nodup_endpoints (h : t.Visits host kind visited) :
    (visited.map Prod.fst).Nodup := by
  refine h.nodup.map_on ?_
  intro entry hentry other hother heq
  have hfirst := (h.mem_iff entry.1 entry.2).1 hentry
  have hsecond := (h.mem_iff other.1 other.2).1 hother
  rw [heq, hsecond] at hfirst
  exact Prod.ext heq (Option.some.inj hfirst).symm

theorem Visits.length_eq_ncard (h : t.Visits host kind visited) :
    visited.length = {endpoint | (t.get? ⟨host, kind, endpoint⟩).isSome}.ncard := by
  have hset : {endpoint | (t.get? ⟨host, kind, endpoint⟩).isSome} =
      ↑(visited.map Prod.fst).toFinset := by
    ext endpoint
    simp [Option.isSome_iff_exists, h.mem_iff]
  rw [hset, Set.ncard_coe_finset, List.toFinset_card_of_nodup h.nodup_endpoints, List.length_map]

end Visits

variable (t : SessionTable) (host : Address) (kind : SessionKind)

/-- All sessions of a kind, those with the most bytes in front. -/
def ranked : List (Endpoint × Session) :=
  (t.listed host kind).mergeSort fun a b => b.2.bytes ≤ a.2.bytes

theorem arranged_ranked :
    Arranged (fun entry => entry.2.bytes) (t.listed host kind) (t.ranked host kind) :=
  arranged_mergeSort (fun entry : Endpoint × Session => entry.2.bytes) (t.listed host kind)

/-- Unpacking the remote ends before sorting comes to the same as unpacking them afterwards. -/
theorem top_eq_take_ranked (limit : Nat) :
    t.top host kind limit = (t.ranked host kind).take limit := by
  have hsorted : ((t.ofKind host kind).mergeSort fun a b => decide (b.2.bytes ≤ a.2.bytes)).map
      (fun entry => (Endpoint.unpack entry.1, entry.2)) = t.ranked host kind :=
    List.map_mergeSort fun _ _ _ _ => rfl
  rw [← hsorted, ← List.map_take]
  rfl

theorem visits_ranked : t.Visits host kind (t.ranked host kind) :=
  (t.visits_listed host kind).of_perm (t.arranged_ranked host kind).perm

/-- After any events the largest sessions of a kind of a host are as many as the limit allows of
those that the table has, which are those with packets since they were dropped last. Each is listed
once, under the remote end of its packets and with what they add up to. Their bytes never increase
along the list, and no session that is left out has more bytes than a listed one. Who asks for them
is shown each in its place, with its remote end and its counters. -/
theorem top_largest (events : List SessionEvent) (host : Address) (kind : SessionKind)
    (limit : Nat) :
    let t := after events
    let packets := fun endpoint => Packet.sinceDropped ⟨host, kind, endpoint⟩ events
    let top := t.top host kind limit
    (∀ endpoint, t.get? ⟨host, kind, endpoint⟩ = Packet.session? (packets endpoint)) ∧
      top.length = min limit {endpoint | (t.get? ⟨host, kind, endpoint⟩).isSome}.ncard ∧
      top.length = min limit {endpoint | packets endpoint ≠ []}.ncard ∧
      (top.map Prod.fst).Nodup ∧
      (∀ endpoint session, (endpoint, session) ∈ top →
        t.get? ⟨host, kind, endpoint⟩ = some session ∧
          Packet.session? (packets endpoint) = some session) ∧
      top.Pairwise (fun a b => b.2.bytes ≤ a.2.bytes) ∧
      (∀ endpoint session, t.get? ⟨host, kind, endpoint⟩ = some session →
        endpoint ∉ top.map Prod.fst → ∀ entry ∈ top, session.bytes ≤ entry.2.bytes) ∧
      ∀ (s : Api.Service) (text : String), s.engine.sessions = t →
        Address.parse? text = some host →
          ∃ objects, s.topSessions text kind limit = .ok (.arr objects) ∧
            List.Forall₂ (fun object entry => object.ShowsSession entry.1 entry.2) objects top := by
  intro t packets top
  have hvisits := t.visits_ranked host kind
  have harranged := t.arranged_ranked host kind
  have htop : top = (t.ranked host kind).take limit := t.top_eq_take_ranked host kind limit
  have hledger : ∀ endpoint,
      t.get? ⟨host, kind, endpoint⟩ = Packet.session? (packets endpoint) :=
    fun endpoint => get?_after events ⟨host, kind, endpoint⟩
  have hlength : top.length =
      min limit {endpoint | (t.get? ⟨host, kind, endpoint⟩).isSome}.ncard := by
    rw [htop, List.length_take, hvisits.length_eq_ncard]
  refine ⟨hledger, hlength, ?_, ?_, ?_, ?_, ?_, ?_⟩
  · simp only [hlength, hledger, Packet.session?_isSome_iff]
  · rw [htop, List.map_take]
    exact hvisits.nodup_endpoints.sublist (List.take_sublist _ _)
  · intro endpoint session hmem
    rw [htop] at hmem
    have hget := (hvisits.mem_iff endpoint session).1 (List.mem_of_mem_take hmem)
    exact ⟨hget, (hledger endpoint).symm.trans hget⟩
  · rw [htop]
    exact harranged.falling.sublist (List.take_sublist _ _)
  · intro endpoint session hget hout entry hentry
    have hlisted := ((t.visits_listed host kind).mem_iff endpoint session).2 hget
    rw [htop] at hentry hout
    refine harranged.le_of_mem_take hentry hlisted ?_
    exact fun hmem => hout (List.mem_map_of_mem hmem)
  · intro s text hsessions htext
    have hshown := Api.topSessions_shows s htext kind limit
    rw [hsessions] at hshown
    exact hshown

/-- Packets of four sessions of a host. The third is dropped, the first has two packets. -/
def fourSessions : List SessionEvent :=
  [.record ⟨.v4 0x0a000001, reflected, ⟨1, 53, 4000⟩⟩ 500 5,
    .record ⟨.v4 0x0a000001, reflected, ⟨2, 80, 4001⟩⟩ 200 5,
    .record ⟨.v4 0x0a000001, reflected, ⟨3, 19, 4002⟩⟩ 900 1,
    .record ⟨.v4 0x0a000001, reflected, ⟨1, 53, 4000⟩⟩ 100 6,
    .sweep 10 6,
    .record ⟨.v4 0x0a000001, reflected, ⟨4, 123, 4003⟩⟩ 700 11]

theorem top_fourSessions (limit : Nat) :
    (after fourSessions).top (.v4 0x0a000001) reflected limit =
      [(⟨4, 123, 4003⟩, ⟨700, 1, 11⟩), (⟨1, 53, 4000⟩, ⟨600, 2, 6⟩),
        (⟨2, 80, 4001⟩, ⟨200, 1, 5⟩)].take limit := by
  have hlisted : (after fourSessions).listed (.v4 0x0a000001) reflected =
      [(⟨1, 53, 4000⟩, ⟨600, 2, 6⟩), (⟨2, 80, 4001⟩, ⟨200, 1, 5⟩),
        (⟨4, 123, 4003⟩, ⟨700, 1, 11⟩)] := by decide +kernel
  rw [top_eq_take_ranked, ranked, hlisted]
  simp [List.mergeSort]

theorem top_largest_of_fourSessions :
    let s : Api.Service :=
      ⟨{ (Engine.ofConfig {}).1 with sessions := after fourSessions }, {}⟩
    {endpoint | Packet.sinceDropped ⟨.v4 0x0a000001, reflected, endpoint⟩ fourSessions ≠
        []}.ncard = 3 ∧
      ∃ first second, s.topSessions "10.0.0.1" reflected 2 = .ok (.arr [first, second]) ∧
        first.ShowsSession ⟨4, 123, 4003⟩ ⟨700, 1, 11⟩ ∧
        second.ShowsSession ⟨1, 53, 4000⟩ ⟨600, 2, 6⟩ := by
  intro s
  obtain ⟨-, -, hall, -⟩ := top_largest fourSessions (.v4 0x0a000001) reflected 4
  obtain ⟨-, -, -, -, -, -, -, hshown⟩ :=
    top_largest fourSessions (.v4 0x0a000001) reflected 2
  obtain ⟨objects, hobjects, hrows⟩ := hshown s "10.0.0.1" rfl (by decide)
  rw [top_fourSessions] at hall hrows
  refine ⟨?_, ?_⟩
  · simp only [List.take_succ_cons, List.take_nil, List.length_cons, List.length_nil] at hall
    omega
  · cases hrows with
    | cons hfirst hrest =>
      cases hrest with
      | cons hsecond hnil =>
        cases hnil
        exact ⟨_, _, hobjects, hfirst, hsecond⟩

end SessionTable

end FloodGuard

import FloodGuard.Proofs.SessionSweep
import Mathlib.Data.Set.Card

/-!
The table of sessions as a ledger. After any packets and sweeps a session is in the table just if a
packet of it was recorded since it was dropped last, with the bytes and the number of those packets,
cut off at the largest counter, and the time of the latest one. The sizes of the table are the
numbers of such sessions, and of the hosts that have one.
-/
namespace FloodGuard

/-- What happens to a table of sessions. -/
inductive SessionEvent where
  | record (key : SessionKey) (bytes now : UInt64)
  | sweep (now window : UInt64)

/-- A packet that was recorded for a session. -/
structure Packet where
  bytes : UInt64
  time : UInt64

namespace Packet

/-- Whether a sweep drops the session that has these packets. -/
def idle (packets : List Packet) (now window : UInt64) : Bool :=
  packets.getLast?.any fun last => last.time.toNat < now.toNat - window.toNat

/-- The packets of a session after an event, none if the event drops it. -/
def next (key : SessionKey) (packets : List Packet) : SessionEvent → List Packet
  | .record other bytes now => if other = key then packets ++ [⟨bytes, now⟩] else packets
  | .sweep now window => if idle packets now window then [] else packets

/-- The packets of a session that were recorded since it was dropped last. -/
def sinceDropped (key : SessionKey) (events : List SessionEvent) : List Packet :=
  events.foldl (next key) []

/-- What the table has of a session with these packets, if there are any. -/
def session? (packets : List Packet) : Option Session :=
  packets.getLast?.map fun last =>
    { bytes := Saturating.clamp (packets.map fun packet => packet.bytes.toNat).sum
      packets := Saturating.clamp packets.length
      lastSeen := last.time }

theorem session?_isSome_iff (packets : List Packet) :
    (session? packets).isSome ↔ packets ≠ [] := by
  simp [session?]

theorem session?_concat (packets : List Packet) (bytes now : UInt64) :
    session? (packets ++ [⟨bytes, now⟩]) =
      some (((session? packets).getD {}).count bytes now) := by
  have hbytes : ((session? packets).getD {}).bytes =
      Saturating.clamp (packets.map fun packet => packet.bytes.toNat).sum := by
    cases packets using List.reverseRecOn with
    | nil => rfl
    | append_singleton => simp [session?]
  have hpackets : ((session? packets).getD {}).packets = Saturating.clamp packets.length := by
    cases packets using List.reverseRecOn with
    | nil => rfl
    | append_singleton => simp [session?]
  rw [Session.count, hbytes, hpackets, Saturating.add_clamp, Saturating.add_clamp]
  simp [session?]

theorem filter_session? (packets : List Packet) (now window : UInt64) :
    (session? packets).filter
        (fun session => now.toNat - window.toNat ≤ session.lastSeen.toNat) =
      session? (if idle packets now window then [] else packets) := by
  cases hlast : packets.getLast? with
  | none => simp [session?, idle, hlast]
  | some last =>
    have hidle : idle packets now window =
        decide (last.time.toNat < now.toNat - window.toNat) := by
      rw [idle, hlast]
      rfl
    rw [hidle, session?, hlast, Option.map_some, Option.filter_some]
    simp only [decide_eq_true_eq]
    by_cases hold : last.time.toNat < now.toNat - window.toNat
    · rw [if_neg (Nat.not_le.2 hold), if_pos hold]
      rfl
    · rw [if_pos (Nat.not_lt.1 hold), if_neg hold, session?, hlast, Option.map_some]

end Packet

namespace SessionTable

def apply (t : SessionTable) : SessionEvent → SessionTable
  | .record key bytes now => t.record key bytes now
  | .sweep now window => (t.evict now window).2

/-- An empty table after some events. -/
def after (events : List SessionEvent) : SessionTable := events.foldl apply {}

theorem get?_empty (key : SessionKey) : ({} : SessionTable).get? key = none := by
  have hhost : ({} : SessionTable).host? key.host = none := Std.ExtTreeMap.getElem?_empty
  rw [get?, hhost]
  rfl

/-- An event changes the packets that the table stands for. -/
theorem get?_apply {t : SessionTable} {key : SessionKey} {packets : List Packet}
    (h : t.get? key = Packet.session? packets) (event : SessionEvent) :
    (t.apply event).get? key = Packet.session? (Packet.next key packets event) := by
  cases event with
  | record other bytes now =>
    rw [apply, get?_record, Packet.next]
    split
    · rename_i heq
      rw [Packet.session?_concat, ← h, heq]
    · exact h
  | sweep now window => rw [apply, get?_evict, h, Packet.filter_session?, Packet.next]

theorem get?_foldl_apply {t : SessionTable} {key : SessionKey} {packets : List Packet}
    (h : t.get? key = Packet.session? packets) (events : List SessionEvent) :
    (events.foldl apply t).get? key = Packet.session? (events.foldl (Packet.next key) packets) := by
  induction events generalizing t packets with
  | nil => exact h
  | cons event rest ih => exact ih (get?_apply h event)

theorem get?_after (events : List SessionEvent) (key : SessionKey) :
    (after events).get? key = Packet.session? (Packet.sinceDropped key events) :=
  get?_foldl_apply (get?_empty key) events

/-- Whether every host that is tracked has a session. -/
def Tight (t : SessionTable) : Prop :=
  ∀ host sessions, t.host? host = some sessions → ¬ sessions.isEmpty

theorem Tight.apply {t : SessionTable} (h : t.Tight) (event : SessionEvent) :
    (t.apply event).Tight := by
  intro host sessions hhost
  cases event with
  | record key bytes now =>
    rw [SessionTable.apply, host?_record] at hhost
    split at hhost
    · obtain rfl := Option.some.inj hhost
      intro hempty
      have hnone := (HostSessions.isEmpty_iff _).1 hempty key.kind key.endpoint
      simp [HostSessions.get?_record] at hnone
    · exact h host sessions hhost
  | sweep now window =>
    rw [SessionTable.apply, host?_evict] at hhost
    obtain ⟨before, -, hkept⟩ := Option.bind_eq_some_iff.1 hhost
    unfold HostSessions.kept? at hkept
    split at hkept
    · simp at hkept
    · rename_i hnot
      rwa [← Option.some.inj hkept]

theorem tight_after (events : List SessionEvent) : (after events).Tight := by
  induction events using List.reverseRecOn with
  | nil =>
    intro host sessions hhost
    simp [after, host?] at hhost
  | append_singleton events event ih =>
    rw [after, List.foldl_append]
    exact ih.apply event

/-- Just the hosts with a session are tracked. -/
theorem Tight.mem_hosts_iff {t : SessionTable} (h : t.Tight) (host : Address) :
    host ∈ t.hosts ↔ ∃ key : SessionKey, key.host = host ∧ (t.get? key).isSome := by
  rw [hosts, Std.ExtTreeMap.mem_keys, Std.ExtTreeMap.mem_iff_isSome_getElem?]
  constructor
  · intro htracked
    obtain ⟨sessions, hsessions⟩ := Option.isSome_iff_exists.1 htracked
    have hnot := h host sessions hsessions
    simp only [HostSessions.isEmpty_iff, not_forall] at hnot
    obtain ⟨kind, endpoint, hne⟩ := hnot
    have hhost : t.host? host = some sessions := hsessions
    refine ⟨⟨host, kind, endpoint⟩, rfl, ?_⟩
    rw [get?, hhost]
    exact Option.isSome_iff_ne_none.2 hne
  · intro hpresent
    obtain ⟨key, rfl, hsome⟩ := hpresent
    cases hhost : t.host? key.host with
    | none => simp [get?, hhost] at hsome
    | some sessions =>
      have htracked : t.tracked[key.host]? = some sessions := hhost
      rw [htracked]
      rfl

/-- After any events a session is in the table just if a packet of it was recorded since it was
dropped last, with the bytes and the number of those packets, cut off at the largest counter, and
the time of the latest one; packets of another session do not matter. A sweep drops just the
sessions that were last seen before its window and counts them. The size is the number of sessions,
and the hosts with a session are tracked. -/
theorem table_is_ledger (events : List SessionEvent) :
    let t := after events
    let packets := fun key => Packet.sinceDropped key events
    (∀ key, t.get? key = Packet.session? (packets key)) ∧
      (∀ key, (t.get? key).isSome ↔ packets key ≠ []) ∧
      (∀ key other bytes now, key ≠ other →
        (t.record key bytes now).get? other = t.get? other) ∧
      (∀ now window,
        (∀ key, (t.evict now window).2.get? key =
          (t.get? key).filter fun session =>
            now.toNat - window.toNat ≤ session.lastSeen.toNat) ∧
        (t.evict now window).1 =
          {key | ∃ session, t.get? key = some session ∧
            session.lastSeen.toNat < now.toNat - window.toNat}.ncard ∧
        t.size = (t.evict now window).1 + (t.evict now window).2.size) ∧
      t.size = {key | packets key ≠ []}.ncard ∧
      (∀ host, host ∈ t.hosts ↔ ∃ key : SessionKey, key.host = host ∧ packets key ≠ []) ∧
      t.hosts.length = {host | ∃ key : SessionKey, key.host = host ∧ packets key ≠ []}.ncard := by
  intro t packets
  have hentry : ∀ key, t.get? key = Packet.session? (packets key) := get?_after events
  have hpresent : ∀ key, (t.get? key).isSome ↔ packets key ≠ [] := by
    intro key
    rw [hentry, Packet.session?_isSome_iff]
  have hhosts : ∀ host, host ∈ t.hosts ↔
      ∃ key : SessionKey, key.host = host ∧ packets key ≠ [] := by
    intro host
    simp only [(tight_after events).mem_hosts_iff, ← hpresent, t]
  refine ⟨hentry, hpresent, ?_, ?_, ?_, hhosts, ?_⟩
  · intro key other bytes now hne
    rw [get?_record, if_neg hne]
  · intro now window
    exact ⟨t.get?_evict now window, t.evict_fst_eq_ncard now window,
      (t.total_evict now window).symm⟩
  · rw [size_eq_ncard]
    simp only [hpresent]
  · have hset : {host | ∃ key : SessionKey, key.host = host ∧ packets key ≠ []} =
        ↑t.hosts.toFinset := by
      ext host
      simp [← hhosts]
    have hnodup : t.hosts.Nodup := Std.ExtTreeMap.nodup_keys
    rw [hset, Set.ncard_coe_finset, List.toFinset_card_of_nodup hnodup]

end SessionTable

end FloodGuard

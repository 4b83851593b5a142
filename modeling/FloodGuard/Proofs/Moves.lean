import FloodGuard.Proofs.Runs
import Mathlib.Logic.Relation

/-!
Every operation as a sequence of small moves, each with at most one request to the announcer. A
cycle takes all pending withdrawals off before it retries the first, and sweeps all bans away before
it withdraws the first rule; the moves take them one after the other instead, with the same requests
in the same order, and arrive at the same engine. An invariant of the moves is one of all runs.
-/
namespace FloodGuard.Engine

/-- The moves of an engine. `retry` takes the first pending withdrawal, which goes to the end of the
queue if it fails again; `turn` is everything that concerns neither bans nor the announcer. -/
inductive Move (w : World) : Engine → Engine → Prop
  | retry (e : Engine) (entry : Network × Rule) (rest : List (Network × Rule))
      (hpending : e.pending = entry :: rest) :
      Move w e ((e.withPending rest).withdraw w entry.1 entry.2)
  | refresh (e : Engine) (entity : Network) (a : Attack) (average : Counters)
      (hbanned : e.bans.get? entity = some a) :
      Move w e (e.withBan entity (a.refresh average))
  | start (e : Engine) (o : Observation) (breach : Breach) (context : BanContext) (now : UInt64)
      (hfree : e.bans.get? o.entity = none) (hcharge : e.charge? o = some (breach, context)) :
      Move w e (e.startBan w o breach context now)
  | announce (e : Engine) (entity : Network) (a : Attack)
      (hbanned : e.bans.get? entity = some a) (hopen : a.announced = false) :
      Move w e (e.announce w entity a)
  | lift (e : Engine) (entity : Network) (a : Attack)
      (hbanned : e.bans.get? entity = some a) :
      Move w e (e.lift w (entity, a))
  | turn (e : Engine) (table : GroupTable) (policies : Policies) (traffic : TrafficView)
      (sessions : SessionTable) :
      Move w e { e with table, policies, traffic, sessions }

abbrev Moves (w : World) : Engine → Engine → Prop := Relation.ReflTransGen (Move w)

theorem assure_moves (w : World) {e : Engine} {entity : Network} {a : Attack}
    (h : e.bans.get? entity = some a) : Moves w e (e.assure w entity a) := by
  unfold assure
  split
  · exact .refl
  · rename_i hopen
    exact .single (.announce e entity a h (by simpa using hopen))

theorem react_moves (w : World) (now : UInt64) (e : Engine) (o : Observation) :
    Moves w e (e.react w now o) := by
  unfold react
  split
  · exact .refl
  · split
    · rename_i a hbanned
      exact .head (.refresh e o.entity a o.average hbanned)
        (assure_moves w (BanList.get?_put_self _ _ _))
    · rename_i hfree
      split
      · rename_i breach context hcharge
        exact .head (.start e o breach context now hfree hcharge)
          (.single (.announce _ o.entity _ (BanList.get?_put_self _ _ _) rfl))
      · exact .refl

theorem foldl_moves {α : Type} {w : World} {f : Engine → α → Engine}
    (hf : ∀ e x, Moves w e (f e x)) (xs : List α) (e : Engine) : Moves w e (xs.foldl f e) :=
  List.foldlRecOn xs f .refl fun g hg x _ => hg.trans (hf g x)

/-- Withdrawing a rule in front of a queue leaves the rest of the queue in front. -/
theorem withPending_withdraw (w : World) (e : Engine) (entry : Network × Rule)
    (rest : List (Network × Rule)) :
    (e.withPending (rest ++ e.pending)).withdraw w entry.1 entry.2 =
      (e.withdraw w entry.1 entry.2).withPending
        (rest ++ (e.withdraw w entry.1 entry.2).pending) := by
  cases h : e.failure? w (.withdraw entry.2) with
  | none =>
    have hqueue : (e.withPending (rest ++ e.pending)).failure? w (.withdraw entry.2) = none := h
    rw [withdraw_of_success h, withdraw_of_success hqueue]
    rfl
  | some reason =>
    have hqueue : (e.withPending (rest ++ e.pending)).failure? w (.withdraw entry.2) =
        some reason := h
    rw [withdraw_of_failure h, withdraw_of_failure hqueue]
    simp only [withPending, List.append_assoc]
    rfl

/-- The entries that are still to be retried count as the front of the queue. -/
theorem foldl_withdraw_moves (w : World) (entries : List (Network × Rule)) (e : Engine) :
    Moves w (e.withPending (entries ++ e.pending))
      (entries.foldl (fun f entry => f.withdraw w entry.1 entry.2) e) := by
  induction entries generalizing e with
  | nil => exact .refl
  | cons entry rest ih =>
    -- The entry is the front of the queue; if it fails again it joins the end, behind the rest.
    have hmove := Move.retry (w := w) (e.withPending (entry :: rest ++ e.pending)) entry
      (rest ++ e.pending) rfl
    have hnext : ((e.withPending (entry :: rest ++ e.pending)).withPending
        (rest ++ e.pending)).withdraw w entry.1 entry.2 =
          (e.withdraw w entry.1 entry.2).withPending
            (rest ++ (e.withdraw w entry.1 entry.2).pending) := withPending_withdraw w e entry rest
    rw [hnext] at hmove
    exact .head hmove (ih _)

theorem retry_moves (w : World) (e : Engine) : Moves w e (e.retry w) := by
  have h := foldl_withdraw_moves w e.pending (e.withPending [])
  have hsame : (e.withPending []).withPending (e.pending ++ (e.withPending []).pending) = e := by
    simp [withPending]
  rwa [hsame] at h

theorem withBans_withdraw {w : World} {e : Engine} {bans : BanList} {rule : Rule}
    (h : (e.withBans bans).standing rule = e.standing rule) (entity : Network) :
    (e.withBans bans).withdraw w entity rule = (e.withdraw w entity rule).withBans bans := by
  have hasked : (e.withBans bans).exchange w (.withdraw rule) =
      (e.exchange w (.withdraw rule)).withBans bans := by
    simp only [exchange, Request.rule, h]
    rfl
  cases hf : e.failure? w (.withdraw rule) with
  | none =>
    have hbans : (e.withBans bans).failure? w (.withdraw rule) = none := hf
    rw [withdraw_of_success hf, withdraw_of_success hbans, hasked]
  | some reason =>
    have hbans : (e.withBans bans).failure? w (.withdraw rule) = some reason := hf
    rw [withdraw_of_failure hf, withdraw_of_failure hbans, hasked]
    rfl

/-- A rule is released alike with two lists of bans of which neither bans its destination. -/
theorem withBans_release (w : World) {e : Engine} {bans : BanList} {entry : Network × Attack}
    (hbans : bans.get? entry.1 = none) (he : e.bans.get? entry.1 = none) :
    (e.withBans bans).release w entry = (e.release w entry).withBans bans := by
  unfold release
  split
  · apply withBans_withdraw
    rw [standing_ruleFor, standing_ruleFor, he]
    exact hbans
  · rfl

/-- The bans that are still to be lifted count as active. -/
theorem foldl_release_moves (w : World) (entries : List (Network × Attack)) (e : Engine)
    (bans : BanList) (hnodup : (entries.map Prod.fst).Nodup)
    (hbanned : ∀ entry ∈ entries, bans.get? entry.1 = some entry.2)
    (hlifted : entries.foldl (fun m entry => m.unban entry.1) bans = e.bans) :
    Moves w (e.withBans bans) (entries.foldl (release w) e) := by
  induction entries generalizing e bans with
  | nil =>
    rw [List.foldl_nil] at hlifted
    rw [hlifted]
    exact .refl
  | cons entry rest ih =>
    -- Neither list bans the entity any more, so the record of the request is the same with both.
    rw [List.map_cons, List.nodup_cons] at hnodup
    have hmove := Move.lift (w := w) (e.withBans bans) entry.1 entry.2
      (hbanned entry List.mem_cons_self)
    have hgone : e.bans.get? entry.1 = none := by
      rw [← hlifted, List.foldl_cons, BanList.get?_foldl_unban, BanList.get?_unban_self, ite_self]
    have hnext : (e.withBans bans).lift w entry =
        (e.release w entry).withBans (bans.unban entry.1) :=
      withBans_release w (BanList.get?_unban_self _ _) hgone
    rw [hnext] at hmove
    refine .head hmove (ih _ _ hnodup.2 ?_ ?_)
    · intro other hother
      rw [BanList.get?_unban, if_neg]
      · exact hbanned other (List.mem_cons_of_mem _ hother)
      · intro heq
        exact hnodup.1 (heq ▸ List.mem_map_of_mem hother)
    · rw [release_bans]
      exact hlifted

theorem expire_moves (w : World) (now : UInt64) (e : Engine) : Moves w e (e.expire w now) := by
  have h := foldl_release_moves w (e.bans.over now) { e with bans := e.bans.sweep now } e.bans
    (BanList.nodup_over e.bans now)
    (fun entry hentry => ((BanList.mem_over_iff e.bans now entry.1 entry.2).1 hentry).1)
    (BanList.foldl_unban_over e.bans now)
  exact h

theorem runCycle_moves (w : World) (e : Engine) (observations : List Observation)
    (now : UInt64) : Moves w e (e.runCycle w observations now).engine := by
  rw [runCycle_engine, detect_engine]
  have hretry := retry_moves w e
  have hreact := foldl_moves (react_moves w now) observations (e.retry w)
  have hexpire := expire_moves w now (observations.foldl (react w now) (e.retry w))
  exact ((hretry.trans hreact).trans hexpire).tail (.turn _ _ _ _ _)

theorem step_moves (w : World) (e : Engine) (op : Operation) : Moves w e (e.step w op) := by
  cases op with
  | cycle observations now => exact runCycle_moves w e observations now
  | unban entity =>
    simp only [step, unban_snd]
    cases h : e.bans.get? entity with
    | none => exact .refl
    | some a => exact .single (.lift e entity a h)
  | reload c => exact .single (.turn e _ _ _ _)
  | record key bytes now => exact .single (.turn e _ _ _ _)
  | sweepSessions now window => exact .single (.turn e _ _ _ _)

theorem run_moves (w : World) (e : Engine) (ops : List Operation) : Moves w e (e.run w ops) :=
  foldl_moves (step_moves w) ops e

/-- What every move preserves holds after every run. -/
theorem invariant_run {w : World} {P : Engine → Prop}
    (hmove : ∀ e f, Move w e f → P e → P f) {e : Engine} (he : P e) (ops : List Operation) :
    P (e.run w ops) := by
  have hmoves := run_moves w e ops
  generalize e.run w ops = f at hmoves
  induction hmoves with
  | refl => exact he
  | tail _ hlast ih => exact hmove _ _ hlast ih

end FloodGuard.Engine

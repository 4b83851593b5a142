import FloodGuard.Proofs.CycleSteps
import Mathlib.Data.List.Induction

/-!
Runs of the engine: cycles, bans lifted by hand, reloads of the configuration and sessions recorded
and dropped, in any order. A run is the fold of its operations over the engine, so what holds after
every run holds after every operation of it. The configuration in force is the one loaded last, and
the action is the one that the engine was made with.
-/
namespace FloodGuard

/-- What can be done with an engine. -/
inductive Operation where
  | cycle (observations : List Observation) (now : UInt64)
  | unban (entity : Network)
  | reload (config : Config)
  | record (key : SessionKey) (bytes now : UInt64)
  | sweepSessions (now window : UInt64)

namespace Engine

/-- An engine that nothing has been done with yet. -/
def fresh (c : Config) : Engine := (ofConfig c).1

def step (w : World) (e : Engine) : Operation → Engine
  | .cycle observations now => (e.runCycle w observations now).engine
  | .unban entity => (e.unban w entity).2
  | .reload c => (e.reload c).1
  | .record key bytes now => e.record key bytes now
  | .sweepSessions now window => e.sweepSessions now window

def run (w : World) (e : Engine) (ops : List Operation) : Engine := ops.foldl (step w) e

theorem run_nil (w : World) (e : Engine) : e.run w [] = e := rfl

theorem run_cons (w : World) (e : Engine) (op : Operation) (ops : List Operation) :
    e.run w (op :: ops) = (e.step w op).run w ops := rfl

theorem run_append (w : World) (e : Engine) (ops more : List Operation) :
    e.run w (ops ++ more) = (e.run w ops).run w more := List.foldl_append

theorem run_concat (w : World) (e : Engine) (ops : List Operation) (op : Operation) :
    e.run w (ops ++ [op]) = (e.run w ops).step w op := by
  rw [run_append, run_cons, run_nil]

end Engine

/-- The configuration that is in force after some operations. -/
def Config.after (c : Config) (ops : List Operation) : Config :=
  ops.foldl (fun loaded op => match op with
    | .reload new => new
    | _ => loaded) c

namespace Engine

/-- Whether a configuration is the one in force. -/
structure Runs (e : Engine) (c : Config) : Prop where
  table : e.table = (GroupTable.load (c.allGroups globalGroup)).1
  policies : e.policies = .ofConfig c

theorem runs_fresh (c : Config) : (fresh c).Runs c := ⟨rfl, rfl⟩

theorem Runs.keeps {e f : Engine} {c : Config} (h : e.Runs c) (hkeeps : e.Keeps f) : f.Runs c :=
  ⟨hkeeps.table.trans h.table, hkeeps.policies.trans h.policies⟩

theorem Runs.step {e : Engine} {c : Config} (h : e.Runs c) (w : World) (op : Operation) :
    (e.step w op).Runs (c.after [op]) := by
  cases op with
  | cycle observations now =>
    have hkeeps := (keeps_detect w e observations now).trans (keeps_expire w now _)
    simp only [Engine.step, runCycle_engine]
    exact ⟨hkeeps.table.trans h.table, hkeeps.policies.trans h.policies⟩
  | unban entity =>
    simp only [Engine.step, unban_snd]
    split
    · exact h.keeps (keeps_lift w e _)
    · exact h
  | reload new => exact ⟨rfl, rfl⟩
  | record key bytes now => exact ⟨h.table, h.policies⟩
  | sweepSessions now window => exact ⟨h.table, h.policies⟩

/-- In every run the configuration in force is the one loaded last. -/
theorem runs_run (w : World) (c : Config) (ops : List Operation) :
    ((fresh c).run w ops).Runs (c.after ops) := by
  induction ops using List.reverseRecOn with
  | nil => exact runs_fresh c
  | append_singleton ops op ih =>
    rw [run_concat, Config.after, List.foldl_append]
    exact ih.step w op

end Engine

/-- A configuration of one network whose hosts are banned for a minute. -/
def minuteBans : Config :=
  { networks := ["10.0.0.0/8"]
    settings :=
      { enableBan := true
        packets := ⟨{ enabled := true, threshold := 100 }, {}, {}, {}, {}⟩ }
    detection := { banTime := 60 } }

/-- A host of this network under attack. -/
def attackedHost : Observation where
  entity := .host (.v4 0x0a000001)
  current := { total := { inPackets := 5000 } }
  average := { total := { inPackets := 5000 } }

end FloodGuard

import Mathlib.Tactic

/-!
# Machines

A machine is a set of initial states and a partial step function: the step of
an action at a state, if the action is possible there. All nondeterminism (the
scheduling of threads and processes, the answers of the environment) is in the
choice of the actions, so that a machine can be executed on a list of actions
(`Machine.exec`) as well as reasoned about:

* `Machine.Reachable`: the states some run leads to, with the rule for
  invariants (`Reachable.invariant`);
* `Machine.Run`: a run with its trace, the states it steps from and the actions
  it takes there, for properties of the steps of a run rather than of its last
  state alone. A run extends at its end, so that an induction on it peels off
  the last step (`Run.invariant`).
-/

namespace Cmqtt

/-- A machine with states `σ` and actions `α`. -/
structure Machine (σ α : Type*) where
  /-- The initial states. -/
  init : σ → Prop
  /-- The state after an action, where the action is possible. -/
  step : σ → α → Option σ

namespace Machine

variable {σ α : Type*} (m : Machine σ α)

/-- The states reachable from an initial state. -/
inductive Reachable : σ → Prop
  | init {s : σ} : m.init s → Reachable s
  | step {s s' : σ} {a : α} : Reachable s → m.step s a = some s' → Reachable s'

/-- A run from `s` with its trace: every step with the state it is taken at. -/
inductive Run (s : σ) : List (σ × α) → σ → Prop
  | nil : Run s [] s
  | snoc {tr : List (σ × α)} {t u : σ} {a : α} :
      Run s tr t → m.step t a = some u → Run s (tr ++ [(t, a)]) u

/-- The execution of a list of actions, as long as they are possible. -/
def exec (s : σ) : List α → Option σ
  | [] => some s
  | a :: as => (m.step s a).bind fun t => exec t as

/-- The trace of an execution. -/
def trace (s : σ) : List α → List (σ × α)
  | [] => []
  | a :: as => (s, a) :: (m.step s a).elim [] fun t => trace t as

variable {m}

/-- What holds initially, and is preserved by every step, holds of every
    reachable state. -/
theorem Reachable.invariant {P : σ → Prop} {s : σ} (hs : m.Reachable s)
    (hinit : ∀ s, m.init s → P s)
    (hstep : ∀ s a s', m.Reachable s → P s → m.step s a = some s' → P s') : P s := by
  induction hs with
  | init h => exact hinit _ h
  | step hs h ih => exact hstep _ _ _ hs ih h

/-- A run from an initial state leads to a reachable state. -/
theorem Run.reachable {s t : σ} {tr : List (σ × α)} (h : m.Run s tr t) (hs : m.init s) :
    m.Reachable t := by
  induction h with
  | nil => exact .init hs
  | snoc _ hst ih => exact .step ih hst

/-- What holds of the empty run, and is preserved when a run takes one more
    step, holds of every run from an initial state. -/
theorem Run.invariant {P : List (σ × α) → σ → Prop} {s t : σ} {tr : List (σ × α)}
    (h : m.Run s tr t) (hs : m.init s) (hinit : P [] s)
    (hstep : ∀ tr t a u, m.Reachable t → P tr t → m.step t a = some u →
      P (tr ++ [(t, a)]) u) : P tr t := by
  induction h with
  | nil => exact hinit
  | snoc h hst ih => exact hstep _ _ _ _ (h.reachable hs) ih hst

theorem Run.append {s t u : σ} {tr tr' : List (σ × α)} (h : m.Run s tr t)
    (h' : m.Run t tr' u) : m.Run s (tr ++ tr') u := by
  induction h' with
  | nil => simpa using h
  | snoc _ hst ih => exact List.append_assoc tr _ _ ▸ ih.snoc hst

/-- An execution is a run. -/
theorem run_of_exec {s t : σ} {as : List α} (h : m.exec s as = some t) :
    m.Run s (m.trace s as) t := by
  induction as generalizing s with
  | nil =>
    obtain rfl : s = t := by simpa [exec] using h
    exact .nil
  | cons a as ih =>
    obtain ⟨s', hs', h⟩ := Option.bind_eq_some_iff.1 h
    simp only [trace, hs', Option.elim_some]
    exact (Run.nil.snoc hs').append (ih h)

theorem reachable_of_exec {s t : σ} {as : List α} (hs : m.init s) (h : m.exec s as = some t) :
    m.Reachable t :=
  (run_of_exec h).reachable hs

end Machine

end Cmqtt

import Cmqtt.Machine
import Mathlib.Logic.Function.Basic

/-!
# Interleaved processes

Processes come and go, and share resources. A process uses one resource all its
life: a step of it changes its own state and that resource, or ends it. The
machine (`Processes.machine`) interleaves the steps of any number of processes.

The rule for invariants (`Processes.invariant`) is in the manner of rely and
guarantee. A proof gives what holds of a process and its resource (`Live`), and
what holds of a process and a resource it does not use (`Away`). A step then is
looked at alone: it establishes the former for the process that takes it, and
the others rely on both being stable under it.
-/

namespace Cmqtt

/-- The processes of a kind: `ι` are their names, `σ` their states, `κ` the names
    of resources and `ρ` their states, `β` what a process is started with, `α` what
    it does. -/
structure Processes (ι κ σ ρ β α : Type*) where
  /-- The resource a process uses. -/
  resource : σ → κ
  /-- The state of a process started. -/
  start : ι → β → Option σ
  /-- A step of a process: `none` for its state ends it. -/
  step : ι → σ → ρ → α → Option (Option σ × ρ)

namespace Processes

variable {ι κ σ ρ β α : Type*}

/-- The processes alive, and the resources. -/
structure State (ι κ σ ρ : Type*) where
  proc : ι → Option σ
  res : κ → ρ

/-- A process is started, or one takes a step. -/
inductive Action (ι β α : Type*)
  | start (i : ι) (b : β)
  | step (i : ι) (a : α)

variable [DecidableEq ι] [DecidableEq κ] (P : Processes ι κ σ ρ β α)

/-- The step of the machine of all processes. -/
def next (s : State ι κ σ ρ) : Action ι β α → Option (State ι κ σ ρ)
  | .start i b =>
    match s.proc i, P.start i b with
    | none, some l => some { s with proc := Function.update s.proc i (some l) }
    | _, _ => none
  | .step i a =>
    match s.proc i with
    | none => none
    | some l =>
      (P.step i l (s.res (P.resource l)) a).map fun (l', r) =>
        ⟨Function.update s.proc i l', Function.update s.res (P.resource l) r⟩

/-- The machine of all processes, from no process and resources as given. -/
def machine (init : ρ → Prop) : Machine (State ι κ σ ρ) (Action ι β α) where
  init s := (∀ i, s.proc i = none) ∧ ∀ k, init (s.res k)
  step := P.next

/-- What is claimed of a process `i`, if it is alive, and the resources. -/
def Holds (Live : ι → σ → ρ → Prop) (Away : ι → ρ → Prop) (s : State ι κ σ ρ) (i : ι) : Prop :=
  (∀ l, s.proc i = some l → Live i l (s.res (P.resource l))) ∧
    ∀ k, (∀ l, s.proc i = some l → P.resource l ≠ k) → Away i (s.res k)

variable {P} {Live : ι → σ → ρ → Prop} {Away : ι → ρ → Prop} {init : ρ → Prop}
  {s s' : State ι κ σ ρ} {i j : ι}

theorem next_step {c : α} {l : σ} {o : Option σ} {r : ρ} (hi : s.proc i = some l)
    (hc : P.step i l (s.res (P.resource l)) c = some (o, r)) :
    P.next s (.step i c) =
      some ⟨Function.update s.proc i o, Function.update s.res (P.resource l) r⟩ := by
  simp only [next, hi, hc, Option.map_some]

/-- What a step of the machine does. -/
theorem next_cases {a : Action ι β α} (h : P.next s a = some s') :
    (∃ i b l, a = .start i b ∧ s.proc i = none ∧ P.start i b = some l ∧
      s' = { s with proc := Function.update s.proc i (some l) }) ∨
    (∃ i c l o r, a = .step i c ∧ s.proc i = some l ∧
      P.step i l (s.res (P.resource l)) c = some (o, r) ∧
      s' = ⟨Function.update s.proc i o, Function.update s.res (P.resource l) r⟩) := by
  obtain ⟨i, b⟩ | ⟨i, c⟩ := a
  · simp only [next] at h
    split at h
    next l hi hl => exact .inl ⟨i, b, l, rfl, hi, hl, (Option.some.inj h).symm⟩
    next => cases h
  · simp only [next] at h
    split at h
    next => cases h
    next l hi =>
      obtain ⟨⟨o, r⟩, hc, rfl⟩ := Option.map_eq_some_iff.1 h
      exact .inr ⟨i, c, l, o, r, rfl, hi, hc, rfl⟩

/-- What a step of the machine does to a process. -/
theorem proc_cases {a : Action ι β α} (h : P.next s a = some s') (i : ι) :
    s'.proc i = s.proc i ∨
    (∃ b l, P.start i b = some l ∧ s'.proc i = some l) ∨
    (∃ c l o r, s.proc i = some l ∧ P.step i l (s.res (P.resource l)) c = some (o, r) ∧
      s'.proc i = o) := by
  obtain ⟨j, b, l, rfl, -, hl, rfl⟩ | ⟨j, c, l, o, r, rfl, hj, hc, rfl⟩ := next_cases h <;>
    rcases eq_or_ne i j with rfl | hne
  · exact .inr (.inl ⟨b, l, hl, Function.update_self ..⟩)
  · exact .inl (Function.update_of_ne hne ..)
  · exact .inr (.inr ⟨c, l, o, r, hj, hc, Function.update_self ..⟩)
  · exact .inl (Function.update_of_ne hne ..)

omit [DecidableEq κ] in
/-- A process started: it did not use any resource. -/
theorem holds_start {l : σ} (h : P.Holds Live Away s i) (hi : s.proc i = none)
    (hl : ∀ r, Away i r → Live i l r) :
    P.Holds Live Away { s with proc := Function.update s.proc i (some l) } i := by
  have haway : ∀ k, Away i (s.res k) := fun k => h.2 k fun l hl => nomatch hi.symm.trans hl
  refine ⟨fun l' hl' => ?_, fun k _ => haway k⟩
  simp only [Function.update_self, Option.some.injEq] at hl'
  exact hl' ▸ hl _ (haway _)

/-- The process that takes a step. -/
theorem holds_self {l : σ} {o : Option σ} {r : ρ} (h : P.Holds Live Away s i)
    (hi : s.proc i = some l) (hlive : ∀ l', o = some l' → P.resource l' = P.resource l ∧ Live i l' r)
    (hend : o = none → Away i r) :
    P.Holds Live Away ⟨Function.update s.proc i o, Function.update s.res (P.resource l) r⟩ i := by
  have hother : ∀ k, k ≠ P.resource l → Away i (s.res k) := fun k hk =>
    h.2 k fun l' hl' => Option.some.inj (hi.symm.trans hl') ▸ hk.symm
  refine ⟨?_, ?_⟩
  · intro l' hl'
    obtain ⟨hres, hl'⟩ := hlive l' (by simpa using hl')
    simpa [hres] using hl'
  · intro k hk
    -- a resource it does not use: the one it has left, or another one
    rcases eq_or_ne k (P.resource l) with rfl | hne
    · rcases ho : o with _ | l'
      · simpa using hend ho
      · exact absurd (hlive l' ho).1 (hk l' (by simpa using ho))
    · simpa [Function.update_of_ne hne] using hother k hne

/-- A process that relies on the step of another one. -/
theorem holds_other {l : σ} {o : Option σ} {r : ρ} (h : P.Holds Live Away s j) (hne : j ≠ i)
    (hlive : ∀ l', Live j l' (s.res (P.resource l)) → Live j l' r)
    (haway : Away j (s.res (P.resource l)) → Away j r) :
    P.Holds Live Away ⟨Function.update s.proc i o, Function.update s.res (P.resource l) r⟩ j := by
  simp only [Holds, Function.update_of_ne hne]
  refine ⟨?_, ?_⟩
  · intro l' hl'
    rcases eq_or_ne (P.resource l') (P.resource l) with heq | hk
    · rw [heq, Function.update_self]
      exact hlive l' (heq ▸ h.1 l' hl')
    · rw [Function.update_of_ne hk]
      exact h.1 l' hl'
  · intro k hk
    rcases eq_or_ne k (P.resource l) with rfl | hk'
    · rw [Function.update_self]
      exact haway (h.2 _ hk)
    · rw [Function.update_of_ne hk']
      exact h.2 k hk

/-- The rule for invariants: every process keeps its part, and the others'. -/
theorem invariant (hs : (P.machine init).Reachable s) (hinit : ∀ i r, init r → Away i r)
    (hstart : ∀ i b l r, P.start i b = some l → Away i r → Live i l r)
    (hlive : ∀ i l r c l' r', Live i l r → P.step i l r c = some (some l', r') →
      P.resource l' = P.resource l ∧ Live i l' r')
    (hend : ∀ i l r c r', Live i l r → P.step i l r c = some (none, r') → Away i r')
    (hstable : ∀ i j l r c o r', j ≠ i → Live i l r → P.step i l r c = some (o, r') →
      (∀ l', Live j l' r → Live j l' r') ∧ (Away j r → Away j r')) (i : ι) :
    P.Holds Live Away s i := by
  induction hs generalizing i with
  | init h => exact ⟨fun l hl => (nomatch (h.1 i).symm.trans hl), fun k _ => hinit i _ (h.2 k)⟩
  | step _ h ih =>
    obtain ⟨j, b, l, -, hj, hl, rfl⟩ | ⟨j, c, l, o, r, -, hj, hc, rfl⟩ := next_cases h <;>
      rcases eq_or_ne i j with rfl | hne
    · exact holds_start (ih i) hj fun r => hstart i b l r hl
    · simpa only [Holds, Function.update_of_ne hne] using ih i
    · have hl := (ih i).1 l hj
      exact holds_self (ih i) hj (fun l' ho => hlive i l _ c l' r hl (ho ▸ hc))
        fun ho => hend i l _ c r hl (ho ▸ hc)
    · obtain ⟨h₁, h₂⟩ := hstable j i l _ c o r hne ((ih j).1 l hj) hc
      exact holds_other (ih i) hne h₁ h₂

end Processes

end Cmqtt

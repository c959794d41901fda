import Mathlib.Tactic

/-!
# Programs and their environment

A program that uses a library calls it and goes on with what the library
returns, and prints messages on the way (`Prog`). The library is an environment
(`Env`): the answer to a request may depend on all requests made so far and
their answers, but not on what is printed.

An execution (`Prog.run`) gives a value and the requests made, with their
answers. It is described in two steps:

* the program follows one of its paths (`Prog.Path`), whatever the answers are;
  the paths of a program are found by going through it (`path_bind`,
  `path_ask_bind`);
* the answers on the path are those of the environment (`Env.Gives`).

What a program prints has no effect on its executions (`Prog.silent`), neither
on one nor on those of several programs in turn (`runAll`).
-/

namespace Cmqtt

namespace Interaction

variable {Req : Type}

/-- A program that makes requests, answered in `Resp`, and prints messages. -/
inductive Prog (Resp : Req → Type) (Out α : Type)
  | pure (a : α)
  | call (r : Req) (k : Resp r → Prog Resp Out α)
  | out (o : Out) (k : Prog Resp Out α)

/-- A request with its answer. -/
abbrev Event (Resp : Req → Type) := (r : Req) × Resp r

/-- What answers the requests, given those made so far. -/
abbrev Env (Resp : Req → Type) := List (Event Resp) → (r : Req) → Resp r

variable {Resp : Req → Type} {Out α β : Type}

namespace Env

variable (env : Env Resp)

/-- The requests `rs`, made in turn, with their answers. -/
def follow (h : List (Event Resp)) : List Req → List (Event Resp)
  | [] => []
  | r :: rs => ⟨r, env h r⟩ :: follow (h ++ [⟨r, env h r⟩]) rs

/-- The answer to a request made after the requests `rs`. -/
def answer (h : List (Event Resp)) (rs : List Req) (r : Req) : Resp r := env (h ++ env.follow h rs) r

/-- The answers are those of the environment. -/
def Gives (h : List (Event Resp)) : List (Event Resp) → Prop
  | [] => True
  | e :: tr => e.2 = env h e.1 ∧ Gives (h ++ [e]) tr

variable {env}

/-- Answers of the environment are found by making the requests. -/
theorem Gives.eq_follow {h tr : List (Event Resp)} (hg : env.Gives h tr) :
    tr = env.follow h (tr.map (·.1)) := by
  induction tr generalizing h with
  | nil => rfl
  | cons e tr ih =>
    obtain ⟨r, x⟩ := e
    obtain ⟨hx, hg⟩ := hg
    obtain rfl : x = env h r := hx
    exact congrArg _ (ih hg)

theorem Gives.of_append {h tr tr' : List (Event Resp)} (hg : env.Gives h (tr ++ tr')) :
    env.Gives h tr ∧ env.Gives (h ++ tr) tr' := by
  induction tr generalizing h with
  | nil => exact ⟨trivial, by simpa using hg⟩
  | cons e tr ih =>
    obtain ⟨he, hg⟩ := hg
    obtain ⟨hl, hr⟩ := ih hg
    exact ⟨⟨he, hl⟩, by simpa using hr⟩

/-- The answer to a request is the one it gets after those before it. -/
theorem Gives.eq_answer {h u v : List (Event Resp)} {r : Req} {x : Resp r}
    (hg : env.Gives h (u ++ ⟨r, x⟩ :: v)) : x = env.answer h (u.map (·.1)) r := by
  obtain ⟨hl, hx, -⟩ := hg.of_append
  rw [answer, ← hl.eq_follow]
  exact hx

end Env

namespace Prog

protected def bind : Prog Resp Out α → (α → Prog Resp Out β) → Prog Resp Out β
  | .pure a, f => f a
  | .call r k, f => .call r fun x => (k x).bind f
  | .out o k, f => .out o (k.bind f)

instance : Monad (Prog Resp Out) where
  pure := .pure
  bind := .bind

/-- The answer to a request. -/
def ask (r : Req) : Prog Resp Out (Resp r) := .call r .pure

/-- Printing a message. -/
def print (o : Out) : Prog Resp Out Unit := .out o (.pure ())

/-- The execution of a program after the requests `h`: its value, and its requests. -/
def run (env : Env Resp) (h : List (Event Resp)) : Prog Resp Out α → α × List (Event Resp)
  | .pure a => (a, [])
  | .call r k =>
    let o := run env (h ++ [⟨r, env h r⟩]) (k (env h r))
    (o.1, ⟨r, env h r⟩ :: o.2)
  | .out _ k => run env h k

/-- A path through a program: the requests made, with some answers to them, and the value. -/
inductive Path : Prog Resp Out α → List (Event Resp) → α → Prop
  | pure (a : α) : Path (.pure a) [] a
  | call {r : Req} {k : Resp r → Prog Resp Out α} {x : Resp r} {tr : List (Event Resp)} {a : α} :
      Path (k x) tr a → Path (.call r k) (⟨r, x⟩ :: tr) a
  | out {o : Out} {k : Prog Resp Out α} {tr : List (Event Resp)} {a : α} :
      Path k tr a → Path (.out o k) tr a

variable {env : Env Resp} {h tr : List (Event Resp)} {p : Prog Resp Out α} {b : β}

/-- An execution follows a path. -/
theorem path_run (env : Env Resp) (h : List (Event Resp)) (p : Prog Resp Out α) :
    p.Path (p.run env h).2 (p.run env h).1 := by
  induction p generalizing h with
  | pure a => exact .pure a
  | call r k ih => exact .call (ih _ _)
  | out o k ih => exact .out (ih _)

/-- The environment gives the answers in an execution. -/
theorem gives_run (env : Env Resp) (h : List (Event Resp)) (p : Prog Resp Out α) :
    env.Gives h (p.run env h).2 := by
  induction p generalizing h with
  | pure a => trivial
  | call r k ih => exact ⟨rfl, ih _ _⟩
  | out o k ih => exact ih _

/-! ## Paths -/

theorem path_pure {a a' : α} :
    (Pure.pure a : Prog Resp Out α).Path tr a' ↔ tr = [] ∧ a' = a := by
  constructor
  · rintro ⟨-⟩
    exact ⟨rfl, rfl⟩
  · rintro ⟨rfl, rfl⟩
    exact .pure a'

/-- A path through programs in sequence is one through both. -/
theorem path_bind {f : α → Prog Resp Out β} :
    (p >>= f).Path tr b ↔ ∃ a tr₁ tr₂, tr = tr₁ ++ tr₂ ∧ p.Path tr₁ a ∧ (f a).Path tr₂ b := by
  constructor
  · intro hp
    induction p generalizing tr with
    | pure a => exact ⟨a, [], tr, rfl, .pure a, hp⟩
    | call r k ih =>
      cases hp with
      | call hp =>
        obtain ⟨a, tr₁, tr₂, rfl, h₁, h₂⟩ := ih _ hp
        exact ⟨a, _ :: tr₁, tr₂, rfl, .call h₁, h₂⟩
    | out o k ih =>
      cases hp with
      | out hp =>
        obtain ⟨a, tr₁, tr₂, rfl, h₁, h₂⟩ := ih hp
        exact ⟨a, tr₁, tr₂, rfl, .out h₁, h₂⟩
  · rintro ⟨a, tr₁, tr₂, rfl, h₁, h₂⟩
    induction h₁ with
    | pure a => exact h₂
    | call _ ih => exact .call (ih h₂)
    | out _ ih => exact .out (ih h₂)

theorem path_ask_bind {r : Req} {f : Resp r → Prog Resp Out β} :
    (ask r >>= f).Path tr b ↔ ∃ x tr', tr = ⟨r, x⟩ :: tr' ∧ (f x).Path tr' b := by
  constructor
  · intro hp
    cases hp with
    | call hp => exact ⟨_, _, rfl, hp⟩
  · rintro ⟨x, tr', rfl, hp⟩
    exact .call hp

theorem path_print_bind {o : Out} {f : Unit → Prog Resp Out β} :
    (print o >>= f).Path tr b ↔ (f ()).Path tr b := by
  constructor
  · intro hp
    cases hp with
    | out hp => exact hp
  · exact .out

/-! ## What is printed -/

/-- The program without what it prints. -/
def silent : Prog Resp Out α → Prog Resp Out α
  | .pure a => .pure a
  | .call r k => .call r fun x => (k x).silent
  | .out _ k => k.silent

theorem run_silent (env : Env Resp) (h : List (Event Resp)) (p : Prog Resp Out α) :
    p.silent.run env h = p.run env h := by
  induction p generalizing h with
  | pure a => rfl
  | call r k ih => simp only [silent, run, ih]
  | out o k ih => exact ih h

theorem silent_bind (p : Prog Resp Out α) (f : α → Prog Resp Out β) :
    (p >>= f).silent = p.silent >>= fun a => (f a).silent := by
  induction p with
  | pure a => rfl
  | call r k ih => exact congrArg _ (funext fun x => ih x)
  | out o k ih => exact ih

/-! ## Programs in turn -/

/-- The executions of programs one after the other. -/
def runAll (env : Env Resp) (h : List (Event Resp)) :
    List (Prog Resp Out α) → List (α × List (Event Resp))
  | [] => []
  | p :: ps => p.run env h :: runAll env (h ++ (p.run env h).2) ps

/-- Every program in turn follows a path. -/
theorem forall₂_runAll (env : Env Resp) (h : List (Event Resp)) (ps : List (Prog Resp Out α)) :
    List.Forall₂ (fun p o => p.Path o.2 o.1) ps (runAll env h ps) := by
  induction ps generalizing h with
  | nil => exact .nil
  | cons p ps ih => exact .cons (path_run env h p) (ih _)

theorem runAll_congr {ps qs : List (Prog Resp Out α)} (hs : ps.map silent = qs.map silent) :
    runAll env h ps = runAll env h qs := by
  induction ps generalizing h qs with
  | nil =>
    obtain rfl : qs = [] := by simpa using hs.symm
    rfl
  | cons p ps ih =>
    obtain ⟨q, qs, rfl⟩ := List.exists_cons_of_ne_nil
      (show qs ≠ [] by rintro rfl; simp at hs)
    obtain ⟨hp, hs⟩ := List.cons.inj hs
    have hrun : p.run env h = q.run env h := by rw [← run_silent, hp, run_silent]
    rw [runAll, runAll, hrun, ih hs]

end Prog

end Interaction

end Cmqtt

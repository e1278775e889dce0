import SoftEtherVpn.Foundation.Threads

/-!
# Threads that run branching programs

A program is a finite tree of atomic actions and tests. A machine says what an action does to
the shared state and to the registers of its thread, how a test comes out, and which programs
may be called. Two readings of a program without running it: a typestate check of all its
paths, and whether a register is still needed.
-/

namespace SoftEtherVpn.Foundation

inductive Prog (α κ : Type*)
  | done
  | act (a : α) (next : Prog α κ)
  | test (c : κ) (yes no : Prog α κ)

namespace Prog

variable {α κ S : Type*}

/-- The action that comes next. -/
def head : Prog α κ → Option α
  | act a _ => some a
  | _ => none

/-- Every path takes the typestate from `s` through its actions to an accepted one. -/
def Checks (δ : S → α → Option S) (ok : S → Prop) : Prog α κ → S → Prop
  | done, s => ok s
  | act a next, s => ∃ t, δ s a = some t ∧ next.Checks δ ok t
  | test _ yes no, s => yes.Checks δ ok s ∧ no.Checks δ ok s

/-- The register may be used before it is set or confirmed. -/
def live (uses sets : α → Bool) (confirms : κ → Bool) : Prog α κ → Bool
  | done => false
  | act a next => uses a || (!sets a && next.live uses sets confirms)
  | test c yes no =>
    (!confirms c && yes.live uses sets confirms) || no.live uses sets confirms

end Prog

namespace Pool

variable {σ τ : Type*}

/-- The sum of a quantity over the threads. -/
def total (f : τ → ℤ) (p : Pool σ τ) : ℤ := (p.threads.map fun o => o.elim 0 f).sum

theorem total_set_append {c c' : σ} {l : List (Option τ)} {i : ℕ} {t : τ} (f : τ → ℤ)
    (h : (⟨c, l⟩ : Pool σ τ).At i t) (t' : τ) (new : List τ) :
    (⟨c', l.set i (some t') ++ new.map some⟩ : Pool σ τ).total f =
      (⟨c, l⟩ : Pool σ τ).total f - f t + f t' + (new.map f).sum := by
  obtain ⟨hlt, hget⟩ := List.getElem?_eq_some_iff.mp h
  have hset : (l.set i (some t')).map (fun o => o.elim 0 f) =
      (l.map fun o => o.elim 0 f).set i (f t') := by
    rw [List.map_set]
    rfl
  rw [total, total, List.map_append, List.sum_append, hset, List.sum_set', List.map_map]
  rw [dif_pos (by simpa using hlt), List.getElem_map, hget]
  change _ + (-f t + f t') + (new.map f).sum = _
  ring

theorem total_eq_zero {f : τ → ℤ} {p : Pool σ τ} (h : ∀ i t, p.At i t → f t = 0) :
    p.total f = 0 := by
  apply List.sum_eq_zero
  intro x hx
  obtain ⟨o, ho, rfl⟩ := List.mem_map.mp hx
  cases o with
  | none => rfl
  | some t =>
    obtain ⟨i, hi⟩ := List.mem_iff_getElem?.mp ho
    exact h i t hi

end Pool

/-- A thread with what is left of its call. -/
structure Running (ρ α κ : Type*) where
  prog : Prog α κ
  regs : ρ

/-- The thread is between two calls. -/
def Running.Idle {ρ α κ : Type*} (t : Running ρ α κ) : Prop := t.prog = .done

instance decidableIdle {ρ α κ : Type*} : (t : Running ρ α κ) → Decidable t.Idle
  | ⟨.done, _⟩ => isTrue rfl
  | ⟨.act _ _, _⟩ => isFalse nofun
  | ⟨.test _ _ _, _⟩ => isFalse nofun

/-- A scheduling choice: an idle thread makes a call, or a thread takes a step, with the outcome
of what the program leaves open. -/
inductive Move (ω : Type*)
  | call (o : ω)
  | run (outcome : Bool)

structure Machine (σ ρ α κ ω : Type*) where
  program : ω → Prog α κ
  exec : ℕ → σ → ρ → α → Option (σ × ρ)
  eval : σ → ρ → Bool → κ → Bool
  spawned : α → List ω
  fresh : ρ

namespace Machine

variable {σ ρ α κ ω : Type*} (m : Machine σ ρ α κ ω)

def start (o : ω) : Running ρ α κ := ⟨m.program o, m.fresh⟩

def thread (i : ℕ) (c : σ) : Move ω → Running ρ α κ → Option (Outcome σ (Running ρ α κ))
  | .call o, ⟨.done, _⟩ => some ⟨c, some (m.start o), []⟩
  | .run _, ⟨.act a next, r⟩ =>
    (m.exec i c r a).map fun x => ⟨x.1, some ⟨next, x.2⟩, (m.spawned a).map m.start⟩
  | .run b, ⟨.test q yes no, r⟩ =>
    some ⟨c, some ⟨if m.eval c r b q then yes else no, r⟩, []⟩
  | _, _ => none

/-- The pool after a move of thread `i`. -/
def moved (p : Pool σ (Running ρ α κ)) (i : ℕ) (c : σ) (t : Running ρ α κ) (os : List ω) :
    Pool σ (Running ρ α κ) :=
  ⟨c, p.threads.set i (some t) ++ (os.map m.start).map some⟩

def step (p : Pool σ (Running ρ α κ)) (s : ℕ × Move ω) : Option (Pool σ (Running ρ α κ)) :=
  p.step m.thread s.1 s.2

variable {m}

/-- The ways in which a step of thread `i` can go. -/
inductive Step (m : Machine σ ρ α κ ω) (i : ℕ) (c : σ) :
    Running ρ α κ → σ → Running ρ α κ → List ω → Prop
  | call (o : ω) (r : ρ) : Step m i c ⟨.done, r⟩ c (m.start o) []
  | act {a : α} {next : Prog α κ} {r r' : ρ} {c' : σ} (h : m.exec i c r a = some (c', r')) :
      Step m i c ⟨.act a next, r⟩ c' ⟨next, r'⟩ (m.spawned a)
  | yes {q : κ} {yes no : Prog α κ} {r : ρ} {b : Bool} (h : m.eval c r b q = true) :
      Step m i c ⟨.test q yes no, r⟩ c ⟨yes, r⟩ []
  | no {q : κ} {yes no : Prog α κ} {r : ρ} {b : Bool} (h : m.eval c r b q = false) :
      Step m i c ⟨.test q yes no, r⟩ c ⟨no, r⟩ []

theorem step_cases {p q : Pool σ (Running ρ α κ)} {s : ℕ × Move ω} (h : m.step p s = some q) :
    ∃ t c' t' os, p.At s.1 t ∧ Step m s.1 p.shared t c' t' os ∧
      q = m.moved p s.1 c' t' os := by
  obtain ⟨⟨prog, r⟩, x, hat, hx, rfl⟩ := Pool.step_cases h
  obtain ⟨i, a⟩ := s
  dsimp only at hat hx ⊢
  cases a with
  | call o =>
    cases prog with
    | done =>
      cases hx
      exact ⟨_, _, _, _, hat, .call o r, rfl⟩
    | act a next => cases hx
    | test q yes no => cases hx
  | run b =>
    cases prog with
    | done => cases hx
    | act a next =>
      obtain ⟨⟨c', r'⟩, hexec, rfl⟩ := Option.map_eq_some_iff.mp hx
      exact ⟨_, _, _, _, hat, .act hexec, rfl⟩
    | test q yes no =>
      cases hx
      cases htest : m.eval p.shared r b q with
      | true => exact ⟨_, _, _, _, hat, .yes htest, by simp [moved]⟩
      | false => exact ⟨_, _, _, _, hat, .no htest, by simp [moved]⟩

section Moved

variable {p : Pool σ (Running ρ α κ)} {i j : ℕ} {c' : σ} {t t' u : Running ρ α κ} {os : List ω}

theorem moved_other (h : p.At j u) (hij : j ≠ i) : (m.moved p i c' t' os).At j u :=
  Pool.at_set_append_of_ne hij h

theorem moved_self (h : p.At i t) : (m.moved p i c' t' os).At i t' :=
  Pool.at_set_append_self h.lt

/-- A property of the threads holds after a move if it holds of those that stood still, of the one
that moved and of those that were started. -/
theorem forall_moved {P : ℕ → Running ρ α κ → Prop} (hstill : ∀ j u, p.At j u → j ≠ i → P j u)
    (hmoved : P i t') (hnew : ∀ j o, P j (m.start o)) :
    ∀ j u, (m.moved p i c' t' os).At j u → P j u := by
  intro j u h
  rcases Pool.at_set_append (c := p.shared) h with ⟨hij, hat⟩ | ⟨rfl, hu⟩ | ⟨-, hu⟩
  · exact hstill j u hat hij
  · obtain rfl := Option.some.inj hu
    exact hmoved
  · obtain ⟨o, -, rfl⟩ := List.mem_map.mp hu
    exact hnew j o

theorem total_moved {f : Running ρ α κ → ℤ} (h : p.At i t) (hnew : ∀ o, f (m.start o) = 0) :
    (m.moved p i c' t' os).total f = p.total f - f t + f t' := by
  have hsum : ((os.map m.start).map f).sum = 0 := by
    apply List.sum_eq_zero
    intro x hx
    simp only [List.mem_map, exists_exists_and_eq_and] at hx
    obtain ⟨o, -, rfl⟩ := hx
    exact hnew o
  rw [moved, Pool.total_set_append f h, hsum, add_zero]

end Moved

end Machine

end SoftEtherVpn.Foundation

import SoftEtherVpn.Foundation.Runs

/-!
# Threads over a shared state

A pool is a shared state and a list of threads, each given by what it does next. One
step of the pool is one atomic step of one of its threads, which knows its own index; a
thread may wait, end or start others. An ended thread keeps its place, so that a thread
is named by its index.
-/

namespace SoftEtherVpn.Foundation

variable {σ τ α : Type*}

structure Pool (σ τ : Type*) where
  shared : σ
  threads : List (Option τ)
  deriving DecidableEq, Repr

/-- What a step of a thread leaves: the shared state, the thread itself unless it has ended,
and the threads it has started. -/
structure Outcome (σ τ : Type*) where
  shared : σ
  next : Option τ
  spawned : List τ

namespace Pool

def step (prog : ℕ → σ → α → τ → Option (Outcome σ τ)) (p : Pool σ τ) (i : ℕ) (a : α) :
    Option (Pool σ τ) :=
  match p.threads[i]? with
  | some (some f) =>
    (prog i p.shared a f).map fun r => ⟨r.shared, p.threads.set i r.next ++ r.spawned.map some⟩
  | _ => none

def start (p : Pool σ τ) (f : τ) : Pool σ τ := { p with threads := p.threads ++ [some f] }

/-- Every thread that has not ended satisfies `A`. -/
def All (A : τ → Prop) (p : Pool σ τ) : Prop := ∀ f, some f ∈ p.threads → A f

/-- Thread `i` is about to do `f`. -/
def At (p : Pool σ τ) (i : ℕ) (f : τ) : Prop := p.threads[i]? = some (some f)

theorem step_cases {prog : ℕ → σ → α → τ → Option (Outcome σ τ)} {p q : Pool σ τ} {i : ℕ} {a : α}
    (h : p.step prog i a = some q) :
    ∃ f r, p.At i f ∧ prog i p.shared a f = some r ∧
      q = ⟨r.shared, p.threads.set i r.next ++ r.spawned.map some⟩ := by
  unfold step at h
  split at h
  case h_1 f hf =>
    obtain ⟨r, hr, rfl⟩ := Option.map_eq_some_iff.mp h
    exact ⟨f, r, hf, hr, rfl⟩
  case h_2 => cases h

instance decidableForallAt (p : Pool σ τ) (i : ℕ) (P : τ → Prop) [DecidablePred P] :
    Decidable (∀ f, p.At i f → P f) :=
  decidable_of_iff (∀ o ∈ p.threads[i]?, ∀ f ∈ o, P f)
    ⟨fun h f hf => h (some f) hf f rfl, fun h o ho f hf => h f (by rw [At, ho, hf])⟩

instance decidableForallThread (p : Pool σ τ) (P : ℕ → τ → Prop) [∀ i, DecidablePred (P i)] :
    Decidable (∀ i f, p.At i f → P i f) :=
  decidable_of_iff (∀ i ∈ List.range p.threads.length, ∀ f, p.At i f → P i f)
    ⟨fun h i f hf => h i (List.mem_range.mpr (List.getElem?_eq_some_iff.mp hf).1) f hf,
      fun h i _ f hf => h i f hf⟩

theorem At.unique {p : Pool σ τ} {i : ℕ} {f g : τ} (hf : p.At i f) (hg : p.At i g) : f = g :=
  Option.some.inj (Option.some.inj (hf.symm.trans hg))

theorem At.lt {p : Pool σ τ} {i : ℕ} {f : τ} (h : p.At i f) : i < p.threads.length :=
  (List.getElem?_eq_some_iff.mp h).1

/-- The threads after a step of thread `i`: the others are as they were, thread `i` has gone on,
and those it has started are new. -/
theorem at_set_append {c c' : σ} {l : List (Option τ)} {i j : ℕ} {next : Option τ}
    {spawned : List τ} {g : τ} (h : (⟨c', l.set i next ++ spawned.map some⟩ : Pool σ τ).At j g) :
    (j ≠ i ∧ (⟨c, l⟩ : Pool σ τ).At j g) ∨ (j = i ∧ g ∈ next) ∨ (l.length ≤ j ∧ g ∈ spawned) := by
  unfold At at h
  by_cases hj : j < l.length
  · rw [List.getElem?_append_left (by simpa using hj)] at h
    by_cases hij : j = i
    · subst hij
      rw [List.getElem?_set_self hj] at h
      exact .inr (.inl ⟨rfl, Option.some.inj h⟩)
    · rw [List.getElem?_set_ne (Ne.symm hij)] at h
      exact .inl ⟨hij, h⟩
  · have hmem : some g ∈ spawned.map some := by
      rw [List.getElem?_append_right (by simpa using Nat.le_of_not_lt hj)] at h
      exact List.mem_of_getElem? h
    obtain ⟨g', hg', hgg⟩ := List.mem_map.mp hmem
    obtain rfl := Option.some.inj hgg
    exact .inr (.inr ⟨Nat.le_of_not_lt hj, hg'⟩)

theorem at_set_append_of_ne {c c' : σ} {l : List (Option τ)} {i j : ℕ} {next : Option τ}
    {spawned : List τ} {g : τ} (hij : j ≠ i) (h : (⟨c, l⟩ : Pool σ τ).At j g) :
    (⟨c', l.set i next ++ spawned.map some⟩ : Pool σ τ).At j g := by
  have hlt : j < l.length := h.lt
  unfold At at h ⊢
  rw [List.getElem?_append_left (by simpa using hlt), List.getElem?_set_ne (Ne.symm hij)]
  exact h

theorem at_set_append_self {c : σ} {l : List (Option τ)} {i : ℕ} {spawned : List τ} {g : τ}
    (h : i < l.length) : (⟨c, l.set i (some g) ++ spawned.map some⟩ : Pool σ τ).At i g := by
  unfold At
  rw [List.getElem?_append_left (by simpa using h), List.getElem?_set_self h]

/-- A thread that runs after a step ran before, or is what the step made of its thread, or was
started by it. -/
theorem mem_set_append {l : List (Option τ)} {i : ℕ} {next : Option τ} {spawned : List τ} {g : τ}
    (h : some g ∈ l.set i next ++ spawned.map some) : some g ∈ l ∨ g ∈ next ∨ g ∈ spawned := by
  rcases List.mem_append.mp h with h | h
  · rcases List.mem_or_eq_of_mem_set h with h | h
    · exact .inl h
    · exact .inr (.inl h.symm)
  · obtain ⟨f, hf, hfg⟩ := List.mem_map.mp h
    obtain rfl := Option.some.inj hfg
    exact .inr (.inr hf)

theorem All.step {prog : ℕ → σ → α → τ → Option (Outcome σ τ)} {A : τ → Prop} {p q : Pool σ τ} {i : ℕ}
    {a : α} (hp : p.All A) (h : p.step prog i a = some q)
    (hprog : ∀ f r, A f → prog i p.shared a f = some r →
      (∀ g ∈ r.next, A g) ∧ ∀ g ∈ r.spawned, A g) : q.All A := by
  obtain ⟨f, r, hf, hr, rfl⟩ := step_cases h
  obtain ⟨hnext, hspawned⟩ := hprog f r (hp f (List.mem_of_getElem? hf)) hr
  intro g hg
  rcases mem_set_append hg with hg | hg | hg
  · exact hp g hg
  · exact hnext g hg
  · exact hspawned g hg

/-- What holds of every thread after a step held before it, if it held of the thread that moved. -/
theorem All.of_step {prog : ℕ → σ → α → τ → Option (Outcome σ τ)} {A : τ → Prop} {p q : Pool σ τ}
    {i : ℕ} {a : α} {f : τ} (hf : p.At i f) (hA : A f)
    (h : p.step prog i a = some q) (hq : q.All A) : p.All A := by
  obtain ⟨f', r, hf', -, rfl⟩ := step_cases h
  intro g hg
  obtain ⟨j, hj⟩ := List.mem_iff_getElem?.mp hg
  by_cases hij : i = j
  · subst hij
    obtain rfl := Option.some.inj (Option.some.inj (hf.symm.trans hj))
    exact hA
  · have hset : (p.threads.set i r.next)[j]? = some (some g) := by
      rw [List.getElem?_set_ne hij]
      exact hj
    exact hq g (List.mem_append_left _ (List.mem_of_getElem? hset))

theorem at_start {p : Pool σ τ} {f g : τ} {j : ℕ} (h : (p.start f).At j g) :
    p.At j g ∨ (j = p.threads.length ∧ g = f) := by
  unfold At start at h
  by_cases hj : j < p.threads.length
  · rw [List.getElem?_append_left hj] at h
    exact .inl h
  · rw [List.getElem?_append_right (Nat.le_of_not_lt hj)] at h
    obtain ⟨hlt, hg⟩ := List.getElem?_eq_some_iff.mp h
    simp only [List.length_singleton] at hlt
    refine .inr ⟨by omega, ?_⟩
    simpa using hg.symm

theorem At.start {p : Pool σ τ} {f g : τ} {j : ℕ} (h : p.At j g) : (p.start f).At j g := by
  have hlt := h.lt
  unfold At Pool.start at *
  rwa [List.getElem?_append_left hlt]

theorem All.start {A : τ → Prop} {p : Pool σ τ} {f : τ} (hp : p.All A) (hf : A f) :
    (p.start f).All A := by
  intro g hg
  rcases List.mem_append.mp hg with hg | hg
  · exact hp g hg
  · obtain rfl := Option.some.inj (List.mem_singleton.mp hg)
    exact hf

/-- No two threads satisfy `P`. -/
def Unique (P : τ → Prop) (p : Pool σ τ) : Prop :=
  ∀ i j f g, p.At i f → p.At j g → P f → P g → i = j

theorem Unique.start {P : τ → Prop} {p : Pool σ τ} {f : τ} (hp : p.Unique P)
    (hf : P f → ∀ j g, p.At j g → ¬P g) : (p.start f).Unique P := by
  intro i j g g' hg hg' hPg hPg'
  rcases at_start hg with hold | ⟨rfl, rfl⟩ <;> rcases at_start hg' with hold' | ⟨rfl, rfl⟩
  · exact hp i j g g' hold hold' hPg hPg'
  · exact absurd hPg (hf hPg' i g hold)
  · exact absurd hPg' (hf hPg j g' hold')
  · rfl

/-- A step keeps the one thread that satisfies `P`, ends it or hands `P` to a new thread. -/
theorem Unique.step {prog : ℕ → σ → α → τ → Option (Outcome σ τ)} {P : τ → Prop} {p q : Pool σ τ}
    {i : ℕ} {a : α} (hp : p.Unique P) (h : p.step prog i a = some q)
    (hprog : ∀ f r, prog i p.shared a f = some r →
      (∀ g ∈ r.next, P g → P f ∧ ∀ g' ∈ r.spawned, ¬P g') ∧ (∀ g ∈ r.spawned, P g → P f) ∧
        r.spawned.length ≤ 1) : q.Unique P := by
  obtain ⟨f, r, hf, hr, rfl⟩ := step_cases h
  obtain ⟨hnext, hspawned, hone⟩ := hprog f r hr
  intro j k g g' hg hg' hPg hPg'
  have hj := hg.lt
  have hk := hg'.lt
  simp only [List.length_append, List.length_set, List.length_map] at hj hk
  rcases at_set_append (c := p.shared) hg with ⟨hji, hold⟩ | ⟨rfl, hmem⟩ | ⟨hjlen, hmem⟩ <;>
    rcases at_set_append (c := p.shared) hg' with ⟨hki, hold'⟩ | ⟨rfl, hmem'⟩ | ⟨hklen, hmem'⟩
  · exact hp j k g g' hold hold' hPg hPg'
  · exact absurd (hp j k g f hold hf hPg (hnext g' hmem' hPg').1) hji
  · exact absurd (hp j i g f hold hf hPg (hspawned g' hmem' hPg')) hji
  · exact absurd (hp k j g' f hold' hf hPg' (hnext g hmem hPg).1) hki
  · rfl
  · exact absurd hPg' ((hnext g hmem hPg).2 g' hmem')
  · exact absurd (hp k i g' f hold' hf hPg' (hspawned g hmem hPg)) hki
  · exact absurd hPg ((hnext g' hmem' hPg').2 g hmem)
  · omega

/-- The sum of `w` over the threads. -/
def measure (w : τ → ℕ) (p : Pool σ τ) : ℕ := (p.threads.map fun f => f.elim 0 w).sum

theorem At.le_measure {p : Pool σ τ} {i : ℕ} {f : τ} (h : p.At i f) (w : τ → ℕ) :
    w f ≤ p.measure w :=
  List.single_le_sum (fun _ _ => Nat.zero_le _) _ (List.mem_map_of_mem (List.mem_of_getElem? h))

theorem At.measure_step {p : Pool σ τ} {i : ℕ} {f : τ} (h : p.At i f) (w : τ → ℕ) (c : σ)
    (next : Option τ) (spawned : List τ) :
    (⟨c, p.threads.set i next ++ spawned.map some⟩ : Pool σ τ).measure w + w f =
      p.measure w + next.elim 0 w + (spawned.map w).sum := by
  obtain ⟨hlt, hf⟩ := List.getElem?_eq_some_iff.mp h
  have hset : p.threads.set i next = p.threads.take i ++ next :: p.threads.drop (i + 1) := by
    rw [List.set_eq_take_append_cons_drop, if_pos hlt]
  have hthreads : p.threads = p.threads.take i ++ some f :: p.threads.drop (i + 1) := by
    rw [← hf, List.getElem_cons_drop, List.take_append_drop]
  unfold measure
  rw [hset]
  conv_rhs => rw [hthreads]
  simp only [List.map_append, List.map_cons, List.sum_append, List.sum_cons, List.map_map]
  change _ + (spawned.map w).sum + w f = (_ + (w f + _)) + _ + _
  omega

end Pool

end SoftEtherVpn.Foundation

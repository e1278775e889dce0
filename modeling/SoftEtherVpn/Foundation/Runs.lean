import Mathlib.Tactic

/-!
# Finite runs of guarded transition functions

A system is a partial step function: `step s a = none` means that action `a` is
not enabled in state `s`. Runs are executed, so a concrete run can be evaluated.
The invariant rules come in two forms: for every run, and for the runs whose
actions all meet a side condition in the state they are taken from.
-/

namespace SoftEtherVpn.Foundation

variable {σ ε : Type*}

/-- The state a list of actions leads to, or `none` if one of them is not enabled. -/
def exec (step : σ → ε → Option σ) : σ → List ε → Option σ
  | s, [] => some s
  | s, a :: as => (step s a).bind fun t => exec step t as

/-- Every action of the run meets `C` in the state it is taken from. -/
def Along (step : σ → ε → Option σ) (C : σ → ε → Prop) : σ → List ε → Prop
  | _, [] => True
  | s, a :: as => C s a ∧ ∀ t, step s a = some t → Along step C t as

instance decidableAlong (step : σ → ε → Option σ) (C : σ → ε → Prop) [∀ s a, Decidable (C s a)] :
    ∀ s as, Decidable (Along step C s as)
  | _, [] => inferInstanceAs (Decidable True)
  | s, a :: as =>
    have : DecidablePred fun t => Along step C t as := fun t => decidableAlong step C t as
    inferInstanceAs (Decidable (C s a ∧ ∀ t ∈ step s a, Along step C t as))

@[simp] theorem exec_nil (step : σ → ε → Option σ) (s : σ) : exec step s [] = some s := rfl

theorem exec_cons (step : σ → ε → Option σ) (s : σ) (a : ε) (as : List ε) :
    exec step s (a :: as) = (step s a).bind fun t => exec step t as := rfl

theorem exec_cons_eq_some {step : σ → ε → Option σ} {s u : σ} {a : ε} {as : List ε} :
    exec step s (a :: as) = some u ↔ ∃ t, step s a = some t ∧ exec step t as = some u := by
  simp [exec_cons, Option.bind_eq_some_iff]

theorem exec_append (step : σ → ε → Option σ) (s : σ) (as bs : List ε) :
    exec step s (as ++ bs) = (exec step s as).bind fun t => exec step t bs := by
  induction as generalizing s with
  | nil => simp
  | cons a as ih =>
    rw [List.cons_append, exec_cons, exec_cons, Option.bind_assoc]
    congr 1
    funext t
    exact ih t

theorem exec_append_eq_some {step : σ → ε → Option σ} {s u : σ} {as bs : List ε} :
    exec step s (as ++ bs) = some u ↔
      ∃ t, exec step s as = some t ∧ exec step t bs = some u := by
  rw [exec_append, Option.bind_eq_some_iff]

/-- An invariant of the steps that meet `C` holds after every run along `C`. -/
theorem exec_invariant_along {step : σ → ε → Option σ} {C : σ → ε → Prop} {I : σ → Prop}
    (hstep : ∀ s a t, I s → C s a → step s a = some t → I t)
    {s t : σ} {as : List ε} (hs : I s) (hC : Along step C s as)
    (hrun : exec step s as = some t) : I t := by
  induction as generalizing s with
  | nil =>
    cases hrun
    exact hs
  | cons a as ih =>
    obtain ⟨u, hu, hrun⟩ := exec_cons_eq_some.mp hrun
    exact ih (hstep s a u hs hC.1 hu) (hC.2 u hu) hrun

/-- An invariant of all steps holds after every run. -/
theorem exec_invariant {step : σ → ε → Option σ} {I : σ → Prop}
    (hstep : ∀ s a t, I s → step s a = some t → I t)
    {s t : σ} {as : List ε} (hs : I s) (hrun : exec step s as = some t) : I t := by
  induction as generalizing s with
  | nil =>
    cases hrun
    exact hs
  | cons a as ih =>
    obtain ⟨u, hu, hrun⟩ := exec_cons_eq_some.mp hrun
    exact ih (hstep s a u hs hu) hrun

/-- A run succeeds under an invariant that enables each of its actions. -/
theorem exec_isSome {step : σ → ε → Option σ} {I : σ → Prop} {as : List ε}
    (hstep : ∀ s, ∀ a ∈ as, I s → ∃ t, step s a = some t ∧ I t) {s : σ} (hs : I s) :
    ∃ t, exec step s as = some t ∧ I t := by
  induction as generalizing s with
  | nil => exact ⟨s, rfl, hs⟩
  | cons a as ih =>
    obtain ⟨u, hu, hinv⟩ := hstep s a List.mem_cons_self hs
    obtain ⟨t, ht, hend⟩ := ih (fun s a ha => hstep s a (List.mem_cons_of_mem _ ha)) hinv
    exact ⟨t, exec_cons_eq_some.mpr ⟨u, hu, ht⟩, hend⟩

/-- An invariant that also speaks about the actions taken so far. -/
theorem exec_trace_invariant {step : σ → ε → Option σ} {I : List ε → σ → Prop}
    (hstep : ∀ as s a t, I as s → step s a = some t → I (as ++ [a]) t)
    {s t : σ} {as : List ε} (hs : I [] s) (hrun : exec step s as = some t) : I as t := by
  induction as using List.reverseRecOn generalizing t with
  | nil =>
    cases hrun
    exact hs
  | append_singleton as a ih =>
    obtain ⟨u, hu, hrun⟩ := exec_append_eq_some.mp hrun
    obtain ⟨v, hv, hrun⟩ := exec_cons_eq_some.mp hrun
    cases hrun
    exact hstep as u a t (ih hu) hv

/-- A condition on the actions alone holds along every run of actions that meet it. -/
theorem along_of_forall {step : σ → ε → Option σ} {P : ε → Prop} {s : σ} {as : List ε}
    (h : ∀ a ∈ as, P a) : Along step (fun _ a => P a) s as := by
  induction as generalizing s with
  | nil => trivial
  | cons a as ih =>
    refine ⟨h a List.mem_cons_self, ?_⟩
    intro t _
    exact ih fun b hb => h b (List.mem_cons_of_mem _ hb)

/-- Two side conditions that agree where `I` holds agree along every run that one of them keeps in
`I`. -/
theorem along_congr {step : σ → ε → Option σ} {C D : σ → ε → Prop} {I : σ → Prop}
    (hiff : ∀ s a, I s → (C s a ↔ D s a)) (hI : ∀ s a t, I s → C s a → step s a = some t → I t)
    {s : σ} {as : List ε} (hs : I s) : Along step C s as ↔ Along step D s as := by
  induction as generalizing s with
  | nil => exact Iff.rfl
  | cons a as ih =>
    constructor
    · rintro ⟨hC, hrest⟩
      refine ⟨(hiff s a hs).mp hC, ?_⟩
      intro t ht
      exact (ih (hI s a t hs hC ht)).mp (hrest t ht)
    · rintro ⟨hD, hrest⟩
      have hC := (hiff s a hs).mpr hD
      refine ⟨hC, ?_⟩
      intro t ht
      exact (ih (hI s a t hs hC ht)).mpr (hrest t ht)

/-- A property that survives a step exactly when the step meets `C` holds after a run
exactly when it held before and every action met `C`. -/
theorem exec_iff_along {step : σ → ε → Option σ} {C : σ → ε → Prop} {I P : σ → Prop}
    (hI : ∀ s a t, I s → step s a = some t → I t)
    (hP : ∀ s a t, I s → step s a = some t → (P t ↔ P s ∧ C s a))
    {s t : σ} {as : List ε} (hs : I s) (hrun : exec step s as = some t) :
    P t ↔ P s ∧ Along step C s as := by
  induction as generalizing s with
  | nil =>
    cases hrun
    simp [Along]
  | cons a as ih =>
    obtain ⟨u, hu, hrun⟩ := exec_cons_eq_some.mp hrun
    rw [ih (hI s a u hs hu) hrun, hP s a u hs hu, and_assoc]
    constructor
    · rintro ⟨hPs, hC, h⟩
      refine ⟨hPs, hC, ?_⟩
      intro v hv
      obtain rfl := Option.some.inj (hu.symm.trans hv)
      exact h
    · rintro ⟨hPs, hC, h⟩
      exact ⟨hPs, hC, h u hu⟩

/-- What goes back along every step holds at the start of a run if it holds at the end. -/
theorem exec_backward {step : σ → ε → Option σ} {W : σ → Prop}
    (hW : ∀ s a t, step s a = some t → W t → W s) {s t : σ} {as : List ε}
    (hrun : exec step s as = some t) (hend : W t) : W s := by
  induction as generalizing s with
  | nil =>
    cases hrun
    exact hend
  | cons a as ih =>
    obtain ⟨u, hu, hrun⟩ := exec_cons_eq_some.mp hrun
    exact hW s a u hu (ih hrun)

/-- `exec_iff_along` for an invariant that is kept only where `W` holds, when `W` goes back along
every step. -/
theorem exec_iff_along_backward {step : σ → ε → Option σ} {C : σ → ε → Prop} {W I P : σ → Prop}
    (hW : ∀ s a t, step s a = some t → W t → W s)
    (hI : ∀ s a t, I s → W t → step s a = some t → I t)
    (hP : ∀ s a t, I s → W t → step s a = some t → (P t ↔ P s ∧ C s a))
    {s t : σ} {as : List ε} (hs : I s) (hrun : exec step s as = some t) (hend : W t) :
    I t ∧ (P t ↔ P s ∧ Along step C s as) := by
  induction as generalizing s with
  | nil =>
    cases hrun
    exact ⟨hs, by simp [Along]⟩
  | cons a as ih =>
    obtain ⟨u, hu, hrun⟩ := exec_cons_eq_some.mp hrun
    have hmid : W u := exec_backward hW hrun hend
    obtain ⟨ht, hiff⟩ := ih (hI s a u hs hmid hu) hrun
    refine ⟨ht, ?_⟩
    rw [hiff, hP s a u hs hmid hu, and_assoc]
    constructor
    · rintro ⟨hPs, hC, h⟩
      refine ⟨hPs, hC, ?_⟩
      intro v hv
      obtain rfl := Option.some.inj (hu.symm.trans hv)
      exact h
    · rintro ⟨hPs, hC, h⟩
      exact ⟨hPs, hC, h u hu⟩

end SoftEtherVpn.Foundation

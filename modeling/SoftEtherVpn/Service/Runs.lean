import SoftEtherVpn.Service.ThreadSteps

/-!
# Runs of the service

The invariant along an event, and from it along a run. Two intents to connect in quick succession show
what the flags of the service do not prevent.
-/

namespace SoftEtherVpn.Service

open Foundation

section Start

variable {s : ServiceState} {f g : Flow} {k : ℕ}

theorem mem_start (h : some g ∈ (s.start f).threads) : some g ∈ s.threads ∨ g = f := by
  rcases List.mem_append.mp h with hold | hnew
  · exact .inl hold
  · exact .inr (Option.some.inj (List.mem_singleton.mp hnew))

theorem mem_start_self : some f ∈ (s.start f).threads :=
  List.mem_append_right _ (List.mem_singleton_self _)

theorem Handed.start (h : Handed s k) : Handed (s.start f) k := by
  rcases handed_iff.mp h with hdestroyed | ⟨g, hmem, hk⟩
  · exact .inl hdestroyed
  · exact handed_of_mem (List.mem_append_left _ hmem) hk

theorem Owed.start (h : Owed s k) : Owed (s.start f) k := by
  rcases h with hhanded | ⟨hfield, g, hmem, hreads⟩
  · exact .inl hhanded.start
  · exact .inr ⟨hfield, g, List.mem_append_left _ hmem, hreads⟩

theorem Barren.start (h : Barren s) (hf : f.willCreate = false) : Barren (s.start f) := by
  intro g hg hcreate
  rcases mem_start hg with hold | rfl
  · exact h g hold hcreate
  · rw [hf] at hcreate
    cases hcreate

/-- A new thread of `stopVpn` or `onDestroy`. -/
theorem Inv.start_stop (h : Inv s) {caller : Caller} {pc : StopPc} (hpc : pc.pastCancel = false)
    (hmain : (Flow.stop caller pc).onMain = true → ∀ g, some g ∈ s.threads → g.onMain = false)
    (hfits : (Flow.stop caller pc).Fits s.shared) : Inv (s.start (.stop caller pc)) := by
  refine ⟨h.main.start ?_, h.creator.start ?_, h.jobs_le, h.created_le, h.controller_lt, h.asked_le,
    ?_, ?_, ?_, ?_, ?_, fun k hk => (h.kept k hk).imp_left Handed.start,
    fun k hk hdue => (h.owed k hk hdue).start⟩
  · intro hnew j g hg
    rw [hmain hnew g (List.mem_of_getElem? hg)]
    decide
  · intro hnew
    cases hnew
  · intro g hg
    rcases mem_start hg with hold | rfl
    · exact h.fits g hold
    · exact hfits
  · intro g hg
    rcases mem_start hg with hold | rfl
    · exact h.clears g hold
    · cases pc with
      | clearController _ => cases hpc
      | _ => trivial
  · intro id hid
    rcases mem_start hid with hold | hnew
    · exact (h.stored id hold).imp_right (Or.imp_right (List.mem_append_left _))
    · cases hnew
  · intro caller' pc' hmem hpast
    rcases mem_start hmem with hold | hnew
    · exact (h.barren caller' pc' hold hpast).start rfl
    · cases hnew
      rw [hpc] at hpast
      cases hpast
  · intro hstopping
    rcases h.stopping hstopping with hbarren | ⟨caller', pc', hmem, hat⟩
    · exact .inl (hbarren.start rfl)
    · exact .inr ⟨caller', pc', List.mem_append_left _ hmem, hat⟩

theorem idle_onMain (h : ¬s.idle = false) : ∀ g, some g ∈ s.threads → g.onMain = false := by
  rw [Bool.not_eq_false, ServiceState.idle, Bool.and_eq_true, List.all_eq_true] at h
  intro g hg
  simpa using h.2 _ hg

/-- The first coroutine of a service that has not been stopped. -/
theorem Inv.start_launch (h : Inv s) (hidle : ¬s.idle = false) (hstopping : s.shared.isStopping = false)
    (hjobs : s.shared.jobs = 0) : Inv (s.start .launchJob) := by
  have hmain := idle_onMain hidle
  have hfresh : ∀ g, some g ∈ s.threads → g.willCreate = false := by
    intro g hg
    have hfits := h.fits g hg
    cases g with
    | launchJob => exact hmain _ hg
    | job id pc =>
      have hid := hfits.1
      omega
    | _ => rfl
  refine ⟨h.main.start ?_, h.creator.start ?_, h.jobs_le, h.created_le, h.controller_lt, h.asked_le,
    ?_, ?_, ?_, ?_, ?_, fun k hk => (h.kept k hk).imp_left Handed.start,
    fun k hk hdue => (h.owed k hk hdue).start⟩
  · intro _ j g hg
    rw [hmain g (List.mem_of_getElem? hg)]
    decide
  · intro _ j g hg
    rw [hfresh g (List.mem_of_getElem? hg)]
    decide
  · intro g hg
    rcases mem_start hg with hold | rfl
    · exact h.fits g hold
    · exact hjobs
  · intro g hg
    rcases mem_start hg with hold | rfl
    · exact h.clears g hold
    · trivial
  · intro id hid
    rcases mem_start hid with hold | hnew
    · exact (h.stored id hold).imp_right (Or.imp_right (List.mem_append_left _))
    · cases hnew
  · intro caller pc hmem hpast
    rcases mem_start hmem with hold | hnew
    · exfalso
      obtain ⟨-, hflag⟩ := h.fits _ hold
      cases caller with
      | onDestroy => cases hmain _ hold
      | _ =>
        rw [hflag (by simp) (by cases pc <;> first | rfl | cases hpast)] at hstopping
        cases hstopping
    · cases hnew
  · intro htrue
    change s.shared.isStopping = true at htrue
    rw [hstopping] at htrue
    cases htrue

/-- An ACTION_DISCONNECT concerns the controllers that exist. -/
theorem Inv.ask (h : Inv s) (howed : ∀ k < s.shared.created, Owed s k) :
    Inv { s with shared := { s.shared with asked := s.shared.created } } :=
  ⟨h.main, h.creator, h.jobs_le, h.created_le, h.controller_lt, le_rfl, h.fits, h.clears, h.stored,
    h.barren, h.stopping, h.kept, fun k hk _ => howed k hk⟩

/-- What one event preserves. -/
theorem Inv.step {t : ServiceState} {event : ServiceEvent} (h : Inv s) (hcautious : Cautious s event)
    (hstep : step s event = some t) : Inv t := by
  cases event with
  | actionConnect =>
    simp only [Service.step] at hstep
    split_ifs at hstep with hidle hrunning
    · cases hstep
      exact h
    · cases hstep
      obtain ⟨hstopping, hjobs⟩ := hcautious.resolve_left hrunning
      exact h.start_launch hidle hstopping hjobs
  | actionDisconnect =>
    simp only [Service.step] at hstep
    split_ifs at hstep with hidle
    cases hstep
    have hstart : Inv (s.start (.stop .intent .check)) :=
      h.start_stop rfl (fun _ => idle_onMain hidle) ⟨by simp, fun _ hflag => by cases hflag⟩
    refine hstart.ask ?_
    intro k hk
    cases hstopping : s.shared.isStopping with
    | true => exact (h.owed k hk (.inl hstopping)).start
    | false =>
      rcases h.kept k hk with hhanded | hfield
      · exact .inl hhanded.start
      · refine .inr ⟨hfield, _, mem_start_self, ?_⟩
        change (!s.shared.isStopping) = true
        rw [hstopping]
        rfl
  | destroy =>
    simp only [Service.step] at hstep
    split_ifs at hstep with hidle
    cases hstep
    exact h.start_stop rfl (fun _ => idle_onMain hidle) ⟨by simp, by simp⟩
  | onStateChange k =>
    simp only [Service.step] at hstep
    split_ifs at hstep
    cases hstep
    exact h
  | onError k =>
    simp only [Service.step] at hstep
    split_ifs at hstep with hk
    cases hstep
    exact h.start_stop rfl (fun hmain => by cases hmain)
      ⟨fun _ => Nat.zero_lt_of_lt hk, fun _ hflag => by cases hflag⟩
  | run i e =>
    have hpool : Pool.step (fun _ => stepFlow) s i e = some t := hstep
    obtain ⟨f, r, hf, hr, rfl⟩ := Pool.step_cases hpool
    exact h.run hcautious hf hr

end Start

/-- The invariant holds after every run along which the service is used with caution. -/
theorem inv_of_exec {s t : ServiceState} {events : List ServiceEvent} (h : Inv s)
    (hcautious : Along step Cautious s events) (hrun : exec step s events = some t) : Inv t :=
  exec_invariant_along (fun _ _ _ hs hc hstep => Inv.step hs hc hstep) h hcautious hrun

theorem work_pos_of_holding {f : Flow} {k : ℕ} (h : f.holding = some k) : 0 < f.work := by
  cases f with
  | stop caller pc => cases pc <;> exact Nat.succ_pos _
  | job id pc =>
    cases pc with
    | destroyResources _ => exact Nat.one_pos
    | _ => cases h
  | cleanup _ => exact Nat.one_pos
  | _ => cases h

theorem work_pos_of_reads {c : Fields} {f : Flow} (h : f.reads c = true) : 0 < f.work := by
  cases f with
  | stop caller pc => cases pc <;> exact Nat.succ_pos _
  | _ => cases h

/-- When nothing is left to do, what was handed over has been destroyed. -/
theorem Owed.destroyed {s : ServiceState} {k : ℕ} (h : Owed s k)
    (hdone : s.measure Flow.work = 0) : k ∈ s.shared.destroyed := by
  have hnone : ∀ f, some f ∈ s.threads → ¬0 < f.work := by
    intro f hf hpos
    obtain ⟨i, hi⟩ := List.mem_iff_getElem?.mp hf
    have hle := Pool.At.le_measure hi Flow.work
    omega
  rcases h with hhanded | ⟨-, f, hf, hreads⟩
  · rcases handed_iff.mp hhanded with hdestroyed | ⟨f, hf, hk⟩
    · exact hdestroyed
    · exact absurd (work_pos_of_holding hk) (hnone f hf)
  · exact absurd (work_pos_of_reads hreads) (hnone f hf)

theorem Inv.honours {s : ServiceState} (h : Inv s) : Honours s where
  one j hj k hk _ _ := by
    have hle := h.created_le.trans h.jobs_le
    omega
  kept := h.kept
  owed := h.owed
  settled hdone k hk := (h.owed k (lt_of_lt_of_le hk h.asked_le) (.inr hk)).destroyed hdone

/-- A thread that has to stop something can always go on, and has less to do then. -/
theorem run_of_work {s : ServiceState} {i : ℕ} {f : Flow} (e : ConnectEnd) (hf : s.At i f)
    (hwork : 0 < f.work) :
    ∃ t, step s (.run i e) = some t ∧ t.measure Flow.work < s.measure Flow.work := by
  have hstep : ∃ r, stepFlow s.shared e f = some r ∧
      r.next.elim 0 Flow.work + (r.spawned.map Flow.work).sum < f.work := by
    cases f with
    | stop caller pc =>
      refine ⟨_, rfl, ?_⟩
      cases pc with
      | check =>
        simp only [stepStop]
        split_ifs <;> simp [Flow.work]
      | launch current => cases caller <;> simp [stepStop, Caller.resume, Flow.work]
      | _ => simp [stepStop, Flow.work]
    | job id pc =>
      cases pc with
      | destroyResources k => exact ⟨_, rfl, Nat.one_pos⟩
      | _ => cases hwork
    | cancelScope | cleanup _ => exact ⟨_, rfl, Nat.one_pos⟩
    | launchJob | storeJob _ => cases hwork
  obtain ⟨r, hr, hless⟩ := hstep
  have hthread : s.threads[i]? = some (some f) := hf
  refine ⟨after s i r, ?_, ?_⟩
  · simp only [step, Pool.step, hthread, hr, Option.map_some]
  · have hmeasure : (after s i r).measure Flow.work + f.work =
        s.measure Flow.work + r.next.elim 0 Flow.work + (r.spawned.map Flow.work).sum :=
      hf.measure_step Flow.work r.shared r.next r.spawned
    omega

/-- Along a run that is cautious there is never a second controller that has not been handed over, no
controller is lost, and an ACTION_DISCONNECT leads to the destruction of the controller that exists. -/
theorem service_honours {events : List ServiceEvent} {s : ServiceState}
    (hcautious : Along step Cautious newService events)
    (hrun : exec step newService events = some s) :
    Honours s ∧ ∀ i f e, s.At i f → 0 < f.work →
      ∃ t, step s (.run i e) = some t ∧ t.measure Flow.work < s.measure Flow.work :=
  ⟨(inv_of_exec inv_newService hcautious hrun).honours, fun _ _ e hf hwork => run_of_work e hf hwork⟩

/-- ACTION_CONNECT up to the call of `connect`; thread `i` is the main thread. -/
def connectUpTo (i : ℕ) : List ServiceEvent :=
  .actionConnect :: [i, i, i + 1, i + 1, i + 1].map fun j => .run j .returned

/-- ACTION_DISCONNECT on thread `i`, and what it launches. -/
def disconnectBy (i : ℕ) : List ServiceEvent :=
  .actionDisconnect :: (List.replicate 8 i ++ [i + 1]).map fun j => .run j .returned

/-- The service connects, is asked to disconnect while `connect` runs, and the cancelled coroutine
comes back. -/
def connectDisconnect : List ServiceEvent :=
  connectUpTo 0 ++ disconnectBy 2 ++ [.run 1 .cancelled, .run 1 .returned, .run 1 .returned]

theorem service_honours_connectDisconnect :
    ∃ s, exec step newService connectDisconnect = some s ∧ Honours s ∧ s.shared.asked = 1 ∧
      s.shared.destroyed = [0] := by
  refine ⟨(exec step newService connectDisconnect).getD newService, by decide +kernel, ?_,
    by decide +kernel, by decide +kernel⟩
  have hcautious : Along step Cautious newService connectDisconnect := by decide +kernel
  exact (service_honours hcautious (by decide +kernel)).1

/-- Two intents to connect before the first connection is up, and a disconnect. -/
def twoConnects : List ServiceEvent := connectUpTo 0 ++ connectUpTo 2

/-- There are two controllers, and when the disconnect is done the first has not been destroyed. -/
theorem twoConnects_leak :
    (∃ s, exec step newService twoConnects = some s ∧ ¬Honours s) ∧
      ∃ s, exec step newService (twoConnects ++ disconnectBy 4) = some s ∧
        s.measure Flow.work = 0 ∧ s.shared.asked = 2 ∧ s.shared.destroyed = [1] ∧ ¬Honours s := by
  constructor
  · refine ⟨(exec step newService twoConnects).getD newService, by decide +kernel, ?_⟩
    intro h
    exact absurd (h.one 0 (by decide +kernel) 1 (by decide +kernel) (by decide +kernel)
      (by decide +kernel)) (by decide)
  · refine ⟨(exec step newService (twoConnects ++ disconnectBy 4)).getD newService,
      by decide +kernel, by decide +kernel, by decide +kernel, by decide +kernel, ?_⟩
    intro h
    exact absurd (h.settled (by decide +kernel) 0 (by decide +kernel)) (by decide +kernel)

end SoftEtherVpn.Service

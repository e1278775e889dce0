import SoftEtherVpn.Service.Shutdown

/-!
# A step of a thread of the service

Each part of the invariant along one step. The field `controller` is overwritten only by the one
coroutine that creates a controller, and by threads that have handed over what is in it.
-/

namespace SoftEtherVpn.Service

open Foundation

section Run

variable {s : ServiceState} {i : ℕ} {e : ConnectEnd} {f g : Flow} {r : Outcome Fields Flow}

/-- The state after thread `i` has made the step `r`. -/
abbrev after (s : ServiceState) (i : ℕ) (r : Outcome Fields Flow) : ServiceState :=
  ⟨r.shared, s.threads.set i r.next ++ r.spawned.map some⟩

theorem mem_after (h : some g ∈ (after s i r).threads) :
    (∃ j, j ≠ i ∧ s.At j g) ∨ g ∈ r.next ∨ g ∈ r.spawned := by
  obtain ⟨j, hj⟩ := List.mem_iff_getElem?.mp h
  rcases Pool.at_set_append (c := s.shared) hj with ⟨hij, hold⟩ | ⟨-, hg⟩ | ⟨-, hg⟩
  · exact .inl ⟨j, hij, hold⟩
  · exact .inr (.inl hg)
  · exact .inr (.inr hg)

theorem other_mem {j : ℕ} (hij : j ≠ i) (h : s.At j g) : some g ∈ (after s i r).threads :=
  List.mem_of_getElem? (Pool.at_set_append_of_ne hij h)

theorem next_mem (hf : s.At i f) (h : r.next = some g) : some g ∈ (after s i r).threads := by
  refine List.mem_of_getElem? (i := i) ?_
  rw [after, h]
  exact Pool.at_set_append_self hf.lt

theorem spawned_mem (h : g ∈ r.spawned) : some g ∈ (after s i r).threads :=
  List.mem_append_right _ (List.mem_map_of_mem h)

/-- A thread other than the one that steps is still there. -/
theorem mem_stays (hf : s.At i f) (h : some g ∈ s.threads) :
    g = f ∨ some g ∈ (after s i r).threads := by
  obtain ⟨j, hj⟩ := List.mem_iff_getElem?.mp h
  by_cases hij : j = i
  · subst hij
    exact .inl (Pool.At.unique hj hf)
  · exact .inr (other_mem hij hj)

theorem setsStopping_eq (h : f.setsStopping = true) : ∃ caller, f = .stop caller .setStopping := by
  unfold Flow.setsStopping at h
  split at h
  · exact ⟨_, rfl⟩
  · cases h

theorem creating_willCreate (h : f.creating = true) : f.willCreate = true := by
  unfold Flow.creating at h
  split at h
  · rfl
  · cases h

theorem Inv.at_fits (h : Inv s) {j : ℕ} (hg : s.At j g) : g.Fits s.shared :=
  h.fits g (List.mem_of_getElem? hg)

theorem Inv.willCreate_created (h : Inv s) {j : ℕ} (hg : s.At j g) (hcreate : g.willCreate = true) :
    s.shared.created = 0 := by
  have hfits := h.at_fits hg
  cases g with
  | launchJob =>
    have hle := h.created_le
    have hjobs : s.shared.jobs = 0 := hfits
    omega
  | job id pc => cases pc <;> first | exact hfits.2.1 | cases hcreate
  | storeJob _ | stop _ _ | cancelScope | cleanup _ => cases hcreate

/-- A thread other than the one that steps still has what it relies on. -/
theorem Inv.other_fits (h : Inv s) (hf : s.At i f) (hr : stepFlow s.shared e f = some r) {j : ℕ}
    (hij : j ≠ i) (hg : s.At j g) : g.Fits r.shared := by
  have heffect := stepFlow_effect hr
  have hfits := h.at_fits hg
  have hjobs : s.shared.jobs ≤ r.shared.jobs := by
    rw [heffect.jobs]
    split_ifs <;> omega
  have hcreated : s.shared.created ≤ r.shared.created := by
    rw [heffect.created]
    split_ifs <;> omega
  cases g with
  | launchJob =>
    have hnot : f ≠ .launchJob := by
      rintro rfl
      exact hij (h.main j i _ _ hg hf rfl rfl)
    change r.shared.jobs = 0
    rw [heffect.jobs, if_neg hnot]
    exact hfits
  | storeJob id => exact lt_of_lt_of_le hfits hjobs
  | job id pc =>
    obtain ⟨hid, hstage, hdestroy⟩ := hfits
    refine ⟨lt_of_lt_of_le hid hjobs, ?_, fun k hk => lt_of_lt_of_le (hdestroy k hk) hcreated⟩
    by_cases hpc : pc = .start ∨ pc = .create
    · rw [if_pos hpc] at hstage ⊢
      have hnot : ¬f.creating = true := by
        intro hcreating
        refine hij (h.creator j i _ _ hg hf ?_ (creating_willCreate hcreating))
        rcases hpc with rfl | rfl <;> rfl
      rw [heffect.created, if_neg hnot]
      exact hstage
    · rw [if_neg hpc] at hstage ⊢
      exact lt_of_lt_of_le hstage hcreated
  | stop caller pc =>
    obtain ⟨hcaller, hflag⟩ := hfits
    refine ⟨fun hc => lt_of_lt_of_le (hcaller hc) hcreated, fun hc hpc => ?_⟩
    rw [heffect.isStopping, hflag hc hpc]
    rfl
  | cancelScope | cleanup _ => trivial

/-- What the thread that steps goes on with, and what it starts, fits. -/
theorem Inv.own_fits (h : Inv s) (hf : s.At i f) (hr : stepFlow s.shared e f = some r) :
    (∀ g ∈ r.next, g.Fits r.shared) ∧ ∀ g ∈ r.spawned, g.Fits r.shared := by
  have hfits := h.at_fits hf
  cases f with
  | launchJob =>
    cases hr
    have hjobs : s.shared.jobs = 0 := hfits
    have hle := h.created_le
    refine ⟨?_, ?_⟩
    · rintro g ⟨⟩
      exact Nat.lt_succ_self _
    · intro g hg
      obtain rfl := List.mem_singleton.mp hg
      refine ⟨Nat.lt_succ_self _, ?_, by simp⟩
      rw [if_pos (.inl rfl)]
      change s.shared.created = 0
      omega
  | job id pc =>
    obtain ⟨hspawned, hnext⟩ := stepJob_next hr
    have heffect := stepFlow_effect hr
    obtain ⟨hid, hstage, -⟩ := hfits
    have hjobs : r.shared.jobs = s.shared.jobs := by
      rw [heffect.jobs, if_neg (by simp)]
    have hpast : pc ≠ .start → 0 < r.shared.created := by
      intro hstart
      rw [heffect.created]
      by_cases hcreate : pc = .create
      · rw [if_pos (by rw [hcreate]; rfl)]
        exact Nat.succ_pos _
      · rw [if_neg (by simp [hstart, hcreate])] at hstage
        split_ifs <;> omega
    refine ⟨?_, by simp [hspawned]⟩
    intro g hg
    rcases hnext g hg with rfl | ⟨pc', rfl, hstart, hcreate, hdestroy, -⟩
    · have hpos := hpast (by
        rintro rfl
        cases hr
        dsimp only at hg
        split_ifs at hg <;> cases hg)
      exact ⟨fun _ => hpos, by simp [StopPc.pastFlag]⟩
    · refine ⟨hjobs ▸ hid, ?_, ?_⟩
      · by_cases hpc : pc' = .create
        · obtain ⟨rfl, -⟩ := hcreate hpc
          rw [if_pos (.inl rfl)] at hstage
          rw [if_pos (.inr hpc), heffect.created]
          exact hstage
        · rw [if_neg (by simp [hstart, hpc])]
          refine hpast ?_
          rintro rfl
          cases hr
          dsimp only at hg
          split_ifs at hg <;> cases hg
          exact hpc rfl
      · intro k hk
        have hlt := h.controller_lt k (hdestroy k hk)
        rw [heffect.created]
        split_ifs <;> omega
  | stop caller pc =>
    have heffect := stepFlow_effect hr
    obtain ⟨hcaller, hflag⟩ := hfits
    cases hr
    constructor
    · intro g hg
      rcases stepStop_next hg with rfl | ⟨pc', rfl, hpast⟩
      · trivial
      refine ⟨fun hc => ?_, fun hc hpc => ?_⟩
      · rw [heffect.created]
        exact hcaller hc
      · rw [heffect.isStopping]
        rcases hpast hpc with hpast | rfl
        · rw [hflag hc hpast]
          rfl
        · exact Bool.or_true _
    · intro g hg
      cases pc <;> simp only [stepStop, List.not_mem_nil] at hg
      cases List.mem_singleton.mp hg
      trivial
  | storeJob _ | cancelScope | cleanup _ =>
    cases hr
    exact ⟨by simp, by simp⟩

/-- No coroutine starts where none can. -/
theorem Barren.step (h : Barren s) (hf : s.At i f) (hr : stepFlow s.shared e f = some r) :
    Barren (after s i r) := by
  have heffect := stepFlow_effect hr
  obtain ⟨hnext, hspawned, -⟩ := willCreate_step hr
  intro g hg hcreate
  rcases mem_after hg with ⟨j, -, hold⟩ | hmem | hmem
  · obtain ⟨id, hid, hcancelled⟩ := h g (List.mem_of_getElem? hold) hcreate
    exact ⟨id, hid, heffect.cancelled hcancelled⟩
  · obtain ⟨id, rfl, hcancelled⟩ :=
      h f (List.mem_of_getElem? hf) (hnext g hmem hcreate).1
    cases hr
    dsimp only at hmem
    rw [if_pos (by simp [Fields.isCancelled, hcancelled])] at hmem
    cases hmem
  · have hlaunch := hspawned g hmem hcreate
    obtain ⟨id, hid, -⟩ := h f (List.mem_of_getElem? hf) (by rw [hlaunch]; rfl)
    rw [hlaunch] at hid
    cases hid

/-- `connectionJob?.cancel()` leaves no coroutine behind that will create a controller. -/
theorem Inv.barren_of_cancel (h : Inv s) (hcautious : Cautious s (.run i e)) {caller : Caller}
    (hf : s.At i (.stop caller .cancelJob))
    (hr : stepFlow s.shared e (.stop caller .cancelJob) = some r) : Barren (after s i r) := by
  obtain ⟨hcaller, -⟩ := h.at_fits hf
  have hnone := hcautious _ hf rfl
  cases hr
  intro g hg hcreate
  rcases mem_after hg with ⟨j, hij, hold⟩ | hmem | hmem
  rotate_left
  · cases hmem
    cases hcreate
  · cases hmem
  have hcreated := h.willCreate_created hold hcreate
  -- only the main thread stops a service that has not created a controller
  have hmain : (Flow.stop caller .cancelJob).onMain = true := by
    cases caller with
    | intent | onDestroy => rfl
    | callback | job => exact absurd (hcaller (by simp)) (by omega)
  cases g with
  | launchJob => exact absurd (h.main j i _ _ hold hf rfl hmain) hij
  | job id pc =>
    cases pc with
    | start =>
      refine ⟨id, rfl, ?_⟩
      change id ∈ s.shared.cancelled ++ s.shared.connectionJob.toList
      rcases h.stored id (List.mem_of_getElem? hold) with hjob | hcancelled | hstore
      · exact List.mem_append_right _ (by rw [hjob]; exact List.mem_singleton_self id)
      · exact List.mem_append_left _ hcancelled
      · obtain ⟨k, hk⟩ := List.mem_iff_getElem?.mp hstore
        obtain rfl := h.main k i _ _ hk hf rfl hmain
        cases Pool.At.unique hk hf
    | create =>
      have hno := List.all_eq_true.mp hnone _ (List.mem_of_getElem? hold)
      cases hno
    | _ => cases hcreate
  | storeJob _ | stop _ _ | cancelScope | cleanup _ => cases hcreate

/-- A thread of `stopVpn` or `onDestroy` past the cancelling was there before. -/
theorem stop_mem_after (hr : stepFlow s.shared e f = some r) {caller : Caller} {pc : StopPc}
    (h : some (.stop caller pc) ∈ (after s i r).threads) :
    (∃ j, j ≠ i ∧ s.At j (.stop caller pc)) ∨
      (∃ pc', f = .stop caller pc' ∧ (stepStop caller s.shared pc').next = some (.stop caller pc)) ∨
        pc = .check := by
  rcases mem_after h with hold | hmem | hmem
  · exact .inl hold
  · cases f with
    | job id pc' =>
      rcases (stepJob_next hr).2 _ hmem with heq | ⟨_, heq, -⟩
      · cases heq
        exact .inr (.inr rfl)
      · cases heq
    | stop caller' pc' =>
      cases hr
      obtain rfl : caller' = caller := by
        rcases stepStop_next hmem with heq | ⟨_, heq, -⟩ <;> cases heq
        rfl
      exact .inr (.inl ⟨pc', rfl, hmem⟩)
    | launchJob | storeJob _ | cancelScope | cleanup _ =>
      cases hr
      cases hmem
  · cases f with
    | job id pc' =>
      rw [(stepJob_next hr).1] at hmem
      cases hmem
    | stop caller' pc' =>
      cases hr
      cases pc' <;> simp [stepStop] at hmem
    | launchJob | storeJob _ | cancelScope | cleanup _ =>
      cases hr
      simp at hmem

theorem Inv.barren_after (h : Inv s) (hcautious : Cautious s (.run i e)) (hf : s.At i f)
    (hr : stepFlow s.shared e f = some r) {caller : Caller} {pc : StopPc}
    (hmem : some (.stop caller pc) ∈ (after s i r).threads) (hpast : pc.pastCancel = true) :
    Barren (after s i r) := by
  rcases stop_mem_after hr hmem with ⟨j, -, hold⟩ | ⟨pc', rfl, hnext⟩ | rfl
  · exact (h.barren caller pc (List.mem_of_getElem? hold) hpast).step hf hr
  · have hold := List.mem_of_getElem? hf
    cases pc' with
    | cancelJob => exact h.barren_of_cancel hcautious hf hr
    | check =>
      simp only [stepStop] at hnext
      split_ifs at hnext
      cases hnext
      cases hpast
    | setStopping | clearRunning =>
      cases hnext
      cases hpast
    | clearJob | readController | clearController _ | launch _ =>
      exact (h.barren caller _ hold rfl).step hf hr
  · cases hpast

theorem Inv.stopping_after (h : Inv s) (hcautious : Cautious s (.run i e)) (hf : s.At i f)
    (hr : stepFlow s.shared e f = some r) (hstopping : r.shared.isStopping = true) :
    Barren (after s i r) ∨ ∃ caller pc,
      some (.stop caller pc) ∈ (after s i r).threads ∧ (pc = .clearRunning ∨ pc = .cancelJob) := by
  have heffect := stepFlow_effect hr
  rw [heffect.isStopping, Bool.or_eq_true] at hstopping
  rcases hstopping with hstopping | hsets
  · rcases h.stopping hstopping with hbarren | ⟨caller, pc, hmem, hpc⟩
    · exact .inl (hbarren.step hf hr)
    rcases mem_stays (r := r) hf hmem with rfl | hstays
    · rcases hpc with rfl | rfl
      · cases hr
        exact .inr ⟨caller, .cancelJob, next_mem hf rfl, .inr rfl⟩
      · exact .inl (h.barren_of_cancel hcautious hf hr)
    · exact .inr ⟨caller, pc, hstays, hpc⟩
  · obtain ⟨caller, rfl⟩ := setsStopping_eq hsets
    cases hr
    exact .inr ⟨caller, .clearRunning, next_mem hf rfl, .inl rfl⟩

theorem Inv.stored_after (h : Inv s) (hf : s.At i f) (hr : stepFlow s.shared e f = some r) {id : ℕ}
    (hmem : some (.job id .start) ∈ (after s i r).threads) :
    r.shared.connectionJob = some id ∨ id ∈ r.shared.cancelled ∨
      some (.storeJob id) ∈ (after s i r).threads := by
  have heffect := stepFlow_effect hr
  rcases mem_after hmem with ⟨j, hij, hold⟩ | hown | hown
  · have hstart := List.mem_of_getElem? hold
    rcases h.stored id hstart with hjob | hcancelled | hstore
    · by_cases hstore : ∃ job, f = .storeJob job
      · obtain ⟨job, rfl⟩ := hstore
        obtain ⟨hid, -⟩ := h.at_fits hold
        have hlt : job < s.shared.jobs := h.at_fits hf
        have hle := h.jobs_le
        obtain rfl : job = id := by omega
        cases hr
        exact .inl rfl
      by_cases hclear : ∃ caller, f = .stop caller .clearJob
      · obtain ⟨caller, rfl⟩ := hclear
        obtain ⟨id', hid, hcancelled⟩ :=
          h.barren caller _ (List.mem_of_getElem? hf) rfl _ hstart rfl
        cases hid
        exact .inr (.inl (heffect.cancelled hcancelled))
      · exact .inl ((heffect.connectionJob (not_exists.mp hstore) (not_exists.mp hclear)).trans hjob)
    · exact .inr (.inl (heffect.cancelled hcancelled))
    · rcases mem_stays (r := r) hf hstore with rfl | hstays
      · cases hr
        exact .inl rfl
      · exact .inr (.inr hstays)
  · have hcreate := (willCreate_step hr).1 _ hown rfl
    cases f with
    | job id' pc =>
      rcases (stepJob_next hr).2 _ hown with heq | ⟨pc', heq, hstart, -⟩
      · cases heq
      · cases heq
        exact absurd rfl hstart
    | launchJob =>
      cases hr
      cases hown
    | storeJob _ | stop _ _ | cancelScope | cleanup _ => cases hcreate.1
  · obtain rfl := (willCreate_step hr).2.1 _ hown rfl
    cases hr
    cases List.mem_singleton.mp hown
    exact .inr (.inr (next_mem hf rfl))

/-- `controller` is overwritten by a new controller only when there is no other. -/
theorem Inv.controller_after (h : Inv s) (hf : s.At i f) (hr : stepFlow s.shared e f = some r)
    {k : ℕ} (hk : s.shared.controller = some k) :
    r.shared.controller = some k ∨ r.shared.controller = none ∧ f.clearing = true := by
  have heffect := stepFlow_effect hr
  have hnot : ¬f.creating = true := by
    intro hcreating
    have hcreated := h.willCreate_created hf (creating_willCreate hcreating)
    have hlt := h.controller_lt k hk
    omega
  rw [heffect.controller, if_neg hnot]
  by_cases hclearing : f.clearing = true
  · rw [if_pos hclearing]
    exact .inr ⟨rfl, hclearing⟩
  · rw [if_neg hclearing]
    exact .inl hk

theorem Inv.clears_after (h : Inv s) (hf : s.At i f) (hr : stepFlow s.shared e f = some r)
    (hmem : some g ∈ (after s i r).threads) : g.Clears r.shared := by
  have heffect := stepFlow_effect hr
  rcases mem_after hmem with ⟨j, hij, hold⟩ | hown | hown
  · -- a controller that appears in the field now is new, and then no thread is clearing it
    have hfield : g.clearing = true → ∀ k, r.shared.controller = some k →
        s.shared.controller = some k := by
      intro hclearing k hk
      rw [heffect.controller] at hk
      split_ifs at hk with hcreating
      · exfalso
        have hcreated := h.willCreate_created hf (creating_willCreate hcreating)
        cases g with
        | job id pc =>
          obtain ⟨-, hstage, -⟩ := h.at_fits hold
          cases pc with
          | clearController =>
            rw [if_neg (by simp)] at hstage
            omega
          | _ => cases hclearing
        | stop caller pc =>
          cases pc with
          | clearController current =>
            obtain ⟨id, rfl, -⟩ := h.barren caller _ (List.mem_of_getElem? hold) rfl f
              (List.mem_of_getElem? hf) (creating_willCreate hcreating)
            cases hcreating
          | _ => cases hclearing
        | _ => cases hclearing
      · exact hk
    have hclears := h.clears g (List.mem_of_getElem? hold)
    cases g with
    | job id pc =>
      cases pc with
      | clearController => exact fun k hk => heffect.destroyed (hclears k (hfield rfl k hk))
      | _ => trivial
    | stop caller pc =>
      cases pc with
      | clearController current => exact fun k hk => hclears k (hfield rfl k hk)
      | _ => trivial
    | _ => trivial
  · cases f with
    | job id pc =>
      rcases (stepJob_next hr).2 g hown with rfl | ⟨pc', rfl, -, -, -, hclear⟩
      · trivial
      cases pc' with
      | clearController =>
        intro k hk
        rcases hclear rfl with ⟨rfl, hnone⟩ | ⟨j, rfl⟩
        · rw [heffect.controller, if_neg (by simp [Flow.creating]), if_neg (by simp [Flow.clearing]),
            hnone] at hk
          cases hk
        · obtain ⟨-, -, hdestroy⟩ := h.at_fits hf
          have hj := hdestroy j rfl
          cases hr
          have hlt := h.controller_lt k hk
          have hone := h.created_le.trans h.jobs_le
          obtain rfl : j = k := by omega
          exact List.mem_append_right _ (List.mem_singleton_self j)
      | _ => trivial
    | stop caller pc =>
      cases hr
      cases pc with
      | readController =>
        cases hown
        exact fun k hk => hk
      | check =>
        simp only [stepStop] at hown
        split_ifs at hown <;> cases hown
        trivial
      | launch current =>
        cases caller <;> cases hown
        trivial
      | _ =>
        cases hown
        trivial
    | launchJob | storeJob _ | cancelScope | cleanup _ =>
      cases hr
      cases hown <;> trivial
  · cases f with
    | job id pc =>
      rw [(stepJob_next hr).1] at hown
      cases hown
    | stop caller pc =>
      cases hr
      cases pc <;> simp only [stepStop, List.not_mem_nil] at hown
      cases List.mem_singleton.mp hown
      trivial
    | launchJob =>
      cases hr
      cases List.mem_singleton.mp hown
      trivial
    | storeJob _ | cancelScope | cleanup _ =>
      cases hr
      cases hown

theorem handed_of_mem {t : ServiceState} {k : ℕ} (hmem : some g ∈ t.threads)
    (hk : g.holding = some k) : Handed t k := handed_iff.mpr (.inr ⟨g, hmem, hk⟩)

/-- A controller that has been handed over stays so. -/
theorem Handed.step {k : ℕ} (h : Handed s k) (hf : s.At i f) (hr : stepFlow s.shared e f = some r) :
    Handed (after s i r) k := by
  have heffect := stepFlow_effect hr
  rcases handed_iff.mp h with hdestroyed | ⟨g, hmem, hk⟩
  · exact .inl (heffect.destroyed hdestroyed)
  rcases mem_stays (r := r) hf hmem with rfl | hstays
  swap
  · exact handed_of_mem hstays hk
  cases g with
  | stop caller pc =>
    cases pc with
    | clearController current =>
      cases hr
      exact handed_of_mem (next_mem hf rfl) hk
    | launch current =>
      cases hr
      exact handed_of_mem (spawned_mem (List.mem_singleton_self _)) hk
    | _ => cases hk
  | cleanup current =>
    cases hr
    have hcurrent : current = some k := hk
    exact .inl (List.mem_append_right _ (by rw [hcurrent]; exact List.mem_singleton_self k))
  | job id pc =>
    cases pc with
    | destroyResources j =>
      cases hr
      obtain rfl := Option.some.inj hk
      exact .inl (List.mem_append_right _ (List.mem_singleton_self j))
    | _ => cases hk
  | launchJob | storeJob _ | cancelScope => cases hk

/-- The controller in the field stays there or is handed over. -/
theorem Inv.handed_or_controller (h : Inv s) (hf : s.At i f)
    (hr : stepFlow s.shared e f = some r) {k : ℕ} (hk : s.shared.controller = some k) :
    Handed (after s i r) k ∨ r.shared.controller = some k := by
  rcases h.controller_after hf hr hk with hsame | ⟨-, hclearing⟩
  · exact .inr hsame
  have hclears := h.clears f (List.mem_of_getElem? hf)
  cases f with
  | job id pc =>
    cases pc with
    | clearController => exact .inl (.inl ((stepFlow_effect hr).destroyed (hclears k hk)))
    | _ => cases hclearing
  | stop caller pc =>
    cases pc with
    | clearController current =>
      cases hr
      exact .inl (handed_of_mem (next_mem hf rfl) (hclears k hk))
    | _ => cases hclearing
  | _ => cases hclearing

theorem Inv.kept_after (h : Inv s) (hf : s.At i f) (hr : stepFlow s.shared e f = some r) :
    ∀ k < r.shared.created, Handed (after s i r) k ∨ r.shared.controller = some k := by
  have heffect := stepFlow_effect hr
  intro k hk
  by_cases hold : k < s.shared.created
  · rcases h.kept k hold with hhanded | hfield
    · exact .inl (hhanded.step hf hr)
    · exact h.handed_or_controller hf hr hfield
  · rw [heffect.created] at hk
    split_ifs at hk with hcreating
    swap
    · exact absurd hk hold
    obtain rfl : k = s.shared.created := by omega
    exact .inr (heffect.controller.trans (if_pos hcreating))

/-- Someone who is going to read the controller in the field is there until it has been handed over. -/
theorem Inv.owed_step (h : Inv s) (hf : s.At i f) (hr : stepFlow s.shared e f = some r) {k : ℕ}
    (howed : Owed s k) : Owed (after s i r) k := by
  have heffect := stepFlow_effect hr
  rcases howed with hhanded | ⟨hfield, g, hmem, hreads⟩
  · exact .inl (hhanded.step hf hr)
  rcases h.handed_or_controller hf hr hfield with hhanded | hfield'
  · exact .inl hhanded
  rcases mem_stays (r := r) hf hmem with rfl | hstays
  · cases g with
    | stop caller pc =>
      cases hr
      cases pc with
      | check =>
        have hflag : s.shared.isStopping = false := by simpa [Flow.reads] using hreads
        exact .inr ⟨hfield, .stop caller .setStopping, next_mem hf (by simp [stepStop, hflag]), rfl⟩
      | readController => exact .inl (handed_of_mem (next_mem hf rfl) hfield)
      | clearController _ | launch _ => cases hreads
      | _ => exact .inr ⟨hfield', _, next_mem hf rfl, rfl⟩
    | _ => cases hreads
  · by_cases hsets : f.setsStopping = true
    · obtain ⟨caller, rfl⟩ := setsStopping_eq hsets
      cases hr
      exact .inr ⟨hfield', _, next_mem hf rfl, rfl⟩
    · refine .inr ⟨hfield', g, hstays, ?_⟩
      have hsame : r.shared.isStopping = s.shared.isStopping := by
        rw [heffect.isStopping, Bool.eq_false_iff.mpr hsets, Bool.or_false]
      change g.reads r.shared = true
      cases g with
      | stop caller pc =>
        cases pc with
        | check =>
          change (!r.shared.isStopping) = true
          rw [hsame]
          exact hreads
        | _ => exact hreads
      | _ => exact hreads

theorem Inv.owed_after (h : Inv s) (hf : s.At i f) (hr : stepFlow s.shared e f = some r) :
    ∀ k < r.shared.created, r.shared.isStopping = true ∨ k < r.shared.asked →
      Owed (after s i r) k := by
  have heffect := stepFlow_effect hr
  intro k hk hdue
  rw [heffect.asked, heffect.isStopping] at hdue
  by_cases hold : k < s.shared.created
  · by_cases hdue' : s.shared.isStopping = true ∨ k < s.shared.asked
    · exact h.owed_step hf hr (h.owed k hold hdue')
    -- the flag goes up with this step, and the thread is going to read the field
    have hsets : f.setsStopping = true := by
      rw [Bool.or_eq_true] at hdue
      tauto
    obtain ⟨caller, rfl⟩ := setsStopping_eq hsets
    rcases h.kept k hold with hhanded | hfield
    · exact .inl (hhanded.step hf hr)
    · cases hr
      exact .inr ⟨hfield, _, next_mem hf rfl, rfl⟩
  · rw [heffect.created] at hk
    split_ifs at hk with hcreating
    swap
    · exact absurd hk hold
    have hcreated := h.willCreate_created hf (creating_willCreate hcreating)
    obtain rfl : k = s.shared.created := by omega
    have hsets : f.setsStopping = false := by
      cases f with
      | stop _ _ => cases hcreating
      | _ => rfl
    have hasked := h.asked_le
    have hstopping : s.shared.isStopping = true := by
      rw [hsets, Bool.or_false] at hdue
      exact hdue.resolve_right (by omega)
    rcases h.stopping hstopping with hbarren | ⟨caller, pc, hmem, hpc⟩
    · obtain ⟨id, rfl, -⟩ := hbarren f (List.mem_of_getElem? hf) (creating_willCreate hcreating)
      cases hcreating
    · refine .inr ⟨heffect.controller.trans (if_pos hcreating), .stop caller pc, ?_, ?_⟩
      · rcases mem_stays (r := r) hf hmem with rfl | hstays
        · cases hcreating
        · exact hstays
      · rcases hpc with rfl | rfl <;> rfl

/-- What one step of a thread preserves. -/
theorem Inv.run (h : Inv s) (hcautious : Cautious s (.run i e)) (hf : s.At i f)
    (hr : stepFlow s.shared e f = some r) : Inv (after s i r) := by
  have heffect := stepFlow_effect hr
  have hstep : Pool.step (fun _ => stepFlow) s i e = some (after s i r) := by
    have hthread : s.threads[i]? = some (some f) := hf
    simp only [Pool.step, hthread, hr, Option.map_some]
  have hcreated : r.shared.created ≤ r.shared.jobs ∧ r.shared.jobs ≤ 1 := by
    have hle := h.created_le
    have hjobs := h.jobs_le
    have hfits := h.at_fits hf
    rw [heffect.created, heffect.jobs]
    by_cases hcreating : f.creating = true
    · have hnone := h.willCreate_created hf (creating_willCreate hcreating)
      cases f with
      | job id pc =>
        rw [if_pos hcreating, if_neg (by simp)]
        have hid := hfits.1
        omega
      | _ => cases hcreating
    · rw [if_neg hcreating]
      split_ifs with hlaunch
      · subst hlaunch
        have hzero : s.shared.jobs = 0 := hfits
        omega
      · exact ⟨hle, hjobs⟩
  refine ⟨?_, ?_, hcreated.2, hcreated.1, ?_, ?_, ?_, fun g hg => h.clears_after hf hr hg,
    fun id hid => h.stored_after hf hr hid, fun caller pc => h.barren_after hcautious hf hr,
    h.stopping_after hcautious hf hr, h.kept_after hf hr, h.owed_after hf hr⟩
  · refine h.main.step hstep fun f' r' hr' => ?_
    obtain ⟨hnext, hspawned⟩ := onMain_step hr'
    refine ⟨fun g hg hmain => ⟨hnext g hg hmain, fun g' hg' => by simp [hspawned g' hg']⟩,
      fun g hg hmain => absurd hmain (by simp [hspawned g hg]), (willCreate_step hr').2.2⟩
  · refine h.creator.step hstep fun f' r' hr' => ?_
    obtain ⟨hnext, hspawned, hone⟩ := willCreate_step hr'
    refine ⟨fun g hg hcreate => ?_, fun g hg hcreate => ?_, hone⟩
    · obtain ⟨hwas, hnone⟩ := hnext g hg hcreate
      exact ⟨hwas, by simp [hnone]⟩
    · rw [hspawned g hg hcreate]
      rfl
  · intro k hk
    change r.shared.controller = some k at hk
    change k < r.shared.created
    rw [heffect.controller] at hk
    rw [heffect.created]
    split_ifs at hk with hcreating hclearing
    · cases hk
      rw [if_pos hcreating]
      exact Nat.lt_succ_self _
    · have hlt := h.controller_lt k hk
      rw [if_neg hcreating]
      exact hlt
  · change r.shared.asked ≤ r.shared.created
    have hasked := h.asked_le
    rw [heffect.asked, heffect.created]
    split_ifs <;> omega
  · intro g hg
    rcases mem_after hg with ⟨j, hij, hold⟩ | hown | hown
    · exact h.other_fits hf hr hij hold
    · exact (h.own_fits hf hr).1 g hown
    · exact (h.own_fits hf hr).2 g hown

end Run

end SoftEtherVpn.Service

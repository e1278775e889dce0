import SoftEtherVpn.Controller.Flows

/-!
# A disconnect is final

After `disconnect` or `destroyResources` has set `isCancelled`, nothing may establish the
VPN interface or announce CONNECTED until the user asks for it again. The flows keep to
this as far as they read `isCancelled`: not from their last check on, and not when one of
them stores `false` in it.
-/

namespace SoftEtherVpn.Controller

open Foundation

/-- The next step sets `isCancelled`. -/
def Flow.cancels : Flow → Bool
  | .disconnect _ .setCancelled => true
  | .destroyResources .setCancelled => true
  | _ => false

/-- The next step stores `false` in `isCancelled`. -/
def Flow.resets : Flow → Bool
  | .connect _ .resetCancelled => true
  | .reconnect .resetCancelled => true
  | .attemptReconnect .resetCancelled => true
  | _ => false

/-- The flow is on its way to the interface or to CONNECTED and reads `isCancelled` no more. -/
def Flow.pastCheck : Flow → Bool
  | .connect _ (.establish _) => true
  | .connect _ .setConnected => true
  | .attemptReconnect .doDhcp => true
  | .attemptReconnect (.establish _) => true
  | .attemptReconnect .setConnected => true
  | .monitor (.setState .connected) => true
  | _ => false

/-- The step does not store `false` in `isCancelled`. -/
def KeepsCancelled (s : ControllerState) : ControllerEvent → Prop
  | .run i _ => ∀ f, s.threads[i]? = some (some f) → f.resets = false
  | _ => True

/-- What a step of a flow does to the cancel flag and to the log of effects. -/
structure Quiet (c : Fields) (f : Flow) (r : Outcome Fields Flow) : Prop where
  cancelled : c.isCancelled = true → f.resets = false → r.shared.isCancelled = true
  effects : f.pastCheck = false → r.shared.effects = c.effects
  next : c.isCancelled = true → f.pastCheck = false → ∀ g ∈ r.next, g.pastCheck = false
  spawned : ∀ g ∈ r.spawned, g.pastCheck = false

section

variable {c : Fields} {i : ℕ} {a : Answers} {r : Outcome Fields Flow}

theorem stepDrop_frame (i : ℕ) (c : Fields) (pc : DropPc) :
    (stepDrop i c pc).1.isCancelled = c.isCancelled ∧ (stepDrop i c pc).1.effects = c.effects := by
  cases pc <;> exact ⟨rfl, rfl⟩

theorem nativeCreate_frame (c : Fields) (i : ℕ) (ok : Bool) :
    (c.nativeCreate i ok).isCancelled = c.isCancelled ∧
      (c.nativeCreate i ok).effects = c.effects := by
  cases ok <;> exact ⟨rfl, rfl⟩

theorem setState_effects {state : ConnectionState} (h : state ≠ .connected) :
    (c.setState state).effects = c.effects := if_neg h

theorem ConnectCaller.resume_pastCheck (caller : ConnectCaller) :
    ∀ g ∈ caller.resume, g.pastCheck = false := by
  cases caller <;> simp [ConnectCaller.resume, Flow.pastCheck]

theorem DisconnectCaller.resume_pastCheck (caller : DisconnectCaller) :
    ∀ g ∈ caller.resume, g.pastCheck = false := by
  cases caller <;> simp [DisconnectCaller.resume, Flow.pastCheck]

theorem DisconnectCaller.resumeThrown_pastCheck (caller : DisconnectCaller) :
    ∀ g ∈ caller.resumeThrown, g.pastCheck = false := by
  cases caller <;> simp [DisconnectCaller.resumeThrown, Flow.pastCheck]

theorem dataLoops_pastCheck : ∀ g ∈ dataLoops, g.pastCheck = false := by decide

/-- A step that leaves the flag and the log alone and does not pass a check. -/
theorem Quiet.of_frame {f : Flow} {c' : Fields} {next : Option Flow} {spawned : List Flow}
    (hcancelled : c'.isCancelled = c.isCancelled) (heffects : c'.effects = c.effects)
    (hnext : ∀ g ∈ next, g.pastCheck = false) (hspawned : ∀ g ∈ spawned, g.pastCheck = false) :
    Quiet c f ⟨c', next, spawned⟩ :=
  ⟨fun h _ => hcancelled.trans h, fun _ => heffects, fun _ _ => hnext, hspawned⟩

theorem Quiet.goTo {f g : Flow} {c' : Fields} (hcancelled : c'.isCancelled = c.isCancelled)
    (heffects : c'.effects = c.effects) (hg : g.pastCheck = false) :
    Quiet c f ⟨c', some g, []⟩ := by
  refine .of_frame hcancelled heffects ?_ (by simp)
  rintro _ ⟨⟩
  exact hg

/-- A step from a place where only the flag may change. -/
theorem Quiet.resets {f g : Flow} {c' : Fields} (hf : f.resets = true)
    (heffects : c'.effects = c.effects) (hg : g.pastCheck = false) :
    Quiet c f ⟨c', some g, []⟩ := by
  refine ⟨fun _ h => absurd (hf.symm.trans h) (by decide), fun _ => heffects, fun _ _ => ?_,
    by simp⟩
  rintro _ ⟨⟩
  exact hg

/-- A step past the last check. -/
theorem Quiet.pastCheck {f : Flow} {c' : Fields} {next : Option Flow} (hf : f.pastCheck = true)
    (hcancelled : c'.isCancelled = c.isCancelled) : Quiet c f ⟨c', next, []⟩ := by
  have hno : ¬ f.pastCheck = false := by simp [hf]
  exact ⟨fun h _ => hcancelled.trans h, fun h => absurd h hno, fun _ h => absurd h hno, by simp⟩

/-- A step that has found the flag down. -/
theorem Quiet.checked {f : Flow} {next : Option Flow} (h : ¬ c.isCancelled = true) :
    Quiet c f ⟨c, next, []⟩ :=
  ⟨fun hc => absurd hc h, fun _ => rfl, fun hc => absurd hc h, by simp⟩

/-- A step of a teardown, wherever it goes on. -/
theorem Quiet.drop {f g : Flow} {pc : DropPc} (hg : g.pastCheck = false) :
    Quiet c f ⟨(stepDrop i c pc).1, some g, []⟩ :=
  .goTo (stepDrop_frame i c pc).1 (stepDrop_frame i c pc).2 hg

theorem stepConnect_quiet {caller : ConnectCaller} {pc : ConnectPc}
    (h : stepConnect caller i c a pc = some r) : Quiet c (.connect caller pc) r := by
  have hresume := caller.resume_pastCheck
  cases pc with
  | resetCancelled =>
    cases h
    exact .resets rfl rfl rfl
  | establish lease =>
    cases h
    exact .pastCheck rfl rfl
  | setConnected =>
    cases h
    exact .pastCheck rfl rfl
  | nativeCreate =>
    cases h
    obtain ⟨hcancelled, heffects⟩ := nativeCreate_frame c i a.created
    refine .goTo hcancelled heffects ?_
    cases a.created <;> rfl
  | tearDown pc =>
    simp only [stepConnect, SoftEtherVpn.Controller.goTo, Option.some.injEq] at h
    subst h
    refine .drop ?_
    cases (stepDrop i c pc).2 <;> rfl
  | startMonitor =>
    cases h
    exact .of_frame rfl rfl (by simp [Flow.pastCheck]) (by simp [Flow.pastCheck])
  | startDataForwarding =>
    simp only [stepConnect] at h
    split_ifs at h <;> cases h
    · exact .of_frame rfl rfl (by simp [Flow.pastCheck]) dataLoops_pastCheck
    · exact .goTo rfl rfl rfl
  | _ =>
    simp only [stepConnect, SoftEtherVpn.Controller.goTo] at h
    try split_ifs at h
    all_goals cases h
    all_goals
      first
      | exact .goTo rfl rfl rfl
      | exact .of_frame rfl rfl hresume (by simp)
      | exact .checked ‹_›

theorem stepDisconnect_quiet {caller : DisconnectCaller} {pc : DisconnectPc}
    (h : stepDisconnect caller i c pc = some r) : Quiet c (.disconnect caller pc) r := by
  have hresume := caller.resume_pastCheck
  have hthrown := caller.resumeThrown_pastCheck
  cases pc with
  | setCancelled =>
    cases h
    exact ⟨fun _ _ => rfl, fun _ => rfl, fun _ _ => by simp [Flow.pastCheck], by simp⟩
  | tearDown pc =>
    simp only [stepDisconnect, SoftEtherVpn.Controller.goTo, Option.some.injEq] at h
    subst h
    refine .drop ?_
    cases (stepDrop i c pc).2 <;> rfl
  | _ =>
    simp only [stepDisconnect, SoftEtherVpn.Controller.goTo] at h
    try split_ifs at h
    all_goals cases h
    all_goals
      first
      | exact .goTo rfl rfl rfl
      | exact .of_frame rfl rfl hresume (by simp)
      | exact .of_frame rfl rfl hthrown (by simp)

theorem stepDestroyResources_quiet {pc : DestroyPc} (h : stepDestroyResources i c pc = some r) :
    Quiet c (.destroyResources pc) r := by
  cases pc with
  | setCancelled =>
    cases h
    exact ⟨fun _ _ => rfl, fun _ => rfl, fun _ _ => by simp [Flow.pastCheck], by simp⟩
  | destroyHandle pc =>
    simp only [stepDestroyResources, Option.some.injEq] at h
    subst h
    refine .of_frame (stepDrop_frame i c pc).1 (stepDrop_frame i c pc).2 ?_ (by simp)
    intro g hg
    obtain ⟨pc', -, rfl⟩ := Option.map_eq_some_iff.mp hg
    rfl
  | _ =>
    simp only [stepDestroyResources, SoftEtherVpn.Controller.goTo, finish] at h
    try split_ifs at h
    all_goals cases h
    all_goals
      first
      | exact .goTo rfl rfl rfl
      | exact .of_frame rfl rfl (by simp) (by simp)

theorem stepReconnect_quiet {pc : ReconnectPc} (h : stepReconnect c a pc = some r) :
    Quiet c (.reconnect pc) r := by
  cases pc with
  | resetCancelled =>
    cases h
    exact .resets rfl rfl rfl
  | _ =>
    simp only [stepReconnect, SoftEtherVpn.Controller.goTo, finish] at h
    try split_ifs at h
    all_goals cases h
    all_goals
      first
      | exact .goTo rfl rfl rfl
      | exact .of_frame rfl rfl (by simp) (by simp)

theorem stepAttemptReconnect_quiet {pc : AttemptPc} (h : stepAttemptReconnect i c a pc = some r) :
    Quiet c (.attemptReconnect pc) r := by
  cases pc with
  | resetCancelled =>
    cases h
    exact .resets rfl rfl rfl
  | doDhcp =>
    cases h
    exact .pastCheck rfl rfl
  | establish lease =>
    cases h
    exact .pastCheck rfl rfl
  | setConnected =>
    cases h
    exact .pastCheck rfl rfl
  | nativeCreate =>
    cases h
    obtain ⟨hcancelled, heffects⟩ := nativeCreate_frame c i a.created
    refine .goTo hcancelled heffects ?_
    cases a.created <;> rfl
  | dropOld pc =>
    simp only [stepAttemptReconnect, SoftEtherVpn.Controller.goTo, Option.some.injEq] at h
    subst h
    refine .drop ?_
    cases (stepDrop i c pc).2 <;> rfl
  | dropCancelled pc =>
    simp only [stepAttemptReconnect, SoftEtherVpn.Controller.goTo, Option.some.injEq] at h
    subst h
    refine .drop ?_
    cases (stepDrop i c pc).2 <;> rfl
  | dropFailed pc =>
    simp only [stepAttemptReconnect, SoftEtherVpn.Controller.goTo, Option.some.injEq] at h
    subst h
    refine .drop ?_
    cases (stepDrop i c pc).2 <;> rfl
  | startMonitor =>
    cases h
    exact .of_frame rfl rfl (by simp [Flow.pastCheck]) (by simp [Flow.pastCheck])
  | startDataForwarding =>
    simp only [stepAttemptReconnect] at h
    split_ifs at h <;> cases h
    · exact .of_frame rfl rfl (by simp [Flow.pastCheck]) dataLoops_pastCheck
    · exact .goTo rfl rfl rfl
  | _ =>
    simp only [stepAttemptReconnect, SoftEtherVpn.Controller.goTo, finish] at h
    try split_ifs at h
    all_goals cases h
    all_goals
      first
      | exact .goTo rfl rfl rfl
      | exact .checked ‹_›
      | exact .of_frame rfl rfl (by simp) (by simp)

theorem stepLoop_quiet {l : Loop} {pc : LoopPc} (h : stepLoop l c a pc = some r) :
    Quiet c (.loop l pc) r := by
  have hloop : ∀ pc : LoopPc, (Flow.loop l pc).pastCheck = false := fun _ => rfl
  cases pc with
  | head guards =>
    cases guards with
    | nil =>
      cases h
      exact .goTo rfl rfl rfl
    | cons g guards =>
      simp only [stepLoop, SoftEtherVpn.Controller.goTo, finish] at h
      split_ifs at h <;> cases h
      · exact .goTo rfl rfl rfl
      · exact .of_frame rfl rfl (by simp) (by simp)
  | blocked =>
    simp only [stepLoop, Option.some.injEq] at h
    subst h
    refine .of_frame rfl rfl ?_ (by simp)
    intro g hg
    obtain ⟨pc', -, rfl⟩ := Option.map_eq_some_iff.mp hg
    exact hloop pc'
  | report guards last =>
    cases guards with
    | nil =>
      cases h
      refine .of_frame rfl rfl ?_ (by simp [Flow.pastCheck])
      cases last <;> simp [Flow.pastCheck]
    | cons g guards =>
      simp only [stepLoop, SoftEtherVpn.Controller.goTo] at h
      split_ifs at h <;> cases h
      · exact .goTo rfl rfl rfl
      · exact .of_frame rfl rfl (by simp) (by simp)
      · exact .goTo rfl rfl rfl

theorem stepMonitor_quiet {pc : MonitorPc} (h : stepMonitor c a pc = some r) :
    Quiet c (.monitor pc) r := by
  cases pc with
  | poll =>
    simp only [stepMonitor] at h
    cases hmapped : mapNativeState a.nativeState with
    | none =>
      rw [hmapped] at h
      cases h
      exact .goTo rfl rfl rfl
    | some mapped =>
      rw [hmapped] at h
      dsimp only at h
      split_ifs at h with hwrite <;> cases h
      · refine .goTo rfl rfl ?_
        have hne := hwrite.2.1
        cases mapped <;> first | rfl | exact absurd rfl hne
      · exact .goTo rfl rfl rfl
  | setState mapped =>
    cases h
    by_cases hmapped : mapped = .connected
    · subst hmapped
      exact .pastCheck rfl rfl
    · exact .goTo rfl (setState_effects hmapped) rfl
  | _ =>
    simp only [stepMonitor, SoftEtherVpn.Controller.goTo, finish] at h
    split_ifs at h <;> cases h
    all_goals
      first
      | exact .goTo rfl rfl rfl
      | exact .of_frame rfl rfl (by simp) (by simp)

theorem stepFlow_quiet {f : Flow} (h : stepFlow i c a f = some r) : Quiet c f r := by
  cases f with
  | connect caller pc => exact stepConnect_quiet h
  | disconnect caller pc => exact stepDisconnect_quiet h
  | destroyResources pc => exact stepDestroyResources_quiet h
  | reconnect pc => exact stepReconnect_quiet h
  | attemptReconnect pc => exact stepAttemptReconnect_quiet h
  | loop l pc => exact stepLoop_quiet h
  | monitor pc => exact stepMonitor_quiet h

/-- The flag is up and no flow is past its last check. -/
structure Cancelled (s : ControllerState) : Prop where
  flag : s.shared.isCancelled = true
  checked : s.All fun f => f.pastCheck = false

variable {s t : ControllerState} {e : ControllerEvent}

/-- A step that does not store `false` in the flag keeps it up and has no effect. -/
theorem Cancelled.step (h : Cancelled s) (hkeeps : KeepsCancelled s e)
    (hstep : controllerStep s e = some t) :
    Cancelled t ∧ t.shared.effects = s.shared.effects := by
  cases e with
  | request q =>
    obtain rfl := Option.some.inj hstep
    refine ⟨⟨h.flag, h.checked.start ?_⟩, rfl⟩
    cases q <;> rfl
  | network available =>
    obtain rfl := Option.some.inj hstep
    exact ⟨⟨h.flag, h.checked⟩, rfl⟩
  | run i a =>
    have hchecked := h.checked.step hstep fun f r hf hr =>
      ⟨(stepFlow_quiet hr).next h.flag hf, (stepFlow_quiet hr).spawned⟩
    obtain ⟨f, r, hf, hr, rfl⟩ := Pool.step_cases hstep
    have hquiet := stepFlow_quiet hr
    have hpast := h.checked f (List.mem_of_getElem? hf)
    exact ⟨⟨hquiet.cancelled h.flag (hkeeps f hf), hchecked⟩, hquiet.effects hpast⟩

/-- As long as nobody lowers the flag, nothing is announced. -/
theorem Cancelled.run {es : List ControllerEvent} (h : Cancelled s)
    (hkeeps : Along controllerStep KeepsCancelled s es) (hrun : exec controllerStep s es = some t) :
    t.shared.effects = s.shared.effects := by
  have hinv := exec_invariant_along
    (I := fun u => Cancelled u ∧ u.shared.effects = s.shared.effects)
    (fun u _ v hu hok hstep => ⟨(hu.1.step hok hstep).1, ((hu.1.step hok hstep).2).trans hu.2⟩)
    ⟨h, rfl⟩ hkeeps hrun
  exact hinv.2

/-- One more step of a flow that does not lower the flag. -/
theorem exists_effect_of_step {f : Flow} {r : Outcome Fields Flow}
    (hf : s.threads[i]? = some (some f)) (hresets : f.resets = false)
    (hr : stepFlow i s.shared a f = some r)
    (hrest : ∃ es t, Along controllerStep KeepsCancelled
      ⟨r.shared, s.threads.set i r.next ++ r.spawned.map some⟩ es ∧
      exec controllerStep ⟨r.shared, s.threads.set i r.next ++ r.spawned.map some⟩ es = some t ∧
      t.shared.effects ≠ s.shared.effects) :
    ∃ es t, Along controllerStep KeepsCancelled s es ∧ exec controllerStep s es = some t ∧
      t.shared.effects ≠ s.shared.effects := by
  obtain ⟨es, t, hkeeps, hrun, hne⟩ := hrest
  have hstep : controllerStep s (.run i a) =
      some ⟨r.shared, s.threads.set i r.next ++ r.spawned.map some⟩ := by
    simp [controllerStep, Pool.step, hf, hr]
  refine ⟨.run i a :: es, t, ⟨?_, ?_⟩, exec_cons_eq_some.mpr ⟨_, hstep, hrun⟩, hne⟩
  · intro g hg
    obtain rfl := Option.some.inj (Option.some.inj (hf.symm.trans hg))
    exact hresets
  · intro u hu
    obtain rfl := Option.some.inj (hstep.symm.trans hu)
    exact hkeeps

/-- A flow past its check can go on to its effect. -/
theorem exists_effect {f : Flow} (hf : s.threads[i]? = some (some f)) (hpast : f.pastCheck = true) :
    ∃ es t, Along controllerStep KeepsCancelled s es ∧ exec controllerStep s es = some t ∧
      t.shared.effects ≠ s.shared.effects := by
  have hlt : i < s.threads.length := (List.getElem?_eq_some_iff.mp hf).1
  unfold Flow.pastCheck at hpast
  split at hpast
  case h_3 =>
    -- the DHCP exchange comes first, then the interface
    refine exists_effect_of_step (a := .success) hf rfl rfl ?_
    refine exists_effect_of_step (i := i) (a := .success) (f := .attemptReconnect (.establish true))
      (by simp [hlt, Answers.success]) rfl rfl ⟨[], _, trivial, rfl, ?_⟩
    simp [Fields.establishVpnInterface]
  case h_7 => cases hpast
  all_goals
    refine exists_effect_of_step (a := .success) hf rfl rfl ⟨[], _, trivial, rfl, ?_⟩
    simp [Fields.establishVpnInterface, Fields.setState]

/-- A step that sets the flag leaves the log and the other flows alone. -/
theorem cancels_step {f : Flow} (hf : s.threads[i]? = some (some f)) (hcancels : f.cancels = true)
    (hstep : controllerStep s (.run i a) = some t) :
    t.shared.isCancelled = true ∧ t.shared.effects = s.shared.effects ∧
      ((t.All fun g => g.pastCheck = false) ↔ s.All fun g => g.pastCheck = false) := by
  have hpast : f.pastCheck = false := by
    unfold Flow.cancels at hcancels
    split at hcancels <;> first | rfl | cases hcancels
  have hstep' := hstep
  obtain ⟨f', r, hf', hr, rfl⟩ := Pool.step_cases hstep
  obtain rfl := Option.some.inj (Option.some.inj (hf.symm.trans hf'))
  have hset : r.shared.isCancelled = true ∧ ∀ g ∈ r.next, g.pastCheck = false := by
    unfold Flow.cancels at hcancels
    split at hcancels
    case h_3 => cases hcancels
    all_goals
      cases hr
      exact ⟨rfl, by simp [Flow.pastCheck]⟩
  have hquiet := stepFlow_quiet hr
  refine ⟨hset.1, hquiet.effects hpast, fun h => h.of_step hf hpast hstep', fun h => ?_⟩
  intro g hg
  rcases Pool.mem_set_append hg with hg | hg | hg
  · exact h g hg
  · exact hset.2 g hg
  · exact hquiet.spawned g hg

end

/-- After a `disconnect` or a `destroyResources` has set the flag, no run in which nobody lowers
the flag again establishes the interface or announces CONNECTED, if and only if no flow was past
its last check when the flag was set. -/
theorem disconnect_final_iff {s t : ControllerState} {i : ℕ} {f : Flow} {a : Answers}
    (hf : s.threads[i]? = some (some f)) (hcancels : f.cancels = true)
    (hstep : controllerStep s (.run i a) = some t) :
    (∀ es u, Along controllerStep KeepsCancelled t es → exec controllerStep t es = some u →
        u.shared.effects = s.shared.effects) ↔
      s.All fun g => g.pastCheck = false := by
  obtain ⟨hflag, heffects, hchecked⟩ := cancels_step hf hcancels hstep
  rw [← hchecked, ← heffects]
  constructor
  · intro h g hg
    by_contra hpast
    obtain ⟨j, hj⟩ := List.mem_iff_getElem?.mp hg
    obtain ⟨es, u, hkeeps, hrun, hne⟩ := exists_effect hj (by simpa using hpast)
    exact hne (h es u hkeeps hrun)
  · intro h es u hkeeps hrun
    exact Cancelled.run ⟨hflag, h⟩ hkeeps hrun

/-- A connect that is inside `nativeConnectWithHub` when the user disconnects. -/
def connectingRun : List ControllerEvent :=
  .request .connect :: runs 0 14 ++ [.request .disconnect]

/-- The cancel lands in the native call, before three of the checks. -/
theorem connectingRun_final : ∃ s t, exec controllerStep newController connectingRun = some s ∧
    s.threads[0]? = some (some (.connect .user .nativeConnect)) ∧
    controllerStep s (.run 2 .success) = some t ∧
    ∀ es u, Along controllerStep KeepsCancelled t es → exec controllerStep t es = some u →
      u.shared.effects = s.shared.effects := by
  have h : (exec controllerStep newController connectingRun).map (·.threads) =
      some [some (.connect .user .nativeConnect), some (.monitor .checkCancelled),
        some (.disconnect .user .setCancelled)] := by decide
  obtain ⟨s, hs, hthreads⟩ := Option.map_eq_some_iff.mp h
  have hf : s.threads[2]? = some (some (.disconnect .user .setCancelled)) := by rw [hthreads]; rfl
  obtain ⟨t, hstep⟩ : ∃ t, controllerStep s (.run 2 .success) = some t := by
    simp [controllerStep, Pool.step, hf, stepFlow, stepDisconnect, goTo]
  refine ⟨s, t, hs, by rw [hthreads]; rfl, hstep, (disconnect_final_iff hf rfl hstep).mpr ?_⟩
  intro g hg
  rw [hthreads] at hg
  simp only [List.mem_cons, Option.some.injEq, List.not_mem_nil, or_false] at hg
  rcases hg with rfl | rfl | rfl <;> rfl

/-- A connection whose receive loop fails, up to the DHCP exchange of the automatic reconnect;
then `destroyResources` is called. -/
def reconnectingRun : List ControllerEvent :=
  .request .connect :: runs 0 28 ++ runs 3 3 ++ [.run 3 { Answers.success with outcome := .failed }] ++
    runs 3 3 ++ runs 5 17 ++ [.request .destroyResources]

/-- The reconnect does not look at the flag again after its DHCP exchange. -/
theorem reconnectingRun_not_final : ∃ s t u,
    exec controllerStep newController reconnectingRun = some s ∧
      s.threads[7]? = some (some (.destroyResources .setCancelled)) ∧
      controllerStep s (.run 7 .success) = some t ∧ t.shared.isCancelled = true ∧
      exec controllerStep t (runs 7 3 ++ runs 5 3) = some u ∧
      u.shared.currentState = .connected ∧
      u.shared.effects = s.shared.effects ++ [.establish true, .connected] := by
  have h : ((exec controllerStep newController reconnectingRun).bind fun s =>
      (controllerStep s (.run 7 .success)).bind fun t =>
        (exec controllerStep t (runs 7 3 ++ runs 5 3)).map fun u =>
          decide (s.threads[7]? = some (some (.destroyResources .setCancelled)) ∧
            t.shared.isCancelled = true ∧ u.shared.currentState = .connected ∧
            u.shared.effects = s.shared.effects ++ [.establish true, .connected])) = some true := by
    decide
  obtain ⟨s, hs, h⟩ := Option.bind_eq_some_iff.mp h
  obtain ⟨t, ht, h⟩ := Option.bind_eq_some_iff.mp h
  obtain ⟨u, hu, h⟩ := Option.map_eq_some_iff.mp h
  obtain ⟨hflow, hcancelled, hstate, heffects⟩ := of_decide_eq_true h
  exact ⟨s, t, u, hs, hflow, ht, hcancelled, hu, hstate, heffects⟩

end SoftEtherVpn.Controller

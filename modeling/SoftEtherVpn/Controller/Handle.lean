import SoftEtherVpn.Controller.Flows

/-!
# One owner of the native handle

The flag `connectInFlight` and the mutex are to make sure that one flow at a time creates,
uses and destroys the native handle. They do not: the automatic reconnect takes no lock,
`disconnect` unlocks a mutex that another flow has locked, and the flag is read and raised
in separate steps. As long as the flows keep out of each other's way, every handle is
destroyed once, by its owner.
-/

namespace SoftEtherVpn.Controller

open Foundation

/-- Where a flow stands in a teardown of the handle. -/
def Flow.dropPc : Flow → Option DropPc
  | .connect _ (.tearDown pc) => some pc
  | .disconnect _ (.tearDown pc) => some pc
  | .destroyResources (.destroyHandle pc) => some pc
  | .attemptReconnect (.dropOld pc) => some pc
  | .attemptReconnect (.dropCancelled pc) => some pc
  | .attemptReconnect (.dropFailed pc) => some pc
  | _ => none

/-- The flow has raised `connectInFlight` and not lowered it yet. -/
def Flow.inSection : Flow → Bool
  | .connect _ pc =>
    match pc with
    | .nativeCreate => true
    | .checkBeforeStart => true
    | .setTlsHandshake => true
    | .startMonitor => true
    | .nativeConnect => true
    | .checkAfterConnect _ => true
    | .checkResult _ => true
    | .setError => true
    | .checkConnected => true
    | .setSessionSetup => true
    | .clearAttemptsOnSuccess => true
    | .checkBeforeInterface => true
    | .doDhcp => true
    | .checkAfterDhcp _ => true
    | .establish _ => true
    | .setConnected => true
    | .startDataForwarding => true
    | .lowerInFlight => true
    | .tearDown _ => true
    | .lowerInFlightFailed => true
    | _ => false
  | .attemptReconnect pc =>
    match pc with
    | .nativeCreate => true
    | .startMonitor => true
    | .nativeConnect => true
    | .checkAfterConnect => true
    | .dropCancelled _ => true
    | .doDhcp => true
    | .establish _ => true
    | .setConnected => true
    | .startDataForwarding => true
    | .clearAttempts => true
    | _ => false
  | _ => false

/-- The next step raises `connectInFlight`, or starts a teardown outside the section. -/
def Flow.enters (c : Fields) : Flow → Bool
  | .connect _ .raiseInFlight => true
  | .disconnect _ .checkInFlight => !c.connectInFlight
  | .disconnect .attemptReconnect .unlock => c.connectionMutex = none
  | .destroyResources .checkInFlight => !c.connectInFlight
  | .attemptReconnect .closeInterface => true
  | .attemptReconnect .raiseInFlight => true
  | _ => false

def Flow.creates : Flow → Bool
  | .connect _ .nativeCreate => true
  | .attemptReconnect .nativeCreate => true
  | _ => false

/-- The flow is between locking and unlocking the mutex. -/
def Flow.holdsMutex : Flow → Bool
  | .connect _ pc =>
    match pc with
    | .checkIdle => false
    | .lock => false
    | _ => true
  | .disconnect _ pc =>
    match pc with
    | .checkState => true
    | .setDisconnecting => true
    | .checkInFlight => true
    | .tearDown _ => true
    | .checkLocked => true
    | .unlock => true
    | _ => false
  | _ => false

def Flow.triesLock : Flow → Bool
  | .disconnect _ .tryLock => true
  | _ => false

/-- Flow `i` may go on: no other flow is in flight or in a teardown if it enters, no handle is
overwritten, and `tryLock` finds the mutex free. -/
def FlowOk (s : ControllerState) (i : ℕ) (f : Flow) : Prop :=
  (f.enters s.shared = true →
    (∀ j ∈ s.shared.inFlight, j = i) ∧ ∀ j g, s.At j g → g.dropPc ≠ none → j = i) ∧
  (f.creates = true → s.shared.nativeHandle = 0) ∧
  (f.triesLock = true → s.shared.connectionMutex = none)

instance (s : ControllerState) (i : ℕ) (f : Flow) : Decidable (FlowOk s i f) :=
  inferInstanceAs (Decidable ((_ → (_ ∧ _)) ∧ (_ → _) ∧ (_ → _)))

def OwnerStepOk (s : ControllerState) : ControllerEvent → Prop
  | .run i _ => ∀ f, s.At i f → FlowOk s i f
  | _ => True

instance (s : ControllerState) (e : ControllerEvent) : Decidable (OwnerStepOk s e) :=
  match e with
  | .run i _ => inferInstanceAs (Decidable (∀ f, s.At i f → FlowOk s i f))
  | .request _ => inferInstanceAs (Decidable True)
  | .network _ => inferInstanceAs (Decidable True)

/-- The handles that have been passed to `nativeDestroy`. -/
def destroyedHandles (destroyed : List Destroyed) : List ℕ := destroyed.map Destroyed.handle

/-- Every handle has been destroyed, is in the field, or is about to be destroyed. -/
def Kept (s : ControllerState) : Prop :=
  ∀ h, 0 < h → h ≤ s.shared.creators.length → h ∈ destroyedHandles s.shared.destroyed ∨
    h = s.shared.nativeHandle ∨ ∃ i f, s.At i f ∧ f.dropPc = some (.destroy h)

/-- What the controller promises about its handles and its mutex. -/
structure SingleOwner (s : ControllerState) : Prop where
  one : ∀ i ∈ s.shared.inFlight, ∀ j ∈ s.shared.inFlight, i = j
  own : ∀ d ∈ s.shared.destroyed,
    s.shared.creator d.handle = some d.flow ∨ d.creatorInFlight = false
  once : (destroyedHandles s.shared.destroyed).Nodup
  kept : Kept s
  unlocks : ∀ p ∈ s.shared.unlocked, p.1 = p.2

/-! ### What a step does to the handle -/

/-- The part of the fields that is about the handle. -/
structure HandleView where
  handle : ℕ
  creators : List ℕ
  destroyed : List Destroyed
  inFlight : List ℕ

def Fields.view (c : Fields) : HandleView := ⟨c.nativeHandle, c.creators, c.destroyed, c.inFlight⟩

/-- Where a flow goes on that keeps out of teardowns, or is not in one any more. -/
def Calm (f : Flow) (next : Option Flow) : Prop :=
  ∀ g ∈ next, g.dropPc = none ∧ (g.inSection = true → f.inSection = true)

/-- The kinds of steps, as far as they are about the handle. -/
inductive HandleMove (i : ℕ) (c : Fields) (f : Flow) (r : Outcome Fields Flow) : Prop
  | plain (hf : f.dropPc = none) (hsame : r.shared.view = c.view) (hnext : Calm f r.next)
  | raise (hf : f.dropPc = none) (henters : f.enters c = true)
      (hsame : r.shared.view = (c.raiseInFlight i).view) (hnext : ∀ g ∈ r.next, g.dropPc = none)
  | begin (hf : f.dropPc = none) (henters : f.enters c = true ∨ f.inSection = true)
      (hsame : r.shared.view = c.view)
      (hnext : ∀ g ∈ r.next, (g.dropPc = some .check ∨ g.dropPc = some .copy) ∧
        (g.inSection = true → f.inSection = true))
  | drop (pc : DropPc) (hf : f.dropPc = some pc) (hsame : r.shared.view = (stepDrop i c pc).1.view)
      (hnext : ∀ pc' ∈ (stepDrop i c pc).2, ∃ g, r.next = some g ∧ g.dropPc = some pc')
      (hend : ∀ g ∈ r.next, g.dropPc = (stepDrop i c pc).2 ∧
        (g.inSection = true → f.inSection = true))
  | create (ok : Bool) (hf : f.dropPc = none) (hcreates : f.creates = true)
      (hsection : f.inSection = true) (hsame : r.shared.view = (c.nativeCreate i ok).view)
      (hnext : ∀ g ∈ r.next, g.dropPc = none ∨ g.dropPc = some .check ∨ g.dropPc = some .copy)
  | lower (hf : f.dropPc = none) (hsame : r.shared.view = (c.lowerInFlight i).view)
      (hnext : ∀ g ∈ r.next, g.dropPc = none ∧ g.inSection = false)

section

variable {i : ℕ} {c : Fields} {a : Answers} {r : Outcome Fields Flow}

theorem HandleMove.calm {f g : Flow} {c' : Fields} {spawned : List Flow} (hf : f.dropPc = none)
    (hsame : c'.view = c.view) (hdrop : g.dropPc = none) (hsection : g.inSection = true → f.inSection = true) :
    HandleMove i c f ⟨c', some g, spawned⟩ := by
  refine .plain hf hsame ?_
  rintro _ ⟨⟩
  exact ⟨hdrop, hsection⟩

theorem HandleMove.begins {f g : Flow} {c' : Fields} (hf : f.dropPc = none)
    (henters : f.enters c = true ∨ f.inSection = true) (hsame : c'.view = c.view) (hdrop : g.dropPc = some .check ∨ g.dropPc = some .copy)
    (hsection : g.inSection = true → f.inSection = true) :
    HandleMove i c f ⟨c', some g, []⟩ := by
  refine .begin hf henters hsame ?_
  rintro _ ⟨⟩
  exact ⟨hdrop, hsection⟩

theorem ConnectCaller.resume_calm (caller : ConnectCaller) (f : Flow) : Calm f caller.resume := by
  cases caller <;> simp [Calm, ConnectCaller.resume, Flow.dropPc, Flow.inSection]

theorem stepConnect_handle {caller : ConnectCaller} {pc : ConnectPc}
    (h : stepConnect caller i c a pc = some r) : HandleMove i c (.connect caller pc) r := by
  cases pc with
  | raiseInFlight =>
    cases h
    exact .raise rfl rfl rfl (by simp [Flow.dropPc])
  | nativeCreate =>
    cases h
    refine .create a.created rfl rfl rfl rfl ?_
    cases a.created <;> simp [Flow.dropPc]
  | lowerInFlight =>
    cases h
    exact .lower rfl rfl (by simp [Flow.dropPc, Flow.inSection])
  | lowerInFlightFailed =>
    cases h
    exact .lower rfl rfl (by simp [Flow.dropPc, Flow.inSection])
  | tearDown pc =>
    simp only [stepConnect, goTo, Option.some.injEq] at h
    subst h
    refine .drop pc rfl rfl ?_ ?_
    · intro pc' hpc'
      exact ⟨_, rfl, by rw [hpc']; rfl⟩
    · rintro _ ⟨⟩
      cases (stepDrop i c pc).2 <;> exact ⟨rfl, fun _ => rfl⟩
  | startDataForwarding =>
    simp only [stepConnect, goTo] at h
    split_ifs at h <;> cases h
    · exact .calm rfl rfl rfl fun _ => rfl
    · exact .begins rfl (.inr rfl) rfl (.inr rfl) fun _ => rfl
  | _ =>
    simp only [stepConnect, goTo] at h
    try split_ifs at h
    all_goals cases h
    all_goals
      first
      | exact .calm rfl rfl rfl fun h => h
      | exact .calm rfl rfl rfl fun _ => rfl
      | exact .begins rfl (.inr rfl) rfl (.inr rfl) fun _ => rfl
      | exact .plain rfl rfl (caller.resume_calm _)

theorem DisconnectCaller.resume_calm (caller : DisconnectCaller) (f : Flow) :
    Calm f caller.resume := by
  cases caller <;> simp [Calm, DisconnectCaller.resume, Flow.dropPc, Flow.inSection]

/-- A step of a teardown after which the flow goes on. -/
theorem HandleMove.drops {f g : Flow} {pc : DropPc} (hpc : f.dropPc = some pc)
    (hg : g.dropPc = (stepDrop i c pc).2) (hsection : g.inSection = true → f.inSection = true) :
    HandleMove i c f ⟨(stepDrop i c pc).1, some g, []⟩ := by
  refine .drop pc hpc rfl ?_ ?_
  · intro pc' hpc'
    exact ⟨g, rfl, hg.trans hpc'⟩
  · rintro _ ⟨⟩
    exact ⟨hg, hsection⟩

theorem stepDisconnect_handle {caller : DisconnectCaller} {pc : DisconnectPc}
    (h : stepDisconnect caller i c pc = some r) : HandleMove i c (.disconnect caller pc) r := by
  cases pc with
  | checkInFlight =>
    simp only [stepDisconnect, goTo] at h
    split_ifs at h with hflag <;> cases h
    · exact .calm rfl rfl rfl fun h => h
    · refine .begins rfl (.inl ?_) rfl (.inl rfl) fun h => h
      simpa [Flow.enters] using hflag
  | tearDown pc =>
    simp only [stepDisconnect, goTo, Option.some.injEq] at h
    subst h
    refine .drops rfl ?_ ?_ <;> cases (stepDrop i c pc).2 <;> simp [Flow.dropPc, Flow.inSection]
  | unlock =>
    simp only [stepDisconnect, goTo] at h
    split_ifs at h with hmutex <;> cases h
    · cases caller with
      | attemptReconnect =>
        refine .begins rfl (.inl ?_) rfl (.inl rfl) fun h => h
        simpa [Flow.enters] using hmutex
      | _ => exact .plain rfl rfl (by simp [Calm, DisconnectCaller.resumeThrown, Flow.dropPc, Flow.inSection])
    · exact .calm rfl rfl rfl fun h => h
  | _ =>
    simp only [stepDisconnect, goTo] at h
    try split_ifs at h
    all_goals cases h
    all_goals
      first
      | exact .calm rfl rfl rfl fun h => h
      | exact .plain rfl rfl (caller.resume_calm _)

theorem stepDestroyResources_handle {pc : DestroyPc} (h : stepDestroyResources i c pc = some r) :
    HandleMove i c (.destroyResources pc) r := by
  cases pc with
  | checkInFlight =>
    simp only [stepDestroyResources, goTo, finish] at h
    split_ifs at h with hflag <;> cases h
    · exact .plain rfl rfl (by simp [Calm])
    · refine .begins rfl (.inl ?_) rfl (.inr rfl) fun h => h
      simpa [Flow.enters] using hflag
  | destroyHandle pc =>
    simp only [stepDestroyResources, Option.some.injEq] at h
    subst h
    refine .drop pc rfl rfl ?_ ?_
    · intro pc' hpc'
      exact ⟨.destroyResources (.destroyHandle pc'), by rw [hpc']; rfl, rfl⟩
    · intro g hg
      obtain ⟨pc', hpc', rfl⟩ := Option.map_eq_some_iff.mp hg
      exact ⟨hpc'.symm, fun h => h⟩
  | _ =>
    cases h
    exact .calm rfl rfl rfl fun h => h

theorem stepReconnect_handle {pc : ReconnectPc} (h : stepReconnect c a pc = some r) :
    HandleMove i c (.reconnect pc) r := by
  cases pc <;> simp only [stepReconnect, goTo, finish] at h <;> (try split_ifs at h) <;> cases h <;>
    first
    | exact .calm rfl rfl rfl fun h => h
    | exact .plain rfl rfl (by simp [Calm])

theorem stepAttemptReconnect_handle {pc : AttemptPc} (h : stepAttemptReconnect i c a pc = some r) :
    HandleMove i c (.attemptReconnect pc) r := by
  cases pc with
  | raiseInFlight =>
    cases h
    exact .raise rfl rfl rfl (by simp [Flow.dropPc])
  | nativeCreate =>
    cases h
    refine .create a.created rfl rfl rfl rfl ?_
    cases a.created <;> simp [Flow.dropPc]
  | lowerInFlight =>
    cases h
    exact .lower rfl rfl (by simp [Flow.dropPc, Flow.inSection])
  | closeInterface =>
    cases h
    exact .begins rfl (.inl rfl) rfl (.inl rfl) fun h => h
  | dropOld pc =>
    simp only [stepAttemptReconnect, goTo, Option.some.injEq] at h
    subst h
    refine .drops rfl ?_ ?_ <;> cases (stepDrop i c pc).2 <;> simp [Flow.dropPc, Flow.inSection]
  | dropCancelled pc =>
    simp only [stepAttemptReconnect, goTo, Option.some.injEq] at h
    subst h
    refine .drops rfl ?_ ?_ <;> cases (stepDrop i c pc).2 <;> simp [Flow.dropPc, Flow.inSection]
  | dropFailed pc =>
    simp only [stepAttemptReconnect, goTo, Option.some.injEq] at h
    subst h
    refine .drops rfl ?_ ?_ <;> cases (stepDrop i c pc).2 <;> simp [Flow.dropPc, Flow.inSection]
  | establish lease =>
    simp only [stepAttemptReconnect, goTo, Option.some.injEq] at h
    subst h
    cases a.interface
    · exact .begins rfl (.inr rfl) rfl (.inl rfl) fun _ => rfl
    · exact .calm rfl rfl rfl fun _ => rfl
  | _ =>
    simp only [stepAttemptReconnect, goTo, finish] at h
    try split_ifs at h
    all_goals cases h
    all_goals
      first
      | exact .calm rfl rfl rfl fun h => h
      | exact .calm rfl rfl rfl fun _ => rfl
      | exact .begins rfl (.inr rfl) rfl (.inl rfl) fun _ => rfl
      | exact .begins rfl (.inr rfl) rfl (.inr rfl) fun _ => rfl
      | exact .plain rfl rfl (by simp [Calm])

theorem stepLoop_handle {l : Loop} {pc : LoopPc} (h : stepLoop l c a pc = some r) :
    HandleMove i c (.loop l pc) r := by
  have hcalm : ∀ pc' : Option LoopPc, Calm (.loop l pc) (pc'.map (.loop l)) := by
    intro pc' g hg
    obtain ⟨pc', -, rfl⟩ := Option.map_eq_some_iff.mp hg
    exact ⟨rfl, fun h => h⟩
  cases pc with
  | blocked =>
    cases h
    exact .plain rfl rfl (hcalm _)
  | head guards =>
    cases guards <;> simp only [stepLoop, goTo, finish] at h <;> (try split_ifs at h) <;> cases h <;>
      first
      | exact .calm rfl rfl rfl fun h => h
      | exact .plain rfl rfl (hcalm none)
  | report guards last =>
    cases guards <;> simp only [stepLoop, goTo] at h <;> (try split_ifs at h) <;> cases h <;>
      first
      | exact .calm rfl rfl rfl fun h => h
      | exact .plain rfl rfl (hcalm none)

theorem stepMonitor_handle {pc : MonitorPc} (h : stepMonitor c a pc = some r) :
    HandleMove i c (.monitor pc) r := by
  cases pc with
  | poll =>
    simp only [stepMonitor, goTo] at h
    split at h <;> (try split_ifs at h) <;> cases h <;> exact .calm rfl rfl rfl fun h => h
  | _ =>
    simp only [stepMonitor, goTo, finish] at h
    try split_ifs at h
    all_goals cases h
    all_goals
      first
      | exact .calm rfl rfl rfl fun h => h
      | exact .plain rfl rfl (by simp [Calm])

theorem stepFlow_handle {f : Flow} (h : stepFlow i c a f = some r) : HandleMove i c f r := by
  cases f with
  | connect caller pc => exact stepConnect_handle h
  | disconnect caller pc => exact stepDisconnect_handle h
  | destroyResources pc => exact stepDestroyResources_handle h
  | reconnect pc => exact stepReconnect_handle h
  | attemptReconnect pc => exact stepAttemptReconnect_handle h
  | loop l pc => exact stepLoop_handle h
  | monitor pc => exact stepMonitor_handle h

end

/-! ### The invariant -/

/-- What a flow may rely on when `o` is the only flow that may be in flight or in a teardown. -/
structure Tenure (o : Option ℕ) (v : HandleView) (j : ℕ) (f : Flow) : Prop where
  owner : f.dropPc ≠ none → o = some j
  inFlight : f.inSection = true → j ∈ v.inFlight
  copied : ∀ h, f.dropPc = some (.clear h) → h = v.handle
  cleared : ∀ h, f.dropPc = some (.destroy h) →
    v.handle = 0 ∧ h ≤ v.creators.length ∧ h ∉ destroyedHandles v.destroyed

/-- What holds of the handles and of the log of their destruction. -/
structure LogInv (o : Option ℕ) (v : HandleView) : Prop where
  inFlight : ∀ j ∈ v.inFlight, o = some j
  own : ∀ d ∈ v.destroyed, v.creators[d.handle - 1]? = some d.flow ∨ d.creatorInFlight = false
  once : (destroyedHandles v.destroyed).Nodup
  known : ∀ h ∈ destroyedHandles v.destroyed, h ≤ v.creators.length
  live : v.handle ≠ 0 → v.handle ≤ v.creators.length ∧ v.handle ∉ destroyedHandles v.destroyed

structure OwnerInv (o : Option ℕ) (s : ControllerState) : Prop where
  log : LogInv o s.shared.view
  flows : ∀ j f, s.At j f → Tenure o s.shared.view j f
  kept : Kept s

section

variable {o : Option ℕ} {v v' : HandleView} {i j : ℕ} {f g : Flow}

/-- A flow outside teardowns and outside the section relies on nothing. -/
theorem Tenure.idle (hdrop : g.dropPc = none) (hsection : g.inSection = false) :
    Tenure o v j g where
  owner := fun h => absurd hdrop h
  inFlight := fun h => absurd (hsection.symm.trans h) (by decide)
  copied := fun h hh => by rw [hdrop] at hh; cases hh
  cleared := fun h hh => by rw [hdrop] at hh; cases hh

/-- A flow that has not copied the handle yet. -/
theorem Tenure.early (howner : g.dropPc ≠ none → o = some j)
    (hsection : g.inSection = true → j ∈ v.inFlight)
    (hdrop : g.dropPc = none ∨ g.dropPc = some .check ∨ g.dropPc = some .copy) :
    Tenure o v j g where
  owner := howner
  inFlight := hsection
  copied := fun h hh => by rcases hdrop with hd | hd | hd <;> rw [hd] at hh <;> cases hh
  cleared := fun h hh => by rcases hdrop with hd | hd | hd <;> rw [hd] at hh <;> cases hh

/-- A flow that is not in a teardown does not notice what another does to the handle. -/
theorem Tenure.other (h : Tenure o v j g) (ho : o = some i) (hji : j ≠ i)
    (hflight : ∀ j ∈ v.inFlight, j ≠ i → j ∈ v'.inFlight) : Tenure o v' j g := by
  have hdrop : g.dropPc = none := by
    by_contra hne
    have hj := h.owner hne
    rw [ho] at hj
    exact hji (Option.some.inj hj).symm
  refine .early (fun h => absurd hdrop h) (fun hs => hflight j (h.inFlight hs) hji) (.inl hdrop)

/-- The same, when flow `i` has just found itself alone. -/
theorem Tenure.alone (h : Tenure o v j g) (hji : j ≠ i) (hdrop : g.dropPc ≠ none → j = i)
    (hflight : v.inFlight ⊆ v'.inFlight) : Tenure (some i) v' j g := by
  have hnone : g.dropPc = none := by
    by_contra hne
    exact hji (hdrop hne)
  exact .early (fun h => absurd hnone h) (fun hs => hflight (h.inFlight hs)) (.inl hnone)

end

section

variable {o : Option ℕ} {s : ControllerState} {i : ℕ} {f : Flow} {r : Outcome Fields Flow}

/-- The threads after a step of flow `i`. -/
abbrev after (s : ControllerState) (i : ℕ) (r : Outcome Fields Flow) : ControllerState :=
  ⟨r.shared, s.threads.set i r.next ++ r.spawned.map some⟩

theorem launched_idle : ∀ g ∈ launched, g.dropPc = none ∧ g.inSection = false := by decide

/-- The flows after a step, from the flow that moved and the others. -/
theorem tenure_after {o' : Option ℕ} {v' : HandleView} (hspawned : ∀ g ∈ r.spawned, g ∈ launched)
    (hown : ∀ g ∈ r.next, Tenure o' v' i g)
    (hothers : ∀ j g, j ≠ i → s.At j g → Tenure o' v' j g) :
    ∀ j g, (after s i r).At j g → Tenure o' v' j g := by
  intro j g hg
  rcases Pool.at_set_append (c := s.shared) hg with ⟨hji, hother⟩ | ⟨rfl, hnext⟩ | ⟨-, hnew⟩
  · exact hothers j g hji hother
  · exact hown g hnext
  · obtain ⟨hdrop, hsection⟩ := launched_idle g (hspawned g hnew)
    exact .idle hdrop hsection

/-- Handles that are kept stay kept in a step that does not touch them. -/
theorem Kept.after {x : List ℕ} (hkept : Kept s) (hf : s.At i f)
    (hview : r.shared.view = { s.shared.view with inFlight := x })
    (hdrop : ∀ h, f.dropPc ≠ some (.destroy h)) : Kept (after s i r) := by
  have hcreators : r.shared.creators = s.shared.creators := congrArg HandleView.creators hview
  have hdestroyed : r.shared.destroyed = s.shared.destroyed := congrArg HandleView.destroyed hview
  have hhandle : r.shared.nativeHandle = s.shared.nativeHandle := congrArg HandleView.handle hview
  intro h hpos hle
  change h ≤ r.shared.creators.length at hle
  change h ∈ destroyedHandles r.shared.destroyed ∨ h = r.shared.nativeHandle ∨ _
  rw [hcreators] at hle
  rw [hdestroyed, hhandle]
  rcases hkept h hpos hle with hd | hh | ⟨k, g, hg, hgd⟩
  · exact .inl hd
  · exact .inr (.inl hh)
  · refine .inr (.inr ⟨k, g, Pool.at_set_append_of_ne ?_ hg, hgd⟩)
    rintro rfl
    exact hdrop h (hf.unique hg ▸ hgd)

theorem OwnerInv.plain (hinv : OwnerInv o s) (hf : s.At i f)
    (hspawned : ∀ g ∈ r.spawned, g ∈ launched) (hdrop : f.dropPc = none)
    (hview : r.shared.view = s.shared.view) (hnext : Calm f r.next) :
    OwnerInv o (after s i r) where
  log := by
    change LogInv o r.shared.view
    rw [hview]
    exact hinv.log
  flows := by
    change ∀ j g, (Controller.after s i r).At j g → Tenure o r.shared.view j g
    rw [hview]
    refine tenure_after hspawned ?_ fun j g _ hg => hinv.flows j g hg
    intro g hg
    obtain ⟨hnone, hsection⟩ := hnext g hg
    exact .early (fun h => absurd hnone h) (fun h => (hinv.flows i f hf).inFlight (hsection h))
      (.inl hnone)
  kept := hinv.kept.after hf hview (by simp [hdrop])

/-- No other flow is in flight or in a teardown. -/
structure Alone (s : ControllerState) (i : ℕ) : Prop where
  inFlight : ∀ j ∈ s.shared.inFlight, j = i
  drops : ∀ j g, s.At j g → g.dropPc ≠ none → j = i

theorem LogInv.alone {v : HandleView} (h : LogInv o v) (halone : ∀ j ∈ v.inFlight, j = i) :
    LogInv (some i) v :=
  ⟨fun j hj => by rw [halone j hj], h.own, h.once, h.known, h.live⟩

theorem OwnerInv.raise (hinv : OwnerInv o s) (hf : s.At i f)
    (hspawned : ∀ g ∈ r.spawned, g ∈ launched) (hdrop : f.dropPc = none)
    (hview : r.shared.view = (s.shared.raiseInFlight i).view) (halone : Alone s i)
    (hnext : ∀ g ∈ r.next, g.dropPc = none) : OwnerInv (some i) (after s i r) where
  log := by
    change LogInv (some i) r.shared.view
    rw [hview]
    have hlog := hinv.log.alone halone.inFlight
    refine ⟨?_, hlog.own, hlog.once, hlog.known, hlog.live⟩
    intro j hj
    rcases List.mem_cons.mp hj with rfl | hj
    · rfl
    · exact hlog.inFlight j hj
  flows := by
    change ∀ j g, (Controller.after s i r).At j g → Tenure (some i) r.shared.view j g
    rw [hview]
    refine tenure_after hspawned ?_ ?_
    · intro g hg
      exact .early (fun h => absurd (hnext g hg) h) (fun _ => List.mem_cons_self) (.inl (hnext g hg))
    · intro j g hji hg
      exact (hinv.flows j g hg).alone hji (halone.drops j g hg) (List.subset_cons_self _ _)
  kept := hinv.kept.after hf hview (by simp [hdrop])

/-- A teardown from outside the section. -/
theorem OwnerInv.begin_alone (hinv : OwnerInv o s) (hf : s.At i f)
    (hspawned : ∀ g ∈ r.spawned, g ∈ launched) (hdrop : f.dropPc = none)
    (hview : r.shared.view = s.shared.view) (halone : Alone s i)
    (hnext : ∀ g ∈ r.next, (g.dropPc = some .check ∨ g.dropPc = some .copy) ∧
      (g.inSection = true → f.inSection = true)) : OwnerInv (some i) (after s i r) where
  log := by
    change LogInv (some i) r.shared.view
    rw [hview]
    exact hinv.log.alone halone.inFlight
  flows := by
    change ∀ j g, (Controller.after s i r).At j g → Tenure (some i) r.shared.view j g
    rw [hview]
    refine tenure_after hspawned ?_ ?_
    · intro g hg
      obtain ⟨hpc, hsection⟩ := hnext g hg
      exact .early (fun _ => rfl) (fun h => (hinv.flows i f hf).inFlight (hsection h)) (.inr hpc)
    · intro j g hji hg
      exact (hinv.flows j g hg).alone hji (halone.drops j g hg) (List.Subset.refl _)
  kept := hinv.kept.after hf hview (by simp [hdrop])

/-- A teardown inside the section. -/
theorem OwnerInv.begin_inFlight (hinv : OwnerInv o s) (hf : s.At i f)
    (hspawned : ∀ g ∈ r.spawned, g ∈ launched) (hdrop : f.dropPc = none)
    (hview : r.shared.view = s.shared.view) (hsection : f.inSection = true)
    (hnext : ∀ g ∈ r.next, (g.dropPc = some .check ∨ g.dropPc = some .copy) ∧
      (g.inSection = true → f.inSection = true)) : OwnerInv o (after s i r) where
  log := by
    change LogInv o r.shared.view
    rw [hview]
    exact hinv.log
  flows := by
    change ∀ j g, (Controller.after s i r).At j g → Tenure o r.shared.view j g
    rw [hview]
    have hin := (hinv.flows i f hf).inFlight hsection
    refine tenure_after hspawned ?_ fun j g _ hg => hinv.flows j g hg
    intro g hg
    exact .early (fun _ => hinv.log.inFlight i hin) (fun _ => hin) (.inr (hnext g hg).1)
  kept := hinv.kept.after hf hview (by simp [hdrop])

theorem OwnerInv.lower (hinv : OwnerInv o s) (hf : s.At i f)
    (hspawned : ∀ g ∈ r.spawned, g ∈ launched) (hdrop : f.dropPc = none)
    (hview : r.shared.view = (s.shared.lowerInFlight i).view)
    (hnext : ∀ g ∈ r.next, g.dropPc = none ∧ g.inSection = false) : OwnerInv o (after s i r) where
  log := by
    change LogInv o r.shared.view
    rw [hview]
    refine ⟨?_, hinv.log.own, hinv.log.once, hinv.log.known, hinv.log.live⟩
    intro j hj
    exact hinv.log.inFlight j (List.mem_of_mem_filter hj)
  flows := by
    change ∀ j g, (Controller.after s i r).At j g → Tenure o r.shared.view j g
    rw [hview]
    refine tenure_after hspawned (fun g hg => .idle (hnext g hg).1 (hnext g hg).2) ?_
    intro j g hji hg
    have htenure := hinv.flows j g hg
    refine ⟨htenure.owner, ?_, htenure.copied, htenure.cleared⟩
    intro hsection
    exact List.mem_filter.mpr ⟨htenure.inFlight hsection, by simpa using hji⟩
  kept := hinv.kept.after hf hview (by simp [hdrop])

/-- A handle is created while the field holds none. -/
theorem OwnerInv.create {ok : Bool} (hinv : OwnerInv o s) (hf : s.At i f)
    (hspawned : ∀ g ∈ r.spawned, g ∈ launched) (hdrop : f.dropPc = none)
    (hview : r.shared.view = (s.shared.nativeCreate i ok).view)
    (hzero : s.shared.nativeHandle = 0) (hsection : f.inSection = true)
    (hnext : ∀ g ∈ r.next, g.dropPc = none ∨ g.dropPc = some .check ∨ g.dropPc = some .copy) :
    OwnerInv o (after s i r) := by
  have hin := (hinv.flows i f hf).inFlight hsection
  have ho := hinv.log.inFlight i hin
  cases ok with
  | false =>
    have hview' : r.shared.view = s.shared.view := by
      rw [hview]
      simp [Fields.nativeCreate, Fields.view, hzero]
    refine ⟨?_, ?_, hinv.kept.after hf hview' (by simp [hdrop])⟩
    · change LogInv o r.shared.view
      rw [hview']
      exact hinv.log
    · change ∀ j g, (Controller.after s i r).At j g → Tenure o r.shared.view j g
      rw [hview']
      refine tenure_after hspawned ?_ fun j g _ hg => hinv.flows j g hg
      intro g hg
      exact .early (fun _ => ho) (fun _ => hin) (hnext g hg)
  | true =>
    have hnew : r.shared.view = ⟨s.shared.creators.length + 1, s.shared.creators ++ [i],
        s.shared.destroyed, s.shared.inFlight⟩ := hview
    have hunknown : s.shared.creators.length + 1 ∉ destroyedHandles s.shared.destroyed := by
      intro hmem
      have := hinv.log.known _ hmem
      exact absurd this (by simp [Fields.view])
    refine ⟨?_, ?_, ?_⟩
    · change LogInv o r.shared.view
      rw [hnew]
      refine ⟨hinv.log.inFlight, ?_, hinv.log.once, ?_, fun _ => ⟨by simp, hunknown⟩⟩
      · intro d hd
        rcases hinv.log.own d hd with hown | hown
        · exact .inl ((List.getElem?_append_left (List.getElem?_eq_some_iff.mp hown).1).trans hown)
        · exact .inr hown
      · intro h hh
        have := hinv.log.known h hh
        simp only [List.length_append, List.length_singleton]
        exact Nat.le_succ_of_le this
    · change ∀ j g, (Controller.after s i r).At j g → Tenure o r.shared.view j g
      rw [hnew]
      refine tenure_after hspawned ?_ ?_
      · intro g hg
        exact .early (fun _ => ho) (fun _ => hin) (hnext g hg)
      · intro j g hji hg
        exact (hinv.flows j g hg).other ho hji fun j hj _ => hj
    · have hcreators : r.shared.creators = s.shared.creators ++ [i] :=
        congrArg HandleView.creators hnew
      have hdestroyed : r.shared.destroyed = s.shared.destroyed :=
        congrArg HandleView.destroyed hnew
      have hhandle : r.shared.nativeHandle = s.shared.creators.length + 1 :=
        congrArg HandleView.handle hnew
      intro h hpos hle
      change h ≤ r.shared.creators.length at hle
      change h ∈ destroyedHandles r.shared.destroyed ∨ h = r.shared.nativeHandle ∨ _
      rw [hcreators, List.length_append, List.length_singleton] at hle
      rw [hdestroyed, hhandle]
      rcases Nat.lt_or_ge s.shared.creators.length h with hlt | hge
      · exact .inr (.inl (by omega))
      · rcases hinv.kept h hpos hge with hd | hh | ⟨k, g, hg, hgd⟩
        · exact .inl hd
        · omega
        · refine .inr (.inr ⟨k, g, Pool.at_set_append_of_ne ?_ hg, hgd⟩)
          rintro rfl
          rw [hf.unique hg, hgd] at hdrop
          cases hdrop

/-- The first two steps of a teardown only look at the handle. -/
theorem OwnerInv.look {pc : DropPc} (hinv : OwnerInv o s) (hf : s.At i f)
    (hspawned : ∀ g ∈ r.spawned, g ∈ launched) (hpc : f.dropPc = some pc)
    (hlook : pc = .check ∨ pc = .copy) (hview : r.shared.view = s.shared.view)
    (hend : ∀ g ∈ r.next, g.dropPc = (stepDrop i s.shared pc).2 ∧
      (g.inSection = true → f.inSection = true)) : OwnerInv o (after s i r) where
  log := by
    change LogInv o r.shared.view
    rw [hview]
    exact hinv.log
  flows := by
    change ∀ j g, (Controller.after s i r).At j g → Tenure o r.shared.view j g
    rw [hview]
    have htenure := hinv.flows i f hf
    have ho : o = some i := htenure.owner (by simp [hpc])
    refine tenure_after hspawned ?_ fun j g _ hg => hinv.flows j g hg
    intro g hg
    obtain ⟨hdrop, hsection⟩ := hend g hg
    refine ⟨fun _ => ho, fun h => htenure.inFlight (hsection h), ?_, ?_⟩
    · intro h hh
      rw [hdrop] at hh
      rcases hlook with rfl | rfl
      · simp only [stepDrop] at hh
        split_ifs at hh
        cases hh
      · cases hh
        rfl
    · intro h hh
      rw [hdrop] at hh
      rcases hlook with rfl | rfl
      · simp only [stepDrop] at hh
        split_ifs at hh
        cases hh
      · cases hh
  kept := hinv.kept.after hf hview (by rcases hlook with rfl | rfl <;> simp [hpc])

/-- The field is cleared; what it held is now with flow `i`. -/
theorem OwnerInv.clear {h : ℕ} (hinv : OwnerInv o s) (hf : s.At i f)
    (hspawned : ∀ g ∈ r.spawned, g ∈ launched) (hpc : f.dropPc = some (.clear h))
    (hview : r.shared.view = { s.shared.view with handle := 0 })
    (hnext : h ≠ 0 → ∃ g, r.next = some g ∧ g.dropPc = some (.destroy h))
    (hend : ∀ g ∈ r.next, g.dropPc = (if h = 0 then none else some (.destroy h)) ∧
      (g.inSection = true → f.inSection = true)) : OwnerInv o (after s i r) := by
  have htenure := hinv.flows i f hf
  have ho : o = some i := htenure.owner (by simp [hpc])
  have hhandle : h = s.shared.nativeHandle := htenure.copied h hpc
  refine ⟨?_, ?_, ?_⟩
  · change LogInv o r.shared.view
    rw [hview]
    exact ⟨hinv.log.inFlight, hinv.log.own, hinv.log.once, hinv.log.known, fun hne => absurd rfl hne⟩
  · change ∀ j g, (Controller.after s i r).At j g → Tenure o r.shared.view j g
    rw [hview]
    refine tenure_after hspawned ?_ fun j g hji hg => (hinv.flows j g hg).other ho hji fun j hj _ => hj
    intro g hg
    obtain ⟨hdrop, hsection⟩ := hend g hg
    refine ⟨fun _ => ho, fun hs => htenure.inFlight (hsection hs), ?_, ?_⟩ <;> intro h' hh' <;>
      rw [hdrop] at hh' <;> split_ifs at hh' with hzero <;> cases hh'
    have hlive : s.shared.nativeHandle ≠ 0 → s.shared.nativeHandle ≤ _ ∧
        s.shared.nativeHandle ∉ _ := hinv.log.live
    rw [← hhandle] at hlive
    exact ⟨rfl, hlive hzero⟩
  · have hcreators : r.shared.creators = s.shared.creators := congrArg HandleView.creators hview
    have hdestroyed : r.shared.destroyed = s.shared.destroyed := congrArg HandleView.destroyed hview
    intro h' hpos hle
    change h' ≤ r.shared.creators.length at hle
    change h' ∈ destroyedHandles r.shared.destroyed ∨ h' = r.shared.nativeHandle ∨ _
    rw [hcreators] at hle
    rw [hdestroyed]
    rcases hinv.kept h' hpos hle with hd | hh | ⟨k, g, hg, hgd⟩
    · exact .inl hd
    · obtain rfl : h' = h := hh.trans hhandle.symm
      obtain ⟨g, hg, hgd⟩ := hnext (by omega)
      refine .inr (.inr ⟨i, g, ?_, hgd⟩)
      rw [Controller.after, hg]
      exact Pool.at_set_append_self hf.lt
    · refine .inr (.inr ⟨k, g, Pool.at_set_append_of_ne ?_ hg, hgd⟩)
      rintro rfl
      rw [hf.unique hg, hgd] at hpc
      cases hpc

/-- The handle is destroyed: by the flow that created it, or after that flow's section. -/
theorem OwnerInv.destroy {h : ℕ} (hinv : OwnerInv o s) (hf : s.At i f)
    (hspawned : ∀ g ∈ r.spawned, g ∈ launched) (hpc : f.dropPc = some (.destroy h))
    (hview : r.shared.view = (s.shared.nativeDestroy i h).view)
    (hend : ∀ g ∈ r.next, g.dropPc = none ∧ (g.inSection = true → f.inSection = true)) :
    OwnerInv o (after s i r) := by
  have htenure := hinv.flows i f hf
  have ho : o = some i := htenure.owner (by simp [hpc])
  obtain ⟨hzero, hknown, hnew⟩ := htenure.cleared h hpc
  have hhandles : destroyedHandles (s.shared.nativeDestroy i h).destroyed =
      destroyedHandles s.shared.destroyed ++ [h] := by
    simp [Fields.nativeDestroy, destroyedHandles]
  refine ⟨?_, ?_, ?_⟩
  · change LogInv o r.shared.view
    rw [hview]
    refine ⟨hinv.log.inFlight, ?_, ?_, ?_, fun hne => absurd hzero hne⟩
    · intro d hd
      rcases List.mem_append.mp hd with hd | hd
      · exact hinv.log.own d hd
      · obtain rfl := List.mem_singleton.mp hd
        change s.shared.creators[h - 1]? = some i ∨ (s.shared.creator h).any _ = false
        cases hc : s.shared.creator h with
        | none => exact .inr rfl
        | some k =>
          by_cases hk : k ∈ s.shared.inFlight
          · have hki := hinv.log.inFlight k hk
            rw [ho] at hki
            rw [Option.some.inj hki]
            exact .inl hc
          · exact .inr (by simpa using hk)
    · change (destroyedHandles (s.shared.nativeDestroy i h).destroyed).Nodup
      rw [hhandles]
      refine List.nodup_append'.mpr ⟨hinv.log.once, List.nodup_singleton h, ?_⟩
      exact List.disjoint_singleton.mpr hnew
    · change ∀ h' ∈ destroyedHandles (s.shared.nativeDestroy i h).destroyed, _
      rw [hhandles]
      intro h' hh'
      rcases List.mem_append.mp hh' with hh' | hh'
      · exact hinv.log.known h' hh'
      · rw [List.mem_singleton.mp hh']
        exact hknown
  · change ∀ j g, (Controller.after s i r).At j g → Tenure o r.shared.view j g
    rw [hview]
    refine tenure_after hspawned ?_ fun j g hji hg => (hinv.flows j g hg).other ho hji fun j hj _ => hj
    intro g hg
    obtain ⟨hdrop, hsection⟩ := hend g hg
    exact .early (fun _ => ho) (fun hs => htenure.inFlight (hsection hs)) (.inl hdrop)
  · have hcreators : r.shared.creators = s.shared.creators := congrArg HandleView.creators hview
    have hdestroyed : r.shared.destroyed = (s.shared.nativeDestroy i h).destroyed :=
      congrArg HandleView.destroyed hview
    have hhandle : r.shared.nativeHandle = s.shared.nativeHandle := congrArg HandleView.handle hview
    intro h' hpos hle
    change h' ≤ r.shared.creators.length at hle
    change h' ∈ destroyedHandles r.shared.destroyed ∨ h' = r.shared.nativeHandle ∨ _
    rw [hcreators] at hle
    rw [hdestroyed, hhandle, hhandles]
    rcases hinv.kept h' hpos hle with hd | hh | ⟨k, g, hg, hgd⟩
    · exact .inl (List.mem_append_left _ hd)
    · exact .inr (.inl hh)
    · by_cases hki : k = i
      · subst hki
        rw [hf.unique hg, hgd] at hpc
        cases hpc
        exact .inl (by simp)
      · exact .inr (.inr ⟨k, g, Pool.at_set_append_of_ne hki hg, hgd⟩)

/-- What a step of a flow that may go on does. -/
theorem OwnerInv.flow (hinv : OwnerInv o s) (hf : s.At i f)
    (hspawned : ∀ g ∈ r.spawned, g ∈ launched) (hmove : HandleMove i s.shared f r)
    (hok : FlowOk s i f) : ∃ o', OwnerInv o' (after s i r) := by
  have halone : f.enters s.shared = true → Alone s i := fun h => ⟨(hok.1 h).1, (hok.1 h).2⟩
  cases hmove with
  | plain hdrop hview hnext => exact ⟨o, hinv.plain hf hspawned hdrop hview hnext⟩
  | raise hdrop henters hview hnext =>
    exact ⟨some i, hinv.raise hf hspawned hdrop hview (halone henters) hnext⟩
  | begin hdrop henters hview hnext =>
    rcases henters with henters | hsection
    · exact ⟨some i, hinv.begin_alone hf hspawned hdrop hview (halone henters) hnext⟩
    · exact ⟨o, hinv.begin_inFlight hf hspawned hdrop hview hsection hnext⟩
  | create ok hdrop hcreates hsection hview hnext =>
    exact ⟨o, hinv.create hf hspawned hdrop hview (hok.2.1 hcreates) hsection hnext⟩
  | lower hdrop hview hnext => exact ⟨o, hinv.lower hf hspawned hdrop hview hnext⟩
  | drop pc hpc hview hnext hend =>
    refine ⟨o, ?_⟩
    cases pc with
    | check => exact hinv.look hf hspawned hpc (.inl rfl) hview hend
    | copy => exact hinv.look hf hspawned hpc (.inr rfl) hview hend
    | clear h =>
      refine hinv.clear hf hspawned hpc hview ?_ hend
      intro hne
      exact hnext (.destroy h) (by simp [stepDrop, hne])
    | destroy h => exact hinv.destroy hf hspawned hpc hview hend

end

/-! ### The mutex -/

/-- The kinds of steps, as far as they are about the mutex. -/
inductive MutexMove (i : ℕ) (c : Fields) (f : Flow) (r : Outcome Fields Flow) : Prop
  | plain (hmutex : r.shared.connectionMutex = c.connectionMutex)
      (hlog : r.shared.unlocked = c.unlocked)
      (hnext : ∀ g ∈ r.next, g.holdsMutex = true → f.holdsMutex = true)
  | lock (hfree : f.triesLock = true ∨ c.connectionMutex = none)
      (hmutex : c.connectionMutex = none → r.shared.connectionMutex = some i)
      (hlog : r.shared.unlocked = c.unlocked)
  | unlock (hf : f.holdsMutex = true) (hmutex : r.shared.connectionMutex = none)
      (hlog : r.shared.unlocked = (c.unlock i).unlocked)
      (hnext : ∀ g ∈ r.next, g.holdsMutex = false)

section

variable {i : ℕ} {c : Fields} {a : Answers} {r : Outcome Fields Flow}

theorem MutexMove.goOn {f g : Flow} {c' : Fields} {spawned : List Flow}
    (hmutex : c'.connectionMutex = c.connectionMutex) (hlog : c'.unlocked = c.unlocked)
    (hg : g.holdsMutex = true → f.holdsMutex = true) :
    MutexMove i c f ⟨c', some g, spawned⟩ := by
  refine .plain hmutex hlog ?_
  rintro _ ⟨⟩
  exact hg

theorem MutexMove.finish {f : Flow} {c' : Fields} {spawned : List Flow}
    (hmutex : c'.connectionMutex = c.connectionMutex) (hlog : c'.unlocked = c.unlocked) :
    MutexMove i c f ⟨c', none, spawned⟩ :=
  .plain hmutex hlog (by simp)

theorem stepDrop_mutex (i : ℕ) (c : Fields) (pc : DropPc) :
    (stepDrop i c pc).1.connectionMutex = c.connectionMutex ∧
      (stepDrop i c pc).1.unlocked = c.unlocked := by
  cases pc <;> exact ⟨rfl, rfl⟩

theorem nativeCreate_mutex (c : Fields) (i : ℕ) (ok : Bool) :
    (c.nativeCreate i ok).connectionMutex = c.connectionMutex ∧
      (c.nativeCreate i ok).unlocked = c.unlocked := by
  cases ok <;> exact ⟨rfl, rfl⟩

theorem ConnectCaller.resume_holds (caller : ConnectCaller) :
    ∀ g ∈ caller.resume, g.holdsMutex = false := by
  cases caller <;> simp [ConnectCaller.resume, Flow.holdsMutex]

theorem DisconnectCaller.resume_holds (caller : DisconnectCaller) :
    (∀ g ∈ caller.resume, g.holdsMutex = false) ∧ ∀ g ∈ caller.resumeThrown, g.holdsMutex = false := by
  cases caller <;>
    simp [DisconnectCaller.resume, DisconnectCaller.resumeThrown, Flow.holdsMutex]

theorem stepConnect_mutex {caller : ConnectCaller} {pc : ConnectPc}
    (h : stepConnect caller i c a pc = some r) : MutexMove i c (.connect caller pc) r := by
  have hresume : ∀ f : Flow, ∀ g ∈ caller.resume, g.holdsMutex = true → f.holdsMutex = true :=
    fun f g hg hh => absurd ((caller.resume_holds g hg).symm.trans hh) (by decide)
  cases pc with
  | lock =>
    simp only [stepConnect, goTo] at h
    split_ifs at h with hcancelled hfree <;> cases h
    · exact .plain rfl rfl (hresume _)
    · exact .lock (.inr hfree) (fun _ => rfl) rfl
  | unlock =>
    cases h
    exact .unlock rfl rfl rfl caller.resume_holds
  | tearDown pc =>
    simp only [stepConnect, goTo, Option.some.injEq] at h
    subst h
    exact .goOn (stepDrop_mutex i c pc).1 (stepDrop_mutex i c pc).2 fun _ => rfl
  | nativeCreate =>
    cases h
    exact .goOn (nativeCreate_mutex c i a.created).1 (nativeCreate_mutex c i a.created).2 fun _ => rfl
  | _ =>
    simp only [stepConnect, goTo] at h
    try split_ifs at h
    all_goals cases h
    all_goals
      first
      | exact .goOn rfl rfl fun h => h
      | exact .goOn rfl rfl fun _ => rfl
      | exact .plain rfl rfl (hresume _)

theorem stepDisconnect_mutex {caller : DisconnectCaller} {pc : DisconnectPc}
    (h : stepDisconnect caller i c pc = some r) : MutexMove i c (.disconnect caller pc) r := by
  have hresume : ∀ f : Flow, ∀ g ∈ caller.resume, g.holdsMutex = true → f.holdsMutex = true :=
    fun f g hg hh => absurd ((caller.resume_holds.1 g hg).symm.trans hh) (by decide)
  cases pc with
  | tryLock =>
    cases h
    refine .lock (.inl rfl) ?_ rfl
    intro hfree
    simp [hfree]
  | unlock =>
    simp only [stepDisconnect, goTo] at h
    split_ifs at h <;> cases h
    · refine .plain rfl rfl ?_
      intro g hg hh
      exact absurd ((caller.resume_holds.2 g hg).symm.trans hh) (by decide)
    · exact .unlock rfl rfl rfl (by simp [Flow.holdsMutex])
  | tearDown pc =>
    simp only [stepDisconnect, goTo, Option.some.injEq] at h
    subst h
    exact .goOn (stepDrop_mutex i c pc).1 (stepDrop_mutex i c pc).2 fun _ => rfl
  | _ =>
    simp only [stepDisconnect, goTo] at h
    try split_ifs at h
    all_goals cases h
    all_goals
      first
      | exact .goOn rfl rfl fun h => h
      | exact .goOn rfl rfl fun _ => rfl
      | exact .plain rfl rfl (hresume _)

theorem stepDestroyResources_mutex {pc : DestroyPc} (h : stepDestroyResources i c pc = some r) :
    MutexMove i c (.destroyResources pc) r := by
  cases pc with
  | destroyHandle pc =>
    simp only [stepDestroyResources, Option.some.injEq] at h
    subst h
    refine .plain (stepDrop_mutex i c pc).1 (stepDrop_mutex i c pc).2 ?_
    intro g hg
    obtain ⟨pc', -, rfl⟩ := Option.map_eq_some_iff.mp hg
    exact fun h => h
  | _ =>
    simp only [stepDestroyResources, goTo, Controller.finish] at h
    try split_ifs at h
    all_goals cases h
    all_goals
      first
      | exact .goOn rfl rfl fun h => h
      | exact .finish rfl rfl

theorem stepReconnect_mutex {pc : ReconnectPc} (h : stepReconnect c a pc = some r) :
    MutexMove i c (.reconnect pc) r := by
  cases pc <;> simp only [stepReconnect, goTo, Controller.finish] at h <;> (try split_ifs at h) <;>
    cases h <;>
    first
    | exact .goOn rfl rfl fun h => h
    | exact .finish rfl rfl

theorem stepAttemptReconnect_mutex {pc : AttemptPc} (h : stepAttemptReconnect i c a pc = some r) :
    MutexMove i c (.attemptReconnect pc) r := by
  cases pc with
  | dropOld pc =>
    simp only [stepAttemptReconnect, goTo, Option.some.injEq] at h
    subst h
    exact .goOn (stepDrop_mutex i c pc).1 (stepDrop_mutex i c pc).2 fun h => h
  | dropCancelled pc =>
    simp only [stepAttemptReconnect, goTo, Option.some.injEq] at h
    subst h
    exact .goOn (stepDrop_mutex i c pc).1 (stepDrop_mutex i c pc).2 fun h => h
  | dropFailed pc =>
    simp only [stepAttemptReconnect, goTo, Option.some.injEq] at h
    subst h
    exact .goOn (stepDrop_mutex i c pc).1 (stepDrop_mutex i c pc).2 fun h => h
  | nativeCreate =>
    cases h
    exact .goOn (nativeCreate_mutex c i a.created).1 (nativeCreate_mutex c i a.created).2 fun h => h
  | _ =>
    simp only [stepAttemptReconnect, goTo, Controller.finish] at h
    try split_ifs at h
    all_goals cases h
    all_goals
      first
      | exact .goOn rfl rfl fun h => h
      | exact .finish rfl rfl

theorem stepLoop_mutex {l : Loop} {pc : LoopPc} (h : stepLoop l c a pc = some r) :
    MutexMove i c (.loop l pc) r := by
  cases pc with
  | blocked =>
    cases h
    refine .plain rfl rfl ?_
    intro g hg
    obtain ⟨pc', -, rfl⟩ := Option.map_eq_some_iff.mp hg
    exact fun h => h
  | head guards =>
    cases guards <;> simp only [stepLoop, goTo, Controller.finish] at h <;> (try split_ifs at h) <;>
      cases h <;> first | exact .goOn rfl rfl fun h => h | exact .finish rfl rfl
  | report guards last =>
    cases guards <;> simp only [stepLoop, goTo] at h <;> (try split_ifs at h) <;>
      cases h <;> first | exact .goOn rfl rfl fun h => h | exact .finish rfl rfl

theorem stepMonitor_mutex {pc : MonitorPc} (h : stepMonitor c a pc = some r) :
    MutexMove i c (.monitor pc) r := by
  cases pc with
  | poll =>
    simp only [stepMonitor, goTo] at h
    split at h <;> (try split_ifs at h) <;> cases h <;> exact .goOn rfl rfl fun h => h
  | _ =>
    simp only [stepMonitor, goTo, Controller.finish] at h
    try split_ifs at h
    all_goals cases h
    all_goals
      first
      | exact .goOn rfl rfl fun h => h
      | exact .finish rfl rfl

theorem stepFlow_mutex {f : Flow} (h : stepFlow i c a f = some r) : MutexMove i c f r := by
  cases f with
  | connect caller pc => exact stepConnect_mutex h
  | disconnect caller pc => exact stepDisconnect_mutex h
  | destroyResources pc => exact stepDestroyResources_mutex h
  | reconnect pc => exact stepReconnect_mutex h
  | attemptReconnect pc => exact stepAttemptReconnect_mutex h
  | loop l pc => exact stepLoop_mutex h
  | monitor pc => exact stepMonitor_mutex h

end

/-- A flow between its lock and its unlock is the one that holds the mutex. -/
structure MutexInv (s : ControllerState) : Prop where
  holder : ∀ j f, s.At j f → f.holdsMutex = true → s.shared.connectionMutex = some j
  unlocks : ∀ p ∈ s.shared.unlocked, p.1 = p.2

theorem MutexInv.flow {s : ControllerState} {i : ℕ} {f : Flow} {r : Outcome Fields Flow}
    (hinv : MutexInv s) (hf : s.At i f) (hspawned : ∀ g ∈ r.spawned, g ∈ launched)
    (hmove : MutexMove i s.shared f r) (hok : FlowOk s i f) : MutexInv (after s i r) := by
  have hnew : ∀ g ∈ launched, g.holdsMutex = false := by decide
  have hsplit : ∀ j g, (after s i r).At j g → g.holdsMutex = true →
      (j ≠ i ∧ s.At j g) ∨ (j = i ∧ g ∈ r.next) := by
    intro j g hg hh
    rcases Pool.at_set_append (c := s.shared) hg with hother | hnext | ⟨-, hg⟩
    · exact .inl hother
    · exact .inr hnext
    · exact absurd ((hnew g (hspawned g hg)).symm.trans hh) (by decide)
  cases hmove with
  | plain hmutex hlog hnext =>
    refine ⟨?_, by rw [hlog]; exact hinv.unlocks⟩
    intro j g hg hh
    rw [hmutex]
    rcases hsplit j g hg hh with ⟨-, hother⟩ | ⟨rfl, hown⟩
    · exact hinv.holder j g hother hh
    · exact hinv.holder j f hf (hnext g hown hh)
  | lock hfree hmutex hlog =>
    have hnone : s.shared.connectionMutex = none := hfree.elim hok.2.2 id
    refine ⟨?_, by rw [hlog]; exact hinv.unlocks⟩
    intro j g hg hh
    rcases hsplit j g hg hh with ⟨-, hg⟩ | ⟨rfl, -⟩
    · have hheld := hinv.holder j g hg hh
      rw [hnone] at hheld
      cases hheld
    · exact hmutex hnone
  | unlock hholds hmutex hlog hnext =>
    have hmine := hinv.holder i f hf hholds
    refine ⟨?_, ?_⟩
    · intro j g hg hh
      rcases hsplit j g hg hh with ⟨hji, hg⟩ | ⟨-, hg⟩
      · have hheld := hinv.holder j g hg hh
        rw [hmine] at hheld
        exact absurd (Option.some.inj hheld).symm hji
      · exact absurd ((hnext g hg).symm.trans hh) (by decide)
    · change ∀ p ∈ r.shared.unlocked, _
      rw [hlog]
      intro p hp
      rcases List.mem_append.mp hp with hp | hp
      · exact hinv.unlocks p hp
      · rw [hmine] at hp
        obtain rfl := List.mem_singleton.mp hp
        rfl

/-! ### Runs -/

/-- A step that meets the condition keeps both invariants. -/
theorem ownerStep {s t : ControllerState} {e : ControllerEvent} {o : Option ℕ}
    (howner : OwnerInv o s) (hmutex : MutexInv s) (hok : OwnerStepOk s e)
    (hstep : controllerStep s e = some t) : (∃ o', OwnerInv o' t) ∧ MutexInv t := by
  cases e with
  | network available =>
    obtain rfl := Option.some.inj hstep
    exact ⟨⟨o, howner.log, howner.flows, howner.kept⟩, hmutex.holder, hmutex.unlocks⟩
  | request q =>
    obtain rfl := Option.some.inj hstep
    have hnew : q.flow.dropPc = none ∧ q.flow.inSection = false ∧ q.flow.holdsMutex = false := by
      cases q <;> exact ⟨rfl, rfl, rfl⟩
    refine ⟨⟨o, howner.log, ?_, ?_⟩, ?_, hmutex.unlocks⟩
    · intro j f hf
      rcases Pool.at_start hf with hf | ⟨-, rfl⟩
      · exact howner.flows j f hf
      · exact .idle hnew.1 hnew.2.1
    · intro h hpos hle
      rcases howner.kept h hpos hle with hd | hh | ⟨k, g, hg, hgd⟩
      · exact .inl hd
      · exact .inr (.inl hh)
      · exact .inr (.inr ⟨k, g, hg.start, hgd⟩)
    · intro j f hf hh
      rcases Pool.at_start hf with hf | ⟨-, rfl⟩
      · exact hmutex.holder j f hf hh
      · exact absurd (hnew.2.2.symm.trans hh) (by decide)
  | run i a =>
    obtain ⟨f, r, hf, hr, rfl⟩ := Pool.step_cases hstep
    have hspawned := stepFlow_spawned hr
    exact ⟨howner.flow hf hspawned (stepFlow_handle hr) (hok f hf),
      hmutex.flow hf hspawned (stepFlow_mutex hr) (hok f hf)⟩

/-- A connect that succeeds, and the user's disconnect after it. -/
def plainSession : List ControllerEvent :=
  .request .connect :: runs 0 28 ++ .request .disconnect :: runs 5 13

/-- A disconnect while the connect is inside its native call. -/
def foreignUnlockRun : List ControllerEvent :=
  .request .connect :: runs 0 14 ++ .request .disconnect :: runs 2 6

end SoftEtherVpn.Controller

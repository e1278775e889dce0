import SoftEtherVpn.Foundation.Runs
import SoftEtherVpn.Service.Lifecycle

/-!
# Every controller is shut down

A controller is handed over when it has been given to `destroyResources`, or a thread holds it to do
so. At most one controller may be outside, it must be the one in the field, and whoever asks for a
disconnect must see it handed over. The flags of the service ensure this for one connection: a second
coroutine, or one that is overtaken by `stopVpn` before it has stored its controller, escapes them.
-/

namespace SoftEtherVpn.Service

open Foundation

/-- The controller on which the thread is going to call `destroyResources`. -/
def Flow.holding : Flow → Option ℕ
  | .stop _ (.clearController current) | .stop _ (.launch current) => current
  | .cleanup current => current
  | .job _ (.destroyResources k) => some k
  | _ => none

def Handed (s : ServiceState) (k : ℕ) : Prop :=
  k ∈ s.shared.destroyed ∨ some k ∈ s.threads.map fun f => f.bind Flow.holding

instance (s : ServiceState) (k : ℕ) : Decidable (Handed s k) := inferInstanceAs (Decidable (_ ∨ _))

/-- The thread is going to read `controller` in order to stop it. -/
def Flow.reads (c : Fields) : Flow → Bool
  | .stop _ .check => !c.isStopping
  | .stop _ .setStopping | .stop _ .clearRunning | .stop _ .cancelJob | .stop _ .clearJob => true
  | .stop _ .readController => true
  | _ => false

def Owed (s : ServiceState) (k : ℕ) : Prop :=
  Handed s k ∨ s.shared.controller = some k ∧ ∃ f, some f ∈ s.threads ∧ f.reads s.shared = true

/-- The steps that are left of what `stopVpn`, `onDestroy` and the calls of `destroyResources` do. -/
def Flow.work : Flow → ℕ
  | .stop _ .check => 10
  | .stop _ .setStopping => 9
  | .stop _ .clearRunning => 8
  | .stop _ .cancelJob => 7
  | .stop _ .clearJob => 6
  | .stop _ .readController => 5
  | .stop _ (.clearController _) => 4
  | .stop _ (.launch _) => 3
  | .cleanup _ | .cancelScope | .job _ (.destroyResources _) => 1
  | _ => 0

/-- At most one controller has not been handed over; it is the one in the field; a stop in progress or
an ACTION_DISCONNECT is going to hand it over; and when all of that is done it has been destroyed. -/
structure Honours (s : ServiceState) : Prop where
  one : ∀ j < s.shared.created, ∀ k < s.shared.created, ¬Handed s j → ¬Handed s k → j = k
  kept : ∀ k < s.shared.created, Handed s k ∨ s.shared.controller = some k
  owed : ∀ k < s.shared.created, s.shared.isStopping = true ∨ k < s.shared.asked → Owed s k
  settled : s.measure Flow.work = 0 → ∀ k < s.shared.asked, k ∈ s.shared.destroyed

/-- The coroutine has started and not yet stored its controller. -/
def Flow.creating : Flow → Bool
  | .job _ .create => true
  | _ => false

/-- The next step is `connectionJob?.cancel()`. -/
def Flow.cancelsJob : Flow → Bool
  | .stop _ .cancelJob => true
  | _ => false

/-- An ACTION_CONNECT is processed while the service is running or, on a service that has not been
stopped, before any coroutine has been launched; and `connectionJob` is not cancelled while a coroutine
is creating its controller. -/
def Cautious (s : ServiceState) : ServiceEvent → Prop
  | .actionConnect =>
    s.shared.isRunning = true ∨ s.shared.isStopping = false ∧ s.shared.jobs = 0
  | .run i _ => ∀ f, s.At i f → f.cancelsJob = true → (s.threads.all fun f => !f.any Flow.creating) = true
  | _ => True

instance : ∀ s e, Decidable (Cautious s e)
  | _, .actionConnect => inferInstanceAs (Decidable (_ ∨ _))
  | s, .run i _ => Pool.decidableForallAt s i _
  | _, .actionDisconnect | _, .destroy | _, .onStateChange _ | _, .onError _ =>
    inferInstanceAs (Decidable True)

/-- The coroutine that creates a controller, or what will launch it. -/
def Flow.willCreate : Flow → Bool
  | .launchJob | .job _ .start | .job _ .create => true
  | _ => false

/-- `isStopping` has been set by this call of `stopVpn`. -/
def StopPc.pastFlag : StopPc → Bool
  | .check | .setStopping => false
  | _ => true

def StopPc.pastCancel : StopPc → Bool
  | .check | .setStopping | .clearRunning | .cancelJob => false
  | _ => true

/-- What a thread relies on. -/
def Flow.Fits (c : Fields) : Flow → Prop
  | .launchJob => c.jobs = 0
  | .storeJob id => id < c.jobs
  | .job id pc =>
    id < c.jobs ∧ (if pc = .start ∨ pc = .create then c.created = 0 else 0 < c.created) ∧
      ∀ k, pc = .destroyResources k → k < c.created
  | .stop caller pc =>
    (caller = .callback ∨ caller = .job → 0 < c.created) ∧
      (caller ≠ .onDestroy → pc.pastFlag = true → c.isStopping = true)
  | _ => True

/-- A controller that the thread is about to overwrite has been handed over. -/
def Flow.Clears (c : Fields) : Flow → Prop
  | .job _ .clearController => ∀ k, c.controller = some k → k ∈ c.destroyed
  | .stop _ (.clearController current) => ∀ k, c.controller = some k → current = some k
  | _ => True

/-- No coroutine will create a controller. -/
def Barren (s : ServiceState) : Prop :=
  ∀ f, some f ∈ s.threads → f.willCreate = true → ∃ id, f = .job id .start ∧ id ∈ s.shared.cancelled

structure Inv (s : ServiceState) : Prop where
  main : s.Unique fun f => f.onMain = true
  creator : s.Unique fun f => f.willCreate = true
  jobs_le : s.shared.jobs ≤ 1
  created_le : s.shared.created ≤ s.shared.jobs
  controller_lt : ∀ k, s.shared.controller = some k → k < s.shared.created
  asked_le : s.shared.asked ≤ s.shared.created
  fits : ∀ f, some f ∈ s.threads → f.Fits s.shared
  clears : ∀ f, some f ∈ s.threads → f.Clears s.shared
  stored : ∀ id, some (.job id .start) ∈ s.threads → s.shared.connectionJob = some id ∨
    id ∈ s.shared.cancelled ∨ some (.storeJob id) ∈ s.threads
  barren : ∀ caller pc, some (.stop caller pc) ∈ s.threads → pc.pastCancel = true → Barren s
  stopping : s.shared.isStopping = true → Barren s ∨ ∃ caller pc,
    some (.stop caller pc) ∈ s.threads ∧ (pc = .clearRunning ∨ pc = .cancelJob)
  kept : ∀ k < s.shared.created, Handed s k ∨ s.shared.controller = some k
  owed : ∀ k < s.shared.created, s.shared.isStopping = true ∨ k < s.shared.asked → Owed s k

theorem handed_iff {s : ServiceState} {k : ℕ} :
    Handed s k ↔ k ∈ s.shared.destroyed ∨ ∃ f, some f ∈ s.threads ∧ f.holding = some k := by
  rw [Handed, List.mem_map]
  constructor
  · rintro (h | ⟨_ | f, hf, hk⟩)
    · exact .inl h
    · cases hk
    · exact .inr ⟨f, hf, hk⟩
  · rintro (h | ⟨f, hf, hk⟩)
    · exact .inl h
    · exact .inr ⟨some f, hf, hk⟩

theorem inv_newService : Inv newService where
  main i j f g hf := by cases hf
  creator i j f g hf := by cases hf
  jobs_le := Nat.zero_le _
  created_le := le_rfl
  controller_lt k hk := by cases hk
  asked_le := le_rfl
  fits f hf := by cases hf
  clears f hf := by cases hf
  stored id hid := by cases hid
  barren caller pc hf := by cases hf
  stopping h := by cases h
  kept k hk := by cases hk
  owed k hk := by cases hk

/-!
### One step of a thread
-/

/-- The thread is about to store `null` in `controller`. -/
def Flow.clearing : Flow → Bool
  | .stop _ (.clearController _) | .job _ .clearController => true
  | _ => false

def Flow.setsStopping : Flow → Bool
  | .stop _ .setStopping => true
  | _ => false

/-- What a step does to the fields. -/
structure Effect (c : Fields) (f : Flow) (c' : Fields) : Prop where
  jobs : c'.jobs = if f = .launchJob then c.jobs + 1 else c.jobs
  created : c'.created = if f.creating then c.created + 1 else c.created
  controller : c'.controller =
    if f.creating then some c.created else if f.clearing then none else c.controller
  isStopping : c'.isStopping = (c.isStopping || f.setsStopping)
  asked : c'.asked = c.asked
  destroyed : c.destroyed ⊆ c'.destroyed
  cancelled : c.cancelled ⊆ c'.cancelled
  connectionJob : (∀ id, f ≠ .storeJob id) → (∀ caller, f ≠ .stop caller .clearJob) →
    c'.connectionJob = c.connectionJob

section Step

variable {c : Fields} {e : ConnectEnd} {f g : Flow} {r : Outcome Fields Flow}

theorem stepStop_effect (caller : Caller) (c : Fields) (pc : StopPc) :
    Effect c (.stop caller pc) (stepStop caller c pc).shared := by
  cases pc <;> constructor <;>
    simp [stepStop, Flow.creating, Flow.clearing, Flow.setsStopping]

theorem stepJob_effect {id : ℕ} {pc : JobPc} (h : stepJob id c e pc = some r) :
    Effect c (.job id pc) r.shared := by
  cases pc with
  | callConnect | readController =>
    simp only [stepJob] at h
    split at h <;> cases h <;> constructor <;>
      simp [Flow.creating, Flow.clearing, Flow.setsStopping]
  | connecting k =>
    simp only [stepJob] at h
    cases e with
    | returned | failed =>
      cases h
      constructor <;> simp [Flow.creating, Flow.clearing, Flow.setsStopping]
    | cancelled =>
      split_ifs at h
      cases h
      constructor <;> simp [Flow.creating, Flow.clearing, Flow.setsStopping]
  | start | create | setRunning | destroyResources k | clearController =>
    cases h
    constructor <;> simp [Flow.creating, Flow.clearing, Flow.setsStopping]

theorem stepFlow_effect (h : stepFlow c e f = some r) : Effect c f r.shared := by
  cases f with
  | job id pc => exact stepJob_effect h
  | stop caller pc =>
    cases h
    exact stepStop_effect caller c pc
  | launchJob | storeJob job | cancelScope | cleanup current =>
    cases h
    constructor <;> simp [Flow.creating, Flow.clearing, Flow.setsStopping]

/-- A coroutine goes on to its next place, or to `stopVpn`, and starts no other. -/
theorem stepJob_next {id : ℕ} {pc : JobPc} (h : stepJob id c e pc = some r) :
    r.spawned = [] ∧ ∀ g ∈ r.next,
      g = .stop .job .check ∨ ∃ pc', g = .job id pc' ∧ pc' ≠ .start ∧
        (pc' = .create → pc = .start ∧ c.isCancelled id = false) ∧
        (∀ k, pc' = .destroyResources k → c.controller = some k) ∧
        (pc' = .clearController →
          (pc = .readController ∧ c.controller = none) ∨ ∃ k, pc = .destroyResources k) := by
  cases pc with
  | start =>
    cases h
    refine ⟨rfl, ?_⟩
    intro g hg
    dsimp only at hg
    split_ifs at hg with hcancelled
    · cases hg
    · cases hg
      exact .inr ⟨.create, rfl, by simp, by simpa using hcancelled, by simp, by simp⟩
  | callConnect | readController =>
    simp only [stepJob] at h
    split at h <;> cases h <;> refine ⟨rfl, ?_⟩ <;> rintro g ⟨⟩ <;>
      exact .inr ⟨_, rfl, by simp_all⟩
  | connecting k =>
    simp only [stepJob] at h
    cases e with
    | returned =>
      cases h
      exact ⟨rfl, by rintro g ⟨⟩; exact .inr ⟨_, rfl, by simp⟩⟩
    | cancelled =>
      split_ifs at h
      cases h
      exact ⟨rfl, by rintro g ⟨⟩; exact .inr ⟨_, rfl, by simp⟩⟩
    | failed =>
      cases h
      exact ⟨rfl, by rintro g ⟨⟩; exact .inl rfl⟩
  | create | destroyResources k =>
    cases h
    exact ⟨rfl, by rintro g ⟨⟩; exact .inr ⟨_, rfl, by simp⟩⟩
  | setRunning | clearController =>
    cases h
    exact ⟨rfl, by rintro g ⟨⟩⟩

/-- `stopVpn` goes on to its next place; behind it there is only the end of `onDestroy`. -/
theorem stepStop_next {caller : Caller} {pc : StopPc} (h : g ∈ (stepStop caller c pc).next) :
    g = .cancelScope ∨ ∃ pc', g = .stop caller pc' ∧
      (pc'.pastFlag = true → pc.pastFlag = true ∨ pc = .setStopping) := by
  cases pc with
  | check =>
    simp only [stepStop] at h
    split_ifs at h <;> cases h
    exact .inr ⟨_, rfl, by simp [StopPc.pastFlag]⟩
  | launch current =>
    cases caller <;> cases h
    exact .inl rfl
  | setStopping =>
    cases h
    exact .inr ⟨_, rfl, fun _ => .inr rfl⟩
  | clearRunning | cancelJob | clearJob | readController | clearController _ =>
    cases h
    exact .inr ⟨_, rfl, fun _ => .inl rfl⟩

theorem onMain_step (h : stepFlow c e f = some r) :
    (∀ g ∈ r.next, g.onMain = true → f.onMain = true) ∧ ∀ g ∈ r.spawned, g.onMain = false := by
  cases f with
  | job id pc =>
    obtain ⟨hspawned, hnext⟩ := stepJob_next h
    refine ⟨?_, by simp [hspawned]⟩
    intro g hg hmain
    rcases hnext g hg with rfl | ⟨pc', rfl, -⟩ <;> simp [Flow.onMain] at hmain
  | stop caller pc =>
    cases h
    cases caller <;> cases pc <;> simp [stepStop, Flow.onMain, Caller.resume]
  | launchJob | storeJob job | cancelScope | cleanup current =>
    cases h
    simp [Flow.onMain]

theorem willCreate_step (h : stepFlow c e f = some r) :
    (∀ g ∈ r.next, g.willCreate = true → f.willCreate = true ∧ r.spawned = []) ∧
      (∀ g ∈ r.spawned, g.willCreate = true → f = .launchJob) ∧ r.spawned.length ≤ 1 := by
  cases f with
  | job id pc =>
    obtain ⟨hspawned, hnext⟩ := stepJob_next h
    refine ⟨?_, by simp [hspawned], by simp [hspawned]⟩
    intro g hg hcreate
    rcases hnext g hg with rfl | ⟨pc', rfl, hstart, hpc, -⟩
    · simp [Flow.willCreate] at hcreate
    · cases pc' with
      | create =>
        rw [(hpc rfl).1]
        exact ⟨rfl, hspawned⟩
      | start => exact absurd rfl hstart
      | _ => cases hcreate
  | stop caller pc =>
    cases h
    cases caller <;> cases pc <;> simp [stepStop, Flow.willCreate, Caller.resume]
  | launchJob | storeJob job | cancelScope | cleanup current =>
    cases h
    simp [Flow.willCreate]

end Step

end SoftEtherVpn.Service

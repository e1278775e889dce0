import SoftEtherVpn.Foundation.Threads

/-!
# The life of the service

`SoftEtherVpnService` as threads over its fields: `startVpn` with the coroutine that creates the
controller, `stopVpn` wherever it is called from, `onDestroy`, and the coroutines that call
`destroyResources`. The main thread does one thing at a time; the coroutines and the callbacks of the
controller run beside it. One step reads or writes one field, or launches or cancels a coroutine. How a
call of `connect` ends, and when, is the environment's choice.
-/

namespace SoftEtherVpn.Service

open Foundation

/-- The fields of the service, the jobs that were cancelled, and what has been done: controller `k`
is the `k`-th that was created, job `k` the `k`-th that was launched. Below `asked` are the controllers
that existed when an ACTION_DISCONNECT was last processed. -/
structure Fields where
  isRunning : Bool
  isStopping : Bool
  controller : Option ℕ
  connectionJob : Option ℕ
  scopeActive : Bool
  jobs : ℕ
  cancelled : List ℕ
  created : ℕ
  destroyed : List ℕ
  asked : ℕ
  deriving DecidableEq, Repr

def Fields.initial : Fields := ⟨false, false, none, none, true, 0, [], 0, [], 0⟩

/-- `isActive` of a job is false. -/
def Fields.isCancelled (c : Fields) (job : ℕ) : Bool := job ∈ c.cancelled ∨ c.scopeActive = false

inductive ConnectEnd
  | returned
  | cancelled
  | failed
  deriving DecidableEq, Repr

/-- The places of the coroutine of `startVpn`; the last three are those of
`catch (e: CancellationException)`. -/
inductive JobPc
  | start
  | create
  | callConnect
  | connecting (controller : ℕ)
  | setRunning
  | readController
  | destroyResources (controller : ℕ)
  | clearController
  deriving DecidableEq, Repr

/-- The places of `stopVpn`; `onDestroy` does the same from `cancelJob` on. -/
inductive StopPc
  | check
  | setStopping
  | clearRunning
  | cancelJob
  | clearJob
  | readController
  | clearController (current : Option ℕ)
  | launch (current : Option ℕ)
  deriving DecidableEq, Repr

inductive Caller
  | intent
  | callback
  | job
  | onDestroy
  deriving DecidableEq, Repr

inductive Flow
  | launchJob
  | storeJob (job : ℕ)
  | job (id : ℕ) (pc : JobPc)
  | stop (caller : Caller) (pc : StopPc)
  | cancelScope
  | cleanup (current : Option ℕ)
  deriving DecidableEq, Repr

/-- The main thread runs this. -/
def Flow.onMain : Flow → Bool
  | .launchJob | .storeJob _ | .cancelScope => true
  | .stop .intent _ | .stop .onDestroy _ => true
  | _ => false

def stepJob (id : ℕ) (c : Fields) (connectEnd : ConnectEnd) : JobPc → Option (Outcome Fields Flow)
  | .start => some ⟨c, if c.isCancelled id then none else some (.job id .create), []⟩
  | .create =>
    some ⟨{ c with controller := some c.created, created := c.created + 1 },
      some (.job id .callConnect), []⟩
  | .callConnect =>
    match c.controller with
    | none => some ⟨c, some (.job id .setRunning), []⟩
    | some k => some ⟨c, some (.job id (.connecting k)), []⟩
  | .connecting _ =>
    match connectEnd with
    | .returned => some ⟨c, some (.job id .setRunning), []⟩
    | .cancelled => if c.isCancelled id then some ⟨c, some (.job id .readController), []⟩ else none
    | .failed => some ⟨c, some (.stop .job .check), []⟩
  | .setRunning => some ⟨{ c with isRunning := true }, none, []⟩
  | .readController =>
    match c.controller with
    | none => some ⟨c, some (.job id .clearController), []⟩
    | some k => some ⟨c, some (.job id (.destroyResources k)), []⟩
  | .destroyResources k =>
    some ⟨{ c with destroyed := c.destroyed ++ [k] }, some (.job id .clearController), []⟩
  | .clearController => some ⟨{ c with controller := none }, none, []⟩

/-- `onDestroy` goes on when it has launched its coroutine, the others are done. -/
def Caller.resume : Caller → Option Flow
  | .onDestroy => some .cancelScope
  | _ => none

def stepStop (caller : Caller) (c : Fields) : StopPc → Outcome Fields Flow
  | .check => ⟨c, if c.isStopping then none else some (.stop caller .setStopping), []⟩
  | .setStopping => ⟨{ c with isStopping := true }, some (.stop caller .clearRunning), []⟩
  | .clearRunning => ⟨{ c with isRunning := false }, some (.stop caller .cancelJob), []⟩
  | .cancelJob =>
    ⟨{ c with cancelled := c.cancelled ++ c.connectionJob.toList }, some (.stop caller .clearJob), []⟩
  | .clearJob => ⟨{ c with connectionJob := none }, some (.stop caller .readController), []⟩
  | .readController => ⟨c, some (.stop caller (.clearController c.controller)), []⟩
  | .clearController current =>
    ⟨{ c with controller := none }, some (.stop caller (.launch current)), []⟩
  | .launch current => ⟨c, caller.resume, [.cleanup current]⟩

def stepFlow (c : Fields) (connectEnd : ConnectEnd) : Flow → Option (Outcome Fields Flow)
  | .launchJob =>
    some ⟨{ c with jobs := c.jobs + 1 }, some (.storeJob c.jobs), [.job c.jobs .start]⟩
  | .storeJob job => some ⟨{ c with connectionJob := some job }, none, []⟩
  | .job id pc => stepJob id c connectEnd pc
  | .stop caller pc => some (stepStop caller c pc)
  | .cancelScope => some ⟨{ c with scopeActive := false }, none, []⟩
  | .cleanup current => some ⟨{ c with destroyed := c.destroyed ++ current.toList }, none, []⟩

abbrev ServiceState := Pool Fields Flow

/-- A new instance of the service. -/
def newService : ServiceState := ⟨.initial, []⟩

/-- The main thread is free and the instance has not been destroyed. -/
def ServiceState.idle (s : ServiceState) : Bool :=
  s.shared.scopeActive && s.threads.all fun f => !f.any Flow.onMain

/-- An intent with a configuration or an ACTION_DISCONNECT is processed, the instance is destroyed, a
callback of a controller is called, or a thread goes on. -/
inductive ServiceEvent
  | actionConnect
  | actionDisconnect
  | destroy
  | onStateChange (controller : ℕ)
  | onError (controller : ℕ)
  | run (thread : ℕ) (connectEnd : ConnectEnd)
  deriving DecidableEq, Repr

/-- `handleConnectionState` writes no field of `Fields`. -/
def step (s : ServiceState) : ServiceEvent → Option ServiceState
  | .actionConnect =>
    if s.idle = false then none
    else if s.shared.isRunning then some s
    else some (s.start .launchJob)
  | .actionDisconnect =>
    if s.idle = false then none
    else
      some (Pool.start { s with shared := { s.shared with asked := s.shared.created } }
        (.stop .intent .check))
  | .destroy => if s.idle = false then none else some (s.start (.stop .onDestroy .cancelJob))
  | .onStateChange k => if k < s.shared.created then some s else none
  | .onError k => if k < s.shared.created then some (s.start (.stop .callback .check)) else none
  | .run i connectEnd => Pool.step (fun _ => stepFlow) s i connectEnd

end SoftEtherVpn.Service

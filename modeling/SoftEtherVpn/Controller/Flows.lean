import SoftEtherVpn.Foundation.Threads

/-!
# The flows of the connection controller

`ConnectionController` as threads over its fields: `connect` with its retry loop,
`attemptReconnect`, `reconnect`, `disconnect`, `destroyResources`, the data loops that
report failures and the monitor of the native state. One step reads or writes one field,
or is one call into the native client or the service; what such a call answers, and when
a coroutine is cancelled, is the environment's choice.
-/

namespace SoftEtherVpn.Controller

open Foundation

inductive ConnectionState
  | disconnected
  | connecting
  | tlsHandshake
  | protocolHandshake
  | authenticating
  | sessionSetup
  | connected
  | disconnecting
  | error
  deriving DecidableEq, Repr

/-- `mapNativeState`. -/
def mapNativeState : ℕ → Option ConnectionState
  | 0 => some .disconnected
  | 1 => some .connecting
  | 2 => some .tlsHandshake
  | 3 => some .protocolHandshake
  | 4 => some .authenticating
  | 5 => some .sessionSetup
  | 6 => some .connected
  | 7 => some .disconnecting
  | _ => none

def maxReconnectAttempts : ℕ := 3

/-- What the system sees: a call of `establishVpnInterface`, with the DHCP configuration or
the fixed one, and the state CONNECTED. -/
inductive Effect
  | establish (dhcp : Bool)
  | connected
  deriving DecidableEq, Repr

/-- A call of `nativeDestroy`: the flow that makes it, the handle, and whether the flow that
created the handle is then still between raising and lowering `connectInFlight`. -/
structure Destroyed where
  flow : ℕ
  handle : ℕ
  creatorInFlight : Bool
  deriving DecidableEq, Repr

/-- The fields of the controller. The `n`-th handle that `nativeCreate` returns is the number
`n`, and 0 is no handle. The mutex remembers which flow locked it, and the last five fields
log what was done: they are written and never read. -/
structure Fields where
  isCancelled : Bool
  isReconnecting : Bool
  connectInFlight : Bool
  connectionMutex : Option ℕ
  reconnectAttempts : ℕ
  isNetworkAvailable : Bool
  currentState : ConnectionState
  nativeHandle : ℕ
  vpnInterface : Bool
  tunTerminal : Bool
  effects : List Effect
  creators : List ℕ
  destroyed : List Destroyed
  unlocked : List (ℕ × ℕ)
  inFlight : List ℕ
  deriving DecidableEq, Repr

inductive ConnectCaller
  | user
  | reconnect
  deriving DecidableEq, Repr

inductive DisconnectCaller
  | user
  | reconnect
  | attemptReconnect
  deriving DecidableEq, Repr

/-- The teardown of the native handle: the check that there is one, the copy, the store of 0 and
the call of `nativeDestroy`. -/
inductive DropPc
  | check
  | copy
  | clear (handle : ℕ)
  | destroy (handle : ℕ)
  deriving DecidableEq, Repr

/-- `connect`, `performConnect` and `performConnectInner`. -/
inductive ConnectPc
  | checkIdle
  | lock
  | checkCancelled
  | checkNetwork
  | checkIdleLocked
  | clearAttempts
  | loopHead
  | setConnecting
  | resetCancelled
  | raiseInFlight
  | nativeCreate
  | checkBeforeStart
  | setTlsHandshake
  | startMonitor
  | nativeConnect
  | checkAfterConnect (result : ℤ)
  | checkResult (result : ℤ)
  | setError
  | checkConnected
  | setSessionSetup
  | clearAttemptsOnSuccess
  | checkBeforeInterface
  | doDhcp
  | checkAfterDhcp (lease : Bool)
  | establish (lease : Bool)
  | setConnected
  | startDataForwarding
  | lowerInFlight
  | tearDown (pc : DropPc)
  | lowerInFlightFailed
  | checkCancelledFailed
  | checkNetworkFailed
  | countAttempt
  | delaying
  | setDisconnected
  | unlock
  deriving DecidableEq, Repr

/-- `disconnect`. -/
inductive DisconnectPc
  | setCancelled
  | tryLock
  | checkState
  | setDisconnecting
  | checkInFlight
  | tearDown (pc : DropPc)
  | checkLocked
  | unlock
  | stopTun
  | closeInterface
  | setDisconnected
  deriving DecidableEq, Repr

/-- `destroyResources`. -/
inductive DestroyPc
  | setCancelled
  | stopTun
  | closeInterface
  | checkInFlight
  | destroyHandle (pc : DropPc)
  deriving DecidableEq, Repr

/-- `reconnect`, around its calls of `disconnect` and `connect`. -/
inductive ReconnectPc
  | claim
  | delaying
  | resetCancelled
  | release
  deriving DecidableEq, Repr

/-- `attemptReconnect`. -/
inductive AttemptPc
  | claim
  | countAttempt
  | resetCancelled
  | stopTun
  | closeInterface
  | dropOld (pc : DropPc)
  | setConnecting
  | delaying
  | checkCancelled
  | raiseInFlight
  | nativeCreate
  | startMonitor
  | nativeConnect
  | checkAfterConnect
  | dropCancelled (pc : DropPc)
  | doDhcp
  | establish (lease : Bool)
  | setConnected
  | startDataForwarding
  | clearAttempts
  | dropFailed (pc : DropPc)
  | setDisconnected
  | lowerInFlight
  | release
  deriving DecidableEq, Repr

/-- What a data loop reads before it goes on. -/
inductive Guard
  | connected
  | notCancelled
  deriving DecidableEq, Repr

inductive Loop
  | tun
  | receive
  | keepAlive
  deriving DecidableEq, Repr

/-- A data loop is at the head of its loop, in a blocking call, or about to report a failure,
with the conditions it has still to read. -/
inductive LoopPc
  | head (guards : List Guard)
  | blocked
  | report (guards : List Guard) (last : Bool)
  deriving DecidableEq, Repr

/-- `startNativeStateMonitor`. -/
inductive MonitorPc
  | checkCancelled
  | checkHandle
  | poll
  | setState (mapped : ConnectionState)
  | checkState
  deriving DecidableEq, Repr

inductive Flow
  | connect (caller : ConnectCaller) (pc : ConnectPc)
  | disconnect (caller : DisconnectCaller) (pc : DisconnectPc)
  | destroyResources (pc : DestroyPc)
  | reconnect (pc : ReconnectPc)
  | attemptReconnect (pc : AttemptPc)
  | loop (loop : Loop) (pc : LoopPc)
  | monitor (pc : MonitorPc)
  deriving DecidableEq, Repr

/-- How the blocking call of a data loop ends. -/
inductive LoopOutcome
  | fine
  | failed
  | threw
  | tunError
  | stopped
  deriving DecidableEq, Repr

/-- What the environment answers to the step that is taken. -/
structure Answers where
  created : Bool
  result : ℤ
  lease : Bool
  interface : Bool
  coroutineCancelled : Bool
  outcome : LoopOutcome
  nativeState : ℕ
  throttled : Bool
  deriving DecidableEq, Repr

abbrev Step := Option (Outcome Fields Flow)

/-- The setter of `currentState`. -/
def Fields.setState (c : Fields) (state : ConnectionState) : Fields :=
  { c with
    currentState := state
    effects := if state = .connected then c.effects ++ [.connected] else c.effects }

/-- A call of `service.establishVpnInterface`. -/
def Fields.establishVpnInterface (c : Fields) (dhcp ok : Bool) : Fields :=
  { c with effects := c.effects ++ [.establish dhcp], vpnInterface := ok || c.vpnInterface }

/-- `connect` may start. -/
def Fields.idle (c : Fields) : Bool :=
  c.currentState = .disconnected ∨ c.currentState = .error

def goTo (c : Fields) (f : Flow) : Step := some ⟨c, some f, []⟩

def finish (c : Fields) : Step := some ⟨c, none, []⟩

/-- `nativeHandle = client.nativeCreate()`. -/
def Fields.nativeCreate (c : Fields) (i : ℕ) (ok : Bool) : Fields :=
  if ok then
    { c with nativeHandle := c.creators.length + 1, creators := c.creators ++ [i] }
  else { c with nativeHandle := 0 }

def Fields.raiseInFlight (c : Fields) (i : ℕ) : Fields :=
  { c with connectInFlight := true, inFlight := i :: c.inFlight }

def Fields.lowerInFlight (c : Fields) (i : ℕ) : Fields :=
  { c with connectInFlight := false, inFlight := c.inFlight.filter (· ≠ i) }

/-- The flow that created a handle. -/
def Fields.creator (c : Fields) (handle : ℕ) : Option ℕ := c.creators[handle - 1]?

/-- `client.nativeDestroy(handle)`. -/
def Fields.nativeDestroy (c : Fields) (i handle : ℕ) : Fields :=
  { c with destroyed := c.destroyed ++ [⟨i, handle, (c.creator handle).any (· ∈ c.inFlight)⟩] }

/-- `connectionMutex.unlock()`. -/
def Fields.unlock (c : Fields) (i : ℕ) : Fields :=
  { c with
    connectionMutex := none
    unlocked := c.unlocked ++ (c.connectionMutex.map (i, ·)).toList }

/-- One step of a teardown, and where it goes on. -/
def stepDrop (i : ℕ) (c : Fields) : DropPc → Fields × Option DropPc
  | .check => (c, if c.nativeHandle = 0 then none else some .copy)
  | .copy => (c, some (.clear c.nativeHandle))
  | .clear handle =>
    ({ c with nativeHandle := 0 }, if handle = 0 then none else some (.destroy handle))
  | .destroy handle => (c.nativeDestroy i handle, none)

/-- Where a caller of `connect` goes on. -/
def ConnectCaller.resume : ConnectCaller → Option Flow
  | .user => none
  | .reconnect => some (.reconnect .release)

/-- Where a caller of `disconnect` goes on. -/
def DisconnectCaller.resume : DisconnectCaller → Option Flow
  | .user => none
  | .reconnect => some (.reconnect .delaying)
  | .attemptReconnect => some (.attemptReconnect .lowerInFlight)

/-- Where a caller of `disconnect` goes on when its `unlock` throws. -/
def DisconnectCaller.resumeThrown : DisconnectCaller → Option Flow
  | .user => none
  | .reconnect => some (.reconnect .release)
  | .attemptReconnect => some (.attemptReconnect (.dropFailed .check))

def Loop.guards : Loop → List Guard
  | .tun => []
  | .receive => [.connected, .notCancelled]
  | .keepAlive => [.connected, .notCancelled]

/-- The loops that `startDataForwarding` launches. -/
def dataLoops : List Flow := [.tun, .receive, .keepAlive].map fun l => .loop l (.head l.guards)

def stepConnect (caller : ConnectCaller) (i : ℕ) (c : Fields) (a : Answers) (pc : ConnectPc) :
    Step :=
  let go := fun c pc => goTo c (.connect caller pc)
  match pc with
  | .checkIdle => if c.idle then go c .lock else some ⟨c, caller.resume, []⟩
  | .lock =>
    if a.coroutineCancelled then some ⟨c, caller.resume, []⟩
    else if c.connectionMutex = none then go { c with connectionMutex := some i } .checkCancelled
    else none
  | .checkCancelled => if c.isCancelled then go c .unlock else go c .checkNetwork
  | .checkNetwork => if c.isNetworkAvailable then go c .checkIdleLocked else go c .unlock
  | .checkIdleLocked => if c.idle then go c .clearAttempts else go c .unlock
  | .clearAttempts => go { c with reconnectAttempts := 0 } .loopHead
  | .loopHead =>
    if c.reconnectAttempts < maxReconnectAttempts then go c .setConnecting else go c .unlock
  | .setConnecting => go (c.setState .connecting) .resetCancelled
  | .resetCancelled => go { c with isCancelled := false } .raiseInFlight
  | .raiseInFlight => go (c.raiseInFlight i) .nativeCreate
  | .nativeCreate =>
    go (c.nativeCreate i a.created) (if a.created then .checkBeforeStart else .tearDown .copy)
  | .checkBeforeStart => if c.isCancelled then go c (.tearDown .copy) else go c .setTlsHandshake
  | .setTlsHandshake => go (c.setState .tlsHandshake) .startMonitor
  | .startMonitor => some ⟨c, some (.connect caller .nativeConnect), [.monitor .checkCancelled]⟩
  | .nativeConnect => go c (.checkAfterConnect a.result)
  | .checkAfterConnect result =>
    if c.isCancelled then go c (.tearDown .copy) else go c (.checkResult result)
  | .checkResult result => if result = 0 then go c .checkConnected else go c .setError
  | .setError => go (c.setState .error) (.tearDown .copy)
  | .checkConnected =>
    if c.currentState = .connected then go c .clearAttemptsOnSuccess else go c .setSessionSetup
  | .setSessionSetup => go (c.setState .sessionSetup) .clearAttemptsOnSuccess
  | .clearAttemptsOnSuccess => go { c with reconnectAttempts := 0 } .checkBeforeInterface
  | .checkBeforeInterface => if c.isCancelled then go c (.tearDown .copy) else go c .doDhcp
  | .doDhcp => go c (.checkAfterDhcp a.lease)
  | .checkAfterDhcp lease =>
    if c.isCancelled then go c (.tearDown .copy) else go c (.establish lease)
  | .establish lease =>
    go (c.establishVpnInterface lease a.interface)
      (if a.interface then .setConnected else .tearDown .copy)
  | .setConnected => go (c.setState .connected) .startDataForwarding
  | .startDataForwarding =>
    if c.vpnInterface then
      some ⟨{ c with tunTerminal := true }, some (.connect caller .lowerInFlight), dataLoops⟩
    else go c (.tearDown .copy)
  | .lowerInFlight => go (c.lowerInFlight i) .unlock
  | .tearDown pc =>
    let (c, pc) := stepDrop i c pc
    go c (pc.elim .lowerInFlightFailed .tearDown)
  | .lowerInFlightFailed => go (c.lowerInFlight i) .checkCancelledFailed
  | .checkCancelledFailed => if c.isCancelled then go c .unlock else go c .checkNetworkFailed
  | .checkNetworkFailed => if c.isNetworkAvailable then go c .countAttempt else go c .setDisconnected
  | .countAttempt =>
    go { c with reconnectAttempts := c.reconnectAttempts + 1 }
      (if c.reconnectAttempts + 1 < maxReconnectAttempts then .delaying else .setDisconnected)
  | .delaying => if a.coroutineCancelled then go c .unlock else go c .loopHead
  | .setDisconnected => go (c.setState .disconnected) .unlock
  | .unlock => some ⟨c.unlock i, caller.resume, []⟩

def stepDisconnect (caller : DisconnectCaller) (i : ℕ) (c : Fields) (pc : DisconnectPc) : Step :=
  let go := fun c pc => goTo c (.disconnect caller pc)
  match pc with
  | .setCancelled => go { c with isCancelled := true } .tryLock
  | .tryLock => go { c with connectionMutex := c.connectionMutex.or (some i) } .checkState
  | .checkState =>
    if c.currentState = .connected ∨ c.currentState = .connecting then go c .setDisconnecting
    else go c .checkInFlight
  | .setDisconnecting => go (c.setState .disconnecting) .checkInFlight
  | .checkInFlight => if c.connectInFlight then go c .checkLocked else go c (.tearDown .check)
  | .tearDown pc =>
    let (c, pc) := stepDrop i c pc
    go c (pc.elim .checkLocked .tearDown)
  | .checkLocked => if c.connectionMutex = none then go c .stopTun else go c .unlock
  | .unlock =>
    if c.connectionMutex = none then some ⟨c, caller.resumeThrown, []⟩ else go (c.unlock i) .stopTun
  | .stopTun => go { c with tunTerminal := false } .closeInterface
  | .closeInterface => go { c with vpnInterface := false } .setDisconnected
  | .setDisconnected => some ⟨c.setState .disconnected, caller.resume, []⟩

def stepDestroyResources (i : ℕ) (c : Fields) (pc : DestroyPc) : Step :=
  let go := fun c pc => goTo c (.destroyResources pc)
  match pc with
  | .setCancelled => go { c with isCancelled := true } .stopTun
  | .stopTun => go { c with tunTerminal := false } .closeInterface
  | .closeInterface => go { c with vpnInterface := false } .checkInFlight
  | .checkInFlight => if c.connectInFlight then finish c else go c (.destroyHandle .copy)
  | .destroyHandle pc =>
    let (c, pc) := stepDrop i c pc
    some ⟨c, pc.map fun pc => .destroyResources (.destroyHandle pc), []⟩

def stepReconnect (c : Fields) (a : Answers) (pc : ReconnectPc) : Step :=
  match pc with
  | .claim =>
    if c.isReconnecting then finish c
    else goTo { c with isReconnecting := true } (.disconnect .reconnect .setCancelled)
  | .delaying =>
    if a.coroutineCancelled then goTo c (.reconnect .release)
    else goTo c (.reconnect .resetCancelled)
  | .resetCancelled => goTo { c with isCancelled := false } (.connect .reconnect .checkIdle)
  | .release => finish { c with isReconnecting := false }

def stepAttemptReconnect (i : ℕ) (c : Fields) (a : Answers) (pc : AttemptPc) : Step :=
  let go := fun c pc => goTo c (.attemptReconnect pc)
  match pc with
  | .claim =>
    if c.isReconnecting then finish c else go { c with isReconnecting := true } .countAttempt
  | .countAttempt =>
    let c' := { c with reconnectAttempts := c.reconnectAttempts + 1 }
    if maxReconnectAttempts ≤ c.reconnectAttempts + 1 then
      goTo c' (.disconnect .attemptReconnect .setCancelled)
    else go c' .resetCancelled
  | .resetCancelled => go { c with isCancelled := false } .stopTun
  | .stopTun => go { c with tunTerminal := false } .closeInterface
  | .closeInterface => go { c with vpnInterface := false } (.dropOld .check)
  | .dropOld pc =>
    let (c, pc) := stepDrop i c pc
    go c (pc.elim .setConnecting .dropOld)
  | .setConnecting => go (c.setState .connecting) .delaying
  | .delaying => go c .checkCancelled
  | .checkCancelled => if c.isCancelled then go c .lowerInFlight else go c .raiseInFlight
  | .raiseInFlight => go (c.raiseInFlight i) .nativeCreate
  | .nativeCreate =>
    go (c.nativeCreate i a.created) (if a.created then .startMonitor else .dropFailed .check)
  | .startMonitor =>
    some ⟨c, some (.attemptReconnect .nativeConnect), [.monitor .checkCancelled]⟩
  | .nativeConnect => if a.result = 0 then go c .checkAfterConnect else go c (.dropFailed .check)
  | .checkAfterConnect => if c.isCancelled then go c (.dropCancelled .copy) else go c .doDhcp
  | .dropCancelled pc =>
    let (c, pc) := stepDrop i c pc
    go c (pc.elim .lowerInFlight .dropCancelled)
  | .doDhcp => go c (.establish a.lease)
  | .establish lease =>
    go (c.establishVpnInterface lease a.interface)
      (if a.interface then .setConnected else .dropFailed .check)
  | .setConnected => go (c.setState .connected) .startDataForwarding
  | .startDataForwarding =>
    if c.vpnInterface then
      some ⟨{ c with tunTerminal := true }, some (.attemptReconnect .clearAttempts), dataLoops⟩
    else go c (.dropFailed .check)
  | .clearAttempts => go { c with reconnectAttempts := 0 } .lowerInFlight
  | .dropFailed pc =>
    let (c, pc) := stepDrop i c pc
    go c (pc.elim .setDisconnected .dropFailed)
  | .setDisconnected => go (c.setState .disconnected) .lowerInFlight
  | .lowerInFlight => go (c.lowerInFlight i) .release
  | .release => finish { c with isReconnecting := false }

def Guard.holds (c : Fields) : Guard → Bool
  | .connected => c.currentState = .connected
  | .notCancelled => !c.isCancelled

/-- Where a loop goes when its blocking call has ended: the keepalive loop reports without
looking again, the others read both fields first. -/
def Loop.after (l : Loop) : LoopOutcome → Option LoopPc
  | .fine => some (.head l.guards)
  | .failed =>
    match l with
    | .tun => some (.report [.connected, .notCancelled] false)
    | .receive => some (.report [.connected, .notCancelled] true)
    | .keepAlive => some (.report [] true)
  | .threw =>
    match l with
    | .tun => some (.report [.notCancelled, .connected] false)
    | .receive => some (.report [.connected, .notCancelled] true)
    | .keepAlive => none
  | .tunError =>
    match l with
    | .tun => some (.report [.notCancelled] true)
    | _ => none
  | .stopped => none

def stepLoop (l : Loop) (c : Fields) (a : Answers) (pc : LoopPc) : Step :=
  match pc with
  | .head [] => goTo c (.loop l .blocked)
  | .head (g :: guards) => if g.holds c then goTo c (.loop l (.head guards)) else finish c
  | .blocked => some ⟨c, (l.after a.outcome).map (.loop l), []⟩
  | .report guards last =>
    let next := if last then none else some (Flow.loop l (.head l.guards))
    match guards with
    | [] => some ⟨c, next, [.attemptReconnect .claim]⟩
    | g :: guards =>
      if g.holds c then goTo c (.loop l (.report guards last)) else some ⟨c, next, []⟩

def stepMonitor (c : Fields) (a : Answers) (pc : MonitorPc) : Step :=
  let go := fun c pc => goTo c (.monitor pc)
  match pc with
  | .checkCancelled => if c.isCancelled then finish c else go c .checkHandle
  | .checkHandle => if c.nativeHandle = 0 then finish c else go c .poll
  | .poll =>
    match mapNativeState a.nativeState with
    | none => go c .checkState
    | some mapped =>
      if mapped ≠ .disconnected ∧ mapped ≠ .connected ∧ mapped ≠ c.currentState ∧ ¬ a.throttled then
        go c (.setState mapped)
      else go c .checkState
  | .setState mapped => go (c.setState mapped) .checkState
  | .checkState =>
    if c.currentState = .connected ∨ c.currentState = .disconnecting ∨
        c.currentState = .disconnected ∨ a.coroutineCancelled then finish c
    else go c .checkCancelled

def stepFlow (i : ℕ) (c : Fields) (a : Answers) : Flow → Step
  | .connect caller pc => stepConnect caller i c a pc
  | .disconnect caller pc => stepDisconnect caller i c pc
  | .destroyResources pc => stepDestroyResources i c pc
  | .reconnect pc => stepReconnect c a pc
  | .attemptReconnect pc => stepAttemptReconnect i c a pc
  | .loop l pc => stepLoop l c a pc
  | .monitor pc => stepMonitor c a pc

/-- The calls from outside. -/
inductive Request
  | connect
  | reconnect
  | disconnect
  | destroyResources
  deriving DecidableEq, Repr

def Request.flow : Request → Flow
  | .connect => .connect .user .checkIdle
  | .reconnect => .reconnect .claim
  | .disconnect => .disconnect .user .setCancelled
  | .destroyResources => .destroyResources .setCancelled

inductive ControllerEvent
  | request (r : Request)
  | network (available : Bool)
  | run (i : ℕ) (a : Answers)
  deriving DecidableEq, Repr

abbrev ControllerState := Pool Fields Flow

def controllerStep (s : ControllerState) : ControllerEvent → Option ControllerState
  | .request r => some (s.start r.flow)
  | .network available =>
    some { s with shared := { s.shared with isNetworkAvailable := available } }
  | .run i a => s.step stepFlow i a

/-- A new controller. -/
def newController : ControllerState :=
  { shared :=
      { isCancelled := false, isReconnecting := false, connectInFlight := false
        connectionMutex := none, reconnectAttempts := 0, isNetworkAvailable := true
        currentState := .disconnected, nativeHandle := 0, vpnInterface := false
        tunTerminal := false, effects := [], creators := [], destroyed := [], unlocked := []
        inFlight := [] }
    threads := [] }

/-- Every call succeeds. -/
def Answers.success : Answers := ⟨true, 0, true, true, false, .fine, 6, false⟩

/-- A flow takes a number of steps in which every call succeeds. -/
def runs (i n : ℕ) : List ControllerEvent := List.replicate n (.run i .success)

/-- The flows that other flows start. -/
def launched : List Flow := .monitor .checkCancelled :: .attemptReconnect .claim :: dataLoops

theorem stepFlow_spawned {i : ℕ} {c : Fields} {a : Answers} {f : Flow} {r : Outcome Fields Flow}
    (h : stepFlow i c a f = some r) : ∀ g ∈ r.spawned, g ∈ launched := by
  have hnone : ∀ g ∈ ([] : List Flow), g ∈ launched := by simp
  have hloops : ∀ g ∈ dataLoops, g ∈ launched := by decide
  have hmonitor : ∀ g ∈ [Flow.monitor .checkCancelled], g ∈ launched := by decide
  have hattempt : ∀ g ∈ [Flow.attemptReconnect .claim], g ∈ launched := by decide
  cases f with
  | connect caller pc =>
    cases pc <;> simp only [stepFlow, stepConnect, goTo] at h <;> (try split_ifs at h) <;> cases h <;>
      first | exact hnone | exact hloops | exact hmonitor
  | disconnect caller pc =>
    cases pc <;> simp only [stepFlow, stepDisconnect, goTo] at h <;> (try split_ifs at h) <;>
      cases h <;> exact hnone
  | destroyResources pc =>
    cases pc <;> simp only [stepFlow, stepDestroyResources, goTo, finish] at h <;>
      (try split_ifs at h) <;> cases h <;> exact hnone
  | reconnect pc =>
    cases pc <;> simp only [stepFlow, stepReconnect, goTo, finish] at h <;> (try split_ifs at h) <;>
      cases h <;> exact hnone
  | attemptReconnect pc =>
    cases pc <;> simp only [stepFlow, stepAttemptReconnect, goTo, finish] at h <;>
      (try split_ifs at h) <;> cases h <;> first | exact hnone | exact hloops | exact hmonitor
  | loop l pc =>
    cases pc with
    | blocked =>
      cases h
      exact hnone
    | head guards =>
      cases guards <;> simp only [stepFlow, stepLoop, goTo, finish] at h <;> (try split_ifs at h) <;>
        cases h <;> exact hnone
    | report guards last =>
      cases guards <;> simp only [stepFlow, stepLoop, goTo] at h <;> (try split_ifs at h) <;>
        cases h <;> first | exact hnone | exact hattempt
  | monitor pc =>
    cases pc with
    | poll =>
      simp only [stepFlow, stepMonitor, goTo] at h
      split at h <;> (try split_ifs at h) <;> cases h <;> exact hnone
    | _ =>
      simp only [stepFlow, stepMonitor, goTo, finish] at h
      try split_ifs at h
      all_goals cases h
      all_goals exact hnone

end SoftEtherVpn.Controller

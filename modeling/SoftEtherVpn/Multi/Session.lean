import SoftEtherVpn.Foundation.Programs
import SoftEtherVpn.Packet.SendStreams

/-!
# The threads of a session with several TCP sockets

The shared fields that the receive thread, the sending threads, the thread of an additional
connect and the thread that disconnects read and write, and each of their calls as a
program of single reads, writes, lock operations and calls on a TLS context. A
context is named by the number of its creation. What a call leaves to its environment (the
outcome of a poll, a read or a write, the candidates of a send, how often a TLS call is repeated)
is open in its program or an argument of the call.
-/

namespace SoftEtherVpn.Multi

open Foundation
open Packet (maxSeConnections maxSeConnections_pos SockId)

inductive State
  | connected
  | disconnecting
  | disconnected
  deriving DecidableEq

/-- An entry of `additional[]`; `sends` and `receives` stand for its direction. -/
structure TcpSock where
  active : Bool
  ssl : Option ℕ
  sslCtx : Option ℕ
  fd : Bool
  sends : Bool
  receives : Bool
  deriving DecidableEq

/-- `destroyed` lists the contexts passed to `ssl_destroy`, `stale` those that were read, written
or asked for pending data afterwards. -/
structure Shared where
  state : State
  ssl : Option ℕ
  sslCtx : Option ℕ
  fd : Bool
  sends : Bool
  receives : Bool
  additional : Fin maxSeConnections → TcpSock
  numAdditional : ℤ
  maxConnection : ℤ
  additionalConnecting : Bool
  additionalConnectSlot : Option (Fin maxSeConnections)
  writeMutex : Option ℕ
  connectMutex : Option ℕ
  readers : List ℕ
  writer : Option ℕ
  created : ℕ
  destroyed : List ℕ
  stale : List ℕ

/-- The locals of a call. `captured` holds the TLS pointers that it has read, `candidate` and
`doomed` are those of `take_ssl_ctx_slot` and its caller, `fresh` is a context that is in no slot
yet, `num` the value read for a change of the counter. `owes` and `closing` follow the counter: what
the call has yet to add to it, and that it is to be set to zero. -/
structure Regs where
  captured : SockId → Option ℕ
  candidate : Option ℕ
  doomed : Option ℕ
  fresh : Option ℕ
  num : Option ℤ
  owes : ℤ
  closing : Bool

inductive Act
  | lockWrite
  | unlockWrite
  | lockConnect
  | unlockConnect
  | readLock
  | readUnlock
  | writeLock
  | writeUnlock
  | capture (s : SockId)
  | forget (s : SockId)
  | use (s : SockId)
  | clearActive (i : Fin maxSeConnections)
  | closeActive (i : Fin maxSeConnections)
  | clearSsl (i : Fin maxSeConnections)
  | clearFd (s : SockId)
  | loadCtx (s : SockId)
  | claim (s : SockId)
  | clearCtx
  | destroy
  | loadNum
  | storeNum (δ : ℤ)
  | zeroNum
  | setState (state : State)
  | setConnecting (i : Fin maxSeConnections)
  | clearConnecting
  | launch (uses : ℕ) (sends receives : Bool)
  | join
  | create (i : Fin maxSeConnections)
  | destroyFresh
  | storeFd (i : Fin maxSeConnections)
  | storeCtx (i : Fin maxSeConnections)
  | storeSsl (i : Fin maxSeConnections)
  | storeDirection (i : Fin maxSeConnections) (sends receives : Bool)
  | storeActive (i : Fin maxSeConnections)
  deriving DecidableEq

namespace Shared

variable (c : Shared)

def sslOf : SockId → Option ℕ
  | none => c.ssl
  | some i => (c.additional i).ssl

/-- The field whose owner destroys the context: `conn->ssl` itself, or the `ssl_ctx` of a slot. -/
def ctxOf : SockId → Option ℕ
  | none => c.ssl
  | some i => (c.additional i).sslCtx

def update (i : Fin maxSeConnections) (f : TcpSock → TcpSock) : Shared :=
  { c with additional := Function.update c.additional i (f (c.additional i)) }

def clearCtxOf : SockId → Shared
  | none => { c with ssl := none }
  | some i => c.update i fun s => { s with sslCtx := none }

def clearFdOf : SockId → Shared
  | none => { c with fd := false }
  | some i => c.update i fun s => { s with fd := false }

def useCtx : Option ℕ → Shared
  | none => c
  | some p => if p ∈ c.destroyed then { c with stale := p :: c.stale } else c

def destroyCtx : Option ℕ → Shared
  | none => c
  | some p => { c with destroyed := p :: c.destroyed }

end Shared

/-- A field of the sockets after a change of slot `i`. -/
theorem Shared.update_field {β : Type*} {g g' : SockId → β} (v : TcpSock → β) (c : Shared)
    (i : Fin maxSeConnections) (f : TcpSock → TcpSock) (hprimary : g' none = g none)
    (hg : ∀ j, g (some j) = v (c.additional j))
    (hg' : ∀ j, g' (some j) = v ((c.update i f).additional j)) :
    g' = Function.update g (some i) (v (f (c.additional i))) := by
  funext s
  cases s with
  | none => exact hprimary
  | some j =>
    rw [hg']
    by_cases hij : j = i
    · rw [hij, Function.update_self]
      exact congrArg v (Function.update_self ..)
    · have hne : (some j : SockId) ≠ some i := fun h => hij (Option.some.inj h)
      rw [Function.update_of_ne hne, hg]
      exact congrArg v (Function.update_of_ne hij ..)

/-- One atomic step of thread `me`. -/
def perform (me : ℕ) (c : Shared) (r : Regs) : Act → Option (Shared × Regs)
  | .lockWrite => if c.writeMutex = none then some ({ c with writeMutex := some me }, r) else none
  | .unlockWrite => some ({ c with writeMutex := none }, r)
  | .lockConnect =>
    if c.connectMutex = none then some ({ c with connectMutex := some me }, r) else none
  | .unlockConnect => some ({ c with connectMutex := none }, r)
  | .readLock => if c.writer = none then some ({ c with readers := me :: c.readers }, r) else none
  | .readUnlock => some ({ c with readers := c.readers.erase me }, r)
  | .writeLock =>
    if c.writer = none ∧ c.readers = [] then some ({ c with writer := some me }, r) else none
  | .writeUnlock => some ({ c with writer := none }, r)
  | .capture s => some (c, { r with captured := Function.update r.captured s (c.sslOf s) })
  | .forget s => some (c, { r with captured := Function.update r.captured s none })
  | .use s => some (c.useCtx (r.captured s), r)
  | .clearActive i =>
    some (c.update i fun s => { s with active := false }, { r with owes := r.owes - 1 })
  | .closeActive i => some (c.update i fun s => { s with active := false }, { r with closing := true })
  | .clearSsl i => some (c.update i fun s => { s with ssl := none }, r)
  | .clearFd s => some (c.clearFdOf s, r)
  | .loadCtx s => some (c, { r with candidate := c.ctxOf s })
  | .claim s =>
    if r.candidate ≠ none ∧ c.ctxOf s = r.candidate then
      some (c.clearCtxOf s, { r with doomed := r.candidate })
    else some (c, { r with doomed := none })
  | .clearCtx => some ({ c with sslCtx := none }, r)
  | .destroy => some (c.destroyCtx r.doomed, { r with doomed := none })
  | .loadNum => some (c, { r with num := some c.numAdditional })
  | .storeNum δ =>
    some ({ c with numAdditional := r.num.getD 0 + δ }, { r with num := none, owes := r.owes - δ })
  | .zeroNum => some ({ c with numAdditional := 0 }, { r with closing := false })
  | .setState state => some ({ c with state := state }, r)
  | .setConnecting i =>
    some ({ c with additionalConnecting := true, additionalConnectSlot := some i }, r)
  | .clearConnecting => some ({ c with additionalConnecting := false }, r)
  | .launch _ _ _ => some (c, r)
  | .join => if c.additionalConnecting then none else some (c, r)
  | .create i =>
    some ({ c with created := c.created + 1 },
      { r with
        fresh := some c.created
        captured := Function.update r.captured (some i) (some c.created) })
  | .destroyFresh => some (c.destroyCtx r.fresh, { r with fresh := none })
  | .storeFd i => some (c.update i fun s => { s with fd := true }, r)
  | .storeCtx i => some (c.update i fun s => { s with sslCtx := r.fresh }, { r with fresh := none })
  | .storeSsl i => some (c.update i fun s => { s with ssl := r.captured (some i) }, r)
  | .storeDirection i sends receives =>
    some (c.update i fun s => { s with sends := sends, receives := receives }, r)
  | .storeActive i =>
    some (c.update i fun s => { s with active := true }, { r with owes := r.owes + 1 })

/-- What a program asks: the environment, whether a captured pointer is still the one in its
field, or anything else about the fields and the locals. -/
inductive Test
  | choose
  | current (s : SockId)
  | holds (f : Shared → Regs → Bool)

def answer (c : Shared) (r : Regs) (outcome : Bool) : Test → Bool
  | .choose => outcome
  | .current s => r.captured s = c.sslOf s
  | .holds f => f c r

abbrev Program := Prog Act Test

/-! ## Parts of the calls -/

namespace Program

def ask (f : Shared → Regs → Bool) (yes no : Program) : Program := .test (.holds f) yes no

def choose (yes no : Program) : Program := .test .choose yes no

/-- `take_ssl_ctx_slot`. -/
def takeSslCtxSlot (s : SockId) (next : Program) : Program := .act (.loadCtx s) (.act (.claim s) next)

/-- The end of a socket's life in `softether_transmit_block_nolock`,
`CLOSE_FAILED_ADDITIONAL_SOCKET` and `softether_maintain_links`. -/
def retire (i : Fin maxSeConnections) (next : Program) : Program :=
  .act (.clearActive i) (.act (.clearSsl i) (.act (.clearFd (some i)) (takeSslCtxSlot (some i)
    (.act .destroy (.act .loadNum (.act (.storeNum (-1)) next))))))

def uses (s : SockId) : ℕ → Program → Program
  | 0, next => next
  | n + 1, next => .act (.use s) (uses s n next)

def opened (c : Shared) (_ : Regs) : Bool := c.state = .connected

def notDisconnecting (c : Shared) (_ : Regs) : Bool := c.state ≠ .disconnecting

def hasSsl (c : Shared) (_ : Regs) : Bool := c.ssl.isSome

def hasFd (c : Shared) (_ : Regs) : Bool := c.fd

def active (i : Fin maxSeConnections) (c : Shared) (_ : Regs) : Bool := (c.additional i).active

def slotSsl (i : Fin maxSeConnections) (c : Shared) (_ : Regs) : Bool := (c.additional i).ssl.isSome

def slotFd (i : Fin maxSeConnections) (c : Shared) (_ : Regs) : Bool := (c.additional i).fd

def slotSends (i : Fin maxSeConnections) (c : Shared) (_ : Regs) : Bool := (c.additional i).sends

def slotReceives (i : Fin maxSeConnections) (c : Shared) (_ : Regs) : Bool :=
  (c.additional i).receives

def captured (s : SockId) (_ : Shared) (r : Regs) : Bool := (r.captured s).isSome

def slots : List (Fin maxSeConnections) := List.finRange maxSeConnections

section Data

variable (tls : Bool)

/-- `data_write_all_sock` with `n` calls of `ssl_write`. -/
def dataWriteAllSock (s : SockId) (n : ℕ) (ok fail : Program) : Program :=
  if tls then uses s n (choose ok fail) else choose ok fail

/-- `data_write_all`: the context is read again for every call. -/
def dataWriteAll : ℕ → Program → Program → Program
  | 0, ok, fail => choose ok fail
  | n + 1, ok, fail =>
    if tls then
      ask opened (.act (.capture none) (.act (.use none) (dataWriteAll n ok fail))) fail
    else choose ok fail

/-- `data_read_all_sock`. -/
def dataReadAllSock (s : SockId) (n : ℕ) (ok fail : Program) : Program :=
  if tls then
    .act .lockWrite (uses s n (choose (.act .unlockWrite ok) (.act .unlockWrite fail)))
  else choose ok fail

/-- `softether_send_keepalive_sock` with the pointer that the caller has read. -/
def softetherSendKeepaliveSock (s : SockId) (n : ℕ) (next : Program) : Program :=
  ask (captured s)
    (ask opened
      (.act .lockWrite (dataWriteAllSock tls s n (.act .unlockWrite next) (.act .unlockWrite next)))
      next)
    next

/-- `softether_send_keepalive`. -/
def softetherSendKeepalive (n : ℕ) (next : Program) : Program :=
  ask hasSsl (.act (.capture none) (softetherSendKeepaliveSock tls none n next)) next

def keepaliveLoop (n : ℕ) : List (Fin maxSeConnections) → Program → Program
  | [], next => next
  | i :: is, next =>
    let skip := keepaliveLoop n is next
    ask (active i)
      (ask (slotSends i)
        (.act (.capture (some i))
          (ask (slotFd i)
            (ask (active i) (softetherSendKeepaliveSock tls (some i) n skip) skip)
            skip))
        skip)
      skip

/-- `softether_send_keepalive_all`. -/
def softetherSendKeepaliveAll (n : ℕ) (next : Program) : Program :=
  let rest := keepaliveLoop tls n slots next
  ask hasSsl
    (ask opened
      (choose
        (ask hasFd
          (ask hasSsl
            (ask (fun c _ => c.sends)
              (.act (.capture none) (softetherSendKeepaliveSock tls none n rest))
              rest)
            rest)
          rest)
        next)
      next)
    next

/-- The loop of `softether_transmit_block_nolock` over its candidates. -/
def transmitLoop (n : ℕ) (exit : Program) : List SockId → Program
  | [] => exit
  | none :: ss =>
    let next := transmitLoop n exit ss
    ask hasSsl (ask hasFd (dataWriteAll tls n exit next) next) next
  | some i :: ss =>
    let next := transmitLoop n exit ss
    ask (active i)
      (ask (slotSsl i)
        (ask (slotFd i)
          (.act (.capture (some i)) (dataWriteAllSock tls (some i) n exit (retire i next)))
          next)
        next)
      next

/-! ## The receive path -/

def captureLoop : List (Fin maxSeConnections) → Program → Program
  | [], next => next
  | i :: is, next =>
    let skip := .act (.forget (some i)) (captureLoop is next)
    ask (active i)
      (ask (slotFd i)
        (ask (slotReceives i)
          (.act (.capture (some i))
            (ask (slotFd i)
              (ask (active i)
                (ask (captured (some i)) (captureLoop is next) skip)
                skip)
              skip))
          skip)
        skip)
      skip

/-- The pointers of the sockets that may be received from. -/
def captureAll (next : Program) : Program :=
  let rest := captureLoop slots next
  ask hasFd
    (ask (fun c _ => c.receives) (.act (.capture none) rest) (.act (.forget none) rest))
    (.act (.forget none) rest)

/-- The checks after the poll. -/
def revalidate (s : SockId) (next exit : Program) : Program :=
  ask (captured s)
    (match s with
      | none => .test (.current none) (ask hasFd (ask notDisconnecting next exit) exit) exit
      | some i =>
        ask (active i) (.test (.current (some i)) (ask notDisconnecting next exit) exit) exit)
    exit

/-- `CLOSE_FAILED_ADDITIONAL_SOCKET`. -/
def closeFailedAdditionalSocket (s : SockId) (exit : Program) : Program :=
  match s with
  | none => exit
  | some i => retire i exit

/-- The reads of one message, with the number of `ssl_read` calls of each. -/
def readLoop (s : SockId) (n : ℕ) (exit : Program) : List ℕ → Program
  | [] => choose (softetherSendKeepalive tls n exit) exit
  | k :: ks =>
    dataReadAllSock tls s k (choose (readLoop s n exit ks) exit) (closeFailedAdditionalSocket s exit)

def sockets : List SockId := none :: slots.map some

/-- The search for a socket with data in its TLS buffer. -/
def pendingLoop (read : SockId → Program) : List SockId → Program → Program
  | [], next => next
  | s :: ss, next => .act (.use s) (choose (read s) (pendingLoop read ss next))

/-- The search for a socket with data after the poll. -/
def selectLoop (read : SockId → Program) : List SockId → Program → Program
  | [], exit => exit
  | s :: ss, exit => choose (read s) (selectLoop read ss exit)

/-- `softether_fill_recv_queue`. -/
def softetherFillRecvQueue (n : ℕ) (calls : List ℕ) : Program :=
  let exit : Program := .act .readUnlock .done
  let read := fun s => revalidate s (readLoop tls s n exit calls) exit
  let poll := choose (ask notDisconnecting (choose (selectLoop read sockets exit) exit) exit) exit
  .act .readLock
    (ask hasSsl
      (ask opened
        (choose
          (captureAll
            (ask notDisconnecting (if tls then pendingLoop read sockets poll else poll) exit))
          exit)
        exit)
      exit)

/-! ## The other calls -/

/-- `softether_send` when its packet goes out on TCP. -/
def softetherSend (n : ℕ) (candidates : List SockId) : Program :=
  let exit : Program := .act .unlockWrite .done
  ask opened
    (.act .lockWrite
      (ask notDisconnecting (ask hasSsl (transmitLoop tls n exit candidates) exit) exit))
    .done

/-- `softether_send_packet` with the socket that is selected. -/
def softetherSendPacket (n : ℕ) (s : SockId) : Program :=
  let exit : Program := .act .unlockWrite .done
  ask opened
    (.act .lockWrite
      (ask notDisconnecting
        (ask hasSsl
          (match s with
            | none => dataWriteAll tls n exit exit
            | some i =>
              .act (.capture (some i))
                (ask (active i)
                  (ask (captured (some i)) (dataWriteAllSock tls (some i) n exit exit) exit)
                  exit))
          exit)
        exit))
    .done

/-- The start of an additional connect in `softether_maintain_links`. -/
def launchLoop (uses : ℕ) (sends receives : Bool) (next : Program) :
    List (Fin maxSeConnections) → Program
  | [] => next
  | i :: is =>
    ask (active i) (launchLoop uses sends receives next is)
      (.act (.setConnecting i)
        (choose (.act (.launch uses sends receives) next) (.act .clearConnecting next)))

/-- The clean-up of failed sockets in `softether_maintain_links`. -/
def cleanupLoop (next : Program) : List (Fin maxSeConnections) → Program
  | [] => next
  | i :: is =>
    let skip := cleanupLoop next is
    ask (active i)
      (ask (fun c _ => c.additionalConnecting && c.additionalConnectSlot = some i) skip
        (choose (retire i skip) skip))
      skip

/-- `softether_maintain_links`. -/
def softetherMaintainLinks (n uses : ℕ) (sends receives : Bool) : Program :=
  let cleanup := cleanupLoop .done slots
  softetherSendKeepaliveAll tls n
    (ask (fun c _ => c.numAdditional < c.maxConnection - 1)
      (ask (fun c _ => !c.additionalConnecting)
        (choose (launchLoop uses sends receives cleanup slots) cleanup)
        cleanup)
      cleanup)

end Data

/-- Step 5 of `softether_additional_connect` and the steps before it, in the slot that was found
free. -/
def connectIn (n : ℕ) (sends receives : Bool) (next : Program) (i : Fin maxSeConnections) :
    Program :=
  choose
    (.act (.create i)
      (uses (some i) n
        (choose
          (.act (.storeFd i) (.act (.storeCtx i) (.act (.storeSsl i)
            (.act (.storeDirection i sends receives) (.act (.storeActive i)
              (.act .loadNum (.act (.storeNum 1) next)))))))
          (.act .destroyFresh next))))
    next

def connectLoop (n : ℕ) (sends receives : Bool) (next : Program) :
    List (Fin maxSeConnections) → Program
  | [] => next
  | i :: is => ask (active i) (connectLoop n sends receives next is) (connectIn n sends receives next i)

/-- `additional_connect_thread_routine`. -/
def additionalConnectThreadRoutine (n : ℕ) (sends receives : Bool) : Program :=
  let next : Program := .act .clearConnecting .done
  ask opened (connectLoop n sends receives next slots) next

def joinConnect (next : Program) : Program :=
  ask (fun c _ => c.additionalConnecting) (.act .join next) next

def closeLoop (next : Program) : List (Fin maxSeConnections) → Program
  | [] => next
  | i :: is =>
    let rest := closeLoop next is
    ask (active i) (.act (.closeActive i) (.act (.clearSsl i) (.act (.clearFd (some i)) rest))) rest

def destroyLoop (next : Program) : List (Fin maxSeConnections) → Program
  | [] => next
  | i :: is => takeSslCtxSlot (some i) (.act .destroy (destroyLoop next is))

/-- `softether_close_additional`. -/
def softetherCloseAdditional (next : Program) : Program :=
  joinConnect (closeLoop (destroyLoop (.act .zeroNum next) slots) slots)

/-- The end of the primary context in `softether_disconnect`. -/
def destroyPrimary (next : Program) : Program :=
  .act (.loadCtx none)
    (ask (fun _ r => r.candidate.isSome)
      (ask (fun c _ => c.sslCtx.isSome)
        (.act (.claim none)
          (ask (fun _ r => r.doomed.isSome)
            (ask (fun c r => c.sslCtx = r.candidate)
              (.act .clearCtx (.act .destroy next))
              (.act .destroy next))
            next))
        next)
      next)

/-- The part of `softether_disconnect` under the locks of the contexts. -/
def teardown : Program :=
  .act .writeLock (.act .lockWrite (softetherCloseAdditional (destroyPrimary
    (.act .unlockWrite (.act .writeUnlock
      (.act (.setState .disconnected) (.act .unlockConnect .done)))))))

/-- `softether_disconnect`, up to the transports. -/
def softetherDisconnect : Program :=
  .act .lockConnect
    (ask opened
      (.act (.setState .disconnecting)
        (joinConnect (ask hasFd (.act (.clearFd none) teardown) teardown)))
      (.act .unlockConnect .done))

end Program

inductive Call
  | fillRecvQueue (n : ℕ) (calls : List ℕ)
  | maintainLinks (n uses : ℕ) (sends receives : Bool)
  | send (n : ℕ) (candidates : List SockId)
  | sendPacket (n : ℕ) (s : SockId)
  | keepalive (n : ℕ)
  | disconnect
  | additionalConnect (n : ℕ) (sends receives : Bool)

/-- A session whose data goes through TLS or over plain TCP. -/
def session (tls : Bool) : Machine Shared Regs Act Test Call where
  program
    | .fillRecvQueue n calls => Program.softetherFillRecvQueue tls n calls
    | .maintainLinks n uses sends receives =>
      Program.softetherMaintainLinks tls n uses sends receives
    | .send n candidates => Program.softetherSend tls n candidates
    | .sendPacket n s => Program.softetherSendPacket tls n s
    | .keepalive n => Program.softetherSendKeepalive tls n .done
    | .disconnect => Program.softetherDisconnect
    | .additionalConnect n sends receives =>
      Program.additionalConnectThreadRoutine n sends receives
  exec := perform
  eval := answer
  spawned
    | .launch n sends receives => [.additionalConnect n sends receives]
    | _ => []
  fresh := ⟨fun _ => none, none, none, none, none, 0, false⟩

abbrev Threads := Pool Shared (Running Regs Act Test)

/-- A session that has just connected, with `n` idle threads. -/
def start (sends receives : Bool) (maxConnection : ℤ) (n : ℕ) : Threads where
  shared := ⟨.connected, some 0, some 0, true, sends, receives,
    fun _ => ⟨false, none, none, false, false, false⟩, 0, maxConnection, false, none,
    none, none, [], none, 1, [], []⟩
  threads := List.replicate n (some ⟨.done, (session true).fresh⟩)

theorem start_at {sends receives : Bool} {maxConnection : ℤ} {n i : ℕ} {t : Running Regs Act Test}
    (h : (start sends receives maxConnection n).At i t) : t = ⟨.done, (session true).fresh⟩ := by
  have hmem : some t ∈ List.replicate n (some ⟨.done, (session true).fresh⟩) :=
    List.mem_of_getElem? h
  exact Option.some.inj (List.mem_replicate.mp hmem).2

def steps (i n : ℕ) (outcome : Bool) : List (ℕ × Move Call) := List.replicate n (i, .run outcome)

/-- The receive thread starts an additional connect, which opens socket 0. -/
def openSocket : List (ℕ × Move Call) :=
  [(0, .call (.maintainLinks 0 0 true true))] ++ steps 0 2 true ++ steps 0 1 false ++
    steps 0 15 true ++ steps 2 13 true

/-- It finds data on the socket and checks that the socket is still there. -/
def validateSocket : List (ℕ × Move Call) :=
  [(0, .call (.fillRecvQueue 0 [1]))] ++ steps 0 30 true ++ steps 0 1 false ++ steps 0 6 true

/-- It reads, fails and retires the socket. -/
def failRead : List (ℕ × Move Call) := steps 0 2 true ++ steps 0 1 false ++ steps 0 10 true

/-- The sending thread fails on the socket and retires it. -/
def failWrite : List (ℕ × Move Call) :=
  [(1, .call (.send 1 [some ⟨0, maxSeConnections_pos⟩]))] ++ steps 1 9 true ++ steps 1 1 false ++ steps 1 9 true

/-- The sending thread retires the socket after the check and before the read. -/
def failoverRace : List (ℕ × Move Call) := openSocket ++ validateSocket ++ failWrite ++ failRead

end SoftEtherVpn.Multi

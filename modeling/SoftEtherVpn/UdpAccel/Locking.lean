import SoftEtherVpn.UdpAccel.Reception

/-!
# The lock of the context

Each operation takes the recursive lock of the context for its body. `rudp_poll` takes it a second
time when it sends a keepalive. `rudp_recv` has a return that does not give the lock back: from
then on the thread holds it, and every other thread waits.
-/

namespace SoftEtherVpn.UdpAccel

open Foundation Rudp

/-- A recursive mutex: free, or held by a thread that has locked it `n + 1` times. -/
abbrev Lock (T : Type) := Option (T × ℕ)

namespace Lock

variable {T : Type} [DecidableEq T]

/-- `pthread_mutex_lock`; without a result the thread waits. -/
def acquire (th : T) : Lock T → Option (Lock T)
  | none => some (some (th, 0))
  | some (owner, n) => if owner = th then some (some (th, n + 1)) else none

/-- `pthread_mutex_unlock` by the owner. -/
def release (th : T) : Lock T → Option (Lock T)
  | none => none
  | some (owner, 0) => if owner = th then some none else none
  | some (owner, n + 1) => if owner = th then some (some (owner, n)) else none

/-- How often the thread has locked the mutex. -/
def depth (th : T) : Lock T → ℕ
  | none => 0
  | some (owner, n) => if owner = th then n + 1 else 0

theorem release_acquire {th : T} {l l' : Lock T} (h : l.acquire th = some l') :
    l'.release th = some l ∧ l'.depth th = l.depth th + 1 ∧ l' ≠ none := by
  cases l with
  | none =>
    cases h
    simp [release, depth]
  | some held =>
    obtain ⟨owner, n⟩ := held
    simp only [acquire] at h
    split_ifs at h with howner
    subst howner
    cases h
    simp [release, depth]

/-- A thread that holds the lock can take it again. -/
theorem acquire_again {th : T} {l l' : Lock T} (h : l.acquire th = some l') :
    ∃ l'', l'.acquire th = some l'' := by
  cases l with
  | none =>
    cases h
    simp [acquire]
  | some held =>
    obtain ⟨owner, n⟩ := held
    simp only [acquire] at h
    split_ifs at h with howner
    cases h
    simp [acquire]

end Lock

section Operations

variable {T : Type} [DecidableEq T] (lib : Libs) (th : T)

/-- The lock, a body, and the unlock. -/
def underLock {α : Type} (body : RudpContext → RudpContext × α) (s : RudpContext × Lock T) :
    Option ((RudpContext × Lock T) × α) := do
  let l ← s.2.acquire th
  let r := body s.1
  let l ← l.release th
  some ((r.1, l), r.2)

/-- `rudp_send` behind its guard. -/
def sendLocked (inp : SendInput) (data : Bytes) (flag : UInt8) (s : RudpContext × Lock T) :
    Option ((RudpContext × Lock T) × ℤ) :=
  underLock th (fun ctx =>
    let out := rudpSendNolock lib inp data flag ctx
    (out.ctx, out.ret)) s

/-- `rudp_send_keepalive`, with the guard of `rudp_send`. -/
def rudpSendKeepaliveLocked (inp : SendInput) (s : RudpContext × Lock T) :
    Option ((RudpContext × Lock T) × ℤ) :=
  if s.1.inited = false ∨ s.1.peerAddrSet = false then some (s, -1)
  else sendLocked lib th inp [] 0 s

/-- `rudp_is_send_ready` behind its guard. -/
def readyLocked (checkKeepalive : Bool) (s : RudpContext × Lock T) :
    Option ((RudpContext × Lock T) × Bool) :=
  underLock th (fun ctx =>
    let r := rudpIsSendReadyNolock checkKeepalive (ctx.record (.evaluated ctx.now ctx.lastRecvTick))
    (r.1.record (.answered r.1.now r.2), r.2)) s

/-- The keep-alive of `rudp_poll_nolock`, which takes the lock again. -/
def pollKeepaliveLocked (inp : PollInput) (s : RudpContext × Lock T) :
    Option (RudpContext × Lock T) :=
  if s.1.nextSendKeepalive = 0 ∨ s.1.nextSendKeepalive ≤ s.1.now then do
    let s ← if s.1.peerAddrSet then
        (rudpSendKeepaliveLocked lib th inp.keepalive s).map Prod.fst
      else some s
    let (kaMin, kaMax) :=
      if s.1.fastDetect then (kaIntervalMinFast, kaIntervalMaxFast)
      else (kaIntervalMin, kaIntervalMax)
    some ({ s.1 with
      nextSendKeepalive := wrap64 (s.1.now + (kaMin + inp.rand % (kaMax - kaMin))) }, s.2)
  else some s

/-- `rudp_poll` behind its guard. -/
def pollLocked (inp : PollInput) (s : RudpContext × Lock T) : Option (RudpContext × Lock T) := do
  let l ← s.2.acquire th
  let ctx := s.1.readClock inp.clock
  let ctx := pollTimeout (ctx.record (.polled ctx.now ctx.lastRecvTick))
  let s ← pollKeepaliveLocked lib th inp (ctx, l)
  let ctx := recvLoop lib inp.datagrams s.1
  let l ← s.2.release th
  some (ctx, l)

/-- `rudp_recv`. A block that does not fit the buffer is answered without the unlock. -/
def recvLocked (maxLen : ℕ) (s : RudpContext × Lock T) :
    Option ((RudpContext × Lock T) × Option Bytes) := do
  let l ← s.2.acquire th
  match s.1.recvQueue with
  | [] => do
    let l ← l.release th
    some ((s.1, l), none)
  | block :: rest =>
    if block.length > maxLen then some ((s.1, l), none)
    else do
      let l ← l.release th
      some (({ s.1 with recvQueue := rest }, l), some block)

/-- The part of a call that needs the lock. -/
def callLocked (s : RudpContext × Lock T) : Call → Option (RudpContext × Lock T)
  | .poll inp => pollLocked lib th inp s
  | .send inp data flag => (sendLocked lib th inp data flag s).map Prod.fst
  | .ready check => (readyLocked th check s).map Prod.fst
  | .recv maxLen => (recvLocked th maxLen s).map Prod.fst

/-- The guard of a call, which is checked without the lock. -/
def Call.Enters (ctx : RudpContext) : Call → Prop
  | .poll _ => ctx.inited = true
  | .send _ _ _ => ctx.inited = true ∧ ctx.peerAddrSet = true
  | .ready _ => ctx.inited = true ∧ ctx.peerAddrSet = true
  | .recv _ => True

instance (ctx : RudpContext) : ∀ c : Call, Decidable (c.Enters ctx)
  | .poll _ => inferInstanceAs (Decidable (_ = _))
  | .send _ _ _ => inferInstanceAs (Decidable (_ ∧ _))
  | .ready _ => inferInstanceAs (Decidable (_ ∧ _))
  | .recv _ => inferInstanceAs (Decidable True)

/-- The block at the front of the queue fits the buffer of a receive. -/
def Call.Fits (ctx : RudpContext) : Call → Prop
  | .recv maxLen => ∀ block ∈ ctx.recvQueue.head?, block.length ≤ maxLen
  | _ => True

instance (ctx : RudpContext) : ∀ c : Call, Decidable (c.Fits ctx)
  | .poll _ => inferInstanceAs (Decidable True)
  | .send _ _ _ => inferInstanceAs (Decidable True)
  | .ready _ => inferInstanceAs (Decidable True)
  | .recv _ => inferInstanceAs (Decidable (∀ block ∈ _, _ ≤ _))

end Operations

/-!
## What a call does to the lock
-/

section Calls

variable {T : Type} [DecidableEq T] {lib : Libs} {th : T} {s : RudpContext × Lock T} {l : Lock T}

theorem underLock_eq {α : Type} (body : RudpContext → RudpContext × α)
    (h : s.2.acquire th = some l) :
    underLock th body s = some (((body s.1).1, s.2), (body s.1).2) := by
  simp [underLock, h, (Lock.release_acquire h).1]

theorem pollKeepaliveLocked_eq (inp : PollInput) (ctx : RudpContext) {l' : Lock T}
    (h : l.acquire th = some l') :
    pollKeepaliveLocked lib th inp (ctx, l) = some (pollKeepalive lib inp ctx, l) := by
  have hsend : ∀ c : RudpContext, (rudpSendKeepaliveLocked lib th inp.keepalive (c, l)).map Prod.fst =
      some ((rudpSend lib inp.keepalive [] 0 c).ctx, l) := by
    intro c
    unfold rudpSendKeepaliveLocked rudpSend
    split_ifs
    · rfl
    · rw [sendLocked, underLock_eq _ h]
      rfl
  unfold pollKeepaliveLocked pollKeepalive
  dsimp only
  by_cases hdue : ctx.nextSendKeepalive = 0 ∨ ctx.nextSendKeepalive ≤ ctx.now
  · rw [if_pos hdue, if_pos hdue]
    by_cases hset : ctx.peerAddrSet = true
    · simp only [hset, if_true, hsend]
      rfl
    · simp only [hset]
      rfl
  · rw [if_neg hdue, if_neg hdue]

theorem pollLocked_eq (lib : Libs) (inp : PollInput) (h : s.2.acquire th = some l) :
    pollLocked lib th inp s =
      some (recvLoop lib inp.datagrams (pollStart lib inp s.1), s.2) := by
  obtain ⟨l', hagain⟩ := Lock.acquire_again h
  have hkeepalive : pollKeepaliveLocked lib th inp (pollTimeout
      ((s.1.readClock inp.clock).record (.polled (tick64 inp.clock) s.1.lastRecvTick)), l) =
        some (pollStart lib inp s.1, l) := pollKeepaliveLocked_eq inp _ hagain
  have hrelease := (Lock.release_acquire h).1
  unfold pollLocked
  rw [h]
  simp only [Option.bind_eq_bind, Option.bind_some]
  exact (congrArg (Option.bind · _) hkeepalive).trans (by simp [hrelease])

theorem recvLocked_eq (maxLen : ℕ) (h : s.2.acquire th = some l) :
    recvLocked th maxLen s =
      some (((rudpRecv maxLen s.1).1, if (Call.recv maxLen).Fits s.1 then s.2 else l),
        (rudpRecv maxLen s.1).2) := by
  have hrelease := (Lock.release_acquire h).1
  unfold recvLocked rudpRecv
  rw [h]
  simp only [Option.bind_eq_bind, Option.bind_some]
  cases hqueue : s.1.recvQueue with
  | nil =>
    have hfits : (Call.recv maxLen).Fits s.1 := by simp [Call.Fits, hqueue]
    simp [hrelease, hfits]
  | cons block rest =>
    by_cases hlong : block.length > maxLen
    · have hfits : ¬(Call.recv maxLen).Fits s.1 := by simp [Call.Fits, hqueue, hlong]
      simp [hlong, hfits]
    · have hfits : (Call.recv maxLen).Fits s.1 := by
        simpa [Call.Fits, hqueue] using hlong
      simp [hlong, hrelease, hfits]

/-- A call that gets the lock does its work on the context, and gives the lock back unless it is a
receive into too small a buffer. -/
theorem callLocked_eq (lib : Libs) (c : Call) (h : s.2.acquire th = some l) :
    ∃ ctx, callLocked lib th s c = some (ctx, if c.Fits s.1 then s.2 else l) ∧
      (c.Enters s.1 → ctx = call lib s.1 c) := by
  cases c with
  | poll inp =>
    have hfits : (Call.poll inp).Fits s.1 := trivial
    refine ⟨_, (pollLocked_eq lib inp h).trans (by rw [if_pos hfits]), ?_⟩
    intro henters
    exact (rudpPoll_eq inp henters).symm
  | send inp data flag =>
    have hfits : (Call.send inp data flag).Fits s.1 := trivial
    rw [if_pos hfits]
    refine ⟨_, congrArg (Option.map Prod.fst) (underLock_eq _ h), ?_⟩
    rintro ⟨hinit, hset⟩
    simp [call, rudpSend, hinit, hset]
  | ready check =>
    have hfits : (Call.ready check).Fits s.1 := trivial
    rw [if_pos hfits]
    refine ⟨_, congrArg (Option.map Prod.fst) (underLock_eq _ h), ?_⟩
    rintro ⟨hinit, hset⟩
    simp [call, rudpIsSendReady, hinit, hset]
  | recv maxLen =>
    refine ⟨_, congrArg (Option.map Prod.fst) (recvLocked_eq maxLen h), ?_⟩
    intro _
    rfl

theorem callLocked_eq_none (lib : Libs) (c : Call) (h : s.2.acquire th = none) :
    callLocked lib th s c = none := by
  cases c <;>
    simp [callLocked, pollLocked, sendLocked, readyLocked, recvLocked, underLock, h]

theorem callLocked_lock {c : Call} {s' : RudpContext × Lock T}
    (h : callLocked lib th s c = some s') :
    (s'.2.depth th = s.2.depth th ↔ c.Fits s.1) ∧ (s'.2 = none ↔ s.2 = none ∧ c.Fits s.1) := by
  cases hacquire : s.2.acquire th with
  | none =>
    rw [callLocked_eq_none lib c hacquire] at h
    cases h
  | some l =>
    obtain ⟨ctx, heq, -⟩ := callLocked_eq lib c hacquire
    obtain rfl := Option.some.inj (heq.symm.trans h)
    obtain ⟨-, hdepth, hheld⟩ := Lock.release_acquire hacquire
    by_cases hfits : c.Fits s.1
    · simp [hfits]
    · simp [hfits, hdepth, hheld]

end Calls

/-!
## Threads
-/

/-- The context between its threads, with the calls that wait for the lock. -/
structure SharedContext (T : Type) where
  ctx : RudpContext
  lock : Lock T
  waiting : T → Option Call

/-- A thread enters a call, or gets the lock and goes on to the end of its call. -/
inductive LockEvent (T : Type)
  | enter (th : T) (c : Call)
  | proceed (th : T)

section Threads

variable {T : Type} [DecidableEq T] {lib : Libs} {s t : SharedContext T}

def lockStep (lib : Libs) (s : SharedContext T) : LockEvent T → Option (SharedContext T)
  | .enter th c =>
    if s.waiting th ≠ none then none
    else if c.Enters s.ctx then some { s with waiting := Function.update s.waiting th (some c) }
    else some s
  | .proceed th => do
    let c ← s.waiting th
    let r ← callLocked lib th (s.ctx, s.lock) c
    some ⟨r.1, r.2, Function.update s.waiting th none⟩

/-- The call that goes on is not a receive into too small a buffer. -/
def EventFits (s : SharedContext T) : LockEvent T → Prop
  | .enter _ _ => True
  | .proceed th => ∀ c, s.waiting th = some c → c.Fits s.ctx

instance (s : SharedContext T) : ∀ e : LockEvent T, Decidable (EventFits s e)
  | .enter _ _ => inferInstanceAs (Decidable True)
  | .proceed th => inferInstanceAs (Decidable (∀ c ∈ s.waiting th, c.Fits s.ctx))

def fresh (T : Type) (ctx : RudpContext) : SharedContext T := ⟨ctx, none, fun _ => none⟩

theorem lockStep_lock {e : LockEvent T} (h : lockStep lib s e = some t) :
    t.lock = none ↔ s.lock = none ∧ EventFits s e := by
  cases e with
  | enter th c =>
    simp only [lockStep] at h
    split_ifs at h <;> cases h <;> simp [EventFits]
  | proceed th =>
    simp only [lockStep, Option.bind_eq_bind] at h
    obtain ⟨c, hc, h⟩ := Option.bind_eq_some_iff.mp h
    obtain ⟨r, hr, h⟩ := Option.bind_eq_some_iff.mp h
    cases h
    have hlock := (callLocked_lock hr).2
    simpa [EventFits, hc] using hlock

theorem proceed_of_free (lib : Libs) (hfree : s.lock = none) {th : T} {c : Call}
    (hc : s.waiting th = some c) : ∃ t, lockStep lib s (.proceed th) = some t := by
  have hacquire : Lock.acquire th s.lock = some (some (th, 0)) := by
    rw [hfree]
    rfl
  obtain ⟨ctx, heq, -⟩ := callLocked_eq (s := (s.ctx, s.lock)) lib c hacquire
  simp [lockStep, hc, heq]

end Threads

/-- Every call returns with the caller's lock depth unchanged exactly when it is not a receive into
too small a buffer; after any interleaving of calls the lock is free exactly when none of them was,
and while it is free every waiting call can go on. -/
theorem lock_released_iff {T : Type} [DecidableEq T] (lib : Libs) :
    (∀ (th : T) (c : Call) (s s' : RudpContext × Lock T), callLocked lib th s c = some s' →
      (s'.2.depth th = s.2.depth th ↔ c.Fits s.1)) ∧
    ∀ (ctx : RudpContext) (events : List (LockEvent T)) (s : SharedContext T),
      exec (lockStep lib) (fresh T ctx) events = some s →
        (s.lock = none ↔ Along (lockStep lib) EventFits (fresh T ctx) events) ∧
        (s.lock = none → ∀ th c, s.waiting th = some c →
          ∃ t, lockStep lib s (.proceed th) = some t) := by
  refine ⟨fun th c s s' h => (callLocked_lock h).1, ?_⟩
  intro ctx events s hrun
  have hiff := exec_iff_along (I := fun _ => True) (P := fun s : SharedContext T => s.lock = none)
    (fun _ _ _ _ _ => trivial) (fun _ _ _ _ hstep => lockStep_lock hstep) trivial hrun
  refine ⟨hiff.trans ?_, fun hfree th c hc => proceed_of_free lib hfree hc⟩
  simp [fresh]

/-- One thread polls a block of one byte and reads it into a buffer of the given size, while the
other one asks for readiness. -/
def pollRecvReady (maxLen : ℕ) : List (LockEvent Bool) :=
  [.enter false (pollAt 1 firstSecond [((rudpSend Libs.plain ⟨clockAt 1 firstSecond, 0, true⟩
      [5] 0 (rudpInit sampleServer)).sent).getD []]),
    .proceed false, .enter false (.recv maxLen), .enter true (.ready false), .proceed false]

theorem fittingRecv_releases :
    ∃ s t, exec (lockStep Libs.plain) (fresh Bool (rudpInit sampleClient)) (pollRecvReady 1) =
        some s ∧
      s.lock = none ∧ s.waiting true ≠ none ∧ lockStep Libs.plain s (.proceed true) = some t := by
  have hrun : ∃ s ∈ exec (lockStep Libs.plain) (fresh Bool (rudpInit sampleClient))
      (pollRecvReady 1), (s.waiting true).isSome ∧
        Along (lockStep Libs.plain) EventFits (fresh Bool (rudpInit sampleClient))
          (pollRecvReady 1) := by
    decide +kernel
  obtain ⟨s, hs, hwaiting, hfits⟩ := hrun
  obtain ⟨hiff, hproceed⟩ := (lock_released_iff Libs.plain).2 _ _ _ hs
  obtain ⟨c, hc⟩ := Option.isSome_iff_exists.mp hwaiting
  obtain ⟨t, ht⟩ := hproceed (hiff.mpr hfits) true c hc
  exact ⟨s, t, hs, hiff.mpr hfits, by simp [hc], ht⟩

/-- A receive into an empty buffer returns with the lock, and the other thread waits. -/
theorem shortRecv_keeps_lock :
    ∃ s, exec (lockStep Libs.plain) (fresh Bool (rudpInit sampleClient)) (pollRecvReady 0) =
        some s ∧
      s.waiting false = none ∧ Lock.depth false s.lock = 1 ∧ s.waiting true ≠ none ∧
      lockStep Libs.plain s (.proceed true) = none := by
  have hrun : ∃ s ∈ exec (lockStep Libs.plain) (fresh Bool (rudpInit sampleClient))
      (pollRecvReady 0), (s.waiting false).isNone ∧ Lock.depth false s.lock = 1 ∧
        (s.waiting true).isSome ∧ (lockStep Libs.plain s (.proceed true)).isNone := by
    decide +kernel
  obtain ⟨s, hs, hreturned, hdepth, hwaiting, hstuck⟩ := hrun
  exact ⟨s, hs, Option.isNone_iff_eq_none.mp hreturned, hdepth, Option.isSome_iff_ne_none.mp hwaiting,
    Option.isNone_iff_eq_none.mp hstuck⟩

end SoftEtherVpn.UdpAccel

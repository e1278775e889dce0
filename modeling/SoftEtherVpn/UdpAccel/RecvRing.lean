import SoftEtherVpn.UdpAccel.Budget

/-!
# The receive ring

The blocks that `rudp_process_inner` accepts wait for `rudp_recv` in a ring of 256 slots with a
head, a tail and a count. The operations on the ring do what the operations on the list of the
waiting blocks do. A block is returned, waits, or is counted as an overflow, unless it is longer
than a slot: such a block is accepted and disappears.
-/

namespace SoftEtherVpn.UdpAccel

open Foundation Rudp

/-- `recv_queue` with `recv_queue_head`, `recv_queue_tail` and `recv_queue_count`. -/
structure RecvRing where
  slots : List Bytes
  head : ℕ
  tail : ℕ
  count : ℕ

namespace RecvRing

def empty : RecvRing := ⟨List.replicate recvQueueSize [], 0, 0, 0⟩

def push (block : Bytes) (r : RecvRing) : RecvRing :=
  { r with
    slots := r.slots.set r.tail block
    tail := (r.tail + 1) % recvQueueSize
    count := r.count + 1 }

def front (r : RecvRing) : Bytes := r.slots.getD r.head []

def pop (r : RecvRing) : RecvRing :=
  { r with head := (r.head + 1) % recvQueueSize, count := r.count - 1 }

/-- The waiting blocks, oldest first. -/
def contents (r : RecvRing) : List Bytes := ringContents r.slots r.head r.count

structure Wf (r : RecvRing) : Prop where
  slots : r.slots.length = recvQueueSize
  head : r.head < recvQueueSize
  count : r.count ≤ recvQueueSize
  tail : r.tail = (r.head + r.count) % recvQueueSize

theorem wf_empty : Wf empty :=
  ⟨List.length_replicate, by decide, Nat.zero_le _, by decide⟩

variable {r : RecvRing}

theorem Wf.contents_length (h : r.Wf) : r.contents.length = r.count :=
  ringContents_length (h.slots ▸ h.count)

theorem Wf.push (h : r.Wf) (hroom : r.count < recvQueueSize) (block : Bytes) :
    (r.push block).Wf := by
  have hslots := h.slots
  refine ⟨?_, h.head, hroom, ?_⟩
  · simp only [RecvRing.push, List.length_set, hslots]
  · simp only [RecvRing.push, h.tail, Nat.mod_add_mod, Nat.add_assoc]

theorem Wf.contents_push (h : r.Wf) (hroom : r.count < recvQueueSize) (block : Bytes) :
    (r.push block).contents = r.contents ++ [block] := by
  have hslots := h.slots
  have hpush := ringContents_push (hslots ▸ h.head) (hslots ▸ hroom) block
  rw [hslots, ← h.tail] at hpush
  exact hpush

theorem Wf.pop (h : r.Wf) (hsome : r.count ≠ 0) : r.pop.Wf := by
  have hcount := h.count
  refine ⟨h.slots, Nat.mod_lt _ (by decide), (Nat.sub_le _ _).trans hcount, ?_⟩
  simp only [RecvRing.pop, h.tail, Nat.mod_add_mod]
  congr 1
  omega

theorem Wf.contents_eq_cons (h : r.Wf) (hsome : r.count ≠ 0) :
    r.contents = r.front :: r.pop.contents := by
  have hslots := h.slots
  have hhead : r.head < r.slots.length := hslots ▸ h.head
  have hcount : r.count ≤ r.slots.length := hslots ▸ h.count
  have hcons := ringContents_eq_cons hhead hcount (Nat.pos_of_ne_zero hsome)
  rw [hslots] at hcons
  have hfront : r.slots[r.head] = r.front := by
    rw [front, List.getD_eq_getElem?_getD, List.getElem?_eq_getElem hhead]
    rfl
  rw [hfront] at hcons
  exact hcons

end RecvRing

/-!
## The operations on the ring
-/

/-- The accepted blocks, those of them that were queued, and those that were returned, oldest
first. It is not in the source. -/
structure QueueLog where
  accepted : List Bytes := []
  queued : List Bytes := []
  returned : List Bytes := []

/-- A context whose blocks wait in a ring. -/
structure RingContext where
  ctx : RudpContext
  ring : RecvRing
  log : QueueLog

def ringInit (i : Setup) : RingContext := ⟨rudpInit i, .empty, {}⟩

def ringQueueBlock (block : Bytes) (s : RingContext) : RingContext :=
  let s := { s with log := { s.log with accepted := s.log.accepted ++ [block] } }
  if block.length ≤ maxPayloadSize ∧ s.ring.count < recvQueueSize then
    { s with
      ring := s.ring.push block
      log := { s.log with queued := s.log.queued ++ [block] } }
  else if block.length ≤ maxPayloadSize then
    { s with
      ctx := (rudpCwinOnLoss { s.ctx with
        recvQueueOverflowCount := wrap64 (s.ctx.recvQueueOverflowCount + 1)
        recentOverflows := (s.ctx.recentOverflows + 1) % 2 ^ 32 }).record (.overflow s.ctx.now) }
  else s

/-- The queueing half of `rudp_process_inner`. -/
def ringQueueData (lib : Libs) (i : Inner) (s : RingContext) : RingContext × Bool :=
  if i.data = [] then (s, true)
  else if i.flag &&& flagCompressed ≠ 0 then
    match uncompressData lib i.data (maxPayloadSize + 256) with
    | none => (s, false)
    | some block => (ringQueueBlock block s, true)
  else (ringQueueBlock i.data s, true)

def ringProcessInner (lib : Libs) (fromAddr : SockAddr) (verifyPadding : Bool) (buf : Bytes)
    (s : RingContext) : RingContext × Bool :=
  match parseInner s.ctx.myCookie verifyPadding buf with
  | none => (s, false)
  | some i =>
    if outsideWindow s.ctx i.myTick then (s, false)
    else ringQueueData lib i { s with ctx := noteReception (notePacket i fromAddr s.ctx) }

/-- The body of the receive loop of `rudp_poll_nolock`. -/
def ringRecvPacket (lib : Libs) (d : Datagram) (s : RingContext) : RingContext :=
  if (d.data.take tmpBufSize).length < packetIvSizeV1 + 4 + 1 then s
  else
    let s := { s with ctx := s.ctx.readClock d.clock }
    match decryptDatagram lib d s.ctx with
    | none => s
    | some (verify, buf) => (ringProcessInner lib d.fromAddr verify buf s).1

def ringRecvLoop (lib : Libs) : List Datagram → RingContext → RingContext
  | [], s => s
  | d :: ds, s => if d.data = [] then s else ringRecvLoop lib ds (ringRecvPacket lib d s)

/-- `rudp_poll`. -/
def ringPoll (lib : Libs) (inp : PollInput) (s : RingContext) : RingContext :=
  if s.ctx.inited = false then s
  else ringRecvLoop lib inp.datagrams { s with ctx := pollStart lib inp s.ctx }

/-- `rudp_recv`. -/
def ringRecv (maxLen : ℕ) (s : RingContext) : RingContext × Option Bytes :=
  if s.ring.count = 0 then (s, none)
  else if s.ring.front.length > maxLen then (s, none)
  else
    ({ s with
      ring := s.ring.pop
      log := { s.log with returned := s.log.returned ++ [s.ring.front] } }, some s.ring.front)

/-!
## The ring refines the list
-/

def RudpContext.withQueue (q : List Bytes) (ctx : RudpContext) : RudpContext :=
  { ctx with recvQueue := q }

section Frame

variable (q : List Bytes) (ctx : RudpContext)

theorem noteGap_withQueue (t : ℕ) : noteGap t (ctx.withQueue q) = (noteGap t ctx).withQueue q := by
  unfold noteGap
  rw [apply_ite (RudpContext.withQueue q)]
  rfl

theorem notePacket_withQueue (i : Inner) (a : SockAddr) :
    notePacket i a (ctx.withQueue q) = (notePacket i a ctx).withQueue q := by
  have hgap := noteGap_withQueue q { ctx with
    lastRecvMyTick := max ctx.lastRecvMyTick i.yourTick
    lastRecvYourTick := max ctx.lastRecvYourTick i.myTick } i.myTick
  unfold notePacket
  dsimp only [RudpContext.withQueue] at hgap ⊢
  rw [hgap]

theorem noteReception_withQueue :
    noteReception (ctx.withQueue q) = (noteReception ctx).withQueue q := by
  unfold noteReception
  rw [apply_ite (RudpContext.withQueue q), apply_ite (RudpContext.withQueue q)]
  rfl

theorem pollTimeout_withQueue : pollTimeout (ctx.withQueue q) = (pollTimeout ctx).withQueue q := by
  unfold pollTimeout
  rw [apply_ite (RudpContext.withQueue q)]
  rfl

theorem sealDatagram_withQueue (lib : Libs) (rand : ℕ) (flag : UInt8) (data : Bytes) :
    sealDatagram lib rand flag data (ctx.withQueue q) =
      (sealDatagram lib rand flag data ctx).map fun r => (r.1.withQueue q, r.2) := by
  have hversion : (ctx.withQueue q).version = ctx.version := rfl
  unfold sealDatagram
  rw [hversion]
  cases ctx.version with
  | v1 => rfl
  | v2 =>
    have hpad : ∀ n, paddingSize (ctx.withQueue q) rand n = paddingSize ctx rand n := fun n => rfl
    simp only [hpad]
    split_ifs <;> rfl

/-- A keepalive goes past the queue. -/
theorem rudpSend_keepalive_withQueue (lib : Libs) (inp : SendInput) :
    (rudpSend lib inp [] 0 (ctx.withQueue q)).ctx =
      (rudpSend lib inp [] 0 ctx).ctx.withQueue q := by
  unfold rudpSend
  by_cases hset : ctx.inited = false ∨ ctx.peerAddrSet = false
  · rw [if_pos hset]
    exact congrArg SendOutcome.ctx (if_pos hset)
  rw [if_neg hset, if_neg (show ¬((ctx.withQueue q).inited = false ∨
    (ctx.withQueue q).peerAddrSet = false) from hset)]
  have hpayload : ∀ c : RudpContext, sendPayload lib [] 0 c = ([], 0) := by
    intro c
    simp [sendPayload]
  have hclock : (ctx.withQueue q).readClock inp.clock = (ctx.readClock inp.clock).withQueue q := rfl
  simp only [rudpSendNolock, hpayload, hclock, sealDatagram_withQueue, ne_eq, not_true_eq_false,
    false_and, if_false]
  cases sealDatagram lib inp.rand 0 [] (ctx.readClock inp.clock) with
  | none => rfl
  | some r =>
    simp only [Option.map_some]
    split_ifs <;> rfl

theorem pollKeepalive_withQueue (lib : Libs) (inp : PollInput) :
    pollKeepalive lib inp (ctx.withQueue q) = (pollKeepalive lib inp ctx).withQueue q := by
  unfold pollKeepalive
  by_cases hdue : ctx.nextSendKeepalive = 0 ∨ ctx.nextSendKeepalive ≤ ctx.now
  · rw [if_pos hdue, if_pos (show (ctx.withQueue q).nextSendKeepalive = 0 ∨
      (ctx.withQueue q).nextSendKeepalive ≤ (ctx.withQueue q).now from hdue)]
    have hset : (ctx.withQueue q).peerAddrSet = ctx.peerAddrSet := rfl
    rw [hset]
    by_cases hpeer : ctx.peerAddrSet = true
    · simp only [hpeer, if_true, rudpSend_keepalive_withQueue]
      rfl
    · simp only [hpeer]
      rfl
  · rw [if_neg hdue]
    exact if_neg hdue

theorem pollStart_withQueue (lib : Libs) (inp : PollInput) :
    pollStart lib inp (ctx.withQueue q) = (pollStart lib inp ctx).withQueue q := by
  have htimeout := pollTimeout_withQueue q
    ((ctx.readClock inp.clock).record (.polled (tick64 inp.clock) ctx.lastRecvTick))
  have hkeepalive := pollKeepalive_withQueue q (pollTimeout
    ((ctx.readClock inp.clock).record (.polled (tick64 inp.clock) ctx.lastRecvTick))) lib inp
  rw [← htimeout] at hkeepalive
  exact hkeepalive

end Frame

/-- The context with the list of the waiting blocks in place of the ring. -/
def RingContext.view (s : RingContext) : RudpContext := s.ctx.withQueue s.ring.contents

section Refinement

variable {lib : Libs} {s : RingContext}

theorem ringQueueData_eq (i : Inner) (s : RingContext) : ringQueueData lib i s =
    if i.data = [] then (s, true)
    else match i.block lib with
      | none => (s, false)
      | some block => (ringQueueBlock block s, true) := by
  unfold ringQueueData Inner.block
  split_ifs <;> rfl

theorem ringQueueBlock_view (block : Bytes) (h : s.ring.Wf) :
    (ringQueueBlock block s).ring.Wf ∧ (ringQueueBlock block s).view = queueBlock block s.view := by
  have hlength : s.view.recvQueue.length = s.ring.count := h.contents_length
  unfold ringQueueBlock queueBlock
  rw [hlength]
  dsimp only
  by_cases hlen : block.length ≤ maxPayloadSize
  · by_cases hroom : s.ring.count < recvQueueSize
    · rw [if_pos ⟨hlen, hroom⟩, if_pos hlen, if_pos hroom]
      refine ⟨h.push hroom block, ?_⟩
      exact congrArg (fun q => s.ctx.withQueue q) (h.contents_push hroom block)
    · rw [if_neg fun hboth => hroom hboth.2, if_pos hlen, if_pos hlen, if_neg hroom]
      exact ⟨h, rfl⟩
  · rw [if_neg fun hboth => hlen hboth.1, if_neg hlen, if_neg hlen]
    exact ⟨h, rfl⟩

theorem ringQueueData_view (i : Inner) (h : s.ring.Wf) :
    (ringQueueData lib i s).1.ring.Wf ∧
      ((ringQueueData lib i s).1.view, (ringQueueData lib i s).2) = queueData lib i s.view := by
  rw [ringQueueData_eq, queueData_eq]
  split_ifs
  · exact ⟨h, rfl⟩
  · cases i.block lib with
    | none => exact ⟨h, rfl⟩
    | some block =>
      obtain ⟨hwf, hview⟩ := ringQueueBlock_view block h
      exact ⟨hwf, by rw [hview]⟩

theorem noteInner_view (i : Inner) (a : SockAddr) (s : RingContext) :
    ({ s with ctx := noteReception (notePacket i a s.ctx) } : RingContext).view =
      noteInner i a s.view := by
  simp only [noteInner, RingContext.view, notePacket_withQueue, noteReception_withQueue]

theorem ringProcessInner_view (lib : Libs) (a : SockAddr) (verify : Bool) (buf : Bytes) (h : s.ring.Wf) :
    (ringProcessInner lib a verify buf s).1.ring.Wf ∧
      ((ringProcessInner lib a verify buf s).1.view, (ringProcessInner lib a verify buf s).2) =
        rudpProcessInner lib a verify buf s.view := by
  have hcookie : s.view.myCookie = s.ctx.myCookie := rfl
  unfold ringProcessInner rudpProcessInner
  rw [hcookie]
  cases parseInner s.ctx.myCookie verify buf with
  | none => exact ⟨h, rfl⟩
  | some i =>
    by_cases hout : outsideWindow s.ctx i.myTick
    · simp only [if_pos hout, if_pos (show outsideWindow s.view i.myTick from hout)]
      exact ⟨h, trivial⟩
    · simp only [if_neg hout, if_neg (show ¬outsideWindow s.view i.myTick from hout)]
      have hnote := noteInner_view i a s
      rw [noteInner] at hnote
      rw [← hnote]
      exact ringQueueData_view i h

theorem ringRecvPacket_view (d : Datagram) (h : s.ring.Wf) :
    (ringRecvPacket lib d s).ring.Wf ∧
      (ringRecvPacket lib d s).view = recvPacket lib d s.view := by
  unfold ringRecvPacket
  by_cases hshort : d.Short
  · rw [recvPacket_of_short hshort]
    unfold Datagram.Short at hshort
    rw [if_pos hshort]
    exact ⟨h, rfl⟩
  have hlong := hshort
  unfold Datagram.Short at hlong
  rw [if_neg hlong]
  have hdecrypt : decryptDatagram lib d s.view = decryptDatagram lib d (s.ctx.readClock d.clock) :=
    rfl
  dsimp only
  cases hp : decryptDatagram lib d (s.ctx.readClock d.clock) with
  | none =>
    rw [recvPacket_of_not_decrypt hshort (hdecrypt.trans hp)]
    exact ⟨h, rfl⟩
  | some p =>
    rw [recvPacket_of_decrypt (hdecrypt.trans hp)]
    have hwf : ({ s with ctx := s.ctx.readClock d.clock } : RingContext).ring.Wf := h
    obtain ⟨hwf, hview⟩ := ringProcessInner_view lib d.fromAddr p.1 p.2 hwf
    exact ⟨hwf, congrArg Prod.fst hview⟩

theorem ringRecvLoop_view (ds : List Datagram) (h : s.ring.Wf) :
    (ringRecvLoop lib ds s).ring.Wf ∧ (ringRecvLoop lib ds s).view = recvLoop lib ds s.view := by
  induction ds generalizing s with
  | nil => exact ⟨h, rfl⟩
  | cons d ds ih =>
    unfold ringRecvLoop recvLoop
    split_ifs
    · exact ⟨h, rfl⟩
    · obtain ⟨hwf, hview⟩ := ringRecvPacket_view d h
      rw [← hview]
      exact ih hwf

theorem ringPoll_view (inp : PollInput) (h : s.ring.Wf) :
    (ringPoll lib inp s).ring.Wf ∧ (ringPoll lib inp s).view = rudpPoll lib inp s.view := by
  unfold ringPoll
  by_cases hinit : s.ctx.inited = false
  · rw [if_pos hinit]
    exact ⟨h, (if_pos hinit).symm⟩
  · have htrue : s.ctx.inited = true := by simpa using hinit
    have hstart : ({ s with ctx := pollStart lib inp s.ctx } : RingContext).view =
        pollStart lib inp s.view := (pollStart_withQueue s.ring.contents s.ctx lib inp).symm
    rw [if_neg hinit, rudpPoll_eq inp (show s.view.inited = true from htrue), ← hstart]
    exact ringRecvLoop_view inp.datagrams h

theorem ringRecv_view (maxLen : ℕ) (h : s.ring.Wf) :
    (ringRecv maxLen s).1.ring.Wf ∧
      ((ringRecv maxLen s).1.view, (ringRecv maxLen s).2) = rudpRecv maxLen s.view := by
  have hqueue : s.view.recvQueue = s.ring.contents := rfl
  unfold ringRecv rudpRecv
  rw [hqueue]
  by_cases hzero : s.ring.count = 0
  · have hnil : s.ring.contents = [] := by
      apply List.eq_nil_of_length_eq_zero
      rw [h.contents_length, hzero]
    rw [if_pos hzero, hnil]
    exact ⟨h, rfl⟩
  · rw [if_neg hzero, h.contents_eq_cons hzero]
    dsimp only
    split_ifs
    · exact ⟨h, rfl⟩
    · exact ⟨h.pop hzero, rfl⟩

end Refinement

/-!
## Conservation
-/

/-- Every accepted block has been returned, waits, or has been counted. -/
def Conserved (s : RingContext) : Prop :=
  s.log.accepted.length = s.log.returned.length + s.ring.count + s.ctx.recvQueueOverflowCount

/-- What holds whatever is received: the ring is in order, and the blocks are returned as they
were queued. -/
structure Queueing (s : RingContext) : Prop where
  wf : s.ring.Wf
  order : s.log.returned ++ s.ring.contents = s.log.queued
  queued : s.log.queued.Sublist s.log.accepted
  fits : ∀ block ∈ s.ring.contents, block.length ≤ maxPayloadSize
  counted : s.log.returned.length + s.ring.count + s.ctx.recvQueueOverflowCount ≤
    s.log.accepted.length

/-- The block fits a slot, and an overflow fits its counter. -/
def Accountable (ctx : RudpContext) (block : Bytes) : Prop :=
  block.length ≤ maxPayloadSize ∧
    (recvQueueSize ≤ ctx.recvQueue.length → ctx.recvQueueOverflowCount + 1 < 2 ^ 64)

instance (ctx : RudpContext) (block : Bytes) : Decidable (Accountable ctx block) :=
  inferInstanceAs (Decidable (_ ∧ (_ → _)))

/-- The data of a packet, if it has any, is accountable. -/
def PacketAccountable (lib : Libs) (ctx : RudpContext) (i : Inner) : Prop :=
  i.data ≠ [] → ∀ block ∈ i.block lib, Accountable ctx block

instance (lib : Libs) (ctx : RudpContext) (i : Inner) : Decidable (PacketAccountable lib ctx i) :=
  inferInstanceAs (Decidable (_ → ∀ block ∈ i.block lib, Accountable ctx block))

theorem queueing_init (i : Setup) : Queueing (ringInit i) where
  wf := RecvRing.wf_empty
  order := rfl
  queued := List.Sublist.refl _
  fits := by
    intro block hblock
    have hnil : (ringInit i).ring.contents = [] := rfl
    rw [hnil] at hblock
    cases hblock
  counted := le_rfl

section Conservation

variable {lib : Libs} {s : RingContext}

/-- A context with other fields outside the queue. -/
theorem Queueing.withCtx (h : Queueing s) {ctx : RudpContext}
    (hcount : ctx.recvQueueOverflowCount = s.ctx.recvQueueOverflowCount) :
    Queueing { s with ctx := ctx } ∧ (Conserved { s with ctx := ctx } ↔ Conserved s) := by
  refine ⟨⟨h.wf, h.order, h.queued, h.fits, ?_⟩, ?_⟩
  · rw [hcount]
    exact h.counted
  · simp only [Conserved, hcount]

theorem Queueing.queueBlock (h : Queueing s) (block : Bytes) :
    Queueing (ringQueueBlock block s) ∧
      (Conserved (ringQueueBlock block s) ↔ Conserved s ∧ Accountable s.view block) := by
  have hlength : s.view.recvQueue.length = s.ring.count := h.wf.contents_length
  have hoverflow : s.view.recvQueueOverflowCount = s.ctx.recvQueueOverflowCount := rfl
  have hcounted := h.counted
  unfold Conserved Accountable ringQueueBlock
  rw [hlength, hoverflow]
  dsimp only
  by_cases hlen : block.length ≤ maxPayloadSize
  · by_cases hroom : s.ring.count < recvQueueSize
    · rw [if_pos ⟨hlen, hroom⟩]
      refine ⟨⟨h.wf.push hroom block, ?_, ?_, ?_, ?_⟩, ?_⟩
      · rw [h.wf.contents_push hroom, ← List.append_assoc, h.order]
      · exact h.queued.append (List.Sublist.refl _)
      · intro b hb
        rw [h.wf.contents_push hroom, List.mem_append, List.mem_singleton] at hb
        rcases hb with hb | rfl
        · exact h.fits b hb
        · exact hlen
      · simp only [List.length_append, List.length_singleton, RecvRing.push]
        omega
      · simp only [List.length_append, List.length_singleton, RecvRing.push]
        omega
    · rw [if_neg fun hboth => hroom hboth.2, if_pos hlen]
      have hwrap := Nat.mod_le (s.ctx.recvQueueOverflowCount + 1) (2 ^ 64)
      refine ⟨⟨h.wf, h.order, h.queued.trans (List.sublist_append_left _ _), h.fits, ?_⟩, ?_⟩
      · simp only [List.length_append, List.length_singleton, RudpContext.record, rudpCwinOnLoss,
          wrap64]
        omega
      · simp only [List.length_append, List.length_singleton, RudpContext.record, rudpCwinOnLoss,
          wrap64]
        omega
  · rw [if_neg fun hboth => hlen hboth.1, if_neg hlen]
    refine ⟨⟨h.wf, h.order, h.queued.trans (List.sublist_append_left _ _), h.fits, ?_⟩, ?_⟩
    · simp only [List.length_append, List.length_singleton]
      omega
    · simp only [List.length_append, List.length_singleton]
      omega

theorem Queueing.queueData (h : Queueing s) (i : Inner) :
    Queueing (ringQueueData lib i s).1 ∧
      (Conserved (ringQueueData lib i s).1 ↔ Conserved s ∧ PacketAccountable lib s.view i) := by
  rw [ringQueueData_eq]
  unfold PacketAccountable
  by_cases hdata : i.data = []
  · simp [hdata, h]
  cases hblock : i.block lib with
  | none => simp [hdata, h]
  | some block =>
    obtain ⟨hqueue, hiff⟩ := h.queueBlock block
    simp [hdata, hqueue, hiff]

theorem ringProcessInner_eq (a : SockAddr) (verify : Bool) (buf : Bytes) (s : RingContext) :
    ringProcessInner lib a verify buf s = match readInner s.ctx verify buf with
      | none => (s, false)
      | some i => ringQueueData lib i { s with ctx := noteInner i a s.ctx } := by
  unfold ringProcessInner readInner
  cases parseInner s.ctx.myCookie verify buf with
  | none => rfl
  | some i =>
    by_cases hout : outsideWindow s.ctx i.myTick
    · simp [Option.filter, hout]
    · simp [Option.filter, hout, noteInner]

theorem Queueing.processInner (h : Queueing s) (a : SockAddr) (verify : Bool) (buf : Bytes) :
    Queueing (ringProcessInner lib a verify buf s).1 ∧
      (Conserved (ringProcessInner lib a verify buf s).1 ↔ Conserved s ∧
        ∀ i, readInner s.ctx verify buf = some i → PacketAccountable lib s.view i) := by
  rw [ringProcessInner_eq]
  cases readInner s.ctx verify buf with
  | none => simp [h]
  | some i =>
    obtain ⟨hnoted, hsame⟩ := h.withCtx (noteInner_queue i a s.ctx).2
    obtain ⟨hqueue, hiff⟩ := hnoted.queueData i
    have hcount : (noteInner i a s.ctx).recvQueueOverflowCount = s.ctx.recvQueueOverflowCount :=
      (noteInner_queue i a s.ctx).2
    have hview : PacketAccountable lib
        ({ s with ctx := noteInner i a s.ctx } : RingContext).view i ↔
          PacketAccountable lib s.view i := by
      simp only [PacketAccountable, Accountable, RingContext.view, RudpContext.withQueue, hcount]
    refine ⟨hqueue, ?_⟩
    rw [hiff, hsame, hview]
    simp

theorem Queueing.recvPacket (h : Queueing s) (d : Datagram) :
    Queueing (ringRecvPacket lib d s) ∧ (Conserved (ringRecvPacket lib d s) ↔ Conserved s ∧
      ∀ i, received lib d s.view = some i → PacketAccountable lib (s.view.readClock d.clock) i) := by
  unfold ringRecvPacket
  by_cases hshort : (d.data.take tmpBufSize).length < packetIvSizeV1 + 4 + 1
  · have hnone : received lib d s.view = none := by
      unfold received decryptDatagram
      dsimp only
      rw [if_pos hshort]
      rfl
    rw [if_pos hshort, hnone]
    simp [h]
  rw [if_neg hshort]
  obtain ⟨hclock, hsame⟩ := h.withCtx (show (s.ctx.readClock d.clock).recvQueueOverflowCount =
    s.ctx.recvQueueOverflowCount from rfl)
  have hreceived : received lib d s.view =
      (decryptDatagram lib d (s.ctx.readClock d.clock)).bind fun p =>
        readInner (s.ctx.readClock d.clock) p.1 p.2 := rfl
  rw [hreceived]
  dsimp only
  cases decryptDatagram lib d (s.ctx.readClock d.clock) with
  | none =>
    refine ⟨hclock, hsame.trans ?_⟩
    simp
  | some p =>
    obtain ⟨hqueue, hiff⟩ := hclock.processInner d.fromAddr p.1 p.2
    refine ⟨hqueue, hiff.trans ?_⟩
    rw [hsame]
    rfl

theorem Queueing.recvLoop (h : Queueing s) (ds : List Datagram) :
    Queueing (ringRecvLoop lib ds s) ∧ (Conserved (ringRecvLoop lib ds s) ↔
      Conserved s ∧ EachPacket lib (PacketAccountable lib) ds s.view) := by
  induction ds generalizing s with
  | nil => exact ⟨h, by simp [ringRecvLoop, EachPacket]⟩
  | cons d ds ih =>
    unfold ringRecvLoop EachPacket
    by_cases hend : d.data = []
    · rw [if_pos hend]
      exact ⟨h, by simp [hend]⟩
    · obtain ⟨hpacket, hiff⟩ := h.recvPacket d
      obtain ⟨hloop, hloopIff⟩ := ih hpacket
      rw [if_neg hend]
      refine ⟨hloop, ?_⟩
      rw [hloopIff, hiff, (ringRecvPacket_view d h.wf).2]
      simp [hend, and_assoc]

end Conservation

/-!
## Runs
-/

/-- A call of `rudp_poll`, or of `rudp_recv` with a buffer for any block. -/
inductive QueueCall
  | poll (inp : PollInput)
  | recv (maxLen : ℕ) (room : maxPayloadSize ≤ maxLen)

def queueStep (lib : Libs) (s : RingContext) : QueueCall → Option RingContext
  | .poll inp => some (ringPoll lib inp s)
  | .recv maxLen _ => some (ringRecv maxLen s).1

/-- A call on the list of the waiting blocks. -/
def listStep (lib : Libs) (ctx : RudpContext) : QueueCall → Option RudpContext
  | .poll inp => some (rudpPoll lib inp ctx)
  | .recv maxLen _ => some (rudpRecv maxLen ctx).1

/-- All data that a poll receives is accountable. -/
def CallAccountable (lib : Libs) (s : RingContext) : QueueCall → Prop
  | .poll inp => s.ctx.inited = true →
      EachPacket lib (PacketAccountable lib) inp.datagrams (pollStart lib inp s.view)
  | .recv _ _ => True

instance (lib : Libs) (s : RingContext) : ∀ c, Decidable (CallAccountable lib s c)
  | .poll _ => inferInstanceAs (Decidable (_ → EachPacket _ _ _ _))
  | .recv _ _ => inferInstanceAs (Decidable True)

section Runs

variable {lib : Libs} {s t : RingContext}

theorem Queueing.poll (h : Queueing s) (inp : PollInput) :
    Queueing (ringPoll lib inp s) ∧ (Conserved (ringPoll lib inp s) ↔
      Conserved s ∧ CallAccountable lib s (.poll inp)) := by
  unfold ringPoll CallAccountable
  by_cases hinit : s.ctx.inited = false
  · rw [if_pos hinit]
    exact ⟨h, by simp [hinit]⟩
  · obtain ⟨now, iv, ivV2, keepalive, first, loss, history, hstart⟩ :=
      pollStart_frame lib inp s.ctx
    have hcount : (pollStart lib inp s.ctx).recvQueueOverflowCount =
        s.ctx.recvQueueOverflowCount := by rw [hstart]
    obtain ⟨hpoll, hsame⟩ := h.withCtx hcount
    obtain ⟨hloop, hiff⟩ := hpoll.recvLoop inp.datagrams
    have hview : ({ s with ctx := pollStart lib inp s.ctx } : RingContext).view =
        pollStart lib inp s.view := (pollStart_withQueue s.ring.contents s.ctx lib inp).symm
    rw [if_neg hinit]
    refine ⟨hloop, ?_⟩
    rw [hiff, hsame, hview]
    simp [hinit]

theorem Queueing.recv (h : Queueing s) {maxLen : ℕ} (hroom : maxPayloadSize ≤ maxLen) :
    Queueing (ringRecv maxLen s).1 ∧ (Conserved (ringRecv maxLen s).1 ↔ Conserved s) := by
  have hcounted := h.counted
  unfold ringRecv
  by_cases hzero : s.ring.count = 0
  · rw [if_pos hzero]
    exact ⟨h, Iff.rfl⟩
  have hcons := h.wf.contents_eq_cons hzero
  have hfits := h.fits
  have horder := h.order
  rw [hcons] at hfits horder
  rw [if_neg hzero, if_neg (not_lt.mpr ((hfits _ List.mem_cons_self).trans hroom))]
  refine ⟨⟨h.wf.pop hzero, ?_, h.queued, ?_, ?_⟩, ?_⟩
  · rw [← horder, List.append_assoc]
    rfl
  · exact fun block hblock => hfits block (List.mem_cons_of_mem _ hblock)
  · simp only [List.length_append, List.length_singleton, RecvRing.pop]
    omega
  · simp only [Conserved, List.length_append, List.length_singleton, RecvRing.pop]
    omega

theorem queueStep_spec {c : QueueCall} (h : Queueing s) (hstep : queueStep lib s c = some t) :
    Queueing t ∧ (Conserved t ↔ Conserved s ∧ CallAccountable lib s c) ∧
      listStep lib s.view c = some t.view := by
  cases c with
  | poll inp =>
    obtain rfl := Option.some.inj hstep
    obtain ⟨hqueue, hiff⟩ := h.poll inp
    exact ⟨hqueue, hiff, congrArg some (ringPoll_view inp h.wf).2.symm⟩
  | recv maxLen room =>
    obtain rfl := Option.some.inj hstep
    obtain ⟨hqueue, hiff⟩ := h.recv room
    have hview := congrArg Prod.fst (ringRecv_view maxLen h.wf).2
    exact ⟨hqueue, hiff.trans (by simp [CallAccountable]), congrArg some hview.symm⟩

end Runs

/-- In every run the ring is the list of the waiting blocks, its indices are in order, and the
blocks are returned as they were queued; the accepted blocks are all returned, waiting or counted
exactly when all received data was accountable. -/
theorem recvQueue_conserved_iff {lib : Libs} {i : Setup} {calls : List QueueCall}
    {s : RingContext} (hrun : exec (queueStep lib) (ringInit i) calls = some s) :
    (Conserved s ↔ Along (queueStep lib) (CallAccountable lib) (ringInit i) calls) ∧
      s.log.returned ++ s.ring.contents = s.log.queued ∧
      s.log.queued.Sublist s.log.accepted ∧ s.ring.count ≤ recvQueueSize ∧
      s.ring.tail = (s.ring.head + s.ring.count) % recvQueueSize ∧
      exec (listStep lib) (rudpInit i) calls = some s.view := by
  have hiff := exec_iff_along (fun s c t h hstep => (queueStep_spec h hstep).1)
    (fun s c t h hstep => (queueStep_spec h hstep).2.1) (queueing_init i) hrun
  have hinit : Conserved (ringInit i) := rfl
  have htrace : Queueing s ∧ exec (listStep lib) (rudpInit i) calls = some s.view := by
    refine exec_trace_invariant (I := fun calls (s : RingContext) => Queueing s ∧
      exec (listStep lib) (rudpInit i) calls = some s.view) ?_ ⟨queueing_init i, rfl⟩ hrun
    rintro calls s c t ⟨hqueue, hlist⟩ hstep
    obtain ⟨hqueue', -, hview⟩ := queueStep_spec hqueue hstep
    refine ⟨hqueue', exec_append_eq_some.mpr ⟨s.view, hlist, ?_⟩⟩
    exact exec_cons_eq_some.mpr ⟨t.view, hview, rfl⟩
  obtain ⟨hqueue, hlist⟩ := htrace
  refine ⟨?_, hqueue.order, hqueue.queued, hqueue.wf.count, hqueue.wf.tail, hlist⟩
  rw [hiff]
  simp [hinit]

/-- One poll with the given data from the server, then a receive. -/
def pollAndRecv (data : Bytes) : List QueueCall :=
  [.poll ⟨clockAt 1 firstSecond, ⟨clockAt 1 firstSecond, 0, true⟩, 0,
    [⟨clockAt 1 firstSecond, ⟨false, [10, 0, 0, 1], 443⟩,
      ((rudpSend Libs.plain ⟨clockAt 1 firstSecond, 0, true⟩ data 0
        (rudpInit sampleServer)).sent).getD []⟩]⟩,
    .recv maxPayloadSize le_rfl]

theorem shortBlock_conserved :
    ∃ s, exec (queueStep Libs.plain) (ringInit sampleClient) (pollAndRecv [5]) = some s ∧
      s.log.returned = [[5]] ∧ Conserved s := by
  have hrun : ∃ s ∈ exec (queueStep Libs.plain) (ringInit sampleClient) (pollAndRecv [5]),
      s.log.returned = [[5]] ∧
        Along (queueStep Libs.plain) (CallAccountable Libs.plain) (ringInit sampleClient)
          (pollAndRecv [5]) := by
    decide +kernel
  obtain ⟨s, hs, hreturned, halong⟩ := hrun
  exact ⟨s, hs, hreturned, (recvQueue_conserved_iff hs).1.mpr halong⟩

/-- A block of 1700 bytes is accepted and is neither returned nor counted. -/
theorem longBlock_vanishes :
    ∃ s, exec (queueStep Libs.plain) (ringInit sampleClient)
        (pollAndRecv (List.replicate 1700 7)) = some s ∧
      s.log.accepted.length = 1 ∧ s.log.returned = [] ∧ s.ring.count = 0 ∧
      s.ctx.recvQueueOverflowCount = 0 ∧ ¬Conserved s := by
  have hrun : ∃ s ∈ exec (queueStep Libs.plain) (ringInit sampleClient)
      (pollAndRecv (List.replicate 1700 7)),
      s.log.accepted.length = 1 ∧ s.log.returned = [] ∧ s.ring.count = 0 ∧
        s.ctx.recvQueueOverflowCount = 0 := by
    decide +kernel
  obtain ⟨s, hs, haccepted, hreturned, hcount, hoverflow⟩ := hrun
  refine ⟨s, hs, haccepted, hreturned, hcount, hoverflow, ?_⟩
  simp [Conserved, haccepted, hreturned, hcount, hoverflow]

end SoftEtherVpn.UdpAccel

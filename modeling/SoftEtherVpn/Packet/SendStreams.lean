import SoftEtherVpn.Packet.SendPaths

/-!
# What each TCP socket is sent

The four ways in which a connected session writes to its sockets, one after the other under
`write_mutex`. A write stops after the bytes that the socket accepts; what a socket has accepted is
kept write by write. `softether_transmit_block_nolock` retires an additional socket on which a
write fails and goes on to the next one; a keepalive, a packet of
`softether_send_packet` and a block on the primary socket are given up, and the socket stays in use.
-/

namespace SoftEtherVpn.Packet

open Foundation

abbrev maxSeConnections : ℕ := 8

theorem maxSeConnections_pos : 0 < maxSeConnections := by decide

/-- The primary socket is `none`, additional socket `i` is `some i`. -/
abbrev SockId := Option (Fin maxSeConnections)

/-- An entry of `additional[]`; `sends` says that its direction is BOTH or client to server. -/
structure TcpSock where
  active : Bool
  ssl : Bool
  fd : Bool
  sends : Bool

/-- A write of which the socket has accepted at least one byte. -/
structure Write where
  message : Bytes
  accepted : ℕ
  deriving DecidableEq

def Write.bytes (w : Write) : Bytes := w.message.take w.accepted

structure Links where
  ssl : Bool
  fd : Bool
  primarySends : Bool
  additional : Fin maxSeConnections → TcpSock
  sendRrIdx : ℕ
  written : SockId → List Write

namespace Links

def record (l : Links) (s : SockId) (w : Write) : Links :=
  { l with written := Function.update l.written s (l.written s ++ [w]) }

/-- `data_write_all` and `data_write_all_sock`: whether the write succeeds. A length from `2 ^ 31`
on is negative as an `int`, and the loop then ends before it writes. -/
def write (l : Links) (s : SockId) (message : Bytes) (accepts : SockId → ℕ) : Bool × Links :=
  if 2 ^ 31 ≤ message.length then (true, l)
  else if message.length ≤ accepts s then (true, l.record s ⟨message, message.length⟩)
  else if accepts s = 0 then (false, l)
  else (false, l.record s ⟨message, accepts s⟩)

def primaryReady (l : Links) : Bool := l.fd && l.ssl && l.primarySends

/-- The additional sockets that may be sent on. -/
def sendSlots (l : Links) : List (Fin maxSeConnections) :=
  (List.finRange maxSeConnections).filter fun i => (l.additional i).active && (l.additional i).sends

def sendSockets (l : Links) : List SockId :=
  (if l.primaryReady then [none] else []) ++ l.sendSlots.map some

/-- `softether_select_send_socket`. -/
def softetherSelectSendSocket (l : Links) : SockId × Links :=
  match l.sendSockets with
  | [] => (none, l)
  | s :: ss =>
    ((s :: ss).getD (l.sendRrIdx % (ss.length + 1)) none,
      { l with sendRrIdx := (l.sendRrIdx + 1) % (ss.length + 1) })

def retire (l : Links) (i : Fin maxSeConnections) : Links :=
  { l with
    additional := Function.update l.additional i ⟨false, false, false, (l.additional i).sends⟩ }

/-- The loop over the candidates of `softether_transmit_block_nolock`. -/
def transmitLoop (block : Bytes) (accepts : SockId → ℕ) : List SockId → Links → ℤ × Links
  | [], l => (-1, l)
  | none :: ss, l =>
    if l.ssl && l.fd then
      let (ok, l) := l.write none block accepts
      if ok then (0, l) else transmitLoop block accepts ss l
    else transmitLoop block accepts ss l
  | some i :: ss, l =>
    if (l.additional i).active && (l.additional i).ssl && (l.additional i).fd then
      let (ok, l) := l.write (some i) block accepts
      if ok then (0, l) else transmitLoop block accepts ss (l.retire i)
    else transmitLoop block accepts ss l

def softetherTransmitBlock (block : Bytes) (accepts : SockId → ℕ) (l : Links) : ℤ × Links :=
  if block.length < 8 ∨ l.ssl = false then (-1, l)
  else
    let (best, l) := l.softetherSelectSendSocket
    let candidates := (if best ≠ none then [best] else []) ++
      (if l.primaryReady then [none] else []) ++
      (l.sendSlots.map some).filter fun s => s ≠ best
    transmitLoop block accepts candidates l

/-- The end of `softether_send_packet`. -/
def sendBuiltPacket (block : Bytes) (accepts : SockId → ℕ) (l : Links) : ℤ × Links :=
  if l.ssl = false then (-1, l)
  else
    let (best, l) := l.softetherSelectSendSocket
    match best with
    | some i =>
      if !(l.additional i).active || !(l.additional i).ssl then (-1, l)
      else
        let (ok, l) := l.write (some i) block accepts
        (if ok then block.length else -1, l)
    | none =>
      let (ok, l) := l.write none block accepts
      (if ok then block.length else -1, l)

end Links

/-- The random part of a keepalive. -/
abbrev Random := { r : Bytes // r.length < 64 }

def keepAlive (r : Random) : Bytes := bytesBE 4 0xFFFFFFFF ++ bytesBE 4 r.1.length ++ r.1

namespace Links

/-- `softether_send_keepalive`. -/
def softetherSendKeepalive (r : Random) (accepts : SockId → ℕ) (l : Links) : Links :=
  if l.ssl = false then l else (l.write none (keepAlive r) accepts).2

/-- The loop of `softether_send_keepalive_all` over the additional sockets. -/
def keepaliveLoop (random : SockId → Random) (accepts : SockId → ℕ) :
    List (Fin maxSeConnections) → Links → Links
  | [], l => l
  | i :: is, l =>
    if (l.additional i).active && (l.additional i).sends && (l.additional i).ssl &&
        (l.additional i).fd then
      keepaliveLoop random accepts is (l.write (some i) (keepAlive (random (some i))) accepts).2
    else keepaliveLoop random accepts is l

/-- `softether_send_keepalive_all`; `due` says that its time has come. -/
def softetherSendKeepaliveAll (due : Bool) (random : SockId → Random) (accepts : SockId → ℕ)
    (l : Links) : Links :=
  if l.ssl = false ∨ due = false then l
  else
    let l := if l.primaryReady then (l.write none (keepAlive (random none)) accepts).2 else l
    keepaliveLoop random accepts (List.finRange maxSeConnections) l

end Links

/-- A call; `rudp` says that UDP acceleration takes the packet. -/
inductive Call
  | send (data : Bytes) (rudp : Bool)
  | sendPacket (malloc : Bool) (compress : Compress) (payload : Bytes)
  | transmitBlock (payload : Bytes)
  | keepalive (random : Random)
  | keepaliveAll (due : Bool) (random : SockId → Random)

/-- A call, the session that it finds, and how many bytes each socket accepts of what the call
writes there. `send_block_cap` has 32 bits. -/
structure Step where
  conn : SendConn
  cap : ∀ buffer ∈ conn.sendBlock, buffer.length < 2 ^ 32
  call : Call
  accepts : SockId → ℕ

def Step.run (l : Links) (s : Step) : Links :=
  match s.call with
  | .send data rudp =>
    match s.conn.softetherSend data with
    | some b => if rudp then l else (l.softetherTransmitBlock b s.accepts).2
    | none => l
  | .sendPacket malloc compress payload =>
    match s.conn.softetherSendPacket malloc compress payload with
    | some b => (l.sendBuiltPacket b s.accepts).2
    | none => l
  | .transmitBlock payload => (l.softetherTransmitBlock (block payload) s.accepts).2
  | .keepalive r => l.softetherSendKeepalive r s.accepts
  | .keepaliveAll due random => l.softetherSendKeepaliveAll due random s.accepts

/-! ## Whole messages and cut ones -/

def IsMessage (m : Bytes) : Prop := (∃ p, m = block p) ∨ ∃ r, m = keepAlive r

def Write.whole (m : Bytes) : Write := ⟨m, m.length⟩

theorem whole_bytes (m : Bytes) : (Write.whole m).bytes = m := List.take_length

/-- The bytes that a socket has accepted. -/
def Links.accepted (l : Links) (s : SockId) : Bytes := (l.written s).flatMap Write.bytes

/-- A socket has accepted complete messages, and possibly a part of one more after which it is sent
nothing. -/
def Links.Intact (l : Links) (s : SockId) : Prop :=
  ∃ (whole : List Bytes) (cut : List Write),
    (∀ m ∈ whole, IsMessage m) ∧ cut.length ≤ 1 ∧
      (∀ w ∈ cut, IsMessage w.message ∧ w.accepted < w.message.length) ∧
        l.written s = whole.map Write.whole ++ cut ∧
          l.accepted s = whole.flatten ++ cut.flatMap Write.bytes

/-- The socket takes all of the message or none of it. -/
def TakesWhole (n : ℕ) (m : Bytes) : Prop := n = 0 ∨ m.length ≤ n

/-- The writes that would leave a socket in use after a cut message are not cut. -/
def Step.Clean (s : Step) : Prop :=
  match s.call with
  | .send data _ => ∀ b ∈ s.conn.softetherSend data, TakesWhole (s.accepts none) b
  | .sendPacket malloc compress payload =>
    ∀ b ∈ s.conn.softetherSendPacket malloc compress payload, ∀ i, TakesWhole (s.accepts i) b
  | .transmitBlock payload => TakesWhole (s.accepts none) (block payload)
  | .keepalive r => TakesWhole (s.accepts none) (keepAlive r)
  | .keepaliveAll _ random => ∀ i, TakesWhole (s.accepts i) (keepAlive (random i))

section Messages

variable {conn : SendConn} {b : Bytes}

theorem softetherSend_isMessage (hcap : ∀ buffer ∈ conn.sendBlock, buffer.length < 2 ^ 32)
    {data : Bytes} (h : conn.softetherSend data = some b) : IsMessage b := by
  cases hbuffer : conn.sendBlock with
  | none =>
    rw [SendConn.softetherSend, hbuffer] at h
    cases h
  | some buffer =>
    have hlength : buffer.length < 2 ^ 32 := hcap buffer hbuffer
    by_cases hdata : data.length = 0
    · rw [SendConn.softetherSend, hbuffer] at h
      simp [hdata] at h
    by_cases hfits : 8 + ethHeaderSize + data.length ≤ buffer.length
    · rw [softetherSend_eq hbuffer hlength hdata hfits] at h
      exact Or.inl ⟨_, (Option.some.inj h).symm⟩
    · rw [SendConn.softetherSend, hbuffer] at h
      dsimp only at h
      split_ifs at h
      simp only [Cursor.put_bind_put] at h
      have heth : ethHeaderSize = 14 := rfl
      have hnone : ∀ n, Cursor.put ([0, 0, 0, 1] ++ (bytesBE 4 n ++ (conn.dstMac.1 ++
          (conn.clientMac.1 ++ (bytesBE 2 (SendConn.ethertype data) ++ data))))) ⟨buffer, 0⟩ =
            none := by
        intro n
        apply if_neg
        simp only [List.length_append, bytesBE_length, conn.dstMac.2, conn.clientMac.2,
          List.length_cons, List.length_nil]
        omega
      rw [hnone] at h
      cases h

theorem softetherSendPacket_isMessage (hcap : ∀ buffer ∈ conn.sendBlock, buffer.length < 2 ^ 32)
    {malloc : Bool} {compress : Compress} {payload : Bytes}
    (h : conn.softetherSendPacket malloc compress payload = some b) : IsMessage b := by
  cases hbuffer : conn.sendBlock with
  | none =>
    rw [SendConn.softetherSendPacket, hbuffer] at h
    cases h
  | some buffer =>
    have hlength : buffer.length < 2 ^ 32 := hcap buffer hbuffer
    by_cases hshort : 8 + (conn.sendPayload malloc compress payload).length < 2 ^ 32
    · rw [softetherSendPacket_eq hbuffer malloc compress hshort] at h
      split_ifs at h
      exact Or.inl ⟨_, (Option.some.inj h).symm⟩
    · rw [SendConn.softetherSendPacket, hbuffer] at h
      dsimp only at h
      generalize conn.sendPayload malloc compress payload = p at h hshort
      have hpos : p.length > 0 := by omega
      have hnone : Cursor.put ([0, 0, 0, 1] ++ (bytesBE 4 p.length ++ p)) ⟨buffer, 0⟩ = none := by
        apply if_neg
        simp only [List.length_append, bytesBE_length, List.length_cons, List.length_nil]
        omega
      simp only [hpos, if_true, Cursor.put_bind_put] at h
      rw [hnone] at h
      split_ifs at h
      cases h

end Messages

/-! ## What a write does to the logs -/

def Whole (log : List Write) : Prop :=
  ∃ ms : List Bytes, (∀ m ∈ ms, IsMessage m) ∧ log = ms.map Write.whole

theorem Whole.append {log : List Write} (h : Whole log) {m : Bytes} (hm : IsMessage m) :
    Whole (log ++ [Write.whole m]) := by
  obtain ⟨ms, hms, rfl⟩ := h
  use ms ++ [m]
  constructor
  · intro n hn
    rcases List.mem_append.mp hn with hn | hn
    · exact hms n hn
    · rw [List.mem_singleton.mp hn]
      exact hm
  · rw [List.map_append, List.map_singleton]

def CutOnce (log : List Write) : Prop :=
  ∃ whole w, Whole whole ∧ IsMessage w.message ∧ w.accepted < w.message.length ∧
    log = whole ++ [w]

namespace Links

variable {l : Links} {s : SockId} {m : Bytes} {accepts : SockId → ℕ}

def InUse (l : Links) : SockId → Prop
  | none => True
  | some i => (l.additional i).active = true

/-- A cut message is the last one of its socket, and that socket is no longer in use. -/
structure Sound (l : Links) : Prop where
  whole : ∀ s, l.InUse s → Whole (l.written s)
  cut : ∀ s, Whole (l.written s) ∨ CutOnce (l.written s)

theorem inUse_primary (l : Links) : l.InUse none := trivial

theorem inUse_record (l : Links) (s s' : SockId) (w : Write) :
    (l.record s w).InUse s' ↔ l.InUse s' := by
  cases s' <;> exact Iff.rfl

theorem record_self (l : Links) (s : SockId) (w : Write) :
    (l.record s w).written s = l.written s ++ [w] := Function.update_self ..

theorem record_other (l : Links) {s s' : SockId} (hs : s' ≠ s) (w : Write) :
    (l.record s w).written s' = l.written s' := Function.update_of_ne hs ..

theorem Sound.record (h : l.Sound) (hs : l.InUse s) (hm : IsMessage m) :
    (l.record s (Write.whole m)).Sound := by
  have hlog : Whole ((l.record s (Write.whole m)).written s) := by
    rw [record_self]
    exact (h.whole s hs).append hm
  constructor
  · intro s' hs'
    by_cases hsame : s' = s
    · rw [hsame]
      exact hlog
    · rw [record_other l hsame]
      exact h.whole s' ((inUse_record l s s' _).mp hs')
  · intro s'
    by_cases hsame : s' = s
    · rw [hsame]
      exact Or.inl hlog
    · rw [record_other l hsame]
      exact h.cut s'

theorem inUse_of_retire {i : Fin maxSeConnections} (hs : (l.retire i).InUse s) :
    l.InUse s ∧ s ≠ some i := by
  cases s with
  | none => exact ⟨l.inUse_primary, by simp⟩
  | some j =>
    have hs : ((l.retire i).additional j).active = true := hs
    by_cases hij : j = i
    · simp [hij, retire] at hs
    · simp only [retire, Function.update_of_ne hij] at hs
      refine ⟨hs, ?_⟩
      intro h
      exact hij (Option.some.inj h)

theorem Sound.retire (h : l.Sound) (i : Fin maxSeConnections) : (l.retire i).Sound where
  whole s hs := h.whole s (inUse_of_retire hs).1
  cut := h.cut

/-- A message may be cut on a socket that is retired at once. -/
theorem Sound.record_retire {i : Fin maxSeConnections} {k : ℕ} (h : l.Sound)
    (hs : l.InUse (some i)) (hm : IsMessage m) (hk : k < m.length) :
    ((l.record (some i) ⟨m, k⟩).retire i).Sound := by
  constructor
  · intro s hs'
    obtain ⟨huse, hne⟩ := inUse_of_retire hs'
    have hlog := h.whole s ((inUse_record l _ s _).mp huse)
    rw [← record_other l hne ⟨m, k⟩] at hlog
    exact hlog
  · intro s
    by_cases hsame : s = some i
    · rw [hsame]
      exact Or.inr ⟨l.written (some i), ⟨m, k⟩, h.whole _ hs, hm, hk, record_self l _ _⟩
    · have hlog := h.cut s
      rw [← record_other l hsame ⟨m, k⟩] at hlog
      exact hlog

/-- A write that succeeds adds a whole message at most; one that fails may have cut it. -/
theorem write_cases (l : Links) (s : SockId) (m : Bytes) (accepts : SockId → ℕ) :
    (∃ l', l.write s m accepts = (true, l') ∧ (l' = l ∨ l' = l.record s (Write.whole m))) ∨
      (¬m.length ≤ accepts s ∧ ∃ l', l.write s m accepts = (false, l') ∧
        (l' = l ∨ (accepts s ≠ 0 ∧ l' = l.record s ⟨m, accepts s⟩))) := by
  rw [write]
  split_ifs with hint hall hzero
  · exact Or.inl ⟨l, rfl, Or.inl rfl⟩
  · exact Or.inl ⟨_, rfl, Or.inr rfl⟩
  · exact Or.inr ⟨hall, l, rfl, Or.inl rfl⟩
  · exact Or.inr ⟨hall, _, rfl, Or.inr ⟨hzero, rfl⟩⟩

theorem Sound.write (h : l.Sound) (hs : l.InUse s) (hm : IsMessage m)
    (htakes : TakesWhole (accepts s) m) : (l.write s m accepts).2.Sound := by
  rcases write_cases l s m accepts with ⟨l', hl, rfl | rfl⟩ | ⟨hnot, l', hl, rfl | ⟨hpos, rfl⟩⟩
  · rw [hl]
    exact h
  · rw [hl]
    exact h.record hs hm
  · rw [hl]
    exact h
  · exact absurd (htakes.resolve_left hpos) hnot

theorem Sound.write_ok {l' : Links} (h : l.Sound) (hs : l.InUse s) (hm : IsMessage m)
    (hwrite : l.write s m accepts = (true, l')) : l'.Sound := by
  rcases write_cases l s m accepts with ⟨l₁, hl, hcases⟩ | ⟨-, l₁, hl, -⟩
  · obtain rfl : l₁ = l' := (Prod.mk.inj (hl.symm.trans hwrite)).2
    rcases hcases with rfl | rfl
    · exact h
    · exact h.record hs hm
  · cases hl.symm.trans hwrite

theorem Sound.write_retire {i : Fin maxSeConnections} {l' : Links} (h : l.Sound)
    (hs : l.InUse (some i)) (hm : IsMessage m)
    (hwrite : l.write (some i) m accepts = (false, l')) : (l'.retire i).Sound := by
  rcases write_cases l (some i) m accepts with ⟨l₁, hl, -⟩ | ⟨hnot, l₁, hl, hcases⟩
  · cases hl.symm.trans hwrite
  · obtain rfl : l₁ = l' := (Prod.mk.inj (hl.symm.trans hwrite)).2
    rcases hcases with rfl | ⟨-, rfl⟩
    · exact h.retire i
    · exact h.record_retire hs hm (Nat.lt_of_not_le hnot)

/-! ## The calls -/

theorem Sound.transmitLoop (hm : IsMessage m) (htakes : TakesWhole (accepts none) m)
    (ss : List SockId) (h : l.Sound) : (transmitLoop m accepts ss l).2.Sound := by
  induction ss generalizing l with
  | nil => exact h
  | cons s ss ih =>
    cases s with
    | none =>
      rw [Links.transmitLoop]
      split_ifs
      · have hwrite := h.write l.inUse_primary hm htakes
        generalize l.write none m accepts = r at hwrite ⊢
        obtain ⟨ok, l'⟩ := r
        cases ok with
        | true => exact hwrite
        | false => exact ih hwrite
      · exact ih h
    | some i =>
      rw [Links.transmitLoop]
      split_ifs with huse
      · have hactive : l.InUse (some i) := by
          simp only [Bool.and_eq_true] at huse
          exact huse.1.1
        cases hwrite : l.write (some i) m accepts with
        | mk ok l' =>
          cases ok with
          | true => exact h.write_ok hactive hm hwrite
          | false => exact ih (h.write_retire hactive hm hwrite)
      · exact ih h

theorem Sound.select (h : l.Sound) : l.softetherSelectSendSocket.2.Sound := by
  rw [softetherSelectSendSocket]
  split
  · exact h
  · exact ⟨fun s hs => h.whole s (by cases s <;> exact hs), h.cut⟩

theorem Sound.transmitBlock (hm : IsMessage m) (htakes : TakesWhole (accepts none) m)
    (h : l.Sound) : (l.softetherTransmitBlock m accepts).2.Sound := by
  rw [softetherTransmitBlock]
  split_ifs
  · exact h
  · exact h.select.transmitLoop hm htakes _

theorem Sound.sendBuiltPacket (hm : IsMessage m) (htakes : ∀ s, TakesWhole (accepts s) m)
    (h : l.Sound) : (l.sendBuiltPacket m accepts).2.Sound := by
  rw [Links.sendBuiltPacket]
  split_ifs
  · exact h
  · have hselect := h.select
    generalize l.softetherSelectSendSocket = r at hselect ⊢
    obtain ⟨best, l'⟩ := r
    cases best with
    | none => exact hselect.write l'.inUse_primary hm (htakes none)
    | some i =>
      dsimp only
      by_cases hidle : (!(l'.additional i).active || !(l'.additional i).ssl) = true
      · rw [if_pos hidle]
        exact hselect
      · rw [if_neg hidle]
        have hactive : l'.InUse (some i) := by
          simp only [Bool.or_eq_true, Bool.not_eq_true', not_or, Bool.not_eq_false] at hidle
          exact hidle.1
        exact hselect.write hactive hm (htakes (some i))

theorem Sound.keepaliveLoop {random : SockId → Random}
    (htakes : ∀ s, TakesWhole (accepts s) (keepAlive (random s)))
    (is : List (Fin maxSeConnections)) (h : l.Sound) :
    (keepaliveLoop random accepts is l).Sound := by
  induction is generalizing l with
  | nil => exact h
  | cons i is ih =>
    rw [Links.keepaliveLoop]
    split_ifs with huse
    · apply ih
      have hactive : l.InUse (some i) := by
        simp only [Bool.and_eq_true] at huse
        exact huse.1.1.1
      exact h.write hactive (Or.inr ⟨_, rfl⟩) (htakes (some i))
    · exact ih h

theorem Sound.keepaliveAll {random : SockId → Random} (due : Bool)
    (htakes : ∀ s, TakesWhole (accepts s) (keepAlive (random s))) (h : l.Sound) :
    (l.softetherSendKeepaliveAll due random accepts).Sound := by
  rw [softetherSendKeepaliveAll]
  split_ifs
  · exact h
  · exact (h.write l.inUse_primary (Or.inr ⟨_, rfl⟩) (htakes none)).keepaliveLoop htakes _
  · exact h.keepaliveLoop htakes _

theorem Sound.step {s : Step} (hclean : s.Clean) (h : l.Sound) : (s.run l).Sound := by
  obtain ⟨conn, hcap, call, accepts⟩ := s
  cases call with
  | send data rudp =>
    rw [Step.run]
    dsimp only
    split
    · rename_i b hb
      split_ifs
      · exact h
      · exact h.transmitBlock (softetherSend_isMessage hcap hb) (hclean b hb)
    · exact h
  | sendPacket malloc compress payload =>
    rw [Step.run]
    dsimp only
    split
    · rename_i b hb
      exact h.sendBuiltPacket (softetherSendPacket_isMessage hcap hb) (hclean b hb)
    · exact h
  | transmitBlock payload => exact h.transmitBlock (Or.inl ⟨payload, rfl⟩) hclean
  | keepalive r =>
    rw [Step.run]
    dsimp only
    rw [softetherSendKeepalive]
    split_ifs
    · exact h
    · exact h.write l.inUse_primary (Or.inr ⟨r, rfl⟩) hclean
  | keepaliveAll due random => exact h.keepaliveAll due hclean

theorem Sound.run {steps : List Step} (hclean : ∀ s ∈ steps, s.Clean) (h : l.Sound) :
    (steps.foldl Step.run l).Sound := by
  induction steps generalizing l with
  | nil => exact h
  | cons s steps ih =>
    apply ih
    · intro t ht
      exact hclean t (List.mem_cons_of_mem s ht)
    · exact h.step (hclean s List.mem_cons_self)

theorem Sound.fresh (h : ∀ s, l.written s = []) : l.Sound := by
  have hempty : ∀ s, Whole (l.written s) := by
    intro s
    rw [h s]
    exact ⟨[], by simp, rfl⟩
  exact ⟨fun s _ => hempty s, fun s => Or.inl (hempty s)⟩

theorem Sound.intact (h : l.Sound) (s : SockId) : l.Intact s := by
  have hbytes : ∀ ms : List Bytes, (ms.map Write.whole).flatMap Write.bytes = ms.flatten := by
    intro ms
    rw [List.flatMap_map]
    simp only [whole_bytes, List.flatMap_id']
  rcases h.cut s with ⟨ms, hms, hlog⟩ | ⟨log, w, ⟨ms, hms, rfl⟩, hw, hk, hlog⟩
  · refine ⟨ms, [], hms, by simp, by simp, by simpa using hlog, ?_⟩
    rw [accepted, hlog, hbytes, List.flatMap_nil, List.append_nil]
  · refine ⟨ms, [w], hms, le_rfl, ?_, hlog, ?_⟩
    · intro v hv
      rw [List.mem_singleton.mp hv]
      exact ⟨hw, hk⟩
    · rw [accepted, hlog, List.flatMap_append, hbytes]

end Links

/-- In a run of calls that cut no message except on an additional socket in
`softether_transmit_block_nolock`, every socket accepts whole messages and possibly a part of a
last one. -/
theorem sockets_intact (l : Links) (hfresh : ∀ s, l.written s = []) (steps : List Step)
    (hclean : ∀ step ∈ steps, step.Clean) (s : SockId) :
    (steps.foldl Step.run l).Intact s :=
  ((Links.Sound.fresh hfresh).run hclean).intact s

/-- A primary socket and one additional socket, both for both directions; the additional one is
the next to be sent on. -/
def twoSockets : Links where
  ssl := true
  fd := true
  primarySends := true
  additional i := ⟨i = 0, i = 0, i = 0, i = 0⟩
  sendRrIdx := 1
  written _ := []

/-- A call that finds a session with its staging buffer. -/
def callWith (call : Call) (accepts : SockId → ℕ) : Step where
  conn := compressingConn
  cap := by
    rintro buffer ⟨⟩
    exact stagingBuffer_cap
  call := call
  accepts := accepts

def emptyRandom : Random := ⟨[], by decide⟩

/-- The additional socket takes three bytes of a block, which then goes out on the primary one. -/
def failover : List Step :=
  [callWith (.transmitBlock [7]) (fun s => if s = none then 100 else 3),
    callWith (.keepaliveAll true fun _ => emptyRandom) fun _ => 100]

theorem sockets_intact_failover :
    (∀ step ∈ failover, step.Clean) ∧
      (failover.foldl Step.run twoSockets).accepted (some 0) = [0, 0, 0] ∧
        (failover.foldl Step.run twoSockets).accepted none = block [7] ++ keepAlive emptyRandom ∧
          ∀ s, (failover.foldl Step.run twoSockets).Intact s := by
  have hclean : ∀ step ∈ failover, step.Clean := by
    intro step hstep
    simp only [failover, List.mem_cons, List.not_mem_nil, or_false] at hstep
    rcases hstep with rfl | rfl
    · exact Or.inr (by decide)
    · intro s
      exact Or.inr (show (keepAlive emptyRandom).length ≤ 100 by decide)
  refine ⟨hclean, by decide +kernel, by decide +kernel, ?_⟩
  exact sockets_intact twoSockets (fun _ => rfl) failover hclean

/-- The primary socket takes one byte of a keepalive and stays in use. -/
def cutKeepalive : List Step :=
  [callWith (.keepaliveAll true fun _ => emptyRandom) (fun s => if s = none then 1 else 100),
    callWith (.transmitBlock [8]) fun _ => 100,
    callWith (.transmitBlock [7]) fun _ => 100]

/-- The block that follows the cut keepalive is sent behind its first byte. -/
theorem cutKeepalive_continued :
    (cutKeepalive.foldl Step.run twoSockets).accepted none = [0xFF] ++ block [7] ∧
      ¬(cutKeepalive.foldl Step.run twoSockets).Intact none := by
  have hlog : (cutKeepalive.foldl Step.run twoSockets).written none =
      [⟨keepAlive emptyRandom, 1⟩, Write.whole (block [7])] := by
    decide +kernel
  constructor
  · rw [Links.accepted, hlog]
    decide
  · rintro ⟨whole, cut, -, hcut, -, hwritten, -⟩
    rw [hlog] at hwritten
    cases whole with
    | nil =>
      rw [← hwritten.trans (List.nil_append cut)] at hcut
      exact absurd hcut (by decide)
    | cons m whole =>
      have hm := congrArg Write.message (List.cons.inj hwritten).1
      have hn := congrArg Write.accepted (List.cons.inj hwritten).1
      change keepAlive emptyRandom = m at hm
      change 1 = m.length at hn
      rw [← hm] at hn
      exact absurd hn (by decide)

end SoftEtherVpn.Packet

import SoftEtherVpn.Receive.Single
import SoftEtherVpn.Dhcp.Exchange
import SoftEtherVpn.Packet.SendPaths

/-!
# Resolving the gateway's hardware address

`softether_resolve_gateway` asks for the owner of an address and takes frames out of the receive
queue until one of them is a reply of that owner: forty calls of `softether_receive_raw`, then the
request again, three times. Every other frame that comes meanwhile is dropped. What the calls
deliver is a parameter.
-/

namespace SoftEtherVpn.Arp

open Foundation
open Receive (byteAt)
open Packet (Mac)
open Dhcp (Delivery)

def arpAttempts : ℕ := 3
def callsPerAttempt : ℕ := 40
def idleSleepMs : ℕ := 50

/-- The part of a session that the resolution uses. -/
structure Conn where
  clientMac : Mac
  assignedIp : UInt32
  gatewayIp : UInt32
  gatewayMac : Mac
  gatewayMacResolved : Bool
  deriving DecidableEq

def arpRequest (conn : Conn) (targetIp : UInt32) : Bytes :=
  List.replicate 6 0xFF ++ conn.clientMac.1 ++ [0x08, 0x06] ++ [0x00, 0x01] ++ [0x08, 0x00] ++
    [6, 4] ++ [0x00, 0x01] ++ conn.clientMac.1 ++ bytesBE 4 conn.assignedIp.toNat ++
    List.replicate 6 0 ++ bytesBE 4 targetIp.toNat

theorem senderMac_length {frame : Bytes} (h : 42 ≤ frame.length) :
    ((frame.drop 22).take 6).length = 6 := by
  rw [List.length_take, List.length_drop]
  omega

/-- The hardware address in a reply of the owner of `ip`. -/
def arpReplyFrom (ip : UInt32) (frame : Bytes) : Option Mac :=
  if h : 42 ≤ frame.length then
    if byteAt frame 12 = 0x08 ∧ byteAt frame 13 = 0x06 ∧
        byteAt frame 20 = 0x00 ∧ byteAt frame 21 = 0x02 then
      if natBE ((frame.drop 28).take 4) = ip.toNat then
        some ⟨(frame.drop 22).take 6, senderMac_length h⟩
      else none
    else none
  else none

/-- What a call of `softether_receive_raw` makes of the wait. -/
def answerIn (ip : UInt32) : Delivery → Option Mac
  | .frame f => arpReplyFrom ip f.1
  | .idle => none
  | .failed => none

def sleepAfter : Delivery → ℕ
  | .idle => idleSleepMs
  | .frame _ => 0
  | .failed => 0

/-- The calls made so far, how long the wait has slept, and the requests sent. -/
structure Wait where
  calls : ℕ
  sleptMs : ℕ
  sent : List Bytes
  deriving DecidableEq

/-- The inner loop, with so many calls left. -/
def attemptLoop (ip : UInt32) (deliver : ℕ → Delivery) : ℕ → Wait → Option Mac × Wait
  | 0, w => (none, w)
  | rounds + 1, w =>
    match answerIn ip (deliver w.calls) with
    | some mac => (some mac, { w with calls := w.calls + 1 })
    | none =>
      attemptLoop ip deliver rounds
        { w with calls := w.calls + 1, sleptMs := w.sleptMs + sleepAfter (deliver w.calls) }

/-- The outer loop; the request goes out again after every attempt, also after the last. -/
def attemptsLoop (request : Bytes) (ip : UInt32) (deliver : ℕ → Delivery) :
    ℕ → Wait → Option Mac × Wait
  | 0, w => (none, w)
  | attempts + 1, w =>
    match attemptLoop ip deliver callsPerAttempt w with
    | (some mac, w) => (some mac, w)
    | (none, w) =>
      attemptsLoop request ip deliver attempts { w with sent := w.sent ++ [request] }

structure Resolution where
  code : ℤ
  conn : Conn
  wait : Wait
  deriving DecidableEq

def softetherResolveGateway (connected : Bool) (conn : Conn) (gatewayIp : UInt32)
    (deliver : ℕ → Delivery) : Resolution :=
  if connected = false then ⟨-1, conn, ⟨0, 0, []⟩⟩
  else
    let conn := { conn with gatewayIp := gatewayIp }
    let request := arpRequest conn gatewayIp
    match attemptsLoop request gatewayIp deliver arpAttempts ⟨0, 0, [request]⟩ with
    | (some mac, w) => ⟨0, { conn with gatewayMac := mac, gatewayMacResolved := true }, w⟩
    | (none, w) => ⟨-1, conn, w⟩

/-- The session as `softether_send` sees it. -/
def Conn.sends (conn : Conn) (sendBlock : Option Bytes) (serverUseCompress : ℕ) :
    Packet.SendConn where
  sendBlock := sendBlock
  serverUseCompress := serverUseCompress
  gatewayMacResolved := conn.gatewayMacResolved
  gatewayMac := conn.gatewayMac
  clientMac := conn.clientMac

/-- The session as the receiving calls see it. -/
def Conn.receives (conn : Conn) : Receive.Conn := ⟨conn.assignedIp.toNat, conn.clientMac.1⟩

/-! ## The loops -/

section Loops

variable {request : Bytes} {ip : UInt32} {deliver : ℕ → Delivery} {w : Wait} {n k : ℕ} {mac : Mac}

def sleptIn (deliver : ℕ → Delivery) (first n : ℕ) : ℕ :=
  ((List.range n).map fun i => sleepAfter (deliver (first + i))).sum

theorem sleptIn_succ (deliver : ℕ → Delivery) (first n : ℕ) :
    sleptIn deliver first (n + 1) =
      sleepAfter (deliver first) + sleptIn deliver (first + 1) n := by
  rw [sleptIn, List.range_succ_eq_map, List.map_cons, List.sum_cons, List.map_map, sleptIn]
  congr 3
  funext i
  rw [Function.comp_apply, Nat.succ_eq_add_one, show first + (i + 1) = first + 1 + i by omega]

theorem sleptIn_add (deliver : ℕ → Delivery) (first m n : ℕ) :
    sleptIn deliver first (m + n) = sleptIn deliver first m + sleptIn deliver (first + m) n := by
  induction m generalizing first with
  | zero => simp [sleptIn]
  | succ m ih =>
    rw [show m + 1 + n = (m + n) + 1 by omega, sleptIn_succ, ih, sleptIn_succ, add_assoc, add_assoc,
      add_comm 1 m]

/-- An attempt without an answer. -/
theorem attemptLoop_silent (h : ∀ i < n, answerIn ip (deliver (w.calls + i)) = none) :
    attemptLoop ip deliver n w =
      (none, { w with calls := w.calls + n, sleptMs := w.sleptMs + sleptIn deliver w.calls n }) := by
  induction n generalizing w with
  | zero => simp [attemptLoop, sleptIn]
  | succ n ih =>
    have hfirst : answerIn ip (deliver w.calls) = none := h 0 (Nat.succ_pos n)
    rw [attemptLoop, hfirst]
    dsimp only
    rw [ih]
    · rw [sleptIn_succ]
      simp only [add_assoc, add_comm 1 n]
    · intro i hi
      have hnext := h (i + 1) (by omega)
      rwa [show w.calls + (i + 1) = w.calls + 1 + i by omega] at hnext

/-- An attempt that finds its first answer at call `k`. -/
theorem attemptLoop_answered (hk : k < n)
    (hbefore : ∀ i < k, answerIn ip (deliver (w.calls + i)) = none)
    (hanswer : answerIn ip (deliver (w.calls + k)) = some mac) :
    attemptLoop ip deliver n w =
      (some mac, { w with
        calls := w.calls + k + 1
        sleptMs := w.sleptMs + sleptIn deliver w.calls k }) := by
  induction k generalizing n w with
  | zero =>
    obtain ⟨n, rfl⟩ := Nat.exists_eq_succ_of_ne_zero (show n ≠ 0 by omega)
    rw [Nat.add_zero] at hanswer
    rw [attemptLoop, hanswer]
    simp [sleptIn]
  | succ k ih =>
    obtain ⟨n, rfl⟩ := Nat.exists_eq_succ_of_ne_zero (show n ≠ 0 by omega)
    have hfirst : answerIn ip (deliver w.calls) = none := hbefore 0 (Nat.succ_pos k)
    rw [attemptLoop, hfirst]
    dsimp only
    rw [ih (by omega)]
    · rw [sleptIn_succ]
      simp only [add_assoc, add_comm 1 k]
    · intro i hi
      have hnext := hbefore (i + 1) (by omega)
      rwa [show w.calls + (i + 1) = w.calls + 1 + i by omega] at hnext
    · rwa [show w.calls + (k + 1) = w.calls + 1 + k by omega] at hanswer

/-- No attempt finds an answer. -/
theorem attemptsLoop_silent
    (h : ∀ i < callsPerAttempt * n, answerIn ip (deliver (w.calls + i)) = none) :
    attemptsLoop request ip deliver n w =
      (none, ⟨w.calls + callsPerAttempt * n,
        w.sleptMs + sleptIn deliver w.calls (callsPerAttempt * n),
        w.sent ++ List.replicate n request⟩) := by
  induction n generalizing w with
  | zero => simp [attemptsLoop, sleptIn]
  | succ n ih =>
    have hattempt : ∀ i < callsPerAttempt, answerIn ip (deliver (w.calls + i)) = none := by
      intro i hi
      exact h i (by rw [Nat.mul_succ]; omega)
    rw [attemptsLoop, attemptLoop_silent hattempt]
    dsimp only
    rw [ih]
    · rw [show callsPerAttempt * (n + 1) = callsPerAttempt + callsPerAttempt * n by ring,
        sleptIn_add, List.replicate_succ]
      simp only [add_assoc, List.append_assoc, List.singleton_append]
    · intro i hi
      have hnext := h (callsPerAttempt + i) (by rw [Nat.mul_succ]; omega)
      rwa [← add_assoc] at hnext

/-- The first answer is that of call `k`; the requests sent until then are those of the attempts
that end before it. -/
theorem attemptsLoop_answered (hk : k < callsPerAttempt * n)
    (hbefore : ∀ i < k, answerIn ip (deliver (w.calls + i)) = none)
    (hanswer : answerIn ip (deliver (w.calls + k)) = some mac) :
    attemptsLoop request ip deliver n w =
      (some mac, ⟨w.calls + k + 1, w.sleptMs + sleptIn deliver w.calls k,
        w.sent ++ List.replicate (k / callsPerAttempt) request⟩) := by
  have hpos : 0 < callsPerAttempt := by decide
  induction n generalizing w k with
  | zero => omega
  | succ n ih =>
    rw [attemptsLoop]
    by_cases hhere : k < callsPerAttempt
    · rw [attemptLoop_answered hhere hbefore hanswer, Nat.div_eq_of_lt hhere]
      simp
    · obtain ⟨j, rfl⟩ := Nat.exists_eq_add_of_le (not_lt.mp hhere)
      have hattempt : ∀ i < callsPerAttempt, answerIn ip (deliver (w.calls + i)) = none := by
        intro i hi
        exact hbefore i (by omega)
      rw [Nat.mul_succ] at hk
      rw [attemptLoop_silent hattempt]
      dsimp only
      rw [ih (k := j) (by omega)]
      · rw [sleptIn_add, Nat.add_div_left _ hpos, List.replicate_succ]
        simp only [add_assoc, List.append_assoc, List.singleton_append]
      · intro i hi
        have hnext := hbefore (callsPerAttempt + i) (by omega)
        rwa [← add_assoc] at hnext
      · rwa [← add_assoc] at hanswer

end Loops

theorem findSome?_range_eq_some_iff {α : Type} (f : ℕ → Option α) (n : ℕ) (a : α) :
    (List.range n).findSome? f = some a ↔ ∃ k < n, f k = some a ∧ ∀ i < k, f i = none := by
  induction n with
  | zero => simp
  | succ n ih =>
    rw [List.range_succ, List.findSome?_append, List.findSome?_singleton]
    cases hn : (List.range n).findSome? f with
    | some b =>
      rw [hn] at ih
      rw [Option.some_or, ih]
      constructor
      · rintro ⟨k, hk, hfirst⟩
        exact ⟨k, by omega, hfirst⟩
      · rintro ⟨k, hk, ha, hbefore⟩
        obtain ⟨j, hj, hfj⟩ := List.exists_of_findSome?_eq_some hn
        have hkn : k ≠ n := by
          rintro rfl
          rw [hbefore j (List.mem_range.mp hj)] at hfj
          cases hfj
        exact ⟨k, by omega, ha, hbefore⟩
    | none =>
      rw [List.findSome?_eq_none_iff] at hn
      rw [Option.none_or]
      constructor
      · intro ha
        exact ⟨n, Nat.lt_succ_self n, ha, fun i hi => hn i (List.mem_range.mpr hi)⟩
      · rintro ⟨k, hk, ha, -⟩
        have hkn : k = n := by
          by_contra hne
          rw [hn k (List.mem_range.mpr (by omega))] at ha
          cases ha
        rw [← hkn]
        exact ha

def maxCalls : ℕ := callsPerAttempt * arpAttempts

/-- The first answer among the deliveries of a resolution. -/
def firstAnswer (ip : UInt32) (deliver : ℕ → Delivery) : Option Mac :=
  (List.range maxCalls).findSome? fun i => answerIn ip (deliver i)

theorem firstAnswer_eq_none {ip : UInt32} {deliver : ℕ → Delivery} :
    firstAnswer ip deliver = none ↔ ∀ i < maxCalls, answerIn ip (deliver i) = none := by
  simp [firstAnswer]

theorem firstAnswer_eq_some {ip : UInt32} {deliver : ℕ → Delivery} {mac : Mac} :
    firstAnswer ip deliver = some mac ↔ ∃ k < maxCalls, answerIn ip (deliver k) = some mac ∧
      ∀ i < k, answerIn ip (deliver i) = none :=
  findSome?_range_eq_some_iff _ _ _

/-! ## One resolution -/

section Resolve

variable (conn : Conn) (ip : UInt32) (deliver : ℕ → Delivery)

def Conn.asked : Conn := { conn with gatewayIp := ip }

def Conn.resolved (mac : Mac) : Conn :=
  { conn with gatewayIp := ip, gatewayMac := mac, gatewayMacResolved := true }

theorem softetherResolveGateway_connected :
    softetherResolveGateway true conn ip deliver =
      match attemptsLoop (arpRequest conn ip) ip deliver arpAttempts
        ⟨0, 0, [arpRequest conn ip]⟩ with
      | (some mac, w) => ⟨0, conn.resolved ip mac, w⟩
      | (none, w) => ⟨-1, conn.asked ip, w⟩ := rfl

theorem softetherResolveGateway_silent (h : ∀ i < maxCalls, answerIn ip (deliver i) = none) :
    softetherResolveGateway true conn ip deliver =
      ⟨-1, conn.asked ip, ⟨maxCalls, sleptIn deliver 0 maxCalls,
        List.replicate (arpAttempts + 1) (arpRequest conn ip)⟩⟩ := by
  have hloop := @attemptsLoop_silent (arpRequest conn ip) ip deliver ⟨0, 0, [arpRequest conn ip]⟩
    arpAttempts
  simp only [Nat.zero_add, List.singleton_append] at hloop
  rw [softetherResolveGateway_connected, hloop h, List.replicate_succ]
  rfl

theorem softetherResolveGateway_answered {k : ℕ} {mac : Mac} (hk : k < maxCalls)
    (hanswer : answerIn ip (deliver k) = some mac)
    (hbefore : ∀ i < k, answerIn ip (deliver i) = none) :
    softetherResolveGateway true conn ip deliver =
      ⟨0, conn.resolved ip mac, ⟨k + 1, sleptIn deliver 0 k,
        List.replicate (k / callsPerAttempt + 1) (arpRequest conn ip)⟩⟩ := by
  have hloop := @attemptsLoop_answered (arpRequest conn ip) ip deliver
    ⟨0, 0, [arpRequest conn ip]⟩ arpAttempts k mac hk
  simp only [Nat.zero_add, List.singleton_append] at hloop
  rw [softetherResolveGateway_connected, hloop hbefore hanswer, List.replicate_succ]

/-- The answer that counts is the first one. -/
theorem softetherResolveGateway_conn (connected : Bool) :
    (softetherResolveGateway connected conn ip deliver).conn =
      if connected then ((firstAnswer ip deliver).map (conn.resolved ip)).getD (conn.asked ip)
      else conn := by
  cases connected with
  | false => rfl
  | true =>
    rw [if_pos rfl]
    cases hfirst : firstAnswer ip deliver with
    | none =>
      rw [softetherResolveGateway_silent conn ip deliver (firstAnswer_eq_none.mp hfirst)]
      rfl
    | some mac =>
      obtain ⟨k, hk, hanswer, hbefore⟩ := firstAnswer_eq_some.mp hfirst
      rw [softetherResolveGateway_answered conn ip deliver hk hanswer hbefore]
      rfl

end Resolve

/-! ## The resolutions of a session -/

/-- A call of `softether_resolve_gateway`. -/
structure Ask where
  connected : Bool
  ip : UInt32
  deliver : ℕ → Delivery

def Ask.run (conn : Conn) (a : Ask) : Conn :=
  (softetherResolveGateway a.connected conn a.ip a.deliver).conn

def Ask.answer (a : Ask) : Option Mac := if a.connected then firstAnswer a.ip a.deliver else none

theorem Ask.code_ne_zero_iff (a : Ask) (conn : Conn) :
    (softetherResolveGateway a.connected conn a.ip a.deliver).code ≠ 0 ↔
      a.answer.isNone = true := by
  rw [Ask.answer]
  cases hconnected : a.connected with
  | false => exact iff_of_true (show (-1 : ℤ) ≠ 0 by decide) rfl
  | true =>
    rw [if_pos rfl]
    cases hfirst : firstAnswer a.ip a.deliver with
    | none =>
      rw [softetherResolveGateway_silent conn a.ip a.deliver (firstAnswer_eq_none.mp hfirst)]
      exact iff_of_true (show (-1 : ℤ) ≠ 0 by decide) rfl
    | some mac =>
      obtain ⟨k, hk, hanswer, hbefore⟩ := firstAnswer_eq_some.mp hfirst
      rw [softetherResolveGateway_answered conn a.ip a.deliver hk hanswer hbefore]
      exact iff_of_false (fun h => h rfl) (by simp)

theorem Ask.run_assignedIp (a : Ask) (conn : Conn) :
    (a.run conn).assignedIp = conn.assignedIp := by
  rw [Ask.run, softetherResolveGateway_conn]
  cases a.connected with
  | false => rfl
  | true =>
    rw [if_pos rfl]
    cases firstAnswer a.ip a.deliver <;> rfl

theorem Ask.run_dstMac (a : Ask) (conn : Conn) (sendBlock : Option Bytes) (useCompress : ℕ) :
    ((a.run conn).sends sendBlock useCompress).dstMac =
      a.answer.getD (conn.sends sendBlock useCompress).dstMac := by
  rw [Ask.run, softetherResolveGateway_conn, Ask.answer]
  cases a.connected with
  | false => rfl
  | true =>
    rw [if_pos rfl, if_pos rfl]
    cases firstAnswer a.ip a.deliver <;> rfl

/-- After any resolutions a data frame goes to the owner that the last successful one found; one
that finds no answer changes nothing about it, and before the first it is the broadcast. -/
theorem Conn.dstMac_run (conn : Conn) (asks : List Ask) (sendBlock : Option Bytes)
    (useCompress : ℕ) :
    ((asks.foldl Ask.run conn).sends sendBlock useCompress).dstMac =
      (asks.filterMap Ask.answer).getLast?.getD (conn.sends sendBlock useCompress).dstMac := by
  induction asks generalizing conn with
  | nil => rfl
  | cons a asks ih =>
    rw [List.foldl_cons, ih, a.run_dstMac]
    cases ha : a.answer with
    | none => rw [List.filterMap_cons_none ha, Option.getD_none]
    | some mac =>
      rw [List.filterMap_cons_some ha, Option.getD_some, List.getLast?_cons, Option.getD_some]

/-- The whole of one resolution: it takes the first reply of the owner of the address among the
first 120 deliveries; until then it has sent the request at the start and after every 40 calls, and
has slept after every call that delivered nothing. Without such a reply it has sent the request
four times and learned nothing. -/
theorem softetherResolveGateway_outcome (conn : Conn) (ip : UInt32) (deliver : ℕ → Delivery) :
    (∀ k < maxCalls, ∀ mac, answerIn ip (deliver k) = some mac →
      (∀ i < k, answerIn ip (deliver i) = none) →
        softetherResolveGateway true conn ip deliver =
          ⟨0, conn.resolved ip mac, ⟨k + 1, sleptIn deliver 0 k,
            List.replicate (k / callsPerAttempt + 1) (arpRequest conn ip)⟩⟩) ∧
      ((∀ i < maxCalls, answerIn ip (deliver i) = none) →
        softetherResolveGateway true conn ip deliver =
          ⟨-1, conn.asked ip, ⟨maxCalls, sleptIn deliver 0 maxCalls,
            List.replicate (arpAttempts + 1) (arpRequest conn ip)⟩⟩) :=
  ⟨fun _ hk _ hanswer hbefore => softetherResolveGateway_answered conn ip deliver hk hanswer hbefore,
    softetherResolveGateway_silent conn ip deliver⟩

/-! ## The owner that is asked -/

theorem slice_append {pre x post : Bytes} {i n : ℕ} (hi : pre.length = i) (hn : x.length = n) :
    ((pre ++ (x ++ post)).drop i).take n = x := by
  rw [List.drop_left' hi, List.take_left' hn]

theorem byteAt_append {pre post : Bytes} {i : ℕ} (hi : pre.length = i) (j : ℕ) :
    byteAt (pre ++ post) (i + j) = byteAt post j := by
  rw [byteAt, byteAt, List.getD_eq_getElem?_getD, List.getD_eq_getElem?_getD,
    List.getElem?_append_right (by omega), ← hi, Nat.add_sub_cancel_left]

/-- An ARP packet with its Ethernet header; `op` is 1 for a request and 2 for a reply. -/
def arpPacket (dst src : Mac) (op : UInt8) (senderIp : UInt32) (target : Mac)
    (targetIp : UInt32) : Bytes :=
  dst.1 ++ (src.1 ++ ([0x08, 0x06, 0x00, 0x01, 0x08, 0x00, 6, 4, 0x00, op] ++ (src.1 ++
    (bytesBE 4 senderIp.toNat ++ (target.1 ++ (bytesBE 4 targetIp.toNat ++ []))))))

section Packet

variable (dst src : Mac) (op : UInt8) (senderIp : UInt32) (target : Mac) (targetIp : UInt32)

theorem arpPacket_length : (arpPacket dst src op senderIp target targetIp).length = 42 := by
  simp [arpPacket, dst.2, src.2, target.2]

theorem arpPacket_byteAt (j : ℕ) :
    byteAt (arpPacket dst src op senderIp target targetIp) (12 + j) =
      byteAt ([0x08, 0x06, 0x00, 0x01, 0x08, 0x00, 6, 4, 0x00, op] ++ (src.1 ++
        (bytesBE 4 senderIp.toNat ++ (target.1 ++ (bytesBE 4 targetIp.toNat ++ []))))) j := by
  rw [arpPacket, ← List.append_assoc]
  exact byteAt_append (by rw [List.length_append, dst.2, src.2]) j

theorem arpPacket_kind :
    byteAt (arpPacket dst src op senderIp target targetIp) 12 = 0x08 ∧
      byteAt (arpPacket dst src op senderIp target targetIp) 13 = 0x06 ∧
        byteAt (arpPacket dst src op senderIp target targetIp) 20 = 0x00 ∧
          byteAt (arpPacket dst src op senderIp target targetIp) 21 = op :=
  ⟨arpPacket_byteAt dst src op senderIp target targetIp 0,
    arpPacket_byteAt dst src op senderIp target targetIp 1,
    arpPacket_byteAt dst src op senderIp target targetIp 8,
    arpPacket_byteAt dst src op senderIp target targetIp 9⟩

/-- The source, the sender and the target in a packet. -/
theorem arpPacket_slices :
    ((arpPacket dst src op senderIp target targetIp).drop 6).take 6 = src.1 ∧
      ((arpPacket dst src op senderIp target targetIp).drop 22).take 6 = src.1 ∧
        ((arpPacket dst src op senderIp target targetIp).drop 28).take 4 =
          bytesBE 4 senderIp.toNat ∧
          ((arpPacket dst src op senderIp target targetIp).drop 38).take 4 =
            bytesBE 4 targetIp.toNat := by
  have hsrc := src.2
  have hdst := dst.2
  have htarget := target.2
  refine ⟨slice_append hdst hsrc, ?_, ?_, ?_⟩
  · rw [arpPacket, ← List.append_assoc, ← List.append_assoc]
    exact slice_append (by simp [hsrc, hdst]) hsrc
  · rw [arpPacket, ← List.append_assoc, ← List.append_assoc, ← List.append_assoc]
    exact slice_append (by simp [hsrc, hdst]) (bytesBE_length 4 _)
  · rw [arpPacket, ← List.append_assoc, ← List.append_assoc, ← List.append_assoc,
      ← List.append_assoc, ← List.append_assoc]
    exact slice_append (by simp [hsrc, hdst, htarget]) (bytesBE_length 4 _)

end Packet

def zeroMac : Mac := ⟨List.replicate 6 0, rfl⟩

theorem arpRequest_eq (conn : Conn) (ip : UInt32) :
    arpRequest conn ip =
      arpPacket Packet.broadcastMac conn.clientMac 1 conn.assignedIp zeroMac ip := by
  simp only [arpRequest, arpPacket, List.append_assoc, List.append_nil]
  rfl

theorem natBE_toNat (ip : UInt32) : natBE (bytesBE 4 ip.toNat) = ip.toNat :=
  natBE_bytesBE_of_lt ip.toNat_lt

/-- A session answers the requests for its own address and no others. -/
theorem softetherReplyArpRequest_arpRequest (a b : Conn) (ip : UInt32) :
    Receive.softetherReplyArpRequest b.receives (arpRequest a ip) =
      if b.assignedIp = ip ∧ ip ≠ 0 then
        some (arpPacket a.clientMac b.clientMac 2 b.assignedIp a.clientMac a.assignedIp)
      else none := by
  obtain ⟨-, -, hop, hop'⟩ := arpPacket_kind Packet.broadcastMac a.clientMac 1 a.assignedIp zeroMac ip
  obtain ⟨hsrc, hsender, hsenderIp, htarget⟩ :=
    arpPacket_slices Packet.broadcastMac a.clientMac 1 a.assignedIp zeroMac ip
  rw [arpRequest_eq, Receive.softetherReplyArpRequest, hop, hop', hsrc, hsender, hsenderIp, htarget,
    natBE_toNat]
  have hzero : b.receives.assignedIp ≠ 0 ↔ b.assignedIp ≠ 0 := by
    rw [Ne, Ne, ← UInt32.toNat_inj]
    rfl
  have hsame : ip.toNat = b.receives.assignedIp ↔ b.assignedIp = ip := by
    rw [eq_comm, ← UInt32.toNat_inj]
    rfl
  simp only [hzero, Ne, hsame, true_and]
  by_cases hip : b.assignedIp = ip
  · subst hip
    by_cases h0 : b.assignedIp = 0
    · simp [h0]
    · simp [h0, arpPacket, Conn.receives]
  · simp [hip]

theorem arpReplyFrom_arpPacket (dst src target : Mac) (senderIp targetIp ip : UInt32) :
    arpReplyFrom ip (arpPacket dst src 2 senderIp target targetIp) =
      if senderIp = ip then some src else none := by
  obtain ⟨h12, h13, h20, h21⟩ := arpPacket_kind dst src 2 senderIp target targetIp
  obtain ⟨-, hsender, hsenderIp, -⟩ := arpPacket_slices dst src 2 senderIp target targetIp
  rw [arpReplyFrom, dif_pos (arpPacket_length dst src 2 senderIp target targetIp).ge,
    if_pos ⟨h12, h13, h20, h21⟩, hsenderIp, natBE_toNat]
  simp only [UInt32.toNat_inj, hsender]

/-- A session that asks for the address of another one gets that session's hardware address from
its reply, if no other frame claims the address, and sends it its data frames from then on. -/
theorem softetherResolveGateway_owner (a b : Conn) (ip : UInt32) (deliver : ℕ → Delivery)
    (hreply : ∃ k < maxCalls, ∃ f : Dhcp.Frame, deliver k = .frame f ∧
      Receive.softetherReplyArpRequest b.receives (arpRequest a ip) = some f.1)
    (hothers : ∀ i < maxCalls, ∀ mac, answerIn ip (deliver i) = some mac → mac = b.clientMac) :
    b.assignedIp = ip ∧ (softetherResolveGateway true a ip deliver).code = 0 ∧
      (softetherResolveGateway true a ip deliver).conn = a.resolved ip b.clientMac ∧
        ∀ sendBlock useCompress data,
          (((softetherResolveGateway true a ip deliver).conn.sends sendBlock useCompress).ethFrame
            data).take 12 = b.clientMac.1 ++ a.clientMac.1 := by
  obtain ⟨k, hk, f, hdeliver, hframe⟩ := hreply
  rw [softetherReplyArpRequest_arpRequest] at hframe
  split_ifs at hframe with hown
  have hanswer : answerIn ip (deliver k) = some b.clientMac := by
    rw [hdeliver, answerIn, ← Option.some.inj hframe, arpReplyFrom_arpPacket, if_pos hown.1]
  obtain ⟨mac, hfirst⟩ : ∃ mac, firstAnswer ip deliver = some mac := by
    rw [← Option.ne_none_iff_exists']
    intro hnone
    rw [firstAnswer_eq_none.mp hnone k hk] at hanswer
    cases hanswer
  obtain ⟨j, hj, hjanswer, hbefore⟩ := firstAnswer_eq_some.mp hfirst
  obtain rfl := hothers j hj mac hjanswer
  rw [softetherResolveGateway_answered a ip deliver hj hjanswer hbefore]
  refine ⟨hown.1, rfl, rfl, ?_⟩
  intro sendBlock useCompress data
  have hlength : (b.clientMac.1 ++ a.clientMac.1).length = 12 := by
    rw [List.length_append, a.clientMac.2, b.clientMac.2]
  rw [Packet.SendConn.ethFrame, List.append_assoc]
  exact List.take_left' hlength

def phone : Conn := ⟨⟨[0x5E, 0, 0, 0, 0, 1], rfl⟩, 0xC0A80002, 0, zeroMac, false⟩

def router : Conn := ⟨⟨[0x5E, 0, 0, 0, 0, 9], rfl⟩, 0xC0A80001, 0, zeroMac, false⟩

def routerReply : Dhcp.Frame :=
  ⟨arpPacket phone.clientMac router.clientMac 2 router.assignedIp phone.clientMac phone.assignedIp,
    (arpPacket_length _ _ _ _ _ _).le.trans (by decide)⟩

/-- The reply of the router comes with the second call. -/
def secondCall (i : ℕ) : Delivery := if i = 1 then .frame routerReply else .idle

theorem softetherResolveGateway_owner_router :
    (softetherResolveGateway true phone 0xC0A80001 secondCall).conn =
      phone.resolved 0xC0A80001 router.clientMac := by
  have hreply : Receive.softetherReplyArpRequest router.receives (arpRequest phone 0xC0A80001) =
      some routerReply.1 := by
    rw [softetherReplyArpRequest_arpRequest, if_pos (by decide)]
    rfl
  have hothers : ∀ i < maxCalls, ∀ mac, answerIn 0xC0A80001 (secondCall i) = some mac →
      mac = router.clientMac := by
    intro i _ mac hmac
    by_cases hi : i = 1
    · rw [secondCall, if_pos hi, answerIn, routerReply, arpReplyFrom_arpPacket,
        if_pos (by decide)] at hmac
      exact (Option.some.inj hmac).symm
    · rw [secondCall, if_neg hi] at hmac
      cases hmac
  exact (softetherResolveGateway_owner phone router 0xC0A80001 secondCall
    ⟨1, by decide, routerReply, rfl, hreply⟩ hothers).2.2.1

end SoftEtherVpn.Arp

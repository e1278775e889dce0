import SoftEtherVpn.Foundation.Sha1
import SoftEtherVpn.Net.Ipv4
import SoftEtherVpn.Pack.Builder

/-!
# The NAT-T rendezvous

`nat_t_connect` asks a relay for the UDP address of a server. Every pass of its loop reads the
clock and the cancel flag, takes the datagrams that have arrived and sends the request when it is
due. Whatever the passes do to the cookie and the requests, the call ends with the first datagram
that decides: one of the relay that carries the transaction and a verdict.
-/

namespace SoftEtherVpn.NatT

open Foundation Pack Net

def natTPort : ℕ := 5004
def natTDefaultTimeoutMs : ℕ := 12000
def natTConnectInterval : ℕ := 200
def natTMaxBackoffExp : ℕ := 6
def natTRespBufSize : ℕ := 4096
def natTTraversalVersion : UInt32 := 1
def natTSvcName : CString := ⟨ascii "SoftEther_VPN", by decide⟩

def cookieName : CString := ⟨ascii "cookie", by decide⟩
def tranIdName : CString := ⟨ascii "tran_id", by decide⟩
def opcodeName : CString := ⟨ascii "opcode", by decide⟩
def multiCandidatesName : CString := ⟨ascii "multi_candidates", by decide⟩
def resultIpName : CString := ⟨ascii "result_ip", by decide⟩
def resultPortName : CString := ⟨ascii "result_port", by decide⟩
def sameLanName : CString := ⟨ascii "same_lan", by decide⟩
def destIpName : CString := ⟨ascii "dest_ip", by decide⟩
def svcNameName : CString := ⟨ascii "svc_name", by decide⟩
def versionName : CString := ⟨ascii "nat_traversal_version", by decide⟩
def connectRequest : CString := ⟨ascii "nat_t_connect_request", by decide⟩

/-- `NAT_T_ERR_*`. -/
inductive NatTError
  | ok
  | unknown
  | timeout
  | getipFailed
  | noResponse
  | twoOrMore
  | notFound
  deriving DecidableEq

/-- `softether_nat_t_result_t`. -/
structure NatTResult where
  resultIp : InAddr
  resultPort : ℕ
  sameLan : ℤ
  udpFd : ℤ
  errorCode : NatTError
  deriving DecidableEq

/-- The result that `nat_t_connect` starts with. -/
def NatTResult.cleared : NatTResult := ⟨inaddrAny, 0, 0, -1, .unknown⟩

/-- The bytes that `recvfrom` leaves in the buffer of `nat_t_connect`. -/
abbrev Response := { b : Buffer // b.Roomy ∧ b.body.length ≤ natTRespBufSize }

def Response.int (r : Response) (name : CString) : Option ℕ :=
  (packGetInt r.1 name).toOption.map Prod.fst

def Response.int64 (r : Response) (name : CString) : Option ℕ :=
  (packGetInt64 r.1 name).toOption.map Prod.fst

/-- `pack_get_str` into a buffer of `outSize` bytes, read as a C string. -/
def Response.str (r : Response) (name : CString) (outSize : ℕ) : Option Bytes :=
  (packGetStr r.1 name outSize).toOption.map fun s => cString s.1

/-- `nat_t_parse_response`: the return value, the cookie and the result. -/
def natTParseResponse (buf : Response) (tranId currentCookie : ℕ) (result : NatTResult) :
    ℤ × ℕ × NatTResult :=
  let cookie := (buf.int64 cookieName).getD 0
  let currentCookie := if cookie ≠ 0 then cookie else currentCookie
  if buf.int64 tranIdName ≠ some tranId then (0, currentCookie, result)
  else if buf.str opcodeName 64 ≠ some connectRequest.1 then (0, currentCookie, result)
  else
    let ok := (buf.int okName).getD 0
    let multiCandidates := (buf.int multiCandidatesName).getD 0
    if ok ≠ 0 then
      if multiCandidates ≠ 0 then (-1, currentCookie, { result with errorCode := .twoOrMore })
      else
        match buf.str resultIpName 16 with
        | none => (0, currentCookie, result)
        | some resultIpStr =>
          match buf.int resultPortName with
          | none => (0, currentCookie, result)
          | some resultPort =>
            if resultPort = 0 ∨ resultPort > 65535 then (0, currentCookie, result)
            else
              match inetPton resultIpStr with
              | none => (0, currentCookie, result)
              | some a =>
                if a = inaddrAny then (0, currentCookie, result)
                else
                  (1, currentCookie,
                    { result with
                      resultIp := a
                      resultPort := resultPort
                      sameLan := int32 ((buf.int sameLanName).getD 0)
                      errorCode := .ok })
    else
      (-1, currentCookie,
        { result with errorCode := if multiCandidates ≠ 0 then .twoOrMore else .notFound })

/-- A datagram with its sender; `inet` says that the sender's family is `AF_INET`. -/
structure Datagram where
  inet : Bool
  ip : InAddr
  port : ℕ
  buf : Response

/-- A request that was handed to `sendto`; no bytes if `pack_new` found no memory. -/
structure Request where
  tick : ℕ
  cookie : ℕ
  bytes : Option Bytes
  deriving DecidableEq

/-- What a pass of the loop finds: the clock, the cancel flag, the datagrams that the drain loop
takes, and the memory for a request. -/
structure Round where
  now : ℕ
  cancelled : Bool
  arrivals : List Datagram
  malloc : Option Fill
  realloc : ℕ → Option Fill

/-- What `nat_t_connect` returns, with the descriptors that it has closed. -/
structure NatTReturn where
  code : ℤ
  result : NatTResult
  closed : List ℕ
  deriving DecidableEq

/-- The variables of the loop. `sent` records the requests. -/
structure NatTState where
  result : NatTResult
  currentCookie : ℕ
  nextSendTick : ℕ
  numTries : ℕ
  sent : List Request

/-- What is fixed before the loop starts. -/
structure NatTCall where
  serverIp : InAddr
  svcName : CString
  relayIp : InAddr
  fd : ℕ
  tranId : ℕ
  giveupTick : ℕ

/-- The calls that write a request. -/
def requestCalls (c : NatTCall) (cookie : ℕ) : List BuilderCall :=
  [.str (some opcodeName) (some connectRequest),
    .int64 (some tranIdName) (UInt64.ofNat c.tranId),
    .str (some destIpName) (some ⟨inetNtop c.serverIp, zero_notMem_inetNtop c.serverIp⟩),
    .int64 (some cookieName) (UInt64.ofNat cookie),
    .str (some svcNameName) (some c.svcName),
    .int (some versionName) natTTraversalVersion]

/-- The request in its pack; the return values of the calls are not looked at. -/
def natTRequest (c : NatTCall) (cookie : ℕ) (fill : Fill) (realloc : ℕ → Option Fill) :
    Option SoftetherPack :=
  (exec builderStep (builderNew fill)
    ((requestCalls c cookie).zipIdx.map fun e => (e.1, realloc e.2))).map Builder.pack

section Loop

variable (c : NatTCall)

/-- Only datagrams of the relay's address and port are looked at. -/
def Datagram.fromRelay (d : Datagram) : Prop :=
  d.inet = true ∧ d.ip = c.relayIp ∧ d.port = natTPort

instance (d : Datagram) : Decidable (d.fromRelay c) := inferInstanceAs (Decidable (_ ∧ _ ∧ _))

/-- The drain loop. -/
def natTDrain : List Datagram → NatTState → NatTState × Option NatTReturn
  | [], s => (s, none)
  | d :: ds, s =>
    if ¬d.fromRelay c then natTDrain ds s
    else
      let (st, cookie, result) := natTParseResponse d.buf c.tranId s.currentCookie s.result
      let s := { s with currentCookie := cookie, result := result }
      if st = 1 then
        if result.sameLan ≠ 0 then (s, some ⟨0, { result with udpFd := -1 }, [c.fd]⟩)
        else (s, some ⟨0, { result with udpFd := c.fd }, []⟩)
      else if st < 0 then (s, some ⟨-1, result, [c.fd]⟩)
      else natTDrain ds s

/-- The interval after the request number `numTries`. -/
def sendInterval (numTries : ℕ) : ℕ :=
  natTConnectInterval * 2 ^ (if numTries < natTMaxBackoffExp then natTMaxBackoffExp else numTries)

/-- Sends or resends the request when it is due. -/
def natTSend (r : Round) (s : NatTState) : NatTState :=
  if s.nextSendTick = 0 ∨ r.now ≥ s.nextSendTick then
    { s with
      nextSendTick := r.now + sendInterval s.numTries
      numTries := s.numTries + 1
      sent := s.sent ++ [⟨r.now, s.currentCookie, r.malloc.bind fun fill =>
        (natTRequest c s.currentCookie fill r.realloc).map SoftetherPack.contents⟩] }
  else s

/-- The timeout of the last `poll` of a pass. -/
def natTWait (r : Round) (s : NatTState) : ℕ :=
  if s.nextSendTick > r.now then min 50 (s.nextSendTick - r.now) else 50

def noResponse (s : NatTState) : NatTReturn :=
  ⟨-1, { s.result with errorCode := .noResponse }, [c.fd]⟩

def natTRound (r : Round) (s : NatTState) : NatTState × Option NatTReturn :=
  if r.now ≥ c.giveupTick then (s, some (noResponse c s))
  else if r.cancelled then (s, some (noResponse c s))
  else
    match natTDrain c r.arrivals s with
    | (s, some ret) => (s, some ret)
    | (s, none) => (natTSend c r s, none)

/-- The passes of the loop until the function returns. -/
def natTRounds : List Round → NatTState → NatTState × Option NatTReturn
  | [], s => (s, none)
  | r :: rs, s =>
    match natTRound c r s with
    | (s, some ret) => (s, some ret)
    | (s, none) => natTRounds rs s

end Loop

/-- The arguments of `nat_t_connect` and what the calls before its loop give. -/
structure NatTArgs where
  serverIp : InAddr
  svcName : Option CString
  timeoutMs : UInt32
  resolve : Bytes → Option InAddr
  socket : Option ℕ
  random : { bs : Bytes // bs.length = 8 }
  tick : ℕ

def hexDigit (n : ℕ) : UInt8 := (ascii "0123456789abcdef").getD n 0

/-- `nat_t_build_hostname`. -/
def natTBuildHostname (serverIp : InAddr) : Bytes :=
  let hash := sha1Hash [serverIp.a, serverIp.b, serverIp.c, serverIp.d]
  let second := (hash.getD 1 0).toNat
  ascii "x" ++ [hexDigit (second / 16)] ++ ascii ".x" ++ [hexDigit (second % 16)] ++
    ascii ".servers.nat-traversal.softether-network.net."

def NatTArgs.tranId (a : NatTArgs) : ℕ :=
  if natBE a.random.1 = 0 then 0x9E3779B97F4A7C15 else natBE a.random.1

/-- The timeout that is in force. -/
def NatTArgs.timeout (a : NatTArgs) : ℕ :=
  if a.timeoutMs = 0 then natTDefaultTimeoutMs else a.timeoutMs.toNat

def NatTArgs.service (a : NatTArgs) : CString :=
  match a.svcName with
  | none => natTSvcName
  | some name => if name.1 = [] then natTSvcName else name

def NatTArgs.call (a : NatTArgs) (relayIp : InAddr) (fd : ℕ) : NatTCall where
  serverIp := a.serverIp
  svcName := a.service
  relayIp := relayIp
  fd := fd
  tranId := a.tranId
  giveupTick := a.tick + a.timeout

def NatTState.start : NatTState := ⟨.cleared, 0, 0, 0, []⟩

/-- `nat_t_connect`; no return value while its loop still runs. -/
def natTConnect (a : NatTArgs) (rounds : List Round) : NatTState × Option NatTReturn :=
  match a.resolve (natTBuildHostname a.serverIp) with
  | none => (.start, some ⟨-1, { NatTResult.cleared with errorCode := .getipFailed }, []⟩)
  | some relayIp =>
    match a.socket with
    | none => (.start, some ⟨-1, .cleared, []⟩)
    | some fd => natTRounds (a.call relayIp fd) rounds .start

/-!
## The datagram that decides
-/

/-- What a datagram says about the server. -/
inductive Verdict
  | found (ip : InAddr) (port : ℕ) (sameLan : ℤ)
  | refused (error : NatTError)
  deriving DecidableEq

/-- The address of a positive reply, if it is one that can be sent to. -/
def Response.address (buf : Response) : Option (InAddr × ℕ) := do
  let ip ← (buf.str resultIpName 16).bind inetPton
  let port ← buf.int resultPortName
  if ip = inaddrAny ∨ port = 0 ∨ port > 65535 then none else some (ip, port)

/-- The verdict of a reply with this transaction. -/
def Response.verdict (buf : Response) : Option Verdict :=
  if (buf.int multiCandidatesName).getD 0 ≠ 0 then some (.refused .twoOrMore)
  else if (buf.int okName).getD 0 = 0 then some (.refused .notFound)
  else buf.address.map fun a => .found a.1 a.2 (int32 ((buf.int sameLanName).getD 0))

/-- The datagram comes from the relay and answers the request. -/
def Datagram.Answers (c : NatTCall) (d : Datagram) : Prop :=
  d.fromRelay c ∧ d.buf.int64 tranIdName = some c.tranId ∧
    d.buf.str opcodeName 64 = some connectRequest.1

instance (c : NatTCall) (d : Datagram) : Decidable (d.Answers c) :=
  inferInstanceAs (Decidable (_ ∧ _ ∧ _))

def Datagram.verdict (c : NatTCall) (d : Datagram) : Option Verdict :=
  if d.Answers c then d.buf.verdict else none

/-- What `nat_t_connect` returns on a verdict. The socket is closed, or handed over in the
result. -/
def Verdict.ret (fd : ℕ) : Verdict → NatTReturn
  | .found ip port sameLan =>
    if sameLan ≠ 0 then ⟨0, ⟨ip, port, sameLan, -1, .ok⟩, [fd]⟩
    else ⟨0, ⟨ip, port, sameLan, fd, .ok⟩, []⟩
  | .refused error => ⟨-1, { NatTResult.cleared with errorCode := error }, [fd]⟩

/-- The call is not given up in this pass. -/
def Round.live (c : NatTCall) (r : Round) : Bool := r.now < c.giveupTick && !r.cancelled

section Outcome

variable {c : NatTCall}

/-- What `nat_t_parse_response` makes of a reply of the relay. -/
theorem natTParseResponse_eq {d : Datagram} (hrelay : d.fromRelay c) (cookie : ℕ) :
    ∃ cookie', natTParseResponse d.buf c.tranId cookie .cleared =
      match d.verdict c with
      | none => (0, cookie', .cleared)
      | some (.found ip port sameLan) => (1, cookie', ⟨ip, port, sameLan, -1, .ok⟩)
      | some (.refused error) => (-1, cookie', { NatTResult.cleared with errorCode := error }) := by
  refine ⟨if (d.buf.int64 cookieName).getD 0 ≠ 0 then (d.buf.int64 cookieName).getD 0
    else cookie, ?_⟩
  unfold natTParseResponse Datagram.verdict Datagram.Answers
  dsimp only
  by_cases htran : d.buf.int64 tranIdName = some c.tranId
  swap
  · simp [htran]
  by_cases hopcode : d.buf.str opcodeName 64 = some connectRequest.1
  swap
  · simp [htran, hopcode]
  simp only [htran, hopcode, hrelay, ne_eq, not_true_eq_false, if_false, and_self, if_true]
  unfold Response.verdict
  by_cases hmulti : (d.buf.int multiCandidatesName).getD 0 = 0
  swap
  · simp [hmulti]
  by_cases hok : (d.buf.int okName).getD 0 = 0
  · simp [hmulti, hok]
  simp only [hmulti, hok, not_true_eq_false, not_false_eq_true, if_true, if_false]
  unfold Response.address
  cases hip : d.buf.str resultIpName 16 with
  | none => rfl
  | some text =>
    cases hport : d.buf.int resultPortName with
    | none => cases hton : inetPton text <;> simp [hton]
    | some port =>
      cases hton : inetPton text with
      | none => simp [hton]
      | some ip =>
        by_cases hany : ip = inaddrAny
        · simp [hton, hany]
        · by_cases hrange : port = 0 ∨ port > 65535
          · simp [hton, hrange]
          · simp [hton, hany, hrange, NatTResult.cleared]

theorem natTDrain_eq (ds : List Datagram) (s : NatTState) (hs : s.result = .cleared) :
    (natTDrain c ds s).2 = (ds.findSome? (Datagram.verdict c)).map (Verdict.ret c.fd) ∧
      (ds.findSome? (Datagram.verdict c) = none → (natTDrain c ds s).1.result = .cleared) := by
  induction ds generalizing s with
  | nil => exact ⟨rfl, fun _ => hs⟩
  | cons d ds ih =>
    rw [natTDrain, List.findSome?_cons]
    by_cases hrelay : d.fromRelay c
    swap
    · have hverdict : d.verdict c = none := if_neg fun h => hrelay h.1
      rw [if_pos hrelay, hverdict]
      exact ih s hs
    rw [if_neg (not_not.mpr hrelay)]
    obtain ⟨cookie, hparse⟩ := natTParseResponse_eq hrelay s.currentCookie
    rw [hs, hparse]
    cases hverdict : d.verdict c with
    | none => exact ih _ rfl
    | some v =>
      refine ⟨?_, nofun⟩
      cases v with
      | found ip port sameLan =>
        by_cases hlan : sameLan = 0
        · simp [Verdict.ret, hlan]
        · simp [Verdict.ret, hlan]
      | refused error => simp [Verdict.ret]

theorem natTRounds_eq (rounds : List Round) (s : NatTState) (hs : s.result = .cleared) :
    (natTRounds c rounds s).2 =
      match ((rounds.takeWhile (Round.live c)).flatMap Round.arrivals).findSome?
        (Datagram.verdict c) with
      | some v => some (v.ret c.fd)
      | none =>
        if rounds.all (Round.live c) then none
        else some (Verdict.ret c.fd (.refused .noResponse)) := by
  induction rounds generalizing s with
  | nil => rfl
  | cons r rounds ih =>
    have hno : noResponse c s = Verdict.ret c.fd (.refused .noResponse) := by
      rw [noResponse, hs]
      rfl
    rw [natTRounds, natTRound]
    by_cases hlive : r.live c = true
    swap
    · rw [List.takeWhile_cons_of_neg hlive, List.all_cons]
      simp only [Round.live, Bool.and_eq_true, decide_eq_true_eq, Bool.not_eq_true', not_and,
        Bool.not_eq_false] at hlive
      by_cases hnow : r.now ≥ c.giveupTick
      · simp [hnow, Round.live, hno]
      · have hcancel := hlive (not_le.mp hnow)
        simp [hnow, Round.live, hno, hcancel]
    rw [List.takeWhile_cons_of_pos hlive, List.all_cons, List.flatMap_cons,
      List.findSome?_append]
    have hgo := hlive
    simp only [Round.live, Bool.and_eq_true, decide_eq_true_eq, Bool.not_eq_true'] at hgo
    obtain ⟨hret, hkept⟩ := natTDrain_eq (c := c) r.arrivals s hs
    rw [if_neg (not_le.mpr hgo.1), if_neg (by simp [hgo.2])]
    cases hfirst : r.arrivals.findSome? (Datagram.verdict c) with
    | some v =>
      rw [hfirst] at hret
      generalize natTDrain c r.arrivals s = drained at hret ⊢
      obtain ⟨s', ret⟩ := drained
      obtain rfl : ret = some (v.ret c.fd) := hret
      rfl
    | none =>
      have hresult := hkept hfirst
      rw [hfirst] at hret
      generalize natTDrain c r.arrivals s = drained at hret hresult ⊢
      obtain ⟨s', ret⟩ := drained
      obtain rfl : ret = none := hret
      have hsend : (natTSend c r s').result = .cleared := by
        unfold natTSend
        split_ifs <;> exact hresult
      simp only [hlive, Bool.true_and, Option.none_or]
      exact ih _ hsend

end Outcome

def packBody (calls : List AddCall) : Bytes :=
  bytesBE 4 calls.length ++ (calls.map AddCall.element).flatMap elementCodec.encode

def sampleAddress : InAddr := ⟨192, 0, 2, 7⟩

/-- A reply to the transaction that offers the sample address. -/
def sampleReply : List AddCall :=
  [.str opcodeName connectRequest, .int64 tranIdName 0x0102030405060708, .int okName 1,
    .str resultIpName ⟨inetNtop sampleAddress, zero_notMem_inetNtop sampleAddress⟩,
    .int resultPortName 40000]

theorem sampleReply_fits : (packBody sampleReply).length < 2 ^ 32 := by decide +kernel

theorem sampleReply_received :
    (Buffer.ofBody (packBody sampleReply) sampleReply_fits).Roomy ∧
      (Buffer.ofBody (packBody sampleReply) sampleReply_fits).body.length ≤ natTRespBufSize :=
  ⟨Buffer.ofBody_roomy _ _, by decide +kernel⟩

def sampleArgs : NatTArgs where
  serverIp := ⟨203, 0, 113, 5⟩
  svcName := none
  timeoutMs := 0
  resolve _ := some ⟨198, 51, 100, 1⟩
  socket := some 3
  random := ⟨[1, 2, 3, 4, 5, 6, 7, 8], rfl⟩
  tick := 1000

/-- The reply from the relay, and the same bytes from another address. -/
def fromAddress (ip : InAddr) : Datagram :=
  ⟨true, ip, natTPort, ⟨Buffer.ofBody (packBody sampleReply) sampleReply_fits, sampleReply_received⟩⟩

def round (now : ℕ) (arrivals : List Datagram) : Round :=
  ⟨now, false, arrivals, some fun _ => 0, fun _ => none⟩

def sampleRounds : List Round :=
  [round 1000 [fromAddress sampleAddress], round 1050 [fromAddress ⟨198, 51, 100, 1⟩]]

end SoftEtherVpn.NatT

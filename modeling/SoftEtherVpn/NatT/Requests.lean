import SoftEtherVpn.NatT.Rendezvous

/-!
# The requests of a rendezvous

When the requests are sent and what stands in them. The interval behind a request is at least
`200 * 2 ^ 6` ms, because the exponent is the greater one of six and the number of the request; a
call with the default timeout therefore sends one request. The relay that reads a request
with the readers of the PACK finds what was asked for, and a reply that the writer of the PACK
makes is understood.
-/

namespace SoftEtherVpn.NatT

open Foundation Pack Net

/-!
## When requests are sent
-/

/-- Each request is sent no earlier than the interval behind the one before it ends. -/
def Spaced (sent : List Request) : Prop :=
  ∀ i (h : i + 1 < sent.length), sent[i].tick + sendInterval i ≤ sent[i + 1].tick

/-- What holds of the schedule between two passes. -/
structure Scheduled (c : NatTCall) (start : ℕ) (s : NatTState) : Prop where
  tries : s.numTries = s.sent.length
  next : ∀ h : s.sent ≠ [],
    s.nextSendTick = (s.sent.getLast h).tick + sendInterval (s.sent.length - 1)
  fresh : s.sent = [] → s.nextSendTick = 0
  times : ∀ q ∈ s.sent, start ≤ q.tick ∧ q.tick < c.giveupTick
  spaced : Spaced s.sent

theorem sendInterval_ge (n : ℕ) : 12800 ≤ sendInterval n ∧ 200 * 2 ^ n ≤ sendInterval n := by
  have hmono : ∀ {m k : ℕ}, m ≤ k → 200 * 2 ^ m ≤ 200 * 2 ^ k := fun h =>
    Nat.mul_le_mul_left 200 (Nat.pow_le_pow_right (by decide) h)
  unfold sendInterval natTConnectInterval natTMaxBackoffExp
  split_ifs with hsmall
  · exact ⟨by decide, hmono hsmall.le⟩
  · exact ⟨hmono (not_lt.mp hsmall), le_rfl⟩

theorem Spaced.append {sent : List Request} (h : Spaced sent) {q : Request}
    (hq : ∀ hne : sent ≠ [],
      (sent.getLast hne).tick + sendInterval (sent.length - 1) ≤ q.tick) :
    Spaced (sent ++ [q]) := by
  intro i hi
  rw [List.length_append, List.length_singleton] at hi
  by_cases hlast : i + 1 < sent.length
  · rw [List.getElem_append_left (by omega), List.getElem_append_left hlast]
    exact h i hlast
  · have hne : sent ≠ [] := List.ne_nil_of_length_pos (by omega)
    have hindex : i = sent.length - 1 := by omega
    have hq := hq hne
    rw [List.getLast_eq_getElem] at hq
    rw [List.getElem_append_left (by omega), List.getElem_append_right (by omega)]
    simpa only [hindex, List.getElem_singleton] using hq

/-- From a request to a later one the gap takes at least `12800` ms for each request between. -/
theorem Spaced.first_le {sent : List Request} (h : Spaced sent) (i : ℕ) (hi : i < sent.length) :
    sent[0].tick + 12800 * i ≤ sent[i].tick := by
  induction i with
  | zero => omega
  | succ i ih =>
    have hprev := ih (by omega)
    have hgap := h i hi
    have hinterval := (sendInterval_ge i).1
    calc sent[0].tick + 12800 * (i + 1) = sent[0].tick + 12800 * i + 12800 := by ring
      _ ≤ sent[i].tick + sendInterval i := Nat.add_le_add hprev hinterval
      _ ≤ sent[i + 1].tick := hgap

section Schedule

variable {c : NatTCall} {start : ℕ}

theorem natTDrain_schedule (ds : List Datagram) (s : NatTState) :
    (natTDrain c ds s).1.sent = s.sent ∧ (natTDrain c ds s).1.nextSendTick = s.nextSendTick ∧
      (natTDrain c ds s).1.numTries = s.numTries := by
  induction ds generalizing s with
  | nil => exact ⟨rfl, rfl, rfl⟩
  | cons d ds ih =>
    rw [natTDrain]
    by_cases hrelay : d.fromRelay c
    swap
    · rw [if_pos hrelay]
      exact ih s
    rw [if_neg (not_not.mpr hrelay)]
    generalize natTParseResponse d.buf c.tranId s.currentCookie s.result = parsed
    obtain ⟨st, cookie, result⟩ := parsed
    dsimp only
    split_ifs
    · exact ⟨rfl, rfl, rfl⟩
    · exact ⟨rfl, rfl, rfl⟩
    · exact ⟨rfl, rfl, rfl⟩
    · exact ih _

theorem Scheduled.congr {s t : NatTState} (h : Scheduled c start s) (hsent : t.sent = s.sent)
    (hnext : t.nextSendTick = s.nextSendTick) (htries : t.numTries = s.numTries) :
    Scheduled c start t := by
  obtain ⟨result, cookie, next, tries, sent⟩ := t
  obtain rfl : sent = s.sent := hsent
  obtain rfl : next = s.nextSendTick := hnext
  obtain rfl : tries = s.numTries := htries
  exact ⟨h.tries, h.next, h.fresh, h.times, h.spaced⟩

theorem Scheduled.send {s : NatTState} (h : Scheduled c start s) {r : Round}
    (hstart : start ≤ r.now) (hlive : r.now < c.giveupTick) :
    Scheduled c start (natTSend c r s) := by
  unfold natTSend
  split_ifs with hdue
  swap
  · exact h
  constructor
  · simp [h.tries]
  · intro _
    simp [h.tries]
  · intro hempty
    simp at hempty
  · intro q hq
    rcases List.mem_append.mp hq with hq | hq
    · exact h.times q hq
    · obtain rfl := List.mem_singleton.mp hq
      exact ⟨hstart, hlive⟩
  · apply h.spaced.append
    intro hne
    rw [← h.next hne]
    rcases hdue with hzero | hdue
    · rw [hzero]
      exact Nat.zero_le _
    · exact hdue

theorem Scheduled.round {s : NatTState} (h : Scheduled c start s) {r : Round}
    (hstart : start ≤ r.now) : Scheduled c start (natTRound c r s).1 := by
  rw [natTRound]
  split_ifs with hnow hcancel
  · exact h
  · exact h
  · obtain ⟨hsent, hnext, htries⟩ := natTDrain_schedule (c := c) r.arrivals s
    have hdrained := h.congr hsent hnext htries
    generalize natTDrain c r.arrivals s = drained at hdrained ⊢
    obtain ⟨s', ret⟩ := drained
    cases ret with
    | some ret => exact hdrained
    | none => exact hdrained.send hstart (not_le.mp hnow)

theorem Scheduled.rounds {rounds : List Round} (hclock : ∀ r ∈ rounds, start ≤ r.now)
    {s : NatTState} (h : Scheduled c start s) :
    Scheduled c start (natTRounds c rounds s).1 := by
  induction rounds generalizing s with
  | nil => exact h
  | cons r rounds ih =>
    obtain ⟨hstart, hclock⟩ := List.forall_mem_cons.mp hclock
    have hround := h.round hstart
    rw [natTRounds]
    generalize natTRound c r s = after at hround ⊢
    obtain ⟨s', ret⟩ := after
    cases ret with
    | some ret => exact hround
    | none => exact ih hclock hround

/-- The number of requests is bounded by the timeout, and so is the exponent of the interval. -/
theorem Scheduled.bounded {s : NatTState} (h : Scheduled c start s) {timeout : ℕ}
    (hgiveup : c.giveupTick = start + timeout) (hpos : 0 < timeout) :
    12800 * (s.sent.length - 1) < timeout ∧ (timeout < 2 ^ 32 → s.numTries ≤ 26) := by
  rw [h.tries]
  by_cases hempty : s.sent = []
  · simp [hempty, hpos]
  have hlength : 0 < s.sent.length := List.length_pos_iff.mpr hempty
  have hfirst := (h.times _ (List.getElem_mem (h := hlength))).1
  constructor
  · have hgap := h.spaced.first_le (s.sent.length - 1) (by omega)
    have hlast := (h.times _ (List.getElem_mem (h := show s.sent.length - 1 < s.sent.length by
      omega))).2
    omega
  · intro htimeout
    by_contra hmany
    have hgap := h.spaced 25 (by omega)
    have hearlier := (h.times s.sent[25] (List.getElem_mem (h := by omega))).1
    have hlast := (h.times s.sent[25 + 1] (List.getElem_mem (h := by omega))).2
    have hinterval := (sendInterval_ge 25).2
    omega

/-- After a pass the loop waits, and not past the time of the next request. -/
theorem natTRound_wait {r : Round} {s s' : NatTState} (h : natTRound c r s = (s', none)) :
    1 ≤ natTWait r s' ∧ natTWait r s' ≤ 50 ∧ r.now + natTWait r s' ≤ s'.nextSendTick := by
  rw [natTRound] at h
  split_ifs at h with hnow hcancel
  · cases h
  · cases h
  generalize natTDrain c r.arrivals s = drained at h
  obtain ⟨t, ret⟩ := drained
  cases ret with
  | some ret => cases h
  | none =>
    obtain rfl : natTSend c r t = s' := (Prod.mk.inj h).1
    have hahead : r.now < (natTSend c r t).nextSendTick := by
      unfold natTSend
      split_ifs with hdue
      · have hinterval := (sendInterval_ge t.numTries).1
        simp only []
        omega
      · omega
    rw [natTWait, if_pos hahead]
    omega

theorem natTRounds_last {rounds : List Round} {r : Round} {s s' : NatTState}
    (h : natTRounds c (rounds ++ [r]) s = (s', none)) : ∃ t, natTRound c r t = (s', none) := by
  induction rounds generalizing s with
  | nil =>
    rw [List.nil_append, natTRounds] at h
    cases hround : natTRound c r s with
    | mk t ret =>
      rw [hround] at h
      cases ret with
      | some ret => cases h
      | none => exact ⟨s, hround.trans h⟩
  | cons q rounds ih =>
    rw [List.cons_append, natTRounds] at h
    cases hround : natTRound c q s with
    | mk t ret =>
      rw [hround] at h
      cases ret with
      | some ret => cases h
      | none => exact ih h

end Schedule

/-- A call sends its requests at least `12800` ms apart, so one request for every started `12800` ms
of its timeout at most; the shift in the interval stays far below the width of its operand, and
every pass that does not return waits, but not past the next request. -/
theorem natTConnect_requests (a : NatTArgs) (rounds : List Round)
    (hclock : ∀ r ∈ rounds, a.tick ≤ r.now) :
    Spaced (natTConnect a rounds).1.sent ∧
      (∀ q ∈ (natTConnect a rounds).1.sent, a.tick ≤ q.tick ∧ q.tick < a.tick + a.timeout) ∧
      12800 * ((natTConnect a rounds).1.sent.length - 1) < a.timeout ∧
      (natTConnect a rounds).1.numTries ≤ 26 ∧
      ∀ front r s, rounds = front ++ [r] → natTConnect a rounds = (s, none) →
        1 ≤ natTWait r s ∧ natTWait r s ≤ 50 ∧ r.now + natTWait r s ≤ s.nextSendTick := by
  have hpos : 0 < a.timeout ∧ a.timeout < 2 ^ 32 := by
    unfold NatTArgs.timeout
    split_ifs with hzero
    · decide
    · refine ⟨Nat.pos_of_ne_zero fun h => hzero (UInt32.toNat_inj.mp h), a.timeoutMs.toNat_lt⟩
  have hschedule : ∃ c : NatTCall, c.giveupTick = a.tick + a.timeout ∧
      Scheduled c a.tick (natTConnect a rounds).1 := by
    have hstart : ∀ c, Scheduled c a.tick .start := fun c =>
      ⟨rfl, fun h => absurd rfl h, fun _ => rfl, nofun, fun i hi => absurd hi (by simp [NatTState.start])⟩
    rw [natTConnect]
    cases a.resolve (natTBuildHostname a.serverIp) with
    | none => exact ⟨a.call inaddrAny 0, rfl, hstart _⟩
    | some relayIp =>
      cases a.socket with
      | none => exact ⟨a.call relayIp 0, rfl, hstart _⟩
      | some fd => exact ⟨a.call relayIp fd, rfl, (hstart _).rounds hclock⟩
  obtain ⟨c, hgiveup, h⟩ := hschedule
  obtain ⟨hcount, htries⟩ := h.bounded hgiveup hpos.1
  refine ⟨h.spaced, fun q hq => hgiveup ▸ h.times q hq, hcount, htries hpos.2, ?_⟩
  rintro front r s rfl hrun
  rw [natTConnect] at hrun
  cases hresolve : a.resolve (natTBuildHostname a.serverIp) with
  | none => simp [hresolve] at hrun
  | some relayIp =>
    cases hsocket : a.socket with
    | none => simp [hresolve, hsocket] at hrun
    | some fd =>
      rw [hresolve, hsocket] at hrun
      obtain ⟨t, hround⟩ := natTRounds_last hrun
      exact natTRound_wait hround

/-- The call of the sample sends its one request in the first pass. -/
theorem natTConnect_requests_sample :
    (natTConnect sampleArgs sampleRounds).1.sent.map Request.tick = [1000] ∧
      12800 * ((natTConnect sampleArgs sampleRounds).1.sent.length - 1) < sampleArgs.timeout :=
  ⟨by decide +kernel, (natTConnect_requests sampleArgs sampleRounds (by decide +kernel)).2.2.1⟩

/-!
## What stands in a request
-/

theorem zero_notMem_serverIp (c : NatTCall) : 0 ∉ inetNtop c.serverIp :=
  zero_notMem_inetNtop c.serverIp

/-- The elements of a request. -/
def requestElements (c : NatTCall) (cookie : ℕ) : List AddCall :=
  [.str opcodeName connectRequest,
    .int64 tranIdName (UInt64.ofNat c.tranId),
    .str destIpName ⟨inetNtop c.serverIp, zero_notMem_serverIp c⟩,
    .int64 cookieName (UInt64.ofNat cookie),
    .str svcNameName c.svcName,
    .int versionName natTTraversalVersion]

theorem requestElements_size (c : NatTCall) (cookie : ℕ) :
    ((requestElements c cookie).map AddCall.size).sum =
      180 + (inetNtop c.serverIp).length + c.svcName.1.length := by
  have hnames : opcodeName.1.length = 6 ∧ connectRequest.1.length = 21 ∧
      tranIdName.1.length = 7 ∧ destIpName.1.length = 7 ∧ cookieName.1.length = 6 ∧
      svcNameName.1.length = 8 ∧ versionName.1.length = 21 := by decide
  simp only [requestElements, List.map_cons, List.map_nil, List.sum_cons, List.sum_nil,
    AddCall.size, hnames]
  omega

/-- A request always fits the first block of its pack. -/
theorem natTRequest_holds (c : NatTCall) (cookie : ℕ) (hsvc : c.svcName.1.length ≤ 57)
    (fill : Fill) (realloc : ℕ → Option Fill) :
    ∃ p, natTRequest c cookie fill realloc = some p ∧ p.len ≤ 256 ∧
      Holds p ((requestElements c cookie).map AddCall.element) := by
  have hip := inetNtop_length_le c.serverIp
  have hsize := requestElements_size c cookie
  have hcap : (packNew fill).cap = 256 := by
    simp [SoftetherPack.cap, packNew, packInitialCap]
  let events := (requestCalls c cookie).zipIdx.map fun e => (e.1, realloc e.2)
  obtain ⟨t, ht, hlen, hholds⟩ := exec_builder_within (b := builderNew fill) (holds_packNew fill)
    ((requestElements c cookie).zip events) (by
      simp only [events, requestElements, requestCalls, List.zipIdx_cons, List.zipIdx_nil,
        List.map_cons, List.map_nil, List.zip_cons_cons, List.zip_nil_right, List.mem_cons,
        List.not_mem_nil, or_false, forall_eq_or_imp, forall_eq]
      exact ⟨rfl, rfl, rfl, rfl, rfl, rfl⟩) (by
      rw [show ((requestElements c cookie).zip events).map (fun e => e.1.size) =
        (requestElements c cookie).map AddCall.size from rfl, hsize]
      change 4 + _ ≤ (packNew fill).cap
      omega) (by change (packNew fill).cap < _; omega) (by simp [events, requestElements, requestCalls])
  refine ⟨t.pack, ?_, ?_, hholds⟩
  · change (exec builderStep (builderNew fill) events).map Builder.pack = _
    rw [show events = ((requestElements c cookie).zip events).map Prod.snd from rfl, ht]
    rfl
  · rw [hlen, show ((requestElements c cookie).zip events).map (fun e => e.1.size) =
      (requestElements c cookie).map AddCall.size from rfl, hsize]
    change 4 + _ ≤ 256
    omega

section Read

variable {r : Response} {name : CString}

theorem Response.int_of_get {n : ℕ}
    (h : (Getter.int.get r.1 name).map Prod.fst = .ok (.number n)) : r.int name = some n := by
  rw [Getter.get] at h
  rw [Response.int]
  cases hget : packGetInt r.1 name with
  | error fault => simp [hget, Except.map] at h
  | ok out =>
    simp only [hget, Except.map, Except.ok.injEq, Output.number.injEq] at h
    simp [Except.toOption, h]

theorem Response.int64_of_get {n : ℕ}
    (h : (Getter.int64.get r.1 name).map Prod.fst = .ok (.number n)) : r.int64 name = some n := by
  rw [Getter.get] at h
  rw [Response.int64]
  cases hget : packGetInt64 r.1 name with
  | error fault => simp [hget, Except.map] at h
  | ok out =>
    simp only [hget, Except.map, Except.ok.injEq, Output.number.injEq] at h
    simp [Except.toOption, h]

theorem Response.str_of_get {outSize : ℕ} {text : Bytes}
    (h : ((Getter.str outSize).get r.1 name).map Prod.fst = .ok (.text (text ++ [0])))
    (hzero : 0 ∉ text) : r.str name outSize = some text := by
  rw [Getter.get] at h
  rw [Response.str]
  cases hget : packGetStr r.1 name outSize with
  | error fault => simp [hget, Except.map] at h
  | ok out =>
    simp only [hget, Except.map, Except.ok.injEq, Output.text.injEq] at h
    have hstring : cString (text ++ [0]) = text := by
      rw [cString, List.takeWhile_append_of_pos]
      · simp
      · intro ch hch
        simpa using ne_of_mem_of_not_mem hch hzero
    simp [Except.toOption, h, hstring]

end Read

/-- The bytes are a pack with the elements of these calls of the writer. -/
structure Written (r : Response) (calls : List AddCall) : Prop where
  count : calls.length ≤ maxElements
  names : ∀ call ∈ calls, call.name.1.length ≤ 63
  sizes : ∀ call ∈ calls, call.size < 2 ^ 32
  body : r.1.body = bytesBE 4 calls.length ++
    (calls.map AddCall.element).flatMap elementCodec.encode

namespace Written

variable {r : Response} {calls : List AddCall} {name : CString}

theorem get (h : Written r calls) (g : Getter) (hg : g.HasRoom) (name : CString) :
    (g.get r.1 name).map Prod.fst = match g.lookup calls name with
      | some out => .ok out
      | none => .error .malformed :=
  Getter.get_wellFormed h.count h.names h.sizes h.body g hg name

theorem int {n : ℕ} (h : Written r calls) (hn : Getter.int.lookup calls name = some (.number n)) :
    r.int name = some n := by
  apply Response.int_of_get
  rw [h.get .int trivial, hn]

theorem int64 {n : ℕ} (h : Written r calls)
    (hn : Getter.int64.lookup calls name = some (.number n)) : r.int64 name = some n := by
  apply Response.int64_of_get
  rw [h.get .int64 trivial, hn]

theorem str {outSize : ℕ} {text : CString} (h : Written r calls) (hsize : outSize ≠ 0)
    (hn : (Getter.str outSize).lookup calls name = some (.text (text.1 ++ [0]))) :
    r.str name outSize = some text.1 := by
  apply Response.str_of_get _ text.2
  rw [h.get (.str outSize) hsize, hn]

/-- An integer that is not in the pack, or is there with value zero, reads as zero. -/
theorem int_zero (h : Written r calls)
    (hn : ∀ out, Getter.int.lookup calls name = some out → out = .number 0) :
    (r.int name).getD 0 = 0 := by
  cases hlookup : Getter.int.lookup calls name with
  | some out =>
    rw [hn out hlookup] at hlookup
    rw [h.int hlookup]
    rfl
  | none =>
    have hget := h.get .int trivial name
    rw [hlookup, Getter.get] at hget
    rw [Response.int]
    cases hpack : packGetInt r.1 name with
    | error fault => rfl
    | ok out => simp [hpack, Except.map] at hget

end Written

theorem lookup_str {outSize : ℕ} {calls : List AddCall} {name val : CString}
    (h : (Getter.str outSize).lookup calls name = some (.text (val.1.take (outSize - 1) ++ [0])))
    (hval : val.1.length < outSize) :
    (Getter.str outSize).lookup calls name = some (.text (val.1 ++ [0])) := by
  rw [h, List.take_of_length_le (by omega)]

/-- The relay finds in every request what the call asks for. -/
theorem natTRequest_read (c : NatTCall) {cookie : ℕ} (htran : c.tranId < 2 ^ 64)
    (hcookie : cookie < 2 ^ 64) (hsvc : c.svcName.1.length ≤ 57) (fill : Fill)
    (realloc : ℕ → Option Fill) :
    ∃ p, natTRequest c cookie fill realloc = some p ∧ ∀ r : Response, r.1.body = p.contents →
      r.str opcodeName 64 = some connectRequest.1 ∧ r.int64 tranIdName = some c.tranId ∧
      (r.str destIpName 16).bind inetPton = some c.serverIp ∧ r.int64 cookieName = some cookie ∧
      r.str svcNameName 64 = some c.svcName.1 ∧
      r.int versionName = some natTTraversalVersion.toNat := by
  obtain ⟨p, hp, hlen, hholds⟩ := natTRequest_holds c cookie hsvc fill realloc
  refine ⟨p, hp, ?_⟩
  intro r hbody
  have hip := inetNtop_length_le c.serverIp
  have hsize := requestElements_size c cookie
  have hwritten : Written r (requestElements c cookie) := by
    refine ⟨by simp [requestElements, maxElements], ?_, ?_, ?_⟩
    · simp only [requestElements, List.mem_cons, List.not_mem_nil, or_false, forall_eq_or_imp,
        forall_eq, AddCall.name]
      decide
    · intro call hcall
      have hle := List.le_sum_of_mem (List.mem_map_of_mem (f := AddCall.size) hcall)
      omega
    · rw [hbody, hholds.contents (by simp [requestElements]), List.length_map]
  have htranWord : (UInt64.ofNat c.tranId).toNat = c.tranId := UInt64.toNat_ofNat_of_lt htran
  have hcookieWord : (UInt64.ofNat cookie).toNat = cookie := UInt64.toNat_ofNat_of_lt hcookie
  refine ⟨?_, ?_, ?_, ?_, ?_, ?_⟩
  · exact hwritten.str (by decide) (lookup_str rfl (by decide))
  · rw [← htranWord]
    exact hwritten.int64 rfl
  · have hdest : r.str destIpName 16 = some (inetNtop c.serverIp) :=
      @Written.str _ _ _ 16 ⟨inetNtop c.serverIp, zero_notMem_inetNtop c.serverIp⟩ hwritten
        (by decide) (lookup_str rfl (by simp only []; omega))
    rw [hdest]
    exact inetPton_inetNtop c.serverIp
  · rw [← hcookieWord]
    exact hwritten.int64 rfl
  · exact hwritten.str (by decide) (lookup_str rfl (by omega))
  · exact hwritten.int rfl

/-!
## A reply that is understood
-/

/-- A reply offers one address, outside the LAN, for a transaction. -/
structure Offer (calls : List AddCall) (tranId : ℕ) (ip : InAddr) (port : ℕ) : Prop where
  tran : Getter.int64.lookup calls tranIdName = some (.number tranId)
  opcode : (Getter.str 64).lookup calls opcodeName = some (.text (connectRequest.1 ++ [0]))
  ok : ∃ n ≠ 0, Getter.int.lookup calls okName = some (.number n)
  single : ∀ out, Getter.int.lookup calls multiCandidatesName = some out → out = .number 0
  address : (Getter.str 16).lookup calls resultIpName = some (.text (inetNtop ip ++ [0]))
  portField : Getter.int.lookup calls resultPortName = some (.number port)
  otherLan : ∀ out, Getter.int.lookup calls sameLanName = some out → out = .number 0
  bound : ip ≠ inaddrAny
  range : 1 ≤ port ∧ port ≤ 65535

theorem Offer.verdict {calls : List AddCall} {tranId port : ℕ} {ip : InAddr}
    (h : Offer calls tranId ip port) {r : Response} (hr : Written r calls) :
    r.verdict = some (.found ip port 0) := by
  obtain ⟨n, hn, hok⟩ := h.ok
  have hport : ¬(ip = inaddrAny ∨ port = 0 ∨ port > 65535) := by
    have hrange := h.range
    rintro (hany | hport)
    · exact h.bound hany
    · omega
  have hip : r.str resultIpName 16 = some (inetNtop ip) :=
    @Written.str _ _ _ 16 ⟨inetNtop ip, zero_notMem_inetNtop ip⟩ hr (by decide) h.address
  have haddress : r.address = some (ip, port) := by
    rw [Response.address, hip, hr.int h.portField]
    simp [inetPton_inetNtop, hport]
  rw [Response.verdict, if_neg (not_not.mpr (hr.int_zero h.single)), hr.int hok,
    if_neg (by simpa using hn), haddress, hr.int_zero h.otherLan]
  rfl

theorem NatTArgs.tranId_lt (a : NatTArgs) : a.tranId < 2 ^ 64 := by
  have hrandom := natBE_lt a.random.1
  rw [a.random.2] at hrandom
  unfold NatTArgs.tranId
  split_ifs
  · norm_num
  · exact hrandom

/-- The relay copies the transaction from any request of the call and offers an address: the call
returns this address with its socket, however many datagrams that answer nothing come first. -/
theorem natTConnect_answered (a : NatTArgs) {relayIp : InAddr} {fd : ℕ}
    (hresolve : a.resolve (natTBuildHostname a.serverIp) = some relayIp)
    (hsocket : a.socket = some fd) (hsvc : a.service.1.length ≤ 57)
    (front back : List Round) (r : Round) (before after : List Datagram) (d : Datagram)
    (hlive : ∀ q ∈ front ++ [r], q.live (a.call relayIp fd) = true)
    (harrivals : r.arrivals = before ++ d :: after)
    (hstray : ∀ e ∈ front.flatMap Round.arrivals ++ before, ¬e.Answers (a.call relayIp fd))
    (hrelay : d.fromRelay (a.call relayIp fd)) {cookie : ℕ} (hcookie : cookie < 2 ^ 64)
    {fill : Fill} {realloc : ℕ → Option Fill} {p : SoftetherPack} (request : Response)
    (hrequest : natTRequest (a.call relayIp fd) cookie fill realloc = some p)
    (hread : request.1.body = p.contents) {calls : List AddCall} {tranId port : ℕ} {ip : InAddr}
    (hreply : Written d.buf calls) (htran : request.int64 tranIdName = some tranId)
    (hoffer : Offer calls tranId ip port) :
    (natTConnect a (front ++ r :: back)).2 = some ⟨0, ⟨ip, port, 0, fd, .ok⟩, []⟩ := by
  obtain ⟨p', hp', hfields⟩ := natTRequest_read (a.call relayIp fd) a.tranId_lt hcookie hsvc fill
    realloc
  obtain rfl := Option.some.inj (hrequest.symm.trans hp')
  obtain rfl := Option.some.inj (htran.symm.trans (hfields request hread).2.1)
  have hanswers : d.Answers (a.call relayIp fd) :=
    ⟨hrelay, hreply.int64 hoffer.tran, hreply.str (by decide) hoffer.opcode⟩
  have hnone : (front.flatMap Round.arrivals ++ before).findSome?
      (Datagram.verdict (a.call relayIp fd)) = none :=
    List.findSome?_eq_none_iff.mpr fun e he => if_neg (hstray e he)
  have hfront : front.takeWhile (Round.live (a.call relayIp fd)) = front :=
    List.takeWhile_eq_self_iff.mpr fun q hq => hlive q (List.mem_append_left _ hq)
  have hr : r.live (a.call relayIp fd) = true := hlive r (by simp)
  have hfirst : ((front ++ r :: back).takeWhile (Round.live (a.call relayIp fd))).flatMap
      Round.arrivals = (front.flatMap Round.arrivals ++ before) ++ (d :: (after ++
        (back.takeWhile (Round.live (a.call relayIp fd))).flatMap Round.arrivals)) := by
    rw [List.takeWhile_append, hfront, if_pos rfl, List.takeWhile_cons_of_pos hr,
      List.flatMap_append, List.flatMap_cons, harrivals]
    simp
  rw [natTConnect, hresolve, hsocket]
  simp only []
  rw [natTRounds_eq _ _ rfl, hfirst, List.findSome?_append, hnone, List.findSome?_cons,
    Datagram.verdict, if_pos hanswers, hoffer.verdict hreply]
  rfl

theorem sampleReply_written (ip : InAddr) : Written (fromAddress ip).buf sampleReply :=
  ⟨by decide, by decide, by decide, rfl⟩

theorem sampleReply_offer : Offer sampleReply sampleArgs.tranId sampleAddress 40000 where
  tran := by decide +kernel
  opcode := by decide +kernel
  ok := ⟨1, by decide, by decide +kernel⟩
  single out h := by
    have hnone : Getter.int.lookup sampleReply multiCandidatesName = none := by decide +kernel
    rw [hnone] at h
    cases h
  address := by decide +kernel
  portField := by decide +kernel
  otherLan out h := by
    have hnone : Getter.int.lookup sampleReply sameLanName = none := by decide +kernel
    rw [hnone] at h
    cases h
  bound := by decide
  range := by decide

/-- The relay reads the request of the sample call and answers it, behind a stray datagram. -/
theorem natTConnect_answered_sample :
    (natTConnect sampleArgs sampleRounds).2 = some ⟨0, ⟨sampleAddress, 40000, 0, 3, .ok⟩, []⟩ := by
  have hservice : sampleArgs.service.1.length ≤ 57 := by decide
  obtain ⟨p, hp, hlen, hholds⟩ := natTRequest_holds (sampleArgs.call ⟨198, 51, 100, 1⟩ 3) 0
    hservice (fun _ => 0) fun _ => none
  obtain ⟨p', hp', hfields⟩ := natTRequest_read (sampleArgs.call ⟨198, 51, 100, 1⟩ 3)
    sampleArgs.tranId_lt (show 0 < 2 ^ 64 by decide) hservice (fun _ => 0) fun _ => none
  obtain rfl := Option.some.inj (hp.symm.trans hp')
  have hlength : p.contents.length ≤ 256 := (List.length_take_le _ _).trans hlen
  have hshort : p.contents.length < 2 ^ 32 := by omega
  let request : Response :=
    ⟨Buffer.ofBody p.contents hshort, Buffer.ofBody_roomy _ _, hlength.trans (by decide)⟩
  exact natTConnect_answered sampleArgs rfl rfl hservice
    [round 1000 [fromAddress sampleAddress]] [] (round 1050 [fromAddress ⟨198, 51, 100, 1⟩]) [] []
    (fromAddress ⟨198, 51, 100, 1⟩) (by decide +kernel) rfl (by decide +kernel) ⟨rfl, rfl, rfl⟩
    (show 0 < 2 ^ 64 by decide) request hp rfl (sampleReply_written _) (hfields request rfl).2.1
    sampleReply_offer

end SoftEtherVpn.NatT

import SoftEtherVpn.UdpAccel.Health

/-!
# Data rides UDP only after continuous reception

`rudp_is_send_ready` does not test `first_stable_receive_tick` for zero. The test is
implied: while it is zero nothing was received for the length of the timeout, and a
reception that the code has seen to be stale stays stale until a poll has cleared it.
-/

namespace SoftEtherVpn.UdpAccel

open Foundation Rudp Relation

/-- A poll or a readiness check that found `last_recv_tick` unset or older than `timeout`. -/
def RudpEvent.FoundStale (timeout : ℕ) : RudpEvent → Prop
  | .polled now lastRecvTick => lastRecvTick = 0 ∨ lastRecvTick + timeout < now
  | .evaluated now lastRecvTick => lastRecvTick = 0 ∨ lastRecvTick + timeout < now
  | _ => False

/-- Every event since the current stable reception began satisfies `p`. -/
def SinceStable (first : ℕ) (p : RudpEvent → Prop) (history : List RudpEvent) : Prop :=
  ∃ before after, history = before ++ .stable first :: after ∧ ∀ e ∈ after, p e

theorem SinceStable.append {first : ℕ} {p q : RudpEvent → Prop} {history : List RudpEvent}
    (h : SinceStable first p history) (hpq : ∀ e, p e → q e) {e : RudpEvent} (he : q e) :
    SinceStable first q (history ++ [e]) := by
  obtain ⟨before, after, rfl, hafter⟩ := h
  refine ⟨before, after ++ [e], by simp, ?_⟩
  intro e' he'
  rcases List.mem_append.mp he' with hin | hin
  · exact hpq e' (hafter e' hin)
  · rw [List.mem_singleton.mp hin]
    exact he

theorem SinceStable.imp {first : ℕ} {p q : RudpEvent → Prop} {history : List RudpEvent}
    (h : SinceStable first p history) (hpq : ∀ e, p e → q e) : SinceStable first q history := by
  obtain ⟨before, after, rfl, hafter⟩ := h
  exact ⟨before, after, rfl, fun e he => hpq e (hafter e he)⟩

namespace Health

variable {T : ℕ} {h h' : Health}

/-- The relations between the clock and the two receive ticks. -/
structure Timed (T : ℕ) (h : Health) : Prop where
  inited : h.inited = true
  timeout_eq : h.timeoutValue = T
  timeout_le : T ≤ kaTimeout
  now_lt : h.now < 2 ^ 44
  recv_le : h.lastRecvTick ≤ h.now
  first_le : h.firstStableReceiveTick ≤ h.lastRecvTick
  stale_of_unset : h.firstStableReceiveTick = 0 → h.Stale

/-- A stale reception that was seen since the stable one began is still stale. -/
structure Sound (T : ℕ) (h : Health) : Prop extends Timed T h where
  watched : h.firstStableReceiveTick ≠ 0 →
    SinceStable h.firstStableReceiveTick (fun e => e.FoundStale T → h.Stale) h.history

/-- While a poll receives, no stale reception was seen since the stable one began. -/
structure Polling (T : ℕ) (h : Health) : Prop extends Timed T h where
  unseen : h.firstStableReceiveTick ≠ 0 →
    SinceStable h.firstStableReceiveTick (fun e => ¬e.FoundStale T) h.history

theorem Polling.sound (hp : Polling T h) : Sound T h where
  toTimed := hp.toTimed
  watched hne := (hp.unseen hne).imp fun _ hno hfound => absurd hfound hno

theorem wrap64_recv (ht : Timed T h) :
    wrap64 (h.lastRecvTick + h.timeoutValue) = h.lastRecvTick + h.timeoutValue := by
  have hT := ht.timeout_eq
  have hle := ht.timeout_le
  have hnow := ht.now_lt
  have hrecv := ht.recv_le
  apply Nat.mod_eq_of_lt
  norm_num [kaTimeout] at *
  linarith

theorem Timed.stale_of_found (ht : Timed T h)
    (hfound : h.lastRecvTick = 0 ∨ h.lastRecvTick + T < h.now) : h.Stale := by
  rw [Stale, ht.timeout_eq]
  exact hfound

theorem Stale.later (hs : h.Stale) {t : ℕ} (hle : h.now ≤ t) :
    Stale { h with now := t } :=
  hs.imp_right fun hlt => lt_of_lt_of_le hlt hle

theorem Timed.tick (ht : Timed T h) {t : ℕ} (hle : h.now ≤ t) (hlt : t < 2 ^ 44) :
    Timed T { h with now := t } where
  inited := ht.inited
  timeout_eq := ht.timeout_eq
  timeout_le := ht.timeout_le
  now_lt := hlt
  recv_le := ht.recv_le.trans hle
  first_le := ht.first_le
  stale_of_unset hz := (ht.stale_of_unset hz).later hle

/-- The fields that `Timed` reads. -/
def reception (h : Health) : Bool × ℕ × ℕ × ℕ × ℕ :=
  (h.inited, h.timeoutValue, h.now, h.lastRecvTick, h.firstStableReceiveTick)

theorem Timed.congr (ht : Timed T h) (heq : h'.reception = h.reception) :
    Timed T h' := by
  obtain ⟨hi, hT, hn, hr, hf⟩ : h'.inited = h.inited ∧ h'.timeoutValue = h.timeoutValue ∧
      h'.now = h.now ∧ h'.lastRecvTick = h.lastRecvTick ∧
      h'.firstStableReceiveTick = h.firstStableReceiveTick := by
    simpa [reception] using heq
  constructor
  · exact hi.trans ht.inited
  · exact hT.trans ht.timeout_eq
  · exact ht.timeout_le
  · exact hn.le.trans_lt ht.now_lt
  · rw [hr, hn]
    exact ht.recv_le
  · rw [hr, hf]
    exact ht.first_le
  · rw [hf, Stale, hr, hT, hn]
    exact ht.stale_of_unset

/-- A step that leaves the ticks alone and records one event. -/
theorem Sound.note (hs : Sound T h) (heq : h'.reception = h.reception)
    {e : RudpEvent} (hhist : h'.history = h.history ++ [e])
    (he : e.FoundStale T → h.Stale) : Sound T h' := by
  refine ⟨hs.toTimed.congr heq, ?_⟩
  obtain ⟨hi, hT, hn, hr, hf⟩ : h'.inited = h.inited ∧ h'.timeoutValue = h.timeoutValue ∧
      h'.now = h.now ∧ h'.lastRecvTick = h.lastRecvTick ∧
      h'.firstStableReceiveTick = h.firstStableReceiveTick := by
    simpa [reception] using heq
  intro hne
  rw [hf] at hne
  rw [hhist, hf, Stale, hr, hT, hn]
  exact (hs.watched hne).append (fun _ h => h) he

theorem Sound.eval (hs : Sound T h) (hstep : EvalStep h h') : Sound T h' := by
  cases hstep with
  | evaluated => exact hs.note rfl rfl hs.stale_of_found
  | reset => exact hs.note rfl rfl False.elim
  | resumed => exact hs.note rfl rfl False.elim
  | suspend => exact hs.note rfl rfl False.elim
  | answered => exact hs.note rfl rfl False.elim
  | unstable hstale =>
    rw [wrap64_recv hs.toTimed] at hstale
    refine ⟨{ hs.toTimed with first_le := Nat.zero_le _, stale_of_unset := fun _ => hstale }, ?_⟩
    intro hne
    exact absurd rfl hne

theorem Sound.tick (hs : Sound T h) {t : ℕ} (hle : h.now ≤ t) (hlt : t < 2 ^ 44) :
    Sound T { h with now := t } where
  toTimed := hs.toTimed.tick hle hlt
  watched hne := (hs.watched hne).imp fun _ hstale hfound => (hstale hfound).later hle

theorem Polling.note (hp : Polling T h) (heq : h'.reception = h.reception)
    {e : RudpEvent} (hhist : h'.history = h.history ++ [e])
    (he : ¬e.FoundStale T) : Polling T h' := by
  refine ⟨hp.toTimed.congr heq, ?_⟩
  obtain ⟨hi, hT, hn, hr, hf⟩ : h'.inited = h.inited ∧ h'.timeoutValue = h.timeoutValue ∧
      h'.now = h.now ∧ h'.lastRecvTick = h.lastRecvTick ∧
      h'.firstStableReceiveTick = h.firstStableReceiveTick := by
    simpa [reception] using heq
  intro hne
  rw [hf] at hne
  rw [hhist, hf]
  exact (hp.unseen hne).append (fun _ h => h) he

theorem Polling.packet (hp : Polling T h) (hstep : PacketStep h h') :
    Polling T h' := by
  cases hstep with
  | tick hle hlt => exact ⟨hp.toTimed.tick hle hlt, hp.unseen⟩
  | addressed => exact ⟨hp.toTimed.congr rfl, hp.unseen⟩
  | gap => exact hp.note rfl rfl id
  | overflow => exact hp.note rfl rfl id
  | opened hfirst =>
    refine ⟨{ hp.toTimed with
      recv_le := le_rfl
      first_le := le_rfl
      stale_of_unset := fun hz => Or.inl hz }, ?_⟩
    intro _
    exact ⟨h.history, [], rfl, by simp⟩
  | renewed hfirst =>
    refine ⟨{ hp.toTimed with
      recv_le := le_rfl
      first_le := hp.first_le.trans hp.recv_le
      stale_of_unset := fun hz => absurd hz hfirst }, ?_⟩
    exact hp.unseen

/-- The entry of a poll clears a reception that it finds stale. -/
theorem Sound.pollEntry (hs : Sound T h) {t : ℕ} (hle : h.now ≤ t)
    (hlt : t < 2 ^ 44) : Polling T (pollEntry t h) := by
  have ht := hs.tick hle hlt
  have hentered : Sound T ({ h with now := t }.record (.polled t h.lastRecvTick)) :=
    ht.note rfl rfl ht.stale_of_found
  have hwrap := wrap64_recv hentered.toTimed
  simp only [UdpAccel.pollEntry]
  split
  · rename_i hstale
    rw [hwrap] at hstale
    refine ⟨{ hentered.toTimed with
      first_le := Nat.zero_le _
      stale_of_unset := fun _ => Or.inr hstale.2 }, ?_⟩
    intro hne
    exact absurd rfl hne
  · rename_i hfresh
    rw [hwrap] at hfresh
    refine ⟨hentered.toTimed, ?_⟩
    intro hne
    have hrecv : h.lastRecvTick ≠ 0 := by
      have hfirst := hs.first_le
      have hpos : h.firstStableReceiveTick ≠ 0 := hne
      omega
    have hnot : ¬Stale ({ h with now := t }.record (.polled t h.lastRecvTick)) := by
      rintro (hz | hstale)
      · exact hrecv hz
      · exact hfresh ⟨hrecv, hstale⟩
    exact (hentered.watched hne).imp fun _ hfound hin => hnot (hfound hin)

theorem invariant : HealthInvariant (Sound T) (Polling T) where
  inited _ hs := hs.inited
  now_lt _ hs := hs.now_lt
  tick _ _ hs hle hlt := hs.tick hle hlt
  eval _ _ hs hstep := hs.eval hstep
  enter _ _ hs hle hlt := hs.pollEntry hle hlt
  packet _ _ hp hstep := hp.packet hstep
  leave _ hp := hp.sound

end Health

/-- The keep-alive timeout a context is set up with. -/
def Setup.timeoutValue (i : Setup) : ℕ := if i.mss.testBit 31 then kaTimeoutFast else kaTimeout

theorem rudpInit_sound (i : Setup) : (rudpInit i).health.Sound i.timeoutValue := by
  refine ⟨⟨rfl, rfl, ?_, tick64_lt i.clock, Nat.zero_le _, le_rfl, fun _ => Or.inl rfl⟩, ?_⟩
  · unfold Setup.timeoutValue
    split_ifs <;> decide
  · intro hne
    exact absurd rfl hne

/-- What a positive answer of the reception check says. -/
theorem checkReception_true {ctx ctx' : RudpContext}
    (h : checkReception true ctx = (ctx', true)) :
    ctx' = ctx ∧ ¬receiveStale ctx ∧
      wrap64 (ctx.firstStableReceiveTick + requireContinuous) ≤ ctx.now ∧ ctx.cwinBytes ≠ 0 := by
  unfold checkReception at h
  rw [if_pos rfl] at h
  split_ifs at h with hstale hlong
  · cases h
  · obtain ⟨rfl, hbudget⟩ := Prod.mk.inj h
    exact ⟨rfl, hstale, hlong, by simpa using hbudget⟩
  · cases h

theorem rudpIsSendReadyNolock_true {ctx ctx' : RudpContext}
    (h : rudpIsSendReadyNolock true ctx = (ctx', true)) :
    ctx'.udpDataSuspended = false ∧ ¬receiveStale ctx' ∧
      wrap64 (ctx'.firstStableReceiveTick + requireContinuous) ≤ ctx'.now ∧
      ctx'.cwinBytes ≠ 0 := by
  simp only [rudpIsSendReadyNolock] at h
  generalize cleanReset (rudpCwinRefill ctx) = c at h
  split at h
  · cases h
  · split at h
    · cases h
    · obtain ⟨rfl, hfresh, hlong, hbudget⟩ := checkReception_true h
      exact ⟨endSuspension_suspended c, hfresh, hlong, hbudget⟩

theorem sendReady_continuous {lib : Libs} {i : Setup} {cs : List Call} {ctx ctx' : RudpContext}
    (hrun : exec (callStep lib) (rudpInit i) cs = some ctx)
    (hready : rudpIsSendReady true ctx = (ctx', true)) :
    ctx'.udpDataSuspended = false ∧ 0 < ctx'.cwinBytes ∧
      ctx'.firstStableReceiveTick ≠ 0 ∧
      ctx'.firstStableReceiveTick + requireContinuous ≤ ctx'.now ∧
      ctx'.lastRecvTick ≠ 0 ∧ ctx'.now ≤ ctx'.lastRecvTick + i.timeoutValue ∧
      ∃ before after, ctx'.history = before ++ .stable ctx'.firstStableReceiveTick :: after ∧
        ∀ e ∈ after, ¬e.FoundStale i.timeoutValue := by
  have hsound : ctx'.health.Sound i.timeoutValue := by
    have h := Health.invariant.run (rudpInit_sound i) hrun
    have hsteps := rudpIsSendReady_health true h.now_lt
    rw [hready] at hsteps
    exact Health.invariant.evals h hsteps
  obtain ⟨hsusp, hfresh, hlong, hbudget⟩ :
      ctx'.udpDataSuspended = false ∧ ¬receiveStale ctx' ∧
        wrap64 (ctx'.firstStableReceiveTick + requireContinuous) ≤ ctx'.now ∧
        ctx'.cwinBytes ≠ 0 := by
    unfold rudpIsSendReady at hready
    split at hready
    · cases hready
    · generalize hr : rudpIsSendReadyNolock true _ = r at hready
      obtain ⟨c, ready⟩ := r
      obtain ⟨rfl, rfl⟩ := Prod.mk.inj hready
      have hinner := rudpIsSendReadyNolock_true hr
      exact hinner
  have hnot : ¬ctx'.health.Stale := by
    intro hstale
    apply hfresh
    have hwrap := Health.wrap64_recv hsound.toTimed
    exact hstale.imp_right fun hlt => hwrap.trans_lt hlt
  have hfirst : ctx'.firstStableReceiveTick ≠ 0 := fun hz => hnot (hsound.stale_of_unset hz)
  have hwrap : wrap64 (ctx'.firstStableReceiveTick + requireContinuous) =
      ctx'.firstStableReceiveTick + requireContinuous := by
    have hnow : ctx'.now < 2 ^ 44 := hsound.now_lt
    have hle : ctx'.firstStableReceiveTick ≤ ctx'.now := hsound.first_le.trans hsound.recv_le
    apply Nat.mod_eq_of_lt
    norm_num [requireContinuous] at *
    linarith
  rw [hwrap] at hlong
  obtain ⟨hrecv, hrecent⟩ := not_or.mp hnot
  have hT : ctx'.timeoutValue = i.timeoutValue := hsound.timeout_eq
  refine ⟨hsusp, Nat.pos_of_ne_zero hbudget, hfirst, hlong, hrecv, ?_, ?_⟩
  · rw [← hT]
    exact not_lt.mp hrecent
  · exact (hsound.watched hfirst).imp fun _ hstale hfound => hnot (hstale hfound)

/-- Libraries that leave the data as it is. -/
def Libs.plain : Libs where
  crypto := Crypto.openssl
  aeadSeal _ _ plain := (plain, List.replicate packetMacSizeV2 0)
  aeadOpen _ _ enc tag := if tag = List.replicate packetMacSizeV2 0 then some enc else none
  compress2 _ _ := none
  uncompress _ _ := none
  aeadSeal_length _ _ _ := rfl
  aeadSeal_tag _ _ _ := List.length_replicate

def clockAt (sec : ℕ) (h : sec < 2 ^ 30) : Timespec := ⟨sec, 0, by norm_num at *; omega⟩

theorem firstSecond : 1 < 2 ^ 30 := by norm_num

def sampleClient : Setup where
  version := .v2
  myKey := List.replicate 20 1
  yourKey := List.replicate 20 2
  myKeyV2 := List.replicate 128 1
  yourKeyV2 := List.replicate 128 2
  iv := ⟨List.replicate 20 3, rfl⟩
  ivV2 := ⟨List.replicate 12 3, rfl⟩
  myCookie := 7
  yourCookie := 9
  peer := ⟨false, [10, 0, 0, 1], 443⟩
  mss := 1355
  useCompress := false
  clock := clockAt 1 firstSecond

/-- The other end of `sampleClient`. -/
def sampleServer : Setup := { sampleClient with
  myKey := sampleClient.yourKey
  yourKey := sampleClient.myKey
  myKeyV2 := sampleClient.yourKeyV2
  yourKeyV2 := sampleClient.myKeyV2
  myCookie := sampleClient.yourCookie
  yourCookie := sampleClient.myCookie }

/-- A keepalive of the server that echoes the client's clock. -/
def serverKeepalive : Bytes :=
  ((rudpSend Libs.plain ⟨clockAt 1 firstSecond, 0, true⟩ [] 0
    { rudpInit sampleServer with lastRecvYourTick := 1000 }).sent).getD []

def pollAt (sec : ℕ) (h : sec < 2 ^ 30) (data : List Bytes) : Call :=
  .poll ⟨clockAt sec h, ⟨clockAt sec h, 0, true⟩, 0,
    data.map fun d => ⟨clockAt sec h, ⟨false, [10, 0, 0, 1], 443⟩, d⟩⟩

def steadyRun : List Call :=
  [pollAt 1 firstSecond [serverKeepalive], pollAt 8 (by norm_num) [serverKeepalive],
    pollAt 12 (by norm_num) []]

theorem steadyRun_continuous :
    ∃ ctx ctx', exec (callStep Libs.plain) (rudpInit sampleClient) steadyRun = some ctx ∧
      rudpIsSendReady true ctx = (ctx', true) ∧ ctx'.firstStableReceiveTick ≠ 0 ∧
      ctx'.firstStableReceiveTick + requireContinuous ≤ ctx'.now := by
  have hready : ((exec (callStep Libs.plain) (rudpInit sampleClient) steadyRun).map fun ctx =>
      (rudpIsSendReady true ctx).2) = some true := by
    decide +kernel
  obtain ⟨ctx, hrun, htrue⟩ := Option.map_eq_some_iff.mp hready
  have heq : rudpIsSendReady true ctx = ((rudpIsSendReady true ctx).1, true) :=
    Prod.ext rfl htrue
  obtain ⟨-, -, hfirst, hlong, -⟩ := sendReady_continuous hrun heq
  exact ⟨ctx, _, hrun, heq, hfirst, hlong⟩

end SoftEtherVpn.UdpAccel

import SoftEtherVpn.UdpAccel.Readiness

/-!
# Suspension and backoff of the UDP data path

Overflows of the receive queue are counted by the receiving side and consumed by the
readiness checks of the sending side. The counters of the context are the counts that
the history gives, and from that the suspension law follows: when a suspension may
start, how long it lasts, what a check answers meanwhile, and when the backoff is reset.
-/

namespace SoftEtherVpn.UdpAccel

open Foundation Rudp Relation

def countOverflow (n : ℕ) : RudpEvent → ℕ
  | .overflow _ => n + 1
  | .resumed _ => 0
  | .backoffReset _ => 0
  | _ => n

/-- The receive-queue overflows since the last resume or backoff reset. -/
def overflowsSince (history : List RudpEvent) : ℕ := history.foldl countOverflow 0

def countSuspension (n : ℕ) : RudpEvent → ℕ
  | .suspended _ _ => n + 1
  | .backoffReset _ => 0
  | _ => n

/-- The suspensions since the last backoff reset. -/
def suspensionsSince (history : List RudpEvent) : ℕ := history.foldl countSuspension 0

def noteLoss (last : Option ℕ) : RudpEvent → Option ℕ
  | .gap now => some now
  | .overflow now => some now
  | .timeout now => some now
  | _ => last

/-- The clock at the last gap, overflow or receive timeout. -/
def lastLoss (history : List RudpEvent) : Option ℕ := history.foldl noteLoss none

def RudpEvent.isSuspended : RudpEvent → Bool
  | .suspended _ _ => true
  | _ => false

section Counts

variable (history : List RudpEvent) (e : RudpEvent)

@[simp] theorem overflowsSince_append :
    overflowsSince (history ++ [e]) = countOverflow (overflowsSince history) e := by
  simp [overflowsSince]

@[simp] theorem suspensionsSince_append :
    suspensionsSince (history ++ [e]) = countSuspension (suspensionsSince history) e := by
  simp [suspensionsSince]

@[simp] theorem lastLoss_append : lastLoss (history ++ [e]) = noteLoss (lastLoss history) e := by
  simp [lastLoss]

theorem suspensionsSince_le : suspensionsSince history ≤ history.countP RudpEvent.isSuspended := by
  induction history using List.reverseRecOn with
  | nil => exact le_rfl
  | append_singleton history e ih =>
    rw [suspensionsSince_append, List.countP_append, List.countP_singleton]
    cases e <;> simp [countSuspension, RudpEvent.isSuspended] <;> omega

end Counts

/-- The counters of the path are the counts of its history. -/
structure Health.Counted (h : Health) : Prop where
  inited : h.inited = true
  peerAddrSet : h.peerAddrSet = true
  now_lt : h.now < 2 ^ 44
  overflows : h.recentOverflows = overflowsSince h.history % 2 ^ 32
  suspensions : h.suspensionCount = suspensionsSince h.history % 2 ^ 32
  loss : h.lastLossEventTick = (lastLoss h.history).getD 0

namespace Health.Counted

variable {h h' : Health}

theorem tick (hc : Counted h) {t : ℕ} (hlt : t < 2 ^ 44) : Counted { h with now := t } :=
  { hc with now_lt := hlt }

/-- A step that records one event and counts it. -/
theorem note {e : RudpEvent} (hc : Counted h) (hi : h'.inited = h.inited)
    (hp : h'.peerAddrSet = h.peerAddrSet) (hn : h'.now = h.now)
    (hhist : h'.history = h.history ++ [e])
    (ho : h'.recentOverflows = countOverflow (overflowsSince h.history) e % 2 ^ 32)
    (hs : h'.suspensionCount = countSuspension (suspensionsSince h.history) e % 2 ^ 32)
    (hl : h'.lastLossEventTick = (noteLoss (lastLoss h.history) e).getD 0) : Counted h' := by
  constructor
  · exact hi.trans hc.inited
  · exact hp.trans hc.peerAddrSet
  · exact hn.trans_lt hc.now_lt
  · rw [hhist, overflowsSince_append, ho]
  · rw [hhist, suspensionsSince_append, hs]
  · rw [hhist, lastLoss_append, hl]

theorem overflows_succ (hc : Counted h) :
    (h.recentOverflows + 1) % 2 ^ 32 = (overflowsSince h.history + 1) % 2 ^ 32 := by
  rw [hc.overflows, Nat.mod_add_mod]

theorem suspensions_succ (hc : Counted h) :
    (h.suspensionCount + 1) % 2 ^ 32 = (suspensionsSince h.history + 1) % 2 ^ 32 := by
  rw [hc.suspensions, Nat.mod_add_mod]

theorem eval (hc : Counted h) (hstep : EvalStep h h') : Counted h' := by
  cases hstep with
  | evaluated => exact hc.note rfl rfl rfl rfl hc.overflows hc.suspensions hc.loss
  | reset => exact hc.note rfl rfl rfl rfl rfl rfl hc.loss
  | resumed => exact hc.note rfl rfl rfl rfl rfl hc.suspensions hc.loss
  | suspend => exact hc.note rfl rfl rfl rfl hc.overflows hc.suspensions_succ hc.loss
  | unstable => exact { hc with }
  | answered => exact hc.note rfl rfl rfl rfl hc.overflows hc.suspensions hc.loss

theorem packet (hc : Counted h) (hstep : PacketStep h h') : Counted h' := by
  cases hstep with
  | tick hle hlt => exact hc.tick hlt
  | addressed => exact { hc with peerAddrSet := rfl }
  | gap => exact hc.note rfl rfl rfl rfl hc.overflows hc.suspensions rfl
  | overflow => exact hc.note rfl rfl rfl rfl hc.overflows_succ hc.suspensions rfl
  | opened => exact hc.note rfl rfl rfl rfl hc.overflows hc.suspensions hc.loss
  | renewed => exact { hc with }

theorem pollEntry (hc : Counted h) {t : ℕ} (hlt : t < 2 ^ 44) : Counted (pollEntry t h) := by
  have hentered : Counted ({ h with now := t }.record (.polled t h.lastRecvTick)) :=
    (hc.tick hlt).note rfl rfl rfl rfl hc.overflows hc.suspensions hc.loss
  simp only [UdpAccel.pollEntry]
  split
  · exact hentered.note rfl rfl rfl rfl hentered.overflows hentered.suspensions rfl
  · exact hentered

end Health.Counted

theorem Health.counted_invariant : HealthInvariant Health.Counted Health.Counted where
  inited _ hc := hc.inited
  now_lt _ hc := hc.now_lt
  tick _ _ hc _ hlt := hc.tick hlt
  eval _ _ hc hstep := hc.eval hstep
  enter _ _ hc _ hlt := hc.pollEntry hlt
  packet _ _ hc hstep := hc.packet hstep
  leave _ hc := hc

theorem rudpInit_counted (i : Setup) : (rudpInit i).health.Counted :=
  ⟨rfl, rfl, tick64_lt i.clock, rfl, rfl, rfl⟩

/-- What the clean-period reset leaves alone, and when it acts. -/
theorem cleanReset_spec (ctx : RudpContext) :
    let c := cleanReset (rudpCwinRefill ctx)
    c.now = ctx.now ∧ c.udpDataSuspended = ctx.udpDataSuspended ∧
      c.udpDataResumeTick = ctx.udpDataResumeTick ∧
      (c.suspensionCount = ctx.suspensionCount ∧ c.recentOverflows = ctx.recentOverflows ∨
        c.recentOverflows = 0 ∧ ctx.udpDataSuspended = false ∧ ctx.lastLossEventTick ≠ 0 ∧
          ctx.lastLossEventTick + cleanResetMs ≤ ctx.now) := by
  have hrefill := rudpCwinRefill_health ctx
  have hnow := congrArg Health.now hrefill
  have hsusp := congrArg Health.suspended hrefill
  have hresume := congrArg Health.resumeTick hrefill
  have hcount := congrArg Health.suspensionCount hrefill
  have hover := congrArg Health.recentOverflows hrefill
  have hloss := congrArg Health.lastLossEventTick hrefill
  simp only [RudpContext.health] at hnow hsusp hresume hcount hover hloss
  simp only [cleanReset]
  split_ifs with hclean
  · rw [hsusp, hloss, hnow] at hclean
    obtain ⟨hs, hl, hlt, hms⟩ := hclean
    exact ⟨hnow, hsusp, hresume, Or.inr ⟨rfl, hs, hl, by omega⟩⟩
  · exact ⟨hnow, hsusp, hresume, Or.inl ⟨hcount, hover⟩⟩

/-- The suspension fields. -/
def RudpContext.suspension (ctx : RudpContext) : Bool × ℕ × ℕ :=
  (ctx.udpDataSuspended, ctx.udpDataResumeTick, ctx.suspensionCount)

theorem checkReception_suspension (check : Bool) (ctx : RudpContext) :
    (checkReception check ctx).1.suspension = ctx.suspension := by
  unfold checkReception
  split_ifs <;> rfl

section Check

variable {ctx : RudpContext}

theorem rudpIsSendReadyNolock_waiting (check : Bool) (ctx : RudpContext)
    (hsusp : ctx.udpDataSuspended = true)
    (hlt : ctx.now < ctx.udpDataResumeTick) :
    (rudpIsSendReadyNolock check ctx).2 = false ∧
      (rudpIsSendReadyNolock check ctx).1.suspension = ctx.suspension := by
  obtain ⟨hnow, hs, hresume, hcount⟩ := cleanReset_spec ctx
  simp only [rudpIsSendReadyNolock]
  generalize cleanReset (rudpCwinRefill ctx) = c at *
  rw [if_pos ⟨hs.trans hsusp, by rw [hnow, hresume]; exact hlt⟩]
  rcases hcount with ⟨hcount, -⟩ | ⟨-, hfree, -⟩
  · simp [RudpContext.suspension, hs, hresume, hcount]
  · rw [hsusp] at hfree
    cases hfree

theorem endSuspension_of_suspended (hsusp : ctx.udpDataSuspended = true) :
    (endSuspension ctx).recentOverflows = 0 := by
  unfold endSuspension
  rw [if_pos hsusp]
  rfl

theorem endSuspension_of_not_suspended (hsusp : ctx.udpDataSuspended = false) :
    endSuspension ctx = ctx := by
  unfold endSuspension
  rw [if_neg (by simp [hsusp])]

theorem endSuspension_count (ctx : RudpContext) :
    (endSuspension ctx).suspensionCount = ctx.suspensionCount := by
  unfold endSuspension
  split_ifs <;> rfl

theorem rudpIsSendReadyNolock_over (check : Bool) (ctx : RudpContext)
    (hsusp : ctx.udpDataSuspended = true)
    (hle : ctx.udpDataResumeTick ≤ ctx.now) :
    (rudpIsSendReadyNolock check ctx).1.udpDataSuspended = false ∧
      (rudpIsSendReadyNolock check ctx).1.suspensionCount = ctx.suspensionCount := by
  obtain ⟨hnow, hs, hresume, hcount⟩ := cleanReset_spec ctx
  simp only [rudpIsSendReadyNolock]
  generalize cleanReset (rudpCwinRefill ctx) = c at *
  have hover : ¬overflowSuspendThreshold ≤ (endSuspension c).recentOverflows := by
    rw [endSuspension_of_suspended (hs.trans hsusp)]
    decide
  have hnot : ¬(c.udpDataSuspended = true ∧ c.now < c.udpDataResumeTick) := by
    rintro ⟨-, hlt⟩
    omega
  rw [if_neg hnot, if_neg hover]
  have hview := checkReception_suspension check (endSuspension c)
  simp only [RudpContext.suspension, Prod.mk.injEq] at hview
  rcases hcount with ⟨hcount, -⟩ | ⟨-, hfree, -⟩
  · rw [hview.1, hview.2.2, endSuspension_count, hcount]
    exact ⟨endSuspension_suspended c, rfl⟩
  · rw [hsusp] at hfree
    cases hfree

theorem rudpIsSendReadyNolock_open (check : Bool) (ctx : RudpContext)
    (hsusp : ctx.udpDataSuspended = false)
    (hnow : ctx.now < 2 ^ 44) :
    let r := rudpIsSendReadyNolock check ctx
    (r.1.udpDataSuspended = false ∧
        (r.1.suspensionCount = ctx.suspensionCount ∨
          ctx.lastLossEventTick ≠ 0 ∧ ctx.lastLossEventTick + cleanResetMs ≤ ctx.now)) ∨
      (overflowSuspendThreshold ≤ ctx.recentOverflows ∧ r.1.udpDataSuspended = true ∧
        r.1.udpDataResumeTick = ctx.now + suspendMs ctx.suspensionCount ∧
        r.1.suspensionCount = (ctx.suspensionCount + 1) % 2 ^ 32) := by
  obtain ⟨hnow', hs, hresume, hcount⟩ := cleanReset_spec ctx
  simp only [rudpIsSendReadyNolock]
  generalize cleanReset (rudpCwinRefill ctx) = c at *
  have hfree := hs.trans hsusp
  have hnot : ¬(c.udpDataSuspended = true ∧ c.now < c.udpDataResumeTick) := by
    simp [hfree]
  rw [if_neg hnot, endSuspension_of_not_suspended hfree]
  split_ifs with hover
  · right
    rcases hcount with ⟨hcount, hrecent⟩ | ⟨hzero, -⟩
    · rw [hrecent] at hover
      refine ⟨hover, rfl, ?_, ?_⟩
      · change wrap64 (c.now + suspendMs c.suspensionCount) = _
        rw [hnow', hcount, wrap64_suspend hnow]
      · change (c.suspensionCount + 1) % 2 ^ 32 = _
        rw [hcount]
    · rw [hzero] at hover
      exact absurd hover (by decide)
  · left
    have hview := checkReception_suspension check c
    simp only [RudpContext.suspension, Prod.mk.injEq] at hview
    refine ⟨hview.1.trans hfree, ?_⟩
    rw [hview.2.2]
    rcases hcount with ⟨hcount, -⟩ | ⟨-, -, hloss, hclean⟩
    · exact Or.inl hcount
    · exact Or.inr ⟨hloss, hclean⟩

end Check

section Calls

variable {lib : Libs} {check : Bool} {ctx ctx' : RudpContext}

theorem packets_suspension {h h' : Health} (hsteps : ReflTransGen PacketStep h h') :
    h'.suspended = h.suspended ∧ h'.resumeTick = h.resumeTick ∧
      h'.suspensionCount = h.suspensionCount := by
  induction hsteps with
  | refl => exact ⟨rfl, rfl, rfl⟩
  | tail _ hstep ih =>
    obtain ⟨hs, hr, hc⟩ := ih
    cases hstep <;> exact ⟨hs, hr, hc⟩

theorem pollEntry_suspension (t : ℕ) (h : Health) :
    (pollEntry t h).suspended = h.suspended ∧ (pollEntry t h).resumeTick = h.resumeTick ∧
      (pollEntry t h).suspensionCount = h.suspensionCount := by
  simp only [pollEntry]
  split <;> exact ⟨rfl, rfl, rfl⟩

def Call.isCheck : Call → Bool
  | .ready _ => true
  | _ => false

/-- Only a readiness check touches the suspension. -/
theorem callStep_suspension {c : Call} (hc : c.isCheck = false) (hinit : ctx.inited = true)
    (hstep : callStep lib ctx c = some ctx') : ctx'.suspension = ctx.suspension := by
  obtain ⟨horder, rfl⟩ := callStep_eq_some.mp hstep
  cases c with
  | poll inp =>
    have hsteps : ReflTransGen PacketStep _ (rudpPoll lib inp ctx).health :=
      rudpPoll_health inp hinit horder
    have hpackets := packets_suspension hsteps
    obtain ⟨hs, hr, hn⟩ := pollEntry_suspension (tick64 inp.clock) ctx.health
    rw [hs, hr, hn] at hpackets
    obtain ⟨hs, hr, hn⟩ := hpackets
    exact Prod.ext hs (Prod.ext hr hn)
  | send inp data flag =>
    have hsteps : ReflTransGen PacketStep _ (rudpSend lib inp data flag ctx).ctx.health :=
      (rudpSend_tick inp data flag horder).1
    obtain ⟨hs, hr, hn⟩ := packets_suspension hsteps
    exact Prod.ext hs (Prod.ext hr hn)
  | ready check => cases hc
  | recv maxLen =>
    have hview := rudpRecv_health maxLen ctx
    exact Prod.ext (congrArg Health.suspended hview)
      (Prod.ext (congrArg Health.resumeTick hview) (congrArg Health.suspensionCount hview))

theorem rudpIsSendReady_eq (hc : ctx.health.Counted) :
    rudpIsSendReady check ctx =
      let r := rudpIsSendReadyNolock check (ctx.record (.evaluated ctx.now ctx.lastRecvTick))
      (r.1.record (.answered r.1.now r.2), r.2) := by
  have hi : ctx.inited = true := hc.inited
  have hp : ctx.peerAddrSet = true := hc.peerAddrSet
  simp [rudpIsSendReady, hi, hp]

theorem rudpIsSendReady_waiting (check : Bool) (hc : ctx.health.Counted)
    (hsusp : ctx.udpDataSuspended = true)
    (hlt : ctx.now < ctx.udpDataResumeTick) :
    (rudpIsSendReady check ctx).2 = false ∧
      (rudpIsSendReady check ctx).1.suspension = ctx.suspension := by
  rw [rudpIsSendReady_eq hc]
  exact rudpIsSendReadyNolock_waiting check _ hsusp hlt

theorem rudpIsSendReady_over (check : Bool) (hc : ctx.health.Counted)
    (hsusp : ctx.udpDataSuspended = true)
    (hle : ctx.udpDataResumeTick ≤ ctx.now) :
    (rudpIsSendReady check ctx).1.udpDataSuspended = false ∧
      (rudpIsSendReady check ctx).1.suspensionCount = ctx.suspensionCount := by
  rw [rudpIsSendReady_eq hc]
  exact rudpIsSendReadyNolock_over check _ hsusp hle

theorem rudpIsSendReady_open (check : Bool) (hc : ctx.health.Counted)
    (hsusp : ctx.udpDataSuspended = false) :
    let r := rudpIsSendReady check ctx
    (r.1.udpDataSuspended = false ∧
        (r.1.suspensionCount = ctx.suspensionCount ∨
          ctx.lastLossEventTick ≠ 0 ∧ ctx.lastLossEventTick + cleanResetMs ≤ ctx.now)) ∨
      (overflowSuspendThreshold ≤ ctx.recentOverflows ∧ r.1.udpDataSuspended = true ∧
        r.1.udpDataResumeTick = ctx.now + suspendMs ctx.suspensionCount ∧
        r.1.suspensionCount = (ctx.suspensionCount + 1) % 2 ^ 32) := by
  rw [rudpIsSendReady_eq hc]
  exact rudpIsSendReadyNolock_open check _ hsusp hc.now_lt

/-- Every readiness check of a run is made before tick `resume`. -/
def ChecksBefore (resume : ℕ) (ctx : RudpContext) (c : Call) : Prop :=
  c.isCheck = true → ctx.now < resume

theorem suspended_until {cs : List Call} (hc : ctx.health.Counted)
    (hsusp : ctx.udpDataSuspended = true)
    (hbefore : Along (callStep lib) (ChecksBefore ctx.udpDataResumeTick) ctx cs)
    (hrun : exec (callStep lib) ctx cs = some ctx') :
    ctx'.health.Counted ∧ ctx'.udpDataSuspended = true ∧
      ctx'.udpDataResumeTick = ctx.udpDataResumeTick := by
  apply exec_invariant_along (I := fun c => c.health.Counted ∧ c.udpDataSuspended = true ∧
    c.udpDataResumeTick = ctx.udpDataResumeTick) _ ⟨hc, hsusp, rfl⟩ hbefore hrun
  rintro s c t ⟨hcount, hs, hr⟩ hbefore hstep
  have hview : t.suspension = s.suspension := by
    by_cases hcheck : c.isCheck = true
    · cases c with
      | ready check =>
        obtain ⟨-, rfl⟩ := callStep_eq_some.mp hstep
        exact (rudpIsSendReady_waiting check hcount hs (hr ▸ hbefore hcheck)).2
      | _ => cases hcheck
    · exact callStep_suspension (by simpa using hcheck) hcount.inited hstep
  simp only [RudpContext.suspension, Prod.mk.injEq] at hview
  exact ⟨Health.counted_invariant.step hcount hstep, hview.1.trans hs, hview.2.1.trans hr⟩

end Calls

/-- The suspension law in a state `ctx`. -/
structure SuspensionLaw (lib : Libs) (ctx : RudpContext) : Prop where
  /-- Nothing but a readiness check changes the suspension or its count. -/
  onlyChecks : ∀ c ctx', c.isCheck = false → callStep lib ctx c = some ctx' →
    ctx'.udpDataSuspended = ctx.udpDataSuspended ∧
      ctx'.udpDataResumeTick = ctx.udpDataResumeTick ∧
      ctx'.suspensionCount = ctx.suspensionCount
  /-- A suspension that a check starts. -/
  starts : ∀ check, ctx.udpDataSuspended = false →
    (rudpIsSendReady check ctx).1.udpDataSuspended = true →
    8 ≤ overflowsSince ctx.history ∧
      (rudpIsSendReady check ctx).1.udpDataResumeTick =
        ctx.now + 30000 * 2 ^ min (suspensionsSince ctx.history) 3
  /-- The checks of a suspension up to the one that ends it. -/
  holds : ctx.udpDataSuspended = true → ∀ cs ctx', exec (callStep lib) ctx cs = some ctx' →
    Along (callStep lib) (ChecksBefore ctx.udpDataResumeTick) ctx cs →
    ctx'.udpDataSuspended = true ∧ ∀ check,
      (ctx'.now < ctx.udpDataResumeTick → (rudpIsSendReady check ctx').2 = false) ∧
      (ctx.udpDataResumeTick ≤ ctx'.now →
        (rudpIsSendReady check ctx').1.udpDataSuspended = false)
  /-- A check that resets the backoff. -/
  resets : ∀ check, ctx.suspensionCount ≠ 0 →
    (rudpIsSendReady check ctx).1.suspensionCount = 0 →
    ctx.udpDataSuspended = false ∧
      ∃ loss, lastLoss ctx.history = some loss ∧ loss + 300000 ≤ ctx.now

theorem suspendMs_of_lt {n : ℕ} (h : n < 2 ^ 31) : suspendMs n = 30000 * 2 ^ min n 3 := by
  have hint : int32 n = n := int32_of_lt (by omega) (by exact_mod_cast h)
  have hshift : (if (n : ℤ) > 3 then 3 else (n : ℤ)).toNat = min n 3 := by
    split_ifs <;> omega
  rw [suspendMs, hint, suspendBackoffMaxShift, hshift, udpSuspendMs]

theorem suspension_law {lib : Libs} {i : Setup} {cs : List Call} {ctx : RudpContext}
    (hrun : exec (callStep lib) (rudpInit i) cs = some ctx)
    (hfew : ctx.history.countP RudpEvent.isSuspended < 2 ^ 31) : SuspensionLaw lib ctx := by
  have hc : ctx.health.Counted := Health.counted_invariant.run (rudpInit_counted i) hrun
  have hsince : suspensionsSince ctx.history < 2 ^ 31 :=
    (suspensionsSince_le ctx.history).trans_lt hfew
  have hcount : ctx.suspensionCount = suspensionsSince ctx.history :=
    hc.suspensions.trans (Nat.mod_eq_of_lt (hsince.trans (by norm_num)))
  constructor
  · intro c ctx' hcheck hstep
    have hview := callStep_suspension hcheck hc.inited hstep
    simpa [RudpContext.suspension] using hview
  · intro check hsusp hstart
    rcases rudpIsSendReady_open check hc hsusp with ⟨hfree, -⟩ | ⟨hover, -, hresume, -⟩
    · rw [hfree] at hstart
      cases hstart
    · constructor
      · have hle := Nat.mod_le (overflowsSince ctx.history) (2 ^ 32)
        have hrecent : ctx.recentOverflows = overflowsSince ctx.history % 2 ^ 32 := hc.overflows
        exact (hrecent ▸ hover).trans hle
      · rw [hresume, hcount, suspendMs_of_lt hsince]
  · intro hsusp cs ctx' hrun' hbefore
    obtain ⟨hc', hs', hr'⟩ := suspended_until hc hsusp hbefore hrun'
    refine ⟨hs', fun check => ⟨?_, ?_⟩⟩
    · intro hlt
      exact (rudpIsSendReady_waiting check hc' hs' (hr' ▸ hlt)).1
    · intro hle
      exact (rudpIsSendReady_over check hc' hs' (hr' ▸ hle)).1
  · intro check hne hzero
    have hsame : (rudpIsSendReady check ctx).1.suspensionCount ≠ ctx.suspensionCount := by
      rw [hzero]
      exact hne.symm
    cases hsusp : ctx.udpDataSuspended with
    | true =>
      rcases lt_or_ge ctx.now ctx.udpDataResumeTick with hlt | hle
      · have hview := (rudpIsSendReady_waiting check hc hsusp hlt).2
        exact absurd (congrArg (fun v => v.2.2) hview) hsame
      · exact absurd (rudpIsSendReady_over check hc hsusp hle).2 hsame
    | false =>
      refine ⟨rfl, ?_⟩
      rcases rudpIsSendReady_open check hc hsusp with
        ⟨-, hkept | ⟨hloss, hclean⟩⟩ | ⟨-, -, -, hnext⟩
      · exact absurd hkept hsame
      · have htick : ctx.lastLossEventTick = (lastLoss ctx.history).getD 0 := hc.loss
        rw [htick] at hloss hclean
        cases hlast : lastLoss ctx.history with
        | none => simp [hlast] at hloss
        | some loss =>
          rw [hlast] at hclean
          exact ⟨loss, rfl, hclean⟩
      · rw [hzero] at hnext
        have hlt : ctx.suspensionCount < 2 ^ 31 := hcount ▸ hsince
        rw [Nat.mod_eq_of_lt (by omega)] at hnext
        omega

/-- A block of one byte from the server. -/
def serverBlock : Bytes :=
  ((rudpSend Libs.plain ⟨clockAt 1 firstSecond, 0, true⟩ [5] 0
    { rudpInit sampleServer with lastRecvYourTick := 1000 }).sent).getD []

/-- Eight blocks more than the receive queue holds, then a readiness check. -/
def overflowRun : List Call :=
  [pollAt 1 firstSecond (List.replicate (recvQueueSize + 8) serverBlock), .ready true]

theorem overflowRun_suspensionLaw :
    ∃ ctx, exec (callStep Libs.plain) (rudpInit sampleClient) overflowRun = some ctx ∧
      ctx.udpDataSuspended = true ∧ SuspensionLaw Libs.plain ctx := by
  have hrun : ((exec (callStep Libs.plain) (rudpInit sampleClient) overflowRun).map fun ctx =>
      (ctx.udpDataSuspended, ctx.history.countP RudpEvent.isSuspended)) = some (true, 1) := by
    decide +kernel
  obtain ⟨ctx, hrun, heq⟩ := Option.map_eq_some_iff.mp hrun
  obtain ⟨hsusp, hone⟩ := Prod.mk.inj heq
  exact ⟨ctx, hrun, hsusp, suspension_law hrun (by rw [hone]; norm_num)⟩

end SoftEtherVpn.UdpAccel

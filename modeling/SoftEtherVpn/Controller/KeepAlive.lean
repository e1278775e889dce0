import SoftEtherVpn.Foundation.Runs

/-!
# Keepalive death detection

The receive loop and the check that runs once per second share a `KeepAliveManager`. A call of
`receiveBatch` returns the number of bytes received, or 0 for a keepalive as well as for an idle
poll. The loop records the calls that return 0 and no others, so that the manager measures the
time since the last of these: data is not noticed, and an idle poll is taken for a keepalive.
-/

namespace SoftEtherVpn.Controller.KeepAlive

open Foundation

def defaultIntervalMs : ℤ := 60000
def defaultTimeoutMs : ℤ := 30000
def missedThreshold : ℕ := 3

structure KeepAliveManager where
  intervalMs : ℤ := defaultIntervalMs
  timeoutMs : ℤ := defaultTimeoutMs
  lastSentTime : ℤ := 0
  lastReceivedTime : ℤ := 0
  missedCount : ℕ := 0
  isRunning : Bool := false

namespace KeepAliveManager

def setInterval (m : KeepAliveManager) (intervalMs : ℤ) : KeepAliveManager :=
  { m with intervalMs := intervalMs }

def setTimeout (m : KeepAliveManager) (timeoutMs : ℤ) : KeepAliveManager :=
  { m with timeoutMs := timeoutMs }

def start (m : KeepAliveManager) (now : ℤ) : KeepAliveManager :=
  if m.isRunning then m
  else { m with isRunning := true, lastSentTime := now, lastReceivedTime := now, missedCount := 0 }

def stop (m : KeepAliveManager) : KeepAliveManager := { m with isRunning := false }

def shouldSendKeepAlive (m : KeepAliveManager) (now : ℤ) : Bool :=
  if !m.isRunning then false else now - m.lastSentTime ≥ m.intervalMs

def recordSent (m : KeepAliveManager) (now : ℤ) : KeepAliveManager := { m with lastSentTime := now }

def recordReceived (m : KeepAliveManager) (now : ℤ) : KeepAliveManager :=
  { m with lastReceivedTime := now, missedCount := 0 }

def isConnectionDead (m : KeepAliveManager) (now : ℤ) : Bool × KeepAliveManager :=
  if !m.isRunning then (false, m)
  else
    let m :=
      if now - m.lastReceivedTime > m.timeoutMs then { m with missedCount := m.missedCount + 1 }
      else m
    (m.missedCount ≥ missedThreshold, m)

end KeepAliveManager

/-- What a call of `receiveBatch` has met. -/
inductive BatchResult
  | data (bytes : ℕ)
  | keepAlive
  | idle
  | error

/-- The value it returns; there is at least one byte of data. -/
def BatchResult.total : BatchResult → ℤ
  | data bytes => bytes + 1
  | keepAlive => 0
  | idle => 0
  | error => -1

/-- Whether something has come from the server. -/
def BatchResult.fromServer : BatchResult → Bool
  | data _ => true
  | keepAlive => true
  | idle => false
  | error => false

/-- The manager and whether the two loops are running. -/
structure Forwarding where
  manager : KeepAliveManager
  receiving : Bool
  checking : Bool

/-- A turn of one of the loops, with the clock; a loop leaves when the connection is closed. -/
inductive Event
  | received (result : BatchResult) (now : ℤ)
  | checked (now : ℤ)
  | receiveLeaves (now : ℤ)
  | checkLeaves (now : ℤ)

def Event.now : Event → ℤ
  | received _ now => now
  | checked now => now
  | receiveLeaves now => now
  | checkLeaves now => now

/-- `startDataForwarding`, with `startKeepalive` at its end. -/
def startDataForwarding (keepAliveIntervalMs : ℤ) (now : ℤ) : Forwarding where
  manager := ((KeepAliveManager.setInterval {} keepAliveIntervalMs).setTimeout 30000).start now
  receiving := true
  checking := true

/-- The check before `isConnectionDead` is called. -/
def sentKeepAlive (m : KeepAliveManager) (now : ℤ) : KeepAliveManager :=
  if m.shouldSendKeepAlive now then m.recordSent now else m

def step (s : Forwarding) : Event → Option Forwarding
  | .received result now =>
    if !s.receiving then none
    else if result.total > 0 then some s
    else if result.total = 0 then some { s with manager := s.manager.recordReceived now }
    else some { s with receiving := false }
  | .checked now =>
    if !s.checking then none
    else
      let (dead, m) := (sentKeepAlive s.manager now).isConnectionDead now
      if dead then some { s with manager := m.stop, checking := false }
      else some { s with manager := m }
  | .receiveLeaves _ => if s.receiving then some { s with receiving := false } else none
  | .checkLeaves _ =>
    if s.checking then some { s with manager := s.manager.stop, checking := false } else none

/-- What `isConnectionDead` returns to a check. -/
def verdict (s : Forwarding) (now : ℤ) : Bool :=
  ((sentKeepAlive s.manager now).isConnectionDead now).1

/-! ### Histories -/

namespace Event

/-- A call that returns 0. -/
def isZero : Event → Bool
  | received result _ => result.total = 0
  | _ => false

/-- A check more than 30 seconds after `origin`. -/
def isLate (origin : ℤ) : Event → Bool
  | checked now => now - origin > 30000
  | _ => false

end Event

/-- When a call has last returned 0, or the start. -/
def lastZero (start : ℤ) (es : List Event) : ℤ :=
  es.foldl (fun t e => if e.isZero then e.now else t) start

/-- The events since then. -/
def afterZero (es : List Event) : List Event :=
  es.foldl (fun acc e => if e.isZero then [] else acc ++ [e]) []

def lateChecks (origin : ℤ) (es : List Event) : ℕ := es.countP (Event.isLate origin)

/-- The checks that came more than 30 seconds after the last call that returned 0. -/
def silentChecks (start : ℤ) (es : List Event) : ℕ :=
  lateChecks (lastZero start es) (afterZero es)

/-- A call with a result of the kind `p` in the last 30 seconds. -/
def Within (p : BatchResult → Prop) (es : List Event) (now : ℤ) : Prop :=
  ∃ result t, .received result t ∈ es ∧ p result ∧ now - t ≤ 30000

/-- Every call has been an idle poll. -/
def OnlyIdle (es : List Event) : Prop := ∀ result t, .received result t ∈ es → result = .idle

/-- A check reports a dead connection never while the server has sent something in the last 30
seconds, and always from the third check on that comes more than 30 seconds after the start
when nothing has been received. -/
def FollowsTraffic (interval start : ℤ) (es : List Event) : Prop :=
  ∀ before now after s, es = before ++ .checked now :: after →
    exec step (startDataForwarding interval start) before = some s →
    (verdict s now = true → ¬Within (fun r => r.fromServer = true) before now) ∧
    (OnlyIdle before → 3 ≤ lateChecks start (before ++ [.checked now]) → verdict s now = true)

/-- At the third check more than 30 seconds after the last call that returned 0, no call has returned
data in the last 30 seconds; and when all calls have been idle, the third check more than 30 seconds
after the start is the third more than 30 seconds after the last of these calls. -/
def ZerosFollowTraffic (start : ℤ) (es : List Event) : Prop :=
  ∀ before now after, es = before ++ .checked now :: after →
    (3 ≤ silentChecks start (before ++ [.checked now]) →
      ¬Within (fun r => 0 < r.total) before now) ∧
    (OnlyIdle before → 3 ≤ lateChecks start (before ++ [.checked now]) →
      3 ≤ silentChecks start (before ++ [.checked now]))

section Histories

variable {start : ℤ} {es : List Event} {e : Event}

theorem lastZero_append (start : ℤ) (es : List Event) (e : Event) :
    lastZero start (es ++ [e]) = if e.isZero then e.now else lastZero start es := by
  rw [lastZero, List.foldl_append]
  rfl

theorem silentChecks_zero (h : e.isZero = true) : silentChecks start (es ++ [e]) = 0 := by
  rw [silentChecks, afterZero, List.foldl_append]
  simp only [List.foldl_cons, List.foldl_nil, h, if_true]
  rfl

theorem silentChecks_append (h : e.isZero = false) :
    silentChecks start (es ++ [e]) =
      silentChecks start es + if e.isLate (lastZero start es) then 1 else 0 := by
  rw [silentChecks, lastZero_append, afterZero, List.foldl_append]
  simp only [List.foldl_cons, List.foldl_nil, h, Bool.false_eq_true, if_false]
  rw [lateChecks, List.countP_append, List.countP_singleton]
  rfl

/-- The clock does not go back. -/
def Clocked (start : ℤ) (es : List Event) : Prop := (start :: es.map Event.now).Pairwise (· ≤ ·)

theorem Clocked.append_iff (start : ℤ) (es : List Event) (e : Event) :
    Clocked start (es ++ [e]) ↔
      Clocked start es ∧ start ≤ e.now ∧ ∀ e' ∈ es, e'.now ≤ e.now := by
  rw [Clocked, Clocked, List.map_append, ← List.cons_append, List.pairwise_append]
  simp

/-- No call has returned 0 since the last one that has. -/
theorem now_le_lastZero (hclock : Clocked start es) {e : Event} (he : e ∈ es)
    (hzero : e.isZero = true) : e.now ≤ lastZero start es := by
  induction es using List.reverseRecOn with
  | nil => cases he
  | append_singleton es e' ih =>
    obtain ⟨hclock, -, hlast⟩ := (Clocked.append_iff start es e').mp hclock
    rw [lastZero_append]
    rcases List.mem_append.mp he with he | he
    · split_ifs
      · exact hlast e he
      · exact ih hclock he
    · rw [List.mem_singleton.mp he] at hzero ⊢
      rw [if_pos hzero]

/-- A silent check is one of the events, more than 30 seconds after the last call that returned 0. -/
theorem exists_late (h : 0 < silentChecks start es) :
    ∃ e ∈ es, lastZero start es < e.now - 30000 := by
  induction es using List.reverseRecOn with
  | nil => cases h
  | append_singleton es e ih =>
    cases hzero : e.isZero with
    | true =>
      rw [silentChecks_zero hzero] at h
      cases h
    | false =>
      rw [silentChecks_append hzero] at h
      rw [lastZero_append, hzero]
      by_cases hlate : e.isLate (lastZero start es) = true
      · refine ⟨e, by simp, ?_⟩
        cases e with
        | checked now =>
          have hlate : now - lastZero start es > 30000 := by
            simpa [Event.isLate] using hlate
          change lastZero start es < now - 30000
          omega
        | received result now => cases hlate
        | receiveLeaves now => cases hlate
        | checkLeaves now => cases hlate
      · rw [if_neg hlate, add_zero] at h
        obtain ⟨e', he', hlt⟩ := ih h
        exact ⟨e', List.mem_append_left _ he', hlt⟩

end Histories

/-- What the manager holds after the events. -/
structure Tracks (start : ℤ) (es : List Event) (s : Forwarding) : Prop where
  timeout : s.manager.timeoutMs = 30000
  running : s.manager.isRunning = s.checking
  last : s.manager.lastReceivedTime = lastZero start es
  missed : s.manager.missedCount = silentChecks start es

section Tracking

variable {start : ℤ} {es : List Event} {s t : Forwarding} {now : ℤ}

theorem sentKeepAlive_eq (m : KeepAliveManager) (now : ℤ) :
    ∃ sent, sentKeepAlive m now = { m with lastSentTime := sent } := by
  rw [sentKeepAlive]
  split_ifs
  · exact ⟨now, rfl⟩
  · exact ⟨m.lastSentTime, rfl⟩

/-- A check of a running manager counts the silent checks up to itself. -/
theorem Tracks.isConnectionDead (h : Tracks start es s) (hchecking : s.checking = true) (now : ℤ) :
    ∃ sent, (sentKeepAlive s.manager now).isConnectionDead now =
      (decide (3 ≤ silentChecks start (es ++ [.checked now])),
        { s.manager with
          lastSentTime := sent
          missedCount := silentChecks start (es ++ [.checked now]) }) := by
  obtain ⟨sent, hsent⟩ := sentKeepAlive_eq s.manager now
  use sent
  have hrunning : s.manager.isRunning = true := h.running.trans hchecking
  rw [hsent, KeepAliveManager.isConnectionDead, silentChecks_append rfl]
  simp only [hrunning, Bool.not_true, Bool.false_eq_true, if_false, h.last, h.timeout]
  by_cases hlate : now - lastZero start es > 30000
  · have hevent : (Event.checked now).isLate (lastZero start es) = true := by
      simpa [Event.isLate] using hlate
    simp only [if_pos hlate, hevent, if_true, h.missed]
    rfl
  · have hevent : (Event.checked now).isLate (lastZero start es) = false := by
      simpa [Event.isLate] using hlate
    simp only [if_neg hlate, hevent, Bool.false_eq_true, if_false, add_zero, ← h.missed]
    rfl

theorem tracks_start (interval start : ℤ) :
    Tracks start [] (startDataForwarding interval start) := by
  constructor <;> rfl

/-- An event that returns no 0 and is no check leaves what is tracked. -/
theorem Tracks.other (h : Tracks start es s) {e : Event} (hzero : e.isZero = false)
    (hlate : e.isLate (lastZero start es) = false) (htimeout : t.manager.timeoutMs = 30000)
    (hrunning : t.manager.isRunning = t.checking)
    (hlast : t.manager.lastReceivedTime = s.manager.lastReceivedTime)
    (hmissed : t.manager.missedCount = s.manager.missedCount) : Tracks start (es ++ [e]) t where
  timeout := htimeout
  running := hrunning
  last := by
    rw [hlast, h.last, lastZero_append, hzero]
    rfl
  missed := by
    rw [hmissed, h.missed, silentChecks_append hzero, hlate]
    rfl

theorem Tracks.step (h : Tracks start es s) {e : Event} (hstep : step s e = some t) :
    Tracks start (es ++ [e]) t := by
  cases e with
  | received result now =>
    simp only [KeepAlive.step] at hstep
    split_ifs at hstep with hleft hdata hzero
    · cases hstep
      exact h.other (by simp [Event.isZero, hdata.ne']) rfl h.timeout h.running rfl rfl
    · cases hstep
      have hevent : (Event.received result now).isZero = true := by simp [Event.isZero, hzero]
      refine ⟨h.timeout, h.running, ?_, (silentChecks_zero hevent).symm⟩
      rw [lastZero_append, if_pos hevent]
      rfl
    · cases hstep
      exact h.other (by simp [Event.isZero, hzero]) rfl h.timeout h.running rfl rfl
  | checked now =>
    simp only [KeepAlive.step] at hstep
    split_ifs at hstep with hleft hdead
    all_goals
      obtain ⟨sent, hcheck⟩ := h.isConnectionDead (by simpa using hleft) now
      rw [hcheck] at hstep
      cases hstep
    · refine ⟨h.timeout, rfl, ?_, rfl⟩
      rw [lastZero_append]
      exact h.last
    · refine ⟨h.timeout, h.running, ?_, rfl⟩
      rw [lastZero_append]
      exact h.last
  | receiveLeaves now =>
    simp only [KeepAlive.step] at hstep
    split_ifs at hstep
    cases hstep
    exact h.other rfl rfl h.timeout h.running rfl rfl
  | checkLeaves now =>
    simp only [KeepAlive.step] at hstep
    split_ifs at hstep
    cases hstep
    exact h.other rfl rfl h.timeout rfl rfl rfl

theorem exec_tracks {interval : ℤ}
    (hrun : exec KeepAlive.step (startDataForwarding interval start) es = some s) :
    Tracks start es s :=
  exec_trace_invariant (fun _ _ _ _ h hstep => h.step hstep) (tracks_start interval start) hrun

end Tracking

section Verdicts

variable {interval start now : ℤ} {before after : List Event} {s t : Forwarding}

/-- A check that is made reports a dead connection exactly from the third silent check on. -/
theorem verdict_iff (hbefore : exec step (startDataForwarding interval start) before = some s)
    (hstep : step s (.checked now) = some t) :
    verdict s now = true ↔ 3 ≤ silentChecks start (before ++ [.checked now]) := by
  have hchecking : s.checking = true := by
    by_contra hleft
    simp [step, hleft] at hstep
  obtain ⟨sent, hcheck⟩ := (exec_tracks hbefore).isConnectionDead hchecking now
  rw [verdict, hcheck, decide_eq_true_iff]

/-- At the third silent check nothing that returned 0 is younger than 30 seconds. -/
theorem within_iff_of_silent (hclock : Clocked start (before ++ [.checked now]))
    (hsilent : 3 ≤ silentChecks start (before ++ [.checked now])) :
    Within (fun r => r.fromServer = true) before now ↔ Within (fun r => 0 < r.total) before now := by
  constructor
  · rintro ⟨result, t, hmem, hserver, hrecent⟩
    refine ⟨result, t, hmem, ?_, hrecent⟩
    by_contra hnodata
    have hzero : (Event.received result t).isZero = true := by
      cases result with
      | data bytes => exact absurd (by simp only [BatchResult.total]; omega) hnodata
      | keepAlive => rfl
      | idle => rfl
      | error => cases hserver
    have hle := now_le_lastZero hclock (List.mem_append_left _ hmem) hzero
    have hsome : 0 < silentChecks start (before ++ [.checked now]) := by omega
    obtain ⟨e, he, hlate⟩ := exists_late hsome
    have hnow : e.now ≤ now := by
      rcases List.mem_append.mp he with he | he
      · exact ((Clocked.append_iff start before _).mp hclock).2.2 e he
      · rw [List.mem_singleton.mp he]
        exact le_rfl
    change t ≤ _ at hle
    omega
  · rintro ⟨result, t, hmem, hdata, hrecent⟩
    refine ⟨result, t, hmem, ?_, hrecent⟩
    cases result with
    | data bytes => rfl
    | keepAlive => exact absurd hdata (lt_irrefl _)
    | idle => exact absurd hdata (lt_irrefl _)
    | error => exact absurd hdata (by decide)

end Verdicts

theorem Clocked.of_append {start : ℤ} {es fs : List Event} (h : Clocked start (es ++ fs)) :
    Clocked start es := by
  rw [Clocked, List.map_append, ← List.cons_append] at h
  exact (List.pairwise_append.mp h).1

/-- A run of the two loops follows the traffic exactly when the calls that return 0 do. -/
theorem followsTraffic_iff (interval start : ℤ) (es : List Event) (hclock : Clocked start es)
    (hrun : (exec step (startDataForwarding interval start) es).isSome) :
    FollowsTraffic interval start es ↔ ZerosFollowTraffic start es := by
  have hcheck : ∀ before now after, es = before ++ .checked now :: after →
      ∃ s t, exec step (startDataForwarding interval start) before = some s ∧
        step s (.checked now) = some t ∧ Clocked start (before ++ [.checked now]) := by
    rintro before now after rfl
    obtain ⟨u, hu⟩ := Option.isSome_iff_exists.mp hrun
    obtain ⟨s, hs, hrest⟩ := exec_append_eq_some.mp hu
    obtain ⟨t, ht, -⟩ := exec_cons_eq_some.mp hrest
    refine ⟨s, t, hs, ht, ?_⟩
    rw [List.append_cons] at hclock
    exact hclock.of_append
  constructor
  · intro h before now after heq
    obtain ⟨s, t, hs, ht, hclock⟩ := hcheck before now after heq
    obtain ⟨hrecent, hidle⟩ := h before now after s heq hs
    rw [verdict_iff hs ht] at hrecent hidle
    refine ⟨?_, hidle⟩
    intro hsilent
    rw [← within_iff_of_silent hclock hsilent]
    exact hrecent hsilent
  · intro h before now after s heq hs
    obtain ⟨s', t, hs', ht, hclock⟩ := hcheck before now after heq
    obtain rfl := Option.some.inj (hs'.symm.trans hs)
    obtain ⟨hdata, hidle⟩ := h before now after heq
    rw [verdict_iff hs ht]
    refine ⟨?_, hidle⟩
    intro hsilent
    rw [within_iff_of_silent hclock hsilent]
    exact hdata hsilent

/-- The checks of the first `n` seconds, each after a call with the given result. -/
def everySecond (result : BatchResult) (n : ℕ) : List Event :=
  (List.range n).flatMap fun k : ℕ =>
    [.received result (1000 * (k : ℤ) + 900), .checked (1000 * (k : ℤ) + 1000)]

instance (start : ℤ) (es : List Event) : Decidable (Clocked start es) :=
  inferInstanceAs (Decidable (List.Pairwise _ _))

/-- One keepalive a second. -/
theorem followsTraffic_keepAlives :
    Clocked 0 (everySecond .keepAlive 40) ∧
      (exec step (startDataForwarding 60000 0) (everySecond .keepAlive 40)).isSome ∧
      (FollowsTraffic 60000 0 (everySecond .keepAlive 40) ↔
        ZerosFollowTraffic 0 (everySecond .keepAlive 40)) := by
  have hclock : Clocked 0 (everySecond .keepAlive 40) := by decide +kernel
  have hrun : (exec step (startDataForwarding 60000 0) (everySecond .keepAlive 40)).isSome := by
    decide +kernel
  exact ⟨hclock, hrun, followsTraffic_iff 60000 0 _ hclock hrun⟩

/-- With data every second the connection is reported dead after 33 seconds; with nothing but idle
polls it is not. -/
theorem traffic_not_followed :
    (Clocked 0 (everySecond (.data 99) 33) ∧
      (exec step (startDataForwarding 60000 0) (everySecond (.data 99) 33)).isSome ∧
      ¬FollowsTraffic 60000 0 (everySecond (.data 99) 33)) ∧
    Clocked 0 (everySecond .idle 33) ∧
      (exec step (startDataForwarding 60000 0) (everySecond .idle 33)).isSome ∧
      ¬FollowsTraffic 60000 0 (everySecond .idle 33) := by
  have hlast : ∀ r, everySecond r 33 =
      (everySecond r 32 ++ [.received r 32900]) ++ [.checked 33000] := by
    intro r
    rw [everySecond, List.range_succ, List.flatMap_append, everySecond, List.append_assoc]
    rfl
  refine ⟨⟨by decide +kernel, by decide +kernel, ?_⟩, by decide +kernel, by decide +kernel, ?_⟩
  · intro h
    have hdead : ((exec step (startDataForwarding 60000 0)
        (everySecond (.data 99) 32 ++ [.received (.data 99) 32900])).map (verdict · 33000)) =
          some true := by
      decide +kernel
    obtain ⟨s, hs, hverdict⟩ := Option.map_eq_some_iff.mp hdead
    apply (h _ 33000 [] s (hlast _) hs).1 hverdict
    exact ⟨.data 99, 32900, by simp, rfl, by norm_num⟩
  · intro h
    have halive : ((exec step (startDataForwarding 60000 0)
        (everySecond .idle 32 ++ [.received .idle 32900])).map (verdict · 33000)) =
          some false := by
      decide +kernel
    obtain ⟨s, hs, hverdict⟩ := Option.map_eq_some_iff.mp halive
    have hdead := (h _ 33000 [] s (hlast _) hs).2 ?_ (by decide +kernel)
    · rw [hverdict] at hdead
      cases hdead
    · intro result t hmem
      rw [List.mem_append, everySecond, List.mem_flatMap] at hmem
      rcases hmem with ⟨k, -, hk⟩ | hmem
      · simp at hk
        exact hk.1
      · simp at hmem
        exact hmem.1

end SoftEtherVpn.Controller.KeepAlive

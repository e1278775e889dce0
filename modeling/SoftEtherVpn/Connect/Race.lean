import SoftEtherVpn.Foundation.Runs
import SoftEtherVpn.Connect.RaceThread

/-!
# The parallel transport race

The main thread polls the results one by one until its deadline, sets the cancel flag,
joins all threads and hands the winner it has seen to the connection. Together with the
threads this is a transition system; its runs are the interleavings. Whether a run ends
with one winner and nothing left open is decided by when the threads claim.
-/

namespace SoftEtherVpn.Connect

open Foundation

/-- Where the main thread is; `winner` is an index into the threads. -/
inductive MainPc
  | head
  | scanning (i : ℕ)
  | cancelling (winner : Option ℕ)
  | joining (winner : Option ℕ) (i : ℕ)
  | returned (code : ℤ)
  deriving DecidableEq, Repr

structure Race where
  cancel : Bool
  threads : List Racer
  main : MainPc
  deriving DecidableEq, Repr

structure RaceState where
  world : World
  race : Race

/-- The transports that are launched, in the order of the thread table. -/
def wantedTransports (udpPort : ℕ) : List TransportType :=
  (if 0 < udpPort then [.rudpDirect] else []) ++ [.natt, .dns, .icmp]

def startRace (w : World) : RaceState :=
  { world := w
    race :=
      { cancel := false
        threads := (wantedTransports w.conn.udpPort).map fun ty => ⟨ty, .start, .zero⟩
        main := .head } }

/-- The winner's fields are copied into the connection. -/
def promote (c : Connection) (r : TransportResult) : Connection :=
  { c with
    socketFd := r.socketFd
    sslCtx := r.sslCtx
    ssl := r.ssl
    natTTransport := if r.transport = none then c.natTTransport else r.transport
    usingNatT := if r.transport = none then c.usingNatT else true }

/-- One step of the main thread; `late` is the clock's answer at the loop head. -/
def stepMain (s : RaceState) (late : Bool) : Option RaceState :=
  let race := s.race
  match race.main with
  | .head =>
    some { s with race := { race with main := if late then .cancelling none else .scanning 0 } }
  | .scanning i =>
    match race.threads[i]? with
    | none => some { s with race := { race with main := .head } }
    | some r =>
      if r.result.finished ∧ r.result.ok then
        some { s with race := { race with main := .cancelling (some i) } }
      else some { s with race := { race with main := .scanning (i + 1) } }
  | .cancelling winner =>
    some { s with race := { race with cancel := true, main := .joining winner 0 } }
  | .joining winner i =>
    match race.threads[i]? with
    | some r =>
      if r.pc = .done then some { s with race := { race with main := .joining winner (i + 1) } }
      else none
    | none =>
      match winner.bind fun j => race.threads[j]? with
      | none => some { s with race := { race with main := .returned (-1) } }
      | some r =>
        some
          { world := { s.world with conn := promote s.world.conn r.result }
            race := { race with main := .returned 0 } }
  | .returned _ => none

inductive RaceEvent
  | main (late : Bool)
  | thread (i : ℕ) (a : Answers)
  deriving DecidableEq, Repr

def raceStep (cfg : RaceConfig) (s : RaceState) : RaceEvent → Option RaceState
  | .main late => stepMain s late
  | .thread i a =>
    match s.race.threads[i]? with
    | none => none
    | some r =>
      let (r', L) := stepThread cfg s.race.cancel r a s.world.ledger
      some
        { world := { s.world with ledger := L }
          race := { s.race with threads := s.race.threads.set i r' } }

/-! ### The whole race -/

def Race.held (race : Race) : Multiset Resource := (race.threads.map Racer.held).sum

/-- How many threads have claimed the race. -/
def Race.claimed (race : Race) : ℕ := race.threads.countP fun r => r.result.finished

def MainPc.polling : MainPc → Bool
  | .head => true
  | .scanning _ => true
  | _ => false

/-- The main thread has left its loop without a winner. -/
def MainPc.GaveUp : MainPc → Prop
  | .cancelling none => True
  | .joining none _ => True
  | .returned code => code ≠ 0
  | _ => False

/-- A thread claims only while the main thread is polling and nobody has claimed yet, the
main thread gives up only when nobody has claimed, and no connect call leaks. -/
def RaceStepOk (s : RaceState) : RaceEvent → Prop
  | .main late => s.race.main = .head → late = true → s.race.claimed = 0
  | .thread i a =>
    ∀ r ∈ s.race.threads[i]?,
      ¬ r.Leaks a ∧ (r.claims = true → s.race.main.polling = true ∧ s.race.claimed = 0)

instance (s : RaceState) (e : RaceEvent) : Decidable (RaceStepOk s e) :=
  match e with
  | .main _ => inferInstanceAs (Decidable (_ → _ → _))
  | .thread i a => inferInstanceAs (Decidable (∀ r ∈ s.race.threads[i]?, ¬ r.Leaks a ∧ (_ → _ ∧ _)))

/-- Everything opened is in some thread's hands, and at most one thread has claimed: none if
the main thread gave up. -/
structure Tidy (base : Multiset Resource) (s : RaceState) : Prop where
  exact : s.world.ledger.live = base + s.race.held
  one : s.race.claimed ≤ 1
  gaveUp : s.race.main.GaveUp → s.race.claimed = 0

/-- The thread at index `i` has claimed the race and stored its success. -/
def Race.HasWon (race : Race) (i : ℕ) : Prop :=
  ∃ r, race.threads[i]? = some r ∧ r.result.finished = true ∧ r.result.ok = true

/-- What holds in every run of the race, tidy or not. -/
structure RaceInv (base : Multiset Resource) (c : Connection) (s : RaceState) : Prop where
  wf : ∀ r ∈ s.race.threads, r.Wf
  covers : ∃ orphans, s.world.ledger.live = base + orphans + s.race.held
  winner : match s.race.main with
    | .cancelling w => ∀ i, w = some i → s.race.HasWon i
    | .joining w i =>
      (∀ i, w = some i → s.race.HasWon i) ∧ ∀ j < i, ∀ r, s.race.threads[j]? = some r → r.pc = .done
    | .returned _ => ∀ r ∈ s.race.threads, r.pc = .done
    | _ => True
  conn : match s.race.main with
    | .returned code =>
      (code = 0 ∧ ∃ r ∈ s.race.threads, r.result.ok = true ∧ s.world.conn = promote c r.result) ∨
        (code = -1 ∧ s.world.conn = c)
    | _ => s.world.conn = c

theorem getElem?_split {α : Type*} {l : List α} {i : ℕ} {x : α} (h : l[i]? = some x) :
    ∃ a b, l = a ++ x :: b ∧ ∀ y, l.set i y = a ++ y :: b := by
  obtain ⟨hlt, hx⟩ := List.getElem?_eq_some_iff.mp h
  refine ⟨l.take i, l.drop (i + 1), ?_, ?_⟩
  · rw [← hx]
    simp
  · intro y
    exact List.set_eq_take_append_cons_drop.trans (if_pos hlt)

/-- A thread's step, seen from the whole race. -/
structure ThreadMove (s t : RaceState) (i : ℕ) (a : Answers) (r r' : Racer) : Prop where
  found : s.race.threads[i]? = some r
  threads : t.race.threads = s.race.threads.set i r'
  main : t.race.main = s.race.main
  conn : t.world.conn = s.world.conn
  stays : r.pc = .done → r' = r
  ok : r.result.ok = true → r'.result.ok = true
  step : StepsTo r s.world.ledger (r.Leaks a) r' t.world.ledger

theorem stepThread_ok {r : Racer} (cfg : RaceConfig) (cancel : Bool) (a : Answers) (L : Resources)
    (hwf : r.Wf) (hok : r.result.ok = true) :
    (stepThread cfg cancel r a L).1.result.ok = true := by
  cases hpc : r.pc <;> simp only [Racer.Wf, hpc] at hwf
  case done => simpa only [stepThread, hpc] using hok
  case storing => simpa only [stepThread, hpc] using hok
  all_goals simp_all [TransportResult.zero]

theorem raceStep_thread {cfg : RaceConfig} {s t : RaceState} {i : ℕ} {a : Answers}
    (hwf : ∀ r ∈ s.race.threads, r.Wf) (h : raceStep cfg s (.thread i a) = some t) :
    ∃ r r', ThreadMove s t i a r r' := by
  simp only [raceStep] at h
  cases hr : s.race.threads[i]? with
  | none => simp [hr] at h
  | some r =>
    simp only [hr, Option.some.injEq] at h
    subst h
    have hwf := hwf r (List.mem_of_getElem? hr)
    refine ⟨r, _, hr, rfl, rfl, rfl, ?_, ?_, stepThread_stepsTo cfg s.race.cancel a _ hwf⟩
    · intro hpc
      simp only [stepThread, hpc]
    · exact stepThread_ok cfg s.race.cancel a s.world.ledger hwf

theorem Racer.Wf.finished_of_claims {r : Racer} (h : r.Wf) (hc : r.claims = true) :
    r.result.finished = false := by
  cases hpc : r.pc <;> simp [Racer.claims, hpc] at hc
  simp only [Racer.Wf, hpc] at h
  rw [h.1]
  rfl

theorem Racer.Wf.finished_of_ok {r : Racer} (h : r.Wf) (hok : r.result.ok = true) :
    r.result.finished = true := by
  cases hpc : r.pc <;> simp only [Racer.Wf, hpc] at h
  case done =>
    rcases h with h | ⟨t, ssl, h, -⟩
    · simp [h, TransportResult.zero] at hok
    · rw [h]
      rfl
  all_goals simp_all [TransportResult.zero]

section

variable {s t : RaceState} {i : ℕ} {a : Answers} {r r' : Racer}

theorem ThreadMove.wf (h : ThreadMove s t i a r r') (hwf : ∀ r ∈ s.race.threads, r.Wf) :
    ∀ r ∈ t.race.threads, r.Wf := by
  intro q hq
  rw [h.threads] at hq
  rcases List.mem_or_eq_of_mem_set hq with hq | rfl
  · exact hwf q hq
  · exact h.step.wf

theorem ThreadMove.claimed (h : ThreadMove s t i a r r') (hwf : r.Wf) :
    t.race.claimed = s.race.claimed + (if r.claims then 1 else 0) := by
  obtain ⟨l, m, hsplit, hset⟩ := getElem?_split h.found
  rw [Race.claimed, Race.claimed, h.threads, hset, hsplit]
  simp only [List.countP_append, List.countP_cons, h.step.finished]
  cases hc : r.claims with
  | false => simp
  | true => simp [hwf.finished_of_claims hc, Nat.add_assoc]

/-- The step changes the thread's share only, up to what the thread leaves behind. -/
theorem ThreadMove.transfers (h : ThreadMove s t i a r r') :
    ∃ orphans, (orphans = 0 ↔ ¬ r.Leaks a) ∧
      s.world.ledger.Transfers s.race.held t.world.ledger (orphans + t.race.held) := by
  obtain ⟨l, m, hsplit, hset⟩ := getElem?_split h.found
  obtain ⟨orphans, ht, horphans⟩ := h.step.transfers
  refine ⟨orphans, horphans, ?_⟩
  let others := (l.map Racer.held).sum + (m.map Racer.held).sum
  have hheld : s.race.held = others + r.held := by
    simp only [Race.held, hsplit, others, List.map_append, List.map_cons, List.sum_append,
      List.sum_cons]
    abel
  have hheld' : orphans + t.race.held = others + (orphans + r'.held) := by
    simp only [Race.held, h.threads, hset, others, List.map_append, List.map_cons,
      List.sum_append, List.sum_cons]
    abel
  rw [hheld, hheld']
  exact ht.frame others

end

theorem Race.HasWon.claimed_pos {race : Race} {i : ℕ} (h : race.HasWon i) : 0 < race.claimed := by
  obtain ⟨r, hr, hfin, -⟩ := h
  exact List.countP_pos_iff.mpr ⟨r, List.mem_of_getElem? hr, hfin⟩

theorem ThreadMove.getElem? {s t : RaceState} {i : ℕ} {a : Answers} {r r' : Racer}
    (h : ThreadMove s t i a r r') {j : ℕ} {q : Racer} (hq : s.race.threads[j]? = some q) :
    ∃ q', t.race.threads[j]? = some q' ∧ (q.pc = .done → q' = q) ∧
      (q.result.ok = true → q'.result.ok = true) := by
  rw [h.threads]
  by_cases hij : i = j
  · subst hij
    obtain rfl := Option.some.inj (h.found.symm.trans hq)
    refine ⟨r', ?_, h.stays, h.ok⟩
    rw [List.getElem?_set_self (List.getElem?_eq_some_iff.mp h.found).1]
  · refine ⟨q, ?_, fun _ => rfl, id⟩
    rw [List.getElem?_set_ne hij]
    exact hq

theorem ThreadMove.hasWon {s t : RaceState} {i j : ℕ} {a : Answers} {r r' : Racer}
    (h : ThreadMove s t i a r r') (hwf : ∀ r ∈ s.race.threads, r.Wf) (hj : s.race.HasWon j) :
    t.race.HasWon j := by
  obtain ⟨q, hq, -, hok⟩ := hj
  obtain ⟨q', hq', -, hok'⟩ := h.getElem? hq
  exact ⟨q', hq', (h.wf hwf q' (List.mem_of_getElem? hq')).finished_of_ok (hok' hok), hok' hok⟩

theorem ThreadMove.threads_eq {s t : RaceState} {i : ℕ} {a : Answers} {r r' : Racer}
    (h : ThreadMove s t i a r r') (hdone : r.pc = .done) : t.race.threads = s.race.threads := by
  obtain ⟨l, m, hsplit, hset⟩ := getElem?_split h.found
  rw [h.threads, h.stays hdone, hset, ← hsplit]

theorem RaceInv.thread {base : Multiset Resource} {c : Connection} {s t : RaceState} {i : ℕ}
    {a : Answers} {r r' : Racer} (hinv : RaceInv base c s) (h : ThreadMove s t i a r r') :
    RaceInv base c t := by
  have hmem := List.mem_of_getElem? h.found
  have hwinner := hinv.winner
  have hconn := hinv.conn
  refine ⟨h.wf hinv.wf, ?_, ?_, ?_⟩
  · obtain ⟨orphans, hlive⟩ := hinv.covers
    obtain ⟨left, -, ht⟩ := h.transfers
    refine ⟨orphans + left, ?_⟩
    rw [(ht _ hlive).1]
    abel
  · rw [h.main]
    cases hmain : s.race.main with
    | head => trivial
    | scanning j => trivial
    | cancelling w =>
      rw [hmain] at hwinner
      intro j hj
      exact h.hasWon hinv.wf (hwinner j hj)
    | joining w k =>
      rw [hmain] at hwinner
      refine ⟨fun j hj => h.hasWon hinv.wf (hwinner.1 j hj), ?_⟩
      intro j hj q hq
      obtain ⟨p, hp⟩ : ∃ p, s.race.threads[j]? = some p := by
        have hlt := (List.getElem?_eq_some_iff.mp hq).1
        rw [h.threads, List.length_set] at hlt
        exact ⟨_, List.getElem?_eq_getElem hlt⟩
      obtain ⟨q', hq', hsame, -⟩ := h.getElem? hp
      obtain rfl := Option.some.inj (hq.symm.trans hq')
      rw [hsame (hwinner.2 j hj p hp)]
      exact hwinner.2 j hj p hp
    | returned code =>
      rw [hmain] at hwinner
      dsimp only
      rw [h.threads_eq (hwinner r hmem)]
      exact hwinner
  · rw [h.main, h.conn]
    cases hmain : s.race.main with
    | returned code =>
      rw [hmain] at hwinner hconn
      dsimp only
      rw [h.threads_eq (hwinner r hmem)]
      exact hconn
    | _ =>
      rw [hmain] at hconn
      exact hconn

theorem RaceInv.main {base : Multiset Resource} {c : Connection} {s t : RaceState} {late : Bool}
    (hinv : RaceInv base c s) (h : stepMain s late = some t) : RaceInv base c t := by
  obtain ⟨hwf, hcovers, hwinner, hconn⟩ := hinv
  simp only [stepMain] at h
  cases hmain : s.race.main with
  | head =>
    rw [hmain] at h hconn
    obtain rfl := Option.some.inj h
    cases late
    · exact ⟨hwf, hcovers, trivial, hconn⟩
    · exact ⟨hwf, hcovers, by simp, hconn⟩
  | scanning i =>
    rw [hmain] at h hconn
    dsimp only at h
    cases hr : s.race.threads[i]? with
    | none =>
      rw [hr] at h
      obtain rfl := Option.some.inj h
      exact ⟨hwf, hcovers, trivial, hconn⟩
    | some r =>
      rw [hr] at h
      dsimp only at h
      split_ifs at h with hwon
      · obtain rfl := Option.some.inj h
        refine ⟨hwf, hcovers, ?_, hconn⟩
        rintro j ⟨rfl⟩
        exact ⟨r, hr, hwon⟩
      · obtain rfl := Option.some.inj h
        exact ⟨hwf, hcovers, trivial, hconn⟩
  | cancelling w =>
    rw [hmain] at h hwinner hconn
    obtain rfl := Option.some.inj h
    exact ⟨hwf, hcovers, ⟨hwinner, by simp⟩, hconn⟩
  | joining w i =>
    rw [hmain] at h hwinner hconn
    dsimp only at h
    cases hr : s.race.threads[i]? with
    | some r =>
      rw [hr] at h
      dsimp only at h
      split_ifs at h with hdone
      obtain rfl := Option.some.inj h
      refine ⟨hwf, hcovers, ⟨hwinner.1, ?_⟩, hconn⟩
      intro j hj q hq
      rcases Nat.lt_succ_iff_lt_or_eq.mp hj with hj | rfl
      · exact hwinner.2 j hj q hq
      · obtain rfl := Option.some.inj (hr.symm.trans hq)
        exact hdone
    | none =>
      rw [hr] at h
      have hall : ∀ q ∈ s.race.threads, q.pc = .done := by
        intro q hq
        obtain ⟨j, hj⟩ := List.mem_iff_getElem?.mp hq
        have hlt := (List.getElem?_eq_some_iff.mp hj).1
        exact hwinner.2 j (hlt.trans_le (List.getElem?_eq_none_iff.mp hr)) q hj
      cases w with
      | none =>
        obtain rfl := Option.some.inj h
        exact ⟨hwf, hcovers, hall, .inr ⟨rfl, hconn⟩⟩
      | some j =>
        obtain ⟨q, hq, hfin, hok⟩ := hwinner.1 j rfl
        simp only [Option.bind_some, hq] at h
        obtain rfl := Option.some.inj h
        refine ⟨hwf, hcovers, hall, .inl ⟨rfl, q, List.mem_of_getElem? hq, hok, ?_⟩⟩
        rw [← hconn]
  | returned code =>
    rw [hmain] at h
    cases h

/-- Every step of the race keeps the invariant. -/
theorem raceStep_inv {cfg : RaceConfig} {base : Multiset Resource} {c : Connection}
    {s t : RaceState} {e : RaceEvent} (hinv : RaceInv base c s) (h : raceStep cfg s e = some t) :
    RaceInv base c t := by
  cases e with
  | thread i a =>
    obtain ⟨r, r', hmove⟩ := raceStep_thread hinv.wf h
    exact hinv.thread hmove
  | main late => exact hinv.main h

/-- No thread gives back what it does not hold. -/
theorem RaceInv.thread_ledger {base : Multiset Resource} {c : Connection} {s t : RaceState} {i : ℕ}
    {a : Answers} {r r' : Racer} (hinv : RaceInv base c s) (h : ThreadMove s t i a r r') :
    (s.world.ledger.Fresh → t.world.ledger.Fresh) ∧
      (s.world.ledger.Sound → t.world.ledger.Sound) ∧
      s.world.ledger.released <+: t.world.ledger.released := by
  obtain ⟨orphans, hlive⟩ := hinv.covers
  obtain ⟨left, -, ht⟩ := h.transfers
  exact (ht _ hlive).2

/-- The main thread opens and closes nothing, and gives up only at the deadline. -/
theorem stepMain_frame {base : Multiset Resource} {c : Connection} {s t : RaceState} {late : Bool}
    (hinv : RaceInv base c s) (h : stepMain s late = some t) :
    t.race.threads = s.race.threads ∧ t.world.ledger = s.world.ledger ∧
      (t.race.main.GaveUp ↔ s.race.main.GaveUp ∨ s.race.main = .head ∧ late = true) := by
  have hwinner := hinv.winner
  simp only [stepMain] at h
  cases hmain : s.race.main with
  | head =>
    rw [hmain] at h
    obtain rfl := Option.some.inj h
    cases late <;> simp [MainPc.GaveUp]
  | scanning i =>
    rw [hmain] at h
    dsimp only at h
    split at h
    · obtain rfl := Option.some.inj h
      simp [MainPc.GaveUp]
    · split_ifs at h <;> obtain rfl := Option.some.inj h <;> simp [MainPc.GaveUp]
  | cancelling w =>
    rw [hmain] at h
    obtain rfl := Option.some.inj h
    cases w <;> simp [MainPc.GaveUp]
  | joining w i =>
    rw [hmain] at h hwinner
    dsimp only at h
    split at h
    · split_ifs at h
      obtain rfl := Option.some.inj h
      cases w <;> simp [MainPc.GaveUp]
    · cases w with
      | none =>
        obtain rfl := Option.some.inj h
        simp [MainPc.GaveUp]
      | some j =>
        obtain ⟨q, hq, -⟩ := hwinner.1 j rfl
        simp only [Option.bind_some, hq] at h
        obtain rfl := Option.some.inj h
        simp [MainPc.GaveUp]
  | returned code =>
    rw [hmain] at h
    cases h

theorem raceStep_ledger {cfg : RaceConfig} {base : Multiset Resource} {c : Connection}
    {s t : RaceState} {e : RaceEvent} (hinv : RaceInv base c s) (h : raceStep cfg s e = some t) :
    (s.world.ledger.Fresh → t.world.ledger.Fresh) ∧
      (s.world.ledger.Sound → t.world.ledger.Sound) ∧
      s.world.ledger.released <+: t.world.ledger.released := by
  cases e with
  | thread i a =>
    obtain ⟨r, r', hmove⟩ := raceStep_thread hinv.wf h
    exact hinv.thread_ledger hmove
  | main late =>
    rw [(stepMain_frame hinv h).2.1]
    exact ⟨id, id, List.prefix_rfl⟩

/-- As long as nobody has claimed and the main thread has not given up, it is polling. -/
theorem RaceInv.polling {base : Multiset Resource} {c : Connection} {s : RaceState}
    (hinv : RaceInv base c s) (hnone : s.race.claimed = 0) (h : ¬ s.race.main.GaveUp) :
    s.race.main.polling = true := by
  have hwinner := hinv.winner
  have hconn := hinv.conn
  cases hmain : s.race.main with
  | head => rfl
  | scanning i => rfl
  | cancelling w =>
    rw [hmain] at h hwinner
    cases w with
    | none => exact absurd trivial h
    | some j => exact absurd hnone (hwinner j rfl).claimed_pos.ne'
  | joining w i =>
    rw [hmain] at h hwinner
    cases w with
    | none => exact absurd trivial h
    | some j => exact absurd hnone (hwinner.1 j rfl).claimed_pos.ne'
  | returned code =>
    rw [hmain] at h hconn
    rcases hconn with ⟨-, r, hr, hok, -⟩ | ⟨rfl, -⟩
    · have hpos : 0 < s.race.claimed :=
        List.countP_pos_iff.mpr ⟨r, hr, (hinv.wf r hr).finished_of_ok hok⟩
      exact absurd hnone hpos.ne'
    · exact absurd (show (-1 : ℤ) ≠ 0 by decide) h

theorem RaceInv.tidy_iff {base : Multiset Resource} {s : RaceState} {orphans : Multiset Resource}
    (hlive : s.world.ledger.live = base + orphans + s.race.held) :
    s.world.ledger.live = base + s.race.held ↔ orphans = 0 := by
  rw [hlive, add_left_inj, add_eq_left]

/-- A thread keeps the race tidy exactly when its step meets the condition. -/
theorem RaceInv.tidy_thread {base : Multiset Resource} {c : Connection} {s t : RaceState} {i : ℕ}
    {a : Answers} {r r' : Racer} (hinv : RaceInv base c s) (h : ThreadMove s t i a r r') :
    Tidy base t ↔ Tidy base s ∧ RaceStepOk s (.thread i a) := by
  obtain ⟨orphans, hlive⟩ := hinv.covers
  obtain ⟨left, hleft, ht⟩ := h.transfers
  have hlive' : t.world.ledger.live = base + (orphans + left) + t.race.held := by
    rw [(ht _ hlive).1]
    abel
  have hclaimed := h.claimed (hinv.wf r (List.mem_of_getElem? h.found))
  have hexact : t.world.ledger.live = base + t.race.held ↔
      s.world.ledger.live = base + s.race.held ∧ ¬ r.Leaks a := by
    rw [RaceInv.tidy_iff hlive', RaceInv.tidy_iff hlive, ← hleft, add_eq_zero]
  have hok : RaceStepOk s (.thread i a) ↔
      ¬ r.Leaks a ∧ (r.claims = true → s.race.main.polling = true ∧ s.race.claimed = 0) := by
    constructor
    · intro hstep
      exact hstep r h.found
    · intro hstep q hq
      obtain rfl := Option.some.inj (h.found.symm.trans hq)
      exact hstep
  rw [hok]
  constructor
  · rintro ⟨hlive, hone, hgave⟩
    obtain ⟨hbefore, hleak⟩ := hexact.mp hlive
    rw [h.main] at hgave
    rw [hclaimed] at hone hgave
    have hle : s.race.claimed ≤ 1 := by omega
    refine ⟨⟨hbefore, hle, fun hg => by have := hgave hg; omega⟩, hleak, ?_⟩
    intro hc
    rw [hc, if_pos rfl] at hone hgave
    have hnone : s.race.claimed = 0 := by omega
    refine ⟨hinv.polling hnone ?_, hnone⟩
    intro hg
    exact absurd (hgave hg) (Nat.succ_ne_zero _)
  · rintro ⟨⟨hlive, hone, hgave⟩, hleak, hclaim⟩
    refine ⟨hexact.mpr ⟨hlive, hleak⟩, ?_, ?_⟩
    · rw [hclaimed]
      split_ifs with hc
      · rw [(hclaim hc).2]
      · exact hone
    · rw [h.main, hclaimed]
      intro hg
      have hc : ¬ r.claims = true := by
        intro hc
        have hpoll := (hclaim hc).1
        cases hmain : s.race.main <;> rw [hmain] at hg hpoll <;> first | exact hg | cases hpoll
      rw [if_neg hc, hgave hg]

/-- A step keeps the race tidy exactly when it meets the condition. -/
theorem raceStep_tidy {cfg : RaceConfig} {base : Multiset Resource} {c : Connection}
    {s t : RaceState} {e : RaceEvent} (hinv : RaceInv base c s) (h : raceStep cfg s e = some t) :
    Tidy base t ↔ Tidy base s ∧ RaceStepOk s e := by
  cases e with
  | thread i a =>
    obtain ⟨r, r', hmove⟩ := raceStep_thread hinv.wf h
    exact hinv.tidy_thread hmove
  | main late =>
    obtain ⟨hthreads, hledger, hgave⟩ := stepMain_frame hinv h
    have hheld : t.race.held = s.race.held := by rw [Race.held, hthreads, Race.held]
    have hclaimed : t.race.claimed = s.race.claimed := by
      rw [Race.claimed, hthreads, Race.claimed]
    constructor
    · rintro ⟨hlive, hone, hnone⟩
      rw [hledger, hheld] at hlive
      rw [hclaimed] at hone hnone
      refine ⟨⟨hlive, hone, fun hg => hnone (hgave.mpr (.inl hg))⟩, ?_⟩
      intro hhead hlate
      exact hnone (hgave.mpr (.inr ⟨hhead, hlate⟩))
    · rintro ⟨⟨hlive, hone, hnone⟩, hok⟩
      refine ⟨by rw [hledger, hheld, hlive], by rw [hclaimed]; exact hone, ?_⟩
      intro hg
      rw [hclaimed]
      rcases hgave.mp hg with hg | ⟨hhead, hlate⟩
      · exact hnone hg
      · exact hok hhead hlate

/-- What the race owes its caller when it returns: at most one success, the winner and
nothing else handed over, and everything else that was opened released. -/
structure RaceClean (base : Multiset Resource) (s : RaceState) : Prop where
  one : s.race.threads.countP (fun r => r.result.ok) ≤ 1
  won : s.race.main = .returned 0 → ∃ r ∈ s.race.threads, r.result.ok = true ∧
    s.world.conn.socketFd = r.result.socketFd ∧ s.world.conn.ssl = r.result.ssl ∧
    s.world.conn.sslCtx = r.result.sslCtx ∧ s.world.conn.natTTransport = r.result.transport ∧
    s.world.ledger.live = base + r.result.held
  lost : s.race.main = .returned (-1) → s.world.ledger.live = base

/-- A thread that is done holds nothing, or has won. -/
theorem Racer.Wf.done_cases {r : Racer} (h : r.Wf) (hdone : r.pc = .done) :
    (r.result = .zero ∧ r.held = 0) ∨
      (∃ t ssl, r.result = .won t ssl ∧ t.appFd ≠ none ∧ r.held = r.result.held ∧ r.held ≠ 0) := by
  simp only [Racer.Wf, hdone] at h
  rcases h with h | ⟨t, ssl, h, happ⟩
  · left
    rw [Racer.held, hdone, h]
    exact ⟨rfl, rfl⟩
  · right
    refine ⟨t, ssl, h, happ, ?_⟩
    rw [Racer.held, hdone, h, TransportResult.held_won]
    simp [ThreadPc.held]

section

variable {base : Multiset Resource} {c : Connection} {s : RaceState} {code : ℤ}

theorem RaceInv.done (hinv : RaceInv base c s) (hret : s.race.main = .returned code) :
    ∀ r ∈ s.race.threads, r.pc = .done := by
  have hwinner := hinv.winner
  rw [hret] at hwinner
  exact hwinner

theorem RaceInv.won (hinv : RaceInv base c s) (hret : s.race.main = .returned code) {r : Racer}
    (hr : r ∈ s.race.threads) (hok : r.result.ok = true) :
    ∃ t ssl, r.result = .won t ssl ∧ t.appFd ≠ none ∧ r.held = r.result.held := by
  rcases (hinv.wf r hr).done_cases (hinv.done hret r hr) with ⟨h, -⟩ | ⟨t, ssl, h, happ, hheld, -⟩
  · rw [h] at hok
    cases hok
  · exact ⟨t, ssl, h, happ, hheld⟩

theorem RaceInv.ok_count (hinv : RaceInv base c s) (hret : s.race.main = .returned code) :
    s.race.threads.countP (fun r => r.result.ok) = s.race.claimed := by
  refine List.countP_congr ?_
  intro r hr
  rcases (hinv.wf r hr).done_cases (hinv.done hret r hr) with ⟨h, -⟩ | ⟨t, ssl, h, -⟩ <;>
    rw [h] <;> rfl

/-- Once the threads are joined, some of them hold nothing exactly when none of those has
claimed. -/
theorem RaceInv.held_eq_zero_iff (hinv : RaceInv base c s) (hret : s.race.main = .returned code)
    {l : List Racer} (hl : ∀ r ∈ l, r ∈ s.race.threads) :
    (l.map Racer.held).sum = 0 ↔ l.countP (fun r => r.result.finished) = 0 := by
  rw [List.sum_eq_zero_iff, List.forall_mem_map, List.countP_eq_zero]
  refine forall₂_congr ?_
  intro r hr
  rcases (hinv.wf r (hl r hr)).done_cases (hinv.done hret r (hl r hr)) with
    ⟨h, hheld⟩ | ⟨t, ssl, h, -, -, hheld⟩
  · simp [hheld, h, TransportResult.zero]
  · simp [hheld, h, TransportResult.won]

/-- With a winner, the race holds what the winner holds and, besides, what other claimants do. -/
theorem RaceInv.held_split (hinv : RaceInv base c s) (hret : s.race.main = .returned code)
    {r : Racer} (hr : r ∈ s.race.threads) (hok : r.result.ok = true) :
    ∃ rest, s.race.held = rest + r.result.held ∧ (rest = 0 ↔ s.race.claimed ≤ 1) := by
  obtain ⟨a, b, hsplit⟩ := List.append_of_mem hr
  obtain ⟨t, ssl, -, -, hheld⟩ := hinv.won hret hr hok
  refine ⟨(a.map Racer.held).sum + (b.map Racer.held).sum, ?_, ?_⟩
  · rw [Race.held, hsplit, ← hheld]
    simp only [List.map_append, List.map_cons, List.sum_append, List.sum_cons]
    abel
  · have hfin := (hinv.wf r hr).finished_of_ok hok
    have hclaimed : s.race.claimed = a.countP (fun r => r.result.finished) +
        b.countP (fun r => r.result.finished) + 1 := by
      simp [Race.claimed, hsplit, hfin, Nat.add_assoc]
    rw [hclaimed, add_eq_zero, hinv.held_eq_zero_iff hret (by simp +contextual [hsplit]),
      hinv.held_eq_zero_iff hret (by simp +contextual [hsplit])]
    omega

/-- When the race returns, being tidy is a matter of what is still live. -/
theorem RaceInv.tidy_iff_live (hinv : RaceInv base c s) (hret : s.race.main = .returned code) :
    (code = 0 ∧ ∃ r ∈ s.race.threads, r.result.ok = true ∧ s.world.conn = promote c r.result ∧
        (Tidy base s ↔ s.world.ledger.live = base + r.result.held)) ∨
      (code = -1 ∧ s.world.conn = c ∧ (Tidy base s ↔ s.world.ledger.live = base)) := by
  have hconn := hinv.conn
  rw [hret] at hconn
  obtain ⟨orphans, hlive⟩ := hinv.covers
  rcases hconn with ⟨rfl, r, hr, hok, hpromote⟩ | ⟨rfl, hconn⟩
  · refine .inl ⟨rfl, r, hr, hok, hpromote, ?_⟩
    obtain ⟨rest, hrest, hone⟩ := hinv.held_split hret hr hok
    have hsum : s.world.ledger.live = base + (orphans + rest) + r.result.held := by
      rw [hlive, hrest]
      abel
    rw [show s.world.ledger.live = base + r.result.held ↔ orphans = 0 ∧ rest = 0 by
      rw [hsum, add_left_inj, add_eq_left, add_eq_zero], hone, ← RaceInv.tidy_iff hlive]
    constructor
    · intro h
      exact ⟨h.exact, h.one⟩
    · rintro ⟨hexact, hone⟩
      exact ⟨hexact, hone, fun hg => absurd rfl (by rw [hret] at hg; exact hg)⟩
  · refine .inr ⟨rfl, hconn, ?_⟩
    have hgave : s.race.main.GaveUp := by rw [hret]; exact (by decide : (-1 : ℤ) ≠ 0)
    have hheld := hinv.held_eq_zero_iff hret fun _ h => h
    rw [show s.world.ledger.live = base ↔ orphans = 0 ∧ s.race.held = 0 by
      rw [hlive, add_assoc, add_eq_left, add_eq_zero], ← RaceInv.tidy_iff hlive]
    constructor
    · intro h
      exact ⟨h.exact, hheld.mpr (h.gaveUp hgave)⟩
    · rintro ⟨hexact, hnone⟩
      have hclaimed : s.race.claimed = 0 := hheld.mp hnone
      exact ⟨hexact, by omega, fun _ => hclaimed⟩

/-- When the race returns, being tidy is what the caller sees as a clean result. -/
theorem RaceInv.clean_iff_tidy (hinv : RaceInv base c s) (hret : s.race.main = .returned code) :
    RaceClean base s ↔ Tidy base s := by
  have hcount := hinv.ok_count hret
  rcases hinv.tidy_iff_live hret with ⟨rfl, r, hr, hok, hconn, htidy⟩ | ⟨rfl, -, htidy⟩
  · obtain ⟨t, ssl, hwon, -⟩ := hinv.won hret hr hok
    constructor
    · rintro ⟨hone, hret', -⟩
      obtain ⟨q, hq, hqok, -, -, -, -, hlive⟩ := hret' hret
      obtain ⟨rest, hrest, hzero⟩ := hinv.held_split hret hq hqok
      refine ⟨?_, hcount ▸ hone, fun hg => absurd rfl (by rw [hret] at hg; exact hg)⟩
      rw [hlive, hrest, hzero.mpr (hcount ▸ hone), zero_add]
    · intro h
      refine ⟨hcount.trans_le h.one, fun _ => ⟨r, hr, hok, ?_⟩, by simp [hret]⟩
      rw [← htidy, hconn, hwon]
      exact ⟨rfl, rfl, rfl, rfl, h⟩
  · constructor
    · rintro ⟨-, -, hlost⟩
      exact htidy.mpr (hlost hret)
    · intro h
      exact ⟨hcount.trans_le h.one, by simp [hret], fun _ => htidy.mp h⟩

end

theorem startRace_racer {w : World} {r : Racer} (h : r ∈ (startRace w).race.threads) :
    r.pc = .start ∧ r.result = .zero := by
  obtain ⟨ty, -, rfl⟩ := List.mem_map.mp h
  exact ⟨rfl, rfl⟩

theorem startRace_held (w : World) : (startRace w).race.held = 0 := by
  refine List.sum_eq_zero ?_
  intro x hx
  obtain ⟨r, hr, rfl⟩ := List.mem_map.mp hx
  obtain ⟨hpc, hres⟩ := startRace_racer hr
  rw [Racer.held, hpc, hres]
  rfl

theorem startRace_inv {w : World} {base orphans : Multiset Resource}
    (hlive : w.ledger.live = base + orphans) : RaceInv base w.conn (startRace w) where
  wf := by
    intro r hr
    obtain ⟨hpc, hres⟩ := startRace_racer hr
    simpa only [Racer.Wf, hpc] using hres
  covers := ⟨orphans, by rw [startRace_held, add_zero]; exact hlive⟩
  winner := trivial
  conn := rfl

theorem startRace_tidy {w : World} {base : Multiset Resource} :
    Tidy base (startRace w) ↔ w.ledger.live = base := by
  have hnone : (startRace w).race.claimed = 0 := by
    refine List.countP_eq_zero.mpr ?_
    intro r hr
    rw [(startRace_racer hr).2]
    exact Bool.false_ne_true
  constructor
  · intro h
    have hlive := h.exact
    rwa [startRace_held, add_zero] at hlive
  · intro h
    exact ⟨by rw [startRace_held, add_zero]; exact h, by omega, fun _ => hnone⟩

/-- When the race returns, it has left everything in order if and only if every one of its
steps met the condition. -/
theorem raceClean_iff_stepsOk (cfg : RaceConfig) (w : World) {s : RaceState} {es : List RaceEvent}
    {code : ℤ} (hrun : exec (raceStep cfg) (startRace w) es = some s)
    (hret : s.race.main = .returned code) :
    RaceClean w.ledger.live s ↔ Along (raceStep cfg) RaceStepOk (startRace w) es := by
  have hstart : RaceInv w.ledger.live w.conn (startRace w) := startRace_inv (add_zero _).symm
  have hinv := exec_invariant (fun _ _ _ => raceStep_inv) hstart hrun
  rw [hinv.clean_iff_tidy hret,
    exec_iff_along (fun _ _ _ => raceStep_inv) (fun _ _ _ => raceStep_tidy) hstart hrun,
    and_iff_right (startRace_tidy.mpr rfl)]

/-- A connection that owns nothing, to a server with a UDP port. -/
def Connection.fresh (udpPort : ℕ) : Connection :=
  ⟨.disconnected, none, none, none, none, false, none, [], true, udpPort, false, false, false⟩

def freshWorld : World := ⟨.empty, .fresh 4500⟩

def sampleConfig : RaceConfig := ⟨some 1, 4500⟩

/-- Every call succeeds. -/
def Answers.success : Answers := ⟨true, .noRelay, .started, some true, .done⟩

/-- A thread without a rendezvous on its way to its TLS handshake. -/
def connects (i : ℕ) : List RaceEvent := List.replicate 5 (.thread i .success)

/-- A handshake, the claim and the stores after it. -/
def wins (i : ℕ) : List RaceEvent := List.replicate 4 (.thread i .success)

/-- A thread that sees the cancel flag after its delay. -/
def quits (i : ℕ) : List RaceEvent := List.replicate 2 (.thread i .success)

/-- The main thread finds the first transport and cancels; later it joins all four. -/
def pollsFirst : List RaceEvent := List.replicate 3 (.main false)

def joinsAll : List RaceEvent := List.replicate 5 (.main false)

def soloRun : List RaceEvent :=
  connects 0 ++ wins 0 ++ pollsFirst ++ quits 1 ++ quits 2 ++ quits 3 ++ joinsAll

theorem soloRun_clean : ∃ s, exec (raceStep sampleConfig) (startRace freshWorld) soloRun = some s ∧
    s.race.main = .returned 0 ∧ RaceClean freshWorld.ledger.live s := by
  have h : (exec (raceStep sampleConfig) (startRace freshWorld) soloRun).map (·.race.main) =
      some (.returned 0) := by decide
  obtain ⟨s, hs, hret⟩ := Option.map_eq_some_iff.mp h
  exact ⟨s, hs, hret, (raceClean_iff_stepsOk sampleConfig freshWorld hs hret).mpr (by decide)⟩

/-- The DNS transport is in its TLS handshake when the direct one wins. -/
def lateRun : List RaceEvent :=
  connects 0 ++ connects 2 ++ wins 0 ++ pollsFirst ++ wins 2 ++ quits 1 ++ quits 3 ++ joinsAll

theorem lateRun_not_clean : ∃ s,
    exec (raceStep sampleConfig) (startRace freshWorld) lateRun = some s ∧
      s.race.main = .returned 0 ∧ ¬ RaceClean freshWorld.ledger.live s := by
  have h : (exec (raceStep sampleConfig) (startRace freshWorld) lateRun).map
      (fun s => (s.race.main, s.race.threads.countP fun r => r.result.ok)) =
      some (.returned 0, 2) := by decide
  obtain ⟨s, hs, hpair⟩ := Option.map_eq_some_iff.mp h
  have hcount : s.race.threads.countP (fun r => r.result.ok) = 2 := congrArg Prod.snd hpair
  refine ⟨s, hs, congrArg Prod.fst hpair, ?_⟩
  intro hclean
  have hone := hclean.one
  omega

end SoftEtherVpn.Connect

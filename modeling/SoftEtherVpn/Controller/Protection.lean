import SoftEtherVpn.Foundation.Runs

/-!
# Protection of the sockets from the tunnel

The controller remembers the numbers of the descriptors that its sweeps have protected, and no
sweep protects a number twice. The system gives the number of a closed socket to a new one, which
a sweep then takes for protected.
-/

namespace SoftEtherVpn.Controller.Protection

open Foundation

abbrev maxSeConnections : ℕ := 8

theorem slots_pos : 0 < maxSeConnections := by decide

/-- `socket_fd`, the entries of `additional[]`, and the UDP socket of the NAT-T transport. -/
inductive Role
  | primary
  | additional (i : Fin maxSeConnections)
  | natT
  deriving DecidableEq

def allRoles : List Role :=
  .primary :: .natT :: (List.finRange maxSeConnections).map .additional

/-- An open socket; `active` says that the connection uses it, `guarded` that `service.protect` has
been called on its number since it was opened. -/
structure Sock where
  fd : ℕ
  active : Bool
  guarded : Bool

structure Sockets where
  sock : Role → Option Sock
  protectedFds : List ℕ

/-- A new controller. -/
def initial : Sockets := ⟨fun _ => none, []⟩

namespace Sockets

/-- The number of a socket that is in use. -/
def activeFd (s : Sockets) (r : Role) : Option ℕ :=
  (s.sock r).bind fun k => if k.active then some k.fd else none

/-- `softether_get_active_socket_fds`; the empty list is returned as `null`. -/
def getAllSocketFds (s : Sockets) : List ℕ :=
  (s.activeFd .primary).toList ++
    (List.finRange maxSeConnections).filterMap fun i => s.activeFd (.additional i)

/-- `service.protect` on a number. -/
def protect (s : Sockets) (fd : ℕ) : Sockets :=
  { s with
    sock := fun r => (s.sock r).map fun k => if k.fd = fd then { k with guarded := true } else k }

/-- What a sweep does with a number. -/
def sweepFd (s : Sockets) (fd : ℕ) : Sockets :=
  if fd ∈ s.protectedFds then s
  else { s.protect fd with protectedFds := fd :: s.protectedFds }

def protectAdditionalSockets (s : Sockets) : Sockets :=
  if s.getAllSocketFds = [] then s
  else
    let natTUdpFd := s.activeFd .natT
    let s := s.getAllSocketFds.foldl sweepFd s
    match natTUdpFd with
    | none => s
    | some fd => s.sweepFd fd

/-- No open socket has the number. -/
def unused (s : Sockets) (fd : ℕ) : Bool :=
  allRoles.all fun r => (s.sock r).all fun k => k.fd ≠ fd

end Sockets

inductive Event
  | opened (r : Role) (fd : ℕ)
  | activated (r : Role)
  | closed (r : Role)
  | connectProtects (r : Role)
  | swept

/-- The system opens a socket with any number that is not in use; after a connect or a reconnect the
primary socket and the NAT-T socket are protected without being remembered. -/
def step (s : Sockets) : Event → Option Sockets
  | .opened r fd =>
    if (s.sock r).isNone ∧ s.unused fd then
      some { s with sock := Function.update s.sock r (some ⟨fd, false, false⟩) }
    else none
  | .activated r =>
    (s.sock r).map fun k =>
      { s with sock := Function.update s.sock r (some { k with active := true }) }
  | .closed r =>
    if (s.sock r).isSome then some { s with sock := Function.update s.sock r none } else none
  | .connectProtects r =>
    if r = .primary ∨ r = .natT then
      match s.activeFd r with
      | none => none
      | some fd => some (s.protect fd)
    else none
  | .swept => some s.protectAdditionalSockets

/-- Every socket in use has been protected since it was opened. -/
def AllGuarded (s : Sockets) : Prop :=
  ∀ r k, s.sock r = some k → k.active = true → k.guarded = true

/-- The numbers that a sweep looks at. -/
def sweptFds (s : Sockets) : List ℕ :=
  if s.getAllSocketFds = [] then [] else s.getAllSocketFds ++ (s.activeFd .natT).toList

/-- The state before a sweep of a run, with the events up to it. -/
def SweepAt (es before : List Event) (s : Sockets) : Prop :=
  (∃ after, es = before ++ .swept :: after) ∧ exec step initial before = some s

/-- After every sweep of the run every socket in use has been protected. -/
def SweepsGuard (es : List Event) : Prop :=
  ∀ before s, SweepAt es before s → AllGuarded s.protectAdditionalSockets

/-- Whenever a sweep comes, a socket in use that has not been protected has a number that no earlier
sweep has looked at, and if it is the NAT-T socket, there is another socket in use. -/
def NumbersFresh (es : List Event) : Prop :=
  ∀ before s, SweepAt es before s → ∀ r k, s.sock r = some k → k.active = true →
    k.guarded = false →
    (∀ earlier s₀, SweepAt before earlier s₀ → k.fd ∉ sweptFds s₀) ∧
      (r = .natT → s.getAllSocketFds ≠ [])

section Sweep

variable {s : Sockets} {r : Role} {k : Sock}

theorem foldl_sweepFd (fds : List ℕ) (s : Sockets) :
    (∀ r, (fds.foldl Sockets.sweepFd s).sock r = (s.sock r).map fun k =>
      if k.fd ∈ fds ∧ k.fd ∉ s.protectedFds then { k with guarded := true } else k) ∧
    ∀ fd, fd ∈ (fds.foldl Sockets.sweepFd s).protectedFds ↔ fd ∈ s.protectedFds ∨ fd ∈ fds := by
  induction fds generalizing s with
  | nil => simp
  | cons fd fds ih =>
    obtain ⟨hsock, hfds⟩ := ih (s.sweepFd fd)
    by_cases hseen : fd ∈ s.protectedFds
    · have hsweep : s.sweepFd fd = s := if_pos hseen
      rw [hsweep] at hsock hfds
      refine ⟨fun r => ?_, fun fd' => ?_⟩
      · rw [List.foldl_cons, hsweep, hsock]
        congr 1
        funext k
        have hiff : k.fd ∈ fds ∧ k.fd ∉ s.protectedFds ↔
            k.fd ∈ fd :: fds ∧ k.fd ∉ s.protectedFds := by
          grind
        simp only [hiff]
      · rw [List.foldl_cons, hsweep, hfds]
        grind
    · have hsweep : s.sweepFd fd = { s.protect fd with protectedFds := fd :: s.protectedFds } :=
        if_neg hseen
      refine ⟨fun r => ?_, fun fd' => ?_⟩
      · rw [List.foldl_cons, hsock, hsweep]
        simp only [Sockets.protect, Option.map_map]
        congr 1
        funext k
        grind
      · rw [List.foldl_cons, hfds, hsweep]
        grind

/-- A sweep protects the numbers it looks at, one after the other. -/
theorem protectAdditionalSockets_eq (s : Sockets) :
    s.protectAdditionalSockets = (sweptFds s).foldl Sockets.sweepFd s := by
  rw [Sockets.protectAdditionalSockets, sweptFds]
  split_ifs with h
  · rfl
  · rw [List.foldl_append]
    cases s.activeFd .natT <;> rfl

theorem sweep_sock (s : Sockets) (r : Role) :
    s.protectAdditionalSockets.sock r = (s.sock r).map fun k =>
      if k.fd ∈ sweptFds s ∧ k.fd ∉ s.protectedFds then { k with guarded := true } else k := by
  rw [protectAdditionalSockets_eq]
  exact (foldl_sweepFd _ s).1 r

theorem mem_protectedFds_sweep (s : Sockets) (fd : ℕ) :
    fd ∈ s.protectAdditionalSockets.protectedFds ↔ fd ∈ s.protectedFds ∨ fd ∈ sweptFds s := by
  rw [protectAdditionalSockets_eq]
  exact (foldl_sweepFd _ s).2 fd

theorem activeFd_eq (hsock : s.sock r = some k) (hactive : k.active = true) :
    s.activeFd r = some k.fd := by
  rw [Sockets.activeFd, hsock, Option.bind_some, if_pos hactive]

/-- A sweep looks at the number of every socket in use, but for a NAT-T socket alone. -/
theorem mem_sweptFds (hsock : s.sock r = some k) (hactive : k.active = true)
    (hnatT : r = .natT → s.getAllSocketFds ≠ []) : k.fd ∈ sweptFds s := by
  have hfd := activeFd_eq hsock hactive
  cases r with
  | primary =>
    have hmem : k.fd ∈ s.getAllSocketFds := by
      simp [Sockets.getAllSocketFds, hfd]
    rw [sweptFds, if_neg (List.ne_nil_of_mem hmem)]
    exact List.mem_append_left _ hmem
  | additional i =>
    have hmem : k.fd ∈ s.getAllSocketFds := by
      rw [Sockets.getAllSocketFds, List.mem_append, List.mem_filterMap]
      exact Or.inr ⟨i, List.mem_finRange i, hfd⟩
    rw [sweptFds, if_neg (List.ne_nil_of_mem hmem)]
    exact List.mem_append_left _ hmem
  | natT =>
    rw [sweptFds, if_neg (hnatT rfl), hfd]
    exact List.mem_append_right _ (List.mem_singleton.mpr rfl)

/-- After a sweep all is protected exactly if it found no socket in use unprotected under a number that
it had protected before, and no NAT-T socket alone. -/
theorem allGuarded_sweep_iff (s : Sockets) :
    AllGuarded s.protectAdditionalSockets ↔
      ∀ r k, s.sock r = some k → k.active = true → k.guarded = false →
        k.fd ∉ s.protectedFds ∧ (r = .natT → s.getAllSocketFds ≠ []) := by
  constructor
  · intro h r k hsock hactive hopen
    have hmap : s.protectAdditionalSockets.sock r = some
        (if k.fd ∈ sweptFds s ∧ k.fd ∉ s.protectedFds then { k with guarded := true } else k) := by
      rw [sweep_sock, hsock]
      rfl
    by_cases hnew : k.fd ∈ sweptFds s ∧ k.fd ∉ s.protectedFds
    · refine ⟨hnew.2, ?_⟩
      rintro - hnone
      rw [sweptFds, if_pos hnone] at hnew
      exact List.not_mem_nil hnew.1
    · rw [if_neg hnew] at hmap
      have hguarded := h r k hmap hactive
      rw [hopen] at hguarded
      cases hguarded
  · intro h r k' hsock' hactive'
    rw [sweep_sock] at hsock'
    obtain ⟨k, hsock, rfl⟩ := Option.map_eq_some_iff.mp hsock'
    split_ifs at hactive' ⊢ with hnew
    · rfl
    · cases hguarded : k.guarded with
      | true => rfl
      | false =>
        obtain ⟨hfresh, hnatT⟩ := h r k hsock hactive' hguarded
        exact absurd ⟨mem_sweptFds hsock hactive' hnatT, hfresh⟩ hnew

end Sweep

section Runs

variable {es before : List Event} {s t : Sockets} {e : Event}

/-- Only a sweep changes what is remembered. -/
theorem step_protectedFds (hstep : step s e = some t) :
    (e = .swept ∧ t = s.protectAdditionalSockets) ∨
      (e ≠ .swept ∧ t.protectedFds = s.protectedFds) := by
  cases e with
  | opened r fd =>
    simp only [step] at hstep
    split_ifs at hstep
    cases hstep
    exact Or.inr ⟨nofun, rfl⟩
  | activated r =>
    obtain ⟨k, -, rfl⟩ := Option.map_eq_some_iff.mp hstep
    exact Or.inr ⟨nofun, rfl⟩
  | closed r =>
    simp only [step] at hstep
    split_ifs at hstep
    cases hstep
    exact Or.inr ⟨nofun, rfl⟩
  | connectProtects r =>
    simp only [step] at hstep
    split_ifs at hstep
    cases hfd : s.activeFd r with
    | none => simp [hfd] at hstep
    | some fd =>
      rw [hfd] at hstep
      cases hstep
      exact Or.inr ⟨nofun, rfl⟩
  | swept =>
    cases hstep
    exact Or.inl ⟨rfl, rfl⟩

theorem sweepAt_append {earlier : List Event} {s₀ : Sockets} :
    SweepAt (es ++ [e]) earlier s₀ ↔
      SweepAt es earlier s₀ ∨ (e = .swept ∧ earlier = es ∧ exec step initial es = some s₀) := by
  constructor
  · rintro ⟨⟨after, heq⟩, hrun⟩
    cases after using List.reverseRecOn with
    | nil =>
      obtain ⟨hes, he⟩ := List.append_inj' heq rfl
      rw [List.singleton_inj] at he
      subst hes
      exact Or.inr ⟨he, rfl, hrun⟩
    | append_singleton after e' _ =>
      rw [← List.cons_append, ← List.append_assoc] at heq
      obtain ⟨hes, -⟩ := List.append_inj' heq rfl
      exact Or.inl ⟨⟨after, hes⟩, hrun⟩
  · rintro (⟨⟨after, rfl⟩, hrun⟩ | ⟨rfl, rfl, hrun⟩)
    · exact ⟨⟨after ++ [e], by simp⟩, hrun⟩
    · exact ⟨⟨[], rfl⟩, hrun⟩

/-- The controller remembers the numbers that its sweeps have looked at. -/
theorem mem_protectedFds_iff (hrun : exec step initial es = some s) (fd : ℕ) :
    fd ∈ s.protectedFds ↔ ∃ earlier s₀, SweepAt es earlier s₀ ∧ fd ∈ sweptFds s₀ := by
  induction es using List.reverseRecOn generalizing s with
  | nil =>
    cases hrun
    simp [initial, SweepAt]
  | append_singleton es e ih =>
    obtain ⟨u, hu, hlast⟩ := exec_append_eq_some.mp hrun
    obtain ⟨t, hstep, hdone⟩ := exec_cons_eq_some.mp hlast
    cases hdone
    simp only [sweepAt_append]
    rcases step_protectedFds hstep with ⟨rfl, rfl⟩ | ⟨hne, hsame⟩
    · rw [mem_protectedFds_sweep, ih hu]
      constructor
      · rintro (⟨earlier, s₀, hat, hfd⟩ | hfd)
        · exact ⟨earlier, s₀, Or.inl hat, hfd⟩
        · exact ⟨es, u, Or.inr ⟨rfl, rfl, hu⟩, hfd⟩
      · rintro ⟨earlier, s₀, hat | ⟨-, rfl, hs₀⟩, hfd⟩
        · exact Or.inl ⟨earlier, s₀, hat, hfd⟩
        · rw [hu] at hs₀
          cases hs₀
          exact Or.inr hfd
    · rw [hsame, ih hu]
      constructor
      · rintro ⟨earlier, s₀, hat, hfd⟩
        exact ⟨earlier, s₀, Or.inl hat, hfd⟩
      · rintro ⟨earlier, s₀, hat | ⟨he, -⟩, hfd⟩
        · exact ⟨earlier, s₀, hat, hfd⟩
        · exact absurd he hne

end Runs

/-- In a run of openings, closings, connects and sweeps, every sweep leaves every socket in use
protected exactly if no sweep meets an unprotected socket with a number from an earlier sweep, or an
unprotected NAT-T socket alone. -/
theorem sweepsGuard_iff (es : List Event) : SweepsGuard es ↔ NumbersFresh es := by
  have hsweep : ∀ before s, SweepAt es before s →
      (AllGuarded s.protectAdditionalSockets ↔
        ∀ r k, s.sock r = some k → k.active = true → k.guarded = false →
          (∀ earlier s₀, SweepAt before earlier s₀ → k.fd ∉ sweptFds s₀) ∧
            (r = .natT → s.getAllSocketFds ≠ [])) := by
    rintro before s ⟨-, hrun⟩
    rw [allGuarded_sweep_iff]
    simp only [mem_protectedFds_iff hrun, not_exists, not_and]
  constructor
  · intro h before s hat
    exact (hsweep before s hat).mp (h before s hat)
  · intro h before s hat
    exact (hsweep before s hat).mpr (h before s hat)

def firstSlot : Role := .additional ⟨0, slots_pos⟩

/-- A second connection is closed after a sweep, and its successor gets its number. -/
def reusedNumber : List Event :=
  [.opened .primary 10, .activated .primary, .connectProtects .primary,
    .opened firstSlot 11, .activated firstSlot, .swept,
    .closed firstSlot, .opened firstSlot 11, .activated firstSlot]

/-- The next sweep passes over the new socket. -/
theorem reusedNumber_unprotected :
    (exec step initial (reusedNumber ++ [.swept])).isSome ∧
      ¬SweepsGuard (reusedNumber ++ [.swept]) := by
  refine ⟨by decide +kernel, ?_⟩
  intro h
  have hsocket : ((exec step initial reusedNumber).bind fun s =>
      (s.protectAdditionalSockets.sock firstSlot).map fun k => (k.active, k.guarded)) =
        some (true, false) := by
    decide +kernel
  obtain ⟨s, hs, hsock⟩ := Option.bind_eq_some_iff.mp hsocket
  obtain ⟨k, hk, hflags⟩ := Option.map_eq_some_iff.mp hsock
  obtain ⟨hactive, hopen⟩ := Prod.mk.inj hflags
  have hguarded := h reusedNumber s ⟨⟨[], rfl⟩, hs⟩ firstSlot k hk hactive
  rw [hopen] at hguarded
  cases hguarded

end SoftEtherVpn.Controller.Protection

import SoftEtherVpn.Foundation.FirstSuccess
import SoftEtherVpn.Packet.SendStreams

/-!
# Failover between the TCP sockets

`softether_transmit_block_nolock` lists the sockets that may be sent on, the one chosen by the
round robin first, and writes the block to one after the other until a write succeeds. The list has
every such socket once. An additional socket is retired when its write fails; this changes no
check on a later entry of the list, because the later entries are other sockets.
-/

namespace SoftEtherVpn.Packet

open Foundation

/-- The `TCP_DIRECTION_` constants. -/
inductive TcpDirection
  | both
  | serverToClient
  | clientToServer
  deriving DecidableEq

def TcpDirection.sends (d : TcpDirection) : Bool := d = .both || d = .clientToServer

/-- Whether a socket takes the block: `data_write_all` returns 0. -/
def takesBlock (block : Bytes) (accepts : SockId → ℕ) (s : SockId) : Bool :=
  2 ^ 31 ≤ block.length || block.length ≤ accepts s

/-- What is left of an additional socket whose write has failed. -/
def TcpSock.retired (ts : TcpSock) : TcpSock := ⟨false, false, false, ts.sends⟩

namespace Links

/-- The session with the directions `d` on its sockets. -/
def directed (l : Links) (d : SockId → TcpDirection) : Links :=
  { l with
    primarySends := (d none).sends
    additional := fun i => { l.additional i with sends := (d (some i)).sends } }

/-- A socket that may be sent on and that has an fd and an SSL object. -/
def Usable (l : Links) : SockId → Prop
  | none => l.primarySends = true ∧ l.fd = true ∧ l.ssl = true
  | some i => (l.additional i).active = true ∧ (l.additional i).sends = true ∧
      (l.additional i).fd = true ∧ (l.additional i).ssl = true

/-- The candidate list of `softether_transmit_block_nolock`. -/
def candidates (l : Links) : List SockId :=
  let (best, l) := l.softetherSelectSendSocket
  (if best ≠ none then [best] else []) ++ (if l.primaryReady then [none] else []) ++
    (l.sendSlots.map some).filter fun s => s ≠ best

/-- `transmitLoop` with the writes that it makes, each with whether it succeeds. -/
def transmitLoopTraced (block : Bytes) (accepts : SockId → ℕ) :
    List SockId → Links → List (SockId × Bool) × ℤ × Links
  | [], l => ([], -1, l)
  | none :: ss, l =>
    if l.ssl && l.fd then
      let (ok, l) := l.write none block accepts
      if ok then ([(none, true)], 0, l)
      else
        let (writes, r) := transmitLoopTraced block accepts ss l
        ((none, false) :: writes, r)
    else transmitLoopTraced block accepts ss l
  | some i :: ss, l =>
    if (l.additional i).active && (l.additional i).ssl && (l.additional i).fd then
      let (ok, l) := l.write (some i) block accepts
      if ok then ([(some i, true)], 0, l)
      else
        let (writes, r) := transmitLoopTraced block accepts ss (l.retire i)
        ((some i, false) :: writes, r)
    else transmitLoopTraced block accepts ss l

/-- `softetherTransmitBlock` with the writes that it makes. -/
def softetherTransmitBlockTraced (block : Bytes) (accepts : SockId → ℕ) (l : Links) :
    List (SockId × Bool) × ℤ × Links :=
  if block.length < 8 ∨ l.ssl = false then ([], -1, l)
  else transmitLoopTraced block accepts l.candidates l.softetherSelectSendSocket.2

variable {block : Bytes} {accepts : SockId → ℕ} {l : Links} {s s' : SockId}

theorem transmitLoopTraced_snd (ss : List SockId) (l : Links) :
    (transmitLoopTraced block accepts ss l).2 = transmitLoop block accepts ss l := by
  induction ss generalizing l with
  | nil => rfl
  | cons s ss ih =>
    cases s with
    | none =>
      rw [transmitLoopTraced, transmitLoop]
      split_ifs
      · cases hok : (l.write none block accepts).1 <;> simp [hok, ih]
      · exact ih l
    | some i =>
      rw [transmitLoopTraced, transmitLoop]
      split_ifs
      · cases hok : (l.write (some i) block accepts).1 <;> simp [hok, ih]
      · exact ih l

theorem softetherTransmitBlockTraced_snd (l : Links) :
    (l.softetherTransmitBlockTraced block accepts).2 = l.softetherTransmitBlock block accepts := by
  rw [softetherTransmitBlockTraced, softetherTransmitBlock]
  split_ifs
  · rfl
  · exact transmitLoopTraced_snd _ _

/-! ## One candidate -/

theorem write_fst (l : Links) (s : SockId) :
    (l.write s block accepts).1 = takesBlock block accepts s := by
  rw [write, takesBlock]
  split_ifs with hint hall <;> simp_all

theorem write_snd (l : Links) (s : SockId) :
    (l.write s block accepts).2 = l ∨ ∃ w, (l.write s block accepts).2 = l.record s w := by
  rcases write_cases l s block accepts with ⟨l', h, h'⟩ | ⟨-, l', h, h'⟩
  · rw [h]
    rcases h' with h' | h'
    · exact Or.inl h'
    · exact Or.inr ⟨_, h'⟩
  · rw [h]
    rcases h' with h' | ⟨-, h'⟩
    · exact Or.inl h'
    · exact Or.inr ⟨_, h'⟩

/-- The check on a candidate right before the write. -/
def canWrite (l : Links) : SockId → Bool
  | none => l.ssl && l.fd
  | some i => (l.additional i).active && (l.additional i).ssl && (l.additional i).fd

/-- The session after a write that failed. -/
def afterFailure (block : Bytes) (accepts : SockId → ℕ) (l : Links) : SockId → Links
  | none => (l.write none block accepts).2
  | some i => (l.write (some i) block accepts).2.retire i

theorem transmitLoopTraced_skip (hcan : l.canWrite s = false) (ss : List SockId) :
    transmitLoopTraced block accepts (s :: ss) l = transmitLoopTraced block accepts ss l := by
  have hcannot : ¬l.canWrite s = true := by simp [hcan]
  cases s with
  | none => exact if_neg hcannot
  | some i => exact if_neg hcannot

theorem transmitLoopTraced_success (hcan : l.canWrite s = true)
    (htakes : takesBlock block accepts s = true) (ss : List SockId) :
    transmitLoopTraced block accepts (s :: ss) l =
      ([(s, true)], 0, (l.write s block accepts).2) := by
  rw [← write_fst l] at htakes
  cases s with
  | none => exact (if_pos hcan).trans (if_pos htakes)
  | some i => exact (if_pos hcan).trans (if_pos htakes)

theorem transmitLoopTraced_failure (hcan : l.canWrite s = true)
    (htakes : takesBlock block accepts s = false) (ss : List SockId) :
    transmitLoopTraced block accepts (s :: ss) l =
      ((s, false) :: (transmitLoopTraced block accepts ss (l.afterFailure block accepts s)).1,
        (transmitLoopTraced block accepts ss (l.afterFailure block accepts s)).2) := by
  rw [← write_fst l] at htakes
  have hfails : ¬(l.write s block accepts).1 = true := by simp [htakes]
  cases s with
  | none => exact (if_pos hcan).trans (if_neg hfails)
  | some i => exact (if_pos hcan).trans (if_neg hfails)

theorem write_additional (l : Links) (s : SockId) :
    (l.write s block accepts).2.additional = l.additional := by
  rcases write_snd l s with h | ⟨w, h⟩
  · rw [h]
  · rw [h]
    rfl

theorem write_canWrite (l : Links) (s s' : SockId) :
    (l.write s block accepts).2.canWrite s' = l.canWrite s' := by
  rcases write_snd l s with h | ⟨w, h⟩
  · rw [h]
  · rw [h]
    cases s' <;> rfl

theorem write_written (l : Links) (hs : s' ≠ s) :
    (l.write s block accepts).2.written s' = l.written s' := by
  rcases write_snd l s with h | ⟨w, h⟩
  · rw [h]
  · rw [h, record_other l hs]

theorem afterFailure_canWrite (hs : s' ≠ s) :
    (l.afterFailure block accepts s).canWrite s' = l.canWrite s' := by
  cases s with
  | none => exact write_canWrite l none s'
  | some i =>
    rw [← write_canWrite l (some i) s']
    cases s' with
    | none => rfl
    | some j =>
      have hij : j ≠ i := fun h => hs (congrArg some h)
      simp only [canWrite, afterFailure, retire, Function.update_of_ne hij]

theorem afterFailure_additional (i : Fin maxSeConnections) :
    (l.afterFailure block accepts s).additional i =
      if s = some i then (l.additional i).retired else l.additional i := by
  cases s with
  | none => simp only [afterFailure, write_additional, reduceCtorEq, if_false]
  | some j =>
    simp only [afterFailure, retire, write_additional]
    by_cases hij : j = i
    · simp [hij, TcpSock.retired]
    · simp [hij, Function.update_of_ne (Ne.symm hij)]

theorem afterFailure_written (hs : s' ≠ s) :
    (l.afterFailure block accepts s).written s' = l.written s' := by
  cases s with
  | none => exact write_written l hs
  | some i => exact write_written l hs

/-! ## The loop -/

/-- What holds when the list is used up, and is kept by a candidate that is skipped, that succeeds
or that fails, holds of the loop. -/
theorem transmitLoopTraced_rule
    {P : List SockId → Links → List (SockId × Bool) × ℤ × Links → Prop}
    (nil : ∀ l, P [] l ([], -1, l))
    (skip : ∀ s ss l r, l.canWrite s = false → P ss l r → P (s :: ss) l r)
    (success : ∀ s ss l, l.canWrite s = true → takesBlock block accepts s = true →
      P (s :: ss) l ([(s, true)], 0, (l.write s block accepts).2))
    (failure : ∀ s ss l r, l.canWrite s = true → takesBlock block accepts s = false →
      P ss (l.afterFailure block accepts s) r → P (s :: ss) l ((s, false) :: r.1, r.2))
    (ss : List SockId) (l : Links) : P ss l (transmitLoopTraced block accepts ss l) := by
  induction ss generalizing l with
  | nil => exact nil l
  | cons s ss ih =>
    cases hcan : l.canWrite s with
    | false =>
      rw [transmitLoopTraced_skip hcan]
      exact skip s ss l _ hcan (ih l)
    | true =>
      cases htakes : takesBlock block accepts s with
      | true =>
        rw [transmitLoopTraced_success hcan htakes]
        exact success s ss l hcan htakes
      | false =>
        rw [transmitLoopTraced_failure hcan htakes]
        exact failure s ss l _ hcan htakes (ih _)

/-- The later candidates are other sockets, and a failure leaves their checks as they are. -/
theorem transmitLoopTraced_writes {ss : List SockId} (hnodup : ss.Nodup) (l : Links) :
    (transmitLoopTraced block accepts ss l).1 =
      attempts (takesBlock block accepts) (ss.filter l.canWrite) := by
  revert hnodup
  apply transmitLoopTraced_rule (P := fun ss l r =>
    ss.Nodup → r.1 = attempts (takesBlock block accepts) (ss.filter l.canWrite))
  case nil =>
    intro l _
    rfl
  case skip =>
    intro s ss l r hcan ih hnodup
    rw [List.filter_cons_of_neg (by simp [hcan])]
    exact ih hnodup.of_cons
  case success =>
    intro s ss l hcan htakes _
    rw [List.filter_cons_of_pos hcan, attempts, if_pos htakes]
  case failure =>
    intro s ss l r hcan htakes ih hnodup
    have hlater : ss.filter (l.afterFailure block accepts s).canWrite = ss.filter l.canWrite := by
      apply List.filter_congr
      intro s' hs'
      apply afterFailure_canWrite
      rintro rfl
      exact hnodup.notMem hs'
    rw [List.filter_cons_of_pos hcan, attempts, if_neg (by simp [htakes]), ih hnodup.of_cons, hlater]

theorem transmitLoopTraced_ret (ss : List SockId) (l : Links) :
    let r := transmitLoopTraced block accepts ss l
    (r.2.1 = 0 ∧ ∃ s, (s, true) ∈ r.1) ∨ (r.2.1 = -1 ∧ ∀ s, (s, true) ∉ r.1) := by
  apply transmitLoopTraced_rule (P := fun _ _ r =>
    (r.2.1 = 0 ∧ ∃ s, (s, true) ∈ r.1) ∨ (r.2.1 = -1 ∧ ∀ s, (s, true) ∉ r.1))
  case nil => simp
  case skip =>
    intro s ss l r _ ih
    exact ih
  case success => simp
  case failure =>
    intro s ss l r _ _ ih
    simpa using ih

theorem transmitLoopTraced_additional (ss : List SockId) (l : Links) (i : Fin maxSeConnections) :
    let r := transmitLoopTraced block accepts ss l
    r.2.2.additional i =
      if (some i, false) ∈ r.1 then (l.additional i).retired else l.additional i := by
  apply transmitLoopTraced_rule (P := fun _ l r => r.2.2.additional i =
    if (some i, false) ∈ r.1 then (l.additional i).retired else l.additional i)
  case nil => simp
  case skip =>
    intro s ss l r _ ih
    exact ih
  case success =>
    intro s ss l _ _
    simp [write_additional]
  case failure =>
    intro s ss l r _ _ ih
    rw [afterFailure_additional] at ih
    rw [ih]
    by_cases hs : s = some i
    · simp [hs, TcpSock.retired]
    · simp [hs, Ne.symm hs]

theorem transmitLoopTraced_written (ss : List SockId) (l : Links) (s : SockId) :
    let r := transmitLoopTraced block accepts ss l
    s ∉ r.1.map Prod.fst → r.2.2.written s = l.written s := by
  apply transmitLoopTraced_rule (P := fun _ l r =>
    s ∉ r.1.map Prod.fst → r.2.2.written s = l.written s)
  case nil =>
    intro l _
    rfl
  case skip =>
    intro s' ss l r _ ih
    exact ih
  case success =>
    intro s' ss l _ _ hs
    apply write_written
    simpa using hs
  case failure =>
    intro s' ss l r _ _ ih hs
    rw [List.map_cons, List.mem_cons, not_or] at hs
    rw [ih hs.2, afterFailure_written hs.1]

/-! ## The candidates -/

theorem select_snd (l : Links) :
    ∃ n, l.softetherSelectSendSocket.2 = { l with sendRrIdx := n } := by
  rw [softetherSelectSendSocket]
  split
  · exact ⟨l.sendRrIdx, rfl⟩
  · exact ⟨_, rfl⟩

theorem candidates_eq (l : Links) :
    l.candidates =
      (if l.softetherSelectSendSocket.1 ≠ none then [l.softetherSelectSendSocket.1] else []) ++
        (if l.primaryReady then [none] else []) ++
          (l.sendSlots.map some).filter fun s => s ≠ l.softetherSelectSendSocket.1 := by
  obtain ⟨n, hn⟩ := select_snd l
  rw [candidates]
  dsimp only
  rw [hn]
  rfl

theorem mem_sendSockets_some (l : Links) (i : Fin maxSeConnections) :
    some i ∈ l.sendSockets ↔ some i ∈ l.sendSlots.map some := by
  rw [sendSockets]
  split_ifs <;> simp

/-- An additional socket is chosen from the list. -/
theorem select_mem {i : Fin maxSeConnections} (h : l.softetherSelectSendSocket.1 = some i) :
    some i ∈ l.sendSlots.map some := by
  rw [← mem_sendSockets_some]
  rw [softetherSelectSendSocket] at h
  split at h
  · cases h
  · rename_i s ss hsockets
    have hlt : l.sendRrIdx % (ss.length + 1) < (s :: ss).length := Nat.mod_lt _ (by simp)
    rw [hsockets, ← h]
    dsimp only
    rw [List.getD_eq_getElem?_getD, List.getElem?_eq_getElem hlt]
    exact List.getElem_mem hlt

theorem mem_candidates (l : Links) (s : SockId) :
    s ∈ l.candidates ↔ (s = none ∧ l.primaryReady = true) ∨ s ∈ l.sendSlots.map some := by
  rw [candidates_eq]
  cases hbest : l.softetherSelectSendSocket.1 with
  | none => cases s <;> simp
  | some i =>
    have hi := select_mem hbest
    by_cases hs : s = some i
    · simp only [hs, hi, or_true, iff_true]
      simp
    · simp [hs, and_comm]

theorem candidates_nodup (l : Links) : l.candidates.Nodup := by
  have hslots : (l.sendSlots.map some).Nodup :=
    ((List.nodup_finRange _).filter _).map (Option.some_injective _)
  rw [candidates_eq]
  generalize l.softetherSelectSendSocket.1 = best
  have hrest : ((if l.primaryReady then [none] else []) ++
      (l.sendSlots.map some).filter fun s => s ≠ best).Nodup := by
    split_ifs
    · rw [List.singleton_append]
      exact List.nodup_cons.mpr ⟨by simp, hslots.filter _⟩
    · exact hslots.filter _
  rw [List.append_assoc]
  by_cases hbest : best = none
  · rw [if_neg (not_not.mpr hbest)]
    exact hrest
  · rw [if_pos hbest, List.singleton_append, List.nodup_cons, List.mem_append, not_or]
    refine ⟨⟨?_, by simp⟩, hrest⟩
    split_ifs <;> simp [hbest]

theorem candidates_length (l : Links) : l.candidates.length ≤ maxSeConnections + 1 := by
  have h := l.candidates_nodup.length_le_card
  rwa [Fintype.card_option, Fintype.card_fin] at h

theorem usable_iff (l : Links) (s : SockId) :
    l.Usable s ↔ s ∈ l.candidates ∧ l.canWrite s = true := by
  rw [mem_candidates]
  cases s with
  | none =>
    simp [Usable, primaryReady, canWrite]
    tauto
  | some i =>
    simp [Usable, sendSlots, canWrite]
    tauto

/-! ## The block -/

/-- What a call with the session `l` did, when it made the writes `writes`, returned `ret` and left
the session `l'`; `takes` says which sockets take the block. -/
structure FailsOver (l : Links) (takes : SockId → Bool) (writes : List (SockId × Bool)) (ret : ℤ)
    (l' : Links) : Prop where
  once : (writes.map Prod.fst).Nodup
  usable : ∀ s ∈ writes.map Prod.fst, l.Usable s
  outcome : ∀ s ok, (s, ok) ∈ writes → takes s = ok
  firstSuccess : ∃ (failed : List SockId) (last : Option SockId),
    writes = failed.map (fun s => (s, false)) ++ last.toList.map fun s => (s, true)
  complete : (∀ s, (s, true) ∉ writes) → ∀ s, l.Usable s → (s, false) ∈ writes
  returns : ret = 0 ∨ ret = -1
  returnsZero : ret = 0 ↔ ∃ s, l.Usable s ∧ takes s = true
  retired : ∀ i, (some i, false) ∈ writes → l'.additional i = (l.additional i).retired
  kept : ∀ i, (some i, false) ∉ writes → l'.additional i = l.additional i
  untouched : ∀ s, s ∉ writes.map Prod.fst → l'.written s = l.written s

/-- The sockets that the loop may write to, in its order. -/
def usableCandidates (l : Links) : List SockId := l.candidates.filter l.canWrite

theorem mem_usableCandidates (l : Links) (s : SockId) : s ∈ l.usableCandidates ↔ l.Usable s := by
  rw [usableCandidates, List.mem_filter, usable_iff]

section Connected

variable (hblock : 8 ≤ block.length) (hssl : l.ssl = true)

include hblock hssl

theorem softetherTransmitBlockTraced_eq :
    l.softetherTransmitBlockTraced block accepts =
      transmitLoopTraced block accepts l.candidates l.softetherSelectSendSocket.2 := by
  apply if_neg
  simp [hssl, hblock]

theorem softetherTransmitBlockTraced_writes :
    (l.softetherTransmitBlockTraced block accepts).1 =
      attempts (takesBlock block accepts) l.usableCandidates := by
  obtain ⟨n, hn⟩ := select_snd l
  rw [softetherTransmitBlockTraced_eq hblock hssl, transmitLoopTraced_writes l.candidates_nodup, hn]
  apply congrArg (attempts (takesBlock block accepts))
  apply List.filter_congr
  intro s _
  cases s <;> rfl

theorem softetherTransmitBlockTraced_ret :
    let r := l.softetherTransmitBlockTraced block accepts
    (r.2.1 = 0 ∧ ∃ s, (s, true) ∈ r.1) ∨ (r.2.1 = -1 ∧ ∀ s, (s, true) ∉ r.1) := by
  rw [softetherTransmitBlockTraced_eq hblock hssl]
  exact transmitLoopTraced_ret _ _

theorem softetherTransmitBlockTraced_additional (i : Fin maxSeConnections) :
    let r := l.softetherTransmitBlockTraced block accepts
    r.2.2.additional i =
      if (some i, false) ∈ r.1 then (l.additional i).retired else l.additional i := by
  obtain ⟨n, hn⟩ := select_snd l
  rw [softetherTransmitBlockTraced_eq hblock hssl, hn]
  exact transmitLoopTraced_additional _ _ i

theorem softetherTransmitBlockTraced_written (s : SockId) :
    let r := l.softetherTransmitBlockTraced block accepts
    s ∉ r.1.map Prod.fst → r.2.2.written s = l.written s := by
  obtain ⟨n, hn⟩ := select_snd l
  rw [softetherTransmitBlockTraced_eq hblock hssl, hn]
  exact transmitLoopTraced_written _ _ s

theorem softetherTransmitBlockTraced_failsOver :
    let r := l.softetherTransmitBlockTraced block accepts
    l.FailsOver (takesBlock block accepts) r.1 r.2.1 r.2.2 := by
  intro r
  have hwrites : r.1 = attempts (takesBlock block accepts) l.usableCandidates :=
    softetherTransmitBlockTraced_writes hblock hssl
  have hfirst : r.1.map Prod.fst <+: l.usableCandidates := by
    rw [hwrites]
    exact attempts_isPrefix _ _
  have hsuccess : (∃ s, (s, true) ∈ r.1) ↔ ∃ s, l.Usable s ∧ takesBlock block accepts s = true := by
    rw [hwrites, exists_success_iff]
    simp only [mem_usableCandidates]
  have hret : (r.2.1 = 0 ∧ ∃ s, (s, true) ∈ r.1) ∨ (r.2.1 = -1 ∧ ∀ s, (s, true) ∉ r.1) :=
    softetherTransmitBlockTraced_ret hblock hssl
  constructor
  case once => exact (l.candidates_nodup.filter _).sublist hfirst.sublist
  case usable =>
    intro s hs
    exact (mem_usableCandidates l s).mp (hfirst.subset hs)
  case outcome =>
    intro s ok hs
    rw [hwrites] at hs
    exact (mem_attempts _ hs).2
  case firstSuccess => exact ⟨_, _, hwrites.trans (attempts_eq _ _)⟩
  case complete =>
    intro hnone s hs
    have hfail : ∀ s ∈ l.usableCandidates, takesBlock block accepts s = false := by
      intro s hs
      apply Bool.eq_false_iff.mpr
      intro htakes
      obtain ⟨s', hs'⟩ := hsuccess.mpr ⟨s, (mem_usableCandidates l s).mp hs, htakes⟩
      exact hnone s' hs'
    rw [hwrites]
    exact attempts_of_all_fail _ hfail ((mem_usableCandidates l s).mpr hs)
  case returns => exact hret.imp And.left And.left
  case returnsZero =>
    rw [← hsuccess]
    rcases hret with ⟨hzero, h⟩ | ⟨hminus, h⟩
    · exact iff_of_true hzero h
    · exact iff_of_false (by simp [hminus]) (not_exists.mpr h)
  case retired =>
    intro i hi
    exact (softetherTransmitBlockTraced_additional hblock hssl i).trans (if_pos hi)
  case kept =>
    intro i hi
    exact (softetherTransmitBlockTraced_additional hblock hssl i).trans (if_neg hi)
  case untouched =>
    intro s
    exact softetherTransmitBlockTraced_written hblock hssl s

end Connected

/-- A socket for server to client is never usable. -/
theorem directed_usable {d : SockId → TcpDirection} (h : (l.directed d).Usable s) :
    d s ≠ .serverToClient := by
  intro hd
  cases s with
  | none =>
    have hsends : (d none).sends = true := h.1
    rw [hd] at hsends
    cases hsends
  | some i =>
    have hsends : (d (some i)).sends = true := h.2.1
    rw [hd] at hsends
    cases hsends

end Links

/-- The additional socket of `twoSockets` is for client to server. -/
def mixedDirections : SockId → TcpDirection
  | none => .both
  | some i => if i.val = 0 then .clientToServer else .serverToClient

end SoftEtherVpn.Packet

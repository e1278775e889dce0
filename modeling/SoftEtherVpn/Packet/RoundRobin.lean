import SoftEtherVpn.Foundation.Cyclic
import SoftEtherVpn.Packet.SendStreams

/-!
# Fairness of the round robin

`softether_select_send_socket` goes round the sockets that may be sent on. `send_rr_idx` is an `int`:
`send_rr_idx + 1` overflows from `2 ^ 31 - 1`, a value that the code never stores, since it stores
remainders of a count of at most nine.
-/

namespace SoftEtherVpn.Packet

open Foundation

def intMax : ℕ := 2 ^ 31 - 1

namespace Links

/-- A call of `softether_select_send_socket`, `none` where the addition overflows. -/
def selectSendSocket (l : Links) : Option (SockId × Links) :=
  if l.sendSockets = [] then some (none, l)
  else if l.sendRrIdx = intMax then none
  else some l.softetherSelectSendSocket

/-- The sockets that consecutive calls return, and `send_rr_idx` after them. The list has the session
as it is at each call but for `send_rr_idx`, which only the calls change. -/
def selectCalls : List Links → ℕ → Option (List SockId × ℕ)
  | [], idx => some ([], idx)
  | l :: ls, idx =>
    match selectSendSocket { l with sendRrIdx := idx } with
    | none => none
    | some (s, l) =>
      match selectCalls ls l.sendRrIdx with
      | none => none
      | some (ss, idx) => some (s :: ss, idx)

/-- The calls in `window`, made after those in `before`, take the sockets in turn: as many calls as
there are sockets return each of them once, and however many they are, no socket is returned
more than once more than another. -/
def TakesTurns (sockets : List SockId) (before window : List Links) (idx : ℕ) : Prop :=
  ∃ earlier picks idx', selectCalls (before ++ window) idx = some (earlier ++ picks, idx') ∧
    earlier.length = before.length ∧ picks.length = window.length ∧
    (window.length = sockets.length → picks.Perm sockets) ∧
    ∀ s ∈ sockets, ∀ t ∈ sockets, picks.count s ≤ picks.count t + 1

section Select

variable {l : Links} {sockets : List SockId}

theorem sendSockets_nodup (l : Links) : l.sendSockets.Nodup := by
  have hslots : l.sendSlots.Nodup := (List.nodup_finRange maxSeConnections).filter _
  rw [sendSockets, List.nodup_append]
  refine ⟨?_, hslots.map (Option.some_injective _), ?_⟩
  · split_ifs <;> simp
  · intro s hs t ht
    obtain ⟨i, -, rfl⟩ := List.mem_map.mp ht
    split_ifs at hs <;> simp_all

theorem sendSockets_length_le (l : Links) : l.sendSockets.length ≤ maxSeConnections + 1 := by
  have hslots : l.sendSlots.length ≤ maxSeConnections := by
    have hfilter := List.length_filter_le
      (fun i => (l.additional i).active && (l.additional i).sends) (List.finRange maxSeConnections)
    rwa [List.length_finRange] at hfilter
  rw [sendSockets, List.length_append, List.length_map]
  split_ifs <;> simp <;> omega

/-- The sockets that a call chooses from, as the source describes them. -/
theorem mem_sendSockets_iff (l : Links) (s : SockId) :
    s ∈ l.sendSockets ↔
      match s with
      | none => l.fd = true ∧ l.ssl = true ∧ l.primarySends = true
      | some i => (l.additional i).active = true ∧ (l.additional i).sends = true := by
  cases s with
  | none => simp [sendSockets, primaryReady, and_assoc]
  | some i => simp [sendSockets, sendSlots]

/-- One call takes the socket at the index and moves the index to the next. -/
theorem selectSendSocket_eq (hsockets : l.sendSockets = sockets) (hne : sockets ≠ [])
    (hidx : l.sendRrIdx < intMax) :
    ∃ s, sockets[l.sendRrIdx % sockets.length]? = some s ∧
      l.selectSendSocket = some (s, { l with sendRrIdx := (l.sendRrIdx + 1) % sockets.length }) := by
  cases sockets with
  | nil => exact absurd rfl hne
  | cons s ss =>
    have hlt : l.sendRrIdx % (s :: ss).length < (s :: ss).length := Nat.mod_lt _ (by simp)
    refine ⟨(s :: ss).get ⟨_, hlt⟩, List.getElem?_eq_getElem hlt, ?_⟩
    rw [selectSendSocket, hsockets, if_neg hne, if_neg hidx.ne, softetherSelectSendSocket, hsockets]
    dsimp only
    rw [List.getD_eq_getElem?_getD, ← List.length_cons, List.getElem?_eq_getElem hlt]
    rfl

/-- A run of calls goes round the sockets from the index on. -/
theorem selectCalls_eq (hne : sockets ≠ []) {ls : List Links}
    (hsame : ∀ l ∈ ls, l.sendSockets = sockets) {idx : ℕ} (hidx : idx < intMax) :
    ∃ idx', selectCalls ls idx = some (cyclic sockets idx ls.length, idx') := by
  induction ls generalizing idx with
  | nil => exact ⟨idx, rfl⟩
  | cons l ls ih =>
    have hsockets : ({ l with sendRrIdx := idx } : Links).sendSockets = sockets :=
      hsame l List.mem_cons_self
    have hpos : 0 < sockets.length := List.length_pos_of_ne_nil hne
    have hlength : sockets.length ≤ 9 := hsockets ▸ sendSockets_length_le _
    have hnext : (idx + 1) % sockets.length < intMax :=
      (Nat.mod_lt _ hpos).trans (by rw [intMax]; omega)
    have hmod : (idx + 1) % sockets.length ≡ idx + 1 [MOD sockets.length] := Nat.mod_modEq _ _
    obtain ⟨s, hs, hselect⟩ := selectSendSocket_eq hsockets hne hidx
    obtain ⟨idx', hrest⟩ := ih (fun l hl => hsame l (List.mem_cons_of_mem _ hl)) hnext
    use idx'
    rw [selectCalls, hselect]
    dsimp only
    rw [hrest, cyclic_congr sockets hmod]
    dsimp only at hs ⊢
    rw [List.length_cons, cyclic, hs]
    rfl

end Select

end Links

/-- Every window of calls takes the sockets in turn while the sockets that may be sent on are
the same, from any index at which a session can be. -/
theorem select_takesTurns (sockets : List SockId) (hne : sockets ≠ []) (before window : List Links)
    (hsame : ∀ l ∈ before ++ window, l.sendSockets = sockets) (idx : ℕ) (hidx : idx < intMax) :
    Links.TakesTurns sockets before window idx := by
  obtain ⟨idx', hcalls⟩ := Links.selectCalls_eq hne hsame hidx
  rw [List.length_append, cyclic_add] at hcalls
  by_cases hcall : before ++ window = []
  · obtain ⟨rfl, rfl⟩ := List.append_eq_nil_iff.mp hcall
    refine ⟨[], [], idx', hcalls, rfl, rfl, ?_, fun s _ t _ => ?_⟩
    · intro hlength
      exact absurd (List.eq_nil_of_length_eq_zero hlength.symm) hne
    · simp
  have hnodup : sockets.Nodup := by
    obtain ⟨l, hl⟩ := List.exists_mem_of_ne_nil _ hcall
    rw [← hsame l hl]
    exact l.sendSockets_nodup
  refine ⟨_, _, idx', hcalls, cyclic_length hne _ _, cyclic_length hne _ _, ?_, ?_⟩
  · intro hlength
    rw [hlength]
    exact cyclic_perm hnodup _
  · intro s hs t ht
    exact cyclic_count_le hnodup hs ht _ _

/-- The primary socket and two additional ones, with one that only receives between them. -/
def threeSenders : Links where
  ssl := true
  fd := true
  primarySends := true
  additional := fun i =>
    if i.1 = 1 ∨ i.1 = 4 then ⟨true, true, true, true⟩
    else if i.1 = 2 then ⟨true, true, true, false⟩
    else ⟨false, false, false, true⟩
  sendRrIdx := 0
  written := fun _ => []

def threeSenderIds : List SockId := threeSenders.sendSockets

/-- Two calls and three more, with an index left over from seven sockets. -/
theorem select_takesTurns_threeSenders :
    threeSenderIds ≠ [] ∧ 5 < intMax ∧
      Links.TakesTurns threeSenderIds (List.replicate 2 threeSenders)
        (List.replicate 3 threeSenders) 5 := by
  refine ⟨by decide, by decide, ?_⟩
  apply select_takesTurns threeSenderIds (by decide) _ _ _ 5 (by decide)
  intro l hl
  rw [← List.replicate_add] at hl
  rw [List.eq_of_mem_replicate hl]
  rfl

/-- From `2 ^ 31 - 1` the first call overflows. -/
theorem select_overflows :
    ¬Links.TakesTurns threeSenderIds [] (List.replicate 3 threeSenders) intMax := by
  rintro ⟨earlier, picks, idx', hcalls, -⟩
  have hnone : Links.selectCalls (List.replicate 3 threeSenders) intMax = none := by
    have hselect : Links.selectSendSocket { threeSenders with sendRrIdx := intMax } = none := by
      rw [Links.selectSendSocket, if_neg (by decide), if_pos rfl]
    rw [List.replicate_succ, Links.selectCalls, hselect]
  rw [List.nil_append, hnone] at hcalls
  cases hcalls

end SoftEtherVpn.Packet

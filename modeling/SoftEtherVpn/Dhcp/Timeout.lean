import SoftEtherVpn.Dhcp.Exchange

/-!
# When the DHCP wait ends

Only a pass without a frame advances `elapsed`. Over an infinite stream of passes the wait ends
exactly when one of them fails, one delivers a typed reply to this client, or the
passes without a frame reach the timeout.
-/

namespace SoftEtherVpn.Dhcp

open Foundation

/-- What the `n`-th pass delivers. -/
def deliveryAt : List Frame → (ℕ → Pass) → ℕ → Delivery
  | queue, passes, 0 => (waitPass queue (passes 0)).1
  | queue, passes, n + 1 => deliveryAt (waitPass queue (passes 0)).2 (fun k => passes (k + 1)) n

theorem deliveries_range (queue : List Frame) (passes : ℕ → Pass) (n : ℕ) :
    deliveries queue ((List.range n).map passes) =
      (List.range n).map (deliveryAt queue passes) := by
  induction n generalizing queue passes with
  | zero => rfl
  | succ n ih =>
    have htail := ih (waitPass queue (passes 0)).2 fun k => passes (k + 1)
    rw [List.range_succ_eq_map, List.map_cons, List.map_cons, deliveries, List.map_map,
      List.map_map]
    exact congrArg _ htail

/-- The `n` deliveries of a stream from index `k` on. -/
def window (stream : ℕ → Delivery) (k n : ℕ) : List Delivery :=
  (List.range n).map fun i => stream (k + i)

@[simp] theorem window_length (stream : ℕ → Delivery) (k n : ℕ) :
    (window stream k n).length = n := by
  simp [window]

theorem window_append (stream : ℕ → Delivery) (k m n : ℕ) :
    window stream k (m + n) = window stream k m ++ window stream (k + m) n := by
  simp [window, List.range_add, Function.comp_def, add_assoc]

theorem window_zero (stream : ℕ → Delivery) (n : ℕ) :
    window stream 0 n = (List.range n).map stream := by
  simp [window]

/-- What is left of a window is a window further on. -/
theorem window_suffix {stream : ℕ → Delivery} {k n : ℕ} {used rest : List Delivery}
    (h : window stream k n = used ++ rest) :
    rest = window stream (k + used.length) rest.length := by
  have hlength : n = used.length + rest.length := by
    simpa using congrArg List.length h
  rw [hlength, window_append] at h
  exact (List.append_inj_right h (window_length _ _ _)).symm

/-- From index `k` on, the stream has a delivery that ends the wait or enough passes without a
frame. -/
def Settles (xid : ℕ) (mac : Bytes) (timeoutMs : ℕ) (stream : ℕ → Delivery) (k : ℕ) : Prop :=
  (∃ n, (stream (k + n)).ends xid mac = true) ∨
    ∃ n, timeoutMs ≤ pollInterval * (window stream k n).count .idle

section Stream

variable {xid : ℕ} {mac : Bytes} {timeoutMs : ℕ}

theorem waitDhcpResponse_window_iff (stream : ℕ → Delivery) (k : ℕ) (w : Written) :
    (∃ n, waitDhcpResponse xid mac timeoutMs (window stream k n) w ≠ none) ↔
      Settles xid mac timeoutMs stream k := by
  simp only [waitDhcpResponse, ne_eq, waitLoop_eq_none_iff, not_and_or, not_forall, zero_add,
    not_lt, Bool.not_eq_false, exists_prop, Settles, exists_or]
  refine or_congr_left ⟨?_, ?_⟩
  · rintro ⟨n, d, hmem, hends⟩
    obtain ⟨i, -, rfl⟩ := List.mem_map.mp hmem
    exact ⟨i, hends⟩
  · rintro ⟨n, hends⟩
    exact ⟨n + 1, _, List.mem_map.mpr ⟨n, by simp, rfl⟩, hends⟩

/-- On a stream that settles, a wait returns, and leaves the stream from a later index on. -/
theorem waitDhcpResponse_window {stream : ℕ → Delivery} {k : ℕ}
    (h : Settles xid mac timeoutMs stream k) (w : Written) :
    ∃ msgType w' k' n left, ∀ more,
      waitDhcpResponse xid mac timeoutMs (window stream k (n + more)) w =
        some (msgType, w', window stream k' (left + more)) := by
  obtain ⟨n, hn⟩ := (waitDhcpResponse_window_iff stream k w).mpr h
  obtain ⟨⟨msgType, w', rest⟩, hout⟩ := Option.ne_none_iff_exists'.mp hn
  have hwaits := waitLoop_waits hout
  obtain ⟨used, hused, -, -⟩ := hwaits.used
  have hrest := window_suffix hused
  refine ⟨msgType, w', k + used.length, n, rest.length, fun more => ?_⟩
  have hend : k + n = k + used.length + rest.length := by
    have hlength := congrArg List.length hused
    simp at hlength
    omega
  rw [window_append, window_append stream (k + used.length), ← hrest, ← hend]
  exact (hwaits.append _).waitLoop_eq

/-- The retries return when every wait does. -/
theorem dhcpRetries_window {stream : ℕ → Delivery}
    (h : ∀ k, Settles xid mac dhcpTimeoutMs stream k) (sends : List Sends) (w : Written)
    (request : Option Request) (k : ℕ) :
    ∃ n, ∀ more, dhcpRetries xid mac sends w request (window stream k (n + more)) ≠ none := by
  induction sends generalizing w request k with
  | nil => exact ⟨0, fun more => by simp [dhcpRetries]⟩
  | cons s sends ih =>
    by_cases hdiscover : s.discover = true
    swap
    · exact ⟨0, fun more => by simp [dhcpRetries, hdiscover]⟩
    obtain ⟨msgType, w₁, k₁, n₁, left₁, hwait₁⟩ := waitDhcpResponse_window (h k) w
    by_cases hoffer : msgType = dhcpOffer
    swap
    · obtain ⟨n, hn⟩ := ih w₁ request k₁
      refine ⟨n₁ + n, fun more => ?_⟩
      rw [add_assoc, dhcpRetries_noOffer hdiscover (hwait₁ (n + more)) hoffer,
        Nat.add_left_comm left₁]
      split_ifs
      · simp
      · exact hn (left₁ + more)
    rw [hoffer] at hwait₁
    by_cases hrequest : s.request = true
    swap
    · refine ⟨n₁, fun more => ?_⟩
      rw [dhcpRetries_noRequest hdiscover (by simpa using hrequest) (hwait₁ more)]
      simp
    obtain ⟨answer, w₂, k₂, n₂, left₂, hwait₂⟩ := waitDhcpResponse_window (h k₁) w₁
    obtain ⟨n, hn⟩ := ih w₂ (some (buildRequest w₁)) k₂
    refine ⟨n₁ + (n₂ + n), fun more => ?_⟩
    have hwait := hwait₂ (left₁ + (n + more))
    rw [Nat.add_left_comm, Nat.add_left_comm left₂] at hwait
    rw [add_assoc, add_assoc, dhcpRetries_request hdiscover hrequest (hwait₁ _) hwait]
    split_ifs
    · simp
    · simp
    · simp
    · have hlast := hn (left₁ + (left₂ + more))
      rwa [Nat.add_left_comm n, Nat.add_left_comm n] at hlast

end Stream

/-- For every receive queue and every infinite stream of passes, the wait returns exactly when the
stream settles; and if it settles from every index on, the whole exchange returns. -/
theorem waitDhcpResponse_returns_iff (xid : ℕ) (mac : Bytes) (queue : List Frame)
    (passes : ℕ → Pass) :
    (∀ timeoutMs w,
      (∃ n, waitDhcpResponse xid mac timeoutMs
        (deliveries queue ((List.range n).map passes)) w ≠ none) ↔
        Settles xid mac timeoutMs (deliveryAt queue passes) 0) ∧
    ((∀ k, Settles xid mac dhcpTimeoutMs (deliveryAt queue passes) k) →
      ∀ connected old sends,
        ∃ n, softetherDoDhcp xid mac connected old sends
          (deliveries queue ((List.range n).map passes)) ≠ none) := by
  simp only [deliveries_range, ← window_zero]
  constructor
  · intro timeoutMs w
    exact waitDhcpResponse_window_iff _ 0 w
  · intro h connected old sends
    obtain ⟨n, hn⟩ := dhcpRetries_window h (List.ofFn sends) cleared none 0
    refine ⟨n, ?_⟩
    unfold softetherDoDhcp
    split_ifs
    · exact hn 0
    · simp

/-- A pass without a descriptor that can receive. -/
def silentPass : Pass where
  connected := true
  socketOpen := true
  nfds := 0
  pollResult := 0
  fill := .queued []

theorem deliveryAt_silentPass (n : ℕ) : deliveryAt [] (fun _ => silentPass) n = .idle := by
  induction n with
  | zero => rfl
  | succ n ih => exact ih

theorem settles_silentPass (xid : ℕ) (mac : Bytes) (k : ℕ) :
    Settles xid mac dhcpTimeoutMs (deliveryAt [] fun _ => silentPass) k := by
  refine Or.inr ⟨50, ?_⟩
  simp [window, deliveryAt_silentPass, dhcpTimeoutMs, pollInterval]

theorem waitDhcpResponse_returns_silent :
    (∀ k, Settles 7 [2, 0, 0, 0, 0, 1] dhcpTimeoutMs (deliveryAt [] fun _ => silentPass) k) ∧
      ∃ n, softetherDoDhcp 7 [2, 0, 0, 0, 0, 1] true cleared.result (fun _ => ⟨true, true⟩)
        (deliveries [] ((List.range n).map fun _ => silentPass)) ≠ none :=
  ⟨settles_silentPass _ _,
    (waitDhcpResponse_returns_iff 7 [2, 0, 0, 0, 0, 1] [] fun _ => silentPass).2
      (settles_silentPass _ _) true cleared.result fun _ => ⟨true, true⟩⟩

/-- A stranger's frame of one byte is ready in every pass. -/
def busyPass : Pass where
  connected := true
  socketOpen := true
  nfds := 1
  pollResult := 1
  fill := .queued [⟨[0], by decide⟩]

theorem deliveryAt_busyPass (n : ℕ) :
    deliveryAt [] (fun _ => busyPass) n = .frame ⟨[0], by decide⟩ := by
  induction n with
  | zero => rfl
  | succ n ih => exact ih

/-- With foreign traffic in every pass the wait never returns. -/
theorem waitDhcpResponse_starved :
    ¬∃ n, waitDhcpResponse 7 [2, 0, 0, 0, 0, 1] dhcpTimeoutMs
      (deliveries [] ((List.range n).map fun _ => busyPass)) cleared ≠ none := by
  simp only [deliveries_range, ← window_zero, waitDhcpResponse_window_iff]
  rintro (⟨n, hends⟩ | ⟨n, htimeout⟩)
  · rw [deliveryAt_busyPass] at hends
    revert hends
    decide
  · have hnone : (window (deliveryAt [] fun _ => busyPass) 0 n).count .idle = 0 := by
      apply List.count_eq_zero_of_not_mem
      intro hmem
      obtain ⟨i, -, hi⟩ := List.mem_map.mp hmem
      rw [deliveryAt_busyPass] at hi
      cases hi
    rw [hnone] at htimeout
    revert htimeout
    decide

end SoftEtherVpn.Dhcp

import SoftEtherVpn.Multi.Session

/-!
# The counter of the additional sockets

`num_additional` is changed by a read and a later write, and in none of the places that retire a
socket together with the flag it counts. It is exact between the calls in the runs in
which every retirement meets an active socket, no change of the counter is torn apart by another
one, and the counter is only set to zero when nothing is left to count.
-/

namespace SoftEtherVpn.Multi

open Foundation
open Packet (maxSeConnections SockId)

def Shared.actives (c : Shared) (i : Fin maxSeConnections) : Bool := (c.additional i).active

def Shared.activeCount (c : Shared) : ℕ := (Finset.univ.filter fun i => c.actives i).card

/-- Thread `i` may change a flag or the counter: it retires an active socket, fills an inactive
slot, reads the counter while no other thread is changing it, and sets it to zero when no socket is
active and no other thread owes it a change. -/
def CounterOk (p : Threads) (i : ℕ) : Act → Prop
  | .clearActive k => p.shared.actives k = true
  | .storeActive k => p.shared.actives k = false
  | .loadNum => ∀ j u, p.At j u → j ≠ i → u.regs.num = none
  | .zeroNum => (∀ k, p.shared.actives k = false) ∧
      ∀ j u, p.At j u → j ≠ i → u.regs.num = none ∧ u.regs.owes = 0
  | _ => True

def CounterClean (p : Threads) (s : ℕ × Move Call) : Prop :=
  ∀ t, p.At s.1 t → ∀ a ∈ t.prog.head, CounterOk p s.1 a

instance decidableCounterOk (p : Threads) (i : ℕ) : (a : Act) → Decidable (CounterOk p i a)
  | .clearActive k => inferInstanceAs (Decidable (p.shared.actives k = true))
  | .storeActive k => inferInstanceAs (Decidable (p.shared.actives k = false))
  | .loadNum => inferInstanceAs (Decidable (∀ j u, p.At j u → j ≠ i → u.regs.num = none))
  | .zeroNum => inferInstanceAs (Decidable ((∀ k, p.shared.actives k = false) ∧
      ∀ j u, p.At j u → j ≠ i → u.regs.num = none ∧ u.regs.owes = 0))
  | .lockWrite | .unlockWrite | .lockConnect | .unlockConnect | .readLock | .readUnlock
  | .writeLock | .writeUnlock | .capture _ | .forget _ | .use _ | .closeActive _ | .clearSsl _
  | .clearFd _ | .loadCtx _ | .claim _ | .clearCtx | .destroy | .storeNum _ | .setState _
  | .setConnecting _ | .clearConnecting | .launch _ _ _ | .join | .create _ | .destroyFresh
  | .storeFd _ | .storeCtx _ | .storeSsl _ | .storeDirection _ _ _ => isTrue trivial

instance (p : Threads) (s : ℕ × Move Call) : Decidable (CounterClean p s) :=
  Pool.decidableForallAt p s.1 fun t => ∀ a ∈ t.prog.head, CounterOk p s.1 a

/-! ## What a call still has to do to the counter -/

structure Duty where
  owes : ℤ
  closing : Bool
  loaded : Bool

def Duty.after (d : Duty) : Act → Option Duty
  | .clearActive _ => some { d with owes := d.owes - 1 }
  | .storeActive _ => some { d with owes := d.owes + 1 }
  | .closeActive _ => some { d with closing := true }
  | .loadNum => some { d with loaded := true }
  | .storeNum δ =>
    if d.loaded then some { d with owes := d.owes - δ, loaded := false } else none
  | .zeroNum => if d.owes = 0 ∧ d.loaded = false then some { d with closing := false } else none
  | _ => some d

def Duty.none : Duty := ⟨0, false, false⟩

def Regs.duty (r : Regs) : Duty := ⟨r.owes, r.closing, r.num.isSome⟩

/-- Every path of the program does what it owes. -/
abbrev Settles (p : Program) (d : Duty) : Prop := p.Checks Duty.after (· = Duty.none) d

namespace Program

variable {next exit ok fail yes no : Program} {d : Duty}

@[simp] theorem settles_ask (f : Shared → Regs → Bool) :
    Settles (ask f yes no) d ↔ Settles yes d ∧ Settles no d := Iff.rfl

@[simp] theorem settles_choose : Settles (choose yes no) d ↔ Settles yes d ∧ Settles no d := Iff.rfl

@[simp] theorem settles_act (a : Act) :
    Settles (.act a next) d ↔ ∃ d', d.after a = some d' ∧ Settles next d' := Iff.rfl

theorem settles_done : Settles .done .none := rfl

theorem settles_takeSslCtxSlot (s : SockId) (h : Settles next d) :
    Settles (takeSslCtxSlot s next) d := by
  simpa [takeSslCtxSlot, Duty.after] using h

theorem settles_retire (i : Fin maxSeConnections) (h : Settles next .none) :
    Settles (retire i next) .none := by
  simpa [retire, takeSslCtxSlot, Duty.after, Duty.none] using h

theorem settles_uses (s : SockId) (n : ℕ) (h : Settles next d) : Settles (uses s n next) d := by
  induction n with
  | zero => exact h
  | succ n ih => simpa [uses, Duty.after] using ih

section Data

variable (tls : Bool)

theorem settles_dataWriteAllSock (s : SockId) (n : ℕ) (hok : Settles ok d)
    (hfail : Settles fail d) : Settles (dataWriteAllSock tls s n ok fail) d := by
  have hchoose : Settles (choose ok fail) d := ⟨hok, hfail⟩
  rw [dataWriteAllSock]
  split_ifs
  · exact settles_uses s n hchoose
  · exact hchoose

theorem settles_dataWriteAll (n : ℕ) (hok : Settles ok d) (hfail : Settles fail d) :
    Settles (dataWriteAll tls n ok fail) d := by
  induction n with
  | zero => exact ⟨hok, hfail⟩
  | succ n ih =>
    rw [dataWriteAll]
    split_ifs
    · simp [Duty.after, ih, hfail]
    · exact ⟨hok, hfail⟩

theorem settles_dataReadAllSock (s : SockId) (n : ℕ) (hok : Settles ok d)
    (hfail : Settles fail d) : Settles (dataReadAllSock tls s n ok fail) d := by
  rw [dataReadAllSock]
  split_ifs
  · have hread : Settles (choose (.act .unlockWrite ok) (.act .unlockWrite fail)) d := by
      simp [Duty.after, hok, hfail]
    simpa [Duty.after] using settles_uses s n hread
  · exact ⟨hok, hfail⟩

theorem settles_keepaliveSock (s : SockId) (n : ℕ) (h : Settles next d) :
    Settles (softetherSendKeepaliveSock tls s n next) d := by
  have hunlock : Settles (.act .unlockWrite next) d := by
    simpa [Duty.after] using h
  have hwrite := settles_dataWriteAllSock tls s n hunlock hunlock
  simp [softetherSendKeepaliveSock, Duty.after, hwrite, h]

theorem settles_keepalive (n : ℕ) (h : Settles next d) :
    Settles (softetherSendKeepalive tls n next) d := by
  have hsock := settles_keepaliveSock tls none n h
  simp [softetherSendKeepalive, Duty.after, hsock, h]

theorem settles_keepaliveLoop (n : ℕ) (is : List (Fin maxSeConnections)) (h : Settles next d) :
    Settles (keepaliveLoop tls n is next) d := by
  induction is with
  | nil => exact h
  | cons i is ih =>
    have hsock := settles_keepaliveSock tls (some i) n ih
    simp [keepaliveLoop, Duty.after, hsock, ih]

theorem settles_keepaliveAll (n : ℕ) (h : Settles next d) :
    Settles (softetherSendKeepaliveAll tls n next) d := by
  have hrest := settles_keepaliveLoop tls n slots h
  have hsock := settles_keepaliveSock tls none n hrest
  simp [softetherSendKeepaliveAll, Duty.after, hsock, hrest, h]

theorem settles_transmitLoop (n : ℕ) (hexit : Settles exit .none) (ss : List SockId) :
    Settles (transmitLoop tls n exit ss) .none := by
  induction ss with
  | nil => exact hexit
  | cons s ss ih =>
    cases s with
    | none =>
      have hwrite := settles_dataWriteAll tls n hexit ih
      simp [transmitLoop, hwrite, ih]
    | some i =>
      have hwrite := settles_dataWriteAllSock tls (some i) n hexit (settles_retire i ih)
      simp [transmitLoop, Duty.after, hwrite, ih]

theorem settles_captureLoop (is : List (Fin maxSeConnections)) (h : Settles next d) :
    Settles (captureLoop is next) d := by
  induction is with
  | nil => exact h
  | cons i is ih => simp [captureLoop, Duty.after, ih]

theorem settles_captureAll (h : Settles next d) : Settles (captureAll next) d := by
  have hloop := settles_captureLoop slots h
  simp [captureAll, Duty.after, hloop]

theorem settles_revalidate (s : SockId) (h : Settles next d) (hexit : Settles exit d) :
    Settles (revalidate s next exit) d := by
  cases s with
  | none => exact ⟨⟨⟨⟨h, hexit⟩, hexit⟩, hexit⟩, hexit⟩
  | some i => exact ⟨⟨⟨⟨h, hexit⟩, hexit⟩, hexit⟩, hexit⟩

theorem settles_closeFailed (s : SockId) (hexit : Settles exit .none) :
    Settles (closeFailedAdditionalSocket s exit) .none := by
  cases s with
  | none => exact hexit
  | some i => exact settles_retire i hexit

theorem settles_readLoop (s : SockId) (n : ℕ) (hexit : Settles exit .none) (calls : List ℕ) :
    Settles (readLoop tls s n exit calls) .none := by
  induction calls with
  | nil => exact ⟨settles_keepalive tls n hexit, hexit⟩
  | cons k ks ih =>
    exact settles_dataReadAllSock tls s k ⟨ih, hexit⟩ (settles_closeFailed s hexit)

theorem settles_selectLoop {read : SockId → Program} (hread : ∀ s, Settles (read s) d)
    (hexit : Settles exit d) (ss : List SockId) : Settles (selectLoop read ss exit) d := by
  induction ss with
  | nil => exact hexit
  | cons s ss ih => exact ⟨hread s, ih⟩

theorem settles_pendingLoop {read : SockId → Program} (hread : ∀ s, Settles (read s) d)
    (h : Settles next d) (ss : List SockId) : Settles (pendingLoop read ss next) d := by
  induction ss with
  | nil => exact h
  | cons s ss ih => simp [pendingLoop, Duty.after, hread s, ih]

theorem settles_fillRecvQueue (n : ℕ) (calls : List ℕ) :
    Settles (softetherFillRecvQueue tls n calls) .none := by
  have hexit : Settles (.act .readUnlock .done) .none := ⟨.none, rfl, rfl⟩
  have hread : ∀ s, Settles (revalidate s (readLoop tls s n (.act .readUnlock .done) calls)
      (.act .readUnlock .done)) .none := by
    intro s
    exact settles_revalidate s (settles_readLoop tls s n hexit calls) hexit
  have hpoll : Settles (choose (ask notDisconnecting (choose (selectLoop _ sockets _) _) _) _)
      .none :=
    ⟨⟨⟨settles_selectLoop hread hexit sockets, hexit⟩, hexit⟩, hexit⟩
  have hpending := settles_pendingLoop hread hpoll sockets
  refine ⟨.none, rfl, ⟨⟨settles_captureAll ⟨?_, hexit⟩, hexit⟩, hexit⟩, hexit⟩
  split_ifs
  · exact hpending
  · exact hpoll

theorem settles_send (n : ℕ) (candidates : List SockId) :
    Settles (softetherSend tls n candidates) .none := by
  have hexit : Settles (.act .unlockWrite .done) .none := ⟨.none, rfl, rfl⟩
  have hloop := settles_transmitLoop tls n hexit candidates
  exact ⟨⟨.none, rfl, ⟨hloop, hexit⟩, hexit⟩, rfl⟩

theorem settles_sendPacket (n : ℕ) (s : SockId) : Settles (softetherSendPacket tls n s) .none := by
  have hexit : Settles (.act .unlockWrite .done) .none := ⟨.none, rfl, rfl⟩
  refine ⟨⟨.none, rfl, ⟨?_, hexit⟩, hexit⟩, rfl⟩
  cases s with
  | none => exact settles_dataWriteAll tls n hexit hexit
  | some i =>
    have hwrite := settles_dataWriteAllSock tls (some i) n hexit hexit
    exact ⟨.none, rfl, ⟨hwrite, hexit⟩, hexit⟩

theorem settles_launchLoop (n : ℕ) (sends receives : Bool) (h : Settles next d)
    (is : List (Fin maxSeConnections)) : Settles (launchLoop n sends receives next is) d := by
  induction is with
  | nil => exact h
  | cons i is ih => simp [launchLoop, Duty.after, h, ih]

theorem settles_cleanupLoop (h : Settles next .none) (is : List (Fin maxSeConnections)) :
    Settles (cleanupLoop next is) .none := by
  induction is with
  | nil => exact h
  | cons i is ih =>
    have hretire := settles_retire i ih
    simp [cleanupLoop, hretire, ih]

theorem settles_maintainLinks (n uses : ℕ) (sends receives : Bool) :
    Settles (softetherMaintainLinks tls n uses sends receives) .none := by
  have hcleanup := settles_cleanupLoop settles_done slots
  have hlaunch := settles_launchLoop uses sends receives hcleanup slots
  exact settles_keepaliveAll tls n ⟨⟨⟨hlaunch, hcleanup⟩, hcleanup⟩, hcleanup⟩

end Data

theorem settles_connectIn (n : ℕ) (sends receives : Bool) (i : Fin maxSeConnections)
    (h : Settles next .none) : Settles (connectIn n sends receives next i) .none := by
  have hstore : Settles (.act (.storeFd i) (.act (.storeCtx i) (.act (.storeSsl i)
      (.act (.storeDirection i sends receives) (.act (.storeActive i)
        (.act .loadNum (.act (.storeNum 1) next))))))) .none := by
    simpa [Duty.after, Duty.none] using h
  have hfail : Settles (.act .destroyFresh next) .none := ⟨.none, rfl, h⟩
  exact ⟨⟨.none, rfl, settles_uses (some i) n ⟨hstore, hfail⟩⟩, h⟩

theorem settles_connectLoop (n : ℕ) (sends receives : Bool) (h : Settles next .none)
    (is : List (Fin maxSeConnections)) : Settles (connectLoop n sends receives next is) .none := by
  induction is with
  | nil => exact h
  | cons i is ih => exact ⟨ih, settles_connectIn n sends receives i h⟩

theorem settles_additionalConnect (n : ℕ) (sends receives : Bool) :
    Settles (additionalConnectThreadRoutine n sends receives) .none := by
  have hnext : Settles (.act .clearConnecting .done) .none := ⟨.none, rfl, rfl⟩
  exact ⟨settles_connectLoop n sends receives hnext slots, hnext⟩

theorem settles_joinConnect (h : Settles next d) : Settles (joinConnect next) d := by
  simp [joinConnect, Duty.after, h]

theorem settles_destroyLoop (h : Settles next d) (is : List (Fin maxSeConnections)) :
    Settles (destroyLoop next is) d := by
  induction is with
  | nil => exact h
  | cons i is ih => exact settles_takeSslCtxSlot (some i) ⟨d, rfl, ih⟩

/-- The slots may be marked inactive because the counter is set to zero afterwards. -/
theorem settles_closeLoop (h : ∀ closing, Settles next ⟨0, closing, false⟩)
    (is : List (Fin maxSeConnections)) (closing : Bool) :
    Settles (closeLoop next is) ⟨0, closing, false⟩ := by
  induction is generalizing closing with
  | nil => exact h closing
  | cons i is ih => simp [closeLoop, Duty.after, ih]

theorem settles_closeAdditional (h : Settles next .none) :
    Settles (softetherCloseAdditional next) .none := by
  apply settles_joinConnect
  apply settles_closeLoop
  intro closing
  apply settles_destroyLoop
  simpa [Duty.after, Duty.none] using h

theorem settles_destroyPrimary (h : Settles next d) : Settles (destroyPrimary next) d := by
  simp [destroyPrimary, Duty.after, h]

theorem settles_teardown : Settles teardown .none := by
  have hexit : Settles (.act .unlockWrite (.act .writeUnlock
      (.act (.setState .disconnected) (.act .unlockConnect .done)))) .none := by
    simp [Duty.after, settles_done]
  have hclose := settles_closeAdditional (settles_destroyPrimary hexit)
  simpa [teardown, Duty.after] using hclose

theorem settles_disconnect : Settles softetherDisconnect .none := by
  have hteardown : Settles (ask hasFd (.act (.clearFd none) teardown) teardown) .none := by
    simp [Duty.after, settles_teardown]
  have hjoin := settles_joinConnect hteardown
  simp [softetherDisconnect, Duty.after, hjoin, settles_done]

end Program

/-- Every call leaves the counter as it has to. -/
theorem session_settles (tls : Bool) (o : Call) : Settles ((session tls).program o) .none := by
  cases o with
  | fillRecvQueue n calls => exact Program.settles_fillRecvQueue tls n calls
  | maintainLinks n uses sends receives =>
    exact Program.settles_maintainLinks tls n uses sends receives
  | send n candidates => exact Program.settles_send tls n candidates
  | sendPacket n s => exact Program.settles_sendPacket tls n s
  | keepalive n => exact Program.settles_keepalive tls n Program.settles_done
  | disconnect => exact Program.settles_disconnect
  | additionalConnect n sends receives => exact Program.settles_additionalConnect n sends receives

/-! ## What a step does to the counter and the flags -/

section Step

variable {c c' : Shared} {r r' : Regs} {a : Act} {me : ℕ}

structure Quiet (c : Shared) (r : Regs) (c' : Shared) (r' : Regs) : Prop where
  actives : c'.actives = c.actives
  counter : c'.numAdditional = c.numAdditional
  num : r'.num = r.num
  owes : r'.owes = r.owes
  closing : r'.closing = r.closing

theorem Quiet.duty (h : Quiet c r c' r') : r'.duty = r.duty := by
  rw [Regs.duty, Regs.duty, h.num, h.owes, h.closing]

inductive CounterStep (c : Shared) (r : Regs) : Act → Shared → Regs → Prop
  | other {a : Act} {c' : Shared} {r' : Regs} (hquiet : Quiet c r c' r')
      (hafter : ∀ d : Duty, d.after a = some d) : CounterStep c r a c' r'
  | clearActive (i : Fin maxSeConnections) {c' : Shared}
      (hactives : c'.actives = Function.update c.actives i false)
      (hnum : c'.numAdditional = c.numAdditional) :
      CounterStep c r (.clearActive i) c' { r with owes := r.owes - 1 }
  | storeActive (i : Fin maxSeConnections) {c' : Shared}
      (hactives : c'.actives = Function.update c.actives i true)
      (hnum : c'.numAdditional = c.numAdditional) :
      CounterStep c r (.storeActive i) c' { r with owes := r.owes + 1 }
  | closeActive (i : Fin maxSeConnections) {c' : Shared}
      (hnum : c'.numAdditional = c.numAdditional) :
      CounterStep c r (.closeActive i) c' { r with closing := true }
  | loadNum : CounterStep c r .loadNum c { r with num := some c.numAdditional }
  | storeNum (δ : ℤ) : CounterStep c r (.storeNum δ)
      { c with numAdditional := r.num.getD 0 + δ } { r with num := none, owes := r.owes - δ }
  | zeroNum : CounterStep c r .zeroNum { c with numAdditional := 0 } { r with closing := false }

theorem actives_update (c : Shared) (i : Fin maxSeConnections) (f : TcpSock → TcpSock) :
    (c.update i f).actives = Function.update c.actives i (f (c.additional i)).active := by
  funext j
  exact Function.apply_update (fun _ => TcpSock.active) c.additional i (f (c.additional i)) j

theorem actives_update_of_eq (c : Shared) (i : Fin maxSeConnections) {f : TcpSock → TcpSock}
    (h : (f (c.additional i)).active = (c.additional i).active) :
    (c.update i f).actives = c.actives := by
  rw [actives_update, h]
  exact Function.update_eq_self i c.actives

theorem actives_clearCtxOf (c : Shared) (s : SockId) : (c.clearCtxOf s).actives = c.actives := by
  cases s with
  | none => rfl
  | some i => exact actives_update_of_eq c i (f := fun s => { s with sslCtx := none }) rfl

theorem actives_clearFdOf (c : Shared) (s : SockId) : (c.clearFdOf s).actives = c.actives := by
  cases s with
  | none => rfl
  | some i => exact actives_update_of_eq c i (f := fun s => { s with fd := false }) rfl

theorem perform_counter (h : perform me c r a = some (c', r')) : CounterStep c r a c' r' := by
  cases a with
  | clearActive i =>
    cases h
    exact .clearActive i (actives_update c i _) rfl
  | storeActive i =>
    cases h
    exact .storeActive i (actives_update c i _) rfl
  | closeActive i =>
    cases h
    exact .closeActive i rfl
  | loadNum =>
    cases h
    exact .loadNum
  | storeNum δ =>
    cases h
    exact .storeNum δ
  | zeroNum =>
    cases h
    exact .zeroNum
  | lockWrite | lockConnect | readLock | writeLock | join =>
    simp only [perform] at h
    split_ifs at h
    cases h
    exact .other ⟨rfl, rfl, rfl, rfl, rfl⟩ fun d => rfl
  | claim s =>
    simp only [perform] at h
    split_ifs at h
    · cases h
      cases s <;> exact .other ⟨(actives_clearCtxOf c _), rfl, rfl, rfl, rfl⟩ fun d => rfl
    · cases h
      exact .other ⟨rfl, rfl, rfl, rfl, rfl⟩ fun d => rfl
  | clearFd s =>
    cases h
    cases s <;> exact .other ⟨(actives_clearFdOf c _), rfl, rfl, rfl, rfl⟩ fun d => rfl
  | clearSsl i | storeFd i | storeCtx i | storeSsl i =>
    cases h
    exact .other ⟨(actives_update_of_eq c i rfl), rfl, rfl, rfl, rfl⟩ fun d => rfl
  | storeDirection i sends receives =>
    cases h
    exact .other ⟨(actives_update_of_eq c i rfl), rfl, rfl, rfl, rfl⟩ fun d => rfl
  | use s =>
    cases h
    have hview : (c.useCtx (r.captured s)).actives = c.actives ∧
        (c.useCtx (r.captured s)).numAdditional = c.numAdditional := by
      cases r.captured s with
      | none => exact ⟨rfl, rfl⟩
      | some p =>
        simp only [Shared.useCtx]
        split_ifs
        · exact ⟨rfl, rfl⟩
        · exact ⟨rfl, rfl⟩
    exact .other ⟨hview.1, hview.2, rfl, rfl, rfl⟩ fun d => rfl
  | destroy =>
    cases h
    cases hdoomed : r.doomed <;> exact .other ⟨rfl, rfl, rfl, rfl, rfl⟩ fun d => rfl
  | destroyFresh =>
    cases h
    cases hfresh : r.fresh <;> exact .other ⟨rfl, rfl, rfl, rfl, rfl⟩ fun d => rfl
  | unlockWrite | unlockConnect | readUnlock | writeUnlock | capture | forget | loadCtx
  | clearCtx | setState | setConnecting | clearConnecting | launch | create =>
    cases h
    exact .other ⟨rfl, rfl, rfl, rfl, rfl⟩ fun d => rfl

/-- The locals keep track of what the program owes. -/
theorem perform_duty (h : CounterStep c r a c' r') {next : Program}
    (hsettles : Settles (.act a next) r.duty) : Settles next r'.duty := by
  obtain ⟨d, hd, hnext⟩ := hsettles
  cases h with
  | other hquiet hafter =>
    rw [hafter] at hd
    cases hd
    rw [hquiet.duty]
    exact hnext
  | clearActive i =>
    cases hd
    exact hnext
  | storeActive i =>
    cases hd
    exact hnext
  | closeActive i =>
    cases hd
    exact hnext
  | loadNum =>
    cases hd
    exact hnext
  | storeNum δ =>
    simp only [Duty.after] at hd
    split_ifs at hd
    cases hd
    exact hnext
  | zeroNum =>
    simp only [Duty.after] at hd
    split_ifs at hd
    cases hd
    exact hnext

end Step

/-! ## The counter in every run -/

theorem activeCount_clear {c c' : Shared} {i : Fin maxSeConnections}
    (h : c'.actives = Function.update c.actives i false) (hi : c.actives i = true) :
    c'.activeCount + 1 = c.activeCount := by
  have herase : (Finset.univ.filter fun j => c'.actives j = true) =
      (Finset.univ.filter fun j => c.actives j = true).erase i := by
    ext j
    by_cases hij : j = i
    · simp [h, hij]
    · simp [h, hij]
  rw [Shared.activeCount, Shared.activeCount, herase]
  exact Finset.card_erase_add_one (by simp [hi])

theorem activeCount_store {c c' : Shared} {i : Fin maxSeConnections}
    (h : c'.actives = Function.update c.actives i true) (hi : c.actives i = false) :
    c'.activeCount = c.activeCount + 1 := by
  have hback : c.actives = Function.update c'.actives i false := by
    rw [h, Function.update_idem, ← hi, Function.update_eq_self]
  have hi' : c'.actives i = true := by
    rw [h, Function.update_self]
  exact (activeCount_clear hback hi').symm

/-- The counter and what the calls in progress owe it make up the number of active sockets, unless
a call is about to set it to zero. -/
structure Exact (p : Threads) : Prop where
  settles : ∀ j t, p.At j t → Settles t.prog t.regs.duty
  loaded : ∀ j t, p.At j t → ∀ v, t.regs.num = some v → v = p.shared.numAdditional
  alone : ∀ j t, p.At j t → ∀ j' t', p.At j' t' → t.regs.num ≠ none → t'.regs.num ≠ none → j = j'
  count : (∀ j t, p.At j t → t.regs.closing = false) →
    p.shared.numAdditional + p.total (fun t => t.regs.owes) = p.shared.activeCount

theorem exact_start (sends receives : Bool) (maxConnection : ℤ) (n : ℕ) :
    Exact (start sends receives maxConnection n) where
  settles j t ht := by
    rw [start_at ht]
    rfl
  loaded j t ht v hv := by
    rw [start_at ht] at hv
    cases hv
  alone j t ht j' t' ht' hnum := by
    rw [start_at ht] at hnum
    exact absurd rfl hnum
  count _ := by
    rw [Pool.total_eq_zero]
    · rfl
    · intro i t ht
      rw [start_at ht]
      rfl

section Moves

variable {tls : Bool} {p : Threads} {i : ℕ} {t t' : Running Regs Act Test} {c' : Shared}
  {os : List Call}

theorem Exact.others_unloaded (h : Exact p) (hat : p.At i t) (hnum : t.regs.num ≠ none) :
    ∀ j u, p.At j u → j ≠ i → u.regs.num = none := by
  intro j u hu hij
  by_contra hloaded
  exact hij (h.alone j u hu i t hat hloaded hnum)

/-- What a move has to bring along for the counter to stay exact. -/
theorem Exact.moved (h : Exact p) (hsettles : Settles t'.prog t'.regs.duty)
    (hothers : ∀ j u, p.At j u → j ≠ i → ∀ v, u.regs.num = some v → v = c'.numAdditional)
    (hown : ∀ v, t'.regs.num = some v → v = c'.numAdditional)
    (halone : t'.regs.num ≠ none → ∀ j u, p.At j u → j ≠ i → u.regs.num = none)
    (hcount : (∀ j u, ((session tls).moved p i c' t' os).At j u → u.regs.closing = false) →
      c'.numAdditional + ((session tls).moved p i c' t' os).total (fun t => t.regs.owes) =
        c'.activeCount) :
    Exact ((session tls).moved p i c' t' os) where
  settles := by
    apply Machine.forall_moved
    · intro j u hu _
      exact h.settles j u hu
    · exact hsettles
    · intro j o
      exact session_settles tls o
  loaded := by
    apply Machine.forall_moved
    · exact hothers
    · exact hown
    · intro j o v hv
      cases hv
  alone := by
    apply Machine.forall_moved
    · intro j u hu hij
      apply Machine.forall_moved
      · intro j' u' hu' _
        exact h.alone j u hu j' u' hu'
      · intro hnum hnum'
        exact absurd (halone hnum' j u hu hij) hnum
      · intro j' o _ hnum'
        exact absurd rfl hnum'
    · apply Machine.forall_moved
      · intro j' u' hu' hij' hnum hnum'
        exact absurd (halone hnum j' u' hu' hij') hnum'
      · intro _ _
        rfl
      · intro j' o _ hnum'
        exact absurd rfl hnum'
    · intro j o j' u' _ hnum
      exact absurd rfl hnum
  count := hcount

theorem closing_of_moved (hclosing : t.regs.closing = false) (hat : p.At i t)
    (h : ∀ j u, ((session tls).moved p i c' t' os).At j u → u.regs.closing = false) :
    ∀ j u, p.At j u → u.regs.closing = false := by
  intro j u hu
  by_cases hij : j = i
  · subst hij
    rw [hu.unique hat]
    exact hclosing
  · exact h j u (Machine.moved_other hu hij)

/-- A move of a thread that stays open adds to the debt what it adds to the thread's own. -/
theorem Exact.count_moved (h : Exact p) (hat : p.At i t)
    (hall : ∀ j u, ((session tls).moved p i c' t' os).At j u → u.regs.closing = false)
    (hclosing : t'.regs.closing = t.regs.closing) :
    ((session tls).moved p i c' t' os).total (fun t => t.regs.owes) =
      p.shared.activeCount - p.shared.numAdditional + (t'.regs.owes - t.regs.owes) := by
  have hopen : t.regs.closing = false := by
    rw [← hclosing]
    exact hall i t' (Machine.moved_self hat)
  have hbefore := h.count (closing_of_moved hopen hat hall)
  rw [Machine.total_moved hat (fun _ => rfl)]
  linarith

/-- A move that leaves the counter alone, with the flags and the debt in step. -/
theorem Exact.moved_counter (h : Exact p) (hat : p.At i t) (hsettles : Settles t'.prog t'.regs.duty)
    (hcounter : c'.numAdditional = p.shared.numAdditional) (hnum : t'.regs.num = t.regs.num)
    (hclosing : t'.regs.closing = t.regs.closing)
    (hcount : (c'.activeCount : ℤ) - t'.regs.owes = p.shared.activeCount - t.regs.owes) :
    Exact ((session tls).moved p i c' t' os) := by
  apply h.moved hsettles
  · intro j u hu _ v hv
    rw [hcounter]
    exact h.loaded j u hu v hv
  · intro v hv
    rw [hcounter]
    exact h.loaded i t hat v (hnum ▸ hv)
  · intro hloaded
    exact h.others_unloaded hat (hnum ▸ hloaded)
  · intro hall
    rw [h.count_moved hat hall hclosing, hcounter]
    linarith

/-- The loaded value is the counter's, and no other thread has loaded it. -/
theorem Exact.storeNum {next : Program} {r : Regs} {δ : ℤ} (h : Exact p)
    (hat : p.At i ⟨.act (.storeNum δ) next, r⟩)
    (hsettles : Settles next { r with num := none, owes := r.owes - δ }.duty) :
    Exact ((session tls).moved p i { p.shared with numAdditional := r.num.getD 0 + δ }
      ⟨next, { r with num := none, owes := r.owes - δ }⟩ os) := by
  obtain ⟨d, hduty, -⟩ := h.settles i _ hat
  have hloaded : r.duty.loaded = true := by
    simp only [Duty.after] at hduty
    split_ifs at hduty with hloaded
    exact hloaded
  obtain ⟨v, hv⟩ := Option.isSome_iff_exists.mp hloaded
  have hread : v = p.shared.numAdditional := h.loaded i _ hat v hv
  have hunloaded := h.others_unloaded hat (by simp [hv])
  apply h.moved hsettles
  · intro j u hu hij w hw
    rw [hunloaded j u hu hij] at hw
    cases hw
  · intro w hw
    cases hw
  · intro hnone
    exact absurd rfl hnone
  · intro hall
    rw [h.count_moved hat hall rfl, hv, hread]
    change p.shared.numAdditional + δ + (_ + (r.owes - δ - r.owes)) = p.shared.activeCount
    linarith

/-- No slot is active and no thread has a debt when the counter is set to zero. -/
theorem Exact.zeroNum {next : Program} {r : Regs} (h : Exact p)
    (hat : p.At i ⟨.act .zeroNum next, r⟩) (hclean : CounterOk p i .zeroNum)
    (hsettles : Settles next { r with closing := false }.duty) :
    Exact ((session tls).moved p i { p.shared with numAdditional := 0 }
      ⟨next, { r with closing := false }⟩ os) := by
  obtain ⟨d, hduty, -⟩ := h.settles i _ hat
  have hsettled : r.owes = 0 ∧ r.num.isSome = false := by
    simp only [Duty.after] at hduty
    split_ifs at hduty with hsettled
    exact hsettled
  have hnum : r.num = none := by
    rw [← Option.not_isSome_iff_eq_none, hsettled.2]
    decide
  apply h.moved hsettles
  · intro j u hu hij v hv
    rw [(hclean.2 j u hu hij).1] at hv
    cases hv
  · intro v hv
    rw [hnum] at hv
    cases hv
  · intro hloaded
    exact absurd hnum hloaded
  · intro _
    have howes : ((session tls).moved p i { p.shared with numAdditional := 0 }
        ⟨next, { r with closing := false }⟩ os).total (fun t => t.regs.owes) = 0 := by
      apply Pool.total_eq_zero
      apply Machine.forall_moved
      · intro j u hu hij
        exact (hclean.2 j u hu hij).2
      · exact hsettled.1
      · intro j o
        rfl
    have hcount : Shared.activeCount { p.shared with numAdditional := 0 } = 0 := by
      apply Finset.card_eq_zero.mpr
      apply Finset.filter_eq_empty_iff.mpr
      intro k _
      rw [show Shared.actives { p.shared with numAdditional := 0 } k = false from hclean.1 k]
      decide
    rw [howes, hcount]
    rfl

theorem Exact.perform {a : Act} {next : Program} {r r' : Regs} (h : Exact p)
    (hat : p.At i ⟨.act a next, r⟩) (hstep : CounterStep p.shared r a c' r')
    (hclean : CounterOk p i a) : Exact ((session tls).moved p i c' ⟨next, r'⟩ os) := by
  have hsettles := perform_duty hstep (h.settles i _ hat)
  cases hstep with
  | other hquiet hafter =>
    apply h.moved_counter hat hsettles hquiet.counter hquiet.num hquiet.closing
    rw [Shared.activeCount, Shared.activeCount, hquiet.actives]
    change _ - r'.owes = _ - r.owes
    rw [hquiet.owes]
  | clearActive k hactives hnum =>
    apply h.moved_counter hat
    · exact hsettles
    · exact hnum
    · rfl
    · rfl
    · have hactive := activeCount_clear hactives hclean
      change (c'.activeCount : ℤ) - (r.owes - 1) = p.shared.activeCount - r.owes
      omega
  | storeActive k hactives hnum =>
    apply h.moved_counter hat
    · exact hsettles
    · exact hnum
    · rfl
    · rfl
    · have hactive := activeCount_store hactives hclean
      change (c'.activeCount : ℤ) - (r.owes + 1) = p.shared.activeCount - r.owes
      omega
  | closeActive k hnum =>
    apply h.moved hsettles
    · intro j u hu _ v hv
      rw [hnum]
      exact h.loaded j u hu v hv
    · intro v hv
      rw [hnum]
      exact h.loaded i _ hat v hv
    · intro hloaded
      exact h.others_unloaded hat (show r.num ≠ none from hloaded)
    · intro hall
      cases hall i _ (Machine.moved_self hat)
  | loadNum =>
    apply h.moved hsettles
    · intro j u hu _
      exact h.loaded j u hu
    · intro v hv
      exact (Option.some.inj hv).symm
    · intro _
      exact hclean
    · intro hall
      rw [h.count_moved hat hall rfl]
      change _ + (_ + (r.owes - r.owes)) = _
      linarith
  | storeNum δ => exact h.storeNum hat hsettles
  | zeroNum => exact h.zeroNum hat hclean hsettles

theorem Exact.step {q : Threads} {s : ℕ × Move Call} (h : Exact p) (hclean : CounterClean p s)
    (hstep : (session tls).step p s = some q) : Exact q := by
  obtain ⟨t, c', t', os, hat, hmove, rfl⟩ := Machine.step_cases hstep
  have hsettles := h.settles _ t hat
  cases hmove with
  | call o r =>
    have hduty : r.duty = Duty.none := hsettles
    have hnum : r.num = none := by
      have hloaded : r.num.isSome = false := congrArg Duty.loaded hduty
      exact Option.isNone_iff_eq_none.mp (by rw [← Option.not_isSome, hloaded]; rfl)
    have howes : r.owes = 0 := congrArg Duty.owes hduty
    have hclosing : r.closing = false := congrArg Duty.closing hduty
    apply h.moved_counter hat (session_settles tls o) rfl hnum.symm hclosing.symm
    change (p.shared.activeCount : ℤ) - 0 = p.shared.activeCount - r.owes
    rw [howes]
  | yes htest => exact h.moved_counter hat hsettles.1 rfl rfl rfl rfl
  | no htest => exact h.moved_counter hat hsettles.2 rfl rfl rfl rfl
  | act hperform => exact h.perform hat (perform_counter hperform) (hclean _ hat _ rfl)

end Moves

/-- In a run whose steps all meet the condition, the counter is exact whenever no call is in
progress. -/
theorem numAdditional_exact (tls sends receives : Bool) (maxConnection : ℤ) (n : ℕ)
    (run : List (ℕ × Move Call)) (q : Threads)
    (hrun : exec (session tls).step (start sends receives maxConnection n) run = some q)
    (hclean : Along (session tls).step CounterClean (start sends receives maxConnection n) run)
    (hidle : ∀ j t, q.At j t → t.Idle) :
    q.shared.numAdditional = q.shared.activeCount ∧ 0 ≤ q.shared.numAdditional ∧
      q.shared.numAdditional ≤ maxSeConnections := by
  have hexact : Exact q :=
    exec_invariant_along (fun _ _ _ h hclean hstep => h.step hclean hstep)
      (exact_start sends receives maxConnection n) hclean hrun
  have hduty : ∀ j t, q.At j t → t.regs.duty = Duty.none := by
    intro j t ht
    have hsettles := hexact.settles j t ht
    rw [hidle j t ht] at hsettles
    exact hsettles
  have hcount := hexact.count fun j t ht => congrArg Duty.closing (hduty j t ht)
  have howes : q.total (fun t => t.regs.owes) = 0 :=
    Pool.total_eq_zero fun j t ht => congrArg Duty.owes (hduty j t ht)
  rw [howes, add_zero] at hcount
  have hle : q.shared.activeCount ≤ maxSeConnections := by
    have hcard := Finset.card_le_univ (Finset.univ.filter fun i => q.shared.actives i = true)
    rwa [Fintype.card_fin] at hcard
  refine ⟨hcount, ?_, ?_⟩
  · omega
  · omega

/-- The receive thread opens an additional socket and closes it after a failed read. -/
def openAndClose : List (ℕ × Move Call) := openSocket ++ validateSocket ++ failRead

theorem numAdditional_exact_openAndClose :
    ∃ q, exec (session true).step (start true true 2 2) openAndClose = some q ∧
      Along (session true).step CounterClean (start true true 2 2) openAndClose ∧
        q.shared.destroyed = [1] ∧ q.shared.numAdditional = q.shared.activeCount := by
  have hrun : ∃ q ∈ exec (session true).step (start true true 2 2) openAndClose,
      (∀ j t, q.At j t → t.Idle) ∧ q.shared.destroyed = [1] := by
    decide +kernel
  have hclean : Along (session true).step CounterClean (start true true 2 2) openAndClose := by
    decide +kernel
  obtain ⟨q, hq, hidle, hdestroyed⟩ := hrun
  exact ⟨q, hq, hclean, hdestroyed,
    (numAdditional_exact true true true 2 2 openAndClose q hq hclean hidle).1⟩

/-- Two retirements of one socket take the counter down twice. -/
theorem numAdditional_negative :
    ∃ q, exec (session true).step (start true true 2 2) failoverRace = some q ∧
      (∀ j t, q.At j t → t.Idle) ∧ q.shared.activeCount = 0 ∧ q.shared.numAdditional = -1 := by
  have hrun : ∃ q ∈ exec (session true).step (start true true 2 2) failoverRace,
      (∀ j t, q.At j t → t.Idle) ∧ q.shared.activeCount = 0 ∧ q.shared.numAdditional = -1 := by
    decide +kernel
  exact hrun

end SoftEtherVpn.Multi

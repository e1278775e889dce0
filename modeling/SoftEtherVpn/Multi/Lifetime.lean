import SoftEtherVpn.Multi.Session

/-!
# The lifetime of the TLS contexts

A context is destroyed by the thread that takes it out of its slot, so it is destroyed once
in every run. A thread may still hold a pointer to it. No context is used after its
destruction in the runs in which, at every destruction, no field names the context and no thread
goes on to use a pointer to it that it has read before.
-/

namespace SoftEtherVpn.Multi

open Foundation
open Packet (maxSeConnections SockId)

/-! ## Each context is in one place -/

inductive Place
  | slot (s : SockId)
  | doomed (i : ℕ)
  | fresh (i : ℕ)
  | gone

def Holds (p : Threads) (x : ℕ) : Place → Prop
  | .slot s => p.shared.ctxOf s = some x
  | .doomed i => ∃ t, p.At i t ∧ t.regs.doomed = some x
  | .fresh i => ∃ t, p.At i t ∧ t.regs.fresh = some x
  | .gone => x ∈ p.shared.destroyed

structure Single (p : Threads) : Prop where
  place : ∀ x pl pl', Holds p x pl → Holds p x pl' → pl = pl'
  born : ∀ x pl, Holds p x pl → x < p.shared.created
  once : p.shared.destroyed.Nodup

inductive OwnStep (c : Shared) (r : Regs) : Act → Shared → Regs → Prop
  | other {a : Act} {c' : Shared} {r' : Regs} (hctx : c'.ctxOf = c.ctxOf)
      (hdestroyed : c'.destroyed = c.destroyed) (hcreated : c'.created = c.created)
      (hdoomed : r'.doomed = r.doomed ∨ r'.doomed = none) (hfresh : r'.fresh = r.fresh) :
      OwnStep c r a c' r'
  | claim {x : ℕ} {s : SockId} {c' : Shared} {r' : Regs} (hx : c.ctxOf s = some x)
      (hctx : c'.ctxOf = Function.update c.ctxOf s none) (hdestroyed : c'.destroyed = c.destroyed)
      (hcreated : c'.created = c.created) (hdoomed : r'.doomed = some x)
      (hfresh : r'.fresh = r.fresh) : OwnStep c r (.claim s) c' r'
  | destroy {x : ℕ} (hx : r.doomed = some x) :
      OwnStep c r .destroy { c with destroyed := x :: c.destroyed } { r with doomed := none }
  | destroyFresh {x : ℕ} (hx : r.fresh = some x) :
      OwnStep c r .destroyFresh { c with destroyed := x :: c.destroyed } { r with fresh := none }
  | create {i : Fin maxSeConnections} {r' : Regs} (hdoomed : r'.doomed = r.doomed)
      (hfresh : r'.fresh = some c.created) :
      OwnStep c r (.create i) { c with created := c.created + 1 } r'
  | storeCtx {i : Fin maxSeConnections} {c' : Shared}
      (hctx : c'.ctxOf = Function.update c.ctxOf (some i) r.fresh)
      (hdestroyed : c'.destroyed = c.destroyed) (hcreated : c'.created = c.created) :
      OwnStep c r (.storeCtx i) c' { r with fresh := none }

section Step

variable {c c' : Shared} {r r' : Regs} {a : Act} {me : ℕ}

theorem ctxOf_update (c : Shared) (i : Fin maxSeConnections) (f : TcpSock → TcpSock) :
    (c.update i f).ctxOf = Function.update c.ctxOf (some i) (f (c.additional i)).sslCtx :=
  Shared.update_field TcpSock.sslCtx c i f rfl (fun _ => rfl) fun _ => rfl

theorem ctxOf_update_of_eq (c : Shared) (i : Fin maxSeConnections) {f : TcpSock → TcpSock}
    (h : (f (c.additional i)).sslCtx = (c.additional i).sslCtx) :
    (c.update i f).ctxOf = c.ctxOf := by
  rw [ctxOf_update, h]
  exact Function.update_eq_self (some i) c.ctxOf

theorem ctxOf_clearCtxOf (c : Shared) (s : SockId) :
    (c.clearCtxOf s).ctxOf = Function.update c.ctxOf s none := by
  cases s with
  | none =>
    funext s'
    cases s' with
    | none => rfl
    | some j => rfl
  | some i => exact ctxOf_update c i (fun s => { s with sslCtx := none })

theorem ctxOf_clearFdOf (c : Shared) (s : SockId) : (c.clearFdOf s).ctxOf = c.ctxOf := by
  cases s with
  | none => rfl
  | some i => exact ctxOf_update_of_eq c i (f := fun s => { s with fd := false }) rfl

theorem perform_own (h : perform me c r a = some (c', r')) : OwnStep c r a c' r' := by
  cases a with
  | claim s =>
    simp only [perform] at h
    split_ifs at h with hsame
    · cases h
      obtain ⟨x, hx⟩ := Option.ne_none_iff_exists'.mp hsame.1
      refine .claim (hsame.2.trans hx) (ctxOf_clearCtxOf c s) ?_ ?_ hx rfl
      · cases s <;> rfl
      · cases s <;> rfl
    · cases h
      exact .other rfl rfl rfl (.inr rfl) rfl
  | destroy =>
    cases h
    cases hx : r.doomed with
    | none => exact .other rfl rfl rfl (.inr rfl) rfl
    | some x => exact .destroy hx
  | destroyFresh =>
    cases h
    cases hx : r.fresh with
    | none => exact .other rfl rfl rfl (.inl rfl) hx.symm
    | some x => exact .destroyFresh hx
  | create i =>
    cases h
    exact .create rfl rfl
  | storeCtx i =>
    cases h
    exact .storeCtx (ctxOf_update c i _) rfl rfl
  | lockWrite | lockConnect | readLock | writeLock | join =>
    simp only [perform] at h
    split_ifs at h
    cases h
    exact .other rfl rfl rfl (.inl rfl) rfl
  | clearFd s =>
    cases h
    cases s <;> exact .other (ctxOf_clearFdOf c _) rfl rfl (.inl rfl) rfl
  | clearSsl i | storeFd i | storeSsl i | clearActive i | closeActive i | storeActive i =>
    cases h
    exact .other (ctxOf_update_of_eq c i rfl) rfl rfl (.inl rfl) rfl
  | storeDirection i sends receives =>
    cases h
    exact .other (ctxOf_update_of_eq c i rfl) rfl rfl (.inl rfl) rfl
  | use s =>
    cases h
    cases r.captured s with
    | none => exact .other rfl rfl rfl (.inl rfl) rfl
    | some x =>
      simp only [Shared.useCtx]
      split_ifs
      · exact .other rfl rfl rfl (.inl rfl) rfl
      · exact .other rfl rfl rfl (.inl rfl) rfl
  | unlockWrite | unlockConnect | readUnlock | writeUnlock | capture | forget | loadCtx
  | clearCtx | setState | setConnecting | clearConnecting | launch | loadNum | storeNum
  | zeroNum =>
    cases h
    exact .other rfl rfl rfl (.inl rfl) rfl

end Step

section Moves

variable {tls : Bool} {p : Threads} {i : ℕ} {t t' : Running Regs Act Test} {c' : Shared}
  {os : List Call}

/-- Who holds a context after thread `i` has gone on with the locals `r`. -/
def HoldsAfter (p : Threads) (i : ℕ) (c : Shared) (r : Regs) (x : ℕ) : Place → Prop
  | .slot s => c.ctxOf s = some x
  | .doomed j => (j ≠ i ∧ Holds p x (.doomed j)) ∨ (j = i ∧ r.doomed = some x)
  | .fresh j => (j ≠ i ∧ Holds p x (.fresh j)) ∨ (j = i ∧ r.fresh = some x)
  | .gone => x ∈ c.destroyed

theorem holds_moved {x : ℕ} {pl : Place} (h : Holds ((session tls).moved p i c' t' os) x pl) :
    HoldsAfter p i c' t'.regs x pl := by
  cases pl with
  | slot s => exact h
  | gone => exact h
  | doomed j =>
    obtain ⟨u, hu, hx⟩ := h
    revert hx
    apply Machine.forall_moved (P := fun j u => u.regs.doomed = some x →
      (j ≠ i ∧ Holds p x (.doomed j)) ∨ (j = i ∧ t'.regs.doomed = some x)) _ _ _ j u hu
    · intro j u hu hij hx
      exact .inl ⟨hij, u, hu, hx⟩
    · intro hx
      exact .inr ⟨rfl, hx⟩
    · intro j o hx
      cases hx
  | fresh j =>
    obtain ⟨u, hu, hx⟩ := h
    revert hx
    apply Machine.forall_moved (P := fun j u => u.regs.fresh = some x →
      (j ≠ i ∧ Holds p x (.fresh j)) ∨ (j = i ∧ t'.regs.fresh = some x)) _ _ _ j u hu
    · intro j u hu hij hx
      exact .inl ⟨hij, u, hu, hx⟩
    · intro hx
      exact .inr ⟨rfl, hx⟩
    · intro j o hx
      cases hx

/-- Nothing changes hands. -/
theorem Single.keep {q : Threads} (h : Single p) (hholds : ∀ x pl, Holds q x pl → Holds p x pl)
    (hcreated : q.shared.created = p.shared.created)
    (hdestroyed : q.shared.destroyed = p.shared.destroyed) : Single q where
  place x pl pl' hpl hpl' := h.place x pl pl' (hholds x pl hpl) (hholds x pl' hpl')
  born x pl hpl := by
    rw [hcreated]
    exact h.born x pl (hholds x pl hpl)
  once := by
    rw [hdestroyed]
    exact h.once

/-- One context changes hands. -/
theorem Single.reassign {q : Threads} (h : Single p) (y : ℕ) (target : Place)
    (hmove : ∀ x pl, Holds q x pl → Holds p x pl ∨ (x = y ∧ pl = target))
    (hleft : ∀ pl, Holds q y pl → Holds p y pl → pl = target)
    (hcreated : p.shared.created ≤ q.shared.created) (hy : y < q.shared.created)
    (honce : q.shared.destroyed.Nodup) : Single q where
  place x pl pl' hpl hpl' := by
    have hat : ∀ pl, Holds q y pl → pl = target := by
      intro pl hpl
      rcases hmove y pl hpl with hp | ⟨-, hp⟩
      · exact hleft pl hpl hp
      · exact hp
    by_cases hxy : x = y
    · rw [hxy] at hpl hpl'
      rw [hat pl hpl, hat pl' hpl']
    · have hstay : ∀ pl, Holds q x pl → Holds p x pl := fun pl hpl =>
        (hmove x pl hpl).resolve_right fun hmoved => hxy hmoved.1
      exact h.place x pl pl' (hstay pl hpl) (hstay pl' hpl')
  born x pl hpl := by
    rcases hmove x pl hpl with hp | ⟨rfl, -⟩
    · exact (h.born x pl hp).trans_le hcreated
    · exact hy
  once := honce

theorem Single.other (h : Single p) (hat : p.At i t) (hctx : c'.ctxOf = p.shared.ctxOf)
    (hdestroyed : c'.destroyed = p.shared.destroyed) (hcreated : c'.created = p.shared.created)
    (hdoomed : t'.regs.doomed = t.regs.doomed ∨ t'.regs.doomed = none)
    (hfresh : t'.regs.fresh = t.regs.fresh ∨ t'.regs.fresh = none) :
    Single ((session tls).moved p i c' t' os) := by
  apply h.keep
  · intro x pl hpl
    replace hpl := holds_moved hpl
    cases pl with
    | slot s =>
      rw [HoldsAfter, hctx] at hpl
      exact hpl
    | gone =>
      rw [HoldsAfter, hdestroyed] at hpl
      exact hpl
    | doomed j =>
      rcases hpl with ⟨-, hpl⟩ | ⟨rfl, hpl⟩
      · exact hpl
      · rcases hdoomed with hdoomed | hdoomed
        · exact ⟨_, hat, hdoomed.symm.trans hpl⟩
        · cases hdoomed.symm.trans hpl
    | fresh j =>
      rcases hpl with ⟨-, hpl⟩ | ⟨rfl, hpl⟩
      · exact hpl
      · rcases hfresh with hfresh | hfresh
        · exact ⟨_, hat, hfresh.symm.trans hpl⟩
        · cases hfresh.symm.trans hpl
  · exact hcreated
  · exact hdestroyed

theorem Single.claim {a : Act} {next : Program} {r r' : Regs} {x : ℕ} {s : SockId} (h : Single p)
    (hat : p.At i ⟨.act a next, r⟩) (hx : p.shared.ctxOf s = some x)
    (hctx : c'.ctxOf = Function.update p.shared.ctxOf s none)
    (hdestroyed : c'.destroyed = p.shared.destroyed) (hcreated : c'.created = p.shared.created)
    (hdoomed : r'.doomed = some x) (hfresh : r'.fresh = r.fresh) :
    Single ((session tls).moved p i c' ⟨next, r'⟩ os) := by
  have hslot : Holds p x (.slot s) := hx
  apply h.reassign x (.doomed i)
  · intro y pl hpl
    replace hpl := holds_moved hpl
    cases pl with
    | slot s' =>
      rw [HoldsAfter, hctx] at hpl
      by_cases hs : s' = s
      · rw [hs, Function.update_self] at hpl
        cases hpl
      · rw [Function.update_of_ne hs] at hpl
        exact .inl hpl
    | gone =>
      rw [HoldsAfter, hdestroyed] at hpl
      exact .inl hpl
    | doomed j =>
      rcases hpl with ⟨-, hpl⟩ | ⟨rfl, hpl⟩
      · exact .inl hpl
      · exact .inr ⟨Option.some.inj (hpl.symm.trans hdoomed), rfl⟩
    | fresh j =>
      rcases hpl with ⟨-, hpl⟩ | ⟨rfl, hpl⟩
      · exact .inl hpl
      · exact .inl ⟨_, hat, hfresh.symm.trans hpl⟩
  · intro pl hpl hbefore
    obtain rfl := h.place x pl (.slot s) hbefore hslot
    replace hpl := holds_moved hpl
    rw [HoldsAfter, hctx, Function.update_self] at hpl
    cases hpl
  · exact hcreated.ge
  · exact (h.born x _ hslot).trans_eq hcreated.symm
  · exact hdestroyed ▸ h.once

/-- Destroying a context that the thread holds. -/
theorem Single.destroyed {a : Act} {next : Program} {r r' : Regs} {x : ℕ} {place : Place}
    (h : Single p) (hat : p.At i ⟨.act a next, r⟩) (hplace : Holds p x place)
    (hfrom : place = .doomed i ∧ r'.doomed = none ∧ r'.fresh = r.fresh ∨
      place = .fresh i ∧ r'.fresh = none ∧ r'.doomed = r.doomed) :
    Single ((session tls).moved p i { p.shared with destroyed := x :: p.shared.destroyed }
      ⟨next, r'⟩ os) := by
  have hdoomed : ∀ y, r'.doomed = some y → r.doomed = some y := by
    intro y hy
    rcases hfrom with ⟨-, hnone, -⟩ | ⟨-, -, hsame⟩
    · cases hnone.symm.trans hy
    · exact hsame.symm.trans hy
  have hfresh : ∀ y, r'.fresh = some y → r.fresh = some y := by
    intro y hy
    rcases hfrom with ⟨-, -, hsame⟩ | ⟨-, hnone, -⟩
    · exact hsame.symm.trans hy
    · cases hnone.symm.trans hy
  apply h.reassign x .gone
  · intro y pl hpl
    replace hpl := holds_moved hpl
    cases pl with
    | slot s => exact .inl hpl
    | gone =>
      rcases List.mem_cons.mp hpl with rfl | hpl
      · exact .inr ⟨rfl, rfl⟩
      · exact .inl hpl
    | doomed j =>
      rcases hpl with ⟨-, hpl⟩ | ⟨rfl, hpl⟩
      · exact .inl hpl
      · exact .inl ⟨_, hat, hdoomed y hpl⟩
    | fresh j =>
      rcases hpl with ⟨-, hpl⟩ | ⟨rfl, hpl⟩
      · exact .inl hpl
      · exact .inl ⟨_, hat, hfresh y hpl⟩
  · intro pl hpl hbefore
    obtain rfl := h.place x pl place hbefore hplace
    replace hpl := holds_moved hpl
    rcases hfrom with ⟨rfl, hnone, -⟩ | ⟨rfl, hnone, -⟩
    · rcases hpl with ⟨hi, -⟩ | ⟨-, hpl⟩
      · exact absurd rfl hi
      · cases hnone.symm.trans hpl
    · rcases hpl with ⟨hi, -⟩ | ⟨-, hpl⟩
      · exact absurd rfl hi
      · cases hnone.symm.trans hpl
  · exact le_rfl
  · exact h.born x place hplace
  · apply List.nodup_cons.mpr
    refine ⟨?_, h.once⟩
    intro hgone
    have hboth := h.place x place .gone hplace hgone
    rcases hfrom with ⟨rfl, -⟩ | ⟨rfl, -⟩
    · cases hboth
    · cases hboth

theorem Single.create {a : Act} {next : Program} {r r' : Regs} (h : Single p)
    (hat : p.At i ⟨.act a next, r⟩) (hdoomed : r'.doomed = r.doomed)
    (hfresh : r'.fresh = some p.shared.created) :
    Single ((session tls).moved p i { p.shared with created := p.shared.created + 1 }
      ⟨next, r'⟩ os) := by
  apply h.reassign p.shared.created (.fresh i)
  · intro y pl hpl
    replace hpl := holds_moved hpl
    cases pl with
    | slot s => exact .inl hpl
    | gone => exact .inl hpl
    | doomed j =>
      rcases hpl with ⟨-, hpl⟩ | ⟨rfl, hpl⟩
      · exact .inl hpl
      · exact .inl ⟨_, hat, hdoomed.symm.trans hpl⟩
    | fresh j =>
      rcases hpl with ⟨-, hpl⟩ | ⟨rfl, hpl⟩
      · exact .inl hpl
      · exact .inr ⟨Option.some.inj (hpl.symm.trans hfresh), rfl⟩
  · intro pl _ hbefore
    exact absurd (h.born _ pl hbefore) (lt_irrefl _)
  · exact Nat.le_succ _
  · exact Nat.lt_succ_self _
  · exact h.once

theorem Single.storeCtx {a : Act} {next : Program} {r : Regs} {k : Fin maxSeConnections}
    (h : Single p) (hat : p.At i ⟨.act a next, r⟩)
    (hctx : c'.ctxOf = Function.update p.shared.ctxOf (some k) r.fresh)
    (hdestroyed : c'.destroyed = p.shared.destroyed) (hcreated : c'.created = p.shared.created) :
    Single ((session tls).moved p i c' ⟨next, { r with fresh := none }⟩ os) := by
  have hheld : ∀ y pl, Holds ((session tls).moved p i c' ⟨next, { r with fresh := none }⟩ os) y pl →
      Holds p y pl ∨ (r.fresh = some y ∧ pl = .slot (some k)) := by
    intro y pl hpl
    replace hpl := holds_moved hpl
    cases pl with
    | slot s =>
      rw [HoldsAfter, hctx] at hpl
      by_cases hs : s = some k
      · rw [hs, Function.update_self] at hpl
        exact .inr ⟨hpl, by rw [hs]⟩
      · rw [Function.update_of_ne hs] at hpl
        exact .inl hpl
    | gone =>
      rw [HoldsAfter, hdestroyed] at hpl
      exact .inl hpl
    | doomed j =>
      rcases hpl with ⟨-, hpl⟩ | ⟨rfl, hpl⟩
      · exact .inl hpl
      · exact .inl ⟨_, hat, hpl⟩
    | fresh j =>
      rcases hpl with ⟨-, hpl⟩ | ⟨rfl, hpl⟩
      · exact .inl hpl
      · cases hpl
  cases hx : r.fresh with
  | none =>
    apply h.keep
    · intro y pl hpl
      apply (hheld y pl hpl).resolve_right
      rintro ⟨hy, -⟩
      cases hx.symm.trans hy
    · exact hcreated
    · exact hdestroyed
  | some x =>
    have hfresh : Holds p x (.fresh i) := ⟨_, hat, hx⟩
    apply h.reassign x (.slot (some k))
    · intro y pl hpl
      rcases hheld y pl hpl with hpl | ⟨hy, hpl⟩
      · exact .inl hpl
      · exact .inr ⟨Option.some.inj (hy.symm.trans hx), hpl⟩
    · intro pl hpl hbefore
      obtain rfl := h.place x pl (.fresh i) hbefore hfresh
      rcases holds_moved hpl with ⟨hi, -⟩ | ⟨-, hpl⟩
      · exact absurd rfl hi
      · cases hpl
    · exact hcreated.ge
    · exact (h.born x _ hfresh).trans_eq hcreated.symm
    · exact hdestroyed ▸ h.once

theorem Single.perform {a : Act} {next : Program} {r r' : Regs} (h : Single p)
    (hat : p.At i ⟨.act a next, r⟩) (hstep : OwnStep p.shared r a c' r') :
    Single ((session tls).moved p i c' ⟨next, r'⟩ os) := by
  cases hstep with
  | other hctx hdestroyed hcreated hdoomed hfresh =>
    exact h.other hat hctx hdestroyed hcreated hdoomed (.inl hfresh)
  | claim hx hctx hdestroyed hcreated hdoomed hfresh =>
    exact h.claim hat hx hctx hdestroyed hcreated hdoomed hfresh
  | @destroy x hx =>
    have hplace : Holds p x (.doomed i) := ⟨_, hat, hx⟩
    exact h.destroyed hat hplace (.inl ⟨rfl, rfl, rfl⟩)
  | @destroyFresh x hx =>
    have hplace : Holds p x (.fresh i) := ⟨_, hat, hx⟩
    exact h.destroyed hat hplace (.inr ⟨rfl, rfl, rfl⟩)
  | create hdoomed hfresh => exact h.create hat hdoomed hfresh
  | storeCtx hctx hdestroyed hcreated => exact h.storeCtx hat hctx hdestroyed hcreated

theorem Single.step {q : Threads} {s : ℕ × Move Call} (h : Single p)
    (hstep : (session tls).step p s = some q) : Single q := by
  obtain ⟨t, c', t', os, hat, hmove, rfl⟩ := Machine.step_cases hstep
  cases hmove with
  | act hperform => exact h.perform hat (perform_own hperform)
  | call o r => exact h.other hat rfl rfl rfl (.inr rfl) (.inr rfl)
  | yes htest => exact h.other hat rfl rfl rfl (.inl rfl) (.inl rfl)
  | no htest => exact h.other hat rfl rfl rfl (.inl rfl) (.inl rfl)

end Moves

theorem single_start (sends receives : Bool) (maxConnection : ℤ) (n : ℕ) :
    Single (start sends receives maxConnection n) := by
  have hholds : ∀ x pl, Holds (start sends receives maxConnection n) x pl →
      x = 0 ∧ pl = .slot none := by
    intro x pl hpl
    cases pl with
    | slot s =>
      cases s with
      | none => exact ⟨(Option.some.inj hpl).symm, rfl⟩
      | some i => cases hpl
    | gone => cases hpl
    | doomed j =>
      obtain ⟨t, ht, hx⟩ := hpl
      rw [start_at ht] at hx
      cases hx
    | fresh j =>
      obtain ⟨t, ht, hx⟩ := hpl
      rw [start_at ht] at hx
      cases hx
  constructor
  · intro x pl pl' hpl hpl'
    rw [(hholds x pl hpl).2, (hholds x pl' hpl').2]
  · intro x pl hpl
    rw [(hholds x pl hpl).1]
    exact Nat.one_pos
  · exact List.nodup_nil

/-! ## Pointers that are still needed -/

def Act.uses (s : SockId) : Act → Bool
  | .use s' => s' = s
  | .storeSsl i => some i = s
  | _ => false

def Act.sets (s : SockId) : Act → Bool
  | .capture s' => s' = s
  | .forget s' => s' = s
  | .create i => some i = s
  | _ => false

def Test.confirms (s : SockId) : Test → Bool
  | .current s' => s' = s
  | _ => false

/-- The rest of the call may use the pointer that it has read from socket `s`, without reading it
again or comparing it with the field. -/
def Program.relies (prog : Program) (s : SockId) : Bool :=
  prog.live (Act.uses s) (Act.sets s) (Test.confirms s)

/-- No field names the context, and no thread relies on a pointer to it. -/
def Unneeded (p : Threads) (x : ℕ) : Prop :=
  (∀ s, p.shared.sslOf s ≠ some x) ∧
    ∀ j u, p.At j u → ∀ s, Program.relies u.prog s = true → u.regs.captured s ≠ some x

/-- A thread destroys a context only when it is not needed any more. -/
def DestroyClean (p : Threads) (m : ℕ × Move Call) : Prop :=
  ∀ t, p.At m.1 t → ∀ a ∈ t.prog.head,
    (a = .destroy → ∀ x ∈ t.regs.doomed, Unneeded p x) ∧
      (a = .destroyFresh → ∀ x ∈ t.regs.fresh, Unneeded p x)

instance (p : Threads) (x : ℕ) : Decidable (Unneeded p x) :=
  inferInstanceAs (Decidable ((∀ s, p.shared.sslOf s ≠ some x) ∧
    ∀ j u, p.At j u → ∀ s, Program.relies u.prog s = true → u.regs.captured s ≠ some x))

instance (p : Threads) (m : ℕ × Move Call) : Decidable (DestroyClean p m) :=
  Pool.decidableForallAt p m.1 fun t => ∀ a ∈ t.prog.head,
    (a = .destroy → ∀ x ∈ t.regs.doomed, Unneeded p x) ∧
      (a = .destroyFresh → ∀ x ∈ t.regs.fresh, Unneeded p x)

inductive LifeStep (c : Shared) (r : Regs) : Act → Shared → Regs → Prop
  | other {a : Act} {c' : Shared} {r' : Regs}
      (hssl : ∀ s x, c'.sslOf s = some x → c.sslOf s = some x)
      (hdestroyed : c'.destroyed = c.destroyed) (hstale : c'.stale = c.stale)
      (hcaptured : r'.captured = r.captured) (hsets : ∀ s, a.sets s = false) :
      LifeStep c r a c' r'
  | capture (s : SockId) : LifeStep c r (.capture s) c
      { r with captured := Function.update r.captured s (c.sslOf s) }
  | forget (s : SockId) : LifeStep c r (.forget s) c
      { r with captured := Function.update r.captured s none }
  | use (s : SockId) : LifeStep c r (.use s) (c.useCtx (r.captured s)) r
  | destroy {x : ℕ} (hx : r.doomed = some x) :
      LifeStep c r .destroy { c with destroyed := x :: c.destroyed } { r with doomed := none }
  | destroyFresh {x : ℕ} (hx : r.fresh = some x) :
      LifeStep c r .destroyFresh { c with destroyed := x :: c.destroyed } { r with fresh := none }
  | create (i : Fin maxSeConnections) {r' : Regs}
      (hcaptured : r'.captured = Function.update r.captured (some i) (some c.created)) :
      LifeStep c r (.create i) { c with created := c.created + 1 } r'
  | storeSsl (i : Fin maxSeConnections) {c' : Shared}
      (hssl : c'.sslOf = Function.update c.sslOf (some i) (r.captured (some i)))
      (hdestroyed : c'.destroyed = c.destroyed) (hstale : c'.stale = c.stale) :
      LifeStep c r (.storeSsl i) c' r

section Step

variable {c c' : Shared} {r r' : Regs} {a : Act} {me : ℕ}

theorem sslOf_update (c : Shared) (i : Fin maxSeConnections) (f : TcpSock → TcpSock) :
    (c.update i f).sslOf = Function.update c.sslOf (some i) (f (c.additional i)).ssl :=
  Shared.update_field TcpSock.ssl c i f rfl (fun _ => rfl) fun _ => rfl

theorem sslOf_update_of_eq (c : Shared) (i : Fin maxSeConnections) {f : TcpSock → TcpSock}
    (h : (f (c.additional i)).ssl = (c.additional i).ssl) : (c.update i f).sslOf = c.sslOf := by
  rw [sslOf_update, h]
  exact Function.update_eq_self (some i) c.sslOf

/-- A field that is set to NULL names nothing new. -/
theorem sslOf_clear {s : SockId} (h : c'.sslOf = Function.update c.sslOf s none) (s' : SockId)
    (x : ℕ) (hx : c'.sslOf s' = some x) : c.sslOf s' = some x := by
  rw [h] at hx
  by_cases hs : s' = s
  · rw [hs, Function.update_self] at hx
    cases hx
  · rwa [Function.update_of_ne hs] at hx

theorem sslOf_clearCtxOf (c : Shared) (s s' : SockId) (x : ℕ)
    (hx : (c.clearCtxOf s).sslOf s' = some x) : c.sslOf s' = some x := by
  cases s with
  | none =>
    cases s' with
    | none => cases hx
    | some j => exact hx
  | some i =>
    have hsame : (c.clearCtxOf (some i)).sslOf = c.sslOf :=
      sslOf_update_of_eq c i (f := fun s => { s with sslCtx := none }) rfl
    rwa [hsame] at hx

theorem sslOf_clearFdOf (c : Shared) (s : SockId) : (c.clearFdOf s).sslOf = c.sslOf := by
  cases s with
  | none => rfl
  | some i => exact sslOf_update_of_eq c i (f := fun s => { s with fd := false }) rfl

theorem perform_life (h : perform me c r a = some (c', r')) : LifeStep c r a c' r' := by
  cases a with
  | capture s =>
    cases h
    exact .capture s
  | forget s =>
    cases h
    exact .forget s
  | use s =>
    cases h
    exact .use s
  | create i =>
    cases h
    exact .create i rfl
  | storeSsl i =>
    cases h
    exact .storeSsl i (sslOf_update c i _) rfl rfl
  | destroy =>
    cases h
    cases hx : r.doomed with
    | none => exact .other (fun _ _ h => h) rfl rfl rfl fun _ => rfl
    | some x => exact .destroy hx
  | destroyFresh =>
    cases h
    cases hx : r.fresh with
    | none => exact .other (fun _ _ h => h) rfl rfl rfl fun _ => rfl
    | some x => exact .destroyFresh hx
  | claim s =>
    simp only [perform] at h
    split_ifs at h
    · cases h
      cases s <;> exact .other (sslOf_clearCtxOf c _) rfl rfl rfl fun _ => rfl
    · cases h
      exact .other (fun _ _ h => h) rfl rfl rfl fun _ => rfl
  | clearSsl i =>
    cases h
    exact .other (sslOf_clear (sslOf_update c i _)) rfl rfl rfl fun _ => rfl
  | clearFd s =>
    cases h
    have hsame := sslOf_clearFdOf c s
    cases s <;> exact .other (fun _ _ h => hsame ▸ h) rfl rfl rfl fun _ => rfl
  | storeFd i | storeCtx i | clearActive i | closeActive i | storeActive i =>
    cases h
    refine .other ?_ rfl rfl rfl fun _ => rfl
    rw [sslOf_update_of_eq c i rfl]
    exact fun _ _ h => h
  | storeDirection i sends receives =>
    cases h
    refine .other ?_ rfl rfl rfl fun _ => rfl
    rw [sslOf_update_of_eq c i rfl]
    exact fun _ _ h => h
  | lockWrite | lockConnect | readLock | writeLock | join =>
    simp only [perform] at h
    split_ifs at h
    cases h
    exact .other (fun _ _ h => h) rfl rfl rfl fun _ => rfl
  | unlockWrite | unlockConnect | readUnlock | writeUnlock | loadCtx | clearCtx | setState
  | setConnecting | clearConnecting | launch | loadNum | storeNum | zeroNum =>
    cases h
    exact .other (fun _ _ h => h) rfl rfl rfl fun _ => rfl

end Step

/-- No field and no pointer that is still needed names a destroyed context. -/
structure Alive (p : Threads) : Prop where
  fields : ∀ s x, p.shared.sslOf s = some x → x ∉ p.shared.destroyed
  pointers : ∀ j t, p.At j t → ∀ s x, Program.relies t.prog s = true →
    t.regs.captured s = some x → x ∉ p.shared.destroyed
  stale : p.shared.stale = []

section Moves

variable {tls : Bool} {p : Threads} {i : ℕ} {t t' : Running Regs Act Test} {c' : Shared}
  {os : List Call}

theorem relies_of_next {a : Act} {next : Program} {s : SockId} (hsets : a.sets s = false)
    (h : Program.relies next s = true) : Program.relies (.act a next) s = true := by
  rw [Program.relies] at h ⊢
  rw [Prog.live, h, hsets]
  simp

theorem relies_of_uses {a : Act} {next : Program} {s : SockId} (huses : a.uses s = true) :
    Program.relies (.act a next) s = true := by
  rw [Program.relies, Prog.live, huses]
  rfl

theorem relies_of_yes {q : Test} {yes no : Program} {s : SockId} (hconfirms : q.confirms s = false)
    (h : Program.relies yes s = true) : Program.relies (.test q yes no) s = true := by
  rw [Program.relies] at h ⊢
  rw [Prog.live, h, hconfirms]
  rfl

theorem relies_of_no {q : Test} {yes no : Program} {s : SockId}
    (h : Program.relies no s = true) : Program.relies (.test q yes no) s = true := by
  rw [Program.relies] at h ⊢
  rw [Prog.live, h, Bool.or_true]

/-- A move that destroys nothing. -/
theorem Alive.moved (h : Alive p) (hdestroyed : c'.destroyed = p.shared.destroyed)
    (hfields : ∀ s x, c'.sslOf s = some x → x ∉ p.shared.destroyed)
    (hpointers : ∀ s x, Program.relies t'.prog s = true → t'.regs.captured s = some x →
      x ∉ p.shared.destroyed)
    (hstale : c'.stale = []) : Alive ((session tls).moved p i c' t' os) where
  fields s x hx := by
    change x ∉ c'.destroyed
    rw [hdestroyed]
    exact hfields s x hx
  pointers := by
    change ∀ j u, _ → ∀ s x, _ → _ → x ∉ c'.destroyed
    rw [hdestroyed]
    apply Machine.forall_moved
    · intro j u hu _
      exact h.pointers j u hu
    · exact hpointers
    · intro j o s x _ hx
      cases hx
  stale := hstale

/-- A move that destroys a context which is not needed. -/
theorem Alive.destroyed {a : Act} {next : Program} {r r' : Regs} {x : ℕ} (h : Alive p)
    (hat : p.At i ⟨.act a next, r⟩) (hcaptured : r'.captured = r.captured)
    (hsets : ∀ s, a.sets s = false) (hx : Unneeded p x) :
    Alive ((session tls).moved p i { p.shared with destroyed := x :: p.shared.destroyed }
      ⟨next, r'⟩ os) where
  fields s y hy := by
    apply List.not_mem_cons_of_ne_of_not_mem
    · rintro rfl
      exact hx.1 s hy
    · exact h.fields s y hy
  pointers := by
    have hkeep : ∀ j u, p.At j u → ∀ s y, Program.relies u.prog s = true →
        u.regs.captured s = some y → y ∉ x :: p.shared.destroyed := by
      intro j u hu s y hrelies hy
      apply List.not_mem_cons_of_ne_of_not_mem
      · rintro rfl
        exact hx.2 j u hu s hrelies hy
      · exact h.pointers j u hu s y hrelies hy
    apply Machine.forall_moved
    · intro j u hu _
      exact hkeep j u hu
    · intro s y hrelies hy
      exact hkeep i _ hat s y (relies_of_next (hsets s) hrelies) (hcaptured ▸ hy)
    · intro j o s y _ hy
      cases hy
  stale := h.stale

theorem Alive.perform {a : Act} {next : Program} {r r' : Regs} (h : Alive p) (hsingle : Single p)
    (hat : p.At i ⟨.act a next, r⟩) (hstep : LifeStep p.shared r a c' r')
    (hdoomed : a = .destroy → ∀ x ∈ r.doomed, Unneeded p x)
    (hfresh : a = .destroyFresh → ∀ x ∈ r.fresh, Unneeded p x) :
    Alive ((session tls).moved p i c' ⟨next, r'⟩ os) := by
  have hown : ∀ s x, a.sets s = false → Program.relies next s = true → r.captured s = some x →
      x ∉ p.shared.destroyed := by
    intro s x hsets hrelies
    exact h.pointers i _ hat s x (relies_of_next hsets hrelies)
  cases hstep with
  | other hssl hdestroyed hstale hcaptured hsets =>
    apply h.moved hdestroyed
    · intro s x hx
      exact h.fields s x (hssl s x hx)
    · intro s x hrelies hx
      exact hown s x (hsets s) hrelies (hcaptured ▸ hx)
    · exact hstale.trans h.stale
  | capture s =>
    apply h.moved rfl h.fields
    · intro s' x hrelies hx
      by_cases hs : s' = s
      · rw [hs] at hx
        exact h.fields s x (by simpa using hx)
      · apply hown s' x (by simp [Act.sets, Ne.symm hs]) hrelies
        simpa [hs] using hx
    · exact h.stale
  | forget s =>
    apply h.moved rfl h.fields
    · intro s' x hrelies hx
      by_cases hs : s' = s
      · rw [hs] at hx
        simp at hx
      · apply hown s' x (by simp [Act.sets, Ne.symm hs]) hrelies
        simpa [hs] using hx
    · exact h.stale
  | use s =>
    have hsame : p.shared.useCtx (r.captured s) = p.shared := by
      cases hx : r.captured s with
      | none => rfl
      | some x =>
        have halive := h.pointers i _ hat s x (relies_of_uses (by simp [Act.uses])) hx
        rw [Shared.useCtx, if_neg halive]
    rw [hsame]
    apply h.moved rfl h.fields
    · intro s' x hrelies hx
      exact hown s' x rfl hrelies hx
    · exact h.stale
  | destroy hx => exact h.destroyed hat rfl (fun _ => rfl) (hdoomed rfl _ hx)
  | destroyFresh hx => exact h.destroyed hat rfl (fun _ => rfl) (hfresh rfl _ hx)
  | create k hcaptured =>
    apply h.moved
    · rfl
    · exact h.fields
    · intro s x hrelies hx
      change r'.captured s = some x at hx
      rw [hcaptured] at hx
      by_cases hs : s = some k
      · rw [hs, Function.update_self] at hx
        obtain rfl := Option.some.inj hx
        intro hgone
        exact lt_irrefl _ (hsingle.born _ .gone hgone)
      · rw [Function.update_of_ne hs] at hx
        exact hown s x (by simp [Act.sets, Ne.symm hs]) hrelies hx
    · exact h.stale
  | storeSsl k hssl hdestroyed hstale =>
    apply h.moved hdestroyed
    · intro s x hx
      rw [hssl] at hx
      by_cases hs : s = some k
      · rw [hs, Function.update_self] at hx
        exact h.pointers i _ hat (some k) x (relies_of_uses (by simp [Act.uses])) hx
      · rw [Function.update_of_ne hs] at hx
        exact h.fields s x hx
    · intro s x hrelies hx
      exact hown s x rfl hrelies hx
    · exact hstale.trans h.stale

theorem Alive.step {q : Threads} {m : ℕ × Move Call} (h : Alive p) (hsingle : Single p)
    (hclean : DestroyClean p m) (hstep : (session tls).step p m = some q) : Alive q := by
  obtain ⟨t, c', t', os, hat, hmove, rfl⟩ := Machine.step_cases hstep
  cases hmove with
  | act hperform =>
    obtain ⟨hdoomed, hfresh⟩ := hclean _ hat _ rfl
    exact h.perform hsingle hat (perform_life hperform) hdoomed hfresh
  | call o r =>
    apply h.moved rfl h.fields
    · intro s x _ hx
      cases hx
    · exact h.stale
  | @yes q yes no r b htest =>
    apply h.moved rfl h.fields
    · intro s x hrelies hx
      cases hconfirms : q.confirms s with
      | false => exact h.pointers _ _ hat s x (relies_of_yes hconfirms hrelies) hx
      | true =>
        -- the pointer has just been compared with its field
        have hfield : r.captured s = p.shared.sslOf s := by
          cases q with
          | choose => cases hconfirms
          | holds f => cases hconfirms
          | current s' =>
            obtain rfl : s' = s := of_decide_eq_true hconfirms
            exact of_decide_eq_true htest
        exact h.fields s x (hfield ▸ hx)
    · exact h.stale
  | @no q yes no r b htest =>
    apply h.moved rfl h.fields
    · intro s x hrelies hx
      exact h.pointers _ _ hat s x (relies_of_no hrelies) hx
    · exact h.stale

end Moves

theorem alive_start (sends receives : Bool) (maxConnection : ℤ) (n : ℕ) :
    Alive (start sends receives maxConnection n) where
  fields s x _ hx := by
    cases hx
  pointers j t ht s x _ hx := by
    rw [start_at ht] at hx
    cases hx
  stale := rfl

/-- No context is destroyed twice in any run, and none is used after its destruction in a run in
which every destruction meets the condition. -/
theorem contexts_destroyed_once (tls sends receives : Bool) (maxConnection : ℤ) (n : ℕ)
    (run : List (ℕ × Move Call)) (q : Threads)
    (hrun : exec (session tls).step (start sends receives maxConnection n) run = some q) :
    q.shared.destroyed.Nodup ∧
      (Along (session tls).step DestroyClean (start sends receives maxConnection n) run →
        q.shared.stale = []) := by
  constructor
  · have hsingle : Single q :=
      exec_invariant (fun _ _ _ h hstep => h.step hstep)
        (single_start sends receives maxConnection n) hrun
    exact hsingle.once
  · intro hclean
    have halive : Single q ∧ Alive q := by
      apply exec_invariant_along (I := fun p => Single p ∧ Alive p) _ _ hclean hrun
      · intro p m q h hclean hstep
        exact ⟨h.1.step hstep, h.2.step h.1 hclean hstep⟩
      · exact ⟨single_start sends receives maxConnection n,
          alive_start sends receives maxConnection n⟩
    exact halive.2.stale

/-- The receive thread opens an additional socket and closes it after a failed read, then the
session ends. -/
def openAndDisconnect : List (ℕ × Move Call) :=
  openSocket ++ validateSocket ++ failRead ++ [(1, .call .disconnect)] ++ steps 1 54 true

theorem contexts_destroyed_once_disconnect :
    ∃ q, exec (session true).step (start true true 2 2) openAndDisconnect = some q ∧
      Along (session true).step DestroyClean (start true true 2 2) openAndDisconnect ∧
        q.shared.destroyed = [0, 1] ∧ q.shared.destroyed.Nodup ∧ q.shared.stale = [] := by
  have hrun : ∃ q ∈ exec (session true).step (start true true 2 2) openAndDisconnect,
      q.shared.destroyed = [0, 1] := by
    decide +kernel
  have hclean : Along (session true).step DestroyClean (start true true 2 2) openAndDisconnect := by
    decide +kernel
  obtain ⟨q, hq, hdestroyed⟩ := hrun
  obtain ⟨honce, hstale⟩ := contexts_destroyed_once true true true 2 2 openAndDisconnect q hq
  exact ⟨q, hq, hclean, hdestroyed, honce, hstale hclean⟩

/-- The receive thread reads from the context that the sending thread has destroyed. -/
theorem context_used_destroyed :
    ∃ q, exec (session true).step (start true true 2 2) failoverRace = some q ∧
      q.shared.destroyed = [1] ∧ q.shared.stale = [1] := by
  have hrun : ∃ q ∈ exec (session true).step (start true true 2 2) failoverRace,
      q.shared.destroyed = [1] ∧ q.shared.stale = [1] := by
    decide +kernel
  exact hrun

end SoftEtherVpn.Multi

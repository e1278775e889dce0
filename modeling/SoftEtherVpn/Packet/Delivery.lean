import SoftEtherVpn.Packet.SendStreams
import SoftEtherVpn.Packet.Framing

/-!
# From the writer to the reader of the data channel

What a run of calls hands over whole to its sockets, call by call, and what the reader of the
same program makes of a socket's bytes: the messages of that socket in the order of the calls,
and nothing of a last one that was cut.
-/

namespace SoftEtherVpn.Packet

open Foundation

/-- The message that a call may write to a socket. -/
def Step.message (t : Step) (s : SockId) : Option Bytes :=
  match t.call with
  | .send data rudp => if rudp then none else t.conn.softetherSend data
  | .sendPacket malloc compress payload => t.conn.softetherSendPacket malloc compress payload
  | .transmitBlock payload => some (block payload)
  | .keepalive r => if s = none then some (keepAlive r) else none
  | .keepaliveAll _ random => some (keepAlive (random s))

def Call.carriesBlock : Call → Bool
  | .send _ _ | .sendPacket _ _ _ | .transmitBlock _ => true
  | .keepalive _ | .keepaliveAll _ _ => false

/-- What a call hands over whole, socket by socket: its own message, at most once on a socket, and
a block on one socket only. -/
structure Step.Delivers (t : Step) (d : List (SockId × Bytes)) : Prop where
  sent : ∀ x ∈ d, t.message x.1 = some x.2
  once : (d.map Prod.fst).Nodup
  single : t.call.carriesBlock = true → d.length ≤ 1

/-- The messages that go to a socket. -/
def messagesTo (s : SockId) (d : List (SockId × Bytes)) : List Bytes :=
  (d.filter fun x => x.1 = s).map Prod.snd

theorem messagesTo_append (s : SockId) (d e : List (SockId × Bytes)) :
    messagesTo s (d ++ e) = messagesTo s d ++ messagesTo s e := by
  simp [messagesTo]

theorem messagesTo_single_self (s : SockId) (m : Bytes) : messagesTo s [(s, m)] = [m] := by
  simp [messagesTo]

theorem messagesTo_single_other {s s' : SockId} (h : s' ≠ s) (m : Bytes) :
    messagesTo s [(s', m)] = [] := by
  simp [messagesTo, h]

/-- The messages of a log that were accepted whole. -/
def wholes (log : List Write) : List Bytes :=
  (log.filter fun w => w.accepted = w.message.length).map Write.message

theorem wholes_append (log log' : List Write) : wholes (log ++ log') = wholes log ++ wholes log' := by
  simp [wholes]

theorem wholes_single_whole (m : Bytes) : wholes [Write.whole m] = [m] := by
  simp [wholes, Write.whole]

theorem wholes_single_cut {w : Write} (h : w.accepted < w.message.length) : wholes [w] = [] := by
  simp [wholes, h.ne]

theorem wholes_map_whole (ms : List Bytes) : wholes (ms.map Write.whole) = ms := by
  induction ms with
  | nil => rfl
  | cons m ms ih =>
    rw [List.map_cons, ← List.singleton_append, wholes_append, wholes_single_whole, ih,
      List.singleton_append]

namespace Links

variable {l l' : Links} {m : Bytes} {accepts : SockId → ℕ}

/-- Every log grows by the writes of the messages `msg`, of which `d` are whole. -/
structure Grows (msg : SockId → Option Bytes) (l l' : Links) (d : List (SockId × Bytes)) :
    Prop where
  wholes : ∀ s, wholes (l'.written s) = wholes (l.written s) ++ messagesTo s d
  logged : ∀ s, ∀ w ∈ l'.written s, w ∈ l.written s ∨ msg s = some w.message

variable {msg : SockId → Option Bytes}

theorem Grows.refl (h : l'.written = l.written) : Grows msg l l' [] := by
  constructor
  · intro s
    rw [h]
    exact (List.append_nil _).symm
  · intro s w hw
    rw [h] at hw
    exact Or.inl hw

theorem Grows.trans {l'' : Links} {d e : List (SockId × Bytes)} (h : Grows msg l l' d)
    (h' : Grows msg l' l'' e) : Grows msg l l'' (d ++ e) := by
  constructor
  · intro s
    rw [h'.wholes, h.wholes, messagesTo_append, List.append_assoc]
  · intro s w hw
    rcases h'.logged s w hw with hw | hw
    · exact h.logged s w hw
    · exact Or.inr hw

theorem Grows.of_written {l₀ : Links} {d : List (SockId × Bytes)} (h : Grows msg l l' d)
    (h₀ : l₀.written = l.written) : Grows msg l₀ l' d :=
  (Grows.refl h₀.symm).trans h

theorem Grows.record {s : SockId} (hm : msg s = some m) {k : ℕ} (hk : k ≤ m.length) :
    Grows msg l (l.record s ⟨m, k⟩) (if k = m.length then [(s, m)] else []) := by
  constructor
  · intro s'
    by_cases hs : s' = s
    · subst hs
      rw [record_self, wholes_append]
      by_cases hfull : k = m.length
      · rw [if_pos hfull, messagesTo_single_self, hfull]
        exact congrArg _ (wholes_single_whole m)
      · rw [if_neg hfull, wholes_single_cut (show k < m.length by omega)]
        rfl
    · rw [record_other l hs]
      split_ifs
      · rw [messagesTo_single_other (Ne.symm hs), List.append_nil]
      · exact (List.append_nil _).symm
  · intro s' w hw
    by_cases hs : s' = s
    · subst hs
      rw [record_self] at hw
      rcases List.mem_append.mp hw with hw | hw
      · exact Or.inl hw
      · rw [List.mem_singleton.mp hw]
        exact Or.inr hm
    · rw [record_other l hs] at hw
      exact Or.inl hw

variable (accepts)

/-- A write hands the message over whole or not at all; it is whole only if the write succeeds. -/
theorem Grows.write {s : SockId} (hm : msg s = some m) (l : Links) :
    ∃ d, Grows msg l (l.write s m accepts).2 d ∧
      (d = [] ∨ d = [(s, m)] ∧ (l.write s m accepts).1 = true) := by
  rcases write_cases l s m accepts with ⟨l', hl, rfl | rfl⟩ | ⟨hnot, l', hl, rfl | ⟨-, rfl⟩⟩
  · rw [hl]
    exact ⟨[], Grows.refl rfl, Or.inl rfl⟩
  · rw [hl]
    have hgrows := Grows.record (l := l) hm le_rfl
    rw [if_pos rfl] at hgrows
    exact ⟨[(s, m)], hgrows, Or.inr ⟨rfl, rfl⟩⟩
  · rw [hl]
    exact ⟨[], Grows.refl rfl, Or.inl rfl⟩
  · rw [hl]
    have hcut : ¬accepts s = m.length := by omega
    have hgrows := Grows.record (l := l) hm (show accepts s ≤ m.length by omega)
    rw [if_neg hcut] at hgrows
    exact ⟨[], hgrows, Or.inl rfl⟩

/-! ## The calls -/

theorem Grows.transmitLoop (hm : ∀ s, msg s = some m) (ss : List SockId) (l : Links) :
    ∃ d, Grows msg l (transmitLoop m accepts ss l).2 d ∧ (d = [] ∨ ∃ s, d = [(s, m)]) := by
  induction ss generalizing l with
  | nil => exact ⟨[], Grows.refl rfl, Or.inl rfl⟩
  | cons s ss ih =>
    -- a write that fails leaves nothing whole behind, so the next candidate starts afresh
    have hnext : ∀ l' l'' : Links, ∀ d, Grows msg l l' d → (d = [] ∨ d = [(s, m)] ∧ false = true) →
        l''.written = l'.written → ∃ d, Grows msg l (Links.transmitLoop m accepts ss l'').2 d ∧
          (d = [] ∨ ∃ s, d = [(s, m)]) := by
      intro l' l'' d hd hcases hwritten
      obtain rfl : d = [] := by simpa using hcases
      obtain ⟨e, he, hcases⟩ := ih l''
      exact ⟨e, hd.trans (he.of_written hwritten.symm), hcases⟩
    cases s with
    | none =>
      rw [Links.transmitLoop]
      split_ifs
      · obtain ⟨d, hd, hcases⟩ := Grows.write accepts (hm none) l
        generalize l.write none m accepts = r at hd hcases ⊢
        obtain ⟨ok, l'⟩ := r
        cases ok with
        | true => exact ⟨d, hd, hcases.imp id fun h => ⟨none, h.1⟩⟩
        | false => exact hnext l' l' d hd hcases rfl
      · exact ih l
    | some i =>
      rw [Links.transmitLoop]
      split_ifs
      · obtain ⟨d, hd, hcases⟩ := Grows.write accepts (hm (some i)) l
        generalize l.write (some i) m accepts = r at hd hcases ⊢
        obtain ⟨ok, l'⟩ := r
        cases ok with
        | true => exact ⟨d, hd, hcases.imp id fun h => ⟨some i, h.1⟩⟩
        | false => exact hnext l' (l'.retire i) d hd hcases rfl
      · exact ih l

theorem select_written (l : Links) : l.softetherSelectSendSocket.2.written = l.written := by
  rw [softetherSelectSendSocket]
  split <;> rfl

theorem Grows.transmitBlock (hm : ∀ s, msg s = some m) (l : Links) :
    ∃ d, Grows msg l (l.softetherTransmitBlock m accepts).2 d ∧ (d = [] ∨ ∃ s, d = [(s, m)]) := by
  rw [softetherTransmitBlock]
  split_ifs
  · exact ⟨[], Grows.refl rfl, Or.inl rfl⟩
  · obtain ⟨d, hd, hcases⟩ := Grows.transmitLoop accepts hm _
      l.softetherSelectSendSocket.2
    exact ⟨d, hd.of_written l.select_written.symm, hcases⟩

theorem Grows.sendBuiltPacket (hm : ∀ s, msg s = some m) (l : Links) :
    ∃ d, Grows msg l (l.sendBuiltPacket m accepts).2 d ∧ (d = [] ∨ ∃ s, d = [(s, m)]) := by
  rw [Links.sendBuiltPacket]
  split_ifs
  · exact ⟨[], Grows.refl rfl, Or.inl rfl⟩
  · have hselect := l.select_written
    generalize l.softetherSelectSendSocket = r at hselect ⊢
    obtain ⟨best, l'⟩ := r
    have hwrite : ∀ s, ∃ d, Grows msg l (l'.write s m accepts).2 d ∧
        (d = [] ∨ ∃ s, d = [(s, m)]) := by
      intro s
      obtain ⟨d, hd, hcases⟩ := Grows.write accepts (hm s) l'
      exact ⟨d, hd.of_written hselect.symm, hcases.imp id fun h => ⟨s, h.1⟩⟩
    cases best with
    | none => exact hwrite none
    | some i =>
      dsimp only
      by_cases hidle : (!(l'.additional i).active || !(l'.additional i).ssl) = true
      · rw [if_pos hidle]
        exact ⟨[], Grows.refl hselect, Or.inl rfl⟩
      · rw [if_neg hidle]
        exact hwrite (some i)

/-- The keepalives of the loop go to the sockets of its list. -/
theorem Grows.keepaliveLoop {random : SockId → Random}
    (hm : ∀ s, msg s = some (keepAlive (random s))) (is : List (Fin maxSeConnections))
    (l : Links) :
    ∃ d, Grows msg l (Links.keepaliveLoop random accepts is l) d ∧
      (∀ x ∈ d, msg x.1 = some x.2) ∧ (d.map Prod.fst).Sublist (is.map some) := by
  induction is generalizing l with
  | nil => exact ⟨[], Grows.refl rfl, by simp, List.Sublist.refl _⟩
  | cons i is ih =>
    rw [Links.keepaliveLoop, List.map_cons]
    split_ifs
    · obtain ⟨d, hd, hcases⟩ := Grows.write accepts (hm (some i)) l
      obtain ⟨e, he, hsent, hsub⟩ := ih (l.write (some i) (keepAlive (random (some i))) accepts).2
      rcases hcases with rfl | ⟨rfl, -⟩
      · exact ⟨e, hd.trans he, hsent, hsub.cons _⟩
      · refine ⟨_, hd.trans he, ?_, hsub.cons_cons _⟩
        intro x hx
        rcases List.mem_cons.mp hx with rfl | hx
        · exact hm (some i)
        · exact hsent x hx
    · obtain ⟨e, he, hsent, hsub⟩ := ih l
      exact ⟨e, he, hsent, hsub.cons _⟩

theorem Grows.keepaliveAll {random : SockId → Random}
    (hm : ∀ s, msg s = some (keepAlive (random s))) (due : Bool) (l : Links) :
    ∃ d, Grows msg l (l.softetherSendKeepaliveAll due random accepts) d ∧
      (∀ x ∈ d, msg x.1 = some x.2) ∧ (d.map Prod.fst).Nodup := by
  have hnodup : (none :: (List.finRange maxSeConnections).map some).Nodup := by
    refine List.nodup_cons.mpr ⟨by simp, ?_⟩
    exact (List.nodup_finRange maxSeConnections).map (Option.some_injective _)
  rw [softetherSendKeepaliveAll]
  split_ifs
  · exact ⟨[], Grows.refl rfl, by simp, List.nodup_nil⟩
  · obtain ⟨d, hd, hcases⟩ := Grows.write accepts (hm none) l
    obtain ⟨e, he, hsent, hsub⟩ := Grows.keepaliveLoop accepts hm
      (List.finRange maxSeConnections) (l.write none (keepAlive (random none)) accepts).2
    rcases hcases with rfl | ⟨rfl, -⟩
    · exact ⟨e, hd.trans he, hsent, hnodup.sublist (hsub.cons none)⟩
    · refine ⟨_, hd.trans he, ?_, hnodup.sublist (hsub.cons_cons none)⟩
      intro x hx
      rcases List.mem_cons.mp hx with rfl | hx
      · exact hm none
      · exact hsent x hx
  · obtain ⟨e, he, hsent, hsub⟩ := Grows.keepaliveLoop accepts hm
      (List.finRange maxSeConnections) l
    exact ⟨e, he, hsent, hnodup.sublist (hsub.cons none)⟩

end Links

theorem Step.Delivers.none (t : Step) : t.Delivers [] :=
  ⟨by simp, List.nodup_nil, fun _ => Nat.zero_le 1⟩

theorem Step.Delivers.ofBlock {t : Step} {d : List (SockId × Bytes)} {m : Bytes}
    (hm : ∀ s, t.message s = some m) (h : d = [] ∨ ∃ s, d = [(s, m)]) : t.Delivers d := by
  rcases h with rfl | ⟨s, rfl⟩
  · exact Step.Delivers.none t
  · refine ⟨?_, List.nodup_singleton s, fun _ => le_rfl⟩
    intro x hx
    rw [List.mem_singleton.mp hx]
    exact hm s

/-- One call. -/
theorem Step.grows (t : Step) (l : Links) :
    ∃ d, Links.Grows t.message l (t.run l) d ∧ t.Delivers d := by
  have hnothing : ∃ d, Links.Grows t.message l l d ∧ t.Delivers d :=
    ⟨[], Links.Grows.refl rfl, Step.Delivers.none t⟩
  obtain ⟨conn, hcap, call, accepts⟩ := t
  cases call with
  | send data rudp =>
    rw [Step.run]
    dsimp only
    cases hb : conn.softetherSend data with
    | none => exact hnothing
    | some b =>
      cases rudp with
      | true => exact hnothing
      | false =>
        have hm : ∀ s, Step.message ⟨conn, hcap, .send data false, accepts⟩ s = some b :=
          fun s => hb
        obtain ⟨d, hd, hcases⟩ := Links.Grows.transmitBlock accepts hm l
        exact ⟨d, hd, Step.Delivers.ofBlock hm hcases⟩
  | sendPacket malloc compress payload =>
    rw [Step.run]
    dsimp only
    cases hb : conn.softetherSendPacket malloc compress payload with
    | none => exact hnothing
    | some b =>
      have hm : ∀ s, Step.message ⟨conn, hcap, .sendPacket malloc compress payload, accepts⟩ s =
        some b := fun s => hb
      obtain ⟨d, hd, hcases⟩ := Links.Grows.sendBuiltPacket accepts hm l
      exact ⟨d, hd, Step.Delivers.ofBlock hm hcases⟩
  | transmitBlock payload =>
    have hm : ∀ s, Step.message ⟨conn, hcap, .transmitBlock payload, accepts⟩ s =
      some (block payload) := fun s => rfl
    obtain ⟨d, hd, hcases⟩ := Links.Grows.transmitBlock accepts hm l
    exact ⟨d, hd, Step.Delivers.ofBlock hm hcases⟩
  | keepalive r =>
    rw [Step.run]
    dsimp only
    rw [Links.softetherSendKeepalive]
    split_ifs
    · exact hnothing
    · have hm : Step.message ⟨conn, hcap, .keepalive r, accepts⟩ none = some (keepAlive r) := rfl
      obtain ⟨d, hd, hcases⟩ := Links.Grows.write accepts hm l
      refine ⟨d, hd, ?_⟩
      rcases hcases with rfl | ⟨rfl, -⟩
      · exact Step.Delivers.none _
      · refine ⟨?_, List.nodup_singleton none, fun _ => le_rfl⟩
        intro x hx
        rw [List.mem_singleton.mp hx]
        exact hm
  | keepaliveAll due random =>
    have hm : ∀ s, Step.message ⟨conn, hcap, .keepaliveAll due random, accepts⟩ s =
      some (keepAlive (random s)) := fun s => rfl
    obtain ⟨d, hd, hsent, hnodup⟩ := Links.Grows.keepaliveAll accepts hm due l
    refine ⟨d, hd, hsent, hnodup, ?_⟩
    intro hblock
    cases hblock

/-- A run: the logs hold what the calls hand over whole, in their order, and nothing else than
messages of the calls. -/
theorem run_grows (steps : List Step) (l : Links) :
    ∃ ds, List.Forall₂ Step.Delivers steps ds ∧
      (∀ s, wholes ((steps.foldl Step.run l).written s) =
        wholes (l.written s) ++ messagesTo s ds.flatten) ∧
      ∀ s, ∀ w ∈ (steps.foldl Step.run l).written s,
        w ∈ l.written s ∨ ∃ t ∈ steps, t.message s = some w.message := by
  induction steps generalizing l with
  | nil =>
    refine ⟨[], List.Forall₂.nil, ?_, fun s w hw => Or.inl hw⟩
    intro s
    exact (List.append_nil _).symm
  | cons t steps ih =>
    obtain ⟨d, hd, hdelivers⟩ := t.grows l
    obtain ⟨ds, hds, hwholes, hlogged⟩ := ih (t.run l)
    refine ⟨d :: ds, List.Forall₂.cons hdelivers hds, ?_, ?_⟩
    · intro s
      rw [List.foldl_cons, hwholes, hd.wholes, List.flatten_cons, messagesTo_append,
        List.append_assoc]
    · intro s w hw
      rcases hlogged s w hw with hw | ⟨t', ht', hw⟩
      · rcases hd.logged s w hw with hw | hw
        · exact Or.inl hw
        · exact Or.inr ⟨t, List.mem_cons_self, hw⟩
      · exact Or.inr ⟨t', List.mem_cons_of_mem t ht', hw⟩

/-! ## Reading a socket's bytes -/

theorem exists_message {m : Bytes} (hm : IsMessage m) (hsize : m.length ≤ 8 + maxBlockSize) :
    ∃ M : { M : Message // M.UnderCap }, M.1.encode = m := by
  rcases hm with ⟨p, rfl⟩ | ⟨r, rfl⟩
  · rw [block_length] at hsize
    have hp : ∀ b ∈ [p], b.length ≤ maxBlockSize := by
      intro b hb
      rw [List.mem_singleton.mp hb]
      omega
    have hcount : [p].length < keepAliveMagic := by
      rw [List.length_singleton]
      decide
    refine ⟨⟨.blocks [p] hcount hp, trivial⟩, ?_⟩
    simp [Message.encode, encodeBlock, block]
  · have hr := r.2
    refine ⟨⟨.keepAlive r.1 (by omega), by unfold Message.UnderCap keepAliveCap; omega⟩, ?_⟩
    rfl

theorem exists_messages {ms : List Bytes}
    (h : ∀ m ∈ ms, IsMessage m ∧ m.length ≤ 8 + maxBlockSize) :
    ∃ Ms : List Message, Ms.map Message.encode = ms ∧ ∀ M ∈ Ms, M.UnderCap := by
  have hrange : ms ∈ Set.range (List.map fun M : { M : Message // M.UnderCap } => M.1.encode) := by
    rw [Set.range_list_map]
    intro m hm
    exact exists_message (h m hm).1 (h m hm).2
  obtain ⟨Ms, rfl⟩ := hrange
  refine ⟨Ms.map Subtype.val, List.map_map, ?_⟩
  intro M hM
  obtain ⟨M', -, rfl⟩ := List.mem_map.mp hM
  exact M'.2

/-- Reader and writer stay in step over messages that the cap leaves alone. -/
theorem inStep_of_underCap (uncompress : Uncompress) (es : List Event)
    (hmalloc : ∀ args, Event.receive args ∈ es → ∀ n, args.malloc n = true) {ms : List Message}
    (hcap : ∀ m ∈ ms, m.UnderCap) {conn : Conn} {s : ChunkedStream} {rest : Bytes}
    (hoff : conn.serverUseCompress = false)
    (hbytes : s.bytes = ms.flatMap Message.encode ++ rest)
    (hs : s.Steady (ms.flatMap Message.encode).length) :
    InStep uncompress es ms conn s := by
  induction es generalizing ms conn s with
  | nil => trivial
  | cons e es ih =>
    have hmalloc' : ∀ args, Event.receive args ∈ es → ∀ n, args.malloc n = true :=
      fun args hargs => hmalloc args (List.mem_cons_of_mem e hargs)
    cases ms with
    | nil =>
      cases e with
      | take => exact ih hmalloc' (by simp) hoff hbytes hs
      | fill isAdditional => trivial
      | receive args => trivial
    | cons m ms =>
      have htail : ∀ m' ∈ ms, m'.UnderCap := fun m' hm' => hcap m' (List.mem_cons_of_mem m hm')
      have hm : m.UnderCap := hcap m List.mem_cons_self
      have hbytes' := hbytes
      have hs' := hs
      rw [List.flatMap_cons] at hbytes' hs'
      rw [List.append_assoc] at hbytes'
      rw [List.length_append] at hs'
      cases e with
      | take => exact ih hmalloc' hcap hoff hbytes hs
      | fill isAdditional =>
        obtain ⟨hconn, s', hstream, hiff, hsteady⟩ := fillRecvQueue_steady uncompress isAdditional
          conn m hoff hbytes' hs' (Nat.le_add_right _ _)
        have hrest := hiff.mpr hm
        have hsteady := hsteady hm
        rw [Nat.add_sub_cancel_left] at hsteady
        refine ⟨hconn, s', hstream, by rw [hbytes', hrest], ?_⟩
        exact ih hmalloc' htail ((receive_serverUseCompress conn m).trans hoff) hrest hsteady
      | receive args =>
        have hstore : args.CanStore m := by
          cases m with
          | keepAlive data hsize => trivial
          | blocks bs hcount hsizes => exact fun _ b _ => Or.inr (hmalloc args List.mem_cons_self _)
        rcases receivePacket_steady uncompress conn args m hbytes' hs' (Nat.le_add_right _ _) with
          ⟨⟨r, hr, hrest, hsteady⟩, -⟩ | ⟨-, hbad⟩
        · rw [Nat.add_sub_cancel_left] at hsteady
          exact ⟨r, hr, by rw [hbytes', hrest], ih hmalloc' htail hoff hrest hsteady⟩
        · exact absurd ⟨hm, hstore⟩ hbad

/-! ## A message that was cut -/

section Cut

variable {s s' : ChunkedStream} {k n : ℕ} {q tail : Bytes}

theorem readUint32_prefix (h : readUint32 s = some (k, s'))
    (hbytes : s.bytes ++ q = bytesBE 4 n ++ tail) (hn : n < 2 ^ 32) :
    k = n ∧ s'.bytes ++ q = tail := by
  obtain ⟨⟨d, v⟩, hread, heq⟩ := Option.map_eq_some_iff.mp h
  obtain ⟨rfl, rfl⟩ := Prod.mk.inj heq
  obtain ⟨hlength, hsplit⟩ := ChunkedStream.readAll_eq_some hread
  rw [hsplit, List.append_assoc] at hbytes
  obtain ⟨hd, htail⟩ := List.append_inj hbytes (by rw [hlength, bytesBE_length])
  refine ⟨?_, htail⟩
  dsimp only
  rw [hd, natBE_bytesBE_of_lt (by omega)]

theorem skipBlock_length (s : ChunkedStream) (remaining : ℕ)
    (h : skipBlock s remaining = some s') : remaining ≤ s.bytes.length := by
  induction remaining using Nat.strong_induction_on generalizing s with
  | _ remaining ih =>
    by_cases hzero : remaining = 0
    · omega
    · rw [skipBlock, dif_neg hzero] at h
      dsimp only at h
      obtain ⟨⟨d, v⟩, hread, hskip⟩ := Option.bind_eq_some_iff.mp h
      obtain ⟨hlength, hsplit⟩ := ChunkedStream.readAll_eq_some hread
      have hpos : 0 < skipBufSize := by decide
      have hrest := ih (remaining - min remaining skipBufSize) (by omega) v hskip
      rw [hsplit, List.length_append]
      omega

theorem readAll_eq_none_of_cut {p : Bytes} (hbytes : s.bytes ++ q = p) (hq : q ≠ []) :
    s.readAll p.length = none := by
  cases hread : s.readAll p.length with
  | none => rfl
  | some r =>
    obtain ⟨d, s'⟩ := r
    obtain ⟨hlength, hsplit⟩ := ChunkedStream.readAll_eq_some hread
    have hpos := List.length_pos_iff.mpr hq
    have hall := congrArg List.length hbytes
    rw [hsplit, List.length_append, List.length_append] at hall
    omega

theorem skipBlock_eq_none_of_cut {p : Bytes} (hbytes : s.bytes ++ q = p) (hq : q ≠ []) :
    skipBlock s p.length = none := by
  cases hskip : skipBlock s p.length with
  | none => rfl
  | some v =>
    have hlength := skipBlock_length s p.length hskip
    have hpos := List.length_pos_iff.mpr hq
    have hall := congrArg List.length hbytes
    rw [List.length_append] at hall
    omega

/-- The reader makes nothing of a message that is cut. -/
theorem cut_unread {m rest : Bytes} (hm : IsMessage m) (hsize : m.length ≤ 8 + maxBlockSize)
    (hcut : rest <+: m) (hne : rest ≠ m) (uncompress : Uncompress) (isAdditional : Bool)
    (conn : Conn) (args : ReceiveArgs) (chunks : List ℕ) :
    (fillRecvQueue uncompress isAdditional conn ⟨rest, chunks⟩).conn = conn ∧
      receivePacket uncompress conn args ⟨rest, chunks⟩ = none := by
  obtain ⟨q, hq⟩ := hcut
  have hq0 : q ≠ [] := by
    rintro rfl
    exact hne (by simpa using hq)
  cases h₁ : readUint32 ⟨rest, chunks⟩ with
  | none =>
    simp only [fillRecvQueue, receivePacket, h₁]
    exact ⟨rfl, trivial⟩
  | some r₁ =>
    obtain ⟨k₁, s₁⟩ := r₁
    simp only [fillRecvQueue, receivePacket, h₁]
    rcases hm with ⟨p, rfl⟩ | ⟨r, rfl⟩
    · rw [block_length] at hsize
      rw [block, List.append_assoc] at hq
      obtain ⟨rfl, hs₁⟩ := readUint32_prefix h₁ hq (by decide)
      rw [if_neg (by decide), if_neg (by decide), if_neg (by decide), if_neg (by decide)]
      rw [fillBlocks, receiveBlocks]
      cases h₂ : readUint32 s₁ with
      | none => exact ⟨rfl, rfl⟩
      | some r₂ =>
        obtain ⟨k₂, s₂⟩ := r₂
        obtain ⟨rfl, hs₂⟩ := readUint32_prefix h₂ hs₁ (by unfold maxBlockSize at hsize; omega)
        have hp : p ≠ [] := by
          rintro rfl
          exact hq0 (List.append_eq_nil_iff.mp hs₂).2
        have hlength : p.length ≠ 0 := by simpa using hp
        have hread := readAll_eq_none_of_cut hs₂ hq0
        have hskip := skipBlock_eq_none_of_cut hs₂ hq0
        have hbig : ¬p.length > maxBlockSize := by omega
        simp only [if_neg hbig, if_neg hlength, hread, hskip]
        constructor
        · split_ifs <;> rfl
        · split_ifs <;> rfl
    · have hr := r.2
      rw [keepAlive, List.append_assoc] at hq
      obtain ⟨rfl, hs₁⟩ := readUint32_prefix h₁ hq (by decide)
      rw [if_pos (by decide), if_pos (by decide)]
      constructor
      · split <;> rfl
      · cases h₂ : readUint32 s₁ with
        | none => rfl
        | some r₂ =>
          obtain ⟨k₂, s₂⟩ := r₂
          obtain ⟨rfl, hs₂⟩ := readUint32_prefix h₂ hs₁ (by omega)
          have hmin : min r.1.length keepAliveCap = r.1.length := by
            unfold keepAliveCap
            omega
          dsimp only
          rw [hmin, readAll_eq_none_of_cut hs₂ hq0]
          rfl

end Cut

/-- A log in which only the last message may be cut. -/
theorem log_split {log : List Write} (h : Whole log ∨ CutOnce log) :
    ∃ rest, log.flatMap Write.bytes = (wholes log).flatten ++ rest ∧
      (∀ m ∈ wholes log, IsMessage m) ∧
      (rest = [] ∨ ∃ w ∈ log, IsMessage w.message ∧ rest <+: w.message ∧ rest ≠ w.message) := by
  have hbytes : ∀ ms : List Bytes, (ms.map Write.whole).flatMap Write.bytes = ms.flatten := by
    intro ms
    rw [List.flatMap_map]
    simp only [whole_bytes, List.flatMap_id']
  rcases h with ⟨ms, hms, rfl⟩ | ⟨_, w, ⟨ms, hms, rfl⟩, hw, hcut, rfl⟩
  · refine ⟨[], ?_, ?_, Or.inl rfl⟩
    · rw [wholes_map_whole, hbytes, List.append_nil]
    · rw [wholes_map_whole]
      exact hms
  · refine ⟨w.bytes, ?_, ?_, Or.inr ⟨w, by simp, hw, List.take_prefix _ _, ?_⟩⟩
    · rw [wholes_append, wholes_map_whole, wholes_single_cut hcut, List.append_nil,
        List.flatMap_append, hbytes, List.flatMap_singleton]
    · rw [wholes_append, wholes_map_whole, wholes_single_cut hcut, List.append_nil]
      exact hms
    · intro hsame
      have hlength := congrArg List.length hsame
      rw [Write.bytes, List.length_take] at hlength
      omega

theorem mem_wholes {log : List Write} {m : Bytes} (h : m ∈ wholes log) :
    ∃ w ∈ log, w.message = m := by
  obtain ⟨w, hw, rfl⟩ := List.mem_map.mp h
  exact ⟨w, (List.mem_filter.mp hw).1, rfl⟩

/-- In a run that cuts no message except on a socket that is then retired, every call hands over
its block on one socket at most, and a keepalive once to a socket at most. What a socket has
accepted are its messages in the order of the calls, each of which the reader takes in step however
the bytes arrive, and possibly a part of one more, of which the reader makes nothing. -/
theorem run_delivers (l : Links) (hfresh : ∀ s, l.written s = []) (steps : List Step)
    (hclean : ∀ t ∈ steps, t.Clean)
    (hsize : ∀ t ∈ steps, ∀ s, ∀ m ∈ t.message s, m.length ≤ 8 + maxBlockSize) :
    ∃ ds, List.Forall₂ Step.Delivers steps ds ∧ ∀ s, ∃ (ms : List Message) (rest : Bytes),
      ms.map Message.encode = messagesTo s ds.flatten ∧
      (steps.foldl Step.run l).accepted s = ms.flatMap Message.encode ++ rest ∧
      (rest ≠ [] → ∃ t ∈ steps, ∃ m ∈ t.message s, rest <+: m ∧ rest ≠ m) ∧
      ∀ (uncompress : Uncompress) (conn : Conn), conn.serverUseCompress = false →
        (∀ es stream, stream.bytes = (steps.foldl Step.run l).accepted s →
          stream.Steady (ms.flatMap Message.encode).length →
          (∀ args, Event.receive args ∈ es → ∀ n, args.malloc n = true) →
          InStep uncompress es ms conn stream) ∧
        ∀ isAdditional args chunks,
          (fillRecvQueue uncompress isAdditional conn ⟨rest, chunks⟩).conn = conn ∧
            receivePacket uncompress conn args ⟨rest, chunks⟩ = none := by
  obtain ⟨ds, hds, hwholes, hlogged⟩ := run_grows steps l
  have hsound := (Links.Sound.fresh hfresh).run hclean
  refine ⟨ds, hds, fun s => ?_⟩
  have hwholes := hwholes s
  rw [hfresh s] at hwholes
  have hlogged : ∀ w ∈ (steps.foldl Step.run l).written s,
      ∃ t ∈ steps, t.message s = some w.message := by
    intro w hw
    refine (hlogged s w hw).resolve_left ?_
    simp [hfresh s]
  have hshort : ∀ w ∈ (steps.foldl Step.run l).written s,
      w.message.length ≤ 8 + maxBlockSize := by
    intro w hw
    obtain ⟨t, ht, hmt⟩ := hlogged w hw
    exact hsize t ht s w.message hmt
  obtain ⟨rest, haccepted, hmessages, hrest⟩ := log_split (hsound.cut s)
  have hbounded : ∀ m ∈ wholes ((steps.foldl Step.run l).written s),
      IsMessage m ∧ m.length ≤ 8 + maxBlockSize := by
    intro m hm
    obtain ⟨w, hw, rfl⟩ := mem_wholes hm
    exact ⟨hmessages w.message hm, hshort w hw⟩
  obtain ⟨ms, hms, hcap⟩ := exists_messages hbounded
  have hflat : (wholes ((steps.foldl Step.run l).written s)).flatten =
      ms.flatMap Message.encode := by
    rw [← hms]
    rfl
  rw [hflat] at haccepted
  refine ⟨ms, rest, hms.trans hwholes, haccepted, ?_, ?_⟩
  · intro hrest0
    obtain ⟨w, hw, -, hprefix, hne⟩ := hrest.resolve_left hrest0
    obtain ⟨t, ht, hmt⟩ := hlogged w hw
    exact ⟨t, ht, w.message, hmt, hprefix, hne⟩
  · intro uncompress conn hoff
    constructor
    · intro es stream hbytes hsteady hmalloc
      exact inStep_of_underCap uncompress es hmalloc hcap hoff (hbytes.trans haccepted) hsteady
    · intro isAdditional args chunks
      rcases hrest with rfl | ⟨w, hw, hm, hprefix, hne⟩
      · exact cut_unread (Or.inl ⟨[], rfl⟩) (Nat.le_add_right 8 _) List.nil_prefix (by decide)
          uncompress isAdditional conn args chunks
      · exact cut_unread hm (hshort w hw) hprefix hne uncompress isAdditional conn args chunks

theorem failover_clean : ∀ t ∈ failover, t.Clean := by
  intro t ht
  simp only [failover, List.mem_cons, List.not_mem_nil, or_false] at ht
  rcases ht with rfl | rfl
  · exact Or.inr (by decide)
  · intro s
    exact Or.inr (show (keepAlive emptyRandom).length ≤ 100 by decide)

theorem failover_sizes :
    ∀ t ∈ failover, ∀ s, ∀ m ∈ t.message s, m.length ≤ 8 + maxBlockSize := by
  intro t ht s m hm
  simp only [failover, List.mem_cons, List.not_mem_nil, or_false] at ht
  rcases ht with rfl | rfl
  · obtain rfl : block [7] = m := Option.some.inj hm
    decide
  · obtain rfl : keepAlive emptyRandom = m := Option.some.inj hm
    decide

/-- The block of which the additional socket took three bytes goes out whole on the primary one,
once. -/
theorem run_delivers_failover :
    ∃ ds, List.Forall₂ Step.Delivers failover ds ∧ ∃ (ms : List Message) (rest : Bytes),
      ms.map Message.encode = messagesTo none ds.flatten ∧
        block [7] ++ keepAlive emptyRandom = ms.flatMap Message.encode ++ rest := by
  obtain ⟨ds, hds, hall⟩ := run_delivers twoSockets (fun _ => rfl) failover failover_clean
    failover_sizes
  obtain ⟨ms, rest, hms, haccepted, -, -⟩ := hall none
  have hnone : (failover.foldl Step.run twoSockets).accepted none =
      block [7] ++ keepAlive emptyRandom := by
    decide +kernel
  exact ⟨ds, hds, ms, rest, hms, hnone.symm.trans haccepted⟩

end SoftEtherVpn.Packet

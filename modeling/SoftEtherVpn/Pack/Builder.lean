import SoftEtherVpn.Foundation.Runs
import SoftEtherVpn.Pack.ProtocolCopy

/-!
# Building a pack

A sequence of calls of the writer on one pack, with calls that fail in between. A pack stands for
the elements of the calls that succeeded. Two things break this: `malloc` does not clear the
count of a new pack, and the size of an element is added up in 32 bits before `pack_reserve`
sees it.
-/

namespace SoftEtherVpn.Pack

open Foundation

/-- The arguments of a call of the writer. A missing one is `NULL`; missing data comes with a
positive length. -/
inductive BuilderCall
  | int (name : Option CString) (val : UInt32)
  | int64 (name : Option CString) (val : UInt64)
  | str (name val : Option CString)
  | data (name : Option CString) (bytes : Option { bs : Bytes // bs.length < 2 ^ 32 })

/-- The call behind the check of its pointers. -/
def BuilderCall.checked : BuilderCall → Option AddCall
  | .int name val => name.map (.int · val)
  | .int64 name val => name.map (.int64 · val)
  | .str name val => do some (.str (← name) (← val))
  | .data name bytes => do some (.data (← name) (← bytes).1)

/-- `pack_reserve` on the pack itself, with whether it returns 0. -/
def packReserveInPlace (p : SoftetherPack) (add : ℕ) (realloc : Option Fill) :
    SoftetherPack × Bool :=
  if add > 2 ^ 32 - 1 - p.len then (p, false)
  else if p.len + add ≤ p.cap then (p, true)
  else
    let newCap :=
      if h : 0 < p.cap then growCap (p.len + add) p.cap h
      else growCap (p.len + add) packInitialCap packInitialCap_pos
    match realloc with
    | none => (p, false)
    | some fill => ({ p with data := p.data ++ (List.range (newCap - p.cap)).map fill }, true)

/-- A `pack_add_*` on the pack itself with its return value, or nothing after a write behind the
block. -/
def packAddInPlace (p : SoftetherPack) (call : AddCall) (realloc : Option Fill) :
    Option (SoftetherPack × ℤ) :=
  let elemSize := call.size % 2 ^ 32
  let (p, reserved) := packReserveInPlace p elemSize realloc
  if reserved then do
    let c ← call.writeElement ⟨p.data, p.len⟩
    let p ← packCommitElement { p with data := c.data } elemSize
    some (p, 0)
  else some (p, -1)

/-- A call with what `realloc` does in it. -/
abbrev BuilderEvent := BuilderCall × Option Fill

def packCall (p : SoftetherPack) (e : BuilderEvent) : Option (SoftetherPack × ℤ) :=
  match e.1.checked with
  | none => some (p, -1)
  | some call => packAddInPlace p call e.2

/-- A pack and the calls that returned 0. -/
structure Builder where
  pack : SoftetherPack
  added : List AddCall

def builderNew (fill : Fill) : Builder := ⟨packNew fill, []⟩

def builderStep (b : Builder) (e : BuilderEvent) : Option Builder :=
  (packCall b.pack e).map fun r =>
    ⟨r.1, if r.2 = 0 then b.added ++ e.1.checked.toList else b.added⟩

/-- The pack holds its count and then the elements of the successful calls. -/
structure Represents (b : Builder) : Prop where
  inBlock : b.pack.len ≤ b.pack.cap
  count : b.pack.numElements = b.added.length
  head : b.pack.contents.take 4 = bytesBE 4 b.pack.numElements
  elements : b.pack.contents.drop 4 =
    (b.added.map AddCall.element).flatMap elementCodec.encode

/-- The call stays in the block, adds its element or fails without a trace, and leaves a pack that
is represented. -/
def CallKept (b : Builder) (e : BuilderEvent) : Prop :=
  ∃ p ret, packCall b.pack e = some (p, ret) ∧
    (ret = 0 → ∃ call, e.1.checked = some call ∧ p.len = b.pack.len + call.size) ∧
    (ret ≠ 0 → p.contents = b.pack.contents ∧ p.len = b.pack.len ∧
      p.numElements = b.pack.numElements) ∧
    ∀ t, builderStep b e = some t → Represents t

/-- `pack_reserve` finds or gets the room. -/
def Room (p : SoftetherPack) (add : ℕ) (realloc : Option Fill) : Prop :=
  add ≤ 2 ^ 32 - 1 - p.len ∧ (p.len + add ≤ p.cap ∨ realloc.isSome)

/-- The size of the element fits 32 bits, or there is no room even for what is left of it. -/
def CallFits (b : Builder) (e : BuilderEvent) : Prop :=
  ∀ call, e.1.checked = some call →
    call.size < 2 ^ 32 ∨ ¬Room b.pack (call.size % 2 ^ 32) e.2

/-- The block that `malloc` returned starts with four zero bytes. -/
def HeadClear (fill : Fill) : Prop := ∀ i < 4, fill i = 0

/-!
## One call
-/

theorem packReserve_eq_none_iff {p : SoftetherPack} {add : ℕ} {realloc : Option Fill} :
    packReserve p add realloc = none ↔ ¬Room p add realloc := by
  unfold packReserve Room
  by_cases hmax : add > 2 ^ 32 - 1 - p.len
  · simp only [if_pos hmax, true_iff]
    omega
  rw [if_neg hmax]
  by_cases hroom : p.len + add ≤ p.cap
  · rw [if_pos hroom]
    simp only [reduceCtorEq, false_iff, not_not]
    exact ⟨not_lt.mp hmax, Or.inl hroom⟩
  · rw [if_neg hroom]
    cases realloc with
    | none => simp [hroom]
    | some fill =>
      simp only [Option.map_some, reduceCtorEq, false_iff, not_not]
      exact ⟨not_lt.mp hmax, Or.inr rfl⟩

theorem packReserveInPlace_eq (p : SoftetherPack) (add : ℕ) (realloc : Option Fill) :
    packReserveInPlace p add realloc =
      ((packReserve p add realloc).getD p, (packReserve p add realloc).isSome) := by
  unfold packReserveInPlace packReserve
  by_cases hmax : add > 2 ^ 32 - 1 - p.len
  · rw [if_pos hmax, if_pos hmax]
    rfl
  by_cases hroom : p.len + add ≤ p.cap
  · rw [if_neg hmax, if_pos hroom, if_neg hmax, if_pos hroom]
    rfl
  rw [if_neg hmax, if_neg hroom, if_neg hmax, if_neg hroom]
  cases realloc <;> rfl

/-- The call in place is the call of the writer, where a refused one keeps the pack. -/
theorem packAddInPlace_eq (p : SoftetherPack) (call : AddCall) (realloc : Option Fill) :
    packAddInPlace p call realloc = match call.run p realloc with
      | .ok q => some (q, 0)
      | .error .refused => some (p, -1)
      | .error .overrun => none := by
  rw [call.run_eq, packAddInPlace, packReserveInPlace_eq]
  cases packReserve p (call.size % 2 ^ 32) realloc with
  | none => rfl
  | some q =>
    simp only [Option.getD_some, Option.isSome_some, if_true]
    cases hwrite : call.writeElement ⟨q.data, q.len⟩ with
    | none => rfl
    | some c =>
      simp only [Option.bind_eq_bind, Option.bind_some]
      cases hcommit : packCommitElement { q with data := c.data } (call.size % 2 ^ 32) <;> rfl

theorem run_eq_refused_iff {p : SoftetherPack} {call : AddCall} {realloc : Option Fill} :
    call.run p realloc = .error .refused ↔ ¬Room p (call.size % 2 ^ 32) realloc := by
  rw [call.run_eq, ← packReserve_eq_none_iff]
  cases packReserve p (call.size % 2 ^ 32) realloc with
  | none => simp
  | some q =>
    dsimp only
    split <;> simp

/-- What holds of the pack between two calls. -/
structure Built (b : Builder) : Prop where
  block : Protocol.Block b.pack
  represents : Represents b

theorem Built.len_eq {b : Builder} (h : Built b) :
    b.pack.len = 4 + ((b.added.map AddCall.element).flatMap elementCodec.encode).length := by
  have hlength : b.pack.contents.length = b.pack.len :=
    List.length_take_of_le h.block.inBlock
  have hhead := h.block.head
  rw [← h.represents.elements, List.length_drop]
  omega

theorem Built.holds {b : Builder} (h : Built b) : Holds b.pack (b.added.map AddCall.element) where
  len := h.len_eq
  inBlock := h.block.inBlock
  count := by rw [h.represents.count, List.length_map]
  elements := h.represents.elements
  head _ := by rw [h.represents.head, h.represents.count, List.length_map]

/-- Every element takes 16 bytes, so that the count stays far below the length. -/
theorem length_elements_ge (calls : List AddCall) :
    16 * calls.length ≤ ((calls.map AddCall.element).flatMap elementCodec.encode).length := by
  induction calls with
  | nil => simp
  | cons call calls ih =>
    have hsize : 16 ≤ call.size := by
      cases call <;> simp only [AddCall.size] <;> omega
    simp only [List.map_cons, List.flatMap_cons, List.length_append, List.length_cons,
      call.length_encode_element]
    omega

theorem Built.of_holds {p : SoftetherPack} {call : AddCall} {added : List AddCall}
    (hblock : Protocol.Block p) (h : Holds p (added.map AddCall.element ++ [call.element])) :
    Built ⟨p, added ++ [call]⟩ := by
  refine ⟨hblock, h.inBlock, ?_, ?_, ?_⟩
  · rw [h.count]
    simp
  · rw [h.head (by simp), h.count]
  · rw [h.elements, List.map_append]
    rfl

/-- A call whose element fits 32 bits appends it, or is refused. -/
theorem Built.run {b : Builder} (h : Built b) {call : AddCall} (realloc : Option Fill)
    (hsize : call.size < 2 ^ 32) :
    call.run b.pack realloc = .error .refused ∨
      ∃ p, call.run b.pack realloc = .ok p ∧ p.len = b.pack.len + call.size ∧
        Built ⟨p, b.added ++ [call]⟩ := by
  by_cases hroom : Room b.pack (call.size % 2 ^ 32) realloc
  · have hfits := h.block.fits
    have hinBlock := h.block.inBlock
    have hmax := hroom.1
    rw [Nat.mod_eq_of_lt hsize] at hmax
    have hcount := length_elements_ge b.added
    have hlen := h.len_eq
    obtain hrefused | ⟨p, hp, hholds⟩ := run_holds h.holds call realloc (by omega)
      (by rw [List.length_map]; omega)
    · exact absurd hroom (run_eq_refused_iff.mp hrefused)
    · refine Or.inr ⟨p, hp, ?_, Built.of_holds (h.block.run call hp).1 hholds⟩
      rw [hholds.len, h.holds.len, List.flatMap_append, List.length_append,
        List.flatMap_singleton, call.length_encode_element]
      omega
  · exact Or.inl (run_eq_refused_iff.mpr hroom)

theorem packCall_of_run {p : SoftetherPack} {e : BuilderEvent} {call : AddCall}
    (hcall : e.1.checked = some call) :
    packCall p e = match call.run p e.2 with
      | .ok q => some (q, 0)
      | .error .refused => some (p, -1)
      | .error .overrun => none := by
  rw [packCall, hcall]
  exact packAddInPlace_eq p call e.2

/-- A call that fits keeps everything. -/
theorem Built.call {b : Builder} (h : Built b) {e : BuilderEvent} (hfits : CallFits b e) :
    CallKept b e ∧ ∀ t, builderStep b e = some t → Built t := by
  have hfailed : packCall b.pack e = some (b.pack, -1) →
      CallKept b e ∧ ∀ t, builderStep b e = some t → Built t := by
    intro hcall
    have hstep : ∀ t, builderStep b e = some t → t = b := by
      intro t ht
      simpa [builderStep, hcall] using ht.symm
    refine ⟨⟨b.pack, -1, hcall, by simp, fun _ => ⟨rfl, rfl, rfl⟩, ?_⟩, ?_⟩
    · intro t ht
      rw [hstep t ht]
      exact h.represents
    · intro t ht
      rw [hstep t ht]
      exact h
  cases hchecked : e.1.checked with
  | none =>
    apply hfailed
    simp [packCall, hchecked]
  | some call =>
    have hrun := packCall_of_run (p := b.pack) hchecked
    have hrefused : call.run b.pack e.2 = .error .refused ∨
        ∃ p, call.run b.pack e.2 = .ok p ∧ p.len = b.pack.len + call.size ∧
          Built ⟨p, b.added ++ [call]⟩ := by
      obtain hsize | hroom := hfits call hchecked
      · exact h.run e.2 hsize
      · exact Or.inl (run_eq_refused_iff.mpr hroom)
    obtain hrefused | ⟨p, hok, hlen, hbuilt⟩ := hrefused
    · apply hfailed
      rw [hrun, hrefused]
    · rw [hok] at hrun
      have hstep : ∀ t, builderStep b e = some t → t = ⟨p, b.added ++ [call]⟩ := by
        intro t ht
        simpa [builderStep, hrun, hchecked] using ht.symm
      refine ⟨⟨p, 0, hrun, fun _ => ⟨call, hchecked, hlen⟩, fun hne => absurd rfl hne, ?_⟩, ?_⟩
      · intro t ht
        rw [hstep t ht]
        exact hbuilt.represents
      · intro t ht
        rw [hstep t ht]
        exact hbuilt

/-- A call that does not fit gets room for less than its element. -/
theorem Built.call_fits {b : Builder} (h : Built b) {e : BuilderEvent} (hkept : CallKept b e) :
    CallFits b e := by
  intro call hchecked
  by_contra hnot
  push Not at hnot
  obtain ⟨hsize, hroom⟩ := hnot
  obtain ⟨p, ret, hcall, hzero, -, -⟩ := hkept
  rw [packCall_of_run hchecked] at hcall
  cases hrun : call.run b.pack e.2 with
  | error fault =>
    cases fault with
    | refused => exact run_eq_refused_iff.mp hrun hroom
    | overrun => simp [hrun] at hcall
  | ok q =>
    simp only [hrun, Option.some.injEq, Prod.mk.injEq] at hcall
    obtain ⟨rfl, rfl⟩ := hcall
    obtain ⟨call', hchecked', hlen⟩ := hzero rfl
    obtain rfl := Option.some.inj (hchecked.symm.trans hchecked')
    have hblock := (h.block.run call hrun).1
    have hfits := hblock.fits
    have hinBlock := hblock.inBlock
    omega

/-!
## Calls that fit the block as it is
-/

/-- A call that fits the block needs no `realloc`, and the block stays as long as it is. -/
theorem run_within {p : SoftetherPack} {es : List Element} (hp : Holds p es) (call : AddCall)
    (realloc : Option Fill) (hroom : p.len + call.size ≤ p.cap) (hcap : p.cap < 2 ^ 32)
    (hcount : es.length + 1 < 2 ^ 32) :
    ∃ q, call.run p realloc = .ok q ∧ q.cap = p.cap ∧ q.len = p.len + call.size ∧
      Holds q (es ++ [call.element]) := by
  have hmod : call.size % 2 ^ 32 = call.size := Nat.mod_eq_of_lt (by omega)
  have hlen := hp.len
  have hblock : p.cap = p.data.length := rfl
  have hreserve : packReserve p call.size realloc = some p := by
    rw [packReserve, if_neg (by omega), if_pos hroom]
  obtain ⟨c, hc, hext⟩ := call.writes_element (by omega) ⟨p.data, p.len⟩
    (by rw [call.length_encode_element]; simp only []; omega)
  have hdata : c.data.length = p.data.length := hext.block
  obtain ⟨r, hr, hrlen, hrcap, -, -⟩ := packCommitElement_spec { p with data := c.data } call.size
    (by simp only []; omega) (by simp only []; omega) (by simp only []; omega)
  have hrun : call.run p realloc = .ok r := by
    rw [call.run_eq, hmod, hreserve]
    simp only [hc, Option.bind_eq_bind, Option.bind_some, hr]
  refine ⟨r, hrun, hrcap.trans hdata, hrlen, ?_⟩
  rcases run_holds hp call realloc (by omega) hcount with hrefused | ⟨q, hq, hholds⟩
  · rw [hrun] at hrefused
    cases hrefused
  · rw [hrun] at hq
    rw [Except.ok.inj hq]
    exact hholds

/-- Calls that together fit the block all add their elements. -/
theorem exec_builder_within {b : Builder} {es : List Element} (hb : Holds b.pack es)
    (calls : List (AddCall × BuilderEvent)) (hcalls : ∀ c ∈ calls, c.2.1.checked = some c.1)
    (hroom : b.pack.len + (calls.map fun c => c.1.size).sum ≤ b.pack.cap)
    (hcap : b.pack.cap < 2 ^ 32) (hcount : es.length + calls.length < 2 ^ 32) :
    ∃ t, exec builderStep b (calls.map Prod.snd) = some t ∧
      t.pack.len = b.pack.len + (calls.map fun c => c.1.size).sum ∧
        Holds t.pack (es ++ calls.map fun c => c.1.element) := by
  induction calls generalizing b es with
  | nil => exact ⟨b, rfl, rfl, by simpa using hb⟩
  | cons c calls ih =>
    obtain ⟨hchecked, hcalls⟩ := List.forall_mem_cons.mp hcalls
    simp only [List.map_cons, List.sum_cons, List.length_cons] at hroom hcount ⊢
    obtain ⟨q, hrun, hqcap, hqlen, hholds⟩ := run_within hb c.1 c.2.2 (by omega) hcap (by omega)
    have hstep : builderStep b c.2 = some ⟨q, b.added ++ [c.1]⟩ := by
      simp [builderStep, packCall_of_run hchecked, hrun, hchecked]
    have hnext : Holds (Builder.mk q (b.added ++ [c.1])).pack (es ++ [c.1.element]) := hholds
    obtain ⟨t, ht, hlen, htholds⟩ := ih hnext hcalls (by rw [hqlen, hqcap]; omega)
      (by rw [hqcap]; exact hcap) (by rw [List.length_append, List.length_singleton]; omega)
    refine ⟨t, exec_cons_eq_some.mpr ⟨_, hstep, ht⟩, ?_, by simpa using htholds⟩
    rw [hlen, hqlen]
    omega

/-!
## Sequences of calls
-/

theorem represents_builderNew (fill : Fill) : Represents (builderNew fill) ↔ HeadClear fill := by
  have hhead : (packNew fill).contents.take 4 = [fill 0, fill 1, fill 2, fill 3] := rfl
  have hzero : bytesBE 4 0 = [0, 0, 0, 0] := by decide
  have hclear : HeadClear fill ↔ [fill 0, fill 1, fill 2, fill 3] = [0, 0, 0, 0] := by
    simp only [HeadClear, List.cons.injEq, and_true]
    constructor
    · intro h
      exact ⟨h 0 (by decide), h 1 (by decide), h 2 (by decide), h 3 (by decide)⟩
    · rintro ⟨h0, h1, h2, h3⟩ i hi
      interval_cases i <;> assumption
  rw [hclear]
  constructor
  · intro h
    exact hhead.symm.trans (h.head.trans hzero)
  · intro h
    exact ⟨(holds_packNew fill).inBlock, rfl, hhead.trans (h.trans hzero.symm),
      (holds_packNew fill).elements⟩

/-- A new pack and every pack after it are represented, and every call keeps this, exactly when
the first four bytes of the block were zero and every call fits. -/
theorem builder_represents_iff (fill : Fill) (events : List BuilderEvent) :
    (Represents (builderNew fill) ∧ Along builderStep CallKept (builderNew fill) events) ↔
      HeadClear fill ∧ Along builderStep CallFits (builderNew fill) events := by
  rw [represents_builderNew]
  apply and_congr_right
  intro hclear
  have hnew : Built (builderNew fill) :=
    ⟨Protocol.block_packNew fill, (represents_builderNew fill).mpr hclear⟩
  have hsame : ∀ b e, Built b → (CallKept b e ↔ CallFits b e) := fun b e hb =>
    ⟨hb.call_fits, fun hfits => (hb.call hfits).1⟩
  apply along_congr hsame ?_ hnew
  intro b e t hb hkept ht
  exact (hb.call (hb.call_fits hkept)).2 t ht

/-- The count of an empty pack is what `malloc` left there, and data of `2 ^ 32 - 17` bytes is
written behind a block of 256 bytes. -/
theorem builder_not_represented :
    ¬Represents (builderNew fun _ => 7) ∧
    ∃ data : { bs : Bytes // bs.length < 2 ^ 32 },
      packCall (packNew fun _ => 0) (.data (some ⟨[97], by decide⟩) (some data), none) = none := by
  constructor
  · rw [represents_builderNew]
    intro h
    exact absurd (h 0 (by decide)) (by decide)
  · obtain ⟨bytes, hlength⟩ : ∃ bytes : Bytes, bytes.length = 2 ^ 32 - 17 :=
      ⟨List.replicate (2 ^ 32 - 17) 0, List.length_replicate⟩
    refine ⟨⟨bytes, by omega⟩, ?_⟩
    have hwrap : (AddCall.data ⟨[97], by decide⟩ bytes).size = 2 ^ 32 := by
      simp [AddCall.size, hlength]
    rw [packCall_of_run rfl]
    cases hrun : (AddCall.data ⟨[97], by decide⟩ bytes).run (packNew fun _ => 0) none with
    | error fault =>
      cases fault with
      | refused =>
        rw [run_eq_refused_iff, hwrap] at hrun
        have hinBlock := (holds_packNew fun _ => 0).inBlock
        exact absurd ⟨by omega, Or.inl (by omega)⟩ hrun
      | overrun => rfl
    | ok q =>
      obtain ⟨-, -, hbytes⟩ := (Protocol.block_packNew fun _ => 0).run _ hrun
      rw [hwrap, Protocol.elementBytes, List.length_append, List.length_append,
        bytesBE_length] at hbytes
      omega

end SoftEtherVpn.Pack

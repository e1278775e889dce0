import SoftEtherVpn.Pack.RoundTrip

/-!
# The second PACK implementation

`softether_protocol.c` has its own static readers and writers. Its getters have the element
loop written out in each of them, without `pack_match_element`, and its writers fill a buffer
whose size was computed before with the `PACK_*_SZ` macros. Both implementations agree on
every body and on every element.
-/

namespace SoftEtherVpn.Pack

open Foundation

namespace Protocol

section Reader

variable (b : Buffer)

def packReadUint32Safe (p : ℕ) : Except Fault (ℕ × ℕ) :=
  if b.beyond p 4 then .error .malformed
  else (b.load p 4).map fun bytes => (natBE bytes, b.advance p 4)

def packSkipBytesSafe (len p : ℕ) : Except Fault ℕ :=
  if b.beyond p len then .error .malformed else .ok (b.advance p len)

def packSkipValueSafe (type p : ℕ) : Except Fault ℕ :=
  if type = typeInt then packSkipBytesSafe b 4 p
  else if type = typeInt64 then packSkipBytesSafe b 8 p
  else if type = typeStr ∨ type = typeUnistr ∨ type = typeData then do
    let (len, p) ← packReadUint32Safe b p
    packSkipBytesSafe b len p
  else .error .malformed

def skipValues (type : ℕ) : ℕ → ℕ → Except Fault ℕ
  | 0, p => .ok p
  | n + 1, p => do
    let p ← packSkipValueSafe b type p
    skipValues type n p

/-- The loop over the elements, as each getter has it; `read` takes the value off a match. -/
def elementLoop {α : Type} (fieldName : CString) (type : ℕ) (read : ℕ → Except Fault α) :
    ℕ → ℕ → Except Fault α
  | 0, _ => .error .malformed
  | n + 1, p => do
    let (nameLenPlus1, p) ← packReadUint32Safe b p
    if nameLenPlus1 = 0 then .error .malformed
    else
      let nameLen := nameLenPlus1 - 1
      if b.beyond p nameLen then .error .malformed
      else
        let elem ← b.load p (if nameLen < 63 then nameLen else 63)
        let (elemType, p) ← packReadUint32Safe b (b.advance p nameLen)
        let (numValues, p) ← packReadUint32Safe b p
        if numValues > 65535 then .error .malformed
        else if cString elem = fieldName.1 ∧ elemType = type ∧ 1 ≤ numValues then read p
        else
          let p ← skipValues b elemType numValues p
          elementLoop fieldName type read n p

def packGet {α : Type} (fieldName : CString) (type : ℕ) (read : ℕ → Except Fault α) :
    Except Fault α :=
  if b.body.length < 4 then .error .malformed
  else do
    let (numElements, p) ← packReadUint32Safe b b.base
    if numElements > 4096 then .error .malformed
    else elementLoop b fieldName type read numElements p

def packGetInt (fieldName : CString) : Except Fault ℕ :=
  packGet b fieldName typeInt fun p => (packReadUint32Safe b p).map Prod.fst

def packGetStr (fieldName : CString) (outSize : ℕ) : Except Fault Bytes :=
  if outSize = 0 then .error .malformed
  else packGet b fieldName typeStr fun p => do
    let (strLen, p) ← packReadUint32Safe b p
    if b.beyond p strLen then .error .malformed
    else
      let copyLen := if strLen < outSize - 1 then strLen else outSize - 1
      (b.load p copyLen).map (· ++ [0])

def packGetData (fieldName : CString) (outSize : ℕ) : Except Fault (Bytes × ℕ) :=
  if outSize = 0 then .error .malformed
  else packGet b fieldName typeData fun p => do
    let (dataLen, p) ← packReadUint32Safe b p
    if b.beyond p dataLen then .error .malformed
    else
      let copyLen := if dataLen < outSize then dataLen else outSize
      (b.load p copyLen).map fun copy => (copy, copyLen)

end Reader

/-! ### The writers -/

def packWriteUint32 (val : ℕ) (c : Cursor) : Option Cursor := c.put (bytesBE 4 val)

def packWriteElemName (name : CString) (c : Cursor) : Option Cursor := do
  let len := name.1.length % 2 ^ 32
  let c ← packWriteUint32 (len + 1) c
  c.put (name.1.take len)

def packWriteStrVal (str : CString) (c : Cursor) : Option Cursor := do
  let len := str.1.length % 2 ^ 32
  let c ← packWriteUint32 len c
  c.put (str.1.take len)

def packWriteDataVal (data : Bytes) (c : Cursor) : Option Cursor := do
  let c ← packWriteUint32 data.length c
  c.put data

def packAddInt (name : CString) (val : UInt32) (c : Cursor) : Option Cursor := do
  let c ← packWriteElemName name c
  let c ← packWriteUint32 typeInt c
  let c ← packWriteUint32 1 c
  packWriteUint32 val.toNat c

def packAddStr (name val : CString) (c : Cursor) : Option Cursor := do
  let c ← packWriteElemName name c
  let c ← packWriteUint32 typeStr c
  let c ← packWriteUint32 1 c
  packWriteStrVal val c

def packAddData (name : CString) (data : Bytes) (c : Cursor) : Option Cursor := do
  let c ← packWriteElemName name c
  let c ← packWriteUint32 typeData c
  let c ← packWriteUint32 1 c
  packWriteDataVal data c

def packNameSz (name : CString) : ℕ := (4 + name.1.length) % 2 ^ 32
def packElemHdrSz (name : CString) : ℕ := (packNameSz name + 8) % 2 ^ 32
def packIntSz (name : CString) : ℕ := (packElemHdrSz name + 4) % 2 ^ 32
def packStrSz (name val : CString) : ℕ := (packElemHdrSz name + 4 + val.1.length) % 2 ^ 32
def packDataSz (name : CString) (d : ℕ) : ℕ := (packElemHdrSz name + 4 + d) % 2 ^ 32

/-- An element that both implementations can write. -/
inductive Add
  | int (name : CString) (val : UInt32)
  | str (name val : CString)
  | data (name : CString) (bytes : Bytes)

namespace Add

def write : Add → Cursor → Option Cursor
  | .int name val => packAddInt name val
  | .str name val => packAddStr name val
  | .data name bytes => packAddData name bytes

/-- The `PACK_*_SZ` of the element. -/
def sz : Add → ℕ
  | .int name _ => packIntSz name
  | .str name val => packStrSz name val
  | .data name bytes => packDataSz name bytes.length

/-- The call of `softether_pack.c` that adds the element. -/
def call : Add → AddCall
  | .int name val => .int name val
  | .str name val => .str name val
  | .data name bytes => .data name bytes

end Add

/-! ### The readers agree -/

variable {b : Buffer}

theorem skipValues_eq (type n p : ℕ) : skipValues b type n p = Pack.skipValues b type n p := by
  induction n generalizing p with
  | zero => rfl
  | succ n ih =>
    simp only [skipValues, Pack.skipValues, ih]
    rfl

theorem packReadUint32Safe_eq (p : ℕ) : packReadUint32Safe b p = readUintSafe b 4 p := rfl

/-- The loop with the match written out finds what the loop over `pack_match_element` finds. -/
theorem elementLoop_eq {α : Type} (fieldName : CString) (type : ℕ) (read : ℕ → Except Fault α)
    (n p : ℕ) :
    elementLoop b fieldName type read n p =
      (searchLoop b fieldName type read n p).map Prod.fst := by
  induction n generalizing p with
  | zero => rfl
  | succ n ih =>
    simp only [elementLoop, searchLoop, packMatchElement, packReadName, packReadUint32Safe_eq,
      skipValues_eq]
    cases readUintSafe b 4 p with
    | error fault => rfl
    | ok r =>
      obtain ⟨nameLenPlus1, p⟩ := r
      by_cases hzero : nameLenPlus1 = 0
      · simp [hzero, bind, Except.bind, Except.map]
      by_cases hbeyond : b.beyond p (nameLenPlus1 - 1)
      · simp [hzero, hbeyond, bind, Except.bind, Except.map]
      simp only [bind, Except.bind, hzero, hbeyond, if_false]
      cases b.load p (if nameLenPlus1 - 1 < 63 then nameLenPlus1 - 1 else 63) with
      | error fault => rfl
      | ok elem =>
        simp only [Except.map]
        cases readUintSafe b 4 (b.advance p (nameLenPlus1 - 1)) with
        | error fault => rfl
        | ok r =>
          obtain ⟨elemType, p⟩ := r
          dsimp only
          cases readUintSafe b 4 p with
          | error fault => rfl
          | ok r =>
            obtain ⟨numValues, p⟩ := r
            dsimp only
            by_cases hmax : numValues > 65535
            · simp [hmax, maxValues]
            by_cases hmatch : cString elem = fieldName.1 ∧ elemType = type ∧ 1 ≤ numValues
            · rw [if_neg hmax, if_pos hmatch, if_neg (show ¬numValues > maxValues from hmax),
                if_pos hmatch]
              cases hread : read p <;> simp [hread]
            · simp only [hmax, maxValues, hmatch, if_false]
              cases Pack.skipValues b elemType numValues p with
              | error fault => rfl
              | ok p => exact ih p

theorem packGet_eq {α : Type} (fieldName : CString) (type : ℕ) (read : ℕ → Except Fault α) :
    packGet b fieldName type read = (Pack.packGet b fieldName type read).map Prod.fst := by
  unfold packGet Pack.packGet
  split_ifs
  · rfl
  · rw [packReadUint32Safe_eq]
    cases readUintSafe b 4 b.base with
    | error fault => rfl
    | ok r =>
      obtain ⟨numElements, p⟩ := r
      by_cases hmax : numElements > 4096
      · simp [bind, Except.bind, maxElements, hmax, Except.map]
      · simp only [bind, Except.bind, maxElements, hmax, if_false]
        exact elementLoop_eq fieldName type read numElements p

theorem packGetInt_eq (fieldName : CString) :
    packGetInt b fieldName = (Pack.packGetInt b fieldName).map Prod.fst :=
  packGet_eq fieldName typeInt _

theorem packGetStr_eq (fieldName : CString) (outSize : ℕ) :
    packGetStr b fieldName outSize = (Pack.packGetStr b fieldName outSize).map Prod.fst := by
  unfold packGetStr Pack.packGetStr
  split_ifs
  · rfl
  · exact packGet_eq fieldName typeStr (packReadStringSafe b outSize)

theorem packGetData_eq (fieldName : CString) (outSize : ℕ) :
    packGetData b fieldName outSize = (Pack.packGetData b fieldName outSize).map Prod.fst := by
  unfold packGetData Pack.packGetData
  split_ifs
  · rfl
  · exact packGet_eq fieldName typeData (packReadData b outSize)

/-! ### The writers agree -/

/-- The bytes of a name, with the 32-bit length of the code. -/
def nameBytes (name : CString) : Bytes :=
  bytesBE 4 (name.1.length % 2 ^ 32 + 1) ++ name.1.take (name.1.length % 2 ^ 32)

def valueBytes : AddCall → Bytes
  | .int _ val => bytesBE 4 val.toNat
  | .int64 _ val => bytesBE 8 val.toNat
  | .str _ val => bytesBE 4 (val.1.length % 2 ^ 32) ++ val.1.take (val.1.length % 2 ^ 32)
  | .data _ bytes => bytesBE 4 bytes.length ++ bytes

/-- The bytes of an element. -/
def elementBytes (call : AddCall) : Bytes :=
  nameBytes call.name ++ (bytesBE 4 call.type ++ (bytesBE 4 1 ++ valueBytes call))

theorem packWriteElemName_eq (name : CString) (c : Cursor) :
    Pack.packWriteElemName name c = c.put (nameBytes name) :=
  Cursor.put_put _ _ c

theorem writeVal_eq (call : AddCall) (c : Cursor) : call.writeVal c = c.put (valueBytes call) := by
  cases call with
  | int name val => rfl
  | int64 name val => rfl
  | str name val => exact Cursor.put_put _ _ c
  | data name bytes => exact Cursor.put_put _ _ c

/-- What `softether_pack.c` writes for an element is one write of its bytes. -/
theorem writeElement_eq (call : AddCall) (c : Cursor) :
    call.writeElement c = c.put (elementBytes call) := by
  simp only [AddCall.writeElement, packWriteElemName_eq, writeVal_eq, Pack.packWriteUint32]
  simp only [Cursor.put_put]
  rfl

theorem Add.write_eq (a : Add) (c : Cursor) : a.write c = c.put (elementBytes a.call) := by
  rw [← writeElement_eq]
  cases a <;> rfl

theorem length_take_mod (bs : Bytes) : (bs.take (bs.length % 2 ^ 32)).length = bs.length % 2 ^ 32 :=
  List.length_take_of_le (Nat.mod_le _ _)

/-- The reserved size counts the bytes of the element, as far as 32 bits do. -/
theorem length_elementBytes (call : AddCall) :
    (elementBytes call).length % 2 ^ 32 = call.size % 2 ^ 32 := by
  have hname : (nameBytes call.name).length = 4 + call.name.1.length % 2 ^ 32 := by
    rw [nameBytes, List.length_append, bytesBE_length, length_take_mod]
  simp only [elementBytes, List.length_append, bytesBE_length, hname]
  cases call with
  | int name val =>
    simp only [valueBytes, AddCall.size, AddCall.name, bytesBE_length]
    omega
  | int64 name val =>
    simp only [valueBytes, AddCall.size, AddCall.name, bytesBE_length]
    omega
  | str name val =>
    have hval := length_take_mod val.1
    simp only [valueBytes, AddCall.size, AddCall.name, bytesBE_length, List.length_append, hval]
    omega
  | data name bytes =>
    simp only [valueBytes, AddCall.size, AddCall.name, bytesBE_length, List.length_append]
    omega

theorem Add.size_mod (a : Add) : a.call.size % 2 ^ 32 = a.sz := by
  cases a <;>
    simp only [Add.call, AddCall.size, Add.sz, packIntSz, packStrSz, packDataSz, packElemHdrSz,
      packNameSz] <;>
    omega

/-- What holds for the block of every pack. -/
structure Block (p : SoftetherPack) : Prop where
  head : 4 ≤ p.len
  inBlock : p.len ≤ p.cap
  fits : p.cap < 2 ^ 32

theorem block_packNew (fill : Fill) : Block (packNew fill) := by
  have hcap : (packNew fill).cap = 256 := by
    simp [SoftetherPack.cap, packNew, packInitialCap]
  have hlen : (packNew fill).len = 4 := rfl
  constructor <;> omega

theorem growCap_lt {need newCap : ℕ} (h : 0 < newCap) (hneed : need < 2 ^ 32)
    (hcap : newCap < 2 ^ 32) : growCap need newCap h < 2 ^ 32 := by
  fun_induction growCap need newCap h with
  | case1 => exact hneed
  | case2 newCap h hlt hmax ih => exact ih (by omega)
  | case3 newCap h hle => exact hcap

theorem Block.reserve {p q : SoftetherPack} {add : ℕ} {realloc : Option Fill} (hp : Block p)
    (h : packReserve p add realloc = some q) : Block q := by
  obtain ⟨hlen, -, -, hroom⟩ := packReserve_spec h hp.inBlock
  have hhead := hp.head
  have hfits := hp.fits
  have hinBlock := hp.inBlock
  refine ⟨by omega, by omega, ?_⟩
  unfold packReserve at h
  split_ifs at h with hmax hroom' hpos
  · cases h
    exact hfits
  · obtain ⟨fill, -, rfl⟩ := Option.map_eq_some_iff.mp h
    have hgrow := growCap_lt hpos (show p.len + add < 2 ^ 32 by omega) hfits
    simp only [SoftetherPack.cap, List.length_append, List.length_map, List.length_range] at *
    omega
  · omega

/-- Writing and committing an element for which there is room. -/
theorem Block.commit {q : SoftetherPack} (hq : Block q) (call : AddCall)
    (hroom : q.len + (elementBytes call).length ≤ q.cap) :
    ∃ r, (call.writeElement ⟨q.data, q.len⟩ >>= fun c =>
        packCommitElement { q with data := c.data } (call.size % 2 ^ 32)) = some r ∧
      Block r ∧ r.contents.drop q.len = elementBytes call := by
  have hfits := hq.fits
  have hhead := hq.head
  have hcap : q.cap = q.data.length := rfl
  have hsize : call.size % 2 ^ 32 = (elementBytes call).length := by
    rw [← length_elementBytes, Nat.mod_eq_of_lt (by omega)]
  have hlength : (splice q.data q.len (elementBytes call)).length = q.data.length :=
    splice_length (by omega)
  obtain ⟨r, hr, hrlen, hrcap, -, hcontents⟩ := packCommitElement_spec
    { q with data := splice q.data q.len (elementBytes call) } (call.size % 2 ^ 32)
    (by simp only []; omega) (by simp only []; omega) hhead
  dsimp only at hrlen hcontents
  refine ⟨r, ?_, ⟨by omega, ?_, ?_⟩, ?_⟩
  · have hput : q.len + (elementBytes call).length ≤ q.data.length := by omega
    simp only [writeElement_eq, Cursor.put, if_pos hput, Option.bind_eq_bind, Option.bind_some, hr]
  · rw [hrcap, hrlen, hsize, SoftetherPack.cap, hlength]
    omega
  · rw [hrcap, SoftetherPack.cap, hlength]
    omega
  · rw [hcontents, hsize, splice_take _ _ (by omega), List.drop_append, bytesBE_length,
      List.drop_eq_nil_of_le (by rw [bytesBE_length]; omega), List.nil_append, List.drop_drop,
      Nat.add_sub_cancel' hhead, List.drop_left' (List.length_take_of_le (by omega))]

/-- A successful call of `softether_pack.c` appends the bytes of its element. -/
theorem Block.run {p p' : SoftetherPack} {realloc : Option Fill} (hp : Block p) (call : AddCall)
    (h : call.run p realloc = .ok p') :
    Block p' ∧ p'.contents.drop p.len = elementBytes call ∧
      (elementBytes call).length = call.size % 2 ^ 32 := by
  rw [call.run_eq] at h
  cases hreserve : packReserve p (call.size % 2 ^ 32) realloc with
  | none => simp only [hreserve, reduceCtorEq] at h
  | some q =>
    obtain ⟨hlen, -, -, -⟩ := packReserve_spec hreserve hp.inBlock
    have hq := hp.reserve hreserve
    have hfits := hq.fits
    have hroom : q.len + (elementBytes call).length ≤ q.cap := by
      by_contra hroom
      have hput : call.writeElement ⟨q.data, q.len⟩ = none := by
        rw [writeElement_eq]
        exact if_neg hroom
      simp only [hreserve, hput, Option.bind_eq_bind, Option.bind_none, reduceCtorEq] at h
    obtain ⟨r, hr, hblock, hdrop⟩ := hq.commit call hroom
    simp only [hreserve, hr, Except.ok.injEq] at h
    subst h
    refine ⟨hblock, hlen ▸ hdrop, ?_⟩
    rw [← length_elementBytes, Nat.mod_eq_of_lt (by omega)]

/-- A call for an element whose size fits 32 bits stays in the block. -/
theorem Block.run_inside {p : SoftetherPack} (realloc : Option Fill) (hp : Block p)
    (call : AddCall) (h : (elementBytes call).length < 2 ^ 32) :
    call.run p realloc ≠ .error .overrun := by
  rw [call.run_eq]
  cases hreserve : packReserve p (call.size % 2 ^ 32) realloc with
  | none => simp
  | some q =>
    obtain ⟨hlen, -, -, hroom⟩ := packReserve_spec hreserve hp.inBlock
    rw [← length_elementBytes, Nat.mod_eq_of_lt h, ← hlen] at hroom
    obtain ⟨r, hr, -⟩ := (hp.reserve hreserve).commit call hroom
    simp only [hr, ne_eq, reduceCtorEq, not_false_eq_true]

theorem block_packRun {p p' : SoftetherPack} (hp : Block p) {calls : List (AddCall × Option Fill)}
    (h : packRun p calls = .ok p') : Block p' := by
  induction calls generalizing p with
  | nil =>
    cases h
    exact hp
  | cons call calls ih =>
    simp only [packRun] at h
    cases hrun : call.1.run p call.2 with
    | error fault => simp [hrun, bind, Except.bind] at h
    | ok q =>
      simp only [hrun, bind, Except.bind] at h
      exact ih (hp.run call.1 hrun).1 h

/-- The two PACK implementations agree: the getters on every body, field and size of the
output, and the writers on every element. -/
theorem implementations_agree :
    (∀ (b : Buffer) (fieldName : CString) (outSize : ℕ),
      packGetInt b fieldName = (Pack.packGetInt b fieldName).map Prod.fst ∧
        packGetStr b fieldName outSize = (Pack.packGetStr b fieldName outSize).map Prod.fst ∧
        packGetData b fieldName outSize = (Pack.packGetData b fieldName outSize).map Prod.fst) ∧
    ∀ a : Add, ∃ bytes : Bytes,
      (∀ c : Cursor, a.write c = c.put bytes) ∧
      ∀ (fill : Fill) (calls : List (AddCall × Option Fill)) (p : SoftetherPack),
        packRun (packNew fill) calls = .ok p → ∀ realloc : Option Fill,
          (∀ p', a.call.run p realloc = .ok p' →
            p'.contents.drop p.len = bytes ∧ bytes.length = a.sz) ∧
          (bytes.length < 2 ^ 32 → a.call.run p realloc ≠ .error .overrun) := by
  refine ⟨fun b fieldName outSize => ⟨packGetInt_eq fieldName, packGetStr_eq fieldName outSize,
    packGetData_eq fieldName outSize⟩, ?_⟩
  intro a
  refine ⟨elementBytes a.call, a.write_eq, ?_⟩
  intro fill calls p hrun realloc
  have hp := block_packRun (block_packNew fill) hrun
  constructor
  · intro p' hadd
    obtain ⟨-, hdrop, hlength⟩ := hp.run a.call hadd
    exact ⟨hdrop, hlength.trans a.size_mod⟩
  · exact hp.run_inside realloc a.call

theorem okElement_agrees :
    ∃ p', Pack.packAddInt (packNew fun _ => 0) none okName 7 = .ok p' ∧
      (p'.contents.drop 4).length = packIntSz okName ∧
      ∀ c, packAddInt okName 7 c = c.put (p'.contents.drop 4) := by
  obtain ⟨bytes, hwrite, hadd⟩ := implementations_agree.2 (.int okName 7)
  obtain ⟨hok, hinside⟩ := hadd (fun _ => 0) [] (packNew fun _ => 0) rfl none
  cases hrun : Pack.packAddInt (packNew fun _ => 0) none okName 7 with
  | error fault =>
    have : (Pack.packAddInt (packNew fun _ => 0) none okName 7).isOk = true := by decide +kernel
    rw [hrun] at this
    cases this
  | ok p' =>
    obtain ⟨hdrop, hlength⟩ := hok p' hrun
    have hdrop : p'.contents.drop 4 = bytes := hdrop
    refine ⟨p', rfl, ?_, ?_⟩
    · rw [hdrop]
      exact hlength
    · rw [hdrop]
      exact hwrite

end Protocol

end SoftEtherVpn.Pack

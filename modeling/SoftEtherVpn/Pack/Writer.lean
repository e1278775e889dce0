import SoftEtherVpn.Foundation.Cursor
import SoftEtherVpn.Pack.Reader

/-!
# The PACK writer

A pack is a growing block whose first four bytes are the number of elements, patched after
every addition. Sizes are 32-bit numbers. The bytes that `malloc` and `realloc` leave in
the block come from the environment, as does the failure of `realloc`.
-/

namespace SoftEtherVpn.Pack

open Foundation

def packInitialCap : ℕ := 256

theorem packInitialCap_pos : 0 < packInitialCap := by decide

/-- The block of `cap` bytes, how many of them are used, and the number of elements. -/
structure SoftetherPack where
  data : Bytes
  len : ℕ
  numElements : ℕ
  deriving DecidableEq

def SoftetherPack.cap (p : SoftetherPack) : ℕ := p.data.length

/-- How a call of the writer can fail: it returns `-1`, or it has written behind the block. -/
inductive AddFault
  | refused
  | overrun
  deriving DecidableEq

/-- The bytes of a fresh block, by position. -/
abbrev Fill := ℕ → UInt8

def packNew (fill : Fill) : SoftetherPack where
  data := (List.range packInitialCap).map fill
  len := 4
  numElements := 0

def packWriteUint32 (val : ℕ) : Cursor → Option Cursor := Cursor.put (bytesBE 4 val)

def packWriteUint64 (val : ℕ) : Cursor → Option Cursor := Cursor.put (bytesBE 8 val)

def packWriteElemName (name : CString) (c : Cursor) : Option Cursor := do
  let len := name.1.length % 2 ^ 32
  let c ← packWriteUint32 (len + 1) c
  c.put (name.1.take len)

def packWriteStrVal (str : CString) (c : Cursor) : Option Cursor := do
  let len := str.1.length % 2 ^ 32
  let c ← packWriteUint32 len c
  c.put (str.1.take len)

def packWriteDataVal (data : Bytes) (c : Cursor) : Option Cursor := do
  let c ← packWriteUint32 data.length c
  c.put data

/-- The loop of `pack_reserve` that doubles the capacity. -/
def growCap (need newCap : ℕ) (h : 0 < newCap) : ℕ :=
  if newCap < need then
    if newCap > (2 ^ 32 - 1) / 2 then need else growCap need (newCap * 2) (by omega)
  else newCap
termination_by need - newCap

/-- `pack_reserve`; without a new block from `realloc` it fails when the old one is too small. -/
def packReserve (p : SoftetherPack) (add : ℕ) (realloc : Option Fill) : Option SoftetherPack :=
  if add > 2 ^ 32 - 1 - p.len then none
  else if p.len + add ≤ p.cap then some p
  else
    let newCap :=
      if h : 0 < p.cap then growCap (p.len + add) p.cap h
      else growCap (p.len + add) packInitialCap packInitialCap_pos
    realloc.map fun fill =>
      { p with data := p.data ++ (List.range (newCap - p.cap)).map fill }

def packCommitElement (p : SoftetherPack) (elemSize : ℕ) : Option SoftetherPack := do
  let numElements := (p.numElements + 1) % 2 ^ 32
  let c ← packWriteUint32 numElements ⟨p.data, 0⟩
  some ⟨c.data, (p.len + elemSize) % 2 ^ 32, numElements⟩

/-- The four `pack_add_*`: the name, the type, one value and the new count. -/
def packAdd (p : SoftetherPack) (realloc : Option Fill) (name : CString) (type valueSize : ℕ)
    (writeVal : Cursor → Option Cursor) : Except AddFault SoftetherPack :=
  let elemSize := (4 + name.1.length + 8 + valueSize) % 2 ^ 32
  match packReserve p elemSize realloc with
  | none => .error .refused
  | some p =>
    let written := do
      let c ← packWriteElemName name ⟨p.data, p.len⟩
      let c ← packWriteUint32 type c
      let c ← packWriteUint32 1 c
      let c ← writeVal c
      packCommitElement { p with data := c.data } elemSize
    match written with
    | none => .error .overrun
    | some p => .ok p

def packAddInt (p : SoftetherPack) (realloc : Option Fill) (name : CString) (val : UInt32) :
    Except AddFault SoftetherPack :=
  packAdd p realloc name typeInt 4 (packWriteUint32 val.toNat)

def packAddInt64 (p : SoftetherPack) (realloc : Option Fill) (name : CString) (val : UInt64) :
    Except AddFault SoftetherPack :=
  packAdd p realloc name typeInt64 8 (packWriteUint64 val.toNat)

def packAddStr (p : SoftetherPack) (realloc : Option Fill) (name val : CString) :
    Except AddFault SoftetherPack :=
  packAdd p realloc name typeStr (4 + val.1.length) (packWriteStrVal val)

def packAddData (p : SoftetherPack) (realloc : Option Fill) (name : CString) (data : Bytes) :
    Except AddFault SoftetherPack :=
  packAdd p realloc name typeData (4 + data.length) (packWriteDataVal data)

/-- `pack_data` together with `pack_length`. -/
def SoftetherPack.contents (p : SoftetherPack) : Bytes := p.data.take p.len

/-- A call of the writer. -/
inductive AddCall
  | int (name : CString) (val : UInt32)
  | int64 (name : CString) (val : UInt64)
  | str (name val : CString)
  | data (name : CString) (bytes : Bytes)

namespace AddCall

def name : AddCall → CString
  | .int name _ => name
  | .int64 name _ => name
  | .str name _ => name
  | .data name _ => name

/-- The bytes an element occupies. -/
def size : AddCall → ℕ
  | .int name _ => 4 + name.1.length + 8 + 4
  | .int64 name _ => 4 + name.1.length + 8 + 8
  | .str name val => 4 + name.1.length + 8 + (4 + val.1.length)
  | .data name bytes => 4 + name.1.length + 8 + (4 + bytes.length)

def run (p : SoftetherPack) (realloc : Option Fill) : AddCall → Except AddFault SoftetherPack
  | .int name val => packAddInt p realloc name val
  | .int64 name val => packAddInt64 p realloc name val
  | .str name val => packAddStr p realloc name val
  | .data name bytes => packAddData p realloc name bytes

end AddCall

/-- The calls in order, each with what `realloc` does in it, up to the first that fails. -/
def packRun (p : SoftetherPack) : List (AddCall × Option Fill) → Except AddFault SoftetherPack
  | [] => .ok p
  | call :: calls => do
    let p ← call.1.run p call.2
    packRun p calls

end SoftEtherVpn.Pack

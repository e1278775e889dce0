import SoftEtherVpn.Pack.Format

/-!
# The PACK readers

`pack_get_int`, `pack_get_int64`, `pack_get_str` and `pack_get_data`. The readers walk a
pointer over the body and compare `p + len` with the end before each access, so the model
keeps addresses and the width of a pointer: the sum wraps at the top of the address
space. A load outside the body ends the run.
-/

namespace SoftEtherVpn.Pack

open Foundation

/-- A body in memory. -/
structure Buffer where
  width : ℕ
  base : ℕ
  body : Bytes
  inSpace : base + body.length < 2 ^ width
  lengthFits : body.length < 2 ^ 32

def Buffer.last (b : Buffer) : ℕ := b.base + b.body.length

/-- How a reader can end without a value: it returns `-1`, or it has read outside the body. -/
inductive Fault
  | malformed
  | outside
  deriving DecidableEq

/-- A C string: its bytes, without the terminator. -/
def CString := { bs : Bytes // 0 ∉ bs }

def cString (mem : Bytes) : Bytes := mem.takeWhile (· ≠ 0)

section Reader

variable (b : Buffer)

def Buffer.advance (p len : ℕ) : ℕ := (p + len) % 2 ^ b.width

/-- The bounds check `*p + len > end`. -/
def Buffer.beyond (p len : ℕ) : Prop := b.last < b.advance p len

instance (p len : ℕ) : Decidable (b.beyond p len) := inferInstanceAs (Decidable (_ < _))

def Buffer.load (p n : ℕ) : Except Fault Bytes :=
  if n = 0 then .ok []
  else if b.base ≤ p ∧ p + n ≤ b.last then .ok ((b.body.drop (p - b.base)).take n)
  else .error .outside

/-- `pack_read_uint32_safe` and `pack_read_uint64_safe`, for a width of four or eight. -/
def readUintSafe (w p : ℕ) : Except Fault (ℕ × ℕ) :=
  if b.beyond p w then .error .malformed
  else (b.load p w).map fun bytes => (natBE bytes, b.advance p w)

def packSkipBytesSafe (len p : ℕ) : Except Fault ℕ :=
  if b.beyond p len then .error .malformed else .ok (b.advance p len)

def packSkipValueSafe (type p : ℕ) : Except Fault ℕ :=
  if type = typeInt then packSkipBytesSafe b 4 p
  else if type = typeInt64 then packSkipBytesSafe b 8 p
  else if type = typeStr ∨ type = typeUnistr ∨ type = typeData then do
    let (len, p) ← readUintSafe b 4 p
    packSkipBytesSafe b len p
  else .error .malformed

def skipValues (type : ℕ) : ℕ → ℕ → Except Fault ℕ
  | 0, p => .ok p
  | n + 1, p => do
    let p ← packSkipValueSafe b type p
    skipValues type n p

/-- The name of an element, as far as it fits the 64-byte scratch buffer `elem`. -/
def packReadName (p : ℕ) : Except Fault (Bytes × ℕ) := do
  let (nameLenPlus1, p) ← readUintSafe b 4 p
  if nameLenPlus1 = 0 then .error .malformed
  else if b.beyond p (nameLenPlus1 - 1) then .error .malformed
  else
    let nameLen := nameLenPlus1 - 1
    (b.load p (if nameLen < 63 then nameLen else 63)).map fun elem =>
      (elem, b.advance p nameLen)

/-- `pack_match_element`: whether the element matches, and the pointer behind the header
of a match or behind the whole element. -/
def packMatchElement (fieldName : CString) (type p : ℕ) : Except Fault (Bool × ℕ) := do
  let (elem, p) ← packReadName b p
  let (elemType, p) ← readUintSafe b 4 p
  let (numValues, p) ← readUintSafe b 4 p
  if numValues > maxValues then .error .malformed
  else if cString elem = fieldName.1 ∧ elemType = type ∧ 1 ≤ numValues then .ok (true, p)
  else (skipValues b elemType numValues p).map fun p => (false, p)

/-- The element loop of the getters; `read` takes the value off a match. The result also
says where the value was read. -/
def searchLoop {α : Type} (fieldName : CString) (type : ℕ) (read : ℕ → Except Fault α) :
    ℕ → ℕ → Except Fault (α × ℕ)
  | 0, _ => .error .malformed
  | n + 1, p => do
    let (matched, p) ← packMatchElement b fieldName type p
    if matched then (read p).map fun value => (value, p)
    else searchLoop fieldName type read n p

def packGet {α : Type} (fieldName : CString) (type : ℕ) (read : ℕ → Except Fault α) :
    Except Fault (α × ℕ) :=
  if b.body.length < 4 then .error .malformed
  else do
    let (numElements, p) ← readUintSafe b 4 b.base
    if numElements > maxElements then .error .malformed
    else searchLoop b fieldName type read numElements p

def packGetInt (fieldName : CString) : Except Fault (ℕ × ℕ) :=
  packGet b fieldName typeInt fun p => (readUintSafe b 4 p).map Prod.fst

def packGetInt64 (fieldName : CString) : Except Fault (ℕ × ℕ) :=
  packGet b fieldName typeInt64 fun p => (readUintSafe b 8 p).map Prod.fst

/-- `pack_read_string_safe` into a buffer of `outSize` bytes: what it holds afterwards. -/
def packReadStringSafe (outSize p : ℕ) : Except Fault Bytes := do
  let (len, p) ← readUintSafe b 4 p
  if b.beyond p len then .error .malformed
  else (b.load p (if len < outSize - 1 then len else outSize - 1)).map (· ++ [0])

def packGetStr (fieldName : CString) (outSize : ℕ) : Except Fault (Bytes × ℕ) :=
  if outSize = 0 then .error .malformed
  else packGet b fieldName typeStr (packReadStringSafe b outSize)

/-- The end of `pack_get_data`: the copied bytes and `*out_len`. -/
def packReadData (outSize p : ℕ) : Except Fault (Bytes × ℕ) := do
  let (dataLen, p) ← readUintSafe b 4 p
  if b.beyond p dataLen then .error .malformed
  else
    let copyLen := if dataLen < outSize then dataLen else outSize
    (b.load p copyLen).map fun copy => (copy, copyLen)

def packGetData (fieldName : CString) (outSize : ℕ) : Except Fault ((Bytes × ℕ) × ℕ) :=
  if outSize = 0 then .error .malformed
  else packGet b fieldName typeData (packReadData b outSize)

end Reader

end SoftEtherVpn.Pack

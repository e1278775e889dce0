import SoftEtherVpn.Foundation.Codec

/-!
# The PACK format

A PACK is a number of elements and then the elements. An element has a name, whose
length field counts one byte more than the name has, a type, a number of values and the
values. Integers are raw, the three other types of values carry their length.
-/

namespace SoftEtherVpn.Pack

open Foundation

def typeInt : ℕ := 0
def typeData : ℕ := 1
def typeStr : ℕ := 2
def typeUnistr : ℕ := 3
def typeInt64 : ℕ := 4
def maxElements : ℕ := 4096
def maxValues : ℕ := 65535

/-- The name of an element. -/
def nameCodec : Codec Bytes where
  Ok name := name.length + 1 < 256 ^ 4
  encode name := bytesBE 4 (name.length + 1) ++ name
  decode bs := (readBE 4 bs).bind fun r =>
    if r.1 = 0 then none else (Codec.raw (r.1 - 1)).decode r.2
  decode_encode name rest h := by
    rw [List.append_assoc, readBE_bytesBE, Nat.mod_eq_of_lt h]
    exact (Codec.raw name.length).decode_encode name rest rfl
  of_decode bs name rest h := by
    obtain ⟨r, hr, h⟩ := Option.bind_eq_some_iff.mp h
    split_ifs at h with hzero
    obtain ⟨hnum, hbs⟩ := (Codec.num 4).of_decode _ _ _ hr
    obtain ⟨hlen, hrest⟩ := (Codec.raw (r.1 - 1)).of_decode _ _ _ h
    have hlen' : name.length + 1 = r.1 := by
      have : name.length = r.1 - 1 := hlen
      omega
    refine ⟨hlen'.trans_lt hnum, ?_⟩
    rw [hbs, hrest, hlen', List.append_assoc]
    rfl

/-- The payload of a value. -/
def valueCodec (type : ℕ) : Codec Bytes :=
  if type = typeInt then .raw 4
  else if type = typeInt64 then .raw 8
  else if type = typeStr ∨ type = typeUnistr ∨ type = typeData then .blob 4
  else .never

/-- Name, type and number of values. -/
abbrev Header := Bytes × ℕ × ℕ

namespace Header

def name (h : Header) : Bytes := h.1
def type (h : Header) : ℕ := h.2.1
def numValues (h : Header) : ℕ := h.2.2

end Header

def headerCodec : Codec Header :=
  nameCodec.seq fun _ => (Codec.num 4).seq fun _ => (Codec.num 4).sub (· ≤ maxValues)

/-- An element with its values. -/
abbrev Element := Header × List Bytes

def elementCodec : Codec Element :=
  headerCodec.seq fun h => (valueCodec h.type).many h.numValues

theorem headerCodec_length_pos (h : Header) : 0 < (headerCodec.encode h).length := by
  simp [headerCodec, Codec.seq, nameCodec]

end SoftEtherVpn.Pack

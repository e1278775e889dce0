import SoftEtherVpn.Foundation.Bytes

/-!
# IPv4 addresses as text

`inet_ntop` and `inet_pton` for `AF_INET`. The text of an address is four decimal numbers with
dots between them; a number has at most three digits and no leading zero.
-/

namespace SoftEtherVpn.Net

open Foundation

/-- `struct in_addr`: the four bytes in network order. -/
structure InAddr where
  a : UInt8
  b : UInt8
  c : UInt8
  d : UInt8
  deriving DecidableEq

def inaddrAny : InAddr := ⟨0, 0, 0, 0⟩

def dot : UInt8 := 46

def digit (n : ℕ) : UInt8 := UInt8.ofNat (48 + n % 10)

def decimal (byte : UInt8) : Bytes :=
  let n := byte.toNat
  if n < 10 then [digit n]
  else if n < 100 then [digit (n / 10), digit n]
  else [digit (n / 100), digit (n / 10), digit n]

/-- A decimal number of at most three digits that fits a byte. -/
def octet (text : Bytes) : Option UInt8 :=
  if text = [] ∨ 3 < text.length ∨ (1 < text.length ∧ text.head? = some (digit 0)) then none
  else if text.all fun ch => 48 ≤ ch ∧ ch ≤ 57 then
    let n := text.foldl (fun acc ch => 10 * acc + (ch.toNat - 48)) 0
    if n ≤ 255 then some (UInt8.ofNat n) else none
  else none

def inetNtop (ip : InAddr) : Bytes :=
  [dot].intercalate [decimal ip.a, decimal ip.b, decimal ip.c, decimal ip.d]

def inetPton (text : Bytes) : Option InAddr :=
  match (text.splitOn dot).map octet with
  | [some a, some b, some c, some d] => some ⟨a, b, c, d⟩
  | _ => none

theorem octet_decimal (byte : UInt8) : octet (decimal byte) = some byte := by
  have hall : ∀ n : Fin 256, octet (decimal (UInt8.ofFin n)) = some (UInt8.ofFin n) := by
    decide +kernel
  exact hall byte.toFin

theorem dot_notMem_decimal (byte : UInt8) : dot ∉ decimal byte := by
  have hall : ∀ n : Fin 256, dot ∉ decimal (UInt8.ofFin n) := by decide +kernel
  exact hall byte.toFin

theorem zero_notMem_decimal (byte : UInt8) : 0 ∉ decimal byte := by
  have hall : ∀ n : Fin 256, 0 ∉ decimal (UInt8.ofFin n) := by decide +kernel
  exact hall byte.toFin

theorem decimal_length_le (byte : UInt8) : (decimal byte).length ≤ 3 := by
  unfold decimal
  dsimp only
  split_ifs <;> simp

theorem inetPton_inetNtop (ip : InAddr) : inetPton (inetNtop ip) = some ip := by
  have hsplit : (inetNtop ip).splitOn dot =
      [decimal ip.a, decimal ip.b, decimal ip.c, decimal ip.d] := by
    apply List.splitOn_intercalate
    · intro part hpart
      simp only [List.mem_cons, List.not_mem_nil, or_false] at hpart
      rcases hpart with rfl | rfl | rfl | rfl <;> exact dot_notMem_decimal _
    · simp
  simp only [inetPton, hsplit, List.map_cons, List.map_nil, octet_decimal]

theorem inetNtop_eq (ip : InAddr) :
    inetNtop ip = decimal ip.a ++ (dot :: (decimal ip.b ++ (dot :: (decimal ip.c ++
      (dot :: decimal ip.d))))) := by
  simp [inetNtop, List.intercalate]

/-- The text and its terminator fit `INET_ADDRSTRLEN` bytes. -/
theorem inetNtop_length_le (ip : InAddr) : (inetNtop ip).length ≤ 15 := by
  have ha := decimal_length_le ip.a
  have hb := decimal_length_le ip.b
  have hc := decimal_length_le ip.c
  have hd := decimal_length_le ip.d
  rw [inetNtop_eq]
  simp only [List.length_append, List.length_cons]
  omega

theorem zero_notMem_inetNtop (ip : InAddr) : 0 ∉ inetNtop ip := by
  have ha := zero_notMem_decimal ip.a
  have hb := zero_notMem_decimal ip.b
  have hc := zero_notMem_decimal ip.c
  have hd := zero_notMem_decimal ip.d
  rw [inetNtop_eq]
  simp [ha, hb, hc, hd, dot]

end SoftEtherVpn.Net

import SoftEtherVpn.Foundation.Bytes

/-!
# Self-delimiting encodings

A codec is an encoder and a decoder that takes one value off the front of a byte string.
The two laws make decoding exact: a decoder succeeds precisely on the encodings of the
values it admits. Codecs compose in sequence, where the second part may depend on the
value of the first, and by repetition.
-/

namespace SoftEtherVpn.Foundation

structure Codec (α : Type*) where
  Ok : α → Prop
  encode : α → Bytes
  decode : Bytes → Option (α × Bytes)
  decode_encode : ∀ a rest, Ok a → decode (encode a ++ rest) = some (a, rest)
  of_decode : ∀ bs a rest, decode bs = some (a, rest) → Ok a ∧ bs = encode a ++ rest

namespace Codec

variable {α β : Type*}

/-- An encoded value is read off in one way only. -/
theorem encode_append_inj (c : Codec α) {a a' : α} {rest rest' : Bytes} (ha : c.Ok a)
    (ha' : c.Ok a') (h : c.encode a ++ rest = c.encode a' ++ rest') : a = a' ∧ rest = rest' := by
  have hd := c.decode_encode a rest ha
  rw [h, c.decode_encode a' rest' ha'] at hd
  simpa [eq_comm] using hd

/-- A `w`-byte big-endian number. -/
def num (w : ℕ) : Codec ℕ where
  Ok n := n < 256 ^ w
  encode := bytesBE w
  decode := readBE w
  decode_encode n rest hn := by rw [readBE_bytesBE, Nat.mod_eq_of_lt hn]
  of_decode bs n rest h := by
    unfold readBE at h
    split_ifs at h with hshort
    obtain ⟨rfl, rfl⟩ := Prod.mk.inj (Option.some.inj h)
    have hlen : (bs.take w).length = w := List.length_take_of_le (not_lt.mp hshort)
    have hlt := natBE_lt (bs.take w)
    have hback := bytesBE_natBE (bs.take w)
    rw [hlen] at hlt hback
    exact ⟨hlt, by rw [hback, List.take_append_drop]⟩

/-- `n` bytes as they are. -/
def raw (n : ℕ) : Codec Bytes where
  Ok bs := bs.length = n
  encode bs := bs
  decode bs := if bs.length < n then none else some (bs.take n, bs.drop n)
  decode_encode bs rest h := by
    have hlen : ¬(bs ++ rest).length < n := by
      rw [List.length_append]
      omega
    rw [if_neg hlen, List.take_left' h, List.drop_left' h]
  of_decode bs a rest h := by
    split_ifs at h with hshort
    obtain ⟨rfl, rfl⟩ := Prod.mk.inj (Option.some.inj h)
    exact ⟨List.length_take_of_le (not_lt.mp hshort), (List.take_append_drop n bs).symm⟩

/-- Nothing is encoded. -/
def never : Codec α where
  Ok _ := False
  encode _ := []
  decode _ := none
  decode_encode _ _ h := h.elim
  of_decode _ _ _ h := by cases h

/-- The values of `c` that satisfy `p`. -/
def sub (c : Codec α) (p : α → Prop) [DecidablePred p] : Codec α where
  Ok a := c.Ok a ∧ p a
  encode := c.encode
  decode bs := (c.decode bs).bind fun r => if p r.1 then some r else none
  decode_encode a rest h := by simp [c.decode_encode a rest h.1, h.2]
  of_decode bs a rest h := by
    obtain ⟨r, hr, hp⟩ := Option.bind_eq_some_iff.mp h
    split_ifs at hp with hpa
    cases hp
    obtain ⟨hok, hbs⟩ := c.of_decode bs a rest hr
    exact ⟨⟨hok, hpa⟩, hbs⟩

/-- A value of `c` and behind it one of `d`, which may depend on the first. -/
def seq (c : Codec α) (d : α → Codec β) : Codec (α × β) where
  Ok r := c.Ok r.1 ∧ (d r.1).Ok r.2
  encode r := c.encode r.1 ++ (d r.1).encode r.2
  decode bs := (c.decode bs).bind fun r =>
    ((d r.1).decode r.2).map fun r' => ((r.1, r'.1), r'.2)
  decode_encode r rest h := by
    rw [List.append_assoc, c.decode_encode _ _ h.1]
    simp [(d r.1).decode_encode _ rest h.2]
  of_decode bs r rest h := by
    obtain ⟨r1, h1, h⟩ := Option.bind_eq_some_iff.mp h
    obtain ⟨r2, h2, h⟩ := Option.map_eq_some_iff.mp h
    cases h
    obtain ⟨hok1, hbs1⟩ := c.of_decode _ _ _ h1
    obtain ⟨hok2, hbs2⟩ := (d r1.1).of_decode _ _ _ h2
    exact ⟨⟨hok1, hok2⟩, by rw [hbs1, hbs2, List.append_assoc]⟩

/-- A number of bytes and behind it that many bytes. -/
def blob (w : ℕ) : Codec Bytes where
  Ok bs := bs.length < 256 ^ w
  encode bs := bytesBE w bs.length ++ bs
  decode bs := (readBE w bs).bind fun r => (raw r.1).decode r.2
  decode_encode bs rest h := by
    rw [List.append_assoc, readBE_bytesBE, Nat.mod_eq_of_lt h]
    exact (raw bs.length).decode_encode bs rest rfl
  of_decode bs a rest h := by
    obtain ⟨r, hr, h⟩ := Option.bind_eq_some_iff.mp h
    obtain ⟨hnum, hbs⟩ := (num w).of_decode _ _ _ hr
    obtain ⟨hlen, hrest⟩ := (raw r.1).of_decode _ _ _ h
    have hlen' : a.length = r.1 := hlen
    refine ⟨hlen'.trans_lt hnum, ?_⟩
    rw [hbs, hrest, hlen', List.append_assoc]
    rfl

def decodeMany (c : Codec α) : ℕ → Bytes → Option (List α × Bytes)
  | 0, bs => some ([], bs)
  | n + 1, bs => (c.decode bs).bind fun r =>
    (decodeMany c n r.2).map fun r' => (r.1 :: r'.1, r'.2)

theorem decodeMany_encode (c : Codec α) (as : List α) (rest : Bytes) (h : ∀ a ∈ as, c.Ok a) :
    c.decodeMany as.length (as.flatMap c.encode ++ rest) = some (as, rest) := by
  induction as with
  | nil => rfl
  | cons a as ih =>
    have ha := c.decode_encode a (as.flatMap c.encode ++ rest) (h a List.mem_cons_self)
    have has := ih fun a' ha' => h a' (List.mem_cons_of_mem a ha')
    simp [decodeMany, ha, has]

theorem of_decodeMany (c : Codec α) {n : ℕ} {bs rest : Bytes} {as : List α}
    (h : c.decodeMany n bs = some (as, rest)) :
    as.length = n ∧ (∀ a ∈ as, c.Ok a) ∧ bs = as.flatMap c.encode ++ rest := by
  induction n generalizing bs as with
  | zero =>
    cases h
    simp
  | succ n ih =>
    obtain ⟨r, hr, h⟩ := Option.bind_eq_some_iff.mp h
    obtain ⟨r', hr', h⟩ := Option.map_eq_some_iff.mp h
    cases h
    obtain ⟨hok, hbs⟩ := c.of_decode _ _ _ hr
    obtain ⟨hlen, hoks, hbs'⟩ := ih hr'
    refine ⟨by simp [hlen], ?_, ?_⟩
    · intro a ha
      rcases List.mem_cons.mp ha with rfl | ha
      · exact hok
      · exact hoks a ha
    · rw [hbs, hbs', List.flatMap_cons, List.append_assoc]

/-- `n` values of `c`. -/
def many (c : Codec α) (n : ℕ) : Codec (List α) where
  Ok as := as.length = n ∧ ∀ a ∈ as, c.Ok a
  encode as := as.flatMap c.encode
  decode := c.decodeMany n
  decode_encode as rest h := by
    rw [← h.1]
    exact c.decodeMany_encode as rest h.2
  of_decode bs as rest h := by
    obtain ⟨hlen, hoks, hbs⟩ := c.of_decodeMany h
    exact ⟨⟨hlen, hoks⟩, hbs⟩

end Codec

end SoftEtherVpn.Foundation

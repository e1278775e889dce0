import SoftEtherVpn.Pack.Reader

/-!
# The readers on the rest of the body

A pointer into the body is the part of the body behind it, and the readers are decoders of
the format that search the elements one after the other. That holds as long as no sum of a
pointer and a length wraps: in an address space with room above the body, and everywhere for
a body the decoders accept.
-/

namespace SoftEtherVpn.Pack

open Foundation

/-- The comparison of `pack_match_element`: it sees the first 63 bytes of a name up to the
first NUL. -/
def LooksLike (name : Bytes) (fieldName : CString) : Prop := cString (name.take 63) = fieldName.1

instance (name : Bytes) (fieldName : CString) : Decidable (LooksLike name fieldName) :=
  inferInstanceAs (Decidable (_ = _))

def Header.Matches (h : Header) (fieldName : CString) (type : ℕ) : Prop :=
  LooksLike h.name fieldName ∧ h.type = type ∧ 1 ≤ h.numValues

instance (h : Header) (fieldName : CString) (type : ℕ) : Decidable (h.Matches fieldName type) :=
  inferInstanceAs (Decidable (_ ∧ _ ∧ _))

/-- The first value of the first matching element and the bytes from that value on, if there
is one; `none` for malformed bytes. -/
def search (fieldName : CString) (type : ℕ) : ℕ → Bytes → Option (Option (Bytes × Bytes))
  | 0, _ => some none
  | n + 1, bs => (headerCodec.decode bs).bind fun r =>
    if r.1.Matches fieldName type then
      ((valueCodec type).decode r.2).map fun v => some (v.1, r.2)
    else
      ((valueCodec r.1.type).decodeMany r.1.numValues r.2).bind fun r' =>
        search fieldName type n r'.2

def searchBody (fieldName : CString) (type : ℕ) (body : Bytes) :
    Option (Option (Bytes × Bytes)) :=
  (readBE 4 body).bind fun r =>
    if r.1 > maxElements then none else search fieldName type r.1 r.2

/-- The pointer behind which the bytes `bs` of the body lie. -/
def Buffer.ptr (b : Buffer) (bs : Bytes) : ℕ := b.last - bs.length

/-- What a decoder's result is for a reader. -/
def Buffer.lift {α : Type} (b : Buffer) : Option (α × Bytes) → Except Fault (α × ℕ)
  | none => .error .malformed
  | some (a, rest) => .ok (a, b.ptr rest)

section Reach

variable (b : Buffer)

/-- The sum `p + len` does not wrap for the pointer `p` to the bytes `bs`. -/
def Buffer.InReach (bs : Bytes) (len : ℕ) : Prop := b.ptr bs + len < 2 ^ b.width

/-- No sum wraps while a value is read off the bytes. -/
def valueInReach (type : ℕ) (bs : Bytes) : Prop :=
  if type = typeInt then b.InReach bs 4
  else if type = typeInt64 then b.InReach bs 8
  else if type = typeStr ∨ type = typeUnistr ∨ type = typeData then
    b.InReach bs 4 ∧ ∀ r, readBE 4 bs = some r → b.InReach r.2 r.1
  else True

def valuesInReach (type : ℕ) : ℕ → Bytes → Prop
  | 0, _ => True
  | n + 1, bs => valueInReach b type bs ∧
    ∀ r, (valueCodec type).decode bs = some r → valuesInReach type n r.2

def nameInReach (bs : Bytes) : Prop :=
  b.InReach bs 4 ∧ ∀ r, readBE 4 bs = some r → r.1 ≠ 0 → b.InReach r.2 (r.1 - 1)

def headerInReach (bs : Bytes) : Prop :=
  nameInReach b bs ∧ ∀ r, nameCodec.decode bs = some r →
    b.InReach r.2 4 ∧ ∀ r', readBE 4 r.2 = some r' → b.InReach r'.2 4

def searchInReach (fieldName : CString) (type : ℕ) : ℕ → Bytes → Prop
  | 0, _ => True
  | n + 1, bs => headerInReach b bs ∧ ∀ r, headerCodec.decode bs = some r →
    if r.1.Matches fieldName type then valueInReach b type r.2
    else valuesInReach b r.1.type r.1.numValues r.2 ∧
      ∀ r', (valueCodec r.1.type).decodeMany r.1.numValues r.2 = some r' →
        searchInReach fieldName type n r'.2

/-- No sum `p + len` wraps while the body is searched. In a 64-bit address space none ever
does; in a 32-bit one the length field of a name, a string or data can make it wrap. -/
def Buffer.WalkInReach (fieldName : CString) (type : ℕ) : Prop :=
  ∀ r, readBE 4 b.body = some r → r.1 ≤ maxElements → searchInReach b fieldName type r.1 r.2

end Reach

theorem readBE_suffix {w n : ℕ} {bs rest : Bytes} (h : readBE w bs = some (n, rest)) :
    rest <:+ bs := by
  obtain ⟨-, hbs⟩ := (Codec.num w).of_decode _ _ _ h
  exact ⟨bytesBE w n, hbs.symm⟩

theorem decode_suffix {α : Type} (c : Codec α) {a : α} {bs rest : Bytes}
    (h : c.decode bs = some (a, rest)) : rest <:+ bs :=
  ⟨c.encode a, (c.of_decode _ _ _ h).2.symm⟩

section Pointers

variable {b : Buffer} {bs : Bytes}

theorem Buffer.InReach.advance_ptr {len : ℕ} (h : b.InReach bs len) :
    b.advance (b.ptr bs) len = b.ptr bs + len :=
  Nat.mod_eq_of_lt h

theorem Buffer.InReach.beyond_ptr {len : ℕ} (h : b.InReach bs len) (hs : bs <:+ b.body) :
    b.beyond (b.ptr bs) len ↔ bs.length < len := by
  have hle := hs.length_le
  rw [Buffer.beyond, h.advance_ptr, Buffer.ptr, Buffer.last]
  omega

theorem Buffer.ptr_drop (hs : bs <:+ b.body) {n : ℕ} (hn : n ≤ bs.length) :
    b.ptr bs + n = b.ptr (bs.drop n) := by
  have hle := hs.length_le
  rw [Buffer.ptr, Buffer.ptr, Buffer.last, List.length_drop]
  omega

theorem Buffer.load_ptr (hs : bs <:+ b.body) {n : ℕ} (hn : n ≤ bs.length) :
    b.load (b.ptr bs) n = .ok (bs.take n) := by
  have hle := hs.length_le
  unfold Buffer.load
  split_ifs with hzero hin
  · simp [hzero]
  · have hoff : b.ptr bs - b.base = b.body.length - bs.length := by
      rw [Buffer.ptr, Buffer.last]
      omega
    rw [hoff, ← List.suffix_iff_eq_drop.mp hs]
  · exfalso
    apply hin
    rw [Buffer.ptr, Buffer.last]
    omega

theorem readUintSafe_ptr {w : ℕ} (hs : bs <:+ b.body) (hb : b.InReach bs w) :
    readUintSafe b w (b.ptr bs) = b.lift (readBE w bs) := by
  unfold readUintSafe readBE
  simp only [hb.beyond_ptr hs]
  split_ifs with hshort
  · rfl
  · have hle := not_lt.mp hshort
    rw [Buffer.load_ptr hs hle, hb.advance_ptr, Buffer.ptr_drop hs hle]
    rfl

theorem packSkipBytesSafe_ptr {len : ℕ} (hs : bs <:+ b.body) (hb : b.InReach bs len) :
    packSkipBytesSafe b len (b.ptr bs) =
      (b.lift ((Codec.raw len).decode bs)).map Prod.snd := by
  unfold packSkipBytesSafe
  simp only [hb.beyond_ptr hs, Codec.raw]
  split_ifs with hshort
  · rfl
  · rw [hb.advance_ptr, Buffer.ptr_drop hs (not_lt.mp hshort)]
    rfl

theorem packSkipValueSafe_ptr (type : ℕ) (hs : bs <:+ b.body) (hb : valueInReach b type bs) :
    packSkipValueSafe b type (b.ptr bs) =
      (b.lift ((valueCodec type).decode bs)).map Prod.snd := by
  unfold packSkipValueSafe valueCodec
  unfold valueInReach at hb
  split_ifs at hb ⊢
  · exact packSkipBytesSafe_ptr hs hb
  · exact packSkipBytesSafe_ptr hs hb
  · obtain ⟨hlen, hbytes⟩ := hb
    simp only [Codec.blob]
    rw [readUintSafe_ptr hs hlen]
    cases hread : readBE 4 bs with
    | none => rfl
    | some r => exact packSkipBytesSafe_ptr ((readBE_suffix hread).trans hs) (hbytes r hread)
  · rfl

theorem skipValues_ptr (type n : ℕ) :
    ∀ bs : Bytes, bs <:+ b.body → valuesInReach b type n bs →
      skipValues b type n (b.ptr bs) =
        (b.lift ((valueCodec type).decodeMany n bs)).map Prod.snd := by
  induction n with
  | zero =>
    intro bs hs hb
    rfl
  | succ n ih =>
    rintro bs hs ⟨hvalue, hvalues⟩
    rw [skipValues, packSkipValueSafe_ptr type hs hvalue, Codec.decodeMany]
    cases hdecode : (valueCodec type).decode bs with
    | none => rfl
    | some r =>
      have hrest := (decode_suffix _ hdecode).trans hs
      change skipValues b type n (b.ptr r.2) = _
      rw [ih r.2 hrest (hvalues r hdecode)]
      simp only [Option.bind_some]
      cases (valueCodec type).decodeMany n r.2 <;> rfl

theorem packReadName_ptr (hs : bs <:+ b.body) (hb : nameInReach b bs) :
    packReadName b (b.ptr bs) =
      b.lift ((nameCodec.decode bs).map fun r => (r.1.take 63, r.2)) := by
  obtain ⟨hlenReach, hnameReach⟩ := hb
  simp only [nameCodec]
  unfold packReadName
  rw [readUintSafe_ptr hs hlenReach]
  cases hread : readBE 4 bs with
  | none => rfl
  | some r =>
    obtain ⟨len, rest⟩ := r
    have hrest := (readBE_suffix hread).trans hs
    by_cases hzero : len = 0
    · simp only [hzero]
      rfl
    · have hreach := hnameReach _ hread hzero
      simp only [Buffer.lift, bind, Except.bind, if_neg hzero, hreach.beyond_ptr hrest,
        hreach.advance_ptr, Option.bind_some, Codec.raw]
      by_cases hshort : rest.length < len - 1
      · simp only [if_pos hshort]
        rfl
      · have hle := not_lt.mp hshort
        have htake : (if len - 1 < 63 then len - 1 else 63) = min 63 (len - 1) := by
          split_ifs <;> omega
        rw [if_neg hshort, if_neg hshort, htake, Buffer.load_ptr hrest (by omega),
          Buffer.ptr_drop hrest hle]
        simp [List.take_take]
        rfl

/-- A header, and the values behind it unless it matches. -/
def matchElement (fieldName : CString) (type : ℕ) (bs : Bytes) : Option (Bool × Bytes) :=
  (headerCodec.decode bs).bind fun r =>
    if r.1.Matches fieldName type then some (true, r.2)
    else ((valueCodec r.1.type).decodeMany r.1.numValues r.2).map fun r' => (false, r'.2)

theorem packMatchElement_ptr (fieldName : CString) (type : ℕ) (hs : bs <:+ b.body)
    (hheader : headerInReach b bs)
    (hvalues : ∀ r, headerCodec.decode bs = some r → ¬r.1.Matches fieldName type →
      valuesInReach b r.1.type r.1.numValues r.2) :
    packMatchElement b fieldName type (b.ptr bs) = b.lift (matchElement fieldName type bs) := by
  obtain ⟨hnameReach, hfieldsReach⟩ := hheader
  unfold packMatchElement matchElement
  simp only [headerCodec, Codec.seq] at hvalues ⊢
  rw [packReadName_ptr hs hnameReach]
  cases hname : nameCodec.decode bs with
  | none => rfl
  | some r =>
    obtain ⟨name, rest⟩ := r
    have hrest := (decode_suffix _ hname).trans hs
    obtain ⟨htypeReach, hnumReach⟩ := hfieldsReach _ hname
    simp only [hname, Option.bind_some, Codec.num, Codec.sub] at hvalues
    simp only [Buffer.lift, Option.bind_some, Option.map_some, bind, Except.bind]
    rw [readUintSafe_ptr hrest htypeReach]
    simp only [Codec.num, Codec.sub]
    cases htype : readBE 4 rest with
    | none => rfl
    | some r =>
      obtain ⟨elemType, rest⟩ := r
      have hrest := (readBE_suffix htype).trans hrest
      simp only [htype, Option.bind_some] at hvalues
      simp only [Buffer.lift, Option.bind_some]
      rw [readUintSafe_ptr hrest (hnumReach _ htype)]
      cases hnum : readBE 4 rest with
      | none => rfl
      | some r =>
        obtain ⟨numValues, rest⟩ := r
        have hrest := (readBE_suffix hnum).trans hrest
        by_cases hmax : numValues > maxValues
        · simp only [Buffer.lift, Option.bind_some, if_pos hmax, if_neg (not_le.mpr hmax)]
          rfl
        · simp only [hnum, Option.bind_some, Option.map_some, if_pos (not_lt.mp hmax)] at hvalues
          simp only [Buffer.lift, Option.bind_some, Option.map_some, if_neg hmax,
            if_pos (not_lt.mp hmax)]
          by_cases hmatch : Header.Matches (name, elemType, numValues) fieldName type
          · rw [if_pos hmatch]
            exact if_pos hmatch
          · rw [if_neg hmatch]
            refine (if_neg hmatch).trans ?_
            rw [skipValues_ptr elemType numValues rest hrest (hvalues _ rfl hmatch)]
            simp only [Header.type, Header.numValues]
            cases (valueCodec elemType).decodeMany numValues rest <;> rfl

variable {α : Type} {read : ℕ → Except Fault α} {out : Bytes → α} {type : ℕ}

/-- `read` takes a value of the type off the body and hands out `out` of it. -/
def Reads (b : Buffer) (type : ℕ) (read : ℕ → Except Fault α) (out : Bytes → α) : Prop :=
  ∀ bs : Bytes, bs <:+ b.body → valueInReach b type bs →
    read (b.ptr bs) =
      match (valueCodec type).decode bs with
      | none => .error .malformed
      | some (v, _) => .ok (out v)

theorem searchLoop_ptr (hread : Reads b type read out) (fieldName : CString) (n : ℕ) :
    ∀ bs : Bytes, bs <:+ b.body → searchInReach b fieldName type n bs →
      searchLoop b fieldName type read n (b.ptr bs) =
        b.lift ((search fieldName type n bs).join.map fun r => (out r.1, r.2)) := by
  induction n with
  | zero =>
    intro bs hs hb
    rfl
  | succ n ih =>
    rintro bs hs ⟨hheaderReach, hb⟩
    have hvaluesReach : ∀ r, headerCodec.decode bs = some r → ¬r.1.Matches fieldName type →
        valuesInReach b r.1.type r.1.numValues r.2 := by
      intro r hr hmatch
      have hreach := hb r hr
      rw [if_neg hmatch] at hreach
      exact hreach.1
    rw [searchLoop, packMatchElement_ptr fieldName type hs hheaderReach hvaluesReach, search,
      matchElement]
    cases hheader : headerCodec.decode bs with
    | none => rfl
    | some r =>
      obtain ⟨h, rest⟩ := r
      have hrest := (decode_suffix _ hheader).trans hs
      have hreach := hb _ hheader
      simp only [Option.bind_some]
      by_cases hmatch : h.Matches fieldName type
      · rw [if_pos hmatch] at hreach
        rw [if_pos hmatch, if_pos hmatch]
        change (read (b.ptr rest)).map _ = _
        rw [hread rest hrest hreach]
        cases (valueCodec type).decode rest <;> rfl
      · rw [if_neg hmatch] at hreach
        rw [if_neg hmatch, if_neg hmatch]
        cases hvalues : (valueCodec h.type).decodeMany h.numValues rest with
        | none => rfl
        | some r =>
          have hvs : ((valueCodec h.type).many h.numValues).decode rest = some r := hvalues
          exact ih r.2 ((decode_suffix _ hvs).trans hrest) (hreach.2 r hvalues)

theorem Buffer.ptr_body (b : Buffer) : b.ptr b.body = b.base := by
  rw [Buffer.ptr, Buffer.last]
  omega

theorem Buffer.inReach_of_le {len : ℕ} (hs : bs <:+ b.body) (hlen : len ≤ bs.length) :
    b.InReach bs len := by
  have hle := hs.length_le
  have hspace := b.inSpace
  rw [Buffer.InReach, Buffer.ptr, Buffer.last]
  omega

/-- A getter is the search of the format. -/
theorem packGet_eq (hread : Reads b type read out) (fieldName : CString)
    (hb : b.WalkInReach fieldName type) :
    packGet b fieldName type read =
      b.lift ((searchBody fieldName type b.body).join.map fun r => (out r.1, r.2)) := by
  unfold packGet searchBody
  by_cases hshort : b.body.length < 4
  · rw [if_pos hshort, readBE_of_short hshort]
    rfl
  · have hreach := Buffer.inReach_of_le (List.suffix_refl b.body) (not_lt.mp hshort)
    rw [if_neg hshort, ← b.ptr_body, readUintSafe_ptr (List.suffix_refl _) hreach]
    cases hcount : readBE 4 b.body with
    | none => rfl
    | some r =>
      obtain ⟨count, rest⟩ := r
      have hrest := readBE_suffix hcount
      simp only [Buffer.lift, bind, Except.bind, Option.bind_some]
      by_cases hmax : count > maxElements
      · simp only [if_pos hmax]
        rfl
      · simp only [if_neg hmax]
        exact searchLoop_ptr hread fieldName count rest hrest (hb _ hcount (not_lt.mp hmax))

theorem reads_int : Reads b typeInt (fun p => (readUintSafe b 4 p).map Prod.fst) natBE := by
  intro bs hs hb
  have hreach : b.InReach bs 4 := hb
  dsimp only
  rw [readUintSafe_ptr hs hreach]
  simp only [readBE, valueCodec, Codec.raw, if_true]
  split_ifs <;> rfl

theorem reads_int64 : Reads b typeInt64 (fun p => (readUintSafe b 8 p).map Prod.fst) natBE := by
  intro bs hs hb
  have hreach : b.InReach bs 8 := hb
  have hcodec : valueCodec typeInt64 = .raw 8 := rfl
  dsimp only
  rw [readUintSafe_ptr hs hreach, hcodec]
  simp only [readBE, Codec.raw]
  split_ifs <;> rfl

/-- The bounded copy at the end of the string and data readers. -/
theorem copy_ptr {rest : Bytes} (hs : rest <:+ b.body) {len : ℕ} (hb : b.InReach rest len)
    (n : ℕ) (f : Bytes → α) :
    (if b.beyond (b.ptr rest) len then .error .malformed
      else (b.load (b.ptr rest) (if len < n then len else n)).map f) =
      match (Codec.raw len).decode rest with
      | none => Except.error Fault.malformed
      | some (v, _) => .ok (f (v.take n)) := by
  simp only [hb.beyond_ptr hs, Codec.raw]
  by_cases hshort : rest.length < len
  · simp only [if_pos hshort]
  · have hle := not_lt.mp hshort
    have hmin : (if len < n then len else n) = min n len := by
      split_ifs <;> omega
    simp only [if_neg hshort, hmin]
    rw [Buffer.load_ptr hs (by omega), List.take_take]
    rfl

theorem valueCodec_blob {type : ℕ} (h : type = typeStr ∨ type = typeUnistr ∨ type = typeData) :
    valueCodec type = .blob 4 := by
  rcases h with rfl | rfl | rfl <;> rfl

theorem valueInReach_blob {type : ℕ} (h : type = typeStr ∨ type = typeUnistr ∨ type = typeData) :
    valueInReach b type bs ↔
      b.InReach bs 4 ∧ ∀ r, readBE 4 bs = some r → b.InReach r.2 r.1 := by
  rcases h with rfl | rfl | rfl <;> exact Iff.rfl

theorem reads_str (outSize : ℕ) :
    Reads b typeStr (packReadStringSafe b outSize) fun v => v.take (outSize - 1) ++ [0] := by
  intro bs hs hb
  obtain ⟨hlen, hbytes⟩ := (valueInReach_blob (Or.inl rfl)).mp hb
  unfold packReadStringSafe
  rw [valueCodec_blob (Or.inl rfl), readUintSafe_ptr hs hlen]
  simp only [Codec.blob]
  cases hread : readBE 4 bs with
  | none => rfl
  | some r =>
    exact copy_ptr ((readBE_suffix hread).trans hs) (hbytes r hread) (outSize - 1) (· ++ [0])

theorem reads_data (outSize : ℕ) :
    Reads b typeData (packReadData b outSize)
      fun v => (v.take outSize, min v.length outSize) := by
  intro bs hs hb
  obtain ⟨hlen, hbytes⟩ := (valueInReach_blob (Or.inr (Or.inr rfl))).mp hb
  unfold packReadData
  rw [valueCodec_blob (Or.inr (Or.inr rfl)), readUintSafe_ptr hs hlen]
  simp only [Codec.blob]
  cases hread : readBE 4 bs with
  | none => rfl
  | some r =>
    obtain ⟨len, rest⟩ := r
    have hcopy := copy_ptr ((readBE_suffix hread).trans hs) (hbytes _ hread) outSize
      fun copy => (copy, if len < outSize then len else outSize)
    refine hcopy.trans ?_
    simp only [Option.bind_some]
    cases hraw : (Codec.raw len).decode rest with
    | none => rfl
    | some v =>
      have hv : v.1.length = len := ((Codec.raw len).of_decode _ _ _ hraw).1
      have hmin : (if len < outSize then len else outSize) = min v.1.length outSize := by
        split_ifs <;> omega
      simp only [hmin]

end Pointers

/-!
## When no sum wraps
-/

section Clear

variable {b : Buffer} {bs : Bytes}

/-- No pointer into the body wraps when a length field is added to it, as in a 64-bit
address space. -/
def Buffer.Roomy (b : Buffer) : Prop := b.last + 2 ^ 32 ≤ 2 ^ b.width

theorem Buffer.Roomy.inReach (hb : b.Roomy) (bs : Bytes) {len : ℕ} (hlen : len < 2 ^ 32) :
    b.InReach bs len := by
  have hroom : b.last + 2 ^ 32 ≤ 2 ^ b.width := hb
  have hptr : b.ptr bs ≤ b.last := Nat.sub_le _ _
  rw [Buffer.InReach]
  omega

theorem isSome_of_isSome_bind {α β : Type} {o : Option α} {f : α → Option β}
    (h : (o.bind f).isSome) : o.isSome := by
  cases o with
  | none => cases h
  | some a => rfl

/-- The two reasons why a sum does not wrap: there is room above the body, or the bytes
that are skipped are there. -/
theorem Buffer.inReach_readBE {w : ℕ} (hs : bs <:+ b.body) (hw : w < 2 ^ 32)
    (hb : b.Roomy ∨ (readBE w bs).isSome) : b.InReach bs w := by
  rcases hb with hb | hb
  · exact hb.inReach bs hw
  · apply Buffer.inReach_of_le hs
    by_contra hshort
    rw [readBE_of_short (not_le.mp hshort)] at hb
    cases hb

theorem Buffer.inReach_raw {len : ℕ} (hs : bs <:+ b.body) (hlen : len < 2 ^ 32)
    (hb : b.Roomy ∨ ((Codec.raw len).decode bs).isSome) : b.InReach bs len := by
  rcases hb with hb | hb
  · exact hb.inReach bs hlen
  · apply Buffer.inReach_of_le hs
    by_contra hshort
    simp [Codec.raw, not_le.mp hshort] at hb

theorem readBE_lt {w : ℕ} {r : ℕ × Bytes} (h : readBE w bs = some r) : r.1 < 256 ^ w :=
  ((Codec.num w).of_decode _ _ _ h).1

theorem valueInReach_of (type : ℕ) (hs : bs <:+ b.body)
    (hb : b.Roomy ∨ ((valueCodec type).decode bs).isSome) : valueInReach b type bs := by
  unfold valueInReach
  unfold valueCodec at hb
  split_ifs at hb ⊢
  · exact Buffer.inReach_raw hs (by norm_num) hb
  · exact Buffer.inReach_raw hs (by norm_num) hb
  · simp only [Codec.blob] at hb
    refine ⟨Buffer.inReach_readBE hs (by norm_num) (hb.imp_right isSome_of_isSome_bind), ?_⟩
    intro r hr
    rw [hr] at hb
    exact Buffer.inReach_raw ((readBE_suffix hr).trans hs) (readBE_lt hr) hb

theorem valuesInReach_of (type n : ℕ) :
    ∀ bs : Bytes, bs <:+ b.body → (b.Roomy ∨ ((valueCodec type).decodeMany n bs).isSome) →
      valuesInReach b type n bs := by
  induction n with
  | zero =>
    intro bs hs hb
    trivial
  | succ n ih =>
    intro bs hs hb
    rw [Codec.decodeMany] at hb
    refine ⟨valueInReach_of type hs (hb.imp_right isSome_of_isSome_bind), ?_⟩
    intro r hr
    rw [hr] at hb
    exact ih r.2 ((decode_suffix _ hr).trans hs) (hb.imp_right fun h => by simpa using h)

theorem nameInReach_of (hs : bs <:+ b.body) (hb : b.Roomy ∨ (nameCodec.decode bs).isSome) :
    nameInReach b bs := by
  simp only [nameCodec] at hb
  refine ⟨Buffer.inReach_readBE hs (by norm_num) (hb.imp_right isSome_of_isSome_bind), ?_⟩
  intro r hr hzero
  have hlen : r.1 - 1 < 2 ^ 32 := (Nat.sub_le _ _).trans_lt (readBE_lt hr)
  simp only [hr, Option.bind_some, if_neg hzero] at hb
  exact Buffer.inReach_raw ((readBE_suffix hr).trans hs) hlen hb

theorem headerInReach_of (hs : bs <:+ b.body) (hb : b.Roomy ∨ (headerCodec.decode bs).isSome) :
    headerInReach b bs := by
  simp only [headerCodec, Codec.seq, Codec.num, Codec.sub] at hb
  refine ⟨nameInReach_of hs (hb.imp_right isSome_of_isSome_bind), ?_⟩
  intro r hr
  have hrest := (decode_suffix _ hr).trans hs
  simp only [hr, Option.bind_some, Option.isSome_map] at hb
  refine ⟨Buffer.inReach_readBE hrest (by norm_num) (hb.imp_right isSome_of_isSome_bind), ?_⟩
  intro r' hr'
  simp only [hr', Option.bind_some, Option.isSome_map] at hb
  exact Buffer.inReach_readBE ((readBE_suffix hr').trans hrest) (by norm_num)
    (hb.imp_right isSome_of_isSome_bind)

theorem searchInReach_of (fieldName : CString) (type n : ℕ) :
    ∀ bs : Bytes, bs <:+ b.body → (b.Roomy ∨ (search fieldName type n bs).isSome) →
      searchInReach b fieldName type n bs := by
  induction n with
  | zero =>
    intro bs hs hb
    trivial
  | succ n ih =>
    intro bs hs hb
    rw [search] at hb
    refine ⟨headerInReach_of hs (hb.imp_right isSome_of_isSome_bind), ?_⟩
    intro r hr
    have hrest := (decode_suffix _ hr).trans hs
    simp only [hr, Option.bind_some] at hb
    split_ifs at hb ⊢ with hmatch
    · exact valueInReach_of type hrest (hb.imp_right fun h => by simpa using h)
    · refine ⟨valuesInReach_of _ _ _ hrest (hb.imp_right isSome_of_isSome_bind), ?_⟩
      intro r' hr'
      have hvs : ((valueCodec r.1.type).many r.1.numValues).decode r.2 = some r' := hr'
      rw [hr'] at hb
      exact ih r'.2 ((decode_suffix _ hvs).trans hrest) hb

theorem Buffer.walkInReach_of {fieldName : CString} {type : ℕ}
    (hb : b.Roomy ∨ (searchBody fieldName type b.body).isSome) :
    b.WalkInReach fieldName type := by
  intro r hr hmax
  simp only [searchBody, hr, Option.bind_some, if_neg (not_lt.mpr hmax)] at hb
  exact searchInReach_of fieldName type r.1 r.2 (readBE_suffix hr) hb

end Clear

end SoftEtherVpn.Pack

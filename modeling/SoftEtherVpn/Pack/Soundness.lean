import Mathlib.Data.List.TakeWhile
import SoftEtherVpn.Pack.Search

/-!
# What a PACK reader accepts

A body comes from the network. A getter that returns a value has found an element whose
name agrees with the field name as far as the comparison looks: the first 63 bytes, up
to the first NUL. It has read the first value of that element and not the others. The
result is the right one exactly if that element is the one asked for.
-/

namespace SoftEtherVpn.Pack

open Foundation

/-- The elements that a search passes over and the header it stops at, with the bytes from
the first value on. -/
structure StopsAt (fieldName : CString) (type n : ℕ) (bs : Bytes) (es : List Element)
    (h : Header) (rest : Bytes) : Prop where
  length_lt : es.length < n
  okElements : ∀ x ∈ es, elementCodec.Ok x
  passedOver : ∀ x ∈ es, ¬x.1.Matches fieldName type
  okHeader : headerCodec.Ok h
  isMatch : h.Matches fieldName type
  bytes : bs = es.flatMap elementCodec.encode ++ (headerCodec.encode h ++ rest)

theorem elementCodec_encode (x : Element) :
    elementCodec.encode x = headerCodec.encode x.1 ++ x.2.flatMap (valueCodec x.1.type).encode :=
  rfl

theorem elementCodec_ok {x : Element} : elementCodec.Ok x ↔
    headerCodec.Ok x.1 ∧ x.2.length = x.1.numValues ∧ ∀ v ∈ x.2, (valueCodec x.1.type).Ok v :=
  Iff.rfl

theorem decode_header_element {x : Element} (hx : elementCodec.Ok x) (rest : Bytes) :
    headerCodec.decode (elementCodec.encode x ++ rest) =
      some (x.1, x.2.flatMap (valueCodec x.1.type).encode ++ rest) := by
  rw [elementCodec_encode, List.append_assoc]
  exact headerCodec.decode_encode _ _ hx.1

theorem search_eq_some {fieldName : CString} {type n : ℕ} {bs v rest : Bytes} :
    search fieldName type n bs = some (some (v, rest)) ↔
      ∃ es h tail, StopsAt fieldName type n bs es h rest ∧
        (valueCodec type).decode rest = some (v, tail) := by
  induction n generalizing bs with
  | zero =>
    constructor
    · intro h
      cases h
    · rintro ⟨es, h, tail, hstop, -⟩
      exact absurd hstop.length_lt (Nat.not_lt_zero _)
  | succ n ih =>
    constructor
    · intro hsearch
      obtain ⟨⟨h, rest'⟩, hheader, hsearch⟩ := Option.bind_eq_some_iff.mp hsearch
      obtain ⟨hok, hbs⟩ := headerCodec.of_decode _ _ _ hheader
      by_cases hmatch : h.Matches fieldName type
      · rw [if_pos hmatch] at hsearch
        obtain ⟨⟨v', tail⟩, hvalue, heq⟩ := Option.map_eq_some_iff.mp hsearch
        obtain ⟨rfl, rfl⟩ := Prod.mk.inj (Option.some.inj heq)
        exact ⟨[], h, tail, ⟨Nat.succ_pos n, by simp, by simp, hok, hmatch, hbs⟩, hvalue⟩
      · rw [if_neg hmatch] at hsearch
        obtain ⟨⟨vs, rest''⟩, hvalues, hsearch⟩ := Option.bind_eq_some_iff.mp hsearch
        dsimp only at hvalues hsearch
        obtain ⟨hlen, hoks, hbs'⟩ := (valueCodec h.type).of_decodeMany hvalues
        obtain ⟨es, h', tail, hstop, hvalue⟩ := ih.mp hsearch
        refine ⟨(h, vs) :: es, h', tail, ⟨?_, ?_, ?_, hstop.okHeader, hstop.isMatch, ?_⟩, hvalue⟩
        · exact Nat.succ_lt_succ hstop.length_lt
        · exact List.forall_mem_cons.mpr ⟨⟨hok, hlen, hoks⟩, hstop.okElements⟩
        · exact List.forall_mem_cons.mpr ⟨hmatch, hstop.passedOver⟩
        · rw [hbs, hbs', hstop.bytes]
          simp [elementCodec_encode]
    · rintro ⟨es, h, tail, hstop, hvalue⟩
      obtain ⟨hlen, hoks, hpassed, hok, hmatch, hbs⟩ := hstop
      cases es with
      | nil =>
        have hheader : headerCodec.decode bs = some (h, rest) := by
          rw [hbs]
          exact headerCodec.decode_encode h rest hok
        simp [search, hheader, hmatch, hvalue]
      | cons x es =>
        obtain ⟨hxok, hxlen, hxvalues⟩ := elementCodec_ok.mp (hoks x List.mem_cons_self)
        obtain ⟨hx, hpassed⟩ := List.forall_mem_cons.mp hpassed
        have hheader : headerCodec.decode bs =
            some (x.1, x.2.flatMap (valueCodec x.1.type).encode ++
              (es.flatMap elementCodec.encode ++ (headerCodec.encode h ++ rest))) := by
          rw [hbs, List.flatMap_cons, List.append_assoc]
          exact decode_header_element (hoks x List.mem_cons_self) _
        have hvalues := (valueCodec x.1.type).decodeMany_encode x.2
          (es.flatMap elementCodec.encode ++ (headerCodec.encode h ++ rest)) hxvalues
        rw [hxlen] at hvalues
        simp only [search, hheader, Option.bind_some, if_neg hx, hvalues]
        apply ih.mpr
        exact ⟨es, h, tail, ⟨Nat.lt_of_succ_lt_succ hlen, fun y hy =>
          hoks y (List.mem_cons_of_mem x hy), hpassed, hok, hmatch, rfl⟩, hvalue⟩

/-- Two ways to stop at the same place are one. -/
theorem stop_unique {es es' : List Element} {h h' : Header} {rest rest' : Bytes}
    (hes : ∀ x ∈ es, elementCodec.Ok x) (hes' : ∀ x ∈ es', elementCodec.Ok x)
    (hh : headerCodec.Ok h) (hh' : headerCodec.Ok h')
    (heq : es.flatMap elementCodec.encode ++ (headerCodec.encode h ++ rest) =
      es'.flatMap elementCodec.encode ++ (headerCodec.encode h' ++ rest'))
    (hlen : rest.length = rest'.length) : es = es' ∧ h = h' ∧ rest = rest' := by
  induction es generalizing es' with
  | nil =>
    cases es' with
    | nil =>
      obtain ⟨rfl, rfl⟩ := headerCodec.encode_append_inj hh hh' heq
      exact ⟨rfl, rfl, rfl⟩
    | cons x es' =>
      have hx := elementCodec_ok.mp (hes' x List.mem_cons_self)
      rw [List.flatMap_nil, List.nil_append, List.flatMap_cons, elementCodec_encode,
        List.append_assoc, List.append_assoc] at heq
      obtain ⟨rfl, hrest⟩ := headerCodec.encode_append_inj hh hx.1 heq
      have hpos := headerCodec_length_pos h'
      have := congrArg List.length hrest
      simp only [List.length_append] at this
      omega
  | cons x es ih =>
    have hx := hes x List.mem_cons_self
    cases es' with
    | nil =>
      rw [List.flatMap_nil, List.nil_append, List.flatMap_cons, elementCodec_encode,
        List.append_assoc, List.append_assoc] at heq
      obtain ⟨rfl, hrest⟩ := headerCodec.encode_append_inj (elementCodec_ok.mp hx).1 hh' heq
      have hpos := headerCodec_length_pos h
      have := congrArg List.length hrest
      simp only [List.length_append] at this
      omega
    | cons y es' =>
      rw [List.flatMap_cons, List.flatMap_cons, List.append_assoc, List.append_assoc] at heq
      obtain ⟨rfl, htail⟩ := elementCodec.encode_append_inj hx (hes' y List.mem_cons_self) heq
      obtain ⟨rfl, hrest⟩ := ih (fun z hz => hes z (List.mem_cons_of_mem x hz))
        (fun z hz => hes' z (List.mem_cons_of_mem x hz)) htail
      exact ⟨rfl, hrest⟩

/-- `value` is the first value of the element of the body asked for, and lies at offset
`offset`: the body begins with a count and well-formed elements, of which the last has this
name, this type and at least one value, and none before it has. -/
def Found (body fieldName : Bytes) (type : ℕ) (value : Bytes) (offset : ℕ) : Prop :=
  ∃ (count : ℕ) (es : List Element) (e : Element) (rest : Bytes),
    count ≤ maxElements ∧ es.length < count ∧
    (∀ x ∈ es, elementCodec.Ok x) ∧ elementCodec.Ok e ∧
    body = bytesBE 4 count ++ es.flatMap elementCodec.encode ++ elementCodec.encode e ++ rest ∧
    e.1.name = fieldName ∧ e.1.type = type ∧ 1 ≤ e.1.numValues ∧ e.1.numValues ≤ maxValues ∧
    e.2.head? = some value ∧
    offset = 4 + (es.flatMap elementCodec.encode).length + (headerCodec.encode e.1).length ∧
    ∀ x ∈ es, ¬(x.1.name = fieldName ∧ x.1.type = type ∧ 1 ≤ x.1.numValues)

/-- The first element whose name agrees with the field name in its first 63 bytes up to the
first NUL, which has the type and a complete first value, has another name or lacks some
of its other values. -/
def Misread (body : Bytes) (fieldName : CString) (type : ℕ) : Prop :=
  ∃ (count : ℕ) (bs : Bytes) (es : List Element) (h : Header) (rest value tail : Bytes),
    count ≤ maxElements ∧ body = bytesBE 4 count ++ bs ∧
    StopsAt fieldName type count bs es h rest ∧
    (valueCodec type).decode rest = some (value, tail) ∧
    (h.name ≠ fieldName.1 ∨ (valueCodec type).decodeMany (h.numValues - 1) tail = none)

theorem searchBody_eq_some {fieldName : CString} {type : ℕ} {body v rest : Bytes} :
    searchBody fieldName type body = some (some (v, rest)) ↔
      ∃ count bs es h tail, count ≤ maxElements ∧ body = bytesBE 4 count ++ bs ∧
        StopsAt fieldName type count bs es h rest ∧
        (valueCodec type).decode rest = some (v, tail) := by
  constructor
  · intro hsearch
    obtain ⟨⟨count, bs⟩, hcount, hsearch⟩ := Option.bind_eq_some_iff.mp hsearch
    split_ifs at hsearch with hmax
    obtain ⟨-, hbody⟩ := (Codec.num 4).of_decode _ _ _ hcount
    obtain ⟨es, h, tail, hstop, hvalue⟩ := search_eq_some.mp hsearch
    exact ⟨count, bs, es, h, tail, not_lt.mp hmax, hbody, hstop, hvalue⟩
  · rintro ⟨count, bs, es, h, tail, hmax, rfl, hstop, hvalue⟩
    have hmod : count % 256 ^ 4 = count := by
      apply Nat.mod_eq_of_lt
      unfold maxElements at hmax
      omega
    rw [searchBody, readBE_bytesBE, hmod]
    simp only [Option.bind_some, if_neg (not_lt.mpr hmax)]
    exact search_eq_some.mpr ⟨es, h, tail, hstop, hvalue⟩

theorem cString_of_notMem {bs : Bytes} (h : 0 ∉ bs) : cString bs = bs := by
  rw [cString, List.takeWhile_eq_self_iff]
  intro b hb
  have hne : b ≠ 0 := fun hzero => h (hzero ▸ hb)
  simpa using hne

theorem looksLike_self {fieldName : CString} {name : Bytes} (h : name = fieldName.1)
    (hlen : name.length ≤ 63) : LooksLike name fieldName := by
  subst h
  rw [LooksLike, List.take_of_length_le hlen]
  exact cString_of_notMem fieldName.2

theorem LooksLike.length_le {fieldName : CString} {name : Bytes} (h : LooksLike name fieldName) :
    fieldName.1.length ≤ 63 := by
  rw [← h]
  exact (List.takeWhile_sublist _).length_le.trans (List.length_take_le _ _)

/-- The search found what was asked for, unless the element it stopped at is not that. -/
theorem found_of_search {fieldName : CString} {type : ℕ} {body v rest : Bytes}
    (hsearch : searchBody fieldName type body = some (some (v, rest)))
    (hread : ¬Misread body fieldName type) :
    Found body fieldName.1 type v (body.length - rest.length) := by
  obtain ⟨count, bs, es, h, tail, hmax, hbody, hstop, hvalue⟩ := searchBody_eq_some.mp hsearch
  have hgood : h.name = fieldName.1 ∧
      (valueCodec type).decodeMany (h.numValues - 1) tail ≠ none := by
    constructor
    · by_contra hname
      exact hread ⟨count, bs, es, h, rest, v, tail, hmax, hbody, hstop, hvalue, Or.inl hname⟩
    · intro hnone
      exact hread ⟨count, bs, es, h, rest, v, tail, hmax, hbody, hstop, hvalue, Or.inr hnone⟩
  obtain ⟨hname, hcomplete⟩ := hgood
  obtain ⟨⟨vs, rest'⟩, hvs⟩ := Option.ne_none_iff_exists'.mp hcomplete
  obtain ⟨hlen, hoks, htail⟩ := (valueCodec type).of_decodeMany hvs
  obtain ⟨hv, hrest⟩ := (valueCodec type).of_decode _ _ _ hvalue
  obtain ⟨hlike, htype, hone⟩ := hstop.isMatch
  have hnum : h.numValues ≤ maxValues := hstop.okHeader.2.2.2
  refine ⟨count, es, (h, v :: vs), rest', hmax, hstop.length_lt, hstop.okElements, ?_, ?_, hname,
    htype, hone, hnum, rfl, ?_, ?_⟩
  · refine elementCodec_ok.mpr ⟨hstop.okHeader, ?_, ?_⟩
    · simp only [List.length_cons]
      omega
    · rw [htype]
      exact List.forall_mem_cons.mpr ⟨hv, hoks⟩
  · rw [hbody, hstop.bytes, hrest, htail, elementCodec_encode, htype]
    simp
  · rw [hbody, hstop.bytes]
    simp
    omega
  · rintro x hx ⟨hxname, hxtype, hxone⟩
    apply hstop.passedOver x hx
    exact ⟨looksLike_self hxname (hxname ▸ hlike.length_le), hxtype, hxone⟩

/-- A search that stops at the wrong element has not found what was asked for. -/
theorem not_found_of_misread {fieldName : CString} {type : ℕ} {body : Bytes}
    (hread : Misread body fieldName type) :
    ∃ v rest, searchBody fieldName type body = some (some (v, rest)) ∧
      ∀ value, ¬Found body fieldName.1 type value (body.length - rest.length) := by
  obtain ⟨count, bs, es, h, rest, v, tail, hmax, hbody, hstop, hvalue, hbad⟩ := hread
  refine ⟨v, rest, searchBody_eq_some.mpr ⟨count, bs, es, h, tail, hmax, hbody, hstop, hvalue⟩, ?_⟩
  rintro value ⟨count', es', e, rest', hmax', hlen', hoks', hok', hbody', hname, htype, hone, -,
    hhead, hoff, -⟩
  obtain ⟨hhok, hvlen, hvs⟩ := elementCodec_ok.mp hok'
  have hcount : count < 256 ^ 4 := by
    unfold maxElements at hmax
    omega
  have hcount' : count' < 256 ^ 4 := by
    unfold maxElements at hmax'
    omega
  have hsplit : bytesBE 4 count ++ bs = bytesBE 4 count' ++
      (es'.flatMap elementCodec.encode ++ (headerCodec.encode e.1 ++
        (e.2.flatMap (valueCodec e.1.type).encode ++ rest'))) := by
    rw [← hbody, hbody', elementCodec_encode]
    simp
  obtain ⟨rfl, hbs⟩ := (Codec.num 4).encode_append_inj hcount hcount' hsplit
  have hlen : rest.length = (e.2.flatMap (valueCodec e.1.type).encode ++ rest').length := by
    have hlen1 := congrArg List.length hstop.bytes
    have hlen2 := congrArg List.length hbs
    have hlen3 := congrArg List.length hbody
    simp only [List.length_append, bytesBE_length] at hlen1 hlen2 hlen3 ⊢
    omega
  rw [hstop.bytes] at hbs
  obtain ⟨-, rfl, rfl⟩ := stop_unique hstop.okElements hoks' hstop.okHeader hhok hbs hlen
  rcases hbad with hbad | hbad
  · exact hbad hname
  · rw [htype] at hvalue hvs
    cases hvalues : e.2 with
    | nil => simp [hvalues] at hhead
    | cons v' vs =>
      rw [hvalues, List.flatMap_cons, List.append_assoc] at hvalue
      have hok1 := hvs v' (hvalues ▸ List.mem_cons_self)
      rw [(valueCodec type).decode_encode _ _ hok1] at hvalue
      obtain ⟨-, rfl⟩ := Prod.mk.inj (Option.some.inj hvalue)
      have hmany := (valueCodec type).decodeMany_encode vs rest' fun a ha =>
        hvs a (hvalues ▸ List.mem_cons_of_mem v' ha)
      have hnum : e.1.numValues - 1 = vs.length := by
        rw [← hvlen, hvalues]
        rfl
      rw [hnum, hmany] at hbad
      cases hbad

/-- The four getters; the last two write into a buffer of `outSize` bytes. -/
inductive Getter
  | int
  | int64
  | str (outSize : ℕ)
  | data (outSize : ℕ)
  deriving DecidableEq

/-- What a getter writes: a number, a terminated string, or bytes and their number. -/
inductive Output
  | number (n : ℕ)
  | text (bytes : Bytes)
  | blob (bytes : Bytes) (len : ℕ)
  deriving DecidableEq

namespace Getter

def type : Getter → ℕ
  | .int => typeInt
  | .int64 => typeInt64
  | .str _ => typeStr
  | .data _ => typeData

/-- The output buffer holds at least one byte. -/
def HasRoom : Getter → Prop
  | .str outSize => outSize ≠ 0
  | .data outSize => outSize ≠ 0
  | _ => True

/-- The output for a value. -/
def output : Getter → Bytes → Output
  | .int, v => .number (natBE v)
  | .int64, v => .number (natBE v)
  | .str outSize, v => .text (v.take (outSize - 1) ++ [0])
  | .data outSize, v => .blob (v.take outSize) (min v.length outSize)

/-- The call of the getter, with the pointer to the value it read. -/
def get (b : Buffer) (fieldName : CString) : Getter → Except Fault (Output × ℕ)
  | .int => (packGetInt b fieldName).map fun r => (.number r.1, r.2)
  | .int64 => (packGetInt64 b fieldName).map fun r => (.number r.1, r.2)
  | .str outSize => (packGetStr b fieldName outSize).map fun r => (.text r.1, r.2)
  | .data outSize => (packGetData b fieldName outSize).map fun r => (.blob r.1.1 r.1.2, r.2)

theorem get_eq {b : Buffer} (fieldName : CString) {g : Getter} (hg : g.HasRoom)
    (hb : b.WalkInReach fieldName g.type) :
    g.get b fieldName =
      b.lift ((searchBody fieldName g.type b.body).join.map fun r => (g.output r.1, r.2)) := by
  cases g with
  | int =>
    rw [get, packGetInt, packGet_eq reads_int fieldName hb, type]
    cases (searchBody fieldName typeInt b.body).join <;> rfl
  | int64 =>
    rw [get, packGetInt64, packGet_eq reads_int64 fieldName hb, type]
    cases (searchBody fieldName typeInt64 b.body).join <;> rfl
  | str outSize =>
    rw [get, packGetStr, if_neg hg, packGet_eq (reads_str outSize) fieldName hb, type]
    cases (searchBody fieldName typeStr b.body).join <;> rfl
  | data outSize =>
    rw [get, packGetData, if_neg hg, packGet_eq (reads_data outSize) fieldName hb, type]
    cases (searchBody fieldName typeData b.body).join <;> rfl

theorem get_of_not_hasRoom {b : Buffer} (fieldName : CString) {g : Getter} (hg : ¬g.HasRoom) :
    g.get b fieldName = .error .malformed := by
  cases g with
  | int => exact absurd trivial hg
  | int64 => exact absurd trivial hg
  | str outSize =>
    rw [get, packGetStr, if_pos (not_not.mp hg)]
    rfl
  | data outSize =>
    rw [get, packGetData, if_pos (not_not.mp hg)]
    rfl

/-- The getter reads inside the body only, and a value it returns is the one asked for. -/
def Sound (g : Getter) (b : Buffer) (fieldName : CString) : Prop :=
  g.get b fieldName ≠ .error .outside ∧
    ∀ out p, g.get b fieldName = .ok (out, p) →
      ∃ value, Found b.body fieldName.1 g.type value (p - b.base) ∧ out = g.output value

end Getter

theorem Buffer.ptr_sub {b : Buffer} {bs : Bytes} (hs : bs <:+ b.body) :
    b.ptr bs - b.base = b.body.length - bs.length := by
  have hle := hs.length_le
  rw [Buffer.ptr, Buffer.last]
  omega

theorem searchBody_suffix {fieldName : CString} {type : ℕ} {body v rest : Bytes}
    (h : searchBody fieldName type body = some (some (v, rest))) : rest <:+ body := by
  obtain ⟨count, bs, es, hd, tail, -, hbody, hstop, -⟩ := searchBody_eq_some.mp h
  refine ⟨bytesBE 4 count ++ (es.flatMap elementCodec.encode ++ headerCodec.encode hd), ?_⟩
  rw [hbody, hstop.bytes]
  simp

theorem Getter.sound_of_malformed {b : Buffer} {fieldName : CString} {g : Getter}
    (h : g.get b fieldName = .error .malformed) : g.Sound b fieldName := by
  unfold Getter.Sound
  rw [h]
  constructor
  · intro hout
    cases hout
  · intro out p hok
    cases hok

theorem Getter.sound_of_not_misread {b : Buffer} {fieldName : CString} {g : Getter}
    (hg : g.HasRoom) (hb : b.WalkInReach fieldName g.type)
    (hread : ¬Misread b.body fieldName g.type) : g.Sound b fieldName := by
  have hget := Getter.get_eq fieldName hg hb
  cases hsearch : (searchBody fieldName g.type b.body).join with
  | none =>
    rw [hsearch] at hget
    exact Getter.sound_of_malformed hget
  | some r =>
    obtain ⟨v, rest⟩ := r
    have hsome := Option.join_eq_some_iff.mp hsearch
    rw [hsearch] at hget
    unfold Getter.Sound
    rw [hget]
    constructor
    · intro hout
      cases hout
    · intro out p hok
      cases hok
      refine ⟨v, ?_, rfl⟩
      rw [Buffer.ptr_sub (searchBody_suffix hsome)]
      exact found_of_search hsome hread

theorem Getter.not_sound_of_misread {b : Buffer} {fieldName : CString} {g : Getter}
    (hg : g.HasRoom) (hread : Misread b.body fieldName g.type) : ¬g.Sound b fieldName := by
  rintro ⟨-, hsound⟩
  obtain ⟨v, rest, hsearch, hnot⟩ := not_found_of_misread hread
  have hsome : (searchBody fieldName g.type b.body).isSome := by
    rw [hsearch]
    rfl
  have hget := Getter.get_eq fieldName hg (Buffer.walkInReach_of (Or.inr hsome))
  rw [hsearch] at hget
  obtain ⟨value, hfound, -⟩ := hsound _ _ hget
  rw [Buffer.ptr_sub (searchBody_suffix hsearch)] at hfound
  exact hnot value hfound

/-- A search through well-formed elements that stops at the element asked for is no misreading. -/
theorem not_misread_of_wellFormed {fieldName : CString} {type count : ℕ} {es : List Element}
    {e : Element} {rest : Bytes} (hmax : count ≤ maxElements) (hcount : es.length < count)
    (hes : ∀ x ∈ es, elementCodec.Ok x) (he : elementCodec.Ok e)
    (hpassed : ∀ x ∈ es, ¬x.1.Matches fieldName type) (hmatch : e.1.Matches fieldName type)
    (hname : e.1.name = fieldName.1) :
    ¬Misread (bytesBE 4 count ++ (es.flatMap elementCodec.encode ++ (elementCodec.encode e ++ rest)))
      fieldName type := by
  obtain ⟨hhok, hvlen, hvs⟩ := elementCodec_ok.mp he
  obtain ⟨-, htype, hone⟩ := id hmatch
  obtain ⟨v, vs, hvalues⟩ := List.exists_cons_of_length_pos (hvlen ▸ hone : 0 < e.2.length)
  rw [htype] at hvs
  have hvalue : (valueCodec type).decode (e.2.flatMap (valueCodec type).encode ++ rest) =
      some (v, vs.flatMap (valueCodec type).encode ++ rest) := by
    rw [hvalues, List.flatMap_cons, List.append_assoc]
    exact (valueCodec type).decode_encode _ _ (hvs v (hvalues ▸ List.mem_cons_self))
  have hmany := (valueCodec type).decodeMany_encode vs rest fun a ha =>
    hvs a (hvalues ▸ List.mem_cons_of_mem v ha)
  have hstop : StopsAt fieldName type count
      (es.flatMap elementCodec.encode ++ (elementCodec.encode e ++ rest)) es e.1
      (e.2.flatMap (valueCodec type).encode ++ rest) := by
    refine ⟨hcount, hes, hpassed, hhok, hmatch, ?_⟩
    rw [elementCodec_encode, htype, List.append_assoc]
  have hsearch := searchBody_eq_some.mpr ⟨count, _, es, e.1, _, hmax, rfl, hstop, hvalue⟩
  rintro ⟨count', bs, es', h, rest', v', tail, hmax', hbody, hstop', hvalue', hbad⟩
  have hsearch' := searchBody_eq_some.mpr ⟨count', bs, es', h, tail, hmax', hbody, hstop', hvalue'⟩
  rw [hsearch] at hsearch'
  obtain ⟨rfl, rfl⟩ := Prod.mk.inj (Option.some.inj (Option.some.inj hsearch'))
  obtain ⟨-, rfl⟩ := Prod.mk.inj (Option.some.inj (hvalue.symm.trans hvalue'))
  have hlt : ∀ {c : ℕ}, c ≤ maxElements → c < 256 ^ 4 := by
    intro c hc
    unfold maxElements at hc
    omega
  obtain ⟨-, hbs⟩ := (Codec.num 4).encode_append_inj (hlt hmax) (hlt hmax') hbody
  rw [← hbs, hstop.bytes] at hstop'
  obtain ⟨-, rfl, -⟩ := stop_unique hes hstop'.okElements hhok hstop'.okHeader hstop'.bytes rfl
  rcases hbad with hbad | hbad
  · exact hbad hname
  · have hnum : e.1.numValues - 1 = vs.length := by
      rw [← hvlen, hvalues]
      rfl
    rw [hnum, hmany] at hbad
    cases hbad

/-- A getter keeps its promise exactly if the search does not stop at a wrong element,
provided that no bounds check wraps on its way. -/
theorem getter_sound_iff {b : Buffer} {fieldName : CString} (g : Getter)
    (hb : b.WalkInReach fieldName g.type) :
    g.Sound b fieldName ↔ ¬(g.HasRoom ∧ Misread b.body fieldName g.type) := by
  constructor
  · rintro hsound ⟨hg, hread⟩
    exact Getter.not_sound_of_misread hg hread hsound
  · intro hnot
    by_cases hg : g.HasRoom
    · exact Getter.sound_of_not_misread hg hb fun hread => hnot ⟨hg, hread⟩
    · exact Getter.sound_of_malformed (Getter.get_of_not_hasRoom fieldName hg)

/-- A body in a 64-bit address space. -/
def Buffer.ofBody (body : Bytes) (h : body.length < 2 ^ 32) : Buffer where
  width := 64
  base := 4096
  body := body
  inSpace := by
    norm_num at *
    omega
  lengthFits := h

theorem Buffer.ofBody_roomy (body : Bytes) (h : body.length < 2 ^ 32) :
    (Buffer.ofBody body h).Roomy := by
  rw [Buffer.Roomy, Buffer.last, Buffer.ofBody]
  norm_num at *
  omega

/-- The element `name` with the single integer `value`, alone in a body. -/
def intBody (name : Bytes) (value : ℕ) : Bytes :=
  bytesBE 4 1 ++ elementCodec.encode ((name, typeInt, 1), [bytesBE 4 value])

def okName : CString := ⟨ascii "ok", by decide⟩

theorem headerCodec_ok {h : Header} (hname : h.name.length + 1 < 256 ^ 4) (htype : h.type < 256 ^ 4)
    (hnum : h.numValues ≤ maxValues) : headerCodec.Ok h := by
  refine ⟨hname, htype, ?_, hnum⟩
  have hmax : maxValues < 256 ^ 4 := by decide
  exact hnum.trans_lt hmax

theorem okBody_sound :
    Getter.int.get (Buffer.ofBody (intBody (ascii "ok") 7) (by decide)) okName =
        .ok (.number 7, 4096 + 18) ∧
      Getter.int.Sound (Buffer.ofBody (intBody (ascii "ok") 7) (by decide)) okName := by
  have hread : ¬Misread (bytesBE 4 1 ++ (([] : List Element).flatMap elementCodec.encode ++
      (elementCodec.encode ((ascii "ok", typeInt, 1), [bytesBE 4 7]) ++ []))) okName typeInt := by
    apply not_misread_of_wellFormed
    · decide
    · decide
    · simp
    · exact ⟨headerCodec_ok (by decide) (by decide) (by decide), rfl, by simp; rfl⟩
    · simp
    · decide
    · rfl
  refine ⟨by rfl, (getter_sound_iff .int (Buffer.walkInReach_of
    (Or.inl (Buffer.ofBody_roomy _ _)))).mpr ?_⟩
  rintro ⟨-, h⟩
  exact hread h

/-- A NUL inside the name on the wire ends the comparison: the element `ok`, NUL, `x` is taken
for `ok`. In a 32-bit address space a length near `2 ^ 32` passes the bounds check, and the
name is copied from outside the body. -/
theorem getter_unsound :
    (Getter.int.get (Buffer.ofBody (intBody (ascii "ok" ++ [0] ++ ascii "x") 7) (by decide))
        okName = .ok (.number 7, 4096 + 20) ∧
      ¬Getter.int.Sound (Buffer.ofBody (intBody (ascii "ok" ++ [0] ++ ascii "x") 7) (by decide))
        okName) ∧
    ∃ b : Buffer, b.width = 32 ∧ Getter.int.get b okName = .error .outside ∧
      ¬Getter.int.Sound b okName := by
  constructor
  · refine ⟨by rfl, Getter.not_sound_of_misread trivial ?_⟩
    refine ⟨1, _, [], (ascii "ok" ++ [0] ++ ascii "x", typeInt, 1), _, bytesBE 4 7, [], by decide,
      rfl, ⟨by decide, by simp, by simp, headerCodec_ok ?_ ?_ ?_, ?_, rfl⟩,
      (valueCodec typeInt).decode_encode (bytesBE 4 7) [] rfl, ?_⟩
    · decide
    · decide
    · decide
    · decide
    · left
      decide
  · refine ⟨⟨32, 2 ^ 31, bytesBE 4 1 ++ bytesBE 4 (2 ^ 32 - 16), by decide, by decide⟩, rfl, ?_⟩
    have hget : Getter.int.get ⟨32, 2 ^ 31, bytesBE 4 1 ++ bytesBE 4 (2 ^ 32 - 16), by decide,
        by decide⟩ okName = .error .outside := by decide +kernel
    exact ⟨hget, fun hsound => hsound.1 hget⟩

end SoftEtherVpn.Pack

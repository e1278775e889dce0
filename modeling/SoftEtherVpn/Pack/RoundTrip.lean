import SoftEtherVpn.Pack.Soundness
import SoftEtherVpn.Pack.Writer

/-!
# What is added to a pack is what the getters find

Every call of the writer appends the encoding of one element and renews the count, so the
contents of a pack are the encoding of the list of its elements. The search through such a
body never fails and stops at the first element with the name and the type.
-/

namespace SoftEtherVpn.Pack

open Foundation

/-!
## The writers
-/

open Cursor

theorem writes_elemName (name : CString) (h : name.1.length + 1 < 2 ^ 32) :
    Writes (packWriteElemName name) (nameCodec.encode name.1) := by
  have hlen : name.1.length % 2 ^ 32 = name.1.length := Nat.mod_eq_of_lt (by omega)
  have hwrites := (writes_put (bytesBE 4 (name.1.length + 1))).andThen (writes_put name.1)
  unfold packWriteElemName
  simp only [hlen, List.take_length]
  exact hwrites

theorem writes_strVal {str : CString} (h : str.1.length < 2 ^ 32) :
    Writes (packWriteStrVal str) ((valueCodec typeStr).encode str.1) := by
  have hlen : str.1.length % 2 ^ 32 = str.1.length := Nat.mod_eq_of_lt h
  have hwrites := (writes_put (bytesBE 4 str.1.length)).andThen (writes_put str.1)
  unfold packWriteStrVal
  simp only [hlen, List.take_length]
  exact hwrites

theorem writes_dataVal (data : Bytes) :
    Writes (packWriteDataVal data) ((valueCodec typeData).encode data) :=
  (writes_put (bytesBE 4 data.length)).andThen (writes_put data)

/-!
## The elements of a pack
-/

namespace AddCall

def type : AddCall → ℕ
  | .int _ _ => typeInt
  | .int64 _ _ => typeInt64
  | .str _ _ => typeStr
  | .data _ _ => typeData

/-- The payload of the value that the call adds. -/
def value : AddCall → Bytes
  | .int _ val => bytesBE 4 val.toNat
  | .int64 _ val => bytesBE 8 val.toNat
  | .str _ val => val.1
  | .data _ bytes => bytes

/-- The value on the wire. -/
def payload (call : AddCall) : Bytes := (valueCodec call.type).encode call.value

def element (call : AddCall) : Element := ((call.name.1, call.type, 1), [call.value])

theorem size_eq (call : AddCall) :
    call.size = 4 + call.name.1.length + 8 + call.payload.length := by
  cases call with
  | int name val => rfl
  | int64 name val => rfl
  | str name val => simp [size, AddCall.name, payload, type, value, valueCodec_blob, Codec.blob]
  | data name bytes => simp [size, AddCall.name, payload, type, value, valueCodec_blob, Codec.blob]

theorem encode_element (call : AddCall) :
    elementCodec.encode call.element = nameCodec.encode call.name.1 ++ (bytesBE 4 call.type ++
      (bytesBE 4 1 ++ call.payload)) := by
  simp only [elementCodec_encode, element, Header.type, List.flatMap_cons, List.flatMap_nil,
    List.append_nil, payload]
  simp only [headerCodec, Codec.seq, Codec.num, Codec.sub, List.append_assoc]

theorem length_encode_element (call : AddCall) :
    (elementCodec.encode call.element).length = call.size := by
  rw [encode_element, size_eq]
  simp only [nameCodec, List.length_append, bytesBE_length]
  omega

theorem element_ok {call : AddCall} (h : call.size < 2 ^ 32) : elementCodec.Ok call.element := by
  have hsize := call.size_eq
  refine elementCodec_ok.mpr ⟨headerCodec_ok ?_ ?_ ?_, rfl, ?_⟩
  · change call.name.1.length + 1 < 256 ^ 4
    omega
  · change call.type < 256 ^ 4
    cases call <;> norm_num [type, typeInt, typeInt64, typeStr, typeData]
  · change 1 ≤ maxValues
    decide
  · intro v hv
    obtain rfl := List.mem_singleton.mp hv
    change (valueCodec call.type).Ok call.value
    cases call with
    | int name val => exact bytesBE_length 4 _
    | int64 name val => exact bytesBE_length 8 _
    | str name val =>
      change val.1.length < 256 ^ 4
      simp only [size] at h
      omega
    | data name bytes =>
      change bytes.length < 256 ^ 4
      simp only [size] at h
      omega

/-- The write of the value in the call's own `pack_add_*`. -/
def writeVal : AddCall → Cursor → Option Cursor
  | .int _ val => packWriteUint32 val.toNat
  | .int64 _ val => packWriteUint64 val.toNat
  | .str _ val => packWriteStrVal val
  | .data _ bytes => packWriteDataVal bytes

theorem writes_val {call : AddCall} (h : call.size < 2 ^ 32) :
    Writes call.writeVal call.payload := by
  cases call with
  | int name val => exact writes_put _
  | int64 name val => exact writes_put _
  | str name val =>
    apply writes_strVal
    simp only [size] at h
    omega
  | data name bytes => exact writes_dataVal bytes

/-- All that a call writes before the count. -/
def writeElement (call : AddCall) (c : Cursor) : Option Cursor := do
  let c ← packWriteElemName call.name c
  let c ← packWriteUint32 call.type c
  let c ← packWriteUint32 1 c
  call.writeVal c

theorem run_eq_packAdd (call : AddCall) (p : SoftetherPack) (realloc : Option Fill) :
    call.run p realloc =
      packAdd p realloc call.name call.type call.payload.length call.writeVal := by
  cases call with
  | int name val => rfl
  | int64 name val => rfl
  | str name val =>
    simp [run, packAddStr, AddCall.name, payload, type, value, valueCodec_blob, Codec.blob,
      writeVal]
  | data name bytes =>
    simp [run, packAddData, AddCall.name, payload, type, value, valueCodec_blob, Codec.blob,
      writeVal]

/-- A call reserves room, writes its element and commits it. -/
theorem run_eq (call : AddCall) (p : SoftetherPack) (realloc : Option Fill) :
    call.run p realloc = match packReserve p (call.size % 2 ^ 32) realloc with
      | none => .error .refused
      | some q =>
        match call.writeElement ⟨q.data, q.len⟩ >>= fun c =>
          packCommitElement { q with data := c.data } (call.size % 2 ^ 32) with
        | none => .error .overrun
        | some r => .ok r := by
  rw [run_eq_packAdd, packAdd, size_eq]
  cases packReserve p _ realloc with
  | none => rfl
  | some q =>
    change (match (_ : Option SoftetherPack) with
      | none => Except.error AddFault.overrun
      | some r => Except.ok r) = _
    simp only [writeElement, bind_assoc]

theorem writes_element (call : AddCall) (h : call.size < 2 ^ 32) :
    Writes call.writeElement (elementCodec.encode call.element) := by
  have hsize := call.size_eq
  have hname := writes_elemName call.name (by omega)
  have hvalue := (writes_put (bytesBE 4 1)).andThen (writes_val h)
  rw [encode_element]
  exact hname.andThen ((writes_put (bytesBE 4 call.type)).andThen hvalue)

end AddCall

/-!
## The block
-/

theorem growCap_ge (need newCap : ℕ) (h : 0 < newCap) : need ≤ growCap need newCap h := by
  fun_induction growCap need newCap h with
  | case1 => exact le_rfl
  | case2 newCap h hlt hmax ih => exact ih
  | case3 newCap h hle => exact not_lt.mp hle

/-- What `pack_reserve` keeps and what it makes sure of. -/
theorem packReserve_spec {p q : SoftetherPack} {add : ℕ} {realloc : Option Fill}
    (h : packReserve p add realloc = some q) (hlen : p.len ≤ p.cap) :
    q.len = p.len ∧ q.numElements = p.numElements ∧ q.contents = p.contents ∧
      p.len + add ≤ q.cap := by
  unfold packReserve at h
  split_ifs at h with hmax hroom hpos
  · cases h
    exact ⟨rfl, rfl, rfl, hroom⟩
  all_goals
    obtain ⟨fill, -, rfl⟩ := Option.map_eq_some_iff.mp h
    refine ⟨rfl, rfl, List.take_append_of_le_length hlen, ?_⟩
    simp only [SoftetherPack.cap, List.length_append, List.length_map, List.length_range]
  · have := growCap_ge (p.len + add) p.cap hpos
    simp only [SoftetherPack.cap] at *
    omega
  · have := growCap_ge (p.len + add) packInitialCap packInitialCap_pos
    simp only [SoftetherPack.cap] at *
    omega

/-- The pack holds the elements: they follow the count, which is there from the first on. -/
structure Holds (p : SoftetherPack) (es : List Element) : Prop where
  len : p.len = 4 + (es.flatMap elementCodec.encode).length
  inBlock : p.len ≤ p.cap
  count : p.numElements = es.length
  elements : p.contents.drop 4 = es.flatMap elementCodec.encode
  head : es ≠ [] → p.contents.take 4 = bytesBE 4 es.length

theorem holds_packNew (fill : Fill) : Holds (packNew fill) [] := by
  refine ⟨rfl, ?_, rfl, ?_, fun h => absurd rfl h⟩
  · rw [SoftetherPack.cap, packNew, List.length_map, List.length_range]
    norm_num [packInitialCap]
  · rw [SoftetherPack.contents, List.drop_take]
    rfl

theorem packCommitElement_spec (p : SoftetherPack) (elemSize : ℕ) (hblock : 4 ≤ p.data.length)
    (hlen : p.len + elemSize < 2 ^ 32) (hfour : 4 ≤ p.len) :
    ∃ q, packCommitElement p elemSize = some q ∧ q.len = p.len + elemSize ∧ q.cap = p.cap ∧
      q.numElements = (p.numElements + 1) % 2 ^ 32 ∧
      q.contents = bytesBE 4 ((p.numElements + 1) % 2 ^ 32) ++
        (p.data.take (p.len + elemSize)).drop 4 := by
  have hput : (0 : ℕ) + (bytesBE 4 ((p.numElements + 1) % 2 ^ 32)).length ≤ p.data.length := by
    rw [bytesBE_length]
    omega
  refine ⟨⟨splice p.data 0 (bytesBE 4 ((p.numElements + 1) % 2 ^ 32)),
    (p.len + elemSize) % 2 ^ 32, (p.numElements + 1) % 2 ^ 32⟩, ?_, Nat.mod_eq_of_lt hlen,
    splice_length hput, rfl, ?_⟩
  · simp only [packCommitElement, packWriteUint32, Cursor.put, if_pos hput]
    rfl
  · rw [SoftetherPack.contents]
    dsimp only
    rw [Nat.mod_eq_of_lt hlen, splice_zero_take, bytesBE_length]
    rw [bytesBE_length]
    omega

/-- A call appends its element, unless it is refused. -/
theorem run_holds {p : SoftetherPack} {es : List Element} (hp : Holds p es) (call : AddCall)
    (realloc : Option Fill) (hsize : p.len + call.size < 2 ^ 32) (hcount : es.length + 1 < 2 ^ 32) :
    call.run p realloc = .error .refused ∨
      ∃ q, call.run p realloc = .ok q ∧ Holds q (es ++ [call.element]) := by
  have hmod : call.size % 2 ^ 32 = call.size := Nat.mod_eq_of_lt (by omega)
  have hlen := hp.len
  have henc := call.length_encode_element
  rw [call.run_eq, hmod]
  cases hreserve : packReserve p call.size realloc with
  | none => exact Or.inl rfl
  | some q =>
    right
    obtain ⟨hqlen, hqnum, hqcontents, hqroom⟩ := packReserve_spec hreserve hp.inBlock
    have hcap : q.cap = q.data.length := rfl
    obtain ⟨c, hc, hext⟩ := call.writes_element (by omega) ⟨q.data, q.len⟩
      (by simp only []; omega)
    have hpos : c.pos = q.len + call.size := by rw [hext.pos, henc]
    have hblock : c.data.length = q.data.length := hext.block
    have hwritten : c.data.take (q.len + call.size) =
        q.contents ++ elementCodec.encode call.element := by
      rw [← hpos]
      exact hext.written
    obtain ⟨r, hr, hrlen, hrcap, hrnum, hrcontents⟩ := packCommitElement_spec
      { q with data := c.data } call.size (by simp only []; omega) (by simp only []; omega)
      (by simp only []; omega)
    have hcontents : r.contents = bytesBE 4 (es.length + 1) ++
        (es.flatMap elementCodec.encode ++ elementCodec.encode call.element) := by
      have hlong : 4 ≤ p.contents.length := by
        have := hp.inBlock
        rw [SoftetherPack.contents, List.length_take_of_le this]
        omega
      rw [hrcontents, hqnum, hp.count, Nat.mod_eq_of_lt hcount, hwritten, hqcontents,
        List.drop_append_of_le_length hlong, hp.elements]
    refine ⟨r, ?_, ?_, ?_, ?_, ?_, ?_⟩
    · simp only [hc, Option.bind_eq_bind, Option.bind_some, hr]
    · rw [hrlen, List.flatMap_append, List.flatMap_singleton, List.length_append]
      simp only []
      omega
    · rw [hrlen, hrcap]
      simp only [SoftetherPack.cap] at *
      omega
    · rw [hrnum, hqnum, hp.count, List.length_append, Nat.mod_eq_of_lt hcount]
      rfl
    · rw [hcontents, List.drop_left' (bytesBE_length 4 _), List.flatMap_append,
        List.flatMap_singleton]
    · intro _
      rw [hcontents, List.take_left' (bytesBE_length 4 _), List.length_append]
      rfl

theorem packRun_holds {p : SoftetherPack} {es : List Element} (hp : Holds p es)
    (calls : List (AddCall × Option Fill))
    (hsize : p.len + (calls.map fun c => c.1.size).sum < 2 ^ 32)
    (hcount : es.length + calls.length < 2 ^ 32) :
    packRun p calls = .error .refused ∨
      ∃ q, packRun p calls = .ok q ∧ Holds q (es ++ calls.map fun c => c.1.element) := by
  induction calls generalizing p es with
  | nil => exact Or.inr ⟨p, rfl, by simpa using hp⟩
  | cons c calls ih =>
    rw [List.map_cons, List.sum_cons] at hsize
    rw [List.length_cons] at hcount
    rcases run_holds hp c.1 c.2 (by omega) (by omega) with hrun | ⟨q, hrun, hq⟩
    · left
      rw [packRun, hrun]
      rfl
    · have hlen : q.len = p.len + c.1.size := by
        rw [hq.len, hp.len, List.flatMap_append, List.flatMap_singleton, List.length_append,
          c.1.length_encode_element]
        omega
      have hnum : (es ++ [c.1.element]).length = es.length + 1 := by simp
      have hrest := ih hq (by omega) (by omega)
      rw [packRun, hrun, List.map_cons, ← List.append_cons] at *
      exact hrest

/-!
## Searching well-formed elements
-/

/-- The value of the first match. -/
def firstValue (fieldName : CString) (type : ℕ) (es : List Element) : Option Bytes :=
  es.findSome? fun e => if e.1.Matches fieldName type then e.2.head? else none

theorem search_wellFormed (fieldName : CString) (type : ℕ) (rest : Bytes) {es : List Element}
    (hes : ∀ e ∈ es, elementCodec.Ok e) :
    ∃ o, search fieldName type es.length (es.flatMap elementCodec.encode ++ rest) = some o ∧
      o.map Prod.fst = firstValue fieldName type es := by
  induction es with
  | nil => exact ⟨none, rfl, rfl⟩
  | cons e es ih =>
    obtain ⟨he, hes⟩ := List.forall_mem_cons.mp hes
    obtain ⟨hhok, hvlen, hvs⟩ := elementCodec_ok.mp he
    rw [List.length_cons, search, List.flatMap_cons, List.append_assoc, decode_header_element he]
    simp only [Option.bind_some]
    by_cases hmatch : e.1.Matches fieldName type
    · obtain ⟨-, htype, hone⟩ := id hmatch
      obtain ⟨v, vs, hvalues⟩ := List.exists_cons_of_length_pos (hvlen ▸ hone : 0 < e.2.length)
      have hvalue := (valueCodec type).decode_encode v
        (vs.flatMap (valueCodec type).encode ++ (es.flatMap elementCodec.encode ++ rest))
        (htype ▸ hvs v (hvalues ▸ List.mem_cons_self))
      rw [if_pos hmatch, htype, hvalues, List.flatMap_cons, List.append_assoc, hvalue]
      refine ⟨_, rfl, ?_⟩
      simp [firstValue, hmatch, hvalues]
    · have hmany := (valueCodec e.1.type).decodeMany_encode e.2
        (es.flatMap elementCodec.encode ++ rest) hvs
      rw [hvlen] at hmany
      rw [if_neg hmatch, hmany]
      obtain ⟨o, ho, hfirst⟩ := ih hes
      refine ⟨o, ho, ?_⟩
      rw [hfirst]
      simp [firstValue, hmatch]

theorem Holds.contents {p : SoftetherPack} {es : List Element} (hp : Holds p es) (hne : es ≠ []) :
    p.contents = bytesBE 4 es.length ++ es.flatMap elementCodec.encode := by
  rw [← hp.head hne, ← hp.elements, List.take_append_drop]

theorem searchBody_wellFormed {es : List Element} (hmax : es.length ≤ maxElements)
    (hes : ∀ e ∈ es, elementCodec.Ok e) (fieldName : CString) (type : ℕ) :
    ∃ o, searchBody fieldName type (bytesBE 4 es.length ++ es.flatMap elementCodec.encode) =
        some o ∧
      o.map Prod.fst = firstValue fieldName type es := by
  have hmod : es.length % 256 ^ 4 = es.length := by
    apply Nat.mod_eq_of_lt
    unfold maxElements at hmax
    omega
  have hsearch := search_wellFormed fieldName type [] hes
  rw [List.append_nil] at hsearch
  rw [Pack.searchBody, readBE_bytesBE, hmod]
  simpa [not_lt.mpr hmax] using hsearch

/-!
## The round trip
-/

/-- What the getter hands out for an element of its type. -/
def Getter.answer : Getter → AddCall → Option Output
  | .int, .int _ val => some (.number val.toNat)
  | .int64, .int64 _ val => some (.number val.toNat)
  | .str outSize, .str _ val => some (.text (val.1.take (outSize - 1) ++ [0]))
  | .data outSize, .data _ bytes => some (.blob (bytes.take outSize) (min bytes.length outSize))
  | _, _ => none

/-- The answer for the first element added under the name with the getter's type. -/
def Getter.lookup (g : Getter) (calls : List AddCall) (fieldName : CString) : Option Output :=
  calls.findSome? fun call => if call.name.1 = fieldName.1 then g.answer call else none

theorem Getter.answer_eq (g : Getter) (call : AddCall) :
    g.answer call = if call.type = g.type then some (g.output call.value) else none := by
  have hint : ∀ val : UInt32, natBE (bytesBE 4 val.toNat) = val.toNat := fun val =>
    natBE_bytesBE_of_lt (by simpa using val.toNat_lt)
  have hint64 : ∀ val : UInt64, natBE (bytesBE 8 val.toNat) = val.toNat := fun val =>
    natBE_bytesBE_of_lt (by simpa using val.toNat_lt)
  cases g <;> cases call <;>
    simp [answer, AddCall.type, type, output, AddCall.value, typeInt, typeInt64, typeStr, typeData,
      hint, hint64]

theorem matches_element {call : AddCall} (hname : call.name.1.length ≤ 63) (fieldName : CString)
    (type : ℕ) :
    call.element.1.Matches fieldName type ↔ call.name.1 = fieldName.1 ∧ call.type = type := by
  have hlike : LooksLike call.name.1 fieldName ↔ call.name.1 = fieldName.1 := by
    rw [LooksLike, List.take_of_length_le hname, cString_of_notMem call.name.2]
  simp [AddCall.element, Header.Matches, Header.name, Header.type, Header.numValues, hlike]

theorem Getter.lookup_eq (g : Getter) (fieldName : CString) {calls : List AddCall}
    (hnames : ∀ call ∈ calls, call.name.1.length ≤ 63) :
    g.lookup calls fieldName =
      (firstValue fieldName g.type (calls.map AddCall.element)).map g.output := by
  induction calls with
  | nil => rfl
  | cons call calls ih =>
    obtain ⟨hname, hnames⟩ := List.forall_mem_cons.mp hnames
    have ih := ih hnames
    have hmatch := matches_element hname fieldName g.type
    unfold lookup firstValue at ih ⊢
    rw [List.map_cons, List.findSome?_cons, List.findSome?_cons, ih, g.answer_eq]
    simp only [hmatch]
    by_cases hn : call.name.1 = fieldName.1
    · by_cases ht : call.type = g.type
      · simp [hn, ht, AddCall.element]
      · simp [hn, ht]
    · simp [hn]

/-- The getters on a body with the elements of the calls. -/
theorem Getter.get_wellFormed {b : Buffer} {calls : List AddCall}
    (hmax : calls.length ≤ maxElements) (hnames : ∀ call ∈ calls, call.name.1.length ≤ 63)
    (hsize : ∀ call ∈ calls, call.size < 2 ^ 32)
    (hbody : b.body = bytesBE 4 calls.length ++
      (calls.map AddCall.element).flatMap elementCodec.encode)
    (g : Getter) (hg : g.HasRoom) (fieldName : CString) :
    (g.get b fieldName).map Prod.fst = match g.lookup calls fieldName with
      | some out => .ok out
      | none => .error .malformed := by
  have hok : ∀ e ∈ calls.map AddCall.element, elementCodec.Ok e := by
    intro e he
    obtain ⟨call, hcall, rfl⟩ := List.mem_map.mp he
    exact AddCall.element_ok (hsize call hcall)
  obtain ⟨o, ho, hfirst⟩ := searchBody_wellFormed (by simpa using hmax) hok fieldName g.type
  rw [List.length_map, ← hbody] at ho
  have hsome : (searchBody fieldName g.type b.body).isSome := by
    rw [ho]
    rfl
  have hreach := Buffer.walkInReach_of (Or.inr hsome)
  rw [Getter.get_eq fieldName hg hreach, ho, g.lookup_eq fieldName hnames, ← hfirst]
  cases o <;> rfl

theorem pack_roundTrip (fill : Fill) (calls : List (AddCall × Option Fill)) (hne : calls ≠ [])
    (hmax : calls.length ≤ maxElements) (hnames : ∀ c ∈ calls, c.1.name.1.length ≤ 63)
    (hsize : 4 + (calls.map fun c => c.1.size).sum < 2 ^ 32)
    (hrun : packRun (packNew fill) calls ≠ .error .refused) :
    ∃ p, packRun (packNew fill) calls = .ok p ∧ p.contents.length = p.len ∧
      ∀ b : Buffer, b.body = p.contents → ∀ (g : Getter) (fieldName : CString),
        (g.HasRoom → (g.get b fieldName).map Prod.fst =
          match g.lookup (calls.map Prod.fst) fieldName with
          | some out => .ok out
          | none => .error .malformed) ∧
        (¬g.HasRoom → g.get b fieldName = .error .malformed) := by
  have hcount : ([] : List Element).length + calls.length < 2 ^ 32 := by
    unfold maxElements at hmax
    simp only [List.length_nil]
    omega
  obtain hrefused | ⟨p, hp, hholds⟩ := packRun_holds (holds_packNew fill) calls hsize hcount
  · exact absurd hrefused hrun
  rw [List.nil_append] at hholds
  refine ⟨p, hp, List.length_take_of_le hholds.inBlock, ?_⟩
  intro b hbody g fieldName
  refine ⟨fun hg => ?_, fun hg => Getter.get_of_not_hasRoom fieldName hg⟩
  have hmap : (calls.map Prod.fst).map AddCall.element = calls.map fun c => c.1.element := by
    rw [List.map_map]
    rfl
  have hcontents := hholds.contents (by simpa using hne)
  rw [← hbody, ← hmap, List.length_map] at hcontents
  apply Getter.get_wellFormed (by simpa using hmax) ?_ ?_ hcontents g hg
  · intro call hcall
    obtain ⟨c, hc, rfl⟩ := List.mem_map.mp hcall
    exact hnames c hc
  · intro call hcall
    obtain ⟨c, hc, rfl⟩ := List.mem_map.mp hcall
    have hle : c.1.size ≤ (calls.map fun c => c.1.size).sum :=
      List.le_sum_of_mem (List.mem_map_of_mem hc)
    omega

/-- Two elements of one name and different types, the second added twice. -/
def sampleCalls : List (AddCall × Option Fill) :=
  [(.str okName okName, none), (.int okName 7, none), (.int okName 9, none)]

theorem sampleCalls_roundTrip :
    packRun (packNew fun _ => 0) sampleCalls ≠ .error .refused ∧
    ∃ p, packRun (packNew fun _ => 0) sampleCalls = .ok p ∧ p.contents.length = p.len ∧
      ∀ b : Buffer, b.body = p.contents → ∀ (g : Getter) (fieldName : CString),
        (g.HasRoom → (g.get b fieldName).map Prod.fst =
          match g.lookup (sampleCalls.map Prod.fst) fieldName with
          | some out => .ok out
          | none => .error .malformed) ∧
        (¬g.HasRoom → g.get b fieldName = .error .malformed) := by
  have hrun : packRun (packNew fun _ => 0) sampleCalls ≠ .error .refused := by
    decide +kernel
  refine ⟨hrun, pack_roundTrip (fun _ => 0) sampleCalls (by simp [sampleCalls]) (by decide) ?_
    (by decide) hrun⟩
  decide

end SoftEtherVpn.Pack

import SoftEtherVpn.Connect.Hub
import SoftEtherVpn.Pack.ProtocolCopy

/-!
# Which login responses are accepted

`perform_authentication_http` looks for an `error` field in the body of the response. Without
one it takes the body for a Welcome if the bytes of a session field's name occur anywhere in
it. The getter fails alike for a body without the field and for a body that is no PACK, so
the search for the name decides about malformed bodies too.
-/

namespace SoftEtherVpn.Login

open Foundation Connect Pack

def errorName : CString := ⟨ascii "error", by decide⟩

/-- The names of the session fields. -/
def sessionFields : List Bytes :=
  [ascii "session_key", ascii "session_name", ascii "connection_name"]

def bufferContainsToken (buf token : Bytes) : Bool :=
  if token.length = 0 ∨ buf.length < token.length then false
  else
    (List.range (buf.length - token.length + 1)).any fun i =>
      (buf.drop i).take token.length = token

/-- What `perform_authentication_http` makes of the body of the response. -/
def checkLoginResponse (b : Buffer) : Except Fault Err :=
  if b.body.length < 4 then .ok .authentication
  else
    match Protocol.packGetInt b errorName with
    | .ok errVal => .ok (if errVal ≠ 0 then .authentication else .none)
    | .error .malformed =>
      .ok (if sessionFields.any (bufferContainsToken b.body) then .none else .authentication)
    | .error .outside => .error .outside

/-! ### Success replies -/

/-- The body is the PACK of the elements and nothing else. -/
structure WellFormed (body : Bytes) (es : List Element) : Prop where
  bytes : body = bytesBE 4 es.length ++ es.flatMap elementCodec.encode
  count : es.length ≤ maxElements
  elements : ∀ e ∈ es, elementCodec.Ok e

/-- An INT element named `error`. -/
def IsError (e : Element) : Prop := e.1.name = errorName.1 ∧ e.1.type = typeInt

instance (e : Element) : Decidable (IsError e) := inferInstanceAs (Decidable (_ ∧ _))

/-- The first INT element named `error` has the value 0. -/
def FirstErrorZero (es : List Element) : Prop :=
  ∃ e value, es.find? (fun e => IsError e) = some e ∧ e.2.head? = some value ∧ natBE value = 0

/-- A success reply: a PACK without a non-zero error whose first `error` is 0, or which has no
`error` and has a session field. -/
def Genuine (body : Bytes) : Prop :=
  ∃ es, WellFormed body es ∧ (∀ e ∈ es, IsError e → ∀ value ∈ e.2, natBE value = 0) ∧
    (FirstErrorZero es ∨
      (∀ e ∈ es, ¬IsError e) ∧ ∃ e ∈ es, e.1.name ∈ sessionFields)

/-- The first element that is taken for an INT element named `error` has this value: at most
4096 elements are announced, those before it are whole and are not taken for one, and its
name agrees with `error` up to the first NUL. -/
def TakenError (body : Bytes) (errVal : ℕ) : Prop :=
  ∃ count bs es h rest value tail, count ≤ maxElements ∧ body = bytesBE 4 count ++ bs ∧
    StopsAt errorName typeInt count bs es h rest ∧
    (valueCodec typeInt).decode rest = some (value, tail) ∧ natBE value = errVal

/-- The bytes of the body rule it out: its `error` is not 0, or it has none and no name of a
session field occurs in it. -/
def RuledOut (body : Bytes) : Prop :=
  (∃ errVal, errVal ≠ 0 ∧ TakenError body errVal) ∨
    (∀ errVal, ¬TakenError body errVal) ∧ ∀ token ∈ sessionFields, ¬token <:+: body

theorem bufferContainsToken_iff {buf token : Bytes} (h : token ≠ []) :
    bufferContainsToken buf token = true ↔ token <:+: buf := by
  have hpos : token.length ≠ 0 := by simpa using h
  unfold bufferContainsToken
  constructor
  · intro hany
    split_ifs at hany with hshort
    obtain ⟨i, -, hi⟩ := List.any_eq_true.mp hany
    have htake : (buf.drop i).take token.length = token := of_decide_eq_true hi
    rw [← htake]
    exact (List.take_prefix _ _).isInfix.trans (List.drop_suffix _ _).isInfix
  · rintro ⟨before, after, rfl⟩
    have hfits : ¬(token.length = 0 ∨ (before ++ token ++ after).length < token.length) := by
      simp only [List.length_append]
      omega
    rw [if_neg hfits]
    apply List.any_eq_true.mpr
    refine ⟨before.length, ?_, ?_⟩
    · simp only [List.length_append, List.mem_range]
      omega
    · simp

theorem takenError_iff {body : Bytes} {errVal : ℕ} :
    TakenError body errVal ↔
      ∃ value rest, searchBody errorName typeInt body = some (some (value, rest)) ∧
        natBE value = errVal := by
  constructor
  · rintro ⟨count, bs, es, h, rest, value, tail, hmax, hbody, hstop, hvalue, hval⟩
    exact ⟨value, rest,
      searchBody_eq_some.mpr ⟨count, bs, es, h, tail, hmax, hbody, hstop, hvalue⟩, hval⟩
  · rintro ⟨value, rest, hsearch, hval⟩
    obtain ⟨count, bs, es, h, tail, hmax, hbody, hstop, hvalue⟩ := searchBody_eq_some.mp hsearch
    exact ⟨count, bs, es, h, rest, value, tail, hmax, hbody, hstop, hvalue, hval⟩

theorem mem_sessionFields_ne_nil {token : Bytes} (h : token ∈ sessionFields) : token ≠ [] := by
  rintro rfl
  revert h
  decide

/-- What the response check finds in a body whose search does not leave the address space. -/
theorem checkLoginResponse_iff {b : Buffer} (hlong : 4 ≤ b.body.length)
    (hb : b.WalkInReach errorName typeInt) :
    checkLoginResponse b = .ok .none ↔ ¬RuledOut b.body := by
  have hget : Protocol.packGetInt b errorName =
      (b.lift ((searchBody errorName typeInt b.body).join.map fun r => (natBE r.1, r.2))).map
        Prod.fst := by
    rw [Protocol.packGetInt_eq, Pack.packGetInt, packGet_eq reads_int errorName hb]
  have hshort : ¬b.body.length < 4 := not_lt.mpr hlong
  rw [checkLoginResponse, if_neg hshort, hget, RuledOut]
  simp only [takenError_iff]
  cases hsearch : (searchBody errorName typeInt b.body).join with
  | none =>
    have hnone : ∀ value rest, searchBody errorName typeInt b.body ≠ some (some (value, rest)) := by
      intro value rest h
      rw [h] at hsearch
      cases hsearch
    have htokens : sessionFields.any (bufferContainsToken b.body) = true ↔
        ∃ token ∈ sessionFields, token <:+: b.body := by
      rw [List.any_eq_true]
      constructor
      · rintro ⟨token, hmem, htoken⟩
        exact ⟨token, hmem, (bufferContainsToken_iff (mem_sessionFields_ne_nil hmem)).mp htoken⟩
      · rintro ⟨token, hmem, htoken⟩
        exact ⟨token, hmem, (bufferContainsToken_iff (mem_sessionFields_ne_nil hmem)).mpr htoken⟩
    have hnoValue : ∀ errVal, ¬∃ value rest,
        searchBody errorName typeInt b.body = some (some (value, rest)) ∧ natBE value = errVal := by
      rintro errVal ⟨value, rest, h, -⟩
      exact hnone value rest h
    simp only [Option.map_none, Buffer.lift, Except.map]
    by_cases hany : sessionFields.any (bufferContainsToken b.body) = true
    · obtain ⟨token, hmem, htoken⟩ := htokens.mp hany
      simp only [hany, if_true, true_iff]
      rintro (⟨errVal, -, hvalue⟩ | ⟨-, hno⟩)
      · exact hnoValue errVal hvalue
      · exact hno token hmem htoken
    · simp only [hany, Bool.false_eq_true, if_false, Except.ok.injEq, reduceCtorEq, false_iff,
        not_not]
      refine Or.inr ⟨hnoValue, ?_⟩
      intro token hmem htoken
      exact hany (htokens.mpr ⟨token, hmem, htoken⟩)
  | some r =>
    have hsome : searchBody errorName typeInt b.body = some (some (r.1, r.2)) := by
      simpa [Option.join_eq_some_iff] using hsearch
    simp only [Option.map_some, Buffer.lift, Except.map]
    by_cases hzero : natBE r.1 = 0
    · simp only [hzero, ne_eq, not_true_eq_false, if_false, true_iff]
      rintro (⟨errVal, hne, value, rest, h, hval⟩ | ⟨hnone, -⟩)
      · rw [hsome, Option.some.injEq, Option.some.injEq, Prod.mk.injEq] at h
        exact hne (by rw [← hval, ← h.1, hzero])
      · exact hnone _ ⟨r.1, r.2, hsome, rfl⟩
    · simp only [ne_eq, hzero, not_false_eq_true, if_true, Except.ok.injEq, reduceCtorEq,
        false_iff, not_not]
      exact Or.inl ⟨natBE r.1, hzero, r.1, r.2, hsome, rfl⟩

/-- Only success replies are accepted exactly for the bodies that are success replies or that
their bytes rule out. -/
theorem acceptance_sound_iff (b : Buffer) (hlong : 4 ≤ b.body.length)
    (hb : b.WalkInReach errorName typeInt) :
    (checkLoginResponse b = .ok .none → Genuine b.body) ↔ Genuine b.body ∨ RuledOut b.body := by
  rw [checkLoginResponse_iff hlong hb, imp_iff_or_not, not_not]

/-- A body with no error and nothing else. -/
theorem errorZero_accepted :
    checkLoginResponse (Buffer.ofBody (intBody (ascii "error") 0) (by decide)) = .ok .none ∧
      (checkLoginResponse (Buffer.ofBody (intBody (ascii "error") 0) (by decide)) = .ok .none →
        Genuine (intBody (ascii "error") 0)) := by
  refine ⟨by decide +kernel, (acceptance_sound_iff _ (by decide) (Buffer.walkInReach_of
    (Or.inl (Buffer.ofBody_roomy _ _)))).mpr (Or.inl ?_)⟩
  refine ⟨[((ascii "error", typeInt, 1), [bytesBE 4 0])], ⟨?_, by decide, ?_⟩, ?_, Or.inl ?_⟩
  · simp [Buffer.ofBody, intBody]
  · simp only [List.mem_singleton, forall_eq]
    exact ⟨headerCodec_ok (by decide) (by decide) (by decide), rfl, by simp; rfl⟩
  · simp only [List.mem_singleton, forall_eq]
    intro _
    decide
  · exact ⟨_, bytesBE 4 0, rfl, rfl, by decide⟩

/-- Four bytes that announce too many elements, and then the name of a session field. -/
def strayBody : Bytes := [255, 255, 255, 255] ++ ascii "session_key"

theorem strayBody_accepted :
    checkLoginResponse (Buffer.ofBody strayBody (by decide)) = .ok .none ∧ ¬Genuine strayBody := by
  refine ⟨by decide +kernel, ?_⟩
  rintro ⟨es, hes, -⟩
  have hcount := hes.count
  have hmax : maxElements = 4096 := rfl
  have hhead := congrArg (fun bs => natBE (bs.take 4)) hes.bytes
  rw [List.take_left' (bytesBE_length 4 _), natBE_bytesBE_of_lt (by omega)] at hhead
  have hstray : natBE (strayBody.take 4) = 4294967295 := by decide
  omega

end SoftEtherVpn.Login

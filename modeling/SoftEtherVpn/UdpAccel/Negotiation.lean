import SoftEtherVpn.Foundation.Cursor
import SoftEtherVpn.Pack.Search
import SoftEtherVpn.Reconnect.Session

/-!
# The key of the UDP acceleration

The Welcome announces a version and has a key for each version. `softether_connect_with_hub`
chooses the key by the announced version and gives it to `rudp_init_client`, which copies it
into the keys of both versions as far as it is long enough; `rudp_set_version` then goes back
to version 1 if the cipher of version 2 could not be set up. The three steps do not look at
each other.
-/

namespace SoftEtherVpn.UdpAccel

open Foundation Pack Reconnect

def commonKeySizeV1 : ℕ := 20
def commonKeySizeV2 : ℕ := 128

/-- The keys of an RUDP context. -/
structure KeyContext where
  yourKey : Bytes
  yourKeyV2 : Bytes
  version : ℕ
  v2CipherInited : Bool
  inited : Bool

/-- `rudp_create` fills the keys at random. -/
def rudpCreate (yourKey yourKeyV2 : Bytes) : KeyContext := ⟨yourKey, yourKeyV2, 1, false, false⟩

/-- What the calls outside give: whether there is a context at all, whether the peer's address
and the socket are good, and whether the cipher contexts are allocated. -/
structure RudpEnv where
  useTcp : Bool
  created : Bool
  peerOk : Bool
  cipherAllocated : Bool

/-- The int that a 32-bit number is cast to. -/
def castInt (n : ℕ) : ℤ := if n < 2 ^ 31 then n else n - 2 ^ 32

/-- The RUDP fields of the connection after the Welcome: the session's, the version and
whether RUDP is enabled. -/
structure Negotiated where
  session : Session
  rudpVersion : ℤ
  rudpEnabled : Bool

/-- The RUDP part of the Welcome, on a connection that has RUDP disabled. -/
def parseRudpFields (b : Buffer) (serverIp : Bytes) (s : Session) (version : ℤ) : Negotiated :=
  if Welcome.usesUdp b then
    ⟨s.applyUdp b serverIp,
      castInt ((fieldInt b ⟨ascii "udp_acceleration_version", by decide⟩).getD 1), true⟩
  else ⟨s, version, false⟩

def rudpInitV2Cipher (allocated : Bool) (ctx : KeyContext) : KeyContext :=
  { ctx with v2CipherInited := allocated }

def rudpInitClient (env : RudpEnv) (serverKey : Bytes) (serverKeySize : ℕ) (ctx : KeyContext) :
    Option KeyContext :=
  if env.peerOk = false then none
  else
    let ctx :=
      if serverKeySize ≥ commonKeySizeV1 then
        { ctx with
          yourKey := splice ctx.yourKey 0 (serverKey.take commonKeySizeV1)
          yourKeyV2 :=
            if serverKeySize ≥ commonKeySizeV2 then
              splice ctx.yourKeyV2 0 (serverKey.take commonKeySizeV2)
            else ctx.yourKeyV2 }
      else ctx
    let ctx :=
      if serverKeySize ≥ commonKeySizeV2 then rudpInitV2Cipher env.cipherAllocated ctx else ctx
    some { ctx with inited := true }

def rudpSetVersion (version : ℤ) (ctx : KeyContext) : KeyContext :=
  { ctx with version := if version ≥ 2 ∧ ctx.v2CipherInited = true then 2 else 1 }

/-- The key for the announced version, and its size. -/
def chosenKey (n : Negotiated) : Bytes × ℕ :=
  if n.rudpVersion ≥ 2 ∧ 0 < n.session.rudpServerKeyV2Size then
    (n.session.rudpServerKeyV2, n.session.rudpServerKeyV2Size)
  else (n.session.rudpServerKey, n.session.rudpServerKeySize)

/-- The RUDP step of `softether_connect_with_hub`: whether RUDP stays enabled, and the context. -/
def initRudp (env : RudpEnv) (n : Negotiated) (ctx : KeyContext) : Bool × KeyContext :=
  if env.useTcp = true ∨ env.created = false ∨ n.rudpEnabled = false then (n.rudpEnabled, ctx)
  else if n.session.rudpServerPort = 0 ∨
      n.session.rudpServerKeySize = 0 ∧ n.session.rudpServerKeyV2Size = 0 then (false, ctx)
  else
    match rudpInitClient env (chosenKey n).1 (chosenKey n).2 ctx with
    | some ctx => (true, rudpSetVersion n.rudpVersion ctx)
    | none => (false, ctx)

/-- The key with which `rudp_poll` opens datagrams. -/
def KeyContext.openKey (ctx : KeyContext) : Bytes :=
  if ctx.version = 1 then ctx.yourKey else ctx.yourKeyV2

/-! ### What the server sent -/

/-- The data of a key field, all of it. -/
def sentKey (b : Buffer) (version : ℕ) : Option Bytes :=
  if version = 1 then fieldData b Welcome.serverKeyName (2 ^ 32 - 1)
  else fieldData b Welcome.serverKeyV2Name (2 ^ 32 - 1)

/-- The context opens datagrams with the key that the server sent for the context's version. -/
def RightKey (b : Buffer) (ctx : KeyContext) : Prop := sentKey b ctx.version = some ctx.openKey

section Copies

variable {b : Buffer} {fieldName : CString}

/-- Two getters that differ in what they make of the value find the same element. -/
theorem searchLoop_ok_map {α β : Type} {type : ℕ} {read : ℕ → Except Fault α}
    {read' : ℕ → Except Fault β} {f : α → β}
    (h : ∀ p value, read p = .ok value → read' p = .ok (f value)) (n : ℕ) {p : ℕ} {r : α × ℕ}
    (hloop : searchLoop b fieldName type read n p = .ok r) :
    searchLoop b fieldName type read' n p = .ok (f r.1, r.2) := by
  induction n generalizing p with
  | zero => cases hloop
  | succ n ih =>
    simp only [searchLoop] at hloop ⊢
    cases hmatch : packMatchElement b fieldName type p with
    | error fault => simp [hmatch, bind, Except.bind] at hloop
    | ok m =>
      obtain ⟨matched, p⟩ := m
      simp only [hmatch, bind, Except.bind] at hloop ⊢
      cases matched with
      | false => exact ih hloop
      | true =>
        cases hread : read p with
        | error fault => simp [hread, Except.map] at hloop
        | ok value =>
          simp only [hread, Except.map, if_true, Except.ok.injEq] at hloop
          subst hloop
          simp [h p value hread, Except.map]

theorem load_take {p n m : ℕ} {bytes : Bytes} (h : b.load p n = .ok bytes) (hm : m ≤ n) :
    b.load p m = .ok (bytes.take m) := by
  unfold Buffer.load at h ⊢
  by_cases hzero : m = 0
  · simp [hzero]
  · have hn : n ≠ 0 := by omega
    rw [if_neg hn] at h
    split_ifs at h with hin
    cases h
    rw [if_neg hzero, if_pos ⟨hin.1, by omega⟩, List.take_take, Nat.min_eq_left hm]

theorem load_length {p n : ℕ} {bytes : Bytes} (h : b.load p n = .ok bytes) : bytes.length ≤ n := by
  unfold Buffer.load at h
  split_ifs at h with hzero hin
  · cases h
    exact Nat.zero_le _
  · cases h
    exact List.length_take_le _ _

theorem readUintSafe_lt {p : ℕ} {r : ℕ × ℕ} (h : readUintSafe b 4 p = .ok r) : r.1 < 2 ^ 32 := by
  unfold readUintSafe at h
  split_ifs at h
  cases hload : b.load p 4 with
  | error fault => simp [hload, Except.map] at h
  | ok bytes =>
    simp only [hload, Except.map, Except.ok.injEq] at h
    subst h
    have hlt := natBE_lt bytes
    have hpow : 256 ^ bytes.length ≤ 256 ^ 4 :=
      Nat.pow_le_pow_right (by decide) (load_length hload)
    have hnum : (256 : ℕ) ^ 4 = 2 ^ 32 := by norm_num
    dsimp only
    omega

theorem packReadData_take (n : ℕ) {p : ℕ} {value : Bytes × ℕ}
    (h : packReadData b (2 ^ 32 - 1) p = .ok value) :
    packReadData b n p = .ok (value.1.take n, if value.2 < n then value.2 else n) := by
  unfold packReadData at h ⊢
  cases hread : readUintSafe b 4 p with
  | error fault => simp [hread, bind, Except.bind] at h
  | ok r =>
    obtain ⟨dataLen, p'⟩ := r
    have hlt : dataLen < 2 ^ 32 := readUintSafe_lt hread
    have hall : (if dataLen < 2 ^ 32 - 1 then dataLen else 2 ^ 32 - 1) = dataLen := by
      split_ifs <;> omega
    simp only [hread, bind, Except.bind, hall] at h ⊢
    by_cases hbeyond : b.beyond p' dataLen
    · simp [hbeyond] at h
    · rw [if_neg hbeyond] at h ⊢
      cases hload : b.load p' dataLen with
      | error fault => simp [hload, Except.map] at h
      | ok bytes =>
        simp only [hload, Except.map, Except.ok.injEq] at h
        subst h
        by_cases hless : dataLen < n
        · have htake : bytes.take n = bytes :=
            List.take_of_length_le ((load_length hload).trans hless.le)
          simp [hless, hload, htake, Except.map]
        · simp [hless, load_take hload (not_lt.mp hless), Except.map]

theorem searchLoop_read {α : Type} {type : ℕ} {read : ℕ → Except Fault α} (n : ℕ) {p : ℕ}
    {r : α × ℕ} (h : searchLoop b fieldName type read n p = .ok r) : read r.2 = .ok r.1 := by
  induction n generalizing p with
  | zero => cases h
  | succ n ih =>
    simp only [searchLoop] at h
    cases hmatch : packMatchElement b fieldName type p with
    | error fault => simp [hmatch, bind, Except.bind] at h
    | ok m =>
      obtain ⟨matched, p⟩ := m
      simp only [hmatch, bind, Except.bind] at h
      cases matched with
      | false => exact ih h
      | true =>
        cases hread : read p with
        | error fault => simp [hread, Except.map] at h
        | ok value =>
          simp only [hread, Except.map, if_true, Except.ok.injEq] at h
          subst h
          exact hread

theorem packReadData_length {n p : ℕ} {value : Bytes × ℕ} (h : packReadData b n p = .ok value) :
    value.1.length ≤ n := by
  unfold packReadData at h
  cases hread : readUintSafe b 4 p with
  | error fault => simp [hread, bind, Except.bind] at h
  | ok r =>
    obtain ⟨dataLen, p'⟩ := r
    simp only [hread, bind, Except.bind] at h
    by_cases hbeyond : b.beyond p' dataLen
    · simp [hbeyond] at h
    · rw [if_neg hbeyond] at h
      cases hload : b.load p' (if dataLen < n then dataLen else n) with
      | error fault => simp [hload, Except.map] at h
      | ok bytes =>
        simp only [hload, Except.map, Except.ok.injEq] at h
        subst h
        have hlength := load_length hload
        dsimp only
        split_ifs at hlength <;> omega

theorem fieldData_eq_some_iff {n : ℕ} {data : Bytes} :
    fieldData b fieldName n = some data ↔
      n ≠ 0 ∧ ¬b.body.length < 4 ∧ ∃ numElements p r,
        readUintSafe b 4 b.base = .ok (numElements, p) ∧ ¬numElements > maxElements ∧
        searchLoop b fieldName typeData (packReadData b n) numElements p = .ok r ∧
        r.1.1 = data := by
  unfold fieldData packGetData packGet
  by_cases hn : n = 0
  · simp [hn, Except.toOption]
  by_cases hshort : b.body.length < 4
  · simp [hn, hshort, Except.toOption]
  rw [if_neg hn, if_neg hshort]
  simp only [ne_eq, hn, hshort, not_false_eq_true, true_and]
  cases hcount : readUintSafe b 4 b.base with
  | error fault => simp [bind, Except.bind, Except.toOption]
  | ok r =>
    obtain ⟨numElements, p⟩ := r
    simp only [bind, Except.bind, Except.ok.injEq, Prod.mk.injEq]
    by_cases hmany : numElements > maxElements
    · simp only [hmany, if_true, Except.toOption, Option.map_none, reduceCtorEq, false_iff]
      rintro ⟨m, p', r, ⟨rfl, rfl⟩, hnot, -⟩
      exact hnot hmany
    · rw [if_neg hmany]
      constructor
      · intro h
        cases hloop : searchLoop b fieldName typeData (packReadData b n) numElements p with
        | error fault =>
          rw [hloop] at h
          cases h
        | ok r =>
          rw [hloop] at h
          exact ⟨numElements, p, r, ⟨rfl, rfl⟩, hmany, hloop, Option.some.inj h⟩
      · rintro ⟨m, p', r, ⟨rfl, rfl⟩, -, hloop, hdata⟩
        rw [hloop, ← hdata]
        rfl

/-- The data fits the buffer. -/
theorem fieldData_getD_length (n : ℕ) : ((fieldData b fieldName n).getD []).length ≤ n := by
  cases hdata : fieldData b fieldName n with
  | none => exact Nat.zero_le _
  | some data =>
    obtain ⟨-, -, numElements, p, r, -, -, hloop, rfl⟩ := fieldData_eq_some_iff.mp hdata
    exact packReadData_length (searchLoop_read numElements hloop)

/-- A smaller buffer gets the front of the data. -/
theorem fieldData_take {data : Bytes} (h : fieldData b fieldName (2 ^ 32 - 1) = some data) {n : ℕ}
    (hn : 0 < n) : fieldData b fieldName n = some (data.take n) := by
  obtain ⟨-, hlong, numElements, p, r, hcount, hfew, hloop, rfl⟩ := fieldData_eq_some_iff.mp h
  have hloop' := searchLoop_ok_map (fun p value => packReadData_take n) numElements hloop
  exact fieldData_eq_some_iff.mpr ⟨hn.ne', hlong, numElements, p, _, hcount, hfew, hloop', rfl⟩

end Copies

/-! ### The exact condition -/

/-- The lengths of the arrays that hold keys. -/
structure KeyArrays (s : Session) (yourKey yourKeyV2 : Bytes) : Prop where
  serverKey : s.rudpServerKey.length = commonKeySizeV2
  serverKeyV2 : s.rudpServerKeyV2.length = commonKeySizeV2
  yourKey : yourKey.length = commonKeySizeV1
  yourKeyV2 : yourKeyV2.length = commonKeySizeV2

/-- RUDP is started: it is asked for and enabled, there is a port and a key, and the peer's
address is good. -/
structure Starts (env : RudpEnv) (n : Negotiated) : Prop where
  udp : env.useTcp = false
  created : env.created = true
  enabled : n.rudpEnabled = true
  port : n.session.rudpServerPort ≠ 0
  key : n.session.rudpServerKeySize ≠ 0 ∨ n.session.rudpServerKeyV2Size ≠ 0
  peer : env.peerOk = true

/-- The context is left with the version 2. -/
def EndsV2 (env : RudpEnv) (n : Negotiated) : Prop :=
  n.rudpVersion ≥ 2 ∧ commonKeySizeV2 ≤ (chosenKey n).2 ∧ env.cipherAllocated = true

theorem initRudp_of_not_starts {env : RudpEnv} {n : Negotiated} (ctx : KeyContext)
    (h : ¬Starts env n) : (initRudp env n ctx).1 = false ∨ (initRudp env n ctx).2 = ctx := by
  unfold initRudp
  split_ifs with hoff hkey
  · exact Or.inr rfl
  · exact Or.inl rfl
  · left
    have hpeer : env.peerOk = false := by
      by_contra hpeer
      apply h
      rw [not_or, not_or] at hoff
      rw [not_or] at hkey
      exact ⟨by simpa using hoff.1, by simpa using hoff.2.1, by simpa using hoff.2.2, hkey.1,
        not_and_or.mp hkey.2, by simpa using hpeer⟩
    simp [rudpInitClient, hpeer]

theorem initRudp_started {env : RudpEnv} {n : Negotiated} (ctx : KeyContext) (h : Starts env n) :
    (initRudp env n ctx).1 = true ∧ (initRudp env n ctx).2.inited = true := by
  obtain ⟨hudp, hcreated, henabled, hport, hkeys, hpeer⟩ := h
  unfold initRudp
  rw [if_neg (by simp [hudp, hcreated, henabled]), if_neg (by tauto)]
  simp [rudpInitClient, hpeer, rudpSetVersion]

theorem splice_zero_of_length {α : Type*} {old new : List α} (h : old.length ≤ new.length) :
    splice old 0 new = new := by
  simp [splice, List.drop_eq_nil_of_le h]

/-- The context after a start: the chosen key is in use for both versions. -/
theorem initRudp_of_starts {env : RudpEnv} {n : Negotiated} {yourKey yourKeyV2 : Bytes}
    (h : Starts env n) (hkey : (chosenKey n).1.length = commonKeySizeV2)
    (hyour : yourKey.length = commonKeySizeV1) (hyour2 : yourKeyV2.length = commonKeySizeV2) :
    (EndsV2 env n →
        (initRudp env n (rudpCreate yourKey yourKeyV2)).2.version = 2 ∧
          (initRudp env n (rudpCreate yourKey yourKeyV2)).2.openKey = (chosenKey n).1) ∧
      (¬EndsV2 env n →
        (initRudp env n (rudpCreate yourKey yourKeyV2)).2.version = 1 ∧
          (initRudp env n (rudpCreate yourKey yourKeyV2)).2.openKey =
            if commonKeySizeV1 ≤ (chosenKey n).2 then (chosenKey n).1.take commonKeySizeV1
            else yourKey) := by
  obtain ⟨hudp, hcreated, henabled, hport, hkeys, hpeer⟩ := h
  have hgo : initRudp env n (rudpCreate yourKey yourKeyV2) =
      match rudpInitClient env (chosenKey n).1 (chosenKey n).2 (rudpCreate yourKey yourKeyV2) with
      | some ctx => (true, rudpSetVersion n.rudpVersion ctx)
      | none => (false, rudpCreate yourKey yourKeyV2) := by
    unfold initRudp
    rw [if_neg (by simp [hudp, hcreated, henabled]), if_neg (by tauto)]
  unfold EndsV2
  rw [hgo]
  generalize chosenKey n = chosen at hkey
  obtain ⟨key, size⟩ := chosen
  dsimp only at hkey ⊢
  have htake : splice yourKey 0 (key.take commonKeySizeV1) = key.take commonKeySizeV1 := by
    apply splice_zero_of_length
    rw [List.length_take, hkey, hyour]
    decide
  have hwhole : splice yourKeyV2 0 (key.take commonKeySizeV2) = key := by
    rw [List.take_of_length_le hkey.le]
    apply splice_zero_of_length
    rw [hkey, hyour2]
  have horder : commonKeySizeV1 ≤ commonKeySizeV2 := by decide
  unfold rudpInitClient
  rw [if_neg (by simp [hpeer])]
  by_cases hlong : commonKeySizeV2 ≤ size
  · have hsome : commonKeySizeV1 ≤ size := horder.trans hlong
    simp only [ge_iff_le, hsome, hlong, if_true, rudpSetVersion, rudpInitV2Cipher, rudpCreate,
      htake, hwhole, true_and, KeyContext.openKey]
    by_cases hv2 : 2 ≤ n.rudpVersion ∧ env.cipherAllocated = true <;> simp [hv2]
  · by_cases hsome : commonKeySizeV1 ≤ size <;>
      simp [hsome, hlong, rudpSetVersion, rudpCreate, htake, KeyContext.openKey]

/-- The size that is stored for a key: of what the Welcome has, or of what was there before. -/
def storedSize (data : Bytes) (old : ℕ) : ℕ := if 0 < data.length then data.length else old

def announcedVersion (b : Buffer) : ℤ :=
  castInt ((fieldInt b ⟨ascii "udp_acceleration_version", by decide⟩).getD 1)

/-- RUDP is asked for, the Welcome offers it, there is a port and a key, from the Welcome or
from before, and the peer's address is good. -/
def Begins (env : RudpEnv) (b : Buffer) (old : Session) : Prop :=
  env.useTcp = false ∧ env.created = true ∧ env.peerOk = true ∧ Welcome.usesUdp b = true ∧
    (Welcome.serverPort b).getD old.rudpServerPort ≠ 0 ∧
    (storedSize (Welcome.serverKey b) old.rudpServerKeySize ≠ 0 ∨
      storedSize (Welcome.serverKeyV2 b) old.rudpServerKeyV2Size ≠ 0)

/-- The key field that is used belongs to the version that is used. With a version 2 announced
and a key for it at hand, that key has its 128 bytes and the cipher is there; or the context
falls back to version 1 and the server's key of version 1 happens to be the front of the other.
Otherwise the context stays at version 1 and the server sent a key of 20 bytes for it. -/
def KeyFits (env : RudpEnv) (b : Buffer) (old : Session) (yourKey : Bytes) : Prop :=
  if announcedVersion b ≥ 2 ∧ 0 < storedSize (Welcome.serverKeyV2 b) old.rudpServerKeyV2Size then
    if commonKeySizeV2 ≤ storedSize (Welcome.serverKeyV2 b) old.rudpServerKeyV2Size ∧
        env.cipherAllocated = true then
      ∃ key, sentKey b 2 = some key ∧ key.length = commonKeySizeV2
    else
      sentKey b 1 = some
        (if commonKeySizeV1 ≤ storedSize (Welcome.serverKeyV2 b) old.rudpServerKeyV2Size then
          (splice old.rudpServerKeyV2 0 (Welcome.serverKeyV2 b)).take commonKeySizeV1
        else yourKey)
  else
    ¬(announcedVersion b ≥ 2 ∧
        commonKeySizeV2 ≤ storedSize (Welcome.serverKey b) old.rudpServerKeySize ∧
        env.cipherAllocated = true) ∧
      ∃ key, sentKey b 1 = some key ∧ key.length = commonKeySizeV1

section Welcome

variable {b : Buffer}

theorem parse_offered (old : Session) (serverIp : Bytes) (version : ℤ)
    (h : Welcome.usesUdp b = true) :
    (parseRudpFields b serverIp old version).rudpEnabled = true ∧
      (parseRudpFields b serverIp old version).rudpVersion = announcedVersion b ∧
      (parseRudpFields b serverIp old version).session.rudpServerPort =
        (Welcome.serverPort b).getD old.rudpServerPort ∧
      (parseRudpFields b serverIp old version).session.rudpServerKey =
        splice old.rudpServerKey 0 (Welcome.serverKey b) ∧
      (parseRudpFields b serverIp old version).session.rudpServerKeySize =
        storedSize (Welcome.serverKey b) old.rudpServerKeySize ∧
      (parseRudpFields b serverIp old version).session.rudpServerKeyV2 =
        splice old.rudpServerKeyV2 0 (Welcome.serverKeyV2 b) ∧
      (parseRudpFields b serverIp old version).session.rudpServerKeyV2Size =
        storedSize (Welcome.serverKeyV2 b) old.rudpServerKeyV2Size := by
  simp [parseRudpFields, h, Session.applyUdp, announcedVersion, storedSize]

theorem starts_iff_begins (old : Session) (serverIp : Bytes) (version : ℤ) {env : RudpEnv} :
    Starts env (parseRudpFields b serverIp old version) ↔ Begins env b old := by
  by_cases hudp : Welcome.usesUdp b = true
  · obtain ⟨henabled, -, hport, -, hsize, -, hsizeV2⟩ :=
      parse_offered old serverIp version hudp
    constructor
    · intro h
      refine ⟨h.udp, h.created, h.peer, hudp, hport ▸ h.port, ?_⟩
      rw [← hsize, ← hsizeV2]
      exact h.key
    · rintro ⟨htcp, hcreated, hpeer, -, hp, hk⟩
      rw [← hsize, ← hsizeV2] at hk
      exact ⟨htcp, hcreated, henabled, hport.symm ▸ hp, hk, hpeer⟩
  · have hoff : (parseRudpFields b serverIp old version).rudpEnabled = false := by
      simp [parseRudpFields, hudp]
    constructor
    · intro h
      rw [h.enabled] at hoff
      cases hoff
    · rintro ⟨-, -, -, h, -⟩
      exact absurd h hudp

/-- The stored key is the front of what the server sent. -/
theorem serverKey_of_sent {key : Bytes} (h : sentKey b 1 = some key) :
    Welcome.serverKey b = key.take commonKeySizeV2 := by
  have := fieldData_take (show fieldData b _ (2 ^ 32 - 1) = some key from h) (show 0 < 128 by decide)
  rw [Welcome.serverKey, this]
  rfl

theorem serverKeyV2_of_sent {key : Bytes} (h : sentKey b 2 = some key) :
    Welcome.serverKeyV2 b = key.take commonKeySizeV2 := by
  have := fieldData_take (show fieldData b _ (2 ^ 32 - 1) = some key from h) (show 0 < 128 by decide)
  rw [Welcome.serverKeyV2, this]
  rfl

end Welcome

section Started

variable {env : RudpEnv} {b : Buffer} {old : Session} {yourKey yourKeyV2 : Bytes}
  (serverIp : Bytes) (version : ℤ) (harrays : KeyArrays old yourKey yourKeyV2)
  (hbegins : Begins env b old)

theorem splice_fieldData_length {array : Bytes} (h : array.length = commonKeySizeV2)
    (name : CString) :
    (splice array 0 ((fieldData b name 128).getD [])).length = commonKeySizeV2 := by
  rw [splice_length, h]
  rw [h, zero_add]
  exact fieldData_getD_length _

include harrays hbegins

/-- The key of version 2 is chosen: it is right for version 2 if it has all its bytes, and after
the fallback to version 1 if its front is the other key. -/
theorem rightKey_iff_of_v2Chosen
    (hpick : announcedVersion b ≥ 2 ∧
      0 < storedSize (Welcome.serverKeyV2 b) old.rudpServerKeyV2Size) :
    RightKey b (initRudp env (parseRudpFields b serverIp old version)
        (rudpCreate yourKey yourKeyV2)).2 ↔
      if commonKeySizeV2 ≤ storedSize (Welcome.serverKeyV2 b) old.rudpServerKeyV2Size ∧
          env.cipherAllocated = true then
        ∃ key, sentKey b 2 = some key ∧ key.length = commonKeySizeV2
      else
        sentKey b 1 = some
          (if commonKeySizeV1 ≤ storedSize (Welcome.serverKeyV2 b) old.rudpServerKeyV2Size then
            (splice old.rudpServerKeyV2 0 (Welcome.serverKeyV2 b)).take commonKeySizeV1
          else yourKey) := by
  obtain ⟨-, hversion, -, -, -, hkeyV2, hsizeV2⟩ :=
    parse_offered old serverIp version hbegins.2.2.2.1
  have hstarts := (starts_iff_begins old serverIp version).mpr hbegins
  generalize parseRudpFields b serverIp old version = n at *
  have hlengthV2 : (splice old.rudpServerKeyV2 0 (Welcome.serverKeyV2 b)).length =
      commonKeySizeV2 := splice_fieldData_length harrays.serverKeyV2 _
  have hchosen : chosenKey n = (splice old.rudpServerKeyV2 0 (Welcome.serverKeyV2 b),
      storedSize (Welcome.serverKeyV2 b) old.rudpServerKeyV2Size) := by
    rw [chosenKey, hversion, hsizeV2, if_pos hpick, hkeyV2]
  obtain ⟨hv2, hv1⟩ := initRudp_of_starts hstarts (by rw [hchosen]; exact hlengthV2)
    harrays.yourKey harrays.yourKeyV2
  unfold EndsV2 at hv2 hv1
  rw [hchosen, hversion] at hv2 hv1
  dsimp only at hv2 hv1
  by_cases hends : commonKeySizeV2 ≤ storedSize (Welcome.serverKeyV2 b) old.rudpServerKeyV2Size ∧
      env.cipherAllocated = true
  · obtain ⟨hversion2, hopen⟩ := hv2 ⟨hpick.1, hends⟩
    rw [if_pos hends, RightKey, hversion2, hopen]
    constructor
    · intro hsent
      exact ⟨_, hsent, hlengthV2⟩
    · rintro ⟨key, hsent, hkeyLength⟩
      rw [hsent, serverKeyV2_of_sent hsent, List.take_of_length_le hkeyLength.le,
        splice_zero_of_length (by rw [harrays.serverKeyV2, hkeyLength])]
  · obtain ⟨hversion1, hopen⟩ := hv1 (fun h => hends h.2)
    rw [if_neg hends, RightKey, hversion1, hopen]

/-- The key of version 1 is chosen: it is right if the context stays at version 1 and the server
sent all its bytes. -/
theorem rightKey_iff_of_v1Chosen
    (hpick : ¬(announcedVersion b ≥ 2 ∧
      0 < storedSize (Welcome.serverKeyV2 b) old.rudpServerKeyV2Size)) :
    RightKey b (initRudp env (parseRudpFields b serverIp old version)
        (rudpCreate yourKey yourKeyV2)).2 ↔
      ¬(announcedVersion b ≥ 2 ∧
          commonKeySizeV2 ≤ storedSize (Welcome.serverKey b) old.rudpServerKeySize ∧
          env.cipherAllocated = true) ∧
        ∃ key, sentKey b 1 = some key ∧ key.length = commonKeySizeV1 := by
  obtain ⟨-, hversion, -, hkey, hsize, -, hsizeV2⟩ :=
    parse_offered old serverIp version hbegins.2.2.2.1
  have hstarts := (starts_iff_begins old serverIp version).mpr hbegins
  generalize parseRudpFields b serverIp old version = n at *
  have hlength : (splice old.rudpServerKey 0 (Welcome.serverKey b)).length = commonKeySizeV2 :=
    splice_fieldData_length harrays.serverKey _
  have hchosen : chosenKey n = (splice old.rudpServerKey 0 (Welcome.serverKey b),
      storedSize (Welcome.serverKey b) old.rudpServerKeySize) := by
    rw [chosenKey, hversion, hsizeV2, if_neg hpick, hkey, hsize]
  obtain ⟨hv2, hv1⟩ := initRudp_of_starts hstarts (by rw [hchosen]; exact hlength)
    harrays.yourKey harrays.yourKeyV2
  unfold EndsV2 at hv2 hv1
  rw [hchosen, hversion] at hv2 hv1
  dsimp only at hv2 hv1
  by_cases hends : announcedVersion b ≥ 2 ∧
      commonKeySizeV2 ≤ storedSize (Welcome.serverKey b) old.rudpServerKeySize ∧
      env.cipherAllocated = true
  · obtain ⟨hversion2, hopen⟩ := hv2 hends
    rw [RightKey, hversion2, hopen]
    constructor
    · intro hsent
      exfalso
      apply hpick
      refine ⟨hends.1, ?_⟩
      rw [storedSize, serverKeyV2_of_sent hsent, List.take_of_length_le hlength.le, hlength]
      simp [commonKeySizeV2]
    · rintro ⟨hnot, -⟩
      exact absurd hends hnot
  · obtain ⟨hversion1, hopen⟩ := hv1 hends
    rw [RightKey, hversion1, hopen]
    constructor
    · intro hsent
      refine ⟨hends, _, hsent, ?_⟩
      split_ifs
      · rw [List.length_take, hlength]
        decide
      · exact harrays.yourKey
    · rintro ⟨-, key, hsent, hkeyLength⟩
      have hstored : Welcome.serverKey b = key := by
        rw [serverKey_of_sent hsent, List.take_of_length_le (by rw [hkeyLength]; decide)]
      have hlong : commonKeySizeV1 ≤
          storedSize (Welcome.serverKey b) old.rudpServerKeySize := by
        rw [storedSize, hstored, hkeyLength]
        simp [commonKeySizeV1]
      rw [if_pos hlong, hstored, hsent]
      congr 1
      rw [splice, List.take_zero, List.nil_append, List.take_left' hkeyLength]

/-- After a start the key is right exactly if the key field fits the version. -/
theorem rightKey_iff_fits :
    RightKey b (initRudp env (parseRudpFields b serverIp old version)
        (rudpCreate yourKey yourKeyV2)).2 ↔ KeyFits env b old yourKey := by
  unfold KeyFits
  by_cases hpick : announcedVersion b ≥ 2 ∧
      0 < storedSize (Welcome.serverKeyV2 b) old.rudpServerKeyV2Size
  · rw [if_pos hpick]
    exact rightKey_iff_of_v2Chosen serverIp version harrays hbegins hpick
  · rw [if_neg hpick]
    exact rightKey_iff_of_v1Chosen serverIp version harrays hbegins hpick

end Started

/-- If RUDP is started, the key that opens datagrams is the one the server sent in this Welcome
for the version in use, exactly if the key field fits the version. -/
theorem negotiatedKey_iff (env : RudpEnv) (b : Buffer) (old : Session) (serverIp : Bytes)
    (version : ℤ) (yourKey yourKeyV2 : Bytes) (harrays : KeyArrays old yourKey yourKeyV2) :
    ((initRudp env (parseRudpFields b serverIp old version) (rudpCreate yourKey yourKeyV2)).1 =
          true →
        (initRudp env (parseRudpFields b serverIp old version)
          (rudpCreate yourKey yourKeyV2)).2.inited = true →
        RightKey b (initRudp env (parseRudpFields b serverIp old version)
          (rudpCreate yourKey yourKeyV2)).2) ↔
      (Begins env b old → KeyFits env b old yourKey) := by
  by_cases hbegins : Begins env b old
  · have hstarts := (starts_iff_begins old serverIp version).mpr hbegins
    have hfits := rightKey_iff_fits serverIp version harrays hbegins
    constructor
    · intro hright _
      obtain ⟨henabled, hinited⟩ := initRudp_started (rudpCreate yourKey yourKeyV2) hstarts
      exact hfits.mp (hright henabled hinited)
    · intro h _ _
      exact hfits.mpr (h hbegins)
  · have hstarts := mt (starts_iff_begins old serverIp version).mp hbegins
    constructor
    · intro _ h
      exact absurd h hbegins
    · intro _ henabled hinited
      rcases initRudp_of_not_starts (rudpCreate yourKey yourKeyV2) hstarts with hoff | hctx
      · rw [hoff] at henabled
        cases henabled
      · rw [hctx] at hinited
        cases hinited

def intElement (name : String) (value : ℕ) : Element :=
  ((ascii name, typeInt, 1), [bytesBE 4 value])

def dataElement (name : String) (value : Bytes) : Element := ((ascii name, typeData, 1), [value])

/-- A Welcome that announces version 2 and has a key for each version. -/
def bothKeysBody : Bytes :=
  bytesBE 4 5 ++ [intElement "use_udp_acceleration" 1, intElement "udp_acceleration_version" 2,
    intElement "udp_acceleration_server_port" 1194,
    dataElement "udp_acceleration_server_key" (List.replicate 20 1),
    dataElement "udp_acceleration_server_key_v2" (List.replicate 128 2)].flatMap
      elementCodec.encode

def bothKeys : Buffer where
  width := 64
  base := 4096
  body := bothKeysBody
  inSpace := by decide +kernel
  lengthFits := by decide +kernel

/-- The Welcome on a new connection with UDP, with or without the cipher of version 2. -/
def bothKeysStart (cipherAllocated : Bool) : Bool × KeyContext :=
  initRudp ⟨false, true, true, cipherAllocated⟩ (parseRudpFields bothKeys [] Session.created 0)
    (rudpCreate (List.replicate 20 0) (List.replicate 128 0))

theorem bothKeys_arrays :
    KeyArrays Session.created (List.replicate 20 0) (List.replicate 128 0) :=
  ⟨by decide +kernel, by decide +kernel, by decide +kernel, by decide +kernel⟩

theorem bothKeys_rightKey :
    (bothKeysStart true).1 = true ∧ (bothKeysStart true).2.version = 2 ∧
      RightKey bothKeys (bothKeysStart true).2 := by
  refine ⟨by decide +kernel, by decide +kernel, (negotiatedKey_iff ⟨false, true, true, true⟩ bothKeys
    Session.created [] 0 _ _ bothKeys_arrays).mpr ?_ (by decide +kernel) (by decide +kernel)⟩
  intro _
  have hsent : sentKey bothKeys 2 = some (List.replicate 128 2) := by decide +kernel
  have hversion : announcedVersion bothKeys ≥ 2 := by decide +kernel
  have hsize : commonKeySizeV2 ≤ storedSize (Welcome.serverKeyV2 bothKeys)
      Session.created.rudpServerKeyV2Size := by decide +kernel
  have hpos : 0 < commonKeySizeV2 := by decide
  rw [KeyFits, if_pos ⟨hversion, hpos.trans_le hsize⟩, if_pos ⟨hsize, rfl⟩]
  exact ⟨_, hsent, by rw [List.length_replicate]; rfl⟩

/-- Without the cipher of version 2 the context goes back to version 1 and opens datagrams with
the front of the other version's key. -/
theorem bothKeys_wrongKey :
    (bothKeysStart false).1 = true ∧ (bothKeysStart false).2.inited = true ∧
      (bothKeysStart false).2.version = 1 ∧ ¬RightKey bothKeys (bothKeysStart false).2 := by
  unfold RightKey
  decide +kernel

end SoftEtherVpn.UdpAccel

import SoftEtherVpn.Foundation.Sha1
import SoftEtherVpn.Pack.Builder

/-!
# The login PACK

`build_login_pack` adds up the size of the elements, counts them and writes them in three lists,
each with the same optional groups. The three lists agree for every combination of the groups.
The size is a 32-bit number, and 64 is added to it for the allocation: a user name or a
plain password that makes the sum wrap is written behind the buffer.
-/

namespace SoftEtherVpn.Login

open Foundation Pack

/-- A text of the source as a C string. -/
def lit (text : String) : CString :=
  ⟨cString text.toUTF8.data.toList, fun h => by simpa using List.mem_takeWhile_imp h⟩

/-- `softether_endian32` swaps the bytes. -/
def softetherEndian32 (x : UInt32) : UInt32 :=
  UInt32.ofNat (natBE (bytesBE 4 x.toNat).reverse)

/-- What the login takes from the RUDP context. -/
structure RudpFields where
  myKey : { bs : Bytes // bs.length = 20 }
  myKeyV2 : { bs : Bytes // bs.length = 128 }
  myCookie : UInt32
  myPort : UInt16

/-- The fields of the connection that the login reports; `localPort` is the port that
`getsockname` tells of an open socket. -/
structure LoginConn where
  halfConnection : Bool
  clientProductName : CString
  clientProductVersion : CString
  clientProductBuild : UInt32
  clientOsName : CString
  clientOsVersion : CString
  clientOsProductId : CString
  clientHostName : CString
  clientIpAddress : CString
  clientPort : UInt32
  localPort : Option UInt16
  serverHostName : CString
  serverIpAddress : CString
  serverPortReported : UInt32
  clientIpV6 : CString

/-- The arguments of `build_login_pack`, the bytes of its dummy value and whether their
allocation succeeds. -/
structure LoginInput where
  hubName : CString
  username : CString
  authType : UInt32
  securePassword : Option { bs : Bytes // bs.length = 20 }
  plainPassword : Option CString
  rudp : Option RudpFields
  conn : LoginConn
  pencore : { bs : Bytes // bs.length < 1000 }
  pencoreAllocated : Bool

/-- `inet_addr`, and the three numbers that `sscanf` finds with `%d.%d.%d`. -/
structure Libc where
  inetAddr : CString → UInt32
  scanVersion : CString → UInt32 × UInt32 × UInt32

/-- An element of the login: an added one, or `pack_add_data` with a length but without data. -/
inductive Field
  | add (a : Protocol.Add)
  | null (name : CString) (len : ℕ)

namespace Field

def write : Field → Cursor → Option Cursor
  | .add a, c => a.write c
  | .null name len, c => do
    let c ← Protocol.packWriteElemName name c
    let c ← Protocol.packWriteUint32 typeData c
    let c ← Protocol.packWriteUint32 1 c
    let c ← Protocol.packWriteUint32 len c
    c.skip len

/-- The element; without data its bytes are those of the cleared buffer. -/
def element : Field → Protocol.Add
  | .add a => a
  | .null name len => .data name (List.replicate len 0)

/-- The same element as a call of the other implementation. -/
def call (f : Field) : AddCall := f.element.call

def int (name : CString) (val : UInt32) : Field := .add (.int name val)
def str (name val : CString) : Field := .add (.str name val)
def data (name : CString) (bytes : Bytes) : Field := .add (.data name bytes)

end Field

def clientHello : CString := lit "SoftEther VPN Client"
def clientVer : UInt32 := 420
def clientBuild : UInt32 := 9699
def uniqueId : Bytes := sha1Hash (ascii "SoftEtherVPN_Android_Client")

section Values

variable (libc : Libc)

def clientProductVerInt (version : CString) : UInt32 :=
  if version.1 = [] then 0
  else
    let (major, minor, patch) := libc.scanVersion version
    major * 100 + minor * 10 + patch

def ipUint (address : CString) : UInt32 :=
  if address.1 = [] then 0 else libc.inetAddr address

/-- The port of the client, or of its socket when it is not known. -/
def reportedPort (conn : LoginConn) : UInt32 :=
  if conn.clientPort = 0 then
    match conn.localPort with
    | some port => port.toUInt32
    | none => conn.clientPort
  else conn.clientPort

end Values

/-! ### The elements -/

section Fields

variable (libc : Libc) (i : LoginInput)

def pencoreField : Field :=
  if i.pencoreAllocated then .data (lit "pencore") i.pencore.1
  else .null (lit "pencore") i.pencore.1.length

def baseFields : List Field :=
  [.str (lit "method") (lit "login"), .str (lit "hubname") i.hubName,
    .str (lit "username") i.username, .int (lit "authtype") i.authType,
    .str (lit "hello") clientHello, .int (lit "version") clientVer,
    .int (lit "build") clientBuild, .str (lit "client_str") clientHello,
    .int (lit "client_ver") clientVer, .int (lit "client_build") clientBuild,
    .int (lit "client_id") 0, .int (lit "protocol") (if i.rudp.isSome then 1 else 0),
    .int (lit "max_connection") 4, .int (lit "use_encrypt") 1, .int (lit "use_compress") 0,
    .int (lit "half_connection") (if i.conn.halfConnection then 1 else 0),
    .int (lit "require_bridge_routing_mode") 0, .int (lit "require_monitor_mode") 0,
    .int (lit "qos") 1, pencoreField i]

def infoFields (conn : LoginConn) : List Field :=
  [.str (lit "ClientProductName") conn.clientProductName,
    .int (lit "ClientProductVer")
      (softetherEndian32 (clientProductVerInt libc conn.clientProductVersion)),
    .int (lit "ClientProductBuild") (softetherEndian32 conn.clientProductBuild),
    .str (lit "ClientOsName") conn.clientOsName, .str (lit "ClientOsVer") conn.clientOsVersion,
    .str (lit "ClientOsProductId") conn.clientOsProductId,
    .str (lit "ClientHostName") conn.clientHostName,
    .int (lit "ClientIpAddress") (ipUint libc conn.clientIpAddress),
    .int (lit "ClientPort") (softetherEndian32 (reportedPort conn)),
    .str (lit "ServerHostName") conn.serverHostName,
    .int (lit "ServerIpAddress") (ipUint libc conn.serverIpAddress),
    .int (lit "ServerPort2") (softetherEndian32 conn.serverPortReported)]

def ipV6Fields (conn : LoginConn) : List Field :=
  if conn.clientIpV6.1 = [] then [] else [.str (lit "ClientIpv6Address") conn.clientIpV6]

/-- Both groups for RUDP. -/
def rudpFields : Option RudpFields → List Field
  | none => []
  | some rudp =>
    [.int (lit "support_bulk_on_rudp") 1, .int (lit "support_hmac_on_bulk_of_rudp") 1,
      .int (lit "support_udp_recovery") 1, .data (lit "unique_id") uniqueId,
      .int (lit "rudp_bulk_max_version") 2] ++
    [.int (lit "use_udp_acceleration") 1,
      .data (lit "udp_acceleration_client_key") rudp.myKey.1,
      .data (lit "udp_acceleration_client_key_v2") rudp.myKeyV2.1,
      .int (lit "udp_acceleration_client_cookie") rudp.myCookie,
      .int (lit "udp_acceleration_max_version") 2,
      .int (lit "support_hmac_on_udp_acceleration") 1,
      .int (lit "udp_acceleration_client_ip") 0,
      .int (lit "udp_acceleration_client_port") rudp.myPort.toUInt32]

def secureFields : List Field :=
  match i.securePassword with
  | some password =>
    if i.authType = 1 then [.data (lit "secure_password") password.1] else []
  | none => []

def plainFields : List Field :=
  match i.plainPassword with
  | some password => if i.authType = 2 then [.str (lit "plain_password") password] else []
  | none => []

/-- The elements in the order in which they are written. -/
def loginFields : List Field :=
  baseFields i ++ (infoFields libc i.conn ++ (ipV6Fields i.conn ++ (rudpFields i.rudp ++
    (secureFields i ++ plainFields i))))

end Fields

/-! ### Their sizes and their number -/

section Sizes

open Protocol

variable (i : LoginInput)

def baseSizes : List ℕ :=
  [packStrSz (lit "method") (lit "login"), packStrSz (lit "hubname") i.hubName,
    packStrSz (lit "username") i.username, packIntSz (lit "authtype"),
    packStrSz (lit "hello") clientHello, packIntSz (lit "version"), packIntSz (lit "build"),
    packStrSz (lit "client_str") clientHello, packIntSz (lit "client_ver"),
    packIntSz (lit "client_build"), packIntSz (lit "client_id"), packIntSz (lit "protocol"),
    packIntSz (lit "max_connection"), packIntSz (lit "use_encrypt"),
    packIntSz (lit "use_compress"), packIntSz (lit "half_connection"),
    packIntSz (lit "require_bridge_routing_mode"), packIntSz (lit "require_monitor_mode"),
    packIntSz (lit "qos"), packDataSz (lit "pencore") i.pencore.1.length]

def infoSizes (conn : LoginConn) : List ℕ :=
  [packStrSz (lit "ClientProductName") conn.clientProductName,
    packIntSz (lit "ClientProductVer"), packIntSz (lit "ClientProductBuild"),
    packStrSz (lit "ClientOsName") conn.clientOsName,
    packStrSz (lit "ClientOsVer") conn.clientOsVersion,
    packStrSz (lit "ClientOsProductId") conn.clientOsProductId,
    packStrSz (lit "ClientHostName") conn.clientHostName, packIntSz (lit "ClientIpAddress"),
    packIntSz (lit "ClientPort"), packStrSz (lit "ServerHostName") conn.serverHostName,
    packIntSz (lit "ServerIpAddress"), packIntSz (lit "ServerPort2")]

def ipV6Sizes (conn : LoginConn) : List ℕ :=
  if conn.clientIpV6.1 = [] then [] else [packStrSz (lit "ClientIpv6Address") conn.clientIpV6]

def rudpSizes : Option RudpFields → List ℕ
  | none => []
  | some _ =>
    [packIntSz (lit "support_bulk_on_rudp"), packIntSz (lit "support_hmac_on_bulk_of_rudp"),
      packIntSz (lit "support_udp_recovery"), packDataSz (lit "unique_id") 20,
      packIntSz (lit "rudp_bulk_max_version")] ++
    [packIntSz (lit "use_udp_acceleration"), packDataSz (lit "udp_acceleration_client_key") 20,
      packDataSz (lit "udp_acceleration_client_key_v2") 128,
      packIntSz (lit "udp_acceleration_client_cookie"),
      packIntSz (lit "udp_acceleration_max_version"),
      packIntSz (lit "support_hmac_on_udp_acceleration"),
      packIntSz (lit "udp_acceleration_client_ip"),
      packIntSz (lit "udp_acceleration_client_port")]

def secureSizes : List ℕ :=
  if i.authType = 1 ∧ i.securePassword.isSome then [packDataSz (lit "secure_password") 20]
  else []

def plainSizes : List ℕ :=
  match i.plainPassword with
  | some password => if i.authType = 2 then [packStrSz (lit "plain_password") password] else []
  | none => []

/-- `size`, added up in 32 bits. -/
def loginSize : ℕ :=
  (baseSizes i ++ (infoSizes i.conn ++ (ipV6Sizes i.conn ++ (rudpSizes i.rudp ++
    (secureSizes i ++ plainSizes i))))).foldl (fun size n => (size + n) % 2 ^ 32) 4

/-- `num_elems`. -/
def numElems : ℕ :=
  20 + 12 + (if i.conn.clientIpV6.1 = [] then 0 else 1) + (if i.rudp.isSome then 5 else 0) +
    (if i.rudp.isSome then 8 else 0) +
    (if i.authType = 1 ∧ i.securePassword.isSome then 1 else 0) +
    (if i.authType = 2 ∧ i.plainPassword.isSome then 1 else 0)

end Sizes

/-- `build_login_pack` with a buffer from `calloc`: the bytes before the end of the elements and
`*out_len`, or nothing after a write behind the buffer. -/
def buildLoginPack (libc : Libc) (i : LoginInput) : Option (Bytes × ℕ) := do
  let buf := List.replicate ((loginSize i + 64) % 2 ^ 32) 0
  let c ← Protocol.packWriteUint32 (numElems i) ⟨buf, 0⟩
  let c ← (loginFields libc i).foldlM (fun c f => f.write c) c
  some (c.written, c.pos % 2 ^ 32)

/-- The size of the message in unbounded numbers. -/
def exactSize (libc : Libc) (i : LoginInput) : ℕ :=
  4 + ((loginFields libc i).map fun f => f.call.size).sum

/-- The getter for the element returns its value, cut to the size of the output. -/
def ReadsBack (b : Buffer) : Protocol.Add → Prop
  | .int name val => Protocol.packGetInt b name = .ok val.toNat
  | .str name val => ∀ outSize, 0 < outSize → outSize < 2 ^ 32 →
      Protocol.packGetStr b name outSize = .ok (val.1.take (outSize - 1) ++ [0])
  | .data name bytes => ∀ outSize, 0 < outSize → outSize < 2 ^ 32 →
      Protocol.packGetData b name outSize = .ok (bytes.take outSize, min bytes.length outSize)

/-- A login PACK as it has to be. -/
structure WellFormedLogin (libc : Libc) (i : LoginInput) (body : Bytes) (len : ℕ) : Prop where
  size : len = loginSize i
  length : body.length = len
  count : body.take 4 = bytesBE 4 (loginFields libc i).length
  names : ((loginFields libc i).map fun f => f.call.name.1).Nodup
  values : ∀ b : Buffer, b.body = body → ∀ f ∈ loginFields libc i, ReadsBack b f.element

/-!
## The bytes of the message
-/

theorem Field.write_eq (f : Field) (c : Cursor) (h : c.Cleared) :
    f.write c = c.put (Protocol.elementBytes f.call) := by
  cases f with
  | add a => exact a.write_eq c
  | null name len =>
    have hname : ∀ c, Protocol.packWriteElemName name c = c.put (Protocol.nameBytes name) :=
      Cursor.put_put _ _
    simp only [Field.write, hname, Protocol.packWriteUint32, Cursor.put_bind_put,
      h.put_bind_skip]
    simp [Protocol.elementBytes, Field.call, Field.element, Protocol.Add.call, AddCall.name,
      AddCall.type, Protocol.valueBytes]

/-- All the bytes that are written. -/
def loginBody (libc : Libc) (i : LoginInput) : Bytes :=
  bytesBE 4 (numElems i) ++ (loginFields libc i).flatMap fun f => Protocol.elementBytes f.call

/-- The message is written as a whole when it fits the allocation. -/
theorem buildLoginPack_eq (libc : Libc) (i : LoginInput) :
    buildLoginPack libc i =
      if (loginBody libc i).length ≤ (loginSize i + 64) % 2 ^ 32 then
        some (loginBody libc i, (loginBody libc i).length % 2 ^ 32)
      else none := by
  have hclear := Cursor.cleared_replicate ((loginSize i + 64) % 2 ^ 32)
  have hjoin := Cursor.put_bind_put (bytesBE 4 (numElems i))
    ((loginFields libc i).flatMap fun f => Protocol.elementBytes f.call)
    ⟨List.replicate ((loginSize i + 64) % 2 ^ 32) 0, 0⟩
    fun c => some (c.written, c.pos % 2 ^ 32)
  have hbuild : buildLoginPack libc i =
      (Cursor.put (loginBody libc i) ⟨List.replicate ((loginSize i + 64) % 2 ^ 32) 0, 0⟩ >>=
        fun c => some (c.written, c.pos % 2 ^ 32)) := by
    rw [loginBody, ← hjoin]
    unfold buildLoginPack Protocol.packWriteUint32
    cases hput : Cursor.put (bytesBE 4 (numElems i))
        ⟨List.replicate ((loginSize i + 64) % 2 ^ 32) 0, 0⟩ with
    | none => simp only [hput]; rfl
    | some c =>
      simp only [hput, Option.bind_eq_bind, Option.bind_some,
        Cursor.Cleared.foldlM_eq Field.write_eq _ (hclear.put hput)]
  rw [hbuild, Cursor.put, List.length_replicate, zero_add]
  split_ifs with hroom
  · have htake := splice_take (List.replicate ((loginSize i + 64) % 2 ^ 32) (0 : UInt8))
      (loginBody libc i) (Nat.zero_le _)
    rw [zero_add, List.take_zero, List.nil_append] at htake
    simp only [Option.bind_eq_bind, Option.bind_some, Cursor.written, htake]
  · rfl

/-- A string of 2 ^ 32 bytes or more is cut to the length that 32 bits hold. -/
def truncate : AddCall → AddCall
  | .str name val => .str name ⟨val.1.take (val.1.length % 2 ^ 32),
      fun h => val.2 (List.mem_of_mem_take h)⟩
  | call => call

theorem truncate_name (call : AddCall) : (truncate call).name = call.name := by
  cases call <;> rfl

theorem elementBytes_eq {call : AddCall} (hname : call.name.1.length ≤ 63) :
    Protocol.elementBytes call = elementCodec.encode (truncate call).element := by
  have hmod : call.name.1.length % 2 ^ 32 = call.name.1.length := Nat.mod_eq_of_lt (by omega)
  have hnameBytes : Protocol.nameBytes call.name = nameCodec.encode call.name.1 := by
    rw [Protocol.nameBytes, hmod, List.take_length]
    rfl
  rw [AddCall.encode_element, truncate_name, Protocol.elementBytes, hnameBytes]
  cases call with
  | int name val => rfl
  | int64 name val => rfl
  | str name val =>
    have hlength : min (val.1.length % 2 ^ 32) val.1.length = val.1.length % 2 ^ 32 :=
      min_eq_left (Nat.mod_le _ _)
    simp only [Protocol.valueBytes, truncate, AddCall.payload, AddCall.type, AddCall.value,
      valueCodec_blob (Or.inl rfl), Codec.blob, List.length_take, hlength]
  | data name bytes =>
    simp [Protocol.valueBytes, truncate, AddCall.payload, AddCall.type, AddCall.value,
      valueCodec_blob, Codec.blob]

/-!
## Reading the elements back
-/

/-- Among calls of distinct names the getter finds the one with the name. -/
theorem lookup_of_mem {calls : List AddCall} (hnodup : (calls.map fun c => c.name.1).Nodup)
    {call : AddCall} (hcall : call ∈ calls) (g : Getter) :
    g.lookup calls call.name = g.answer call := by
  induction calls with
  | nil => cases hcall
  | cons first calls ih =>
    rw [List.map_cons, List.nodup_cons] at hnodup
    obtain ⟨hfirst, hnodup⟩ := hnodup
    unfold Getter.lookup at ih ⊢
    rw [List.findSome?_cons]
    obtain rfl | hcall := List.mem_cons.mp hcall
    · rw [if_pos rfl]
      have hnone : (calls.findSome? fun c => if c.name.1 = call.name.1 then g.answer c else none) =
          none := by
        rw [List.findSome?_eq_none_iff]
        intro c hc
        apply if_neg
        intro hname
        exact hfirst (List.mem_map.mpr ⟨c, hc, hname⟩)
      rw [hnone]
      cases g.answer call <;> rfl
    · have hname : first.name.1 ≠ call.name.1 := fun hname =>
        hfirst (List.mem_map.mpr ⟨call, hcall, hname.symm⟩)
      rw [if_neg hname]
      exact ih hnodup hcall

/-- A body with the elements of calls of distinct names. -/
structure Carries (b : Buffer) (calls : List AddCall) : Prop where
  count : calls.length ≤ maxElements
  short : ∀ call ∈ calls, call.name.1.length ≤ 63
  sizes : ∀ call ∈ calls, call.size < 2 ^ 32
  distinct : (calls.map fun c => c.name.1).Nodup
  body : b.body = bytesBE 4 calls.length ++
    (calls.map AddCall.element).flatMap elementCodec.encode

theorem Carries.get {b : Buffer} {calls : List AddCall} (h : Carries b calls) {call : AddCall}
    (hcall : call ∈ calls) {g : Getter} (hg : g.HasRoom) {out : Output}
    (hout : g.answer call = some out) : (g.get b call.name).map Prod.fst = .ok out := by
  have hget := Getter.get_wellFormed h.count h.short h.sizes h.body g hg call.name
  rw [lookup_of_mem h.distinct hcall, hout] at hget
  exact hget

/-- A value inside an output, taken out again. -/
theorem map_fst_of_output {α β : Type} {f : α → β} (hf : Function.Injective f)
    {x : Except Fault (α × ℕ)} {val : α}
    (h : (x.map fun r => (f r.1, r.2)).map Prod.fst = .ok (f val)) : x.map Prod.fst = .ok val := by
  cases x with
  | error fault => cases h
  | ok r => exact congrArg Except.ok (hf (Except.ok.inj h))

theorem Carries.readsBack {b : Buffer} {calls : List AddCall} (h : Carries b calls)
    {a : Protocol.Add} (ha : a.call ∈ calls) : ReadsBack b a := by
  cases a with
  | int name val =>
    have hget := h.get ha (g := .int) trivial rfl
    exact (Protocol.packGetInt_eq name).trans
      (map_fst_of_output (f := Output.number) (fun _ _ h => Output.number.inj h) hget)
  | str name val =>
    intro outSize hpos _
    have hget := h.get ha (g := .str outSize) hpos.ne' rfl
    exact (Protocol.packGetStr_eq name outSize).trans
      (map_fst_of_output (f := Output.text) (fun _ _ h => Output.text.inj h) hget)
  | data name bytes =>
    intro outSize hpos _
    have hget := h.get ha (g := .data outSize) hpos.ne' rfl
    have hblob : Function.Injective fun r : Bytes × ℕ => Output.blob r.1 r.2 := by
      intro r r' h
      exact Prod.ext (Output.blob.inj h).1 (Output.blob.inj h).2
    exact (Protocol.packGetData_eq name outSize).trans
      (map_fst_of_output (f := fun r : Bytes × ℕ => Output.blob r.1 r.2) hblob hget)

/-!
## The three lists agree
-/

section Agreement

variable (libc : Libc) (i : LoginInput)

theorem length_baseFields : (baseFields i).length = 20 := rfl

theorem length_infoFields (conn : LoginConn) : (infoFields libc conn).length = 12 := rfl

theorem numElems_eq : numElems i = (loginFields libc i).length := by
  have hv6 : (ipV6Fields i.conn).length = if i.conn.clientIpV6.1 = [] then 0 else 1 := by
    unfold ipV6Fields
    split_ifs <;> rfl
  have hrudp : (rudpFields i.rudp).length = (if i.rudp.isSome then 5 else 0) +
      (if i.rudp.isSome then 8 else 0) := by
    cases i.rudp <;> rfl
  have hsecure : (secureFields i).length =
      if i.authType = 1 ∧ i.securePassword.isSome then 1 else 0 := by
    unfold secureFields
    cases i.securePassword with
    | none => simp
    | some password => by_cases h : i.authType = 1 <;> simp [h]
  have hplain : (plainFields i).length =
      if i.authType = 2 ∧ i.plainPassword.isSome then 1 else 0 := by
    unfold plainFields
    cases i.plainPassword with
    | none => simp
    | some password => by_cases h : i.authType = 2 <;> simp [h]
  simp only [loginFields, List.length_append, length_baseFields, length_infoFields, hv6, hrudp,
    hsecure, hplain, numElems]
  omega

theorem foldl_sizes (sizes : List ℕ) (size : ℕ) :
    sizes.foldl (fun size n => (size + n) % 2 ^ 32) (size % 2 ^ 32) =
      (size + sizes.sum) % 2 ^ 32 := by
  induction sizes generalizing size with
  | nil => rfl
  | cons n sizes ih =>
    rw [List.foldl_cons, List.sum_cons, Nat.mod_add_mod, ih, Nat.add_assoc]

/-- The size of an element in 32 bits. -/
def Field.sz (f : Field) : ℕ := f.element.sz

theorem sum_sz_mod (fs : List Field) :
    (fs.map Field.sz).sum % 2 ^ 32 = (fs.map fun f => f.call.size).sum % 2 ^ 32 := by
  induction fs with
  | nil => rfl
  | cons f fs ih =>
    have hsize : f.call.size % 2 ^ 32 = f.sz := f.element.size_mod
    rw [List.map_cons, List.sum_cons, List.map_cons, List.sum_cons, Nat.add_mod, ih, ← hsize,
      Nat.mod_mod, ← Nat.add_mod]

theorem baseSizes_eq : baseSizes i = (baseFields i).map Field.sz := by
  have hpencore : Protocol.packDataSz (lit "pencore") i.pencore.1.length =
      (pencoreField i).sz := by
    unfold pencoreField
    cases i.pencoreAllocated with
    | true => rfl
    | false => simp [Field.sz, Field.element, Protocol.Add.sz]
  rw [baseSizes, hpencore]
  rfl

theorem rudpSizes_eq (rudp : Option RudpFields) :
    rudpSizes rudp = (rudpFields rudp).map Field.sz := by
  cases rudp with
  | none => rfl
  | some rudp =>
    have hid : uniqueId.length = 20 := sha1Hash_length _
    have hkey := rudp.myKey.2
    have hkeyV2 := rudp.myKeyV2.2
    simp only [rudpSizes, rudpFields, List.map_append, List.map_cons, List.map_nil, Field.sz,
      Field.element, Field.int, Field.data, Protocol.Add.sz, hid, hkey, hkeyV2]

theorem secureSizes_eq : secureSizes i = (secureFields i).map Field.sz := by
  unfold secureSizes secureFields
  cases i.securePassword with
  | none => simp
  | some password =>
    have hlength := password.2
    by_cases h : i.authType = 1 <;>
      simp [h, Field.sz, Field.element, Field.data, Protocol.Add.sz, hlength]

theorem loginSizes_eq :
    baseSizes i ++ (infoSizes i.conn ++ (ipV6Sizes i.conn ++ (rudpSizes i.rudp ++
      (secureSizes i ++ plainSizes i)))) = (loginFields libc i).map Field.sz := by
  have hinfo : infoSizes i.conn = (infoFields libc i.conn).map Field.sz := rfl
  have hv6 : ipV6Sizes i.conn = (ipV6Fields i.conn).map Field.sz := by
    unfold ipV6Sizes ipV6Fields
    split_ifs <;> rfl
  have hplain : plainSizes i = (plainFields i).map Field.sz := by
    unfold plainSizes plainFields
    cases i.plainPassword with
    | none => rfl
    | some password =>
      by_cases h : i.authType = 2
      · simp only [h, if_true]
        rfl
      · simp [h]
  simp only [loginFields, List.map_append, baseSizes_eq, hinfo, hv6, rudpSizes_eq,
    secureSizes_eq, hplain]

/-- The computed size is the size of the elements, as far as 32 bits hold it. -/
theorem loginSize_eq : loginSize i = exactSize libc i % 2 ^ 32 := by
  have hfold := foldl_sizes ((loginFields libc i).map Field.sz) 4
  rw [← loginSizes_eq] at hfold
  rw [loginSize, exactSize, Nat.add_mod, ← sum_sz_mod, ← Nat.add_mod, ← loginSizes_eq]
  exact hfold

def baseNames : List String :=
  ["method", "hubname", "username", "authtype", "hello", "version", "build", "client_str",
    "client_ver", "client_build", "client_id", "protocol", "max_connection", "use_encrypt",
    "use_compress", "half_connection", "require_bridge_routing_mode", "require_monitor_mode",
    "qos", "pencore"]

def infoNames : List String :=
  ["ClientProductName", "ClientProductVer", "ClientProductBuild", "ClientOsName", "ClientOsVer",
    "ClientOsProductId", "ClientHostName", "ClientIpAddress", "ClientPort", "ServerHostName",
    "ServerIpAddress", "ServerPort2"]

def rudpNames : List String :=
  ["support_bulk_on_rudp", "support_hmac_on_bulk_of_rudp", "support_udp_recovery", "unique_id",
    "rudp_bulk_max_version", "use_udp_acceleration", "udp_acceleration_client_key",
    "udp_acceleration_client_key_v2", "udp_acceleration_client_cookie",
    "udp_acceleration_max_version", "support_hmac_on_udp_acceleration",
    "udp_acceleration_client_ip", "udp_acceleration_client_port"]

/-- All names that an element of the login can have. -/
def loginNames : List Bytes :=
  (baseNames ++ (infoNames ++ (["ClientIpv6Address"] ++ (rudpNames ++ (["secure_password"] ++
    ["plain_password"]))))).map fun name => (lit name).1

theorem loginNames_distinct :
    loginNames.Nodup ∧ ∀ name ∈ loginNames, name.length ≤ 63 := by
  decide +kernel

def Field.nameBytes (f : Field) : Bytes := f.call.name.1

/-- The names of a login are some of them, in their order. -/
theorem names_sublist : List.Sublist ((loginFields libc i).map Field.nameBytes) loginNames := by
  have hpencore : (pencoreField i).nameBytes = (lit "pencore").1 := by
    unfold pencoreField
    cases i.pencoreAllocated <;> rfl
  have hbase : (baseFields i).map Field.nameBytes = baseNames.map fun name => (lit name).1 := by
    simp only [baseFields, List.map_cons, List.map_nil, hpencore]
    rfl
  have hinfo : (infoFields libc i.conn).map Field.nameBytes =
      infoNames.map fun name => (lit name).1 := rfl
  have hv6 : List.Sublist ((ipV6Fields i.conn).map Field.nameBytes)
      [(lit "ClientIpv6Address").1] := by
    unfold ipV6Fields
    split_ifs
    · exact List.nil_sublist _
    · exact List.Sublist.refl _
  have hrudp : List.Sublist ((rudpFields i.rudp).map Field.nameBytes)
      (rudpNames.map fun name => (lit name).1) := by
    cases i.rudp with
    | none => exact List.nil_sublist _
    | some rudp => exact List.Sublist.refl _
  have hsecure : List.Sublist ((secureFields i).map Field.nameBytes)
      [(lit "secure_password").1] := by
    unfold secureFields
    split <;> try split_ifs
    all_goals first | exact List.nil_sublist _ | exact List.Sublist.refl _
  have hplain : List.Sublist ((plainFields i).map Field.nameBytes)
      [(lit "plain_password").1] := by
    unfold plainFields
    split <;> try split_ifs
    all_goals first | exact List.nil_sublist _ | exact List.Sublist.refl _
  simp only [loginFields, loginNames, List.map_append]
  rw [hbase, hinfo]
  exact (List.Sublist.refl _).append ((List.Sublist.refl _).append
    (hv6.append (hrudp.append (hsecure.append hplain))))

theorem names_nodup : ((loginFields libc i).map fun f => f.call.name.1).Nodup :=
  loginNames_distinct.1.sublist (names_sublist libc i)

theorem names_short {f : Field} (hf : f ∈ loginFields libc i) : f.call.name.1.length ≤ 63 :=
  loginNames_distinct.2 _ ((names_sublist libc i).subset (List.mem_map_of_mem hf))

theorem length_loginFields :
    32 ≤ (loginFields libc i).length ∧ (loginFields libc i).length ≤ maxElements := by
  rw [← numElems_eq]
  unfold numElems maxElements
  split_ifs <;> omega

/-!
## When the login is well formed
-/

/-- The calls whose elements are in the message. -/
def writtenCalls : List AddCall := (loginFields libc i).map fun f => truncate f.call

theorem loginBody_eq : loginBody libc i = bytesBE 4 (writtenCalls libc i).length ++
    ((writtenCalls libc i).map AddCall.element).flatMap elementCodec.encode := by
  have helements : ((loginFields libc i).flatMap fun f => Protocol.elementBytes f.call) =
      ((writtenCalls libc i).map AddCall.element).flatMap elementCodec.encode := by
    rw [writtenCalls, List.map_map, List.flatMap_map]
    apply List.flatMap_congr
    intro f hf
    exact elementBytes_eq (names_short libc i hf)
  rw [loginBody, helements, numElems_eq libc i, writtenCalls, List.length_map]

theorem length_loginBody :
    (loginBody libc i).length = 4 + ((writtenCalls libc i).map AddCall.size).sum := by
  rw [loginBody_eq, List.length_append, bytesBE_length, List.length_flatMap, List.map_map]
  congr 2
  apply List.map_congr_left
  intro call _
  exact call.length_encode_element

theorem carries_loginBody {b : Buffer} (hbody : b.body = loginBody libc i) :
    Carries b (writtenCalls libc i) := by
  have hfits := b.lengthFits
  rw [hbody, length_loginBody] at hfits
  have hnames : ((writtenCalls libc i).map fun c => c.name.1) =
      (loginFields libc i).map fun f => f.call.name.1 := by
    rw [writtenCalls, List.map_map]
    apply List.map_congr_left
    intro f _
    exact congrArg Subtype.val (truncate_name f.call)
  refine ⟨?_, ?_, ?_, ?_, hbody.trans (loginBody_eq libc i)⟩
  · rw [writtenCalls, List.length_map]
    exact (length_loginFields libc i).2
  · intro call hcall
    obtain ⟨f, hf, rfl⟩ := List.mem_map.mp hcall
    rw [truncate_name]
    exact names_short libc i hf
  · intro call hcall
    have hle := List.le_sum_of_mem (List.mem_map_of_mem (f := AddCall.size) hcall)
    omega
  · rw [hnames]
    exact names_nodup libc i

end Agreement

theorem truncate_str (name : CString) {val : CString} (h : val.1.length < 2 ^ 32) :
    truncate (.str name val) = .str name val := by
  have hlength : val.1.length % 2 ^ 32 = val.1.length := Nat.mod_eq_of_lt h
  simp only [truncate, hlength, List.take_length]
  rfl

theorem truncate_of_size {call : AddCall} (h : call.size < 2 ^ 32) : truncate call = call := by
  cases call with
  | str name val =>
    apply truncate_str
    simp only [AddCall.size] at h
    omega
  | int name val => rfl
  | int64 name val => rfl
  | data name bytes => rfl

/-- A string that is read back as it was given has not been cut. -/
theorem truncate_of_readsBack {b : Buffer} {calls : List AddCall} (hb : Carries b calls)
    {a : Protocol.Add} (ha : truncate a.call ∈ calls) (h : ReadsBack b a) :
    truncate a.call = a.call := by
  cases a with
  | str name val =>
    have hcut := Protocol.length_take_mod val.1
    have hsize := hb.sizes _ ha
    simp only [truncate, Protocol.Add.call, AddCall.size, hcut] at hsize
    let cut : CString := ⟨val.1.take (val.1.length % 2 ^ 32), fun h => val.2 (List.mem_of_mem_take h)⟩
    have hread : ReadsBack b (.str name cut) := hb.readsBack ha
    have hgiven := h (val.1.length % 2 ^ 32 + 2) (by omega) (by omega)
    rw [hread (val.1.length % 2 ^ 32 + 2) (by omega) (by omega)] at hgiven
    have hlength := congrArg List.length (List.append_cancel_right (Except.ok.inj hgiven))
    have hread := List.length_take (i := val.1.length % 2 ^ 32 + 2 - 1) (l := cut.1)
    have hcutLength : cut.1.length = val.1.length % 2 ^ 32 := hcut
    have hgivenLength := List.length_take (i := val.1.length % 2 ^ 32 + 2 - 1) (l := val.1)
    apply truncate_of_size
    simp only [Protocol.Add.call, AddCall.size]
    omega
  | int name val => rfl
  | data name bytes => rfl

theorem length_loginBody_of_whole {libc : Libc} {i : LoginInput}
    (h : ∀ f ∈ loginFields libc i, truncate f.call = f.call) :
    (loginBody libc i).length = exactSize libc i := by
  have hcalls : writtenCalls libc i = (loginFields libc i).map Field.call :=
    List.map_congr_left h
  rw [length_loginBody, hcalls, List.map_map]
  rfl

theorem WellFormedLogin.fits {libc : Libc} {i : LoginInput} {body : Bytes} {len : ℕ}
    (hbuild : buildLoginPack libc i = some (body, len)) (h : WellFormedLogin libc i body len) :
    exactSize libc i + 64 < 2 ^ 32 := by
  rw [buildLoginPack_eq] at hbuild
  split_ifs at hbuild with hroom
  cases hbuild
  have hlt : (loginBody libc i).length < 2 ^ 32 := hroom.trans_lt (Nat.mod_lt _ (by norm_num))
  have hcarries := carries_loginBody libc i (b := .ofBody _ hlt) rfl
  have hwhole : ∀ f ∈ loginFields libc i, truncate f.call = f.call := by
    intro f hf
    exact truncate_of_readsBack hcarries (List.mem_map_of_mem hf) (h.values _ rfl f hf)
  have hlong : 512 ≤ (loginBody libc i).length := by
    have hwritten := length_elements_ge (writtenCalls libc i)
    have hcount := (length_loginFields libc i).1
    rw [loginBody_eq, List.length_append, bytesBE_length]
    rw [writtenCalls, List.length_map] at hwritten
    exact le_trans (by omega) (Nat.add_le_add_left hwritten 4)
  rw [loginSize_eq libc i, ← length_loginBody_of_whole hwhole] at hroom
  rw [← length_loginBody_of_whole hwhole]
  omega

theorem wellFormedLogin_of_fits {libc : Libc} {i : LoginInput}
    (hfits : exactSize libc i + 64 < 2 ^ 32) :
    ∃ body len, buildLoginPack libc i = some (body, len) ∧ WellFormedLogin libc i body len := by
  have hwhole : ∀ f ∈ loginFields libc i, truncate f.call = f.call := by
    intro f hf
    have hle : f.call.size ≤ ((loginFields libc i).map fun f => f.call.size).sum :=
      List.le_sum_of_mem (List.mem_map_of_mem (f := fun f => f.call.size) hf)
    apply truncate_of_size
    unfold exactSize at hfits
    omega
  have hbytes := length_loginBody_of_whole hwhole
  have hsize := loginSize_eq libc i
  have hcomputed : (loginBody libc i).length % 2 ^ 32 = loginSize i := by
    rw [hbytes, hsize]
  have hroom : (loginBody libc i).length ≤ (loginSize i + 64) % 2 ^ 32 := by
    rw [hsize, hbytes]
    omega
  rw [buildLoginPack_eq]
  refine ⟨_, _, if_pos hroom, hcomputed, ?_, ?_, names_nodup libc i, ?_⟩
  · exact (Nat.mod_eq_of_lt (by omega)).symm
  · rw [loginBody, ← numElems_eq libc i]
    exact List.take_left' (bytesBE_length 4 _)
  · intro b hb f hf
    apply (carries_loginBody libc i hb).readsBack
    change f.call ∈ writtenCalls libc i
    rw [← hwhole f hf]
    exact List.mem_map_of_mem hf

/-- The login PACK is well formed exactly when its size and the margin fit 32 bits. -/
theorem loginPack_wellFormed_iff (libc : Libc) (i : LoginInput) :
    (∃ body len, buildLoginPack libc i = some (body, len) ∧ WellFormedLogin libc i body len) ↔
      exactSize libc i + 64 < 2 ^ 32 := by
  constructor
  · rintro ⟨body, len, hbuild, hlogin⟩
    exact hlogin.fits hbuild
  · exact wellFormedLogin_of_fits

/-- An anonymous login over TCP. -/
def anonymousLogin (username : CString) : LoginInput where
  hubName := lit "VPN"
  username := username
  authType := 0
  securePassword := none
  plainPassword := none
  rudp := none
  conn := ⟨false, lit "", lit "", 0, lit "", lit "", lit "", lit "", lit "", 0, none, lit "",
    lit "", 443, lit ""⟩
  pencore := ⟨[], by decide⟩
  pencoreAllocated := true

/-- A user name of `2 ^ 32 - 1` bytes makes the size wrap, and is written behind the buffer. -/
theorem longUsername_overruns :
    ∃ username : CString, username.1.length = 2 ^ 32 - 1 ∧
      buildLoginPack ⟨fun _ => 0, fun _ => (0, 0, 0)⟩ (anonymousLogin username) = none := by
  obtain ⟨username, hlength⟩ : ∃ username : CString, username.1.length = 2 ^ 32 - 1 :=
    ⟨⟨List.replicate (2 ^ 32 - 1) 97, fun h => by simpa using List.eq_of_mem_replicate h⟩,
      List.length_replicate⟩
  refine ⟨username, hlength, ?_⟩
  have hmem : AddCall.str (lit "username") username ∈
      writtenCalls ⟨fun _ => 0, fun _ => (0, 0, 0)⟩ (anonymousLogin username) := by
    rw [← truncate_str _ (by omega)]
    apply List.mem_map.mpr
    refine ⟨.str (lit "username") username, ?_, rfl⟩
    exact List.mem_append_left _ (List.mem_cons_of_mem _ (List.mem_cons_of_mem _
      List.mem_cons_self))
  have hle := List.le_sum_of_mem (List.mem_map_of_mem (f := AddCall.size) hmem)
  have hbody := length_loginBody ⟨fun _ => 0, fun _ => (0, 0, 0)⟩ (anonymousLogin username)
  have hroom : (loginSize (anonymousLogin username) + 64) % 2 ^ 32 < 2 ^ 32 :=
    Nat.mod_lt _ (by norm_num)
  simp only [AddCall.size] at hle
  rw [buildLoginPack_eq, if_neg]
  omega

end SoftEtherVpn.Login

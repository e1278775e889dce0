import SoftEtherVpn.Foundation.Bytes

/-!
# From the configuration to the native options

The controller owns the native handle and passes it to the JNI setters, but `setTimeout` and
`setHalfConnection` of the client act on a handle of the client's own, which only
`SoftEtherClient.connect` fills and the controller never calls. A reconnect creates a fresh native
connection and sets fewer options on it than the first connect. SHA-256 is a parameter.
-/

namespace SoftEtherVpn.Controller

open Foundation

inductive AuthMethod
  | auto
  | anonymous
  | password
  | plainPassword
  deriving DecidableEq

/-- The fields of the configuration that decide about native options. -/
structure ConnectionConfig where
  serverHost : String
  serverPort : ℤ
  password : String
  udpPort : ℤ
  udpOnly : Bool
  connectTimeoutMs : ℤ
  authMethod : AuthMethod
  maxConnections : ℤ

/-- The options in force on a native connection. -/
structure NativeConn where
  timeoutMs : ℤ
  udpPort : ℤ
  udpOnly : ℤ
  maxConnection : ℤ
  halfConnection : ℤ
  clientMac : Bytes
  forcedAuthType : ℤ
  deriving DecidableEq

/-- `softether_create` with the bytes that `rand` gives. -/
def softetherCreate (rand : Fin 5 → UInt8) : NativeConn where
  timeoutMs := 30000
  udpPort := 0
  udpOnly := 0
  maxConnection := 4
  halfConnection := 0
  clientMac := 0x5E :: List.ofFn rand
  forcedAuthType := 0

/-- `SoftEtherClient.nativeHandle` and the native connections by their handle. -/
structure World where
  clientHandle : ℕ
  conns : ℕ → NativeConn

namespace World

/-- A JNI setter; the handle 0 is refused. -/
def onConn (handle : ℕ) (set : NativeConn → NativeConn) (w : World) : World :=
  if handle = 0 then w
  else { w with conns := Function.update w.conns handle (set (w.conns handle)) }

def nativeCreate (handle : ℕ) (rand : Fin 5 → UInt8) (w : World) : World :=
  { w with conns := Function.update w.conns handle (softetherCreate rand) }

def optionTimeout : ℕ := 1
def optionUdpPort : ℕ := 4
def optionUdpOnly : ℕ := 5

def nativeSetOption (handle option : ℕ) (value : ℤ) : World → World :=
  onConn handle fun c =>
    match option with
    | 1 => { c with timeoutMs := value }
    | 4 => { c with udpPort := value }
    | 5 => { c with udpOnly := value }
    | _ => c

def maxSeConnections : ℤ := 8

def nativeSetMaxConnection (handle : ℕ) (maxConnections : ℤ) : World → World :=
  onConn handle fun c => { c with maxConnection := min (max maxConnections 1) maxSeConnections }

def nativeSetHalfConnection (handle : ℕ) (half : Bool) : World → World :=
  onConn handle fun c => { c with halfConnection := if half then 1 else 0 }

def nativeSetClientMac (handle : ℕ) (mac : Bytes) : World → World :=
  onConn handle fun c => { c with clientMac := mac }

def nativeSetAuthType (handle : ℕ) (authType : ℤ) : World → World :=
  onConn handle fun c => { c with forcedAuthType := authType }

/-- `SoftEtherClient.setTimeout`. -/
def setTimeout (timeoutMs : ℤ) (w : World) : World :=
  if w.clientHandle ≠ 0 then nativeSetOption w.clientHandle optionTimeout timeoutMs w else w

/-- `SoftEtherClient.setHalfConnection`. -/
def setHalfConnection (half : Bool) (w : World) : World :=
  if w.clientHandle = 0 then w else nativeSetHalfConnection w.clientHandle half w

end World

section Flows

variable (sha256 : Bytes → Fin 32 → UInt8) (config : ConnectionConfig)

/-- The client MAC derived from the server's identity. -/
def stableMac : Bytes :=
  let digest := sha256
    s!"vpngate-mac:{config.serverHost}:{config.serverPort}".toUTF8.toList
  (0x5E &&& 0xFE) :: List.ofFn fun i : Fin 5 => digest ⟨i + 1, by omega⟩

def ConnectionConfig.targetConnections : ℤ :=
  if 1 ≤ config.maxConnections ∧ config.maxConnections ≤ 8 then config.maxConnections else 4

def AuthMethod.authTypeInt : AuthMethod → ℤ
  | anonymous => 0
  | password => 1
  | plainPassword => 2
  | auto => 0

/-- Both paths set the authentication type unless it is to be detected. -/
def applyAuthType (handle : ℕ) (w : World) : World :=
  if config.authMethod ≠ .auto then
    w.nativeSetAuthType handle config.authMethod.authTypeInt
  else w

/-- `performConnectInner` up to `nativeConnectWithHub`. -/
def performConnectInner (fullDuplex : Bool) (handle : ℕ) (w : World) : World :=
  let w := w.setTimeout config.connectTimeoutMs
  let w := w.nativeSetClientMac handle (stableMac sha256 config)
  let w :=
    if config.udpPort > 0 then w.nativeSetOption handle World.optionUdpPort config.udpPort else w
  let w := if config.udpOnly then w.nativeSetOption handle World.optionUdpOnly 1 else w
  let w := w.nativeSetMaxConnection handle config.targetConnections
  let w := applyAuthType config handle w
  w.setHalfConnection !fullDuplex

/-- `attemptReconnect` from the new handle up to `nativeConnectWithHub`. -/
def attemptReconnect (fullDuplex : Bool) (handle : ℕ) (w : World) : World :=
  let w := w.setTimeout config.connectTimeoutMs
  let w := applyAuthType config handle w
  w.setHalfConnection !fullDuplex

/-- A connect or a reconnect on a handle that `nativeCreate` gives. -/
structure Attempt where
  reconnect : Bool
  handle : ℕ
  handle_ne : handle ≠ 0
  rand : Fin 5 → UInt8
  fullDuplex : Bool

def Attempt.run (w : World) (a : Attempt) : World :=
  if a.reconnect then
    attemptReconnect config a.fullDuplex a.handle (w.nativeCreate a.handle a.rand)
  else performConnectInner sha256 config a.fullDuplex a.handle (w.nativeCreate a.handle a.rand)

/-- The options in force when the attempt calls `nativeConnectWithHub`. -/
def Attempt.options (w : World) (a : Attempt) : NativeConn :=
  (a.run sha256 config w).conns a.handle

end Flows

/-- The authentication type that `perform_authentication_http` decides on. -/
def loginAuthType (c : NativeConn) (password : String) : ℤ :=
  if c.forcedAuthType = 2 then 2
  else if c.forcedAuthType = 1 then 1
  else if password.length > 0 then 1
  else 0

/-- The integers of `build_login_pack` that say how the session is to be. -/
def buildLoginPack (c : NativeConn) (authType : ℤ) : List (String × ℤ) :=
  [("authtype", authType), ("client_id", 0), ("max_connection", 4), ("use_encrypt", 1),
    ("use_compress", 0), ("half_connection", if c.halfConnection ≠ 0 then 1 else 0),
    ("require_bridge_routing_mode", 0), ("require_monitor_mode", 0), ("qos", 1)]

/-- The client has no handle of its own, and the options on the controller's are `c`. -/
structure Holds (handle : ℕ) (c : NativeConn) (w : World) : Prop where
  client : w.clientHandle = 0
  conn : w.conns handle = c

namespace Holds

variable {handle : ℕ} {c : NativeConn} {w : World}

theorem nativeCreate (handle : ℕ) (hw : w.clientHandle = 0) (rand : Fin 5 → UInt8) :
    Holds handle (softetherCreate rand) (w.nativeCreate handle rand) :=
  ⟨hw, Function.update_self ..⟩

theorem onConn (hne : handle ≠ 0) (h : Holds handle c w) (set : NativeConn → NativeConn) :
    Holds handle (set c) (w.onConn handle set) := by
  rw [World.onConn, if_neg hne, h.conn]
  exact ⟨h.client, Function.update_self ..⟩

theorem onConn_if (hne : handle ≠ 0) (h : Holds handle c w) (p : Prop) [Decidable p]
    (set : NativeConn → NativeConn) :
    Holds handle (if p then set c else c) (if p then w.onConn handle set else w) := by
  split_ifs
  · exact h.onConn hne set
  · exact h

/-- The timeout is dropped. -/
theorem setTimeout (h : Holds handle c w) (timeoutMs : ℤ) :
    Holds handle c (w.setTimeout timeoutMs) := by
  rw [World.setTimeout, if_neg (not_not.mpr h.client)]
  exact h

/-- The duplex mode is dropped. -/
theorem setHalfConnection (h : Holds handle c w) (half : Bool) :
    Holds handle c (w.setHalfConnection half) := by
  rw [World.setHalfConnection, if_pos h.client]
  exact h

theorem applyAuthType (hne : handle ≠ 0) (h : Holds handle c w) (config : ConnectionConfig)
    (hfresh : c.forcedAuthType = 0) :
    Holds handle { c with forcedAuthType := config.authMethod.authTypeInt }
      (applyAuthType config handle w) := by
  unfold Controller.applyAuthType
  split_ifs with hauto
  · exact h.onConn hne fun c => { c with forcedAuthType := config.authMethod.authTypeInt }
  · rw [not_not.mp hauto, AuthMethod.authTypeInt, ← hfresh]
    exact h

end Holds

theorem targetConnections_bounds (config : ConnectionConfig) :
    1 ≤ config.targetConnections ∧ config.targetConnections ≤ 8 := by
  unfold ConnectionConfig.targetConnections
  split_ifs with h
  · exact h
  · decide

section Options

variable {sha256 : Bytes → Fin 32 → UInt8} {config : ConnectionConfig} {w : World}

/-- A reconnect sets nothing but the authentication type. -/
theorem Attempt.run_reconnect (hw : w.clientHandle = 0) {a : Attempt} (h : a.reconnect = true) :
    Holds a.handle
      { softetherCreate a.rand with forcedAuthType := config.authMethod.authTypeInt }
      (a.run sha256 config w) := by
  have hcreated := Holds.nativeCreate a.handle hw a.rand
  have htimeout := hcreated.setTimeout config.connectTimeoutMs
  have hauth := htimeout.applyAuthType a.handle_ne config rfl
  rw [Attempt.run, if_pos h]
  exact hauth.setHalfConnection _

/-- The first connect sets all but the timeout and the duplex mode. -/
theorem Attempt.run_connect (hw : w.clientHandle = 0) {a : Attempt} (h : a.reconnect = false) :
    Holds a.handle
      { softetherCreate a.rand with
        clientMac := stableMac sha256 config
        udpPort := if config.udpPort > 0 then config.udpPort else 0
        udpOnly := if config.udpOnly then 1 else 0
        maxConnection := config.targetConnections
        forcedAuthType := config.authMethod.authTypeInt }
      (a.run sha256 config w) := by
  obtain ⟨hlow, hhigh⟩ := targetConnections_bounds config
  have hclamp : min (max config.targetConnections 1) World.maxSeConnections =
      config.targetConnections := by
    rw [max_eq_left hlow]
    exact min_eq_left hhigh
  have hcreated := Holds.nativeCreate a.handle hw a.rand
  have htimeout := hcreated.setTimeout config.connectTimeoutMs
  have hmac := htimeout.onConn a.handle_ne
    fun c => { c with clientMac := stableMac sha256 config }
  have hport := hmac.onConn_if a.handle_ne (config.udpPort > 0)
    fun c => { c with udpPort := config.udpPort }
  have honly := hport.onConn_if a.handle_ne (config.udpOnly = true) fun c => { c with udpOnly := 1 }
  have hmax := honly.onConn a.handle_ne fun c =>
    { c with maxConnection := min (max config.targetConnections 1) World.maxSeConnections }
  have hauth := hmax.applyAuthType a.handle_ne config (by split_ifs <;> rfl)
  have hall := hauth.setHalfConnection !a.fullDuplex
  have hconnect : ¬a.reconnect = true := by simp [h]
  rw [Attempt.run, if_neg hconnect]
  refine ⟨hall.client, hall.conn.trans ?_⟩
  rw [hclamp]
  dsimp only
  split_ifs <;> rfl

end Options

/-- The authentication that the configuration asks for. -/
def ConnectionConfig.chosenAuthType (config : ConnectionConfig) : ℤ :=
  match config.authMethod with
  | .auto => if config.password.length > 0 then 1 else 0
  | .anonymous => 0
  | .password => 1
  | .plainPassword => 2

/-- The options and the login are those that the configuration and the duplex mode prescribe. -/
structure Prescribed (sha256 : Bytes → Fin 32 → UInt8) (config : ConnectionConfig)
    (fullDuplex : Bool) (c : NativeConn) : Prop where
  timeout : c.timeoutMs = config.connectTimeoutMs
  udpPort : c.udpPort = if config.udpPort > 0 then config.udpPort else 0
  udpOnly : c.udpOnly = if config.udpOnly then 1 else 0
  maxConnection : c.maxConnection = config.targetConnections
  halfConnection : c.halfConnection = if fullDuplex then 0 else 1
  clientMac : c.clientMac = stableMac sha256 config
  auth : loginAuthType c config.password = config.chosenAuthType
  advertised : (buildLoginPack c (loginAuthType c config.password)).lookup "max_connection" =
    some config.targetConnections

/-- An anonymous login is forced only by an empty password. -/
theorem loginAuthType_eq_iff {c : NativeConn} (config : ConnectionConfig)
    (h : c.forcedAuthType = config.authMethod.authTypeInt) :
    loginAuthType c config.password = config.chosenAuthType ↔
      (config.authMethod = .anonymous → config.password.length = 0) := by
  unfold loginAuthType ConnectionConfig.chosenAuthType
  rw [h]
  cases config.authMethod <;> simp [AuthMethod.authTypeInt]

theorem advertised_iff (c : NativeConn) (authType : ℤ) (config : ConnectionConfig) :
    (buildLoginPack c authType).lookup "max_connection" = some config.targetConnections ↔
      config.targetConnections = 4 := by
  have hlookup : (buildLoginPack c authType).lookup "max_connection" = some 4 := rfl
  rw [hlookup, Option.some.injEq]
  exact eq_comm

section Paths

variable (sha256 : Bytes → Fin 32 → UInt8) (config : ConnectionConfig)

/-- What the client and the native connections are after some attempts. -/
def reached (conns : ℕ → NativeConn) (history : List Attempt) : World :=
  history.foldl (Attempt.run sha256 config) ⟨0, conns⟩

theorem reached_clientHandle (conns : ℕ → NativeConn) (history : List Attempt) :
    (reached sha256 config conns history).clientHandle = 0 := by
  induction history using List.reverseRecOn with
  | nil => rfl
  | append_singleton history a ih =>
    rw [reached, List.foldl_append]
    cases h : a.reconnect with
    | true => exact (Attempt.run_reconnect ih h).client
    | false => exact (Attempt.run_connect ih h).client

end Paths

/-- No option of the configuration is one that a path drops. -/
structure NothingDropped (sha256 : Bytes → Fin 32 → UInt8) (config : ConnectionConfig)
    (first again : Attempt) : Prop where
  timeout : config.connectTimeoutMs = 30000
  firstDuplex : first.fullDuplex = true
  againDuplex : again.fullDuplex = true
  udpPort : config.udpPort ≤ 0
  udpOnly : config.udpOnly = false
  maxConnections : config.targetConnections = 4
  auth : config.authMethod = .anonymous → config.password.length = 0
  mac : 0x5E :: List.ofFn again.rand = stableMac sha256 config

section Paths

variable {sha256 : Bytes → Fin 32 → UInt8} {config : ConnectionConfig} {w : World}

theorem half_iff (fullDuplex : Bool) :
    (0 : ℤ) = (if fullDuplex then 0 else 1) ↔ fullDuplex = true := by
  cases fullDuplex <;> simp

/-- When the first connect is as prescribed. -/
theorem prescribed_connect_iff (hw : w.clientHandle = 0) {a : Attempt} (h : a.reconnect = false) :
    Prescribed sha256 config a.fullDuplex (a.options sha256 config w) ↔
      config.connectTimeoutMs = 30000 ∧ a.fullDuplex = true ∧ config.targetConnections = 4 ∧
        (config.authMethod = .anonymous → config.password.length = 0) := by
  rw [Attempt.options, (Attempt.run_connect hw h).conn]
  constructor
  · rintro ⟨htimeout, -, -, -, hhalf, -, hauth, hadvertised⟩
    exact ⟨htimeout.symm, (half_iff _).mp hhalf, (advertised_iff _ _ _).mp hadvertised,
      (loginAuthType_eq_iff config rfl).mp hauth⟩
  · rintro ⟨htimeout, hduplex, hmax, hauth⟩
    exact ⟨htimeout.symm, rfl, rfl, rfl, (half_iff _).mpr hduplex, rfl,
      (loginAuthType_eq_iff config rfl).mpr hauth, (advertised_iff _ _ _).mpr hmax⟩

/-- When a reconnect is as prescribed. -/
theorem prescribed_reconnect_iff (hw : w.clientHandle = 0) {a : Attempt} (h : a.reconnect = true) :
    Prescribed sha256 config a.fullDuplex (a.options sha256 config w) ↔
      config.connectTimeoutMs = 30000 ∧ a.fullDuplex = true ∧ config.targetConnections = 4 ∧
        (config.authMethod = .anonymous → config.password.length = 0) ∧ config.udpPort ≤ 0 ∧
        config.udpOnly = false ∧ 0x5E :: List.ofFn a.rand = stableMac sha256 config := by
  have hport : (0 : ℤ) = (if config.udpPort > 0 then config.udpPort else 0) ↔
      config.udpPort ≤ 0 := by
    split_ifs <;> omega
  have honly : (0 : ℤ) = (if config.udpOnly then 1 else 0) ↔ config.udpOnly = false := by
    cases config.udpOnly <;> simp
  rw [Attempt.options, (Attempt.run_reconnect hw h).conn]
  constructor
  · rintro ⟨htimeout, hudp, hudpOnly, -, hhalf, hmac, hauth, hadvertised⟩
    exact ⟨htimeout.symm, (half_iff _).mp hhalf, (advertised_iff _ _ _).mp hadvertised,
      (loginAuthType_eq_iff config rfl).mp hauth, hport.mp hudp, honly.mp hudpOnly, hmac⟩
  · rintro ⟨htimeout, hduplex, hmax, hauth, hudp, hudpOnly, hmac⟩
    exact ⟨htimeout.symm, hport.mpr hudp, honly.mpr hudpOnly, hmax.symm, (half_iff _).mpr hduplex,
      hmac, (loginAuthType_eq_iff config rfl).mpr hauth, (advertised_iff _ _ _).mpr hmax⟩

end Paths

/-- In every history of attempts, a first connect and a reconnect both have the options that the
configuration prescribes, and the same ones, exactly when the configuration asks for nothing that
a path drops. -/
theorem options_prescribed_iff (sha256 : Bytes → Fin 32 → UInt8) (config : ConnectionConfig)
    (conns : ℕ → NativeConn) (history history' : List Attempt) (first again : Attempt)
    (hfirst : first.reconnect = false) (hagain : again.reconnect = true) :
    (Prescribed sha256 config first.fullDuplex
        (first.options sha256 config (reached sha256 config conns history)) ∧
      Prescribed sha256 config again.fullDuplex
        (again.options sha256 config (reached sha256 config conns history')) ∧
      first.options sha256 config (reached sha256 config conns history) =
        again.options sha256 config (reached sha256 config conns history')) ↔
      NothingDropped sha256 config first again := by
  have hw := reached_clientHandle sha256 config conns history
  have hw' := reached_clientHandle sha256 config conns history'
  rw [prescribed_connect_iff hw hfirst, prescribed_reconnect_iff hw' hagain]
  constructor
  · rintro ⟨⟨htimeout, hfirstDuplex, hmax, hauth⟩, ⟨-, hagainDuplex, -, -, hport, honly, hmac⟩, -⟩
    exact ⟨htimeout, hfirstDuplex, hagainDuplex, hport, honly, hmax, hauth, hmac⟩
  · rintro ⟨htimeout, hfirstDuplex, hagainDuplex, hport, honly, hmax, hauth, hmac⟩
    refine ⟨⟨htimeout, hfirstDuplex, hmax, hauth⟩,
      ⟨htimeout, hagainDuplex, hmax, hauth, hport, honly, hmac⟩, ?_⟩
    rw [Attempt.options, Attempt.options, (Attempt.run_connect hw hfirst).conn,
      (Attempt.run_reconnect hw' hagain).conn, ← hmac, hmax, honly, if_neg (by omega)]
    rfl

/-- The digest of `vpngate-mac:vpn:443`. -/
def vpnDigest : List UInt8 :=
  [0xD3, 0xF7, 0x6B, 0xEF, 0x84, 0x7B, 0xCA, 0xA3, 0x09, 0xFC, 0x02, 0x32, 0x37, 0x5D, 0x07,
    0x6D, 0x61, 0xF1, 0x9B, 0xC6, 0x82, 0x92, 0x34, 0x8B, 0xB4, 0x43, 0xEF, 0x7C, 0x1F, 0x39, 0x9C, 0xE4]

def sha256Vpn : Bytes → Fin 32 → UInt8 := fun _ i => vpnDigest.get i

/-- The defaults, with the given timeout. -/
def plainConfig (connectTimeoutMs : ℤ) : ConnectionConfig where
  serverHost := "vpn"
  serverPort := 443
  password := "vpn"
  udpPort := 0
  udpOnly := false
  connectTimeoutMs := connectTimeoutMs
  authMethod := .auto
  maxConnections := 4

def firstAttempt : Attempt := ⟨false, 1, by decide, fun _ => 7, true⟩

/-- A reconnect whose random MAC happens to be the stable one. -/
def luckyAttempt : Attempt :=
  ⟨true, 2, by decide, fun i => sha256Vpn [] ⟨i + 1, by omega⟩, true⟩

theorem luckyAttempt_nothingDropped :
    NothingDropped sha256Vpn (plainConfig 30000) firstAttempt luckyAttempt :=
  ⟨rfl, rfl, rfl, le_rfl, rfl, rfl, nofun, rfl⟩

theorem options_prescribed_lucky :
    firstAttempt.reconnect = false ∧ luckyAttempt.reconnect = true ∧
      Prescribed sha256Vpn (plainConfig 30000) true
        (luckyAttempt.options sha256Vpn (plainConfig 30000)
          (reached sha256Vpn (plainConfig 30000) (fun _ => softetherCreate fun _ => 0)
            [firstAttempt])) :=
  ⟨rfl, rfl, ((options_prescribed_iff sha256Vpn (plainConfig 30000)
    (fun _ => softetherCreate fun _ => 0) [] [firstAttempt] firstAttempt luckyAttempt rfl
    rfl).mpr luckyAttempt_nothingDropped).2.1⟩

/-- A timeout of ten seconds is dropped on both paths, and a reconnect takes a random MAC. -/
theorem options_dropped :
    (firstAttempt.options sha256Vpn (plainConfig 10000)
        ⟨0, fun _ => softetherCreate fun _ => 0⟩).timeoutMs = 30000 ∧
      ({ firstAttempt with reconnect := true } : Attempt).options sha256Vpn (plainConfig 10000)
        ⟨0, fun _ => softetherCreate fun _ => 0⟩ = softetherCreate (fun _ => 7) ∧
      firstAttempt.options sha256Vpn (plainConfig 10000)
          ⟨0, fun _ => softetherCreate fun _ => 0⟩ ≠
        ({ firstAttempt with reconnect := true } : Attempt).options sha256Vpn (plainConfig 10000)
          ⟨0, fun _ => softetherCreate fun _ => 0⟩ := by
  decide

end SoftEtherVpn.Controller

import OrangeBox.Hal.Gpio
import OrangeBox.Json
/-!
# Decoding a configuration

`BoxConfigStore::decode`. The fields are decoded into a copy of the
configuration, which is kept when nothing was refused. The validity of a pin is
up to the chip.
-/
open OrangeBox.Hal (DoorMapping invalidPin)
open OrangeBox.PassStore (doorUnknown)

namespace OrangeBox.Config

abbrev maxDoors : Nat := Hal.doorCount

/-- `BoxConfig`. A `long` is an integer; every one of them stays within 32 bits. -/
structure BoxConfig where
  provisioned : Bool
  scannerTestKeepCred : Bool
  language : Int
  hostName : List UInt8
  wifiSsid : List UInt8
  wifiPassword : List UInt8
  logHost : List UInt8
  logPath : List UInt8
  ntpServer : List UInt8
  logPort : UInt16
  gmtOffset : Int
  daylightOffset : Int
  vpnHost : List UInt8
  vpnUser : List UInt8
  vpnKeyType : List UInt8
  vpnFingerprint : List UInt8
  vpnPublicKey : List UInt8
  vpnPrivateKey : List UInt8
  vpnPort : UInt16
  vpnRemotePort : UInt16
  ambientPin : UInt8
  doorCount : UInt8
  doors : Fin maxDoors → DoorMapping

/-- `GPIO_IS_VALID_GPIO` and `GPIO_IS_VALID_OUTPUT_GPIO`. -/
structure Chip where
  isValidGpio : UInt8 → Bool
  isValidOutputGpio : UInt8 → Bool

/-! ## Parsers

Each takes the present value and returns the next one, or the error. -/

section
variable (obj : List (String × Json)) (complete : Bool) (key : String)

def text (maxLen : Nat) (empty : Bool) (target : List UInt8) : Except String (List UInt8) :=
  match obj.lookup key with
  | none => if complete then .error key else .ok target
  | some (.text chars) =>
    let value := chars.takeWhile (· ≠ 0)
    if chars.length ≠ value.length ∨ maxLen < value.length ∨ (empty = false ∧ value = []) then .error key else .ok value
  | some _ => .error key

def number (min max : Int) (result : Int) : Except String Int :=
  match obj.lookup key with
  | none => if complete then .error key else .ok result
  | some value =>
    match value.asLong with
    | none => .error key
    | some value => if value < min ∨ max < value then .error key else .ok value

def boolean (target : Bool) : Except String Bool :=
  match obj.lookup key with
  | none => if complete then .error key else .ok target
  | some (.bool value) => .ok value
  | some _ => (number obj complete key 0 1 target.toNat).map (· ≠ 0)

/-- `smallNumber` for an `uint8_t`. -/
def smallNumber8 (min max : Int) (target : UInt8) : Except String UInt8 :=
  (number obj complete key min max target.toNat).map UInt8.ofInt

/-- `smallNumber` for an `uint16_t`. -/
def smallNumber16 (min max : Int) (target : UInt16) : Except String UInt16 :=
  (number obj complete key min max target.toNat).map UInt16.ofInt

end

/-- The fields apart from the doors. Every parser names its key when it refuses,
so there is always an error to report. -/
def decodeFields (obj : List (String × Json)) (complete : Bool) (config : BoxConfig) : Except String BoxConfig := do
  let provisioned ← boolean obj complete "BOX_PROVISIONED" config.provisioned
  let scannerTestKeepCred ← boolean obj complete "QR_SCANNER_TEST_KEEP_CRED" config.scannerTestKeepCred
  let language ← number obj complete "DISP_LANG" 0 1 config.language
  let hostName ← text obj complete "BOX_HOST_NAME" 63 false config.hostName
  let wifiSsid ← text obj complete "WIFI_SSID" 32 false config.wifiSsid
  let wifiPassword ← text obj complete "WIFI_PASSWD" 63 true config.wifiPassword
  let logHost ← text obj complete "LOG_SERVER_IP" 253 false config.logHost
  let logPath ← text obj complete "LOG_SERVER_PATH" 256 false config.logPath
  let logPort ← smallNumber16 obj complete "LOG_SERVER_PORT" 1 65535 config.logPort
  let ntpServer ← text obj complete "NTP_SERVER" 253 false config.ntpServer
  let gmtOffset ← number obj complete "GMT_OFFSET_SEC" (-86400) 86400 config.gmtOffset
  let daylightOffset ← number obj complete "DAYLIGHT_OFFSET_SEC" (-86400) 86400 config.daylightOffset
  let vpnHost ← text obj complete "VPN_GATEWAY_HOST" 253 false config.vpnHost
  let vpnPort ← smallNumber16 obj complete "VPN_GATEWAY_PORT" 1 65535 config.vpnPort
  let vpnUser ← text obj complete "VPN_USERNAME" 128 false config.vpnUser
  let vpnRemotePort ← smallNumber16 obj complete "VPN_REMOTE_BIND_PORT" 1 65535 config.vpnRemotePort
  let vpnKeyType ← text obj complete "VPN_GATEWAY_KEY_TYPE" 64 false config.vpnKeyType
  let vpnFingerprint ← text obj complete "VPN_GATEWAY_FINGERPRINT" 128 false config.vpnFingerprint
  let vpnPublicKey ← text obj complete "VPN_PUBLIC_KEY" 4096 false config.vpnPublicKey
  let vpnPrivateKey ← text obj complete "VPN_PRIVATE_KEY" 8192 false config.vpnPrivateKey
  let ambientPin ← smallNumber8 obj complete "AMBIENT_PIN" 0 255 config.ambientPin
  let doorCount ← smallNumber8 obj complete "ACTIVE_DOOR_NUMBERS" 1 maxDoors config.doorCount
  pure
    { provisioned := provisioned
      scannerTestKeepCred := scannerTestKeepCred
      language := language
      hostName := hostName
      wifiSsid := wifiSsid
      wifiPassword := wifiPassword
      logHost := logHost
      logPath := logPath
      ntpServer := ntpServer
      logPort := logPort
      gmtOffset := gmtOffset
      daylightOffset := daylightOffset
      vpnHost := vpnHost
      vpnUser := vpnUser
      vpnKeyType := vpnKeyType
      vpnFingerprint := vpnFingerprint
      vpnPublicKey := vpnPublicKey
      vpnPrivateKey := vpnPrivateKey
      vpnPort := vpnPort
      vpnRemotePort := vpnRemotePort
      ambientPin := ambientPin
      doorCount := doorCount
      doors := config.doors }

/-! ## Doors -/

section
variable (chip : Chip)

/-- The value of a cell, once it was checked to be a number. -/
def cell (row : List Json) (c : Nat) : Int := ((row.getD c .null).asLong).getD 0

/-- The check of the cell `c`. -/
def badCell (row : List Json) (c : Nat) : Bool :=
  match (row.getD c .null).asLong with
  | none => true
  | some value => value < 0 || (if c = 4 then 1 else 255) < value

/-- One row of the table. -/
def decodeRow (row : List Json) : Except String DoorMapping :=
  if row.length ≠ 5 then .error "INITIAL_DOOR_MAPPING row"
  else if (List.range 5).any (badCell row) then .error "INITIAL_DOOR_MAPPING value"
  else
    let lock := UInt8.ofInt (cell row 1)
    let contact := UInt8.ofInt (cell row 2)
    if cell row 0 = doorUnknown.toNat ∨ cell row 3 ≠ 0 ∨ (lock ≠ invalidPin ∧ chip.isValidOutputGpio lock = false) ∨
        (contact ≠ invalidPin ∧ chip.isValidGpio contact = false) then
      .error "INITIAL_DOOR_MAPPING GPIO"
    else
      .ok { logDoorNum := UInt8.ofInt (cell row 0)
            gpioPin := lock
            statePin := contact
            extenderNum := 0
            lastState := cell row 4 ≠ 0 }

/-- The loop over the rows, from the door `i` on. A row past the last door has no place to go. -/
def decodeRows : List Json → Nat → (Fin maxDoors → DoorMapping) → Except String (Fin maxDoors → DoorMapping)
  | [], _, doors => .ok doors
  | row :: rows, i, doors => do
    let mapping ← decodeRow chip row.elements
    decodeRows rows (i + 1) fun j => if j.val = i then mapping else doors j

/-- The table of the doors, after the fields were decoded from `config` into `next`. -/
def decodeDoors (obj : List (String × Json)) (complete : Bool) (config next : BoxConfig) : Except String BoxConfig :=
  match obj.lookup "INITIAL_DOOR_MAPPING" with
  | none => if complete = true ∨ next.doorCount ≠ config.doorCount then .error "INITIAL_DOOR_MAPPING missing" else .ok next
  | some (.array rows) =>
    if rows.length ≠ next.doorCount.toNat then .error "INITIAL_DOOR_MAPPING count"
    else (decodeRows chip rows 0 next.doors).map fun doors => { next with doors := doors }
  | some _ => .error "INITIAL_DOOR_MAPPING count"

/-- The configuration `decode` makes of a document, or its error. -/
def decoded (root : Json) (complete : Bool) (config : BoxConfig) : Except String BoxConfig :=
  match root.member "sandbox" with
  | some (.object obj) => do
    let next ← decodeFields obj complete config
    if next.ambientPin ≠ invalidPin ∧ chip.isValidOutputGpio next.ambientPin = false then .error "AMBIENT_PIN"
    else
      let next ← decodeDoors chip obj complete config next
      if complete = true ∧ next.provisioned = false then .error "BOX_PROVISIONED must be 1" else .ok next
  | _ => .error "Missing sandbox object"

/-- `decode`, with what it leaves in `config` and `error`. -/
def decode (root : Json) (complete : Bool) (config : BoxConfig) (error : String) : Bool × BoxConfig × String :=
  match decoded chip root complete config with
  | .error text => (false, config, text)
  | .ok next => (true, next, error)

end

end OrangeBox.Config

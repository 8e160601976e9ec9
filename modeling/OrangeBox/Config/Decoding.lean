import OrangeBox.Config.Decode
/-!
# What decoding does

A configuration is decoded as a whole or not at all. Every field whose key is
present gets exactly the value that stands there and the others keep theirs
(`Updated`), and a configuration whose pins, ports and doors are in range stays
so (`Ranges`).
-/
open OrangeBox.Hal (DoorMapping invalidPin)
open OrangeBox.PassStore (doorUnknown)

namespace OrangeBox.Config

theorem bind_eq_ok {α β : Type} {x : Except String α} {f : α → Except String β} {b : β} :
    (x >>= f) = .ok b ↔ ∃ a, x = .ok a ∧ f a = .ok b := by
  cases x with
  | error e => exact ⟨nofun, fun ⟨_, h, _⟩ => nomatch h⟩
  | ok a => exact ⟨fun h => ⟨a, rfl, h⟩, fun ⟨_, ha, h⟩ => Except.ok.inj ha ▸ h⟩

theorem map_eq_ok {α β : Type} {x : Except String α} {f : α → β} {b : β} :
    x.map f = .ok b ↔ ∃ a, x = .ok a ∧ f a = b := by
  cases x with
  | error e => exact ⟨nofun, fun ⟨_, h, _⟩ => nomatch h⟩
  | ok a => exact ⟨fun h => ⟨a, rfl, Except.ok.inj h⟩, fun ⟨_, ha, h⟩ => by rw [Except.ok.inj ha]; exact congrArg _ h⟩

/-! ## One field -/

variable {obj : List (String × Json)} {complete : Bool} {key : String}

/-- A text is the one that stands under its key, or the old one. -/
def TextAt (obj : List (String × Json)) (key : String) (old new : List UInt8) : Prop :=
  match obj.lookup key with
  | none => new = old
  | some value => value = .text new

def NumberAt (obj : List (String × Json)) (key : String) (old new : Int) : Prop :=
  match obj.lookup key with
  | none => new = old
  | some value => value = .integer new

/-- A truth value is also written as 0 or 1. -/
def BoolAt (obj : List (String × Json)) (key : String) (old new : Bool) : Prop :=
  match obj.lookup key with
  | none => new = old
  | some value => value = .bool new ∨ value = .integer new.toNat

theorem text_ok {maxLen : Nat} {empty : Bool} {old new : List UInt8} (h : text obj complete key maxLen empty old = .ok new) :
    TextAt obj key old new := by
  unfold text at h
  unfold TextAt
  cases hkey : obj.lookup key with
  | none =>
    rw [hkey] at h
    dsimp only at h ⊢
    split at h
    · cases h
    · exact (Except.ok.inj h).symm
  | some value =>
    rw [hkey] at h
    cases value with
    | text chars =>
      dsimp only at h ⊢
      split at h
      · cases h
      · rename_i hgood
        obtain rfl := Except.ok.inj h
        -- No NUL: the C string is the whole text.
        have hlen : chars.length = (chars.takeWhile (· ≠ 0)).length := by
          by_contra hne
          exact hgood (.inl hne)
        exact congrArg Json.text ((List.takeWhile_sublist _).eq_of_length hlen.symm).symm
    | _ => cases h

theorem number_ok {min max old new : Int} (h : number obj complete key min max old = .ok new) :
    NumberAt obj key old new ∧ (new = old ∨ min ≤ new ∧ new ≤ max) := by
  unfold number at h
  unfold NumberAt
  cases hkey : obj.lookup key with
  | none =>
    rw [hkey] at h
    dsimp only at h ⊢
    split at h
    · cases h
    · have heq := (Except.ok.inj h).symm
      exact ⟨heq, .inl heq⟩
  | some value =>
    rw [hkey] at h
    dsimp only at h ⊢
    split at h
    · cases h
    · rename_i n hlong
      split at h
      · cases h
      · obtain rfl := Except.ok.inj h
        exact ⟨Json.eq_of_asLong hlong, .inr (by omega)⟩

theorem boolean_ok {old new : Bool} (h : boolean obj complete key old = .ok new) : BoolAt obj key old new := by
  unfold boolean at h
  unfold BoolAt
  cases hkey : obj.lookup key with
  | none =>
    rw [hkey] at h
    dsimp only at h ⊢
    split at h
    · cases h
    · exact (Except.ok.inj h).symm
  | some value =>
    rw [hkey] at h
    dsimp only at h ⊢
    split at h
    · cases ‹some value = none›
    · rename_i flag hflag
      obtain rfl := Option.some.inj hflag
      exact .inl (congrArg Json.bool (Except.ok.inj h))
    · obtain ⟨n, hn, rfl⟩ := map_eq_ok.1 h
      obtain ⟨hat, hrange⟩ := number_ok hn
      unfold NumberAt at hat
      rw [hkey] at hat
      have hrange : n = 0 ∨ n = 1 := by
        cases old <;> simp only [Bool.toNat_false, Bool.toNat_true, Int.ofNat_zero] at hrange <;> omega
      refine .inr ?_
      rcases hrange with rfl | rfl
      · exact hat
      · exact hat

theorem toNat_ofInt8 {n : Int} (h0 : 0 ≤ n) (h1 : n < 256) : ((UInt8.ofInt n).toNat : Int) = n := by
  unfold UInt8.ofInt
  rw [UInt8.toNat_ofNat']
  omega

theorem toNat_ofInt16 {n : Int} (h0 : 0 ≤ n) (h1 : n < 65536) : ((UInt16.ofInt n).toNat : Int) = n := by
  unfold UInt16.ofInt
  rw [UInt16.toNat_ofNat']
  omega

/-- Nothing is lost when the value is stored in 8 bits. -/
theorem smallNumber8_ok {min max : Int} {old new : UInt8} (hmin : 0 ≤ min) (hmax : max < 256)
    (h : smallNumber8 obj complete key min max old = .ok new) :
    NumberAt obj key old.toNat new.toNat ∧ (new = old ∨ min ≤ new.toNat ∧ new.toNat ≤ max) := by
  obtain ⟨n, hn, rfl⟩ := map_eq_ok.1 h
  obtain ⟨hat, hrange⟩ := number_ok hn
  have hold := old.toNat_lt
  have hback : ((UInt8.ofInt n).toNat : Int) = n := toNat_ofInt8 (by omega) (by omega)
  rw [hback]
  refine ⟨hat, hrange.imp_left fun heq => ?_⟩
  apply UInt8.toNat_inj.1
  omega

/-- Nothing is lost when the value is stored in 16 bits. -/
theorem smallNumber16_ok {min max : Int} {old new : UInt16} (hmin : 0 ≤ min) (hmax : max < 65536)
    (h : smallNumber16 obj complete key min max old = .ok new) :
    NumberAt obj key old.toNat new.toNat ∧ (new = old ∨ min ≤ new.toNat ∧ new.toNat ≤ max) := by
  obtain ⟨n, hn, rfl⟩ := map_eq_ok.1 h
  obtain ⟨hat, hrange⟩ := number_ok hn
  have hold := old.toNat_lt
  have hback : ((UInt16.ofInt n).toNat : Int) = n := toNat_ofInt16 (by omega) (by omega)
  rw [hback]
  refine ⟨hat, hrange.imp_left fun heq => ?_⟩
  apply UInt16.toNat_inj.1
  omega

def PortInRange (port : UInt16) : Prop := 1 ≤ port.toNat ∧ port.toNat ≤ 65535

theorem port_ok {old new : UInt16} (h : smallNumber16 obj complete key 1 65535 old = .ok new) :
    NumberAt obj key old.toNat new.toNat ∧ (new = old ∨ PortInRange new) := by
  obtain ⟨hat, hrange⟩ := smallNumber16_ok (by decide) (by decide) h
  refine ⟨hat, hrange.imp_right fun ⟨hlo, hhi⟩ => ?_⟩
  unfold PortInRange
  omega

/-! ## The fields -/

/-- Every field apart from the doors is the one that stands under its key, or the old one. -/
structure Updated (obj : List (String × Json)) (old new : BoxConfig) : Prop where
  provisioned : BoolAt obj "BOX_PROVISIONED" old.provisioned new.provisioned
  scannerTestKeepCred : BoolAt obj "QR_SCANNER_TEST_KEEP_CRED" old.scannerTestKeepCred new.scannerTestKeepCred
  language : NumberAt obj "DISP_LANG" old.language new.language
  hostName : TextAt obj "BOX_HOST_NAME" old.hostName new.hostName
  wifiSsid : TextAt obj "WIFI_SSID" old.wifiSsid new.wifiSsid
  wifiPassword : TextAt obj "WIFI_PASSWD" old.wifiPassword new.wifiPassword
  logHost : TextAt obj "LOG_SERVER_IP" old.logHost new.logHost
  logPath : TextAt obj "LOG_SERVER_PATH" old.logPath new.logPath
  logPort : NumberAt obj "LOG_SERVER_PORT" old.logPort.toNat new.logPort.toNat
  ntpServer : TextAt obj "NTP_SERVER" old.ntpServer new.ntpServer
  gmtOffset : NumberAt obj "GMT_OFFSET_SEC" old.gmtOffset new.gmtOffset
  daylightOffset : NumberAt obj "DAYLIGHT_OFFSET_SEC" old.daylightOffset new.daylightOffset
  vpnHost : TextAt obj "VPN_GATEWAY_HOST" old.vpnHost new.vpnHost
  vpnPort : NumberAt obj "VPN_GATEWAY_PORT" old.vpnPort.toNat new.vpnPort.toNat
  vpnUser : TextAt obj "VPN_USERNAME" old.vpnUser new.vpnUser
  vpnRemotePort : NumberAt obj "VPN_REMOTE_BIND_PORT" old.vpnRemotePort.toNat new.vpnRemotePort.toNat
  vpnKeyType : TextAt obj "VPN_GATEWAY_KEY_TYPE" old.vpnKeyType new.vpnKeyType
  vpnFingerprint : TextAt obj "VPN_GATEWAY_FINGERPRINT" old.vpnFingerprint new.vpnFingerprint
  vpnPublicKey : TextAt obj "VPN_PUBLIC_KEY" old.vpnPublicKey new.vpnPublicKey
  vpnPrivateKey : TextAt obj "VPN_PRIVATE_KEY" old.vpnPrivateKey new.vpnPrivateKey
  ambientPin : NumberAt obj "AMBIENT_PIN" old.ambientPin.toNat new.ambientPin.toNat
  doorCount : NumberAt obj "ACTIVE_DOOR_NUMBERS" old.doorCount.toNat new.doorCount.toNat

theorem decodeFields_ok {old new : BoxConfig} (h : decodeFields obj complete old = .ok new) :
    Updated obj old new ∧ new.doors = old.doors ∧
      (new.doorCount = old.doorCount ∨ 1 ≤ new.doorCount.toNat ∧ new.doorCount.toNat ≤ maxDoors) ∧
      (new.logPort = old.logPort ∨ PortInRange new.logPort) ∧ (new.vpnPort = old.vpnPort ∨ PortInRange new.vpnPort) ∧
      (new.vpnRemotePort = old.vpnRemotePort ∨ PortInRange new.vpnRemotePort) := by
  unfold decodeFields at h
  obtain ⟨provisioned, h1, h⟩ := bind_eq_ok.1 h
  obtain ⟨scannerTestKeepCred, h2, h⟩ := bind_eq_ok.1 h
  obtain ⟨language, h3, h⟩ := bind_eq_ok.1 h
  obtain ⟨hostName, h4, h⟩ := bind_eq_ok.1 h
  obtain ⟨wifiSsid, h5, h⟩ := bind_eq_ok.1 h
  obtain ⟨wifiPassword, h6, h⟩ := bind_eq_ok.1 h
  obtain ⟨logHost, h7, h⟩ := bind_eq_ok.1 h
  obtain ⟨logPath, h8, h⟩ := bind_eq_ok.1 h
  obtain ⟨logPort, h9, h⟩ := bind_eq_ok.1 h
  obtain ⟨ntpServer, h10, h⟩ := bind_eq_ok.1 h
  obtain ⟨gmtOffset, h11, h⟩ := bind_eq_ok.1 h
  obtain ⟨daylightOffset, h12, h⟩ := bind_eq_ok.1 h
  obtain ⟨vpnHost, h13, h⟩ := bind_eq_ok.1 h
  obtain ⟨vpnPort, h14, h⟩ := bind_eq_ok.1 h
  obtain ⟨vpnUser, h15, h⟩ := bind_eq_ok.1 h
  obtain ⟨vpnRemotePort, h16, h⟩ := bind_eq_ok.1 h
  obtain ⟨vpnKeyType, h17, h⟩ := bind_eq_ok.1 h
  obtain ⟨vpnFingerprint, h18, h⟩ := bind_eq_ok.1 h
  obtain ⟨vpnPublicKey, h19, h⟩ := bind_eq_ok.1 h
  obtain ⟨vpnPrivateKey, h20, h⟩ := bind_eq_ok.1 h
  obtain ⟨ambientPin, h21, h⟩ := bind_eq_ok.1 h
  obtain ⟨doorCount, h22, h⟩ := bind_eq_ok.1 h
  obtain rfl := Except.ok.inj h
  obtain ⟨hlog, hlogRange⟩ := port_ok h9
  obtain ⟨hvpn, hvpnRange⟩ := port_ok h14
  obtain ⟨hremote, hremoteRange⟩ := port_ok h16
  obtain ⟨hambient, -⟩ := smallNumber8_ok (by decide) (by decide) h21
  obtain ⟨hcount, hcountRange⟩ := smallNumber8_ok (by decide) (by decide) h22
  refine ⟨⟨boolean_ok h1, boolean_ok h2, (number_ok h3).1, text_ok h4, text_ok h5, text_ok h6, text_ok h7, text_ok h8,
    hlog, text_ok h10, (number_ok h11).1, (number_ok h12).1, text_ok h13, hvpn, text_ok h15, hremote, text_ok h17,
    text_ok h18, text_ok h19, text_ok h20, hambient, hcount⟩, rfl, ?_, hlogRange, hvpnRange, hremoteRange⟩
  exact hcountRange.imp_right fun ⟨hlo, hhi⟩ => ⟨Int.ofNat_le.1 hlo, Int.ofNat_le.1 hhi⟩

/-! ## The doors -/

/-- The cells of the row that stands for a mapping. -/
def rowOf (x : DoorMapping) : List Json :=
  [.integer x.logDoorNum.toNat, .integer x.gpioPin.toNat, .integer x.statePin.toNat, .integer x.extenderNum.toNat,
    .integer x.lastState.toNat]

structure DoorInRange (chip : Chip) (x : DoorMapping) : Prop where
  logDoorNum : x.logDoorNum ≠ doorUnknown
  extenderNum : x.extenderNum = 0
  gpioPin : x.gpioPin = invalidPin ∨ chip.isValidOutputGpio x.gpioPin = true
  statePin : x.statePin = invalidPin ∨ chip.isValidGpio x.statePin = true

variable {chip : Chip}

/-- A cell that passed the check holds a number in range. -/
theorem cell_of_good {row : List Json} {c : Nat} (hlen : c < row.length) (h : badCell row c = false) :
    row[c] = .integer (cell row c) ∧ 0 ≤ cell row c ∧ cell row c ≤ if c = 4 then 1 else 255 := by
  unfold badCell at h
  unfold cell
  rw [List.getD_eq_getElem _ _ hlen] at h ⊢
  split at h
  · cases h
  · rename_i value hvalue
    rw [hvalue]
    simp only [Bool.or_eq_false_iff, decide_eq_false_iff_not] at h
    refine ⟨Json.eq_of_asLong hvalue, ?_, ?_⟩
    · exact Int.not_lt.1 h.1
    · exact Int.not_lt.1 h.2

theorem decodeRow_ok {row : List Json} {x : DoorMapping} (h : decodeRow chip row = .ok x) : row = rowOf x ∧ DoorInRange chip x := by
  unfold decodeRow at h
  split at h
  · cases h
  rename_i hlen
  split at h
  · cases h
  rename_i hgood
  dsimp only at h
  split at h
  · cases h
  rename_i hpins
  obtain rfl := Except.ok.inj h
  have hlen : row.length = 5 := not_not.1 hlen
  -- All five cells passed the same check; the checks of the pins come after it.
  have hcells : ∀ c (hc : c < 5), row[c] = .integer (cell row c) ∧ 0 ≤ cell row c ∧ cell row c ≤ if c = 4 then 1 else 255 := by
    intro c hc
    refine cell_of_good (by omega) ?_
    by_contra hbad
    exact hgood (List.any_eq_true.2 ⟨c, List.mem_range.2 hc, by simpa using hbad⟩)
  obtain ⟨h0, hlo0, hhi0⟩ := hcells 0 (by decide)
  obtain ⟨h1, hlo1, hhi1⟩ := hcells 1 (by decide)
  obtain ⟨h2, hlo2, hhi2⟩ := hcells 2 (by decide)
  obtain ⟨h3, hlo3, hhi3⟩ := hcells 3 (by decide)
  obtain ⟨h4, hlo4, hhi4⟩ := hcells 4 (by decide)
  simp only [not_or, not_and, Bool.not_eq_false] at hpins
  obtain ⟨hdoor, hext, hlock, hcontact⟩ := hpins
  have hext : cell row 3 = 0 := by
    by_contra hne
    exact hext hne
  have hstate : ((decide (cell row 4 ≠ 0)).toNat : Int) = cell row 4 := by
    have hcase : cell row 4 = 0 ∨ cell row 4 = 1 := by
      rw [if_pos rfl] at hhi4
      omega
    rcases hcase with hcase | hcase <;> rw [hcase] <;> rfl
  rw [if_neg (by decide)] at hhi0 hhi1 hhi2
  constructor
  · refine List.ext_getElem hlen fun c hc hc' => ?_
    change c < 5 at hc'
    unfold rowOf
    dsimp only
    rw [toNat_ofInt8 hlo0 (by omega), toNat_ofInt8 hlo1 (by omega), toNat_ofInt8 hlo2 (by omega), hstate]
    interval_cases c
    · exact h0
    · exact h1
    · exact h2
    · exact h3.trans (congrArg Json.integer hext)
    · exact h4
  · refine ⟨fun heq => hdoor ?_, rfl, ?_, ?_⟩
    · rw [← toNat_ofInt8 hlo0 (by omega)]
      exact congrArg (fun d : UInt8 => (d.toNat : Int)) heq
    · exact or_iff_not_imp_left.2 hlock
    · exact or_iff_not_imp_left.2 hcontact

/-- The rows go to the doors from `i` on, the other doors keep their mappings. -/
theorem decodeRows_ok {rows : List Json} {i : Nat} {old new : Fin maxDoors → DoorMapping}
    (h : decodeRows chip rows i old = .ok new) :
    (∀ k row, rows[k]? = some row → ∀ j : Fin maxDoors, j.val = i + k → row = .array (rowOf (new j)) ∧ DoorInRange chip (new j)) ∧
      ∀ j : Fin maxDoors, j.val < i ∨ i + rows.length ≤ j.val → new j = old j := by
  induction rows generalizing i old with
  | nil =>
    obtain rfl := Except.ok.inj h
    exact ⟨nofun, fun _ _ => rfl⟩
  | cons row rows ih =>
    obtain ⟨x, hx, hrest⟩ := bind_eq_ok.1 h
    obtain ⟨hrows, hkeep⟩ := ih hrest
    obtain ⟨hrow, hrange⟩ := decodeRow_ok hx
    have harray : row = .array row.elements := by
      cases row with
      | array elements => rfl
      | _ => cases hrow
    refine ⟨fun k r hk j hj => ?_, fun j hj => ?_⟩
    · cases k with
      | zero =>
        obtain rfl := Option.some.inj hk
        have hnew : new j = x := (hkeep j (.inl (by omega))).trans (if_pos hj)
        rw [hnew, ← hrow]
        exact ⟨harray, hrange⟩
      | succ k => exact hrows k r hk j (by omega)
    · rw [List.length_cons] at hj
      exact (hkeep j (by omega)).trans (if_neg (by omega))

/-- The table of doors is the one that stands under its key, or the old one; doors past its end stay. -/
def DoorsAt (obj : List (String × Json)) (count : Nat) (old new : Fin maxDoors → DoorMapping) : Prop :=
  match obj.lookup "INITIAL_DOOR_MAPPING" with
  | none => new = old
  | some value =>
    ∃ rows, value = .array rows ∧ rows.length = count ∧
      (∀ (j : Fin maxDoors) row, rows[j.val]? = some row → row = .array (rowOf (new j))) ∧
      ∀ j : Fin maxDoors, count ≤ j.val → new j = old j

theorem decodeDoors_ok {old mid new : BoxConfig} (h : decodeDoors chip obj complete old mid = .ok new) :
    new = { mid with doors := new.doors } ∧ DoorsAt obj mid.doorCount.toNat mid.doors new.doors ∧
      (new.doors = mid.doors ∧ mid.doorCount = old.doorCount ∨
        ∀ j : Fin maxDoors, j.val < mid.doorCount.toNat → DoorInRange chip (new.doors j)) := by
  unfold decodeDoors at h
  unfold DoorsAt
  cases hkey : obj.lookup "INITIAL_DOOR_MAPPING" with
  | none =>
    rw [hkey] at h
    dsimp only at h ⊢
    split at h
    · cases h
    · rename_i hsame
      obtain rfl := Except.ok.inj h
      exact ⟨rfl, rfl, .inl ⟨rfl, by_contra fun hne => hsame (.inr hne)⟩⟩
  | some value =>
    rw [hkey] at h
    cases value with
    | array rows =>
      dsimp only at h ⊢
      split at h
      · cases h
      · rename_i hlen
        have hlen : rows.length = mid.doorCount.toNat := not_not.1 hlen
        obtain ⟨doors, hdoors, rfl⟩ := map_eq_ok.1 h
        obtain ⟨hrows, hkeep⟩ := decodeRows_ok hdoors
        refine ⟨rfl, ⟨rows, rfl, hlen, fun j row hrow => ?_, fun j hj => ?_⟩, .inr fun j hj => ?_⟩
        · exact (hrows j row hrow j (by omega)).1
        · exact hkeep j (.inr (by omega))
        · exact (hrows j _ (List.getElem?_eq_getElem (by omega)) j (by omega)).2
    | _ => cases h

/-! ## The whole configuration -/

/-- The ranges of a configuration. -/
structure Ranges (chip : Chip) (config : BoxConfig) : Prop where
  doorCount : 1 ≤ config.doorCount.toNat ∧ config.doorCount.toNat ≤ maxDoors
  doors : ∀ j : Fin maxDoors, j.val < config.doorCount.toNat → DoorInRange chip (config.doors j)
  ambientPin : config.ambientPin = invalidPin ∨ chip.isValidOutputGpio config.ambientPin = true
  logPort : PortInRange config.logPort
  vpnPort : PortInRange config.vpnPort
  vpnRemotePort : PortInRange config.vpnRemotePort

/-- The members of the object `sandbox`. -/
def sandbox (root : Json) : List (String × Json) :=
  match root.member "sandbox" with
  | some (.object obj) => obj
  | _ => []

/-- Every field is the one that stands under its key, or the old one. -/
def Decoded (root : Json) (old new : BoxConfig) : Prop :=
  Updated (sandbox root) old new ∧ DoorsAt (sandbox root) new.doorCount.toNat old.doors new.doors

theorem sandbox_eq {root : Json} {obj : List (String × Json)} (h : root.member "sandbox" = some (.object obj)) :
    sandbox root = obj := by
  unfold sandbox
  rw [h]

theorem decoded_ok {root : Json} {old new : BoxConfig} (h : decoded chip root complete old = .ok new) :
    Decoded root old new ∧ (Ranges chip old → Ranges chip new) := by
  unfold decoded at h
  split at h
  · rename_i obj hobj
    rw [Decoded, sandbox_eq hobj]
    obtain ⟨mid, hfields, h⟩ := bind_eq_ok.1 h
    obtain ⟨hupdated, hmiddle, hcount, hlog, hvpn, hremote⟩ := decodeFields_ok hfields
    split at h
    · cases h
    · rename_i hambient
      obtain ⟨last, hlast, h⟩ := bind_eq_ok.1 h
      obtain ⟨hmid, hat, hrange⟩ := decodeDoors_ok hlast
      split at h
      · cases h
      · obtain rfl := Except.ok.inj h
        rw [hmid]
        refine ⟨⟨{ hupdated with }, hmiddle ▸ hat⟩, fun hold => ?_⟩
        have hcount : 1 ≤ mid.doorCount.toNat ∧ mid.doorCount.toNat ≤ maxDoors :=
          hcount.elim (fun heq => heq ▸ hold.doorCount) id
        refine ⟨hcount, ?_, ?_, ?_, ?_, ?_⟩
        · rcases hrange with ⟨hsame, hcount⟩ | hrange
          · intro j hj
            change DoorInRange chip (last.doors j)
            rw [hsame, hmiddle]
            exact hold.doors j (hcount ▸ hj)
          · exact hrange
        · refine or_iff_not_imp_left.2 fun hne => ?_
          by_contra hbad
          exact hambient ⟨hne, Bool.eq_false_iff.2 hbad⟩
        · exact hlog.elim (fun heq => heq ▸ hold.logPort) id
        · exact hvpn.elim (fun heq => heq ▸ hold.vpnPort) id
        · exact hremote.elim (fun heq => heq ▸ hold.vpnRemotePort) id
  · cases h

/-- A call of `decode`: the document, the mode and the error that stands there before. -/
structure Call where
  root : Json
  complete : Bool
  error : String

/-- The configuration after calls. -/
def decodeAll (chip : Chip) (calls : List Call) (config : BoxConfig) : BoxConfig :=
  calls.foldl (fun config call => (decode chip call.root call.complete config call.error).2.1) config

theorem decode_ranges {config : BoxConfig} (call : Call) (h : Ranges chip config) :
    Ranges chip (decode chip call.root call.complete config call.error).2.1 := by
  unfold decode
  split
  · exact h
  · rename_i hok
    exact (decoded_ok hok).2 h

theorem decodeAll_ranges {config : BoxConfig} (calls : List Call) (h : Ranges chip config) :
    Ranges chip (decodeAll chip calls config) := by
  induction calls generalizing config with
  | nil => exact h
  | cons call calls ih => exact ih (decode_ranges call h)

/-- A refused document changes nothing; an accepted one sets the fields that it holds; and the ranges are kept by any
calls. -/
theorem decode_transactional (chip : Chip) (root : Json) (config : BoxConfig) (error : String) :
    (∀ complete, (decode chip root complete config error).1 = false → (decode chip root complete config error).2.1 = config) ∧
      ((decode chip root false config error).1 = true → Decoded root config (decode chip root false config error).2.1) ∧
      ∀ calls, Ranges chip config → Ranges chip (decodeAll chip calls config) := by
  refine ⟨fun complete hfalse => ?_, fun htrue => ?_, fun calls h => decodeAll_ranges calls h⟩
  · unfold decode at hfalse ⊢
    split at hfalse
    · rfl
    · cases hfalse
  · unfold decode at htrue ⊢
    split at htrue
    · cases htrue
    · rename_i haccepted
      exact (decoded_ok haccepted).1

/-- A chip with the pins 0 to 48. -/
def chip48 : Chip := ⟨fun pin => pin ≤ 48, fun pin => pin ≤ 45⟩

def closedDoor : DoorMapping := ⟨0, 1, 39, 0, false⟩

def factoryConfig : BoxConfig :=
  { provisioned := false, scannerTestKeepCred := false, language := 0, hostName := [], wifiSsid := [], wifiPassword := []
    logHost := [], logPath := [47], ntpServer := [], logPort := 80, gmtOffset := 0, daylightOffset := 0, vpnHost := []
    vpnUser := [], vpnKeyType := [], vpnFingerprint := [], vpnPublicKey := [], vpnPrivateKey := [], vpnPort := 22
    vpnRemotePort := 2222, ambientPin := 3, doorCount := 1, doors := fun _ => closedDoor }

/-- A second door is added. -/
def twoDoors : Json :=
  .object [("sandbox", .object [("ACTIVE_DOOR_NUMBERS", .integer 2),
    ("INITIAL_DOOR_MAPPING", .array [.array (rowOf closedDoor), .array (rowOf ⟨1, 2, 40, 0, true⟩)])])]

theorem closedDoor_inRange : DoorInRange chip48 closedDoor := ⟨by decide, rfl, by decide, by decide⟩

theorem factoryConfig_ranges : Ranges chip48 factoryConfig where
  doorCount := by decide
  doors := fun _ _ => closedDoor_inRange
  ambientPin := by decide
  logPort := ⟨by decide, by decide⟩
  vpnPort := ⟨by decide, by decide⟩
  vpnRemotePort := ⟨by decide, by decide⟩

theorem twoDoors_decoded :
    (decode chip48 twoDoors false factoryConfig "").1 = true ∧
      Decoded twoDoors factoryConfig (decode chip48 twoDoors false factoryConfig "").2.1 ∧
      Ranges chip48 (decodeAll chip48 [⟨twoDoors, false, ""⟩] factoryConfig) := by
  obtain ⟨-, hdecoded, hranges⟩ := decode_transactional chip48 twoDoors factoryConfig ""
  have htrue : (decode chip48 twoDoors false factoryConfig "").1 = true := by decide +kernel
  exact ⟨htrue, hdecoded htrue, hranges _ factoryConfig_ranges⟩

end OrangeBox.Config

import OrangeBox.Config.Decoding
/-!
# The configuration file

`box_config_store.cpp`. A document is committed only if it is complete, and a
complete document decodes to the same configuration whatever stood before it
(`decoded_lenient`). So what was committed boots, and takes nothing from the
configuration that was compiled in.
-/
open OrangeBox.Hal (DoorMapping invalidPin)

namespace OrangeBox.Config

abbrev maxBytes : Nat := 32768

/-- The files of `BoxConfigStore`, and whether they can be reached. -/
structure BoxConfigStore where
  mounted : Bool
  active : Option (List UInt8)
  pending : Option (List UInt8)

namespace BoxConfigStore
variable (chip : Chip) (deserializeJson : List UInt8 → Option Json)

/-- A file that is neither empty nor too long. -/
def goodSize (file : List UInt8) : Bool := file.length ≠ 0 && file.length ≤ maxBytes

def load (config : BoxConfig) (error : String) (store : BoxConfigStore) : Bool × BoxConfig × String :=
  if store.mounted = false then (false, config, "LittleFS unavailable")
  else
    match store.active with
    | none => (true, config, error)
    | some file =>
      if goodSize file = false then (false, config, "Invalid configuration size")
      else
        match deserializeJson file with
        | none => (false, config, "Invalid configuration JSON")
        | some doc => decode chip doc false config error

/-- `commitDownloaded`, with the files and the error it leaves. `candidate` is the
compiled-in configuration, `renames` whether `rename` works. -/
def commitDownloaded (candidate : BoxConfig) (renames : Bool) (error : String) (store : BoxConfigStore) :
    Bool × BoxConfigStore × String :=
  if store.mounted = false then (false, store, "LittleFS unavailable")
  else
    match store.pending with
    | none => (false, store, "Invalid download size")
    | some file =>
      if goodSize file = false then (false, store, "Invalid download size")
      else
        match deserializeJson file with
        | none => (false, store, "Invalid downloaded JSON")
        | some doc =>
          match decode chip doc true candidate error with
          | (false, _, error) => (false, store, error)
          | (true, _, error) =>
            if renames = false then (false, store, "Configuration rename failed")
            else (true, { store with active := some file, pending := none }, error)

end BoxConfigStore

/-! ## A complete document -/

variable {chip : Chip} {obj : List (String × Json)} {key : String}

theorem text_lenient {maxLen : Nat} {empty : Bool} {old new : List UInt8} (h : text obj true key maxLen empty old = .ok new)
    (other : List UInt8) : text obj false key maxLen empty other = .ok new := by
  unfold text at h ⊢
  cases hkey : obj.lookup key with
  | none =>
    rw [hkey] at h
    cases h
  | some value =>
    rw [hkey] at h
    cases value with
    | text chars => exact h
    | _ => cases h

theorem number_lenient {min max old new : Int} (h : number obj true key min max old = .ok new) (other : Int) :
    number obj false key min max other = .ok new := by
  unfold number at h ⊢
  cases hkey : obj.lookup key with
  | none =>
    rw [hkey] at h
    cases h
  | some value =>
    rw [hkey] at h
    exact h

theorem boolean_lenient {old new : Bool} (h : boolean obj true key old = .ok new) (other : Bool) :
    boolean obj false key other = .ok new := by
  unfold boolean at h ⊢
  cases hkey : obj.lookup key with
  | none =>
    rw [hkey] at h
    cases h
  | some value =>
    rw [hkey] at h
    cases value with
    | bool value => exact h
    | _ =>
      obtain ⟨n, hn, rfl⟩ := map_eq_ok.1 h
      exact map_eq_ok.2 ⟨n, number_lenient hn _, rfl⟩

theorem smallNumber8_lenient {min max : Int} {old new : UInt8} (h : smallNumber8 obj true key min max old = .ok new)
    (other : UInt8) : smallNumber8 obj false key min max other = .ok new := by
  obtain ⟨n, hn, rfl⟩ := map_eq_ok.1 h
  exact map_eq_ok.2 ⟨n, number_lenient hn _, rfl⟩

theorem smallNumber16_lenient {min max : Int} {old new : UInt16} (h : smallNumber16 obj true key min max old = .ok new)
    (other : UInt16) : smallNumber16 obj false key min max other = .ok new := by
  obtain ⟨n, hn, rfl⟩ := map_eq_ok.1 h
  exact map_eq_ok.2 ⟨n, number_lenient hn _, rfl⟩

/-- In a complete document every field stands for itself. -/
theorem decodeFields_lenient {old new : BoxConfig} (h : decodeFields obj true old = .ok new) (other : BoxConfig) :
    decodeFields obj false other = .ok { new with doors := other.doors } := by
  unfold decodeFields at h ⊢
  obtain ⟨provisioned, h1, h⟩ := bind_eq_ok.1 h
  obtain ⟨scannerTestKeepCred, h2, h⟩ := bind_eq_ok.1 h
  obtain ⟨language, h3, h⟩ := bind_eq_ok.1 h
  obtain ⟨hostName, h4, h⟩ := bind_eq_ok.1 h
  obtain ⟨wifiSsid, h5, h⟩ := bind_eq_ok.1 h
  obtain ⟨wifiPassword, h6, h⟩ := bind_eq_ok.1 h
  obtain ⟨logHost, h7, h⟩ := bind_eq_ok.1 h
  obtain ⟨logPath, h8, h⟩ := bind_eq_ok.1 h
  obtain ⟨logPort, h9, h⟩ := bind_eq_ok.1 h
  obtain ⟨ntpServer, h10, h⟩ := bind_eq_ok.1 h
  obtain ⟨gmtOffset, h11, h⟩ := bind_eq_ok.1 h
  obtain ⟨daylightOffset, h12, h⟩ := bind_eq_ok.1 h
  obtain ⟨vpnHost, h13, h⟩ := bind_eq_ok.1 h
  obtain ⟨vpnPort, h14, h⟩ := bind_eq_ok.1 h
  obtain ⟨vpnUser, h15, h⟩ := bind_eq_ok.1 h
  obtain ⟨vpnRemotePort, h16, h⟩ := bind_eq_ok.1 h
  obtain ⟨vpnKeyType, h17, h⟩ := bind_eq_ok.1 h
  obtain ⟨vpnFingerprint, h18, h⟩ := bind_eq_ok.1 h
  obtain ⟨vpnPublicKey, h19, h⟩ := bind_eq_ok.1 h
  obtain ⟨vpnPrivateKey, h20, h⟩ := bind_eq_ok.1 h
  obtain ⟨ambientPin, h21, h⟩ := bind_eq_ok.1 h
  obtain ⟨doorCount, h22, h⟩ := bind_eq_ok.1 h
  obtain rfl := Except.ok.inj h
  refine bind_eq_ok.2 ⟨_, boolean_lenient h1 _, bind_eq_ok.2 ⟨_, boolean_lenient h2 _, ?_⟩⟩
  refine bind_eq_ok.2 ⟨_, number_lenient h3 _, bind_eq_ok.2 ⟨_, text_lenient h4 _, ?_⟩⟩
  refine bind_eq_ok.2 ⟨_, text_lenient h5 _, bind_eq_ok.2 ⟨_, text_lenient h6 _, ?_⟩⟩
  refine bind_eq_ok.2 ⟨_, text_lenient h7 _, bind_eq_ok.2 ⟨_, text_lenient h8 _, ?_⟩⟩
  refine bind_eq_ok.2 ⟨_, smallNumber16_lenient h9 _, bind_eq_ok.2 ⟨_, text_lenient h10 _, ?_⟩⟩
  refine bind_eq_ok.2 ⟨_, number_lenient h11 _, bind_eq_ok.2 ⟨_, number_lenient h12 _, ?_⟩⟩
  refine bind_eq_ok.2 ⟨_, text_lenient h13 _, bind_eq_ok.2 ⟨_, smallNumber16_lenient h14 _, ?_⟩⟩
  refine bind_eq_ok.2 ⟨_, text_lenient h15 _, bind_eq_ok.2 ⟨_, smallNumber16_lenient h16 _, ?_⟩⟩
  refine bind_eq_ok.2 ⟨_, text_lenient h17 _, bind_eq_ok.2 ⟨_, text_lenient h18 _, ?_⟩⟩
  refine bind_eq_ok.2 ⟨_, text_lenient h19 _, bind_eq_ok.2 ⟨_, text_lenient h20 _, ?_⟩⟩
  exact bind_eq_ok.2 ⟨_, smallNumber8_lenient h21 _, bind_eq_ok.2 ⟨_, smallNumber8_lenient h22 _, rfl⟩⟩

/-- The rows of a table go to the same doors from any start. -/
theorem decodeRows_other {rows : List Json} {i : Nat} {old new : Fin maxDoors → DoorMapping}
    (h : decodeRows chip rows i old = .ok new) (other : Fin maxDoors → DoorMapping) :
    ∃ new', decodeRows chip rows i other = .ok new' ∧
      ∀ j : Fin maxDoors, i ≤ j.val → j.val < i + rows.length → new' j = new j := by
  induction rows generalizing i old other with
  | nil => exact ⟨other, rfl, fun j hlo hhi => absurd hhi (by simp; omega)⟩
  | cons row rows ih =>
    obtain ⟨x, hx, hrest⟩ := bind_eq_ok.1 h
    obtain ⟨new', hnew', hsame⟩ := ih hrest fun j => if j.val = i then x else other j
    refine ⟨new', bind_eq_ok.2 ⟨x, hx, hnew'⟩, fun j hlo hhi => ?_⟩
    rw [List.length_cons] at hhi
    by_cases hj : j.val = i
    · have hkeep := (decodeRows_ok hrest).2 j (.inl (by omega))
      have hkeep' := (decodeRows_ok hnew').2 j (.inl (by omega))
      rw [hkeep, hkeep', if_pos hj, if_pos hj]
    · exact hsame j (by omega) (by omega)

/-- Every field and the doors in use are the same. -/
structure Agree (config config' : BoxConfig) : Prop where
  fields : config' = { config with doors := config'.doors }
  doors : ∀ j : Fin maxDoors, j.val < config.doorCount.toNat → config'.doors j = config.doors j

/-- A complete document has a table of doors, and needs no other. -/
theorem decodeDoors_lenient {old mid new : BoxConfig} (h : decodeDoors chip obj true old mid = .ok new) (other : BoxConfig) :
    ∃ new', decodeDoors chip obj false other { mid with doors := other.doors } = .ok new' ∧ Agree new new' := by
  unfold decodeDoors at h ⊢
  cases hkey : obj.lookup "INITIAL_DOOR_MAPPING" with
  | none =>
    rw [hkey] at h
    cases h
  | some value =>
    rw [hkey] at h
    cases value with
    | array rows =>
      dsimp only at h ⊢
      split at h
      · cases h
      · rename_i hlen
        have hlen' : rows.length = mid.doorCount.toNat := not_not.1 hlen
        obtain ⟨doors, hdoors, rfl⟩ := map_eq_ok.1 h
        obtain ⟨doors', hdoors', hsame⟩ := decodeRows_other hdoors other.doors
        rw [if_neg hlen]
        refine ⟨_, map_eq_ok.2 ⟨doors', hdoors', rfl⟩, rfl, fun j hj => hsame j (Nat.zero_le _) ?_⟩
        have hj : j.val < mid.doorCount.toNat := hj
        omega
    | _ => cases h

/-- A complete document decodes to the same configuration from any other one, in the lenient mode too. -/
theorem decoded_lenient {root : Json} {old new : BoxConfig} (h : decoded chip root true old = .ok new) (other : BoxConfig) :
    ∃ new', decoded chip root false other = .ok new' ∧ Agree new new' := by
  unfold decoded at h ⊢
  split at h
  · obtain ⟨mid, hfields, h⟩ := bind_eq_ok.1 h
    split at h
    · cases h
    · rename_i hambient
      obtain ⟨last, hlast, h⟩ := bind_eq_ok.1 h
      split at h
      · cases h
      · obtain rfl := Except.ok.inj h
        obtain ⟨new', hnew', hagree⟩ := decodeDoors_lenient hlast other
        refine ⟨new', bind_eq_ok.2 ⟨_, decodeFields_lenient hfields other, ?_⟩, hagree⟩
        rw [if_neg hambient]
        exact bind_eq_ok.2 ⟨new', hnew', if_neg nofun⟩
  · cases h

theorem decode_lenient {root : Json} {old : BoxConfig} {error : String} (h : (decode chip root true old error).1 = true)
    (other : BoxConfig) (error' : String) :
    (decode chip root false other error').1 = true ∧
      Agree (decode chip root true old error).2.1 (decode chip root false other error').2.1 := by
  unfold decode at h ⊢
  split at h
  · cases h
  · rename_i new hnew
    obtain ⟨new', hnew', hagree⟩ := decoded_lenient hnew other
    rw [hnew']
    exact ⟨rfl, hagree⟩

/-! ## Committing -/

section
variable {deserializeJson : List UInt8 → Option Json} {candidate : BoxConfig} {renames : Bool} {error : String}
  {store store' : BoxConfigStore}

/-- The pending file holds a complete document. -/
structure Acceptable (chip : Chip) (deserializeJson : List UInt8 → Option Json) (candidate : BoxConfig) (error : String)
    (store : BoxConfigStore) (file : List UInt8) (doc : Json) : Prop where
  mounted : store.mounted = true
  size : BoxConfigStore.goodSize file = true
  pending : store.pending = some file
  parsed : deserializeJson file = some doc
  accepted : (decode chip doc true candidate error).1 = true

/-- What a commit that reports success has found and done. -/
structure Commits (chip : Chip) (deserializeJson : List UInt8 → Option Json) (candidate : BoxConfig) (error : String)
    (store store' : BoxConfigStore) (file : List UInt8) (doc : Json) : Prop
    extends Acceptable chip deserializeJson candidate error store file doc where
  replaced : store' = { store with active := some file, pending := none }

/-- The files change only when a complete document was accepted. -/
theorem commitDownloaded_cases (store : BoxConfigStore) :
    (∃ file doc, (store.commitDownloaded chip deserializeJson candidate renames error).1 = true ∧
      Commits chip deserializeJson candidate error store
        (store.commitDownloaded chip deserializeJson candidate renames error).2.1 file doc) ∨
      (store.commitDownloaded chip deserializeJson candidate renames error).1 = false ∧
        (store.commitDownloaded chip deserializeJson candidate renames error).2.1 = store := by
  unfold BoxConfigStore.commitDownloaded
  split
  · exact .inr ⟨rfl, rfl⟩
  rename_i hmounted
  split
  · exact .inr ⟨rfl, rfl⟩
  rename_i file hpending
  split
  · exact .inr ⟨rfl, rfl⟩
  rename_i hsize
  split
  · exact .inr ⟨rfl, rfl⟩
  rename_i doc hparsed
  split
  · exact .inr ⟨rfl, rfl⟩
  rename_i hdecoded
  split
  · exact .inr ⟨rfl, rfl⟩
  · refine .inl ⟨file, doc, rfl, ⟨?_, ?_, hpending, hparsed, ?_⟩, rfl⟩
    · exact Bool.not_eq_false _ ▸ hmounted
    · exact Bool.not_eq_false _ ▸ hsize
    · rw [hdecoded]

/-- A complete document is committed if it can be renamed. -/
theorem commitDownloaded_iff (store : BoxConfigStore) :
    (store.commitDownloaded chip deserializeJson candidate renames error).1 = true ↔
      renames = true ∧ ∃ file doc, Acceptable chip deserializeJson candidate error store file doc := by
  constructor
  · intro hdone
    -- Without the rename it has failed, whatever it read.
    have hrenames : renames = true := by
      cases renames with
      | true => rfl
      | false => grind [BoxConfigStore.commitDownloaded]
    rcases commitDownloaded_cases store with ⟨file, doc, -, hcommits⟩ | ⟨hfailed, -⟩
    · exact ⟨hrenames, file, doc, hcommits.toAcceptable⟩
    · rw [hfailed] at hdone
      cases hdone
  · rintro ⟨rfl, file, doc, h⟩
    obtain ⟨config, error', hdecode⟩ : ∃ config error', decode chip doc true candidate error = (true, config, error') :=
      ⟨_, _, Prod.ext h.accepted rfl⟩
    unfold BoxConfigStore.commitDownloaded
    rw [h.mounted, if_neg nofun, h.pending]
    dsimp only
    rw [h.size, if_neg nofun, h.parsed]
    dsimp only
    rw [hdecode]
    rfl

/-- What was committed loads, whatever configuration it is loaded into. -/
theorem Commits.loads {file : List UInt8} {doc : Json} (h : Commits chip deserializeJson candidate error store store' file doc)
    (config : BoxConfig) (error' : String) :
    (store'.load chip deserializeJson config error').1 = true ∧
      Agree (decode chip doc true candidate error).2.1 (store'.load chip deserializeJson config error').2.1 := by
  obtain rfl := h.replaced
  have hload : BoxConfigStore.load chip deserializeJson config error' { store with active := some file, pending := none } =
      decode chip doc false config error' := by
    unfold BoxConfigStore.load
    dsimp only
    rw [h.mounted, if_neg nofun, h.size, if_neg nofun, h.parsed]
  rw [hload]
  exact decode_lenient h.accepted config error'

end

/-- A document that is accepted as complete decodes to one configuration from any start and in the lenient mode. Only
such a document replaces the file, and it loads again; a commit succeeds exactly when the pending file holds one and can
be renamed, and changes nothing when it fails. -/
theorem committed_boots (chip : Chip) (deserializeJson : List UInt8 → Option Json) (candidate : BoxConfig) (renames : Bool)
    (error : String) (store : BoxConfigStore) :
    (∀ doc config₀ config₁ error₀ error₁, (decode chip doc true config₀ error₀).1 = true →
      (decode chip doc false config₁ error₁).1 = true ∧
        Agree (decode chip doc true config₀ error₀).2.1 (decode chip doc false config₁ error₁).2.1) ∧
      ((store.commitDownloaded chip deserializeJson candidate renames error).1 = true ↔
        renames = true ∧ ∃ file doc, Acceptable chip deserializeJson candidate error store file doc) ∧
      ((store.commitDownloaded chip deserializeJson candidate renames error).1 = false →
        (store.commitDownloaded chip deserializeJson candidate renames error).2.1 = store) ∧
      ((store.commitDownloaded chip deserializeJson candidate renames error).1 = true →
        ∃ file doc, Commits chip deserializeJson candidate error store
            (store.commitDownloaded chip deserializeJson candidate renames error).2.1 file doc ∧
          ∀ config error', ((store.commitDownloaded chip deserializeJson candidate renames error).2.1.load chip
              deserializeJson config error').1 = true ∧
            Agree (decode chip doc true candidate error).2.1
              ((store.commitDownloaded chip deserializeJson candidate renames error).2.1.load chip deserializeJson config
                error').2.1) := by
  refine ⟨fun doc config₀ config₁ error₀ error₁ haccepted => decode_lenient haccepted config₁ error₁,
    commitDownloaded_iff store, fun hfailed => ?_, fun hdone => ?_⟩
  · rcases commitDownloaded_cases store with ⟨file, doc, hdone, -⟩ | ⟨-, hsame⟩
    · rw [hfailed] at hdone
      cases hdone
    · exact hsame
  · rcases commitDownloaded_cases store with ⟨file, doc, -, hcommits⟩ | ⟨hfailed, -⟩
    · exact ⟨file, doc, hcommits, hcommits.loads⟩
    · rw [hfailed] at hdone
      cases hdone

/-- A document with every field. -/
def completeDoc : Json :=
  .object [("sandbox", .object
    [("BOX_PROVISIONED", .integer 1), ("QR_SCANNER_TEST_KEEP_CRED", .bool false), ("DISP_LANG", .integer 1),
      ("BOX_HOST_NAME", .text [98]), ("WIFI_SSID", .text [119]), ("WIFI_PASSWD", .text []), ("LOG_SERVER_IP", .text [108]),
      ("LOG_SERVER_PATH", .text [47]), ("LOG_SERVER_PORT", .integer 8080), ("NTP_SERVER", .text [110]),
      ("GMT_OFFSET_SEC", .integer 3600), ("DAYLIGHT_OFFSET_SEC", .integer 3600), ("VPN_GATEWAY_HOST", .text [103]),
      ("VPN_GATEWAY_PORT", .integer 22), ("VPN_USERNAME", .text [117]), ("VPN_REMOTE_BIND_PORT", .integer 2222),
      ("VPN_GATEWAY_KEY_TYPE", .text [116]), ("VPN_GATEWAY_FINGERPRINT", .text [102]), ("VPN_PUBLIC_KEY", .text [112]),
      ("VPN_PRIVATE_KEY", .text [113]), ("AMBIENT_PIN", .integer 255), ("ACTIVE_DOOR_NUMBERS", .integer 1),
      ("INITIAL_DOOR_MAPPING", .array [.array (rowOf ⟨1, 2, 40, 0, true⟩)])])]

theorem completeDoc_boots : (decode chip48 completeDoc true factoryConfig "").1 = true ∧
    (decode chip48 completeDoc false { factoryConfig with doorCount := 20 } "").1 = true ∧
      Agree (decode chip48 completeDoc true factoryConfig "").2.1
        (decode chip48 completeDoc false { factoryConfig with doorCount := 20 } "").2.1 := by
  have haccepted : (decode chip48 completeDoc true factoryConfig "").1 = true := by decide +kernel
  exact ⟨haccepted, (committed_boots chip48 (fun _ => none) factoryConfig true "" ⟨true, none, none⟩).1 completeDoc
    factoryConfig { factoryConfig with doorCount := 20 } "" "" haccepted⟩

end OrangeBox.Config

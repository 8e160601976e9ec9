import OrangeBox.Json
import OrangeBox.Lib.Separated
import OrangeBox.Text
/-!
# Provisioning payloads

`ProvisioningPayload::parse` and `tokenInput`. The document comes from
ArduinoJson, which is the parameter `deserialize`. What is accepted is `Valid`
(`parse_accepts`).
-/

namespace OrangeBox.Provisioning

/-- `ProvisioningPayload`. -/
structure ProvisioningPayload where
  id : List UInt8
  name : List UInt8
  ssid : List UInt8
  password : List UInt8
  host : List UInt8
  nonce : List UInt8
  port : UInt16
  deriving DecidableEq

def ProvisioningPayload.tokenInput (payload : ProvisioningPayload) : List UInt8 :=
  payload.nonce ++ 124 :: (payload.id ++ 124 :: payload.name)

/-- `read`: what it puts into the target, `none` if it is false. -/
def read (doc : Json) (key : String) (max : Nat) (empty : Bool) : Option (List UInt8) :=
  match doc.member key with
  | some (.text chars) =>
    let value := chars.takeWhile (· ≠ 0)
    if (empty = false ∧ chars = []) ∨ max < chars.length ∨ value.length ≠ chars.length then none else some value
  | _ => none

/-- A letter, a digit or a dash. -/
def isHostChar (c : UInt8) : Bool := 97 ≤ c && c ≤ 122 || 65 ≤ c && c ≤ 90 || 48 ≤ c && c ≤ 57 || c == 45

/-- The loop over the host, from a character on with `previous` before it; the
label length in the end, `none` if the loop returns false. -/
def hostLoop : List UInt8 → UInt8 → Nat → Option Nat
  | [], _, labelLength => some labelLength
  | c :: host, previous, labelLength =>
    if c = 46 then
      if labelLength = 0 ∨ previous = 45 then none else hostLoop host c 0
    else if isHostChar c = false then none
    else if (labelLength = 0 ∧ c = 45) ∨ 63 < labelLength + 1 then none
    else hostLoop host c (labelLength + 1)

/-- The checks of the host. -/
def hostValid (host : List UInt8) : Bool :=
  match hostLoop host 0 0 with
  | none => false
  | some labelLength => !(labelLength == 0 || host.getLastD 0 == 45)

/-- The payload that `parse` makes of a document. -/
def decode (doc : Json) : Option ProvisioningPayload := do
  let id ← read doc "ID" 128 false
  let name ← read doc "NAME" 63 false
  let ssid ← read doc "W_SSID" 32 false
  let password ← read doc "W_PASS" 63 true
  let host ← read doc "SRV" 253 false
  let nonce ← read doc "NONCE" 128 false
  let port ← (doc.member "PORT").bind Json.asUnsigned
  guard ¬(port = 0 ∨ 65535 < port)
  guard (hostValid host = true)
  guard ¬(124 ∈ id ∨ 124 ∈ name ∨ 124 ∈ nonce)
  return { id, name, ssid, password, host, nonce, port := port.toUInt16 }

/-- `parse`, with the output after it. The data may be null. -/
def parse (deserialize : List UInt8 → Option Json) (data : Option (List UInt8)) (out : ProvisioningPayload) :
    Bool × ProvisioningPayload :=
  match data with
  | none => (false, out)
  | some data =>
    if data = [] ∨ 1024 < data.length then (false, out)
    else
      match deserialize data with
      | some (.object members) =>
        match decode (.object members) with
        | some next => (true, next)
        | none => (false, out)
      | _ => (false, out)

/-! ## What is accepted -/

/-- A text member without a NUL and of a limited length. -/
structure IsText (doc : Json) (key : String) (max : Nat) (value : List UInt8) : Prop where
  member : doc.member key = some (.text value)
  noNul : 0 ∉ value
  length_le : value.length ≤ max

/-- 1 to 63 letters, digits and dashes, with no dash at either end. -/
structure IsLabel (label : List UInt8) : Prop where
  nonempty : label ≠ []
  length_le : label.length ≤ 63
  chars : ∀ c ∈ label, isHostChar c = true
  head : label.head? ≠ some 45
  last : label.getLast? ≠ some 45

/-- The payload of a document that keeps the rules. -/
structure Valid (doc : Json) (payload : ProvisioningPayload) : Prop where
  id : IsText doc "ID" 128 payload.id ∧ payload.id ≠ []
  name : IsText doc "NAME" 63 payload.name ∧ payload.name ≠ []
  ssid : IsText doc "W_SSID" 32 payload.ssid ∧ payload.ssid ≠ []
  password : IsText doc "W_PASS" 63 payload.password
  host : IsText doc "SRV" 253 payload.host ∧ payload.host ≠ []
  nonce : IsText doc "NONCE" 128 payload.nonce ∧ payload.nonce ≠ []
  port : doc.member "PORT" = some (.integer payload.port.toNat) ∧ payload.port ≠ 0
  separators : 124 ∉ payload.id ∧ 124 ∉ payload.name ∧ 124 ∉ payload.nonce
  labels : Separated 46 IsLabel payload.host

variable {doc : Json} {key : String} {max : Nat} {empty : Bool} {value host label rest : List UInt8} {c previous : UInt8}

/-! ## The host -/

/-- A label as far as it is read. -/
structure Begun (label : List UInt8) : Prop where
  length_le : label.length ≤ 63
  chars : ∀ c ∈ label, isHostChar c = true
  head : label.head? ≠ some 45

theorem begun_nil : Begun [] := ⟨Nat.zero_le _, fun _ h => absurd h List.not_mem_nil, by simp⟩

theorem isLabel_iff : IsLabel label ↔ Begun label ∧ label ≠ [] ∧ label.getLast? ≠ some 45 := by
  constructor
  · intro h
    exact ⟨⟨h.length_le, h.chars, h.head⟩, h.nonempty, h.last⟩
  · rintro ⟨h, hne, hlast⟩
    exact ⟨hne, h.length_le, h.chars, h.head, hlast⟩

theorem Begun.noDot (h : Begun label) : 46 ∉ label := fun hdot => absurd (h.chars 46 hdot) (by decide)

theorem begun_concat (h : Begun label) :
    Begun (label ++ [c]) ↔ isHostChar c = true ∧ ¬((label.length = 0 ∧ c = 45) ∨ 63 < label.length + 1) := by
  have hlen : (label ++ [c]).length = label.length + 1 := by rw [List.length_append, List.length_singleton]
  have hhead : (label ++ [c]).head? ≠ some 45 ↔ ¬(label.length = 0 ∧ c = 45) := by
    cases label with
    | nil => simp
    | cons d label =>
      have hd := h.head
      simpa using hd
  rw [not_or, Nat.not_lt, ← hhead, ← hlen]
  constructor
  · intro hall
    exact ⟨hall.chars c (List.mem_append_right _ List.mem_cons_self), hall.head, hall.length_le⟩
  · rintro ⟨hc, hhead, hle⟩
    refine ⟨hle, ?_, hhead⟩
    intro d hd
    rcases List.mem_append.1 hd with hd | hd
    · exact h.chars d hd
    · rwa [List.mem_singleton.1 hd]

theorem begun_of_append (h : IsLabel (label ++ rest)) : Begun label := by
  refine ⟨?_, fun c hc => h.chars c (List.mem_append_left _ hc), ?_⟩
  · have hlen := h.length_le
    rw [List.length_append] at hlen
    omega
  · cases label with
    | nil => simp
    | cons c label => exact h.head

/-- The loop goes on while what it has read of a label begins one. -/
theorem hostLoop_iff (label rest : List UInt8) (previous : UInt8) (h : Begun label) (hprevious : label ≠ [] → label.getLast? = some previous) :
    (∃ n, hostLoop rest previous label.length = some n ∧ n ≠ 0 ∧ (label ++ rest).getLast? ≠ some 45) ↔
      Separated 46 IsLabel (label ++ rest) := by
  induction rest generalizing label previous with
  | nil =>
    rw [List.append_nil, Separated.single_iff h.noDot, isLabel_iff, hostLoop]
    constructor
    · rintro ⟨n, hn, hpos, hlast⟩
      obtain rfl := Option.some.inj hn
      exact ⟨h, List.length_pos_iff.1 (Nat.pos_of_ne_zero hpos), hlast⟩
    · rintro ⟨_, hne, hlast⟩
      exact ⟨_, rfl, (List.length_pos_iff.2 hne).ne', hlast⟩
  | cons c rest ih =>
    rw [hostLoop]
    by_cases hdot : c = 46
    · -- The label ends here, and the next one begins empty.
      subst hdot
      rw [if_pos rfl, Separated.cut_iff (fun l hl => (isLabel_iff.1 hl).1.noDot) h.noDot, isLabel_iff]
      by_cases hbad : label.length = 0 ∨ previous = 45
      · rw [if_pos hbad]
        constructor
        · rintro ⟨n, hn, _⟩
          cases hn
        · rintro ⟨⟨_, hne, hlast⟩, _⟩
          rcases hbad with hzero | rfl
          · exact absurd (List.length_eq_zero_iff.1 hzero) hne
          · exact absurd (hprevious hne) hlast
      · rw [if_neg hbad]
        obtain ⟨hne, hprev⟩ := not_or.1 hbad
        have hne : label ≠ [] := fun hnil => hne (List.length_eq_zero_iff.2 hnil)
        have hlast : label.getLast? ≠ some 45 := by
          rw [hprevious hne]
          exact fun heq => hprev (Option.some.inj heq)
        have hwhole : (label ++ 46 :: rest).getLast? ≠ some 45 ↔ ([] ++ rest).getLast? ≠ some 45 := by
          cases hrest : rest.getLast? <;> simp [List.getLast?_append, List.getLast?_cons, hrest]
        have hnext : Separated 46 IsLabel rest ↔ _ := (ih [] 46 begun_nil fun h => absurd rfl h).symm
        rw [hwhole, and_iff_right ⟨h, hne, hlast⟩, hnext]
        rfl
    · -- The label goes on, or no label begins like this.
      rw [if_neg hdot]
      by_cases hnext : Begun (label ++ [c])
      · obtain ⟨hc, hbad⟩ := (begun_concat h).1 hnext
        rw [if_neg (by simp [hc]), if_neg hbad, List.append_cons label c rest,
          ← ih _ c hnext (fun _ => List.getLast?_concat), List.length_append, List.length_singleton]
      · constructor
        · rintro ⟨n, hn, _⟩
          split_ifs at hn with hc hbad
          have hc : isHostChar c = true := by simpa using hc
          exact absurd ((begun_concat h).2 ⟨hc, hbad⟩) hnext
        · intro hsep
          rw [List.append_cons] at hsep
          have hno : 46 ∉ label ++ [c] := by
            rw [List.mem_append, List.mem_singleton, not_or]
            exact ⟨h.noDot, fun h => hdot h.symm⟩
          obtain ⟨tail, htail⟩ := hsep.begins hno
          exact absurd (begun_of_append htail) hnext

theorem hostValid_iff : hostValid host = true ↔ Separated 46 IsLabel host := by
  have hloop : (∃ n, hostLoop host 0 0 = some n ∧ n ≠ 0 ∧ host.getLast? ≠ some 45) ↔ Separated 46 IsLabel host :=
    hostLoop_iff [] host 0 begun_nil fun h => absurd rfl h
  rw [← hloop]
  unfold hostValid
  cases hhost : hostLoop host 0 0 with
  | none => simp
  | some n =>
    have hlast : host.getLast?.getD 0 = 45 ↔ host.getLast? = some 45 := by
      cases host.getLast? <;> simp
    simp [hlast]

/-! ## The payload -/

theorem read_iff : read doc key max empty = some value ↔ IsText doc key max value ∧ (empty = false → value ≠ []) := by
  unfold read
  split
  · rename_i chars hmember
    rw [Option.ite_none_left_eq_some, not_or, not_or, Option.some_inj]
    constructor
    · rintro ⟨⟨hempty, hmax, hlen⟩, rfl⟩
      have hwhole : chars.takeWhile (· ≠ 0) = chars := (List.takeWhile_prefix _).eq_of_length (not_not.1 hlen)
      rw [hwhole]
      refine ⟨⟨hmember, ?_, Nat.not_lt.1 hmax⟩, fun h hnil => hempty ⟨h, hnil⟩⟩
      rw [← hwhole]
      exact noNul_takeWhile chars
    · rintro ⟨h, hne⟩
      obtain rfl : chars = value := by
        have heq := hmember.symm.trans h.member
        exact Json.text.inj (Option.some.inj heq)
      rw [takeWhile_of_noNul h.noNul]
      exact ⟨⟨fun ⟨he, hnil⟩ => hne he hnil, Nat.not_lt.2 h.length_le, not_not.2 rfl⟩, rfl⟩
  · rename_i hnone
    constructor
    · exact fun h => by cases h
    · rintro ⟨h, _⟩
      exact absurd h.member (hnone value)

theorem port_iff {n : Nat} : (∃ value, doc.member "PORT" = some value ∧ value.asUnsigned = some n) ∧ ¬(n = 0 ∨ 65535 < n) ↔
    doc.member "PORT" = some (.integer n) ∧ n ≠ 0 ∧ n < 65536 := by
  constructor
  · rintro ⟨⟨value, hmember, hvalue⟩, hrange⟩
    obtain ⟨rfl, _⟩ := Json.asUnsigned_iff.1 hvalue
    exact ⟨hmember, by omega, by omega⟩
  · rintro ⟨hmember, hpos, hlt⟩
    exact ⟨⟨_, hmember, Json.asUnsigned_iff.2 ⟨rfl, by omega⟩⟩, by omega⟩

/-- A document is decoded when it keeps the rules. -/
theorem decode_iff {payload : ProvisioningPayload} : decode doc = some payload ↔ Valid doc payload := by
  unfold decode
  simp only [Option.bind_eq_bind, Option.pure_def, Option.bind_eq_some_iff, Option.some_inj, Option.guard_eq_some']
  constructor
  · rintro ⟨id, hid, name, hname, ssid, hssid, password, hpassword, host, hhost, nonce, hnonce, port, hport, _, hrange, _, hvalid, _,
      hbars, rfl⟩
    have hrequired : ∀ {key max value}, read doc key max false = some value → IsText doc key max value ∧ value ≠ [] := by
      intro key max value hread
      obtain ⟨htext, hne⟩ := read_iff.1 hread
      exact ⟨htext, hne rfl⟩
    obtain ⟨hmember, hpos, hlt⟩ := port_iff.1 ⟨hport, hrange⟩
    have hwidth : port.toUInt16.toNat = port := UInt16.toNat_ofNat_of_lt' hlt
    rw [not_or, not_or] at hbars
    refine ⟨hrequired hid, hrequired hname, hrequired hssid, (read_iff.1 hpassword).1, hrequired hhost, hrequired hnonce, ?_, hbars,
      hostValid_iff.1 hvalid⟩
    dsimp only
    rw [hwidth]
    refine ⟨hmember, fun hzero => hpos ?_⟩
    rw [← hwidth, hzero]
    rfl
  · intro h
    have hread : ∀ {key max value}, IsText doc key max value ∧ value ≠ [] → read doc key max false = some value :=
      fun h => read_iff.2 ⟨h.1, fun _ => h.2⟩
    have hpos : payload.port.toNat ≠ 0 := fun hzero => h.port.2 (UInt16.toNat_inj.1 hzero)
    obtain ⟨hport, hrange⟩ := port_iff.2 ⟨h.port.1, hpos, payload.port.toNat_lt⟩
    refine ⟨_, hread h.id, _, hread h.name, _, hread h.ssid, _, read_iff.2 ⟨h.password, fun he => by cases he⟩, _, hread h.host, _,
      hread h.nonce, _, hport, (), hrange, (), hostValid_iff.2 h.labels, (), ?_, ?_⟩
    · rw [not_or, not_or]
      exact h.separators
    · rw [show payload.port.toNat.toUInt16 = payload.port from UInt16.ofNat_toNat]

/-- The parts of a token input can be told apart. -/
theorem tokenInput_inj {p q : ProvisioningPayload} {doc' : Json} (hp : Valid doc p) (hq : Valid doc' q) (h : p.tokenInput = q.tokenInput) :
    p.nonce = q.nonce ∧ p.id = q.id ∧ p.name = q.name := by
  unfold ProvisioningPayload.tokenInput at h
  obtain ⟨hnonce, hrest⟩ := Separated.cut_inj hp.separators.2.2 hq.separators.2.2 h
  obtain ⟨hid, hname⟩ := Separated.cut_inj hp.separators.1 hq.separators.1 hrest
  exact ⟨hnonce, hid, hname⟩

section
variable {deserialize : List UInt8 → Option Json} {data : List UInt8} {members : List (String × Json)} {out next : ProvisioningPayload}

theorem parse_object (hempty : deserialize [] = none) (hdata : deserialize data = some (.object members)) (hlen : data.length ≤ 1024) :
    parse deserialize (some data) out = match decode (.object members) with
      | some next => (true, next)
      | none => (false, out) := by
  have hne : data ≠ [] := by
    rintro rfl
    rw [hempty] at hdata
    cases hdata
  unfold parse
  dsimp only
  rw [if_neg (not_or.2 ⟨hne, Nat.not_lt.2 hlen⟩), hdata]

/-- A call either leaves the output or replaces it by a decoded payload. -/
theorem parse_cases (bytes : Option (List UInt8)) :
    parse deserialize bytes out = (false, out) ∨
      ∃ doc next, decode doc = some next ∧ parse deserialize bytes out = (true, next) := by
  cases bytes with
  | none => exact Or.inl rfl
  | some data =>
    unfold parse
    dsimp only
    by_cases hsize : data = [] ∨ 1024 < data.length
    · rw [if_pos hsize]
      exact Or.inl rfl
    rw [if_neg hsize]
    split
    · cases hdecode : decode (.object _) with
      | none => exact Or.inl rfl
      | some next => exact Or.inr ⟨_, next, hdecode, rfl⟩
    · exact Or.inl rfl

theorem valid_of_parse {bytes : Option (List UInt8)} (h : parse deserialize bytes out = (true, next)) : ∃ doc, Valid doc next := by
  rcases parse_cases bytes with hkept | ⟨doc, payload, hdecode, hreplaced⟩
  · rw [hkept] at h
    cases h
  · rw [hreplaced] at h
    obtain rfl := (Prod.mk.inj h).2
    exact ⟨doc, decode_iff.1 hdecode⟩

end

/-- An object of at most 1024 bytes is accepted when it keeps the rules, and
gives their payload. A rejected one leaves the output as it was. The token input
of an accepted payload tells its nonce, its identity and its name. -/
theorem parse_accepts (deserialize : List UInt8 → Option Json) (hempty : deserialize [] = none) :
    (∀ data members out, deserialize data = some (.object members) → data.length ≤ 1024 →
      ((parse deserialize (some data) out).1 = true ↔ ∃ payload, Valid (.object members) payload) ∧
      ∀ next, parse deserialize (some data) out = (true, next) ↔ Valid (.object members) next) ∧
    (∀ data out, (parse deserialize data out).1 = false → (parse deserialize data out).2 = out) ∧
    ∀ data data' out out' p q, parse deserialize data out = (true, p) → parse deserialize data' out' = (true, q) →
      p.tokenInput = q.tokenInput → p.nonce = q.nonce ∧ p.id = q.id ∧ p.name = q.name := by
  refine ⟨?_, ?_, ?_⟩
  · intro data members out hdata hlen
    rw [parse_object hempty hdata hlen]
    cases hdecode : decode (.object members) with
    | none =>
      have hnone : ∀ payload, ¬Valid (.object members) payload := fun payload hvalid => by
        rw [decode_iff.2 hvalid] at hdecode
        cases hdecode
      simp [hnone]
    | some payload =>
      have hvalid := decode_iff.1 hdecode
      refine ⟨⟨fun _ => ⟨payload, hvalid⟩, fun _ => rfl⟩, fun next => ?_⟩
      rw [← decode_iff, hdecode, Prod.mk.injEq, Option.some_inj, and_iff_right rfl]
  · intro data out h
    rcases parse_cases data with hkept | ⟨_, _, _, hreplaced⟩
    · rw [hkept]
    · rw [hreplaced] at h
      cases h
  · intro data data' out out' p q hp hq h
    obtain ⟨_, hp⟩ := valid_of_parse hp
    obtain ⟨_, hq⟩ := valid_of_parse hq
    exact tokenInput_inj hp hq h

def bootstrapText : List UInt8 :=
  literal "\x7b\"ID\":\"zazpivat\",\"NAME\":\"Box-089\",\"W_SSID\":\"MojeWifi\",\"W_PASS\":\"tajneHeslo7\",\"SRV\":\"prov.inforoom.cz\",\"PORT\":8085,\"NONCE\":\"0974\"\x7d"

def bootstrapMembers : List (String × Json) :=
  [("ID", .text (literal "zazpivat")), ("NAME", .text (literal "Box-089")), ("W_SSID", .text (literal "MojeWifi")),
    ("W_PASS", .text (literal "tajneHeslo7")), ("SRV", .text (literal "prov.inforoom.cz")), ("PORT", .integer 8085),
    ("NONCE", .text (literal "0974"))]

def bootstrap : ProvisioningPayload :=
  { id := literal "zazpivat", name := literal "Box-089", ssid := literal "MojeWifi", password := literal "tajneHeslo7",
    host := literal "prov.inforoom.cz", nonce := literal "0974", port := 8085 }

def readBootstrap (data : List UInt8) : Option Json := if data = bootstrapText then some (.object bootstrapMembers) else none

theorem parse_accepts_bootstrap : parse readBootstrap (some bootstrapText) { bootstrap with port := 1 } = (true, bootstrap) := by
  have hvalid : Valid (.object bootstrapMembers) bootstrap := decode_iff.1 (by decide +kernel)
  have hne : [] ≠ bootstrapText := by decide +kernel
  have hempty : readBootstrap [] = none := if_neg hne
  have hread : readBootstrap bootstrapText = some (.object bootstrapMembers) := by
    unfold readBootstrap
    exact if_pos (Eq.refl bootstrapText)
  have hlen : bootstrapText.length ≤ 1024 := by decide +kernel
  obtain ⟨haccepts, _⟩ := parse_accepts readBootstrap hempty
  exact ((haccepts _ _ { bootstrap with port := 1 } hread hlen).2 bootstrap).2 hvalid

end OrangeBox.Provisioning

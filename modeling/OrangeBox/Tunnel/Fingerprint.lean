import OrangeBox.Lib.Base64
import OrangeBox.Lib.Hexadecimal
/-!
# The fingerprint of a host

The comparison of `SSHSession::verifyHostKey`. A fingerprint may be configured
in hexadecimal digits, in base64 or as OpenSSH shows it. `Spells` says which
texts are meant to name a hash.
-/

namespace OrangeBox.Tunnel

/-! ## Texts -/

/-- `isspace`. -/
def isSpace (c : UInt8) : Bool := c = 32 || (9 ≤ c && c ≤ 13)

/-- `tolower`. -/
def toLower (c : UInt8) : UInt8 := if 65 ≤ c ∧ c ≤ 90 then c + 32 else c

/-- `isxdigit`. -/
def isXDigit (c : UInt8) : Bool := (48 ≤ c && c ≤ 57) || (65 ≤ c && c ≤ 70) || (97 ≤ c && c ≤ 102)

/-- `trim`. -/
def trim (text : List UInt8) : List UInt8 := (text.dropWhile isSpace).rdropWhile isSpace

/-- `replace` of a character by nothing. -/
def without (c : UInt8) (text : List UInt8) : List UInt8 := text.filter (· ≠ c)

/-- `"sha256:"`. -/
def sha256Label : List UInt8 := [115, 104, 97, 50, 53, 54, 58]

/-- `"SHA256:"`. -/
def upperSha256Label : List UInt8 := [83, 72, 65, 50, 53, 54, 58]

/-! ## The two forms of a hash -/

def encodeFingerprintHex (data : List UInt8) : List UInt8 := data.flatMap Hexadecimal.digits

/-- The loop of `encodeFingerprintBase64`. -/
def paddedBase64 : List UInt8 → List UInt8
  | [] => []
  | [a] => [Base64.place (a.toNat * 65536) 0, Base64.place (a.toNat * 65536) 1, 61, 61]
  | [a, b] =>
    let triple := a.toNat * 65536 + b.toNat * 256
    [Base64.place triple 0, Base64.place triple 1, Base64.place triple 2, 61]
  | a :: b :: c :: rest =>
    let triple := a.toNat * 65536 + b.toNat * 256 + c.toNat
    [Base64.place triple 0, Base64.place triple 1, Base64.place triple 2, Base64.place triple 3] ++ paddedBase64 rest

def encodeFingerprintBase64 (data : List UInt8) : List UInt8 := (paddedBase64 data).rdropWhile (· = 61)

def isValidHexFingerprint (value : List UInt8) : Bool := value.length = 64 && value.all isXDigit

/-! ## The comparison -/

/-- The base64 text that is compared. -/
def cleanBase64 (text : List UInt8) : List UInt8 :=
  let text := trim text
  let text :=
    if upperSha256Label.isPrefixOf text then text.drop 7 else if sha256Label.isPrefixOf text then text.drop 7 else text
  without 61 (without 10 (without 13 (without 32 text)))

/-- The hexadecimal text that is compared. -/
def cleanHex (text : List UInt8) : List UInt8 := without 58 (without 32 (text.map toLower))

def expectedRaw (expectedHostKeyFingerprint : List UInt8) : List UInt8 :=
  without 10 (without 13 (trim expectedHostKeyFingerprint))

/-- What is compared, and whether it is base64. -/
def expectedComparable (expectedRaw : List UInt8) : Bool × List UInt8 :=
  if sha256Label.isPrefixOf (expectedRaw.map toLower) then (true, cleanBase64 (expectedRaw.drop (expectedRaw.idxOf 58 + 1)))
  else
    let candidateLower := (without 58 (without 32 expectedRaw)).map toLower
    if isValidHexFingerprint candidateLower then (false, cleanHex candidateLower) else (true, cleanBase64 expectedRaw)

def fingerprintsMatch (expectedHostKeyFingerprint hash : List UInt8) : Bool :=
  match expectedComparable (expectedRaw expectedHostKeyFingerprint) with
  | (true, comparable) => comparable = encodeFingerprintBase64 hash
  | (false, comparable) => comparable = encodeFingerprintHex hash

/-! ## Spellings -/

/-- What a fingerprint in hexadecimal may have between its digits. -/
def isHexGap (c : UInt8) : Bool := c = 32 || c = 58 || c = 13 || c = 10

/-- What one in base64 may have, its padding included. -/
def isBase64Gap (c : UInt8) : Bool := c = 32 || c = 13 || c = 10 || c = 61

/-- The ways to name a hash. -/
inductive Names (hash : List UInt8) : List UInt8 → Prop
  | hex {name : List UInt8} (h : (name.filter (!isHexGap ·)).map toLower = encodeFingerprintHex hash) : Names hash name
  | base64 {name : List UInt8} (h : name.filter (!isBase64Gap ·) = Base64.encode hash) : Names hash name
  | openSSH {label name : List UInt8} (hlabel : label.map toLower = sha256Label)
      (h : name.filter (!isBase64Gap ·) = Base64.encode hash) : Names hash (label ++ name)

/-- The text is a name of the hash, with white space around it. -/
def Spells (hash text : List UInt8) : Prop :=
  ∃ lead name trail, Names hash name ∧ (∀ c ∈ lead, isSpace c) ∧ (∀ c ∈ trail, isSpace c) ∧ text = lead ++ name ++ trail

/-! ## The encodings -/

theorem not_pad_of_mem {data : List UInt8} {c : UInt8} (h : c ∈ Base64.encode data) : c ≠ 61 := by
  rintro rfl
  have hvalue := Base64.isSome_value_of_mem_encode h
  cases hvalue

theorem paddedBase64_eq (data : List UInt8) : ∃ k, paddedBase64 data = Base64.encode data ++ List.replicate k 61 := by
  fun_induction paddedBase64 data with
  | case1 => exact ⟨0, rfl⟩
  | case2 a => exact ⟨2, rfl⟩
  | case3 a b => exact ⟨1, rfl⟩
  | case4 a b c rest triple ih =>
    obtain ⟨k, hk⟩ := ih
    exact ⟨k, by rw [hk, Base64.encode, List.append_assoc]⟩

theorem rdropWhile_pad {text : List UInt8} (h : ∀ c ∈ text, c ≠ 61) (k : Nat) :
    (text ++ List.replicate k 61).rdropWhile (· = 61) = text := by
  induction k with
  | zero =>
    rw [List.replicate_zero, List.append_nil, List.rdropWhile_eq_self_iff]
    intro hne
    simpa using h _ (List.getLast_mem hne)
  | succ k ih => rw [List.replicate_succ', ← List.append_assoc, List.rdropWhile_concat_pos _ _ _ (by simp), ih]

/-- The form of OpenSSH, without padding. -/
theorem encodeFingerprintBase64_eq (data : List UInt8) : encodeFingerprintBase64 data = Base64.encode data := by
  obtain ⟨k, hk⟩ := paddedBase64_eq data
  rw [encodeFingerprintBase64, hk]
  exact rdropWhile_pad (fun c hc => not_pad_of_mem hc) k

theorem not_colon_of_mem {data : List UInt8} {c : UInt8} (h : c ∈ Base64.encode data) : c ≠ 58 := by
  rintro rfl
  have hvalue := Base64.isSome_value_of_mem_encode h
  cases hvalue

theorem not_isSpace_of_mem {data : List UInt8} {c : UInt8} (h : c ∈ Base64.encode data) : isSpace c = false := by
  have hnone : ∀ c : UInt8, isSpace c → Base64.value c = none := by decide +kernel
  cases hspace : isSpace c with
  | false => rfl
  | true =>
    have hvalue := Base64.isSome_value_of_mem_encode h
    rw [hnone c hspace] at hvalue
    cases hvalue

theorem isXDigit_of_mem {data : List UInt8} {c : UInt8} (h : c ∈ encodeFingerprintHex data) :
    isXDigit c ∧ toLower c = c ∧ isSpace c = false := by
  have hdigit : ∀ v < 16, isXDigit (Hexadecimal.digit v) ∧ toLower (Hexadecimal.digit v) = Hexadecimal.digit v ∧
      isSpace (Hexadecimal.digit v) = false := by decide
  obtain ⟨v, hv, rfl⟩ := Hexadecimal.exists_digit_of_mem h
  exact hdigit v hv

/-- A text accepts one hash at most. -/
theorem fingerprintsMatch_inj {text hash hash' : List UInt8} (h : fingerprintsMatch text hash)
    (h' : fingerprintsMatch text hash') : hash = hash' := by
  unfold fingerprintsMatch at h h'
  split at h
  · rename_i comparable heq
    rw [heq] at h'
    simp only [decide_eq_true_eq, encodeFingerprintBase64_eq] at h h'
    exact Base64.encode_inj (h.symm.trans h')
  · rename_i comparable heq
    rw [heq] at h'
    simp only [decide_eq_true_eq] at h h'
    exact Hexadecimal.flatMap_digits_inj (h.symm.trans h')

/-! ## What the comparison leaves -/

theorem filter_dropWhile {p q : UInt8 → Bool} {text : List UInt8} (h : ∀ c ∈ text, p c → q c = false) :
    (text.dropWhile p).filter q = text.filter q := by
  induction text with
  | nil => rfl
  | cons c text ih =>
    rw [List.dropWhile_cons]
    split
    · rename_i hp
      rw [ih fun d hd => h d (List.mem_cons_of_mem _ hd), List.filter_cons_of_neg (by simp [h c List.mem_cons_self hp])]
    · rfl

theorem filter_rdropWhile {p q : UInt8 → Bool} {text : List UInt8} (h : ∀ c ∈ text, p c → q c = false) :
    (text.rdropWhile p).filter q = text.filter q := by
  rw [List.rdropWhile, List.filter_reverse, filter_dropWhile fun c hc => h c (List.mem_reverse.1 hc), List.filter_reverse,
    List.reverse_reverse]

theorem filter_trim {q : UInt8 → Bool} {text : List UInt8} (h : ∀ c ∈ text, isSpace c → q c = false) :
    (trim text).filter q = text.filter q := by
  rw [trim, filter_rdropWhile fun c hc => h c ((List.dropWhile_sublist isSpace).subset hc), filter_dropWhile h]

theorem mem_of_mem_trim {text : List UInt8} {c : UInt8} (h : c ∈ trim text) : c ∈ text :=
  (List.dropWhile_sublist isSpace).subset ((List.rdropWhile_prefix isSpace _).subset h)

theorem dropWhile_append_of_mem {p : UInt8 → Bool} {a b : List UInt8} {c : UInt8} (hc : c ∈ a) (hp : p c = false) :
    (a ++ b).dropWhile p = a.dropWhile p ++ b := by
  rw [List.dropWhile_append, if_neg]
  intro hall
  rw [List.isEmpty_iff, List.dropWhile_eq_nil_iff] at hall
  simp [hall c hc] at hp

theorem rdropWhile_append_of_mem {p : UInt8 → Bool} {a b : List UInt8} {c : UInt8} (hc : c ∈ b) (hp : p c = false) :
    (a ++ b).rdropWhile p = a ++ b.rdropWhile p := by
  rw [List.rdropWhile, List.reverse_append, dropWhile_append_of_mem (List.mem_reverse.2 hc) hp, List.reverse_append,
    List.reverse_reverse, List.rdropWhile]

/-- The white space around a name is no part of it. -/
theorem trim_append {lead name trail : List UInt8} {c : UInt8} (hc : c ∈ name) (hp : isSpace c = false)
    (hlead : ∀ c ∈ lead, isSpace c) (htrail : ∀ c ∈ trail, isSpace c) : trim (lead ++ name ++ trail) = trim name := by
  have hright : (name.dropWhile isSpace ++ trail).rdropWhile isSpace = (name.dropWhile isSpace).rdropWhile isSpace := by
    rw [List.rdropWhile, List.reverse_append, List.dropWhile_append_of_pos (by simpa using htrail), List.rdropWhile]
  rw [trim, List.append_assoc, List.dropWhile_append_of_pos hlead, dropWhile_append_of_mem hc hp, hright, trim]

/-- Every name has a character that is no white space. -/
theorem exists_mem_of_filter {q : UInt8 → Bool} {text : List UInt8} {n : Nat} (h : (text.filter q).length = n + 1) :
    ∃ c ∈ text, q c := by
  obtain ⟨c, hc⟩ := List.exists_mem_of_length_pos (l := text.filter q) (by omega)
  exact ⟨c, List.mem_filter.1 hc⟩

theorem expectedRaw_eq (text : List UInt8) : expectedRaw text = (trim text).filter fun c => c ≠ 10 && c ≠ 13 := by
  rw [expectedRaw, without, without, List.filter_filter]

theorem mem_of_mem_expectedRaw {text : List UInt8} {c : UInt8} (h : c ∈ expectedRaw text) : c ∈ text := by
  rw [expectedRaw_eq] at h
  exact mem_of_mem_trim (List.mem_filter.1 h).1

/-- A filter that leaves no white space reads the same before and after. -/
theorem filter_expectedRaw {q : UInt8 → Bool} {text : List UInt8} (h : ∀ c ∈ text, isSpace c → q c = false) :
    (expectedRaw text).filter q = text.filter q := by
  have hskip : ∀ c ∈ trim text, (q c && (c ≠ 10 && c ≠ 13)) = q c := by
    intro c hc
    by_cases h10 : c = 10
    · rw [h c (mem_of_mem_trim hc) (by rw [h10]; rfl)]; rfl
    · by_cases h13 : c = 13
      · rw [h c (mem_of_mem_trim hc) (by rw [h13]; rfl)]; rfl
      · simp [h10, h13]
  rw [expectedRaw_eq, List.filter_filter, List.filter_congr hskip, filter_trim h]

theorem cleanBase64_eq {text : List UInt8} (hcolon : 58 ∉ text) (hgap : ∀ c ∈ text, isSpace c → isBase64Gap c) :
    cleanBase64 text = text.filter (!isBase64Gap ·) := by
  have hlabel : ∀ label : List UInt8, 58 ∈ label → label.isPrefixOf (trim text) = false := by
    intro label hmem
    by_contra hne
    have hpre := List.isPrefixOf_iff_prefix.1 (Bool.not_eq_false _ ▸ hne)
    exact hcolon (mem_of_mem_trim (hpre.subset hmem))
  have hgaps : ∀ c : UInt8, (c ≠ 61 && (c ≠ 10 && (c ≠ 13 && c ≠ 32))) = !isBase64Gap c := by
    intro c
    by_cases h61 : c = 61 <;> by_cases h10 : c = 10 <;> by_cases h13 : c = 13 <;> by_cases h32 : c = 32 <;>
      simp [isBase64Gap, h61, h10, h13, h32]
  unfold cleanBase64
  dsimp only
  rw [hlabel _ (by decide), hlabel _ (by decide)]
  simp only [Bool.false_eq_true, if_false, without, List.filter_filter, hgaps]
  exact filter_trim fun c hc hspace => by rw [hgap c hc hspace]; rfl

/-! ## Every spelling is understood -/

theorem not_label_of_not_mem {c : UInt8} {text : List UInt8} (hc : c ∈ sha256Label)
    (h : ∀ d ∈ text, toLower d ≠ c) : sha256Label.isPrefixOf (text.map toLower) = false := by
  by_contra hne
  have hpre := List.isPrefixOf_iff_prefix.1 (Bool.not_eq_false _ ▸ hne)
  obtain ⟨d, hd, hdc⟩ := List.mem_map.1 (hpre.subset hc)
  exact h d hd hdc

variable {hash name : List UInt8}

theorem expectedComparable_hex (hlength : hash.length = 32)
    (h : (name.filter (!isHexGap ·)).map toLower = encodeFingerprintHex hash) :
    expectedComparable (expectedRaw name) = (false, encodeFingerprintHex hash) := by
  have hmem : ∀ c ∈ name, isHexGap c = false → toLower c ∈ encodeFingerprintHex hash := fun c hc hgap =>
    h ▸ List.mem_map_of_mem (List.mem_filter.2 ⟨hc, by rw [hgap]; rfl⟩)
  have hspace : ∀ c ∈ name, isSpace c → (!isHexGap c) = false := by
    have hlower : ∀ c : UInt8, isSpace c → isSpace (toLower c) := by decide +kernel
    intro c hc hs
    cases hgap : isHexGap c with
    | true => rfl
    | false =>
      have hnot := (isXDigit_of_mem (hmem c hc hgap)).2.2
      rw [hlower c hs] at hnot
      cases hnot
  have hlabel : sha256Label.isPrefixOf ((expectedRaw name).map toLower) = false := by
    have hs : ∀ c : UInt8, toLower c = 115 → isHexGap c = false := by decide +kernel
    apply not_label_of_not_mem (c := 115) (by decide)
    intro c hc heq
    have hdigit := isXDigit_of_mem (hmem c (mem_of_mem_expectedRaw hc) (hs c heq))
    rw [heq] at hdigit
    exact absurd hdigit.1 (by decide)
  have hcandidate : (without 58 (without 32 (expectedRaw name))).map toLower = encodeFingerprintHex hash := by
    have hgaps : ∀ c : UInt8, ((c ≠ 58 && c ≠ 32) && (c ≠ 10 && c ≠ 13)) = !isHexGap c := by decide +kernel
    rw [← h, ← filter_trim hspace, expectedRaw_eq, without, without, List.filter_filter, List.filter_filter]
    exact congrArg _ (List.filter_congr fun c _ => hgaps c)
  have hvalid : isValidHexFingerprint (encodeFingerprintHex hash) := by
    rw [isValidHexFingerprint, encodeFingerprintHex, Hexadecimal.length_digits, hlength, Bool.and_eq_true]
    exact ⟨rfl, List.all_eq_true.2 fun c hc => (isXDigit_of_mem hc).1⟩
  have hclean : cleanHex (encodeFingerprintHex hash) = encodeFingerprintHex hash := by
    have hgap : ∀ c : UInt8, isXDigit c → (c ≠ 58 && c ≠ 32) := by decide +kernel
    rw [cleanHex, List.map_congr_left fun c hc => (isXDigit_of_mem hc).2.1, List.map_id', without, without,
      List.filter_filter, List.filter_eq_self]
    exact fun c hc => hgap c (isXDigit_of_mem hc).1
  unfold expectedComparable
  dsimp only
  rw [hlabel, hcandidate, hvalid, hclean]
  rfl

theorem ne_colon_of_base64 (h : name.filter (!isBase64Gap ·) = Base64.encode hash) : 58 ∉ name := by
  intro hmem
  have hkept : (58 : UInt8) ∈ Base64.encode hash := h ▸ List.mem_filter.2 ⟨hmem, by decide⟩
  exact not_colon_of_mem hkept rfl

theorem gap_of_base64 (h : name.filter (!isBase64Gap ·) = Base64.encode hash) :
    ∀ c ∈ name, isSpace c → isBase64Gap c := by
  intro c hc hs
  cases hgap : isBase64Gap c with
  | true => rfl
  | false =>
    have hkept : c ∈ Base64.encode hash := h ▸ List.mem_filter.2 ⟨hc, by rw [hgap]; rfl⟩
    rw [not_isSpace_of_mem hkept] at hs
    cases hs

/-- What is compared of a name in base64. -/
theorem cleanBase64_expectedRaw (h : name.filter (!isBase64Gap ·) = Base64.encode hash) :
    cleanBase64 (expectedRaw name) = Base64.encode hash := by
  have hgap := gap_of_base64 h
  rw [cleanBase64_eq (fun hc => ne_colon_of_base64 h (mem_of_mem_expectedRaw hc))
    fun c hc => hgap c (mem_of_mem_expectedRaw hc), filter_expectedRaw, h]
  exact fun c hc hs => by rw [hgap c hc hs]; rfl

theorem expectedComparable_base64 (hlength : hash.length = 32)
    (h : name.filter (!isBase64Gap ·) = Base64.encode hash) :
    expectedComparable (expectedRaw name) = (true, Base64.encode hash) := by
  have hcolon := ne_colon_of_base64 h
  have hgap := gap_of_base64 h
  have hlabel : sha256Label.isPrefixOf ((expectedRaw name).map toLower) = false := by
    have hlower : ∀ c : UInt8, toLower c = 58 → c = 58 := by decide +kernel
    apply not_label_of_not_mem (c := 58) (by decide)
    intro c hc heq
    exact hcolon (hlower c heq ▸ mem_of_mem_expectedRaw hc)
  have hinvalid : isValidHexFingerprint ((without 58 (without 32 (expectedRaw name))).map toLower) = false := by
    by_contra hne
    have hvalid := Bool.not_eq_false _ ▸ hne
    rw [isValidHexFingerprint, Bool.and_eq_true, List.all_map, List.all_eq_true, decide_eq_true_eq, List.length_map] at hvalid
    -- without padding the digits that are left are those of the hash, and these are not 64
    have hpad : ∀ c : UInt8, isXDigit (toLower c) → c ≠ 61 := by decide +kernel
    have hkept : without 58 (without 32 (expectedRaw name)) = Base64.encode hash := by
      have hgaps : ∀ c : UInt8, c ≠ 10 → c ≠ 13 → c ≠ 58 → ((c ≠ 61 && c ≠ 58) && c ≠ 32) = !isBase64Gap c := by
        decide +kernel
      have hall : without 61 (without 58 (without 32 (expectedRaw name))) = without 58 (without 32 (expectedRaw name)) :=
        List.filter_eq_self.2 fun c hc => decide_eq_true (hpad c (hvalid.2 c hc))
      rw [← hall, ← h, ← filter_expectedRaw fun c hc hs => by rw [hgap c hc hs]; rfl]
      rw [without, without, without, List.filter_filter, List.filter_filter]
      apply List.filter_congr
      intro c hc
      have hraw := (List.mem_filter.1 (expectedRaw_eq name ▸ hc)).2
      simp only [Bool.and_eq_true, decide_eq_true_eq] at hraw
      exact hgaps c hraw.1 hraw.2 fun h58 => hcolon (h58 ▸ mem_of_mem_expectedRaw hc)
    rw [hkept, Base64.length_encode, hlength] at hvalid
    exact absurd hvalid.1 (by decide)
  unfold expectedComparable
  dsimp only
  rw [hlabel, hinvalid, cleanBase64_expectedRaw h]
  rfl

theorem exists_mem_of_base64 (hlength : hash.length = 32) (h : name.filter (!isBase64Gap ·) = Base64.encode hash) :
    ∃ c ∈ name, isSpace c = false := by
  have hlen : (name.filter (!isBase64Gap ·)).length = 42 + 1 := by rw [h, Base64.length_encode, hlength]
  obtain ⟨c, hc, hgap⟩ := exists_mem_of_filter hlen
  have hkept : c ∈ Base64.encode hash := h ▸ List.mem_filter.2 ⟨hc, hgap⟩
  exact ⟨c, hc, not_isSpace_of_mem hkept⟩

/-- The label ends with the first colon of the text. -/
theorem label_shape {label : List UInt8} (h : label.map toLower = sha256Label) :
    label.length = 7 ∧ (∀ c ∈ label, isSpace c = false ∧ (c ≠ 10 && c ≠ 13)) ∧ ∀ rest, (label ++ rest).idxOf 58 = 6 := by
  have hkeep : ∀ c : UInt8, toLower c ∈ sha256Label → isSpace c = false ∧ (c ≠ 10 && c ≠ 13) := by decide +kernel
  have hcolon : ∀ c : UInt8, toLower c = 58 → c = 58 := by decide +kernel
  have hother : ∀ c : UInt8, toLower c ≠ 58 → c ≠ 58 := by decide +kernel
  refine ⟨by rw [← List.length_map, h]; rfl, fun c hc => hkeep c (h ▸ List.mem_map_of_mem hc), fun rest => ?_⟩
  rcases label with - | ⟨l₀, - | ⟨l₁, - | ⟨l₂, - | ⟨l₃, - | ⟨l₄, - | ⟨l₅, - | ⟨l₆, - | ⟨l₇, tail⟩⟩⟩⟩⟩⟩⟩⟩ <;>
    simp only [List.map_cons, List.map_nil, sha256Label, List.cons.injEq, reduceCtorEq, and_false, and_true] at h
  obtain ⟨h₀, h₁, h₂, h₃, h₄, h₅, h₆⟩ := h
  have hne : ∀ c d : UInt8, toLower c = d → d ≠ 58 → c ≠ 58 := fun c d hcd hd => hother c (hcd ▸ hd)
  simp only [List.cons_append, List.nil_append]
  rw [List.idxOf_cons_ne _ (hne l₀ _ h₀ (by decide)), List.idxOf_cons_ne _ (hne l₁ _ h₁ (by decide)),
    List.idxOf_cons_ne _ (hne l₂ _ h₂ (by decide)), List.idxOf_cons_ne _ (hne l₃ _ h₃ (by decide)),
    List.idxOf_cons_ne _ (hne l₄ _ h₄ (by decide)), List.idxOf_cons_ne _ (hne l₅ _ h₅ (by decide)), hcolon l₆ h₆,
    List.idxOf_cons_self]

theorem expectedComparable_openSSH {label : List UInt8} (hlength : hash.length = 32)
    (hlabel : label.map toLower = sha256Label) (h : name.filter (!isBase64Gap ·) = Base64.encode hash) :
    expectedComparable (expectedRaw (label ++ name)) = (true, Base64.encode hash) := by
  obtain ⟨hseven, hkeep, hindex⟩ := label_shape hlabel
  obtain ⟨c, hc, hs⟩ := exists_mem_of_base64 hlength h
  have hgap := gap_of_base64 h
  let rest := (name.rdropWhile isSpace).filter fun c => c ≠ 10 && c ≠ 13
  have hraw : expectedRaw (label ++ name) = label ++ rest := by
    have hleft : (label ++ name).dropWhile isSpace = label ++ name := by
      cases label with
      | nil => cases hseven
      | cons l label => exact List.dropWhile_cons_of_neg (by simp [(hkeep l List.mem_cons_self).1])
    rw [expectedRaw_eq, trim, hleft, rdropWhile_append_of_mem hc hs, List.filter_append,
      List.filter_eq_self.2 fun d hd => (hkeep d hd).2]
  have hsub : ∀ d ∈ rest, d ∈ name := fun d hd => (List.rdropWhile_prefix isSpace _).subset (List.mem_filter.1 hd).1
  have hclean : cleanBase64 rest = Base64.encode hash := by
    have hskip : ∀ d : UInt8, (!isBase64Gap d && (d ≠ 10 && d ≠ 13)) = !isBase64Gap d := by decide +kernel
    rw [cleanBase64_eq (fun hd => ne_colon_of_base64 h (hsub _ hd)) fun d hd => hgap d (hsub d hd), List.filter_filter,
      List.filter_congr fun d _ => hskip d, filter_rdropWhile fun d hd hs => by rw [hgap d hd hs]; rfl, h]
  have hmark : sha256Label.isPrefixOf ((label ++ rest).map toLower) = true := by
    rw [List.map_append, hlabel, List.isPrefixOf_iff_prefix]
    exact List.prefix_append _ _
  unfold expectedComparable
  rw [hraw, hmark, if_pos rfl, hindex, List.drop_left' hseven, hclean]

theorem Names.exists_mem (hlength : hash.length = 32) (h : Names hash name) : ∃ c ∈ name, isSpace c = false := by
  cases h with
  | hex h =>
    have hlen : (name.filter (!isHexGap ·)).length = 63 + 1 := by
      rw [← List.length_map, h, encodeFingerprintHex, Hexadecimal.length_digits, hlength]
    obtain ⟨c, hc, hgap⟩ := exists_mem_of_filter hlen
    have hspace : ∀ c : UInt8, isSpace (toLower c) = false → isSpace c = false := by decide +kernel
    have hkept : toLower c ∈ encodeFingerprintHex hash := h ▸ List.mem_map_of_mem (List.mem_filter.2 ⟨hc, hgap⟩)
    exact ⟨c, hc, hspace c (isXDigit_of_mem hkept).2.2⟩
  | base64 h => exact exists_mem_of_base64 hlength h
  | openSSH _ h =>
    obtain ⟨c, hc, hs⟩ := exists_mem_of_base64 hlength h
    exact ⟨c, List.mem_append_right _ hc, hs⟩

theorem Names.fingerprintsMatch (hlength : hash.length = 32) (h : Names hash name) : fingerprintsMatch name hash := by
  unfold Tunnel.fingerprintsMatch
  cases h with
  | hex h => rw [expectedComparable_hex hlength h]; exact decide_eq_true rfl
  | base64 h =>
    rw [expectedComparable_base64 hlength h]
    exact decide_eq_true (encodeFingerprintBase64_eq hash).symm
  | openSSH hlabel h =>
    rw [expectedComparable_openSSH hlength hlabel h]
    exact decide_eq_true (encodeFingerprintBase64_eq hash).symm

theorem not_spells_nil (hlength : hash.length = 32) : ¬Spells hash [] := by
  rintro ⟨lead, name, trail, hname, -, -, h⟩
  obtain ⟨c, hc, -⟩ := hname.exists_mem hlength
  have hmem : c ∈ lead ++ name ++ trail := List.mem_append_left _ (List.mem_append_right _ hc)
  rw [← h] at hmem
  cases hmem

/-- A text that spells a hash accepts this hash and no other. -/
theorem fingerprintsMatch_iff {text other : List UInt8} (hlength : hash.length = 32) (h : Spells hash text) :
    fingerprintsMatch text other ↔ other = hash := by
  obtain ⟨lead, name, trail, hname, hlead, htrail, rfl⟩ := h
  obtain ⟨c, hc, hs⟩ := hname.exists_mem hlength
  have hraw : expectedRaw (lead ++ name ++ trail) = expectedRaw name := by
    rw [expectedRaw, trim_append hc hs hlead htrail, expectedRaw]
  have hself : fingerprintsMatch (lead ++ name ++ trail) hash := by
    have hmatch := hname.fingerprintsMatch hlength
    unfold fingerprintsMatch at hmatch ⊢
    rwa [hraw]
  constructor
  · exact fun hother => fingerprintsMatch_inj hother hself
  · rintro rfl
    exact hself

end OrangeBox.Tunnel

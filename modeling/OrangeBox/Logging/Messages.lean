import OrangeBox.Lib.PrintReal
import OrangeBox.Lib.BoundedWriter
import OrangeBox.Logging.Dictionary
import OrangeBox.Logging.Params
/-!
# Log messages

`logMessageParamCount` of `log_messages.cpp` and `formatLogMessage` of
`log_params.cpp`, two scanners for the same placeholders. A block with as many
parameters as the first counts is written without a gap by the second
(`format_renders`).
-/

namespace OrangeBox.Logging

variable {block : LogParamBlock} {ps : List LogParam} {text rest out out' ds : List UInt8} {index : Nat} {p : LogParam}
  {definition : LogMessageDefinition} {maximum m : Nat} {capacity : Nat} {ok : Bool} {w : BoundedWriter UInt8}

/-! ## The two scanners -/

/-- The loop over the digits of a placeholder, the same in both scanners: the
index, and the text behind it. -/
def readIndex : List UInt8 → Nat → Nat × List UInt8
  | [], index => (index, [])
  | ch :: text, index =>
    if Decimal.isDigit ch = true ∧ index ≤ logMaxParams then readIndex text (index * 10 + (ch.toNat - 48)) else (index, ch :: text)

theorem readIndex_length_le (text : List UInt8) (index : Nat) : (readIndex text index).2.length ≤ text.length := by
  induction text generalizing index with
  | nil => rfl
  | cons ch text ih =>
    unfold readIndex
    split
    · exact Nat.le_succ_of_le (ih _)
    · rfl

/-- The loop of `logMessageParamCount` over a text, `none` when it returns 255. -/
def countIn (text : List UInt8) (maximum : Nat) : Option Nat :=
  match text with
  | [] => some maximum
  | 123 :: 112 :: text =>
    if (readIndex text 0).2.head? ≠ some 125 ∨ (readIndex text 0).1 = 0 ∨ (readIndex text 0).1 > logMaxParams then none
    else countIn (readIndex text 0).2 (if (readIndex text 0).1 > maximum then (readIndex text 0).1 else maximum)
  | _ :: text => countIn text maximum
termination_by text.length
decreasing_by
  · have hle := readIndex_length_le text 0
    simp only [List.length_cons]
    omega
  · simp

def logMessageParamCount (definition : LogMessageDefinition) : Nat :=
  match countIn definition.text 0 with
  | none => 255
  | some maximum =>
    match definition.shortText with
    | none => maximum
    | some text => (countIn text maximum).getD 255

/-- `get`, and the text that its pointer leads to. Neither leaves the block. -/
def LogParamBlock.getParam (index : Nat) (block : LogParamBlock) : Option LogParam :=
  match block.get index.toUInt8 with
  | some (some stored) => block.paramOf stored
  | _ => none

/-- What `Writer::param` writes; the numbers go through a `char[64]`. -/
def paramText : LogParam → List UInt8
  | .signed value => ((if value.toInt < 0 then [45] else []) ++ Decimal.text value.toInt.natAbs).take 63
  | .unsigned value => (Decimal.text value.toNat).take 63
  | .real bits => (PrintReal.g17 bits).take 63
  | .boolean value => literal (if value then "true" else "false")
  | .text chars => (chars.getD []).takeWhile (· ≠ 0)

/-- The loop of `formatLogMessage` over the text of a definition. -/
def formatText (params : LogParamBlock) (text : List UInt8) (writer : BoundedWriter UInt8) : BoundedWriter UInt8 :=
  match text with
  | [] => writer
  | 123 :: 112 :: text =>
    match if (readIndex text 0).2.head? ≠ some 125 ∨ (readIndex text 0).1 = 0 ∨ (readIndex text 0).1 > logMaxParams then none
      else params.getParam ((readIndex text 0).1 - 1) with
    | none => formatText params (((readIndex text 0).2.dropWhile (· ≠ 125)).drop 1) (writer.write (literal "<missing>")).fail
    | some param => formatText params ((readIndex text 0).2.drop 1) (writer.write (paramText param))
  | ch :: text => formatText params text (writer.put ch)
termination_by text.length
decreasing_by
  · have hle := readIndex_length_le text 0
    have hdrop := List.length_dropWhile_le (fun ch : UInt8 => decide (ch ≠ 125)) (readIndex text 0).2
    simp only [List.length_drop, List.length_cons]
    omega
  · have hle := readIndex_length_le text 0
    simp only [List.length_drop, List.length_cons]
    omega
  · simp

/-- The text that is shown for a definition. -/
def LogMessageDefinition.shown (shortText : Bool) (definition : LogMessageDefinition) : List UInt8 :=
  if shortText then definition.shortText.getD definition.text else definition.text

/-- `formatLogMessage` with a definition, into a buffer. -/
def formatDefinition (definition : LogMessageDefinition) (params : LogParamBlock) (shortText : Bool) (capacity : Nat) :
    Bool × List UInt8 :=
  (formatText params (definition.shown shortText) ⟨capacity, [], true⟩).finish 0

/-- At least three digits, for `%03u`. -/
def threeDigits (n : Nat) : List UInt8 := List.replicate (3 - (Decimal.text n).length) 48 ++ Decimal.text n

/-- The loop over the parameters of a message that has no definition, `n` of them
from `i` on. -/
def formatParams (params : LogParamBlock) : Nat → Nat → BoundedWriter UInt8 → BoundedWriter UInt8
  | 0, _, writer => writer
  | n + 1, i, writer =>
    match params.getParam i with
    | none => writer.fail
    | some param =>
      formatParams params n (i + 1)
        ((writer.write (literal " p" ++ Decimal.text (i + 1) ++ [61])).write (paramText param))

/-- `formatLogMessage`: its result, and the bytes that it stores. -/
def formatLogMessage (id : UInt16) (params : LogParamBlock) (shortText : Bool) (capacity : Nat) : Bool × List UInt8 :=
  if capacity = 0 then (false, [])
  else
    match findLogMessage id with
    | some definition => formatDefinition definition params shortText capacity
    | none =>
      (formatParams params params.count.toNat 0
        (BoundedWriter.write (literal "Unknown message A" ++ threeDigits id.toNat) ⟨capacity, [], true⟩)).finish 0

/-! ## What a text means -/

/-- A text starts like a placeholder. -/
def OpensPlaceholder (ch : UInt8) (rest : List UInt8) : Prop := ch = 123 ∧ rest.head? = some 112

/-- The output for a text: every `{pN}` is replaced by the `N`th parameter, every
other character is copied. -/
inductive Renders (ps : List LogParam) : List UInt8 → List UInt8 → Prop
  | done : Renders ps [] []
  | param {ds rest out : List UInt8} {p : LogParam} : ds ≠ [] → (∀ ch ∈ ds, Decimal.isDigit ch = true) → Decimal.value ds ≠ 0 →
      ps[Decimal.value ds - 1]? = some p → Renders ps rest out →
      Renders ps (123 :: 112 :: (ds ++ 125 :: rest)) (paramText p ++ out)
  | copy {ch : UInt8} {rest out : List UInt8} : ¬OpensPlaceholder ch rest → Renders ps rest out → Renders ps (ch :: rest) (ch :: out)

theorem digits_append_inj {ds' rest' : List UInt8} (h : ∀ ch ∈ ds, Decimal.isDigit ch = true)
    (h' : ∀ ch ∈ ds', Decimal.isDigit ch = true) (he : ds ++ 125 :: rest = ds' ++ 125 :: rest') : ds = ds' ∧ rest = rest' := by
  have htake := congrArg (List.takeWhile Decimal.isDigit) he
  have hend : Decimal.isDigit 125 ≠ true := by decide
  rw [List.takeWhile_append_of_pos h, List.takeWhile_append_of_pos h', List.takeWhile_cons_of_neg hend,
    List.takeWhile_cons_of_neg hend, List.append_nil, List.append_nil] at htake
  subst htake
  exact ⟨rfl, (List.cons.inj (List.append_cancel_left he)).2⟩

/-- A text has one output. -/
theorem Renders.unique {text' : List UInt8} (h : Renders ps text out) (h' : Renders ps text' out') (he : text = text') :
    out = out' := by
  induction h generalizing text' out' with
  | done =>
    cases h' with
    | done => rfl
    | param => contradiction
    | copy => contradiction
  | param hne hall hpos hp hrest ih =>
    cases h' with
    | done => contradiction
    | param hne' hall' hpos' hp' hrest' =>
      simp only [List.cons.injEq, true_and] at he
      obtain ⟨rfl, rfl⟩ := digits_append_inj hall hall' he
      obtain rfl := Option.some.inj (hp.symm.trans hp')
      rw [ih hrest' rfl]
    | copy hplain hrest' =>
      obtain ⟨rfl, rfl⟩ := List.cons.inj he
      exact absurd ⟨rfl, rfl⟩ hplain
  | copy hplain hrest ih =>
    cases h' with
    | done => contradiction
    | param hne' hall' hpos' hp' hrest' =>
      obtain ⟨rfl, rfl⟩ := List.cons.inj he
      exact absurd ⟨rfl, rfl⟩ hplain
    | copy hplain' hrest' =>
      obtain ⟨rfl, rfl⟩ := List.cons.inj he
      rw [ih hrest' rfl]

/-! ## Both scanners find the placeholders -/

/-- What is read are digits. -/
theorem readIndex_spec (text : List UInt8) (index : Nat) : ∃ ds, text = ds ++ (readIndex text index).2 ∧
    (∀ ch ∈ ds, Decimal.isDigit ch = true) ∧ (readIndex text index).1 = ds.foldl Decimal.push index := by
  induction text generalizing index with
  | nil => exact ⟨[], rfl, by simp, rfl⟩
  | cons ch text ih =>
    unfold readIndex
    split
    · rename_i hdigit
      obtain ⟨ds, htext, hall, hvalue⟩ := ih (index * 10 + (ch.toNat - 48))
      refine ⟨ch :: ds, congrArg (ch :: ·) htext, ?_, hvalue⟩
      intro c hc
      rcases List.mem_cons.1 hc with rfl | hc
      · exact hdigit.1
      · exact hall c hc
    · exact ⟨[], rfl, by simp, rfl⟩

theorem not_opens {ch : UInt8} (h : ¬OpensPlaceholder ch rest) (text : List UInt8) (hch : ch = 123) (hrest : rest = 112 :: text) : False :=
  h ⟨hch, by rw [hrest]; rfl⟩

theorem countIn_copy {ch : UInt8} (h : ¬OpensPlaceholder ch rest) : countIn (ch :: rest) maximum = countIn rest maximum := by
  rw [countIn]
  exact fun text hch hrest => not_opens h text hch hrest

theorem formatText_copy {ch : UInt8} (h : ¬OpensPlaceholder ch rest) :
    formatText block (ch :: rest) w = formatText block rest (w.put ch) := by
  rw [formatText]
  exact fun text hch hrest => not_opens h text hch hrest

/-- A parameter of the block, by its number. -/
theorem getParam_holds (h : Holds block ps) (hi : index < ps.length) :
    ∃ p, ps[index]? = some p ∧ block.getParam index = some p.value := by
  have hle := h.count_le
  have h12 : logMaxParams = 12 := rfl
  have hcast : index.toUInt8.toNat = index := Nat.mod_eq_of_lt (by omega)
  obtain ⟨stored, hget, hvalue⟩ := h.get (hcast.symm ▸ hi)
  refine ⟨ps.get ⟨index, hi⟩, List.getElem?_eq_getElem hi, ?_⟩
  unfold LogParamBlock.getParam
  rw [hget]
  dsimp only
  rw [hvalue, hcast, List.getElem?_map, List.getElem?_eq_getElem hi]
  rfl

theorem paramText_value (p : LogParam) : paramText p.value = paramText p := by
  cases p with
  | text value =>
    cases value with
    | none => rfl
    | some chars =>
      have hno : 0 ∉ chars.takeWhile (· ≠ 0) := noNul_takeWhile chars
      have hread : ∀ text : List UInt8, paramText (.text (some text)) = text.takeWhile (· ≠ 0) := fun text => rfl
      change paramText (.text (some (chars.takeWhile (· ≠ 0)))) = paramText (.text (some chars))
      rw [hread, hread]
      exact takeWhile_of_noNul hno
  | _ => rfl

/-- What the counter passes, the formatter writes. The induction is on the length
of the text; behind a placeholder the counter goes on at its brace and the
formatter behind it. -/
theorem formatText_counted (h : Holds block ps) (hcount : countIn text maximum = some m) (hm : m ≤ ps.length) :
    maximum ≤ m ∧ ∃ out, Renders ps text out ∧ ∀ capacity before ok, 1 ≤ capacity →
      formatText block text (.holding capacity before ok) = .holding capacity (before ++ out) ok := by
  induction hlen : text.length using Nat.strong_induction_on generalizing text maximum with
  | _ n ih =>
    cases text with
    | nil =>
      rw [countIn, Option.some_inj] at hcount
      refine ⟨Nat.le_of_eq hcount, [], .done, ?_⟩
      intro capacity before ok _
      rw [formatText, List.append_nil]
    | cons ch rest =>
      by_cases hopen : OpensPlaceholder ch rest
      · -- The number and the brace that the counter asks for are what the formatter asks for.
        obtain ⟨rfl, hrest⟩ := hopen
        obtain ⟨text, rfl⟩ := List.head?_eq_some_iff.1 hrest
        rw [countIn] at hcount
        obtain ⟨hgood, hcount⟩ := Option.ite_none_left_eq_some.1 hcount
        obtain ⟨ds, htext, hall, hvalue⟩ := readIndex_spec text 0
        have hlength := readIndex_length_le text 0
        have hformat := formatText.eq_2 block
        generalize hread : readIndex text 0 = read at *
        obtain ⟨index, cursor⟩ := read
        simp only [not_or, not_not] at hgood hvalue hlength htext hcount
        obtain ⟨hbrace, hpos, hmax⟩ := hgood
        obtain ⟨behind, rfl⟩ := List.head?_eq_some_iff.1 hbrace
        -- The brace opens nothing, so the counter steps over it and stands where the formatter does.
        have hcopy : ¬OpensPlaceholder 125 behind := fun ho => absurd ho.1 (by decide)
        rw [countIn_copy hcopy] at hcount
        simp only [List.length_cons] at hlen hlength
        obtain ⟨hle, out, hrender, hwrite⟩ := ih behind.length (by omega) hcount rfl
        have hindex : index ≤ m ∧ maximum ≤ m := by
          split at hle <;> omega
        obtain ⟨p, hp, hget⟩ := getParam_holds h (by omega : index - 1 < ps.length)
        have hdigits : ds ≠ [] := by
          rintro rfl
          exact hpos hvalue
        refine ⟨hindex.2, paramText p ++ out, ?_, ?_⟩
        · rw [htext]
          have hval : Decimal.value ds = index := hvalue.symm
          exact .param hdigits hall (by rw [hval]; exact hpos) (by rw [hval]; exact hp) hrender
        · intro capacity before ok hcap
          have hin : ¬((125 :: behind).head? ≠ some 125 ∨ index = 0 ∨ index > logMaxParams) := by
            rw [not_or, not_or]
            exact ⟨not_not.2 rfl, hpos, hmax⟩
          rw [hformat, hread]
          dsimp only
          rw [if_neg hin, hget]
          dsimp only
          rw [paramText_value, BoundedWriter.write_holding _ hcap, List.drop_one, List.tail_cons, hwrite _ _ _ hcap,
            List.append_assoc]
      · rw [countIn_copy hopen] at hcount
        obtain ⟨hle, out, hrender, hwrite⟩ := ih rest.length (by rw [← hlen]; simp) hcount rfl
        refine ⟨hle, ch :: out, .copy hopen hrender, ?_⟩
        intro capacity before ok hcap
        rw [formatText_copy hopen, BoundedWriter.put_holding ch hcap, hwrite _ _ _ hcap, List.append_assoc]
        rfl

/-- Whatever is written, the writer keeps to its buffer. -/
theorem formatText_holding (block : LogParamBlock) (text : List UInt8) (hcap : 1 ≤ capacity) (before : List UInt8) (ok : Bool) :
    ∃ after ok', formatText block text (.holding capacity before ok) = .holding capacity after ok' := by
  induction hlen : text.length using Nat.strong_induction_on generalizing text before ok with
  | _ n ih =>
    cases text with
    | nil => exact ⟨before, ok, by rw [formatText]⟩
    | cons ch rest =>
      by_cases hopen : OpensPlaceholder ch rest
      · obtain ⟨rfl, hrest⟩ := hopen
        obtain ⟨text, rfl⟩ := List.head?_eq_some_iff.1 hrest
        have hlength := readIndex_length_le text 0
        simp only [List.length_cons] at hlen
        rw [formatText]
        split
        · rw [BoundedWriter.write_holding _ hcap, BoundedWriter.fail_holding]
          have hdrop := List.length_dropWhile_le (fun ch : UInt8 => decide (ch ≠ 125)) (readIndex text 0).2
          exact ih _ (by rw [List.length_drop]; omega) _ _ _ rfl
        · rw [BoundedWriter.write_holding _ hcap]
          exact ih _ (by rw [List.length_drop]; omega) _ _ _ rfl
      · rw [formatText_copy hopen, BoundedWriter.put_holding ch hcap]
        exact ih rest.length (by rw [← hlen]; simp) rest _ _ rfl

theorem formatParams_holding (block : LogParamBlock) (hcap : 1 ≤ capacity) (n i : Nat) (before : List UInt8) (ok : Bool) :
    ∃ after ok', formatParams block n i (.holding capacity before ok) = .holding capacity after ok' := by
  induction n generalizing i before ok with
  | zero => exact ⟨before, ok, rfl⟩
  | succ n ih =>
    unfold formatParams
    split
    · rw [BoundedWriter.fail_holding]
      exact ⟨_, _, rfl⟩
    · rw [BoundedWriter.write_holding _ hcap, BoundedWriter.write_holding _ hcap]
      exact ih _ _ _

/-- The count of a definition is that of its texts. -/
theorem countIn_of_count (hcount : logMessageParamCount definition = ps.length) (hle : ps.length ≤ logMaxParams) (shortText : Bool)
    (h : Holds block ps) : ∃ maximum m, countIn (definition.shown shortText) maximum = some m ∧ m ≤ ps.length := by
  have h12 : logMaxParams = 12 := rfl
  unfold logMessageParamCount at hcount
  cases htext : countIn definition.text 0 with
  | none =>
    rw [htext] at hcount
    dsimp only at hcount
    omega
  | some m =>
    rw [htext] at hcount
    dsimp only at hcount
    unfold LogMessageDefinition.shown
    cases hshort : definition.shortText with
    | none =>
      rw [hshort] at hcount
      rw [Option.getD_none, ite_self]
      exact ⟨0, m, htext, Nat.le_of_eq hcount⟩
    | some text =>
      rw [hshort] at hcount
      dsimp only at hcount
      cases hboth : countIn text m with
      | none =>
        rw [hboth, Option.getD_none] at hcount
        omega
      | some m' =>
        rw [hboth, Option.getD_some] at hcount
        have hmono := (formatText_counted h hboth (Nat.le_of_eq hcount)).1
        cases shortText with
        | true => exact ⟨m, m', hboth, Nat.le_of_eq hcount⟩
        | false => exact ⟨0, m, htext, hmono.trans (Nat.le_of_eq hcount)⟩

/-- The placeholders of a message. If the counter of a definition gives as many
parameters as a block accepted, the formatter writes the long and the short text
with every placeholder replaced, cut to the buffer, and tells whether all of it
is there. Whatever the definition and the block are, it stores no more than the
capacity and a NUL in the end. A known message is written from its definition. -/
theorem format_renders :
    (∀ (definition : LogMessageDefinition) (params : List LogParam) (shortText : Bool),
      logMessageParamCount definition = (appendAll params).1.count.toNat →
      ∃ out, (∀ other, Renders (appendAll params).2 (definition.shown shortText) other ↔ other = out) ∧
        ∀ capacity, 1 ≤ capacity → formatDefinition definition (appendAll params).1 shortText capacity =
          (decide (out.length < capacity), out.take (capacity - 1) ++ [0])) ∧
    (∀ (definition : LogMessageDefinition) (block : LogParamBlock) (shortText : Bool) (capacity : Nat), 1 ≤ capacity →
      (formatDefinition definition block shortText capacity).2.length ≤ capacity ∧
        (formatDefinition definition block shortText capacity).2.getLast? = some 0) ∧
    (∀ (id : UInt16) (block : LogParamBlock) (shortText : Bool) (capacity : Nat), 1 ≤ capacity →
      (formatLogMessage id block shortText capacity).2.length ≤ capacity ∧
        (formatLogMessage id block shortText capacity).2.getLast? = some 0) ∧
    ∀ (id : UInt16) (definition : LogMessageDefinition) (block : LogParamBlock) (shortText : Bool) (capacity : Nat),
      findLogMessage id = some definition → 1 ≤ capacity →
        formatLogMessage id block shortText capacity = formatDefinition definition block shortText capacity := by
  have hbounded : ∀ (definition : LogMessageDefinition) (block : LogParamBlock) (shortText : Bool) (capacity : Nat), 1 ≤ capacity →
      (formatDefinition definition block shortText capacity).2.length ≤ capacity ∧
        (formatDefinition definition block shortText capacity).2.getLast? = some 0 := by
    intro definition block shortText capacity hcap
    obtain ⟨after, ok, hafter⟩ := formatText_holding block (definition.shown shortText) hcap [] true
    unfold formatDefinition
    rw [BoundedWriter.holding_nil hcap, hafter]
    refine ⟨BoundedWriter.length_finish_holding 0 hcap, ?_⟩
    rw [BoundedWriter.finish_holding 0 hcap]
    simp
  refine ⟨?_, hbounded, ?_, ?_⟩
  · intro definition params shortText hcount
    have hold := holds_appendAll params
    rw [hold.count] at hcount
    obtain ⟨maximum, m, hm, hle⟩ := countIn_of_count hcount hold.count_le shortText hold
    obtain ⟨-, out, hrender, hwrite⟩ := formatText_counted hold hm hle
    refine ⟨out, fun other => ⟨fun hother => hother.unique hrender rfl, fun he => he ▸ hrender⟩, ?_⟩
    intro capacity hcap
    unfold formatDefinition
    rw [BoundedWriter.holding_nil hcap, hwrite _ _ _ hcap, BoundedWriter.finish_holding 0 hcap]
    simp
  · intro id block shortText capacity hcap
    unfold formatLogMessage
    rw [if_neg (by omega)]
    split
    · exact hbounded _ block shortText capacity hcap
    · -- An id without a message is written with its parameters behind it.
      rw [BoundedWriter.holding_nil hcap, BoundedWriter.write_holding _ hcap]
      obtain ⟨after, ok, hafter⟩ := formatParams_holding block hcap block.count.toNat 0
        ([] ++ (literal "Unknown message A" ++ threeDigits id.toNat)) true
      rw [hafter]
      refine ⟨BoundedWriter.length_finish_holding 0 hcap, ?_⟩
      rw [BoundedWriter.finish_holding 0 hcap]
      simp
  · intro id definition block shortText capacity hfound hcap
    unfold formatLogMessage
    rw [if_neg (by omega), hfound]

/-- "Door {p1}" with a 7 in a buffer for eight characters. -/
theorem format_renders_door : formatDefinition (logMessage 0 "Door {p1}" none) (appendAll [.unsigned 7]).1 false 9 =
    (true, literal "Door 7" ++ [0]) := by
  have hcount : logMessageParamCount (logMessage 0 "Door {p1}" none) = (appendAll [.unsigned 7]).1.count.toNat := by
    decide +kernel
  obtain ⟨out, hout, hformat⟩ := format_renders.1 _ _ false hcount
  have hdigits : ∀ ch ∈ ([49] : List UInt8), Decimal.isDigit ch = true := by
    intro ch hch
    rw [List.mem_singleton.1 hch]
    decide
  have hparam : Renders (appendAll [.unsigned 7]).2 (123 :: 112 :: ([49] ++ 125 :: [])) (paramText (.unsigned 7) ++ []) :=
    .param (by decide) hdigits (by decide) (by decide) .done
  have hrendered : Renders (appendAll [.unsigned 7]).2 (literal "Door {p1}") (literal "Door 7") := by
    have hplain : ∀ (ch : UInt8) (rest : List UInt8), ch ≠ 123 → ¬OpensPlaceholder ch rest := fun ch rest h ho => h ho.1
    exact .copy (hplain 68 _ (by decide)) (.copy (hplain 111 _ (by decide)) (.copy (hplain 111 _ (by decide))
      (.copy (hplain 114 _ (by decide)) (.copy (hplain 32 _ (by decide)) hparam))))
  rw [hformat 9 (by decide), ← (hout _).1 hrendered]
  decide

end OrangeBox.Logging

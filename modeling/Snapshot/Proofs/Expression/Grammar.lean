import Mathlib.Algebra.Group.Nat.Defs
import Mathlib.Tactic.SplitIfs
import Snapshot.Expression.Parse
import Snapshot.Proofs.Text.Blank

/-!
# The grammar of expressions

Without the blanks around it a text is an expression in three ways: as the name of a column, as a
name with an index in brackets, and as the label of particle records in brackets.
`Expression.Spells` lists them, and what a text spells is all that the parser finds in it
(`Expression.ofTrimmed?_eq_some_iff`).  So each form is read exactly where it stands, and every
other text is turned down (`Expression.parsedByForm`).

The parser cuts a bracketed text at the last opening bracket of the kind that closes it.  In a
text that is held as bytes the cuts are at byte positions.  They are found by looking for a
character that takes one byte, and so none of them is outside the text or inside a character
(`Expression.exists_slices`).
-/

namespace Snapshot

/-! ## The last place of a character -/

section

variable {c : Char} {text before after : List Char}

theorem exists_last_of_mem (hmem : c ∈ text) :
    ∃ before after, text = before ++ c :: after ∧ c ∉ after := by
  obtain ⟨back, front, hreverse, hfree⟩ := List.eq_append_cons_of_mem (List.mem_reverse.mpr hmem)
  refine ⟨front.reverse, back.reverse, ?_, by simpa using hfree⟩
  rw [List.reverse_eq_iff.mp hreverse]
  simp

theorem splitAtLast?_eq_none (hfree : c ∉ text) : splitAtLast? c text = none := by
  induction text with
  | nil => rfl
  | cons d rest ih =>
      rw [List.mem_cons, not_or] at hfree
      simp [splitAtLast?, ih hfree.2, Ne.symm hfree.1]

theorem splitAtLast?_append (hfree : c ∉ after) :
    splitAtLast? c (before ++ c :: after) = some (before, after) := by
  induction before with
  | nil => simp [splitAtLast?, splitAtLast?_eq_none hfree]
  | cons d before ih => simp [splitAtLast?, ih]

theorem eq_append_of_splitAtLast? (h : splitAtLast? c text = some (before, after)) :
    text = before ++ c :: after ∧ c ∉ after := by
  by_cases hmem : c ∈ text
  · obtain ⟨front, back, rfl, hfree⟩ := exists_last_of_mem hmem
    rw [splitAtLast?_append hfree] at h
    cases h
    exact ⟨rfl, hfree⟩
  · rw [splitAtLast?_eq_none hmem] at h
    cases h

end

namespace Expression

/-! ## Forms -/

/-- A text in square or curly brackets, behind a name. -/
def Encloses (text name inner : String) : Prop :=
  text = name ++ "[" ++ inner ++ "]" ∨ text = name ++ "\x7b" ++ inner ++ "\x7d"

/-- No bracket is in the text. -/
def Bare (text : String) : Prop := ∀ c ∈ text.toList, isBracket c = false

/-- The text is the name of a column. -/
structure SpellsColumn (text : String) : Prop where
  ne_empty : text ≠ ""
  bare : Bare text

/-- The text is a name, and digits in brackets. -/
structure SpellsComponent (text name digits : String) : Prop where
  encloses : Encloses text name digits
  name_ne_empty : name ≠ ""
  name_bare : Bare name
  digits_ne_empty : digits ≠ ""
  decimal : ∀ c ∈ digits.toList, c.isDigit

/-- The text is the label of particle records in brackets. -/
def SpellsRecords (text : String) : Prop :=
  text = "[RockstarParticle]" ∨ text = "\x7bRockstarParticle\x7d"

/-- The number that a run of digits denotes. -/
def number (digits : String) : Nat := Nat.ofDigitChars 10 digits.toList 0

/-- What a text without surrounding blanks spells.  An index that is too great is read, so that it
can be reported; one that does not fit a word is reported as the greatest word. -/
inductive Spells (text : String) : Except Fault Expression → Prop
  | column (h : SpellsColumn text) : Spells text (.ok (.one ⟨text, none⟩))
  | component {name digits : String} (h : SpellsComponent text name digits)
      (hindex : number digits ≤ 2) : Spells text (.ok (.one ⟨name, some (number digits)⟩))
  | outOfRange {name digits : String} (h : SpellsComponent text name digits)
      (hindex : 2 < number digits) :
      Spells text (.error (.noSuchComponent name (min (number digits) (2 ^ 64 - 1))))
  | records (h : SpellsRecords text) : Spells text (.ok .records)

/-! ## Brackets -/

theorem eq_of_openingOf? {opening closing : Char} (hpair : openingOf? closing = some opening) :
    (opening = '[' ∧ closing = ']') ∨ (opening = '\x7b' ∧ closing = '\x7d') := by
  unfold openingOf? at hpair
  split_ifs at hpair with hsquare hcurly
  · exact .inl ⟨(Option.some.inj hpair).symm, hsquare⟩
  · exact .inr ⟨(Option.some.inj hpair).symm, hcurly⟩

theorem encloses_iff {text name inner : String} :
    Encloses text name inner ↔
      ∃ opening closing, openingOf? closing = some opening ∧
        text.toList = name.toList ++ opening :: (inner.toList ++ [closing]) := by
  have hsquare : (name ++ "[" ++ inner ++ "]").toList =
      name.toList ++ '[' :: (inner.toList ++ [']']) := by simp
  have hcurly : (name ++ "\x7b" ++ inner ++ "\x7d").toList =
      name.toList ++ '\x7b' :: (inner.toList ++ ['\x7d']) := by simp
  constructor
  · rintro (rfl | rfl)
    · exact ⟨'[', ']', rfl, hsquare⟩
    · exact ⟨'\x7b', '\x7d', rfl, hcurly⟩
  · rintro ⟨opening, closing, hpair, htext⟩
    rcases eq_of_openingOf? hpair with ⟨rfl, rfl⟩ | ⟨rfl, rfl⟩
    · exact .inl (String.toList_inj.mp (htext.trans hsquare.symm))
    · exact .inr (String.toList_inj.mp (htext.trans hcurly.symm))

theorem spellsRecords_iff {text : String} : SpellsRecords text ↔ Encloses text "" recordLabel :=
  Iff.rfl

/-- Digits are no brackets. -/
theorem not_mem_of_decimal {opening closing : Char} (hpair : openingOf? closing = some opening)
    {digits : List Char} (hdecimal : ∀ c ∈ digits, c.isDigit) : opening ∉ digits := by
  intro hmem
  have hdigit := hdecimal opening hmem
  rcases eq_of_openingOf? hpair with ⟨rfl, -⟩ | ⟨rfl, -⟩
  · cases hdigit
  · cases hdigit

/-! ## Bare and bracketed texts -/

theorem openingOf?_eq_none {c : Char} (hbracket : isBracket c = false) : openingOf? c = none := by
  unfold isBracket at hbracket
  simp only [Bool.or_eq_false_iff, decide_eq_false_iff_not] at hbracket
  obtain ⟨⟨⟨-, hsquare⟩, -⟩, hcurly⟩ := hbracket
  rw [openingOf?, if_neg hsquare, if_neg hcurly]

/-- A text without brackets is read as it stands. -/
theorem ofTrimmed?_of_bare {text : List Char} (hne : text ≠ [])
    (hbare : ∀ c ∈ text, isBracket c = false) :
    ofTrimmed? text = some (.ok (.one ⟨String.ofList text, none⟩)) := by
  have hopening : text.getLast?.bind openingOf? = none := by
    rw [Option.bind_eq_none_iff]
    intro c hc
    exact openingOf?_eq_none (hbare c (List.mem_of_getLast? hc))
  have hany : text.any isBracket = false :=
    List.any_eq_false.mpr fun c hc => Bool.eq_false_iff.mp (hbare c hc)
  unfold ofTrimmed?
  rw [hopening]
  dsimp only
  rw [decide_eq_false hne, hany]
  rfl

/-- A text that ends in a closing bracket is split at the last opening bracket of its kind. -/
theorem ofTrimmed?_enclosed {opening closing : Char} (hpair : openingOf? closing = some opening)
    {name inner : List Char} (hfree : opening ∉ inner) :
    ofTrimmed? (name ++ opening :: (inner ++ [closing])) = ofBracketed? name inner := by
  have htext : name ++ opening :: (inner ++ [closing]) = name ++ opening :: inner ++ [closing] := by
    simp
  unfold ofTrimmed?
  rw [htext, List.getLast?_concat, List.dropLast_concat, Option.bind_some, hpair]
  dsimp only
  rw [splitAtLast?_append hfree]

/-- What was read either was bare, or stood in brackets. -/
theorem bare_or_enclosed_of_ofTrimmed? {text : List Char} {read : Except Fault Expression}
    (hread : ofTrimmed? text = some read) :
    (text ≠ [] ∧ (∀ c ∈ text, isBracket c = false) ∧ read = .ok (.one ⟨String.ofList text, none⟩)) ∨
      ∃ opening closing name inner, openingOf? closing = some opening ∧ opening ∉ inner ∧
        text = name ++ opening :: (inner ++ [closing]) ∧ ofBracketed? name inner = some read := by
  unfold ofTrimmed? at hread
  split at hread
  · split_ifs at hread with hmalformed
    cases hread
    simp only [Bool.or_eq_true, decide_eq_true_eq, List.any_eq_true, not_or, not_exists, not_and,
      Bool.not_eq_true] at hmalformed
    exact .inl ⟨hmalformed.1, hmalformed.2, rfl⟩
  · next opening hlast =>
    obtain ⟨closing, hclosing, hpair⟩ := Option.bind_eq_some_iff.mp hlast
    obtain ⟨front, rfl⟩ := List.getLast?_eq_some_iff.mp hclosing
    rw [List.dropLast_concat] at hread
    split at hread
    · cases hread
    · next name inner hsplit =>
      obtain ⟨rfl, hfree⟩ := eq_append_of_splitAtLast? hsplit
      exact .inr ⟨opening, closing, name, inner, hpair, hfree, by simp, hread⟩

/-- A name is free of brackets, and an index has digits and nothing else. -/
theorem isMalformed_eq_false_iff {name inner : List Char} :
    (name.any isBracket || inner = [] || !inner.all Char.isDigit) = false ↔
      (∀ c ∈ name, isBracket c = false) ∧ inner ≠ [] ∧ ∀ c ∈ inner, c.isDigit := by
  simp [and_assoc]

theorem ofBracketed?_eq_some_iff {name inner : List Char} {read : Except Fault Expression} :
    ofBracketed? name inner = some read ↔
      (name = [] ∧ inner = recordLabel.toList ∧ read = .ok .records) ∨
      (name ≠ [] ∧ (∀ c ∈ name, isBracket c = false) ∧ inner ≠ [] ∧ (∀ c ∈ inner, c.isDigit) ∧
        read = ofIndex (String.ofList name) (decimalValue inner)) := by
  unfold ofBracketed?
  split_ifs with hname hlabel hmalformed
  · simp [hname, hlabel, eq_comm (a := read)]
  · simp [hname, hlabel]
  · refine iff_of_false nofun ?_
    rintro (⟨hempty, -⟩ | ⟨-, hbare, hinner, hdigits, -⟩)
    · exact hname hempty
    · exact Bool.eq_false_iff.mp (isMalformed_eq_false_iff.mpr ⟨hbare, hinner, hdigits⟩) hmalformed
  · obtain ⟨hbare, hinner, hdigits⟩ :=
      isMalformed_eq_false_iff.mp (Bool.eq_false_iff.mpr hmalformed)
    rw [Option.some_inj]
    constructor
    · rintro rfl
      exact .inr ⟨hname, hbare, hinner, hdigits, rfl⟩
    · rintro (⟨hempty, -⟩ | ⟨-, -, -, -, rfl⟩)
      · exact absurd hempty hname
      · rfl

/-- The index of a component decides whether it is one. -/
theorem spells_ofIndex {text name digits : String} (h : SpellsComponent text name digits) :
    Spells text (ofIndex name (number digits)) := by
  unfold ofIndex
  split_ifs with hgreat
  · exact .outOfRange h hgreat
  · exact .component h (Nat.le_of_not_lt hgreat)

theorem SpellsComponent.ofTrimmed?_eq {text name digits : String}
    (h : SpellsComponent text name digits) :
    ofTrimmed? text.toList = some (ofIndex name (number digits)) := by
  obtain ⟨opening, closing, hpair, htext⟩ := encloses_iff.mp h.encloses
  rw [htext, ofTrimmed?_enclosed hpair (not_mem_of_decimal hpair h.decimal)]
  refine ofBracketed?_eq_some_iff.mpr (.inr ⟨mt String.toList_eq_nil_iff.mp h.name_ne_empty,
    h.name_bare, mt String.toList_eq_nil_iff.mp h.digits_ne_empty, h.decimal, ?_⟩)
  rw [String.ofList_toList]
  rfl

/-! ## What the parser finds -/

/-- **What a text spells** is what the parser finds in it. -/
theorem ofTrimmed?_eq_some_iff {text : String} {read : Except Fault Expression} :
    ofTrimmed? text.toList = some read ↔ Spells text read := by
  constructor
  · intro hread
    rcases bare_or_enclosed_of_ofTrimmed? hread with
      ⟨hne, hbare, rfl⟩ | ⟨opening, closing, name, inner, hpair, -, htext, hbracketed⟩
    · rw [String.ofList_toList]
      exact .column ⟨fun h => hne (String.toList_eq_nil_iff.mpr h), hbare⟩
    · have hencloses : Encloses text (String.ofList name) (String.ofList inner) :=
        encloses_iff.mpr ⟨opening, closing, hpair, by simpa using htext⟩
      rcases ofBracketed?_eq_some_iff.mp hbracketed with
        ⟨rfl, rfl, rfl⟩ | ⟨hname, hbare, hinner, hdigits, rfl⟩
      · exact .records (spellsRecords_iff.mpr (by simpa using hencloses))
      · have hvalue : decimalValue inner = number (String.ofList inner) := by
          rw [number, String.toList_ofList]
          rfl
        rw [hvalue]
        exact spells_ofIndex ⟨hencloses, by simpa using hname, by simpa [Bare] using hbare,
          by simpa using hinner, by simpa using hdigits⟩
  · intro hspells
    cases hspells with
    | column h =>
        rw [ofTrimmed?_of_bare (mt String.toList_eq_nil_iff.mp h.ne_empty) h.bare,
          String.ofList_toList]
    | component h hindex =>
        rw [h.ofTrimmed?_eq]
        exact congrArg some (if_neg (Nat.not_lt.mpr hindex))
    | outOfRange h hindex =>
        rw [h.ofTrimmed?_eq]
        exact congrArg some (if_pos hindex)
    | records h =>
        rcases h with rfl | rfl
        · decide +kernel
        · decide +kernel

/-- The text without the blanks around it. -/
def trimmed (text : String) : String := String.ofList (trim text.toList)

theorem trims_trimmed (text : String) : Trims text.toList (trimmed text).toList := by
  rw [trimmed, String.toList_ofList]
  exact trims_trim text.toList

theorem trimmed_eq_self_iff {text : String} :
    trimmed text = text ↔ (∀ c ∈ text.toList.head?, isBlank c = false) ∧
      ∀ c ∈ text.toList.getLast?, isBlank c = false := by
  rw [trimmed, ← String.toList_inj, String.toList_ofList, trim_eq_self_iff]

/-- A text is turned down as it stands between its blanks, unless it spells something. -/
theorem parse_eq_iff {text : String} {result : Except Fault Expression} :
    parse text = result ↔
      Spells (trimmed text) result ∨
        ((∀ read, ¬Spells (trimmed text) read) ∧
          result = .error (.badExpression (trimmed text))) := by
  have hparse : parse text =
      (ofTrimmed? (trimmed text).toList).getD (.error (.badExpression (trimmed text))) := by
    rw [trimmed, String.toList_ofList]
    rfl
  simp only [← ofTrimmed?_eq_some_iff, hparse]
  cases ofTrimmed? (trimmed text).toList with
  | none => simp [eq_comm]
  | some read => simp

/-! ## The forms one by one -/

section

variable {text name : String}

theorem parse_eq_records_iff : parse text = .ok .records ↔ SpellsRecords (trimmed text) := by
  rw [parse_eq_iff]
  constructor
  · rintro (hspells | ⟨-, hbad⟩)
    · cases hspells with
      | records h => exact h
    · cases hbad
  · intro h
    exact .inl (.records h)

theorem parse_eq_column_iff :
    parse text = .ok (.one ⟨name, none⟩) ↔ name = trimmed text ∧ SpellsColumn (trimmed text) := by
  rw [parse_eq_iff]
  constructor
  · rintro (hspells | ⟨-, hbad⟩)
    · cases hspells with
      | column h => exact ⟨rfl, h⟩
    · cases hbad
  · rintro ⟨rfl, h⟩
    exact .inl (.column h)

theorem parse_eq_component_iff {index : Nat} :
    parse text = .ok (.one ⟨name, some index⟩) ↔
      ∃ digits, SpellsComponent (trimmed text) name digits ∧ number digits = index ∧ index ≤ 2 := by
  rw [parse_eq_iff]
  constructor
  · rintro (hspells | ⟨-, hbad⟩)
    · cases hspells with
      | @component _ digits h hindex => exact ⟨digits, h, rfl, hindex⟩
    · cases hbad
  · rintro ⟨digits, h, rfl, hindex⟩
    exact .inl (.component h hindex)

theorem parse_eq_outOfRange_iff {index : Nat} :
    parse text = .error (.noSuchComponent name index) ↔
      ∃ digits, SpellsComponent (trimmed text) name digits ∧ 2 < number digits ∧
        index = min (number digits) (2 ^ 64 - 1) := by
  rw [parse_eq_iff]
  constructor
  · rintro (hspells | ⟨-, hbad⟩)
    · cases hspells with
      | @outOfRange _ digits h hindex => exact ⟨digits, h, hindex, rfl⟩
    · cases hbad
  · rintro ⟨digits, h, hindex, rfl⟩
    exact .inl (.outOfRange h hindex)

/-- The text has none of the forms. -/
structure SpellsNothing (text : String) : Prop where
  not_records : ¬SpellsRecords text
  not_component : ∀ name digits, ¬SpellsComponent text name digits
  not_column : ¬SpellsColumn text

theorem spellsNothing_iff : SpellsNothing text ↔ ∀ read, ¬Spells text read := by
  constructor
  · intro hnothing read hspells
    cases hspells with
    | column h => exact hnothing.not_column h
    | component h => exact hnothing.not_component _ _ h
    | outOfRange h => exact hnothing.not_component _ _ h
    | records h => exact hnothing.not_records h
  · intro hnothing
    exact ⟨fun h => hnothing _ (.records h), fun _ _ h => hnothing _ (spells_ofIndex h),
      fun h => hnothing _ (.column h)⟩

theorem parse_eq_badExpression_iff {shown : String} :
    parse text = .error (.badExpression shown) ↔
      shown = trimmed text ∧ SpellsNothing (trimmed text) := by
  rw [parse_eq_iff, spellsNothing_iff]
  constructor
  · rintro (hspells | ⟨hnothing, hbad⟩)
    · cases hspells
    · cases hbad
      exact ⟨rfl, hnothing⟩
  · rintro ⟨rfl, hnothing⟩
    exact .inr ⟨hnothing, rfl⟩

end

/-! ## Cuts at byte positions -/

/-- A character last stands at the given byte of a text. -/
def LastAt (text : String) (c : Char) (place : Nat) : Prop :=
  ∃ before after, text = before ++ String.singleton c ++ after ∧ c ∉ after.toList ∧
    before.utf8ByteSize = place

/-- The bytes of a text from one position up to another are a text of their own: neither position is
outside the text or inside a character, and the first is not behind the second. -/
structure IsSlice (text : String) (start stop : Nat) (part : String) : Prop where
  start_le_stop : start ≤ stop
  start_isValid : (⟨start⟩ : String.Pos.Raw).IsValid text
  stop_isValid : (⟨stop⟩ : String.Pos.Raw).IsValid text
  bytes_eq : part.toByteArray = text.toByteArray.extract start stop

theorem isSlice_append (before part after : String) :
    IsSlice (before ++ part ++ after) before.utf8ByteSize
      (before.utf8ByteSize + part.utf8ByteSize) part where
  start_le_stop := Nat.le_add_right _ _
  start_isValid := String.Pos.Raw.isValid_iff_exists_append.mpr
    ⟨before, part ++ after, String.append_assoc, rfl⟩
  stop_isValid := String.Pos.Raw.isValid_iff_exists_append.mpr
    ⟨before ++ part, after, rfl, by rw [← String.utf8ByteSize_append]; rfl⟩
  bytes_eq := by
    rw [String.append_assoc, String.toByteArray_append, String.toByteArray_append,
      ← String.size_toByteArray, ← String.size_toByteArray, ← Nat.add_zero before.toByteArray.size,
      Nat.add_assoc, ByteArray.extract_append_size_add, Nat.zero_add,
      ByteArray.extract_append_eq_left rfl]

/-- Brackets take one byte each. -/
theorem utf8Size_of_openingOf? {opening closing : Char}
    (hpair : openingOf? closing = some opening) :
    opening.utf8Size = 1 ∧ closing.utf8Size = 1 := by
  rcases eq_of_openingOf? hpair with ⟨rfl, rfl⟩ | ⟨rfl, rfl⟩
  · decide
  · decide

/-- A bracket that is last of its kind stands ahead of the closing one. -/
theorem eq_append_of_getLast? {name after : String} {opening closing : Char}
    (hpair : openingOf? closing = some opening)
    (hlast : (name ++ String.singleton opening ++ after).toList.getLast? = some closing) :
    ∃ inner, after = inner ++ String.singleton closing := by
  rcases List.eq_nil_or_concat' after.toList with hnone | ⟨inner, last, hafter⟩
  · -- Otherwise the text would end in an opening bracket.
    have hsame : opening = closing := by simpa [hnone] using hlast
    rcases eq_of_openingOf? hpair with ⟨rfl, rfl⟩ | ⟨rfl, rfl⟩
    · cases hsame
    · cases hsame
  · have hclosing : last = closing := by simpa [hafter, List.getLast?_cons] using hlast
    refine ⟨String.ofList inner, String.toList_inj.mp ?_⟩
    rw [hafter, hclosing]
    simp

/-- **The cuts of the parser** in the bytes of a text are ahead of the opening bracket, behind it,
and ahead of the closing one. -/
theorem exists_slices {text : String} {opening closing : Char}
    (hpair : openingOf? closing = some opening) (hlast : text.toList.getLast? = some closing)
    {place : Nat} (hplace : LastAt text opening place) :
    ∃ name inner, IsSlice text 0 place name ∧
      IsSlice text (place + 1) (text.utf8ByteSize - 1) inner ∧
      ofTrimmed? text.toList = ofBracketed? name.toList inner.toList := by
  obtain ⟨name, after, rfl, hfree, rfl⟩ := hplace
  obtain ⟨inner, rfl⟩ := eq_append_of_getLast? hpair hlast
  obtain ⟨hopening, hclosing⟩ := utf8Size_of_openingOf? hpair
  have hname := isSlice_append "" name
    (String.singleton opening ++ (inner ++ String.singleton closing))
  have hinner := isSlice_append (name ++ String.singleton opening) inner
    (String.singleton closing)
  have hstart : (name ++ String.singleton opening).utf8ByteSize = name.utf8ByteSize + 1 := by
    rw [String.utf8ByteSize_append, String.utf8ByteSize_singleton, hopening]
  have hstop : (name ++ String.singleton opening ++
      (inner ++ String.singleton closing)).utf8ByteSize - 1 =
        name.utf8ByteSize + 1 + inner.utf8ByteSize := by
    rw [String.utf8ByteSize_append, hstart, String.utf8ByteSize_append,
      String.utf8ByteSize_singleton, hclosing]
    omega
  refine ⟨name, inner, ?_, ?_, ?_⟩
  · rw [String.empty_append, ← String.append_assoc, String.utf8ByteSize_empty,
      Nat.zero_add] at hname
    exact hname
  · rw [hstop, ← hstart, ← String.append_assoc]
    exact hinner
  · rw [String.toList_append, List.mem_append, not_or] at hfree
    rw [← ofTrimmed?_enclosed hpair hfree.1]
    simp

/-! ## Every text -/

/-- A text is read by its form and by nothing else. -/
structure ParsedByForm (text : String) : Prop where
  trims : Trims text.toList (trimmed text).toList
  records_iff : parse text = .ok .records ↔ SpellsRecords (trimmed text)
  component_iff : ∀ name index, parse text = .ok (.one ⟨name, some index⟩) ↔
    ∃ digits, SpellsComponent (trimmed text) name digits ∧ number digits = index ∧ index ≤ 2
  /-- An index that is too great is reported as it is, if it fits a word. -/
  outOfRange_iff : ∀ name index, parse text = .error (.noSuchComponent name index) ↔
    ∃ digits, SpellsComponent (trimmed text) name digits ∧ 2 < number digits ∧
      index = min (number digits) (2 ^ 64 - 1)
  column_iff : ∀ name, parse text = .ok (.one ⟨name, none⟩) ↔
    name = trimmed text ∧ SpellsColumn (trimmed text)
  badExpression_iff : ∀ shown, parse text = .error (.badExpression shown) ↔
    shown = trimmed text ∧ SpellsNothing (trimmed text)
  /-- The two cuts that are made, where the text ends in a bracket and one that opens is found. -/
  slices : ∀ opening closing place, openingOf? closing = some opening →
    (trimmed text).toList.getLast? = some closing → LastAt (trimmed text) opening place →
      ∃ name inner, IsSlice (trimmed text) 0 place name ∧
        IsSlice (trimmed text) (place + 1) ((trimmed text).utf8ByteSize - 1) inner ∧
        ofTrimmed? (trimmed text).toList = ofBracketed? name.toList inner.toList

/-- **Expressions are accepted by their form.**  The text between the blanks is the label of records
in brackets, a name with an index, or a name alone, or it is turned down as it stands there. -/
theorem parsedByForm (text : String) : ParsedByForm text where
  trims := trims_trimmed text
  records_iff := parse_eq_records_iff
  component_iff _ _ := parse_eq_component_iff
  outOfRange_iff _ _ := parse_eq_outOfRange_iff
  column_iff _ := parse_eq_column_iff
  badExpression_iff _ := parse_eq_badExpression_iff
  slices _ _ _ hpair hlast := exists_slices hpair hlast

/-- Blanks inside a text belong to the name, and the zeros ahead of an index do not matter. -/
example : parse "\u2003a é \x7b002\x7d\n" = .ok (.one ⟨"a é ", some 2⟩) := by decide +kernel

/-- Brackets have to be of one kind. -/
example : parse "x[0\x7d" = .error (.badExpression "x[0\x7d") := by decide +kernel

end Expression

end Snapshot

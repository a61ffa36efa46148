import Mathlib.Tactic.Lemma
import Mathlib.Tactic.SplitIfs
import RideDispatch.Json.Printer
import RideDispatch.Json.Tree

/-!
# Reading what is printed

A value whose numbers are whole and fit, and which is not nested too deep, reads back from its text
(`Json.Plain.parse?_render`), and the text has no line break in it (`Json.Plain.newline_not_mem`). What is read of a
part of the text is that part alone, whatever follows, as long as it does not go on with a number
(`Json.Closed`).
-/

namespace RideDispatch.Json

open Json.Tree

/-! ## Strings -/

section Strings

variable {c : Char} {cs rest : List Char} {glyphs : List Glyph}

/-- What is written for a character: a letter that stands for it after a backslash, its unit in hexadecimal, or the
character itself. -/
lemma escapeChar_cases (c : Char) :
    (∃ letter, escapeChar c = ['\\', letter] ∧ letter ≠ 'u' ∧ escape? letter = some c) ∨
    (escapeChar c = ['\\', 'u', '0', '0', hexDigit (c.toNat / 16), hexDigit c.toNat] ∧ c.toNat < 0x20) ∨
    (escapeChar c = [c] ∧ 0x20 ≤ c.toNat ∧ c ≠ '"' ∧ c ≠ '\\') := by
  by_cases quote : c = '"'
  · exact .inl ⟨'"', by rw [quote]; rfl, by decide, by rw [quote]; rfl⟩
  by_cases backslash : c = '\\'
  · exact .inl ⟨'\\', by rw [backslash]; rfl, by decide, by rw [backslash]; rfl⟩
  unfold escapeChar
  rw [if_neg quote, if_neg backslash]
  split_ifs with newline return_ tab backspace feed control
  · exact .inl ⟨'n', rfl, by decide, newline ▸ rfl⟩
  · exact .inl ⟨'r', rfl, by decide, return_ ▸ rfl⟩
  · exact .inl ⟨'t', rfl, by decide, tab ▸ rfl⟩
  · exact .inl ⟨'b', rfl, by decide, backspace ▸ rfl⟩
  · exact .inl ⟨'f', rfl, by decide, feed ▸ rfl⟩
  · exact .inr (.inl ⟨rfl, control⟩)
  · exact .inr (.inr ⟨rfl, Nat.le_of_not_lt control, quote, backslash⟩)

lemma hexValue?_hexDigit (n : Nat) : hexValue? (hexDigit n) = some (n % 16) := by
  have all : ∀ d < 16, hexValue? (Nat.digitChar d) = some d := by decide
  exact all (n % 16) (Nat.mod_lt _ (by decide))

lemma readGlyphs_letter {letter : Char} (other : letter ≠ 'u') (stands : escape? letter = some c)
    (read : readGlyphs cs = some (glyphs, rest)) :
    readGlyphs ('\\' :: letter :: cs) = some (.char c :: glyphs, rest) := by
  rw [readGlyphs, stands, read]
  exact fun _ _ _ _ _ same => absurd same other

lemma readGlyphs_unit (control : c.toNat < 0x20) (read : readGlyphs cs = some (glyphs, rest)) :
    readGlyphs ('\\' :: 'u' :: '0' :: '0' :: hexDigit (c.toNat / 16) :: hexDigit c.toNat :: cs) =
      some (.unit c.toNat :: glyphs, rest) := by
  have zero : hexValue? '0' = some 0 := by decide
  have code : ((0 * 16 + 0) * 16 + c.toNat / 16 % 16) * 16 + c.toNat % 16 = c.toNat := by omega
  rw [readGlyphs, zero, hexValue?_hexDigit, hexValue?_hexDigit, read]
  simp only [code]

lemma readGlyphs_char (visible : 0x20 ≤ c.toNat) (quote : c ≠ '"') (backslash : c ≠ '\\')
    (read : readGlyphs cs = some (glyphs, rest)) :
    readGlyphs (c :: cs) = some (.char c :: glyphs, rest) := by
  rw [readGlyphs, if_neg (not_or.mpr ⟨Nat.not_lt.mpr visible, backslash⟩), read]
  · rfl
  · exact quote
  · exact fun _ _ _ _ _ same => absurd same backslash
  · exact fun _ _ same => absurd same backslash

/-- A unit that is not half of a pair stands for its character. -/
lemma glyphText?_unit {a : Nat} (small : a < 0x20) (glyphs : List Glyph) :
    glyphText? (.unit a :: glyphs) = (glyphText? glyphs).map (Char.ofNat a :: ·) := by
  have high : ¬ (0xD800 ≤ a ∧ a < 0xDC00) := by omega
  have low : ¬ (0xDC00 ≤ a ∧ a < 0xE000) := by omega
  have either : ¬ (0xD800 ≤ a ∧ a < 0xE000) := by omega
  rcases glyphs with _ | ⟨c | b, glyphs⟩
  · rw [glyphText?.eq_def]
    exact if_neg either
  · rw [glyphText?.eq_def]
    exact if_neg either
  · rw [glyphText?.eq_def]
    exact (if_neg high).trans (if_neg low)

/-- A character reads back from what is written for it. -/
lemma readGlyphs_escapeChar (c : Char) (read : readGlyphs cs = some (glyphs, rest)) :
    ∃ glyph, readGlyphs (escapeChar c ++ cs) = some (glyph :: glyphs, rest) ∧
      glyphText? (glyph :: glyphs) = (glyphText? glyphs).map (c :: ·) := by
  obtain ⟨letter, written, other, stands⟩ | ⟨written, control⟩ | ⟨written, visible, quote, backslash⟩ :=
    escapeChar_cases c
  · rw [written]
    exact ⟨.char c, readGlyphs_letter other stands read, by rw [glyphText?]⟩
  · rw [written]
    refine ⟨.unit c.toNat, readGlyphs_unit control read, ?_⟩
    rw [glyphText?_unit control, Char.ofNat_toNat]
  · rw [written]
    exact ⟨.char c, readGlyphs_char visible quote backslash read, by rw [glyphText?]⟩

/-- A text reads back from what is written for it. -/
lemma readGlyphs_escaped (cs rest : List Char) :
    ∃ glyphs, readGlyphs (cs.flatMap escapeChar ++ '"' :: rest) = some (glyphs, rest) ∧
      glyphText? glyphs = some cs := by
  induction cs with
  | nil => exact ⟨[], by rw [List.flatMap_nil, List.nil_append, readGlyphs], rfl⟩
  | cons c cs ih =>
    obtain ⟨glyphs, read, text⟩ := ih
    obtain ⟨glyph, first, stands⟩ := readGlyphs_escapeChar c read
    refine ⟨glyph :: glyphs, ?_, ?_⟩
    · rw [List.flatMap_cons, List.append_assoc, first]
    · rw [stands, text]
      rfl

lemma newline_not_mem_escapeChar (c : Char) : '\n' ∉ escapeChar c := by
  intro member
  obtain ⟨letter, written, other, stands⟩ | ⟨written, control⟩ | ⟨written, visible, _⟩ := escapeChar_cases c
  · rw [written] at member
    simp only [List.mem_cons, List.not_mem_nil, or_false, Char.reduceEq, false_or] at member
    rw [← member] at stands
    exact absurd stands nofun
  · have digit (n : Nat) : '\n' ≠ hexDigit n := by
      have all : ∀ d < 16, '\n' ≠ Nat.digitChar d := by decide
      exact all (n % 16) (Nat.mod_lt _ (by decide))
    rw [written] at member
    simp only [List.mem_cons, List.not_mem_nil, or_false, Char.reduceEq, digit] at member
  · rw [written, List.mem_singleton] at member
    rw [← member] at visible
    exact absurd visible (by decide)

lemma newline_not_mem_quote (s : String) : '\n' ∉ quote s := by
  unfold quote
  simp only [List.mem_cons, List.mem_append, List.mem_flatMap, List.not_mem_nil, or_false, Char.reduceEq, false_or,
    not_exists, not_and]
  exact fun c _ => newline_not_mem_escapeChar c

end Strings

/-! ## Numbers -/

section Numbers

variable {cs rest : List Char} {n : Nat}

/-- A text that does not go on with a number. -/
def Closed (rest : List Char) : Prop :=
  ∀ c, rest.head? = some c → c.isDigit = false ∧ c ≠ '.' ∧ c ≠ 'e' ∧ c ≠ 'E'

lemma closed_nil : Closed [] := nofun

lemma closed_cons {c : Char} (rest : List Char) (mark : c.isDigit = false ∧ c ≠ '.' ∧ c ≠ 'e' ∧ c ≠ 'E') :
    Closed (c :: rest) := by
  intro first same
  rw [← Option.some.inj same]
  exact mark

/-- A run of digits is read up to its end. -/
lemma readDigits_append (digits : ∀ c ∈ cs, c.isDigit = true) (closed : Closed rest) :
    readDigits (cs ++ rest) = (cs, rest) := by
  unfold readDigits
  rw [List.takeWhile_append_of_pos digits, List.dropWhile_append_of_pos digits]
  cases rest with
  | nil => rw [List.takeWhile_nil, List.dropWhile_nil, List.append_nil]
  | cons c rest =>
    have other : ¬ c.isDigit = true := by simp only [(closed c rfl).1, Bool.false_eq_true, not_false_eq_true]
    rw [List.takeWhile_cons_of_neg other, List.dropWhile_cons_of_neg other, List.append_nil]

lemma readFraction?_of_closed (closed : Closed rest) : readFraction? rest = some (none, rest) := by
  rw [readFraction?]
  rintro rest rfl
  exact (closed '.' rfl).2.1 rfl

lemma readExponent?_of_closed (closed : Closed rest) : readExponent? rest = some (none, rest) := by
  cases rest with
  | nil => rfl
  | cons c rest =>
    obtain ⟨_, _, lower, upper⟩ := closed c rfl
    rw [readExponent?, if_neg (not_or.mpr ⟨lower, upper⟩)]

/-- A number that is not zero does not begin with a zero. -/
lemma toDigits_ne_zero (positive : 0 < n) (tail : List Char) : Nat.toDigits 10 n ≠ '0' :: tail := by
  induction n using Nat.strongRecOn generalizing tail with
  | ind n ih =>
    intro same
    rcases Nat.lt_or_ge n 10 with small | large
    · have others : ∀ d < 10, 0 < d → Nat.digitChar d ≠ '0' := by decide
      rw [Nat.toDigits_of_lt_base small] at same
      exact others n small positive (List.cons.inj same).1
    · rw [Nat.toDigits_of_base_le (by decide) large] at same
      cases digits : Nat.toDigits 10 (n / 10) with
      | nil => exact Nat.toDigits_ne_nil digits
      | cons d ds =>
        rw [digits, List.cons_append] at same
        rw [(List.cons.inj same).1] at digits
        exact ih (n / 10) (by omega) (by omega) ds digits

/-- Reads a number after its sign. -/
def readUnsigned? (negative : Bool) (cs : List Char) : Option (Numeral × List Char) :=
  match readDigits cs with
  | ([], _) => none
  | ('0' :: _ :: _, _) => none
  | (whole, rest) =>
    match readFraction? rest with
    | none => none
    | some (fraction, rest) =>
      match readExponent? rest with
      | none => none
      | some (exponent, rest) => some (⟨negative, whole, fraction, exponent⟩, rest)

lemma readNumeral?_minus (cs : List Char) : readNumeral? ('-' :: cs) = readUnsigned? true cs := rfl

lemma readNumeral?_unsigned (unsigned : ∀ rest, cs ≠ '-' :: rest) : readNumeral? cs = readUnsigned? false cs := by
  unfold readNumeral?
  split
  rename_i same
  split at same
  · exact absurd rfl (unsigned _)
  · obtain ⟨rfl, rfl⟩ := Prod.mk.inj same
    rfl

/-- Digits without an idle zero are read as they are written. -/
lemma readUnsigned?_digits (negative : Bool) (digits : ∀ c ∈ cs, c.isDigit = true) (nonempty : cs ≠ [])
    (lean : ∀ tail, cs = '0' :: tail → tail = []) (closed : Closed rest) :
    readUnsigned? negative (cs ++ rest) = some (⟨negative, cs, none, none⟩, rest) := by
  unfold readUnsigned?
  rw [readDigits_append digits closed]
  -- There are digits, no zero stands before another digit, and nothing but the digits is read.
  split
  · rename_i same
    exact absurd (Prod.mk.inj same).1 nonempty
  · rename_i same
    exact absurd (lean _ (Prod.mk.inj same).1) nofun
  · rename_i same
    obtain ⟨rfl, rfl⟩ := Prod.mk.inj same
    simp only [readFraction?_of_closed closed, readExponent?_of_closed closed]

lemma le_ofDigitChars (cs : List Char) (acc : Nat) : acc ≤ Nat.ofDigitChars 10 cs acc := by
  rw [Nat.ofDigitChars_eq_ofDigitChars_zero]
  exact Nat.le_add_right_of_le (Nat.le_mul_of_pos_left acc (Nat.pow_pos (by decide)))

/-- Digits whose value fits are taken all. -/
lemma takeDigits_of_fits {acc : Nat} (fits : Nat.ofDigitChars 10 cs acc < UInt64.size) :
    Numeral.takeDigits acc cs = (Nat.ofDigitChars 10 cs acc, []) := by
  induction cs generalizing acc with
  | nil => rw [Nat.ofDigitChars_nil]; rfl
  | cons c cs ih =>
    rw [Nat.ofDigitChars_cons, Nat.mul_comm] at fits
    rw [Nat.ofDigitChars_cons, Nat.mul_comm, Numeral.takeDigits]
    have next : acc * 10 + Numeral.digitValue c < UInt64.size :=
      Nat.lt_of_le_of_lt (le_ofDigitChars cs _) fits
    exact (if_pos next).trans (ih fits)

lemma takeDigits_toDigits (fits : n < UInt64.size) : Numeral.takeDigits 0 (Nat.toDigits 10 n) = (n, []) := by
  have value : Nat.ofDigitChars 10 (Nat.toDigits 10 n) 0 = n := Nat.ofDigitChars_ten_toDigits
  rw [takeDigits_of_fits (value.symm ▸ fits :), value]

lemma number?_of_natural (fits : n < UInt64.size) :
    Numeral.number? ⟨false, Nat.toDigits 10 n, none, none⟩ = some (.integer n) := by
  unfold Numeral.number?
  simp only [takeDigits_toDigits fits]
  rfl

lemma number?_of_negative (positive : 0 < n) (fits : n ≤ 9223372036854775808) :
    Numeral.number? ⟨true, Nat.toDigits 10 n, none, none⟩ = some (.integer (-n)) := by
  have small : n < UInt64.size := Nat.lt_of_le_of_lt fits (by decide)
  have inside : ¬ (n = 0 ∨ 9223372036854775808 < n) := by omega
  unfold Numeral.number?
  simp only [takeDigits_toDigits small]
  exact (if_neg fun h => h rfl).trans ((if_neg Bool.false_ne_true).trans (if_neg inside))

lemma toList_ofNat (m : Nat) : (toString (Int.ofNat m)).toList = Nat.toDigits 10 m := Nat.toList_repr

lemma toList_negSucc (m : Nat) : (toString (Int.negSucc m)).toList = '-' :: Nat.toDigits 10 (m + 1) := by
  show ("-" ++ Nat.repr (m + 1)).toList = _
  rw [String.toList_append, Nat.toList_repr]
  rfl

lemma isDigit_of_mem_toDigits {m : Nat} {c : Char} (member : c ∈ Nat.toDigits 10 m) : c.isDigit = true :=
  Nat.isDigit_of_mem_toDigits (by decide) (by decide) member

lemma exists_toDigits (m : Nat) : ∃ c cs, Nat.toDigits 10 m = c :: cs ∧ c.isDigit = true := by
  obtain ⟨c, cs, digits⟩ := List.exists_cons_of_ne_nil (Nat.toDigits_ne_nil (n := m) (b := 10))
  have member : c ∈ Nat.toDigits 10 m := digits ▸ List.mem_cons_self
  exact ⟨c, cs, digits, isDigit_of_mem_toDigits member⟩

/-- The digits of a number are read as they are written. -/
lemma readUnsigned?_toDigits (negative : Bool) (m : Nat) (closed : Closed rest) :
    readUnsigned? negative (Nat.toDigits 10 m ++ rest) =
      some (⟨negative, Nat.toDigits 10 m, none, none⟩, rest) := by
  refine readUnsigned?_digits negative (fun _ => isDigit_of_mem_toDigits) Nat.toDigits_ne_nil (fun tail zero => ?_)
    closed
  rcases Nat.eq_zero_or_pos m with rfl | positive
  · rw [Nat.toDigits_zero] at zero
    exact (List.cons.inj zero).2.symm
  · exact absurd zero (toDigits_ne_zero positive tail)

/-- A whole number that fits reads back from its digits. -/
lemma readNumeral?_toString {n : Int} (low : -9223372036854775808 ≤ n) (high : n < 18446744073709551616)
    (closed : Closed rest) :
    ∃ numeral, readNumeral? ((toString n).toList ++ rest) = some (numeral, rest) ∧
      numeral.number? = some (.integer n) := by
  cases n with
  | ofNat m =>
    have unsigned (tail : List Char) : Nat.toDigits 10 m ++ rest ≠ '-' :: tail := by
      obtain ⟨c, cs, digits, digit⟩ := exists_toDigits m
      rw [digits]
      intro signed
      rw [(List.cons.inj signed).1] at digit
      exact absurd digit (by decide)
    rw [toList_ofNat, readNumeral?_unsigned unsigned]
    exact ⟨_, readUnsigned?_toDigits false m closed, number?_of_natural (Int.ofNat_lt.mp high)⟩
  | negSucc m =>
    rw [toList_negSucc, List.cons_append, readNumeral?_minus]
    exact ⟨_, readUnsigned?_toDigits true (m + 1) closed, number?_of_negative (Nat.succ_pos m) (by omega)⟩

end Numbers

/-! ## Values -/

section Values

variable {depth fuel : Nat} {j item : Json} {items : List Json} {entries : List (String × Json)}
variable {cs rest : List Char}

/-- A value whose numbers are whole and fit, and in which at most `depth` arrays and objects are nested. -/
inductive Plain : Nat → Json → Prop where
  | null {depth : Nat} : Plain depth .null
  | bool {depth : Nat} (b : Bool) : Plain depth (.bool b)
  | num {depth : Nat} {n : Int} : -9223372036854775808 ≤ n → n < 18446744073709551616 →
      Plain depth (.num (.integer n))
  | str {depth : Nat} (s : String) : Plain depth (.str s)
  | arr {depth : Nat} {items : List Json} : (∀ item ∈ items, Plain depth item) → Plain (depth + 1) (.arr items)
  | obj {depth : Nat} {entries : List (String × Json)} : (∀ entry ∈ entries, Plain depth entry.2) →
      Plain (depth + 1) (.obj entries)

/-- A value that reads back from its text, whatever follows. The text begins neither with a blank nor with the mark
that closes an array, so that it is seen where it stands. -/
structure Reads (depth : Nat) (j : Json) : Prop where
  starts : ∃ c cs, chars j = c :: cs ∧ isBlank c = false ∧ c ≠ ']'
  reads : ∀ fuel rest, (chars j).length ≤ fuel → Closed rest →
    ∃ t, readValue fuel (chars j ++ rest) = some (t, rest) ∧ t.valueWithin? depth = some j

lemma skipBlanks_mark {c : Char} (mark : isBlank c = false) (cs : List Char) : skipBlanks (c :: cs) = c :: cs :=
  List.dropWhile_cons_of_neg (by simp only [mark, Bool.false_eq_true, not_false_eq_true])

/-- Any text has a mark, so a step is left to read it. -/
lemma Reads.of_step (starts : ∃ c cs, chars j = c :: cs ∧ isBlank c = false ∧ c ≠ ']')
    (step : ∀ fuel rest, (chars j).length ≤ fuel + 1 → Closed rest →
      ∃ t, readValue (fuel + 1) (chars j ++ rest) = some (t, rest) ∧ t.valueWithin? depth = some j) :
    Reads depth j where
  starts := starts
  reads fuel rest enough closed := by
    cases fuel with
    | zero =>
      obtain ⟨c, cs, written, _⟩ := starts
      rw [written] at enough
      exact absurd enough (Nat.not_succ_le_zero _)
    | succ fuel => exact step fuel rest enough closed

lemma reads_null : Reads depth .null := by
  refine .of_step ⟨_, _, rfl, by decide, by decide⟩ fun fuel rest _ _ => ⟨.null, ?_, rfl⟩
  rw [chars, readValue]
  rfl

lemma reads_bool (b : Bool) : Reads depth (.bool b) := by
  cases b with
  | true =>
    refine .of_step ⟨_, _, rfl, by decide, by decide⟩ fun fuel rest _ _ => ⟨.bool true, ?_, rfl⟩
    rw [chars, readValue]
    rfl
  | false =>
    refine .of_step ⟨_, _, rfl, by decide, by decide⟩ fun fuel rest _ _ => ⟨.bool false, ?_, rfl⟩
    rw [chars, readValue]
    rfl

lemma reads_str (s : String) : Reads depth (.str s) := by
  refine .of_step ⟨_, _, rfl, by decide, by decide⟩ fun fuel rest _ _ => ?_
  obtain ⟨glyphs, read, text⟩ := readGlyphs_escaped s.toList rest
  refine ⟨.str glyphs, ?_, ?_⟩
  · have written : chars (.str s) ++ rest = '"' :: (s.toList.flatMap escapeChar ++ '"' :: rest) := by
      rw [chars, quote, List.cons_append, List.append_assoc]
      rfl
    rw [written, readValue]
    exact congrArg (Option.map _) read
  · rw [valueWithin?, text, Option.map_some, String.ofList_toList]

lemma ne_of_number {c : Char} (mark : Char) (first : c.isDigit = true ∨ c = '-')
    (other : (mark.isDigit || mark == '-') = false) : c ≠ mark := by
  rintro rfl
  simp only [Bool.or_eq_false_iff, beq_eq_false_iff_ne, ne_eq] at other
  rcases first with digit | minus
  · exact absurd (digit.symm.trans other.1) nofun
  · exact other.2 minus

lemma isBlank_of_number {c : Char} (first : c.isDigit = true ∨ c = '-') : isBlank c = false := by
  unfold isBlank
  simp only [ne_of_number ' ' first (by decide), ne_of_number '\n' first (by decide),
    ne_of_number '\t' first (by decide), ne_of_number '\r' first (by decide), decide_false,
    Bool.or_self]

/-- What begins with a digit or a minus is read as a number. -/
lemma readValue_number {c : Char} (first : c.isDigit = true ∨ c = '-') :
    readValue (fuel + 1) (c :: cs) =
      (readNumeral? (c :: cs)).map fun (numeral, rest) => (.num numeral, rest) := by
  rw [readValue, skipBlanks_mark (isBlank_of_number first)]
  split
  case h_7 => rfl
  all_goals
    rename_i same
    exact absurd (List.cons.inj same).1 (ne_of_number _ first (by decide))

lemma toString_starts (n : Int) : ∃ c cs, (toString n).toList = c :: cs ∧ (c.isDigit = true ∨ c = '-') := by
  cases n with
  | ofNat m =>
    obtain ⟨c, cs, digits, digit⟩ := exists_toDigits m
    exact ⟨c, cs, (toList_ofNat m).trans digits, .inl digit⟩
  | negSucc m => exact ⟨'-', _, toList_negSucc m, .inr rfl⟩

lemma reads_num {n : Int} (low : -9223372036854775808 ≤ n) (high : n < 18446744073709551616) :
    Reads depth (.num (.integer n)) := by
  obtain ⟨c, cs, written, first⟩ := toString_starts n
  refine .of_step ⟨c, cs, written, isBlank_of_number first, ne_of_number _ first (by decide)⟩
    fun fuel rest _ closed => ?_
  obtain ⟨numeral, read, value⟩ := readNumeral?_toString low high closed
  refine ⟨.num numeral, ?_, ?_⟩
  · show readValue (fuel + 1) ((toString n).toList ++ rest) = _
    rw [written] at read ⊢
    rw [List.cons_append, readValue_number first]
    exact congrArg (Option.map _) read
  · rw [valueWithin?, value, Option.map_some]

/-! ### Arrays and objects -/

/-- The items of an array read back if each of them does. -/
lemma readItems_chars (rest : List Char) (reads : ∀ j ∈ item :: items, Reads depth j)
    (enough : (chars item ++ charsOfItems items).length ≤ fuel) :
    ∃ ts, readItems fuel (chars item ++ (charsOfItems items ++ rest)) = some (ts, rest) ∧
      itemsWithin? depth ts = some (item :: items) := by
  induction items generalizing item fuel with
  | nil =>
    simp only [charsOfItems, List.length_append, List.length_cons, List.length_nil] at enough
    obtain ⟨fuel, rfl⟩ := Nat.exists_eq_add_one_of_ne_zero (show fuel ≠ 0 by omega)
    obtain ⟨t, read, value⟩ := (reads item List.mem_cons_self).reads fuel (']' :: rest) (by omega)
      (closed_cons _ (by decide))
    refine ⟨[t], ?_, ?_⟩
    · rw [charsOfItems, List.singleton_append, readItems, read]
      rfl
    · rw [itemsWithin?, value]
      rfl
  | cons next items ih =>
    simp only [charsOfItems, List.length_append, List.length_cons] at enough
    obtain ⟨fuel, rfl⟩ := Nat.exists_eq_add_one_of_ne_zero (show fuel ≠ 0 by omega)
    -- The first item is read up to the comma, and what is left is again a list with one item at least.
    let others := chars next ++ (charsOfItems items ++ rest)
    obtain ⟨t, read, value⟩ := (reads item List.mem_cons_self).reads fuel (',' :: others) (by omega)
      (closed_cons _ (by decide))
    obtain ⟨ts, more, values⟩ := ih (fun j member => reads j (List.mem_cons_of_mem _ member))
      (show (chars next ++ charsOfItems items).length ≤ fuel by rw [List.length_append]; omega)
    refine ⟨t :: ts, ?_, ?_⟩
    · rw [charsOfItems, List.cons_append, List.append_assoc, readItems, read]
      exact congrArg (Option.map _) more
    · rw [itemsWithin?, value, values]

/-- Reads what follows an entry of an object: more entries after a comma, or the closing brace. -/
def readOthers (fuel : Nat) (entry : List Glyph × Tree) (rest : List Char) :
    Option (List (List Glyph × Tree) × List Char) :=
  match skipBlanks rest with
  | ',' :: rest => (readEntries fuel rest).map fun (entries, rest) => (entry :: entries, rest)
  | '\x7d' :: rest => some ([entry], rest)
  | _ => none

lemma readOthers_brace (fuel : Nat) (entry : List Glyph × Tree) (rest : List Char) :
    readOthers fuel entry ('\x7d' :: rest) = some ([entry], rest) := rfl

lemma readOthers_comma (fuel : Nat) (entry : List Glyph × Tree) (rest : List Char) :
    readOthers fuel entry (',' :: rest) =
      (readEntries fuel rest).map fun (entries, rest) => (entry :: entries, rest) := rfl

/-- An entry of an object reads back if its value does. -/
lemma readEntries_entry (name : String) (reads : Reads depth item) (enough : (chars item).length ≤ fuel)
    (closed : Closed rest) :
    ∃ glyphs t, glyphText? glyphs = some name.toList ∧ t.valueWithin? depth = some item ∧
      readEntries (fuel + 1) (quote name ++ ':' :: (chars item ++ rest)) = readOthers fuel (glyphs, t) rest := by
  obtain ⟨glyphs, named, text⟩ := readGlyphs_escaped name.toList (':' :: (chars item ++ rest))
  obtain ⟨t, read, value⟩ := reads.reads fuel rest enough closed
  refine ⟨glyphs, t, text, value, ?_⟩
  have written : quote name ++ ':' :: (chars item ++ rest) =
      '"' :: (name.toList.flatMap escapeChar ++ '"' :: ':' :: (chars item ++ rest)) := by
    rw [quote, List.cons_append, List.append_assoc]
    rfl
  rw [written, readEntries, skipBlanks_mark (by decide)]
  simp only [named, skipBlanks_mark (show isBlank ':' = false by decide), read]
  rfl

/-- The entries of an object read back if each of their values does. -/
lemma readEntries_chars {name : String} (rest : List Char)
    (reads : ∀ entry ∈ (name, item) :: entries, Reads depth entry.2)
    (enough : (quote name ++ ':' :: (chars item ++ charsOfEntries entries)).length ≤ fuel) :
    ∃ ts, readEntries fuel (quote name ++ ':' :: (chars item ++ (charsOfEntries entries ++ rest))) = some (ts, rest) ∧
      entriesWithin? depth ts = some ((name, item) :: entries) := by
  induction entries generalizing name item fuel with
  | nil =>
    simp only [charsOfEntries, List.length_append, List.length_cons, List.length_nil] at enough
    obtain ⟨fuel, rfl⟩ := Nat.exists_eq_add_one_of_ne_zero (show fuel ≠ 0 by omega)
    obtain ⟨glyphs, t, text, value, read⟩ := readEntries_entry name (reads _ List.mem_cons_self)
      (show (chars item).length ≤ fuel by omega) (closed_cons (c := '\x7d') rest (by decide))
    refine ⟨[(glyphs, t)], ?_, ?_⟩
    · rw [charsOfEntries, List.singleton_append, read, readOthers_brace]
    · rw [entriesWithin?, text, value]
      simp only [entriesWithin?, String.ofList_toList]
  | cons next entries ih =>
    obtain ⟨name', item'⟩ := next
    simp only [charsOfEntries, List.length_append, List.length_cons] at enough
    obtain ⟨fuel, rfl⟩ := Nat.exists_eq_add_one_of_ne_zero (show fuel ≠ 0 by omega)
    let others := quote name' ++ ':' :: (chars item' ++ (charsOfEntries entries ++ rest))
    obtain ⟨glyphs, t, text, value, read⟩ := readEntries_entry name (reads _ List.mem_cons_self)
      (show (chars item).length ≤ fuel by omega) (closed_cons (c := ',') others (by decide))
    obtain ⟨ts, more, values⟩ := ih (fun j member => reads j (List.mem_cons_of_mem _ member))
      (show (quote name' ++ ':' :: (chars item' ++ charsOfEntries entries)).length ≤ fuel by
        simp only [List.length_append, List.length_cons]; omega)
    refine ⟨(glyphs, t) :: ts, ?_, ?_⟩
    · have written : charsOfEntries ((name', item') :: entries) ++ rest = ',' :: others := by
        rw [charsOfEntries, List.cons_append, List.append_assoc, List.cons_append, List.append_assoc]
      rw [written, read, readOthers_comma, more, Option.map_some]
    · rw [entriesWithin?, text, value, values]
      simp only [String.ofList_toList]

/-- What stands after an opening bracket and is not blank is read as items, unless it closes the array. -/
lemma readValue_arr {c : Char} (blank : isBlank c = false) (other : c ≠ ']') :
    readValue (fuel + 1) ('[' :: c :: cs) = (readItems fuel (c :: cs)).map fun (items, rest) => (.arr items, rest) := by
  rw [readValue, skipBlanks_mark (by decide)]
  simp only [skipBlanks_mark blank]
  split
  · rename_i same
    exact absurd (List.cons.inj same).1 other
  · rfl

/-- What begins with a name after an opening brace is read as entries. -/
lemma readValue_obj (name : String) :
    readValue (fuel + 1) ('\x7b' :: (quote name ++ cs)) =
      (readEntries fuel (quote name ++ cs)).map fun (entries, rest) => (.obj entries, rest) := by
  rw [readValue, skipBlanks_mark (by decide), quote, List.cons_append]
  simp only [skipBlanks_mark (show isBlank '"' = false by decide)]
  rfl

lemma reads_arr (reads : ∀ item ∈ items, Reads depth item) : Reads (depth + 1) (.arr items) := by
  cases items with
  | nil =>
    refine .of_step ⟨_, _, rfl, by decide, by decide⟩ fun fuel rest _ _ => ⟨.arr [], ?_, rfl⟩
    rw [chars, readValue]
    rfl
  | cons item items =>
    refine .of_step ⟨_, _, rfl, by decide, by decide⟩ fun fuel rest enough _ => ?_
    obtain ⟨ts, read, values⟩ := readItems_chars rest reads
      (show (chars item ++ charsOfItems items).length ≤ fuel from Nat.le_of_succ_le_succ enough)
    obtain ⟨c, cs, written, blank, other⟩ := (reads item List.mem_cons_self).starts
    refine ⟨.arr ts, ?_, ?_⟩
    · rw [written, List.cons_append] at read
      rw [chars, written]
      simp only [List.cons_append, List.append_assoc]
      rw [readValue_arr blank other, read]
      rfl
    · rw [valueWithin?, values, Option.map_some]

lemma reads_obj (reads : ∀ entry ∈ entries, Reads depth entry.2) : Reads (depth + 1) (.obj entries) := by
  cases entries with
  | nil =>
    refine .of_step ⟨_, _, rfl, by decide, by decide⟩ fun fuel rest _ _ => ⟨.obj [], ?_, rfl⟩
    rw [chars, readValue]
    rfl
  | cons entry entries =>
    obtain ⟨name, item⟩ := entry
    refine .of_step ⟨_, _, rfl, by decide, by decide⟩ fun fuel rest enough _ => ?_
    obtain ⟨ts, read, values⟩ := readEntries_chars rest reads
      (show (quote name ++ ':' :: (chars item ++ charsOfEntries entries)).length ≤ fuel from
        Nat.le_of_succ_le_succ enough)
    refine ⟨.obj ts, ?_, ?_⟩
    · rw [chars, List.cons_append, List.append_assoc, List.cons_append, List.append_assoc, readValue_obj, read]
      rfl
    · rw [valueWithin?, values, Option.map_some]

/-- A plain value reads back from its text. -/
lemma Plain.reads (plain : Plain depth j) : Reads depth j := by
  induction plain with
  | null => exact reads_null
  | bool b => exact reads_bool b
  | num low high => exact reads_num low high
  | str s => exact reads_str s
  | arr items ih => exact reads_arr ih
  | obj entries ih => exact reads_obj ih

/-- The text of a plain value is read as a tree, and the tree has that value. -/
theorem Plain.parse (plain : Plain maxDepth j) : ∃ t, Tree.parse? (render j) = some t ∧ t.value? = some j := by
  obtain ⟨t, read, value⟩ := plain.reads.reads (2 * (chars j).length + 2) [] (by omega) closed_nil
  rw [List.append_nil] at read
  refine ⟨t, ?_, value⟩
  unfold Tree.parse?
  rw [render, String.toList_ofList]
  simp only [read]
  rfl

/-- A plain value reads back from its text. -/
theorem Plain.parse?_render (plain : Plain maxDepth j) : Json.parse? (render j) = some j := by
  obtain ⟨t, read, value⟩ := plain.parse
  rw [Json.parse?, read, Option.bind_some, value]

end Values

/-! ## Lines -/

section Lines

variable {depth : Nat} {j : Json} {items : List Json} {entries : List (String × Json)}

lemma newline_not_mem_number (n : Int) : '\n' ∉ (toString n).toList := by
  have digits (m : Nat) : '\n' ∉ Nat.toDigits 10 m := fun member =>
    absurd (isDigit_of_mem_toDigits member) (by decide)
  cases n with
  | ofNat m =>
    rw [toList_ofNat]
    exact digits m
  | negSucc m =>
    rw [toList_negSucc, List.mem_cons, not_or]
    exact ⟨by decide, digits (m + 1)⟩

lemma newline_not_mem_items (lines : ∀ item ∈ items, '\n' ∉ chars item) : '\n' ∉ charsOfItems items := by
  induction items with
  | nil => decide
  | cons item items ih =>
    rw [charsOfItems, List.mem_cons, List.mem_append, not_or, not_or]
    obtain ⟨first, others⟩ := List.forall_mem_cons.mp lines
    exact ⟨by decide, first, ih others⟩

lemma newline_not_mem_entries (lines : ∀ entry ∈ entries, '\n' ∉ chars entry.2) :
    '\n' ∉ charsOfEntries entries := by
  induction entries with
  | nil => decide
  | cons entry entries ih =>
    obtain ⟨name, item⟩ := entry
    obtain ⟨first, others⟩ := List.forall_mem_cons.mp lines
    rw [charsOfEntries, List.mem_cons, List.mem_append, List.mem_cons, List.mem_append]
    simp only [not_or]
    exact ⟨by decide, newline_not_mem_quote name, by decide, first, ih others⟩

/-- The text of a plain value is one line. -/
theorem Plain.newline_not_mem (plain : Plain depth j) : '\n' ∉ chars j := by
  induction plain with
  | null => decide
  | bool b => cases b <;> decide
  | num low high => exact newline_not_mem_number _
  | str s => exact newline_not_mem_quote s
  | @arr _ items _ ih =>
    cases items with
    | nil => decide
    | cons item items =>
      obtain ⟨first, others⟩ := List.forall_mem_cons.mp ih
      rw [chars, List.mem_cons, List.mem_append, not_or, not_or]
      exact ⟨by decide, first, newline_not_mem_items others⟩
  | @obj _ entries _ ih =>
    cases entries with
    | nil => decide
    | cons entry entries =>
      obtain ⟨name, item⟩ := entry
      obtain ⟨first, others⟩ := List.forall_mem_cons.mp ih
      rw [chars, List.mem_cons, List.mem_append, List.mem_cons, List.mem_append]
      simp only [not_or]
      exact ⟨by decide, newline_not_mem_quote name, by decide, first, newline_not_mem_entries others⟩

end Lines

end RideDispatch.Json

/-
Python's `str` as the list of its code points, with the two Unicode classes the
repository relies on: what `str.strip` removes and what `\d` matches in a `str`
pattern. The tables are those of the interpreter in the Dockerfile, Python 3.11.
-/

import Bistland.Library.Text
import Mathlib.Data.Nat.Digits.Lemmas

namespace Bistland

/-- Lone surrogates are code points of a Python text, so this is not `Char`. -/
abbrev CodePoint := Fin 0x110000

instance neZero_codePoints : NeZero 0x110000 :=
  ⟨Nat.succ_ne_zero _⟩

abbrev Str := List CodePoint

/-- The Python text spelled by a source literal. -/
def text (literal : String) : Str :=
  literal.toList.map (fun symbol => Fin.ofNat 0x110000 symbol.toNat)

namespace Python

def whitespace : List Nat :=
  [0x09, 0x0A, 0x0B, 0x0C, 0x0D, 0x1C, 0x1D, 0x1E, 0x1F, 0x20, 0x85, 0xA0, 0x1680,
    0x2000, 0x2001, 0x2002, 0x2003, 0x2004, 0x2005, 0x2006, 0x2007, 0x2008, 0x2009, 0x200A,
    0x2028, 0x2029, 0x202F, 0x205F, 0x3000]

/-- `str.isspace` of a single code point. -/
def isSpace (symbol : CodePoint) : Bool :=
  whitespace.contains symbol.val

def strip (value : Str) : Str :=
  Text.strip isSpace value

/-- The zeros of the category Nd, each followed by its nine other digits. -/
def decimalZeros : List Nat :=
  [0x30, 0x660, 0x6F0, 0x7C0, 0x966, 0x9E6, 0xA66, 0xAE6, 0xB66, 0xBE6, 0xC66, 0xCE6, 0xD66,
    0xDE6, 0xE50, 0xED0, 0xF20, 0x1040, 0x1090, 0x17E0, 0x1810, 0x1946, 0x19D0, 0x1A80, 0x1A90,
    0x1B50, 0x1BB0, 0x1C40, 0x1C50, 0xA620, 0xA8D0, 0xA900, 0xA9D0, 0xA9F0, 0xAA50, 0xABF0,
    0xFF10] ++
  [0x104A0, 0x10D30, 0x11066, 0x110F0, 0x11136, 0x111D0, 0x112F0, 0x11450, 0x114D0,
    0x11650, 0x116C0, 0x11730, 0x118E0, 0x11950, 0x11C50, 0x11D50, 0x11DA0, 0x16A60, 0x16AC0,
    0x16B50, 0x1D7CE, 0x1D7D8, 0x1D7E2, 0x1D7EC, 0x1D7F6, 0x1E140, 0x1E2F0, 0x1E950, 0x1FBF0]

/-- The decimal value of a code point of category Nd. -/
def decimalValue (symbol : CodePoint) : Option Nat :=
  (decimalZeros.find? (fun base => base ≤ symbol.val && symbol.val < base + 10)).map
    (fun base => symbol.val - base)

def isDecimal (symbol : CodePoint) : Bool :=
  (decimalValue symbol).isSome

def isAsciiDigit (symbol : CodePoint) : Bool :=
  0x30 ≤ symbol.val && symbol.val < 0x3A

def newline : CodePoint := 0x0A

/-- `re` on `str` patterns without flags: `\d` is the category Nd, and `$` also
matches before a final newline. -/
def re : Text.Dialect CodePoint :=
  { digit := isDecimal
    stop := fun rest => rest == [] || rest == [newline] }

/-- The number a run of decimal digits denotes, other symbols skipped. -/
def number (value : Str) : Nat :=
  Nat.ofDigits 10 (value.filterMap decimalValue).reverse

def strNat (value : Nat) : Str :=
  (Nat.toDigits 10 value).map (fun symbol => Fin.ofNat 0x110000 symbol.toNat)

def strInt : Int → Str
  | .ofNat value => strNat value
  | .negSucc value => text "-" ++ strNat (value + 1)

/-- A `float` by its `repr`: a sign, the whole part, and the fraction or exponent shown. -/
inductive PyFloat where
  | nan
  | infinite (negative : Bool)
  | finite (negative : Bool) (whole : Nat) (fraction : Option (List (Fin 10)))
      (exponent : Option Int)

def strSign (negative : Bool) : Str :=
  if negative then text "-" else []

/-- The sign and at least two digits of a shown exponent. -/
def strExponent (exponent : Int) : Str :=
  (if exponent < 0 then text "-" else text "+") ++
    ((if exponent.natAbs < 10 then text "0" else []) ++ strNat exponent.natAbs)

def strFloat : PyFloat → Str
  | .nan => text "nan"
  | .infinite negative => strSign negative ++ text "inf"
  | .finite negative whole fraction exponent =>
      strSign negative ++ (strNat whole ++
        ((fraction.elim [] (fun digits => text "." ++ digits.flatMap (fun digit => strNat digit.val))) ++
          (exponent.elim [] (fun shown => text "e" ++ strExponent shown))))

/-! ### What the classes contain -/

theorem strip_idempotent (value : Str) : strip (strip value) = strip value :=
  Text.strip_idempotent isSpace value

theorem isSpace_newline : isSpace newline = true := by decide

theorem decimalValue_of_ascii (symbol : CodePoint) (ascii : isAsciiDigit symbol = true) :
    decimalValue symbol = some (symbol.val - 0x30) := by
  have within : (decide (0x30 ≤ symbol.val) && decide (symbol.val < 0x30 + 10)) = true := ascii
  have found : decimalZeros.find? (fun base => base ≤ symbol.val && symbol.val < base + 10) =
      some 0x30 := List.find?_cons_of_pos within
  unfold decimalValue
  rw [found]
  rfl

theorem isDecimal_of_ascii (symbol : CodePoint) (ascii : isAsciiDigit symbol = true) :
    isDecimal symbol = true := by
  unfold isDecimal
  rw [decimalValue_of_ascii symbol ascii]
  rfl

theorem isSpace_of_isDecimal (symbol : CodePoint) (decimal : isDecimal symbol = true) :
    isSpace symbol = false := by
  unfold isDecimal decimalValue at decimal
  rw [Option.isSome_map, List.find?_isSome] at decimal
  obtain ⟨base, member, within⟩ := decimal
  have bounds : base ≤ symbol.val ∧ symbol.val < base + 10 := by
    simpa only [Bool.and_eq_true, decide_eq_true_eq] using within
  have apart : ∀ blank ∈ whitespace, ∀ base ∈ decimalZeros, blank < base ∨ base + 10 ≤ blank := by
    decide
  cases space : isSpace symbol with
  | false => rfl
  | true =>
      have blank := apart symbol.val (List.contains_iff_mem.mp space) base member
      omega

theorem decimalValue_lt (symbol : CodePoint) (value : Nat)
    (valued : decimalValue symbol = some value) : value < 10 := by
  unfold decimalValue at valued
  obtain ⟨base, found, same⟩ := Option.map_eq_some_iff.mp valued
  have within := List.find?_some found
  simp only [Bool.and_eq_true, decide_eq_true_eq] at within
  omega

/-- The text begins with a symbol that is neither a plus sign nor trimmed. -/
def Unsigned (shown : Str) : Prop :=
  ∃ first rest, shown = first :: rest ∧ first ≠ 0x2B ∧ isSpace first = false

theorem strNat_unsigned (value : Nat) : Unsigned (strNat value) := by
  unfold strNat
  cases shown : Nat.toDigits 10 value with
  | nil => exact False.elim (Nat.toDigits_ne_nil shown)
  | cons symbol rest =>
      have member : symbol ∈ Nat.toDigits 10 value := by
        rw [shown]
        exact List.mem_cons_self
      have digit := Nat.isDigit_of_mem_toDigits (by decide) (by decide) member
      have bounds : 48 ≤ symbol.toNat ∧ symbol.toNat ≤ 57 := by
        simp only [Char.isDigit, Bool.and_eq_true, decide_eq_true_eq, ge_iff_le,
          UInt32.le_iff_toNat_le] at digit
        exact digit
      have code : (Fin.ofNat 0x110000 symbol.toNat).val = symbol.toNat :=
        Nat.mod_eq_of_lt (by omega)
      have ascii : isAsciiDigit (Fin.ofNat 0x110000 symbol.toNat) = true := by
        unfold isAsciiDigit
        rw [code, Bool.and_eq_true, decide_eq_true_eq, decide_eq_true_eq]
        omega
      refine ⟨Fin.ofNat 0x110000 symbol.toNat, _, rfl, ?_, ?_⟩
      · intro plus
        have same := congrArg Fin.val plus
        rw [code] at same
        change symbol.toNat = 0x2B at same
        omega
      · exact isSpace_of_isDecimal _ (isDecimal_of_ascii _ ascii)

theorem strInt_unsigned (value : Int) : Unsigned (strInt value) := by
  cases value with
  | ofNat value => exact strNat_unsigned value
  | negSucc value => exact ⟨0x2D, strNat (value + 1), rfl, by decide, by decide⟩

theorem strFloat_unsigned (value : PyFloat) : Unsigned (strFloat value) := by
  cases value with
  | nan => exact ⟨_, _, rfl, by decide, by decide⟩
  | infinite negative =>
      cases negative with
      | false => exact ⟨_, _, rfl, by decide, by decide⟩
      | true => exact ⟨_, _, rfl, by decide, by decide⟩
  | finite negative whole fraction exponent =>
      cases negative with
      | true => exact ⟨_, _, rfl, by decide, by decide⟩
      | false =>
          obtain ⟨first, rest, shown, notPlus, graphic⟩ := strNat_unsigned whole
          simp only [strFloat, strSign, shown, List.nil_append, List.cons_append,
            Bool.false_eq_true, if_false]
          exact ⟨first, _, rfl, notPlus, graphic⟩

end Python

end Bistland

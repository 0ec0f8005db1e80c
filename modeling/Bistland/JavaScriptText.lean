/-
JavaScript's `String` as the list of its UTF-16 code units: `trim`, the classes of a
`RegExp` without flags, and the text a Python program reads from it.
-/

import Bistland.PythonText

namespace Bistland

abbrev CodeUnit := Fin 0x10000

instance neZero_codeUnits : NeZero 0x10000 :=
  ⟨Nat.succ_ne_zero _⟩

abbrev JsString := List CodeUnit

/-- The string spelled by an ASCII literal. -/
def codeUnits (literal : String) : JsString :=
  literal.toList.map (fun symbol => Fin.ofNat 0x10000 symbol.toNat)

namespace JavaScript

/-- WhiteSpace and LineTerminator. -/
def whiteSpace : List Nat :=
  [0x09, 0x0A, 0x0B, 0x0C, 0x0D, 0x20, 0xA0, 0x1680, 0x2000, 0x2001, 0x2002, 0x2003, 0x2004,
    0x2005, 0x2006, 0x2007, 0x2008, 0x2009, 0x200A, 0x2028, 0x2029, 0x202F, 0x205F, 0x3000,
    0xFEFF]

def isWhiteSpace (unit : CodeUnit) : Bool :=
  whiteSpace.contains unit.val

def trim (value : JsString) : JsString :=
  Text.strip isWhiteSpace value

def isDigit (unit : CodeUnit) : Bool :=
  0x30 ≤ unit.val && unit.val < 0x3A

/-- `RegExp` without flags: `\d` is 0 to 9, and `$` matches at the very end only. -/
def regExp : Text.Dialect CodeUnit :=
  { digit := isDigit
    stop := fun rest => rest == [] }

/-! ### The text of a string -/

def isHighSurrogate (unit : CodeUnit) : Bool :=
  0xD800 ≤ unit.val && unit.val < 0xDC00

def isLowSurrogate (unit : CodeUnit) : Bool :=
  0xDC00 ≤ unit.val && unit.val < 0xE000

def widen (unit : CodeUnit) : CodePoint :=
  Fin.ofNat 0x110000 unit.val

def pair (high low : CodeUnit) : CodePoint :=
  Fin.ofNat 0x110000 (0x10000 + (high.val - 0xD800) * 0x400 + (low.val - 0xDC00))

/-- What `JSON.stringify` and a JSON parser make of a string: a surrogate pair is one
code point, and a lone surrogate is kept. -/
def toText : JsString → Str
  | [] => []
  | [unit] => [widen unit]
  | unit :: low :: rest =>
      if isHighSurrogate unit && isLowSurrogate low then pair unit low :: toText rest
      else widen unit :: toText (low :: rest)

theorem widen_val (unit : CodeUnit) : (widen unit).val = unit.val :=
  Nat.mod_eq_of_lt (Nat.lt_trans unit.isLt (by decide))

theorem widen_injective : Function.Injective widen := by
  intro left right same
  apply Fin.ext
  rw [← widen_val left, ← widen_val right, same]

theorem toText_eq_map (value : JsString)
    (scalar : ∀ unit ∈ value, isHighSurrogate unit = false) : toText value = value.map widen := by
  induction value with
  | nil => rfl
  | cons unit rest ih =>
      have later := ih (fun other member => scalar other (List.mem_cons_of_mem unit member))
      cases rest with
      | nil => rfl
      | cons low after =>
          have lone := scalar unit List.mem_cons_self
          rw [toText, lone, Bool.false_and, if_neg Bool.false_ne_true, later]
          rfl

end JavaScript

end Bistland

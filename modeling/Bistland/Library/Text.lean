/-
Texts over an arbitrary alphabet: trimming, the first field of a separated
text, and choice-free anchored patterns. A dialect fixes what the digit class
and the end anchor of a pattern mean, so that one pattern can be read by two
engines.
-/

import Mathlib.Data.List.DropRight
import Mathlib.Tactic.Common

namespace Bistland.Text

variable {Symbol : Type}

/-! ### Trimming -/

def strip (removed : Symbol → Bool) (text : List Symbol) : List Symbol :=
  (text.dropWhile removed).rdropWhile removed

section Strip

variable (removed : Symbol → Bool)

@[simp] private theorem dropWhile_append_all (padding text : List Symbol)
    (blank : ∀ symbol ∈ padding, removed symbol = true) :
    (padding ++ text).dropWhile removed = text.dropWhile removed := by
  induction padding with
  | nil => rfl
  | cons symbol rest ih =>
      rw [List.cons_append, List.dropWhile_cons_of_pos (blank symbol List.mem_cons_self)]
      exact ih (fun later member => blank later (List.mem_cons_of_mem symbol member))

private theorem rdropWhile_append_all (text padding : List Symbol)
    (blank : ∀ symbol ∈ padding, removed symbol = true) :
    (text ++ padding).rdropWhile removed = text.rdropWhile removed := by
  rw [← List.reverse_reverse (text ++ padding), List.rdropWhile_reverse, List.reverse_append,
    dropWhile_append_all removed padding.reverse text.reverse
      (fun symbol member => blank symbol (List.mem_reverse.mp member)),
    ← List.rdropWhile_reverse, List.reverse_reverse]

theorem strip_append_left (padding text : List Symbol)
    (blank : ∀ symbol ∈ padding, removed symbol = true) :
    strip removed (padding ++ text) = strip removed text := by
  unfold strip
  rw [dropWhile_append_all removed padding text blank]

theorem strip_append_right (text padding : List Symbol)
    (blank : ∀ symbol ∈ padding, removed symbol = true) :
    strip removed (text ++ padding) = strip removed text := by
  unfold strip
  by_cases allBlank : text.dropWhile removed = []
  · have blankText := List.dropWhile_eq_nil_iff.mp allBlank
    rw [dropWhile_append_all removed text padding blankText, allBlank,
      List.dropWhile_eq_nil_iff.mpr blank]
  · rw [List.dropWhile_append, if_neg (by rwa [List.isEmpty_iff]),
      rdropWhile_append_all removed _ padding blank]

theorem strip_of_ends (text : List Symbol)
    (first : ∀ symbol ∈ text.head?, removed symbol = false)
    (last : ∀ symbol ∈ text.getLast?, removed symbol = false) :
    strip removed text = text := by
  unfold strip
  have kept : text.dropWhile removed = text := by
    cases text with
    | nil => rfl
    | cons symbol rest =>
        have stays : removed symbol = false := first symbol rfl
        exact List.dropWhile_cons_of_neg (by rw [stays]; exact Bool.false_ne_true)
  rw [kept, List.rdropWhile_eq_self_iff]
  intro nonempty
  have stays := last _ (List.getLast?_eq_some_getLast nonempty)
  rw [stays]
  exact Bool.false_ne_true

theorem strip_split (text : List Symbol) :
    ∃ before after, text = before ++ strip removed text ++ after ∧
      (∀ symbol ∈ before, removed symbol = true) ∧
      (∀ symbol ∈ after, removed symbol = true) := by
  refine ⟨text.takeWhile removed, (text.dropWhile removed).rtakeWhile removed, ?_, ?_, ?_⟩
  · rw [List.append_assoc, strip, List.rdropWhile_append_rtakeWhile,
      List.takeWhile_append_dropWhile]
  · intro symbol member
    exact List.mem_takeWhile_imp member
  · intro symbol member
    exact List.mem_rtakeWhile_imp member

theorem strip_head (text : List Symbol) :
    ∀ symbol ∈ (strip removed text).head?, removed symbol = false := by
  intro symbol member
  unfold strip at member
  have leading := List.rdropWhile_prefix removed (text.dropWhile removed)
  obtain ⟨after, whole⟩ := leading
  have firstKept : (text.dropWhile removed).head? = some symbol := by
    rw [← whole, List.head?_append, member]
    rfl
  have notRemoved := List.head?_dropWhile_not removed text
  rw [firstKept] at notRemoved
  simpa only [Bool.not_eq_true] using notRemoved

theorem strip_last (text : List Symbol) :
    ∀ symbol ∈ (strip removed text).getLast?, removed symbol = false := by
  intro symbol member
  have nonempty : strip removed text ≠ [] := by
    intro empty
    rw [empty] at member
    cases member
  have notRemoved := List.rdropWhile_last_not removed (text.dropWhile removed) nonempty
  have same : (strip removed text).getLast nonempty = symbol := by
    rw [List.getLast?_eq_some_getLast nonempty] at member
    exact Option.some.inj member
  have stays : ¬removed symbol = true := by
    rw [← same]
    exact notRemoved
  simpa only [Bool.not_eq_true] using stays

theorem strip_idempotent (text : List Symbol) :
    strip removed (strip removed text) = strip removed text :=
  strip_of_ends removed _ (strip_head removed text) (strip_last removed text)

end Strip

/-! ### The first field of a separated text -/

section Fields

variable [DecidableEq Symbol]

/-- The text before the first separator, the whole text when there is none. -/
def firstField (separator : Symbol) (text : List Symbol) : List Symbol :=
  text.takeWhile (fun symbol => decide (symbol ≠ separator))

theorem firstField_of_free (separator : Symbol) (text : List Symbol)
    (free : separator ∉ text) : firstField separator text = text := by
  apply List.takeWhile_eq_self_iff.mpr
  intro symbol member
  apply decide_eq_true
  intro same
  exact free (same ▸ member)

theorem firstField_append_separator (separator : Symbol) (text rest : List Symbol)
    (free : separator ∉ text) :
    firstField separator (text ++ separator :: rest) = text := by
  unfold firstField
  rw [List.takeWhile_append_of_pos, List.takeWhile_cons_of_neg, List.append_nil]
  · simp only [ne_eq, not_true_eq_false, decide_false, Bool.false_eq_true, not_false_eq_true]
  · intro symbol member
    apply decide_eq_true
    intro same
    exact free (same ▸ member)

theorem firstField_cases (separator : Symbol) (text : List Symbol) :
    (separator ∉ text ∧ firstField separator text = text) ∨
      ∃ rest, text = firstField separator text ++ separator :: rest ∧
        separator ∉ firstField separator text := by
  by_cases present : separator ∈ text
  · right
    obtain ⟨before, rest, whole, free⟩ := List.eq_append_cons_of_mem present
    refine ⟨rest, ?_, ?_⟩
    · rw [whole, firstField_append_separator separator before rest free]
    · rw [whole, firstField_append_separator separator before rest free]
      exact free
  · exact Or.inl ⟨present, firstField_of_free separator text present⟩

end Fields

/-! ### Anchored patterns -/

/-- Patterns without alternatives: at every position at most one way to go on. -/
inductive Pattern (Symbol : Type) where
  | start
  | stop
  | exactly (expected : Symbol)
  | digit
  | seq (first second : Pattern Symbol)
  | repeated (count : Nat) (pattern : Pattern Symbol)

/-- What the digit class contains and which remainders the end anchor accepts. -/
structure Dialect (Symbol : Type) where
  digit : Symbol → Bool
  stop : List Symbol → Bool

/-- A position in a text: what was read, latest first, and what follows. -/
structure Position (Symbol : Type) where
  consumed : List Symbol
  rest : List Symbol

def Position.take (accepts : Symbol → Bool) (position : Position Symbol) :
    Option (Position Symbol) :=
  match position.rest with
  | [] => none
  | symbol :: rest => if accepts symbol then some ⟨symbol :: position.consumed, rest⟩ else none

def iterate (step : Position Symbol → Option (Position Symbol)) :
    Nat → Position Symbol → Option (Position Symbol)
  | 0, position => some position
  | count + 1, position => (step position).bind (iterate step count)

section Matching

variable [DecidableEq Symbol] (dialect : Dialect Symbol)

def Dialect.advance (dialect : Dialect Symbol) :
    Pattern Symbol → Position Symbol → Option (Position Symbol)
  | .start, position => if position.consumed.isEmpty then some position else none
  | .stop, position => if dialect.stop position.rest then some position else none
  | .exactly expected, position => position.take (fun symbol => decide (symbol = expected))
  | .digit, position => position.take dialect.digit
  | .seq first second, position =>
      (dialect.advance first position).bind (dialect.advance second)
  | .repeated count pattern, position => iterate (dialect.advance pattern) count position

/-- A match that begins at the start of the text. -/
def Dialect.matchesAtStart (pattern : Pattern Symbol) (text : List Symbol) : Bool :=
  (dialect.advance pattern ⟨[], text⟩).isSome

/-- Spell out a text, then go on with a pattern. -/
def Pattern.literal : List Symbol → Pattern Symbol → Pattern Symbol
  | [], pattern => pattern
  | symbol :: spelled, pattern => .seq (.exactly symbol) (Pattern.literal spelled pattern)

/-- A literal at the start, a fixed number of digits, and the end anchor. -/
def Pattern.numbered (spelled : List Symbol) (count : Nat) : Pattern Symbol :=
  .seq .start (.literal spelled (.seq (.repeated count .digit) .stop))

omit [DecidableEq Symbol] in
theorem take_eq_some (accepts : Symbol → Bool) (position next : Position Symbol) :
    position.take accepts = some next ↔
      ∃ symbol, position.rest = symbol :: next.rest ∧ accepts symbol = true ∧
        next.consumed = symbol :: position.consumed := by
  rcases position with ⟨consumed, text⟩
  rcases next with ⟨after, remaining⟩
  cases text with
  | nil => simp only [Position.take, reduceCtorEq, false_and, exists_false]
  | cons symbol rest =>
      by_cases allowed : accepts symbol = true
      · simp only [Position.take, allowed, if_true, Option.some.injEq, Position.mk.injEq,
          List.cons.injEq]
        constructor
        · intro ⟨sameConsumed, sameRest⟩
          exact ⟨symbol, ⟨rfl, sameRest⟩, allowed, sameConsumed.symm⟩
        · intro ⟨other, ⟨sameSymbol, sameRest⟩, _, sameConsumed⟩
          subst other
          exact ⟨sameConsumed.symm, sameRest⟩
      · simp only [Position.take, allowed, if_false, Bool.false_eq_true, reduceCtorEq,
          List.cons.injEq, false_iff]
        intro ⟨other, ⟨sameSymbol, _⟩, accepted, _⟩
        subst other
        exact allowed accepted

omit [DecidableEq Symbol] in
theorem iterate_take (accepts : Symbol → Bool) (count : Nat) (position final : Position Symbol) :
    iterate (Position.take accepts) count position = some final ↔
      ∃ taken, taken.length = count ∧ (∀ symbol ∈ taken, accepts symbol = true) ∧
        position.rest = taken ++ final.rest ∧
        final.consumed = taken.reverse ++ position.consumed := by
  induction count generalizing position with
  | zero =>
      constructor
      · intro same
        cases same
        refine ⟨[], rfl, ?_, rfl, rfl⟩
        intro symbol absent
        cases absent
      · intro ⟨taken, empty, _, split, consumed⟩
        rw [List.eq_nil_of_length_eq_zero empty] at split consumed
        exact congrArg some (by cases position; cases final; cases split; cases consumed; rfl)
  | succ count ih =>
      change (position.take accepts).bind (iterate (Position.take accepts) count) = some final ↔ _
      rw [Option.bind_eq_some_iff]
      constructor
      · intro ⟨next, stepped, counted⟩
        obtain ⟨symbol, split, allowed, consumed⟩ := (take_eq_some accepts position next).mp stepped
        obtain ⟨taken, size, each, later, read⟩ := (ih next).mp counted
        refine ⟨symbol :: taken, ?_, ?_, ?_, ?_⟩
        · rw [List.length_cons, size]
        · intro other member
          rcases List.mem_cons.mp member with same | deeper
          · rw [same]
            exact allowed
          · exact each other deeper
        · rw [split, later, List.cons_append]
        · rw [read, consumed, List.reverse_cons, List.append_assoc, List.singleton_append]
      · intro ⟨taken, size, each, split, read⟩
        cases taken with
        | nil => cases size
        | cons symbol taken =>
            refine ⟨⟨symbol :: position.consumed, taken ++ final.rest⟩, ?_, ?_⟩
            · exact (take_eq_some accepts position _).mpr
                ⟨symbol, split, each symbol List.mem_cons_self, rfl⟩
            · apply (ih _).mpr
              refine ⟨taken, Nat.succ.inj size, ?_, rfl, ?_⟩
              · intro other member
                exact each other (List.mem_cons_of_mem symbol member)
              · rw [read, List.reverse_cons, List.append_assoc, List.singleton_append]

private theorem advance_literal (spelled : List Symbol) (pattern : Pattern Symbol)
    (position final : Position Symbol) :
    dialect.advance (.literal spelled pattern) position = some final ↔
      ∃ rest, position.rest = spelled ++ rest ∧
        dialect.advance pattern ⟨spelled.reverse ++ position.consumed, rest⟩ = some final := by
  induction spelled generalizing position with
  | nil =>
      constructor
      · intro found
        exact ⟨position.rest, rfl, found⟩
      · intro ⟨rest, same, found⟩
        change dialect.advance pattern position = some final
        rcases position with ⟨consumed, text⟩
        cases same
        exact found
  | cons symbol spelled ih =>
      change (position.take _).bind (dialect.advance (.literal spelled pattern)) = some final ↔ _
      rw [Option.bind_eq_some_iff]
      constructor
      · intro ⟨next, stepped, found⟩
        obtain ⟨read, split, same, consumed⟩ := (take_eq_some _ position next).mp stepped
        obtain ⟨rest, later, found⟩ := (ih next).mp found
        have sameSymbol : read = symbol := of_decide_eq_true same
        subst read
        refine ⟨rest, ?_, ?_⟩
        · rw [split, later, List.cons_append]
        · rw [consumed] at found
          rw [List.reverse_cons, List.append_assoc, List.singleton_append]
          exact found
      · intro ⟨rest, split, found⟩
        refine ⟨⟨symbol :: position.consumed, spelled ++ rest⟩, ?_, ?_⟩
        · exact (take_eq_some _ position _).mpr ⟨symbol, split, decide_eq_true rfl, rfl⟩
        · apply (ih _).mpr
          refine ⟨rest, rfl, ?_⟩
          rw [List.reverse_cons, List.append_assoc, List.singleton_append] at found
          exact found

private theorem advance_digits (count : Nat) (position final : Position Symbol) :
    dialect.advance (.seq (.repeated count .digit) .stop) position = some final ↔
      ∃ digits, digits.length = count ∧ (∀ symbol ∈ digits, dialect.digit symbol = true) ∧
        position.rest = digits ++ final.rest ∧ dialect.stop final.rest = true ∧
        final.consumed = digits.reverse ++ position.consumed := by
  change (iterate (Position.take dialect.digit) count position).bind
    (fun reached => if dialect.stop reached.rest then some reached else none) = some final ↔ _
  rw [Option.bind_eq_some_iff]
  constructor
  · intro ⟨reached, counted, stopped⟩
    obtain ⟨digits, size, each, split, consumed⟩ := (iterate_take _ count position reached).mp counted
    by_cases ends : dialect.stop reached.rest = true
    · rw [if_pos ends] at stopped
      cases stopped
      exact ⟨digits, size, each, split, ends, consumed⟩
    · rw [if_neg ends] at stopped
      cases stopped
  · intro ⟨digits, size, each, split, ends, consumed⟩
    exact ⟨final, (iterate_take _ count position final).mpr ⟨digits, size, each, split, consumed⟩,
      if_pos ends⟩

/-- The language of a numbered pattern: the literal, the digits, and a remainder
that the dialect's end anchor lets through. -/
theorem matchesAtStart_numbered (spelled : List Symbol) (count : Nat) (text : List Symbol) :
    dialect.matchesAtStart (.numbered spelled count) text = true ↔
      ∃ digits rest, text = spelled ++ (digits ++ rest) ∧ digits.length = count ∧
        (∀ symbol ∈ digits, dialect.digit symbol = true) ∧ dialect.stop rest = true := by
  change (dialect.advance (.literal spelled (.seq (.repeated count .digit) .stop))
    ⟨[], text⟩).isSome = true ↔ _
  rw [Option.isSome_iff_exists]
  constructor
  · intro ⟨final, found⟩
    obtain ⟨after, whole, found⟩ := (advance_literal dialect spelled _ _ final).mp found
    obtain ⟨digits, size, each, split, ends, _⟩ := (advance_digits dialect count _ final).mp found
    have split : after = digits ++ final.rest := split
    exact ⟨digits, final.rest, by rw [← split]; exact whole, size, each, ends⟩
  · intro ⟨digits, rest, whole, size, each, ends⟩
    refine ⟨⟨digits.reverse ++ (spelled.reverse ++ []), rest⟩, ?_⟩
    apply (advance_literal dialect spelled _ _ _).mpr
    refine ⟨digits ++ rest, whole, ?_⟩
    exact (advance_digits dialect count _ _).mpr ⟨digits, size, each, rfl, ends, rfl⟩

/-- A match that begins anywhere in the remaining text. -/
def Dialect.searchFrom (dialect : Dialect Symbol) (pattern : Pattern Symbol) :
    List Symbol → List Symbol → Bool
  | consumed, [] => (dialect.advance pattern ⟨consumed, []⟩).isSome
  | consumed, symbol :: rest =>
      (dialect.advance pattern ⟨consumed, symbol :: rest⟩).isSome ||
        dialect.searchFrom pattern (symbol :: consumed) rest

def Dialect.search (pattern : Pattern Symbol) (text : List Symbol) : Bool :=
  dialect.searchFrom pattern [] text

private theorem searchFrom_start (pattern : Pattern Symbol) (symbol : Symbol)
    (consumed text : List Symbol) :
    dialect.searchFrom (.seq .start pattern) (symbol :: consumed) text = false := by
  induction text generalizing symbol consumed with
  | nil => rfl
  | cons next rest ih =>
      change (false || dialect.searchFrom (.seq .start pattern) (next :: symbol :: consumed) rest) =
        false
      rw [ih]
      rfl

/-- A search for a pattern anchored at the start tries the start only. -/
theorem search_start (pattern : Pattern Symbol) (text : List Symbol) :
    dialect.search (.seq .start pattern) text =
      dialect.matchesAtStart (.seq .start pattern) text := by
  cases text with
  | nil => rfl
  | cons symbol rest =>
      unfold Dialect.search Dialect.searchFrom
      rw [searchFrom_start, Bool.or_false]
      rfl

end Matching

end Bistland.Text

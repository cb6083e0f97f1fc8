import IntervalCalc.Lexing.Location

/-! A moving place in a source text. -/

namespace IntervalCalc

/-- A text split at a place. The characters before the place are kept latest first; `mark` is an
earlier byte offset. -/
structure Cursor where
  passed : List Char
  rest : List Char
  location : Location
  mark : Nat
deriving DecidableEq

namespace Cursor

def ofList (text : List Char) : Cursor :=
  ⟨[], text, .start, 0⟩

def peek (cursor : Cursor) (k : Nat) : Option Char :=
  cursor.rest[k]?

def advance (cursor : Cursor) : Nat → Cursor
  | 0 => cursor
  | n + 1 =>
    match cursor with
    | ⟨_, [], _, _⟩ => cursor
    | ⟨passed, c :: rest, location, mark⟩ =>
      advance ⟨c :: passed, rest, location.after c, mark⟩ n

def advanceOver (cursor : Cursor) (lexeme : List Char) : Cursor :=
  cursor.advance lexeme.length

/-- Passes the next character if it is the given one. -/
def advanceIf? (cursor : Cursor) (c : Char) : Option Cursor :=
  if cursor.peek 0 == some c then some (cursor.advance 1) else none

/-- Passes the characters up to the first that fails the test, and counts them. -/
def advanceWhile (cursor : Cursor) (test : Char → Bool) : Nat × Cursor :=
  let count := (cursor.rest.takeWhile test).length
  (count, cursor.advance count)

def setMark (cursor : Cursor) : Cursor :=
  { cursor with mark := cursor.location.offset }

def isAtEnd (cursor : Cursor) : Bool :=
  cursor.rest.isEmpty

def source (cursor : Cursor) : List Char :=
  cursor.passed.reverse ++ cursor.rest

/-- Moves characters, `bytes` bytes in all, from a text onto the reversed text before it. -/
def splitAtByte (passed : List Char) : Nat → List Char → List Char × List Char
  | _, [] => (passed, [])
  | bytes, c :: rest =>
    if bytes == 0 then (passed, c :: rest)
    else splitAtByte (c :: passed) (bytes - c.utf8Size) rest

/-- The characters between the mark and the place. -/
def extract (cursor : Cursor) : List Char :=
  (splitAtByte [] (cursor.location.offset - cursor.mark) cursor.passed).1

/-- Goes to a place of the text. A mark beyond the place comes along. -/
def reset (cursor : Cursor) (place : Location) : Cursor :=
  let (passed, rest) := splitAtByte [] place.offset cursor.source
  ⟨passed, rest, place, min cursor.mark place.offset⟩

theorem rest_advance (cursor : Cursor) (n : Nat) :
    (cursor.advance n).rest = cursor.rest.drop n := by
  fun_induction cursor.advance n with
  | case1 => rfl
  | case2 => rfl
  | case3 n passed c rest location mark ih => exact ih

/-- The characters passed go in front of the reversed text before the place. -/
theorem passed_advance (cursor : Cursor) (n : Nat) :
    (cursor.advance n).passed = (cursor.rest.take n).reverse ++ cursor.passed := by
  fun_induction cursor.advance n with
  | case1 => rfl
  | case2 => rfl
  | case3 n passed c rest location mark ih =>
    simp only [ih, List.take_succ_cons, List.reverse_cons, List.append_assoc, List.cons_append,
      List.nil_append]

theorem location_advance (cursor : Cursor) (n : Nat) :
    (cursor.advance n).location = (cursor.rest.take n).foldl Location.after cursor.location := by
  fun_induction cursor.advance n with
  | case1 => rfl
  | case2 => rfl
  | case3 n passed c rest location mark ih => exact ih

@[simp] theorem mark_advance (cursor : Cursor) (n : Nat) :
    (cursor.advance n).mark = cursor.mark := by
  fun_induction cursor.advance n with
  | case1 => rfl
  | case2 => rfl
  | case3 n passed c rest location mark ih => exact ih

/-- Advancing loses nothing of the text. -/
@[simp] theorem source_advance (cursor : Cursor) (n : Nat) :
    (cursor.advance n).source = cursor.source := by
  simp only [source, rest_advance, passed_advance, List.reverse_append, List.reverse_reverse,
    List.append_assoc, List.take_append_drop]

end Cursor

end IntervalCalc

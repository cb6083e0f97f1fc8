import IntervalCalc.Proofs.Lexing.Printed
import IntervalCalc.Proofs.Parsing.Steps

/-!
Parsing a known text. A state is described by the text before it, a step by the text that it takes
and the value that it gives, and steps are put together without a look at places in the source.
Everything is about the standard grammar and a text without new names.
-/

namespace IntervalCalc

variable {α β γ : Type} [Scalar α] [Numeral α]
variable {interner : Interner} {text middle tail : List Char}

/-- A state of the standard grammar before a text. -/
structure ParseState.Before (interner : Interner) (text : List Char) (state : ParseState) :
    Prop where
  operators : state.operators = .standard
  interner : state.interner = interner
  rest : state.cursor.rest = text

/-- In a position, a text begins with a token of a kind and goes on with another text. -/
def Reads (interner : Interner) (position : Position) (text : List Char) (kind : TokenKind α)
    (tail : List Char) : Prop :=
  ∀ state : ParseState, state.Before interner text → ∃ r : Lexer.Reading α,
    state.ahead .standard position = .ok r ∧ r.token.kind = kind ∧
      (state.consume r).Before interner tail

/-- A step takes the front of a text and gives a value. -/
def Takes (interner : Interner) (step : ParseM ParseState β) (text : List Char) (value : β)
    (tail : List Char) : Prop :=
  ∀ state : ParseState, state.Before interner text →
    ∃ after, step state = .ok value after ∧ after.Before interner tail

/-- The state behind the next character. -/
def ParseState.skip (state : ParseState) : ParseState :=
  { state with cursor := state.cursor.advance 1 }

namespace ParseState.Before

variable {state : ParseState} (before : state.Before interner (' ' :: text))

include before

omit [Scalar α] [Numeral α] in
theorem skip : state.skip.Before interner text := by
  refine ⟨before.operators, before.interner, ?_⟩
  change (state.cursor.advance 1).rest = text
  rw [Cursor.rest_advance, before.rest]
  rfl

theorem ahead_skip {position : Position} : state.ahead (α := α) .standard position =
    state.skip.ahead .standard position := by
  have symbols : Vocabulary.symbols state.operators.keys =
      Vocabulary.symbols OperatorTable.standard.keys := by rw [before.operators]
  exact Lexer.next_isBlank symbols (by decide) before.rest

end ParseState.Before

namespace Reads

variable {position : Position} {kind : TokenKind α}

theorem of_next {n : Nat} (rest : text.drop n = tail)
    (h : ∀ cursor : Cursor, cursor.rest = text →
      Lexer.standard.next position OperatorTable.standard.keys interner cursor =
        .ok ⟨⟨kind, cursor.location⟩, cursor.advance n, interner⟩) :
    Reads interner position text kind tail := by
  intro state before
  refine ⟨⟨⟨kind, state.cursor.location⟩, state.cursor.advance n, interner⟩, ?_, rfl,
    before.operators, rfl, ?_⟩
  · rw [ParseState.ahead, before.operators, before.interner]
    exact h state.cursor before.rest
  · rw [← rest, ← before.rest]
    exact Cursor.rest_advance state.cursor n

/-- A blank in front is passed over. -/
theorem blank (reads : Reads interner position text kind tail) :
    Reads interner position (' ' :: text) kind tail := by
  intro state before
  obtain ⟨r, read, same, consumed⟩ := reads _ before.skip
  exact ⟨r, before.ahead_skip.trans read, same, consumed⟩

theorem atEnd : Reads (α := α) interner position [] .endOfInput [] := by
  intro state before
  refine ⟨Lexer.endReading state.interner state.cursor, ?_, rfl, before⟩
  exact Lexer.next_of_end before.rest

end Reads

namespace Takes

variable {step : ParseM ParseState β} {next : β → ParseM ParseState γ}
variable {f : Token α → ParseM ParseState β} {value : β} {result : γ}
variable {position : Position} {kind : TokenKind α}

omit [Scalar α] [Numeral α]

theorem pure : Takes interner (Pure.pure value) text value text :=
  fun state before => ⟨state, rfl, before⟩

theorem bind (h : Takes interner step text value middle)
    (h' : Takes interner (next value) middle result tail) :
    Takes interner (step >>= next) text result tail := by
  intro state before
  obtain ⟨between, first, later⟩ := h state before
  obtain ⟨after, second, last⟩ := h' between later
  exact ⟨after, (Run.bind_ok first).trans second, last⟩

variable [Scalar α] [Numeral α]

theorem next_bind (reads : Reads interner position text kind middle)
    (h : ∀ token : Token α, token.kind = kind → Takes interner (f token) middle value tail) :
    Takes interner ((TokenSource.direct .standard).next position >>= f) text value tail := by
  intro state before
  obtain ⟨r, read, same, consumed⟩ := reads state before
  obtain ⟨after, given, last⟩ := h r.token same _ consumed
  have taken := TokenSource.direct_next_ok.mpr ⟨r, read, rfl, rfl⟩
  exact ⟨after, (Run.bind_ok taken).trans given, last⟩

/-- Looking at a token takes nothing. -/
theorem peek_bind (reads : Reads interner position text kind middle)
    (h : ∀ token : Token α, token.kind = kind → Takes interner (f token) text value tail) :
    Takes interner ((TokenSource.direct .standard).peek position >>= f) text value tail := by
  intro state before
  obtain ⟨r, read, same, consumed⟩ := reads state before
  have looked : ParseState.Before interner text { state with interner := r.interner } :=
    ⟨before.operators, consumed.interner, before.rest⟩
  obtain ⟨after, given, last⟩ := h r.token same _ looked
  have seen := TokenSource.direct_peek_ok.mpr ⟨r, read, rfl, rfl⟩
  exact ⟨after, (Run.bind_ok seen).trans given, last⟩

end Takes

namespace Parser

open Takes

theorem expect_takes {name : String}
    (reads : Reads (α := α) interner .operator text (.operator name) tail) :
    Takes interner (expect (TokenSource.direct (α := α) .standard) name) text () tail := by
  refine next_bind reads fun token same => ?_
  rw [if_pos (isOperator_iff.mpr same)]
  exact .pure

theorem skipIf_takes {name : String}
    (reads : Reads (α := α) interner .operator text (.operator name) tail) :
    Takes interner (skipIf (TokenSource.direct (α := α) .standard) name) text true tail := by
  refine peek_bind reads fun token same => ?_
  rw [if_pos (isOperator_iff.mpr same)]
  exact next_bind reads fun _ _ => .pure

theorem skipIf_declines {name : String} {kind : TokenKind α}
    (reads : Reads interner .operator text kind tail) (other : kind ≠ .operator name) :
    Takes interner (skipIf (TokenSource.direct (α := α) .standard) name) text false text := by
  refine peek_bind reads fun token same => ?_
  rw [if_neg fun found => other (same.symm.trans (isOperator_iff.mp found))]
  exact .pure

section Forms

variable {e : Power → ParseM ParseState (Expr α)} {token : Token α} {value : Expr α}

theorem prefixForm_takes_literal (same : token.kind = .literal value) :
    Takes interner (prefixForm (.direct .standard) e token) text value text :=
  fun state before => ⟨state, prefixForm_literal same, before⟩

theorem prefixForm_takes {name : String} {rule : PrefixRule} (same : token.kind = .operator name)
    (known : (OperatorTable.standard.find? name).bind (·.prefixRule) = some rule)
    (h : Takes interner (applyPrefix (.direct .standard) e token.location rule) text value tail) :
    Takes interner (prefixForm (.direct .standard) e token) text value tail := by
  intro state before
  have found : (state.operators.find? name).bind (·.prefixRule) = some rule := by
    rw [before.operators]
    exact known
  obtain ⟨after, formed, last⟩ := h state before
  exact ⟨after, (prefixForm_known same found).trans formed, last⟩

end Forms

end Parser

namespace Direct

open Takes

variable {power : Power} {left tree : Expr α}

theorem expression_takes {kind : TokenKind α} (reads : Reads interner .operand text kind middle)
    {between : List Char}
    (form : ∀ token : Token α, token.kind = kind → Takes interner
      (Parser.prefixForm (.direct .standard) (expression .standard) token) middle left between)
    (more : Takes interner (extend .standard power left) between tree tail) :
    Takes interner (expression .standard power) text tree tail := by
  intro state before
  rw [expression_eq]
  exact next_bind reads (fun token same => (form token same).bind more) state before

/-- Where no operator binds tight enough, an operand is complete. -/
theorem extend_takes_none {kind : TokenKind α} (reads : Reads interner .operator text kind tail)
    (loose : OperatorTable.standard.powerOf kind ≤ power) :
    Takes interner (extend .standard power left) text left text := by
  intro state before
  obtain ⟨r, read, same, consumed⟩ := reads state before
  have weak : state.operators.powerOf r.token.kind ≤ power := by
    rw [before.operators, same]
    exact loose
  exact ⟨_, extend_of_loose read weak left, before.operators, consumed.interner, before.rest⟩

/-- An operator that binds tight enough extends an operand. -/
theorem extend_takes {name : String} {operator : Operator} {rule : InfixRule}
    (reads : Reads (α := α) interner .operator text (.operator name) middle)
    (known : OperatorTable.standard.find? name = some operator)
    (holds : operator.infixRule = some rule) (tight : power < operator.leftPower)
    {between : List Char} {extended : Expr α}
    (form : ∀ location, Takes interner
      (Parser.applyInfix (.direct .standard) (arguments .standard) (expression .standard) location
        operator.leftPower left rule) middle extended between)
    (more : Takes interner (extend .standard power extended) between tree tail) :
    Takes interner (extend .standard power left) text tree tail := by
  intro state before
  obtain ⟨r, read, same, consumed⟩ := reads state before
  have strong : power < state.operators.powerOf r.token.kind := by
    rw [before.operators, same, OperatorTable.powerOf, known]
    exact tight
  have found : ((state.consume r).operators).find? name = some operator := by
    rw [consumed.operators]
    exact known
  rw [extend_of_tight read strong]
  obtain ⟨between', formed, later⟩ := form r.token.location _ consumed
  obtain ⟨after, extended, last⟩ := more between' later
  have infixed := (Parser.infixForm_known same found holds left).trans formed
  exact ⟨after, (Run.bind_ok infixed).trans extended, last⟩

/-- A blank in front of an expression is passed over. -/
theorem expression_takes_blank {kind : TokenKind α} {other : List Char}
    (reads : Reads interner .operand text kind other)
    (h : Takes interner (expression .standard power) text tree tail) :
    Takes interner (expression .standard power) (' ' :: text) tree tail := by
  intro state before
  obtain ⟨r, read, _⟩ := reads _ before.skip
  have same : state.operators = state.skip.operators := rfl
  rw [expression_congr same (before.ahead_skip.trans read) read]
  exact h _ before.skip

end Direct

end IntervalCalc

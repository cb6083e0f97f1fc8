import IntervalCalc.Expr.Text
import IntervalCalc.Lexing.Location

/-! The words of a source text. -/

namespace IntervalCalc

/-- A token is the name of an operator, a literal that is an expression by itself, or the end of
the text. -/
inductive TokenKind (α : Type) where
  | operator (name : String)
  | literal (value : Expr α)
  | endOfInput

/-- A token and the place where it begins. -/
structure Token (α : Type) where
  kind : TokenKind α
  location : Location

/-- Whether an operand may begin at a place or must have ended there. Only where an operand may
begin does a sign belong to the number behind it. -/
inductive Position where
  | operand
  | operator
deriving DecidableEq

def TokenKind.text {α : Type} [Numeral α] : TokenKind α → String
  | operator name => name
  | literal value => value.text
  | endOfInput => "end of input"

end IntervalCalc

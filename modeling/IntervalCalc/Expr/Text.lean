import IntervalCalc.Expr.Basic

/-!
The texts of expressions: the one that is shown, which spells out the grouping of operations,
and the dump that names every node.
-/

namespace IntervalCalc

variable {α : Type} [Numeral α]

def Interval.text (x : Interval α) : String :=
  "[" ++ Numeral.text x.inf ++ ", " ++ Numeral.text x.sup ++ "]"

/-- The bounds by name. -/
def Interval.dump (x : Interval α) : String :=
  "Interval \x7b inf: " ++ Numeral.boundText x.inf ++ ", sup: " ++ Numeral.boundText x.sup
    ++ " \x7d"

def commaSeparated (texts : List String) : String :=
  String.intercalate ", " texts

/-- The character as it stands in a quoted name. The four Hangul fillers are letters without a
visible form, and are written by their code points. -/
def quotedChar (c : Char) : String :=
  match c with
  | '\u115F' => "\\u\x7b115f\x7d"
  | '\u1160' => "\\u\x7b1160\x7d"
  | '\u3164' => "\\u\x7b3164\x7d"
  | '\uFFA0' => "\\u\x7bffa0\x7d"
  | c => c.toString

/-- The handle and the quoted name. -/
def Symbol.dump (symbol : Symbol) : String :=
  "Symbol \x7b id: " ++ toString symbol.id ++ ", name: \""
    ++ String.join (symbol.name.toList.map quotedChar) ++ "\" \x7d"

namespace Expr

mutual

/-- The shown text. Operations are bracketed, and an operator with one operand stands before
it. -/
def text : Expr α → String
  | number value => Numeral.text value
  | interval value => value.text
  | symbol value => value.name
  | unary op operand => "(" ++ op.text ++ " " ++ operand.text ++ ")"
  | binary op left right => "(" ++ left.text ++ " " ++ op.text ++ " " ++ right.text ++ ")"
  | branch condition consequence alternative =>
    "if " ++ condition.text ++ " then " ++ consequence.text ++ " else " ++ alternative.text
      ++ " end"
  | composite head arguments bracket =>
    head.name ++ bracket.opening ++ commaSeparated (texts arguments) ++ bracket.closing
  | function head parameters body =>
    "fun " ++ head.name ++ "(" ++ commaSeparated (parameters.map (·.name)) ++ ") is "
      ++ body.text ++ " end"

def texts : List (Expr α) → List String
  | [] => []
  | first :: rest => first.text :: texts rest

end

mutual

/-- The dump, which names every node and its parts. -/
def dump : Expr α → String
  | number value => "Number(" ++ Numeral.literalText value ++ ")"
  | interval value => "Interval(" ++ value.dump ++ ")"
  | symbol value => "Symbol(" ++ value.dump ++ ")"
  | unary op operand => "Unary \x7b op: " ++ op.word ++ ", operand: " ++ operand.dump ++ " \x7d"
  | binary op left right =>
    "Binary \x7b op: " ++ op.word ++ ", left: " ++ left.dump ++ ", right: " ++ right.dump
      ++ " \x7d"
  | branch condition consequence alternative =>
    "Branch \x7b condition: " ++ condition.dump ++ ", then: " ++ consequence.dump
      ++ ", otherwise: " ++ alternative.dump ++ " \x7d"
  | composite head arguments bracket =>
    "Composite \x7b head: " ++ head.dump ++ ", args: [" ++ commaSeparated (dumps arguments)
      ++ "], bracket: " ++ bracket.word ++ " \x7d"
  | function head parameters body =>
    "Function(Function \x7b head: " ++ head.dump ++ ", params: ["
      ++ commaSeparated (parameters.map (·.dump)) ++ "], body: " ++ body.dump ++ " \x7d)"

def dumps : List (Expr α) → List String
  | [] => []
  | first :: rest => first.dump :: dumps rest

end

end Expr

end IntervalCalc

import IntervalCalc.Grammar.TokenSource

/-!
Parsing by binding powers, with a grammar that changes on the way.

An expression is a prefix form, extended with infix forms for as long as the next operator binds
tighter than the place where the expression stands. What a failing parse has declared and named
stays.

Expressions and lists of arguments nest in steps, and what they come to when the steps are used up
is given. A parse that ends takes no more than two steps for each character. One that reads an
operator of empty name over and over never ends, and is broken off.
-/

namespace IntervalCalc

namespace Parser

variable {α σ : Type}

def operator? (source : TokenSource α σ) (name : String) : ParseM σ (Option Operator) :=
  return (source.view (← get)).operators.find? name

def isOperator (token : Token α) (name : String) : Bool :=
  match token.kind with
  | .operator found => found == name
  | _ => false

def isEnd (token : Token α) : Bool :=
  match token.kind with
  | .endOfInput => true
  | _ => false

/-- Consumes the next token if it is the operator of a name. -/
def skipIf (source : TokenSource α σ) (name : String) : ParseM σ Bool := do
  let token ← source.peek .operator
  if isOperator token name then
    let _ ← source.next .operator
    return true
  else return false

/-- The left power of the next token, zero if it is no operator. -/
def leftPower (source : TokenSource α σ) : ParseM σ Power := do
  let token ← source.peek .operator
  match token.kind with
  | .operator name => return (← operator? source name).elim 0 (·.leftPower)
  | _ => return 0

/-- Whether an operator is a separator with nothing behind it. Behind other operators nothing is
looked at. -/
def endsProgram (source : TokenSource α σ) (op : BinaryOp) : ParseM σ Bool := do
  if op = .sequence then return isEnd (← source.peek .operand) else return false

/-- The power that the right operand of a binary operator has to exceed. -/
def rightPower (power : Power) (rightAssociative : Bool) : Power :=
  if rightAssociative then power - 1 else power

/-- Whether a number can be a binding power: a whole number from 0 to `2 ^ 32 - 1`. -/
def isPower [Scalar α] (value : α) : Bool :=
  0 ≤ value && Scalar.isIntegral value && value ≤ NatCast.natCast 4294967295

variable [Numeral α]

/-- The error for a token that has no place where it stands. -/
def unexpected {β : Type} (token : Token α) : ParseM σ β :=
  match token.kind with
  | .endOfInput => throw ⟨.unexpectedEnd, token.location⟩
  | kind => throw ⟨.unexpectedToken kind.text, token.location⟩

omit [Numeral α] in
def invalidOperand {β : Type} (role : OperandRole) (found : String) (location : Location) :
    ParseM σ β :=
  throw ⟨.invalidOperand role found, location⟩

def expect (source : TokenSource α σ) (name : String) : ParseM σ Unit := do
  let token ← source.next .operator
  if isOperator token name then return ()
  else throw ⟨.expected name token.kind.text, token.location⟩

/-- What a parse comes to where its steps are used up. -/
structure Beyond (α σ : Type) where
  arguments : (expression : Power → ParseM σ (Expr α)) → (closing : String) →
    ParseM σ (List (Expr α))
  expression : (power : Power) → ParseM σ (Expr α)
  extend : (power : Power) → (left : Expr α) → ParseM σ (Expr α)

/-- Where a parse would go on, the error for the next token. -/
def brokenOff (source : TokenSource α σ) : Beyond α σ where
  arguments _ _ := do unexpected (← source.next .operand)
  expression _ := do unexpected (← source.next .operand)
  extend power left := do
    if power < (← leftPower source) then unexpected (← source.next .operator)
    else return left

/-- Reads the arguments between brackets, behind the opening one. An empty list needs no
argument, and otherwise a comma asks for one more. -/
def argumentsOr (source : TokenSource α σ) (beyond : Beyond α σ)
    (expression : Power → ParseM σ (Expr α)) (closing : String) :
    (steps : Nat) → ParseM σ (List (Expr α))
  | 0 => beyond.arguments expression closing
  | steps + 1 => do
    let first ← expression 0
    if ← skipIf source "," then
      let rest ← argumentsOr source beyond expression closing steps
      return first :: rest
    else
      expect source closing
      return [first]

def arguments (source : TokenSource α σ) :
    (expression : Power → ParseM σ (Expr α)) → (closing : String) → (steps : Nat) →
      ParseM σ (List (Expr α)) :=
  argumentsOr source (brokenOff source)

def parameters (location : Location) : List (Expr α) → ParseM σ (List Symbol)
  | [] => return []
  | .symbol symbol :: rest => return symbol :: (← parameters location rest)
  | other :: _ => invalidOperand .parameter other.text location

/-- Reads a definition behind its keyword, whose place is given. The signature is read as an
expression and has to be a call. -/
def definition (source : TokenSource α σ) (expression : Power → ParseM σ (Expr α))
    (location : Location) : ParseM σ (Expr α) := do
  match ← expression 0 with
  | .composite head arguments .round =>
    let parameters ← parameters location arguments
    expect source "is"
    let body ← expression 0
    expect source "end"
    return .function head parameters body
  | other => invalidOperand .functionSignature other.text location

/-- The name that a declaration may declare: a name without a meaning, or an operator that is
spelled like a name. -/
def declaredName (token : Token α) : ParseM σ String :=
  match token.kind with
  | .literal (.symbol symbol) => return symbol.name
  | .operator name =>
    if isIdentifier name.toList then return name
    else invalidOperand .operatorName name token.location
  | kind => invalidOperand .operatorName kind.text token.location

variable [Scalar α]

/-- The binding power in a declaration. It binds tighter than anything in the standard grammar,
so that it is a single operand. -/
def declaredPower (source : TokenSource α σ) (expression : Power → ParseM σ (Expr α)) :
    ParseM σ Power := do
  let first ← source.peek .operand
  let operand ← expression 1000
  match operand with
  | .number value =>
    if isPower value then return Scalar.floorNat value
    else throw ⟨.invalidPower operand.text, first.location⟩
  | _ => throw ⟨.invalidPower operand.text, first.location⟩

def declaration (source : TokenSource α σ) (expression : Power → ParseM σ (Expr α))
    (fixity : Fixity) : ParseM σ (Expr α) := do
  let name ← declaredName (← source.next .operand)
  let power ← declaredPower source expression
  source.declare name fixity power
  return .number 0

/-- Reads what a rule asks for behind an operator, whose place is given, where an expression
begins. -/
def applyPrefix (source : TokenSource α σ) (expression : Power → ParseM σ (Expr α))
    (location : Location) : PrefixRule → ParseM σ (Expr α)
  | .unary op power => return .unary op (← expression power)
  | .apply head power => return .composite head [← expression power] .round
  | .group closing => do
    let inner ← expression 0
    expect source closing
    return inner
  | .branch => do
    let condition ← expression 0
    expect source "then"
    let consequence ← expression 0
    expect source "else"
    let alternative ← expression 0
    expect source "end"
    return .branch condition consequence alternative
  | .function => definition source expression location
  | .declare fixity => declaration source expression fixity

def prefixForm (source : TokenSource α σ) (expression : Power → ParseM σ (Expr α))
    (token : Token α) : ParseM σ (Expr α) := do
  match token.kind with
  | .literal value => return value
  | .endOfInput => unexpected token
  | .operator name =>
    match (← operator? source name).bind (·.prefixRule) with
    | none => unexpected token
    | some rule => applyPrefix source expression token.location rule

omit [Scalar α] in
/-- Reads what a rule asks for behind an operator of some left power, whose place is given, and
behind the operand before it. A separator at the end of the text adds nothing to that operand. -/
def applyInfix (source : TokenSource α σ)
    (arguments : (closing : String) → ParseM σ (List (Expr α)))
    (expression : Power → ParseM σ (Expr α)) (location : Location) (power : Power)
    (left : Expr α) : InfixRule → ParseM σ (Expr α)
  | .binary op rightAssociative => do
    if ← endsProgram source op then return left
    else return .binary op left (← expression (rightPower power rightAssociative))
  | .postfixed op => return .unary op left
  | .apply head => return .composite head [left, ← expression power] .round
  | .composite closing bracket => do
    let .symbol head := left | invalidOperand .compositeHead left.text location
    if ← skipIf source closing then return .composite head [] bracket
    else return .composite head (← arguments closing) bracket
  | .branch => do
    let condition ← expression 0
    expect source "else"
    let alternative ← expression power
    return .branch condition left alternative

omit [Scalar α] in
def infixForm (source : TokenSource α σ) (arguments : (closing : String) → ParseM σ (List (Expr α)))
    (expression : Power → ParseM σ (Expr α)) (token : Token α) (left : Expr α) :
    ParseM σ (Expr α) := do
  let .operator name := token.kind | unexpected token
  let some operator ← operator? source name | unexpected token
  let some rule := operator.infixRule | unexpected token
  applyInfix source arguments expression token.location operator.leftPower left rule

mutual

/-- Reads an expression whose infix operators bind tighter than `power`. -/
def expressionOr (source : TokenSource α σ) (beyond : Beyond α σ) :
    (steps : Nat) → (power : Power) → ParseM σ (Expr α)
  | 0, power => beyond.expression power
  | steps + 1, power => do
    let token ← source.next .operand
    let left ← prefixForm source (expressionOr source beyond steps) token
    extendOr source beyond steps power left

/-- Extends an operand with infix forms. -/
def extendOr (source : TokenSource α σ) (beyond : Beyond α σ) :
    (steps : Nat) → (power : Power) → (left : Expr α) → ParseM σ (Expr α)
  | 0, power, left => beyond.extend power left
  | steps + 1, power, left => do
    if power < (← leftPower source) then
      let token ← source.next .operator
      let inner := expressionOr source beyond steps
      let left ← infixForm source (argumentsOr source beyond inner · steps) inner token left
      extendOr source beyond steps power left
    else return left

end

def programOr (source : TokenSource α σ) (beyond : Beyond α σ) (steps : Nat) :
    ParseM σ (Expr α) := do
  let result ← expressionOr source beyond steps 0
  let token ← source.next .operator
  if isEnd token then return result else unexpected token

def expression (source : TokenSource α σ) :
    (steps : Nat) → (power : Power) → ParseM σ (Expr α) :=
  expressionOr source (brokenOff source)

def extend (source : TokenSource α σ) :
    (steps : Nat) → (power : Power) → (left : Expr α) → ParseM σ (Expr α) :=
  extendOr source (brokenOff source)

def program (source : TokenSource α σ) : (steps : Nat) → ParseM σ (Expr α) :=
  programOr source (brokenOff source)

/-- As many steps as a parse of a text can take if it ends. -/
def stepsFor (text : List Char) : Nat :=
  2 * text.length + 2

end Parser

structure Grammar where
  lexer : Lexer
  operators : OperatorTable
deriving DecidableEq

namespace Grammar

def standard : Grammar :=
  ⟨.standard, .standard⟩

/-- Adds an operator, or replaces the one of its name. -/
def register (grammar : Grammar) (name : String) (operator : Operator) : Grammar :=
  { grammar with operators := grammar.operators.insert name operator }

/-- The outcome of a parse, with the grammar and the names after it. -/
structure Parsed (α : Type) where
  outcome : Except SyntaxError (Expr α)
  grammar : Grammar
  interner : Interner

variable {α : Type} [Scalar α] [Numeral α]

/-- A parse that reads tokens in some way and takes some number of steps. -/
def parseOr (reader : Reader α) (beyond : Parser.Beyond α (BufferedState α)) (steps : Nat)
    (grammar : Grammar) (interner : Interner) (source : String) : Parsed α :=
  let start := BufferedState.mk ⟨grammar.operators, interner, .ofList source.toList⟩ none
  match Parser.programOr (.buffered reader) beyond steps start with
  | .ok result state => ⟨.ok result, { grammar with operators := state.operators }, state.interner⟩
  | .error error state =>
    ⟨.error error, { grammar with operators := state.operators }, state.interner⟩

def parse (grammar : Grammar) (interner : Interner) (source : String) : Parsed α :=
  let reader := grammar.lexer.next
  grammar.parseOr reader (Parser.brokenOff (.buffered reader)) (Parser.stepsFor source.toList)
    interner source

end Grammar

end IntervalCalc

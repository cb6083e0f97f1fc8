import IntervalCalc.Evaluation.Evaluate
import IntervalCalc.Grammar.Parser

/-!
Engines. An engine keeps a grammar, the names seen so far and the global scope together, so that
declarations and bindings carry over from one program to the next.
-/

namespace IntervalCalc

inductive ProgramError (α : Type) where
  | parsing (error : SyntaxError)
  | evaluation (error : EvalError α)

def ProgramError.message {α : Type} [Numeral α] : ProgramError α → String
  | parsing error => s!"syntax error: {error.message}"
  | evaluation error => s!"semantic error: {error.message}"

/-- The state of a calculator. `initial` is the grammar that it was built with. -/
structure Engine (α : Type) where
  initial : Grammar
  grammar : Grammar
  interner : Interner
  globals : Scope α

/-- A way of parsing texts. Besides that of the language there are those with recognizers of another
kind. -/
abbrev Parse (α : Type) :=
  (grammar : Grammar) → (interner : Interner) → (source : String) → Grammar.Parsed α

namespace Engine

variable {α : Type}

/-- How deeply the calls of a program may be nested. The limit stands for the stack of the machine,
which a program may exhaust. No theorem depends on the number, and a program that keeps below it
comes to the same under any greater one. -/
def callDepth : Nat := 10000

def ofGrammar (grammar : Grammar) : Engine α :=
  ⟨grammar, grammar, .empty, .empty⟩

def new : Engine α :=
  ofGrammar .standard

/-- Forgets every name, binding and declaration. -/
def reset (engine : Engine α) : Engine α :=
  ofGrammar engine.initial

def define (engine : Engine α) (name : String) (value : Expr α) : Symbol × Engine α :=
  let (symbol, interner) := engine.interner.intern name
  (symbol, { engine with interner, globals := engine.globals.set symbol value })

def lookup (engine : Engine α) (name : String) : Option (Expr α) :=
  (engine.interner.lookup name).bind engine.globals.get?

/-- Drops the global binding of a name, and gives the value that it had. -/
def forget (engine : Engine α) (name : String) : Option (Expr α) × Engine α :=
  match engine.interner.lookup name with
  | none => (none, engine)
  | some symbol =>
    (engine.globals.inner.find? symbol,
      { engine with globals := engine.globals.remove symbol })

/-- Parses a text. Names and declarations stay, also after an error. -/
def parseWith (parse : Parse α) (engine : Engine α) (source : String) :
    Except SyntaxError (Expr α) × Engine α :=
  let parsed := parse engine.grammar engine.interner source
  (parsed.outcome, { engine with grammar := parsed.grammar, interner := parsed.interner })

variable [Scalar α]

/-- Evaluates an expression in the global scope. Bindings stay, also after an error. -/
def evaluate (engine : Engine α) (expression : Expr α) :
    Except (EvalError α) (Expr α) × Engine α :=
  match expression.evaluate callDepth engine.globals with
  | .ok value globals => (.ok value, { engine with globals })
  | .error error globals => (.error error, { engine with globals })

def runWith (parse : Parse α) (engine : Engine α) (source : String) :
    Except (ProgramError α) (Expr α) × Engine α :=
  match engine.parseWith parse source with
  | (.error error, engine) => (.error (.parsing error), engine)
  | (.ok expression, engine) =>
    match engine.evaluate expression with
    | (.error error, engine) => (.error (.evaluation error), engine)
    | (.ok value, engine) => (.ok value, engine)

variable [Numeral α]

def parse (engine : Engine α) (source : String) : Except SyntaxError (Expr α) × Engine α :=
  engine.parseWith Grammar.parse source

def run (engine : Engine α) (source : String) : Except (ProgramError α) (Expr α) × Engine α :=
  engine.runWith Grammar.parse source

end Engine

end IntervalCalc

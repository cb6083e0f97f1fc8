import IntervalCalc.Engine

/-! The lists and explanations that a session prints. -/

namespace IntervalCalc.Listing

/-- Fills a text up with blanks to a width. -/
def padded (width : Nat) (text : String) : String :=
  text ++ String.ofList (List.replicate (width - text.length) ' ')

def line (text : String) : String :=
  text ++ "\n"

def overview : String :=
  line "ival, arithmetic over closed real intervals"
    ++ line ""
    ++ line "Type an expression and it will be evaluated. Intervals are written I\x7blo,hi\x7d,"
    ++ line "or A\x7blo, hi\x7d to bind them to A. Functions are declared with"
    ++ line "fun name(params) is body end, and new operators with prefix name power"
    ++ line "or infix name power."
    ++ line ""
    ++ line "Commands:"
    ++ line "   :q             quit"
    ++ line "   :h [name]      this help, or help on a function"
    ++ line "   :l             list bindings and functions"
    ++ line "   :o             list operators and their binding powers"
    ++ line "   :s setting     debug | normal | tree | plain"
    ++ line "   :r [names]     forget the given bindings, or everything"
    ++ line "   :e file        run a file"
    ++ line "Log output is controlled by the IVAL_LOG environment variable."

variable {α : Type} [Numeral α]

/-- The help on a name: its value, or what it is by itself. -/
def topic (engine : Engine α) (name : String) : String :=
  match engine.lookup name with
  | some value => line s!"{name} = {value.text}"
  | none =>
    match Builtin.ofName? name with
    | some builtin => line s!"{name} is built in and takes {builtin.arity} argument(s)"
    | none =>
      match engine.grammar.operators.find? name with
      | some operator =>
        line s!"{name} is an operator with binding power {operator.leftPower}"
      | none => line s!"{name} is not defined"

def isFunction (value : Expr α) : Bool :=
  value.kind == .function

/-- The global values and functions by name, and the built-in functions. -/
def definitions (engine : Engine α) : String :=
  let bindings := engine.globals.inner.entries.mergeSort fun a b => a.1.name ≤ b.1.name
  let values := bindings.filter fun entry => !isFunction entry.2
  let functions := bindings.filter fun entry => isFunction entry.2
  let valueLines := values.map fun entry =>
    line s!"   {padded 6 entry.1.name}=   {entry.2.text}"
  let functionLines := functions.map fun entry => line s!"   {entry.2.text}"
  let builtinLines := Builtin.all.map fun builtin =>
    line s!" \x1b[90mb\x1b[0m {builtin.name}/{builtin.arity}"
  line "\nVariables:" ++ String.join valueLines
    ++ line "\nFunctions:" ++ String.join functionLines ++ String.join builtinLines

/-- Whether an operator comes before another in the list: by its left power, and among equal
powers by its name. -/
def operatorBefore (a b : String × Operator) : Bool :=
  a.2.leftPower < b.2.leftPower || a.2.leftPower == b.2.leftPower && a.1 ≤ b.1

def operators (table : OperatorTable) : String :=
  let lines := (table.entries.mergeSort operatorBefore).map fun entry =>
    let fixity := entry.2.fixity.elim "closer" Fixity.text
    line s!"   {padded 8 entry.1}{padded 8 fixity}{entry.2.leftPower}"
  line "\nOperators:" ++ String.join lines

end IntervalCalc.Listing

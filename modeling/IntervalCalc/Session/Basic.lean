import IntervalCalc.Session.Command
import IntervalCalc.Session.Listing

/-!
Sessions. A session runs lines against an engine and gives the text to print. Its settings decide
what is printed and nothing else.
-/

namespace IntervalCalc

structure Settings where
  /-- A new function is reported by name in place of its text. -/
  interactive : Bool
  /-- Trees are dumped before and after evaluation. -/
  debug : Bool
  /-- Parsed expressions are shown. -/
  showTree : Bool
deriving DecidableEq

def Settings.batch : Settings :=
  ⟨false, false, false⟩

/-- An engine and the settings of the moment. -/
structure Session (α : Type) where
  engine : Engine α
  settings : Settings

/-- How a line ends. -/
inductive LineOutcome where
  | done
  | failed
  | exit
deriving DecidableEq

/-- The contents of files by their names, or the reason for which one cannot be read. -/
abbrev FileReader := String → Except String String

namespace Session

variable {α : Type}

/-- What a line did: how it ended, what it printed, and the session after it. -/
structure Step (α : Type) where
  outcome : LineOutcome
  output : String
  session : Session α

/-- A step that printed a text and left the session as it was. -/
def printed (session : Session α) (output : String) : Step α :=
  ⟨.done, output, session⟩

/-- Changes a setting. Without a known name nothing changes. -/
def adjust (session : Session α) (name : Option String) : Step α :=
  match name with
  | some "debug" => ⟨.done, "", { session with settings.debug := true }⟩
  | some "normal" => ⟨.done, "", { session with settings.debug := false }⟩
  | some "tree" => ⟨.done, "", { session with settings.showTree := true }⟩
  | some "plain" => ⟨.done, "", { session with settings.showTree := false }⟩
  | _ => session.printed (Listing.line "Unknown setting")

/-- Drops the bindings of names in order, and reports those that have none. -/
def forgetAll (session : Session α) : List String → Step α
  | [] => session.printed ""
  | name :: names =>
    match session.engine.forget name with
    | (some _, engine) => forgetAll { session with engine } names
    | (none, engine) =>
      let step := forgetAll { session with engine } names
      { step with output := Listing.line s!"{name} is not defined" ++ step.output }

variable [Scalar α] [Numeral α]

omit [Scalar α] in
/-- The report of an error, with the word in red. -/
def report (error : ProgramError α) : String :=
  Listing.line s!"\x1b[31mError:\x1b[0m {error.message}"

omit [Scalar α] in
def parsedText (settings : Settings) (expression : Expr α) : String :=
  (if settings.showTree || settings.debug then Listing.line s!"Parsed: {expression.text}" else "")
    ++ (if settings.debug then Listing.line s!"AST: {expression.dump}" ++ Listing.line "" else "")

omit [Scalar α] in
def valueText (settings : Settings) (value : Expr α) : String :=
  let shown := match value with
    | .function head _ _ =>
      if settings.interactive then s!"Defined function {head.name}" else value.text
    | _ => value.text
  Listing.line shown
    ++ (if settings.debug then Listing.line "" ++ Listing.line s!"Evaluated AST: {value.dump}"
      else "")

def runProgram (session : Session α) (source : String) : Step α :=
  match session.engine.parse source with
  | (.error error, engine) =>
    ⟨.failed, report (α := α) (.parsing error), { session with engine }⟩
  | (.ok expression, engine) =>
    let parsed := parsedText session.settings expression
    match engine.evaluate expression with
    | (.error error, engine) =>
      ⟨.failed, parsed ++ report (.evaluation error), { session with engine }⟩
    | (.ok value, engine) =>
      ⟨.done, parsed ++ valueText session.settings value, { session with engine }⟩

/-- Runs the program in a file. Its failure is not one of the line. -/
def load (session : Session α) (files : FileReader) (name : Option String) : Step α :=
  match name with
  | none => session.printed ""
  | some name =>
    match files name with
    | .error reason => session.printed (Listing.line s!"Cannot open {name}: {reason}")
    | .ok source => { session.runProgram source with outcome := .done }

def perform (session : Session α) (files : FileReader) : Command → Step α
  | .nothing => session.printed ""
  | .program source => session.runProgram source
  | .quit => ⟨.exit, "", session⟩
  | .help [] => session.printed Listing.overview
  | .help topics => session.printed (String.join (topics.map (Listing.topic session.engine)))
  | .definitions => session.printed (Listing.definitions session.engine)
  | .operators => session.printed (Listing.operators session.engine.grammar.operators)
  | .setting name => session.adjust name
  | .reset [] => ⟨.done, "", { session with engine := session.engine.reset }⟩
  | .reset names => session.forgetAll names
  | .load name => session.load files name
  | .unknown letter =>
    session.printed (Listing.line s!"Unknown command type {letter}. Ignoring")

def execute (session : Session α) (files : FileReader) (line : String) : Step α :=
  session.perform files (Command.ofLine line)

end Session

end IntervalCalc

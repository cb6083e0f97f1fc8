import IntervalCalc.Scalar.Float
import IntervalCalc.Session.Basic

/-! The command line: runs the program in a file, or the lines of the standard input. -/

namespace IntervalCalc

def readSource (name : String) : IO (Except String String) := do
  match ← (IO.FS.readFile name).toBaseIO with
  | .ok text => return .ok text
  | .error (.noFileOrDirectory ..) => return .error "No such file or directory (os error 2)"
  | .error error => return .error (toString error)

/-- Reads the file that a line asks for, if it asks for one. -/
def filesFor (line : String) : IO FileReader := do
  match Command.ofLine line with
  | .load (some name) =>
    let contents ← readSource name
    return fun _ => contents
  | _ => return fun _ => .error "not read"

/-- Runs lines until one of them or the input ends the session. -/
partial def interact (input : IO.FS.Stream) (session : Session Float) : IO Unit := do
  IO.print "\nival> "
  let line ← input.getLine
  if line.isEmpty then return
  let step := session.execute (← filesFor line) line
  IO.print step.output
  match step.outcome with
  | .exit => IO.println "Exiting..."
  | _ => interact input step.session

end IntervalCalc

/-- Runs the file of the first argument, or a session without one. -/
def main (arguments : List String) : IO UInt32 := do
  match arguments with
  | [] =>
    IO.println "\nStarting ival REPL... (:h for help)"
    let settings := { IntervalCalc.Settings.batch with interactive := true }
    IntervalCalc.interact (← IO.getStdin) ⟨.new, settings⟩
    return 0
  | name :: _ =>
    match ← IntervalCalc.readSource name with
    | .ok source =>
      let session : IntervalCalc.Session Float := ⟨.new, .batch⟩
      IO.print (session.runProgram source).output
      return 0
    | .error reason =>
      IO.eprintln s!"Cannot open {name}: {reason}"
      return 1

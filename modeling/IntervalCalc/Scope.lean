import IntervalCalc.Expr.Basic
import IntervalCalc.OrderedMap

/-!
Scopes. A scope is a chain of frames: a name is looked up from the innermost frame outwards, and
bound in the innermost one.
-/

namespace IntervalCalc

/-- The values bound to symbols, in the order in which the symbols were first bound. -/
abbrev Frame (α : Type) := OrderedMap Symbol (Expr α)

/-- A frame for arguments under their parameters. -/
def Frame.ofArguments {α : Type} (parameters : List Symbol) (arguments : List (Expr α)) :
    Frame α :=
  (parameters.zip arguments).foldl (fun frame entry => frame.insert entry.1 entry.2) .empty

/-- A chain of frames, the innermost one first. -/
structure Scope (α : Type) where
  inner : Frame α
  outer : List (Frame α)

namespace Scope

variable {α : Type}

def empty : Scope α :=
  ⟨.empty, []⟩

/-- Puts a frame inside all others. -/
def push (scope : Scope α) (frame : Frame α) : Scope α :=
  ⟨frame, scope.inner :: scope.outer⟩

/-- Drops the innermost frame, unless it is the only one. -/
def pop (scope : Scope α) : Scope α :=
  match scope.outer with
  | [] => scope
  | frame :: outer => ⟨frame, outer⟩

/-- The value that a symbol has in the nearest frame that binds it. -/
def get? (scope : Scope α) (symbol : Symbol) : Option (Expr α) :=
  (scope.inner :: scope.outer).findSome? (·.find? symbol)

/-- Binds a symbol in the innermost frame. -/
def set (scope : Scope α) (symbol : Symbol) (value : Expr α) : Scope α :=
  { scope with inner := scope.inner.insert symbol value }

def remove (scope : Scope α) (symbol : Symbol) : Scope α :=
  { scope with inner := scope.inner.erase symbol }

def depth (scope : Scope α) : Nat :=
  scope.outer.length + 1

/-- Binding a symbol hides what it was bound to, and no other symbol. -/
theorem get?_set (scope : Scope α) (symbol other : Symbol) (value : Expr α) :
    (scope.set symbol value).get? other =
      if other == symbol then some value else scope.get? other := by
  simp only [get?, set, List.findSome?_cons, OrderedMap.find?_insert]
  by_cases same : other == symbol <;> simp only [same, if_true, if_false, Bool.false_eq_true]

/-- A new frame hides the symbols that it binds. -/
theorem get?_push (scope : Scope α) (frame : Frame α) (symbol : Symbol) :
    (scope.push frame).get? symbol = (frame.find? symbol).or (scope.get? symbol) := by
  simp only [get?, push, List.findSome?_cons]
  cases frame.find? symbol <;> rfl

/-- A symbol has a value if a frame of the chain binds it. -/
theorem isSome_get? (scope : Scope α) (symbol : Symbol) :
    (scope.get? symbol).isSome ↔
      (scope.inner.find? symbol).isSome ∨ ∃ frame ∈ scope.outer, (frame.find? symbol).isSome := by
  simp only [get?, List.findSome?_isSome_iff, List.mem_cons, exists_eq_or_imp]

end Scope

end IntervalCalc

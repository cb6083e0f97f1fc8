import IntervalCalc.Proofs.Agreement
import IntervalCalc.Proofs.Evaluation.Confinement

/-!
Composites whose number of arguments does not fit. A function of the scope and an interval to be
constructed compare the numbers first, and none of the arguments is evaluated. A built-in function
compares them last, when the arguments have had their effects.
-/

namespace IntervalCalc

variable {α β : Type}

namespace Builtin

theorem name_of_ofName? {name : String} {target : Builtin} (h : ofName? name = some target) :
    target.name = name := by
  have found := List.find?_some h
  exact eq_of_beq found

theorem call_of_length_ne [Scalar α] {target : Builtin} {values : List (Expr α)}
    (misfits : values.length ≠ target.arity) :
    target.call values = .error (.argumentMismatch target.name target.arity values.length) := by
  rw [call, if_neg misfits]

end Builtin

namespace Expr

variable {scope : Scope α} {head : Symbol}

theorem callee_of_function {name : Symbol} {parameters : List Symbol} {body : Expr α}
    (found : scope.get? head = some (function name parameters body)) :
    callee head scope = .ok (.user parameters body) scope := by
  rw [callee, Run.get_bind, found]
  rfl

theorem callee_of_unbound {target : Builtin} (unbound : scope.get? head = none)
    (named : Builtin.ofName? head.name = some target) :
    callee head scope = .ok (.builtin target) scope := by
  rw [callee, Run.get_bind, unbound]
  dsimp only
  rw [named]
  rfl

variable [Scalar α] {call : Call α}

/-- The mismatch is found before the arguments: whatever step would give them, it does not run. -/
theorem invoke_user_mismatch {name : Symbol} {parameters : List Symbol} {body : Expr α}
    {count : Nat} (found : scope.get? head = some (function name parameters body))
    (misfits : count ≠ parameters.length) (arguments : EvalM α (List (Expr α))) :
    invoke call head count arguments scope =
      .error (.argumentMismatch head.name parameters.length count) scope := by
  rw [invoke, Run.bind_ok (callee_of_function found)]
  dsimp only
  rw [if_neg misfits.symm]
  rfl

/-- A built-in function is handed the values of the arguments, however many there are. -/
theorem invoke_builtin {target : Builtin} {count : Nat} (unbound : scope.get? head = none)
    (named : Builtin.ofName? head.name = some target) (arguments : EvalM α (List (Expr α))) :
    invoke call head count arguments scope =
      (arguments >>= fun values => EvalM.ofExcept (target.call values)) scope := by
  rw [invoke, Run.bind_ok (callee_of_unbound unbound named)]

/-- A built-in function finds a mismatch when the arguments have run, and not at all if one of them
fails. -/
theorem invoke_builtin_mismatch {target : Builtin} {count : Nat} (unbound : scope.get? head = none)
    (named : Builtin.ofName? head.name = some target) (misfits : count ≠ target.arity)
    {arguments : EvalM α (List (Expr α))}
    (counts : ∀ values after, arguments scope = .ok values after → values.length = count) :
    (∀ values after, arguments scope = .ok values after →
      invoke call head count arguments scope =
        .error (.argumentMismatch head.name target.arity count) after) ∧
    ∀ error after, arguments scope = .error error after →
      invoke call head count arguments scope = .error error after := by
  rw [invoke_builtin unbound named arguments]
  constructor
  · intro values after ran
    have length := counts values after ran
    rw [Run.bind_ok ran, Builtin.call_of_length_ne (length ▸ misfits), length,
      Builtin.name_of_ofName? named]
    rfl
  · intro error after ran
    exact Run.bind_error ran

/-- As many values as expressions. -/
theorem length_of_evaluateAllWith {expressions values : List (Expr α)} {after : Scope α}
    (ran : evaluateAllWith call expressions scope = .ok values after) :
    values.length = expressions.length := by
  induction expressions generalizing scope values with
  | nil =>
      cases ran
      rfl
  | cons first rest ih =>
      rw [evaluateAllWith] at ran
      obtain ⟨value, middle, -, ran⟩ := Run.bind_eq_ok ran
      obtain ⟨others, last, tail, ran⟩ := Run.bind_eq_ok ran
      cases ran
      rw [List.length_cons, List.length_cons, ih tail]

/-- Expressions with values and without effects, one after the other. -/
theorem evaluateAllWith_plain {expressions : List (Expr α)}
    (plain : ∀ expression ∈ expressions, ∃ value,
      evaluateWith call expression scope = .ok value scope) :
    ∃ values, evaluateAllWith call expressions scope = .ok values scope := by
  induction expressions with
  | nil => exact ⟨[], rfl⟩
  | cons first rest ih =>
      obtain ⟨value, head⟩ := plain first List.mem_cons_self
      obtain ⟨values, tail⟩ := ih fun expression member =>
        plain expression (List.mem_cons_of_mem first member)
      refine ⟨value :: values, ?_⟩
      rw [evaluateAllWith, Run.bind_ok head, Run.bind_ok tail]
      rfl

theorem constructWith_mismatch {arguments : List (Expr α)} (misfits : arguments.length ≠ 2) :
    constructWith call head arguments scope =
      .error (.argumentMismatch head.name 2 arguments.length) scope := by
  match arguments, misfits with
  | [], _ => rfl
  | [_], _ => rfl
  | [_, _], misfits => exact absurd rfl misfits
  | _ :: _ :: _ :: _, _ => rfl

/-- Round and square brackets call alike. -/
theorem evaluateWith_call {bracket : Bracket} (calls : bracket ≠ .curly) (head : Symbol)
    (arguments : List (Expr α)) :
    evaluateWith call (composite head arguments bracket) =
      invoke call head arguments.length (evaluateAllWith call arguments) := by
  cases bracket with
  | round => rfl
  | square => rfl
  | curly => exact absurd rfl calls

theorem evaluateWith_curly (unmade : ∀ existing, scope.get? head ≠ some (interval existing))
    (arguments : List (Expr α)) :
    evaluateWith call (composite head arguments .curly) scope =
      constructWith call head arguments scope := by
  rw [evaluateWith, Run.get_bind]
  cases found : scope.get? head with
  | none => rfl
  | some value =>
      cases value with
      | interval existing => exact absurd found (unmade existing)
      | _ => rfl

/-- A composite with the wrong number of arguments fails, whatever its arguments are. Where an
interval is to be constructed or a function of the scope is called, that is all that happens: the
scope is as before and no argument has run. Where a built-in function is called, the arguments run
first: the mismatch is found in the scope that they leave, an argument that fails hides it, and only
arguments that are without effects leave the scope as it was. -/
theorem composite_mismatch (depth : Nat) (scope : Scope α) (head : Symbol)
    (arguments : List (Expr α)) :
    ((∀ existing, scope.get? head ≠ some (interval existing)) → arguments.length ≠ 2 →
      (composite head arguments .curly).evaluate depth scope =
        .error (.argumentMismatch head.name 2 arguments.length) scope) ∧
    (∀ bracket name parameters body, bracket ≠ .curly →
      scope.get? head = some (function name parameters body) →
      arguments.length ≠ parameters.length →
      (composite head arguments bracket).evaluate depth scope =
        .error (.argumentMismatch head.name parameters.length arguments.length) scope) ∧
    ∀ bracket target, bracket ≠ .curly → scope.get? head = none →
      Builtin.ofName? head.name = some target → arguments.length ≠ target.arity →
      (∀ values after, evaluateAllWith (callWithin depth) arguments scope = .ok values after →
        (composite head arguments bracket).evaluate depth scope =
          .error (.argumentMismatch head.name target.arity arguments.length) after) ∧
      (∀ error after, evaluateAllWith (callWithin depth) arguments scope = .error error after →
        (composite head arguments bracket).evaluate depth scope = .error error after) ∧
      ((∀ argument ∈ arguments, ∃ value, argument.evaluate depth scope = .ok value scope) →
        (composite head arguments bracket).evaluate depth scope =
          .error (.argumentMismatch head.name target.arity arguments.length) scope) := by
  refine ⟨?curly, ?user, ?builtin⟩
  case curly =>
    intro unmade misfits
    rw [evaluate, evaluateWith_curly unmade]
    exact constructWith_mismatch misfits
  case user =>
    intro bracket name parameters body calls found misfits
    rw [evaluate, evaluateWith_call calls]
    exact invoke_user_mismatch found misfits _
  case builtin =>
    intro bracket target calls unbound named misfits
    have length : ∀ values after,
        evaluateAllWith (callWithin depth) arguments scope = .ok values after →
        values.length = arguments.length := fun values after => length_of_evaluateAllWith
    obtain ⟨late, hidden⟩ := invoke_builtin_mismatch unbound named
      misfits length
    rw [evaluate, evaluateWith_call calls]
    refine ⟨late, hidden, fun plain => ?_⟩
    obtain ⟨values, ran⟩ := evaluateAllWith_plain plain
    exact late values scope ran

/-- A call `f(x = 1, nope)` of a function with one parameter neither binds `x` nor looks `nope`
up. -/
theorem composite_mismatch_of_function :
    let f : Symbol := ⟨0, "f"⟩
    let x : Symbol := ⟨1, "x"⟩
    let binding : Expr Float := .binary .assign (.symbol x) (.number 1)
    let scope : Scope Float := ⟨⟨[(f, .function f [x] (.symbol x))]⟩, []⟩
    (composite f [binding, .symbol ⟨2, "nope"⟩] .round).evaluate 5 scope =
      .error (.argumentMismatch "f" 1 2) scope := by
  intro f x binding scope
  exact (composite_mismatch 5 scope f [binding, .symbol ⟨2, "nope"⟩]).2.1 .round f [x] (.symbol x)
    (by decide) rfl (by decide)

/-- The call `sin(x = 1, 2)` of the built-in function, which takes one argument, leaves `x` bound,
and `sin(nope, 2)` fails because of `nope` and not because of the number of arguments. -/
theorem builtin_mismatch_after_arguments :
    let sin : Symbol := ⟨0, "sin"⟩
    let x : Symbol := ⟨1, "x"⟩
    let binding : Expr Float := .binary .assign (.symbol x) (.number 1)
    let scope : Scope Float := .empty
    scope.get? sin = none ∧ (Builtin.ofName? sin.name).map Builtin.arity = some 1 ∧
      (composite sin [binding, .number 2] .round).evaluate 5 scope =
        .error (.argumentMismatch "sin" 1 2) (scope.set x (.number 1)) ∧
      scope.get? x = none ∧ (scope.set x (.number 1)).get? x ≠ none ∧
      (composite sin [.symbol ⟨2, "nope"⟩, .number 2] .round).evaluate 5 scope =
        .error (.undefinedVariable "nope") scope := by
  intro sin x binding scope
  exact ⟨rfl, rfl, rfl, rfl, Option.some_ne_none _, rfl⟩

end Expr

end IntervalCalc

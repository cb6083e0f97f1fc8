import IntervalCalc.Evaluation.Evaluate
import IntervalCalc.Scalar.Float

/-!
What an evaluation does to the scope that it runs in. It binds symbols in the innermost frame and
nowhere else, whether it ends with a value or with an error, and the frame of a call goes with
whatever its body did.
-/

namespace IntervalCalc

variable {α β : Type}

/-- The scope that a step leaves, also after an error. -/
def EvalM.scopeAfter : EStateM.Result (EvalError α) (Scope α) β → Scope α
  | .ok _ scope => scope
  | .error _ scope => scope

/-- From one scope to a later one, only the innermost frame differs, and there symbols are added
behind those that were bound. -/
structure Scope.Confined (before after : Scope α) : Prop where
  outer : after.outer = before.outer
  inner : before.inner.keys <+: after.inner.keys

namespace Scope.Confined

theorem refl (scope : Scope α) : scope.Confined scope := ⟨rfl, List.prefix_rfl⟩

theorem trans {first second third : Scope α} (h : first.Confined second)
    (h' : second.Confined third) : first.Confined third :=
  ⟨h'.outer.trans h.outer, h.inner.trans h'.inner⟩

theorem set (scope : Scope α) (symbol : Symbol) (value : Expr α) :
    scope.Confined (scope.set symbol value) := by
  refine ⟨rfl, ?_⟩
  rw [Scope.set, OrderedMap.keys_insert]
  split
  · exact List.prefix_rfl
  · exact List.prefix_append _ _

theorem depth {before after : Scope α} (h : before.Confined after) : after.depth = before.depth := by
  rw [Scope.depth, Scope.depth, h.outer]

/-- A frame gone, what it was pushed on is there again. -/
theorem pop {scope after : Scope α} {frame : Frame α} (h : (scope.push frame).Confined after) :
    after.pop = scope := by
  have shape : after.outer = scope.inner :: scope.outer := h.outer
  rw [Scope.pop, shape]

theorem bound {before after : Scope α} (h : before.Confined after) {symbol : Symbol}
    (known : (before.get? symbol).isSome) : (after.get? symbol).isSome := by
  have keep : ∀ {frame : Frame α}, (frame.find? symbol).isSome →
      ∀ {other : Frame α}, frame.keys <+: other.keys → (other.find? symbol).isSome := by
    intro frame found other more
    rw [OrderedMap.isSome_find?] at found ⊢
    obtain ⟨key, member, same⟩ := found
    exact ⟨key, more.subset member, same⟩
  rw [Scope.isSome_get?] at known ⊢
  rw [h.outer]
  exact known.imp (fun found => keep found h.inner) id

end Scope.Confined

/-- A step that, run in any scope, confines its effect to the innermost frame. -/
def EvalM.Confines (step : EvalM α β) : Prop :=
  ∀ scope : Scope α, scope.Confined (EvalM.scopeAfter (step scope))

namespace EvalM.Confines

variable {γ : Type}

theorem pure (value : β) : EvalM.Confines (Pure.pure value : EvalM α β) :=
  fun scope => .refl scope

theorem throw (error : EvalError α) : EvalM.Confines (MonadExcept.throw error : EvalM α β) :=
  fun scope => .refl scope

theorem bind {step : EvalM α β} {next : β → EvalM α γ} (h : step.Confines)
    (h' : ∀ value, (next value).Confines) : (step >>= next).Confines := by
  intro scope
  have first := h scope
  change scope.Confined (scopeAfter (EStateM.bind step next scope))
  unfold EStateM.bind
  cases run : step scope with
  | ok value middle =>
      rw [run] at first
      exact first.trans (h' value middle)
  | error error middle =>
      rw [run] at first
      exact first

theorem get : EvalM.Confines (MonadState.get : EvalM α (Scope α)) := fun scope => .refl scope

theorem ofExcept (result : Except (EvalError α) β) : (EvalM.ofExcept result).Confines := by
  cases result with
  | ok value => exact .pure value
  | error error => exact .throw error

theorem bindSymbol (symbol : Symbol) (value : Expr α) : (EvalM.bindSymbol symbol value).Confines :=
  fun scope => .set scope symbol value

end EvalM.Confines

/-- A step that leaves a scope exactly as it is. -/
def EvalM.Keeps (scope : Scope α) (step : EvalM α β) : Prop :=
  EvalM.scopeAfter (step scope) = scope

namespace EvalM.Keeps

variable {γ : Type} {scope : Scope α}

theorem throw (error : EvalError α) : Keeps scope (MonadExcept.throw error : EvalM α β) := rfl

theorem bind {step : EvalM α β} {next : β → EvalM α γ} (h : Keeps scope step)
    (h' : ∀ value, Keeps scope (next value)) : Keeps scope (step >>= next) := by
  change scopeAfter (EStateM.bind step next scope) = scope
  unfold Keeps at h
  unfold EStateM.bind
  cases run : step scope with
  | ok value middle =>
      rw [run] at h
      obtain rfl : middle = scope := h
      exact h' value
  | error error middle =>
      rw [run] at h
      exact h

theorem get {next : Scope α → EvalM α β} (h : Keeps scope (next scope)) :
    Keeps scope (MonadState.get >>= next) := h

/-- A step in a frame of its own changes nothing outside it. -/
theorem inFrame {step : EvalM α β} (h : step.Confines) (frame : Frame α) :
    Keeps scope (EvalM.inFrame frame step) := by
  have inside := h (scope.push frame)
  unfold Keeps EvalM.inFrame
  cases run : step (scope.push frame) with
  | ok value after =>
      rw [run] at inside
      exact inside.pop
  | error error after =>
      rw [run] at inside
      exact inside.pop

end EvalM.Keeps

namespace Expr

open EvalM (Confines Keeps scopeAfter)

variable [Scalar α]

theorem operate_confines (op : BinaryOp) (left right : Expr α) : (operate op left right).Confines := by
  unfold operate
  split
  · exact .bindSymbol _ _
  · exact .ofExcept _

omit [Scalar α] in
theorem asBound_confines (head : Symbol) (value : Expr α) : (asBound head value).Confines := by
  unfold asBound
  split
  · exact .pure _
  · exact .throw _

omit [Scalar α] in
theorem callee_confines (head : Symbol) : (callee head : EvalM α (Callee α)).Confines := by
  unfold callee
  refine .bind .get fun scope => ?_
  split
  · exact .pure _
  · exact .throw _
  · split
    · exact .pure _
    · exact .throw _

theorem invoke_confines {call : Call α} (hc : ∀ ps body values, (call ps body values).Confines)
    (head : Symbol) (count : Nat) {arguments : EvalM α (List (Expr α))} (ha : arguments.Confines) :
    (invoke call head count arguments).Confines := by
  unfold invoke
  refine .bind (callee_confines head) fun target => ?_
  cases target with
  | builtin target => exact .bind ha fun values => .ofExcept _
  | user ps body =>
      dsimp only
      split
      · exact .bind ha fun values => hc ps body values
      · exact .throw _

mutual

/-- An evaluation confines its effect if the calls in it do. -/
theorem evaluateWith_confines {call : Call α} (hc : ∀ ps body values, (call ps body values).Confines) :
    ∀ expression : Expr α, (evaluateWith call expression).Confines
  | .number value => .pure _
  | .interval value => .pure _
  | .symbol value => by
      unfold evaluateWith
      refine .bind .get fun scope => ?_
      split
      · exact .pure _
      · exact .throw _
  | .unary op operand => by
      unfold evaluateWith
      exact .bind (evaluateWith_confines hc operand) fun value => .ofExcept _
  | .binary op left right => by
      have hr := evaluateWith_confines hc right
      unfold evaluateWith
      split
      · exact .bind hr fun value => operate_confines _ _ _
      · exact .bind (evaluateWith_confines hc left) fun value =>
          .bind hr fun value' => operate_confines _ _ _
  | .branch condition consequence alternative => by
      unfold evaluateWith
      refine .bind (evaluateWith_confines hc condition) fun value => ?_
      split
      · exact evaluateWith_confines hc consequence
      · exact evaluateWith_confines hc alternative
  | .composite head arguments bracket => by
      have called := invoke_confines hc head arguments.length (evaluateAllWith_confines hc arguments)
      cases bracket with
      | round => exact called
      | square => exact called
      | curly =>
          unfold evaluateWith
          refine .bind .get fun scope => ?_
          split
          · exact .pure _
          · exact constructWith_confines hc head arguments
  | .function head parameters body => .bindSymbol _ _

theorem constructWith_confines {call : Call α} (hc : ∀ ps body values, (call ps body values).Confines)
    (head : Symbol) : ∀ arguments : List (Expr α), (constructWith call head arguments).Confines
  | [low, high] => by
      unfold constructWith
      exact .bind (evaluateWith_confines hc low) fun value => .bind (asBound_confines head value)
        fun x => .bind (evaluateWith_confines hc high) fun value' =>
          .bind (asBound_confines head value') fun y => .bindSymbol _ _
  | [] => .throw _
  | [_] => .throw _
  | _ :: _ :: _ :: _ => .throw _

theorem evaluateAllWith_confines {call : Call α}
    (hc : ∀ ps body values, (call ps body values).Confines) :
    ∀ expressions : List (Expr α), (evaluateAllWith call expressions).Confines
  | [] => .pure _
  | first :: rest => by
      unfold evaluateAllWith
      exact .bind (evaluateWith_confines hc first) fun value =>
        .bind (evaluateAllWith_confines hc rest) fun values => .pure _

end

/-- A call leaves the scope of the caller alone, whatever its body does. -/
theorem callWithin_keeps (depth : Nat) (parameters : List Symbol) (body : Expr α)
    (values : List (Expr α)) (scope : Scope α) :
    Keeps scope (callWithin depth parameters body values) := by
  -- by induction on the depth, since what a body calls has one level less
  induction depth generalizing parameters body values scope with
  | zero => exact .throw _
  | succ depth ih =>
      refine .inFrame (evaluateWith_confines ?_ body) _
      intro ps body values scope
      rw [ih ps body values scope]
      exact .refl scope

theorem evaluate_confines (depth : Nat) (expression : Expr α) :
    (expression.evaluate depth).Confines := by
  refine evaluateWith_confines ?_ expression
  intro ps body values scope
  rw [callWithin_keeps depth ps body values scope]
  exact .refl scope

theorem evaluateAllWith_keeps {call : Call α} {scope : Scope α} {arguments : List (Expr α)}
    (plain : ∀ argument ∈ arguments, Keeps scope (evaluateWith call argument)) :
    Keeps scope (evaluateAllWith call arguments) := by
  induction arguments with
  | nil => rfl
  | cons first rest ih =>
      have head := plain first List.mem_cons_self
      have tail := ih fun argument member => plain argument (List.mem_cons_of_mem first member)
      exact .bind head fun value => .bind tail fun values => rfl

theorem symbol_keeps (depth : Nat) (scope : Scope α) (value : Symbol) :
    Keeps scope ((symbol value : Expr α).evaluate depth) := by
  rw [evaluate, evaluateWith]
  refine .get ?_
  split
  · rfl
  · exact .throw _

/-- A call of a function of the scope, with arguments that have no effect, has none. -/
theorem composite_keeps {depth : Nat} {scope : Scope α} {head name : Symbol}
    {arguments : List (Expr α)} {bracket : Bracket} {parameters : List Symbol} {body : Expr α}
    (calls : bracket ≠ .curly) (found : scope.get? head = some (function name parameters body))
    (plain : ∀ argument ∈ arguments, Keeps scope (argument.evaluate depth)) :
    Keeps scope ((composite head arguments bracket).evaluate depth) := by
  have values : Keeps scope (evaluateAllWith (callWithin depth) arguments) :=
    evaluateAllWith_keeps plain
  have called : Keeps scope (invoke (callWithin depth) head arguments.length
      (evaluateAllWith (callWithin depth) arguments)) := by
    unfold invoke callee
    rw [bind_assoc]
    refine .get ?_
    rw [found]
    change Keeps scope (if parameters.length = arguments.length then _ else _)
    split
    · exact .bind values fun values => callWithin_keeps depth parameters body values scope
    · exact .throw _
  cases bracket with
  | round => exact called
  | square => exact called
  | curly => exact absurd rfl calls

/-- Evaluation, to whatever depth and with whatever outcome, binds in the innermost frame only and
behind what is bound there; and a call of a function of the scope changes nothing at all unless its
arguments do, which numbers and symbols never do. -/
theorem evaluate_confined (depth : Nat) (scope : Scope α) :
    (∀ expression : Expr α, ∀ after, after = scopeAfter (expression.evaluate depth scope) →
      after.outer = scope.outer ∧ after.depth = scope.depth ∧
      (∀ symbol, (scope.get? symbol).isSome → (after.get? symbol).isSome) ∧
      scope.inner.keys <+: after.inner.keys) ∧
    (∀ head name parameters body arguments bracket, bracket ≠ .curly →
      scope.get? head = some (function name parameters body) →
      (∀ argument ∈ arguments, scopeAfter (argument.evaluate depth scope) = scope) →
      scopeAfter ((composite head arguments bracket).evaluate depth scope) = scope) ∧
    (∀ value : α, scopeAfter ((number value).evaluate depth scope) = scope) ∧
    ∀ value, scopeAfter ((symbol value : Expr α).evaluate depth scope) = scope := by
  refine ⟨?_, ?_, fun value => rfl, symbol_keeps depth scope⟩
  · rintro expression after rfl
    have h := evaluate_confines depth expression scope
    exact ⟨h.outer, h.depth, fun symbol => h.bound, h.inner⟩
  · intro head name parameters body arguments bracket calls found plain
    exact composite_keeps calls found plain

/-- A body that rebinds its parameter, binds a new name and then fails leaves the caller's `x` and
nothing else behind. -/
theorem evaluate_confined_failing_body :
    let f : Symbol := ⟨0, "f"⟩
    let x : Symbol := ⟨1, "x"⟩
    let g : Expr Float := .function ⟨2, "g"⟩ [] (.number 1)
    let body : Expr Float := .binary .sequence (.binary .assign (.symbol x) g) (.symbol ⟨3, "nope"⟩)
    let scope : Scope Float := ⟨⟨[(f, .function f [x] body), (x, .number 2)]⟩, []⟩
    let call : Expr Float := .composite f [.symbol x] .round
    scope.get? f = some (.function f [x] body) ∧
      call.evaluate 5 scope = .error (.undefinedVariable "nope") scope ∧
      scopeAfter (call.evaluate 5 scope) = scope := by
  intro f x g body scope call
  refine ⟨rfl, rfl, ?_⟩
  refine (evaluate_confined 5 scope).2.1 f f [x] body [.symbol x] .round (by decide) rfl ?_
  intro argument member
  rw [List.mem_singleton.mp member]
  exact symbol_keeps 5 scope x

end Expr

end IntervalCalc

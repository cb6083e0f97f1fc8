import IntervalCalc.Evaluation.Evaluate
import IntervalCalc.Proofs.Agreement

/-!
How deep calls may be nested. The depth is asked for only where a call would go beyond it, and the
error that stops the evaluation there is never caught. So an evaluation that ends in any other way
has the same outcome at every greater depth.
-/

namespace IntervalCalc

variable {α β γ : Type}

namespace EvalM

/-- The second step does what the first one does wherever that one is not too deep. -/
def Deepens (x y : EvalM α β) : Prop :=
  ∀ scope, (∀ after, x scope ≠ .error .callTooDeep after) → y scope = x scope

variable {x y : EvalM α β} {f g : β → EvalM α γ}

theorem Deepens.refl (x : EvalM α β) : x.Deepens x :=
  fun _ _ => rfl

theorem Deepens.bind (h : x.Deepens y) (h' : ∀ value, (f value).Deepens (g value)) :
    (x >>= f).Deepens (y >>= g) := by
  intro scope ends
  cases ran : x scope with
  | error error after =>
      have same : y scope = .error error after := by
        rw [h scope, ran]
        intro other deep
        exact ends other (Run.bind_error deep)
      rw [Run.bind_error ran, Run.bind_error same]
  | ok value middle =>
      have same : y scope = .ok value middle := by
        rw [h scope, ran]
        intro other deep
        rw [ran] at deep
        cases deep
      rw [Run.bind_ok ran] at ends ⊢
      rw [Run.bind_ok same]
      exact h' value middle ends

theorem Deepens.inFrame (h : x.Deepens y) (frame : Frame α) :
    (EvalM.inFrame frame x).Deepens (EvalM.inFrame frame y) := by
  intro scope ends
  unfold EvalM.inFrame at ends ⊢
  rw [h (scope.push frame)]
  intro after deep
  refine ends after.pop ?_
  rw [deep]

end EvalM

namespace Expr

open EvalM (Deepens)

variable [Scalar α]

/-- Calls of the second kind do what those of the first do wherever these are not too deep. -/
def CallsDeepen (call call' : Call α) : Prop :=
  ∀ parameters body values, (call parameters body values).Deepens (call' parameters body values)

variable {call call' : Call α}

theorem invoke_deepens (hc : CallsDeepen call call') (head : Symbol) (count : Nat)
    {arguments arguments' : EvalM α (List (Expr α))} (ha : arguments.Deepens arguments') :
    (invoke call head count arguments).Deepens (invoke call' head count arguments') := by
  unfold invoke
  refine (Deepens.refl _).bind fun target => ?_
  cases target with
  | builtin target => exact ha.bind fun values => .refl _
  | user parameters body =>
      dsimp only
      split
      · exact ha.bind fun values => hc parameters body values
      · exact .refl _

mutual

/-- An evaluation is too deep only if one of the calls in it is. -/
theorem evaluateWith_deepens (hc : CallsDeepen call call') : ∀ expression : Expr α,
    (evaluateWith call expression).Deepens (evaluateWith call' expression)
  | .number value => .refl _
  | .interval value => .refl _
  | .symbol value => .refl _
  | .unary op operand => by
      unfold evaluateWith
      exact (evaluateWith_deepens hc operand).bind fun value => .refl _
  | .binary op left right => by
      have hr := evaluateWith_deepens hc right
      unfold evaluateWith
      split
      · exact hr.bind fun value => .refl _
      · exact (evaluateWith_deepens hc left).bind fun value => hr.bind fun value' => .refl _
  | .branch condition consequence alternative => by
      unfold evaluateWith
      refine (evaluateWith_deepens hc condition).bind fun value => ?_
      split
      · exact evaluateWith_deepens hc consequence
      · exact evaluateWith_deepens hc alternative
  | .composite head arguments bracket => by
      have called := invoke_deepens hc head arguments.length (evaluateAllWith_deepens hc arguments)
      cases bracket with
      | round => exact called
      | square => exact called
      | curly =>
          unfold evaluateWith
          refine (Deepens.refl _).bind fun scope => ?_
          split
          · exact .refl _
          · exact constructWith_deepens hc head arguments
  | .function head parameters body => .refl _

theorem constructWith_deepens (hc : CallsDeepen call call') (head : Symbol) :
    ∀ arguments : List (Expr α),
      (constructWith call head arguments).Deepens (constructWith call' head arguments)
  | [low, high] => by
      unfold constructWith
      exact (evaluateWith_deepens hc low).bind fun value => (Deepens.refl _).bind fun x =>
        (evaluateWith_deepens hc high).bind fun value' => .refl _
  | [] => .refl _
  | [_] => .refl _
  | _ :: _ :: _ :: _ => .refl _

theorem evaluateAllWith_deepens (hc : CallsDeepen call call') :
    ∀ expressions : List (Expr α),
      (evaluateAllWith call expressions).Deepens (evaluateAllWith call' expressions)
  | [] => .refl _
  | first :: rest => by
      unfold evaluateAllWith
      exact (evaluateWith_deepens hc first).bind fun value =>
        (evaluateAllWith_deepens hc rest).bind fun values => .refl _

end

theorem callWithin_deepens {depth deeper : Nat} (le : depth ≤ deeper) :
    CallsDeepen (callWithin (α := α) depth) (callWithin deeper) := by
  induction depth generalizing deeper with
  | zero => exact fun _ _ _ scope ends => (ends scope rfl).elim
  | succ depth ih =>
      intro parameters body values
      obtain ⟨deeper, rfl⟩ : ∃ more, deeper = more + 1 := ⟨deeper - 1, by omega⟩
      exact (evaluateWith_deepens (ih (Nat.le_of_succ_le_succ le)) body).inFrame _

/-- A depth that is not exceeded is as good as any greater one. -/
theorem evaluate_of_deeper {depth deeper : Nat} (le : depth ≤ deeper) {expression : Expr α}
    {scope : Scope α}
    (ends : ∀ after, expression.evaluate depth scope ≠ .error .callTooDeep after) :
    expression.evaluate deeper scope = expression.evaluate depth scope :=
  evaluateWith_deepens (callWithin_deepens le) expression scope ends

end Expr

end IntervalCalc

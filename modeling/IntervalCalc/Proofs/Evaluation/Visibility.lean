import IntervalCalc.Proofs.Agreement
import IntervalCalc.Proofs.Evaluation.Confinement

/-!
What an evaluation sees of a scope. It looks symbols up and binds them in the innermost frame, and
a call puts a frame inside and takes it away again, so scopes in which every symbol has the same
value cannot be told apart, however many frames they are made of. In particular one frame that
holds the nearest binding of every symbol stands for a whole chain.
-/

namespace IntervalCalc

variable {α β : Type}

/-- Looking up among bindings of which only some are kept, for a key that is kept. -/
theorem OrderedMap.lookup_filter_of_kept {κ ν : Type} [BEq κ] {keep : κ → Bool} {key : κ}
    (kept : ∀ other, key == other → keep other) (entries : List (κ × ν)) :
    (entries.filter fun entry => keep entry.1).lookup key = entries.lookup key := by
  induction entries with
  | nil => rfl
  | cons entry rest ih =>
      obtain ⟨other, value⟩ := entry
      rw [List.filter_cons, List.lookup_cons]
      by_cases same : key == other
      · simp only [kept other same, if_true, List.lookup_cons, same]
      · simp only [same]
        split
        · simp only [List.lookup_cons, same, ih]
        · exact ih

/-- The bindings of a frame, and behind them those of another frame that it does not hide. -/
def Frame.over (inner outer : Frame α) : Frame α :=
  ⟨inner.entries ++ outer.entries.filter fun entry => !inner.contains entry.1⟩

theorem Frame.find?_over (inner outer : Frame α) (symbol : Symbol) :
    (inner.over outer).find? symbol = (inner.find? symbol).or (outer.find? symbol) := by
  have split : (inner.over outer).find? symbol = (inner.find? symbol).or
      ((outer.entries.filter fun entry => !inner.contains entry.1).lookup symbol) :=
    List.lookup_append
  rw [split]
  cases found : inner.find? symbol with
  | some value => rfl
  | none =>
      have kept : ∀ other, symbol == other → !inner.contains other := by
        intro other same
        have absent : inner.find? other = none :=
          (OrderedMap.lookup_congr same inner.entries).symm.trans found
        rw [OrderedMap.contains, absent]
        rfl
      exact OrderedMap.lookup_filter_of_kept kept outer.entries

namespace Scope

/-- Every symbol has the same value in both scopes, or none in either. -/
def Matches (s t : Scope α) : Prop :=
  ∀ symbol, s.get? symbol = t.get? symbol

/-- One frame with the nearest binding of every symbol of a chain. -/
def flatten (scope : Scope α) : Scope α :=
  ⟨(scope.inner :: scope.outer).foldr Frame.over .empty, []⟩

namespace Matches

variable {s t : Scope α}

theorem set (same : s.Matches t) (symbol : Symbol) (value : Expr α) :
    (s.set symbol value).Matches (t.set symbol value) := by
  intro other
  rw [get?_set, get?_set, same other]

theorem push (same : s.Matches t) (frame : Frame α) : (s.push frame).Matches (t.push frame) := by
  intro symbol
  rw [get?_push, get?_push, same symbol]

theorem flatten (scope : Scope α) : scope.Matches scope.flatten := by
  intro symbol
  have nearest : ∀ frames : List (Frame α), (frames.foldr Frame.over .empty).find? symbol =
      frames.findSome? (·.find? symbol) := by
    intro frames
    induction frames with
    | nil => rfl
    | cons frame frames ih =>
        rw [List.foldr_cons, Frame.find?_over, ih, List.findSome?_cons]
        cases frame.find? symbol <;> rfl
  have single : scope.flatten.get? symbol = scope.flatten.inner.find? symbol := by
    rw [get?, List.findSome?_cons]
    cases scope.flatten.inner.find? symbol <;> rfl
  rw [single]
  exact (nearest (scope.inner :: scope.outer)).symm

end Matches

end Scope

namespace EvalM

open Scope (Matches)

variable {f : Scope α → EvalM α β}

theorem get_alike (h : ∀ s t, s.Matches t → Alike Matches (f s) (f t)) :
    Alike Matches (MonadState.get >>= f) (MonadState.get >>= f) :=
  fun s t same => h s t same s t same

theorem ofExcept_alike (result : Except (EvalError α) β) :
    Alike Matches (EvalM.ofExcept result) (EvalM.ofExcept result) := by
  cases result with
  | ok value => exact .pure value
  | error error => exact .throw error

theorem bindSymbol_alike (symbol : Symbol) (value : Expr α) :
    Alike Matches (EvalM.bindSymbol symbol value) (EvalM.bindSymbol symbol value) :=
  fun _ _ same => ⟨rfl, same.set symbol value⟩

/-- A step in a frame of its own leaves both scopes as they were. -/
theorem inFrame_alike {step : EvalM α β} (confined : step.Confines)
    (h : Alike Matches step step) (frame : Frame α) :
    Alike Matches (EvalM.inFrame frame step) (EvalM.inFrame frame step) := by
  intro s t same
  have agree := h _ _ (same.push frame)
  have left := confined (s.push frame)
  have right := confined (t.push frame)
  unfold EvalM.inFrame
  cases ran : step (s.push frame) with
  | ok value s' =>
      cases ran' : step (t.push frame) with
      | ok other t' =>
          rw [ran, ran'] at agree
          rw [ran] at left
          rw [ran'] at right
          have back : s'.pop = s := left.pop
          have back' : t'.pop = t := right.pop
          refine ⟨agree.1, ?_⟩
          rw [back, back']
          exact same
      | error error t' => rw [ran, ran'] at agree; exact agree.elim
  | error error s' =>
      cases ran' : step (t.push frame) with
      | ok value t' => rw [ran, ran'] at agree; exact agree.elim
      | error other t' =>
          rw [ran, ran'] at agree
          rw [ran] at left
          rw [ran'] at right
          have back : s'.pop = s := left.pop
          have back' : t'.pop = t := right.pop
          refine ⟨agree.1, ?_⟩
          rw [back, back']
          exact same

end EvalM

namespace Expr

open Scope (Matches)
open EvalM (get_alike ofExcept_alike bindSymbol_alike inFrame_alike)

variable [Scalar α]

theorem operate_alike (op : BinaryOp) (left right : Expr α) :
    Alike Matches (operate op left right) (operate op left right) := by
  unfold operate
  split
  · exact bindSymbol_alike _ _
  · exact ofExcept_alike _

omit [Scalar α] in
theorem asBound_alike (head : Symbol) (value : Expr α) :
    Alike Matches (asBound head value) (asBound head value) := by
  unfold asBound
  split
  · exact .pure _
  · exact .throw _

omit [Scalar α] in
theorem callee_alike (head : Symbol) :
    Alike Matches (callee head : EvalM α (Callee α)) (callee head) := by
  unfold callee
  refine get_alike fun s t same => ?_
  rw [same head]
  split
  · exact .pure _
  · exact .throw _
  · split
    · exact .pure _
    · exact .throw _

/-- Calls run alike in scopes that match. -/
def CallsAlike (call : Call α) : Prop :=
  ∀ parameters body values,
    Alike Matches (call parameters body values) (call parameters body values)

theorem invoke_alike {call : Call α} (hc : CallsAlike call) (head : Symbol) (count : Nat)
    {arguments : EvalM α (List (Expr α))} (ha : Alike Matches arguments arguments) :
    Alike Matches (invoke call head count arguments) (invoke call head count arguments) := by
  unfold invoke
  refine (callee_alike head).bind fun target => ?_
  cases target with
  | builtin target => exact ha.bind fun values => ofExcept_alike _
  | user ps body =>
      dsimp only
      split
      · exact ha.bind fun values => hc ps body values
      · exact .throw _

mutual

/-- Evaluations in matching scopes agree if the calls in them do. -/
theorem evaluateWith_alike {call : Call α} (hc : CallsAlike call) : ∀ expression : Expr α,
    Alike Matches (evaluateWith call expression) (evaluateWith call expression)
  | .number value => .pure _
  | .interval value => .pure _
  | .symbol value => by
      unfold evaluateWith
      refine get_alike fun s t same => ?_
      rw [same value]
      split
      · exact .pure _
      · exact .throw _
  | .unary op operand => by
      unfold evaluateWith
      exact (evaluateWith_alike hc operand).bind fun value => ofExcept_alike _
  | .binary op left right => by
      have hr := evaluateWith_alike hc right
      unfold evaluateWith
      split
      · exact hr.bind fun value => operate_alike _ _ _
      · exact (evaluateWith_alike hc left).bind fun value =>
          hr.bind fun value' => operate_alike _ _ _
  | .branch condition consequence alternative => by
      unfold evaluateWith
      refine (evaluateWith_alike hc condition).bind fun value => ?_
      split
      · exact evaluateWith_alike hc consequence
      · exact evaluateWith_alike hc alternative
  | .composite head arguments bracket => by
      have called := invoke_alike hc head arguments.length (evaluateAllWith_alike hc arguments)
      cases bracket with
      | round => exact called
      | square => exact called
      | curly =>
          unfold evaluateWith
          refine get_alike fun s t same => ?_
          rw [same head]
          split
          · exact .pure _
          · exact constructWith_alike hc head arguments
  | .function head parameters body => bindSymbol_alike _ _

theorem constructWith_alike {call : Call α} (hc : CallsAlike call) (head : Symbol) :
    ∀ arguments : List (Expr α),
      Alike Matches (constructWith call head arguments) (constructWith call head arguments)
  | [low, high] => by
      unfold constructWith
      exact (evaluateWith_alike hc low).bind fun value => (asBound_alike head value).bind fun x =>
        (evaluateWith_alike hc high).bind fun value' => (asBound_alike head value').bind fun y =>
          bindSymbol_alike _ _
  | [] => .throw _
  | [_] => .throw _
  | _ :: _ :: _ :: _ => .throw _

theorem evaluateAllWith_alike {call : Call α} (hc : CallsAlike call) :
    ∀ expressions : List (Expr α),
      Alike Matches (evaluateAllWith call expressions) (evaluateAllWith call expressions)
  | [] => .pure _
  | first :: rest => by
      unfold evaluateAllWith
      exact (evaluateWith_alike hc first).bind fun value =>
        (evaluateAllWith_alike hc rest).bind fun values => .pure _

end

theorem callWithin_alike (depth : Nat) : CallsAlike (callWithin (α := α) depth) := by
  induction depth with
  | zero => exact fun parameters body values => .throw _
  | succ depth ih =>
      intro parameters body values
      exact inFrame_alike (evaluate_confines depth body) (evaluateWith_alike ih body) _

/-- Evaluation, to whatever depth, gives in two scopes in which every symbol has the same value the
same value or the same error, and every symbol has the same value in the two scopes that it leaves.
So it does in a chain of frames and in the one frame with the nearest bindings. -/
theorem evaluate_visible (depth : Nat) (expression : Expr α) :
    (∀ s t : Scope α, (∀ symbol, s.get? symbol = t.get? symbol) →
      Agree Matches (expression.evaluate depth s) (expression.evaluate depth t)) ∧
    ∀ s : Scope α, s.flatten.depth = 1 ∧ (∀ symbol, s.flatten.get? symbol = s.get? symbol) ∧
      Agree Matches (expression.evaluate depth s) (expression.evaluate depth s.flatten) := by
  have agree : Alike Matches (expression.evaluate depth) (expression.evaluate depth) :=
    evaluateWith_alike (callWithin_alike depth) expression
  refine ⟨agree, fun s => ⟨rfl, fun symbol => ?_, ?_⟩⟩
  · exact (Matches.flatten s symbol).symm
  · exact agree s s.flatten (.flatten s)

/-- A frame that hides the outer `x` and one frame with the same nearest bindings, in another
order: a call that rebinds its parameter and reads the caller's `x` is the same in both. -/
theorem evaluate_visible_hidden_binding :
    let f : Symbol := ⟨0, "f"⟩
    let x : Symbol := ⟨1, "x"⟩
    let a : Symbol := ⟨2, "a"⟩
    let body : Expr Float := .binary .sequence (.binary .assign (.symbol a) (.number 7)) (.symbol x)
    let s : Scope Float := ⟨⟨[(x, .number 1)]⟩, [⟨[(x, .number 5), (f, .function f [a] body)]⟩]⟩
    let t : Scope Float := ⟨⟨[(f, .function f [a] body), (x, .number 1)]⟩, []⟩
    let call : Expr Float := .composite f [.symbol x] .round
    (∀ symbol, s.get? symbol = t.get? symbol) ∧ call.evaluate 5 s = .ok (.number 1) s ∧
      Agree Matches (call.evaluate 5 s) (call.evaluate 5 t) := by
  intro f x a body s t call
  have same : ∀ symbol, s.get? symbol = t.get? symbol := by
    intro symbol
    have apart : symbol == x → (symbol == f) = false := by
      intro isX
      rw [BEq.congr_left isX]
      rfl
    simp only [s, t, Scope.get?, OrderedMap.find?, List.findSome?_cons, List.lookup_cons,
      List.lookup_nil, List.findSome?_nil]
    cases isX : symbol == x with
    | true => rw [apart isX]
    | false => cases symbol == f <;> rfl
  exact ⟨same, rfl, (evaluate_visible 5 call).1 s t same⟩

end Expr

end IntervalCalc

import IntervalCalc.Proofs.Evaluation.Confinement
import IntervalCalc.Proofs.Interval.Ordered

/-!
Values. An evaluation gives a number, an interval or a function, and binds nothing else. A
property that every interval has which the operations make is passed on with the values: if the
literals of a program and the values in scope have it, then so has whatever the program computes.
-/

namespace IntervalCalc

variable {α β γ : Type} {P : Interval α → Prop}

theorem OrderedMap.exists_entry {κ ν : Type} [BEq κ] {map : OrderedMap κ ν} {key : κ} {value : ν}
    (found : map.find? key = some value) : ∃ entry ∈ map.entries, entry.2 = value := by
  obtain ⟨entries⟩ := map
  unfold find? at found
  induction entries with
  | nil => cases found
  | cons entry rest ih =>
      obtain ⟨other, bound⟩ := entry
      rw [List.lookup_cons] at found
      split at found
      · cases found
        exact ⟨_, List.mem_cons_self, rfl⟩
      · obtain ⟨entry, member, same⟩ := ih found
        exact ⟨entry, List.mem_cons_of_mem _ member, same⟩

/-- The intervals that an expression contains, at any depth, have a property. -/
inductive Expr.Literals (P : Interval α → Prop) : Expr α → Prop
  | number (x : α) : Literals P (.number x)
  | interval {X : Interval α} : P X → Literals P (.interval X)
  | symbol (name : Symbol) : Literals P (.symbol name)
  | unary {op : UnaryOp} {operand : Expr α} : Literals P operand → Literals P (.unary op operand)
  | binary {op : BinaryOp} {left right : Expr α} : Literals P left → Literals P right →
      Literals P (.binary op left right)
  | branch {condition consequence alternative : Expr α} : Literals P condition →
      Literals P consequence → Literals P alternative →
      Literals P (.branch condition consequence alternative)
  | composite {head : Symbol} {arguments : List (Expr α)} {bracket : Bracket} :
      (∀ argument ∈ arguments, Literals P argument) →
      Literals P (.composite head arguments bracket)
  | function {head : Symbol} {parameters : List Symbol} {body : Expr α} : Literals P body →
      Literals P (.function head parameters body)

mutual

/-- Nothing is asked of an interval that any interval does not have. -/
theorem Expr.literals_trivial : ∀ expression : Expr α, expression.Literals fun _ => True
  | .number x => .number x
  | .interval _ => .interval .intro
  | .symbol name => .symbol name
  | .unary _ operand => .unary operand.literals_trivial
  | .binary _ left right => .binary left.literals_trivial right.literals_trivial
  | .branch condition consequence alternative =>
      .branch condition.literals_trivial consequence.literals_trivial alternative.literals_trivial
  | .composite _ arguments _ => .composite (literals_trivial_of_mem arguments)
  | .function _ _ body => .function body.literals_trivial

theorem Expr.literals_trivial_of_mem : ∀ expressions : List (Expr α),
    ∀ expression ∈ expressions, expression.Literals fun _ => True
  | [] => by simp
  | first :: rest =>
      List.forall_mem_cons.mpr ⟨first.literals_trivial, literals_trivial_of_mem rest⟩

end

/-- A number, an interval with a property, or a function whose body has only such intervals. -/
inductive Expr.Value (P : Interval α → Prop) : Expr α → Prop
  | number (x : α) : Value P (.number x)
  | interval {X : Interval α} : P X → Value P (.interval X)
  | function {head : Symbol} {parameters : List Symbol} {body : Expr α} : body.Literals P →
      Value P (.function head parameters body)

/-- A number, an interval or a function. -/
def Expr.IsValue (expression : Expr α) : Prop :=
  expression.kind ∈ [ExprKind.number, .interval, .function]

theorem Expr.Value.isValue {value : Expr α} (h : value.Value P) : value.IsValue := by
  cases h <;> simp [Expr.IsValue, Expr.kind]

/-- Every binding of a frame is a value. -/
def Frame.Values (P : Interval α → Prop) (frame : Frame α) : Prop :=
  ∀ entry ∈ frame.entries, entry.2.Value P

def Scope.Values (P : Interval α → Prop) (scope : Scope α) : Prop :=
  ∀ frame ∈ scope.inner :: scope.outer, Frame.Values P frame

/-- Numbers, intervals and functions are all that the frames of a scope bind. -/
def Scope.BindsValues (scope : Scope α) : Prop :=
  ∀ frame ∈ scope.inner :: scope.outer, ∀ entry ∈ frame.entries, entry.2.IsValue

theorem Scope.Values.bindsValues {scope : Scope α} (h : scope.Values P) : scope.BindsValues :=
  fun frame member entry bound => (h frame member entry bound).isValue

namespace Frame.Values

theorem empty : Frame.Values P (.empty : Frame α) := by
  intro entry member
  cases member

theorem find? {frame : Frame α} (h : frame.Values P) {symbol : Symbol} {value : Expr α}
    (found : frame.find? symbol = some value) : value.Value P := by
  obtain ⟨entry, member, rfl⟩ := OrderedMap.exists_entry found
  exact h entry member

theorem insert {frame : Frame α} (h : frame.Values P) (symbol : Symbol) {value : Expr α}
    (hv : value.Value P) : Frame.Values P (frame.insert symbol value) := by
  intro entry member
  unfold OrderedMap.insert at member
  split at member
  · obtain ⟨old, present, rfl⟩ := List.mem_map.mp member
    split
    · exact hv
    · exact h old present
  · rcases List.mem_append.mp member with old | new
    · exact h entry old
    · rw [List.mem_singleton.mp new]
      exact hv

theorem erase {frame : Frame α} (h : frame.Values P) (symbol : Symbol) :
    Frame.Values P (frame.erase symbol) :=
  fun entry member => h entry (List.mem_filter.mp member).1

theorem ofArguments (parameters : List Symbol) {arguments : List (Expr α)}
    (h : ∀ argument ∈ arguments, argument.Value P) :
    (Frame.ofArguments parameters arguments).Values P := by
  unfold Frame.ofArguments
  have given : ∀ entry ∈ parameters.zip arguments, entry.2.Value P :=
    fun entry member => h entry.2 (List.of_mem_zip member).2
  -- the frame grows by one binding after the other
  suffices grow : ∀ (entries : List (Symbol × Expr α)) (frame : Frame α),
      (∀ entry ∈ entries, entry.2.Value P) → frame.Values P →
      Frame.Values P (entries.foldl (fun frame entry => frame.insert entry.1 entry.2) frame) from
    grow _ _ given empty
  intro entries
  induction entries with
  | nil => exact fun frame _ h => h
  | cons entry rest ih =>
      intro frame given h
      refine ih _ (fun entry member => given entry (List.mem_cons_of_mem _ member)) ?_
      exact h.insert entry.1 (given entry List.mem_cons_self)

end Frame.Values

namespace Scope.Values

variable {scope : Scope α}

theorem empty : (.empty : Scope α).Values P := by
  intro frame member
  rw [List.mem_singleton.mp member]
  exact .empty

theorem get? (h : scope.Values P) {symbol : Symbol} {value : Expr α}
    (found : scope.get? symbol = some value) : value.Value P := by
  obtain ⟨frame, member, bound⟩ := List.exists_of_findSome?_eq_some found
  exact (h frame member).find? bound

theorem inner (h : scope.Values P) {frame : Frame α} (hf : frame.Values P) :
    Scope.Values P { scope with inner := frame } := by
  intro other member
  rcases List.mem_cons.mp member with rfl | outer
  · exact hf
  · exact h other (List.mem_cons_of_mem _ outer)

theorem set (h : scope.Values P) (symbol : Symbol) {value : Expr α} (hv : value.Value P) :
    (scope.set symbol value).Values P :=
  h.inner ((h _ List.mem_cons_self).insert symbol hv)

theorem remove (h : scope.Values P) (symbol : Symbol) : (scope.remove symbol).Values P :=
  h.inner ((h _ List.mem_cons_self).erase symbol)

theorem push (h : scope.Values P) {frame : Frame α} (hf : frame.Values P) :
    (scope.push frame).Values P := by
  intro other member
  rcases List.mem_cons.mp member with rfl | outer
  · exact hf
  · exact h other outer

theorem pop (h : scope.Values P) : scope.pop.Values P := by
  unfold Scope.pop
  unfold Scope.Values at h
  split
  · exact h
  next frame outer shape =>
    intro other member
    rw [shape] at h
    exact h other (List.mem_cons_of_mem _ member)

end Scope.Values

section Operations

variable [Scalar α] (closed : Interval.Closed P)

theorem Scalar.applyUnary_value {op : UnaryOp} {x : α} {result : Expr α}
    (found : Scalar.applyUnary op x = .ok result) : result.Value P := by
  cases op <;> cases found <;> exact .number _

theorem Scalar.applyBinary_value {op : BinaryOp} {x y : α} {result : Expr α}
    (found : Scalar.applyBinary op x y = .ok result) : result.Value P := by
  cases op <;> cases found <;> exact .number _

omit [Scalar α] in
theorem IntervalError.lift_value {made : Except (IntervalError α) (Interval α)} {result : Expr α}
    (h : ∀ X, made = .ok X → P X) (found : IntervalError.lift made = .ok result) :
    result.Value P := by
  cases made with
  | ok X => cases found; exact .interval (h X rfl)
  | error error => cases found

include closed

theorem Interval.applyUnary_value {op : UnaryOp} {X : Interval α} {result : Expr α} (hX : P X)
    (found : Interval.applyUnary op X = .ok result) : result.Value P := by
  cases op <;> cases found
  case plus | copy => exact .interval hX
  case neg | increment | decrement => exact .interval (closed.between _ _)

theorem Interval.applyBinary_value {op : BinaryOp} {X Y : Interval α} {result : Expr α}
    (found : Interval.applyBinary op X Y = .ok result) : result.Value P := by
  cases op
  case div => exact IntervalError.lift_value (fun Z made => closed.div made) found
  case add | sub | mul => cases found; exact .interval (closed.between _ _)
  case eq | ne => cases found; exact .number _
  all_goals cases found

namespace Expr

theorem applyUnary_value {op : UnaryOp} {value result : Expr α} (h : value.Value P)
    (found : value.applyUnary op = .ok result) : result.Value P := by
  cases h with
  | number x => exact Scalar.applyUnary_value found
  | interval hX => exact Interval.applyUnary_value closed hX found
  | function => cases found

theorem applyBinary_value {op : BinaryOp} {left right result : Expr α} (hr : right.Value P)
    (found : left.applyBinary op right = .ok result) : result.Value P := by
  unfold applyBinary at found
  split at found
  · cases found
    exact hr
  · split at found
    · exact Scalar.applyBinary_value found
    · split at found
      · exact Interval.applyBinary_value closed found
      · cases found
    · cases found
    · split at found
      · exact IntervalError.lift_value (fun Z made => closed.pow made) found
      · exact Interval.applyBinary_value closed found
    · split at found
      · cases found
      · exact Interval.applyBinary_value closed found
    · split at found <;> cases found
    · cases found

end Expr

namespace Builtin

theorem operand_value {builtin : Builtin} {value : Expr α} (h : value.Value P) {X : Interval α}
    (found : builtin.operand value = .ok X) : P X := by
  cases h with
  | number x => cases found; exact closed.point x
  | interval hX => cases found; exact hX
  | function => cases found

theorem apply_value {builtin : Builtin} {X : Interval α} {rest : List (Interval α)}
    {result : Expr α} (hX : P X) (found : builtin.apply X rest = .ok result) :
    result.Value P := by
  cases builtin
  case sin | cos => cases found; exact .interval (closed.sin _)
  case tan => cases found; exact .interval (closed.tan _)
  case cot | exp => cases found; exact .interval (closed.between _ _)
  case asin => exact IntervalError.lift_value (fun Z made => closed.asin made) found
  case log => exact IntervalError.lift_value (fun Z made => closed.log made) found
  case log10 => exact IntervalError.lift_value (fun Z made => closed.log10 made) found
  case hull =>
    cases found
    refine .interval ?_
    induction rest generalizing X with
    | nil => exact hX
    | cons Y rest ih => exact ih (closed.between _ _)
  case width | mid | mag | mig | inf | sup => cases found; exact .number _

theorem first_operand_value {builtin : Builtin} {values : List (Expr α)}
    (h : ∀ value ∈ values, value.Value P) {X : Interval α} {rest : List (Interval α)}
    (found : values.mapM builtin.operand = .ok (X :: rest)) : P X := by
  cases values with
  | nil => cases found
  | cons value others =>
      rw [List.mapM_cons] at found
      cases first : builtin.operand value with
      | error error => rw [first] at found; cases found
      | ok Y =>
          have hY := operand_value closed (h value List.mem_cons_self) first
          rw [first] at found
          cases operands : others.mapM builtin.operand with
          | error error => rw [operands] at found; cases found
          | ok more =>
              rw [operands] at found
              cases found
              exact hY

theorem call_value {builtin : Builtin} {values : List (Expr α)}
    (h : ∀ value ∈ values, value.Value P) {result : Expr α}
    (found : builtin.call values = .ok result) : result.Value P := by
  unfold call at found
  split at found
  · split at found
    next X rest operands =>
      exact apply_value closed (first_operand_value closed h operands) found
    · cases found
    · cases found
  · cases found

end Builtin

end Operations

/-- From a scope of values a step leaves a scope of values, and if it ends with a value then with
one of a kind. -/
def EvalM.Yields (P : Interval α → Prop) (Q : β → Prop) (step : EvalM α β) : Prop :=
  ∀ scope, scope.Values P → (scopeAfter (step scope)).Values P ∧
    ∀ value after, step scope = .ok value after → Q value

namespace EvalM.Yields

variable {Q : β → Prop} {Q' : γ → Prop}

theorem pure {value : β} (h : Q value) : Yields P Q (Pure.pure value : EvalM α β) := by
  intro scope values
  refine ⟨values, fun other after found => ?_⟩
  cases found
  exact h

theorem throw (error : EvalError α) : Yields P Q (MonadExcept.throw error : EvalM α β) :=
  fun scope values => ⟨values, fun other after found => by cases found⟩

theorem bind {step : EvalM α β} {next : β → EvalM α γ} (h : Yields P Q step)
    (h' : ∀ value, Q value → Yields P Q' (next value)) : Yields P Q' (step >>= next) := by
  intro scope values
  obtain ⟨kept, given⟩ := h scope values
  change (scopeAfter (EStateM.bind step next scope)).Values P ∧
    ∀ value after, EStateM.bind step next scope = .ok value after → Q' value
  unfold EStateM.bind
  cases ran : step scope with
  | ok value middle =>
      rw [ran] at kept
      exact h' value (given value middle ran) middle kept
  | error error middle =>
      rw [ran] at kept
      exact ⟨kept, fun value after found => by cases found⟩

theorem get {next : Scope α → EvalM α β} (h : ∀ scope, scope.Values P → Yields P Q (next scope)) :
    Yields P Q (MonadState.get >>= next) :=
  fun scope values => h scope values scope values

theorem ofExcept {result : Except (EvalError α) β} (h : ∀ value, result = .ok value → Q value) :
    Yields P Q (EvalM.ofExcept result) := by
  cases result with
  | ok value => exact .pure (h value rfl)
  | error error => exact .throw error

theorem bindSymbol (symbol : Symbol) {value : Expr α} (h : value.Value P) :
    Yields P (Expr.Value P) (EvalM.bindSymbol symbol value) := by
  intro scope values
  refine ⟨values.set symbol h, fun other after found => ?_⟩
  cases found
  exact h

theorem inFrame {frame : Frame α} (hf : frame.Values P) {step : EvalM α β} (h : Yields P Q step) :
    Yields P Q (EvalM.inFrame frame step) := by
  intro scope values
  obtain ⟨kept, given⟩ := h (scope.push frame) (values.push hf)
  unfold EvalM.inFrame
  cases ran : step (scope.push frame) with
  | ok value inside =>
      rw [ran] at kept
      refine ⟨kept.pop, fun other after found => ?_⟩
      cases found
      exact given value inside ran
  | error error inside =>
      rw [ran] at kept
      exact ⟨kept.pop, fun other after found => by cases found⟩

theorem ok {step : EvalM α β} (h : Yields P Q step) {scope after : Scope α} {value : β}
    (values : scope.Values P) (ran : step scope = .ok value after) :
    after.Values P ∧ Q value := by
  obtain ⟨kept, given⟩ := h scope values
  rw [ran] at kept
  exact ⟨kept, given value after ran⟩

end EvalM.Yields

namespace Expr

open EvalM (Yields)

variable [Scalar α]

omit [Scalar α] in
theorem asBound_yields (head : Symbol) (value : Expr α) :
    Yields P (fun _ => True) (asBound head value) := by
  unfold asBound
  split
  · exact .pure trivial
  · exact .throw _

/-- Calls of functions with values yield values. -/
def CallsYield (P : Interval α → Prop) (call : Call α) : Prop :=
  ∀ parameters body arguments, body.Literals P → (∀ argument ∈ arguments, argument.Value P) →
    Yields P (Value P) (call parameters body arguments)

/-- What a call runs, if it is a function of the scope, is a body of values. -/
def Callee.Holds (P : Interval α → Prop) : Callee α → Prop
  | .user _ body => body.Literals P
  | .builtin _ => True

omit [Scalar α] in
theorem callee_yields (head : Symbol) :
    Yields P (Callee.Holds P) (callee head : EvalM α (Callee α)) := by
  unfold callee
  refine .get fun scope values => ?_
  split
  next name parameters body found =>
    cases values.get? found with
    | function h => exact .pure h
  · exact .throw _
  · split
    · exact .pure trivial
    · exact .throw _

theorem operate_yields (closed : Interval.Closed P) {op : BinaryOp} {left right : Expr α}
    (hr : right.Value P) : Yields P (Value P) (operate op left right) := by
  unfold operate
  split
  · exact .bindSymbol _ hr
  · exact .ofExcept fun value found => applyBinary_value closed hr found

theorem invoke_yields (closed : Interval.Closed P) {call : Call α} (hc : CallsYield P call)
    (head : Symbol) (count : Nat) {arguments : EvalM α (List (Expr α))}
    (ha : Yields P (fun values => ∀ value ∈ values, value.Value P) arguments) :
    Yields P (Value P) (invoke call head count arguments) := by
  unfold invoke
  refine (callee_yields head).bind fun target ht => ?_
  cases target with
  | builtin target =>
      exact ha.bind fun values hv => .ofExcept fun value found => Builtin.call_value closed hv found
  | user parameters body =>
      dsimp only
      split
      · exact ha.bind fun values hv => hc parameters body values ht hv
      · exact .throw _

mutual

/-- An evaluation yields a value if the calls in it do. -/
theorem evaluateWith_yields (closed : Interval.Closed P) {call : Call α} (hc : CallsYield P call) :
    ∀ expression : Expr α, expression.Literals P → Yields P (Value P) (evaluateWith call expression)
  | .number value, _ => .pure (.number value)
  | .interval value, .interval h => .pure (.interval h)
  | .symbol value, _ => by
      unfold evaluateWith
      refine .get fun scope values => ?_
      split
      next bound found => exact .pure (values.get? found)
      · exact .throw _
  | .unary op operand, .unary h => by
      unfold evaluateWith
      exact (evaluateWith_yields closed hc operand h).bind fun value hv =>
        .ofExcept fun result found => applyUnary_value closed hv found
  | .binary op left right, .binary hl hr => by
      have right := evaluateWith_yields closed hc right hr
      unfold evaluateWith
      split
      · exact right.bind fun value hv => operate_yields closed hv
      · exact (evaluateWith_yields closed hc left hl).bind fun value hv =>
          right.bind fun value' hv' => operate_yields closed hv'
  | .branch condition consequence alternative, .branch h h' h'' => by
      unfold evaluateWith
      refine (evaluateWith_yields closed hc condition h).bind fun value hv => ?_
      split
      · exact evaluateWith_yields closed hc consequence h'
      · exact evaluateWith_yields closed hc alternative h''
  | .composite head arguments bracket, .composite h => by
      have called := invoke_yields closed hc head arguments.length
        (evaluateAllWith_yields closed hc arguments h)
      cases bracket with
      | round => exact called
      | square => exact called
      | curly =>
          unfold evaluateWith
          refine .get fun scope values => ?_
          split
          next existing found => exact .pure (values.get? found)
          · exact constructWith_yields closed hc head arguments h
  | .function head parameters body, .function h => .bindSymbol _ (.function h)

theorem constructWith_yields (closed : Interval.Closed P) {call : Call α} (hc : CallsYield P call)
    (head : Symbol) : ∀ arguments : List (Expr α), (∀ argument ∈ arguments, argument.Literals P) →
      Yields P (Value P) (constructWith call head arguments)
  | [low, high], h => by
      unfold constructWith
      exact (evaluateWith_yields closed hc low (h low (by simp))).bind fun value _ =>
        (asBound_yields head value).bind fun x _ =>
          (evaluateWith_yields closed hc high (h high (by simp))).bind fun value' _ =>
            (asBound_yields head value').bind fun y _ =>
              .bindSymbol _ (.interval (closed.between x y))
  | [], _ => .throw _
  | [_], _ => .throw _
  | _ :: _ :: _ :: _, _ => .throw _

theorem evaluateAllWith_yields (closed : Interval.Closed P) {call : Call α}
    (hc : CallsYield P call) : ∀ expressions : List (Expr α),
      (∀ expression ∈ expressions, expression.Literals P) →
      Yields P (fun values => ∀ value ∈ values, value.Value P) (evaluateAllWith call expressions)
  | [], _ => .pure (by simp)
  | first :: rest, h => by
      unfold evaluateAllWith
      have head := evaluateWith_yields closed hc first (h first List.mem_cons_self)
      refine head.bind fun value hv => ?_
      refine (evaluateAllWith_yields closed hc rest fun e member =>
        h e (List.mem_cons_of_mem _ member)).bind fun values hvs => .pure ?_
      exact List.forall_mem_cons.mpr ⟨hv, hvs⟩

end

theorem callWithin_yields (closed : Interval.Closed P) (depth : Nat) :
    CallsYield P (callWithin (α := α) depth) := by
  induction depth with
  | zero => exact fun parameters body arguments _ _ => .throw _
  | succ depth ih =>
      intro parameters body arguments hb ha
      exact .inFrame (.ofArguments parameters ha) (evaluateWith_yields closed ih body hb)

/-- Whatever an expression with such intervals computes in a scope of values is a value, and all
that it binds are values. -/
theorem evaluate_yields (closed : Interval.Closed P) (depth : Nat) {expression : Expr α}
    (h : expression.Literals P) : Yields P (Value P) (expression.evaluate depth) :=
  evaluateWith_yields closed (callWithin_yields closed depth) expression h

end Expr

end IntervalCalc

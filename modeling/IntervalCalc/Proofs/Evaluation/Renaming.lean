import IntervalCalc.Evaluation.Evaluate
import IntervalCalc.Proofs.Agreement
import IntervalCalc.Proofs.Renaming

/-!
Evaluation asks of handles only whether two are the same. Where symbols correspond in pairs, so
that equal ones correspond to equal ones and names are the same, an expression and its counterpart
have corresponding values or the same error, and leave corresponding scopes.
-/

namespace IntervalCalc

variable {α β γ : Type} {R : Symbol → Symbol → Prop}

section Operations

variable [Scalar α] {x y x' y' : Expr α}

/-- A number or an interval that an operation gives has no symbols. -/
theorem Scalar.applyUnary_renamed (op : UnaryOp) (x : α) :
    Except.Related (Expr.Renamed R) (Scalar.applyUnary op x) (Scalar.applyUnary op x) := by
  cases op <;> first | exact .ok (.number _) | exact .error _

theorem Scalar.applyBinary_renamed (op : BinaryOp) (x y : α) :
    Except.Related (Expr.Renamed R) (Scalar.applyBinary op x y) (Scalar.applyBinary op x y) := by
  cases op <;> first | exact .ok (.number _) | exact .error _

omit [Scalar α] in
theorem IntervalError.lift_renamed (made : Except (IntervalError α) (Interval α)) :
    Except.Related (Expr.Renamed R) (IntervalError.lift made) (IntervalError.lift made) := by
  cases made with
  | ok X => exact .ok (.interval X)
  | error error => exact .error _

theorem Interval.applyUnary_renamed (op : UnaryOp) (X : Interval α) :
    Except.Related (Expr.Renamed R) (Interval.applyUnary op X) (Interval.applyUnary op X) := by
  cases op <;> first | exact .ok (.interval _) | exact .error _

theorem Interval.applyBinary_renamed (op : BinaryOp) (X Y : Interval α) :
    Except.Related (Expr.Renamed R) (Interval.applyBinary op X Y)
      (Interval.applyBinary op X Y) := by
  cases op
  case div => exact IntervalError.lift_renamed _
  case add | sub | mul => exact .ok (.interval _)
  case eq | ne => exact .ok (.number _)
  all_goals exact .error _

namespace Expr

theorem applyUnary_renamed (op : UnaryOp) (h : x.Renamed R y) :
    Except.Related (Renamed R) (x.applyUnary op) (y.applyUnary op) := by
  cases h with
  | number x => exact Scalar.applyUnary_renamed op x
  | interval X => exact Interval.applyUnary_renamed op X
  | _ => exact .error _

/-- Only a sequence gives an operand back. -/
theorem applyBinary_renamed (op : BinaryOp) (h : x.Renamed R y) (h' : x'.Renamed R y') :
    Except.Related (Renamed R) (x.applyBinary op x') (y.applyBinary op y') := by
  unfold applyBinary
  split
  · exact .ok h'
  · cases h with
    | number x =>
        cases h' with
        | number y => exact Scalar.applyBinary_renamed op x y
        | interval Y =>
            dsimp only
            split
            · exact Interval.applyBinary_renamed op _ Y
            · exact .error _
        | _ => exact .error _
    | interval X =>
        cases h' with
        | number y =>
            dsimp only
            split
            · exact IntervalError.lift_renamed _
            · exact Interval.applyBinary_renamed op X _
        | interval Y =>
            dsimp only
            split
            · exact .error _
            · exact Interval.applyBinary_renamed op X Y
        | _ =>
            dsimp only
            split <;> exact .error _
    | _ => exact .error _

end Expr

namespace Builtin

omit [Scalar α] in
theorem operand_renamed (builtin : Builtin) (h : x.Renamed R y) :
    builtin.operand x = builtin.operand y := by
  cases h <;> rfl

theorem apply_renamed (builtin : Builtin) (X : Interval α) (rest : List (Interval α)) :
    Except.Related (Expr.Renamed R) (builtin.apply X rest) (builtin.apply X rest) := by
  cases builtin
  case asin | log | log10 => exact IntervalError.lift_renamed _
  case width | mid | mag | mig | inf | sup => exact .ok (.number _)
  all_goals exact .ok (.interval _)

omit [Scalar α] in
theorem operands_renamed (builtin : Builtin) {xs ys : List (Expr α)}
    (h : List.Forall₂ (Expr.Renamed R) xs ys) :
    xs.mapM builtin.operand = ys.mapM builtin.operand := by
  induction h with
  | nil => rfl
  | cons first _ ih => rw [List.mapM_cons, List.mapM_cons, builtin.operand_renamed first, ih]

theorem call_renamed (builtin : Builtin) {xs ys : List (Expr α)}
    (h : List.Forall₂ (Expr.Renamed R) xs ys) :
    Except.Related (Expr.Renamed R) (builtin.call xs) (builtin.call ys) := by
  unfold call
  rw [h.length_eq, builtin.operands_renamed h]
  split
  · split
    · exact builtin.apply_renamed _ _
    · exact .error _
    · exact .error _
  · exact .error _

end Builtin

end Operations

/-- From corresponding scopes two steps end with related values or the same error, and leave
corresponding scopes. -/
def EvalM.Renamed (R : Symbol → Symbol → Prop) (V : β → γ → Prop) (x : EvalM α β)
    (y : EvalM α γ) : Prop :=
  ∀ s t, s.Renamed R t → AgreeOn (fun value other s' t' => V value other ∧ s'.Renamed R t')
    (Scope.Renamed R) (x s) (y t)

namespace EvalM.Renamed

variable {V : β → γ → Prop}

theorem pure {value : β} {other : γ} (h : V value other) :
    EvalM.Renamed R V (Pure.pure value : EvalM α β) (Pure.pure other) :=
  fun _ _ scopes => ⟨h, scopes⟩

theorem throw (error : EvalError α) : EvalM.Renamed R V (MonadExcept.throw error : EvalM α β)
    (MonadExcept.throw error : EvalM α γ) :=
  fun _ _ scopes => ⟨rfl, scopes⟩

theorem bind {β' γ' : Type} {V' : β' → γ' → Prop} {x : EvalM α β} {y : EvalM α γ}
    {f : β → EvalM α β'} {g : γ → EvalM α γ'} (h : EvalM.Renamed R V x y)
    (h' : ∀ value other, V value other → EvalM.Renamed R V' (f value) (g other)) :
    EvalM.Renamed R V' (x >>= f) (y >>= g) :=
  fun s t scopes => (h s t scopes).bind fun value other s' t' both =>
    h' value other both.1 s' t' both.2

theorem get {f : Scope α → EvalM α β} {g : Scope α → EvalM α γ}
    (h : ∀ s t, s.Renamed R t → EvalM.Renamed R V (f s) (g t)) :
    EvalM.Renamed R V (MonadState.get >>= f) (MonadState.get >>= g) :=
  fun s t scopes => h s t scopes s t scopes

theorem ofExcept {result : Except (EvalError α) β} {other : Except (EvalError α) γ}
    (h : Except.Related V result other) :
    EvalM.Renamed R V (EvalM.ofExcept result) (EvalM.ofExcept other) := by
  cases h with
  | ok related => exact .pure related
  | error error => exact .throw error

theorem bindSymbol (pairing : Symbol.Pairing R) {a b : Symbol} (symbol : R a b) {x y : Expr α}
    (value : x.Renamed R y) :
    EvalM.Renamed R (Expr.Renamed R) (EvalM.bindSymbol a x) (EvalM.bindSymbol b y) :=
  fun _ _ scopes => ⟨value, scopes.set pairing symbol value⟩

theorem inFrame {frame other : Frame α} (frames : frame.Renamed R other) {x : EvalM α β}
    {y : EvalM α γ} (h : EvalM.Renamed R V x y) :
    EvalM.Renamed R V (EvalM.inFrame frame x) (EvalM.inFrame other y) := by
  intro s t scopes
  have agree := h _ _ (scopes.push frames)
  unfold EvalM.inFrame
  cases left : x (s.push frame) with
  | ok value s' =>
      cases right : y (t.push other) with
      | ok value' t' => rw [left, right] at agree; exact ⟨agree.1, agree.2.pop⟩
      | error error t' => rw [left, right] at agree; exact agree.elim
  | error error s' =>
      cases right : y (t.push other) with
      | ok value' t' => rw [left, right] at agree; exact agree.elim
      | error error' t' => rw [left, right] at agree; exact ⟨agree.1, agree.2.pop⟩

end EvalM.Renamed

namespace Expr

variable [Scalar α]

/-- A call of corresponding bodies with corresponding arguments. -/
def CallsRenamed (R : Symbol → Symbol → Prop) (call : Call α) : Prop :=
  ∀ {ps qs : List Symbol} {x y : Expr α} {xs ys : List (Expr α)}, List.Forall₂ R ps qs →
    x.Renamed R y → List.Forall₂ (Renamed R) xs ys →
    EvalM.Renamed R (Renamed R) (call ps x xs) (call qs y ys)

/-- Functions with corresponding parameters and bodies, or the same built-in one. -/
inductive Callee.Renamed (R : Symbol → Symbol → Prop) : Callee α → Callee α → Prop
  | user {ps qs : List Symbol} {x y : Expr α} : List.Forall₂ R ps qs → x.Renamed R y →
      Renamed R (.user ps x) (.user qs y)
  | builtin (target : Builtin) : Renamed R (.builtin target) (.builtin target)

omit [Scalar α] in
theorem asBound_renamed {a b : Symbol} (names : a.name = b.name) {x y : Expr α}
    (h : x.Renamed R y) : EvalM.Renamed R Eq (asBound a x) (asBound b y) := by
  cases h with
  | number x => exact .pure rfl
  | _ =>
      unfold asBound
      rw [names]
      exact .throw _

/-- Whatever is no assignment to a symbol is an operation on two values. -/
theorem operate_eq_ofExcept {op : BinaryOp} {left right : Expr α}
    (plain : ¬ (op = .assign ∧ left.kind = .symbol)) :
    operate op left right = EvalM.ofExcept (left.applyBinary op right) := by
  unfold operate
  split
  · exact absurd ⟨rfl, rfl⟩ plain
  · rfl

theorem operate_renamed (pairing : Symbol.Pairing R) (op : BinaryOp) {x y x' y' : Expr α}
    (h : x.Renamed R y) (h' : x'.Renamed R y') :
    EvalM.Renamed R (Renamed R) (operate op x x') (operate op y y') := by
  by_cases binds : op = .assign ∧ x.kind = .symbol
  · obtain ⟨rfl, isSymbol⟩ := binds
    cases h with
    | symbol related => exact .bindSymbol pairing related h'
    | _ => cases isSymbol
  · rw [operate_eq_ofExcept binds, operate_eq_ofExcept (h.kind ▸ binds)]
    exact .ofExcept (applyBinary_renamed op h h')

omit [Scalar α] in
theorem callee_renamed (pairing : Symbol.Pairing R) {a b : Symbol} (symbol : R a b) :
    EvalM.Renamed R (Callee.Renamed R) (callee a : EvalM α (Callee α)) (callee b) := by
  unfold callee
  refine .get fun s t scopes => ?_
  have found := scopes.get? pairing symbol
  rw [pairing.name symbol]
  generalize s.get? a = bound at found
  generalize t.get? b = bound' at found
  cases found with
  | none =>
      dsimp only
      split
      · exact .pure (.builtin _)
      · exact .throw _
  | some value =>
      cases value with
      | function _ hs h => exact .pure (.user hs h)
      | _ => exact .throw _

theorem invoke_renamed (pairing : Symbol.Pairing R) {call : Call α} (hc : CallsRenamed R call)
    {a b : Symbol} (symbol : R a b) {count count' : Nat} (counts : count = count')
    {x y : EvalM α (List (Expr α))} (ha : EvalM.Renamed R (List.Forall₂ (Renamed R)) x y) :
    EvalM.Renamed R (Renamed R) (invoke call a count x) (invoke call b count' y) := by
  unfold invoke
  refine (callee_renamed pairing symbol).bind fun target target' targets => ?_
  cases targets with
  | builtin target =>
      exact ha.bind fun values others related => .ofExcept (target.call_renamed related)
  | user parameters body =>
      dsimp only
      rw [parameters.length_eq, counts, pairing.name symbol]
      split
      · exact ha.bind fun values others related => hc parameters body related
      · exact .throw _

mutual

/-- Evaluations of corresponding expressions correspond if the calls in them do. -/
theorem evaluateWith_renamed (pairing : Symbol.Pairing R) {call : Call α}
    (hc : CallsRenamed R call) : ∀ {x y : Expr α}, x.Renamed R y →
      EvalM.Renamed R (Renamed R) (evaluateWith call x) (evaluateWith call y)
  | _, _, .number x => .pure (.number x)
  | _, _, .interval X => .pure (.interval X)
  | _, _, .symbol (a := a) (b := b) h => by
      unfold evaluateWith
      refine .get fun s t scopes => ?_
      have found := scopes.get? pairing h
      rw [pairing.name h]
      generalize s.get? a = bound at found
      generalize t.get? b = bound' at found
      cases found with
      | some value => exact .pure value
      | none => exact .throw _
  | _, _, .unary op h => by
      unfold evaluateWith
      exact (evaluateWith_renamed pairing hc h).bind fun _ _ value =>
        .ofExcept (applyUnary_renamed op value)
  | _, _, .binary op h h' => by
      have right := evaluateWith_renamed pairing hc h'
      unfold evaluateWith
      split
      · exact right.bind fun _ _ value => operate_renamed pairing op h value
      · exact (evaluateWith_renamed pairing hc h).bind fun _ _ value =>
          right.bind fun _ _ value' => operate_renamed pairing op value value'
  | _, _, .branch h h' h'' => by
      unfold evaluateWith
      refine (evaluateWith_renamed pairing hc h).bind fun _ _ value => ?_
      rw [value.isTrue]
      split
      · exact evaluateWith_renamed pairing hc h'
      · exact evaluateWith_renamed pairing hc h''
  | _, _, .composite (a := a) (b := b) bracket h hs => by
      have called := invoke_renamed pairing hc h hs.length_eq
        (evaluateAllWith_renamed pairing hc hs)
      cases bracket with
      | round => exact called
      | square => exact called
      | curly =>
          have constructed := constructWith_renamed pairing hc h hs
          unfold evaluateWith
          refine .get fun s t scopes => ?_
          have found := scopes.get? pairing h
          generalize s.get? a = bound at found
          generalize t.get? b = bound' at found
          cases found with
          | none => exact constructed
          | some value =>
              cases value with
              | interval X => exact .pure (.interval X)
              | _ => exact constructed
  | _, _, .function h hs h' => .bindSymbol pairing h (.function h hs h')

theorem constructWith_renamed (pairing : Symbol.Pairing R) {call : Call α}
    (hc : CallsRenamed R call) {a b : Symbol} (symbol : R a b) :
    ∀ {xs ys : List (Expr α)}, List.Forall₂ (Renamed R) xs ys →
      EvalM.Renamed R (Renamed R) (constructWith call a xs) (constructWith call b ys)
  | _, _, .cons h (.cons h' .nil) => by
      unfold constructWith
      refine (evaluateWith_renamed pairing hc h).bind fun _ _ value => ?_
      refine (asBound_renamed (pairing.name symbol) value).bind fun low _ same => ?_
      refine (evaluateWith_renamed pairing hc h').bind fun _ _ value' => ?_
      refine (asBound_renamed (pairing.name symbol) value').bind fun high _ same' => ?_
      rw [same, same']
      exact .bindSymbol pairing symbol (.interval _)
  | _, _, .nil => by
      unfold constructWith
      rw [pairing.name symbol]
      exact .throw _
  | _, _, .cons _ .nil => by
      unfold constructWith
      rw [pairing.name symbol]
      exact .throw _
  | _, _, .cons _ (.cons _ (.cons _ rest)) => by
      unfold constructWith
      rw [pairing.name symbol, List.length_cons, List.length_cons, List.length_cons,
        rest.length_eq]
      exact .throw _

theorem evaluateAllWith_renamed (pairing : Symbol.Pairing R) {call : Call α}
    (hc : CallsRenamed R call) : ∀ {xs ys : List (Expr α)}, List.Forall₂ (Renamed R) xs ys →
      EvalM.Renamed R (List.Forall₂ (Renamed R)) (evaluateAllWith call xs) (evaluateAllWith call ys)
  | _, _, .nil => .pure .nil
  | _, _, .cons h hs => by
      unfold evaluateAllWith
      exact (evaluateWith_renamed pairing hc h).bind fun _ _ value =>
        (evaluateAllWith_renamed pairing hc hs).bind fun _ _ values => .pure (.cons value values)

end

theorem callWithin_renamed (pairing : Symbol.Pairing R) (depth : Nat) :
    CallsRenamed R (callWithin (α := α) depth) := by
  induction depth with
  | zero => exact fun _ _ _ => .throw _
  | succ depth ih =>
      intro ps qs x y xs ys parameters body arguments
      exact .inFrame (.ofArguments pairing parameters arguments)
        (evaluateWith_renamed pairing ih body)

theorem evaluate_renamed (pairing : Symbol.Pairing R) (depth : Nat) {x y : Expr α}
    (h : x.Renamed R y) : EvalM.Renamed R (Renamed R) (x.evaluate depth) (y.evaluate depth) :=
  evaluateWith_renamed pairing (callWithin_renamed pairing depth) h

end Expr

end IntervalCalc

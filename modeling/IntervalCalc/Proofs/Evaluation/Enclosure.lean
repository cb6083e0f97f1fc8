import IntervalCalc.Proofs.Interval.Enclosure
import IntervalCalc.Proofs.Agreement
import IntervalCalc.Evaluation.Evaluate

/-!
Enclosure of arithmetic. Where an arithmetic expression has an interval for its value, numbers
picked from the intervals of its variables give a number of that interval. The operations on
numbers and those on intervals are separate definitions, and an expression may use both, so the
induction carries a relation between values of either kind.
-/

namespace IntervalCalc

theorem IntervalError.lift_eq_ok {α : Type} {result : Except (IntervalError α) (Interval α)}
    {z : Expr α} (found : IntervalError.lift result = .ok z) :
    ∃ Z, result = .ok Z ∧ z = .interval Z := by
  cases result with
  | ok Z => cases found; exact ⟨Z, rfl, rfl⟩
  | error error => cases found

inductive UnaryOp.Arithmetic : UnaryOp → Prop
  | plus : Arithmetic .plus
  | neg : Arithmetic .neg
  | increment : Arithmetic .increment
  | decrement : Arithmetic .decrement

/-- The operations for which a number may stand in the place of an interval on either side. -/
inductive BinaryOp.Arithmetic : BinaryOp → Prop
  | add : Arithmetic .add
  | sub : Arithmetic .sub
  | mul : Arithmetic .mul
  | div : Arithmetic .div

namespace Expr

variable {K : Type}

/-- Expressions with arithmetic alone, over some variables. Powers are to whole numbers. -/
inductive Arithmetic [IntCast K] (names : Set Symbol) : Expr (Exact K) → Prop
  | number (x : Exact K) : Arithmetic names (.number x)
  | symbol {name : Symbol} : name ∈ names → Arithmetic names (.symbol name)
  | unary {op : UnaryOp} {operand : Expr (Exact K)} : op.Arithmetic → Arithmetic names operand →
      Arithmetic names (.unary op operand)
  | binary {op : BinaryOp} {left right : Expr (Exact K)} : op.Arithmetic → Arithmetic names left →
      Arithmetic names right → Arithmetic names (.binary op left right)
  | power {base : Expr (Exact K)} (n : ℤ) : Arithmetic names base →
      Arithmetic names (.binary .pow base (.number ⟨n⟩))

variable [Field K] [LinearOrder K] [FloorRing K] [Functions K]

/-- A number stands for itself, and an interval for the numbers in it. -/
def Encloses : Expr (Exact K) → Exact K → Prop
  | .number x, y => x = y
  | .interval X, y => y ∈ X
  | _, _ => False

/-- In the second scope a variable has a number that its value in the first one encloses. -/
def Sampled (names : Set Symbol) (s t : Scope (Exact K)) : Prop :=
  ∀ name ∈ names, ∃ value y, s.get? name = some value ∧ t.get? name = some (.number y) ∧
    value.Encloses y

variable {z w r : Expr (Exact K)} {x y : Exact K}

theorem Encloses.cases (encloses : z.Encloses x) :
    z = .number x ∨ ∃ X : Interval (Exact K), z = .interval X ∧ x ∈ X := by
  cases z with
  | number value => exact .inl (congrArg Expr.number encloses)
  | interval X => exact .inr ⟨X, rfl, encloses⟩
  | symbol | unary | binary | branch | composite | function => exact encloses.elim

variable [IsStrictOrderedRing K]

theorem applyUnary_encloses {op : UnaryOp} (arithmetic : op.Arithmetic) (hx : z.Encloses x)
    (found : z.applyUnary op = .ok r) :
    ∃ v, Scalar.applyUnary op x = .ok (.number v) ∧ r.Encloses v := by
  obtain rfl | ⟨X, rfl, member⟩ := hx.cases
  · cases arithmetic <;> cases found <;> exact ⟨_, rfl, rfl⟩
  · cases arithmetic with
    | plus => cases found; exact ⟨x, rfl, member⟩
    | neg => cases found; exact ⟨-x, rfl, Interval.neg_mem member⟩
    | increment => cases found; exact ⟨x + 1, rfl, Interval.shift_mem member 1⟩
    | decrement =>
        have opposite : x + -1 = x - 1 := Exact.ext (sub_eq_add_neg x.val 1).symm
        cases found
        exact ⟨x - 1, rfl, opposite ▸ Interval.shift_mem member (-1)⟩

theorem applyIntervals_encloses {op : BinaryOp} (arithmetic : op.Arithmetic)
    {X Y : Interval (Exact K)} (hx : x ∈ X) (hy : y ∈ Y)
    (found : Interval.applyBinary op X Y = .ok r) :
    ∃ v, Scalar.applyBinary op x y = .ok (.number v) ∧ r.Encloses v := by
  cases arithmetic with
  | add => cases found; exact ⟨x + y, rfl, Interval.add_mem hx hy⟩
  | sub => cases found; exact ⟨x - y, rfl, Interval.sub_mem hx hy⟩
  | mul => cases found; exact ⟨x * y, rfl, Interval.mul_mem hx hy⟩
  | div =>
      obtain ⟨Z, quotient, rfl⟩ := IntervalError.lift_eq_ok found
      exact ⟨x / y, rfl, Interval.div_mem quotient hx hy⟩

/-- A number beside an interval is taken for a point, and encloses the same number as before. -/
theorem applyBinary_encloses {op : BinaryOp} (arithmetic : op.Arithmetic) (hx : z.Encloses x)
    (hy : w.Encloses y) (found : z.applyBinary op w = .ok r) :
    ∃ v, Scalar.applyBinary op x y = .ok (.number v) ∧ r.Encloses v := by
  obtain rfl | ⟨X, rfl, left⟩ := hx.cases
  · obtain rfl | ⟨Y, rfl, right⟩ := hy.cases
    · cases arithmetic <;> cases found <;> exact ⟨_, rfl, rfl⟩
    · have promoted : (number x).applyBinary op (interval Y) =
          Interval.applyBinary op (.point x) Y := by
        cases arithmetic <;> rfl
      exact applyIntervals_encloses arithmetic (Interval.mem_point x) right (promoted ▸ found)
  · obtain rfl | ⟨Y, rfl, right⟩ := hy.cases
    · have promoted : (interval X).applyBinary op (number y) =
          Interval.applyBinary op X (.point y) := by
        cases arithmetic <;> rfl
      exact applyIntervals_encloses arithmetic left (Interval.mem_point y) (promoted ▸ found)
    · have plain : (interval X).applyBinary op (interval Y) = Interval.applyBinary op X Y := by
        cases arithmetic <;> rfl
      exact applyIntervals_encloses arithmetic left right (plain ▸ found)

theorem applyPower_encloses (powers : Functions.WholePowers K) {n : ℤ} (hx : z.Encloses x)
    (found : z.applyBinary .pow (number ⟨n⟩) = .ok r) : r.Encloses (Scalar.pow x ⟨n⟩) := by
  obtain rfl | ⟨X, rfl, member⟩ := hx.cases
  · cases found
    rfl
  · obtain ⟨Z, raised, rfl⟩ := IntervalError.lift_eq_ok found
    exact Interval.pow_mem powers raised member

/-- A step in one scope, if it gives a value, is followed by a step in another scope that gives a
number which the value encloses. Both leave their scopes alone. -/
def Follows (s t : Scope (Exact K)) (step follower : EvalM (Exact K) (Expr (Exact K))) : Prop :=
  ∀ z after, step s = .ok z after →
    after = s ∧ ∃ y, follower t = .ok (.number y) t ∧ z.Encloses y

namespace Follows

variable {s t : Scope (Exact K)} {step follower : EvalM (Exact K) (Expr (Exact K))}

omit [IsStrictOrderedRing K] in
theorem pure (encloses : z.Encloses y) : Follows s t (Pure.pure z) (Pure.pure (.number y)) := by
  intro value after found
  cases found
  exact ⟨rfl, y, rfl, encloses⟩

omit [IsStrictOrderedRing K] in
theorem ofExcept {result sample : ValueResult (Exact K)}
    (h : ∀ r, result = .ok r → ∃ v, sample = .ok (.number v) ∧ r.Encloses v) :
    Follows s t (EvalM.ofExcept result) (EvalM.ofExcept sample) := by
  cases result with
  | ok r =>
      obtain ⟨v, rfl, encloses⟩ := h r rfl
      exact .pure encloses
  | error error =>
      intro value after found
      cases found

omit [IsStrictOrderedRing K] in
theorem bind {next next' : Expr (Exact K) → EvalM (Exact K) (Expr (Exact K))}
    (h : Follows s t step follower)
    (h' : ∀ value y, value.Encloses y → Follows s t (next value) (next' (.number y))) :
    Follows s t (step >>= next) (follower >>= next') := by
  intro z after found
  obtain ⟨value, middle, first, second⟩ := Run.bind_eq_ok found
  obtain ⟨rfl, y, sample, encloses⟩ := h value middle first
  obtain ⟨same, v, result, inside⟩ := h' value y encloses z after second
  exact ⟨same, v, (Run.bind_ok sample).trans result, inside⟩

end Follows

theorem evaluate_follows (powers : Functions.WholePowers K) {names : Set Symbol}
    {e : Expr (Exact K)} (arithmetic : e.Arithmetic names) {s t : Scope (Exact K)}
    (sampled : Sampled names s t) (depth : ℕ) :
    Follows s t (e.evaluate depth) (e.evaluate depth) := by
  unfold evaluate
  induction arithmetic with
  | number x => exact .pure rfl
  | @symbol name known =>
      obtain ⟨value, y, here, there, encloses⟩ := sampled name known
      have read : ∀ {scope : Scope (Exact K)} {bound : Expr (Exact K)},
          scope.get? name = some bound →
          evaluateWith (callWithin depth) (.symbol name) scope = .ok bound scope := by
        intro scope bound known
        unfold evaluateWith
        rw [Run.get_bind, known]
        rfl
      intro z after found
      rw [read here] at found
      cases found
      exact ⟨rfl, y, read there, encloses⟩
  | unary known _ ih =>
      unfold evaluateWith
      refine ih.bind fun value x encloses => ?_
      exact .ofExcept fun r applied => applyUnary_encloses known encloses applied
  | @binary op left right known _ _ ihl ihr =>
      have order : op ≠ .assign := by cases known <;> decide
      unfold evaluateWith
      rw [if_neg order]
      refine ihl.bind fun value x encloses => ihr.bind fun value' y encloses' => ?_
      have plain : ∀ value value' : Expr (Exact K),
          operate op value value' = EvalM.ofExcept (value.applyBinary op value') := by
        intro value value'
        cases known <;> rfl
      rw [plain, plain]
      refine .ofExcept fun r applied => ?_
      have computed : (number x).applyBinary op (number y) = Scalar.applyBinary op x y := by
        cases known <;> rfl
      rw [computed]
      exact applyBinary_encloses known encloses encloses' applied
  | power n _ ih =>
      unfold evaluateWith
      rw [if_neg (by decide)]
      refine ih.bind fun value x encloses => ?_
      exact .ofExcept fun r applied => ⟨_, rfl, applyPower_encloses powers encloses applied⟩

/-- A successful evaluation among intervals is followed by one among numbers that they enclose. A
quotient of plain numbers needs no condition: the two evaluations compute it alike. -/
theorem evaluate_encloses (powers : Functions.WholePowers K) {names : Set Symbol}
    {e : Expr (Exact K)} (arithmetic : e.Arithmetic names) {s t : Scope (Exact K)}
    (sampled : Sampled names s t) {depth : ℕ} {z : Expr (Exact K)} {after : Scope (Exact K)}
    (found : e.evaluate depth s = .ok z after) :
    after = s ∧ ∃ y, e.evaluate depth t = .ok (.number y) t ∧ z.Encloses y :=
  evaluate_follows powers arithmetic sampled depth z after found

/-- From 1 to 2 and for 3/2, `(k - x) / (-x) ^ -2` with a number for `k`: both kinds of operations
take part, and a negative power. -/
theorem evaluate_encloses_quotient :
    let x : Symbol := ⟨0, "x"⟩
    let k : Symbol := ⟨1, "k"⟩
    let e : Expr (Exact ℚ) := .binary .div (.binary .sub (.symbol k) (.symbol x))
      (.binary .pow (.unary .neg (.symbol x)) (.number ⟨(-2 : ℤ)⟩))
    let s : Scope (Exact ℚ) := ⟨⟨[(x, .interval ⟨⟨1⟩, ⟨2⟩⟩), (k, .number ⟨4⟩)]⟩, []⟩
    let t : Scope (Exact ℚ) := ⟨⟨[(x, .number ⟨3 / 2⟩), (k, .number ⟨4⟩)]⟩, []⟩
    Functions.WholePowers ℚ ∧ e.Arithmetic {x, k} ∧ Sampled {x, k} s t ∧
      e.evaluate 0 s = .ok (.interval ⟨⟨2⟩, ⟨12⟩⟩) s ∧
      ∃ y : Exact ℚ, e.evaluate 0 t = .ok (.number y) t ∧
        y ∈ (⟨⟨2⟩, ⟨12⟩⟩ : Interval (Exact ℚ)) := by
  intro x k e s t
  have powers : Functions.WholePowers ℚ := by
    intro base n _
    change base ^ ⌊(n : ℚ)⌋ = base ^ n
    rw [Int.floor_intCast]
  have arithmetic : e.Arithmetic {x, k} :=
    .binary .div (.binary .sub (.symbol (.inr rfl)) (.symbol (.inl rfl)))
      (.power (-2) (.unary .neg (.symbol (.inl rfl))))
  have sampled : Sampled {x, k} s t := by
    rintro name (rfl | rfl)
    · exact ⟨_, ⟨3 / 2⟩, rfl, rfl, Interval.mem_iff.mpr (by norm_num)⟩
    · exact ⟨_, ⟨4⟩, rfl, rfl, rfl⟩
  have found : e.evaluate 0 s = .ok (.interval ⟨⟨2⟩, ⟨12⟩⟩) s := by with_unfolding_all rfl
  exact ⟨powers, arithmetic, sampled, found, (evaluate_encloses powers arithmetic sampled found).2⟩

end Expr

end IntervalCalc

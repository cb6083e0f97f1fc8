import IntervalCalc.Proofs.Engine.Reached
import IntervalCalc.Proofs.Engine.Renaming
import IntervalCalc.Scalar.Float

/-!
Operators of a custom grammar. The function that such an operator calls is a symbol from outside the
engine, which begins without names. So the operator calls whatever the engine has bound to that
handle, and this is the function of that name as long as the engine gave the name the same handle,
in whatever way texts are read, if no name that was seen gets lost.
-/

namespace IntervalCalc

variable {α : Type}

theorem Scope.get?_congr {symbol other : Symbol} (same : symbol == other) (scope : Scope α) :
    scope.get? symbol = scope.get? other := by
  unfold Scope.get?
  congr 1
  funext frame
  exact OrderedMap.lookup_congr same frame.entries

namespace Expr

variable [Scalar α] {head own : Symbol} {scope : Scope α}

/-- A call asks of its head only what it is bound to and its name. -/
theorem evaluate_call_congr (names : head.name = own.name)
    (bound : scope.get? head = scope.get? own) (depth : Nat) (arguments : List (Expr α)) :
    (composite head arguments .round).evaluate depth scope =
      (composite own arguments .round).evaluate depth scope := by
  have callees : callee (α := α) head scope = callee own scope := by
    unfold callee
    rw [Run.get_bind, Run.get_bind, bound, names]
  change invoke _ _ _ _ scope = invoke _ _ _ _ scope
  unfold invoke
  rw [names]
  -- The two calls differ in the look-up alone, and at this scope that gives the same.
  exact Run.bind_congr callees

end Expr

/-- A way of parsing that adds names and forgets none. -/
def Parse.KeepsNames (parse : Parse α) : Prop :=
  ∀ (grammar : Grammar) (interner : Interner) (source : String),
    interner.Onward interner (parse grammar interner source).interner
      (parse grammar interner source).interner

namespace Engine

variable [Scalar α] {parse : Parse α} {engine later : Engine α}

/-- The engines that one becomes by programs, definitions and removals, until it is reset. -/
inductive Leads (parse : Parse α) (engine : Engine α) : Engine α → Prop
  | refl : Leads parse engine engine
  | run {later : Engine α} (source : String) : Leads parse engine later →
      Leads parse engine (later.runWith parse source).2
  | parse {later : Engine α} (source : String) : Leads parse engine later →
      Leads parse engine (later.parseWith parse source).2
  | evaluate {later : Engine α} (expression : Expr α) : Leads parse engine later →
      Leads parse engine (later.evaluate expression).2
  | define {later : Engine α} (name : String) (value : Expr α) : Leads parse engine later →
      Leads parse engine (later.define name value).2
  | forget {later : Engine α} (name : String) : Leads parse engine later →
      Leads parse engine (later.forget name).2

theorem interner_evaluate (engine : Engine α) (expression : Expr α) :
    (engine.evaluate expression).2.interner = engine.interner := by
  unfold Engine.evaluate
  split <;> rfl

theorem interner_runWith (engine : Engine α) (source : String) :
    (engine.runWith parse source).2.interner = (engine.parseWith parse source).2.interner := by
  cases parsed : (engine.parseWith parse source).1 with
  | error error =>
      rw [runWith_of_parse_error parsed]
  | ok tree =>
      rw [runWith_of_parse parsed]
      exact interner_evaluate _ tree

theorem interner_run [Numeral α] (engine : Engine α) (source : String) :
    (engine.run source).2.interner = (engine.parse source).2.interner :=
  interner_runWith engine source

/-- An engine forgets no name until it is reset, if parsing forgets none. -/
theorem Leads.onward (keeps : parse.KeepsNames) (leads : engine.Leads parse later) :
    engine.interner.Onward engine.interner later.interner later.interner := by
  induction leads with
  | refl => exact .refl
  | @run later source _ ih =>
      rw [interner_runWith]
      exact ih.trans (keeps later.grammar later.interner source)
  | @parse later source _ ih => exact ih.trans (keeps later.grammar later.interner source)
  | evaluate expression _ ih =>
      rw [interner_evaluate]
      exact ih
  | @define later name value _ ih => exact ih.trans (.intern _ _ name)
  | forget name _ ih =>
      rw [interner_forget]
      exact ih

/-- Where an operator of a custom grammar is used, the head that it was registered with is called.
A call of that symbol is one of what its handle is bound to: of what another name is bound to, if
that one was given the handle. It is a call of the symbol that the engine has for the name of the
head wherever both are bound alike. Once the engine has given the name the handle of the head, the
two are one symbol for as long as the engine is not reset. The texts may be read and parsed in any
way that forgets no names. -/
theorem apply_operator_calls [Numeral α] (keeps : parse.KeepsNames) {grammar : Grammar}
    (session : (ofGrammar grammar).Leads parse engine) (head : Symbol) :
    let own := (engine.interner.intern head.name).1
    (∀ (reader : Reader α) (state : BufferedState α) (token : Token α) (name : String)
        (operator : Operator) (expression : Power → ParseM (BufferedState α) (Expr α)),
      token.kind = .operator name → state.operators.find? name = some operator →
      (∀ power, operator.prefixRule = some (.apply head power) →
        Parser.prefixForm (.buffered reader) expression token state =
          (do return Expr.composite head [← expression power] .round) state) ∧
      ∀ arguments left, operator.infixRule = some (.apply head) →
        Parser.infixForm (.buffered reader) arguments expression token left state =
          (do return Expr.composite head [left, ← expression operator.leftPower] .round) state) ∧
    (∀ other, engine.interner.resolve head.id = some other →
      ∀ scope : Scope α, scope.get? head = scope.get? other) ∧
    (∀ depth (scope : Scope α) arguments, scope.get? head = scope.get? own →
      (Expr.composite head arguments .round).evaluate depth scope =
        (Expr.composite own arguments .round).evaluate depth scope) ∧
    (engine.interner.Knows head → ∀ later, engine.Leads parse later →
      (later.interner.intern head.name).1 = head) := by
  intro own
  refine ⟨?_, ?_, ?_, ?_⟩
  · intro reader state token name operator expression kind known
    constructor
    · intro power rule
      have called : (((TokenSource.buffered reader).view state).operators.find? name).bind
          (·.prefixRule) = some (.apply head power) :=
        Option.bind_eq_some_iff.mpr ⟨operator, known, rule⟩
      rw [Parser.prefixForm_known kind called]
      rfl
    · intro arguments left rule
      rw [Parser.infixForm_known kind known rule]
      rfl
  · intro other found scope
    obtain ⟨name, _, rfl⟩ := Option.map_eq_some_iff.mp found
    have same : head == ⟨head.id, name⟩ := Symbol.beq_iff.mpr rfl
    exact scope.get?_congr same
  · intro depth scope arguments bound
    have names := (engine.interner.name_intern head.name).symm
    exact Expr.evaluate_call_congr names bound depth arguments
  · intro known later leads
    -- the engine still knows the head, and a name has no second handle
    have ahead := leads.onward keeps
    have distinct := ((session.onward keeps).trans ahead).left .empty
    rw [Interner.intern_of_lookup (distinct.lookup (ahead.knows known))]

/-- The name of the head gets the first handle, and keeps it when other functions are defined. -/
theorem apply_operator_calls_named_function :
    let head : Symbol := ⟨0, "double"⟩
    let grammar := Grammar.standard.register "twice" (.prefixed (.apply head 90))
    let engine : Engine Float := ((ofGrammar grammar).run "fun double(x) is x * 2 end").2
    let later := (engine.run "fun other(x) is x + 1 end").2
    (ofGrammar grammar).Leads Grammar.parse engine ∧ engine.interner.resolve 0 = some head ∧
      (later.interner.intern "double").1 = head ∧
      ((later.run "twice 5").1.toOption.bind Expr.number?).any (· == 10) := by
  intro head grammar engine later
  have session : (ofGrammar grammar).Leads Grammar.parse engine := .run _ .refl
  have known : engine.interner.resolve 0 = some head := by decide +kernel
  have leads : engine.Leads Grammar.parse later := .run _ .refl
  obtain ⟨_, _, _, kept⟩ := apply_operator_calls Grammar.parse_onward session head
  exact ⟨session, known, kept known later leads, by decide +kernel⟩

/-- The first handle goes to a function that is defined earlier, so the operator calls that one and
not the function that it names. -/
theorem apply_operator_calls_first_function :
    let grammar := Grammar.standard.register "twice" (.prefixed (.apply ⟨0, "double"⟩ 90))
    let engine : Engine Float :=
      ((ofGrammar grammar).run "fun other(x) is x + 1 end; fun double(x) is x * 2 end").2
    let own := (engine.interner.intern "double").1
    ((engine.run "twice 5").1.toOption.bind Expr.number?).any (· == 6) ∧
      ((engine.evaluate (.composite own [.number 5] .round)).1.toOption.bind Expr.number?).any
        (· == 10) := by
  decide +kernel

end Engine

end IntervalCalc

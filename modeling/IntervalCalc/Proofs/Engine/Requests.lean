import IntervalCalc.Proofs.Engine.Names

/-!
Clients of an engine. A client sees answers and the texts of what is bound, never a handle, so
engines that correspond are the same to it. A program that fails to parse before it has declared
anything only shifts the handles of later names, which no client can tell.
-/

namespace IntervalCalc

variable {α : Type} {R : Symbol → Symbol → Prop}

/-- What a client asks of an engine. A definition binds a value without symbols, such as a number or
an interval, or one of the values that the client was given. -/
inductive Request (α : Type) where
  | run (source : String)
  | define (name : String) (value : Expr α) (plain : value.symbols = [])
  | store (name : String) (index : Nat)
  | forget (name : String)
  | lookup (name : String)

/-- The outcome of a request, with a value if there is one to give. -/
abbrev Reply (α : Type) := Except (ProgramError α) (Option (Expr α))

/-- What a client sees of a value. -/
def Expr.shown [Numeral α] (expression : Expr α) : ExprKind × String :=
  (expression.kind, expression.text)

/-- What a client sees after a request: the answer, and the names bound with their values. -/
structure Report (α : Type) where
  answer : Except (ProgramError α) (Option (ExprKind × String))
  bindings : List (String × ExprKind × String)

namespace Engine

variable [Numeral α]

def shownBindings (engine : Engine α) : List (String × ExprKind × String) :=
  engine.globals.inner.entries.map fun entry => (entry.1.name, entry.2.shown)

variable [Scalar α]

/-- The answer to a request of a client that was given some values before. -/
def answer (engine : Engine α) (given : List (Expr α)) :
    Request α → Reply α × Engine α
  | .run source => ((engine.run source).1.map some, (engine.run source).2)
  | .define name value _ => (.ok none, (engine.define name value).2)
  | .store name index =>
    match given[index]? with
    | none => (.ok none, engine)
    | some value => (.ok none, (engine.define name value).2)
  | .forget name => (.ok (engine.forget name).1, (engine.forget name).2)
  | .lookup name => (.ok (engine.lookup name), engine)

/-- What a client sees of one request after the other. It keeps the values that it is given, the
latest first. -/
def transcript : List (Request α) → (given : List (Expr α)) → Engine α → List (Report α)
  | [], _, _ => []
  | request :: later, given, engine =>
    let (answer, after) := engine.answer given request
    ⟨answer.map (·.map Expr.shown), after.shownBindings⟩ ::
      transcript later (answer.toOption.join.toList ++ given) after

end Engine

theorem Expr.Renamed.shown [Numeral α] (names : ∀ a b, R a b → a.name = b.name) {x y : Expr α}
    (h : x.Renamed R y) : x.shown = y.shown := by
  unfold Expr.shown
  rw [h.kind, h.text names]

namespace Engine.Renamed

variable [Numeral α] {engine other : Engine α}

theorem shownBindings (h : engine.Renamed other) :
    engine.shownBindings = other.shownBindings := by
  rw [← List.forall₂_eq_eq_eq]
  refine List.rel_map (fun entry entry' both => ?_) h.globals.inner
  rw [both.1.name, both.2.shown fun _ _ related => related.name]

variable [Scalar α] {given given' : List (Expr α)}

/-- Clients that were given corresponding values are given corresponding ones again. -/
theorem answer (h : engine.Renamed other) (values : List.Forall₂
      (Expr.Renamed (engine.interner.Namesakes other.interner)) given given')
    (request : Request α) : Answers (fun R => Option.Rel (Expr.Renamed R)) engine other
      (engine.answer given request) (other.answer given' request) := by
  have defined (name : String) {x y : Expr α}
      (value : x.Renamed (engine.interner.Namesakes other.interner) y) :
      Answers (fun R => Option.Rel (Expr.Renamed R)) engine other
        ((.ok none : Reply α), (engine.define name x).2)
        ((.ok none : Reply α), (other.define name y).2) := by
    have onward := Interner.Onward.intern engine.interner other.interner name
    refine ⟨.ok .none, h.define name ?_, onward⟩
    exact value.mono fun _ _ related => onward.namesakes related
  cases request with
  | run source =>
      obtain ⟨outcomes, engines, onward⟩ := h.run source
      refine ⟨?_, engines, onward⟩
      dsimp only [Engine.answer]
      generalize (engine.run source).1 = outcome at outcomes ⊢
      generalize (other.run source).1 = outcome' at outcomes ⊢
      cases outcomes with
      | ok value => exact .ok (.some value)
      | error error => exact .error error
  | define name value plain =>
      refine defined name (value.renamed_self fun symbol held => ?_)
      rw [plain] at held
      cases held
  | store name index =>
      have found := related_getElem? values index
      dsimp only [Engine.answer]
      generalize given[index]? = value at found ⊢
      generalize given'[index]? = value' at found ⊢
      cases found with
      | none => exact ⟨.ok .none, h, .refl⟩
      | some value => exact defined name value
  | forget name =>
      obtain ⟨value, engines⟩ := h.forget name
      refine ⟨?_, engines, ?_⟩
      · dsimp only [Engine.answer]
        rw [interner_forget, interner_forget]
        exact .ok value
      · dsimp only [Engine.answer]
        rw [interner_forget, interner_forget]
        exact .refl
  | lookup name => exact ⟨.ok (h.lookup name), h, .refl⟩

/-- Clients that ask the same see the same. -/
theorem transcript (requests : List (Request α)) (h : engine.Renamed other)
    (values : List.Forall₂ (Expr.Renamed (engine.interner.Namesakes other.interner)) given
      given') : engine.transcript requests given = other.transcript requests given' := by
  induction requests generalizing engine other given given' with
  | nil => rfl
  | cons request later ih =>
      have answered := h.answer values request
      unfold Engine.transcript
      generalize engine.answer given request = reply at answered ⊢
      generalize other.answer given' request = reply' at answered ⊢
      obtain ⟨outcome, after⟩ := reply
      obtain ⟨outcome', after'⟩ := reply'
      obtain ⟨outcomes, engines, onward⟩ := answered
      dsimp only at outcomes engines onward ⊢
      -- the request may have added names, and what the client holds corresponds behind them too
      have kept := values.imp fun _ _ value =>
        value.mono fun _ _ related => onward.namesakes related
      rw [engines.shownBindings]
      cases outcomes with
      | error error => exact congrArg _ (ih engines kept)
      | ok related =>
          cases related with
          | none => exact congrArg _ (ih engines kept)
          | some value =>
              have shown := value.shown fun _ _ related => related.name
              have rest := ih engines (.cons value kept)
              simp only [Except.map, Option.map_some, shown]
              exact congrArg _ rest

end Engine.Renamed

theorem History.operators_eq [Scalar α] [Numeral α] {lexer : Lexer}
    {operators later : OperatorTable} {start cursor : Cursor} {log : Log α}
    (history : History lexer operators start log later cursor) (nothing : log.DeclaresNothing) :
    later = operators := by
  induction history with
  | start => rfl
  | consumed _ _ ih => exact ih fun event member => nothing event (List.mem_append_left _ member)
  | declared _ _ => cases nothing _ (List.mem_append_right _ List.mem_cons_self)

namespace Engine

variable [Scalar α] [Numeral α] {engine : Engine α} {source : String}

theorem grammar_parse
    (nothing : (engine.grammar.history α engine.interner source).DeclaresNothing) :
    (engine.parse source).2.grammar = engine.grammar := by
  have agree := engine.grammar.parseDirectLogged_agree (α := α) engine.interner source
  obtain ⟨same, history⟩ := agree.stateAfter
  rw [Grammar.history_eq_direct] at nothing
  have operators := history.operators_eq nothing
  change (engine.grammar.parse (α := α) engine.interner source).grammar = engine.grammar
  rw [Grammar.parse_grammar, ← same, operators]

/-- What an engine knows it still knows when it has parsed a text. -/
theorem namesakes_parse (engine : Engine α) (source : String) (a b : Symbol)
    (related : engine.interner.Namesakes engine.interner a b) :
    (engine.parse source).2.interner.Namesakes engine.interner a b :=
  ⟨related.name, (engine.grammar.parse_onward engine.interner source).knows related.left,
    related.right⟩

/-- An engine corresponds to the one that has parsed a text without a declaration. -/
theorem Renamed.parse_nothing (h : engine.Renamed engine)
    (nothing : (engine.grammar.history α engine.interner source).DeclaresNothing) :
    (engine.parse source).2.Renamed engine := by
  have parsed := (h.parse source).engines
  have later := engine.namesakes_parse source
  have grammar := grammar_parse nothing
  refine ⟨?_, ?_, h.globals.mono later, parsed.left, h.right⟩
  · rw [grammar]
  · rw [grammar]
    exact h.operators.mono later

/-- Parsing a text that declares nothing, or fails before it does, leaves the grammar and all
bindings alone and only adds names behind those that were seen. A program that fails to parse does
no more. Whatever a client asks for later, it sees the same as if the text had never been parsed. -/
theorem parse_leaves_no_trace (native : engine.Native)
    (nothing : (engine.grammar.history α engine.interner source).DeclaresNothing) :
    (engine.parse source).2.grammar = engine.grammar ∧
    (engine.parse source).2.globals = engine.globals ∧
    (engine.parse source).2.initial = engine.initial ∧
    engine.interner.names <+: (engine.parse source).2.interner.names ∧
    (∀ error, (engine.parse source).1 = .error error →
      engine.run source = (.error (.parsing error), (engine.parse source).2)) ∧
    ∀ given, (∀ value ∈ given, ∀ symbol ∈ value.symbols, engine.interner.Knows symbol) →
      ∀ requests, (engine.parse source).2.transcript requests given =
        engine.transcript requests given := by
  have renamed := native.renamed
  refine ⟨grammar_parse nothing, rfl, rfl,
    (engine.grammar.parse_onward engine.interner source).names,
    fun error => run_of_parse_error, fun given known requests => ?_⟩
  refine (renamed.parse_nothing nothing).transcript requests ?_
  refine List.forall₂_same.mpr fun value member => ?_
  exact (Interner.renamed_of_knows (known value member)).mono (engine.namesakes_parse source)

/-- Text that breaks off has named `b` before `c` was named. Later a function is called that was
defined before, `c` is bound and found, a function that was given is bound to `b`, and what fails
fails in the same way. -/
theorem parse_leaves_no_trace_of_failure :
    let engine : Engine Float := (new.run "fun f(x) is a + x end; a = 1").2
    let after := (engine.parse "b + * c").2
    let requests : List (Request Float) :=
      [.run "c = f(2)", .lookup "f", .store "b" 0, .run "b(c) + d", .forget "c",
        .define "d" (.number 3) rfl]
    engine.Native ∧ (engine.parse "b + * c").1.toOption.isNone ∧
      (engine.grammar.history Float engine.interner "b + * c").DeclaresNothing ∧
      engine.interner.names = ["f", "x", "a"] ∧ after.interner.names = ["f", "x", "a", "b"] ∧
      after.transcript requests [] = engine.transcript requests [] := by
  intro engine after requests
  have native : engine.Native := .run _ .new
  have nothing : (engine.grammar.history Float engine.interner "b + * c").DeclaresNothing := by
    decide +kernel
  obtain ⟨_, _, _, _, _, same⟩ := parse_leaves_no_trace native nothing
  refine ⟨native, by decide +kernel, nothing, by decide +kernel, by decide +kernel, ?_⟩
  exact same [] (fun value member => by cases member) requests

/-- A function that a client kept over a reset calls whatever has the handle now. What that is
depends on the names that a text has added which failed to parse, and the symbol that a definition
gives back shows their number at once. -/
theorem parse_leaves_no_trace_not_of_kept_function :
    let before : Engine Float := (new.run "fun f(x) is g(x) end").2
    ∃ kept, before.lookup "f" = some kept ∧
      let engine := before.reset
      let after := (engine.parse "b + c +").2
      let program := "fun p(y) is y + 1 end; fun q(z) is z + 2 end"
      let answer (engine : Engine Float) :=
        (((engine.run program).2.define "f" kept).2.run "f(10)").1.toOption.bind Expr.number?
      engine.Reached ∧ (engine.parse "b + c +").1.toOption.isNone ∧
        (engine.grammar.history Float engine.interner "b + c +").DeclaresNothing ∧
        (engine.define "d" (.number 1)).1 = ⟨0, "d"⟩ ∧
        (after.define "d" (.number 1)).1 = ⟨2, "d"⟩ ∧
        (answer engine).any (· == 12) ∧ (answer after).any (· == 11) := by
  intro before
  have bound : (before.lookup "f").isSome := by decide +kernel
  refine ⟨(before.lookup "f").get bound, (Option.some_get bound).symm, ?_⟩
  refine ⟨.reset (.run _ .new), ?_⟩
  decide +kernel +revert

end Engine

end IntervalCalc

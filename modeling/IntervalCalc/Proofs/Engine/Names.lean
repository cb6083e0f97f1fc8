import IntervalCalc.Proofs.Engine.Reached
import IntervalCalc.Proofs.Engine.Renaming
import IntervalCalc.Proofs.Lexing.Printed
import IntervalCalc.Scalar.Float

/-!
The names of an engine. An engine corresponds to itself as long as it is handed no symbols but its
own. So whatever it holds it knows by the name that is written on it, its handles are as good as
names, and a look-up by name gives what a program with that name alone gives.
-/

namespace IntervalCalc

variable {α : Type} {R : Symbol → Symbol → Prop}

/-- The names bound in a frame, each with the symbols of its value. -/
def Frame.symbols (frame : Frame α) : List Symbol :=
  frame.entries.flatMap fun entry => entry.1 :: entry.2.symbols

def Scope.symbols (scope : Scope α) : List Symbol :=
  (scope.inner :: scope.outer).flatMap Frame.symbols

theorem Frame.Renamed.symbols {frame other : Frame α} (h : frame.Renamed R other) :
    List.Forall₂ R frame.symbols other.symbols :=
  List.rel_flatMap h fun _ _ both => .cons both.1 both.2.symbols

theorem Scope.Renamed.symbols {scope other : Scope α} (h : scope.Renamed R other) :
    List.Forall₂ R scope.symbols other.symbols :=
  List.rel_flatMap (.cons h.inner h.outer) fun _ _ frames => Frame.Renamed.symbols frames

theorem Scope.mem_symbols_set (scope : Scope α) (symbol : Symbol) (value : Expr α) :
    ∀ held ∈ value.symbols, held ∈ (scope.set symbol value).symbols := by
  intro held member
  have bound : ∃ key, (key, value) ∈ (scope.inner.insert symbol value).entries := by
    unfold OrderedMap.insert
    split
    next present =>
      obtain ⟨key, among, same⟩ := (OrderedMap.isSome_find? scope.inner symbol).mp present
      obtain ⟨entry, inside, rfl⟩ := List.mem_map.mp among
      refine ⟨entry.1, List.mem_map.mpr ⟨entry, inside, ?_⟩⟩
      rw [if_pos (BEq.symm same)]
    · exact ⟨symbol, List.mem_append_right _ List.mem_cons_self⟩
  obtain ⟨key, among⟩ := bound
  refine List.mem_flatMap.mpr ⟨_, List.mem_cons_self, ?_⟩
  exact List.mem_flatMap.mpr ⟨_, among, List.mem_cons_of_mem _ member⟩

namespace Interner

/-- An expression all of whose symbols are known corresponds to itself. -/
theorem renamed_of_knows {interner : Interner} {expression : Expr α}
    (known : ∀ symbol ∈ expression.symbols, interner.Knows symbol) :
    expression.Renamed (interner.Namesakes interner) expression :=
  expression.renamed_self fun symbol held => ⟨rfl, known symbol held, known symbol held⟩

theorem knows_of_renamed {interner : Interner} {expression : Expr α}
    (h : expression.Renamed (interner.Namesakes interner) expression) :
    ∀ symbol ∈ expression.symbols, interner.Knows symbol :=
  fun symbol held => (List.forall₂_same.mp h.symbols symbol held).left

end Interner

/-- A name that is no operator is parsed as its symbol. -/
theorem Grammar.parse_name [Scalar α] [Numeral α] {grammar : Grammar}
    (standard : grammar.lexer = .standard) (interner : Interner) {name : String}
    (identifier : isIdentifier name.toList) (free : name ∉ grammar.operators.keys) :
    grammar.parse (α := α) interner name =
      ⟨.ok (.symbol (interner.intern name).1), grammar, (interner.intern name).2⟩ := by
  let before := grammar.start interner name
  let r : Lexer.Reading α :=
    ⟨⟨.literal (.symbol (interner.intern name).1), before.cursor.location⟩,
      before.cursor.advance name.toList.length, (interner.intern name).2⟩
  have unknown : ¬ grammar.operators.keys.contains name := by
    rw [List.contains_iff_mem]
    exact free
  have read : before.ahead grammar.lexer .operand = .ok r := by
    rw [ParseState.ahead, standard]
    exact Lexer.next_name identifier .nil (List.append_nil _).symm (by simp) unknown
  have finished : (before.consume r).cursor.rest = [] := by
    change (before.cursor.advance name.toList.length).rest = []
    rw [Cursor.rest_advance]
    exact List.drop_length
  have ending : (before.consume r).ahead (α := α) grammar.lexer .operator =
      .ok (Lexer.endReading (before.consume r).interner (before.consume r).cursor) :=
    Lexer.next_of_end finished
  have parsed : Direct.expression (α := α) grammar.lexer 0 before =
      .ok (.symbol (interner.intern name).1) (before.consume r) := by
    rw [Direct.expression_eq,
      Run.bind_ok (TokenSource.direct_next_ok.mpr ⟨r, read, rfl, rfl⟩),
      Run.bind_ok (Parser.prefixForm_literal rfl)]
    exact Direct.extend_of_loose ending (Nat.le_refl 0) _
  have program : grammar.parseDirect (α := α) interner name =
      .ok (.symbol (interner.intern name).1) (before.consume r) := by
    have taken := TokenSource.direct_next_ok.mpr ⟨_, ending, rfl, rfl⟩
    exact parseDirect_ok.mpr ⟨_, _, parsed, taken, rfl⟩
  rw [parse_eq_direct, program]
  rfl

theorem Expr.evaluate_symbol [Scalar α] (depth : Nat) (scope : Scope α) (symbol : Symbol) :
    (Expr.symbol symbol).evaluate depth scope =
      (scope.get? symbol).elim (.error (.undefinedVariable symbol.name) scope) (.ok · scope) := by
  rw [Expr.evaluate, Expr.evaluateWith, Run.get_bind]
  cases scope.get? symbol <;> rfl

namespace Engine

variable [Scalar α] [Numeral α] {engine : Engine α}

/-- The engines reached from a new one by clients that hand in symbols of the engine only: numbers,
intervals, and values and expressions that the engine itself gave. A copy of an engine is one that
was reached in the same way. -/
inductive Native : Engine α → Prop
  | new : Native new
  | run {engine : Engine α} (source : String) : Native engine → Native (engine.run source).2
  | parse {engine : Engine α} (source : String) : Native engine → Native (engine.parse source).2
  | evaluate {engine : Engine α} {expression : Expr α} :
      (∀ symbol ∈ expression.symbols, engine.interner.Knows symbol) → Native engine →
      Native (engine.evaluate expression).2
  | define {engine : Engine α} (name : String) {value : Expr α} :
      (∀ symbol ∈ value.symbols, (engine.interner.intern name).2.Knows symbol) → Native engine →
      Native (engine.define name value).2
  | forget {engine : Engine α} (name : String) : Native engine → Native (engine.forget name).2
  | reset {engine : Engine α} : Native engine → Native engine.reset

theorem Native.reached (native : engine.Native) : engine.Reached := by
  induction native with
  | new => exact .new
  | run source _ ih => exact .run source ih
  | parse source _ ih => exact .parse source ih
  | evaluate _ _ ih => exact .evaluate _ ih
  | define name _ _ ih => exact .define name _ ih
  | forget name _ ih => exact .forget name ih
  | reset _ ih => exact .reset ih

/-- An engine that was handed its own symbols only corresponds to itself. -/
theorem Native.renamed (native : engine.Native) : engine.Renamed engine := by
  induction native with
  | new => exact .new
  | run source _ ih => exact (ih.run source).engines
  | parse source _ ih => exact (ih.parse source).engines
  | evaluate known _ ih => exact (ih.evaluate (Interner.renamed_of_knows known)).engines
  | define name known _ ih => exact ih.define name (Interner.renamed_of_knows known)
  | forget name _ ih => exact (ih.forget name).2
  | reset native _ =>
      unfold Engine.reset
      rw [native.reached.standing.initial]
      exact .new

omit [Scalar α] [Numeral α]

/-- The functions that operators call, the names bound, and the symbols of the values bound. -/
def symbols (engine : Engine α) : List Symbol :=
  engine.grammar.operators.heads ++ engine.globals.symbols

theorem Renamed.symbols {other : Engine α} (h : engine.Renamed other) :
    List.Forall₂ (engine.interner.Namesakes other.interner) engine.symbols other.symbols :=
  List.rel_append h.operators.heads h.globals.symbols

theorem Renamed.knows (h : engine.Renamed engine) :
    ∀ symbol ∈ engine.symbols, engine.interner.Knows symbol :=
  fun symbol held => (List.forall₂_same.mp h.symbols symbol held).left

/-- A name that was not seen has no binding, also under the handle that it would get. -/
theorem Renamed.lookup_eq (h : engine.Renamed engine) (name : String) :
    engine.lookup name = engine.globals.get? (engine.interner.intern name).1 := by
  unfold Engine.lookup
  cases found : engine.interner.lookup name with
  | some symbol =>
      rw [Interner.intern_of_lookup found]
      rfl
  | none =>
      -- the keys were known before, so the handle that is given out now is none of theirs
      refine (Scope.get?_eq_none fun frame member => ?_).symm
      have frames := List.forall₂_same.mp h.frames frame member
      have keys : List.Forall₂
          (engine.interner.Namesakes (engine.interner.intern name).2) frame.keys frame.keys :=
        frames.imp fun _ _ both => ⟨both.name, both.left, both.right.intern name⟩
      exact Interner.Namesakes.unbound' keys (.inl found) _ (engine.interner.lookup_intern name)

variable [Scalar α]

/-- Evaluating a symbol is looking up its name. -/
theorem Renamed.evaluate_name (h : engine.Renamed engine) (name : String) :
    (engine.evaluate (.symbol (engine.interner.intern name).1)).1 =
      (engine.lookup name).elim (.error (.undefinedVariable name)) .ok := by
  have named := engine.interner.name_intern name
  unfold Engine.evaluate
  rw [Expr.evaluate_symbol, h.lookup_eq, named]
  cases engine.globals.get? (engine.interner.intern name).1 <;> rfl

variable [Numeral α]

theorem Renamed.run_name (h : engine.Renamed engine) (standard : engine.grammar.lexer = .standard)
    {name : String} (identifier : isIdentifier name.toList)
    (free : name ∉ engine.grammar.operators.keys) :
    (engine.run name).1 =
      (engine.lookup name).elim (.error (.evaluation (.undefinedVariable name))) .ok := by
  have parsed := Grammar.parse_name (α := α) standard engine.interner identifier free
  have after : engine.parse name = (.ok (.symbol (engine.interner.intern name).1),
      { engine with interner := (engine.interner.intern name).2 }) := by
    unfold Engine.parse Engine.parseWith
    rw [parsed]
  -- the parse may have added the name, and from then on asking for it adds nothing
  have known := Interner.intern_of_lookup (engine.interner.lookup_intern name)
  have again := (h.parse name).engines
  have same := again.lookup_eq name
  have evaluated := again.evaluate_name name
  rw [after] at same evaluated
  dsimp only at same evaluated
  rw [known] at same evaluated
  rw [run_of_parse (congrArg Prod.fst after), after]
  dsimp only
  rw [evaluated, same, h.lookup_eq]
  cases engine.globals.get? (engine.interner.intern name).1 <;> rfl

/-- What an engine gives that corresponds to itself, it knows. -/
theorem Renamed.knows_given (h : engine.Renamed engine) (source : String) {given : Expr α} :
    ((engine.parse source).1 = .ok given →
      ∀ symbol ∈ given.symbols, (engine.parse source).2.interner.Knows symbol) ∧
    ((engine.run source).1 = .ok given →
      ∀ symbol ∈ given.symbols, (engine.run source).2.interner.Knows symbol) := by
  have parsed := (h.parse source).answer
  have ran := (h.run source).answer
  constructor
  · intro same
    rw [same] at parsed
    cases parsed with
    | ok related => exact Interner.knows_of_renamed related
  · intro same
    rw [same] at ran
    cases ran with
    | ok related => exact Interner.knows_of_renamed related

/-- Whatever symbol a native engine holds, its interner resolves the handle to the name, so that
handles are equal exactly if names are, and the value of a name as a program is what a look-up by
the name gives. Defining a name keeps it so exactly if the value has known symbols only, as the
trees and values have that the engine gives. -/
theorem symbols_resolve (native : engine.Native) :
    (∀ symbol ∈ engine.symbols, engine.interner.resolve symbol.id = some symbol) ∧
    (∀ symbol ∈ engine.symbols, ∀ other ∈ engine.symbols,
      symbol.id = other.id ↔ symbol.name = other.name) ∧
    (∀ name, (engine.evaluate (.symbol (engine.interner.intern name).1)).1 =
      (engine.lookup name).elim (.error (.undefinedVariable name)) .ok) ∧
    (∀ name, isIdentifier name.toList → name ∉ engine.grammar.operators.keys →
      (engine.run name).1 =
        (engine.lookup name).elim (.error (.evaluation (.undefinedVariable name))) .ok) ∧
    (∀ name value,
      (∀ symbol ∈ (engine.define name value).2.symbols,
        (engine.define name value).2.interner.resolve symbol.id = some symbol) ↔
      ∀ symbol ∈ value.symbols,
        (engine.interner.intern name).2.resolve symbol.id = some symbol) ∧
    ∀ source given,
      ((engine.parse source).1 = .ok given → ∀ symbol ∈ given.symbols,
        (engine.parse source).2.interner.resolve symbol.id = some symbol) ∧
      ((engine.run source).1 = .ok given → ∀ symbol ∈ given.symbols,
        (engine.run source).2.interner.resolve symbol.id = some symbol) := by
  have renamed := native.renamed
  refine ⟨renamed.knows, ?_, renamed.evaluate_name, ?_, ?_, fun _ _ => renamed.knows_given _⟩
  · intro symbol held other held'
    rw [← Symbol.beq_iff]
    exact renamed.left.beq_iff (renamed.knows symbol held) (renamed.knows other held')
  · intro name identifier free
    exact renamed.run_name native.reached.standing.lexer identifier free
  · intro name value
    constructor
    · intro resolves symbol held
      refine resolves symbol (List.mem_append_right _ ?_)
      exact Scope.mem_symbols_set engine.globals _ value symbol held
    · intro known
      exact (native.define name known).renamed.knows

/-- A program that fails half way has taken the first handle, an operator was declared and its
function defined, and a value handed in. -/
theorem symbols_resolve_after_failure :
    let failed : Engine Float := (new.run "b +").2
    let declared := (failed.run "prefix twice 90; fun twice(x) is x + x end").2
    let engine := (declared.define "c" (.number 4)).2
    engine.Native ∧ engine.symbols.map (fun symbol => (symbol.id, symbol.name)) =
        [(1, "twice"), (1, "twice"), (1, "twice"), (2, "x"), (2, "x"), (2, "x"), (3, "c")] ∧
      (∀ symbol ∈ engine.symbols, engine.interner.resolve symbol.id = some symbol) ∧
      (engine.run "c").1 = (engine.lookup "c").elim
        (.error (.evaluation (.undefinedVariable "c"))) .ok := by
  intro failed declared engine
  have native : engine.Native := .define "c" (fun _ held => by cases held) (.run _ (.run _ .new))
  obtain ⟨resolves, _, _, runs, _⟩ := symbols_resolve native
  exact ⟨native, by decide +kernel, resolves, runs "c" (by decide) (by decide +kernel)⟩

/-- A function that a client kept over a reset has handles that were given out again since, and a
keyword can be bound and looked up, but is no program. -/
theorem symbols_resolve_not_of_kept_function :
    let before : Engine Float := (new.run "fun f(x) is x end").2
    ∃ kept, before.lookup "f" = some kept ∧
      let engine := ((before.reset.define "g" kept).2.define "end" (.number 5)).2
      engine.Reached ∧
        engine.symbols.map (fun symbol => (symbol.id, symbol.name)) =
          [(0, "g"), (0, "f"), (1, "x"), (1, "x"), (1, "end")] ∧
        ¬ (∀ symbol ∈ engine.symbols, engine.interner.resolve symbol.id = some symbol) ∧
        ¬ (∀ symbol ∈ engine.symbols, ∀ other ∈ engine.symbols,
          symbol.id = other.id ↔ symbol.name = other.name) ∧
        (engine.lookup "end").isSome ∧ (engine.run "end").1.toOption.isNone := by
  intro before
  have bound : (before.lookup "f").isSome := by decide +kernel
  refine ⟨(before.lookup "f").get bound, (Option.some_get bound).symm, ?_⟩
  refine ⟨.define _ _ (.define _ _ (.reset (.run _ .new))), ?_⟩
  decide +kernel +revert

end Engine

end IntervalCalc

import IntervalCalc.Proofs.Engine.Heads
import IntervalCalc.Proofs.Lexing.Printed
import IntervalCalc.Proofs.Parsing.Precedence
import IntervalCalc.Proofs.Parsing.Reads
import IntervalCalc.Scalar.Float

/-!
Declared operators in use. A declaration that is accepted leaves an operator that calls the function
of its name. Wherever an operand may begin the engine then reads the one, and behind an operand it
reads the other, unless that one has no power at all.
-/

namespace IntervalCalc

variable {α : Type}

/-- The names are distinct, and every declared operator calls the function of its own name. -/
structure Interner.Owns (interner : Interner) (operators : OperatorTable) : Prop where
  distinct : interner.Distinct
  head {name : String} {fixity : Fixity} {head : Symbol} {power : Power} :
    operators.find? name = some (declaredOperator fixity head power) →
      interner.Knows head ∧ head.name = name

namespace Interner.Owns

variable {I J : Interner} {operators : OperatorTable}

theorem standard : empty.Owns .standard := by
  refine ⟨.empty, fun {name fixity head power} found => ?_⟩
  have none : ∀ entry ∈ OperatorTable.standard.entries, ¬ entry.2.isCall := by decide
  exact absurd (isCall_declaredOperator fixity head power)
    (none (name, _) (OrderedMap.mem_of_find? found))

/-- Names that are added change nothing. -/
theorem onward (h : I.Owns operators) (onward : I.Onward I J J) : J.Owns operators :=
  ⟨onward.left h.distinct, fun found => ⟨onward.knows (h.head found).1, (h.head found).2⟩⟩

theorem declare (h : I.Owns operators) (name : String) (fixity : Fixity) (power : Power) :
    (I.intern name).2.Owns
      (operators.insert name (declaredOperator fixity (I.intern name).1 power)) := by
  have later := h.onward (.intern I I name)
  refine ⟨later.distinct, fun {other fixity' head power'} found => ?_⟩
  rw [OrderedMap.find?_insert] at found
  split at found
  next same =>
    obtain ⟨_, rfl, _⟩ := declaredOperator_inj (Option.some.inj found)
    exact ⟨I.knows_intern name, (I.name_intern name).trans (eq_of_beq same).symm⟩
  · exact later.head found

/-- The function that a declared operator calls is the one that its name gives. -/
theorem intern_eq (h : I.Owns operators) {name : String} {fixity : Fixity} {head : Symbol}
    {power : Power} (found : operators.find? name = some (declaredOperator fixity head power)) :
    (I.intern name).1 = head := by
  obtain ⟨known, rfl⟩ := h.head found
  rw [intern_of_lookup (h.distinct.lookup known)]

end Interner.Owns

section Reached

variable [Scalar α] [Numeral α]

theorem Grammar.parse_owns (grammar : Grammar) (interner : Interner) (source : String)
    (h : interner.Owns grammar.operators) :
    (grammar.parse (α := α) interner source).interner.Owns
      (grammar.parse (α := α) interner source).grammar.operators := by
  have preserves : (TokenSource.direct (α := α) grammar.lexer).Simulates (.direct grammar.lexer)
      fun s t => s = t ∧ s.interner.Owns s.operators := by
    refine TokenSource.direct_preserves (fun before read => ?_) (fun before read => ?_)
      fun before _ => ?_
    · exact before.onward (Lexer.next_onward read)
    · exact before.onward (Lexer.next_onward read)
    · exact before.declare _ _ _
  have agree := preserves.program (Parser.stepsFor source.toList) (grammar.start interner source)
    (grammar.start interner source) ⟨rfl, h⟩
  rw [parse_grammar, parse_interner]
  exact agree.stateAfter.2

namespace Engine

omit [Numeral α] in
theorem grammar_evaluate (engine : Engine α) (expression : Expr α) :
    (engine.evaluate expression).2.grammar = engine.grammar := by
  unfold Engine.evaluate
  split <;> rfl

theorem grammar_run (engine : Engine α) (source : String) :
    (engine.run source).2.grammar = (engine.parse source).2.grammar := by
  cases parsed : (engine.parse source).1 with
  | error error => rw [run_of_parse_error parsed]
  | ok tree =>
      rw [run_of_parse parsed]
      exact grammar_evaluate _ tree

omit [Scalar α] [Numeral α] in
theorem grammar_forget (engine : Engine α) (name : String) :
    (engine.forget name).2.grammar = engine.grammar := by
  unfold Engine.forget
  split <;> rfl

theorem Reached.owns {engine : Engine α} (h : engine.Reached) :
    engine.interner.Owns engine.grammar.operators := by
  induction h with
  | new => exact .standard
  | @parse engine source _ ih => exact engine.grammar.parse_owns engine.interner source ih
  | evaluate expression _ ih =>
      rw [interner_evaluate, grammar_evaluate]
      exact ih
  | @run engine source _ ih =>
      rw [interner_run, grammar_run]
      exact engine.grammar.parse_owns engine.interner source ih
  | @define engine name value _ ih => exact ih.onward (.intern _ _ name)
  | forget name _ ih =>
      rw [interner_forget, grammar_forget]
      exact ih
  | @reset engine before _ =>
      unfold Engine.reset
      rw [before.standing.initial]
      exact .standard

end Engine

end Reached

variable [Scalar α] [Numeral α]

section Numbers

variable {lexer : Lexer} {steps : Nat} {left result : Expr α} {value : α} {s s' : ParseState}

theorem operators_of_next {position : Position} {token : Token α}
    (read : (TokenSource.direct lexer).next position s = .ok token s') :
    s'.operators = s.operators := by
  obtain ⟨r, _, _, rfl⟩ := TokenSource.direct_next_ok.mp read
  rfl

theorem operators_of_peek {position : Position} {token : Token α}
    (read : (TokenSource.direct lexer).peek position s = .ok token s') :
    s'.operators = s.operators := by
  obtain ⟨r, _, _, rfl⟩ := TokenSource.direct_peek_ok.mp read
  rfl

theorem operators_of_leftPower {power : Power}
    (found : Parser.leftPower (.direct (α := α) lexer) s = .ok power s') :
    s'.operators = s.operators := by
  obtain ⟨token, middle, read, found⟩ := Run.bind_eq_ok found
  have same := operators_of_peek read
  obtain ⟨kind, location⟩ := token
  cases kind <;> cases found <;> exact same

theorem operators_of_endsProgram {op : BinaryOp} {ends : Bool}
    (found : Parser.endsProgram (.direct (α := α) lexer) op s = .ok ends s') :
    s'.operators = s.operators := by
  unfold Parser.endsProgram at found
  split at found
  · obtain ⟨token, middle, read, found⟩ := Run.bind_eq_ok found
    cases found
    exact operators_of_peek read
  · cases found
    rfl

/-- Of the infix forms only a separator at the end of the text gives a number, the one before it. -/
theorem infixForm_number {list : String → ParseM ParseState (List (Expr α))}
    {e : Power → ParseM ParseState (Expr α)} {token : Token α}
    (formed : Parser.infixForm (.direct lexer) list e token left s = .ok (.number value) s') :
    left = .number value ∧ s'.operators = s.operators := by
  obtain ⟨name, operator, rule, _, _, _, applied⟩ := Parser.infixForm_ok formed
  cases rule with
  | binary op rightAssociative =>
      obtain ⟨ends, middle, asked, applied⟩ := Run.bind_eq_ok applied
      have same := operators_of_endsProgram asked
      split at applied
      · cases applied
        exact ⟨rfl, same⟩
      · obtain ⟨right, _, _, applied⟩ := Run.bind_eq_ok applied
        cases applied
  | postfixed op => cases applied
  | apply head =>
      obtain ⟨right, _, _, applied⟩ := Run.bind_eq_ok applied
      cases applied
  | composite closing bracket =>
      dsimp only [Parser.applyInfix] at applied
      split at applied
      · obtain ⟨empty, _, _, applied⟩ := Run.bind_eq_ok applied
        split at applied
        · cases applied
        · obtain ⟨list, _, _, applied⟩ := Run.bind_eq_ok applied
          cases applied
      · cases applied
  | branch =>
      obtain ⟨condition, _, _, applied⟩ := Run.bind_eq_ok applied
      obtain ⟨_, _, _, applied⟩ := Run.bind_eq_ok applied
      obtain ⟨alternative, _, _, applied⟩ := Run.bind_eq_ok applied
      cases applied

/-- What is extended to a number is that number, and nothing was declared on the way. -/
theorem extend_number {power : Power}
    (extended : Parser.extend (.direct lexer) steps power left s = .ok (.number value) s') :
    left = .number value ∧ s'.operators = s.operators := by
  induction steps generalizing left s with
  | zero =>
      obtain ⟨found, middle, looked, extended⟩ := Run.bind_eq_ok extended
      have same := operators_of_leftPower looked
      split at extended
      · obtain ⟨token, _, _, extended⟩ := Run.bind_eq_ok extended
        exact absurd extended Parser.unexpected_ne_ok
      · cases extended
        exact ⟨rfl, same⟩
  | succ steps ih =>
      obtain ⟨found, middle, looked, extended⟩ := Run.bind_eq_ok extended
      have same := operators_of_leftPower looked
      split at extended
      · obtain ⟨token, read, taken, extended⟩ := Run.bind_eq_ok extended
        obtain ⟨next, between, formed, extended⟩ := Run.bind_eq_ok extended
        obtain ⟨rfl, kept⟩ := ih extended
        obtain ⟨number, unchanged⟩ := infixForm_number formed
        exact ⟨number, kept.trans (unchanged.trans ((operators_of_next taken).trans same))⟩
      · cases extended
        exact ⟨rfl, same⟩

end Numbers

/-- With some operators and in a position, a text begins with a token of some sort and goes on with
another text. -/
def Begins (operators : OperatorTable) (position : Position) (text : List Char)
    (sort : TokenKind α → Prop) (tail : List Char) : Prop :=
  ∀ state : ParseState, state.operators = operators → state.cursor.rest = text →
    ∃ r : Lexer.Reading α, state.ahead .standard position = .ok r ∧ sort r.token.kind ∧
      r.cursor.rest = tail

/-- A name is an operator, or a symbol of that name. -/
def TokenKind.Names (name : String) (kind : TokenKind α) : Prop :=
  kind = .operator name ∨ ∃ symbol, kind = .literal (.symbol symbol) ∧ symbol.name = name

namespace Begins

variable {operators : OperatorTable} {position : Position} {sort : TokenKind α → Prop}
variable {text tail : List Char}

theorem of_next {lexeme : List Char} (h : ∀ (interner : Interner) (cursor : Cursor),
      cursor.rest = lexeme ++ tail → ∃ kind after,
        Lexer.standard.next position operators.keys interner cursor =
          .ok ⟨⟨kind, cursor.location⟩, cursor.advance lexeme.length, after⟩ ∧ sort kind) :
    Begins operators position (lexeme ++ tail) sort tail := by
  rintro state rfl rest
  obtain ⟨kind, after, read, holds⟩ := h state.interner state.cursor rest
  refine ⟨_, read, holds, ?_⟩
  rw [Cursor.rest_advance, rest, List.drop_left]

theorem atEnd : Begins (α := α) operators position [] (· = .endOfInput) [] := by
  rintro state - rest
  exact ⟨Lexer.endReading state.interner state.cursor, Lexer.next_of_end rest, rfl, rest⟩

/-- A blank in front is passed over. -/
theorem blank (grown : operators.Grown) (begins : Begins operators position text sort tail) :
    Begins operators position (' ' :: text) sort tail := by
  rintro state rfl rest
  have skipped : state.skip.cursor.rest = text := by
    change (state.cursor.advance 1).rest = text
    rw [Cursor.rest_advance, rest]
    rfl
  obtain ⟨r, read, holds, behind⟩ := begins state.skip rfl skipped
  exact ⟨r, (Lexer.next_isBlank grown.symbols (by decide) rest).trans read, holds, behind⟩

theorem numeral {numeral : DecimalNumeral} (written : numeral.Written)
    (delimited : Delimited tail) : Begins operators position (numeral.lexeme ++ tail)
      (· = .literal (.number (numeral.value : α))) tail :=
  of_next fun _ _ rest => ⟨_, _, Lexer.next_numeral written delimited rest, rfl⟩

section Names

variable {name : String} (identifier : isIdentifier name.toList)

include identifier

theorem operator {operator : Operator} (known : operators.find? name = some operator) :
    Begins (α := α) operators position (name.toList ++ ' ' :: tail) (· = .operator name)
      (' ' :: tail) := by
  have contained : operators.keys.contains name :=
    List.contains_iff_mem.mpr (OrderedMap.mem_keys_of_find? known)
  refine of_next fun interner cursor rest => ⟨_, interner, ?_, rfl⟩
  exact Lexer.next_keyword identifier (.blank tail) rest (by simp) contained

theorem word : Begins (α := α) operators position (name.toList ++ ' ' :: tail)
    (TokenKind.Names name) (' ' :: tail) := by
  refine of_next fun interner cursor rest => ?_
  by_cases known : operators.keys.contains name
  · exact ⟨_, interner, Lexer.next_keyword identifier (.blank tail) rest (by simp) known, .inl rfl⟩
  · exact ⟨_, _, Lexer.next_name identifier (.blank tail) rest (by simp) known,
      .inr ⟨_, rfl, interner.name_intern name⟩⟩

end Names

/-- What a text begins with is what is consumed. -/
theorem next {state after : ParseState} {token : Token α}
    (begins : Begins operators position text sort tail) (same : state.operators = operators)
    (rest : state.cursor.rest = text)
    (taken : (TokenSource.direct .standard).next position state = .ok token after) :
    sort token.kind ∧ after.operators = operators ∧ after.cursor.rest = tail := by
  obtain ⟨r, ahead, holds, behind⟩ := begins state same rest
  obtain ⟨r', ahead', rfl, rfl⟩ := TokenSource.direct_next_ok.mp taken
  cases ahead.symm.trans ahead'
  exact ⟨holds, same, behind⟩

end Begins

section Ends

variable {s : ParseState}

/-- A literal is an expression by itself before a token that binds no tighter. -/
theorem expression_literal {p : Power} {value : Expr α} {kind : TokenKind α}
    {text tail rest : List Char}
    (first : Begins s.operators .operand text (· = .literal value) tail)
    (second : Begins s.operators .operator tail (· = kind) rest)
    (start : s.cursor.rest = text) (loose : s.operators.powerOf kind ≤ p) :
    ∃ r r' : Lexer.Reading α, (s.consume r).ahead .standard .operator = .ok r' ∧
      r'.token.kind = kind ∧ Direct.expression .standard p s =
        .ok value { s.consume r with interner := r'.interner } := by
  obtain ⟨r, ahead, literal, behind⟩ := first s rfl start
  obtain ⟨r', ahead', rfl, _⟩ := second (s.consume r) rfl behind
  refine ⟨r, r', ahead', rfl, ?_⟩
  rw [Direct.expression_eq, Run.bind_ok (TokenSource.direct_next_ok.mpr ⟨r, ahead, rfl, rfl⟩),
    Run.bind_ok (Parser.prefixForm_literal literal)]
  exact Direct.extend_of_loose ahead' loose value

/-- Behind a whole program no operator may be left over. -/
theorem Grammar.parseDirect_leftover {grammar : Grammar} {interner : Interner} {source : String}
    {result : Expr α} {between after : ParseState} {token : Token α} {name : String}
    (parsed : Direct.expression grammar.lexer 0 (grammar.start interner source) =
      .ok result between)
    (read : (TokenSource.direct grammar.lexer).next .operator between = .ok token after)
    (operator : token.kind = .operator name) :
    grammar.parseDirect (α := α) interner source =
      .error ⟨.unexpectedToken name, token.location⟩ after := by
  rw [parseDirect_eq, Run.bind_ok parsed, Run.bind_ok read]
  obtain ⟨kind, location⟩ := token
  obtain rfl : kind = .operator name := operator
  rfl

end Ends

/-- An expression that is all of the text and a numeral gives its number. -/
theorem expression_numeral (s : ParseState) {numeral : DecimalNumeral} (written : numeral.Written)
    (grown : s.operators.Grown) (rest : s.cursor.rest = ' ' :: (numeral.lexeme ++ [])) (p : Power) :
    ∃ s', Direct.expression .standard p s = .ok (.number (numeral.value : α)) s' := by
  have first : Begins s.operators .operand _ (· = .literal (.number (numeral.value : α))) [] :=
    .blank grown (.numeral written .nil)
  obtain ⟨_, _, _, _, parsed⟩ := expression_literal first .atEnd rest (Nat.zero_le p)
  exact ⟨_, parsed⟩

def DecimalNumeral.text (numeral : DecimalNumeral) : String :=
  String.ofList numeral.lexeme

/-- The text of a declaration. -/
def Fixity.declaration (fixity : Fixity) (name power : String) : String :=
  fixity.text ++ " " ++ name ++ " " ++ power

theorem Fixity.toList_declaration (fixity : Fixity) (name power : String) :
    (fixity.declaration name power).toList =
      fixity.text.toList ++ ' ' :: (name.toList ++ ' ' :: power.toList) := by
  simp [declaration, String.toList_append, List.append_assoc]

theorem Fixity.isIdentifier_text (fixity : Fixity) : isIdentifier fixity.text.toList := by
  cases fixity <;> decide

/-- A name is an operator of some fixity and power. The power is the one that its text denotes, if
that is a numeral. -/
structure Declared (α : Type) [Scalar α] [Numeral α] (operators : OperatorTable) (fixity : Fixity)
    (name : String) (text : List Char) (head : Symbol) (power : Power) : Prop where
  found : operators.find? name = some (declaredOperator fixity head power)
  denotes (numeral : DecimalNumeral) : numeral.Written → text = numeral.lexeme →
    power = Scalar.floorNat (numeral.value : α)

namespace Parser

variable {s s' : ParseState} {name : String}

omit [Scalar α] in
theorem declaredName_ok {σ : Type} {token : Token α} {found : String} {s s' : σ}
    (named : token.kind.Names name) (declared : declaredName token s = .ok found s') :
    found = name ∧ s' = s := by
  obtain ⟨kind, location⟩ := token
  rcases named with same | ⟨symbol, same, rfl⟩
  · obtain rfl : kind = .operator name := same
    dsimp only [declaredName] at declared
    split at declared
    · cases declared
      exact ⟨rfl, rfl⟩
    · cases declared
  · obtain rfl : kind = .literal (.symbol symbol) := same
    cases declared
    exact ⟨rfl, rfl⟩

/-- The power in a declaration is the one that its numeral denotes. -/
theorem declaredPower_numeral {numeral : DecimalNumeral} (written : numeral.Written)
    (grown : s.operators.Grown) (rest : s.cursor.rest = ' ' :: numeral.lexeme) {power : Power}
    (asked : declaredPower (.direct (α := α) .standard) (Direct.expression .standard) s =
      .ok power s') :
    power = Scalar.floorNat (numeral.value : α) := by
  obtain ⟨first, looked, peeked, asked⟩ := Run.bind_eq_ok asked
  obtain ⟨operand, after, parsed, asked⟩ := Run.bind_eq_ok asked
  obtain ⟨r, _, _, rfl⟩ := TokenSource.direct_peek_ok.mp peeked
  rw [← List.append_nil numeral.lexeme] at rest
  obtain ⟨other, parsed'⟩ :=
    expression_numeral (α := α) { s with interner := r.interner } written grown rest 1000
  cases parsed.symm.trans parsed'
  dsimp only at asked
  split at asked
  · cases asked
    rfl
  · cases asked

/-- A declaration that is accepted has declared the name behind the keyword last of all. -/
theorem declaration_declares {fixity : Fixity} {value : Expr α} {tail : List Char}
    (identifier : isIdentifier name.toList) (grown : s.operators.Grown)
    (rest : s.cursor.rest = ' ' :: (name.toList ++ ' ' :: tail))
    (accepted : declaration (.direct .standard) (Direct.expression .standard) fixity s =
      .ok value s') :
    ∃ head power, Declared α s'.operators fixity name tail head power := by
  obtain ⟨token, named, taken, accepted⟩ := Run.bind_eq_ok accepted
  obtain ⟨found, spelt, spelled, accepted⟩ := Run.bind_eq_ok accepted
  obtain ⟨power, powered, asked, accepted⟩ := Run.bind_eq_ok accepted
  obtain ⟨_, declared, inserted, accepted⟩ := Run.bind_eq_ok accepted
  cases accepted
  cases inserted
  obtain ⟨kind, operators, behind⟩ := (Begins.blank grown (.word identifier)).next rfl rest taken
  obtain ⟨rfl, rfl⟩ := declaredName_ok kind spelled
  refine ⟨(powered.interner.intern found).1, power, ?_, fun numeral written same => ?_⟩
  · exact (OrderedMap.find?_insert _ _ _ _).trans (if_pos (beq_self_eq_true found))
  · rw [same] at behind
    exact declaredPower_numeral written (operators ▸ grown) behind asked

end Parser

/-- The keyword of a declaration is the standard one, or a declared operator that gives a call. -/
theorem OperatorTable.Grown.prefixRule {operators : OperatorTable} (grown : operators.Grown)
    {fixity : Fixity} {operator : Operator} {rule : PrefixRule}
    (found : operators.find? fixity.text = some operator)
    (holds : operator.prefixRule = some rule) :
    rule = .declare fixity ∨ ∃ head power, rule = .apply head power := by
  rcases grown.known found with standing | ⟨declared, head, power, rfl⟩
  · have keyword :
        OperatorTable.standard.find? fixity.text = some (.prefixed (.declare fixity)) := by
      cases fixity <;> rfl
    cases standing.symm.trans keyword
    cases holds
    exact .inl rfl
  · cases declared with
    | prefixed => cases holds; exact .inr ⟨head, power, rfl⟩
    | infixed => cases holds

/-- An expression that begins like a declaration and is a number has declared the name. -/
theorem expression_declares {s s' : ParseState} {fixity : Fixity} {name : String} {value : α}
    {tail : List Char} {p : Power} (grown : s.operators.Grown)
    (identifier : isIdentifier name.toList)
    (rest : s.cursor.rest = fixity.text.toList ++ ' ' :: (name.toList ++ ' ' :: tail))
    (parsed : Direct.expression .standard p s = .ok (.number value) s') :
    ∃ head power, Declared α s'.operators fixity name tail head power := by
  rw [Direct.expression_eq] at parsed
  obtain ⟨token, begun, taken, parsed⟩ := Run.bind_eq_ok parsed
  obtain ⟨left, between, formed, parsed⟩ := Run.bind_eq_ok parsed
  obtain ⟨rfl, kept⟩ := extend_number parsed
  obtain ⟨keyword, operators, behind⟩ :=
    (Begins.word fixity.isIdentifier_text).next rfl rest taken
  rcases Parser.prefixForm_ok formed with
    ⟨literal, rfl⟩ | ⟨spelled, operator, rule, kind, known, holds, applied⟩
  · -- a keyword that were no operator would be a symbol
    rcases keyword with same | ⟨symbol, same, _⟩
    · rw [same] at literal
      cases literal
    · rw [same] at literal
      cases literal
  · obtain rfl : spelled = fixity.text := by
      rcases keyword with same | ⟨symbol, same, _⟩
      · exact TokenKind.operator.inj (kind.symm.trans same)
      · cases kind.symm.trans same
    rw [← operators] at grown
    rcases grown.prefixRule known holds with rfl | ⟨head, power, rfl⟩
    · rw [kept]
      exact Parser.declaration_declares identifier grown behind applied
    · obtain ⟨operand, _, _, applied⟩ := Run.bind_eq_ok applied
      cases applied

/-- If a text that begins like a declaration is a number, its name is declared when it was
parsed. -/
theorem Grammar.parse_declares {grammar : Grammar} (standard : grammar.lexer = .standard)
    (grown : grammar.operators.Grown) (interner : Interner) {fixity : Fixity} {name : String}
    (identifier : isIdentifier name.toList) (power : String) {value : α}
    (accepted : (grammar.parse interner (fixity.declaration name power)).outcome =
      .ok (.number value)) :
    ∃ head power', Declared α (grammar.parse (α := α) interner
      (fixity.declaration name power)).grammar.operators fixity name power.toList head power' := by
  rw [parse_grammar]
  rw [parse_eq_direct] at accepted
  cases ran : grammar.parseDirect (α := α) interner (fixity.declaration name power) with
  | error error after => rw [ran] at accepted; cases accepted
  | ok result after =>
      rw [ran] at accepted
      cases accepted
      obtain ⟨token, before, parsed, read, _⟩ := parseDirect_ok.mp ran
      change ∃ head power', Declared α after.operators fixity name power.toList head power'
      rw [operators_of_next read]
      rw [standard] at parsed
      exact expression_declares grown identifier (fixity.toList_declaration name power) parsed

omit [Scalar α] [Numeral α] in
theorem Climbs.atEnd {p : Power} {left : Bracketing α} : Climbs p (some left) [] left [] :=
  .stop fun _ absurd => by cases absurd

/-- With some operators and in a position, a text spells some words. -/
def Spells (operators : OperatorTable) (position : Position) (text : List Char)
    (words : List (Word α)) : Prop :=
  ∀ state : ParseState, state.operators = operators → state.cursor.rest = text →
    Spelled .standard position state words

namespace Spells

variable {operators : OperatorTable} {text tail : List Char} {words : List (Word α)}
variable {name : String}

theorem atEnd : Spells (α := α) operators .operator [] [] := by
  intro state same rest
  have begins : Begins (α := α) operators .operator [] _ [] := .atEnd
  obtain ⟨r, ahead, ends, _⟩ := begins state same rest
  exact .atEnd ahead ends

theorem literal {value : Expr α} (begins : Begins operators .operand text (· = .literal value) tail)
    (later : Spells operators .operator tail words) :
    Spells operators .operand text (.literal value :: words) := by
  intro state same rest
  obtain ⟨r, ahead, kind, behind⟩ := begins state same rest
  exact .literal ahead kind (later _ same behind)

theorem prefixed {form : PrefixForm} {power : Power}
    (begins : Begins (α := α) operators .operand text (· = .operator name) tail)
    (rule : (operators.find? name).bind (·.prefixRule) = some (form.rule power))
    (later : Spells operators .operand tail words) :
    Spells operators .operand text (.prefixed form power :: words) := by
  rintro state rfl rest
  obtain ⟨r, ahead, kind, behind⟩ := begins state rfl rest
  exact .prefixed ahead kind rule (later _ rfl behind)

theorem infixed {operator : Operator} {form : InfixForm}
    (begins : Begins (α := α) operators .operator text (· = .operator name) tail)
    (known : operators.find? name = some operator) (rule : operator.infixRule = some form.rule)
    (positive : 1 ≤ operator.leftPower) (later : Spells operators .operand tail words) :
    Spells operators .operator text (.infixed form operator.leftPower :: words) := by
  rintro state rfl rest
  obtain ⟨r, ahead, kind, behind⟩ := begins state rfl rest
  exact .infixed ahead kind known rule positive (later _ rfl behind)

end Spells

/-- What climbing makes of all words of a text is the tree of the text. -/
theorem Grammar.parse_of_spells {operators : OperatorTable} {source : String}
    {words : List (Word α)} {tree : Bracketing α}
    (spells : Spells operators .operand source.toList words) (climbed : Climbs 0 none words tree [])
    (interner : Interner) :
    (parse ⟨.standard, operators⟩ interner source).outcome = .ok tree.expr := by
  have spelled := spells (start ⟨.standard, operators⟩ interner source) rfl rfl
  obtain ⟨found, rest, before, climbed', parsed, later, _⟩ :=
    (climbs words.length 0 (Nat.le_refl _)).1 spelled
  obtain ⟨rfl, rfl⟩ := climbed'.unique climbed
  cases later with
  | @atEnd _ r ahead ends =>
      have read := TokenSource.direct_next_ok.mpr ⟨r, ahead, rfl, rfl⟩
      have whole : parseDirect ⟨.standard, operators⟩ interner source =
          .ok found.expr (before.consume r) :=
        parseDirect_ok.mpr ⟨r.token, before, parsed, read, ends⟩
      rw [parse_eq_direct, whole]
      rfl

namespace Grammar

variable {operators : OperatorTable} (grown : operators.Grown) (interner : Interner)
variable {name : String} (identifier : isIdentifier name.toList) {head : Symbol} {power : Power}
variable {a b : DecimalNumeral} (ha : a.Written) (hb : b.Written)

include grown identifier ha

theorem parse_prefixed
    (known : operators.find? name = some (declaredOperator .prefixed head power)) :
    (parse ⟨.standard, operators⟩ interner (name ++ " " ++ a.text)).outcome =
      .ok (.composite head [.number (a.value : α)] .round) := by
  have text : (name ++ " " ++ a.text).toList = name.toList ++ ' ' :: (a.lexeme ++ []) := by
    simp [DecimalNumeral.text, String.toList_append]
  have rule : (operators.find? name).bind (·.prefixRule) =
      some ((PrefixForm.apply head).rule power) := by
    rw [known]
    rfl
  have spells : Spells operators .operand (name.toList ++ ' ' :: (a.lexeme ++ []))
      [.prefixed (.apply head) power, .literal (.number (a.value : α))] :=
    .prefixed (.operator identifier known) rule
      (.literal (.blank grown (.numeral ha .nil)) .atEnd)
  rw [← text] at spells
  exact parse_of_spells spells (.prefixed (.literal .atEnd) .atEnd) interner

include hb

theorem parse_infixed (positive : 0 < power)
    (known : operators.find? name = some (declaredOperator .infixed head power)) :
    (parse ⟨.standard, operators⟩ interner (a.text ++ " " ++ name ++ " " ++ b.text)).outcome =
      .ok (.composite head [.number (a.value : α), .number b.value] .round) := by
  have text : (a.text ++ " " ++ name ++ " " ++ b.text).toList =
      a.lexeme ++ ' ' :: (name.toList ++ ' ' :: (b.lexeme ++ [])) := by
    simp [DecimalNumeral.text, String.toList_append]
  have spells : Spells operators .operand
      (a.lexeme ++ ' ' :: (name.toList ++ ' ' :: (b.lexeme ++ [])))
      [.literal (.number (a.value : α)), .infixed (.apply head) power,
        .literal (.number b.value)] :=
    .literal (.numeral ha (.blank _)) (.infixed (.blank grown (.operator identifier known)) known
      rfl positive (.literal (.blank grown (.numeral hb .nil)) .atEnd))
  rw [← text] at spells
  exact parse_of_spells spells (.literal (.infixed positive (.literal .atEnd) .atEnd)) interner

omit hb in
/-- An operator without power takes no operand, so it is left over. -/
theorem parse_infixed_at_zero
    (known : operators.find? name = some (declaredOperator .infixed head 0)) :
    ∃ location,
      (parse (α := α) ⟨.standard, operators⟩ interner
        (a.text ++ " " ++ name ++ " " ++ b.text)).outcome =
      .error ⟨.unexpectedToken name, location⟩ := by
  let grammar : Grammar := ⟨.standard, operators⟩
  let source := a.text ++ " " ++ name ++ " " ++ b.text
  have text : (grammar.start interner source).cursor.rest =
      a.lexeme ++ ' ' :: (name.toList ++ ' ' :: b.lexeme) := by
    simp [grammar, source, start, Cursor.ofList, DecimalNumeral.text, String.toList_append]
  have first : Begins operators .operand (a.lexeme ++ ' ' :: (name.toList ++ ' ' :: b.lexeme))
      (· = .literal (.number (a.value : α))) _ := .numeral ha (.blank _)
  have second : Begins (α := α) operators .operator _ (· = .operator name) (' ' :: b.lexeme) :=
    .blank grown (.operator identifier known)
  have loose : operators.powerOf (.operator name : TokenKind α) ≤ 0 := by
    change (operators.find? name).elim 0 (·.leftPower) ≤ 0
    rw [known]
    exact Nat.le_refl 0
  obtain ⟨r, r', ahead, kind, parsed⟩ := expression_literal first second text loose
  have read := TokenSource.direct_next_ok.mpr ⟨r', ParseState.ahead_again ahead, rfl, rfl⟩
  have failed : grammar.parseDirect (α := α) interner source = _ :=
    parseDirect_leftover parsed read kind
  refine ⟨r'.token.location, ?_⟩
  rw [parse_eq_direct, failed]
  rfl

end Grammar

omit [Scalar α] [Numeral α] in
theorem Expr.exists_number {outcome : Except ParseError (Expr α)}
    (numeric : (outcome.toOption.bind Expr.number?).isSome) :
    ∃ value, outcome = .ok (.number value) := by
  obtain error | tree := outcome
  · cases numeric
  · cases tree with
    | number value => exact ⟨value, rfl⟩
    | _ => cases numeric

namespace Engine

/-- A declaration that an engine accepts, and that therefore gives a number, makes the name an
operator that calls the function of that name. Before any numeral it is one if it was declared for
there. Between any two it is one if it was declared for there with a positive power. Declared
without power it is left over behind the first of them. -/
theorem declared_operators_apply {engine : Engine α} (reached : engine.Reached) {fixity : Fixity}
    {name : String} (identifier : isIdentifier name.toList) (text : String) {value : α}
    (accepted : (engine.parse (fixity.declaration name text)).1 = .ok (.number value)) :
    let later := (engine.parse (fixity.declaration name text)).2
    let own := (later.interner.intern name).1
    ∃ power, later.grammar.operators.find? name = some (declaredOperator fixity own power) ∧
      (∀ numeral : DecimalNumeral, numeral.Written → text = numeral.text →
        power = Scalar.floorNat (numeral.value : α)) ∧
      (fixity = .prefixed → ∀ a : DecimalNumeral, a.Written →
        (later.parse (name ++ " " ++ a.text)).1 =
          .ok (.composite own [.number a.value] .round)) ∧
      (fixity = .infixed → 0 < power → ∀ a b : DecimalNumeral, a.Written → b.Written →
        (later.parse (a.text ++ " " ++ name ++ " " ++ b.text)).1 =
          .ok (.composite own [.number a.value, .number b.value] .round)) ∧
      (fixity = .infixed → power = 0 → ∀ a b : DecimalNumeral, a.Written → b.Written →
        ∃ location, (later.parse (a.text ++ " " ++ name ++ " " ++ b.text)).1 =
          .error ⟨.unexpectedToken name, location⟩) := by
  intro later own
  obtain ⟨initial, lexer, grown⟩ := reached.standing
  have standing := reached.standing.parse (fixity.declaration name text)
  have owns := (reached.parse (fixity.declaration name text)).owns
  obtain ⟨head, power, declared⟩ :=
    Grammar.parse_declares lexer grown engine.interner identifier text accepted
  have found : later.grammar.operators.find? name = some (declaredOperator fixity own power) := by
    have same : own = head := owns.intern_eq declared.found
    rw [same]
    exact declared.found
  have grammar : later.grammar = ⟨.standard, later.grammar.operators⟩ :=
    congrArg (Grammar.mk · _) standing.lexer
  refine ⟨power, found, ?_, ?_, ?_, ?_⟩
  · rintro numeral written rfl
    exact declared.denotes numeral written String.toList_ofList
  · rintro rfl a ha
    change (later.grammar.parse later.interner _).outcome = _
    rw [grammar]
    exact Grammar.parse_prefixed standing.grown later.interner identifier ha found
  · rintro rfl positive a b ha hb
    change (later.grammar.parse later.interner _).outcome = _
    rw [grammar]
    exact Grammar.parse_infixed standing.grown later.interner identifier ha hb positive found
  · rintro rfl rfl a b ha _
    change ∃ location, (later.grammar.parse later.interner _).outcome = _
    rw [grammar]
    exact Grammar.parse_infixed_at_zero standing.grown later.interner identifier ha found

/-- A keyword that was declared for operands becomes an operator between two, with the greatest
power that there is. -/
theorem declared_operators_apply_to_keyword :
    let engine : Engine Float := (new.run "prefix then 7; then 2").2
    let greatest : DecimalNumeral := ⟨"4294967295".toList, []⟩
    let a : DecimalNumeral := ⟨['2'], ['5']⟩
    let b : DecimalNumeral := ⟨['4'], []⟩
    let later := (engine.parse (Fixity.infixed.declaration "then" greatest.text)).2
    engine.Reached ∧
      (∃ value, (engine.parse (Fixity.infixed.declaration "then" greatest.text)).1 =
        .ok (.number value)) ∧
      (later.parse (a.text ++ " " ++ "then" ++ " " ++ b.text)).1 =
        .ok (.composite (later.interner.intern "then").1 [.number a.value, .number b.value]
          .round) := by
  intro engine greatest a b later
  have reached : engine.Reached := .run _ .new
  obtain ⟨value, accepted⟩ : ∃ value,
      (engine.parse (Fixity.infixed.declaration "then" greatest.text)).1 = .ok (.number value) :=
    Expr.exists_number (by decide +kernel)
  obtain ⟨power, _, denotes, _, between, _⟩ :=
    declared_operators_apply reached (by decide) greatest.text accepted
  have positive : 0 < power := by
    rw [denotes greatest (by decide) rfl]
    decide +kernel
  exact ⟨reached, ⟨value, accepted⟩, between rfl positive a b (by decide) (by decide)⟩

/-- Declared between operands with power zero an operator takes none. -/
theorem declared_operators_apply_not_at_zero :
    let engine : Engine Float := new
    let later := (engine.parse "infix orr 0").2
    ((engine.parse "infix orr 0").1.toOption.bind Expr.number?).any (· == 0) ∧
      (later.parse "1 orr 2").1.toOption.isNone ∧
      (match (later.parse "1 orr 2").1 with
        | .ok _ => none
        | .error error => some error.fault) = some (.unexpectedToken "orr") := by
  decide +kernel

end Engine

end IntervalCalc

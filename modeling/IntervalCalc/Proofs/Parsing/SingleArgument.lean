import IntervalCalc.Proofs.Lexing.Words
import IntervalCalc.Proofs.Parsing.Layout
import IntervalCalc.Proofs.Parsing.Outlasting
import IntervalCalc.Proofs.Parsing.Reads
import IntervalCalc.Proofs.Parsing.Sequence
import IntervalCalc.Scalar.Float

/-!
Calls with one argument. To find out whether a list of arguments is empty, its first word is read as
if an operand had ended, where a number with a sign is none. So the argument is parsed as it is by
itself unless it begins with such a number: then its sign has to be an operator as well.
-/

namespace IntervalCalc

variable {α : Type} [Scalar α] [Numeral α]

omit [Scalar α] [Numeral α] in
/-- Whether a word is an operator that separates what is before it from what is behind it. -/
def OperatorTable.separates (operators : OperatorTable) : TokenKind α → Bool
  | .operator name =>
    (operators.find? name).any fun operator => operator.infixRule.any (·.isSeparator)
  | _ => false

/-- The names of the operators that separate. -/
abbrev OperatorTable.Separators (operators : OperatorTable) (name : String) : Prop :=
  operators.separates (.operator name : TokenKind Unit)

/-- A closing bracket that can be read, and that no comma is taken for. -/
structure OperatorTable.Closes (operators : OperatorTable) (closing : String) : Prop where
  found : operators.find? closing = some .closer
  readable : isReadable closing
  other : closing ≠ ","

section Closing

variable {operators : OperatorTable} {closing : String} {s t : ParseState}

/-- A text by itself, and the same in front of a closing bracket. -/
abbrev BeforeClosing (α : Type) [Scalar α] [Numeral α] (operators : OperatorTable)
    (closing : String) : ParseState → ParseState → Prop :=
  Along α (· = operators) (' ' :: closing.toList) 0

variable (solid : Vocabulary.Solid operators.keys) (closes : operators.Closes closing)

include solid closes

theorem blankLength_closing : blankLength false (' ' :: closing.toList) = 1 := by
  have first : ∀ c ∈ closing.toList.head?, isSolid c := fun c first =>
    solid.each closing (OrderedMap.mem_keys_of_find? closes.found) c (List.mem_of_head? first)
  rw [blankLength, if_pos (by decide), blankLength_of_solid first]

/-- Where the text by itself ends, the bracket comes next. -/
theorem Along.closing_ahead (along : BeforeClosing α operators closing s t) (ends : AtEnd α s) :
    (∃ r : Lexer.Reading α, t.ahead .standard .operator = .ok r ∧
      r.token.kind = .operator closing ∧ r.cursor.rest = [] ∧ r.interner = t.interner) ∧
    ∃ r : Lexer.Reading α, t.ahead .standard .operand = .ok r ∧ r.interner = t.interner := by
  obtain rfl := along.known
  have known := OrderedMap.mem_keys_of_find? closes.found
  rcases along.ahead_end (breaks_blank _) (solid.apart _) ends with ⟨absurd, _⟩ | behind
  · exact absurd.elim rfl
  have place (position : Position) : ∃ later : Cursor, later.rest = closing.toList ++ [] ∧
      t.ahead (α := α) .standard position =
        Lexer.standard.next position s.operators.keys s.interner later := by
    obtain ⟨later, front | front, same⟩ := behind position
    · refine ⟨later.advance 1, ?_, same.trans ?_⟩
      · rw [Cursor.rest_advance, front, List.append_nil]
        rfl
      · exact Lexer.next_isBlank_unspaced solid.unspaced (by decide) front
    · refine ⟨later, ?_, same⟩
      rw [front, blankLength_closing solid closes, List.append_nil]
      rfl
  obtain ⟨later, text, same⟩ := place .operator
  obtain ⟨later', text', same'⟩ := place .operand
  constructor
  · refine ⟨_, same.trans (Lexer.next_readable solid known closes.readable .nil text), rfl, ?_,
      along.interner⟩
    change (later.advance _).rest = []
    rw [Cursor.rest_advance, text, List.append_nil, List.drop_length]
  · obtain ⟨r, read, known⟩ :=
      @Lexer.next_readable_operand α _ _ _ s.interner _ solid _ known closes.readable _ .nil text'
    exact ⟨r, same'.trans read, known.trans along.interner⟩

/-- A closing bracket ends what is before it. -/
theorem closing_addition : Addition α (· = operators) False operators.Separators
    (' ' :: closing.toList) 0 where
  breaks := breaks_blank _
  apart known := known ▸ solid.apart _
  declare := False.elim
  separator known found holds separator := by
    rw [OperatorTable.Separators, OperatorTable.separates, ← known, found]
    exact (congrArg (Option.any _) holds).trans separator
  reads along ends position := by
    obtain ⟨⟨r, read, _, _, known⟩, operand⟩ := along.closing_ahead solid closes ends
    cases position with
    | operand => exact operand
    | operator => exact ⟨r, read, known⟩
  stops {s t} along ends := by
    intro steps _ power left
    obtain ⟨⟨r, read, spelled, _, known⟩, _⟩ := along.closing_ahead solid closes ends
    have loose : t.operators.powerOf r.token.kind ≤ power := by
      rw [spelled, ← along.operators, along.known, OperatorTable.powerOf, closes.found]
      exact Nat.zero_le power
    refine ⟨t, ?_, along⟩
    rw [Parser.extend_of_loose read loose, known]

/-- An expression in front of a closing bracket. -/
theorem expression_before_closing {s s' : ParseState × Log α} {n : Nat} {argument : Expr α}
    (along : BeforeClosing α operators closing s.1 t)
    (ran : Parser.expression (noted α) n 0 s = .ok argument s')
    (lasting : Lasting False operators.Separators s') :
    ∃ t', Direct.expression .standard 0 t = .ok argument t' ∧
      BeforeClosing α operators closing s'.1 t' := by
  have outlasted := (closing_addition (α := α) solid closes).outlasted
  have both := outlasted.expression_and_extend (Nat.zero_le (Parser.stepsFor t.cursor.rest)) n
  obtain ⟨_, t', followed, rfl, along'⟩ := (both.1 0).follows along ran lasting
  rw [Direct.expression_steps (Nat.le_add_right _ n)] at followed
  exact ⟨t', followed, along'⟩

end Closing

section Opening

variable {operators : OperatorTable} {closing : String} {t t' : ParseState} {argument : Expr α}

/-- What an expression begins with is no operator without a prefix rule. -/
theorem Direct.expression_begins {power : Power}
    (ran : Direct.expression .standard power t = .ok argument t') :
    ∃ r : Lexer.Reading α, t.ahead .standard .operand = .ok r ∧ r.token.kind ≠ .endOfInput ∧
      ∀ name operator, r.token.kind = .operator name → t.operators.find? name = some operator →
        operator.prefixRule ≠ none := by
  rw [expression_eq] at ran
  obtain ⟨token, middle, first, rest⟩ := Run.bind_eq_ok ran
  obtain ⟨left, between, formed, _⟩ := Run.bind_eq_ok rest
  obtain ⟨r, read, rfl, rfl⟩ := TokenSource.direct_next_ok.mp first
  refine ⟨r, read, ?_, ?_⟩
  · intro ends
    rw [Parser.prefixForm_end ends] at formed
    exact Parser.unexpected_ne_ok formed
  · intro name operator spelled found none
    rcases Parser.prefixForm_ok formed with ⟨literal, _⟩ | ⟨_, _, _, same, known, holds, _⟩
    · cases spelled.symm.trans literal
    · cases spelled.symm.trans same
      cases found.symm.trans known
      cases none.symm.trans holds

variable (closes : operators.Closes closing)

include closes

/-- Behind an expression, a closing bracket ends the list of arguments. -/
theorem arguments_single {r : Lexer.Reading α}
    (ran : Direct.expression .standard 0 t = .ok argument t')
    (read : t'.ahead .standard .operator = .ok r) (spelled : r.token.kind = .operator closing)
    (same : r.interner = t'.interner) :
    Direct.arguments .standard closing t = .ok [argument] (t'.consume r) := by
  have here : { t' with interner := r.interner } = t' := by rw [same]
  have noComma : Parser.skipIf (plain α) "," t' = .ok false t' := by
    have differs : Parser.isOperator r.token "," = false := by
      rw [Bool.eq_false_iff]
      intro comma
      cases spelled.symm.trans (Parser.isOperator_iff.mp comma)
      exact closes.other rfl
    rw [Parser.skipIf, Run.bind_ok (TokenSource.direct_peek_ok.mpr ⟨r, read, rfl, rfl⟩), differs,
      here]
    rfl
  have closed : Parser.expect (plain α) closing t' = .ok () (t'.consume r) := by
    rw [Parser.expect, Run.bind_ok (TokenSource.direct_next_ok.mpr ⟨r, read, rfl, rfl⟩),
      if_pos (Parser.isOperator_iff.mpr spelled)]
    rfl
  rw [Direct.arguments_eq, Run.bind_ok ran, Run.bind_ok noComma]
  exact Run.bind_ok closed

omit closes in
theorem ParseState.ahead_behind_blank {u : ParseState} (solid : Vocabulary.Solid u.operators.keys)
    {rest : List Char} (text : u.cursor.rest = ' ' :: rest) (position : Position) :
    u.ahead (α := α) .standard position = u.skip.ahead .standard position :=
  Lexer.next_isBlank_unspaced solid.unspaced (by decide) text

section First

variable {u : ParseState} (solid : Vocabulary.Solid operators.keys)
variable (known : u.operators = operators) {source tail : List Char}
variable (text : u.cursor.rest = ' ' :: (source ++ ' ' :: tail))

include solid known text

/-- The first word of an argument, read to find out whether there is one, is no closing bracket,
and the argument is read as if the word had not been looked at. -/
theorem argument_ahead (ran : Direct.expression .standard 0 u.skip = .ok argument t')
    (nonempty : front source ≠ [])
    (signs : isSigned (front source) → ∃ sign,
      Vocabulary.longestSymbol? operators.keys (front source) = some sign ∧ sign ≠ closing) :
    ∃ r : Lexer.Reading α, u.ahead .standard .operator = .ok r ∧
      r.token.kind ≠ .operator closing ∧
      Direct.expression .standard 0 { u with interner := r.interner } = .ok argument t' := by
  subst known
  have later (position : Position) := @ParseState.ahead_behind_blank α _ _ u solid _ text position
  have rest : front u.skip.cursor.rest = front source ++ ' ' :: tail := by
    rw [← front_append nonempty]
    change front (u.cursor.advance 1).rest = _
    rw [Cursor.rest_advance, text]
    rfl
  obtain ⟨r, read, more, begins⟩ := Direct.expression_begins ran
  cases signed : isSigned (front source) with
  | false =>
      have unsigned : isSigned (front u.skip.cursor.rest) = false := by
        rw [rest, isSigned_append_blank, signed]
      have read' := Lexer.next_of_unsigned solid.unspaced unsigned read
      refine ⟨r, (later .operator).trans read', ?_, ?_⟩
      · intro spelled
        exact begins closing .closer spelled closes.found rfl
      · rw [← ran]
        have again := ParseState.ahead_again ((later .operand).trans read)
        refine Direct.expression_congr ?_ again read 0
        rfl
  | true =>
      obtain ⟨name, longest, other⟩ := signs signed
      rw [← Vocabulary.longestSymbol?_append (solid.apart tail) nonempty] at longest
      rw [← isSigned_append_blank _ tail] at signed
      obtain ⟨sign, more, split⟩ :=
        List.exists_cons_of_ne_nil (List.append_ne_nil_of_left_ne_nil nonempty _)
      rw [split] at rest longest signed
      obtain ⟨r', read', spelled, same⟩ :=
        @Lexer.next_of_signed α _ _ _ u.interner _ solid.unspaced _ _ rest signed _ longest
      refine ⟨r', (later .operator).trans read', ?_, ?_⟩
      · intro closed
        cases spelled.symm.trans closed
        exact other rfl
      · rw [same, ← ran]
        refine Direct.expression_congr ?_ ((later .operand).trans read) read 0
        rfl

end First

/-- A call of a symbol with one argument. -/
theorem applyInfix_single {u : ParseState} {looked r : Lexer.Reading α} {head : Symbol}
    {bracket : Bracket} (seen : u.ahead .standard .operator = .ok looked)
    (other : looked.token.kind ≠ .operator closing)
    (ran : Direct.expression .standard 0 { u with interner := looked.interner } = .ok argument t')
    (read : t'.ahead .standard .operator = .ok r) (spelled : r.token.kind = .operator closing)
    (same : r.interner = t'.interner) (location : Location) (power : Power) :
    Parser.applyInfix (plain α) (Direct.arguments .standard) (Direct.expression .standard) location
      power (.symbol head) (.composite closing bracket) u =
        .ok (.composite head [argument] bracket) (t'.consume r) := by
  have notEmpty : Parser.skipIf (plain α) closing u =
      .ok false { u with interner := looked.interner } := by
    have differs : Parser.isOperator looked.token closing = false := by
      rw [Bool.eq_false_iff]
      exact fun closed => other (Parser.isOperator_iff.mp closed)
    rw [Parser.skipIf, Run.bind_ok (TokenSource.direct_peek_ok.mpr ⟨looked, seen, rfl, rfl⟩),
      differs]
    rfl
  rw [Parser.applyInfix]
  exact (Run.bind_ok notEmpty).trans
    (Run.bind_ok (arguments_single closes ran read spelled same))

omit closes in
theorem applyInfix_unread {u : ParseState} {error : SyntaxError}
    (seen : u.ahead (α := α) .standard .operator = .error error) (location : Location)
    (power : Power) (head : Symbol) (bracket : Bracket) :
    Parser.applyInfix (plain α) (Direct.arguments .standard) (Direct.expression .standard) location
      power (.symbol head) (.composite closing bracket) u = .error error u := by
  have unread : Parser.skipIf (plain α) closing u = .error error u :=
    Run.bind_error (TokenSource.direct_peek_error seen)
  rw [Parser.applyInfix]
  exact Run.bind_error unread

omit closes in
/-- A symbol with an opening bracket behind it is called. -/
theorem Direct.expression_call {t : ParseState} {named opened : Lexer.Reading α} {head : Symbol}
    {opening : String} {operator : Operator} {bracket : Bracket} {power : Power}
    (first : t.ahead .standard .operand = .ok named)
    (symbol : named.token.kind = .literal (.symbol head))
    (second : (t.consume named).ahead .standard .operator = .ok opened)
    (spelled : opened.token.kind = .operator opening)
    (found : t.operators.find? opening = some operator)
    (composite : operator.infixRule = some (.composite closing bracket))
    (tight : power < operator.leftPower) :
    Direct.expression .standard power t = (do
      let left ← Parser.applyInfix (plain α) (arguments .standard) (expression .standard)
        opened.token.location operator.leftPower (.symbol head) (.composite closing bracket)
      Direct.extend .standard power left) ((t.consume named).consume opened) := by
  have holds : power < (t.consume named).operators.powerOf opened.token.kind := by
    change power < t.operators.powerOf _
    rw [spelled, OperatorTable.powerOf, found]
    exact tight
  rw [expression_eq, Run.bind_ok (TokenSource.direct_next_ok.mpr ⟨named, first, rfl, rfl⟩),
    Run.bind_ok (Parser.prefixForm_literal symbol), extend_of_tight second holds]
  exact Run.bind_congr (Parser.infixForm_known spelled found composite _)

end Opening

namespace Grammar

/-- A call as it is written with blanks. -/
def callText (name opening source closing : String) : String :=
  name ++ " " ++ opening ++ " " ++ source ++ " " ++ closing

variable {grammar : Grammar} {interner : Interner} {name opening source closing : String}
variable {operator : Operator} {bracket : Bracket} {argument : Expr α}

/-- What a call with one argument asks of a grammar: brackets that can be read, a name that is no
operator, and no operator that is empty or has blanks in it. -/
structure Calls (grammar : Grammar) (name opening closing : String) (operator : Operator)
    (bracket : Bracket) : Prop where
  standard : grammar.lexer = .standard
  solid : Vocabulary.Solid grammar.operators.keys
  identifier : isIdentifier name.toList
  unknown : name ∉ grammar.operators.keys
  found : grammar.operators.find? opening = some operator
  composite : operator.infixRule = some (.composite closing bracket)
  positive : 1 ≤ operator.leftPower
  readable : isReadable opening
  closes : grammar.operators.Closes closing

/-- The state behind the opening bracket. -/
def insideCall (grammar : Grammar) (interner : Interner) (name opening source closing : String) :
    ParseState :=
  ⟨grammar.operators, (interner.intern name).2,
    (Cursor.ofList (callText name opening source closing).toList).advance
      (name.toList.length + 1 + opening.toList.length)⟩

theorem toList_callText (name opening source closing : String) :
    (callText name opening source closing).toList = name.toList ++ ' ' :: (opening.toList ++
      ' ' :: (source.toList ++ ' ' :: closing.toList)) := by
  simp [callText]

theorem rest_insideCall : (grammar.insideCall interner name opening source closing).cursor.rest =
    ' ' :: (source.toList ++ ' ' :: closing.toList) := by
  unfold insideCall
  dsimp only
  rw [Cursor.rest_advance, Cursor.ofList, toList_callText, ← List.drop_drop, ← List.drop_drop,
    List.drop_left]
  exact List.drop_left

theorem skip_insideCall :
    (grammar.insideCall interner name opening source closing).skip.cursor.rest =
      source.toList ++ ' ' :: closing.toList := by
  change Cursor.rest (Cursor.advance _ 1) = _
  rw [Cursor.rest_advance, rest_insideCall]
  rfl

theorem location_insideCall (nonempty : front source.toList ≠ []) :
    let inside := (grammar.insideCall interner name opening source closing).skip.cursor
    (inside.advance (blankLength false inside.rest)).location =
      ((name ++ " " ++ opening ++ " ").toList ++
        source.toList.take (blankLength false source.toList)).foldl Location.after .start := by
  have within := blankLength_lt nonempty
  intro inside
  have same : blankLength false inside.rest = blankLength false source.toList := by
    rw [skip_insideCall, blankLength_append false within]
  rw [same]
  change Cursor.location (Cursor.advance (Cursor.advance (Cursor.advance _ _) 1) _) = _
  rw [Cursor.advance_advance, Cursor.advance_advance, Cursor.location_advance]
  have passed : name.toList.length + 1 + opening.toList.length + 1 =
      (name ++ " " ++ opening ++ " ").toList.length := by
    simp
    omega
  have whole : (callText name opening source closing).toList =
      (name ++ " " ++ opening ++ " ").toList ++ (source.toList ++ ' ' :: closing.toList) := by
    simp [callText]
  rw [← Nat.add_assoc, passed, Cursor.ofList, whole, List.take_length_add_append,
    List.take_append_of_le_length (Nat.le_of_lt within)]

/-- The call goes on behind its opening bracket. -/
theorem Calls.expression_eq (calls : grammar.Calls name opening closing operator bracket)
    (interner : Interner) (source : String) : ∃ location,
      Direct.expression .standard 0
          (grammar.start interner (callText name opening source closing)) =
        (do
          let left ← Parser.applyInfix (plain α) (Direct.arguments .standard)
            (Direct.expression .standard) location operator.leftPower
            (.symbol (interner.intern name).1) (.composite closing bracket)
          Direct.extend .standard 0 left)
        (grammar.insideCall interner name opening source closing) := by
  let cursor := Cursor.ofList (callText name opening source closing).toList
  let more := source.toList ++ ' ' :: closing.toList
  have text : cursor.rest = name.toList ++ ' ' :: (opening.toList ++ ' ' :: more) :=
    toList_callText name opening source closing
  have blank : (cursor.advance name.toList.length).rest =
      ' ' :: (opening.toList ++ ' ' :: more) := by
    rw [Cursor.rest_advance, text, List.drop_left]
  have bracket : ((cursor.advance name.toList.length).advance 1).rest =
      opening.toList ++ ' ' :: more := by
    rw [Cursor.rest_advance, blank]
    rfl
  have named : ParseState.ahead (α := α) .standard .operand ⟨grammar.operators, interner, cursor⟩ =
      .ok ⟨⟨.literal (.symbol (interner.intern name).1), cursor.location⟩,
        cursor.advance name.toList.length, (interner.intern name).2⟩ :=
    Lexer.next_name calls.identifier (.blank _) text (by simp)
      fun known => calls.unknown (List.contains_iff_mem.mp known)
  have opened : ParseState.ahead (α := α) .standard .operator
      ⟨grammar.operators, (interner.intern name).2, cursor.advance name.toList.length⟩ = _ :=
    (Lexer.next_isBlank_unspaced calls.solid.unspaced (by decide) blank).trans
      (Lexer.next_readable calls.solid (OrderedMap.mem_keys_of_find? calls.found) calls.readable
        (.blank _) bracket)
  have inside : grammar.insideCall interner name opening source closing =
      ⟨grammar.operators, (interner.intern name).2,
        ((cursor.advance name.toList.length).advance 1).advance opening.toList.length⟩ := by
    rw [Cursor.advance_advance, Cursor.advance_advance, ← Nat.add_assoc]
    rfl
  have call :=
    Direct.expression_call named rfl opened rfl calls.found calls.composite calls.positive
  unfold ParseState.consume at call
  rw [← inside] at call
  exact ⟨_, call⟩

section Argument

variable (calls : grammar.Calls name opening closing operator bracket)

include calls

/-- A call whose argument is read inside the brackets. -/
theorem Calls.parse_of_argument {t : ParseState} {r : Lexer.Reading α}
    (ran : Direct.expression .standard 0
      (grammar.insideCall interner name opening source closing).skip = .ok argument t)
    (nonempty : front source.toList ≠ [])
    (signs : isSigned (front source.toList) → ∃ sign,
      Vocabulary.longestSymbol? grammar.operators.keys (front source.toList) = some sign ∧
        sign ≠ closing)
    (read : t.ahead .standard .operator = .ok r) (spelled : r.token.kind = .operator closing)
    (finished : r.cursor.rest = []) (same : r.interner = t.interner) :
    grammar.parse interner (callText name opening source closing) =
      ⟨.ok (.composite (interner.intern name).1 [argument] bracket), ⟨grammar.lexer, t.operators⟩,
        t.interner⟩ := by
  obtain ⟨looked, seen, other, again⟩ :=
    argument_ahead calls.closes calls.solid rfl rest_insideCall ran nonempty signs
  obtain ⟨location, whole⟩ := calls.expression_eq (α := α) interner source
  rw [Run.bind_ok
    (applyInfix_single calls.closes seen other again read spelled same _ _)] at whole
  have last : (t.consume r).ahead .standard .operator =
      .ok (Lexer.endReading (α := α) r.interner r.cursor) := (Lexer.Lexes.atEnd finished).next
  rw [Direct.extend_of_loose last (Nat.zero_le 0)] at whole
  have program : grammar.parseDirect interner (callText name opening source closing) =
      .ok (.composite (interner.intern name).1 [argument] bracket)
        ((t.consume r).consume (Lexer.endReading (α := α) r.interner r.cursor)) := by
    refine parseDirect_ok.mpr ?_
    rw [calls.standard]
    exact ⟨_, _, whole, TokenSource.direct_next_ok.mpr ⟨_, last, rfl, rfl⟩, rfl⟩
  rw [parse_eq_direct, program, ← same]
  rfl

/-- A call whose argument begins with a number that has a sign, where no operator begins with it. -/
theorem Calls.parse_of_lone_sign {sign : Char} {rest : List Char}
    (text : front source.toList = sign :: rest) (signed : isSigned (sign :: rest))
    (lone : Vocabulary.longestSymbol? grammar.operators.keys (front source.toList) = none) :
    (grammar.parse (α := α) interner (callText name opening source closing)).outcome =
      .error ⟨.unexpectedCharacter sign,
        ((name ++ " " ++ opening ++ " ").toList ++
          source.toList.take (blankLength false source.toList)).foldl Location.after .start⟩ := by
  let u := grammar.insideCall interner name opening source closing
  have nonempty : front source.toList ≠ [] := by
    rw [text]
    exact List.cons_ne_nil _ _
  have ahead : front u.skip.cursor.rest = sign :: (rest ++ ' ' :: closing.toList) := by
    rw [skip_insideCall, front_append nonempty, text]
    rfl
  have none : Vocabulary.longestSymbol? u.operators.keys (sign :: (rest ++ ' ' :: closing.toList)) =
      none := by
    rw [← List.cons_append, ← text]
    exact (Vocabulary.longestSymbol?_append (calls.solid.apart _) nonempty).trans lone
  have failed := @Lexer.next_of_lone_sign α _ _ _ u.interner _ calls.solid.unspaced _ _ ahead
    ((isSigned_append_blank (sign :: rest) _).trans signed) none
  rw [location_insideCall nonempty] at failed
  have seen := (u.ahead_behind_blank calls.solid rest_insideCall .operator).trans failed
  obtain ⟨location, whole⟩ := calls.expression_eq (α := α) interner source
  rw [Run.bind_error (applyInfix_unread seen _ _ _ _)] at whole
  rw [parse_eq_direct, parseDirect_eq, calls.standard, Run.bind_error whole]
  rfl

end Argument

/-- A call with one argument parses to the call of its name with the tree that the argument parses
to by itself, and leaves the same names. The argument declares nothing, does not end with a
separator or inside a comment, and if it begins with a number that has a sign, then some operator
begins with the sign as well, other than the closing bracket. If no operator does, the call is an
error at the sign. -/
theorem parse_single_argument (calls : grammar.Calls name opening closing operator bracket)
    (accepted : (grammar.parse (interner.intern name).2 source).outcome = .ok argument)
    (nothing : (grammar.history α (interner.intern name).2 source).DeclaresNothing)
    (last : (grammar.history α (interner.intern name).2 source).words.getLast?.any
      grammar.operators.separates = false)
    (outside : ¬ EndsInComment source.toList) :
    let text := front source.toList
    let call := callText name opening source closing
    ((isSigned text → ∃ sign, Vocabulary.longestSymbol? grammar.operators.keys text = some sign ∧
        sign ≠ closing) →
      grammar.parse interner call = { grammar.parse (α := α) (interner.intern name).2 source with
        outcome := .ok (.composite (interner.intern name).1 [argument] bracket) }) ∧
    ∀ sign rest, text = sign :: rest → isSigned text →
      Vocabulary.longestSymbol? grammar.operators.keys text = none →
        (grammar.parse (α := α) interner call).outcome = .error ⟨.unexpectedCharacter sign,
          ((name ++ " " ++ opening ++ " ").toList ++
            source.toList.take (blankLength false source.toList)).foldl Location.after .start⟩ := by
  intro text call
  constructor
  · intro signs
    obtain ⟨s, ran, ends, same, words, begins⟩ := parse_ok calls.standard accepted
    have lasting : Lasting False grammar.operators.Separators s := by
      refine ⟨.inr (nothing.of_prefix begins), ?_⟩
      rintro ⟨_, word, separates, spent⟩
      rw [words, spent] at last
      exact absurd separates (Bool.eq_false_iff.mp last)
    have along : BeforeClosing α grammar.operators closing
        (grammar.start (interner.intern name).2 source)
        (grammar.insideCall interner name opening source closing).skip :=
      ⟨rfl, rfl, rfl, .inl ⟨skip_insideCall, outside⟩⟩
    obtain ⟨_, first, _, _, _, _, read, more, _⟩ := expression_ok ran
    have nonempty := Lexer.front_ne_nil (α := α) calls.solid.unspaced read more
    obtain ⟨t, followed, along'⟩ := @expression_before_closing α _ _ _ _ _ calls.solid calls.closes
      (grammar.start (interner.intern name).2 source, []) _ _ _ along ran lasting
    obtain ⟨⟨r, closed, spelled, finished, known⟩, _⟩ :=
      along'.closing_ahead calls.solid calls.closes ends
    rw [calls.parse_of_argument followed nonempty signs closed spelled finished known, same,
      calls.standard, along'.operators, along'.interner]
  · intro sign rest front signed lone
    exact calls.parse_of_lone_sign front (front ▸ signed) lone

/-- In the standard grammar a sign is an operator, so an argument may begin with a number that has
one. -/
theorem parse_single_argument_of_signed :
    let source := "-1 + x"
    let interner : Interner := (Interner.empty.intern "f").2
    ∃ argument : Expr Float, (standard.parse interner source).outcome = .ok argument ∧
      standard.parse .empty (callText "f" "(" source ")") =
        { standard.parse (α := Float) interner source with
          outcome := .ok (.composite (Interner.empty.intern "f").1 [argument] .round) } := by
  intro source interner
  have accepted : (standard.parse (α := Float) interner source).outcome.isOk = true := by
    decide +kernel
  have calls : standard.Calls "f" "(" ")"
      ((Operator.infixed 200 (.composite ")" .round)).withPrefix (.group ")")) .round :=
    ⟨rfl, by decide +kernel, by decide +kernel, by decide +kernel, rfl, rfl, by decide,
      by decide +kernel, ⟨rfl, by decide +kernel, by decide⟩⟩
  obtain ⟨argument, parsed⟩ := exists_of_isOk accepted
  have nothing : (standard.history Float interner source).DeclaresNothing := by decide +kernel
  have last : (standard.history Float interner source).words.getLast?.any
      standard.operators.separates = false := by decide +kernel
  have outside : ¬ EndsInComment source.toList := by decide
  obtain ⟨holds, _⟩ := @parse_single_argument Float _ _ standard .empty "f" "(" source ")" _ _ _
    calls parsed nothing last outside
  exact ⟨argument, parsed, holds fun _ => ⟨"-", by decide +kernel, by decide⟩⟩

/-- Where no operator begins with the sign of a number, the number is an operand by itself but no
argument. -/
theorem parse_single_argument_not_of_lone_sign :
    let brackets : OperatorTable :=
      ⟨[("(", .infixed 200 (.composite ")" .round)), (")", .closer)]⟩
    let grammar : Grammar := ⟨.standard, brackets⟩
    let interner : Interner := (Interner.empty.intern "f").2
    grammar.Calls "f" "(" ")" (.infixed 200 (.composite ")" .round)) .round ∧
      (grammar.parse (α := Float) interner "-1").outcome.isOk ∧
      (grammar.history Float interner "-1").DeclaresNothing ∧
      (grammar.history Float interner "-1").words.getLast?.any brackets.separates = false ∧
      ¬ EndsInComment "-1".toList ∧
      (match (grammar.parse (α := Float) .empty (callText "f" "(" "-1" ")")).outcome with
        | .ok _ => none
        | .error error => some error) = some ⟨.unexpectedCharacter '-', ⟨4, 1, 5⟩⟩ := by
  intro brackets grammar interner
  have calls : grammar.Calls "f" "(" ")" (.infixed 200 (.composite ")" .round)) .round :=
    ⟨rfl, by decide +kernel, by decide +kernel, by decide +kernel, rfl, rfl, by decide,
      by decide +kernel, ⟨rfl, by decide +kernel, by decide⟩⟩
  refine ⟨calls, ?_, ?_, ?_, ?_, ?_⟩
  · decide +kernel
  · decide +kernel
  · decide +kernel
  · decide +kernel
  · decide +kernel

end Grammar

end IntervalCalc

import IntervalCalc.Proofs.Parsing.History
import IntervalCalc.Proofs.Parsing.Reads
import IntervalCalc.Scalar.Float

/-!
Printed expressions. The text of an expression is read back as that expression, wherever it stands:
operations are printed in brackets, and what has none ends in a word or a bracket of its own.
-/

namespace IntervalCalc

variable {α : Type} [Scalar α] [Numeral α] {interner : Interner} {tail : List Char}

/-- The text of the number is a numeral, with a minus or without, that denotes it. -/
def Numeral.Legible (x : α) : Prop :=
  ∃ (negative : Bool) (numeral : DecimalNumeral), numeral.Written ∧
    (Numeral.text x).toList = (if negative then '-' :: numeral.lexeme else numeral.lexeme) ∧
    x = if negative then -numeral.value else numeral.value

/-- A name of the language that is no operator, with the handle that it has. -/
structure Symbol.Plain (interner : Interner) (symbol : Symbol) : Prop where
  identifier : isIdentifier symbol.name.toList
  free : symbol.name ∉ OperatorTable.standard.keys
  known : interner.lookup symbol.name = some symbol

/-- The characters that a printed operand may have behind it. -/
def boundaries : List Char :=
  [' ', ',', ')', ']', '\x7d']

/-- What may stand behind an operand. -/
def Boundary (tail : List Char) : Prop :=
  ∀ c ∈ tail.head?, c ∈ boundaries

theorem Boundary.cons {c : Char} (closes : c ∈ boundaries) (tail : List Char) :
    Boundary (c :: tail) := by
  intro d first
  cases first
  exact closes

theorem Boundary.delimited (boundary : Boundary tail) : Delimited tail := by
  have among : boundaries.all delimiters.contains := by decide
  exact fun c first =>
    List.contains_iff_mem.mp (List.all_eq_true.mp among c (boundary c first))

theorem Boundary.not_curly (boundary : Boundary tail) : tail.head? ≠ some '\x7b' :=
  fun first => absurd (boundary _ first) (by decide)

theorem UnaryOp.standard_rule {op : UnaryOp} (printed : op ≠ .factorial) : ∃ power, power < 200 ∧
    (OperatorTable.standard.find? op.text).bind (·.prefixRule) = some (.unary op power) := by
  cases op
  case factorial => exact absurd rfl printed
  all_goals exact ⟨_, by decide, rfl⟩

theorem BinaryOp.standard_rule (op : BinaryOp) : ∃ operator rightAssociative,
    OperatorTable.standard.find? op.text = some operator ∧
      operator.infixRule = some (.binary op rightAssociative) ∧ 0 < operator.leftPower ∧
      Parser.rightPower operator.leftPower rightAssociative < 200 := by
  cases op <;> exact ⟨_, _, rfl, rfl, by decide, by decide⟩

theorem Bracket.standard_rule (bracket : Bracket) : ∃ operator,
    OperatorTable.standard.find? bracket.opening = some operator ∧
      operator.infixRule = some (.composite bracket.closing bracket) ∧
      operator.leftPower = 200 := by
  cases bracket <;> exact ⟨_, rfl, rfl, rfl⟩

theorem Bracket.mem_closing (bracket : Bracket) : bracket.closing ∈ [")", "]", "\x7d"] := by
  cases bracket <;> decide

theorem Bracket.closes (bracket : Bracket) :
    (OperatorTable.standard.find? bracket.closing).elim 0 (·.leftPower) = 0 := by
  cases bracket <;> rfl

theorem OperatorTable.standard_group :
    (standard.find? "(").bind (·.prefixRule) = some (.group ")") :=
  rfl

theorem OperatorTable.standard_branch :
    (standard.find? "if").bind (·.prefixRule) = some .branch :=
  rfl

theorem OperatorTable.standard_function :
    (standard.find? "fun").bind (·.prefixRule) = some .function :=
  rfl

/-- A text begins with a word that ends nothing. -/
def Starts (α : Type) [Scalar α] [Numeral α] (interner : Interner) (position : Position)
    (text : List Char) : Prop :=
  ∃ (kind : TokenKind α) (tail : List Char), Reads interner position text kind tail ∧
    kind ≠ .endOfInput ∧ ∀ bracket : Bracket, kind ≠ .operator bracket.closing

namespace Starts

variable {position : Position} {text : List Char}

theorem literal {value : Expr α} (reads : Reads interner position text (.literal value) tail) :
    Starts α interner position text :=
  ⟨_, tail, reads, by simp, by simp⟩

theorem operator {name : String}
    (reads : Reads (α := α) interner position text (.operator name) tail)
    (inside : name ∉ [")", "]", "\x7d"]) : Starts α interner position text := by
  refine ⟨_, tail, reads, by simp, fun bracket same => inside ?_⟩
  cases same
  exact bracket.mem_closing

end Starts

namespace Reads

variable {position : Position}

theorem symbol {symbol : Symbol} (plain : symbol.Plain interner) (delimited : Delimited tail)
    (curly : symbol.name = "I" → tail.head? ≠ some '\x7b') :
    Reads (α := α) interner position (symbol.name.toList ++ tail) (.literal (.symbol symbol))
      tail := by
  have free : ¬ OperatorTable.standard.keys.contains symbol.name := by
    rw [List.contains_iff_mem]
    exact plain.free
  exact of_next List.drop_left fun cursor text =>
    Lexer.next_symbol plain.identifier delimited text curly free plain.known

theorem keyword {name : String} (identifier : isIdentifier name.toList)
    (known : name ∈ OperatorTable.standard.keys) (delimited : Delimited tail) :
    Reads (α := α) interner position (name.toList ++ tail) (.operator name) tail := by
  have contained : OperatorTable.standard.keys.contains name :=
    List.contains_iff_mem.mpr known
  refine of_next List.drop_left fun cursor text =>
    Lexer.next_keyword identifier delimited text ?_ contained
  rintro rfl
  exact absurd known (by decide)

theorem unary (op : UnaryOp) : Reads (α := α) interner .operand (op.text.toList ++ ' ' :: tail)
    (.operator op.text) (' ' :: tail) := by
  refine of_next List.drop_left fun cursor text => ?_
  cases op <;>
    exact Lexer.next_operator text (by decide) (by rw [text]; rfl)
      (by unfold Recognizer.scanNumber; rw [text]; rfl)

theorem binary (op : BinaryOp) : Reads (α := α) interner .operator (op.text.toList ++ ' ' :: tail)
    (.operator op.text) (' ' :: tail) := by
  refine of_next List.drop_left fun cursor text => ?_
  cases op <;>
    exact Lexer.next_operator text (by decide) (by rw [text]; rfl)
      (by unfold Recognizer.scanNumber; rw [text]; rfl)

theorem opening (bracket : Bracket) : Reads (α := α) interner position
    (bracket.opening.toList ++ tail) (.operator bracket.opening) tail := by
  refine of_next List.drop_left fun cursor text => ?_
  cases bracket <;> cases position <;>
    exact Lexer.next_operator text (by decide) (by rw [text]; rfl)
      (by unfold Recognizer.scanNumber; rw [text]; rfl)

theorem closing (bracket : Bracket) : Reads (α := α) interner .operator
    (bracket.closing.toList ++ tail) (.operator bracket.closing) tail := by
  refine of_next List.drop_left fun cursor text => ?_
  cases bracket <;>
    exact Lexer.next_operator text (by decide) (by rw [text]; rfl)
      (by unfold Recognizer.scanNumber; rw [text]; rfl)

theorem comma : Reads (α := α) interner .operator (',' :: tail) (.operator ",") tail := by
  refine of_next (n := 1) rfl fun cursor text => ?_
  exact Lexer.next_operator text (by decide) (by rw [text]; rfl)
    (by unfold Recognizer.scanNumber; rw [text]; rfl)

variable {numeral : DecimalNumeral} (written : numeral.Written) (delimited : Delimited tail)

include written

/-- Where no operand may begin, a minus is an operator also before a digit. -/
theorem minus : Reads (α := α) interner .operator ('-' :: (numeral.lexeme ++ tail))
    (.operator "-") (numeral.lexeme ++ tail) := by
  obtain ⟨c, rest, lexeme, digit⟩ := written.first
  have longest : ∀ c ∈ decimalDigits, ∀ rest,
      Vocabulary.longestSymbol? OperatorTable.standard.keys ('-' :: c :: rest) = some "-" := by
    simp only [decimalDigits, List.forall_mem_cons, List.not_mem_nil, false_imp_iff, implies_true,
      and_true]
    repeat' apply And.intro
    all_goals exact fun rest => rfl
  refine of_next (n := 1) rfl fun cursor text => ?_
  refine Lexer.next_operator text (by decide) ?_ (by unfold Recognizer.scanNumber; rw [text]; rfl)
  rw [text, lexeme]
  exact longest c (mem_decimalDigits digit) _

include delimited

theorem unsigned : Reads interner position (numeral.lexeme ++ tail)
    (.literal (.number (numeral.value : α))) tail :=
  of_next List.drop_left fun _ text => Lexer.next_numeral written delimited text

theorem signed : Reads interner .operand ('-' :: (numeral.lexeme ++ tail))
    (.literal (.number (-numeral.value : α))) tail := by
  refine of_next (n := numeral.lexeme.length + 1) List.drop_left fun cursor text => ?_
  exact Lexer.next_negative written delimited text

end Reads

namespace Expr

/-- Expressions that are printed in words of the standard grammar: no interval stands in them, no
factorial, and no curly bracket behind the name that begins an interval literal. -/
inductive Printable (interner : Interner) : Expr α → Prop
  | number {x : α} : Numeral.Legible x → Printable interner (.number x)
  | symbol {symbol : Symbol} : symbol.Plain interner → Printable interner (.symbol symbol)
  | unary {op : UnaryOp} {operand : Expr α} : op ≠ .factorial → Printable interner operand →
      Printable interner (.unary op operand)
  | binary (op : BinaryOp) {left right : Expr α} : Printable interner left →
      Printable interner right → Printable interner (.binary op left right)
  | branch {condition consequence alternative : Expr α} : Printable interner condition →
      Printable interner consequence → Printable interner alternative →
      Printable interner (.branch condition consequence alternative)
  | composite {head : Symbol} {arguments : List (Expr α)} {bracket : Bracket} :
      head.Plain interner → (bracket = .curly → head.name ≠ "I") →
      (∀ argument ∈ arguments, Printable interner argument) →
      Printable interner (.composite head arguments bracket)
  | function {head : Symbol} {parameters : List Symbol} {body : Expr α} : head.Plain interner →
      (∀ parameter ∈ parameters, parameter.Plain interner) → Printable interner body →
      Printable interner (.function head parameters body)

/-- The text of an expression is read back as an operand, with anything behind it that may stand
behind one. -/
structure ReadBack (interner : Interner) (e : Expr α) : Prop where
  starts (position : Position) {tail : List Char} : Boundary tail →
    Starts α interner position (e.text.toList ++ tail)
  parses {power : Power} {tail after : List Char} {tree : Expr α} : power < 200 → Boundary tail →
    Takes interner (Direct.extend .standard power e) tail tree after →
    Takes interner (Direct.expression .standard power) (e.text.toList ++ tail) tree after

/-- A blank or nothing. -/
def Gap (gap : List Char) : Prop :=
  gap = [] ∨ gap = [' ']

namespace ReadBack

open IntervalCalc.Parser Direct

variable {e : Expr α} {power : Power} {gap rest : List Char} {kind : TokenKind α}

/-- Before a word that binds no tighter than asked for, the whole text is the operand. -/
theorem complete (h : e.ReadBack interner) (small : power < 200) (space : Gap gap)
    (boundary : Boundary tail) (reads : Reads interner .operator tail kind rest)
    (loose : OperatorTable.standard.powerOf kind ≤ power) :
    Takes interner (expression .standard power) (gap ++ (e.text.toList ++ tail)) e tail := by
  have whole := h.parses small boundary (extend_takes_none reads loose)
  obtain ⟨first, more, starts, _⟩ := h.starts .operand boundary
  rcases space with rfl | rfl
  · exact whole
  · exact expression_takes_blank starts whole

/-- An operand before a word that closes it, and the word. -/
theorem closed (h : e.ReadBack interner) (space : Gap gap) {name : String} (closing : List Char)
    (boundary : Boundary closing)
    (reads : Reads (α := α) interner .operator closing (.operator name) rest)
    (closes : (OperatorTable.standard.find? name).elim 0 (·.leftPower) = 0)
    {β : Type} {f : Expr α → ParseM ParseState β} {value : β}
    (next : Takes interner (f e) rest value tail) :
    Takes interner (do
      let operand ← expression .standard 0
      expect (TokenSource.direct (α := α) .standard) name
      f operand) (gap ++ (e.text.toList ++ closing)) value tail :=
  (h.complete (by decide) space boundary reads (Nat.le_of_eq closes)).bind
    ((expect_takes reads).bind next)

end ReadBack

open IntervalCalc.Parser Direct

/-- A number with a minus begins with an operator where no operand may begin. -/
theorem readBack_number {x : α} (legible : Numeral.Legible x) :
    (number x).ReadBack interner := by
  obtain ⟨negative, numeral, written, spelled, denotes⟩ := legible
  cases negative with
  | false =>
      have text : (number x).text.toList = numeral.lexeme := spelled
      have value : numeral.value = x := denotes.symm
      have reads : ∀ position {tail}, Boundary tail → Reads interner position
          (numeral.lexeme ++ tail) (.literal (.number x)) tail := by
        intro position tail boundary
        rw [← value]
        exact .unsigned written boundary.delimited
      constructor
      · intro position tail boundary
        rw [text]
        exact .literal (reads position boundary)
      · intro power tail after tree small boundary more
        rw [text]
        exact expression_takes (reads .operand boundary)
          (fun token same => prefixForm_takes_literal same) more
  | true =>
      have text : ∀ tail, (number x).text.toList ++ tail = '-' :: (numeral.lexeme ++ tail) := by
        intro tail
        exact congrArg (· ++ tail) spelled
      have value : -numeral.value = x := denotes.symm
      have reads : ∀ {tail}, Boundary tail → Reads interner .operand
          ('-' :: (numeral.lexeme ++ tail)) (.literal (.number x)) tail := by
        intro tail boundary
        rw [← value]
        exact .signed written boundary.delimited
      constructor
      · intro position tail boundary
        rw [text]
        cases position with
        | operand => exact .literal (reads boundary)
        | operator => exact .operator (.minus written) (by decide)
      · intro power tail after tree small boundary more
        rw [text]
        exact expression_takes (reads boundary)
          (fun token same => prefixForm_takes_literal same) more

theorem readBack_symbol {name : Symbol} (plain : name.Plain interner) :
    (symbol name : Expr α).ReadBack interner where
  starts _ _ boundary :=
    .literal (.symbol plain boundary.delimited fun _ => boundary.not_curly)
  parses _ boundary more :=
    expression_takes (.symbol plain boundary.delimited fun _ => boundary.not_curly)
      (fun _ same => prefixForm_takes_literal same) more

/-- What an opening bracket and a closing one enclose is read as an operand of its own. -/
theorem group_takes {power : Power} {inner closing after : List Char} {tree result : Expr α}
    (inside : Takes interner (expression .standard 0) inner tree (')' :: closing))
    (more : Takes interner (extend .standard power tree) closing result after) :
    Takes interner (expression .standard power) ('(' :: inner) result after := by
  refine expression_takes (.opening .round) (fun token same => ?_) more
  refine prefixForm_takes same OperatorTable.standard_group ?_
  exact inside.bind ((expect_takes (.closing .round)).bind .pure)

theorem group_starts (position : Position) (inner : List Char) :
    Starts α interner position ('(' :: inner) :=
  .operator (.opening .round) (by decide)

theorem readBack_unary {op : UnaryOp} {operand : Expr α} (printed : op ≠ .factorial)
    (h : operand.ReadBack interner) : (unary op operand).ReadBack interner := by
  have text : ∀ tail, (unary op operand).text.toList ++ tail =
      '(' :: (op.text.toList ++ ' ' :: (operand.text.toList ++ ')' :: tail)) := by
    intro tail
    simp [Expr.text, String.toList_append, List.append_assoc]
  constructor
  · intro position tail boundary
    rw [text]
    exact group_starts position _
  · intro power tail after tree small boundary more
    rw [text]
    refine group_takes ?_ more
    obtain ⟨power', bound, known⟩ := UnaryOp.standard_rule printed
    have closing : Boundary (')' :: tail) := .cons (by decide) tail
    refine expression_takes (.unary op) (fun token same => prefixForm_takes same known ?_)
      (extend_takes_none (.closing .round) (Nat.le_refl 0))
    exact (h.complete bound (.inr rfl) closing (.closing .round) (Nat.zero_le _)).bind .pure

/-- Behind a separator stands an operand, so that it does not end the program. -/
theorem endsProgram_takes {right : Expr α} (h : right.ReadBack interner) (boundary : Boundary tail)
    (op : BinaryOp) :
    Takes interner (endsProgram (TokenSource.direct (α := α) .standard) op)
      (' ' :: (right.text.toList ++ tail)) false (' ' :: (right.text.toList ++ tail)) := by
  unfold endsProgram
  split
  · obtain ⟨kind, rest, reads, more, _⟩ := h.starts .operand boundary
    refine .peek_bind reads.blank fun token same => ?_
    have going : isEnd token = false := by
      rw [Bool.eq_false_iff]
      exact fun ends => more (same.symm.trans (isEnd_iff.mp ends))
    rw [going]
    exact .pure
  · exact .pure

theorem readBack_binary (op : BinaryOp) {left right : Expr α} (hl : left.ReadBack interner)
    (hr : right.ReadBack interner) : (binary op left right).ReadBack interner := by
  have text : ∀ tail, (binary op left right).text.toList ++ tail =
      '(' :: (left.text.toList ++ ' ' :: (op.text.toList ++ ' ' :: (right.text.toList ++
        ')' :: tail))) := by
    intro tail
    simp [Expr.text, String.toList_append, List.append_assoc]
  constructor
  · intro position tail boundary
    rw [text]
    exact group_starts position _
  · intro power tail after tree small boundary more
    rw [text]
    refine group_takes ?_ more
    obtain ⟨operator, rightAssociative, known, holds, tight, bound⟩ := op.standard_rule
    have closing : Boundary (')' :: tail) := .cons (by decide) tail
    refine hl.parses (by decide) (.cons (by decide) _) ?_
    refine extend_takes (Reads.binary op).blank known holds tight
      (fun location => ?_) (extend_takes_none (.closing .round) (Nat.le_refl 0))
    refine (endsProgram_takes hr closing op).bind ?_
    exact (hr.complete bound (.inr rfl) closing (.closing .round) (Nat.zero_le _)).bind .pure

theorem readBack_branch {condition consequence alternative : Expr α}
    (h : condition.ReadBack interner) (h' : consequence.ReadBack interner)
    (h'' : alternative.ReadBack interner) :
    (branch condition consequence alternative).ReadBack interner := by
  have text : ∀ tail, (branch condition consequence alternative).text.toList ++ tail =
      "if".toList ++ ' ' :: (condition.text.toList ++ ' ' :: ("then".toList ++
        ' ' :: (consequence.text.toList ++ ' ' :: ("else".toList ++
          ' ' :: (alternative.text.toList ++ ' ' :: ("end".toList ++ tail)))))) := by
    intro tail
    simp [Expr.text, String.toList_append, List.append_assoc]
  constructor
  · intro position tail boundary
    rw [text]
    exact .operator (.keyword (by decide) (by decide) (.blank _)) (by decide)
  · intro power tail after tree small boundary more
    rw [text]
    refine expression_takes (.keyword (by decide) (by decide) (.blank _))
      (fun token same => ?_) more
    refine prefixForm_takes same OperatorTable.standard_branch ?_
    refine h.closed (.inr rfl) _ (.cons (by decide) _)
      (Reads.keyword (by decide) (by decide) (.blank _)).blank rfl ?_
    refine h'.closed (.inr rfl) _ (.cons (by decide) _)
      (Reads.keyword (by decide) (by decide) (.blank _)).blank rfl ?_
    exact h''.closed (.inr rfl) _ (.cons (by decide) _)
      (Reads.keyword (by decide) (by decide) boundary.delimited).blank rfl .pure

theorem toList_commaSeparated (first second : String) (rest : List String) :
    (commaSeparated (first :: second :: rest)).toList =
      first.toList ++ ',' :: ' ' :: (commaSeparated (second :: rest)).toList := by
  simp [commaSeparated, String.toList_intercalate]

theorem closing_boundary (bracket : Bracket) (tail : List Char) :
    Boundary (bracket.closing.toList ++ tail) := by
  cases bracket <;> exact .cons (by decide) tail

omit [Scalar α] in
/-- Behind the first of several arguments stands a comma, and behind the last one the bracket. -/
theorem arguments_text (first second : Expr α) (rest : List (Expr α)) (closing : List Char) :
    (commaSeparated (texts (first :: second :: rest))).toList ++ closing = first.text.toList ++
      ',' :: ([' '] ++ ((commaSeparated (texts (second :: rest))).toList ++ closing)) := by
  rw [texts, texts, toList_commaSeparated]
  simp

omit [Scalar α] in
theorem argument_text (e : Expr α) : (commaSeparated (texts [e])).toList = e.text.toList := by
  simp [commaSeparated, texts]

theorem arguments_takes (bracket : Bracket) {first : Expr α} {rest : List (Expr α)}
    (h : ∀ argument ∈ first :: rest, argument.ReadBack interner) {gap : List Char}
    (space : Gap gap) : Takes interner (Direct.arguments .standard bracket.closing)
      (gap ++ ((commaSeparated (texts (first :: rest))).toList ++ (bracket.closing.toList ++ tail)))
      (first :: rest) tail := by
  induction rest generalizing first gap with
  | nil =>
      have other : TokenKind.operator bracket.closing ≠ (.operator "," : TokenKind α) := by
        cases bracket <;> simp [Bracket.closing]
      rw [argument_text, funext (Direct.arguments_eq (α := α) bracket.closing)]
      refine ((h first List.mem_cons_self).complete (by decide) space
        (closing_boundary bracket tail) (.closing bracket) (Nat.le_of_eq bracket.closes)).bind ?_
      refine (skipIf_declines (.closing bracket) other).bind ?_
      exact (expect_takes (.closing bracket)).bind .pure
  | cons second rest ih =>
      rw [arguments_text, funext (Direct.arguments_eq (α := α) bracket.closing)]
      refine ((h first List.mem_cons_self).complete (by decide) space (.cons (by decide) _) .comma
        (Nat.le_refl 0)).bind ?_
      refine (skipIf_takes .comma).bind ?_
      exact (ih (fun argument member => h argument (List.mem_cons_of_mem first member))
        (.inr rfl)).bind .pure

/-- The first word of a list of arguments does not close it. -/
theorem arguments_start (bracket : Bracket) {first : Expr α} (h : first.ReadBack interner)
    (rest : List (Expr α)) (tail : List Char) : Starts α interner .operator
      ((commaSeparated (texts (first :: rest))).toList ++ (bracket.closing.toList ++ tail)) := by
  cases rest with
  | nil =>
      rw [argument_text]
      exact h.starts .operator (closing_boundary bracket tail)
  | cons second rest =>
      rw [arguments_text]
      exact h.starts .operator (.cons (by decide) _)

theorem readBack_composite {head : Symbol} {arguments : List (Expr α)} {bracket : Bracket}
    (plain : head.Plain interner) (apart : bracket = .curly → head.name ≠ "I")
    (h : ∀ argument ∈ arguments, argument.ReadBack interner) :
    (composite head arguments bracket).ReadBack interner := by
  have text : ∀ tail, (composite head arguments bracket).text.toList ++ tail =
      head.name.toList ++ (bracket.opening.toList ++ ((commaSeparated (texts arguments)).toList ++
        (bracket.closing.toList ++ tail))) := by
    intro tail
    simp [Expr.text, String.toList_append, List.append_assoc]
  have delimited : ∀ tail, Delimited (bracket.opening.toList ++ tail) := by
    intro tail c first
    cases bracket <;> cases first <;> decide
  have curly : ∀ tail, head.name = "I" → (bracket.opening.toList ++ tail).head? ≠ some '\x7b' := by
    intro tail letter first
    cases bracket with
    | round => cases first
    | square => cases first
    | curly => exact apart rfl letter
  constructor
  · intro position tail boundary
    rw [text]
    exact .literal (.symbol plain (delimited _) (curly _))
  · intro power tail after tree small boundary more
    rw [text]
    refine expression_takes (.symbol plain (delimited _) (curly _))
      (fun token same => prefixForm_takes_literal same) ?_
    obtain ⟨operator, known, holds, strength⟩ := bracket.standard_rule
    refine extend_takes (.opening bracket) known holds (strength ▸ small) (fun location => ?_) more
    cases arguments with
    | nil => exact (skipIf_takes (.closing bracket)).bind .pure
    | cons first rest =>
        obtain ⟨kind, others, reads, _, goes⟩ :=
          arguments_start bracket (h first List.mem_cons_self) rest tail
        refine (skipIf_declines reads (goes bracket)).bind ?_
        exact (arguments_takes bracket h (.inl rfl)).bind .pure

omit [Scalar α] in
theorem parameters_symbols (location : Location) (names : List Symbol) :
    (parameters location (names.map symbol : List (Expr α)) : ParseM ParseState (List Symbol)) =
      pure names := by
  induction names with
  | nil => rfl
  | cons name names ih =>
      rw [List.map_cons, parameters, ih]
      rfl

omit [Scalar α] in
theorem texts_symbols (names : List Symbol) :
    texts (names.map symbol : List (Expr α)) = names.map (·.name) := by
  induction names with
  | nil => rfl
  | cons name names ih => rw [List.map_cons, List.map_cons, texts, ih]; rfl

/-- The head and the parameters of a function are printed and read as a call. -/
def signature (head : Symbol) (names : List Symbol) : Expr α :=
  composite head (names.map symbol) .round

theorem readBack_function {head : Symbol} {names : List Symbol} {body : Expr α}
    (plain : head.Plain interner) (named : ∀ name ∈ names, name.Plain interner)
    (h : body.ReadBack interner) : (function head names body).ReadBack interner := by
  have call : (signature head names : Expr α).ReadBack interner := by
    refine readBack_composite plain Bracket.noConfusion fun argument member => ?_
    obtain ⟨name, known, rfl⟩ := List.mem_map.mp member
    exact readBack_symbol (named name known)
  have text : ∀ tail, (function head names body).text.toList ++ tail = "fun".toList ++
      ' ' :: ((signature head names : Expr α).text.toList ++ ' ' :: ("is".toList ++
        ' ' :: (body.text.toList ++ ' ' :: ("end".toList ++ tail)))) := by
    intro tail
    simp [signature, Expr.text, texts_symbols, String.toList_append, List.append_assoc,
      Bracket.opening, Bracket.closing]
  constructor
  · intro position tail boundary
    rw [text]
    exact .operator (.keyword (by decide) (by decide) (.blank _)) (by decide)
  · intro power tail after tree small boundary more
    rw [text]
    refine expression_takes (.keyword (by decide) (by decide) (.blank _))
      (fun token same => ?_) more
    refine prefixForm_takes same OperatorTable.standard_function ?_
    have is : ∀ tail, Reads (α := α) interner .operator (' ' :: ("is".toList ++ ' ' :: tail))
        (.operator "is") (' ' :: tail) :=
      fun tail => (Reads.keyword (by decide) (by decide) (.blank tail)).blank
    refine (call.complete (by decide) (.inr rfl) (.cons (by decide) _) (is _)
      (Nat.le_refl 0)).bind ?_
    unfold signature
    dsimp only
    rw [parameters_symbols, pure_bind]
    refine (expect_takes (is _)).bind ?_
    exact h.closed (.inr rfl) _ (.cons (by decide) _)
      (Reads.keyword (by decide) (by decide) boundary.delimited).blank rfl .pure

theorem Printable.readBack {tree : Expr α} (printable : tree.Printable interner) :
    tree.ReadBack interner := by
  induction printable with
  | number legible => exact readBack_number legible
  | symbol plain => exact readBack_symbol plain
  | unary printed _ ih => exact readBack_unary printed ih
  | binary op _ _ ihl ihr => exact readBack_binary op ihl ihr
  | branch _ _ _ ih ih' ih'' => exact readBack_branch ih ih' ih''
  | composite plain apart _ ih => exact readBack_composite plain apart ih
  | function plain named _ ih => exact readBack_function plain named ih

end Expr

/-- Printing and parsing: the text of an expression is parsed as the expression, and changes neither
the grammar nor the names. -/
theorem Grammar.parse_text {tree : Expr α} (printable : tree.Printable interner) :
    Grammar.standard.parse interner tree.text = ⟨.ok tree, .standard, interner⟩ := by
  have before : ParseState.Before interner (tree.text.toList ++ [])
      (Grammar.standard.start interner tree.text) := ⟨rfl, rfl, (List.append_nil _).symm⟩
  have nothing : Boundary [] := fun c first => by cases first
  have whole : Takes interner (Direct.expression .standard 0) (tree.text.toList ++ []) tree [] :=
    printable.readBack.complete (by decide) (.inl rfl) nothing .atEnd (Nat.le_refl 0)
  obtain ⟨middle, parsed, finished⟩ := whole _ before
  have ending : Reads (α := α) interner .operator [] .endOfInput [] := .atEnd
  obtain ⟨r, read, ends, last⟩ := ending middle finished
  have program : Grammar.standard.parseDirect interner tree.text = .ok tree (middle.consume r) := by
    refine parseDirect_ok.mpr ⟨r.token, middle, parsed, ?_, ends⟩
    exact TokenSource.direct_next_ok.mpr ⟨r, read, rfl, rfl⟩
  rw [parse_eq_direct, program]
  change Parsed.mk (.ok tree) ⟨Grammar.standard.lexer, (middle.consume r).operators⟩
    (middle.consume r).interner = _
  rw [last.operators, last.interner]
  rfl

theorem Grammar.parse_text_definition :
    let interner : Interner := ⟨["f", "a_1", "x"]⟩
    let f : Symbol := ⟨0, "f"⟩
    let a : Symbol := ⟨1, "a_1"⟩
    let x : Symbol := ⟨2, "x"⟩
    let tree : Expr Float := .function f [x] (.branch
      (.binary .lt (.symbol x) (.number (-2.5)))
      (.composite a [.number 1, .unary .increment (.symbol x)] .curly)
      (.composite f [] .round))
    tree.Printable interner ∧
      tree.text = "fun f(x) is if (x < -2.5) then a_1\x7b1, (++ x)\x7d else f() end end" ∧
      Grammar.standard.parse interner tree.text = ⟨.ok tree, .standard, interner⟩ := by
  intro interner f a x tree
  have plain : f.Plain interner ∧ a.Plain interner ∧ x.Plain interner := by
    refine ⟨?_, ?_, ?_⟩ <;> exact ⟨by decide, by decide, rfl⟩
  have low : Numeral.Legible (-2.5 : Float) :=
    ⟨true, ⟨['2'], ['5']⟩, by decide, by decide +kernel, by decide +kernel⟩
  have one : Numeral.Legible (1 : Float) :=
    ⟨false, ⟨['1'], []⟩, by decide, by decide +kernel, by decide +kernel⟩
  have printable : tree.Printable interner := by
    refine .function plain.1 (by simpa using plain.2.2) (.branch ?_ ?_ ?_)
    · exact .binary .lt (.symbol plain.2.2) (.number low)
    · refine .composite plain.2.1 (by decide) ?_
      have increment : (Expr.unary .increment (.symbol x) : Expr Float).Printable interner :=
        .unary (by decide) (.symbol plain.2.2)
      simpa using And.intro (Expr.Printable.number one) increment
    · exact .composite plain.1 (by decide) (by simp)
  exact ⟨printable, by decide +kernel, Grammar.parse_text printable⟩

end IntervalCalc

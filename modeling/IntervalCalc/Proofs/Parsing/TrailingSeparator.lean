import IntervalCalc.Proofs.Parsing.Layout
import IntervalCalc.Proofs.Parsing.Outlasting
import IntervalCalc.Proofs.Parsing.Sequence
import IntervalCalc.Scalar.Float

/-!
A separator at the end of a text. It is taken by the innermost expression that a separator would
extend, which may be the operand of an operator of low power, and changes nothing about the tree.
-/

namespace IntervalCalc

variable {α : Type} [Scalar α] [Numeral α]

section Separator

/-- The operators that separate statements. -/
abbrev IsSeparator (name : String) : Prop :=
  name = ";"

theorem OperatorTable.Grown.eq_separator {operators : OperatorTable} (h : operators.Grown)
    {name : String} {operator : Operator} {rule : InfixRule}
    (found : operators.find? name = some operator) (holds : operator.infixRule = some rule)
    (separator : rule.isSeparator) : IsSeparator name := by
  have standard : ∀ entry ∈ OperatorTable.standard.entries,
      ∀ rule ∈ entry.2.infixRule, rule.isSeparator → entry.1 = ";" := by decide
  rcases h.known found with standing | ⟨fixity, head, power, rfl⟩
  · exact standard (name, operator) (OrderedMap.mem_of_find? standing) rule holds separator
  · cases fixity with
    | prefixed => cases holds
    | infixed =>
        cases holds
        cases separator

variable {s t : ParseState} {power : Power}

theorem extend_at_end (ends : AtEnd α s) (steps : Nat) (left : Expr α) :
    Parser.extend (plain α) steps power left s = .ok left s := by
  obtain ⟨r, read, finished, known⟩ := ends.ahead .operator
  have loose : s.operators.powerOf r.token.kind ≤ power := by
    rw [finished]
    exact Nat.zero_le power
  rw [Parser.extend_of_loose read loose, known]

/-- A separator with nothing behind it is passed over, where it binds tight enough. -/
theorem extend_over_separator {r : Lexer.Reading α}
    (separator : s.operators.find? ";" = some (.binary 10 .sequence))
    (read : s.ahead Lexer.standard .operator = .ok r) (spelled : r.token.kind = .operator ";")
    (finished : r.cursor.rest = []) (low : power < 10) (steps : Nat) (left : Expr α) :
    Parser.extend (plain α) (steps + 1) power left s = .ok left (s.consume r) := by
  have ends : AtEnd α (s.consume r) := ⟨_, (Lexer.Lexes.atEnd finished).next, rfl⟩
  have holds : s.operators.powerOf r.token.kind = 10 := by
    rw [spelled, OperatorTable.powerOf, separator]
    rfl
  obtain ⟨last, nothing, none, known⟩ := ends.ahead .operand
  have complete :
      Parser.endsProgram (plain α) .sequence (s.consume r) = .ok true (s.consume r) := by
    have peeked := TokenSource.direct_peek_ok.mpr ⟨last, nothing, rfl, rfl⟩
    rw [Parser.endsProgram, if_pos rfl, Run.bind_ok peeked, Parser.isEnd_iff.mpr none, known]
    rfl
  have formed (e : Power → ParseM ParseState (Expr α)) : Parser.infixForm (plain α)
      (Parser.arguments (plain α) e · steps) e r.token left (s.consume r) =
        .ok left (s.consume r) := by
    rw [Parser.infixForm_known spelled (show _ = some (Operator.binary 10 .sequence) from separator)
      rfl]
    exact Run.bind_ok complete
  rw [Parser.extend_succ_of_tight read (by rw [holds]; exact low)]
  exact (Run.bind_ok (formed _)).trans (extend_at_end ends steps left)

end Separator

theorem breaks_separator : Breaks [';'] := by
  rintro c ⟨rfl⟩
  decide +kernel

theorem OperatorTable.Grown.apart_separator {operators : OperatorTable} (h : operators.Grown) :
    Vocabulary.Apart operators.keys [';'] :=
  Lexer.apart_of_symbols h.symbols (by decide) (by decide) []

/-- A text of which nothing is left, and the same with a separator behind it. -/
abbrev BesideSeparator (α : Type) [Scalar α] [Numeral α] : ParseState → ParseState → Prop :=
  Along α OperatorTable.Grown [';'] 1

/-- Where a text ends, a separator behind it comes next, unless it has been read. -/
theorem Along.separator_ahead {s t : ParseState} (along : BesideSeparator α s t)
    (ends : AtEnd α s) : AtEnd α t ∨ ∀ position, ∃ r : Lexer.Reading α,
      t.ahead Lexer.standard position = .ok r ∧ r.token.kind = .operator ";" ∧
        r.cursor.rest = [] ∧ r.interner = t.interner := by
  refine (along.ahead_end breaks_separator along.known.apart_separator ends).imp And.right ?_
  intro behind position
  obtain ⟨later, place, same⟩ := behind position
  have text : later.rest = ';' :: [] := place.elim id id
  refine ⟨_, same.trans (Lexer.next_separator along.known.symbols text), rfl, ?_, along.interner⟩
  change (later.advance 1).rest = []
  rw [Cursor.rest_advance, text]
  rfl

/-- Behind a text a separator is left for an expression that it extends. -/
theorem separator_addition :
    Addition α OperatorTable.Grown True IsSeparator [';'] 1 where
  breaks := breaks_separator
  apart known := known.apart_separator
  declare _ known identifier fixity head power := known.declare identifier fixity head power
  separator known found holds separator := known.eq_separator found holds separator
  reads along ends position := by
    rcases along.separator_ahead ends with ends' | behind
    · obtain ⟨r, read, _, known⟩ := ends'.ahead position
      exact ⟨r, read, known⟩
    · obtain ⟨r, read, _, _, known⟩ := behind position
      exact ⟨r, read, known⟩
  stops {s t} along ends := by
    intro steps enough power left
    rcases along.separator_ahead ends with ends' | behind
    · exact ⟨t, extend_at_end ends' steps left, along⟩
    · obtain ⟨r, read, spelled, finished, known⟩ := behind .operator
      have separator : t.operators.find? ";" = some (.binary 10 .sequence) :=
        along.operators ▸ along.known.separator
      by_cases low : power < 10
      · obtain ⟨steps, rfl⟩ := Nat.exists_eq_succ_of_ne_zero (Nat.ne_of_gt enough)
        refine ⟨_, extend_over_separator separator read spelled finished low steps left,
          along.known, along.operators, along.interner.trans known.symm,
          .inr ⟨Nat.one_ne_zero, ends, ?_⟩⟩
        exact ⟨_, (Lexer.Lexes.atEnd finished).next, rfl⟩
      · have loose : t.operators.powerOf r.token.kind ≤ power := by
          rw [spelled, OperatorTable.powerOf, separator]
          exact Nat.le_of_not_lt low
        refine ⟨t, ?_, along⟩
        rw [Parser.extend_of_loose read loose, known]

/-- What no operator extends any more, in a parse without a log. -/
theorem plain_settled {n : Nat} {power : Power} {result : Expr α} {t t' : ParseState}
    (ran : Parser.expression (plain α) n power t = .ok result t') : Settled α power t' := by
  have simulates : (noted α).Simulates (plain α) fun s t => s.1 = t ∧ True :=
    TokenSource.direct_logged_simulates (fun _ _ => trivial) (fun _ _ => trivial)
      fun _ _ => trivial
  have agree := (simulates.expression_and_extend n).1 power (t, []) t ⟨rfl, trivial⟩
  rw [ran] at agree
  cases logged : Parser.expression (noted α) n power (t, []) with
  | error error s =>
      rw [logged] at agree
      exact agree.elim
  | ok found s =>
      rw [logged] at agree
      obtain ⟨_, same, _⟩ := agree
      exact same ▸ expression_settled logged

namespace Grammar

variable {grammar : Grammar} {interner : Interner} {source : String} {result : Expr α}

/-- A separator at the end is optional. If a text parses to a tree, its last word is no separator
and it does not end inside a comment, then with a separator behind it, the text parses to the same
tree and leaves the same operators and the same names. The operators may be any that declarations
make of the standard ones, with whatever powers, before the text or in it. -/
theorem parse_trailing_separator (standard : grammar.lexer = .standard)
    (grown : grammar.operators.Grown)
    (accepted : (grammar.parse interner source).outcome = .ok result)
    (last : (grammar.history α interner source).words.getLast? ≠ some (.operator ";"))
    (outside : ¬ EndsInComment source.toList) :
    grammar.parse (α := α) interner (source ++ ";") = grammar.parse interner source := by
  obtain ⟨s, ran, finished, same, words, _⟩ := parse_ok standard accepted
  have longer : (source ++ ";").toList = source.toList ++ [';'] := String.toList_append
  have lasting : Lasting True IsSeparator s := by
    refine ⟨.inl trivial, ?_⟩
    rintro ⟨_, _, rfl, spent⟩
    rw [words] at last
    exact last spent
  have start : BesideSeparator α (grammar.start interner source)
      (grammar.start interner (source ++ ";")) := ⟨grown, rfl, rfl, .inl ⟨longer, outside⟩⟩
  have outlasted := (@separator_addition α _ _).outlasted
  obtain ⟨_, t, followed, rfl, along⟩ :=
    ((outlasted.expression_and_extend (Nat.le_succ 1) (Parser.stepsFor source.toList)).1 0).follows
      (s := (grammar.start interner source, [])) start ran lasting
  have ends : AtEnd α t := by
    rcases along.separator_ahead finished with ends | behind
    · exact ends
    · obtain ⟨r, read, spelled, _⟩ := behind .operator
      have loose := (plain_settled followed).low read
      rw [spelled, OperatorTable.powerOf, ← along.operators, along.known.separator] at loose
      exact absurd loose (by decide)
  obtain ⟨r, read, none, known⟩ := ends.ahead .operator
  have program : Parser.program (plain α) (2 + Parser.stepsFor source.toList)
      (grammar.start interner (source ++ ";")) = .ok result (t.consume r) := by
    rw [Parser.program_eq, Run.bind_ok followed,
      Run.bind_ok (TokenSource.direct_next_ok.mpr ⟨r, read, rfl, rfl⟩),
      if_pos (Parser.isEnd_iff.mpr none)]
    rfl
  have enough : Parser.stepsFor (source ++ ";").toList ≤ 2 + Parser.stepsFor source.toList := by
    unfold Parser.stepsFor
    rw [longer, List.length_append, List.length_singleton]
    omega
  rw [parse_of_steps standard enough program, same, standard, along.operators, along.interner,
    ← known]
  rfl

/-- Behind an operator that binds less tight than a separator, the separator belongs to the operand
of the operator. -/
theorem parse_trailing_separator_of_low_operator :
    let source := "infix low 5;2 low 1"
    (standard.parse (α := Float) .empty source).outcome.isOk = true ∧
      (standard.history Float .empty source).words.getLast? ≠ some (.operator ";") ∧
      ¬ EndsInComment source.toList ∧
      standard.parse (α := Float) .empty (source ++ ";") = standard.parse .empty source := by
  intro source
  have accepted : (standard.parse (α := Float) .empty source).outcome.isOk = true := by
    decide +kernel
  have last : (standard.history Float .empty source).words.getLast? ≠ some (.operator ";") := by
    decide +kernel
  have outside : ¬ EndsInComment source.toList := by decide
  obtain ⟨tree, parsed⟩ := exists_of_isOk accepted
  exact ⟨accepted, last, outside,
    @parse_trailing_separator _ _ _ standard .empty source tree rfl .standard parsed last outside⟩

end Grammar

end IntervalCalc

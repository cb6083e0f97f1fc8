import IntervalCalc.Proofs.Parsing.Transfer

/-!
A program behind another one. Behind a separator its first statement is read at the power of the
separator, and each later separator extends everything before it. So the tree of both programs is
the tree of the second one, with the first one put before its first statement.
-/

namespace IntervalCalc

variable {α : Type}

/-- A tree, and the same tree with another one put before its first statement. -/
inductive Grafted (prior : Expr α) : Expr α → Expr α → Prop
  | here (first : Expr α) : Grafted prior first (.binary .sequence prior first)
  | later {tree grafted : Expr α} (last : Expr α) : Grafted prior tree grafted →
      Grafted prior (.binary .sequence tree last) (.binary .sequence grafted last)

variable [Scalar α] [Numeral α]

theorem AtEnd.settled {s : ParseState} (ends : AtEnd α s) (q : Power) : Settled α q s := by
  obtain ⟨r, read, finished, same⟩ := ends.ahead .operator
  refine ⟨r, read, same, ?_⟩
  rw [finished]
  exact Nat.zero_le q

theorem Settled.low {q : Power} {s : ParseState} (h : Settled α q s) {r : Lexer.Reading α}
    (read : s.ahead Lexer.standard .operator = .ok r) : s.operators.powerOf r.token.kind ≤ q := by
  obtain ⟨r', again, _, loose⟩ := h
  cases read.symm.trans again
  exact loose

omit [Scalar α] [Numeral α] in
/-- Only a separator extends what is settled at its power. -/
theorem OperatorTable.Grounded.eq_separator {operators : OperatorTable} (h : operators.Grounded)
    {kind : TokenKind α} (positive : 0 < operators.powerOf kind)
    (low : operators.powerOf kind ≤ 10) : kind = .operator ";" := by
  cases kind with
  | literal value => cases positive
  | endOfInput => cases positive
  | operator name =>
      unfold powerOf at positive low
      dsimp only at positive low
      cases found : operators.find? name with
      | none =>
          rw [found] at positive
          cases positive
      | some operator =>
          rw [found] at positive low
          obtain ⟨_, _, _, _, none | high | rfl⟩ := h.steady found
          · exact absurd none (Nat.ne_of_gt positive)
          · exact absurd low (Nat.not_le_of_lt high)
          · rfl

section Grafting

variable {prior left left' value : Expr α} {s s' : ParseState × Log α} {t : ParseState} {n : Nat}

/-- A separator puts its right operand behind whatever is before it. -/
theorem separator_grafts {E : Power → ParseM (ParseState × Log α) (Expr α)}
    {e : Power → ParseM ParseState (Expr α)}
    {L : String → ParseM (ParseState × Log α) (List (Expr α))}
    {l : String → ParseM ParseState (List (Expr α))} (held : Carries [] Anywhere (E 10) (e 10))
    (settled : ∀ s s' result, E 10 s = .ok result s' → Settled α 10 s'.1) {token token' : Token α}
    (kind : token.kind = .operator ";") (kind' : token'.kind = .operator ";")
    (parallel : Parallel [] s.1 t)
    (ran : Parser.infixForm (noted α) L E token left s = .ok value s')
    (alive : ¬ Doomed [] s') (grafted : Grafted prior left left') :
    ∃ value' t', Parser.infixForm (plain α) l e token' left' t = .ok value' t' ∧
      Parallel [] s'.1 t' ∧ Grafted prior value value' ∧ Settled α 10 s'.1 := by
  have known := parallel.grounded.separator
  have known' : t.operators.find? ";" = some (.binary 10 .sequence) := by
    rw [← parallel.operators]
    exact known
  rw [Parser.infixForm_known kind known rfl] at ran
  rw [Parser.infixForm_known kind' known' rfl]
  obtain ⟨ends, middle, looked, rest⟩ := Run.bind_eq_ok ran
  obtain ⟨token, after, peeked, done⟩ := Run.bind_eq_ok looked
  obtain ⟨r, read, rfl, rfl⟩ := TokenSource.direct_logged_peek_ok.mp peeked
  obtain ⟨r', read', parallel', same⟩ := parallel.seen_same read
  have looked' : Parser.endsProgram (plain α) .sequence t =
      .ok (Parser.isEnd r.token) { t with interner := r'.interner } := by
    unfold Parser.endsProgram
    rw [if_pos rfl, Run.bind_ok (TokenSource.direct_peek_ok.mpr ⟨r', read', rfl, rfl⟩)]
    unfold Parser.isEnd
    rw [same]
    rfl
  cases done
  -- a separator at the end of the text leaves the left operand alone in both texts
  cases ended : Parser.isEnd r.token with
  | true =>
      rw [ended] at rest looked'
      cases rest
      have finished := Parser.isEnd_iff.mp ended
      exact ⟨left', _, Run.bind_ok looked', parallel', grafted,
        ((AtEnd.of_ahead read finished).look _).settled 10⟩
  | false =>
      rw [ended] at rest looked'
      obtain ⟨right, between, operand, done⟩ := Run.bind_eq_ok rest
      cases done
      obtain ⟨t', operand', parallel''⟩ := held.carries parallel' operand alive trivial
      refine ⟨.binary .sequence left' right, t', ?_, parallel'', grafted.later right,
        settled _ _ _ operand⟩
      exact (Run.bind_ok looked').trans (Run.bind_ok operand')

/-- What stands behind the first statement of a program stands behind it in the longer one. -/
theorem extend_grafts (parallel : Parallel [] s.1 t)
    (low : ∀ r : Lexer.Reading α, s.1.ahead Lexer.standard .operator = .ok r →
      s.1.operators.powerOf r.token.kind ≤ 10)
    (ran : Parser.extend (noted α) n 0 left s = .ok value s') (alive : ¬ Doomed [] s')
    (grafted : Grafted prior left left') :
    ∃ value' t', Direct.extend Lexer.standard 0 left' t = .ok value' t' ∧
      Parallel [] s'.1 t' ∧ Grafted prior value value' := by
  -- by induction on the steps: whatever extends the operand here is a separator, and leaves a
  -- state where again only a separator does
  induction n using Nat.strongRecOn generalizing left left' s t with
  | ind n ih =>
      obtain ⟨r, read, ⟨loose, rfl, rfl⟩ |
        ⟨m, log, next, between, rfl, tight, _, formed, extended⟩⟩ := extend_ok ran
      · obtain ⟨r', read', parallel', same⟩ := parallel.seen_same read
        rw [parallel.operators, ← same] at loose
        exact ⟨left', _, Direct.extend_of_loose read' loose left', parallel', grafted⟩
      · have kind := parallel.grounded.eq_separator tight (low r read)
        obtain ⟨r', read', same, _, parallel'⟩ :=
          parallel.ahead .nothing read (OperatorTable.not_end_of_lt tight)
        have follows := (expression_and_extend_follow (α := α) .nothing m).1
        have persists := (doomed_persists (α := α) []).expression_and_extend m
        have alive' : ¬ Doomed [] between :=
          fun doomed => alive ((persists.2 0 next).keeps doomed extended)
        obtain ⟨next', t', formed', parallel'', grafted', settled'⟩ :=
          separator_grafts (e := Direct.expression Lexer.standard)
            (l := Direct.arguments Lexer.standard) (s := (s.1.consume r, log))
            (follows.held .nothing 10 (Nat.le_refl 10)) (fun _ _ _ => expression_settled) kind
            (same.trans kind) parallel' formed alive' grafted
        obtain ⟨value', t'', extended', final⟩ :=
          ih m (Nat.lt_succ_self m) parallel'' (fun _ => settled'.low) extended grafted'
        refine ⟨value', t'', ?_, final⟩
        rw [parallel.operators, ← same] at tight
        rw [Direct.extend_of_tight read' tight, Run.bind_ok formed']
        exact extended'

/-- The first statement ends at the first separator that extends it. -/
theorem extend_first_grafts (prior : Expr α) (parallel : Parallel [] s.1 t)
    (ran : Parser.extend (noted α) n 0 left s = .ok value s') (alive : ¬ Doomed [] s') :
    ∃ first between value' t', Direct.extend Lexer.standard 10 left t = .ok first between ∧
      Direct.extend Lexer.standard 0 (.binary .sequence prior first) between = .ok value' t' ∧
        Parallel [] s'.1 t' ∧ Grafted prior value value' := by
  induction n using Nat.strongRecOn generalizing left s t with
  | ind n ih =>
      obtain ⟨r, read, steps⟩ := extend_ok ran
      -- an operator above the separator still belongs to the first statement
      by_cases low : s.1.operators.powerOf r.token.kind ≤ 10
      · obtain ⟨r', read', _, same⟩ := parallel.seen_same read
        obtain ⟨value', t', extended, final⟩ := extend_grafts parallel
          (fun _ again => by cases read.symm.trans again; exact low) ran alive
          (Grafted.here left : Grafted prior left _)
        rw [parallel.operators, ← same] at low
        refine ⟨left, _, value', t', Direct.extend_of_loose read' low left, ?_, final⟩
        rw [Direct.extend_look read']
        exact extended
      · have tight := Nat.lt_of_not_le low
        obtain ⟨loose, _⟩ | ⟨m, log, next, between, rfl, above, words, formed, extended⟩ := steps
        · exact absurd (Nat.le_trans loose (Nat.zero_le 10)) low
        · have follows := (expression_and_extend_follow (α := α) .nothing m).1
          obtain ⟨t', parallel', goes⟩ :=
            follows.goes_on .nothing parallel read above words formed extended alive
          obtain ⟨first, middle, value', t'', head, rest, final⟩ :=
            ih m (Nat.lt_succ_self m) parallel' extended
          exact ⟨first, middle, value', t'', (goes 10 tight).trans head, rest, final⟩

theorem expression_grafts (prior : Expr α) (parallel : Parallel [] s.1 t)
    (ran : Parser.expression (noted α) n 0 s = .ok value s') (alive : ¬ Doomed [] s') :
    ∃ first between value' t', Direct.expression Lexer.standard 10 t = .ok first between ∧
      Direct.extend Lexer.standard 0 (.binary .sequence prior first) between = .ok value' t' ∧
        Parallel [] s'.1 t' ∧ Grafted prior value value' := by
  obtain ⟨m, _, _, _, _, rfl, _⟩ := expression_ok ran
  have follows := (expression_and_extend_follow (α := α) .nothing m).1
  obtain ⟨left, middle, t', extended, parallel', begins⟩ :=
    follows.begins .nothing parallel ran alive
  obtain ⟨first, between, value', t'', head, rest⟩ :=
    extend_first_grafts prior parallel' extended alive
  exact ⟨first, between, value', t'', (begins 10).trans head, rest⟩

end Grafting

theorem Direct.extend_over_separator {t t' : ParseState} {r next : Lexer.Reading α}
    (known : t.operators.find? ";" = some (.binary 10 .sequence))
    (read : t.ahead Lexer.standard .operator = .ok r) (kind : r.token.kind = .operator ";")
    (ahead : (t.consume r).ahead Lexer.standard .operand = .ok next)
    (more : next.token.kind ≠ .endOfInput) {right : Expr α}
    (operand : expression Lexer.standard 10 (t.consume r) = .ok right t') (left : Expr α) :
    extend Lexer.standard 0 left t =
      extend Lexer.standard 0 (.binary .sequence left right) t' := by
  have tight : 0 < t.operators.powerOf r.token.kind := by
    rw [kind, OperatorTable.powerOf, known]
    exact Nat.zero_lt_succ 9
  have goes_on : Parser.endsProgram (plain α) .sequence (t.consume r) =
      .ok false { t.consume r with interner := next.interner } := by
    unfold Parser.endsProgram
    rw [if_pos rfl, Run.bind_ok (TokenSource.direct_peek_ok.mpr ⟨next, ahead, rfl, rfl⟩),
      eq_false_of_ne_true fun ends => more (Parser.isEnd_iff.mp ends)]
    rfl
  have operand' : expression Lexer.standard 10 { t.consume r with interner := next.interner } =
      .ok right t' := by
    refine (expression_congr ?_ (ParseState.ahead_again ahead) ahead 10).trans operand
    rfl
  rw [extend_of_tight read tight]
  apply Run.bind_ok
  rw [Parser.infixForm_known kind known rfl]
  exact (Run.bind_ok goes_on).trans (Run.bind_ok operand')

namespace Grammar

variable {grammar : Grammar} {interner : Interner} {source : String} {result : Expr α}

/-- A program that parses is an expression up to the end of its text. -/
theorem parse_ok (standard : grammar.lexer = .standard)
    (h : (grammar.parse interner source).outcome = .ok result) :
    ∃ s : ParseState × Log α, Parser.expression (noted α) (Parser.stepsFor source.toList)
        0 (grammar.start interner source, []) = .ok result s ∧
      AtEnd α s.1 ∧
      grammar.parse interner source = ⟨.ok result, ⟨.standard, s.1.operators⟩, s.1.interner⟩ ∧
      (grammar.history α interner source).words = s.2.words ∧
      s.2 <+: grammar.history α interner source := by
  obtain ⟨after, logged, same, history, _⟩ := parseDirectLogged_ok grammar interner source h
  rw [history, same]
  unfold parseDirectLogged at logged
  rw [standard] at logged
  obtain ⟨token, s, parsed, read, ends⟩ := Parser.program_ok logged
  obtain ⟨r, ahead, rfl, rfl⟩ := TokenSource.direct_logged_next_ok.mp read
  have finished := AtEnd.of_ahead ahead ends
  obtain ⟨r', again, _, known⟩ := finished.ahead .operator
  cases ahead.symm.trans again
  refine ⟨s, parsed, finished, ?_, ?_, ?_⟩
  · rw [standard]
    change Parsed.mk _ _ r.interner = _
    rw [known]
    rfl
  · change Log.words (s.2 ++ [_]) = _
    rw [Log.words_append, Event.word?_of_end ends, Option.toList_none, List.append_nil]
  · exact List.prefix_append _ _

/-- In a longer text a program is parsed up to the separator behind it. -/
theorem parse_up_to_separator (standard : grammar.lexer = .standard)
    (grounded : grammar.operators.Grounded)
    (parsed : (grammar.parse interner source).outcome = .ok result)
    (above : (grammar.history α interner source).DeclaresAbove 10)
    (last : (grammar.history α interner source).words.getLast? ≠ some (.operator ";"))
    {text : String} {rest : List Char}
    (longer : text.toList = source.toList ++ '\n' :: ';' :: '\n' :: rest) :
    ∃ (t : ParseState) (r : Lexer.Reading α),
      Direct.expression .standard 0 (grammar.start interner text) =
        Direct.extend .standard 0 result t ∧
      grammar.parse interner source = ⟨.ok result, ⟨.standard, t.operators⟩, t.interner⟩ ∧
      t.operators.Grounded ∧ t.ahead .standard .operator = .ok r ∧
      r.token.kind = .operator ";" ∧ r.interner = t.interner ∧ r.cursor.rest = '\n' :: rest := by
  obtain ⟨s, ran, finished, same, words, noted⟩ := parse_ok standard parsed
  have alive : ¬ Doomed ('\n' :: ';' :: '\n' :: rest) s := by
    rintro (low | ⟨_, _, separator⟩)
    · exact low (above.of_prefix noted)
    · exact last (words ▸ separator)
  have parallel : Parallel ('\n' :: ';' :: '\n' :: rest) (grammar.start interner source)
      (grammar.start interner text) := ⟨rfl, rfl, longer, grounded⟩
  obtain ⟨t, followed, parallel'⟩ :=
    (expression_and_extend_follow (.separator rest) (Parser.stepsFor source.toList)).1 parallel ran alive
  obtain ⟨r, read, known, _, separated⟩ :=
    parallel'.ahead_end (.separator rest) finished .operator
  obtain ⟨kind, place⟩ := separated rest rfl
  refine ⟨t, r, followed, ?_, ?_, read, kind, known, place⟩
  · rw [same, parallel'.operators, parallel'.interner]
  · rw [← parallel'.operators]
    exact parallel'.grounded

/-- Behind a separator and a line feed a program is parsed statement by statement. -/
theorem parse_behind_separator {t : ParseState} (grounded : t.operators.Grounded)
    (place : t.cursor.rest = '\n' :: source.toList)
    (parsed : (Grammar.parse ⟨.standard, t.operators⟩ t.interner source).outcome = .ok result)
    (above : (Grammar.history α ⟨.standard, t.operators⟩ t.interner source).DeclaresAbove 10)
    (prior : Expr α) :
    ∃ (next : Lexer.Reading α) (first whole : Expr α) (between t' : ParseState),
      t.ahead .standard .operand = .ok next ∧ next.token.kind ≠ .endOfInput ∧
      Direct.expression .standard 10 t = .ok first between ∧
      Direct.extend .standard 0 (.binary .sequence prior first) between = .ok whole t' ∧
      Grafted prior result whole ∧ AtEnd α t' ∧
      Grammar.parse ⟨.standard, t.operators⟩ t.interner source =
        ⟨.ok result, ⟨.standard, t'.operators⟩, t'.interner⟩ := by
  obtain ⟨s, ran, finished, same, _, noted⟩ := parse_ok rfl parsed
  have alive : ¬ Doomed [] s := by
    rintro (low | ⟨more, _⟩)
    · exact low (above.of_prefix noted)
    · exact more rfl
  have newLine : ∀ position : Position, t.ahead (α := α) .standard position =
      ParseState.ahead .standard position { t with cursor := t.cursor.advance 1 } :=
    fun position => Lexer.next_isBlank grounded.symbols (by decide) place
  have parallel : Parallel [] (Grammar.start ⟨.standard, t.operators⟩ t.interner source)
      { t with cursor := t.cursor.advance 1 } := by
    refine ⟨rfl, rfl, ?_, grounded⟩
    change (t.cursor.advance 1).rest = source.toList ++ []
    rw [Cursor.rest_advance, place, List.append_nil]
    rfl
  obtain ⟨first, between, whole, t', head, rest, parallel', grafted⟩ :=
    expression_grafts prior parallel ran alive
  obtain ⟨_, r, _, _, _, _, read, more, _⟩ := expression_ok ran
  obtain ⟨next, ahead, kind, _⟩ := parallel.ahead .nothing read more
  obtain ⟨last, behind, _, ends, _⟩ := parallel'.ahead_end .nothing finished .operator
  refine ⟨next, first, whole, between, t', (newLine .operand).trans ahead, ?_, ?_, rest, grafted,
    ⟨last, behind, ends rfl⟩, ?_⟩
  · rw [kind]
    exact more
  · refine (Direct.expression_congr ?_ ((newLine .operand).trans ahead) ahead 10).trans head
    rfl
  · rw [same, parallel'.operators, parallel'.interner]

/-- Two programs with a separator between them parse as one, with the names and the operators that
the first one leaves to the second. -/
theorem parse_sequence {a b : String} {first second : Expr α} (standard : grammar.lexer = .standard)
    (grounded : grammar.operators.Grounded)
    (parsed : (grammar.parse interner a).outcome = .ok first)
    (above : (grammar.history α interner a).DeclaresAbove 10)
    (last : (grammar.history α interner a).words.getLast? ≠ some (.operator ";"))
    {middle : Parsed α} (left : grammar.parse interner a = middle)
    (parsed' : (middle.grammar.parse middle.interner b).outcome = .ok second)
    (above' : (middle.grammar.history α middle.interner b).DeclaresAbove 10) :
    ∃ whole : Expr α, Grafted first second whole ∧ grammar.parse interner (a ++ "\n;\n" ++ b) =
      { middle.grammar.parse (α := α) middle.interner b with outcome := .ok whole } := by
  have longer : (a ++ "\n;\n" ++ b).toList = a.toList ++ '\n' :: ';' :: '\n' :: b.toList := by
    rw [String.toList_append, String.toList_append, List.append_assoc]
    rfl
  obtain ⟨t, r, followed, same, grounded', read, kind, known, place⟩ :=
    parse_up_to_separator standard grounded parsed above last longer
  rw [same] at left
  subst left
  have consumed : t.consume r = { t with cursor := r.cursor } := by
    unfold ParseState.consume
    rw [known]
  obtain ⟨next, head, whole, between, t', ahead, more, operand, rest, grafted, finished, same'⟩ :=
    parse_behind_separator (t := { t with cursor := r.cursor }) grounded' place parsed' above' first
  rw [← consumed] at ahead operand
  refine ⟨whole, grafted, ?_⟩
  have parsed : Direct.expression .standard 0 (grammar.start interner (a ++ "\n;\n" ++ b)) =
      .ok whole t' :=
    (followed.trans (Direct.extend_over_separator grounded'.separator read kind ahead more operand
      first)).trans rest
  obtain ⟨last, behind, ends, known'⟩ := finished.ahead .operator
  have program : grammar.parseDirect interner (a ++ "\n;\n" ++ b) =
      .ok whole (t'.consume last) := by
    refine parseDirect_ok.mpr ?_
    rw [standard]
    exact ⟨last.token, t', parsed, TokenSource.direct_next_ok.mpr ⟨last, behind, rfl, rfl⟩, ends⟩
  rw [parse_eq_direct, program, standard]
  change Parsed.mk _ _ last.interner = _
  rw [known', same']
  rfl

end Grammar

end IntervalCalc

import IntervalCalc.Proofs.Lexing.Renaming
import IntervalCalc.Proofs.Parsing.History
import IntervalCalc.Proofs.Parsing.Steps

/-!
Parses under two interners. The parser asks of symbols only their names, so two parses of one text
take the same course: they give corresponding expressions or the same error, and declare the same
operators. The symbols that are known to correspond are the world of the parses. It grows with
every name that is read, and what corresponded before still does.
-/

namespace IntervalCalc

variable {α β γ : Type} {W W' : Symbol → Symbol → Prop}

/-- Two parses of one text at the same place, for which the symbols of `W` correspond. -/
structure ParseState.Renamed (W : Symbol → Symbol → Prop) (s t : ParseState) : Prop where
  knows {a b : Symbol} : W a b → s.interner.Namesakes t.interner a b
  cursor : s.cursor = t.cursor
  operators : s.operators.Renamed (s.interner.Namesakes t.interner) t.operators
  left : s.interner.Distinct
  right : t.interner.Distinct

namespace ParseState.Renamed

variable {s t : ParseState}

theorem weaken (less : ∀ a b, W a b → W' a b) (h : s.Renamed W' t) : s.Renamed W t :=
  ⟨fun known => h.knows (less _ _ known), h.cursor, h.operators, h.left, h.right⟩

/-- All symbols that are namesakes may be in the world. -/
theorem widen (h : s.Renamed W t) : s.Renamed (s.interner.Namesakes t.interner) t :=
  ⟨id, h.cursor, h.operators, h.left, h.right⟩

theorem move (h : s.Renamed W t) {I J : Interner} (onward : s.interner.Onward t.interner I J)
    (cursor : Cursor) :
    ParseState.Renamed W ⟨s.operators, I, cursor⟩ ⟨t.operators, J, cursor⟩ where
  knows known := onward.namesakes (h.knows known)
  cursor := rfl
  operators := h.operators.mono fun _ _ related => onward.namesakes related
  left := onward.left h.left
  right := onward.right h.right

theorem declare (h : s.Renamed W t) (name : String) (fixity : Fixity) (power : Power) :
    (s.declare name fixity power).Renamed W (t.declare name fixity power) := by
  have onward := Interner.Onward.intern s.interner t.interner name
  have head := Interner.Namesakes.interned s.interner t.interner name
  have moved := h.move onward s.cursor
  refine ⟨moved.knows, h.cursor, moved.operators.insert name ?_, moved.left, moved.right⟩
  cases fixity with
  | prefixed => exact ⟨rfl, .some (.apply power head), .none⟩
  | infixed => exact ⟨rfl, .none, .some (.apply head)⟩

variable [Scalar α] [Numeral α]

theorem ahead (h : s.Renamed W t) (lexer : Lexer) (position : Position) :
    Except.Related (Lexer.Reading.Renamed (α := α) s.interner t.interner)
      (s.ahead lexer position) (t.ahead lexer position) := by
  unfold ParseState.ahead
  rw [← h.operators.keys, ← h.cursor]
  exact Lexer.next_renamed position _ s.interner t.interner lexer s.cursor

end ParseState.Renamed

/-- From corresponding states two steps end with related values or the same error, and leave
corresponding states. Values may have symbols that were read in these steps. -/
def ParseM.Renamed (W : Symbol → Symbol → Prop) (V : (Symbol → Symbol → Prop) → β → γ → Prop)
    (x : ParseM ParseState β) (y : ParseM ParseState γ) : Prop :=
  ∀ s t, s.Renamed W t → AgreeOn
    (fun value other s' t' =>
      s'.Renamed W t' ∧ V (s'.interner.Namesakes t'.interner) value other)
    (ParseState.Renamed W) (x s) (y t)

namespace ParseM.Renamed

variable {V : (Symbol → Symbol → Prop) → β → γ → Prop}
variable {x : ParseM ParseState β} {y : ParseM ParseState γ}

theorem pure {value : β} {other : γ} (h : ∀ W', (∀ a b, W a b → W' a b) → V W' value other) :
    ParseM.Renamed W V (Pure.pure value) (Pure.pure other) :=
  fun _ _ related => ⟨related, h _ fun _ _ known => related.knows known⟩

theorem same (value : β) :
    ParseM.Renamed W (fun _ => Eq) (Pure.pure value) (Pure.pure value) :=
  .pure fun _ _ => rfl

theorem expr {left right : Expr α} (h : left.Renamed W right) :
    ParseM.Renamed W Expr.Renamed (Pure.pure left) (Pure.pure right) :=
  .pure fun _ more => h.mono more

theorem throw (error : SyntaxError) :
    ParseM.Renamed W V (MonadExcept.throw error) (MonadExcept.throw error) :=
  fun _ _ related => ⟨rfl, related⟩

/-- What corresponds has the same names. -/
theorem of_names (h : (∀ a b, W a b → a.name = b.name) → ParseM.Renamed W V x y) :
    ParseM.Renamed W V x y :=
  fun s t related => h (fun _ _ known => (related.knows known).name) s t related

variable {β' γ' : Type} {V' : (Symbol → Symbol → Prop) → β' → γ' → Prop}

/-- What follows has to be alike in every later world. -/
theorem bind {f : β → ParseM ParseState β'} {g : γ → ParseM ParseState γ'}
    (h : ParseM.Renamed W V x y) (h' : ∀ W', (∀ a b, W a b → W' a b) → ∀ value other,
      V W' value other → ParseM.Renamed W' V' (f value) (g other)) :
    ParseM.Renamed W V' (x >>= f) (y >>= g) := by
  intro s t related
  refine (h s t related).bind fun value other s' t' both => ?_
  obtain ⟨later, values⟩ := both
  -- what follows runs in the world of all symbols that are namesakes by now
  have grows : ∀ a b, W a b → s'.interner.Namesakes t'.interner a b :=
    fun _ _ known => later.knows known
  have rest := h' _ grows value other values s' t' later.widen
  exact rest.imp (fun _ _ _ _ both => ⟨both.1.weaken grows, both.2⟩)
    fun _ _ failed => failed.weaken grows

/-- Behind a value without symbols the world is still good for what follows. -/
theorem bind_same {y : ParseM ParseState β} {f : β → ParseM ParseState β'}
    {g : β → ParseM ParseState γ'} (h : ParseM.Renamed W (fun _ => Eq) x y)
    (h' : ∀ value, ParseM.Renamed W V' (f value) (g value)) :
    ParseM.Renamed W V' (x >>= f) (y >>= g) := by
  intro s t related
  refine (h s t related).bind fun value other s' t' both => ?_
  obtain ⟨later, rfl⟩ := both
  exact h' value s' t' later

end ParseM.Renamed

namespace Token.Renamed

variable {token other : Token α}

theorem isOperator (h : token.Renamed W other) (name : String) :
    Parser.isOperator token name = Parser.isOperator other name := by
  obtain ⟨kind, location⟩ := token
  obtain ⟨kind', location'⟩ := other
  cases h.kind <;> rfl

theorem isEnd (h : token.Renamed W other) : Parser.isEnd token = Parser.isEnd other := by
  obtain ⟨kind, location⟩ := token
  obtain ⟨kind', location'⟩ := other
  cases h.kind <;> rfl

end Token.Renamed

namespace Parser

variable [Scalar α] [Numeral α] {lexer : Lexer}

theorem next_renamed (position : Position) : ParseM.Renamed W Token.Renamed
    ((TokenSource.direct (α := α) lexer).next position)
    ((TokenSource.direct (α := α) lexer).next position) := by
  intro s t related
  have read := related.ahead (α := α) lexer position
  unfold TokenSource.direct
  dsimp only
  generalize s.ahead (α := α) lexer position = found at read ⊢
  generalize t.ahead (α := α) lexer position = found' at read ⊢
  cases read with
  | error error => exact ⟨rfl, related⟩
  | @ok r r' reading =>
      have moved := related.move reading.onward r.cursor
      refine ⟨?_, reading.token⟩
      unfold ParseState.consume
      rw [← reading.cursor]
      exact moved

theorem peek_renamed (position : Position) : ParseM.Renamed W Token.Renamed
    ((TokenSource.direct (α := α) lexer).peek position)
    ((TokenSource.direct (α := α) lexer).peek position) := by
  intro s t related
  have read := related.ahead (α := α) lexer position
  unfold TokenSource.direct
  dsimp only
  generalize s.ahead (α := α) lexer position = found at read ⊢
  generalize t.ahead (α := α) lexer position = found' at read ⊢
  cases read with
  | error error => exact ⟨rfl, related⟩
  | @ok r r' reading =>
      have moved := related.move reading.onward s.cursor
      exact ⟨⟨moved.knows, related.cursor, moved.operators, moved.left, moved.right⟩,
        reading.token⟩

theorem operator?_renamed (name : String) :
    ParseM.Renamed W (fun W' => Option.Rel (Operator.Renamed W'))
      (operator? (TokenSource.direct (α := α) lexer) name)
      (operator? (TokenSource.direct (α := α) lexer) name) :=
  fun _ _ related => ⟨related, related.operators.find? name⟩

theorem skipIf_renamed (name : String) : ParseM.Renamed W (fun _ => Eq)
    (skipIf (TokenSource.direct (α := α) lexer) name)
    (skipIf (TokenSource.direct (α := α) lexer) name) := by
  refine (peek_renamed .operator).bind fun W' more token other related => ?_
  rw [related.isOperator]
  split
  · exact (next_renamed .operator).bind fun _ _ _ _ _ => .same true
  · exact .same false

theorem leftPower_renamed : ParseM.Renamed W (fun _ => Eq)
    (leftPower (TokenSource.direct (α := α) lexer))
    (leftPower (TokenSource.direct (α := α) lexer)) := by
  refine (peek_renamed .operator).bind fun W' more token other related => ?_
  obtain ⟨kind, location⟩ := token
  obtain ⟨kind', location'⟩ := other
  cases related.kind with
  | operator name =>
      refine (operator?_renamed name).bind fun _ _ found found' both => ?_
      cases both with
      | none => exact .same 0
      | some operators => exact .pure fun _ _ => operators.leftPower
  | literal _ => exact .same 0
  | endOfInput => exact .same 0

theorem endsProgram_renamed (op : BinaryOp) : ParseM.Renamed W (fun _ => Eq)
    (endsProgram (TokenSource.direct (α := α) lexer) op)
    (endsProgram (TokenSource.direct (α := α) lexer) op) := by
  unfold endsProgram
  split
  · exact (peek_renamed .operand).bind fun _ _ _ _ related => .pure fun _ _ => related.isEnd
  · exact .same false

omit [Scalar α] in
theorem unexpected_renamed {V : (Symbol → Symbol → Prop) → β → γ → Prop} {token other : Token α}
    (h : token.Renamed W other) :
    ParseM.Renamed W V (unexpected token) (unexpected other) := by
  refine .of_names fun names => ?_
  obtain ⟨kind, location⟩ := token
  obtain ⟨kind', location'⟩ := other
  obtain ⟨kinds, rfl⟩ := h
  have text := kinds.text names
  cases kinds with
  | operator name => exact .throw _
  | endOfInput => exact .throw _
  | literal value =>
      unfold unexpected
      dsimp only at text ⊢
      rw [text]
      exact .throw _

omit [Scalar α] in
theorem invalidOperand_renamed {V : (Symbol → Symbol → Prop) → β → γ → Prop} {x y : Expr α}
    (h : x.Renamed W y) (role : OperandRole) (location : Location) :
    ParseM.Renamed W V (invalidOperand role x.text location)
      (invalidOperand role y.text location) := by
  refine .of_names fun names => ?_
  rw [h.text names]
  exact .throw _

theorem expect_renamed (name : String) : ParseM.Renamed W (fun _ => Eq)
    (expect (TokenSource.direct (α := α) lexer) name)
    (expect (TokenSource.direct (α := α) lexer) name) := by
  refine (next_renamed .operator).bind fun W' more token other related => ?_
  refine .of_names fun names => ?_
  rw [related.isOperator, related.kind.text names, related.location]
  split
  · exact .same ()
  · exact .throw _

omit [Scalar α] in
theorem parameters_renamed (location : Location) {xs ys : List (Expr α)}
    (h : List.Forall₂ (Expr.Renamed W) xs ys) : ParseM.Renamed W (fun W' => List.Forall₂ W')
      (parameters location xs) (parameters location ys) := by
  induction h with
  | nil => exact .pure fun _ _ => .nil
  | cons first _ ih =>
      have fails := invalidOperand_renamed (V := fun W' => List.Forall₂ W') first .parameter
        location
      cases first with
      | symbol h =>
          refine ih.bind fun W' more rest others related => .pure fun W'' more' => ?_
          exact .cons (more' _ _ (more _ _ h)) (related.imp more')
      | _ => exact fails

omit [Scalar α] in
theorem declaredName_renamed {token other : Token α} (h : token.Renamed W other) :
    ParseM.Renamed W (fun _ => Eq) (declaredName token) (declaredName other) := by
  refine .of_names fun names => ?_
  obtain ⟨kind, location⟩ := token
  obtain ⟨kind', location'⟩ := other
  obtain ⟨kinds, rfl⟩ := h
  cases kinds with
  | operator name =>
      unfold declaredName
      dsimp only
      split
      · exact .same name
      · exact .throw _
  | endOfInput => exact .throw _
  | literal value =>
      have fails := invalidOperand_renamed (V := fun _ => Eq (α := String)) value .operatorName
        location
      cases value with
      | symbol h => exact .pure fun _ _ => names _ _ h
      | _ => exact fails

theorem declare_renamed (name : String) (fixity : Fixity) (power : Power) :
    ParseM.Renamed W (fun _ => Eq) ((TokenSource.direct (α := α) lexer).declare name fixity power)
      ((TokenSource.direct (α := α) lexer).declare name fixity power) :=
  fun _ _ related => ⟨related.declare name fixity power, rfl⟩

variable {e : Power → ParseM ParseState (Expr α)}
variable (inner : ∀ W power, ParseM.Renamed W Expr.Renamed (e power) (e power))

include inner

theorem arguments_renamed (closing : String) (steps : Nat) :
    ParseM.Renamed W (fun W' => List.Forall₂ (Expr.Renamed W'))
      (arguments (.direct lexer) e closing steps) (arguments (.direct lexer) e closing steps) := by
  induction steps generalizing W with
  | zero => exact (next_renamed .operand).bind fun _ _ _ _ related => unexpected_renamed related
  | succ steps ih =>
      refine (inner W 0).bind fun W₁ _ first first' related => ?_
      refine (skipIf_renamed ",").bind_same fun more => ?_
      split
      · refine ih.bind fun W₂ grows rest rest' relateds => .pure fun W₃ grows' => ?_
        exact .cons ((related.mono grows).mono grows')
          (relateds.imp fun _ _ argument => argument.mono grows')
      · refine (expect_renamed closing).bind_same fun _ => .pure fun W₂ grows => ?_
        exact .cons (related.mono grows) .nil

theorem definition_renamed (location : Location) : ParseM.Renamed W Expr.Renamed
    (definition (.direct lexer) e location) (definition (.direct lexer) e location) := by
  refine (inner W 0).bind fun W₁ _ signature signature' related => ?_
  have fails := invalidOperand_renamed (V := Expr.Renamed (α := α)) related .functionSignature
    location
  cases related with
  | composite bracket head hs =>
      cases bracket with
      | round =>
          refine (parameters_renamed location hs).bind fun W₂ grows ps qs parameters => ?_
          refine (expect_renamed "is").bind_same fun _ => ?_
          refine (inner W₂ 0).bind fun W₃ grows' body body' bodies => ?_
          refine (expect_renamed "end").bind_same fun _ => ?_
          exact .expr (.function (grows' _ _ (grows _ _ head)) (parameters.imp grows') bodies)
      | _ => exact fails
  | _ => exact fails

theorem declaredPower_renamed : ParseM.Renamed W (fun _ => Eq)
    (declaredPower (.direct lexer) e) (declaredPower (.direct lexer) e) := by
  refine (peek_renamed .operand).bind fun W₁ _ token token' tokens => ?_
  refine (inner W₁ 1000).bind fun W₂ _ operand operand' related => ?_
  refine .of_names fun names => ?_
  have text := related.text names
  rw [tokens.location]
  cases related with
  | number x =>
      dsimp only
      split
      · exact .same _
      · exact .throw _
  | _ =>
      dsimp only
      rw [text]
      exact .throw _

theorem declaration_renamed (fixity : Fixity) : ParseM.Renamed W Expr.Renamed
    (declaration (.direct lexer) e fixity) (declaration (.direct lexer) e fixity) := by
  refine (next_renamed .operand).bind fun W₁ _ token token' tokens => ?_
  refine (declaredName_renamed tokens).bind_same fun name => ?_
  refine (declaredPower_renamed inner).bind_same fun power => ?_
  exact (declare_renamed name fixity power).bind_same fun _ => .expr (.number 0)

theorem applyPrefix_renamed (location : Location) {rule rule' : PrefixRule}
    (h : rule.Renamed W rule') : ParseM.Renamed W Expr.Renamed
      (applyPrefix (.direct lexer) e location rule)
      (applyPrefix (.direct lexer) e location rule') := by
  cases h with
  | apply power head =>
      exact (inner W power).bind fun _ grows _ _ related =>
        .expr (.composite .round (grows _ _ head) (.cons related .nil))
  | same none =>
      cases rule with
      | unary op power =>
          exact (inner W power).bind fun _ _ _ _ related => .expr (.unary op related)
      | apply head power => cases none
      | group closing =>
          exact (inner W 0).bind fun _ _ _ _ related =>
            (expect_renamed closing).bind_same fun _ => .expr related
      | branch =>
          refine (inner W 0).bind fun W₁ _ condition condition' first => ?_
          refine (expect_renamed "then").bind_same fun _ => ?_
          refine (inner W₁ 0).bind fun W₂ grows consequence consequence' second => ?_
          refine (expect_renamed "else").bind_same fun _ => ?_
          refine (inner W₂ 0).bind fun W₃ grows' alternative alternative' third => ?_
          refine (expect_renamed "end").bind_same fun _ => ?_
          exact .expr (.branch ((first.mono grows).mono grows') (second.mono grows') third)
      | function => exact definition_renamed inner location
      | declare fixity => exact declaration_renamed inner fixity

theorem prefixForm_renamed {token other : Token α} (h : token.Renamed W other) :
    ParseM.Renamed W Expr.Renamed (prefixForm (.direct lexer) e token)
      (prefixForm (.direct lexer) e other) := by
  have fails := unexpected_renamed (V := Expr.Renamed (α := α)) h
  obtain ⟨kind, location⟩ := token
  obtain ⟨kind', location'⟩ := other
  obtain ⟨kinds, rfl⟩ := h
  cases kinds with
  | literal value => exact .expr value
  | endOfInput => exact fails
  | operator name =>
      refine (operator?_renamed name).bind fun W' grows found found' both => ?_
      cases both with
      | none => exact unexpected_renamed ⟨.operator name, rfl⟩
      | @some operator operator' operators =>
          obtain ⟨power, rule, following⟩ := operator
          obtain ⟨power', rule', following'⟩ := operator'
          cases operators.prefixRule with
          | none => exact unexpected_renamed ⟨.operator name, rfl⟩
          | some rules => exact applyPrefix_renamed inner location rules

theorem applyInfix_renamed {list : String → ParseM ParseState (List (Expr α))}
    (listed : ∀ W closing, ParseM.Renamed W (fun W' => List.Forall₂ (Expr.Renamed W'))
      (list closing) (list closing))
    (location : Location) (power : Power) {left left' : Expr α} (operand : left.Renamed W left')
    {rule rule' : InfixRule} (h : rule.Renamed W rule') : ParseM.Renamed W Expr.Renamed
      (applyInfix (.direct lexer) list e location power left rule)
      (applyInfix (.direct lexer) list e location power left' rule') := by
  cases h with
  | apply head =>
      exact (inner W power).bind fun _ grows _ _ related =>
        .expr (.composite .round (grows _ _ head) (.cons (operand.mono grows) (.cons related .nil)))
  | same none =>
      cases rule with
      | binary op rightAssociative =>
          refine (endsProgram_renamed op).bind_same fun ends => ?_
          split
          · exact .expr operand
          · exact (inner W _).bind fun _ grows _ _ related =>
              .expr (.binary op (operand.mono grows) related)
      | postfixed op => exact .expr (.unary op operand)
      | apply head => cases none
      | composite closing bracket =>
          have fails := invalidOperand_renamed (V := Expr.Renamed (α := α)) operand .compositeHead
            location
          cases operand with
          | symbol head =>
              refine (skipIf_renamed closing).bind_same fun empty => ?_
              split
              · exact .expr (.composite bracket head .nil)
              · exact (listed _ closing).bind fun _ grows _ _ related =>
                  .expr (.composite bracket (grows _ _ head) related)
          | _ => exact fails
      | branch =>
          refine (inner W 0).bind fun W₁ grows condition condition' first => ?_
          refine (expect_renamed "else").bind_same fun _ => ?_
          refine (inner W₁ power).bind fun W₂ grows' alternative alternative' second => ?_
          exact .expr (.branch (first.mono grows') ((operand.mono grows).mono grows') second)

theorem infixForm_renamed (steps : Nat) {token other : Token α} (h : token.Renamed W other)
    {left left' : Expr α} (operand : left.Renamed W left') :
    ParseM.Renamed W Expr.Renamed
      (infixForm (.direct lexer) (arguments (.direct lexer) e · steps) e token left)
      (infixForm (.direct lexer) (arguments (.direct lexer) e · steps) e other left') := by
  have fails := unexpected_renamed (V := Expr.Renamed (α := α)) h
  obtain ⟨kind, location⟩ := token
  obtain ⟨kind', location'⟩ := other
  obtain ⟨kinds, rfl⟩ := h
  cases kinds with
  | literal value => exact fails
  | endOfInput => exact fails
  | operator name =>
      refine (operator?_renamed name).bind fun W' grows found found' both => ?_
      cases both with
      | none => exact unexpected_renamed ⟨.operator name, rfl⟩
      | @some operator operator' operators =>
          obtain ⟨power, standing, rule⟩ := operator
          obtain ⟨power', standing', rule'⟩ := operator'
          obtain rfl : power = power' := operators.leftPower
          cases operators.infixRule with
          | none => exact unexpected_renamed ⟨.operator name, rfl⟩
          | some rules =>
              exact applyInfix_renamed inner (fun _ closing => arguments_renamed inner closing steps)
                location power (operand.mono grows) rules

omit inner

/-- Both functions of the recursion at once, since each calls the other with fewer steps. -/
theorem expression_and_extend_renamed (lexer : Lexer) (steps : Nat) :
    (∀ W power, ParseM.Renamed W Expr.Renamed (expression (.direct (α := α) lexer) steps power)
        (expression (.direct lexer) steps power)) ∧
      ∀ W power (left left' : Expr α), left.Renamed W left' → ParseM.Renamed W Expr.Renamed
        (extend (.direct lexer) steps power left) (extend (.direct lexer) steps power left') := by
  induction steps with
  | zero =>
      constructor
      · intro W power
        exact (next_renamed .operand).bind fun _ _ _ _ related => unexpected_renamed related
      · intro W power left left' operand
        refine leftPower_renamed.bind_same fun found => ?_
        split
        · exact (next_renamed .operator).bind fun _ _ _ _ related => unexpected_renamed related
        · exact .expr operand
  | succ steps ih =>
      obtain ⟨inner, later⟩ := ih
      constructor
      · intro W power
        refine (next_renamed .operand).bind fun W₁ _ token token' tokens => ?_
        exact (prefixForm_renamed inner tokens).bind fun W₂ _ left left' =>
          later W₂ power left left'
      · intro W power left left' operand
        refine leftPower_renamed.bind_same fun found => ?_
        split
        · refine (next_renamed .operator).bind fun W₁ grows token token' tokens => ?_
          refine (infixForm_renamed inner steps tokens (operand.mono grows)).bind ?_
          exact fun W₂ _ left left' => later W₂ power left left'
        · exact .expr operand

theorem program_renamed (lexer : Lexer) (steps : Nat) : ParseM.Renamed W Expr.Renamed
    (program (.direct (α := α) lexer) steps) (program (.direct lexer) steps) := by
  refine ((expression_and_extend_renamed lexer steps).1 W 0).bind ?_
  intro W₁ _ result result' related
  refine (next_renamed .operator).bind fun W₂ grows token token' tokens => ?_
  rw [tokens.isEnd]
  split
  · exact .expr (related.mono grows)
  · exact unexpected_renamed tokens

end Parser

namespace Grammar

/-- What two parses of one text come to, that began with two interners. -/
structure Parsed.Renamed (I J : Interner) (parsed other : Parsed α) : Prop where
  outcome : Except.Related (Expr.Renamed (parsed.interner.Namesakes other.interner))
    parsed.outcome other.outcome
  lexer : parsed.grammar.lexer = other.grammar.lexer
  operators : parsed.grammar.operators.Renamed (parsed.interner.Namesakes other.interner)
    other.grammar.operators
  onward : I.Onward J parsed.interner other.interner

variable [Scalar α] [Numeral α] {grammar other : Grammar} {I J : Interner}

/-- Grammars that differ in the handles of heads make corresponding expressions of a text. -/
theorem parse_renamed (lexers : grammar.lexer = other.lexer)
    (operators : grammar.operators.Renamed (I.Namesakes J) other.operators)
    (left : I.Distinct) (right : J.Distinct) (source : String) :
    (grammar.parse (α := α) I source).Renamed I J (other.parse J source) := by
  have start : ParseState.Renamed (I.Namesakes J) (grammar.start I source) (other.start J source) :=
    ⟨id, rfl, operators, left, right⟩
  have agree := Parser.program_renamed (α := α) grammar.lexer (Parser.stepsFor source.toList) _ _ start
  rw [parse_eq_direct, parse_eq_direct]
  unfold parseDirect
  rw [← lexers]
  generalize Parser.program (TokenSource.direct (α := α) grammar.lexer)
    (Parser.stepsFor source.toList) (grammar.start I source) = found at agree ⊢
  generalize Parser.program (TokenSource.direct (α := α) grammar.lexer)
    (Parser.stepsFor source.toList) (other.start J source) = found' at agree ⊢
  have onward {s t : ParseState} (h : s.Renamed (I.Namesakes J) t) :
      I.Onward J s.interner t.interner := ⟨h.knows, fun _ => h.left, fun _ => h.right⟩
  cases found with
  | ok result s =>
      cases found' with
      | ok result' t => exact ⟨.ok agree.2, rfl, agree.1.operators, onward agree.1⟩
      | error error t => exact agree.elim
  | error error s =>
      cases found' with
      | ok result t => exact agree.elim
      | error error' t =>
          obtain ⟨rfl, related⟩ := agree
          exact ⟨.error error, rfl, related.operators, onward related⟩

/-- A parse adds names and forgets none, whatever the grammar. -/
theorem parse_onward (grammar : Grammar) (I : Interner) (source : String) :
    I.Onward I (grammar.parse (α := α) I source).interner
      (grammar.parse (α := α) I source).interner := by
  have preserves : (TokenSource.direct (α := α) grammar.lexer).Simulates (.direct grammar.lexer)
      fun s t => s = t ∧ I.Onward I s.interner s.interner := by
    refine TokenSource.direct_preserves (fun before read => ?_) (fun before read => ?_)
      fun before _ => ?_
    · exact before.trans (Lexer.next_onward read)
    · exact before.trans (Lexer.next_onward read)
    · exact before.trans (.intern _ _ _)
  have agree := preserves.program (Parser.stepsFor source.toList) (grammar.start I source)
    (grammar.start I source) ⟨rfl, .refl⟩
  rw [parse_interner]
  exact agree.stateAfter.2

end Grammar

end IntervalCalc

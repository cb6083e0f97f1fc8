import IntervalCalc.Proofs.Parsing.Parallel

/-!
The grammar of programs without declarations. It is ambiguous, and says nothing of binding powers:
which of its derivations is taken is the parser's business. What it accepts is well bracketed.
-/

namespace IntervalCalc

variable {α : Type}

/-- The names of all brackets. -/
def bracketNames : List String :=
  [Bracket.round, .square, .curly].flatMap fun bracket => [bracket.opening, bracket.closing]

/-- The rules that standard operators have where an expression begins. -/
def PrefixRule.Proper (name : String) : PrefixRule → Prop
  | .unary _ _ => name ∉ bracketNames
  | .apply _ _ => False
  | .group closing => ∃ bracket ∈ [Bracket.round, .square, .curly],
      name = bracket.opening ∧ closing = bracket.closing
  | .branch => name = "if"
  | .function => name = "fun"
  | .declare _ => True

/-- The rules that standard operators have behind an operand. -/
def InfixRule.Proper (name : String) : InfixRule → Prop
  | .binary _ _ => name ∉ bracketNames
  | .postfixed _ => name ∉ bracketNames
  | .apply _ => False
  | .composite closing bracket => name = bracket.opening ∧ closing = bracket.closing
  | .branch => name = "if"

instance (name : String) (rule : PrefixRule) : Decidable (rule.Proper name) := by
  cases rule <;> unfold PrefixRule.Proper <;> infer_instance

instance (name : String) (rule : InfixRule) : Decidable (rule.Proper name) := by
  cases rule <;> unfold InfixRule.Proper <;> infer_instance

namespace OperatorTable

variable {name : String} {operator : Operator}

theorem standard_prefixRule (known : standard.find? name = some operator) {rule : PrefixRule}
    (holds : operator.prefixRule = some rule) : rule.Proper name := by
  have all : ∀ entry ∈ standard.entries, ∀ rule ∈ entry.2.prefixRule, rule.Proper entry.1 := by
    decide
  exact all _ (OrderedMap.mem_of_find? known) rule holds

theorem standard_infixRule (known : standard.find? name = some operator) {rule : InfixRule}
    (holds : operator.infixRule = some rule) : rule.Proper name := by
  have all : ∀ entry ∈ standard.entries, ∀ rule ∈ entry.2.infixRule, rule.Proper entry.1 := by
    decide
  exact all _ (OrderedMap.mem_of_find? known) rule holds

end OperatorTable

/-- The rule of a standard operator where an expression begins. -/
def standardPrefix? (name : String) : Option PrefixRule :=
  (OperatorTable.standard.find? name).bind (·.prefixRule)

/-- The rule of a standard operator behind an operand. -/
def standardInfix? (name : String) : Option InfixRule :=
  (OperatorTable.standard.find? name).bind (·.infixRule)

theorem standardPrefix?_proper {name : String} {rule : PrefixRule}
    (holds : standardPrefix? name = some rule) : rule.Proper name := by
  obtain ⟨operator, known, holds⟩ := Option.bind_eq_some_iff.mp holds
  exact OperatorTable.standard_prefixRule known holds

theorem standardInfix?_proper {name : String} {rule : InfixRule}
    (holds : standardInfix? name = some rule) : rule.Proper name := by
  obtain ⟨operator, known, holds⟩ := Option.bind_eq_some_iff.mp holds
  exact OperatorTable.standard_infixRule known holds

/-- What the arguments of a composite are spelled with. -/
def separated : List (List (TokenKind α) × Expr α) → List (TokenKind α)
  | [] => []
  | [argument] => argument.1
  | argument :: next :: rest => argument.1 ++ .operator "," :: separated (next :: rest)

/-- The words that an expression may be spelled with. -/
inductive Derives : List (TokenKind α) → Expr α → Prop
  | literal (value : Expr α) : Derives [.literal value] value
  | prefixed {name : String} {op : UnaryOp} {power : Power} {words : List (TokenKind α)}
      {operand : Expr α} : standardPrefix? name = some (.unary op power) → Derives words operand →
      Derives (.operator name :: words) (.unary op operand)
  | infixed {name : String} {op : BinaryOp} {rightAssociative : Bool}
      {words words' : List (TokenKind α)} {left right : Expr α} :
      standardInfix? name = some (.binary op rightAssociative) → Derives words left →
      Derives words' right → Derives (words ++ .operator name :: words') (.binary op left right)
  | postfixed {name : String} {op : UnaryOp} {words : List (TokenKind α)} {operand : Expr α} :
      standardInfix? name = some (.postfixed op) → Derives words operand →
      Derives (words ++ [.operator name]) (.unary op operand)
  | group (bracket : Bracket) {words : List (TokenKind α)} {inner : Expr α} : Derives words inner →
      Derives (.operator bracket.opening :: (words ++ [.operator bracket.closing])) inner
  | composite (bracket : Bracket) {words : List (TokenKind α)} {head : Symbol}
      {arguments : List (List (TokenKind α) × Expr α)} : Derives words (.symbol head) →
      (∀ argument ∈ arguments, Derives argument.1 argument.2) →
      Derives (words ++ .operator bracket.opening ::
        (separated arguments ++ [.operator bracket.closing]))
        (.composite head (arguments.map Prod.snd) bracket)
  | branch {condition consequence alternative : List (TokenKind α)} {c e a : Expr α} :
      Derives condition c → Derives consequence e → Derives alternative a →
      Derives (.operator "if" :: (condition ++ .operator "then" :: (consequence ++
        .operator "else" :: (alternative ++ [.operator "end"])))) (.branch c e a)
  | conditional {condition consequence alternative : List (TokenKind α)} {c e a : Expr α} :
      Derives consequence e → Derives condition c → Derives alternative a →
      Derives (consequence ++ .operator "if" :: (condition ++ .operator "else" :: alternative))
        (.branch c e a)
  | function {signature words : List (TokenKind α)} {head : Symbol} {parameters : List Symbol}
      {body : Expr α} : Derives signature (.composite head (parameters.map .symbol) .round) →
      Derives words body →
      Derives (.operator "fun" :: (signature ++ .operator "is" :: (words ++ [.operator "end"])))
        (.function head parameters body)

/-- The brackets that are open behind a word, the innermost first. None are if the word closes
another bracket than the innermost. -/
def bracketStep (open_ : List Bracket) (word : TokenKind α) : Option (List Bracket) :=
  match word with
  | .operator name =>
    match [Bracket.round, .square, .curly].find? (·.opening == name) with
    | some bracket => some (bracket :: open_)
    | none =>
      match [Bracket.round, .square, .curly].find? (·.closing == name) with
      | some bracket => if open_.head? = some bracket then some open_.tail else none
      | none => some open_
  | _ => some open_

/-- Every bracket is closed by its own closer. -/
def WellBracketed (words : List (TokenKind α)) : Prop :=
  words.foldlM bracketStep [] = some []

/-- Words that leave open what was open. -/
def Balanced (words : List (TokenKind α)) : Prop :=
  ∀ open_, words.foldlM bracketStep open_ = some open_

namespace Balanced

variable {words words' : List (TokenKind α)}

theorem nil : Balanced ([] : List (TokenKind α)) :=
  fun _ => rfl

theorem append (h : Balanced words) (h' : Balanced words') : Balanced (words ++ words') := by
  intro open_
  rw [List.foldlM_append, h open_]
  exact h' open_

theorem literal (value : Expr α) : Balanced [.literal value] :=
  fun _ => rfl

theorem operator {name : String} (plain : name ∉ bracketNames) :
    Balanced [(.operator name : TokenKind α)] := by
  intro open_
  have apart : name ≠ "(" ∧ name ≠ ")" ∧ name ≠ "[" ∧ name ≠ "]" ∧ name ≠ "\x7b" ∧ name ≠ "\x7d" := by
    simpa [bracketNames, Bracket.opening, Bracket.closing] using plain
  obtain ⟨h, h', hs, hs', hc, hc'⟩ := apart
  have step : bracketStep open_ (.operator name : TokenKind α) = some open_ := by
    simp [bracketStep, Bracket.opening, Bracket.closing, Ne.symm h, Ne.symm h', Ne.symm hs,
      Ne.symm hs', Ne.symm hc, Ne.symm hc']
  rw [List.foldlM_cons, step]
  rfl

theorem cons {name : String} (plain : name ∉ bracketNames) (h : Balanced words) :
    Balanced (.operator name :: words) :=
  (operator plain).append h

theorem enclosed (bracket : Bracket) (h : Balanced words) :
    Balanced (.operator bracket.opening :: (words ++ [.operator bracket.closing])) := by
  intro open_
  have opens : bracketStep open_ (.operator bracket.opening : TokenKind α) =
      some (bracket :: open_) := by cases bracket <;> rfl
  have closes : bracketStep (bracket :: open_) (.operator bracket.closing : TokenKind α) =
      some open_ := by cases bracket <;> rfl
  rw [List.foldlM_cons, opens]
  change List.foldlM bracketStep (bracket :: open_)
    (words ++ [(.operator bracket.closing : TokenKind α)]) = _
  rw [List.foldlM_append, h]
  change List.foldlM bracketStep (bracket :: open_) [(.operator bracket.closing : TokenKind α)] = _
  rw [List.foldlM_cons, closes]
  rfl

theorem separated {arguments : List (List (TokenKind α) × Expr α)}
    (h : ∀ argument ∈ arguments, Balanced argument.1) : Balanced (separated arguments) := by
  fun_induction IntervalCalc.separated arguments with
  | case1 => exact nil
  | case2 argument => exact h argument List.mem_cons_self
  | case3 argument next rest ih =>
      rw [List.forall_mem_cons] at h
      exact h.1.append (.cons (by decide) (ih h.2))

end Balanced

/-- Derivations are well bracketed. -/
theorem Derives.balanced {words : List (TokenKind α)} {value : Expr α} (h : Derives words value) :
    Balanced words := by
  induction h with
  | literal value => exact .literal value
  | prefixed holds _ ih => exact .cons (standardPrefix?_proper holds) ih
  | infixed holds _ _ left right => exact left.append (.cons (standardInfix?_proper holds) right)
  | postfixed holds _ ih => exact ih.append (.operator (standardInfix?_proper holds))
  | group bracket _ ih => exact .enclosed bracket ih
  | composite bracket _ _ head arguments =>
      exact head.append (.enclosed bracket (.separated arguments))
  | branch _ _ _ condition consequence alternative =>
      refine .cons (by decide) (condition.append (.cons (by decide) (consequence.append ?_)))
      exact .cons (by decide) (alternative.append (.operator (by decide)))
  | conditional _ _ _ consequence condition alternative =>
      exact consequence.append (.cons (by decide) (condition.append (.cons (by decide) alternative)))
  | function _ _ signature body =>
      refine .cons (by decide) (signature.append (.cons (by decide) (body.append ?_)))
      exact .operator (by decide)

end IntervalCalc

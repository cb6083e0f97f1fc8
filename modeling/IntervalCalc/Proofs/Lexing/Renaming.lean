import IntervalCalc.Lexing.Lexer
import IntervalCalc.Proofs.Agreement
import IntervalCalc.Proofs.Renaming

/-!
Tokens under two interners. What is read does not depend on the names seen before, but for the
handles of the symbols, and both interners see the same new names.
-/

namespace IntervalCalc

variable {α : Type} {R : Symbol → Symbol → Prop}

inductive TokenKind.Renamed (R : Symbol → Symbol → Prop) : TokenKind α → TokenKind α → Prop
  | operator (name : String) : Renamed R (.operator name) (.operator name)
  | literal {x y : Expr α} : x.Renamed R y → Renamed R (.literal x) (.literal y)
  | endOfInput : Renamed R .endOfInput .endOfInput

structure Token.Renamed (R : Symbol → Symbol → Prop) (token other : Token α) : Prop where
  kind : token.kind.Renamed R other.kind
  location : token.location = other.location

theorem TokenKind.Renamed.text [Numeral α] (names : ∀ a b, R a b → a.name = b.name)
    {kind other : TokenKind α} (h : kind.Renamed R other) : kind.text = other.text := by
  cases h with
  | operator name => rfl
  | literal h => exact h.text names
  | endOfInput => rfl

/-- What a recognizer makes of a text with two interners. -/
inductive Scan.Renamed (I J : Interner) : Scan α → Scan α → Prop
  | declined : Renamed I J .declined .declined
  | blank (after : Cursor) : Renamed I J (.blank after) (.blank after)
  | token {kind other : TokenKind α} {I' J' : Interner} (after : Cursor) :
      I.Onward J I' J' → kind.Renamed (I'.Namesakes J') other →
      Renamed I J (.token kind after I') (.token other after J')

variable [Scalar α] [Numeral α] {I J : Interner}

namespace Recognizer

variable (position : Position) (vocabulary : Vocabulary) (I J : Interner) (cursor : Cursor)

theorem scanInterval_renamed : Except.Related (Scan.Renamed (α := α) I J)
    (scanInterval I cursor) (scanInterval J cursor) := by
  unfold scanInterval
  split
  · refine .bind fun low => ?_
    dsimp only
    split
    · refine .bind fun high => ?_
      split
      · split
        · exact .error _
        · exact .ok (.token _ .refl (.literal (.interval _)))
      · exact .error _
    · exact .error _
  · exact .ok .declined

omit [Scalar α] [Numeral α] in
/-- A new name is new to both, and gets a handle from both. -/
theorem scanName_renamed : Scan.Renamed (α := α) I J (scanName vocabulary I cursor)
    (scanName vocabulary J cursor) := by
  unfold scanName
  split
  · exact .declined
  · dsimp only
    split
    · exact .token _ .refl (.operator _)
    · exact .token _ (.intern I J _) (.literal (.symbol (.interned I J _)))

theorem scanNumber_renamed : Scan.Renamed (α := α) I J (scanNumber position I cursor)
    (scanNumber position J cursor) := by
  unfold scanNumber
  dsimp only
  split
  · split
    · exact .declined
    · exact .token _ .refl (.literal (.number _))
  · split
    · exact .declined
    · exact .token _ .refl (.literal (.number _))

theorem scan_renamed (recognizer : Recognizer) : Except.Related (Scan.Renamed (α := α) I J)
    (recognizer.scan position vocabulary I cursor)
    (recognizer.scan position vocabulary J cursor) := by
  cases recognizer with
  | interval => exact scanInterval_renamed I J cursor
  | name => exact .ok (scanName_renamed vocabulary I J cursor)
  | number => exact .ok (scanNumber_renamed position I J cursor)
  | operator =>
      refine .ok ?_
      unfold scanOperator
      split
      · exact .declined
      · exact .token _ .refl (.operator _)
  | whitespace =>
      refine .ok ?_
      unfold scanBlank
      split
      · exact .declined
      · exact .blank _

end Recognizer

namespace Lexer

/-- What is read with two interners: corresponding tokens that end at the same place. -/
structure Reading.Renamed (I J : Interner) (r r' : Reading α) : Prop where
  token : r.token.Renamed (r.interner.Namesakes r'.interner) r'.token
  cursor : r.cursor = r'.cursor
  onward : I.Onward J r.interner r'.interner

variable (position : Position) (vocabulary : Vocabulary) (I J : Interner)

theorem firstScan_renamed (cursor : Cursor) (rules : List LexerRule) :
    Except.Related (Scan.Renamed (α := α) I J) (firstScan position vocabulary I cursor rules)
      (firstScan position vocabulary J cursor rules) := by
  induction rules with
  | nil => exact .ok .declined
  | cons rule rules ih =>
      have scanned := Recognizer.scan_renamed (α := α) position vocabulary I J cursor
        rule.recognizer
      unfold firstScan
      generalize rule.recognizer.scan (α := α) position vocabulary I cursor = found at scanned ⊢
      generalize rule.recognizer.scan (α := α) position vocabulary J cursor = found' at scanned ⊢
      cases scanned with
      | error error => exact .error error
      | ok related =>
          cases related with
          | declined => exact ih
          | blank after => exact .ok (.blank after)
          | token after onward kind => exact .ok (.token after onward kind)

theorem nextOr_renamed (lexer : Lexer) {beyond beyond' : Except SyntaxError (Reading α)}
    (last : Except.Related (Reading.Renamed I J) beyond beyond') (rounds : Nat) (cursor : Cursor) :
    Except.Related (Reading.Renamed (α := α) I J)
      (lexer.nextOr position vocabulary beyond I rounds cursor)
      (lexer.nextOr position vocabulary beyond' J rounds cursor) := by
  induction rounds generalizing cursor with
  | zero => exact last
  | succ rounds ih =>
      unfold nextOr
      split
      · exact .ok ⟨⟨.endOfInput, rfl⟩, rfl, .refl⟩
      · have scanned := firstScan_renamed (α := α) position vocabulary I J cursor lexer.rules
        generalize firstScan (α := α) position vocabulary I cursor lexer.rules = found at scanned ⊢
        generalize firstScan (α := α) position vocabulary J cursor lexer.rules = found' at scanned ⊢
        cases scanned with
        | error error => exact .error error
        | ok related =>
            cases related with
            | declined => exact .error _
            | blank after => exact ih after
            | token after onward kind => exact .ok ⟨⟨kind, rfl⟩, rfl, onward⟩

theorem next_renamed (lexer : Lexer) (cursor : Cursor) :
    Except.Related (Reading.Renamed (α := α) I J) (lexer.next position vocabulary I cursor)
      (lexer.next position vocabulary J cursor) := by
  have atEnd : Reading.Renamed (α := α) I J (endReading I cursor) (endReading J cursor) :=
    ⟨⟨.endOfInput, rfl⟩, rfl, .refl⟩
  exact nextOr_renamed position vocabulary I J lexer (.ok atEnd) _ cursor

variable {position vocabulary I}

/-- Reading adds names and forgets none. -/
theorem next_onward {lexer : Lexer} {cursor : Cursor} {r : Reading α}
    (read : lexer.next position vocabulary I cursor = .ok r) :
    I.Onward I r.interner r.interner := by
  have related := next_renamed (α := α) position vocabulary I I lexer cursor
  rw [read] at related
  cases related with
  | ok reading => exact reading.onward

end Lexer

end IntervalCalc

import IntervalCalc.Lexing.Scanner
import IntervalCalc.Proofs.Agreement
import IntervalCalc.Proofs.Lexing.Lexemes
import IntervalCalc.Proofs.Lexing.Places

/-!
Lexers that move one cursor. A recognizer that declines leaves the cursor where it was, and the
lexer goes back there in any case, so what it reads does not depend on those that declined, and is
what is read from the place without a cursor that moves.
-/

namespace IntervalCalc

theorem blankLength_eq_stretch (text : List Char) :
    blankLength false text = (text.takeWhile Unicode.isBlank).length +
      blankLength false (text.dropWhile Unicode.isBlank) := by
  induction text with
  | nil => rfl
  | cons c rest ih =>
      rw [List.takeWhile_cons, List.dropWhile_cons]
      split
      next blank =>
        rw [blankLength, if_pos blank, ih, List.length_cons]
        omega
      next solid => rw [List.length_nil, Nat.zero_add]

/-- Inside a comment the rest of the line is passed over, and what begins with the line feed is
outside. -/
theorem blankLength_eq_line (text : List Char) :
    blankLength true text =
      (text.takeWhile (· != '\n')).length + blankLength false (text.dropWhile (· != '\n')) := by
  induction text with
  | nil => rfl
  | cons c rest ih =>
      rw [List.takeWhile_cons, List.dropWhile_cons, blankLength]
      by_cases newLine : c = '\n'
      · have blank : Unicode.isBlank '\n' := by decide
        rw [newLine, bne_self_eq_false, if_neg Bool.false_ne_true, if_neg Bool.false_ne_true,
          blankLength, if_pos blank, List.length_nil, Nat.zero_add]
      · have other : (c != '\n') = true := bne_iff_ne.mpr newLine
        rw [other, if_pos rfl, if_pos rfl, ih, List.length_cons]
        omega

theorem drop_length_takeWhile (test : Char → Bool) (text : List Char) :
    text.drop (text.takeWhile test).length = text.dropWhile test := by
  have parts : text.takeWhile test ++ text.dropWhile test = text := List.takeWhile_append_dropWhile
  have drops : (text.takeWhile test ++ text.dropWhile test).drop (text.takeWhile test).length =
      text.dropWhile test := List.drop_left
  rwa [parts] at drops

namespace Scanner

variable {α : Type} [Scalar α] [Numeral α] {scanner : Scanner}

theorem move_bind {β : Type} (change : Cursor → Cursor) (f : Unit → ScanM β) (scanner : Scanner) :
    (move change >>= f) scanner = f () ⟨change scanner.cursor, scanner.interner⟩ :=
  rfl

theorem advanceWhile_eq (test : Char → Bool) (scanner : Scanner) :
    advanceWhile test scanner = .ok (scanner.cursor.rest.takeWhile test).length
      ⟨scanner.cursor.advance (scanner.cursor.rest.takeWhile test).length, scanner.interner⟩ :=
  rfl

omit [Scalar α] [Numeral α] in
theorem advanceIf_eq (c : Char) (scanner : Scanner) :
    advanceIf c scanner = if scanner.cursor.peek 0 == some c
      then .ok true ⟨scanner.cursor.advance 1, scanner.interner⟩ else .ok false scanner := by
  unfold advanceIf Cursor.advanceIf?
  rw [Run.get_bind]
  split
  · rfl
  · rfl

theorem expect_eq (c : Char) (flaw : IntervalFlaw) (scanner : Scanner) :
    expect c flaw scanner = if scanner.cursor.peek 0 == some c
      then .ok () ⟨scanner.cursor.advance 1, scanner.interner⟩
      else .error ⟨.malformedInterval flaw, scanner.cursor.location⟩ scanner := by
  unfold expect
  have run := advanceIf_eq c scanner
  split at run
  next ahead =>
    rw [Run.bind_ok run, if_pos ahead]
    rfl
  next other =>
    rw [Run.bind_ok run, if_neg other]
    rfl

theorem exists_cons_of_peek {cursor : Cursor} {c : Char} (ahead : cursor.peek 0 == some c) :
    ∃ rest, cursor.rest = c :: rest := by
  have first := eq_of_beq ahead
  rw [Cursor.peek] at first
  cases text : cursor.rest with
  | nil =>
      rw [text] at first
      cases first
  | cons d rest =>
      rw [text] at first
      cases first
      exact ⟨rest, rfl⟩

/-- Behind a stretch of white space only a comment goes on with blanks. -/
theorem blankLength_of_unopened {cursor : Cursor} {text : List Char}
    (stretch : cursor.rest = text.dropWhile Unicode.isBlank)
    (unopened : ¬ (cursor.peek 0 == some '#') = true) : blankLength false cursor.rest = 0 := by
  cases ahead : cursor.rest with
  | nil => rfl
  | cons c rest =>
      have solid : ¬ Unicode.isBlank c := by
        have first := List.head?_dropWhile_not Unicode.isBlank text
        rw [← stretch, ahead] at first
        exact Bool.eq_false_iff.mp first
      have other : c ≠ '#' := by
        rintro rfl
        rw [Cursor.peek, ahead] at unopened
        exact unopened (beq_self_eq_true _)
      rw [blankLength, if_neg solid, if_neg (fun hash => other (eq_of_beq hash))]

/-- Blanks are passed over as far as they go. -/
theorem skipBlanks_eq {bound : List Char} (within : scanner.cursor.rest.length ≤ bound.length) :
    skipBlanks bound scanner = .ok (blankLength false scanner.cursor.rest)
      ⟨scanner.cursor.advance (blankLength false scanner.cursor.rest), scanner.interner⟩ := by
  induction bound generalizing scanner with
  | nil =>
      have finished := List.eq_nil_of_length_eq_zero (Nat.le_zero.mp within)
      rw [skipBlanks, advanceWhile_eq, finished]
      rfl
  | cons _ bound ih =>
      rw [skipBlanks, Run.bind_ok (advanceWhile_eq _ _), blankLength_eq_stretch]
      generalize stretch : (scanner.cursor.rest.takeWhile Unicode.isBlank).length = blanks
      have rest : (scanner.cursor.advance blanks).rest =
          scanner.cursor.rest.dropWhile Unicode.isBlank := by
        rw [Cursor.rest_advance, ← stretch, drop_length_takeWhile]
      rw [← rest]
      by_cases opens : (scanner.cursor.advance blanks).peek 0 == some '#'
      · obtain ⟨body, text⟩ := exists_cons_of_peek opens
        rw [Run.bind_ok ((advanceIf_eq _ _).trans (if_pos opens)), if_pos rfl,
          Run.bind_ok (advanceWhile_eq _ _), text, blankLength_hash, blankLength_eq_line]
        have inside : ((scanner.cursor.advance blanks).advance 1).rest = body := by
          rw [Cursor.rest_advance, text]
          rfl
        dsimp only
        rw [inside]
        generalize line : (body.takeWhile (· != '\n')).length = comment
        have behind : (((scanner.cursor.advance blanks).advance 1).advance comment).rest =
            body.dropWhile (· != '\n') := by
          rw [Cursor.rest_advance, inside, ← line, drop_length_takeWhile]
        rw [← behind]
        have shorter : (((scanner.cursor.advance blanks).advance 1).advance comment).rest.length ≤
            bound.length := by
          rw [Cursor.length_rest_advance, Cursor.length_rest_advance, Cursor.length_rest_advance]
          rw [List.length_cons] at within
          omega
        rw [Run.bind_ok (ih shorter)]
        generalize blankLength false _ = others
        have place : blanks + (comment + others + 1) = blanks + (1 + (comment + others)) := by omega
        have count : blanks + (1 + comment) + others = blanks + (1 + (comment + others)) := by omega
        rw [Cursor.advance_advance, Cursor.advance_advance, Cursor.advance_advance, place, count]
        rfl
      · rw [Run.bind_ok ((advanceIf_eq _ _).trans (if_neg opens)), if_neg Bool.false_ne_true,
          blankLength_of_unopened rest opens]
        rfl

/-- A recognizer that is tried does what it makes of the text, and leaves all as it is if it
declines. -/
inductive Performs (scanner : Scanner) :
    Except SyntaxError (Scan α) → EStateM.Result SyntaxError Scanner (Option (Taken α)) → Prop
  | declined : Performs scanner (.ok .declined) (.ok none scanner)
  | blank {after : Cursor} :
      Performs scanner (.ok (.blank after)) (.ok (some .blank) ⟨after, scanner.interner⟩)
  | token {kind : TokenKind α} {after : Cursor} {interner : Interner} :
      Performs scanner (.ok (.token kind after interner))
        (.ok (some (.token kind)) ⟨after, interner⟩)
  | failed {error : SyntaxError} {after : Scanner} :
      Performs scanner (.error error) (.error error after)

omit [Scalar α] [Numeral α] in
theorem performs_settle (scan : Scan α) (scanner : Scanner) :
    Performs scanner (.ok scan) (settle scan scanner) := by
  cases scan with
  | declined => exact .declined
  | blank after => exact .blank
  | token kind after interner => exact .token

omit [Scalar α] [Numeral α] in
theorem performs_whitespace (scanner : Scanner) :
    Performs scanner (.ok (Recognizer.scanBlank scanner.cursor : Scan α)) (whitespace scanner) := by
  have run : (whitespace scanner : EStateM.Result _ _ (Option (Taken α))) =
      .ok (if blankLength false scanner.cursor.rest > 0 then some .blank else none)
        ⟨scanner.cursor.advance (blankLength false scanner.cursor.rest), scanner.interner⟩ := by
    unfold whitespace
    rw [Run.get_bind, Run.bind_ok (skipBlanks_eq (Nat.le_refl _))]
    rfl
  rw [run, Recognizer.scanBlank]
  split
  next none =>
    rw [none, if_neg (Nat.lt_irrefl 0)]
    exact .declined
  next some =>
    rw [if_pos (Nat.pos_of_ne_zero some)]
    exact .blank

omit [Scalar α] in
theorem Performs.bind_bound {cursor : Cursor} {f : α → ScanM (Option (Taken α))}
    {g : α × Cursor → Except SyntaxError (Scan α)}
    (rest : ∀ value after,
      Performs scanner (g (value, after)) (f value ⟨after, scanner.interner⟩)) :
    Performs scanner (Recognizer.scanBound cursor >>= g)
      ((bound >>= f) ⟨cursor, scanner.interner⟩) := by
  have run : (bound ⟨cursor, scanner.interner⟩ : EStateM.Result _ _ α) =
      match Recognizer.scanBound cursor with
      | .ok (value, after) => .ok value ⟨after, scanner.interner⟩
      | .error error => .error error ⟨cursor, scanner.interner⟩ := by
    unfold bound Recognizer.scanBound
    rw [Run.get_bind]
    cases DecimalNumeral.read? cursor.rest with
    | none => rfl
    | some numeral => rfl
  cases read : (Recognizer.scanBound cursor : Except _ (α × Cursor)) with
  | error error =>
      rw [read] at run
      rw [Run.bind_error run]
      exact .failed
  | ok found =>
      rw [read] at run
      rw [Run.bind_ok run]
      exact rest found.1 found.2

omit [Scalar α] [Numeral α] in
theorem Performs.bind_expect {c : Char} {flaw : IntervalFlaw} {cursor : Cursor}
    {f : Unit → ScanM (Option (Taken α))} {scan : Except SyntaxError (Scan α)}
    (passes : ∀ after, cursor.advanceIf? c = some after →
      Performs scanner scan (f () ⟨after, scanner.interner⟩))
    (stops : cursor.advanceIf? c = none → scan = Recognizer.malformed flaw cursor) :
    Performs scanner scan ((expect c flaw >>= f) ⟨cursor, scanner.interner⟩) := by
  have run := expect_eq c flaw ⟨cursor, scanner.interner⟩
  unfold Cursor.advanceIf? at passes stops
  split at run
  next ahead =>
    rw [Run.bind_ok run]
    exact passes _ (if_pos ahead)
  next other =>
    rw [Run.bind_error run, stops (if_neg other)]
    exact .failed

theorem performs_interval (scanner : Scanner) :
    Performs scanner (Recognizer.scanInterval scanner.interner scanner.cursor : Except _ (Scan α))
      (interval scanner) := by
  unfold interval Recognizer.scanInterval
  rw [Run.get_bind]
  split
  next opens =>
    rw [move_bind]
    refine .bind_bound fun low first => ?_
    dsimp only
    refine .bind_expect (fun second comma => ?_) (fun stops => by rw [stops])
    rw [comma]
    refine .bind_bound fun high third => ?_
    dsimp only
    refine .bind_expect (fun after brace => ?_) (fun stops => by rw [stops])
    rw [brace, Run.get_bind]
    dsimp only
    split
    · exact .failed
    · exact .token
  next closed => exact .declined

theorem performs_recognize (recognizer : Recognizer) (position : Position)
    (vocabulary : Vocabulary) (scanner : Scanner) :
    Performs scanner (recognizer.scan position vocabulary scanner.interner scanner.cursor)
      (recognize recognizer position vocabulary scanner :
        EStateM.Result _ _ (Option (Taken α))) := by
  cases recognizer with
  | interval => exact performs_interval scanner
  | name => exact performs_settle _ scanner
  | number => exact performs_settle _ scanner
  | operator => exact performs_settle _ scanner
  | whitespace => exact performs_whitespace scanner

end Scanner

/-- The same place with another mark. -/
def Cursor.remark (cursor : Cursor) (mark : Nat) : Cursor :=
  { cursor with mark }

/-- The same outcome, with another mark on the cursor behind it. -/
def Scan.remark {α : Type} (mark : Nat) : Scan α → Scan α
  | declined => declined
  | blank after => blank (after.remark mark)
  | token kind after interner => token kind (after.remark mark) interner

section Mark

variable {α : Type} [Scalar α] [Numeral α]

namespace Cursor

variable (cursor : Cursor) (mark : Nat)

theorem rest_remark : (cursor.remark mark).rest = cursor.rest := rfl

theorem peek_remark (k : Nat) : (cursor.remark mark).peek k = cursor.peek k := rfl

theorem advance_remark (n : Nat) :
    (cursor.remark mark).advance n = (cursor.advance n).remark mark := by
  fun_induction cursor.advance n with
  | case1 => rfl
  | case2 => rfl
  | case3 n passed c rest location older ih => exact ih

theorem advanceOver_remark (lexeme : List Char) :
    (cursor.remark mark).advanceOver lexeme = (cursor.advanceOver lexeme).remark mark :=
  cursor.advance_remark mark lexeme.length

theorem advanceIf?_remark (c : Char) :
    (cursor.remark mark).advanceIf? c = (cursor.advanceIf? c).map (·.remark mark) := by
  rw [advanceIf?, advanceIf?, peek_remark, advance_remark]
  split
  · rfl
  · rfl

end Cursor

namespace Recognizer

open Cursor (rest_remark peek_remark advance_remark advanceOver_remark advanceIf?_remark)

variable (cursor : Cursor) (mark : Nat) (interner : Interner)

omit [Scalar α] in
theorem scanBound_remark : (scanBound (cursor.remark mark) : Except _ (α × Cursor)) =
    (scanBound cursor).map fun found => (found.1, found.2.remark mark) := by
  rw [scanBound, scanBound, rest_remark]
  cases DecimalNumeral.read? cursor.rest with
  | none => rfl
  | some numeral =>
      dsimp only
      rw [advanceOver_remark]
      rfl

theorem scanInterval_remark : (scanInterval interner (cursor.remark mark) : Except _ (Scan α)) =
    (scanInterval interner cursor).map (Scan.remark mark) := by
  rw [scanInterval, scanInterval, peek_remark, peek_remark, advance_remark, scanBound_remark]
  split
  next opens =>
    cases (scanBound (cursor.advance 2) : Except _ (α × Cursor)) with
    | error error => rfl
    | ok found =>
        obtain ⟨low, first⟩ := found
        simp only [Except.map, bind, Except.bind, advanceIf?_remark]
        cases first.advanceIf? ',' with
        | none => rfl
        | some second =>
            simp only [Option.map_some, scanBound_remark]
            cases (scanBound second : Except _ (α × Cursor)) with
            | error error => rfl
            | ok found =>
                obtain ⟨high, third⟩ := found
                simp only [Except.map, advanceIf?_remark]
                cases third.advanceIf? '\x7d' with
                | none => rfl
                | some after =>
                    dsimp only [Option.map_some]
                    rw [peek_remark]
                    by_cases goesOn : (after.peek 0).any Unicode.isAlphanumeric = true
                    · rw [if_pos goesOn, if_pos goesOn]
                      rfl
                    · rw [if_neg goesOn, if_neg goesOn]
                      rfl
  next closed => rfl

omit [Scalar α] [Numeral α] in
theorem scanName_remark (vocabulary : Vocabulary) :
    (scanName vocabulary interner (cursor.remark mark) : Scan α) =
      (scanName vocabulary interner cursor).remark mark := by
  rw [scanName, scanName, rest_remark]
  cases nameLexeme cursor.rest with
  | nil => rfl
  | cons c rest =>
      dsimp only
      rw [advanceOver_remark]
      split
      · rfl
      · rfl

theorem scanNumber_remark (position : Position) :
    (scanNumber position interner (cursor.remark mark) : Scan α) =
      (scanNumber position interner cursor).remark mark := by
  unfold scanNumber
  dsimp only
  rw [rest_remark]
  cases (if position = .operand then sign? cursor.rest else none) with
  | none =>
      cases DecimalNumeral.read? cursor.rest with
      | none => rfl
      | some numeral =>
          dsimp only
          rw [advanceOver_remark]
          rfl
  | some sign =>
      obtain ⟨negative, rest⟩ := sign
      dsimp only
      cases DecimalNumeral.read? rest with
      | none => rfl
      | some numeral =>
          dsimp only
          rw [advance_remark, advanceOver_remark]
          rfl

omit [Scalar α] [Numeral α] in
theorem scanOperator_remark (vocabulary : Vocabulary) :
    (scanOperator vocabulary interner (cursor.remark mark) : Scan α) =
      (scanOperator vocabulary interner cursor).remark mark := by
  rw [scanOperator, scanOperator, rest_remark]
  cases vocabulary.longestSymbol? cursor.rest with
  | none => rfl
  | some symbol =>
      dsimp only
      rw [advanceOver_remark]
      rfl

omit [Scalar α] [Numeral α] in
theorem scanBlank_remark : (scanBlank (cursor.remark mark) : Scan α) =
    (scanBlank cursor).remark mark := by
  rw [scanBlank, scanBlank, rest_remark]
  cases blankLength false cursor.rest with
  | zero => rfl
  | succ length =>
      change Scan.blank ((cursor.remark mark).advance (length + 1)) = _
      rw [advance_remark]
      rfl

/-- The mark makes no difference to a recognizer. -/
theorem scan_remark (recognizer : Recognizer) (position : Position) (vocabulary : Vocabulary) :
    (recognizer.scan position vocabulary interner (cursor.remark mark) : Except _ (Scan α)) =
      (recognizer.scan position vocabulary interner cursor).map (Scan.remark mark) := by
  cases recognizer with
  | interval => exact scanInterval_remark cursor mark interner
  | name => exact congrArg Except.ok (scanName_remark cursor mark interner vocabulary)
  | number => exact congrArg Except.ok (scanNumber_remark cursor mark interner position)
  | operator => exact congrArg Except.ok (scanOperator_remark cursor mark interner vocabulary)
  | whitespace => exact congrArg Except.ok (scanBlank_remark cursor mark)

end Recognizer

/-- The mark makes no difference to what the first rule that does not decline makes of the text. -/
theorem Lexer.firstScan_remark (cursor : Cursor) (mark : Nat) (interner : Interner)
    (position : Position) (vocabulary : Vocabulary) (rules : List LexerRule) :
    (firstScan position vocabulary interner (cursor.remark mark) rules : Except _ (Scan α)) =
      (firstScan position vocabulary interner cursor rules).map (Scan.remark mark) := by
  induction rules with
  | nil => rfl
  | cons rule rules ih =>
      rw [firstScan, firstScan, Recognizer.scan_remark]
      cases (rule.recognizer.scan position vocabulary interner cursor : Except _ (Scan α)) with
      | error error => rfl
      | ok scan =>
          cases scan with
          | declined => exact ih
          | blank after => rfl
          | token kind after interner => rfl

end Mark

namespace Scanner

variable {α : Type} [Scalar α] [Numeral α]
variable {position : Position} {vocabulary : Vocabulary} {interner : Interner}
variable {text : List Char} {m n : Nat}

/-- Before a rule is tried, the place is marked. -/
theorem tryRules_cons (place : Location) (rule : LexerRule) (rules : List LexerRule)
    (scanner : Scanner) :
    (tryRules position vocabulary place (rule :: rules) scanner :
        EStateM.Result _ _ (Option (Taken α))) =
      match recognize rule.recognizer position vocabulary
          ⟨scanner.cursor.setMark, scanner.interner⟩ with
      | .ok (some taken) after => .ok (some taken) after
      | .ok none after =>
        tryRules position vocabulary place rules ⟨after.cursor.reset place, after.interner⟩
      | .error error after => .error error after := by
  rw [tryRules, move_bind]
  cases tried : (recognize rule.recognizer position vocabulary
      ⟨scanner.cursor.setMark, scanner.interner⟩ : EStateM.Result _ _ (Option (Taken α))) with
  | error error after => rw [Run.bind_error tried]
  | ok answer after =>
      rw [Run.bind_ok tried]
      cases answer with
      | none => rfl
      | some taken => rfl

/-- A place of a text, with the mark there or somewhere else. -/
theorem tryRules_performs (position : Position) (vocabulary : Vocabulary)
    (rules : List LexerRule) (text : List Char) (m n : Nat) (interner : Interner) : ∃ k,
    Performs ⟨.between text k n, interner⟩
      (Lexer.firstScan position vocabulary interner (.between text n n) rules)
      (tryRules position vocabulary (.behind (text.take n)) rules ⟨.between text m n, interner⟩ :
        EStateM.Result _ _ (Option (Taken α))) := by
  induction rules generalizing m with
  | nil => exact ⟨m, .declined⟩
  | cons rule rules ih =>
      have tried := performs_recognize (α := α) rule.recognizer position vocabulary
        ⟨.between text n n, interner⟩
      rw [tryRules_cons, Cursor.setMark_between, Lexer.firstScan]
      dsimp only at tried ⊢
      generalize (recognize rule.recognizer position vocabulary _ :
        EStateM.Result _ _ (Option (Taken α))) = result at tried ⊢
      generalize (rule.recognizer.scan position vocabulary interner _ : Except _ (Scan α)) = scan
        at tried ⊢
      cases tried with
      | declined =>
          dsimp only
          rw [Cursor.reset_between, Nat.min_self]
          exact ih n
      | blank => exact ⟨n, .blank⟩
      | token => exact ⟨n, .token⟩
      | failed => exact ⟨n, .failed⟩

/-- What is read once the rules were tried: the token that was taken, what comes behind blanks, or
an error. -/
def conclude (place : Location) (further : ScanM (Token α)) :
    EStateM.Result SyntaxError Scanner (Option (Taken α)) →
      EStateM.Result SyntaxError Scanner (Token α)
  | .ok (some (.token kind)) after => .ok ⟨kind, place⟩ after
  | .ok (some .blank) after => further after
  | .ok none after =>
    .error ⟨.unexpectedCharacter ((after.cursor.peek 0).getD '\x00'), place⟩ after
  | .error error after => .error error after

variable {lexer : Lexer} {scanner : Scanner} {bound : List Char}

theorem tokenWithin_of_end (finished : scanner.cursor.rest = []) :
    (tokenWithin lexer position vocabulary bound scanner : EStateM.Result _ _ (Token α)) =
      .ok ⟨.endOfInput, scanner.cursor.location⟩ scanner := by
  have atEnd : scanner.cursor.isAtEnd = true := List.isEmpty_iff.mpr finished
  cases bound with
  | nil => rfl
  | cons c bound =>
      rw [tokenWithin, Run.get_bind]
      dsimp only
      rw [if_pos atEnd]
      rfl

theorem tokenWithin_cons (more : scanner.cursor.rest ≠ []) (c : Char) :
    (tokenWithin lexer position vocabulary (c :: bound) scanner : EStateM.Result _ _ (Token α)) =
      conclude scanner.cursor.location (tokenWithin lexer position vocabulary bound)
        (tryRules position vocabulary scanner.cursor.location lexer.rules scanner) := by
  have going : ¬ scanner.cursor.isAtEnd = true := fun atEnd => more (List.isEmpty_iff.mp atEnd)
  rw [tokenWithin, Run.get_bind]
  dsimp only
  rw [if_neg going]
  cases tried : (tryRules position vocabulary scanner.cursor.location lexer.rules scanner :
      EStateM.Result _ _ (Option (Taken α))) with
  | error error after => rw [Run.bind_error tried, conclude]
  | ok answer after =>
      rw [Run.bind_ok tried]
      match answer with
      | none => rfl
      | some .blank => rfl
      | some (.token kind) => rfl

/-- Blanks that are passed over lead to a later place. -/
theorem between_of_blank {rules : List LexerRule} {after : Cursor}
    (blank : Lexer.firstScan position vocabulary interner (.between text n n) rules =
      (.ok (.blank after) : Except _ (Scan α))) :
    ∃ k, after = .between text n (n + (k + 1)) ∧
      (text.drop (n + (k + 1))).length < (text.drop n).length := by
  obtain ⟨some, place, _⟩ := Lexer.firstScan_blank blank
  obtain ⟨k, count⟩ := Nat.exists_eq_succ_of_ne_zero some
  have within := blankLength_le false (text.drop n)
  change blankLength false (text.drop n) = k + 1 at count
  refine ⟨k, ?_, ?_⟩
  · rw [place, Cursor.advance_between]
    exact congrArg (Cursor.between text n) (congrArg (n + ·) count)
  · rw [List.length_drop, List.length_drop] at *
    omega

/-- Where the rules were tried, it only matters how a token is read at later places. -/
theorem conclude_congr {rules : List LexerRule} {further further' : ScanM (Token α)}
    (agree : ∀ k, (text.drop (n + (k + 1))).length < (text.drop n).length →
      further ⟨.between text n (n + (k + 1)), interner⟩ =
        further' ⟨.between text n (n + (k + 1)), interner⟩) :
    conclude (.behind (text.take n)) further
        (tryRules position vocabulary (.behind (text.take n)) rules
          ⟨.between text m n, interner⟩) =
      conclude (.behind (text.take n)) further'
        (tryRules position vocabulary (.behind (text.take n)) rules
          ⟨.between text m n, interner⟩) := by
  obtain ⟨k, performs⟩ := tryRules_performs (α := α) position vocabulary rules text m n interner
  generalize (tryRules position vocabulary (.behind (text.take n)) rules _ :
    EStateM.Result _ _ (Option (Taken α))) = tried at performs ⊢
  generalize scanned : (Lexer.firstScan position vocabulary interner (.between text n n) rules :
    Except _ (Scan α)) = scan at performs
  cases performs with
  | declined => rfl
  | blank =>
      obtain ⟨k, rfl, shorter⟩ := between_of_blank scanned
      exact agree k shorter
  | token => rfl
  | failed => rfl

/-- The bound on the text is met whatever it is, if the text is no longer. -/
theorem tokenWithin_eq_tokenWithin {bound' : List Char}
    (within : (text.drop n).length ≤ bound.length)
    (within' : (text.drop n).length ≤ bound'.length) :
    tokenWithin lexer position vocabulary bound ⟨.between text m n, interner⟩ =
      (tokenWithin lexer position vocabulary bound' ⟨.between text m n, interner⟩ :
        EStateM.Result _ _ (Token α)) := by
  induction bound generalizing bound' m n with
  | nil =>
      have finished : (Cursor.between text m n).rest = [] :=
        List.eq_nil_of_length_eq_zero (Nat.le_zero.mp within)
      rw [tokenWithin_of_end finished, tokenWithin_of_end finished]
  | cons c bound ih =>
      by_cases finished : (Cursor.between text m n).rest = []
      · rw [tokenWithin_of_end finished, tokenWithin_of_end finished]
      · cases bound' with
        | nil => exact absurd (List.eq_nil_of_length_eq_zero (Nat.le_zero.mp within')) finished
        | cons c' bound' =>
            rw [tokenWithin_cons finished, tokenWithin_cons finished]
            rw [List.length_cons] at within within'
            exact conclude_congr fun k shorter => ih (by omega) (by omega)

/-- After the rules were tried at a place, the lexer goes on as if the rest of the text were all
that there is. -/
theorem token_of_more (more : text.drop n ≠ []) :
    token lexer position vocabulary ⟨.between text m n, interner⟩ =
      conclude (.behind (text.take n)) (token lexer position vocabulary)
        (tryRules position vocabulary (.behind (text.take n)) lexer.rules
          ⟨.between text m n, interner⟩ : EStateM.Result _ _ (Option (Taken α))) := by
  obtain ⟨c, rest, ahead⟩ := List.exists_cons_of_ne_nil more
  have here : (Cursor.between text m n).rest = c :: rest := ahead
  rw [token, Run.get_bind]
  dsimp only
  rw [here, tokenWithin_cons more]
  refine conclude_congr fun k shorter => ?_
  rw [ahead, List.length_cons] at shorter
  exact tokenWithin_eq_tokenWithin (Nat.le_of_lt_succ shorter) (Nat.le_refl _)

/-- A lexer that moves its cursor reads a token as one that does not, and where it ends up the mark
may be another one. -/
inductive Reads : Except SyntaxError (Lexer.Reading α) →
    EStateM.Result SyntaxError Scanner (Token α) → Prop
  | read {reading : Lexer.Reading α} {mark : Nat} :
      Reads (.ok reading) (.ok reading.token ⟨reading.cursor.remark mark, reading.interner⟩)
  | failed {error : SyntaxError} {after : Scanner} : Reads (.error error) (.error error after)

theorem tokenWithin_reads (bound : List Char) (text : List Char) (m m' n : Nat)
    (interner : Interner) (within : (text.drop n).length ≤ bound.length) :
    Reads (lexer.next position vocabulary interner (.between text m' n))
      (tokenWithin lexer position vocabulary bound ⟨.between text m n, interner⟩ :
        EStateM.Result _ _ (Token α)) := by
  induction bound generalizing m m' n interner with
  | nil =>
      have finished : (Cursor.between text m' n).rest = [] :=
        List.eq_nil_of_length_eq_zero (Nat.le_zero.mp within)
      rw [Lexer.next_of_end finished]
      exact .read
  | cons c bound ih =>
      rw [Lexer.next, Lexer.nextOr]
      cases ahead : (Cursor.between text m' n).rest with
      | nil =>
          rw [tokenWithin_of_end ahead]
          exact .read
      | cons d rest =>
          have more : (Cursor.between text m n).rest ≠ [] := by
            change (Cursor.between text m' n).rest ≠ []
            rw [ahead]
            exact List.cons_ne_nil d rest
          have scan := Lexer.firstScan_remark (α := α) (.between text n n)
            (String.utf8Len (text.take m')) interner position vocabulary lexer.rules
          change Lexer.firstScan _ _ _ (.between text m' n) _ = _ at scan
          rw [tokenWithin_cons more, scan]
          obtain ⟨k, performs⟩ := tryRules_performs (α := α) position vocabulary lexer.rules
            text m n interner
          change Reads _ (conclude _ _
            (tryRules position vocabulary (.behind (text.take n)) lexer.rules _))
          generalize (tryRules position vocabulary (.behind (text.take n)) lexer.rules _ :
            EStateM.Result _ _ (Option (Taken α))) = tried at performs ⊢
          generalize scanned : (Lexer.firstScan position vocabulary interner (.between text n n)
            lexer.rules : Except _ (Scan α)) = scan at performs ⊢
          cases performs with
          | declined =>
              have first : ((Cursor.between text k n).peek 0).getD '\x00' = d := by
                change ((Cursor.between text m' n).rest[0]?).getD '\x00' = d
                rw [ahead]
                rfl
              rw [conclude, first]
              exact .failed
          | blank =>
              obtain ⟨k, rfl, shorter⟩ := between_of_blank scanned
              have fewer : (Cursor.between text m' (n + (k + 1))).rest.length < (d :: rest).length := by
                rw [← ahead]
                exact shorter
              rw [List.length_cons] at within
              change Reads
                (lexer.nextOr position vocabulary _ interner _ (.between text m' (n + (k + 1)))) _
              rw [Lexer.nextOr_eq_next fewer]
              exact ih n m' _ interner (by omega)
          | @token kind after interner' =>
              exact @Reads.read α ⟨⟨kind, _⟩, after.remark _, interner'⟩ after.mark
          | failed => exact .failed

theorem token_reads (lexer : Lexer) (position : Position) (vocabulary : Vocabulary)
    (text : List Char) (m m' n : Nat) (interner : Interner) :
    Reads (lexer.next position vocabulary interner (.between text m' n))
      (token lexer position vocabulary ⟨.between text m n, interner⟩ :
        EStateM.Result _ _ (Token α)) :=
  tokenWithin_reads (text.drop n) text m m' n interner (Nat.le_refl _)

end Scanner

end IntervalCalc

import Mathlib.Data.List.Induction
import Mathlib.Data.String.Basic
import IntervalCalc.Proofs.Lexing.Reading

/-!
Cursors under any use. Whatever is done to a cursor, and in whatever order, it stands between two
characters of its text, its line and column are those of the bytes before it, and its mark is
between two characters at or before its place. So both stretches of bytes that it can be asked for
are there. Tokens and errors of a lexer are at such places.
-/

namespace IntervalCalc

/-- The characters between two byte offsets of a text. -/
def slice (source : String) (start stop : Nat) : List Char :=
  (String.Pos.Raw.extract source ⟨start⟩ ⟨stop⟩).toList

theorem slice_of_append (front middle rest : List Char) :
    slice (String.ofList (front ++ middle ++ rest)) (String.utf8Len front)
      (String.utf8Len front + String.utf8Len middle) = middle := by
  unfold slice
  rw [String.extract_of_valid, String.toList_ofList]

namespace Location

/-- A place between two characters of a text. It has the line and the column of its byte offset: one
more than there are line feeds before it, and one more than there are characters behind the last
one of them. -/
structure Within (source : String) (location : Location) : Prop where
  boundary : String.Pos.Raw.IsValid source ⟨location.offset⟩
  line : location.line = 1 + (slice source 0 location.offset).count '\n'
  column : location.column =
    1 + ((slice source 0 location.offset).reverse.takeWhile (· != '\n')).length

/-- The place behind the first characters of a text. -/
def behind (front : List Char) : Location :=
  front.foldl after start

theorem behind_concat (front : List Char) (c : Char) :
    behind (front ++ [c]) = (behind front).after c :=
  List.foldl_concat ..

theorem offset_behind (front : List Char) : (behind front).offset = String.utf8Len front := by
  induction front using List.reverseRecOn with
  | nil => rfl
  | append_singleton front c ih =>
      rw [behind_concat, Cursor.offset_after, ih, String.utf8Len_append]
      simp only [String.utf8Len_cons, String.utf8Len_nil, Nat.zero_add]

theorem line_behind (front : List Char) : (behind front).line = 1 + front.count '\n' := by
  induction front using List.reverseRecOn with
  | nil => rfl
  | append_singleton front c ih =>
      rw [behind_concat, List.count_append, ← Nat.add_assoc, ← ih, List.count_singleton, after]
      split
      · rfl
      · rfl

theorem column_behind (front : List Char) :
    (behind front).column = 1 + (front.reverse.takeWhile (· != '\n')).length := by
  induction front using List.reverseRecOn with
  | nil => rfl
  | append_singleton front c ih =>
      rw [behind_concat, List.reverse_append, List.reverse_singleton, List.singleton_append,
        List.takeWhile_cons, after]
      by_cases newLine : c = '\n'
      · rw [newLine]
        rfl
      · have other : (c == '\n') = false := beq_false_of_ne newLine
        rw [bne, other, if_neg Bool.false_ne_true, Bool.not_false, if_pos rfl, ih]
        rfl

/-- The bytes before the place behind some characters are those of the characters. -/
theorem slice_behind (front rest : List Char) :
    slice (String.ofList (front ++ rest)) 0 (behind front).offset = front := by
  have whole := slice_of_append [] front rest
  rw [List.nil_append, String.utf8Len_nil, Nat.zero_add] at whole
  rw [offset_behind, whole]

theorem isValid_utf8Len (front rest : List Char) :
    String.Pos.Raw.IsValid (String.ofList (front ++ rest)) ⟨String.utf8Len front⟩ := by
  refine String.Pos.Raw.isValid_iff_exists_append.mpr ⟨.ofList front, .ofList rest, ?_, ?_⟩
  · rw [String.ofList_append]
  · rw [String.rawEndPos_ofList]

/-- The place behind the first characters of a text is within it. -/
theorem within_behind (source : String) (n : Nat) :
    (behind (source.toList.take n)).Within source := by
  have parts : source = .ofList (source.toList.take n ++ source.toList.drop n) := by
    rw [List.take_append_drop, String.ofList_toList]
  generalize source.toList.take n = front at parts ⊢
  rw [parts]
  refine ⟨?_, ?_, ?_⟩
  · rw [offset_behind]
    exact isValid_utf8Len front _
  · rw [slice_behind, line_behind]
  · rw [slice_behind, column_behind]

end Location

namespace Cursor

/-- Something that is done to a cursor. Looking at it does not move it. -/
inductive Action where
  | peek (k : Nat)
  | advance (n : Nat)
  | advanceOver (lexeme : List Char)
  | advanceIf (c : Char)
  | advanceWhile (test : Char → Bool)
  | mark
  | extract
  | rest
  | isAtEnd
  | locate
  | reset (place : Location)

def perform (cursor : Cursor) : Action → Cursor
  | .advance n => cursor.advance n
  | .advanceOver lexeme => cursor.advanceOver lexeme
  | .advanceIf c => (cursor.advanceIf? c).getD cursor
  | .advanceWhile test => (cursor.advanceWhile test).2
  | .mark => cursor.setMark
  | .reset place => cursor.reset place
  | .peek _ | .extract | .rest | .isAtEnd | .locate => cursor

/-- A lexeme that is passed over has to be ahead, and a place to go to has to be one of those that
were given out. -/
def Action.Allowed (given : List Location) (cursor : Cursor) : Action → Prop
  | advanceOver lexeme => lexeme <+: cursor.rest
  | reset place => place ∈ given
  | _ => True

instance (given : List Location) (cursor : Cursor) (action : Action) :
    Decidable (action.Allowed given cursor) :=
  match action with
  | .advanceOver lexeme => inferInstanceAs (Decidable (lexeme <+: cursor.rest))
  | .reset place => inferInstanceAs (Decidable (place ∈ given))
  | .peek _ | .advance _ | .advanceIf _ | .advanceWhile _ | .mark | .extract | .rest
  | .isAtEnd | .locate => .isTrue trivial

/-- The cursors that any actions lead to from the beginning of a text, with the places where they
were before, each of which may have been asked for. -/
inductive Driven (source : String) : (given : List Location) → Cursor → Prop
  | start : Driven source [] (ofList source.toList)
  | perform {given : List Location} {cursor : Cursor} {action : Action} :
      Driven source given cursor → action.Allowed (cursor.location :: given) cursor →
      Driven source (cursor.location :: given) (cursor.perform action)

/-- A cursor that knows where it is. -/
structure Oriented (source : String) (cursor : Cursor) : Prop where
  place : cursor.location.Within source
  marked : String.Pos.Raw.IsValid source ⟨cursor.mark⟩
  mark_le : cursor.mark ≤ cursor.location.offset
  extract : cursor.extract = slice source cursor.mark cursor.location.offset
  rest : cursor.rest = slice source cursor.location.offset source.utf8ByteSize

/-- The cursor behind the first `n` characters of a text, with its mark behind the first `m`. -/
def between (text : List Char) (m n : Nat) : Cursor :=
  ⟨(text.take n).reverse, text.drop n, .behind (text.take n), String.utf8Len (text.take m)⟩

variable {text : List Char} {m n : Nat}

theorem ofList_advance_eq_between (text : List Char) (n : Nat) :
    (ofList text).advance n = between text 0 n :=
  ofList_advance text n

theorem between_zero (text : List Char) : between text 0 0 = ofList text :=
  (ofList_advance_eq_between text 0).symm

theorem advance_between (k : Nat) : (between text m n).advance k = between text m (n + k) := by
  have passed := passed_advance (between text m n) k
  have rest := rest_advance (between text m n) k
  have location := location_advance (between text m n) k
  have mark := mark_advance (between text m n) k
  cases moved : (between text m n).advance k
  rw [moved] at passed rest location mark
  dsimp only [between] at passed rest location mark
  rw [passed, rest, location, mark, between, List.take_add, List.reverse_append, List.drop_drop,
    Location.behind, Location.behind, List.foldl_append]

theorem setMark_between : (between text m n).setMark = between text n n := by
  unfold setMark between
  dsimp only
  rw [Location.offset_behind]

theorem source_between : (between text m n).source = text := by
  unfold source between
  dsimp only
  rw [List.reverse_reverse, List.take_append_drop]

theorem splitAtByte_append (passed front rest : List Char) :
    splitAtByte passed (String.utf8Len front) (front ++ rest) =
      (front.reverse ++ passed, rest) := by
  have split := splitAtByte_take (front ++ rest) passed front.length .start
  rw [List.take_left, List.drop_left] at split
  rw [← Location.offset_behind]
  exact split

theorem take_append_drop_take (text : List Char) (le : m ≤ n) :
    text.take m ++ (text.take n).drop m = text.take n := by
  have front : (text.take n).take m = text.take m := by rw [List.take_take, Nat.min_eq_left le]
  rw [← front, List.take_append_drop]

theorem utf8Len_take_le (le : m ≤ n) :
    String.utf8Len (text.take m) ≤ String.utf8Len (text.take n) :=
  String.utf8Len_le_of_prefix (List.take_prefix_take_left le)

/-- Going to a place of the text leaves the mark behind, or takes it along if it was further on. -/
theorem reset_between (k : Nat) :
    (between text m n).reset (.behind (text.take k)) = between text (min m k) k := by
  have split := splitAtByte_append [] (text.take k) (text.drop k)
  rw [List.take_append_drop, List.append_nil, ← Location.offset_behind] at split
  have mark : min (String.utf8Len (text.take m)) (Location.behind (text.take k)).offset =
      String.utf8Len (text.take (min m k)) := by
    rw [Location.offset_behind]
    rcases Nat.le_total m k with le | le
    · rw [Nat.min_eq_left le, Nat.min_eq_left (utf8Len_take_le le)]
    · rw [Nat.min_eq_right le, Nat.min_eq_right (utf8Len_take_le le)]
  unfold reset
  rw [source_between, split]
  dsimp only [between]
  rw [mark]

/-- The characters between the mark and the place. -/
theorem extract_between (le : m ≤ n) :
    (between text m n).extract = (text.take n).drop m := by
  have parts := take_append_drop_take text le
  have size : (Location.behind (text.take n)).offset - String.utf8Len (text.take m) =
      String.utf8Len ((text.take n).drop m).reverse := by
    rw [Location.offset_behind, String.utf8Len_reverse, ← parts, String.utf8Len_append, parts,
      Nat.add_sub_cancel_left]
  have split := splitAtByte_append [] ((text.take n).drop m).reverse (text.take m).reverse
  rw [← List.reverse_append, parts, List.reverse_reverse, List.append_nil] at split
  unfold extract
  dsimp only [between]
  rw [size, split]

/-- A cursor whose mark is not behind its place knows where it is. -/
theorem oriented_between (source : String) (le : m ≤ n) :
    (between source.toList m n).Oriented source := by
  have whole : source = .ofList source.toList := String.ofList_toList.symm
  refine ⟨Location.within_behind source n, ?_, ?_, ?_, ?_⟩
  · have valid := Location.isValid_utf8Len (source.toList.take m) (source.toList.drop m)
    rw [List.take_append_drop, ← whole] at valid
    exact valid
  · change String.utf8Len (source.toList.take m) ≤ (Location.behind (source.toList.take n)).offset
    rw [Location.offset_behind]
    exact utf8Len_take_le le
  · have middle := slice_of_append (source.toList.take m) ((source.toList.take n).drop m)
      (source.toList.drop n)
    rw [← String.utf8Len_append, take_append_drop_take _ le, List.take_append_drop, ← whole,
      ← Location.offset_behind (source.toList.take n)] at middle
    rw [extract_between le]
    exact middle.symm
  · have last := slice_of_append (source.toList.take n) (source.toList.drop n) []
    rw [List.append_nil, ← String.utf8Len_append, List.take_append_drop, ← Location.offset_behind,
      ← String.utf8ByteSize_ofList, ← whole] at last
    exact last.symm

/-- A cursor on its way through a text knows where it is. -/
theorem oriented_advance (source : String) (n : Nat) :
    ((ofList source.toList).advance n).Oriented source := by
  rw [ofList_advance_eq_between]
  exact oriented_between source (Nat.zero_le n)

/-- An action keeps a cursor among the characters of its text, its mark not behind its place. -/
theorem perform_between {given : List Location} {action : Action}
    (places : ∀ place ∈ given, ∃ k, place = .behind (text.take k)) (le : m ≤ n)
    (allowed : action.Allowed given (between text m n)) :
    ∃ m' n', m' ≤ n' ∧ (between text m n).perform action = between text m' n' := by
  have forward (k : Nat) : ∃ m' n', m' ≤ n' ∧ (between text m n).advance k = between text m' n' :=
    ⟨m, n + k, le.trans (Nat.le_add_right n k), advance_between k⟩
  cases action with
  | advance k => exact forward k
  | advanceOver lexeme => exact forward lexeme.length
  | advanceWhile test => exact forward _
  | advanceIf c =>
      cases passed : (between text m n).advanceIf? c with
      | none => exact ⟨m, n, le, by rw [perform, passed]; rfl⟩
      | some after =>
          obtain rfl := Recognizer.advanceIf?_some passed
          rw [perform, passed]
          exact forward 1
  | mark => exact ⟨n, n, le_rfl, setMark_between⟩
  | reset place =>
      obtain ⟨k, rfl⟩ := places place allowed
      exact ⟨min m k, k, min_le_right m k, reset_between k⟩
  | peek | extract | rest | isAtEnd | locate => exact ⟨m, n, le, rfl⟩

theorem Driven.between {source : String} {given : List Location} {cursor : Cursor}
    (h : Driven source given cursor) :
    (∃ m n, m ≤ n ∧ cursor = Cursor.between source.toList m n) ∧
      ∀ place ∈ given, ∃ k, place = .behind (source.toList.take k) := by
  induction h with
  | start => exact ⟨⟨0, 0, le_rfl, (between_zero _).symm⟩, fun _ absurd => by cases absurd⟩
  | perform _ allowed ih =>
      obtain ⟨⟨m, n, le, rfl⟩, places⟩ := ih
      have here := List.forall_mem_cons.mpr ⟨⟨n, rfl⟩, places⟩
      obtain ⟨m', n', le', moved⟩ := perform_between here le allowed
      exact ⟨⟨m', n', le', moved⟩, here⟩

end Cursor

section Lexing

variable {α : Type} [Scalar α] [Numeral α]
variable {position : Position} {vocabulary : Vocabulary} {interner : Interner}
variable {cursor : Cursor} {error : SyntaxError}

namespace Recognizer

omit [Scalar α] in
theorem scanBound_error (failed : scanBound cursor = (.error error : Except _ (α × Cursor))) :
    error.location = cursor.location := by
  unfold scanBound at failed
  split at failed
  · cases failed
    rfl
  · cases failed

/-- An interval literal is malformed at the cursor or further on. -/
theorem scanInterval_error
    (failed : scanInterval interner cursor = (.error error : Except _ (Scan α))) :
    ∃ n, error.location = (cursor.advance n).location := by
  unfold scanInterval at failed
  split at failed
  · rcases Except.bind_eq_error failed with bound | ⟨⟨low, first⟩, bound, failed⟩
    · exact ⟨2, scanBound_error bound⟩
    · obtain ⟨m, rfl⟩ := scanBound_ok bound
      rw [Cursor.advance_advance] at failed
      dsimp only at failed
      split at failed
      next second comma =>
        obtain rfl := advanceIf?_some comma
        rw [Cursor.advance_advance] at failed
        rcases Except.bind_eq_error failed with bound' | ⟨⟨high, third⟩, bound', failed⟩
        · exact ⟨_, scanBound_error bound'⟩
        · obtain ⟨n, rfl⟩ := scanBound_ok bound'
          rw [Cursor.advance_advance] at failed
          dsimp only at failed
          split at failed
          next after brace =>
            obtain rfl := advanceIf?_some brace
            rw [Cursor.advance_advance] at failed
            split at failed
            · cases failed
              exact ⟨_, rfl⟩
            · cases failed
          · cases failed
            exact ⟨_, rfl⟩
      · cases failed
        exact ⟨_, rfl⟩
  · cases failed

theorem scan_error {recognizer : Recognizer}
    (failed : recognizer.scan position vocabulary interner cursor =
      (.error error : Except _ (Scan α))) :
    ∃ n, error.location = (cursor.advance n).location := by
  cases recognizer with
  | interval => exact scanInterval_error failed
  | name | number | operator | whitespace => cases failed

end Recognizer

namespace Lexer

variable {lexer : Lexer}

theorem firstScan_error {rules : List LexerRule}
    (failed : firstScan position vocabulary interner cursor rules =
      (.error error : Except _ (Scan α))) :
    ∃ n, error.location = (cursor.advance n).location := by
  induction rules with
  | nil => cases failed
  | cons rule rules ih =>
      rw [firstScan] at failed
      split at failed
      · exact ih failed
      · exact Recognizer.scan_error failed

theorem nextOr_error {beyond : Reading α} {rounds : Nat}
    (failed : lexer.nextOr position vocabulary (.ok beyond) interner rounds cursor =
      (.error error : Except _ (Reading α))) :
    ∃ n, error.location = (cursor.advance n).location := by
  induction rounds generalizing cursor with
  | zero => cases failed
  | succ rounds ih =>
      rw [nextOr] at failed
      split at failed
      · cases failed
      · split at failed
        next found =>
          cases failed
          exact firstScan_error found
        · cases failed
        next after found =>
          obtain ⟨_, rfl, _⟩ := firstScan_blank found
          obtain ⟨n, place⟩ := ih failed
          exact ⟨_, place.trans (congrArg _ (Cursor.advance_advance cursor _ n))⟩
        · cases failed
          exact ⟨0, by rw [Cursor.advance]⟩

/-- What cannot be read fails at the cursor or further on. -/
theorem next_error (failed : lexer.next position vocabulary interner cursor =
      (.error error : Except _ (Reading α))) :
    ∃ n, error.location = (cursor.advance n).location :=
  nextOr_error failed

/-- Tokens that are at a cursor or further on, or an error that is. -/
def TokensAhead (cursor : Cursor) (found : Except SyntaxError (List (Token α) × Interner)) : Prop :=
  (∀ tokens known, found = .ok (tokens, known) →
    ∀ token ∈ tokens, ∃ n, token.location = (cursor.advance n).location) ∧
  ∀ error, found = .error error → ∃ n, error.location = (cursor.advance n).location

omit [Scalar α] [Numeral α] in
theorem TokensAhead.of_error (ahead : ∃ n, error.location = (cursor.advance n).location) :
    TokensAhead (α := α) cursor (.error error) := by
  refine ⟨fun _ _ absurd => (by cases absurd), fun other same => ?_⟩
  cases same
  exact ahead

theorem tokensOr_ahead {rounds : Nat}
    {beyond : Interner → Cursor → Except SyntaxError (List (Token α) × Interner)}
    (last : ∀ interner cursor, TokensAhead cursor (beyond interner cursor)) :
    TokensAhead cursor (tokensOr (lexer.next position vocabulary) beyond rounds interner cursor) := by
  induction rounds generalizing interner cursor with
  | zero => exact last interner cursor
  | succ rounds ih =>
      cases read : lexer.next (α := α) position vocabulary interner cursor with
      | error error =>
          rw [tokensOr_of_error read]
          exact .of_error (next_error read)
      | ok r =>
          by_cases ends : r.token.kind = .endOfInput
          · rw [tokensOr_of_end read ends]
            constructor
            · intro tokens known same
              cases same
              exact fun _ absurd => by cases absurd
            · intro error absurd
              cases absurd
          · obtain ⟨m, n, location, forward, _⟩ := (lexes_of_next read).place
            have onwards (k : Nat) :
                (r.cursor.advance k).location = (cursor.advance (m + (n + k))).location := by
              rw [forward, Cursor.advance_advance, Cursor.advance_advance]
            obtain ⟨later, failing⟩ := @ih r.interner r.cursor
            rw [tokensOr_of_token read ends]
            constructor
            · intro tokens known same
              obtain ⟨⟨others, known'⟩, found, pair⟩ := Except.map_eq_ok same
              cases pair
              refine List.forall_mem_cons.mpr ⟨⟨m, location⟩, ?_⟩
              intro token member
              obtain ⟨k, place⟩ := later others known' found token member
              exact ⟨_, place.trans (onwards k)⟩
            · intro error same
              obtain ⟨k, place⟩ := failing error (Except.map_eq_error same)
              exact ⟨_, place.trans (onwards k)⟩

/-- The tokens of a text are at places of it, and so is the error if there are none. -/
theorem tokens_ahead (lexer : Lexer) (position : Position) (vocabulary : Vocabulary)
    (interner : Interner) (text : List Char) : TokensAhead (Cursor.ofList text)
      (lexer.tokens (α := α) position vocabulary interner text) := by
  refine tokensOr_ahead fun interner cursor => ?_
  cases read : lexer.next (α := α) position vocabulary interner cursor with
  | error error => exact .of_error (next_error read)
  | ok r =>
      obtain ⟨m, n, location, _⟩ := (lexes_of_next read).place
      exact .of_error ⟨m, location⟩

end Lexer

end Lexing

end IntervalCalc

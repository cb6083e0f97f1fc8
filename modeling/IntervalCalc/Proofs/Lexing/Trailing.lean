import IntervalCalc.Proofs.Lexing.Fronts

/-!
Texts with something behind them in the same line. What follows does not go on with the last word,
and it is what comes next where the text ends, unless the text ends inside a comment.
-/

namespace IntervalCalc

/-- Whether a text ends inside a comment. No word has the sign in it that begins a comment, so this
is so if the sign stands in the last line. -/
def EndsInComment (text : List Char) : Prop :=
  '#' ∈ text.reverse.takeWhile (· != '\n')

instance (text : List Char) : Decidable (EndsInComment text) :=
  inferInstanceAs (Decidable (_ ∈ _))

theorem EndsInComment.append {text : List Char} (h : EndsInComment text) (front : List Char) :
    EndsInComment (front ++ text) := by
  unfold EndsInComment at h ⊢
  rw [List.reverse_append, List.takeWhile_append]
  split
  · exact List.mem_append_left _ ((List.takeWhile_sublist _).subset h)
  · exact h

theorem EndsInComment.of_drop {text : List Char} {n : Nat} (h : EndsInComment (text.drop n)) :
    EndsInComment text := by
  rw [← List.take_append_drop n text]
  exact h.append _

theorem Blanks.endsInComment {inComment : Bool} {run : List Char} (blanks : Blanks inComment run)
    (inside : inComment = true) : EndsInComment run := by
  induction blanks with
  | none => cases inside
  | @blank c _ run _ _ ih => exact (ih inside).append [c]
  | @comment _ body run _ _ ih =>
      have longer := (ih inside).append ('#' :: (body ++ ['\n']))
      simpa using longer
  | @openComment body inLine =>
      have line : ∀ c ∈ body.reverse ++ ['#'], (c != '\n') = true := by
        simp only [List.mem_append, List.mem_reverse, List.mem_singleton, bne_iff_ne]
        rintro c (member | rfl)
        · rintro rfl
          exact inLine member
        · decide
      rw [EndsInComment, List.reverse_cons, List.takeWhile_eq_self_iff.mpr line]
      exact List.mem_append_right _ (List.mem_singleton_self '#')

namespace Lexer

variable {α : Type} [Scalar α] [Numeral α]
variable {lexer : Lexer} {tail : List Char} {position : Position} {vocabulary : Vocabulary}
variable {interner : Interner} {cursor longer : Cursor}

/-- Where a text ends outside of comments, the longer one goes on with what is behind it, or with
what is there behind white space. -/
theorem next_append_outside (apart : Breaks tail) (clear : vocabulary.Apart tail)
    (h : cursor.Continues tail longer) (outside : ¬ EndsInComment cursor.rest) {r : Reading α}
    (read : lexer.next position vocabulary interner cursor = .ok r)
    (ends : r.token.kind = .endOfInput) :
    ∃ later : Cursor, (later.rest = tail ∨ later.rest = tail.drop (blankLength false tail)) ∧
      lexer.next position vocabulary interner longer =
        (lexer.next position vocabulary interner later : Except _ (Reading α)) := by
  have lexes := lexes_of_next read
  clear read
  induction lexes generalizing longer with
  | @atEnd cursor finished =>
      refine ⟨longer, .inl ?_, rfl⟩
      rw [h, finished]
      rfl
  | @token cursor after kind interner' nonempty found =>
      obtain rfl : kind = .endOfInput := ends
      exact (firstScan_token found).2.1.elim
  | @blank cursor after r found lexes ih =>
      have found' := firstScan_blank_append apart clear h found
      obtain ⟨some, rfl, _⟩ := firstScan_blank found
      by_cases inside : blankLength false cursor.rest < cursor.rest.length
      · have same : blankLength false longer.rest = blankLength false cursor.rest := by
          rw [h, blankLength_append false inside]
        rw [same] at found'
        have outside' : ¬ EndsInComment (cursor.advance (blankLength false cursor.rest)).rest := by
          rw [Cursor.rest_advance]
          exact fun comment => outside comment.of_drop
        obtain ⟨later, place, read⟩ := ih (h.advance (Nat.le_of_lt inside)) outside' ends
        exact ⟨later, place, (next_of_blank found').trans read⟩
      · -- the rest of the text is blank, and what follows may begin with more white space
        have all : blankLength false cursor.rest = cursor.rest.length :=
          Nat.le_antisymm (blankLength_le false cursor.rest) (Nat.le_of_not_lt inside)
        obtain ⟨_, inComment, blanks⟩ := (longest_blanks some).fits
        rw [all, List.take_length] at blanks
        cases inComment with
        | true => exact absurd (blanks.endsInComment rfl) outside
        | false =>
            refine ⟨longer.advance (blankLength false longer.rest), .inr ?_, next_of_blank found'⟩
            rw [Cursor.rest_advance, h, blanks.blankLength_append rfl, List.drop_append,
              List.drop_eq_nil_of_le (Nat.le_add_right _ _), List.nil_append,
              Nat.add_sub_cancel_left]

end Lexer

end IntervalCalc

import IntervalCalc.Proofs.Lexing.Lexemes

/-!
Interval literals. What stands behind an `I` and a bracket is the literal, or there is a first
place where something is wrong with it, and reading finds the one or the other.
-/

namespace IntervalCalc

namespace Cursor

variable {cursor : Cursor} {text rest : List Char}

theorem rest_advanceOver (spelled : cursor.rest = text ++ rest) :
    (cursor.advanceOver text).rest = rest := by
  rw [advanceOver, rest_advance, spelled, List.drop_left]

theorem advanceOver_append (cursor : Cursor) (text more : List Char) :
    cursor.advanceOver (text ++ more) = (cursor.advanceOver text).advanceOver more := by
  rw [advanceOver, advanceOver, advanceOver, advance_advance, List.length_append]

theorem location_advanceOver (spelled : cursor.rest = text ++ rest) :
    (cursor.advanceOver text).location = text.foldl Location.after cursor.location := by
  rw [advanceOver, location_advance, spelled, List.take_left]

theorem peek_zero (cursor : Cursor) : cursor.peek 0 = cursor.rest.head? := by
  rw [peek, List.head?_eq_getElem?]

theorem advanceIf?_of_cons {c : Char} (spelled : cursor.rest = c :: rest) :
    cursor.advanceIf? c = some (cursor.advanceOver [c]) := by
  have first : (cursor.peek 0 == some c) = true := by
    rw [peek_zero, spelled, List.head?_cons, beq_self_eq_true]
  rw [advanceIf?, if_pos first]
  rfl

theorem advanceIf?_of_ne {c : Char} (other : cursor.rest.head? ≠ some c) :
    cursor.advanceIf? c = none := by
  have first : ¬ (cursor.peek 0 == some c) = true := by
    rw [peek_zero, beq_iff_eq]
    exact other
  rw [advanceIf?, if_neg first]

end Cursor

/-- Whatever begins like this has to be an interval literal. -/
def intervalMark : List Char :=
  ['I', '\x7b']

def intervalText (low high : DecimalNumeral) : List Char :=
  intervalMark ++ (low.lexeme ++ ',' :: (high.lexeme ++ ['\x7d']))

/-- A text goes on with an interval literal, and no letter or digit follows it. -/
structure IntervalFront (text : List Char) (low high : DecimalNumeral) (rest : List Char) :
    Prop where
  writtenLow : low.Written
  writtenHigh : high.Written
  spelled : text = intervalText low high ++ rest
  ends : rest.head?.any Unicode.isAlphanumeric = false

/-- What is wrong behind an interval mark, and what is right before it. -/
inductive IntervalFlawed : (text right : List Char) → IntervalFlaw → Prop
  | low {rest : List Char} : Lacks DecimalNumeral.Spells rest →
      IntervalFlawed (intervalMark ++ rest) intervalMark .missingBound
  | comma {low : DecimalNumeral} {rest : List Char} : low.Written →
      Longest DecimalNumeral.Spells (low.lexeme ++ rest) low.lexeme → rest.head? ≠ some ',' →
      IntervalFlawed (intervalMark ++ (low.lexeme ++ rest)) (intervalMark ++ low.lexeme)
        .missingComma
  | high {low : DecimalNumeral} {rest : List Char} : low.Written →
      Lacks DecimalNumeral.Spells rest →
      IntervalFlawed (intervalMark ++ (low.lexeme ++ ',' :: rest))
        (intervalMark ++ (low.lexeme ++ [','])) .missingBound
  | brace {low high : DecimalNumeral} {rest : List Char} : low.Written → high.Written →
      Longest DecimalNumeral.Spells (high.lexeme ++ rest) high.lexeme →
      rest.head? ≠ some '\x7d' →
      IntervalFlawed (intervalMark ++ (low.lexeme ++ ',' :: (high.lexeme ++ rest)))
        (intervalMark ++ (low.lexeme ++ ',' :: high.lexeme)) .missingBrace
  | trailing {low high : DecimalNumeral} {rest : List Char} : low.Written → high.Written →
      rest.head?.any Unicode.isAlphanumeric →
      IntervalFlawed (intervalText low high ++ rest) (intervalText low high) .trailingCharacter

section Flawed

variable {text right : List Char} {flaw : IntervalFlaw}

theorem IntervalFlawed.begins (flawed : IntervalFlawed text right flaw) : right <+: text := by
  cases flawed with
  | low => exact List.prefix_append _ _
  | @comma low rest => exact ⟨rest, by simp⟩
  | @high low rest => exact ⟨rest, by simp⟩
  | @brace low high rest => exact ⟨rest, by simp⟩
  | trailing => exact List.prefix_append _ _

theorem IntervalFlawed.nonempty (flawed : IntervalFlawed text right flaw) : text ≠ [] := by
  cases flawed <;> exact List.cons_ne_nil _ _

end Flawed

theorem intervalText_append (low high : DecimalNumeral) (rest : List Char) :
    intervalText low high ++ rest =
      intervalMark ++ (low.lexeme ++ ',' :: (high.lexeme ++ '\x7d' :: rest)) := by
  simp only [intervalText, List.append_assoc, List.cons_append, List.nil_append]

/-- Behind a mark there is an interval literal or a flaw. -/
theorem intervalFront_or_flawed {text : List Char} (marked : intervalMark <+: text) :
    (∃ low high rest, IntervalFront text low high rest) ∨
      ∃ right flaw, IntervalFlawed text right flaw := by
  obtain ⟨rest, rfl⟩ := marked
  rcases longest_or_lacks DecimalNumeral.Spells rest with ⟨_, longest⟩ | lacks
  · obtain ⟨low, hl, rfl⟩ := longest.fits
    obtain ⟨rest, rfl⟩ := longest.begins
    by_cases comma : rest.head? = some ','
    · obtain ⟨rest, rfl⟩ := List.head?_eq_some_iff.mp comma
      rcases longest_or_lacks DecimalNumeral.Spells rest with ⟨_, longest⟩ | lacks
      · obtain ⟨high, hh, rfl⟩ := longest.fits
        obtain ⟨rest, rfl⟩ := longest.begins
        by_cases brace : rest.head? = some '\x7d'
        · obtain ⟨rest, rfl⟩ := List.head?_eq_some_iff.mp brace
          rw [← intervalText_append]
          cases ends : rest.head?.any Unicode.isAlphanumeric with
          | false => exact .inl ⟨low, high, rest, hl, hh, rfl, ends⟩
          | true => exact .inr ⟨_, _, .trailing hl hh ends⟩
        · exact .inr ⟨_, _, .brace hl hh longest brace⟩
      · exact .inr ⟨_, _, .high hl lacks⟩
    · exact .inr ⟨_, _, .comma hl longest comma⟩
  · exact .inr ⟨_, _, .low lacks⟩

namespace Recognizer

variable {α : Type} [Scalar α] [Numeral α] {interner : Interner} {cursor : Cursor}

omit [Scalar α] in
theorem scanBound_of_read? {numeral : DecimalNumeral}
    (read : DecimalNumeral.read? cursor.rest = some numeral) :
    (scanBound cursor : Except SyntaxError (α × Cursor)) =
      .ok (numeral.value, cursor.advanceOver numeral.lexeme) := by
  rw [scanBound, read]

omit [Scalar α] in
theorem scanBound_of_lacks (lacks : Lacks DecimalNumeral.Spells cursor.rest) :
    (scanBound cursor : Except SyntaxError (α × Cursor)) = malformed .missingBound cursor := by
  rw [scanBound, DecimalNumeral.read?_eq_none_iff.mpr lacks]

theorem opens_of_mark {rest : List Char} (marked : cursor.rest = intervalMark ++ rest) :
    (cursor.peek 0 == some 'I' && cursor.peek 1 == some '\x7b') = true := by
  rw [Cursor.peek, Cursor.peek, marked]
  rfl

omit [Scalar α] in
/-- A bound is read with the delimiter behind it. -/
theorem scanBound_delimited {numeral : DecimalNumeral} (written : numeral.Written) {c : Char}
    (delimiter : c ∈ delimiters) {rest : List Char}
    (spelled : cursor.rest = numeral.lexeme ++ c :: rest) :
    ∃ first, (scanBound cursor : Except SyntaxError (α × Cursor)) = .ok (numeral.value, first) ∧
      first.advanceIf? c = some (cursor.advanceOver (numeral.lexeme ++ [c])) ∧
        (cursor.advanceOver (numeral.lexeme ++ [c])).rest = rest := by
  have read : DecimalNumeral.read? cursor.rest = some numeral := by
    rw [spelled]
    exact DecimalNumeral.read?_append_delimited written fun _ first => by
      cases first
      exact delimiter
  refine ⟨_, scanBound_of_read? read, ?_, ?_⟩
  · rw [Cursor.advanceOver_append]
    exact Cursor.advanceIf?_of_cons (Cursor.rest_advanceOver spelled)
  · apply Cursor.rest_advanceOver
    rw [spelled, List.append_assoc]
    rfl

theorem scanInterval_of_front {low high : DecimalNumeral} {rest : List Char}
    (front : IntervalFront cursor.rest low high rest) :
    (scanInterval interner cursor : Except SyntaxError (Scan α)) =
      .ok (.token (.literal (.interval (.between low.value high.value)))
        (cursor.advanceOver (intervalText low high)) interner) := by
  obtain ⟨hl, hh, spelled, ends⟩ := front
  rw [intervalText_append] at spelled
  obtain ⟨first, bound, comma, second⟩ :=
    @scanBound_delimited α _ _ _ hl ',' (by decide) _ (Cursor.rest_advanceOver spelled)
  obtain ⟨third, bound', brace, fourth⟩ :=
    @scanBound_delimited α _ _ _ hh '\x7d' (by decide) _ second
  rw [← Cursor.advanceOver_append, ← Cursor.advanceOver_append, List.append_assoc] at brace fourth
  refine IntervalLiteral.scan ⟨opens_of_mark spelled, ⟨_, _, _, bound, comma, bound', brace⟩, ?_⟩
    interner
  rw [Cursor.peek_zero, fourth]
  exact ends

theorem scanInterval_of_flawed {right : List Char} {flaw : IntervalFlaw}
    (flawed : IntervalFlawed cursor.rest right flaw) :
    (scanInterval interner cursor : Except SyntaxError (Scan α)) =
      .error ⟨.malformedInterval flaw, (cursor.advanceOver right).location⟩ := by
  generalize spelled : cursor.rest = text at flawed
  unfold scanInterval
  change (if _ then scanBound (cursor.advanceOver intervalMark) >>= _ else _) = _
  cases flawed with
  | low lacks =>
      have first := Cursor.rest_advanceOver spelled
      rw [← first] at lacks
      rw [if_pos (opens_of_mark spelled), scanBound_of_lacks lacks]
      rfl
  | comma written longest other =>
      have first := Cursor.rest_advanceOver spelled
      have second := Cursor.rest_advanceOver first
      rw [← first] at longest
      rw [← second] at other
      rw [if_pos (opens_of_mark spelled), Cursor.advanceOver_append,
        scanBound_of_read? (DecimalNumeral.read?_of_longest written longest)]
      simp only [bind, Except.bind, Cursor.advanceIf?_of_ne other]
      rfl
  | high written lacks =>
      obtain ⟨first, bound, comma, second⟩ :=
        @scanBound_delimited α _ _ _ written ',' (by decide) _ (Cursor.rest_advanceOver spelled)
      rw [← second] at lacks
      rw [if_pos (opens_of_mark spelled), bound, Cursor.advanceOver_append]
      simp only [bind, Except.bind, comma, scanBound_of_lacks lacks]
      rfl
  | brace low high longest other =>
      obtain ⟨first, bound, comma, second⟩ :=
        @scanBound_delimited α _ _ _ low ',' (by decide) _ (Cursor.rest_advanceOver spelled)
      have third := Cursor.rest_advanceOver second
      rw [← second] at longest
      rw [← third] at other
      rw [if_pos (opens_of_mark spelled), bound]
      simp only [bind, Except.bind, comma,
        scanBound_of_read? (DecimalNumeral.read?_of_longest high longest),
        Cursor.advanceIf?_of_ne other]
      rw [← Cursor.advanceOver_append, ← Cursor.advanceOver_append, List.append_assoc]
      rfl
  | trailing low high follows =>
      rw [intervalText_append] at spelled
      obtain ⟨first, bound, comma, second⟩ :=
        @scanBound_delimited α _ _ _ low ',' (by decide) _ (Cursor.rest_advanceOver spelled)
      obtain ⟨third, bound', brace, fourth⟩ :=
        @scanBound_delimited α _ _ _ high '\x7d' (by decide) _ second
      rw [if_pos (opens_of_mark spelled), bound]
      simp only [bind, Except.bind, comma, bound', brace]
      rw [Cursor.peek_zero, fourth, if_pos follows, ← Cursor.advanceOver_append,
        ← Cursor.advanceOver_append, List.append_assoc]
      rfl

end Recognizer

end IntervalCalc

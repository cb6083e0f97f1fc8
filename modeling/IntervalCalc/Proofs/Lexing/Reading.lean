import IntervalCalc.Lexing.Lexer

/-!
What it is to read a token. A reading passes over blanks and then takes what the first recognizer
makes of the text. Where the blanks end depends neither on the position, nor on the names seen so
far, nor on the operators that are spelled like names, so a reader that goes back to the beginning
of a token finds the place from which that token, or another one in another position, is read.
-/

namespace IntervalCalc

namespace Cursor

theorem advance_advance (cursor : Cursor) (m n : Nat) :
    (cursor.advance m).advance n = cursor.advance (m + n) := by
  fun_induction cursor.advance m with
  | case1 cursor => rw [Nat.zero_add]
  | case2 m passed location mark => cases n <;> rfl
  | case3 m passed c rest location mark ih => rw [ih, Nat.succ_add, advance]

theorem length_rest_advance (cursor : Cursor) (n : Nat) :
    (cursor.advance n).rest.length = cursor.rest.length - n := by
  rw [rest_advance, List.length_drop]

theorem ofList_advance (text : List Char) (n : Nat) :
    (ofList text).advance n =
      ⟨(text.take n).reverse, text.drop n, (text.take n).foldl Location.after .start, 0⟩ := by
  have hp := passed_advance (ofList text) n
  have hr := rest_advance (ofList text) n
  have hl := location_advance (ofList text) n
  have hm := mark_advance (ofList text) n
  cases h : (ofList text).advance n
  rw [h] at hp hr hl hm
  simp only [ofList, List.append_nil] at hp hr hl hm
  rw [hp, hr, hl, hm]

theorem offset_after (location : Location) (c : Char) :
    (location.after c).offset = location.offset + c.utf8Size := by
  unfold Location.after
  split <;> rfl

theorem offset_foldl_le (text : List Char) (location : Location) :
    location.offset ≤ (text.foldl Location.after location).offset := by
  induction text generalizing location with
  | nil => exact Nat.le_refl _
  | cons c text ih =>
      have step := ih (location.after c)
      rw [offset_after] at step
      exact Nat.le_trans (Nat.le_add_right _ _) step

theorem offset_advance_le (cursor : Cursor) (n : Nat) :
    cursor.location.offset ≤ (cursor.advance n).location.offset := by
  rw [location_advance]
  exact offset_foldl_le _ _

theorem offset_advance_lt {cursor : Cursor} (more : cursor.rest ≠ []) (n : Nat) :
    cursor.location.offset < (cursor.advance (n + 1)).location.offset := by
  obtain ⟨c, rest, text⟩ := List.exists_cons_of_ne_nil more
  have step := offset_foldl_le (rest.take n) (cursor.location.after c)
  have size := Char.utf8Size_pos c
  rw [offset_after] at step
  rw [location_advance, text, List.take_succ_cons, List.foldl_cons]
  omega

theorem splitAtByte_take (text passed : List Char) (n : Nat) (location : Location) :
    splitAtByte passed (((text.take n).foldl Location.after location).offset - location.offset) text =
      ((text.take n).reverse ++ passed, text.drop n) := by
  induction text generalizing passed n location with
  | nil => simp [splitAtByte]
  | cons c rest ih =>
      cases n with
      | zero => simp [splitAtByte]
      | succ n =>
          have later := ih (c :: passed) n (location.after c)
          have bound := offset_foldl_le (rest.take n) (location.after c)
          have size := Char.utf8Size_pos c
          rw [offset_after] at later bound
          rw [List.take_succ_cons, List.foldl_cons, splitAtByte, if_neg (by simp; omega),
            Nat.sub_sub, later]
          simp only [List.reverse_cons, List.append_assoc, List.cons_append, List.nil_append,
            List.drop_succ_cons]

/-- Going back to a place that was passed restores the cursor of that place. -/
theorem reset_location_advance (text : List Char) (m n : Nat) :
    ((ofList text).advance m).reset ((ofList text).advance n).location = (ofList text).advance n := by
  have whole : ((ofList text).advance m).source = text := by
    rw [source_advance]
    rfl
  have split := splitAtByte_take text [] n .start
  unfold reset
  rw [whole, ofList_advance, ofList_advance]
  dsimp only
  change splitAtByte [] ((text.take n).foldl Location.after .start).offset text = _ at split
  rw [split, List.append_nil, Nat.zero_min]

end Cursor

theorem Interner.intern_intern (interner : Interner) (name : String) :
    (interner.intern name).2.intern name = interner.intern name := by
  have known := interner.lookup_intern name
  generalize interner.intern name = interned at known ⊢
  unfold intern
  rw [known]

theorem Except.bind_eq_ok {ε β γ : Type} {x : Except ε β} {f : β → Except ε γ} {c : γ}
    (h : x >>= f = .ok c) : ∃ b, x = .ok b ∧ f b = .ok c := by
  cases x with
  | error error => cases h
  | ok b => exact ⟨b, rfl, h⟩

theorem Except.bind_eq_error {ε β γ : Type} {x : Except ε β} {f : β → Except ε γ} {e : ε}
    (h : x >>= f = .error e) : x = .error e ∨ ∃ b, x = .ok b ∧ f b = .error e := by
  cases x with
  | error failed => exact .inl (congrArg _ (Except.error.inj h))
  | ok b => exact .inr ⟨b, rfl, h⟩

theorem Except.map_eq_ok {ε β γ : Type} {x : Except ε β} {f : β → γ} {c : γ}
    (h : x.map f = .ok c) : ∃ b, x = .ok b ∧ f b = c := by
  cases x with
  | error failed => cases h
  | ok b => exact ⟨b, rfl, Except.ok.inj h⟩

theorem Except.map_eq_error {ε β γ : Type} {x : Except ε β} {f : β → γ} {e : ε}
    (h : x.map f = .error e) : x = .error e := by
  cases x with
  | error failed => exact congrArg _ (Except.error.inj h)
  | ok b => cases h

/-- The operators that are not spelled like names. -/
def Vocabulary.symbols (vocabulary : Vocabulary) : Vocabulary :=
  vocabulary.filter fun name => !isIdentifier name.toList

theorem Vocabulary.longestSymbol?_symbols (vocabulary : Vocabulary) (text : List Char) :
    vocabulary.symbols.longestSymbol? text = vocabulary.longestSymbol? text := by
  unfold longestSymbol? symbols
  dsimp only
  rw [List.filter_filter]
  congr 2
  funext name
  cases isIdentifier name.toList <;> simp

theorem Vocabulary.longestSymbol?_congr {vocabulary other : Vocabulary}
    (same : vocabulary.symbols = other.symbols) (text : List Char) :
    vocabulary.longestSymbol? text = other.longestSymbol? text := by
  rw [← longestSymbol?_symbols, same, longestSymbol?_symbols]

/-- A fold that keeps what it has or takes the next member ends with one of them. -/
theorem mem_of_foldl_eq_some {β : Type} {step : Option β → β → Option β}
    (keeps : ∀ longest next, step longest next = some next ∨ step longest next = longest)
    {members : List β} {last : β} : ∀ {first : Option β}, members.foldl step first = some last →
      last ∈ members ∨ first = some last := by
  induction members with
  | nil => intro first h; exact .inr h
  | cons next members ih =>
      intro first h
      rcases ih h with member | same
      · exact .inl (List.mem_cons_of_mem next member)
      · rcases keeps first next with taken | kept
        · exact .inl (Option.some.inj (taken.symm.trans same) ▸ List.mem_cons_self)
        · exact .inr (kept.symm.trans same)

theorem Vocabulary.longestSymbol?_some {vocabulary : Vocabulary} {text : List Char} {name : String}
    (found : vocabulary.longestSymbol? text = some name) :
    name ∈ vocabulary ∧ name.toList <+: text := by
  have chosen := mem_of_foldl_eq_some ?_ found
  · rcases chosen with member | absurd
    · obtain ⟨known, fits⟩ := List.mem_filter.mp member
      exact ⟨known, List.isPrefixOf_iff_prefix.mp (Bool.and_eq_true_iff.mp fits).1⟩
    · cases absurd
  · intro longest next
    cases longest with
    | none => exact .inl rfl
    | some best =>
        dsimp only
        split
        · exact .inl rfl
        · exact .inr rfl

theorem isDigit_eq_false_of_isBlank {c : Char} (blank : Unicode.isBlank c) : c.isDigit = false := by
  have code : ¬ (48 ≤ c.toNat ∧ c.toNat ≤ 57) := by
    intro digit
    simp only [Unicode.isBlank, Unicode.blankRanges, Unicode.RangeTable.contains, Bool.and_eq_true,
      Bool.or_eq_true, decide_eq_true_eq, Bool.false_eq_true] at blank
    omega
  rw [Char.isDigit, ← Bool.decide_and]
  exact decide_eq_false code

/-- What the characters of a text can spell. A symbol is spelled like a name. -/
def TokenKind.Spelled {α : Type} : TokenKind α → Prop
  | .literal (.symbol symbol) => isIdentifier symbol.name.toList
  | .endOfInput => False
  | _ => True

/-- A token leads over its characters. Only the operator of empty name has none. -/
def TokenKind.Spans {α : Type} (kind : TokenKind α) (cursor after : Cursor) : Prop :=
  ∃ n, after = cursor.advance n ∧ (n = 0 ↔ kind = .operator "")

theorem TokenKind.Spans.of_ne {α : Type} {kind : TokenKind α} {cursor after : Cursor}
    (solid : kind ≠ .operator "") (forward : ∃ n, after = cursor.advance (n + 1)) :
    kind.Spans cursor after := by
  obtain ⟨n, place⟩ := forward
  exact ⟨n + 1, place, iff_of_false (Nat.succ_ne_zero n) solid⟩

namespace Recognizer

variable {α : Type} [Scalar α] [Numeral α]
variable {position other : Position} {vocabulary vocabulary' : Vocabulary}
variable {interner interner' : Interner} {cursor after : Cursor} {kind : TokenKind α}

/-- The cursors and bounds on the way through an interval literal. -/
structure IntervalLiteral (cursor after : Cursor) (low high : α) : Prop where
  opens : (cursor.peek 0 == some 'I' && cursor.peek 1 == some '{') = true
  bounds : ∃ first second third, scanBound (cursor.advance 2) = .ok (low, first) ∧
    first.advanceIf? ',' = some second ∧ scanBound second = .ok (high, third) ∧
    third.advanceIf? '}' = some after
  ends : (after.peek 0).any Unicode.isAlphanumeric = false

theorem IntervalLiteral.scan {low high : α} (h : IntervalLiteral cursor after low high)
    (interner : Interner) :
    scanInterval interner cursor =
      .ok (.token (.literal (.interval (.between low high))) after interner) := by
  obtain ⟨first, second, third, hl, hc, hh, hb⟩ := h.bounds
  unfold scanInterval
  rw [if_pos h.opens, hl]
  simp only [bind, Except.bind, hc, hh, hb]
  rw [h.ends]
  rfl

theorem scanInterval_of_closed
    (closed : (cursor.peek 0 == some 'I' && cursor.peek 1 == some '{') = false) :
    scanInterval interner cursor = (.ok .declined : Except _ (Scan α)) := by
  unfold scanInterval
  rw [closed]
  rfl

theorem scanInterval_ok {scan : Scan α} (found : scanInterval interner cursor = .ok scan) :
    (scan = .declined ∧ (cursor.peek 0 == some 'I' && cursor.peek 1 == some '{') = false) ∨
      ∃ after low high, IntervalLiteral cursor after low high ∧
        scan = .token (.literal (.interval (.between low high))) after interner := by
  unfold scanInterval at found
  split at found
  next opens =>
    obtain ⟨⟨low, first⟩, hl, found⟩ := Except.bind_eq_ok found
    dsimp only at found
    cases hc : first.advanceIf? ',' with
    | none => rw [hc] at found; cases found
    | some second =>
        rw [hc] at found
        obtain ⟨⟨high, third⟩, hh, found⟩ := Except.bind_eq_ok found
        dsimp only at found
        cases hb : third.advanceIf? '}' with
        | none => rw [hb] at found; cases found
        | some after =>
            rw [hb] at found
            dsimp only at found
            split at found
            · cases found
            next ends =>
              cases found
              exact .inr ⟨after, low, high, ⟨opens, ⟨first, second, third, hl, hc, hh, hb⟩,
                Bool.eq_false_iff.mpr ends⟩, rfl⟩
  next opens =>
    cases found
    exact .inl ⟨rfl, Bool.eq_false_iff.mpr opens⟩

omit [Scalar α] in
theorem scanBound_ok {x : α} (found : scanBound cursor = .ok (x, after)) :
    ∃ n, after = cursor.advance n := by
  unfold scanBound at found
  split at found
  · cases found
  · cases found
    exact ⟨_, rfl⟩

theorem advanceIf?_some {c : Char} (found : cursor.advanceIf? c = some after) :
    after = cursor.advance 1 := by
  unfold Cursor.advanceIf? at found
  split at found
  · exact (Option.some.inj found).symm
  · cases found

omit [Scalar α] in
theorem IntervalLiteral.forward {low high : α} (h : IntervalLiteral cursor after low high) :
    ∃ n, after = cursor.advance (n + 1) := by
  obtain ⟨first, second, third, hl, hc, hh, hb⟩ := h.bounds
  obtain ⟨m, rfl⟩ := scanBound_ok hl
  obtain rfl := advanceIf?_some hc
  obtain ⟨n, rfl⟩ := scanBound_ok hh
  obtain rfl := advanceIf?_some hb
  simp only [Cursor.advance_advance]
  exact ⟨1 + m + 1 + n + 1, by congr 1; omega⟩

theorem blankLength_cons {c : Char} {rest : List Char} (blank : blankLength false (c :: rest) ≠ 0) :
    Unicode.isBlank c ∨ c = '#' := by
  rw [blankLength] at blank
  by_cases h : Unicode.isBlank c
  · exact .inl h
  · by_cases hash : c = '#'
    · exact .inr hash
    · simp [h, hash] at blank

theorem read?_of_not_isDigit {c : Char} {rest : List Char} (h : c.isDigit = false) :
    DecimalNumeral.read? (c :: rest) = none := by
  have none : (c :: rest).takeWhile Char.isDigit = [] := by
    rw [List.takeWhile_cons, if_neg (by rw [h]; exact Bool.false_ne_true)]
  unfold DecimalNumeral.read?
  rw [none]

theorem scanNumber_of_blank (blank : blankLength false cursor.rest ≠ 0) :
    scanNumber position interner cursor = (.declined : Scan α) := by
  unfold scanNumber
  cases h : cursor.rest with
  | nil => rw [h] at blank; exact absurd rfl blank
  | cons c rest =>
      rw [h] at blank
      have first := blankLength_cons blank
      have digit : c.isDigit = false := by
        rcases first with blank | rfl
        · exact isDigit_eq_false_of_isBlank blank
        · rfl
      have plus : c ≠ '+' := by
        rintro rfl
        rcases first with h | h
        · exact absurd h (by decide)
        · exact absurd h (by decide)
      have minus : c ≠ '-' := by
        rintro rfl
        rcases first with h | h
        · exact absurd h (by decide)
        · exact absurd h (by decide)
      have unsigned : sign? (c :: rest) = none := by
        unfold sign?
        split
        · exact absurd (List.cons.inj ‹_›).1 plus
        · exact absurd (List.cons.inj ‹_›).1 minus
        · rfl
      rw [unsigned, ite_self, read?_of_not_isDigit digit]

theorem lexeme_length {text : List Char} {numeral : DecimalNumeral}
    (found : DecimalNumeral.read? text = some numeral) : ∃ n, numeral.lexeme.length = n + 1 := by
  have digits := DecimalNumeral.whole_ne_nil found
  apply Nat.exists_eq_succ_of_ne_zero
  intro none
  have nil := List.eq_nil_of_length_eq_zero none
  unfold DecimalNumeral.lexeme at nil
  split at nil
  · exact digits nil
  · exact absurd (List.append_eq_nil_iff.mp nil).1 digits

theorem scanNumber_token
    (found : scanNumber position interner cursor = .token kind after interner') :
    interner' = interner ∧ (∃ value, kind = .literal (.number value)) ∧
      ∃ n, after = cursor.advance (n + 1) := by
  unfold scanNumber at found
  dsimp only at found
  split at found
  · split at found
    · cases found
    next numeral read =>
      cases found
      obtain ⟨n, length⟩ := lexeme_length read
      exact ⟨rfl, ⟨_, rfl⟩, n, by rw [Cursor.advanceOver, length]⟩
  · split at found
    · cases found
    next numeral read =>
      cases found
      refine ⟨rfl, ⟨_, rfl⟩, numeral.lexeme.length, ?_⟩
      rw [Cursor.advanceOver, Cursor.advance_advance, Nat.add_comm]

theorem scanNumber_declined (found : scanNumber position interner cursor = (.declined : Scan α)) :
    scanNumber position interner' cursor = (.declined : Scan α) := by
  unfold scanNumber at found ⊢
  dsimp only at found ⊢
  split at found
  · split at found <;> first | rfl | cases found
  · split at found <;> first | rfl | cases found

omit [Scalar α] [Numeral α] in
theorem scanName_token (found : scanName vocabulary interner cursor = .token kind after interner') :
    (∃ n, after = cursor.advance (n + 1)) ∧ kind ≠ .operator "" ∧ kind.Spelled ∧
      scanName vocabulary interner' cursor = .token kind after interner' := by
  unfold scanName at found ⊢
  cases spelled : nameLexeme cursor.rest with
  | nil => rw [spelled] at found; cases found
  | cons c rest =>
      have identifier := @isIdentifier_nameLexeme cursor.rest (by rw [spelled]; simp)
      rw [spelled] at found identifier
      dsimp only at found ⊢
      split at found
      next known =>
        cases found
        refine ⟨⟨_, rfl⟩, ?_, trivial, by rw [if_pos known]⟩
        intro same
        have empty : c :: rest = [] := String.ofList_eq_empty_iff.mp (TokenKind.operator.inj same)
        cases empty
      next unknown =>
        cases found
        refine ⟨⟨_, rfl⟩, (by rintro ⟨⟩), ?_, ?_⟩
        · rw [TokenKind.Spelled, Interner.name_intern, String.toList_ofList]
          exact identifier
        · rw [if_neg unknown, Interner.intern_intern]

/-- What makes a token moves forward unless it is the operator of empty name, names its symbols well,
and makes the same token again once its names are known. -/
theorem scan_token {recognizer : Recognizer}
    (found : recognizer.scan position vocabulary interner cursor = .ok (.token kind after interner')) :
    kind.Spans cursor after ∧ kind.Spelled ∧
      recognizer.scan position vocabulary interner' cursor = .ok (.token kind after interner') := by
  cases recognizer with
  | interval =>
      rcases scanInterval_ok found with ⟨declined, _⟩ | ⟨_, low, high, literal, same⟩
      · cases declined
      · cases same
        exact ⟨.of_ne (by rintro ⟨⟩) literal.forward, trivial, literal.scan interner⟩
  | name =>
      obtain ⟨forward, solid, named, again⟩ := scanName_token (Except.ok.inj found)
      exact ⟨.of_ne solid forward, named, congrArg Except.ok again⟩
  | number =>
      have scanned := Except.ok.inj found
      obtain ⟨rfl, ⟨value, rfl⟩, forward⟩ := scanNumber_token scanned
      exact ⟨.of_ne (by rintro ⟨⟩) forward, trivial, found⟩
  | operator =>
      have scanned := Except.ok.inj found
      unfold scanOperator at scanned
      split at scanned
      · cases scanned
      next symbol fits =>
        cases scanned
        refine ⟨⟨symbol.toList.length, rfl, ?_⟩, trivial, found⟩
        rw [List.length_eq_zero_iff, String.toList_eq_nil_iff, TokenKind.operator.injEq]
  | whitespace =>
      have scanned := Except.ok.inj found
      unfold scanBlank at scanned
      split at scanned <;> cases scanned

/-- Only the recognizer of blanks passes over something. -/
theorem scan_blank {recognizer : Recognizer}
    (found : recognizer.scan position vocabulary interner cursor =
      (.ok (.blank after) : Except _ (Scan α))) :
    recognizer = .whitespace ∧ blankLength false cursor.rest ≠ 0 ∧
      after = cursor.advance (blankLength false cursor.rest) := by
  cases recognizer with
  | interval =>
      rcases scanInterval_ok found with ⟨declined, _⟩ | ⟨_, low, high, literal, same⟩
      · cases declined
      · cases same
  | name =>
      have scanned := Except.ok.inj found
      unfold scanName at scanned
      split at scanned
      · cases scanned
      · dsimp only at scanned
        split at scanned <;> cases scanned
  | number =>
      have scanned := Except.ok.inj found
      unfold scanNumber at scanned
      dsimp only at scanned
      split at scanned <;> split at scanned <;> cases scanned
  | operator =>
      have scanned := Except.ok.inj found
      unfold scanOperator at scanned
      split at scanned <;> cases scanned
  | whitespace =>
      have scanned := Except.ok.inj found
      unfold scanBlank at scanned
      split at scanned
      · cases scanned
      next length positive =>
        cases scanned
        exact ⟨rfl, positive, rfl⟩

theorem scan_known {recognizer : Recognizer} {name : String}
    (found : recognizer.scan position vocabulary interner cursor =
      (.ok (.token (.operator name) after interner') : Except _ (Scan α))) : name ∈ vocabulary := by
  cases recognizer with
  | interval =>
      rcases scanInterval_ok found with ⟨declined, _⟩ | ⟨_, low, high, _, same⟩
      · cases declined
      · cases same
  | name =>
      have scanned := Except.ok.inj found
      unfold scanName at scanned
      split at scanned
      · cases scanned
      · dsimp only at scanned
        split at scanned
        next known => cases scanned; exact List.contains_iff_mem.mp known
        · cases scanned
  | number =>
      obtain ⟨_, ⟨value, literal⟩, _⟩ := scanNumber_token (Except.ok.inj found)
      cases literal
  | operator =>
      have scanned := Except.ok.inj found
      unfold scanOperator at scanned
      split at scanned
      · cases scanned
      next symbol fits => cases scanned; exact (Vocabulary.longestSymbol?_some fits).1
  | whitespace =>
      have scanned := Except.ok.inj found
      unfold scanBlank at scanned
      split at scanned <;> cases scanned

/-- Whether a recognizer declines depends on the position only for numbers, and on the operators
only for those that are not spelled like names. -/
theorem scan_declined {recognizer : Recognizer} (same : vocabulary.symbols = vocabulary'.symbols)
    (number : scanNumber position interner cursor = (.declined : Scan α) →
      scanNumber other interner' cursor = (.declined : Scan α))
    (found : recognizer.scan position vocabulary interner cursor =
      (.ok .declined : Except _ (Scan α))) :
    recognizer.scan other vocabulary' interner' cursor = (.ok .declined : Except _ (Scan α)) := by
  cases recognizer with
  | interval =>
      rcases scanInterval_ok found with ⟨_, closed⟩ | ⟨_, low, high, literal, scanned⟩
      · exact scanInterval_of_closed closed
      · cases scanned
  | name =>
      have scanned := Except.ok.inj found
      unfold scanName at scanned
      split at scanned
      next none =>
        change Except.ok (scanName vocabulary' interner' cursor) = _
        unfold scanName
        rw [none]
      · dsimp only at scanned
        split at scanned <;> cases scanned
  | number => exact congrArg Except.ok (number (Except.ok.inj found))
  | operator =>
      have scanned := Except.ok.inj found
      unfold scanOperator at scanned
      split at scanned
      next none =>
        rw [Vocabulary.longestSymbol?_congr same] at none
        change Except.ok (scanOperator vocabulary' interner' cursor) = _
        unfold scanOperator
        rw [none]
      · cases scanned
  | whitespace => exact found

end Recognizer

namespace Lexer

open Recognizer

variable {α : Type} [Scalar α] [Numeral α]
variable {lexer : Lexer} {position other : Position} {vocabulary vocabulary' : Vocabulary}
variable {interner interner' : Interner} {cursor after : Cursor} {kind : TokenKind α}

theorem firstScan_token {rules : List LexerRule}
    (found : firstScan position vocabulary interner cursor rules = .ok (.token kind after interner')) :
    kind.Spans cursor after ∧ kind.Spelled ∧
      firstScan position vocabulary interner' cursor rules = .ok (.token kind after interner') := by
  induction rules with
  | nil => cases found
  | cons rule rules ih =>
      rw [firstScan] at found ⊢
      split at found
      next declined =>
        rw [scan_declined rfl scanNumber_declined declined]
        exact ih found
      next decided =>
        obtain ⟨spans, named, again⟩ := scan_token found
        refine ⟨spans, named, ?_⟩
        rw [again]

theorem firstScan_known {rules : List LexerRule} {name : String}
    (found : firstScan position vocabulary interner cursor rules =
      (.ok (.token (.operator name) after interner') : Except _ (Scan α))) : name ∈ vocabulary := by
  induction rules with
  | nil => cases found
  | cons rule rules ih =>
      rw [firstScan] at found
      split at found
      · exact ih found
      · exact scan_known found

theorem firstScan_blank {rules : List LexerRule}
    (found : firstScan position vocabulary interner cursor rules =
      (.ok (.blank after) : Except _ (Scan α))) :
    blankLength false cursor.rest ≠ 0 ∧ after = cursor.advance (blankLength false cursor.rest) ∧
      ∀ other vocabulary' interner', vocabulary.symbols = vocabulary'.symbols →
        firstScan other vocabulary' interner' cursor rules =
          (.ok (.blank after) : Except _ (Scan α)) := by
  induction rules with
  | nil => cases found
  | cons rule rules ih =>
      rw [firstScan] at found
      split at found
      next declined =>
        obtain ⟨blank, place, anywhere⟩ := ih found
        refine ⟨blank, place, ?_⟩
        intro other vocabulary' interner' same
        rw [firstScan, scan_declined same (fun _ => scanNumber_of_blank blank) declined]
        exact anywhere other vocabulary' interner' same
      next decided =>
        obtain ⟨whitespace, blank, place⟩ := scan_blank found
        refine ⟨blank, place, ?_⟩
        intro other vocabulary' interner' same
        rw [whitespace] at found
        have scanned : rule.recognizer.scan other vocabulary' interner' cursor =
            (.ok (.blank after) : Except _ (Scan α)) := by
          rw [whitespace]
          exact found
        rw [firstScan, scanned]

/-- With more rounds than characters the rounds are never used up. -/
theorem nextOr_eq_nextOr {beyond beyond' : Except SyntaxError (Reading α)} {rounds rounds' : Nat}
    {cursor : Cursor} (enough : cursor.rest.length < rounds) (enough' : cursor.rest.length < rounds') :
    lexer.nextOr position vocabulary beyond interner rounds cursor =
      lexer.nextOr position vocabulary beyond' interner rounds' cursor := by
  induction rounds generalizing rounds' cursor with
  | zero => exact absurd enough (Nat.not_lt_zero _)
  | succ rounds ih =>
      cases rounds' with
      | zero => exact absurd enough' (Nat.not_lt_zero _)
      | succ rounds' =>
          rw [nextOr, nextOr]
          split
          · rfl
          next c rest text =>
            split
            · rfl
            · rfl
            next after blank =>
              obtain ⟨positive, place, _⟩ := firstScan_blank blank
              have shorter : after.rest.length < cursor.rest.length := by
                rw [place, Cursor.length_rest_advance, text, List.length_cons]
                rw [text] at positive
                omega
              exact ih (by omega) (by omega)
            · rfl

theorem nextOr_eq_next {beyond : Except SyntaxError (Reading α)} {rounds : Nat} {cursor : Cursor}
    (enough : cursor.rest.length < rounds) :
    lexer.nextOr position vocabulary beyond interner rounds cursor =
      lexer.next position vocabulary interner cursor :=
  nextOr_eq_nextOr enough (Nat.lt_succ_self _)

theorem next_of_blank {cursor after : Cursor}
    (blank : firstScan position vocabulary interner cursor lexer.rules =
      (.ok (.blank after) : Except _ (Scan α))) :
    lexer.next position vocabulary interner cursor =
      (lexer.next position vocabulary interner after : Except _ (Reading α)) := by
  obtain ⟨positive, place, _⟩ := firstScan_blank blank
  cases text : cursor.rest with
  | nil => rw [text] at positive; exact absurd rfl positive
  | cons first rest =>
      have shorter : after.rest.length < cursor.rest.length := by
        rw [place, Cursor.length_rest_advance, text, List.length_cons]
        rw [text] at positive
        omega
      rw [next, nextOr, text]
      dsimp only
      rw [blank]
      exact nextOr_eq_next (text ▸ shorter)

/-- The readings of a lexer: the end of the text, a token, or what is read behind blanks. -/
inductive Lexes (lexer : Lexer) (position : Position) (vocabulary : Vocabulary) (interner : Interner) :
    Cursor → Reading α → Prop
  | atEnd {cursor : Cursor} : cursor.rest = [] →
      Lexes lexer position vocabulary interner cursor (endReading interner cursor)
  | token {cursor after : Cursor} {kind : TokenKind α} {interner' : Interner} : cursor.rest ≠ [] →
      firstScan position vocabulary interner cursor lexer.rules = .ok (.token kind after interner') →
      Lexes lexer position vocabulary interner cursor ⟨⟨kind, cursor.location⟩, after, interner'⟩
  | blank {cursor after : Cursor} {r : Reading α} :
      firstScan position vocabulary interner cursor lexer.rules =
        (.ok (.blank after) : Except _ (Scan α)) →
      Lexes lexer position vocabulary interner after r →
      Lexes lexer position vocabulary interner cursor r

theorem next_of_end {cursor : Cursor} (finished : cursor.rest = []) :
    lexer.next position vocabulary interner cursor =
      (.ok (endReading interner cursor) : Except _ (Reading α)) := by
  rw [next, nextOr, finished]

theorem Lexes.next {cursor : Cursor} {r : Reading α}
    (h : Lexes lexer position vocabulary interner cursor r) :
    lexer.next position vocabulary interner cursor = .ok r := by
  induction h with
  | atEnd finished => exact next_of_end finished
  | @token cursor after kind interner' more found =>
      obtain ⟨first, rest, text⟩ := List.exists_cons_of_ne_nil more
      rw [Lexer.next, nextOr, text]
      dsimp only
      rw [found]
  | blank found _ ih => rw [next_of_blank found, ih]

theorem lexes_of_next {cursor : Cursor} {r : Reading α}
    (h : lexer.next position vocabulary interner cursor = .ok r) :
    Lexes lexer position vocabulary interner cursor r := by
  unfold Lexer.next at h
  generalize bound : cursor.rest.length = characters at h
  generalize (Except.ok (endReading interner cursor) : Except SyntaxError (Reading α)) = beyond at h
  induction characters using Nat.strongRecOn generalizing cursor with
  | ind characters ih =>
      rw [nextOr] at h
      split at h
      next finished => cases h; exact .atEnd finished
      next first rest text =>
        split at h
        · cases h
        next found => cases h; exact .token (by rw [text]; simp) found
        next after found =>
          obtain ⟨positive, place, _⟩ := firstScan_blank found
          have shorter : after.rest.length < characters := by
            rw [place, Cursor.length_rest_advance, ← bound, text, List.length_cons]
            rw [text] at positive
            omega
          refine .blank found (ih _ shorter rfl ?_)
          rw [← h]
          exact nextOr_eq_nextOr (Nat.lt_succ_self _) shorter
        · cases h

/-- What is read is either the end, where nothing is left, or a token that takes some of the text,
unless it is the operator of empty name. -/
theorem Lexes.progress {cursor : Cursor} {r : Reading α}
    (h : Lexes lexer position vocabulary interner cursor r) :
    (r.token.kind = .endOfInput ∧ r.cursor.rest = [] ∧ r.interner = interner) ∨
      (r.token.kind.Spelled ∧
        (r.token.kind ≠ .operator "" → r.cursor.rest.length < cursor.rest.length)) := by
  induction h with
  | atEnd finished => exact .inl ⟨rfl, finished, rfl⟩
  | @token cursor after kind interner' more found =>
      obtain ⟨⟨n, rfl, empty⟩, spelled, _⟩ := firstScan_token found
      have nonempty := List.length_pos_iff.mpr more
      refine .inr ⟨spelled, fun solid => ?_⟩
      have some : n ≠ 0 := fun none => solid (empty.mp none)
      change (cursor.advance n).rest.length < _
      rw [Cursor.length_rest_advance]
      omega
  | blank found _ ih =>
      obtain ⟨_, rfl, _⟩ := firstScan_blank found
      refine ih.imp id fun read => ⟨read.1, fun solid => Nat.lt_of_lt_of_le (read.2 solid) ?_⟩
      rw [Cursor.length_rest_advance]
      exact Nat.sub_le _ _

/-- An operator that is read is one of the vocabulary. -/
theorem Lexes.known {cursor : Cursor} {r : Reading α} {name : String}
    (h : Lexes lexer position vocabulary interner cursor r)
    (kind : r.token.kind = .operator name) : name ∈ vocabulary := by
  induction h with
  | atEnd => cases kind
  | token _ found =>
      obtain rfl := kind
      exact firstScan_known found
  | blank _ _ ih => exact ih kind

theorem Lexes.solid {cursor : Cursor} {r : Reading α}
    (h : Lexes lexer position vocabulary interner cursor r) (clear : "" ∉ vocabulary) :
    r.token.kind ≠ .operator "" :=
  fun empty => clear (h.known empty)

/-- A token that is not the operator of empty name takes at least one character. -/
theorem Lexes.takes {cursor : Cursor} {r : Reading α}
    (h : Lexes lexer position vocabulary interner cursor r) (word : r.token.kind ≠ .endOfInput)
    (solid : r.token.kind ≠ .operator "") :
    r.token.location.offset < r.cursor.location.offset := by
  induction h with
  | atEnd => exact absurd rfl word
  | token more found =>
      obtain ⟨⟨n, rfl, empty⟩, _⟩ := firstScan_token found
      obtain ⟨n, rfl⟩ := Nat.exists_eq_succ_of_ne_zero fun none => solid (empty.mp none)
      exact Cursor.offset_advance_lt more n
  | blank _ _ ih => exact ih word solid

/-- The operator of empty name is read again from where it was read, in the same position. -/
theorem Lexes.again_of_empty {cursor : Cursor} {r : Reading α}
    (h : Lexes lexer position vocabulary interner cursor r) (empty : r.token.kind = .operator "") :
    Lexes lexer position vocabulary r.interner r.cursor r := by
  induction h with
  | atEnd => cases empty
  | @token cursor after kind interner' more found =>
      obtain ⟨⟨n, rfl, nothing⟩, _, again⟩ := firstScan_token found
      obtain rfl := nothing.mpr empty
      rw [Cursor.advance] at again ⊢
      exact .token more again
  | blank _ _ ih => exact ih empty

/-- Once its names are known, a token is read again as it was, and teaches nothing new. -/
theorem Lexes.again {cursor : Cursor} {r : Reading α}
    (h : Lexes lexer position vocabulary interner cursor r) :
    Lexes lexer position vocabulary r.interner cursor r := by
  induction h with
  | atEnd finished => exact .atEnd finished
  | token more found => exact .token more (firstScan_token found).2.2
  | blank found _ ih => exact .blank ((firstScan_blank found).2.2 _ _ _ rfl) ih

theorem Lexes.ends {cursor : Cursor} {r : Reading α}
    (h : Lexes lexer position vocabulary interner cursor r) (ends : r.token.kind = .endOfInput)
    (same : vocabulary.symbols = vocabulary'.symbols) :
    Lexes lexer other vocabulary' interner' cursor ⟨r.token, r.cursor, interner'⟩ := by
  induction h with
  | atEnd finished => exact .atEnd finished
  | @token cursor after kind interner'' more found =>
      obtain rfl : kind = .endOfInput := ends
      exact (firstScan_token found).2.1.elim
  | blank found _ ih => exact .blank ((firstScan_blank found).2.2 _ _ _ same) (ih ends)

/-- A token begins at a place of the text from which everything is read that is read from the end
of the token before it. -/
theorem Lexes.place {cursor : Cursor} {r : Reading α}
    (h : Lexes lexer position vocabulary interner cursor r) :
    ∃ m n, r.token.location = (cursor.advance m).location ∧
      r.cursor = (cursor.advance m).advance n ∧
      ∀ other vocabulary' interner', vocabulary.symbols = vocabulary'.symbols →
        lexer.next other vocabulary' interner' cursor =
          (lexer.next other vocabulary' interner' (cursor.advance m) : Except _ (Reading α)) := by
  induction h with
  | atEnd finished => exact ⟨0, 0, rfl, rfl, fun _ _ _ _ => rfl⟩
  | token more found =>
      obtain ⟨⟨n, rfl, _⟩, _⟩ := firstScan_token found
      exact ⟨0, n, rfl, rfl, fun _ _ _ _ => rfl⟩
  | @blank cursor after r found _ ih =>
      obtain ⟨_, rfl, anywhere⟩ := firstScan_blank found
      obtain ⟨m, n, location, forward, same⟩ := ih
      refine ⟨blankLength false cursor.rest + m, n, ?_, ?_, ?_⟩
      · rw [location, Cursor.advance_advance]
      · rw [forward, Cursor.advance_advance cursor]
      · intro other vocabulary' interner' symbols
        rw [next_of_blank (anywhere other vocabulary' interner' symbols), same _ _ _ symbols,
          Cursor.advance_advance]

theorem next_of_error {error : SyntaxError} (more : cursor.rest ≠ [])
    (found : firstScan position vocabulary interner cursor lexer.rules =
      (.error error : Except _ (Scan α))) :
    lexer.next position vocabulary interner cursor = (.error error : Except _ (Reading α)) := by
  obtain ⟨first, rest, text⟩ := List.exists_cons_of_ne_nil more
  rw [next, nextOr, text]
  dsimp only
  rw [found]

theorem next_of_declined {c : Char} {rest : List Char} (text : cursor.rest = c :: rest)
    (found : firstScan position vocabulary interner cursor lexer.rules =
      (.ok .declined : Except _ (Scan α))) :
    lexer.next position vocabulary interner cursor =
      (.error ⟨.unexpectedCharacter c, cursor.location⟩ : Except _ (Reading α)) := by
  rw [next, nextOr, text]
  dsimp only
  rw [found]

section Tokens

variable {next : Interner → Cursor → Except SyntaxError (Reading α)}
variable {beyond : Interner → Cursor → Except SyntaxError (List (Token α) × Interner)}
variable {rounds : Nat} {r : Reading α}

omit [Scalar α] [Numeral α] in
theorem tokensOr_of_end (read : next interner cursor = .ok r) (ends : r.token.kind = .endOfInput) :
    tokensOr next beyond (rounds + 1) interner cursor = .ok ([], r.interner) := by
  rw [tokensOr, read]
  simp only [bind, Except.bind]
  rw [ends]
  rfl

omit [Scalar α] [Numeral α] in
/-- Reading goes on behind a token. -/
theorem tokensOr_of_token (read : next interner cursor = .ok r)
    (word : r.token.kind ≠ .endOfInput) :
    tokensOr next beyond (rounds + 1) interner cursor =
      (tokensOr next beyond rounds r.interner r.cursor).map
        fun later => (r.token :: later.1, later.2) := by
  obtain ⟨⟨kind, location⟩, after, interner'⟩ := r
  rw [tokensOr, read]
  simp only [bind, Except.bind]
  generalize tokensOr next beyond rounds interner' after = later
  cases kind with
  | endOfInput => exact absurd rfl word
  | operator => cases later <;> rfl
  | literal => cases later <;> rfl

omit [Scalar α] [Numeral α] in
theorem tokensOr_of_error {error : SyntaxError} (read : next interner cursor = .error error) :
    tokensOr next beyond (rounds + 1) interner cursor = .error error := by
  rw [tokensOr, read]
  rfl

omit [Scalar α] [Numeral α] in
theorem tokensOr_of_next {other : Cursor} (same : next interner cursor = next interner other) :
    tokensOr next beyond (rounds + 1) interner cursor =
      tokensOr next beyond (rounds + 1) interner other := by
  rw [tokensOr, tokensOr, same]

/-- Where no operator is empty, a text has no more tokens than characters. So nothing depends on what
lies beyond one more round. -/
theorem tokensOr_eq_tokensOr (clear : "" ∉ vocabulary) {n rounds' : Nat}
    {beyond' : Interner → Cursor → Except SyntaxError (List (Token α) × Interner)}
    (same : ∀ interner (cursor : Cursor), cursor.rest.length ≤ n →
      next interner cursor = lexer.next position vocabulary interner cursor)
    (short : cursor.rest.length ≤ n) (enough : cursor.rest.length < rounds)
    (enough' : cursor.rest.length < rounds') :
    tokensOr next beyond rounds interner cursor =
      tokensOr (lexer.next position vocabulary) beyond' rounds' interner cursor := by
  induction rounds generalizing rounds' interner cursor with
  | zero => exact absurd enough (Nat.not_lt_zero _)
  | succ rounds ih =>
      obtain ⟨rounds', rfl⟩ := Nat.exists_eq_succ_of_ne_zero (Nat.ne_of_gt (Nat.zero_lt_of_lt enough'))
      have alike := same interner cursor short
      cases read : lexer.next (α := α) position vocabulary interner cursor with
      | error error => rw [tokensOr_of_error (alike.trans read), tokensOr_of_error read]
      | ok r =>
          rcases (lexes_of_next read).progress with ⟨ends, _⟩ | ⟨spelled, less⟩
          · rw [tokensOr_of_end (alike.trans read) ends, tokensOr_of_end read ends]
          · have fewer := less ((lexes_of_next read).solid clear)
            have word : r.token.kind ≠ .endOfInput := by
              intro ends
              rw [ends] at spelled
              exact spelled
            have later := @ih r.interner r.cursor rounds' (by omega) (by omega) (by omega)
            rw [tokensOr_of_token (alike.trans read) word, tokensOr_of_token read word, later]

end Tokens

end Lexer

end IntervalCalc

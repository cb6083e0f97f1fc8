import Mathlib.Data.List.TakeWhile
import IntervalCalc.Proofs.Lexing.Scanner
import IntervalCalc.Scalar.Float

/-!
The order in which recognizers are tried. However they are registered they stand in the order of
their levels, the earlier one first among equal levels, and the first of them that does not decline
decides what is read.
-/

namespace IntervalCalc

namespace Lexer

variable {rule : LexerRule} {rules rules' : List LexerRule}

/-- Rules in the order of their levels, the highest first. -/
def Ranked (rules : List LexerRule) : Prop :=
  rules.Pairwise fun earlier later => later.level ≤ earlier.level

/-- The rules of a level in their order. -/
def atLevel (level : Nat) (rules : List LexerRule) : List LexerRule :=
  rules.filter (·.level == level)

theorem atLevel_append (level : Nat) (front back : List LexerRule) :
    atLevel level (front ++ back) = atLevel level front ++ atLevel level back :=
  List.filter_append ..

theorem atLevel_cons_self : atLevel rule.level (rule :: rules) = rule :: atLevel rule.level rules :=
  List.filter_cons_of_pos (beq_self_eq_true _)

theorem mem_of_atLevel (same : ∀ level, atLevel level rules = atLevel level rules')
    (mem : rule ∈ rules) : rule ∈ rules' := by
  have found : rule ∈ atLevel rule.level rules := List.mem_filter.mpr ⟨mem, beq_self_eq_true _⟩
  rw [same] at found
  exact List.mem_of_mem_filter found

theorem Ranked.level_le {top : LexerRule} (ranked : Ranked (top :: rules))
    (mem : rule ∈ top :: rules) : rule.level ≤ top.level := by
  cases mem with
  | head => exact Nat.le_refl _
  | tail _ mem => exact List.rel_of_pairwise_cons ranked mem

/-- Rules in the order of their levels are told by what there is at each level. -/
theorem Ranked.eq_of_atLevel (ranked : Ranked rules) (ranked' : Ranked rules')
    (same : ∀ level, atLevel level rules = atLevel level rules') : rules = rules' := by
  induction rules generalizing rules' with
  | nil =>
      cases rules' with
      | nil => rfl
      | cons top' rest' =>
          exact nomatch mem_of_atLevel (fun level => (same level).symm) (List.mem_cons_self)
  | cons top rest ih =>
      cases rules' with
      | nil => exact nomatch mem_of_atLevel same List.mem_cons_self
      | cons top' rest' =>
          have below : top.level ≤ top'.level :=
            ranked'.level_le (mem_of_atLevel same List.mem_cons_self)
          have above : top'.level ≤ top.level :=
            ranked.level_le (mem_of_atLevel (fun level => (same level).symm) List.mem_cons_self)
          have heads := same top.level
          rw [atLevel_cons_self, Nat.le_antisymm below above, atLevel_cons_self] at heads
          obtain rfl := (List.cons.inj heads).1
          rw [ih ranked.of_cons ranked'.of_cons fun level => ?_]
          have rests := same level
          rw [atLevel, atLevel, List.filter_cons, List.filter_cons] at rests
          split at rests
          · exact (List.cons.inj rests).2
          · exact rests

/-- Behind the rules of a level and above, those of lower levels are left. -/
theorem Ranked.level_lt_of_mem_dropWhile {level : Nat} (ranked : Ranked rules)
    (mem : rule ∈ rules.dropWhile (level ≤ ·.level)) : rule.level < level := by
  induction rules with
  | nil => cases mem
  | cons top rest ih =>
      rw [List.dropWhile_cons] at mem
      split at mem
      next high => exact ih ranked.of_cons mem
      next low =>
        rw [decide_eq_true_iff] at low
        exact Nat.lt_of_le_of_lt (ranked.level_le mem) (Nat.lt_of_not_le low)

/-- A rule is put between those of its level and above and those of lower levels. -/
theorem register_split {lexer : Lexer} (ranked : Ranked lexer.rules) (rule : LexerRule) :
    ∃ front back, lexer = ⟨front ++ back⟩ ∧ lexer.register rule = ⟨front ++ rule :: back⟩ ∧
      (∀ earlier ∈ front, rule.level ≤ earlier.level) ∧
      ∀ later ∈ back, later.level < rule.level := by
  refine ⟨_, _, congrArg Lexer.mk List.takeWhile_append_dropWhile.symm, rfl, ?_, ?_⟩
  · intro earlier mem
    have passes := List.mem_takeWhile_imp mem
    exact of_decide_eq_true passes
  · intro later mem
    exact ranked.level_lt_of_mem_dropWhile mem

theorem ranked_register {lexer : Lexer} (ranked : Ranked lexer.rules) (rule : LexerRule) :
    Ranked (lexer.register rule).rules := by
  obtain ⟨front, back, rfl, placed, above, below⟩ := register_split ranked rule
  obtain ⟨first, last, _⟩ := List.pairwise_append.mp ranked
  rw [placed]
  refine List.pairwise_append.mpr ⟨first, List.pairwise_cons.mpr ⟨?_, last⟩, ?_⟩
  · intro later mem
    exact Nat.le_of_lt (below later mem)
  · intro earlier mem later mem'
    cases mem' with
    | head => exact above earlier mem
    | tail _ mem' => exact Nat.le_trans (Nat.le_of_lt (below later mem')) (above earlier mem)

/-- At its level a rule is put behind those that are there. -/
theorem atLevel_register {lexer : Lexer} (ranked : Ranked lexer.rules) (rule : LexerRule)
    (level : Nat) :
    atLevel level (lexer.register rule).rules = atLevel level (lexer.rules ++ [rule]) := by
  obtain ⟨front, back, rfl, placed, _, below⟩ := register_split ranked rule
  rw [placed]
  dsimp only
  rw [← List.singleton_append, List.append_assoc, atLevel_append, atLevel_append, atLevel_append,
    atLevel_append]
  by_cases own : rule.level = level
  · have lower : atLevel level back = [] := by
      refine List.filter_eq_nil_iff.mpr fun later mem => ?_
      have less := below later mem
      rw [beq_iff_eq]
      omega
    rw [lower, List.append_nil, List.nil_append]
  · have other : atLevel level [rule] = [] :=
      List.filter_cons_of_neg fun same => own (eq_of_beq same)
    rw [other, List.append_nil, List.nil_append]

example : (standard.register ⟨"late", .number, 20⟩).rules.map LexerRule.name =
    ["interval", "name", "number", "late", "operator", "whitespace"] := by
  decide

theorem ranked_registrations {lexer : Lexer} (ranked : Ranked lexer.rules)
    (registrations : List LexerRule) : Ranked (registrations.foldl register lexer).rules := by
  induction registrations generalizing lexer with
  | nil => exact ranked
  | cons rule registrations ih => exact ih (ranked_register ranked rule)

theorem atLevel_registrations {lexer : Lexer} (ranked : Ranked lexer.rules)
    (registrations : List LexerRule) (level : Nat) :
    atLevel level (registrations.foldl register lexer).rules =
      atLevel level (lexer.rules ++ registrations) := by
  induction registrations generalizing lexer with
  | nil => rw [List.foldl_nil, List.append_nil]
  | cons rule registrations ih =>
      rw [List.foldl_cons, ih (ranked_register ranked rule), atLevel_append,
        atLevel_register ranked, ← atLevel_append, List.append_assoc, List.singleton_append]

theorem ranked_nil : Ranked [] :=
  List.Pairwise.nil

/-- The order of the levels, the highest first. -/
def outranks (earlier later : LexerRule) : Bool :=
  later.level ≤ earlier.level

theorem outranks_trans (a b c : LexerRule) (first : outranks a b) (second : outranks b c) :
    outranks a c :=
  decide_eq_true (Nat.le_trans (of_decide_eq_true second) (of_decide_eq_true first))

theorem outranks_total (a b : LexerRule) : (outranks a b || outranks b a) = true := by
  rw [Bool.or_eq_true, outranks, outranks, decide_eq_true_iff, decide_eq_true_iff]
  exact Nat.le_total b.level a.level

theorem ranked_mergeSort (rules : List LexerRule) : Ranked (rules.mergeSort outranks) :=
  (List.pairwise_mergeSort outranks_trans outranks_total rules).imp of_decide_eq_true

/-- Sorting is stable: the rules of a level keep their order. -/
theorem atLevel_mergeSort (level : Nat) (rules : List LexerRule) :
    atLevel level (rules.mergeSort outranks) = atLevel level rules := by
  have tied : (atLevel level rules).Pairwise fun a b => outranks a b := by
    refine List.pairwise_of_forall_mem_list fun a mem b mem' => ?_
    have first := eq_of_beq (List.mem_filter.mp mem).2
    have second := eq_of_beq (List.mem_filter.mp mem').2
    exact decide_eq_true (Nat.le_of_eq (second.trans first.symm))
  have kept : (atLevel level rules).Sublist (rules.mergeSort outranks) :=
    List.sublist_mergeSort outranks_trans outranks_total tied List.filter_sublist
  have within := kept.filter (·.level == level)
  have same : (atLevel level rules).filter (·.level == level) = atLevel level rules :=
    List.filter_eq_self.mpr fun r mem => (List.mem_filter.mp mem).2
  rw [same] at within
  have count := ((List.mergeSort_perm rules outranks).filter (·.level == level)).length_eq
  exact (within.eq_of_length count.symm).symm

theorem registrations_eq_mergeSort (registrations : List LexerRule) :
    (registrations.foldl register empty).rules = registrations.mergeSort outranks := by
  refine (ranked_registrations ranked_nil registrations).eq_of_atLevel
    (ranked_mergeSort registrations) fun level => ?_
  rw [atLevel_mergeSort, atLevel_registrations ranked_nil]
  rfl

/-- The search counts the rules that pass a test, if those stand before all that do not. -/
def FindsPartition (search : (LexerRule → Bool) → List LexerRule → Nat) : Prop :=
  ∀ (test : LexerRule → Bool) (front back : List LexerRule), (∀ rule ∈ front, test rule = true) →
    (∀ rule ∈ back, test rule = false) → search test (front ++ back) = front.length

variable {search : (LexerRule → Bool) → List LexerRule → Nat}

theorem insertIdx_length_append (front back : List LexerRule) (rule : LexerRule) :
    (front ++ back).insertIdx front.length rule = front ++ rule :: back := by
  induction front with
  | nil => rfl
  | cons top front ih => exact congrArg (top :: ·) ih

/-- A rule for which a search is made is put in its place. -/
theorem registerBy_eq_register (finds : FindsPartition search) {lexer : Lexer}
    (ranked : Ranked lexer.rules) (rule : LexerRule) :
    lexer.registerBy search rule = lexer.register rule := by
  obtain ⟨front, back, rfl, placed, above, below⟩ := register_split ranked rule
  have found := finds (rule.level ≤ ·.level) front back
    (fun earlier mem => decide_eq_true (above earlier mem))
    (fun later mem => decide_eq_false (Nat.not_le_of_lt (below later mem)))
  rw [placed, registerBy, found, insertIdx_length_append]

theorem registrationsBy_eq (finds : FindsPartition search) {lexer : Lexer}
    (ranked : Ranked lexer.rules) (registrations : List LexerRule) :
    registrations.foldl (registerBy search) lexer = registrations.foldl register lexer := by
  induction registrations generalizing lexer with
  | nil => rfl
  | cons rule registrations ih =>
      rw [List.foldl_cons, List.foldl_cons, registerBy_eq_register finds ranked,
        ih (ranked_register ranked rule)]

/-- The place is kept between the two that are still halved. -/
theorem bisectBetween_eq {test : LexerRule → Bool} {front back : List LexerRule}
    (passing : ∀ rule ∈ front, test rule = true) (failing : ∀ rule ∈ back, test rule = false)
    {bound low high : Nat} (within : high - low ≤ bound) (after : low ≤ front.length)
    (before : front.length ≤ high) :
    bisectBetween test (front ++ back) bound low high = front.length := by
  induction bound generalizing low high with
  | zero =>
      rw [bisectBetween]
      omega
  | succ bound ih =>
      rw [bisectBetween]
      split
      next met => omega
      next apart =>
        generalize half : (low + high) / 2 = middle
        by_cases inFront : middle < front.length
        · have passes : (front ++ back)[middle]?.any test = true := by
            rw [List.getElem?_append_left inFront, List.getElem?_eq_getElem inFront]
            exact passing _ (List.getElem_mem inFront)
          rw [if_pos passes]
          exact ih (by omega) inFront before
        · have fails : ¬ (front ++ back)[middle]?.any test = true := by
            rw [List.getElem?_append_right (Nat.le_of_not_lt inFront)]
            cases found : back[middle - front.length]? with
            | none => exact Bool.false_ne_true
            | some rule =>
                rw [Option.any_some, failing rule (List.mem_of_getElem? found)]
                exact Bool.false_ne_true
          rw [if_neg fails]
          exact ih (by omega) after (Nat.le_of_not_lt inFront)

theorem findsPartition_bisect : FindsPartition bisect := by
  intro test front back passing failing
  refine bisectBetween_eq passing failing (Nat.sub_le _ _) (Nat.zero_le _) ?_
  rw [List.length_append]
  exact Nat.le_add_right _ _

end Lexer

namespace Scanner

section First

variable {α : Type} [Scalar α] [Numeral α]
variable {position : Position} {vocabulary : Vocabulary} {interner : Interner}
variable {text : List Char} {m n : Nat} {rule : LexerRule} {rules : List LexerRule}

variable (α) in
/-- Whether a rule that is tried here declines. -/
def declines (position : Position) (vocabulary : Vocabulary) (scanner : Scanner)
    (rule : LexerRule) : Bool :=
  match (recognize rule.recognizer position vocabulary scanner :
      EStateM.Result _ _ (Option (Taken α))) with
  | .ok none _ => true
  | _ => false

theorem declines_iff {scanner : Scanner} :
    declines α position vocabulary scanner rule = true ↔
      (rule.recognizer.scan position vocabulary scanner.interner scanner.cursor :
        Except _ (Scan α)) = .ok .declined := by
  have performs := performs_recognize (α := α) rule.recognizer position vocabulary scanner
  unfold declines
  generalize (recognize rule.recognizer position vocabulary scanner :
    EStateM.Result _ _ (Option (Taken α))) = result at performs ⊢
  generalize (rule.recognizer.scan position vocabulary _ _ : Except _ (Scan α)) = scan
    at performs ⊢
  cases performs with
  | declined => exact iff_of_true rfl rfl
  | blank => exact iff_of_false Bool.false_ne_true nofun
  | token => exact iff_of_false Bool.false_ne_true nofun
  | failed => exact iff_of_false Bool.false_ne_true nofun

/-- A rule that declines leaves all as it is. -/
theorem recognize_of_declines {scanner : Scanner}
    (declined : declines α position vocabulary scanner rule = true) :
    (recognize rule.recognizer position vocabulary scanner :
      EStateM.Result _ _ (Option (Taken α))) = .ok none scanner := by
  have performs := performs_recognize (α := α) rule.recognizer position vocabulary scanner
  rw [declines_iff.mp declined] at performs
  generalize (recognize rule.recognizer position vocabulary scanner :
    EStateM.Result _ _ (Option (Taken α))) = result at performs ⊢
  cases performs with
  | declined => rfl

/-- Whether a rule declines does not depend on the mark. -/
theorem declines_between (m' : Nat) :
    declines α position vocabulary ⟨.between text m n, interner⟩ rule =
      declines α position vocabulary ⟨.between text m' n, interner⟩ rule := by
  rw [Bool.eq_iff_iff, declines_iff, declines_iff]
  dsimp only
  have scan := Recognizer.scan_remark (α := α) (.between text m n) (String.utf8Len (text.take m'))
    interner rule.recognizer position vocabulary
  change Recognizer.scan _ _ _ _ (.between text m' n) = _ at scan
  rw [scan]
  cases (rule.recognizer.scan position vocabulary interner (.between text m n) :
      Except _ (Scan α)) with
  | error error => exact Iff.rfl
  | ok scan =>
      cases scan with
      | declined => exact Iff.rfl
      | blank after => exact iff_of_false nofun nofun
      | token kind after interner => exact iff_of_false nofun nofun

theorem tryRules_of_declines (declined : declines α position vocabulary
      ⟨.between text n n, interner⟩ rule = true) :
    (tryRules position vocabulary (.behind (text.take n)) (rule :: rules)
        ⟨.between text m n, interner⟩ : EStateM.Result _ _ (Option (Taken α))) =
      tryRules position vocabulary (.behind (text.take n)) rules ⟨.between text n n, interner⟩ := by
  rw [tryRules_cons, Cursor.setMark_between, recognize_of_declines declined]
  dsimp only
  rw [Cursor.reset_between, Nat.min_self]

/-- Nothing comes of the rules behind one that does not decline, nor of an earlier mark. -/
theorem tryRules_of_takes {k : Nat} (takes : declines α position vocabulary
      ⟨.between text n n, interner⟩ rule = false) :
    (tryRules position vocabulary (.behind (text.take n)) (rule :: rules)
        ⟨.between text m n, interner⟩ : EStateM.Result _ _ (Option (Taken α))) =
      tryRules position vocabulary (.behind (text.take n)) [rule]
        ⟨.between text k n, interner⟩ := by
  rw [tryRules_cons, tryRules_cons, Cursor.setMark_between, Cursor.setMark_between]
  unfold declines at takes
  generalize (recognize rule.recognizer position vocabulary _ :
    EStateM.Result _ _ (Option (Taken α))) = result at takes ⊢
  match result with
  | .ok (some taken) after => rfl
  | .ok none after => cases takes
  | .error error after => rfl

theorem tryRules_append {front back : List LexerRule} {k : Nat}
    (declining : ∀ other ∈ front, declines α position vocabulary
      ⟨.between text n n, interner⟩ other = true)
    (takes : declines α position vocabulary ⟨.between text n n, interner⟩ rule = false) :
    (tryRules position vocabulary (.behind (text.take n)) (front ++ rule :: back)
        ⟨.between text m n, interner⟩ : EStateM.Result _ _ (Option (Taken α))) =
      tryRules position vocabulary (.behind (text.take n)) [rule]
        ⟨.between text k n, interner⟩ := by
  induction front generalizing m with
  | nil => exact tryRules_of_takes takes
  | cons top front ih =>
      rw [List.cons_append, tryRules_of_declines (declining top List.mem_cons_self)]
      exact ih fun other mem => declining other (List.mem_cons_of_mem top mem)

/-- The rules before the first that does not decline might as well not be there. -/
theorem tryRules_of_find?
    (first : rules.find? (!declines α position vocabulary ⟨.between text m n, interner⟩ ·) =
      some rule) :
    (tryRules position vocabulary (.behind (text.take n)) rules ⟨.between text m n, interner⟩ :
        EStateM.Result _ _ (Option (Taken α))) =
      tryRules position vocabulary (.behind (text.take n)) [rule]
        ⟨.between text m n, interner⟩ := by
  obtain ⟨takes, front, back, rfl, declining⟩ := List.find?_eq_some_iff_append.mp first
  rw [Bool.not_eq_true', declines_between n] at takes
  refine tryRules_append (fun other mem => ?_) takes
  have declined := declining other mem
  rw [Bool.not_not, declines_between n] at declined
  exact declined

/-- Where every rule declines nothing is taken, and only the mark may have changed. -/
theorem tryRules_of_find?_none
    (none : rules.find? (!declines α position vocabulary ⟨.between text m n, interner⟩ ·) = none) :
    ∃ k, (tryRules position vocabulary (.behind (text.take n)) rules
        ⟨.between text m n, interner⟩ : EStateM.Result _ _ (Option (Taken α))) =
      .ok Option.none ⟨.between text k n, interner⟩ := by
  have declining := List.find?_eq_none.mp none
  clear none
  induction rules generalizing m with
  | nil => exact ⟨m, rfl⟩
  | cons top rules ih =>
      have declined (other) (mem : other ∈ top :: rules) :
          declines α position vocabulary ⟨.between text n n, interner⟩ other = true := by
        have never := declining other mem
        rw [Bool.not_eq_true, Bool.not_eq_false', declines_between n] at never
        exact never
      rw [tryRules_of_declines (declined top List.mem_cons_self)]
      refine ih fun other mem => ?_
      rw [declined other (List.mem_cons_of_mem top mem)]
      exact Bool.false_ne_true

variable {lexer : Lexer}

theorem token_of_find? {c : Char} {rest : List Char}
    (first : lexer.rules.find? (!declines α position vocabulary ⟨.between text m n, interner⟩ ·) =
      some rule) (ahead : text.drop n = c :: rest) :
    token lexer position vocabulary ⟨.between text m n, interner⟩ =
      conclude (.behind (text.take n)) (token lexer position vocabulary)
        (tryRules position vocabulary (.behind (text.take n)) [rule] ⟨.between text m n, interner⟩ :
          EStateM.Result _ _ (Option (Taken α))) := by
  have more : text.drop n ≠ [] := ahead ▸ List.cons_ne_nil c rest
  rw [token_of_more more, tryRules_of_find? first]

theorem token_of_find?_none {c : Char} {rest : List Char}
    (none : lexer.rules.find? (!declines α position vocabulary ⟨.between text m n, interner⟩ ·) =
      none) (ahead : text.drop n = c :: rest) :
    ∃ mark, (token lexer position vocabulary ⟨.between text m n, interner⟩ :
        EStateM.Result _ _ (Token α)) =
      .error ⟨.unexpectedCharacter c, .behind (text.take n)⟩
        ⟨(Cursor.between text m n).remark mark, interner⟩ := by
  obtain ⟨k, declined⟩ := tryRules_of_find?_none none
  have first : ((Cursor.between text k n).peek 0).getD '\x00' = c := by
    change ((text.drop n)[0]?).getD '\x00' = c
    rw [ahead]
    rfl
  have more : text.drop n ≠ [] := ahead ▸ List.cons_ne_nil c rest
  refine ⟨String.utf8Len (text.take k), ?_⟩
  rw [token_of_more more, declined, conclude, first]
  rfl

end First

variable (α : Type) [Scalar α] [Numeral α]

/-- However recognizers are registered, each in the place that a search finds for it, they are tried
in the order of their levels, and in the order of their registration at the same level. At every
place of every text the first of them that does not decline decides what is read there, as if those
before it had not been tried. -/
theorem first_taker_decides (search : (LexerRule → Bool) → List LexerRule → Nat)
    (finds : Lexer.FindsPartition search) (registrations : List LexerRule) :
    let lexer := registrations.foldl (Lexer.registerBy search) .empty
    lexer = registrations.foldl Lexer.register .empty ∧
    lexer.rules = registrations.mergeSort Lexer.outranks ∧
    (∀ level, Lexer.atLevel level lexer.rules = Lexer.atLevel level registrations) ∧
    ∀ (position : Position) (vocabulary : Vocabulary) (interner : Interner) (text : List Char)
      (m n : Nat),
      let scanner : Scanner := ⟨.between text m n, interner⟩
      let place := scanner.cursor.location
      let read : ScanM (Token α) := token lexer position vocabulary
      Reads (lexer.next position vocabulary interner scanner.cursor) (read scanner) ∧
      (scanner.cursor.rest = [] → read scanner = .ok ⟨.endOfInput, place⟩ scanner) ∧
      ∀ c rest, scanner.cursor.rest = c :: rest →
        (∀ rule, lexer.rules.find? (!declines α position vocabulary scanner ·) = some rule →
          read scanner =
            conclude place read (tryRules position vocabulary place [rule] scanner)) ∧
        (lexer.rules.find? (!declines α position vocabulary scanner ·) = none →
          ∃ mark, read scanner =
            .error ⟨.unexpectedCharacter c, place⟩ ⟨scanner.cursor.remark mark, interner⟩) := by
  intro lexer
  have placed : lexer = registrations.foldl Lexer.register .empty :=
    Lexer.registrationsBy_eq finds Lexer.ranked_nil registrations
  have sorted : lexer.rules = registrations.mergeSort Lexer.outranks :=
    placed ▸ Lexer.registrations_eq_mergeSort registrations
  clear_value lexer
  refine ⟨placed, sorted, fun level => sorted ▸ Lexer.atLevel_mergeSort level registrations, ?_⟩
  intro position vocabulary interner text m n scanner place read
  refine ⟨token_reads lexer position vocabulary text m m n interner, tokenWithin_of_end, ?_⟩
  intro c rest ahead
  exact ⟨fun rule first => token_of_find? first ahead, fun none => token_of_find?_none none ahead⟩

/-- Two recognizers of one level between those of a lower and a higher one, and a number, a text
that none of them reads, and the end. -/
theorem first_taker_decides_of_bisect :
    let registrations : List LexerRule := [⟨"whitespace", .whitespace, 0⟩, ⟨"early", .number, 20⟩,
      ⟨"name", .name, 50⟩, ⟨"late", .number, 20⟩]
    let lexer := registrations.foldl (Lexer.registerBy Lexer.bisect) .empty
    let read : ScanM (Token Float) := token lexer .operand []
    let number : Scanner := ⟨.between ['7', '$'] 0 0, .empty⟩
    let dollar : Scanner := ⟨.between ['7', '$'] 0 1, .empty⟩
    let finish : Scanner := ⟨.between ['7', '$'] 0 2, .empty⟩
    Lexer.FindsPartition Lexer.bisect ∧
    lexer.rules = [⟨"name", .name, 50⟩, ⟨"early", .number, 20⟩, ⟨"late", .number, 20⟩,
      ⟨"whitespace", .whitespace, 0⟩] ∧
    read number =
      conclude .start read (tryRules .operand [] .start [⟨"early", .number, 20⟩] number) ∧
    (∃ mark, read dollar =
      .error ⟨.unexpectedCharacter '$', ⟨1, 1, 2⟩⟩ ⟨dollar.cursor.remark mark, .empty⟩) ∧
    read finish = .ok ⟨.endOfInput, ⟨2, 1, 3⟩⟩ finish := by
  intro registrations lexer read number dollar finish
  have finds := Lexer.findsPartition_bisect
  obtain ⟨placed, _, _, decides⟩ := first_taker_decides Float Lexer.bisect finds registrations
  have order : lexer.rules = [⟨"name", .name, 50⟩, ⟨"early", .number, 20⟩, ⟨"late", .number, 20⟩,
      ⟨"whitespace", .whitespace, 0⟩] := congrArg Lexer.rules placed
  have atNumber := (decides .operand [] .empty ['7', '$'] 0 0).2.2 '7' ['$'] rfl
  have atDollar := (decides .operand [] .empty ['7', '$'] 0 1).2.2 '$' [] rfl
  have atEnd := (decides .operand [] .empty ['7', '$'] 0 2).2.1 rfl
  exact ⟨finds, order, atNumber.1 ⟨"early", .number, 20⟩ rfl, atDollar.2 rfl, atEnd⟩

end Scanner

end IntervalCalc

import Mathlib.Data.List.Forall2
import IntervalCalc.Proofs.Engine.Reached
import IntervalCalc.Scalar.Float
import IntervalCalc.Session.Basic

/-!
Lines and the engine behind them. A line is a program to run, a file to run, names to forget, or
nothing that concerns the engine. What it has to say does not depend on the settings, which only
decide how much of it is shown. So sessions with the same lines go the same way, whatever they show.
-/

namespace IntervalCalc

open Unicode (isBlank)

/-- The words of a text: stretches without blanks that end at a blank or with the text. -/
inductive Spaced : List Char → List String → Prop
  | blank {text : List Char} : (∀ c ∈ text, isBlank c) → Spaced text []
  | word {front word rest : List Char} {words : List String} : (∀ c ∈ front, isBlank c) →
      word ≠ [] → (∀ c ∈ word, isBlank c = false) → (∀ c ∈ rest.head?, isBlank c) →
      Spaced rest words → Spaced (front ++ word ++ rest) (.ofList word :: words)

section Words

variable {text front word rest : List Char} {words : List String}

theorem Spaced.cons_blank {c : Char} (blank : isBlank c) (h : Spaced text words) :
    Spaced (c :: text) words := by
  cases h with
  | blank others => exact .blank (List.forall_mem_cons.mpr ⟨blank, others⟩)
  | word others some solid ends later =>
      exact .word (List.forall_mem_cons.mpr ⟨blank, others⟩) some solid ends later

theorem wordsAfter_of_blanks (blank : ∀ c ∈ front, isBlank c) :
    wordsAfter [] (front ++ text) = wordsAfter [] text := by
  induction front with
  | nil => rfl
  | cons c front ih =>
      obtain ⟨first, others⟩ := List.forall_mem_cons.mp blank
      rw [List.cons_append, wordsAfter, first, Bool.not_true, if_neg Bool.false_ne_true,
        List.isEmpty_nil, if_pos rfl, ih others]

theorem wordsAfter_of_solid (solid : ∀ c ∈ word, isBlank c = false) (begun : List Char) :
    wordsAfter begun (word ++ text) = wordsAfter (word.reverse ++ begun) text := by
  induction word generalizing begun with
  | nil => rfl
  | cons c word ih =>
      obtain ⟨first, others⟩ := List.forall_mem_cons.mp solid
      rw [List.cons_append, wordsAfter, first, Bool.not_false, if_pos rfl, ih others,
        List.reverse_cons, List.append_assoc, List.singleton_append]

theorem wordsAfter_of_ended (some : word ≠ []) (ends : ∀ c ∈ text.head?, isBlank c) :
    wordsAfter word text = word.reverse :: wordsAfter [] text := by
  have begun : word.isEmpty = false := List.isEmpty_eq_false_iff.mpr some
  cases text with
  | nil =>
      rw [wordsAfter, begun, if_neg Bool.false_ne_true]
      rfl
  | cons c rest =>
      have blank : isBlank c := ends c rfl
      rw [wordsAfter, wordsAfter, blank, begun]
      rfl

theorem Spaced.blankSeparated (h : Spaced text words) : blankSeparated text = words := by
  induction h with
  | @blank text blank =>
      have none := @wordsAfter_of_blanks [] _ blank
      rw [List.append_nil] at none
      rw [IntervalCalc.blankSeparated, none]
      rfl
  | @word front word rest words blank some solid ends _ ih =>
      have reversed : word.reverse ≠ [] := List.reverse_ne_nil_iff.mpr some
      rw [IntervalCalc.blankSeparated, List.append_assoc, wordsAfter_of_blanks blank,
        wordsAfter_of_solid solid, List.append_nil, wordsAfter_of_ended reversed ends,
        List.reverse_reverse, List.map_cons, ← ih]
      rfl

/-- A word whose letters are kept latest first. -/
theorem Spaced.reversed (some : word ≠ []) (solid : ∀ c ∈ word, isBlank c = false)
    (ends : ∀ c ∈ rest.head?, isBlank c) (later : Spaced rest words) :
    Spaced (word.reverse ++ rest) (.ofList word.reverse :: words) := by
  have front : ∀ c ∈ ([] : List Char), isBlank c := List.forall_mem_nil _
  refine @Spaced.word [] word.reverse rest words front ?_ ?_ ends later
  · exact List.reverse_ne_nil_iff.mpr some
  · exact fun c member => solid c (List.mem_reverse.mp member)

theorem spaced_wordsAfter {begun : List Char} (solid : ∀ c ∈ begun, isBlank c = false) :
    Spaced (begun.reverse ++ text) ((wordsAfter begun text).map String.ofList) := by
  have finished : Spaced [] [] := .blank (List.forall_mem_nil _)
  induction text generalizing begun with
  | nil =>
      cases begun with
      | nil => exact finished
      | cons c begun =>
          have some : c :: begun ≠ [] := List.cons_ne_nil c begun
          exact .reversed some solid (fun _ absurd => by cases absurd) finished
  | cons c rest ih =>
      cases blank : isBlank c with
      | false =>
          have longer := ih (List.forall_mem_cons.mpr ⟨blank, solid⟩)
          rw [List.reverse_cons, List.append_assoc, List.singleton_append] at longer
          rw [wordsAfter, blank, Bool.not_false, if_pos rfl]
          exact longer
      | true =>
          have nothing : ∀ c ∈ ([] : List Char), isBlank c = false := List.forall_mem_nil _
          have later := (ih nothing).cons_blank blank
          cases begun with
          | nil =>
              rw [wordsAfter, blank]
              exact later
          | cons d begun =>
              have ends : ∀ e ∈ (c :: rest).head?, isBlank e := by
                intro e same
                cases same
                exact blank
              have some : d :: begun ≠ [] := List.cons_ne_nil d begun
              rw [wordsAfter_of_ended some ends, wordsAfter, blank]
              exact .reversed some solid ends later

theorem spaced_iff : Spaced text words ↔ blankSeparated text = words := by
  constructor
  · exact Spaced.blankSeparated
  · rintro rfl
    have nothing : ∀ c ∈ ([] : List Char), isBlank c = false := List.forall_mem_nil _
    exact spaced_wordsAfter nothing

end Words

variable {α : Type}

/-- What a line has to say, however much of it the settings show. -/
inductive LineReport (α : Type) where
  | text (shown : String)
  | unparsed (error : SyntaxError)
  | parsed (tree : Expr α) (result : Except (EvalError α) (Expr α))

/-- What a line comes to, whatever the settings are. -/
structure LineReply (α : Type) where
  outcome : LineOutcome
  report : LineReport α
  engine : Engine α

/-- How a program that was run ends its line. -/
def LineOutcome.of {ε β : Type} (result : Except ε β) : LineOutcome :=
  if result.isOk then .done else .failed

/-- Whether a text asks the engine for nothing behind its colon. -/
structure Idle (files : FileReader) (text : List Char) : Prop where
  quit : ∀ rest, text ≠ 'q' :: rest
  reset : ∀ rest, text ≠ 'r' :: rest
  load : ∀ rest name names source, text = 'e' :: rest → Spaced rest (name :: names) →
    files name ≠ .ok source

section Reports

variable [Scalar α] [Numeral α]

/-- What is shown of a report. -/
def LineReport.shown (settings : Settings) : LineReport α → String
  | text shown => shown
  | unparsed error => Session.report (α := α) (.parsing error)
  | parsed tree (.error error) =>
    Session.parsedText settings tree ++ Session.report (.evaluation error)
  | parsed tree (.ok value) =>
    Session.parsedText settings tree ++ Session.valueText settings value

/-- A report of what a program comes to in an engine. -/
def LineReport.Tells (engine : Engine α) (source : String) : LineReport α → Prop
  | text _ => False
  | unparsed error => (engine.run source).1 = .error (.parsing error)
  | parsed tree result => (engine.parse source).1 = .ok tree ∧
      (engine.run source).1 = result.mapError .evaluation

/-- What a line without blanks around it comes to. -/
inductive Replies (engine : Engine α) (files : FileReader) : List Char → LineReply α → Prop
  | blank : Replies engine files [] ⟨.done, .text "", engine⟩
  | program {text : List Char} {report : LineReport α} : text ≠ [] → text.head? ≠ some ':' →
      report.Tells engine (.ofList text) →
      Replies engine files text
        ⟨.of (engine.run (.ofList text)).1, report, (engine.run (.ofList text)).2⟩
  | file {rest : List Char} {name : String} {names : List String} {source : String}
      {report : LineReport α} : Spaced rest (name :: names) → files name = .ok source →
      report.Tells engine source →
      Replies engine files (':' :: 'e' :: rest) ⟨.done, report, (engine.run source).2⟩
  | reset {rest : List Char} : Spaced rest [] →
      Replies engine files (':' :: 'r' :: rest) ⟨.done, .text "", engine.reset⟩
  | forget {rest : List Char} {name : String} {names : List String} (shown : String) :
      Spaced rest (name :: names) →
      Replies engine files (':' :: 'r' :: rest) ⟨.done, .text shown,
        (name :: names).foldl (fun engine name => (engine.forget name).2) engine⟩
  | quit {rest : List Char} : Replies engine files (':' :: 'q' :: rest) ⟨.exit, .text "", engine⟩
  | idle {rest : List Char} (shown : String) : Idle files rest →
      Replies engine files (':' :: rest) ⟨.done, .text shown, engine⟩

/-- A step that came to some reply, and showed of it what the settings say. -/
structure Session.Step.Shows (settings : Settings) (reply : LineReply α) (step : Session.Step α) :
    Prop where
  outcome : step.outcome = reply.outcome
  engine : step.session.engine = reply.engine
  output : step.output = reply.report.shown settings

variable {engine : Engine α} {files : FileReader} {text : List Char} {reply reply' : LineReply α}

/-- The text of a line decides how the line ends and what it leaves. -/
theorem Replies.same (h : Replies engine files text reply) (h' : Replies engine files text reply') :
    reply.outcome = reply'.outcome ∧ reply.engine = reply'.engine := by
  cases h with
  | blank =>
      cases h' with
      | blank => exact ⟨rfl, rfl⟩
      | program some => exact absurd rfl some
  | program some opens =>
      cases h' with
      | blank => exact absurd rfl some
      | program => exact ⟨rfl, rfl⟩
      | file | reset | forget | quit | idle => exact absurd rfl opens
  | file spaced read =>
      cases h' with
      | program _ opens => exact absurd rfl opens
      | file spaced' read' =>
          cases (spaced_iff.mp spaced).symm.trans (spaced_iff.mp spaced')
          cases read.symm.trans read'
          exact ⟨rfl, rfl⟩
      | idle shown idle => exact absurd read (idle.load _ _ _ _ rfl spaced)
  | reset spaced =>
      cases h' with
      | program _ opens => exact absurd rfl opens
      | reset => exact ⟨rfl, rfl⟩
      | forget shown' spaced' => cases (spaced_iff.mp spaced).symm.trans (spaced_iff.mp spaced')
      | idle shown idle => exact absurd rfl (idle.reset _)
  | forget shown spaced =>
      cases h' with
      | program _ opens => exact absurd rfl opens
      | reset spaced' => cases (spaced_iff.mp spaced).symm.trans (spaced_iff.mp spaced')
      | forget shown' spaced' =>
          cases (spaced_iff.mp spaced).symm.trans (spaced_iff.mp spaced')
          exact ⟨rfl, rfl⟩
      | idle shown idle => exact absurd rfl (idle.reset _)
  | quit =>
      cases h' with
      | program _ opens => exact absurd rfl opens
      | quit => exact ⟨rfl, rfl⟩
      | idle shown idle => exact absurd rfl (idle.quit _)
  | idle shown idle =>
      cases h' with
      | program _ opens => exact absurd rfl opens
      | file spaced read => exact absurd read (idle.load _ _ _ _ rfl spaced)
      | reset => exact absurd rfl (idle.reset _)
      | forget => exact absurd rfl (idle.reset _)
      | quit => exact absurd rfl (idle.quit _)
      | idle => exact ⟨rfl, rfl⟩

/-- A program is reported in the same way whatever the settings are. -/
theorem runProgram_shows (engine : Engine α) (source : String) :
    ∃ report : LineReport α, report.Tells engine source ∧ ∀ settings,
      Session.runProgram ⟨engine, settings⟩ source = ⟨.of (engine.run source).1,
        report.shown settings, ⟨(engine.run source).2, settings⟩⟩ := by
  cases parsed : (engine.parse source).1 with
  | error error =>
      have ran := Engine.run_of_parse_error parsed
      refine ⟨.unparsed error, congrArg Prod.fst ran, fun settings => ?_⟩
      have same : engine.parse source = (.error error, (engine.parse source).2) := by rw [← parsed]
      rw [Session.runProgram, same, ran]
      rfl
  | ok tree =>
      have ran := Engine.run_of_parse parsed
      have same : engine.parse source = (.ok tree, (engine.parse source).2) := by rw [← parsed]
      refine ⟨.parsed tree _, ⟨parsed, congrArg Prod.fst ran⟩, fun settings => ?_⟩
      rw [Session.runProgram, same, ran]
      dsimp only
      rcases (engine.parse source).2.evaluate tree with ⟨error | value, after⟩
      · rfl
      · rfl

omit [Scalar α] [Numeral α] in
/-- Names are dropped in their order. -/
theorem forgetAll_shows (engine : Engine α) (names : List String) :
    ∃ shown, ∀ settings, Session.forgetAll ⟨engine, settings⟩ names = ⟨.done, shown,
      ⟨names.foldl (fun engine name => (engine.forget name).2) engine, settings⟩⟩ := by
  induction names generalizing engine with
  | nil => exact ⟨"", fun _ => rfl⟩
  | cons name names ih =>
      obtain ⟨shown, same⟩ := ih (engine.forget name).2
      rcases forgot : engine.forget name with ⟨found | found, after⟩
      · rw [forgot] at same
        refine ⟨Listing.line s!"{name} is not defined" ++ shown, fun settings => ?_⟩
        rw [Session.forgetAll, forgot]
        dsimp only
        rw [same settings, List.foldl_cons, forgot]
      · rw [forgot] at same
        refine ⟨shown, fun settings => ?_⟩
        rw [Session.forgetAll, forgot]
        dsimp only
        rw [same settings, List.foldl_cons, forgot]

/-- Whether a command only changes settings or shows something. -/
def Command.Idle : Command → Prop
  | program _ | quit | reset _ | load _ => False
  | nothing | help _ | definitions | operators | setting _ | unknown _ => True

omit [Scalar α] in
theorem printed_shows (engine : Engine α) (settings : Settings) (shown : String) :
    (Session.printed ⟨engine, settings⟩ shown).Shows settings ⟨.done, .text shown, engine⟩ :=
  ⟨rfl, rfl, rfl⟩

omit [Scalar α] [Numeral α] in
/-- A setting is changed in the same way whatever it is. -/
theorem adjust_shows (name : Option String) : ∃ (shown : String)
    (change : Settings → Settings), ∀ session : Session α, session.adjust name =
      ⟨.done, shown, ⟨session.engine, change session.settings⟩⟩ := by
  by_cases debug : name = some "debug"
  · exact ⟨"", fun settings => { settings with debug := true }, fun _ => by rw [debug]; rfl⟩
  by_cases normal : name = some "normal"
  · exact ⟨"", fun settings => { settings with debug := false }, fun _ => by rw [normal]; rfl⟩
  by_cases tree : name = some "tree"
  · exact ⟨"", fun settings => { settings with showTree := true }, fun _ => by rw [tree]; rfl⟩
  by_cases plain : name = some "plain"
  · exact ⟨"", fun settings => { settings with showTree := false }, fun _ => by rw [plain]; rfl⟩
  refine ⟨Listing.line "Unknown setting", id, fun session => ?_⟩
  unfold Session.adjust
  split
  · exact absurd rfl debug
  · exact absurd rfl normal
  · exact absurd rfl tree
  · exact absurd rfl plain
  · rfl

theorem perform_idle (engine : Engine α) (files : FileReader) {command : Command}
    (idle : command.Idle) :
    ∃ shown, ∀ settings, (Session.perform ⟨engine, settings⟩ files command).Shows settings
      ⟨.done, .text shown, engine⟩ := by
  cases command with
  | program | quit | reset | load => exact idle.elim
  | help topics =>
      cases topics with
      | nil => exact ⟨_, fun settings => printed_shows engine settings Listing.overview⟩
      | cons topic topics =>
          exact ⟨_, fun settings => printed_shows engine settings
            (String.join ((topic :: topics).map (Listing.topic engine)))⟩
  | setting name =>
      obtain ⟨shown, change, same⟩ := @adjust_shows α name
      refine ⟨shown, fun settings => ?_⟩
      rw [Session.perform, same]
      exact ⟨rfl, rfl, rfl⟩
  | nothing => exact ⟨_, fun settings => printed_shows engine settings ""⟩
  | definitions =>
      exact ⟨_, fun settings => printed_shows engine settings (Listing.definitions engine)⟩
  | operators =>
      exact ⟨_, fun settings => printed_shows engine settings
        (Listing.operators engine.grammar.operators)⟩
  | unknown letter =>
      exact ⟨_, fun settings => printed_shows engine settings
        (Listing.line s!"Unknown command type {letter}. Ignoring")⟩

theorem ofLetter_idle {letter : Char} (quit : letter ≠ 'q') (reset : letter ≠ 'r')
    (load : letter ≠ 'e') (words : List String) : (Command.ofLetter letter words).Idle := by
  unfold Command.ofLetter
  split
  · exact absurd rfl quit
  · trivial
  · trivial
  · trivial
  · trivial
  · exact absurd rfl reset
  · exact absurd rfl load
  · trivial

theorem Idle.nil : Idle files [] where
  quit _ absurd := by cases absurd
  reset _ absurd := by cases absurd
  load _ _ _ _ absurd := by cases absurd

theorem Idle.of_letter {letter : Char} {rest : List Char} (quit : letter ≠ 'q')
    (reset : letter ≠ 'r') (load : letter ≠ 'e') : Idle files (letter :: rest) where
  quit _ same := quit (List.head_eq_of_cons_eq same)
  reset _ same := reset (List.head_eq_of_cons_eq same)
  load _ _ _ _ same := absurd (List.head_eq_of_cons_eq same) load

theorem Idle.of_load {rest : List Char}
    (closed : ∀ name ∈ (blankSeparated rest).head?, ∀ source, files name ≠ .ok source) :
    Idle files ('e' :: rest) where
  quit _ same := absurd (List.head_eq_of_cons_eq same) (by decide)
  reset _ same := absurd (List.head_eq_of_cons_eq same) (by decide)
  load _ name names source same spaced := by
    obtain rfl := List.tail_eq_of_cons_eq same
    refine closed name ?_ source
    rw [spaced_iff.mp spaced]
    rfl

/-- A file that is there is run, and any other is not. -/
theorem load_shows (engine : Engine α) (files : FileReader) (rest : List Char) :
    ∃ reply, Replies engine files (':' :: 'e' :: rest) reply ∧ ∀ settings,
      (Session.load ⟨engine, settings⟩ files (blankSeparated rest).head?).Shows settings reply := by
  have closed (none : ∀ name ∈ (blankSeparated rest).head?, ∀ source, files name ≠ .ok source)
      (shown : String) := @Replies.idle α _ _ engine files _ shown (.of_load none)
  cases words : blankSeparated rest with
  | nil =>
      rw [words] at closed
      have reply := closed (fun _ absurd => by cases absurd) ""
      exact ⟨_, reply, fun settings => printed_shows engine settings ""⟩
  | cons name names =>
      cases read : files name with
      | error reason =>
          rw [words] at closed
          have unread : ∀ other ∈ (name :: names).head?, ∀ source, files other ≠ .ok source := by
            rintro _ ⟨⟩ source absurd
            cases read.symm.trans absurd
          refine ⟨_, closed unread (Listing.line s!"Cannot open {name}: {reason}"),
            fun settings => ?_⟩
          rw [List.head?_cons, Session.load, read]
          exact printed_shows engine settings _
      | ok source =>
          obtain ⟨report, tells, same⟩ := runProgram_shows engine source
          refine ⟨_, .file (spaced_iff.mpr words) read tells, fun settings => ?_⟩
          rw [List.head?_cons, Session.load, read]
          dsimp only
          rw [same]
          exact ⟨rfl, rfl, rfl⟩

/-- A command comes to the same whatever the settings are. -/
theorem ofLetter_shows (engine : Engine α) (files : FileReader) (letter : Char)
    (rest : List Char) :
    ∃ reply, Replies engine files (':' :: letter :: rest) reply ∧ ∀ settings,
      (Session.perform ⟨engine, settings⟩ files
        (.ofLetter letter (blankSeparated rest))).Shows settings reply := by
  by_cases quit : letter = 'q'
  · rw [quit]
    exact ⟨_, .quit, fun settings => ⟨rfl, rfl, rfl⟩⟩
  by_cases reset : letter = 'r'
  · rw [reset]
    cases spaced : blankSeparated rest with
    | nil => exact ⟨_, .reset (spaced_iff.mpr spaced), fun settings => ⟨rfl, rfl, rfl⟩⟩
    | cons name names =>
        obtain ⟨shown, same⟩ := forgetAll_shows engine (name :: names)
        refine ⟨_, .forget shown (spaced_iff.mpr spaced), fun settings => ?_⟩
        have command : Command.ofLetter 'r' (name :: names) = .reset (name :: names) := rfl
        rw [command, Session.perform, same]
        · exact ⟨rfl, rfl, rfl⟩
        · exact List.cons_ne_nil name names
  by_cases load : letter = 'e'
  · rw [load]
    exact load_shows engine files rest
  · obtain ⟨shown, same⟩ := perform_idle engine files
      (ofLetter_idle quit reset load (blankSeparated rest))
    exact ⟨_, .idle shown (.of_letter quit reset load), same⟩

/-- A line comes to the same whatever the settings are. -/
theorem execute_shows (engine : Engine α) (files : FileReader) (line : String) :
    ∃ reply, Replies engine files (trimBlanks line.toList) reply ∧ ∀ settings,
      (Session.execute ⟨engine, settings⟩ files line).Shows settings reply := by
  unfold Session.execute Command.ofLine
  split
  next empty =>
    rw [empty]
    exact ⟨_, .blank, fun settings => printed_shows engine settings ""⟩
  next colon =>
    rw [colon]
    exact ⟨_, .idle "" .nil, fun settings => printed_shows engine settings ""⟩
  next letter rest command =>
    rw [command]
    exact ofLetter_shows engine files letter rest
  next some lone command =>
    obtain ⟨report, tells, same⟩ := runProgram_shows engine (.ofList (trimBlanks line.toList))
    refine ⟨_, .program some ?_ tells, fun settings => ?_⟩
    · intro colon
      obtain ⟨rest, text⟩ := List.head?_eq_some_iff.mp colon
      cases rest with
      | nil => exact lone text
      | cons letter rest => exact command letter rest text
    · rw [Session.perform, same]
      exact ⟨rfl, rfl, rfl⟩

/-- A line that changes a setting leaves the engine alone. -/
theorem execute_setting {line : String} (setting : [':', 's'] <+: trimBlanks line.toList)
    (engine : Engine α) (files : FileReader) (settings : Settings) :
    (Session.execute ⟨engine, settings⟩ files line).session.engine = engine := by
  obtain ⟨reply, replies, shows⟩ := execute_shows engine files line
  obtain ⟨rest, text⟩ := setting
  rw [← text] at replies
  have idle : Replies engine files (':' :: 's' :: rest) ⟨.done, .text "", engine⟩ :=
    .idle "" (.of_letter (by decide) (by decide) (by decide))
  rw [(shows settings).engine]
  exact (replies.same idle).2

/-- A line, with the settings that are changed before it and the files of the moment. -/
structure Turn where
  settings : List String
  files : FileReader
  line : String

/-- A line of a session, with the session before it. -/
structure Session.Record (α : Type) where
  before : Session α
  files : FileReader
  line : String
  step : Session.Step α

/-- What the lines of a session do, up to the one that ends it. -/
def Session.course (session : Session α) : List Turn → List (Session.Record α)
  | [] => []
  | turn :: turns =>
    let before := turn.settings.foldl (fun session line =>
      (session.execute turn.files line).session) session
    let step := before.execute turn.files turn.line
    ⟨before, turn.files, turn.line, step⟩ ::
      if step.outcome = .exit then [] else course step.session turns

/-- The same line, and otherwise only lines that change settings. -/
structure Turn.Common (turn turn' : Turn) : Prop where
  files : turn.files = turn'.files
  line : turn.line = turn'.line
  settings : ∀ line ∈ turn.settings, [':', 's'] <+: trimBlanks line.toList
  settings' : ∀ line ∈ turn'.settings, [':', 's'] <+: trimBlanks line.toList

/-- Lines that came to the same reply, each showing of it what its settings say. -/
def Session.Record.Alike (record record' : Session.Record α) : Prop :=
  ∃ reply : LineReply α,
    Replies record.before.engine record.files (trimBlanks record.line.toList) reply ∧
      Replies record'.before.engine record'.files (trimBlanks record'.line.toList) reply ∧
      record.step.Shows record.before.settings reply ∧
      record'.step.Shows record'.before.settings reply

theorem foldl_settings {lines : List String}
    (settings : ∀ line ∈ lines, [':', 's'] <+: trimBlanks line.toList)
    (files : FileReader) (session : Session α) :
    (lines.foldl (fun session line => (session.execute files line).session) session).engine =
      session.engine := by
  induction lines generalizing session with
  | nil => rfl
  | cons line lines ih =>
      obtain ⟨setting, others⟩ := List.forall_mem_cons.mp settings
      rw [List.foldl_cons, ih others]
      exact execute_setting setting session.engine files session.settings

theorem course_alike {turns turns' : List Turn} (common : List.Forall₂ Turn.Common turns turns')
    {session session' : Session α} (same : session.engine = session'.engine) :
    List.Forall₂ Session.Record.Alike (session.course turns) (session'.course turns') := by
  induction common generalizing session session' with
  | nil => exact .nil
  | @cons turn turn' turns turns' first others ih =>
      rw [Session.course, Session.course, ← first.files, ← first.line]
      have engine := foldl_settings first.settings turn.files session
      have engine' := foldl_settings first.settings' turn.files session'
      generalize turn.settings.foldl _ session = before at engine ⊢
      generalize turn'.settings.foldl _ session' = before' at engine' ⊢
      have both : before.engine = before'.engine := engine.trans (same.trans engine'.symm)
      obtain ⟨reply, replies, shows⟩ := execute_shows before.engine turn.files turn.line
      have here := shows before.settings
      have replies' := replies
      have there := shows before'.settings
      rw [both] at replies' there
      refine .cons ⟨reply, replies, replies', here, there⟩ ?_
      rw [here.outcome, there.outcome]
      split
      · exact .nil
      · exact ih (here.engine.trans there.engine.symm)

/-- The text of a line decides what it does to the engine, how it ends and what it has to say. The
settings only decide what is shown of that, so sessions that differ in settings, from their
beginning or by lines that change them, go the same way in all other lines. -/
theorem lines_run_engine (engine : Engine α) :
    (∀ files line,
      (∃ reply, Replies engine files (trimBlanks line.toList) reply ∧
        ∀ settings, (Session.execute ⟨engine, settings⟩ files line).Shows settings reply) ∧
      ∀ reply, Replies engine files (trimBlanks line.toList) reply → ∀ settings,
        (Session.execute ⟨engine, settings⟩ files line).outcome = reply.outcome ∧
          (Session.execute ⟨engine, settings⟩ files line).session.engine = reply.engine) ∧
    ∀ settings settings' turns turns', List.Forall₂ Turn.Common turns turns' →
      List.Forall₂ Session.Record.Alike (Session.course ⟨engine, settings⟩ turns)
        (Session.course ⟨engine, settings'⟩ turns') := by
  refine ⟨fun files line => ⟨execute_shows engine files line, ?_⟩, ?_⟩
  · intro reply replies settings
    obtain ⟨other, found, shows⟩ := execute_shows engine files line
    obtain ⟨outcome, after⟩ := found.same replies
    exact ⟨(shows settings).outcome.trans outcome, (shows settings).engine.trans after⟩
  · intro settings settings' turns turns' common
    exact course_alike common rfl

end Reports

/-- A session that changes its settings on the way and one that shows everything. A program, a file,
a program that fails, one that fails behind a name that was forgotten, and the end. -/
theorem lines_run_engine_of_two_sessions :
    let files : FileReader := fun name =>
      if name = "lib" then .ok "fun f(x) is x * 2 end" else .error "none"
    let turns : List Turn := [⟨[], files, " y = 3 "⟩, ⟨[":s debug"], files, ":e lib x"⟩,
      ⟨[":s", ":stree"], files, "f(y) + "⟩, ⟨[], files, ":r y f"⟩, ⟨[], files, "f(1)"⟩,
      ⟨[], files, ":q"⟩, ⟨[], files, "1"⟩]
    let turns' := turns.map fun turn => { turn with settings := [] }
    let course := Session.course (α := Float) ⟨.new, .batch⟩ turns
    let course' := Session.course (α := Float) ⟨.new, ⟨true, true, true⟩⟩ turns'
    List.Forall₂ Turn.Common turns turns' ∧
      course.map (·.step.outcome) = [.done, .done, .failed, .done, .failed, .exit] ∧
      List.Forall₂ Session.Record.Alike course course' := by
  intro files turns turns' course course'
  have settings : ∀ turn ∈ turns, ∀ line ∈ turn.settings,
      [':', 's'] <+: trimBlanks line.toList := by decide
  have common : List.Forall₂ Turn.Common turns turns' := by
    refine List.forall₂_map_right_iff.mpr (List.forall₂_same.mpr fun turn member => ?_)
    exact ⟨rfl, rfl, settings turn member, List.forall_mem_nil _⟩
  have alike := (lines_run_engine (.new : Engine Float)).2 .batch ⟨true, true, true⟩
  exact ⟨common, by decide +kernel, alike turns turns' common⟩

end IntervalCalc

import ReversePolish.CommandLine.Perform
import ReversePolish.Proofs.Reading
import ReversePolish.Proofs.Terminal

/-!
# ReversePolish.Proofs.Commands

**The two batch commands agree.**

Expressions can be handed over on the command line or one a line in a file. `eval` reports
each expression before it turns to the next one, and `file` evaluates all of them before
it reports any. Where every expression has an outcome the reports are the same, and where
one has none the reports of those before it are lost in `file` only
(`eval_and_file_agree`).

Design points:

* A command line is taken from its arguments to its transcript (`RunsTo`), so that what the
  expressions look like is part of the question: behind `--` they are expressions even
  where they look like options.
* Any reader of arguments and any console will do that keep to what the commands rely on.
  What is printed is told by the reports and by their layout.
* Each command has two lemmas, for a list that has entries and for one with an overlong
  literal in it. Both commands are told by the same entries, and those by `evaluate`.
-/

namespace ReversePolish

/-! ### Command lines -/

/-- The command line that evaluates expressions, whatever they look like. -/
def evalLine (skipEmpty : Bool) (expressions : List Text) : List Text :=
  skipOptions skipEmpty ++ "eval".toList :: optionsEnd :: expressions

/-- The command line that evaluates the lines of a file. -/
def fileLine (skipEmpty : Bool) (pathArguments : List Text) : List Text :=
  skipOptions skipEmpty ++ "file".toList :: pathArguments

/-- Whether a command line asks for a command that leaves a transcript behind. -/
def RunsTo (read : List Text → Request) (console : Console)
    (open? : Text → Except OpenFault (List UInt8)) (arguments : List Text)
    (transcript : Transcript) : Prop :=
  ∃ settings command, read arguments = .perform settings command ∧
    command.perform console open? settings = transcript

section

variable {read : List Text → Request}

/-- Behind `--` an expression is taken as it stands. -/
theorem ReadsArguments.evalLine (h : ReadsArguments read) {expressions : List Text}
    (hne : expressions ≠ []) (skipEmpty : Bool) :
    read (evalLine skipEmpty expressions) = .perform ⟨skipEmpty, false⟩ (.eval expressions) := by
  have hwrites : Writes expressions (optionsEnd :: expressions) :=
    @Writes.ended [] expressions (List.forall_mem_nil _)
  refine h hwrites ?_ skipEmpty
  unfold Command.ofWords?
  rw [if_pos rfl, List.isEmpty_eq_false_iff.mpr hne, if_neg Bool.false_ne_true]

theorem ReadsArguments.fileLine (h : ReadsArguments read) {path : Text}
    {pathArguments : List Text} (hwrites : Writes [path] pathArguments)
    (hnul : Path.hasNul path = false) (skipEmpty : Bool) :
    read (fileLine skipEmpty pathArguments) = .perform ⟨skipEmpty, false⟩ (.file path) := by
  refine h hwrites ?_ skipEmpty
  have hname : ¬ "file".toList = "eval".toList := by decide
  rw [Command.ofWords?, if_neg hname, if_pos rfl]
  exact if_neg (Bool.eq_false_iff.mp hnul)

end

/-! ### Reports -/

/-- What is shown of entries: a report for each of them, in order. -/
def reports (columns : Char → Nat) (entries : List BatchEntry) : Text :=
  entries.flatMap fun entry => laidOut columns entry.report ++ ['\n']

/-- The exit code of `eval` for entries: whether one of them has no value. -/
def failureCode (entries : List BatchEntry) : Nat :=
  if ∃ entry ∈ entries, entry.outcome.isSuccess = false then 1 else 0

theorem failureCode_le_one (entries : List BatchEntry) : failureCode entries ≤ 1 := by
  unfold failureCode
  split <;> decide

theorem failureCode_cons (entry : BatchEntry) (entries : List BatchEntry) :
    failureCode (entry :: entries) =
      max (if entry.outcome.isSuccess then 0 else 1) (failureCode entries) := by
  cases hsuccess : entry.outcome.isSuccess with
  | true => simp [failureCode, hsuccess]
  | false =>
      rw [if_neg Bool.false_ne_true, Nat.max_eq_left (failureCode_le_one entries)]
      simp [failureCode, hsuccess]

variable {console : Console} {skipEmpty : Bool} {expressions : List Text}
  {entries : List BatchEntry}

namespace Command

theorem evalOne_of_ok (hconsole : console.PrintsTexts) {expression : Text} {outcome : Outcome}
    (h : evaluate expression skipEmpty = .ok outcome) :
    evalOne console skipEmpty expression =
      ⟨laidOut console.columns (outcome.report expression) ++ ['\n'],
        if outcome.isSuccess then 0 else 1, none, outcome.log expression⟩ := by
  simp [evalOne, Transcript.evaluating, evaluateLogged_of_ok h, display, hconsole.text,
    Transcript.printing, Transcript.empty]

theorem evalOne_of_error {expression : Text} {overlong : Overlong}
    (h : evaluate expression skipEmpty = .error overlong) :
    evalOne console skipEmpty expression = .broken (.overlong overlong) [] := by
  simp only [evalOne, Transcript.evaluating, evaluateLogged_of_error h]

theorem evalAll_of_comeTo (hconsole : console.PrintsTexts)
    (h : ComeTo skipEmpty expressions entries) :
    evalAll console skipEmpty expressions =
      ⟨reports console.columns entries, failureCode entries, none, notes entries⟩ := by
  obtain ⟨rfl, houtcomes⟩ := h
  induction entries with
  | nil => rfl
  | cons entry entries ih =>
      obtain ⟨houtcome, houtcomes⟩ := List.forall_mem_cons.mp houtcomes
      have hrest := ih houtcomes
      unfold evalAll at hrest ⊢
      rw [List.map_cons, List.map_cons, Transcript.inOrder_cons, hrest,
        evalOne_of_ok hconsole houtcome, failureCode_cons]
      rfl

/-- The reports before an expression that has no outcome have been printed. -/
theorem evalAll_of_error (hconsole : console.PrintsTexts) {expression : Text}
    {overlong : Overlong} (h : ComeTo skipEmpty expressions entries)
    (herror : evaluate expression skipEmpty = .error overlong) (others : List Text) :
    evalAll console skipEmpty (expressions ++ expression :: others) =
      ⟨reports console.columns entries, 1, some (.overlong overlong), notes entries⟩ := by
  have hcode : max (failureCode entries) 1 = 1 := Nat.max_eq_right (failureCode_le_one entries)
  have hbefore := evalAll_of_comeTo hconsole h
  unfold evalAll at hbefore ⊢
  rw [List.map_append, Transcript.inOrder_append, hbefore, List.map_cons, Transcript.inOrder_cons,
    evalOne_of_error herror]
  simp [Transcript.andThen, Transcript.broken, hcode]

theorem display_eq (hconsole : console.PrintsTexts) (entry : BatchEntry) :
    display console entry.expression entry.outcome =
      .printing (laidOut console.columns entry.report ++ ['\n']) := by
  rw [display, hconsole.text]
  rfl

/-- The heading holds printable characters only, and neither tags nor codes. -/
theorem heading_eq (hconsole : console.PrintsTexts) :
    heading console = .printing (fileHeading ++ ['\n']) := by
  have hall : fileHeading.all fun c =>
      (isLeftOut c = false ∧ c ≠ '\t') ∧ c ≠ '[' ∧ c ≠ ':' := by decide
  have hchars (c : Char) (hmem : c ∈ fileHeading) :=
    of_decide_eq_true (List.all_eq_true.mp hall c hmem)
  rw [heading, hconsole.markup fileHeading fun c hmem => (hchars c hmem).2,
    laidOut_of_printable console.columns fun c hmem => (hchars c hmem).1]

theorem fileOutput_ok (hconsole : console.PrintsTexts) (entries : List BatchEntry) :
    fileOutput console (.ok entries) =
      .printing (fileHeading ++ '\n' :: reports console.columns entries) := by
  have hentries : Transcript.inOrder
      (entries.map fun entry => display console entry.expression entry.outcome) =
        .printing (reports console.columns entries) := by
    induction entries with
    | nil => rfl
    | cons entry entries ih =>
        rw [List.map_cons, Transcript.inOrder_cons, ih, display_eq hconsole,
          Transcript.printing_andThen]
        rfl
  rw [fileOutput, Transcript.inOrder_cons, hentries, heading_eq hconsole,
    Transcript.printing_andThen]
  simp [Transcript.printing]

theorem fileOutput_crashed (hconsole : console.PrintsTexts) (crash : Crash) :
    fileOutput console (.error (.crashed crash)) =
      ⟨fileHeading ++ ['\n'], 1, some crash, []⟩ := by
  rw [fileOutput, heading_eq hconsole, Transcript.printing_andThen]
  simp [Transcript.broken]

end Command

/-! ### The file of expressions -/

/-- The text of a file that holds expressions, each with a line feed behind it. -/
def oneALine (expressions : List Text) : Text := expressions.flatMap (· ++ ['\n'])

theorem writeLines_lineFeed (expressions : List Text) :
    writeLines (expressions.map (⟨·, .lineFeed⟩)) [] = oneALine expressions := by
  simp [writeLines, oneALine, List.flatMap_map, WrittenLine.text, LineEnd.text]

theorem bodies_lineFeed (expressions : List Text) :
    bodies (expressions.map (⟨·, .lineFeed⟩)) [] = expressions := by
  simp [bodies, Function.comp_def]

theorem OnOneLine.append {text text' : Text} (h : OnOneLine text) (h' : OnOneLine text') :
    OnOneLine (text ++ text') :=
  List.forall_mem_append.mpr ⟨h, h'⟩

theorem onOneLine_of_unbroken {text : Text} (h : Unbroken text) : OnOneLine text := by
  intro c hmem hbreak
  have hblank := h c hmem
  rcases hbreak with rfl | rfl <;> exact absurd hblank (by decide)

theorem legible_lineFeed (h : ∀ expression ∈ expressions, OnOneLine expression) :
    Legible (expressions.map (⟨·, .lineFeed⟩)) [] := by
  induction expressions with
  | nil => exact ⟨nofun, nofun, .nil⟩
  | cons expression rest ih =>
      obtain ⟨hexpression, hrest⟩ := List.forall_mem_cons.mp h
      exact legible_cons_iff.mpr ⟨hexpression, nofun, ih hrest⟩

namespace Command

variable {open? : Text → Except OpenFault (List UInt8)} {path : Text}

theorem showFile_of_comeTo (hconsole : console.PrintsTexts)
    (hfile : HoldsFile open? (Path.normalize path) (encodeUtf8 (oneALine expressions)))
    (hlines : ∀ expression ∈ expressions, OnOneLine expression)
    (h : ComeTo skipEmpty expressions entries) :
    showFile console open? skipEmpty path =
      ⟨fileHeading ++ '\n' :: reports console.columns entries, 0, none,
        notes entries ++ [.batchEvaluated entries.length (Path.normalize path)]⟩ := by
  rw [← bodies_lineFeed expressions] at h
  have hfeed := evaluateFeed_written (legible_lineFeed hlines)
    (fun line _ => LineConvention.reads_universal line.lineEnd) h (Path.normalize path)
  rw [writeLines_lineFeed] at hfeed
  simp only [showFile, evaluateSource_path hfile, hfeed, fileOutput_ok hconsole,
    Transcript.printing, Transcript.empty]

/-- Nothing is reported of a file with an expression in it that has no outcome. -/
theorem showFile_of_error (hconsole : console.PrintsTexts) {before others : List Text}
    {expression : Text} {overlong : Overlong}
    (hfile : HoldsFile open? (Path.normalize path)
      (encodeUtf8 (oneALine (before ++ expression :: others))))
    (hlines : ∀ line ∈ before ++ expression :: others, OnOneLine line)
    (h : ComeTo skipEmpty before entries)
    (herror : evaluate expression skipEmpty = .error overlong) :
    showFile console open? skipEmpty path =
      ⟨fileHeading ++ ['\n'], 1, some (.overlong overlong), notes entries⟩ := by
  have hfeed := evaluateFeed_written_overlong (legible_lineFeed hlines)
    (fun line _ => LineConvention.reads_universal line.lineEnd) (bodies_lineFeed _) h herror
    (Path.normalize path)
  rw [writeLines_lineFeed] at hfeed
  simp only [showFile, evaluateSource_path hfile, hfeed, fileOutput_crashed hconsole]

end Command

/-- **The two batch commands agree.** Expressions are given behind `--`, whatever they look
like, and one a line in a file. Where each of them has an outcome, `eval` prints a report for
each in order, with exit code 1 exactly when one is a failure; `file` prints the same below
its heading, with exit code 0. At the first expression without an outcome both break off
with exit code 1: `eval` has printed the reports before it and `file` the heading only. -/
theorem eval_and_file_agree {read : List Text → Request} (hread : ReadsArguments read)
    {console : Console} (hconsole : console.PrintsTexts)
    {open? : Text → Except OpenFault (List UInt8)} {expressions pathArguments : List Text}
    {path : Text} (hne : expressions ≠ [])
    (hlines : ∀ expression ∈ expressions, OnOneLine expression)
    (hpath : Writes [path] pathArguments)
    (hfile : HoldsFile open? (Path.normalize path) (encodeUtf8 (oneALine expressions)))
    (skipEmpty : Bool) :
    ((∀ expression ∈ expressions, ∃ outcome, evaluate expression skipEmpty = .ok outcome) →
      ∃ entries, ComeTo skipEmpty expressions entries ∧
        RunsTo read console open? (evalLine skipEmpty expressions)
          ⟨reports console.columns entries, failureCode entries, none, notes entries⟩ ∧
        RunsTo read console open? (fileLine skipEmpty pathArguments)
          ⟨fileHeading ++ '\n' :: reports console.columns entries, 0, none,
            notes entries ++ [.batchEvaluated entries.length (Path.normalize path)]⟩) ∧
    ∀ before expression others overlong, expressions = before ++ expression :: others →
      (∀ earlier ∈ before, ∃ outcome, evaluate earlier skipEmpty = .ok outcome) →
      evaluate expression skipEmpty = .error overlong →
      ∃ entries, ComeTo skipEmpty before entries ∧
        RunsTo read console open? (evalLine skipEmpty expressions)
          ⟨reports console.columns entries, 1, some (.overlong overlong), notes entries⟩ ∧
        RunsTo read console open? (fileLine skipEmpty pathArguments)
          ⟨fileHeading ++ ['\n'], 1, some (.overlong overlong), notes entries⟩ := by
  have hevalLine := hread.evalLine hne skipEmpty
  have hfileLine := hread.fileLine hpath
    ((Path.hasNul_normalize path).symm.trans hfile.hasNul) skipEmpty
  constructor
  · intro houtcomes
    obtain ⟨entries, hcome⟩ := exists_comeTo_iff.mpr houtcomes
    exact ⟨entries, hcome, ⟨_, _, hevalLine, Command.evalAll_of_comeTo hconsole hcome⟩,
      ⟨_, _, hfileLine, Command.showFile_of_comeTo hconsole hfile hlines hcome⟩⟩
  · intro before expression others overlong hsplit houtcomes herror
    subst hsplit
    obtain ⟨entries, hcome⟩ := exists_comeTo_iff.mpr houtcomes
    exact ⟨entries, hcome,
      ⟨_, _, hevalLine, Command.evalAll_of_error hconsole hcome herror others⟩,
      ⟨_, _, hfileLine, Command.showFile_of_error hconsole hfile hlines hcome herror⟩⟩

/-- Words that look like options and a sum, on the calculator's own console; and a sum before
a zero of 4301 digits. -/
theorem eval_and_file_agree_on_option_words :
    let runs := RunsTo Request.ofArguments Screen.console
    let sum : BatchEntry := ⟨['1', ' ', '2', ' ', '+'], .success 3⟩
    let short (word : Text) : BatchEntry :=
      ⟨word, .failure ⟨(Fault.insufficientOperands ['-'] 0).diagnostic, some ⟨word, 0⟩⟩⟩
    let entries := [short ['-', '-'], short ['-', 'v'], sum]
    let expressions := entries.map BatchEntry.expression
    let folder := Folder.ofListing [] [(['f'], encodeUtf8 (oneALine expressions))]
    let broken : List Text :=
      [sum.expression, ['1', ' '] ++ (Numeral.zeros 4300).text ++ [' ', '+']]
    let open? (_ : Text) : Except OpenFault (List UInt8) := .ok (encodeUtf8 (oneALine broken))
    let heading := "These are the expressions from the saved file.\n".toList
    let shown :=
      "Evaluation failed for expression: -- (INSUFFICIENT_OPERANDS: ".toList ++
        "Not enough operands for '-': expected 2, found 0)\n".toList ++
        "Evaluation failed for expression: -v (INSUFFICIENT_OPERANDS: ".toList ++
        "Not enough operands for '-': expected 2, found 0)\n".toList ++
        "Result: 1 2 + = 3\n".toList
    (runs folder.open? (evalLine false expressions) ⟨shown, 1, none, notes entries⟩ ∧
      runs folder.open? (fileLine false [['f']])
        ⟨heading ++ shown, 0, none, notes entries ++ [.batchEvaluated 3 ['f']]⟩) ∧
    ∃ overlong,
      runs open? (evalLine false broken)
        ⟨"Result: 1 2 + = 3\n".toList, 1, some (.overlong overlong), []⟩ ∧
      runs open? (fileLine false [['f']]) ⟨heading, 1, some (.overlong overlong), []⟩ := by
  intro runs sum short entries expressions folder broken open? heading shown
  have hname : Writes [['f']] [['f']] := .plain (by decide)
  have hcome : ComeTo false expressions entries := ⟨rfl, by decide⟩
  have hsum : ComeTo false [sum.expression] [sum] := ⟨rfl, by decide⟩
  have hshown : reports Screen.columns entries = shown := by decide +kernel
  have hheading : fileHeading ++ ['\n'] = heading := by decide +kernel
  constructor
  · have hfile : HoldsFile folder.open? ['f'] (encodeUtf8 (oneALine expressions)) :=
      ⟨by decide, by decide⟩
    obtain ⟨hagree, -⟩ := eval_and_file_agree readsArguments_ofArguments Screen.printsTexts_console
      (List.cons_ne_nil _ _) (by decide) hname hfile false
    obtain ⟨entries', hcome', heval, hfile⟩ := hagree (exists_comeTo_iff.mp ⟨entries, hcome⟩)
    obtain rfl := hcome'.unique hcome
    rw [← hheading, ← hshown, List.append_assoc]
    exact ⟨heval, hfile⟩
  · have hresult : reports Screen.columns [sum] = "Result: 1 2 + = 3\n".toList := by
      decide +kernel
    have hzeros : OnOneLine (Numeral.zeros 4300).text :=
      onOneLine_of_unbroken (Numeral.zeros 4300).unbroken_text
    have hlines : ∀ line ∈ broken, OnOneLine line := by
      refine List.forall_mem_cons.mpr ⟨by decide, List.forall_mem_singleton.mpr ?_⟩
      exact ((by decide : OnOneLine ['1', ' ']).append hzeros).append (by decide)
    have hfile : HoldsFile open? ['f'] (encodeUtf8 (oneALine broken)) := ⟨by decide, rfl⟩
    obtain ⟨overlong, herror⟩ :=
      exists_error_of_holdsOverlong (holdsOverlong_zeros (Nat.le_refl 4300)) false
    obtain ⟨-, hbreak⟩ := eval_and_file_agree readsArguments_ofArguments Screen.printsTexts_console
      (List.cons_ne_nil _ _) hlines hname hfile false
    obtain ⟨entries', hcome', heval, hfile⟩ := hbreak [sum.expression] _ [] overlong rfl
      (exists_comeTo_iff.mp ⟨[sum], hsum⟩) herror
    obtain rfl := hcome'.unique hsum
    rw [← hheading, ← hresult]
    exact ⟨overlong, heval, hfile⟩

end ReversePolish

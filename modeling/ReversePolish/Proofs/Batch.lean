import ReversePolish.Batch
import ReversePolish.Proofs.Ending
import ReversePolish.Proofs.LineEnd

/-!
# ReversePolish.Proofs.Batch

A batch gives **every line or nothing**.

The lines are evaluated one by one, each on its own, and what has come of them is given
out at the end only. There are three ends: no line is left, the source cannot be read
any further, or a line has no outcome. What was noted up to then is the same in all
three, and all of it is about single lines (`evaluateSource_lines`).

Design points:

* `evaluateAll_append` carries the loop: lines that all have an outcome put their
  entries and their notes in front of whatever comes of the lines behind them.
* Reading leaves no trace of its own. That a line is not read shows in that the batch is
  the same whatever stands there, and however the source ends.
-/

namespace ReversePolish

/-- What is noted about an entry. -/
def BatchEntry.log (entry : BatchEntry) : List LogEvent := entry.outcome.log entry.expression

/-- What is noted about entries, in order. -/
def notes (entries : List BatchEntry) : List LogEvent := entries.flatMap BatchEntry.log

/-- Whether expressions come to entries: each to its outcome, in order. -/
structure ComeTo (skipEmpty : Bool) (expressions : List Text) (entries : List BatchEntry) :
    Prop where
  expressions : entries.map BatchEntry.expression = expressions
  outcomes : ∀ entry ∈ entries, evaluate entry.expression skipEmpty = .ok entry.outcome

/-- What comes of lines: an entry for each of them in order, which holds the line without
its end and the outcome of that. -/
structure EntriesOf (skipEmpty : Bool) (lines : List Text) (entries : List BatchEntry) : Prop where
  expressions : List.Forall₂ Strips lines (entries.map BatchEntry.expression)
  outcomes : ∀ entry ∈ entries, evaluate entry.expression skipEmpty = .ok entry.outcome

variable {skipEmpty : Bool}

/-! ### Entries -/

namespace ComeTo

variable {expressions : List Text} {entries entries' : List BatchEntry}

protected theorem nil : ComeTo skipEmpty [] [] := ⟨rfl, nofun⟩

theorem cons {expression : Text} {outcome : Outcome}
    (houtcome : evaluate expression skipEmpty = .ok outcome)
    (h : ComeTo skipEmpty expressions entries) :
    ComeTo skipEmpty (expression :: expressions) (⟨expression, outcome⟩ :: entries) :=
  ⟨congrArg _ h.expressions, List.forall_mem_cons.mpr ⟨houtcome, h.outcomes⟩⟩

/-- Expressions determine their entries. -/
theorem unique (h : ComeTo skipEmpty expressions entries)
    (h' : ComeTo skipEmpty expressions entries') : entries = entries' := by
  obtain ⟨rfl, houtcomes⟩ := h
  obtain ⟨hexpressions, houtcomes'⟩ := h'
  induction entries generalizing entries' with
  | nil => exact (List.map_eq_nil_iff.mp hexpressions).symm
  | cons entry entries ih =>
      obtain ⟨entry', rest', rfl, hentry, hrest⟩ := List.map_eq_cons_iff.mp hexpressions
      obtain ⟨houtcome, houtcomes⟩ := List.forall_mem_cons.mp houtcomes
      obtain ⟨houtcome', houtcomes'⟩ := List.forall_mem_cons.mp houtcomes'
      rw [hentry, houtcome] at houtcome'
      have hsame : entry = entry' := by
        cases entry
        cases entry'
        rw [BatchEntry.mk.injEq]
        exact ⟨hentry.symm, Except.ok.inj houtcome'⟩
      rw [hsame, ih houtcomes hrest houtcomes']

end ComeTo

theorem exists_comeTo_iff {expressions : List Text} :
    (∃ entries, ComeTo skipEmpty expressions entries) ↔
      ∀ expression ∈ expressions, ∃ outcome, evaluate expression skipEmpty = .ok outcome := by
  constructor
  · rintro ⟨entries, rfl, houtcomes⟩
    exact List.forall_mem_map.mpr fun entry hmem => ⟨entry.outcome, houtcomes entry hmem⟩
  · intro h
    induction expressions with
    | nil => exact ⟨[], .nil⟩
    | cons expression rest ih =>
        obtain ⟨⟨outcome, houtcome⟩, hrest⟩ := List.forall_mem_cons.mp h
        obtain ⟨entries, hcome⟩ := ih hrest
        exact ⟨_, hcome.cons houtcome⟩

theorem forall₂_strips_iff {lines texts : List Text} :
    List.Forall₂ Strips lines texts ↔ lines.map stripLineEnd = texts := by
  have hstrips : Strips = fun line text => stripLineEnd line = text :=
    funext₂ fun _ _ => propext strips_iff
  calc List.Forall₂ Strips lines texts
      ↔ List.Forall₂ (· = ·) (lines.map stripLineEnd) texts := by
        rw [hstrips, List.forall₂_map_left_iff]
    _ ↔ lines.map stripLineEnd = texts := by rw [List.forall₂_eq_eq_eq]

theorem entriesOf_iff_comeTo {lines : List Text} {entries : List BatchEntry} :
    EntriesOf skipEmpty lines entries ↔ ComeTo skipEmpty (lines.map stripLineEnd) entries := by
  constructor
  · rintro ⟨hexpressions, houtcomes⟩
    exact ⟨(forall₂_strips_iff.mp hexpressions).symm, houtcomes⟩
  · rintro ⟨hexpressions, houtcomes⟩
    exact ⟨forall₂_strips_iff.mpr hexpressions.symm, houtcomes⟩

theorem exists_entriesOf_iff {lines : List Text} :
    (∃ entries, EntriesOf skipEmpty lines entries) ↔
      ∀ line ∈ lines, ∃ outcome, evaluate (stripLineEnd line) skipEmpty = .ok outcome := by
  simp only [entriesOf_iff_comeTo, exists_comeTo_iff, List.forall_mem_map]

namespace EntriesOf

variable {lines : List Text} {entries entries' : List BatchEntry}

/-- Lines determine what comes of them. -/
theorem unique (h : EntriesOf skipEmpty lines entries)
    (h' : EntriesOf skipEmpty lines entries') : entries = entries' :=
  (entriesOf_iff_comeTo.mp h).unique (entriesOf_iff_comeTo.mp h')

theorem length_eq (h : EntriesOf skipEmpty lines entries) : entries.length = lines.length := by
  rw [h.expressions.length_eq, List.length_map]

end EntriesOf

/-! ### Notes -/

/-- Whether an entry is noted as it should be: a failure by one event, which is no more than
detail, and a value by none. -/
structure Noted (entry : BatchEntry) : Prop where
  value : ∀ value, entry.outcome = .success value → entry.log = []
  failure : ∀ reason, entry.outcome = .failure reason →
    ∃ event : LogEvent, event = .evaluationFailed entry.expression reason.diagnostic.detail ∧
      event.level = .debug ∧ entry.log = [event]

theorem noted (entry : BatchEntry) : Noted entry := by
  obtain ⟨expression, outcome⟩ := entry
  constructor
  · rintro value rfl
    rfl
  · rintro reason rfl
    exact ⟨_, rfl, rfl, rfl⟩

theorem level_of_mem_notes {entries : List BatchEntry} {event : LogEvent}
    (h : event ∈ notes entries) : event.level = .debug := by
  obtain ⟨entry, -, hevent⟩ := List.mem_flatMap.mp h
  cases houtcome : entry.outcome with
  | success value =>
      rw [(noted entry).value value houtcome] at hevent
      cases hevent
  | failure reason =>
      obtain ⟨event', -, hlevel, hlog⟩ := (noted entry).failure reason houtcome
      rw [hlog] at hevent
      rw [List.mem_singleton.mp hevent]
      exact hlevel

/-! ### The loop -/

theorem evaluateAll_cons_ok {line : Text} {outcome : Outcome}
    (h : evaluate (stripLineEnd line) skipEmpty = .ok outcome) (rest : List Text) :
    evaluateAll skipEmpty (line :: rest) =
      ⟨(evaluateAll skipEmpty rest).result.map (⟨stripLineEnd line, outcome⟩ :: ·),
        outcome.log (stripLineEnd line) ++ (evaluateAll skipEmpty rest).log⟩ := by
  simp only [evaluateAll, evaluateLogged_of_ok h]

theorem evaluateAll_cons_error {line : Text} {overlong : Overlong}
    (h : evaluate (stripLineEnd line) skipEmpty = .error overlong) (rest : List Text) :
    evaluateAll skipEmpty (line :: rest) = ⟨.error overlong, []⟩ := by
  simp only [evaluateAll, evaluateLogged_of_error h]

theorem evaluateAll_append {lines : List Text} {entries : List BatchEntry}
    (h : EntriesOf skipEmpty lines entries) (rest : List Text) :
    evaluateAll skipEmpty (lines ++ rest) =
      ⟨(evaluateAll skipEmpty rest).result.map (entries ++ ·),
        notes entries ++ (evaluateAll skipEmpty rest).log⟩ := by
  obtain ⟨hstrips, houtcomes⟩ := h
  induction entries generalizing lines with
  | nil =>
      obtain rfl := List.forall₂_nil_right_iff.mp hstrips
      cases hresult : (evaluateAll skipEmpty rest).result <;> simp [notes, Except.map, ← hresult]
  | cons entry entries ih =>
      obtain ⟨line, lines, hline, hlines, rfl⟩ := List.forall₂_cons_right_iff.mp hstrips
      obtain ⟨houtcome, houtcomes⟩ := List.forall_mem_cons.mp houtcomes
      obtain hstrip := strips_iff.mp hline
      rw [← hstrip] at houtcome
      rw [List.cons_append, evaluateAll_cons_ok houtcome, ih hlines houtcomes, hstrip]
      cases (evaluateAll skipEmpty rest).result <;> simp [notes, Except.map, BatchEntry.log]

/-! ### The three ends -/

theorem evaluateAll_of_entriesOf {lines : List Text} {entries : List BatchEntry}
    (h : EntriesOf skipEmpty lines entries) :
    evaluateAll skipEmpty lines = ⟨.ok entries, notes entries⟩ := by
  have hall := evaluateAll_append h []
  simpa [evaluateAll, Except.map] using hall

theorem evaluateAll_of_error {lines : List Text} {entries : List BatchEntry} {line : Text}
    {overlong : Overlong} (h : EntriesOf skipEmpty lines entries)
    (hline : evaluate (stripLineEnd line) skipEmpty = .error overlong) (rest : List Text) :
    evaluateAll skipEmpty (lines ++ line :: rest) = ⟨.error overlong, notes entries⟩ := by
  rw [evaluateAll_append h, evaluateAll_cons_error hline]
  simp [Except.map]

theorem evaluateFeed_finished {lines : List Text} {entries : List BatchEntry}
    (h : EntriesOf skipEmpty lines entries) (source : Text) :
    evaluateFeed source ⟨lines, .finished⟩ skipEmpty =
      ⟨.ok entries, notes entries ++ [.batchEvaluated lines.length source]⟩ := by
  simp only [evaluateFeed, evaluateAll_of_entriesOf h, h.length_eq]

theorem evaluateFeed_unreadable {lines : List Text} {entries : List BatchEntry}
    (h : EntriesOf skipEmpty lines entries) (source : Text) (fault : ReadFault) :
    evaluateFeed source ⟨lines, .unreadable fault⟩ skipEmpty =
      ⟨.error (.unreadable source fault),
        notes entries ++ [.sourceUnreadable source fault.message]⟩ := by
  simp only [evaluateFeed, evaluateAll_of_entriesOf h]

theorem evaluateFeed_overlong {lines : List Text} {entries : List BatchEntry} {line : Text}
    {overlong : Overlong} (h : EntriesOf skipEmpty lines entries)
    (hline : evaluate (stripLineEnd line) skipEmpty = .error overlong) (source : Text)
    (rest : List Text) (ending : FeedEnd) :
    evaluateFeed source ⟨lines ++ line :: rest, ending⟩ skipEmpty =
      ⟨.error (.crashed (.overlong overlong)), notes entries⟩ := by
  simp only [evaluateFeed, evaluateAll_of_error h hline]

/-- **Every line or nothing.** Lines that all have an outcome have an entry each. A failing
line is noted once, as a detail, and a line with a value is not. If no line is left behind
them, the batch is those entries, and their number is noted last, for information. If the
source cannot be read any further, nothing is given out, and the fault is noted last, as an
error. If the next line has no outcome, the batch is broken off there with nothing more
noted: what stands behind that line and how the source ends make no difference. -/
theorem evaluateSource_lines {lines : List Text}
    (h : ∀ line ∈ lines, ∃ outcome, evaluate (stripLineEnd line) skipEmpty = .ok outcome)
    (open? : Text → Except OpenFault (List UInt8)) (name : Text) :
    ∃ entries, EntriesOf skipEmpty lines entries ∧
      (∀ entry ∈ entries, Noted entry) ∧
      (∀ event ∈ notes entries, event.level = .debug) ∧
      (LogEvent.level (.batchEvaluated lines.length name) = .info ∧
        evaluateSource open? (.lines name ⟨lines, .finished⟩) skipEmpty =
          ⟨.ok entries, notes entries ++ [.batchEvaluated lines.length name]⟩) ∧
      (∀ message, LogEvent.level (.sourceUnreadable name message) = .error ∧
        evaluateSource open? (.lines name ⟨lines, .unreadable (.device message)⟩) skipEmpty =
          ⟨.error (.unreadable name (.device message)),
            notes entries ++ [.sourceUnreadable name message]⟩) ∧
      ∀ line overlong, evaluate (stripLineEnd line) skipEmpty = .error overlong →
        ∀ rest ending,
          evaluateSource open? (.lines name ⟨lines ++ line :: rest, ending⟩) skipEmpty =
            ⟨.error (.crashed (.overlong overlong)), notes entries⟩ := by
  obtain ⟨entries, hentries⟩ := exists_entriesOf_iff.mpr h
  refine ⟨entries, hentries, fun entry _ => noted entry, fun event => level_of_mem_notes,
    ⟨rfl, ?_⟩, ?_, ?_⟩
  · exact evaluateFeed_finished hentries name
  · intro message
    exact ⟨rfl, evaluateFeed_unreadable hentries name (.device message)⟩
  · intro line overlong hline rest ending
    exact evaluateFeed_overlong hentries hline name rest ending

/-- A sum and an unknown lexeme, at the end of the source, before a device fault and before a
zero of 4301 digits. -/
theorem evaluateSource_sum_and_unknown :
    let lines : List Text := [['1', ' ', '2', ' ', '+', '\n'], ['x', '\r', '\r', '\n']]
    let batch (lines : List Text) (ending : FeedEnd) :=
      evaluateSource (fun _ => .error .noSuchFile) (.lines ['s'] ⟨lines, ending⟩) false
    let noted : List LogEvent :=
      [.evaluationFailed ['x'] (Fault.unknownOperator ['x']).diagnostic.detail]
    (∃ entries, (batch lines .finished).result = .ok entries) ∧
      (batch lines .finished).log.map LogEvent.level = [.debug, .info] ∧
      batch lines (.unreadable (.device ['m'])) =
        ⟨.error (.unreadable ['s'] (.device ['m'])), noted ++ [.sourceUnreadable ['s'] ['m']]⟩ ∧
      (batch lines (.unreadable (.device ['m']))).log.map LogEvent.level = [.debug, .error] ∧
      ∃ overlong, ∀ rest ending,
        batch (lines ++ (['1', ' '] ++ (Numeral.zeros 4300).text ++ [' ', '+']) :: rest) ending =
          ⟨.error (.crashed (.overlong overlong)), noted⟩ := by
  intro lines batch noted
  let unknown : Outcome := .failure ⟨(Fault.unknownOperator ['x']).diagnostic, some ⟨['x'], 0⟩⟩
  have hsum : evaluate ['1', ' ', '2', ' ', '+'] false = .ok (.success 3) := by decide
  have hunknown : evaluate ['x'] false = .ok unknown := by decide
  have hentries : EntriesOf false lines
      [⟨['1', ' ', '2', ' ', '+'], .success 3⟩, ⟨['x'], unknown⟩] :=
    entriesOf_iff_comeTo.mpr ((ComeTo.nil.cons hunknown).cons hsum)
  obtain ⟨entries, hentries', -, -, ⟨hinfo, hfinished⟩, hunreadable, hoverlong⟩ :=
    evaluateSource_lines (exists_entriesOf_iff.mp ⟨_, hentries⟩) (fun _ => .error .noSuchFile) ['s']
  obtain rfl := hentries'.unique hentries
  obtain ⟨herror, hunreadable⟩ := hunreadable ['m']
  obtain ⟨overlong, hzero⟩ :=
    exists_error_of_holdsOverlong (holdsOverlong_zeros (Nat.le_refl 4300)) false
  have hlast : ∀ c ∈ (['1', ' '] ++ (Numeral.zeros 4300).text ++ [' ', '+']).getLast?,
      ¬ IsLineBreak c := by
    rw [List.getLast?_append_of_ne_nil _ (List.cons_ne_nil _ _)]
    simp [IsLineBreak]
  refine ⟨⟨_, congrArg Logged.result hfinished⟩, ?_, hunreadable, ?_, overlong,
    hoverlong _ overlong ?_⟩
  · simp only [batch, hfinished, List.map_append, List.map_cons, List.map_nil, hinfo]
    rfl
  · simp only [batch, hunreadable, List.map_append, List.map_cons, List.map_nil, herror]
    rfl
  · rw [stripLineEnd_of_last hlast]
    exact hzero

end ReversePolish

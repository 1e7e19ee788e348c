import ReversePolish.Proofs.Batch
import ReversePolish.Proofs.Decoding

/-!
# ReversePolish.Proofs.Reading

**What is written is read**, whichever way it is handed over.

Expressions that are written to a file, one a line, are the expressions of the batch
that reads the file (`evaluateSource_written`). A content that can be decoded gives the
same batch from a file and as bytes, under every convention that reads all of its line
ends (`evaluateSource_same_content`).

Design points:

* Both results come from `entriesOf_written_iff`: behind the line ends, what is read of
  written lines is what was written, whatever the convention makes of the ends.
* Every content that can be decoded is lines that were written in some way: the decoder
  takes encodings of texts only, and every text is legible once it is cut at its ends.
-/

namespace ReversePolish

/-! ### Bytes -/

namespace Feed

variable {convention : LineConvention} {bytes : List UInt8}

theorem ofBytes_encodeUtf8 (convention : LineConvention) (text : Text) :
    ofBytes .utf8 convention (encodeUtf8 text) = ⟨(Lines.of convention text).all, .finished⟩ := by
  simp only [ofBytes, Decoder.run_encodeUtf8, Decoder.endFault?, Decoder.text, List.reverse_reverse]

/-- A feed of bytes that ends well has taken all of them, and has no character open. -/
theorem state_eq_between (h : (ofBytes .utf8 convention bytes).ending = .finished) :
    (Decoder.run .utf8 bytes).state = .between := by
  cases hstate : (Decoder.run .utf8 bytes).state with
  | between => rfl
  | inside character => simp [ofBytes, hstate, Decoder.endFault?, interrupted] at h
  | surrogate => simp [ofBytes, hstate, Decoder.endFault?, interrupted] at h
  | stopped fault => simp [ofBytes, hstate, interrupted] at h

/-- **Bytes are read to the end exactly when they encode a text.** -/
theorem ending_ofBytes_eq_finished_iff :
    (ofBytes .utf8 convention bytes).ending = .finished ↔ ∃ text, bytes = encodeUtf8 text := by
  constructor
  · intro h
    exact ⟨_, Decoder.run_eq_text_iff.mp ⟨state_eq_between h, rfl⟩⟩
  · rintro ⟨text, rfl⟩
    rw [ofBytes_encodeUtf8]

end Feed

/-! ### Written lines -/

section

variable {skipEmpty : Bool} {convention : LineConvention} {lines : List WrittenLine} {rest : Text}
  {entries : List BatchEntry}

theorem entriesOf_written_iff (h : Legible lines rest)
    (hreads : ∀ line ∈ lines, convention.Reads line.lineEnd) :
    EntriesOf skipEmpty (Lines.of convention (writeLines lines rest)).all entries ↔
      ComeTo skipEmpty (bodies lines rest) entries := by
  rw [entriesOf_iff_comeTo, Lines.map_stripLineEnd_all h hreads]

theorem evaluateFeed_written (h : Legible lines rest)
    (hreads : ∀ line ∈ lines, convention.Reads line.lineEnd)
    (hcome : ComeTo skipEmpty (bodies lines rest) entries) (source : Text) :
    evaluateFeed source (Feed.ofBytes .utf8 convention (encodeUtf8 (writeLines lines rest)))
        skipEmpty =
      ⟨.ok entries, notes entries ++ [.batchEvaluated entries.length source]⟩ := by
  have hentries := (entriesOf_written_iff h hreads).mpr hcome
  rw [Feed.ofBytes_encodeUtf8, evaluateFeed_finished hentries, hentries.length_eq]

theorem evaluateFeed_written_overlong {before others : List Text} {body : Text}
    {overlong : Overlong} (h : Legible lines rest)
    (hreads : ∀ line ∈ lines, convention.Reads line.lineEnd)
    (hbodies : bodies lines rest = before ++ body :: others)
    (hcome : ComeTo skipEmpty before entries)
    (hbody : evaluate body skipEmpty = .error overlong) (source : Text) :
    evaluateFeed source (Feed.ofBytes .utf8 convention (encodeUtf8 (writeLines lines rest)))
        skipEmpty =
      ⟨.error (.crashed (.overlong overlong)), notes entries⟩ := by
  have hstrips := (Lines.map_stripLineEnd_all h hreads).trans hbodies
  obtain ⟨first, behind, hlines, rfl, hbehind⟩ := List.map_eq_append_iff.mp hstrips
  obtain ⟨line, after, rfl, rfl, -⟩ := List.map_eq_cons_iff.mp hbehind
  rw [Feed.ofBytes_encodeUtf8, hlines]
  exact evaluateFeed_overlong (entriesOf_iff_comeTo.mpr hcome) hbody source after .finished

end

/-! ### Sources -/

/-- Whether a file is found at a path, with these bytes in it. -/
structure HoldsFile (open? : Text → Except OpenFault (List UInt8)) (path : Text)
    (bytes : List UInt8) : Prop where
  hasNul : Path.hasNul path = false
  opened : open? path = .ok bytes

variable {open? : Text → Except OpenFault (List UInt8)} {path : Text} {skipEmpty : Bool}

theorem evaluateSource_path {bytes : List UInt8} (h : HoldsFile open? path bytes) :
    evaluateSource open? (.path path) skipEmpty =
      evaluateFeed path (Feed.ofBytes .utf8 .universal bytes) skipEmpty := by
  have hnul : (Source.path path).hasNulInPath = false := h.hasNul
  have hname : (Source.path path).name = path := rfl
  have hfeed : (Source.path path).feed open? = Feed.ofBytes .utf8 .universal bytes := by
    rw [Source.feed, h.opened, Feed.ofFile]
  rw [evaluateSource, hnul, if_neg Bool.false_ne_true, hname, hfeed]

theorem evaluateSource_stream (convention : LineConvention) (bytes : List UInt8) :
    evaluateSource open? (.stream .utf8 convention bytes) skipEmpty =
      evaluateFeed (Source.stream .utf8 convention bytes).name
        (Feed.ofBytes .utf8 convention bytes) skipEmpty := by
  simp only [evaluateSource, Source.hasNulInPath, Source.feed, Bool.false_eq_true, if_false]

/-- **What is written is read.** If a file holds lines with any ends, none of them holds a
line break, no two ends join, and each line has an outcome, then the batch of that file is
the lines as they were written, with the outcome of each. -/
theorem evaluateSource_written {lines : List WrittenLine} {rest : Text}
    (hlegible : Legible lines rest)
    (hfile : HoldsFile open? path (encodeUtf8 (writeLines lines rest)))
    (houtcome : ∀ body ∈ bodies lines rest, ∃ outcome, evaluate body skipEmpty = .ok outcome) :
    ∃ entries : List BatchEntry,
      entries.map BatchEntry.expression = bodies lines rest ∧
      (∀ entry ∈ entries, evaluate entry.expression skipEmpty = .ok entry.outcome) ∧
      evaluateSource open? (.path path) skipEmpty =
        ⟨.ok entries, notes entries ++ [.batchEvaluated entries.length path]⟩ := by
  obtain ⟨entries, hcome⟩ := exists_comeTo_iff.mpr houtcome
  refine ⟨entries, hcome.expressions, hcome.outcomes, ?_⟩
  rw [evaluateSource_path hfile]
  exact evaluateFeed_written hlegible (fun line _ => LineConvention.reads_universal line.lineEnd)
    hcome path

/-- A sum, an empty line, and two numbers with a line separator between them, which ends
no line. -/
theorem evaluateSource_sum_and_line_separator :
    let lines : List WrittenLine := [⟨['1', ' ', '2', ' ', '+'], .carriageReturn⟩, ⟨[], .pair⟩]
    let rest : Text := ['7', '\u2028', '4']
    let folder := Folder.ofListing [] [(['f'], encodeUtf8 (writeLines lines rest))]
    let left (expression : Text) (found : Nat) : Outcome :=
      .failure ⟨(Fault.malformed found).diagnostic, some ⟨expression, expression.length⟩⟩
    evaluateSource folder.open? (.path ['f']) false =
      ⟨.ok [⟨['1', ' ', '2', ' ', '+'], .success 3⟩, ⟨[], left [] 0⟩, ⟨rest, left rest 2⟩],
        [.evaluationFailed [] (Fault.malformed 0).detail,
          .evaluationFailed rest (Fault.malformed 2).detail, .batchEvaluated 3 ['f']]⟩ := by
  intro lines rest folder left
  let entries : List BatchEntry :=
    [⟨['1', ' ', '2', ' ', '+'], .success 3⟩, ⟨[], left [] 0⟩, ⟨rest, left rest 2⟩]
  have hcome : ComeTo false (bodies lines rest) entries := ⟨rfl, by decide⟩
  have hlegible : Legible lines rest := by decide
  have hfile : HoldsFile folder.open? ['f'] (encodeUtf8 (writeLines lines rest)) :=
    ⟨by decide, by decide⟩
  obtain ⟨entries', hexpressions, houtcomes, hbatch⟩ :=
    evaluateSource_written hlegible hfile (exists_comeTo_iff.mp ⟨entries, hcome⟩)
  obtain rfl : entries' = entries := ComeTo.unique ⟨hexpressions, houtcomes⟩ hcome
  exact hbatch

/-- **One content, one batch.** If a content can be decoded and each of its lines has an
outcome, the batch is the same from a file and from the bytes, whether line ends are
handed on as line feeds or as they stand. Where a carriage return has a line feed behind
it everywhere, it is the same too if only line feeds end lines. -/
theorem evaluateSource_same_content {bytes : List UInt8} (hfile : HoldsFile open? path bytes)
    (hdecodable : (Feed.ofBytes .utf8 .universal bytes).ending = .finished)
    (houtcome : ∀ line ∈ (Feed.ofBytes .utf8 .universal bytes).lines,
      ∃ outcome, evaluate (stripLineEnd line) skipEmpty = .ok outcome) :
    ∃ text entries, bytes = encodeUtf8 text ∧
      EntriesOf skipEmpty (Lines.of .universal text).all entries ∧
      (∀ source ∈ [Source.path path, .stream .utf8 .universal bytes,
          .stream .utf8 .universalKept bytes],
        evaluateSource open? source skipEmpty =
          ⟨.ok entries, notes entries ++ [.batchEvaluated entries.length source.name]⟩) ∧
      (ReturnsPaired text →
        evaluateSource open? (.stream .utf8 .lineFeed bytes) skipEmpty =
          ⟨.ok entries, notes entries ++
            [.batchEvaluated entries.length (Source.stream .utf8 .lineFeed bytes).name]⟩) := by
  obtain ⟨text, rfl⟩ := Feed.ending_ofBytes_eq_finished_iff.mp hdecodable
  rw [Feed.ofBytes_encodeUtf8] at houtcome
  obtain ⟨entries, hentries⟩ := exists_entriesOf_iff.mpr houtcome
  -- From here on the content is lines that were written, whose ends are the ones it has.
  obtain ⟨lines, rest, rfl, hlegible⟩ := exists_legible text
  have huniversal (line : WrittenLine) (_ : line ∈ lines) :=
    LineConvention.reads_universal line.lineEnd
  have hkept (line : WrittenLine) (_ : line ∈ lines) :=
    LineConvention.reads_universalKept line.lineEnd
  have hcome := (entriesOf_written_iff hlegible huniversal).mp hentries
  refine ⟨_, entries, rfl, hentries, ?_, fun hpaired => ?_⟩
  · simp only [List.forall_mem_cons, evaluateSource_path hfile, evaluateSource_stream]
    exact ⟨evaluateFeed_written hlegible huniversal hcome path,
      evaluateFeed_written hlegible huniversal hcome _,
      evaluateFeed_written hlegible hkept hcome _, nofun⟩
  · have hpairs : ∀ line ∈ lines, LineConvention.lineFeed.Reads line.lineEnd :=
      lineEnd_ne_carriageReturn hlegible hpaired
    rw [evaluateSource_stream]
    exact evaluateFeed_written hlegible hpairs hcome _

/-- A sum, an empty line and two numbers, with pairs for line ends, in all four ways. -/
theorem evaluateSource_pairs_four_ways :
    let text : Text := ['1', ' ', '2', ' ', '+', '\r', '\n', '\r', '\n', '7', ' ', '4']
    let folder := Folder.ofListing [] [(['f'], encodeUtf8 text)]
    let left (expression : Text) (found : Nat) : Outcome :=
      .failure ⟨(Fault.malformed found).diagnostic, some ⟨expression, expression.length⟩⟩
    ∀ source ∈ [Source.path ['f'], .stream .utf8 .universal (encodeUtf8 text),
        .stream .utf8 .universalKept (encodeUtf8 text), .stream .utf8 .lineFeed (encodeUtf8 text)],
      evaluateSource folder.open? source false =
        ⟨.ok [⟨['1', ' ', '2', ' ', '+'], .success 3⟩, ⟨[], left [] 0⟩,
            ⟨['7', ' ', '4'], left ['7', ' ', '4'] 2⟩],
          [.evaluationFailed [] (Fault.malformed 0).detail,
            .evaluationFailed ['7', ' ', '4'] (Fault.malformed 2).detail,
            .batchEvaluated 3 source.name]⟩ := by
  intro text folder left
  let entries : List BatchEntry :=
    [⟨['1', ' ', '2', ' ', '+'], .success 3⟩, ⟨[], left [] 0⟩,
      ⟨['7', ' ', '4'], left ['7', ' ', '4'] 2⟩]
  have hentries : EntriesOf false (Lines.of .universal text).all entries :=
    entriesOf_iff_comeTo.mpr ⟨by decide, by decide⟩
  have hfile : HoldsFile folder.open? ['f'] (encodeUtf8 text) := ⟨by decide, by decide⟩
  have hfeed := Feed.ofBytes_encodeUtf8 .universal text
  have houtcome : ∀ line ∈ (Feed.ofBytes .utf8 .universal (encodeUtf8 text)).lines,
      ∃ outcome, evaluate (stripLineEnd line) false = .ok outcome := by
    rw [hfeed]
    exact exists_entriesOf_iff.mp ⟨entries, hentries⟩
  obtain ⟨text', entries', htext, hentries', hways, hfeeds⟩ :=
    evaluateSource_same_content hfile (congrArg Feed.ending hfeed) houtcome
  obtain rfl := Decoder.encodeUtf8_injective htext
  obtain rfl := hentries'.unique hentries
  intro source hsource
  rcases List.mem_append.mp (show source ∈ [_, _, _] ++ [_] from hsource) with hway | hlineFeed
  · exact hways source hway
  · obtain rfl := List.mem_singleton.mp hlineFeed
    exact hfeeds (by decide)

end ReversePolish

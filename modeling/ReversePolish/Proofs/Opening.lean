import ReversePolish.Proofs.Reading

/-!
# ReversePolish.Proofs.Opening

What becomes of **a file that is named by its path**.

A path may lead to no file, a file may hold bytes that are no text, and then the batch is told
to be unreadable, with an error noted last (`Reported`). This covers every way in which opening
and reading end, for any folder and any contents of its files. It leaves out what never gets
so far: a path with a NUL in it is refused before anything is opened, and that breaks off the
batch with nothing noted (`reported_iff_not_hasNul`).

Design points:

* Nothing is asked of how files are opened. What a path leads to is a parameter, and the working
  folder is one instance.
* A batch of a path is never broken off by its source. Only bytes are read here, and bytes end
  well or are undecodable (`Feed.ending_ofBytes`).
* A path is a `Text`, so it holds no half of a surrogate pair. A path with one cannot be encoded
  for the system, which is one more way not to be opened, and the condition does not cover it.
-/

namespace ReversePolish

/-! ### How bytes end -/

namespace Feed

theorem ending_ofBytes (encoding : Encoding) (convention : LineConvention) (bytes : List UInt8) :
    (ofBytes encoding convention bytes).ending = .finished ∨
      ∃ fault, (ofBytes encoding convention bytes).ending =
        .unreadable (.undecodable encoding fault) := by
  simp only [ofBytes]
  split
  · exact Or.inr ⟨_, rfl⟩
  · split
    · exact Or.inr ⟨_, rfl⟩
    · exact Or.inl rfl

/-- Bytes that encode no text are found undecodable. -/
theorem exists_fault_of_ofBytes {bytes : List UInt8} (h : ∀ text, bytes ≠ encodeUtf8 text)
    (convention : LineConvention) :
    ∃ fault, (ofBytes .utf8 convention bytes).ending = .unreadable (.undecodable .utf8 fault) := by
  refine (ending_ofBytes .utf8 convention bytes).resolve_left fun hfinished => ?_
  obtain ⟨text, htext⟩ := ending_ofBytes_eq_finished_iff.mp hfinished
  exact h text htext

end Feed

/-! ### What is told of a file -/

/-- A batch of a file that is given out whole, or told to be unreadable. -/
inductive Reported (open? : Text → Except OpenFault (List UInt8)) (path : Text)
    (skipEmpty : Bool) : Logged (Except BatchError (List BatchEntry)) → Prop
  /-- The file holds a text, and every line of it has an entry. -/
  | finished {text : Text} {entries : List BatchEntry} :
      open? path = .ok (encodeUtf8 text) →
      EntriesOf skipEmpty (Lines.of .universal text).all entries →
      Reported open? path skipEmpty
        ⟨.ok entries, notes entries ++ [.batchEvaluated entries.length path]⟩
  /-- There is no file. -/
  | cannotOpen {fault : OpenFault} :
      open? path = .error fault →
      Reported open? path skipEmpty
        ⟨.error (.unreadable path (.cannotOpen fault path)),
          [.sourceUnreadable path (fault.message path)]⟩
  /-- The file holds bytes that are no text. Lines before them may have been noted. -/
  | undecodable {bytes : List UInt8} {entries : List BatchEntry} {fault : DecodeFault} :
      open? path = .ok bytes → (∀ text, bytes ≠ encodeUtf8 text) →
      EntriesOf skipEmpty (Feed.ofBytes .utf8 .universal bytes).lines entries →
      Reported open? path skipEmpty
        ⟨.error (.unreadable path (.undecodable .utf8 fault)),
          notes entries ++ [.sourceUnreadable path (fault.message .utf8)]⟩

section

variable {open? : Text → Except OpenFault (List UInt8)} {path : Text} {skipEmpty : Bool}

theorem evaluateSource_hasNul (h : Path.hasNul path = true) :
    evaluateSource open? (.path path) skipEmpty = ⟨.error (.crashed .nulInPath), []⟩ :=
  if_pos h

theorem evaluateSource_not_hasNul (h : Path.hasNul path = false) :
    evaluateSource open? (.path path) skipEmpty =
      evaluateFeed path (Feed.ofFile path (open? path)) skipEmpty :=
  if_neg (Bool.eq_false_iff.mp h)

/-- What is noted before the end of a batch is about single lines. -/
theorem Reported.level_of_mem_dropLast {batch : Logged (Except BatchError (List BatchEntry))}
    (h : Reported open? path skipEmpty batch) :
    ∀ event ∈ batch.log.dropLast, event.level = .debug := by
  cases h with
  | finished =>
      rw [List.dropLast_concat]
      exact fun event => level_of_mem_notes
  | cannotOpen => exact fun _ hevent => absurd hevent List.not_mem_nil
  | undecodable =>
      rw [List.dropLast_concat]
      exact fun event => level_of_mem_notes

/-- Where a batch is told to be unreadable, an error is noted last. -/
theorem Reported.getLast?_log {batch : Logged (Except BatchError (List BatchEntry))}
    {source : Text} {fault : ReadFault} (h : Reported open? path skipEmpty batch)
    (hresult : batch.result = .error (.unreadable source fault)) :
    source = path ∧ batch.log.getLast? = some (.sourceUnreadable path fault.message) := by
  cases h with
  | finished => cases hresult
  | cannotOpen =>
      cases hresult
      exact ⟨rfl, rfl⟩
  | undecodable =>
      cases hresult
      exact ⟨rfl, List.getLast?_concat⟩

theorem Reported.hasNul_eq_false
    (h : Reported open? path skipEmpty (evaluateSource open? (.path path) skipEmpty)) :
    Path.hasNul path = false := by
  rw [Bool.eq_false_iff]
  intro hnul
  rw [evaluateSource_hasNul hnul] at h
  cases h

theorem reported_of_opened {bytes : List UInt8} {entries : List BatchEntry}
    (hopened : open? path = .ok bytes)
    (hentries : EntriesOf skipEmpty (Feed.ofBytes .utf8 .universal bytes).lines entries) :
    Reported open? path skipEmpty
      (evaluateFeed path (Feed.ofBytes .utf8 .universal bytes) skipEmpty) := by
  by_cases htext : ∃ text, bytes = encodeUtf8 text
  · obtain ⟨text, rfl⟩ := htext
    rw [Feed.ofBytes_encodeUtf8] at hentries ⊢
    rw [evaluateFeed_finished hentries, ← hentries.length_eq]
    exact .finished hopened hentries
  · obtain ⟨fault, hfault⟩ := Feed.exists_fault_of_ofBytes (not_exists.mp htext) .universal
    have hfeed : Feed.ofBytes .utf8 .universal bytes =
        ⟨(Feed.ofBytes .utf8 .universal bytes).lines, .unreadable (.undecodable .utf8 fault)⟩ := by
      rw [← hfault]
    rw [hfeed, evaluateFeed_unreadable hentries]
    exact .undecodable hopened (not_exists.mp htext) hentries

/-- **A file that cannot be read is told to be unreadable, unless its path holds a NUL.** Let
each line that is read have an outcome. Then the batch of a path is given out whole, or it is
told that the path cannot be opened or decoded, exactly if there is no NUL in the path. The
last event noted tells it, an error where the path is unreadable, and all others are details.
A path with a NUL in it breaks off the batch instead, and nothing is noted. -/
theorem reported_iff_not_hasNul
    (h : ∀ line ∈ ((Source.path path).feed open?).lines,
      ∃ outcome, evaluate (stripLineEnd line) skipEmpty = .ok outcome) :
    (Reported open? path skipEmpty (evaluateSource open? (.path path) skipEmpty) ↔
        Path.hasNul path = false) ∧
      (Path.hasNul path = true →
        evaluateSource open? (.path path) skipEmpty = ⟨.error (.crashed .nulInPath), []⟩) ∧
      (∀ source fault,
        (evaluateSource open? (.path path) skipEmpty).result = .error (.unreadable source fault) →
        source = path ∧
          (evaluateSource open? (.path path) skipEmpty).log.getLast? =
            some (.sourceUnreadable path fault.message) ∧
          LogEvent.level (.sourceUnreadable path fault.message) = .error) ∧
      ∀ event ∈ (evaluateSource open? (.path path) skipEmpty).log.dropLast,
        event.level = .debug := by
  have hreported (hnul : Path.hasNul path = false) :
      Reported open? path skipEmpty (evaluateSource open? (.path path) skipEmpty) := by
    rw [evaluateSource_not_hasNul hnul]
    cases hopened : open? path with
    | error fault => exact .cannotOpen hopened
    | ok bytes =>
        rw [Source.feed, hopened] at h
        obtain ⟨entries, hentries⟩ := exists_entriesOf_iff.mpr h
        exact reported_of_opened hopened hentries
  refine ⟨⟨Reported.hasNul_eq_false, hreported⟩, evaluateSource_hasNul, ?_, ?_⟩
  · intro source fault hresult
    cases hnul : Path.hasNul path with
    | false =>
        obtain ⟨hsource, hlast⟩ := (hreported hnul).getLast?_log hresult
        exact ⟨hsource, hlast, rfl⟩
    | true =>
        rw [evaluateSource_hasNul hnul] at hresult
        cases hresult
  · cases hnul : Path.hasNul path with
    | false => exact (hreported hnul).level_of_mem_dropLast
    | true =>
        rw [evaluateSource_hasNul hnul]
        exact fun _ hevent => absurd hevent List.not_mem_nil

/-- A file with one line, a file whose second line is no text, and a path with a NUL in it. -/
theorem reported_three_paths :
    let folder := Folder.ofListing [] [(['f'], [0x37, 0x0a]), (['g'], [0x37, 0x0a, 0xff])]
    let batch (path : Text) := evaluateSource folder.open? (.path path) false
    Reported folder.open? ['f'] false (batch ['f']) ∧
      (batch ['f']).result = .ok [⟨['7'], .success 7⟩] ∧
      Reported folder.open? ['g'] false (batch ['g']) ∧
      (batch ['g']).result =
        .error (.unreadable ['g'] (.undecodable .utf8 ⟨.invalidStart, 0xff, 2, 1⟩)) ∧
      (∃ event, (batch ['g']).log.getLast? = some event ∧ event.level = .error) ∧
      batch ['f', '\x00'] = ⟨.error (.crashed .nulInPath), []⟩ := by
  intro folder batch
  have hseven : ∀ line ∈ ((Source.path ['f']).feed folder.open?).lines,
      ∃ outcome, evaluate (stripLineEnd line) false = .ok outcome := by
    have hlines : ((Source.path ['f']).feed folder.open?).lines = [['7', '\n']] := by decide
    rw [hlines]
    exact List.forall_mem_singleton.mpr ⟨.success 7, by decide⟩
  -- The bytes of a block are decoded before its first line is given out.
  have hnone (path : Text) (h : ((Source.path path).feed folder.open?).lines = []) :
      ∀ line ∈ ((Source.path path).feed folder.open?).lines,
        ∃ outcome, evaluate (stripLineEnd line) false = .ok outcome := by
    rw [h]
    exact fun _ hline => absurd hline List.not_mem_nil
  have hresult : (batch ['g']).result =
      .error (.unreadable ['g'] (.undecodable .utf8 ⟨.invalidStart, 0xff, 2, 1⟩)) := by decide
  obtain ⟨hfinished, -, -, -⟩ := reported_iff_not_hasNul hseven
  obtain ⟨hundecodable, -, herror, -⟩ := reported_iff_not_hasNul (hnone ['g'] (by decide))
  obtain ⟨-, hnul, -, -⟩ := reported_iff_not_hasNul (hnone ['f', '\x00'] (by decide))
  obtain ⟨-, hlast, hlevel⟩ := herror ['g'] _ hresult
  exact ⟨hfinished.mpr rfl, by decide, hundecodable.mpr rfl, hresult, ⟨_, hlast, hlevel⟩, hnul rfl⟩

end

/-- Not every path is reported: one with a NUL in it breaks off the batch, in an empty folder
too. -/
theorem exists_path_not_reported :
    ¬ ∀ (folder : Folder) (path : Text) (skipEmpty : Bool),
      (∀ line ∈ ((Source.path path).feed folder.open?).lines,
        ∃ outcome, evaluate (stripLineEnd line) skipEmpty = .ok outcome) →
      (∃ entries, (evaluateSource folder.open? (.path path) skipEmpty).result = .ok entries) ∨
        ∃ fault, (evaluateSource folder.open? (.path path) skipEmpty).result =
          .error (.unreadable path fault) := by
  intro hall
  have hbatch : evaluateSource (Folder.ofListing [] []).open? (.path ['a', '\x00', 'b']) false =
      ⟨.error (.crashed .nulInPath), []⟩ := evaluateSource_hasNul rfl
  have hreported := hall (Folder.ofListing [] []) ['a', '\x00', 'b'] false nofun
  rw [hbatch] at hreported
  rcases hreported with ⟨entries, hentries⟩ | ⟨fault, hfault⟩
  · cases hentries
  · cases hfault

end ReversePolish

import Mathlib.Data.List.Chain
import Mathlib.Data.List.DropRight
import ReversePolish.Source.Lines

/-!
# ReversePolish.Proofs.LineEnd

**Writing lines and reading them back.**

A text is written line by line, each with an end of its own choice, and possibly with a
last line that lacks its end. It is read back as the lines it was written in, whatever
the ends, as long as the convention reads each of them (`Lines.of_writeLines`); and
every text can be thought of as written so (`exists_legible`).

Design points:

* Two ends may stand side by side, with an empty line between them, and only one pair
  of them is taken for a single end: a carriage return before a line feed. `Legible`
  rules that pair out, and nothing else.
* Everything is read off three equations of `Lines.split`: a character that ends no
  line, one that does, and a carriage return with a line feed as one end.
-/

namespace ReversePolish

/-! ### Line breaks -/

/-- Whether a character is part of a line end. -/
def IsLineBreak (c : Char) : Prop := c = '\n' ∨ c = '\r'

/-- Whether a text stays on one line. -/
def OnOneLine (text : Text) : Prop := ∀ c ∈ text, ¬ IsLineBreak c

instance (c : Char) : Decidable (IsLineBreak c) := inferInstanceAs (Decidable (_ ∨ _))

instance (text : Text) : Decidable (OnOneLine text) :=
  List.decidableBAll (fun c => ¬ IsLineBreak c) text

/-- The line without the line breaks at its end: what is cut off is nothing else, and
none of them is left. -/
structure Strips (line text : Text) : Prop where
  exists_append : ∃ breaks, line = text ++ breaks ∧ ∀ c ∈ breaks, IsLineBreak c
  last : ∀ c ∈ text.getLast?, ¬ IsLineBreak c

theorem beq_lineBreak_iff {c : Char} : (c == '\n' || c == '\r') = true ↔ IsLineBreak c := by
  simp [IsLineBreak]

theorem stripLineEnd_append {breaks : Text} (h : ∀ c ∈ breaks, IsLineBreak c) (text : Text) :
    stripLineEnd (text ++ breaks) = stripLineEnd text := by
  have hdropped : ∀ c ∈ breaks.reverse, (c == '\n' || c == '\r') = true :=
    fun c hc => beq_lineBreak_iff.mpr (h c (List.mem_reverse.mp hc))
  rw [stripLineEnd, List.reverse_append, List.dropWhile_append_of_pos hdropped, stripLineEnd]

theorem stripLineEnd_of_last {text : Text} (h : ∀ c ∈ text.getLast?, ¬ IsLineBreak c) :
    stripLineEnd text = text := by
  refine List.rdropWhile_eq_self_iff.mpr fun hne hlast => ?_
  exact h _ (List.getLast?_eq_getLast_of_ne_nil hne) (beq_lineBreak_iff.mp hlast)

theorem strips_stripLineEnd (line : Text) : Strips line (stripLineEnd line) := by
  induction line using List.reverseRecOn with
  | nil => exact ⟨⟨[], rfl, fun _ hc => absurd hc List.not_mem_nil⟩, fun _ hc => absurd hc nofun⟩
  | append_singleton text c ih =>
      by_cases hc : IsLineBreak c
      · obtain ⟨⟨breaks, htext, hbreaks⟩, hlast⟩ := ih
        have hstrip : stripLineEnd (text ++ [c]) = stripLineEnd text :=
          stripLineEnd_append (List.forall_mem_singleton.mpr hc) text
        rw [hstrip]
        refine ⟨⟨breaks ++ [c], ?_, ?_⟩, hlast⟩
        · rw [← List.append_assoc, ← htext]
        · exact List.forall_mem_append.mpr ⟨hbreaks, List.forall_mem_singleton.mpr hc⟩
      · have hlast : ∀ d ∈ (text ++ [c]).getLast?, ¬ IsLineBreak d := by
          rw [List.getLast?_concat]
          rintro d ⟨⟩
          exact hc
        rw [stripLineEnd_of_last hlast]
        exact ⟨⟨[], by simp, fun _ hd => absurd hd List.not_mem_nil⟩, hlast⟩

/-- A line has one form without its line breaks. -/
theorem strips_iff {line text : Text} : Strips line text ↔ stripLineEnd line = text := by
  constructor
  · rintro ⟨⟨breaks, rfl, hbreaks⟩, hlast⟩
    rw [stripLineEnd_append hbreaks, stripLineEnd_of_last hlast]
  · rintro rfl
    exact strips_stripLineEnd line

theorem stripLineEnd_of_onOneLine {text : Text} (h : OnOneLine text) : stripLineEnd text = text :=
  stripLineEnd_of_last fun c hc => h c (List.mem_of_mem_getLast? hc)

/-! ### Written lines -/

/-- The ends that a line may have. -/
inductive LineEnd
  | lineFeed
  | carriageReturn
  | pair
  deriving Repr, DecidableEq

/-- The characters of a line end. -/
def LineEnd.text : LineEnd → Text
  | lineFeed => ['\n']
  | carriageReturn => ['\r']
  | pair => ['\r', '\n']

theorem LineEnd.isLineBreak_of_mem_text {lineEnd : LineEnd} {c : Char} (h : c ∈ lineEnd.text) :
    IsLineBreak c := by
  cases lineEnd with
  | lineFeed => exact Or.inl (List.mem_singleton.mp h)
  | carriageReturn => exact Or.inr (List.mem_singleton.mp h)
  | pair =>
      rcases List.mem_pair.mp h with rfl | rfl
      · exact Or.inr rfl
      · exact Or.inl rfl

/-- A line with its end. -/
structure WrittenLine where
  body : Text
  lineEnd : LineEnd
  deriving Repr, DecidableEq

namespace WrittenLine

/-- The line as it is written. -/
def text (line : WrittenLine) : Text := line.body ++ line.lineEnd.text

/-- Whether the ends of two lines in a row stay apart: only the end of an empty line can
come to stand behind another end, and only a carriage return joins a line feed. -/
def Apart (line next : WrittenLine) : Prop :=
  ¬ (line.lineEnd = .carriageReturn ∧ next.body = [] ∧ next.lineEnd = .lineFeed)

instance (line next : WrittenLine) : Decidable (line.Apart next) :=
  inferInstanceAs (Decidable (¬ _))

end WrittenLine

/-- Lines one after the other, and behind them what has no end. -/
def writeLines (lines : List WrittenLine) (rest : Text) : Text :=
  lines.flatMap WrittenLine.text ++ rest

@[simp] theorem writeLines_nil (rest : Text) : writeLines [] rest = rest := rfl

@[simp] theorem writeLines_cons (line : WrittenLine) (lines : List WrittenLine) (rest : Text) :
    writeLines (line :: lines) rest = line.body ++ (line.lineEnd.text ++ writeLines lines rest) := by
  simp [writeLines, WrittenLine.text]

/-- What the lines hold. A rest without an end is a line unless it is empty. -/
def bodies (lines : List WrittenLine) (rest : Text) : List Text :=
  lines.map WrittenLine.body ++ if rest = [] then [] else [rest]

/-- Whether lines can be told apart where they are written: none of them holds a line
break, and no two ends join. -/
structure Legible (lines : List WrittenLine) (rest : Text) : Prop where
  body : ∀ line ∈ lines, OnOneLine line.body
  rest : OnOneLine rest
  apart : lines.IsChain WrittenLine.Apart

instance (lines : List WrittenLine) (rest : Text) : Decidable (Legible lines rest) :=
  decidable_of_iff
    ((∀ line ∈ lines, OnOneLine line.body) ∧ OnOneLine rest ∧ lines.IsChain WrittenLine.Apart)
    ⟨fun ⟨body, rest, apart⟩ => ⟨body, rest, apart⟩, fun h => ⟨h.body, h.rest, h.apart⟩⟩

/-- A written line is legible before others when it holds no line break itself and no line
feed stands behind a carriage return that ends it. -/
theorem legible_cons_iff {line : WrittenLine} {lines : List WrittenLine} {rest : Text} :
    Legible (line :: lines) rest ↔ OnOneLine line.body ∧
      (line.lineEnd = .carriageReturn → (writeLines lines rest).head? ≠ some '\n') ∧
      Legible lines rest := by
  constructor
  · intro h
    have htail : Legible lines rest :=
      ⟨fun other hmem => h.body other (List.mem_cons_of_mem line hmem), h.rest, h.apart.tail⟩
    refine ⟨h.body line List.mem_cons_self, fun hreturn hhead => ?_, htail⟩
    cases lines with
    | nil => exact h.rest '\n' (List.mem_of_mem_head? hhead) (Or.inl rfl)
    | cons next others =>
        have hapart : line.Apart next := (List.isChain_cons_cons.mp h.apart).1
        rw [writeLines_cons] at hhead
        cases hbody : next.body with
        | cons c body =>
            rw [hbody] at hhead
            obtain rfl : c = '\n' := Option.some.inj hhead
            refine htail.body next List.mem_cons_self '\n' ?_ (Or.inl rfl)
            rw [hbody]
            exact List.mem_cons_self
        | nil =>
            rw [hbody] at hhead
            cases hnext : next.lineEnd with
            | lineFeed => exact hapart ⟨hreturn, hbody, hnext⟩
            | carriageReturn => simp [hnext, LineEnd.text] at hhead
            | pair => simp [hnext, LineEnd.text] at hhead
  · rintro ⟨hbody, hhead, htail⟩
    refine ⟨List.forall_mem_cons.mpr ⟨hbody, htail.body⟩, htail.rest, ?_⟩
    cases lines with
    | nil => exact .singleton line
    | cons next others =>
        refine .cons_cons ?_ htail.apart
        rintro ⟨hreturn, hempty, hfeed⟩
        apply hhead hreturn
        rw [writeLines_cons, hempty, hfeed]
        rfl

theorem exists_legible_cons {c : Char} (hc : ¬ IsLineBreak c) {lines : List WrittenLine}
    {rest : Text} (h : Legible lines rest) :
    ∃ lines' rest', c :: writeLines lines rest = writeLines lines' rest' ∧ Legible lines' rest' := by
  cases lines with
  | nil => exact ⟨[], c :: rest, rfl, ⟨nofun, List.forall_mem_cons.mpr ⟨hc, h.rest⟩, .nil⟩⟩
  | cons line lines =>
      obtain ⟨hbody, hhead, htail⟩ := legible_cons_iff.mp h
      refine ⟨⟨c :: line.body, line.lineEnd⟩ :: lines, rest, by simp, legible_cons_iff.mpr ?_⟩
      exact ⟨List.forall_mem_cons.mpr ⟨hc, hbody⟩, hhead, htail⟩

/-- Every text is written in lines that can be told apart. -/
theorem exists_legible (text : Text) :
    ∃ lines rest, text = writeLines lines rest ∧ Legible lines rest := by
  induction hlength : text.length using Nat.strong_induction_on generalizing text with
  | _ length ih =>
      subst hlength
      cases text with
      | nil => exact ⟨[], [], rfl, ⟨nofun, nofun, .nil⟩⟩
      | cons c text =>
          obtain ⟨lines, rest, htext, h⟩ := ih text.length (by simp) text rfl
          by_cases hc : IsLineBreak c
          · rcases hc with rfl | rfl
            · refine ⟨⟨[], .lineFeed⟩ :: lines, rest, by rw [htext]; simp [LineEnd.text], ?_⟩
              exact legible_cons_iff.mpr ⟨nofun, nofun, h⟩
            · by_cases hhead : text.head? = some '\n'
              · -- The two characters are one end, so the text behind both is what is left.
                obtain ⟨after, rfl⟩ := List.head?_eq_some_iff.mp hhead
                have hshorter : after.length < ('\r' :: '\n' :: after).length := by
                  simp only [List.length_cons]
                  omega
                obtain ⟨lines, rest, hafter, h⟩ := ih after.length hshorter after rfl
                refine ⟨⟨[], .pair⟩ :: lines, rest, by rw [hafter]; simp [LineEnd.text], ?_⟩
                exact legible_cons_iff.mpr ⟨nofun, nofun, h⟩
              · refine ⟨⟨[], .carriageReturn⟩ :: lines, rest, ?_, ?_⟩
                · rw [htext]
                  simp [LineEnd.text]
                · exact legible_cons_iff.mpr ⟨nofun, fun _ => htext ▸ hhead, h⟩
          · rw [htext]
            exact exists_legible_cons hc h

/-- Whether every carriage return has a line feed right behind it. -/
def ReturnsPaired (text : Text) : Prop :=
  ∀ before after, text = before ++ '\r' :: after → after.head? = some '\n'

theorem ReturnsPaired.of_append {start text : Text} (h : ReturnsPaired (start ++ text)) :
    ReturnsPaired text := by
  rintro before after rfl
  exact h (start ++ before) after (by simp)

theorem returnsPaired_cons_iff {c : Char} {text : Text} :
    ReturnsPaired (c :: text) ↔ (c = '\r' → text.head? = some '\n') ∧ ReturnsPaired text := by
  constructor
  · intro h
    have htext : ReturnsPaired ([c] ++ text) := h
    refine ⟨?_, htext.of_append⟩
    rintro rfl
    exact h [] text rfl
  · rintro ⟨hhead, htext⟩ before after heq
    cases before with
    | nil =>
        obtain ⟨rfl, rfl⟩ := List.cons.inj heq
        exact hhead rfl
    | cons d before => exact htext before after (List.cons.inj heq).2

instance ReturnsPaired.decidable : (text : Text) → Decidable (ReturnsPaired text)
  | [] => isTrue fun before _ h => absurd h (by simp)
  | _ :: text =>
    have := ReturnsPaired.decidable text
    decidable_of_iff _ returnsPaired_cons_iff.symm

theorem lineEnd_ne_carriageReturn {lines : List WrittenLine} {rest : Text}
    (h : Legible lines rest) (hpaired : ReturnsPaired (writeLines lines rest)) :
    ∀ line ∈ lines, line.lineEnd ≠ .carriageReturn := by
  induction lines with
  | nil => exact nofun
  | cons line lines ih =>
      obtain ⟨-, hhead, htail⟩ := legible_cons_iff.mp h
      rw [writeLines_cons] at hpaired
      refine List.forall_mem_cons.mpr ⟨fun hreturn => ?_, ih htail hpaired.of_append.of_append⟩
      rw [hreturn] at hpaired
      exact hhead hreturn (hpaired line.body (writeLines lines rest) rfl)

/-! ### Splitting -/

/-- The line ends that a convention reads: it ends the line behind the last character of
the end, and not before. -/
def LineConvention.Reads : LineConvention → LineEnd → Prop
  | universal, _ => True
  | universalKept, _ => True
  | lineFeed, lineEnd => lineEnd ≠ .carriageReturn
  | carriageReturn, lineEnd => lineEnd = .carriageReturn
  | carriageReturnLineFeed, lineEnd => lineEnd = .pair

theorem LineConvention.reads_universal (lineEnd : LineEnd) : universal.Reads lineEnd := trivial

theorem LineConvention.reads_universalKept (lineEnd : LineEnd) : universalKept.Reads lineEnd :=
  trivial

theorem LineConvention.isLineBreak_of_mem_handedOn {convention : LineConvention}
    {lineEnd : LineEnd} {c : Char} (h : c ∈ convention.handedOn lineEnd.text) : IsLineBreak c := by
  cases convention with
  | universal => exact Or.inl (List.mem_singleton.mp h)
  | universalKept => exact LineEnd.isLineBreak_of_mem_text h
  | lineFeed => exact LineEnd.isLineBreak_of_mem_text h
  | carriageReturn => exact LineEnd.isLineBreak_of_mem_text h
  | carriageReturnLineFeed => exact LineEnd.isLineBreak_of_mem_text h

namespace Lines

variable {convention : LineConvention} {begun : Text} {c : Char} {rest : Text}

theorem split_cons_inside (hends : convention.endsLine c = false)
    (hpair : convention.joinsPair = true → c ≠ '\r') :
    split convention begun (c :: rest) = split convention (c :: begun) rest := by
  cases rest with
  | nil => simp [split, hends]
  | cons d rest =>
      have hsingle : (convention.joinsPair && c == '\r' && d == '\n') = false := by
        cases hjoins : convention.joinsPair with
        | false => rfl
        | true => simp [hpair hjoins]
      simp [split, hsingle, hends]

theorem split_cons_end (hends : convention.endsLine c = true)
    (hpair : convention.joinsPair = true → c = '\r' → rest.head? ≠ some '\n') :
    split convention begun (c :: rest) =
      cons (begun.reverse ++ convention.handedOn [c]) (split convention [] rest) := by
  cases rest with
  | nil => simp [split, hends, cons]
  | cons d rest =>
      have hsingle : (convention.joinsPair && c == '\r' && d == '\n') = false := by
        rw [Bool.eq_false_iff]
        intro h
        simp only [Bool.and_eq_true, beq_iff_eq] at h
        exact hpair h.1.1 h.1.2 (congrArg some h.2)
      simp [split, hsingle, hends]

theorem split_pair (hjoins : convention.joinsPair = true) :
    split convention begun ('\r' :: '\n' :: rest) =
      cons (begun.reverse ++ convention.handedOn ['\r', '\n']) (split convention [] rest) := by
  simp [split, hjoins]

theorem split_body {body : Text} (h : OnOneLine body) :
    split convention begun (body ++ rest) = split convention (body.reverse ++ begun) rest := by
  induction body generalizing begun with
  | nil => rfl
  | cons c body ih =>
      obtain ⟨hc, hbody⟩ := List.forall_mem_cons.mp h
      have hends : convention.endsLine c = false := by
        rw [IsLineBreak, not_or] at hc
        cases convention <;> simp [LineConvention.endsLine, hc]
      rw [List.cons_append, split_cons_inside hends fun _ hreturn => hc (Or.inr hreturn), ih hbody,
        List.reverse_cons, List.append_assoc, List.singleton_append]

theorem split_lineEnd {lineEnd : LineEnd} (hreads : convention.Reads lineEnd)
    (hhead : lineEnd = .carriageReturn → rest.head? ≠ some '\n') :
    split convention begun (lineEnd.text ++ rest) =
      cons (begun.reverse ++ convention.handedOn lineEnd.text) (split convention [] rest) := by
  cases lineEnd with
  | lineFeed =>
      have hends : convention.endsLine '\n' = true := by
        cases convention <;> simp_all [LineConvention.Reads, LineConvention.endsLine]
      exact split_cons_end hends nofun
  | carriageReturn =>
      have hends : convention.endsLine '\r' = true := by
        cases convention <;> simp_all [LineConvention.Reads, LineConvention.endsLine]
      exact split_cons_end hends fun _ _ => hhead rfl
  | pair =>
      by_cases hjoins : convention.joinsPair = true
      · exact split_pair hjoins
      · -- Only where a line feed alone ends lines: the carriage return stays in the line.
        obtain rfl : convention = .lineFeed := by
          cases convention <;> simp_all [LineConvention.Reads, LineConvention.joinsPair]
        calc split .lineFeed begun ('\r' :: '\n' :: rest)
            = split .lineFeed ('\r' :: begun) ('\n' :: rest) := split_cons_inside rfl nofun
          _ = cons (('\r' :: begun).reverse ++ ['\n']) (split .lineFeed [] rest) :=
              split_cons_end rfl nofun
          _ = cons (begun.reverse ++ ['\r', '\n']) (split .lineFeed [] rest) := by simp

/-- **Written lines are read back**, each with its end as the convention hands it on, if
the convention reads every end. -/
theorem of_writeLines {lines : List WrittenLine} (h : Legible lines rest)
    (hreads : ∀ line ∈ lines, convention.Reads line.lineEnd) :
    of convention (writeLines lines rest) =
      ⟨lines.map fun line => line.body ++ convention.handedOn line.lineEnd.text, rest⟩ := by
  unfold of
  induction lines with
  | nil =>
      rw [writeLines_nil, ← List.append_nil rest, split_body h.rest]
      simp [split]
  | cons line lines ih =>
      obtain ⟨hbody, hhead, htail⟩ := legible_cons_iff.mp h
      obtain ⟨hline, hlines⟩ := List.forall_mem_cons.mp hreads
      rw [writeLines_cons, split_body hbody, split_lineEnd hline hhead, ih htail hlines]
      simp [cons]

/-- Without their ends, the lines that are read are the lines that were written. -/
theorem map_stripLineEnd_all {lines : List WrittenLine} (h : Legible lines rest)
    (hreads : ∀ line ∈ lines, convention.Reads line.lineEnd) :
    (of convention (writeLines lines rest)).all.map stripLineEnd = bodies lines rest := by
  have hstrip : lines.map (stripLineEnd ∘ fun line =>
      line.body ++ convention.handedOn line.lineEnd.text) = lines.map WrittenLine.body := by
    refine List.map_congr_left fun line hmem => ?_
    rw [Function.comp_apply, stripLineEnd_append fun _ => LineConvention.isLineBreak_of_mem_handedOn,
      stripLineEnd_of_onOneLine (h.body line hmem)]
  rw [of_writeLines h hreads, all, bodies]
  by_cases hrest : rest = []
  · simp [hrest, hstrip]
  · simp [hrest, hstrip, stripLineEnd_of_onOneLine h.rest]

end Lines

end ReversePolish

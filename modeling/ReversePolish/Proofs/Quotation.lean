import ReversePolish.Text.Abbreviated
import ReversePolish.Text.Blank
import ReversePolish.Text.Decimal

/-!
# ReversePolish.Proofs.Quotation

What a **quotation** looks like: printable throughout, and of a known length when it is
abbreviated.

A quotation may be ten times as long as its text, and it is abbreviated by cutting twice, the
text before it is quoted and the quotation after that. The second cut needs enough to cut
from. Either the two ends of the text alone are as long as what is shown, or the text is so
short that it is one of its own ends, and then its quotation was too long before
(`keptTail_le_length_quote_ends`). So an abbreviated quotation is the quotation itself, or
forty code points with dots at a known place (`abbreviate_eq_quote`, `length_abbreviate`).

Design points:

* Nothing is said of what an escape looks like, only that it is printable and not empty.
* A short text is doubled by taking its ends, which leaves the mark around it what it was:
  the mark depends on which characters there are (`markFor_congr`).
-/

namespace ReversePolish.Text

variable {text : Text} {c mark : Char}

/-! ### Printable texts -/

/-- Whether a text is printable throughout. -/
def Printable (text : Text) : Prop := ∀ c ∈ text, isPrintable c = true

theorem printable_nil : Printable [] := fun _ h => absurd h List.not_mem_nil

theorem printable_cons_iff : Printable (c :: text) ↔ isPrintable c = true ∧ Printable text :=
  List.forall_mem_cons

theorem printable_append_iff {first second : Text} :
    Printable (first ++ second) ↔ Printable first ∧ Printable second :=
  List.forall_mem_append

theorem Printable.append {first second : Text} (hfirst : Printable first)
    (hsecond : Printable second) : Printable (first ++ second) :=
  printable_append_iff.mpr ⟨hfirst, hsecond⟩

theorem Printable.of_subset {part : Text} (h : Printable text) (hpart : part ⊆ text) :
    Printable part := fun c hc => h c (hpart hc)

theorem printable_of_ascii
    (h : (text.all fun c => 0x20 ≤ c.toNat && c.toNat ≤ 0x7e) = true) : Printable text := by
  intro c hc
  have hrange := List.all_eq_true.mp h c hc
  rw [Bool.and_eq_true, decide_eq_true_eq, decide_eq_true_eq] at hrange
  exact isPrintable_of_ascii hrange.1 hrange.2

/-- The code points of control characters, of format characters, and of white space other
than the space (Unicode 14.0), as closed ranges in ascending order. -/
def hiddenRanges : List (Nat × Nat) :=
  [(0x0, 0x1f), (0x7f, 0xa0), (0xad, 0xad), (0x600, 0x605), (0x61c, 0x61c), (0x6dd, 0x6dd),
   (0x70f, 0x70f), (0x890, 0x891), (0x8e2, 0x8e2), (0x1680, 0x1680), (0x180e, 0x180e),
   (0x2000, 0x200f), (0x2028, 0x202f), (0x205f, 0x2064), (0x2066, 0x206f), (0x3000, 0x3000),
   (0xfeff, 0xfeff), (0xfff9, 0xfffb), (0x110bd, 0x110bd), (0x110cd, 0x110cd),
   (0x13430, 0x13438), (0x1bca0, 0x1bca3), (0x1d173, 0x1d17a), (0xe0001, 0xe0001),
   (0xe0020, 0xe007f)]

/-- Whether a character would change how the text around it is laid out: a line end or other
control character, a format character, or white space other than the space. -/
def IsHidden (c : Char) : Prop := ∃ range ∈ hiddenRanges, range.1 ≤ c.toNat ∧ c.toNat ≤ range.2

theorem not_isHidden_of_isPrintable (h : isPrintable c = true) : ¬ IsHidden c := by
  have hapart : (printableRanges.all fun printable => hiddenRanges.all fun hidden =>
      printable.2 < hidden.1 || hidden.2 < printable.1) = true := by
    decide +kernel
  obtain ⟨printable, hprintable, hin⟩ := List.any_eq_true.mp h
  rintro ⟨hidden, hhidden, hlow, hhigh⟩
  have hranges := List.all_eq_true.mp hapart printable hprintable
  have hdisjoint := List.all_eq_true.mp hranges hidden hhidden
  simp only [Bool.or_eq_true, Bool.and_eq_true, decide_eq_true_eq] at hdisjoint hin
  omega

/-- All white space but the space is hidden, line ends among it. -/
theorem isHidden_of_isBlank (h : isBlank c = true) (hspace : c ≠ ' ') : IsHidden c := by
  have hne : c.toNat ≠ 0x20 := fun heq => hspace (Char.toNat_inj.mp heq)
  simp only [isBlank, Bool.or_eq_true, Bool.and_eq_true, decide_eq_true_eq, beq_iff_eq] at h
  simp only [IsHidden, hiddenRanges, List.mem_cons, List.not_mem_nil, or_false,
    exists_eq_or_imp, exists_eq_left]
  omega

/-! ### Quotations are printable -/

theorem printable_hexadecimal (width n : Nat) : Printable (hexadecimal width n) := by
  have hdigit : ∀ digit < 16, isPrintable (Nat.digitChar digit) = true := by decide
  induction width generalizing n with
  | zero => exact printable_nil
  | succ width ih =>
      refine (ih (n / 16)).append (printable_cons_iff.mpr ⟨?_, printable_nil⟩)
      exact hdigit (n % 16) (Nat.mod_lt n (by decide))

theorem printable_escapeCodePoint (n : Nat) : Printable (escapeCodePoint n) := by
  have hsmall : Printable [backslash, 'x'] := printable_of_ascii (by decide)
  have hmiddle : Printable [backslash, 'u'] := printable_of_ascii (by decide)
  have hlarge : Printable [backslash, 'U'] := printable_of_ascii (by decide)
  unfold escapeCodePoint
  split
  · exact hsmall.append (printable_hexadecimal 2 n)
  · split
    · exact hmiddle.append (printable_hexadecimal 4 n)
    · exact hlarge.append (printable_hexadecimal 8 n)

/-- A character is written behind a backslash, by itself, or by its code point. -/
theorem escape_cases (mark c : Char) :
    (∃ d, escape mark c = [backslash, d] ∧ (d = mark ∨ isPrintable d = true)) ∨
      (escape mark c = [c] ∧ isPrintable c = true) ∨
      escape mark c = escapeCodePoint c.toNat := by
  unfold escape
  split
  · next hc =>
      refine Or.inl ⟨c, rfl, hc.imp_right ?_⟩
      rintro rfl
      decide
  · split
    · exact Or.inl ⟨'t', rfl, Or.inr (by decide)⟩
    · split
      · exact Or.inl ⟨'n', rfl, Or.inr (by decide)⟩
      · split
        · exact Or.inl ⟨'r', rfl, Or.inr (by decide)⟩
        · split
          · next hprintable => exact Or.inr (Or.inl ⟨rfl, hprintable⟩)
          · exact Or.inr (Or.inr rfl)

theorem printable_escape (hmark : isPrintable mark = true) (c : Char) :
    Printable (escape mark c) := by
  rcases escape_cases mark c with ⟨d, hescape, hd⟩ | ⟨hescape, hc⟩ | hescape
  · have hprintable : isPrintable d = true := hd.elim (fun heq => heq ▸ hmark) id
    rw [hescape, printable_cons_iff, printable_cons_iff]
    exact ⟨by decide, hprintable, printable_nil⟩
  · rw [hescape]
    exact printable_cons_iff.mpr ⟨hc, printable_nil⟩
  · rw [hescape]
    exact printable_escapeCodePoint c.toNat

theorem isPrintable_markFor (text : Text) : isPrintable (markFor text) = true := by
  unfold markFor
  split <;> decide

theorem printable_quote (text : Text) : Printable (quote text) := by
  have hmark := isPrintable_markFor text
  refine Printable.append (printable_cons_iff.mpr ⟨hmark, ?_⟩)
    (printable_cons_iff.mpr ⟨hmark, printable_nil⟩)
  intro d hd
  obtain ⟨c, -, hd⟩ := List.mem_flatMap.mp hd
  exact printable_escape hmark c d hd

theorem printable_cutMiddle (h : Printable text) : Printable (cutMiddle text) := by
  have hdots : Printable ellipsis := printable_of_ascii (by decide)
  exact ((h.of_subset (List.take_subset _ _)).append hdots).append
    (h.of_subset (List.drop_subset _ _))

theorem abbreviate_eq_ite (text : Text) :
    abbreviate text =
      if (quote (text.take quotationLimit)).length ≤ quotationLimit then
        quote (text.take quotationLimit)
      else cutMiddle (quote (ends text)) := rfl

theorem printable_abbreviate (text : Text) : Printable (abbreviate text) := by
  rw [abbreviate_eq_ite]
  split
  · exact printable_quote _
  · exact printable_cutMiddle (printable_quote _)

theorem printable_natural (n : Nat) : Printable (natural n) := by
  intro c hc
  have hdigit := isDigit_of_mem_natural hc
  rw [Char.isDigit, Bool.and_eq_true, decide_eq_true_eq, decide_eq_true_eq] at hdigit
  have hlow : 48 ≤ c.toNat := hdigit.1
  have hhigh : c.toNat ≤ 57 := hdigit.2
  exact isPrintable_of_ascii (by omega) (by omega)

theorem printable_decimal (value : Int) : Printable (decimal value) := by
  unfold decimal
  split
  · exact printable_cons_iff.mpr ⟨by decide, printable_natural _⟩
  · exact printable_natural _

/-! ### The length of a quotation -/

theorem length_escape_pos (mark c : Char) : 0 < (escape mark c).length := by
  rcases escape_cases mark c with ⟨d, hescape, -⟩ | ⟨hescape, -⟩ | hescape
  · simp [hescape]
  · simp [hescape]
  · rw [hescape, escapeCodePoint]
    split
    · exact Nat.succ_pos _
    · split <;> exact Nat.succ_pos _

theorem length_le_length_flatMap_escape (mark : Char) (text : Text) :
    text.length ≤ (text.flatMap (escape mark)).length := by
  induction text with
  | nil => exact Nat.le_refl 0
  | cons c rest ih =>
      have hpos := length_escape_pos mark c
      rw [List.flatMap_cons, List.length_append, List.length_cons]
      omega

theorem length_add_two_le_length_quote (text : Text) : text.length + 2 ≤ (quote text).length := by
  have hescaped := length_le_length_flatMap_escape (markFor text) text
  rw [length_quote]
  omega

/-- The mark depends on which characters there are. -/
theorem markFor_congr {first second : Text} (h : ∀ c, c ∈ first ↔ c ∈ second) :
    markFor first = markFor second := by
  have hcontains (c : Char) : first.contains c = second.contains c := by
    rw [Bool.eq_iff_iff, List.contains_iff_mem, List.contains_iff_mem, h]
  rw [markFor, markFor, hcontains, hcontains]

/-- What repeats characters of a text makes its quotation longer. -/
theorem length_quote_append_ge {part : Text} (h : part ⊆ text) :
    (quote text).length ≤ (quote (text ++ part)).length := by
  have hmark : markFor (text ++ part) = markFor text := by
    refine markFor_congr fun c => ?_
    rw [List.mem_append]
    exact or_iff_left_of_imp fun hc => h hc
  rw [length_quote, length_quote, hmark, List.flatMap_append, List.length_append]
  omega

/-! ### The two ends of a text -/

theorem slice_subset (start stop : Int) (text : Text) : slice start stop text ⊆ text :=
  fun _ hc => List.mem_of_mem_take (List.mem_of_mem_drop hc)

/-- A short text is its own first end. -/
theorem exists_ends_of_length_le (h : text.length ≤ keptHead) :
    ∃ part, part ⊆ text ∧ ends text = text ++ part := by
  refine ⟨slice (text.length - keptTail) text.length text, slice_subset _ _ text, ?_⟩
  rw [ends, List.take_of_length_le h]

/-- Seven of twelve characters are taken twice. -/
example : ends "abcdefghijkl".toList = "abcdefghijklfghijkl".toList := by decide +kernel

theorem length_ends_of_lt_length (h : keptHead < text.length) :
    keptTail ≤ (ends text).length := by
  have hstart : (text.length : Int) - keptTail = (text.length - keptTail : Nat) := by
    unfold keptHead keptTail at *
    omega
  rw [ends, hstart, slice_natCast]
  simp only [List.length_append, List.length_take, List.length_drop]
  unfold keptHead keptTail at *
  omega

/-- The ends of a text have a quotation that is long enough to be cut, if the whole has. -/
theorem keptTail_le_length_quote_ends (h : quotationLimit < (quote text).length) :
    keptTail ≤ (quote (ends text)).length := by
  rcases Nat.lt_or_ge keptHead text.length with hlong | hshort
  · have hends := length_ends_of_lt_length hlong
    have hquote := length_add_two_le_length_quote (ends text)
    omega
  · obtain ⟨part, hpart, hends⟩ := exists_ends_of_length_le hshort
    have hquote := length_quote_append_ge hpart
    rw [hends]
    unfold keptTail quotationLimit at *
    omega

/-! ### Abbreviated quotations -/

/-- A quotation that fits is not cut. -/
theorem abbreviate_eq_quote (h : (quote text).length ≤ quotationLimit) :
    abbreviate text = quote text := by
  have hlength := length_add_two_le_length_quote text
  have htake : text.take quotationLimit = text := List.take_of_length_le (by omega)
  rw [abbreviate_eq_ite, htake, if_pos h]

/-- A quotation that does not fit is cut in the middle, also where a part of the text is
enough to see that. -/
theorem abbreviate_eq_cutMiddle (h : quotationLimit < (quote text).length) :
    abbreviate text = cutMiddle (quote (ends text)) := by
  have hpart : quotationLimit < (quote (text.take quotationLimit)).length := by
    rcases Nat.lt_or_ge quotationLimit text.length with hlong | hshort
    · have hlength := length_add_two_le_length_quote (text.take quotationLimit)
      rw [List.length_take] at hlength
      omega
    · rwa [List.take_of_length_le hshort]
  rw [abbreviate_eq_ite, if_neg (Nat.not_le.mpr hpart)]

theorem length_cutMiddle (h : keptTail ≤ text.length) :
    (cutMiddle text).length = quotationLimit := by
  have hdots : ellipsis.length = 3 := by decide
  rw [cutMiddle, List.length_append, List.length_append, List.length_take, List.length_drop, hdots]
  unfold keptTail keptHead quotationLimit at *
  omega

theorem slice_cutMiddle (h : keptTail ≤ text.length) :
    slice 18 21 (cutMiddle text) = ellipsis := by
  have hhead : (text.take keptHead).length = 18 := by
    rw [List.length_take]
    unfold keptTail keptHead at *
    omega
  have hslice : slice 18 21 (cutMiddle text) = ((cutMiddle text).drop 18).take 3 :=
    slice_natCast 18 21 (cutMiddle text)
  rw [hslice, cutMiddle, List.append_assoc, ← hhead, List.drop_left]
  exact List.take_left' (by decide)

/-- A quotation that does not fit is shown by forty code points, with dots behind the first
eighteen. -/
theorem length_abbreviate (h : quotationLimit < (quote text).length) :
    (abbreviate text).length = quotationLimit ∧ slice 18 21 (abbreviate text) = ellipsis := by
  have hends := keptTail_le_length_quote_ends h
  rw [abbreviate_eq_cutMiddle h]
  exact ⟨length_cutMiddle hends, slice_cutMiddle hends⟩

theorem length_abbreviate_le (text : Text) : (abbreviate text).length ≤ quotationLimit := by
  rcases Nat.lt_or_ge quotationLimit (quote text).length with hlong | hshort
  · exact Nat.le_of_eq (length_abbreviate hlong).1
  · rwa [abbreviate_eq_quote hshort]

/-! ### Quotations have no space of their own -/

theorem space_not_mem_hexadecimal (width n : Nat) : ' ' ∉ hexadecimal width n := by
  have hdigit : ∀ digit < 16, ' ' ≠ Nat.digitChar digit := by decide
  induction width generalizing n with
  | zero => exact List.not_mem_nil
  | succ width ih =>
      rw [hexadecimal, List.mem_append, List.mem_singleton, not_or]
      exact ⟨ih (n / 16), hdigit (n % 16) (Nat.mod_lt n (by decide))⟩

theorem space_not_mem_escapeCodePoint (n : Nat) : ' ' ∉ escapeCodePoint n := by
  unfold escapeCodePoint
  split
  · simp [backslash, space_not_mem_hexadecimal]
  · split <;> simp [backslash, space_not_mem_hexadecimal]

theorem space_not_mem_escape (h : c ≠ ' ') (mark : Char) : ' ' ∉ escape mark c := by
  unfold escape
  split
  · simp [backslash, h.symm]
  · split
    · decide
    · split
      · decide
      · split
        · decide
        · split
          · simp [h.symm]
          · exact space_not_mem_escapeCodePoint c.toNat

theorem markFor_ne_space (text : Text) : markFor text ≠ ' ' := by
  unfold markFor
  split <;> decide

theorem space_not_mem_quote (h : ' ' ∉ text) : ' ' ∉ quote text := by
  intro hmem
  rcases List.mem_append.mp hmem with hmem | hmem
  · rcases List.mem_cons.mp hmem with hmark | hmem
    · exact markFor_ne_space text hmark.symm
    · obtain ⟨c, hc, hspace⟩ := List.mem_flatMap.mp hmem
      exact space_not_mem_escape (fun heq => h (heq ▸ hc)) _ hspace
  · exact markFor_ne_space text (List.mem_singleton.mp hmem).symm

theorem space_not_mem_ends (h : ' ' ∉ text) : ' ' ∉ ends text := by
  intro hmem
  rcases List.mem_append.mp hmem with hmem | hmem
  · exact h (List.mem_of_mem_take hmem)
  · exact h (slice_subset _ _ _ hmem)

theorem space_not_mem_cutMiddle (h : ' ' ∉ text) : ' ' ∉ cutMiddle text := by
  simp only [cutMiddle, List.mem_append, not_or]
  exact ⟨⟨fun hmem => h (List.mem_of_mem_take hmem), by decide⟩,
    fun hmem => h (List.mem_of_mem_drop hmem)⟩

/-- A lexeme is quoted and cut without a space. -/
theorem space_not_mem_abbreviate (h : ' ' ∉ text) : ' ' ∉ abbreviate text := by
  rw [abbreviate_eq_ite]
  split
  · exact space_not_mem_quote fun hmem => h (List.mem_of_mem_take hmem)
  · exact space_not_mem_cutMiddle (space_not_mem_quote (space_not_mem_ends h))

theorem head?_abbreviate (text : Text) :
    ∃ shown, (abbreviate text).head? = some (markFor shown) := by
  rw [abbreviate_eq_ite]
  split
  · exact ⟨_, rfl⟩
  · exact ⟨_, rfl⟩

end ReversePolish.Text

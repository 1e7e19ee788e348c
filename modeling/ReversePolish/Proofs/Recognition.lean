import ReversePolish.Proofs.Position
import ReversePolish.Proofs.Tokenize

/-!
# ReversePolish.Proofs.Recognition

**Which lexemes are operands**, and what is told of those that are not.

Reading a lexeme has three ends, and the grammar of numerals together with the integer
that a numeral names decides which of them comes: the word is given, nothing is given, or
the numeral cannot be read (`recognition`). Whether a refused lexeme is a literal is asked
a second time when it is refused, with no regard to its size. The two answers fit
together, so a message about the range is told of the integers out of range and of nothing
else.

Design points:

* A lexeme is written as a numeral in one way (`Numeral.text_injective`), so what holds of
  some numeral that it is written as holds of all of them.
* How long a numeral is without its leading zeros is said of the digits that are left
  when at least one digit is kept (`significantDigits`). Where all zeros of a zero are
  dropped instead, that makes no difference to a limit of ten.
-/

namespace ReversePolish

/-! ### Numerals by what they denote -/

/-- The digits without leading zeros; of a zero one digit is left. -/
def significantDigits : Text → Text
  | '0' :: c :: rest => significantDigits (c :: rest)
  | digits => digits

/-- Whether a lexeme is a numeral that names this integer. -/
def Denotes (lexeme : Text) (value : Int) : Prop :=
  ∃ numeral : Numeral, numeral.text = lexeme ∧ numeral.value = value

/-- Whether a lexeme is a numeral of so many digits, too many to be read, of which no more
than ten are left without leading zeros. -/
def Exceeds (lexeme : Text) (digits : Nat) : Prop :=
  ∃ numeral : Numeral, numeral.text = lexeme ∧ numeral.digits.length = digits ∧ 4300 < digits ∧
    (significantDigits numeral.digits).length ≤ 10

namespace Numeral

theorem text_injective {numeral numeral' : Numeral} (h : numeral.text = numeral'.text) :
    numeral = numeral' := by
  have hdigits : numeral.digits = numeral'.digits := by
    rw [← unsigned_text, h, unsigned_text]
  obtain ⟨sign, digits, hne, hisDigit⟩ := numeral
  obtain ⟨sign', digits', hne', hisDigit'⟩ := numeral'
  obtain rfl : digits = digits' := hdigits
  have hsign : sign.text = sign'.text := List.append_cancel_right h
  obtain rfl : sign = sign' := by
    cases sign <;> cases sign' <;> first | rfl | cases hsign
  rfl

theorem denotes_text_iff {numeral : Numeral} {value : Int} :
    Denotes numeral.text value ↔ numeral.value = value := by
  constructor
  · intro ⟨numeral', htext, hvalue⟩
    rw [← text_injective htext, hvalue]
  · intro hvalue
    exact ⟨numeral, rfl, hvalue⟩

/-- One digit is left of a zero, where dropping all zeros leaves none. -/
theorem length_significantDigits {digits : Text} (hne : digits ≠ []) :
    (significantDigits digits).length = max 1 (Literal.significant digits).length := by
  fun_induction significantDigits digits with
  | case1 c rest ih => exact ih (List.cons_ne_nil c rest)
  | case2 digits hzero =>
      obtain ⟨c, rest, rfl⟩ := List.exists_cons_of_ne_nil hne
      by_cases hc : c = '0'
      · subst hc
        cases rest with
        | nil => rfl
        | cons d rest => exact absurd rfl (hzero d rest)
      · rw [Literal.significant, List.dropWhile_cons_of_neg (by simpa using hc), List.length_cons]
        omega

theorem exceeds_text_iff {numeral : Numeral} {digits : Nat} :
    Exceeds numeral.text digits ↔ numeral.IsOverlong ∧ numeral.digits.length = digits := by
  have hoverlong : numeral.IsOverlong ↔
      4300 < numeral.digits.length ∧ (significantDigits numeral.digits).length ≤ 10 := by
    rw [← isOverlong_text, Literal.isOverlong, isLiteral_text, unsigned_text,
      length_significantDigits numeral.digits_ne_nil]
    simp only [Bool.true_and, Bool.and_eq_true, decide_eq_true_eq]
    unfold Literal.wordDigits Literal.digitLimit
    omega
  rw [hoverlong]
  constructor
  · rintro ⟨numeral', htext, rfl, hlong, hshort⟩
    obtain rfl := text_injective htext
    exact ⟨⟨hlong, hshort⟩, rfl⟩
  · rintro ⟨⟨hlong, hshort⟩, rfl⟩
    exact ⟨numeral, rfl, rfl, hlong, hshort⟩

end Numeral

theorem isLiteral_iff_denotes {lexeme : Text} :
    Literal.isLiteral lexeme = true ↔ ∃ value, Denotes lexeme value := by
  rw [Numeral.isLiteral_iff]
  constructor
  · intro ⟨numeral, htext⟩
    exact ⟨numeral.value, numeral, htext, rfl⟩
  · intro ⟨_, numeral, htext, _⟩
    exact ⟨numeral, htext⟩

theorem Denotes.unique {lexeme : Text} {value value' : Int} (h : Denotes lexeme value)
    (h' : Denotes lexeme value') : value = value' := by
  obtain ⟨numeral, rfl, rfl⟩ := h
  exact Numeral.denotes_text_iff.mp h'

theorem Exceeds.unique {lexeme : Text} {digits digits' : Nat} (h : Exceeds lexeme digits)
    (h' : Exceeds lexeme digits') : digits = digits' := by
  obtain ⟨numeral, rfl, rfl, -⟩ := h
  exact (Numeral.exceeds_text_iff.mp h').2

/-! ### Reading -/

namespace Literal

variable {lexeme : Text}

/-- Whether a lexeme is an operand of this value: it denotes the value, which is a word,
and it can be read. -/
def IsOperand (lexeme : Text) (value : Int) : Prop :=
  Denotes lexeme value ∧ Word.InRange value ∧ ∀ digits, ¬ Exceeds lexeme digits

/-- What reading a lexeme comes to. -/
inductive Reads (lexeme : Text) : Except Overlong (Option Int) → Prop
  | overlong {digits : Nat} : Exceeds lexeme digits → Reads lexeme (.error (.literal digits))
  | operand {value : Int} : IsOperand lexeme value → Reads lexeme (.ok (some value))
  | nothing : (∀ digits, ¬ Exceeds lexeme digits) → (∀ value, ¬ IsOperand lexeme value) →
      Reads lexeme (.ok none)

theorem Reads.unique {result result' : Except Overlong (Option Int)} (h : Reads lexeme result)
    (h' : Reads lexeme result') : result = result' := by
  cases h with
  | overlong hexceeds =>
      cases h' with
      | overlong hexceeds' => rw [hexceeds.unique hexceeds']
      | operand hoperand => exact absurd hexceeds (hoperand.2.2 _)
      | nothing hnone _ => exact absurd hexceeds (hnone _)
  | operand hoperand =>
      cases h' with
      | overlong hexceeds => exact absurd hexceeds (hoperand.2.2 _)
      | operand hoperand' => rw [hoperand.1.unique hoperand'.1]
      | nothing _ hnone => exact absurd hoperand (hnone _)
  | nothing hexceeds hoperand =>
      cases h' with
      | overlong hexceeds' => exact absurd hexceeds' (hexceeds _)
      | operand hoperand' => exact absurd hoperand' (hoperand _)
      | nothing _ _ => rfl

theorem reads_text (numeral : Numeral) : Reads numeral.text (read numeral.text) := by
  by_cases hoverlong : numeral.IsOverlong
  · have hread : read numeral.text = .error (.literal numeral.digits.length) := by
      rw [read_eq_error_iff, Numeral.isOverlong_text, Numeral.unsigned_text]
      exact ⟨hoverlong, rfl⟩
    rw [hread]
    exact .overlong (Numeral.exceeds_text_iff.mpr ⟨hoverlong, rfl⟩)
  · have hexceeds : ∀ digits, ¬ Exceeds numeral.text digits :=
      fun digits h => hoverlong (Numeral.exceeds_text_iff.mp h).1
    rw [Numeral.read_text_of_not_isOverlong hoverlong]
    by_cases hrange : Word.InRange numeral.value
    · rw [if_pos hrange]
      exact .operand ⟨⟨numeral, rfl, rfl⟩, hrange, hexceeds⟩
    · rw [if_neg hrange]
      refine .nothing hexceeds ?_
      intro value ⟨hdenotes, hvalue, _⟩
      rw [← Numeral.denotes_text_iff.mp hdenotes] at hvalue
      exact hrange hvalue

/-- **Reading is exact**, for numerals and for all other lexemes. -/
theorem read_eq_iff {result : Except Overlong (Option Int)} :
    read lexeme = result ↔ Reads lexeme result := by
  have hreads : Reads lexeme (read lexeme) := by
    by_cases hliteral : isLiteral lexeme = true
    · obtain ⟨numeral, rfl⟩ := Numeral.isLiteral_iff.mp hliteral
      exact reads_text numeral
    · have hnumeral : ∀ numeral : Numeral, numeral.text ≠ lexeme :=
        fun numeral htext => hliteral (Numeral.isLiteral_iff.mpr ⟨numeral, htext⟩)
      have hread : read lexeme = .ok none := by
        rw [read, Bool.eq_false_iff.mpr hliteral]
        rfl
      rw [hread]
      refine .nothing ?_ ?_
      · rintro digits ⟨numeral, htext, -⟩
        exact hnumeral numeral htext
      · rintro value ⟨⟨numeral, htext, -⟩, -⟩
        exact hnumeral numeral htext
  constructor
  · intro h
    subst h
    exact hreads
  · intro h
    exact hreads.unique h

theorem read_eq_error_iff_exceeds {overlong : Overlong} :
    read lexeme = .error overlong ↔
      ∃ digits, overlong = .literal digits ∧ Exceeds lexeme digits := by
  rw [read_eq_iff]
  constructor
  · intro h
    cases h with
    | overlong hexceeds => exact ⟨_, rfl, hexceeds⟩
  · rintro ⟨digits, rfl, hexceeds⟩
    exact .overlong hexceeds

theorem read_eq_some_iff {value : Int} :
    read lexeme = .ok (some value) ↔ IsOperand lexeme value := by
  rw [read_eq_iff]
  constructor
  · intro h
    cases h with
    | operand hoperand => exact hoperand
  · exact .operand

theorem read_eq_none_iff :
    read lexeme = .ok none ↔
      (∀ digits, ¬ Exceeds lexeme digits) ∧ ∀ value, ¬ IsOperand lexeme value := by
  rw [read_eq_iff]
  constructor
  · intro h
    cases h with
    | nothing hexceeds hoperand => exact ⟨hexceeds, hoperand⟩
  · intro ⟨hexceeds, hoperand⟩
    exact .nothing hexceeds hoperand

/-- Of a lexeme that nothing is read of, being a literal is to denote no word. -/
theorem isLiteral_iff_of_read_eq_none (h : read lexeme = .ok none) :
    isLiteral lexeme = true ↔ ∃ value, Denotes lexeme value ∧ ¬ Word.InRange value := by
  obtain ⟨hexceeds, hoperand⟩ := read_eq_none_iff.mp h
  rw [isLiteral_iff_denotes]
  constructor
  · intro ⟨value, hdenotes⟩
    exact ⟨value, hdenotes, fun hrange => hoperand value ⟨hdenotes, hrange, hexceeds⟩⟩
  · intro ⟨value, hdenotes, _⟩
    exact ⟨value, hdenotes⟩

end Literal

/-! ### Refused lexemes -/

theorem read_of_ofLexeme_eq_unknown {lexeme : Text}
    (h : Meaning.ofLexeme lexeme = .ok .unknown) : Literal.read lexeme = .ok none := by
  unfold Meaning.ofLexeme at h
  split at h
  · cases h
  · cases h
  · next hread => exact hread

/-- The message about an integer that is no word. -/
def outOfRangeText (lexeme : Text) : Text :=
  "Integer ".toList ++ Text.abbreviate lexeme ++ " is outside [-2147483648, 2147483647]".toList

/-- The message about a lexeme that is no numeral and no operator. -/
def unknownOperatorText (lexeme : Text) : Text :=
  "Unknown operator ".toList ++ Text.abbreviate lexeme

/-- What is told of a refused lexeme: that it is out of range if it denotes an integer out
of range and not otherwise, and that it is unknown if it denotes no integer and not
otherwise. -/
structure Refuses (diagnostic : Diagnostic) (lexeme : Text) : Prop where
  kind : diagnostic.kind = .unknownOperator
  token : diagnostic.token = some lexeme
  outOfRange : diagnostic.detail = outOfRangeText lexeme ↔
    ∃ value, Denotes lexeme value ∧ ¬ Word.InRange value
  unknownOperator : diagnostic.detail = unknownOperatorText lexeme ↔
    ¬ ∃ value, Denotes lexeme value

theorem outOfRangeText_ne (lexeme : Text) : outOfRangeText lexeme ≠ unknownOperatorText lexeme := by
  intro h
  have hhead : some 'I' = some 'U' := congrArg List.head? h
  exact absurd hhead (by decide)

theorem detail_outOfRange (lexeme : Text) :
    (Fault.outOfRange lexeme).detail = outOfRangeText lexeme := by
  have hrange : " is outside ".toList ++ Fault.rangeText =
      " is outside [-2147483648, 2147483647]".toList := by decide +kernel
  calc (Fault.outOfRange lexeme).detail
      = "Integer ".toList ++ Text.abbreviate lexeme ++ " is outside ".toList ++
          Fault.rangeText := rfl
    _ = "Integer ".toList ++ Text.abbreviate lexeme ++
          (" is outside ".toList ++ Fault.rangeText) := List.append_assoc _ _ _
    _ = outOfRangeText lexeme := congrArg _ hrange

theorem refuses_of_read_eq_none {lexeme : Text} (h : Literal.read lexeme = .ok none) :
    Refuses (Machine.refuse lexeme).diagnostic lexeme := by
  have hrange := Literal.isLiteral_iff_of_read_eq_none h
  refine ⟨Machine.kind_refuse lexeme, Machine.token_refuse lexeme, ?_, ?_⟩
  · rw [← hrange]
    unfold Machine.refuse
    split
    · next hliteral => exact iff_of_true (detail_outOfRange lexeme) hliteral
    · next hliteral => exact iff_of_false (outOfRangeText_ne lexeme).symm hliteral
  · rw [← isLiteral_iff_denotes]
    unfold Machine.refuse
    split
    · next hliteral =>
        refine iff_of_false ?_ (not_not.mpr hliteral)
        rw [Fault.diagnostic, detail_outOfRange]
        exact outOfRangeText_ne lexeme
    · next hliteral => exact iff_of_true rfl hliteral

/-- A failure of an expression that is about a refused lexeme comes of a lexeme of which
nothing is read. -/
theorem refuses_of_evaluate {expression lexeme : Text} {skipEmpty : Bool} {reason : Failure}
    (h : evaluate expression skipEmpty = .ok (.failure reason))
    (hkind : reason.diagnostic.kind = .unknownOperator)
    (hlexeme : reason.diagnostic.token = some lexeme) : Refuses reason.diagnostic lexeme := by
  obtain ⟨tokens, htokens, hcause⟩ := evaluate_failure_inv h
  rcases hcause with ⟨token, hmem, stack, fault, hstep, rfl⟩ | ⟨found, rfl⟩
  · rcases Machine.step_error_inv hstep with
      ⟨hmeaning, rfl⟩ | ⟨op, -, -, rfl⟩ | ⟨op, left, rest, -, -, -, rfl⟩
    · have hlexeme' := ofLexeme_of_mem_tokenize htokens hmem
      rw [hmeaning] at hlexeme'
      obtain rfl : token.lexeme = lexeme :=
        Option.some.inj ((Machine.token_refuse token.lexeme).symm.trans hlexeme)
      exact refuses_of_read_eq_none (read_of_ofLexeme_eq_unknown hlexeme')
    · cases hkind
    · cases hkind
  · cases hkind

/-- **Recognition is exact.** A lexeme is a literal exactly if it is a numeral. Reading it
has no result exactly if it is an overlong numeral, and then the digits are counted; it
gives a word exactly if the lexeme denotes that word and is not overlong, and the lexeme is
an operand of that value then and only then; otherwise it gives nothing. A token that is
refused is a literal exactly if it denotes an integer out of range, and it is refused with
the message that says so, and with the message about unknown operators exactly if it
denotes no integer. -/
theorem recognition (lexeme : Text) :
    (Literal.isLiteral lexeme = true ↔ ∃ numeral : Numeral, numeral.text = lexeme) ∧
    (∀ overlong, Literal.read lexeme = .error overlong ↔
      ∃ digits, overlong = .literal digits ∧ Exceeds lexeme digits) ∧
    (∀ value, Literal.read lexeme = .ok (some value) ↔
      Denotes lexeme value ∧ Word.InRange value ∧ ∀ digits, ¬ Exceeds lexeme digits) ∧
    (Literal.read lexeme = .ok none ↔ (∀ digits, ¬ Exceeds lexeme digits) ∧
      ∀ value, Denotes lexeme value → ¬ Word.InRange value) ∧
    (∀ start value, Token.classify lexeme start = .ok ⟨lexeme, start, .operand value⟩ ↔
      Denotes lexeme value ∧ Word.InRange value ∧ ∀ digits, ¬ Exceeds lexeme digits) ∧
    (∀ start token, Token.classify lexeme start = .ok token → token.meaning = .unknown →
      (Literal.isLiteral lexeme = true ↔ ∃ value, Denotes lexeme value ∧ ¬ Word.InRange value) ∧
      ∀ stack, ∃ fault, Machine.step token stack = .error fault ∧
        Refuses fault.diagnostic lexeme) ∧
    ∀ expression skipEmpty reason, evaluate expression skipEmpty = .ok (.failure reason) →
      reason.diagnostic.kind = .unknownOperator → reason.diagnostic.token = some lexeme →
      Refuses reason.diagnostic lexeme := by
  refine ⟨Numeral.isLiteral_iff, fun overlong => Literal.read_eq_error_iff_exceeds,
    fun value => Literal.read_eq_some_iff, ?_, ?_, ?_,
    fun expression skipEmpty reason => refuses_of_evaluate⟩
  · rw [Literal.read_eq_none_iff]
    refine and_congr_right fun hexceeds => forall_congr' fun value => ?_
    constructor
    · intro hoperand hdenotes hrange
      exact hoperand ⟨hdenotes, hrange, hexceeds⟩
    · intro hrange ⟨hdenotes, hvalue, _⟩
      exact hrange hdenotes hvalue
  · intro start value
    rw [← Literal.IsOperand, ← Literal.read_eq_some_iff, ← ofLexeme_eq_operand_iff,
      classify_eq_ok_iff]
    simp
  · intro start token htoken hunknown
    obtain ⟨meaning, hmeaning, rfl⟩ := classify_eq_ok_iff.mp htoken
    obtain rfl : meaning = .unknown := hunknown
    have hread := read_of_ofLexeme_eq_unknown hmeaning
    refine ⟨Literal.isLiteral_iff_of_read_eq_none hread, ?_⟩
    intro stack
    exact ⟨_, Machine.step_unknown rfl stack, refuses_of_read_eq_none hread⟩

/-- The integer below the least word is no operand, and it is refused with the message
about the range, by the machine on any stack and in an expression. -/
theorem recognition_one_below_least :
    let lexeme : Text := "-2147483649".toList
    let told : Text := "Integer '-2147483649' is outside [-2147483648, 2147483647]".toList
    Literal.read lexeme = .ok none ∧
    (∀ stack, ∃ fault, Machine.step ⟨lexeme, 0, .unknown⟩ stack = .error fault ∧
      fault.detail = told) ∧
    ∃ reason, evaluate (lexeme ++ [' ', '1']) false = .ok (.failure reason) ∧
      reason.diagnostic.detail = told := by
  intro lexeme told
  obtain ⟨-, -, -, hnone, -, hrefused, hfailure⟩ := recognition lexeme
  have hdenotes : Denotes lexeme (-2147483649) :=
    ⟨⟨.minus, "2147483649".toList, by decide, List.all_eq_true.mp (by decide)⟩, by decide,
      by decide⟩
  have hrange : ¬ Word.InRange (-2147483649) := by decide
  have houtside : ∃ value, Denotes lexeme value ∧ ¬ Word.InRange value :=
    ⟨_, hdenotes, hrange⟩
  have htold : outOfRangeText lexeme = told := by decide +kernel
  refine ⟨hnone.mpr ⟨?_, ?_⟩, ?_, ?_⟩
  · intro digits ⟨numeral, htext, hdigits, hlong, _⟩
    have hlength := congrArg List.length htext
    rw [Numeral.text, List.length_append, hdigits] at hlength
    have hshort : lexeme.length = 11 := by decide
    omega
  · intro value hvalue
    rw [← hdenotes.unique hvalue]
    exact hrange
  · intro stack
    obtain ⟨fault, hstep, hrefuses⟩ := (hrefused 0 ⟨lexeme, 0, .unknown⟩ (by decide) rfl).2 stack
    exact ⟨fault, hstep, (hrefuses.outOfRange.mpr houtside).trans htold⟩
  · let reason : Failure :=
      ⟨(Fault.outOfRange lexeme).diagnostic, some ⟨lexeme ++ [' ', '1'], 0⟩⟩
    have hevaluate : evaluate (lexeme ++ [' ', '1']) false = .ok (.failure reason) := by
      decide +kernel
    have hrefuses := hfailure _ _ reason hevaluate rfl rfl
    exact ⟨reason, hevaluate, (hrefuses.outOfRange.mpr houtside).trans htold⟩

end ReversePolish

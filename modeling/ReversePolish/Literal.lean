import ReversePolish.Text.Decimal
import ReversePolish.Word

/-!
# ReversePolish.Literal

**Integer literals**: an optional sign and one or more ASCII digits.

A literal names an integer, but only some literals can be read as an operand:

* a literal with more than ten digits after its leading zeros is out of range,
  and is turned down by that count alone;
* otherwise its number is read, which takes at most `digitLimit` digits,
  leading zeros included: a longer one is `Overlong`;
* a number that is no word is turned down too.

So the only overlong literals are short numbers behind thousands of zeros
(`read_eq_error_iff`). An integer is written under the same limit, and a word
is never too long for it (`natAbs_lt_of_inRange`).
-/

namespace ReversePolish

/-- The report that a number has too many digits. -/
inductive Overlong
  /-- A literal that was to be read, with the count of its digits, leading zeros included. -/
  | literal (digits : Nat)
  /-- An integer that was to be written. -/
  | integer
  deriving Repr, DecidableEq

namespace Literal

/-- The most digits of a number that is read or written. -/
def digitLimit : Nat := 4300

/-- The most digits that a word has. -/
def wordDigits : Nat := 10

/-! ### Reading -/

/-- A literal without its sign. -/
def unsigned : Text → Text
  | '+' :: digits => digits
  | '-' :: digits => digits
  | digits => digits

/-- Whether a lexeme is an integer literal. -/
def isLiteral (lexeme : Text) : Bool :=
  !(unsigned lexeme).isEmpty && (unsigned lexeme).all Char.isDigit

/-- The digits that are left when leading zeros are dropped. -/
def significant (digits : Text) : Text := digits.dropWhile (· == '0')

/-- The digits behind the leading zeros. Of zeros alone the last one is no leading zero. -/
def behindZeros (digits : Text) : Text :=
  if (significant digits).isEmpty then ['0'] else significant digits

/-- The integer that a literal names. -/
def value (literal : Text) : Int :=
  let magnitude : Int := Nat.ofDigitChars 10 (unsigned literal) 0
  if literal.head? = some '-' then -magnitude else magnitude

/-- The integer that a literal names, unless it has too many digits. -/
def number (literal : Text) : Except Overlong Int :=
  if digitLimit < (unsigned literal).length then .error (.literal (unsigned literal).length)
  else .ok (value literal)

/-- The word that a lexeme names, if it is a literal of one. -/
def read (lexeme : Text) : Except Overlong (Option Int) :=
  if !isLiteral lexeme || wordDigits < (behindZeros (unsigned lexeme)).length then .ok none
  else (number lexeme).map fun value => if Word.InRange value then some value else none

/-- Whether a lexeme is a literal that is short enough to be a word and yet has
too many digits to be read. -/
def isOverlong (lexeme : Text) : Bool :=
  isLiteral lexeme && (significant (unsigned lexeme)).length ≤ wordDigits &&
    digitLimit < (unsigned lexeme).length

/-- The zero that is kept of zeros alone does not count towards the length of a word. -/
theorem length_behindZeros_le_iff {digits : Text} :
    (behindZeros digits).length ≤ wordDigits ↔ (significant digits).length ≤ wordDigits := by
  unfold behindZeros
  split
  · next hempty =>
    rw [List.isEmpty_iff.1 hempty]
    exact iff_of_true (by decide) (by decide)
  · exact Iff.rfl

/-- The ways in which reading ends, each by its own condition. -/
theorem read_eq (lexeme : Text) :
    read lexeme =
      if isOverlong lexeme then .error (.literal (unsigned lexeme).length)
      else if isLiteral lexeme && (significant (unsigned lexeme)).length ≤ wordDigits &&
          decide (Word.InRange (value lexeme)) then
        .ok (some (value lexeme))
      else .ok none := by
  have hlength : wordDigits < (behindZeros (unsigned lexeme)).length ↔
      ¬ (significant (unsigned lexeme)).length ≤ wordDigits := by
    rw [← length_behindZeros_le_iff, Nat.not_le]
  unfold read isOverlong number
  simp only [hlength]
  by_cases hliteral : isLiteral lexeme = true
  · by_cases hshort : (significant (unsigned lexeme)).length ≤ wordDigits
    · by_cases hlong : digitLimit < (unsigned lexeme).length
      · simp [hliteral, hshort, hlong, Except.map]
      · by_cases hrange : Word.InRange (value lexeme) <;>
          simp [hliteral, hshort, hlong, hrange, Except.map]
    · simp [hliteral, hshort]
  · simp [hliteral]

/-- Reading fails on overlong literals and on nothing else. -/
theorem read_eq_error_iff {lexeme : Text} {overlong : Overlong} :
    read lexeme = .error overlong ↔
      isOverlong lexeme = true ∧ overlong = .literal (unsigned lexeme).length := by
  by_cases h : isOverlong lexeme = true
  · simp [read_eq, h, eq_comm]
  · rw [read_eq, if_neg h]; split <;> simp [h]

/-- What is read is a word. -/
theorem inRange_of_read {lexeme : Text} {v : Int} (h : read lexeme = .ok (some v)) :
    Word.InRange v := by
  rw [read_eq] at h
  split at h
  · cases h
  · split at h
    · next cond =>
      cases h
      exact of_decide_eq_true (Bool.and_eq_true_iff.1 cond).2
    · cases h

/-! ### Writing -/

/-- The decimal form of an integer, unless it has too many digits. The sign does not
count. -/
def write (value : Int) : Except Overlong Text :=
  if digitLimit < (Text.natural value.natAbs).length then .error .integer
  else .ok (Text.decimal value)

/-- The least number that has more digits than `count`. -/
@[irreducible] def tooLong (count : Nat) : Nat := Nat.pow 10 count

theorem length_natural_le_iff {value count : Nat} (h : 0 < count) :
    (Text.natural value).length ≤ count ↔ value < tooLong count := by
  unfold tooLong
  exact Nat.length_toDigits_le_iff (by decide) h

theorem write_of_lt {value : Int} (h : value.natAbs < tooLong digitLimit) :
    write value = .ok (Text.decimal value) :=
  if_neg (Nat.not_lt.2 ((length_natural_le_iff (by decide)).2 h))

theorem write_of_le {value : Int} (h : tooLong digitLimit ≤ value.natAbs) :
    write value = .error .integer :=
  if_pos (Nat.not_le.1 fun hle => Nat.not_lt.2 h ((length_natural_le_iff (by decide)).1 hle))

/-- A word has ten digits at most. -/
theorem natAbs_lt_of_inRange {value : Int} (h : Word.InRange value) :
    value.natAbs < tooLong digitLimit := by
  have hbound : value.natAbs < tooLong wordDigits := by
    unfold Word.InRange Word.least Word.greatest at h
    have htooLong : tooLong wordDigits = 10000000000 := by unfold tooLong; rfl
    omega
  have hshort : (Text.natural value.natAbs).length ≤ wordDigits :=
    (length_natural_le_iff (by decide)).2 hbound
  exact (length_natural_le_iff (by decide)).1 (Nat.le_trans hshort (by decide))

end Literal

/-- The wording of the report. The digits are told of a literal only. -/
def Overlong.message (overlong : Overlong) : Text :=
  let told := match overlong with
    | literal digits => ": value has ".toList ++ Text.natural digits ++ " digits".toList
    | integer => []
  "Exceeds the limit (".toList ++ Text.natural Literal.digitLimit ++
    " digits) for integer string conversion".toList ++ told ++
    "; use sys.set_int_max_str_digits() to increase the limit".toList

end ReversePolish

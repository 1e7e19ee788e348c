import ReversePolish.Proofs.Range
import ReversePolish.Proofs.Reference

/-!
# ReversePolish.Proofs.WordMachine

A stack machine of **32-bit words**, and the calculator as a refinement of it.

The calculator computes in unbounded integers and wraps each result. A slot of the
word machine is 32 bits and nothing else: sums, differences and products are those of
two's complement, the quotient is rounded toward zero, and the remainder takes the
sign of the dividend. Where every operand is a word, the two have the same outcome,
failures included; `signed` reads a slot as the integer that stands for it.

Design points:

* One step of either machine is one step of the other (`step_signed`), so the runs
  need no invariant but that operands are words.
* The wrap after an operator could be left out nearly everywhere: of the quotients of
  words only one is no word (`Operator.apply_div_ne_exact_iff`), and of the remainders
  none is.
* The word machine writes a dividend without asking for its length. That is no
  difference, because a slot holds ten digits at most.
-/

namespace ReversePolish

namespace WordMachine

/-- What the machine holds in one place of its stack. -/
abbrev Slot := BitVec 32

/-- Slots, the topmost first, as the integers that stand for them. -/
def signed (slots : List Slot) : Stack := slots.map BitVec.toInt

@[simp] theorem signed_nil : signed [] = [] := rfl

@[simp] theorem signed_cons (slot : Slot) (slots : List Slot) :
    signed (slot :: slots) = slot.toInt :: signed slots := rfl

@[simp] theorem length_signed (slots : List Slot) : (signed slots).length = slots.length :=
  List.length_map _

/-- The result of an operator in 32-bit arithmetic, which is missing when the divisor is
zero. -/
def apply (op : Operator) (a b : Slot) : Option Slot :=
  match op with
  | .add => some (a + b)
  | .sub => some (a - b)
  | .mul => some (a * b)
  | .div => if b = 0 then none else some (a.sdiv b)
  | .mod => if b = 0 then none else some (a.srem b)

/-- The effect of one token. -/
def step (token : Token) (slots : List Slot) : Except Fault (List Slot) :=
  match token.meaning, slots with
  | .operand value, slots => .ok (BitVec.ofInt 32 value :: slots)
  | .operator op, right :: left :: rest =>
    match apply op left right with
    | some slot => .ok (slot :: rest)
    | none => .error (.divisionByZero token.lexeme left.toInt)
  | .operator _, short => .error (.insufficientOperands token.lexeme short.length)
  | .unknown, _ => .error (Machine.refuse token.lexeme)

/-- The slots that the tokens leave, unless one of them stops the machine. -/
def run : List Token → List Slot → Except Machine.Stop (List Slot)
  | [], slots => .ok slots
  | token :: rest, slots =>
    match step token slots with
    | .ok next => run rest next
    | .error fault => .error ⟨fault, token.start⟩

/-- The one slot that the tokens of an expression leave. -/
def evaluateTokens (tokens : List Token) (expression : Text) : Except NoValue Slot :=
  match run tokens [] with
  | .ok [slot] => .ok slot
  | .ok slots =>
    .error (.failed ⟨(Fault.malformed slots.length).diagnostic, ⟨expression, expression.length⟩⟩)
  | .error stop => .error (.failed ⟨stop.fault.diagnostic, ⟨expression, stop.position⟩⟩)

/-! ### Arithmetic -/

theorem toInt_inRange (slot : Slot) : Word.InRange slot.toInt := by
  have hlow := slot.le_toInt
  have hhigh := slot.toInt_lt
  unfold Word.InRange Word.least Word.greatest
  omega

theorem toInt_ofInt {value : Int} (h : Word.InRange value) :
    (BitVec.ofInt 32 value).toInt = value := by
  calc (BitVec.ofInt 32 value).toInt
      = value.bmod (2 ^ 32) := BitVec.toInt_ofInt value
    _ = Word.wrap value := (Word.wrap_eq_bmod value).symm
    _ = value := Word.wrap_of_inRange h

theorem toInt_eq_zero_iff {slot : Slot} : slot.toInt = 0 ↔ slot = 0 := by
  rw [← BitVec.toInt_inj]
  rfl

/-- The two machines compute alike. -/
theorem toInt_apply (op : Operator) (a b : Slot) :
    (apply op a b).map BitVec.toInt = op.apply a.toInt b.toInt := by
  cases op with
  | add => exact congrArg some ((BitVec.toInt_add a b).trans (Word.wrap_eq_bmod _).symm)
  | sub => exact congrArg some (BitVec.toInt_sub.trans (Word.wrap_eq_bmod _).symm)
  | mul => exact congrArg some ((BitVec.toInt_mul a b).trans (Word.wrap_eq_bmod _).symm)
  | div =>
      simp only [apply, Operator.apply, Operator.exact, Operator.quotient_eq, toInt_eq_zero_iff]
      split
      · rfl
      · exact congrArg some ((BitVec.toInt_sdiv a b).trans (Word.wrap_eq_bmod _).symm)
  | mod =>
      simp only [apply, Operator.apply, Operator.exact, Operator.remainder_eq, toInt_eq_zero_iff]
      split
      · rfl
      · -- The remainder is a slot, so wrapping it changes nothing.
        rw [Option.map_some, Option.map_some, ← BitVec.toInt_srem,
          Word.wrap_of_inRange (toInt_inRange _)]

/-- The quotient that is no word wraps to its dividend. -/
example : apply .div (BitVec.intMin 32) (-1) = some (BitVec.intMin 32) := by decide

/-! ### Runs -/

theorem step_signed {token : Token}
    (htoken : ∀ value, token.meaning = .operand value → Word.InRange value)
    (slots : List Slot) :
    Machine.step token (signed slots) = (step token slots).map signed := by
  cases hm : token.meaning with
  | operand value =>
      rw [Machine.step_operand hm]
      simp only [step, hm, Except.map, signed_cons, toInt_ofInt (htoken value hm)]
  | operator op =>
      rw [Machine.step_operator hm]
      match slots with
      | [] => simp only [step, hm]; rfl
      | [_] => simp only [step, hm]; rfl
      | right :: left :: rest =>
          have happly := toInt_apply op left right
          cases hslot : apply op left right with
          | some slot =>
              rw [hslot] at happly
              simp only [step, hm, hslot, signed_cons]
              exact Machine.operate_some happly.symm token.lexeme (signed rest)
          | none =>
              rw [hslot] at happly
              obtain ⟨hdivides, hzero⟩ := Operator.apply_eq_none_iff.mp happly.symm
              simp only [step, hm, hslot, signed_cons, hzero]
              exact Machine.operate_zero hdivides token.lexeme left.toInt (signed rest)
  | unknown =>
      rw [Machine.step_unknown hm]
      simp only [step, hm]
      rfl

theorem run_signed {tokens : List Token} (htokens : HasWordOperands tokens)
    (slots : List Slot) :
    Machine.run tokens (signed slots) = (run tokens slots).map signed := by
  induction tokens generalizing slots with
  | nil => rfl
  | cons token rest ih =>
      obtain ⟨htoken, hrest⟩ := List.forall_mem_cons.mp htokens
      have hstep := step_signed htoken slots
      cases hslots : step token slots with
      | ok next =>
          rw [hslots] at hstep
          rw [Machine.run_cons_ok hstep, ih hrest]
          simp only [run, hslots]
      | error fault =>
          rw [hslots] at hstep
          rw [Machine.run_cons_error hstep]
          simp only [run, hslots]
          rfl

theorem evaluateTokens_signed {tokens : List Token} (htokens : HasWordOperands tokens)
    (expression : Text) :
    ReversePolish.evaluateTokens tokens expression =
      (evaluateTokens tokens expression).map BitVec.toInt := by
  have hrun := run_signed htokens []
  unfold evaluateTokens
  cases hslots : run tokens [] with
  | error stop =>
      rw [hslots] at hrun
      rw [evaluateTokens_of_run_error hrun,
        Machine.Stop.noValue_of_isTellable (Machine.isTellable_of_run_error htokens hrun)]
      rfl
  | ok slots =>
      rw [hslots] at hrun
      match slots with
      | [] => exact evaluateTokens_of_run_ok hrun (by simp) expression
      | [slot] => exact evaluateTokens_eq_ok_iff.mpr hrun
      | _ :: _ :: _ =>
          rw [evaluateTokens_of_run_ok hrun (by simp) expression, length_signed]
          rfl

end WordMachine

/-! ### Results that are words without wrapping -/

/-- A quotient is no larger than its dividend, so only the least word can leave the range, and only
by a change of sign. -/
theorem inRange_tdiv {a b : Int} (ha : Word.InRange a) (h : ¬ (a = Word.least ∧ b = -1)) :
    Word.InRange (a.tdiv b) := by
  have habs : (a.tdiv b).natAbs = a.natAbs / b.natAbs := Int.natAbs_tdiv a b
  unfold Word.InRange Word.least Word.greatest at *
  rcases Nat.lt_or_ge b.natAbs 2 with hsmall | hlarge
  · have hcases : b = 0 ∨ b = 1 ∨ b = -1 := by omega
    rcases hcases with rfl | rfl | rfl
    · rw [Int.tdiv_zero]
      omega
    · rw [Int.tdiv_one]
      omega
    · rw [Int.tdiv_neg, Int.tdiv_one]
      omega
  · have hhalf : a.natAbs / b.natAbs ≤ a.natAbs / 2 := Nat.div_le_div_left hlarge (by decide)
    omega

namespace Operator

theorem apply_div_ne_exact_iff {a b : Int} (ha : Word.InRange a) :
    div.apply a b ≠ div.exact a b ↔ a = Word.least ∧ b = -1 := by
  constructor
  · intro hne
    by_contra hother
    apply hne
    simp only [apply, exact, quotient_eq]
    split
    · rfl
    · rw [Option.map_some, Word.wrap_of_inRange (inRange_tdiv ha hother)]
  · rintro ⟨rfl, rfl⟩
    decide

theorem apply_mod_eq_exact {a b : Int} (hb : Word.InRange b) : mod.apply a b = mod.exact a b := by
  simp only [apply, exact, remainder_eq]
  split
  · rfl
  · next hzero => rw [Option.map_some, Word.wrap_of_inRange (Reference.inRange_tmod hb hzero)]

end Operator

/-! ### Refinement -/

/-- **The calculator is a 32-bit machine.** Where all operands are words, as in every
expression, the tokens have the outcome that they have on the word machine, be it a value
or a failure with its diagnostic and its place, and every stack on the way holds words.
Between words, wrapping changes a single quotient and no remainder. -/
theorem evaluateTokens_eq_wordMachine :
    (∀ expression skipEmpty tokens,
      tokenize expression skipEmpty = .ok tokens → HasWordOperands tokens) ∧
    (∀ tokens, HasWordOperands tokens →
      (∀ expression, evaluateTokens tokens expression =
        (WordMachine.evaluateTokens tokens expression).map BitVec.toInt) ∧
      ∀ consumed stack, consumed <+: tokens → Machine.run consumed [] = .ok stack →
        ∀ value ∈ stack, Word.InRange value) ∧
    ∀ a b, Word.InRange a → Word.InRange b →
      (Operator.div.apply a b ≠ Operator.div.exact a b ↔ a = Word.least ∧ b = -1) ∧
      Operator.mod.apply a b = Operator.mod.exact a b := by
  refine ⟨fun _ _ _ => hasWordOperands_of_tokenize, ?_, ?_⟩
  · intro tokens htokens
    refine ⟨WordMachine.evaluateTokens_signed htokens, ?_⟩
    intro consumed stack hconsumed hrun
    have hwords : HasWordOperands consumed := fun token hmem =>
      htokens token (hconsumed.subset hmem)
    exact Machine.holdsWords_of_run hwords (fun _ hmem => absurd hmem List.not_mem_nil) hrun
  · intro a b ha hb
    exact ⟨Operator.apply_div_ne_exact_iff ha, Operator.apply_mod_eq_exact hb⟩

/-- The least word over minus one: the operands are words, the machine of words gives
the least word again, and there the wrap was needed. -/
theorem evaluateTokens_least_over_minus_one :
    ∃ tokens, tokenize "-2147483648 -1 /".toList false = .ok tokens ∧
      evaluateTokens tokens "-2147483648 -1 /".toList = .ok (-2147483648) ∧
      (∀ value ∈ [-1, Word.least], Word.InRange value) ∧
      Operator.div.apply Word.least (-1) ≠ Operator.div.exact Word.least (-1) := by
  obtain ⟨hoperands, hmachine, hwrap⟩ := evaluateTokens_eq_wordMachine
  refine ⟨[⟨"-2147483648".toList, 0, .operand (-2147483648)⟩, ⟨"-1".toList, 12, .operand (-1)⟩,
    ⟨"/".toList, 15, .operator .div⟩], ?_⟩
  have htokens : tokenize "-2147483648 -1 /".toList false =
    .ok [⟨"-2147483648".toList, 0, .operand (-2147483648)⟩, ⟨"-1".toList, 12, .operand (-1)⟩,
    ⟨"/".toList, 15, .operator .div⟩] := by decide
  obtain ⟨houtcome, hrange⟩ := hmachine _ (hoperands _ _ _ htokens)
  refine ⟨htokens, ?_, ?_, ?_⟩
  · rw [houtcome]
    decide
  · exact hrange [⟨"-2147483648".toList, 0, .operand (-2147483648)⟩,
      ⟨"-1".toList, 12, .operand (-1)⟩] _ (by decide) (by decide)
  · exact (hwrap Word.least (-1) (by decide) (by decide)).1.mpr ⟨rfl, rfl⟩

end ReversePolish

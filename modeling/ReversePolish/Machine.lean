import ReversePolish.EvaluationError
import ReversePolish.Token

/-!
# ReversePolish.Machine

The **stack machine** that evaluates tokens.

An operand pushes its value, as it is. An operator takes the two topmost values
and pushes its result, a word; the value below is the left operand. The first
token that cannot act stops the machine, and when all have acted exactly one
value must be left.

Design points:

* A stack is a list with its top first, so what lies beneath the values that a
  token uses is a tail that the step passes on unchanged.
* `run` starts from any stack and leaves one, so that runs compose
  (`run_append`); `evaluateTokens` starts from the empty stack and asks for one
  value.
* A divisor is looked at before anything is computed. Behind that, an operator has
  a result (`Operator.isSome_apply`), and `operate` takes it.
-/

namespace ReversePolish

/-- The values that wait for an operator, the topmost first. -/
abbrev Stack := List Int

namespace Machine

/-- A fault and the position at which the machine stopped. -/
structure Stop where
  fault : Fault
  position : Int
  deriving Repr, DecidableEq

/-- The effect of an operator with a given lexeme. -/
def operate (lexeme : Text) (op : Operator) : Stack → Except Fault Stack
  | right :: left :: rest =>
    if h : op.divides = true ∧ right = 0 then .error (.divisionByZero lexeme left)
    else .ok (op.result left right h :: rest)
  | short => .error (.insufficientOperands lexeme short.length)

/-- The fault of a lexeme that is no operand and no operator. -/
def refuse (lexeme : Text) : Fault :=
  if Literal.isLiteral lexeme then .outOfRange lexeme else .unknownOperator lexeme

/-- The effect of one token. -/
def step (token : Token) (stack : Stack) : Except Fault Stack :=
  match token.meaning with
  | .operand value => .ok (value :: stack)
  | .operator op => operate token.lexeme op stack
  | .unknown => .error (refuse token.lexeme)

/-- The stack that the tokens leave, unless one of them stops the machine. -/
def run : List Token → Stack → Except Stop Stack
  | [], stack => .ok stack
  | token :: rest, stack =>
    match step token stack with
    | .ok next => run rest next
    | .error fault => .error ⟨fault, token.start⟩

@[simp] theorem run_nil (stack : Stack) : run [] stack = .ok stack := rfl

theorem run_cons_ok {token : Token} {stack next : Stack} (h : step token stack = .ok next)
    (rest : List Token) : run (token :: rest) stack = run rest next := by
  simp [run, h]

theorem run_cons_error {token : Token} {stack : Stack} {fault : Fault}
    (h : step token stack = .error fault) (rest : List Token) :
    run (token :: rest) stack = .error ⟨fault, token.start⟩ := by
  simp [run, h]

/-- Tokens in a row act one list after the other. -/
theorem run_append (first second : List Token) (stack : Stack) :
    run (first ++ second) stack = (run first stack).bind (run second) := by
  induction first generalizing stack with
  | nil => rfl
  | cons token rest ih =>
    cases h : step token stack with
    | ok next => simp [run_cons_ok h, ih]
    | error fault => simp [run_cons_error h, Except.bind]

/-- The one value that the tokens leave on an empty stack. Any other number of
values is a fault at the end of an expression of the given length. -/
def result (tokens : List Token) (length : Nat) : Except Stop Int :=
  match run tokens [] with
  | .ok [value] => .ok value
  | .ok stack => .error ⟨.malformed stack.length, length⟩
  | .error stop => .error stop

end Machine

/-- Why tokens have no value. -/
inductive NoValue
  /-- The evaluation failed. -/
  | failed (error : EvaluationError)
  /-- It failed, and a number in the message has too many digits. -/
  | untold (overlong : Overlong)
  deriving Repr, DecidableEq

/-- What comes of a machine that stopped in an expression. -/
def Machine.Stop.noValue (expression : Text) (stop : Stop) : NoValue :=
  match stop.fault.tell with
  | .ok diagnostic => .failed ⟨diagnostic, ⟨expression, stop.position⟩⟩
  | .error overlong => .untold overlong

/-- The value of the tokens of an expression. -/
def evaluateTokens (tokens : List Token) (expression : Text) : Except NoValue Int :=
  (Machine.result tokens expression.length).mapError (Machine.Stop.noValue expression)

end ReversePolish

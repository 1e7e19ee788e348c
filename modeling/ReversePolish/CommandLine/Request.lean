import ReversePolish.Source.Path

/-!
# ReversePolish.CommandLine.Request

What a **command line** asks for.

A command line is a list of arguments: options of the calculator, the name of a
command, and the arguments of that command, which are words and options of its
own. An argument that starts with a dash and goes on is an option; a dash alone
is a word.

Design points:

* Who reads the arguments is open. `ReadsArguments` is what the commands rely
  on: words that no option is mixed with reach their command as they stand, and
  so do all words behind `--`.
* Nothing is asked of a reader where a command line is wrong or wants help.
-/

namespace ReversePolish

/-- The options of the calculator. -/
structure Settings where
  /-- Drop empty lexemes instead of refusing them. -/
  skipEmpty : Bool
  /-- Show the whole log. -/
  verbose : Bool
  deriving Repr, DecidableEq

/-- What to do. -/
inductive Command
  /-- Evaluate these expressions. -/
  | eval (expressions : List Text)
  /-- Evaluate the lines of a file. -/
  | file (path : Text)
  /-- Evaluate the demonstration expressions. -/
  | demo
  deriving Repr, DecidableEq

/-- What a command line asks for. -/
inductive Request
  /-- The usage page, with an exit code. -/
  | help (exitCode : Nat)
  /-- Nothing that can be done. -/
  | misuse
  /-- A command. -/
  | perform (settings : Settings) (command : Command)
  deriving Repr, DecidableEq

/-- The command that its name and its words make up: `eval` takes one expression or
more, `file` a path that has no NUL in it, and `demo` nothing. -/
def Command.ofWords? (name : Text) (words : List Text) : Option Command :=
  if name = "eval".toList then if words.isEmpty then none else some (eval words)
  else if name = "file".toList then
    match words with
    | [path] => if Path.hasNul path then none else some (file path)
    | _ => none
  else if name = "demo".toList then if words.isEmpty then some demo else none
  else none

/-! ### Arguments -/

/-- The argument that ends the options. -/
def optionsEnd : Text := "--".toList

/-- Whether an argument is an option. -/
def isOption (argument : Text) : Bool := argument.head? == some '-' && 1 < argument.length

/-- The option to drop empty lexemes, or no option. -/
def skipOptions (skipEmpty : Bool) : List Text := if skipEmpty then ["--skip-empty".toList] else []

/-- Whether arguments write words. A word that is an option stands behind the end of the
options, and so may any other. -/
inductive Writes : List Text → List Text → Prop
  | plain {words : List Text} : (∀ word ∈ words, isOption word = false) → Writes words words
  | ended {before behind : List Text} : (∀ word ∈ before, isOption word = false) →
      Writes (before ++ behind) (before ++ optionsEnd :: behind)

/-- Whether a reader of arguments finds the command whose words they write. -/
def ReadsArguments (read : List Text → Request) : Prop :=
  ∀ ⦃name : Text⦄ ⦃words arguments : List Text⦄ ⦃command : Command⦄,
    Writes words arguments → Command.ofWords? name words = some command →
    ∀ skipEmpty, read (skipOptions skipEmpty ++ name :: arguments) =
      .perform ⟨skipEmpty, false⟩ command

end ReversePolish

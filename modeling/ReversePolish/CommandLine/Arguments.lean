import ReversePolish.CommandLine.Request

/-!
# ReversePolish.CommandLine.Arguments

The calculator's own reader of **arguments**.

Design points:

* The calculator's options end at the first word or at `--`. A command's
  options and words may be mixed; `--` ends its options, and the words after it
  are taken as they stand.
* `eval` knows no option but `--help` and takes any other one for an
  expression, so that an expression may start with a minus sign.
* A line with a wrong option is misused, even if it also asks for help. A line
  whose words are wrong is not, once it asks for help: too few, too many, or a
  path that nothing can have.
-/

namespace ReversePolish

/-- The option that asks for the usage page. -/
def helpOption : Text := "--help".toList

/-! ### Options -/

/-- The calculator's options on a command line, and what follows them. -/
structure Opening where
  settings : Settings
  wantsHelp : Bool
  rest : List Text
  deriving Repr, DecidableEq

namespace Opening

/-- No option yet. -/
def plain : Opening := ⟨⟨false, false⟩, false, []⟩

/-- One more option, if there is such a one. Short options may be run
together. -/
def withOption (opening : Opening) (option : Text) : Option Opening :=
  if option = "--skip-empty".toList then
    some { opening with settings.skipEmpty := true }
  else if option = "--verbose".toList then
    some { opening with settings.verbose := true }
  else if option = helpOption then some { opening with wantsHelp := true }
  else if (option.drop 1).all (· == 'v') then
    some { opening with settings.verbose := true }
  else none

/-- The options at the start of the arguments, added to those known. -/
def extend (opening : Opening) : List Text → Option Opening
  | [] => some opening
  | argument :: rest =>
    if argument = optionsEnd then some { opening with rest := rest }
    else if isOption argument then
      match opening.withOption argument with
      | some longer => longer.extend rest
      | none => none
    else some { opening with rest := argument :: rest }

/-- The options at the start of the arguments. -/
def read (arguments : List Text) : Option Opening := plain.extend arguments

end Opening

/-! ### Commands -/

/-- The words of a command. -/
structure CommandWords where
  words : List Text
  wantsHelp : Bool
  deriving Repr, DecidableEq

namespace CommandWords

/-- One more word in front. -/
def cons (word : Text) (others : CommandWords) : CommandWords :=
  { others with words := word :: others.words }

/-- The words among the arguments of a command, which either takes an unknown
option for a word or has none. -/
def read (takesOptions : Bool) : List Text → Option CommandWords
  | [] => some ⟨[], false⟩
  | argument :: rest =>
    if argument = optionsEnd then some ⟨rest, false⟩
    else if argument = helpOption then
      (read takesOptions rest).map fun others => { others with wantsHelp := true }
    else if isOption argument && (!takesOptions || (helpOption ++ ['=']).isPrefixOf argument) then
      none
    else (read takesOptions rest).map (cons argument)

end CommandWords

/-- Whether a command of this name exists. -/
def Command.isName (name : Text) : Bool :=
  name = "eval".toList || name = "file".toList || name = "demo".toList

namespace Request

/-- The request for a command with its arguments. -/
def ofCommand (settings : Settings) (name : Text) (arguments : List Text) : Request :=
  match CommandWords.read (name = "eval".toList) arguments with
  | none => misuse
  | some read =>
    if read.wantsHelp then help 0
    else
      match Command.ofWords? name read.words with
      | some command => perform settings command
      | none => misuse

/-- The request for something that is no command: it may still turn out to be
a request for help behind a `--`. -/
def ofUnknown (arguments : List Text) : Request :=
  match Opening.read arguments with
  | some opening => if opening.wantsHelp then help 0 else misuse
  | none => misuse

/-- What a command line asks for. An empty one is shown the usage page. -/
def ofArguments (arguments : List Text) : Request :=
  if arguments.isEmpty then help 2
  else
    match Opening.read arguments with
    | none => misuse
    | some opening =>
      if opening.wantsHelp then help 0
      else
        match opening.rest with
        | [] => misuse
        | name :: rest =>
          if Command.isName name then ofCommand opening.settings name rest
          else ofUnknown (name :: rest)

end Request

end ReversePolish

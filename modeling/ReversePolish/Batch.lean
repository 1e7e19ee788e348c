import ReversePolish.Evaluation
import ReversePolish.Source.Feed

/-!
# ReversePolish.Batch

**Batches**: all expressions of a source, one a line.

A batch gives the outcome of every line or nothing: it is given up when its
source cannot be read to the end or when a line holds an overlong literal. What
was noted until then stays in the log.
-/

namespace ReversePolish

/-- An expression of a batch with its outcome. -/
structure BatchEntry where
  expression : Text
  outcome : Outcome
  deriving Repr, DecidableEq

/-- The line that reports an entry. -/
def BatchEntry.report (entry : BatchEntry) : Text := entry.outcome.report entry.expression

/-- What breaks off a run instead of being reported by it. -/
inductive Crash
  /-- An overlong literal. -/
  | overlong (literal : Overlong)
  /-- A source that failed on its own account. -/
  | sourceBroken (message : Text)
  /-- A path that no file can have, because of a NUL in it. -/
  | nulInPath
  deriving Repr, DecidableEq

/-- The wording of the reason. -/
def Crash.message : Crash → Text
  | overlong literal => literal.message
  | sourceBroken message => message
  | nulInPath => "embedded null byte".toList

/-- Why a batch was given up. -/
inductive BatchError
  /-- The source cannot be read. -/
  | unreadable (source : Text) (fault : ReadFault)
  /-- The run was broken off. -/
  | crashed (crash : Crash)
  deriving Repr, DecidableEq

/-- The wording of the reason. Only an unreadable source is named in it. -/
def BatchError.message : BatchError → Text
  | unreadable source fault =>
    "[Source error] ".toList ++ source ++ ": ".toList ++ fault.message
  | crashed crash => crash.message

/-! ### Lines -/

/-- The outcomes of lines, up to the first overlong literal. -/
def evaluateAll (skipEmpty : Bool) : List Text → Logged (Except Overlong (List BatchEntry))
  | [] => ⟨.ok [], []⟩
  | line :: rest =>
    let expression := stripLineEnd line
    let first := evaluateLogged expression skipEmpty
    match first.result with
    | .error overlong => ⟨.error overlong, first.log⟩
    | .ok outcome =>
      let others := evaluateAll skipEmpty rest
      ⟨others.result.map (⟨expression, outcome⟩ :: ·), first.log ++ others.log⟩

/-! ### Sources -/

/-- The outcomes of all lines that a feed gives out, if it ends well. -/
def evaluateFeed (source : Text) (feed : Feed) (skipEmpty : Bool) :
    Logged (Except BatchError (List BatchEntry)) :=
  let lines := evaluateAll skipEmpty feed.lines
  match lines.result with
  | .error overlong => ⟨.error (.crashed (.overlong overlong)), lines.log⟩
  | .ok entries =>
    match feed.ending with
    | .finished => ⟨.ok entries, lines.log ++ [.batchEvaluated entries.length source]⟩
    | .unreadable fault =>
      ⟨.error (.unreadable source fault), lines.log ++ [.sourceUnreadable source fault.message]⟩
    | .broken message => ⟨.error (.crashed (.sourceBroken message)), lines.log⟩

/-- Where expressions come from. -/
inductive Source
  /-- A file. -/
  | path (file : Text)
  /-- Bytes that are at hand. -/
  | stream (encoding : Encoding) (convention : LineConvention) (bytes : List UInt8)
  /-- Lines that are made elsewhere, with a name. -/
  | lines (name : Text) (feed : Feed)
  deriving Repr, DecidableEq

/-- The name of a source in messages. -/
def Source.name : Source → Text
  | path file => file
  | stream encoding _ _ =>
    "<_io.TextIOWrapper encoding=".toList ++ Text.quote encoding.name ++ ['>']
  | lines name _ => name

/-- The feed of a source, where `open?` opens files. -/
def Source.feed (open? : Text → Except OpenFault (List UInt8)) : Source → Feed
  | path file => Feed.ofFile file (open? file)
  | stream encoding convention bytes => Feed.ofBytes encoding convention bytes
  | lines _ feed => feed

/-- Whether a source is a path with a NUL in it, which is never opened. -/
def Source.hasNulInPath : Source → Bool
  | path file => Path.hasNul file
  | _ => false

/-- The outcomes of all lines of a source. -/
def evaluateSource (open? : Text → Except OpenFault (List UInt8)) (source : Source)
    (skipEmpty : Bool) : Logged (Except BatchError (List BatchEntry)) :=
  if source.hasNulInPath then ⟨.error (.crashed .nulInPath), []⟩
  else evaluateFeed source.name (source.feed open?) skipEmpty

end ReversePolish

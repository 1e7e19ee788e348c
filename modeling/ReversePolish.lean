import ReversePolish.CrashCheck
import ReversePolish.Main
import ReversePolish.Session
import ReversePolish.Tour
import ReversePolish.Proofs.Postorder
import ReversePolish.Proofs.Offence
import ReversePolish.Proofs.Lexeme
import ReversePolish.Proofs.Numeral
import ReversePolish.Proofs.Tokenize
import ReversePolish.Proofs.Reference
import ReversePolish.Proofs.Written
import ReversePolish.Proofs.Overlong
import ReversePolish.Proofs.Range
import ReversePolish.Proofs.WordMachine
import ReversePolish.Proofs.Congruence
import ReversePolish.Proofs.Judgement
import ReversePolish.Proofs.Replacement
import ReversePolish.Proofs.Ending
import ReversePolish.Proofs.Position
import ReversePolish.Proofs.Spread
import ReversePolish.Proofs.Batch
import ReversePolish.Proofs.Decoding
import ReversePolish.Proofs.Reading
import ReversePolish.Proofs.Decomposition
import ReversePolish.Proofs.Recognition
import ReversePolish.Proofs.Marking
import ReversePolish.Proofs.Commands
import ReversePolish.Proofs.EmptyLexeme
import ReversePolish.Proofs.Finality
import ReversePolish.Proofs.Padding
import ReversePolish.Proofs.Quotation
import ReversePolish.Proofs.Message
import ReversePolish.Proofs.Division
import ReversePolish.Proofs.Spelling
import ReversePolish.Proofs.Report
import ReversePolish.Proofs.Opening

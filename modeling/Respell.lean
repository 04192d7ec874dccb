import Respell.Unicode.Property
import Respell.Text.Position
import Respell.Text.Quoted
import Respell.Data.SortedMap
import Respell.Text.Matcher
import Respell.Identifier
import Respell.Dictionary
import Respell.Token
import Respell.Token.Literal
import Respell.Token.Numeral
import Respell.Token.Punctuator
import Respell.Token.Word
import Respell.Token.Trivia
import Respell.Token.Lexer
import Respell.Settings
import Respell.Json.Record
import Respell.Dictionary.Folder
import Respell.Files.Tree
import Respell.CommandLine.Run
import Respell.Service
import Respell.Main
import Respell.Proofs.Text.Bytes
import Respell.Proofs.Token.Reading
import Respell.Proofs.Vocabulary
import Respell.Proofs.Identifier
import Respell.Proofs.Respelling.Splice
import Respell.Proofs.Text.Matcher
import Respell.Proofs.Token.Word
import Respell.Proofs.Token.Form
import Respell.Proofs.Token.Gap
import Respell.Proofs.Token.Tiling
import Respell.Proofs.Text.Greedy
import Respell.Proofs.Token.Alike
import Respell.Proofs.Token.Numeral
import Respell.Proofs.Token.Again
import Respell.Proofs.Respelling.Simulation
import Respell.Proofs.Respelling.Structure
import Respell.Proofs.Respelling.RoundTrip
import Respell.Proofs.Respelling.Outcome
import Respell.Proofs.Token.Replay
import Respell.Proofs.Text.Offset
import Respell.Proofs.Token.Checked
import Respell.Proofs.Token.Checked.Literal
import Respell.Proofs.Token.Checked.Trivia
import Respell.Proofs.Token.Checked.Word
import Respell.Proofs.Token.Checked.Lexeme
import Respell.Proofs.Token.Fault
import Respell.Proofs.Token.Grammar
import Respell.Proofs.Token.Diagnosis
import Respell.Proofs.Token.Checked.State
import Respell.Proofs.Token.Safety
import Respell.Proofs.Token.Separated
import Respell.Proofs.Token.Rendering
import Respell.Proofs.Token.Cut
import Respell.Proofs.Data.Pairing
import Respell.Proofs.Token.Literal
import Respell.Proofs.Token.Keyword
import Respell.Proofs.Token.Nesting
import Respell.Proofs.Token.Slash
import Respell.Proofs.Token.Block
import Respell.Proofs.Token.Closing
import Respell.Proofs.Token.Enclosure
import Respell.Proofs.Token.Substitution
import Respell.Proofs.Dictionary.Registry
import Respell.Proofs.Service
import Respell.Proofs.Files.Tree
import Respell.Proofs.Files.Reading
import Respell.Proofs.CommandLine.Run
import Respell.Proofs.Respelling.Resumption
import Respell.Proofs.Token.Names
import Respell.Proofs.Dictionary.Counterpart
import Respell.Proofs.Dictionary.Folder
import Respell.Proofs.Text.Pattern
import Respell.Proofs.Token.Longest

import Scriptlet.Main
import Scriptlet.Syntax.Outline
import Scriptlet.Proofs.Names.Agreement
import Scriptlet.Proofs.Names.Lexical
import Scriptlet.Proofs.Soundness
import Scriptlet.Proofs.Scanning.Layout
import Scriptlet.Proofs.Scanning
import Scriptlet.Proofs.Grammar.Symbols
import Scriptlet.Proofs.Grammar.Rules
import Scriptlet.Proofs.Grammar.Spelled
import Scriptlet.Proofs.Grammar.Written
import Scriptlet.Proofs.Parsing.Finds
import Scriptlet.Proofs.Parsing.Sound
import Scriptlet.Proofs.Parsing.Complete
import Scriptlet.Proofs.Grammar.Readable
import Scriptlet.Proofs.Grammar.Writable
import Scriptlet.Proofs.Parsing
import Scriptlet.Proofs.Grammar.Extent
import Scriptlet.Proofs.Tree.Shift
import Scriptlet.Proofs.Grammar.Excerpt
import Scriptlet.Proofs.Scanning.Cut
import Scriptlet.Proofs.Parsing.Alone
import Scriptlet.Proofs.Lines.Read
import Scriptlet.Proofs.Typing.Relabeled
import Scriptlet.Proofs.Running.Moved
import Scriptlet.Proofs.Lines.Session
import Scriptlet.Proofs.Lines
import Scriptlet.Proofs.Typing.Decided
import Scriptlet.Proofs.Errors
import Scriptlet.Proofs.Rejected
import Scriptlet.Proofs.Lines.Counter
import Scriptlet.Proofs.Running.Moments
import Scriptlet.Proofs.Scanning.Lines
import Scriptlet.Proofs.Doubles.Rounding
import Scriptlet.Proofs.Literals
import Scriptlet.Proofs.Data.Reader
import Scriptlet.Proofs.Data.Texts
import Scriptlet.Proofs.Data.Numbers
import Scriptlet.Proofs.Data.Written
import Scriptlet.Proofs.Data.Tree
import Scriptlet.Proofs.Data
import Scriptlet.Proofs.Effects
import Scriptlet.Proofs.Grounded
import Scriptlet.Proofs.Dump
import Scriptlet.Proofs.Typing.Stacks
import Scriptlet.Proofs.Typing.Repeated
import Scriptlet.Proofs.Scopes.Forest
import Scriptlet.Proofs.Grammar.Phrases
import Scriptlet.Proofs.Grammar.Contained
import Scriptlet.Proofs.Spans
import Scriptlet.Proofs.Scanning.Faults
import Scriptlet.Proofs.Scanning.Spaced
import Scriptlet.Proofs.Typing.Text
import Scriptlet.Proofs.Typing.Legible
import Scriptlet.Proofs.Parsing.Lasting
import Scriptlet.Proofs.Lookahead
import Scriptlet.Proofs.Arithmetic
import Scriptlet.Proofs.Comparison
import Scriptlet.Proofs.Parsing.Numbered
import Scriptlet.Proofs.Numbering
import Scriptlet.Proofs.Parsing.Begun
import Scriptlet.Proofs.Depth
import Scriptlet.Proofs.Restating
import Scriptlet.Proofs.Bounds

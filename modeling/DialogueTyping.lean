import DialogueTyping.CommandLine.Basic
import DialogueTyping.CommandLine.Folder
import DialogueTyping.Declaration.Basic
import DialogueTyping.Declaration.Reading
import DialogueTyping.Declaration.Table
import DialogueTyping.Diagnostic.Basic
import DialogueTyping.Diagnostic.Render
import DialogueTyping.Expr.Basic
import DialogueTyping.Grammar.Basic
import DialogueTyping.Grammar.Production
import DialogueTyping.Grammar.Reading
import DialogueTyping.Main
import DialogueTyping.Number.Binary64
import DialogueTyping.Number.Numeral
import DialogueTyping.Operator
import DialogueTyping.Proofs.CommandLine.Agreement
import DialogueTyping.Proofs.CommandLine.Skipping
import DialogueTyping.Proofs.Declaration.Printing
import DialogueTyping.Proofs.Declaration.Termination
import DialogueTyping.Proofs.Diagnostic.Places
import DialogueTyping.Proofs.Diagnostic.Underline
import DialogueTyping.Proofs.Expr.Subexpression
import DialogueTyping.Proofs.Expr.Unplaced
import DialogueTyping.Proofs.Expr.Wrapper
import DialogueTyping.Proofs.Grammar.Completeness
import DialogueTyping.Proofs.Grammar.FirstBadToken
import DialogueTyping.Proofs.Grammar.Lookahead
import DialogueTyping.Proofs.Grammar.Numbering
import DialogueTyping.Proofs.Grammar.Productions
import DialogueTyping.Proofs.Grammar.Rules
import DialogueTyping.Proofs.Grammar.Soundness
import DialogueTyping.Proofs.Grammar.Spans
import DialogueTyping.Proofs.Grammar.Spelling
import DialogueTyping.Proofs.Grammar.Steps
import DialogueTyping.Proofs.Grammar.Termination
import DialogueTyping.Proofs.Grammar.Twins
import DialogueTyping.Proofs.Number.Rounding
import DialogueTyping.Proofs.Table.Agreement
import DialogueTyping.Proofs.Table.Evolution
import DialogueTyping.Proofs.Table.Lookup
import DialogueTyping.Proofs.Table.Settling
import DialogueTyping.Proofs.Text.LineLookup
import DialogueTyping.Proofs.Token.Forms
import DialogueTyping.Proofs.Token.Layout
import DialogueTyping.Proofs.Token.Lexed
import DialogueTyping.Proofs.Token.Literal
import DialogueTyping.Proofs.Token.MaximalMunch
import DialogueTyping.Proofs.Token.Program
import DialogueTyping.Proofs.Token.Refused
import DialogueTyping.Proofs.Token.Slice
import DialogueTyping.Proofs.Token.Tiling
import DialogueTyping.Proofs.Typing.Appearance
import DialogueTyping.Proofs.Typing.Blame
import DialogueTyping.Proofs.Typing.Commuting
import DialogueTyping.Proofs.Typing.Constant
import DialogueTyping.Proofs.Typing.Exactness
import DialogueTyping.Proofs.Typing.Filling
import DialogueTyping.Proofs.Typing.HasType
import DialogueTyping.Proofs.Typing.Outcome
import DialogueTyping.Proofs.Typing.Session
import DialogueTyping.Proofs.Typing.Soundness
import DialogueTyping.Proofs.Typing.Stability
import DialogueTyping.Proofs.Typing.TextProblems
import DialogueTyping.Proofs.Typing.Visit
import DialogueTyping.Proofs.Typing.Wrapping
import DialogueTyping.Script
import DialogueTyping.Source.Reader
import DialogueTyping.Span
import DialogueTyping.Text.Blank
import DialogueTyping.Text.Bytes
import DialogueTyping.Text.DefaultIgnorable
import DialogueTyping.Text.ExtendingMark
import DialogueTyping.Text.Lines
import DialogueTyping.Text.Quoted
import DialogueTyping.Text.Unprintable
import DialogueTyping.Token.Basic
import DialogueTyping.Token.Cursor
import DialogueTyping.Token.Escape
import DialogueTyping.Token.Rule
import DialogueTyping.Token.Scan
import DialogueTyping.Ty
import DialogueTyping.Typing.Check

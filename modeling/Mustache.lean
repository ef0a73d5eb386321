import Mustache.Canonical
import Mustache.Delimiters
import Mustache.Diagnostic
import Mustache.Failure
import Mustache.Json.Reader
import Mustache.Json.Symbol
import Mustache.Json.Token
import Mustache.Json.Value
import Mustache.Json.Writer
import Mustache.Layout
import Mustache.Lexer
import Mustache.Listing
import Mustache.Main
import Mustache.Program.Arguments
import Mustache.Program.FileTree
import Mustache.Program.Log
import Mustache.Program.LogFilter
import Mustache.Program.Run
import Mustache.Proofs.Abreast
import Mustache.Proofs.ArgumentFaults
import Mustache.Proofs.ByteReading
import Mustache.Proofs.ByteSearch
import Mustache.Proofs.Calls
import Mustache.Proofs.CanonicalTag
import Mustache.Proofs.CarriageReturns
import Mustache.Proofs.CheckedCursor
import Mustache.Proofs.CursorSessions
import Mustache.Proofs.Cut
import Mustache.Proofs.DirectiveParts
import Mustache.Proofs.DirectiveWriting
import Mustache.Proofs.Followed
import Mustache.Proofs.Grammar
import Mustache.Proofs.Joining
import Mustache.Proofs.JsonRoundTrip
import Mustache.Proofs.Lexed
import Mustache.Proofs.LinePlace
import Mustache.Proofs.LineReports
import Mustache.Proofs.LineStarts
import Mustache.Proofs.ListedTokens
import Mustache.Proofs.Occurrence
import Mustache.Proofs.Place
import Mustache.Proofs.Progress
import Mustache.Proofs.QuotedLine
import Mustache.Proofs.Reached
import Mustache.Proofs.Respelling
import Mustache.Proofs.RoundTrip
import Mustache.Proofs.RunLog
import Mustache.Proofs.Sessions
import Mustache.Proofs.StandingAlone
import Mustache.Proofs.StartingPair
import Mustache.Proofs.Stripping
import Mustache.Proofs.TagReading
import Mustache.Proofs.TagSpacing
import Mustache.Proofs.TokenShape
import Mustache.Proofs.WrittenSymbols
import Mustache.Reader
import Mustache.Reader.Session
import Mustache.Tag
import Mustache.Text.Blank
import Mustache.Text.Decimal
import Mustache.Text.Lines
import Mustache.Text.Position
import Mustache.Text.Printable
import Mustache.Text.Quoted
import Mustache.Text.Search
import Mustache.Text.Utf8
import Mustache.Token

import LineScript.Text.Basic
import LineScript.Text.Printable
import LineScript.Text.Quoted
import LineScript.Number.Double
import LineScript.Number.Shortest
import LineScript.Number.Layout
import LineScript.Number.Arithmetic
import LineScript.Value
import LineScript.Content
import LineScript.Token
import LineScript.Escape
import LineScript.Piece
import LineScript.Lexed
import LineScript.RuntimeError
import LineScript.Report
import LineScript.Expr.Basic
import LineScript.Stmt.Basic
import LineScript.Cursor
import LineScript.Expr.Parse
import LineScript.Stmt.Parse
import LineScript.Program
import LineScript.Scopes
import LineScript.Machine
import LineScript.Operator
import LineScript.Expr.Eval
import LineScript.Stmt.Exec
import LineScript.Session
import LineScript.Console
import LineScript.Editor.Symbol
import LineScript.Editor.Word
import LineScript.Editor.Workspace
import LineScript.Editor.Request
import LineScript.Main
import LineScript.Proofs.Action
import LineScript.Proofs.Grammar
import LineScript.Proofs.ParserLogic
import LineScript.Proofs.GrammarSoundness
import LineScript.Proofs.GrammarCompleteness
import LineScript.Proofs.Reaches
import LineScript.Proofs.StoreTyping
import LineScript.Proofs.Breakdown
import LineScript.Proofs.IntegerConversion
import LineScript.Proofs.OperatorBreakdown
import LineScript.Proofs.ParsedTree
import LineScript.Proofs.SourceLiteral
import LineScript.Proofs.ExecutionEnd
import LineScript.Proofs.EmptyScope
import LineScript.Proofs.Fuel
import LineScript.Proofs.LoopRules
import LineScript.Proofs.LoopDesugaring
import LineScript.Proofs.DeclarationOrder
import LineScript.Proofs.ScopeSignature
import LineScript.Proofs.BlockScopes
import LineScript.Proofs.SymbolIndex
import LineScript.Proofs.LineLocality
import LineScript.Proofs.StaticGate
import LineScript.Proofs.TreeTokens
import LineScript.Proofs.ParallelParsing
import LineScript.Proofs.ParallelTrees
import LineScript.Proofs.Padding
import LineScript.Proofs.RelatedRuns
import LineScript.Proofs.EchoedLines
import LineScript.Proofs.ExitStatus
import LineScript.Proofs.PaddedPrograms
import LineScript.Proofs.OutputFrame
import LineScript.Proofs.InteractiveRounds
import LineScript.Proofs.InteractiveSession
import LineScript.Proofs.ParserWalk
import LineScript.Proofs.ExpressionLadder
import LineScript.Proofs.ExpressionParsing
import LineScript.Proofs.LineKeeping
import LineScript.Proofs.LineRecovery
import LineScript.Proofs.EditorHistory
import LineScript.Proofs.NameOrder
import LineScript.Proofs.BlamedTokens
import LineScript.Proofs.ErrorPlaces
import LineScript.Proofs.DeclarationRecovery
import LineScript.Proofs.ScopeStack
import LineScript.Proofs.StoreHistory
import LineScript.Proofs.StringUnits
import LineScript.Proofs.Relexing
import LineScript.Proofs.ExactComparison
import LineScript.Proofs.SuccessiveStores
import LineScript.Proofs.InputLines
import LineScript.Proofs.InputRoundTrip
import LineScript.Proofs.ChainedAssignment
import LineScript.Proofs.MentionedNames
import LineScript.Proofs.TextPlaces
import LineScript.Proofs.AnalysisRanges
import LineScript.Proofs.EditorWords
import LineScript.Proofs.TokenShapes
import LineScript.Proofs.DefinitionPlaces
import LineScript.Proofs.QuotedTexts
import LineScript.Proofs.DumpForms
import LineScript.Proofs.DumpLayout
import LineScript.Proofs.FaithfulDumps
import LineScript.Proofs.TruncatedDivision
import LineScript.Proofs.BrokenStrings
import LineScript.Proofs.ParserSteps
import LineScript.Proofs.ParserRecursion
import LineScript.Proofs.ParserTermination

import CellFormula.Bytes.Cursor
import CellFormula.Bytes.LittleEndian
import CellFormula.Bytes.Progress
import CellFormula.Constant.Basic
import CellFormula.Constant.Layout
import CellFormula.ErrorKind
import CellFormula.Evaluation.Broadcast
import CellFormula.Evaluation.Machine
import CellFormula.Evaluation.Operand
import CellFormula.Evaluation.Operation
import CellFormula.Evaluation.Place
import CellFormula.Formula.Action
import CellFormula.Formula.Basic
import CellFormula.Formula.Reading
import CellFormula.Formula.Stack
import CellFormula.Formula.Text
import CellFormula.Formula.Writing
import CellFormula.Matrix.Arithmetic
import CellFormula.Matrix.Basic
import CellFormula.Number.Binary64
import CellFormula.Number.General
import CellFormula.Number.Numeral
import CellFormula.Number.Overflowing
import CellFormula.Number.Power
import CellFormula.Number.Shortest
import CellFormula.Proofs.Accepts
import CellFormula.Proofs.Digits
import CellFormula.Proofs.Elementwise
import CellFormula.Proofs.RoundTrip
import CellFormula.Proofs.SharedFormula
import CellFormula.Proofs.StoredConstant
import CellFormula.Proofs.StoredFormula
import CellFormula.Proofs.StoredText
import CellFormula.Proofs.StoredToken
import CellFormula.Proofs.TokenOpcode
import CellFormula.Proofs.WrittenToken
import CellFormula.Sheet.Grid
import CellFormula.Sheet.Range
import CellFormula.Sheet.Source
import CellFormula.Text.Alphanumeric
import CellFormula.Text.Blank
import CellFormula.Text.Case
import CellFormula.Text.CaseTable
import CellFormula.Text.CodeRange
import CellFormula.Text.ColumnLabel
import CellFormula.Text.Quoted
import CellFormula.Text.Slice
import CellFormula.Text.Units
import CellFormula.Token.Basic
import CellFormula.Token.OperandClass
import CellFormula.Token.Operator
import CellFormula.Token.Reference
import CellFormula.Value.Basic
import CellFormula.Value.Coercion
import CellFormula.Value.Order
import CellFormula.Worksheet.Aggregate
import CellFormula.Worksheet.Arrays
import CellFormula.Worksheet.Catalogue
import CellFormula.Worksheet.Lifting
import CellFormula.Worksheet.Logical
import CellFormula.Worksheet.Numeric
import CellFormula.Worksheet.Table
import CellFormula.Worksheet.Textual
import CellFormula.Proofs.SelfContained
import CellFormula.Proofs.ExpressionTree
import CellFormula.Proofs.FunctionTable
import CellFormula.Proofs.StackEntries
import CellFormula.Proofs.RowMajor
import CellFormula.Proofs.Selection
import CellFormula.Proofs.ArrayFormula
import CellFormula.Proofs.RangeCells
import CellFormula.Proofs.AgreeingMachines
import CellFormula.Proofs.ReferencedCells
import CellFormula.Proofs.WordDouble
import CellFormula.Proofs.CellRules
import CellFormula.Proofs.BuiltinValues
import CellFormula.Proofs.EvaluatedValues
import CellFormula.Proofs.ResultValues
import CellFormula.Proofs.PhraseDepth
import CellFormula.Proofs.CallArguments
import CellFormula.Proofs.CheckedAccess
import CellFormula.Proofs.DecodedCalls
import CellFormula.Proofs.ReadingStops
import CellFormula.Proofs.CutLiterals
import CellFormula.Proofs.CanonicalForm
import CellFormula.Proofs.DeclaredSize
import CellFormula.Proofs.WriteFaults
import CellFormula.Proofs.AddressText
import CellFormula.Proofs.EntryRules
import CellFormula.Proofs.OperatorText
import CellFormula.Proofs.TextPieces
import CellFormula.Proofs.CallText
import CellFormula.Proofs.AreaShapes
import CellFormula.Proofs.AreaBounds
import CellFormula.Proofs.ClassIndependence
import CellFormula.Proofs.ConstantStream
import CellFormula.Proofs.FirstError
import CellFormula.Proofs.CoveredCells
import CellFormula.Proofs.ConditionalCells
import CellFormula.Proofs.CountedNumbers
import CellFormula.Proofs.CutAreas
import CellFormula.Proofs.TokenPlaces
import CellFormula.Proofs.ReplacedTokens
import CellFormula.Proofs.Replication
import CellFormula.Proofs.HintTokens
import CellFormula.Proofs.CallSpellings
import CellFormula.Proofs.ValueOrder
import CellFormula.Proofs.NumeralGrammar
import CellFormula.Proofs.DoubleShape
import CellFormula.Proofs.OverflowBound
import CellFormula.Proofs.FiniteOperands
import CellFormula.Proofs.WholePart
import CellFormula.Proofs.ChosenChoice
import CellFormula.Proofs.OverflowingCalls
import CellFormula.Proofs.SingleCells
import CellFormula.Proofs.Intersection
import CellFormula.Proofs.AreaAddresses
import CellFormula.Proofs.CheckedCells
import CellFormula.Proofs.MadeMatrices
import CellFormula.Proofs.MatrixEntries
import CellFormula.Proofs.MatrixFunctions
import CellFormula.Proofs.ExactDeterminant
import CellFormula.Proofs.ExactProduct
import CellFormula.Proofs.FirstFailure
import CellFormula.Proofs.ExactInverse
import CellFormula.Proofs.TextParts
import CellFormula.Proofs.ColumnLabels
import CellFormula.Proofs.CatalogueSearch
import CellFormula.Proofs.QuotedText
import CellFormula.Proofs.SingleSpaces
import CellFormula.Proofs.CursorRuns
import CellFormula.Proofs.GridWrites

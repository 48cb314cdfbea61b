import PgSchema.Text.CharSet
import PgSchema.Text.Blank
import PgSchema.Text.Digit
import PgSchema.Text.Word
import PgSchema.Text.Printable
import PgSchema.Text.Quoted
import PgSchema.Text.CaseTable
import PgSchema.Text.Case
import PgSchema.Number.Numeral
import PgSchema.Number.Exact
import PgSchema.Number.Shortest
import PgSchema.Number.FloatText
import PgSchema.Number.FloatReader
import PgSchema.Text.Md5
import PgSchema.Document
import PgSchema.Document.Json
import PgSchema.Vocabulary
import PgSchema.SqlType.Kind
import PgSchema.Loading.Fault
import PgSchema.Loading.Checked
import PgSchema.Loading.Scalar
import PgSchema.Loading.Record
import PgSchema.Loading.Definition
import PgSchema.SqlType
import PgSchema.SqlType.Text
import PgSchema.SqlType.Load
import PgSchema.Text.Search
import PgSchema.Sql.Quote
import PgSchema.DefaultValue
import PgSchema.Pattern
import PgSchema.Pattern.Reader
import PgSchema.ValueRule
import PgSchema.ValueRule.Load
import PgSchema.ReferentialAction
import PgSchema.PolicyCommand
import PgSchema.IndexMethod
import PgSchema.StructureError
import PgSchema.Constraint
import PgSchema.Index
import PgSchema.ForeignKey
import PgSchema.Policy
import PgSchema.Column
import PgSchema.Table
import PgSchema.Sql.Lexeme
import PgSchema.Layout.Piece
import PgSchema.Layout.Mask
import PgSchema.Layout.Canonical
import PgSchema.Layout.Arrange
import PgSchema.Layout
import PgSchema.Config
import PgSchema.Statement
import PgSchema.Table.Statements
import PgSchema.Table.Audit
import PgSchema.Run
import PgSchema.Failure
import PgSchema.Event
import PgSchema.Script
import PgSchema.Compilation
import PgSchema.Batch
import PgSchema.FilePath
import PgSchema.FileTree
import PgSchema.Build
import PgSchema.CommandLine
import PgSchema.Main
import PgSchema.Proofs.Number.Numeral
import PgSchema.Proofs.Sql.Lexeme
import PgSchema.Proofs.Layout.Ink
import PgSchema.Proofs.Layout.Lookup
import PgSchema.Proofs.Layout.Canonical
import PgSchema.Proofs.Layout.Arrange
import PgSchema.Proofs.Layout.Statements
import PgSchema.Proofs.Layout.Glyph
import PgSchema.Proofs.Layout.Spread
import PgSchema.Proofs.Layout.Piece
import PgSchema.Proofs.Layout.Format
import PgSchema.Proofs.Layout.Absorb
import PgSchema.Proofs.Layout.Gap
import PgSchema.Proofs.Layout.Idempotent
import PgSchema.Proofs.Layout.Verbatim
import PgSchema.Proofs.Table.Audit
import PgSchema.Proofs.Loading.Record
import PgSchema.Proofs.Table.Parts
import PgSchema.Proofs.SqlType.Saved
import PgSchema.Proofs.ValueRule.Saved
import PgSchema.Proofs.Table.Saved
import PgSchema.Proofs.Loading.Stops
import PgSchema.Proofs.Table.Numberless
import PgSchema.Proofs.Batch
import PgSchema.Proofs.Table.Key
import PgSchema.Proofs.SqlType.Spelling
import PgSchema.Proofs.Sql.Names
import PgSchema.Proofs.Catalogue
import PgSchema.Proofs.Table.Rerun
import PgSchema.Proofs.Layout.Block
import PgSchema.Proofs.Table.Block
import PgSchema.Proofs.Table.ForeignKey
import PgSchema.Proofs.Table.Mode
import PgSchema.Proofs.Sql.Restart
import PgSchema.Proofs.Layout.Renumber
import PgSchema.Proofs.Layout.Join
import PgSchema.Proofs.Sql.Word
import PgSchema.Proofs.Layout.Drop
import PgSchema.Proofs.Table.Recreate
import PgSchema.Proofs.Table.Scope
import PgSchema.Proofs.Table.Breach
import PgSchema.Proofs.Sql.Quoted
import PgSchema.Proofs.Table.Quoted
import PgSchema.Proofs.FileTree
import PgSchema.Proofs.FilePath
import PgSchema.Proofs.Build
import PgSchema.Proofs.Table.IndexName
import PgSchema.Proofs.Table.KeyColumn
import PgSchema.Proofs.Sql.Condition
import PgSchema.Proofs.ValueRule.Condition
import PgSchema.Proofs.Table.PartitionKey
import PgSchema.Proofs.Table.Addition
import PgSchema.Proofs.Table.Switch
import PgSchema.Proofs.Layout.Body
import PgSchema.Proofs.Layout.Part
import PgSchema.Proofs.Layout.Masked
import PgSchema.Proofs.Layout.TableLines
import PgSchema.Proofs.Layout.TableScript
import PgSchema.Proofs.Table.Lines
import PgSchema.Proofs.Table.KeyOrder
import PgSchema.Proofs.Loading.Change
import PgSchema.Proofs.SqlType.Change
import PgSchema.Proofs.ValueRule.Change
import PgSchema.Proofs.Table.Change
import PgSchema.Proofs.Evolution
import PgSchema.Proofs.Table.Timestamps
import PgSchema.Proofs.SqlType.Integers
import PgSchema.Proofs.DefaultValue
import PgSchema.Proofs.Pattern
import PgSchema.Proofs.ValueRule.CharacterClass
import PgSchema.Proofs.Table.ConstraintName
import PgSchema.Proofs.Table.IndexStorage

import Mkdb.Sql.Statement
import Mkdb.Storage.Tuple
import Mkdb.Storage.Proofs.Codec
import Mkdb.Storage.Comparator
import Mkdb.Paging.Io
import Mkdb.Paging.PageStore
import Mkdb.Paging.Proofs.ReadAfterWrite
import Mkdb.Db
import Mkdb.Sql.Analyzer
import Mkdb.Vm.Expression
import Mkdb.Sql.Proofs.ExpressionTyping
import Mkdb.Sql.Proofs.Assignment
import Mkdb.Sql.Proofs.InsertColumns
import Mkdb.Vm.Plan
import Mkdb.Query.Planner
import Mkdb.Query.Proofs.CursorSafety
import Mkdb.Query.Proofs.SortKeys
import Mkdb.Sql.Token
import Mkdb.Sql.Lexeme
import Mkdb.Sql.Tokenizer
import Mkdb.Sql.Proofs.Lexemes
import Mkdb.Sql.Proofs.Printing
import Mkdb.Sql.Proofs.Iterator
import Mkdb.Sql.Proofs.CreateTable
import Mkdb.Paging.Proofs.Layouts
import Mkdb.Paging.Proofs.Runs
import Mkdb.Query.Proofs.Select
import Mkdb.Storage.Proofs.Utf8
import Mkdb.Storage.Proofs.Rows
import Mkdb.Storage.Proofs.StringOrder
import Mkdb.Sql.Proofs.Rendering
import Mkdb.Sql.Proofs.StatementText
import Mkdb.Sql.Proofs.StatementTyping
import Mkdb.Sql.Proofs.TypingRules

import ReportSql.Tree.Reference

/-!
How a query refers to the columns of a table in its FROM list.
-/

namespace ReportSql.Normalize

open ReportSql.Tree (Expr Query TableRef)

structure TableScope where
  /-- The names that qualify columns of the table. -/
  qualifiers : List String
  /-- The name that new references are qualified with. -/
  binding : String
  /-- Whether columns need no qualifier; that is so where the table stands alone. -/
  unqualified : Bool
  deriving DecidableEq, Repr

namespace TableScope

/-- The scope of a table in a query that names it. -/
def of? (q : Query) (table : String) : Option TableScope :=
  (q.namedTables.find? fun t => Text.sameIgnoringAsciiCase t.table table).map fun t => {
    qualifiers := q.qualifiersFor table
    binding := t.binding
    unqualified := q.allSources.length == 1 }

def isColumn (s : TableScope) (name : String) (e : Expr) : Bool :=
  e.isColumnOf s.qualifiers name s.unqualified

def mentions (s : TableScope) (name : String) (e : Expr) : Bool :=
  e.mentionsColumn s.qualifiers name s.unqualified

end TableScope

end ReportSql.Normalize

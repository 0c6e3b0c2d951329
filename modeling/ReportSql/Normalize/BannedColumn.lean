import ReportSql.Normalize.Rules
import ReportSql.Normalize.TableScope
import ReportSql.Tree.Rewrite

/-!
Columns that are not to be used give way to those that replace them.
-/

namespace ReportSql.Normalize

open ReportSql.Tree (Expr Query)

/-- The column that replaces a banned one; its qualifier stays. -/
def BannedColumn.replace? (b : BannedColumn) (scope : TableScope) (e : Expr) : Option Expr :=
  match e with
  | .column table _ =>
    if scope.isColumn b.column e then some (.column table b.replacement) else none
  | _ => none

/-- Replaces a banned column in a query that names its table; how many were replaced. -/
def BannedColumn.replaceIn (b : BannedColumn) (q : Query) : Query × Nat :=
  match TableScope.of? q b.table with
  | some scope => q.replaceExprs (b.replace? scope)
  | none => (q, 0)

def BannedColumn.apply (b : BannedColumn) (q : Query) : Query × Nat :=
  let step (q : Query) : StateM Nat Query := fun n =>
    let (q, m) := b.replaceIn q
    (q, n + m)
  (q.forEachM step).run 0

/-- Replaces banned columns, and tells whether there were any. -/
def applyBans (bans : List BannedColumn) (q : Query) : Query × Bool :=
  let (q, n) := bans.foldl
    (fun (q, n) b =>
      let (q, m) := b.apply q
      (q, n + m))
    (q, 0)
  (q, n != 0)

end ReportSql.Normalize

import ReportSql.Catalog.Schema
import ReportSql.Normalize.Rules
import ReportSql.Normalize.TableScope
import ReportSql.Text.Scan
import ReportSql.Tree.Equality
import ReportSql.Tree.Rewrite

/-!
Questions about the last week. The conditions of a statement on the date of a table give way to
the week from Monday to Monday that lies before the current one.
-/

namespace ReportSql.Normalize

open Catalog (LookupFault Schema)
open ReportSql.Tree (Expr Query)

/-- The date of a table, with the banned columns that stand for it. -/
structure WeekTarget where
  table : String
  column : String
  aliases : List String
  deriving DecidableEq, Repr

structure RelativeWeek where
  /-- In lower case. -/
  phrases : List String
  /-- The preferred one comes first. -/
  targets : List WeekTarget
  deriving DecidableEq, Repr

/-- The target for a table; none where it has no date of its own. -/
def WeekTarget.of? (schema : Schema) (banned : List BannedColumn) (table : String) :
    Except LookupFault (Option WeekTarget) := do
  let t ← schema.table table
  return t.dateColumn.map fun column => {
    table
    column
    aliases := (banned.filter fun b => b.table == table && b.replacement == column).map
      BannedColumn.column }

def RelativeWeek.build (schema : Schema) (rules : Rules) : Except LookupFault RelativeWeek := do
  let targets ← rules.weekTables.mapM (WeekTarget.of? schema rules.bannedColumns)
  return ⟨rules.weekPhrases.map Text.lower, targets.filterMap id⟩

/-- Whether a question has one of the phrases. -/
def RelativeWeek.isAsked (w : RelativeWeek) (question : String) : Bool :=
  let question := (Text.lower question).toList
  w.phrases.any fun p => Text.hasInfix p.toList question

/-- The Mondays that start the last week and this one. -/
def lastWeek (today : Date) : Date × Date :=
  let monday := today.addDays (-today.daysFromMonday)
  (monday.addDays (-7), monday)

/-- Whether a condition is about the date. -/
def WeekTarget.isAbout (t : WeekTarget) (scope : TableScope) (e : Expr) : Bool :=
  (t.column :: t.aliases).any fun column => scope.mentions column e

/-- The conditions that the date lies in the last week. -/
def WeekTarget.window (t : WeekTarget) (scope : TableScope) (today : Date) : List Expr :=
  let date := Expr.colOf scope.binding t.column
  let (start, stop) := lastWeek today
  [date.ge (.literal (.date start)), date.lt (.literal (.date stop))]

/-- Puts the new conditions in place of those dropped: where the first of them was, or at the
end. -/
def replaceWhere (isDropped : Expr → Bool) (new : List Expr) (conditions : List Expr) :
    List Expr :=
  conditions.takeWhile (fun c => !isDropped c) ++ new
    ++ (conditions.dropWhile fun c => !isDropped c).filter fun c => !isDropped c

/-- Limits a query to the last week if it names the table, and tells whether that changed its
conditions. -/
def WeekTarget.limit (t : WeekTarget) (today : Date) (q : Query) : Query × Bool :=
  match TableScope.of? q t.table with
  | none => (q, false)
  | some scope =>
    let edit := replaceWhere (t.isAbout scope) (t.window scope today)
    let before := (q.condition.map Expr.conjuncts).getD []
    (q.editConjuncts edit, edit before != before)

/-- Applies a step that tells whether it changed a query to all queries of a statement. -/
def forEachChanged (step : Query → Query × Bool) (q : Query) : Query × Bool :=
  let count (q : Query) : StateM Bool Query := fun changed =>
    let (q, more) := step q
    (q, changed || more)
  (q.forEachM count).run false

/-- Limits the first table that the statement reads. -/
def RelativeWeek.apply (w : RelativeWeek) (question : String) (today : Date) (q : Query) :
    Query × Bool :=
  if w.isAsked question then
    match w.targets.find? fun t => q.reads t.table with
    | some t => forEachChanged (t.limit today) q
    | none => (q, false)
  else (q, false)

end ReportSql.Normalize

/-!
The rules that SQL from outside is normalized by.
-/

namespace ReportSql.Normalize

/-- A column that is not to be used, and the column of its table to use instead. -/
structure BannedColumn where
  table : String
  column : String
  replacement : String
  deriving DecidableEq, Repr

/-- The metrics and the dimension that the revenue of products is about. -/
structure ProductRevenueRule where
  dimensionTable : String
  nameColumn : String
  /-- The metric that is replaced. -/
  grossMetric : String
  /-- The metric that replaces it. -/
  lineMetric : String
  deriving DecidableEq, Repr

structure Rules where
  /-- Phrases in a question that ask for the last week. -/
  weekPhrases : List String
  /-- The tables whose dates may be limited to the last week, the preferred one first. -/
  weekTables : List String
  bannedColumns : List BannedColumn
  productRevenue : ProductRevenueRule
  deriving DecidableEq, Repr

def ProductRevenueRule.default : ProductRevenueRule where
  dimensionTable := "products"
  nameColumn := "name"
  grossMetric := "gross_sales"
  lineMetric := "item_revenue"

def Rules.default : Rules where
  weekPhrases := ["last completed week", "last complete week", "last full week", "last week"]
  weekTables := ["sales", "payments"]
  bannedColumns := [⟨"sales", "closed_at", "created_at"⟩]
  productRevenue := .default

end ReportSql.Normalize

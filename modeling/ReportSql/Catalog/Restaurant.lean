import ReportSql.Catalog.Basic

/-!
The catalog of a point-of-sale database for restaurants, which is used where no other is given.
-/

namespace ReportSql.Catalog.Restaurant

open ReportSql.Tree (Expr)

def scopedTable (name : String) (role : Role) : Table where
  name
  role
  primaryKey := "uuid"
  scopeColumn := some "restaurant"
  dateColumn := none
  cancelColumn := none
  anchor := none
  hierarchy := none

def tables : List Table := [
  { scopedTable "sales" .fact with dateColumn := some "created_at" },
  -- line items are dated by their sale
  { scopedTable "items" .fact with cancelColumn := some "canceled", anchor := some "sales" },
  { scopedTable "payments" .fact with
    dateColumn := some "created_at", cancelColumn := some "canceled" },
  { scopedTable "expenses" .fact with
    dateColumn := some "created_at", cancelColumn := some "canceled" },
  scopedTable "products" .dimension,
  { scopedTable "product_categories" .dimension with
    hierarchy := some ⟨"uuid", "parent_category_id", "name"⟩ },
  scopedTable "payment_methods" .dimension,
  scopedTable "expense_categories" .dimension]

def edges : List Edge := [
  ⟨"items", "sale_id", "sales", "uuid", .inner⟩,
  ⟨"items", "product_id", "products", "uuid", .left⟩,
  ⟨"products", "category_id", "product_categories", "uuid", .left⟩,
  ⟨"product_categories", "parent_category_id", "product_categories", "uuid", .left⟩,
  ⟨"payments", "sale_id", "sales", "uuid", .inner⟩,
  ⟨"payments", "pay_method_id", "payment_methods", "uuid", .left⟩,
  ⟨"expenses", "exp_category_id", "expense_categories", "uuid", .left⟩,
  ⟨"expenses", "pay_method_id", "payment_methods", "uuid", .left⟩]

def completed : CompletedState where
  table := "sales"
  column := "sale_state"
  value := "CLOSED"

def schema : Schema where
  tables
  edges
  completed := some completed
  faultless := by decide

def plainSum (key baseTable : String) (argument : Expr) (description : String) : Metric where
  key
  baseTable
  expression := argument.sum
  extraFilters := []
  description := some description

def metrics : List Metric := [
  plainSum "gross_sales" "sales" (.colOf "sales" "total") "Total sales based on sales.total.",
  plainSum "item_revenue" "items" ((Expr.colOf "items" "price").mul (.colOf "items" "quantity"))
    "Line-item revenue, price times quantity, excluding canceled items.",
  plainSum "covers" "sales" (.colOf "sales" "num_customers")
    "Guests served, from sales.num_customers.",
  plainSum "expense_total" "expenses" (.colOf "expenses" "amount")
    "Operational expenses excluding canceled ones.",
  plainSum "payment_total" "payments" (.colOf "payments" "amount")
    "Payments collected excluding canceled ones."]

end Restaurant

def restaurant : Catalog where
  schema := Restaurant.schema
  metrics := Restaurant.metrics
  faultless := by decide

end ReportSql.Catalog

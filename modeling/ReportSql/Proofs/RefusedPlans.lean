import ReportSql.Proofs.BoundValues
import ReportSql.Proofs.JoinTrees

/-!
Plans that have no report. On the usual path a plan is refused for the first of seven faults: it is
out of order, its relation or its metric is not there, the rows of the metric have no date, a table
of a dimension is not declared or not connected with that of the metric, or no column tells the
tenants apart. A plan with none of them has a report, so that joins are never left over and the
periods to compare never fail.
-/
namespace ReportSql

/-- Where not all of some values have a property, there is a first one that does not have it. -/
theorem exists_first {α : Type} {p : α → Prop} {l : List α} (h : ¬ ∀ a ∈ l, p a) :
    ∃ before a after, l = before ++ a :: after ∧ (∀ b ∈ before, p b) ∧ ¬ p a := by
  induction l with
  | nil => exact absurd nofun h
  | cons a l ih =>
      by_cases own : p a
      · obtain ⟨before, b, after, split, known, other⟩ :=
          ih fun rest => h (List.forall_mem_cons.mpr ⟨own, rest⟩)
        exact ⟨a :: before, b, after, congrArg (a :: ·) split,
          List.forall_mem_cons.mpr ⟨own, known⟩, other⟩
      · exact ⟨[], a, l, rfl, nofun, own⟩

namespace Join

open Catalog (Edge Schema)

variable {s : Schema} {base t : String} {required before after : List String} {known : List Edge}

/-! ### Tables that no path leads to -/

theorem path_apart (hb : Declared s base) (ht : Declared s t)
    (apart : ¬ Connected s.edges base t) : path s base t = .error (.noPath base t) := by
  have none : ∀ es, path s base t ≠ .ok es := fun es own =>
    apart (exists_path.mp ⟨es, own⟩).2.2
  unfold path at none ⊢
  rw [if_neg (isNone_table?.not.mpr (not_not.mpr hb)),
    if_neg (isNone_table?.not.mpr (not_not.mpr ht))] at none ⊢
  split
  · next trail found =>
    rw [found] at none
    exact absurd rfl (none _)
  · rfl

/-- The paths are looked for one after the other, up to the first that is missing. -/
theorem gathered_stops {fault : Fault} (found : ∀ u ∈ before, ∃ es, path s base u = .ok es)
    (stop : path s base t = .error fault) :
    gathered s base known (before ++ t :: after) = .error fault := by
  induction before generalizing known with
  | nil =>
      rw [List.nil_append, gathered_cons, stop]
      rfl
  | cons u before ih =>
      obtain ⟨⟨es, own⟩, others⟩ := List.forall_mem_cons.mp found
      rw [List.cons_append, gathered_cons, own]
      exact ih others

/-- The least of some tables among those that are not connected with a base. -/
structure FirstApart (s : Schema) (base : String) (required : List String) (t : String) : Prop where
  needed : t ∈ required
  apart : ¬ Connected s.edges base t
  first : ∀ u ∈ required, ¬ Connected s.edges base u → t ≤ u

theorem exists_firstApart (h : ¬ ∀ u ∈ required, Connected s.edges base u) :
    ∃ t, FirstApart s base required t := by
  have sorted : ¬ ∀ u ∈ Text.sortedSet required, Connected s.edges base u := by
    simpa only [Text.mem_sortedSet] using h
  obtain ⟨before, t, after, split, connected, apart⟩ := exists_first sorted
  have ascending := Text.sortedSet_ascending required
  have members := fun u => (Text.mem_sortedSet (t := u) (l := required)).symm
  rw [split] at ascending members
  refine ⟨t, (members t).mpr (by simp), apart, fun u hu other => ?_⟩
  -- what is not connected comes no earlier
  cases List.mem_append.mp ((members u).mp hu) with
  | inl earlier => exact absurd (connected u earlier) other
  | inr later =>
      cases List.mem_cons.mp later with
      | inl same => exact same ▸ String.le_refl t
      | inr later =>
          have behind := (List.pairwise_append.mp ascending).2.1
          exact String.not_lt.mp (String.lt_asymm ((List.pairwise_cons.mp behind).1 u later))

theorem resolve_apart (hb : Declared s base) (declared : ∀ u ∈ required, Declared s u)
    (missing : FirstApart s base required t) :
    resolve s base required = .error (.noPath base t) := by
  obtain ⟨before, after, split⟩ := List.append_of_mem (Text.mem_sortedSet.mpr missing.needed)
  have ascending := Text.sortedSet_ascending required
  rw [split] at ascending
  have found : ∀ u ∈ before, ∃ es, path s base u = .ok es := by
    intro u hu
    have own : u ∈ required := by
      rw [← Text.mem_sortedSet, split]
      exact List.mem_append_left _ hu
    have smaller : u < t := (List.pairwise_append.mp ascending).2.2 u hu t List.mem_cons_self
    refine exists_path.mpr ⟨hb, declared u own, ?_⟩
    by_contra other
    exact missing.first u own other smaller
  rw [resolve_eq, split, gathered_stops found (path_apart hb (declared t missing.needed) missing.apart)]
  rfl

end Join

namespace Report

open Catalog (Metric Schema Table table_of_declared table_of_undeclared)
open Join (Connected Declared FirstApart)
open ReportSql.Tree (Query)

variable {catalog : Catalog} {plan : Plan} {options : Options} {metric : Metric} {schema : Schema}
  {base dateTable scope : Table} {dateColumn : String} {fault : Fault} {ds before after : List Dimension}
  {d : Dimension}

/-! ### The faults of plans -/

/-- The tables that a report needs. -/
def neededTables (plan : Plan) (metric : Metric) (dateTable scope : Table) : List String :=
  metric.baseTable :: dateTable.name :: scope.name :: plan.dimensions.map Dimension.table

/-- Whether a plan is in order, its relation is declared and its metric is there. -/
structure Chosen (catalog : Catalog) (plan : Plan) (metric : Metric) : Prop where
  checked : plan.check = .ok ()
  relation : Declared catalog.schema plan.baseTable
  found : catalog.metric plan.metric = .ok metric

/-- Whether besides the rows of the metric have a date. -/
structure Dated (catalog : Catalog) (plan : Plan) (metric : Metric) (dateTable : Table)
    (dateColumn : String) : Prop extends Chosen catalog plan metric where
  dated : catalog.schema.dateSource metric.baseTable = .ok (some (dateTable, dateColumn))

/-- Whether besides the tables of the dimensions are declared. -/
structure Named (catalog : Catalog) (plan : Plan) (metric : Metric) (dateTable : Table)
    (dateColumn : String) : Prop extends Dated catalog plan metric dateTable dateColumn where
  dimensions : ∀ d ∈ plan.dimensions, Declared catalog.schema d.table

/-- Whether besides all needed tables are connected with the table of the metric. -/
structure Linked (catalog : Catalog) (plan : Plan) (metric : Metric) (dateTable : Table)
    (dateColumn : String) (scope : Table) : Prop
    extends Named catalog plan metric dateTable dateColumn where
  scopeFound : catalog.schema.scopeTable metric.baseTable = .ok scope
  connected : ∀ t ∈ neededTables plan metric dateTable scope,
    Connected catalog.schema.edges metric.baseTable t

/-- Whether a plan has no fault. -/
def Accepted (catalog : Catalog) (plan : Plan) : Prop :=
  ∃ metric dateTable dateColumn scope,
    Linked catalog plan metric dateTable dateColumn scope ∧ scope.scopeColumn.isSome

/-- The first fault of a plan. -/
inductive Refused (catalog : Catalog) (plan : Plan) : Fault → Prop
  | plan {fault : Plan.Fault} (faulty : plan.check = .error fault) :
      Refused catalog plan (.plan fault)
  | relation (checked : plan.check = .ok ())
      (missing : ¬ Declared catalog.schema plan.baseTable) :
      Refused catalog plan (.lookup (.unknownTable plan.baseTable))
  | metric (checked : plan.check = .ok ()) (relation : Declared catalog.schema plan.baseTable)
      (missing : ∀ m ∈ catalog.metrics, m.key ≠ plan.metric) :
      Refused catalog plan (.lookup (.unknownMetric plan.metric))
  | undated {metric : Metric} (chosen : Chosen catalog plan metric)
      (missing : catalog.schema.dateSource metric.baseTable = .ok none) :
      Refused catalog plan (.missingDateColumn metric.baseTable)
  | dimension {metric : Metric} {dateTable : Table} {dateColumn : String}
      {before after : List Dimension} {d : Dimension}
      (dated : Dated catalog plan metric dateTable dateColumn)
      (split : plan.dimensions = before ++ d :: after)
      (declared : ∀ e ∈ before, Declared catalog.schema e.table)
      (missing : ¬ Declared catalog.schema d.table) :
      Refused catalog plan (.lookup (.unknownTable d.table))
  | apart {metric : Metric} {dateTable scope : Table} {dateColumn table : String}
      (named : Named catalog plan metric dateTable dateColumn)
      (scopeFound : catalog.schema.scopeTable metric.baseTable = .ok scope)
      (missing : FirstApart catalog.schema metric.baseTable
        (neededTables plan metric dateTable scope) table) :
      Refused catalog plan (.join (.noPath metric.baseTable table))
  | unscoped {metric : Metric} {dateTable scope : Table} {dateColumn : String}
      (linked : Linked catalog plan metric dateTable dateColumn scope)
      (missing : scope.scopeColumn = none) :
      Refused catalog plan (.missingScopeColumn scope.name)

/-- Every plan is accepted or has a first fault. -/
theorem accepted_or_refused (catalog : Catalog) (plan : Plan) :
    Accepted catalog plan ∨ ∃ fault, Refused catalog plan fault := by
  cases checked : plan.check with
  | error fault => exact .inr ⟨_, .plan checked⟩
  | ok =>
  by_cases relation : Declared catalog.schema plan.baseTable
  case neg => exact .inr ⟨_, .relation checked relation⟩
  cases found : catalog.metric plan.metric with
  | error _ => exact .inr ⟨_, .metric checked relation (Catalog.metric_missing found)⟩
  | ok metric =>
  have chosen : Chosen catalog plan metric := ⟨checked, relation, found⟩
  have declared := Catalog.metric_declared found
  obtain ⟨source, dated⟩ := Catalog.dateSource_found declared
  cases source with
  | none => exact .inr ⟨_, .undated chosen dated⟩
  | some source =>
  have dated : Dated catalog plan metric source.1 source.2 := ⟨chosen, dated⟩
  by_cases dimensions : ∀ d ∈ plan.dimensions, Declared catalog.schema d.table
  case neg =>
    obtain ⟨before, d, after, split, known, missing⟩ := exists_first dimensions
    exact .inr ⟨_, .dimension dated split known missing⟩
  have named : Named catalog plan metric source.1 source.2 := ⟨dated, dimensions⟩
  obtain ⟨scope, scopeFound⟩ := Catalog.scopeTable_found declared
  by_cases connected : ∀ t ∈ neededTables plan metric source.1 scope,
      Connected catalog.schema.edges metric.baseTable t
  case neg =>
    obtain ⟨t, missing⟩ := Join.exists_firstApart connected
    exact .inr ⟨_, .apart named scopeFound missing⟩
  have linked : Linked catalog plan metric source.1 source.2 scope :=
    ⟨named, scopeFound, connected⟩
  cases owned : scope.scopeColumn with
  | none => exact .inr ⟨_, .unscoped linked owned⟩
  | some column => exact .inl ⟨metric, source.1, source.2, scope, linked, owned ▸ rfl⟩

/-! ### What is made of a plan -/

theorem lookups_ok (h : ∀ d ∈ ds, Declared schema d.table) :
    forIn ds PUnit.unit (fun d => lookUp schema d.table) = .ok PUnit.unit := by
  induction ds with
  | nil => rfl
  | cons d ds ih =>
      obtain ⟨own, others⟩ := List.forall_mem_cons.mp h
      obtain ⟨t, found⟩ := table_of_declared own
      rw [List.forIn_cons, lookUp, found]
      exact ih others

theorem lookups_stop (h : ∀ e ∈ before, Declared schema e.table) (missing : ¬ Declared schema d.table) :
    forIn (before ++ d :: after) PUnit.unit (fun d => lookUp schema d.table) =
      .error (.lookup (.unknownTable d.table)) := by
  induction before with
  | nil =>
      rw [List.nil_append, List.forIn_cons, lookUp, table_of_undeclared missing]
      rfl
  | cons e before ih =>
      obtain ⟨own, others⟩ := List.forall_mem_cons.mp h
      obtain ⟨t, found⟩ := table_of_declared own
      rw [List.cons_append, List.forIn_cons, lookUp, found]
      exact ih others

/-- A plan that is in order and names what is there is left to the usual path. -/
theorem query_chosen (usual : UsualPath catalog plan) (chosen : Chosen catalog plan metric) :
    query plan catalog options =
      Standard.query plan metric catalog.schema options.tenantParam >>= fun q =>
        .ok (q, Standard.bindings plan) := by
  obtain ⟨relation, own⟩ := table_of_declared chosen.relation
  obtain ⟨base, found⟩ := table_of_declared (Catalog.metric_declared chosen.found)
  unfold query
  rw [chosen.checked, own, chosen.found]
  simp only [lookup, Except.mapError, bind, Except.bind, found, usual metric base chosen.found found]
  rfl

/-- The usual path looks up the tables of the dimensions, joins all tables, and in the end needs the
column that tells the tenants apart and the periods to compare. -/
theorem standard_query_dated {tenantParam : String}
    (declared : Declared schema metric.baseTable)
    (dated : schema.dateSource metric.baseTable = .ok (some (dateTable, dateColumn)))
    (scopeFound : schema.scopeTable metric.baseTable = .ok scope) :
    ∃ finish : List Join.Step → Except Fault Query,
      Standard.query plan metric schema tenantParam =
        ((forIn plan.dimensions PUnit.unit fun d => lookUp schema d.table) >>= fun _ =>
          (Join.resolve schema metric.baseTable
            (neededTables plan metric dateTable scope)).mapError .join >>= finish) ∧
      ∀ joins, (scope.scopeColumn = none → finish joins = .error (.missingScopeColumn scope.name)) ∧
        (scope.scopeColumn.isSome → Standard.checkCompared plan = .ok () →
          ∃ q, finish joins = .ok q) := by
  obtain ⟨base, found⟩ := table_of_declared declared
  unfold Standard.query
  rw [found, dated, scopeFound]
  refine ⟨_, rfl, fun joins => ⟨fun unowned => ?_, fun owned compared => ?_⟩⟩
  · simp only [Table.scoping?, unowned, Option.map_none]
    rfl
  · obtain ⟨column, owned⟩ := Option.isSome_iff_exists.mp owned
    simp only [Table.scoping?, owned, Option.map_some, compared]
    exact ⟨_, rfl⟩

theorem Named.declared (named : Named catalog plan metric dateTable dateColumn)
    (scopeFound : catalog.schema.scopeTable metric.baseTable = .ok scope) :
    ∀ t ∈ neededTables plan metric dateTable scope, Declared catalog.schema t := by
  simp only [neededTables, List.forall_mem_cons, List.forall_mem_map]
  exact ⟨Catalog.metric_declared named.found, Catalog.declared_of_dateSource named.dated,
    Catalog.declared_of_scopeTable scopeFound, named.dimensions⟩

theorem Linked.joined (linked : Linked catalog plan metric dateTable dateColumn scope) :
    ∃ joins, Join.resolve catalog.schema metric.baseTable
      (neededTables plan metric dateTable scope) = .ok joins := by
  have declared := linked.declared linked.scopeFound
  obtain ⟨joins, edges, run, -⟩ := Join.resolve_ok fun t ht =>
    Join.exists_path.mpr ⟨Catalog.metric_declared linked.found, declared t ht, linked.connected t ht⟩
  exact ⟨joins, run⟩

/-- A plan with a fault fails with the first one. -/
theorem query_refused (usual : UsualPath catalog plan) (h : Refused catalog plan fault) :
    query plan catalog options = .error fault := by
  cases h with
  | plan faulty =>
      unfold query
      rw [faulty]
      rfl
  | relation checked missing =>
      unfold query
      rw [checked, table_of_undeclared missing]
      rfl
  | metric checked relation missing =>
      obtain ⟨t, own⟩ := table_of_declared relation
      unfold query
      rw [checked, own, Catalog.metric_unknown missing]
      rfl
  | undated chosen missing =>
      obtain ⟨base, found⟩ := table_of_declared (Catalog.metric_declared chosen.found)
      rw [query_chosen usual chosen]
      unfold Standard.query
      rw [found, missing]
      rfl
  | dimension dated split declared missing =>
      have own := Catalog.metric_declared dated.found
      obtain ⟨scope, scopeFound⟩ := Catalog.scopeTable_found own
      obtain ⟨finish, run, -⟩ := standard_query_dated own dated.dated scopeFound
      rw [query_chosen usual dated.toChosen, run, split, lookups_stop declared missing]
      rfl
  | apart named scopeFound missing =>
      have own := Catalog.metric_declared named.found
      obtain ⟨finish, run, -⟩ := standard_query_dated own named.dated scopeFound
      rw [query_chosen usual named.toChosen, run, lookups_ok named.dimensions,
        Join.resolve_apart own (named.declared scopeFound) missing]
      rfl
  | unscoped linked missing =>
      obtain ⟨finish, run, ends⟩ := standard_query_dated (Catalog.metric_declared linked.found)
        linked.dated linked.scopeFound
      obtain ⟨joins, joined⟩ := linked.joined
      rw [query_chosen usual linked.toChosen, run, lookups_ok linked.dimensions, joined]
      simp only [Except.mapError, bind, Except.bind, (ends joins).1 missing]

theorem query_accepted (usual : UsualPath catalog plan) (h : Accepted catalog plan) :
    ∃ made, query plan catalog options = .ok made := by
  obtain ⟨metric, dateTable, dateColumn, scope, linked, owned⟩ := h
  obtain ⟨finish, run, ends⟩ := standard_query_dated (Catalog.metric_declared linked.found)
    linked.dated linked.scopeFound
  obtain ⟨joins, joined⟩ := linked.joined
  obtain ⟨q, made⟩ := (ends joins).2 owned (checkCompared_of_check linked.checked)
  rw [query_chosen usual linked.toChosen, run, lookups_ok linked.dimensions, joined]
  simp only [Except.mapError, bind, Except.bind, made]
  exact ⟨_, rfl⟩

/-- On the usual path a plan has a report just where it has no fault, and else fails with its first
fault. Joins are never left over, and the periods of a plan that is in order can be compared. -/
theorem compile_fails_first (usual : UsualPath catalog plan) (options : Options) :
    ((∃ report, compile plan catalog options = .ok report) ↔ Accepted catalog plan) ∧
    (∀ fault, compile plan catalog options = .error fault ↔ Refused catalog plan fault) ∧
    (∀ tables, compile plan catalog options ≠ .error (.join (.stuck tables))) ∧
    (plan.check = .ok () → Standard.checkCompared plan = .ok ()) := by
  have accepted : Accepted catalog plan → ∃ report, compile plan catalog options = .ok report := by
    intro h
    obtain ⟨made, run⟩ := query_accepted usual h
    unfold compile
    rw [run]
    exact ⟨_, rfl⟩
  have refused : ∀ fault, Refused catalog plan fault →
      compile plan catalog options = .error fault := by
    intro fault h
    unfold compile
    rw [query_refused usual h]
    rfl
  have fails : ∀ fault, compile plan catalog options = .error fault ↔ Refused catalog plan fault := by
    intro fault
    refine ⟨fun failed => ?_, refused fault⟩
    cases accepted_or_refused catalog plan with
    | inl h =>
        obtain ⟨report, made⟩ := accepted h
        rw [made] at failed
        cases failed
    | inr h =>
        obtain ⟨first, h⟩ := h
        rw [refused first h] at failed
        exact Except.error.inj failed ▸ h
  refine ⟨⟨fun made => ?_, accepted⟩, fails, fun tables failed => ?_, checkCompared_of_check⟩
  · cases accepted_or_refused catalog plan with
    | inl h => exact h
    | inr h =>
        obtain ⟨report, made⟩ := made
        obtain ⟨fault, h⟩ := h
        rw [refused fault h] at made
        cases made
  · cases (fails _).mp failed

def revenueByCustomer : Plan :=
  { Plan.simple "item_revenue" "items" "Cafe" with
    dimensions := [⟨"products", "name", none⟩, ⟨"customers", "name", none⟩] }

theorem revenueByCustomer_fails :
    compile revenueByCustomer Catalog.restaurant (bindingTenant "restaurant") =
      .error (.lookup (.unknownTable "customers")) := by
  have dated : Dated Catalog.restaurant revenueByCustomer Catalog.Restaurant.metrics[1]
      Catalog.Restaurant.tables[0] "created_at" := ⟨⟨rfl, by decide, rfl⟩, rfl⟩
  have split : revenueByCustomer.dimensions =
      [⟨"products", "name", none⟩] ++ ⟨"customers", "name", none⟩ :: [] := rfl
  have refused : Refused Catalog.restaurant revenueByCustomer (.lookup (.unknownTable "customers")) :=
    .dimension dated split (by decide) (by decide)
  exact ((compile_fails_first (usualPath_of_no_trend rfl) _).2.1 _).mpr refused

end Report

end ReportSql

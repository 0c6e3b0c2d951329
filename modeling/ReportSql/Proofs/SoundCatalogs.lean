import ReportSql.Catalog.Basic
import ReportSql.Proofs.NestedQueries
import ReportSql.Proofs.SearchTrees

/-!
Names in catalogs. A catalog without faults names no table that it does not have, so that the
tables which scope and date the rows of a metric are found.
-/
namespace ReportSql.Catalog

open Join (Declared)

variable {s : Schema} {name key : String} {t : Table} {m : Metric} {catalog : Catalog}

/-! ### Tables -/

theorem table_found (h : s.table name = .ok t) : t ∈ s.tables ∧ t.name = name := by
  unfold Schema.table Schema.table? at h
  split at h
  · next found =>
    cases h
    exact ⟨List.mem_of_find?_eq_some found, by simpa using List.find?_some found⟩
  · cases h

theorem declared_of_table (h : s.table name = .ok t) : Declared s t.name :=
  List.mem_map_of_mem (table_found h).1

theorem table_of_declared (h : Declared s name) : ∃ t, s.table name = .ok t := by
  unfold Schema.table
  cases found : s.table? name with
  | none => exact absurd h (Join.isNone_table?.mp (by rw [found]; rfl))
  | some t => exact ⟨t, rfl⟩

theorem table_of_undeclared (h : ¬ Declared s name) : s.table name = .error (.unknownTable name) := by
  have none := Option.isNone_iff_eq_none.mp (Join.isNone_table?.mpr h)
  rw [Schema.table, none]

theorem anchor_declared {anchor : String} (ht : t ∈ s.tables) (h : t.anchor = some anchor) :
    Declared s anchor := by
  have faultless := s.faultless
  simp only [schemaFault?, Option.orElse_eq_orElse, Option.orElse_eq_or, Option.or_eq_none_iff,
    List.findSome?_eq_none_iff] at faultless
  have own := faultless.2.1 t ht
  simp only [anchorFault?, h] at own
  split at own
  · next known => simpa [Declared] using known
  · cases own

/-- Finished transactions are marked in a declared table. -/
theorem completed_declared {state : CompletedState} (h : s.completed = some state) :
    Declared s state.table := by
  have faultless := s.faultless
  simp only [schemaFault?, Option.orElse_eq_orElse, Option.orElse_eq_or, Option.or_eq_none_iff]
    at faultless
  have own := faultless.2.2.2
  simp only [completedFault?, h] at own
  split at own
  · next known => simpa [Declared] using known
  · cases own

/-- A table is scoped by itself or by its anchor, and either is there. -/
theorem scopeTable_found (h : Declared s name) : ∃ scope, s.scopeTable name = .ok scope := by
  obtain ⟨t, found⟩ := table_of_declared h
  cases anchored : t.anchor with
  | none =>
      refine ⟨t, ?_⟩
      simp [Schema.scopeTable, found, anchored, bind, Except.bind, pure, Except.pure]
  | some anchor =>
      obtain ⟨scope, own⟩ := table_of_declared (anchor_declared (table_found found).1 anchored)
      refine ⟨scope, ?_⟩
      simp [Schema.scopeTable, found, anchored, own, bind, Except.bind]

theorem dateSource_found (h : Declared s name) : ∃ source, s.dateSource name = .ok source := by
  obtain ⟨t, found⟩ := table_of_declared h
  cases dated : t.dateColumn with
  | some column =>
      refine ⟨some (t, column), ?_⟩
      simp [Schema.dateSource, found, dated, bind, Except.bind, pure, Except.pure]
  | none =>
      cases anchored : t.anchor with
      | none =>
          refine ⟨none, ?_⟩
          simp [Schema.dateSource, found, dated, anchored, bind, Except.bind, pure, Except.pure]
      | some anchor =>
          obtain ⟨source, own⟩ := table_of_declared (anchor_declared (table_found found).1 anchored)
          refine ⟨source.dateColumn.map (source, ·), ?_⟩
          simp [Schema.dateSource, found, dated, anchored, own, bind, Except.bind, pure, Except.pure]

theorem declared_of_scopeTable (h : s.scopeTable name = .ok t) : Declared s t.name := by
  unfold Schema.scopeTable at h
  cases found : s.table name with
  | error _ => simp [found, bind, Except.bind] at h
  | ok own =>
      simp only [found, bind, Except.bind] at h
      split at h
      · exact declared_of_table h
      · obtain rfl := Except.ok.inj h
        exact declared_of_table found

theorem declared_of_dateSource {column : String} (h : s.dateSource name = .ok (some (t, column))) :
    Declared s t.name := by
  unfold Schema.dateSource at h
  cases found : s.table name with
  | error _ => simp [found, bind, Except.bind] at h
  | ok own =>
      simp only [found, bind, Except.bind] at h
      split at h
      · cases h
        exact declared_of_table found
      · next anchor _ _ =>
        cases anchored : s.table anchor with
        | error _ => simp [anchored] at h
        | ok source =>
            simp only [anchored, pure, Except.pure, Except.ok.injEq, Option.map_eq_some_iff] at h
            obtain ⟨_, -, same⟩ := h
            cases same
            exact declared_of_table anchored
      · cases h

/-! ### Metrics -/

theorem metric_found (h : catalog.metric key = .ok m) : m ∈ catalog.metrics ∧ m.key = key := by
  unfold Catalog.metric at h
  split at h
  · next found =>
    cases h
    exact ⟨List.mem_of_find?_eq_some found, by simpa using List.find?_some found⟩
  · cases h

theorem metric_missing {fault : LookupFault} (h : catalog.metric key = .error fault) :
    ∀ m ∈ catalog.metrics, m.key ≠ key := by
  unfold Catalog.metric at h
  split at h
  · cases h
  · next none => simpa using none

theorem metric_unknown (h : ∀ m ∈ catalog.metrics, m.key ≠ key) :
    catalog.metric key = .error (.unknownMetric key) := by
  have none : (catalog.metrics.find? fun m => m.key == key) = none := by simpa using h
  rw [Catalog.metric, none]

theorem metric_faultless {schema : Schema} {seen : List String} {metrics : List Metric}
    (h : metricsFault? schema seen metrics = none) : ∀ m ∈ metrics, metricFault? schema m = none := by
  induction metrics generalizing seen with
  | nil => simp
  | cons m rest ih =>
      unfold metricsFault? at h
      split at h
      · cases h
      · cases own : metricFault? schema m with
        | some fault => simp [own] at h
        | none =>
            simp only [own, Option.orElse_eq_orElse, Option.orElse_eq_or, Option.none_or] at h
            intro n hn
            rcases List.mem_cons.mp hn with rfl | hn
            · exact own
            · exact ih h n hn

theorem metric_declared (h : catalog.metric key = .ok m) : Declared catalog.schema m.baseTable := by
  have faultless := metric_faultless catalog.faultless m (metric_found h).1
  unfold metricFault? at faultless
  split at faultless
  · cases faultless
  · next known => exact not_not.mp fun undeclared => known (Join.isNone_table?.mpr undeclared)

theorem children_of_hasSubquery {e : Tree.Expr} (h : hasSubquery e = false) : e.children = [] := by
  refine List.filterMap_eq_nil_iff.mpr fun n hn => ?_
  have none := List.any_eq_false.mp h n hn
  simpa using none

/-- What a metric without faults is known to be free of. -/
theorem metric_plain (h : metricFault? s m = none) :
    m.expression.containsAggregate = true ∧ m.expression.children = [] ∧
      ∀ e ∈ m.extraFilters, e.children = [] ∧ e.containsAggregate = false := by
  unfold metricFault? at h
  split at h
  · cases h
  · split at h
    · cases h
    · next aggregates =>
      split at h
      · cases h
      · next subquery =>
        split at h
        · cases h
        · next filters =>
          simp only [Bool.or_eq_true, not_or, Bool.not_eq_true, List.any_eq_false] at subquery
          simp only [Bool.not_eq_true, List.any_eq_false] at filters
          refine ⟨by simpa using aggregates, children_of_hasSubquery subquery.1, fun e he => ?_⟩
          exact ⟨children_of_hasSubquery (by simpa using subquery.2 e he),
            by simpa using filters e he⟩

end ReportSql.Catalog

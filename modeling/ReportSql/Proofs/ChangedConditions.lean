import ReportSql.Proofs.CarriedPasses
import ReportSql.Proofs.ChangedQueries

/-!
The conditions of a query whose WHERE clause was put together anew, or whose nested queries were
changed, and the columns that they mention.
-/
namespace ReportSql.Normalize

open Tree

/-! ### Conjunctions -/

section

variable {f : Query → Query} {cs : List Expr}

theorem conditions_eq (q : Query) : conditions q = q.condition.toList.flatMap Expr.conjuncts := by
  cases h : q.condition <;> simp [conditions, h]

theorem asConjunct_asConjunct (e : Expr) : e.asConjunct.asConjunct = e.asConjunct := by
  cases e with
  | binary a op b => cases op <;> rfl
  | _ => rfl

theorem asConjunct_mapQuery (e : Expr) :
    e.asConjunct.mapQuery f = (e.mapQuery f).asConjunct := by
  cases e with
  | binary a op b => cases op <;> rfl
  | _ => rfl

theorem conjuncts_asConjunct {e : Expr} (h : e.conjuncts = [e]) :
    e.asConjunct.conjuncts = [e.asConjunct] := by
  cases e with
  | binary a op b =>
      cases op with
      | or => rfl
      | _ => exact h
  | _ => exact h

theorem conjunction_asConjunct (cs : List Expr) :
    conjunction (cs.map Expr.asConjunct) = conjunction cs := by
  simp only [conjunction, List.map_map, Function.comp_def, asConjunct_asConjunct]

theorem conjunction_mapQuery (cs : List Expr) :
    (conjunction cs).map (Expr.mapQuery f) = conjunction (cs.map (Expr.mapQuery f)) := by
  have joined (e : Expr) (rest : List Expr) : (rest.foldl Expr.and e).mapQuery f =
      (rest.map (Expr.mapQuery f)).foldl Expr.and (e.mapQuery f) := by
    induction rest generalizing e with
    | nil => rfl
    | cons c rest ih => exact ih (e.and c)
  cases cs with
  | nil => rfl
  | cons c rest =>
      simp only [conjunction, List.map_cons, Option.map_some, joined, List.map_map,
        Function.comp_def, asConjunct_mapQuery]

/-- Conditions joined by AND are what the WHERE clause is split into again. -/
theorem conditions_conjunction (q : Query) (single : ∀ c ∈ cs, c.conjuncts = [c]) :
    conditions { q with condition := conjunction cs } = cs.map Expr.asConjunct := by
  have split : ∀ c ∈ cs, c.asConjunct.conjuncts = [c.asConjunct] :=
    fun c hc => conjuncts_asConjunct (single c hc)
  rw [conditions_eq, conjunction_conjuncts, List.flatMap_def, List.map_congr_left split,
    ← List.flatMap_def, ← List.map_eq_flatMap]

theorem conditions_editConjuncts {q : Query} {edit : List Expr → List Expr}
    (single : ∀ c ∈ edit (conditions q), c.conjuncts = [c]) :
    conditions (q.editConjuncts edit) = (edit (conditions q)).map Expr.asConjunct :=
  conditions_conjunction q single

theorem mem_children_editConjuncts {q c : Query} {edit : List Expr → List Expr} :
    c ∈ (q.editConjuncts edit).children ↔
      c ∈ ({ q with condition := none } : Query).children ∨
        ∃ d ∈ edit (conditions q), c ∈ d.children := by
  rw [← List.mem_flatMap, ← conjunction_children]
  simp only [Query.editConjuncts, Query.children, Query.exprs, Query.allSources,
    List.flatMap_append, List.mem_append, Option.toList_none, List.flatMap_nil, List.not_mem_nil,
    or_false, conditions]
  tauto

theorem mem_children_conditions {q c : Query} : c ∈ q.children ↔
    c ∈ ({ q with condition := none } : Query).children ∨
      ∃ d ∈ conditions q, c ∈ d.children := by
  rw [← children_conditions]
  exact mem_children_editConjuncts

theorem conditions_mapChildren (q : Query) :
    conditions (q.mapChildren f) = (conditions q).map (Expr.mapQuery f) := by
  have own : (q.mapChildren f).condition = q.condition.map (Expr.mapQuery f) := rfl
  rw [conditions_eq, conditions_eq, own]
  cases q.condition with
  | none => rfl
  | some e => simp [conjuncts_mapQuery]

end

/-! ### Columns -/

section

variable {f : Query → Query} {g : Expr → Expr} {scope : TableScope} {name : String} {q : Query}

theorem binding_mem_qualifiersFor {table : String} {t : TableRef} (ht : t ∈ q.namedTables)
    (same : Text.sameIgnoringAsciiCase t.table table = true) :
    t.binding ∈ q.qualifiersFor table := by
  have added : ∀ (ts : List TableRef) (names : List String),
      t.binding ∈ names ∨ t ∈ ts →
      t.binding ∈ ts.foldl (fun names t => addName (addName names t.table) t.binding) names := by
    intro ts
    induction ts with
    | nil => simp
    | cons u ts ih =>
        intro names known
        apply ih
        simp only [mem_addName]
        cases known with
        | inl known => exact .inl (.inl (.inl known))
        | inr known =>
            cases List.mem_cons.mp known with
            | inl own => exact .inl (.inr (by rw [own]))
            | inr later => exact .inr later
  apply added
  exact .inr (List.mem_filter.mpr ⟨ht, same⟩)

theorem binding_mem_qualifiers {table : String} (h : TableScope.of? q table = some scope) :
    scope.binding ∈ scope.qualifiers := by
  obtain ⟨first, found, rfl⟩ := Option.map_eq_some_iff.mp h
  have named := (List.find?_eq_some_iff_append.mp found).1
  exact binding_mem_qualifiersFor (List.mem_of_find?_eq_some found) named

theorem isColumn_binding {table : String} (h : TableScope.of? q table = some scope) :
    scope.isColumn name (.colOf scope.binding name) = true := by
  simp only [TableScope.isColumn, Expr.colOf, Expr.isColumnOf, Bool.and_eq_true, List.any_eq_true]
  refine ⟨?_, scope.binding, binding_mem_qualifiers h, ?_⟩ <;> simp [Text.sameIgnoringAsciiCase]

theorem isColumn_mapParts (e : Expr) :
    scope.isColumn name (e.mapParts g) = scope.isColumn name e := by
  cases e <;> rfl

theorem isColumn_mapQuery (e : Expr) :
    scope.isColumn name (e.mapQuery f) = scope.isColumn name e := by
  rw [mapQuery_eq, isColumn_mapParts]
  cases e <;> rfl

theorem mentions_eq (e : Expr) : scope.mentions name e =
    (scope.isColumn name e || e.parts.any (scope.mentions name)) :=
  e.any_eq _

theorem mentions_mapParts (e : Expr) : scope.mentions name (e.mapParts g) =
    (scope.isColumn name e || e.parts.any fun x => scope.mentions name (g x)) := by
  rw [mentions_eq, isColumn_mapParts, parts_mapParts, List.any_map]
  rfl

theorem mentions_mapQuery (e : Expr) :
    scope.mentions name (e.mapQuery f) = scope.mentions name e :=
  any_mapQuery isColumn_mapQuery e

theorem mentions_asConjunct (e : Expr) :
    scope.mentions name e.asConjunct = scope.mentions name e := by
  cases e with
  | binary a op b => cases op <;> rfl
  | _ => rfl

/-- No mention of a column is left by a replacement that brings in none and replaces the column
wherever it stands. -/
theorem not_mentions_swap {f : Expr → Option Expr} {e : Expr}
    (brought : ∀ x r, f x = some r → scope.mentions name r = false)
    (left : ∀ n ∈ e.nodes, f n = none → scope.isColumn name n = false) :
    scope.mentions name (e.swap f) = false := by
  induction e using Expr.induct with
  | step e ih =>
      cases own : f e with
      | some r =>
          rw [swap_of_some own]
          exact brought e r own
      | none =>
          rw [swap_of_none own, mentions_mapParts, left e e.self_mem_nodes own, Bool.false_or,
            List.any_eq_false]
          intro x hx
          rw [ih x hx fun n hn => left n (Expr.mem_nodes_part hx hn)]
          exact Bool.false_ne_true

theorem not_isColumn_of_not_mentions {e n : Expr} (h : scope.mentions name e = false)
    (hn : n ∈ e.nodes) : scope.isColumn name n = false := by
  cases own : scope.isColumn name n with
  | false => rfl
  | true => rw [← h, mentions_of_node hn own]

end

end ReportSql.Normalize

import ReportSql.Normalize.Chain
import ReportSql.Proofs.Conditions

/-!
What the rewriting passes carry over from a query: its mentions of a parameter, and the conditions
that its rows of a table meet.
-/
namespace ReportSql.Normalize

open Tree
open Text (sameIgnoringAsciiCase)

/-- The relation that a source names. -/
def namedTable? : Source → Option TableRef
  | .named t => some t
  | _ => none

theorem of?_outline {q r : Query} (h : r.outline = q.outline) :
    TableScope.of? r = TableScope.of? q := by
  have named : ∀ q : Query, q.namedTables = q.outline.filterMap namedTable? := by
    intro q
    rw [Query.namedTables, Query.outline, List.filterMap_map]
    congr
    funext s
    cases s <;> rfl
  have length : r.allSources.length = q.allSources.length := by
    simpa [Query.outline] using congrArg List.length h
  funext table
  simp only [TableScope.of?, Query.qualifiersFor, named, h, length]

/-- An expression without queries and aggregates inside that is not joined by OR. -/
structure Plain (c : Expr) : Prop where
  noQuery : c.children = []
  noAggregate : ∀ n ∈ c.nodes, n.isAggregate = false
  noOr : ∀ a b, c ≠ .binary a .or b

/-- What has to be kept of a query. -/
structure Watch where
  /-- Leaves that must not get lost. -/
  test : LeafTest
  table : String
  /-- Which conditions, in a query with some scopes. -/
  safe : (String → Option TableScope) → Expr → Prop
  /-- Whether raw SQL that reads the table may be brought in. -/
  opens : Prop

/-- Whether a query keeps the sources of another one and what is watched of it. -/
structure Carried (v : Watch) (q r : Query) : Prop where
  outline : r.outline = q.outline
  leaves : q.has v.test → r.has v.test
  raw : r.has (.ofRaw (rawReads v.table)) → q.has (.ofRaw (rawReads v.table)) ∨ v.opens
  binds : ∀ c, Plain c → v.safe (TableScope.of? q) c → Binds v.table q c → Binds v.table r c

variable {v : Watch} {q r s : Query}

theorem carried_refl (q : Query) : Carried v q q := ⟨rfl, id, .inl, fun _ _ _ h => h⟩

theorem Carried.trans (h : Carried v q r) (h' : Carried v r s) : Carried v q s where
  outline := h'.outline.trans h.outline
  leaves := h'.leaves ∘ h.leaves
  raw raw := (h'.raw raw).elim h.raw .inr
  binds c plain safe bound := by
    refine h'.binds c plain ?_ (h.binds c plain safe bound)
    rwa [of?_outline h.outline]

theorem Carried.mapChildren (h : Carried v q r) (f g : Query → Query) :
    Carried v (q.mapChildren f) (r.mapChildren g) where
  outline := by simpa using h.outline
  leaves := by simpa only [has_mapChildren] using h.leaves
  raw := by simpa only [has_mapChildren] using h.raw
  binds c plain safe bound := by
    rw [binds_mapChildren plain.noQuery] at bound ⊢
    refine h.binds c plain ?_ bound
    rwa [← of?_outline (outline_mapChildren f q)]

theorem Carried.into (h : Carried v q r) (g : Query → Query) : Carried v q (r.mapChildren g) where
  outline := by simpa using h.outline
  leaves := by simpa only [has_mapChildren] using h.leaves
  raw := by simpa only [has_mapChildren] using h.raw
  binds c plain safe bound := by
    rw [binds_mapChildren plain.noQuery]
    exact h.binds c plain safe bound

/-- Whether a step on a query keeps what is watched, and the queries nested in it. -/
structure Step (v : Watch) (q r : Query) : Prop extends Carried v q r where
  children : r.children = q.children

theorem step_refl (q : Query) : Step v q q := ⟨carried_refl q, rfl⟩

theorem Step.trans (h : Step v q r) (h' : Step v r s) : Step v q s :=
  ⟨h.toCarried.trans h'.toCarried, h'.children.trans h.children⟩

theorem each_carried {step : Query → Query} (h : ∀ q, Step v q (step q)) (q : Query) :
    List.Forall₂ (Carried v) q.queries (q.each step).queries :=
  each_forall₂ carried_refl (fun q f => (h q).toCarried.into f) (fun q => (h q).children) q

/-! ### Replacing nodes -/

/-- A replacement that keeps what is watched. -/
structure Harmless (v : Watch) (scopes : String → Option TableScope) (f : Expr → Option Expr) :
    Prop where
  children : ∀ x r, f x = some r → r.children = x.children
  leaves : ∀ x r, f x = some r → x.has v.test → r.has v.test
  raw : ∀ x r, f x = some r → r.has (.ofRaw (rawReads v.table)) →
    x.has (.ofRaw (rawReads v.table)) ∨ v.opens
  path : ∀ c, Plain c → v.safe scopes c → ∀ g, c ∈ g.conjuncts → f g = none
  inside : ∀ c, Plain c → v.safe scopes c → ∀ n ∈ c.nodes, f n = none

theorem children_swap {f : Expr → Option Expr} (h : ∀ x r, f x = some r → r.children = x.children)
    (e : Expr) : (e.swap f).children = e.children := by
  induction e using Expr.induct with
  | step e ih =>
      cases own : f e with
      | some r => rw [swap_of_some own, h e r own]
      | none =>
          rw [swap_of_none own, Expr.children_eq, query?_mapParts, parts_mapParts,
            List.flatMap_map, e.children_eq, List.flatMap_def, List.flatMap_def,
            List.map_congr_left ih]

theorem Harmless.step {f : Expr → Option Expr} (h : Harmless v (TableScope.of? q) f) :
    Step v q (q.replaceExprs f).1 := by
  rw [Query.replaceExprs_fst]
  have outline : (q.mapParts (Expr.swap f) id).outline = q.outline :=
    outline_mapParts (fun _ => rfl) q
  refine ⟨⟨outline, ?_, ?_, ?_⟩, ?_⟩
  · simp only [has_iff_outline, outline, exprs_mapParts, List.mem_map, exists_exists_and_eq_and]
    exact Or.imp_left fun ⟨e, he, has⟩ => ⟨e, he, has_swap h.leaves has⟩
  · simp only [has_iff_outline, outline, exprs_mapParts, List.mem_map, exists_exists_and_eq_and]
    rintro (⟨e, he, has⟩ | raw)
    · exact (has_of_swap h.raw has).imp_left fun has => .inl ⟨e, he, has⟩
    · exact .inl (.inr raw)
  · intro c plain safe bound
    exact binds_mapParts (fun e he =>
      conjunct_swap he (h.path c plain safe) (swap_eq_self (h.inside c plain safe))) bound
  · have swap : ∀ e : Expr, (e.swap f).children = e.children := children_swap h.children
    simp only [Query.children, exprs_mapParts, allSources_mapParts, List.map_id,
      List.flatMap_map, swap]
    rfl

/-! ### Another WHERE clause -/

theorem editConjuncts_step {edit edit' : List Expr → List Expr}
    (children : ∀ cs, (edit' cs).flatMap Expr.children = (edit cs).flatMap Expr.children)
    (kept : ∀ cs, ∀ c ∈ edit cs, c ∈ edit' cs)
    (new : ∀ cs, ∀ c ∈ edit' cs, c ∈ edit cs ∨ ¬c.has (.ofRaw (rawReads v.table))) :
    Step v (q.editConjuncts edit) (q.editConjuncts edit') := by
  refine ⟨⟨rfl, ?_, ?_, ?_⟩, children_editConjuncts (children _)⟩
  · rw [has_editConjuncts, has_editConjuncts]
    exact Or.imp_right fun ⟨c, hc, has⟩ => ⟨c, kept _ c hc, has⟩
  · rw [has_editConjuncts, has_editConjuncts]
    rintro (has | ⟨c, hc, has⟩)
    · exact .inl (.inl has)
    · exact .inl (.inr ⟨c, (new _ c hc).resolve_right (not_not.mpr has), has⟩)
  · intro c plain safe
    rw [binds_editConjuncts, binds_editConjuncts]
    refine Or.imp_left fun h => ?_
    obtain ⟨e, he, hc⟩ := List.mem_flatMap.mp h
    exact List.mem_flatMap.mpr ⟨e, kept _ e he, hc⟩

theorem editConjuncts_id_step (q : Query) : Step v q (q.editConjuncts id) := by
  refine ⟨⟨rfl, ?_, ?_, ?_⟩, children_conditions⟩
  · rw [has_editConjuncts, has_conditions]
    exact id
  · rw [has_editConjuncts, has_conditions (q := q)]
    exact .inl
  · intro c plain safe
    rw [binds_editConjuncts, binds_conditions]
    refine Or.imp_left fun h => List.mem_flatMap.mpr ⟨c, h, mem_asConjunct ?_ plain.noOr⟩
    rw [conjuncts_conditions h]
    exact List.mem_singleton_self c

/-- Another condition in a WHERE clause. -/
theorem addCondition_step {c : Expr} (children : c.children = [])
    (raw : ¬c.has (.ofRaw (rawReads v.table))) (q : Query) :
    Step v q (q.editConjuncts (· ++ [c])) := by
  refine (editConjuncts_id_step q).trans (editConjuncts_step ?_ ?_ ?_)
  · intro cs
    simp [children]
  · intro cs e he
    exact List.mem_append_left _ he
  · intro cs e he
    rcases List.mem_append.mp he with he | he
    · exact .inl he
    · rw [List.mem_singleton.mp he]
      exact .inr raw

end ReportSql.Normalize

import ReportSql.Proofs.FlatConditions
import ReportSql.Proofs.FreeNames
import ReportSql.Proofs.RereadParts

/-!
What the SELECTs of a query read, and under which conditions. Where the conditions can be read back
term by term, the text of the query is read with the same tables and conditions in each SELECT.
Where one of them is an OR, its text is read as an OR of all the conditions.
-/
namespace ReportSql.Tree

open Normalize (conditions)

variable {e f a b : Expr} {es before after : List Expr} {q : Query} {op : BinaryOp} {n m : Nat}

/-! ### Conditions that are read back -/

theorem reread_and (h : e.reread = .binary a .and b) : ∃ x y, e = .binary x .and y := by
  cases e with
  | literal _ | raw _ =>
      have parts := congrArg Expr.parts h
      rw [(of_isLeaf (isLeaf_reread rfl)).1] at parts
      cases parts
  | binary x op y =>
      obtain ⟨-, rfl, -⟩ := Expr.binary.inj h
      exact ⟨x, y, rfl⟩
  | inList x values negated => cases values <;> cases h
  | _ => cases h

theorem reread_paren (h : e.reread = .paren a) : ∃ x, e = .paren x ∧ x.reread = a := by
  cases e with
  | literal _ | raw _ =>
      have parts := congrArg Expr.parts h
      rw [(of_isLeaf (isLeaf_reread rfl)).1] at parts
      cases parts
  | paren x => exact ⟨x, rfl, Expr.paren.inj h⟩
  | inList x values negated => cases values <;> cases h
  | _ => cases h

theorem conjuncts_reread (e : Expr) : e.reread.conjuncts = e.conjuncts.map Expr.reread := by
  induction e using Expr.conjuncts.induct with
  | case1 a b iha ihb | case2 a b iha ihb =>
      rw [Expr.conjuncts, List.map_append, ← iha, ← ihb]
      rfl
  | case3 e other grouped =>
      rw [conjuncts_leaf other grouped]
      refine conjuncts_leaf (fun a b same => ?_) (fun a b same => ?_)
      · obtain ⟨x, y, rfl⟩ := reread_and same
        exact other x y rfl
      · obtain ⟨inner, rfl, both⟩ := reread_paren same
        obtain ⟨x, y, rfl⟩ := reread_and both
        exact grouped x y rfl

/-- What a SELECT reads, and under which conditions. -/
structure Reading where
  tables : List TableRef
  conditions : List Expr

def Query.reading (q : Query) : Reading := ⟨q.namedTables, conditions q⟩

/-- What the SELECTs of a query read: those that it defines by a name, and then its own. -/
def Query.readings (q : Query) : List Reading :=
  (q.ctes.map Cte.query ++ [q]).map Query.reading

def Reading.reread (r : Reading) : Reading :=
  { r with conditions := r.conditions.map Expr.reread }

theorem conditions_reread (single : q.setOperation = none) :
    conditions q.reread = (conditions q).map Expr.reread := by
  have condition : q.reread.condition = optionReread q.condition := by
    rw [Query.reread_eq, Query.bodyReread, single]
  rw [conditions, conditions, condition]
  cases q.condition with
  | none => rfl
  | some e => exact conjuncts_reread e

theorem namedTables_reread (single : q.setOperation = none) :
    q.reread.namedTables = q.namedTables := by
  have written : q.written = q := by rw [Query.written, single]
  rw [Query.namedTables, allSources_reread, written, List.filterMap_map, Query.namedTables]
  refine List.filterMap_congr fun s _ => ?_
  cases s <;> rfl

theorem reading_reread (single : q.setOperation = none) :
    q.reread.reading = q.reading.reread := by
  rw [Query.reading, namedTables_reread single, conditions_reread single]
  rfl

theorem readings_reread (single : q.setOperation = none)
    (ctes : ∀ c ∈ q.ctes, c.query.setOperation = none) :
    q.reread.readings = q.readings.map Reading.reread := by
  have queries : q.reread.ctes.map Cte.query = (q.ctes.map Cte.query).map Query.reread := by
    rw [Query.reread_eq, List.map_map]
    exact ctesReread_queries _ _
  have all : ∀ r ∈ q.ctes.map Cte.query ++ [q], r.setOperation = none :=
    List.forall_mem_append.mpr
      ⟨List.forall_mem_map.mpr ctes, List.forall_mem_singleton.mpr single⟩
  have blocks : q.reread.ctes.map Cte.query ++ [q.reread] =
      (q.ctes.map Cte.query ++ [q]).map Query.reread := by
    rw [queries, List.map_append, List.map_singleton]
  rw [Query.readings, blocks, Query.readings, List.map_map, List.map_map]
  exact List.map_congr_left fun r hr => reading_reread (all r hr)

/-- Whether a condition is no AND, and is read back as it is. -/
structure Expr.IsKept (e : Expr) : Prop where
  single : e.conjuncts = [e]
  same : e.reread = e

theorem mem_reading_reread (whole : q.condition = filterCondition es) (he : e ∈ es)
    (kept : e.IsKept) : e ∈ q.reading.reread.conditions := by
  have all : conditions q = es.flatMap Expr.conjuncts := by
    rw [conditions, whole]
    exact filterCondition_conjuncts
  have own : e ∈ conditions q := by
    rw [all]
    exact List.mem_flatMap.mpr ⟨e, he, kept.single ▸ List.mem_singleton_self e⟩
  exact List.mem_map.mpr ⟨e, own, kept.same⟩

/-! ### Terms -/

theorem fitsTerms_of_term (single : e.terms = [e]) (term : e.isTerm = true) (depth : e.depth < n) :
    e.FitsTerms n := by
  rw [Expr.FitsTerms, single, List.forall_mem_singleton]
  exact ⟨term, depth⟩

theorem isTerm_of_level (readable : e.isReadable = true)
    (tight : BinaryOp.and.precedence < e.level) : e.isTerm = true := by
  simp [Expr.isTerm, readable, tight]

theorem loose_of_operand (h : e.IsOperand n) : BinaryOp.and.precedence < e.level :=
  lt_of_lt_of_le (by decide) h.level

theorem binary_isTerm (he : e.IsOperand n) (hf : f.IsOperand n)
    (tight : BinaryOp.and.precedence < op.precedence) : (Expr.binary e op f).isTerm = true :=
  isTerm_of_level (binary_fits he hf).1 (lt_min tight (loose_of_operand he))

theorem binary_fitsTerms (he : e.IsOperand n) (hf : f.IsOperand n)
    (tight : BinaryOp.and.precedence < op.precedence) (room : n + 1 < m) :
    (Expr.binary e op f).FitsTerms m := by
  refine fitsTerms_of_term ?_ (binary_isTerm he hf tight) ((binary_fits he hf).2.trans_lt room)
  cases op with
  | and => exact absurd tight (by decide)
  | _ => rfl

theorem isNotTrue_fitsTerms (h : e.IsOperand n) (room : n < m) : e.isNotTrue.FitsTerms m := by
  have edge : 40 ≤ e.edge := le_trans (by decide) h.edge
  refine fitsTerms_of_term rfl (isTerm_of_level ?_ (lt_min (by decide) (loose_of_operand h)))
    (h.fits.2.trans_lt room)
  simp [Expr.isNotTrue, Expr.isReadable, h.fits.1, edge]

theorem isOneOf_fitsTerms (h : e.IsOperand n) (values : ∀ f ∈ es, f.Fits n) (nonempty : es ≠ [])
    (room : n + 1 < m) : (e.isOneOf es).FitsTerms m := by
  obtain ⟨f, fs, rfl⟩ := List.exists_cons_of_ne_nil nonempty
  have list : exprsReadable (f :: fs) = true := exprsReadable_iff.mpr fun x hx => (values x hx).1
  have edge : Sql.Grammar.testPrecedence ≤ e.edge := le_trans (by decide) h.edge
  refine fitsTerms_of_term rfl (isTerm_of_level ?_ (lt_min (by decide) (loose_of_operand h))) ?_
  · simp [Expr.isOneOf, Expr.isReadable, h.fits.1, list, edge]
  · have depth := exprsDepth_le.mpr fun x hx => (values x hx).2
    exact (Nat.max_le.mpr ⟨h.fits.2.trans (Nat.le_succ n), Nat.succ_le_succ depth⟩).trans_lt room

theorem ifElse_fits {condition : Expr} (hc : condition.Fits n) (he : e.Fits n) (hf : f.Fits n) :
    (Expr.ifElse condition e f).Fits (n + 1) := by
  constructor
  · simp [Expr.ifElse, Expr.isReadable, optionReadable, branchesReadable, hc.1, he.1, hf.1]
  · have first := hc.2
    have second := he.2
    have third := hf.2
    simp only [Expr.ifElse, Expr.depth, optionDepth, branchesDepth]
    omega

theorem and_fitsTerms (he : e.FitsTerms n) (hf : f.FitsTerms n) : (e.and f).FitsTerms n :=
  List.forall_mem_append.mpr ⟨he, hf⟩

/-- Two terms in parentheses with AND between them. -/
theorem paren_and_operand (he : e.isTerm = true) (hf : f.isTerm = true) (first : e.depth ≤ n)
    (second : f.depth < n) : (Expr.paren (e.and f)).IsOperand (n + 1) :=
  have terms : ∀ c ∈ [f], c.isTerm = true := List.forall_mem_singleton.mpr hf
  paren_operand ⟨(foldl_and_readable he terms).1,
    foldl_and_depth first (List.forall_mem_singleton.mpr second)⟩

theorem flatMap_terms_fit (h : ∀ f ∈ es, f.FitsTerms n) :
    ∀ c ∈ es.flatMap Expr.terms, c.isTerm = true ∧ c.depth < n := by
  intro c hc
  obtain ⟨f, hf, own⟩ := List.mem_flatMap.mp hc
  exact h f hf c own

/-- Conditions whose terms can be read back can be read back together. -/
theorem regroup_fits (h : ∀ f ∈ es, f.FitsTerms n) :
    ∀ e ∈ regroup (filterCondition es), e.Fits n := by
  have terms := flatMap_terms_fit h
  rw [regroup_filterCondition]
  have readable := filterCondition_readable fun f hf => (terms f hf).1
  have depth := filterCondition_depth fun f hf => (terms f hf).2
  exact fun e he => ⟨optionReadable_iff.mp readable e he, optionDepth_le.mp depth e he⟩

/-! ### Conditions that are regrouped -/

/-- A query with the terms of its condition joined from the left. -/
def Query.regroupWhere (q : Query) : Query := { q with condition := regroup q.condition }

/-- A query with the terms of its conditions joined from the left, in the queries that it defines,
too. -/
def Query.regrouped (q : Query) : Query :=
  { q.regroupWhere with ctes := q.ctes.map fun c => { c with query := c.query.regroupWhere } }

/-- Whether a query and the queries that it defines are plain. -/
structure Query.AllPlain (q : Query) : Prop where
  own : q.IsPlain
  ctes : ∀ c ∈ q.ctes, c.query.IsPlain

theorem tokens_withCondition {c : Option Expr} (plain : q.IsPlain)
    (same : whereTokens c = whereTokens q.condition) :
    ({ q with condition := c } : Query).tokens = q.tokens := by
  have other : ({ q with condition := c } : Query).IsPlain :=
    ⟨plain.setOperation, plain.having, plain.distinct, plain.recursive⟩
  rw [Query.tokens_eq plain, Query.tokens_eq other, same]

theorem tokens_regroupWhere (plain : q.IsPlain) : q.regroupWhere.tokens = q.tokens :=
  tokens_withCondition plain (whereTokens_regroup q.condition)

theorem tokens_regrouped (plain : q.AllPlain) : q.regrouped.tokens = q.tokens := by
  have definitions : q.regrouped.ctes.map Cte.tokens = q.ctes.map Cte.tokens := by
    simp only [Query.regrouped, List.map_map]
    refine List.map_congr_left fun c hc => ?_
    obtain ⟨name, columns, query, recursive⟩ := c
    simp only [Function.comp, Cte.tokens, tokens_regroupWhere (plain.ctes _ hc)]
  have regrouped : q.regrouped.IsPlain := by
    refine ⟨plain.own.setOperation, plain.own.having, plain.own.distinct, ?_⟩
    exact List.forall_mem_map.mpr plain.own.recursive
  rw [Query.tokens_eq plain.own, Query.tokens_eq regrouped, definitions]
  simp only [Query.regrouped, Query.regroupWhere, whereTokens_regroup]

theorem reading_regroupWhere (q : Query) : q.regroupWhere.reading = q.reading :=
  congrArg (Reading.mk q.namedTables) (regroup_conjuncts q.condition)

theorem readings_regrouped (q : Query) : q.regrouped.readings = q.readings := by
  have own : q.regrouped.reading = q.reading := reading_regroupWhere q
  simp only [Query.readings, List.map_append, List.map_singleton, own]
  refine congrArg (· ++ _) ?_
  simp only [Query.regrouped, List.map_map]
  exact List.map_congr_left fun c _ => reading_regroupWhere c.query

/-- Whether the text of a query can be read back with its conditions regrouped. -/
structure Query.ReadsBack (q : Query) : Prop where
  plain : q.AllPlain
  readable : q.regrouped.isReadable = true
  depth : q.regrouped.depth ≤ 48

theorem sql_regrouped (plain : q.AllPlain) : q.regrouped.sql = q.sql :=
  congrArg Output.sqlText (tokens_regrouped plain)

theorem readings_regrouped_reread (plain : q.AllPlain) :
    q.regrouped.reread.readings = q.readings.map Reading.reread := by
  have single : q.regrouped.setOperation = none := plain.own.setOperation
  rw [readings_reread single, readings_regrouped]
  exact List.forall_mem_map.mpr fun c hc => (plain.ctes c hc).setOperation

/-- Where the terms of its conditions can be read back, a query is read back with the same tables
and the same conditions, SELECT by SELECT. -/
theorem readings_read (h : q.ReadsBack) :
    ∃ r, Query.read q.sql = .ok r ∧ r.readings = q.readings.map Reading.reread :=
  ⟨q.regrouped.reread, sql_regrouped h.plain ▸ queryText_read h.readable h.depth,
    readings_regrouped_reread h.plain⟩

/-! ### Conditions that are split -/

theorem or_among_fits (he : e.isTerm = true ∧ e.depth < n)
    (hbefore : ∀ f ∈ before, f.isTerm = true ∧ f.depth < n) (ha : a.isTerm = true ∧ a.depth < n)
    (hb : b.isTerm = true ∧ b.depth < n) (hafter : ∀ f ∈ after, f.isTerm = true ∧ f.depth < n) :
    (((before ++ [a]).foldl Expr.and e).or (after.foldl Expr.and b)).Fits (n + 1) := by
  have others : ∀ f ∈ before ++ [a], f.depth < n := List.forall_mem_append.mpr
    ⟨fun f hf => (hbefore f hf).2, List.forall_mem_singleton.mpr ha.2⟩
  have left : ((before ++ [a]).foldl Expr.and e).depth ≤ n := foldl_and_depth he.2.le others
  have right : (after.foldl Expr.and b).depth ≤ n :=
    foldl_and_depth hb.2.le fun f hf => (hafter f hf).2
  refine ⟨or_among_readable he.1 (fun f hf => (hbefore f hf).1) ha.1 hb.1
    fun f hf => (hafter f hf).1, ?_⟩
  exact Nat.max_le.mpr ⟨left.trans (Nat.le_succ n), Nat.succ_le_succ right⟩

/-- An OR of two terms among other terms is read as an OR of all of them: what comes before it stays
with its first branch, and what comes after it goes with the second. -/
theorem or_read (plain : q.IsPlain) (fits : Query.Fits n { q with condition := none })
    (room : n ≤ 46) (whole : q.condition = filterCondition es)
    (split : es.flatMap Expr.terms = e :: before ++ a.or b :: after)
    (terms : ∀ f ∈ e :: before ++ a :: b :: after, f.isTerm = true ∧ f.depth < n) :
    ∃ r, ∃ x y : Expr, Query.read q.sql = .ok r ∧ r.condition = some (x.or y) ∧
      x.conjuncts = ((e :: before ++ [a]).flatMap Expr.conjuncts).map Expr.reread ∧
      y.conjuncts = ((b :: after).flatMap Expr.conjuncts).map Expr.reread := by
  simp only [List.cons_append, List.forall_mem_cons, List.forall_mem_append] at terms
  obtain ⟨he, hbefore, ha, hb, hafter⟩ := terms
  let left := (before ++ [a]).foldl Expr.and e
  let right := after.foldl Expr.and b
  let read : Query := { q with condition := some (left.or right) }
  have grouped : regroup q.condition =
      some (((a.or b) :: after).foldl Expr.and (before.foldl Expr.and e)) := by
    rw [whole, regroup_filterCondition, split, List.cons_append, filterCondition_cons,
      List.foldl_append]
  have same : whereTokens (some (left.or right)) = whereTokens q.condition := by
    rw [← whereTokens_regroup q.condition, grouped, whereTokens, whereTokens, tokens_or_among]
  have written : read.sql = q.sql := congrArg Output.sqlText (tokens_withCondition plain same)
  have all : read.Fits (n + 1) := { fits.mono (Nat.le_succ n) with
    condition := by
      rintro _ ⟨⟩
      exact or_among_fits he hbefore ha hb hafter }
  obtain ⟨readable, depth⟩ := query_fits all
  refine ⟨read.reread, left.reread, right.reread,
    written ▸ queryText_read readable (depth.trans (by omega)), ?_, ?_, ?_⟩
  · have single : read.setOperation = none := plain.setOperation
    rw [Query.reread_eq, Query.bodyReread, single]
    rfl
  · rw [conjuncts_reread, foldl_and_conjuncts, List.cons_append, List.flatMap_cons]
  · rw [conjuncts_reread, foldl_and_conjuncts, List.flatMap_cons]

end ReportSql.Tree

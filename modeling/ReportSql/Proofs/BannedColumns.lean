import ReportSql.Proofs.ChangedConditions
import ReportSql.Settings.Basic

/-!
Banned columns. In each query that names the table, the references to a banned column get the name
of the column to use instead. The bans are applied one after the other, so that one may bring in
what an earlier one replaced; where none does, no reference to a banned column is left that a query
makes to a relation in its own FROM list, and a second time nothing is replaced.
-/
namespace ReportSql.Tree

/-- Nothing is replaced in a query where nothing in its expressions is. -/
theorem replaceExprs_none {f : Expr → Option Expr} {q : Query}
    (h : ∀ e ∈ q.exprs, ∀ n ∈ e.nodes, f n = none) :
    q.replaceExprs f = (q, 0) := by
  have still : ∀ e ∈ q.exprs, ((e.replace f).1, 0 + (e.replace f).2) = (e, 0) := by
    intro e he
    rw [replace_none (h e he), Nat.add_zero]
  exact mapExprs_still still

end ReportSql.Tree

namespace ReportSql.Normalize

open Tree
open Text (sameIgnoringAsciiCase)

/-! ### References -/

/-- The columns that an expression refers to, each with its qualifier. -/
def columnRefs (e : Expr) : List (Option String × String) :=
  e.nodes.filterMap fun
    | .column table name => some (table, name)
    | _ => none

/-- Whether a qualifier stands for a relation in the FROM list of a query: for the one that goes by
it, or where there is none for the only source. -/
inductive RefersTo (q : Query) : Option String → TableRef → Prop where
  | bound {t : TableRef} : .named t ∈ q.allSources → RefersTo q (some t.binding) t
  | alone {t : TableRef} : q.allSources = [.named t] → RefersTo q none t

section

variable {q : Query} {b : BannedColumn} {scope : TableScope}

/-- A reference to a relation by the name that it goes by is one to its table. -/
theorem isColumn_of_refersTo {qualifier : Option String} {t : TableRef} {own table name : String}
    (h : RefersTo q qualifier t) (ht : sameIgnoringAsciiCase t.table table = true)
    (hn : sameIgnoringAsciiCase own name = true) :
    ∃ scope, TableScope.of? q table = some scope ∧
      scope.isColumn name (.column qualifier own) = true := by
  have source : .named t ∈ q.allSources := by
    cases h with
    | bound source => exact source
    | alone only => simp [only]
  have named : t ∈ q.namedTables := List.mem_filterMap.mpr ⟨_, source, rfl⟩
  obtain ⟨scope, hs⟩ := of?_of_names ⟨t, named, ht⟩
  refine ⟨scope, hs, ?_⟩
  obtain ⟨first, -, rfl⟩ := Option.map_eq_some_iff.mp hs
  cases h with
  | bound _ =>
      simp only [TableScope.isColumn, Expr.isColumnOf, Bool.and_eq_true, List.any_eq_true]
      refine ⟨hn, t.binding, binding_mem_qualifiersFor named ht, ?_⟩
      simp [sameIgnoringAsciiCase]
  | alone only => simp [TableScope.isColumn, Expr.isColumnOf, hn, only]

/-- What a reference becomes in a query that names the table. -/
def BannedColumn.rename (b : BannedColumn) (scope : TableScope) (ref : Option String × String) :
    Option String × String :=
  if scope.isColumn b.column (.column ref.1 ref.2) then (ref.1, b.replacement) else ref

theorem not_isColumn_of_replace? {e : Expr} (h : b.replace? scope e = none) :
    scope.isColumn b.column e = false := by
  cases e with
  | column table own =>
      simp only [BannedColumn.replace?, ite_eq_right_iff] at h
      cases own : scope.isColumn b.column (.column table own) with
      | false => rfl
      | true => cases h own
  | _ => rfl

/-- Just the references to the banned column get another name. -/
theorem columnRefs_replace (e : Expr) :
    columnRefs (e.swap (b.replace? scope)) = (columnRefs e).map (b.rename scope) := by
  have parts (e : Expr) : columnRefs e = (match e with
      | .column table name => [(table, name)]
      | _ => []) ++ e.parts.flatMap columnRefs := by
    rw [columnRefs, e.nodes_eq, List.filterMap_cons, List.filterMap_flatMap]
    cases e <;> rfl
  induction e using Expr.induct with
  | step e ih =>
      cases replaced : b.replace? scope e with
      | some r =>
          obtain ⟨column, table, own, rfl, rfl⟩ := replace?_column replaced
          rw [swap_of_some replaced]
          simp [columnRefs, Expr.nodes, BannedColumn.rename, column]
      | none =>
          have stays := not_isColumn_of_replace? replaced
          rw [swap_of_none replaced, parts, parts e, parts_mapParts, List.map_append,
            List.flatMap_map, List.map_flatMap]
          congr 1
          · cases e with
            | column table own => simp [Expr.mapParts, BannedColumn.rename, stays]
            | _ => rfl
          · rw [List.flatMap_def, List.flatMap_def, List.map_congr_left ih]

end

/-! ### A ban -/

section

variable {b later : BannedColumn} {q r c : Query}

/-- What a query becomes. -/
inductive BannedColumn.Renames (b : BannedColumn) : Query → Query → Prop where
  | unnamed {q : Query} : TableScope.of? q b.table = none → Renames b q q
  | named {q : Query} {scope : TableScope} : TableScope.of? q b.table = some scope →
      Renames b q (q.mapParts (Expr.swap (b.replace? scope)) id)

theorem replaceIn_renames (b : BannedColumn) (q : Query) : b.Renames q (b.replaceIn q).1 := by
  rw [BannedColumn.replaceIn]
  cases hs : TableScope.of? q b.table with
  | none => exact .unnamed hs
  | some scope =>
      simp only [Query.replaceExprs_fst]
      exact .named hs

theorem BannedColumn.Renames.outline (h : b.Renames q r) : r.outline = q.outline := by
  cases h with
  | unnamed _ => rfl
  | named _ => exact outline_mapParts (fun _ => rfl) q

theorem BannedColumn.Renames.children (h : b.Renames q r) : r.children = q.children := by
  cases h with
  | unnamed _ => rfl
  | @named scope _ =>
      have swap : ∀ e : Expr, (e.swap (b.replace? scope)).children = e.children := by
        apply children_swap
        intro e r replaced
        obtain ⟨-, table, own, rfl, rfl⟩ := replace?_column replaced
        rfl
      simp only [Query.children, exprs_mapParts, allSources_mapParts, List.map_id,
        List.flatMap_map, swap]
      rfl

theorem banApply_changedBy (b : BannedColumn) (q : Query) : q.ChangedBy b.Renames (b.apply q).1 := by
  rw [banApply_fst]
  apply each_changedBy (replaceIn_renames b)
  intro q c hc
  rwa [← (replaceIn_renames b q).children]

/-- The queries of a statement after a ban are those before it with other expressions. -/
theorem banApply_query (hc : c ∈ (b.apply q).1.queries) :
    ∃ a ∈ q.queries, c.outline = a.outline ∧ ∃ (m : Query) (f : Query → Query), b.Renames a m ∧
      c.exprs = m.exprs.map (Expr.mapQuery f) := by
  obtain ⟨a, ha, m, f, renames, -, rfl⟩ :=
    (banApply_changedBy b q).query (fun _ _ renames c hc => renames.children ▸ hc) hc
  refine ⟨a, ha, ?_, m, f, renames, exprs_mapParts m⟩
  rw [outline_mapChildren, renames.outline]

/-- Whether no query of a statement that names the table refers to the banned column of it. -/
def BannedColumn.IsGone (b : BannedColumn) (q : Query) : Prop :=
  ∀ c ∈ q.queries, ∀ scope, TableScope.of? c b.table = some scope →
    ∀ e ∈ c.exprs, scope.mentions b.column e = false

theorem not_mentions_replacement {scope other : TableScope} {name : String}
    (kept : sameIgnoringAsciiCase b.replacement name = false) {e r : Expr}
    (h : b.replace? other e = some r) : scope.mentions name r = false := by
  obtain ⟨-, table, own, -, rfl⟩ := replace?_column h
  cases table <;>
    simp [mentions_eq, TableScope.isColumn, Expr.isColumnOf, Expr.parts, kept]

theorem isGone_apply (proper : sameIgnoringAsciiCase b.replacement b.column = false) (q : Query) :
    b.IsGone (b.apply q).1 := by
  intro c hc scope hs e he
  obtain ⟨a, -, outline, m, f, renames, exprs⟩ := banApply_query hc
  rw [of?_outline outline] at hs
  rw [exprs] at he
  obtain ⟨e, renamed, rfl⟩ := List.mem_map.mp he
  rw [mentions_mapQuery]
  cases renames with
  | unnamed none => simp [hs] at none
  | @named own named =>
      obtain rfl := Option.some.inj (hs.symm.trans named)
      rw [exprs_mapParts] at renamed
      obtain ⟨e, -, rfl⟩ := List.mem_map.mp renamed
      apply not_mentions_swap
      · exact fun _ _ => not_mentions_replacement proper
      · exact fun _ _ => not_isColumn_of_replace?

/-- A column that is gone stays so where another ban does not bring it in. -/
theorem BannedColumn.IsGone.apply (h : b.IsGone q)
    (kept : sameIgnoringAsciiCase later.replacement b.column = false) :
    b.IsGone (later.apply q).1 := by
  intro c hc scope hs e he
  obtain ⟨a, ha, outline, m, f, renames, exprs⟩ := banApply_query hc
  rw [of?_outline outline] at hs
  rw [exprs] at he
  obtain ⟨e, renamed, rfl⟩ := List.mem_map.mp he
  rw [mentions_mapQuery]
  cases renames with
  | unnamed _ => exact h a ha scope hs e renamed
  | named _ =>
      rw [exprs_mapParts] at renamed
      obtain ⟨e, own, rfl⟩ := List.mem_map.mp renamed
      apply not_mentions_swap
      · exact fun _ _ => not_mentions_replacement kept
      · intro n hn _
        exact not_isColumn_of_not_mentions (h a ha scope hs e own) hn

/-- Where a column is gone there is nothing to replace. -/
theorem BannedColumn.IsGone.settled (h : b.IsGone q) : b.apply q = (q, 0) := by
  have still : ∀ c ∈ q.queries, b.replaceIn c = (c, 0) := by
    intro c hc
    rw [BannedColumn.replaceIn]
    cases hs : TableScope.of? c b.table with
    | none => rfl
    | some scope =>
        apply replaceExprs_none
        intro e he n hn
        have other := not_isColumn_of_not_mentions (h c hc scope hs e he) hn
        cases replaced : b.replace? scope n with
        | none => rfl
        | some r =>
            obtain ⟨column, _, _, rfl, -⟩ := replace?_column replaced
            rw [other] at column
            cases column
  have quiet : ∀ c ∈ q.queries, ((b.replaceIn c).1, 0 + (b.replaceIn c).2) = (c, 0) := by
    intro c hc
    rw [still c hc, Nat.add_zero]
  exact forEachM_still quiet

end

/-! ### Bans one after the other -/

section

variable {bans : List BannedColumn} {q : Query} {settings : Settings}

/-- Whether no ban brings in a column that it replaces itself or that an earlier one replaced. -/
structure AreLasting (bans : List BannedColumn) : Prop where
  proper : ∀ b ∈ bans, sameIgnoringAsciiCase b.replacement b.column = false
  inOrder : bans.Pairwise fun earlier later =>
    sameIgnoringAsciiCase later.replacement earlier.column = false

theorem isGone_bans {b : BannedColumn} (gone : b.IsGone q)
    (kept : ∀ later ∈ bans, sameIgnoringAsciiCase later.replacement b.column = false) :
    b.IsGone (bans.foldl (fun q b => (b.apply q).1) q) := by
  induction bans generalizing q with
  | nil => exact gone
  | cons later rest ih =>
      apply ih
      · exact gone.apply (kept later List.mem_cons_self)
      · exact fun b hb => kept b (List.mem_cons_of_mem _ hb)

theorem bans_gone (h : AreLasting bans) (q : Query) : ∀ b ∈ bans, b.IsGone (applyBans bans q).1 := by
  rw [applyBans_fst]
  obtain ⟨proper, inOrder⟩ := h
  induction bans generalizing q with
  | nil => exact fun _ hb => absurd hb List.not_mem_nil
  | cons first rest ih =>
      obtain ⟨kept, inOrder⟩ := List.pairwise_cons.mp inOrder
      intro b hb
      cases List.mem_cons.mp hb with
      | inl same =>
          rw [same, List.foldl_cons]
          exact isGone_bans (isGone_apply (proper first List.mem_cons_self) q) kept
      | inr later =>
          exact ih _ (fun b hb => proper b (List.mem_cons_of_mem _ hb)) inOrder b later

theorem bans_settled (h : ∀ b ∈ bans, b.IsGone q) : applyBans bans q = (q, false) := by
  have fold : bans.foldl
      (fun acc b => ((b.apply acc.1).1, acc.2 + (b.apply acc.1).2)) (q, 0) = (q, 0) := by
    induction bans with
    | nil => rfl
    | cons b rest ih =>
        rw [List.foldl_cons, (h b List.mem_cons_self).settled]
        exact ih fun b hb => h b (List.mem_cons_of_mem _ hb)
  have unfolded : applyBans bans q = ((bans.foldl
      (fun acc b => ((b.apply acc.1).1, acc.2 + (b.apply acc.1).2)) (q, 0)).1,
      (bans.foldl (fun acc b => ((b.apply acc.1).1, acc.2 + (b.apply acc.1).2)) (q, 0)).2 != 0) :=
    rfl
  rw [unfolded, fold]
  rfl

/-- Settings that pass their check have no ban that replaces a column by itself. -/
theorem proper_of_check (checked : settings.check = .ok ()) :
    ∀ b ∈ settings.rules.bannedColumns,
      sameIgnoringAsciiCase b.replacement b.column = false := by
  intro b hb
  have faultless : settings.fault? = none := by
    rw [Settings.check] at checked
    cases fault : settings.fault? with
    | none => rfl
    | some fault => simp [fault] at checked
  have bans : settings.rules.bannedColumns.findSome? Settings.banFault? = none := by
    rw [Settings.fault?] at faultless
    grind
  have own := List.findSome?_eq_none_iff.mp bans b hb
  rw [Settings.banFault?] at own
  cases same : sameIgnoringAsciiCase b.replacement b.column with
  | false => rfl
  | true =>
      have turned : sameIgnoringAsciiCase b.column b.replacement = true := by
        simp only [sameIgnoringAsciiCase, beq_iff_eq] at same ⊢
        exact same.symm
      simp only [turned, if_true] at own
      split at own <;> cases own

/-- Where no ban brings back what an earlier one replaced, no query refers to a banned column of a
relation in its own FROM list afterwards, and a second time nothing is replaced. -/
theorem bans_last (checked : settings.check = .ok ())
    (inOrder : settings.rules.bannedColumns.Pairwise fun earlier later =>
      sameIgnoringAsciiCase later.replacement earlier.column = false) (q : Query) :
    (∀ c ∈ (applyBans settings.rules.bannedColumns q).1.queries, ∀ e ∈ c.exprs,
      ∀ ref ∈ columnRefs e, ∀ t, RefersTo c ref.1 t → ∀ b ∈ settings.rules.bannedColumns,
        sameIgnoringAsciiCase t.table b.table = true →
        sameIgnoringAsciiCase ref.2 b.column = false) ∧
      applyBans settings.rules.bannedColumns (applyBans settings.rules.bannedColumns q).1 =
        ((applyBans settings.rules.bannedColumns q).1, false) := by
  have gone := bans_gone ⟨proper_of_check checked, inOrder⟩ q
  refine ⟨?_, bans_settled gone⟩
  intro c hc e he ref href t refers b hb ht
  cases same : sameIgnoringAsciiCase ref.2 b.column with
  | false => rfl
  | true =>
      obtain ⟨scope, hs, column⟩ := isColumn_of_refersTo refers ht same
      obtain ⟨n, hn, own⟩ := List.mem_filterMap.mp href
      cases n with
      | column table name =>
          cases own
          have free := not_isColumn_of_not_mentions (gone b hb c hc scope hs e he) hn
          rw [free] at column
          cases column
      | _ => cases own

end

example (q : Query) : applyBans Rules.default.bannedColumns
    (applyBans Rules.default.bannedColumns q).1 =
      ((applyBans Rules.default.bannedColumns q).1, false) := by
  have checked : Settings.default.check = .ok () := by decide
  exact (bans_last checked (by decide) q).2

/-- The usual settings with a ban that brings in what the one before it replaced. -/
def bansInTurn : Settings :=
  { Settings.default with
    rules := { Rules.default with
      bannedColumns := [⟨"sales", "sold_on", "created_at"⟩, ⟨"sales", "sold_at", "sold_on"⟩] } }

/-- Settings are not checked for that, and a second time the column is replaced once more. -/
theorem bansInTurn_replace_again : bansInTurn.check = .ok () ∧ ∃ q : Query,
    (applyBans bansInTurn.rules.bannedColumns
      (applyBans bansInTurn.rules.bannedColumns q).1).2 = true := by
  refine ⟨by decide, (Query.empty.select [(Expr.colOf "sales" "sold_at").item]).addSource
    (.ofName "sales"), ?_⟩
  decide +kernel

/-- Sales with items, where the nested query refers to the sale around it. -/
def salesWithItems : Query :=
  let items := ((Query.empty.select [(Expr.int 1).item]).addSource
    (.named ⟨none, "items", some "i"⟩)).filter
      ((Expr.colOf "i" "sold_at").eq (Expr.colOf "s" "closed_at"))
  ((Query.empty.select [(Expr.int 1).item]).addSource
    (.named ⟨none, "sales", some "s"⟩)).filter (.exists items false)

/-- A reference to a relation in the FROM list of a query further out is not replaced. -/
theorem salesWithItems_unchanged :
    (salesWithItems.queries.any fun c => c.exprs.any fun e =>
      (columnRefs e).contains (some "s", "closed_at")) = true ∧
      RefersTo salesWithItems (some "s") ⟨none, "sales", some "s"⟩ ∧
      (applyBans Rules.default.bannedColumns salesWithItems).2 = false := by
  refine ⟨by decide +kernel, ?_, by decide +kernel⟩
  exact .bound (t := ⟨none, "sales", some "s"⟩) List.mem_cons_self

end ReportSql.Normalize

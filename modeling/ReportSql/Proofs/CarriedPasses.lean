import ReportSql.Proofs.CarriedChecks
import ReportSql.Proofs.Outcomes
import ReportSql.Proofs.SameTree

/-!
The rewriting passes one by one: each keeps the mentions and the conditions that it leaves alone.
-/
namespace ReportSql.Normalize

open Tree
open Text (sameIgnoringAsciiCase)

variable {v : Watch}

/-- Related lists of queries are related through a third one. -/
theorem carried_trans {qs rs ss : List Query} (h : List.Forall₂ (Carried v) qs rs)
    (h' : List.Forall₂ (Carried v) rs ss) : List.Forall₂ (Carried v) qs ss := by
  induction h generalizing ss with
  | nil => exact h'
  | cons first _ ih =>
      cases h' with
      | cons next rest => exact .cons (first.trans next) (ih rest)

/-! ### Nodes of an expression -/

theorem mentions_of_node {scope : TableScope} {name : String} {c n : Expr} (hn : n ∈ c.nodes)
    (h : scope.isColumn name n = true) : scope.mentions name c = true :=
  List.any_eq_true.mpr ⟨n, hn, h⟩

theorem not_has_column {t : LeafTest} (table : Option String) (own : String) :
    ¬(Expr.column table own).has t := by
  simp [Expr.has, Expr.any, Expr.nodes, LeafTest.holds]

/-! ### The last week -/

/-- Leaves out the conditions of a query on the date if it names the table. -/
def WeekTarget.drop (t : WeekTarget) (q : Query) : Query :=
  match TableScope.of? q t.table with
  | none => q
  | some scope => q.editConjuncts fun cs => cs.filter fun c => !t.isAbout scope c

/-- Leaves out the conditions that give way to the last week. -/
def RelativeWeek.drop (w : RelativeWeek) (question : String) (q : Query) : Query :=
  if w.isAsked question then
    match w.targets.find? fun t => q.reads t.table with
    | some t => q.each t.drop
    | none => q
  else q

theorem replaceWhere_filter (isDropped : Expr → Bool) (new cs : List Expr) :
    ∃ before after, replaceWhere isDropped new cs = before ++ new ++ after ∧
      (cs.filter fun c => !isDropped c) = before ++ after := by
  refine ⟨_, _, rfl, ?_⟩
  induction cs with
  | nil => rfl
  | cons c rest ih =>
      cases h : isDropped c
      · simpa [h] using ih
      · simp [h]

theorem window_children (t : WeekTarget) (scope : TableScope) (today : Date) :
    (t.window scope today).flatMap Expr.children = [] := rfl

theorem window_raw {t : WeekTarget} {scope : TableScope} {today : Date} {c : Expr}
    {p : String → Bool} (h : c ∈ t.window scope today) : ¬c.has (.ofRaw p) := by
  simp only [WeekTarget.window, List.mem_cons, List.not_mem_nil, or_false] at h
  rcases h with rfl | rfl <;> rintro ⟨⟩

theorem limit_step (t : WeekTarget) (today : Date) (q : Query) :
    Step v (t.drop q) (t.limit today q).1 := by
  unfold WeekTarget.drop WeekTarget.limit
  cases TableScope.of? q t.table with
  | none => exact step_refl q
  | some scope =>
      refine editConjuncts_step (fun cs => ?_) (fun cs c hc => ?_) (fun cs c hc => ?_)
      all_goals
        obtain ⟨before, after, replaced, filtered⟩ :=
          replaceWhere_filter (t.isAbout scope) (t.window scope today) cs
      · rw [replaced, filtered]
        simp [window_children]
      · rw [filtered] at hc
        rw [replaced]
        grind
      · rw [replaced] at hc
        rw [filtered]
        rcases List.mem_append.mp hc with hc | hc
        · rcases List.mem_append.mp hc with hc | hc
          · exact .inl (List.mem_append_left _ hc)
          · exact .inr (window_raw hc)
        · exact .inl (List.mem_append_right _ hc)

theorem forEachChanged_fst (step : Query → Query × Bool) (q : Query) :
    (forEachChanged step q).1 = q.each fun q => (step q).1 := by
  have count : ∀ q, Yields (m := StateM Bool)
      (fun changed => ((step q).1, changed || (step q).2)) (step q).1 :=
    fun q => yields_of_state fun _ => rfl
  exact yields_state (yields_compositional.forEach count q) false

/-- What is left where the conditions on the date are left out is still there. -/
theorem week_carried (w : RelativeWeek) (question : String) (today : Date) (q : Query) :
    List.Forall₂ (Carried v) (w.drop question q).queries (w.apply question today q).1.queries := by
  unfold RelativeWeek.drop RelativeWeek.apply
  split
  · cases w.targets.find? fun t => q.reads t.table with
    | some t =>
        simp only [forEachChanged_fst]
        exact eachWithin_forall₂ carried_refl
          (fun q f g => (limit_step t today q).mapChildren f g)
          (fun q => (limit_step (v := v) t today q).children.symm) _ q
    | none => exact List.forall₂_same.mpr fun b _ => carried_refl b
  · exact List.forall₂_same.mpr fun b _ => carried_refl b

/-! ### Banned columns -/

theorem replace?_column {b : BannedColumn} {scope : TableScope} {x r : Expr}
    (h : b.replace? scope x = some r) : scope.isColumn b.column x = true ∧
      ∃ table own, x = .column table own ∧ r = .column table b.replacement := by
  cases x with
  | column table own =>
      simp only [BannedColumn.replace?, Option.ite_none_right_eq_some, Option.some.injEq] at h
      exact ⟨h.1, table, own, rfl, h.2.symm⟩
  | _ => cases h

theorem ban_step {b : BannedColumn}
    (safe : ∀ scopes c, v.safe scopes c →
      ∀ scope, scopes b.table = some scope → scope.mentions b.column c = false) (q : Query) :
    Step v q (b.replaceIn q).1 := by
  unfold BannedColumn.replaceIn
  cases hs : TableScope.of? q b.table with
  | none => exact step_refl q
  | some scope =>
      refine Harmless.step ⟨?_, ?_, ?_, ?_, ?_⟩
      · intro x r h
        obtain ⟨-, table, own, rfl, rfl⟩ := replace?_column h
        rfl
      · intro x r h has
        obtain ⟨-, table, own, rfl, rfl⟩ := replace?_column h
        exact absurd has (not_has_column _ _)
      · intro x r h has
        obtain ⟨-, table, own, rfl, rfl⟩ := replace?_column h
        exact absurd has (not_has_column _ _)
      · intro c _ hc g hg
        by_contra h
        obtain ⟨r, h⟩ := Option.ne_none_iff_exists'.mp h
        obtain ⟨col, table, own, rfl, -⟩ := replace?_column h
        obtain rfl := List.mem_singleton.mp hg
        have free := safe _ _ hc scope hs
        rw [mentions_of_node (Expr.self_mem_nodes _) col] at free
        cases free
      · intro c _ hc n hn
        by_contra h
        obtain ⟨r, h⟩ := Option.ne_none_iff_exists'.mp h
        have free := safe _ _ hc scope hs
        rw [mentions_of_node hn (replace?_column h).1] at free
        cases free

theorem banApply_fst (b : BannedColumn) (q : Query) :
    (b.apply q).1 = q.each fun q => (b.replaceIn q).1 := by
  have count : ∀ q, Yields (m := StateM Nat)
      (fun n => ((b.replaceIn q).1, n + (b.replaceIn q).2)) (b.replaceIn q).1 :=
    fun q => yields_of_state fun _ => rfl
  exact yields_state (yields_compositional.forEach count q) 0

theorem applyBans_fst (bans : List BannedColumn) (q : Query) :
    (applyBans bans q).1 = bans.foldl (fun q b => (b.apply q).1) q := by
  have fold : ∀ (q : Query) (n : Nat), (bans.foldl
      (fun acc b => ((b.apply acc.1).1, acc.2 + (b.apply acc.1).2)) (q, n)).1 =
        bans.foldl (fun q b => (b.apply q).1) q := by
    induction bans with
    | nil => exact fun _ _ => rfl
    | cons b rest ih => exact fun q n => ih _ _
  exact fold q 0

/-- Banned columns give way to others without a condition being lost that mentions none. -/
theorem bans_carried {bans : List BannedColumn}
    (safe : ∀ b ∈ bans, ∀ scopes c, v.safe scopes c →
      ∀ scope, scopes b.table = some scope → scope.mentions b.column c = false) (q : Query) :
    List.Forall₂ (Carried v) q.queries (applyBans bans q).1.queries := by
  rw [applyBans_fst]
  induction bans generalizing q with
  | nil => exact List.forall₂_same.mpr fun b _ => carried_refl b
  | cons b rest ih =>
      rw [List.foldl_cons]
      refine carried_trans ?_ (ih (fun b hb => safe b (List.mem_cons_of_mem _ hb)) _)
      rw [banApply_fst]
      exact each_carried (ban_step (safe b List.mem_cons_self)) q

/-! ### The revenue of products -/

namespace ProductRevenue

/-- What a catalog guarantees of the metrics. -/
structure Regular (p : ProductRevenue) : Prop where
  aggregates : p.gross.containsAggregate = true
  gross : p.gross.children = []
  line : p.line.children = []

theorem lineExpr_eq (p : ProductRevenue) (binding : String) :
    p.lineExpr binding = p.line.swap fun
      | .column (some table) column =>
        if sameIgnoringAsciiCase table p.lineTable then some (.column (some binding) column)
        else none
      | _ => none := rfl

theorem lineExpr_columns {p : ProductRevenue} {binding : String} {x r : Expr}
    (h : (match x with
      | .column (some table) column =>
        if sameIgnoringAsciiCase table p.lineTable then some (.column (some binding) column)
        else none
      | _ => none) = some r) :
    (∃ table own, x = .column table own) ∧ ∃ table own, r = .column table own := by
  split at h
  · next table own =>
    simp only [Option.ite_none_right_eq_some, Option.some.injEq] at h
    exact ⟨⟨_, _, rfl⟩, ⟨_, _, h.2.symm⟩⟩
  · cases h

theorem lineExpr_children (p : ProductRevenue) (binding : String) :
    (p.lineExpr binding).children = p.line.children := by
  rw [lineExpr_eq]
  refine children_swap (fun x r h => ?_) _
  obtain ⟨⟨_, _, rfl⟩, ⟨_, _, rfl⟩⟩ := lineExpr_columns h
  rfl

theorem lineExpr_has {p : ProductRevenue} {binding : String} {t : LeafTest} :
    (p.lineExpr binding).has t ↔ p.line.has t := by
  rw [lineExpr_eq]
  constructor
  · refine fun h => (has_of_swap (Q := False) (fun x r h has => ?_) h).resolve_right id
    obtain ⟨-, ⟨_, _, rfl⟩⟩ := lineExpr_columns h
    exact absurd has (not_has_column _ _)
  · refine fun h => has_swap (fun x r h has => ?_) h
    obtain ⟨⟨_, _, rfl⟩, -⟩ := lineExpr_columns h
    exact absurd has (not_has_column _ _)

/-- A node that is replaced is the whole metric or a sum of a column. -/
theorem isGross_cases {p : ProductRevenue} {scope : Option TableScope} {node : Expr}
    (h : p.isGross scope node = true) :
    node = p.gross ∨ node.isAggregate = true ∧
      ∃ name table own, node = .call name [.column table own] false := by
  unfold isGross at h
  split at h
  · exact .inl (Expr.eq_of_same h)
  · split at h
    · next table column _ name argument =>
      simp only [Bool.and_eq_true] at h
      obtain ⟨sum, argued⟩ := h
      have argument : ∃ t own, argument = .column t own := by
        split at argued
        · obtain ⟨t, own, rfl, -⟩ := isColumn_column argued
          exact ⟨t, own, rfl⟩
        · exact ⟨_, _, Expr.eq_of_same argued⟩
      obtain ⟨t, own, rfl⟩ := argument
      refine .inr ⟨?_, name, t, own, rfl⟩
      have lower : Text.asciiLower name = "sum" := by
        simp only [sameIgnoringAsciiCase, beq_iff_eq] at sum
        rw [Text.asciiLower, sum]
        rfl
      simp [Expr.isAggregate, lower, aggregateNames]
    · cases h

theorem gross_aggregate {p : ProductRevenue} (h : p.Regular) :
    ∃ n ∈ p.gross.nodes, n.isAggregate = true :=
  List.any_eq_true.mp h.aggregates

theorem gross_step {p : ProductRevenue} (regular : p.Regular)
    (leaves : p.gross.has v.test → p.line.has v.test)
    (opens : p.line.has (.ofRaw (rawReads v.table)) → v.opens)
    (safe : ∀ scopes c, v.safe scopes c → c ∉ p.gross.conjuncts) (scope : TableScope) (q : Query) :
    Step v q (p.replaceGross scope q) := by
  have replaced {s : Option TableScope} {x r : Expr}
      (h : (if p.isGross s x then some (p.lineExpr scope.binding) else none) = some r) :
      p.isGross s x = true ∧ r = p.lineExpr scope.binding := by
    simp only [Option.ite_none_right_eq_some, Option.some.injEq] at h
    exact ⟨h.1, h.2.symm⟩
  have sumColumn (t : LeafTest) (name : String) (table : Option String) (own : String) :
      ¬(Expr.call name [.column table own] false).has t := by
    simp [Expr.has, Expr.any, Expr.nodes, nodesOf, LeafTest.holds]
  refine Harmless.step ⟨?_, ?_, ?_, ?_, ?_⟩
  · intro x r h
    obtain ⟨gross, rfl⟩ := replaced h
    rw [lineExpr_children, regular.line]
    rcases isGross_cases gross with rfl | ⟨-, name, table, own, rfl⟩
    · exact regular.gross.symm
    · rfl
  · intro x r h has
    obtain ⟨gross, rfl⟩ := replaced h
    rcases isGross_cases gross with rfl | ⟨-, name, table, own, rfl⟩
    · exact lineExpr_has.mpr (leaves has)
    · exact absurd has (sumColumn _ _ _ _)
  · intro x r h has
    obtain ⟨-, rfl⟩ := replaced h
    exact .inr (opens (lineExpr_has.mp has))
  · intro c plain hc g hg
    by_contra h
    obtain ⟨r, h⟩ := Option.ne_none_iff_exists'.mp h
    rcases isGross_cases (replaced h).1 with rfl | ⟨aggregate, name, table, own, rfl⟩
    · exact safe _ c hc hg
    · obtain rfl := List.mem_singleton.mp hg
      rw [plain.noAggregate _ (Expr.self_mem_nodes _)] at aggregate
      cases aggregate
  · intro c plain _ n hn
    by_contra h
    obtain ⟨r, h⟩ := Option.ne_none_iff_exists'.mp h
    rcases isGross_cases (replaced h).1 with rfl | ⟨aggregate, -⟩
    · obtain ⟨m, hm, aggregate⟩ := gross_aggregate regular
      rw [plain.noAggregate m (mem_nodes_trans hn hm)] at aggregate
      cases aggregate
    · rw [plain.noAggregate n hn] at aggregate
      cases aggregate

theorem cancel_step (p : ProductRevenue) (scope : TableScope) (q : Query) :
    Step v q (p.ensureNotCanceled scope q) := by
  unfold ensureNotCanceled
  split
  · exact step_refl q
  · split
    · exact step_refl q
    · refine addCondition_step rfl ?_ q
      simp [Expr.has, Expr.any, Expr.nodes, LeafTest.holds, Expr.isNotTrue, Expr.colOf]

/-- A comparison for equality of which one side is the name of a product. -/
theorem nameEquality?_cases {p : ProductRevenue} {scope : TableScope} {x name value : Expr}
    (h : p.nameEquality? scope x = some (name, value)) :
    scope.isColumn p.nameColumn name = true ∧
      (x = .binary name .eq value ∨ x = .binary value .eq name) := by
  unfold nameEquality? at h
  split at h
  · split at h
    · next named =>
      cases h
      exact ⟨named, .inl rfl⟩
    · split at h
      · next named =>
        cases h
        exact ⟨named, .inr rfl⟩
      · cases h
  · cases h

theorem names_step {p : ProductRevenue}
    (safe : ∀ scopes c, v.safe scopes c →
      ∀ scope, scopes p.dimensionTable = some scope → scope.mentions p.nameColumn c = false)
    (q : Query) : Step v q (p.matchNames q) := by
  unfold matchNames
  cases hs : TableScope.of? q p.dimensionTable with
  | none => exact step_refl q
  | some scope =>
      have replaced {x r : Expr} (h : ((p.nameEquality? scope x).map fun sides =>
          Expr.binary sides.1 .ilike sides.2) = some r) :
          ∃ table own value, scope.isColumn p.nameColumn (.column table own) = true ∧
            r = .binary (.column table own) .ilike value ∧
            (x = .binary (.column table own) .eq value ∨
              x = .binary value .eq (.column table own)) := by
        obtain ⟨⟨name, value⟩, equality, rfl⟩ := Option.map_eq_some_iff.mp h
        obtain ⟨named, sides⟩ := nameEquality?_cases equality
        obtain ⟨table, own, rfl, -⟩ := isColumn_column named
        exact ⟨table, own, value, named, rfl, sides⟩
      have children (a b : Expr) (op : BinaryOp) :
          (Expr.binary a op b).children = a.children ++ b.children := by
        rw [Expr.children_eq]
        simp [Expr.parts, Expr.query?]
      have has (t : LeafTest) (a b : Expr) (op : BinaryOp) :
          (Expr.binary a op b).has t ↔ a.has t ∨ b.has t := by
        rw [has_iff]
        simp [Expr.parts, LeafTest.holds]
      have column (table : Option String) (own : String) :
          (Expr.column table own).children = [] := rfl
      -- a comparison inside a safe condition would mention the name
      have untouched {c x r : Expr} (hc : v.safe (TableScope.of? q) c) (hx : x ∈ c.nodes)
          (h : ((p.nameEquality? scope x).map fun sides =>
            Expr.binary sides.1 .ilike sides.2) = some r) : False := by
        obtain ⟨table, own, value, named, -, sides⟩ := replaced h
        have inside : Expr.column table own ∈ x.nodes := by
          rcases sides with rfl | rfl <;> simp [Expr.nodes]
        have free := safe _ _ hc scope hs
        rw [mentions_of_node (mem_nodes_trans hx inside) named] at free
        cases free
      refine Harmless.step ⟨?_, ?_, ?_, ?_, ?_⟩
      · intro x r h
        obtain ⟨table, own, value, -, rfl, rfl | rfl⟩ := replaced h <;>
          simp [children, column]
      · intro x r h
        obtain ⟨table, own, value, -, rfl, rfl | rfl⟩ := replaced h <;>
          simp [has, or_comm]
      · intro x r h
        obtain ⟨table, own, value, -, rfl, rfl | rfl⟩ := replaced h <;>
          simp only [has] <;> tauto
      · intro c _ hc g hg
        by_contra h
        obtain ⟨r, h⟩ := Option.ne_none_iff_exists'.mp h
        obtain ⟨table, own, value, -, -, rfl | rfl⟩ := replaced h <;>
          obtain rfl := List.mem_singleton.mp hg <;>
          exact untouched hc (Expr.self_mem_nodes _) h
      · intro c _ hc n hn
        by_contra h
        obtain ⟨r, h⟩ := Option.ne_none_iff_exists'.mp h
        exact untouched hc hn h

theorem zero_children (i : SelectItem) :
    (defaultToZero i).expr.children = i.expr.children := by
  unfold defaultToZero
  split
  · rw [Expr.children_eq]
    simp [Expr.callOf, Expr.parts, Expr.query?, Expr.int, Expr.children, Expr.nodes]
  · rfl

theorem zero_has {t : LeafTest} (i : SelectItem) :
    (defaultToZero i).expr.has t ↔ i.expr.has t := by
  unfold defaultToZero
  split
  · rw [has_iff]
    simp [Expr.callOf, Expr.parts, Expr.int, Expr.has, Expr.any, Expr.nodes, LeafTest.holds]
  · rfl

theorem zero_step (q : Query) : Step v q { q with items := q.items.map defaultToZero } := by
  have items (t : LeafTest) : ({ q with items := q.items.map defaultToZero }).has t ↔ q.has t := by
    simp only [Query.has, Query.exprs, Query.allSources, List.mem_append, List.mem_map,
      or_and_right, exists_or, exists_exists_and_eq_and, zero_has]
  refine ⟨⟨rfl, (items _).mpr, fun raw => .inl ((items _).mp raw), fun _ _ _ h => h⟩, ?_⟩
  simp only [Query.children, Query.exprs, Query.allSources, List.flatMap_append,
    List.flatMap_map, zero_children]

/-- The revenue of products takes the place of a metric without a condition being lost. -/
theorem revenue_carried {p : ProductRevenue} (regular : p.Regular)
    (leaves : p.gross.has v.test → p.line.has v.test)
    (opens : p.line.has (.ofRaw (rawReads v.table)) → v.opens)
    (gross : ∀ scopes c, v.safe scopes c → c ∉ p.gross.conjuncts)
    (names : ∀ scopes c, v.safe scopes c →
      ∀ scope, scopes p.dimensionTable = some scope → scope.mentions p.nameColumn c = false)
    (q : Query) : List.Forall₂ (Carried v) q.queries (p.apply q).1.queries := by
  have count (q : Query) : Step v q (p.countLines q) := by
    unfold countLines
    split
    · exact (gross_step regular leaves opens gross _ q).trans (cancel_step p _ _)
    · exact step_refl q
  unfold ProductRevenue.apply
  split
  · rw [Query.forEach_eq]
    exact each_carried (fun q => ((count q).trans (names_step names _)).trans (zero_step _)) q
  · exact List.forall₂_same.mpr fun b _ => carried_refl b

end ProductRevenue

end ReportSql.Normalize

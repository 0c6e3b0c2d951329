import ReportSql.Gateway
import ReportSql.Proofs.CarriedPasses
import ReportSql.Proofs.CompletedRows
import ReportSql.Proofs.SoundCatalogs

/-!
The checks that a statement passes first, after the passes that rewrite it. The statement has to
pass them without what the last week takes the place of, by conditions on columns that are
neither replaced nor compared with names of products.
-/
namespace ReportSql.Normalize

open Catalog (CompletedState)
open Rows (textComparison?)
open Tree
open Text (sameIgnoringAsciiCase)

/-! ### Conditions that are left alone -/

/-- Whether a condition is about no banned column, about no name of a product, and no part of the
metric that is replaced. -/
structure Untouched (bans : List BannedColumn) (p : ProductRevenue)
    (scopes : String → Option TableScope) (c : Expr) : Prop where
  bans : ∀ b ∈ bans, ∀ scope, scopes b.table = some scope → scope.mentions b.column c = false
  names : ∀ scope, scopes p.dimensionTable = some scope → scope.mentions p.nameColumn c = false
  gross : c ∉ p.gross.conjuncts

theorem isStateCheck_nodes {scope : TableScope} {state : CompletedState} {c : Expr}
    (h : isStateCheck scope state c = true) :
    ∀ n ∈ c.nodes, (∃ e, n = .paren e) ∨ (∃ a b, n = .binary a .eq b) ∨
      (∃ l, n = .literal l) ∨
        ∃ table own, n = .column table own ∧ sameIgnoringAsciiCase own state.column = true := by
  induction c using isStateCheck.induct with
  | case1 inner ih =>
      intro n hn
      rcases List.mem_cons.mp hn with rfl | hn
      · exact .inl ⟨_, rfl⟩
      · exact ih h n hn
  | case2 left right =>
      simp only [isStateCheck, Bool.or_eq_true, Bool.and_eq_true] at h
      rcases h with ⟨column, value⟩ | ⟨column, value⟩
      all_goals
        obtain ⟨table, own, rfl, same⟩ := isColumn_column column
        obtain ⟨text, rfl, -⟩ := isText_literal value
        intro n hn
        simp only [Expr.nodes, List.mem_cons, List.mem_append, List.not_mem_nil, or_false] at hn
        rcases hn with (rfl | rfl) | rfl
        · exact .inr (.inl ⟨_, _, rfl⟩)
        · simp [same]
        · simp [same]
  | case3 c h₁ h₂ =>
      rw [isStateCheck] at h
      · cases h
      · exact h₁
      · exact h₂

theorem isStateCheck_plain {scope : TableScope} {state : CompletedState} {c : Expr}
    (h : isStateCheck scope state c = true) : Plain c := by
  have nodes := isStateCheck_nodes h
  refine ⟨?_, fun n hn => ?_, ?_⟩
  · refine List.filterMap_eq_nil_iff.mpr fun n hn => ?_
    rcases nodes n hn with ⟨_, rfl⟩ | ⟨_, _, rfl⟩ | ⟨_, rfl⟩ | ⟨_, _, rfl, -⟩ <;> rfl
  · rcases nodes n hn with ⟨_, rfl⟩ | ⟨_, _, rfl⟩ | ⟨_, rfl⟩ | ⟨_, _, rfl, -⟩ <;> rfl
  · rintro a b rfl
    rcases nodes _ (Expr.self_mem_nodes _) with ⟨_, h⟩ | ⟨_, _, h⟩ | ⟨_, h⟩ | ⟨_, _, h, -⟩ <;>
      cases h

theorem isStateCheck_mentions {scope other : TableScope} {state : CompletedState} {c : Expr}
    {column : String} (h : isStateCheck scope state c = true)
    (hc : sameIgnoringAsciiCase state.column column = false) :
    other.mentions column c = false := by
  by_contra mentions
  obtain ⟨n, hn, named⟩ := List.any_eq_true.mp (Bool.not_eq_false _ ▸ mentions)
  obtain ⟨table, own, rfl, same⟩ := @isColumn_column other _ _ named
  rcases isStateCheck_nodes h _ hn with ⟨_, h⟩ | ⟨_, _, h⟩ | ⟨_, h⟩ | ⟨_, _, h, own⟩
  · cases h
  · cases h
  · cases h
  · cases h
    simp only [sameIgnoringAsciiCase, beq_iff_eq, beq_eq_false_iff_ne] at same own hc
    exact hc (own.symm.trans same)

/-- A check is left alone where the column of the state is neither banned nor the name of a
product. -/
theorem isStateCheck_untouched {scope : TableScope} {state : CompletedState} {c : Expr}
    {bans : List BannedColumn} {p : ProductRevenue} {scopes : String → Option TableScope}
    (h : isStateCheck scope state c = true)
    (free : ∀ b ∈ bans, sameIgnoringAsciiCase state.column b.column = false)
    (name : sameIgnoringAsciiCase state.column p.nameColumn = false)
    (gross : ∀ e ∈ p.gross.conjuncts, isStateCheck scope state e = false) :
    Untouched bans p scopes c where
  bans b hb _ _ := isStateCheck_mentions h (free b hb)
  names _ _ := isStateCheck_mentions h name
  gross hc := by simp [gross c hc] at h

/-! ### The passes of a gateway -/

/-- The metrics of a catalog add up something without looking it up. -/
theorem metric_expression {catalog : Catalog} {key : String} {m : Catalog.Metric}
    (h : catalog.metric key = .ok m) :
    m.expression.containsAggregate = true ∧ m.expression.children = [] := by
  have plain := Catalog.metric_plain
    (Catalog.metric_faultless catalog.faultless m (Catalog.metric_found h).1)
  exact ⟨plain.1, plain.2.1⟩

theorem metrics_of_build {catalog : Catalog} {rule : ProductRevenueRule} {p : ProductRevenue}
    (h : ProductRevenue.build catalog rule = .ok p) :
    ∃ gross line, catalog.metric rule.grossMetric = .ok gross ∧
      catalog.metric rule.lineMetric = .ok line ∧
      p.gross = gross.expression ∧ p.line = line.expression := by
  unfold ProductRevenue.build at h
  cases hg : catalog.metric rule.grossMetric with
  | error e => simp [hg, bind, Except.bind] at h
  | ok gross =>
      cases hl : catalog.metric rule.lineMetric with
      | error e => simp [hg, hl, bind, Except.bind] at h
      | ok line =>
          cases ht : catalog.schema.table line.baseTable with
          | error e => simp [hg, hl, ht, bind, Except.bind] at h
          | ok table =>
              simp only [hg, hl, ht, bind, Except.bind, pure, Except.pure,
                Except.ok.injEq] at h
              subst h
              exact ⟨gross, line, rfl, rfl, rfl, rfl⟩

theorem regular_of_build {catalog : Catalog} {rule : ProductRevenueRule} {p : ProductRevenue}
    (h : ProductRevenue.build catalog rule = .ok p) : p.Regular := by
  obtain ⟨gross, line, hg, hl, grossExpr, lineExpr⟩ := metrics_of_build h
  refine ⟨?_, ?_, ?_⟩
  · rw [grossExpr, (metric_expression hg).1]
  · rw [grossExpr, (metric_expression hg).2]
  · rw [lineExpr, (metric_expression hl).2]

theorem ofCatalog_passes {catalog : Catalog} {settings : Settings} {g : Gateway}
    (h : Gateway.ofCatalog catalog settings = .ok g) :
    ∃ week revenue, RelativeWeek.build catalog.schema settings.rules = .ok week ∧
      ProductRevenue.build catalog settings.rules.productRevenue = .ok revenue ∧
      g.passes = [.scope settings.tenantParam, .completedState catalog.schema.completed,
        .relativeWeek week, .bannedColumn settings.rules.bannedColumns,
        .productRevenue revenue] := by
  cases hw : RelativeWeek.build catalog.schema settings.rules with
  | error e =>
      simp [Gateway.ofCatalog, buildPasses, PassKind.all, Pass.build, hw, bind, Except.bind,
        pure, Except.pure, Except.mapError] at h
  | ok week =>
      cases hr : ProductRevenue.build catalog settings.rules.productRevenue with
      | error e =>
          simp [Gateway.ofCatalog, buildPasses, PassKind.all, Pass.build, hw, hr, bind,
            Except.bind, pure, Except.pure, Except.mapError] at h
      | ok revenue =>
          simp only [Gateway.ofCatalog, buildPasses, PassKind.all, Pass.build, hw, hr, bind,
            Except.bind, pure, Except.pure, Except.mapError, List.mapM_cons, List.mapM_nil,
            Except.ok.injEq] at h
          exact ⟨week, revenue, rfl, rfl, by rw [← h]⟩

theorem applyPasses_tree {param : String} {state : Option CompletedState} {week : RelativeWeek}
    {bans : List BannedColumn} {revenue : ProductRevenue} {context : Context} {q r : Query}
    {applied : List String}
    (h : applyPasses context [.scope param, .completedState state, .relativeWeek week,
      .bannedColumn bans, .productRevenue revenue] q = .ok (r, applied)) :
    r = (revenue.apply (applyBans bans
      (week.apply context.question context.today q).1).1).1 := by
  have checked : ∀ p q', (p = .scope param ∨ p = .completedState state) →
      ∀ x, Pass.apply context q' p = .ok x → x.1 = q' := by
    rintro p q' (rfl | rfl) x hx
    · simp only [Pass.apply] at hx
      split at hx <;> cases hx
      rfl
    · cases state with
      | none =>
          cases hx
          rfl
      | some state => rw [(completedState_ok.mp hx).2]
  cases scope : Pass.apply context q (.scope param) with
  | error e => simp [applyPasses, scope, bind, Except.bind] at h
  | ok x =>
      cases finished : Pass.apply context x.1 (.completedState state) with
      | error e => simp [applyPasses, scope, finished, bind, Except.bind] at h
      | ok y =>
          have hx := checked _ q (.inl rfl) x scope
          have hy := checked _ x.1 (.inr rfl) y finished
          have weekly : Pass.apply context y.1 (.relativeWeek week) =
              .ok (week.apply context.question context.today y.1) := rfl
          have banned : ∀ q, Pass.apply context q (.bannedColumn bans) =
              .ok (applyBans bans q) := fun _ => rfl
          have revenued : ∀ q, Pass.apply context q (.productRevenue revenue) =
              .ok (revenue.apply q) := fun _ => rfl
          simp only [applyPasses, scope, finished, weekly, banned, revenued, bind, Except.bind,
            pure, Except.pure, Except.ok.injEq, Prod.mk.injEq] at h
          rw [← h.1, hy, hx]

/-! ### The checks afterwards -/

theorem normalized_carried (context : Context) (settings : Settings) (week : RelativeWeek)
    {v : Watch} {revenue : ProductRevenue}
    (regular : revenue.Regular)
    (safe : ∀ scopes c, v.safe scopes c →
      Untouched settings.rules.bannedColumns revenue scopes c)
    (leaves : revenue.gross.has v.test → revenue.line.has v.test)
    (opens : revenue.line.has (.ofRaw (rawReads v.table)) → v.opens) (q : Query) :
    List.Forall₂ (Carried v) (week.drop context.question q).queries
      (revenue.apply (applyBans settings.rules.bannedColumns
        (week.apply context.question context.today q).1).1).1.queries := by
  refine carried_trans (week_carried week context.question context.today q) ?_
  refine carried_trans (bans_carried (fun b hb scopes c h => (safe scopes c h).bans b hb) _) ?_
  exact ProductRevenue.revenue_carried regular leaves opens
    (fun scopes c h => (safe scopes c h).gross) (fun scopes c h => (safe scopes c h).names) _

section

variable {catalog : Catalog} {settings : Settings} {g : Gateway} {context : Context}
  {q r : Query} {applied : List String}

/-- A normalized statement mentions the parameter of the tenant if it does so without the dates
that the last week replaces, and keeps to finished transactions if each query does so without
them by a check that no other pass touches. -/
theorem normalized_keeps_checks (built : Gateway.ofCatalog catalog settings = .ok g)
    (done : applyPasses context g.passes q = .ok (r, applied)) :
    ∃ week revenue, RelativeWeek.build catalog.schema settings.rules = .ok week ∧
      ProductRevenue.build catalog settings.rules.productRevenue = .ok revenue ∧
      ((week.drop context.question q).references settings.tenantParam = true →
        (revenue.gross.has (.mentions settings.tenantParam) →
          revenue.line.has (.mentions settings.tenantParam)) →
        r.references settings.tenantParam = true) ∧
      ∀ state, catalog.schema.completed = some state →
        (∀ b ∈ (week.drop context.question q).queries, ∀ scope,
          TableScope.of? b state.table = some scope → ∃ c, Accepts state b scope c ∧
            Untouched settings.rules.bannedColumns revenue (TableScope.of? b) c) →
        ((∃ b ∈ (week.drop context.question q).queries, ReadsRaw state.table b) ∨
            revenue.line.has (.ofRaw (rawReads state.table)) →
          ∃ b ∈ (week.drop context.question q).queries, Names state.table b) →
        allKeepCompleted state r = true := by
  obtain ⟨week, revenue, hw, hr, passes⟩ := ofCatalog_passes built
  rw [passes] at done
  have regular := regular_of_build hr
  rw [applyPasses_tree done]
  refine ⟨week, revenue, hw, hr, fun references metrics => ?_, fun state _ checks named => ?_⟩
  · have carried := normalized_carried context settings week
      (v := ⟨.mentions settings.tenantParam, "", fun _ _ => False, True⟩) regular
      (fun _ _ safe => safe.elim) metrics (fun _ => trivial) q
    obtain ⟨b, hb, has⟩ := references_iff.mp references
    obtain ⟨b', hb', carries⟩ := exists_right carried hb
    exact references_iff.mpr ⟨b', hb', carries.leaves has⟩
  · have carried := normalized_carried context settings week
      (v := ⟨.never, state.table, Untouched settings.rules.bannedColumns revenue,
        revenue.line.has (.ofRaw (rawReads state.table))⟩)
      regular (fun _ _ h => h) (fun has => (not_has_never has).elim) id q
    refine allKeepCompleted_iff.mpr ⟨fun b hb scope hs => ?_, ?_⟩
    · obtain ⟨b', hb', carries⟩ := exists_left carried hb
      rw [of?_outline carries.outline] at hs
      obtain ⟨c, ⟨binds, check⟩, untouched⟩ := checks b' hb' scope hs
      exact keepsCompleted_accepts.mpr
        ⟨c, carries.binds c (isStateCheck_plain check) untouched binds, check⟩
    · rintro ⟨b, hb, raw⟩
      obtain ⟨b', hb', carries⟩ := exists_left carried hb
      have brought := carries.raw (exists_rawFragment.mp raw)
      obtain ⟨d, hd, names⟩ := named (brought.imp_left fun raw =>
        ⟨b', hb', exists_rawFragment.mpr raw⟩)
      obtain ⟨d', hd', carries⟩ := exists_right carried hd
      refine ⟨d', hd', of?_isSome.mp ?_⟩
      rw [of?_outline carries.outline]
      exact of?_isSome.mpr names

end

/-- A question about the last week. -/
def lastWeekQuestion : Context := ⟨"How much was sold last week?", .ofCivil ⟨2024, 1, 10⟩⟩

/-- The tree that a statement is normalized to by a gateway. -/
def normalizedTree? (g : Gateway) (context : Context) (text : String) : Option (Query × Query) :=
  (acceptedTree? g.policy text).bind fun q =>
    (applyPasses context g.passes q).toOption.map fun x => (q, x.1)

theorem normalizedTree?_some {g : Gateway} {context : Context} {text : String} {q r : Query}
    (h : normalizedTree? g context text = some (q, r)) :
    acceptedTree? g.policy text = some q ∧
      ∃ applied, applyPasses context g.passes q = .ok (r, applied) := by
  unfold normalizedTree? at h
  cases ht : acceptedTree? g.policy text with
  | none => simp [ht] at h
  | some tree =>
      cases hp : applyPasses context g.passes tree with
      | error e => simp [ht, hp, Except.toOption] at h
      | ok x =>
          simp only [ht, hp, Except.toOption, Option.bind_some, Option.map_some,
            Option.some.injEq, Prod.mk.injEq] at h
          obtain ⟨rfl, rfl⟩ := h
          exact ⟨rfl, x.2, hp⟩

theorem exists_of_any {α : Type} {o : Option α} {p : α → Bool} (h : o.any p = true) :
    ∃ a, o = some a ∧ p a = true := by
  cases o with
  | none => cases h
  | some a => exact ⟨a, rfl, h⟩

theorem exists_of_toOption {ε α : Type} {x : Except ε α} {p : α → Bool}
    (h : x.toOption.any p = true) : ∃ a, x = .ok a ∧ p a = true := by
  cases x with
  | error e => cases h
  | ok a => exact ⟨a, rfl, h⟩

/-- A statement whose dates are replaced passes the checks afterwards. -/
theorem normalized_keeps_checks_of_lastWeek :
    ∃ g q r applied, Gateway.ofCatalog .restaurant .default = .ok g ∧
      applyPasses lastWeekQuestion g.passes q = .ok (r, applied) ∧
      r.references "restaurant" = true ∧ allKeepCompleted closedSales r = true := by
  have run : ((Gateway.ofCatalog .restaurant .default).toOption.any fun g =>
      (normalizedTree? g lastWeekQuestion
        ("SELECT SUM(total) FROM sales WHERE sale_state = 'CLOSED' AND "
          ++ "LOWER(restaurant) = LOWER(%(restaurant)s) AND created_at > '2024-01-01'")).any
        fun (q, _) => (RelativeWeek.build Catalog.restaurant.schema .default).toOption.any
          fun week => (week.drop lastWeekQuestion.question q).references "restaurant"
            && allKeepCompleted closedSales (week.drop lastWeekQuestion.question q)) = true := by
    decide +kernel
  obtain ⟨g, built, run⟩ := exists_of_toOption run
  obtain ⟨⟨q, r⟩, tree, run⟩ := exists_of_any run
  obtain ⟨-, applied, done⟩ := normalizedTree?_some tree
  obtain ⟨week, hw, run⟩ := exists_of_toOption run
  obtain ⟨references, keep⟩ := Bool.and_eq_true_iff.mp run
  have metrics : (ProductRevenue.build .restaurant .default).toOption.all (fun p =>
      p.nameColumn == "name" && !p.gross.any (LeafTest.mentions "restaurant").holds
        && !p.line.any (LeafTest.ofRaw (rawReads "sales")).holds
        && p.gross.conjuncts.all fun e => (textComparison? e).isNone) = true := by
    decide +kernel
  obtain ⟨week', revenue, hw', hr, tenant, state⟩ := normalized_keeps_checks built done
  obtain rfl : week = week' := Except.ok.inj (hw.symm.trans hw')
  have hr : ProductRevenue.build .restaurant .default = .ok revenue := hr
  rw [hr] at metrics
  simp only [Except.toOption, Option.all_some, Bool.and_eq_true, beq_iff_eq,
    Bool.not_eq_true', List.all_eq_true, Option.isNone_iff_eq_none] at metrics
  obtain ⟨⟨⟨name, gross⟩, line⟩, conjuncts⟩ := metrics
  obtain ⟨keeps, named⟩ := allKeepCompleted_iff.mp keep
  refine ⟨g, q, r, applied, built, done, tenant references ?_, state closedSales rfl ?_ ?_⟩
  · exact fun has => absurd (gross.symm.trans has) Bool.false_ne_true
  · intro b hb scope hs
    obtain ⟨c, accepted⟩ := keepsCompleted_accepts.mp (keeps b hb scope hs)
    refine ⟨c, accepted, isStateCheck_untouched accepted.2 (by decide) ?_ fun e he => ?_⟩
    · rw [name]
      decide
    · cases check : isStateCheck scope closedSales e with
      | false => rfl
      | true =>
          obtain ⟨_, _, _, comparison, -⟩ := isStateCheck_comparison check
          rw [conjuncts e he] at comparison
          cases comparison
  · rintro (raw | has)
    · exact named raw
    · exact absurd (line.symm.trans has) Bool.false_ne_true

/-- The usual settings, where the column of the state is not to be used. -/
def stateBanned : Settings :=
  { Settings.default with
    rules := { Rules.default with bannedColumns := [⟨"sales", "sale_state", "state"⟩] } }

/-- Statements are normalized to ones that do not pass the checks any more: the dates that are
replaced may hold the only mention of the tenant, and a banned column may be the checked one. -/
theorem normalized_loses_checks :
    (∃ g q r applied, Gateway.ofCatalog .restaurant .default = .ok g ∧
      acceptedTree? g.policy ("SELECT total FROM sales WHERE sale_state = 'CLOSED' "
        ++ "AND created_at > %(restaurant)s") = some q ∧
      applyPasses lastWeekQuestion g.passes q = .ok (r, applied) ∧
      r.references "restaurant" = false) ∧
    stateBanned.check = .ok () ∧
    ∃ g q r applied, Gateway.ofCatalog .restaurant stateBanned = .ok g ∧
      acceptedTree? g.policy ("SELECT total FROM sales WHERE sale_state = 'CLOSED' "
        ++ "AND restaurant = %(restaurant)s") = some q ∧
      applyPasses lastWeekQuestion g.passes q = .ok (r, applied) ∧
      allKeepCompleted closedSales r = false := by
  have forgets {catalog : Catalog} {settings : Settings} {text : String} {p : Query → Bool}
      (run : ((Gateway.ofCatalog catalog settings).toOption.any fun g =>
        (normalizedTree? g lastWeekQuestion text).any fun (_, r) => !p r) = true) :
      ∃ g q r applied, Gateway.ofCatalog catalog settings = .ok g ∧
        acceptedTree? g.policy text = some q ∧
        applyPasses lastWeekQuestion g.passes q = .ok (r, applied) ∧ p r = false := by
    obtain ⟨g, built, run⟩ := exists_of_toOption run
    obtain ⟨⟨q, r⟩, tree, run⟩ := exists_of_any run
    obtain ⟨accepted, applied, done⟩ := normalizedTree?_some tree
    exact ⟨g, q, r, applied, built, accepted, done, by simpa using run⟩
  refine ⟨forgets (p := fun r => r.references "restaurant") ?_, ?_,
    forgets (p := allKeepCompleted closedSales) ?_⟩
  · decide +kernel
  · rfl
  · decide +kernel

end ReportSql.Normalize

import ReportSql.Normalize.Chain
import ReportSql.Proofs.CompletedBlocks
import ReportSql.Proofs.JoinedRows
import ReportSql.Proofs.NestedQueries
import ReportSql.Proofs.SameTree
import ReportSql.Tree.Read

/-!
What the check for finished transactions says about rows. A check limits the occurrence of the
table that its column refers to where the check stands; other occurrences are not limited by it.
-/
namespace ReportSql.Normalize

open Catalog (CompletedState)
open Rows
open Tree (Expr FromItem Join JoinKind Query Source TableRef addName)
open Text (sameIgnoringAsciiCase)

/-- Whether the condition of a join holds of each row that has a row of some source. Sources are
given by their places, and one of them is joined to those before it. -/
def joinLimits : JoinKind → (joined place : Nat) → Prop
  | .inner, _, _ | .cross, _, _ => True
  | .left, joined, place => place = joined
  | .right, joined, place => place ≠ joined
  | .full, _, _ => False

/-- A place in a query where a condition stands. -/
structure Site where
  /-- The sources that the condition can refer to. -/
  scope : List Source
  /-- The number of sources of the query before those. -/
  first : Nat
  /-- The join that the condition belongs to; there is none in the WHERE clause. -/
  join? : Option Join

/-- The sites of a query with their conditions. A join of a FROM entry refers to the sources of
the entry up to its own. -/
inductive Site.Of (q : Query) : Site → Expr → Prop where
  | filter {e} : q.condition = some e → Site.Of q ⟨q.allSources, 0, none⟩ e
  | join {before f after earlier j later e} :
      q.sources = before ++ f :: after → f.joins = earlier ++ j :: later → j.condition = some e →
      Site.Of q ⟨f.source :: earlier.map Join.source ++ [j.source],
        (before.flatMap FromItem.allSources).length, some j⟩ e

/-- Whether the condition at a site holds of each row that has a row of a source it refers to. -/
def Site.limits (site : Site) (place : Nat) : Prop :=
  ∀ j ∈ site.join?, joinLimits j.kind (site.scope.length - 1) place

/-- Whether a comparison with a text refers to the source at a place and is a condition that all
rows of a query meet which have a row of that source. -/
def Limits (q : Query) (c : Expr) (place : Nat) : Prop :=
  ∃ site e table name text own, Site.Of q site e ∧ c ∈ e.conjuncts ∧
    textComparison? c = some (table, name, text) ∧ place? site.scope table = some own ∧
    site.limits own ∧ place = site.first + own

/-- Whether a row has a text in a column of a source unless NULLs stand for the source. -/
def HasText (row : JoinedRow) (place : Nat) (name text : String) : Prop :=
  ∀ r, row[place]? = some (some r) → r name = some text

/-! ### Joins -/

section

variable {w : World} {place : Nat} {name text : String}

theorem hasText_of_value {row : JoinedRow} (h : row.value? place name = some text) :
    HasText row place name text := by
  intro r hr
  simpa [JoinedRow.value?, hr] using h

theorem hasText_append {l : JoinedRow} (more : JoinedRow) (hp : place < l.length) :
    HasText (l ++ more) place name text ↔ HasText l place name text := by
  simp only [HasText, List.getElem?_append_left hp]

theorem hasText_nulls {width : Nat} (r : Option Row) (hp : place ≠ width) :
    HasText (List.replicate width none ++ [r]) place name text := by
  intro own h
  rcases Nat.lt_or_gt_of_ne hp with lt | gt
  · simp [List.getElem?_append_left, lt] at h
  · have past : (List.replicate width none ++ [r]).length ≤ place := by
      simp only [List.length_append, List.length_replicate, List.length_singleton]
      omega
    simp [List.getElem?_eq_none past] at h

theorem place_lt {scope : List Source} {table : Option String}
    (h : place? scope table = some place) : place < scope.length := by
  cases table with
  | none =>
      simp only [place?, Option.ite_none_right_eq_some, Option.some.injEq] at h
      omega
  | some table =>
      simp only [place?, Option.ite_none_right_eq_some] at h
      exact (List.findIdx?_eq_some_iff_getElem.mp h.2).1

/-- A join keeps what the rows before it have in a column. -/
theorem joined_hasText {kind : JoinKind} {holds : JoinedRow → Prop} {width : Nat}
    {left : JoinedRow → Prop} {right : JoinedRow → Row → Prop} {row : JoinedRow}
    (hl : ∀ l, left l → l.length = width ∧ HasText l place name text) (hp : place < width)
    (h : Joined kind holds width left right row) : HasText row place name text := by
  cases h with
  | both l _ _ | leftOnly _ l _ => exact (hasText_append _ ((hl _ l).1 ▸ hp)).mpr (hl _ l).2
  | rightOnly _ _ _ => exact hasText_nulls _ (Nat.ne_of_lt hp)

/-- A comparison in the condition of a join that limits a source holds of the rows joined. -/
theorem joined_limited {kind : JoinKind} {sources : List Source} {condition : Option Expr}
    {e c : Expr} {table : Option String} {width : Nat} {left : JoinedRow → Prop}
    {right : JoinedRow → Row → Prop} {row : JoinedRow}
    (hl : ∀ l, left l → l.length = width) (he : condition = some e) (hc : c ∈ e.conjuncts)
    (ht : textComparison? c = some (table, name, text)) (hp : place? sources table = some place)
    (hk : joinLimits kind width place)
    (h : Joined kind (w.Holds sources condition) width left right row) :
    HasText row place name text := by
  cases h with
  | both _ _ holds =>
      exact hasText_of_value (truth_textComparison ht hp (holds_conjuncts holds he hc))
  | @leftOnly l kept hleft _ =>
      intro r hr
      cases kind with
      | left =>
          obtain rfl : place = l.length := hk.trans (hl l hleft).symm
          simp at hr
      | full => exact hk.elim
      | inner | right | cross => exact kept.elim
  | rightOnly kept _ _ =>
      cases kind with
      | right => exact hasText_nulls _ hk
      | full => exact hk.elim
      | inner | left | cross => exact kept.elim

theorem chain_hasText {outer : JoinedRow} {scope : List Source} {rows : JoinedRow → Prop}
    {joins : List Join} {row : JoinedRow}
    (hr : ∀ r, rows r → r.length = scope.length ∧ HasText r place name text)
    (hp : place < scope.length) (h : w.chain outer scope rows joins row) :
    HasText row place name text := by
  induction joins generalizing scope rows with
  | nil => exact (hr row h).2
  | cons j rest ih =>
      refine ih (fun r joined => ⟨?_, joined_hasText hr hp joined⟩) ?_ h
      · simpa using joined_length (fun l hl => (hr l hl).1) joined
      · simpa using Nat.lt_succ_of_lt hp

/-- The joins of a chain up to some place make the rows that the rest starts from. -/
theorem chain_append {outer : JoinedRow} {scope : List Source} {rows : JoinedRow → Prop}
    {earlier later : List Join} {row : JoinedRow} (hr : ∀ r, rows r → r.length = scope.length)
    (h : w.chain outer scope rows (earlier ++ later) row) :
    ∃ rows', (∀ r, rows' r → r.length = scope.length + earlier.length) ∧
      w.chain outer (scope ++ earlier.map Join.source) rows' later row := by
  induction earlier generalizing scope rows with
  | nil => exact ⟨rows, hr, by simpa using h⟩
  | cons j earlier ih =>
      obtain ⟨rows', length, h⟩ :=
        ih (fun r joined => by simpa using joined_length hr joined) h
      refine ⟨rows', fun r hr' => ?_, by simpa using h⟩
      have := length r hr'
      simp only [List.length_append, List.length_cons, List.length_nil] at this ⊢
      omega

/-- A comparison limits the rows of the source that it refers to. -/
theorem limits_hasText {q : Query} {c : Expr} {table : Option String} {row : JoinedRow}
    (h : Limits q c place) (ht : textComparison? c = some (table, name, text))
    (hw : w.Selects q row) : HasText row place name text := by
  obtain ⟨site, e, table', name', text', own, stands, hc, ht', hp, limits, rfl⟩ := h
  obtain ⟨rfl, rfl, rfl⟩ := by simpa using ht.symm.trans ht'
  cases stands with
  | filter he =>
      rw [Nat.zero_add]
      exact hasText_of_value (truth_textComparison ht hp (holds_conjuncts hw.2 he hc))
  | @join before f after earlier j later _ hs hj he =>
      have list := hw.1
      rw [hs] at list
      obtain ⟨a, b, d, rfl, length, entry⟩ := list_append list
      have within : HasText b own name text := by
        unfold World.entry at entry
        rw [hj] at entry
        obtain ⟨rows, lengths, rest⟩ :=
          @chain_append w a [f.source] _ _ _ _ (by rintro _ ⟨_, _, rfl⟩; rfl) entry
        have lengths' : ∀ r, rows r → r.length = ([f.source] ++ earlier.map Join.source).length :=
          fun r hr => by simpa [Nat.add_comm] using lengths r hr
        refine chain_hasText (fun r joined => ⟨?_, ?_⟩) (place_lt hp) rest
        · simpa using joined_length lengths' joined
        · refine joined_limited lengths' he hc ht hp ?_ joined
          simpa [Nat.add_comm] using limits j rfl
      intro r hr
      have bound : own < b.length := by
        have := place_lt hp
        simp only [entry_length entry, FromItem.allSources, hj, List.length_append,
          List.length_cons, List.length_map, List.length_nil] at this ⊢
        omega
      refine within r ?_
      simpa [length, List.getElem?_append_right, List.getElem?_append_left, bound,
        List.append_assoc] using hr

end

/-! ### Checks -/

theorem site_source {q : Query} {site : Site} {e : Expr} (stands : site.Of q e) {own : Nat}
    {s : Source} (h : site.scope[own]? = some s) : q.allSources[site.first + own]? = some s := by
  cases stands with
  | filter _ => simpa using h
  | @join before f after earlier j later _ hs hj he =>
      have bound : own < (f.source :: earlier.map Join.source ++ [j.source]).length :=
        (List.getElem?_eq_some_iff.mp h).1
      have split : q.allSources = before.flatMap FromItem.allSources ++
          ((f.source :: earlier.map Join.source ++ [j.source]) ++
            (later.map Join.source ++ after.flatMap FromItem.allSources)) := by
        simp [Query.allSources, hs, FromItem.allSources, hj]
      rw [split, List.getElem?_append_right (by simp), Nat.add_sub_cancel_left,
        List.getElem?_append_left bound]
      exact h

/-- A condition that binds stands in the WHERE clause or in a join of the kind that binds. -/
theorem binds_site {q : Query} {table : String} {c : Expr} (h : Binds table q c) :
    ∃ site e, Site.Of q site e ∧ c ∈ e.conjuncts ∧
      ∀ j ∈ site.join?, (∃ f ∈ q.sources, j ∈ f.joins) ∧ site.scope.getLast? = some j.source ∧
        (j.kind = .inner ∨ Join.brings table j = true) := by
  simp only [Binds, bindingConditions, List.mem_flatMap, List.mem_append, Option.mem_toList,
    List.mem_filterMap, List.mem_filter, Bool.or_eq_true, decide_eq_true_eq] at h
  obtain ⟨e, he | ⟨f, hf, j, ⟨hj, kind⟩, he⟩, hc⟩ := h
  · exact ⟨_, e, .filter he, hc, by simp⟩
  · obtain ⟨before, after, hs⟩ := List.append_of_mem hf
    obtain ⟨earlier, later, joins⟩ := List.append_of_mem hj
    refine ⟨_, e, .join hs joins he, hc, ?_⟩
    rintro _ ⟨⟩
    exact ⟨⟨f, hf, hj⟩, List.getLast?_concat, kind⟩

/-- A check compares a column of the state with its value, as far as ASCII letters in either case
are the same. -/
theorem isStateCheck_comparison {scope : TableScope} {state : CompletedState} {c : Expr}
    (h : isStateCheck scope state c = true) :
    ∃ table name text, textComparison? c = some (table, name, text) ∧
      scope.isColumn state.column (.column table name) = true ∧
      sameIgnoringAsciiCase name state.column = true ∧
      sameIgnoringAsciiCase text state.value = true := by
  induction c using isStateCheck.induct with
  | case1 inner ih => exact ih h
  | case2 left right =>
      simp only [isStateCheck, Bool.or_eq_true, Bool.and_eq_true] at h
      rcases h with ⟨column, value⟩ | ⟨column, value⟩
      all_goals
        obtain ⟨table, name, rfl, hn⟩ := isColumn_column column
        obtain ⟨text, rfl, ht⟩ := isText_literal value
        exact ⟨table, name, text, rfl, column, hn, ht⟩
  | case3 c h₁ h₂ =>
      rw [isStateCheck] at h
      · cases h
      · exact h₁
      · exact h₂

/-- Whether the column of a comparison is of a source that the comparison can refer to, wherever
in a query it stands. -/
def Resolved (q : Query) (c : Expr) : Prop :=
  ∀ site e, Site.Of q site e → c ∈ e.conjuncts → ∀ table name text,
    textComparison? c = some (table, name, text) → ∃ place, place? site.scope table = some place

/-- Whether a source is a relation or is called by one of its names. -/
def Resembles (table : String) (t : TableRef) (s : Source) : Prop :=
  (∃ u, s = .named u ∧ sameIgnoringAsciiCase u.table table = true) ∨
    ∃ name, binding? s = some name ∧
      (sameIgnoringAsciiCase t.table name = true ∨ sameIgnoringAsciiCase t.binding name = true)

/-- Whether a relation is at one place only in the FROM list of a query, where no other source is
called like it and neither a right nor a full join brings it. -/
structure Sole (table : String) (q : Query) (place : Nat) : Prop where
  only : ∃ t, q.allSources[place]? = some (.named t) ∧
    sameIgnoringAsciiCase t.table table = true ∧
    ∀ other s, q.allSources[other]? = some s → Resembles table t s → other = place
  joined : ∀ f ∈ q.sources, ∀ j ∈ f.joins, Join.brings table j = true →
    j.kind ≠ .right ∧ j.kind ≠ .full

theorem mem_qualifiersFor {q : Query} {table n : String} (h : n ∈ q.qualifiersFor table) :
    ∃ t, .named t ∈ q.allSources ∧ sameIgnoringAsciiCase t.table table = true ∧
      (n = t.table ∨ n = t.binding) := by
  have added : ∀ (ts : List TableRef) (names : List String),
      n ∈ ts.foldl (fun names t => addName (addName names t.table) t.binding) names →
        n ∈ names ∨ ∃ t ∈ ts, n = t.table ∨ n = t.binding := by
    intro ts
    induction ts with
    | nil => exact fun names h => .inl h
    | cons t ts ih =>
        intro names h
        rcases ih _ h with h | ⟨u, hu, h⟩
        · simp only [mem_addName, or_assoc] at h
          exact h.imp_right fun h => ⟨t, by simp, h⟩
        · exact .inr ⟨u, List.mem_cons_of_mem t hu, h⟩
  obtain h | ⟨t, ht, names⟩ := added _ _ h
  · cases h
  · simp only [List.mem_filter, Query.namedTables, List.mem_filterMap] at ht
    obtain ⟨⟨s, hs, named⟩, same⟩ := ht
    cases s <;> cases named
    exact ⟨t, hs, same, names⟩

theorem source_of_place {scope : List Source} {table : String} {place : Nat}
    (h : place? scope (some table) = some place) :
    ∃ s, scope[place]? = some s ∧ binding? s = some table := by
  simp only [place?, Option.ite_none_right_eq_some] at h
  obtain ⟨bound, own, -⟩ := List.findIdx?_eq_some_iff_getElem.mp h.2
  exact ⟨_, List.getElem?_eq_getElem bound, by simpa using own⟩

/-- The column of a check is of the one source that is the relation. -/
theorem sole_place {state : CompletedState} {q : Query} {scope : TableScope} {place : Nat}
    (sole : Sole state.table q place) (hs : TableScope.of? q state.table = some scope)
    {table : Option String} {name : String}
    (column : scope.isColumn state.column (.column table name) = true) {site : Site} {e : Expr}
    (stands : site.Of q e) {own : Nat} (hp : place? site.scope table = some own) :
    site.first + own = place := by
  obtain ⟨t, at_place, -, only⟩ := sole.only
  obtain ⟨first, -, rfl⟩ := Option.map_eq_some_iff.mp hs
  cases table with
  | none =>
      have alone : q.allSources.length = 1 := by
        simp only [TableScope.isColumn, Expr.isColumnOf, Bool.and_eq_true, beq_iff_eq] at column
        exact column.2
      have s := site_source stands (List.getElem?_eq_getElem (place_lt hp))
      have := (List.getElem?_eq_some_iff.mp s).1
      have := (List.getElem?_eq_some_iff.mp at_place).1
      omega
  | some n =>
      simp only [TableScope.isColumn, Expr.isColumnOf, Bool.and_eq_true, List.any_eq_true]
        at column
      obtain ⟨-, qualifier, member, same⟩ := column
      obtain ⟨u, hu, table_same, names⟩ := mem_qualifiersFor member
      obtain ⟨i, hi⟩ := List.getElem?_of_mem hu
      obtain rfl := only i _ hi (.inl ⟨u, rfl, table_same⟩)
      obtain rfl : t = u := by simpa using at_place.symm.trans hi
      obtain ⟨s, s_own, s_name⟩ := source_of_place hp
      refine only _ s (site_source stands s_own) (.inr ⟨n, s_name, ?_⟩)
      rcases names with rfl | rfl
      · exact .inl same
      · exact .inr same

/-- A check limits the relation that it refers to where that is read once. -/
theorem accepts_limits {state : CompletedState} {q : Query} {scope : TableScope} {place : Nat}
    {c : Expr} (sole : Sole state.table q place)
    (hs : TableScope.of? q state.table = some scope) (hc : Accepts state q scope c)
    (resolved : Resolved q c) : Limits q c place := by
  obtain ⟨site, e, stands, conjunct, kinds⟩ := binds_site hc.1
  obtain ⟨table, name, text, comparison, column, -⟩ := isStateCheck_comparison hc.2
  obtain ⟨own, hp⟩ := resolved site e stands conjunct table name text comparison
  have here := sole_place sole hs column stands hp
  refine ⟨site, e, table, name, text, own, stands, conjunct, comparison, hp, ?_, here.symm⟩
  intro j hj
  obtain ⟨⟨f, hf, joins⟩, last, kind⟩ := kinds j hj
  by_cases brought : Join.brings state.table j = true
  · obtain ⟨right, full⟩ := sole.joined f hf j joins brought
    cases kind : j.kind with
    | inner | cross => trivial
    | right => exact absurd kind right
    | full => exact absurd kind full
    | left =>
        obtain ⟨t, -, -, only⟩ := sole.only
        rw [List.getLast?_eq_getElem?] at last
        have resembles : Resembles state.table t j.source := by
          unfold Join.brings at brought
          split at brought
          · next u source => exact .inl ⟨u, source, brought⟩
          · cases brought
        have joined := only _ _ (site_source stands last) resembles
        have : own = site.scope.length - 1 := by omega
        exact this
  · rw [kind.resolve_right brought]
    trivial

/-! ### Statements -/

theorem completedState_ok {context : Context} {state : CompletedState} {q : Query}
    {result : Query × Bool} :
    (Pass.completedState (some state)).apply context q = .ok result ↔
      allKeepCompleted state q = true ∧ result = (q, false) := by
  simp only [Pass.apply]
  split
  · next keep => simp only [keep, Except.ok.injEq, true_and, eq_comm]
  · next keep => simp only [keep, reduceCtorEq, false_and]

/-- A statement that passes has a check in each query that names the table, and in one at least
if raw SQL reads it. Each row of the occurrence that such a check limits has the text of the check
in its column; where a query reads the table once, that occurrence is limited. -/
theorem completedState_limits_rows {context : Context} {state : CompletedState} {q : Query}
    {result : Query × Bool}
    (ok : (Pass.completedState (some state)).apply context q = .ok result) :
    result = (q, false) ∧
      ((∃ b ∈ q.queries, ReadsRaw state.table b) → ∃ b ∈ q.queries, Names state.table b) ∧
      ∀ b ∈ q.queries, ∀ scope, TableScope.of? b state.table = some scope →
        (∃ c, Accepts state b scope c) ∧
        ∀ c, Accepts state b scope c → ∃ table name text,
          textComparison? c = some (table, name, text) ∧
          sameIgnoringAsciiCase name state.column = true ∧
          sameIgnoringAsciiCase text state.value = true ∧
          (∀ place, Limits b c place → ∀ (w : World) row, w.Selects b row →
            HasText row place name text) ∧
          ∀ place, Sole state.table b place → Resolved b c → Limits b c place := by
  obtain ⟨keep, rfl⟩ := completedState_ok.mp ok
  obtain ⟨keeps, named⟩ := allKeepCompleted_iff.mp keep
  refine ⟨rfl, named, fun b hb scope hs => ⟨?_, fun c hc => ?_⟩⟩
  · exact keepsCompleted_accepts.mp (keeps b hb scope hs)
  · obtain ⟨table, name, text, comparison, -, hn, ht⟩ := isStateCheck_comparison hc.2
    exact ⟨table, name, text, comparison, hn, ht,
      fun place limits w row selected => limits_hasText limits comparison selected,
      fun place sole resolved => accepts_limits sole hs hc resolved⟩

def closedSales : CompletedState := ⟨"sales", "sale_state", "CLOSED"⟩

/-- Items with the closed sales that they belong to. -/
def closedSalesOfItems : Query :=
  { Query.empty with
    items := [⟨.column (some "s") "total", none⟩]
    sources := [⟨.named ⟨none, "items", some "i"⟩,
      [⟨.left, .named ⟨none, "sales", some "s"⟩,
        some (.binary (.binary (.column (some "i") "sale_id") .eq (.column (some "s") "id")) .and
          (.binary (.literal (.text "closed")) .eq (.column (some "s") "sale_state")))⟩]⟩] }

theorem completedState_limits_rows_of_items :
    (∀ context, (Pass.completedState (some closedSales)).apply context closedSalesOfItems =
      .ok (closedSalesOfItems, false)) ∧
    ∀ (w : World) row, w.Selects closedSalesOfItems row →
      HasText row 1 "sale_state" "closed" := by
  have ok : ∀ context, (Pass.completedState (some closedSales)).apply context closedSalesOfItems =
      .ok (closedSalesOfItems, false) :=
    fun _ => completedState_ok.mpr ⟨by decide +kernel, rfl⟩
  refine ⟨ok, fun w row selected => ?_⟩
  have named := (completedState_limits_rows (ok ⟨"", .ofCivil ⟨2024, 1, 10⟩⟩)).2.2
  obtain ⟨-, checks⟩ := named closedSalesOfItems closedSalesOfItems.self_mem_queries _ rfl
  obtain ⟨_, _, _, comparison, -, -, holds, -⟩ :=
    checks (.binary (.literal (.text "closed")) .eq (.column (some "s") "sale_state"))
      ⟨List.mem_cons_of_mem _ (List.mem_singleton_self _), by decide +kernel⟩
  cases comparison
  refine holds 1 ⟨_, _, _, _, _, 1, @Site.Of.join _ [] _ _ [] _ _ _ rfl rfl rfl,
    List.mem_cons_of_mem _ (List.mem_singleton_self _), rfl, ?_, ?_, rfl⟩ w row selected
  · decide
  · rintro _ ⟨⟩
    rfl

/-- Whether each row of the table that any query of a statement selects from is finished. -/
def SelectsFinished (state : CompletedState) (q : Query) : Prop :=
  ∀ b ∈ q.queries, ∀ (place : Nat) (t : TableRef), b.allSources[place]? = some (.named t) →
    sameIgnoringAsciiCase t.table state.table = true →
    ∀ (w : World) row, w.Selects b row → ∀ r, row[place]? = some (some r) →
      ∃ text, r state.column = some text ∧ sameIgnoringAsciiCase text state.value = true

/-- The tree of a statement that a gate accepts. -/
def acceptedTree? (policy : Gate.Policy) (text : String) : Option Query :=
  (Gate.check policy text).toOption.bind fun a => (Query.ofSyntax a.query).toOption

/-- A join of sales with themselves, of which only one side has to be closed. -/
def selfJoin : Query :=
  { Query.empty with
    items := [⟨.column (some "b") "total", none⟩]
    sources := [⟨.named ⟨none, "sales", some "a"⟩,
      [⟨.inner, .named ⟨none, "sales", some "b"⟩,
        some (.binary (.column (some "a") "id") .eq (.column (some "b") "parent"))⟩]⟩]
    condition := some
      (.binary (.column (some "a") "sale_state") .eq (.literal (.text "CLOSED"))) }

/-- Each source has one row; the first one is closed, and the others are open. -/
def oneOpenSale : World where
  rows outer r := r = fun _ => some (if outer.isEmpty then "CLOSED" else "OPEN")
  other _ _ _ := some true

/-- Statements pass that select from open sales: the other side of a join of sales with
themselves. -/
theorem completedState_selfJoin :
    ∃ q, acceptedTree? .default
        "SELECT b.total FROM sales a JOIN sales b ON a.id = b.parent WHERE a.sale_state = 'CLOSED'"
          = some q ∧
      (∀ context, (Pass.completedState (some closedSales)).apply context q = .ok (q, false)) ∧
      ¬SelectsFinished closedSales q := by
  refine ⟨selfJoin, ?_, fun context => completedState_ok.mpr ⟨?_, rfl⟩, fun finished => ?_⟩
  · exact Tree.eq_some_of_same (by decide +kernel)
  · decide +kernel
  · have selects : oneOpenSale.Selects selfJoin
        [some fun _ => some "CLOSED", some fun _ => some "OPEN"] := by
      refine ⟨⟨_, .both ⟨_, rfl, rfl⟩ rfl ?_, rfl⟩, ?_⟩
      · rintro _ ⟨⟩
        rfl
      · rintro _ ⟨⟩
        decide
    obtain ⟨text, ht, closed⟩ := finished selfJoin selfJoin.self_mem_queries 1 _ rfl
      (by decide +kernel) oneOpenSale _ selects _ rfl
    cases ht
    revert closed
    decide +kernel

end ReportSql.Normalize

import ReportSql.Normalize.CompletedState

/-!
The check for finished transactions, block by block.
-/
namespace ReportSql.Normalize

open Catalog (CompletedState)
open Tree (Expr Query addName rawReads)
open Text (sameIgnoringAsciiCase)

/-- Whether a query has the relation in its FROM list. -/
def Names (table : String) (q : Query) : Prop :=
  ∃ t ∈ q.namedTables, sameIgnoringAsciiCase t.table table = true

/-- Whether a query reads the relation in raw SQL. -/
def ReadsRaw (table : String) (q : Query) : Prop :=
  ∃ sql ∈ q.rawFragments, rawReads table sql = true

theorem of?_isSome {q : Query} {table : String} :
    (TableScope.of? q table).isSome = true ↔ Names table q := by
  simp [TableScope.of?, Names, List.find?_isSome]

theorem names_of_of? {q : Query} {table : String} {scope : TableScope}
    (h : TableScope.of? q table = some scope) : Names table q :=
  of?_isSome.mp (by rw [h]; rfl)

theorem of?_of_names {q : Query} {table : String} (h : Names table q) :
    ∃ scope, TableScope.of? q table = some scope :=
  Option.isSome_iff_exists.mp (of?_isSome.mpr h)

theorem addName_ne_nil (names : List String) (name : String) : addName names name ≠ [] := by
  unfold addName
  split
  · rintro rfl
    contradiction
  · simp

theorem mem_addName {names : List String} {name n : String} :
    n ∈ addName names name ↔ n ∈ names ∨ n = name := by
  unfold addName
  split
  · next held =>
    have : name ∈ names := by simpa using held
    constructor
    · exact .inl
    · rintro (h | rfl)
      · exact h
      · exact this
  · simp

theorem qualifiersFor_ne_nil {q : Query} {table : String} :
    q.qualifiersFor table ≠ [] ↔ Names table q := by
  have added : ∀ (ts : List Tree.TableRef) (names : List String),
      ts.foldl (fun names t => addName (addName names t.table) t.binding) names ≠ [] ↔
        names ≠ [] ∨ ts ≠ [] := by
    intro ts
    induction ts with
    | nil => simp
    | cons t ts ih =>
        intro names
        simp [ih, addName_ne_nil]
  simp [Query.qualifiersFor, added, Names]

theorem reads_iff {q : Query} {table : String} :
    q.reads table = true ↔
      (∃ b ∈ q.queries, Names table b) ∨ ∃ b ∈ q.queries, ReadsRaw table b := by
  simp only [Query.reads, List.any_eq_true, Bool.or_eq_true, Bool.not_eq_true',
    List.isEmpty_eq_false_iff, qualifiersFor_ne_nil, ReadsRaw]
  constructor
  · rintro ⟨b, hb, names | reads⟩
    · exact .inl ⟨b, hb, names⟩
    · exact .inr ⟨b, hb, reads⟩
  · rintro (⟨b, hb, names⟩ | ⟨b, hb, reads⟩)
    · exact ⟨b, hb, .inl names⟩
    · exact ⟨b, hb, .inr reads⟩

/-- A condition that each row of a table in a query meets. -/
def Binds (table : String) (q : Query) (c : Expr) : Prop :=
  c ∈ (bindingConditions q table).flatMap Expr.conjuncts

/-- A condition of a query that is accepted as a check for finished transactions. -/
def Accepts (state : CompletedState) (q : Query) (scope : TableScope) (c : Expr) : Prop :=
  Binds state.table q c ∧ isStateCheck scope state c = true

theorem keepsCompleted_accepts {state : CompletedState} {q : Query} {scope : TableScope} :
    keepsCompleted state q scope = true ↔ ∃ c, Accepts state q scope c := by
  simp only [keepsCompleted, List.any_eq_true, Accepts, Binds]

theorem isColumn_column {scope : TableScope} {name : String} {e : Expr}
    (h : scope.isColumn name e = true) :
    ∃ table own, e = .column table own ∧ sameIgnoringAsciiCase own name = true := by
  cases e with
  | column table own =>
      cases table <;>
        simp only [TableScope.isColumn, Expr.isColumnOf, Bool.and_eq_true] at h <;>
        exact ⟨_, own, rfl, h.1⟩
  | _ => simp [TableScope.isColumn, Expr.isColumnOf] at h

theorem isText_literal {value : String} {e : Expr} (h : isText value e = true) :
    ∃ text, e = .literal (.text text) ∧ sameIgnoringAsciiCase text value = true := by
  unfold isText at h
  split at h
  · exact ⟨_, rfl, h⟩
  · cases h

/-- Whether a query keeps to finished transactions if it names their table. -/
def Keeps (state : CompletedState) (q : Query) : Prop :=
  ∀ scope, TableScope.of? q state.table = some scope → keepsCompleted state q scope = true

theorem mem_blocks {q b : Query} {table : String} {scope : TableScope} :
    (b, scope) ∈ (q.queries.filterMap fun b => (TableScope.of? b table).map (b, ·)) ↔
      b ∈ q.queries ∧ TableScope.of? b table = some scope := by
  simp only [List.mem_filterMap, Option.map_eq_some_iff, Prod.mk.injEq]
  constructor
  · rintro ⟨_, hb, _, hs, rfl, rfl⟩
    exact ⟨hb, hs⟩
  · rintro ⟨hb, hs⟩
    exact ⟨b, hb, scope, hs, rfl, rfl⟩

/-- A statement passes if each query in it keeps to finished transactions, and if one of them
names the table where raw SQL reads it. -/
theorem allKeepCompleted_iff {state : CompletedState} {q : Query} :
    allKeepCompleted state q = true ↔
      (∀ b ∈ q.queries, Keeps state b) ∧
        ((∃ b ∈ q.queries, ReadsRaw state.table b) → ∃ b ∈ q.queries, Names state.table b) := by
  unfold allKeepCompleted
  split
  · next reads =>
    simp only [Bool.and_eq_true, Bool.not_eq_true', List.isEmpty_eq_false_iff_exists_mem,
      List.all_eq_true, Prod.exists, Prod.forall, mem_blocks]
    constructor
    · rintro ⟨⟨b, scope, hb, hs⟩, all⟩
      exact ⟨fun b hb scope hs => all b scope ⟨hb, hs⟩, fun _ => ⟨b, hb, names_of_of? hs⟩⟩
    · rintro ⟨all, named⟩
      obtain ⟨b, hb, names⟩ := (reads_iff.mp reads).elim id named
      obtain ⟨scope, hs⟩ := of?_of_names names
      exact ⟨⟨b, scope, hb, hs⟩, fun b scope h => all b h.1 scope h.2⟩
  · next reads =>
    simp only [reads_iff, not_or, not_exists, not_and] at reads
    simp only [true_iff]
    refine ⟨fun b hb scope hs => absurd (names_of_of? hs) (reads.1 b hb), ?_⟩
    rintro ⟨b, hb, raw⟩
    exact absurd raw (reads.2 b hb)

end ReportSql.Normalize

import ReportSql.Tree.Rewrite

/-!
The rows of a query. The sources of a FROM list are joined one after the other, and the WHERE
clause keeps the rows that it holds of. Only AND, OR, NOT and the comparison of a column with a
text are given a meaning; whatever else a condition says is left to the world it is read in.
-/
namespace ReportSql.Rows

open Tree

/-! ### Truth -/

/-- A truth value of SQL; there is none where it is unknown. -/
abbrev Truth := Option Bool

namespace Truth

def not : Truth → Truth := Option.map Bool.not

def and : Truth → Truth → Truth
  | some false, _ | _, some false => some false
  | some true, some true => some true
  | _, _ => none

def or (a b : Truth) : Truth := (a.not.and b.not).not

theorem and_eq_true {a b : Truth} : a.and b = some true ↔ a = some true ∧ b = some true := by
  rcases a with _ | _ | _ <;> rcases b with _ | _ | _ <;> simp [Truth.and]

end Truth

/-! ### Rows -/

/-- The texts in the columns of a row; there is none where a column is NULL. -/
abbrev Row := String → Option String

/-- A row of several sources. A source has no row where it is extended by NULLs. -/
abbrev JoinedRow := List (Option Row)

structure World where
  /-- The rows of the source that follows some others in a FROM list, where they have a row. -/
  rows : JoinedRow → Row → Prop
  /-- The truth of the conditions that are given no meaning here. -/
  other : List Source → JoinedRow → Expr → Truth

/-- The name that qualifies the columns of a source. -/
def binding? : Source → Option String
  | .named t => some t.binding
  | .derived _ label => label
  | .raw _ => none

/-- The place of the source that a qualifier stands for: of the only one that it binds, or of the
only one there is where there is no qualifier. -/
def place? (scope : List Source) : Option String → Option Nat
  | some table =>
    if scope.countP (fun s => binding? s == some table) = 1 then
      scope.findIdx? fun s => binding? s == some table
    else none
  | none => if scope.length = 1 then some 0 else none

/-- The qualifier, the column and the text of a comparison, in parentheses or not. -/
def textComparison? : Expr → Option (Option String × String × String)
  | .paren e => textComparison? e
  | .binary (.column table name) .eq (.literal (.text text)) => some (table, name, text)
  | .binary (.literal (.text text)) .eq (.column table name) => some (table, name, text)
  | _ => none

/-- The column of a source. -/
def JoinedRow.value? (row : JoinedRow) (place : Nat) (name : String) : Option String :=
  row[place]?.join.bind (· name)

/-- The truth of a condition for a row of the sources that it can refer to. -/
def World.truth (w : World) (scope : List Source) (row : JoinedRow) : Expr → Truth
  | .paren e => w.truth scope row e
  | .unary .not e => (w.truth scope row e).not
  | .binary a .and b => (w.truth scope row a).and (w.truth scope row b)
  | .binary a .or b => (w.truth scope row a).or (w.truth scope row b)
  | e =>
    match textComparison? e with
    | some (table, name, text) =>
      match place? scope table with
      | some place => (row.value? place name).map (· == text)
      | none => w.other scope row e
    | none => w.other scope row e

def World.Holds (w : World) (scope : List Source) (condition : Option Expr) (row : JoinedRow) :
    Prop :=
  ∀ e ∈ condition, w.truth scope row e = some true

/-! ### Joins -/

/-- Whether rows are kept that no row of the new source fits. -/
def keepsLeft : JoinKind → Prop
  | .left | .full => True
  | .inner | .right | .cross => False

/-- Whether rows of the new source are kept that fit no row so far. -/
def keepsRight : JoinKind → Prop
  | .right | .full => True
  | .inner | .left | .cross => False

/-- The rows of some sources joined with those of one more. -/
inductive Joined (kind : JoinKind) (holds : JoinedRow → Prop) (width : Nat)
    (left : JoinedRow → Prop) (right : JoinedRow → Row → Prop) : JoinedRow → Prop where
  | both {l r} : left l → right l r → holds (l ++ [some r]) →
      Joined kind holds width left right (l ++ [some r])
  | leftOnly {l} : keepsLeft kind → left l → (∀ r, right l r → ¬holds (l ++ [some r])) →
      Joined kind holds width left right (l ++ [none])
  | rightOnly {r} : keepsRight kind → right (List.replicate width none) r →
      (∀ l, left l → ¬holds (l ++ [some r])) →
      Joined kind holds width left right (List.replicate width none ++ [some r])

/-- The rows that the joins of a FROM entry lead to, from those of its sources before them. There
is a row of the entries before it. -/
def World.chain (w : World) (outer : JoinedRow) : List Source → (JoinedRow → Prop) → List Join →
    JoinedRow → Prop
  | _, rows, [] => rows
  | scope, rows, j :: rest =>
    let sources := scope ++ [j.source]
    w.chain outer sources
      (Joined j.kind (w.Holds sources j.condition) scope.length rows
        fun row => w.rows (outer ++ row))
      rest

def World.entry (w : World) (outer : JoinedRow) (f : FromItem) : JoinedRow → Prop :=
  w.chain outer [f.source] (fun row => ∃ r, w.rows outer r ∧ row = [some r]) f.joins

/-- The rows of a FROM list after a row of the entries before it: each combination of rows of its
entries. -/
def World.list (w : World) : JoinedRow → List FromItem → JoinedRow → Prop
  | outer, [], row => row = outer
  | outer, f :: rest, row => ∃ own, w.entry outer f own ∧ w.list (outer ++ own) rest row

/-- The rows that a query selects from, before it groups them. -/
def World.Selects (w : World) (q : Query) (row : JoinedRow) : Prop :=
  w.list [] q.sources row ∧ w.Holds q.allSources q.condition row

/-! ### Shape of rows -/

variable {w : World}

theorem joined_length {kind : JoinKind} {holds : JoinedRow → Prop} {width : Nat}
    {left : JoinedRow → Prop} {right : JoinedRow → Row → Prop} {row : JoinedRow}
    (hl : ∀ l, left l → l.length = width) (h : Joined kind holds width left right row) :
    row.length = width + 1 := by
  cases h with
  | both l _ _ | leftOnly _ l _ => simp [hl _ l]
  | rightOnly _ _ _ => simp

theorem chain_length {outer : JoinedRow} {scope : List Source} {rows : JoinedRow → Prop}
    {joins : List Join} {row : JoinedRow} (hr : ∀ r, rows r → r.length = scope.length)
    (h : w.chain outer scope rows joins row) : row.length = scope.length + joins.length := by
  induction joins generalizing scope rows with
  | nil => exact hr row h
  | cons j rest ih =>
      have := ih (fun r joined => by simpa using joined_length hr joined) h
      simp only [List.length_append, List.length_cons, List.length_nil] at this ⊢
      omega

theorem entry_length {outer : JoinedRow} {f : FromItem} {row : JoinedRow}
    (h : w.entry outer f row) : row.length = f.allSources.length := by
  have := @chain_length w outer [f.source] _ _ _ (by rintro _ ⟨_, _, rfl⟩; rfl) h
  simpa [FromItem.allSources, Nat.add_comm] using this

theorem list_outer {outer : JoinedRow} {entries : List FromItem} {row : JoinedRow}
    (h : w.list outer entries row) : ∃ rest, row = outer ++ rest := by
  induction entries generalizing outer with
  | nil => exact ⟨[], by simpa [World.list] using h⟩
  | cons f entries ih =>
      obtain ⟨own, -, h⟩ := h
      obtain ⟨rest, rfl⟩ := ih h
      exact ⟨own ++ rest, by simp⟩

/-- A row of a list takes a row of each of its entries, at the places of its sources. -/
theorem list_append {outer : JoinedRow} {before : List FromItem} {f : FromItem}
    {after : List FromItem} {row : JoinedRow} (h : w.list outer (before ++ f :: after) row) :
    ∃ a b c, row = a ++ b ++ c ∧
      a.length = outer.length + (before.flatMap FromItem.allSources).length ∧ w.entry a f b := by
  induction before generalizing outer with
  | nil =>
      obtain ⟨own, entry, h⟩ := h
      obtain ⟨rest, rfl⟩ := list_outer h
      exact ⟨outer, own, rest, rfl, by simp, entry⟩
  | cons g before ih =>
      obtain ⟨own, entry, h⟩ := h
      obtain ⟨a, b, c, rfl, length, hb⟩ := ih h
      refine ⟨a, b, c, rfl, ?_, hb⟩
      simp only [length, List.length_append, entry_length entry, List.flatMap_cons]
      omega

/-! ### Conjunctions -/

theorem truth_conjuncts {scope : List Source} {row : JoinedRow} {e : Expr}
    (h : w.truth scope row e = some true) :
    ∀ c ∈ e.conjuncts, w.truth scope row c = some true := by
  induction e using Expr.conjuncts.induct with
  | case1 a b iha ihb | case2 a b iha ihb =>
      simp only [World.truth, Truth.and_eq_true] at h
      intro c hc
      simp only [Expr.conjuncts, List.mem_append] at hc
      exact hc.elim (iha h.1 c) (ihb h.2 c)
  | case3 e h₁ h₂ =>
      intro c hc
      rw [Expr.conjuncts] at hc
      · rw [List.mem_singleton.mp hc]
        exact h
      · exact h₁
      · exact h₂

theorem holds_conjuncts {scope : List Source} {row : JoinedRow} {condition : Option Expr}
    {e c : Expr} (h : w.Holds scope condition row) (he : condition = some e)
    (hc : c ∈ e.conjuncts) : w.truth scope row c = some true :=
  truth_conjuncts (h e he) c hc

/-- A comparison that is true found a row with the text in its column. -/
theorem truth_textComparison {scope : List Source} {row : JoinedRow} {e : Expr}
    {table : Option String} {name text : String} {place : Nat}
    (he : textComparison? e = some (table, name, text)) (hp : place? scope table = some place)
    (h : w.truth scope row e = some true) : row.value? place name = some text := by
  induction e using textComparison?.induct with
  | case1 e ih => exact ih he h
  | case2 t n s | case3 s t n =>
      simp only [textComparison?, Option.some.injEq, Prod.mk.injEq] at he
      obtain ⟨rfl, rfl, rfl⟩ := he
      simpa [World.truth, textComparison?, hp] using h
  | case4 e h₁ h₂ h₃ =>
      rw [textComparison?] at he
      · cases he
      · exact h₁
      · exact h₂
      · exact h₃

end ReportSql.Rows

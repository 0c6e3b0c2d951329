import ReportSql.Proofs.JoinTrees
import ReportSql.Proofs.LikeReports

/-!
The placeholders that trees show. A text of separate tokens shows those of its tokens, and a tree
those of its parts: names, literals and what stands between parts show none.
-/
namespace ReportSql.Output

open Sql (Lexes)
open Sql.Placeholder (names)
open Text (foundValues)

variable {n : String} {t : Token} {ts us separator : List Token} {groups : List (List Token)}

/-- Whether a token is the placeholder of a name, or SQL that shows it. -/
def Token.Shows (n : String) : Token → Prop
  | .param name => n = name
  | .raw sql => n ∈ names sql
  | _ => False

/-- Whether some tokens show the placeholder of a name. -/
def Shows (n : String) (ts : List Token) : Prop := ∃ t ∈ ts, t.Shows n

@[simp] theorem shows_nil : ¬ Shows n [] := by simp [Shows]

@[simp] theorem shows_cons : Shows n (t :: ts) ↔ t.Shows n ∨ Shows n ts := by simp [Shows]

@[simp] theorem shows_append : Shows n (ts ++ us) ↔ Shows n ts ∨ Shows n us := by
  simp [Shows, or_and_right, exists_or]

theorem mem_within (h : t.Sound) : n ∈ foundValues t.within ↔ t.Shows n := by
  cases t with
  | raw sql =>
      have lexed : Lexes sql.toList (wholeLexemes sql) := by simpa using h [] [] nofun .nil
      rw [Token.within, Token.Shows, names, Text.mem_sortedSet, Sql.Placeholder.split,
        places_of_lexes lexed]
  | param name => simp [Token.within, Token.segments, Token.Shows, foundValues]
  | _ => simp [Token.within, Token.segments, Token.Shows, foundValues_plain]

/-- A text of separate tokens shows what one of them shows. -/
theorem mem_names_separate (h : Separate ts) : n ∈ names (sqlText ts) ↔ Shows n ts := by
  rw [names_separate h, Text.mem_sortedSet]
  induction ts with
  | nil => simp [foundValues]
  | cons t ts ih =>
      rw [List.flatMap_cons, foundValues_append, List.mem_append, mem_within (sound_head h),
        ih (separate_tail h), shows_cons]

theorem shows_separated (hs : ¬ Shows n separator) :
    Shows n (separated separator groups) ↔ ∃ ts ∈ groups, Shows n ts := by
  induction groups with
  | nil => simp [separated]
  | cons ts groups ih =>
      cases groups with
      | nil => simp [separated]
      | cons us groups =>
          have rest : separated separator (ts :: us :: groups) =
            ts ++ separator ++ separated separator (us :: groups) := rfl
          rw [rest, shows_append, shows_append, ih]
          simp [hs]

end ReportSql.Output

namespace ReportSql.Tree

open Output (Shows Token Mark separated shows_separated)
open Sql.Placeholder (names)

variable {n name : String} {e l r value : Expr} {es fs : List Expr} {q : Query}

theorem mem_names (h : Stands AtBlank e.tokens) : n ∈ names e.sql ↔ Shows n e.tokens :=
  Output.mem_names_separate h.separate

/-! ### Expressions -/

@[simp] theorem shows_column (table : Option String) : ¬ Shows n (Expr.column table name).tokens := by
  cases table <;> simp [Expr.tokens, qualifier, Token.Shows]

theorem shows_operator (op : BinaryOp) : ¬ Shows n op.tokens := by
  cases op <;> simp [BinaryOp.tokens, Token.Shows]

@[simp] theorem shows_binary (op : BinaryOp) :
    Shows n (Expr.binary l op r).tokens ↔ Shows n l.tokens ∨ Shows n r.tokens := by
  simp [Expr.tokens, shows_operator, Token.Shows]

@[simp] theorem shows_call :
    Shows n (Expr.call name es false).tokens ↔ ∃ e ∈ es, Shows n e.tokens := by
  have comma : ¬ Shows n [.mark .comma, .mark .space] := by simp [Token.Shows]
  simp [Expr.tokens, parens, Output.commaSeparated, shows_separated comma, exprGroups_eq,
    Token.Shows]

@[simp] theorem shows_param : Shows n (Expr.param name).tokens ↔ n = name := by
  simp [Expr.tokens, Token.Shows]

@[simp] theorem shows_paren : Shows n (Expr.paren e).tokens ↔ Shows n e.tokens := by
  simp [Expr.tokens, parens, Token.Shows]

@[simp] theorem shows_cast (type : String) :
    Shows n (Expr.cast e type).tokens ↔ Shows n e.tokens := by
  by_cases atomic : e.isAtomic = true <;> simp [Expr.tokens, atomic, parens, Token.Shows]

@[simp] theorem shows_interval : ¬ Shows n (Expr.interval name).tokens := by
  simp [Expr.tokens, Token.Shows]

@[simp] theorem shows_literal (value : Literal) : ¬ Shows n (Expr.literal value).tokens := by
  cases value <;> simp [Expr.tokens, Literal.token, Token.Shows]

@[simp] theorem shows_isTruth (value negated : Bool) :
    Shows n (Expr.isTruth e value negated).tokens ↔ Shows n e.tokens := by
  cases negated <;> simp [Expr.tokens, spaced, leadingNot, Token.Shows]

theorem shows_inList (hne : es ≠ []) : Shows n (Expr.inList e es false).tokens ↔
    Shows n e.tokens ∨ ∃ v ∈ es, Shows n v.tokens := by
  obtain ⟨v, vs, rfl⟩ := List.exists_cons_of_ne_nil hne
  have comma : ¬ Shows n [.mark .comma, .mark .space] := by simp [Token.Shows]
  simp [Expr.tokens, spaced, spacedNot, parens, Output.commaSeparated, shows_separated comma,
    exprGroups_eq, Token.Shows]

@[simp] theorem shows_ifElse {condition otherwise : Expr} :
    Shows n (Expr.ifElse condition e otherwise).tokens ↔
      Shows n condition.tokens ∨ Shows n e.tokens ∨ Shows n otherwise.tokens := by
  simp [Expr.ifElse, Expr.tokens, branchTokens, spaced, Token.Shows]

@[simp] theorem shows_sealed : Shows n e.sealed.tokens ↔ n ∈ names e.sql := by
  simp [Expr.sealed, Expr.tokens, Token.Shows]

/-! ### Queries -/

@[simp] theorem shows_as : Shows n (e.as name).tokens ↔ Shows n e.tokens := by
  simp [Expr.as, SelectItem.tokens, aliasTokens, Token.Shows]

@[simp] theorem shows_item : Shows n e.item.tokens ↔ Shows n e.tokens := by
  simp [Expr.item, SelectItem.tokens, aliasTokens]

@[simp] theorem shows_orderItem (direction : Option Direction) (nulls : Option NullsPlace) :
    Shows n (OrderItem.tokens ⟨e, direction, nulls⟩) ↔ Shows n e.tokens := by
  cases direction <;> cases nulls <;> simp [OrderItem.tokens, Token.Shows]

theorem shows_join (kind : JoinKind) (table : String) (condition : Option Expr) :
    Shows n (Join.tokens ⟨kind, .ofName table, condition⟩) ↔
      ∃ e ∈ condition, Shows n e.tokens := by
  cases kind <;> cases condition <;>
    simp [Join.tokens, JoinKind.tokens, Source.ofName, Source.tokens, TableRef.ofName,
      TableRef.tokens, aliasTokens, spaced, Token.Shows]

theorem shows_source (table : String) (joins : List Join) :
    Shows n (FromItem.tokens ⟨.ofName table, joins⟩) ↔ ∃ j ∈ joins, Shows n j.tokens := by
  have more : Shows n (joinTokens joins) ↔ ∃ j ∈ joins, Shows n j.tokens := by
    induction joins with
    | nil => simp [joinTokens]
    | cons j joins ih => simp [joinTokens, ih, Token.Shows]
  simp [FromItem.tokens, Source.ofName, Source.tokens, TableRef.ofName, TableRef.tokens,
    aliasTokens, Token.Shows, more]

theorem shows_cte : Shows n (Cte.ofQuery name q).tokens ↔ Shows n q.tokens := by
  simp [Cte.ofQuery, Cte.tokens, spaced, parens, Token.Shows]

theorem shows_list (m : Mark) (groups : List (List Token)) :
    Shows n (listTokens m groups) ↔ ∃ ts ∈ groups, Shows n ts := by
  have comma : ¬ Shows n [.mark .comma, .mark .space] := by simp [Token.Shows]
  cases groups <;>
    simp [listTokens, lineStart, Output.commaSeparated, shows_separated comma, Token.Shows]

theorem shows_items (groups : List (List Token)) :
    Shows n (itemTokens groups) ↔ ∃ ts ∈ groups, Shows n ts := by
  have comma : ¬ Shows n [.mark .comma, .mark .newline, .indent 1] := by simp [Token.Shows]
  cases groups <;> simp [itemTokens, shows_separated comma, Token.Shows]

theorem shows_with (groups : List (List Token)) :
    Shows n (withTokens groups) ↔ ∃ ts ∈ groups, Shows n ts := by
  have comma : ¬ Shows n [.mark .comma, .mark .newline] := by simp [Token.Shows]
  cases groups <;> simp [withTokens, shows_separated comma, Token.Shows]

theorem shows_rows (rows : Option RowRange) : ¬ Shows n (rowTokens rows) := by
  rcases rows with _ | ⟨_ | _, _ | _⟩ <;>
    simp [rowTokens, RowRange.tokens, Output.limitOffset, Token.Shows]

/-- A query shows what its clauses show. -/
theorem shows_query (plain : q.IsPlain) : Shows n q.tokens ↔
    (∃ c ∈ q.ctes, Shows n c.tokens) ∨ (∃ i ∈ q.items, Shows n i.tokens) ∨
      (∃ f ∈ q.sources, Shows n f.tokens) ∨ Shows n (whereTokens q.condition) ∨
      (∃ e ∈ q.groupBy, Shows n e.tokens) ∨ ∃ o ∈ q.orderBy, Shows n o.tokens := by
  rw [Query.tokens_eq plain]
  simp [shows_with, shows_items, shows_list, shows_rows, Token.Shows]

theorem shows_where :
    Shows n (whereTokens (filterCondition fs)) ↔ ∃ f ∈ fs, Shows n f.tokens := by
  have onto : ∀ condition : Option Expr,
      Shows n (whereTokens (fs.foldl withFilter condition)) ↔
        Shows n (whereTokens condition) ∨ ∃ f ∈ fs, Shows n f.tokens := by
    induction fs with
    | nil => simp
    | cons f fs ih =>
        intro condition
        rw [List.foldl_cons, ih]
        cases condition <;>
          simp [withFilter, whereTokens, lineStart, Expr.and, Token.Shows, or_assoc]
  simpa [filterCondition, whereTokens] using onto none

end ReportSql.Tree

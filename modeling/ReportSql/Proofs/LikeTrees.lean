import ReportSql.Proofs.SeparateTrees

/-!
Trees that are alike part by part have tokens that are alike, for any likeness of tokens that goes
from two texts to the text of both. Two such likenesses are the same text and the same text but
for the names in it.
-/
namespace ReportSql.Tree

open Output (Token Mark Twin separated commaSeparated sqlText)

/-- Whether tokens are alike where their parts are. -/
structure Likeness (R : List Token → List Token → Prop) : Prop where
  refl : ∀ ts, R ts ts
  append : ∀ {ts us vs ws}, R ts us → R vs ws → R (ts ++ vs) (us ++ ws)

theorem likeness_twins : Likeness (List.Forall₂ Twin) where
  refl _ := List.forall₂_same.mpr fun t _ => .same t
  append ht hu := List.rel_append ht hu

theorem sqlText_append (ts us : List Token) : sqlText (ts ++ us) = sqlText ts ++ sqlText us := by
  simp [sqlText]

theorem likeness_text : Likeness fun ts us => sqlText ts = sqlText us where
  refl _ := rfl
  append ht hu := by rw [sqlText_append, sqlText_append, ht, hu]

namespace Likeness

variable {R : List Token → List Token → Prop} {ts us : List Token}
  {groups others : List (List Token)} {e f : Expr} {v w : String}

theorem cons (h : Likeness R) (t : Token) (same : R ts us) : R (t :: ts) (t :: us) :=
  h.append (h.refl [t]) same

theorem separated (h : Likeness R) (separator : List Token) (same : List.Forall₂ R groups others) :
    R (separated separator groups) (separated separator others) := by
  induction same with
  | nil => exact h.refl []
  | @cons ts us groups others own rest ih =>
      cases rest with
      | nil => exact own
      | cons next rest => exact h.append (h.append own (h.refl separator)) ih

theorem isEmpty (same : List.Forall₂ R groups others) : groups.isEmpty = others.isEmpty := by
  cases same <;> rfl

theorem list (h : Likeness R) (m : Mark) (same : List.Forall₂ R groups others) :
    R (listTokens m groups) (listTokens m others) := by
  unfold listTokens
  rw [isEmpty same]
  split
  · exact h.refl []
  · exact h.append (h.refl (lineStart m)) (h.separated _ same)

theorem items (h : Likeness R) (same : List.Forall₂ R groups others) :
    R (itemTokens groups) (itemTokens others) := by
  unfold itemTokens
  rw [isEmpty same]
  split
  · exact h.refl []
  · exact h.append (h.refl _) (h.separated _ same)

theorem defined (h : Likeness R) (same : List.Forall₂ R groups others) :
    R (withTokens groups) (withTokens others) := by
  unfold withTokens
  rw [isEmpty same]
  split
  · exact h.refl []
  · exact h.append (h.append (h.refl _) (h.separated _ same)) (h.refl _)

theorem parens (h : Likeness R) (same : R ts us) : R (parens ts) (parens us) :=
  h.cons _ (h.append same (h.refl _))

theorem binary (h : Likeness R) {l r : Expr} (op : BinaryOp) (left : R e.tokens f.tokens)
    (right : R l.tokens r.tokens) : R (Expr.binary e op l).tokens (Expr.binary f op r).tokens :=
  h.append (h.append (h.append (h.append left (h.refl _)) (h.refl _)) (h.refl _)) right

theorem sum (h : Likeness R) (same : R e.tokens f.tokens) : R e.sum.tokens f.sum.tokens :=
  h.cons _ (h.parens same)

theorem ifElse (h : Likeness R) (condition otherwise : Expr) (same : R e.tokens f.tokens) :
    R (Expr.ifElse condition e otherwise).tokens (Expr.ifElse condition f otherwise).tokens := by
  have branch : R (branchTokens [⟨condition, e⟩]) (branchTokens [⟨condition, f⟩]) :=
    h.append (h.append (h.refl _) same) (h.refl [])
  exact h.cons _ (h.append (h.append branch (h.refl _)) (h.refl _))

theorem as (h : Likeness R) (same : R e.tokens f.tokens) (names : R [.ident v] [.ident w]) :
    R (e.as v).tokens (f.as w).tokens :=
  h.append same (h.append (h.refl [.mark .space, .mark .as, .mark .space]) names)

theorem item (h : Likeness R) (same : R e.tokens f.tokens) : R e.item.tokens f.item.tokens :=
  h.append same (h.refl [])

theorem fromItem (h : Likeness R) (source : Source) {is js : List Join}
    (joins : List.Forall₂ (fun i j : Join => R i.tokens j.tokens) is js) :
    R (FromItem.tokens ⟨source, is⟩) (FromItem.tokens ⟨source, js⟩) := by
  refine h.append (h.refl source.tokens) ?_
  induction joins with
  | nil => exact h.refl []
  | cons own _ ih => exact h.cons _ (h.append own ih)

theorem cte (h : Likeness R) {q r : Query} (name : String) (same : R q.tokens r.tokens) :
    R (Cte.ofQuery name q).tokens (Cte.ofQuery name r).tokens :=
  h.cons _ (h.append (h.refl _) (h.parens (h.cons _ (h.append same (h.refl _)))))

/-- Queries are alike if the same parts of them are. -/
theorem query (h : Likeness R) {q r : Query} (hq : q.IsPlain) (hr : r.IsPlain)
    (ctes : List.Forall₂ R (q.ctes.map Cte.tokens) (r.ctes.map Cte.tokens))
    (items : List.Forall₂ R (q.items.map SelectItem.tokens) (r.items.map SelectItem.tokens))
    (sources : List.Forall₂ R (q.sources.map FromItem.tokens) (r.sources.map FromItem.tokens))
    (condition : R (whereTokens q.condition) (whereTokens r.condition))
    (groupBy : List.Forall₂ R (q.groupBy.map Expr.tokens) (r.groupBy.map Expr.tokens))
    (orderBy : q.orderBy = r.orderBy) (rows : q.rows = r.rows) : R q.tokens r.tokens := by
  rw [Query.tokens_eq hq, Query.tokens_eq hr, orderBy, rows]
  exact h.append (h.defined ctes) (h.cons _ (h.append (h.items items) (h.append (h.list _ sources)
    (h.append condition (h.append (h.list _ groupBy) (h.refl _))))))

end Likeness

end ReportSql.Tree

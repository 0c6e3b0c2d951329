import ReportSql.Proofs.Conditions
import ReportSql.Proofs.LikeReports
import ReportSql.Proofs.ReadableTrees

/-!
Conditions that are joined by AND and written without parentheses. Their text is that of the terms
they are made of, one after the other, so that a text of terms which bind more tightly than AND is
read as all of them. A term that is an OR is taken apart: what stands before it goes with its first
branch, and what comes after it with the second.
-/
namespace ReportSql.Tree

open Output (Token separated)

variable {e f a b : Expr} {es fs before after : List Expr} {n : Nat}

/-! ### Terms -/

/-- What an expression joins by AND outside of parentheses. -/
def Expr.terms : Expr → List Expr
  | .binary left .and right => left.terms ++ right.terms
  | e => [e]

/-- The tokens of some conditions with AND between them. -/
def joinedTokens (es : List Expr) : List Token := separated (spaced .and) (es.map Expr.tokens)

theorem separated_append {separator : List Token} {gs hs : List (List Token)} (hg : gs ≠ [])
    (hh : hs ≠ []) :
    separated separator (gs ++ hs) =
      separated separator gs ++ separator ++ separated separator hs := by
  induction gs with
  | nil => exact absurd rfl hg
  | cons g gs ih =>
      cases gs with
      | nil =>
          obtain ⟨h, hs, rfl⟩ := List.exists_cons_of_ne_nil hh
          rfl
      | cons next gs =>
          have rest := ih (List.cons_ne_nil next gs)
          simp only [List.cons_append] at rest
          simp only [List.cons_append, separated, rest, List.append_assoc]

theorem joinedTokens_append (he : es ≠ []) (hf : fs ≠ []) :
    joinedTokens (es ++ fs) = joinedTokens es ++ spaced .and ++ joinedTokens fs := by
  rw [joinedTokens, List.map_append]
  exact separated_append (List.map_eq_nil_iff.not.mpr he) (List.map_eq_nil_iff.not.mpr hf)

theorem terms_ne_nil (e : Expr) : e.terms ≠ [] := by
  induction e using Expr.terms.induct with
  | case1 left right ihl ihr => simp [Expr.terms, ihl]
  | case2 e other =>
      rw [Expr.terms]
      · exact List.cons_ne_nil _ _
      · exact other

/-- What an AND hands on to both of its sides, a condition hands on to its terms. -/
theorem forall_terms {p : Expr → Prop} (sides : ∀ a b, p (.binary a .and b) → p a ∧ p b)
    (h : p e) : ∀ f ∈ e.terms, p f := by
  induction e using Expr.terms.induct with
  | case1 left right ihl ihr =>
      obtain ⟨first, second⟩ := sides left right h
      rw [Expr.terms]
      exact List.forall_mem_append.mpr ⟨ihl first, ihr second⟩
  | case2 e other =>
      rw [Expr.terms]
      · exact List.forall_mem_singleton.mpr h
      · exact other

theorem tokens_and (a b : Expr) : (a.and b).tokens = a.tokens ++ spaced .and ++ b.tokens := by
  simp [Expr.and, Expr.tokens, BinaryOp.tokens, spaced]

theorem joinedTokens_terms (e : Expr) : joinedTokens e.terms = e.tokens := by
  induction e using Expr.terms.induct with
  | case1 left right ihl ihr =>
      rw [Expr.terms, joinedTokens_append (terms_ne_nil left) (terms_ne_nil right), ihl, ihr]
      exact (tokens_and left right).symm
  | case2 e other =>
      rw [Expr.terms]
      · rfl
      · exact other

theorem tokens_foldl_and (e : Expr) (es : List Expr) :
    (es.foldl Expr.and e).tokens = joinedTokens (e :: es) := by
  induction es generalizing e with
  | nil => rfl
  | cons f es ih =>
      rw [List.foldl_cons, ih]
      by_cases none : es = []
      · subst none
        exact tokens_and e f
      · have first : joinedTokens (e.and f :: es) =
            (e.and f).tokens ++ spaced .and ++ joinedTokens es :=
          joinedTokens_append (List.cons_ne_nil _ []) none
        have all : joinedTokens ([e, f] ++ es) =
            joinedTokens [e, f] ++ spaced .and ++ joinedTokens es :=
          joinedTokens_append (List.cons_ne_nil _ _) none
        rw [first, tokens_and]
        exact all.symm

theorem filterCondition_cons : filterCondition (e :: es) = some (es.foldl Expr.and e) := by
  have onto : ∀ c : Expr, es.foldl withFilter (some c) = some (es.foldl Expr.and c) := by
    induction es with
    | nil => exact fun _ => rfl
    | cons f es ih => exact fun c => ih (c.and f)
  exact onto e

theorem terms_foldl_and (e : Expr) (es : List Expr) :
    (es.foldl Expr.and e).terms = (e :: es).flatMap Expr.terms := by
  induction es generalizing e with
  | nil => exact (List.append_nil _).symm
  | cons f es ih =>
      rw [List.foldl_cons, ih, List.flatMap_cons, List.flatMap_cons, List.flatMap_cons,
        ← List.append_assoc]
      rfl

/-- A condition with its terms joined from the left. -/
def regroup (condition : Option Expr) : Option Expr :=
  condition.bind fun e => filterCondition e.terms

theorem regroup_filterCondition (es : List Expr) :
    regroup (filterCondition es) = filterCondition (es.flatMap Expr.terms) := by
  cases es with
  | nil => rfl
  | cons e es =>
      rw [filterCondition_cons, ← terms_foldl_and]
      rfl

/-- Regrouped conditions are written in the same way. -/
theorem whereTokens_regroup (condition : Option Expr) :
    whereTokens (regroup condition) = whereTokens condition := by
  cases condition with
  | none => rfl
  | some e =>
      obtain ⟨f, fs, terms⟩ := List.exists_cons_of_ne_nil (terms_ne_nil e)
      have grouped : regroup (some e) = some (fs.foldl Expr.and f) := by
        rw [← filterCondition_cons, ← terms]
        rfl
      rw [grouped, whereTokens, whereTokens, tokens_foldl_and, ← terms, joinedTokens_terms]

/-! ### Reading terms -/

/-- Whether an expression can be read back as one of several conditions. -/
def Expr.isTerm (e : Expr) : Bool := e.isReadable && BinaryOp.and.precedence < e.level

/-- What binds more tightly than AND to the left of an expression does so to the right, too. -/
theorem edge_of_level : ∀ {e : Expr}, e.isReadable = true → BinaryOp.and.precedence < e.level →
    BinaryOp.and.precedence ≤ e.edge
  | .binary left op right, h, level => by
      simp only [Expr.isReadable, Bool.and_eq_true, decide_eq_true_eq] at h
      have bound : BinaryOp.and.precedence < op.precedence :=
        Nat.lt_of_lt_of_le level (Nat.min_le_left _ _)
      exact Nat.le_min.mpr ⟨bound.le, edge_of_level h.1.1.2 (bound.trans h.2)⟩
  | .unary op operand, h, _ => by
      simp only [Expr.isReadable, Bool.and_eq_true, decide_eq_true_eq] at h
      have bound : BinaryOp.and.precedence < op.precedence := by cases op <;> decide
      exact Nat.le_min.mpr ⟨bound.le, edge_of_level h.1.1 (bound.trans h.1.2)⟩
  | .between operand low high _, h, _ => by
      simp only [Expr.isReadable, Bool.and_eq_true, decide_eq_true_eq] at h
      have bound : BinaryOp.and.precedence < Sql.Grammar.testPrecedence := by decide
      exact Nat.le_min.mpr ⟨bound.le, edge_of_level h.1.1.1.1.2 (bound.trans h.2)⟩
  | .column _ _, _, _ | .literal _, _, _ | .param _, _, _ | .call _ _ _, _, _ | .case _ _ _, _, _
  | .subquery _, _, _ | .exists _ _, _, _ | .inList _ _ _, _, _ | .inQuery _ _ _, _, _
  | .isNull _ _, _, _ | .isTruth _ _ _, _, _ | .cast _ _, _, _ | .interval _, _, _
  | .star _, _, _ | .paren _, _, _ | .raw _, _, _ => (by decide : 20 ≤ 200)

theorem term_parts (h : e.isTerm = true) :
    e.isReadable = true ∧ BinaryOp.and.precedence ≤ e.edge ∧
      BinaryOp.and.precedence < e.level := by
  simp only [Expr.isTerm, Bool.and_eq_true, decide_eq_true_eq] at h
  exact ⟨h.1, edge_of_level h.1 h.2, h.2⟩

theorem foldl_and_readable (he : e.isTerm = true) (hs : ∀ f ∈ es, f.isTerm = true) :
    (es.foldl Expr.and e).isReadable = true ∧
      BinaryOp.and.precedence ≤ (es.foldl Expr.and e).edge ∧
      BinaryOp.and.precedence ≤ (es.foldl Expr.and e).level := by
  obtain ⟨readable, edge, level⟩ := term_parts he
  replace level := level.le
  clear he
  induction es generalizing e with
  | nil => exact ⟨readable, edge, level⟩
  | cons f es ih =>
      obtain ⟨own, others⟩ := List.forall_mem_cons.mp hs
      obtain ⟨fits, right, loose⟩ := term_parts own
      have both : (e.and f).isReadable = true := by
        simp only [Expr.and, Expr.isReadable, readable, fits, Bool.true_and, Bool.and_eq_true,
          decide_eq_true_eq]
        exact ⟨edge, loose⟩
      exact ih others both (Nat.le_min.mpr ⟨le_rfl, right⟩) (Nat.le_min.mpr ⟨le_rfl, level⟩)

theorem foldl_and_depth (he : e.depth ≤ n) (hs : ∀ f ∈ es, f.depth < n) :
    (es.foldl Expr.and e).depth ≤ n := by
  induction es generalizing e with
  | nil => exact he
  | cons f es ih =>
      obtain ⟨own, others⟩ := List.forall_mem_cons.mp hs
      exact ih (max_le he own) others

/-- Whether the terms of an expression can be read back, within some levels. -/
def Expr.FitsTerms (n : Nat) (e : Expr) : Prop := ∀ c ∈ e.terms, c.isTerm = true ∧ c.depth < n

theorem filterCondition_readable (h : ∀ f ∈ fs, f.isTerm = true) :
    optionReadable (filterCondition fs) = true := by
  cases fs with
  | nil => rfl
  | cons f fs =>
      obtain ⟨own, others⟩ := List.forall_mem_cons.mp h
      rw [filterCondition_cons]
      exact (foldl_and_readable own others).1

theorem filterCondition_depth (h : ∀ f ∈ fs, f.depth < n) :
    optionDepth (filterCondition fs) ≤ n := by
  cases fs with
  | nil => exact Nat.zero_le n
  | cons f fs =>
      obtain ⟨own, others⟩ := List.forall_mem_cons.mp h
      rw [filterCondition_cons]
      exact foldl_and_depth own.le others

theorem filterCondition_conjuncts :
    ((filterCondition fs).map Expr.conjuncts).getD [] = fs.flatMap Expr.conjuncts := by
  cases fs with
  | nil => rfl
  | cons f fs =>
      rw [filterCondition_cons, List.flatMap_cons]
      exact foldl_and_conjuncts fs f

theorem conjuncts_terms (e : Expr) : e.terms.flatMap Expr.conjuncts = e.conjuncts := by
  induction e using Expr.terms.induct with
  | case1 left right ihl ihr =>
      rw [Expr.terms, List.flatMap_append, ihl, ihr]
      rfl
  | case2 e other =>
      rw [Expr.terms]
      · exact List.flatMap_singleton _ _
      · exact other

theorem regroup_conjuncts (condition : Option Expr) :
    ((regroup condition).map Expr.conjuncts).getD [] = (condition.map Expr.conjuncts).getD [] := by
  cases condition with
  | none => rfl
  | some e => exact filterCondition_conjuncts.trans (conjuncts_terms e)

/-! ### Terms that are an OR -/

theorem tokens_or (a b : Expr) : (a.or b).tokens = a.tokens ++ spaced .or ++ b.tokens := by
  simp [Expr.or, Expr.tokens, BinaryOp.tokens, spaced]

/-- An OR among conditions is written as one between the conditions up to its first branch and
those from its second branch on. -/
theorem tokens_or_among :
    (((a.or b) :: after).foldl Expr.and (before.foldl Expr.and e)).tokens =
      ((((before ++ [a]).foldl Expr.and e)).or (after.foldl Expr.and b)).tokens := by
  rw [← List.foldl_append, tokens_or]
  simp only [tokens_foldl_and]
  have whole : ∀ x : Expr, joinedTokens (e :: before ++ [x]) =
      joinedTokens (e :: before) ++ spaced .and ++ x.tokens :=
    fun x => joinedTokens_append (List.cons_ne_nil e before) (List.cons_ne_nil x [])
  by_cases none : after = []
  · subst none
    have first := whole (a.or b)
    have second := whole a
    simp only [List.cons_append] at first second
    rw [first, second, tokens_or]
    simp [joinedTokens, separated]
  · have first : joinedTokens ((e :: before ++ [a.or b]) ++ after) =
        joinedTokens (e :: before ++ [a.or b]) ++ spaced .and ++ joinedTokens after :=
      joinedTokens_append (by simp) none
    have last : joinedTokens ([b] ++ after) = b.tokens ++ spaced .and ++ joinedTokens after :=
      joinedTokens_append (List.cons_ne_nil b []) none
    have second := whole a
    rw [whole (a.or b), tokens_or] at first
    simp only [List.cons_append, List.append_assoc, List.nil_append] at first second last
    rw [first, second, last]
    simp only [List.append_assoc]

theorem or_among_readable (he : e.isTerm = true) (hb : ∀ f ∈ before, f.isTerm = true)
    (first : a.isTerm = true) (second : b.isTerm = true) (ha : ∀ f ∈ after, f.isTerm = true) :
    (((before ++ [a]).foldl Expr.and e).or (after.foldl Expr.and b)).isReadable = true := by
  have loose : BinaryOp.or.precedence < BinaryOp.and.precedence := by decide
  have upTo : ∀ f ∈ before ++ [a], f.isTerm = true :=
    List.forall_mem_append.mpr ⟨hb, List.forall_mem_singleton.mpr first⟩
  obtain ⟨left, edge, -⟩ := foldl_and_readable he upTo
  obtain ⟨right, -, level⟩ := foldl_and_readable second ha
  simp only [Expr.or, Expr.isReadable, left, right, Bool.true_and, Bool.and_eq_true,
    decide_eq_true_eq]
  exact ⟨loose.le.trans edge, loose.trans_le level⟩

end ReportSql.Tree

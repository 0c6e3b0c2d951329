import ReportSql.Proofs.ChangedConditions
import ReportSql.Proofs.JoinedRows

/-!
A condition that is taken apart at its ANDs and joined again. Whatever the nesting and the
parentheses were, nothing that stood between the ANDs is lost, moved or grouped in another way: the
conditions joined again are as true as the whole was before, and only an OR gets parentheses.
-/
namespace ReportSql.Rows.Truth

theorem and_true (a : Truth) : a.and (some true) = a := by
  rcases a with _ | _ | _ <;> rfl

theorem true_and (a : Truth) : Truth.and (some true) a = a := by
  rcases a with _ | _ | _ <;> rfl

theorem and_assoc (a b c : Truth) : (a.and b).and c = a.and (b.and c) := by
  rcases a with _ | _ | _ <;> rcases b with _ | _ | _ <;> rcases c with _ | _ | _ <;> rfl

/-- The truth of conditions that are joined by AND. -/
def all (truths : List Truth) : Truth := truths.foldr and (some true)

@[simp] theorem all_nil : all [] = some true := rfl

@[simp] theorem all_cons (a : Truth) (truths : List Truth) :
    all (a :: truths) = a.and (all truths) :=
  rfl

@[simp] theorem all_append (truths more : List Truth) :
    all (truths ++ more) = (all truths).and (all more) := by
  induction truths with
  | nil => exact (true_and _).symm
  | cons a truths ih => simp only [List.cons_append, all_cons, ih, and_assoc]

end ReportSql.Rows.Truth

namespace ReportSql.Tree

open Normalize (asConjunct_asConjunct conjunction_asConjunct conjuncts_asConjunct)
open Rows (Truth)

variable {e c : Expr} {cs : List Expr} {v : Expr → Truth}

/-- Whether an expression is an AND or has one directly in its parentheses. -/
def Expr.isConjunction : Expr → Bool
  | .binary _ .and _ | .paren (.binary _ .and _) => true
  | _ => false

/-- The three-valued truth of a condition, where `v` gives that of the expressions which it is put
together from by AND and parentheses. -/
def Expr.truth (v : Expr → Truth) : Expr → Truth
  | .binary a .and b => (a.truth v).and (b.truth v)
  | .paren a => a.truth v
  | e => v e

/-! ### Taking apart -/

theorem conjuncts_eq_singleton (h : e.isConjunction = false) : e.conjuncts = [e] := by
  refine conjuncts_leaf ?_ ?_
  · rintro a b rfl
    cases h
  · rintro a b rfl
    cases h

theorem conjuncts_ne_nil (e : Expr) : e.conjuncts ≠ [] := by
  induction e using Expr.conjuncts.induct with
  | case1 a b iha _ | case2 a b iha _ => exact List.append_ne_nil_of_left_ne_nil iha _
  | case3 e h₁ h₂ =>
      rw [conjuncts_leaf h₁ h₂]
      exact List.cons_ne_nil _ _

theorem not_isConjunction (h : c ∈ e.conjuncts) : c.isConjunction = false := by
  have single := conjuncts_conjunct h
  unfold Expr.isConjunction
  -- an AND has a conjunct on either side at least
  have many (a b : Expr) : (a.conjuncts ++ b.conjuncts).length ≠ 1 := by
    have left := List.length_pos_iff.mpr (conjuncts_ne_nil a)
    have right := List.length_pos_iff.mpr (conjuncts_ne_nil b)
    rw [List.length_append]
    omega
  split
  · next a b => exact absurd (congrArg List.length single) (many a b)
  · next a b => exact absurd (congrArg List.length single) (many a b)
  · rfl

theorem all_conjuncts (e : Expr) : Truth.all (e.conjuncts.map (Expr.truth v)) = e.truth v := by
  induction e using Expr.conjuncts.induct with
  | case1 a b iha ihb | case2 a b iha ihb =>
      rw [Expr.conjuncts, List.map_append, Truth.all_append, iha, ihb]
      rfl
  | case3 e h₁ h₂ => simp [conjuncts_leaf h₁ h₂, Truth.and_true]

/-! ### Joining -/

theorem truth_asConjunct (e : Expr) : e.asConjunct.truth v = e.truth v := by
  unfold Expr.asConjunct
  split <;> rfl

theorem truth_foldl_and (rest : List Expr) :
    (rest.foldl Expr.and e).truth v = (e.truth v).and (Truth.all (rest.map (Expr.truth v))) := by
  induction rest generalizing e with
  | nil => exact (Truth.and_true _).symm
  | cons c rest ih =>
      have first : (e.and c).truth v = (e.truth v).and (c.truth v) := rfl
      rw [List.foldl_cons, ih, first, Truth.and_assoc, List.map_cons, Truth.all_cons]

/-- Joined conditions are as true as all of them together, and each of them is found again. -/
theorem exists_conjunction (hne : cs ≠ []) : ∃ joined, conjunction cs = some joined ∧
    (∀ v, joined.truth v = Truth.all (cs.map (Expr.truth v))) ∧
    joined.conjuncts = cs.flatMap fun c => c.asConjunct.conjuncts := by
  obtain ⟨first, rest, rfl⟩ := List.exists_cons_of_ne_nil hne
  refine ⟨(rest.map Expr.asConjunct).foldl Expr.and first.asConjunct, rfl, fun v => ?_, ?_⟩
  · simp [truth_foldl_and, truth_asConjunct, Function.comp_def]
  · rw [foldl_and_conjuncts, List.flatMap_map, List.flatMap_cons]

theorem flatMap_asConjunct (single : ∀ c ∈ cs, c.isConjunction = false) :
    (cs.flatMap fun c => c.asConjunct.conjuncts) = cs.map Expr.asConjunct := by
  have own : ∀ c ∈ cs, c.asConjunct.conjuncts = [c.asConjunct] :=
    fun c hc => conjuncts_asConjunct (conjuncts_eq_singleton (single c hc))
  rw [List.flatMap_def, List.map_congr_left own, ← List.flatMap_def, List.map_eq_flatMap]

/-! ### Taking apart and joining -/

/-- A condition is taken apart into at least one part, and into none that is an AND itself. Joined
again the parts are as true as the condition, whatever the truth of the parts may be, and are
joined in the same way once more. Parts that are no ANDs are found as they were after they are
joined, each OR in parentheses. -/
theorem conditions_regroup :
    (∀ e : Expr, e.conjuncts ≠ [] ∧ (∀ c ∈ e.conjuncts, c.isConjunction = false) ∧
      ∃ joined, conjunction e.conjuncts = some joined ∧ (∀ v, joined.truth v = e.truth v) ∧
        conjunction joined.conjuncts = some joined) ∧
    ∀ cs : List Expr, cs ≠ [] → (∀ c ∈ cs, c.isConjunction = false) →
      ∃ joined, conjunction cs = some joined ∧ joined.conjuncts = cs.map Expr.asConjunct := by
  refine ⟨fun e => ?_, fun cs hne single => ?_⟩
  · have single : ∀ c ∈ e.conjuncts, c.isConjunction = false := fun c => not_isConjunction
    obtain ⟨joined, made, truth, parts⟩ := exists_conjunction (conjuncts_ne_nil e)
    rw [flatMap_asConjunct single] at parts
    refine ⟨conjuncts_ne_nil e, single, joined, made, fun v => ?_, ?_⟩
    · rw [truth, all_conjuncts]
    · rw [parts, conjunction_asConjunct, made]
  · obtain ⟨joined, made, -, parts⟩ := exists_conjunction hne
    exact ⟨joined, made, parts.trans (flatMap_asConjunct single)⟩

/-- `a OR b` beside `c` is found in parentheses, and `((d AND e))` is no AND but parentheses. -/
theorem conditions_regroup_or :
    ∃ joined, conjunction [(Expr.col "a").or (.col "b"), .col "c",
        .paren (.paren ((Expr.col "d").and (.col "e")))] = some joined ∧
      joined.conjuncts = [.paren ((Expr.col "a").or (.col "b")), .col "c",
        .paren (.paren ((Expr.col "d").and (.col "e")))] :=
  conditions_regroup.2 _ (by simp) (by simp [Expr.isConjunction, Expr.or, Expr.col])

end ReportSql.Tree

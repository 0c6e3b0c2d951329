import Mathlib.Algebra.GroupWithZero.Nat
import ReportSql.Proofs.EachQuery
import ReportSql.Proofs.ExprParts

/-!
What a replacement of nodes does to the expressions inside an expression, what it keeps, and how many
nodes it counts.
-/
namespace ReportSql.Tree

/-- The expression with its outermost nodes replaced. -/
def Expr.swap (f : Expr → Option Expr) (e : Expr) : Expr := (e.replace f).1

section

-- the equations of all that replaces, made before the proofs that would wait for them
attribute [local simp] Expr.replace

end

section

variable {f : Expr → Option Expr} {e r : Expr}

theorem swap_of_some (h : f e = some r) : e.swap f = r := by
  cases e <;> simp [Expr.swap, Expr.replace, h]

theorem replaceAll_fst (es : List Expr) : (replaceAll f es).1 = es.map (Expr.swap f) := by
  induction es with
  | nil => rfl
  | cons e rest ih => simp [replaceAll, ih, Expr.swap]

theorem replaceOption_fst (e : Option Expr) : (replaceOption f e).1 = e.map (Expr.swap f) := by
  cases e <;> rfl

theorem replaceBranches_fst (bs : List Branch) :
    (replaceBranches f bs).1 = bs.map fun b => ⟨b.condition.swap f, b.result.swap f⟩ := by
  induction bs with
  | nil => rfl
  | cons b rest ih =>
      obtain ⟨c, r⟩ := b
      simp [replaceBranches, ih, Expr.swap]

/-- Where a node is not replaced itself, the expressions inside it are. -/
theorem swap_of_none (h : f e = none) : e.swap f = e.mapParts (Expr.swap f) := by
  cases e <;>
    simp [Expr.swap, Expr.replace, Expr.mapParts, h, replaceAll_fst, replaceOption_fst,
      replaceBranches_fst]

theorem swap_eq_self (h : ∀ n ∈ e.nodes, f n = none) : e.swap f = e := by
  induction e using Expr.induct with
  | step e ih =>
      rw [swap_of_none (h e e.self_mem_nodes)]
      exact mapParts_eq_self fun x hx => ih x hx fun n hn => h n (Expr.mem_nodes_part hx hn)

/-! ### How many nodes are replaced -/

theorem replaceAll_snd (es : List Expr) :
    (replaceAll f es).2 = (es.map fun e => (e.replace f).2).sum := by
  induction es with
  | nil => rfl
  | cons e rest ih => simp [replaceAll, ih]

theorem replaceOption_snd (o : Option Expr) :
    (replaceOption f o).2 = (o.toList.map fun e => (e.replace f).2).sum := by
  cases o <;> simp [replaceOption]

theorem replaceBranches_snd (bs : List Branch) :
    (replaceBranches f bs).2 =
      ((bs.flatMap Branch.sides).map fun e => (e.replace f).2).sum := by
  induction bs with
  | nil => rfl
  | cons b rest ih =>
      obtain ⟨c, r⟩ := b
      simp [replaceBranches, ih, Branch.sides, Nat.add_assoc]

theorem replace_snd_some (h : f e = some r) : (e.replace f).2 = 1 := by
  cases e <;> simp [Expr.replace, h]

/-- Where a node is not replaced itself, as many are as in the expressions inside it. -/
theorem replace_snd_none (h : f e = none) :
    (e.replace f).2 = (e.parts.map fun x => (x.replace f).2).sum := by
  cases e <;>
    simp [Expr.replace, Expr.parts, h, replaceAll_snd, replaceOption_snd, replaceBranches_snd,
      Nat.add_assoc]

theorem replace_none (h : ∀ n ∈ e.nodes, f n = none) : e.replace f = (e, 0) := by
  apply Prod.ext
  · exact swap_eq_self h
  · induction e using Expr.induct with
    | step e ih =>
        rw [replace_snd_none (h e e.self_mem_nodes), List.sum_eq_zero_iff_forall_eq_nat,
          List.forall_mem_map]
        exact fun x hx => ih x hx fun n hn => h n (Expr.mem_nodes_part hx hn)

end

theorem Query.replaceExprs_fst (f : Expr → Option Expr) (q : Query) :
    (q.replaceExprs f).1 = q.mapParts (Expr.swap f) id := by
  have step : ∀ e : Expr, Yields (m := StateM Nat)
      (fun n => ((e.replace f).1, n + (e.replace f).2)) (e.swap f) :=
    fun e => yields_of_state fun n => rfl
  exact yields_state (yields_compositional.mapExprs fun e _ => step e) 0

end ReportSql.Tree

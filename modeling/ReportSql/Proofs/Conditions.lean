import ReportSql.Proofs.CompletedBlocks
import ReportSql.Proofs.Leaves

/-!
The conditions that a query joins by AND, in its WHERE clause and in its joins.
-/
namespace ReportSql.Tree

variable {t : LeafTest}

/-! ### Conjuncts of an expression -/

theorem children_and (a b : Expr) : (a.and b).children = a.children ++ b.children := by
  rw [Expr.children_eq]
  simp [Expr.and, Expr.parts, Expr.query?]

theorem children_paren (a : Expr) : (Expr.paren a).children = a.children := by
  rw [Expr.children_eq]
  simp [Expr.parts, Expr.query?]

theorem has_and {a b : Expr} : (a.and b).has t ↔ a.has t ∨ b.has t := by
  rw [has_iff]
  simp [Expr.and, Expr.parts, LeafTest.holds]

theorem has_paren {a : Expr} : (Expr.paren a).has t ↔ a.has t := by
  rw [has_iff]
  simp [Expr.parts, LeafTest.holds]

theorem conjuncts_and (a b : Expr) : (a.and b).conjuncts = a.conjuncts ++ b.conjuncts := rfl

theorem conjuncts_leaf {e : Expr} (h₁ : ∀ a b, e ≠ .binary a .and b)
    (h₂ : ∀ a b, e ≠ .paren (.binary a .and b)) : e.conjuncts = [e] := by
  rw [Expr.conjuncts]
  · exact h₁
  · exact h₂

theorem conjuncts_children (e : Expr) : e.conjuncts.flatMap Expr.children = e.children := by
  induction e using Expr.conjuncts.induct with
  | case1 a b iha ihb =>
      rw [Expr.conjuncts, List.flatMap_append, iha, ihb]
      exact (children_and a b).symm
  | case2 a b iha ihb =>
      rw [Expr.conjuncts, List.flatMap_append, iha, ihb, children_paren]
      exact (children_and a b).symm
  | case3 e h₁ h₂ => rw [conjuncts_leaf h₁ h₂, List.flatMap_singleton]

theorem conjuncts_has {e : Expr} : (∃ c ∈ e.conjuncts, c.has t) ↔ e.has t := by
  induction e using Expr.conjuncts.induct with
  | case1 a b iha ihb =>
      simp only [Expr.conjuncts, List.mem_append, or_and_right, exists_or, iha, ihb]
      exact has_and.symm
  | case2 a b iha ihb =>
      simp only [Expr.conjuncts, List.mem_append, or_and_right, exists_or, iha, ihb]
      exact has_and.symm.trans has_paren.symm
  | case3 e h₁ h₂ => simp [conjuncts_leaf h₁ h₂]

theorem conjuncts_conjunct {e c : Expr} (h : c ∈ e.conjuncts) : c.conjuncts = [c] := by
  induction e using Expr.conjuncts.induct with
  | case1 a b iha ihb | case2 a b iha ihb =>
      rw [Expr.conjuncts, List.mem_append] at h
      exact h.elim iha ihb
  | case3 e h₁ h₂ =>
      rw [conjuncts_leaf h₁ h₂, List.mem_singleton] at h
      rw [h]
      exact conjuncts_leaf h₁ h₂

theorem conjuncts_mapQuery (f : Query → Query) (e : Expr) :
    (e.mapQuery f).conjuncts = e.conjuncts.map (Expr.mapQuery f) := by
  induction e using Expr.conjuncts.induct with
  | case1 a b iha ihb | case2 a b iha ihb =>
      rw [Expr.conjuncts, List.map_append, ← iha, ← ihb]
      rfl
  | case3 e h₁ h₂ =>
      rw [conjuncts_leaf h₁ h₂]
      refine conjuncts_leaf (fun a b h => ?_) (fun a b h => ?_)
      · cases e <;> cases h
        exact h₁ _ _ rfl
      · cases e with
        | paren inner =>
            cases inner <;> cases h
            exact h₂ _ _ rfl
        | _ => cases h

/-- A conjunct that a replacement leaves alone stays one. -/
theorem conjunct_swap {f : Expr → Option Expr} {e c : Expr} (h : c ∈ e.conjuncts)
    (path : ∀ g, c ∈ g.conjuncts → f g = none) (own : c.swap f = c) :
    c ∈ (e.swap f).conjuncts := by
  induction e using Expr.conjuncts.induct with
  | case1 a b iha ihb =>
      have here := swap_of_none (path _ h)
      rw [Expr.conjuncts, List.mem_append] at h
      rw [here]
      exact List.mem_append.mpr (h.imp iha ihb)
  | case2 a b iha ihb =>
      have here := swap_of_none (path _ h)
      have inside : Expr.swap f (.binary a .and b) = _ := swap_of_none (path _ h)
      rw [Expr.conjuncts, List.mem_append] at h
      rw [here, Expr.mapParts, inside]
      exact List.mem_append.mpr (h.imp iha ihb)
  | case3 e h₁ h₂ =>
      have same := h
      rw [conjuncts_leaf h₁ h₂, List.mem_singleton] at same
      rw [← same, own]
      exact same ▸ h

/-! ### Conjunctions -/

theorem children_asConjunct (e : Expr) : e.asConjunct.children = e.children := by
  unfold Expr.asConjunct
  split
  · exact children_paren _
  · rfl

theorem has_asConjunct {e : Expr} : e.asConjunct.has t ↔ e.has t := by
  unfold Expr.asConjunct
  split
  · exact has_paren
  · rfl

theorem mem_asConjunct {e c : Expr} (h : c ∈ e.conjuncts) (hc : ∀ a b, c ≠ .binary a .or b) :
    c ∈ e.asConjunct.conjuncts := by
  unfold Expr.asConjunct
  split
  · next a b =>
    rw [conjuncts_leaf (by simp) (by simp), List.mem_singleton] at h
    exact absurd h (hc a b)
  · exact h

section

variable {α : Type} (rest : List Expr)

theorem foldl_and_conjuncts (e : Expr) :
    (rest.foldl Expr.and e).conjuncts = e.conjuncts ++ rest.flatMap Expr.conjuncts := by
  induction rest generalizing e with
  | nil => simp
  | cons x rest ih => rw [List.foldl_cons, ih, conjuncts_and, List.flatMap_cons,
      List.append_assoc]

theorem foldl_and_children (e : Expr) :
    (rest.foldl Expr.and e).children = e.children ++ rest.flatMap Expr.children := by
  induction rest generalizing e with
  | nil => simp
  | cons x rest ih => rw [List.foldl_cons, ih, children_and, List.flatMap_cons,
      List.append_assoc]

theorem foldl_and_has {e : Expr} :
    (rest.foldl Expr.and e).has t ↔ e.has t ∨ ∃ x ∈ rest, x.has t := by
  induction rest generalizing e with
  | nil => simp
  | cons x rest ih => simp [ih, has_and, or_assoc]

end

theorem conjunction_conjuncts (cs : List Expr) :
    (conjunction cs).toList.flatMap Expr.conjuncts =
      cs.flatMap fun c => c.asConjunct.conjuncts := by
  cases cs with
  | nil => rfl
  | cons c rest =>
      simp [conjunction, foldl_and_conjuncts, List.flatMap_map]

theorem conjunction_children (cs : List Expr) :
    (conjunction cs).toList.flatMap Expr.children = cs.flatMap Expr.children := by
  cases cs with
  | nil => rfl
  | cons c rest =>
      simp [conjunction, foldl_and_children, List.flatMap_map, children_asConjunct]

theorem conjunction_has {cs : List Expr} :
    (∃ e ∈ (conjunction cs).toList, e.has t) ↔ ∃ c ∈ cs, c.has t := by
  cases cs with
  | nil => simp [conjunction]
  | cons c rest => simp [conjunction, foldl_and_has, has_asConjunct]

end ReportSql.Tree

namespace ReportSql.Normalize

open Tree

/-! ### Conditions that all rows meet -/

theorem brings_outline {table : String} {j k : Join} (h : j.source.outline = k.source.outline) :
    Join.brings table j = Join.brings table k := by
  unfold Join.brings
  cases hj : j.source <;> cases hk : k.source <;>
    simp_all [Source.outline, Source.mapQuery]

theorem bindingConditions_mapParts {h : Expr → Expr} {s : Source → Source}
    (hs : ∀ x, (s x).outline = x.outline) (q : Query) (table : String) :
    bindingConditions (q.mapParts h s) table = (bindingConditions q table).map h := by
  have brings (j : Join) : Join.brings table ⟨j.kind, s j.source, j.condition.map h⟩ =
      Join.brings table j := brings_outline (hs j.source)
  simp [bindingConditions, Query.mapParts, List.flatMap_map, List.map_flatMap, List.filter_map,
    List.filterMap_map, List.map_filterMap, Function.comp_def, brings, Option.toList_map]

theorem binds_mapChildren {f : Query → Query} {q : Query} {table : String} {c : Expr}
    (hc : c.children = []) : Binds table (q.mapChildren f) c ↔ Binds table q c := by
  have conditions : bindingConditions (q.mapChildren f) table =
      (bindingConditions q table).map (Expr.mapQuery f) :=
    bindingConditions_mapParts (outline_mapQuery f) q table
  simp only [Binds, conditions, List.flatMap_map, conjuncts_mapQuery, List.mem_flatMap,
    List.mem_map]
  refine exists_congr fun e => and_congr_right fun _ => ?_
  constructor
  · rintro ⟨own, h, rfl⟩
    rw [children_mapQuery, List.map_eq_nil_iff] at hc
    rwa [mapQuery_eq_self (by simp [hc])]
  · intro h
    exact ⟨c, h, mapQuery_eq_self (by simp [hc])⟩

theorem binds_mapParts {h : Expr → Expr} {q : Query} {table : String} {c : Expr}
    (keep : ∀ e, c ∈ e.conjuncts → c ∈ (h e).conjuncts) (hc : Binds table q c) :
    Binds table (q.mapParts h id) c := by
  rw [Binds, bindingConditions_mapParts (s := id) fun _ => rfl, List.flatMap_map]
  obtain ⟨e, he, hc⟩ := List.mem_flatMap.mp hc
  exact List.mem_flatMap.mpr ⟨e, he, keep e hc⟩

/-! ### Another WHERE clause -/

section

variable {edit : List Expr → List Expr} {q : Query} {t : LeafTest} {table : String}

/-- The conditions that the WHERE clause joins by AND. -/
def conditions (q : Query) : List Expr := (q.condition.map Expr.conjuncts).getD []

theorem conjuncts_conditions {c : Expr} (h : c ∈ conditions q) : c.conjuncts = [c] := by
  unfold conditions at h
  cases hq : q.condition with
  | none => simp [hq] at h
  | some e => exact conjuncts_conjunct (by simpa [hq] using h)

theorem has_editConjuncts : (q.editConjuncts edit).has t ↔
    ({ q with condition := none }).has t ∨ ∃ c ∈ edit (conditions q), c.has t := by
  rw [← conjunction_has]
  simp only [Query.editConjuncts, Query.has, Query.exprs, Query.allSources, List.mem_append,
    Option.toList_none, List.not_mem_nil, or_false, or_and_right, exists_or, conditions]
  grind

theorem binds_editConjuncts {c : Expr} : Binds table (q.editConjuncts edit) c ↔
    c ∈ (edit (conditions q)).flatMap (fun e => e.asConjunct.conjuncts) ∨
      Binds table { q with condition := none } c := by
  rw [← conjunction_conjuncts]
  simp only [Binds, Query.editConjuncts, bindingConditions, List.flatMap_append, List.mem_append,
    Option.toList_none, List.flatMap_nil, List.not_mem_nil, false_or, conditions]

theorem children_editConjuncts {edit' : List Expr → List Expr}
    (h : (edit (conditions q)).flatMap Expr.children =
      (edit' (conditions q)).flatMap Expr.children) :
    (q.editConjuncts edit).children = (q.editConjuncts edit').children := by
  rw [← conjunction_children (edit _), ← conjunction_children (edit' _)] at h
  simp only [conditions] at h
  simp only [Query.editConjuncts, Query.children, Query.exprs, Query.allSources,
    List.flatMap_append, h]

theorem has_conditions : q.has t ↔
    ({ q with condition := none }).has t ∨ ∃ c ∈ conditions q, c.has t := by
  have conjuncts : (∃ c ∈ conditions q, c.has t) ↔ ∃ e ∈ q.condition.toList, e.has t := by
    cases h : q.condition <;> simp [conditions, h, conjuncts_has]
  rw [conjuncts]
  simp only [Query.has, Query.exprs, Query.allSources, List.mem_append, Option.toList_none,
    List.not_mem_nil, or_false, or_and_right, exists_or]
  grind

theorem binds_conditions {c : Expr} : Binds table q c ↔
    c ∈ conditions q ∨ Binds table { q with condition := none } c := by
  have conjuncts : conditions q = q.condition.toList.flatMap Expr.conjuncts := by
    cases h : q.condition <;> simp [conditions, h]
  simp only [conjuncts, Binds, bindingConditions, List.flatMap_append, List.mem_append,
    Option.toList_none, List.flatMap_nil, List.not_mem_nil, false_or]

theorem children_conditions :
    (q.editConjuncts id).children = q.children := by
  have conjuncts : (conjunction (conditions q)).toList.flatMap Expr.children =
      q.condition.toList.flatMap Expr.children := by
    rw [conjunction_children]
    cases h : q.condition <;> simp [conditions, h, conjuncts_children]
  simp only [conditions] at conjuncts
  simp only [Query.editConjuncts, id, Query.children, Query.exprs, Query.allSources,
    List.flatMap_append, conjuncts]

end

end ReportSql.Normalize

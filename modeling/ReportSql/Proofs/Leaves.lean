import ReportSql.Proofs.Replacing
import ReportSql.Tree.Reference

/-!
Parameters and raw SQL in a query. What a query mentions and what it reads in raw SQL is told by
these leaves of its expressions and by its raw sources.
-/
namespace ReportSql.Tree

/-- Tests of the parameters and of the raw SQL in a tree. -/
structure LeafTest where
  param : String → Bool
  raw : String → Bool

/-- The test that never holds. -/
def LeafTest.never : LeafTest := ⟨fun _ => false, fun _ => false⟩

def LeafTest.holds (t : LeafTest) : Expr → Bool
  | .param name => t.param name
  | .raw sql => t.raw sql
  | _ => false

/-- Whether a parameter is mentioned. -/
def LeafTest.mentions (param : String) : LeafTest :=
  ⟨(· == param), (Sql.Placeholder.mentions · param)⟩

def Expr.has (t : LeafTest) (e : Expr) : Prop := e.any t.holds = true

def Source.raw? : Source → Option String
  | .raw sql => some sql
  | .named _ | .derived _ _ => none

/-- Whether a test holds of a leaf of an expression of a query itself or of a raw source. -/
def Query.has (t : LeafTest) (q : Query) : Prop :=
  (∃ e ∈ q.exprs, e.has t) ∨ ∃ sql ∈ q.allSources.filterMap Source.raw?, t.raw sql = true

variable {t : LeafTest}

/-! ### Expressions -/

theorem has_iff {e : Expr} : e.has t ↔ t.holds e = true ∨ ∃ x ∈ e.parts, x.has t := by
  simp only [Expr.has, e.any_eq, Bool.or_eq_true, List.any_eq_true]

theorem not_has_never {e : Expr} : ¬e.has .never := by
  intro h
  obtain ⟨n, -, h⟩ := List.any_eq_true.mp h
  cases n <;> cases h

theorem holds_mapParts (g : Expr → Expr) (e : Expr) :
    t.holds (e.mapParts g) = t.holds e := by
  cases e <;> rfl

theorem has_mapParts {g : Expr → Expr} {e : Expr} :
    (e.mapParts g).has t ↔ t.holds e = true ∨ ∃ x ∈ e.parts, (g x).has t := by
  rw [has_iff, holds_mapParts, parts_mapParts]
  simp only [List.mem_map, exists_exists_and_eq_and]

theorem has_mapQuery {f : Query → Query} {e : Expr} : (e.mapQuery f).has t ↔ e.has t := by
  induction e using Expr.induct with
  | step e ih =>
      have own : t.holds (e.mapOwnQuery f) = t.holds e := by cases e <;> rfl
      rw [mapQuery_eq, has_mapParts, own, parts_mapOwnQuery, has_iff]
      exact or_congr_right (exists_congr fun x => and_congr_right fun hx => ih x hx)

section

variable {f : Expr → Option Expr}

theorem has_swap (hf : ∀ x r, f x = some r → x.has t → r.has t) {e : Expr} (h : e.has t) :
    (e.swap f).has t := by
  induction e using Expr.induct with
  | step e ih =>
      cases own : f e with
      | some r =>
          rw [swap_of_some own]
          exact hf e r own h
      | none =>
          rw [swap_of_none own, has_mapParts]
          exact (has_iff.mp h).imp_right fun ⟨x, hx, hasx⟩ => ⟨x, hx, ih x hx hasx⟩

theorem has_of_swap {Q : Prop} (hf : ∀ x r, f x = some r → r.has t → x.has t ∨ Q) {e : Expr}
    (h : (e.swap f).has t) : e.has t ∨ Q := by
  induction e using Expr.induct with
  | step e ih =>
      cases own : f e with
      | some r =>
          rw [swap_of_some own] at h
          exact hf e r own h
      | none =>
          rw [swap_of_none own, has_mapParts] at h
          rcases h with h | ⟨x, hx, h⟩
          · exact .inl (has_iff.mpr (.inl h))
          · exact (ih x hx h).imp_left fun h => has_iff.mpr (.inr ⟨x, hx, h⟩)

end

/-! ### Queries -/

/-- A source without what is nested in it. -/
def Source.outline (s : Source) : Source := s.mapQuery fun _ => Query.empty

/-- The sources of a query without what is nested in them. -/
def Query.outline (q : Query) : List Source := q.allSources.map Source.outline

theorem outline_mapQuery (f : Query → Query) (s : Source) :
    (s.mapQuery f).outline = s.outline := by
  cases s <;> rfl

theorem outline_mapParts {h : Expr → Expr} {s : Source → Source}
    (hs : ∀ x, (s x).outline = x.outline) (q : Query) : (q.mapParts h s).outline = q.outline := by
  simp [Query.outline, Function.comp_def, hs]

@[simp] theorem outline_mapChildren (f : Query → Query) (q : Query) :
    (q.mapChildren f).outline = q.outline :=
  outline_mapParts (outline_mapQuery f) q

theorem rawSources_outline (q : Query) :
    q.allSources.filterMap Source.raw? = q.outline.filterMap Source.raw? := by
  rw [Query.outline, List.filterMap_map]
  congr
  funext s
  cases s <;> rfl

theorem has_iff_outline {q : Query} :
    q.has t ↔ (∃ e ∈ q.exprs, e.has t) ∨ ∃ sql ∈ q.outline.filterMap Source.raw?,
      t.raw sql = true := by
  rw [Query.has, rawSources_outline]

theorem has_mapChildren {f : Query → Query} {q : Query} : (q.mapChildren f).has t ↔ q.has t := by
  have exprs : (q.mapChildren f).exprs = q.exprs.map (Expr.mapQuery f) := exprs_mapParts q
  simp only [has_iff_outline, outline_mapChildren, exprs, List.mem_map, exists_exists_and_eq_and,
    has_mapQuery]

/-! ### Raw SQL in a query -/

/-- The raw SQL that a node is made of. -/
def Expr.raw? : Expr → Option String
  | .raw sql => some sql
  | _ => none

theorem rawFragments_eq (q : Query) :
    q.rawFragments =
      q.allSources.filterMap Source.raw? ++ (q.exprs.flatMap Expr.nodes).filterMap Expr.raw? := by
  unfold Query.rawFragments
  congr
  funext s
  cases s <;> rfl

/-- The test of raw SQL alone. -/
def LeafTest.ofRaw (p : String → Bool) : LeafTest := ⟨fun _ => false, p⟩

theorem has_ofRaw {p : String → Bool} {e : Expr} :
    e.has (.ofRaw p) ↔ ∃ sql ∈ e.nodes.filterMap Expr.raw?, p sql = true := by
  simp only [Expr.has, Expr.any, List.any_eq_true, List.mem_filterMap]
  constructor
  · rintro ⟨n, hn, h⟩
    cases n with
    | raw sql => exact ⟨sql, ⟨_, hn, rfl⟩, h⟩
    | _ => cases h
  · rintro ⟨sql, ⟨n, hn, raw⟩, h⟩
    cases n with
    | raw own =>
        cases raw
        exact ⟨_, hn, h⟩
    | _ => cases raw

theorem exists_rawFragment {q : Query} {p : String → Bool} :
    (∃ sql ∈ q.rawFragments, p sql = true) ↔ q.has (.ofRaw p) := by
  simp only [rawFragments_eq, List.mem_append, Query.has, has_ofRaw, List.filterMap_flatMap,
    List.mem_flatMap]
  constructor
  · rintro ⟨sql, source | ⟨e, he, node⟩, h⟩
    · exact .inr ⟨sql, source, h⟩
    · exact .inl ⟨e, he, sql, node, h⟩
  · rintro (⟨e, he, sql, node, h⟩ | ⟨sql, source, h⟩)
    · exact ⟨sql, .inr ⟨e, he, node⟩, h⟩
    · exact ⟨sql, .inl source, h⟩

theorem Expr.has_of_ofRaw {e : Expr} (h : e.has (.ofRaw t.raw)) : e.has t := by
  simp only [Expr.has, Expr.any, List.any_eq_true] at h ⊢
  obtain ⟨n, hn, h⟩ := h
  refine ⟨n, hn, ?_⟩
  cases n with
  | raw _ => exact h
  | _ => cases h

theorem references_iff {q : Query} {param : String} :
    q.references param = true ↔ ∃ b ∈ q.queries, b.has (.mentions param) := by
  have test : Expr.isParamOrMentions param = (LeafTest.mentions param).holds := by
    funext e
    cases e <;> rfl
  simp only [Query.references, List.any_eq_true, Bool.or_eq_true, test]
  refine exists_congr fun b => and_congr_right fun _ => ?_
  rw [exists_rawFragment]
  constructor
  · rintro (h | ⟨e, he, h⟩ | h)
    · exact .inl h
    · exact .inl ⟨e, he, Expr.has_of_ofRaw (t := .mentions param) h⟩
    · exact .inr h
  · rintro (h | h)
    · exact .inl h
    · exact .inr (.inr h)

end ReportSql.Tree

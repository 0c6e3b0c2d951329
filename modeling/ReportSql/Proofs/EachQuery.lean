import Mathlib.Data.List.Forall2
import ReportSql.Proofs.ExprParts
import ReportSql.Proofs.NestedQueries

/-!
Steps on all queries of a query without what they count on the way. A step whose query does not
depend on the count makes the same tree as a plain function.
-/
namespace ReportSql.Tree

/-! ### Plain maps -/

/-- Changes the expressions of a query itself and its sources. -/
def Query.mapParts (h : Expr → Expr) (s : Source → Source) (q : Query) : Query :=
  { q with
    items := q.items.map fun i => { i with expr := h i.expr }
    sources := q.sources.map fun f =>
      ⟨s f.source, f.joins.map fun j => ⟨j.kind, s j.source, j.condition.map h⟩⟩
    condition := q.condition.map h
    groupBy := q.groupBy.map h
    having := q.having.map h
    orderBy := q.orderBy.map fun o => { o with expr := h o.expr } }

/-- Changes the queries that the nodes of an expression are made of. -/
def Expr.mapQuery (f : Query → Query) (e : Expr) : Expr := Id.run (e.mapQueryM (m := Id) f)

def Source.mapQuery (f : Query → Query) : Source → Source
  | .derived query label => .derived (f query) label
  | .named table => .named table
  | .raw sql => .raw sql

/-- Changes the queries directly nested in a query. -/
def Query.mapChildren (f : Query → Query) (q : Query) : Query :=
  { q.mapParts (Expr.mapQuery f) (Source.mapQuery f) with
    ctes := q.ctes.map fun c => { c with query := f c.query }
    setOperation := q.setOperation.map fun o => { o with left := f o.left, right := f o.right } }

/-- Applies a step to a query and to the queries nested in the result, down to a depth. -/
def Query.eachWithin (step : Query → Query) : Nat → Query → Query
  | 0, q => q
  | n + 1, q => (step q).mapChildren (eachWithin step n)

/-- Applies a step to a query and to the queries nested in the result. -/
def Query.each (step : Query → Query) (q : Query) : Query := q.eachWithin step q.queries.length

/-! ### Parts of a changed query -/

section

variable {h : Expr → Expr} {s : Source → Source}

@[simp] theorem exprs_mapParts (q : Query) : (q.mapParts h s).exprs = q.exprs.map h := by
  simp [Query.exprs, Query.mapParts, Function.comp_def, List.map_flatMap, List.flatMap_map,
    List.filterMap_map, List.map_filterMap, Option.toList_map]

@[simp] theorem allSources_mapParts (q : Query) :
    (q.mapParts h s).allSources = q.allSources.map s := by
  simp [Query.allSources, Query.mapParts, FromItem.allSources, Function.comp_def,
    List.map_flatMap, List.flatMap_map]

end

section

variable {f : Query → Query}

/-- Changes the query that an expression itself is made of. -/
def Expr.mapOwnQuery (f : Query → Query) : Expr → Expr
  | .subquery query => .subquery (f query)
  | .exists query negated => .exists (f query) negated
  | .inQuery operand query negated => .inQuery operand (f query) negated
  | e => e

theorem mapQueries_eq (es : List Expr) :
    Id.run (mapQueriesM (m := Id) f es) = es.map (Expr.mapQuery f) := by
  induction es with
  | nil => rfl
  | cons e rest ih => exact congrArg (e.mapQuery f :: ·) ih

theorem mapOptionQuery_eq (e : Option Expr) :
    Id.run (mapOptionQueryM (m := Id) f e) = e.map (Expr.mapQuery f) := by
  cases e <;> rfl

theorem mapBranchQueries_eq (bs : List Branch) :
    Id.run (mapBranchQueriesM (m := Id) f bs) =
      bs.map fun b => ⟨b.condition.mapQuery f, b.result.mapQuery f⟩ := by
  induction bs with
  | nil => rfl
  | cons b rest ih =>
      obtain ⟨c, r⟩ := b
      exact congrArg ((⟨c.mapQuery f, r.mapQuery f⟩ : Branch) :: ·) ih

theorem mapQuery_eq (e : Expr) :
    e.mapQuery f = (e.mapOwnQuery f).mapParts (Expr.mapQuery f) := by
  cases e with
  | call name xs distinct => exact congrArg (Expr.call name · distinct) (mapQueries_eq xs)
  | inList a xs negated => exact congrArg (Expr.inList _ · negated) (mapQueries_eq xs)
  | case o bs e =>
      have parts : Expr.mapQuery f (.case o bs e) =
          .case (Id.run (mapOptionQueryM (m := Id) f o))
            (Id.run (mapBranchQueriesM (m := Id) f bs))
            (Id.run (mapOptionQueryM (m := Id) f e)) := rfl
      rw [parts, mapOptionQuery_eq, mapBranchQueries_eq, mapOptionQuery_eq]
      rfl
  | _ => rfl

theorem parts_mapOwnQuery (e : Expr) : (e.mapOwnQuery f).parts = e.parts := by
  cases e <;> rfl

theorem query?_mapParts {g : Expr → Expr} (e : Expr) : (e.mapParts g).query? = e.query? := by
  cases e <;> rfl

theorem query?_mapOwnQuery (e : Expr) : (e.mapOwnQuery f).query? = e.query?.map f := by
  cases e <;> rfl

theorem Expr.children_eq (e : Expr) :
    e.children = e.query?.toList ++ e.parts.flatMap Expr.children := by
  rw [Expr.children, e.nodes_eq, List.filterMap_cons, List.filterMap_flatMap]
  cases e.query? <;> rfl

theorem nodes_mapQuery (e : Expr) : (e.mapQuery f).nodes = e.nodes.map (Expr.mapQuery f) := by
  induction e using Expr.induct with
  | step e ih =>
      have inside : (e.mapQuery f).parts = e.parts.map (Expr.mapQuery f) := by
        rw [mapQuery_eq, parts_mapParts, parts_mapOwnQuery]
      rw [Expr.nodes_eq, e.nodes_eq, inside, List.map_cons, List.flatMap_map, List.map_flatMap,
        List.flatMap_def, List.flatMap_def, List.map_congr_left ih]

theorem any_mapQuery {P : Expr → Bool} (own : ∀ x, P (x.mapQuery f) = P x) (e : Expr) :
    (e.mapQuery f).any P = e.any P := by
  rw [Expr.any, nodes_mapQuery, List.any_map]
  exact congrArg e.nodes.any (funext own)

@[simp] theorem children_mapQuery (e : Expr) : (e.mapQuery f).children = e.children.map f := by
  have own (x : Expr) : (x.mapQuery f).query? = x.query?.map f := by
    rw [mapQuery_eq, query?_mapParts, query?_mapOwnQuery]
  rw [Expr.children, nodes_mapQuery, List.filterMap_map, Expr.children, List.map_filterMap]
  exact congrArg (List.filterMap · e.nodes) (funext own)

@[simp] theorem query?_mapSource (s : Source) : (s.mapQuery f).query? = s.query?.map f := by
  cases s <;> rfl

@[simp] theorem children_mapChildren (q : Query) :
    (q.mapChildren f).children = q.children.map f := by
  have exprs : (q.mapChildren f).exprs = q.exprs.map (Expr.mapQuery f) := exprs_mapParts q
  have sources : (q.mapChildren f).allSources = q.allSources.map (Source.mapQuery f) :=
    allSources_mapParts q
  simp only [Query.children, exprs, sources]
  simp [Query.mapChildren, SetOperation.sides, List.flatMap_map, List.map_flatMap,
    List.filterMap_map, List.map_filterMap, Function.comp_def]
  cases q.setOperation <;> simp [SetOperation.sides]

end

/-! ### Queries of a changed query -/

theorem mapQuery_eq_self {f : Query → Query} {e : Expr} (h : ∀ c ∈ e.children, f c = c) :
    e.mapQuery f = e := by
  induction e using Expr.induct with
  | step e ih =>
      rw [Expr.children_eq] at h
      have own : e.mapOwnQuery f = e := by
        cases e with
        | subquery q => exact congrArg Expr.subquery (h q (by simp [Expr.query?]))
        | «exists» q n => exact congrArg (Expr.exists · n) (h q (by simp [Expr.query?]))
        | inQuery a q n => exact congrArg (Expr.inQuery a · n) (h q (by simp [Expr.query?]))
        | _ => rfl
      rw [mapQuery_eq, own]
      refine mapParts_eq_self fun x hx => ih x hx fun c hc => h c ?_
      exact List.mem_append_right _ (List.mem_flatMap.mpr ⟨x, hx, hc⟩)

section

variable {R : Query → Query → Prop}

theorem forall₂_flatMap {α : Type} {f g : α → List Query} {xs : List α}
    (h : ∀ x ∈ xs, List.Forall₂ R (f x) (g x)) :
    List.Forall₂ R (xs.flatMap f) (xs.flatMap g) := by
  induction xs with
  | nil => exact .nil
  | cons x rest ih =>
      rw [List.flatMap_cons, List.flatMap_cons]
      exact List.rel_append (h x List.mem_cons_self)
        (ih fun y hy => h y (List.mem_cons_of_mem _ hy))

/-- Two steps that lead to the same nested queries lead to related queries throughout if they
lead to related ones at each place. -/
theorem eachWithin_forall₂ {step₁ step₂ : Query → Query} (refl : ∀ q, R q q)
    (own : ∀ q f g, R ((step₁ q).mapChildren f) ((step₂ q).mapChildren g))
    (children : ∀ q, (step₁ q).children = (step₂ q).children) (n : Nat) (q : Query) :
    List.Forall₂ R (q.eachWithin step₁ n).queries (q.eachWithin step₂ n).queries := by
  induction n generalizing q with
  | zero => exact List.forall₂_same.mpr fun b _ => refl b
  | succ n ih =>
      rw [Query.eachWithin, Query.eachWithin, Query.queries_eq, Query.queries_eq (_ : Query),
        children_mapChildren, children_mapChildren, children, List.flatMap_map,
        List.flatMap_map]
      exact .cons (own q _ _) (forall₂_flatMap fun c _ => ih c)

/-- A step that keeps the nested queries leads to related queries throughout if it does so at each
place. -/
theorem each_forall₂ {step : Query → Query} (refl : ∀ q, R q q)
    (own : ∀ q f, R q ((step q).mapChildren f)) (children : ∀ q, (step q).children = q.children)
    (q : Query) : List.Forall₂ R q.queries (q.each step).queries := by
  suffices within : ∀ n (q : Query), List.Forall₂ R q.queries (q.eachWithin step n).queries from
    within _ q
  intro n
  induction n with
  | zero => exact fun q => List.forall₂_same.mpr fun b _ => refl b
  | succ n ih =>
      intro q
      rw [Query.eachWithin, Query.queries_eq, Query.queries_eq (_ : Query), children_mapChildren,
        children, List.flatMap_map]
      exact .cons (own q _) (forall₂_flatMap fun c _ => ih c)

end

/-! ### What a traversal gives -/

section

variable {m : Type → Type} [Monad m] {α β : Type}

/-- Whether what a computation gives can be told from what its steps give. -/
structure Compositional (P : ∀ {α : Type}, m α → α → Prop) : Prop where
  pure : ∀ {α : Type} (a : α), P (pure a) a
  bind : ∀ {α β : Type} {x : m α} {a : α} {f : α → m β} {b : β},
    P x a → P (f a) b → P (x >>= f) b

namespace Compositional

variable {P : ∀ {α : Type}, m α → α → Prop} (told : Compositional P)

include told

theorem list [LawfulMonad m] {f : α → m β} {g : α → β} {xs : List α}
    (h : ∀ x ∈ xs, P (f x) (g x)) : P (xs.mapM f) (xs.map g) := by
  induction xs with
  | nil =>
      rw [List.mapM_nil]
      exact told.pure _
  | cons x rest ih =>
      rw [List.mapM_cons]
      have more := ih fun y hy => h y (List.mem_cons_of_mem _ hy)
      exact told.bind (h x List.mem_cons_self) (told.bind more (told.pure _))

theorem option [LawfulMonad m] {f : α → m β} {g : α → β} {o : Option α}
    (h : ∀ x ∈ o, P (f x) (g x)) : P (o.mapM f) (o.map g) := by
  cases o with
  | none => exact told.pure _
  | some x =>
      rw [Option.mapM_some, map_eq_pure_bind]
      exact told.bind (h x rfl) (told.pure _)

/-! ### Expressions of a query -/

theorem mapExprs [LawfulMonad m] {f : Expr → m Expr} {g : Expr → Expr} {q : Query}
    (h : ∀ e ∈ q.exprs, P (f e) (g e)) : P (q.mapExprM f) (q.mapParts g id) := by
  simp only [Query.exprs, List.mem_append, List.mem_map, List.mem_flatMap, List.mem_filterMap,
    Option.mem_toList] at h
  have items : ∀ i ∈ q.items, P (do return { i with expr := ← f i.expr } : m SelectItem)
      { i with expr := g i.expr } := fun i hi =>
    told.bind (h i.expr (.inl (.inl (.inl (.inl (.inl ⟨i, hi, rfl⟩)))))) (told.pure _)
  have joins : ∀ x ∈ q.sources, ∀ j ∈ x.joins,
      P (j.mapExprM f) { j with condition := j.condition.map g } := fun x hx j hj =>
    told.bind (told.option fun e he => h e (.inl (.inl (.inl (.inl (.inr ⟨x, hx, j, hj, he⟩))))))
      (told.pure _)
  have sources : ∀ x ∈ q.sources, P (x.mapExprM f)
      { x with joins := x.joins.map fun j => { j with condition := j.condition.map g } } :=
    fun x hx => told.bind (told.list (joins x hx)) (told.pure _)
  have orderBy : ∀ o ∈ q.orderBy, P (do return { o with expr := ← f o.expr } : m OrderItem)
      { o with expr := g o.expr } := fun o ho =>
    told.bind (h o.expr (.inr ⟨o, ho, rfl⟩)) (told.pure _)
  refine told.bind (told.list items) (told.bind (told.list sources) ?_)
  refine told.bind (told.option fun e he => h e (.inl (.inl (.inl (.inr he))))) ?_
  refine told.bind (told.list fun e he => h e (.inl (.inl (.inr he)))) ?_
  refine told.bind (told.option fun e he => h e (.inl (.inr he))) ?_
  exact told.bind (told.list orderBy) (told.pure _)

/-! ### Nested queries -/

variable {f : Query → m Query} {g : Query → Query}

theorem mapQueries {es : List Expr} (h : ∀ e ∈ es, P (e.mapQueryM f) (e.mapQuery g)) :
    P (mapQueriesM f es) (Id.run (mapQueriesM (m := Id) g es)) := by
  induction es with
  | nil => exact told.pure _
  | cons e rest ih =>
      have more := ih fun x hx => h x (List.mem_cons_of_mem _ hx)
      exact told.bind (h e List.mem_cons_self) (told.bind more (told.pure _))

theorem mapOptionQuery {o : Option Expr} (h : ∀ e ∈ o, P (e.mapQueryM f) (e.mapQuery g)) :
    P (mapOptionQueryM f o) (Id.run (mapOptionQueryM (m := Id) g o)) := by
  cases o with
  | none => exact told.pure _
  | some e => exact told.bind (h e rfl) (told.pure _)

theorem mapBranchQueries {bs : List Branch}
    (h : ∀ e ∈ bs.flatMap Branch.sides, P (e.mapQueryM f) (e.mapQuery g)) :
    P (mapBranchQueriesM f bs) (Id.run (mapBranchQueriesM (m := Id) g bs)) := by
  induction bs with
  | nil => exact told.pure _
  | cons b rest ih =>
      obtain ⟨c, r⟩ := b
      have more := ih fun x hx => h x (by simp [hx])
      have condition := h c (by simp [Branch.sides])
      have result := h r (by simp [Branch.sides])
      exact told.bind condition (told.bind result (told.bind more (told.pure _)))

theorem mapQuery {e : Expr} (h : ∀ c ∈ e.children, P (f c) (g c)) :
    P (e.mapQueryM f) (e.mapQuery g) := by
  induction e using Expr.induct with
  | step e ih =>
      rw [e.children_eq] at h
      have own : ∀ c, e.query? = some c → P (f c) (g c) := by
        intro c hc
        exact h c (List.mem_append_left _ (Option.mem_toList.mpr hc))
      have parts : ∀ x ∈ e.parts, P (x.mapQueryM f) (x.mapQuery g) := by
        intro x hx
        apply ih x hx
        intro c hc
        exact h c (List.mem_append_right _ (List.mem_flatMap.mpr ⟨x, hx, hc⟩))
      cases e with
      | subquery q | «exists» q _ => exact told.bind (own q rfl) (told.pure _)
      | inQuery a q _ =>
          exact told.bind (own q rfl) (told.bind (parts a List.mem_cons_self) (told.pure _))
      | call _ xs _ =>
          have arguments : ∀ x ∈ xs, P (x.mapQueryM f) (x.mapQuery g) := parts
          exact told.bind (told.mapQueries arguments) (told.pure _)
      | case o bs e =>
          simp only [Expr.parts, List.mem_append, Option.mem_toList] at parts
          have operand := told.mapOptionQuery fun x hx => parts x (.inl (.inl hx))
          have branches := told.mapBranchQueries fun x hx => parts x (.inl (.inr hx))
          have otherwise := told.mapOptionQuery fun x hx => parts x (.inr hx)
          exact told.bind operand (told.bind branches (told.bind otherwise (told.pure _)))
      | inList a xs _ =>
          have values := told.mapQueries fun x hx => parts x (List.mem_cons_of_mem _ hx)
          exact told.bind (parts a List.mem_cons_self) (told.bind values (told.pure _))
      | binary a _ b =>
          have right := parts b (by simp [Expr.parts])
          exact told.bind (parts a List.mem_cons_self) (told.bind right (told.pure _))
      | between a low high _ =>
          have above := parts low (by simp [Expr.parts])
          have below := parts high (by simp [Expr.parts])
          exact told.bind (parts a List.mem_cons_self)
            (told.bind above (told.bind below (told.pure _)))
      | unary _ a | isNull a _ | isTruth a _ _ | cast a _ | paren a =>
          exact told.bind (parts a List.mem_cons_self) (told.pure _)
      | column _ _ | literal _ | param _ | interval _ | star _ | raw _ => exact told.pure _

theorem mapSource {x : Source} (h : ∀ c, x.query? = some c → P (f c) (g c)) :
    P (x.mapQueryM f) (x.mapQuery g) := by
  cases x with
  | derived q label => exact told.bind (h q rfl) (told.pure _)
  | named _ | raw _ => exact told.pure _

variable [LawfulMonad m]

theorem mapSources {x : FromItem} (h : ∀ s ∈ x.allSources, P (s.mapQueryM f) (s.mapQuery g)) :
    P (x.mapQueryM f)
      ⟨x.source.mapQuery g, x.joins.map fun j => { j with source := j.source.mapQuery g }⟩ := by
  have joins : ∀ j ∈ x.joins, P (do return { j with source := ← j.source.mapQueryM f } : m Join)
      { j with source := j.source.mapQuery g } := fun j hj =>
    told.bind (h j.source (List.mem_cons_of_mem _ (List.mem_map_of_mem hj))) (told.pure _)
  exact told.bind (h x.source List.mem_cons_self) (told.bind (told.list joins) (told.pure _))

theorem mapChildren {q : Query} (h : ∀ c ∈ q.children, P (f c) (g c)) :
    P (q.mapChildrenM f) (q.mapChildren g) := by
  simp only [Query.children, List.mem_append, List.mem_map, List.mem_flatMap,
    List.mem_filterMap, Option.mem_toList] at h
  have ctes : ∀ c ∈ q.ctes, P (do return { c with query := ← f c.query } : m Cte)
      { c with query := g c.query } := fun c hc =>
    told.bind (h c.query (.inl (.inl (.inl ⟨c, hc, rfl⟩)))) (told.pure _)
  have sides : ∀ o ∈ q.setOperation, P (do
        let left ← f o.left
        return { o with left, right := ← f o.right } : m SetOperation)
      { o with left := g o.left, right := g o.right } := by
    intro o ho
    have left := h o.left (.inl (.inl (.inr ⟨o, ho, by simp [SetOperation.sides]⟩)))
    have right := h o.right (.inl (.inl (.inr ⟨o, ho, by simp [SetOperation.sides]⟩)))
    exact told.bind left (told.bind right (told.pure _))
  have sources : ∀ x ∈ q.sources, P (x.mapQueryM f)
      ⟨x.source.mapQuery g, x.joins.map fun j => { j with source := j.source.mapQuery g }⟩ :=
    fun x hx => told.mapSources fun s hs => told.mapSource fun c hc =>
      h c (.inl (.inr ⟨s, List.mem_flatMap.mpr ⟨x, hx, hs⟩, hc⟩))
  refine told.bind (told.list ctes) (told.bind (told.option sides) ?_)
  refine told.bind (told.list sources) ?_
  let moved : Query := { q with
    ctes := q.ctes.map fun c => { c with query := g c.query }
    setOperation := q.setOperation.map fun o => { o with left := g o.left, right := g o.right }
    sources := q.sources.map fun s => ⟨s.source.mapQuery g,
      s.joins.map fun j => { j with source := j.source.mapQuery g }⟩ }
  have same : moved.exprs = q.exprs := by
    simp [moved, Query.exprs, List.flatMap_map, List.filterMap_map]
  have exprs : P (moved.mapExprM (Expr.mapQueryM f)) (moved.mapParts (Expr.mapQuery g) id) := by
    apply told.mapExprs
    intro e he
    rw [same] at he
    exact told.mapQuery fun c hc => h c (.inr ⟨e, he, hc⟩)
  simpa [moved, Query.mapChildren, Query.mapParts, Function.comp_def] using exprs

theorem forEachWithin (h : ∀ q, P (f q) (g q)) (n : Nat) (q : Query) :
    P (q.forEachWithin f n) (q.eachWithin g n) := by
  induction n generalizing q with
  | zero => exact told.pure _
  | succ n ih => exact told.bind (h q) (told.mapChildren fun c _ => ih c)

theorem forEach (h : ∀ q, P (f q) (g q)) (q : Query) : P (q.forEachM f) (q.each g) :=
  told.forEachWithin h _ q

end Compositional

end

/-! ### Steps that count -/

section

variable {m : Type → Type} [Monad m] {α : Type}

/-- Whether a step gives a value whatever it has counted. -/
def Yields (x : m α) (a : α) : Prop := ∃ count : m Unit, x = count >>= fun _ => pure a

variable [LawfulMonad m]

theorem yields_pure (a : α) : Yields (pure a : m α) a := ⟨pure (), by simp⟩

theorem yields_compositional : Compositional (m := m) Yields where
  pure := yields_pure
  bind := by
    rintro _ _ _ a f b ⟨u, rfl⟩ ⟨v, hv⟩
    exact ⟨u >>= fun _ => v, by simp [hv]⟩

theorem yields_id {x : Id α} {a : α} (h : Yields x a) : Id.run x = a := by
  obtain ⟨_, rfl⟩ := h
  rfl

theorem yields_state {σ : Type} {x : StateM σ α} {a : α} (h : Yields x a) (s : σ) :
    (x.run s).1 = a := by
  obtain ⟨_, rfl⟩ := h
  rfl

theorem yields_of_state {σ : Type} {x : StateM σ α} {a : α} (h : ∀ s, (x s).1 = a) :
    Yields x a :=
  ⟨fun s => ((), (x s).2), funext fun s => Prod.ext (h s) rfl⟩

end

theorem Query.forEach_eq (step : Query → Query) (q : Query) : q.forEach step = q.each step :=
  yields_id (yields_compositional.forEach (fun q => yields_pure (step q)) q)

end ReportSql.Tree

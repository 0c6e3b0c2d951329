import ReportSql.Proofs.EachQuery

/-!
Statements that are changed query by query. A step is made on a query and then on the queries
nested in the result, so that each query of the end stands for one of the beginning. A step that
leaves every query alone leaves the statement alone, and counts nothing on the way.
-/
namespace ReportSql.Tree

/-! ### Query by query -/

/-- Whether a statement is changed query by query: a query becomes a related one, and those nested
in it are changed alike. -/
inductive Query.ChangedBy (own : Query → Query → Prop) : Query → Query → Prop where
  | step {q m : Query} {f : Query → Query} : own q m →
      (∀ c ∈ m.children, ChangedBy own c (f c)) → ChangedBy own q (m.mapChildren f)

section

variable {own : Query → Query → Prop} {step : Query → Query} {q r b c : Query}

theorem queries_child (h : c ∈ q.children) : c.queries.length < q.queries.length := by
  have inside : c.queries.Sublist (q.children.flatMap Query.queries) := by
    rw [List.flatMap_def]
    exact List.sublist_flatten_of_mem (List.mem_map_of_mem h)
  have below := inside.length_le
  rw [q.queries_eq, List.length_cons]
  omega

theorem mem_queries_child (h : c ∈ q.children) (hb : b ∈ c.queries) : b ∈ q.queries := by
  rw [q.queries_eq]
  exact List.mem_cons_of_mem _ (List.mem_flatMap.mpr ⟨c, h, hb⟩)

/-- A step that brings in no queries changes a statement query by query. -/
theorem each_changedBy (related : ∀ q, own q (step q))
    (within : ∀ q, ∀ c ∈ (step q).children, c ∈ q.children) (q : Query) :
    q.ChangedBy own (q.each step) := by
  have enough : ∀ n (q : Query), q.queries.length ≤ n →
      q.ChangedBy own (q.eachWithin step n) := by
    intro n
    induction n with
    | zero =>
        intro q few
        rw [q.queries_eq, List.length_cons] at few
        omega
    | succ n ih =>
        intro q few
        apply Query.ChangedBy.step (related q)
        intro c hc
        apply ih c
        have fewer := queries_child (within q c hc)
        omega
  exact enough _ q (Nat.le_refl _)

/-- Each query of a changed statement stands for one of the statement as it was, and so do those
nested in it. -/
theorem Query.ChangedBy.query (h : q.ChangedBy own r)
    (within : ∀ q m, own q m → ∀ c ∈ m.children, c ∈ q.children) (hb : b ∈ r.queries) :
    ∃ a ∈ q.queries, ∃ (m : Query) (f : Query → Query), own a m ∧
      (∀ c ∈ m.children, c.ChangedBy own (f c)) ∧ b = m.mapChildren f := by
  induction h with
  | @step q m f related nested ih =>
      rw [Query.queries_eq, children_mapChildren] at hb
      cases List.mem_cons.mp hb with
      | inl same => exact ⟨q, q.self_mem_queries, m, f, related, nested, same⟩
      | inr inside =>
          obtain ⟨r, hr, hb⟩ := List.mem_flatMap.mp inside
          obtain ⟨c, hc, rfl⟩ := List.mem_map.mp hr
          obtain ⟨a, ha, found⟩ := ih c hc hb
          exact ⟨a, mem_queries_child (within q m related c hc) ha, found⟩

end

/-! ### Nothing changed -/

section

variable {σ : Type} {q : Query} {s : σ}

/-- Computations that leave a count alone are told apart by what they give. -/
theorem still_compositional (s : σ) : Compositional (m := StateM σ) fun x a => x s = (a, s) where
  pure _ := rfl
  bind {_ _ x a f b} hx hf := by
    change f (x s).1 (x s).2 = (b, s)
    rw [hx]
    exact hf

theorem mapParts_id (q : Query) : q.mapParts id id = q := by
  have item (i : SelectItem) : { i with expr := id i.expr } = i := by cases i; rfl
  have order (o : OrderItem) : { o with expr := id o.expr } = o := by cases o; rfl
  have join (j : Join) : (⟨j.kind, id j.source, j.condition.map id⟩ : Join) = j := by
    rw [Option.map_id_fun]
    cases j; rfl
  have source (x : FromItem) : (⟨id x.source, x.joins.map fun j =>
      ⟨j.kind, id j.source, j.condition.map id⟩⟩ : FromItem) = x := by
    rw [List.map_id'' join]
    cases x; rfl
  rw [Query.mapParts, List.map_id'' item, List.map_id'' order, List.map_id'' source]
  simp only [Option.map_id_fun, List.map_id_fun, id]
  cases q; rfl

theorem mapChildren_id (q : Query) : (q.mapChildren fun c => c) = q := by
  have exprs : (Expr.mapQuery fun c => c) = id := funext fun e => mapQuery_eq_self fun _ _ => rfl
  have sources : (Source.mapQuery fun c => c) = id := funext fun x => by cases x <;> rfl
  have cte (c : Cte) : (⟨c.name, c.columns, c.query, c.isRecursive⟩ : Cte) = c := by cases c; rfl
  have sides (o : SetOperation) : (⟨o.left, o.op, o.all, o.right⟩ : SetOperation) = o := by
    cases o; rfl
  rw [Query.mapChildren, exprs, sources, mapParts_id, List.map_id'' cte]
  simp only [sides, Option.map_id']
  cases q; rfl

theorem mapExprs_still {g : Expr → StateM σ Expr} (h : ∀ e ∈ q.exprs, g e s = (e, s)) :
    (q.mapExprM g).run s = (q, s) := by
  have same := (still_compositional s).mapExprs (g := id) h
  rwa [mapParts_id] at same

theorem forEachWithin_still {f : Query → StateM σ Query} (h : ∀ b ∈ q.queries, f b s = (b, s))
    (n : Nat) : q.forEachWithin f n s = (q, s) := by
  induction n generalizing q with
  | zero => rfl
  | succ n ih =>
      have children := (still_compositional s).mapChildren (g := fun c => c) (q := q) fun c hc =>
        ih fun b hb => h b (mem_queries_child hc hb)
      rw [mapChildren_id] at children
      exact (still_compositional s).bind (h q q.self_mem_queries) children

/-- A count stays as it is where nothing changes. -/
theorem forEachM_still {f : Query → StateM σ Query} (h : ∀ b ∈ q.queries, f b s = (b, s)) :
    (q.forEachM f).run s = (q, s) :=
  forEachWithin_still h _

end

end ReportSql.Tree

import ReportSql.Proofs.RereadTrees
import ReportSql.Proofs.WrittenLeaves

/-!
The parts of what a tree is read as. As far as they are written, they are what the parts of the tree
are read as, and each of them can be read back with the tree.
-/
namespace ReportSql.Tree

variable {e : Expr} {q : Query}

/-! ### Expressions that are read -/

theorem exprsReread_eq (es : List Expr) : exprsReread es = es.map Expr.reread := by
  induction es with
  | nil => rfl
  | cons e es ih => rw [exprsReread, ih, List.map_cons]

theorem optionReread_eq (o : Option Expr) : optionReread o = o.map Expr.reread := by
  cases o <;> rfl

theorem branchesReread_eq (branches : List Branch) : branchesReread branches =
    branches.map fun b => ⟨b.condition.reread, b.result.reread⟩ := by
  induction branches with
  | nil => rfl
  | cons b branches ih =>
      obtain ⟨condition, result⟩ := b
      rw [branchesReread, ih, List.map_cons]

/-- Whether an expression is a literal, a placeholder or raw SQL. -/
def Expr.isLeaf : Expr → Bool
  | .literal _ | .param _ | .raw _ => true
  | _ => false

theorem of_isLeaf (h : e.isLeaf = true) :
    e.parts = [] ∧ e.query? = none ∧ e.testsNothing = false := by
  cases e with
  | literal _ | param _ | raw _ => exact ⟨rfl, rfl, rfl⟩
  | _ => cases h

theorem isLeaf_ofValue (v : Sql.Value) : (ofValue v).isLeaf = true := by
  unfold ofValue
  repeat' split
  all_goals rfl

theorem isLeaf_reread (h : e.isLeaf = true) : e.reread.isLeaf = true := by
  cases e with
  | literal value =>
      cases value with
      | int n => exact isLeaf_ofValue (.number (toString n) false)
      | float x => exact isLeaf_ofValue (.number (Output.floatText x) false)
      | text s => exact isLeaf_ofValue (.text .plain s)
      | date d =>
          simp only [Expr.reread, Literal.reread, ofTyped, if_true]
          cases Date.read? (Sql.escapeQuotes '\'' d.text) <;> rfl
      | boolean _ | null => rfl
  | param name => rfl
  | raw sql => exact isLeaf_ofValue (.number sql false)
  | _ => cases h

theorem query?_reread (h : e.testsNothing = false) :
    e.reread.query? = e.query?.map Query.reread := by
  cases e with
  | literal _ | raw _ => exact (of_isLeaf (isLeaf_reread rfl)).2.1
  | inList x values negated =>
      cases values with
      | nil => cases h
      | cons v values => rfl
  | _ => rfl

/-- The parts of what an expression is read as are what its parts are read as, but for parentheses
around the operand of a cast. -/
theorem exists_part_reread {P : Expr → Prop} (paren : ∀ x, P (.paren x) ↔ P x)
    (h : e.testsNothing = false) :
    (∃ x ∈ e.reread.parts, P x) ↔ ∃ x ∈ e.parts, P x.reread := by
  cases e with
  | literal _ | raw _ =>
      rw [(of_isLeaf (isLeaf_reread rfl)).1]
      simp [Expr.parts]
  | case operand branches otherwise =>
      simp only [Expr.reread, Expr.parts, optionReread_eq, branchesReread_eq, List.mem_append,
        Option.mem_toList, List.mem_flatMap, List.mem_map, Branch.sides, Option.map_eq_some_iff]
      grind
  | inList x values negated =>
      cases values with
      | nil => cases h
      | cons v values => simp [Expr.reread, Expr.parts, exprsReread_eq]
  | cast x type =>
      by_cases atomic : x.isAtomic = true <;> simp [Expr.reread, Expr.parts, atomic, paren]
  | _ => simp [Expr.reread, Expr.parts, exprsReread_eq]

theorem testsNothing_reread (h : e.testsNothing = false) : e.reread.testsNothing = false := by
  cases e with
  | literal _ | raw _ => exact (of_isLeaf (isLeaf_reread rfl)).2.2
  | inList x values negated =>
      cases values with
      | nil => cases h
      | cons v values => rfl
  | _ => rfl

/-! ### Queries that are read -/

theorem itemsReread_eq (items : List SelectItem) :
    itemsReread items = items.map fun i => ⟨i.expr.reread, i.label⟩ := by
  induction items with
  | nil => rfl
  | cons i items ih =>
      obtain ⟨expr, label⟩ := i
      rw [itemsReread, ih, List.map_cons]

theorem ordersReread_eq (orders : List OrderItem) :
    ordersReread orders = orders.map fun o => ⟨o.expr.reread, o.direction, o.nulls⟩ := by
  induction orders with
  | nil => rfl
  | cons o orders ih =>
      obtain ⟨expr, direction, nulls⟩ := o
      rw [ordersReread, ih, List.map_cons]

theorem joinsReread_eq (joins : List Join) : joinsReread joins =
    joins.map fun j => ⟨j.kind, j.source.reread, j.condition.map Expr.reread⟩ := by
  induction joins with
  | nil => rfl
  | cons j joins ih =>
      obtain ⟨kind, source, condition⟩ := j
      rw [joinsReread, ih, optionReread_eq, List.map_cons]

theorem sourcesReread_eq (sources : List FromItem) : sourcesReread sources =
    sources.map fun f => ⟨f.source.reread, joinsReread f.joins⟩ := by
  induction sources with
  | nil => rfl
  | cons f sources ih =>
      obtain ⟨source, joins⟩ := f
      rw [sourcesReread, ih, List.map_cons]

theorem ctesReread_queries (isRecursive : Bool) (ctes : List Cte) :
    (ctesReread isRecursive ctes).map Cte.query = ctes.map fun c => c.query.reread := by
  induction ctes with
  | nil => rfl
  | cons c ctes ih =>
      obtain ⟨name, columns, query, recursive⟩ := c
      rw [ctesReread, List.map_cons, ih, List.map_cons]

theorem query?_sourceReread (s : Source) : s.reread.query? = s.query?.map Query.reread := by
  cases s <;> rfl

theorem raw?_sourceReread (s : Source) : s.reread.raw? = s.raw? := by
  cases s <;> rfl

theorem allSources_fromReread (f : FromItem) :
    (FromItem.mk f.source.reread (joinsReread f.joins)).allSources =
      f.allSources.map Source.reread := by
  simp [FromItem.allSources, joinsReread_eq]

theorem allSources_reread : q.reread.allSources = q.written.allSources.map Source.reread := by
  rw [Query.reread_eq]
  cases operation : q.setOperation with
  | some o => simp [Query.bodyReread, Query.written, operation, Query.allSources, Query.empty]
  | none =>
      simp only [Query.bodyReread, Query.written, operation, Query.allSources, sourcesReread_eq,
        List.flatMap_map, allSources_fromReread, List.map_flatMap]

theorem exprs_reread : q.reread.exprs = q.written.exprs.map Expr.reread := by
  rw [Query.reread_eq]
  cases operation : q.setOperation with
  | some o =>
      simp [Query.bodyReread, Query.written, operation, Query.exprs, Query.empty, ordersReread_eq]
  | none =>
      simp [Query.bodyReread, Query.written, operation, Query.exprs, Query.empty, ordersReread_eq,
        itemsReread_eq, optionReread_eq, exprsReread_eq, sourcesReread_eq, joinsReread_eq,
        List.flatMap_map, List.map_flatMap, List.filterMap_map, List.map_filterMap,
        Function.comp_def, Option.toList_map]

theorem operands_reread : q.reread.operands = q.written.operands.map Query.reread := by
  have sources : q.reread.allSources.filterMap Source.query? =
      (q.written.allSources.filterMap Source.query?).map Query.reread := by
    rw [allSources_reread, List.filterMap_map, List.map_filterMap]
    exact congrArg (List.filterMap · _) (funext query?_sourceReread)
  have ctes : q.reread.ctes.map Cte.query = (q.written.ctes.map Cte.query).map Query.reread := by
    rw [Query.reread_eq, ctesReread_queries, List.map_map]
    cases operation : q.setOperation <;> simp [Query.written, operation]
  have sides : q.reread.setOperation.toList.flatMap SetOperation.sides =
      (q.written.setOperation.toList.flatMap SetOperation.sides).map Query.reread := by
    rw [Query.reread_eq]
    cases operation : q.setOperation with
    | some o =>
        obtain ⟨left, op, all, right⟩ := o
        simp [Query.bodyReread, Query.written, operation, SetOperation.sides, SetOperation.reread]
    | none => simp [Query.bodyReread, Query.written, operation, Query.empty]
  rw [Query.operands, ctes, sources, sides, Query.operands, List.map_append, List.map_append]

theorem written_reread : q.reread.written = q.reread := by
  rw [Query.reread_eq]
  cases operation : q.setOperation <;>
    simp [Query.bodyReread, Query.written, operation, Query.empty]

/-! ### Parts that can be read back -/

/-- Whether an expression stands where it can be read back: a star alone may be an argument or an
item. -/
def Expr.IsPlaced (e : Expr) : Prop := e.isReadable = true ∨ e = .star none ∨ e = .raw "*"

theorem Expr.IsPlaced.parts (h : e.IsPlaced) (tests : e.testsNothing = false) :
    ∀ x ∈ e.parts, x.IsPlaced := by
  rcases h with h | rfl | rfl
  case inr.inl | inr.inr => exact fun x hx => absurd hx List.not_mem_nil
  cases e with
  | call name es distinct =>
      simp only [Expr.isReadable, Bool.and_eq_true] at h
      intro x hx
      rcases argumentsReadable_cases h.1.2 x hx with star | ⟨-, readable⟩
      · exact .inr (.inl star)
      · exact .inl readable
  | case operand branches otherwise =>
      simp only [Expr.isReadable, Bool.and_eq_true, optionReadable_iff, branchesReadable_iff] at h
      simp only [Expr.parts, List.mem_append, Option.mem_toList, List.mem_flatMap, Branch.sides]
      rintro x ((hx | ⟨b, hb, hx⟩) | hx)
      · exact .inl (h.1.1.1 x hx)
      · have sides := h.1.1.2 b hb
        simp only [List.mem_cons, List.not_mem_nil, or_false] at hx
        exact .inl (hx.elim (· ▸ sides.1) (· ▸ sides.2))
      · exact .inl (h.2 x hx)
  | inList x values negated =>
      simp only [Expr.testsNothing] at tests
      simp only [Expr.isReadable, tests, Bool.false_or, Bool.and_eq_true, exprsReadable_iff] at h
      exact List.forall_mem_cons.mpr ⟨.inl h.1.1, fun v hv => .inl (h.1.2 v hv)⟩
  | unary op x => cases op <;> simp_all [Expr.isReadable, Expr.parts, Expr.IsPlaced]
  | _ => simp_all [Expr.isReadable, Expr.parts, Expr.IsPlaced]

theorem Expr.IsPlaced.query? (h : e.IsPlaced) : ∀ q ∈ e.query?, q.isReadable = true := by
  rcases h with h | rfl | rfl
  case inr.inl | inr.inr => exact nofun
  cases e <;> simp_all [Expr.isReadable, Expr.query?]

theorem written_eq (h : q.setOperation = none) : q.written = q := by
  simp only [Query.written, h]

theorem exprs_written (he : e ∈ q.written.exprs) : e ∈ q.exprs := by
  cases operation : q.setOperation with
  | some o =>
      simp only [Query.written, operation, Query.exprs, Query.empty, List.map_nil,
        List.flatMap_nil, Option.toList_none, List.nil_append, List.mem_map] at he
      obtain ⟨o, ho, rfl⟩ := he
      exact order_mem_exprs ho
  | none => rwa [written_eq operation] at he

theorem operands_written {r : Query} (hr : r ∈ q.written.operands) : r ∈ q.operands := by
  cases operation : q.setOperation with
  | some o =>
      simp only [Query.written, operation, Query.operands, Query.empty, Query.allSources,
        List.flatMap_nil, List.filterMap_nil, List.append_nil, List.mem_append] at hr
      simp only [Query.operands, operation, List.mem_append]
      exact hr.imp_left .inl
  | none => rwa [written_eq operation] at hr

theorem exprs_placed (h : q.isReadable = true) : ∀ e ∈ q.written.exprs, e.IsPlaced := by
  rw [Query.isReadable_eq] at h
  simp only [Bool.and_eq_true, ordersReadable_iff] at h
  obtain ⟨⟨⟨-, body⟩, orders⟩, -⟩ := h
  have last : ∀ e ∈ q.orderBy.map OrderItem.expr, e.IsPlaced :=
    List.forall_mem_map.mpr fun o ho => .inl (orders o ho)
  cases operation : q.setOperation with
  | some o => simpa [Query.written, operation, Query.exprs, Query.empty] using last
  | none =>
      simp only [Query.bodyReadable, operation, Bool.and_eq_true, optionReadable_iff] at body
      obtain ⟨⟨⟨⟨⟨⟨-, items⟩, -⟩, sources⟩, condition⟩, keys⟩, having⟩ := body
      rw [written_eq operation]
      intro e he
      simp only [Query.exprs, List.mem_append, Option.mem_toList, List.mem_flatMap,
        List.mem_filterMap] at he
      rcases he with ((((item | ⟨f, hf, j, hj, he⟩) | he) | he) | he) | he
      · obtain ⟨i, hi, rfl⟩ := List.mem_map.mp item
        rcases itemsReadable_cases items i hi with rfl | ⟨-, readable⟩
        · exact .inr (.inr rfl)
        · exact .inl readable
      · exact .inl ((joinsReadable_parts (sourcesReadable_parts sources f hf).2 j hj).2 e he)
      · exact .inl (condition e he)
      · exact .inl (keysReadable_exprs keys e he)
      · exact .inl (having e he)
      · exact last e he

/-- A readable source holds a readable query if it holds one, and no raw SQL. -/
theorem sources_readable (h : q.isReadable = true) :
    ∀ s ∈ q.written.allSources, s.isReadable = true := by
  rw [Query.isReadable_eq] at h
  simp only [Bool.and_eq_true] at h
  obtain ⟨⟨⟨-, body⟩, -⟩, -⟩ := h
  cases operation : q.setOperation with
  | some o => simp [Query.written, operation, Query.allSources, Query.empty]
  | none =>
      simp only [Query.bodyReadable, operation, Bool.and_eq_true] at body
      obtain ⟨⟨⟨⟨-, sources⟩, -⟩, -⟩, -⟩ := body
      rw [written_eq operation]
      intro s hs
      obtain ⟨f, hf, hs⟩ := List.mem_flatMap.mp hs
      obtain ⟨leading, joins⟩ := sourcesReadable_parts sources f hf
      simp only [FromItem.allSources, List.mem_cons, List.mem_map] at hs
      rcases hs with rfl | ⟨j, hj, rfl⟩
      · exact leading
      · exact (joinsReadable_parts joins j hj).1

theorem raw_written (h : q.isReadable = true) :
    q.written.allSources.filterMap Source.raw? = [] := by
  refine List.filterMap_eq_nil_iff.mpr fun s hs => ?_
  have readable := sources_readable h s hs
  cases s with
  | raw sql => cases readable
  | _ => rfl

theorem operands_readable (h : q.isReadable = true) :
    ∀ r ∈ q.written.operands, r.isReadable = true := by
  have sources := sources_readable h
  rw [Query.isReadable_eq] at h
  simp only [Bool.and_eq_true] at h
  obtain ⟨⟨⟨⟨definitions, -⟩, body⟩, -⟩, -⟩ := h
  have ctes : ∀ c ∈ q.ctes, c.query.isReadable = true := fun c hc =>
    (ctesReadable_parts definitions c hc).2
  intro r hr
  simp only [Query.operands, List.mem_append, List.mem_filterMap] at hr
  rcases hr with (cte | ⟨s, hs, own⟩) | side
  · have same : q.written.ctes = q.ctes := by
      cases operation : q.setOperation <;> simp [Query.written, operation]
    obtain ⟨c, hc, rfl⟩ := List.mem_map.mp (same ▸ cte)
    exact ctes c hc
  · have readable := sources s hs
    cases s with
    | derived query label =>
        obtain rfl := Option.some.inj own
        exact readable
    | _ => cases own
  · cases operation : q.setOperation with
    | some o =>
        obtain ⟨left, op, all, right⟩ := o
        simp only [Query.bodyReadable, operation, SetOperation.isReadable, Bool.and_eq_true] at body
        simp only [Query.written, operation, Option.toList_some, List.flatMap_cons,
          List.flatMap_nil, List.append_nil, SetOperation.sides, List.mem_cons, List.not_mem_nil,
          or_false] at side
        exact side.elim (· ▸ body.1.1) (· ▸ body.1.2)
    | none => simp [written_eq operation, operation] at side

theorem raw_reread (h : q.isReadable = true) :
    q.reread.allSources.filterMap Source.raw? = [] := by
  rw [allSources_reread, List.filterMap_map, ← raw_written h]
  exact congrArg (List.filterMap · _) (funext raw?_sourceReread)

end ReportSql.Tree

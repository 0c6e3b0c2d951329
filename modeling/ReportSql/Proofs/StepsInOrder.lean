import ReportSql.Proofs.ChildrenInOrder
import ReportSql.Proofs.TreePlaces

/-!
Steps on the queries of a query in their order. A step that leaves the queries nested in a query
alone is taken on just the queries that are listed, one after the other; the first failure ends
this, and the queries after it stay as they were.
-/
namespace ReportSql.Tree

/-! ### Queries throughout -/

section

variable {σ : Type} {f g : Query → StateM σ Query} {R : Query → σ → Query → Prop}
  {bs cs : List Query} {s s' : σ}

/-- What takes the place of a query on which a step is taken, before it is taken on those nested in
it. A step that leaves each query alone leaves these alone too. -/
def Stepped (g : Query → StateM σ Query) (b : Query) (s : σ) (c : Query) : Prop :=
  c.hollow = (g b s).1.hollow ∧ ((∀ q, g q s = (q, s)) → c = b)

theorem sweep_nested (mapped : Mapped f bs s cs s')
    (h : ∀ b ∈ bs, ∀ s, Sweep g R b.queries s (f b s).1.queries (f b s).2) :
    Sweep g R (bs.flatMap Query.queries) s (cs.flatMap Query.queries) s' := by
  induction mapped with
  | nil => exact .nil
  | @cons b c rest changed s s' own _ ih =>
      rw [List.flatMap_cons, List.flatMap_cons, own]
      exact (h b List.mem_cons_self s).append (ih fun c hc => h c (List.mem_cons_of_mem _ hc))

/-- A step that keeps the nested queries is taken on a query and then on those nested in it, in the
order in which they are listed. -/
theorem forEach_inOrder (kept : ∀ b s, (g b s).1.children = b.children) (q : Query) (s : σ) :
    Sweep g (Stepped g) q.queries s (q.forEachM g s).1.queries (q.forEachM g s).2 := by
  suffices within : ∀ n (q : Query), q.queries.length ≤ n → ∀ s, Sweep g (Stepped g) q.queries s
      (q.forEachWithin g n s).1.queries (q.forEachWithin g n s).2 from within _ q le_rfl s
  intro n
  induction n with
  | zero =>
      intro q few
      rw [q.queries_eq, List.length_cons] at few
      omega
  | succ n ih =>
      intro q few s
      obtain ⟨mapped, shape⟩ := mapChildren_inOrder (f := Query.forEachWithin g n) (g q s).1 (g q s).2
      rw [kept] at mapped
      have nested := sweep_nested mapped fun c hc => ih c (by have := queries_child hc; omega)
      rw [q.queries_eq, Query.queries_eq (Query.forEachWithin g (n + 1) q s).1]
      refine .cons ⟨shape, fun idle => ?_⟩ nested
      rw [forEachWithin_still fun b _ => idle b]

end

/-! ### Steps that can fail -/

/-- The steps that are taken on some queries one after the other, up to the first that fails: each
query with what it becomes. Then what came of it all. -/
def attempts {σ ε : Type} (step : Query → σ → Query × σ × Option ε) :
    List Query → σ → List (Query × Query) × σ × Option ε
  | [], s => ([], s, none)
  | b :: rest, s =>
    match step b s with
    | (c, s, some e) => ([(b, c)], s, some e)
    | (c, s, none) =>
      let (made, s, failure) := attempts step rest s
      ((b, c) :: made, s, failure)

section

variable {σ ε : Type} {step : Query → σ → Query × σ × Option ε} {bs cs : List Query} {s : σ}
  {e : ε} {after : σ × Option ε}

/-- A step that is not taken any more once one has failed. -/
def guarded (step : Query → σ → Query × σ × Option ε) (q : Query) : StateM (σ × Option ε) Query :=
  fun (s, failure) =>
    match failure with
    | some e => (q, s, some e)
    | none => step q s

theorem tryForEach_eq (q : Query) (s : σ) :
    q.tryForEach step s = q.forEachM (guarded step) (s, none) := rfl

/-- Once a step has failed the queries that are left stay as they are. -/
theorem sweep_failed (h : Sweep (guarded step) (Stepped (guarded step)) bs (s, some e) cs after) :
    cs = bs ∧ after = (s, some e) := by
  induction bs generalizing cs with
  | nil =>
      cases h
      exact ⟨rfl, rfl⟩
  | cons b rest ih =>
      obtain _ | ⟨own, more⟩ := h
      obtain ⟨rfl, last⟩ := ih more
      exact ⟨congrArg (· :: _) (own.2 fun _ => rfl), last⟩

theorem sweep_attempts (h : Sweep (guarded step) (Stepped (guarded step)) bs (s, none) cs after) :
    after = (attempts step bs s).2 ∧ ∃ changed left,
      bs = (attempts step bs s).1.map Prod.fst ++ left ∧
      ((attempts step bs s).2.2 = none → left = []) ∧ cs = changed ++ left ∧
      List.Forall₂ (fun made b => b.hollow = made.2.hollow) (attempts step bs s).1 changed := by
  induction bs generalizing s cs with
  | nil =>
      cases h
      exact ⟨rfl, [], [], rfl, fun _ => rfl, rfl, .nil⟩
  | cons b rest ih =>
      obtain _ | ⟨⟨own, -⟩, more⟩ := h
      rw [attempts]
      simp only [guarded] at own more
      generalize step b s = taken at own more ⊢
      obtain ⟨made, s', failure⟩ := taken
      cases failure with
      | some e =>
          obtain ⟨rfl, rfl⟩ := sweep_failed more
          exact ⟨rfl, [_], _, rfl, nofun, rfl, List.Forall₂.cons own .nil⟩
      | none =>
          obtain ⟨last, changed, left, all, whole, rfl, each⟩ := ih more
          exact ⟨last, _ :: changed, left, congrArg (b :: ·) all, whole, rfl, List.Forall₂.cons own each⟩

end

/-- The expressions of all queries nested in a query, each with those inside it, are all that stand
in the tree, once for each place. A step that can fail and leaves the nested queries alone is taken
on just the queries that are listed, in their order and until it fails; each of these becomes what
the step has made of it, and those after them stay as they are. -/
theorem walk_and_steps_in_order (q : Query) :
    ListsOnce (Part.query q).HasExpr (q.queries.flatMap fun b => b.exprs.flatMap Expr.nodes) ∧
    ∀ {σ ε : Type} (step : Query → σ → Query × σ × Option ε),
      (∀ b s, (step b s).1.children = b.children) → ∀ s,
      (q.tryForEach step s).2 = (attempts step q.queries s).2 ∧ ∃ changed left,
        q.queries = (attempts step q.queries s).1.map Prod.fst ++ left ∧
        ((attempts step q.queries s).2.2 = none → left = []) ∧
        (q.tryForEach step s).1.queries = changed ++ left ∧
        List.Forall₂ (fun made b => b.hollow = made.2.hollow)
          (attempts step q.queries s).1 changed := by
  refine ⟨walked_once q, fun step kept s => ?_⟩
  have guards : ∀ b s, (guarded step b s).1.children = b.children := by
    rintro b ⟨s, _ | e⟩
    · exact kept b s
    · rfl
  rw [tryForEach_eq]
  exact sweep_attempts (forEach_inOrder guards q (s, none))

/-- Counts queries and makes their rows distinct, up to one without sources. -/
def distinctRows (q : Query) (n : Nat) : Query × Nat × Option String :=
  if q.sources.isEmpty then (q, n, some "no sources")
  else ({ q with distinct := true }, n + 1, none)

/-- A derived table, then a subquery without sources before one with a source. -/
def bareQueryInside : Query :=
  let source : Query := { Query.empty with sources := [⟨.named ⟨none, "orders", none⟩, []⟩] }
  { Query.empty with
    sources := [⟨.derived source (some "o"), []⟩]
    condition := some (.exists .empty false)
    having := some (.exists source true) }

theorem walk_and_steps_bare :
    (∀ b n, (distinctRows b n).1.children = b.children) ∧
      (bareQueryInside.tryForEach distinctRows 0).2 = (2, some "no sources") := by
  have kept : ∀ b n, (distinctRows b n).1.children = b.children := by
    intro b n
    rw [distinctRows]
    split <;> rfl
  exact ⟨kept, ((walk_and_steps_in_order bareQueryInside).2 distinctRows kept 0).1.trans rfl⟩

end ReportSql.Tree

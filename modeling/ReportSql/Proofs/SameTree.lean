import ReportSql.Tree.Equality

/-!
Trees are found to be the same just where they are equal.
-/
namespace ReportSql.Tree

mutual

theorem Expr.eq_of_same : ∀ {e f : Expr}, e.same f = true → e = f
  | .column _ _, f, h | .literal _, f, h | .param _, f, h | .interval _, f, h
  | .star _, f, h | .raw _, f, h => by
      cases f <;> simp_all [Expr.same]
  | .binary a _ b, f, h => by
      cases f with
      | binary c _ d =>
          simp only [Expr.same, Bool.and_eq_true, beq_iff_eq] at h
          rw [h.1.1, Expr.eq_of_same h.1.2, Expr.eq_of_same h.2]
      | _ => simp [Expr.same] at h
  | .unary _ a, f, h => by
      cases f with
      | unary _ b =>
          simp only [Expr.same, Bool.and_eq_true, beq_iff_eq] at h
          rw [h.1, Expr.eq_of_same h.2]
      | _ => simp [Expr.same] at h
  | .call _ xs _, f, h => by
      cases f with
      | call _ ys _ =>
          simp only [Expr.same, Bool.and_eq_true, beq_iff_eq] at h
          rw [h.1.1, h.1.2, eq_of_sameAll h.2]
      | _ => simp [Expr.same] at h
  | .case _ _ _, f, h => by
      cases f with
      | case _ _ _ =>
          simp only [Expr.same, Bool.and_eq_true] at h
          rw [eq_of_sameOption h.1.1, eq_of_sameBranches h.1.2, eq_of_sameOption h.2]
      | _ => simp [Expr.same] at h
  | .subquery _, f, h => by
      cases f with
      | subquery _ =>
          simp only [Expr.same] at h
          rw [Query.eq_of_same h]
      | _ => simp [Expr.same] at h
  | .exists _ _, f, h => by
      cases f with
      | «exists» _ _ =>
          simp only [Expr.same, Bool.and_eq_true, beq_iff_eq] at h
          rw [h.1, Query.eq_of_same h.2]
      | _ => simp [Expr.same] at h
  | .inList _ _ _, f, h => by
      cases f with
      | inList _ _ _ =>
          simp only [Expr.same, Bool.and_eq_true, beq_iff_eq] at h
          rw [h.1.1, Expr.eq_of_same h.1.2, eq_of_sameAll h.2]
      | _ => simp [Expr.same] at h
  | .inQuery _ _ _, f, h => by
      cases f with
      | inQuery _ _ _ =>
          simp only [Expr.same, Bool.and_eq_true, beq_iff_eq] at h
          rw [h.1.1, Expr.eq_of_same h.1.2, Query.eq_of_same h.2]
      | _ => simp [Expr.same] at h
  | .between _ _ _ _, f, h => by
      cases f with
      | between _ _ _ _ =>
          simp only [Expr.same, Bool.and_eq_true, beq_iff_eq] at h
          rw [h.1.1.1, Expr.eq_of_same h.1.1.2, Expr.eq_of_same h.1.2, Expr.eq_of_same h.2]
      | _ => simp [Expr.same] at h
  | .isNull _ _, f, h => by
      cases f with
      | isNull _ _ =>
          simp only [Expr.same, Bool.and_eq_true, beq_iff_eq] at h
          rw [h.1, Expr.eq_of_same h.2]
      | _ => simp [Expr.same] at h
  | .isTruth _ _ _, f, h => by
      cases f with
      | isTruth _ _ _ =>
          simp only [Expr.same, Bool.and_eq_true, beq_iff_eq] at h
          rw [h.1.1, h.1.2, Expr.eq_of_same h.2]
      | _ => simp [Expr.same] at h
  | .cast _ _, f, h => by
      cases f with
      | cast _ _ =>
          simp only [Expr.same, Bool.and_eq_true, beq_iff_eq] at h
          rw [h.1, Expr.eq_of_same h.2]
      | _ => simp [Expr.same] at h
  | .paren _, f, h => by
      cases f with
      | paren _ =>
          simp only [Expr.same] at h
          rw [Expr.eq_of_same h]
      | _ => simp [Expr.same] at h
termination_by structural x => x

theorem eq_of_sameAll : ∀ {xs ys : List Expr}, sameAll xs ys = true → xs = ys
  | [], ys, h => by cases ys <;> simp_all [sameAll]
  | _ :: _, [], h => by simp [sameAll] at h
  | _ :: _, _ :: _, h => by
      simp only [sameAll, Bool.and_eq_true] at h
      rw [Expr.eq_of_same h.1, eq_of_sameAll h.2]
termination_by structural x => x

theorem eq_of_sameOption : ∀ {x y : Option Expr}, sameOption x y = true → x = y
  | none, y, h => by cases y <;> simp_all [sameOption]
  | some _, none, h => by simp [sameOption] at h
  | some _, some _, h => by
      simp only [sameOption] at h
      rw [Expr.eq_of_same h]
termination_by structural x => x

theorem eq_of_sameBranches : ∀ {xs ys : List Branch}, sameBranches xs ys = true → xs = ys
  | [], ys, h => by cases ys <;> simp_all [sameBranches]
  | _ :: _, [], h => by simp [sameBranches] at h
  | ⟨_, _⟩ :: _, ⟨_, _⟩ :: _, h => by
      simp only [sameBranches, Bool.and_eq_true] at h
      rw [Expr.eq_of_same h.1.1, Expr.eq_of_same h.1.2, eq_of_sameBranches h.2]
termination_by structural x => x

theorem Query.eq_of_same : ∀ {q r : Query}, q.same r = true → q = r
  | ⟨_, _, _, _, _, _, _, _, _, _⟩, ⟨_, _, _, _, _, _, _, _, _, _⟩, h => by
      simp only [Query.same, Bool.and_eq_true, beq_iff_eq] at h
      obtain ⟨⟨⟨⟨⟨⟨⟨⟨⟨rfl, rfl⟩, ctes⟩, items⟩, sources⟩, condition⟩, groups⟩, having⟩, order⟩,
        operation⟩ := h
      rw [eq_of_sameCtes ctes, eq_of_sameItems items, eq_of_sameSources sources,
        eq_of_sameOption condition, eq_of_sameAll groups, eq_of_sameOption having,
        eq_of_sameOrder order, eq_of_sameOperation operation]
termination_by structural x => x

theorem eq_of_sameCtes : ∀ {xs ys : List Cte}, sameCtes xs ys = true → xs = ys
  | [], ys, h => by cases ys <;> simp_all [sameCtes]
  | _ :: _, [], h => by simp [sameCtes] at h
  | ⟨_, _, _, _⟩ :: _, ⟨_, _, _, _⟩ :: _, h => by
      simp only [sameCtes, Bool.and_eq_true, beq_iff_eq] at h
      obtain ⟨⟨⟨⟨rfl, rfl⟩, rfl⟩, query⟩, rest⟩ := h
      rw [Query.eq_of_same query, eq_of_sameCtes rest]
termination_by structural x => x

theorem eq_of_sameItems : ∀ {xs ys : List SelectItem}, sameItems xs ys = true → xs = ys
  | [], ys, h => by cases ys <;> simp_all [sameItems]
  | _ :: _, [], h => by simp [sameItems] at h
  | ⟨_, _⟩ :: _, ⟨_, _⟩ :: _, h => by
      simp only [sameItems, Bool.and_eq_true, beq_iff_eq] at h
      rw [h.1.1, Expr.eq_of_same h.1.2, eq_of_sameItems h.2]
termination_by structural x => x

theorem eq_of_sameSources : ∀ {xs ys : List FromItem}, sameSources xs ys = true → xs = ys
  | [], ys, h => by cases ys <;> simp_all [sameSources]
  | _ :: _, [], h => by simp [sameSources] at h
  | ⟨_, _⟩ :: _, ⟨_, _⟩ :: _, h => by
      simp only [sameSources, Bool.and_eq_true] at h
      rw [Source.eq_of_same h.1.1, eq_of_sameJoins h.1.2, eq_of_sameSources h.2]
termination_by structural x => x

theorem eq_of_sameJoins : ∀ {xs ys : List Join}, sameJoins xs ys = true → xs = ys
  | [], ys, h => by cases ys <;> simp_all [sameJoins]
  | _ :: _, [], h => by simp [sameJoins] at h
  | ⟨_, _, _⟩ :: _, ⟨_, _, _⟩ :: _, h => by
      simp only [sameJoins, Bool.and_eq_true, beq_iff_eq] at h
      obtain ⟨⟨⟨rfl, source⟩, condition⟩, rest⟩ := h
      rw [Source.eq_of_same source, eq_of_sameOption condition, eq_of_sameJoins rest]
termination_by structural x => x

theorem Source.eq_of_same : ∀ {s t : Source}, s.same t = true → s = t
  | .named _, t, h | .raw _, t, h => by cases t <;> simp_all [Source.same]
  | .derived _ _, t, h => by
      cases t with
      | derived _ _ =>
          simp only [Source.same, Bool.and_eq_true, beq_iff_eq] at h
          rw [h.1, Query.eq_of_same h.2]
      | _ => simp [Source.same] at h
termination_by structural x => x

theorem eq_of_sameOrder : ∀ {xs ys : List OrderItem}, sameOrder xs ys = true → xs = ys
  | [], ys, h => by cases ys <;> simp_all [sameOrder]
  | _ :: _, [], h => by simp [sameOrder] at h
  | ⟨_, _, _⟩ :: _, ⟨_, _, _⟩ :: _, h => by
      simp only [sameOrder, Bool.and_eq_true, beq_iff_eq] at h
      obtain ⟨⟨⟨rfl, rfl⟩, expr⟩, rest⟩ := h
      rw [Expr.eq_of_same expr, eq_of_sameOrder rest]
termination_by structural x => x

theorem eq_of_sameOperation :
    ∀ {x y : Option SetOperation}, sameOperation x y = true → x = y
  | none, y, h => by cases y <;> simp_all [sameOperation]
  | some _, none, h => by simp [sameOperation] at h
  | some _, some _, h => by
      simp only [sameOperation] at h
      rw [SetOperation.eq_of_same h]
termination_by structural x => x

theorem SetOperation.eq_of_same : ∀ {o p : SetOperation}, o.same p = true → o = p
  | ⟨_, _, _, _⟩, ⟨_, _, _, _⟩, h => by
      simp only [SetOperation.same, Bool.and_eq_true, beq_iff_eq] at h
      obtain ⟨⟨⟨rfl, rfl⟩, left⟩, right⟩ := h
      rw [Query.eq_of_same left, Query.eq_of_same right]
termination_by structural x => x

end

theorem eq_some_of_same {o : Option Query} {q : Query} (h : o.any (·.same q) = true) :
    o = some q := by
  cases o with
  | none => simp at h
  | some r => rw [Query.eq_of_same (show r.same q = true from h)]

/-! ### A tree itself -/

mutual

theorem Expr.same_self : ∀ e : Expr, e.same e = true
  | .column _ _ | .literal _ | .param _ | .interval _ | .star _ | .raw _ => by simp [Expr.same]
  | .unary _ a | .isNull a _ | .isTruth a _ _ | .cast a _ | .paren a => by
      simp [Expr.same, a.same_self]
  | .binary a _ b => by simp [Expr.same, a.same_self, b.same_self]
  | .call _ xs _ => by simp [Expr.same, sameAll_self xs]
  | .case o bs e => by
      simp [Expr.same, sameOption_self o, sameBranches_self bs, sameOption_self e]
  | .subquery q | .exists q _ => by simp [Expr.same, q.same_self]
  | .inList a xs _ => by simp [Expr.same, a.same_self, sameAll_self xs]
  | .inQuery a q _ => by simp [Expr.same, a.same_self, q.same_self]
  | .between a low high _ => by simp [Expr.same, a.same_self, low.same_self, high.same_self]

theorem sameAll_self : ∀ xs : List Expr, sameAll xs xs = true
  | [] => rfl
  | e :: rest => by simp [sameAll, e.same_self, sameAll_self rest]

theorem sameOption_self : ∀ o : Option Expr, sameOption o o = true
  | none => rfl
  | some e => by simp [sameOption, e.same_self]

theorem sameBranches_self : ∀ bs : List Branch, sameBranches bs bs = true
  | [] => rfl
  | ⟨c, r⟩ :: rest => by simp [sameBranches, c.same_self, r.same_self, sameBranches_self rest]

theorem Query.same_self : ∀ q : Query, q.same q = true
  | ⟨ctes, items, _, sources, condition, groupBy, having, orderBy, _, operation⟩ => by
      simp [Query.same, sameCtes_self ctes, sameItems_self items, sameSources_self sources,
        sameOption_self condition, sameAll_self groupBy, sameOption_self having,
        sameOrder_self orderBy, sameOperation_self operation]

theorem sameCtes_self : ∀ cs : List Cte, sameCtes cs cs = true
  | [] => rfl
  | ⟨_, _, q, _⟩ :: rest => by simp [sameCtes, q.same_self, sameCtes_self rest]

theorem sameItems_self : ∀ is : List SelectItem, sameItems is is = true
  | [] => rfl
  | ⟨e, _⟩ :: rest => by simp [sameItems, e.same_self, sameItems_self rest]

theorem sameSources_self : ∀ fs : List FromItem, sameSources fs fs = true
  | [] => rfl
  | ⟨s, js⟩ :: rest => by
      simp [sameSources, s.same_self, sameJoins_self js, sameSources_self rest]

theorem sameJoins_self : ∀ js : List Join, sameJoins js js = true
  | [] => rfl
  | ⟨_, s, c⟩ :: rest => by
      simp [sameJoins, s.same_self, sameOption_self c, sameJoins_self rest]

theorem Source.same_self : ∀ s : Source, s.same s = true
  | .named _ | .raw _ => by simp [Source.same]
  | .derived q _ => by simp [Source.same, q.same_self]

theorem sameOrder_self : ∀ os : List OrderItem, sameOrder os os = true
  | [] => rfl
  | ⟨e, _, _⟩ :: rest => by simp [sameOrder, e.same_self, sameOrder_self rest]

theorem sameOperation_self : ∀ o : Option SetOperation, sameOperation o o = true
  | none => rfl
  | some o => by simp [sameOperation, o.same_self]

theorem SetOperation.same_self : ∀ o : SetOperation, o.same o = true
  | ⟨l, _, _, r⟩ => by simp [SetOperation.same, l.same_self, r.same_self]

end

instance : LawfulBEq Expr where
  rfl := Expr.same_self _
  eq_of_beq := Expr.eq_of_same

end ReportSql.Tree

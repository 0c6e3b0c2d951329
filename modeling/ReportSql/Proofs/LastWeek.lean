import ReportSql.Catalog.Restaurant
import ReportSql.Proofs.ChangedConditions
import ReportSql.Proofs.Outcomes
import ReportSql.Proofs.SqlValues

/-!
Questions about the last week. In each query that names the chosen table, the conditions on its date
give way to the week before the current one; nothing else in the statement changes. A statement
that has been limited stays as it is.
-/
namespace ReportSql.Normalize

open Catalog (Schema)
open Tree

/-! ### Conditions in place of others -/

section

variable {isDropped : Expr → Bool} {new cs ds : List Expr}

/-- Whether new conditions take the place of those dropped: where the first of them was, or at the
end if there was none. -/
inductive Replaces (isDropped : Expr → Bool) (new : List Expr) : List Expr → List Expr → Prop where
  | inPlace {before : List Expr} {c : Expr} {after : List Expr} :
      (∀ b ∈ before, isDropped b = false) → isDropped c = true →
      Replaces isDropped new (before ++ c :: after)
        (before ++ new ++ after.filter fun c => !isDropped c)
  | atEnd {cs : List Expr} : (∀ c ∈ cs, isDropped c = false) → Replaces isDropped new cs (cs ++ new)

/-- Whether new conditions stand among others of which none is dropped. -/
def Settled (isDropped : Expr → Bool) (new cs : List Expr) : Prop :=
  ∃ before after, cs = before ++ new ++ after ∧ (∀ c ∈ before, isDropped c = false) ∧
    ∀ c ∈ after, isDropped c = false

theorem replaceWhere_replaces (isDropped : Expr → Bool) (new cs : List Expr) :
    Replaces isDropped new cs (replaceWhere isDropped new cs) := by
  induction cs with
  | nil =>
      have whole : replaceWhere isDropped new [] = [] ++ new := by simp [replaceWhere]
      rw [whole]
      exact .atEnd (List.forall_mem_nil _)
  | cons c rest ih =>
      cases own : isDropped c with
      | true =>
          have first : replaceWhere isDropped new (c :: rest) =
              [] ++ new ++ rest.filter fun c => !isDropped c := by
            simp [replaceWhere, own]
          rw [first]
          exact .inPlace (List.forall_mem_nil _) own
      | false =>
          have later : replaceWhere isDropped new (c :: rest) =
              c :: replaceWhere isDropped new rest := by
            simp [replaceWhere, own]
          rw [later]
          generalize replaceWhere isDropped new rest = ds at ih
          cases ih with
          | inPlace kept dropped =>
              exact .inPlace (List.forall_mem_cons.mpr ⟨own, kept⟩) dropped
          | atEnd kept => exact .atEnd (List.forall_mem_cons.mpr ⟨own, kept⟩)

theorem Replaces.settled (h : Replaces isDropped new cs ds) : Settled isDropped new ds := by
  cases h with
  | @inPlace before c after kept _ =>
      refine ⟨before, after.filter fun c => !isDropped c, rfl, kept, ?_⟩
      intro c hc
      simpa using List.of_mem_filter hc
  | atEnd kept => exact ⟨cs, [], by simp, kept, by simp⟩

theorem Replaces.mem (h : Replaces isDropped new cs ds) {c : Expr} (hc : c ∈ ds) :
    c ∈ cs ∨ c ∈ new := by
  cases h with
  | inPlace _ _ => grind
  | atEnd _ => exact List.mem_append.mp hc

/-- Settled conditions are replaced by themselves. -/
theorem replaceWhere_settled {c : Expr} {rest : List Expr}
    (dropped : ∀ n ∈ c :: rest, isDropped n = true) (h : Settled isDropped (c :: rest) cs) :
    replaceWhere isDropped (c :: rest) cs = cs := by
  obtain ⟨before, after, rfl, kept, stay⟩ := h
  have first : isDropped c = true := dropped c List.mem_cons_self
  have before_kept : ∀ b ∈ before, (!isDropped b) = true := by simpa using kept
  have after_kept : (after.filter fun c => !isDropped c) = after := by
    apply List.filter_eq_self.mpr
    simpa using stay
  have none_left : ((c :: rest).filter fun c => !isDropped c) = [] := by
    apply List.filter_eq_nil_iff.mpr
    simpa using dropped
  have taken : (before ++ (c :: rest) ++ after).takeWhile (fun c => !isDropped c) = before := by
    rw [List.append_assoc, List.takeWhile_append_of_pos before_kept]
    simp [first]
  have left : (before ++ (c :: rest) ++ after).dropWhile (fun c => !isDropped c) =
      (c :: rest) ++ after := by
    rw [List.append_assoc, List.dropWhile_append_of_pos before_kept]
    simp [first]
  rw [replaceWhere, taken, left, List.filter_append, none_left, after_kept, List.nil_append]

/-- A map that no drop depends on and that leaves the new conditions alone keeps settled conditions
settled. -/
theorem Settled.map {g : Expr → Expr} (h : Settled isDropped new cs)
    (same : ∀ c, isDropped (g c) = isDropped c) (fixed : new.map g = new) :
    Settled isDropped new (cs.map g) := by
  obtain ⟨before, after, rfl, kept, stay⟩ := h
  refine ⟨before.map g, after.map g, ?_, ?_, ?_⟩
  · rw [List.map_append, List.map_append, fixed]
  · simpa [same] using kept
  · simpa [same] using stay

end

/-! ### The window -/

section

variable {t : WeekTarget} {scope : TableScope} {today : Date} {q : Query} {c : Expr}

theorem isAbout_mapQuery (f : Query → Query) (e : Expr) :
    t.isAbout scope (e.mapQuery f) = t.isAbout scope e := by
  simp only [WeekTarget.isAbout, mentions_mapQuery]

theorem isAbout_asConjunct (e : Expr) : t.isAbout scope e.asConjunct = t.isAbout scope e := by
  simp only [WeekTarget.isAbout, mentions_asConjunct]

theorem window_mapQuery (f : Query → Query) :
    (t.window scope today).map (Expr.mapQuery f) = t.window scope today := rfl

theorem window_asConjunct :
    (t.window scope today).map Expr.asConjunct = t.window scope today := rfl

theorem window_conjuncts : ∀ c ∈ t.window scope today, c.conjuncts = [c] := by
  simp [WeekTarget.window, Expr.ge, Expr.lt, Expr.conjuncts]

/-- The new conditions are about the date themselves. -/
theorem window_isAbout (h : TableScope.of? q t.table = some scope) :
    ∀ c ∈ t.window scope today, t.isAbout scope c = true := by
  intro c hc
  have named : Expr.colOf scope.binding t.column ∈ c.nodes := by
    simp only [WeekTarget.window, List.mem_cons, List.not_mem_nil, or_false] at hc
    cases hc with
    | inl hc => simp [hc, Expr.ge, Expr.nodes, Expr.colOf]
    | inr hc => simp [hc, Expr.lt, Expr.nodes, Expr.colOf]
  have mentions := mentions_of_node named (isColumn_binding h)
  simp [WeekTarget.isAbout, mentions]

/-- The new conditions are true just in the week, from Monday to Sunday, before the current one. -/
theorem window_lastWeek {s : Values.Scope} {time : Moment}
    (date : (s.column (some scope.binding) t.column).moment? = some time) :
    s.DecideAll (t.window scope today) (time.day.weekStart = today.weekStart.addDays (-7)) := by
  have start := Values.Scope.decides_ge (s := s) Values.value_colOf date
    (b := .literal (.date (lastWeek today).1)) rfl rfl
  have stop := Values.Scope.decides_lt (s := s) Values.value_colOf date
    (b := .literal (.date (lastWeek today).2)) rfl rfl
  apply (start.all.append stop.all).congr
  rw [Moment.startOf_le, ← Moment.not_le, Moment.startOf_le, Date.le_iff, Date.le_iff]
  simp only [lastWeek, Date.weekStart, Date.addDays, Date.daysFromMonday, Date.mk.injEq]
  omega

end

/-! ### Limiting a statement -/

section

variable {t : WeekTarget} {today : Date} {scope : TableScope} {q m r a b : Query}

/-- What a query becomes. Only the WHERE clauses of queries that name the table change. -/
inductive WeekTarget.Limits (t : WeekTarget) (today : Date) : Query → Query → Prop where
  | unnamed {q : Query} : TableScope.of? q t.table = none → Limits t today q q
  | named {q : Query} {scope : TableScope} {cs : List Expr} :
      TableScope.of? q t.table = some scope →
      Replaces (t.isAbout scope) (t.window scope today) (conditions q) cs →
      Limits t today q { q with condition := conjunction cs }

theorem limit_limits (t : WeekTarget) (today : Date) (q : Query) :
    t.Limits today q (t.limit today q).1 := by
  rw [WeekTarget.limit]
  cases hs : TableScope.of? q t.table with
  | none => exact .unnamed hs
  | some scope => exact .named hs (replaceWhere_replaces _ _ _)

theorem WeekTarget.Limits.outline (h : t.Limits today q m) (f : Query → Query) :
    (m.mapChildren f).outline = q.outline := by
  rw [outline_mapChildren]
  cases h <;> rfl

theorem WeekTarget.Limits.children (h : t.Limits today q m) : ∀ c ∈ m.children, c ∈ q.children := by
  cases h with
  | unnamed _ => exact fun _ hc => hc
  | @named scope cs _ replaced =>
      intro c hc
      have joined : { q with condition := conjunction cs } = q.editConjuncts fun _ => cs := rfl
      rw [joined, mem_children_editConjuncts] at hc
      rw [mem_children_conditions]
      cases hc with
      | inl other => exact .inl other
      | inr inside =>
          obtain ⟨d, hd, hc⟩ := inside
          cases replaced.mem hd with
          | inl old => exact .inr ⟨d, old, hc⟩
          | inr new =>
              have none_inside := List.mem_flatMap.mpr ⟨d, new, hc⟩
              rw [window_children] at none_inside
              cases none_inside

theorem WeekTarget.Limits.raw {p : String → Bool} (h : t.Limits today q m)
    (has : m.has (.ofRaw p)) : q.has (.ofRaw p) := by
  cases h with
  | unnamed _ => exact has
  | @named scope cs _ replaced =>
      have joined : { q with condition := conjunction cs } = q.editConjuncts fun _ => cs := rfl
      rw [joined, has_editConjuncts] at has
      rw [has_conditions]
      cases has with
      | inl has => exact .inl has
      | inr has =>
          obtain ⟨c, hc, has⟩ := has
          have old := (replaced.mem hc).resolve_right fun new => window_raw new has
          exact .inr ⟨c, old, has⟩

/-- The conditions that a query is left with. -/
theorem WeekTarget.Limits.conditions (h : t.Limits today q m)
    (hs : TableScope.of? q t.table = some scope) :
    ∃ cs, Replaces (t.isAbout scope) (t.window scope today) (conditions q) cs ∧
      m.condition = conjunction cs ∧ Normalize.conditions m = cs.map Expr.asConjunct := by
  cases h with
  | unnamed none => simp [hs] at none
  | @named own cs named replaced =>
      obtain rfl := Option.some.inj (hs.symm.trans named)
      refine ⟨cs, replaced, rfl, conditions_conjunction q ?_⟩
      intro c hc
      cases replaced.mem hc with
      | inl old => exact conjuncts_conditions old
      | inr new => exact window_conjuncts c new

/-- A query is left alone where its conditions are settled. -/
theorem limit_settled (hs : TableScope.of? q t.table = some scope)
    (joined : q.condition = conjunction (conditions q))
    (settled : Settled (t.isAbout scope) (t.window scope today) (conditions q)) :
    t.limit today q = (q, false) := by
  have stays : replaceWhere (t.isAbout scope) (t.window scope today) (conditions q) =
      conditions q := replaceWhere_settled (window_isAbout hs) settled
  have tree : q.editConjuncts (replaceWhere (t.isAbout scope) (t.window scope today)) = q := by
    rw [Query.editConjuncts]
    change { q with condition := conjunction (replaceWhere _ _ (conditions q)) } = q
    rw [stays, ← joined]
    cases q with | mk => rfl
  simp only [WeekTarget.limit, hs, tree]
  change (q, replaceWhere _ _ (conditions q) != conditions q) = (q, false)
  rw [stays, bne_self_eq_false]

/-- A query that was limited is not limited any further, whatever happens to those inside. -/
theorem WeekTarget.Limits.fixed (h : t.Limits today q m) (f : Query → Query) :
    t.limit today (m.mapChildren f) = (m.mapChildren f, false) := by
  have scopes := of?_outline (h.outline f)
  cases hs : TableScope.of? q t.table with
  | none => simp only [WeekTarget.limit, scopes, hs]
  | some scope =>
      obtain ⟨cs, replaced, condition, split⟩ := h.conditions hs
      have own : (m.mapChildren f).condition = m.condition.map (Expr.mapQuery f) := rfl
      have left : Normalize.conditions (m.mapChildren f) =
          (cs.map Expr.asConjunct).map (Expr.mapQuery f) := by
        rw [conditions_mapChildren, split]
      apply limit_settled (by rw [scopes, hs])
      · rw [own, condition, left, ← conjunction_mapQuery, conjunction_asConjunct]
      · rw [left]
        apply Settled.map _ (isAbout_mapQuery f) (window_mapQuery f)
        exact replaced.settled.map isAbout_asConjunct window_asConjunct

/-! ### The chosen table -/

theorem limited_changedBy (t : WeekTarget) (today : Date) (q : Query) :
    q.ChangedBy (t.Limits today) (forEachChanged (t.limit today) q).1 := by
  rw [forEachChanged_fst]
  exact each_changedBy (limit_limits t today) (fun q => (limit_limits t today q).children) q

theorem forEachChanged_fixed {step : Query → Query × Bool}
    (h : ∀ b ∈ q.queries, step b = (b, false)) : forEachChanged step q = (q, false) := by
  have still : ∀ b ∈ q.queries, ((step b).1, false || (step b).2) = (b, false) := by
    intro b hb
    rw [h b hb, Bool.or_false]
  exact forEachM_still still

theorem names_outline {table : String} (h : b.outline = a.outline) :
    Names table b ↔ Names table a := by
  rw [← of?_isSome, ← of?_isSome, of?_outline h]

/-- A limited statement reads no other tables. -/
theorem reads_limited {table : String} (h : q.ChangedBy (t.Limits today) r)
    (reads : r.reads table = true) : q.reads table = true := by
  rw [reads_iff] at reads ⊢
  cases reads with
  | inl named =>
      obtain ⟨b, hb, names⟩ := named
      obtain ⟨a, ha, m, f, limits, -, rfl⟩ := h.query (fun _ _ => WeekTarget.Limits.children) hb
      exact .inl ⟨a, ha, (names_outline (limits.outline f)).mp names⟩
  | inr raw =>
      obtain ⟨b, hb, raw⟩ := raw
      obtain ⟨a, ha, m, f, limits, -, rfl⟩ := h.query (fun _ _ => WeekTarget.Limits.children) hb
      rw [ReadsRaw, exists_rawFragment, has_mapChildren] at raw
      refine .inr ⟨a, ha, ?_⟩
      rw [ReadsRaw, exists_rawFragment]
      exact limits.raw raw

/-- A query that names the table is not dropped unless it lies in another one that names it. -/
theorem names_limited (h : q.ChangedBy (t.Limits today) r)
    (named : ∃ a ∈ q.queries, Names t.table a) : ∃ b ∈ r.queries, Names t.table b := by
  -- down to the outermost query that names the table nothing changes, and that one stays
  induction h with
  | @step q m f limits _ ih =>
      by_cases own : Names t.table q
      · exact ⟨_, Query.self_mem_queries _, (names_outline (limits.outline f)).mpr own⟩
      · obtain ⟨a, ha, names⟩ := named
        rw [q.queries_eq] at ha
        cases List.mem_cons.mp ha with
        | inl same => exact absurd (same ▸ names) own
        | inr nested =>
            obtain ⟨c, hc, ha⟩ := List.mem_flatMap.mp nested
            cases limits with
            | named hs _ => exact absurd (names_of_of? hs) own
            | unnamed _ =>
                obtain ⟨b, hb, names⟩ := ih c hc ⟨a, ha, names⟩
                refine ⟨b, ?_, names⟩
                rw [Query.queries_eq, children_mapChildren]
                apply List.mem_cons_of_mem
                exact List.mem_flatMap.mpr ⟨f c, List.mem_map_of_mem hc, hb⟩

/-- The chosen table is still read, if only in raw SQL as before. -/
theorem reads_chosen (reads : q.reads t.table = true) :
    (forEachChanged (t.limit today) q).1.reads t.table = true := by
  by_cases named : ∃ a ∈ q.queries, Names t.table a
  · exact reads_iff.mpr (.inl (names_limited (limited_changedBy t today q) named))
  · have untouched : forEachChanged (t.limit today) q = (q, false) := by
      apply forEachChanged_fixed
      intro b hb
      cases hs : TableScope.of? b t.table with
      | none => simp only [WeekTarget.limit, hs]
      | some scope => exact absurd ⟨b, hb, names_of_of? hs⟩ named
    rw [untouched]
    exact reads

theorem find?_same {α : Type} {p p' : α → Bool} {xs : List α} {x : α}
    (h : xs.find? p = some x) (less : ∀ y, p' y = true → p y = true) (own : p' x = true) :
    xs.find? p' = some x := by
  rw [List.find?_eq_some_iff_append] at h ⊢
  obtain ⟨-, before, after, split, earlier⟩ := h
  refine ⟨own, before, after, split, ?_⟩
  intro y hy
  have unmet := earlier y hy
  cases met : p' y with
  | false => rfl
  | true => simp [less y met] at unmet

end

/-! ### The tables with dates -/

/-- Whether a target is the date of a table that the rules list, with the banned columns that stand
for it. -/
structure WeekTarget.IsDateOf (t : WeekTarget) (schema : Schema) (rules : Rules) : Prop where
  listed : t.table ∈ rules.weekTables
  date : ∃ own, schema.table t.table = .ok own ∧ own.dateColumn = some t.column
  aliases : ∀ name, name ∈ t.aliases ↔ ⟨t.table, name, t.column⟩ ∈ rules.bannedColumns

theorem target_isDateOf {schema : Schema} {rules : Rules} {w : RelativeWeek} {t : WeekTarget}
    (built : RelativeWeek.build schema rules = .ok w) (ht : t ∈ w.targets) :
    t.IsDateOf schema rules := by
  rw [RelativeWeek.build] at built
  cases targets : rules.weekTables.mapM (WeekTarget.of? schema rules.bannedColumns) with
  | error e => simp [targets, bind, Except.bind] at built
  | ok found =>
      simp only [targets, bind, Except.bind, pure, Except.pure, Except.ok.injEq] at built
      rw [← built] at ht
      obtain ⟨_, hfound, rfl⟩ := List.mem_filterMap.mp ht
      obtain ⟨table, listed, own⟩ := exists_left (mapM_eq_ok targets) hfound
      rw [WeekTarget.of?] at own
      cases lookup : schema.table table with
      | error e => simp [lookup, bind, Except.bind] at own
      | ok entry =>
          simp only [lookup, bind, Except.bind, pure, Except.pure, Except.ok.injEq] at own
          obtain ⟨column, date, rfl⟩ := Option.map_eq_some_iff.mp own
          refine ⟨listed, ⟨entry, lookup, date⟩, ?_⟩
          intro name
          simp only [List.mem_map, List.mem_filter, Bool.and_eq_true, beq_iff_eq]
          constructor
          · rintro ⟨b, ⟨hb, rfl, rfl⟩, rfl⟩
            exact hb
          · intro hb
            exact ⟨_, ⟨hb, rfl, rfl⟩, rfl⟩

/-! ### Questions -/

section

variable {schema : Schema} {rules : Rules} {w : RelativeWeek} {question : String} {q : Query}

end

/-- Sales on days when some sale was closed, with its own date in another column. -/
def salesOnClosingDays : Query :=
  let closed := ((Query.empty.select [(Expr.int 1).item]).addSource
    (.named ⟨none, "sales", some "s"⟩)).filter
      ((Expr.colOf "s" "closed_at").ge (.literal (.date (.ofCivil ⟨2024, 1, 1⟩))))
  ((Query.empty.select [(Expr.col "total").item]).addSource (.ofName "sales")).filterAll
    [(Expr.col "created_at").lt (.text "2024-01-01"), .exists closed false,
      (Expr.col "vip").or ((Expr.col "total").ge (.int 100))]

end ReportSql.Normalize

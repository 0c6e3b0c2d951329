import Mathlib.Data.List.Forall2
import ReportSql.Catalog.Restaurant
import ReportSql.Join.Order
import ReportSql.Proofs.SearchTrees

/-!
The joins that connect a base table with required tables. They are the declared joins on the paths
to these, which fit together into a tree: in the order in which the paths are gone through, each
join brings in one new table and refers to one that is there, so that none is left over, and none
can be left out.
-/
namespace ReportSql.Text

theorem mem_insertSorted {s t : String} {l : List String} :
    t ∈ insertSorted s l ↔ t = s ∨ t ∈ l := by
  induction l with
  | nil => simp [insertSorted]
  | cons u l ih =>
      unfold insertSorted
      split
      · next same =>
        obtain rfl : s = u := by simpa using same
        simp
      · split
        · simp
        · simp [ih, or_left_comm]

theorem mem_sortedSet {t : String} {l : List String} : t ∈ sortedSet l ↔ t ∈ l := by
  induction l with
  | nil => simp [sortedSet]
  | cons s l ih => rw [List.mem_cons, ← ih]; exact mem_insertSorted

theorem insertSorted_ascending {s : String} {l : List String} (h : l.Pairwise (· < ·)) :
    (insertSorted s l).Pairwise (· < ·) := by
  induction l with
  | nil => exact List.pairwise_singleton _ _
  | cons t l ih =>
      obtain ⟨first, rest⟩ := List.pairwise_cons.mp h
      unfold insertSorted
      split
      · exact h
      · next other =>
        split
        · next before =>
          refine List.pairwise_cons.mpr ⟨List.forall_mem_cons.mpr ⟨before, fun u hu => ?_⟩, h⟩
          exact String.lt_trans before (first u hu)
        · next after =>
          have other : t ≠ s := fun same => other (beq_iff_eq.mpr same.symm)
          have after : t < s := Std.lt_of_le_of_ne (String.not_lt.mp after) other
          refine List.pairwise_cons.mpr ⟨fun u hu => ?_, ih rest⟩
          rcases mem_insertSorted.mp hu with rfl | hu
          · exact after
          · exact first u hu

theorem sortedSet_ascending (l : List String) : (sortedSet l).Pairwise (· < ·) := by
  induction l with
  | nil => exact .nil
  | cons s l ih => exact insertSorted_ascending ih

end ReportSql.Text

namespace ReportSql.Join

open Catalog (Edge Schema)

variable {edges more known : List Edge} {base a b : String} {t u v w : Trail} {e : Edge}
  {reached : List Trail} {steps : List Step} {s : Schema} {required tables : List String}

/-! ### Joins in order -/

/-- Whether steps make some joins in their order: each join refers to the base or a table that was
joined before it, and brings in a table that is not there yet. -/
inductive Grows (base : String) : List Edge → List Step → Prop
  | base : Grows base [] []
  | join {edges : List Edge} {steps : List Step} {e : Edge} {old new : String}
      (grown : Grows base edges steps) (joins : Joins e old new)
      (there : old ∈ base :: steps.map Step.table)
      (fresh : new ∉ base :: steps.map Step.table) :
      Grows base (edges ++ [e]) (steps ++ [⟨new, e.kind, e.condition⟩])

namespace Grows

theorem tables_nodup (h : Grows base edges steps) : (base :: steps.map Step.table).Nodup := by
  induction h with
  | base => simp
  | join _ _ _ fresh ih =>
      rw [List.map_append, ← List.cons_append, List.nodup_append]
      refine ⟨ih, by simp, ?_⟩
      rintro a ha _ (_ | _) rfl
      · exact fresh ha
      · contradiction

/-- Both tables of a join are there in the end. -/
theorem tables_mem (h : Grows base edges steps) (he : e ∈ edges) :
    e.leftTable ∈ base :: steps.map Step.table ∧ e.rightTable ∈ base :: steps.map Step.table := by
  induction h with
  | base => cases he
  | @join edges steps f old new _ joins there _ ih =>
      rw [List.map_append, ← List.cons_append]
      rcases List.mem_append.mp he with known | last
      · exact (ih known).imp (List.mem_append_left _) (List.mem_append_left _)
      · obtain rfl := List.mem_singleton.mp last
        have old := List.mem_append_left [new] there
        have new : new ∈ (base :: steps.map Step.table) ++ [new] :=
          List.mem_append_right _ (List.mem_singleton_self _)
        rcases joins with ⟨rfl, rfl⟩ | ⟨rfl, rfl⟩
        · exact ⟨old, new⟩
        · exact ⟨new, old⟩

/-- Each step makes one of the joins, between its own tables. -/
theorem step_edge (h : Grows base edges steps) :
    ∀ s ∈ steps, ∃ e ∈ edges, s.condition = e.condition ∧
      (s.table = e.leftTable ∨ s.table = e.rightTable) := by
  induction h with
  | base => exact nofun
  | @join edges steps e old new _ joins _ _ ih =>
      refine List.forall_mem_append.mpr ⟨fun s hs => ?_, List.forall_mem_singleton.mpr ?_⟩
      · obtain ⟨f, hf, own⟩ := ih s hs
        exact ⟨f, List.mem_append_left _ hf, own⟩
      · refine ⟨e, List.mem_append_right _ (List.mem_singleton_self _), rfl, ?_⟩
        rcases joins with ⟨-, right⟩ | ⟨-, left⟩
        · exact .inr right.symm
        · exact .inl left.symm

/-- A table that is joined is one of the two of a join. -/
theorem table_joined (h : Grows base edges steps) {table : String}
    (ht : table ∈ steps.map Step.table) :
    ∃ e ∈ edges, table = e.leftTable ∨ table = e.rightTable := by
  obtain ⟨s, hs, rfl⟩ := List.mem_map.mp ht
  obtain ⟨e, he, -, side⟩ := h.step_edge s hs
  exact ⟨e, he, side⟩

/-- The joins connect the base with every table that is joined. -/
theorem connected (h : Grows base edges steps) {table : String}
    (ht : table ∈ base :: steps.map Step.table) : Connected edges base table := by
  induction h generalizing table with
  | base =>
      obtain rfl := List.mem_singleton.mp ht
      exact .refl
  | @join edges steps e old new _ joins there _ ih =>
      have more : ∀ {table}, table ∈ base :: steps.map Step.table →
          Connected (edges ++ [e]) base table := fun ht =>
        connected_mono (fun _ => List.mem_append_left _) (ih ht)
      rw [List.map_append, ← List.cons_append] at ht
      rcases List.mem_append.mp ht with known | last
      · exact more known
      · obtain rfl := List.mem_singleton.mp last
        exact (more there).tail ⟨e, List.mem_append_right _ (List.mem_singleton_self _), joins⟩

/-! One round makes joins that are in order. -/

theorem take_new {p : Progress} {old new : String} (joins : Joins e old new)
    (there : old ∈ p.present) (fresh : new ∉ p.present) : p.take e = p.add new e := by
  unfold Progress.take
  rcases joins with ⟨rfl, rfl⟩ | ⟨rfl, rfl⟩
  · simp [there, fresh]
  · simp [there, fresh]

theorem round (h : Grows base edges steps) : ∃ p : Progress,
    edges.foldl Progress.take ⟨[base], [], [], false⟩ = p ∧
      (∀ table, table ∈ p.present ↔ table ∈ base :: steps.map Step.table) ∧ p.steps = steps ∧
      p.stuck = [] ∧ p.moved = !edges.isEmpty := by
  induction h with
  | base => exact ⟨_, rfl, fun _ => Iff.rfl, rfl, rfl, rfl⟩
  | @join edges steps e old new _ joins there fresh ih =>
      obtain ⟨p, run, present, made, stuck, -⟩ := ih
      refine ⟨p.add new e, ?_, fun table => ?_, ?_, stuck, by simp [Progress.add]⟩
      · rw [List.foldl_append, run]
        exact take_new joins ((present old).mpr there) (fun old => fresh ((present new).mp old))
      · simp only [Progress.add, List.mem_cons, present, List.map_append, List.map_cons,
          List.map_nil, List.mem_append, List.not_mem_nil, or_false]
        rw [or_comm, or_assoc]
      · simp [Progress.add, made]

/-- Joins that are in order are made in this order, and none is left over. -/
theorem order (h : Grows base edges steps) : order base edges = .ok steps := by
  obtain ⟨p, run, -, made, stuck, moved⟩ := h.round
  have all : rounds edges.length [base] [] edges = (steps, []) := by
    cases edges with
    | nil =>
        subst run
        exact congrArg (·, []) made
    | cons e edges =>
        rw [List.length_cons, rounds, run]
        · simp only [moved, List.isEmpty_cons, Bool.not_false, if_true, made, stuck]
          cases edges.length <;> rfl
        · simp
  rw [Join.order, all]

end Grows

/-! ### Joins of a search tree -/

namespace SearchTree

/-- A join on a trail is the last one of a trail that goes on from another. -/
theorem edge_trail (tree : SearchTree edges base reached) : ∀ t ∈ reached, ∀ e ∈ t.edges,
    ∃ u ∈ reached, ∃ v ∈ reached, Joins e v.table u.table ∧ u.edges = v.edges ++ [e] := by
  refine tree.induct nofun fun t u ht hu e _ joins own known => ?_
  rw [own]
  exact List.forall_mem_append.mpr
    ⟨known, List.forall_mem_singleton.mpr ⟨t, ht, u, hu, joins, own⟩⟩

/-- No two trails end in the same join. -/
theorem eq_of_last (tree : SearchTree edges base reached) (ht : t ∈ reached)
    (hu : u ∈ reached) (hv : v ∈ reached) (hw : w ∈ reached) (first : Joins e v.table t.table)
    (ft : t.edges = v.edges ++ [e]) (second : Joins e w.table u.table)
    (fu : u.edges = w.edges ++ [e]) : t = u := by
  rcases joins_same first second with ⟨-, same⟩ | ⟨vu, tw⟩
  · exact tree.eq_of_table ht hu same
  · -- each of the two trails would go on from the other
    obtain rfl := tree.eq_of_table hv hu vu
    obtain rfl := tree.eq_of_table ht hw tw
    have size := congrArg List.length ft
    simp only [fu, List.length_append, List.length_singleton] at size
    omega

/-- Without a join the tables whose trails have it are cut off from the start. -/
theorem cut_off (tree : SearchTree edges base reached)
    (joined : ∀ e ∈ more, ∃ t ∈ reached, e ∈ t.edges) (once : more.Nodup) (ht : t ∈ reached)
    (he : e ∈ t.edges) : ¬ Connected (more.erase e) base t.table := by
  -- what the other joins lead to is reached without this one
  have without : ∀ table, Connected (more.erase e) base table →
      ∀ u ∈ reached, u.table = table → e ∉ u.edges := by
    intro table connected
    induction connected with
    | refl =>
        intro u hu same
        rw [tree.eq_of_table hu tree.start_mem same]
        exact nofun
    | @tail a b _ step ih =>
        obtain ⟨f, hf, joins⟩ := step
        obtain ⟨other, hf⟩ := once.mem_erase_iff.mp hf
        obtain ⟨w, hw, on⟩ := joined f hf
        obtain ⟨u, hu, v, hv, own, last⟩ := tree.edge_trail w hw f on
        have both : e ∈ u.edges ↔ e ∈ v.edges := by simp [last, Ne.symm other]
        intro x hx same
        rcases joins_same joins own with ⟨av, bu⟩ | ⟨au, bv⟩
        · rw [tree.eq_of_table hx hu (same.trans bu), both]
          exact ih v hv av.symm
        · rw [tree.eq_of_table hx hv (same.trans bv), ← both]
          exact ih u hu au.symm
  exact fun connected => without _ connected t ht rfl he

end SearchTree

/-! ### Paths put together -/

theorem mem_addEdges : e ∈ addEdges known more ↔ e ∈ known ∨ e ∈ more := by
  unfold addEdges
  induction more generalizing known with
  | nil => simp
  | cons f more ih =>
      rw [List.foldl_cons, ih, List.mem_cons, ← or_assoc]
      split
      · next old =>
        have old : f ∈ known := by simpa using old
        refine or_congr_left (or_iff_left_of_imp ?_).symm
        rintro rfl
        exact old
      · rw [List.mem_append, List.mem_singleton]

theorem addEdges_concat : addEdges known (more ++ [e]) =
    if e ∈ addEdges known more then addEdges known more else addEdges known more ++ [e] := by
  simp [addEdges]

theorem nodup_addEdges (h : known.Nodup) : (addEdges known more).Nodup := by
  unfold addEdges
  induction more generalizing known with
  | nil => exact h
  | cons f more ih =>
      rw [List.foldl_cons]
      refine ih ?_
      split
      · exact h
      · next new =>
        have new : f ∉ known := by simpa using new
        rw [List.nodup_append]
        refine ⟨h, by simp, ?_⟩
        rintro e he _ (_ | _) rfl
        · exact new he
        · contradiction

/-- Whether steps make some joins in their order, and bring in the end of a trail just where its
last join is one of them. -/
structure Planted (reached : List Trail) (base : String) (edges : List Edge) (steps : List Step) :
    Prop where
  grows : Grows base edges steps
  ends : ∀ t ∈ reached, ∀ v ∈ reached, ∀ e, Joins e v.table t.table → t.edges = v.edges ++ [e] →
    (t.table ∈ steps.map Step.table ↔ e ∈ edges)

theorem planted_nil (reached : List Trail) (base : String) : Planted reached base [] [] :=
  ⟨.base, fun _ _ _ _ _ _ _ => by simp⟩

namespace Planted

/-- The last join of a trail is made where the joins before it are. -/
theorem join (h : Planted reached base known steps) (tree : SearchTree edges base reached)
    (ht : t ∈ reached) (hv : v ∈ reached) (joins : Joins e v.table t.table)
    (last : t.edges = v.edges ++ [e]) (there : v.table ∈ base :: steps.map Step.table)
    (new : e ∉ known) :
    Planted reached base (known ++ [e]) (steps ++ [⟨t.table, e.kind, e.condition⟩]) := by
  have fresh : t.table ∉ base :: steps.map Step.table := by
    rw [List.mem_cons, not_or, h.ends t ht v hv e joins last]
    refine ⟨fun same => ?_, new⟩
    have start := tree.eq_of_table ht tree.start_mem same
    simp [start] at last
  refine ⟨h.grows.join joins there fresh, fun u hu w hw f own other => ?_⟩
  have same : u.table = t.table ↔ f = e := by
    constructor
    · intro same
      have edges := congrArg Trail.edges (tree.eq_of_table hu ht same)
      rw [last, other] at edges
      simpa using (List.append_inj' edges rfl).2
    · rintro rfl
      exact congrArg Trail.table (tree.eq_of_last hu ht hw hv own other joins last)
  simp [h.ends u hu w hw f own other, same]

/-- The joins on a trail that are not made yet can be made in their order. -/
theorem trail (tree : SearchTree edges base reached) : ∀ t ∈ reached, ∀ known steps,
    Planted reached base known steps → ∃ steps', Planted reached base (addEdges known t.edges) steps' ∧
      t.table ∈ base :: steps'.map Step.table := by
  refine tree.induct (fun known steps h => ⟨steps, h, List.mem_cons_self⟩) ?_
  intro t v ht hv e _ joins last ih known steps h
  obtain ⟨made, planted, there⟩ := ih known steps h
  rw [last, addEdges_concat]
  split
  · next old =>
    have known := (planted.ends t ht v hv e joins last).mpr old
    exact ⟨made, planted, List.mem_cons_of_mem _ known⟩
  · next new => exact ⟨_, planted.join tree ht hv joins last there new, by simp⟩

/-- The end of a trail is there if its joins are made. -/
theorem table_mem (h : Planted reached base known steps) (tree : SearchTree edges base reached)
    (ht : t ∈ reached) (made : ∀ e ∈ t.edges, e ∈ known) :
    t.table ∈ base :: steps.map Step.table := by
  rcases tree.cases_mem ht with rfl | ⟨v, hv, e, -, joins, last⟩
  · exact List.mem_cons_self
  · refine List.mem_cons_of_mem _ ((h.ends t ht v hv e joins last).mpr (made e ?_))
    rw [last]
    exact List.mem_append_right _ (List.mem_singleton_self _)

end Planted

/-! ### Required tables -/

/-- Known joins with those on the paths to some tables. -/
def gathered (s : Schema) (base : String) (known : List Edge) (tables : List String) :
    Except Fault (List Edge) :=
  tables.foldlM (fun known table => return addEdges known (← path s base table)) known

theorem resolve_eq (s : Schema) (base : String) (required : List String) :
    resolve s base required = gathered s base [] (Text.sortedSet required) >>= order base := rfl

theorem gathered_cons {table : String} : gathered s base known (table :: tables) =
    path s base table >>= fun es => gathered s base (addEdges known es) tables := by
  unfold gathered
  rw [List.foldlM_cons]
  cases path s base table <;> rfl

/-- Where there is a path to each table, the joins on them are gathered in an order in which they
can be made. -/
theorem gathered_ok (found : ∀ t ∈ tables, ∃ es, path s base t = .ok es)
    (planted : Planted (trails s base) base known steps) (once : known.Nodup) :
    ∃ edges steps', gathered s base known tables = .ok edges ∧
      Planted (trails s base) base edges steps' ∧ edges.Nodup ∧
      ∀ e, e ∈ edges ↔ e ∈ known ∨ ∃ t ∈ tables, ∃ es, path s base t = .ok es ∧ e ∈ es := by
  induction tables generalizing known steps with
  | nil => exact ⟨known, steps, rfl, planted, once, by simp⟩
  | cons table tables ih =>
      obtain ⟨⟨es, own⟩, others⟩ := List.forall_mem_cons.mp found
      obtain ⟨declared, -, trail⟩ := path_eq_ok.mp own
      obtain ⟨made, planted, -⟩ :=
        Planted.trail (trails_closed s declared).1 _ trail known steps planted
      obtain ⟨edges, steps', run, grown, distinct, all⟩ := ih others planted (nodup_addEdges once)
      refine ⟨edges, steps', ?_, grown, distinct, fun e => ?_⟩
      · rw [gathered_cons, own]
        exact run
      · rw [all, mem_addEdges, or_assoc]
        simp [own]

/-- Where there is no path to a table, the first such path gives the fault. -/
theorem gathered_fault (missing : ¬ ∀ t ∈ tables, ∃ es, path s base t = .ok es) :
    ∃ t ∈ tables, ∃ fault, path s base t = .error fault ∧
      gathered s base known tables = .error fault := by
  induction tables generalizing known with
  | nil => exact absurd nofun missing
  | cons table tables ih =>
      rw [gathered_cons]
      cases own : path s base table with
      | error fault => exact ⟨table, List.mem_cons_self, fault, own, rfl⟩
      | ok es =>
          have others : ¬ ∀ t ∈ tables, ∃ es, path s base t = .ok es := fun found =>
            missing (List.forall_mem_cons.mpr ⟨⟨es, own⟩, found⟩)
          obtain ⟨t, ht, rest⟩ := ih others
          exact ⟨t, List.mem_cons_of_mem _ ht, rest⟩

theorem path_not_stuck {target : String} : path s base target ≠ .error (.stuck tables) := by
  unfold path
  split
  · exact nofun
  · split
    · exact nofun
    · split <;> exact nofun

/-- Whether steps join required tables to a base by the declared joins on the paths to them. Each
of these joins is made once, and none can be left out. -/
structure IsJoinTree (s : Schema) (base : String) (required : List String) (edges : List Edge)
    (steps : List Step) : Prop where
  paths : ∀ e, e ∈ edges ↔ ∃ t ∈ required, ∃ es, path s base t = .ok es ∧ e ∈ es
  once : edges.Nodup
  declared : ∀ e ∈ edges, e ∈ s.edges
  grows : Grows base edges steps
  tables : ∀ table, table ∈ steps.map Step.table ↔ table ≠ base ∧
    ∃ t ∈ required, ∃ es, path s base t = .ok es ∧
      ∃ e ∈ es, table = e.leftTable ∨ table = e.rightTable
  tables_once : (steps.map Step.table).Nodup
  connected : ∀ t ∈ required, Connected edges base t
  needed : ∀ e ∈ edges, ∃ t ∈ required, ¬ Connected (edges.erase e) base t

theorem isJoinTree_of_planted (found : ∀ t ∈ required, ∃ es, path s base t = .ok es)
    (planted : Planted (trails s base) base edges steps) (once : edges.Nodup)
    (paths : ∀ e, e ∈ edges ↔ ∃ t ∈ required, ∃ es, path s base t = .ok es ∧ e ∈ es) :
    IsJoinTree s base required edges steps := by
  have grows := planted.grows
  have distinct := List.nodup_cons.mp grows.tables_nodup
  have tree : ∀ t ∈ required, SearchTree s.edges base (trails s base) := fun t ht => by
    obtain ⟨es, own⟩ := found t ht
    exact (trails_closed s (path_eq_ok.mp own).1).1
  have trail : ∀ e ∈ edges, ∃ t ∈ required, ∃ es, ⟨t, es⟩ ∈ trails s base ∧ e ∈ es := by
    intro e he
    obtain ⟨t, ht, es, own, on⟩ := (paths e).mp he
    exact ⟨t, ht, es, (path_eq_ok.mp own).2.2, on⟩
  refine ⟨paths, once, fun e he => ?_, grows, fun table => ⟨fun ht => ?_, ?_⟩, distinct.2,
    fun t ht => ?_, fun e he => ?_⟩
  · obtain ⟨t, ht, es, own, on⟩ := trail e he
    exact (tree t ht).edges_declared _ own e on
  · obtain ⟨e, he, side⟩ := grows.table_joined ht
    obtain ⟨t, ht', es, own, on⟩ := (paths e).mp he
    refine ⟨?_, t, ht', es, own, e, on, side⟩
    rintro rfl
    exact distinct.1 ht
  · rintro ⟨other, t, ht, es, own, e, on, side⟩
    obtain ⟨left, right⟩ := grows.tables_mem ((paths e).mpr ⟨t, ht, es, own, on⟩)
    rcases side with rfl | rfl
    · exact (List.mem_cons.mp left).resolve_left other
    · exact (List.mem_cons.mp right).resolve_left other
  · obtain ⟨es, own⟩ := found t ht
    refine grows.connected (planted.table_mem (tree t ht) (path_eq_ok.mp own).2.2 fun e on => ?_)
    exact (paths e).mpr ⟨t, ht, es, own, on⟩
  · obtain ⟨t, ht, es, own, on⟩ := trail e he
    refine ⟨t, ht, (tree t ht).cut_off (fun f hf => ?_) once own on⟩
    obtain ⟨u, _, fs, other, on⟩ := trail f hf
    exact ⟨_, other, on⟩

theorem resolve_ok (found : ∀ t ∈ required, ∃ es, path s base t = .ok es) :
    ∃ steps edges, resolve s base required = .ok steps ∧
      IsJoinTree s base required edges steps := by
  obtain ⟨edges, steps, run, planted, once, all⟩ :=
    gathered_ok (fun t ht => found t (Text.mem_sortedSet.mp ht)) (planted_nil _ _) .nil
  have paths : ∀ e, e ∈ edges ↔ ∃ t ∈ required, ∃ es, path s base t = .ok es ∧ e ∈ es := by
    simpa [Text.mem_sortedSet] using all
  refine ⟨steps, edges, ?_, isJoinTree_of_planted found planted once paths⟩
  rw [resolve_eq, run]
  exact planted.grows.order

theorem resolve_fault (missing : ¬ ∀ t ∈ required, ∃ es, path s base t = .ok es) :
    ∃ fault, resolve s base required = .error fault ∧ ∀ tables, fault ≠ .stuck tables := by
  have sorted : ¬ ∀ t ∈ Text.sortedSet required, ∃ es, path s base t = .ok es := by
    simpa only [Text.mem_sortedSet] using missing
  obtain ⟨t, -, fault, own, run⟩ := @gathered_fault [] base s _ sorted
  refine ⟨fault, ?_, fun tables stuck => path_not_stuck (stuck ▸ own)⟩
  rw [resolve_eq, run]
  rfl

/-- The joins that are made join the required tables to the base. -/
theorem tree_of_resolve (h : resolve s base required = .ok steps) :
    ∃ edges, IsJoinTree s base required edges steps := by
  have found : ∀ t ∈ required, ∃ es, path s base t = .ok es := by
    by_contra missing
    obtain ⟨fault, run, -⟩ := resolve_fault missing
    rw [run] at h
    cases h
  obtain ⟨made, edges, run, tree⟩ := resolve_ok found
  obtain rfl := Except.ok.inj (run.symm.trans h)
  exact ⟨edges, tree⟩

/-- Each join that is made is a declared one, with the condition that this has. -/
theorem step_declared (h : resolve s base required = .ok steps) :
    ∀ step ∈ steps, Declared s step.table ∧ ∃ e ∈ s.edges, step.condition = e.condition := by
  obtain ⟨edges, tree⟩ := tree_of_resolve h
  intro step hs
  obtain ⟨e, he, condition, side⟩ := tree.grows.step_edge step hs
  have declared := tree.declared e he
  refine ⟨?_, e, declared, condition⟩
  rcases side with left | right
  · exact left ▸ (edge_declared s declared).1
  · exact right ▸ (edge_declared s declared).2

/-- Every required table is the base or brought in by a join. -/
theorem required_joined {t : String} (h : resolve s base required = .ok steps)
    (ht : t ∈ required) : t ∈ base :: steps.map Step.table := by
  obtain ⟨edges, tree⟩ := tree_of_resolve h
  by_cases same : t = base
  · exact same ▸ List.mem_cons_self
  · -- the last join on the way to the table is one of those made
    rcases (tree.connected t ht).cases_tail with rfl | ⟨u, -, e, he, joins⟩
    · exact absurd rfl same
    · obtain ⟨target, required, es, own, on⟩ := (tree.paths e).mp he
      have side : t = e.leftTable ∨ t = e.rightTable := by
        rcases joins with ⟨-, rfl⟩ | ⟨-, rfl⟩
        · exact .inr rfl
        · exact .inl rfl
      exact List.mem_cons_of_mem _ ((tree.tables t).mpr ⟨same, target, required, es, own, e, on, side⟩)

/-- Joining fails just where a required table is not declared or not connected with the base, never
because joins could not be put in order, and else joins the base with the required tables by the
joins on the paths to them, none of which can be left out. -/
theorem resolve_joins_paths (s : Schema) (base : String) (required : List String) :
    ((∃ steps, resolve s base required = .ok steps) ↔
      ∀ t ∈ required, Declared s base ∧ Declared s t ∧ Connected s.edges base t) ∧
    (∀ tables, resolve s base required ≠ .error (.stuck tables)) ∧
    ∀ steps, resolve s base required = .ok steps →
      ∃ edges, IsJoinTree s base required edges steps := by
  simp only [← exists_path]
  by_cases found : ∀ t ∈ required, ∃ es, path s base t = .ok es
  · obtain ⟨made, edges, run, tree⟩ := resolve_ok found
    refine ⟨⟨fun _ => found, fun _ => ⟨made, run⟩⟩, fun tables stuck => ?_, fun steps own => ?_⟩
    · rw [run] at stuck
      cases stuck
    · obtain rfl := Except.ok.inj (run.symm.trans own)
      exact ⟨edges, tree⟩
  · obtain ⟨fault, run, other⟩ := resolve_fault found
    refine ⟨⟨?_, fun all => absurd all found⟩, fun tables stuck => ?_, fun steps own => ?_⟩
    · rintro ⟨steps, own⟩
      rw [run] at own
      cases own
    · exact other tables (Except.error.inj (run.symm.trans stuck))
    · rw [run] at own
      cases own

theorem resolve_joins_categories : ∃ steps edges,
    resolve Catalog.Restaurant.schema "items" ["sales", "product_categories"] = .ok steps ∧
      steps.map Step.table = ["products", "product_categories", "sales"] ∧
      IsJoinTree Catalog.Restaurant.schema "items" ["sales", "product_categories"] edges steps := by
  have run : ((resolve Catalog.Restaurant.schema "items"
      ["sales", "product_categories"]).toOption.map fun steps => steps.map Step.table) =
      some ["products", "product_categories", "sales"] := by decide +kernel
  obtain ⟨-, -, trees⟩ :=
    resolve_joins_paths Catalog.Restaurant.schema "items" ["sales", "product_categories"]
  cases made : resolve Catalog.Restaurant.schema "items" ["sales", "product_categories"] with
  | error fault =>
      rw [made] at run
      cases run
  | ok steps =>
      rw [made] at run
      obtain ⟨edges, tree⟩ := trees steps made
      exact ⟨steps, edges, rfl, Option.some.inj run, tree⟩

end ReportSql.Join

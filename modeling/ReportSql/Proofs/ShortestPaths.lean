import Mathlib.Data.List.Lex
import Mathlib.Data.Prod.Lex
import ReportSql.Proofs.SearchTrees

/-!
Which path between two tables is found. Walks over the declared joins are compared by the places of
their joins in the declaration: a shorter walk comes first, and of two that are as long as each
other the one whose first differing join is declared earlier. The search reaches tables in this
order, so that each is reached by the first walk that leads to it.
-/
namespace ReportSql.Join

open Catalog (Edge Schema)

variable {edges : List Edge} {start target a b : String} {t u current : Trail} {e : Edge}
  {reached waiting done : List Trail} {s : Schema} {i j : Nat} {ps qs : List Nat}

/-! ### Walks and their order -/

/-- A walk from a table over declared joins, given by the places of the joins in the declaration,
the tables that it comes through, and the last of them. -/
inductive Walk (edges : List Edge) (start : String) : List Nat → List String → String → Prop
  | start : Walk edges start [] [start] start
  | next {places : List Nat} {tables : List String} {a b : String} {i : Nat} {e : Edge}
      (before : Walk edges start places tables a) (declared : edges[i]? = some e)
      (joins : Joins e a b) : Walk edges start (places ++ [i]) (tables ++ [b]) b

theorem Walk.connected {tables : List String} (walk : Walk edges start ps tables b) :
    Connected edges start b := by
  induction walk with
  | start => exact .refl
  | next _ declared joins ih => exact ih.tail ⟨_, List.mem_of_getElem? declared, joins⟩

/-- The length of a walk, and then its places one by one. -/
def rank (places : List Nat) : ℕ ×ₗ List ℕ := toLex (places.length, places)

theorem rank_le_rank : rank ps ≤ rank qs ↔
    ps.length ≤ qs.length ∧ (ps.length = qs.length → ps ≤ qs) := by
  simp only [rank, Prod.Lex.toLex_le_toLex]
  constructor
  · rintro (short | ⟨long, first⟩)
    · exact ⟨short.le, fun long => absurd long short.ne⟩
    · exact ⟨long.le, fun _ => first⟩
  · rintro ⟨short, first⟩
    exact short.lt_or_eq.imp_right fun long => ⟨long, first long⟩

theorem rank_nil_lt : rank [] < rank (ps ++ [i]) := by
  simp [rank, Prod.Lex.toLex_lt_toLex]

/-- Among places of one length the order is that of the first that differ, whatever follows. -/
theorem append_lt_append (long : ps.length = qs.length) (h : ps < qs) (rs us : List Nat) :
    ps ++ rs < qs ++ us := by
  induction ps generalizing qs with
  | nil =>
      obtain rfl : qs = [] := List.eq_nil_of_length_eq_zero long.symm
      exact absurd h (lt_irrefl _)
  | cons p ps ih =>
      cases qs with
      | nil => cases long
      | cons q qs =>
          rcases List.cons_lt_cons_iff.mp h with less | ⟨rfl, rest⟩
          · exact List.cons_lt_cons_iff.mpr (.inl less)
          · exact List.cons_lt_cons_iff.mpr (.inr ⟨rfl, ih (Nat.succ.inj long) rest⟩)

theorem rank_snoc_lt (h : rank ps < rank qs) : rank (ps ++ [i]) < rank (qs ++ [j]) := by
  simp only [rank, Prod.Lex.toLex_lt_toLex, List.length_append, List.length_singleton] at h ⊢
  exact h.imp (fun short => by omega) fun ⟨long, first⟩ =>
    ⟨by omega, append_lt_append long first _ _⟩

theorem rank_snoc_le (h : rank ps ≤ rank qs) : rank (ps ++ [i]) ≤ rank (qs ++ [i]) := by
  rcases h.lt_or_eq with less | same
  · exact (rank_snoc_lt less).le
  · obtain rfl : ps = qs := congrArg (fun r => (ofLex r).2) same
    exact le_rfl

theorem rank_snoc_lt_snoc (h : i < j) : rank (ps ++ [i]) < rank (ps ++ [j]) := by
  simp only [rank, Prod.Lex.toLex_lt_toLex, List.length_append, List.length_singleton]
  exact .inr ⟨trivial, List.append_left_lt (List.cons_lt_cons_iff.mpr (.inl h))⟩

/-! ### The walks of trails -/

/-- The places of the joins on a trail, each at its first declaration. -/
def Trail.places (edges : List Edge) (t : Trail) : List Nat := t.edges.map fun e => edges.idxOf e

theorem places_snoc : Trail.places edges ⟨b, t.edges ++ [e]⟩ = t.places edges ++ [edges.idxOf e] := by
  simp [Trail.places]

theorem places_declared (h : ∀ e ∈ t.edges, e ∈ edges) :
    (t.places edges).map (edges[·]?) = t.edges.map some := by
  rw [Trail.places, List.map_map]
  exact List.map_congr_left fun e he => List.getElem?_idxOf (h e he)

/-- A trail is a walk that comes to no table twice. -/
theorem SearchTree.walks (tree : SearchTree edges start reached) :
    ∀ t ∈ reached, ∃ tables, Walk edges start (t.places edges) tables t.table ∧ tables.Nodup ∧
      ∀ table ∈ tables, table ∈ reached.map Trail.table := by
  induction tree with
  | start =>
      refine List.forall_mem_singleton.mpr ⟨[start], .start, List.nodup_singleton _, ?_⟩
      exact List.forall_mem_singleton.mpr (List.mem_singleton_self _)
  | @extend reached current e table _ known declared joins fresh ih =>
      have wider : ∀ table, table ∈ reached.map Trail.table →
          ∀ t, table ∈ (reached ++ [t]).map Trail.table := fun _ old _ => by
        rw [List.map_append]
        exact List.mem_append_left _ old
      refine List.forall_mem_append.mpr ⟨fun t ht => ?_, List.forall_mem_singleton.mpr ?_⟩
      · obtain ⟨tables, walk, nodup, within⟩ := ih t ht
        exact ⟨tables, walk, nodup, fun other own => wider other (within other own) _⟩
      · obtain ⟨tables, walk, nodup, within⟩ := ih current known
        refine ⟨tables ++ [table], ?_, ?_, ?_⟩
        · rw [places_snoc]
          exact walk.next (List.getElem?_idxOf declared) joins
        · rw [List.nodup_append]
          refine ⟨nodup, List.nodup_singleton _, ?_⟩
          rintro other own _ (_ | _) rfl
          · exact fresh (within other own)
          · contradiction
        · refine List.forall_mem_append.mpr ⟨fun other own => wider other (within other own) _, ?_⟩
          exact List.forall_mem_singleton.mpr (by simp)

/-! ### The order of the search -/

/-- What a search keeps that has followed the joins at some places from some trails: trails are in
the order of their walks, each goes on from a trail by a join that was followed, and where such a
join leads there is a trail that comes no later. -/
structure Ordered (edges : List Edge) (Followed : Trail → Nat → Prop) (reached : List Trail) :
    Prop where
  ascending : reached.Pairwise fun t u => rank (t.places edges) < rank (u.places edges)
  grown : ∀ u ∈ reached, u.places edges = [] ∨
    ∃ t i, Followed t i ∧ u.places edges = t.places edges ++ [i]
  least : ∀ t i, Followed t i → ∀ e b, edges[i]? = some e → Joins e t.table b →
    ∃ u ∈ reached, u.table = b ∧ rank (u.places edges) ≤ rank (t.places edges ++ [i])

namespace Ordered

variable {Followed More : Trail → Nat → Prop}

theorem congr (ordered : Ordered edges Followed reached) (more : ∀ t i, Followed t i → More t i)
    (same : ∀ t i, i < edges.length → More t i → Followed t i) : Ordered edges More reached where
  ascending := ordered.ascending
  grown u hu := (ordered.grown u hu).imp_right fun ⟨t, i, followed, own⟩ =>
    ⟨t, i, more t i followed, own⟩
  least t i followed e b declared := ordered.least t i
    (same t i (List.getElem?_eq_some_iff.mp declared).1 followed) e b declared

/-- All that is reached comes before what is followed next. -/
theorem below (ordered : Ordered edges Followed reached)
    (later : ∀ t j, Followed t j → rank (t.places edges ++ [j]) < rank (ps ++ [i])) :
    ∀ u ∈ reached, rank (u.places edges) < rank (ps ++ [i]) := by
  intro u hu
  rcases ordered.grown u hu with first | ⟨t, j, followed, own⟩
  · rw [first]
    exact rank_nil_lt
  · rw [own]
    exact later t j followed

/-- One more join is followed that leads to tables that are reached already. -/
theorem follow_old (ordered : Ordered edges Followed reached) (declared : edges[i]? = some e)
    (later : ∀ t j, Followed t j →
      rank (t.places edges ++ [j]) < rank (current.places edges ++ [i]))
    (old : ∀ b, Joins e current.table b → b ∈ reached.map Trail.table) :
    Ordered edges (fun t j => Followed t j ∨ (t = current ∧ j = i)) reached where
  ascending := ordered.ascending
  grown u hu := (ordered.grown u hu).imp_right fun ⟨t, j, followed, own⟩ =>
    ⟨t, j, .inl followed, own⟩
  least := by
    rintro t j (followed | ⟨rfl, rfl⟩) e' b own joins
    · exact ordered.least t j followed e' b own joins
    · obtain rfl := Option.some.inj (declared.symm.trans own)
      obtain ⟨u, hu, rfl⟩ := List.mem_map.mp (old b joins)
      exact ⟨u, hu, rfl, (ordered.below later u hu).le⟩

/-- One more join is followed that leads to a new table. -/
theorem follow_new (ordered : Ordered edges Followed reached) (declared : edges[i]? = some e)
    (later : ∀ t j, Followed t j →
      rank (t.places edges ++ [j]) < rank (current.places edges ++ [i]))
    (first : edges.idxOf e = i) (only : ∀ b', Joins e current.table b' → b' = b) :
    Ordered edges (fun t j => Followed t j ∨ (t = current ∧ j = i))
      (reached ++ [⟨b, current.edges ++ [e]⟩]) := by
  have places : Trail.places edges ⟨b, current.edges ++ [e]⟩ = current.places edges ++ [i] := by
    rw [places_snoc, first]
  constructor
  · refine List.pairwise_append.mpr ⟨ordered.ascending, List.pairwise_singleton _ _, ?_⟩
    intro u hu
    rw [List.forall_mem_singleton, places]
    exact ordered.below later u hu
  · refine List.forall_mem_append.mpr ⟨fun u hu => ?_, List.forall_mem_singleton.mpr ?_⟩
    · exact (ordered.grown u hu).imp_right fun ⟨t, j, followed, own⟩ => ⟨t, j, .inl followed, own⟩
    · exact .inr ⟨current, i, .inr ⟨rfl, rfl⟩, places⟩
  · rintro t j (followed | ⟨rfl, rfl⟩) e' b' own joins
    · obtain ⟨u, hu, least⟩ := ordered.least t j followed e' b' own joins
      exact ⟨u, List.mem_append_left _ hu, least⟩
    · obtain rfl := Option.some.inj (declared.symm.trans own)
      exact ⟨_, List.mem_append_right _ (List.mem_singleton_self _), (only b' joins).symm,
        (congrArg rank places).le⟩

/-- The joins that are left are followed from a trail that comes after all that were followed. -/
theorem extensions {known : List Trail} {before more : List Edge} (split : before ++ more = edges)
    (earlier : ∀ t ∈ done, rank (t.places edges) < rank (current.places edges))
    (same : ∀ table, table ∈ known.map Trail.table ↔ table ∈ reached.map Trail.table)
    (ordered : Ordered edges (fun t j => t ∈ done ∨ (t = current ∧ j < before.length)) reached) :
    Ordered edges (fun t _ => t ∈ done ++ [current])
      (reached ++ Join.extensions known current more) := by
  induction more generalizing before known reached with
  | nil =>
      rw [List.append_nil] at split
      subst split
      simp only [Join.extensions, List.append_nil]
      refine ordered.congr (fun t i followed => ?_) fun t i bound own => ?_
      · exact List.mem_append.mpr (followed.imp_right fun own => List.mem_singleton.mpr own.1)
      · exact (List.mem_append.mp own).imp_right fun own => ⟨List.mem_singleton.mp own, bound⟩
  | cons e more ih =>
      have declared : edges[before.length]? = some e := by simp [← split]
      have later : ∀ t j, t ∈ done ∨ (t = current ∧ j < before.length) →
          rank (t.places edges ++ [j]) < rank (current.places edges ++ [before.length]) := by
        rintro t j (own | ⟨rfl, less⟩)
        · exact rank_snoc_lt (earlier t own)
        · exact rank_snoc_lt_snoc less
      have split : (before ++ [e]) ++ more = edges := by simpa using split
      have onward : ∀ {trails}, Ordered edges (fun t j =>
            (t ∈ done ∨ (t = current ∧ j < before.length)) ∨ (t = current ∧ j = before.length))
            trails →
          Ordered edges (fun t j => t ∈ done ∨ (t = current ∧ j < (before ++ [e]).length))
            trails := fun next => by
        refine next.congr (fun t j => ?_) fun t j _ => ?_
        all_goals
          rw [List.length_append, List.length_singleton, Nat.lt_succ_iff_lt_or_eq]
          tauto
      unfold Join.extensions
      split
      · next table other =>
        have only : ∀ b, Joins e current.table b → b = table := fun b hb =>
          Option.some.inj ((otherEnd?_eq_some.mpr hb).symm.trans other)
        split
        · next old =>
          refine ih split same (onward (ordered.follow_old declared later fun b hb => ?_))
          rw [only b hb]
          exact (same table).mp (SearchTree.isReached_iff.mp old)
        · next new =>
          have fresh : table ∉ reached.map Trail.table := fun old =>
            new (SearchTree.isReached_iff.mpr ((same table).mpr old))
          -- an equal join that is declared before would have led to the table
          have unseen : e ∉ before := fun own => by
            obtain ⟨j, hj, own⟩ := List.getElem_of_mem own
            have again : edges[j]? = some e := by
              rw [← split, List.append_assoc, List.getElem?_append_left hj,
                List.getElem?_eq_getElem hj, own]
            obtain ⟨u, hu, there, -⟩ :=
              ordered.least current j (.inr ⟨rfl, hj⟩) e table again (otherEnd?_eq_some.mp other)
            exact fresh (List.mem_map.mpr ⟨u, hu, there⟩)
          have first : edges.idxOf e = before.length := by
            rw [← split, List.append_assoc, List.idxOf_append_of_notMem unseen]
            simp
          have both : ∀ b, b ∈ (Trail.mk table (current.edges ++ [e]) :: known).map Trail.table ↔
              b ∈ (reached ++ [Trail.mk table (current.edges ++ [e])]).map Trail.table := fun b => by
            simp only [List.map_append, List.map_cons, List.mem_cons, List.mem_append, same b]
            simp [or_comm]
          have rest := ih split both (onward (ordered.follow_new declared later first only))
          simpa only [List.append_assoc, List.singleton_append] using rest
      · next none =>
        refine ih split same (onward (ordered.follow_old declared later fun b hb => ?_))
        rw [otherEnd?_eq_some.mpr hb] at none
        cases none

/-- Where all joins are followed from all trails, no walk to a table comes before its trail. -/
theorem first_walk (tree : SearchTree edges start reached)
    (ordered : Ordered edges (fun t _ => t ∈ reached) reached) {tables : List String}
    (walk : Walk edges start ps tables b) :
    ∃ u ∈ reached, u.table = b ∧ rank (u.places edges) ≤ rank ps := by
  induction walk with
  | start => exact ⟨_, tree.start_mem, rfl, le_rfl⟩
  | next _ declared joins ih =>
      obtain ⟨t, ht, rfl, before⟩ := ih
      obtain ⟨u, hu, there, least⟩ := ordered.least t _ ht _ _ declared joins
      exact ⟨u, hu, there, least.trans (rank_snoc_le before)⟩

end Ordered

theorem trails_ordered (s : Schema) (hs : Declared s start) :
    SearchTree s.edges start (trails s start) ∧
      Ordered s.edges (fun t _ => t ∈ trails s start) (trails s start) := by
  have first : Ordered s.edges (fun t _ => t ∈ ([] : List Trail)) ([] ++ [⟨start, []⟩]) :=
    ⟨List.pairwise_singleton _ _, List.forall_mem_singleton.mpr (.inl rfl), nofun⟩
  have step : ∀ done current waiting,
      SearchTree s.edges start (done ++ current :: waiting) ∧
        Ordered s.edges (fun t _ => t ∈ done) (done ++ current :: waiting) →
      SearchTree s.edges start (done ++ current :: waiting ++
          extensions (done ++ current :: waiting) current s.edges) ∧
        Ordered s.edges (fun t _ => t ∈ done ++ [current]) (done ++ current :: waiting ++
          extensions (done ++ current :: waiting) current s.edges) := by
    rintro done current waiting ⟨tree, ordered⟩
    refine ⟨(tree.extensions (List.mem_append_right _ List.mem_cons_self) (fun _ => Iff.rfl)
      fun _ he => he).1, Ordered.extensions (List.nil_append _) ?_ (fun _ => Iff.rfl) ?_⟩
    · intro t ht
      exact (List.pairwise_append.mp ordered.ascending).2.2 t ht current List.mem_cons_self
    · exact ordered.congr (fun _ _ => .inl) fun _ _ _ own => own.elim id nofun
  obtain ⟨reached, found, both⟩ := follow_induct (n := s.tables.length)
    (motive := fun done reached =>
      SearchTree s.edges start reached ∧ Ordered s.edges (fun t _ => t ∈ done) reached)
    (fun _ _ through => tree_bounded s hs through.1) step ⟨.start, first⟩ (by simp)
  rw [List.nil_append] at found
  rwa [trails, found]

/-! ### First walks -/

/-- Whether a walk comes to no table twice and is the first of all between its ends. -/
structure FirstWalk (edges : List Edge) (start target : String) (places : List Nat)
    (tables : List String) : Prop where
  walk : Walk edges start places tables target
  nodup : tables.Nodup
  shortest : ∀ ps ts, Walk edges start ps ts target → places.length ≤ ps.length
  earliest : ∀ ps ts, Walk edges start ps ts target → places.length = ps.length → places ≤ ps

theorem FirstWalk.unique {ts us : List String} (h : FirstWalk edges start target ps ts)
    (other : FirstWalk edges start target qs us) : ps = qs := by
  have long : ps.length = qs.length :=
    le_antisymm (h.shortest _ _ other.walk) (other.shortest _ _ h.walk)
  exact le_antisymm (h.earliest _ _ other.walk long) (other.earliest _ _ h.walk long.symm)

/-- The trail of a table is the first walk to it. -/
theorem firstWalk_of_trail (hs : Declared s start) (ht : t ∈ trails s start) :
    ∃ tables, FirstWalk s.edges start t.table (t.places s.edges) tables := by
  obtain ⟨tree, ordered⟩ := trails_ordered s hs
  obtain ⟨tables, walk, nodup, -⟩ := tree.walks t ht
  have first : ∀ ps ts, Walk s.edges start ps ts t.table →
      rank (t.places s.edges) ≤ rank ps := fun ps ts other => by
    obtain ⟨u, hu, there, least⟩ := ordered.first_walk tree other
    obtain rfl := tree.eq_of_table hu ht there
    exact least
  exact ⟨tables, walk, nodup, fun ps ts other => (rank_le_rank.mp (first ps ts other)).1,
    fun ps ts other => (rank_le_rank.mp (first ps ts other)).2⟩

/-! ### Paths -/

theorem path_eq_unknown {name : String} : path s start target = .error (.unknownTable name) ↔
    (¬ Declared s start ∧ name = start) ∨
      (Declared s start ∧ ¬ Declared s target ∧ name = target) := by
  unfold path
  split
  · next unknown => simp [isNone_table?.mp unknown, eq_comm]
  · next known =>
    rw [isNone_table?, not_not] at known
    split
    · next unknown => simp [known, isNone_table?.mp unknown, eq_comm]
    · next declared =>
      rw [isNone_table?, not_not] at declared
      split <;> simp [known, declared]

/-- The search fails with no path where there is none, and in no other way. -/
theorem path_eq_noPath : path s start target = .error (.noPath start target) ↔
    Declared s start ∧ Declared s target ∧ ¬ Connected s.edges start target := by
  have connects : (∃ es, path s start target = .ok es) ↔ _ := exists_path
  unfold path at connects ⊢
  split
  · next unknown => simp [isNone_table?.mp unknown]
  · next known =>
    rw [if_neg known] at connects
    rw [isNone_table?, not_not] at known
    split
    · next unknown => simp [isNone_table?.mp unknown]
    · next declared =>
      rw [if_neg declared] at connects
      rw [isNone_table?, not_not] at declared
      split
      · next trail found => simp_all
      · next missing => simp_all

/-- The joins of a path are those of the first walk. -/
theorem path_eq_firstWalk {es : List Edge} : path s start target = .ok es ↔
    Declared s start ∧ Declared s target ∧ ∃ places tables,
      FirstWalk s.edges start target places tables ∧
        places.map (s.edges[·]?) = es.map some := by
  have found : ∀ es, path s start target = .ok es → ∃ places tables,
      FirstWalk s.edges start target places tables ∧
        places.map (s.edges[·]?) = es.map some := fun es own => by
    obtain ⟨known, -, trail⟩ := path_eq_ok.mp own
    obtain ⟨tables, first⟩ := firstWalk_of_trail known trail
    exact ⟨_, tables, first, places_declared ((trails_ordered s known).1.edges_declared _ trail)⟩
  constructor
  · intro own
    obtain ⟨known, declared, -⟩ := path_eq_ok.mp own
    exact ⟨known, declared, found es own⟩
  · rintro ⟨known, declared, places, tables, first, own⟩
    obtain ⟨others, path⟩ := exists_path.mpr ⟨known, declared, first.walk.connected⟩
    obtain ⟨_, _, other, same⟩ := found others path
    obtain rfl := first.unique other
    rwa [List.map_injective_iff.mpr (fun _ _ => Option.some.inj) (own.symm.trans same)]

theorem path_to_self : path s start start = .ok [] ↔ Declared s start := by
  rw [path_eq_ok]
  exact ⟨And.left, fun known => ⟨known, known, (trails_closed s known).1.start_mem⟩⟩

/-- A path between two tables is refused for the first of them that is not declared, or because no
joins connect them. It has no joins from a table to itself, and otherwise those of the first walk
between the tables: the shortest, and of several that are as short the one whose joins are declared
first. -/
theorem path_is_first_walk (s : Schema) (start target : String) :
    (∀ name, path s start target = .error (.unknownTable name) ↔
      (¬ Declared s start ∧ name = start) ∨
        (Declared s start ∧ ¬ Declared s target ∧ name = target)) ∧
    (path s start target = .error (.noPath start target) ↔
      Declared s start ∧ Declared s target ∧ ¬ Connected s.edges start target) ∧
    (path s start start = .ok [] ↔ Declared s start) ∧
    ((∃ es, path s start target = .ok es) ↔
      Declared s start ∧ Declared s target ∧ Connected s.edges start target) ∧
    ∀ es, path s start target = .ok es ↔ Declared s start ∧ Declared s target ∧
      ∃ places tables, FirstWalk s.edges start target places tables ∧
        places.map (s.edges[·]?) = es.map some :=
  ⟨fun _ => path_eq_unknown, path_eq_noPath, path_to_self, exists_path, fun _ => path_eq_firstWalk⟩

/-- Two paths of two joins lead around a diamond, and the first join of each is declared before the
second of both. -/
def diamond : Schema where
  tables := ["orders", "stores", "depots", "regions"].map fun name =>
    ⟨name, .dimension, "id", none, none, none, none, none⟩
  edges := [
    ⟨"orders", "store", "stores", "id", .inner⟩,
    ⟨"orders", "depot", "depots", "id", .inner⟩,
    ⟨"depots", "region", "regions", "id", .left⟩,
    ⟨"stores", "region", "regions", "id", .left⟩]
  completed := none
  faultless := by decide

theorem diamond_path : ∃ places tables,
    FirstWalk diamond.edges "orders" "regions" places tables ∧
      places.map (diamond.edges[·]?) = [diamond.edges[0]?, diamond.edges[3]?] := by
  have found : path diamond "orders" "regions" =
      .ok [⟨"orders", "store", "stores", "id", .inner⟩, ⟨"stores", "region", "regions", "id", .left⟩] := by
    decide
  exact (((path_is_first_walk diamond "orders" "regions").2.2.2.2 _).mp found).2.2

end ReportSql.Join

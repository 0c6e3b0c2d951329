import ReportSql.Tree.Basic

/-!
Equality of trees, decided part by part.
-/

namespace ReportSql.Tree

mutual

def Expr.same : Expr → Expr → Bool
  | .column t n, .column u m => t == u && n == m
  | .literal v, .literal w => v == w
  | .param n, .param m => n == m
  | .binary a o b, .binary c p d => o == p && a.same c && b.same d
  | .unary o a, .unary p b => o == p && a.same b
  | .call n xs d, .call m ys e => n == m && d == e && sameAll xs ys
  | .case o bs e, .case p cs f => sameOption o p && sameBranches bs cs && sameOption e f
  | .subquery q, .subquery r => q.same r
  | .exists q n, .exists r m => n == m && q.same r
  | .inList a xs n, .inList b ys m => n == m && a.same b && sameAll xs ys
  | .inQuery a q n, .inQuery b r m => n == m && a.same b && q.same r
  | .between a l h n, .between b k i m => n == m && a.same b && l.same k && h.same i
  | .isNull a n, .isNull b m => n == m && a.same b
  | .isTruth a v n, .isTruth b w m => v == w && n == m && a.same b
  | .cast a t, .cast b u => t == u && a.same b
  | .interval s, .interval t => s == t
  | .star t, .star u => t == u
  | .paren a, .paren b => a.same b
  | .raw s, .raw t => s == t
  | _, _ => false
termination_by structural x => x

def sameAll : List Expr → List Expr → Bool
  | [], [] => true
  | a :: as, b :: bs => a.same b && sameAll as bs
  | _, _ => false
termination_by structural x => x

def sameOption : Option Expr → Option Expr → Bool
  | none, none => true
  | some a, some b => a.same b
  | _, _ => false
termination_by structural x => x

def sameBranches : List Branch → List Branch → Bool
  | [], [] => true
  | ⟨c, r⟩ :: as, ⟨d, s⟩ :: bs => c.same d && r.same s && sameBranches as bs
  | _, _ => false
termination_by structural x => x

def Query.same : Query → Query → Bool
  | ⟨ctes, items, distinct, sources, condition, groupBy, having, orderBy, rows, operation⟩,
    ⟨ctes', items', distinct', sources', condition', groupBy', having', orderBy', rows',
      operation'⟩ =>
    distinct == distinct' && rows == rows' && sameCtes ctes ctes' && sameItems items items'
      && sameSources sources sources' && sameOption condition condition'
      && sameAll groupBy groupBy' && sameOption having having' && sameOrder orderBy orderBy'
      && sameOperation operation operation'
termination_by structural x => x

def sameCtes : List Cte → List Cte → Bool
  | [], [] => true
  | ⟨n, cs, q, r⟩ :: as, ⟨m, ds, p, s⟩ :: bs =>
    n == m && cs == ds && r == s && q.same p && sameCtes as bs
  | _, _ => false
termination_by structural x => x

def sameItems : List SelectItem → List SelectItem → Bool
  | [], [] => true
  | ⟨e, a⟩ :: as, ⟨f, b⟩ :: bs => a == b && e.same f && sameItems as bs
  | _, _ => false
termination_by structural x => x

def sameSources : List FromItem → List FromItem → Bool
  | [], [] => true
  | ⟨s, js⟩ :: as, ⟨t, ks⟩ :: bs => s.same t && sameJoins js ks && sameSources as bs
  | _, _ => false
termination_by structural x => x

def sameJoins : List Join → List Join → Bool
  | [], [] => true
  | ⟨k, s, c⟩ :: as, ⟨l, t, d⟩ :: bs => k == l && s.same t && sameOption c d && sameJoins as bs
  | _, _ => false
termination_by structural x => x

def Source.same : Source → Source → Bool
  | .named t, .named u => t == u
  | .derived q a, .derived r b => a == b && q.same r
  | .raw t, .raw u => t == u
  | _, _ => false
termination_by structural x => x

def sameOrder : List OrderItem → List OrderItem → Bool
  | [], [] => true
  | ⟨e, d, n⟩ :: as, ⟨f, c, m⟩ :: bs => d == c && n == m && e.same f && sameOrder as bs
  | _, _ => false
termination_by structural x => x

def sameOperation : Option SetOperation → Option SetOperation → Bool
  | none, none => true
  | some a, some b => a.same b
  | _, _ => false
termination_by structural x => x

def SetOperation.same : SetOperation → SetOperation → Bool
  | ⟨l, o, a, r⟩, ⟨m, p, b, s⟩ => o == p && a == b && l.same m && r.same s
termination_by structural x => x

end

instance : BEq Expr := ⟨Expr.same⟩

end ReportSql.Tree

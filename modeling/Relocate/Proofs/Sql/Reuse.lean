import Mathlib.Data.List.Induction
import Relocate.Proofs.Sql.Visits

/-!
# One rewriter for several statements

A rewriter keeps its scopes, its counts and its entries from one statement to the
next.  Every query takes its own scope away again when it is left, whatever queries
are inside of it, and the tables that were taken out of the scope go with it.  So
nothing but the counts and the entries is there when the next statement comes, and no
statement is rewritten differently for the ones before it: `Rewriter.rewrite_reused`.
-/

namespace Relocate.Sql

namespace RewriteStats

/-- What was done in several parts together. -/
def total (parts : List RewriteStats) : RewriteStats :=
  parts.foldl (fun sum part => sum + part) .zero

theorem total_append_singleton (parts : List RewriteStats) (last : RewriteStats) :
    total (parts ++ [last]) = total parts + last :=
  List.foldl_append

end RewriteStats

namespace Rewriter

/-- The rewriter after statements, one after the other. -/
def after (job : Job) (statements : List Statement) : Rewriter :=
  statements.foldl (fun rewriter statement => ((rewrite job statement).run rewriter).2) start

theorem after_append_singleton (job : Job) (statements : List Statement) (last : Statement) :
    after job (statements ++ [last]) = ((rewrite job last).run (after job statements)).2 :=
  List.foldl_append

/-- Outside of all queries a statement is rewritten as if it were the first one, and
what was done is added to what was done before. -/
theorem rewrite_run
    (job : Job) (statement : Statement) (stats : RewriteStats) (log : List Entry) :
    (rewrite job statement).run ⟨[], stats, log⟩ =
      ((statement.rewrite job.rule job.view job.origin).statement,
        ⟨[], stats + (statement.rewrite job.rule job.view job.origin).stats,
          log ++ (statement.rewrite job.rule job.view job.origin).log⟩) := by
  cases statement with
  | query query =>
      have hrun := Query.visit_run_outermost job query stats log
      rw [Tally.stats_visitAll, Tally.log_visitAll] at hrun
      unfold rewrite
      rw [run_bind hrun, Statement.rewrite_query]
      rfl
  | command parts => rfl

/-- After any statements there is no scope left, and the counts and the entries are
those of the statements, each rewritten on its own. -/
theorem after_eq (job : Job) (statements : List Statement) :
    let fresh := fun statement : Statement => statement.rewrite job.rule job.view job.origin
    after job statements =
      ⟨[], RewriteStats.total (statements.map fun statement => (fresh statement).stats),
        statements.flatMap fun statement => (fresh statement).log⟩ := by
  intro fresh
  induction statements using List.reverseRecOn with
  | nil => rfl
  | append_singleton statements last ih =>
      rw [after_append_singleton, ih, rewrite_run, List.map_append, List.flatMap_append,
        List.map_singleton, List.flatMap_singleton, RewriteStats.total_append_singleton]

/-- A rewriter that has rewritten any statements treats the next one as a fresh
rewriter does.  Its counts are the sums of what fresh rewriters count, its entries are
theirs one after the other, and it is outside of all queries before and after each
statement.  A statement that is no query is left alone and counted. -/
theorem rewrite_reused (job : Job) (earlier : List Statement) (statement : Statement) :
    let fresh := fun statement : Statement => statement.rewrite job.rule job.view job.origin
    let used := after job earlier
    let result := (rewrite job statement).run used
    result.1 = (fresh statement).statement ∧
    result.2 = after job (earlier ++ [statement]) ∧
    result.2.stats = RewriteStats.total
      ((earlier ++ [statement]).map fun statement => (fresh statement).stats) ∧
    result.2.log = (earlier ++ [statement]).flatMap (fun statement => (fresh statement).log) ∧
    used.scopes = [] ∧ result.2.scopes = [] ∧
    ∀ parts : List Part, (rewrite job (.command parts)).run used =
      (.command parts, { used with
        stats := used.stats + ⟨0, 1⟩
        log := used.log ++ [unhandledEntry job.view job.origin (.command parts)] }) := by
  intro fresh used result
  have hused := after_eq job earlier
  have hnext := after_eq job (earlier ++ [statement])
  have hresult : result.2 = after job (earlier ++ [statement]) :=
    (after_append_singleton job earlier statement).symm
  have hscopes : used.scopes = [] := congrArg scopes hused
  have hfirst : result.1 = (fresh statement).statement := by
    calc
      result.1 = ((rewrite job statement).run ⟨used.scopes, used.stats, used.log⟩).1 := rfl
      _ = (fresh statement).statement := by rw [hscopes, rewrite_run]
  rw [hresult, hnext]
  exact ⟨hfirst, rfl, rfl, rfl, hscopes, rfl, fun _ => rfl⟩

end Rewriter

end Relocate.Sql

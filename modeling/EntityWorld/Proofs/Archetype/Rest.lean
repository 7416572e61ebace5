import EntityWorld.Proofs.Archetype.Stock

/-!
# Stores at rest

After a commit there is nothing left to sweep and nothing left to migrate, so another commit changes
nothing. Main statements: `Store.atRest_of_commit` and `Store.AtRest.commit`.
-/
namespace EntityWorld

namespace Collection

variable {c c' : Collection} {report : CommitReport}

/-- There is nothing to sweep and nothing to migrate. -/
structure AtRest (c : Collection) : Prop where
  alive : ∀ x ∈ c.current.ids, survives x
  idle : c.pending = c.pending.clear

theorem clear_clear (g : Generation) : g.clear.clear = g.clear := by
  simp [Generation.clear, Column.clear]

theorem atRest_of_commit (wf : c.WellFormed) (done : c.commit = (.ok report, c')) : c'.AtRest := by
  obtain ⟨report', after, done', committed⟩ := commit_spec wf
  cases done.symm.trans done'
  refine ⟨fun x member => ?_, ?_⟩
  · have kept := committed.current.mem_iff.mp (Array.mem_toList_iff.mpr member)
    exact (List.mem_filter.mp kept).2
  · unfold commit at done
    split at done
    · cases done
    · split at done
      · cases done
      · cases done
        exact (clear_clear c.pending).symm

theorem AtRest.commit (atRest : c.AtRest) : c.commit = (.ok .empty, c) := by
  have swept : sweep c.current = (.ok #[], c.current) :=
    sweepFrom_of_alive c.current.size 0 #[] atRest.alive
  have none : c.pending.ids = #[] := by
    rw [atRest.idle]
    rfl
  simp only [Collection.commit, swept, none, migrateFrom, ← atRest.idle]
  rfl

end Collection

namespace Store

variable {s t : Store} {report : CommitReport}

def AtRest (s : Store) : Prop := ∀ a c, s.collection? a = some c → c.AtRest

theorem atRest_of_commit (wf : s.WellFormed) (done : s.commit.value = (.ok report, t)) : t.AtRest := by
  obtain ⟨report', t', done', settled⟩ := commit_settled fun a c here => (wf.commits here).1
  cases done.symm.trans done'
  intro a d there
  rw [settled.collection?] at there
  obtain ⟨c, here, rfl⟩ := Option.map_eq_some_iff.mp there
  exact Collection.atRest_of_commit (wf.collections a c here) (wf.commits here).1

theorem AtRest.commit (atRest : s.AtRest) : s.commit.value = (.ok .empty, s) := by
  rw [value_commit]
  exact commitFrom_of_idle s.collections.size 0 .empty fun a c _ found => (atRest a c found).commit

end Store

end EntityWorld

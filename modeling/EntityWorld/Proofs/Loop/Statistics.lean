import EntityWorld.Loop.FrameLoop

/-!
# Statistics of recorded frames

What a sum of statistics says of the frames that were recorded in it, one after another. Main
statements: `StatsSum.Counts.append` and `FrameLoop.record_cases`.
-/
namespace EntityWorld

/-- The time of a frame in whole microseconds. -/
def FrameReport.micros (r : FrameReport) : Nat := r.elapsed.microsWord

namespace StatsSum

variable {a b c : StatsSum} {reports more : List FrameReport} {report : FrameReport}

/-- No sum leaves its machine word when these frames are recorded. -/
structure Fits (a : StatsSum) (reports : List FrameReport) : Prop where
  micros : a.totalMicros + total (reports.map FrameReport.micros) < wordBound
  retries : a.retries + total (reports.map fun r => r.pass.retries) < wordBound
  updates : ∀ r ∈ reports, r.pass.updates < wordBound

/-- A number is one of these and stands in this relation to each of them. -/
def Extreme (r : Nat → Nat → Prop) (n : Nat) (numbers : List Nat) : Prop :=
  n ∈ numbers ∧ ∀ m ∈ numbers, r n m

/-- Exactly these frames have been recorded since. -/
structure Counts (a : StatsSum) (reports : List FrameReport) (b : StatsSum) : Prop where
  frames : b.frames = a.frames + reports.length
  totalMicros : b.totalMicros = a.totalMicros + total (reports.map FrameReport.micros)
  retries : b.retries = a.retries + total (reports.map fun r => r.pass.retries)
  least : Extreme (· ≤ ·) b.minMicros (a.minMicros :: reports.map FrameReport.micros)
  greatest : Extreme (· ≥ ·) b.maxMicros (a.maxMicros :: reports.map FrameReport.micros)
  overBudget : b.overBudget = a.overBudget + reports.countP fun r => a.budgetMicros < r.micros
  budget : b.budgetMicros = a.budgetMicros

theorem extreme_singleton {r : Nat → Nat → Prop} {n : Nat} (refl : r n n) : Extreme r n [n] := by
  refine ⟨List.mem_singleton_self n, fun m member => ?_⟩
  rw [List.mem_singleton.mp member]
  exact refl

/-- An extreme of all is one of the later numbers and of the extreme before. -/
theorem Extreme.append {r : Nat → Nat → Prop} {n m : Nat} {first second : List Nat}
    (before : Extreme r n first) (after : Extreme r m (n :: second))
    (trans : ∀ i j k, r i j → r j k → r i k) : Extreme r m (first ++ second) := by
  refine ⟨?_, fun k member => ?_⟩
  · rcases List.mem_cons.mp after.1 with rfl | member
    · exact List.mem_append_left _ before.1
    · exact List.mem_append_right _ member
  · rcases List.mem_append.mp member with member | member
    · exact trans _ _ _ (after.2 n List.mem_cons_self) (before.2 k member)
    · exact after.2 k (List.mem_cons_of_mem _ member)

theorem counts_nil (a : StatsSum) : a.Counts [] a where
  frames := rfl
  totalMicros := rfl
  retries := rfl
  least := extreme_singleton (Nat.le_refl _)
  greatest := extreme_singleton (Nat.le_refl _)
  overBudget := rfl
  budget := rfl

theorem Counts.append (before : a.Counts reports b) (after : b.Counts more c) :
    a.Counts (reports ++ more) c where
  frames := by
    rw [after.frames, before.frames, List.length_append, Nat.add_assoc]
  totalMicros := by
    rw [after.totalMicros, before.totalMicros, List.map_append, total_append, Nat.add_assoc]
  retries := by
    rw [after.retries, before.retries, List.map_append, total_append, Nat.add_assoc]
  least := by
    rw [List.map_append]
    exact before.least.append after.least fun _ _ _ => Nat.le_trans
  greatest := by
    rw [List.map_append]
    exact before.greatest.append after.greatest fun _ _ _ first second => Nat.le_trans second first
  overBudget := by
    rw [after.overBudget, before.overBudget, before.budget, List.countP_append, Nat.add_assoc]
  budget := after.budget.trans before.budget

theorem fits_singleton_iff {a : StatsSum} : a.Fits [report] ↔
    (report.pass.updates < wordBound ∧ report.pass.retries < wordBound) ∧
      a.totalMicros + report.micros < wordBound ∧ a.retries + report.pass.retries < wordBound := by
  constructor
  · intro fits
    have micros := fits.micros
    have retries := fits.retries
    simp only [List.map_cons, List.map_nil, total, Nat.add_zero] at micros retries
    exact ⟨⟨fits.updates report (List.mem_singleton_self report), by omega⟩, micros, retries⟩
  · rintro ⟨⟨updates, -⟩, micros, retries⟩
    refine ⟨micros, retries, fun r member => ?_⟩
    rw [List.mem_singleton.mp member]
    exact updates

/-- What fits as a whole still fits when the first part has been counted. -/
theorem Counts.fits (before : a.Counts reports b) (whole : a.Fits (reports ++ more)) : b.Fits more := by
  have micros := whole.micros
  have retries := whole.retries
  rw [List.map_append, total_append] at micros retries
  refine ⟨?_, ?_, fun r member => whole.updates r (List.mem_append_right _ member)⟩
  · rw [before.totalMicros]
    omega
  · rw [before.retries]
    omega

/-- One more frame, counted without regard to machine words. -/
def counted (a : StatsSum) (r : FrameReport) : StatsSum where
  frames := a.frames + 1
  totalMicros := a.totalMicros + r.micros
  minMicros := min a.minMicros r.micros
  maxMicros := max a.maxMicros r.micros
  overBudget := if r.micros > a.budgetMicros then a.overBudget + 1 else a.overBudget
  retries := a.retries + r.pass.retries
  budgetMicros := a.budgetMicros

theorem counts_counted (a : StatsSum) (r : FrameReport) : a.Counts [r] (a.counted r) where
  frames := rfl
  totalMicros := rfl
  retries := rfl
  least := by
    refine ⟨?_, fun m member => ?_⟩
    · rcases Nat.le_total a.minMicros r.micros with le | le <;> simp [counted, le]
    · simp only [List.map_cons, List.map_nil, List.mem_cons, List.not_mem_nil, or_false] at member
      simp only [counted]
      omega
  greatest := by
    refine ⟨?_, fun m member => ?_⟩
    · rcases Nat.le_total a.maxMicros r.micros with le | le <;> simp [counted, le]
    · simp only [List.map_cons, List.map_nil, List.mem_cons, List.not_mem_nil, or_false] at member
      simp only [counted]
      omega
  overBudget := by
    by_cases late : a.budgetMicros < r.micros <;> simp [counted, late]
  budget := rfl

/-- Where nothing had been recorded, the extremes are extremes of the recorded frames. -/
theorem Counts.extremes {budget : Duration} (counts : (ofBudget budget).Counts reports b)
    (nonempty : reports ≠ []) :
    Extreme (· ≤ ·) b.minMicros (reports.map FrameReport.micros) ∧
      Extreme (· ≥ ·) b.maxMicros (reports.map FrameReport.micros) := by
  obtain ⟨first, listed⟩ := List.exists_mem_of_ne_nil reports nonempty
  have word : first.micros ≤ wordBound - 1 := Nat.min_le_right _ _
  have member : first.micros ∈ reports.map FrameReport.micros := List.mem_map_of_mem listed
  obtain ⟨least, below⟩ := counts.least
  obtain ⟨greatest, above⟩ := counts.greatest
  refine ⟨⟨?_, fun m member => below m (List.mem_cons_of_mem _ member)⟩,
    ⟨?_, fun m member => above m (List.mem_cons_of_mem _ member)⟩⟩
  · -- The least number starts at the largest word, which it only is if a frame took as long.
    rcases List.mem_cons.mp least with start | inside
    · have longest : b.minMicros = first.micros :=
        Nat.le_antisymm (below _ (List.mem_cons_of_mem _ member)) (start ▸ word)
      rwa [longest]
    · exact inside
  · rcases List.mem_cons.mp greatest with start | inside
    · have shortest : b.maxMicros = first.micros :=
        Nat.le_antisymm (start ▸ Nat.zero_le _) (above _ (List.mem_cons_of_mem _ member))
      rwa [shortest]
    · exact inside

end StatsSum

/-! ### Recording one frame -/

theorem FrameStats.ofReport_eq (r : FrameReport) : ofReport r =
    if r.pass.updates < wordBound ∧ r.pass.retries < wordBound then
      .ok { frame := r.frame, totalMicros := r.micros, updates := r.pass.updates
            retries := r.pass.retries, migrated := r.migrated, removed := r.removed }
    else .error .overflow := by
  by_cases updates : r.pass.updates < wordBound
  · by_cases retries : r.pass.retries < wordBound
    · simp only [ofReport, word, updates, retries, and_self]
      rfl
    · simp only [ofReport, word, updates, retries, and_false]
      rfl
  · simp only [ofReport, word, updates, false_and]
    rfl

namespace FrameLoop

/-- A frame is recorded as a whole unless a sum leaves its word. -/
theorem record_cases (l : FrameLoop) (report : FrameReport) :
    (l.stats.Fits [report] ∧
        (l.record report).value = (.ok (), { l with stats := l.stats.counted report })) ∨
      (¬ l.stats.Fits [report] ∧ ∃ l', (l.record report).value = (.error .overflow, l')) := by
  rw [StatsSum.fits_singleton_iff]
  unfold record
  rw [FrameStats.ofReport_eq]
  by_cases words : report.pass.updates < wordBound ∧ report.pass.retries < wordBound
  · rw [if_pos words]
    by_cases micros : l.stats.totalMicros + report.micros < wordBound
    · by_cases retries : l.stats.retries + report.pass.retries < wordBound
      · -- The warning about a late frame is told to the log only.
        refine .inl ⟨⟨words, micros, retries⟩, ?_⟩
        simp only [StatsSum.record, word, micros, retries, if_true, Logged.value_bind,
          Logged.value_ite, Logged.value_pure, ite_self]
        rfl
      · refine .inr ⟨fun fits => retries fits.2.2, ?_⟩
        simp only [StatsSum.record, word, micros, retries, if_true, if_false]
        exact ⟨_, rfl⟩
    · refine .inr ⟨fun fits => micros fits.2.1, ?_⟩
      simp only [StatsSum.record, word, micros, if_false]
      exact ⟨_, rfl⟩
  · rw [if_neg words]
    exact .inr ⟨fun fits => words fits.1, _, rfl⟩

end FrameLoop

end EntityWorld

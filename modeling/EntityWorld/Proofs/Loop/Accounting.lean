import EntityWorld.Proofs.Loop.Statistics
import EntityWorld.Proofs.World.Passes

/-!
# Accounting of the frame loop

A run of the loop has several ends, and a clock decides whether it waits between frames. However it
ends, the frames it completed are the frames the world has counted, the frames that were recorded and
the frames it answers, over any number of runs. Main statement: `FrameLoop.accounted_of_series`.
-/
namespace EntityWorld

variable {σ : Type}

/-! ### Requests to stop -/

/-- A raised flag is raised, and a lowered one is not. -/
structure StopFlag.Lawful (flag : StopFlag σ) : Prop where
  raised : ∀ memory, flag.isRaised (flag.raise memory) = true
  lowered : ∀ memory, flag.isRaised (flag.lower memory) = false

namespace StopFlag

variable {flag : StopFlag σ}

@[simp] theorem frame_hear (flag : StopFlag σ) (asked : Bool) (w : World σ) :
    (flag.hear asked w).frame = w.frame := by
  cases asked <;> rfl

theorem Lawful.isPending_obey (lawful : flag.Lawful) (w : World σ) :
    flag.isPending (flag.obey w) = false := lawful.lowered _

theorem Lawful.isPending_hear (lawful : flag.Lawful) (asked : Bool) (w : World σ) :
    flag.isPending (flag.hear asked w) = (asked || flag.isPending w) := by
  cases asked with
  | false => rfl
  | true => exact lawful.raised _

end StopFlag

namespace FrameLoop

variable {flag : StopFlag σ} {limit n : Nat} {w w' v : World σ} {ticks done left : List Tick}
  {reports : List FrameReport} {outcome : LoopEnd} {l l' : FrameLoop} {slot : Duration}

/-! ### One run -/

/-- Frames that are completed one after another, with no request to stop before any of them. -/
inductive Frames (flag : StopFlag σ) : World σ → List Tick → List FrameReport → World σ → Prop where
  | none {w : World σ} : Frames flag w [] [] w
  | next {w w' v : World σ} {tick : Tick} {ticks : List Tick} {report : FrameReport}
      {reports : List FrameReport}
      (unasked : flag.isPending (flag.hear tick.askedBefore w) = false)
      (ran : ((flag.hear tick.askedBefore w).runFrame tick.timing).value = (.ok report, w'))
      (rest : Frames flag (flag.hear tick.askedAfter w') ticks reports v) :
      Frames flag w (tick :: ticks) (report :: reports) v

/-- How a run ends after a number of frames, with these ticks left. -/
inductive Ends (flag : StopFlag σ) (limit n : Nat) (v : World σ) : List Tick → LoopEnd → World σ → Prop
    where
  -- There have been enough; a request to stop is left for the next run.
  | enough {left : List Tick} (reached : n = limit) (capped : limit ≠ 0) :
      Ends flag limit n v left (.stopped n) v
  -- A request to stop was there when the loop looked, or while it waited.
  | stopped {left : List Tick} (asked : Bool) (room : limit = 0 ∨ n < limit)
      (told : asked = true → ∃ tick rest, left = tick :: rest ∧ tick.askedBefore = true)
      (pending : flag.isPending (flag.hear asked v) = true) :
      Ends flag limit n v left (.stopped n) (flag.obey (flag.hear asked v))
  | failed {tick : Tick} {rest : List Tick} {failure : Failure WorldError} {w' : World σ}
      (room : limit = 0 ∨ n < limit)
      (unasked : flag.isPending (flag.hear tick.askedBefore v) = false)
      (ran : ((flag.hear tick.askedBefore v).runFrame tick.timing).value = (.error failure, w')) :
      Ends flag limit n v (tick :: rest) (.failed failure) w'
  -- The loop is still running.
  | outOfTicks (room : limit = 0 ∨ n < limit) (unasked : flag.isPending v = false) :
      Ends flag limit n v [] (.outOfTicks n) v

theorem Frames.length (frames : Frames flag w done reports v) : reports.length = done.length := by
  induction frames with
  | none => rfl
  | next _ _ _ ih => rw [List.length_cons, List.length_cons, ih]

theorem Frames.unique {reports' : List FrameReport} {v' : World σ}
    (frames : Frames flag w done reports v) (same : Frames flag w done reports' v') :
    reports' = reports ∧ v' = v := by
  induction frames generalizing reports' with
  | none =>
    cases same
    exact ⟨rfl, rfl⟩
  | next unasked ran rest ih =>
    cases same with
    | next _ ran' rest' =>
      rw [ran] at ran'
      cases ran'
      obtain ⟨rfl, rfl⟩ := ih rest'
      exact ⟨rfl, rfl⟩

/-- After some of the frames that are completed there is no request to stop. -/
theorem Frames.unasked {past : List FrameReport} {u : World σ} {tick : Tick} {more : List Tick}
    (first : Frames flag w done past u) (frames : Frames flag w (done ++ tick :: more) reports v) :
    flag.isPending (flag.hear tick.askedBefore u) = false := by
  induction first generalizing reports with
  | none =>
    cases frames with
    | next unasked => exact unasked
  | next _ ran _ ih =>
    cases frames with
    | next _ ran' rest =>
      rw [ran] at ran'
      cases ran'
      exact ih rest

/-- Where there is a request to stop before a frame, that frame is not among those completed. -/
theorem Frames.length_le_of_pending {past : List FrameReport} {u : World σ} {done' rest : List Tick}
    {tick : Tick} (frames : Frames flag w done reports v) (first : Frames flag w done' past u)
    (split : done ++ left = done' ++ tick :: rest)
    (pending : flag.isPending (flag.hear tick.askedBefore u) = true) : done.length ≤ done'.length := by
  rcases List.append_eq_append_iff.mp split with ⟨more, rfl, -⟩ | ⟨more, rfl, same⟩
  · simp
  · cases more with
    | nil => simp
    | cons next more =>
      obtain ⟨rfl, -⟩ := List.cons.inj same
      rw [first.unasked frames] at pending
      cases pending

/-- The world counts the completed frames, and they are numbered one after another. -/
theorem Frames.numbers (frames : Frames flag w done reports v) :
    v.frame = w.frame + reports.length ∧
      reports.map FrameReport.frame = List.range' (w.frame + 1) reports.length := by
  induction frames with
  | none => exact ⟨rfl, rfl⟩
  | next unasked ran rest ih =>
    obtain ⟨counted, number⟩ := World.numbered_of_runFrame ran
    rw [StopFlag.frame_hear] at counted number ih
    rw [counted] at ih
    refine ⟨?_, ?_⟩
    · rw [ih.1, List.length_cons]
      omega
    · rw [List.map_cons, ih.2, number, List.length_cons, List.range'_succ]

/-- Unless a fault ends the last frame, the end of a run changes no number. -/
theorem Ends.frame (ends : Ends flag limit n v left outcome w')
    (unbroken : ∀ fault, outcome ≠ .failed (.fault fault)) : w'.frame = v.frame := by
  cases ends with
  | enough => rfl
  | stopped asked => exact StopFlag.frame_hear flag asked v
  | @failed tick _ failure _ room unasked ran =>
    cases failure with
    | error cause =>
      have kept := World.numbered_of_runFrame ran
      exact Eq.trans kept (StopFlag.frame_hear flag tick.askedBefore v)
    | fault fault => exact absurd rfl (unbroken fault)
  | outOfTicks => rfl

theorem Ends.stopped_cases {m : Nat} (ends : Ends flag limit n v left (.stopped m) w') :
    m = n ∧ (limit ≠ 0 → n ≤ limit) ∧
      ((n = limit ∧ limit ≠ 0) ∨ ∃ u, flag.isPending u = true ∧ w' = flag.obey u) := by
  cases ends with
  | enough reached capped => exact ⟨rfl, fun _ => Nat.le_of_eq reached, .inl ⟨reached, capped⟩⟩
  | stopped asked room _ pending => exact ⟨rfl, by omega, .inr ⟨_, pending, rfl⟩⟩

theorem Ends.failed_frame {failure : Failure WorldError}
    (ends : Ends flag limit n v left (.failed failure) w') : ∃ (tick : Tick) (u : World σ),
      flag.isPending u = false ∧ (u.runFrame tick.timing).value = (.error failure, w') := by
  cases ends with
  | failed _ unasked ran => exact ⟨_, _, unasked, ran⟩

theorem Ends.out_of_ticks {m : Nat} (ends : Ends flag limit n v left (.outOfTicks m) w') :
    left = [] ∧ (limit = 0 ∨ n < limit) := by
  cases ends with
  | outOfTicks room => exact ⟨rfl, room⟩

/-- Where there is a request to stop before the next frame, the run answers. -/
theorem Ends.of_pending {tick : Tick} {rest : List Tick}
    (ends : Ends flag limit n v (tick :: rest) outcome w')
    (pending : flag.isPending (flag.hear tick.askedBefore v) = true) : outcome = .stopped n := by
  cases ends with
  | enough => rfl
  | stopped => rfl
  | failed _ unasked =>
    rw [unasked] at pending
    cases pending

/-- What one turn of the loop comes to. -/
inductive Turn (flag : StopFlag σ) (n : Nat) (tick : Tick) (rest : List Tick) (l : FrameLoop)
    (w : World σ) : LoopEnd → FrameLoop → World σ → Prop where
  -- The run ends without a further frame.
  | ended {outcome : LoopEnd} {w' : World σ}
      (ends : Ends flag l.config.maxFrames n w (tick :: rest) outcome w') :
      Turn flag n tick rest l w outcome l w'
  -- A sum leaves its machine word.
  | overflowed {l' : FrameLoop} {w' v : World σ} {report : FrameReport}
      (frame : Frames flag w [tick] [report] v) (large : ¬ l.stats.Fits [report]) :
      Turn flag n tick rest l w (.failed (.fault .overflow)) l' w'
  -- The run ends after one more frame.
  | last {outcome : LoopEnd} {w' v : World σ} {report : FrameReport}
      (frame : Frames flag w [tick] [report] v)
      (ends : Ends flag l.config.maxFrames (n + 1) v rest outcome w') :
      Turn flag n tick rest l w outcome { l with stats := l.stats.counted report } w'
  -- The run goes on after one more frame.
  | again {outcome : LoopEnd} {l' : FrameLoop} {w' v : World σ} {report : FrameReport}
      {slot : Duration} (unasked : flag.isPending (flag.hear tick.askedBefore w) = false)
      (ran : ((flag.hear tick.askedBefore w).runFrame tick.timing).value = (.ok report, v))
      (room : l.config.maxFrames = 0 ∨ n + 1 < l.config.maxFrames)
      (onward : (runFrom flag (n + 1) slot rest { l with stats := l.stats.counted report }
        (flag.hear tick.askedAfter v)).value = (outcome, l', w')) :
      Turn flag n tick rest l w outcome l' w'

theorem turn_of_runFrom {tick : Tick} {rest : List Tick}
    (room : l.config.maxFrames = 0 ∨ n < l.config.maxFrames)
    (ran : (runFrom flag n slot (tick :: rest) l w).value = (outcome, l', w')) :
    Turn flag n tick rest l w outcome l' w' := by
  simp only [runFrom] at ran
  split at ran
  next pending =>
    cases ran
    exact .ended (.stopped tick.askedBefore room (fun asked => ⟨tick, rest, rfl, asked⟩) pending)
  next idle =>
    have unasked : flag.isPending (flag.hear tick.askedBefore w) = false := by simpa using idle
    simp only [Logged.value_bind] at ran
    rcases frame : ((flag.hear tick.askedBefore w).runFrame tick.timing).value with
      ⟨failure | report, w₁⟩
    · rw [frame] at ran
      cases ran
      exact .ended (.failed room unasked frame)
    · have one : Frames flag w [tick] [report] (flag.hear tick.askedAfter w₁) :=
        .next unasked frame .none
      rw [frame] at ran
      simp only [Logged.value_bind] at ran
      rcases l.record_cases report with ⟨-, recorded⟩ | ⟨large, l₁, recorded⟩
      · rw [recorded] at ran
        simp only at ran
        split at ran
        next full =>
          cases ran
          exact .last one (.enough (by omega) full.1)
        next few =>
          have room' : l.config.maxFrames = 0 ∨ n + 1 < l.config.maxFrames := by omega
          split at ran
          next waited =>
            cases ran
            have pending : flag.isPending (flag.hear tick.askedAfter w₁) = true := by
              simp only [Bool.and_eq_true] at waited
              exact waited.2
            exact .last one (.stopped false room' (by simp) pending)
          next => exact .again unasked frame room' ran
      · rw [recorded] at ran
        cases ran
        exact .overflowed one large

/-- A run completes frames up to its end and records them, unless a sum leaves its word. -/
theorem ends_of_runFrom (room : l.config.maxFrames = 0 ∨ n < l.config.maxFrames)
    (ran : (runFrom flag n slot ticks l w).value = (outcome, l', w')) :
    ∃ done left reports v, ticks = done ++ left ∧ Frames flag w done reports v ∧
      ((l'.config = l.config ∧ l.stats.Counts reports l'.stats ∧
          Ends flag l.config.maxFrames (n + reports.length) v left outcome w') ∨
        (outcome = .failed (.fault .overflow) ∧ ¬ l.stats.Fits reports)) := by
  induction ticks generalizing n slot l w with
  | nil =>
    unfold runFrom at ran
    split at ran
    next pending =>
      cases ran
      exact ⟨[], [], [], _, rfl, .none, .inl
        ⟨rfl, StatsSum.counts_nil _, .stopped false room (by simp) pending⟩⟩
    next idle =>
      cases ran
      exact ⟨[], [], [], _, rfl, .none, .inl
        ⟨rfl, StatsSum.counts_nil _, .outOfTicks room (by simpa using idle)⟩⟩
  | cons tick rest ih =>
    cases turn_of_runFrom room ran with
    | ended ends =>
      exact ⟨[], tick :: rest, [], w, rfl, .none, .inl ⟨rfl, StatsSum.counts_nil _, ends⟩⟩
    | overflowed frame large => exact ⟨[tick], rest, _, _, rfl, frame, .inr ⟨rfl, large⟩⟩
    | last frame ends =>
      exact ⟨[tick], rest, _, _, rfl, frame, .inl ⟨rfl, l.stats.counts_counted _, ends⟩⟩
    | @again _ _ _ _ report _ unasked frame room' onward =>
      have counts := l.stats.counts_counted report
      obtain ⟨done, left, reports, v, rfl, frames, ended⟩ :=
        ih (l := { l with stats := l.stats.counted report }) room' onward
      refine ⟨tick :: done, left, report :: reports, v, rfl, .next unasked frame frames, ?_⟩
      rcases ended with ⟨config, counts', ends⟩ | ⟨overflow, large⟩
      · refine .inl ⟨config, counts.append counts', ?_⟩
        rw [List.length_cons, Nat.add_comm reports.length 1, ← Nat.add_assoc]
        exact ends
      · exact .inr ⟨overflow, fun fits => large (counts.fits fits)⟩

/-! ### Any number of runs -/

/-- One run of a loop: what it begins with and what it ends with. -/
structure RunRecord (σ : Type) where
  ticks : List Tick
  begun : Duration
  before : FrameLoop
  world : World σ
  outcome : LoopEnd
  after : FrameLoop
  world' : World σ

/-- Runs of one loop, one after another. Between two of them anything may be done to the world. -/
inductive Series (flag : StopFlag σ) : FrameLoop → List (RunRecord σ) → FrameLoop → Prop where
  | nil {l : FrameLoop} : Series flag l [] l
  | cons {r : RunRecord σ} {rest : List (RunRecord σ)} {l : FrameLoop}
      (ran : (r.before.run flag r.ticks r.world r.begun).value = (r.outcome, r.after, r.world'))
      (later : Series flag r.after rest l) : Series flag r.before (r :: rest) l

/-- A run completes these frames, among others perhaps. -/
def Completes (flag : StopFlag σ) (r : RunRecord σ) (reports : List FrameReport) : Prop :=
  ∃ done left v, r.ticks = done ++ left ∧ Frames flag r.world done reports v

/-- What one run comes to, by the frames that it completed. -/
structure Accounted (flag : StopFlag σ) (r : RunRecord σ) (reports : List FrameReport) : Prop where
  ends : ∃ done left v, r.ticks = done ++ left ∧ Frames flag r.world done reports v ∧
    Ends flag r.before.config.maxFrames reports.length v left r.outcome r.world'
  counts : r.before.stats.Counts reports r.after.stats
  config : r.after.config = r.before.config
  -- The world and the statistics count the same frames.
  frame : (∀ fault, r.outcome ≠ .failed (.fault fault)) →
    r.world'.frame = r.world.frame + reports.length
  numbers : reports.map FrameReport.frame = List.range' (r.world.frame + 1) reports.length
  answered : ∀ n, r.outcome = .stopped n → n = reports.length ∧
    (r.before.config.maxFrames ≠ 0 → n ≤ r.before.config.maxFrames)
  -- A run that answers has run enough frames or has taken a request to stop.
  obeyed : ∀ n, r.outcome = .stopped n →
    (n = r.before.config.maxFrames ∧ r.before.config.maxFrames ≠ 0) ∨
      ∃ v, flag.isPending v = true ∧ r.world' = flag.obey v ∧ flag.isPending r.world' = false
  failed : ∀ failure, r.outcome = .failed failure → ∃ (tick : Tick) (v : World σ),
    flag.isPending v = false ∧ (v.runFrame tick.timing).value = (.error failure, r.world')
  -- Where somebody has asked to stop when the loop looks, no further frame is started.
  heeded : ∀ done tick rest past v, r.ticks = done ++ tick :: rest → Frames flag r.world done past v →
    (tick.askedBefore = true ∨ flag.isPending v = true) → reports.length ≤ done.length ∧
      (reports.length = done.length → r.outcome = .stopped done.length)
  returns : r.before.config.maxFrames ≠ 0 → r.before.config.maxFrames ≤ r.ticks.length →
    ∀ n, r.outcome ≠ .outOfTicks n

theorem accounted_of_ends {r : RunRecord σ} (lawful : flag.Lawful) (split : r.ticks = done ++ left)
    (frames : Frames flag r.world done reports v) (counts : r.before.stats.Counts reports r.after.stats)
    (config : r.after.config = r.before.config)
    (ends : Ends flag r.before.config.maxFrames reports.length v left r.outcome r.world') :
    Accounted flag r reports := by
  obtain ⟨counted, numbers⟩ := frames.numbers
  refine
    { ends := ⟨done, left, v, split, frames, ends⟩
      counts
      config
      frame := fun unbroken => (ends.frame unbroken).trans counted
      numbers
      answered := fun m same => ?_
      obeyed := fun m same => ?_
      failed := fun failure same => ?_
      heeded := fun done' tick rest past u split' past' asked => ?_
      returns := fun capped plenty m same => ?_ }
  · rw [same] at ends
    obtain ⟨number, within, -⟩ := ends.stopped_cases
    exact ⟨number, fun capped => number ▸ within capped⟩
  · rw [same] at ends
    obtain ⟨rfl, -, full | ⟨u, pending, obeyed⟩⟩ := ends.stopped_cases
    · exact .inl full
    · exact .inr ⟨u, pending, obeyed, obeyed ▸ lawful.isPending_obey u⟩
  · rw [same] at ends
    exact ends.failed_frame
  · have pending : flag.isPending (flag.hear tick.askedBefore u) = true := by
      rw [lawful.isPending_hear, Bool.or_eq_true]
      exact asked
    rw [split] at split'
    have within := frames.length_le_of_pending past' split' pending
    rw [← frames.length] at within
    refine ⟨within, fun equal => ?_⟩
    -- The run has come exactly this far, so the request ends it.
    have exactly : done = done' := List.append_inj_left split' (frames.length ▸ equal)
    subst exactly
    obtain ⟨-, rfl⟩ := frames.unique past'
    rw [List.append_cancel_left split'] at ends
    rw [← equal]
    exact ends.of_pending pending
  · rw [same] at ends
    obtain ⟨rfl, room⟩ := ends.out_of_ticks
    rw [split, List.append_nil, ← frames.length] at plenty
    omega

/-- A run is accounted for, unless a sum leaves its word. -/
theorem accounted_of_run {r : RunRecord σ} (lawful : flag.Lawful)
    (ran : (r.before.run flag r.ticks r.world r.begun).value = (r.outcome, r.after, r.world')) :
    ∃ reports, Completes flag r reports ∧ (Accounted flag r reports ∨
      r.outcome = .failed (.fault .overflow) ∧ ¬ r.before.stats.Fits reports) := by
  obtain ⟨done, left, reports, v, split, frames, ended⟩ := ends_of_runFrom (by omega) ran
  refine ⟨reports, ⟨done, left, v, split, frames⟩, ended.imp_left ?_⟩
  rintro ⟨config, counts, ends⟩
  rw [Nat.zero_add] at ends
  exact accounted_of_ends lawful split frames counts config ends

/-- Some run of a series ends in a fault, because the frames completed until then do not fit. -/
def Overflowed (flag : StopFlag σ) (l : FrameLoop) (records : List (RunRecord σ)) : Prop :=
  ∃ earlier r later past reports, records = earlier ++ r :: later ∧
    List.Forall₂ (Completes flag) earlier past ∧ Completes flag r reports ∧
    r.outcome = .failed (.fault .overflow) ∧ ¬ l.stats.Fits (past.flatten ++ reports)

theorem accounted_or_overflowed {records : List (RunRecord σ)} (lawful : flag.Lawful)
    (series : Series flag l records l') :
    (∃ reports, List.Forall₂ (Accounted flag) records reports ∧
        l.stats.Counts reports.flatten l'.stats) ∨ Overflowed flag l records := by
  induction series with
  | nil => exact .inl ⟨[], .nil, StatsSum.counts_nil _⟩
  | @cons r rest l ran _ ih =>
    obtain ⟨reports, completes, accounted | ⟨overflow, large⟩⟩ := accounted_of_run lawful ran
    · rcases ih with ⟨more, each, counts⟩ | ⟨earlier, s, later, past, last, rfl, each, broken⟩
      · exact .inl ⟨reports :: more, .cons accounted each, accounted.counts.append counts⟩
      · -- What is too large after this run is too large with its frames as well.
        obtain ⟨completes', overflow, large⟩ := broken
        refine .inr ⟨r :: earlier, s, later, reports :: past, last, rfl, .cons completes each,
          completes', overflow, fun fits => large ?_⟩
        rw [List.flatten_cons, List.append_assoc] at fits
        exact accounted.counts.fits fits
    · exact .inr ⟨[], r, rest, [], reports, rfl, .nil, completes, overflow, large⟩

/-- Unless a sum leaves its machine word, every run of a loop is accounted for, and the statistics
count exactly the frames that were completed in all runs. -/
theorem accounted_of_series {records : List (RunRecord σ)} (lawful : flag.Lawful)
    (series : Series flag l records l') :
    (∃ reports, List.Forall₂ (Accounted flag) records reports ∧
        l.stats.Counts reports.flatten l'.stats ∧
        ∀ budget, l.stats = .ofBudget budget → reports.flatten ≠ [] →
          StatsSum.Extreme (· ≤ ·) l'.stats.minMicros (reports.flatten.map FrameReport.micros) ∧
          StatsSum.Extreme (· ≥ ·) l'.stats.maxMicros (reports.flatten.map FrameReport.micros)) ∨
      Overflowed flag l records := by
  refine (accounted_or_overflowed lawful series).imp_left ?_
  rintro ⟨reports, each, counts⟩
  refine ⟨reports, each, counts, fun budget fresh nonempty => ?_⟩
  rw [fresh] at counts
  exact counts.extremes nonempty

/-! ### Four runs -/

/-- What one run of a loop is on record with. -/
def recorded (l : FrameLoop) (flag : StopFlag σ) (ticks : List Tick) (w : World σ) : RunRecord σ :=
  let ended := (l.run flag ticks w).value
  { ticks, begun := .zero, before := l, world := w
    outcome := ended.1, after := ended.2.1, world' := ended.2.2 }

theorem series_recorded {ticks : List Tick} {rest : List (RunRecord σ)}
    (later : Series flag (l.recorded flag ticks w).after rest l') :
    Series flag l (l.recorded flag ticks w :: rest) l' :=
  .cons rfl later

def memoryFlag : StopFlag (Bool × Nat) where
  isRaised := Prod.fst
  raise memory := (true, memory.2)
  lower memory := (false, memory.2)

def raising : Update (Bool × Nat) where
  name := "raising"
  body _ := .call (.exchange memoryFlag.raise) fun _ => .done ()

/-- Has an update ask to stop in the first frame, and fails to declare in the third. -/
def stopsThenFails : System (Bool × Nat) where
  name := "stopsThenFails"
  setUp := return .ok ()
  declare := do
    match (← Declaration.exchange fun memory => (memory.1, memory.2 + 1)).2 with
    | 0 => Declaration.schedule raising
    | 2 => return .error (.unknownDefinition ⟨0⟩)
    | _ => return .ok ()

def stopsThenFailsWorld : World (Bool × Nat) :=
  (World.unstarted .singleThreaded .empty [stopsThenFails] (false, 0)).freeze.value.2

/-- Frames of these lengths, in microseconds. Somebody asks to stop after the last one. -/
def ticking (lengths : List Nat) (last : Nat) : List Tick :=
  let tick (length : Nat) : Tick := { timing := ⟨.ofMicros length, fun _ => .zero⟩ }
  lengths.map tick ++ [{ tick last with askedAfter := true }]

/-- Two frames at the most, and a budget of six microseconds. -/
def shortLoop : FrameLoop := .new { budget := .ofMicros 6, maxFrames := 2 }

def firstRun : RunRecord (Bool × Nat) :=
  shortLoop.recorded memoryFlag (ticking [5, 5] 5) stopsThenFailsWorld

def secondRun : RunRecord (Bool × Nat) :=
  firstRun.after.recorded memoryFlag (ticking [8, 5] 5) firstRun.world'

def thirdRun : RunRecord (Bool × Nat) :=
  secondRun.after.recorded memoryFlag (ticking [5] 7) secondRun.world'

def fourthRun : RunRecord (Bool × Nat) :=
  thirdRun.after.recorded memoryFlag (ticking [5, 5] 5) thirdRun.world'

def fourRuns : List (RunRecord (Bool × Nat)) := [firstRun, secondRun, thirdRun, fourthRun]

/-- The first run stops while it waits; the second one fails; the third one runs enough frames, and
leaves a request to stop to the fourth. -/
theorem accounted_of_fourRuns : memoryFlag.Lawful ∧
    Series memoryFlag shortLoop fourRuns fourthRun.after ∧
    fourRuns.map RunRecord.outcome =
      [.stopped 1, .failed (.error (.unknownDefinition ⟨0⟩)), .stopped 2, .stopped 0] ∧
    fourthRun.after.stats = ⟨4, 25, 5, 8, 2, 0, 6⟩ ∧
    ∃ reports, List.Forall₂ (Accounted memoryFlag) fourRuns reports ∧
      shortLoop.stats.Counts reports.flatten fourthRun.after.stats := by
  have lawful : memoryFlag.Lawful := ⟨fun _ => rfl, fun _ => rfl⟩
  have outcomes : fourRuns.map RunRecord.outcome =
      [.stopped 1, .failed (.error (.unknownDefinition ⟨0⟩)), .stopped 2, .stopped 0] := by
    decide +kernel
  have sums : fourthRun.after.stats = ⟨4, 25, 5, 8, 2, 0, 6⟩ := by decide +kernel
  have series : Series memoryFlag shortLoop fourRuns fourthRun.after :=
    series_recorded (series_recorded (series_recorded (series_recorded .nil)))
  refine ⟨lawful, series, outcomes, sums, ?_⟩
  rcases accounted_of_series lawful series with ⟨reports, each, counts, -⟩ | broken
  · exact ⟨reports, each, counts⟩
  · obtain ⟨earlier, r, later, -, -, split, -, -, overflow, -⟩ := broken
    -- None of the runs ended in a fault.
    have member : r ∈ fourRuns := by
      rw [split]
      simp
    have ended := List.mem_map_of_mem (f := RunRecord.outcome) member
    rw [outcomes, overflow] at ended
    simp at ended

end FrameLoop

end EntityWorld

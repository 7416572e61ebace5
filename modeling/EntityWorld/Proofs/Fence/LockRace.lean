import EntityWorld.Proofs.Fence.LockSteps
import EntityWorld.Proofs.Lists
import Mathlib.Data.List.Flatten

/-!
# Racing for locks

A counter counts every caller that has published its lock, also those that will back off. A caller
counts on a lock only after it has looked at the other side, and by then its own mark stands: of two
rivals the one that looks second sees the other. So nobody ever counts on a lock whose rival somebody
counts on, wherever callers are in their calls. Main statement: `LockTable.Race.safe_of_reaches`.
-/
namespace EntityWorld.LockTable

/-! ### What a caller has in the counters -/

/-- The locks that a call has published, apart from those it was granted. -/
def Stage.marks : Stage → List Lock
  | .taking side taken _ => taken.map (Lock.mk side)
  | .checking side taken k _ | .retracting side taken k => (taken ++ [k]).map (Lock.mk side)
  | .undoing side left => left.map (Lock.mk side)
  | .answered _ | .returning .. | .restoring .. => []

/-- The locks that a call has published and found no rival of. -/
def Stage.secured : Stage → List Lock
  | .taking side taken _ | .checking side taken _ _ => taken.map (Lock.mk side)
  | .retracting .. | .undoing .. | .answered _ | .returning .. | .restoring .. => []

namespace Caller

def marks (c : Caller) : List Lock := c.held ++ c.stage.marks

def secured (c : Caller) : List Lock := c.held ++ c.stage.secured

/-- The caller names kinds there are, and gives back what it holds. -/
def Sound (slots : Nat) (c : Caller) : Prop :=
  match c.stage with
  | .answered result => ∃ answer, result = .ok answer
  | .taking _ _ left | .checking _ _ _ left => ∀ k ∈ left, k.index < slots
  | .retracting .. | .undoing .. => True
  | .returning side left =>
    (∀ k ∈ left, k.index < slots) ∧ ∀ k ∈ left, left.count k ≤ c.held.count ⟨side, k⟩
  | .restoring .. => False

end Caller

/-- What one operation of a caller does. -/
inductive Effect (w : Words) (c : Caller) : Words → Caller → Prop where
  -- No counter changes; what was secured may be given up.
  | still {c' : Caller} (marks : c'.marks = c.marks) (secured : c'.secured.Sublist c.secured) :
      Effect w c w c'
  | published {c' : Caller} (l : Lock) (free : l.side = .write → w l = 0)
      (marks : c'.marks.Perm (l :: c.marks)) (secured : c'.secured = c.secured) :
      Effect w c (w.add l) c'
  | found {c' : Caller} (l : Lock) (room : ¬ 0 < w l.rival) (marks : c'.marks = c.marks)
      (secured : c'.secured.Perm (l :: c.secured)) : Effect w c w c'
  | withdrawn {c' : Caller} (l : Lock) (marks : c.marks.Perm (l :: c'.marks))
      (secured : c'.secured.Sublist c.secured) : Effect w c (w.sub l) c'

variable {strictness : Strictness} {slots : Nat} {w w' : Words} {c c' : Caller} {l m : Lock} {k : Kind}

/-- An operation of a sound caller has one of four effects, and the caller stays sound. -/
theorem effect_of_advance (sound : c.Sound slots) (positive : ∀ l ∈ c.held, ¬ w l ≤ 0)
    (made : advance? strictness slots w c = some (w', c')) :
    Effect w c w' c' ∧ c'.Sound slots := by
  obtain ⟨stage, held⟩ := c
  cases stage with
  | answered result => cases made
  | taking side taken left =>
    cases left with
    | nil =>
      -- What is granted was secured before.
      cases made
      exact ⟨.still (by simp [Caller.marks, Stage.marks]) (by simp [Caller.secured, Stage.secured]),
        true, rfl⟩
    | cons k left =>
      obtain ⟨inside, known⟩ := List.forall_mem_cons.mp sound
      simp only [advance?, if_pos inside, publish?_eq] at made
      by_cases free : side = .write → w ⟨side, k⟩ = 0
      · rw [if_pos free] at made
        cases made
        refine ⟨.published ⟨side, k⟩ free ?_ rfl, known⟩
        simp only [Caller.marks, Stage.marks, List.map_append, List.map_cons, List.map_nil,
          ← List.append_assoc]
        exact List.perm_append_singleton _ _
      · rw [if_neg free] at made
        cases made
        exact ⟨.still rfl (List.Sublist.append (.refl held) (List.nil_sublist _)), trivial⟩
  | checking side taken k left =>
    simp only [advance?] at made
    split at made
    next rival =>
      cases made
      exact ⟨.still rfl (List.Sublist.append (.refl held) (List.nil_sublist _)), trivial⟩
    next room =>
      cases made
      refine ⟨.found ⟨side, k⟩ room rfl ?_, sound⟩
      simp only [Caller.secured, Stage.secured, List.map_append, List.map_cons, List.map_nil,
        ← List.append_assoc]
      exact List.perm_append_singleton _ _
  | retracting side taken k =>
    cases made
    refine ⟨.withdrawn ⟨side, k⟩ ?_ (.refl _), trivial⟩
    simp only [Caller.marks, Stage.marks, List.map_append, List.map_cons, List.map_nil,
      ← List.append_assoc]
    exact List.perm_append_singleton _ _
  | undoing side left =>
    cases left with
    | nil =>
      cases made
      exact ⟨.still rfl (.refl _), false, rfl⟩
    | cons k left =>
      cases made
      exact ⟨.withdrawn ⟨side, k⟩ List.perm_middle (.refl _), trivial⟩
  | returning side left =>
    cases left with
    | nil =>
      cases made
      exact ⟨.still rfl (.refl _), true, rfl⟩
    | cons k left =>
      obtain ⟨known, owned⟩ := sound
      -- The caller holds the lock, so the counter is above zero.
      have has : ⟨side, k⟩ ∈ held := by
        have named : (k :: left).count k ≤ held.count ⟨side, k⟩ := owned k List.mem_cons_self
        rw [List.count_cons_self] at named
        exact List.count_pos_iff.mp (by omega)
      simp only [advance?, if_pos (known k List.mem_cons_self), if_neg (positive _ has)] at made
      cases made
      have erased : held.Perm (⟨side, k⟩ :: held.erase ⟨side, k⟩) := List.perm_cons_erase has
      refine ⟨.withdrawn ⟨side, k⟩ ?_ ?_, fun j member => known j (List.mem_cons_of_mem k member),
        fun j member => ?_⟩
      · simpa [Caller.marks, Stage.marks] using erased
      · simpa [Caller.secured, Stage.secured] using List.erase_sublist
      · have before := owned j (List.mem_cons_of_mem k member)
        rw [erased.count_eq, List.count_cons, List.count_cons] at before
        by_cases same : k = j
        · subst same
          simpa using before
        · simpa [same] using before
  | restoring side k left => exact sound.elim

/-! ### All callers together -/

namespace Race

variable {r s : Race} {caller callers : Nat} {move : Move}

def marks (r : Race) : List Lock := r.callers.flatMap Caller.marks

def secured (r : Race) : List Lock := r.callers.flatMap Caller.secured

/-- The locks that were granted and not given back. -/
def granted (r : Race) : List Lock := r.callers.flatMap Caller.held

/-- No call is in progress. -/
def Quiet (r : Race) : Prop := ∀ c ∈ r.callers, ∃ result, c.stage = .answered result

/-- Callers name kinds that have counters, and release what they hold. -/
def Allows (r : Race) : Move → Prop
  | .step _ => True
  | .call _ (.acquire _ kinds) => ∀ k ∈ kinds, k.index < r.slots
  | .call caller (.release side kinds) =>
    (∀ k ∈ kinds, k.index < r.slots) ∧
      ∀ c ∈ r.callers[caller]?, ∀ k ∈ kinds, kinds.count k ≤ c.held.count ⟨side, k⟩

/-- A counter has room for its readers. One who has published is a reader already, whether the lock
is granted in the end or not. -/
def Few (r : Race) : Prop := ∀ k, r.marks.count ⟨.read, k⟩ < 2147483648

/-- Every order in which the callers can make their operations. -/
inductive Reaches (strictness : Strictness) (slots callers : Nat) : Race → Prop where
  | start : Reaches strictness slots callers (start slots callers)
  | move {r s : Race} {move : Move} (before : Reaches strictness slots callers r)
      (allowed : r.Allows move) (made : r.step? strictness move = some s) (few : s.Few) :
      Reaches strictness slots callers s

/-- The locks of all callers after one of them changed. -/
theorem count_set {f : Caller → List Lock} (found : r.callers[caller]? = some c) (c' : Caller)
    (l : Lock) : ((r.callers.set caller c').flatMap f).count l + (f c).count l =
      (r.callers.flatMap f).count l + (f c').count l := by
  have moved := ((perm_set c' found).flatMap_right f).count_eq l
  simp only [List.flatMap_cons, List.count_append] at moved
  omega

theorem count_secured_le (r : Race) (l : Lock) : r.secured.count l ≤ r.marks.count l := by
  refine (List.Sublist.flatMap_right _ fun c _ => ?_).count_le l
  refine List.Sublist.append (.refl _) ?_
  cases c.stage with
  | checking side taken k left =>
    simp only [Stage.secured, Stage.marks, List.map_append]
    exact List.sublist_append_left _ _
  | taking | retracting | undoing | answered | returning | restoring => simp [Stage.secured, Stage.marks]

/-- What every move keeps. -/
structure Kept (r : Race) : Prop where
  -- A counter counts the marks on its lock.
  words : r.words.Counts fun l => r.marks.count l
  few : r.Few
  single : ∀ k, r.marks.count ⟨.write, k⟩ ≤ 1
  -- Nobody counts on a lock whose rival somebody counts on.
  apart : ∀ k, 0 < r.secured.count ⟨.write, k⟩ → r.secured.count ⟨.read, k⟩ = 0
  sound : ∀ c ∈ r.callers, c.Sound r.slots

namespace Kept

variable (kept : r.Kept)
include kept

theorem count_lt (l : Lock) : r.marks.count l < 2147483648 := by
  obtain ⟨side, k⟩ := l
  cases side with
  | read => exact kept.few k
  | write =>
    have := kept.single k
    omega

end Kept

theorem kept_start (slots callers : Nat) : (start slots callers).Kept := by
  have nobody (f : Caller → List Lock) (empty : f ⟨.answered (.ok true), []⟩ = []) :
      (start slots callers).callers.flatMap f = [] := by
    simp [start, List.flatMap_replicate, empty]
  have marks : (start slots callers).marks = [] := nobody _ rfl
  have secured : (start slots callers).secured = [] := nobody _ rfl
  refine ⟨fun l => ?_, fun k => ?_, fun k => ?_, fun k => ?_, fun c member => ?_⟩
  · rw [marks]
    rfl
  · rw [marks, List.count_nil]
    decide
  · rw [marks, List.count_nil]
    decide
  · rw [secured, List.count_nil]
    exact fun _ => List.count_nil
  · obtain rfl := List.eq_of_mem_replicate member
    exact ⟨true, rfl⟩

/-- The race after one caller changed and the counters with it. -/
def change (r : Race) (caller : Nat) (w : Words) (c : Caller) : Race :=
  { r with words := w, callers := r.callers.set caller c }

namespace Kept

variable (kept : r.Kept)
include kept

/-- A writer has published over a counter that stood at zero. -/
theorem single_of_published (free : l.side = .write → r.words l = 0)
    (more : ∀ m, s.marks.count m = r.marks.count m + if l = m then 1 else 0) (k : Kind) :
    s.marks.count ⟨.write, k⟩ ≤ 1 := by
  rw [more]
  split
  next written =>
    subst written
    have := (kept.words.eq_zero_iff (kept.count_lt _)).mp (free rfl)
    omega
  next => simpa using kept.single k

/-- Nothing new is secured. -/
theorem apart_of_le (fewer : ∀ m, s.secured.count m ≤ r.secured.count m) (k : Kind)
    (written : 0 < s.secured.count ⟨.write, k⟩) : s.secured.count ⟨.read, k⟩ = 0 := by
  have before := kept.apart k (Nat.lt_of_lt_of_le written (fewer _))
  have := fewer ⟨.read, k⟩
  omega

/-- The counter of the rival was at zero, so nobody counts on the rival. -/
theorem count_rival (room : ¬ 0 < r.words l.rival) : r.secured.count l.rival = 0 := by
  have unmarked : ¬ 0 < r.marks.count l.rival := fun marked =>
    room ((kept.words.pos_iff (kept.count_lt _)).mpr marked)
  have := r.count_secured_le l.rival
  omega

theorem apart_of_found (room : ¬ 0 < r.words l.rival)
    (more : ∀ m, s.secured.count m = r.secured.count m + if l = m then 1 else 0) (k : Kind)
    (written : 0 < s.secured.count ⟨.write, k⟩) : s.secured.count ⟨.read, k⟩ = 0 := by
  have alone := kept.count_rival room
  have before := kept.apart k
  obtain ⟨side, j⟩ := l
  simp only [more, Lock.mk.injEq] at written ⊢
  by_cases here : j = k
  · subst here
    cases side with
    | read =>
      simp only [Lock.rival, LockSide.other] at alone
      simp [alone] at written
    | write => simpa [Lock.rival, LockSide.other] using alone
  · simp only [here, and_false, if_false, Nat.add_zero] at written ⊢
    exact before written

/-- One caller changed, and the counters with it. -/
theorem change (found : r.callers[caller]? = some c) (effect : Effect r.words c w c')
    (sound : c'.Sound r.slots) (few : (r.change caller w c').Few) : (r.change caller w c').Kept := by
  have marks (l : Lock) : (r.change caller w c').marks.count l + c.marks.count l =
      r.marks.count l + c'.marks.count l := count_set found c' l
  have secured (l : Lock) : (r.change caller w c').secured.count l + c.secured.count l =
      r.secured.count l + c'.secured.count l := count_set found c' l
  have sound : ∀ d ∈ (r.change caller w c').callers, d.Sound r.slots := by
    intro d member
    rcases List.mem_or_eq_of_mem_set member with old | rfl
    · exact kept.sound d old
    · exact sound
  -- Each case says first what the effect on the caller comes to for all callers together.
  cases effect with
  | still same given =>
    have same (m : Lock) : (r.change caller r.words c').marks.count m = r.marks.count m := by
      have := marks m
      rw [same] at this
      omega
    have fewer (m : Lock) : (r.change caller r.words c').secured.count m ≤ r.secured.count m := by
      have := secured m
      have := given.count_le m
      omega
    refine ⟨kept.words.congr same, few, fun k => ?_, kept.apart_of_le fewer, sound⟩
    rw [same]
    exact kept.single k
  | published l free more same =>
    have more (m : Lock) : (r.change caller (r.words.add l) c').marks.count m =
        r.marks.count m + if l = m then 1 else 0 := by
      have := marks m
      have := more.count_eq m
      simp only [List.count_cons, beq_iff_eq] at this
      omega
    have fewer (m : Lock) : (r.change caller (r.words.add l) c').secured.count m ≤
        r.secured.count m := by
      have := secured m
      rw [same] at this
      omega
    exact ⟨kept.words.add more, few, kept.single_of_published free more, kept.apart_of_le fewer, sound⟩
  | found l room same more =>
    have same (m : Lock) : (r.change caller r.words c').marks.count m = r.marks.count m := by
      have := marks m
      rw [same] at this
      omega
    have more (m : Lock) : (r.change caller r.words c').secured.count m =
        r.secured.count m + if l = m then 1 else 0 := by
      have := secured m
      have := more.count_eq m
      simp only [List.count_cons, beq_iff_eq] at this
      omega
    refine ⟨kept.words.congr same, few, fun k => ?_, kept.apart_of_found room more, sound⟩
    rw [same]
    exact kept.single k
  | withdrawn l less given =>
    have less (m : Lock) : r.marks.count m =
        (r.change caller (r.words.sub l) c').marks.count m + if l = m then 1 else 0 := by
      have := marks m
      have := less.count_eq m
      simp only [List.count_cons, beq_iff_eq] at this
      omega
    have fewer (m : Lock) : (r.change caller (r.words.sub l) c').secured.count m ≤
        r.secured.count m := by
      have := secured m
      have := given.count_le m
      omega
    refine ⟨kept.words.sub less, few, fun k => ?_, kept.apart_of_le fewer, sound⟩
    have := kept.single k
    have := less ⟨.write, k⟩
    omega

end Kept

/-- A caller that begins a call has published nothing for it yet. -/
theorem effect_of_call (w : Words) (result : Except Misuse Bool) (held : List Lock) (call : Call) :
    Effect w ⟨.answered result, held⟩ w ⟨call.opening, held⟩ := by
  cases call with
  | acquire side kinds => exact .still rfl (.refl _)
  | release side kinds => exact .still rfl (.refl _)

theorem sound_of_call {result : Except Misuse Bool} {held : List Lock} {call : Call}
    (found : r.callers[caller]? = some ⟨.answered result, held⟩)
    (allowed : r.Allows (.call caller call)) : Caller.Sound r.slots ⟨call.opening, held⟩ := by
  cases call with
  | acquire side kinds => exact allowed
  | release side kinds =>
    have owned := allowed.2 _ found
    exact ⟨allowed.1, owned⟩

/-- A held lock has its mark in the counter. -/
theorem Kept.positive (kept : r.Kept) (found : r.callers[caller]? = some c) (has : l ∈ c.held) :
    ¬ r.words l ≤ 0 := by
  have marked : l ∈ r.marks :=
    List.mem_flatMap.mpr ⟨c, List.mem_of_getElem? found, List.mem_append_left _ has⟩
  rw [Int32.not_le, kept.words.pos_iff (kept.count_lt _)]
  exact List.count_pos_iff.mpr marked

theorem Kept.step (kept : r.Kept) (allowed : r.Allows move)
    (made : r.step? strictness move = some s) (few : s.Few) : s.Kept := by
  cases move with
  | call caller call =>
    simp only [step?] at made
    split at made
    next answer held found =>
      cases made
      exact kept.change found (effect_of_call _ _ _ _) (sound_of_call found allowed) few
    next => cases made
  | step caller =>
    obtain ⟨c, found, made⟩ := Option.bind_eq_some_iff.mp made
    obtain ⟨⟨w, c'⟩, advanced, rfl⟩ := Option.map_eq_some_iff.mp made
    obtain ⟨effect, sound⟩ := effect_of_advance (kept.sound c (List.mem_of_getElem? found))
      (fun l has => kept.positive found has) advanced
    exact kept.change found effect sound few

theorem kept_of_reaches (reached : Reaches strictness slots callers r) : r.Kept := by
  induction reached with
  | start => exact kept_start slots callers
  | move _ allowed made few ih => exact ih.step allowed made few

/-- What holds wherever the callers are in their calls. -/
structure Safe (r : Race) : Prop where
  apart : ∀ k, ¬ (⟨.read, k⟩ ∈ r.granted ∧ ⟨.write, k⟩ ∈ r.granted)
  single : ∀ k, r.granted.count ⟨.write, k⟩ ≤ 1
  natural : ∀ l, 0 ≤ (r.words l).toInt
  settled : r.Quiet → ∀ l, (r.words l).toInt = r.granted.count l
  -- Nobody is ever told that it misused the table.
  unbroken : ∀ c ∈ r.callers, ∀ cause, c.stage ≠ .answered (.error cause)

theorem granted_sublist (r : Race) : r.granted.Sublist r.secured :=
  .flatMap_right _ fun _ _ => List.sublist_append_left _ _

theorem marks_of_quiet (quiet : r.Quiet) : r.marks = r.granted := by
  refine List.flatMap_congr fun c member => ?_
  obtain ⟨result, stage⟩ := quiet c member
  simp [Caller.marks, Stage.marks, stage]

/-- However the operations of the callers follow one another, no kind has both a reader and a writer
to whom it was granted, or two writers, and the counters come to what was granted. -/
theorem safe_of_reaches (reached : Reaches strictness slots callers r) : r.Safe := by
  have kept := kept_of_reaches reached
  refine ⟨fun k both => ?_, fun k => ?_, fun l => ?_, fun quiet l => ?_, fun c member cause at_ => ?_⟩
  · have reads := List.count_pos_iff.mpr (r.granted_sublist.subset both.1)
    have writes := List.count_pos_iff.mpr (r.granted_sublist.subset both.2)
    exact Nat.ne_of_gt reads (kept.apart k writes)
  · calc r.granted.count ⟨.write, k⟩
        ≤ r.secured.count ⟨.write, k⟩ := r.granted_sublist.count_le _
      _ ≤ r.marks.count ⟨.write, k⟩ := r.count_secured_le _
      _ ≤ 1 := kept.single k
  · rw [kept.words.toInt (kept.count_lt l)]
    exact Int.natCast_nonneg _
  · rw [kept.words.toInt (kept.count_lt l), marks_of_quiet quiet]
  · have sound := kept.sound c member
    simp [Caller.Sound, at_] at sound

/-! ### Two twoWriters that see each other -/

instance (r : Race) (move : Move) : Decidable (r.Allows move) :=
  match move with
  | .step _ => .isTrue trivial
  | .call _ (.acquire _ kinds) => inferInstanceAs (Decidable (∀ k ∈ kinds, k.index < r.slots))
  | .call _ (.release _ _) => inferInstanceAs (Decidable (_ ∧ _))

/-- Makes moves one after another, if all of them are allowed and can be made. -/
def replay? (strictness : Strictness) (r : Race) : List Move → Option Race
  | [] => some r
  | move :: rest =>
    (r.step? strictness move).bind fun s =>
      if r.Allows move ∧ s.marks.length < 2147483648 then s.replay? strictness rest else none

theorem reaches_of_replay? {moves : List Move} (before : Reaches strictness slots callers r)
    (made : r.replay? strictness moves = some s) : Reaches strictness slots callers s := by
  induction moves generalizing r with
  | nil =>
    cases made
    exact before
  | cons move rest ih =>
    obtain ⟨next, first, tail⟩ := Option.bind_eq_some_iff.mp made
    split at tail
    next orderly =>
      exact ih (before.move orderly.1 first fun k =>
        Nat.lt_of_le_of_lt List.count_le_length orderly.2) tail
    next => cases tail

/-- The first caller reads kind 1 twice and gives one of these locks back. Then it publishes a read
of kind 2 just before the second caller publishes a write, and both look after that. -/
def readAgainstWrite : List Move :=
  [.call 0 (.acquire .read [⟨1⟩, ⟨1⟩]), .step 0, .step 0, .step 0, .step 0, .step 0,
    .call 0 (.release .read [⟨1⟩]), .step 0, .step 0,
    .call 0 (.acquire .read [⟨2⟩]), .call 1 (.acquire .write [⟨2⟩]),
    .step 0, .step 1, .step 0, .step 1]

theorem safe_of_readAgainstWrite : ∃ r, Reaches .strict 3 2 r ∧ r.granted = [⟨.read, ⟨1⟩⟩] ∧
    r.words ⟨.read, ⟨2⟩⟩ = 1 ∧ r.words ⟨.write, ⟨2⟩⟩ = 1 ∧ r.Safe := by
  have made : ∃ r, (start 3 2).replay? .strict readAgainstWrite = some r ∧ r.granted = [⟨.read, ⟨1⟩⟩] ∧
      r.words ⟨.read, ⟨2⟩⟩ = 1 ∧ r.words ⟨.write, ⟨2⟩⟩ = 1 := ⟨_, rfl, rfl, rfl, rfl⟩
  obtain ⟨r, made, granted, read, written⟩ := made
  have reached : Reaches .strict 3 2 r := reaches_of_replay? .start made
  exact ⟨r, reached, granted, read, written, safe_of_reaches reached⟩

end Race

end EntityWorld.LockTable

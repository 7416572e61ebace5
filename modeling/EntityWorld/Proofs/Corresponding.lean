import Mathlib.Data.List.Forall2

/-!
# Lists that correspond element by element

What is looked up, changed, dropped or sorted in one list is so in the other, where the tests are the
same for elements that correspond.
-/
namespace EntityWorld

open List (Forall₂)

variable {α β γ : Type} {R : α → β → Prop} {l : List α} {l' : List β}

theorem forall₂_iff_pairs : Forall₂ R l l' ↔ ∃ pairs : List (α × β),
    pairs.map Prod.fst = l ∧ pairs.map Prod.snd = l' ∧ ∀ p ∈ pairs, R p.1 p.2 := by
  constructor
  · intro both
    exact ⟨l.zip l', List.map_fst_zip (Nat.le_of_eq both.length_eq),
      List.map_snd_zip (Nat.le_of_eq both.length_eq.symm),
      fun p member => List.forall₂_zip both member⟩
  · rintro ⟨pairs, rfl, rfl, all⟩
    rw [List.forall₂_map_left_iff, List.forall₂_map_right_iff, List.forall₂_same]
    exact all

theorem forall₂_iff_eq {R : α → α → Prop} (strict : ∀ a b, R a b ↔ b = a) {l l' : List α} :
    Forall₂ R l l' ↔ l' = l := by
  have same : R = fun a b => a = b := funext fun a => funext fun b =>
    propext ((strict a b).trans eq_comm)
  rw [same, List.forall₂_eq_eq_eq, eq_comm]

theorem map_eq_of_forall₂ {f : α → γ} {g : β → γ} (both : Forall₂ R l l')
    (same : ∀ a b, R a b → g b = f a) : l'.map g = l.map f := by
  induction both with
  | nil => rfl
  | cons first _ ih => rw [List.map_cons, List.map_cons, same _ _ first, ih]

theorem forall₂_getElem? (both : Forall₂ R l l') (i : Nat) : Option.Rel R l[i]? l'[i]? := by
  induction both generalizing i with
  | nil => exact .none
  | cons first _ ih =>
    cases i with
    | zero => exact .some first
    | succ i => exact ih i

theorem forall₂_set {a : α} {b : β} (both : Forall₂ R l l') (i : Nat) (new : R a b) :
    Forall₂ R (l.set i a) (l'.set i b) := by
  induction both generalizing i with
  | nil => exact .nil
  | cons first rest ih =>
    cases i with
    | zero => exact .cons new rest
    | succ i => exact .cons first (ih i)

theorem forall₂_eraseIdx (both : Forall₂ R l l') (i : Nat) :
    Forall₂ R (l.eraseIdx i) (l'.eraseIdx i) := by
  induction both generalizing i with
  | nil => exact .nil
  | cons first rest ih =>
    cases i with
    | zero => exact rest
    | succ i => exact .cons first (ih i)

theorem forall₂_modify {f : α → α} {g : β → β} (both : Forall₂ R l l') (i : Nat)
    (kept : ∀ a b, R a b → R (f a) (g b)) : Forall₂ R (l.modify i f) (l'.modify i g) := by
  induction both generalizing i with
  | nil =>
    rw [List.modify_nil, List.modify_nil]
    exact .nil
  | cons first rest ih =>
    cases i with
    | zero => exact .cons (kept _ _ first) rest
    | succ i => exact .cons first (ih i)

section

variable {p : α → Bool} {q : β → Bool} (both : Forall₂ R l l') (same : ∀ a b, R a b → q b = p a)
include both same

theorem forall₂_find? : Option.Rel R (l.find? p) (l'.find? q) := by
  induction both with
  | nil => exact .none
  | @cons a b _ _ first _ ih =>
    rw [List.find?_cons, List.find?_cons, same a b first]
    cases p a with
    | true => exact .some first
    | false => exact ih

theorem findIdx?_eq_of_forall₂ : l'.findIdx? q = l.findIdx? p := by
  induction both with
  | nil => rfl
  | cons first _ ih => rw [List.findIdx?_cons, List.findIdx?_cons, same _ _ first, ih]

theorem any_eq_of_forall₂ : l'.any q = l.any p := by
  induction both with
  | nil => rfl
  | cons first _ ih => rw [List.any_cons, List.any_cons, same _ _ first, ih]

theorem forall₂_eraseP : Forall₂ R (l.eraseP p) (l'.eraseP q) := by
  induction both with
  | nil => exact .nil
  | @cons a b _ _ first rest ih =>
    rw [List.eraseP_cons, List.eraseP_cons, same a b first]
    cases p a with
    | true => exact rest
    | false => exact .cons first ih

end

theorem forall₂_mergeSort {le : α → α → Bool} {le' : β → β → Bool} (both : Forall₂ R l l')
    (same : ∀ a b c d, R a b → R c d → le' b d = le a c) :
    Forall₂ R (l.mergeSort le) (l'.mergeSort le') := by
  obtain ⟨pairs, rfl, rfl, all⟩ := forall₂_iff_pairs.mp both
  rw [← List.map_mergeSort (r := fun p q => le p.1 q.1) fun _ _ _ _ => rfl,
    ← List.map_mergeSort (r := fun p q => le p.1 q.1) fun p first q second =>
      (same _ _ _ _ (all p first) (all q second)).symm]
  exact forall₂_iff_pairs.mpr ⟨_, rfl, rfl, fun p member => all p (List.mem_mergeSort.mp member)⟩

/-! ### At most one each -/

section

variable {α β γ δ : Type*} {R : α → β → Prop} {S : γ → δ → Prop} {o : Option α} {o' : Option β}

theorem rel_map_of_rel {f : α → γ} {g : β → δ} (both : Option.Rel R o o')
    (kept : ∀ a b, R a b → S (f a) (g b)) : Option.Rel S (o.map f) (o'.map g) := by
  cases both with
  | none => exact .none
  | some same => exact .some (kept _ _ same)

theorem rel_bind_of_rel {f : α → Option γ} {g : β → Option δ} (both : Option.Rel R o o')
    (kept : ∀ a b, R a b → Option.Rel S (f a) (g b)) : Option.Rel S (o.bind f) (o'.bind g) := by
  cases both with
  | none => exact .none
  | some same => exact kept _ _ same

end

end EntityWorld

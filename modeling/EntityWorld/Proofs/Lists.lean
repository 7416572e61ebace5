import EntityWorld.Total
import Mathlib.Data.List.Nodup

/-!
# Lists

Facts about changing a list at one place.
-/
namespace EntityWorld

variable {α β : Type}

theorem perm_cons_eraseIdx {l : List α} {i : Nat} {a : α} (found : l[i]? = some a) :
    l.Perm (a :: l.eraseIdx i) := by
  induction l generalizing i with
  | nil => simp at found
  | cons head rest ih =>
    cases i with
    | zero =>
      obtain rfl : head = a := by simpa using found
      exact .refl _
    | succ i =>
      have tail : rest.Perm (a :: rest.eraseIdx i) := ih (by simpa using found)
      exact (tail.cons head).trans (.swap a head _)

theorem perm_set_eraseIdx {l : List α} {i : Nat} {a : α} (b : α) (found : l[i]? = some a) :
    (l.set i b).Perm (b :: l.eraseIdx i) := by
  obtain ⟨inside, -⟩ := List.getElem?_eq_some_iff.mp found
  have := perm_cons_eraseIdx (l := l.set i b) (List.getElem?_set_self inside)
  rwa [List.eraseIdx_set_eq] at this

theorem perm_set {l : List α} {i : Nat} {a : α} (b : α) (found : l[i]? = some a) :
    (b :: l).Perm (a :: l.set i b) := by
  have exposed : (b :: l).Perm (b :: a :: l.eraseIdx i) := (perm_cons_eraseIdx found).cons b
  exact exposed.trans ((List.Perm.swap a b _).trans ((perm_set_eraseIdx b found).symm.cons a))

theorem mem_set_iff {l : List α} {i : Nat} {a x : α} (b : α) (distinct : l.Nodup)
    (found : l[i]? = some a) : x ∈ l.set i b ↔ (x ∈ l ∧ x ≠ a) ∨ x = b := by
  have split := perm_cons_eraseIdx found
  have gone : a ∉ l.eraseIdx i := (List.nodup_cons.mp (split.nodup distinct)).1
  rw [(perm_set_eraseIdx b found).mem_iff, split.mem_iff, List.mem_cons, List.mem_cons]
  constructor
  · rintro (new | old)
    · exact .inr new
    · refine .inl ⟨.inr old, ?_⟩
      rintro rfl
      exact gone old
  · rintro (⟨same | old, different⟩ | new)
    · exact absurd same different
    · exact .inr old
    · exact .inl new

/-- Moving the last element into the place of another removes that one. -/
theorem perm_dropLast_set {l : List α} {i : Nat} {a last : α} (found : l[i]? = some a)
    (final : l.getLast? = some last) : l.Perm (a :: (l.set i last).dropLast) := by
  obtain ⟨rest, rfl⟩ := List.getLast?_eq_some_iff.mp final
  by_cases inside : i < rest.length
  · rw [List.getElem?_append_left inside] at found
    rw [List.set_append_left _ _ inside, List.dropLast_concat]
    exact List.perm_append_comm.trans (perm_set last found)
  · obtain ⟨bound, same⟩ := List.getElem?_eq_some_iff.mp found
    obtain rfl : i = rest.length := by
      rw [List.length_append, List.length_singleton] at bound
      omega
    obtain rfl : last = a := by simpa using same
    rw [List.set_append_right _ _ (Nat.le_refl _), Nat.sub_self, List.set_cons_zero,
      List.dropLast_concat]
    exact List.perm_append_comm

/-- A change that a function does not see. -/
theorem map_set_of_eq {f : α → β} {l : List α} {i : Nat} {a b : α} (found : l[i]? = some a)
    (same : f b = f a) : (l.set i b).map f = l.map f := by
  obtain ⟨present, here⟩ := List.getElem?_eq_some_iff.mp found
  have inside : i < (l.map f).length := by simpa using present
  have old : (l.map f)[i] = f b := by simp [here, same]
  rw [List.map_set, ← old, List.set_getElem_self]

theorem map_fst_set {l : List (α × β)} {i : Nat} {a : α} {x : β} (y : β)
    (found : l[i]? = some (a, x)) : (l.set i (a, y)).map Prod.fst = l.map Prod.fst :=
  map_set_of_eq found rfl

theorem zip_set_right {l : List α} {m : List β} {i : Nat} {a : α} (x : β) (found : l[i]? = some a) :
    l.zip (m.set i x) = (l.zip m).set i (a, x) := by
  induction l generalizing m i with
  | nil => simp at found
  | cons head rest ih =>
    cases m with
    | nil => simp
    | cons first tail =>
      cases i with
      | zero =>
        obtain rfl : head = a := by simpa using found
        rfl
      | succ i => simp [ih (m := tail) (i := i) (by simpa using found)]

theorem flatMap_range_getElem? (l : List α) (f : α → List β) :
    (List.range l.length).flatMap (fun i => l[i]?.elim [] f) = l.flatMap f := by
  have all : (List.range l.length).map (l[·]?) = l.map some := by
    refine List.ext_getElem? fun i => ?_
    by_cases inside : i < l.length
    · simp [inside]
    · simp [inside]
  calc (List.range l.length).flatMap (fun i => l[i]?.elim [] f)
      = ((List.range l.length).map (l[·]?)).flatMap fun entry => entry.elim [] f := by
        rw [List.flatMap_map]
    _ = l.flatMap f := by
        rw [all, List.flatMap_map]
        rfl

theorem range_prefix_range {m n : Nat} (le : m ≤ n) : List.range m <+: List.range n := by
  obtain ⟨more, rfl⟩ := Nat.exists_eq_add_of_le le
  rw [List.range_add]
  exact List.prefix_append _ _

/-- Changing one element and changing every element commute if they do so on each. -/
theorem map_modify {f : α → α} {f' : β → β} {g : α → β} (commutes : ∀ a, g (f a) = f' (g a))
    (l : List α) (i : Nat) : (l.modify i f).map g = (l.map g).modify i f' := by
  induction l generalizing i with
  | nil => cases i <;> rfl
  | cons head rest ih =>
    cases i with
    | zero => simp only [List.modify_zero_cons, List.map_cons, commutes]
    | succ i => simp only [List.modify_succ_cons, List.map_cons, ih]

theorem map_modify_of_eq {f : α → α} {g : α → β} (same : ∀ a, g (f a) = g a) (l : List α) (i : Nat) :
    (l.modify i f).map g = l.map g := by
  have still (a : α) : g (f a) = id (g a) := same a
  rw [map_modify still, List.modify_id]

theorem mem_modify {f : α → α} {l : List α} {i : Nat} {a : α} (member : a ∈ l.modify i f) :
    a ∈ l ∨ ∃ b ∈ l, a = f b := by
  obtain ⟨j, here⟩ := List.mem_iff_getElem?.mp member
  rw [List.getElem?_modify] at here
  obtain ⟨b, found, same⟩ := Option.map_eq_some_iff.mp here
  split at same
  · exact .inr ⟨b, List.mem_of_getElem? found, same.symm⟩
  · exact .inl (same ▸ List.mem_of_getElem? found)

/-- Where it is the only one of its kind, changing the first element of a kind changes all of them. -/
theorem modify_findIdx? {p : α → Bool} {l : List α} {i : Nat} (f : α → α)
    (only : l.Pairwise fun a b => ¬ (p a = true ∧ p b = true)) (found : l.findIdx? p = some i) :
    l.modify i f = l.map fun a => if p a then f a else a := by
  induction l generalizing i with
  | nil => cases found
  | cons head rest ih =>
    obtain ⟨alone, only⟩ := List.pairwise_cons.mp only
    rw [List.findIdx?_cons] at found
    split at found
    next here =>
      cases found
      have others : ∀ a ∈ rest, ¬ p a = true := fun a member there => alone a member ⟨here, there⟩
      rw [List.modify_zero_cons, List.map_cons, if_pos here,
        List.map_congr_left fun a member => if_neg (others a member), List.map_id']
    next elsewhere =>
      obtain ⟨j, later, rfl⟩ := Option.map_eq_some_iff.mp found
      rw [List.modify_succ_cons, List.map_cons, if_neg elsewhere, ih only later]

theorem eraseP_eq_filter {p : α → Bool} {l : List α}
    (only : l.Pairwise fun a b => ¬ (p a = true ∧ p b = true)) :
    l.eraseP p = l.filter fun a => !p a := by
  induction l with
  | nil => rfl
  | cons head rest ih =>
    obtain ⟨alone, only⟩ := List.pairwise_cons.mp only
    by_cases here : p head = true
    · have others : ∀ a ∈ rest, (!p a) = true := fun a member => by
        simpa using fun there => alone a member ⟨here, there⟩
      simp [here, List.filter_eq_self.mpr others]
    · simp [here, ih only]

/-- Where a list splits into what has a property and what has it not, these are its filters. -/
theorem filter_of_perm_append {p : α → Bool} {l out kept : List α} (perm : l.Perm (out ++ kept))
    (stay : ∀ a ∈ kept, p a) (gone : ∀ a ∈ out, ¬ p a) :
    (l.filter p).Perm kept ∧ (l.filter fun a => !p a).Perm out := by
  have keptOut : out.filter p = [] := List.filter_eq_nil_iff.mpr gone
  have keptAfter : kept.filter p = kept := List.filter_eq_self.mpr stay
  have lostOut : (out.filter fun a => !p a) = out :=
    List.filter_eq_self.mpr fun a member => by simpa using gone a member
  have lostAfter : (kept.filter fun a => !p a) = [] :=
    List.filter_eq_nil_iff.mpr fun a member => by simpa using stay a member
  constructor
  · have := perm.filter p
    rwa [List.filter_append, keptOut, keptAfter, List.nil_append] at this
  · have := perm.filter fun a => !p a
    rwa [List.filter_append, lostOut, lostAfter, List.append_nil] at this

theorem getElem?_concat_eq_some_iff {l : List α} {a b : α} {i : Nat} :
    (l ++ [a])[i]? = some b ↔ l[i]? = some b ∨ i = l.length ∧ a = b := by
  grind

/-- An element that was there before is not seen for the first time. -/
theorem eraseDups_concat [DecidableEq α] (l : List α) (a : α) :
    (l ++ [a]).eraseDups = if a ∈ l then l.eraseDups else l.eraseDups ++ [a] := by
  rw [List.eraseDups_append]
  split
  next there => simp [List.removeAll, there]
  next fresh => simp [List.removeAll, fresh, List.eraseDups_cons]

theorem eraseDups_of_nodup [DecidableEq α] {l : List α} (distinct : l.Nodup) : l.eraseDups = l := by
  induction l with
  | nil => rfl
  | cons head rest ih =>
    obtain ⟨fresh, distinct⟩ := List.nodup_cons.mp distinct
    have others : (rest.filter fun a => !a == head) = rest := by
      refine List.filter_eq_self.mpr fun a member => ?_
      simpa using fun same : a = head => fresh (same ▸ member)
    rw [List.eraseDups_cons, others, ih distinct]

theorem total_sublist {a b : List Nat} (sublist : a.Sublist b) : total a ≤ total b := by
  induction sublist with
  | slnil => exact Nat.le_refl _
  | cons n _ ih => exact Nat.le_trans ih (Nat.le_add_left _ n)
  | cons_cons n _ ih => exact Nat.add_le_add_left ih n

theorem total_set {l : List Nat} {i old : Nat} (new : Nat) (found : l[i]? = some old) :
    total (l.set i new) + old = total l + new := by
  induction l generalizing i with
  | nil => simp at found
  | cons head rest ih =>
    cases i with
    | zero =>
      obtain rfl : head = old := by simpa using found
      simp only [List.set_cons_zero, total]
      omega
    | succ i =>
      have tail := ih (by simpa using found)
      simp only [List.set_cons_succ, total]
      omega

end EntityWorld

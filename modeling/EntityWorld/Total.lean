/-!
# Totals

The sum of a list of counts.
-/
namespace EntityWorld

def total : List Nat → Nat
  | [] => 0
  | n :: rest => n + total rest

theorem total_append (a b : List Nat) : total (a ++ b) = total a + total b := by
  induction a with
  | nil => simp [total]
  | cons n rest ih => simp only [List.cons_append, total, ih, Nat.add_assoc]

theorem le_total {n : Nat} {l : List Nat} (member : n ∈ l) : n ≤ total l := by
  induction l with
  | nil => cases member
  | cons head rest ih =>
    simp only [total]
    rcases List.mem_cons.1 member with rfl | member
    · omega
    · have := ih member
      omega

end EntityWorld

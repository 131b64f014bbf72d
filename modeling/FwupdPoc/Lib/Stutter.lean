import Mathlib.Data.List.Basic

/-!
# Stuttering

Two histories are the same up to stuttering if one gets from one to the other by repeating entries
more or less often. The operations on histories keep this: appending, concatenating, and looking at
some of the entries, or at a part of each, only.
-/

namespace Stutter

variable {α β : Type}

/-- The same entries in the same order, each once or more often. -/
inductive StutterEquivalent : List α → List α → Prop
  | nil : StutterEquivalent [] []
  | cons (a : α) (m n : ℕ) {history history' : List α} (h : StutterEquivalent history history') :
    StutterEquivalent (List.replicate (m + 1) a ++ history) (List.replicate (n + 1) a ++ history')

namespace StutterEquivalent

variable {history history' : List α}

/-- An entry that is there once on both sides. -/
theorem one (a : α) (h : StutterEquivalent history history') :
    StutterEquivalent (a :: history) (a :: history') := cons a 0 0 h

theorem append {later later' : List α} (h : StutterEquivalent history history')
    (hlater : StutterEquivalent later later') :
    StutterEquivalent (history ++ later) (history' ++ later') := by
  induction h with
  | nil => exact hlater
  | cons a m n _ ih =>
    rw [List.append_assoc, List.append_assoc]
    exact cons a m n ih

theorem flatMap {f g : β → List α} {bs : List β} (h : ∀ b ∈ bs, StutterEquivalent (f b) (g b)) :
    StutterEquivalent (bs.flatMap f) (bs.flatMap g) := by
  induction bs with
  | nil => exact nil
  | cons b bs ih =>
    rw [List.flatMap_cons, List.flatMap_cons]
    exact (h b List.mem_cons_self).append (ih fun b hb => h b (List.mem_cons_of_mem _ hb))

theorem map (f : α → β) (h : StutterEquivalent history history') :
    StutterEquivalent (history.map f) (history'.map f) := by
  induction h with
  | nil => exact nil
  | cons a m n _ ih =>
    rw [List.map_append, List.map_append, List.map_replicate, List.map_replicate]
    exact cons (f a) m n ih

theorem filter (p : α → Bool) (h : StutterEquivalent history history') :
    StutterEquivalent (history.filter p) (history'.filter p) := by
  induction h with
  | nil => exact nil
  | cons a m n _ ih =>
    rw [List.filter_append, List.filter_append]
    cases hp : p a with
    | true =>
      rw [List.filter_replicate_of_pos hp, List.filter_replicate_of_pos hp]
      exact cons a m n ih
    | false =>
      have hneg : ¬ p a = true := by simp [hp]
      rw [List.filter_replicate_of_neg hneg, List.filter_replicate_of_neg hneg]
      exact ih

end StutterEquivalent

end Stutter

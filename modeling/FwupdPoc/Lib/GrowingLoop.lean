import Mathlib.Data.List.Basic

/-!
# Loops over a list that their body may extend

`forEntries` is the loop `for (i = 0; i < list.length; i++)` over a list that is part of the state
and is read anew for each index. If its body can only append to the list, whatever the loop returns
with is what the loop over the final list returns with (`forEntries_sound`): an entry that is
appended while the loop runs is visited like any other. Where the list is the same at the end, so is
the loop over the list it started with, and it ends (`forEntries_complete`).
-/

namespace Growing

variable {S E α : Type}

/-- Calls `body` for the entries of the list of the state, from index `i` on. A loop that is out of
fuel returns `timeout`. -/
def forEntries (list : S → List α) (body : Nat → α → S → Except E S) (timeout : E) :
    Nat → Nat → S → Except E S
  | 0, _, _ => .error timeout
  | fuel + 1, i, s =>
    match (list s)[i]? with
    | none => .ok s
    | some a =>
      match body i a s with
      | .ok s' => forEntries list body timeout fuel (i + 1) s'
      | .error e => .error e

/-- Calls `body` for the entries of a list, which are numbered from `i` on. -/
def forList (body : Nat → α → S → Except E S) : List α → Nat → S → Except E S
  | [], _, s => .ok s
  | a :: rest, i, s =>
    match body i a s with
    | .ok s' => forList body rest (i + 1) s'
    | .error e => .error e

theorem forList_cons {body : Nat → α → S → Except E S} {a : α} {rest : List α} {i : Nat}
    {s s' : S} :
    forList body (a :: rest) i s = .ok s' ↔
      ∃ s₁, body i a s = .ok s₁ ∧ forList body rest (i + 1) s₁ = .ok s' := by
  rw [forList]
  cases body i a s with
  | ok s₁ => simp
  | error e => simp

/-- The body can only append to the list. -/
def Appends (list : S → List α) (body : Nat → α → S → Except E S) : Prop :=
  ∀ i a s s', body i a s = .ok s' → list s <+: list s'

variable {list : S → List α} {body : Nat → α → S → Except E S} {timeout : E}

theorem forList_appends (h : Appends list body) :
    ∀ {l : List α} {i : Nat} {s s' : S}, forList body l i s = .ok s' → list s <+: list s'
  | [], _, s, s', hrun => by
    cases hrun
    exact List.prefix_refl _
  | a :: rest, i, s, s', hrun => by
    obtain ⟨s₁, hbody, hrest⟩ := forList_cons.1 hrun
    exact (h i a s s₁ hbody).trans (forList_appends h hrest)

/-- The entry a loop reads is the one the list has at the end. -/
theorem drop_eq_entry {l l' : List α} {i : Nat} {a : α} (h : l <+: l') (hi : l[i]? = some a) :
    l'.drop i = a :: l'.drop (i + 1) := by
  obtain ⟨hlt, rfl⟩ := List.getElem?_eq_some_iff.1 hi
  have hlt' : i < l'.length := Nat.lt_of_lt_of_le hlt h.length_le
  rw [List.drop_eq_getElem_cons hlt', h.getElem hlt]

/-- A loop that ends has gone through the list as it is at the end. -/
theorem forEntries_sound (h : Appends list body) :
    ∀ {fuel i : Nat} {s s' : S}, forEntries list body timeout fuel i s = .ok s' →
      i ≤ (list s).length → forList body ((list s').drop i) i s = .ok s'
  | 0, _, _, _, hrun, _ => by cases hrun
  | fuel + 1, i, s, s', hrun, hi => by
    rw [forEntries] at hrun
    cases hentry : (list s)[i]? with
    | none =>
      rw [hentry] at hrun
      cases hrun
      rw [List.drop_eq_nil_of_le (List.getElem?_eq_none_iff.1 hentry)]
      rfl
    | some a =>
      rw [hentry] at hrun
      dsimp only at hrun
      cases hbody : body i a s with
      | error e =>
        rw [hbody] at hrun
        cases hrun
      | ok s₁ =>
        rw [hbody] at hrun
        have hlt := (List.getElem?_eq_some_iff.1 hentry).1
        have hgrow := h i a s s₁ hbody
        have hrest := forEntries_sound h hrun (Nat.le_trans hlt hgrow.length_le)
        rw [drop_eq_entry (hgrow.trans (forList_appends h hrest)) hentry]
        exact forList_cons.2 ⟨s₁, hbody, hrest⟩

/-- Over a list that it leaves as it is, the loop ends. -/
theorem forEntries_complete (h : Appends list body) :
    ∀ (fuel : Nat) {i : Nat} {s s' : S}, i ≤ (list s).length → (list s).length < fuel + i →
      forList body ((list s).drop i) i s = .ok s' → list s' = list s →
      forEntries list body timeout fuel i s = .ok s'
  | 0, i, s, s', hi, hfuel, _, _ => by omega
  | fuel + 1, i, s, s', _, hfuel, hrun, hsame => by
    rw [forEntries]
    cases hentry : (list s)[i]? with
    | none =>
      rw [List.drop_eq_nil_of_le (List.getElem?_eq_none_iff.1 hentry)] at hrun
      cases hrun
      rfl
    | some a =>
      rw [drop_eq_entry (List.prefix_refl _) hentry] at hrun
      obtain ⟨s₁, hbody, hrest⟩ := forList_cons.1 hrun
      have hlt := (List.getElem?_eq_some_iff.1 hentry).1
      -- the list at the end is the one at the start, so it has not grown in between
      have hgrow' := forList_appends h hrest
      rw [hsame] at hgrow'
      have hsame₁ : list s₁ = list s :=
        ((h i a s s₁ hbody).eq_of_length_le hgrow'.length_le).symm
      dsimp only
      rw [hbody]
      refine forEntries_complete h fuel ?_ ?_ ?_ ?_
      · rw [hsame₁]
        omega
      · rw [hsame₁]
        omega
      · rw [hsame₁]
        exact hrest
      · rw [hsame₁, hsame]

end Growing

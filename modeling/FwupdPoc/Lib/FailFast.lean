import Mathlib.Data.List.Basic

/-!
# Fail-fast iteration

An array list counts its structural modifications, and an iterator remembers the count it was made
at. `next` throws when the two differ. `forLoop` is a loop over such a list whose body may throw and
may modify the list. Two rules describe it where each entry is known to be either quiet, when the
body keeps the list and an invariant, or not: if all entries are quiet the loop runs through
(`forLoop_quiet`), and if one is not the loop throws (`forLoop_disturbed`). What any loop has done
when it ends is said by `forLoop_ends`.
-/

namespace FailFast

variable {α S E : Type}

/-- A list and the number of its structural modifications. -/
structure ArrayList (α : Type) where
  elements : List α
  modCount : Nat

/-- Appends an element. -/
def ArrayList.add (l : ArrayList α) (a : α) : ArrayList α := ⟨l.elements ++ [a], l.modCount + 1⟩

/-- Appends elements one by one. -/
def ArrayList.addEach (l : ArrayList α) (as : List α) : ArrayList α := as.foldl ArrayList.add l

/-- Appending elements counts each of them. -/
theorem ArrayList.addEach_eq (as : List α) (l : ArrayList α) :
    l.addEach as = ⟨l.elements ++ as, l.modCount + as.length⟩ := by
  induction as generalizing l with
  | nil => simp [addEach]
  | cons a as ih =>
    have hstep : l.addEach (a :: as) = (l.add a).addEach as := rfl
    rw [hstep, ih]
    simp only [add, List.append_assoc, List.singleton_append, List.length_cons]
    congr 1
    omega

/-- How an iteration ends early. -/
inductive Exit (E : Type) where
  | concurrentModification
  | noSuchElement
  | thrown (exception : E)
  deriving DecidableEq

/-- An iterator: the index of the next element and the modification count it was made at. -/
structure Iterator where
  cursor : Nat
  expectedModCount : Nat

/-- A new iterator over the list. -/
def ArrayList.iterator (l : ArrayList α) : Iterator := ⟨0, l.modCount⟩

/-- Whether there is a next element: whether the cursor is not at the end of the list as it is
now. -/
def Iterator.hasNext (it : Iterator) (l : ArrayList α) : Bool := it.cursor != l.elements.length

/-- The next element. -/
def Iterator.next (it : Iterator) (l : ArrayList α) : Except (Exit E) (α × Iterator) :=
  if l.modCount ≠ it.expectedModCount then .error .concurrentModification
  else match l.elements[it.cursor]? with
    | some a => .ok (a, { it with cursor := it.cursor + 1 })
    | none => .error .noSuchElement

/-- A loop over a list inside a state. The body gets the index of the entry and the element. `none`
is the end of the fuel. -/
def forLoop (list : S → ArrayList α) (body : Nat → α → S → Option E × S) :
    Nat → Iterator → S → Option (Option (Exit E) × S)
  | 0, _, _ => none
  | fuel + 1, it, s =>
    if it.hasNext (list s) then
      match it.next (list s) with
      | .error exit => some (some exit, s)
      | .ok (a, it') =>
        match body it.cursor a s with
        | (some e, s') => some (some (.thrown e), s')
        | (none, s') => forLoop list body fuel it' s'
    else some (none, s)

variable {list : S → ArrayList α} {body : Nat → α → S → Option E × S}

/-- At the end of the list the loop is over. -/
theorem forLoop_end {fuel : Nat} {it : Iterator} {s : S}
    (h : it.cursor = (list s).elements.length) :
    forLoop list body (fuel + 1) it s = some (none, s) := by
  simp [forLoop, Iterator.hasNext, h]

/-- Behind a modification the loop throws. -/
theorem forLoop_modified {fuel : Nat} {it : Iterator} {s : S}
    (hcursor : it.cursor ≠ (list s).elements.length)
    (hcount : (list s).modCount ≠ it.expectedModCount) :
    forLoop list body (fuel + 1) it s = some (some .concurrentModification, s) := by
  simp [forLoop, Iterator.hasNext, Iterator.next, hcursor, hcount]

/-- Where nothing was modified, the body runs on the element at the cursor. -/
theorem forLoop_next {fuel : Nat} {it : Iterator} {s : S} {a : α}
    (helement : (list s).elements[it.cursor]? = some a)
    (hcount : (list s).modCount = it.expectedModCount) :
    forLoop list body (fuel + 1) it s =
      match body it.cursor a s with
      | (some e, s') => some (some (.thrown e), s')
      | (none, s') => forLoop list body fuel { it with cursor := it.cursor + 1 } s' := by
  have hlt := (List.getElem?_eq_some_iff.1 helement).1
  simp [forLoop, Iterator.hasNext, Iterator.next, hcount, helement, Nat.ne_of_lt hlt]

section Rules

variable (original : ArrayList α) (quiet : Nat → Prop) (inv : Nat → S → Prop)

/-- What has to be known of a body: a quiet entry keeps the invariant, under which the list is the
original one, and an entry that is not quiet throws or leaves a longer list behind. -/
structure Describes (list : S → ArrayList α) (body : Nat → α → S → Option E × S) : Prop where
  same : ∀ i s, inv i s → list s = original
  step : ∀ i a s, original.elements[i]? = some a → inv i s → quiet i →
    ∃ s', body i a s = (none, s') ∧ inv (i + 1) s'
  disturb : ∀ i a s, original.elements[i]? = some a → inv i s → ¬ quiet i →
    (∃ e s', body i a s = (some e, s')) ∨
      ∃ s', body i a s = (none, s') ∧ (list s').modCount ≠ original.modCount ∧
        original.elements.length < (list s').elements.length

variable {original quiet inv}

/-- Where all entries from the cursor on are quiet, the loop runs through. -/
theorem forLoop_quiet (h : Describes original quiet inv list body) :
    ∀ (remaining : Nat) {i : Nat} {s : S} (extra : Nat),
      i + remaining = original.elements.length → inv i s →
      (∀ j, i ≤ j → j < original.elements.length → quiet j) →
      ∃ s', forLoop list body (remaining + 1 + extra) ⟨i, original.modCount⟩ s = some (none, s') ∧
        inv original.elements.length s' := by
  intro remaining
  induction remaining with
  | zero =>
    intro i s extra hi hinv _
    rw [Nat.add_zero] at hi
    have hfuel : 0 + 1 + extra = extra + 1 := by omega
    rw [hfuel]
    refine ⟨s, forLoop_end ?_, hi ▸ hinv⟩
    rw [h.same i s hinv]
    exact hi
  | succ remaining ih =>
    intro i s extra hi hinv hquiet
    have hlt : i < original.elements.length := by omega
    have helement := List.getElem?_eq_getElem hlt
    obtain ⟨s', hbody, hinv'⟩ := h.step i _ s helement hinv (hquiet i (Nat.le_refl _) hlt)
    have hfuel : remaining + 1 + 1 + extra = remaining + 1 + extra + 1 := by omega
    rw [hfuel, forLoop_next (by rw [h.same i s hinv]; exact helement) (by rw [h.same i s hinv]),
      hbody]
    exact ih (i := i + 1) extra (by omega) hinv' fun j hj => hquiet j (by omega)

/-- Where an entry from the cursor on is not quiet, the loop throws. -/
theorem forLoop_disturbed (h : Describes original quiet inv list body) :
    ∀ (remaining : Nat) {i : Nat} {s : S} (extra : Nat),
      i + remaining = original.elements.length → inv i s →
      (∃ j, i ≤ j ∧ j < original.elements.length ∧ ¬ quiet j) →
      ∃ exit s',
        forLoop list body (remaining + 1 + extra) ⟨i, original.modCount⟩ s =
          some (some exit, s') := by
  intro remaining
  induction remaining with
  | zero =>
    rintro i s extra hi _ ⟨j, hle, hlt, -⟩
    omega
  | succ remaining ih =>
    rintro i s extra hi hinv ⟨j, hle, hlt, hj⟩
    have hilt : i < original.elements.length := by omega
    have helement := List.getElem?_eq_getElem hilt
    have hfuel : remaining + 1 + 1 + extra = remaining + 1 + extra + 1 := by omega
    rw [hfuel, forLoop_next (by rw [h.same i s hinv]; exact helement) (by rw [h.same i s hinv])]
    by_cases hquiet : quiet i
    · obtain ⟨s', hbody, hinv'⟩ := h.step i _ s helement hinv hquiet
      have hij : i ≠ j := fun hij => hj (hij ▸ hquiet)
      rw [hbody]
      exact ih (i := i + 1) extra (by omega) hinv' ⟨j, by omega, hlt, hj⟩
    · obtain ⟨e, s', hbody⟩ | ⟨s', hbody, hcount, hlength⟩ := h.disturb i _ s helement hinv hquiet
      · rw [hbody]
        exact ⟨_, s', rfl⟩
      · have hfuel' : remaining + 1 + extra = remaining + extra + 1 := by omega
        rw [hbody, hfuel']
        refine ⟨_, s', forLoop_modified ?_ hcount⟩
        exact Nat.ne_of_lt (by omega : i + 1 < (list s').elements.length)

end Rules

section Ends

variable {original : ArrayList α} {inv : Nat → S → Prop} {post : E → S → Prop}

/-- The list is the original one, or a longer one that counts more modifications. -/
def Grown (original l : ArrayList α) : Prop :=
  l = original ∨
    (l.modCount ≠ original.modCount ∧ original.elements.length < l.elements.length)

/-- How a loop over `n` entries ends, where `inv i` holds in front of the entry `i`, and `post`
where the body throws. -/
inductive Ended (inv : Nat → S → Prop) (post : E → S → Prop) (n : Nat) :
    Option (Exit E) → S → Prop
  | through {s : S} (h : inv n s) : Ended inv post n none s
  | modified {i : Nat} {s : S} (hi : i ≤ n) (h : inv i s) :
    Ended inv post n (some .concurrentModification) s
  | thrown {e : E} {s : S} (h : post e s) : Ended inv post n (some (.thrown e)) s

/-- Where the body keeps an invariant under which the list only grows, the loop ends, and what the
invariant says of the entries passed holds then. -/
theorem forLoop_ends (hgrown : ∀ i s, inv i s → Grown original (list s))
    (hbody : ∀ i a s, original.elements[i]? = some a → inv i s → list s = original →
      (∀ e s', body i a s = (some e, s') → post e s') ∧
        ∀ s', body i a s = (none, s') → inv (i + 1) s') :
    ∀ (remaining : Nat) {i : Nat} {s : S} (extra : Nat),
      i + remaining = original.elements.length → inv i s →
      ∃ exit s', forLoop list body (remaining + 1 + extra) ⟨i, original.modCount⟩ s =
        some (exit, s') ∧ Ended inv post original.elements.length exit s' := by
  intro remaining
  induction remaining with
  | zero =>
    intro i s extra hi hinv
    rw [Nat.add_zero] at hi
    subst hi
    have hfuel : 0 + 1 + extra = extra + 1 := by omega
    rw [hfuel]
    rcases hgrown _ s hinv with hsame | ⟨hcount, hlength⟩
    · refine ⟨none, s, forLoop_end ?_, .through hinv⟩
      rw [hsame]
    · exact ⟨_, s, forLoop_modified (Nat.ne_of_lt hlength) hcount,
        .modified (Nat.le_refl _) hinv⟩
  | succ remaining ih =>
    intro i s extra hi hinv
    have hfuel : remaining + 1 + 1 + extra = remaining + 1 + extra + 1 := by omega
    have hlt : i < original.elements.length := by omega
    rw [hfuel]
    rcases hgrown i s hinv with hsame | ⟨hcount, hlength⟩
    · have helement := List.getElem?_eq_getElem hlt
      obtain ⟨hthrow, hreturn⟩ := hbody i _ s helement hinv hsame
      rw [forLoop_next (by rw [hsame]; exact helement) (by rw [hsame])]
      cases hrun : body i original.elements[i] s with
      | mk exception s' =>
        cases exception with
        | some e => exact ⟨_, s', rfl, .thrown (hthrow e s' hrun)⟩
        | none => exact ih (i := i + 1) extra (by omega) (hreturn s' hrun)
    · have hcursor := Nat.ne_of_lt (Nat.lt_trans hlt hlength)
      exact ⟨_, s, forLoop_modified hcursor hcount, .modified (Nat.le_of_lt hlt) hinv⟩

end Ends

end FailFast

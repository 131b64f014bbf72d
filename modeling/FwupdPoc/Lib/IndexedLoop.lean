import Mathlib.Data.List.Basic

/-!
# Loops that stop at the first error

`forIndex` calls a body once for each index in turn and stops at the first status that is not `ok`.
Its body works on a state of its own and may fault. `forEach` is the loop over a list with a body
that always returns. `forIndex_sim` carries a relation between the two states, which may mention the
index, from one iteration to the whole loop, so an index-driven loop over any representation of a
list is the loop over the list.
-/

namespace Loop

variable {E S T α : Type} [DecidableEq E]

/-- Calls `body` for `left` indices from `index` on, until it returns a status other than `ok`. A
fault of the body is a fault of the loop. -/
def forIndex (ok : E) (body : Nat → S → Option (E × S)) : Nat → Nat → S → Option (E × S)
  | 0, _, s => some (ok, s)
  | left + 1, index, s =>
    (body index s).bind fun r =>
      if r.1 = ok then forIndex ok body left (index + 1) r.2 else some r

/-- Calls `body` for the elements of a list, until it returns a status other than `ok`. -/
def forEach (ok : E) (body : α → T → E × T) : List α → T → E × T
  | [], t => (ok, t)
  | a :: rest, t =>
    let r := body a t
    if r.1 = ok then forEach ok body rest r.2 else r

@[simp] theorem forEach_nil (ok : E) (body : α → T → E × T) (t : T) :
    forEach ok body [] t = (ok, t) := rfl

/-- The rest of the list is reached behind an `ok` only. -/
theorem forEach_cons (ok : E) (body : α → T → E × T) (a : α) (rest : List α) (t : T) :
    forEach ok body (a :: rest) t =
      if (body a t).1 = ok then forEach ok body rest (body a t).2 else body a t := rfl

/-- Where the body at an index does what the list's body does with the element of that index, the
two loops return the same status, and their states stay related, at the index the loop stopped
at. -/
theorem forIndex_sim (ok : E) {body : Nat → S → Option (E × S)} {body' : α → T → E × T}
    (R : Nat → S → T → Prop) :
    ∀ (l : List α) (start : Nat),
      (∀ i (hi : i < l.length) s t, R (start + i) s t →
        ∃ s', body (start + i) s = some ((body' l[i] t).1, s') ∧
          R (start + i + 1) s' (body' l[i] t).2) →
      ∀ s t, R start s t →
        ∃ s' stop, forIndex ok body l.length start s = some ((forEach ok body' l t).1, s') ∧
          R stop s' (forEach ok body' l t).2
  | [], start, _, s, _, h => ⟨s, start, rfl, h⟩
  | a :: rest, start, hbody, s, t, h => by
    obtain ⟨s', hs', hR⟩ := hbody 0 (by simp) s t h
    rw [Nat.add_zero] at hs' hR
    have hrest : ∀ i (hi : i < rest.length) s t, R (start + 1 + i) s t →
        ∃ s', body (start + 1 + i) s = some ((body' rest[i] t).1, s') ∧
          R (start + 1 + i + 1) s' (body' rest[i] t).2 := by
      intro i hi s t hst
      have hindex : start + 1 + i = start + (i + 1) := by omega
      rw [hindex] at hst ⊢
      exact hbody (i + 1) (by simpa using hi) s t hst
    rw [List.length_cons, forIndex, forEach_cons, hs', Option.bind_some]
    by_cases hok : (body' a t).1 = ok
    · rw [if_pos hok, List.getElem_cons_zero, if_pos hok]
      exact forIndex_sim ok R rest (start + 1) hrest s' _ hR
    · rw [if_neg hok, List.getElem_cons_zero, if_neg hok]
      exact ⟨s', start + 1, rfl, hR⟩

end Loop

import FwupdPoc.Lib.GrowingLoop

/-!
# Computations that end

A function with a fuel argument stands for a computation that may run forever: it returns `timeout`
where the fuel does not suffice. `Ends timeout f Q` says that the computation comes to an end: from
some fuel on the result is one and the same, it is not `timeout`, and a value that is returned
satisfies `Q`.

Computations that end are put together by `Ends.bind`. A loop over a list that its body may extend
ends if extending the list uses up a potential (`Ends.forEntries`); the induction is on the
potential and, where it stays the same, on the entries that are left.
-/

namespace Fuel

variable {E α β S : Type} {timeout : E}

/-- What a computation that ends may end with. -/
def Good (timeout : E) (Q : α → Prop) : Except E α → Prop
  | .ok a => Q a
  | .error e => e ≠ timeout

/-- The computation ends, and returns a value that satisfies `Q` if it returns one. -/
def Ends (timeout : E) (f : Nat → Except E α) (Q : α → Prop) : Prop :=
  ∃ r bound, (∀ fuel ≥ bound, f fuel = r) ∧ Good timeout Q r

theorem Ends.ok {Q : α → Prop} {a : α} (h : Q a) : Ends timeout (fun _ => .ok a) Q :=
  ⟨.ok a, 0, fun _ _ => rfl, h⟩

theorem Ends.error {Q : α → Prop} {e : E} (h : e ≠ timeout) :
    Ends timeout (fun _ => (.error e : Except E α)) Q :=
  ⟨.error e, 0, fun _ _ => rfl, h⟩

theorem Ends.mono {f : Nat → Except E α} {Q R : α → Prop} (h : Ends timeout f Q)
    (hQ : ∀ a, Q a → R a) : Ends timeout f R := by
  obtain ⟨r, bound, hrun, hgood⟩ := h
  refine ⟨r, bound, hrun, ?_⟩
  cases r with
  | ok a => exact hQ a hgood
  | error e => exact hgood

/-- What a computation returns satisfies whatever all its values do. -/
theorem Ends.and {f : Nat → Except E α} {Q R : α → Prop} (h : Ends timeout f Q)
    (hR : ∀ fuel a, f fuel = .ok a → R a) : Ends timeout f fun a => Q a ∧ R a := by
  obtain ⟨r, bound, hrun, hgood⟩ := h
  refine ⟨r, bound, hrun, ?_⟩
  cases r with
  | ok a => exact ⟨hgood, hR bound a (hrun bound (Nat.le_refl _))⟩
  | error e => exact hgood

/-- A computation that spends one unit of fuel first. -/
theorem Ends.succ {f : Nat → Except E α} {Q : α → Prop}
    (h : Ends timeout (fun fuel => f (fuel + 1)) Q) : Ends timeout f Q := by
  obtain ⟨r, bound, hrun, hgood⟩ := h
  refine ⟨r, bound + 1, fun fuel hfuel => ?_, hgood⟩
  obtain ⟨fuel, rfl⟩ : ∃ n, fuel = n + 1 := ⟨fuel - 1, by omega⟩
  exact hrun fuel (Nat.le_of_succ_le_succ hfuel)

/-- One computation behind another: `k` goes on as `g` with what `f` returns, and stops where `f`
does. -/
theorem Ends.bind {f : Nat → Except E α} {k : Nat → Except E β} {g : Nat → α → Except E β}
    {Q : α → Prop} {R : β → Prop} (h : Ends timeout f Q)
    (hok : ∀ fuel a, f fuel = .ok a → k fuel = g fuel a)
    (herror : ∀ fuel e, f fuel = .error e → k fuel = .error e)
    (hg : ∀ a, Q a → Ends timeout (fun fuel => g fuel a) R) : Ends timeout k R := by
  obtain ⟨r, bound, hrun, hgood⟩ := h
  cases r with
  | ok a =>
    obtain ⟨r', bound', hrun', hgood'⟩ := hg a hgood
    refine ⟨r', max bound bound', fun fuel hfuel => ?_, hgood'⟩
    rw [hok fuel a (hrun fuel (Nat.max_le.1 hfuel).1)]
    exact hrun' fuel (Nat.max_le.1 hfuel).2
  | error e => exact ⟨.error e, bound, fun fuel hfuel => herror fuel e (hrun fuel hfuel), hgood⟩

/-! ## Loops -/

/-- The body of a loop ends, does not raise the potential, and lowers it where it extends the
list. -/
def Spends (timeout : E) (list : S → List α) (potential : S → Nat) (limit : Nat)
    (body : Nat → Nat → α → S → Except E S) : Prop :=
  ∀ i a s, potential s ≤ limit → Ends timeout (fun fuel => body fuel i a s) fun s' =>
    potential s' ≤ potential s ∧ ((list s').length ≠ (list s).length → potential s' < potential s)

/-- The loop ends from any entry on, whether its steps and its body have the same fuel or not. -/
theorem forEntries_settles {list : S → List α} {potential : S → Nat} {limit : Nat}
    {body : Nat → Nat → α → S → Except E S} (h : Spends timeout list potential limit body)
    (i : Nat) (s : S) (hs : potential s ≤ limit) :
    ∃ r bound, (∀ fuel ≥ bound, ∀ steps ≥ bound,
        Growing.forEntries list (body fuel) timeout steps i s = r) ∧
      Good timeout (fun s' => potential s' ≤ potential s) r := by
  cases hentry : (list s)[i]? with
  | none =>
    refine ⟨.ok s, 1, fun fuel _ steps hsteps => ?_, Nat.le_refl _⟩
    obtain ⟨steps, rfl⟩ : ∃ n, steps = n + 1 := ⟨steps - 1, by omega⟩
    rw [Growing.forEntries, hentry]
  | some a =>
    obtain ⟨r, bound, hbody, hgood⟩ := h i a s hs
    cases r with
    | error e =>
      refine ⟨.error e, bound + 1, fun fuel hfuel steps hsteps => ?_, hgood⟩
      obtain ⟨steps, rfl⟩ : ∃ n, steps = n + 1 := ⟨steps - 1, by omega⟩
      simp only [Growing.forEntries, hentry, hbody fuel (Nat.le_of_succ_le hfuel)]
    | ok s₁ =>
      obtain ⟨hle, hspent⟩ := hgood
      have hlt := (List.getElem?_eq_some_iff.1 hentry).1
      obtain ⟨r, bound', hrest, hgood⟩ := forEntries_settles h (i + 1) s₁ (Nat.le_trans hle hs)
      refine ⟨r, max bound bound' + 1, fun fuel hfuel steps hsteps => ?_, ?_⟩
      · obtain ⟨steps, rfl⟩ : ∃ n, steps = n + 1 := ⟨steps - 1, by omega⟩
        simp only [Growing.forEntries, hentry, hbody fuel (by omega)]
        exact hrest fuel (by omega) steps (by omega)
      · cases r with
        | ok s' => exact Nat.le_trans hgood hle
        | error e => exact hgood
termination_by (potential s, (list s).length - i)
decreasing_by
  rcases Nat.lt_or_eq_of_le hle with hless | hsame
  · exact Prod.Lex.left _ _ hless
  · have hlength : (list s₁).length = (list s).length := by
      by_contra hne
      exact absurd hsame (Nat.ne_of_lt (hspent hne))
    rw [hsame, hlength]
    exact Prod.Lex.right _ (by omega)

/-- A loop over a list that its body may extend ends if extending the list uses up a potential. -/
theorem Ends.forEntries {list : S → List α} {potential : S → Nat} {limit : Nat}
    {body : Nat → Nat → α → S → Except E S} (h : Spends timeout list potential limit body)
    (i : Nat) (s : S) (hs : potential s ≤ limit) :
    Ends timeout (fun fuel => Growing.forEntries list (body fuel) timeout fuel i s)
      fun s' => potential s' ≤ potential s := by
  obtain ⟨r, bound, hrun, hgood⟩ := forEntries_settles h i s hs
  exact ⟨r, bound, fun fuel hfuel => hrun fuel hfuel fuel hfuel, hgood⟩

end Fuel

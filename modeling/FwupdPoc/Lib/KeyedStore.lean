import Mathlib.Data.Option.Basic

/-!
# Keyed stores and the last entry of a key

A `Store` maps keys to values and a `put` replaces what the key held. Filling a store from a list
of entries leaves at every key the value of the last entry that put one there
(`Store.get_fill`), which is `lastSome`, the last hit of a partial function in a list.

A store whose values may be stores again is read along a path of keys. `walk` is that reading for
any step function, and `walk_rel` carries a relation between two trees from one step to all paths.
-/

namespace Keyed

variable {α β γ K : Type}

/-! ## The last hit -/

/-- The last value of `f` in the list, if `f` has one. -/
def lastSome (f : α → Option β) (l : List α) : Option β := (l.filterMap f).getLast?

@[simp] theorem lastSome_nil (f : α → Option β) : lastSome f [] = none := rfl

/-- A hit further on in the list takes precedence. -/
theorem lastSome_cons (f : α → Option β) (a : α) (l : List α) :
    lastSome f (a :: l) = (lastSome f l).or (f a) := by
  unfold lastSome
  cases h : f a with
  | none => simp [h]
  | some b =>
    rw [List.filterMap_cons_some h, List.getLast?_cons]
    cases (l.filterMap f).getLast? <;> rfl

/-- The last hit is a hit. -/
theorem exists_of_lastSome {f : α → Option β} {l : List α} {b : β} (h : lastSome f l = some b) :
    ∃ a ∈ l, f a = some b :=
  List.mem_filterMap.1 (List.mem_of_getLast? h)

/-- There is no last hit where there is no hit. -/
theorem lastSome_eq_none {f : α → Option β} {l : List α} :
    lastSome f l = none ↔ ∀ a ∈ l, f a = none := by
  rw [lastSome, List.getLast?_eq_none_iff, List.filterMap_eq_nil_iff]

/-- The last hit of a composite is found by restricting the first part to what the second one
takes. -/
theorem lastSome_bind (f : α → Option β) (g : β → Option γ) (l : List α) :
    lastSome (fun a => (f a).bind g) l =
      (lastSome (fun a => (f a).filter fun b => (g b).isSome) l).bind g := by
  induction l with
  | nil => rfl
  | cons a l ih =>
    rw [lastSome_cons, lastSome_cons, ih]
    cases hl : lastSome (fun a => (f a).filter fun b => (g b).isSome) l with
    | none => cases hf : f a with
      | none => simp
      | some b => cases hg : g b <;> simp [Option.filter, hg]
    | some b =>
      obtain ⟨x, -, hx⟩ := exists_of_lastSome hl
      obtain ⟨c, hc⟩ := Option.isSome_iff_exists.1 (Option.filter_eq_some_iff.1 hx).2
      simp [hc]

/-- Where the last hit is kept by a filter, it is the last one kept. -/
theorem lastSome_filter {f : α → Option β} {p : β → Bool} {l : List α} {b : β}
    (h : lastSome f l = some b) (hp : p b = true) :
    lastSome (fun a => (f a).filter p) l = some b := by
  induction l with
  | nil => cases h
  | cons a l ih =>
    rw [lastSome_cons] at h ⊢
    cases hl : lastSome f l with
    | some c =>
      rw [hl, Option.some_or] at h
      rw [ih (hl.trans h), Option.some_or]
    | none =>
      rw [hl, Option.none_or] at h
      have hnone : lastSome (fun a => (f a).filter p) l = none :=
        lastSome_eq_none.2 fun x hx => by rw [lastSome_eq_none.1 hl x hx]; rfl
      rw [hnone, Option.none_or, h]
      simp [hp]

/-- The last hit does not change where at most one of two neighbours is a hit. -/
theorem lastSome_swap {f : α → Option β} {a b : α} (h : f a = none ∨ f b = none) (l : List α) :
    lastSome f (a :: b :: l) = lastSome f (b :: a :: l) := by
  simp only [lastSome_cons, Option.or_assoc]
  rcases h with h | h <;> rw [h] <;> simp

/-- Related hits at the head, and in the rest, are related hits. -/
theorem lastSome_cons_rel {R : β → γ → Prop} {f : α → Option β} {g : α → Option γ} {a b : α}
    {l m : List α} (hhead : Option.Rel R (f a) (g b))
    (hrest : Option.Rel R (lastSome f l) (lastSome g m)) :
    Option.Rel R (lastSome f (a :: l)) (lastSome g (b :: m)) := by
  rw [lastSome_cons, lastSome_cons]
  generalize lastSome f l = last at hrest ⊢
  generalize lastSome g m = last' at hrest ⊢
  cases hrest with
  | some h => exact .some h
  | none =>
    rw [Option.none_or, Option.none_or]
    exact hhead

/-! ## Stores -/

/-- A store of values under keys. -/
structure Store (S K V : Type) [DecidableEq K] where
  new : S
  put : S → K → V → S
  get : S → K → Option V
  /-- A new store is empty. -/
  get_new : ∀ k, get new k = none
  /-- A put replaces what its key held and nothing else. -/
  get_put : ∀ s k v k', get (put s k v) k' = if k' = k then some v else get s k'

namespace Store

variable {S V : Type} [DecidableEq K] (store : Store S K V)

/-- Puts a value under a key, if there is one. -/
def putSome (s : S) (k : K) : Option V → S
  | some v => store.put s k v
  | none => s

/-- Puts the value of every entry that has one, in order. -/
def fill (key : α → K) (value : α → Option V) (s : S) (l : List α) : S :=
  l.foldl (fun s a => store.putSome s (key a) (value a)) s

/-- An optional put is seen at its own key. -/
theorem get_putSome (s : S) (k : K) (v? : Option V) (k' : K) :
    store.get (store.putSome s k v?) k' = (if k = k' then v? else none).or (store.get s k') := by
  cases v? with
  | none => simp [putSome]
  | some v =>
    rw [putSome, store.get_put]
    by_cases hk : k = k'
    · simp [hk]
    · simp [hk, Ne.symm hk]

/-- A filled store holds at a key the value of the last entry that put one there. -/
theorem get_fill (key : α → K) (value : α → Option V) (k : K) :
    ∀ (l : List α) (s : S), store.get (store.fill key value s l) k =
      (lastSome (fun a => if key a = k then value a else none) l).or (store.get s k)
  | [], _ => rfl
  | a :: l, s => by
    rw [lastSome_cons, Option.or_assoc, ← store.get_putSome s (key a) (value a) k]
    exact get_fill key value k l _

end Store

/-! ## Paths -/

/-- Follows a path of keys, one step at a time. -/
def walk (step : α → K → Option α) : α → List K → Option α
  | a, [] => some a
  | a, k :: path => (step a k).bind (walk step · path)

@[simp] theorem walk_nil (step : α → K → Option α) (a : α) : walk step a [] = some a := rfl

@[simp] theorem walk_cons (step : α → K → Option α) (a : α) (k : K) (path : List K) :
    walk step a (k :: path) = (step a k).bind (walk step · path) := rfl

/-- Two trees whose related nodes have related children are related along every path. -/
theorem walk_rel {step : α → K → Option α} {step' : β → K → Option β} {R : α → β → Prop}
    (hstep : ∀ a b k, R a b → Option.Rel R (step a k) (step' b k)) :
    ∀ (path : List K) {a : α} {b : β}, R a b → Option.Rel R (walk step a path) (walk step' b path)
  | [], _, _, h => .some h
  | k :: path, a, b, h => by
    have hk := hstep a b k h
    rw [walk_cons, walk_cons]
    generalize step a k = child at hk ⊢
    generalize step' b k = child' at hk ⊢
    cases hk with
    | some h' => exact walk_rel hstep path h'
    | none => exact .none

end Keyed

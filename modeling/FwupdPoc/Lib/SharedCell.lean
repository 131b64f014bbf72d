import Mathlib.Data.List.Basic
import Mathlib.Logic.Function.Basic

/-!
# Updates of a shared cell

Threads update a cell without a lock: an update reads the cell in one step and writes it in a later
one, and the steps of different threads may come in any order. `run` is that machine for any update
function. What the cell holds is the effect of some of the updates that were written
(`run_eq_foldl`), one after the other in the order of the writes, each at most once
(`kept_sublist`), and it is the effect of all of them exactly if no write comes between the read and
the write of another update (`kept_eq_iff`).

The list of the updates in the cell is obtained from the machine itself, run over a cell that holds
the list of its updates (`append`).
-/

namespace SharedCell

variable {S A : Type}

/-! ## The machine -/

/-- A step of a thread: it begins an update and reads the cell, or writes the cell and ends it. -/
inductive Event (A : Type) where
  | read (thread : Nat) (update : A)
  | write (thread : Nat)

/-- The cell, and what the threads have read for the updates that they have begun. -/
structure State (S A : Type) where
  cell : S
  held : Nat → Option (A × S)

/-- A cell that no thread updates. -/
def State.idle (cell : S) : State S A := ⟨cell, fun _ => none⟩

/-- One step. A thread has one update at a time. -/
def step (f : A → S → S) (s : State S A) : Event A → Option (State S A)
  | .read thread update =>
    match s.held thread with
    | none => some { s with held := Function.update s.held thread (some (update, s.cell)) }
    | some _ => none
  | .write thread =>
    match s.held thread with
    | none => none
    | some (update, value) => some ⟨f update value, Function.update s.held thread none⟩

/-- A run. -/
def run (f : A → S → S) : List (Event A) → State S A → Option (State S A)
  | [], s => some s
  | event :: rest, s => (step f s event).bind (run f rest)

theorem run_cons {f : A → S → S} {event : Event A} {rest : List (Event A)} {s s' : State S A} :
    run f (event :: rest) s = some s' ↔ ∃ s₁, step f s event = some s₁ ∧ run f rest s₁ = some s' :=
  Option.bind_eq_some_iff

theorem step_read {f : A → S → S} {s s' : State S A} {thread : Nat} {update : A} :
    step f s (.read thread update) = some s' ↔ s.held thread = none ∧
      s' = { s with held := Function.update s.held thread (some (update, s.cell)) } := by
  rw [step]
  cases s.held thread with
  | none => simp [eq_comm]
  | some held => simp

theorem step_write {f : A → S → S} {s s' : State S A} {thread : Nat} :
    step f s (.write thread) = some s' ↔ ∃ update value, s.held thread = some (update, value) ∧
      s' = ⟨f update value, Function.update s.held thread none⟩ := by
  rw [step]
  cases s.held thread with
  | none => simp
  | some held =>
    obtain ⟨update, value⟩ := held
    simp [eq_comm]

/-! ## The updates in the cell -/

/-- A cell that holds the list of its updates. -/
def append (update : A) (updates : List A) : List A := updates ++ [update]

/-- What a list of updates makes of a cell. -/
def applyAll (f : A → S → S) (cell : S) (updates : List A) : S :=
  updates.foldl (fun value update => f update value) cell

theorem applyAll_append (f : A → S → S) (cell : S) (updates : List A) (update : A) :
    applyAll f cell (append update updates) = f update (applyAll f cell updates) := by
  simp [applyAll, append]

/-- The state with a list of updates in place of each value, which they make of `cell`. -/
def Tracks (f : A → S → S) (cell : S) (s : State S A) (k : State (List A) A) : Prop :=
  s.cell = applyAll f cell k.cell ∧
    ∀ thread, s.held thread = (k.held thread).map (Prod.map id (applyAll f cell))

theorem Tracks.held_update {f : A → S → S} {cell : S} {s : State S A} {k : State (List A) A}
    (h : Tracks f cell s k) (thread : Nat) (held : Option (A × List A)) (other : Nat) :
    Function.update s.held thread (held.map (Prod.map id (applyAll f cell))) other =
      (Function.update k.held thread held other).map (Prod.map id (applyAll f cell)) := by
  by_cases hother : other = thread
  · subst hother
    rw [Function.update_self, Function.update_self]
  · rw [Function.update_of_ne hother, Function.update_of_ne hother, h.2]

/-- A step is a step of the lists of updates. -/
theorem step_tracks {f : A → S → S} {cell : S} {s s' : State S A} {k : State (List A) A}
    (h : Tracks f cell s k) {event : Event A} (hstep : step f s event = some s') :
    ∃ k', step append k event = some k' ∧ Tracks f cell s' k' := by
  cases event with
  | read thread update =>
    obtain ⟨hidle, rfl⟩ := step_read.1 hstep
    rw [h.2, Option.map_eq_none_iff] at hidle
    refine ⟨_, step_read.2 ⟨hidle, rfl⟩, h.1, fun other => ?_⟩
    have hheld := h.held_update thread (some (update, k.cell)) other
    rwa [Option.map_some, Prod.map_apply, ← h.1] at hheld
  | write thread =>
    obtain ⟨update, value, hheld, rfl⟩ := step_write.1 hstep
    rw [h.2, Option.map_eq_some_iff] at hheld
    obtain ⟨⟨update', updates⟩, hheld, hpair⟩ := hheld
    cases hpair
    refine ⟨_, step_write.2 ⟨update', updates, hheld, rfl⟩, ?_, fun other => ?_⟩
    · exact (applyAll_append f cell updates update').symm
    · exact h.held_update thread none other

/-- A run is a run of the lists of updates. -/
theorem run_tracks {f : A → S → S} {cell : S} :
    ∀ {events : List (Event A)} {s s' : State S A} {k : State (List A) A}, Tracks f cell s k →
      run f events s = some s' → ∃ k', run append events k = some k' ∧ Tracks f cell s' k'
  | [], s, s', k, h, hrun => by
    cases hrun
    exact ⟨k, rfl, h⟩
  | event :: rest, s, s', k, h, hrun => by
    obtain ⟨s₁, hstep, hrest⟩ := run_cons.1 hrun
    obtain ⟨k₁, hstep', h₁⟩ := step_tracks h hstep
    obtain ⟨k', hrest', h'⟩ := run_tracks h₁ hrest
    exact ⟨k', run_cons.2 ⟨k₁, hstep', hrest'⟩, h'⟩

/-- The cell holds the effect of a list of updates, which is found by running the machine on it. -/
theorem run_eq_foldl {f : A → S → S} {cell : S} {events : List (Event A)} {s : State S A}
    (hrun : run f events (.idle cell) = some s) :
    ∃ k, run append events (.idle []) = some k ∧ s.cell = applyAll f cell k.cell := by
  have hstart : Tracks f cell (State.idle cell) (State.idle []) := ⟨rfl, fun _ => rfl⟩
  obtain ⟨k, hk, h⟩ := run_tracks hstart hrun
  exact ⟨k, hk, h.1⟩

/-! ## The updates that are lost -/

/-- The updates in the order of their writes, where `pending` are those that have been begun. -/
def written : List (Event A) → (Nat → Option A) → List A
  | [], _ => []
  | .read thread update :: rest, pending =>
    written rest (Function.update pending thread (some update))
  | .write thread :: rest, pending =>
    (pending thread).toList ++ written rest (Function.update pending thread none)

/-- Every write is made by a thread that has read what the cell holds: `fresh` are the threads that
no write has come behind the read of. -/
def Exclusive : List (Event A) → (Nat → Bool) → Prop
  | [], _ => True
  | .read thread _ :: rest, fresh => Exclusive rest (Function.update fresh thread true)
  | .write thread :: rest, fresh => fresh thread = true ∧ Exclusive rest fun _ => false

instance Exclusive.decidable : ∀ (events : List (Event A)) (fresh : Nat → Bool),
    Decidable (Exclusive events fresh)
  | [], _ => isTrue trivial
  | .read thread _ :: rest, fresh => Exclusive.decidable rest (Function.update fresh thread true)
  | .write _ :: rest, _ => @instDecidableAnd _ _ _ (Exclusive.decidable rest fun _ => false)

/-- What is known between two steps, where `all` are the updates written so far: the cell and the
copies hold some of them, a fresh copy those in the cell, and one that is not fresh lacks some. -/
structure Inv (k : State (List A) A) (all : List A) (fresh : Nat → Bool) : Prop where
  cell : k.cell.Sublist all
  copy : ∀ thread update updates, k.held thread = some (update, updates) → updates.Sublist all
  ofFresh : ∀ thread update updates, k.held thread = some (update, updates) → fresh thread = true →
    updates = k.cell
  ofStale : ∀ thread update updates, k.held thread = some (update, updates) → fresh thread = false →
    updates.length < all.length

theorem Inv.idle (fresh : Nat → Bool) : Inv (State.idle ([] : List A)) [] fresh where
  cell := .slnil
  copy := by simp [State.idle]
  ofFresh := by simp [State.idle]
  ofStale := by simp [State.idle]

/-- What a thread holds behind a step of a thread. -/
theorem held_of_update {held : Nat → Option (A × List A)} {thread other : Nat}
    {new : Option (A × List A)} {r : A × List A}
    (h : Function.update held thread new other = some r) :
    other = thread ∧ new = some r ∨ other ≠ thread ∧ held other = some r := by
  by_cases hother : other = thread
  · subst hother
    rw [Function.update_self] at h
    exact .inl ⟨rfl, h⟩
  · rw [Function.update_of_ne hother] at h
    exact .inr ⟨hother, h⟩

theorem Inv.read {k : State (List A) A} {all : List A} {fresh : Nat → Bool} (h : Inv k all fresh)
    (thread : Nat) (update : A) :
    Inv { k with held := Function.update k.held thread (some (update, k.cell)) } all
      (Function.update fresh thread true) where
  cell := h.cell
  copy := by
    intro other u updates hheld
    rcases held_of_update hheld with ⟨-, hnew⟩ | ⟨-, hold⟩
    · cases hnew
      exact h.cell
    · exact h.copy other u updates hold
  ofFresh := by
    intro other u updates hheld hfresh
    rcases held_of_update hheld with ⟨-, hnew⟩ | ⟨hother, hold⟩
    · cases hnew
      rfl
    · rw [Function.update_of_ne hother] at hfresh
      exact h.ofFresh other u updates hold hfresh
  ofStale := by
    intro other u updates hheld hstale
    rcases held_of_update hheld with ⟨rfl, -⟩ | ⟨hother, hold⟩
    · rw [Function.update_self] at hstale
      cases hstale
    · rw [Function.update_of_ne hother] at hstale
      exact h.ofStale other u updates hold hstale

theorem Inv.write {k : State (List A) A} {all : List A} {fresh : Nat → Bool} (h : Inv k all fresh)
    {thread : Nat} {update : A} {updates : List A}
    (hheld : k.held thread = some (update, updates)) :
    Inv ⟨append update updates, Function.update k.held thread none⟩ (all ++ [update])
      fun _ => false where
  cell := (h.copy thread update updates hheld).append (List.Sublist.refl _)
  copy := by
    intro other u copied hother
    rcases held_of_update hother with ⟨-, hnew⟩ | ⟨-, hold⟩
    · cases hnew
    · exact (h.copy other u copied hold).trans (List.sublist_append_left _ _)
  ofFresh := by
    intro _ _ _ _ hfresh
    cases hfresh
  ofStale := by
    intro other u copied hother _
    rcases held_of_update hother with ⟨-, hnew⟩ | ⟨-, hold⟩
    · cases hnew
    · have := (h.copy other u copied hold).length_le
      rw [List.length_append, List.length_singleton]
      omega

/-- A write leaves all updates in the cell exactly if all of them were there and its thread had
read them. -/
theorem Inv.write_complete {k : State (List A) A} {all : List A} {fresh : Nat → Bool}
    (h : Inv k all fresh) {thread : Nat} {update : A} {updates : List A}
    (hheld : k.held thread = some (update, updates)) :
    append update updates = all ++ [update] ↔ k.cell = all ∧ fresh thread = true := by
  rw [append, List.append_cancel_right_eq]
  cases hfresh : fresh thread with
  | true => rw [h.ofFresh thread update updates hheld hfresh, and_iff_left rfl]
  | false =>
    have hshort := h.ofStale thread update updates hheld hfresh
    refine iff_of_false ?_ (by simp)
    rintro rfl
    exact Nat.lt_irrefl _ hshort

/-- The updates in the cell are some of those written, and all of them exactly if none has been lost
before and every write is made by a thread that has read what the cell holds. -/
theorem run_complete :
    ∀ {events : List (Event A)} {k k' : State (List A) A} {all : List A} {fresh : Nat → Bool},
      Inv k all fresh → run append events k = some k' →
      k'.cell.Sublist (all ++ written events fun thread => (k.held thread).map Prod.fst) ∧
        (k'.cell = all ++ written events (fun thread => (k.held thread).map Prod.fst) ↔
          k.cell = all ∧ Exclusive events fresh)
  | [], k, k', all, fresh, h, hrun => by
    cases hrun
    rw [written, List.append_nil]
    exact ⟨h.cell, (and_iff_left trivial).symm⟩
  | .read thread update :: rest, k, k', all, fresh, h, hrun => by
    obtain ⟨k₁, hstep, hrest⟩ := run_cons.1 hrun
    obtain ⟨-, rfl⟩ := step_read.1 hstep
    have hpending : (fun other => (Function.update k.held thread (some (update, k.cell)) other).map
        Prod.fst) = Function.update (fun other => (k.held other).map Prod.fst) thread
          (some update) := by
      funext other
      by_cases hother : other = thread
      · subst hother
        rw [Function.update_self, Function.update_self, Option.map_some]
      · rw [Function.update_of_ne hother, Function.update_of_ne hother]
    have ih := run_complete (h.read thread update) hrest
    rw [hpending] at ih
    exact ih
  | .write thread :: rest, k, k', all, fresh, h, hrun => by
    obtain ⟨k₁, hstep, hrest⟩ := run_cons.1 hrun
    obtain ⟨update, updates, hheld, rfl⟩ := step_write.1 hstep
    have hpending : (fun other => (Function.update k.held thread none other).map Prod.fst) =
        Function.update (fun other => (k.held other).map Prod.fst) thread none := by
      funext other
      by_cases hother : other = thread
      · subst hother
        rw [Function.update_self, Function.update_self, Option.map_none]
      · rw [Function.update_of_ne hother, Function.update_of_ne hother]
    have hwritten : all ++ written (.write thread :: rest)
        (fun other => (k.held other).map Prod.fst) = (all ++ [update]) ++ written rest
          (Function.update (fun other => (k.held other).map Prod.fst) thread none) := by
      simp [written, hheld]
    have ih := run_complete (h.write hheld) hrest
    rw [hpending, ← hwritten] at ih
    refine ⟨ih.1, ih.2.trans ?_⟩
    rw [h.write_complete hheld, Exclusive, and_assoc]

/-- Nothing begun. -/
def noneBegun : Nat → Option A := fun _ => none

/-- No thread has read. -/
def noneFresh : Nat → Bool := fun _ => false

/-- The updates in the cell are some of those written, in the order of the writes. -/
theorem kept_sublist {events : List (Event A)} {k : State (List A) A}
    (hrun : run append events (.idle []) = some k) : k.cell.Sublist (written events noneBegun) :=
  (run_complete (Inv.idle noneFresh) hrun).1

/-- They are all of them exactly if every write is made by a thread that has read what the cell
holds. -/
theorem kept_eq_iff {events : List (Event A)} {k : State (List A) A}
    (hrun : run append events (.idle []) = some k) :
    k.cell = written events noneBegun ↔ Exclusive events noneFresh :=
  (run_complete (Inv.idle noneFresh) hrun).2.trans (and_iff_right rfl)

end SharedCell

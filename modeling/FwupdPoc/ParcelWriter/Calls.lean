import FwupdPoc.ParcelWriter.Refinement

/-!
# The calls of a run

Which calls `poc_parcel_write_variant` makes on the parcel. Without failures they are `writes`. With
failures some of them are skipped, never reordered, and each returns what its position says
(`Emits`). The relation composes over the ways in which the code puts calls together: a call whose
status is dropped, a call made whatever the one before it returned, and a call made only behind
`STATUS_OK`.
-/

namespace FwupdPoc

open Loop

variable {B : Type}

/-! ## Runs of calls -/

/-- A run of the function makes, in order, calls out of `ws`; each returns the status of its
position on the parcel; and if all of them succeed, they are `ws` and the function succeeds. -/
def Emits (fate : Nat → BinderStatus) (f : Parcel B → BinderStatus × Parcel B)
    (ws : List (Write B)) : Prop :=
  ∀ p, ∃ made : List (Write B × BinderStatus),
    (f p).2 = { p with calls := p.calls ++ made } ∧
    made.map Prod.snd = (List.range' p.calls.length made.length).map fate ∧
    (made.map Prod.fst).Sublist ws ∧
    ((∀ call ∈ made, call.2 = statusOk) → (f p).1 = statusOk ∧ made.map Prod.fst = ws)

variable {fate : Nat → BinderStatus} {f g : Parcel B → BinderStatus × Parcel B}
  {ws ws' : List (Write B)}

/-- A run without calls. -/
theorem Emits.none : Emits fate (fun p : Parcel B => (statusOk, p)) [] := by
  intro p
  refine ⟨[], by simp, rfl, List.Sublist.refl _, ?_⟩
  exact fun _ => ⟨rfl, rfl⟩

/-- One call. -/
theorem Emits.write (w : Write B) : Emits fate (Parcel.write fate w) [w] := by
  intro p
  refine ⟨[(w, fate p.calls.length)], rfl, rfl, List.Sublist.refl _, ?_⟩
  intro h
  exact ⟨h _ (List.mem_singleton_self _), rfl⟩

/-- A run whose status is dropped. -/
theorem Emits.ignored (hf : Emits fate f ws) : Emits fate (fun p => (statusOk, (f p).2)) ws := by
  intro p
  obtain ⟨made, hmade, hfate, hsub, hok⟩ := hf p
  exact ⟨made, hmade, hfate, hsub, fun h => ⟨rfl, (hok h).2⟩⟩

/-- The statuses of two runs, one after the other, are those of their positions. -/
theorem fate_append {made made' : List (Write B × BinderStatus)} {n : Nat}
    (h : made.map Prod.snd = (List.range' n made.length).map fate)
    (h' : made'.map Prod.snd = (List.range' (n + made.length) made'.length).map fate) :
    (made ++ made').map Prod.snd = (List.range' n (made ++ made').length).map fate := by
  rw [List.map_append, h, h', List.length_append, ← List.map_append, List.range'_append_1]

/-- A run after another one, whatever the first one returned. -/
theorem Emits.andThen (hf : Emits fate f ws) (hg : Emits fate g ws') :
    Emits fate (fun p => g (f p).2) (ws ++ ws') := by
  intro p
  obtain ⟨made, hmade, hfate, hsub, hok⟩ := hf p
  obtain ⟨made', hmade', hfate', hsub', hok'⟩ := hg (f p).2
  rw [hmade] at hmade' hfate'
  rw [List.length_append] at hfate'
  refine ⟨made ++ made', ?_, fate_append hfate hfate', ?_, ?_⟩
  · dsimp only
    rw [hmade, hmade', List.append_assoc]
  · rw [List.map_append]
    exact hsub.append hsub'
  · intro h
    obtain ⟨-, hws⟩ := hok fun call hcall => h call (List.mem_append_left _ hcall)
    obtain ⟨hstatus, hws'⟩ := hok' fun call hcall => h call (List.mem_append_right _ hcall)
    rw [List.map_append, hws, hws']
    exact ⟨hstatus, rfl⟩

/-- A run after another one that succeeds. -/
theorem Emits.andThenOk (hf : Emits fate f ws) (hg : Emits fate g ws') :
    Emits fate (fun p => if (f p).1 = statusOk then g (f p).2 else f p) (ws ++ ws') := by
  intro p
  by_cases hstatus : (f p).1 = statusOk
  · simp only [if_pos hstatus]
    exact hf.andThen hg p
  · simp only [if_neg hstatus]
    obtain ⟨made, hmade, hfate, hsub, hok⟩ := hf p
    refine ⟨made, hmade, hfate, hsub.trans (List.sublist_append_left _ _), ?_⟩
    exact fun h => absurd (hok h).1 hstatus

/-- A run for each element of a list. -/
theorem Emits.forEach {α : Type} {body : α → Parcel B → BinderStatus × Parcel B}
    {calls : α → List (Write B)} (hbody : ∀ a, Emits fate (body a) (calls a)) (l : List α) :
    Emits fate (forEach statusOk body l) (l.flatMap calls) := by
  induction l with
  | nil => exact Emits.none
  | cons a rest ih => exact (hbody a).andThenOk ih

/-! ## The calls of a variant -/

/-- The calls of an encoding when none fails. -/
def Encoding.writes : Encoding B → List (Write B)
  | .ignored w | .returned w => [w]
  | .flagged bundle => [.int32 1, .bundle bundle]
  | .elements | .nothing => []

/-- The calls that encode a variant when none fails. -/
def writes (platform : Platform B) : (t : GVariantType) → GValue t → List (Write B)
  | .array e, v =>
    match encoding platform ⟨.array e, v⟩ with
    | .elements =>
      .arraySize v.passedItems.length :: v.passedItems.flatMap (writes platform e)
    | leaf => leaf.writes
  | t, v => (encoding platform ⟨t, v⟩).writes

theorem writes_leaf {platform : Platform B} {t : GVariantType} {v : GValue t}
    (h : encoding platform ⟨t, v⟩ ≠ .elements) :
    writes platform t v = (encoding platform ⟨t, v⟩).writes := by
  cases t with
  | array e =>
    rw [writes]
    split
    · contradiction
    · rfl
  | _ => rfl

theorem writes_elements {platform : Platform B} {e : GVariantType} {v : GValue (.array e)}
    (h : encoding platform ⟨_, v⟩ = .elements) :
    writes platform (.array e) v =
      .arraySize v.passedItems.length :: v.passedItems.flatMap (writes platform e) := by
  rw [writes, h]

/-- An encoding makes its calls. -/
theorem Encoding.run_emits (fate : Nat → BinderStatus) (enc : Encoding B) :
    Emits fate (enc.run fate) enc.writes := by
  cases enc with
  | ignored w => exact (Emits.write w).ignored
  | returned w => exact Emits.write w
  | flagged bundle => exact (Emits.write (.int32 1)).andThen (Emits.write (.bundle bundle))
  | elements => exact Emits.none
  | nothing => exact Emits.none

/-- The function makes the calls of the variant. -/
theorem writeVariant_emits (platform : Platform B) :
    ∀ (t : GVariantType) (v : GValue t),
      Emits platform.fate (writeVariant platform t v) (writes platform t v) := by
  intro t
  induction t with
  | array e ih =>
    intro v
    by_cases h : encoding platform ⟨_, v⟩ = .elements
    · have hsize : Emits (B := B) platform.fate _ _ := Emits.write (.arraySize v.passedItems.length)
      have harray := (hsize.andThenOk (Emits.forEach ih v.passedItems)).ignored
      rw [funext (writeVariant_elements h), writes_elements h]
      exact harray
    · rw [funext (writeVariant_leaf h), writes_leaf h]
      exact Encoding.run_emits _ _
  | _ => exact fun v => Encoding.run_emits _ _

end FwupdPoc

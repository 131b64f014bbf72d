import FwupdPoc.ParcelWriter.Calls
import FwupdPoc.Ndk.Reference

/-!
# Failed calls

What `poc_parcel_write_variant` answers when calls on the parcel fail. It should answer with the
status of the first failed call and make none after it. The code does so for the calls whose status
it returns, the array of booleans and the bundle behind the nullable flag, and it drops the status
of every other call, that of `AParcel_writeParcelableArray` and with it everything an element writer
returned among them.
-/

namespace FwupdPoc

variable {B : Type}

/-- The function succeeds exactly if every call it made did; otherwise the first call that failed
was the last one made, and its status is returned. -/
def ErrorsPropagate (platform : Platform B) (v : GVariant) (p : Parcel B) : Prop :=
  ∃ status p' made,
    writeVariantToParcel platform v p = some (status, p') ∧ p'.calls = p.calls ++ made ∧
    (status = statusOk ↔ ∀ call ∈ made, call.2 = statusOk) ∧
    ∀ before failed after, made = before ++ failed :: after →
      (∀ call ∈ before, call.2 = statusOk) → failed.2 ≠ statusOk →
      status = failed.2 ∧ after = []

/-- How many of the calls for a variant, counted from the first one, have their status dropped. -/
def droppedCalls (platform : Platform B) (v : GVariant) : Nat :=
  match encoding platform v with
  | .returned _ => 0
  | .flagged _ => 1
  | _ => (writes platform v.type v.value).length

/-- Where no call fails, errors propagate. -/
theorem errorsPropagate_of_ok {platform : Platform B} {v : GVariant} {p : Parcel B}
    (h : ∀ i < (writes platform v.type v.value).length,
      platform.fate (p.calls.length + i) = statusOk) : ErrorsPropagate platform v p := by
  obtain ⟨made, hmade, hfate, hsub, hok⟩ := writeVariant_emits platform v.type v.value p
  have hlength : made.length ≤ (writes platform v.type v.value).length := by
    simpa using hsub.length_le
  have hall : ∀ call ∈ made, call.2 = statusOk := by
    intro call hcall
    have hmem : call.2 ∈ made.map Prod.snd := List.mem_map_of_mem hcall
    rw [hfate] at hmem
    obtain ⟨k, hk, hcallk⟩ := List.mem_map.1 hmem
    obtain ⟨hle, hlt⟩ := List.mem_range'_1.1 hk
    have hat := h (k - p.calls.length) (by omega)
    rw [Nat.add_sub_cancel' hle] at hat
    rw [← hcallk, hat]
  refine ⟨_, _, made, writeVariantToParcel_eq platform v p, by rw [hmade], ?_, ?_⟩
  · exact iff_of_true (hok hall).1 hall
  · rintro before failed after rfl - hfailed
    exact absurd (hall failed (by simp)) hfailed

/-- Where a run makes one call and returns its status, errors propagate. -/
theorem errorsPropagate_returned {platform : Platform B} {v : GVariant} {w : Write B}
    (h : encoding platform v = .returned w) (p : Parcel B) : ErrorsPropagate platform v p := by
  have hleaf : encoding platform v ≠ .elements := by simp [h]
  have hrun := writeVariant_leaf hleaf p
  rw [h] at hrun
  refine ⟨_, _, [(w, platform.fate p.calls.length)],
    writeVariantToParcel_eq platform v p, by rw [hrun]; rfl, ?_, ?_⟩
  · rw [hrun]
    simp [Encoding.run, Parcel.write]
  · intro before failed after hmade hbefore hfailed
    obtain ⟨rfl, rfl, rfl⟩ : before = [] ∧ (w, platform.fate p.calls.length) = failed ∧
        after = [] := by
      cases before with
      | nil => simpa using hmade
      | cons c before => simp at hmade
    rw [hrun]
    exact ⟨rfl, rfl⟩

/-- Where a flag is written and then a bundle whose status is returned, errors propagate exactly
where the flag is written. -/
theorem errorsPropagate_flagged {platform : Platform B} {v : GVariant} {b : B}
    (h : encoding platform v = .flagged b) (p : Parcel B) :
    ErrorsPropagate platform v p ↔ platform.fate p.calls.length = statusOk := by
  have hleaf : encoding platform v ≠ .elements := by simp [h]
  have hrun := writeVariant_leaf hleaf p
  rw [h] at hrun
  have hreturn : writeVariantToParcel platform v p =
      some (platform.fate (p.calls.length + 1),
        { p with calls := p.calls ++ [(.int32 1, platform.fate p.calls.length),
          (.bundle b, platform.fate (p.calls.length + 1))] }) := by
    rw [writeVariantToParcel_eq]
    refine congrArg some (hrun.trans ?_)
    simp [Encoding.run, Parcel.write]
  constructor
  · rintro ⟨status, p', made, hstatus, hcalls, hiff, hfirst⟩
    obtain ⟨rfl, rfl⟩ := Prod.mk.inj (Option.some.inj (hreturn.symm.trans hstatus))
    obtain rfl := List.append_cancel_left hcalls
    by_contra hflag
    have := (hfirst [] _ _ rfl (by simp) hflag).2
    simp at this
  · intro hflag
    refine ⟨_, _, _, hreturn, rfl, ?_, ?_⟩
    · simp [hflag]
    · intro before failed after hmade hbefore hfailed
      cases before with
      | nil =>
        obtain ⟨rfl, -⟩ := List.cons.inj hmade
        exact absurd hflag hfailed
      | cons c before =>
        obtain ⟨rfl, rfl, rfl⟩ : before = [] ∧
            (Write.bundle b, platform.fate (p.calls.length + 1)) = failed ∧ after = [] := by
          have htail := (List.cons.inj hmade).2
          cases before with
          | nil => simpa using htail
          | cons c before => simp at htail
        exact ⟨rfl, rfl⟩

/-- Where the function drops all statuses, errors propagate only where there are none. -/
theorem ok_of_errorsPropagate {platform : Platform B} {v : GVariant} {p : Parcel B}
    (hdropped : (writeVariant platform v.type v.value p).1 = statusOk)
    (h : ErrorsPropagate platform v p) :
    ∀ i < (writes platform v.type v.value).length,
      platform.fate (p.calls.length + i) = statusOk := by
  obtain ⟨status, p', made, hstatus, hcalls, hiff, -⟩ := h
  obtain ⟨made', hmade, hfate, -, hok⟩ := writeVariant_emits platform v.type v.value p
  rw [writeVariantToParcel_eq, Option.some.injEq] at hstatus
  rw [hstatus] at hdropped hmade hok
  have hsame : p.calls ++ made = p.calls ++ made' :=
    hcalls.symm.trans (congrArg Parcel.calls hmade)
  obtain rfl := List.append_cancel_left hsame
  have hall := hiff.1 hdropped
  obtain ⟨-, hwrites⟩ := hok hall
  intro i hi
  rw [← hwrites, List.length_map] at hi
  have hat := congrArg (·[i]?) hfate
  simp only [List.getElem?_map, List.getElem?_eq_getElem hi, Option.map_some,
    List.getElem?_range' hi, Nat.one_mul, Option.some.injEq] at hat
  rw [← hat]
  exact hall _ (List.getElem_mem hi)

/-- **Errors propagate out of the function exactly when no call fails whose status it drops.** -/
theorem errorsPropagate_iff (platform : Platform B) (v : GVariant) (p : Parcel B) :
    ErrorsPropagate platform v p ↔
      ∀ i < droppedCalls platform v, platform.fate (p.calls.length + i) = statusOk := by
  unfold droppedCalls
  cases h : encoding platform v with
  | returned w => exact iff_of_true (errorsPropagate_returned h p) (by simp)
  | flagged b =>
    rw [errorsPropagate_flagged h p]
    simp
  | elements =>
    obtain ⟨t, value⟩ := v
    obtain ⟨e, rfl⟩ := type_of_elements h
    refine ⟨ok_of_errorsPropagate ?_, errorsPropagate_of_ok⟩
    rw [writeVariant_elements h]
  | ignored w | nothing =>
    refine ⟨ok_of_errorsPropagate ?_, errorsPropagate_of_ok⟩
    rw [writeVariant_leaf (by simp [h]), h]
    rfl

/-- `[[true]]`. -/
def nestedBooleans : GVariant :=
  ⟨.array (.array .boolean), .array (.cons (.array (.cons (.boolean true) .nil)) .nil)⟩

/-- A platform on which call number `n` on a parcel returns `STATUS_NO_MEMORY`. -/
def failingAt (n : Nat) : Platform MapBundle :=
  ⟨mapBundle, .leftToRight, fun k => if k = n then -12 else statusOk⟩

/-- The array inside is not written, its status gets lost on the way out, and the function answers
`STATUS_OK`. -/
theorem nestedBooleans_dropped :
    writeVariantToParcel (failingAt 1) nestedBooleans ⟨[], []⟩ =
        some (statusOk, ⟨[], [(.arraySize 1, statusOk), (.boolArray [true], -12)]⟩) ∧
      ¬ ErrorsPropagate (failingAt 1) nestedBooleans ⟨[], []⟩ := by
  have hrun : writeVariantToParcel (failingAt 1) nestedBooleans ⟨[], []⟩ =
      some (statusOk, ⟨[], [(.arraySize 1, statusOk), (.boolArray [true], -12)]⟩) := rfl
  refine ⟨hrun, ?_⟩
  rintro ⟨status, p', made, hstatus, hcalls, hiff, -⟩
  obtain ⟨rfl, rfl⟩ := Prod.mk.inj (Option.some.inj (hrun.symm.trans hstatus))
  obtain rfl := hcalls
  exact absurd (hiff.1 rfl (.boolArray [true], -12) (by simp)) (by decide)

end FwupdPoc

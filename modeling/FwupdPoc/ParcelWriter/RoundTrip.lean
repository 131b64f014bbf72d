import FwupdPoc.ParcelWriter.Reader
import FwupdPoc.Ndk.Reference

/-!
# Round trips and accepted types

What `poc_parcel_write_variant` promises about the bytes behind a run in which every call on the
parcel succeeds: a variant of a supported type is read back as it is (`RoundTrips`), and `STATUS_OK`
is answered for complete encodings only (`Accepts`). Both come down to comparing trees, since the
reader finds the tree that the code hands over and nothing else (`recovers_passed`).
-/

namespace FwupdPoc

open Wire

variable {B : Type}

/-! ## Runs in which every call succeeds -/

/-- Every call made between two states of a parcel has succeeded. -/
def AllSucceed (p p' : Parcel B) : Prop :=
  ∀ call ∈ p'.calls.drop p.calls.length, call.2 = statusOk

/-- The bytes between two states of a parcel. -/
def appended (format : ParcelFormat B) (p p' : Parcel B) : List Byte :=
  (p'.data format).drop (p.data format).length

/-- The parcel has grown at its end, by an encoding that a reader for the type of the variant
consumes as a whole and takes for the given value. -/
def ReadsAs (format : ParcelFormat B) (v : GVariant) (p p' : Parcel B) (value : ParcelValue B) :
    Prop :=
  p'.data format = p.data format ++ appended format p p' ∧
    readVariant format v.type (appended format p p') = some (value, [])

/-- Calls that have all succeeded have appended their encodings. -/
theorem data_append (format : ParcelFormat B) (p : Parcel B)
    {made : List (Write B × BinderStatus)} (h : ∀ call ∈ made, call.2 = statusOk) :
    Parcel.data format { p with calls := p.calls ++ made } =
      p.data format ++ (made.map Prod.fst).flatMap (Write.bytes format) := by
  have hbytes : (made.flatMap fun call =>
      if call.2 = statusOk then call.1.bytes format else []) =
      (made.map Prod.fst).flatMap (Write.bytes format) := by
    rw [List.flatMap_map]
    exact List.flatMap_congr fun call hcall => if_pos (h call hcall)
  rw [Parcel.data, Parcel.data, List.flatMap_append, hbytes, List.append_assoc]

/-- A run in which every call succeeds answers `STATUS_OK` and appends the calls of the variant. -/
theorem writeVariant_allSucceed (platform : Platform B) (format : ParcelFormat B) (v : GVariant)
    (p : Parcel B) (h : AllSucceed p (writeVariant platform v.type v.value p).2) :
    (writeVariant platform v.type v.value p).1 = statusOk ∧
      (writeVariant platform v.type v.value p).2.data format =
        p.data format ++ (writes platform v.type v.value).flatMap (Write.bytes format) := by
  obtain ⟨made, hmade, -, -, hok⟩ := writeVariant_emits platform v.type v.value p
  rw [AllSucceed, hmade, List.drop_left] at h
  obtain ⟨hstatus, hwrites⟩ := hok h
  rw [hmade, data_append format p h, hwrites]
  exact ⟨hstatus, rfl⟩

/-- Where every call on parcels succeeds, every call of a run does. -/
theorem allSucceed_of_fate (platform : Platform B) (h : ∀ k, platform.fate k = statusOk)
    (v : GVariant) (p : Parcel B) : AllSucceed p (writeVariant platform v.type v.value p).2 := by
  obtain ⟨made, hmade, hfate, -, -⟩ := writeVariant_emits platform v.type v.value p
  rw [AllSucceed, hmade, List.drop_left]
  intro call hcall
  have hmem : call.2 ∈ made.map Prod.snd := List.mem_map_of_mem hcall
  rw [hfate] at hmem
  obtain ⟨k, -, hk⟩ := List.mem_map.1 hmem
  rw [← hk, h]

/-- What is read behind such a run is the tree the code hands over, and nothing else. -/
theorem readsAs_iff (platform : Platform B) (format : ParcelFormat B) {v : GVariant}
    (ht : v.type.supported = true) {p : Parcel B}
    (h : AllSucceed p (writeVariant platform v.type v.value p).2) (value : ParcelValue B) :
    ReadsAs format v p (writeVariant platform v.type v.value p).2 value ↔
      passed platform v = value := by
  obtain ⟨-, hdata⟩ := writeVariant_allSucceed platform format v p h
  have hrec := recovers_passed platform format v.type v.value ht
  have happended : appended format p (writeVariant platform v.type v.value p).2 =
      (writes platform v.type v.value).flatMap (Write.bytes format) := by
    rw [appended, hdata, List.drop_left]
  rw [ReadsAs, happended]
  constructor
  · rintro ⟨-, hread⟩
    exact hrec.unique hread
  · rintro rfl
    exact ⟨hdata, hrec.whole⟩

/-! ## Conditions -/

/-- Outside vardicts, every array has a length in the `int32_t` range. -/
def ArraysInInt32 : (t : GVariantType) → GValue t → Prop
  | .array (.dictEntry _ _), _ => True
  | .array e, v => v.items.toList.length < 2 ^ 31 ∧ ∀ item ∈ v.items.toList, ArraysInInt32 e item
  | _, _ => True

/-- Outside vardicts, every string in an array has a length in the `int32_t` range. -/
def StringsInInt32 : (t : GVariantType) → GValue t → Prop
  | .array (.dictEntry _ _), _ => True
  | .array e, v => ∀ item ∈ v.items.toList, StringsInInt32 e item
  | .string, v => (gVariantGetString ⟨_, v⟩).length < 2 ^ 31
  | _, _ => True

/-- What the code hands over for the leaves is what they are: outside arrays a `t` is zero and a
string empty, and the strings in arrays have a length in the `int32_t` range. -/
def LeavesKept : GVariant → Prop
  | ⟨.array e, v⟩ => StringsInInt32 (.array e) v
  | ⟨_, .uint64 value⟩ => value = 0
  | ⟨_, .string value⟩ => value = .empty
  | _ => True

/-- The tree of an array is the list of the trees of its children, unless it is a dictionary. -/
theorem reading_array (api : PersistableBundle B) (leaf : GVariant → ParcelValue B)
    (children : {e : GVariantType} → GValue (.array e) → List (GValue e)) {e : GVariantType}
    (he : ∀ k u, e ≠ .dictEntry k u) (v : GValue (.array e)) :
    reading api leaf children (.array e) v =
      .array ((children v).map (reading api leaf children e)) := by
  cases e with
  | dictEntry k u => exact absurd rfl (he k u)
  | _ => rfl

theorem arraysInInt32_array {e : GVariantType} (he : ∀ k u, e ≠ .dictEntry k u)
    (v : GValue (.array e)) : ArraysInInt32 (.array e) v ↔
      v.items.toList.length < 2 ^ 31 ∧ ∀ item ∈ v.items.toList, ArraysInInt32 e item := by
  cases e with
  | dictEntry k u => exact absurd rfl (he k u)
  | _ => rfl

theorem stringsInInt32_array {e : GVariantType} (he : ∀ k u, e ≠ .dictEntry k u)
    (v : GValue (.array e)) : StringsInInt32 (.array e) v ↔
      ∀ item ∈ v.items.toList, StringsInInt32 e item := by
  cases e with
  | dictEntry k u => exact absurd rfl (he k u)
  | _ => rfl

/-- Two readings of a list of children agree where those of every child do. -/
theorem array_map_inj {α : Type} {f g : α → ParcelValue B} {l : List α} :
    ParcelValue.array (l.map f) = .array (l.map g) ↔ ∀ a ∈ l, f a = g a := by
  rw [ParcelValue.array.injEq, List.map_inj_left]

/-- All children of an array are passed exactly when their number is in the `int32_t` range. -/
theorem GValue.passedItems_eq {e : GVariantType} (v : GValue (.array e)) :
    v.passedItems.length = v.items.toList.length ↔ v.passedItems = v.items.toList := by
  refine ⟨fun h => (List.take_prefix _ _).eq_of_length h, fun h => by rw [h]⟩

/-- The whole tree is handed over exactly when the arrays are in the `int32_t` range. -/
theorem reading_passed_iff (api : PersistableBundle B) (leaf : GVariant → ParcelValue B) :
    ∀ (t : GVariantType) (v : GValue t),
      reading api leaf GValue.passedItems t v = reading api leaf (fun v => v.items.toList) t v ↔
        ArraysInInt32 t v := by
  intro t
  induction t with
  | array e ih =>
    intro v
    by_cases hdict : ∃ k u, e = .dictEntry k u
    · obtain ⟨k, u, rfl⟩ := hdict
      exact iff_of_true rfl trivial
    · have he : ∀ k u, e ≠ .dictEntry k u := fun k u h => hdict ⟨k, u, h⟩
      rw [reading_array api leaf _ he, reading_array api leaf _ he, arraysInInt32_array he]
      constructor
      · intro h
        have hlength := congrArg List.length (ParcelValue.array.inj h)
        rw [List.length_map, List.length_map] at hlength
        rw [v.passedItems_eq.1 hlength, array_map_inj] at h
        rw [v.length_passedItems, int32Count_eq_self] at hlength
        exact ⟨hlength, fun item hitem => (ih item).1 (h item hitem)⟩
      · rintro ⟨hlength, hitems⟩
        have hall : v.passedItems.length = v.items.toList.length := by
          rw [v.length_passedItems, int32Count_of_lt hlength]
        rw [v.passedItems_eq.1 hall, array_map_inj]
        exact fun item hitem => (ih item).2 (hitems item hitem)
  | _ => exact fun v => iff_of_true rfl trivial

/-- The leaves in arrays are handed over as they are exactly when the strings are in the `int32_t`
range. -/
theorem reading_elementValue_iff (api : PersistableBundle B) :
    ∀ (t : GVariantType) (v : GValue t),
      reading api elementValue (fun v => v.items.toList) t v =
        reading api leafValue (fun v => v.items.toList) t v ↔ StringsInInt32 t v := by
  intro t
  induction t with
  | array e ih =>
    intro v
    by_cases hdict : ∃ k u, e = .dictEntry k u
    · obtain ⟨k, u, rfl⟩ := hdict
      exact iff_of_true rfl trivial
    · have he : ∀ k u, e ≠ .dictEntry k u := fun k u h => hdict ⟨k, u, h⟩
      rw [reading_array api _ _ he, reading_array api _ _ he, stringsInInt32_array he,
        array_map_inj]
      exact forall₂_congr fun item _ => ih item
  | string =>
    intro v
    cases v with
    | string s =>
      refine Iff.trans (b := s.take (int32Count s.length) = s) ?_ ?_
      · exact ⟨fun h => ParcelValue.string.inj h, fun h => congrArg ParcelValue.string h⟩
      · rw [GString.take_eq_self]
        have hle := int32Count_le s.length
        refine Iff.trans ?_ int32Count_eq_self
        exact ⟨fun h => Nat.le_antisymm hle h, fun h => Nat.le_of_eq h.symm⟩
  | _ =>
    intro v
    refine iff_of_true ?_ trivial
    cases v <;> rfl

/-- A variant is handed over as a whole exactly when its arrays are in the `int32_t` range. -/
theorem handed_passed_iff (api : PersistableBundle B) (order : ArgumentOrder) (v : GVariant) :
    handed api order GValue.passedItems v = handed api order (fun v => v.items.toList) v ↔
      ArraysInInt32 v.type v.value := by
  obtain ⟨t, value⟩ := v
  cases value with
  | array items => exact reading_passed_iff api elementValue (.array _) (.array items)
  | _ => exact iff_of_true rfl trivial

/-- For both orders of evaluation the leaves are handed over as they are exactly when they are
kept. -/
theorem handed_expected_iff (api : PersistableBundle B) (v : GVariant) :
    (∀ order, handed api order (fun v => v.items.toList) v = expected api v) ↔ LeavesKept v := by
  obtain ⟨t, value⟩ := v
  cases value with
  | array items =>
    refine Iff.trans ?_ (reading_elementValue_iff api (.array _) (.array items))
    exact ⟨fun h => h .leftToRight, fun h _ => h⟩
  | uint64 n =>
    refine ⟨fun h => ?_, fun h _ => ?_⟩
    · exact (ParcelValue.int64.inj (h .leftToRight)).symm
    · exact congrArg ParcelValue.int64 h.symm
  | string s =>
    constructor
    · intro h
      exact (ParcelValue.string.inj (h .rightToLeft)).symm
    · rintro rfl order
      cases order <;> rfl
  | _ => exact iff_of_true (fun _ => rfl) trivial

/-! ## Round trips -/

/-- Whatever the order of evaluation and the starting parcel, the function returns, and if every
call succeeded the variant is read back from the bytes appended. -/
def RoundTrips (api : PersistableBundle B) (format : ParcelFormat B) (v : GVariant) : Prop :=
  ∀ order fate p, ∃ status p',
    writeVariantToParcel ⟨api, order, fate⟩ v p = some (status, p') ∧
      (AllSucceed p p' → ReadsAs format v p p' (expected api v))

/-- **A variant of a supported type with arrays in the `int32_t` range is read back as it is exactly
when its leaves are kept.** -/
theorem roundTrips_iff (api : PersistableBundle B) (format : ParcelFormat B) (v : GVariant)
    (ht : v.type.supported = true) (hlength : ArraysInInt32 v.type v.value) :
    RoundTrips api format v ↔ LeavesKept v := by
  have hpassed : ∀ order fate, passed ⟨api, order, fate⟩ v =
      handed api order (fun v => v.items.toList) v :=
    fun order _ => (handed_passed_iff api order v).2 hlength
  rw [← handed_expected_iff api v]
  constructor
  · intro h order
    obtain ⟨status, p', hrun, hreads⟩ := h order (fun _ => statusOk) ⟨[], []⟩
    rw [writeVariantToParcel_eq, Option.some.injEq, Prod.mk.injEq] at hrun
    obtain ⟨-, rfl⟩ := hrun
    have hall := allSucceed_of_fate ⟨api, order, fun _ => statusOk⟩ (fun _ => rfl) v ⟨[], []⟩
    rw [← hpassed order fun _ => statusOk]
    exact (readsAs_iff _ format ht hall _).1 (hreads hall)
  · intro h order fate p
    refine ⟨_, _, writeVariantToParcel_eq _ v p, ?_⟩
    intro hall
    rw [readsAs_iff _ format ht hall, hpassed order fate]
    exact h order

/-- `[[1, 2], []]` of type `aau` is read back as it is. -/
theorem roundTrips_iff_nested :
    RoundTrips mapBundle referenceFormat
      ⟨.array (.array .uint32), .array (.cons (.array (.cons (.uint32 1) (.cons (.uint32 2) .nil)))
        (.cons (.array .nil) .nil))⟩ := by
  refine (roundTrips_iff mapBundle referenceFormat _ rfl ?_).2 ?_
  · simp [ArraysInInt32, GValue.items]
  · simp [LeavesKept, StringsInInt32, GValue.items]

/-- A platform on which every call on a parcel succeeds. -/
def allOk : Platform MapBundle := ⟨mapBundle, .leftToRight, fun _ => statusOk⟩

/-- A `t` is written as zero. -/
theorem uint64_written_as_zero :
    writeVariantToParcel allOk ⟨.uint64, .uint64 1⟩ ⟨[], []⟩ =
        some (statusOk, ⟨[], [(.int64 0, statusOk)]⟩) ∧
      ¬ RoundTrips mapBundle referenceFormat ⟨.uint64, .uint64 1⟩ := by
  have hreturn : writeVariantToParcel allOk ⟨.uint64, .uint64 1⟩ ⟨[], []⟩ =
      some (statusOk, ⟨[], [(.int64 0, statusOk)]⟩) := rfl
  refine ⟨hreturn, ?_⟩
  intro h
  obtain ⟨status, p', hrun, hreads⟩ := h .leftToRight (fun _ => statusOk) ⟨[], []⟩
  obtain ⟨rfl, rfl⟩ := Prod.mk.inj (Option.some.inj (hreturn.symm.trans hrun))
  have hread := (hreads (by simp [AllSucceed])).2
  have hzero : readVariant referenceFormat .uint64 (appended referenceFormat ⟨[], []⟩
      ⟨[], [(.int64 0, statusOk)]⟩) = some (.int64 0, []) := rfl
  cases hzero.symm.trans hread

/-! ## Accepted types -/

/-- Whatever the order of evaluation and the starting parcel, the function returns, and if every
call succeeded, it answers `STATUS_OK` only behind an encoding of the whole variant, in which every
array has all its children and every leaf is what the code handed over for it, and never for a
variant of a type that cannot be encoded. -/
def Accepts (api : PersistableBundle B) (format : ParcelFormat B) (v : GVariant) : Prop :=
  ∀ order fate p, ∃ status p',
    writeVariantToParcel ⟨api, order, fate⟩ v p = some (status, p') ∧
      (AllSucceed p p' →
        (status = statusOk →
          ReadsAs format v p p' (handed api order (fun v => v.items.toList) v)) ∧
        (v.type.supported = false → status ≠ statusOk))

/-- **The function accepts a variant as it should exactly when the type of the variant is supported
and its arrays are in the `int32_t` range.** -/
theorem accepts_iff (api : PersistableBundle B) (format : ParcelFormat B) (v : GVariant) :
    Accepts api format v ↔ v.type.supported = true ∧ ArraysInInt32 v.type v.value := by
  constructor
  · intro h
    obtain ⟨status, p', hrun, haccepts⟩ := h .leftToRight (fun _ => statusOk) ⟨[], []⟩
    rw [writeVariantToParcel_eq, Option.some.injEq, Prod.mk.injEq] at hrun
    obtain ⟨rfl, rfl⟩ := hrun
    have hall :=
      allSucceed_of_fate ⟨api, .leftToRight, fun _ => statusOk⟩ (fun _ => rfl) v ⟨[], []⟩
    obtain ⟨hreads, hunsupported⟩ := haccepts hall
    have hstatus := (writeVariant_allSucceed _ format v _ hall).1
    have ht : v.type.supported = true := by
      by_contra hne
      exact hunsupported (by simpa using hne) hstatus
    refine ⟨ht, (handed_passed_iff api .leftToRight v).1 ?_⟩
    exact (readsAs_iff _ format ht hall _).1 (hreads hstatus)
  · rintro ⟨ht, hlength⟩ order fate p
    refine ⟨_, _, writeVariantToParcel_eq _ v p, ?_⟩
    intro hall
    refine ⟨fun _ => ?_, ?_⟩
    · rw [readsAs_iff _ format ht hall]
      exact (handed_passed_iff api order v).2 hlength
    · intro hne
      rw [ht] at hne
      cases hne

/-- `[5]` of type `an`. -/
def int16Array : GVariant := ⟨.array .int16, .array (.cons (.int16 5) .nil)⟩

/-- The array is answered with `STATUS_OK` behind its length alone. -/
theorem int16Array_accepted :
    writeVariantToParcel allOk int16Array ⟨[], []⟩ =
        some (statusOk, ⟨[], [(.arraySize 1, statusOk)]⟩) ∧
      ¬ Accepts mapBundle referenceFormat int16Array := by
  have hreturn : writeVariantToParcel allOk int16Array ⟨[], []⟩ =
      some (statusOk, ⟨[], [(.arraySize 1, statusOk)]⟩) := rfl
  refine ⟨hreturn, ?_⟩
  intro h
  obtain ⟨status, p', hrun, haccepts⟩ := h .leftToRight (fun _ => statusOk) ⟨[], []⟩
  obtain ⟨rfl, rfl⟩ := Prod.mk.inj (Option.some.inj (hreturn.symm.trans hrun))
  exact (haccepts (by simp [AllSucceed])).2 rfl rfl

end FwupdPoc

import FwupdPoc.VardictToBundle
import Mathlib.Data.Int.ModEq

/-!
# What a bundle made of a vardict is for

The statement of the purpose of `poc_vardict_to_bundle`, written without its switch. `bundleKind`
is the table of the representable types with the kind of entry each of them becomes, `Represents`
says when a stored value holds a variant, and `variantAt` follows a path of keys through nested
vardicts, always to the last entry of a key.
-/

namespace FwupdPoc

open Keyed

variable {B : Type}

/-! ## Representable types -/

/-- The kind of entry a value of a type becomes, for the types a bundle can hold. -/
def GVariantType.bundleKind : GVariantType → Option BundleKind
  | .boolean => some .boolean
  | .byte | .int16 | .uint16 | .int32 | .uint32 | .int64 | .uint64 => some .integer
  | .double => some .double
  | .string => some .string
  | .array .boolean => some .booleanVector
  | .array .int32 | .array .uint32 | .array .int64 | .array .uint64 => some .integerVector
  | .array .double => some .doubleVector
  | .array .string => some .stringVector
  | .array (.dictEntry .string .variant) => some .bundle
  | _ => none

/-- A value a bundle can hold. -/
def GVariant.representable (v : GVariant) : Bool := v.type.bundleKind.isSome

/-! ## Values -/

/-- The stored value is the integer `n`. -/
def StoresSigned (x : BundleValue B) (n : Int) : Prop :=
  ∃ width, x.integer? = some (width, n)

/-- The stored value keeps all bits of `v`: it is equal to `v` where the signed type of the entry
reaches that far, and congruent modulo the width of `v` anywhere. -/
def StoresUnsigned {w : Nat} (x : BundleValue B) (v : BitVec w) : Prop :=
  ∃ width n, x.integer? = some (width, n) ∧ ((v.toNat : Int) < 2 ^ (width - 1) → n = v.toNat) ∧
    n ≡ v.toNat [ZMOD 2 ^ w]

/-- The stored value is the scalar `v`. -/
def SameScalar (x : BundleValue B) : GVariant → Prop
  | ⟨_, .boolean v⟩ => x = .boolean v
  | ⟨_, .byte v⟩ => StoresUnsigned x v
  | ⟨_, .int16 v⟩ => StoresSigned x v.toInt
  | ⟨_, .uint16 v⟩ => StoresUnsigned x v
  | ⟨_, .int32 v⟩ => StoresSigned x v.toInt
  | ⟨_, .uint32 v⟩ => StoresUnsigned x v
  | ⟨_, .int64 v⟩ => StoresSigned x v.toInt
  | ⟨_, .uint64 v⟩ => StoresUnsigned x v
  | ⟨_, .double v⟩ => x = .double v
  | ⟨_, .string v⟩ => x = .string v
  | _ => False

/-- The stored value holds the variant: it has the kind of the variant's type, a scalar is stored
as it is, a vector has the variant's children in order, and a child bundle stands for a vardict,
whose entries are compared key by key. -/
def Represents (x : BundleValue B) (v : GVariant) : Prop :=
  v.type.bundleKind = some x.kind ∧
    match v with
    | ⟨.array (.dictEntry _ _), _⟩ => True
    | ⟨.array e, value⟩ => List.Forall₂ SameScalar x.elements (GVariant.children ⟨.array e, value⟩)
    | v => SameScalar x v

/-! ## Paths -/

/-- The value of the last entry of `key` in a vardict. -/
def GVariant.child (v : GVariant) (key : GString) : Option GVariant :=
  lastSome (fun e => if e.1 = key then some e.2 else none) v.entries

/-- Looks a path of keys up in a variant, through nested vardicts. The empty path is the variant. -/
def variantAt (v : GVariant) (path : List GString) : Option GVariant :=
  walk GVariant.child v path

/-- Only a vardict has entries. -/
theorem GVariant.entries_eq_nil {v : GVariant} (h : v.type ≠ .vardict) : v.entries = [] := by
  obtain ⟨t, value⟩ := v
  cases value with
  | array items =>
    cases items with
    | nil => rfl
    | cons head rest =>
      cases head with
      | dictEntry key value =>
        cases key with
        | string key =>
          cases value with
          | variant value => exact absurd rfl h
          | _ => rfl
        | _ => rfl
      | _ => rfl
  | _ => rfl

/-- Only a vardict has a last entry of a key. -/
theorem type_of_child {v u : GVariant} {key : GString} (h : v.child key = some u) :
    v.type = .vardict := by
  by_contra hne
  rw [GVariant.child, GVariant.entries_eq_nil hne] at h
  cases h

/-- The last entry that satisfies `p` satisfies `p`. -/
theorem lastEntry_holds {p : GVariant → Bool} {v u : GVariant} {key : GString}
    (h : lastEntry p v key = some u) : p u = true := by
  obtain ⟨e, -, he⟩ := exists_of_lastSome h
  exact (Option.filter_eq_some_iff.1 he).2

/-- Where the last entry satisfies `p`, it is the last one that does. -/
theorem lastEntry_of_child {p : GVariant → Bool} {v u : GVariant} {key : GString}
    (h : v.child key = some u) (hp : p u = true) : lastEntry p v key = some u :=
  lastSome_filter h hp

/-- Where a key has no entry, it has none that satisfies `p`. -/
theorem lastEntry_of_child_none {p : GVariant → Bool} {v : GVariant} {key : GString}
    (h : v.child key = none) : lastEntry p v key = none := by
  refine lastSome_eq_none.2 fun e he => ?_
  rw [lastSome_eq_none.1 h e he]
  rfl

/-- The vardict with one entry. -/
def singleEntry {t : GVariantType} (key : GString) (value : GValue t) : GValue .vardict :=
  .array (.cons (.dictEntry (.string key) (.variant value)) .nil)

theorem child_singleEntry {t : GVariantType} (key : GString) (value : GValue t) (k : GString) :
    GVariant.child ⟨_, singleEntry key value⟩ k = if key = k then some ⟨t, value⟩ else none := by
  simp [GVariant.child, singleEntry, GVariant.entries, GItems.entries, lastSome_cons]

/-- A vardict whose one entry is no vardict has nothing below that entry. -/
theorem variantAt_singleEntry {t : GVariantType} (key : GString) (value : GValue t)
    (ht : t ≠ .vardict) (k : GString) (path : List GString) :
    variantAt ⟨_, singleEntry key value⟩ (k :: path) =
      if key = k ∧ path = [] then some ⟨t, value⟩ else none := by
  rw [variantAt, walk_cons, child_singleEntry]
  by_cases hk : key = k
  · rw [if_pos hk, Option.bind_some]
    cases path with
    | nil => simp [hk]
    | cons k' path =>
      have hnone : GVariant.child ⟨t, value⟩ k' = none := by
        rw [GVariant.child, GVariant.entries_eq_nil ht]
        rfl
      rw [walk_cons, hnone]
      simp
  · simp [hk]

/-- Along every path such a vardict holds itself or its one value. -/
theorem of_variantAt_singleEntry {t : GVariantType} {key : GString} {value : GValue t}
    (ht : t ≠ .vardict) {path : List GString} {w : GVariant}
    (h : variantAt ⟨_, singleEntry key value⟩ path = some w) :
    w = ⟨_, singleEntry key value⟩ ∨ w = ⟨t, value⟩ := by
  cases path with
  | nil => exact .inl (Option.some.inj h).symm
  | cons k path =>
    rw [variantAt_singleEntry key value ht] at h
    split at h
    · exact .inr (Option.some.inj h).symm
    · cases h

/-! ## The switch and the table -/

/-- The code puts something for every representable value, of the kind of the value's type. -/
theorem storedValue_kind (api : PersistableBundle B) {v : GVariant} (h : v.representable = true) :
    ∃ x, storedValue api v = some x ∧ v.type.bundleKind = some x.kind := by
  obtain ⟨t, value⟩ := v
  cases t with
  | array e => cases e with
    | dictEntry k v =>
      cases k <;> cases v <;> first | exact ⟨_, rfl, rfl⟩ | cases h
    | _ => first | exact ⟨_, rfl, rfl⟩ | cases h
  | _ => first | exact ⟨_, rfl, rfl⟩ | cases h

/-- A representable value is one the switch handles. -/
theorem GVariant.handled_of_representable {v : GVariant} (h : v.representable = true) :
    v.handled = true := by
  obtain ⟨t, value⟩ := v
  cases t with
  | array e => cases e with
    | dictEntry k v => rfl
    | _ => first | rfl | cases h
  | _ => first | rfl | cases h

/-- The only values the switch handles beyond the representable ones are the other
dictionaries. -/
theorem GVariant.handled_iff {v : GVariant} :
    v.handled = true ↔ v.representable = true ∨ ∃ k u, v.type = .array (.dictEntry k u) := by
  constructor
  · intro h
    obtain ⟨t, value⟩ := v
    cases t with
    | array e => cases e with
      | dictEntry k u => exact .inr ⟨k, u, rfl⟩
      | _ => first | exact .inl rfl | cases h
    | _ => first | exact .inl rfl | cases h
  · rintro (h | ⟨k, u, h⟩)
    · exact handled_of_representable h
    · obtain ⟨t, value⟩ := v
      cases h
      rfl

/-- A child bundle is stored for arrays of dictionary entries only. -/
theorem type_of_storedValue_bundle (api : PersistableBundle B) {v : GVariant} {b : B}
    (h : storedValue api v = some (.bundle b)) : ∃ k u, v.type = .array (.dictEntry k u) := by
  obtain ⟨t, value⟩ := v
  cases t with
  | array e => cases e with
    | dictEntry k u => exact ⟨k, u, rfl⟩
    | _ => cases h
  | _ => cases h

end FwupdPoc

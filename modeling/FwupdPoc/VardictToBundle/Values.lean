import FwupdPoc.VardictToBundle.Spec
import FwupdPoc.Ndk.Reference
import Mathlib.Data.List.Forall2

/-!
# The values in the bundle

Where all values on the way are representable, the bundle holds along every path what the code
stores for the value of that path (`bundleAt_eq`), so the bundle is right exactly when each single
value is. `represents_iff` decides that value by value: the conversions of the switch lose the sign
of an `n` and everything above 32 bits of an `x` or a `t`, and nothing else.
-/

namespace FwupdPoc

open Keyed

variable {B : Type}

/-! ## Widths -/

/-- A word that is widened with zeros reads as its unsigned value. -/
theorem toInt_setWidth_of_lt {w w' : Nat} (v : BitVec w) (h : w < w') :
    (v.setWidth w').toInt = v.toNat := by
  have hw : 2 ^ (w + 1) ≤ 2 ^ w' := Nat.pow_le_pow_right (by omega) h
  have hv := v.isLt
  rw [Nat.pow_succ] at hw
  rw [BitVec.toInt_eq_toNat_cond, BitVec.toNat_setWidth_of_le (Nat.le_of_lt h), if_pos (by omega)]

/-- The low 32 bits of a 64-bit word, read as a signed number. -/
theorem toInt_low32 (v : BitVec 64) : (v.setWidth 32).toInt = (v.toNat : Int).bmod (2 ^ 32) := by
  rw [BitVec.toInt_eq_toNat_bmod, BitVec.toNat_setWidth]
  exact Int.emod_bmod (v.toNat : Int) _

/-- The signed value of a word is congruent to its unsigned one. -/
theorem toInt_modEq_toNat {w : Nat} (v : BitVec w) : v.toInt ≡ v.toNat [ZMOD 2 ^ w] := by
  have := Int.bmod_emod (x := v.toNat) (m := 2 ^ w)
  rw [BitVec.toInt_eq_toNat_bmod, Int.ModEq]
  exact_mod_cast this

/-- Two words congruent to one number are the same word. -/
theorem eq_of_toNat_modEq {w : Nat} {v v' : BitVec w} {n : Int} (h : n ≡ v.toNat [ZMOD 2 ^ w])
    (h' : n ≡ v'.toNat [ZMOD 2 ^ w]) : v = v' := by
  have hmod : ((v.toNat : Int)) % 2 ^ w = (v'.toNat : Int) % 2 ^ w := h.symm.trans h'
  apply BitVec.eq_of_toNat_eq
  have hlt : ∀ u : BitVec w, (u.toNat : Int) % 2 ^ w = u.toNat := fun u => by
    have := u.isLt
    exact Int.emod_eq_of_lt (by omega) (by exact_mod_cast this)
  rw [hlt, hlt] at hmod
  exact_mod_cast hmod

/-! ## The condition -/

/-- The values the conversions of `poc_vardict_to_bundle` keep: an `n` that is not negative, an `x`
in the 32-bit range, a `t` that the sign extension of its low 32 bits gives back, and arrays whose
length is in the `int32_t` range. -/
def Storable : GVariant → Prop
  | ⟨_, .int16 v⟩ => 0 ≤ v.toInt
  | ⟨_, .int64 v⟩ => -2 ^ 31 ≤ v.toInt ∧ v.toInt < 2 ^ 31
  | ⟨_, .uint64 v⟩ => v.toNat < 2 ^ 31 ∨ 2 ^ 64 - 2 ^ 31 ≤ v.toNat
  | ⟨.array (.dictEntry _ _), _⟩ => True
  | ⟨.array e, value⟩ => (GVariant.children ⟨.array e, value⟩).length < 2 ^ 31
  | _ => True

/-! ## One value -/

/-- The zero extension of an `n` is its value exactly when it is not negative. -/
theorem storesSigned_int16_iff (v : BitVec 16) :
    StoresSigned (B := B) (.int (v.setWidth 32)) v.toInt ↔ 0 ≤ v.toInt := by
  have hlow : (v.setWidth 32).toInt = v.toNat := toInt_setWidth_of_lt v (by decide)
  have htop := BitVec.toInt_eq_toNat_cond v
  have hv := v.isLt
  simp only [StoresSigned, BundleValue.integer?, Option.some.injEq, Prod.mk.injEq,
    exists_eq_left', hlow]
  split at htop <;> omega

/-- The low half of an `x` is its value exactly in the 32-bit range. -/
theorem storesSigned_int64_iff (v : BitVec 64) :
    StoresSigned (B := B) (.int (v.setWidth 32)) v.toInt ↔
      -2 ^ 31 ≤ v.toInt ∧ v.toInt < 2 ^ 31 := by
  have hbmod : (v.toNat : Int).bmod (2 ^ 32) = v.toInt.bmod (2 ^ 32) := by
    rw [BitVec.toInt_eq_toNat_bmod, Int.bmod_bmod_of_dvd (by decide)]
  simp only [StoresSigned, BundleValue.integer?, Option.some.injEq, Prod.mk.injEq,
    exists_eq_left', toInt_low32, hbmod]
  constructor
  · intro h
    have hle := Int.le_bmod (x := v.toInt) (m := 2 ^ 32) (by decide)
    have hlt := Int.bmod_lt (x := v.toInt) (m := 2 ^ 32) (by decide)
    omega
  · rintro ⟨hle, hlt⟩
    exact Int.bmod_eq_of_le (by omega) (by omega)

/-- The low half of a `t` keeps all its bits exactly when its sign extension gives them back. -/
theorem storesUnsigned_uint64_iff (v : BitVec 64) :
    StoresUnsigned (B := B) (.int (v.setWidth 32)) v ↔
      v.toNat < 2 ^ 31 ∨ 2 ^ 64 - 2 ^ 31 ≤ v.toNat := by
  have hv := v.isLt
  have hle := Int.le_bmod (x := (v.toNat : Int)) (m := 2 ^ 32) (by decide)
  have hlt := Int.bmod_lt (x := (v.toNat : Int)) (m := 2 ^ 32) (by decide)
  have hmod := Int.bmod_emod (x := v.toNat) (m := 2 ^ 32)
  simp only [StoresUnsigned, BundleValue.integer?, Option.some.injEq, Prod.mk.injEq,
    ↓existsAndEq, true_and, and_true, toInt_low32, Int.ModEq]
  generalize (v.toNat : Int).bmod (2 ^ 32) = n at hle hlt hmod ⊢
  constructor
  · rintro ⟨-, h⟩
    omega
  · intro h
    constructor <;> omega

/-- A word stored without a change of its bits, or widened with zeros, is stored with all its
bits. -/
theorem storesUnsigned_of_modEq {w width : Nat} {x : BundleValue B} {v : BitVec w} {n : Int}
    (hx : x.integer? = some (width, n)) (hn : n = v.toNat ∨ (w = width ∧ n = v.toInt)) :
    StoresUnsigned x v := by
  refine ⟨width, n, hx, ?_, ?_⟩
  · rcases hn with rfl | ⟨rfl, rfl⟩
    · exact fun _ => rfl
    · intro h
      have := v.isLt
      have h' : v.toNat < 2 ^ (w - 1) := by exact_mod_cast h
      rcases w with _ | w
      · rw [BitVec.eq_nil v]
        rfl
      · rw [Nat.pow_succ] at this
        rw [Nat.add_sub_cancel] at h'
        rw [BitVec.toInt_eq_toNat_cond, if_pos (by rw [Nat.pow_succ]; omega)]
  · rcases hn with rfl | ⟨rfl, rfl⟩
    · exact Int.ModEq.refl _
    · exact toInt_modEq_toNat v

/-- A scalar is stored as it is exactly when it is storable. -/
theorem sameScalar_iff (api : PersistableBundle B) {v : GVariant} {x : BundleValue B}
    (hv : v.representable = true) (hx : storedValue api v = some x)
    (ha : ∀ e, v.type ≠ .array e) : SameScalar x v ↔ Storable v := by
  obtain ⟨t, value⟩ := v
  cases value with
  | array items => exact absurd rfl (ha _)
  | boolean v | double v | string v =>
    obtain rfl := Option.some.inj hx
    exact iff_of_true rfl trivial
  | byte v | uint16 v =>
    obtain rfl := Option.some.inj hx
    exact iff_of_true
      (storesUnsigned_of_modEq rfl (.inl (toInt_setWidth_of_lt v (by decide)))) trivial
  | int32 v =>
    obtain rfl := Option.some.inj hx
    exact iff_of_true ⟨32, rfl⟩ trivial
  | uint32 v =>
    obtain rfl := Option.some.inj hx
    exact iff_of_true (storesUnsigned_of_modEq rfl (.inr ⟨rfl, rfl⟩)) trivial
  | int16 v =>
    obtain rfl := Option.some.inj hx
    exact storesSigned_int16_iff v
  | int64 v =>
    obtain rfl := Option.some.inj hx
    exact storesSigned_int64_iff v
  | uint64 v =>
    obtain rfl := Option.some.inj hx
    exact storesUnsigned_uint64_iff v
  | _ => cases hv

/-- Handing an array over commutes with reading its elements. -/
theorem passArray_map {α β : Type} (f : α → β) (l : List α) :
    passArray (l.map f) = (passArray l).map f := by
  simp [passArray, List.map_take]

/-- An array is handed over as a whole exactly when its length is in the `int32_t` range. -/
theorem passArray_length {α : Type} {l : List α} : (passArray l).length = l.length ↔
    l.length < 2 ^ 31 := by
  rw [passArray, List.length_take, Nat.min_eq_left (int32Count_le _), int32Count_eq_self]

/-- A vector read child by child holds the children exactly when their number is in the `int32_t`
range. -/
theorem forall₂_passArray_iff {f : GVariant → BundleValue B} {e : GVariantType} {items : GItems e}
    {xs : List (BundleValue B)}
    (hxs : xs = (passArray (GVariant.children ⟨_, .array items⟩)).map f)
    (hf : ∀ item : GValue e, SameScalar (f ⟨e, item⟩) ⟨e, item⟩) :
    List.Forall₂ SameScalar xs (GVariant.children ⟨_, .array items⟩) ↔
      (GVariant.children ⟨_, .array items⟩).length < 2 ^ 31 := by
  subst hxs
  rw [← passArray_length]
  constructor
  · intro h
    simpa using h.length_eq
  · intro h
    have hall : passArray (GVariant.children ⟨_, .array items⟩) =
        GVariant.children ⟨_, .array items⟩ := (List.take_prefix _ _).eq_of_length h
    rw [hall, List.forall₂_map_left_iff, List.forall₂_same, GVariant.children_array]
    simp only [List.mem_map]
    rintro c ⟨item, -, rfl⟩
    exact hf item

/-- **A representable value is held by what the code stores for it exactly when it is
storable.** -/
theorem represents_iff (api : PersistableBundle B) {v : GVariant} {x : BundleValue B}
    (hv : v.representable = true) (hx : storedValue api v = some x) :
    Represents x v ↔ Storable v := by
  obtain ⟨y, hy, hkind⟩ := storedValue_kind api hv
  obtain rfl := Option.some.inj (hx.symm.trans hy)
  refine (and_iff_right hkind).trans ?_
  obtain ⟨t, value⟩ := v
  cases value with
  | array items =>
    rename_i e
    cases e with
    | dictEntry k u => exact Iff.rfl
    | boolean =>
      obtain rfl := Option.some.inj hx
      refine forall₂_passArray_iff (f := fun c => .boolean (gVariantGetBoolean c)) ?_ ?_
      · simp [BundleValue.elements, gVariantFixedArrayBool, passArray_map]
      · rintro ⟨⟩
        rfl
    | int32 =>
      obtain rfl := Option.some.inj hx
      refine forall₂_passArray_iff (f := fun c => .int (gVariantData32 c)) ?_ ?_
      · simp [BundleValue.elements, gVariantFixedArray32, passArray_map]
      · rintro ⟨⟩
        exact ⟨32, rfl⟩
    | uint32 =>
      obtain rfl := Option.some.inj hx
      refine forall₂_passArray_iff (f := fun c => .int (gVariantData32 c)) ?_ ?_
      · simp [BundleValue.elements, gVariantFixedArray32, passArray_map]
      · rintro ⟨⟩
        exact storesUnsigned_of_modEq rfl (.inr ⟨rfl, rfl⟩)
    | int64 =>
      obtain rfl := Option.some.inj hx
      refine forall₂_passArray_iff (f := fun c => .long (gVariantData64 c)) ?_ ?_
      · simp [BundleValue.elements, gVariantFixedArray64, passArray_map]
      · rintro ⟨⟩
        exact ⟨64, rfl⟩
    | uint64 =>
      obtain rfl := Option.some.inj hx
      refine forall₂_passArray_iff (f := fun c => .long (gVariantData64 c)) ?_ ?_
      · simp [BundleValue.elements, gVariantFixedArray64, passArray_map]
      · rintro ⟨⟩
        exact storesUnsigned_of_modEq rfl (.inr ⟨rfl, rfl⟩)
    | double =>
      obtain rfl := Option.some.inj hx
      refine forall₂_passArray_iff (f := fun c => .double (gVariantData64 c)) ?_ ?_
      · simp [BundleValue.elements, gVariantFixedArray64, passArray_map]
      · rintro ⟨⟩
        rfl
    | string =>
      obtain rfl := Option.some.inj hx
      refine forall₂_passArray_iff (f := fun c => .string (gVariantGetString c)) ?_ ?_
      · simp [BundleValue.elements, gVariantGetStrv, passArray_map]
      · rintro ⟨⟩
        rfl
    | _ => cases hv
  | _ => exact sameScalar_iff api hv hx (fun e h => by cases h)

/-! ## All values -/

/-- Every value that a path of keys leads to is representable. -/
def HandledValues (v : GVariant) : Prop :=
  ∀ path w, variantAt v path = some w → w.representable = true

/-- The bundle holds, along every path of keys, the value the variant has there. -/
def ValuesFaithful (api : PersistableBundle B) (v : GValue .vardict) : Prop :=
  ∀ path, Option.Rel Represents (bundleAt api (pocVardictToBundle api v) path)
    (variantAt ⟨_, v⟩ path)

/-- Every value that a path of keys leads to is storable. -/
def StorableValues (v : GVariant) : Prop := ∀ path w, variantAt v path = some w → Storable w

/-- What holds along all paths holds along the paths of a child. -/
theorem HandledValues.child {v u : GVariant} {key : GString} (h : HandledValues v)
    (hu : v.child key = some u) : HandledValues u := by
  intro path w hw
  refine h (key :: path) w ?_
  rw [variantAt, walk_cons, hu]
  exact hw

/-- One step down a path leads to a value of the variant and to what the code stores for it. -/
theorem child_rel (api : PersistableBundle B) (x : BundleValue B) (v : GVariant) (key : GString)
    (h : HandledValues v ∧ storedValue api v = some x) :
    Option.Rel (fun x v => HandledValues v ∧ storedValue api v = some x)
      (x.child api key) (v.child key) := by
  obtain ⟨hv, hx⟩ := h
  have hchild : ∀ b, x = .bundle b → b = pocVardictToBundle api v.value := by
    rintro b rfl
    obtain ⟨k, u, ht⟩ := type_of_storedValue_bundle api hx
    obtain ⟨t, value⟩ := v
    cases ht
    exact (BundleValue.bundle.inj (Option.some.inj hx)).symm
  cases hu : v.child key with
  | none =>
    cases x with
    | bundle b =>
      rw [BundleValue.child, hchild b rfl, get_pocVardictToBundle, lastEntry_of_child_none hu]
      exact .none
    | _ => exact .none
  | some u =>
    have hu' := hv.child hu
    have hrep : u.representable = true := hu' [] u rfl
    obtain ⟨y, hy, -⟩ := storedValue_kind api hrep
    obtain ⟨t, value⟩ := v
    cases type_of_child hu
    obtain rfl := Option.some.inj hx
    rw [BundleValue.child, hchild _ rfl, get_pocVardictToBundle,
      lastEntry_of_child hu (GVariant.handled_of_representable hrep), Option.bind_some, hy]
    exact .some ⟨hu', hy⟩

/-- Along every path the bundle holds what the code stores for the value of that path. -/
theorem bundleAt_rel (api : PersistableBundle B) {v : GValue .vardict}
    (hv : HandledValues ⟨_, v⟩) (path : List GString) :
    Option.Rel (fun x v => HandledValues v ∧ storedValue api v = some x)
      (bundleAt api (pocVardictToBundle api v) path) (variantAt ⟨_, v⟩ path) :=
  walk_rel (child_rel api) path ⟨hv, rfl⟩

/-- The bundle holds the values exactly when all of them are storable. -/
theorem valuesFaithful_iff (api : PersistableBundle B) {v : GValue .vardict}
    (hv : HandledValues ⟨_, v⟩) : ValuesFaithful api v ↔ StorableValues ⟨_, v⟩ := by
  constructor
  · intro h path w hw
    have hrel := bundleAt_rel api hv path
    have hrep := h path
    rw [hw] at hrel hrep
    generalize bundleAt api (pocVardictToBundle api v) path = x at hrel hrep
    cases hrel with
    | some hx =>
      cases hrep with
      | some hr => exact (represents_iff api (hv path w hw) hx.2).1 hr
  · intro h path
    have hrel := bundleAt_rel api hv path
    cases hw : variantAt ⟨_, v⟩ path with
    | none =>
      rw [hw] at hrel
      generalize bundleAt api (pocVardictToBundle api v) path = x at hrel ⊢
      cases hrel with
      | none => exact .none
    | some w =>
      rw [hw] at hrel
      generalize bundleAt api (pocVardictToBundle api v) path = x at hrel ⊢
      cases hrel with
      | some hx => exact .some ((represents_iff api (hv path w hw) hx.2).2 (h path w hw))

/-! ## Different values -/

/-- A stored scalar is the scalar of one value of a type. -/
theorem sameScalar_unique {x : BundleValue B} {t : GVariantType} {a b : GValue t}
    (ha : SameScalar x ⟨t, a⟩) (hb : SameScalar x ⟨t, b⟩) : a = b := by
  have signed : ∀ {w : Nat} {u v : BitVec w}, StoresSigned x u.toInt → StoresSigned x v.toInt →
      u = v := by
    rintro w u v ⟨_, hu⟩ ⟨_, hv⟩
    rw [hu] at hv
    exact BitVec.toInt_inj.1 (Prod.mk.inj (Option.some.inj hv)).2
  have unsigned : ∀ {w : Nat} {u v : BitVec w}, StoresUnsigned x u → StoresUnsigned x v →
      u = v := by
    rintro w u v ⟨_, _, hu, -, hmod⟩ ⟨_, _, hv, -, hmod'⟩
    rw [hu] at hv
    obtain ⟨-, rfl⟩ := Prod.mk.inj (Option.some.inj hv)
    exact eq_of_toNat_modEq hmod hmod'
  cases a with
  | boolean _ | double _ | string _ =>
    cases b
    cases ha.symm.trans hb
    rfl
  | byte _ | uint16 _ | uint32 _ | uint64 _ =>
    cases b
    rw [unsigned ha hb]
  | int16 _ | int32 _ | int64 _ =>
    cases b
    rw [signed ha hb]
  | _ => exact ha.elim

/-- A stored vector is the vector of one array of a type. -/
theorem forall₂_unique {e : GVariantType} {xs : List (BundleValue B)} :
    ∀ {l l' : List (GValue e)},
      List.Forall₂ SameScalar xs (l.map fun item => ⟨e, item⟩) →
      List.Forall₂ SameScalar xs (l'.map fun item => ⟨e, item⟩) → l = l' := by
  induction xs with
  | nil =>
    intro l l' h h'
    simp only [List.forall₂_nil_left_iff, List.map_eq_nil_iff] at h h'
    rw [h, h']
  | cons x xs ih =>
    intro l l' h h'
    obtain ⟨_, _, hx, hxs, hl⟩ := List.forall₂_cons_left_iff.1 h
    obtain ⟨_, _, hx', hxs', hl'⟩ := List.forall₂_cons_left_iff.1 h'
    obtain ⟨a, l, rfl, rfl, rfl⟩ := List.map_eq_cons_iff.1 hl
    obtain ⟨b, l', rfl, rfl, rfl⟩ := List.map_eq_cons_iff.1 hl'
    rw [sameScalar_unique hx hx', ih hxs hxs']

/-- A stored value other than a child bundle is held for one value of a type. -/
theorem represents_unique {x : BundleValue B} {t : GVariantType} {a b : GValue t}
    (ha : Represents x ⟨t, a⟩) (hb : Represents x ⟨t, b⟩) (ht : t ≠ .vardict) : a = b := by
  obtain ⟨hkind, ha⟩ := ha
  obtain ⟨-, hb⟩ := hb
  cases a with
  | array items =>
    cases b with
    | array items' =>
      rename_i e
      congr 1
      refine GItems.toList_inj ?_
      cases e with
      | dictEntry k u =>
        cases k <;> cases u <;> first | exact absurd rfl ht | cases hkind
      | _ => exact forall₂_unique ha hb
  | _ => exact sameScalar_unique ha hb

/-- Two variants have the same keys and the same value types along all paths. -/
def SameTypes (v v' : GVariant) : Prop :=
  ∀ path, (variantAt v path).map GVariant.type = (variantAt v' path).map GVariant.type

/-- Two variants have the same value at every path that does not lead to a vardict. -/
def SameValues (v v' : GVariant) : Prop :=
  ∀ path u u', variantAt v path = some u → variantAt v' path = some u' → u.type ≠ .vardict →
    u = u'

/-- One bundle that holds the values of two variants of the same types holds the same values. -/
theorem sameValues_of_faithful (api : PersistableBundle B) {v v' : GValue .vardict}
    (hv : ValuesFaithful api v) (hv' : ValuesFaithful api v') (htypes : SameTypes ⟨_, v⟩ ⟨_, v'⟩)
    (hbundle : pocVardictToBundle api v = pocVardictToBundle api v') :
    SameValues ⟨_, v⟩ ⟨_, v'⟩ := by
  intro path u u' hu hu' hne
  have htype := htypes path
  have hrel := hv path
  have hrel' := hv' path
  rw [hu, hu', Option.map_some, Option.map_some] at htype
  rw [hu] at hrel
  rw [hu', ← hbundle] at hrel'
  generalize bundleAt api (pocVardictToBundle api v) path = x at hrel hrel'
  cases hrel with
  | some h =>
    cases hrel' with
    | some h' =>
      obtain ⟨t, a⟩ := u
      obtain ⟨t', a'⟩ := u'
      obtain rfl := Option.some.inj htype
      rw [represents_unique h h' hne]

/-- **The bundle holds the values of a vardict exactly when all of them are storable**, and two
vardicts of the same types with storable values have the same values when they have one bundle. -/
theorem pocVardictToBundle_values (api : PersistableBundle B) :
    (∀ v : GValue .vardict, HandledValues ⟨_, v⟩ →
      (ValuesFaithful api v ↔ StorableValues ⟨_, v⟩)) ∧
    (∀ v v' : GValue .vardict, HandledValues ⟨_, v⟩ → HandledValues ⟨_, v'⟩ →
      StorableValues ⟨_, v⟩ → StorableValues ⟨_, v'⟩ → SameTypes ⟨_, v⟩ ⟨_, v'⟩ →
      pocVardictToBundle api v = pocVardictToBundle api v' → SameValues ⟨_, v⟩ ⟨_, v'⟩) := by
  refine ⟨fun v hv => valuesFaithful_iff api hv, ?_⟩
  intro v v' hv hv' hs hs' htypes hbundle
  have hfaithful := (valuesFaithful_iff api hv).2 hs
  have hfaithful' := (valuesFaithful_iff api hv').2 hs'
  exact sameValues_of_faithful api hfaithful hfaithful' htypes hbundle

/-- The vardict with one entry of type `x`. -/
def longEntry (n : BitVec 64) : GValue .vardict := singleEntry (.ofLiteral "i64") (.int64 n)

theorem longEntry_handled (n : BitVec 64) : HandledValues ⟨_, longEntry n⟩ := by
  intro path w hw
  rcases of_variantAt_singleEntry (by decide) hw with rfl | rfl <;> rfl

theorem longEntry_sameTypes (n n' : BitVec 64) : SameTypes ⟨_, longEntry n⟩ ⟨_, longEntry n'⟩ := by
  intro path
  cases path with
  | nil => rfl
  | cons k path =>
    rw [longEntry, longEntry, variantAt_singleEntry _ _ (by decide),
      variantAt_singleEntry _ _ (by decide)]
    split <;> rfl

/-- A vardict with two entries of one key. -/
def repeatedKey {t : GVariantType} (first : GValue t) (n : BitVec 64) : GValue .vardict :=
  .array (.cons (.dictEntry (.string (.ofLiteral "i64")) (.variant first))
    (.cons (.dictEntry (.string (.ofLiteral "i64")) (.variant (.int64 n))) .nil))

/-- The second entry is the one that counts. -/
theorem variantAt_repeatedKey {t : GVariantType} (first : GValue t) (n : BitVec 64) (k : GString)
    (path : List GString) :
    variantAt ⟨_, repeatedKey first n⟩ (k :: path) = variantAt ⟨_, longEntry n⟩ (k :: path) := by
  have hchild : GVariant.child ⟨_, repeatedKey first n⟩ k =
      GVariant.child ⟨_, longEntry n⟩ k := by
    rw [longEntry, child_singleEntry]
    by_cases hk : GString.ofLiteral "i64" = k
    · simp [GVariant.child, repeatedKey, GVariant.entries, GItems.entries, lastSome_cons, hk]
    · simp [GVariant.child, repeatedKey, GVariant.entries, GItems.entries, lastSome_cons, hk]
  rw [variantAt, variantAt, walk_cons, walk_cons, hchild]

/-- `g_variant_new ("mi", NULL)`. -/
def nullMaybe : GValue (.maybe .int32) := .nothing

/-- A vardict in a vardict. -/
def nestedEntry (inner : GValue .vardict) : GValue .vardict :=
  singleEntry (.ofLiteral "dict") inner

theorem variantAt_nestedEntry (inner : GValue .vardict) (k : GString) (path : List GString) :
    variantAt ⟨_, nestedEntry inner⟩ (k :: path) =
      if GString.ofLiteral "dict" = k then variantAt ⟨_, inner⟩ path else none := by
  rw [variantAt, walk_cons, nestedEntry, child_singleEntry]
  split
  · rfl
  · rfl

/-- Along every path a nested vardict with numbers holds itself, the inner one or the number that
counts. -/
theorem of_variantAt_nestedEntry {inner : GValue .vardict} {n : BitVec 64}
    (hinner : ∀ k path,
      variantAt ⟨_, inner⟩ (k :: path) = variantAt ⟨_, longEntry n⟩ (k :: path))
    {path : List GString} {w : GVariant} (h : variantAt ⟨_, nestedEntry inner⟩ path = some w) :
    w = ⟨_, nestedEntry inner⟩ ∨ w = ⟨_, inner⟩ ∨ w = ⟨.int64, .int64 n⟩ := by
  cases path with
  | nil => exact .inl (Option.some.inj h).symm
  | cons k path =>
    rw [variantAt_nestedEntry] at h
    split at h
    · cases path with
      | nil => exact .inr (.inl (Option.some.inj h).symm)
      | cons k' path =>
        rw [hinner, longEntry, variantAt_singleEntry _ _ (by decide)] at h
        split at h
        · exact .inr (.inr (Option.some.inj h).symm)
        · cases h
    · cases h

/-- A number in a nested vardict, alone and behind another entry of its key, for which nothing is
put: the bundles hold the values, and as they are one bundle, the values are the same. -/
theorem pocVardictToBundle_values_repeatedKey :
    nestedEntry (repeatedKey nullMaybe 7) ≠ nestedEntry (longEntry 7) ∧
      ValuesFaithful mapBundle (nestedEntry (repeatedKey nullMaybe 7)) ∧
      SameValues ⟨_, nestedEntry (repeatedKey nullMaybe 7)⟩ ⟨_, nestedEntry (longEntry 7)⟩ := by
  obtain ⟨hfaithful, hsame⟩ := pocVardictToBundle_values mapBundle
  have hvardict : ∀ v : GValue .vardict, Storable ⟨_, v⟩ := by
    rintro ⟨items⟩
    trivial
  have hvalues : ∀ inner ∈ [repeatedKey nullMaybe 7, longEntry 7],
      HandledValues ⟨_, nestedEntry inner⟩ ∧ StorableValues ⟨_, nestedEntry inner⟩ := by
    intro inner hmem
    have hinner : ∀ k path,
        variantAt ⟨_, inner⟩ (k :: path) = variantAt ⟨_, longEntry 7⟩ (k :: path) := by
      rcases List.mem_pair.1 hmem with rfl | rfl
      · exact variantAt_repeatedKey nullMaybe 7
      · exact fun _ _ => rfl
    refine ⟨fun path w hw => ?_, fun path w hw => ?_⟩
    · rcases of_variantAt_nestedEntry hinner hw with rfl | rfl | rfl <;> rfl
    · rcases of_variantAt_nestedEntry hinner hw with rfl | rfl | rfl
      · exact hvardict _
      · exact hvardict _
      · exact ⟨by decide, by decide⟩
  have htypes : SameTypes ⟨_, nestedEntry (repeatedKey nullMaybe 7)⟩
      ⟨_, nestedEntry (longEntry 7)⟩ := by
    intro path
    cases path with
    | nil => rfl
    | cons k path =>
      rw [variantAt_nestedEntry, variantAt_nestedEntry]
      cases path with
      | nil => split <;> rfl
      | cons k' path => rw [variantAt_repeatedKey]
  obtain ⟨hv, hs⟩ := hvalues _ List.mem_cons_self
  obtain ⟨hv', hs'⟩ := hvalues _ (List.mem_cons_of_mem _ List.mem_cons_self)
  refine ⟨?_, (hfaithful _ hv).2 hs, hsame _ _ hv hv' hs hs' htypes rfl⟩
  intro heq
  cases heq

/-- An entry `2 ^ 32` of type `x` is put as the int `0`: the bundle does not hold it, and it is the
bundle of the vardict whose entry is `0`. -/
theorem longEntry_truncated :
    HandledValues ⟨_, longEntry 0x100000000⟩ ∧
      ¬ ValuesFaithful mapBundle (longEntry 0x100000000) ∧
      SameTypes ⟨_, longEntry 0x100000000⟩ ⟨_, longEntry 0⟩ ∧
      ¬ SameValues ⟨_, longEntry 0x100000000⟩ ⟨_, longEntry 0⟩ ∧
      pocVardictToBundle mapBundle (longEntry 0x100000000) =
        pocVardictToBundle mapBundle (longEntry 0) := by
  refine ⟨longEntry_handled _, ?_, longEntry_sameTypes _ _, ?_, rfl⟩
  · intro h
    have hstorable := (valuesFaithful_iff _ (longEntry_handled _)).1 h [.ofLiteral "i64"] _ rfl
    exact absurd hstorable.2 (by decide)
  · intro h
    have heq := h [.ofLiteral "i64"] _ _ rfl rfl (by decide)
    cases heq

end FwupdPoc

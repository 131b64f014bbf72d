import FwupdPoc.ParcelWriter.Calls

/-!
# Reading a variant back

The reader of the values `poc_parcel_write_variant` is meant to encode, driven by the type of the
variant, and what it finds behind a run in which every call succeeds. A `ParcelValue` is the tree of
values that the reader returns. `reading` is such a tree made of a variant from a value for each
leaf and a choice of children for each array; the tree that should be read back, the one the code
hands to the parcel and the one that ends up in it are three instances of it, and the results
compare them.
-/

namespace FwupdPoc

open Wire

variable {B : Type}

/-! ## Types and values -/

/-- The types `b`, `y`, `i`, `u`, `x`, `t`, `d` and `s`. -/
def GVariantType.basic : GVariantType → Bool
  | .boolean | .byte | .int32 | .uint32 | .int64 | .uint64 | .double | .string => true
  | _ => false

/-- The types that can be encoded: the basic ones, arrays of them, `a{sv}`, and arrays of arrays
that can be encoded. -/
def GVariantType.supported : GVariantType → Bool
  | .array (.dictEntry k v) => k = .string ∧ v = .variant
  | .array (.array e) => (GVariantType.array e).supported
  | .array e => e.basic
  | t => t.basic

/-- What a reader finds in a parcel. -/
inductive ParcelValue (B : Type) where
  | bool (value : Bool)
  | byte (value : BitVec 8)
  | int32 (value : BitVec 32)
  | int64 (value : BitVec 64)
  | double (value : BitVec 64)
  | string (value : GString)
  | bundle (value : B)
  | array (items : List (ParcelValue B))

/-- Reads a value of a type: a length in front of an array, a non-null flag in front of a bundle. -/
def readVariant (format : ParcelFormat B) : GVariantType → Reader Byte (ParcelValue B)
  | .boolean => .bool <$> format.bool.dec
  | .byte => .byte <$> format.byte.dec
  | .int32 | .uint32 => .int32 <$> format.int32.dec
  | .int64 | .uint64 => .int64 <$> format.int64.dec
  | .double => .double <$> format.double.dec
  | .string => .string <$> format.string.dec
  | .array .boolean => (fun l => .array (l.map .bool)) <$> format.boolArray.dec
  | .array .byte => (fun l => .array (l.map .byte)) <$> format.byteArray.dec
  | .array .int32 | .array .uint32 => (fun l => .array (l.map .int32)) <$> format.int32Array.dec
  | .array .int64 | .array .uint64 => (fun l => .array (l.map .int64)) <$> format.int64Array.dec
  | .array .double => (fun l => .array (l.map .double)) <$> format.doubleArray.dec
  | .array .string => (fun l => .array (l.map .string)) <$> format.stringArray.dec
  | .array (.dictEntry .string .variant) => do
    let flag ← format.int32.dec
    if flag = 0 then failure else .bundle <$> format.bundle.dec
  | .array (.array e) => do
    let length ← format.arraySize.dec
    .array <$> readN (readVariant format (.array e)) length
  | _ => failure

/-- The tree of a variant, with the value `leaf` gives to each leaf and the children `children`
gives to each array that is no dictionary. -/
def reading (api : PersistableBundle B) (leaf : GVariant → ParcelValue B)
    (children : {e : GVariantType} → GValue (.array e) → List (GValue e)) :
    (t : GVariantType) → GValue t → ParcelValue B
  | .array (.dictEntry _ _), v => .bundle (pocVardictToBundle api v)
  | .array e, v => .array ((children v).map (reading api leaf children e))
  | t, v => leaf ⟨t, v⟩

/-- The value of a leaf. Unsigned values are read with the same bits. -/
def leafValue : GVariant → ParcelValue B
  | ⟨_, .boolean value⟩ => .bool value
  | ⟨_, .byte value⟩ => .byte value
  | ⟨_, .int32 value⟩ | ⟨_, .uint32 value⟩ => .int32 value
  | ⟨_, .int64 value⟩ | ⟨_, .uint64 value⟩ => .int64 value
  | ⟨_, .double value⟩ => .double value
  | ⟨_, .string value⟩ => .string value
  | _ => .array []

/-- What should be read back. -/
def expected (api : PersistableBundle B) (v : GVariant) : ParcelValue B :=
  reading api leafValue (fun v => v.items.toList) v.type v.value

/-- What the code hands over for a leaf inside an array: a string is cut to its `int32_t` length. -/
def elementValue : GVariant → ParcelValue B
  | ⟨_, .string value⟩ => .string (value.take (int32Count value.length))
  | v => leafValue v

/-- What the code hands over for a leaf outside an array: the signed getter gives zero for a `t`,
and a string is cut to the length that was evaluated. -/
def scalarValue (order : ArgumentOrder) : GVariant → ParcelValue B
  | ⟨_, .uint64 _⟩ => .int64 0
  | ⟨_, .string value⟩ =>
    .string (value.take (int32Count (stringSize order ⟨_, .string value⟩)))
  | v => leafValue v

/-- What the code hands over, leaf by leaf, with the children `children` gives to each array. -/
def handed (api : PersistableBundle B) (order : ArgumentOrder)
    (children : {e : GVariantType} → GValue (.array e) → List (GValue e)) (v : GVariant) :
    ParcelValue B :=
  match v with
  | ⟨.array e, v⟩ => reading api elementValue children (.array e) v
  | v => scalarValue order v

/-! ## What the reader finds -/

section Reader

variable (platform : Platform B) (format : ParcelFormat B)

/-- The tree the code hands over, with as many children as the `int32_t` sizes say. -/
abbrev passed (v : GVariant) : ParcelValue B :=
  handed platform.bundles platform.order GValue.passedItems v

/-- The tree of an element of an array. -/
abbrev passedElement (t : GVariantType) (v : GValue t) : ParcelValue B :=
  reading platform.bundles elementValue GValue.passedItems t v

/-- Reading the elements of the first `n` indices is reading the first `n` elements. -/
theorem map_range_eq_take {α β : Type} (l : List α) (f : α → β) (get : Nat → β)
    (hget : ∀ i a, l[i]? = some a → get i = f a) {n : Nat} (hn : n ≤ l.length) :
    (List.range n).map get = (l.map f).take n := by
  refine List.ext_getElem (by simp [hn]) ?_
  intro i hi _
  rw [List.length_map, List.length_range] at hi
  rw [List.getElem_map, List.getElem_range, List.getElem_take, List.getElem_map]
  exact hget i _ (List.getElem?_eq_getElem (Nat.lt_of_lt_of_le hi hn))

/-- The passed part of an array read child by child. -/
theorem passArray_children {e : GVariantType} {α : Type} (f : GVariant → α)
    (v : GValue (.array e)) :
    passArray ((GVariant.children ⟨_, v⟩).map f) = v.passedItems.map fun item => f ⟨e, item⟩ := by
  rw [v.children_eq, List.map_map, GValue.passedItems, passArray, passArray, List.length_map,
    ← List.map_take]
  rfl

/-- The booleans the getter is asked for. -/
theorem booleanArray_eq (v : GValue (.array .boolean)) :
    ((List.range (int32Count (gVariantNChildren ⟨_, v⟩))).map
        (pocParcelBooleanArrayElementGetter ⟨_, v⟩)) =
      v.passedItems.map fun item => gVariantGetBoolean ⟨_, item⟩ := by
  rw [← passArray_children gVariantGetBoolean, passArray, List.length_map]
  refine map_range_eq_take _ gVariantGetBoolean _ ?_ (int32Count_le _)
  intro i child hchild
  rw [pocParcelBooleanArrayElementGetter, gVariantGetChildBoolean, hchild]

/-- The strings the getter is asked for, cut to the length it sets. -/
theorem stringArray_eq (v : GValue (.array .string)) :
    ((List.range (int32Count (gVariantNChildren ⟨_, v⟩))).map fun index =>
        let element := pocParcelStringArrayElementGetter ⟨_, v⟩ index
        element.1.take element.2) =
      v.passedItems.map fun item =>
        (gVariantGetString ⟨_, item⟩).take (int32Count (gVariantGetString ⟨_, item⟩).length) := by
  rw [← passArray_children fun child =>
    (gVariantGetString child).take (int32Count (gVariantGetString child).length), passArray,
    List.length_map]
  refine map_range_eq_take _ _ _ ?_ (int32Count_le _)
  intro i child hchild
  simp only [pocParcelStringArrayElementGetter, gVariantGetChildString, strlen_eq, hchild]

/-- A passed array is no longer than an `int32_t` says. -/
theorem GValue.length_passedItems_lt {e : GVariantType} (v : GValue (.array e)) :
    v.passedItems.length < 2 ^ 31 := by
  rw [v.length_passedItems]
  exact int32Count_lt _

/-- An array of basic values is read back as the tree of its passed children. -/
theorem recovers_basicArray {e : GVariantType} {α : Type} {dom : List α → Prop}
    (c : Codec Byte (List α) dom) (con : α → ParcelValue B) (f : GValue e → α)
    (v : GValue (.array e)) (hdom : dom (v.passedItems.map f))
    (hleaf : ∀ item, con (f item) = passedElement platform e item) :
    Recovers ((fun l => ParcelValue.array (l.map con)) <$> c.dec)
      (c.enc (v.passedItems.map f) ++ [])
      (ParcelValue.array (v.passedItems.map (passedElement platform e))) := by
  have hmap := (c.recovers _ hdom).map fun l => ParcelValue.array (l.map con)
  have hitems : v.passedItems.map (con ∘ f) = v.passedItems.map (passedElement platform e) :=
    List.map_congr_left fun item _ => hleaf item
  rw [List.map_map, hitems] at hmap
  rwa [List.append_nil]

/-- An array that is copied as a whole is read back as the tree of its passed children. -/
theorem recovers_fixedArray {e : GVariantType} {α : Type}
    (c : Codec Byte (List α) (·.length < 2 ^ 31)) (con : α → ParcelValue B) (get : GVariant → α)
    (v : GValue (.array e)) (hleaf : ∀ item, con (get ⟨e, item⟩) = passedElement platform e item) :
    Recovers ((fun l => ParcelValue.array (l.map con)) <$> c.dec)
      (c.enc (passArray ((GVariant.children ⟨_, v⟩).map get)) ++ [])
      (ParcelValue.array (v.passedItems.map (passedElement platform e))) := by
  rw [passArray_children]
  refine recovers_basicArray platform c con (fun item => get ⟨e, item⟩) v ?_ hleaf
  rw [List.length_map]
  exact v.length_passedItems_lt

/-- A basic value is read back as it was handed over. -/
theorem recovers_scalar {α : Type} {dom : α → Prop} (c : Codec Byte α dom)
    (con : α → ParcelValue B) (a : α) (h : dom a) :
    Recovers (con <$> c.dec) (c.enc a ++ []) (con a) := by
  rw [List.append_nil]
  exact (c.recovers a h).map con

/-- A string cut to an `int32_t` length is no longer than that. -/
theorem GString.length_take_lt (s : GString) (n : Nat) :
    (s.take (int32Count n)).length < 2 ^ 31 := by
  have hle : (s.take (int32Count n)).length ≤ int32Count n := by
    simp [length, take]
  exact Nat.lt_of_le_of_lt hle (int32Count_lt n)

/-- A bundle is read back behind its non-null flag. -/
theorem recovers_bundle (v : GValue .vardict) :
    Recovers (readVariant format .vardict)
      ((writes platform .vardict v).flatMap (Write.bytes format))
      (.bundle (pocVardictToBundle platform.bundles v)) := by
  have hflag := format.int32.recovers 1 trivial
  have hbundle := (format.bundle.recovers (pocVardictToBundle platform.bundles v) trivial).map
    ParcelValue.bundle
  rw [← List.append_nil (format.bundle.enc _)] at hbundle
  show Recovers (format.int32.dec >>= fun flag =>
    if flag = 0 then failure else ParcelValue.bundle <$> format.bundle.dec) _ _
  exact hflag.bind hbundle

/-- An array of arrays is read back element by element behind its size. -/
theorem recovers_elements {e : GVariantType} (v : GValue (.array (.array e)))
    (h : ∀ item : GValue (.array e), Recovers (readVariant format (.array e))
      ((writes platform (.array e) item).flatMap (Write.bytes format))
      (passedElement platform (.array e) item)) :
    Recovers (readVariant format (.array (.array e)))
      ((writes platform (.array (.array e)) v).flatMap (Write.bytes format))
      (.array (v.passedItems.map (passedElement platform (.array e)))) := by
  have hsize := format.arraySize.recovers v.passedItems.length v.length_passedItems_lt
  have hitems := (Recovers.readN v.passedItems fun item _ => h item).map ParcelValue.array
  rw [writes_elements rfl, List.flatMap_cons, List.flatMap_assoc]
  show Recovers (format.arraySize.dec >>= fun length =>
    ParcelValue.array <$> readN (readVariant format (.array e)) length) _ _
  exact hsize.bind hitems

/-- **What is read back behind a run without failures is the tree the code hands over.** -/
theorem recovers_passed :
    ∀ (t : GVariantType) (v : GValue t), t.supported = true →
      Recovers (readVariant format t) ((writes platform t v).flatMap (Write.bytes format))
        (passed platform ⟨t, v⟩) := by
  intro t
  induction t with
  | array e ih =>
    intro v ht
    cases e with
    | array e => exact recovers_elements platform format v fun item => ih item ht
    | dictEntry k u =>
      obtain ⟨rfl, rfl⟩ : k = .string ∧ u = .variant := by
        simpa [GVariantType.supported] using ht
      exact recovers_bundle platform format v
    | boolean =>
      have hdom : (v.passedItems.map fun item => gVariantGetBoolean ⟨_, item⟩).length < 2 ^ 31 := by
        rw [List.length_map]
        exact v.length_passedItems_lt
      have hrec := recovers_basicArray platform format.boolArray .bool _ v hdom
        (by rintro ⟨⟩; rfl)
      rw [← booleanArray_eq] at hrec
      exact hrec
    | string =>
      have hdom : (v.passedItems.map fun item => (gVariantGetString ⟨_, item⟩).take
            (int32Count (gVariantGetString ⟨_, item⟩).length)).length < 2 ^ 31 ∧
          ∀ s ∈ v.passedItems.map fun item => (gVariantGetString ⟨_, item⟩).take
            (int32Count (gVariantGetString ⟨_, item⟩).length), s.length < 2 ^ 31 := by
        refine ⟨by rw [List.length_map]; exact v.length_passedItems_lt, ?_⟩
        intro s hs
        obtain ⟨item, -, rfl⟩ := List.mem_map.1 hs
        exact GString.length_take_lt _ _
      have hrec := recovers_basicArray platform format.stringArray .string _ v hdom
        (by rintro ⟨⟩; rfl)
      rw [← stringArray_eq] at hrec
      exact hrec
    | byte =>
      exact recovers_fixedArray platform format.byteArray .byte gVariantGetByte v
        (by rintro ⟨⟩; rfl)
    | int32 | uint32 =>
      exact recovers_fixedArray platform format.int32Array .int32 gVariantData32 v
        (by rintro ⟨⟩; rfl)
    | int64 | uint64 =>
      exact recovers_fixedArray platform format.int64Array .int64 gVariantData64 v
        (by rintro ⟨⟩; rfl)
    | double =>
      exact recovers_fixedArray platform format.doubleArray .double gVariantData64 v
        (by rintro ⟨⟩; rfl)
    | _ => cases ht
  | boolean =>
    intro v _
    cases v with
    | boolean b => exact recovers_scalar format.bool .bool b trivial
  | byte =>
    intro v _
    cases v with
    | byte n => exact recovers_scalar format.byte .byte n trivial
  | int32 =>
    intro v _
    cases v with
    | int32 n => exact recovers_scalar format.int32 .int32 n trivial
  | uint32 =>
    intro v _
    cases v with
    | uint32 n => exact recovers_scalar format.int32 .int32 n trivial
  | int64 =>
    intro v _
    cases v with
    | int64 n => exact recovers_scalar format.int64 .int64 n trivial
  | uint64 =>
    -- the getter of the signed type gives zero for an unsigned value
    intro v _
    cases v with
    | uint64 n => exact recovers_scalar format.int64 .int64 0 trivial
  | double =>
    intro v _
    cases v with
    | double n => exact recovers_scalar format.double .double n trivial
  | string =>
    intro v _
    cases v with
    | string s => exact recovers_scalar format.string .string _ (GString.length_take_lt s _)
  | _ =>
    intro v ht
    cases ht

end Reader

end FwupdPoc

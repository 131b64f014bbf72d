import FwupdPoc.Aidl

/-!
# Versions of the parcelables

The size of a block is what lets the two sides of a transaction be built from different versions of
an AIDL file. A writer that knows fewer fields than the reader stops early, and the reader has the
defaults for the others; a writer that knows more has bytes behind the fields that the reader
knows, and the reader passes over them (`ReadsBack.block`). This holds at both levels of
`DeepExample`, whatever the versions of the two blocks are (`DeepExample.write_readsBack`), and for
null strings and objects.
-/

namespace Wire.ReadsBack

variable {σ α : Type}

/-- A block with more in it than its fields. -/
theorem block {readSize : Cursor σ Nat} {fields : Nat → Nat → Cursor σ α}
    {before head body extra : List σ} {a : α}
    (hsize : ReadsBack readSize before head (head ++ (body ++ extra)).length)
    (hfields : ReadsBack (fields before.length (head ++ (body ++ extra)).length) (before ++ head)
      body a) :
    ReadsBack (Cursor.sized readSize fields) before (head ++ (body ++ extra)) a := by
  intro after
  rw [Cursor.sized_eq_some]
  refine ⟨(head ++ (body ++ extra)).length, (before ++ head).length,
    (before ++ head ++ body).length, ?_, ?_, ?_⟩
  · rw [List.append_assoc]
    exact hsize (body ++ extra ++ after)
  · have hread := hfields (extra ++ after)
    simp only [List.append_assoc] at hread ⊢
    exact hread
  · rw [List.length_append]

/-- A field that is written, or that the block ends in front of. -/
theorem fieldIf {c : Cursor σ α} {before bytes : List σ} {a : α} {start size : Nat} (default : α)
    (written : Prop) [Decidable written] (h : written → ReadsBack c before bytes a)
    (hstart : written → before.length - start < size)
    (hend : ¬ written → size ≤ before.length - start) :
    ReadsBack (Cursor.field start size default c) before (if written then bytes else [])
      (if written then a else default) := by
  by_cases hwritten : written
  · rw [if_pos hwritten, if_pos hwritten]
    exact field default (h hwritten) (hstart hwritten)
  · rw [if_neg hwritten, if_neg hwritten]
    intro after
    rw [Cursor.field_of_le (hend hwritten), List.append_nil]

end Wire.ReadsBack

namespace FwupdPoc.Aidl

open Wire Utf16

/-! ## Writers -/

/-- A string that may be null. -/
def nullableString16Enc : Option Units → List Byte
  | none => int32Enc (-1)
  | some units => string16Enc units

/-- A version of the writer of a parcelable: how many of the fields that the reader knows it knows,
and what it writes for fields that the reader does not know. -/
structure Version where
  fields : Nat
  extra : List Byte

namespace Version

/-- The version adds fields behind all `n` fields that the reader knows, or none. -/
def Extends (version : Version) (n : Nat) : Prop := version.fields < n → version.extra = []

/-- What the version writes for field number `i`. -/
def field (version : Version) (i : Nat) (bytes : List Byte) : List Byte :=
  if i < version.fields then bytes else []

/-- What a reader has of field number `i`. -/
def value {α : Type} (version : Version) (i : Nat) (default a : α) : α :=
  if i < version.fields then a else default

end Version

/-- The bytes that a version writes for a device. -/
def Device.write (version : Version) (device : Device) : List Byte :=
  frame (version.field 0 (int32Enc device.id) ++ (version.field 1 (int32Enc device.ido) ++
    (version.field 2 (nullableString16Enc device.path) ++ version.extra)))

/-- What a reader has of a device that this version has written. -/
def Device.known (version : Version) (device : Device) : Device where
  id := version.value 0 0 device.id
  ido := version.value 1 0 device.ido
  path := version.value 2 none device.path

/-- The bytes that a version writes for an inner example. -/
def OtherExample.write (version : Version) (other : OtherExample) : List Byte :=
  frame (version.field 0 (int32Enc other.id) ++
    (version.field 1 (nullableString16Enc other.example') ++ version.extra))

/-- What a reader has of an inner example that this version has written. -/
def OtherExample.known (version : Version) (other : OtherExample) : OtherExample where
  id := version.value 0 0 other.id
  example' := version.value 1 none other.example'

/-- The bytes for an inner example that may be null. -/
def nullableOtherEnc (version : Version) : Option OtherExample → List Byte
  | none => int32Enc 0
  | some other => other.write version

/-- The bytes that a version writes for an outer example, with an inner one of another version. -/
def DeepExample.write (version inner : Version) (deep : DeepExample) : List Byte :=
  frame (version.field 0 (nullableOtherEnc inner deep.other) ++
    (version.field 1 (int32Enc deep.id) ++
      (version.field 2 (nullableString16Enc deep.example') ++ version.extra)))

/-- What a reader has of an outer example that these versions have written. -/
def DeepExample.known (version inner : Version) (deep : DeepExample) : DeepExample where
  other := version.value 0 none (deep.other.map (OtherExample.known inner))
  id := version.value 1 0 deep.id
  example' := version.value 2 none deep.example'

/-! ## Reading -/

/-- A string that may be null is read back. -/
theorem nullableString_readsBack {text : Option Units}
    (h : (nullableString16Enc text).length < 2 ^ 31) (before : List Byte) :
    ReadsBack readString before (nullableString16Enc text) text := by
  cases text with
  | none =>
    rw [nullableString16Enc, ← List.append_nil (int32Enc _)]
    refine (int32_readsBack _ before).bind ?_
    rw [if_pos (by decide)]
    exact ReadsBack.pure _ none
  | some units =>
    rw [nullableString16Enc, length_string16Enc] at h
    refine string_readsBack ?_ before
    unfold paddedSize at h
    omega

theorem length_nullableString16Enc_pos (text : Option Units) :
    0 < (nullableString16Enc text).length := by
  cases text with
  | none => exact Nat.succ_pos _
  | some units =>
    rw [nullableString16Enc, length_string16Enc]
    omega

/-- A frame is read back where the fields at its start are. -/
theorem frame_readsBlock {α : Type} {fields : Nat → Nat → Cursor Byte α} {body extra : List Byte}
    {a : α} {before : List Byte} (hmost : 4 + (body ++ extra).length < 2 ^ 31)
    (hfields : ∀ front : List Byte, front.length = before.length + 8 →
      ReadsBack (fields (before.length + 4) (4 + (body ++ extra).length)) front body a) :
    ReadsBack (readTypedObject (Cursor.sized readSize fields)) before (frame (body ++ extra))
      (some a) := by
  have hlength : ∀ word, (int32Enc word ++ (body ++ extra)).length = 4 + (body ++ extra).length :=
    fun word => by rw [List.length_append, length_int32Enc]
  refine (int32_readsBack 1 before).bind ?_
  rw [if_neg (by decide)]
  refine ReadsBack.map some (ReadsBack.block ?_ ?_)
  · rw [hlength]
    exact size_readsBack (by omega) hmost _
  · have hstart : (before ++ int32Enc 1).length = before.length + 4 := by
      rw [List.length_append, length_int32Enc]
    rw [hlength, hstart]
    refine hfields _ ?_
    rw [List.length_append, hstart, length_int32Enc]

/-- What a version writes for a field is read back, with the default where it writes nothing. -/
theorem Version.field_readsBack {α : Type} {version : Version} {i : Nat} {c : Cursor Byte α}
    {before bytes : List Byte} {default a : α} {start size : Nat}
    (h : i < version.fields → ReadsBack c before bytes a)
    (hstart : i < version.fields → before.length - start < size)
    (hend : ¬ i < version.fields → size ≤ before.length - start) :
    ReadsBack (Cursor.field start size default c) before (version.field i bytes)
      (version.value i default a) :=
  .fieldIf default (i < version.fields) h hstart hend

theorem Version.length_field (version : Version) (i : Nat) (bytes : List Byte) :
    (i < version.fields → (version.field i bytes).length = bytes.length) ∧
      (¬ i < version.fields → (version.field i bytes).length = 0) := by
  refine ⟨fun h => ?_, fun h => ?_⟩
  · rw [Version.field, if_pos h]
  · rw [Version.field, if_neg h]
    rfl

theorem Version.Extends.length_extra {version : Version} {n : Nat} (h : version.Extends n) :
    version.fields < n → version.extra.length = 0 := fun hfields => by
  rw [h hfields]
  rfl

/-- A device is read whatever the version of its writer is. -/
theorem Device.write_readsBack {version : Version} (hextends : version.Extends 3) (device : Device)
    (hfits : (device.write version).length < 2 ^ 31) (before : List Byte) :
    ReadsBack (readTypedObject Device.readFromParcel) before (device.write version)
      (some (device.known version)) := by
  have hpath := length_nullableString16Enc_pos device.path
  have hextra := hextends.length_extra
  obtain ⟨hid, hid'⟩ := version.length_field 0 (int32Enc device.id)
  obtain ⟨hido, hido'⟩ := version.length_field 1 (int32Enc device.ido)
  obtain ⟨htext, htext'⟩ := version.length_field 2 (nullableString16Enc device.path)
  rw [length_int32Enc] at hid hido
  rw [Device.write, length_frame] at hfits
  simp only [List.length_append] at hfits
  have hwrite : device.write version = frame ((version.field 0 (int32Enc device.id) ++
      (version.field 1 (int32Enc device.ido) ++
        version.field 2 (nullableString16Enc device.path))) ++ version.extra) := by
    rw [Device.write, List.append_assoc, List.append_assoc]
  rw [hwrite]
  refine frame_readsBlock ?_ fun front hfront => ?_
  · simp only [List.length_append]
    omega
  · simp only [List.length_append]
    refine (Version.field_readsBack (fun _ => int32_readsBack _ _) ?_ ?_).bind ?_
    · omega
    · omega
    refine (Version.field_readsBack (fun _ => int32_readsBack _ _) ?_ ?_).bind ?_
    · rw [List.length_append]
      omega
    · rw [List.length_append]
      omega
    refine ReadsBack.map _ (Version.field_readsBack (fun h => nullableString_readsBack ?_ _) ?_ ?_)
    · omega
    · simp only [List.length_append]
      omega
    · simp only [List.length_append]
      omega

/-- An inner example is read whatever the version of its writer is. -/
theorem OtherExample.write_readsBack {version : Version} (hextends : version.Extends 2)
    (other : OtherExample) (hfits : (other.write version).length < 2 ^ 31) (before : List Byte) :
    ReadsBack (readTypedObject OtherExample.readFromParcel) before (other.write version)
      (some (other.known version)) := by
  have hexample := length_nullableString16Enc_pos other.example'
  have hextra := hextends.length_extra
  obtain ⟨hid, hid'⟩ := version.length_field 0 (int32Enc other.id)
  obtain ⟨htext, htext'⟩ := version.length_field 1 (nullableString16Enc other.example')
  rw [length_int32Enc] at hid
  rw [OtherExample.write, length_frame] at hfits
  simp only [List.length_append] at hfits
  have hwrite : other.write version = frame ((version.field 0 (int32Enc other.id) ++
      version.field 1 (nullableString16Enc other.example')) ++ version.extra) := by
    rw [OtherExample.write, List.append_assoc]
  rw [hwrite]
  refine frame_readsBlock ?_ fun front hfront => ?_
  · simp only [List.length_append]
    omega
  · simp only [List.length_append]
    refine (Version.field_readsBack (fun _ => int32_readsBack _ _) ?_ ?_).bind ?_
    · omega
    · omega
    refine ReadsBack.map _ (Version.field_readsBack (fun h => nullableString_readsBack ?_ _) ?_ ?_)
    · omega
    · simp only [List.length_append]
      omega
    · simp only [List.length_append]
      omega

/-- An inner example that may be null is read. -/
theorem nullableOther_readsBack {version : Version} (hextends : version.Extends 2)
    {other : Option OtherExample} (hfits : (nullableOtherEnc version other).length < 2 ^ 31)
    (before : List Byte) :
    ReadsBack (readTypedObject OtherExample.readFromParcel) before (nullableOtherEnc version other)
      (other.map (OtherExample.known version)) := by
  cases other with
  | none =>
    rw [nullableOtherEnc, ← List.append_nil (int32Enc _)]
    refine (int32_readsBack _ before).bind ?_
    rw [if_pos rfl]
    exact ReadsBack.pure _ none
  | some other => exact other.write_readsBack hextends hfits before

theorem length_nullableOtherEnc_pos (version : Version) (other : Option OtherExample) :
    0 < (nullableOtherEnc version other).length := by
  cases other with
  | none => exact Nat.succ_pos _
  | some other =>
    rw [nullableOtherEnc, OtherExample.write, length_frame]
    omega

/-- An outer example is read whatever the versions of the writers of its two blocks are. -/
theorem DeepExample.write_readsBack {version inner : Version} (hextends : version.Extends 3)
    (hinner : inner.Extends 2) (deep : DeepExample)
    (hfits : (deep.write version inner).length < 2 ^ 31) (before : List Byte) :
    ReadsBack (readTypedObject DeepExample.readFromParcel) before (deep.write version inner)
      (some (deep.known version inner)) := by
  have hexample := length_nullableString16Enc_pos deep.example'
  have hnested := length_nullableOtherEnc_pos inner deep.other
  have hextra := hextends.length_extra
  obtain ⟨hother, hother'⟩ := version.length_field 0 (nullableOtherEnc inner deep.other)
  obtain ⟨hid, hid'⟩ := version.length_field 1 (int32Enc deep.id)
  obtain ⟨htext, htext'⟩ := version.length_field 2 (nullableString16Enc deep.example')
  rw [length_int32Enc] at hid
  rw [DeepExample.write, length_frame] at hfits
  simp only [List.length_append] at hfits
  have hwrite : deep.write version inner =
      frame ((version.field 0 (nullableOtherEnc inner deep.other) ++
        (version.field 1 (int32Enc deep.id) ++
          version.field 2 (nullableString16Enc deep.example'))) ++ version.extra) := by
    rw [DeepExample.write, List.append_assoc, List.append_assoc]
  rw [hwrite]
  refine frame_readsBlock ?_ fun front hfront => ?_
  · simp only [List.length_append]
    omega
  · simp only [List.length_append]
    refine (Version.field_readsBack (fun h => nullableOther_readsBack hinner ?_ _) ?_ ?_).bind ?_
    · omega
    · omega
    · omega
    refine (Version.field_readsBack (fun _ => int32_readsBack _ _) ?_ ?_).bind ?_
    · rw [List.length_append]
      omega
    · rw [List.length_append]
      omega
    refine ReadsBack.map _ (Version.field_readsBack (fun h => nullableString_readsBack ?_ _) ?_ ?_)
    · omega
    · simp only [List.length_append]
      omega
    · simp only [List.length_append]
      omega

end FwupdPoc.Aidl

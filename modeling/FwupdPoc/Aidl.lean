import FwupdPoc.GLib.Variant
import FwupdPoc.Lib.Cursor
import FwupdPoc.Lib.Utf16

/-!
# AIDL parcelables

The parcelables `Device`, `OtherExample` and `DeepExample` of the client as the code generated from
their AIDL files reads them. A parcelable is a flag, zero for a null one, and a block: its size in
bytes, which counts the word it is written in, and its fields, in the order of the file. The reader
stops in front of a field where the size is used up, and goes on behind the block where the size
says, so it depends on the size being right.

`frame` is the parcelable that has the right size, and the readers take back the frames of all
values that fit: `Device.readsBack`, `DeepExample.readsBack`.
-/

namespace FwupdPoc.Aidl

open Wire Utf16

/-! ## Words and strings -/

/-- The zeros behind `n` bytes, up to a multiple of 4. -/
def padding (n : Nat) : List Byte := List.replicate ((4 - n % 4) % 4) 0

/-- A word. -/
def int32Enc (value : BitVec 32) : List Byte := (Codec.word 4).enc value

/-- A string: its length in code units, the code units, a zero, and the padding. -/
def string16Enc (units : Units) : List Byte :=
  int32Enc (BitVec.ofNat 32 units.length) ++
    (units.flatMap (Codec.word 2).enc ++ ((Codec.word 2).enc 0 ++ padding (2 * (units.length + 1))))

/-- The bytes of a string behind its length. -/
def paddedSize (length : Nat) : Nat := (2 * (length + 1) + 3) / 4 * 4

/-- Reads a string behind its length. -/
def string16Dec (length : Nat) : Reader Byte (Option Units) := do
  let units ← readN (Codec.word 2).dec length
  let _ ← (Codec.word 2).dec
  let _ ← readN readSymbol (padding (2 * (length + 1))).length
  return some units

@[simp] theorem length_int32Enc (value : BitVec 32) : (int32Enc value).length = 4 :=
  Codec.length_word_enc 4 value

/-- A number that an `int32` can hold. -/
theorem toNat_ofNat {n : Nat} (h : n < 2 ^ 31) : (BitVec.ofNat 32 n).toNat = n := by
  rw [BitVec.toNat_ofNat]
  omega

theorem toInt_ofNat {n : Nat} (h : n < 2 ^ 31) : (BitVec.ofNat 32 n).toInt = n := by
  rw [BitVec.toInt_eq_toNat_of_lt, toNat_ofNat h]
  rw [toNat_ofNat h]
  omega

theorem length_flatMap_word (units : Units) :
    (units.flatMap (Codec.word 2).enc).length = 2 * units.length := by
  induction units with
  | nil => rfl
  | cons unit units ih =>
    rw [List.flatMap_cons, List.length_append, ih, Codec.length_word_enc, List.length_cons]
    omega

@[simp] theorem length_string16Enc (units : Units) :
    (string16Enc units).length = 4 + paddedSize units.length := by
  simp only [string16Enc, List.length_append, length_int32Enc, length_flatMap_word,
    Codec.length_word_enc, padding, List.length_replicate, paddedSize]
  omega

/-- A block of symbols is read one by one. -/
theorem readN_symbols (bytes : List Byte) :
    Recovers (readN readSymbol bytes.length) bytes bytes := by
  have hread : Recovers (readN readSymbol bytes.length) (bytes.flatMap fun b => [b])
      (bytes.map id) := Recovers.readN bytes fun b _ => Recovers.symbol b
  simpa using hread

/-- A string is read back behind its length. -/
theorem string16_recovers (units : Units) :
    Recovers (string16Dec units.length)
      (units.flatMap (Codec.word 2).enc ++
        ((Codec.word 2).enc 0 ++ padding (2 * (units.length + 1)))) (some units) := by
  have hunits : Recovers (readN (Codec.word 2).dec units.length)
      (units.flatMap (Codec.word 2).enc) units := by
    have hread := Recovers.readN (f := id) units fun u _ => (Codec.word 2).recovers u trivial
    rwa [List.map_id] at hread
  refine hunits.bind (((Codec.word 2).recovers 0 trivial).bind ?_)
  have hpadding := (readN_symbols (padding (2 * (units.length + 1)))).map fun _ => some units
  exact hpadding

/-- `Parcel.readInt`: zero where there is no word. -/
def readInt32 : Cursor Byte (BitVec 32) := Cursor.readOr 0 (Codec.word 4).dec

/-- `Parcel.readString`: null where the length is negative, or there is no string of this length. -/
def readString : Cursor Byte (Option Units) := do
  let length ← readInt32
  if length.toInt < 0 then return none else Cursor.readOr none (string16Dec length.toNat)

/-- A word is read back. -/
theorem int32_readsBack (value : BitVec 32) (before : List Byte) :
    ReadsBack readInt32 before (int32Enc value) value :=
  .readOr 0 ((Codec.word 4).recovers value trivial) before

/-- A string is read back. -/
theorem string_readsBack {units : Units} (h : units.length < 2 ^ 31) (before : List Byte) :
    ReadsBack readString before (string16Enc units) (some units) := by
  have hlength : ¬ (BitVec.ofNat 32 units.length).toInt < 0 := by
    rw [toInt_ofNat h]
    omega
  refine (int32_readsBack _ before).bind ?_
  rw [if_neg hlength, toNat_ofNat h]
  exact .readOr none (string16_recovers units) _

/-! ## Parcelables -/

/-- The size of a parcelable. One that is less than 4 is a `BadParcelableException`. -/
def readSize : Cursor Byte Nat := do
  let size ← readInt32
  if size.toInt < 4 then Cursor.fail else return size.toNat

/-- `Parcel.readTypedObject`, where `readFromParcel` is the creator. -/
def readTypedObject {α : Type} (readFromParcel : Cursor Byte α) : Cursor Byte (Option α) := do
  let flag ← readInt32
  if flag = 0 then return none else some <$> readFromParcel

/-- The parcelable `Device`. -/
structure Device where
  id : BitVec 32
  ido : BitVec 32
  path : Option Units
  deriving DecidableEq

/-- The fields of a `Device`. -/
def Device.readFields (start size : Nat) : Cursor Byte Device := do
  let id ← Cursor.field start size 0 readInt32
  let ido ← Cursor.field start size 0 readInt32
  let path ← Cursor.field start size none readString
  return ⟨id, ido, path⟩

/-- `Device.readFromParcel`. -/
def Device.readFromParcel : Cursor Byte Device := Cursor.sized readSize Device.readFields

/-- The parcelable `OtherExample`. -/
structure OtherExample where
  id : BitVec 32
  example' : Option Units
  deriving DecidableEq

/-- The fields of an `OtherExample`. -/
def OtherExample.readFields (start size : Nat) : Cursor Byte OtherExample := do
  let id ← Cursor.field start size 0 readInt32
  let example' ← Cursor.field start size none readString
  return ⟨id, example'⟩

/-- `OtherExample.readFromParcel`. -/
def OtherExample.readFromParcel : Cursor Byte OtherExample :=
  Cursor.sized readSize OtherExample.readFields

/-- The parcelable `DeepExample`. -/
structure DeepExample where
  other : Option OtherExample
  id : BitVec 32
  example' : Option Units
  deriving DecidableEq

/-- The fields of a `DeepExample`. -/
def DeepExample.readFields (start size : Nat) : Cursor Byte DeepExample := do
  let other ← Cursor.field start size none (readTypedObject OtherExample.readFromParcel)
  let id ← Cursor.field start size 0 readInt32
  let example' ← Cursor.field start size none readString
  return ⟨other, id, example'⟩

/-- `DeepExample.readFromParcel`. -/
def DeepExample.readFromParcel : Cursor Byte DeepExample :=
  Cursor.sized readSize DeepExample.readFields

/-- A size that is read is at least 4. -/
theorem readSize_eq_some {data : List Byte} {position size q : Nat} :
    readSize data position = some (size, q) ↔
      ∃ word, readInt32 data position = some (word, q) ∧ 4 ≤ word.toInt ∧ size = word.toNat := by
  unfold readSize
  rw [Cursor.bind_eq_some]
  refine ⟨?_, ?_⟩
  · rintro ⟨word, q', hword, hsize⟩
    split at hsize
    · cases hsize
    · rename_i hleast
      cases hsize
      exact ⟨word, hword, Int.not_lt.1 hleast, rfl⟩
  · rintro ⟨word, hword, hleast, rfl⟩
    refine ⟨word, q, hword, ?_⟩
    rw [if_neg (Int.not_lt.2 hleast)]
    rfl

/-- A parcelable that is not null is behind a flag. -/
theorem readTypedObject_eq_some {α : Type} {readFromParcel : Cursor Byte α} {data : List Byte}
    {position q : Nat} {a : α} :
    readTypedObject readFromParcel data position = some (some a, q) ↔
      ∃ flag p, readInt32 data position = some (flag, p) ∧ flag ≠ 0 ∧
        readFromParcel data p = some (a, q) := by
  unfold readTypedObject
  rw [Cursor.bind_eq_some]
  refine ⟨?_, ?_⟩
  · rintro ⟨flag, p, hflag, hread⟩
    split at hread
    · cases hread
    · rename_i hpresent
      obtain ⟨a', hread, hsome⟩ := Cursor.map_eq_some.1 hread
      cases hsome
      exact ⟨flag, p, hflag, hpresent, hread⟩
  · rintro ⟨flag, p, hflag, hpresent, hread⟩
    refine ⟨flag, p, hflag, ?_⟩
    rw [if_neg hpresent]
    exact Cursor.map_eq_some.2 ⟨a, hread, rfl⟩

/-- Where the fields of an inner example come from. -/
theorem OtherExample.readFields_eq_some {start size : Nat} {data : List Byte} {position q : Nat}
    {other : OtherExample}
    (h : OtherExample.readFields start size data position = some (other, q)) :
    ∃ p, Cursor.field start size 0 readInt32 data position = some (other.id, p) ∧
      Cursor.field start size none readString data p = some (other.example', q) := by
  obtain ⟨id, p, hid, h⟩ := Cursor.bind_eq_some.1 h
  obtain ⟨example', q', hexample, h⟩ := Cursor.bind_eq_some.1 h
  cases h
  exact ⟨p, hid, hexample⟩

/-- Where the inner example of an outer one comes from. -/
theorem DeepExample.readFields_other {start size : Nat} {data : List Byte} {position q : Nat}
    {deep : DeepExample} (h : DeepExample.readFields start size data position = some (deep, q)) :
    ∃ p, Cursor.field start size none (readTypedObject OtherExample.readFromParcel) data position =
      some (deep.other, p) := by
  obtain ⟨other, p, hother, h⟩ := Cursor.bind_eq_some.1 h
  obtain ⟨id, p', -, h⟩ := Cursor.bind_eq_some.1 h
  obtain ⟨example', q', -, h⟩ := Cursor.bind_eq_some.1 h
  cases h
  exact ⟨p, hother⟩

/-! ## Frames -/

/-- The parcelable with these bytes for its fields. -/
def frame (fields : List Byte) : List Byte :=
  int32Enc 1 ++ (int32Enc (BitVec.ofNat 32 (4 + fields.length)) ++ fields)

theorem length_frame (fields : List Byte) : (frame fields).length = 8 + fields.length := by
  simp only [frame, List.length_append, length_int32Enc]
  omega

/-- A size that is a positive number is read back. -/
theorem size_readsBack {size : Nat} (hleast : 4 ≤ size) (hmost : size < 2 ^ 31)
    (before : List Byte) :
    ReadsBack readSize before (int32Enc (BitVec.ofNat 32 size)) size := by
  have hsize : ¬ (BitVec.ofNat 32 size).toInt < 4 := by
    rw [toInt_ofNat hmost]
    omega
  rw [← List.append_nil (int32Enc _)]
  refine (int32_readsBack _ before).bind ?_
  rw [if_neg hsize, toNat_ofNat hmost]
  exact ReadsBack.pure _ size

/-- A frame is read back where its fields are, within a block of its size. -/
theorem frame_readsBack {α : Type} {fields : Nat → Nat → Cursor Byte α} {bytes : List Byte} {a : α}
    {before : List Byte} (hmost : 4 + bytes.length < 2 ^ 31)
    (hfields : ∀ front : List Byte, front.length = before.length + 8 →
      ReadsBack (fields (before.length + 4) (4 + bytes.length)) front bytes a) :
    ReadsBack (readTypedObject (Cursor.sized readSize fields)) before (frame bytes) (some a) := by
  refine (int32_readsBack 1 before).bind ?_
  rw [if_neg (by decide)]
  refine ReadsBack.map some (ReadsBack.sized ?_ ?_)
  · rw [List.length_append, length_int32Enc]
    exact size_readsBack (by omega) hmost _
  · rw [List.length_append, List.length_append, length_int32Enc, length_int32Enc]
    exact hfields _ (by simp only [List.length_append, length_int32Enc])

/-- The fields of a `Device`. -/
def Device.fields (id ido : BitVec 32) (path : Units) : List Byte :=
  int32Enc id ++ (int32Enc ido ++ string16Enc path)

/-- The fields of an `OtherExample`. -/
def OtherExample.fields (id : BitVec 32) (example' : Units) : List Byte :=
  int32Enc id ++ string16Enc example'

/-- The fields of a `DeepExample`. -/
def DeepExample.fields (otherId : BitVec 32) (otherExample : Units) (id : BitVec 32)
    (example' : Units) : List Byte :=
  frame (OtherExample.fields otherId otherExample) ++ (int32Enc id ++ string16Enc example')

theorem Device.length_fields (id ido : BitVec 32) (path : Units) :
    (Device.fields id ido path).length = 12 + paddedSize path.length := by
  simp only [Device.fields, List.length_append, length_int32Enc, length_string16Enc]
  omega

theorem OtherExample.length_fields (id : BitVec 32) (example' : Units) :
    (OtherExample.fields id example').length = 8 + paddedSize example'.length := by
  simp only [OtherExample.fields, List.length_append, length_int32Enc, length_string16Enc]
  omega

theorem DeepExample.length_fields (otherId : BitVec 32) (otherExample : Units) (id : BitVec 32)
    (example' : Units) :
    (DeepExample.fields otherId otherExample id example').length =
      24 + paddedSize otherExample.length + paddedSize example'.length := by
  simp only [DeepExample.fields, List.length_append, length_frame, OtherExample.length_fields,
    length_int32Enc, length_string16Enc]
  omega

/-- The fields of a device are read back if the path starts within the block. -/
theorem Device.readFields_readsBack {id ido : BitVec 32} {path : Units} {start size : Nat}
    {before : List Byte} (hpath : path.length < 2 ^ 31) (hbefore : before.length = start + 4)
    (hsize : 12 < size) :
    ReadsBack (Device.readFields start size) before (Device.fields id ido path)
      ⟨id, ido, some path⟩ := by
  refine (ReadsBack.field 0 (int32_readsBack id _) ?_).bind ?_
  · omega
  refine (ReadsBack.field 0 (int32_readsBack ido _) ?_).bind ?_
  · rw [List.length_append, length_int32Enc]
    omega
  refine ReadsBack.map _ (ReadsBack.field none (string_readsBack hpath _) ?_)
  simp only [List.length_append, length_int32Enc]
  omega

/-- The fields of an inner example are read back if the string starts within the block. -/
theorem OtherExample.readFields_readsBack {id : BitVec 32} {example' : Units} {start size : Nat}
    {before : List Byte} (hexample : example'.length < 2 ^ 31)
    (hbefore : before.length = start + 4) (hsize : 8 < size) :
    ReadsBack (OtherExample.readFields start size) before (OtherExample.fields id example')
      ⟨id, some example'⟩ := by
  refine (ReadsBack.field 0 (int32_readsBack id _) ?_).bind ?_
  · omega
  refine ReadsBack.map _ (ReadsBack.field none (string_readsBack hexample _) ?_)
  rw [List.length_append, length_int32Enc]
  omega

/-- The frame of a device is read back. -/
theorem Device.readsBack {id ido : BitVec 32} {path : Units}
    (h : 16 + paddedSize path.length < 2 ^ 31) (before : List Byte) :
    ReadsBack (readTypedObject Device.readFromParcel) before (frame (Device.fields id ido path))
      (some ⟨id, ido, some path⟩) := by
  have hpath : path.length < 2 ^ 31 := by
    unfold paddedSize at h
    omega
  have hlength := Device.length_fields id ido path
  exact frame_readsBack (by omega) fun front hfront =>
    Device.readFields_readsBack hpath (by omega) (by omega)

/-- The frame of an inner example is read back. -/
theorem OtherExample.readsBack {id : BitVec 32} {example' : Units}
    (h : 12 + paddedSize example'.length < 2 ^ 31) (before : List Byte) :
    ReadsBack (readTypedObject OtherExample.readFromParcel) before
      (frame (OtherExample.fields id example')) (some ⟨id, some example'⟩) := by
  have hexample : example'.length < 2 ^ 31 := by
    unfold paddedSize at h
    omega
  have hlength := OtherExample.length_fields id example'
  have hpositive : 0 < paddedSize example'.length := by
    unfold paddedSize
    omega
  exact frame_readsBack (by omega) fun front hfront =>
    OtherExample.readFields_readsBack hexample (by omega) (by omega)

/-- The frame of an outer example is read back. -/
theorem DeepExample.readsBack {otherId id : BitVec 32} {otherExample example' : Units}
    (h : 28 + paddedSize otherExample.length + paddedSize example'.length < 2 ^ 31)
    (before : List Byte) :
    ReadsBack (readTypedObject DeepExample.readFromParcel) before
      (frame (DeepExample.fields otherId otherExample id example'))
      (some ⟨some ⟨otherId, some otherExample⟩, id, some example'⟩) := by
  have hexample : example'.length < 2 ^ 31 := by
    unfold paddedSize at h
    omega
  have hother : 12 + paddedSize otherExample.length < 2 ^ 31 := by omega
  have hlength := DeepExample.length_fields otherId otherExample id example'
  have hinner := OtherExample.length_fields otherId otherExample
  refine frame_readsBack (by omega) fun front hfront => ?_
  refine (ReadsBack.field none (OtherExample.readsBack hother _) ?_).bind ?_
  · omega
  refine (ReadsBack.field 0 (int32_readsBack id _) ?_).bind ?_
  · rw [List.length_append, length_frame]
    omega
  refine ReadsBack.map _ (ReadsBack.field none (string_readsBack hexample _) ?_)
  simp only [List.length_append, length_int32Enc, length_frame]
  omega

end FwupdPoc.Aidl

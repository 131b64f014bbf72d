import FwupdPoc.Aidl
import FwupdPoc.Daemon

/-!
# The parcelables of `TRIGGER_DEVICE_ADDED`

The payloads that `handle_calls_cb` assembles for `onDeviceAdded` and `onDeepExample`, with the
literals of the code as parameters; `deviceAddedActions_payloads` says that they are the requests of
the loop. The first device is written with the NDK, which fills the size in when the fields are
there; the second device and the second deep example are written field by field, with sizes that
count every string as eight bytes and leave the size of the inner example out. What the client makes
of them is what the readers of `FwupdPoc.Aidl` return.
-/

namespace FwupdPoc

open Wire Utf16

/-- A C string of the code, in UTF-8: a text without NUL. -/
structure CString where
  text : String
  noNul : '\x00' ∉ text.toList

/-- The code units of a C string. -/
def CString.units (s : CString) : Units := Utf16.units s.text

/-! ## With the NDK -/

/-- `AParcel_writeInt32`. -/
def aParcelWriteInt32 (value : BitVec 32) (parcel : Buffer Byte) : Buffer Byte :=
  parcel.write (Aidl.int32Enc value)

/-- `AParcel_writeString`. -/
def aParcelWriteString (str : CString) (parcel : Buffer Byte) : Buffer Byte :=
  parcel.write (Aidl.string16Enc str.units)

/-- `AParcel_getDataPosition`. -/
def aParcelGetDataPosition (parcel : Buffer Byte) : BitVec 32 := BitVec.ofNat 32 parcel.position

/-- `AParcel_setDataPosition`, which refuses a negative position. -/
def aParcelSetDataPosition (position : BitVec 32) (parcel : Buffer Byte) : Buffer Byte :=
  if position.toInt < 0 then parcel else parcel.seek position.toNat

/-- "send device 0 (ndk)": the buffer that the parcel is marshalled into, if the assertion holds. -/
def sendDevice0 (id ido : BitVec 32) (path : CString) : Option (List Byte) :=
  let parcel := aParcelWriteInt32 1 .empty
  let start := aParcelGetDataPosition parcel
  let parcel := aParcelWriteInt32 0 parcel
  let parcel := aParcelWriteInt32 id parcel
  let parcel := aParcelWriteInt32 ido parcel
  let parcel := aParcelWriteString path parcel
  let stop := aParcelGetDataPosition parcel
  let parcel := aParcelSetDataPosition start parcel
  -- `g_assert(end >= start)`
  if start.toInt ≤ stop.toInt then
    let parcel := aParcelWriteInt32 (stop - start) parcel
    some (aParcelSetDataPosition stop parcel).data
  else none

/-! ## Field by field -/

/-- `gbinder_writer_append_int32`. -/
def gbinderWriterAppendInt32 (value : BitVec 32) (written : List Byte) : List Byte :=
  written ++ Aidl.int32Enc value

/-- `gbinder_writer_append_string16`. -/
def gbinderWriterAppendString16 (str : CString) (written : List Byte) : List Byte :=
  written ++ Aidl.string16Enc str.units

/-- "send device 2". -/
def sendDevice2 (id ido : BitVec 32) (path : CString) : List Byte :=
  []
  |> gbinderWriterAppendInt32 1
  |> gbinderWriterAppendInt32 (16 + 4)
  |> gbinderWriterAppendInt32 id
  |> gbinderWriterAppendInt32 ido
  |> gbinderWriterAppendString16 path

/-- "send deep example 2". The size is made of the sizes of `struct DeepExample`,
`struct OtherExample` and `gint32`. -/
def sendDeepExample2 (otherId : BitVec 32) (otherExample : CString) (id : BitVec 32)
    (example' : CString) : List Byte :=
  []
  |> gbinderWriterAppendInt32 1
  |> gbinderWriterAppendInt32 (24 + 16 + 4)
  |> gbinderWriterAppendInt32 1
  |> gbinderWriterAppendInt32 otherId
  |> gbinderWriterAppendString16 otherExample
  |> gbinderWriterAppendInt32 id
  |> gbinderWriterAppendString16 example'

/-! ## Devices -/

/-- Moves the cursor to a position that an `int32` can hold. -/
theorem aParcelSetDataPosition_ofNat {n : Nat} (h : n < 2 ^ 31) (parcel : Buffer Byte) :
    aParcelSetDataPosition (BitVec.ofNat 32 n) parcel = parcel.seek n := by
  have hint : ¬ (BitVec.ofNat 32 n).toInt < 0 := by
    rw [Aidl.toInt_ofNat h]
    omega
  rw [aParcelSetDataPosition, if_neg hint, Aidl.toNat_ofNat h]

/-- Leaving a hole for the size, writing the fields and coming back to fill the hole makes the frame
of the fields. -/
theorem fillSize_eq_frame {fields : List Byte} (h : 8 + fields.length < 2 ^ 31) :
    (aParcelSetDataPosition (BitVec.ofNat 32 (8 + fields.length))
      (aParcelWriteInt32 (BitVec.ofNat 32 (8 + fields.length) - BitVec.ofNat 32 4)
        (aParcelSetDataPosition (BitVec.ofNat 32 4)
          (((Buffer.mk (Aidl.int32Enc 1) []).write (Aidl.int32Enc 0)).write fields)))).data =
      Aidl.frame fields := by
  have hsize : BitVec.ofNat 32 (8 + fields.length) - BitVec.ofNat 32 4 =
      BitVec.ofNat 32 (4 + fields.length) := by
    bv_omega
  have hstop : 8 + fields.length = (Aidl.int32Enc 1 ++ Aidl.int32Enc 0 ++ fields).length := by
    simp only [List.length_append, Aidl.length_int32Enc]
  have hpatch : (Aidl.int32Enc (BitVec.ofNat 32 (4 + fields.length))).length =
      (Aidl.int32Enc 0).length := by
    rw [Aidl.length_int32Enc, Aidl.length_int32Enc]
  have hfilled := Buffer.backpatch (Aidl.int32Enc 1) fields hpatch
  rw [← hstop, Aidl.length_int32Enc] at hfilled
  rw [aParcelSetDataPosition_ofNat h, aParcelSetDataPosition_ofNat (n := 4) (by decide), hsize,
    aParcelWriteInt32, hfilled, Buffer.data, List.append_nil, Aidl.frame, List.append_assoc]

/-- What the NDK writes is the frame of the device. -/
theorem sendDevice0_eq_frame {id ido : BitVec 32} {path : CString}
    (h : 20 + Aidl.paddedSize path.units.length < 2 ^ 31) :
    sendDevice0 id ido path = some (Aidl.frame (Aidl.Device.fields id ido path.units)) := by
  have hwritten : aParcelWriteString path (aParcelWriteInt32 ido (aParcelWriteInt32 id
      (aParcelWriteInt32 0 (aParcelWriteInt32 1 .empty)))) =
      ((Buffer.mk (Aidl.int32Enc 1) []).write (Aidl.int32Enc 0)).write
        (Aidl.Device.fields id ido path.units) := by
    simp only [aParcelWriteString, aParcelWriteInt32, Aidl.Device.fields, Buffer.write_write]
    rfl
  have hfields : 8 + (Aidl.Device.fields id ido path.units).length < 2 ^ 31 := by
    rw [Aidl.Device.length_fields]
    omega
  rw [sendDevice0]
  dsimp only
  rw [hwritten]
  generalize Aidl.Device.fields id ido path.units = fields at hfields
  have hstart : aParcelGetDataPosition (aParcelWriteInt32 1 .empty) = BitVec.ofNat 32 4 := rfl
  have hstop : aParcelGetDataPosition (((Buffer.mk (Aidl.int32Enc 1) []).write
      (Aidl.int32Enc 0)).write fields) = BitVec.ofNat 32 (8 + fields.length) := by
    rw [aParcelGetDataPosition, Buffer.position_write, Buffer.position_write,
      Aidl.length_int32Enc, Buffer.position, Aidl.length_int32Enc]
  have hassert : (BitVec.ofNat 32 4).toInt ≤ (BitVec.ofNat 32 (8 + fields.length)).toInt := by
    rw [Aidl.toInt_ofNat hfields, Aidl.toInt_ofNat (n := 4) (by decide)]
    omega
  rw [hstart, hstop, if_pos hassert, fillSize_eq_frame hfields]

/-- The second device is the fields of the device behind a size of 20. -/
theorem sendDevice2_eq (id ido : BitVec 32) (path : CString) :
    sendDevice2 id ido path =
      Aidl.int32Enc 1 ++ (Aidl.int32Enc 20 ++ Aidl.Device.fields id ido path.units) := by
  simp only [sendDevice2, gbinderWriterAppendInt32, gbinderWriterAppendString16,
    Aidl.Device.fields, List.nil_append, List.append_assoc]
  rfl

/-- The word behind the flag of a payload is the number of bytes from there to the end. -/
def SizeIsRest (payload : List Byte) : Prop :=
  ∃ size rest, (Codec.word 4).dec (payload.drop 4) = some (size, rest) ∧
    size.toNat = (payload.drop 4).length

/-- The client reads a device off a payload, and stops at its end. -/
def IsReadAs (payload : List Byte) (device : Aidl.Device) : Prop :=
  Aidl.readTypedObject Aidl.Device.readFromParcel payload 0 = some (some device, payload.length)

/-- The size in front of bytes is their number, with its own bytes. -/
theorem sizeIsRest_iff (size : BitVec 32) (fields : List Byte) :
    SizeIsRest (Aidl.int32Enc 1 ++ (Aidl.int32Enc size ++ fields)) ↔
      size.toNat = 4 + fields.length := by
  have hdrop : (Aidl.int32Enc 1 ++ (Aidl.int32Enc size ++ fields)).drop 4 =
      Aidl.int32Enc size ++ fields := rfl
  have hread : (Codec.word 4).dec (Aidl.int32Enc size ++ fields) = some (size, fields) :=
    (Codec.word 4).recovers size trivial fields
  unfold SizeIsRest
  rw [hdrop, hread, List.length_append, Aidl.length_int32Enc]
  refine ⟨?_, fun hlength => ?_⟩
  · rintro ⟨_, _, hsize, hlength⟩
    cases hsize
    exact hlength
  · exact ⟨size, fields, rfl, hlength⟩

/-- The device that is written with the NDK has the right size and is read back, for every path
that fits into a parcel. -/
theorem sendDevice0_isReadAs (id ido : BitVec 32) {path : CString}
    (h : 20 + Aidl.paddedSize path.units.length < 2 ^ 31) :
    ∃ payload, sendDevice0 id ido path = some payload ∧ SizeIsRest payload ∧
      IsReadAs payload ⟨id, ido, some path.units⟩ := by
  refine ⟨_, sendDevice0_eq_frame h, ?_, ?_⟩
  · rw [Aidl.frame, sizeIsRest_iff, BitVec.toNat_ofNat, Aidl.Device.length_fields]
    omega
  · exact (Aidl.Device.readsBack (by omega) []).whole

/-- The size of the second device is right for a path that takes four bytes. -/
theorem sendDevice2_sizeIsRest_iff (id ido : BitVec 32) (path : CString) :
    SizeIsRest (sendDevice2 id ido path) ↔ path.units.length ≤ 1 := by
  rw [sendDevice2_eq, sizeIsRest_iff, Aidl.Device.length_fields, Aidl.paddedSize]
  change 20 = _ ↔ _
  omega

/-- The second device is the frame of the device where its size is right. -/
theorem sendDevice2_eq_frame {id ido : BitVec 32} {path : CString}
    (h : path.units.length ≤ 1) :
    sendDevice2 id ido path = Aidl.frame (Aidl.Device.fields id ido path.units) := by
  have hpadded : Aidl.paddedSize path.units.length = 4 := by
    unfold Aidl.paddedSize
    omega
  rw [sendDevice2_eq, Aidl.frame, Aidl.Device.length_fields, hpadded]
  rfl

/-- For every path that fits, the client reads the second device as it was meant, and is 24 bytes
into the payload then. -/
theorem sendDevice2_read (id ido : BitVec 32) {path : CString} (h : path.units.length < 2 ^ 31) :
    Aidl.readTypedObject Aidl.Device.readFromParcel (sendDevice2 id ido path) 0 =
      some (some ⟨id, ido, some path.units⟩, 24) := by
  have hflag := Aidl.int32_readsBack 1 [] (Aidl.int32Enc 20 ++ Aidl.Device.fields id ido path.units)
  have hsize := Aidl.int32_readsBack 20 (Aidl.int32Enc 1) (Aidl.Device.fields id ido path.units)
  have hback : ReadsBack (Aidl.Device.readFields 4 20) (Aidl.int32Enc 1 ++ Aidl.int32Enc 20)
      (Aidl.Device.fields id ido path.units) ⟨id, ido, some path.units⟩ :=
    Aidl.Device.readFields_readsBack h rfl (by decide)
  have hfields := hback []
  rw [List.append_nil, List.append_assoc] at hfields
  rw [sendDevice2_eq, Aidl.readTypedObject_eq_some]
  refine ⟨1, 4, hflag, by decide, ?_⟩
  unfold Aidl.Device.readFromParcel
  rw [Cursor.sized_eq_some]
  exact ⟨20, 8, _, Aidl.readSize_eq_some.2 ⟨20, hsize, by decide, rfl⟩, hfields, rfl⟩

/-- The two encoders of `Device` agree: they make the same bytes, the size word of both is the
number of bytes from there to the end, and the client reads the device off both and stops at the
end. -/
structure EncodersAgree (id ido : BitVec 32) (path : CString) : Prop where
  same : sendDevice0 id ido path = some (sendDevice2 id ido path)
  sizeIsRest : ∀ sent ∈ [sendDevice0 id ido path, some (sendDevice2 id ido path)],
    ∃ payload, sent = some payload ∧ SizeIsRest payload
  isReadAs : ∀ sent ∈ [sendDevice0 id ido path, some (sendDevice2 id ido path)],
    ∃ payload, sent = some payload ∧ IsReadAs payload ⟨id, ido, some path.units⟩

/-- The encoders agree on the devices whose path has at most one code unit. -/
theorem encodersAgree_iff (id ido : BitVec 32) (path : CString) :
    EncodersAgree id ido path ↔ path.units.length ≤ 1 := by
  refine ⟨fun h => ?_, fun h => ?_⟩
  · obtain ⟨payload, hpayload, hsize⟩ :=
      h.sizeIsRest (some (sendDevice2 id ido path)) (List.mem_cons_of_mem _ List.mem_cons_self)
    cases hpayload
    exact (sendDevice2_sizeIsRest_iff id ido path).1 hsize
  · have hfits : 20 + Aidl.paddedSize path.units.length < 2 ^ 31 := by
      unfold Aidl.paddedSize
      omega
    obtain ⟨payload, hpayload, hsize, hread⟩ := sendDevice0_isReadAs id ido hfits
    have hsame : sendDevice0 id ido path = some (sendDevice2 id ido path) := by
      rw [sendDevice0_eq_frame hfits, sendDevice2_eq_frame h]
    have hsent : ∀ sent ∈ [sendDevice0 id ido path, some (sendDevice2 id ido path)],
        sent = some payload := by
      rw [← hsame, hpayload]
      simp
    exact ⟨hsame, fun sent hmem => ⟨payload, hsent sent hmem, hsize⟩,
      fun sent hmem => ⟨payload, hsent sent hmem, hread⟩⟩

/-- The path that the code sends. -/
def appendEach : CString := ⟨"append each", by decide⟩

/-- The encoders do not agree on the device that the code sends. -/
theorem encodersDisagree_appendEach : ¬ EncodersAgree 13 130 appendEach := by
  intro h
  obtain ⟨payload, hpayload, hsize⟩ := h.sizeIsRest (some (sendDevice2 13 130 appendEach))
    (List.mem_cons_of_mem _ List.mem_cons_self)
  cases hpayload
  have hlength := (sendDevice2_sizeIsRest_iff 13 130 appendEach).1 hsize
  exact absurd hlength (by decide)

/-! ## Deep examples -/

/-- The deep example is its fields without the size of the inner example, behind a size of 44. -/
theorem sendDeepExample2_eq (otherId : BitVec 32) (otherExample : CString) (id : BitVec 32)
    (example' : CString) :
    sendDeepExample2 otherId otherExample id example' =
      Aidl.int32Enc 1 ++ (Aidl.int32Enc 44 ++ (Aidl.int32Enc 1 ++ (Aidl.int32Enc otherId ++
        (Aidl.string16Enc otherExample.units ++ (Aidl.int32Enc id ++
          Aidl.string16Enc example'.units))))) := by
  simp only [sendDeepExample2, gbinderWriterAppendInt32, gbinderWriterAppendString16,
    List.nil_append, List.append_assoc]
  rfl

theorem length_sendDeepExample2 (otherId : BitVec 32) (otherExample : CString) (id : BitVec 32)
    (example' : CString) :
    (sendDeepExample2 otherId otherExample id example').length =
      28 + Aidl.paddedSize otherExample.units.length + Aidl.paddedSize example'.units.length := by
  simp only [sendDeepExample2_eq, List.length_append, Aidl.length_int32Enc,
    Aidl.length_string16Enc]
  omega

/-- The client reads the deep example off its payload, and stops at the end of the payload. -/
def DeepExampleDecodes (otherId : BitVec 32) (otherExample : CString) (id : BitVec 32)
    (example' : CString) : Prop :=
  Aidl.readTypedObject Aidl.DeepExample.readFromParcel
      (sendDeepExample2 otherId otherExample id example') 0 =
    some (some ⟨some ⟨otherId, some otherExample.units⟩, id, some example'.units⟩,
      (sendDeepExample2 otherId otherExample id example').length)

/-- The word that an `int32` was written to is what is read there. -/
theorem readInt32_unique {before after : List Byte} {value : BitVec 32} {r : BitVec 32 × Nat}
    (h : Aidl.readInt32 (before ++ (Aidl.int32Enc value ++ after)) before.length = some r) :
    r = (value, before.length + 4) := by
  rw [Aidl.int32_readsBack value before after, List.length_append, Aidl.length_int32Enc] at h
  exact (Option.some.inj h).symm

/-- A block that is read where its size was written ends at that size. -/
theorem readSized_unique {α : Type} {fields : Nat → Nat → Cursor Byte α} {before after : List Byte}
    {size : BitVec 32} {r : α × Nat}
    (h : Cursor.sized Aidl.readSize fields (before ++ (Aidl.int32Enc size ++ after)) before.length =
      some r) :
    4 ≤ size.toInt ∧ r.2 = before.length + size.toNat ∧
      ∃ q, fields before.length size.toNat (before ++ (Aidl.int32Enc size ++ after))
        (before.length + 4) = some (r.1, q) := by
  obtain ⟨n, p, q, hsize, hfields, hend⟩ := Cursor.sized_eq_some.1 h
  obtain ⟨word, hword, hleast, rfl⟩ := Aidl.readSize_eq_some.1 hsize
  cases readInt32_unique hword
  exact ⟨hleast, hend, q, hfields⟩

/-- A parcelable that is read where a flag and a size were written ends at that size. -/
theorem readFrame_unique {α : Type} {fields : Nat → Nat → Cursor Byte α} (before : List Byte)
    {after : List Byte} {flag size : BitVec 32} {a : α} {q : Nat}
    (h : Aidl.readTypedObject (Cursor.sized Aidl.readSize fields)
      (before ++ (Aidl.int32Enc flag ++ (Aidl.int32Enc size ++ after))) before.length =
        some (some a, q)) :
    4 ≤ size.toInt ∧ q = before.length + 4 + size.toNat ∧
      ∃ p, fields (before.length + 4) size.toNat
        (before ++ (Aidl.int32Enc flag ++ (Aidl.int32Enc size ++ after)))
        (before.length + 8) = some (a, p) := by
  obtain ⟨flag', p, hflag, -, hread⟩ := Aidl.readTypedObject_eq_some.1 h
  cases readInt32_unique hflag
  have hlength : before.length + 4 = (before ++ Aidl.int32Enc flag).length := by
    rw [List.length_append, Aidl.length_int32Enc]
  have hfields : before.length + 8 = before.length + 4 + 4 := rfl
  rw [hfields, ← List.append_assoc, hlength]
  rw [← List.append_assoc, hlength] at hread
  exact readSized_unique hread

/-- A string that is read as an inner example without a size: the length of the string is taken for
the number, and the size, which is the number, ends in front of a string that is so short. -/
theorem readUnsized_ne {before after : List Byte} {start : Nat} {otherId : BitVec 32}
    {units text : Units} {q : Nat} (hstart : before.length = start + 4) (hlength : units.length < 8)
    (hleast : 4 ≤ otherId.toInt) :
    Aidl.OtherExample.readFields start otherId.toNat (before ++ (Aidl.string16Enc units ++ after))
      before.length ≠ some (⟨otherId, some text⟩, q) := by
  intro h
  obtain ⟨p, hid, hexample⟩ := Aidl.OtherExample.readFields_eq_some h
  rcases Nat.lt_or_ge 4 otherId.toNat with hlt | hge
  · rw [Cursor.field_of_lt (by omega), Aidl.string16Enc, List.append_assoc] at hid
    obtain ⟨hotherId, hp⟩ := Prod.mk.inj (readInt32_unique hid)
    have hnat : otherId.toNat = units.length := by
      rw [show otherId = _ from hotherId, BitVec.toNat_ofNat]
      omega
    rw [Cursor.field_of_le (by omega)] at hexample
    cases hexample
  · rw [Cursor.field_of_le (by omega)] at hid
    have hzero : (0 : BitVec 32) = otherId := (Prod.mk.inj (Option.some.inj hid)).1
    rw [← hzero] at hleast
    exact absurd hleast (by decide)

/-- No deep example is decodable. -/
theorem deepExample_not_decodes (otherId : BitVec 32) (otherExample : CString) (id : BitVec 32)
    (example' : CString) : ¬ DeepExampleDecodes otherId otherExample id example' := by
  intro h
  unfold DeepExampleDecodes at h
  rw [length_sendDeepExample2, sendDeepExample2_eq] at h
  obtain ⟨-, hend, p, hfields⟩ := readFrame_unique [] h
  -- the size of the outer frame leaves room for 20 bytes of strings
  have hshort : otherExample.units.length < 8 := by
    change _ = 0 + 4 + 44 at hend
    unfold Aidl.paddedSize at hend
    omega
  obtain ⟨p', hother⟩ := Aidl.DeepExample.readFields_other hfields
  rw [Cursor.field_of_lt (by decide)] at hother
  have hinner : Aidl.readTypedObject Aidl.OtherExample.readFromParcel
      ((Aidl.int32Enc 1 ++ Aidl.int32Enc 44) ++ (Aidl.int32Enc 1 ++ (Aidl.int32Enc otherId ++
        (Aidl.string16Enc otherExample.units ++ (Aidl.int32Enc id ++
          Aidl.string16Enc example'.units))))) (Aidl.int32Enc 1 ++ Aidl.int32Enc 44).length =
      some (some ⟨otherId, some otherExample.units⟩, p') := by
    rw [List.append_assoc]
    exact hother
  obtain ⟨hleast, -, q, hunsized⟩ := readFrame_unique _ hinner
  have hbefore : (Aidl.int32Enc 1 ++ (Aidl.int32Enc 44 ++ (Aidl.int32Enc 1 ++
      Aidl.int32Enc otherId))).length = 12 + 4 := by
    simp only [List.length_append, Aidl.length_int32Enc]
  have hread : Aidl.OtherExample.readFields 12 otherId.toNat
      ((Aidl.int32Enc 1 ++ (Aidl.int32Enc 44 ++ (Aidl.int32Enc 1 ++ Aidl.int32Enc otherId))) ++
        (Aidl.string16Enc otherExample.units ++ (Aidl.int32Enc id ++
          Aidl.string16Enc example'.units)))
      (Aidl.int32Enc 1 ++ (Aidl.int32Enc 44 ++ (Aidl.int32Enc 1 ++
        Aidl.int32Enc otherId))).length = some (⟨otherId, some otherExample.units⟩, q) := by
    simp only [List.length_append, Aidl.length_int32Enc, List.append_assoc] at hunsized ⊢
    exact hunsized
  exact readUnsized_ne hbefore hshort hleast hread

/-- The strings of the deep example that the code sends. -/
def appendEach2 : CString := ⟨"append each 2", by decide⟩

/-- The deep example that the code sends is not decodable. -/
theorem appendEach_not_decodes : ¬ DeepExampleDecodes 3 appendEach 4 appendEach2 := by
  intro h
  unfold DeepExampleDecodes at h
  rw [length_sendDeepExample2, sendDeepExample2_eq] at h
  obtain ⟨-, hend, -⟩ := readFrame_unique [] h
  exact absurd hend (by decide)

/-! ## The requests of the loop -/

mutual

/-- The bytes of an item of a parcel, if they are not left to the library. -/
def ParcelItem.wire : ParcelItem → Option (List Byte)
  | .statusHeader => none
  | .int32 value => some (Aidl.int32Enc (BitVec.ofInt 32 value))
  | .string value => some (Aidl.string16Enc (Utf16.units value))
  | .variant _ => none
  | .bundle _ => none
  | .sized items => (ParcelItem.wires items).map fun fields =>
    Aidl.int32Enc (BitVec.ofNat 32 (4 + fields.length)) ++ fields

/-- The bytes of the items of a parcel. -/
def ParcelItem.wires : List ParcelItem → Option (List Byte)
  | [] => some []
  | item :: items => do
    let bytes ← item.wire
    let rest ← ParcelItem.wires items
    return bytes ++ rest

end

/-- The bytes of an item of a request, if they are not left to the library. -/
def Item.wire : Item → Option (List Byte)
  | .int32 value => some (Aidl.int32Enc (BitVec.ofInt 32 value))
  | .string16 value => some (Aidl.string16Enc (Utf16.units value))
  | .bytes parcel written marshalled =>
    if written ∧ marshalled then ParcelItem.wires parcel else none
  | .device _ _ _ => none
  | .deepExample _ => none

/-- The bytes of a request. -/
def Item.wires (items : List Item) : Option (List Byte) :=
  (items.mapM Item.wire).map List.flatten

/-- The items of the first device. -/
def device0Items (id ido : BitVec 32) (path : CString) (written marshalled : Bool) : List Item :=
  [.bytes [.int32 1, .sized [.int32 id.toInt, .int32 ido.toInt, .string path.text]] written
    marshalled]

/-- The items of the second device. -/
def device2Items (id ido : BitVec 32) (path : CString) : List Item :=
  [.int32 1, .int32 (16 + 4), .int32 id.toInt, .int32 ido.toInt, .string16 path.text]

/-- The items of the second deep example. -/
def deepExample2Items (otherId : BitVec 32) (otherExample : CString) (id : BitVec 32)
    (example' : CString) : List Item :=
  [.int32 1, .int32 (24 + 16 + 4), .int32 1, .int32 otherId.toInt, .string16 otherExample.text,
    .int32 id.toInt, .string16 example'.text]

theorem device0Items_wires {id ido : BitVec 32} {path : CString}
    (h : 20 + Aidl.paddedSize path.units.length < 2 ^ 31) :
    Item.wires (device0Items id ido path true true) = sendDevice0 id ido path := by
  rw [sendDevice0_eq_frame h]
  simp [Item.wires, device0Items, Item.wire, ParcelItem.wires, ParcelItem.wire,
    Aidl.Device.fields, CString.units, Aidl.frame]

theorem device2Items_wires (id ido : BitVec 32) (path : CString) :
    Item.wires (device2Items id ido path) = some (sendDevice2 id ido path) := by
  rw [sendDevice2_eq]
  simp [Item.wires, device2Items, Item.wire, Aidl.Device.fields, CString.units]

theorem deepExample2Items_wires (otherId : BitVec 32) (otherExample : CString) (id : BitVec 32)
    (example' : CString) :
    Item.wires (deepExample2Items otherId otherExample id example') =
      some (sendDeepExample2 otherId otherExample id example') := by
  rw [sendDeepExample2_eq]
  simp [Item.wires, deepExample2Items, Item.wire, CString.units]

/-- The path of the first device. -/
def helloWorld : CString := ⟨"hello world", by decide⟩

/-- The loop sends these payloads, with the literals of the code. -/
theorem deviceAddedActions_payloads (lib : Library) (i : Nat) :
    deviceAddedActions lib i =
      [.send .onDeviceAdded
          (device0Items 68 69 helloWorld (lib.written (6 * i) 6) (lib.marshal i = statusOk)),
        .free 0,
        .assign,
        .send .onDeviceAdded [.device 12 120 "this is a test"],
        .send .onDeviceAdded (device2Items 13 130 appendEach),
        .assign,
        .send .onDeepExample [.deepExample 43],
        .send .onDeepExample (deepExample2Items 3 appendEach 4 appendEach2),
        .free 0] := by
  unfold deviceAddedActions
  rfl

end FwupdPoc

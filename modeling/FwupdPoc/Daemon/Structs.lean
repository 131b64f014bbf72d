import FwupdPoc.Daemon.Delivery

/-!
# The structs of `TRIGGER_DEVICE_ADDED`

"send device 1" and "send deep example 1" hand the memory of a C struct to
`gbinder_writer_append_parcelable`, which puts a flag and the size in front of it. The client reads
the fields of the AIDL file there. The numbers of `struct Device` are where it looks for them, but
behind them it finds the address of the path: the low half is the length of a string then, and the
high half is all that is left for its code units. In `struct DeepExample` the first pointer is NULL,
which is a flag for the client, so that the number is taken from the other half of the pointer.
-/

namespace FwupdPoc

open Wire Utf16

/-! ## Strings at the end of a request -/

namespace Aidl

/-- The string that is read behind its length, where the request ends with these bytes. -/
def stringBehind (length : BitVec 32) (rest : List Byte) : Option Units :=
  if length.toInt < 0 then none else ((string16Dec length.toNat rest).map Prod.fst).join

/-- A string at the end of a request. -/
theorem string_readsEnd (before : List Byte) (length : BitVec 32) (rest : List Byte) :
    ReadsEnd readString before (int32Enc length ++ rest) (stringBehind length rest) := by
  refine (int32_readsBack length before).bind_end ?_
  unfold stringBehind
  by_cases hnull : length.toInt < 0
  · rw [if_pos hnull, if_pos hnull]
    exact ⟨_, rfl⟩
  · rw [if_neg hnull, if_neg hnull, ReadsEnd, Cursor.readOr, List.drop_left]
    cases string16Dec length.toNat rest with
    | none => exact ⟨_, rfl⟩
    | some taken => exact ⟨_, rfl⟩

/-- A frame that is a whole request, with fields that are read to its end. -/
theorem frame_readsEnd {α : Type} {fields : Nat → Nat → Cursor Byte α} {bytes : List Byte} {a : α}
    (hmost : 4 + bytes.length < 2 ^ 31)
    (hfields : ∀ front : List Byte, front.length = 8 →
      ReadsEnd (fields 4 (4 + bytes.length)) front bytes a) :
    readTypedObject (Cursor.sized readSize fields) (frame bytes) 0 =
      some (some a, (frame bytes).length) := by
  have hsize := size_readsBack (Nat.le_add_right 4 bytes.length) hmost (int32Enc 1)
  have hblock := ReadsEnd.sized hsize (hfields _ rfl)
  have hend : (int32Enc 1).length + (4 + bytes.length) = (frame bytes).length := by
    rw [length_frame, length_int32Enc]
    omega
  rw [hend] at hblock
  exact readTypedObject_eq_some.2 ⟨1, _, int32_readsBack 1 [] _, by decide, hblock⟩

/-- A string of `n` code units takes as many bytes as it has been given in an encoding. -/
theorem string16Dec_hasWidth (n : Nat) : HasWidth (string16Dec n) (paddedSize n) := by
  have hread := ((HasWidth.word 2).readN n).bind fun units =>
    (HasWidth.word 2).bind fun _ =>
      (HasWidth.symbol.readN (padding (2 * (n + 1))).length).bind fun _ =>
        HasWidth.pure (σ := Byte) (some units)
  have hwidth : n * 2 + (2 + ((padding (2 * (n + 1))).length * 1 + 0)) = paddedSize n := by
    rw [padding, List.length_replicate, paddedSize]
    omega
  rwa [hwidth] at hread

/-- A string that is read has the length in front of it. -/
theorem length_of_string16Dec {n : Nat} {stream : List Byte} {r : Option Units × List Byte}
    (h : string16Dec n stream = some r) : ∃ units, r.1 = some units ∧ units.length = n := by
  obtain ⟨units, rest, hunits, h⟩ := Reader.bind_eq_some.1 h
  obtain ⟨_, rest', -, h⟩ := Reader.bind_eq_some.1 h
  obtain ⟨_, rest'', -, h⟩ := Reader.bind_eq_some.1 h
  cases h
  exact ⟨units, rfl, length_of_readN hunits⟩

/-- A string at the end of a request fits there. -/
theorem fits_of_stringBehind {length : BitVec 32} {rest : List Byte} {units : Units}
    (h : stringBehind length rest = some units) :
    units.length = length.toNat ∧ paddedSize units.length ≤ rest.length := by
  unfold stringBehind at h
  split at h
  · cases h
  · obtain ⟨r, hr, hunits⟩ : ∃ r, string16Dec length.toNat rest = some r ∧ r.1 = some units := by
      cases hdec : string16Dec length.toNat rest with
      | none =>
        rw [hdec] at h
        cases h
      | some r =>
        rw [hdec] at h
        exact ⟨r, rfl, h⟩
    obtain ⟨units', hunits', hlength⟩ := length_of_string16Dec hr
    cases hunits'.symm.trans hunits
    have hwidth := string16Dec_hasWidth _ _ _ hr
    refine ⟨hlength, ?_⟩
    rw [hlength]
    omega

end Aidl

/-! ## Memory -/

/-- The low half of an address. -/
def lowHalf (address : BitVec 64) : BitVec 32 := address.setWidth 32

/-- The high half of an address. -/
def highHalf (address : BitVec 64) : BitVec 32 := (address >>> 32).setWidth 32

/-- `struct Device` in memory, where the low byte is the first one and a pointer has eight. -/
def structDevice (id ido : BitVec 32) (path : BitVec 64) : List Byte :=
  (Codec.word 4).enc id ++ ((Codec.word 4).enc ido ++ (Codec.word 8).enc path)

/-- `struct DeepExample` in memory, with padding in front of its second pointer. -/
def structDeepExample (other : BitVec 64) (id : BitVec 32) (example' : BitVec 64) : List Byte :=
  (Codec.word 8).enc other ++
    ((Codec.word 4).enc id ++ (List.replicate 4 0 ++ (Codec.word 8).enc example'))

/-- The assertion about `sizeof(struct Device)`. -/
theorem length_structDevice (id ido : BitVec 32) (path : BitVec 64) :
    (structDevice id ido path).length = 16 := by
  simp only [structDevice, List.length_append, Codec.length_word_enc]

/-- The assertion about `sizeof(struct DeepExample)`. -/
theorem length_structDeepExample (other : BitVec 64) (id : BitVec 32) (example' : BitVec 64) :
    (structDeepExample other id example').length = 24 := by
  simp only [structDeepExample, List.length_append, Codec.length_word_enc, List.length_replicate]

/-- An address is two words. -/
theorem address_eq_halves (address : BitVec 64) :
    (Codec.word 8).enc address =
      Aidl.int32Enc (lowHalf address) ++ Aidl.int32Enc (highHalf address) :=
  Codec.word_enc_add 4 4 address

/-! ## Requests -/

section Requests

variable (gbinderWriterAppendParcelable : List Byte → List Byte → List Byte)

/-- "send device 1", where `path` is the address of the string. -/
def sendDevice1 (id ido : BitVec 32) (path : BitVec 64) : List Byte :=
  gbinderWriterAppendParcelable (structDevice id ido path) []

/-- "send deep example 1". -/
def sendDeepExample1 (id : BitVec 32) : List Byte :=
  gbinderWriterAppendParcelable (structDeepExample 0 id 0) []

/-- The bytes of a request with a struct, where `path` is the address of its string. -/
def Action.structWire (path : BitVec 64) : Action → Option (List Byte)
  | .send _ [.device id ido _] =>
    some (sendDevice1 gbinderWriterAppendParcelable (BitVec.ofInt 32 id) (BitVec.ofInt 32 ido) path)
  | .send _ [.deepExample id] =>
    some (sendDeepExample1 gbinderWriterAppendParcelable (BitVec.ofInt 32 id))
  | _ => none

/-- The loop sends these structs. -/
theorem deviceAddedActions_structs (lib : Library) (i : Nat) (path : BitVec 64) :
    (deviceAddedActions lib i).filterMap (Action.structWire gbinderWriterAppendParcelable path) =
      [sendDevice1 gbinderWriterAppendParcelable 12 120 path,
        sendDeepExample1 gbinderWriterAppendParcelable 43] :=
  rfl

/-- What the client takes for the path of a device that is sent as a struct. -/
def addressText (address : BitVec 64) : Option Units :=
  Aidl.stringBehind (lowHalf address) (Aidl.int32Enc (highHalf address))

/-- What the client takes for the text of a deep example that is sent as a struct. -/
def numberedText (id : BitVec 32) : Option Units :=
  Aidl.stringBehind id (List.replicate 12 0)

/-- Of an address at most one code unit is taken for a text, and the low half for its length. -/
theorem length_of_addressText {address : BitVec 64} {units : Units}
    (h : addressText address = some units) :
    (lowHalf address).toNat = units.length ∧ units.length ≤ 1 := by
  obtain ⟨hlength, hfits⟩ := Aidl.fits_of_stringBehind h
  rw [Aidl.length_int32Enc, Aidl.paddedSize] at hfits
  exact ⟨hlength.symm, by omega⟩

/-- `gbinder_writer_append_parcelable` writes a flag, the size with the word it is in, and the
bytes. -/
def AppendsFrame : Prop :=
  ∀ parcelable written,
    gbinderWriterAppendParcelable parcelable written = written ++ Aidl.frame parcelable

variable {gbinderWriterAppendParcelable}

/-- A device that is sent as a struct is read to the end of the request, with its numbers. -/
theorem AppendsFrame.sendDevice1_read (happend : AppendsFrame gbinderWriterAppendParcelable)
    (id ido : BitVec 32) (path : BitVec 64) :
    Aidl.readTypedObject Aidl.Device.readFromParcel
        (sendDevice1 gbinderWriterAppendParcelable id ido path) 0 =
      some (some ⟨id, ido, addressText path⟩,
        (sendDevice1 gbinderWriterAppendParcelable id ido path).length) := by
  rw [sendDevice1, happend, List.nil_append]
  have hlength := length_structDevice id ido path
  refine Aidl.frame_readsEnd (by omega) fun front hfront => ?_
  rw [hlength, structDevice, address_eq_halves]
  refine (ReadsBack.field 0 (Aidl.int32_readsBack id _) ?_).bind_end ?_
  · omega
  refine (ReadsBack.field 0 (Aidl.int32_readsBack ido _) ?_).bind_end ?_
  · rw [List.length_append, Aidl.length_int32Enc]
    omega
  refine ReadsEnd.map _ (ReadsEnd.field none (Aidl.string_readsEnd _ _ _) ?_)
  simp only [List.length_append, Aidl.length_int32Enc]
  omega

/-- Of a deep example that is sent as a struct, the client reads the high half of the first pointer
for the number, and the number for the length of the text. -/
theorem AppendsFrame.sendDeepExample1_read (happend : AppendsFrame gbinderWriterAppendParcelable)
    (id : BitVec 32) :
    Aidl.readTypedObject Aidl.DeepExample.readFromParcel
        (sendDeepExample1 gbinderWriterAppendParcelable id) 0 =
      some (some ⟨none, 0, numberedText id⟩,
        (sendDeepExample1 gbinderWriterAppendParcelable id).length) := by
  rw [sendDeepExample1, happend, List.nil_append]
  have hlength := length_structDeepExample 0 id 0
  refine Aidl.frame_readsEnd (by omega) fun front hfront => ?_
  rw [hlength, structDeepExample, address_eq_halves, List.append_assoc]
  have hother : ReadsBack (Aidl.readTypedObject Aidl.OtherExample.readFromParcel) front
      (Aidl.int32Enc (lowHalf 0)) none := by
    rw [← List.append_nil (Aidl.int32Enc _)]
    refine (Aidl.int32_readsBack _ front).bind ?_
    rw [if_pos (show lowHalf 0 = 0 from rfl)]
    exact ReadsBack.pure _ none
  refine (ReadsBack.field none hother ?_).bind_end ?_
  · omega
  refine (ReadsBack.field 0 (Aidl.int32_readsBack _ _) ?_).bind_end ?_
  · rw [List.length_append, Aidl.length_int32Enc]
    omega
  refine ReadsEnd.map _ (ReadsEnd.field none (Aidl.string_readsEnd _ id _) ?_)
  simp only [List.length_append, Aidl.length_int32Enc]
  omega

/-- **A device that is sent as a struct arrives with its numbers, whatever the address of its path
is, and never with its path, unless this has at most one code unit and its length is the low half of
the address. A deep example that is sent as a struct arrives with the number zero, whatever its
number is, and never as it is meant.** -/
theorem structs_arrive (happend : AppendsFrame gbinderWriterAppendParcelable)
    (enforceNoDataAvail : Bool) :
    (∀ id ido address, ∃ path,
      Stub.readArgument enforceNoDataAvail Aidl.Device.readFromParcel
          (sendDevice1 gbinderWriterAppendParcelable id ido address) = some ⟨id, ido, path⟩ ∧
        ∀ text : CString, path = some text.units →
          (lowHalf address).toNat = text.units.length ∧ text.units.length ≤ 1) ∧
      ∀ id, ∃ text,
        Stub.readArgument enforceNoDataAvail Aidl.DeepExample.readFromParcel
            (sendDeepExample1 gbinderWriterAppendParcelable id) = some ⟨none, 0, text⟩ ∧
          (⟨none, 0, text⟩ : Aidl.DeepExample) ≠ ⟨none, id, none⟩ := by
  refine ⟨fun id ido address => ⟨addressText address, ?_, ?_⟩, fun id =>
    ⟨numberedText id, ?_, ?_⟩⟩
  · exact Stub.readArgument_of_end (happend.sendDevice1_read id ido address) enforceNoDataAvail
  · exact fun text htext => length_of_addressText htext
  · exact Stub.readArgument_of_end (happend.sendDeepExample1_read id) enforceNoDataAvail
  · intro h
    -- where the number is zero as well, it is the length of a text that is not null
    obtain ⟨-, hid, htext⟩ := Aidl.DeepExample.mk.inj h
    rw [← hid] at htext
    cases htext

/-- The path that the code sends. -/
def thisIsATest : CString := ⟨"this is a test", by decide⟩

/-- Of the structs that the code sends, neither the path nor the number of the deep example
arrives. -/
theorem structs_arrive_literals :
    Stub.readArgument true Aidl.Device.readFromParcel
          (sendDevice1 (fun parcelable written => written ++ Aidl.frame parcelable) 12 120
            0x7f0012345678) ≠
        some ⟨12, 120, some thisIsATest.units⟩ ∧
      Stub.readArgument true Aidl.DeepExample.readFromParcel
          (sendDeepExample1 (fun parcelable written => written ++ Aidl.frame parcelable) 43) ≠
        some ⟨none, 43, none⟩ := by
  have happend : AppendsFrame fun parcelable written => written ++ Aidl.frame parcelable :=
    fun _ _ => rfl
  obtain ⟨hdevice, hdeep⟩ := structs_arrive happend true
  refine ⟨fun h => ?_, fun h => ?_⟩
  · obtain ⟨path, hread, hpath⟩ := hdevice 12 120 0x7f0012345678
    rw [hread, Option.some.injEq, Aidl.Device.mk.injEq] at h
    exact absurd (hpath thisIsATest h.2.2).2 (by decide)
  · obtain ⟨text, hread, hne⟩ := hdeep 43
    rw [hread, Option.some.injEq] at h
    exact hne h

end Requests

end FwupdPoc

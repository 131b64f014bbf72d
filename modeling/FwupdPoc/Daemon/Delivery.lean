import FwupdPoc.Aidl.Versions
import FwupdPoc.Daemon.Parcelables
import FwupdPoc.MainActivity.PocListener

/-!
# From the daemon to the log of the client

A device that `handle_calls_cb` sends is read by the stub of the listener, which calls
`onDeviceAdded`, which logs a template. The three are put together here: the encoders of
`FwupdPoc.Daemon.Parcelables`, the readers of `FwupdPoc.Aidl` and the templates of
`FwupdPoc.MainActivity.PocListener`.

The stub checks that the arguments are all there is in the request (`enforceNoDataAvail`) if it is
generated for a platform that has the check, so both stubs are considered.

The client may also be built from other versions of the AIDL files than the daemon: the first device
is written like the version that is there now (`sendDevice0_eq_write`), and parcelables are read
whatever the versions of their writers are (`Aidl.parcelables_read_versions`).
-/

namespace FwupdPoc

open Wire Utf16 KotlinText MainActivity

/-! ## Versions -/

/-- The encoder with the NDK writes a device like the version of the AIDL file, which has three
fields. -/
theorem sendDevice0_eq_write {id ido : BitVec 32} {path : CString}
    (h : 20 + Aidl.paddedSize path.units.length < 2 ^ 31) :
    sendDevice0 id ido path = some (Aidl.Device.write ⟨3, []⟩ ⟨id, ido, some path.units⟩) := by
  have hfields : Aidl.Device.fields id ido path.units =
      Aidl.Version.field ⟨3, []⟩ 0 (Aidl.int32Enc id) ++
        (Aidl.Version.field ⟨3, []⟩ 1 (Aidl.int32Enc ido) ++
          (Aidl.Version.field ⟨3, []⟩ 2 (Aidl.nullableString16Enc (some path.units)) ++ [])) := by
    rw [List.append_nil]
    rfl
  rw [sendDevice0_eq_frame h, Aidl.Device.write, hfields]

/-- **Parcelables are read whatever the versions of their writers are: with the defaults for the
fields that a writer does not know, and up to the end of each block, behind what the reader does not
know. The encoder of the daemon is a writer of the version with the three fields of the AIDL
file.** -/
theorem Aidl.parcelables_read_versions {version inner : Aidl.Version}
    (hextends : version.Extends 3) (hinner : inner.Extends 2) (before : List Byte) :
    (∀ device : Aidl.Device, (device.write version).length < 2 ^ 31 →
      ReadsBack (Aidl.readTypedObject Aidl.Device.readFromParcel) before (device.write version)
        (some (device.known version))) ∧
      (∀ deep : Aidl.DeepExample, (deep.write version inner).length < 2 ^ 31 →
        ReadsBack (Aidl.readTypedObject Aidl.DeepExample.readFromParcel) before
          (deep.write version inner) (some (deep.known version inner))) ∧
      ∀ (id ido : BitVec 32) (path : CString), 20 + Aidl.paddedSize path.units.length < 2 ^ 31 →
        sendDevice0 id ido path = some (Aidl.Device.write ⟨3, []⟩ ⟨id, ido, some path.units⟩) :=
  ⟨fun device hfits => device.write_readsBack hextends hfits before,
    fun deep hfits => deep.write_readsBack hextends hinner hfits before,
    fun _ _ _ hfits => sendDevice0_eq_write hfits⟩

/-- A deep example whose outer block has one more word, and whose inner one has no string, and the
device that the code sends. -/
theorem Aidl.parcelables_read_versions_mixed :
    let deep : Aidl.DeepExample := ⟨some ⟨3, some (units "lost")⟩, 4, none⟩
    Aidl.readTypedObject Aidl.DeepExample.readFromParcel
        (deep.write ⟨3, [1, 2, 3, 4]⟩ ⟨1, []⟩) 0 =
        some (some ⟨some ⟨3, none⟩, 4, none⟩, (deep.write ⟨3, [1, 2, 3, 4]⟩ ⟨1, []⟩).length) ∧
      sendDevice0 68 69 helloWorld =
        some (Aidl.Device.write ⟨3, []⟩ ⟨68, 69, some helloWorld.units⟩) := by
  intro deep
  have houter : Aidl.Version.Extends ⟨3, [1, 2, 3, 4]⟩ 3 := fun h => absurd h (by decide)
  have hinner : Aidl.Version.Extends ⟨1, []⟩ 2 := fun _ => rfl
  obtain ⟨-, hdeep, hdevice⟩ := Aidl.parcelables_read_versions houter hinner []
  exact ⟨(hdeep deep (by decide)).whole, hdevice 68 69 helloWorld (by decide)⟩

/-! ## Stubs -/

/-- The argument of a call with a parcelable: `none` where the stub throws, which it also does for
null, which the listener does not take. -/
def Stub.readArgument {α : Type} (enforceNoDataAvail : Bool) (readFromParcel : Cursor Byte α)
    (data : List Byte) : Option α :=
  match Aidl.readTypedObject readFromParcel data 0 with
  | some (some argument, position) =>
    if enforceNoDataAvail ∧ position < data.length then none else some argument
  | _ => none

/-- What `onDeviceAdded` logs for a request with these arguments. -/
def Stub.logDeviceAdded (platform : Platform) (texts : ObjectTexts) (enforceNoDataAvail : Bool)
    (data : List Byte) : Option Units :=
  (Stub.readArgument enforceNoDataAvail Aidl.Device.readFromParcel data).map fun device =>
    PocCallback.message platform texts (.onDeviceAdded device)

/-- The message of a device as the daemon means it. -/
def deviceLines (texts : ObjectTexts) (id ido : BitVec 32) (path : CString) : Units :=
  joinLines
    [units "listener device added",
      units "  " ++ texts.device,
      units "    id: " ++ numberText id.toInt,
      units "    ido: " ++ numberText ido.toInt,
      units "    path: " ++ path.units]

/-- A request that is read to its end is accepted by both stubs. -/
theorem Stub.readArgument_of_end {α : Type} {readFromParcel : Cursor Byte α} {data : List Byte}
    {argument : α}
    (h : Aidl.readTypedObject readFromParcel data 0 = some (some argument, data.length))
    (enforceNoDataAvail : Bool) :
    Stub.readArgument enforceNoDataAvail readFromParcel data = some argument := by
  unfold Stub.readArgument
  rw [h]
  exact if_neg fun hmore => Nat.lt_irrefl _ hmore.2

/-- The second device is accepted where its size is right, and by the stub that does not check for
more. -/
theorem sendDevice2_readArgument (enforceNoDataAvail : Bool) (id ido : BitVec 32) {path : CString}
    (h : path.units.length < 2 ^ 31) :
    Stub.readArgument enforceNoDataAvail Aidl.Device.readFromParcel (sendDevice2 id ido path) =
      if enforceNoDataAvail ∧ 1 < path.units.length then none
      else some ⟨id, ido, some path.units⟩ := by
  have hlength : (sendDevice2 id ido path).length = 20 + Aidl.paddedSize path.units.length := by
    rw [sendDevice2_eq, List.length_append, List.length_append, Aidl.Device.length_fields,
      Aidl.length_int32Enc, Aidl.length_int32Enc]
    omega
  have hmore : 24 < (sendDevice2 id ido path).length ↔ 1 < path.units.length := by
    rw [hlength, Aidl.paddedSize]
    omega
  unfold Stub.readArgument
  rw [sendDevice2_read id ido h]
  simp only [hmore]

/-- The message of a device is as the daemon means it exactly if its texts stay as they are. -/
theorem message_eq_deviceLines_iff (platform : Platform) (texts : ObjectTexts) (id ido : BitVec 32)
    (path : CString) :
    PocCallback.message platform texts (.onDeviceAdded ⟨id, ido, some path.units⟩) =
        deviceLines texts id ido path ↔
      Stays texts.device ∧ Stays path.units := by
  have hparts := PocCallback.stays_parts_iff platform texts
    (.onDeviceAdded ⟨id, ido, some path.units⟩)
  have hpath : (∀ text ∈ some path.units, Stays text) ↔ Stays path.units := by simp
  rw [← hpath]
  refine Iff.trans ?_ hparts
  exact trimMargin_rawTemplate_eq_iff (isBlank_spaces 20) (isLine_spaces 20)

/-- **Every device that fits into a parcel gets from the encoder with the NDK into the log as it was
meant, exactly if the path and the text of the object have no `\r` and no line behind the first one
that starts with the margin prefix. From the encoder that appends each field it gets there under the
same condition if moreover the path has at most one code unit or the stub does not check for
more.** -/
theorem device_logged_iff (platform : Platform) (texts : ObjectTexts) (enforceNoDataAvail : Bool)
    (id ido : BitVec 32) {path : CString}
    (h : 20 + Aidl.paddedSize path.units.length < 2 ^ 31) :
    ((sendDevice0 id ido path).bind (Stub.logDeviceAdded platform texts enforceNoDataAvail) =
        some (deviceLines texts id ido path) ↔ Stays texts.device ∧ Stays path.units) ∧
      (Stub.logDeviceAdded platform texts enforceNoDataAvail (sendDevice2 id ido path) =
        some (deviceLines texts id ido path) ↔
          (enforceNoDataAvail = true → path.units.length ≤ 1) ∧
            Stays texts.device ∧ Stays path.units) := by
  have hfits : path.units.length < 2 ^ 31 := by
    unfold Aidl.paddedSize at h
    omega
  have hmessage := message_eq_deviceLines_iff platform texts id ido path
  refine ⟨?_, ?_⟩
  · obtain ⟨payload, hpayload, -, hread⟩ := sendDevice0_isReadAs id ido h
    rw [hpayload, Option.bind_some, Stub.logDeviceAdded, Stub.readArgument_of_end hread,
      Option.map_some, Option.some.injEq, hmessage]
  · rw [Stub.logDeviceAdded, sendDevice2_readArgument enforceNoDataAvail id ido hfits]
    split
    · rename_i hrefused
      refine iff_of_false (fun heq => nomatch heq) fun haccepted => ?_
      have := haccepted.1 hrefused.1
      omega
    · rename_i haccepted
      have hsize : enforceNoDataAvail = true → path.units.length ≤ 1 := fun henforce =>
        Nat.le_of_not_lt fun hmore => haccepted ⟨henforce, hmore⟩
      rw [Option.map_some, Option.some.injEq, hmessage, and_iff_right hsize]

/-- What `toString` returns for the objects of a call. -/
def someTexts : ObjectTexts :=
  ⟨units "Device@1f", units "DeepExample@2e", units "OtherExample@3d"⟩

/-- The first device that the code sends is logged as it is meant, and the second one is not where
the stub checks for more. -/
theorem device_logged_iff_literals :
    (sendDevice0 68 69 helloWorld).bind (Stub.logDeviceAdded androidPlatform someTexts true) =
        some (deviceLines someTexts 68 69 helloWorld) ∧
      Stub.logDeviceAdded androidPlatform someTexts true (sendDevice2 13 130 appendEach) ≠
        some (deviceLines someTexts 13 130 appendEach) := by
  refine ⟨(device_logged_iff androidPlatform someTexts true 68 69 (by decide)).1.2 (by decide),
    fun h => ?_⟩
  have hsize := ((device_logged_iff androidPlatform someTexts true 13 130 (by decide)).2.1 h).1 rfl
  exact absurd hsize (by decide)

end FwupdPoc

import FwupdPoc.GLib.Variant
import FwupdPoc.Lib.Codec
import FwupdPoc.Lib.IndexedLoop

/-!
# AParcel

A parcel is what it held at the start and the calls made on it since, each with the status it
returned. Which status a call returns is not known to the code, so it is a parameter: `fate k` is
the status of the `k`-th call. A call that returns `STATUS_OK` has appended the encoding of the
value it was handed, and a call that returns another status has appended nothing; the encodings
themselves are those of a `ParcelFormat`.
-/

namespace FwupdPoc

open Wire

/-! ## Calls -/

/-- `binder_status_t`. -/
abbrev BinderStatus := Int

/-- `STATUS_OK`, which is also the value of `GBINDER_STATUS_OK`. -/
def statusOk : BinderStatus := 0

/-- The calls that append to a parcel, with the value they are handed. The unsigned writers
(`AParcel_writeUint32`, `AParcel_writeUint64` and their arrays) append what the signed ones append
for the same bits. -/
inductive Write (B : Type) where
  | bool (value : Bool)
  | byte (value : BitVec 8)
  | int32 (value : BitVec 32)
  | int64 (value : BitVec 64)
  | double (value : BitVec 64)
  | string (value : GString)
  | boolArray (values : List Bool)
  | byteArray (values : List (BitVec 8))
  | int32Array (values : List (BitVec 32))
  | int64Array (values : List (BitVec 64))
  | doubleArray (values : List (BitVec 64))
  | stringArray (values : List GString)
  /-- The length that `AParcel_writeParcelableArray` writes in front of the elements. -/
  | arraySize (length : Nat)
  /-- `APersistableBundle_writeToParcel`. -/
  | bundle (value : B)
  deriving DecidableEq

/-- A parcel: the bytes it held at the start and the calls made since. -/
structure Parcel (B : Type) where
  initial : List Byte
  calls : List (Write B × BinderStatus)

variable {B S : Type}

/-- Makes a call on a parcel. -/
def Parcel.write (fate : Nat → BinderStatus) (w : Write B) (p : Parcel B) :
    BinderStatus × Parcel B :=
  (fate p.calls.length, { p with calls := p.calls ++ [(w, fate p.calls.length)] })

/-! ## Encodings -/

/-- The wire formats of the values a parcel can hold: what is written is read back by the reader of
the same kind. Lengths are `int32_t`. -/
structure ParcelFormat (B : Type) where
  bool : Codec Byte Bool
  byte : Codec Byte (BitVec 8)
  int32 : Codec Byte (BitVec 32)
  int64 : Codec Byte (BitVec 64)
  double : Codec Byte (BitVec 64)
  string : Codec Byte GString (·.length < 2 ^ 31)
  boolArray : Codec Byte (List Bool) (·.length < 2 ^ 31)
  byteArray : Codec Byte (List (BitVec 8)) (·.length < 2 ^ 31)
  int32Array : Codec Byte (List (BitVec 32)) (·.length < 2 ^ 31)
  int64Array : Codec Byte (List (BitVec 64)) (·.length < 2 ^ 31)
  doubleArray : Codec Byte (List (BitVec 64)) (·.length < 2 ^ 31)
  stringArray : Codec Byte (List GString) fun values =>
    values.length < 2 ^ 31 ∧ ∀ s ∈ values, s.length < 2 ^ 31
  arraySize : Codec Byte Nat (· < 2 ^ 31)
  bundle : Codec Byte B

/-- What a successful call appends. -/
def Write.bytes (format : ParcelFormat B) : Write B → List Byte
  | .bool value => format.bool.enc value
  | .byte value => format.byte.enc value
  | .int32 value => format.int32.enc value
  | .int64 value => format.int64.enc value
  | .double value => format.double.enc value
  | .string value => format.string.enc value
  | .boolArray values => format.boolArray.enc values
  | .byteArray values => format.byteArray.enc values
  | .int32Array values => format.int32Array.enc values
  | .int64Array values => format.int64Array.enc values
  | .doubleArray values => format.doubleArray.enc values
  | .stringArray values => format.stringArray.enc values
  | .arraySize length => format.arraySize.enc length
  | .bundle value => format.bundle.enc value

/-- The contents of a parcel. -/
def Parcel.data (format : ParcelFormat B) (p : Parcel B) : List Byte :=
  p.initial ++ p.calls.flatMap fun c => if c.2 = statusOk then c.1.bytes format else []

/-! ## Parcelable arrays -/

/-- What the callbacks of a parcel work on: the parcel and the memory they reach through the
`array_data` pointer. -/
structure World (B S : Type) where
  parcel : Parcel B
  memory : S

/-- Runs a function of the parcel. -/
def World.onParcel (f : Parcel B → BinderStatus × Parcel B) (world : World B S) :
    BinderStatus × World B S :=
  ((f world.parcel).1, { world with parcel := (f world.parcel).2 })

/-- `AParcel_writeParcelableArray`: writes the length and calls the element writer once for each
index, until one returns an error, which it returns. `none` is a fault of the element writer. -/
def aParcelWriteParcelableArray (fate : Nat → BinderStatus) (length : Nat)
    (elementWriter : Nat → World B S → Option (BinderStatus × World B S)) (world : World B S) :
    Option (BinderStatus × World B S) :=
  let written := world.onParcel (Parcel.write fate (.arraySize length))
  if written.1 = statusOk then
    Loop.forIndex statusOk elementWriter length 0 written.2
  else some written

end FwupdPoc

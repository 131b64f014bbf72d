import FwupdPoc.VardictToBundle
import FwupdPoc.Ndk.Parcel

/-!
# `poc_parcel_write_variant`

The encoder of GVariants as parcels. A switch on the class of the variant and, for arrays, on the
first character of the element type picks the call of the NDK that encodes it (`encoding`). Arrays
of anything that has no call of its own are handed to `AParcel_writeParcelableArray` with a
`GVariantIter` on the stack of the function and a callback, which takes the next child from the
iterator, whatever index it is called with, and calls the function again.

The iterators live in a memory of their own (`IterMemory`), since the callback reaches one through
the `array_data` pointer while those of the outer calls are live. The memory also keeps a log of the
callback's invocations, which the code does not read.
-/

namespace FwupdPoc

variable {B : Type}

/-! ## The switch -/

/-- The order in which C evaluates the arguments of a call. -/
inductive ArgumentOrder where
  | leftToRight | rightToLeft
  deriving DecidableEq

/-- What the code leaves open: the bundles, the order of evaluation, and the status of the `k`-th
call on a parcel. -/
structure Platform (B : Type) where
  bundles : PersistableBundle B
  order : ArgumentOrder
  fate : Nat → BinderStatus

/-- `poc_parcel_string_array_element_getter`: the string and `*string_length`. -/
def pocParcelStringArrayElementGetter (strvVariant : GVariant) (index : Nat) : GString × Nat :=
  let string := gVariantGetChildString strvVariant index
  (string, int32Count (strlen string))

/-- `poc_parcel_boolean_array_element_getter`. -/
def pocParcelBooleanArrayElementGetter (strvVariant : GVariant) (index : Nat) : Bool :=
  gVariantGetChildBoolean strvVariant index

/-- The third argument of `AParcel_writeString`: `fixed_array_size`, which `g_variant_get_string`
sets while the second argument is evaluated. -/
def stringSize (order : ArgumentOrder) (variant : GVariant) : Nat :=
  match order with
  | .leftToRight => (gVariantGetString variant).length
  | .rightToLeft => 0

/-- How the switch encodes a variant. -/
inductive Encoding (B : Type) where
  /-- One call, whose status is dropped. -/
  | ignored (w : Write B)
  /-- One call, whose status is returned. -/
  | returned (w : Write B)
  /-- The nullable flag, whose status is dropped, and a bundle, whose status is returned. -/
  | flagged (bundle : B)
  /-- The children, one by one. -/
  | elements
  /-- A warning. -/
  | nothing

/-- The switch of `poc_parcel_write_variant`. -/
def encoding (platform : Platform B) (variant : GVariant) : Encoding B :=
  match gVariantClassify variant with
  | .boolean => .ignored (.bool (gVariantGetBoolean variant))
  | .byte => .ignored (.byte (gVariantGetByte variant))
  | .int32 => .ignored (.int32 (gVariantGetInt32 variant))
  | .uint32 => .ignored (.int32 (gVariantGetUint32 variant))
  | .int64 => .ignored (.int64 (gVariantGetInt64 variant))
  -- the getter is the one of the signed type
  | .uint64 => .ignored (.int64 (gVariantGetInt64 variant))
  | .double => .ignored (.double (gVariantGetDouble variant))
  | .string =>
    .ignored (.string
      ((gVariantGetString variant).take (int32Count (stringSize platform.order variant))))
  | .array =>
    match variant.type.element.firstChar with
    | .dictEntry => .flagged (pocVardictToBundle platform.bundles variant.value)
    | .boolean =>
      .returned (.boolArray ((List.range (int32Count (gVariantNChildren variant))).map
        (pocParcelBooleanArrayElementGetter variant)))
    | .byte => .ignored (.byteArray (passArray (gVariantFixedArray8 variant)))
    | .int32 | .uint32 => .ignored (.int32Array (passArray (gVariantFixedArray32 variant)))
    | .int64 | .uint64 => .ignored (.int64Array (passArray (gVariantFixedArray64 variant)))
    | .double => .ignored (.doubleArray (passArray (gVariantFixedArray64 variant)))
    | .string =>
      .ignored (.stringArray ((List.range (int32Count (gVariantNChildren variant))).map fun index =>
        let element := pocParcelStringArrayElementGetter variant index
        element.1.take element.2))
    | _ => .elements
  | _ => .nothing

/-- Carries an encoding out. The children of `elements` are left to the iteration. -/
def Encoding.run (fate : Nat → BinderStatus) (p : Parcel B) :
    Encoding B → BinderStatus × Parcel B
  | .ignored w => (statusOk, (p.write fate w).2)
  | .returned w => p.write fate w
  -- `!!bundle` is 1, since `poc_vardict_to_bundle` never returns NULL
  | .flagged bundle => (p.write fate (.int32 1)).2.write fate (.bundle bundle)
  | .elements | .nothing => (statusOk, p)

/-! ## The iteration -/

/-- One invocation of the callback: the index it is called with, the position of its iterator before
and after, and the number of children. -/
structure ElementCall where
  index : Nat
  position : Nat
  positionAfter : Nat
  children : Nat
  deriving DecidableEq

/-- The iterators on the stack, by address, and the log of the callback. -/
structure IterMemory where
  iters : List GVariantIter
  log : List ElementCall

/-- `poc_parcel_variant_array_element_writer`, with the function it calls as a parameter. The
iterator is behind the pointer `arrayIter`; the index is not used. Past the end of the iterator the
variant is NULL, which the code dereferences. -/
def pocParcelVariantArrayElementWriter
    (writeVariant : GVariant → World B IterMemory → Option (BinderStatus × World B IterMemory))
    (arrayIter : Nat) (_index : Nat) (world : World B IterMemory) :
    Option (BinderStatus × World B IterMemory) :=
  match world.memory.iters[arrayIter]? with
  | none => none
  | some iter =>
    match gVariantIterNextValue iter with
    | (none, _) => none
    | (some variant, next) =>
      writeVariant variant
        { world with
          memory := { world.memory with iters := world.memory.iters.set arrayIter next } }

/-- Runs a callback and logs its invocation. -/
def logged (arrayIter : Nat)
    (elementWriter : Nat → World B IterMemory → Option (BinderStatus × World B IterMemory))
    (index : Nat) (world : World B IterMemory) : Option (BinderStatus × World B IterMemory) :=
  match world.memory.iters[arrayIter]?, elementWriter index world with
  | some before, some (status, world') =>
    match world'.memory.iters[arrayIter]? with
    | some after =>
      let call := ⟨index, before.position, after.position, gVariantIterNChildren before⟩
      some (status,
        { world' with memory := { world'.memory with log := world'.memory.log ++ [call] } })
    | none => none
  | _, _ => none

/-- `poc_parcel_write_variant`, to a depth of nested calls. -/
def pocParcelWriteVariant (platform : Platform B) :
    Nat → GVariant → World B IterMemory → Option (BinderStatus × World B IterMemory)
  | 0, _, _ => none
  | depth + 1, variant, world =>
    match encoding platform variant with
    | .elements =>
      let address := world.memory.iters.length
      let iter := gVariantIterInit variant
      let entered :=
        { world with memory := { world.memory with iters := world.memory.iters ++ [iter] } }
      -- the status of the call is dropped, and the iterator goes with the stack frame
      (aParcelWriteParcelableArray platform.fate (int32Count (gVariantIterNChildren iter))
        (logged address
          (pocParcelVariantArrayElementWriter (pocParcelWriteVariant platform depth) address))
        entered).map fun r =>
          (statusOk,
            { r.2 with memory := { r.2.memory with iters := r.2.memory.iters.take address } })
    | leaf => some (world.onParcel fun p => leaf.run platform.fate p)

/-- A call of `poc_parcel_write_variant` from outside, deep enough for the type of the variant. -/
def writeVariantToParcel (platform : Platform B) (variant : GVariant) (p : Parcel B) :
    Option (BinderStatus × Parcel B) :=
  (pocParcelWriteVariant platform (variant.type.arrayDepth + 1) variant ⟨p, ⟨[], []⟩⟩).map
    fun r => (r.1, r.2.parcel)

/-! ## The index-driven element writer -/

/-- A `GPtrArray` that holds one reference to each element, by index; `none` once the reference is
gone. -/
abbrev GPtrArray := List (Option GVariant)

/-- `poc_write_gvariant_element`. The `g_autoptr` on the element drops the reference of the array at
the end of the call. -/
def pocWriteGvariantElement (platform : Platform B) (index : Nat) (world : World B GPtrArray) :
    Option (BinderStatus × World B GPtrArray) :=
  match world.memory[index]? with
  | some (some variant) =>
    let bundle := pocVardictToBundle platform.bundles variant.value
    let written := world.onParcel fun p =>
      (p.write platform.fate (.int32 1)).2.write platform.fate (.bundle bundle)
    some (written.1, { written.2 with memory := written.2.memory.set index none })
  | _ => none

end FwupdPoc

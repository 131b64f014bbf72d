import FwupdPoc.Ndk.Bundle

/-!
# `poc_vardict_to_bundle`

The conversion of a vardict `a{sv}` into a `PersistableBundle`: a loop over the entries, a switch on
the class of each value and, for arrays, a second switch on the first character of the element
type, with a recursive call for every array of dictionary entries.
`get_pocVardictToBundle` says what the loop leaves at a key: the value stored for the last entry of
that key that the switch handles.
-/

namespace FwupdPoc

open Keyed

variable {B : Type}

/-! ## The code -/

/-- The array a vector put copies, handed over with its length as an `int32_t`. -/
def passArray {α : Type} (values : List α) : List α := values.take (int32Count values.length)

/-- The switch of `poc_vardict_to_bundle`: what is put for a value, or nothing where the code only
warns. `child` is the bundle of the recursive call. -/
def bundleValue (value : GVariant) (child : B) : Option (BundleValue B) :=
  match gVariantClassify value with
  | .boolean => some (.boolean (gVariantGetBoolean value))
  | .byte => some (.int ((gVariantGetByte value).setWidth 32))
  -- both are read through a `guint16 *`
  | .int16 | .uint16 => some (.int ((gVariantData16 value).setWidth 32))
  | .int32 | .uint32 => some (.int (gVariantData32 value))
  -- the 64 bits go into a put whose parameter is an `int32_t`
  | .int64 | .uint64 => some (.int ((gVariantData64 value).setWidth 32))
  | .double => some (.double (gVariantGetDouble value))
  | .string => some (.string (gVariantGetString value))
  | .array =>
    match value.type.element.firstChar with
    | .boolean => some (.booleanVector (passArray (gVariantFixedArrayBool value)))
    | .int32 | .uint32 => some (.intVector (passArray (gVariantFixedArray32 value)))
    | .int64 | .uint64 => some (.longVector (passArray (gVariantFixedArray64 value)))
    | .double => some (.doubleVector (passArray (gVariantFixedArray64 value)))
    | .string => some (.stringVector (passArray (gVariantGetStrv value)))
    | .dictEntry => some (.bundle child)
    | _ => none
  | _ => none

mutual

/-- `poc_vardict_to_bundle`. -/
def pocVardictToBundle (api : PersistableBundle B) {t : GVariantType} : GValue t → B
  | .array items => vardictLoop api items api.new
  | _ => api.new

/-- The loop of `poc_vardict_to_bundle` over the children that are left. It ends at the first child
that is not of the type `{sv}`, for which `g_variant_iter_next` returns `FALSE`. -/
def vardictLoop (api : PersistableBundle B) {t : GVariantType} : GItems t → B → B
  | .nil, bundle => bundle
  | .cons head rest, bundle =>
    match head with
    | .dictEntry key value =>
      match key with
      | .string key =>
        match value with
        | .variant value =>
          vardictLoop api rest
            (api.putSome bundle key (bundleValue ⟨_, value⟩ (pocVardictToBundle api value)))
        | _ => bundle
      | _ => bundle
    | _ => bundle

end

/-! ## The entries of a vardict -/

/-- The entries `g_variant_iter_next (&iter, "{&sv}", …)` returns before it returns `FALSE`. -/
def GItems.entries {t : GVariantType} : GItems t → List (GString × GVariant)
  | .nil => []
  | .cons head rest =>
    match head with
    | .dictEntry key value =>
      match key with
      | .string key =>
        match value with
        | .variant value => (key, ⟨_, value⟩) :: rest.entries
        | _ => []
      | _ => []
    | _ => []

/-- The entries of a variant that is a vardict. -/
def GVariant.entries : GVariant → List (GString × GVariant)
  | ⟨_, .array items⟩ => items.entries
  | _ => []

/-- The value of the last entry of `key` whose value satisfies `p`. -/
def lastEntry (p : GVariant → Bool) (v : GVariant) (key : GString) : Option GVariant :=
  lastSome (fun e => (if e.1 = key then some e.2 else none).filter p) v.entries

/-- What the code stores for a value, with the bundle it makes of it where it takes it for a
vardict. -/
def storedValue (api : PersistableBundle B) (v : GVariant) : Option (BundleValue B) :=
  bundleValue v (pocVardictToBundle api v.value)

/-- The values the switch puts something for. -/
def GVariant.handled (v : GVariant) : Bool := (bundleValue v ()).isSome

/-- Whether something is put does not depend on the bundles. -/
theorem storedValue_isSome (api : PersistableBundle B) (v : GVariant) :
    (storedValue api v).isSome = v.handled := by
  unfold storedValue GVariant.handled bundleValue
  split <;> try rfl
  split <;> rfl

/-- The loop fills the bundle with the entries. -/
theorem vardictLoop_eq_fill (api : PersistableBundle B) {t : GVariantType} :
    ∀ (items : GItems t) (b : B),
      vardictLoop api items b = api.fill Prod.fst (fun e => storedValue api e.2) b items.entries
  | .nil, _ => by simp [vardictLoop, GItems.entries, Store.fill]
  | .cons head rest, b => by
    have ih := vardictLoop_eq_fill api rest
    cases head with
    | dictEntry key value =>
      cases key with
      | string key =>
        cases value with
        | variant value =>
          simp only [vardictLoop, GItems.entries]
          rw [ih]
          rfl
        | _ => rfl
      | _ => rfl
    | _ => rfl

/-- The bundle of a variant holds at a key what is stored for the last entry of that key that the
switch handles. -/
theorem get_pocVardictToBundle (api : PersistableBundle B) (v : GVariant) (key : GString) :
    api.get (pocVardictToBundle api v.value) key =
      (lastEntry GVariant.handled v key).bind (storedValue api) := by
  have hfill : pocVardictToBundle api v.value =
      api.fill Prod.fst (fun e => storedValue api e.2) api.new v.entries := by
    obtain ⟨t, value⟩ := v
    cases value with
    | array items => rw [pocVardictToBundle, vardictLoop_eq_fill]; rfl
    | _ => rfl
  have hbind := lastSome_bind (fun e : GString × GVariant => if e.1 = key then some e.2 else none)
    (storedValue api) v.entries
  simp only [storedValue_isSome] at hbind
  rw [hfill, api.get_fill, api.get_new, Option.or_none, lastEntry, ← hbind]
  congr 1
  funext e
  split <;> rfl

end FwupdPoc

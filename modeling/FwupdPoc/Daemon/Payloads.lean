import FwupdPoc.GLib.Variant

/-!
# Payloads of the daemon

The variants the daemon sends, as its builders make them. A `GVariantDict` has no order of its own;
its entries are listed in the order of their insertion.
-/

namespace FwupdPoc

/-- `g_variant_new_string` on a literal. -/
def stringValue (s : String) : GValue .string := .string (.ofLiteral s)

/-- `g_variant_dict_insert_value`. -/
def dictItem {t : GVariantType} (key : String) (value : GValue t) :
    GValue (.dictEntry .string .variant) :=
  .dictEntry (stringValue key) (.variant value)

/-- The variant of an array of children. -/
def arrayValue {e : GVariantType} (l : List (GValue e)) : GValue (.array e) := .array (.ofList l)

/-- `poc_create_vardict`. -/
def pocCreateVardict (child : Option (GValue .vardict)) : GValue .vardict :=
  arrayValue <|
    [dictItem "string" (stringValue "hello world"),
      dictItem "u8" (.byte 101),
      dictItem "u16" (.int16 101),
      dictItem "u32" (.uint32 101),
      -- 101.0
      dictItem "f64" (.double 0x4059400000000000),
      dictItem "max_u8" (.byte 0xff),
      -- G_MAXUINT16 as an int16
      dictItem "max_u16" (.int16 0xffff),
      dictItem "max_i16" (.uint16 0x7fff),
      dictItem "max_u32" (.uint32 0xffffffff),
      dictItem "max_i32" (.int32 0x7fffffff),
      dictItem "strvec" (arrayValue (["hehe", "hoho", "haha"].map stringValue)),
      dictItem "boolvec" (arrayValue
        ([true, false, false, true, true, false, false, true, true].map .boolean)),
      dictItem "intvec" (arrayValue ([101, 1, 2, 3, 4, 101].map .int32)),
      dictItem "longvec" (arrayValue ([101, 1, 2, 3, 4, 101].map .int64)),
      -- 1.01, 0.0, 0.1, 0.2, 0.3, 1.01
      dictItem "doublevec" (arrayValue
        ([0x3FF028F5C28F5C29, 0, 0x3FB999999999999A, 0x3FC999999999999A, 0x3FD3333333333333,
          0x3FF028F5C28F5C29].map .double))] ++
    match child with
    | some child => [dictItem "vardict" child]
    | none => []

/-- `poc_create_vardict_small`. -/
def pocCreateVardictSmall : GValue .vardict :=
  arrayValue [dictItem "string" (stringValue "hello world"), dictItem "u8" (.byte 101)]

/-- The child that `GET_BUNDLE` and `GET_BUNDLES` give to a vardict. -/
def vardicta : GValue .vardict := pocCreateVardict none

/-- The vardict of `GET_BUNDLE` and `GET_BUNDLES`. -/
def vardict : GValue .vardict := pocCreateVardict (some vardicta)

/-- The variant of `GET_STRING`: `g_variant_new ("mi", NULL)`. -/
def stringVariant : GVariant := ⟨.maybe .int32, .nothing⟩

/-- The variant of `GET_INT_ARRAY`. -/
def intArrayVariant : GVariant := ⟨_, arrayValue ([101, 3, 2, 1, 0, 101].map .int32)⟩

/-- The variant of `GET_BUNDLES`. -/
def bundlesVariant : GVariant := ⟨_, arrayValue [vardict, vardicta]⟩

/-- The variant of `GET_BUNDLE_MATRIX`. -/
def bundleMatrixVariant : GVariant :=
  let row := arrayValue [pocCreateVardictSmall, pocCreateVardictSmall]
  ⟨_, arrayValue [row, row]⟩

/-- The variant of `GET_STRINGS`. -/
def stringsVariant : GVariant := ⟨_, arrayValue (["tom", "dick", "larry"].map stringValue)⟩

/-- The variant of `GET_BOOLS`. -/
def boolsVariant : GVariant :=
  ⟨_, arrayValue ([false, true, true, false, false, true, true, false, false].map .boolean)⟩

/-- The variant of `GET_MAYBE_STRINGS`. -/
def maybeStringsVariant : GVariant :=
  ⟨_, arrayValue ((["tom", "dick", "larry"].map fun s => .just (stringValue s)) ++ [.nothing])⟩

/-- The parameters of `onParams`: `g_variant_new ("(idmsb)", 1, 1.1, NULL, true)`. -/
def paramsVariant : GVariant :=
  ⟨.pair .int32 (.pair .double (.pair (.maybe .string) (.pair .boolean .unit))),
    .pair (.int32 1) (.pair (.double 0x3FF199999999999A) (.pair .nothing
      (.pair (.boolean true) .unit)))⟩

/-- The parameters of `onBundles`, of type `(imaa{sv}ms)`. -/
def bundlesParamsVariant : GVariant :=
  ⟨.pair .int32 (.pair (.maybe (.array .vardict)) (.pair (.maybe .string) .unit)),
    .pair (.int32 1) (.pair (.just (arrayValue [pocCreateVardictSmall]))
      (.pair (.just (stringValue "None")) .unit))⟩

end FwupdPoc

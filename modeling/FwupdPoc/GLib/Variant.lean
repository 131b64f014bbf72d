import Mathlib.Data.List.TakeDrop
import Mathlib.Data.List.TakeWhile
import Mathlib.Data.Int.ModEq

/-!
# GVariant

The part of GLib's `GVariant` that the daemon uses: the types, the values of each type, the typed
getters, the children of an array and the iterator over them. A value is indexed by its type
(`GValue`), so an array holds children of its element type and nothing else, and a `GVariant` is a
type together with a value of it, which is what a `GVariant *` points to.

The getters are total. GLib's numeric getters check the type of the value they are handed and
return zero when it is another one; the getters of this file do the same.
-/

namespace FwupdPoc

/-! ## Sizes -/

/-- The count that reaches a callee when a `gsize` is passed where an `int32_t` is expected: the
low 32 bits, read as a signed number. A negative count hands nothing over. -/
def int32Count (n : Nat) : Nat := (BitVec.ofNat 32 n).toInt.toNat

/-- A count in the `int32_t` range is passed on as it is. -/
theorem int32Count_of_lt {n : Nat} (h : n < 2 ^ 31) : int32Count n = n := by
  unfold int32Count
  rw [BitVec.toInt_ofNat', Int.bmod_eq_of_le (by omega) (by omega)]
  omega

/-- Whatever the count is, the callee sees one in the `int32_t` range. -/
theorem int32Count_lt (n : Nat) : int32Count n < 2 ^ 31 := by
  have := BitVec.toInt_lt (x := BitVec.ofNat 32 n)
  unfold int32Count
  omega

/-- The counts that survive the conversion are those of the `int32_t` range. -/
theorem int32Count_eq_self {n : Nat} : int32Count n = n ↔ n < 2 ^ 31 :=
  ⟨fun h => h ▸ int32Count_lt n, int32Count_of_lt⟩

/-- The conversion never makes a count larger. -/
theorem int32Count_le (n : Nat) : int32Count n ≤ n := by
  rcases Nat.lt_or_ge n (2 ^ 31) with h | h
  · exact Nat.le_of_eq (int32Count_of_lt h)
  · exact Nat.le_trans (Nat.le_of_lt (int32Count_lt n)) h

/-! ## Strings -/

/-- The bytes of a `guchar` buffer. -/
abbrev Byte := BitVec 8

/-- A string of GLib: its UTF-8 bytes in front of the terminating NUL, which occurs nowhere in
them. -/
structure GString where
  bytes : List Byte
  noNul : 0 ∉ bytes
  deriving DecidableEq

namespace GString

/-- The empty string. -/
def empty : GString := ⟨[], by simp⟩

/-- The number of bytes, as `g_variant_get_string` reports it. -/
def length (s : GString) : Nat := s.bytes.length

/-- The first `n` bytes of the buffer. -/
def take (s : GString) (n : Nat) : GString :=
  ⟨s.bytes.take n, fun h => s.noNul (List.mem_of_mem_take h)⟩

/-- A string literal of the source. -/
def ofLiteral (s : String) : GString :=
  ⟨(s.toList.map fun c => BitVec.ofNat 8 c.toNat).filter (· ≠ 0), by simp⟩

/-- Taking all bytes, and only then, gives the string back. -/
theorem take_eq_self {s : GString} {n : Nat} : s.take n = s ↔ s.length ≤ n := by
  cases s
  simp [take, length]

@[simp] theorem take_zero (s : GString) : s.take 0 = empty := rfl

@[simp] theorem length_empty : empty.length = 0 := rfl

end GString

/-- `strlen`: the bytes in front of the first NUL. -/
def strlen (s : GString) : Nat := (s.bytes.takeWhile (· ≠ 0)).length

/-- A `GString` has no NUL inside, so `strlen` counts all of it. -/
theorem strlen_eq (s : GString) : strlen s = s.length := by
  unfold strlen GString.length
  congr 1
  rw [List.takeWhile_eq_self_iff]
  intro b hb
  simpa using fun h0 : b = 0 => s.noNul (h0 ▸ hb)

/-! ## Types -/

/-- The types of GVariants. A tuple type is `unit` or a first item and the tuple of the others. -/
inductive GVariantType where
  | boolean | byte | int16 | uint16 | int32 | uint32 | int64 | uint64 | handle | double
  | string | objectPath | signature | variant
  | maybe (element : GVariantType)
  | array (element : GVariantType)
  | unit
  | pair (first rest : GVariantType)
  | dictEntry (key value : GVariantType)
  deriving DecidableEq

/-- `GVariantClass`: the first character of a type string. -/
inductive GVariantClass where
  | boolean | byte | int16 | uint16 | int32 | uint32 | int64 | uint64 | handle | double
  | string | objectPath | signature | variant | maybe | array | tuple | dictEntry
  deriving DecidableEq

/-- `g_variant_type_peek_string (type)[0]`, which is also how `g_variant_classify` works. -/
def GVariantType.firstChar : GVariantType → GVariantClass
  | .boolean => .boolean
  | .byte => .byte
  | .int16 => .int16
  | .uint16 => .uint16
  | .int32 => .int32
  | .uint32 => .uint32
  | .int64 => .int64
  | .uint64 => .uint64
  | .handle => .handle
  | .double => .double
  | .string => .string
  | .objectPath => .objectPath
  | .signature => .signature
  | .variant => .variant
  | .maybe _ => .maybe
  | .array _ => .array
  | .unit | .pair .. => .tuple
  | .dictEntry .. => .dictEntry

/-- `g_variant_type_element`, on array types. -/
def GVariantType.element : GVariantType → GVariantType
  | .array e => e
  | .maybe e => e
  | t => t

/-- How many arrays are nested in the type, counted from the outside. -/
def GVariantType.arrayDepth : GVariantType → Nat
  | .array e => e.arrayDepth + 1
  | _ => 0

/-- `a{sv}`. -/
abbrev GVariantType.vardict : GVariantType := .array (.dictEntry .string .variant)

/-! ## Values -/

mutual

/-- The values of a type. A double is its 64 bits, and the numbers are the bits of their width. -/
inductive GValue : GVariantType → Type
  | boolean (value : Bool) : GValue .boolean
  | byte (value : BitVec 8) : GValue .byte
  | int16 (value : BitVec 16) : GValue .int16
  | uint16 (value : BitVec 16) : GValue .uint16
  | int32 (value : BitVec 32) : GValue .int32
  | uint32 (value : BitVec 32) : GValue .uint32
  | int64 (value : BitVec 64) : GValue .int64
  | uint64 (value : BitVec 64) : GValue .uint64
  | handle (value : BitVec 32) : GValue .handle
  | double (value : BitVec 64) : GValue .double
  | string (value : GString) : GValue .string
  | objectPath (value : GString) : GValue .objectPath
  | signature (value : GString) : GValue .signature
  | variant {t : GVariantType} (value : GValue t) : GValue .variant
  | nothing {e : GVariantType} : GValue (.maybe e)
  | just {e : GVariantType} (value : GValue e) : GValue (.maybe e)
  | array {e : GVariantType} (items : GItems e) : GValue (.array e)
  | unit : GValue .unit
  | pair {t ts : GVariantType} (first : GValue t) (rest : GValue ts) : GValue (.pair t ts)
  | dictEntry {k v : GVariantType} (key : GValue k) (value : GValue v) : GValue (.dictEntry k v)

/-- The children of an array, all of its element type. -/
inductive GItems : GVariantType → Type
  | nil {e : GVariantType} : GItems e
  | cons {e : GVariantType} (head : GValue e) (tail : GItems e) : GItems e

end

/-- A GVariant: a type and a value of it. -/
structure GVariant where
  type : GVariantType
  value : GValue type

/-- The children as a list. -/
def GItems.toList {e : GVariantType} : GItems e → List (GValue e)
  | .nil => []
  | .cons head tail => head :: tail.toList

/-- The children given as a list. -/
def GItems.ofList {e : GVariantType} : List (GValue e) → GItems e
  | [] => .nil
  | head :: tail => .cons head (ofList tail)

@[simp] theorem GItems.toList_nil {e : GVariantType} : (GItems.nil : GItems e).toList = [] := rfl

@[simp] theorem GItems.toList_cons {e : GVariantType} (head : GValue e) (tail : GItems e) :
    (GItems.cons head tail).toList = head :: tail.toList := rfl

/-- A list of children is a `GItems`. -/
@[simp] theorem GItems.toList_ofList {e : GVariantType} (l : List (GValue e)) :
    (GItems.ofList l).toList = l := by
  induction l with
  | nil => rfl
  | cons head tail ih => rw [GItems.ofList, GItems.toList_cons, ih]

/-- Different children are different lists. -/
theorem GItems.toList_inj {e : GVariantType} :
    ∀ {items items' : GItems e}, items.toList = items'.toList → items = items'
  | .nil, .nil, _ => rfl
  | .cons _ tail, .cons _ tail', h => by
    obtain ⟨rfl, htail⟩ := List.cons.inj h
    rw [GItems.toList_inj htail]

/-- The children of a value of array type. -/
def GValue.items {e : GVariantType} : GValue (.array e) → GItems e
  | .array items => items

/-- The children of an array, each with its type. Other containers are never iterated. -/
def GVariant.children : GVariant → List GVariant
  | ⟨_, .array items⟩ => items.toList.map fun item => ⟨_, item⟩
  | _ => []

@[simp] theorem GVariant.children_array {e : GVariantType} (items : GItems e) :
    GVariant.children ⟨.array e, .array items⟩ = items.toList.map fun item => ⟨e, item⟩ := rfl

/-! ## Getters -/

/-- `g_variant_classify`. -/
def gVariantClassify (v : GVariant) : GVariantClass := v.type.firstChar

/-- `g_variant_get_boolean`. -/
def gVariantGetBoolean : GVariant → Bool
  | ⟨_, .boolean value⟩ => value
  | _ => false

/-- `g_variant_get_byte`. -/
def gVariantGetByte : GVariant → BitVec 8
  | ⟨_, .byte value⟩ => value
  | _ => 0

/-- `g_variant_get_int32`. -/
def gVariantGetInt32 : GVariant → BitVec 32
  | ⟨_, .int32 value⟩ => value
  | _ => 0

/-- `g_variant_get_uint32`. -/
def gVariantGetUint32 : GVariant → BitVec 32
  | ⟨_, .uint32 value⟩ => value
  | _ => 0

/-- `g_variant_get_int64`: zero for a value that is not of type `x`, a uint64 among them. -/
def gVariantGetInt64 : GVariant → BitVec 64
  | ⟨_, .int64 value⟩ => value
  | _ => 0

/-- `g_variant_get_double`. -/
def gVariantGetDouble : GVariant → BitVec 64
  | ⟨_, .double value⟩ => value
  | _ => 0

/-- `g_variant_get_string`; its out parameter is set to the `GString.length` of the result. -/
def gVariantGetString : GVariant → GString
  | ⟨_, .string value⟩ | ⟨_, .objectPath value⟩ | ⟨_, .signature value⟩ => value
  | _ => .empty

/-- `*((guint16*)g_variant_get_data (value))`. -/
def gVariantData16 : GVariant → BitVec 16
  | ⟨_, .int16 value⟩ | ⟨_, .uint16 value⟩ => value
  | _ => 0

/-- `*((guint32*)g_variant_get_data (value))`. -/
def gVariantData32 : GVariant → BitVec 32
  | ⟨_, .int32 value⟩ | ⟨_, .uint32 value⟩ | ⟨_, .handle value⟩ => value
  | _ => 0

/-- `*((guint64*)g_variant_get_data (value))`. -/
def gVariantData64 : GVariant → BitVec 64
  | ⟨_, .int64 value⟩ | ⟨_, .uint64 value⟩ | ⟨_, .double value⟩ => value
  | _ => 0

/-! ## Arrays -/

/-- `g_variant_n_children`. -/
def gVariantNChildren (v : GVariant) : Nat := v.children.length

/-- `g_variant_get_fixed_array` with element size 1: the bytes of the children of an `ay`. -/
def gVariantFixedArray8 (v : GVariant) : List (BitVec 8) := v.children.map gVariantGetByte

/-- `g_variant_get_fixed_array` with element size 1, the bytes read as the booleans of an `ab`. -/
def gVariantFixedArrayBool (v : GVariant) : List Bool := v.children.map gVariantGetBoolean

/-- `g_variant_get_fixed_array` with element size 4. -/
def gVariantFixedArray32 (v : GVariant) : List (BitVec 32) := v.children.map gVariantData32

/-- `g_variant_get_fixed_array` with element size 8. -/
def gVariantFixedArray64 (v : GVariant) : List (BitVec 64) := v.children.map gVariantData64

/-- `g_variant_get_strv`. -/
def gVariantGetStrv (v : GVariant) : List GString := v.children.map gVariantGetString

/-- `g_variant_get_child (value, index, "s", &string)`. -/
def gVariantGetChildString (v : GVariant) (index : Nat) : GString :=
  match v.children[index]? with
  | some child => gVariantGetString child
  | none => .empty

/-- `g_variant_get_child (value, index, "b", &value)`. -/
def gVariantGetChildBoolean (v : GVariant) (index : Nat) : Bool :=
  match v.children[index]? with
  | some child => gVariantGetBoolean child
  | none => false

/-! ## Iteration -/

/-- `GVariantIter`: the container and how many of its children have been returned. -/
structure GVariantIter where
  container : GVariant
  position : Nat

/-- `g_variant_iter_init`. -/
def gVariantIterInit (v : GVariant) : GVariantIter := ⟨v, 0⟩

/-- `g_variant_iter_n_children`. -/
def gVariantIterNChildren (iter : GVariantIter) : Nat := iter.container.children.length

/-- `g_variant_iter_next_value`: the next child, `none` (NULL) past the end. -/
def gVariantIterNextValue (iter : GVariantIter) : Option GVariant × GVariantIter :=
  match iter.container.children[iter.position]? with
  | some child => (some child, { iter with position := iter.position + 1 })
  | none => (none, iter)

end FwupdPoc

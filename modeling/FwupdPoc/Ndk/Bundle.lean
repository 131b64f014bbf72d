import FwupdPoc.GLib.Variant
import FwupdPoc.Lib.KeyedStore

/-!
# APersistableBundle

The bundles of the NDK are a parameter: a type `B` with the operations the daemon uses and the
documented facts about them (`PersistableBundle`), a store under string keys in which a put replaces
any earlier value of its key. `BundleValue` says what a key can hold. `putPersistableBundle` copies
the child, so a child bundle is a value like any other.
-/

namespace FwupdPoc

open Keyed

/-- What an `APersistableBundle_put*` call stores. An int is 32 bits wide and a long 64, both
signed; a double is its 64 bits. -/
inductive BundleValue (B : Type) where
  | boolean (value : Bool)
  | int (value : BitVec 32)
  | long (value : BitVec 64)
  | double (value : BitVec 64)
  | string (value : GString)
  | booleanVector (values : List Bool)
  | intVector (values : List (BitVec 32))
  | longVector (values : List (BitVec 64))
  | doubleVector (values : List (BitVec 64))
  | stringVector (values : List GString)
  | bundle (child : B)
  deriving DecidableEq

/-- The bundles of the NDK. -/
abbrev PersistableBundle (B : Type) := Store B GString (BundleValue B)

/-- The kinds of entries, where an integer is an int or a long. -/
inductive BundleKind where
  | boolean | integer | double | string
  | booleanVector | integerVector | doubleVector | stringVector
  | bundle
  deriving DecidableEq

variable {B : Type}

namespace BundleValue

/-- The kind of a stored value. -/
def kind : BundleValue B → BundleKind
  | .boolean _ => .boolean
  | .int _ | .long _ => .integer
  | .double _ => .double
  | .string _ => .string
  | .booleanVector _ => .booleanVector
  | .intVector _ | .longVector _ => .integerVector
  | .doubleVector _ => .doubleVector
  | .stringVector _ => .stringVector
  | .bundle _ => .bundle

/-- A stored integer, with the width of its type. -/
def integer? : BundleValue B → Option (Nat × Int)
  | .int value => some (32, value.toInt)
  | .long value => some (64, value.toInt)
  | _ => none

/-- The elements of a stored vector. -/
def elements : BundleValue B → List (BundleValue B)
  | .booleanVector values => values.map .boolean
  | .intVector values => values.map .int
  | .longVector values => values.map .long
  | .doubleVector values => values.map .double
  | .stringVector values => values.map .string
  | _ => []

/-- What a stored value holds at a key: only a child bundle holds anything. -/
def child (api : PersistableBundle B) : BundleValue B → GString → Option (BundleValue B)
  | .bundle b, key => api.get b key
  | _, _ => none

end BundleValue

/-- Looks a path of keys up in a bundle, through child bundles. The empty path is the bundle. -/
def bundleAt (api : PersistableBundle B) (b : B) (path : List GString) : Option (BundleValue B) :=
  walk (BundleValue.child api) (.bundle b) path

end FwupdPoc

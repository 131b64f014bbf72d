import FwupdPoc.Ndk.Bundle
import FwupdPoc.Ndk.Parcel

/-!
# Reference bundles and parcels

Bundles and wire formats to evaluate the definitions with, where the NDK is a parameter elsewhere. A
bundle is given by the puts that made it. Words and lengths are little-endian, a `bool` and a `byte`
take four bytes, as in a parcel, and arrays stand behind their lengths; strings are left in UTF-8, a
byte array is not padded, and a bundle is the sequence of its puts.
-/

namespace FwupdPoc

open Wire

/-! ## Bundles -/

/-- A bundle as the sequence of its puts, the latest one outermost. -/
inductive MapBundle where
  | new
  | put (bundle : MapBundle) (key : GString) (value : BundleValue Empty)
  | putBundle (bundle : MapBundle) (key : GString) (child : MapBundle)
  deriving DecidableEq

namespace MapBundle

/-- Puts a value of any kind. -/
def putValue (bundle : MapBundle) (key : GString) : BundleValue MapBundle → MapBundle
  | .boolean value => .put bundle key (.boolean value)
  | .int value => .put bundle key (.int value)
  | .long value => .put bundle key (.long value)
  | .double value => .put bundle key (.double value)
  | .string value => .put bundle key (.string value)
  | .booleanVector values => .put bundle key (.booleanVector values)
  | .intVector values => .put bundle key (.intVector values)
  | .longVector values => .put bundle key (.longVector values)
  | .doubleVector values => .put bundle key (.doubleVector values)
  | .stringVector values => .put bundle key (.stringVector values)
  | .bundle child => .putBundle bundle key child

/-- A value that is no bundle. -/
def ofLeaf : BundleValue Empty → BundleValue MapBundle
  | .boolean value => .boolean value
  | .int value => .int value
  | .long value => .long value
  | .double value => .double value
  | .string value => .string value
  | .booleanVector values => .booleanVector values
  | .intVector values => .intVector values
  | .longVector values => .longVector values
  | .doubleVector values => .doubleVector values
  | .stringVector values => .stringVector values

/-- The value of the latest put of a key. -/
def get : MapBundle → GString → Option (BundleValue MapBundle)
  | .new, _ => none
  | .put bundle key' value, key => if key = key' then some (ofLeaf value) else bundle.get key
  | .putBundle bundle key' child, key => if key = key' then some (.bundle child) else bundle.get key

end MapBundle

/-- The reference bundles satisfy the laws of a store. -/
def mapBundle : PersistableBundle MapBundle where
  new := MapBundle.new
  put := MapBundle.putValue
  get := MapBundle.get
  get_new _ := rfl
  get_put _ _ value _ := by cases value <;> rfl

/-! ## Formats -/

/-- A length. -/
def sizeCodec : Codec Byte Nat (· < 2 ^ 31) :=
  (Codec.littleEndian 4).restrict fun _ h => Nat.lt_trans h (by decide)

/-- An array behind its length. -/
def arrayCodec {α : Type} (item : Codec Byte α) : Codec Byte (List α) (·.length < 2 ^ 31) :=
  (sizeCodec.counted item).restrict fun _ h => ⟨h, fun _ _ => trivial⟩

/-- The bytes of a string, in any encoding of lists of bytes. -/
def stringCodec {dom : List Byte → Prop} (bytes : Codec Byte (List Byte) dom) :
    Codec Byte GString (fun s => dom s.bytes) :=
  bytes.via GString.bytes (fun l => if h : 0 ∈ l then .empty else ⟨l, h⟩) (fun _ h => h)
    (fun s _ => dif_neg s.noNul)

/-- `AParcel_writeBool`. -/
def boolCodec : Codec Byte Bool :=
  (Codec.word 4).via (fun b => if b then 1 else 0) (· ≠ 0) (fun _ _ => trivial) (by decide)

/-- A list of any length, behind its length in unary. -/
def listCodec {α : Type} (item : Codec Byte α) : Codec Byte (List α) :=
  ((Codec.unary 1 0 (by decide)).counted item).restrict fun _ _ => ⟨trivial, fun _ _ => trivial⟩

/-- The encoding of a value in a bundle, behind a tag. -/
def leafEnc : BundleValue Empty → List Byte
  | .boolean value => 0 :: boolCodec.enc value
  | .int value => 1 :: (Codec.word 4).enc value
  | .long value => 2 :: (Codec.word 8).enc value
  | .double value => 3 :: (Codec.word 8).enc value
  | .string value => 4 :: (stringCodec (listCodec .symbol)).enc value
  | .booleanVector values => 5 :: (listCodec boolCodec).enc values
  | .intVector values => 6 :: (listCodec (.word 4)).enc values
  | .longVector values => 7 :: (listCodec (.word 8)).enc values
  | .doubleVector values => 8 :: (listCodec (.word 8)).enc values
  | .stringVector values => 9 :: (listCodec (stringCodec (listCodec .symbol))).enc values

/-- Reads a value in a bundle. -/
def leafDec : Reader Byte (BundleValue Empty) := do
  let tag ← readSymbol
  if tag = 0 then .boolean <$> boolCodec.dec
  else if tag = 1 then .int <$> (Codec.word 4).dec
  else if tag = 2 then .long <$> (Codec.word 8).dec
  else if tag = 3 then .double <$> (Codec.word 8).dec
  else if tag = 4 then .string <$> (stringCodec (listCodec .symbol)).dec
  else if tag = 5 then .booleanVector <$> (listCodec boolCodec).dec
  else if tag = 6 then .intVector <$> (listCodec (.word 4)).dec
  else if tag = 7 then .longVector <$> (listCodec (.word 8)).dec
  else if tag = 8 then .doubleVector <$> (listCodec (.word 8)).dec
  else .stringVector <$> (listCodec (stringCodec (listCodec .symbol))).dec

theorem leaf_recovers (value : BundleValue Empty) : Recovers leafDec (leafEnc value) value := by
  have tagged : ∀ {α : Type} (tag : Byte) {bytes : List Byte} {a : α} {next : Byte → Reader Byte α},
      Recovers (next tag) bytes a → Recovers (readSymbol >>= next) (tag :: bytes) a :=
    fun tag _ _ _ h => (Recovers.symbol tag).bind h
  cases value with
  | boolean v => exact tagged 0 ((boolCodec.recovers v trivial).map _)
  | int v => exact tagged 1 (((Codec.word 4).recovers v trivial).map _)
  | long v => exact tagged 2 (((Codec.word 8).recovers v trivial).map _)
  | double v => exact tagged 3 (((Codec.word 8).recovers v trivial).map _)
  | string v => exact tagged 4 (((stringCodec (listCodec .symbol)).recovers v trivial).map _)
  | booleanVector v => exact tagged 5 (((listCodec boolCodec).recovers v trivial).map _)
  | intVector v => exact tagged 6 (((listCodec (.word 4)).recovers v trivial).map _)
  | longVector v => exact tagged 7 (((listCodec (.word 8)).recovers v trivial).map _)
  | doubleVector v => exact tagged 8 (((listCodec (.word 8)).recovers v trivial).map _)
  | stringVector v =>
    exact tagged 9 (((listCodec (stringCodec (listCodec .symbol))).recovers v trivial).map _)
  | bundle child => exact child.elim

namespace MapBundle

/-- A key. -/
def keyCodec : Codec Byte GString := stringCodec (listCodec .symbol)

/-- The encoding of a bundle: the word zero for an empty one. -/
def enc : MapBundle → List Byte
  | .new => (Codec.word 4).enc 0
  | .put bundle key value =>
    (Codec.word 4).enc 1 ++ (bundle.enc ++ (keyCodec.enc key ++ leafEnc value))
  | .putBundle bundle key child =>
    (Codec.word 4).enc 2 ++ (bundle.enc ++ (keyCodec.enc key ++ child.enc))

/-- Reads a bundle of at most `depth` nested puts. -/
def decTo : Nat → Reader Byte MapBundle
  | 0 => failure
  | depth + 1 => do
    let tag ← (Codec.word 4).dec
    if tag = 0 then Pure.pure .new
    else do
      let bundle ← decTo depth
      let key ← keyCodec.dec
      if tag = 1 then .put bundle key <$> leafDec else .putBundle bundle key <$> decTo depth

/-- A bundle is read back at any depth from its own on. -/
theorem decTo_recovers : ∀ (bundle : MapBundle) (extra : Nat),
    Recovers (decTo (bundle.enc.length + extra)) bundle.enc bundle := by
  have hword : ∀ tag : BitVec 32, ((Codec.word 4).enc tag).length = 4 := fun _ => rfl
  intro bundle
  induction bundle with
  | new =>
    intro extra
    have hlength : new.enc.length + extra = 3 + extra + 1 := by
      rw [enc, hword]
      omega
    rw [hlength]
    exact ((Codec.word 4).recovers 0 trivial).bind (Recovers.pure MapBundle.new)
  | put bundle key value ih =>
    intro extra
    have hlength : (put bundle key value).enc.length + extra =
        bundle.enc.length + (3 + (keyCodec.enc key ++ leafEnc value).length + extra) + 1 := by
      simp only [enc, List.length_append, hword]
      omega
    rw [hlength]
    exact ((Codec.word 4).recovers 1 trivial).bind
      ((ih _).bind ((keyCodec.recovers key trivial).bind ((leaf_recovers value).map _)))
  | putBundle bundle key child ih ih' =>
    intro extra
    have hlength : (putBundle bundle key child).enc.length + extra = bundle.enc.length +
        (3 + (keyCodec.enc key).length + child.enc.length + extra) + 1 := by
      simp only [enc, List.length_append, hword]
      omega
    have hchild : bundle.enc.length + (3 + (keyCodec.enc key).length + child.enc.length + extra) =
        child.enc.length + (bundle.enc.length + 3 + (keyCodec.enc key).length + extra) := by
      omega
    have hread := ih' (bundle.enc.length + 3 + (keyCodec.enc key).length + extra)
    rw [← hchild] at hread
    rw [hlength]
    exact ((Codec.word 4).recovers 2 trivial).bind
      ((ih _).bind ((keyCodec.recovers key trivial).bind (hread.map _)))

/-- The stream is long enough for the bundles in it. -/
def codec : Codec Byte MapBundle where
  enc := enc
  dec s := decTo s.length s
  recovers bundle _ := by
    intro rest
    have hrun := decTo_recovers bundle rest.length rest
    rw [← List.length_append] at hrun
    exact hrun

end MapBundle

/-- The reference format. -/
def referenceFormat : ParcelFormat MapBundle where
  bool := boolCodec
  byte := (Codec.word 4).via (BitVec.setWidth 32) (BitVec.setWidth 8) (fun _ _ => trivial)
    (fun _ _ => by simp)
  int32 := .word 4
  int64 := .word 8
  double := .word 8
  string := stringCodec (arrayCodec .symbol)
  boolArray := arrayCodec boolCodec
  byteArray := arrayCodec .symbol
  int32Array := arrayCodec (.word 4)
  int64Array := arrayCodec (.word 8)
  doubleArray := arrayCodec (.word 8)
  stringArray := (arrayCodec (stringCodec (listCodec .symbol))).restrict fun _ h => h.1
  arraySize := sizeCodec
  bundle := MapBundle.codec

end FwupdPoc

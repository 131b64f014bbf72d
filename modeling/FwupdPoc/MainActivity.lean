import FwupdPoc.Lib.Margin

/-!
# Logging in `MainActivity`

The texts that the listeners of `MainActivity.kt` pass to `v()`: the printers `printBundle` and
`printArray`, and the raw templates in which the callbacks put what they print. Texts are UTF-16
code units. What Android makes of a bundle by `toString` and of a `Double` is a parameter, of which
it is known that a number has no line terminator and no `|`.
-/

namespace FwupdPoc.MainActivity

open Utf16 KotlinText

/-! ## Bundles -/

mutual

/-- A value in a `PersistableBundle`. -/
inductive Value where
  | null
  | boolean (value : Bool)
  | int (value : BitVec 32)
  | long (value : BitVec 64)
  | double (value : BitVec 64)
  | string (value : Units)
  | booleanArray (values : List Bool)
  | intArray (values : List (BitVec 32))
  | longArray (values : List (BitVec 64))
  | doubleArray (values : List (BitVec 64))
  | stringArray (values : List (Option Units))
  | bundle (value : BaseBundle)

/-- A bundle: its entries, in the order of `keySet()`. A key may be null. -/
inductive BaseBundle where
  | empty
  | entry (key : Option Units) (value : Value) (rest : BaseBundle)

end

namespace BaseBundle

/-- `isEmpty()`. -/
def isEmpty : BaseBundle → Bool
  | .empty => true
  | .entry _ _ _ => false

/-- `get(key)`. -/
def get (key : Units) : BaseBundle → Option Value
  | .empty => none
  | .entry key' value rest => if key' = some key then some value else rest.get key

/-- `containsKey(key)`. -/
def containsKey (key : Units) (bundle : BaseBundle) : Bool := (bundle.get key).isSome

/-- `getInt(key)`: zero where there is no `Int`. -/
def getInt (key : Units) (bundle : BaseBundle) : BitVec 32 :=
  match bundle.get key with
  | some (.int value) => value
  | _ => 0

/-- `remove(key)`. -/
def remove (key : Units) : BaseBundle → BaseBundle
  | .empty => .empty
  | .entry key' value rest =>
    if key' = some key then rest.remove key else .entry key' value (rest.remove key)

end BaseBundle

/-- What the platform makes of bundles and numbers. -/
structure Platform where
  bundleToString : BaseBundle → Units
  doubleToString : BitVec 64 → Units
  doubleToString_plain : ∀ value, ∀ c ∈ doubleToString value, c ≠ lf ∧ c ≠ cr ∧ c ≠ bar

/-! ## Printers -/

/-- A nullable string in a template. -/
def nullableText (text : Option Units) : Units := text.getD (units "null")

/-- A whole number in a template. -/
def numberText (value : Int) : Units := units (toString value)

/-- A `Boolean` in a template. -/
def booleanText (value : Bool) : Units := if value then units "true" else units "false"

/-- The elements of an array, each on a line of its own. -/
def printElements (elements : List Units) : Units :=
  units "[" ++ (elements.flatMap fun s => units "\n  " ++ s ++ units ",") ++ units "\n]"

/-- A bundle around the texts of its entries. -/
def printAround (platform : Platform) (bundle : BaseBundle) (out : Units) : Units :=
  platform.bundleToString bundle ++ units ":\x7b" ++ prependIndent (units "  ") out ++
    units "\n\x7d"

mutual

/-- What `printBundle` puts behind a key. -/
def printValue (platform : Platform) : Value → Units
  | .null => units "null"
  | .boolean value => booleanText value
  | .int value => numberText value.toInt
  | .long value => numberText value.toInt
  | .double value => platform.doubleToString value
  | .string value => value
  | .booleanArray values => printElements (values.map booleanText)
  | .intArray values => printElements (values.map fun value => numberText value.toInt)
  | .longArray values => printElements (values.map fun value => numberText value.toInt)
  | .doubleArray values => printElements (values.map platform.doubleToString)
  | .stringArray values => printElements (values.map nullableText)
  | .bundle bundle => printAround platform bundle (printEntries platform bundle)

/-- The loop of `printBundle` over the keys. -/
def printEntries (platform : Platform) : BaseBundle → Units
  | .empty => []
  | .entry key value rest =>
    units "\n" ++ nullableText key ++ units ": " ++ printValue platform value ++ units "," ++
      printEntries platform rest

end

/-- `printBundle`. -/
def printBundle (platform : Platform) : Option BaseBundle → Units
  | none => units "(null)"
  | some bundle => printAround platform bundle (printEntries platform bundle)

/-- An array of any type: bundles, arrays, and other elements by their `toString`. -/
inductive AnyArray where
  | nil
  | bundle (it : BaseBundle) (rest : AnyArray)
  | array (it : AnyArray) (rest : AnyArray)
  | other (it : Units) (rest : AnyArray)

/-- `joinToString` with the arguments of `printArray`. -/
def joinElements (elements : List Units) : Units :=
  units "[\n" ++ List.intercalate (units ",\n") elements ++ units ",\n]"

/-- The texts of the elements that `printArray` joins. -/
def printItems (platform : Platform) : AnyArray → List Units
  | .nil => []
  | .bundle it rest =>
    prependIndent (units "  ") (printBundle platform (some it)) :: printItems platform rest
  | .array it rest =>
    prependIndent (units "  ") (joinElements (printItems platform it)) :: printItems platform rest
  | .other it rest => prependIndent (units "  ") it :: printItems platform rest

/-- `printArray`. -/
def printArray (platform : Platform) : Option AnyArray → Units
  | none => units "(null)"
  | some array => joinElements (printItems platform array)

/-- An array of nullable bundles. -/
def ofBundles : List (Option BaseBundle) → AnyArray
  | [] => .nil
  | some it :: rest => .bundle it (ofBundles rest)
  | none :: rest => .other (units "null") (ofBundles rest)

/-! ## Callbacks -/

/-- The margin of a raw string that is indented by `n` spaces. -/
def spaces (n : Nat) : Units := List.replicate n 0x20

/-- The message of a template with a heading and a bundle. -/
def bundleMessage (platform : Platform) (indent : Nat) (heading : String)
    (bundle : Option BaseBundle) : Units :=
  trimMargin (rawTemplate (spaces indent)
    [units heading, units "  " ++ printBundle platform bundle])

/-- `onDeviceAdded`. -/
def onDeviceAdded (platform : Platform) (device : Option BaseBundle) : List Units :=
  [bundleMessage platform 16 "device added" device]

/-- `onDeviceRemoved`. -/
def onDeviceRemoved (platform : Platform) (device : Option BaseBundle) : List Units :=
  [bundleMessage platform 16 "device removed" device]

/-- `onDeviceChanged`. -/
def onDeviceChanged (platform : Platform) (device : Option BaseBundle) : List Units :=
  [bundleMessage platform 16 "device changed" device]

/-- `onDeviceRequest`. -/
def onDeviceRequest (platform : Platform) (request : Option BaseBundle) : List Units :=
  [bundleMessage platform 16 "device request" request]

/-- `enum class FwupdStatus`. -/
inductive FwupdStatus where
  | unknown | idle | loading | decompressing | deviceRestart | deviceWrite | deviceVerify
  | scheduling | downloading | deviceRead | deviceErase | waitingForAuth | deviceBusy | shutdown
  | waitingForUser | last
  deriving DecidableEq

/-- The name of a status. -/
def FwupdStatus.name : FwupdStatus → String
  | .unknown => "UNKNOWN"
  | .idle => "IDLE"
  | .loading => "LOADING"
  | .decompressing => "DECOMPRESSING"
  | .deviceRestart => "DEVICE_RESTART"
  | .deviceWrite => "DEVICE_WRITE"
  | .deviceVerify => "DEVICE_VERIFY"
  | .scheduling => "SCHEDULING"
  | .downloading => "DOWNLOADING"
  | .deviceRead => "DEVICE_READ"
  | .deviceErase => "DEVICE_ERASE"
  | .waitingForAuth => "WAITING_FOR_AUTH"
  | .deviceBusy => "DEVICE_BUSY"
  | .shutdown => "SHUTDOWN"
  | .waitingForUser => "WAITING_FOR_USER"
  | .last => "LAST"

/-- `FwupdStatus.values()`, in the order of their ordinals. -/
def FwupdStatus.values : List FwupdStatus :=
  [.unknown, .idle, .loading, .decompressing, .deviceRestart, .deviceWrite, .deviceVerify,
    .scheduling, .downloading, .deviceRead, .deviceErase, .waitingForAuth, .deviceBusy, .shutdown,
    .waitingForUser, .last]

/-- `FwupdStatus.fromInt`. -/
def FwupdStatus.fromInt (v : BitVec 32) : Option FwupdStatus :=
  (FwupdStatus.values.zipIdx.find? fun it => (it.2 : Int) = v.toInt).map Prod.fst

/-- `"Percentage"`. -/
def percentageKey : Units := units "Percentage"

/-- `"Status"`. -/
def statusKey : Units := units "Status"

/-- The first two branches of `onPropertiesChanged`: the messages, and the properties that are
left. -/
def takeKnownProperties (properties : BaseBundle) : List Units × BaseBundle :=
  let first : List Units × BaseBundle :=
    if properties.containsKey percentageKey then
      ([units "percentage: " ++ numberText (properties.getInt percentageKey).toInt ++ units "%"],
        properties.remove percentageKey)
    else ([], properties)
  if first.2.containsKey statusKey then
    (first.1 ++ [units "daemon status: " ++
        nullableText ((FwupdStatus.fromInt (first.2.getInt statusKey)).map fun s => units s.name)],
      first.2.remove statusKey)
  else first

/-- `onPropertiesChanged`. -/
def onPropertiesChanged (platform : Platform) : Option BaseBundle → List Units
  | none => []
  | some properties =>
    let taken := takeKnownProperties properties
    if taken.2.isEmpty then taken.1
    else taken.1 ++ [bundleMessage platform 20 "properties changed" (some taken.2)]

/-- `onBundles`. -/
def onBundles (platform : Platform) (count : BitVec 32)
    (bundles : Option (List (Option BaseBundle))) (status : Option Units) : List Units :=
  [trimMargin (rawTemplate (spaces 20)
    [units "listener bundles",
      units "  " ++ numberText count.toInt ++ units ",",
      prependIndent (units "  ") (printArray platform (bundles.map ofBundles)) ++ units ",",
      units "  " ++ nullableText status ++ units ","])]

end FwupdPoc.MainActivity

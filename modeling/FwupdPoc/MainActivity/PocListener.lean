import FwupdPoc.Aidl
import FwupdPoc.MainActivity.Intact

/-!
# The listener of the proof of concept

The callbacks of the object that `registerListener` registers. Each logs a raw template with what it
is given, a text on each line. `trimMargin` runs when the texts are in place, so a path, a string or
a status of several lines may lose characters: the message is the template with its texts exactly if
none of them has a `\r` or a marked line behind its first one (`PocCallback.message_eq_parts_iff`).
-/

namespace FwupdPoc.MainActivity

open Utf16 KotlinText

/-- What `toString` returns for the parcelables of a call. -/
structure ObjectTexts where
  device : Units
  deepExample : Units
  otherExample : Units

/-- A call of `IPocFwupdListener` with what the client has read. -/
inductive PocCallback where
  | onChanged
  | onDeviceAdded (device : Aidl.Device)
  | onDeepExample (de : Aidl.DeepExample)
  | onParams (int_param : BitVec 32) (double_param : BitVec 64) (string_param : Option Units)
      (bool_param : Bool)
  | onBundles (count : BitVec 32) (bundles : Option (List (Option BaseBundle)))
      (status : Option Units)

namespace PocCallback

variable (platform : Platform) (texts : ObjectTexts)

/-- The lines of the template, with the texts in them. -/
def parts : PocCallback → List Units
  | .onChanged => [units "listener changed"]
  | .onDeviceAdded device =>
    [units "listener device added",
      units "  " ++ texts.device,
      units "    id: " ++ numberText device.id.toInt,
      units "    ido: " ++ numberText device.ido.toInt,
      units "    path: " ++ nullableText device.path]
  | .onDeepExample de =>
    [units "listener deep example",
      units "  " ++ texts.deepExample,
      units "    other: " ++ nullableText (de.other.map fun _ => texts.otherExample),
      units "      id: " ++ nullableText (de.other.map fun other => numberText other.id.toInt),
      units "      example: " ++ nullableText (de.other.bind fun other => other.example'),
      units "    id: " ++ numberText de.id.toInt,
      units "    example: " ++ nullableText de.example']
  | .onParams int_param double_param string_param bool_param =>
    [units "listener params",
      units "  " ++ numberText int_param.toInt ++ units ", " ++
        platform.doubleToString double_param ++ units ", " ++
        (nullableText string_param ++ (units ", " ++ booleanText bool_param))]
  | .onBundles count bundles status =>
    [units "listener bundles",
      units "  " ++ numberText count.toInt ++ units ",",
      prependIndent (units "  ") (printArray platform (bundles.map ofBundles)) ++ units ",",
      units "  " ++ nullableText status ++ units ","]

/-- The message that the callback logs. -/
def message : PocCallback → Units
  | .onChanged => units "listener changed"
  | callback => trimMargin (rawTemplate (spaces 20) (parts platform texts callback))

/-- What the texts of a call have to be like for the message with them to stay intact. -/
def Unmarked : PocCallback → Prop
  | .onChanged => True
  | .onDeviceAdded device => Stays texts.device ∧ ∀ path ∈ device.path, Stays path
  | .onDeepExample de =>
    Stays texts.deepExample ∧
      (∀ other ∈ de.other, Stays texts.otherExample ∧ ∀ text ∈ other.example', Stays text) ∧
      ∀ text ∈ de.example', Stays text
  | .onParams _ _ string_param _ => ∀ text ∈ string_param, Stays text
  | .onBundles _ bundles status =>
    BundlesUnmarked platform bundles ∧ ∀ text ∈ status, Stays text

end PocCallback

/-! ## The parts of the templates -/

/-- A label and a nullable text. -/
theorem stays_nullableText {label : Units} (h : IsLine label) {text : Option Units} :
    Stays (label ++ nullableText text) ↔ ∀ t ∈ text, Stays t := by
  rw [stays_append_line h]
  cases text with
  | none => exact iff_of_true plain_null.isLine.stays (fun t ht => nomatch ht)
  | some t => simp [nullableText]

/-- A label and a number. -/
theorem stays_numberText {label : Units} (h : IsLine label) (value : Int) :
    Stays (label ++ numberText value) :=
  (h.append (plain_numberText value).isLine).stays

/-- The array of bundles has an indent in front of its first line. -/
theorem stays_printArray {platform : Platform} {bundles : Option (List (Option BaseBundle))} :
    Stays (prependIndent (units "  ") (printArray platform (bundles.map ofBundles)) ++ units ",") ↔
      BundlesUnmarked platform bundles := by
  have hcomma : Stays (0x2C :: []) := plain_comma.isLine.stays
  have hcr := cr_not_mem_prependIndent isLine_indent (printArray platform (bundles.map ofBundles))
  have hunits : units "," = 0x2C :: [] := rfl
  rw [hunits, stays_append step_comma hcomma, stays_iff_marginFree, and_iff_right hcr,
    marginFree_prependIndent isBlank_indent isLine_indent, marginFree_printArray]

namespace PocCallback

/-- All parts of the template stay as they are exactly if the texts of the call do. -/
theorem stays_parts_iff (platform : Platform) (texts : ObjectTexts) (callback : PocCallback) :
    (∀ part ∈ parts platform texts callback, Stays part) ↔ Unmarked platform texts callback := by
  cases callback with
  | onChanged =>
    have hline : IsLine (units "listener changed") := by decide
    exact iff_of_true (List.forall_mem_singleton.2 hline.stays) trivial
  | onDeviceAdded device =>
    have hheading : Stays (units "listener device added") := by decide
    have hid : Stays (units "    id: " ++ numberText device.id.toInt) :=
      stays_numberText (by decide) _
    have hido : Stays (units "    ido: " ++ numberText device.ido.toInt) :=
      stays_numberText (by decide) _
    have hpath : Stays (units "    path: " ++ nullableText device.path) ↔
        ∀ path ∈ device.path, Stays path := stays_nullableText (by decide)
    unfold parts Unmarked
    simp only [List.forall_mem_cons, hheading, hid, hido, hpath, stays_append_line isLine_indent]
    simp
  | onDeepExample de =>
    have hheading : Stays (units "listener deep example") := by decide
    have hid : Stays (units "    id: " ++ numberText de.id.toInt) :=
      stays_numberText (by decide) _
    have hexample : Stays (units "    example: " ++ nullableText de.example') ↔
        ∀ text ∈ de.example', Stays text := stays_nullableText (by decide)
    have hother : Stays (units "    other: " ++
        nullableText (de.other.map fun _ => texts.otherExample)) ↔
        ∀ text ∈ de.other.map fun _ => texts.otherExample, Stays text :=
      stays_nullableText (by decide)
    have hotherExample : Stays (units "      example: " ++
        nullableText (de.other.bind fun other => other.example')) ↔
        ∀ text ∈ de.other.bind fun other => other.example', Stays text :=
      stays_nullableText (by decide)
    have hotherId : Stays (units "      id: " ++
        nullableText (de.other.map fun other => numberText other.id.toInt)) := by
      refine (stays_nullableText (by decide)).2 fun text htext => ?_
      obtain ⟨other, -, rfl⟩ := Option.map_eq_some_iff.1 htext
      exact (plain_numberText _).isLine.stays
    unfold parts Unmarked
    simp only [List.forall_mem_cons, hheading, hother, hotherId, hotherExample, hid, hexample,
      stays_append_line isLine_indent]
    cases de.other with
    | none => simp
    | some other => simp [and_assoc]
  | onParams int_param double_param string_param bool_param =>
    have hheading : Stays (units "listener params") := by decide
    have hseparator : IsLine (units ", ") := by decide
    have hfront : IsLine (units "  " ++ numberText int_param.toInt ++ units ", " ++
        platform.doubleToString double_param ++ units ", ") :=
      (((isLine_indent.append (plain_numberText _).isLine).append hseparator).append
        (Plain.isLine (platform.doubleToString_plain double_param))).append hseparator
    have hback : Stays (0x2C :: (0x20 :: booleanText bool_param)) :=
      (hseparator.append (plain_booleanText bool_param).isLine).stays
    have hunits : units ", " ++ booleanText bool_param = 0x2C :: (0x20 :: booleanText bool_param) :=
      rfl
    unfold parts Unmarked
    simp only [List.forall_mem_cons, hheading, stays_append_line hfront, hunits,
      stays_append step_comma hback]
    cases string_param with
    | none => simp [nullableText, plain_null.isLine.stays]
    | some text => simp [nullableText]
  | onBundles count bundles status =>
    have hheading : Stays (units "listener bundles") := by decide
    have hcount : Stays (units "  " ++ numberText count.toInt ++ units ",") :=
      ((isLine_indent.append (plain_numberText _).isLine).append plain_comma.isLine).stays
    have hcomma : Stays (0x2C :: []) := plain_comma.isLine.stays
    have hstatus : Stays (units "  " ++ nullableText status ++ units ",") ↔
        ∀ text ∈ status, Stays text := by
      have hunits : units "," = 0x2C :: [] := rfl
      rw [hunits, stays_append step_comma hcomma, stays_nullableText isLine_indent]
    unfold parts Unmarked
    simp only [List.forall_mem_cons, hheading, hcount, stays_printArray, hstatus]
    simp

/-- **A callback logs its template with the texts of the call exactly if none of them has a `\r` or
a line behind its first one that starts with the margin prefix.** -/
theorem message_eq_parts_iff (platform : Platform) (texts : ObjectTexts) (callback : PocCallback) :
    message platform texts callback = joinLines (parts platform texts callback) ↔
      Unmarked platform texts callback := by
  rw [← stays_parts_iff]
  cases callback with
  | onChanged =>
    have hline : IsLine (units "listener changed") := by decide
    exact iff_of_true (by simp [message, parts, joinLines])
      (List.forall_mem_singleton.2 hline.stays)
  | onDeviceAdded | onDeepExample | onParams | onBundles =>
    exact trimMargin_rawTemplate_eq_iff (isBlank_spaces 20) (isLine_spaces 20)

end PocCallback

end FwupdPoc.MainActivity

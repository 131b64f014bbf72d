import FwupdPoc.MainActivity.Arrays
import FwupdPoc.MainActivity.Log
import FwupdPoc.MainActivity.PocListener

/-!
# The messages of `MainActivity`

Besides the callbacks of the two listeners, `MainActivity` logs what the services return to its
buttons, and texts of one line. All kinds of messages are told apart by their first lines: an array
that is returned ends it with a bracket and a bundle with a space, and the headings of the listeners
are known (`readMessage_lines`). So what was logged is read back from the log as a whole
(`readMessages_logOf`).
-/

namespace FwupdPoc.MainActivity

open Utf16 KotlinText

/-! ## Results -/

/-- What a call returns, as it is printed. -/
inductive Result where
  | text (value : Units)
  | bundle (value : Option BaseBundle)
  | array (value : Option AnyArray)

/-- What is logged of a result. -/
def Result.print (platform : Platform) : Result → Units
  | .text value => value
  | .bundle value => printBundle platform value
  | .array value => printArray platform value

/-- What can be read of a result. -/
def Result.Readable (platform : Platform) : Result → Prop
  | .text value => IsLine value
  | .bundle value => BundleReadable platform value
  | .array value => ∀ array ∈ value, ItemsReadable platform array

/-- An array of elements with these texts. -/
def ofTexts (elements : List Units) : AnyArray := elements.foldr .other .nil

/-- An array of arrays. -/
def ofArrays (elements : List AnyArray) : AnyArray := elements.foldr .array .nil

/-- `kotlin.Unit`, or null where there is no service. -/
def unitText (returned : Option Unit) : Units :=
  nullableText (returned.map fun _ => units "kotlin.Unit")

/-- What the calls that the buttons make return: null where there is no service. Two of the calls
may throw. -/
inductive ResultEvent where
  | getDevices (bundleOut : Option (List (Option BaseBundle)))
  | getDevicesError (error : Units)
  | getProperties (bundleOut : Option BaseBundle)
  | getPropertiesError (error : Units)
  | getBundles (bundleOut : Option (List (Option BaseBundle)))
  | getBundleMatrix (bundleOut : Option (List (List (Option BaseBundle))))
  | getIntArray (intArray : Option (List (BitVec 32)))
  | getStrings (stringArray : Option (List (Option Units)))
  | getMaybeStrings (stringArray : Option (List (Option Units)))
  | getBools (boolArray : Option (List Bool))
  | getBundle (bundleOut : Option BaseBundle)
  | getString (stringOut : Option Units)
  | setString (stringOut : Option Unit)
  | getInt (fdOut : Option (BitVec 32))
  | setInt (fdOut : Option Unit)

namespace ResultEvent

/-- The text in front of the result. That of `getBundle` is the one of `getBundles`. -/
def heading : ResultEvent → String
  | .getDevices _ => "getDevices returned "
  | .getDevicesError _ => "getDevices error: "
  | .getProperties _ => "getProperties returned "
  | .getPropertiesError _ => "getProperties error: "
  | .getBundles _ => "getBundles returned "
  | .getBundleMatrix _ => "getBundleMatrix returned "
  | .getIntArray _ => "getIntArray returned "
  | .getStrings _ => "getStrings returned "
  | .getMaybeStrings _ => "getMaybeStrings returned "
  | .getBools _ => "getBools returned "
  | .getBundle _ => "getBundles returned "
  | .getString _ => "getString returned "
  | .setString _ => "setString sent "
  | .getInt _ => "getInt returned "
  | .setInt _ => "setInt returned "

/-- The result, as it is printed. -/
def result : ResultEvent → Result
  | .getDevices bundleOut | .getBundles bundleOut => .array (bundleOut.map ofBundles)
  | .getDevicesError error | .getPropertiesError error => .text error
  | .getProperties bundleOut | .getBundle bundleOut => .bundle bundleOut
  | .getBundleMatrix bundleOut => .array (bundleOut.map fun rows => ofArrays (rows.map ofBundles))
  | .getIntArray intArray =>
    .array (intArray.map fun values => ofTexts (values.map fun value => numberText value.toInt))
  | .getStrings stringArray | .getMaybeStrings stringArray =>
    .array (stringArray.map fun values => ofTexts (values.map nullableText))
  | .getBools boolArray => .array (boolArray.map fun values => ofTexts (values.map booleanText))
  | .getString stringOut => .text (nullableText stringOut)
  | .setString stringOut => .text (unitText stringOut)
  | .getInt fdOut => .text (nullableText (fdOut.map fun value => numberText value.toInt))
  | .setInt fdOut => .text (unitText fdOut)

/-- The message. -/
def message (platform : Platform) (event : ResultEvent) : Units :=
  units event.heading ++ event.result.print platform

/-- Bundles can be read, the strings of arrays are lines that are empty or not blank, and other
texts are lines. -/
def Readable (platform : Platform) : ResultEvent → Prop
  | .getDevices bundleOut | .getBundles bundleOut =>
    ∀ bundles ∈ bundleOut, ∀ bundle ∈ bundles, BundleReadable platform bundle
  | .getDevicesError error | .getPropertiesError error => IsLine error
  | .getProperties bundleOut | .getBundle bundleOut => BundleReadable platform bundleOut
  | .getBundleMatrix bundleOut =>
    ∀ rows ∈ bundleOut, ∀ bundles ∈ rows, ∀ bundle ∈ bundles, BundleReadable platform bundle
  | .getStrings stringArray | .getMaybeStrings stringArray =>
    ∀ values ∈ stringArray, ∀ value ∈ values, ∀ text ∈ value, IsItem text
  | .getString stringOut => ∀ text ∈ stringOut, IsLine text
  | .getIntArray _ | .getBools _ | .setString _ | .getInt _ | .setInt _ => True

end ResultEvent

/-- A digit is not blank. -/
theorem isBlank_charUnits_digit {digit : Char} (h : digit.isDigit = true) :
    isBlank (charUnits digit) = false := by
  have hval : 48 ≤ digit.toNat ∧ digit.toNat ≤ 57 := by
    simp only [Char.isDigit, Bool.and_eq_true, decide_eq_true_eq] at h
    exact h
  have hdigits : ∀ n < 58, 48 ≤ n → isBlank [BitVec.ofNat 16 n] = false := by decide
  have hbasic : digit.toNat < 0x10000 := by omega
  rw [charUnits, if_pos hbasic]
  exact hdigits _ (Nat.lt_succ_of_le hval.2) hval.1

/-- A number is not blank. -/
theorem isFull_numberText (value : Int) : IsFull (numberText value) := by
  have hrepr : ∀ n : Nat, isBlank (units (Nat.repr n)) = false := by
    intro n
    obtain ⟨digit, digits, hdigits⟩ := List.exists_cons_of_ne_nil (@Nat.toDigits_ne_nil n 10)
    have hdigit : digit ∈ Nat.toDigits 10 n := hdigits ▸ List.mem_cons_self
    have hisDigit := Nat.isDigit_of_mem_toDigits (Nat.succ_pos 9) (Nat.le_refl 10) hdigit
    rw [units, Nat.toList_repr, hdigits, List.flatMap_cons, isBlank_append,
      isBlank_charUnits_digit hisDigit, Bool.false_and]
  refine ⟨(plain_numberText value).isLine, ?_⟩
  cases value with
  | ofNat n => exact hrepr n
  | negSucc n =>
    have hminus : numberText (Int.negSucc n) = units "-" ++ units (Nat.repr (n + 1)) := by
      change units ("-" ++ Nat.repr (n + 1)) = _
      unfold units
      rw [String.toList_append, List.flatMap_append]
    rw [hminus, isBlank_append, hrepr, Bool.and_false]

theorem isFull_booleanText (value : Bool) : IsFull (booleanText value) := by
  cases value <;> decide

theorem isFull_null : IsFull (units "null") := by decide

theorem itemsReadable_ofBundles {platform : Platform} {bundles : List (Option BaseBundle)}
    (h : ∀ bundle ∈ bundles, BundleReadable platform bundle) :
    ItemsReadable platform (ofBundles bundles) := by
  induction bundles with
  | nil => trivial
  | cons bundle bundles ih =>
    obtain ⟨hbundle, hbundles⟩ := List.forall_mem_cons.1 h
    cases bundle with
    | none => exact ⟨.inr isFull_null, ih hbundles⟩
    | some bundle => exact ⟨hbundle, ih hbundles⟩

theorem itemsReadable_ofTexts {platform : Platform} {elements : List Units}
    (h : ∀ element ∈ elements, IsItem element) : ItemsReadable platform (ofTexts elements) := by
  induction elements with
  | nil => trivial
  | cons element elements ih =>
    obtain ⟨helement, helements⟩ := List.forall_mem_cons.1 h
    exact ⟨helement, ih helements⟩

theorem itemsReadable_ofArrays {platform : Platform} {elements : List AnyArray}
    (h : ∀ element ∈ elements, ItemsReadable platform element) :
    ItemsReadable platform (ofArrays elements) := by
  induction elements with
  | nil => trivial
  | cons element elements ih =>
    obtain ⟨helement, helements⟩ := List.forall_mem_cons.1 h
    exact ⟨helement, ih helements⟩

theorem isLine_unitText (returned : Option Unit) : IsLine (unitText returned) := by
  refine nullableText_isLine fun text htext => ?_
  obtain ⟨-, -, rfl⟩ := Option.map_eq_some_iff.1 htext
  decide

/-- The results of calls whose texts can be read can be read. -/
theorem ResultEvent.Readable.result {platform : Platform} {event : ResultEvent}
    (h : event.Readable platform) : event.result.Readable platform := by
  cases event with
  | getDevices | getBundles =>
    rintro _ harray
    obtain ⟨bundles, hbundles, rfl⟩ := Option.map_eq_some_iff.1 harray
    exact itemsReadable_ofBundles (h bundles hbundles)
  | getBundleMatrix =>
    rintro _ harray
    obtain ⟨rows, hrows, rfl⟩ := Option.map_eq_some_iff.1 harray
    exact itemsReadable_ofArrays (List.forall_mem_map.2 fun bundles hbundles =>
      itemsReadable_ofBundles (h rows hrows bundles hbundles))
  | getDevicesError | getPropertiesError | getProperties | getBundle => exact h
  | getIntArray =>
    rintro _ harray
    obtain ⟨values, -, rfl⟩ := Option.map_eq_some_iff.1 harray
    exact itemsReadable_ofTexts (List.forall_mem_map.2 fun value _ =>
      .inr (isFull_numberText value.toInt))
  | getStrings | getMaybeStrings =>
    rintro _ harray
    obtain ⟨values, hvalues, rfl⟩ := Option.map_eq_some_iff.1 harray
    refine itemsReadable_ofTexts (List.forall_mem_map.2 fun value hvalue => ?_)
    cases value with
    | none => exact .inr isFull_null
    | some text => exact h values hvalues _ hvalue text rfl
  | getBools =>
    rintro _ harray
    obtain ⟨values, -, rfl⟩ := Option.map_eq_some_iff.1 harray
    exact itemsReadable_ofTexts (List.forall_mem_map.2 fun value _ =>
      .inr (isFull_booleanText value))
  | getString => exact nullableText_isLine h
  | setString stringOut => exact isLine_unitText stringOut
  | getInt fdOut =>
    refine nullableText_isLine fun text htext => ?_
    obtain ⟨value, -, rfl⟩ := Option.map_eq_some_iff.1 htext
    exact (plain_numberText value.toInt).isLine
  | setInt fdOut => exact isLine_unitText fdOut

/-! ## What is shown of a message -/

/-- The heading of a message, and what is in front of the texts on the lines below it. -/
structure Template where
  heading : Units
  labels : List Units
  deriving DecidableEq

/-- The template of `onDeviceAdded`. -/
def deviceTemplate : Template :=
  ⟨units "listener device added",
    [units "  ", units "    id: ", units "    ido: ", units "    path: "]⟩

/-- The template of `onDeepExample`. -/
def deepExampleTemplate : Template :=
  ⟨units "listener deep example",
    [units "  ", units "    other: ", units "      id: ", units "      example: ",
      units "    id: ", units "    example: "]⟩

/-- The template of `onParams`. -/
def paramsTemplate : Template := ⟨units "listener params", [units "  "]⟩

/-- The templates of `IPocFwupdListener` that have no array. -/
def templates : List Template := [deviceTemplate, deepExampleTemplate, paramsTemplate]

/-- The heading of `onBundles`. -/
def bundlesHeading : Units := units "listener bundles"

/-- The headings of the messages of `IFwupdEventListener` that have a bundle. -/
def listenerHeadings : List Units :=
  [units "device added", units "device removed", units "device changed", units "device request",
    units "properties changed"]

/-- What is in front of a bundle that is returned. -/
def bundleHeadings : List Units := [units "getProperties returned ", units "getBundles returned "]

/-- What is shown of a message: a text, maybe with a bundle below it, an array or a bundle behind a
heading, the texts in a template, or the count, the array and the status of `onBundles`. -/
inductive ShownMessage where
  | record (r : Record)
  | array (heading : Units) (items : ShownItems)
  | bundle (heading : Units) (shown : Units × ShownEntries)
  | labelled (template : Template) (values : List Units)
  | bundles (items : ShownItems)

namespace ShownMessage

/-- The lines of a message. -/
def lines : ShownMessage → List Units
  | .record r => r.lines
  | .array heading items => (heading ++ units "[") :: items.tailLines
  | .bundle heading shown =>
    (heading ++ (shownLines (some shown)).1) :: (shownLines (some shown)).2
  | .labelled template values => template.heading :: List.zipWith (· ++ ·) template.labels values
  | .bundles items => bundlesHeading :: items.lines.map (units "  " ++ ·)

/-- Every text is a line, and the headings are known where they are not told from what follows. -/
def Readable : ShownMessage → Prop
  | .record r => r.Readable ∧ (r.bundle ≠ none → r.heading ∈ listenerHeadings)
  | .array heading items => IsLine heading ∧ items.Readable
  | .bundle heading shown => heading ∈ bundleHeadings ∧ ShownReadable (some shown)
  | .labelled template values =>
    template ∈ templates ∧ values.length = template.labels.length ∧
      ∀ line ∈ List.zipWith (· ++ ·) template.labels values, IsFull line
  | .bundles items => items ≠ .nil ∧ items.Readable

end ShownMessage

/-- Reads the lines of a message of more than one line. What kind it is of is said by the last
character of its first line, or by its heading. -/
def readBelow (line : Units) (rest : List Units) : Option ShownMessage :=
  if line.getLast? = some 0x5B then
    let inner := block (units "  ") rest
    (readItems (inner.1.length + 1) inner.1).map (.array line.dropLast)
  else if line.getLast? = some 0x20 then
    (bundleHeadings.find? (· <+: line)).bind fun heading =>
      (readBundle (line.drop heading.length :: rest)).bind fun bundle =>
        bundle.map (.bundle heading)
  else if line = bundlesHeading then
    (readItems (rest.length + 1) (rest.map (List.drop 2))).map .bundles
  else
    match templates.find? (·.heading = line) with
    | some template =>
      some (.labelled template
        (List.zipWith (fun label line => line.drop label.length) template.labels rest))
    | none => (readRecord (line :: rest)).map .record

/-- Reads the lines of a message. -/
def readMessage : List Units → Option ShownMessage
  | [] => none
  | [line] => some (.record ⟨line, none⟩)
  | line :: rest => readBelow line rest

/-- Reads a paragraph, which is one message. -/
def readParagraph (paragraph : List Units) : Option (List ShownMessage) :=
  (readMessage paragraph).map fun message => [message]

/-- Reads a log. -/
def readMessages (logText : Units) : Option (List ShownMessage) :=
  readAll readParagraph (paragraphs logText)

/-! ## Reading a message -/

theorem ShownMessage.lines_ne_nil (message : ShownMessage) : message.lines ≠ [] := by
  cases message with
  | record r => exact r.lines_ne_nil
  | array | bundle | labelled | bundles => exact List.cons_ne_nil _ _

/-- The headings that are known are lines that are not blank, and do not end like those of arrays
and bundles. -/
theorem isFull_headings : ∀ heading ∈ bundlesHeading :: (templates.map Template.heading ++
    (listenerHeadings ++ bundleHeadings)), IsFull heading := by
  decide +kernel

/-- The lines of a message are lines, and none is blank. -/
theorem ShownMessage.Readable.isFull {message : ShownMessage} (h : message.Readable) :
    ∀ line ∈ message.lines, IsFull line := by
  cases message with
  | record r => exact h.1.isFull
  | array heading items =>
    exact List.forall_mem_cons.2
      ⟨h.1.append_isFull (by decide), ShownItems.isFull_tailLines h.2⟩
  | bundle heading shown =>
    obtain ⟨hfirst, hothers⟩ := isFull_shownLines h.2
    have hheading := isFull_headings heading (by simp [h.1])
    exact List.forall_mem_cons.2 ⟨hheading.1.append_isFull hfirst, hothers⟩
  | labelled template values =>
    have hheading := isFull_headings template.heading (by simp [List.mem_map_of_mem h.1])
    exact List.forall_mem_cons.2 ⟨hheading, h.2.2⟩
  | bundles items =>
    refine List.forall_mem_cons.2 ⟨isFull_headings bundlesHeading List.mem_cons_self, ?_⟩
    rw [List.forall_mem_map]
    exact fun line hline => isLine_indent.append_isFull (ShownItems.isFull_lines h.2 line hline)

theorem readMessage_cons {line : Units} {rest : List Units} (h : rest ≠ []) :
    readMessage (line :: rest) = readBelow line rest := by
  cases rest with
  | nil => exact absurd rfl h
  | cons second rest => rfl

/-- The headings of the listeners do not end like the first lines of arrays and bundles. -/
theorem getLast?_headings :
    ∀ heading ∈ bundlesHeading :: (templates.map Template.heading ++ listenerHeadings),
      heading.getLast? ≠ some 0x5B ∧ heading.getLast? ≠ some 0x20 := by
  decide +kernel

/-- The templates are told apart by their headings, and from the other messages of listeners. -/
theorem find?_templates :
    (∀ template ∈ templates, template.heading ≠ bundlesHeading ∧ template.labels ≠ [] ∧
      templates.find? (·.heading = template.heading) = some template) ∧
    ∀ heading ∈ listenerHeadings, heading ≠ bundlesHeading ∧
      templates.find? (·.heading = heading) = none := by
  decide +kernel

/-- What is in front of a bundle is told from the bundle. -/
theorem find?_bundleHeadings {heading : Units} (h : heading ∈ bundleHeadings) (text : Units) :
    bundleHeadings.find? (· <+: heading ++ text) = some heading := by
  have hstarts : ∀ first ∈ bundleHeadings, ∀ second ∈ bundleHeadings,
      4 ≤ first.length ∧ (first.take 4 = second.take 4 → first = second) := by
    decide +kernel
  have hunique : ∀ other ∈ bundleHeadings, other <+: heading ++ text → other = heading := by
    intro other hother hprefix
    obtain ⟨hlength, hsame⟩ := hstarts other hother heading h
    have hheading := (hstarts heading h other hother).1
    obtain ⟨rest, hrest⟩ := hprefix
    have htake := congrArg (List.take 4) hrest
    rw [List.take_append_of_le_length hlength, List.take_append_of_le_length hheading] at htake
    exact hsame htake
  have hfound : (bundleHeadings.find? (· <+: heading ++ text)).isSome :=
    List.find?_isSome.2 ⟨heading, h, decide_eq_true (List.prefix_append _ _)⟩
  obtain ⟨other, hother⟩ := Option.isSome_iff_exists.1 hfound
  have hprefix := List.find?_some hother
  rw [hother, hunique other (List.mem_of_find?_eq_some hother) (of_decide_eq_true hprefix)]

/-- The labels are cut off. -/
theorem zipWith_drop_labels : ∀ {labels values : List Units}, values.length = labels.length →
    List.zipWith (fun label line => line.drop label.length) labels
      (List.zipWith (· ++ ·) labels values) = values
  | [], [], _ => rfl
  | label :: labels, value :: values, h => by
    rw [List.zipWith_cons_cons, List.zipWith_cons_cons, List.drop_left,
      zipWith_drop_labels (Nat.succ.inj h)]

/-- **The lines of a message are read.** -/
theorem readMessage_lines {message : ShownMessage} (h : message.Readable) :
    readMessage message.lines = some message := by
  cases message with
  | record r =>
    obtain ⟨hread, hheading⟩ := h
    have hrecord := readRecord_lines hread
    obtain ⟨heading, bundle⟩ := r
    cases bundle with
    | none => rfl
    | some bundle =>
      have hmem := hheading (Option.some_ne_none bundle)
      obtain ⟨harray, hbundle⟩ := getLast?_headings heading (by simp [hmem])
      obtain ⟨hbundles, hfind⟩ := find?_templates.2 heading hmem
      have hlines : ShownMessage.lines (.record ⟨heading, some bundle⟩) =
          heading :: ((units "  " ++ (shownLines bundle).1) :: (shownLines bundle).2) := rfl
      have hbelow : Record.lines ⟨heading, some bundle⟩ =
          heading :: ((units "  " ++ (shownLines bundle).1) :: (shownLines bundle).2) := rfl
      rw [hlines, readMessage_cons (List.cons_ne_nil _ _), readBelow, if_neg harray,
        if_neg hbundle, if_neg hbundles, hfind, ← hbelow, hrecord]
      rfl
  | array heading items =>
    have hlast : (heading ++ units "[").getLast? = some 0x5B := List.getLast?_concat
    have hheading : (heading ++ units "[").dropLast = heading := List.dropLast_concat
    have hrest : items.tailLines ≠ [] := List.append_ne_nil_of_right_ne_nil _ (List.cons_ne_nil _ _)
    have hclose : ¬ units "  " <+: units "]" := by decide
    have hinner := (block_between hclose items.lines []).1
    rw [List.append_nil] at hinner
    rw [ShownMessage.lines, readMessage_cons hrest, readBelow, if_pos hlast, hheading,
      ShownItems.tailLines]
    dsimp only
    rw [hinner, readItems_lines h.2 (Nat.lt_succ_self _)]
    rfl
  | bundle heading shown =>
    obtain ⟨title, entries⟩ := shown
    have hlast : (heading ++ (title ++ units ":\x7b  ")).getLast? = some 0x20 := by
      rw [← List.append_assoc]
      exact List.getLast?_append_of_ne_nil _ (List.cons_ne_nil _ _)
    have hrest : entries.lines.map (units "  " ++ ·) ++ [units "\x7d"] ≠ [] :=
      List.append_ne_nil_of_right_ne_nil _ (List.cons_ne_nil _ _)
    have hread := readBundle_shownLines h.2
    rw [ShownMessage.lines]
    unfold shownLines at hread ⊢
    rw [readMessage_cons hrest, readBelow, hlast, if_neg (by decide), if_pos rfl,
      find?_bundleHeadings h.1, Option.bind_some, List.drop_left, hread]
    rfl
  | labelled template values =>
    obtain ⟨htemplate, hlength, -⟩ := h
    obtain ⟨hbundles, hlabels, hfind⟩ := find?_templates.1 template htemplate
    obtain ⟨harray, hbundle⟩ := getLast?_headings template.heading
      (by simp [List.mem_map_of_mem htemplate])
    have hrest : List.zipWith (· ++ ·) template.labels values ≠ [] := by
      intro hnil
      rcases List.zipWith_eq_nil_iff.1 hnil with hnone | rfl
      · exact hlabels hnone
      · exact hlabels (List.length_eq_zero_iff.1 hlength.symm)
    rw [ShownMessage.lines, readMessage_cons hrest, readBelow, if_neg harray, if_neg hbundle,
      if_neg hbundles, hfind]
    dsimp only
    rw [zipWith_drop_labels hlength]
  | bundles items =>
    obtain ⟨harray, hbundle⟩ := getLast?_headings bundlesHeading List.mem_cons_self
    have hrest : items.lines.map (units "  " ++ ·) ≠ [] := by
      cases items with
      | nil => exact absurd rfl h.1
      | text | bundle | array => exact List.cons_ne_nil _ _
    have hinner : (items.lines.map (units "  " ++ ·)).map (List.drop 2) = items.lines := by
      rw [List.map_map]
      exact (List.map_congr_left fun line _ => rfl).trans (List.map_id _)
    have hread := readItems_lines h.2 (Nat.lt_succ_self _)
    rw [ShownMessage.lines, readMessage_cons hrest, readBelow, if_neg harray, if_neg hbundle,
      if_pos rfl, hinner, List.length_map, hread]
    rfl

/-! ## What the messages show -/

/-- What is shown of a result behind its heading. -/
def Result.shown (platform : Platform) (heading : Units) : Result → ShownMessage
  | .bundle (some it) => .bundle heading (platform.bundleToString it, shownEntries platform it)
  | .array (some it) => .array heading (shownItems platform it)
  | result => .record ⟨heading ++ result.print platform, none⟩

/-- The heading is at the start of the first line. -/
theorem Result.shown_lines (platform : Platform) (heading : Units) (result : Result) :
    ∃ text rest, (result.shown platform heading).lines = (heading ++ text) :: rest := by
  cases result with
  | text value => exact ⟨_, _, rfl⟩
  | bundle value => cases value <;> exact ⟨_, _, rfl⟩
  | array value => cases value <;> exact ⟨_, _, rfl⟩

/-- A message of one line can be read. -/
theorem readable_record {line : Units} (h : IsFull line) :
    (ShownMessage.record ⟨line, none⟩).Readable :=
  ⟨⟨h, fun _ hb => nomatch hb⟩, fun hnone => absurd rfl hnone⟩

/-- What is logged of a result is the lines of what is shown of it, which can be read. -/
theorem Result.print_eq_lines {platform : Platform} {heading : Units} {result : Result}
    (hheading : IsFull heading) (h : result.Readable platform)
    (hbundle : ∀ bundle, result = .bundle (some bundle) → heading ∈ bundleHeadings) :
    heading ++ result.print platform = joinLines (result.shown platform heading).lines ∧
      (result.shown platform heading).Readable := by
  have hline : ∀ text : Units, IsLine text →
      heading ++ text = joinLines (ShownMessage.lines (.record ⟨heading ++ text, none⟩)) ∧
        (ShownMessage.record ⟨heading ++ text, none⟩).Readable := by
    intro text htext
    exact ⟨(List.append_nil _).symm, readable_record (hheading.append htext)⟩
  cases result with
  | text value => exact hline value h
  | bundle value =>
    cases value with
    | none => exact hline _ plain_nullBundle.isLine
    | some bundle =>
      refine ⟨?_, hbundle bundle rfl, shownBundle_readable h⟩
      rw [Result.print, printBundle_eq_lines h, joinLines, ← List.append_assoc]
      rfl
  | array value =>
    cases value with
    | none => exact hline _ plain_nullBundle.isLine
    | some array =>
      have harray := h array rfl
      refine ⟨?_, hheading.1, shownItems_readable harray⟩
      rw [Result.print, printArray_eq_lines harray, joinLines, ← List.append_assoc]
      rfl

/-- What a call returned, as it is shown. -/
def ResultEvent.shown (platform : Platform) (event : ResultEvent) : ShownMessage :=
  event.result.shown platform (units event.heading)

theorem ResultEvent.message_eq_lines {platform : Platform} {event : ResultEvent}
    (h : event.Readable platform) :
    event.message platform = joinLines (event.shown platform).lines ∧
      (event.shown platform).Readable := by
  have hheadings : ∀ heading ∈ ["getDevices returned ", "getDevices error: ",
      "getProperties returned ", "getProperties error: ", "getBundles returned ",
      "getBundleMatrix returned ", "getIntArray returned ", "getStrings returned ",
      "getMaybeStrings returned ", "getBools returned ", "getString returned ", "setString sent ",
      "getInt returned ", "setInt returned "], IsFull (units heading) := by
    decide +kernel
  refine Result.print_eq_lines (hheadings _ ?_) h.result fun bundle hbundle => ?_
  · cases event <;> simp [ResultEvent.heading]
  · cases event with
    | getProperties => exact List.mem_cons_self
    | getBundle => exact List.mem_cons_of_mem _ List.mem_cons_self
    | _ => nomatch hbundle

/-- What is shown of an array that may be null, in front of other elements. -/
def shownArray (platform : Platform) (rest : ShownItems) :
    Option (List (Option BaseBundle)) → ShownItems
  | none => .text (units "(null)") rest
  | some array => .array (shownItems platform (ofBundles array)) rest

namespace PocCallback

/-- What is shown of a callback. -/
def shown (platform : Platform) (texts : ObjectTexts) : PocCallback → ShownMessage
  | .onChanged => .record ⟨units "listener changed", none⟩
  | .onDeviceAdded device =>
    .labelled deviceTemplate [texts.device, numberText device.id.toInt,
      numberText device.ido.toInt, nullableText device.path]
  | .onDeepExample de =>
    .labelled deepExampleTemplate [texts.deepExample,
      nullableText (de.other.map fun _ => texts.otherExample),
      nullableText (de.other.map fun other => numberText other.id.toInt),
      nullableText (de.other.bind fun other => other.example'),
      numberText de.id.toInt, nullableText de.example']
  | .onParams int_param double_param string_param bool_param =>
    .labelled paramsTemplate [numberText int_param.toInt ++ (units ", " ++
      (platform.doubleToString double_param ++ (units ", " ++
        (nullableText string_param ++ (units ", " ++ booleanText bool_param)))))]
  | .onBundles count bundles status =>
    .bundles (.text (numberText count.toInt)
      (shownArray platform (.text (nullableText status) .nil) bundles))

/-- The texts of a call are lines, the first ones of objects not blank, and the bundles can be read
and have nothing marked in them. -/
def Readable (platform : Platform) (texts : ObjectTexts) : PocCallback → Prop
  | .onChanged => True
  | .onDeviceAdded device => IsFull texts.device ∧ ∀ path ∈ device.path, IsLine path
  | .onDeepExample de =>
    IsFull texts.deepExample ∧
      (∀ other ∈ de.other, IsLine texts.otherExample ∧ ∀ text ∈ other.example', IsLine text) ∧
      ∀ text ∈ de.example', IsLine text
  | .onParams _ _ string_param _ => ∀ text ∈ string_param, IsLine text
  | .onBundles _ bundles status =>
    (∀ array ∈ bundles, ∀ bundle ∈ array, BundleReadable platform bundle) ∧
      BundlesUnmarked platform bundles ∧ ∀ text ∈ status, IsLine text

variable {platform : Platform} {texts : ObjectTexts} {callback : PocCallback}

/-- Lines are not marked where they are put into the template. -/
theorem Readable.unmarked (h : callback.Readable platform texts) :
    callback.Unmarked platform texts := by
  cases callback with
  | onChanged => trivial
  | onDeviceAdded device => exact ⟨h.1.1.stays, fun path hpath => (h.2 path hpath).stays⟩
  | onDeepExample de =>
    obtain ⟨hde, hother, hexample⟩ := h
    refine ⟨hde.1.stays, fun other hmem => ?_, fun text htext => (hexample text htext).stays⟩
    exact ⟨(hother other hmem).1.stays, fun text htext => ((hother other hmem).2 text htext).stays⟩
  | onParams int_param double_param string_param bool_param =>
    exact fun text htext => IsLine.stays (h text htext)
  | onBundles count bundles status =>
    exact ⟨h.2.1, fun text htext => (h.2.2 text htext).stays⟩

/-- What is shown of a callback can be read. -/
theorem Readable.shown (h : callback.Readable platform texts) :
    (callback.shown platform texts).Readable := by
  have hnullable : ∀ text : Option Units, (∀ t ∈ text, IsLine t) → IsLine (nullableText text) :=
    fun _ => nullableText_isLine
  have hnumber : ∀ value : Int, IsLine (numberText value) := fun value =>
    (plain_numberText value).isLine
  cases callback with
  | onChanged => exact readable_record (by decide)
  | onDeviceAdded device =>
    refine ⟨by simp [templates], rfl, ?_⟩
    simp only [deviceTemplate, List.zipWith_cons_cons, List.zipWith_nil_left, List.forall_mem_cons]
    have hid : IsFull (units "    id: ") := by decide
    have hido : IsFull (units "    ido: ") := by decide
    have hpath : IsFull (units "    path: ") := by decide
    exact ⟨isLine_indent.append_isFull h.1, hid.append (hnumber _), hido.append (hnumber _),
      hpath.append (hnullable _ h.2), fun line hline => nomatch hline⟩
  | onDeepExample de =>
    obtain ⟨hde, hother, hexample⟩ := h
    refine ⟨by simp [templates], rfl, ?_⟩
    simp only [deepExampleTemplate, List.zipWith_cons_cons, List.zipWith_nil_left,
      List.forall_mem_cons]
    have hlabels : ∀ label ∈ ["    other: ", "      id: ", "      example: ", "    id: ",
        "    example: "], IsFull (units label) := by
      decide +kernel
    refine ⟨isLine_indent.append_isFull hde,
      IsFull.append (hlabels _ (by simp)) (hnullable _ fun t ht => ?_),
      IsFull.append (hlabels _ (by simp)) (hnullable _ fun t ht => ?_),
      IsFull.append (hlabels _ (by simp)) (hnullable _ fun t ht => ?_),
      IsFull.append (hlabels _ (by simp)) (hnumber _),
      IsFull.append (hlabels _ (by simp)) (hnullable _ hexample), fun line hline => nomatch hline⟩
    · obtain ⟨other, hmem, rfl⟩ := Option.map_eq_some_iff.1 ht
      exact (hother other hmem).1
    · obtain ⟨other, -, rfl⟩ := Option.map_eq_some_iff.1 ht
      exact hnumber _
    · obtain ⟨other, hmem, ht⟩ := Option.bind_eq_some_iff.1 ht
      exact (hother other hmem).2 t ht
  | onParams int_param double_param string_param bool_param =>
    refine ⟨by simp [templates], rfl, ?_⟩
    have hseparator : IsLine (units ", ") := by decide
    have hdouble : IsLine (platform.doubleToString double_param) :=
      Plain.isLine (platform.doubleToString_plain double_param)
    have hbool : IsLine (booleanText bool_param) := (plain_booleanText bool_param).isLine
    exact List.forall_mem_singleton.2 (isLine_indent.append_isFull
      ((isFull_numberText _).append (hseparator.append (hdouble.append (hseparator.append
        ((hnullable _ h).append (hseparator.append hbool)))))))
  | onBundles count bundles status =>
    obtain ⟨hbundles, -, hstatus⟩ := h
    refine ⟨fun hnil => ShownItems.noConfusion hnil, hnumber _, ?_⟩
    cases bundles with
    | none => exact ⟨plain_nullBundle.isLine, hnullable _ hstatus, trivial⟩
    | some array =>
      exact ⟨shownItems_readable (itemsReadable_ofBundles (hbundles array rfl)),
        hnullable _ hstatus, trivial⟩

/-- The indented array in the template of `onBundles`. -/
theorem printArray_part {bundles : Option (List (Option BaseBundle))}
    (h : ∀ array ∈ bundles, ∀ bundle ∈ array, BundleReadable platform bundle) (rest : ShownItems) :
    lf :: (prependIndent (units "  ") (printArray platform (bundles.map ofBundles)) ++
        units ",") ++ (rest.lines.map (units "  " ++ ·)).flatMap (lf :: ·) =
      ((shownArray platform rest bundles).lines.map (units "  " ++ ·)).flatMap (lf :: ·) := by
  cases bundles with
  | none => rfl
  | some array =>
    have hitems := itemsReadable_ofBundles (h array rfl)
    have hfull : ∀ line ∈ (units "[" :: between (shownItems platform (ofBundles array)).lines) ++
        [units "]"], IsFull line :=
      List.forall_mem_cons.2 ⟨by decide, ShownItems.isFull_tailLines (shownItems_readable hitems)⟩
    have hlines : (shownArray platform rest (some array)).lines =
        (units "[" :: between (shownItems platform (ofBundles array)).lines) ++
          [units "]" ++ units ","] ++ rest.lines := rfl
    rw [Option.map_some, printArray_eq_lines hitems, hlines, List.map_append, List.flatMap_append,
      ← element_eq_lines hfull]
    rfl

/-- What a callback logs is the lines of what is shown of it. -/
theorem message_eq_lines (h : callback.Readable platform texts) :
    callback.message platform texts = joinLines (callback.shown platform texts).lines := by
  have hparts : joinLines (parts platform texts callback) =
      joinLines (callback.shown platform texts).lines := by
    cases callback with
    | onChanged | onDeviceAdded | onDeepExample => rfl
    | onParams int_param double_param string_param bool_param =>
      unfold parts
      simp only [List.append_assoc]
      rfl
    | onBundles count bundles status =>
      have harray := printArray_part h.1 (.text (nullableText status) .nil)
      rw [shown, ShownMessage.lines, ShownItems.lines, List.map_cons, joinLines, List.flatMap_cons,
        ← harray, parts, joinLines]
      simp only [ShownItems.lines, List.flatMap_cons, List.flatMap_nil, List.map_cons,
        List.map_nil, List.append_assoc, List.append_nil, List.cons_append]
      rfl
  rw [← hparts]
  cases callback with
  | onChanged => exact (List.append_nil _).symm
  | onDeviceAdded | onDeepExample | onParams | onBundles =>
    exact (trimMargin_rawTemplate_eq_iff (isBlank_spaces 20) (isLine_spaces 20)).2
      ((stays_parts_iff platform texts _).2 h.unmarked)

end PocCallback

/-! ## The log -/

/-- What `MainActivity` logs: what the listeners are called with, what calls return, and other texts
of one line. -/
inductive LogEvent where
  | text (message : Units)
  | fwupd (callback : FwupdCallback)
  | poc (texts : ObjectTexts) (callback : PocCallback)
  | result (event : ResultEvent)

namespace LogEvent

variable (platform : Platform)

/-- The messages that are logged. -/
def messages : LogEvent → List Units
  | .text message => [message]
  | .fwupd callback => callback.messages platform
  | .poc texts callback => [callback.message platform texts]
  | .result event => [event.message platform]

/-- What is shown of the messages. -/
def shown : LogEvent → List ShownMessage
  | .text message => [.record ⟨message, none⟩]
  | .fwupd callback => (callback.records platform).map .record
  | .poc texts callback => [callback.shown platform texts]
  | .result event => [event.shown platform]

/-- The texts are lines, and nothing is marked that is put into a template. -/
def Readable : LogEvent → Prop
  | .text message => IsFull message
  | .fwupd callback =>
    BundleReadable platform callback.printed ∧ BundleUnmarked platform callback.printed
  | .poc texts callback => callback.Readable platform texts
  | .result event => event.Readable platform

end LogEvent

/-- A message of `IFwupdEventListener` has one of the known headings if it has a bundle. -/
theorem FwupdCallback.heading_mem {platform : Platform} {callback : FwupdCallback} {r : Record}
    (hr : r ∈ callback.records platform) (hbundle : r.bundle ≠ none) :
    r.heading ∈ listenerHeadings := by
  cases callback with
  | onChanged =>
    rw [List.mem_singleton.1 hr] at hbundle
    exact absurd rfl hbundle
  | onDeviceAdded | onDeviceRemoved | onDeviceChanged | onDeviceRequest =>
    rw [List.mem_singleton.1 hr]
    simp [bundleRecord, listenerHeadings]
  | onPropertiesChanged properties =>
    cases properties with
    | none => exact absurd hr List.not_mem_nil
    | some properties =>
      rcases List.mem_append.1 hr with hknown | hother
      · obtain ⟨line, -, rfl⟩ := List.mem_map.1 hknown
        exact absurd rfl hbundle
      · split at hother
        · exact absurd hother List.not_mem_nil
        · rw [List.mem_singleton.1 hother]
          simp [bundleRecord, listenerHeadings]

/-- What is logged is the lines of what is shown, which can be read. -/
theorem LogEvent.messages_eq_lines {platform : Platform} {event : LogEvent}
    (h : event.Readable platform) :
    event.messages platform = (event.shown platform).map (fun m => joinLines m.lines) ∧
      ∀ m ∈ event.shown platform, m.Readable := by
  cases event with
  | text message =>
    exact ⟨congrArg (fun m => [m]) (List.append_nil _).symm,
      List.forall_mem_singleton.2 (readable_record h)⟩
  | fwupd callback =>
    obtain ⟨hmessages, hrecords⟩ := FwupdCallback.messages_eq h.1 h.2
    refine ⟨?_, List.forall_mem_map.2 fun r hr => ⟨hrecords r hr, FwupdCallback.heading_mem hr⟩⟩
    rw [LogEvent.messages, hmessages, LogEvent.shown, List.map_map]
    rfl
  | poc texts callback =>
    exact ⟨congrArg (fun m => [m]) (PocCallback.message_eq_lines h),
      List.forall_mem_singleton.2 (PocCallback.Readable.shown h)⟩
  | result event =>
    obtain ⟨hmessage, hread⟩ := ResultEvent.message_eq_lines h
    exact ⟨congrArg (fun m => [m]) hmessage, List.forall_mem_singleton.2 hread⟩

/-- Messages that can be read are paragraphs. -/
theorem paragraphs_of_readable {shown : List ShownMessage} (h : ∀ m ∈ shown, m.Readable) :
    List.Forall₂ Paragraph (shown.map fun m => joinLines m.lines)
      (shown.map ShownMessage.lines) := by
  induction shown with
  | nil => exact .nil
  | cons m shown ih =>
    obtain ⟨hm, hshown⟩ := List.forall_mem_cons.1 h
    refine .cons ⟨rfl, fun line hline => ?_, m.lines_ne_nil⟩ (ih hshown)
    exact ⟨(hm.isFull line hline).1, (hm.isFull line hline).ne_nil⟩

/-- Messages that can be read are read. -/
theorem readAll_of_readable {shown : List ShownMessage} (h : ∀ m ∈ shown, m.Readable) :
    readAll readParagraph (shown.map ShownMessage.lines) = some shown := by
  induction shown with
  | nil => rfl
  | cons m shown ih =>
    obtain ⟨hm, hshown⟩ := List.forall_mem_cons.1 h
    rw [List.map_cons, readAll, readParagraph, readMessage_lines hm, ih hshown]
    rfl

/-- The messages of an event are paragraphs, the last one first. -/
theorem LogEvent.Readable.paragraphs {platform : Platform} {event : LogEvent}
    (h : event.Readable platform) :
    List.Forall₂ Paragraph (event.messages platform).reverse
      ((event.shown platform).reverse.map ShownMessage.lines) := by
  obtain ⟨hmessages, hreadable⟩ := LogEvent.messages_eq_lines h
  rw [hmessages, ← List.map_reverse]
  exact paragraphs_of_readable fun m hm => hreadable m (List.mem_reverse.1 hm)

/-- These paragraphs are read. -/
theorem LogEvent.Readable.readAll {platform : Platform} {event : LogEvent}
    (h : event.Readable platform) :
    readAll readParagraph ((event.shown platform).reverse.map ShownMessage.lines) =
      some (event.shown platform).reverse :=
  readAll_of_readable fun m hm => (LogEvent.messages_eq_lines h).2 m (List.mem_reverse.1 hm)

/-- **From the log of `MainActivity` one can read, in their order, what all messages show: the
bundles and arrays that calls returned and that the listeners were called with, with their keys and
their values as they are printed, at every depth, the fields of parcelables as they are printed, and
the other texts, if the texts are lines that are not marked where they are put into a template, keys
have no `": "`, and elements of arrays are not blank unless they are empty.** -/
theorem readMessages_logOf {platform : Platform} {events : List LogEvent}
    (h : ∀ event ∈ events, event.Readable platform) :
    readMessages (logOf (events.flatMap (LogEvent.messages platform))) =
      some (events.flatMap (LogEvent.shown platform)).reverse := by
  rw [readMessages, logOf_flatMap]
  exact readAll_events fun event hevent =>
    readAs_of_paragraphs (h event hevent).paragraphs (h event hevent).readAll

/-- A release that is signed. -/
def dockRelease : BaseBundle := .entry (some (units "Signed")) (.boolean true) .empty

/-- A device with a release and two identifiers. -/
def dockDevice : BaseBundle :=
  .entry (some (units "Name")) (.string (units "Dock"))
    (.entry (some (units "Release")) (.bundle dockRelease)
      (.entry (some (units "Guid")) (.stringArray [some (units "a"), none]) .empty))

/-- The device can be read, and nothing in it is marked. -/
theorem dockDevice_readable :
    BundleReadable androidPlatform (some dockDevice) ∧
      BundleUnmarked androidPlatform (some dockDevice) := by
  have hkey : ∀ text ∈ ["Name", "Release", "Signed", "Guid"], ∀ t ∈ some (units text),
      IsKey t ∧ AllUnmarked t := by
    have hkeys : ∀ text ∈ ["Name", "Release", "Signed", "Guid"],
        IsKey (units text) ∧ ∀ line ∈ lines (units text), ¬ Marked line := by
      decide +kernel
    rintro text htext _ ⟨⟩
    exact hkeys text htext
  have htitle : ∀ bundle ∈ [dockDevice, dockRelease],
      IsLine (androidPlatform.bundleToString bundle) ∧
        ∀ line ∈ (splitLines (androidPlatform.bundleToString bundle)).2, ¬ Marked line := by
    decide +kernel
  have hdevice := htitle dockDevice (by simp)
  have hrelease := htitle dockRelease (by simp)
  have hguid : ∀ value ∈ [some (units "a"), none], ∀ text ∈ value,
      IsLine text ∧ ∀ line ∈ lines text, ¬ Marked line := by
    decide +kernel
  have hname : IsLine (units "Dock") := by decide
  refine ⟨?_, ?_⟩
  · rintro _ ⟨⟩
    refine ⟨hdevice.1, fun t ht => (hkey "Name" (by simp) t ht).1, hname, ?_, ?_⟩
    · exact fun t ht => (hkey "Release" (by simp) t ht).1
    · refine ⟨⟨hrelease.1, fun t ht => (hkey "Signed" (by simp) t ht).1, trivial, trivial⟩, ?_⟩
      exact ⟨fun t ht => (hkey "Guid" (by simp) t ht).1, fun value hvalue text htext =>
        (hguid value hvalue text htext).1, trivial⟩
  · rintro _ ⟨⟩
    refine ⟨⟨hdevice.1.2, hdevice.2⟩, fun t ht => (hkey "Name" (by simp) t ht).2, ?_, ?_, ?_⟩
    · exact fun line hline => nomatch hline
    · exact fun t ht => (hkey "Release" (by simp) t ht).2
    · refine ⟨⟨hrelease.2, fun t ht => (hkey "Signed" (by simp) t ht).2, trivial, trivial⟩, ?_⟩
      exact ⟨fun t ht => (hkey "Guid" (by simp) t ht).2, fun value hvalue text htext =>
        (hguid value hvalue text htext).2, trivial⟩

/-- The listener is registered and called with a device, and the devices are listed. -/
def dockEvents : List LogEvent :=
  [.text (units "register listener"), .fwupd (.onDeviceAdded (some dockDevice)),
    .poc ⟨units "Device@1", units "DeepExample@1", units "OtherExample@1"⟩
      (.onBundles 0 (some []) none),
    .result (.getDevices (some [some dockDevice, none]))]

theorem readMessages_logOf_dock :
    readMessages (logOf (dockEvents.flatMap (LogEvent.messages androidPlatform))) =
      some (dockEvents.flatMap (LogEvent.shown androidPlatform)).reverse := by
  have hnull : BundleReadable androidPlatform none := fun b hb => nomatch hb
  have hregister : IsFull (units "register listener") := by decide
  refine readMessages_logOf (List.forall_mem_cons.2 ⟨hregister, List.forall_mem_cons.2
    ⟨dockDevice_readable, List.forall_mem_cons.2 ⟨?_, List.forall_mem_singleton.2 ?_⟩⟩⟩)
  · refine ⟨?_, ?_, fun text htext => nomatch htext⟩
    · rintro _ ⟨⟩ bundle hbundle
      nomatch hbundle
    · rintro _ ⟨⟩ bundle hbundle
      nomatch hbundle
  · rintro _ ⟨⟩
    exact List.forall_mem_cons.2 ⟨dockDevice_readable.1, List.forall_mem_singleton.2 hnull⟩

end FwupdPoc.MainActivity

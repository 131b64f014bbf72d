import FwupdPoc.Lib.Blocks
import FwupdPoc.MainActivity.Intact

/-!
# What can be read of a bundle

`printBundle` shows a bundle by indentation: a line for each entry that is not an array or a bundle,
and for these a header, the indented lines of what is in them, and a closing bracket. The reader
`readEntries` goes the other way. It is right for bundles whose keys and strings are lines and whose
keys have no `": "` (`readEntries_lines`, by recursion on what is shown): what is printed for such a
bundle is then a list of lines (`printEntries_eq_lines`) that are told apart by their last
characters. So are the messages with a bundle that the listener of the daemon logs
(`FwupdCallback.messages_eq`).
-/

namespace FwupdPoc.MainActivity

open Utf16 KotlinText

/-! ## What is shown -/

mutual

/-- What is shown of a value: a text, the texts of the elements of an array, or the `toString` of a
bundle and its entries. -/
inductive ShownValue where
  | text (value : Units)
  | array (elements : List Units)
  | bundle (title : Units) (entries : ShownEntries)

/-- What is shown of the entries of a bundle. -/
inductive ShownEntries where
  | nil
  | cons (key : Units) (value : ShownValue) (rest : ShownEntries)

end

mutual

/-- What is shown of a value. -/
def shownValue (platform : Platform) : Value → ShownValue
  | .null => .text (units "null")
  | .boolean value => .text (booleanText value)
  | .int value => .text (numberText value.toInt)
  | .long value => .text (numberText value.toInt)
  | .double value => .text (platform.doubleToString value)
  | .string value => .text value
  | .booleanArray values => .array (values.map booleanText)
  | .intArray values => .array (values.map fun value => numberText value.toInt)
  | .longArray values => .array (values.map fun value => numberText value.toInt)
  | .doubleArray values => .array (values.map platform.doubleToString)
  | .stringArray values => .array (values.map nullableText)
  | .bundle bundle => .bundle (platform.bundleToString bundle) (shownEntries platform bundle)

/-- What is shown of the entries of a bundle. -/
def shownEntries (platform : Platform) : BaseBundle → ShownEntries
  | .empty => .nil
  | .entry key value rest =>
    .cons (nullableText key) (shownValue platform value) (shownEntries platform rest)

end

/-- What is shown of a bundle, which may be null. -/
def shownBundle (platform : Platform) (bundle : Option BaseBundle) :
    Option (Units × ShownEntries) :=
  bundle.map fun bundle => (platform.bundleToString bundle, shownEntries platform bundle)

/-- A key that is read back: a line in which there is nothing that separates a key and its value. -/
def IsKey (key : Units) : Prop := IsLine key ∧ ¬ units ": " <:+: key

instance (key : Units) : Decidable (IsKey key) := inferInstanceAs (Decidable (_ ∧ _))

mutual

/-- Every text of a value is a line. -/
def ShownValue.Readable : ShownValue → Prop
  | .text value => IsLine value
  | .array elements => ∀ element ∈ elements, IsLine element
  | .bundle title entries => IsLine title ∧ entries.Readable

/-- Every text of the entries is a line, and the keys can be told from the values. -/
def ShownEntries.Readable : ShownEntries → Prop
  | .nil => True
  | .cons key value rest => IsKey key ∧ value.Readable ∧ rest.Readable

end

mutual

/-- The strings of a value, and the `toString` of a bundle, are lines. -/
def ValueReadable (platform : Platform) : Value → Prop
  | .null => True
  | .boolean _ => True
  | .int _ => True
  | .long _ => True
  | .double _ => True
  | .string value => IsLine value
  | .booleanArray _ => True
  | .intArray _ => True
  | .longArray _ => True
  | .doubleArray _ => True
  | .stringArray values => ∀ value ∈ values, ∀ text ∈ value, IsLine text
  | .bundle bundle => IsLine (platform.bundleToString bundle) ∧ EntriesReadable platform bundle

/-- The keys, the strings and the `toString` of every bundle are lines, and no key has a `": "`. -/
def EntriesReadable (platform : Platform) : BaseBundle → Prop
  | .empty => True
  | .entry key value rest =>
    (∀ text ∈ key, IsKey text) ∧ ValueReadable platform value ∧ EntriesReadable platform rest

end

/-- A bundle that can be read from what is printed. -/
def BundleReadable (platform : Platform) (bundle : Option BaseBundle) : Prop :=
  ∀ b ∈ bundle, IsLine (platform.bundleToString b) ∧ EntriesReadable platform b

/-! ## Lines -/

mutual

/-- The lines of an entry with this key. -/
def ShownValue.entryLines (key : Units) : ShownValue → List Units
  | .text value => [key ++ units ": " ++ (value ++ units ",")]
  | .array elements =>
    (key ++ units ": " ++ units "[") ::
      ((elements.map (· ++ units ",")).map (units "  " ++ ·) ++ [units "],"])
  | .bundle title entries =>
    (key ++ units ": " ++ (title ++ units ":\x7b  ")) ::
      (entries.lines.map (units "  " ++ ·) ++ [units "\x7d,"])

/-- The lines of entries. -/
def ShownEntries.lines : ShownEntries → List Units
  | .nil => []
  | .cons key value rest => value.entryLines key ++ rest.lines

end

theorem nullableText_isLine {text : Option Units} (h : ∀ t ∈ text, IsLine t) :
    IsLine (nullableText text) := by
  cases text with
  | none => exact plain_null.isLine
  | some t => exact h t rfl

mutual

/-- Of a value whose strings are lines, lines are shown. -/
theorem shownValue_readable (platform : Platform) : ∀ {value : Value},
    ValueReadable platform value → (shownValue platform value).Readable
  | .null, _ => plain_null.isLine
  | .boolean value, _ => (plain_booleanText value).isLine
  | .int value, _ => (plain_numberText value.toInt).isLine
  | .long value, _ => (plain_numberText value.toInt).isLine
  | .double value, _ => Plain.isLine (platform.doubleToString_plain value)
  | .string _, h => h
  | .booleanArray _, _ => List.forall_mem_map.2 fun value _ => (plain_booleanText value).isLine
  | .intArray _, _ => List.forall_mem_map.2 fun value _ => (plain_numberText value.toInt).isLine
  | .longArray _, _ => List.forall_mem_map.2 fun value _ => (plain_numberText value.toInt).isLine
  | .doubleArray _, _ =>
    List.forall_mem_map.2 fun value _ => Plain.isLine (platform.doubleToString_plain value)
  | .stringArray _, h =>
    List.forall_mem_map.2 fun value hvalue => nullableText_isLine (h value hvalue)
  | .bundle _, h => ⟨h.1, shownEntries_readable platform h.2⟩

theorem shownEntries_readable (platform : Platform) : ∀ {bundle : BaseBundle},
    EntriesReadable platform bundle → (shownEntries platform bundle).Readable
  | .empty, _ => trivial
  | .entry key _ _, h => by
    refine ⟨?_, shownValue_readable platform h.2.1, shownEntries_readable platform h.2.2⟩
    cases key with
    | none => exact ⟨plain_null.isLine, by decide⟩
    | some text => exact h.1 text rfl

end

theorem isFull_comma : IsFull (units ",") := by decide

mutual

/-- The lines of an entry are lines, and none is blank. -/
theorem isFull_entryLines {key : Units} (hkey : IsLine key) : ∀ {value : ShownValue},
    value.Readable → ∀ line ∈ value.entryLines key, IsFull line
  | .text _, h => by
    have hseparated : IsLine (key ++ units ": ") := hkey.append (by decide)
    rw [ShownValue.entryLines, List.forall_mem_singleton]
    exact hseparated.append_isFull (IsLine.append_isFull h isFull_comma)
  | .array elements, h => by
    have hseparated : IsLine (key ++ units ": ") := hkey.append (by decide)
    have helements : ∀ line ∈ (elements.map (· ++ units ",")).map (units "  " ++ ·),
        IsFull line := by
      rw [List.forall_mem_map, List.forall_mem_map]
      exact fun element helement =>
        isLine_indent.append_isFull (IsLine.append_isFull (h element helement) isFull_comma)
    rw [ShownValue.entryLines, List.forall_mem_cons, List.forall_mem_append,
      List.forall_mem_singleton]
    exact ⟨hseparated.append_isFull (by decide), helements, by decide⟩
  | .bundle title entries, h => by
    have hseparated : IsLine (key ++ units ": ") := hkey.append (by decide)
    have hinner : ∀ line ∈ entries.lines.map (units "  " ++ ·), IsFull line := by
      rw [List.forall_mem_map]
      exact fun line hline => isLine_indent.append_isFull (isFull_lines h.2 line hline)
    rw [ShownValue.entryLines, List.forall_mem_cons, List.forall_mem_append,
      List.forall_mem_singleton]
    exact ⟨hseparated.append_isFull (h.1.append_isFull (by decide)), hinner, by decide⟩

theorem isFull_lines : ∀ {entries : ShownEntries}, entries.Readable →
    ∀ line ∈ entries.lines, IsFull line
  | .nil, _ => fun line hline => nomatch hline
  | .cons key value rest, h => by
    rw [ShownEntries.lines, List.forall_mem_append]
    exact ⟨isFull_entryLines h.1.1 h.2.1, isFull_lines h.2.2⟩

end

/-! ## Printing lines -/

/-- The elements of an array are printed as lines. -/
theorem printElements_eq_lines (key : Units) (elements : List Units) :
    units "\n" ++ key ++ units ": " ++ printElements elements ++ units "," =
      ((ShownValue.array elements).entryLines key).flatMap (lf :: ·) := by
  have helements : (elements.flatMap fun s => units "\n  " ++ s ++ units ",") =
      ((elements.map (· ++ units ",")).map (units "  " ++ ·)).flatMap (lf :: ·) := by
    rw [List.flatMap_map, List.flatMap_map]
    refine List.flatMap_congr fun element _ => ?_
    rw [List.append_assoc]
    rfl
  rw [printElements, helements, ShownValue.entryLines, List.flatMap_cons, List.flatMap_append,
    List.flatMap_singleton]
  simp only [List.append_assoc, List.cons_append]
  rfl

/-- A bundle that is not null is printed as lines: `first` is what is in front of it. -/
theorem printAround_eq_lines {platform : Platform} {bundle : BaseBundle} {entries : ShownEntries}
    (hentries : entries.Readable) :
    printAround platform bundle (entries.lines.flatMap (lf :: ·)) =
      joinLines ((platform.bundleToString bundle ++ units ":\x7b  ") ::
        (entries.lines.map (units "  " ++ ·) ++ [units "\x7d"])) := by
  rw [printAround, prependIndent_flatMap_lf (by decide) (isFull_lines hentries), joinLines,
    joinLines, List.flatMap_append, List.flatMap_singleton]
  simp only [List.append_assoc]
  rfl

mutual

/-- An entry is printed as its lines. -/
theorem printValue_eq_lines (platform : Platform) (key : Units) : ∀ {value : Value},
    ValueReadable platform value →
      units "\n" ++ key ++ units ": " ++ printValue platform value ++ units "," =
        ((shownValue platform value).entryLines key).flatMap (lf :: ·)
  | .null, _ | .boolean _, _ | .int _, _ | .long _, _ | .double _, _ | .string _, _ => by
    rw [printValue, shownValue, ShownValue.entryLines, List.flatMap_singleton]
    simp only [List.append_assoc]
    rfl
  | .booleanArray _, _ | .intArray _, _ | .longArray _, _ | .doubleArray _, _
  | .stringArray _, _ => printElements_eq_lines key _
  | .bundle bundle, h => by
    rw [printValue, printEntries_eq_lines platform h.2,
      printAround_eq_lines (shownEntries_readable platform h.2), shownValue, ShownValue.entryLines,
      joinLines, List.flatMap_cons, List.flatMap_append, List.flatMap_append,
      List.flatMap_singleton, List.flatMap_singleton]
    simp only [List.append_assoc, List.cons_append]
    rfl

/-- The entries of a bundle are printed as their lines. -/
theorem printEntries_eq_lines (platform : Platform) : ∀ {bundle : BaseBundle},
    EntriesReadable platform bundle →
      printEntries platform bundle = (shownEntries platform bundle).lines.flatMap (lf :: ·)
  | .empty, _ => rfl
  | .entry key value rest, h => by
    rw [printEntries, printValue_eq_lines platform (nullableText key) h.2.1,
      printEntries_eq_lines platform h.2.2, shownEntries, ShownEntries.lines, List.flatMap_append]

end

/-! ## Reading lines -/

/-- A line cut at the first `": "`. -/
def cutKey : Units → Option (Units × Units)
  | [] => none
  | c :: line =>
    if units ": " <+: c :: line then some ([], line.tail)
    else (cutKey line).map fun cut => (c :: cut.1, cut.2)

/-- Reads the lines of entries. What kind of an entry a line starts is said by its last
character. -/
def readEntries : ℕ → List Units → Option ShownEntries
  | 0, _ => none
  | _ + 1, [] => some .nil
  | fuel + 1, line :: rest =>
    (cutKey line).bind fun cut =>
      let inner := block (units "  ") rest
      if cut.2.getLast? = some 0x2C then
        (readEntries fuel rest).map (.cons cut.1 (.text cut.2.dropLast))
      else if cut.2.getLast? = some 0x5B then
        (readEntries fuel inner.2.tail).map (.cons cut.1 (.array (inner.1.map List.dropLast)))
      else
        (readEntries fuel inner.1).bind fun entries =>
          (readEntries fuel inner.2.tail).map
            (.cons cut.1 (.bundle (cut.2.take (cut.2.length - 4)) entries))

/-- The title of a bundle is in front of the last four characters. -/
theorem take_title (title : Units) :
    (title ++ units ":\x7b  ").take ((title ++ units ":\x7b  ").length - 4) = title := by
  rw [List.length_append]
  exact List.take_left

/-- A key is found. -/
theorem cutKey_append {key : Units} (h : ¬ units ": " <:+: key) (text : Units) :
    cutKey (key ++ units ": " ++ text) = some (key, text) := by
  induction key with
  | nil => rfl
  | cons c key ih =>
    have hkey : ¬ units ": " <:+: key := fun hinfix => h (List.infix_cons hinfix)
    have hcut : ¬ units ": " <+: c :: (key ++ units ": " ++ text) := by
      intro hprefix
      cases key with
      | nil =>
        -- a `":"` would be the separating space
        obtain ⟨-, hspace⟩ := List.cons_prefix_cons.1 hprefix
        exact absurd (List.cons_prefix_cons.1 hspace).1 (by decide)
      | cons c' key =>
        obtain ⟨rfl, hspace⟩ := List.cons_prefix_cons.1 hprefix
        obtain ⟨rfl, -⟩ := List.cons_prefix_cons.1 hspace
        exact h ⟨[], key, rfl⟩
    rw [List.cons_append, List.cons_append, cutKey, if_neg hcut, ih hkey]
    rfl

/-- Lines up to a closing bracket are a block. -/
theorem block_closed {close : Units} (hclose : ¬ units "  " <+: close) (texts rest : List Units) :
    block (units "  ") (texts.map (units "  " ++ ·) ++ [close] ++ rest) =
      (texts, close :: rest) := by
  rw [List.append_assoc]
  refine block_indented (fun line hline => ?_) texts
  rw [Option.mem_def, List.singleton_append, List.head?_cons, Option.some.injEq] at hline
  rwa [← hline]

mutual

/-- The lines of an entry are read. -/
theorem readEntries_entryLines {key : Units} (hkey : IsKey key) (rest : List Units) :
    ∀ {value : ShownValue} {fuel : ℕ}, value.Readable → (value.entryLines key).length ≤ fuel →
      readEntries (fuel + 1) (value.entryLines key ++ rest) =
        (readEntries fuel rest).map (.cons key value)
  | .text value, fuel, _, _ => by
    have hlast : (value ++ units ",").getLast? = some 0x2C := List.getLast?_concat
    have hvalue : (value ++ units ",").dropLast = value := List.dropLast_concat
    rw [ShownValue.entryLines, List.singleton_append, readEntries, cutKey_append hkey.2,
      Option.bind_some, if_pos hlast, hvalue]
  | .array elements, fuel, _, _ => by
    have hclose : ¬ units "  " <+: units "]," := by decide
    have hlast : (units "[").getLast? = some 0x5B := rfl
    have helements : (elements.map (· ++ units ",")).map List.dropLast = elements := by
      rw [List.map_map]
      exact (List.map_congr_left fun element _ => List.dropLast_concat).trans (List.map_id _)
    rw [ShownValue.entryLines, List.cons_append, readEntries, cutKey_append hkey.2,
      Option.bind_some, hlast, if_neg (by decide), if_pos rfl, block_closed hclose, helements]
    rfl
  | .bundle title entries, fuel, h, hfuel => by
    have hclose : ¬ units "  " <+: units "\x7d," := by decide
    have hlast : (title ++ units ":\x7b  ").getLast? = some 0x20 :=
      List.getLast?_append_of_ne_nil _ (List.cons_ne_nil _ _)
    have hlength : entries.lines.length < fuel := by
      simp only [ShownValue.entryLines, List.length_cons, List.length_append, List.length_map,
        List.length_nil] at hfuel
      omega
    rw [ShownValue.entryLines, List.cons_append, readEntries, cutKey_append hkey.2,
      Option.bind_some, hlast, if_neg (by decide), if_neg (by decide), block_closed hclose,
      readEntries_lines h.2 hlength, take_title]
    rfl

/-- **The lines of entries are read, with fuel for all lines.** -/
theorem readEntries_lines : ∀ {entries : ShownEntries} {fuel : ℕ}, entries.Readable →
    entries.lines.length < fuel → readEntries fuel entries.lines = some entries
  | .nil, fuel + 1, _, _ => rfl
  | .cons key value rest, fuel + 1, h, hfuel => by
    rw [ShownEntries.lines, List.length_append] at hfuel
    have hentry : 0 < (value.entryLines key).length := by
      cases value <;> exact Nat.succ_pos _
    rw [ShownEntries.lines, readEntries_entryLines h.1 rest.lines h.2.1 (by omega),
      readEntries_lines h.2.2 (by omega)]
    rfl

end

/-! ## Messages -/

/-- Reads the lines of a bundle. -/
def readBundle : List Units → Option (Option (Units × ShownEntries))
  | [] => none
  | line :: rest =>
    if line = units "(null)" then some none
    else (readEntries (rest.length + 1) (block (units "  ") rest).1).map fun entries =>
      some (line.take (line.length - 4), entries)

/-- What a message says: a line, and what is shown of a bundle if there is one in the message. -/
structure Record where
  heading : Units
  bundle : Option (Option (Units × ShownEntries))

/-- Reads the lines of a message. -/
def readRecord : List Units → Option Record
  | [] => none
  | [heading] => some ⟨heading, none⟩
  | heading :: line :: rest =>
    (readBundle (line.drop 2 :: rest)).map fun bundle => ⟨heading, some bundle⟩

/-- The lines of a bundle: the first one, and the others. -/
def shownLines : Option (Units × ShownEntries) → Units × List Units
  | none => (units "(null)", [])
  | some (title, entries) =>
    (title ++ units ":\x7b  ", entries.lines.map (units "  " ++ ·) ++ [units "\x7d"])

/-- The lines of a message. -/
def Record.lines (r : Record) : List Units :=
  match r.bundle with
  | none => [r.heading]
  | some bundle => r.heading :: (units "  " ++ (shownLines bundle).1) :: (shownLines bundle).2

/-- A bundle of which all texts are lines. -/
def ShownReadable (bundle : Option (Units × ShownEntries)) : Prop :=
  ∀ b ∈ bundle, IsLine b.1 ∧ b.2.Readable

/-- A message that can be read: its heading is not blank. -/
structure Record.Readable (r : Record) : Prop where
  heading : IsFull r.heading
  bundle : ∀ bundle ∈ r.bundle, ShownReadable bundle

theorem shownBundle_readable {platform : Platform} {bundle : Option BaseBundle}
    (h : BundleReadable platform bundle) : ShownReadable (shownBundle platform bundle) := by
  cases bundle with
  | none => exact fun b hb => nomatch hb
  | some bundle =>
    rintro _ ⟨⟩
    exact ⟨(h bundle rfl).1, shownEntries_readable platform (h bundle rfl).2⟩

/-- A bundle is printed as its lines. -/
theorem printBundle_eq_lines {platform : Platform} {bundle : Option BaseBundle}
    (h : BundleReadable platform bundle) :
    printBundle platform bundle =
      joinLines ((shownLines (shownBundle platform bundle)).1 ::
        (shownLines (shownBundle platform bundle)).2) := by
  cases bundle with
  | none => rfl
  | some bundle =>
    obtain ⟨-, hentries⟩ := h bundle rfl
    rw [printBundle, printEntries_eq_lines platform hentries,
      printAround_eq_lines (shownEntries_readable platform hentries)]
    rfl

/-- The lines of a bundle are lines, and none is blank. -/
theorem isFull_shownLines {bundle : Option (Units × ShownEntries)} (h : ShownReadable bundle) :
    IsFull (shownLines bundle).1 ∧ ∀ line ∈ (shownLines bundle).2, IsFull line := by
  cases bundle with
  | none => exact ⟨by decide, fun line hline => nomatch hline⟩
  | some bundle =>
    obtain ⟨htitle, hentries⟩ := h bundle rfl
    refine ⟨htitle.append_isFull (by decide), ?_⟩
    rw [shownLines, List.forall_mem_append, List.forall_mem_singleton, List.forall_mem_map]
    exact ⟨fun line hline => isLine_indent.append_isFull (isFull_lines hentries line hline),
      by decide⟩

/-- The lines of a message are lines, and none is blank. -/
theorem Record.Readable.isFull {r : Record} (h : r.Readable) : ∀ line ∈ r.lines, IsFull line := by
  obtain ⟨heading, bundle⟩ := r
  cases bundle with
  | none => exact List.forall_mem_singleton.2 h.heading
  | some bundle =>
    obtain ⟨hfirst, hothers⟩ := isFull_shownLines (h.bundle bundle rfl)
    refine List.forall_mem_cons.2 ⟨h.heading, List.forall_mem_cons.2 ⟨?_, hothers⟩⟩
    exact isLine_indent.append_isFull hfirst

/-- A bundle is read. -/
theorem readBundle_shownLines {bundle : Option (Units × ShownEntries)} (h : ShownReadable bundle) :
    readBundle ((shownLines bundle).1 :: (shownLines bundle).2) = some bundle := by
  cases bundle with
  | none => rfl
  | some bundle =>
    obtain ⟨title, entries⟩ := bundle
    obtain ⟨-, hentries⟩ := h _ rfl
    have hnull : title ++ units ":\x7b  " ≠ units "(null)" := by
      intro heq
      have hlast := congrArg List.getLast? heq
      rw [List.getLast?_append_of_ne_nil _ (by decide)] at hlast
      exact absurd hlast (by decide)
    have hclose : ¬ units "  " <+: units "\x7d" := by decide
    have hblock := block_closed hclose entries.lines []
    rw [List.append_nil] at hblock
    have hfuel : entries.lines.length <
        (entries.lines.map (units "  " ++ ·) ++ [units "\x7d"]).length + 1 := by
      rw [List.length_append, List.length_map]
      omega
    rw [shownLines, readBundle, if_neg hnull, hblock, readEntries_lines hentries hfuel, take_title]
    rfl

/-- A message is read. -/
theorem readRecord_lines {r : Record} (h : r.Readable) : readRecord r.lines = some r := by
  obtain ⟨heading, bundle⟩ := r
  cases bundle with
  | none => rfl
  | some bundle =>
    have hread := readBundle_shownLines (h.bundle bundle rfl)
    rw [Record.lines, readRecord, List.drop_left' (by decide), hread]
    rfl

theorem Record.lines_ne_nil (r : Record) : r.lines ≠ [] := by
  obtain ⟨heading, bundle⟩ := r
  cases bundle <;> exact List.cons_ne_nil _ _

/-! ## The listener of the daemon -/

/-- What a message with a bundle says. -/
def bundleRecord (platform : Platform) (heading : String) (bundle : Option BaseBundle) : Record :=
  ⟨units heading, some (shownBundle platform bundle)⟩

/-- A call of `IFwupdEventListener`. -/
inductive FwupdCallback where
  | onChanged
  | onDeviceAdded (device : Option BaseBundle)
  | onDeviceRemoved (device : Option BaseBundle)
  | onDeviceChanged (device : Option BaseBundle)
  | onDeviceRequest (request : Option BaseBundle)
  | onPropertiesChanged (properties : Option BaseBundle)

namespace FwupdCallback

variable (platform : Platform)

/-- The messages that the listener of `registerFwupdListener` logs. -/
def messages : FwupdCallback → List Units
  | .onChanged => [units "listener changed"]
  | .onDeviceAdded device => MainActivity.onDeviceAdded platform device
  | .onDeviceRemoved device => MainActivity.onDeviceRemoved platform device
  | .onDeviceChanged device => MainActivity.onDeviceChanged platform device
  | .onDeviceRequest request => MainActivity.onDeviceRequest platform request
  | .onPropertiesChanged properties => MainActivity.onPropertiesChanged platform properties

/-- What there is to read in these messages. -/
def records : FwupdCallback → List Record
  | .onChanged => [⟨units "listener changed", none⟩]
  | .onDeviceAdded device => [bundleRecord platform "device added" device]
  | .onDeviceRemoved device => [bundleRecord platform "device removed" device]
  | .onDeviceChanged device => [bundleRecord platform "device changed" device]
  | .onDeviceRequest request => [bundleRecord platform "device request" request]
  | .onPropertiesChanged none => []
  | .onPropertiesChanged (some properties) =>
    (takeKnownProperties properties).1.map (⟨·, none⟩) ++
      if (remaining properties).isEmpty then []
      else [bundleRecord platform "properties changed" (some (remaining properties))]

/-- The bundle that the call prints. -/
def printed : FwupdCallback → Option BaseBundle
  | .onChanged => none
  | .onDeviceAdded bundle | .onDeviceRemoved bundle | .onDeviceChanged bundle
  | .onDeviceRequest bundle => bundle
  | .onPropertiesChanged properties => properties.map remaining

end FwupdCallback

/-- The messages about the percentage and the status. -/
theorem mem_takeKnownProperties {properties : BaseBundle} {line : Units}
    (h : line ∈ (takeKnownProperties properties).1) :
    (∃ value : BitVec 32, line = units "percentage: " ++ numberText value.toInt ++ units "%") ∨
      ∃ value : BitVec 32, line = units "daemon status: " ++
        nullableText ((FwupdStatus.fromInt value).map fun s => units s.name) := by
  -- the messages of the first branch are in front of that of the second one
  have hsecond : ∀ first : List Units × BaseBundle,
      line ∈ (if first.2.containsKey statusKey then
        (first.1 ++ [units "daemon status: " ++ nullableText
          ((FwupdStatus.fromInt (first.2.getInt statusKey)).map fun s => units s.name)],
          first.2.remove statusKey)
        else first).1 →
      line ∈ first.1 ∨ ∃ value : BitVec 32, line = units "daemon status: " ++
        nullableText ((FwupdStatus.fromInt value).map fun s => units s.name) := by
    intro first hline
    split at hline
    · rcases List.mem_append.1 hline with hline | hline
      · exact .inl hline
      · exact .inr ⟨_, List.mem_singleton.1 hline⟩
    · exact .inl hline
  unfold takeKnownProperties at h
  rcases hsecond _ h with hline | hstatus
  · split at hline
    · exact .inl ⟨_, List.mem_singleton.1 hline⟩
    · exact absurd hline List.not_mem_nil
  · exact .inr hstatus

/-- They are lines. -/
theorem isFull_takeKnownProperties (properties : BaseBundle) :
    ∀ line ∈ (takeKnownProperties properties).1, IsFull line := by
  intro line hline
  rcases mem_takeKnownProperties hline with ⟨value, rfl⟩ | ⟨value, rfl⟩
  · have hopen : IsLine (units "percentage: ") := by decide
    exact (hopen.append (plain_numberText _).isLine).append_isFull (by decide)
  · have hopen : IsFull (units "daemon status: ") := by decide
    refine hopen.append (nullableText_isLine fun t ht => ?_)
    obtain ⟨status, -, rfl⟩ := Option.map_eq_some_iff.1 ht
    cases status <;> decide

/-- A message with a bundle in which nothing is marked is the lines of its record, which can be
read. -/
theorem bundleMessage_eq_record {platform : Platform} (indent : Nat) (heading : String)
    {bundle : Option BaseBundle} (hheading : IsFull (units heading))
    (hreadable : BundleReadable platform bundle) (hunmarked : BundleUnmarked platform bundle) :
    bundleMessage platform indent heading bundle =
        joinLines (bundleRecord platform heading bundle).lines ∧
      (bundleRecord platform heading bundle).Readable := by
  refine ⟨?_, hheading, ?_⟩
  · rw [(bundleMessage_eq_intact_iff hheading.1).2 hunmarked, intactMessage,
      printBundle_eq_lines hreadable, Record.lines, bundleRecord, joinLines_cons_cons, joinLines,
      joinLines]
    simp only [List.append_assoc]
    rfl
  · rintro _ ⟨⟩
    exact shownBundle_readable hreadable

/-- The messages about the properties are the lines of their records. -/
theorem onPropertiesChanged_eq_records {platform : Platform} {properties : BaseBundle}
    (hreadable : BundleReadable platform (some (remaining properties)))
    (hunmarked : BundleUnmarked platform (some (remaining properties))) :
    let records := FwupdCallback.records platform (.onPropertiesChanged (some properties))
    onPropertiesChanged platform (some properties) = records.map (fun r => joinLines r.lines) ∧
      ∀ r ∈ records, r.Readable := by
  have hlines := isFull_takeKnownProperties properties
  have hheading : IsFull (units "properties changed") := by decide
  obtain ⟨hmessage, hrecord⟩ := bundleMessage_eq_record 20 _ hheading hreadable hunmarked
  unfold FwupdCallback.records onPropertiesChanged
  simp only [takeKnownProperties_snd]
  -- the messages about the percentage and the status, as records
  generalize (takeKnownProperties properties).1 = known at hlines ⊢
  have hknown : (known.map fun line => (⟨line, none⟩ : Record)).map (fun r => joinLines r.lines) =
      known := by
    rw [List.map_map]
    exact (List.map_congr_left fun line _ => List.append_nil line).trans (List.map_id _)
  have hknownReadable : ∀ r ∈ known.map fun line => (⟨line, none⟩ : Record), r.Readable :=
    List.forall_mem_map.2 fun line hline =>
      ⟨hlines line hline, fun bundle hbundle => nomatch hbundle⟩
  split
  · rw [List.append_nil]
    exact ⟨hknown.symm, hknownReadable⟩
  · refine ⟨?_, List.forall_mem_append.2 ⟨hknownReadable, List.forall_mem_singleton.2 hrecord⟩⟩
    rw [List.map_append, hknown, hmessage]
    rfl

/-- What a call logs is the lines of its records, which can be read. -/
theorem FwupdCallback.messages_eq {platform : Platform} {callback : FwupdCallback}
    (hreadable : BundleReadable platform callback.printed)
    (hunmarked : BundleUnmarked platform callback.printed) :
    callback.messages platform = (callback.records platform).map (fun r => joinLines r.lines) ∧
      ∀ r ∈ callback.records platform, r.Readable := by
  have hsingle : ∀ heading : String, IsFull (units heading) →
      [bundleMessage platform 16 heading callback.printed] =
          [bundleRecord platform heading callback.printed].map (fun r => joinLines r.lines) ∧
        ∀ r ∈ [bundleRecord platform heading callback.printed], r.Readable := by
    intro heading hheading
    obtain ⟨hmessage, hrecord⟩ := bundleMessage_eq_record 16 heading hheading hreadable hunmarked
    exact ⟨congrArg (fun m => [m]) hmessage, List.forall_mem_singleton.2 hrecord⟩
  cases callback with
  | onChanged =>
    exact ⟨rfl, List.forall_mem_singleton.2 ⟨by decide, fun bundle hbundle => nomatch hbundle⟩⟩
  | onDeviceAdded device => exact hsingle "device added" (by decide)
  | onDeviceRemoved device => exact hsingle "device removed" (by decide)
  | onDeviceChanged device => exact hsingle "device changed" (by decide)
  | onDeviceRequest request => exact hsingle "device request" (by decide)
  | onPropertiesChanged properties =>
    cases properties with
    | none => exact ⟨rfl, fun r hr => nomatch hr⟩
    | some properties => exact onPropertiesChanged_eq_records hreadable hunmarked

end FwupdPoc.MainActivity

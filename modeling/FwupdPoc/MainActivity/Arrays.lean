import FwupdPoc.MainActivity.Readable

/-!
# What can be read of an array

`printArray` shows an array like a bundle, by indentation, but with a comma behind the last line of
each element (`printItems_eq_lines`), so that the last character of the first line of an element
says what it is: an array, a bundle, or a text (`readItems_lines`). A text that is not empty but
blank may lose characters: `prependIndent` does not indent it.
-/

namespace FwupdPoc.MainActivity

open Utf16 KotlinText

/-! ## What is shown of an array -/

/-- What is shown of the elements of an array. -/
inductive ShownItems where
  | nil
  | text (value : Units) (rest : ShownItems)
  | bundle (title : Units) (entries : ShownEntries) (rest : ShownItems)
  | array (items : ShownItems) (rest : ShownItems)

/-- What is shown of the elements of an array. -/
def shownItems (platform : Platform) : AnyArray → ShownItems
  | .nil => .nil
  | .bundle it rest =>
    .bundle (platform.bundleToString it) (shownEntries platform it) (shownItems platform rest)
  | .array it rest => .array (shownItems platform it) (shownItems platform rest)
  | .other it rest => .text it (shownItems platform rest)

/-- A line that is indented, or empty. -/
def IsItem (text : Units) : Prop := text = [] ∨ IsFull text

instance (text : Units) : Decidable (IsItem text) := inferInstanceAs (Decidable (_ ∨ _))

theorem IsItem.isLine {text : Units} (h : IsItem text) : IsLine text := by
  rcases h with rfl | h
  · exact .nil
  · exact h.1

/-- Bundles can be read, and other elements are lines that are empty or not blank. -/
def ItemsReadable (platform : Platform) : AnyArray → Prop
  | .nil => True
  | .bundle it rest => BundleReadable platform (some it) ∧ ItemsReadable platform rest
  | .array it rest => ItemsReadable platform it ∧ ItemsReadable platform rest
  | .other it rest => IsItem it ∧ ItemsReadable platform rest

namespace ShownItems

/-- Every text is a line. -/
def Readable : ShownItems → Prop
  | .nil => True
  | .text value rest => IsLine value ∧ rest.Readable
  | .bundle title entries rest => (IsLine title ∧ entries.Readable) ∧ rest.Readable
  | .array items rest => items.Readable ∧ rest.Readable

end ShownItems

/-- The lines between the brackets, of which there is one more if there is no element. -/
def between (lines : List Units) : List Units :=
  if lines = [] then [units ","] else lines.map (units "  " ++ ·)

/-- The lines of the elements. -/
def ShownItems.lines : ShownItems → List Units
  | .nil => []
  | .text value rest => (value ++ units ",") :: rest.lines
  | .bundle title entries rest =>
    (title ++ units ":\x7b  ") ::
      (entries.lines.map (units "  " ++ ·) ++ [units "\x7d,"] ++ rest.lines)
  | .array items rest => units "[" :: (between items.lines ++ [units "],"] ++ rest.lines)

/-- The lines of an array behind the first one. -/
def ShownItems.tailLines (items : ShownItems) : List Units := between items.lines ++ [units "]"]

theorem shownItems_readable {platform : Platform} {array : AnyArray}
    (h : ItemsReadable platform array) : (shownItems platform array).Readable := by
  induction array with
  | nil => trivial
  | bundle it rest ih =>
    exact ⟨shownBundle_readable h.1 _ rfl, ih h.2⟩
  | array it rest ihit ih => exact ⟨ihit h.1, ih h.2⟩
  | other it rest ih => exact ⟨h.1.isLine, ih h.2⟩

/-! ## Lines -/

/-- The lines between brackets are not blank. -/
theorem isFull_between {lines : List Units} (h : ∀ line ∈ lines, IsFull line) :
    ∀ line ∈ between lines, IsFull line := by
  unfold between
  split
  · exact List.forall_mem_singleton.2 isFull_comma
  · rw [List.forall_mem_map]
    exact fun line hline => isLine_indent.append_isFull (h line hline)

/-- The lines of a bundle that is an element. -/
theorem isFull_bundleLines {title : Units} {entries : ShownEntries} {close : Units}
    (h : IsLine title ∧ entries.Readable) (hclose : IsFull close) :
    ∀ line ∈ (title ++ units ":\x7b  ") :: (entries.lines.map (units "  " ++ ·) ++ [close]),
      IsFull line := by
  rw [List.forall_mem_cons, List.forall_mem_append, List.forall_mem_singleton, List.forall_mem_map]
  exact ⟨h.1.append_isFull (by decide),
    fun line hline => isLine_indent.append_isFull (isFull_lines h.2 line hline), hclose⟩

/-- The lines of elements are lines, and none is blank. -/
theorem ShownItems.isFull_lines {items : ShownItems} (h : items.Readable) :
    ∀ line ∈ items.lines, IsFull line := by
  induction items with
  | nil => exact fun line hline => nomatch hline
  | text value rest ih =>
    rw [ShownItems.lines, List.forall_mem_cons]
    exact ⟨h.1.append_isFull isFull_comma, ih h.2⟩
  | bundle title entries rest ih =>
    rw [ShownItems.lines, ← List.cons_append, List.forall_mem_append]
    exact ⟨isFull_bundleLines h.1 (by decide), ih h.2⟩
  | array items rest ihitems ih =>
    rw [ShownItems.lines, List.forall_mem_cons, List.forall_mem_append, List.forall_mem_append,
      List.forall_mem_singleton]
    exact ⟨by decide, ⟨isFull_between (ihitems h.1), by decide⟩, ih h.2⟩

/-- The lines of an array are lines, and none is blank. -/
theorem ShownItems.isFull_tailLines {items : ShownItems} (h : items.Readable) :
    ∀ line ∈ items.tailLines, IsFull line := by
  rw [ShownItems.tailLines, List.forall_mem_append, List.forall_mem_singleton]
  exact ⟨isFull_between (ShownItems.isFull_lines h), by decide⟩

/-! ## Printing -/

/-- What `joinToString` makes of elements. -/
theorem joinElements_eq {elements : List Units} (hne : elements ≠ []) :
    joinElements elements =
      units "[" ++ (elements.flatMap fun s => lf :: (s ++ units ",")) ++ (lf :: units "]") := by
  have hjoined : ∀ (first : Units) (others : List Units),
      List.intercalate (units ",\n") (first :: others) ++ units "," =
        first ++ units "," ++ (others.flatMap fun s => lf :: (s ++ units ",")) := by
    intro first others
    induction others generalizing first with
    | nil => simp
    | cons other others ih =>
      have hseparator : units ",\n" = units "," ++ [lf] := rfl
      rw [List.intercalate_cons_cons, List.append_assoc, ih other, hseparator, List.flatMap_cons]
      simp
  cases elements with
  | nil => exact absurd rfl hne
  | cons first others =>
    have hclose : units ",\n]" = units "," ++ (lf :: units "]") := rfl
    have hopen : units "[\n" = units "[" ++ [lf] := rfl
    rw [joinElements, hclose, ← List.append_assoc, List.append_assoc (units "[\n"), hjoined, hopen,
      List.flatMap_cons]
    simp only [List.append_assoc, List.cons_append, List.nil_append]

/-- An element of lines that are not blank, with the comma behind it. -/
theorem element_eq_lines {init : List Units} {last : Units}
    (h : ∀ line ∈ init ++ [last], IsFull line) :
    lf :: (prependIndent (units "  ") (joinLines (init ++ [last])) ++ units ",") =
      ((init ++ [last ++ units ","]).map (units "  " ++ ·)).flatMap (lf :: ·) := by
  have hne : init ++ [last] ≠ [] := List.append_ne_nil_of_right_ne_nil _ (List.cons_ne_nil _ _)
  have hindented : (init ++ [last]).map (units "  " ++ ·) ≠ [] := fun hnil =>
    hne (List.map_eq_nil_iff.1 hnil)
  rw [prependIndent_joinLines hne h, ← List.cons_append, ← flatMap_lf hindented]
  simp only [List.map_append, List.flatMap_append, List.map_singleton, List.flatMap_singleton,
    List.append_assoc, List.cons_append]

/-- An array is printed as its lines, if its elements are. -/
theorem joinElements_eq_lines {elements lines : List Units}
    (hnil : elements = [] ↔ lines = [])
    (h : (elements.flatMap fun s => lf :: (s ++ units ",")) =
      (lines.map (units "  " ++ ·)).flatMap (lf :: ·)) :
    joinElements elements = joinLines (units "[" :: (between lines ++ [units "]"])) := by
  by_cases hempty : elements = []
  · rw [hempty, between, if_pos (hnil.1 hempty)]
    rfl
  · rw [joinElements_eq hempty, h, between, if_neg fun hlines => hempty (hnil.2 hlines), joinLines,
      List.flatMap_append, List.flatMap_singleton, List.append_assoc]

theorem printItems_eq_nil_iff (platform : Platform) (array : AnyArray) :
    printItems platform array = [] ↔ (shownItems platform array).lines = [] := by
  cases array <;> simp [printItems, shownItems, ShownItems.lines]

/-- The elements of an array are printed as their lines. -/
theorem printItems_eq_lines {platform : Platform} {array : AnyArray}
    (h : ItemsReadable platform array) :
    ((printItems platform array).flatMap fun s => lf :: (s ++ units ",")) =
      ((shownItems platform array).lines.map (units "  " ++ ·)).flatMap (lf :: ·) := by
  induction array with
  | nil => rfl
  | bundle it rest ih =>
    have hfull := isFull_bundleLines (shownBundle_readable h.1 _ rfl)
      (by decide : IsFull (units "\x7d"))
    have hlines : (shownItems platform (.bundle it rest)).lines =
        ((platform.bundleToString it ++ units ":\x7b  ") ::
          (shownEntries platform it).lines.map (units "  " ++ ·)) ++ [units "\x7d" ++ units ","] ++
            (shownItems platform rest).lines := rfl
    rw [printItems, List.flatMap_cons, ih h.2, printBundle_eq_lines h.1, hlines, List.map_append,
      List.flatMap_append, ← element_eq_lines hfull]
    rfl
  | array it rest ihit ih =>
    have hfull : ∀ line ∈ (units "[" :: between (shownItems platform it).lines) ++ [units "]"],
        IsFull line :=
      List.forall_mem_cons.2 ⟨by decide, ShownItems.isFull_tailLines (shownItems_readable h.1)⟩
    have hlines : (shownItems platform (.array it rest)).lines =
        (units "[" :: between (shownItems platform it).lines) ++ [units "]" ++ units ","] ++
          (shownItems platform rest).lines := rfl
    rw [printItems, List.flatMap_cons, ih h.2,
      joinElements_eq_lines (printItems_eq_nil_iff platform it) (ihit h.1), hlines, List.map_append,
      List.flatMap_append, ← element_eq_lines hfull]
    rfl
  | other it rest ih =>
    have hlines : (shownItems platform (.other it rest)).lines =
        [] ++ [it ++ units ","] ++ (shownItems platform rest).lines := rfl
    rw [printItems, List.flatMap_cons, ih h.2, hlines, List.map_append, List.flatMap_append]
    rcases h.1 with rfl | hit
    · rfl
    · have hfull : ∀ line ∈ [] ++ [it], IsFull line := List.forall_mem_singleton.2 hit
      rw [← element_eq_lines hfull, List.nil_append, joinLines, List.flatMap_nil, List.append_nil]

/-- An array is printed as its lines. -/
theorem printArray_eq_lines {platform : Platform} {array : AnyArray}
    (h : ItemsReadable platform array) :
    printArray platform (some array) =
      joinLines (units "[" :: (shownItems platform array).tailLines) :=
  joinElements_eq_lines (printItems_eq_nil_iff platform array) (printItems_eq_lines h)

/-! ## Reading -/

/-- Reads the lines of elements. What kind of an element a line starts is said by its last
character. -/
def readItems : ℕ → List Units → Option ShownItems
  | 0, _ => none
  | _ + 1, [] => some .nil
  | fuel + 1, line :: rest =>
    let inner := block (units "  ") rest
    if line.getLast? = some 0x2C then (readItems fuel rest).map (.text line.dropLast)
    else if line.getLast? = some 0x5B then
      (readItems fuel inner.1).bind fun items =>
        -- behind an array without elements there is a line with a comma
        (readItems fuel (inner.2.drop (if inner.1 = [] then 2 else 1))).map (.array items)
    else
      (readEntries (inner.1.length + 1) inner.1).bind fun entries =>
        (readItems fuel inner.2.tail).map (.bundle (line.take (line.length - 4)) entries)

/-- The lines between brackets are a block. -/
theorem block_between {close : Units} (hclose : ¬ units "  " <+: close) (lines rest : List Units) :
    let inner := block (units "  ") (between lines ++ [close] ++ rest)
    inner.1 = lines ∧ inner.2.drop (if inner.1 = [] then 2 else 1) = rest := by
  unfold between
  split
  · rename_i hnil
    have hcomma : ¬ units "  " <+: units "," := by decide
    have hblock : block (units "  ") (units "," :: close :: rest) =
        ([], units "," :: close :: rest) := if_neg hcomma
    rw [hnil, List.singleton_append, List.cons_append, List.singleton_append, hblock]
    exact ⟨rfl, rfl⟩
  · rename_i hne
    rw [block_closed hclose]
    exact ⟨rfl, by rw [if_neg hne]; rfl⟩

/-- **The lines of elements are read, with fuel for all lines.** -/
theorem readItems_lines {items : ShownItems} (h : items.Readable) {fuel : ℕ}
    (hfuel : items.lines.length < fuel) : readItems fuel items.lines = some items := by
  induction items generalizing fuel with
  | nil =>
    cases fuel with
    | zero => exact absurd hfuel (Nat.not_lt_zero _)
    | succ fuel => rfl
  | text value rest ih =>
    cases fuel with
    | zero => exact absurd hfuel (Nat.not_lt_zero _)
    | succ fuel =>
      have hlast : (value ++ units ",").getLast? = some 0x2C := List.getLast?_concat
      have hvalue : (value ++ units ",").dropLast = value := List.dropLast_concat
      have hrest := ih h.2 (Nat.lt_of_succ_lt_succ hfuel)
      rw [ShownItems.lines, readItems, if_pos hlast, hvalue, hrest]
      rfl
  | bundle title entries rest ih =>
    cases fuel with
    | zero => exact absurd hfuel (Nat.not_lt_zero _)
    | succ fuel =>
      have hlast : (title ++ units ":\x7b  ").getLast? = some 0x20 :=
        List.getLast?_append_of_ne_nil _ (List.cons_ne_nil _ _)
      have hclose : ¬ units "  " <+: units "\x7d," := by decide
      rw [ShownItems.lines, List.length_cons, List.length_append] at hfuel
      have hrest := ih h.2 (by omega : rest.lines.length < fuel)
      have hentries := readEntries_lines h.1.2 (Nat.lt_succ_self _)
      rw [ShownItems.lines, readItems, hlast, if_neg (by decide), if_neg (by decide),
        block_closed hclose, take_title]
      dsimp only
      rw [hentries, List.tail_cons, hrest]
      rfl
  | array items rest ihitems ih =>
    cases fuel with
    | zero => exact absurd hfuel (Nat.not_lt_zero _)
    | succ fuel =>
      have hlast : (units "[").getLast? = some 0x5B := rfl
      have hclose : ¬ units "  " <+: units "]," := by decide
      obtain ⟨hinner, hbehind⟩ := block_between hclose items.lines rest.lines
      have hlength : items.lines.length ≤ (between items.lines).length := by
        unfold between
        split
        · rename_i hnil
          rw [hnil]
          exact Nat.zero_le _
        · exact Nat.le_of_eq (List.length_map _).symm
      rw [ShownItems.lines, List.length_cons, List.length_append, List.length_append] at hfuel
      rw [ShownItems.lines, readItems, hlast, if_neg (by decide), if_pos rfl]
      rw [hbehind, hinner, ihitems h.1 (by omega), ih h.2 (by omega)]
      rfl

end FwupdPoc.MainActivity

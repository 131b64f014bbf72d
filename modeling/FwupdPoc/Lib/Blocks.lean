import FwupdPoc.Lib.Margin

/-!
# Blocks of lines

What was put together from lines is read back from the text: the lines behind an indent, up to the
first line that is not (`block_indented`), and the texts of a list that was written with an empty
line behind each (`paragraphs_flatMap`). A reader of single paragraphs then reads what was written
event by event, if it reads what each event wrote (`readAll_events`).
-/

namespace KotlinText

open Utf16

/-! ## Indented blocks -/

/-- The lines at the start that are behind the indent, without it, and the lines from there on. -/
def block (indent : Units) : List Units → List Units × List Units
  | [] => ([], [])
  | line :: rest =>
    if indent <+: line then
      (line.drop indent.length :: (block indent rest).1, (block indent rest).2)
    else ([], line :: rest)

/-- Indented lines are a block, up to a line that is not indented. -/
theorem block_indented {indent : Units} {rest : List Units}
    (h : ∀ line ∈ rest.head?, ¬ indent <+: line) (texts : List Units) :
    block indent (texts.map (indent ++ ·) ++ rest) = (texts, rest) := by
  induction texts with
  | nil =>
    cases rest with
    | nil => rfl
    | cons line rest => exact if_neg (h line rfl)
  | cons text texts ih =>
    rw [List.map_cons, List.cons_append, block, if_pos (List.prefix_append _ _), ih,
      List.drop_left]

/-! ## Indented texts -/

/-- Lines that are not blank are indented one by one. -/
theorem map_indentLine {indent : Units} {texts : List Units}
    (h : ∀ line ∈ texts, isBlank line = false) :
    texts.map (indentLine indent) = texts.map (indent ++ ·) := by
  refine List.map_congr_left fun line hline => if_neg ?_
  rw [h line hline]
  exact Bool.false_ne_true

theorem isBlank_append (text text' : Units) :
    isBlank (text ++ text') = (isBlank text && isBlank text') := List.all_append

/-- A line with something in it that is not whitespace. -/
def IsFull (line : Units) : Prop := IsLine line ∧ isBlank line = false

instance (line : Units) : Decidable (IsFull line) := inferInstanceAs (Decidable (_ ∧ _))

theorem IsLine.append_isFull {line text : Units} (h : IsLine line) (htext : IsFull text) :
    IsFull (line ++ text) := by
  refine ⟨h.append htext.1, ?_⟩
  rw [isBlank_append, htext.2, Bool.and_false]

theorem IsFull.ne_nil {line : Units} (h : IsFull line) : line ≠ [] := by
  rintro rfl
  exact absurd h.2 (by decide)

theorem IsFull.append {line text : Units} (h : IsFull line) (htext : IsLine text) :
    IsFull (line ++ text) := by
  refine ⟨h.1.append htext, ?_⟩
  rw [isBlank_append, h.2, Bool.false_and]

/-- An empty line in front of lines that are not blank becomes the indent. -/
theorem prependIndent_flatMap_lf {indent : Units} (hindent : indent ≠ []) {texts : List Units}
    (h : ∀ line ∈ texts, IsFull line) :
    prependIndent indent (texts.flatMap (lf :: ·)) =
      joinLines (indent :: texts.map (indent ++ ·)) := by
  have hlines : lines (joinLines ([] :: texts)) = [] :: texts := by
    rw [lines, splitLines_joinLines .nil fun line hline => (h line hline).1]
  have hempty : indentLine indent [] = indent :=
    (if_pos rfl).trans (if_pos (List.length_pos_iff.2 hindent))
  have htext : texts.flatMap (lf :: ·) = joinLines ([] :: texts) := rfl
  rw [htext, prependIndent, hlines, List.map_cons, hempty,
    map_indentLine fun line hline => (h line hline).2]

/-- Lines that are not blank are indented as they are joined. -/
theorem prependIndent_joinLines {indent : Units} {texts : List Units} (hne : texts ≠ [])
    (h : ∀ line ∈ texts, IsFull line) :
    prependIndent indent (joinLines texts) = joinLines (texts.map (indent ++ ·)) := by
  have hlines : lines (joinLines texts) = texts := by
    cases texts with
    | nil => exact absurd rfl hne
    | cons first others =>
      rw [lines, splitLines_joinLines (h first List.mem_cons_self).1
        fun line hline => (h line (List.mem_cons_of_mem _ hline)).1]
  rw [prependIndent, hlines, map_indentLine fun line hline => (h line hline).2]

/-! ## Paragraphs -/

/-- The lines of the texts of a list that was written with an empty line behind each text. -/
def paragraphs (text : Units) : List (List Units) := ((lines text).splitOn []).dropLast.dropLast

/-- The lines of such a list. -/
theorem lines_flatMap {texts : List Units} (h : ∀ text ∈ texts, text.getLast? ≠ some cr) :
    lines (texts.flatMap (· ++ units "\n\n")) = texts.flatMap (lines · ++ [[]]) ++ [[]] := by
  induction texts with
  | nil => rfl
  | cons text texts ih =>
    have hrest := ih fun t ht => h t (List.mem_cons_of_mem _ ht)
    have htext : (text :: texts).flatMap (· ++ units "\n\n") =
        text ++ lf :: lf :: texts.flatMap (· ++ units "\n\n") := by
      rw [List.flatMap_cons, List.append_assoc]
      rfl
    rw [htext, lines, splitLines_append_lf (h text List.mem_cons_self), lines, splitLines_lf, hrest,
      List.flatMap_cons, lines]
    simp

/-- **Texts without empty lines are read back.** -/
theorem paragraphs_flatMap {texts : List Units}
    (h : ∀ text ∈ texts, text.getLast? ≠ some cr ∧ [] ∉ lines text) :
    paragraphs (texts.flatMap (· ++ units "\n\n")) = texts.map lines := by
  have hsplit : (texts.flatMap (lines · ++ [[]]) ++ [[]]).splitOn [] =
      texts.map lines ++ [[], []] := by
    induction texts with
    | nil => rfl
    | cons text texts ih =>
      have hrest := ih fun t ht => h t (List.mem_cons_of_mem _ ht)
      have htext : (text :: texts).flatMap (lines · ++ [[]]) ++ [[]] =
          lines text ++ [] :: (texts.flatMap (lines · ++ [[]]) ++ [[]]) := by
        simp
      rw [htext, List.splitOn_append_cons_self_of_not_mem (h text List.mem_cons_self).2, hrest]
      rfl
  rw [paragraphs, lines_flatMap fun text htext => (h text htext).1, hsplit,
    List.append_cons, List.dropLast_concat, List.dropLast_concat]

/-- A text of which the lines are known, none of which is empty. -/
structure Paragraph (text : Units) (texts : List Units) : Prop where
  text : text = joinLines texts
  lines : ∀ line ∈ texts, IsLine line ∧ line ≠ []
  nonempty : texts ≠ []

theorem Paragraph.lines_eq {text : Units} {texts : List Units} (h : Paragraph text texts) :
    KotlinText.lines text = texts := by
  obtain ⟨rfl, hlines, hne⟩ := h
  cases texts with
  | nil => exact absurd rfl hne
  | cons first others =>
    rw [List.forall_mem_cons] at hlines
    rw [KotlinText.lines, splitLines_joinLines hlines.1.1 fun line hline => (hlines.2 line hline).1]

/-- It can be told from its neighbours. -/
theorem Paragraph.separate {text : Units} {texts : List Units} (h : Paragraph text texts) :
    text.getLast? ≠ some cr ∧ [] ∉ KotlinText.lines text := by
  refine ⟨fun hlast => ?_, fun hempty => ?_⟩
  · rw [h.text] at hlast
    exact cr_not_mem_joinLines (fun line hline => (h.lines line hline).1)
      (List.mem_of_getLast? hlast)
  · rw [h.lines_eq] at hempty
    exact (h.lines [] hempty).2 rfl

/-! ## Reading paragraphs -/

section
variable {α β : Type} {read : List Units → Option (List α)}

/-- Reads paragraphs, each of which says some things. -/
def readAll (read : List Units → Option (List α)) : List (List Units) → Option (List α)
  | [] => some []
  | paragraph :: rest =>
    (read paragraph).bind fun found => (readAll read rest).map (found ++ ·)

/-- Paragraphs that are known to be read are read in front of others. -/
theorem readAll_append {front : List (List Units)} {found : List α}
    (h : readAll read front = some found) (rest : List (List Units)) :
    readAll read (front ++ rest) = (readAll read rest).map (found ++ ·) := by
  induction front generalizing found with
  | nil =>
    cases h
    exact Option.map_id'.symm
  | cons paragraph front ih =>
    obtain ⟨first, hfirst, hothers⟩ := Option.bind_eq_some_iff.1 h
    obtain ⟨others, hfront, rfl⟩ := Option.map_eq_some_iff.1 hothers
    rw [List.cons_append, readAll, hfirst, Option.bind_some, ih hfront, Option.map_map]
    congr 1
    funext rest
    exact (List.append_assoc _ _ _).symm

/-- Texts that are separate, and what is read in them. -/
structure ReadAs (read : List Units → Option (List α)) (texts : List Units)
    (found : List α) : Prop where
  separate : ∀ text ∈ texts, text.getLast? ≠ some cr ∧ [] ∉ lines text
  found : readAll read (texts.map lines) = some found

theorem ReadAs.nil : ReadAs read [] [] := ⟨fun _ htext => (nomatch htext), rfl⟩

theorem ReadAs.append {texts texts' : List Units} {found found' : List α}
    (h : ReadAs read texts found) (h' : ReadAs read texts' found') :
    ReadAs read (texts ++ texts') (found ++ found') := by
  refine ⟨List.forall_mem_append.2 ⟨h.separate, h'.separate⟩, ?_⟩
  rw [List.map_append, readAll_append h.found, h'.found]
  rfl

/-- Paragraphs are read if their lines are. -/
theorem readAs_of_paragraphs {texts : List Units} {paragraphs : List (List Units)} {found : List α}
    (h : List.Forall₂ Paragraph texts paragraphs) (hread : readAll read paragraphs = some found) :
    ReadAs read texts found := by
  have hlines : texts.map lines = paragraphs := by
    clear hread
    induction h with
    | nil => rfl
    | cons hfirst _ ih => rw [List.map_cons, hfirst.lines_eq, ih]
  refine ⟨?_, hlines ▸ hread⟩
  clear hread hlines
  induction h with
  | nil => exact fun text htext => nomatch htext
  | cons hfirst _ ih => exact List.forall_mem_cons.2 ⟨hfirst.separate, ih⟩

/-- Another reader may find the same in other words. -/
theorem readAll_map {read' : List Units → Option (List β)} {paragraphs : List (List Units)}
    {found : List α} (f : α → β)
    (h : ∀ paragraph ∈ paragraphs, read' paragraph = (read paragraph).map (List.map f))
    (hread : readAll read paragraphs = some found) :
    readAll read' paragraphs = some (found.map f) := by
  induction paragraphs generalizing found with
  | nil =>
    cases hread
    rfl
  | cons paragraph rest ih =>
    obtain ⟨hparagraph, hrest⟩ := List.forall_mem_cons.1 h
    obtain ⟨first, hfirst, hread⟩ := Option.bind_eq_some_iff.1 hread
    obtain ⟨others, hothers, rfl⟩ := Option.map_eq_some_iff.1 hread
    rw [readAll, hparagraph, hfirst, Option.map_some, Option.bind_some, ih hrest hothers,
      List.map_append]
    rfl

/-- **What was written event by event, the last one first, is read.** -/
theorem readAll_events {ε : Type} {pieces : ε → List Units} {shown : ε → List α} {events : List ε}
    (h : ∀ event ∈ events, ReadAs read (pieces event) (shown event).reverse) :
    readAll read (paragraphs (events.reverse.flatMap fun event =>
      (pieces event).flatMap (· ++ units "\n\n"))) = some (events.flatMap shown).reverse := by
  have hread : ∀ events : List ε,
      (∀ event ∈ events, ReadAs read (pieces event) (shown event).reverse) →
        ReadAs read (events.flatMap pieces)
          (events.flatMap fun event => (shown event).reverse) := by
    intro events h
    induction events with
    | nil => exact .nil
    | cons event events ih =>
      exact (h event List.mem_cons_self).append
        (ih fun event hevent => h event (List.mem_cons_of_mem _ hevent))
  have hlog := hread events.reverse fun event hevent => h event (List.mem_reverse.1 hevent)
  rw [← List.flatMap_assoc, paragraphs_flatMap hlog.separate, hlog.found, List.reverse_flatMap]
  rfl

end

end KotlinText

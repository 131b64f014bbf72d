import FwupdPoc.Lib.Utf16

/-!
# Lines of Kotlin strings

Texts are UTF-16 code units. `lines` cuts a text at its line terminators, which are `\n`, `\r` and
`\r\n`, and `joinLines` puts lines together with `\n`. The two are inverse to each other on texts
without `\r` and on lists of lines without terminators (`joinLines_lines`, `splitLines_joinLines`).
What `lines` does to a text that is put together is said by `splitLines_append_line` and
`splitLines_append_lf`.
-/

namespace KotlinText

open Utf16

/-! ## Characters -/

/-- `\n`. -/
def lf : BitVec 16 := 0x0A

/-- `\r`. -/
def cr : BitVec 16 := 0x0D

/-- The margin prefix. -/
def bar : BitVec 16 := 0x7C

/-- `Char.isWhitespace`. -/
def isWhitespace (c : BitVec 16) : Bool :=
  (0x09 ≤ c && c ≤ 0x0D) || (0x1C ≤ c && c ≤ 0x20) || c == 0xA0 || c == 0x1680 ||
    (0x2000 ≤ c && c ≤ 0x200A) || c == 0x2028 || c == 0x2029 || c == 0x202F || c == 0x205F ||
    c == 0x3000

/-! ## Lines -/

/-- The first line of a text, and the other lines. -/
def splitLines : Units → Units × List Units
  | [] => ([], [])
  | c :: rest =>
    let split := splitLines rest
    -- the terminator `\r\n` is cut at its second character
    if c = cr ∧ rest.head? = some lf then split
    else if c = lf ∨ c = cr then ([], split.1 :: split.2)
    else (c :: split.1, split.2)

/-- `lines()`. -/
def lines (text : Units) : List Units := (splitLines text).1 :: (splitLines text).2

/-- `joinToString("\n")`. -/
def joinLines : List Units → Units
  | [] => []
  | line :: others => line ++ others.flatMap (lf :: ·)

/-- A text without line terminators. -/
def IsLine (line : Units) : Prop := lf ∉ line ∧ cr ∉ line

instance (line : Units) : Decidable (IsLine line) := inferInstanceAs (Decidable (_ ∧ _))

theorem IsLine.nil : IsLine [] := ⟨List.not_mem_nil, List.not_mem_nil⟩

theorem IsLine.append {line line' : Units} (h : IsLine line) (h' : IsLine line') :
    IsLine (line ++ line') := by
  simp only [IsLine, List.mem_append, not_or]
  exact ⟨⟨h.1, h'.1⟩, h.2, h'.2⟩

theorem isLine_cons {c : BitVec 16} {line : Units} :
    IsLine (c :: line) ↔ (c ≠ lf ∧ c ≠ cr) ∧ IsLine line := by
  simp only [IsLine, List.mem_cons, not_or]
  refine ⟨?_, ?_⟩
  · rintro ⟨⟨hlf, hlf'⟩, hcr, hcr'⟩
    exact ⟨⟨Ne.symm hlf, Ne.symm hcr⟩, hlf', hcr'⟩
  · rintro ⟨⟨hlf, hcr⟩, hlf', hcr'⟩
    exact ⟨⟨Ne.symm hlf, hlf'⟩, Ne.symm hcr, hcr'⟩

theorem splitLines_cons (c : BitVec 16) (rest : Units) :
    splitLines (c :: rest) =
      if c = cr ∧ rest.head? = some lf then splitLines rest
      else if c = lf ∨ c = cr then ([], lines rest)
      else (c :: (splitLines rest).1, (splitLines rest).2) := rfl

theorem splitLines_lf (rest : Units) : splitLines (lf :: rest) = ([], lines rest) := by
  rw [splitLines_cons, if_neg (fun h => absurd h.1 (by decide)), if_pos (.inl rfl)]

theorem splitLines_of_not_terminator {c : BitVec 16} {rest : Units} (hc : c ≠ lf ∧ c ≠ cr) :
    splitLines (c :: rest) = (c :: (splitLines rest).1, (splitLines rest).2) := by
  rw [splitLines_cons, if_neg (fun h => hc.2 h.1), if_neg (not_or.2 hc)]

/-- Lines are lines. -/
theorem isLine_of_splitLines (text : Units) :
    IsLine (splitLines text).1 ∧ ∀ line ∈ (splitLines text).2, IsLine line := by
  induction text with
  | nil => exact ⟨.nil, by simp [splitLines]⟩
  | cons c rest ih =>
    rw [splitLines_cons]
    split
    · exact ih
    · split
      · refine ⟨.nil, fun line hline => ?_⟩
        rcases List.mem_cons.1 hline with rfl | hline
        · exact ih.1
        · exact ih.2 line hline
      · rename_i hc
        exact ⟨isLine_cons.2 ⟨not_or.1 hc, ih.1⟩, ih.2⟩

/-- In front of a line there is nothing to cut. -/
theorem splitLines_append_line {line : Units} (h : IsLine line) (text : Units) :
    splitLines (line ++ text) = (line ++ (splitLines text).1, (splitLines text).2) := by
  induction line with
  | nil => rfl
  | cons c line ih =>
    obtain ⟨hc, hline⟩ := isLine_cons.1 h
    rw [List.cons_append, splitLines_of_not_terminator hc, ih hline]
    rfl

/-- A line by itself. -/
theorem splitLines_line {line : Units} (h : IsLine line) : splitLines line = (line, []) := by
  have hsplit := splitLines_append_line h []
  rwa [List.append_nil, splitLines, List.append_nil] at hsplit

/-- A `\n` cuts, unless it belongs to a `\r` in front of it. -/
theorem splitLines_append_lf {text : Units} (h : text.getLast? ≠ some cr) (text' : Units) :
    splitLines (text ++ lf :: text') =
      ((splitLines text).1, (splitLines text).2 ++ lines text') := by
  induction text with
  | nil => exact splitLines_lf text'
  | cons c text ih =>
    cases text with
    | nil =>
      have hcr : c ≠ cr := fun hc => h (by rw [hc]; rfl)
      by_cases hlf : c = lf
      · subst hlf
        rw [List.singleton_append, splitLines_lf, splitLines_lf, lines, splitLines_lf]
        rfl
      · rw [List.singleton_append, splitLines_of_not_terminator ⟨hlf, hcr⟩,
          splitLines_of_not_terminator ⟨hlf, hcr⟩, splitLines_lf]
        rfl
    | cons c' text =>
      rw [List.getLast?_cons_cons] at h
      have hhead : (c' :: text ++ lf :: text').head? = (c' :: text).head? := rfl
      rw [List.cons_append, splitLines_cons, splitLines_cons c (c' :: text), hhead, lines, ih h]
      split
      · rfl
      · split
        · rfl
        · rfl

/-- A text without `\r` is its lines, joined. -/
theorem joinLines_lines {text : Units} (h : cr ∉ text) : joinLines (lines text) = text := by
  induction text with
  | nil => rfl
  | cons c text ih =>
    rw [List.mem_cons, not_or] at h
    obtain ⟨hc, htext⟩ := h
    have hcr : ¬ (c = cr ∧ text.head? = some lf) := fun hand => hc hand.1.symm
    rw [lines, splitLines_cons, if_neg hcr]
    split
    · rename_i hor
      obtain rfl : c = lf := hor.resolve_right fun heq => hc heq.symm
      calc joinLines ([] :: lines text) = lf :: joinLines (lines text) := by
            simp [joinLines, lines]
        _ = lf :: text := by rw [ih htext]
    · calc joinLines ((c :: (splitLines text).1) :: (splitLines text).2)
          = c :: joinLines (lines text) := rfl
        _ = c :: text := by rw [ih htext]

/-- Joined lines have no `\r`. -/
theorem cr_not_mem_joinLines {texts : List Units} (h : ∀ line ∈ texts, IsLine line) :
    cr ∉ joinLines texts := by
  cases texts with
  | nil => exact List.not_mem_nil
  | cons line others =>
    intro hmem
    rcases List.mem_append.1 hmem with hmem | hmem
    · exact (h line List.mem_cons_self).2 hmem
    · obtain ⟨other, hother, hmem⟩ := List.mem_flatMap.1 hmem
      rcases List.mem_cons.1 hmem with heq | hmem
      · exact absurd heq (by decide)
      · exact (h other (List.mem_cons_of_mem _ hother)).2 hmem

theorem joinLines_cons_cons (line other : Units) (others : List Units) :
    joinLines (line :: other :: others) = line ++ lf :: joinLines (other :: others) := by
  simp [joinLines]

/-- The lines of texts that are joined are the lines of each, unless a `\r` gets in front of a
`\n`. -/
theorem lines_joinLines {text : Units} {texts : List Units}
    (h : ∀ t ∈ text :: texts, t.getLast? ≠ some cr) :
    lines (joinLines (text :: texts)) = (text :: texts).flatMap lines := by
  induction texts generalizing text with
  | nil => simp [joinLines]
  | cons other others ih =>
    have hother := ih fun t ht => h t (List.mem_cons_of_mem _ ht)
    rw [joinLines_cons_cons, lines, splitLines_append_lf (h text List.mem_cons_self), hother]
    rfl

/-- A line does not end in `\r`. -/
theorem IsLine.getLast? {line : Units} (h : IsLine line) : line.getLast? ≠ some cr :=
  fun hlast => h.2 (List.mem_of_getLast? hlast)

/-- Lines are taken apart as they were joined. -/
theorem splitLines_joinLines {line : Units} {others : List Units} (h : IsLine line)
    (hothers : ∀ other ∈ others, IsLine other) :
    splitLines (joinLines (line :: others)) = (line, others) := by
  induction others generalizing line with
  | nil => simpa [joinLines] using splitLines_line h
  | cons other others ih =>
    have hsplit := ih (hothers other List.mem_cons_self)
      fun o ho => hothers o (List.mem_cons_of_mem _ ho)
    rw [joinLines_cons_cons, splitLines_append_lf h.getLast?, splitLines_line h, lines, hsplit]
    rfl

end KotlinText

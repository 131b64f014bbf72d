import FwupdPoc.Lib.KotlinText
import Mathlib.Data.List.TakeWhile

/-!
# Margins of Kotlin strings

`trimMargin` is applied to a raw template when the texts in it are in place, so it also takes
margins off the lines of these texts. In a template whose parts are `body` (`rawTemplate`), each
part loses the margins of its lines behind the first one, and nothing else
(`trimMargin_rawTemplate`). A part stays as it is exactly if it has no `\r`, which is replaced, and
none of these lines is marked (`trimTail_eq_self_iff`), and the template does exactly if all of its
parts do (`trimMargin_rawTemplate_eq_iff`).

Whether a text has marked lines is decided by a scan from left to right, which is compositional:
`scan` remembers whether only whitespace has been seen since the start of the line.
-/

namespace KotlinText

open Utf16

/-! ## Indents and margins -/

/-- `isBlank()`. -/
def isBlank (text : Units) : Bool := text.all isWhitespace

/-- What `prependIndent` does to a line. -/
def indentLine (indent line : Units) : Units :=
  if isBlank line then
    if line.length < indent.length then indent else line
  else indent ++ line

/-- `prependIndent(indent)`. -/
def prependIndent (indent text : Units) : Units := joinLines ((lines text).map (indentLine indent))

/-- Whether the margin prefix is in front of a line, behind whitespace. -/
def Marked (line : Units) : Prop := (line.dropWhile isWhitespace).head? = some bar

instance (line : Units) : Decidable (Marked line) := inferInstanceAs (Decidable (_ = _))

/-- What `trimMargin` does to a line. -/
def cutMargin (line : Units) : Units :=
  if Marked line then (line.dropWhile isWhitespace).tail else line

/-- The lines that `trimMargin` keeps: not a first or last one that is blank. -/
def reindent (texts : List Units) : List Units :=
  texts.zipIdx.filterMap fun value =>
    if (value.2 = 0 ∨ value.2 = texts.length - 1) ∧ isBlank value.1 then none
    else some (cutMargin value.1)

/-- `trimMargin()`. -/
def trimMargin (text : Units) : Units := joinLines (reindent (lines text))

/-! ## Templates -/

/-- A raw template of the form

    """
    |...
    |...
    """

with these texts behind its margins. -/
def rawTemplate (margin : Units) (body : List Units) : Units :=
  joinLines ([] :: (body.map fun text => margin ++ bar :: text) ++ [margin])

/-- A text without the margins of its lines behind the first one. -/
def trimTail (text : Units) : Units :=
  joinLines ((splitLines text).1 :: (splitLines text).2.map cutMargin)

theorem cutMargin_of_not_marked {line : Units} (h : ¬ Marked line) : cutMargin line = line :=
  if_neg h

theorem dropWhile_margin {margin : Units} (h : isBlank margin = true) (text : Units) :
    (margin ++ bar :: text).dropWhile isWhitespace = bar :: text := by
  rw [List.dropWhile_append_of_pos (List.all_eq_true.1 h)]
  rfl

/-- A marked line is a blank margin, the prefix and a text. -/
theorem marked_iff {line : Units} :
    Marked line ↔ ∃ margin text, isBlank margin = true ∧ line = margin ++ bar :: text := by
  refine ⟨fun h => ?_, ?_⟩
  · obtain ⟨text, htext⟩ := List.head?_eq_some_iff.1 h
    refine ⟨line.takeWhile isWhitespace, text, List.all_takeWhile, ?_⟩
    rw [← htext, List.takeWhile_append_dropWhile]
  · rintro ⟨margin, text, hmargin, rfl⟩
    unfold Marked
    rw [dropWhile_margin hmargin]
    rfl

/-- A margin is taken off. -/
theorem cutMargin_margin {margin : Units} (h : isBlank margin = true) (text : Units) :
    cutMargin (margin ++ bar :: text) = text := by
  rw [cutMargin, if_pos (marked_iff.2 ⟨margin, text, h, rfl⟩), dropWhile_margin h]
  rfl

/-- A marked line gets shorter. -/
theorem length_cutMargin_lt {line : Units} (h : Marked line) :
    (cutMargin line).length < line.length := by
  obtain ⟨margin, text, hmargin, rfl⟩ := marked_iff.1 h
  rw [cutMargin_margin hmargin, List.length_append, List.length_cons]
  omega

/-- The lines of which nothing is cut are those that are not marked. -/
theorem cutMargin_eq_self_iff {line : Units} : cutMargin line = line ↔ ¬ Marked line := by
  refine ⟨?_, ?_⟩
  · intro heq hmarked
    have hlt := length_cutMargin_lt hmarked
    rw [heq] at hlt
    exact Nat.lt_irrefl _ hlt
  · exact cutMargin_of_not_marked

/-- Cutting a margin leaves a line. -/
theorem IsLine.cutMargin {line : Units} (h : IsLine line) : IsLine (cutMargin line) := by
  rcases Classical.em (Marked line) with hmarked | hmarked
  · obtain ⟨margin, text, hmargin, rfl⟩ := marked_iff.1 hmarked
    rw [cutMargin_margin hmargin]
    exact ⟨fun hlf => h.1 (by simp [hlf]), fun hcr => h.2 (by simp [hcr])⟩
  · rwa [cutMargin_of_not_marked hmarked]

/-- The lines of a part of a template, without the margins of all but the first one. -/
def trimmedLines (text : Units) : List Units :=
  (splitLines text).1 :: (splitLines text).2.map cutMargin

theorem isLine_of_trimmedLines (text : Units) : ∀ line ∈ trimmedLines text, IsLine line := by
  intro line hline
  obtain ⟨hfirst, hothers⟩ := isLine_of_splitLines text
  rcases List.mem_cons.1 hline with rfl | hline
  · exact hfirst
  · obtain ⟨other, hother, rfl⟩ := List.mem_map.1 hline
    exact (hothers other hother).cutMargin

/-- Between blank first and last lines, every line loses its margin. -/
theorem reindent_blank {first last : Units} (hfirst : isBlank first = true)
    (hlast : isBlank last = true) (texts : List Units) :
    reindent (first :: texts ++ [last]) = texts.map cutMargin := by
  have hmiddle : ∀ (texts : List Units) (k bound : Nat), 0 < k → k + texts.length ≤ bound →
      ((texts.zipIdx k).filterMap fun value =>
        if (value.2 = 0 ∨ value.2 = bound) ∧ isBlank value.1 then none
        else some (cutMargin value.1)) = texts.map cutMargin := by
    intro texts
    induction texts with
    | nil => exact fun _ _ _ _ => rfl
    | cons text texts ih =>
      intro k bound hk hbound
      rw [List.length_cons] at hbound
      have hinner : ¬ ((k = 0 ∨ k = bound) ∧ isBlank text = true) := by
        rintro ⟨hor, -⟩
        omega
      rw [List.zipIdx_cons, List.filterMap_cons, if_neg hinner, List.map_cons,
        ih (k + 1) bound (Nat.succ_pos k) (by omega)]
  have hlength : (first :: texts ++ [last]).length - 1 = 1 + texts.length := by
    simp only [List.cons_append, List.length_cons, List.length_append, List.length_nil]
    omega
  unfold reindent
  rw [hlength, List.cons_append, List.zipIdx_cons, List.filterMap_cons,
    if_pos ⟨.inl rfl, hfirst⟩, List.zipIdx_append, List.filterMap_append,
    hmiddle texts _ _ (by omega) (by omega), List.zipIdx_singleton, List.filterMap_cons,
    if_pos ⟨.inr (by omega), hlast⟩]
  simp

theorem flatMap_lf {texts : List Units} (h : texts ≠ []) :
    texts.flatMap (lf :: ·) = lf :: joinLines texts := by
  cases texts with
  | nil => exact absurd rfl h
  | cons line others => rfl

/-- Lines may be joined in groups. -/
theorem joinLines_flatMap {α : Type} {f : α → List Units} (hf : ∀ a, f a ≠ []) (as : List α) :
    joinLines (as.flatMap f) = joinLines (as.map fun a => joinLines (f a)) := by
  cases as with
  | nil => rfl
  | cons a as =>
    have hgroup : joinLines (f a ++ as.flatMap f) =
        joinLines (f a) ++ (as.flatMap f).flatMap (lf :: ·) := by
      cases hfa : f a with
      | nil => exact absurd hfa (hf a)
      | cons line others => simp [joinLines]
    calc joinLines ((a :: as).flatMap f)
        = joinLines (f a) ++ (as.flatMap f).flatMap (lf :: ·) := by
          rw [List.flatMap_cons, hgroup]
      _ = joinLines (f a) ++ as.flatMap fun a => lf :: joinLines (f a) := by
          simp only [List.flatMap_assoc, flatMap_lf (hf _)]
      _ = joinLines ((a :: as).map fun a => joinLines (f a)) := by
          rw [List.map_cons, joinLines, List.flatMap_map]

/-- The parts of a template lose the margins of their lines behind the first one. -/
theorem trimMargin_rawTemplate {margin : Units} {body : List Units} (hblank : isBlank margin = true)
    (hmargin : IsLine margin) (hbody : ∀ text ∈ body, text.getLast? ≠ some cr) :
    trimMargin (rawTemplate margin body) = joinLines (body.map trimTail) := by
  have hbar : IsLine (margin ++ [bar]) := hmargin.append (by decide)
  have hpart : ∀ text, lines (margin ++ bar :: text) =
      (margin ++ bar :: (splitLines text).1) :: (splitLines text).2 := by
    intro text
    have hsplit := splitLines_append_line hbar text
    rw [← List.append_cons, ← List.append_cons] at hsplit
    rw [lines, hsplit]
  have hlines : lines (rawTemplate margin body) =
      [] :: (body.flatMap fun text => lines (margin ++ bar :: text)) ++ [margin] := by
    have hlast : lines margin = [margin] := by
      rw [lines, splitLines_line hmargin]
    unfold rawTemplate
    rw [List.cons_append, lines_joinLines, List.flatMap_cons, List.flatMap_append,
      List.flatMap_map, List.flatMap_singleton, hlast]
    · rfl
    · intro text htext
      rcases List.mem_cons.1 htext with rfl | htext
      · intro h
        cases h
      · rcases List.mem_append.1 htext with hpart | hlast
        · obtain ⟨part, hmem, rfl⟩ := List.mem_map.1 hpart
          have hend := hbody part hmem
          rw [List.getLast?_append, List.getLast?_cons]
          cases hcase : part.getLast? with
          | none => exact fun h => absurd (Option.some.inj h) (by decide)
          | some c =>
            rw [hcase] at hend
            exact hend
        · rw [List.mem_singleton.1 hlast]
          exact hmargin.getLast?
  have hcut : (body.flatMap fun text => lines (margin ++ bar :: text)).map cutMargin =
      body.flatMap trimmedLines := by
    rw [List.map_flatMap]
    congr 1
    funext text
    rw [hpart, List.map_cons, cutMargin_margin hblank]
    rfl
  rw [trimMargin, hlines, reindent_blank rfl hblank, hcut,
    joinLines_flatMap (f := trimmedLines) (fun text => List.cons_ne_nil _ _)]
  rfl

/-! ## Parts that stay as they are -/

theorem map_cutMargin_eq_self_iff {texts : List Units} :
    texts.map cutMargin = texts ↔ ∀ line ∈ texts, ¬ Marked line := by
  have hiff := List.map_inj_left (l := texts) (f := cutMargin) (g := id)
  rw [List.map_id] at hiff
  rw [hiff]
  exact forall₂_congr fun line _ => cutMargin_eq_self_iff

/-- A part of a template stays as it is exactly if it has no `\r` and no line behind the first one
is marked. -/
theorem trimTail_eq_self_iff {text : Units} :
    trimTail text = text ↔ cr ∉ text ∧ ∀ line ∈ (splitLines text).2, ¬ Marked line := by
  rw [← map_cutMargin_eq_self_iff]
  have htrimmed := isLine_of_trimmedLines text
  refine ⟨fun heq => ?_, ?_⟩
  · have hsplit : splitLines (trimTail text) = (_, _) :=
      splitLines_joinLines (htrimmed _ List.mem_cons_self)
        fun line hline => htrimmed line (List.mem_cons_of_mem _ hline)
    rw [heq] at hsplit
    refine ⟨?_, (congrArg Prod.snd hsplit).symm⟩
    rw [← heq]
    exact cr_not_mem_joinLines htrimmed
  · rintro ⟨hcr, hmap⟩
    calc trimTail text = joinLines (lines text) := by rw [trimTail, hmap, lines]
      _ = text := joinLines_lines hcr

/-- A part of a single line stays as it is. -/
theorem trimTail_line {line : Units} (h : IsLine line) : trimTail line = line := by
  rw [trimTail_eq_self_iff, splitLines_line h]
  exact ⟨h.2, fun other hother => nomatch hother⟩

theorem length_joinLines_cut_le (line : Units) (others : List Units) :
    (joinLines (line :: others.map cutMargin)).length ≤ (joinLines (line :: others)).length := by
  induction others with
  | nil => exact Nat.le_refl _
  | cons other others ih =>
    have hcut : (cutMargin other).length ≤ other.length := by
      rcases Classical.em (Marked other) with hmarked | hmarked
      · exact Nat.le_of_lt (length_cutMargin_lt hmarked)
      · exact Nat.le_of_eq (by rw [cutMargin_of_not_marked hmarked])
    simp only [joinLines, List.map_cons, List.flatMap_cons, List.length_append,
      List.length_cons] at ih ⊢
    omega

/-- There is a `\n` between any two lines. -/
theorem count_joinLines {line : Units} {others : List Units} (h : IsLine line)
    (hothers : ∀ other ∈ others, IsLine other) :
    (joinLines (line :: others)).count lf = others.length := by
  induction others generalizing line with
  | nil => simpa [joinLines] using List.count_eq_zero.2 h.1
  | cons other others ih =>
    have hcount := ih (hothers other List.mem_cons_self)
      fun o ho => hothers o (List.mem_cons_of_mem _ ho)
    rw [joinLines_cons_cons, List.count_append, List.count_eq_zero.2 h.1, List.count_cons_self,
      hcount, List.length_cons]
    omega

/-- A part of a template is still there in front of the rest exactly if no line of it behind the
first one is marked. -/
theorem prefix_trimTail_iff {text rest : Units} (hcr : cr ∉ text) :
    text <+: trimTail text ++ lf :: rest ↔ ∀ line ∈ (splitLines text).2, ¬ Marked line := by
  refine ⟨fun hprefix => ?_, fun hunmarked => ?_⟩
  · have htrimmed := isLine_of_trimmedLines text
    obtain ⟨hfirst, hothers⟩ := isLine_of_splitLines text
    have htext := joinLines_lines hcr
    have hlength : (trimTail text).length ≤ text.length := by
      have hle := length_joinLines_cut_le (splitLines text).1 (splitLines text).2
      rw [← lines, htext] at hle
      exact hle
    obtain ⟨more, hmore⟩ := List.prefix_of_prefix_length_le (List.prefix_append _ _) hprefix hlength
    cases more with
    | nil =>
      rw [List.append_nil] at hmore
      exact (trimTail_eq_self_iff.1 hmore).2
    | cons c more =>
      -- the rest of the part would start with a `\n` that the part does not have
      obtain ⟨behind, hbehind⟩ := hprefix
      have hsame : (trimTail text ++ c :: more) ++ behind = trimTail text ++ lf :: rest := by
        rw [hmore, hbehind]
      rw [List.append_assoc] at hsame
      obtain rfl : c = lf := (List.cons.inj (List.append_cancel_left hsame)).1
      have htrimmedCount : (trimTail text).count lf = (splitLines text).2.length := by
        rw [trimTail, count_joinLines hfirst, List.length_map]
        exact fun line hline => htrimmed line (List.mem_cons_of_mem _ hline)
      have htextCount : text.count lf = (splitLines text).2.length := by
        rw [← count_joinLines hfirst hothers, ← lines, htext]
      have hcount := congrArg (List.count lf) hmore
      rw [List.count_append, List.count_cons_self, htrimmedCount, htextCount] at hcount
      omega
  · rw [trimTail_eq_self_iff.2 ⟨hcr, hunmarked⟩]
    exact List.prefix_append _ _

/-! ## Scanning for marked lines -/

/-- Reads a character: `none` where it is a margin prefix behind nothing but whitespace, and
otherwise whether there is still nothing but whitespace in the line. -/
def step (start : Bool) (c : BitVec 16) : Option Bool :=
  if c = lf ∨ c = cr then some true
  else if start ∧ c = bar then none
  else some (start && isWhitespace c)

/-- Reads a text. -/
def scan (start : Bool) (text : Units) : Option Bool := text.foldlM step start

/-- No line of a text is marked. The first line counts if `start` says that there is nothing but
whitespace in front of it. -/
def MarginFree (start : Bool) (text : Units) : Prop := (scan start text).isSome = true

instance (start : Bool) (text : Units) : Decidable (MarginFree start text) :=
  inferInstanceAs (Decidable (_ = _))

theorem scan_cons (start : Bool) (c : BitVec 16) (text : Units) :
    scan start (c :: text) = (step start c).bind fun start => scan start text := by
  unfold scan
  rw [List.foldlM_cons]
  rfl

theorem marginFree_cons {start start' : Bool} {c : BitVec 16} {text : Units}
    (h : step start c = some start') : MarginFree start (c :: text) ↔ MarginFree start' text := by
  unfold MarginFree
  rw [scan_cons, h]
  rfl

/-- Behind some characters it is known whether the line has started, whatever is in front of
them. -/
theorem marginFree_append {start start' : Bool} {c : BitVec 16} {text text' : Units}
    (h : ∀ start, step start c = some start') :
    MarginFree start (text ++ c :: text') ↔ MarginFree start text ∧ MarginFree start' text' := by
  unfold MarginFree scan
  rw [List.foldlM_append]
  cases text.foldlM step start with
  | none => simp
  | some reached =>
    rw [Option.bind_eq_bind, Option.bind_some, List.foldlM_cons, h]
    simp

theorem step_lf (start : Bool) : step start lf = some true := rfl

/-- A character of a line. -/
theorem step_line {start : Bool} {c : BitVec 16} (hc : c ≠ lf ∧ c ≠ cr) :
    step start c = if start ∧ c = bar then none else some (start && isWhitespace c) :=
  if_neg (not_or.2 hc)

/-- A line that has started is not marked any more. -/
theorem marginFree_false_line {line : Units} (h : IsLine line) : MarginFree false line := by
  induction line with
  | nil => rfl
  | cons c line ih =>
    obtain ⟨hc, hline⟩ := isLine_cons.1 h
    exact (marginFree_cons (step_line hc)).2 (ih hline)

/-- The scan of a line that has not started finds out whether it is marked. -/
theorem marginFree_true_line {line : Units} (h : IsLine line) :
    MarginFree true line ↔ ¬ Marked line := by
  induction line with
  | nil => exact ⟨fun _ hmarked => absurd hmarked (by decide), fun _ => rfl⟩
  | cons c line ih =>
    obtain ⟨hc, hline⟩ := isLine_cons.1 h
    have hstep : step true c = if true ∧ c = bar then none else some (true && isWhitespace c) :=
      step_line hc
    cases hspace : isWhitespace c with
    | true =>
      have hbar : c ≠ bar := by
        rintro rfl
        exact absurd hspace (by decide)
      have hmarked : Marked (c :: line) ↔ Marked line := by
        unfold Marked
        rw [List.dropWhile_cons_of_pos hspace]
      rw [if_neg (fun hand => hbar hand.2), hspace] at hstep
      rw [marginFree_cons hstep, hmarked]
      exact ih hline
    | false =>
      have hmarked : Marked (c :: line) ↔ c = bar := by
        unfold Marked
        rw [List.dropWhile_cons_of_neg (by simp [hspace]), List.head?_cons, Option.some.injEq]
      rw [hmarked]
      rcases Classical.em (c = bar) with hbar | hbar
      · rw [if_pos ⟨rfl, hbar⟩] at hstep
        unfold MarginFree
        rw [scan_cons, hstep]
        simp [hbar]
      · rw [if_neg (fun hand => hbar hand.2), hspace] at hstep
        exact ⟨fun _ => hbar, fun _ => (marginFree_cons hstep).2 (marginFree_false_line hline)⟩

/-- The scan of a text finds its marked lines. -/
theorem marginFree_iff {start : Bool} {text : Units} :
    MarginFree start text ↔
      MarginFree start (splitLines text).1 ∧ ∀ line ∈ (splitLines text).2, ¬ Marked line := by
  induction text generalizing start with
  | nil => simp [splitLines]
  | cons c text ih =>
    rw [splitLines_cons]
    split
    · -- `\r` in front of `\n`: the scan starts over twice
      rename_i hcrlf
      obtain ⟨rfl, hlf⟩ := hcrlf
      obtain ⟨text, rfl⟩ := List.head?_eq_some_iff.1 hlf
      have hrestart : MarginFree start (cr :: lf :: text) ↔ MarginFree start (lf :: text) := by
        rw [marginFree_cons rfl, marginFree_cons (step_lf true), marginFree_cons (step_lf start)]
      rw [hrestart]
      exact ih
    · split
      · rename_i hc
        have hline := (isLine_of_splitLines text).1
        have hempty : MarginFree start [] := rfl
        rw [marginFree_cons (if_pos hc), ih, marginFree_true_line hline, lines]
        simp [hempty]
      · rename_i hc
        rw [not_or] at hc
        cases hstep : step start c with
        | none =>
          have hmarked : ∀ text, ¬ MarginFree start (c :: text) := by
            intro text
            unfold MarginFree
            rw [scan_cons, hstep]
            simp
          exact ⟨fun h => absurd h (hmarked _), fun h => absurd h.1 (hmarked _)⟩
        | some start' =>
          rw [marginFree_cons hstep, marginFree_cons hstep]
          exact ih

/-- In a line that has started, the first line of a text does not count. -/
theorem marginFree_false_iff {text : Units} :
    MarginFree false text ↔ ∀ line ∈ (splitLines text).2, ¬ Marked line := by
  rw [marginFree_iff, and_iff_right (marginFree_false_line (isLine_of_splitLines text).1)]

/-- At the start of a line, all lines of a text count. -/
theorem marginFree_true_iff {text : Units} :
    MarginFree true text ↔ ∀ line ∈ lines text, ¬ Marked line := by
  rw [marginFree_iff, marginFree_true_line (isLine_of_splitLines text).1, lines]
  simp

/-! ## Indented texts -/

/-- A blank line is not marked. -/
theorem not_marked_of_isBlank {line : Units} (h : isBlank line = true) : ¬ Marked line := by
  unfold Marked
  rw [List.dropWhile_eq_nil_iff.2 (List.all_eq_true.1 h)]
  exact fun hnone => nomatch hnone

/-- Whitespace in front of a line does not change whether it is marked. -/
theorem marked_indentLine {indent line : Units} (hindent : isBlank indent = true) :
    Marked (indentLine indent line) ↔ Marked line := by
  unfold indentLine
  split
  · rename_i hblank
    have hline := not_marked_of_isBlank hblank
    split
    · exact iff_of_false (not_marked_of_isBlank hindent) hline
    · rfl
  · unfold Marked
    rw [List.dropWhile_append_of_pos (List.all_eq_true.1 hindent)]

theorem IsLine.indentLine {indent line : Units} (hindent : IsLine indent) (h : IsLine line) :
    IsLine (indentLine indent line) := by
  unfold KotlinText.indentLine
  split
  · split
    · exact hindent
    · exact h
  · exact hindent.append h

/-- The lines of an indented text are the indented lines. -/
theorem splitLines_prependIndent {indent : Units} (hindent : IsLine indent) (text : Units) :
    splitLines (prependIndent indent text) =
      (indentLine indent (splitLines text).1, (splitLines text).2.map (indentLine indent)) := by
  obtain ⟨hfirst, hothers⟩ := isLine_of_splitLines text
  refine splitLines_joinLines (hindent.indentLine hfirst) fun line hline => ?_
  obtain ⟨other, hother, rfl⟩ := List.mem_map.1 hline
  exact hindent.indentLine (hothers other hother)

/-- An indented text has no `\r`. -/
theorem cr_not_mem_prependIndent {indent : Units} (hindent : IsLine indent) (text : Units) :
    cr ∉ prependIndent indent text := by
  obtain ⟨hfirst, hothers⟩ := isLine_of_splitLines text
  refine cr_not_mem_joinLines fun line hline => ?_
  obtain ⟨other, hother, rfl⟩ := List.mem_map.1 hline
  rcases List.mem_cons.1 hother with rfl | hother
  · exact hindent.indentLine hfirst
  · exact hindent.indentLine (hothers other hother)

/-- Indenting a text does not change which of its lines are marked. -/
theorem marginFree_prependIndent {start : Bool} {indent : Units} (hblank : isBlank indent = true)
    (hindent : IsLine indent) (text : Units) :
    MarginFree start (prependIndent indent text) ↔ MarginFree start text := by
  have hothers : (∀ line ∈ (splitLines text).2.map (indentLine indent), ¬ Marked line) ↔
      ∀ line ∈ (splitLines text).2, ¬ Marked line := by
    simp [marked_indentLine hblank]
  have hfirst := (isLine_of_splitLines text).1
  cases start with
  | false =>
    rw [marginFree_false_iff, marginFree_false_iff, splitLines_prependIndent hindent]
    exact hothers
  | true =>
    rw [marginFree_iff, splitLines_prependIndent hindent,
      marginFree_true_line (hindent.indentLine hfirst), marked_indentLine hblank, hothers,
      ← marginFree_true_line hfirst, ← marginFree_iff]

/-! ## Templates that stay as they are -/

/-- A text of which `trimMargin` takes nothing, where it stands behind other characters of a line:
it has no `\r`, and no line of it behind the first one is marked. -/
def Stays (text : Units) : Prop := cr ∉ text ∧ ∀ line ∈ (splitLines text).2, ¬ Marked line

instance (text : Units) : Decidable (Stays text) :=
  inferInstanceAs (Decidable (_ ∧ ∀ line ∈ (splitLines text).2, ¬ Marked line))

theorem stays_iff_marginFree {text : Units} :
    Stays text ↔ cr ∉ text ∧ MarginFree false text := by
  rw [Stays, marginFree_false_iff]

theorem IsLine.stays {line : Units} (h : IsLine line) : Stays line :=
  stays_iff_marginFree.2 ⟨h.2, marginFree_false_line h⟩

/-- What is in front of a text in its first line does not matter. -/
theorem stays_append_line {line : Units} (h : IsLine line) {text : Units} :
    Stays (line ++ text) ↔ Stays text := by
  rw [Stays, Stays, splitLines_append_line h, List.mem_append, or_iff_right h.2]

/-- Nor does a text behind it that starts with a character that starts the line. -/
theorem stays_append {c : BitVec 16} (hc : ∀ start, step start c = some false) {text text' : Units}
    (h : Stays (c :: text')) : Stays (text ++ c :: text') ↔ Stays text := by
  obtain ⟨hcr, hbehind⟩ := stays_iff_marginFree.1 h
  rw [marginFree_cons (hc false)] at hbehind
  rw [stays_iff_marginFree, stays_iff_marginFree, List.mem_append, or_iff_left hcr,
    marginFree_append hc, and_iff_left hbehind]

/-- What `trimMargin` returns has no `\r`. -/
theorem cr_not_mem_trimMargin (text : Units) : cr ∉ trimMargin text := by
  refine cr_not_mem_joinLines fun line hline => ?_
  obtain ⟨value, hvalue, hcut⟩ := List.mem_filterMap.1 hline
  obtain ⟨hfirst, hothers⟩ := isLine_of_splitLines text
  have hmem : value.1 ∈ lines text := by
    obtain ⟨_, _, hget⟩ := List.mem_zipIdx hvalue
    rw [hget]
    exact List.getElem_mem _
  have hvalueLine : IsLine value.1 := by
    rcases List.mem_cons.1 hmem with heq | hmem
    · rw [heq]
      exact hfirst
    · exact hothers _ hmem
  split at hcut
  · cases hcut
  · rw [← Option.some.inj hcut]
    exact hvalueLine.cutMargin

/-- Taking margins off makes a text no longer. -/
theorem length_trimTail_le {text : Units} (h : cr ∉ text) :
    (trimTail text).length ≤ text.length := by
  have hle := length_joinLines_cut_le (splitLines text).1 (splitLines text).2
  rwa [← lines, joinLines_lines h] at hle

/-- Where nothing gets longer, texts that are joined to the same text are the same. -/
theorem eq_self_of_flatMap_lf {cut : Units → Units} : ∀ {body : List Units},
    (∀ text ∈ body, (cut text).length ≤ text.length) →
      (body.map cut).flatMap (lf :: ·) = body.flatMap (lf :: ·) → ∀ text ∈ body, cut text = text
  | [], _, _ => fun text htext => nomatch htext
  | first :: rest, hle, heq => by
    have hrest : ∀ text ∈ rest, (cut text).length ≤ text.length := fun text htext =>
      hle text (List.mem_cons_of_mem _ htext)
    have hsum : ∀ {rest : List Units}, (∀ text ∈ rest, (cut text).length ≤ text.length) →
        ((rest.map cut).flatMap (lf :: ·)).length ≤ (rest.flatMap (lf :: ·)).length := by
      intro rest hrest
      induction rest with
      | nil => exact Nat.le_refl _
      | cons text rest ih =>
        have hfirst := hrest text List.mem_cons_self
        have := ih fun text htext => hrest text (List.mem_cons_of_mem _ htext)
        simp only [List.map_cons, List.flatMap_cons, List.length_append, List.length_cons]
        omega
    rw [List.map_cons, List.flatMap_cons, List.flatMap_cons, List.cons_append, List.cons_append,
      List.cons.injEq, and_iff_right rfl] at heq
    have hlength := congrArg List.length heq
    rw [List.length_append, List.length_append] at hlength
    have hfirst := hle first List.mem_cons_self
    have hothers := hsum hrest
    obtain ⟨hsame, hsames⟩ := List.append_inj heq (by omega)
    intro text htext
    rcases List.mem_cons.1 htext with rfl | htext
    · exact hsame
    · exact eq_self_of_flatMap_lf hrest hsames text htext

/-- **A template is the lines of its parts exactly if all of its parts stay as they are.** -/
theorem trimMargin_rawTemplate_eq_iff {margin : Units} {body : List Units}
    (hblank : isBlank margin = true) (hmargin : IsLine margin) :
    trimMargin (rawTemplate margin body) = joinLines body ↔ ∀ text ∈ body, Stays text := by
  have htrim : (∀ text ∈ body, cr ∉ text) →
      trimMargin (rawTemplate margin body) = joinLines (body.map trimTail) := by
    refine fun hcr => trimMargin_rawTemplate hblank hmargin fun text htext hlast => ?_
    exact hcr text htext (List.mem_of_getLast? hlast)
  refine ⟨fun heq => ?_, fun hstays => ?_⟩
  · cases body with
    | nil => exact fun text htext => nomatch htext
    | cons first rest =>
      have hcr : ∀ text ∈ first :: rest, cr ∉ text := by
        intro text htext hmem
        refine cr_not_mem_trimMargin (rawTemplate margin (first :: rest)) ?_
        rw [heq]
        have hjoined : cr ∈ lf :: joinLines (first :: rest) := by
          rw [← flatMap_lf (List.cons_ne_nil _ _)]
          exact List.mem_flatMap.2 ⟨text, htext, List.mem_cons_of_mem _ hmem⟩
        rcases List.mem_cons.1 hjoined with habsurd | hjoined
        · exact absurd habsurd (by decide)
        · exact hjoined
      rw [htrim hcr] at heq
      have hflat : ((first :: rest).map trimTail).flatMap (lf :: ·) =
          (first :: rest).flatMap (lf :: ·) := by
        rw [flatMap_lf (List.cons_ne_nil _ _), List.map_cons, flatMap_lf (List.cons_ne_nil _ _),
          ← List.map_cons, heq]
      intro text htext
      exact trimTail_eq_self_iff.1 (eq_self_of_flatMap_lf
        (fun text htext => length_trimTail_le (hcr text htext)) hflat text htext)
  · have hmap : body.map trimTail = body.map id :=
      List.map_congr_left fun text htext => trimTail_eq_self_iff.2 (hstays text htext)
    rw [List.map_id] at hmap
    rw [htrim fun text htext => (hstays text htext).1, hmap]

end KotlinText

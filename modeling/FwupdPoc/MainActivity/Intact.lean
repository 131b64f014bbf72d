import FwupdPoc.MainActivity

/-!
# Which messages stay intact

`trimMargin` runs over the whole message, so it also takes margins off the lines of what was put in.
Whether it finds any is a property of the keys, the strings and the `toString` of the bundles alone:
indenting does not change it, numbers have no lines to mark, and every text is followed by a
character that settles whether the line has started (`marginFree_printValue`,
`marginFree_printEntries`, by recursion on the bundle).
-/

namespace FwupdPoc.MainActivity

open Utf16 KotlinText

/-! ## Marked lines in a bundle -/

/-- No line of a text is marked. -/
def AllUnmarked (text : Units) : Prop := ∀ line ∈ lines text, ¬ Marked line

/-- No line of a text behind the first one is marked. -/
def OthersUnmarked (text : Units) : Prop := ∀ line ∈ (splitLines text).2, ¬ Marked line

mutual

/-- Nothing in a value is marked where it is printed: no line of an element of a string array, and
no line behind the first one of a string or of the `toString` of a bundle. -/
def ValueUnmarked (platform : Platform) : Value → Prop
  | .null => True
  | .boolean _ => True
  | .int _ => True
  | .long _ => True
  | .double _ => True
  | .string value => OthersUnmarked value
  | .booleanArray _ => True
  | .intArray _ => True
  | .longArray _ => True
  | .doubleArray _ => True
  | .stringArray values => ∀ value ∈ values, ∀ text ∈ value, AllUnmarked text
  | .bundle bundle =>
    OthersUnmarked (platform.bundleToString bundle) ∧ EntriesUnmarked platform bundle

/-- Nothing in the entries of a bundle is marked: no line of a key, and nothing in a value. -/
def EntriesUnmarked (platform : Platform) : BaseBundle → Prop
  | .empty => True
  | .entry key value rest =>
    (∀ text ∈ key, AllUnmarked text) ∧ ValueUnmarked platform value ∧
      EntriesUnmarked platform rest

end

/-! ## Literals -/

/-- A space leaves it open whether the line has started. -/
theorem step_space (start : Bool) : step start 0x20 = some start := by
  cases start <;> rfl

/-- Behind punctuation the line has started. -/
theorem step_colon (start : Bool) : step start 0x3A = some false := by
  cases start <;> rfl

theorem step_comma (start : Bool) : step start 0x2C = some false := by
  cases start <;> rfl

theorem step_bracket (start : Bool) : step start 0x5B = some false := by
  cases start <;> rfl

theorem step_brace (start : Bool) : step start 0x7B = some false := by
  cases start <;> rfl

theorem isBlank_indent : isBlank (units "  ") = true := by decide

theorem isLine_indent : IsLine (units "  ") := by decide

/-- A text of a number: without line terminators and margin prefixes. -/
def Plain (text : Units) : Prop := ∀ c ∈ text, c ≠ lf ∧ c ≠ cr ∧ c ≠ bar

instance (text : Units) : Decidable (Plain text) :=
  List.decidableBAll (fun c => c ≠ lf ∧ c ≠ cr ∧ c ≠ bar) text

theorem Plain.isLine {text : Units} (h : Plain text) : IsLine text :=
  ⟨fun hmem => (h lf hmem).1 rfl, fun hmem => (h cr hmem).2.1 rfl⟩

theorem Plain.marginFree {text : Units} (h : Plain text) (start : Bool) :
    MarginFree start text := by
  have hmarked : ¬ Marked text := by
    intro hmarked
    obtain ⟨margin, rest, -, rfl⟩ := marked_iff.1 hmarked
    exact (h bar (by simp)).2.2 rfl
  cases start with
  | false => exact marginFree_false_line h.isLine
  | true => exact (marginFree_true_line h.isLine).2 hmarked

theorem plain_nullBundle : Plain (units "(null)") := by decide

theorem plain_null : Plain (units "null") := by decide

theorem plain_comma : Plain (units ",") := by decide

theorem plain_booleanText (value : Bool) : Plain (booleanText value) := by
  cases value <;> decide

/-- A digit is plain. -/
theorem plain_charUnits_digit {digit : Char} (h : digit.isDigit = true) :
    Plain (charUnits digit) := by
  have hval : 48 ≤ digit.toNat ∧ digit.toNat ≤ 57 := by
    simp only [Char.isDigit, Bool.and_eq_true, decide_eq_true_eq] at h
    exact h
  have hbasic : digit.toNat < 0x10000 := by omega
  have hne : ∀ other : BitVec 16, ¬ (48 ≤ other.toNat ∧ other.toNat ≤ 57) →
      BitVec.ofNat 16 digit.toNat ≠ other := by
    rintro other hother rfl
    rw [BitVec.toNat_ofNat, Nat.mod_eq_of_lt hbasic] at hother
    exact hother hval
  intro c hc
  rw [charUnits, if_pos hbasic, List.mem_singleton] at hc
  subst hc
  exact ⟨hne lf (by decide), hne cr (by decide), hne bar (by decide)⟩

/-- The digits of a number are plain. -/
theorem plain_repr (n : Nat) : Plain (units (Nat.repr n)) := by
  intro c hc
  obtain ⟨digit, hdigit, hunit⟩ := List.mem_flatMap.1 hc
  rw [Nat.toList_repr] at hdigit
  have hisDigit := Nat.isDigit_of_mem_toDigits (Nat.succ_pos 9) (Nat.le_refl 10) hdigit
  exact plain_charUnits_digit hisDigit c hunit

theorem plain_numberText (value : Int) : Plain (numberText value) := by
  cases value with
  | ofNat n => exact plain_repr n
  | negSucc n =>
    have hminus : numberText (Int.negSucc n) = units "-" ++ units (Nat.repr (n + 1)) := by
      change units ("-" ++ Nat.repr (n + 1)) = _
      unfold units
      rw [String.toList_append, List.flatMap_append]
    rw [hminus]
    intro c hc
    rcases List.mem_append.1 hc with hc | hc
    · have hplain : Plain (units "-") := by decide
      exact hplain c hc
    · exact plain_repr (n + 1) c hc

/-! ## Printers -/

/-- A null key, element or status is plain. -/
theorem marginFree_nullableText {text : Option Units} :
    MarginFree true (nullableText text) ↔ ∀ t ∈ text, AllUnmarked t := by
  cases text with
  | none => exact iff_of_true (plain_null.marginFree true) (fun t ht => nomatch ht)
  | some t =>
    rw [show nullableText (some t) = t from rfl, marginFree_true_iff]
    simp [AllUnmarked]

/-- The elements of an array stand at the start of their lines. -/
theorem marginFree_printElements (elements : List Units) :
    MarginFree false (printElements elements) ↔ ∀ s ∈ elements, MarginFree true s := by
  have helements : MarginFree false
      ((elements.flatMap fun s => units "\n  " ++ s ++ units ",") ++ units "\n]") ↔
        ∀ s ∈ elements, MarginFree true s := by
    induction elements with
    | nil => exact iff_of_true rfl (fun s hs => nomatch hs)
    | cons s elements ih =>
      have htext : ((s :: elements).flatMap fun s => units "\n  " ++ s ++ units ",") ++
          units "\n]" = lf :: 0x20 :: 0x20 :: (s ++ 0x2C ::
            ((elements.flatMap fun s => units "\n  " ++ s ++ units ",") ++ units "\n]")) := by
        simp only [List.flatMap_cons, List.append_assoc]
        rfl
      rw [htext, marginFree_cons (step_lf false), marginFree_cons (step_space true),
        marginFree_cons (step_space true), marginFree_append step_comma, ih,
        List.forall_mem_cons]
  have hopen : MarginFree false (printElements elements) ↔ MarginFree false
      ((elements.flatMap fun s => units "\n  " ++ s ++ units ",") ++ units "\n]") := by
    rw [printElements, List.append_assoc]
    exact marginFree_cons rfl
  rw [hopen, helements]

/-- An array of numbers or Booleans has no marked lines. -/
theorem marginFree_printElements_plain {α : Type} {text : α → Units}
    (h : ∀ value, Plain (text value)) (values : List α) :
    MarginFree false (printElements (values.map text)) := by
  refine (marginFree_printElements _).2 fun s hs => ?_
  obtain ⟨value, -, rfl⟩ := List.mem_map.1 hs
  exact (h value).marginFree true

/-- A bundle is printed without marked lines if its `toString` and its entries have none. -/
theorem marginFree_printAround {start : Bool} {platform : Platform} {bundle : BaseBundle}
    {out : Units} :
    MarginFree start (printAround platform bundle out) ↔
      MarginFree start (platform.bundleToString bundle) ∧ MarginFree false out := by
  have htext : printAround platform bundle out = platform.bundleToString bundle ++
      0x3A :: 0x7B :: (prependIndent (units "  ") out ++ lf :: [0x7D]) := by
    simp only [printAround, List.append_assoc]
    rfl
  have hclose : MarginFree true [0x7D] := rfl
  rw [htext, marginFree_append step_colon, marginFree_cons (step_brace false),
    marginFree_append step_lf, marginFree_prependIndent isBlank_indent isLine_indent,
    and_iff_left hclose]

mutual

/-- Where nothing in a value is marked, it is printed without marked lines. -/
theorem marginFree_printValue (platform : Platform) : ∀ value : Value,
    MarginFree false (printValue platform value) ↔ ValueUnmarked platform value
  | .null => iff_of_true (plain_null.marginFree false) trivial
  | .boolean value => iff_of_true ((plain_booleanText value).marginFree false) trivial
  | .int value => iff_of_true ((plain_numberText _).marginFree false) trivial
  | .long value => iff_of_true ((plain_numberText _).marginFree false) trivial
  | .double value => iff_of_true (Plain.marginFree (platform.doubleToString_plain value) false)
      trivial
  | .string value => marginFree_false_iff
  | .booleanArray values =>
    iff_of_true (marginFree_printElements_plain plain_booleanText values) trivial
  | .intArray values =>
    iff_of_true (marginFree_printElements_plain (fun _ => plain_numberText _) values) trivial
  | .longArray values =>
    iff_of_true (marginFree_printElements_plain (fun _ => plain_numberText _) values) trivial
  | .doubleArray values =>
    iff_of_true (marginFree_printElements_plain platform.doubleToString_plain values) trivial
  | .stringArray values => by
    rw [printValue, marginFree_printElements, List.forall_mem_map, ValueUnmarked]
    exact forall₂_congr fun value _ => marginFree_nullableText
  | .bundle bundle => by
    rw [printValue, marginFree_printAround, marginFree_printEntries platform bundle, ValueUnmarked,
      marginFree_false_iff, OthersUnmarked]

/-- Where nothing in the entries is marked, they are printed without marked lines. -/
theorem marginFree_printEntries (platform : Platform) : ∀ (bundle : BaseBundle) {start : Bool},
    MarginFree start (printEntries platform bundle) ↔ EntriesUnmarked platform bundle
  | .empty, _ => iff_of_true rfl trivial
  | .entry key value rest, start => by
    have htext : printEntries platform (.entry key value rest) =
        lf :: (nullableText key ++ 0x3A :: 0x20 :: (printValue platform value ++ 0x2C ::
          printEntries platform rest)) := by
      simp only [printEntries, List.append_assoc]
      rfl
    rw [htext, marginFree_cons (step_lf start), marginFree_append step_colon,
      marginFree_cons (step_space false), marginFree_append step_comma, marginFree_nullableText,
      marginFree_printValue platform value, marginFree_printEntries platform rest,
      EntriesUnmarked]

end

/-- The elements of an array are printed at the start of their lines. -/
theorem marginFree_joinElements {start : Bool} (elements : List Units) :
    MarginFree start (joinElements elements) ↔ ∀ s ∈ elements, MarginFree true s := by
  have helements : MarginFree true
      (List.intercalate (units ",\n") elements ++ units ",\n]") ↔
        ∀ s ∈ elements, MarginFree true s := by
    induction elements with
    | nil => exact iff_of_true rfl (fun s hs => nomatch hs)
    | cons s elements ih =>
      rw [List.forall_mem_cons, ← ih]
      cases elements with
      | nil =>
        have htext : List.intercalate (units ",\n") [s] ++ units ",\n]" =
            s ++ 0x2C :: [lf, 0x5D] := by
          rw [List.intercalate_singleton]
          rfl
        have hlast : MarginFree false [lf, 0x5D] := rfl
        have hempty : MarginFree true (List.intercalate (units ",\n") [] ++ units ",\n]") := rfl
        rw [htext, marginFree_append step_comma, and_iff_left hlast, and_iff_left hempty]
      | cons t elements =>
        have htext : List.intercalate (units ",\n") (s :: t :: elements) ++ units ",\n]" =
            s ++ 0x2C :: lf :: (List.intercalate (units ",\n") (t :: elements) ++
              units ",\n]") := by
          rw [List.intercalate_cons_cons, List.append_assoc, List.append_assoc]
          rfl
        rw [htext, marginFree_append step_comma, marginFree_cons (step_lf false)]
  have hopen : MarginFree start (joinElements elements) ↔
      MarginFree true (List.intercalate (units ",\n") elements ++ units ",\n]") := by
    have htext : joinElements elements =
        [] ++ 0x5B :: lf :: (List.intercalate (units ",\n") elements ++ units ",\n]") := by
      rw [joinElements, List.append_assoc]
      rfl
    have hempty : MarginFree start [] := rfl
    rw [htext, marginFree_append step_bracket, and_iff_right hempty,
      marginFree_cons (step_lf false)]
  rw [hopen, helements]

/-- Nothing in an array is marked where it is printed: no line of the `toString` of a bundle or of
another element, and nothing in the entries of a bundle. -/
def ItemsUnmarked (platform : Platform) : AnyArray → Prop
  | .nil => True
  | .bundle it rest =>
    (AllUnmarked (platform.bundleToString it) ∧ EntriesUnmarked platform it) ∧
      ItemsUnmarked platform rest
  | .array it rest => ItemsUnmarked platform it ∧ ItemsUnmarked platform rest
  | .other it rest => AllUnmarked it ∧ ItemsUnmarked platform rest

/-- Where nothing in an array is marked, it is printed without marked lines. -/
theorem marginFree_printItems (platform : Platform) (array : AnyArray) :
    (∀ s ∈ printItems platform array, MarginFree true s) ↔ ItemsUnmarked platform array := by
  induction array with
  | nil => exact iff_of_true (fun s hs => nomatch hs) trivial
  | bundle it rest ih =>
    rw [printItems, List.forall_mem_cons, ih, ItemsUnmarked,
      marginFree_prependIndent isBlank_indent isLine_indent, printBundle, marginFree_printAround,
      marginFree_true_iff, marginFree_printEntries, AllUnmarked]
  | array it rest ihit ih =>
    rw [printItems, List.forall_mem_cons, ih, ItemsUnmarked,
      marginFree_prependIndent isBlank_indent isLine_indent, marginFree_joinElements, ihit]
  | other it rest ih =>
    rw [printItems, List.forall_mem_cons, ih, ItemsUnmarked,
      marginFree_prependIndent isBlank_indent isLine_indent, marginFree_true_iff, AllUnmarked]

/-- The condition on an array of bundles, element by element. -/
theorem itemsUnmarked_ofBundles (platform : Platform) (bundles : List (Option BaseBundle)) :
    ItemsUnmarked platform (ofBundles bundles) ↔
      ∀ it ∈ bundles, ∀ bundle ∈ it,
        AllUnmarked (platform.bundleToString bundle) ∧ EntriesUnmarked platform bundle := by
  induction bundles with
  | nil => exact iff_of_true trivial (fun it hit => nomatch hit)
  | cons it bundles ih =>
    rw [List.forall_mem_cons, ← ih]
    cases it with
    | none =>
      have hnull : AllUnmarked (units "null") :=
        marginFree_true_iff.1 (plain_null.marginFree true)
      simp [ofBundles, ItemsUnmarked, hnull]
    | some bundle => simp [ofBundles, ItemsUnmarked]

/-! ## Messages with a bundle -/

theorem isBlank_spaces (n : Nat) : isBlank (spaces n) = true := by
  refine List.all_eq_true.2 fun c hc => ?_
  rw [List.eq_of_mem_replicate hc]
  rfl

theorem isLine_spaces (n : Nat) : IsLine (spaces n) :=
  ⟨fun h => absurd (List.eq_of_mem_replicate h) (by decide),
    fun h => absurd (List.eq_of_mem_replicate h) (by decide)⟩

theorem getLast?_concat_ne_cr {text : Units} {c : BitVec 16} (hc : c ≠ cr) :
    (text ++ [c]).getLast? ≠ some cr := by
  rw [List.getLast?_concat, ne_eq, Option.some.injEq]
  exact hc

/-- What is printed for a bundle ends in a bracket. -/
theorem printBundle_concat (platform : Platform) (bundle : Option BaseBundle) :
    ∃ text c, c ≠ cr ∧ printBundle platform bundle = text ++ [c] := by
  cases bundle with
  | none => exact ⟨units "(null", 0x29, by decide, rfl⟩
  | some bundle =>
    refine ⟨platform.bundleToString bundle ++ units ":\x7b" ++
      prependIndent (units "  ") (printEntries platform bundle) ++ [lf], 0x7D, by decide, ?_⟩
    rw [List.append_assoc]
    rfl

/-- The message is the heading and the bundle, of which the margins are taken off. -/
theorem bundleMessage_eq {platform : Platform} {indent : Nat} {heading : String}
    {bundle : Option BaseBundle} (hheading : IsLine (units heading)) :
    bundleMessage platform indent heading bundle =
      units heading ++ lf :: trimTail (units "  " ++ printBundle platform bundle) := by
  have hends : ∀ text ∈ [units heading, units "  " ++ printBundle platform bundle],
      text.getLast? ≠ some cr := by
    intro text htext
    rcases List.mem_cons.1 htext with rfl | htext
    · exact hheading.getLast?
    · obtain ⟨printed, c, hc, hprinted⟩ := printBundle_concat platform bundle
      rw [List.mem_singleton.1 htext, hprinted, ← List.append_assoc]
      exact getLast?_concat_ne_cr hc
  rw [bundleMessage, trimMargin_rawTemplate (isBlank_spaces indent) (isLine_spaces indent) hends]
  simp [joinLines, trimTail_line hheading]

/-- What a bundle has to be like for a message with it to stay intact: nothing in it is marked where
it is printed, and its `toString` has no `\r`. -/
def BundleUnmarked (platform : Platform) (bundle : Option BaseBundle) : Prop :=
  ∀ b ∈ bundle, (cr ∉ platform.bundleToString b ∧ OthersUnmarked (platform.bundleToString b)) ∧
    EntriesUnmarked platform b

/-- A bundle is printed without `\r` if its `toString` has none: its entries are indented. -/
theorem cr_not_mem_printAround {platform : Platform} {bundle : BaseBundle} {out : Units} :
    cr ∉ printAround platform bundle out ↔ cr ∉ platform.bundleToString bundle := by
  have hopen : cr ∉ units ":\x7b" := by decide
  have hclose : cr ∉ units "\n\x7d" := by decide
  have hout := cr_not_mem_prependIndent isLine_indent out
  simp [printAround, hopen, hclose, hout]

/-- The message of a bundle: the heading and, indented by two spaces, what `printBundle` returns. -/
def intactMessage (platform : Platform) (heading : String) (bundle : Option BaseBundle) : Units :=
  units heading ++ units "\n  " ++ printBundle platform bundle

/-- A message with a bundle is intact exactly if nothing in the bundle is marked. -/
theorem bundleMessage_eq_intact_iff {platform : Platform} {indent : Nat} {heading : String}
    {bundle : Option BaseBundle} (hheading : IsLine (units heading)) :
    bundleMessage platform indent heading bundle = intactMessage platform heading bundle ↔
      BundleUnmarked platform bundle := by
  have hindent : cr ∉ units "  " := isLine_indent.2
  have hintact : intactMessage platform heading bundle =
      units heading ++ lf :: (units "  " ++ printBundle platform bundle) := by
    rw [intactMessage, List.append_assoc]
    rfl
  have htrim :
      bundleMessage platform indent heading bundle = intactMessage platform heading bundle ↔
        cr ∉ printBundle platform bundle ∧ MarginFree false (printBundle platform bundle) := by
    rw [bundleMessage_eq hheading, hintact, List.append_cancel_left_eq, List.cons.injEq,
      and_iff_right rfl, trimTail_eq_self_iff, splitLines_append_line isLine_indent,
      ← marginFree_false_iff, List.mem_append, or_iff_right hindent]
  rw [htrim]
  cases bundle with
  | none =>
    exact iff_of_true ⟨plain_nullBundle.isLine.2, plain_nullBundle.marginFree false⟩
      (fun b hb => nomatch hb)
  | some b =>
    rw [printBundle, cr_not_mem_printAround, marginFree_printAround, marginFree_printEntries,
      marginFree_false_iff]
    simp [BundleUnmarked, OthersUnmarked, and_assoc]

/-! ## Properties -/

/-- What is left of the properties without the percentage and the status. -/
def remaining (properties : BaseBundle) : BaseBundle :=
  (properties.remove percentageKey).remove statusKey

/-- There is nothing to remove where there is no such key. -/
theorem BaseBundle.remove_of_not_containsKey {key : Units} :
    ∀ {bundle : BaseBundle}, bundle.containsKey key = false → bundle.remove key = bundle
  | .empty, _ => rfl
  | .entry key' value rest, h => by
    unfold BaseBundle.containsKey BaseBundle.get at h
    unfold BaseBundle.remove
    split at h
    · cases h
    · rename_i hkey
      rw [if_neg hkey, BaseBundle.remove_of_not_containsKey h]

/-- The first branches leave what is neither a percentage nor a status. -/
theorem takeKnownProperties_snd (properties : BaseBundle) :
    (takeKnownProperties properties).2 = remaining properties := by
  have hstatus : ∀ first : List Units × BaseBundle,
      (if first.2.containsKey statusKey then
        (first.1 ++ [units "daemon status: " ++ nullableText
          ((FwupdStatus.fromInt (first.2.getInt statusKey)).map fun s => units s.name)],
          first.2.remove statusKey)
      else first).2 = first.2.remove statusKey := by
    intro first
    split
    · rfl
    · rename_i hkey
      exact (BaseBundle.remove_of_not_containsKey (Bool.eq_false_iff.2 hkey)).symm
  unfold takeKnownProperties remaining
  rw [hstatus]
  split
  · rfl
  · rename_i hkey
    rw [BaseBundle.remove_of_not_containsKey (Bool.eq_false_iff.2 hkey)]

/-- The last branch of `onPropertiesChanged` logs the remaining properties. -/
theorem onPropertiesChanged_getLast? {platform : Platform} {properties : BaseBundle}
    (h : (remaining properties).isEmpty = false) :
    (onPropertiesChanged platform (some properties)).getLast? =
      some (bundleMessage platform 20 "properties changed" (some (remaining properties))) := by
  rw [← takeKnownProperties_snd] at h ⊢
  rw [onPropertiesChanged, h, if_neg Bool.false_ne_true, List.getLast?_concat]

/-! ## Messages with an array of bundles -/

/-- What an array of bundles has to be like for the message with it to stay intact. -/
def BundlesUnmarked (platform : Platform) (bundles : Option (List (Option BaseBundle))) : Prop :=
  ∀ array ∈ bundles, ∀ it ∈ array, ∀ bundle ∈ it,
    AllUnmarked (platform.bundleToString bundle) ∧ EntriesUnmarked platform bundle

/-- Where nothing in the bundles is marked, the array is printed without marked lines. -/
theorem marginFree_printArray (platform : Platform) (bundles : Option (List (Option BaseBundle))) :
    MarginFree false (printArray platform (bundles.map ofBundles)) ↔
      BundlesUnmarked platform bundles := by
  cases bundles with
  | none =>
    exact iff_of_true (plain_nullBundle.marginFree false) (fun array harray => nomatch harray)
  | some array =>
    rw [Option.map_some, printArray, marginFree_joinElements, marginFree_printItems,
      itemsUnmarked_ofBundles]
    simp [BundlesUnmarked]

/-- The message of `onBundles` up to the comma behind the array: what `printArray` returns, with
two more spaces in front of its lines. -/
def intactBundles (platform : Platform) (count : BitVec 32)
    (bundles : Option (List (Option BaseBundle))) : Units :=
  units "listener bundles\n  " ++ numberText count.toInt ++ units ",\n" ++
    (prependIndent (units "  ") (printArray platform (bundles.map ofBundles)) ++ units ",")

/-- The message is put together of the parts of the template, without the margins of their lines
behind the first ones. -/
theorem onBundles_eq (platform : Platform) (count : BitVec 32)
    (bundles : Option (List (Option BaseBundle))) (status : Option Units) :
    onBundles platform count bundles status =
      [units "listener bundles\n  " ++ numberText count.toInt ++ units ",\n" ++
        (trimTail (prependIndent (units "  ") (printArray platform (bundles.map ofBundles)) ++
          units ",") ++ lf :: trimTail (units "  " ++ nullableText status ++ units ","))] := by
  have hheading : IsLine (units "listener bundles") := by decide
  have hcount : IsLine (units "  " ++ numberText count.toInt ++ units ",") :=
    (isLine_indent.append (plain_numberText _).isLine).append plain_comma.isLine
  have hcomma : ∀ text : Units, (text ++ units ",").getLast? ≠ some cr := fun text =>
    getLast?_concat_ne_cr (plain_comma _ List.mem_cons_self).2.1
  have hends : ∀ text ∈ [units "listener bundles",
      units "  " ++ numberText count.toInt ++ units ",",
      prependIndent (units "  ") (printArray platform (bundles.map ofBundles)) ++ units ",",
      units "  " ++ nullableText status ++ units ","], text.getLast? ≠ some cr := by
    intro text htext
    simp only [List.mem_cons, List.not_mem_nil, or_false] at htext
    rcases htext with rfl | rfl | rfl | rfl
    · exact hheading.getLast?
    · exact hcount.getLast?
    · exact hcomma _
    · exact hcomma _
  have hfirst : units "listener bundles\n  " = units "listener bundles" ++ lf :: units "  " := rfl
  have hsecond : units ",\n" = units "," ++ [lf] := rfl
  rw [onBundles, trimMargin_rawTemplate (isBlank_spaces 20) (isLine_spaces 20) hends, hfirst,
    hsecond]
  simp only [List.map_cons, List.map_nil, trimTail_line hheading, trimTail_line hcount]
  simp only [joinLines, List.flatMap_cons, List.flatMap_nil, List.append_nil, List.append_assoc,
    List.cons_append, List.nil_append]

/-- The message of `onBundles` has the array intact exactly if nothing in it is marked. -/
theorem intactBundles_prefix_iff {platform : Platform} {count : BitVec 32}
    {bundles : Option (List (Option BaseBundle))} {status : Option Units} :
    (∃ message ∈ onBundles platform count bundles status,
      intactBundles platform count bundles <+: message) ↔ BundlesUnmarked platform bundles := by
  have hcr : cr ∉ prependIndent (units "  ") (printArray platform (bundles.map ofBundles)) ++
      units "," := by
    rw [List.mem_append, or_iff_left plain_comma.isLine.2]
    exact cr_not_mem_prependIndent isLine_indent _
  have hend : MarginFree false [] := rfl
  rw [onBundles_eq, ← marginFree_printArray]
  simp only [List.mem_singleton, exists_eq_left, intactBundles, List.prefix_append_right_inj]
  rw [prefix_trimTail_iff hcr, ← marginFree_false_iff]
  generalize printArray platform (bundles.map ofBundles) = text
  calc MarginFree false (prependIndent (units "  ") text ++ units ",")
      ↔ MarginFree false (prependIndent (units "  ") text) ∧ MarginFree false [] :=
        marginFree_append step_comma
    _ ↔ MarginFree false text := by
        rw [and_iff_left hend, marginFree_prependIndent isBlank_indent isLine_indent]

/-! ## The listeners -/

/-- The listeners log what the printers return as it is. -/
structure LogsIntact (platform : Platform) (device properties : Option BaseBundle)
    (count : BitVec 32) (bundles : Option (List (Option BaseBundle))) (status : Option Units) :
    Prop where
  onDeviceAdded : onDeviceAdded platform device = [intactMessage platform "device added" device]
  onDeviceRemoved :
    onDeviceRemoved platform device = [intactMessage platform "device removed" device]
  onDeviceChanged :
    onDeviceChanged platform device = [intactMessage platform "device changed" device]
  onDeviceRequest :
    onDeviceRequest platform device = [intactMessage platform "device request" device]
  onPropertiesChanged : ∀ p ∈ properties, (remaining p).isEmpty = false →
    (onPropertiesChanged platform properties).getLast? =
      some (intactMessage platform "properties changed" (some (remaining p)))
  onBundles : ∃ message ∈ onBundles platform count bundles status,
    intactBundles platform count bundles <+: message

/-- What has to be true of the bundles for the listeners to log them intact. -/
structure NothingMarked (platform : Platform) (device properties : Option BaseBundle)
    (bundles : Option (List (Option BaseBundle))) : Prop where
  device : BundleUnmarked platform device
  properties : ∀ p ∈ properties, (remaining p).isEmpty = false →
    BundleUnmarked platform (some (remaining p))
  bundles : BundlesUnmarked platform bundles

/-- The listeners log a bundle intact exactly if nothing in it is marked. -/
theorem logsIntact_iff (platform : Platform) (device properties : Option BaseBundle)
    (count : BitVec 32) (bundles : Option (List (Option BaseBundle))) (status : Option Units) :
    LogsIntact platform device properties count bundles status ↔
      NothingMarked platform device properties bundles := by
  have hmessage : ∀ heading, IsLine (units heading) →
      ([bundleMessage platform 16 heading device] = [intactMessage platform heading device] ↔
        BundleUnmarked platform device) := by
    intro heading hheading
    rw [List.cons.injEq, and_iff_left rfl, bundleMessage_eq_intact_iff hheading]
  have hproperties : ∀ p ∈ properties, (remaining p).isEmpty = false →
      ((MainActivity.onPropertiesChanged platform properties).getLast? =
        some (intactMessage platform "properties changed" (some (remaining p))) ↔
          BundleUnmarked platform (some (remaining p))) := by
    rintro p rfl hremaining
    have hheading : IsLine (units "properties changed") := by decide
    rw [onPropertiesChanged_getLast? hremaining, Option.some.injEq,
      bundleMessage_eq_intact_iff hheading]
  have hadded := hmessage "device added" (by decide)
  have hremoved := hmessage "device removed" (by decide)
  have hchanged := hmessage "device changed" (by decide)
  have hrequest := hmessage "device request" (by decide)
  refine ⟨fun h => ?_, fun h => ?_⟩
  · exact ⟨hadded.1 h.onDeviceAdded,
      fun p hp hremaining =>
        (hproperties p hp hremaining).1 (h.onPropertiesChanged p hp hremaining),
      intactBundles_prefix_iff.1 h.onBundles⟩
  · exact ⟨hadded.2 h.device, hremoved.2 h.device, hchanged.2 h.device, hrequest.2 h.device,
      fun p hp hremaining => (hproperties p hp hremaining).2 (h.properties p hp hremaining),
      intactBundles_prefix_iff.2 h.bundles⟩

/-- An array in `PersistableBundle.toString`. -/
def toStringArray (elements : List Units) : Units :=
  units "[" ++ List.intercalate (units ", ") elements ++ units "]"

/-- A bundle in `PersistableBundle.toString`. -/
def toStringMap (entries : List Units) : Units :=
  units "PersistableBundle[\x7b" ++ List.intercalate (units ", ") entries ++ units "\x7d]"

mutual

/-- A value in `PersistableBundle.toString`. The digits of a `Double` are left out. -/
def toStringValue : Value → Units
  | .null => units "null"
  | .boolean value => booleanText value
  | .int value => numberText value.toInt
  | .long value => numberText value.toInt
  | .double _ => units "0.0"
  | .string value => value
  | .booleanArray values => toStringArray (values.map booleanText)
  | .intArray values => toStringArray (values.map fun value => numberText value.toInt)
  | .longArray values => toStringArray (values.map fun value => numberText value.toInt)
  | .doubleArray values => toStringArray (values.map fun _ => units "0.0")
  | .stringArray values => toStringArray (values.map nullableText)
  | .bundle bundle => toStringMap (toStringEntries bundle)

/-- The entries in `PersistableBundle.toString`. -/
def toStringEntries : BaseBundle → List Units
  | .empty => []
  | .entry key value rest =>
    (nullableText key ++ units "=" ++ toStringValue value) :: toStringEntries rest

end

/-- A platform whose bundles are without numbers of type `Double`. -/
def androidPlatform : Platform where
  bundleToString bundle := toStringMap (toStringEntries bundle)
  doubleToString _ := units "0.0"
  doubleToString_plain _ := by
    show Plain (units "0.0")
    decide

/-- A device with a description of two lines, the second of which starts with the margin prefix. -/
def markedDevice : BaseBundle :=
  .entry (some (units "Description")) (.string (units "one\n|two")) .empty

/-- The second line of the description loses its first character. -/
theorem markedDevice_not_intact :
    ¬ LogsIntact androidPlatform (some markedDevice) none 0 none none := by
  intro h
  have hmessage := (List.cons.inj h.onDeviceAdded).1
  have hheading : IsLine (units "device added") := by decide
  obtain ⟨-, -, hvalue, -⟩ := (bundleMessage_eq_intact_iff hheading).1 hmessage markedDevice rfl
  exact hvalue (units "|two") (by decide) (by decide)

end FwupdPoc.MainActivity

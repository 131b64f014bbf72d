import FwupdPoc.VardictToBundle.Spec
import FwupdPoc.Ndk.Reference

/-!
# The entries in the bundle

Which keys a bundle has and of which kinds its entries are, for vardicts with values of any type.
The purpose is a bundle of the representable entries: along every path of keys it should hold what
the last representable entry of each key says. The switch also puts an entry for every dictionary
that is not a vardict, an empty child bundle, since the recursive call is taken on the first
character of the element type alone. `shapeFaithful_iff` says exactly when that is not seen.
-/

namespace FwupdPoc

open Keyed

variable {B : Type}

/-! ## The purpose -/

/-- Looks a path of keys up in a variant, always at the last representable entry of a key. -/
def representableAt (v : GVariant) (path : List GString) : Option GVariant :=
  walk (lastEntry GVariant.representable) v path

/-- The entry of the bundle is the one of a representable value: it has the kind of the value, and
unless it is a child bundle it is what the value alone is stored as. -/
def EntryOf (api : PersistableBundle B) (x : BundleValue B) (w : GVariant) : Prop :=
  w.type.bundleKind = some x.kind ∧ (w.type ≠ .vardict → storedValue api w = some x)

/-- The bundle of a variant has, along every path of keys, the entry of the last representable value
there, and no entry where there is none. -/
def ShapeFaithful (api : PersistableBundle B) (v : GVariant) : Prop :=
  ∀ path, Option.Rel (EntryOf api) (bundleAt api (pocVardictToBundle api v.value) path)
    (representableAt v path)

/-! ## The condition -/

/-- The last entry of a key that the switch handles is representable, or the empty bundle it becomes
is the one of the last representable entry too: a vardict without representable entries. -/
def CleanEntry (v : GVariant) (key : GString) : Prop :=
  ∀ w, lastEntry GVariant.handled v key = some w →
    w.representable = true ∨
      ∃ u, lastEntry GVariant.representable v key = some u ∧ u.type = .vardict ∧
        ∀ key', lastEntry GVariant.representable u key' = none

/-- All entries that are reached along the last handled entries are clean. -/
def CleanEntries (v : GVariant) : Prop :=
  ∀ path u, walk (lastEntry GVariant.handled) v path = some u → ∀ key, CleanEntry u key

/-- Only a vardict has entries. -/
theorem lastEntry_eq_none {p : GVariant → Bool} {v : GVariant} (h : v.type ≠ .vardict)
    (key : GString) : lastEntry p v key = none := by
  rw [lastEntry, GVariant.entries_eq_nil h]
  rfl

/-- Where the last handled entry is representable, it is the last representable one. -/
theorem lastEntry_representable {v w : GVariant} {key : GString}
    (h : lastEntry GVariant.handled v key = some w) (hw : w.representable = true) :
    lastEntry GVariant.representable v key = some w := by
  have hfilter := lastSome_filter h hw
  have hboth : ∀ o : Option GVariant,
      (o.filter GVariant.handled).filter GVariant.representable =
        o.filter GVariant.representable := by
    intro o
    cases o with
    | none => rfl
    | some u =>
      cases hu : u.representable with
      | true => simp [Option.filter, hu, GVariant.handled_of_representable hu]
      | false => cases hu' : u.handled <;> simp [Option.filter, hu, hu']
  simp only [hboth] at hfilter
  exact hfilter

/-- Where nothing handled has the key, nothing representable has it. -/
theorem lastEntry_representable_none {v : GVariant} {key : GString}
    (h : lastEntry GVariant.handled v key = none) :
    lastEntry GVariant.representable v key = none := by
  refine lastSome_eq_none.2 fun e he => ?_
  have hnone := lastSome_eq_none.1 h e he
  cases ho : (if e.1 = key then some e.2 else none) with
  | none => rfl
  | some u =>
    rw [ho] at hnone
    cases hu : u.representable with
    | true => simp [Option.filter, GVariant.handled_of_representable hu] at hnone
    | false => simp [Option.filter, hu]

/-- A handled value that is not representable is a dictionary of another type, stored as an empty
bundle. -/
theorem storedValue_foreign (api : PersistableBundle B) {w : GVariant} (hw : w.handled = true)
    (hrep : w.representable = false) :
    w.type ≠ .vardict ∧
      ∃ b, storedValue api w = some (.bundle b) ∧ ∀ key, api.get b key = none := by
  have hne : w.type ≠ .vardict := by
    intro h
    rw [GVariant.representable, h] at hrep
    cases hrep
  refine ⟨hne, ?_⟩
  rcases GVariant.handled_iff.1 hw with h | ⟨k, u, ht⟩
  · rw [hrep] at h
    cases h
  · refine ⟨pocVardictToBundle api w.value, ?_, ?_⟩
    · obtain ⟨t, value⟩ := w
      cases ht
      rfl
    · intro key
      rw [get_pocVardictToBundle, lastEntry_eq_none hne]
      rfl

/-- Only vardicts become child bundles in the table. -/
theorem type_of_bundleKind {t : GVariantType} (h : t.bundleKind = some .bundle) : t = .vardict := by
  cases t with
  | array e =>
    cases e with
    | dictEntry k u => cases k <;> cases u <;> first | rfl | cases h
    | _ => cases h
  | _ => cases h

/-- The child bundle stored for a vardict is the one of the recursive call. -/
theorem storedValue_vardict (api : PersistableBundle B) {v : GVariant} (h : v.type = .vardict) :
    storedValue api v = some (.bundle (pocVardictToBundle api v.value)) := by
  obtain ⟨t, value⟩ := v
  cases h
  rfl

/-- The lookup of a path one step down in the bundle of a variant. -/
theorem bundleAt_cons (api : PersistableBundle B) (v : GVariant) (key : GString)
    (path : List GString) :
    bundleAt api (pocVardictToBundle api v.value) (key :: path) =
      ((lastEntry GVariant.handled v key).bind (storedValue api)).bind
        (walk (BundleValue.child api) · path) := by
  rw [bundleAt, walk_cons, BundleValue.child, get_pocVardictToBundle]

/-! ## Sufficiency -/

/-- An entry of the bundle next to the representable value it should be the entry of: it comes from
that value, or from a dictionary of another type where that value is an empty vardict. -/
def Tracks (api : PersistableBundle B) (x : BundleValue B) (w : GVariant) : Prop :=
  ∃ c, storedValue api c = some x ∧ CleanEntries c ∧
    ((c = w ∧ w.representable = true) ∨
      (c.type ≠ .vardict ∧ (∃ b, x = .bundle b) ∧ w.type = .vardict ∧
        ∀ key, lastEntry GVariant.representable w key = none))

/-- What holds along all paths holds along the paths of an entry. -/
theorem CleanEntries.entry {v u : GVariant} {key : GString} (h : CleanEntries v)
    (hu : lastEntry GVariant.handled v key = some u) : CleanEntries u := by
  intro path w hw
  refine h (key :: path) w ?_
  rw [walk_cons, hu]
  exact hw

/-- A clean entry is tracked. -/
theorem tracks_entry (api : PersistableBundle B) {v : GVariant} (hv : CleanEntries v)
    (key : GString) :
    Option.Rel (Tracks api) ((lastEntry GVariant.handled v key).bind (storedValue api))
      (lastEntry GVariant.representable v key) := by
  cases hw : lastEntry GVariant.handled v key with
  | none =>
    rw [lastEntry_representable_none hw]
    exact .none
  | some w =>
    have hclean := hv.entry hw
    cases hrep : w.representable with
    | true =>
      obtain ⟨x, hx, -⟩ := storedValue_kind api hrep
      rw [lastEntry_representable hw hrep, Option.bind_some, hx]
      exact .some ⟨w, hx, hclean, .inl ⟨rfl, hrep⟩⟩
    | false =>
      obtain ⟨hne, b, hb, -⟩ := storedValue_foreign api (lastEntry_holds hw) hrep
      rcases hv [] v rfl key w hw with h | ⟨u, hu, hut, hnone⟩
      · rw [hrep] at h
        cases h
      · rw [hu, Option.bind_some, hb]
        exact .some ⟨w, hb, hclean, .inr ⟨hne, ⟨b, rfl⟩, hut, hnone⟩⟩

/-- A tracked entry has tracked entries below it. -/
theorem tracks_child (api : PersistableBundle B) (x : BundleValue B) (w : GVariant) (key : GString)
    (h : Tracks api x w) :
    Option.Rel (Tracks api) (x.child api key) (lastEntry GVariant.representable w key) := by
  obtain ⟨c, hx, hclean, ⟨rfl, -⟩ | ⟨hne, ⟨b, rfl⟩, -, hnone⟩⟩ := h
  · by_cases ht : c.type = .vardict
    · obtain rfl := Option.some.inj ((storedValue_vardict api ht).symm.trans hx)
      rw [BundleValue.child, get_pocVardictToBundle]
      exact tracks_entry api hclean key
    · rw [lastEntry_eq_none ht]
      cases x with
      | bundle b =>
        obtain ⟨k, u, hd⟩ := type_of_storedValue_bundle api hx
        obtain ⟨t, value⟩ := c
        cases hd
        obtain rfl := BundleValue.bundle.inj (Option.some.inj hx)
        rw [BundleValue.child, get_pocVardictToBundle api ⟨_, value⟩, lastEntry_eq_none ht]
        exact .none
      | _ => exact .none
  · rw [hnone]
    obtain ⟨k, u, hd⟩ := type_of_storedValue_bundle api hx
    obtain ⟨t, value⟩ := c
    cases hd
    obtain rfl := BundleValue.bundle.inj (Option.some.inj hx)
    rw [BundleValue.child, get_pocVardictToBundle api ⟨_, value⟩, lastEntry_eq_none hne]
    exact .none

/-- A tracked entry is the entry of its value. -/
theorem Tracks.entryOf {api : PersistableBundle B} {x : BundleValue B} {w : GVariant}
    (h : Tracks api x w) : EntryOf api x w := by
  obtain ⟨c, hx, -, ⟨rfl, hrep⟩ | ⟨-, ⟨b, rfl⟩, ht, -⟩⟩ := h
  · obtain ⟨y, hy, hkind⟩ := storedValue_kind api hrep
    obtain rfl := Option.some.inj (hx.symm.trans hy)
    exact ⟨hkind, fun _ => hx⟩
  · rw [EntryOf, ht]
    exact ⟨rfl, fun h => absurd rfl h⟩

theorem shapeFaithful_of_clean (api : PersistableBundle B) {v : GVariant} (ht : v.type = .vardict)
    (h : CleanEntries v) : ShapeFaithful api v := by
  intro path
  have hrep : v.representable = true := by
    rw [GVariant.representable, ht]
    rfl
  have hroot : Tracks api (.bundle (pocVardictToBundle api v.value)) v :=
    ⟨v, storedValue_vardict api ht, h, .inl ⟨rfl, hrep⟩⟩
  have hrel := walk_rel (tracks_child api) path hroot
  rw [bundleAt, representableAt]
  generalize walk (BundleValue.child api) _ path = x at hrel ⊢
  generalize walk (lastEntry GVariant.representable) v path = w at hrel ⊢
  cases hrel with
  | some htracks => exact .some htracks.entryOf
  | none => exact .none

/-! ## Necessity -/

/-- The bundle of a vardict in the bundle has the entries it should have, if the whole bundle
does. -/
theorem ShapeFaithful.entry {api : PersistableBundle B} {v c : GVariant} {key : GString}
    (h : ShapeFaithful api v) (hc : lastEntry GVariant.handled v key = some c)
    (ht : c.type = .vardict) : ShapeFaithful api c := by
  intro path
  have hrel := h (key :: path)
  have hrep : c.representable = true := by
    rw [GVariant.representable, ht]
    rfl
  rw [bundleAt_cons, hc, Option.bind_some, storedValue_vardict api ht, Option.bind_some,
    representableAt, walk_cons, lastEntry_representable hc hrep, Option.bind_some] at hrel
  exact hrel

/-- Where the bundle has the entries it should have, each of its keys is clean. -/
theorem ShapeFaithful.cleanEntry {api : PersistableBundle B} {v : GVariant}
    (h : ShapeFaithful api v) (key : GString) : CleanEntry v key := by
  intro w hw
  cases hrep : w.representable with
  | true => exact .inl rfl
  | false =>
    refine .inr ?_
    obtain ⟨-, b, hb, hempty⟩ := storedValue_foreign api (lastEntry_holds hw) hrep
    have hkey := h [key]
    have hbelow := fun key' => h [key, key']
    simp only [bundleAt_cons, hw, Option.bind_some, hb, walk_nil, walk_cons, representableAt,
      BundleValue.child, hempty, Option.bind_none] at hkey hbelow
    cases hu : lastEntry GVariant.representable v key with
    | none =>
      rw [hu] at hkey
      cases hkey
    | some u =>
      simp only [hu, Option.bind_some] at hkey hbelow
      cases hkey with
      | some hentry =>
        refine ⟨u, rfl, type_of_bundleKind hentry.1, ?_⟩
        intro key'
        have hnone := hbelow key'
        cases hu' : lastEntry GVariant.representable u key' with
        | none => rfl
        | some u' =>
          rw [hu'] at hnone
          cases hnone

theorem ShapeFaithful.clean {api : PersistableBundle B} {v : GVariant} (h : ShapeFaithful api v) :
    CleanEntries v := by
  intro path
  induction path generalizing v with
  | nil =>
    intro u hu key
    obtain rfl := Option.some.inj hu
    exact h.cleanEntry key
  | cons k path ih =>
    intro u hu key
    rw [walk_cons] at hu
    cases hc : lastEntry GVariant.handled v k with
    | none =>
      rw [hc] at hu
      cases hu
    | some c =>
      rw [hc, Option.bind_some] at hu
      by_cases ht : c.type = .vardict
      · exact ih (h.entry hc ht) u hu key
      · -- nothing is below a value that is no vardict
        cases path with
        | nil =>
          obtain rfl := Option.some.inj hu
          intro w hw
          rw [lastEntry_eq_none ht] at hw
          cases hw
        | cons k' path =>
          rw [walk_cons, lastEntry_eq_none ht] at hu
          cases hu

/-- **The bundle of a vardict has the entries of its last representable values, and no others,
exactly when the entries are clean.** -/
theorem shapeFaithful_iff (api : PersistableBundle B) (v : GValue .vardict) :
    ShapeFaithful api ⟨_, v⟩ ↔ CleanEntries ⟨_, v⟩ :=
  ⟨ShapeFaithful.clean, shapeFaithful_of_clean api rfl⟩

/-- The vardict whose one entry is a dictionary of strings. -/
def stringDictEntry : GValue .vardict :=
  singleEntry (.ofLiteral "strings")
    (.array (.cons (.dictEntry (.string (.ofLiteral "key")) (.string (.ofLiteral "value"))) .nil))

/-- The dictionary of strings is not representable, and an empty child bundle is put for it. -/
theorem stringDictEntry_leaves_bundle :
    lastEntry GVariant.representable ⟨_, stringDictEntry⟩ (.ofLiteral "strings") = none ∧
      bundleAt mapBundle (pocVardictToBundle mapBundle stringDictEntry) [.ofLiteral "strings"] =
        some (.bundle mapBundle.new) ∧
      ¬ ShapeFaithful mapBundle ⟨_, stringDictEntry⟩ := by
  refine ⟨rfl, rfl, ?_⟩
  intro h
  have hkey := h [.ofLiteral "strings"]
  cases hkey

end FwupdPoc

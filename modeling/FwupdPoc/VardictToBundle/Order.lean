import FwupdPoc.Ndk.Reference
import FwupdPoc.VardictToBundle.Spec

/-!
# The order of the entries

A vardict that comes out of a `GVariantDict` has its entries in the order of a hash table, which is
not specified, and the vardicts that are entries of it do too. `Reordered` are the vardicts that one
gets from each other by exchanging neighbouring entries with different keys, at any depth; these are
all orders of distinct keys (`Reordered.of_perm`). What is found in the bundle of a vardict along a
path of keys does not depend on the order (`bundleAt_reordered`).
-/

namespace FwupdPoc

open Keyed

variable {B : Type}

/-! ## Orders -/

/-- The type of the entries of a vardict. -/
abbrev GVariantType.entry : GVariantType := .dictEntry .string .variant

/-- An entry of a vardict. -/
def vardictEntry (e : GString × GVariant) : GValue .entry :=
  .dictEntry (.string e.1) (.variant e.2.value)

/-- The items of a vardict with these entries. -/
def vardictItems (entries : List (GString × GVariant)) : GItems .entry :=
  .ofList (entries.map vardictEntry)

/-- The items of vardicts that differ in the order of entries with different keys, in the vardict
or in one that is the value of an entry, and so on. -/
inductive Reordered : GItems .entry → GItems .entry → Prop
  | refl (items : GItems .entry) : Reordered items items
  | swap {e e' : GString × GVariant} (hkeys : e.1 ≠ e'.1) (rest : GItems .entry) :
    Reordered (.cons (vardictEntry e) (.cons (vardictEntry e') rest))
      (.cons (vardictEntry e') (.cons (vardictEntry e) rest))
  | cons (head : GValue .entry) {rest rest' : GItems .entry} (h : Reordered rest rest') :
    Reordered (.cons head rest) (.cons head rest')
  | inner (key : GString) {items items' : GItems .entry} (h : Reordered items items')
    (rest : GItems .entry) :
    Reordered (.cons (vardictEntry (key, ⟨.vardict, .array items⟩)) rest)
      (.cons (vardictEntry (key, ⟨.vardict, .array items'⟩)) rest)
  | trans {items items' items'' : GItems .entry} (h : Reordered items items')
    (h' : Reordered items' items'') : Reordered items items''

/-- Any order of entries with distinct keys. -/
theorem Reordered.of_perm {entries entries' : List (GString × GVariant)}
    (hperm : entries.Perm entries') (hkeys : (entries.map Prod.fst).Nodup) :
    Reordered (vardictItems entries) (vardictItems entries') := by
  induction hperm with
  | nil => exact .refl _
  | cons e hperm ih =>
    rw [List.map_cons, List.nodup_cons] at hkeys
    exact .cons _ (ih hkeys.2)
  | swap e e' entries =>
    rw [List.map_cons, List.map_cons, List.nodup_cons, List.mem_cons, not_or] at hkeys
    exact .swap hkeys.1.1 _
  | trans hperm _ ih ih' =>
    exact (ih hkeys).trans (ih' ((hperm.map Prod.fst).nodup_iff.1 hkeys))

/-! ## Lookups -/

/-- Variants that are the same, or vardicts in different orders. -/
def SameUpToOrder (v v' : GVariant) : Prop :=
  v = v' ∨ ∃ items items', Reordered items items' ∧ v = ⟨.vardict, .array items⟩ ∧
    v' = ⟨.vardict, .array items'⟩

/-- Stored values that are the same, or the bundles of vardicts in different orders. -/
def SameStored (api : PersistableBundle B) (x x' : BundleValue B) : Prop :=
  x = x' ∨ ∃ items items', Reordered items items' ∧
    x = .bundle (pocVardictToBundle api (.array items : GValue .vardict)) ∧
      x' = .bundle (pocVardictToBundle api (.array items' : GValue .vardict))

theorem SameUpToOrder.trans {v v' v'' : GVariant} (h : SameUpToOrder v v')
    (h' : SameUpToOrder v' v'') : SameUpToOrder v v'' := by
  rcases h with rfl | ⟨items, items', hitems, rfl, rfl⟩
  · exact h'
  rcases h' with rfl | ⟨items₁, items'', hitems', heq, rfl⟩
  · exact .inr ⟨items, items', hitems, rfl, rfl⟩
  · cases heq
    exact .inr ⟨items, items'', hitems.trans hitems', rfl, rfl⟩

/-- A relation that everything is in with itself. -/
theorem optionRel_refl {α : Type} {R : α → α → Prop} (h : ∀ a, R a a) : ∀ o : Option α,
    Option.Rel R o o
  | none => .none
  | some a => .some (h a)

theorem optionRel_trans {α : Type} {R : α → α → Prop} (htrans : ∀ a b c, R a b → R b c → R a c) :
    ∀ {o o' o'' : Option α}, Option.Rel R o o' → Option.Rel R o' o'' → Option.Rel R o o''
  | _, _, _, .none, .none => .none
  | _, _, _, .some h, .some h' => .some (htrans _ _ _ h h')

theorem SameUpToOrder.refl (v : GVariant) : SameUpToOrder v v := .inl rfl

/-- The value of an entry, if it is one of the key that the switch handles. -/
def entryHit (key : GString) (e : GString × GVariant) : Option GVariant :=
  (if e.1 = key then some e.2 else none).filter GVariant.handled

theorem entryHit_eq_none {key : GString} {e : GString × GVariant} (h : e.1 ≠ key) :
    entryHit key e = none := by
  rw [entryHit, if_neg h]
  rfl

/-- Every item of a vardict is an entry. -/
theorem exists_vardictEntry (head : GValue .entry) : ∃ e, head = vardictEntry e := by
  cases head with
  | dictEntry key value => cases key with
    | string key => cases value with
      | variant value => exact ⟨(key, ⟨_, value⟩), rfl⟩

/-- The last entry of a key is the same, up to the order of the entries in it. -/
theorem lastSome_reordered (key : GString) {items items' : GItems .entry}
    (h : Reordered items items') :
    Option.Rel SameUpToOrder (lastSome (entryHit key) items.entries)
      (lastSome (entryHit key) items'.entries) := by
  induction h with
  | refl items => exact optionRel_refl SameUpToOrder.refl _
  | @swap e e' hkeys rest =>
    have hone : entryHit key e = none ∨ entryHit key e' = none := by
      by_cases he : e.1 = key
      · exact .inr (entryHit_eq_none fun he' => hkeys (he.trans he'.symm))
      · exact .inl (entryHit_eq_none he)
    change Option.Rel _ (lastSome (entryHit key) (e :: e' :: rest.entries))
      (lastSome (entryHit key) (e' :: e :: rest.entries))
    rw [lastSome_swap hone]
    exact optionRel_refl SameUpToOrder.refl _
  | cons head _ ih =>
    obtain ⟨e, rfl⟩ := exists_vardictEntry head
    have hhead := optionRel_refl SameUpToOrder.refl (entryHit key e)
    exact lastSome_cons_rel hhead ih
  | @inner key' items items' h rest _ =>
    have hhead : Option.Rel SameUpToOrder (entryHit key (key', ⟨.vardict, .array items⟩))
        (entryHit key (key', ⟨.vardict, .array items'⟩)) := by
      unfold entryHit
      by_cases hkey : key' = key
      · rw [if_pos hkey, if_pos hkey]
        exact .some (.inr ⟨items, items', h, rfl, rfl⟩)
      · rw [if_neg hkey, if_neg hkey]
        exact .none
    exact lastSome_cons_rel hhead (optionRel_refl SameUpToOrder.refl _)
  | trans _ _ ih ih' =>
    have htrans : ∀ v v' v'', SameUpToOrder v v' → SameUpToOrder v' v'' → SameUpToOrder v v'' :=
      fun _ _ _ => SameUpToOrder.trans
    exact optionRel_trans htrans ih ih'

/-- What is stored for values that are the same up to their order. -/
theorem storedValue_sameUpToOrder (api : PersistableBundle B) {v v' : GVariant}
    (h : SameUpToOrder v v') :
    Option.Rel (SameStored api) (storedValue api v) (storedValue api v') := by
  rcases h with rfl | ⟨items, items', hitems, rfl, rfl⟩
  · exact optionRel_refl (fun _ => .inl rfl) _
  · exact .some (.inr ⟨items, items', hitems, rfl, rfl⟩)

/-- What stored values hold at a key is the same if they are. -/
theorem child_sameStored (api : PersistableBundle B) (x x' : BundleValue B) (key : GString)
    (h : SameStored api x x') :
    Option.Rel (SameStored api) (x.child api key) (x'.child api key) := by
  rcases h with rfl | ⟨items, items', hitems, rfl, rfl⟩
  · exact optionRel_refl (fun _ => .inl rfl) _
  · have hget : ∀ items : GItems .entry,
        api.get (pocVardictToBundle api (.array items : GValue .vardict)) key =
          (lastSome (entryHit key) items.entries).bind (storedValue api) := fun items =>
      get_pocVardictToBundle api ⟨.vardict, .array items⟩ key
    have hlast := lastSome_reordered key hitems
    rw [BundleValue.child, BundleValue.child, hget, hget]
    generalize lastSome _ items.entries = last at hlast ⊢
    generalize lastSome _ items'.entries = last' at hlast ⊢
    cases hlast with
    | none => exact .none
    | some hsame => exact storedValue_sameUpToOrder api hsame

/-- **What is found in the bundle of a vardict along any path of keys is the same for all orders of
the entries, in the vardict and in the vardicts below it, that keep the order of the entries of one
key: it is the same value, or a bundle on both sides.** -/
theorem bundleAt_reordered (api : PersistableBundle B) {items items' : GItems .entry}
    (h : Reordered items items') (path : List GString) :
    Option.Rel (fun x x' => x = x' ∨ x.kind = .bundle ∧ x'.kind = .bundle)
      (bundleAt api (pocVardictToBundle api (.array items : GValue .vardict)) path)
      (bundleAt api (pocVardictToBundle api (.array items' : GValue .vardict)) path) := by
  have hwalk := walk_rel (child_sameStored api) path (.inr ⟨items, items', h, rfl, rfl⟩)
  unfold bundleAt
  generalize walk _ _ path = found at hwalk ⊢
  generalize walk _ _ path = found' at hwalk ⊢
  cases hwalk with
  | none => exact .none
  | some hsame =>
    refine .some ?_
    rcases hsame with rfl | ⟨_, _, -, rfl, rfl⟩
    · exact .inl rfl
    · exact .inr ⟨rfl, rfl⟩

/-- A vardict with a boolean and a vardict of two numbers. -/
def someEntries (inner : List (GString × GVariant)) : List (GString × GVariant) :=
  [(.ofLiteral "flag", ⟨.boolean, .boolean true⟩),
    (.ofLiteral "inner", ⟨.vardict, .array (vardictItems inner)⟩)]

/-- Two numbers. -/
def someNumbers : List (GString × GVariant) :=
  [(.ofLiteral "one", ⟨.int32, .int32 1⟩), (.ofLiteral "two", ⟨.int32, .int32 2⟩)]

/-- Both vardicts may be enumerated from behind: the number in the inner one is found, in bundles
that were put together in different orders. -/
theorem bundleAt_reordered_reverse :
    Option.Rel (fun x x' => x = x' ∨ x.kind = .bundle ∧ x'.kind = .bundle)
      (bundleAt mapBundle (pocVardictToBundle mapBundle
        (.array (vardictItems (someEntries someNumbers)) : GValue .vardict))
          [.ofLiteral "inner", .ofLiteral "one"])
      (bundleAt mapBundle (pocVardictToBundle mapBundle
        (.array (vardictItems (someEntries someNumbers.reverse).reverse) : GValue .vardict))
          [.ofLiteral "inner", .ofLiteral "one"]) := by
  have hinner : Reordered (vardictItems (someEntries someNumbers))
      (vardictItems (someEntries someNumbers.reverse)) :=
    .cons _ (.inner _ (.of_perm (List.reverse_perm _).symm (by decide)) _)
  have houter : Reordered (vardictItems (someEntries someNumbers.reverse))
      (vardictItems (someEntries someNumbers.reverse).reverse) :=
    .of_perm (List.reverse_perm _).symm (by decide)
  exact bundleAt_reordered mapBundle (hinner.trans houter) _

end FwupdPoc

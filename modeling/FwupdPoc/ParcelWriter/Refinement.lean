import FwupdPoc.ParcelWriter

/-!
# The iterator and the index

`poc_parcel_variant_array_element_writer` ignores the index it is called with and takes the next
child from an iterator. `writeVariant` is what the function is for, a loop over the list of children
without any iterator, and `writeByIndex` is the writer that encodes child number `index` at each
call. The invariant of the callback loop (`InStep`) is that the iterator of the array stands at the
index while the iterators below it on the stack stay where they are; with it, the function, run to
any depth that its type needs, returns and leaves the parcel of `writeVariant`
(`pocParcelWriteVariant_refines`).
-/

namespace FwupdPoc

open Loop

variable {B : Type}

/-! ## The writers without iterators -/

/-- The size of a list of children and the children, up to the first error. -/
def writeArray {α : Type} (fate : Nat → BinderStatus)
    (body : α → Parcel B → BinderStatus × Parcel B) (l : List α) (p : Parcel B) :
    BinderStatus × Parcel B :=
  let written := p.write fate (.arraySize l.length)
  if written.1 = statusOk then forEach statusOk body l written.2 else written

/-- The children of an array that `poc_parcel_write_variant` asks for: as many as the `int32_t` size
says. -/
def GValue.passedItems {e : GVariantType} (v : GValue (.array e)) : List (GValue e) :=
  passArray v.items.toList

/-- What `poc_parcel_write_variant` writes, child by child. -/
def writeVariant (platform : Platform B) :
    (t : GVariantType) → GValue t → Parcel B → BinderStatus × Parcel B
  | .array e, v, p =>
    match encoding platform ⟨.array e, v⟩ with
    | .elements =>
      (statusOk, (writeArray platform.fate (writeVariant platform e) v.passedItems p).2)
    | leaf => leaf.run platform.fate p
  | t, v, p => (encoding platform ⟨t, v⟩).run platform.fate p

/-- The writer that encodes child number `index` at each call of the element writer. -/
def writeByIndex (platform : Platform B) :
    (t : GVariantType) → GValue t → World B Unit → Option (BinderStatus × World B Unit)
  | .array e, v, world =>
    match encoding platform ⟨.array e, v⟩ with
    | .elements =>
      let elementWriter := fun index world =>
        match v.items.toList[index]? with
        | some child => writeByIndex platform e child world
        | none => none
      (aParcelWriteParcelableArray platform.fate (int32Count v.items.toList.length) elementWriter
        world).map fun r => (statusOk, r.2)
    | leaf => some (world.onParcel fun p => leaf.run platform.fate p)
  | t, v, world => some (world.onParcel fun p => (encoding platform ⟨t, v⟩).run platform.fate p)

theorem writeArray_of_ok {α : Type} {fate : Nat → BinderStatus}
    {body : α → Parcel B → BinderStatus × Parcel B} {l : List α} {p : Parcel B}
    (h : (p.write fate (.arraySize l.length)).1 = statusOk) :
    writeArray fate body l p = forEach statusOk body l (p.write fate (.arraySize l.length)).2 :=
  if_pos h

theorem writeArray_of_error {α : Type} {fate : Nat → BinderStatus}
    {body : α → Parcel B → BinderStatus × Parcel B} {l : List α} {p : Parcel B}
    (h : (p.write fate (.arraySize l.length)).1 ≠ statusOk) :
    writeArray fate body l p = p.write fate (.arraySize l.length) :=
  if_neg h

/-- Only arrays are written child by child. -/
theorem type_of_elements {platform : Platform B} {v : GVariant}
    (h : encoding platform v = .elements) : ∃ e, v.type = .array e := by
  obtain ⟨t, value⟩ := v
  cases t with
  | array e => exact ⟨e, rfl⟩
  | _ => cases h

theorem writeVariant_leaf {platform : Platform B} {t : GVariantType} {v : GValue t}
    (h : encoding platform ⟨t, v⟩ ≠ .elements) (p : Parcel B) :
    writeVariant platform t v p = (encoding platform ⟨t, v⟩).run platform.fate p := by
  cases t with
  | array e =>
    rw [writeVariant]
    split
    · contradiction
    · rfl
  | _ => rfl

theorem writeVariant_elements {platform : Platform B} {e : GVariantType} {v : GValue (.array e)}
    (h : encoding platform ⟨_, v⟩ = .elements) (p : Parcel B) :
    writeVariant platform (.array e) v p =
      (statusOk, (writeArray platform.fate (writeVariant platform e) v.passedItems p).2) := by
  rw [writeVariant, h]

/-- As many children are passed as the size says. -/
theorem GValue.length_passedItems {e : GVariantType} (v : GValue (.array e)) :
    v.passedItems.length = int32Count v.items.toList.length := by
  rw [passedItems, passArray, List.length_take, Nat.min_eq_left (int32Count_le _)]

/-- A child that is passed is the child of its index. -/
theorem GValue.getElem?_items {e : GVariantType} (v : GValue (.array e)) {i : Nat}
    (hi : i < v.passedItems.length) : v.items.toList[i]? = some v.passedItems[i] := by
  have hlt : i < v.items.toList.length := by
    rw [v.length_passedItems] at hi
    exact Nat.lt_of_lt_of_le hi (int32Count_le _)
  simp only [passedItems, passArray, List.getElem_take]
  exact List.getElem?_eq_getElem hlt

/-! ## Parcelable arrays -/

/-- Where the element writer does at each index what `body` does with the child of that index,
`AParcel_writeParcelableArray` writes the array of the children, and the worlds stay related. -/
theorem aParcelWriteParcelableArray_sim {α S : Type} (fate : Nat → BinderStatus)
    {elementWriter : Nat → World B S → Option (BinderStatus × World B S)}
    {body : α → Parcel B → BinderStatus × Parcel B} (R : Nat → World B S → Parcel B → Prop)
    (l : List α) (world : World B S)
    (hbody : ∀ i (hi : i < l.length) world p, R i world p →
      ∃ world', elementWriter i world = some ((body l[i] p).1, world') ∧
        R (i + 1) world' (body l[i] p).2)
    (hstart : R 0 (world.onParcel (Parcel.write fate (.arraySize l.length))).2
      (world.parcel.write fate (.arraySize l.length)).2) :
    ∃ world' stop,
      aParcelWriteParcelableArray fate l.length elementWriter world =
        some ((writeArray fate body l world.parcel).1, world') ∧
      R stop world' (writeArray fate body l world.parcel).2 := by
  by_cases hok : (world.parcel.write fate (.arraySize l.length)).1 = statusOk
  · obtain ⟨world', stop, hrun, hR⟩ :=
      forIndex_sim statusOk R l 0 (by simpa only [Nat.zero_add] using hbody) _ _ hstart
    rw [writeArray_of_ok hok]
    exact ⟨world', stop, (if_pos hok).trans hrun, hR⟩
  · rw [writeArray_of_error hok]
    exact ⟨_, 0, if_neg hok, hstart⟩

/-! ## The index -/

/-- The index-driven writer returns, with the parcel of `writeVariant`. -/
theorem writeByIndex_eq (platform : Platform B) :
    ∀ (t : GVariantType) (v : GValue t) (p : Parcel B),
      writeByIndex platform t v ⟨p, ()⟩ =
        some ((writeVariant platform t v p).1, ⟨(writeVariant platform t v p).2, ()⟩) := by
  intro t
  induction t with
  | array e ih =>
    intro v p
    by_cases h : encoding platform ⟨_, v⟩ = .elements
    · rw [writeVariant_elements h, writeByIndex, h]
      let elementWriter := fun (index : Nat) (world : World B Unit) =>
        match v.items.toList[index]? with
        | some child => writeByIndex platform e child world
        | none => none
      have hstep : ∀ i (hi : i < v.passedItems.length) world q, world = ⟨q, ()⟩ →
          ∃ world', elementWriter i world =
            some ((writeVariant platform e v.passedItems[i] q).1, world') ∧
            world' = ⟨(writeVariant platform e v.passedItems[i] q).2, ()⟩ := by
        rintro i hi _ q rfl
        refine ⟨_, ?_, rfl⟩
        simp only [elementWriter, v.getElem?_items hi]
        exact ih _ q
      obtain ⟨world', stop, hrun, rfl⟩ := aParcelWriteParcelableArray_sim platform.fate
        (fun _ world p => world = ⟨p, ()⟩) v.passedItems ⟨p, ()⟩ hstep rfl
      rw [v.length_passedItems] at hrun
      dsimp only
      rw [hrun]
      rfl
    · rw [writeVariant_leaf h, writeByIndex]
      split
      · contradiction
      · rfl
  | _ => exact fun v p => rfl

/-! ## The iterator -/

/-- The callback was called with the index its iterator stood at, took the child of that index, and
left the iterator behind it. -/
def ElementCall.InStep (call : ElementCall) : Prop :=
  call.position = call.index ∧ call.positionAfter = call.index + 1 ∧ call.index < call.children

/-- A run that returns `out`, leaves the iterators of the outer calls as they were, and has called
the callback in step with its iterators. -/
def RunsTo (world : World B IterMemory) (r : Option (BinderStatus × World B IterMemory))
    (out : BinderStatus × Parcel B) : Prop :=
  ∃ calls, (∀ call ∈ calls, call.InStep) ∧
    r = some (out.1, ⟨out.2, ⟨world.memory.iters, world.memory.log ++ calls⟩⟩)

/-- The loop invariant of the callback: the iterator of the array stands at the index, on top of the
iterators of the outer calls. -/
def AtIndex (world : World B IterMemory) (v : GVariant) (index : Nat)
    (current : World B IterMemory) (p : Parcel B) : Prop :=
  current.parcel = p ∧ current.memory.iters = world.memory.iters ++ [⟨v, index⟩] ∧
    ∃ calls, (∀ call ∈ calls, call.InStep) ∧ current.memory.log = world.memory.log ++ calls

/-- The children of an array are its items. -/
theorem GValue.children_eq {e : GVariantType} (v : GValue (.array e)) :
    GVariant.children ⟨_, v⟩ = v.items.toList.map fun item => ⟨e, item⟩ := by
  cases v with
  | array items => rfl

/-- The iterator that stands at the index of a child returns the child. -/
theorem gVariantIterNextValue_eq {e : GVariantType} (v : GValue (.array e)) {i : Nat}
    (hi : i < v.passedItems.length) :
    gVariantIterNextValue ⟨⟨_, v⟩, i⟩ = (some ⟨e, v.passedItems[i]⟩, ⟨⟨_, v⟩, i + 1⟩) := by
  have hchild : (GVariant.children ⟨_, v⟩)[i]? = some ⟨e, v.passedItems[i]⟩ := by
    rw [v.children_eq, List.getElem?_map, v.getElem?_items hi]
    rfl
  simp only [gVariantIterNextValue, hchild]

/-- The callback takes the child of its index and leaves the iterator at the next one. -/
theorem logged_atIndex (platform : Platform B) {e : GVariantType} (v : GValue (.array e))
    {write : GVariant → World B IterMemory → Option (BinderStatus × World B IterMemory)}
    (hwrite : ∀ (item : GValue e) world,
      RunsTo world (write ⟨e, item⟩ world) (writeVariant platform e item world.parcel))
    (world : World B IterMemory) {i : Nat} (hi : i < v.passedItems.length)
    {current : World B IterMemory} {p : Parcel B} (h : AtIndex world ⟨_, v⟩ i current p) :
    ∃ current',
      logged world.memory.iters.length
          (pocParcelVariantArrayElementWriter write world.memory.iters.length) i current =
        some ((writeVariant platform e v.passedItems[i] p).1, current') ∧
      AtIndex world ⟨_, v⟩ (i + 1) current' (writeVariant platform e v.passedItems[i] p).2 := by
  obtain ⟨rfl, hiters, calls, hcalls, hlog⟩ := h
  have hiter : current.memory.iters[world.memory.iters.length]? = some ⟨⟨_, v⟩, i⟩ := by
    rw [hiters, List.getElem?_concat_length]
  have hset : current.memory.iters.set world.memory.iters.length ⟨⟨_, v⟩, i + 1⟩ =
      world.memory.iters ++ [⟨⟨_, v⟩, i + 1⟩] := by
    rw [hiters, List.set_append_right _ _ (Nat.le_refl _), Nat.sub_self]
    rfl
  obtain ⟨calls', hcalls', hrun⟩ := hwrite v.passedItems[i]
    { current with
      memory := { current.memory with iters := world.memory.iters ++ [⟨⟨_, v⟩, i + 1⟩] } }
  have hbefore : i < gVariantIterNChildren ⟨⟨_, v⟩, i⟩ := by
    have hle := int32Count_le v.items.toList.length
    rw [v.length_passedItems] at hi
    rw [gVariantIterNChildren, v.children_eq, List.length_map]
    omega
  refine ⟨⟨(writeVariant platform e v.passedItems[i] current.parcel).2,
      ⟨world.memory.iters ++ [⟨⟨_, v⟩, i + 1⟩],
        current.memory.log ++ calls' ++ [⟨i, i, i + 1, gVariantIterNChildren ⟨⟨_, v⟩, i⟩⟩]⟩⟩,
    ?_, rfl, rfl, calls ++ (calls' ++ [⟨i, i, i + 1, gVariantIterNChildren ⟨⟨_, v⟩, i⟩⟩]), ?_, ?_⟩
  · simp only [logged, pocParcelVariantArrayElementWriter, hiter, gVariantIterNextValue_eq v hi,
      hset, hrun, List.getElem?_concat_length]
  · intro call hcall
    rcases List.mem_append.1 hcall with hcall | hcall
    · exact hcalls call hcall
    · rcases List.mem_append.1 hcall with hcall | hcall
      · exact hcalls' call hcall
      · obtain rfl := List.mem_singleton.1 hcall
        exact ⟨rfl, rfl, hbefore⟩
  · rw [hlog, List.append_assoc, List.append_assoc]

/-- **The function, called deep enough for the type of the variant, writes the variant child by
child**, whatever the calls on the parcel return: it does not fault, it leaves the outer iterators
alone, and every call of the callback is in step with its iterator. -/
theorem pocParcelWriteVariant_runsTo (platform : Platform B) :
    ∀ (t : GVariantType) (v : GValue t) {depth : Nat} (world : World B IterMemory),
      t.arrayDepth < depth →
      RunsTo world (pocParcelWriteVariant platform depth ⟨t, v⟩ world)
        (writeVariant platform t v world.parcel) := by
  intro t
  induction t with
  | array e ih =>
    intro v depth world hdepth
    obtain ⟨depth, rfl⟩ := Nat.exists_eq_succ_of_ne_zero (Nat.ne_of_gt (Nat.zero_lt_of_lt hdepth))
    by_cases h : encoding platform ⟨_, v⟩ = .elements
    · have hwrite : ∀ (item : GValue e) world, RunsTo world
          (pocParcelWriteVariant platform depth ⟨e, item⟩ world)
          (writeVariant platform e item world.parcel) := by
        intro item world
        exact ih item world (Nat.lt_of_succ_lt_succ hdepth)
      have hentered : AtIndex world ⟨_, v⟩ 0
          (World.onParcel (Parcel.write platform.fate (.arraySize v.passedItems.length))
            { world with
              memory :=
                { world.memory with iters := world.memory.iters ++ [gVariantIterInit ⟨_, v⟩] } }).2
          (world.parcel.write platform.fate (.arraySize v.passedItems.length)).2 :=
        ⟨rfl, rfl, [], by simp, by simp [World.onParcel]⟩
      obtain ⟨current, stop, hrun, hparcel, hiters, calls, hcalls, hlog⟩ :=
        aParcelWriteParcelableArray_sim platform.fate (AtIndex world ⟨_, v⟩) v.passedItems _
          (fun i hi current p hat => logged_atIndex platform v hwrite world hi hat) hentered
      have hsize : int32Count (gVariantIterNChildren (gVariantIterInit ⟨_, v⟩)) =
          v.passedItems.length := by
        rw [v.length_passedItems, gVariantIterNChildren, gVariantIterInit, v.children_eq,
          List.length_map]
      refine ⟨calls, hcalls, ?_⟩
      rw [pocParcelWriteVariant, h]
      dsimp only
      rw [hsize, hrun, writeVariant_elements h, Option.map_some, hiters, List.take_left, hlog,
        hparcel]
    · refine ⟨[], by simp, ?_⟩
      rw [pocParcelWriteVariant, writeVariant_leaf h, List.append_nil]
      split
      · contradiction
      · rfl
  | _ =>
    intro v depth world hdepth
    obtain ⟨depth, rfl⟩ := Nat.exists_eq_succ_of_ne_zero (Nat.ne_of_gt hdepth)
    refine ⟨[], by simp, ?_⟩
    rw [List.append_nil]
    rfl

/-- A call from outside writes the variant child by child. -/
theorem writeVariantToParcel_eq (platform : Platform B) (v : GVariant) (p : Parcel B) :
    writeVariantToParcel platform v p = some (writeVariant platform v.type v.value p) := by
  obtain ⟨calls, -, hrun⟩ :=
    pocParcelWriteVariant_runsTo platform v.type v.value ⟨p, ⟨[], []⟩⟩ (Nat.lt_succ_self _)
  rw [writeVariantToParcel, hrun]
  rfl

/-! ## The pointer array -/

/-- The references that `poc_write_gvariant_element` has not yet dropped. -/
def HoldsFrom (vs : List (GValue .vardict)) (index : Nat) (current : World B GPtrArray)
    (p : Parcel B) : Prop :=
  current.parcel = p ∧
    ∀ i, index ≤ i → current.memory[i]? = (vs.map fun v => some (⟨_, v⟩ : GVariant))[i]?

/-- The element writer of the pointer array writes the vardict of its index. -/
theorem pocWriteGvariantElement_holdsFrom (platform : Platform B) (vs : List (GValue .vardict))
    {l : List (GValue .vardict)} (hl : ∀ i (hi : i < l.length), vs[i]? = some l[i]) {i : Nat}
    (hi : i < l.length) {current : World B GPtrArray} {p : Parcel B}
    (h : HoldsFrom vs i current p) :
    ∃ current', pocWriteGvariantElement platform i current =
        some ((writeVariant platform .vardict l[i] p).1, current') ∧
      HoldsFrom vs (i + 1) current' (writeVariant platform .vardict l[i] p).2 := by
  obtain ⟨rfl, hmemory⟩ := h
  have helement : current.memory[i]? = some (some ⟨_, l[i]⟩) := by
    rw [hmemory i (Nat.le_refl _), List.getElem?_map, hl i hi]
    rfl
  refine ⟨⟨(writeVariant platform .vardict l[i] current.parcel).2, current.memory.set i none⟩,
    ?_, rfl, ?_⟩
  · simp only [pocWriteGvariantElement, helement]
    rfl
  · intro j hj
    rw [List.getElem?_set_ne (by omega)]
    exact hmemory j (by omega)

/-- An array of vardicts held by references gives the parcel of the variant. -/
theorem aParcelWriteParcelableArray_gPtrArray (platform : Platform B) (vs : List (GValue .vardict))
    (p : Parcel B) :
    ∃ status current,
      aParcelWriteParcelableArray platform.fate (int32Count vs.length)
          (pocWriteGvariantElement platform) ⟨p, vs.map fun v => some ⟨_, v⟩⟩ =
        some (status, current) ∧
      writeVariantToParcel platform ⟨.array .vardict, .array (.ofList vs)⟩ p =
        some (statusOk, current.parcel) := by
  let array : GValue (.array .vardict) := .array (.ofList vs)
  have hitems : array.items.toList = vs := GItems.toList_ofList vs
  obtain ⟨current, stop, hrun, hparcel, -⟩ :=
    aParcelWriteParcelableArray_sim platform.fate (HoldsFrom vs) array.passedItems
      ⟨p, vs.map fun v => some ⟨_, v⟩⟩
      (fun i hi current p h => pocWriteGvariantElement_holdsFrom platform vs
        (fun i hi => hitems ▸ array.getElem?_items hi) hi h)
      ⟨rfl, fun _ _ => rfl⟩
  rw [array.length_passedItems, hitems] at hrun
  refine ⟨_, current, hrun, ?_⟩
  rw [writeVariantToParcel_eq, writeVariant_elements rfl, hparcel]

/-- **The iterator-driven writer is the index-driven one.** Called deep enough for the type of the
variant, the function returns what the writer by index returns and leaves its parcel; the outer
iterators stay where they were, and every call of the callback finds its iterator at its index and
leaves it at the next one. An array of vardicts gives the parcel of the same vardicts in a
`GPtrArray`. -/
theorem pocParcelWriteVariant_byIndex (platform : Platform B) :
    (∀ (v : GVariant) (world : World B IterMemory) (extra : Nat),
      ∃ status parcel calls,
        pocParcelWriteVariant platform (v.type.arrayDepth + 1 + extra) v world =
          some (status, ⟨parcel, ⟨world.memory.iters, world.memory.log ++ calls⟩⟩) ∧
        writeByIndex platform v.type v.value ⟨world.parcel, ()⟩ = some (status, ⟨parcel, ()⟩) ∧
        ∀ call ∈ calls, call.position = call.index ∧ call.positionAfter = call.index + 1 ∧
          call.index < call.children) ∧
    (∀ (vs : List (GValue .vardict)) (p : Parcel B),
      ∃ status current,
        aParcelWriteParcelableArray platform.fate (int32Count vs.length)
            (pocWriteGvariantElement platform) ⟨p, vs.map fun v => some ⟨_, v⟩⟩ =
          some (status, current) ∧
        writeVariantToParcel platform ⟨.array .vardict, .array (.ofList vs)⟩ p =
          some (statusOk, current.parcel)) := by
  refine ⟨?_, aParcelWriteParcelableArray_gPtrArray platform⟩
  intro v world extra
  have hdepth : v.type.arrayDepth < v.type.arrayDepth + 1 + extra := by omega
  obtain ⟨calls, hcalls, hrun⟩ := pocParcelWriteVariant_runsTo platform v.type v.value world hdepth
  exact ⟨_, _, calls, hrun, writeByIndex_eq platform v.type v.value world.parcel, hcalls⟩

end FwupdPoc

import FwupdPoc.Lib.Codec

/-!
# Cursors

A `Buffer` is written at a cursor that may be moved back over what is there. The one pattern that
matters is the back-patch (`Buffer.backpatch`): leave a hole, write on, come back and fill it. A
`Cursor` reads at a position in data that does not change, and may read the position and move it.
`ReadsBack c before bytes a` says that `c`, at the end of `before`, reads `a` off `bytes` and stops
where `bytes` ends. It composes like the relation of readers, and every encoding for a reader is one
for the cursor that runs it (`ReadsBack.readOr`).

A block is a list of fields behind a word with their size, which counts itself. Its reader
(`Cursor.sized`) hands the size to the reader of the fields and then leaves for the position that
the size gives, whatever was read.
-/

namespace Wire

variable {σ α β : Type}

/-! ## Buffers -/

/-- What is in front of the cursor, and what is behind it. -/
structure Buffer (σ : Type) where
  front : List σ
  back : List σ

namespace Buffer

/-- The empty buffer. -/
def empty : Buffer σ := ⟨[], []⟩

/-- The contents. -/
def data (b : Buffer σ) : List σ := b.front ++ b.back

/-- Where the cursor is. -/
def position (b : Buffer σ) : Nat := b.front.length

/-- Writes over what is behind the cursor, and extends the buffer where this is too short. -/
def write (symbols : List σ) (b : Buffer σ) : Buffer σ :=
  ⟨b.front ++ symbols, b.back.drop symbols.length⟩

/-- Moves the cursor, at most to the end. -/
def seek (position : Nat) (b : Buffer σ) : Buffer σ :=
  ⟨b.data.take position, b.data.drop position⟩

@[simp] theorem position_write (symbols : List σ) (b : Buffer σ) :
    (b.write symbols).position = b.position + symbols.length := by
  simp [write, position]

/-- Two writes are one. -/
theorem write_write (symbols symbols' : List σ) (b : Buffer σ) :
    (b.write symbols).write symbols' = b.write (symbols ++ symbols') := by
  simp [write, List.drop_drop]

/-- Writing at the end appends. -/
theorem write_end (symbols front : List σ) :
    (Buffer.mk front []).write symbols = ⟨front ++ symbols, []⟩ := by
  simp [write]

/-- Moves the cursor to a place where the contents are known. -/
theorem seek_eq {b : Buffer σ} {front back : List σ} (h : b.data = front ++ back) :
    b.seek front.length = ⟨front, back⟩ := by
  simp [seek, h]

/-- Filling a hole that was left in front of other data. -/
theorem backpatch (front body : List σ) {hole patch : List σ} (h : patch.length = hole.length) :
    (((((Buffer.mk front []).write hole).write body).seek front.length).write patch).seek
        (front ++ hole ++ body).length = ⟨front ++ patch ++ body, []⟩ := by
  have hback : ((Buffer.mk front []).write hole).write body = ⟨front ++ hole ++ body, []⟩ := by
    rw [write_end, write_end]
  have hseek : (Buffer.mk (front ++ hole ++ body) []).seek front.length =
      ⟨front, hole ++ body⟩ := seek_eq (by simp [data])
  have hpatch : (Buffer.mk front (hole ++ body)).write patch = ⟨front ++ patch, body⟩ := by
    simp [write, h]
  have hlength : (front ++ hole ++ body).length = (front ++ patch ++ body).length := by
    simp [h]
  rw [hback, hseek, hpatch, hlength]
  exact seek_eq (by simp [data])

end Buffer

/-! ## Cursors -/

/-- Reads at a position in data that does not change. -/
abbrev Cursor (σ : Type) := ReaderT (List σ) (StateT Nat Option)

namespace Cursor

/-- Runs a reader at the position, and moves on by what it takes. Where the reader fails, there is a
default, and the position stays. -/
def readOr (default : α) (r : Reader σ α) : Cursor σ α := fun data position =>
  match r (data.drop position) with
  | some (a, rest) => some (a, position + ((data.drop position).length - rest.length))
  | none => some (default, position)

/-- The position. -/
def tell : Cursor σ Nat := fun _ position => some (position, position)

/-- Moves to a position, which may be behind the data. -/
def seek (position : Nat) : Cursor σ Unit := fun _ _ => some ((), position)

/-- Gives up. -/
def fail : Cursor σ α := fun _ _ => none

/-- A result of a composite is one of its second part, from where the first part stopped. -/
theorem bind_eq_some {c : Cursor σ α} {next : α → Cursor σ β} {data : List σ} {position : Nat}
    {r : β × Nat} :
    (c >>= next) data position = some r ↔
      ∃ a q, c data position = some (a, q) ∧ next a data q = some r := by
  change (c data position).bind (fun taken => next taken.1 data taken.2) = some r ↔ _
  rw [Option.bind_eq_some_iff, Prod.exists]

/-- A result of `f <$> c` is `f` of one of `c`. -/
theorem map_eq_some {c : Cursor σ α} {f : α → β} {data : List σ} {position : Nat} {r : β × Nat} :
    (f <$> c) data position = some r ↔ ∃ a, c data position = some (a, r.2) ∧ r.1 = f a := by
  change (c >>= fun a => Pure.pure (f a)) data position = some r ↔ _
  rw [bind_eq_some]
  refine ⟨?_, ?_⟩
  · rintro ⟨a, q, hread, hpure⟩
    cases hpure
    exact ⟨a, hread, rfl⟩
  · rintro ⟨a, hread, hresult⟩
    refine ⟨a, r.2, hread, ?_⟩
    rw [← hresult]
    rfl

@[simp] theorem pure_apply (a : α) (data : List σ) (position : Nat) :
    (Pure.pure a : Cursor σ α) data position = some (a, position) := rfl

@[simp] theorem tell_apply (data : List σ) (position : Nat) :
    tell data position = some (position, position) := rfl

@[simp] theorem seek_apply (p : Nat) (data : List σ) (position : Nat) :
    seek p data position = some ((), p) := rfl

end Cursor

/-- At the end of `before`, `c` reads `a` off `bytes` and stops where `bytes` ends, whatever
follows. -/
def ReadsBack (c : Cursor σ α) (before bytes : List σ) (a : α) : Prop :=
  ∀ after, c (before ++ (bytes ++ after)) before.length = some (a, (before ++ bytes).length)

namespace ReadsBack

theorem pure (before : List σ) (a : α) : ReadsBack (Pure.pure a) before [] a := fun _ => by
  rw [List.append_nil]
  rfl

/-- Two encodings read one after the other. -/
theorem bind {c : Cursor σ α} {next : α → Cursor σ β} {before bytes bytes' : List σ} {a : α} {b : β}
    (h : ReadsBack c before bytes a) (h' : ReadsBack (next a) (before ++ bytes) bytes' b) :
    ReadsBack (c >>= next) before (bytes ++ bytes') b := by
  intro after
  rw [Cursor.bind_eq_some]
  refine ⟨a, (before ++ bytes).length, ?_, ?_⟩
  · rw [List.append_assoc]
    exact h (bytes' ++ after)
  · have hnext := h' after
    simp only [List.append_assoc] at hnext ⊢
    exact hnext

/-- An encoding for a reader is one for the cursor that runs it. -/
theorem readOr {r : Reader σ α} {bytes : List σ} {a : α} (default : α) (h : Recovers r bytes a)
    (before : List σ) : ReadsBack (Cursor.readOr default r) before bytes a := by
  intro after
  rw [Cursor.readOr, List.drop_left, h after]
  simp

/-- An encoding of `a` is one of `f a` for the cursor that applies `f`. -/
theorem map {c : Cursor σ α} {before bytes : List σ} {a : α} (f : α → β)
    (h : ReadsBack c before bytes a) : ReadsBack (f <$> c) before bytes (f a) := by
  have hbind : ReadsBack (c >>= fun x => Pure.pure (f x)) before (bytes ++ []) (f a) :=
    h.bind (ReadsBack.pure _ (f a))
  rw [List.append_nil] at hbind
  exact hbind

/-- Data that is nothing but an encoding is read to its end. -/
theorem whole {c : Cursor σ α} {bytes : List σ} {a : α} (h : ReadsBack c [] bytes a) :
    c bytes 0 = some (a, bytes.length) := by
  simpa using h []

end ReadsBack

/-! ## Blocks -/

namespace Cursor

/-- A field of a block: it has its default where the block is already read to its end. -/
def field (start size : Nat) (default : α) (c : Cursor σ α) : Cursor σ α := do
  let position ← tell
  if position - start < size then c else Pure.pure default

/-- A block: its size, counted from its start, then its fields. The cursor leaves for the end that
the size gives. -/
def sized (readSize : Cursor σ Nat) (fields : Nat → Nat → Cursor σ α) : Cursor σ α := do
  let start ← tell
  let size ← readSize
  let a ← fields start size
  seek (start + size)
  return a

/-- A field within the block. -/
theorem field_of_lt {start size : Nat} {default : α} {c : Cursor σ α} {data : List σ}
    {position : Nat} (h : position - start < size) :
    field start size default c data position = c data position := by
  change (if position - start < size then c else Pure.pure default) data position = _
  rw [if_pos h]

/-- A field behind the end of the block. -/
theorem field_of_le {start size : Nat} {default : α} {c : Cursor σ α} {data : List σ}
    {position : Nat} (h : size ≤ position - start) :
    field start size default c data position = some (default, position) := by
  change (if position - start < size then c else Pure.pure default) data position = _
  rw [if_neg (Nat.not_lt.2 h)]
  rfl

/-- What a block is read as, and where it ends. -/
theorem sized_eq_some {readSize : Cursor σ Nat} {fields : Nat → Nat → Cursor σ α} {data : List σ}
    {start : Nat} {r : α × Nat} :
    sized readSize fields data start = some r ↔
      ∃ size q q', readSize data start = some (size, q) ∧
        fields start size data q = some (r.1, q') ∧ r.2 = start + size := by
  unfold sized
  simp only [bind_eq_some, tell_apply, seek_apply, pure_apply, Option.some.injEq, Prod.mk.injEq]
  refine ⟨?_, ?_⟩
  · rintro ⟨_, _, ⟨rfl, rfl⟩, size, q, hsize, a, q', hfields, _, _, ⟨-, rfl⟩, rfl⟩
    exact ⟨size, q, q', hsize, hfields, rfl⟩
  · rintro ⟨size, q, q', hsize, hfields, hend⟩
    exact ⟨_, _, ⟨rfl, rfl⟩, size, q, hsize, r.1, q', hfields, (), _, ⟨trivial, rfl⟩,
      by rw [← hend]⟩

end Cursor

namespace ReadsBack

/-- A field that starts within the block. -/
theorem field {c : Cursor σ α} {before bytes : List σ} {a : α} {start size : Nat} (default : α)
    (h : ReadsBack c before bytes a) (hstart : before.length - start < size) :
    ReadsBack (Cursor.field start size default c) before bytes a := by
  intro after
  rw [Cursor.field_of_lt hstart]
  exact h after

/-- A block whose size is right. -/
theorem sized {readSize : Cursor σ Nat} {fields : Nat → Nat → Cursor σ α}
    {before head body : List σ} {a : α}
    (hsize : ReadsBack readSize before head (head ++ body).length)
    (hfields : ReadsBack (fields before.length (head ++ body).length) (before ++ head) body a) :
    ReadsBack (Cursor.sized readSize fields) before (head ++ body) a := by
  intro after
  rw [Cursor.sized_eq_some]
  refine ⟨(head ++ body).length, (before ++ head).length, (before ++ head ++ body).length, ?_, ?_,
    ?_⟩
  · rw [List.append_assoc]
    exact hsize (body ++ after)
  · have hread := hfields after
    simp only [List.append_assoc] at hread ⊢
    exact hread
  · rw [List.length_append]

end ReadsBack

/-! ## Reading at the end -/

/-- At the end of `before`, `c` reads `a` where the data ends with `bytes`, and stops anywhere. -/
def ReadsEnd (c : Cursor σ α) (before bytes : List σ) (a : α) : Prop :=
  ∃ q, c (before ++ bytes) before.length = some (a, q)

/-- What is read at the end is behind an encoding. -/
theorem ReadsBack.bind_end {c : Cursor σ α} {next : α → Cursor σ β} {before bytes rest : List σ}
    {a : α} {b : β} (h : ReadsBack c before bytes a)
    (h' : ReadsEnd (next a) (before ++ bytes) rest b) :
    ReadsEnd (c >>= next) before (bytes ++ rest) b := by
  obtain ⟨q, hnext⟩ := h'
  rw [List.append_assoc] at hnext
  exact ⟨q, Cursor.bind_eq_some.2 ⟨a, _, h rest, hnext⟩⟩

namespace ReadsEnd

theorem map {c : Cursor σ α} {before bytes : List σ} {a : α} (f : α → β)
    (h : ReadsEnd c before bytes a) : ReadsEnd (f <$> c) before bytes (f a) := by
  obtain ⟨q, hread⟩ := h
  exact ⟨q, Cursor.map_eq_some.2 ⟨a, hread, rfl⟩⟩

/-- A field that starts within the block. -/
theorem field {c : Cursor σ α} {before bytes : List σ} {a : α} {start size : Nat} (default : α)
    (h : ReadsEnd c before bytes a) (hstart : before.length - start < size) :
    ReadsEnd (Cursor.field start size default c) before bytes a := by
  obtain ⟨q, hread⟩ := h
  exact ⟨q, (Cursor.field_of_lt hstart).trans hread⟩

/-- The block at the end is left for the position that its size gives. -/
theorem sized {readSize : Cursor σ Nat} {fields : Nat → Nat → Cursor σ α}
    {before head body : List σ} {size : Nat} {a : α} (hsize : ReadsBack readSize before head size)
    (hfields : ReadsEnd (fields before.length size) (before ++ head) body a) :
    Cursor.sized readSize fields (before ++ (head ++ body)) before.length =
      some (a, before.length + size) := by
  obtain ⟨q, hread⟩ := hfields
  rw [List.append_assoc] at hread
  exact Cursor.sized_eq_some.2 ⟨size, _, q, hsize body, hread, rfl⟩

end ReadsEnd

end Wire

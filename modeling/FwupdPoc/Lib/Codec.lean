import Mathlib.Algebra.Group.Nat.Defs
import Mathlib.Data.List.Basic

/-!
# Readers and self-delimiting codes

A stream is a list of symbols, and a `Reader` takes a value off its front. `Recovers read bytes a`
says that `bytes` is an encoding of `a` for `read`: wherever `bytes` stands at the front of a
stream, the reader returns `a` and stops where `bytes` ends, whatever follows. The relation
composes with the monad of readers (`Recovers.pure`, `Recovers.bind`) and with counted repetition
(`Recovers.readN`), so a reader of a composite format is proved right from its parts. A `Codec` is
an encoder together with a reader of everything in the encoder's domain.
-/

namespace Wire

variable {σ α β : Type}

/-- A reader takes a value off the front of a stream, or fails. -/
abbrev Reader (σ : Type) := StateT (List σ) Option

/-- `bytes` is an encoding of `a` for `read`: at the front of any stream, `read` returns `a` and
leaves exactly what follows `bytes`. -/
def Recovers (read : Reader σ α) (bytes : List σ) (a : α) : Prop :=
  ∀ rest, read (bytes ++ rest) = some (a, rest)

/-- The empty encoding, read by doing nothing. -/
theorem Recovers.pure (a : α) : Recovers (σ := σ) (Pure.pure a) [] a := fun _ => rfl

/-- Two encodings read one after the other. -/
theorem Recovers.bind {read : Reader σ α} {next : α → Reader σ β} {bytes bytes' : List σ} {a : α}
    {b : β} (h : Recovers read bytes a) (h' : Recovers (next a) bytes' b) :
    Recovers (read >>= next) (bytes ++ bytes') b := by
  intro rest
  have hfirst : read (bytes ++ (bytes' ++ rest)) = some (a, bytes' ++ rest) := h _
  simp only [List.append_assoc, Bind.bind, StateT.bind, hfirst, Option.bind_some]
  exact h' rest

/-- An encoding of `a` is an encoding of `f a` for the reader that applies `f`. -/
theorem Recovers.map {read : Reader σ α} {bytes : List σ} {a : α} (f : α → β)
    (h : Recovers read bytes a) : Recovers (f <$> read) bytes (f a) := by
  intro rest
  simp [Functor.map, StateT.map, h rest]

/-- Where nothing follows, the reader stops at the end of the encoding. -/
theorem Recovers.whole {read : Reader σ α} {bytes : List σ} {a : α} (h : Recovers read bytes a) :
    read bytes = some (a, []) := by
  simpa using h []

/-- A reader recovers one value from one encoding. -/
theorem Recovers.unique {read : Reader σ α} {bytes : List σ} {a b : α} (ha : Recovers read bytes a)
    (hb : read bytes = some (b, [])) : a = b := by
  rw [ha.whole] at hb
  simpa using hb

/-- Reads `n` values one after the other. -/
def readN (read : Reader σ α) : Nat → Reader σ (List α)
  | 0 => Pure.pure []
  | n + 1 => do
    let a ← read
    let as ← readN read n
    return a :: as

/-- A block of encodings is read by as many reads as it has parts. -/
theorem Recovers.readN {read : Reader σ β} {enc : α → List σ} {f : α → β} :
    ∀ as : List α, (∀ a ∈ as, Recovers read (enc a) (f a)) →
      Recovers (readN read as.length) (as.flatMap enc) (as.map f)
  | [], _ => Recovers.pure []
  | a :: as, h => by
    have hhead : Recovers read (enc a) (f a) := h a (by simp)
    have htail := Recovers.readN as fun x hx => h x (by simp [hx])
    rw [List.flatMap_cons, ← List.append_nil (as.flatMap enc)]
    exact hhead.bind (htail.bind (Recovers.pure (f a :: as.map f)))

/-- An encoder for the values in `dom`, and a reader of its encodings. -/
structure Codec (σ α : Type) (dom : α → Prop := fun _ => True) where
  enc : α → List σ
  dec : Reader σ α
  /-- What was encoded is read back, and the reader stops where the encoding ends. -/
  recovers : ∀ a, dom a → Recovers dec (enc a) a

/-- Takes one symbol off the stream. -/
def readSymbol : Reader σ σ
  | [] => none
  | s :: rest => some (s, rest)

/-- A symbol is its own encoding. -/
theorem Recovers.symbol (s : σ) : Recovers readSymbol [s] s := fun _ => rfl

namespace Codec

variable {dom : α → Prop}

/-- One symbol. -/
def symbol : Codec σ σ where
  enc s := [s]
  dec := readSymbol
  recovers s _ := Recovers.symbol s

/-- A codec used on a part of its domain. -/
def restrict {dom' : α → Prop} (c : Codec σ α dom) (h : ∀ a, dom' a → dom a) :
    Codec σ α dom' where
  enc := c.enc
  dec := c.dec
  recovers a ha := c.recovers a (h a ha)

/-- A codec for `α` used for another type, through a faithful translation. -/
def via {dom' : β → Prop} (c : Codec σ α dom) (into : β → α) (back : α → β)
    (hdom : ∀ b, dom' b → dom (into b)) (hback : ∀ b, dom' b → back (into b) = b) :
    Codec σ β dom' where
  enc b := c.enc (into b)
  dec := back <$> c.dec
  recovers b hb := by
    have := (c.recovers (into b) (hdom b hb)).map back
    rwa [hback b hb] at this

/-- A list behind its length. -/
def counted {domN : Nat → Prop} (count : Codec σ Nat domN) (item : Codec σ α dom) :
    Codec σ (List α) (fun as => domN as.length ∧ ∀ a ∈ as, dom a) where
  enc as := count.enc as.length ++ as.flatMap item.enc
  dec := count.dec >>= readN item.dec
  recovers as has := by
    have hitems := Recovers.readN (f := id) as fun a ha => item.recovers a (has.2 a ha)
    rw [List.map_id] at hitems
    exact (count.recovers as.length has.1).bind hitems

/-! ### Numbers -/

/-- The low `k` bytes of a number, the lowest one first. -/
def littleEndianEnc : Nat → Nat → List (BitVec 8)
  | 0, _ => []
  | k + 1, n => BitVec.ofNat 8 n :: littleEndianEnc k (n / 256)

/-- Reads a number from its low `k` bytes. -/
def littleEndianDec : Nat → Reader (BitVec 8) Nat
  | 0 => Pure.pure 0
  | k + 1 => do
    let low ← readSymbol
    (low.toNat + 256 * ·) <$> littleEndianDec k

/-- A number that fits is read back from its bytes. -/
theorem littleEndian_recovers :
    ∀ k n, n < 256 ^ k → Recovers (littleEndianDec k) (littleEndianEnc k n) n
  | 0, n, h => by
    obtain rfl : n = 0 := by simpa using h
    exact Recovers.pure 0
  | k + 1, n, h => by
    have hhigh := littleEndian_recovers k (n / 256) (by rw [Nat.pow_succ] at h; omega)
    have hnum : (BitVec.ofNat 8 n).toNat + 256 * (n / 256) = n := by
      rw [BitVec.toNat_ofNat]
      omega
    have hmap := hhigh.map ((BitVec.ofNat 8 n).toNat + 256 * ·)
    rw [hnum] at hmap
    exact (Recovers.symbol (BitVec.ofNat 8 n)).bind hmap

/-- A number below `256 ^ k` as `k` bytes, the lowest one first. -/
def littleEndian (k : Nat) : Codec (BitVec 8) Nat (· < 256 ^ k) where
  enc := littleEndianEnc k
  dec := littleEndianDec k
  recovers := littleEndian_recovers k

/-- A word of `k` bytes, the lowest one first. -/
def word (k : Nat) : Codec (BitVec 8) (BitVec (8 * k)) :=
  (littleEndian k).via BitVec.toNat (BitVec.ofNat _)
    (fun w _ => by simpa [Nat.pow_mul] using w.isLt) (fun w _ => by simp)

theorem length_littleEndianEnc : ∀ k n, (littleEndianEnc k n).length = k
  | 0, _ => rfl
  | k + 1, n => by rw [littleEndianEnc, List.length_cons, length_littleEndianEnc]

@[simp] theorem length_word_enc (k : Nat) (w : BitVec (8 * k)) : ((word k).enc w).length = k :=
  length_littleEndianEnc k _

/-- The low bytes of a number, and then the bytes of what is above them. -/
theorem littleEndianEnc_add (j k n : Nat) :
    littleEndianEnc (j + k) n = littleEndianEnc j n ++ littleEndianEnc k (n / 256 ^ j) := by
  induction j generalizing n with
  | zero => rw [Nat.zero_add, Nat.pow_zero, Nat.div_one, littleEndianEnc, List.nil_append]
  | succ j ih =>
    rw [Nat.succ_add, littleEndianEnc, littleEndianEnc, ih, Nat.div_div_eq_div_mul, Nat.pow_succ,
      Nat.mul_comm 256, List.cons_append]

/-- The low bytes of a number do not depend on what is above them. -/
theorem littleEndianEnc_mod (k n : Nat) :
    littleEndianEnc k (n % 256 ^ k) = littleEndianEnc k n := by
  induction k generalizing n with
  | zero => rfl
  | succ k ih =>
    have hlow : BitVec.ofNat 8 (n % 256 ^ (k + 1)) = BitVec.ofNat 8 n := by
      refine BitVec.eq_of_toNat_eq ?_
      rw [BitVec.toNat_ofNat, BitVec.toNat_ofNat]
      exact Nat.mod_mod_of_dvd n ⟨256 ^ k, Nat.pow_succ'⟩
    have hhigh : n % 256 ^ (k + 1) / 256 = n / 256 % 256 ^ k := by
      rw [Nat.pow_succ, Nat.mul_comm, Nat.mod_mul_right_div_self]
    rw [littleEndianEnc, littleEndianEnc, hlow, hhigh, ih]

/-- A word is its low bytes as a word, and then the others. -/
theorem word_enc_add (j k : Nat) (w : BitVec (8 * (j + k))) :
    (word (j + k)).enc w =
      (word j).enc (w.setWidth (8 * j)) ++ (word k).enc ((w >>> (8 * j)).setWidth (8 * k)) := by
  have hlow : (w.setWidth (8 * j)).toNat = w.toNat % 256 ^ j := by
    rw [BitVec.toNat_setWidth, Nat.pow_mul]
  have hhigh : ((w >>> (8 * j)).setWidth (8 * k)).toNat = w.toNat / 256 ^ j := by
    have hlt : w.toNat < 256 ^ j * 256 ^ k := by
      have hword := w.isLt
      rwa [Nat.pow_mul, Nat.pow_add] at hword
    rw [BitVec.toNat_setWidth, BitVec.toNat_ushiftRight, Nat.shiftRight_eq_div_pow, Nat.pow_mul,
      Nat.pow_mul]
    exact Nat.mod_eq_of_lt (Nat.div_lt_of_lt_mul hlt)
  change littleEndianEnc (j + k) w.toNat = littleEndianEnc j _ ++ littleEndianEnc k _
  rw [littleEndianEnc_add, hlow, hhigh, littleEndianEnc_mod]

/-- Counts the symbols in front of the next `stop`. -/
def unaryDec [DecidableEq σ] (stop : σ) : Reader σ Nat
  | [] => none
  | s :: rest => if s = stop then some (0, rest) else
    (unaryDec stop rest).map fun r => (r.1 + 1, r.2)

/-- A number of any size, as that many symbols in front of a `stop`. -/
def unary [DecidableEq σ] (tick stop : σ) (h : tick ≠ stop) : Codec σ Nat where
  enc n := List.replicate n tick ++ [stop]
  dec := unaryDec stop
  recovers n _ := by
    intro rest
    induction n with
    | zero => simp [unaryDec]
    | succ n ih =>
      rw [List.replicate_succ, List.cons_append, List.cons_append, unaryDec, if_neg h, ih]
      rfl

end Codec

/-! ## Readers of a fixed width -/

/-- What the reader takes has `k` symbols, whatever it is. -/
def HasWidth (read : Reader σ α) (k : Nat) : Prop :=
  ∀ stream r, read stream = some r → stream.length = r.2.length + k

/-- A result of a composite is one of its second part, from where the first part stopped. -/
theorem Reader.bind_eq_some {read : Reader σ α} {next : α → Reader σ β} {stream : List σ}
    {r : β × List σ} :
    (read >>= next) stream = some r ↔
      ∃ a rest, read stream = some (a, rest) ∧ next a rest = some r := by
  change (read stream).bind (fun taken => next taken.1 taken.2) = some r ↔ _
  rw [Option.bind_eq_some_iff, Prod.exists]

namespace HasWidth

theorem pure (a : α) : HasWidth (σ := σ) (Pure.pure a) 0 := by
  rintro stream _ ⟨⟩
  rfl

theorem bind {read : Reader σ α} {next : α → Reader σ β} {k k' : Nat} (h : HasWidth read k)
    (h' : ∀ a, HasWidth (next a) k') : HasWidth (read >>= next) (k + k') := by
  intro stream r hread
  obtain ⟨a, rest, hfirst, hsecond⟩ := Reader.bind_eq_some.1 hread
  have hwidth := h stream _ hfirst
  have hwidth' := h' a rest r hsecond
  dsimp only at hwidth
  omega

theorem map {read : Reader σ α} {k : Nat} (f : α → β) (h : HasWidth read k) :
    HasWidth (f <$> read) k := h.bind fun a => pure (f a)

theorem symbol : HasWidth (readSymbol (σ := σ)) 1 := by
  rintro (_ | ⟨s, rest⟩) _ ⟨⟩
  rfl

theorem readN {read : Reader σ α} {k : Nat} (h : HasWidth read k) (n : Nat) :
    HasWidth (readN read n) (n * k) := by
  induction n with
  | zero =>
    rw [Nat.zero_mul]
    exact pure []
  | succ n ih =>
    have hcons := h.bind fun a => ih.bind fun as => pure (a :: as)
    rwa [Nat.add_zero, Nat.add_comm k, ← Nat.succ_mul] at hcons

theorem littleEndian (k : Nat) : HasWidth (Codec.littleEndianDec k) k := by
  induction k with
  | zero => exact pure 0
  | succ k ih =>
    have hcons := symbol.bind fun low => ih.map (low.toNat + 256 * ·)
    rwa [Nat.add_comm 1] at hcons

theorem word (k : Nat) : HasWidth (Codec.word k).dec k := (littleEndian k).map (BitVec.ofNat _)

end HasWidth

/-- As many values are read as were asked for. -/
theorem length_of_readN {read : Reader σ α} {n : Nat} {stream : List σ} {r : List α × List σ}
    (h : readN read n stream = some r) : r.1.length = n := by
  induction n generalizing stream r with
  | zero =>
    cases h
    rfl
  | succ n ih =>
    obtain ⟨a, rest, -, h⟩ := Reader.bind_eq_some.1 h
    obtain ⟨as, rest', hothers, h⟩ := Reader.bind_eq_some.1 h
    cases h
    exact congrArg Nat.succ (ih hothers)

end Wire

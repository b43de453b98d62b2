import CodeFabric.Support.BigEndian
import CodeFabric.Support.Fallible

/-! # Readers of byte strings

A cursor over a byte string that reads forward and fails, and what a successful read says about the
bytes it consumed. Every reader here is the inverse of a writer: it succeeds exactly on the inputs
that start with what the writer would have written. -/

namespace Reading

open Fallible List

variable {ε α β : Type} {bytes rest : List UInt8}

/-- A reader: it consumes a front part of the remaining bytes, or fails. -/
abbrev Reader (ε α : Type) := StateT (List UInt8) (Except ε) α

/-! ## Primitive readers -/

/-- Read a number of bytes; `short` is the failure when there are fewer. -/
def take (short : ε) (count : Nat) : Reader ε (List UInt8) := fun bytes =>
  if count ≤ bytes.length then .ok (bytes.take count, bytes.drop count) else .error short

/-- Read a fixed-width big-endian number. -/
def readUnsigned (short : ε) (width : Nat) : Reader ε Nat := do
  return BigEndian.decode (← take short width)

/-- Read a length and as many bytes. -/
def readBlob (short : ε) (width : Nat) : Reader ε (List UInt8) := do
  take short (← readUnsigned short width)

/-- The bytes of a length-prefixed blob. -/
def blob (width : Nat) (bytes : List UInt8) : List UInt8 :=
  BigEndian.encode width bytes.length ++ bytes

/-- A pure fallible computation between reads. -/
def check (result : Except ε α) : Reader ε α := StateT.lift result

/-- Run a reader a number of times. -/
def repeated (reader : Reader ε α) : Nat → Reader ε (List α)
  | 0 => pure []
  | count + 1 => do
    let value ← reader
    let values ← repeated reader count
    return value :: values

/-- Run a reader on an input it has to use up. -/
def complete (trailing : ε) (reader : Reader ε α) (bytes : List UInt8) : Except ε α := do
  let (value, rest) ← reader.run bytes
  ensure (rest = []) trailing
  return value

/-! ## What a successful read says -/

/-- The reader succeeds exactly on the inputs that start with what `write` gives for its value. -/
def Inverts (reader : Reader ε α) (P : α → Prop) (write : α → List UInt8) : Prop :=
  ∀ bytes value rest, reader.run bytes = .ok (value, rest) ↔ P value ∧ bytes = write value ++ rest

@[simp] theorem run_pure_iff {value result : α} :
    (pure value : Reader ε α).run bytes = .ok (result, rest) ↔ value = result ∧ bytes = rest := by
  rw [StateT.run_pure, pure_eq_ok, Prod.mk.injEq]

variable {reader : Reader ε α}

@[simp] theorem run_bind_iff {next : α → Reader ε β} {result : β} :
    (reader >>= next).run bytes = .ok (result, rest) ↔
      ∃ value middle, reader.run bytes = .ok (value, middle) ∧
        (next value).run middle = .ok (result, rest) := by
  rw [StateT.run_bind, bind_eq_ok, Prod.exists]

@[simp] theorem run_check_iff {result : Except ε α} {value : α} :
    (check result).run bytes = .ok (value, rest) ↔ result = .ok value ∧ bytes = rest := by
  show (result >>= fun value => pure (value, bytes)) = _ ↔ _
  simp only [ok_iff, Prod.mk.injEq]
  constructor
  · rintro ⟨_, hres, rfl, rfl⟩
    exact ⟨hres, rfl⟩
  · rintro ⟨hres, rfl⟩
    exact ⟨value, hres, rfl, rfl⟩

@[simp] theorem run_take_iff {short : ε} {count : Nat} {value : List UInt8} :
    (take short count).run bytes = .ok (value, rest) ↔
      value.length = count ∧ bytes = value ++ rest := by
  show (if _ then _ else _) = _ ↔ _
  by_cases h : count ≤ bytes.length
  · rw [if_pos h, Except.ok.injEq, Prod.mk.injEq]
    constructor
    · rintro ⟨rfl, rfl⟩
      exact ⟨length_take_of_le h, (take_append_drop count bytes).symm⟩
    · rintro ⟨rfl, rfl⟩
      exact ⟨take_left, drop_left⟩
  · rw [if_neg h]
    refine ⟨fun hf => by simp at hf, ?_⟩
    rintro ⟨rfl, rfl⟩
    simp at h

@[simp] theorem run_readUnsigned_iff {short : ε} {width n : Nat} :
    (readUnsigned short width).run bytes = .ok (n, rest) ↔
      n < 256 ^ width ∧ bytes = BigEndian.encode width n ++ rest := by
  simp only [readUnsigned, run_bind_iff, run_take_iff, run_pure_iff]
  constructor
  · rintro ⟨digits, middle, ⟨rfl, rfl⟩, rfl, rfl⟩
    exact ⟨BigEndian.decode_lt digits, by rw [BigEndian.encode_decode]⟩
  · rintro ⟨hf, rfl⟩
    exact ⟨_, _, ⟨BigEndian.length_encode width n, rfl⟩, BigEndian.decode_encode hf, rfl⟩

@[simp] theorem run_readBlob_iff {short : ε} {width : Nat} {value : List UInt8} :
    (readBlob short width).run bytes = .ok (value, rest) ↔
      value.length < 256 ^ width ∧ bytes = blob width value ++ rest := by
  simp only [readBlob, run_bind_iff, run_readUnsigned_iff, run_take_iff, blob]
  constructor
  · rintro ⟨_, _, ⟨hf, rfl⟩, rfl, rfl⟩
    exact ⟨hf, (append_assoc ..).symm⟩
  · rintro ⟨hf, rfl⟩
    exact ⟨_, _, ⟨hf, append_assoc ..⟩, rfl, rfl⟩

/-- What follows a blob is determined, and so is the blob. -/
theorem blob_append_inj {width : Nat} {left right rest' : List UInt8}
    (hl : left.length < 256 ^ width) (hr : right.length < 256 ^ width)
    (h : blob width left ++ rest = blob width right ++ rest') : left = right ∧ rest = rest' := by
  have hread : (readBlob () width).run (blob width left ++ rest) = .ok (left, rest) :=
    run_readBlob_iff.2 ⟨hl, rfl⟩
  rw [h, run_readBlob_iff.2 ⟨hr, rfl⟩] at hread
  cases hread
  exact ⟨rfl, rfl⟩

/-- **Repetition.** Reading a number of values inverts writing them one after the other. -/
theorem run_repeated_iff {P : α → Prop} {write : α → List UInt8}
    (h : Inverts reader P write) {count : Nat} {values : List α} :
    (repeated reader count).run bytes = .ok (values, rest) ↔
      values.length = count ∧ (∀ value ∈ values, P value) ∧
        bytes = values.flatMap write ++ rest := by
  induction count generalizing bytes rest values with
  | zero =>
    rw [repeated, run_pure_iff, length_eq_zero_iff]
    constructor
    · rintro ⟨rfl, rfl⟩
      simp
    · rintro ⟨rfl, -, hb⟩
      exact ⟨rfl, by simpa using hb⟩
  | succ count ih =>
    simp only [repeated, run_bind_iff, run_pure_iff, h _ _ _, ih]
    constructor
    · rintro ⟨value, _, ⟨hval, rfl⟩, tail, _, ⟨rfl, ht, rfl⟩, rfl, rfl⟩
      exact ⟨rfl, forall_mem_cons.2 ⟨hval, ht⟩, by simp⟩
    · rintro ⟨hlen, hvs, rfl⟩
      obtain ⟨value, tail, rfl⟩ := exists_cons_of_length_eq_add_one hlen
      obtain ⟨hval, ht⟩ := forall_mem_cons.1 hvs
      refine ⟨value, _, ⟨hval, ?_⟩, tail, rest, ⟨by simpa using hlen, ht, rfl⟩, rfl, rfl⟩
      simp

/-- A complete read leaves nothing. -/
@[simp] theorem complete_eq_ok {trailing : ε} {value : α} :
    complete trailing reader bytes = .ok value ↔ reader.run bytes = .ok (value, []) := by
  simp only [complete, ok_iff]
  constructor
  · rintro ⟨⟨value, rest⟩, hrun, -, rfl, rfl⟩
    exact hrun
  · intro hrun
    exact ⟨(value, []), hrun, (), rfl, rfl⟩

end Reading

import CodeFabric.Support.Fallible

/-! # Arrow IPC framing

The two walkers over the frames of an Arrow IPC stream: `validate_arrow_ipc_profile`
(`relation_ipc.rs`), which checks every length before it uses it, and
`validate_result_ipc_allocation_profile` (`streamed_result_package.rs`), which runs after it and
indexes without checks.

* Indexing out of bounds and unchecked sums above 64 bits are **`Halt.panicked`**; a walk that has
  used up its rounds is **`Halt.unfinished`**.
* The flatbuffer parser is a parameter. -/

namespace CodeFabric.Ipc

open Fallible List

/-! ## Stopping -/

/-- How a walk can end without a value. -/
inductive Halt
  | refused (detail : String)
  | panicked
  | unfinished
  deriving DecidableEq, Repr

/-- A computation that fails only by refusing its input. -/
def Refuses {α : Type} (value : Except Halt α) : Prop :=
  ∀ halt, value = .error halt → ∃ detail, halt = .refused detail

theorem Refuses.ok {α : Type} (value : α) : Refuses (.ok value) := nofun

protected theorem Refuses.ensure (condition : Prop) [Decidable condition] (detail : String) :
    Refuses (ensure condition (.refused detail)) :=
  fun _ h => ⟨detail, (ensure_eq_error h).1⟩

protected theorem Refuses.okOr {α : Type} (value : Option α) (detail : String) :
    Refuses (okOr value (.refused detail)) :=
  fun _ h => ⟨detail, (okOr_eq_error h).1⟩

protected theorem Refuses.bind {α β : Type} {first : Except Halt α} {next : α → Except Halt β}
    (hfst : Refuses first) (hn : ∀ value, first = .ok value → Refuses (next value)) :
    Refuses (first >>= next) := by
  intro halt h
  obtain h | ⟨value, hval, h⟩ := bind_eq_error h
  · exact hfst halt h
  · exact hn value hval halt h

/-! ## Bytes -/

def indexed (bytes : List UInt8) (start stop : Nat) : Except Halt (List UInt8) :=
  if start ≤ stop ∧ stop ≤ bytes.length then .ok ((bytes.drop start).take (stop - start))
  else .error .panicked

def plainAdd (left right : Nat) : Except Halt Nat :=
  okOr (checkedAdd 64 left right) .panicked

def littleEndian (bytes : List UInt8) : Nat :=
  bytes.foldr (fun byte value => byte.toNat + 256 * value) 0

theorem indexed_eq_ok {bytes : List UInt8} {start stop : Nat} (hsta : start ≤ stop)
    (hst : stop ≤ bytes.length) :
    indexed bytes start stop = .ok ((bytes.drop start).take (stop - start)) :=
  if_pos ⟨hsta, hst⟩

theorem plainAdd_eq_ok {left right : Nat} (h : left + right < 2 ^ 64) :
    plainAdd left right = .ok (left + right) :=
  okOr_eq_ok.2 (checkedAdd_eq_some.2 ⟨h, rfl⟩)

/-! ## Messages -/

inductive MessageHeader
  | schema | dictionaryBatch | recordBatch | other
  deriving DecidableEq, Repr

/-- The parts of a record batch that are bounded. -/
structure BatchHeader where
  compressed : Bool
  length : Int
  /-- The lengths of the field nodes. -/
  nodes : Option (List Int)
  deriving DecidableEq, Repr

/-- A parsed message: whether its version is V5, its header and the length of its body, and the
batch it carries, directly or in a dictionary. -/
structure Message where
  isV5 : Bool
  headerType : MessageHeader
  bodyLength : Int
  batch : Option BatchHeader
  deriving DecidableEq, Repr

/-- A visited frame: where it starts, the length of its metadata, and where it ends. -/
structure Frame where
  offset : Nat
  metadataLength : Nat
  next : Nat
  deriving DecidableEq, Repr

def continuationMarker : List UInt8 := [255, 255, 255, 255]

variable (parse : List UInt8 → Option Message)

/-! ## The checked walk -/

variable (bytes : List UInt8) (allocationLimit : Nat)

def profileMessage (offset headerEnd metadataLength messageCount : Nat) : Except Halt Frame := do
  let metadataEnd ← okOr (checkedAdd 64 headerEnd metadataLength)
    (.refused "metadata length overflowed")
  ensure (metadataEnd ≤ bytes.length) (.refused "metadata is truncated")
  let metadata ← indexed bytes headerEnd metadataEnd
  let message ← okOr (parse metadata) (.refused "message metadata is invalid")
  ensure (message.isV5 = true) (.refused "message metadata version is not V5")
  ensure (messageCount = 0 ↔ message.headerType = .schema)
    (.refused "schema message is absent, repeated, or out of order")
  ensure (0 ≤ message.bodyLength) (.refused "message body length is negative")
  let next ← okOr (checkedAdd 64 metadataEnd message.bodyLength.toNat)
    (.refused "message body length overflowed")
  ensure (next ≤ bytes.length) (.refused "message body is truncated")
  let _ ← okOr (checkedAdd 64 messageCount 1) (.refused "message count overflowed")
  return ⟨offset, metadataLength, next⟩

/-- One round of the checked walk: the frame at an offset, or nothing at the end marker. -/
def profileFrame (offset messageCount : Nat) : Except Halt (Option Frame) := do
  let headerEnd ← okOr (checkedAdd 64 offset 8) (.refused "frame offset overflowed")
  ensure (headerEnd ≤ bytes.length) (.refused "message lacks the continuation-marker framing")
  let markerEnd ← plainAdd offset 4
  let marker ← indexed bytes offset markerEnd
  ensure (marker = continuationMarker) (.refused "message lacks the continuation-marker framing")
  let field ← indexed bytes markerEnd headerEnd
  if littleEndian field = 0 then
    ensure (messageCount ≠ 0 ∧ headerEnd = bytes.length)
      (.refused "end marker is early or precedes every message")
    return none
  else
    let frame ← profileMessage parse bytes offset headerEnd (littleEndian field) messageCount
    return some frame

def walkProfile (bytes : List UInt8) : Nat → Nat → Nat → Except Halt (List Frame)
  | 0, _, _ => .error .unfinished
  | rounds + 1, offset, messageCount => do
    match ← profileFrame parse bytes offset messageCount with
    | none => return []
    | some frame => do
      let frames ← walkProfile bytes rounds frame.next (messageCount + 1)
      return frame :: frames

def profileFrames : Except Halt (List Frame) :=
  walkProfile parse bytes (bytes.length + 1) 0 0

/-- Accept the bytes of a well-framed stream (`validate_arrow_ipc_profile`). -/
def validateArrowIpcProfile : Except Halt Unit := do
  let _ ← profileFrames parse bytes

/-! ## The unchecked walk -/

/-- Count the values of the nodes of a batch against the bound. -/
def countNodes (nestedValues : Nat) (node : Int) : Except Halt Nat := do
  ensure (0 ≤ node) (.refused "allocation profile")
  ensure (node.toNat ≤ allocationLimit) (.refused "allocation profile")
  let nestedValues ← okOr (checkedAdd 64 nestedValues node.toNat) (.refused "counter overflow")
  ensure (nestedValues ≤ min (allocationLimit * 4) (2 ^ 64 - 1)) (.refused "allocation profile")
  return nestedValues

def checkBatch (allocationLimit nestedValues : Nat) (batch : Option BatchHeader) :
    Except Halt Nat := do
  let some batch := batch | return nestedValues
  ensure (batch.compressed = false ∧ 0 ≤ batch.length ∧ batch.length.toNat ≤ allocationLimit)
    (.refused "allocation profile")
  (batch.nodes.getD []).foldlM (countNodes allocationLimit) nestedValues

/-- One round of the unchecked walk: the frame at an offset and the values counted so far, or the
offset behind the end marker. -/
def allocationFrame (allocationLimit offset nestedValues : Nat) :
    Except Halt (Nat ⊕ Frame × Nat) := do
  let fieldStart ← plainAdd offset 4
  let fieldEnd ← plainAdd offset 8
  let field ← indexed bytes fieldStart fieldEnd
  if littleEndian field = 0 then return .inl fieldEnd
  else
    let metadataEnd ← plainAdd fieldEnd (littleEndian field)
    let metadata ← indexed bytes fieldEnd metadataEnd
    let message ← okOr (parse metadata) (.refused "allocation profile")
    let nestedValues ← checkBatch allocationLimit nestedValues message.batch
    ensure (0 ≤ message.bodyLength) (.refused "allocation profile")
    let step ← plainAdd (littleEndian field) message.bodyLength.toNat
    let next ← plainAdd fieldEnd step
    return .inr (⟨offset, littleEndian field, next⟩, nestedValues)

/-- The unchecked walk, for a number of rounds: the frames it visited, and where it stopped. -/
def walkAllocation (bytes : List UInt8) (allocationLimit : Nat) :
    Nat → Nat → Nat → List Frame × Except Halt Nat
  | 0, _, _ => ([], .error .unfinished)
  | rounds + 1, offset, nestedValues =>
    match allocationFrame parse bytes allocationLimit offset nestedValues with
    | .error halt => ([], .error halt)
    | .ok (.inl stop) => ([], .ok stop)
    | .ok (.inr (frame, nestedValues)) =>
      let (frames, result) := walkAllocation bytes allocationLimit rounds frame.next nestedValues
      (frame :: frames, result)

/-- The unchecked walk of a whole byte string. -/
def allocationFrames : List Frame × Except Halt Nat :=
  walkAllocation parse bytes allocationLimit (bytes.length + 1) 0 0

/-- Accept the bytes of a stream that needs no more than its allocation
(`validate_result_ipc_allocation_profile`). -/
def validateResultIpcAllocationProfile : Except Halt Unit := do
  validateArrowIpcProfile parse bytes
  let _ ← (allocationFrames parse bytes allocationLimit).2

/-! ## The checked walk only refuses -/

variable {parse} {bytes : List UInt8} {offset messageCount : Nat} {limit nestedValues : Nat}

protected theorem Refuses.profileMessage {headerEnd metadataLength : Nat} :
    Refuses (profileMessage parse bytes offset headerEnd metadataLength messageCount) := by
  unfold profileMessage
  refine .bind (.okOr _ _) fun metadataEnd hend => ?_
  refine .bind (.ensure _ _) fun _ hf => ?_
  have hle : headerEnd ≤ metadataEnd := by
    obtain ⟨-, rfl⟩ := checkedAdd_eq_some.1 (okOr_eq_ok.1 hend)
    omega
  rw [indexed_eq_ok hle (ensure_eq_ok.1 hf)]
  refine .bind (.ok _) fun _ _ => ?_
  refine .bind (.okOr _ _) fun _ _ => ?_
  refine .bind (.ensure _ _) fun _ _ => ?_
  refine .bind (.ensure _ _) fun _ _ => ?_
  refine .bind (.ensure _ _) fun _ _ => ?_
  refine .bind (.okOr _ _) fun _ _ => ?_
  refine .bind (.ensure _ _) fun _ _ => ?_
  exact .bind (.okOr _ _) fun _ _ => .ok _

protected theorem Refuses.profileFrame :
    Refuses (profileFrame parse bytes offset messageCount) := by
  unfold profileFrame
  refine .bind (.okOr _ _) fun _ hend => ?_
  refine .bind (.ensure _ _) fun _ hf => ?_
  obtain ⟨hwidth, rfl⟩ := checkedAdd_eq_some.1 (okOr_eq_ok.1 hend)
  have hf : offset + 8 ≤ bytes.length := ensure_eq_ok.1 hf
  rw [plainAdd_eq_ok (by omega : offset + 4 < 2 ^ 64)]
  refine .bind (.ok _) fun _ hstart => ?_
  cases hstart
  rw [indexed_eq_ok (by omega) (by omega : offset + 4 ≤ bytes.length), indexed_eq_ok (by omega) hf]
  refine .bind (.ok _) fun _ _ => ?_
  refine .bind (.ensure _ _) fun _ _ => ?_
  refine .bind (.ok _) fun _ _ => ?_
  split
  · exact .bind (.ensure _ _) fun _ _ => .ok _
  · exact .bind .profileMessage fun _ _ => .ok _

/-- What a frame of the checked walk has established. -/
structure Checked (parse : List UInt8 → Option Message) (bytes : List UInt8) (offset : Nat)
    (frame : Frame) (message : Message) : Prop where
  offset_eq : frame.offset = offset
  header : offset + 8 ≤ bytes.length
  width : offset + 8 < 2 ^ 64
  field : littleEndian ((bytes.drop (offset + 4)).take 4) = frame.metadataLength
  metadata_pos : frame.metadataLength ≠ 0
  metadata : offset + 8 + frame.metadataLength ≤ bytes.length
  parsed : parse ((bytes.drop (offset + 8)).take frame.metadataLength) = some message
  body : 0 ≤ message.bodyLength
  next : frame.next = offset + 8 + frame.metadataLength + message.bodyLength.toNat
  next_le : frame.next ≤ bytes.length
  next_width : frame.next < 2 ^ 64

/-- A round that answers has read its header, and its length field decides what it answers. -/
theorem profileFrame_eq_ok {result : Option Frame}
    (h : profileFrame parse bytes offset messageCount = .ok result) :
    offset + 8 ≤ bytes.length ∧ offset + 8 < 2 ^ 64 ∧
      let length := littleEndian ((bytes.drop (offset + 4)).take 4)
      (length = 0 ∧ offset + 8 = bytes.length ∧ result = none) ∨
        (length ≠ 0 ∧ ∃ frame, result = some frame ∧
          profileMessage parse bytes offset (offset + 8) length messageCount = .ok frame) := by
  simp only [profileFrame, ok_iff, checkedAdd_eq_some, exists_const] at h
  obtain ⟨_, ⟨hw, rfl⟩, hhd, _, hstart, _, -, -, _, hfl, h⟩ := h
  rw [plainAdd_eq_ok (by omega)] at hstart
  cases hstart
  rw [indexed_eq_ok (by omega) hhd] at hfl
  cases hfl
  have hfr : offset + 8 - (offset + 4) = 4 := by omega
  rw [hfr] at h
  refine ⟨hhd, hw, ?_⟩
  split at h
  · rename_i hz
    simp only [ok_iff, exists_const] at h
    exact .inl ⟨hz, h.1.2, h.2.symm⟩
  · rename_i hpos
    simp only [ok_iff] at h
    obtain ⟨frame, hms, hres⟩ := h
    exact .inr ⟨hpos, frame, hres.symm, hms⟩

theorem checked_of_profileFrame {frame : Frame}
    (h : profileFrame parse bytes offset messageCount = .ok (some frame)) :
    ∃ message, Checked parse bytes offset frame message := by
  obtain ⟨hhd, hw, ⟨-, -, hres⟩ | ⟨hpos, _, ⟨⟩, hms⟩⟩ := profileFrame_eq_ok h
  · cases hres
  simp only [profileMessage, ok_iff, checkedAdd_eq_some, exists_const] at hms
  obtain ⟨_, ⟨-, rfl⟩, hmet, _, hind, message, hpr, -, -, hb, _, ⟨hn, rfl⟩, hle, _, -, rfl⟩ := hms
  rw [indexed_eq_ok (by omega) hmet] at hind
  cases hind
  rw [Nat.add_sub_cancel_left] at hpr
  exact ⟨message, rfl, hhd, hw, rfl, hpos, hmet, hpr, hb, rfl, hle, hn⟩

theorem end_of_profileFrame (h : profileFrame parse bytes offset messageCount = .ok none) :
    offset + 8 = bytes.length ∧ offset + 8 < 2 ^ 64 ∧
      littleEndian ((bytes.drop (offset + 4)).take 4) = 0 := by
  obtain ⟨-, hw, ⟨hz, hend, -⟩ | ⟨-, _, hres, -⟩⟩ := profileFrame_eq_ok h
  · exact ⟨hend, hw, hz⟩
  · cases hres

theorem Checked.offset_lt {frame : Frame} {message : Message}
    (h : Checked parse bytes offset frame message) : offset < frame.next := by
  have hn := h.next
  omega

protected theorem Refuses.walkProfile {rounds : Nat} (hoff : offset ≤ bytes.length)
    (hr : bytes.length < offset + rounds) :
    Refuses (walkProfile parse bytes rounds offset messageCount) := by
  induction rounds generalizing offset messageCount with
  | zero => omega
  | succ rounds ih =>
    refine .bind .profileFrame fun found hfd => ?_
    cases found with
    | none => exact .ok _
    | some =>
      obtain ⟨_, hchk⟩ := checked_of_profileFrame hfd
      have hlt := hchk.offset_lt
      exact .bind (ih hchk.next_le (by omega)) fun _ _ => .ok _

/-! ## The unchecked walk follows it -/

protected theorem Refuses.checkBatch {allocationLimit nestedValues : Nat}
    {batch : Option BatchHeader} :
    Refuses (checkBatch allocationLimit nestedValues batch) := by
  have hn : ∀ (nodes : List Int) (nestedValues : Nat),
      Refuses (nodes.foldlM (countNodes allocationLimit) nestedValues) := by
    intro nodes
    induction nodes with
    | nil => exact fun nestedValues => .ok _
    | cons _ nodes ih =>
      intro nestedValues
      rw [foldlM_cons]
      refine .bind ?_ fun _ _ => ih _
      refine .bind (.ensure _ _) fun _ _ => ?_
      refine .bind (.ensure _ _) fun _ _ => ?_
      refine .bind (.okOr _ _) fun _ _ => ?_
      exact .bind (.ensure _ _) fun _ _ => .ok _
  cases batch with
  | none => exact .ok _
  | some batch => exact .bind (.ensure _ _) fun _ _ => hn _ _

/-- On a checked frame the unchecked round indexes within the bytes: it finds the same frame, or
refuses the message. -/
theorem allocationFrame_of_checked {frame : Frame} {message : Message}
    (h : Checked parse bytes offset frame message) :
    (∃ nested, allocationFrame parse bytes limit offset nestedValues = .ok (.inr (frame, nested))) ∨
      ∃ detail, allocationFrame parse bytes limit offset nestedValues =
        .error (.refused detail) := by
  have hhd := h.header
  have hw := h.width
  have hnx := h.next
  have hnextWidth := h.next_width
  have hfour : offset + 8 - (offset + 4) = 4 := by omega
  simp only [allocationFrame]
  rw [plainAdd_eq_ok (by omega : offset + 4 < 2 ^ 64), plainAdd_eq_ok hw]
  simp only [bind, Except.bind]
  rw [indexed_eq_ok (by omega) hhd, hfour]
  simp only [h.field, if_neg h.metadata_pos]
  rw [plainAdd_eq_ok (by omega : offset + 8 + frame.metadataLength < 2 ^ 64)]
  simp only
  rw [indexed_eq_ok (by omega) h.metadata, Nat.add_sub_cancel_left]
  simp only [h.parsed, okOr]
  cases hb : checkBatch limit nestedValues message.batch with
  | error halt =>
    obtain ⟨detail, rfl⟩ := Refuses.checkBatch halt hb
    exact .inr ⟨detail, rfl⟩
  | ok nested =>
    refine .inl ⟨nested, ?_⟩
    simp only [ensure, if_pos h.body]
    rw [plainAdd_eq_ok (by omega : frame.metadataLength + message.bodyLength.toNat < 2 ^ 64)]
    simp only
    rw [plainAdd_eq_ok (by omega :
      offset + 8 + (frame.metadataLength + message.bodyLength.toNat) < 2 ^ 64)]
    have hfr : (⟨offset, frame.metadataLength,
        offset + 8 + (frame.metadataLength + message.bodyLength.toNat)⟩ : Frame) = frame := by
      rw [← Nat.add_assoc, ← hnx, ← h.offset_eq]
    simp only [hfr]
    rfl

theorem allocationFrame_of_end (hend : offset + 8 = bytes.length)
    (hw : offset + 8 < 2 ^ 64) (hfl : littleEndian ((bytes.drop (offset + 4)).take 4) = 0) :
    allocationFrame parse bytes limit offset nestedValues = .ok (.inl bytes.length) := by
  have hfr : offset + 8 - (offset + 4) = 4 := by omega
  simp only [allocationFrame]
  rw [plainAdd_eq_ok (by omega : offset + 4 < 2 ^ 64), plainAdd_eq_ok hw]
  simp only [bind, Except.bind]
  rw [indexed_eq_ok (by omega) hend.le, hfr]
  simp only [hfl, if_true]
  rw [hend]
  rfl

/-- How the unchecked walk follows the checked one: it visits a front part of the frames and
refuses a message, or all of them and stops at the end of the bytes. -/
def Follows (bytes : List UInt8) (frames : List Frame) (walk : List Frame × Except Halt Nat) :
    Prop :=
  (walk.1 = frames ∧ walk.2 = .ok bytes.length) ∨
    (walk.1 <+: frames ∧ ∃ detail, walk.2 = .error (.refused detail))

/-- **Lock step.** The unchecked walk follows an accepted checked walk from the same offset. -/
theorem follows_walkAllocation {rounds : Nat} {frames : List Frame}
    (h : walkProfile parse bytes rounds offset messageCount = .ok frames) :
    Follows bytes frames (walkAllocation parse bytes limit rounds offset nestedValues) := by
  induction rounds generalizing offset messageCount frames nestedValues with
  | zero => cases h
  | succ rounds ih =>
    rw [walkProfile] at h
    obtain ⟨found, hfd, h⟩ := bind_eq_ok.1 h
    rw [walkAllocation]
    cases found with
    | none =>
      obtain rfl : [] = frames := pure_eq_ok.1 h
      obtain ⟨hend, hw, hfl⟩ := end_of_profileFrame hfd
      rw [allocationFrame_of_end hend hw hfl]
      exact .inl ⟨rfl, rfl⟩
    | some frame =>
      obtain ⟨rest, hr, h⟩ := bind_eq_ok.1 h
      obtain rfl : frame :: rest = frames := pure_eq_ok.1 h
      obtain ⟨_, hchk⟩ := checked_of_profileFrame hfd
      obtain ⟨nested, hfr⟩ | ⟨detail, hfr⟩ := allocationFrame_of_checked hchk
      · rw [hfr]
        dsimp only
        have hfol : Follows bytes rest
            (walkAllocation parse bytes limit rounds frame.next nested) := ih hr
        obtain ⟨hvis, hs⟩ | ⟨hvis, detail, hs⟩ := hfol
        · exact .inl ⟨congrArg _ hvis, hs⟩
        · exact .inr ⟨cons_prefix_cons.2 ⟨rfl, hvis⟩, detail, hs⟩
      · rw [hfr]
        exact .inr ⟨ nil_prefix, detail, rfl⟩

/-- Consecutive frames from an offset to the end marker. -/
def Tiled (bytes : List UInt8) : Nat → List Frame → Prop
  | offset, [] => offset + 8 = bytes.length
  | offset, frame :: frames => frame.offset = offset ∧ offset < frame.next ∧
      Tiled bytes frame.next frames

theorem tiled_walkProfile {rounds : Nat} {frames : List Frame}
    (h : walkProfile parse bytes rounds offset messageCount = .ok frames) :
    Tiled bytes offset frames := by
  induction rounds generalizing offset messageCount frames with
  | zero => cases h
  | succ rounds ih =>
    rw [walkProfile] at h
    obtain ⟨found, hfd, h⟩ := bind_eq_ok.1 h
    cases found with
    | none =>
      obtain rfl : [] = frames := pure_eq_ok.1 h
      exact (end_of_profileFrame hfd).1
    | some frame =>
      obtain ⟨rest, hr, h⟩ := bind_eq_ok.1 h
      obtain rfl : frame :: rest = frames := pure_eq_ok.1 h
      obtain ⟨_, hchk⟩ := checked_of_profileFrame hfd
      exact ⟨hchk.offset_eq, hchk.offset_lt, ih hr⟩

/-- **Framing safety.** For every byte string and parser, the checked walk ends within its rounds
without an access out of bounds or an overflow; where it accepts, its frames are consecutive up to
the end marker at the end of the bytes, and the unchecked walk visits the same frames up to there,
or refuses a message on the way. -/
theorem ipc_framing_safe (parse : List UInt8 → Option Message) (bytes : List UInt8)
    (allocationLimit : Nat) : Refuses (validateArrowIpcProfile parse bytes) ∧
      Refuses (validateResultIpcAllocationProfile parse bytes allocationLimit) ∧
      ∀ frames, profileFrames parse bytes = .ok frames →
        Tiled bytes 0 frames ∧
          Follows bytes frames (allocationFrames parse bytes allocationLimit) := by
  have hp : Refuses (profileFrames parse bytes) :=
    .walkProfile (Nat.zero_le _) (by omega)
  have hval : Refuses (validateArrowIpcProfile parse bytes) :=
    .bind hp fun _ _ => .ok _
  refine ⟨hval, .bind hval fun _ hacc => ?_, fun frames hfr =>
    ⟨tiled_walkProfile hfr, follows_walkAllocation hfr⟩⟩
  obtain ⟨frames, hfr, -⟩ := bind_eq_ok.1 hacc
  have hfol : Follows bytes frames (allocationFrames parse bytes allocationLimit) :=
    follows_walkAllocation hfr
  refine .bind ?_ fun _ _ => .ok _
  obtain ⟨-, hs⟩ | ⟨-, detail, hs⟩ := hfol
  · rw [hs]
    exact .ok _
  · rw [hs]
    rintro _ ⟨⟩
    exact ⟨detail, rfl⟩

/-- A parser that knows a schema message and a record batch of two rows with a body of one byte. -/
def sampleParse (metadata : List UInt8) : Option Message :=
  if metadata = [1] then some ⟨true, .schema, 0, none⟩
  else if metadata = [2, 2] then some ⟨true, .recordBatch, 1, some ⟨false, 2, some [2]⟩⟩
  else none

def sampleStream : List UInt8 :=
  continuationMarker ++ [1, 0, 0, 0, 1] ++ continuationMarker ++ [2, 0, 0, 0, 2, 2, 9] ++
    continuationMarker ++ [0, 0, 0, 0]

/-- Both walks visit the two frames of the sample stream. -/
theorem sample_framing : profileFrames sampleParse sampleStream = .ok [⟨0, 1, 9⟩, ⟨9, 2, 20⟩] ∧
    allocationFrames sampleParse sampleStream 10 = ([⟨0, 1, 9⟩, ⟨9, 2, 20⟩], .ok 28) ∧
    Tiled sampleStream 0 [⟨0, 1, 9⟩, ⟨9, 2, 20⟩] := by
  have hfr : profileFrames sampleParse sampleStream = .ok [⟨0, 1, 9⟩, ⟨9, 2, 20⟩] := by
    decide +kernel
  exact ⟨hfr, by decide +kernel, ((ipc_framing_safe sampleParse sampleStream 10).2.2 _ hfr).1⟩

end CodeFabric.Ipc

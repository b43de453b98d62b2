import CodeFabric.Support.Fallible

/-! # Workspace paths

The canonical form of a workspace-relative path (`WorkspacePath` in `identity.rs`): its components,
percent-escaped and joined by slashes.

**`decodeComponent_escape`**: whatever else is escaped, escaping `%` makes a component readable. -/

namespace CodeFabric.Identity

open Fallible
open List hiding Vector

/-- The failures of building and reading a path, of `IdentityError`. -/
inductive PathError
  | platform (code : Nat)
  | pathEncoding
  deriving DecidableEq, Repr

/-- Supported raw-path platform code. -/
inductive PlatformCode
  | unix | macOs | windowsWtf8
  deriving DecidableEq, Repr

def PlatformCode.code : PlatformCode → Nat
  | .unix => 1
  | .macOs => 2
  | .windowsWtf8 => 3

inductive CaseSensitivityMode
  | sensitive | insensitive
  deriving DecidableEq, Repr

/-- Reversible canonical workspace-relative path and its display and comparison views. -/
structure WorkspacePath where
  workspaceId : Vector UInt8 16
  platformCode : PlatformCode
  rawRelativePathBytes : List UInt8
  canonicalComponentBytes : List UInt8
  comparisonKeyBytes : List UInt8
  caseSensitivityMode : CaseSensitivityMode
  /-- The UTF-8 bytes of the text. -/
  displayString : List UInt8
  displayIsLossy : Bool
  deriving DecidableEq, Repr

/-- `std::str::from_utf8` accepts the bytes. -/
def isUtf8 (bytes : List UInt8) : Bool := ByteArray.validateUTF8 ⟨bytes.toArray⟩

def hexDigit (value : Nat) : UInt8 := .ofNat (if value < 10 then 48 + value else 55 + value)

/-- The text `%{byte:02X}`. -/
def escaped (byte : UInt8) : List UInt8 :=
  [37, hexDigit (byte.toNat / 16), hexDigit (byte.toNat % 16)]

def escape (escapes : UInt8 → Bool) (component : List UInt8) : List UInt8 :=
  component.flatMap fun byte => if escapes byte then escaped byte else [byte]

/-- Escape a component, and say whether it is no text. Text keeps its bytes but `/`, `%` and the
controls; of other components only the ASCII graphic bytes but `/` and `%` are kept. -/
def encodeComponent (component : List UInt8) : List UInt8 × Bool :=
  if isUtf8 component then
    (escape (fun byte => byte = 47 || byte = 37 || byte ≤ 31 || byte = 127) component, false)
  else
    (escape (fun byte => !(33 ≤ byte && byte ≤ 126 && !(byte = 47 || byte = 37))) component, true)

/-- The value of an uppercase hexadecimal digit. -/
def hexValue (digit : UInt8) : Option Nat :=
  if 48 ≤ digit ∧ digit ≤ 57 then some (digit.toNat - 48)
  else if 65 ≤ digit ∧ digit ≤ 70 then some (digit.toNat - 55)
  else none

def decodeComponent : List UInt8 → Except PathError (List UInt8)
  | [] => .ok []
  | byte :: rest =>
    if byte = 37 then
      match rest with
      | high :: low :: rest => do
        let high ← okOr (hexValue high) .pathEncoding
        let low ← okOr (hexValue low) .pathEncoding
        return .ofNat (16 * high + low) :: (← decodeComponent rest)
      | _ => .error .pathEncoding
    else do return byte :: (← decodeComponent rest)

/-- The escaped components, joined by slashes. -/
def canonicalBytes (components : List (List UInt8)) : List UInt8 :=
  [47].intercalate (components.map fun component => (encodeComponent component).1)

namespace WorkspacePath

/-- Build all path views from raw components. `fold` is the text folding (`nfd().case_fold()`) of
the external Unicode tables. -/
def fromComponents (fold : List UInt8 → List UInt8) (workspaceId : Vector UInt8 16)
    (platformCode : PlatformCode) (caseSensitivityMode : CaseSensitivityMode)
    (components : List (List UInt8)) : Except PathError WorkspacePath := do
  ensure (platformCode ≠ .windowsWtf8) (.platform platformCode.code)
  let rawRelativePathBytes := [47].intercalate components
  let display ← components.mapM fun component =>
    if isUtf8 component then return component
    else do
      ensure (isUtf8 (encodeComponent component).1) .pathEncoding
      return (encodeComponent component).1
  return {
    workspaceId
    platformCode
    rawRelativePathBytes
    canonicalComponentBytes := canonicalBytes components
    comparisonKeyBytes :=
      if platformCode = .macOs ∧ caseSensitivityMode = .insensitive ∧ components.all isUtf8 then
        fold rawRelativePathBytes
      else rawRelativePathBytes
    caseSensitivityMode
    displayString := [47].intercalate display
    displayIsLossy := components.any fun c => (encodeComponent c).2 }

/-- Decode canonical component bytes back to exact component bytes. -/
def decodedComponents (path : WorkspacePath) : Except PathError (List (List UInt8)) :=
  (path.canonicalComponentBytes.splitOn 47).mapM fun component => do
    let decoded ← decodeComponent component
    ensure ((encodeComponent decoded).1 = component) .pathEncoding
    return decoded

end WorkspacePath

theorem hexDigit_spec : ∀ value < 16,
    hexValue (hexDigit value) = some value ∧ 47 ≠ hexDigit value := by
  decide

section

variable {escapes : UInt8 → Bool} (component : List UInt8)

theorem decodeComponent_escape (h : escapes 37) :
    decodeComponent (escape escapes component) = .ok component := by
  induction component with
  | nil => rfl
  | cons byte component ih =>
    have hcons : escape escapes (byte :: component) =
      (if escapes byte then escaped byte else [byte]) ++ escape escapes component := flatMap_cons
    rw [hcons]
    split
    · have hlt := byte.toNat_lt
      have hval : 16 * UInt8.ofNat (byte.toNat / 16) + .ofNat (byte.toNat % 16) = byte := by
        simpa using congrArg UInt8.ofNat (Nat.div_add_mod byte.toNat 16)
      simp [escaped, decodeComponent, hexDigit_spec (byte.toNat / 16) (by omega),
        hexDigit_spec (byte.toNat % 16) (by omega), ih, hval, okOr, pure, Except.pure]
    · have hne : byte ≠ 37 := by
        rintro rfl
        contradiction
      rw [singleton_append, decodeComponent.eq_def]
      simp [hne, ih, pure, Except.pure]

theorem slash_notMem_escape (h : escapes 47) : 47 ∉ escape escapes component := by
  rw [escape, mem_flatMap]
  rintro ⟨byte, -, hmem⟩
  split at hmem
  · have hlt := byte.toNat_lt
    simp [escaped, hexDigit_spec (byte.toNat / 16) (by omega),
      hexDigit_spec (byte.toNat % 16) (by omega)] at hmem
  · obtain rfl := mem_singleton.1 hmem
    contradiction

theorem encodeComponent_eq : ∃ escapes : UInt8 → Bool, escapes 37 ∧ escapes 47 ∧
    (encodeComponent component).1 = escape escapes component := by
  unfold encodeComponent
  split
  · exact ⟨_, rfl, rfl, rfl⟩
  · exact ⟨_, rfl, rfl, rfl⟩

end

theorem encodeComponent_spec (component : List UInt8) : 47 ∉ (encodeComponent component).1 ∧
    decodeComponent (encodeComponent component).1 = .ok component := by
  obtain ⟨escapes, h37, h47, heq⟩ := encodeComponent_eq component
  rw [heq]
  exact ⟨slash_notMem_escape component h47, decodeComponent_escape component h37⟩

theorem decodedComponents_ok {path : WorkspacePath} {components : List (List UInt8)} :
    path.decodedComponents = .ok components ↔ path.canonicalComponentBytes.splitOn 47 =
      components.map fun component => (encodeComponent component).1 := by
  have hstep : ∀ encoded component, (∃ decoded, decodeComponent encoded = .ok decoded ∧
      ∃ _ : Unit, (encodeComponent decoded).1 = encoded ∧ decoded = component) ↔
      encoded = (encodeComponent component).1 := by
    intro encoded component
    constructor
    · rintro ⟨_, -, -, hcheck, rfl⟩
      exact hcheck.symm
    · rintro rfl
      exact ⟨component, (encodeComponent_spec component).2, (), rfl, rfl⟩
  simp only [WorkspacePath.decodedComponents, mapM_eq_ok, ok_iff, hstep]
  rw [← forall₂_map_right_iff, forall₂_eq_eq_eq]

/-- **Workspace paths**: the canonical bytes of a path built on Unix decode to the components it was
built from, so different components never share them; and bytes that decode at all are the canonical
bytes of what they decode to. -/
theorem workspacePath_decodes (fold : List UInt8 → List UInt8) (workspaceId : Vector UInt8 16)
    (mode : CaseSensitivityMode) :
    (∀ components path, components ≠ [] →
      WorkspacePath.fromComponents fold workspaceId .unix mode components = .ok path →
      path.decodedComponents = .ok components) ∧
    (∀ components components', components ≠ [] → components' ≠ [] →
      canonicalBytes components = canonicalBytes components' → components = components') ∧
    ∀ (path : WorkspacePath) components, path.decodedComponents = .ok components →
      path.canonicalComponentBytes = canonicalBytes components := by
  have hsplit : ∀ components, components ≠ [] → (canonicalBytes components).splitOn 47 =
      components.map fun component => (encodeComponent component).1 := by
    intro components hne
    refine splitOn_intercalate _ ?_ (by simpa using hne)
    simpa using fun component _ => (encodeComponent_spec component).1
  refine ⟨fun components path hne h => ?_, fun components components' hne hne' heq => ?_,
    fun path components h => ?_⟩
  · simp only [WorkspacePath.fromComponents, ok_iff] at h
    obtain ⟨_, -, _, -, rfl⟩ := h
    exact decodedComponents_ok.2 (hsplit components hne)
  · have hmap := (hsplit components hne).symm.trans (heq ▸ hsplit components' hne')
    refine map_injective_iff.2 (fun left right h => ?_) hmap
    have hleft := (encodeComponent_spec left).2
    rw [h, (encodeComponent_spec right).2] at hleft
    exact (Except.ok.inj hleft).symm
  · rw [canonicalBytes, ← decodedComponents_ok.1 h, intercalate_splitOn]

theorem workspacePath_decodes_sample : ∃ path,
    WorkspacePath.fromComponents id (.replicate 16 0) .unix .sensitive [[47, 37], [255]] =
      .ok path ∧
      path.decodedComponents = .ok [[47, 37], [255]] :=
  ⟨_, rfl, (workspacePath_decodes id _ .sensitive).1 _ _ (by decide) rfl⟩

end CodeFabric.Identity

import TyprCompanion.Compile.CompileRequest
import TyprCompanion.LivePreview.WsProtocol

/-!
# What a project is charged

The two validators add up the bytes of a project, one of them by decoding and one without.

* `ProjectFile.charge` — the bytes a file counts for.
* `CompileFiles.Charged`, `InitializeFiles.Charged` — the bytes added up so far are those of the files.
* **`base64_gate`** — what `isBase64` lets through, what it counts for in both validators, and that
  every encoding passes.
-/

namespace Typr

/-- The bytes a file counts for: four digits of base64 are three bytes. -/
def ProjectFile.charge : ProjectFile → Nat
  | text _ content => JSString.byteLength content
  | binary _ content => 3 * (content.filter (· != unit '=')).length / 4

/-- The bytes so far are those of the files so far. -/
def CompileFiles.Charged (state : CompileFiles) : Prop :=
  state.decodedProjectBytes = (state.files.map ProjectFile.charge).sum

def InitializeFiles.Charged (state : InitializeFiles) : Prop :=
  state.decodedBytes = (state.files.map ProjectFile.charge).sum

/-! ## The compile endpoint -/

theorem CompileFiles.Charged.step {platform : Platform} {index : Nat} {file : Json}
    {state state' : CompileFiles} (hstate : state.Charged)
    (h : validateCompileFile platform index file state = .ok state') : state'.Charged := by
  unfold validateCompileFile at h
  simp only [bind, Except.bind, pure, Except.pure, throw, throwThe, MonadExceptOf.throw] at h
  -- a file is only added once its checks passed
  repeat' split at h
  all_goals first
    | contradiction
    | skip
  all_goals
    obtain rfl := Except.ok.inj h
    unfold CompileFiles.Charged at hstate ⊢
    simp only [List.map_append, List.map_cons, List.map_nil, List.sum_append, List.sum_singleton,
      hstate]
  · rfl
  · next hbase64 =>
      exact congrArg (_ + ·) (length_fromBase64_filter (eq_true_of_ne_false hbase64))

/-- **The compile endpoint** charges what the files count for. -/
theorem CompileFiles.Charged.loop {platform : Platform} {index : Nat} {files : List Json}
    {state state' : CompileFiles} (hstate : state.Charged)
    (h : validateCompileFiles platform index files state = .ok state') : state'.Charged := by
  induction files generalizing index state with
  | nil =>
      obtain rfl := Except.ok.inj h
      exact hstate
  | cons file rest ih =>
      rw [validateCompileFiles] at h
      cases hfile : validateCompileFile platform index file state with
      | error message =>
          rw [hfile] at h
          cases h
      | ok next =>
          rw [hfile] at h
          exact ih (hstate.step hfile) h

/-! ## The live preview -/

theorem InitializeFiles.Charged.step {platform : Platform} {revision index : Nat} {file : Json}
    {state state' : InitializeFiles} (hstate : state.Charged)
    (h : validateInitializeFile platform revision index file state = .ok state') :
    state'.Charged := by
  unfold validateInitializeFile at h
  simp only [bind, Except.bind, pure, Except.pure, throw, throwThe, MonadExceptOf.throw] at h
  repeat' split at h
  all_goals first
    | contradiction
    | skip
  all_goals
    obtain rfl := Except.ok.inj h
    unfold InitializeFiles.Charged at hstate ⊢
    simp only [List.map_append, List.map_cons, List.map_nil, List.sum_append, List.sum_singleton,
      hstate]
  · rfl
  · next hbinary _ =>
      have hlength := length_fromBase64_filter hbinary.2.2
      rw [length_fromBase64 hbinary.2.2] at hlength
      exact congrArg (_ + ·) hlength

/-- **The live preview** charges the same. -/
theorem InitializeFiles.Charged.loop {platform : Platform} {revision index : Nat}
    {files : List Json} {state state' : InitializeFiles} (hstate : state.Charged)
    (h : validateInitializeFiles platform revision index files state = .ok state') :
    state'.Charged := by
  induction files generalizing index state with
  | nil =>
      obtain rfl := Except.ok.inj h
      exact hstate
  | cons file rest ih =>
      rw [validateInitializeFiles] at h
      cases hfile : validateInitializeFile platform revision index file state with
      | error refusal =>
          rw [hfile] at h
          cases h
      | ok next =>
          rw [hfile] at h
          exact ih (hstate.step hfile) h

/-! ## The gate -/

/-- **The gate of base64.**  It lets through groups of four units and a last group of two or three,
padded or not; such a text decodes to three bytes for four units, whether it is decoded or not; both
validators charge a file that; and every encoding passes, with its padding and without. -/
theorem base64_gate :
    (∀ s, isBase64 s = true ↔ Base64Text s) ∧
    (∀ s, isBase64 s = true →
      (fromBase64 s).length = 3 * (s.filter (· != unit '=')).length / 4 ∧
      base64ByteLength s = 3 * (s.filter (· != unit '=')).length / 4) ∧
    (∀ platform files state, validateCompileFiles platform 0 files ⟨[], [], 0⟩ = .ok state →
      state.decodedProjectBytes = (state.files.map ProjectFile.charge).sum) ∧
    (∀ platform revision files state,
      validateInitializeFiles platform revision 0 files ⟨[], [], 0⟩ = .ok state →
      state.decodedBytes = (state.files.map ProjectFile.charge).sum) ∧
    ∀ bytes, isBase64 (toBase64 bytes) = true ∧
      isBase64 ((toBase64 bytes).filter (· != unit '=')) = true := by
  refine ⟨fun s => isBase64_eq_true, fun s h => ⟨length_fromBase64_filter h, ?_⟩,
    fun platform files state h => ?_, fun platform revision files state h => ?_, fun bytes => ?_⟩
  · rw [← length_fromBase64 h]
    exact length_fromBase64_filter h
  · have hstart : CompileFiles.Charged ⟨[], [], 0⟩ := rfl
    exact hstart.loop h
  · have hstart : InitializeFiles.Charged ⟨[], [], 0⟩ := rfl
    exact hstart.loop h
  · obtain ⟨hpadded, hplain⟩ := base64Text_toBase64 bytes
    exact ⟨isBase64_eq_true.mpr hpadded, isBase64_eq_true.mpr hplain⟩

end Typr

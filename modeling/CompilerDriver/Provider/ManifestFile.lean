import CompilerDriver.Form.Manifest
import CompilerDriver.World
/-!
Reading the file of a manifest.
-/
namespace CompilerDriver.ManifestFile

/-- The name of the file in the directory of a provider. -/
def fileName : String := "provider.json"

/-- What is wrong with a file. -/
inductive Cause where
  | unreadable (fault : File.Fault)
  | malformed (message : String)
  | defective (defect : Manifest.Defect)

/-- The cause in words. -/
def Cause.message : Cause → String
  | unreadable f => f.message
  | malformed m => m
  | defective d => d.message

/-- Why there is no manifest in a file. -/
structure Error where
  path : String
  cause : Cause

/-- The error in words. -/
def Error.text (e : Error) : String := s!"invalid provider manifest {e.path}: {e.cause.message}"

/-- The manifest that a text describes. -/
def read (text : String) : Except String Manifest :=
  Json.Reader.run (Manifest.reader Json.Reader.greatestDepth) text

/-- The manifest in a file. Its directory is that of the file. -/
def load (w : World) (path : String) : Except Error Manifest :=
  match w.readText path with
  | .error f => .error ⟨path, .unreadable f⟩
  | .ok text =>
    match read text with
    | .error m => .error ⟨path, .malformed m⟩
    | .ok m =>
      match m.defect? with
      | some d => .error ⟨path, .defective d⟩
      | none => .ok { m with baseDir := File.Path.parent? path }

/-- A file holds the manifest that its text describes, if that has no defect. -/
theorem load_eq_ok_iff {w : World} {path : String} {m : Manifest} :
    load w path = .ok m ↔ ∃ text m', w.readText path = .ok text ∧ read text = .ok m' ∧
      m'.defect? = none ∧ m = { m' with baseDir := File.Path.parent? path } := by
  unfold load
  cases hr : w.readText path with
  | error f => simp
  | ok text =>
    cases hm : read text with
    | error e => simp [hm]
    | ok m' =>
      cases hd : m'.defect? with
      | some d => simp [hm, hd]
      | none => simp [hm, hd, eq_comm]

end CompilerDriver.ManifestFile

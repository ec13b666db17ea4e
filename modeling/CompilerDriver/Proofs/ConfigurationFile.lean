import CompilerDriver.ConfigurationFile
import CompilerDriver.Proofs.File.Writing
import CompilerDriver.Proofs.Form
/-!
A configuration that is saved is what is loaded from the file.

Two things keep a configuration from coming back: the directory of a manifest is not written, and a text whose brackets
are nested too deep is not read. Apart from these, only the place of the file decides whether saving succeeds.
-/
namespace CompilerDriver

-- A configuration that can be told in full by its file.
structure Configuration.Storable (c : Configuration) : Prop where
  base : ∀ m ∈ c.providers, m.baseDir = none
  days : c.update.intervalDays < 2 ^ 64
  depth : c.toDocument.depth ≤ 127

theorem Configuration.Storable.read_write {c : Configuration} (h : c.Storable) : Configuration.read c.write = .ok c :=
  (c.reads h.base h.days).run h.depth

namespace ConfigurationFile

variable {w w' : World} {path : String} {c : Configuration}

theorem load_of_readText (h : w.readText path = .ok c.write) (hc : c.Storable) : load w path = .ok c := by
  rw [load, h]
  simp only [hc.read_write]

-- Saving succeeds wherever a file can be written. Then the configuration is loaded again as it was, and saving what was
-- loaded changes nothing more.
theorem load_save (w : World) (path : String) (h : c.Storable) :
    ((∃ w', save w path c = .ok w') ↔ w.Writable path) ∧
    ∀ w', save w path c = .ok w' →
      load w' path = .ok c ∧ ∀ c', load w' path = .ok c' → save w' path c' = .ok w' := by
  refine ⟨World.exists_writeText_iff, fun w' hs => ?_⟩
  have hload := load_of_readText (World.readText_of_writeText hs) h
  refine ⟨hload, fun c' hc' => ?_⟩
  obtain rfl := Except.ok.inj (hload.symm.trans hc')
  exact (World.writeText_of_writeText hs c.write).trans hs

-- A configuration with everything that needs care: all kinds of escaped and long characters, texts that are empty but
-- there, groups in groups, and the greatest number of days.
def awkward : Configuration where
  providers := [{
    name := "a\"b\\c/\x01\x1f\x7f"
    usage := some ""
    description := some "\t\r\n\x08\x0cé€😀"
    command := ""
    args := ["", "--", "\x00"]
    env := .ofList [("B", "\""), ("A", ""), ("", "=")]
    options := [{ name := "", short := some '"', valueName := some "" }, { name := "x", multiple := true }]
    groups := [{ summary := "g", description := some "",
                 groups := [{ summary := "", options := [{ name := "y", short := some '\x00' }] }] }] }]
  providerPaths := ["", "../é"]
  update := { enabled := false, endpoint := "\\", intervalDays := 2 ^ 64 - 1 }

-- A home directory in which the file of the configuration is no text.
def littered : World where
  files := .dir [("home", .dir [(".pshdl.config.json", .file [0xff, 0x00] false)])]
  cwd := "/home"

theorem load_save_awkward : awkward.Storable ∧ ∃ w', save littered localName awkward = .ok w' ∧
    load w' localName = .ok awkward ∧ ∀ c', load w' localName = .ok c' → save w' localName c' = .ok w' := by
  have hstorable : awkward.Storable := ⟨by decide, by decide, by decide⟩
  obtain ⟨w', hsave⟩ : ∃ w', save littered localName awkward = .ok w' := ⟨_, rfl⟩
  exact ⟨hstorable, w', hsave, (load_save littered localName hstorable).right w' hsave⟩

end ConfigurationFile
end CompilerDriver

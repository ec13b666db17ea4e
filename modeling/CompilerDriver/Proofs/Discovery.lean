import CompilerDriver.Discovery
import CompilerDriver.Proofs.File.Changes
import CompilerDriver.Proofs.Text.ByteOrder
import Mathlib.Data.List.Sort
import Mathlib.Data.String.Basic
/-!
What discovery finds, told from what can be seen of the files.

Each search path that leads to a directory comes upon the manifests of its subdirectories, in the order of their
names. All of them are judged one by one, so a manifest that fails changes nothing for the others.
-/
namespace CompilerDriver

open File

namespace World

variable {w : World} {path : String} {p : List String}

-- Where a path leads.
def place? (w : World) (path : String) : Option (List String) :=
  w.files.place? w.cwd path

-- The directory that a path leads to.
def directory? (w : World) (path : String) : Option (List String) :=
  (w.place? path).filter w.files.isDir

theorem directory?_eq_some_iff : w.directory? path = some p ↔ w.place? path = some p ∧ w.files.isDir p = true := by
  rw [directory?, Option.filter_eq_some_iff]

-- Where paths lead depends on the directories alone.
theorem place?_congr {files : Tree} (h : ∀ p, files.isDir p = w.files.isDir p) (path : String) :
    { w with files }.place? path = w.place? path :=
  Tree.place?_congr h

theorem directory?_congr {files : Tree} (h : ∀ p, files.isDir p = w.files.isDir p) (path : String) :
    { w with files }.directory? path = w.directory? path := by
  rw [directory?, directory?, place?_congr h]
  exact congrArg (Option.filter · _) (funext h)

-- A file is read from the place that its path leads to.
theorem readText_congr {w₁ w₂ : World} {path₁ path₂ : String} {p₁ p₂ : List String} {bytes : List UInt8}
    (h₁ : w₁.place? path₁ = some p₁) (h₂ : w₂.place? path₂ = some p₂) (hb₁ : w₁.files.content? p₁ = some bytes)
    (hb₂ : w₂.files.content? p₂ = some bytes) : w₁.readText path₁ = w₂.readText path₂ := by
  rw [readText, readText, Tree.readText_eq h₁ hb₁, Tree.readText_eq h₂ hb₂]

end World

namespace Discovery

variable {w : World} {dir n : String} {p : List String}

theorem proper_fileName : Path.Proper ManifestFile.fileName :=
  ⟨by decide, by decide, by decide⟩

-- The names of the subdirectories with a manifest, in their order.
def subdirectories (w : World) (p : List String) : List String :=
  ((w.files.listing p).mergeSort fun a b => decide (a ≤ b)).filter fun n =>
    (w.files.content? (p ++ [n, ManifestFile.fileName])).isSome

-- The paths of the manifests that a search path comes upon.
def manifestPaths (w : World) (dir : String) : List String :=
  ((w.directory? dir).map fun p => (subdirectories w p).map (manifestPath dir)).getD []

theorem mem_subdirectories : n ∈ subdirectories w p ↔
    n ∈ w.files.listing p ∧ (w.files.content? (p ++ [n, ManifestFile.fileName])).isSome := by
  rw [subdirectories, List.mem_filter, List.mem_mergeSort]

theorem subdirectories_pairwise (h : (w.files.listing p).Nodup) : (subdirectories w p).Pairwise (· < ·) := by
  have hsort := List.pairwise_mergeSort' (· ≤ ·) (w.files.listing p)
  have hnodup := (List.mergeSort_perm (w.files.listing p) fun a b => decide (a ≤ b)).nodup_iff.mpr h
  exact (hsort.and hnodup).imp (fun ⟨hle, hne⟩ => lt_of_le_of_ne hle hne) |>.filter _

theorem place?_manifestPath (hn : Path.Proper n) (h : w.directory? dir = some p) :
    w.place? (manifestPath dir n) =
      if w.files.isDir (p ++ [n]) then some (p ++ [n, ManifestFile.fileName]) else none := by
  have ⟨hp, hdir⟩ := World.directory?_eq_some_iff.mp h
  have hjoin := Tree.place?_join hn hp
  rw [if_pos hdir] at hjoin
  rw [World.place?, manifestPath, Tree.place?_join proper_fileName hjoin, List.append_assoc]
  rfl

theorem isFile_manifestPath (hn : Path.Proper n) (h : w.directory? dir = some p) :
    w.isFile (manifestPath dir n) = (w.files.content? (p ++ [n, ManifestFile.fileName])).isSome := by
  have hplace := place?_manifestPath hn h
  split at hplace
  case isTrue => exact Tree.isFile_eq hplace
  case isFalse hdir =>
    -- Without the subdirectory there is nothing in it.
    have hnone : (w.files.content? (p ++ [n, ManifestFile.fileName])).isSome = false := by
      rw [List.append_cons p n, Bool.eq_false_iff]
      exact fun hs => hdir (Tree.isDir_of_content? hs)
    rw [hnone]
    exact Tree.isFile_eq_false hplace

theorem inDirectory_eq (hw : w.files.Proper) (dir : String) :
    inDirectory w dir = (manifestPaths w dir).map (ofFile w) := by
  rw [inDirectory, manifestPaths]
  cases hdir : w.directory? dir
  case none =>
    have hnames : w.files.names w.cwd dir = [] := by
      cases hp : w.place? dir
      case none => exact Tree.names_eq_nil hp
      case some p =>
        rw [Tree.names_eq hp]
        exact Tree.listing_eq_nil fun hd => by simp [World.directory?_eq_some_iff.mpr ⟨hp, hd⟩] at hdir
    simp [hnames]
  case some p =>
    have ⟨hp, _⟩ := World.directory?_eq_some_iff.mp hdir
    rw [Tree.names_eq hp, List.filter_map, Option.map_some, Option.getD_some, subdirectories]
    refine congrArg (List.map (ofFile w)) (congrArg (List.map (manifestPath dir)) (List.filter_congr fun n hn => ?_))
    exact isFile_manifestPath ((hw p).right n (List.mem_mergeSort.mp hn)) hdir

-- The warning about a manifest of the configuration.
def inlineWarning? (m : Manifest) : Option Event :=
  m.defect?.map fun d => .log .warn s!"Skipping provider from config: {d.message}"

-- The warning about a file.
def fileWarning? (w : World) (file : String) : Option Event :=
  match ManifestFile.load w file with
  | .ok _ => none
  | .error e => some (.log .warn e.text)

-- The warnings about what a search path comes upon.
def warningsIn (w : World) (dir : String) : List Event :=
  (manifestPaths w dir).filterMap (fileWarning? w)

-- The manifests that a search path comes upon and that can be used.
def foundIn (w : World) (dir : String) : List Manifest :=
  (manifestPaths w dir).filterMap fun file => (ManifestFile.load w file).toOption

-- The last line says what was found.
def summaryOf (found : List Manifest) : Event :=
  .log .debug s!"Discovered providers: {Text.Quoted.encodeList (found.map (·.name))}"

theorem manifest?_ofInline (m : Manifest) : manifest? (ofInline m) = if m.defect? = none then some m else none := by
  cases hd : m.defect? <;> simp [ofInline, hd, manifest?]

theorem warning?_ofInline (m : Manifest) : warning? (ofInline m) = inlineWarning? m := by
  cases hd : m.defect? <;> simp [ofInline, hd, warning?, inlineWarning?]

theorem manifest?_ofFile (w : World) (file : String) :
    manifest? (ofFile w file) = (ManifestFile.load w file).toOption := by
  cases hl : ManifestFile.load w file <;> simp [ofFile, hl, manifest?, Except.toOption]

theorem warning?_ofFile (w : World) (file : String) : warning? (ofFile w file) = fileWarning? w file := by
  cases hl : ManifestFile.load w file <;> simp [ofFile, hl, warning?, fileWarning?]

-- What is told of each candidate is told of each manifest that a search path comes upon.
theorem filterMap_inDirectory {α : Type} {f : Candidate → Option α} {g : String → Option α} (hw : w.files.Proper)
    (h : ∀ file, f (ofFile w file) = g file) (paths : List String) :
    (paths.flatMap (inDirectory w)).filterMap f = paths.flatMap fun dir => (manifestPaths w dir).filterMap g := by
  rw [List.filterMap_flatMap]
  refine List.flatMap_congr fun dir _ => ?_
  rw [inDirectory_eq hw, List.filterMap_map]
  exact List.filterMap_congr fun file _ => h file

-- The manifests of the configuration come before those of the search paths, and each is judged on its own.
theorem discover_eq (hw : w.files.Proper) (c : Configuration) (paths : List String) :
    let found := c.providers.filter (·.defect? = none) ++ paths.flatMap (foundIn w)
    discover w c paths =
      (found, c.providers.filterMap inlineWarning? ++ paths.flatMap (warningsIn w) ++ [summaryOf found]) := by
  have hinline : (c.providers.map ofInline).filterMap manifest? = c.providers.filter (·.defect? = none) := by
    rw [List.filterMap_map, ← List.filterMap_eq_filter]
    refine List.filterMap_congr fun m _ => (manifest?_ofInline m).trans ?_
    simp [Option.guard]
  have hwarnings : (c.providers.map ofInline).filterMap warning? = c.providers.filterMap inlineWarning? := by
    rw [List.filterMap_map]
    exact List.filterMap_congr fun m _ => warning?_ofInline m
  have hfound : (paths.flatMap (inDirectory w)).filterMap manifest? = paths.flatMap (foundIn w) :=
    filterMap_inDirectory hw (manifest?_ofFile w) paths
  have hskipped : (paths.flatMap (inDirectory w)).filterMap warning? = paths.flatMap (warningsIn w) :=
    filterMap_inDirectory hw (warning?_ofFile w) paths
  simp only [discover, candidates, List.filterMap_append, hinline, hwarnings, hfound, hskipped, summaryOf]

-- A manifest that is come upon is the file in its subdirectory.
theorem place?_of_mem (hw : w.files.Proper) (h : w.directory? dir = some p) (hn : n ∈ subdirectories w p) :
    w.place? (manifestPath dir n) = some (p ++ [n, ManifestFile.fileName]) := by
  have ⟨hlisted, hfile⟩ := mem_subdirectories.mp hn
  rw [place?_manifestPath ((hw p).right n hlisted) h, if_pos]
  rw [List.append_cons p n] at hfile
  exact Tree.isDir_of_content? hfile

theorem exists_of_mem_manifestPaths {file : String} (hw : w.files.Proper) (h : file ∈ manifestPaths w dir) :
    ∃ p n bytes, w.place? file = some (p ++ [n, ManifestFile.fileName]) ∧
      w.files.content? (p ++ [n, ManifestFile.fileName]) = some bytes := by
  rw [manifestPaths] at h
  cases hdir : w.directory? dir
  case none => simp [hdir] at h
  case some p =>
    obtain ⟨n, hn, rfl⟩ : ∃ n ∈ subdirectories w p, manifestPath dir n = file := by simpa [hdir] using h
    have ⟨bytes, hb⟩ := Option.isSome_iff_exists.mp (mem_subdirectories.mp hn).right
    exact ⟨p, n, bytes, place?_of_mem hw hdir hn, hb⟩

-- A manifest is loaded as it is if its bytes are still there.
theorem load_congr {files : Tree} {file : String} {bytes : List UInt8} {p : List String}
    (hdirs : ∀ p, files.isDir p = w.files.isDir p) (hp : w.place? file = some p)
    (hb : w.files.content? p = some bytes) (hb' : files.content? p = some bytes) :
    ManifestFile.load { w with files } file = ManifestFile.load w file := by
  have htext : { w with files }.readText file = w.readText file :=
    World.readText_congr ((World.place?_congr hdirs file).trans hp) hp hb' hb
  rw [ManifestFile.load, htext, ManifestFile.load]

-- Trees that list their names in another order lead to the same manifests.
theorem discover_reordered {files : Tree} (h : w.files.Reordered files) (hw : w.files.Proper) (c : Configuration)
    (paths : List String) : discover { w with files } c paths = discover w c paths := by
  have hdirs : ∀ p, files.isDir p = w.files.isDir p := fun p => (h.dirs p).symm
  have hsub : ∀ p, subdirectories { w with files } p = subdirectories w p := by
    intro p
    refine (subdirectories_pairwise (h.proper hw p).left).eq_of_mem_iff (subdirectories_pairwise (hw p).left) ?_
    intro n
    rw [mem_subdirectories, mem_subdirectories, (h.listing p).mem_iff, h.files]
  have hpaths : ∀ dir, manifestPaths { w with files } dir = manifestPaths w dir := by
    intro dir
    rw [manifestPaths, manifestPaths, World.directory?_congr hdirs, funext hsub]
  have hload : ∀ dir, ∀ file ∈ manifestPaths w dir,
      ManifestFile.load { w with files } file = ManifestFile.load w file := by
    intro dir file hfile
    have ⟨p, n, bytes, hplace, hb⟩ := exists_of_mem_manifestPaths hw hfile
    exact load_congr hdirs hplace hb (h.files _ ▸ hb)
  have hfound : foundIn { w with files } = foundIn w := by
    funext dir
    rw [foundIn, foundIn, hpaths]
    exact List.filterMap_congr fun file hfile => by rw [hload dir file hfile]
  have hwarned : warningsIn { w with files } = warningsIn w := by
    funext dir
    rw [warningsIn, warningsIn, hpaths]
    exact List.filterMap_congr fun file hfile => by rw [fileWarning?, fileWarning?, hload dir file hfile]
  rw [discover_eq hw, discover_eq (h.proper hw), hfound, hwarned]

-- A search path that leads to no directory comes upon nothing.
theorem manifestPaths_eq_nil (h : w.directory? dir = none) : manifestPaths w dir = [] := by
  rw [manifestPaths, h]
  rfl

theorem discover_missing (hw : w.files.Proper) (c : Configuration) (before after : List String)
    (h : w.directory? dir = none) : discover w c (before ++ dir :: after) = discover w c (before ++ after) := by
  have hfound : foundIn w dir = [] := by rw [foundIn, manifestPaths_eq_nil h, List.filterMap_nil]
  have hwarned : warningsIn w dir = [] := by rw [warningsIn, manifestPaths_eq_nil h, List.filterMap_nil]
  simp only [discover_eq hw, List.flatMap_append, List.flatMap_cons, hfound, hwarned, List.nil_append]

-- The second list is the first one without the element `x` at one place.
def Drops {α : Type} (x : α) (xs ys : List α) : Prop :=
  ∃ before after, xs = before ++ x :: after ∧ ys = before ++ after

namespace Drops

variable {α β : Type} {x : α} {xs ys : List α}

theorem append (h : Drops x xs ys) (zs zs' : List α) : Drops x (zs ++ xs ++ zs') (zs ++ ys ++ zs') := by
  obtain ⟨before, after, rfl, rfl⟩ := h
  exact ⟨zs ++ before, after ++ zs', by simp, by simp⟩

theorem filterMap_of_some {f : α → Option β} {y : β} (h : Drops x xs ys) (hf : f x = some y) :
    Drops y (xs.filterMap f) (ys.filterMap f) := by
  obtain ⟨before, after, rfl, rfl⟩ := h
  exact ⟨before.filterMap f, after.filterMap f, by simp [hf], by simp⟩

theorem filterMap_of_none {f : α → Option β} (h : Drops x xs ys) (hf : f x = none) :
    xs.filterMap f = ys.filterMap f := by
  obtain ⟨before, after, rfl, rfl⟩ := h
  simp [hf]

theorem map (f : α → β) (h : Drops x xs ys) : Drops (f x) (xs.map f) (ys.map f) := by
  obtain ⟨before, after, rfl, rfl⟩ := h
  exact ⟨before.map f, after.map f, by simp, by simp⟩

theorem of_mem [DecidableEq α] (hx : x ∈ xs) (hn : xs.Nodup) : Drops x xs (xs.filter (· ≠ x)) := by
  obtain ⟨before, after, rfl⟩ := List.append_of_mem hx
  have ⟨hbefore, hafter⟩ : x ∉ before ∧ x ∉ after := by
    have := List.nodup_middle.mp hn
    simpa using (List.nodup_cons.mp this).left
  have hkeep : ∀ zs : List α, x ∉ zs → zs.filter (· ≠ x) = zs := by
    intro zs hz
    refine List.filter_eq_self.mpr fun z hm => ?_
    simpa using fun he : z = x => hz (he ▸ hm)
  refine ⟨before, after, rfl, ?_⟩
  rw [List.filter_append, List.filter_cons_of_neg (by simp), hkeep before hbefore, hkeep after hafter]

end Drops

theorem discover_inline (hw : w.files.Proper) (paths : List String) {ms ms' : List Manifest} {m : Manifest}
    {d : Manifest.Defect} (h : Drops m ms ms') (hd : m.defect? = some d) (c : Configuration) :
    ∃ found ws ws', discover w { c with providers := ms } paths = (found, ws) ∧
      discover w { c with providers := ms' } paths = (found, ws') ∧
      Drops (.log .warn s!"Skipping provider from config: {d.message}") ws ws' := by
  have hfilter : ms.filter (·.defect? = none) = ms'.filter (·.defect? = none) := by
    rw [← List.filterMap_eq_filter]
    exact h.filterMap_of_none (by simp [Option.guard, hd])
  have hwarned := h.filterMap_of_some (show inlineWarning? m = some _ by rw [inlineWarning?, hd]; rfl)
  rw [discover_eq hw, discover_eq hw]
  simp only [hfilter]
  refine ⟨_, _, _, rfl, rfl, ?_⟩
  simpa only [List.nil_append, List.append_assoc] using hwarned.append [] (paths.flatMap (warningsIn w) ++ _)

section Removal

variable (hw : w.files.Proper) {bytes : List UInt8}
  (hb : w.files.content? (p ++ [n, ManifestFile.fileName]) = some bytes)

-- The world without the manifest of the subdirectory `n` of the directory at `p`.
def without (w : World) (p : List String) (n : String) : World :=
  { w with files := w.files.remove ManifestFile.fileName (p ++ [n]) }

include hb

theorem lacks_without : Tree.Lacks (without w p n).files w.files (p ++ [n]) ManifestFile.fileName :=
  Tree.lacks_remove (List.append_cons p n _ ▸ hb)

include hw

theorem subdirectories_without (p' : List String) :
    subdirectories (without w p n) p' = (subdirectories w p').filter fun m => ¬(p' = p ∧ m = n) := by
  have hl := lacks_without hb
  have hsame : ∀ m, p' ++ [m, ManifestFile.fileName] = p ++ [n] ++ [ManifestFile.fileName] ↔ p' = p ∧ m = n := by
    intro m
    rw [List.append_assoc]
    constructor
    case mp =>
      intro h
      have ⟨hp, hm⟩ := List.append_inj' h rfl
      simpa [hp] using hm
    case mpr => rintro ⟨rfl, rfl⟩; rfl
  -- Below the file that is taken out there was nothing to come upon.
  have hbelow : ∀ m, p' = p ++ [n] → (w.files.content? (p' ++ [m, ManifestFile.fileName])).isSome →
      m ≠ ManifestFile.fileName := by
    rintro m rfl hfile rfl
    rw [List.append_cons] at hfile
    refine Tree.not_isDir_of_content? hb ?_
    simpa using Tree.isDir_of_content? hfile
  refine (subdirectories_pairwise (hl.proper hw p').left).eq_of_mem_iff
    ((subdirectories_pairwise (hw p').left).filter _) fun m => ?_
  rw [mem_subdirectories, List.mem_filter, mem_subdirectories, hl.files, decide_eq_true_eq, ← hsame m, hl.listing]
  constructor
  case mp =>
    intro ⟨hlisted, hfile⟩
    split at hfile
    case isTrue => cases hfile
    case isFalse hne =>
      refine ⟨⟨?_, hfile⟩, hne⟩
      split at hlisted
      case isTrue => exact List.mem_of_mem_filter hlisted
      case isFalse => exact hlisted
  case mpr =>
    intro ⟨⟨hlisted, hfile⟩, hne⟩
    rw [if_neg hne]
    refine ⟨?_, hfile⟩
    split
    case isTrue hp => exact List.mem_filter.mpr ⟨hlisted, decide_eq_true (hbelow m hp hfile)⟩
    case isFalse => exact hlisted

omit hw in
theorem directory?_without (dir : String) : (without w p n).directory? dir = w.directory? dir :=
  World.directory?_congr (lacks_without hb).dirs dir

-- Search paths that do not lead to the directory of the subdirectory come upon the same as before.
theorem manifestPaths_without_of_ne (h : w.directory? dir ≠ some p) :
    manifestPaths (without w p n) dir = manifestPaths w dir := by
  rw [manifestPaths, manifestPaths, directory?_without hb]
  cases hdir : w.directory? dir
  case none => rfl
  case some p' =>
    have hp : p' ≠ p := fun he => h (he ▸ hdir)
    rw [Option.map_some, Option.map_some, subdirectories_without hw hb, List.filter_eq_self.mpr]
    exact fun m _ => by simp [hp]

-- Those that lead there come upon one manifest less.
theorem manifestPaths_without (h : w.directory? dir = some p) (hn : n ∈ subdirectories w p) :
    Drops (manifestPath dir n) (manifestPaths w dir) (manifestPaths (without w p n) dir) := by
  have hnodup : (subdirectories w p).Nodup := (subdirectories_pairwise (hw p).left).imp ne_of_lt
  have hdrops := (Drops.of_mem hn hnodup).map (manifestPath dir)
  rw [manifestPaths, manifestPaths, directory?_without hb, h, Option.map_some, Option.map_some,
    subdirectories_without hw hb]
  simpa using hdrops

-- What is still come upon is loaded as before.
theorem load_without {file : String} (h : file ∈ manifestPaths (without w p n) dir) :
    ManifestFile.load (without w p n) file = ManifestFile.load w file := by
  have hl := lacks_without hb
  have ⟨p', m, bytes', hplace, hb'⟩ := exists_of_mem_manifestPaths (hl.proper hw) h
  have hthere : w.files.content? (p' ++ [m, ManifestFile.fileName]) = some bytes' := by
    have hfiles := hl.files (p' ++ [m, ManifestFile.fileName])
    rw [hb'] at hfiles
    split at hfiles
    case isTrue => cases hfiles
    case isFalse => exact hfiles.symm
  exact load_congr hl.dirs ((World.place?_congr hl.dirs file).symm.trans hplace) hthere hb'

-- The manifest fails at each path that leads to it, since its text does.
theorem exists_load_eq_error {dir' : String} {e : ManifestFile.Error} (h : w.directory? dir = some p)
    (h' : w.directory? dir' = some p) (hn : n ∈ subdirectories w p)
    (he : ManifestFile.load w (manifestPath dir n) = .error e) :
    ∃ e', ManifestFile.load w (manifestPath dir' n) = .error e' := by
  have htext : w.readText (manifestPath dir' n) = w.readText (manifestPath dir n) :=
    World.readText_congr (place?_of_mem hw h' hn) (place?_of_mem hw h hn) hb hb
  cases hl : ManifestFile.load w (manifestPath dir' n)
  case error e' => exact ⟨e', rfl⟩
  case ok m =>
    have ⟨text, m', hr, hm, hd, _⟩ := ManifestFile.load_eq_ok_iff.mp hl
    have hok := ManifestFile.load_eq_ok_iff.mpr ⟨text, m', htext ▸ hr, hm, hd, rfl⟩
    cases hok.symm.trans he

theorem foundIn_without (dir : String) : foundIn (without w p n) dir =
    (manifestPaths (without w p n) dir).filterMap fun file => (ManifestFile.load w file).toOption :=
  List.filterMap_congr fun _ hfile => by rw [load_without hw hb hfile]

theorem warningsIn_without (dir : String) : warningsIn (without w p n) dir =
    (manifestPaths (without w p n) dir).filterMap (fileWarning? w) :=
  List.filterMap_congr fun _ hfile => by rw [fileWarning?, load_without hw hb hfile, fileWarning?]

theorem warningsIn_without_of_ne (h : w.directory? dir ≠ some p) :
    warningsIn (without w p n) dir = warningsIn w dir := by
  rw [warningsIn_without hw hb, manifestPaths_without_of_ne hw hb h, warningsIn]

variable {e : ManifestFile.Error} (h : w.directory? dir = some p) (hn : n ∈ subdirectories w p)
  (he : ManifestFile.load w (manifestPath dir n) = .error e)
include h hn he

theorem drops_warningsIn : Drops (.log .warn e.text) (warningsIn w dir) (warningsIn (without w p n) dir) := by
  rw [warningsIn_without hw hb]
  exact (manifestPaths_without hw hb h hn).filterMap_of_some (by rw [fileWarning?, he])

-- A manifest that fails is not among those that are found, whatever search path comes upon it.
theorem foundIn_without_eq : foundIn (without w p n) = foundIn w := by
  funext dir'
  rw [foundIn_without hw hb]
  by_cases h' : w.directory? dir' = some p
  case pos =>
    have ⟨e', he'⟩ := exists_load_eq_error hw hb h h' hn he
    exact ((manifestPaths_without hw hb h' hn).filterMap_of_none (by rw [he']; rfl)).symm
  case neg => rw [manifestPaths_without_of_ne hw hb h', foundIn]

theorem discover_without (c : Configuration) (paths : List String) :
    let found := c.providers.filter (·.defect? = none) ++ paths.flatMap (foundIn w)
    discover (without w p n) c paths =
      (found, c.providers.filterMap inlineWarning? ++ paths.flatMap (warningsIn (without w p n)) ++
        [summaryOf found]) := by
  rw [discover_eq ((lacks_without hb).proper hw), foundIn_without_eq hw hb h hn he]

end Removal

-- What can be relied on when providers are looked for. Each search path that leads to a directory gives the
-- manifests of its subdirectories in ascending order of their names as bytes. What is found and what is warned of
-- is told for each candidate on its own. The order in which a directory lists its names has no influence, nor has a
-- search path that leads to no directory. A manifest that fails can be taken away: nothing changes but one warning,
-- or one for each search path that leads to its directory.
structure Orderly (w : World) (c : Configuration) (paths : List String) : Prop where
  ascending : ∀ p, (subdirectories w p).Pairwise fun a b =>
    Text.Utf8.encode a.toList < Text.Utf8.encode b.toList
  immediate : ∀ p n, n ∈ subdirectories w p ↔
    n ∈ w.files.listing p ∧ (w.files.content? (p ++ [n, "provider.json"])).isSome
  found : (discover w c paths).1 = c.providers.filter (·.defect? = none) ++ paths.flatMap (foundIn w)
  warned : (discover w c paths).2 = c.providers.filterMap inlineWarning? ++ paths.flatMap (warningsIn w) ++
    [summaryOf (discover w c paths).1]
  enumeration : ∀ files, w.files.Reordered files → discover { w with files } c paths = discover w c paths
  missing : ∀ before dir after, paths = before ++ dir :: after → w.directory? dir = none →
    discover w c paths = discover w c (before ++ after)
  inline : ∀ ms m d, Drops m c.providers ms → m.defect? = some d → ∃ found ws ws',
    discover w c paths = (found, ws) ∧ discover w { c with providers := ms } paths = (found, ws') ∧
      Drops (.log .warn s!"Skipping provider from config: {d.message}") ws ws'
  onDisk : ∀ dir p n e, w.directory? dir = some p → n ∈ subdirectories w p →
    ManifestFile.load w (manifestPath dir n) = .error e →
    (discover (without w p n) c paths).1 = (discover w c paths).1 ∧
    (discover (without w p n) c paths).2 = c.providers.filterMap inlineWarning? ++
      paths.flatMap (warningsIn (without w p n)) ++ [summaryOf (discover w c paths).1] ∧
    (∀ d, w.directory? d ≠ some p → warningsIn (without w p n) d = warningsIn w d) ∧
    (∀ d, w.directory? d = some p → ∃ e', ManifestFile.load w (manifestPath d n) = .error e' ∧
      Drops (.log .warn e'.text) (warningsIn w d) (warningsIn (without w p n) d))
  once : ∀ before dir after p n e, paths = before ++ dir :: after → w.directory? dir = some p →
    (∀ d ∈ before ++ after, w.directory? d ≠ some p) → n ∈ subdirectories w p →
    ManifestFile.load w (manifestPath dir n) = .error e → ∃ found ws ws',
      discover w c paths = (found, ws) ∧ discover (without w p n) c paths = (found, ws') ∧
        Drops (.log .warn e.text) ws ws'

theorem discover_orderly (hw : w.files.Proper) (c : Configuration) (paths : List String) : Orderly w c paths := by
  have hdiscover := discover_eq hw c paths
  constructor
  case ascending =>
    intro p
    refine (subdirectories_pairwise (hw p).left).imp fun h => Text.Utf8.encode_lt_encode ?_
    exact String.lt_iff_toList_lt.mp h
  case immediate => exact fun p n => mem_subdirectories
  case found => rw [hdiscover]
  case warned => rw [hdiscover]
  case enumeration => exact fun files h => discover_reordered h hw c paths
  case missing =>
    rintro before dir after rfl h
    exact discover_missing hw c before after h
  case inline => exact fun ms m d h hd => discover_inline hw paths h hd c
  case onDisk =>
    intro dir p n e h hn he
    have ⟨bytes, hb⟩ := Option.isSome_iff_exists.mp (mem_subdirectories.mp hn).right
    rw [discover_without hw hb h hn he, hdiscover]
    refine ⟨rfl, rfl, fun d hd => warningsIn_without_of_ne hw hb hd, fun d hd => ?_⟩
    have ⟨e', he'⟩ := exists_load_eq_error hw hb h hd hn he
    exact ⟨e', he', drops_warningsIn hw hb hd hn he'⟩
  case once =>
    rintro before dir after p n e rfl h hothers hn he
    have ⟨bytes, hb⟩ := Option.isSome_iff_exists.mp (mem_subdirectories.mp hn).right
    have hbefore := List.flatMap_congr fun d hd =>
      warningsIn_without_of_ne hw hb (hothers d (List.mem_append_left after hd))
    have hafter := List.flatMap_congr fun d hd =>
      warningsIn_without_of_ne hw hb (hothers d (List.mem_append_right before hd))
    have hdrops := (drops_warningsIn hw hb h hn he).append
      (c.providers.filterMap inlineWarning? ++ before.flatMap (warningsIn w))
    refine ⟨_, _, _, hdiscover, discover_without hw hb h hn he c _, ?_⟩
    simp only [List.flatMap_append, List.flatMap_cons, hbefore, hafter]
    simpa only [List.append_assoc] using hdrops (after.flatMap (warningsIn w) ++ [summaryOf _])

-- The name `a` comes before `a.b`, though the directory lists it later and `.` comes before `/`.
theorem discover_orderly_of_unsorted :
    let manifest := Tree.dir [("provider.json", .file [] false)]
    let w : World := { files := .dir [("p", .dir [("a.b", manifest), ("a", manifest)])], cwd := "/" }
    w.files.Proper ∧ Orderly w {} ["p", "q"] ∧ subdirectories w ["p"] = ["a", "a.b"] := by
  intro manifest w
  have hmanifest : manifest.Proper :=
    Tree.proper_dir (by decide) (List.forall_mem_singleton.mpr ⟨proper_fileName, Tree.proper_file _ _⟩)
  have hp : Tree.Proper (.dir [("a.b", manifest), ("a", manifest)]) :=
    Tree.proper_dir (by simp) (by simp [hmanifest]; decide)
  have hw : w.files.Proper :=
    Tree.proper_dir (by decide) (List.forall_mem_singleton.mpr ⟨by decide, hp⟩)
  refine ⟨hw, discover_orderly hw _ _, ?_⟩
  refine (subdirectories_pairwise (hw _).left).eq_of_mem_iff (by decide) fun n => ?_
  rw [mem_subdirectories]
  have hlisting : w.files.listing ["p"] = ["a.b", "a"] := rfl
  rw [hlisting]
  simp only [List.mem_cons, List.not_mem_nil, or_false]
  constructor
  case mp => exact fun h => h.left.symm
  case mpr => rintro (rfl | rfl) <;> decide

-- There is one manifest, and it fails, but two search paths come upon it. Without it both warnings are gone.
theorem warns_twice :
    let w : World := { files := .dir [("p", .dir [("x", .dir [("provider.json", .file [0xFF] false)])])], cwd := "/" }
    let warning := Event.log .warn "invalid provider manifest p/x/provider.json: stream did not contain valid UTF-8"
    let summary := Event.log .debug "Discovered providers: []"
    (discover w {} ["p", "p"]).2 = [warning, warning, summary] ∧
      (discover (without w ["p"] "x") {} ["p", "p"]).2 = [summary] := by
  decide +kernel +zetaReduce

end Discovery
end CompilerDriver

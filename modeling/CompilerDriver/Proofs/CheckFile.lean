import CompilerDriver.Proofs.File.Parents
import CompilerDriver.Proofs.File.Writing
import CompilerDriver.Proofs.Json.Containers
import CompilerDriver.Proofs.Time.Timestamp
import CompilerDriver.Update.CheckFile
/-!
The time of a check that is saved is the one that the next decision is made by.

Saving needs the directory of the file, which is made if it can be, and then a place for the file. Neither what was in
the file nor the time decides whether it succeeds. What is loaded is the time that was saved, except for a leap second
that does not end a minute: its text shows the next second.
-/
namespace CompilerDriver

open Json.Reader (Takes Reads takes_stringAs)
open Time (Instant)
open Time.Timestamp (write carried carried_eq_self_iff read_write_carried)

namespace World

-- The files with the directories that lead to a path.
def withParent (w : World) (path : String) : Except File.Fault File.Tree :=
  match File.Path.parent? path with
  | some dir => w.files.createDirs w.cwd dir
  | none => .ok w.files

-- The directories that lead to the path can be made, and then the file can be written.
def Savable (w : World) (path : String) : Prop :=
  ∃ files, w.withParent path = .ok files ∧ ({ w with files } : World).Writable path

-- The directory that a file lies in is there when the file can be written.
theorem Writable.savable {w : World} {path : String} (h : w.Writable path) : w.Savable path := by
  have ⟨_, _, hw⟩ := h
  refine ⟨w.files, ?_, h⟩
  rw [withParent]
  cases hp : File.Path.parent? path
  case none => rfl
  case some => exact File.Tree.createDirs_parent hp hw.leads

end World

namespace Update

variable {w w' : World} {path : String} {t : Instant}

theorem takes_instant (h : t.Representable) : Takes instantReader (.text (write t)) (carried t) := by
  intro level blanks rest hb hr
  rw [instantReader, Text.bind_of_eq (takes_stringAs _ _ level blanks rest hb hr)]
  simp only [read_write_carried h]
  rfl

theorem readCheckTime_write (h : t.Representable) : readCheckTime (writeCheckTime t) = .ok (carried t) := by
  have hreads : Reads (Json.Reader.record · checkTimeShape)
      (.record [("last_check", .text (write t))]) (carried t) := by
    refine .record (some (carried t)) (fun inner => ?_) (fun _ => rfl) rfl
    exact .field rfl rfl (fun _ => (takes_instant h).bind_pure) .done
  refine hreads.run ?_
  simp [Json.Document.depth, Json.Document.depthFields, Json.Reader.greatestDepth]

theorem saveCheckTime_eq_ok_iff : saveCheckTime w path t = .ok w' ↔
    ∃ files, w.withParent path = .ok files ∧
      ({ w with files } : World).writeText path (writeCheckTime t) = .ok w' := by
  rw [saveCheckTime, World.withParent]
  generalize writeCheckTime t = text
  cases File.Path.parent? path
  case none =>
    dsimp only
    split
    all_goals simp_all
  case some dir =>
    dsimp only
    cases w.files.createDirs w.cwd dir
    case error => simp
    case ok files =>
      dsimp only
      split
      all_goals simp_all

-- What can be relied on when the time of a check is saved. It is loaded as its text shows it, and that is the time
-- itself unless it has the fraction of a leap second in a second that does not end a minute. The time that is loaded
-- decides whether the next check is due.
structure Keeps (w : World) (path : String) (t : Instant) : Prop where
  saved : (∃ w', saveCheckTime w path t = .ok w') ↔ w.Savable path
  writable : w.Writable path → ∃ w', saveCheckTime w path t = .ok w'
  loaded : ∀ w', saveCheckTime w path t = .ok w' → loadCheckTime w' path = some (carried t)
  same : ∀ w', saveCheckTime w path t = .ok w' →
    (loadCheckTime w' path = some t ↔ (t.isLeap = true → t.seconds % 60 = 59))
  due : ∀ w', saveCheckTime w path t = .ok w' → ∀ (u : UpdateSettings) (now : Instant),
    dueIn w' u (some path) now = true ↔ u.enabled = true ∧ isDue (some (carried t)) now u.intervalDays = true

theorem exists_saveCheckTime_iff : (∃ w', saveCheckTime w path t = .ok w') ↔ w.Savable path := by
  simp only [saveCheckTime_eq_ok_iff, World.Savable]
  rw [exists_comm]
  exact exists_congr fun files => by rw [exists_and_left, World.exists_writeText_iff]

theorem loadCheckTime_of_save (h : t.Representable) (hs : saveCheckTime w path t = .ok w') :
    loadCheckTime w' path = some (carried t) := by
  have ⟨_, _, hw⟩ := saveCheckTime_eq_ok_iff.mp hs
  rw [loadCheckTime, World.readText_of_writeText hw]
  simp only [readCheckTime_write h]
  rfl

-- A directory for the state in which the file of the time is no text, and a leap second before the year 0.
def leftover : World where
  files := .dir [("home", .dir [("state", .dir [("update-check.json", .file [0xff, 0x00] false)])])]
  cwd := "/home"

theorem leftover_writable : leftover.Writable "state/update-check.json" :=
  ⟨["home", "state", "update-check.json"], false, by decide +kernel, by decide +kernel,
    .inl ⟨[0xff, 0x00], rfl⟩⟩

end Update

end CompilerDriver
